import RepoSelect.Yaml.Node
import RepoSelect.Yaml.Token.Lexer

/-!
# From tokens to nodes

A recursive descent over the tokens of one document. What is missing between two marks is an
empty scalar. A text holds one document at most.
-/

namespace RepoSelect.Yaml

/-- What a descent carries along: the tokens left, the tag handles of the document, the names
of the anchors met with their numbers, and the nodes behind them. -/
structure Descent where
  tokens : List Token
  handles : List (String × String) := []
  names : List (String × Nat) := []
  /-- How many different names there are. -/
  distinct : Nat := 0
  /-- How many anchors have been met. -/
  met : Nat := 0
  anchored : List Anchored := []
deriving Repr

namespace Descent

def peek? (d : Descent) : Option Token := d.tokens.head?

def skip (d : Descent) : Descent := { d with tokens := d.tokens.drop 1 }

/-- What stands in front of a node. -/
structure Properties where
  anchor : Option String := none
  tag : Option String := none
deriving Repr, DecidableEq

/-- The full tag behind a handle. -/
def resolveTag (d : Descent) (handle suffix : String) : Except String String :=
  if handle = "" then .ok suffix
  else
    match d.handles.find? (·.1 = handle) with
    | some (_, stem) => .ok (stem ++ suffix)
    | none => .error "found undefined tag handle"

/-- An anchor and a tag in either order. -/
def properties (d : Descent) : Except String (Properties × Descent) :=
  match d.tokens with
  | .anchor a :: .tag h s :: rest => do
    .ok (⟨some a, some (← d.resolveTag h s)⟩, { d with tokens := rest })
  | .tag h s :: .anchor a :: rest => do
    .ok (⟨some a, some (← d.resolveTag h s)⟩, { d with tokens := rest })
  | .anchor a :: rest => .ok (⟨some a, none⟩, { d with tokens := rest })
  | .tag h s :: rest => do
    .ok (⟨none, some (← d.resolveTag h s)⟩, { d with tokens := rest })
  | _ => .ok ({}, d)

/-- Gives an anchor its number. A name that is used again does not add to the names, so the
number may be met twice. -/
def enter (p : Properties) (d : Descent) : Option (Nat × Nat) × Descent :=
  match p.anchor with
  | none => (none, d)
  | some name =>
    let number := d.distinct
    let known := d.names.any (·.1 = name)
    (some (number, d.met),
      { d with
        names := (name, number) :: d.names.filter (·.1 ≠ name)
        distinct := if known then d.distinct else d.distinct + 1
        met := d.met + 1 })

/-- Keeps the node behind an anchor. -/
def leave (anchor : Option (Nat × Nat)) (node : Node) (d : Descent) : Node × Descent :=
  match anchor with
  | none => (node, d)
  | some (number, place) => (node, { d with anchored := ⟨number, place, node⟩ :: d.anchored })

/-- The token is one of those after which a value is missing. -/
def endsAt (ends : Token → Bool) (d : Descent) : Bool :=
  match d.peek? with
  | none => false
  | some t => ends t

def blockEnds : Token → Bool
  | .key | .value | .blockEnd => true
  | _ => false

def sequenceEnds : Token → Bool
  | .blockEntry | .blockEnd => true
  | _ => false

def indentlessEnds : Token → Bool
  | .blockEntry | .key | .value | .blockEnd => true
  | _ => false

def flowMappingEnds : Token → Bool
  | .value | .flowEntry | .flowMappingEnd => true
  | _ => false

def flowSequenceEnds : Token → Bool
  | .value | .flowEntry | .flowSequenceEnd => true
  | _ => false

mutual

/-- A node; `block` allows block collections, `indentless` a sequence at the indentation of
its key. -/
def node (fuel : Nat) (block indentless : Bool) (d : Descent) :
    Except String (Node × Descent) :=
  match fuel with
  | 0 => .error "too many levels"
  | fuel + 1 =>
    match d.tokens with
    | .alias name :: rest =>
      match d.names.find? (·.1 = name) with
      | some (_, number) => .ok (.alias number, { d with tokens := rest })
      | none => .error "unknown anchor"
    | _ => do
      let (p, d) ← d.properties
      let (anchor, d) := d.enter p
      let done (r : Node × Descent) : Node × Descent := leave anchor r.1 r.2
      let sequence (r : Except String (List Node × Descent)) :=
        r.map fun (items, d) => done (.sequence p.tag items, d)
      let mapping (r : Except String (List (Node × Node) × Descent)) :=
        r.map fun (entries, d) => done (.mapping p.tag entries, d)
      match d.peek? with
      | some .blockEntry =>
        if indentless then sequence (indentlessItems fuel d)
        else emptyNode p done d
      | some (.scalar text style) =>
        let tag := if p.tag = some "!" then none else p.tag
        .ok (done (.scalar tag text style, d.skip))
      | some .flowSequenceStart => sequence (flowItems fuel true d.skip)
      | some .flowMappingStart => mapping (flowEntries fuel true d.skip)
      | some .blockSequenceStart =>
        if block then sequence (blockItems fuel d.skip) else emptyNode p done d
      | some .blockMappingStart =>
        if block then mapping (blockEntries fuel d.skip) else emptyNode p done d
      | _ => emptyNode p done d
where
  /-- Properties alone make an empty node. -/
  emptyNode (p : Properties) (done : Node × Descent → Node × Descent) (d : Descent) :
      Except String (Node × Descent) :=
    if p.anchor.isSome || p.tag.isSome then .ok (done (.scalar p.tag "" .plain, d))
    else .error "did not find expected node content"

/-- A node, or an empty one where one of the tokens `ends` stands. -/
def nodeOrEmpty (fuel : Nat) (ends : Token → Bool) (block indentless : Bool) (d : Descent) :
    Except String (Node × Descent) :=
  match fuel with
  | 0 => .error "too many levels"
  | fuel + 1 => if d.endsAt ends then .ok (.empty, d) else node fuel block indentless d

def blockItems (fuel : Nat) (d : Descent) : Except String (List Node × Descent) :=
  match fuel with
  | 0 => .error "too many levels"
  | fuel + 1 =>
    match d.peek? with
    | some .blockEntry => do
      let (n, d) ← nodeOrEmpty fuel sequenceEnds true false d.skip
      let (ns, d) ← blockItems fuel d
      .ok (n :: ns, d)
    | some .blockEnd => .ok ([], d.skip)
    | _ => .error "did not find expected '-' indicator"

def indentlessItems (fuel : Nat) (d : Descent) : Except String (List Node × Descent) :=
  match fuel with
  | 0 => .error "too many levels"
  | fuel + 1 =>
    match d.peek? with
    | some .blockEntry => do
      let (n, d) ← nodeOrEmpty fuel indentlessEnds true false d.skip
      let (ns, d) ← indentlessItems fuel d
      .ok (n :: ns, d)
    | _ => .ok ([], d)

def blockEntries (fuel : Nat) (d : Descent) :
    Except String (List (Node × Node) × Descent) :=
  match fuel with
  | 0 => .error "too many levels"
  | fuel + 1 =>
    match d.peek? with
    | some .key => do
      let (k, d) ← nodeOrEmpty fuel blockEnds true true d.skip
      let (v, d) ← if d.peek? = some .value then
          nodeOrEmpty fuel blockEnds true true d.skip
        else .ok (.empty, d)
      let (rest, d) ← blockEntries fuel d
      .ok ((k, v) :: rest, d)
    | some .blockEnd => .ok ([], d.skip)
    | _ => .error "did not find expected key"

/-- The items of a flow sequence; a key among them makes a mapping of one entry. -/
def flowItems (fuel : Nat) (first : Bool) (d : Descent) :
    Except String (List Node × Descent) :=
  match fuel with
  | 0 => .error "too many levels"
  | fuel + 1 =>
    if d.peek? = some .flowSequenceEnd then .ok ([], d.skip)
    else if !first && d.peek? ≠ some .flowEntry then
      .error "did not find expected ',' or ']'"
    else
      let d := if first then d else d.skip
      if d.peek? = some .flowSequenceEnd then .ok ([], d.skip)
      else do
        let (n, d) ← if d.peek? = some .key then pair fuel d.skip else node fuel false false d
        let (ns, d) ← flowItems fuel false d
        .ok (n :: ns, d)

/-- The one entry of a mapping inside a flow sequence. A mark in place of the key is passed
over with it. -/
def pair (fuel : Nat) (d : Descent) : Except String (Node × Descent) :=
  match fuel with
  | 0 => .error "too many levels"
  | fuel + 1 => do
    let (k, d) ← if d.endsAt flowSequenceEnds then .ok (.empty, d.skip)
      else node fuel false false d
    let (v, d) ← if d.peek? = some .value then
        nodeOrEmpty fuel (fun t => t = .flowEntry || t = .flowSequenceEnd) false false d.skip
      else .ok (.empty, d)
    .ok (.mapping none [(k, v)], d)

def flowEntries (fuel : Nat) (first : Bool) (d : Descent) :
    Except String (List (Node × Node) × Descent) :=
  match fuel with
  | 0 => .error "too many levels"
  | fuel + 1 =>
    if d.peek? = some .flowMappingEnd then .ok ([], d.skip)
    else if !first && d.peek? ≠ some .flowEntry then
      .error "did not find expected ',' or '\x7d'"
    else
      let d := if first then d else d.skip
      match d.peek? with
      | some .flowMappingEnd => .ok ([], d.skip)
      | some .key => do
        let (k, d) ← nodeOrEmpty fuel flowMappingEnds false false d.skip
        let (v, d) ← if d.peek? = some .value then
            nodeOrEmpty fuel (fun t => t = .flowEntry || t = .flowMappingEnd) false false d.skip
          else .ok (.empty, d)
        let (rest, d) ← flowEntries fuel false d
        .ok ((k, v) :: rest, d)
      | _ => do
        let (k, d) ← node fuel false false d
        let (rest, d) ← flowEntries fuel false d
        .ok ((k, .empty) :: rest, d)

end

/-! ## Documents -/

/-- The handles that every document knows. -/
def defaultHandles : List (String × String) := [("!", "!"), ("!!", "tag:yaml.org,2002:")]

/-- The directives in front of a document; `versioned` once a version has been given. -/
def directives (versioned : Bool) (own : List (String × String)) :
    List Token → Except String (List (String × String) × List Token)
  | .version major minor :: rest =>
    if versioned then .error "found duplicate %YAML directive"
    else if major ≠ 1 ∨ (minor ≠ 1 ∧ minor ≠ 2) then .error "found incompatible YAML document"
    else directives true own rest
  | .tagHandle h stem :: rest =>
    if own.any (·.1 = h) then .error "found duplicate %TAG directive"
    else directives versioned (own ++ [(h, stem)]) rest
  | rest => .ok (own, rest)

/-- Content is missing where a document ends. -/
def documentEnds : Token → Bool
  | .version _ _ | .tagHandle _ _ | .documentStart | .documentEnd => true
  | _ => false

/-- The root of a document whose start has been passed. -/
def content (d : Descent) : Except String (Node × Descent) :=
  if d.tokens = [] || d.endsAt documentEnds then .ok (.empty, d)
  else node (4 * d.tokens.length + 4) true false d

/-- The document at the front of the tokens, and what follows it. -/
def document (tokens : List Token) : Except String (Node × Descent) := do
  match tokens with
  | .version _ _ :: _ | .tagHandle _ _ :: _ | .documentStart :: _ =>
    let (own, rest) ← directives false [] tokens
    match rest with
    | .documentStart :: rest => content { tokens := rest, handles := own ++ defaultHandles }
    | _ => .error "did not find expected <document start>"
  | _ =>
    node (4 * tokens.length + 4) true false { tokens, handles := defaultHandles }

end Descent

namespace Graph

/-- The single document of a text. -/
def read (text : String) : Except String Graph := do
  let tokens ← Token.scan text.toList
  if tokens = [] then .ok ⟨none, []⟩
  else
    let (root, d) ← Descent.document tokens
    let marks := d.tokens.takeWhile (· = .documentEnd)
    match d.tokens.drop marks.length with
    | [] => .ok ⟨some root, d.anchored⟩
    | _ => .error "more than one document"

def isWellFormed (text : String) : Bool := (read text).isOk

end Graph

end RepoSelect.Yaml
