import RepoSelect.Document
import RepoSelect.Power
import RepoSelect.Text.Quoted
import RepoSelect.Yaml.Node.Parser
import RepoSelect.Yaml.Plain

/-!
# YAML as a document

What each kind of node is to a reader of typed values. Every scalar is a text as it is
spelled; an empty plain one is also an empty list, table or record. Faults say where they
arose.
-/

namespace RepoSelect.Yaml

/-- A node of a graph; none where a text has no document. -/
structure Part where
  graph : Graph
  node : Option Node

namespace Tag

def null : String := "tag:yaml.org,2002:null"

def bool : String := "tag:yaml.org,2002:bool"

def int : String := "tag:yaml.org,2002:int"

def float : String := "tag:yaml.org,2002:float"

/-- A tag of the text's own, as against those of the language. -/
def isLocal (tag : Option String) : Bool := tag.any fun t => t.toList.head? = some '!'

/-- The name in a tag of the text's own. -/
def localName (tag : String) : String :=
  match tag.toList with
  | '!' :: c :: r => .ofList (c :: r)
  | _ => tag

end Tag

namespace Part

def root (g : Graph) : Part := ⟨g, g.root⟩

/-- Follows aliases, `fuel` of them at most. -/
def follow (fuel : Nat) (p : Part) : Part :=
  match fuel, p.node with
  | fuel + 1, some (.alias a) => follow fuel ⟨p.graph, p.graph.lookup? a⟩
  | _, _ => p

/-- The node that is meant, behind any aliases. -/
def target (p : Part) : Option Node := (p.follow (p.graph.anchored.length + 1)).node

def sub (p : Part) (n : Node) : Part := ⟨p.graph, some n⟩

/-! ## What a scalar is -/

/-- What a scalar is to a reader that takes anything, with its tag taken into account, or
the reason why it is nothing. -/
def meaning (tag : Option String) (text : String) (style : ScalarStyle) :
    Except Cause (Option Plain) :=
  let wanted (found : Option Plain) (expected : String) : Except Cause (Option Plain) :=
    match found with
    | some v => .ok (some v)
    | none => .error (.wrongValue ("string " ++ quotedText text) expected)
  let untagged : Except Cause (Option Plain) :=
    match style, Plain.ofText text with
    | .plain, .text => .ok none
    | .plain, v => .ok (some v)
    | _, _ => .ok none
  if tag = some Tag.bool then wanted ((Plain.bool? text).map .bool) "a boolean"
  else if tag = some Tag.int then
    wanted ((Plain.integer? text.toList).map .integer) "an integer"
  else if tag = some Tag.float then wanted (Plain.float? text) "a float"
  else if tag = some Tag.null then
    wanted (if Plain.isNull text then some .null else none) "null"
  else if tag.isNone || Tag.isLocal tag then untagged
  else .ok none

/-- An integer that 64 bits do not hold, as messages name it. -/
def integerText (n : Int) : String :=
  "integer `" ++ toString n ++ "`"
    ++ if twoTo 64 ≤ n then " as u128" else if n < -twoTo 63 then " as i128" else ""

/-- A scalar as messages name it. -/
def found (text : String) : Option Plain → String
  | some .null => "unit value"
  | some (.bool b) => "boolean `" ++ toString b ++ "`"
  | some (.integer n) => integerText n
  | some (.number negative x) => "floating point `" ++ Plain.numberText negative x ++ "`"
  | some (.infinite true) => "floating point `-inf.0`"
  | some (.infinite false) => "floating point `inf.0`"
  | some .notANumber => "floating point `NaN.0`"
  | some .text | none => "string " ++ quotedText text

/-- The node is not of the expected type. -/
def mismatch (expected : String) (p : Part) : Cause :=
  match p.target with
  | none | some (.alias _) => .malformed "EOF while parsing a value"
  | some (.sequence _ _) => .wrongType "sequence" expected
  | some (.mapping _ _) => .wrongType "map" expected
  | some (.scalar tag text style) =>
    match meaning tag text style with
    | .error cause => cause
    | .ok v => .wrongType (found text v) expected

/-- The node is an empty plain scalar, or no node at all. -/
def isBlank (p : Part) : Bool :=
  match p.target with
  | none => true
  | some (.scalar _ text .plain) => text = ""
  | _ => false

/-- The scalar may be of the type `tag`: it is plain, or a literal with just that tag. -/
def mayBe (wanted : String) (tag : Option String) (style : ScalarStyle) : Bool :=
  style = .plain || (style = .literal && tag = some wanted)

/-! ## Reading -/

def asText (expected : String) (p : Part) : Except Cause String :=
  match p.target with
  | some (.scalar _ text _) => .ok text
  | _ => .error (p.mismatch expected)

def asFlag (p : Part) : Except Cause Bool :=
  match p.target with
  | some (.scalar tag text style) =>
    match mayBe Tag.bool tag style, Plain.bool? text with
    | true, some b => .ok b
    | _, _ => .error (p.mismatch "a boolean")
  | _ => .error (p.mismatch "a boolean")

def asCount (p : Part) : Except Cause Nat :=
  match p.target with
  | some (.scalar tag text style) =>
    match mayBe Tag.int tag style, Plain.unsigned? text.toList with
    | true, some n => if n < twoTo 64 then .ok n else .error (p.mismatch "u64")
    | _, _ => .error (p.mismatch "u64")
  | _ => .error (p.mismatch "u64")

def asItems (p : Part) : Except Cause (List Part) :=
  match p.target with
  | some (.sequence _ items) => .ok (items.map p.sub)
  | _ => if p.isBlank then .ok [] else .error (p.mismatch "a sequence")

def pairs (expected : String) (p : Part) : Except Cause (List (Part × Part)) :=
  match p.target with
  | some (.mapping _ entries) => .ok (entries.map fun (k, v) => (p.sub k, p.sub v))
  | _ => if p.isBlank then .ok [] else .error (p.mismatch expected)

def asNull (p : Part) : Except Cause Bool :=
  match p.target with
  | none => .ok true
  | some (.scalar tag text .plain) =>
    if tag = some Tag.null then
      if Plain.isNull text then .ok true
      else .error (.wrongValue ("string " ++ quotedText text) "null")
    else if tag.isSome then .ok false
    else .ok (text = "" || Plain.isNull text)
  | _ => .ok false

def knownVariant (known : List String) (name : String) : Except Cause String :=
  if known.contains name then .ok name else .error (.unknownVariant name known)

/-- A variant is a scalar, or the name in a tag of the text's own with nothing under it. -/
def asVariant (known : List String) (p : Part) : Except Cause String :=
  let wanted := "a YAML tag starting with '!'"
  let tagged (tag : Option String) (untagged : Except Cause String) : Except Cause String :=
    if Tag.isLocal tag then do
      let name ← knownVariant known (Tag.localName (tag.getD ""))
      match p.target with
      | some (.scalar _ text style) =>
        if text = "" || (style = .plain && Plain.isNull text) then .ok name
        else .error (.wrongType (found text ((meaning none text style).toOption.getD none)) "unit")
      | _ => .error (p.mismatch "unit")
    else untagged
  match p.target with
  | some (.scalar tag text _) => tagged tag (knownVariant known text)
  | some (.sequence tag _) => tagged tag (.error (.wrongType "sequence" wanted))
  | some (.mapping tag _) => tagged tag (.error (.wrongType "map" wanted))
  | _ => .error (p.mismatch wanted)

end Part

instance : RepoSelect.Document Part where
  located := true
  text := Part.asText
  flag := Part.asFlag
  count := Part.asCount
  items := Part.asItems
  entries := Part.pairs "a map"
  shape record p := (p.pairs record).map .members
  isNull := Part.asNull
  variant := Part.asVariant

/-! ## Values of one type or another -/

/-- What a node is to a reader that chooses by the type it finds. -/
inductive Content where
  | text (s : String)
  | integer (n : Int)
  | list (items : List Content)
  | other
deriving Repr

namespace Content

open RepoSelect.Document (under atCause readItems)

/-- Reads the keys and values of a mapping for what is wrong with them. -/
def checkEntries (read : Part → Reading Content) : List (Part × Part) → Reading Unit
  | [] => .ok ()
  | (k, v) :: rest => do
    let _ ← read k
    let segment := match k.target with
      | some (.scalar _ s _) => Segment.field s
      | _ => .unnamed
    let _ ← under segment (read v)
    checkEntries read rest

def refused : Reading Content :=
  atCause Part (.error (.refused
    "untagged and internally tagged enums do not support enum input"))

def ofScalar (tag : Option String) (s : String) (style : ScalarStyle) :
    Except Cause Content := do
  match ← Part.meaning tag s style with
  | none => .ok (text s)
  | some (.integer n) =>
    if twoTo 64 ≤ n ∨ n < -twoTo 63 then .error (.wrongType (Part.integerText n) "any value")
    else .ok (integer n)
  | some _ => .ok other

/-- The content of a node that has `depth` levels of collections at most. -/
def ofPart (depth : Nat) (p : Part) : Reading Content :=
  match p.target, depth with
  | none, _ | some (.alias _), _ => .ok other
  | some (.scalar tag s style), _ =>
    if Tag.isLocal tag then refused else atCause Part (ofScalar tag s style)
  | some (.sequence tag _), 0 | some (.mapping tag _), 0 =>
    if Tag.isLocal tag then refused else .error ⟨.tooDeep, some []⟩
  | some (.sequence tag items), depth + 1 =>
    if Tag.isLocal tag then refused
    else do .ok (list (← readItems (ofPart depth) 0 (items.map p.sub)))
  | some (.mapping tag entries), depth + 1 =>
    if Tag.isLocal tag then refused
    else do
      checkEntries (ofPart depth) (entries.map fun (k, v) => (p.sub k, p.sub v))
      .ok other

end Content

/-- Reads a text and then a typed value from it. -/
def decode (read : Part → Reading α) (text : String) : Reading α :=
  match Graph.read text with
  | .error message => .error ⟨.malformed message, none⟩
  | .ok g => read (.root g)

end RepoSelect.Yaml
