import RepoSelect.Yaml.Token.Block
import RepoSelect.Yaml.Token.Unquoted
import RepoSelect.Yaml.Token.Tag

/-!
# From text to tokens

A scan with a stack of indentations. A scalar or a collection that may turn out to be a key
is remembered with its place among the tokens; when the colon follows, the marks of the key
and of its mapping are put in front of it.
-/

namespace RepoSelect.Yaml

/-- Where a key may have started. -/
structure PossibleKey where
  /-- It must be one, because it starts a line at the indentation of its mapping. -/
  required : Bool
  /-- The number of tokens in front of it. -/
  place : Nat
  index : Nat
  line : Nat
  column : Nat
deriving Repr, DecidableEq

/-- A key ends on its line and within 1024 characters. -/
def PossibleKey.reaches (k : PossibleKey) (c : Cursor) : Bool :=
  k.line = c.line && c.index ≤ k.index + 1024

structure Scan where
  cursor : Cursor
  /-- The tokens found, the last one first. -/
  found : List Token := []
  count : Nat := 0
  indent : Int := -1
  outer : List Int := []
  /-- The possible key of each flow collection entered, the innermost first, and of the
  block around them. -/
  keys : List (Option PossibleKey) := [none]
  keyAllowed : Bool := true
deriving Repr, DecidableEq

namespace Scan

abbrev Result := Except String Scan

def inFlow (s : Scan) : Bool := 1 < s.keys.length

def push (s : Scan) (t : Token) : Scan := { s with found := t :: s.found, count := s.count + 1 }

/-- Puts a token in front of all but the first `place` ones. -/
def insertAt (s : Scan) (place : Nat) (t : Token) : Scan :=
  { s with found := s.found.insertIdx (s.count - place) t, count := s.count + 1 }

def move (s : Scan) (k : Nat) : Scan := { s with cursor := s.cursor.advance k }

def possibleKey? (s : Scan) : Option PossibleKey := s.keys.head?.join

def setKey (s : Scan) (k : Option PossibleKey) : Scan := { s with keys := k :: s.keys.drop 1 }

/-- Gives up the possible key of the innermost collection. -/
def dropKey (s : Scan) : Result :=
  if s.possibleKey?.any (·.required) then .error "could not find expected ':'"
  else .ok (s.setKey none)

/-- Remembers that a key may start here. -/
def saveKey (s : Scan) : Result :=
  if s.keyAllowed then do
    let c := s.cursor
    let required := !s.inFlow && s.indent = c.column
    let s ← s.dropKey
    .ok (s.setKey (some ⟨required, s.count, c.index, c.line, c.column⟩))
  else .ok s

/-! ## Indentation -/

/-- Leaves the block collections that are indented more than `column`. -/
def unroll (column : Int) (s : Scan) : Scan :=
  if s.inFlow then s
  else
    let all := s.indent :: s.outer
    let left := all.dropWhile (column < ·)
    let closed := all.length - left.length
    { s with
      indent := left.headD (-1), outer := left.drop 1
      found := List.replicate closed .blockEnd ++ s.found, count := s.count + closed }

/-- Enters a block collection at `column`, which starts at a place among the tokens. -/
def roll (column : Int) (place : Nat) (start : Token) (s : Scan) : Scan :=
  if s.inFlow || column ≤ s.indent then s
  else { s with indent := column, outer := s.indent :: s.outer }.insertAt place start

/-! ## Tokens -/

/-- Skips blanks, comments and line breaks. A tab is no blank where a key may start. -/
def toNextToken (fuel : Nat) (s : Scan) : Scan :=
  match fuel with
  | 0 => s
  | fuel + 1 =>
    let c := if s.cursor.index = 0 ∧ s.cursor.peek? = some '\ufeff' then s.cursor.advance 1
      else s.cursor
    let c := c.skipWhile fun d => d = ' ' || ((s.inFlow || !s.keyAllowed) && d = '\t')
    let c := if c.peek? = some '#' then c.skipWhile fun _ => true else c
    if c.peek?.any isBreak then
      toNextToken fuel { s with cursor := c.skipBreak, keyAllowed := s.keyAllowed || !s.inFlow }
    else { s with cursor := c }

/-- Ends every block collection, and with it every possible key. -/
def closeAll (s : Scan) : Result := do
  let s ← (s.unroll (-1)).dropKey
  .ok { s with keyAllowed := false }

def directive (s : Scan) : Result := do
  let s ← s.closeAll
  let (t, c) ← Directive.token s.cursor
  .ok ({ s with cursor := c }.push t)

def documentMark (t : Token) (s : Scan) : Result := do
  let s ← s.closeAll
  .ok ((s.move 3).push t)

def flowStart (t : Token) (s : Scan) : Result := do
  let s ← s.saveKey
  .ok ({ s with keys := none :: s.keys, keyAllowed := true }.move 1 |>.push t)

def flowEnd (t : Token) (s : Scan) : Result := do
  let s ← s.dropKey
  let keys := if s.inFlow then s.keys.drop 1 else s.keys
  .ok ({ s with keys, keyAllowed := false }.move 1 |>.push t)

def flowEntry (s : Scan) : Result := do
  let s ← s.dropKey
  .ok ({ s with keyAllowed := true }.move 1 |>.push .flowEntry)

def blockEntry (s : Scan) : Result := do
  if !s.inFlow && !s.keyAllowed then
    .error "block sequence entries are not allowed in this context"
  else
    let s ← (s.roll s.cursor.column s.count .blockSequenceStart).dropKey
    .ok ({ s with keyAllowed := true }.move 1 |>.push .blockEntry)

def keyMark (s : Scan) : Result := do
  if !s.inFlow && !s.keyAllowed then .error "mapping keys are not allowed in this context"
  else
    let s ← (s.roll s.cursor.column s.count .blockMappingStart).dropKey
    .ok ({ s with keyAllowed := !s.inFlow }.move 1 |>.push .key)

/-- The colon behind a key. -/
def valueMark (s : Scan) : Result := do
  let value (s : Scan) : Scan := (s.move 1).push .value
  match s.possibleKey? with
  | some k =>
    if k.reaches s.cursor then
      let s := (s.insertAt k.place .key).roll k.column k.place .blockMappingStart
      .ok (value { s.setKey none with keyAllowed := false })
    else if k.required then .error "could not find expected ':'"
    else behindComplexKey (s.setKey none) value
  | none => behindComplexKey s value
where
  /-- The colon behind a key that has a mark of its own, or none at all. -/
  behindComplexKey (s : Scan) (value : Scan → Scan) : Result :=
    if !s.inFlow && !s.keyAllowed then
      .error "mapping values are not allowed in this context"
    else
      let s := s.roll s.cursor.column s.count .blockMappingStart
      .ok (value { s with keyAllowed := !s.inFlow })

/-- A token that may be a key, read by `step` from the character behind its mark on. -/
def named (skip : Nat) (step : Step Token) (s : Scan) : Result := do
  let s ← s.saveKey
  let (t, c) ← step (s.cursor.advance skip)
  .ok ({ s with keyAllowed := false, cursor := c }.push t)

def blockScalar (literal : Bool) (s : Scan) : Result := do
  let s ← s.dropKey
  let (text, c) ← Block.scalar literal s.indent s.cursor
  let style := if literal then .literal else .folded
  .ok ({ s with keyAllowed := true, cursor := c }.push (.scalar text style))

def plainScalar (s : Scan) : Result := do
  let s ← s.saveKey
  let ((text, broken), c) ← Unquoted.scalar s.inFlow s.indent s.cursor
  .ok ({ s with keyAllowed := broken, cursor := c }.push (.scalar text .plain))

/-- Marks that no plain scalar starts with. -/
def isIndicator (c : Char) : Bool :=
  Unquoted.isFlowMark c || c = '-' || c = '?' || c = ':' || c = '#' || c = '&' || c = '*'
    || c = '!' || c = '|' || c = '>' || c = '\'' || c = '"' || c = '%' || c = '@' || c = '`'

def startsPlain (flow : Bool) (c : Char) (next : Option Char) : Bool :=
  (!isIndicator c && !isSpaceOrTab c) || (c = '-' && !next.any isSpaceOrTab)
    || (!flow && (c = '?' || c = ':') && !endsWord next)

/-- The token that starts with the character `d`. -/
def fetch (s : Scan) (d : Char) : Result :=
  let c := s.cursor
  let next := c.ahead? 1
  let marked := s.inFlow || endsWord next
  if c.column = 0 ∧ d = '%' then s.directive
  else if c.atDocumentMark then
    s.documentMark (if d = '-' then .documentStart else .documentEnd)
  else if d = '[' then s.flowStart .flowSequenceStart
  else if d = '\x7b' then s.flowStart .flowMappingStart
  else if d = ']' then s.flowEnd .flowSequenceEnd
  else if d = '\x7d' then s.flowEnd .flowMappingEnd
  else if d = ',' then s.flowEntry
  else if d = '-' ∧ endsWord next then s.blockEntry
  else if d = '?' ∧ marked then s.keyMark
  else if d = ':' ∧ marked then s.valueMark
  else if d = '*' then s.named 1 fun c => (anchorName c).map fun (n, c) => (.alias n, c)
  else if d = '&' then s.named 1 fun c => (anchorName c).map fun (n, c) => (.anchor n, c)
  else if d = '!' then s.named 0 (Tag.token s.inFlow)
  else if d = '|' ∧ !s.inFlow then s.blockScalar true
  else if d = '>' ∧ !s.inFlow then s.blockScalar false
  else if d = '\'' then
    s.named 0 fun c => (Quoted.scalar true c).map fun (t, c) => (.scalar t .singleQuoted, c)
  else if d = '"' then
    s.named 0 fun c => (Quoted.scalar false c).map fun (t, c) => (.scalar t .doubleQuoted, c)
  else if startsPlain s.inFlow d next then s.plainScalar
  else .error "found character that cannot start any token"

def loop (fuel : Nat) (s : Scan) : Result :=
  match fuel with
  | 0 => .ok s
  | fuel + 1 =>
    let s := s.toNextToken (s.cursor.rest.length + 1)
    match s.cursor.peek? with
    | none => s.closeAll
    | some d => do loop fuel (← (s.unroll s.cursor.column).fetch d)

end Scan

/-- The tokens of a text. -/
def Token.scan (text : List Char) : Except String (List Token) := do
  let text := if text.head? = some '\ufeff' then text.drop 1 else text
  if !text.all isPrintable then .error "control characters are not allowed"
  else
    let s ← Scan.loop (text.length + 1) { cursor := { rest := text } }
    .ok s.found.reverse

end RepoSelect.Yaml
