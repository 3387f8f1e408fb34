import RepoSelect.Yaml.Cursor
import RepoSelect.Yaml.Plain

/-!
# Writing YAML

Block collections, two spaces a level, with the items of a sequence at the level of its key.
A text is plain where it may be, else quoted; one with line breaks is a literal block.
-/

namespace RepoSelect.Yaml

/-- What is written: texts, nothing, and collections of them. -/
inductive Value where
  | null
  | bool (b : Bool)
  | text (s : String)
  | list (items : List Value)
  | table (entries : List (String × Value))
deriving Repr

namespace Printer

/-! ## The form of a text -/

/-- Characters that need no escape. -/
def isPlainlyPrintable (c : Char) : Bool :=
  let n := c.toNat
  n = 0x0A || (0x20 ≤ n && n ≤ 0x7E) || (0xA0 ≤ n && n ≤ 0xD7FF)
    || (0xE000 ≤ n && n ≤ 0xFFFD && n ≠ 0xFEFF)

/-- A text that a plain scalar would turn into something else, or that looks like a number. -/
def looksTyped (s : String) : Bool :=
  Plain.ofText s ≠ .text || Plain.hasLeadingZero s.toList

/-- A mark at the start of a text that keeps it from being plain. -/
def startsMarked (c : Char) (next : Option Char) : Bool :=
  c = '#' || c = ',' || c = '[' || c = ']' || c = '\x7b' || c = '\x7d' || c = '&' || c = '*'
    || c = '!' || c = '|' || c = '>' || c = '\'' || c = '"' || c = '%' || c = '@' || c = '`'
    || ((c = '?' || c = ':' || c = '-') && endsWord next)

/-- A mark inside a text, behind the character `before`, that keeps it from being plain. -/
def holdsMark (before : Char) : List Char → Bool
  | [] => false
  | c :: r =>
    (c = ':' && endsWord r.head?) || (c = '#' && endsWord (some before)) || holdsMark c r

/-- The text holds a space next to a character that satisfies `p`, on the side given. -/
def spaceBeside (behind : Bool) : List Char → Bool
  | a :: b :: r =>
    (if behind then isBreak a && b = ' ' else a = ' ' && isBreak b)
      || spaceBeside behind (b :: r)
  | _ => false

def edgeIs (p : Char → Bool) (s : List Char) : Bool := s.head?.any p || s.getLast?.any p

inductive Form where
  | plain
  | singleQuoted
  | doubleQuoted
  | literal
deriving Repr, DecidableEq

/-- The form of a text that is a value, or a key on the line of its value. -/
def form (simpleKey : Bool) (s : String) : Form :=
  let cs := s.toList
  let escaped := cs.any (!isPlainlyPrintable ·) || spaceBeside false cs
  let broken := cs.any isBreak
  if simpleKey && broken then .doubleQuoted
  else if cs.contains '\n' then
    if escaped || cs.getLast? = some ' ' then .doubleQuoted else .literal
  else if escaped || spaceBeside true cs then .doubleQuoted
  else
    let marked := cs.take 3 = ['-', '-', '-'] || cs.take 3 = ['.', '.', '.']
      || (match cs with
        | [] => true
        | c :: r => startsMarked c r.head? || holdsMark c r)
    if looksTyped s || marked || broken || edgeIs (fun c => c = ' ' || isBreak c) cs then
      .singleQuoted
    else .plain

/-! ## The text in its form -/

def upperHex (width n : Nat) : List Char :=
  let ds := (Nat.toDigits 16 n).map Char.toUpper
  List.replicate (width - ds.length) '0' ++ ds

/-- One character between double quotes. -/
def escape (c : Char) : List Char :=
  match c with
  | '\x00' => ['\\', '0']
  | '\x07' => ['\\', 'a']
  | '\x08' => ['\\', 'b']
  | '\t' => ['\\', 't']
  | '\n' => ['\\', 'n']
  | '\x0b' => ['\\', 'v']
  | '\x0c' => ['\\', 'f']
  | '\r' => ['\\', 'r']
  | '\x1b' => ['\\', 'e']
  | '"' => ['\\', '"']
  | '\\' => ['\\', '\\']
  | '\u0085' => ['\\', 'N']
  | '\u2028' => ['\\', 'L']
  | '\u2029' => ['\\', 'P']
  | c =>
    let n := c.toNat
    if isPlainlyPrintable c then [c]
    else if n ≤ 0xFF then '\\' :: 'x' :: upperHex 2 n
    else if n ≤ 0xFFFF then '\\' :: 'u' :: upperHex 4 n
    else '\\' :: 'U' :: upperHex 8 n

def spaces (n : Nat) : List Char := List.replicate n ' '

/-- Between single quotes a quote is written twice, and what follows a break is indented. -/
def singleBody (indent : Nat) (atLineStart : Bool) : List Char → List Char
  | [] => if atLineStart then spaces indent else []
  | c :: r =>
    if isBreak c then c :: singleBody indent true r
    else
      (if atLineStart then spaces indent else []) ++ (if c = '\'' then ['\'', '\''] else [c])
        ++ singleBody indent false r

/-- The lines of a literal block; empty ones are not indented. -/
def literalBody (indent : Nat) (atLineStart : Bool) : List Char → List Char
  | [] => []
  | c :: r =>
    if isBreak c then c :: literalBody indent true r
    else (if atLineStart then spaces indent else []) ++ c :: literalBody indent false r

/-- Indentation and chomping behind the mark of a literal block. -/
def literalHints (s : List Char) : List Char :=
  let start := if s.head?.any fun c => c = ' ' || isBreak c then ['2'] else []
  let stop := match s.reverse with
    | [] => ['-']
    | [c] => if isBreak c then ['+'] else ['-']
    | c :: d :: _ => if !isBreak c then ['-'] else if isBreak d then ['+'] else []
  start ++ stop

/-- A text in a collection indented by `indent`. -/
def scalar (indent : Nat) (simpleKey : Bool) (s : String) : List Char :=
  let cs := s.toList
  match form simpleKey s with
  | .plain => cs
  | .singleQuoted => '\'' :: singleBody (indent + 2) false cs ++ ['\'']
  | .doubleQuoted => '"' :: cs.flatMap escape ++ ['"']
  | .literal => '|' :: literalHints cs ++ '\n' :: literalBody (indent + 2) true cs

/-- A line with its end, which a literal block may have written already. -/
def line (text : List Char) : List Char :=
  if text.getLast?.any isBreak then text else text ++ ['\n']

/-! ## Collections -/

/-- A key that stands on the line of its value. -/
def isSimpleKey (key : String) : Bool :=
  !key.toList.any isBreak && key.utf8ByteSize ≤ 128

/-- A key up to the colon; one that is too long for a line has a mark of its own. -/
def keyPart (indent : Nat) (key : String) : List Char :=
  if isSimpleKey key then scalar indent true key ++ [':']
  else '?' :: ' ' :: line (scalar indent false key) ++ spaces indent ++ [':']

mutual

/-- What follows the mark of a value, to the end of its last line; `inTable` for one behind the key
of a table, so that a sequence needs no further indentation. -/
def value (indent : Nat) (inTable : Bool) : Value → List Char
  | .null => ' ' :: line ['n', 'u', 'l', 'l']
  | .bool true => ' ' :: line ['t', 'r', 'u', 'e']
  | .bool false => ' ' :: line ['f', 'a', 'l', 's', 'e']
  | .text s => ' ' :: line (scalar indent false s)
  | .list [] => ' ' :: line ['[', ']']
  | .table [] => ' ' :: line ['\x7b', '\x7d']
  | .list (v :: vs) =>
    if inTable then '\n' :: spaces indent ++ '-' :: value indent false v ++ items indent vs
    else ' ' :: '-' :: value (indent + 2) false v ++ items (indent + 2) vs
  | .table ((k, v) :: es) =>
    (if inTable then '\n' :: spaces (indent + 2) else [' ']) ++ keyPart (indent + 2) k
      ++ value (indent + 2) (isSimpleKey k) v ++ entries (indent + 2) es

/-- The items of a sequence, each from the start of its line on. -/
def items (indent : Nat) : List Value → List Char
  | [] => []
  | v :: vs => spaces indent ++ '-' :: value indent false v ++ items indent vs

/-- The entries of a table, each from the start of its line on. -/
def entries (indent : Nat) : List (String × Value) → List Char
  | [] => []
  | (k, v) :: es =>
    spaces indent ++ keyPart indent k ++ value indent (isSimpleKey k) v ++ entries indent es

end

/-- The text of a table. -/
def table : List (String × Value) → String
  | [] => "\x7b\x7d\n"
  | es => String.ofList (entries 0 es)

end Printer

end RepoSelect.Yaml
