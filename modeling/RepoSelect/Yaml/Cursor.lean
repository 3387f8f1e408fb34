/-!
# Positions in a YAML text

The text from a position on, with the line and column that indentation is measured by.
-/

namespace RepoSelect.Yaml

def isBreak (c : Char) : Bool :=
  c = '\n' || c = '\r' || c = '\u0085' || c = '\u2028' || c = '\u2029'

def isSpaceOrTab (c : Char) : Bool := c = ' ' || c = '\t'

/-- A space, a tab, a line break or the end of the text. -/
def endsWord : Option Char → Bool
  | none => true
  | some c => isSpaceOrTab c || isBreak c

/-- A line break or the end of the text. -/
def endsLine : Option Char → Bool
  | none => true
  | some c => isBreak c

/-- Characters of anchors and of the names of tags and directives. -/
def isWordChar (c : Char) : Bool := c.isAlphanum || c = '_' || c = '-'

/-- Characters that a text may hold at all. -/
def isPrintable (c : Char) : Bool :=
  let n := c.toNat
  n = 9 || n = 10 || n = 13 || (0x20 ≤ n && n ≤ 0x7E) || n = 0x85
    || (0xA0 ≤ n && n ≤ 0xD7FF) || (0xE000 ≤ n && n ≤ 0xFFFD) || 0x10000 ≤ n

structure Cursor where
  rest : List Char
  index : Nat := 0
  line : Nat := 0
  column : Nat := 0
deriving Repr, DecidableEq

namespace Cursor

def peek? (c : Cursor) : Option Char := c.rest.head?

/-- The character `k` places further on. -/
def ahead? (c : Cursor) (k : Nat) : Option Char := c.rest[k]?

/-- Steps over `k` characters of one line. -/
def advance (c : Cursor) (k : Nat) : Cursor :=
  { c with rest := c.rest.drop k, index := c.index + k, column := c.column + k }

/-- Steps over a line break, if one is here. -/
def skipBreak (c : Cursor) : Cursor :=
  match c.rest with
  | '\r' :: '\n' :: r => { rest := r, index := c.index + 2, line := c.line + 1, column := 0 }
  | d :: r =>
    if isBreak d then { rest := r, index := c.index + 1, line := c.line + 1, column := 0 }
    else c
  | [] => c

/-- The break that is here as it enters a scalar: the line separators as they stand, every
other one as a line feed. -/
def breakText (c : Cursor) : List Char :=
  match c.rest with
  | d :: _ =>
    if d = '\u2028' ∨ d = '\u2029' then [d] else if isBreak d then ['\n'] else []
  | [] => []

/-- The characters of this line that satisfy `p`, and the position behind them. -/
def run (p : Char → Bool) (c : Cursor) : List Char × Cursor :=
  let taken := c.rest.takeWhile fun d => p d && !isBreak d
  (taken, c.advance taken.length)

def skipWhile (p : Char → Bool) (c : Cursor) : Cursor := (c.run p).2

/-- The line starts here, with `---` or `...` and nothing behind it. -/
def atDocumentMark (c : Cursor) : Bool :=
  c.column = 0
    && (c.rest.take 3 = ['-', '-', '-'] || c.rest.take 3 = ['.', '.', '.'])
    && endsWord (c.ahead? 3)

end Cursor

/-- Lines joined into a scalar: a single break becomes a space, further breaks stay. -/
def foldBreaks (leading trailing : List Char) : List Char :=
  if leading = ['\n'] then if trailing = [] then [' '] else trailing
  else leading ++ trailing

/-- A step that reads something at a position and tells where it ends. -/
abbrev Step (α : Type) := Cursor → Except String (α × Cursor)

end RepoSelect.Yaml
