import RepoSelect.Yaml.Token

/-!
# Quoted scalars

The text between quotes. Line breaks fold as in plain text; double quotes know escapes, one
of which hides a line break.
-/

namespace RepoSelect.Yaml.Quoted

/-- The character that a backslash and one letter stand for. -/
def letterEscape? : Char → Option Char
  | '0' => some '\x00'
  | 'a' => some '\x07'
  | 'b' => some '\x08'
  | 't' | '\t' => some '\t'
  | 'n' => some '\n'
  | 'v' => some '\x0b'
  | 'f' => some '\x0c'
  | 'r' => some '\r'
  | 'e' => some '\x1b'
  | ' ' => some ' '
  | '"' => some '"'
  | '/' => some '/'
  | '\\' => some '\\'
  | 'N' => some '\u0085'
  | '_' => some '\u00a0'
  | 'L' => some '\u2028'
  | 'P' => some '\u2029'
  | _ => none

/-- The number of hexadecimal digits behind a letter. -/
def hexLength? : Char → Option Nat
  | 'x' => some 2
  | 'u' => some 4
  | 'U' => some 8
  | _ => none

def hexDigit? (c : Char) : Option Nat :=
  if c.isDigit then some (c.toNat - '0'.toNat)
  else if 'a' ≤ c ∧ c ≤ 'f' then some (c.toNat - 'a'.toNat + 10)
  else if 'A' ≤ c ∧ c ≤ 'F' then some (c.toNat - 'A'.toNat + 10)
  else none

/-- The character behind a backslash. -/
def escape : Step Char := fun c =>
  match c.peek? with
  | none => .error "found unknown escape character"
  | some d =>
    match letterEscape? d, hexLength? d with
    | some e, _ => .ok (e, c.advance 1)
    | none, none => .error "found unknown escape character"
    | none, some n =>
      let ds := (c.rest.drop 1).take n
      match ds.mapM hexDigit? with
      | none => .error "did not find expected hexdecimal number"
      | some values =>
        let code := values.foldl (fun a v => a * 16 + v) 0
        if ds.length < n then .error "did not find expected hexdecimal number"
        else if (0xD800 ≤ code ∧ code ≤ 0xDFFF) ∨ 0x10FFFF < code then
          .error "found invalid Unicode character escape code"
        else .ok (.ofNat code, c.advance (n + 1))

/-- The characters up to a blank, a break or the closing quote; whether an escaped break
ended them. -/
def word (fuel : Nat) (single : Bool) (c : Cursor) :
    Except String ((List Char × Bool) × Cursor) :=
  match fuel, c.rest with
  | 0, _ | _, [] => .ok (([], false), c)
  | fuel + 1, d :: r => do
    let more (e : Char) (c : Cursor) : Except String ((List Char × Bool) × Cursor) := do
      let ((text, hidden), c) ← word fuel single c
      .ok ((e :: text, hidden), c)
    if isSpaceOrTab d || isBreak d then .ok (([], false), c)
    else if single then
      if d ≠ '\'' then more d (c.advance 1)
      else if r.head? = some '\'' then more '\'' (c.advance 2)
      else .ok (([], false), c)
    else if d = '"' then .ok (([], false), c)
    else if d ≠ '\\' then more d (c.advance 1)
    else if r.head?.any isBreak then .ok (([], true), (c.advance 1).skipBreak)
    else do
      let (e, c) ← escape (c.advance 1)
      more e c

/-- Blanks between words of a scalar: those of one line, or the breaks around the rest. -/
structure Gap where
  blanks : List Char := []
  /-- A break has been met. -/
  broken : Bool := false
  leading : List Char := []
  trailing : List Char := []
deriving Repr, DecidableEq

def Gap.text (g : Gap) : List Char :=
  if g.broken then foldBreaks g.leading g.trailing else g.blanks

def gap (fuel : Nat) (g : Gap) (c : Cursor) : Gap × Cursor :=
  match fuel, c.peek? with
  | fuel + 1, some d =>
    if isSpaceOrTab d then
      gap fuel (if g.broken then g else { g with blanks := g.blanks ++ [d] }) (c.advance 1)
    else if isBreak d then
      let g := if g.broken then { g with trailing := g.trailing ++ c.breakText }
        else { g with broken := true, blanks := [], leading := c.breakText }
      gap fuel g c.skipBreak
    else (g, c)
  | _, _ => (g, c)

/-- The text from here to the closing quote. -/
def body (fuel : Nat) (single : Bool) (c : Cursor) : Except String (List Char × Cursor) :=
  match fuel with
  | 0 => .error "found unexpected end of stream"
  | fuel + 1 =>
    if c.atDocumentMark then .error "found unexpected document indicator"
    else if c.rest = [] then .error "found unexpected end of stream"
    else do
      let ((text, hidden), c) ← word c.rest.length single c
      if c.peek? = some (if single then '\'' else '"') then .ok (text, c.advance 1)
      else
        let (g, c) := gap c.rest.length { broken := hidden } c
        let (more, c) ← body fuel single c
        .ok (text ++ g.text ++ more, c)

/-- The scalar whose opening quote is here. -/
def scalar (single : Bool) : Step String := fun c => do
  let (text, c) ← body (c.rest.length + 1) single (c.advance 1)
  .ok (.ofList text, c)

end RepoSelect.Yaml.Quoted
