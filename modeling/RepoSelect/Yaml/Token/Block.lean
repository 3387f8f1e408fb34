import RepoSelect.Yaml.Token

/-!
# Block scalars

The text behind `|` and `>`: lines at one indentation, with their breaks kept or folded, and
the breaks at the end clipped, stripped or kept.
-/

namespace RepoSelect.Yaml

inductive Chomping where
  | strip
  | clip
  | keep
deriving Repr, DecidableEq

namespace Block

def chomping? : Option Char → Option Chomping
  | some '+' => some .keep
  | some '-' => some .strip
  | _ => none

/-- An explicit indentation, 1 to 9; none when no digit is here. -/
def increment : Step (Option Nat) := fun c =>
  match c.peek? with
  | some '0' => .error "found an indentation indicator equal to 0"
  | some d => if d.isDigit then .ok (some (d.toNat - '0'.toNat), c.advance 1) else .ok (none, c)
  | none => .ok (none, c)

/-- Chomping and indentation in either order. -/
def header : Step (Chomping × Option Nat) := fun c =>
  match chomping? c.peek? with
  | some chomping => do
    let (n, c) ← increment (c.advance 1)
    .ok ((chomping, n), c)
  | none => do
    match ← increment c with
    | (none, c) => .ok ((.clip, none), c)
    | (n, c) =>
      match chomping? c.peek? with
      | some chomping => .ok ((chomping, n), c.advance 1)
      | none => .ok ((.clip, n), c)

/-- The indentation of the content and the breaks in front of the next line of it. -/
structure Margin where
  indent : Nat
  breaks : List Char
deriving Repr, DecidableEq

/-- Skips indentation and empty lines. An indentation of zero is not known yet; it then
becomes the largest one met, and more than that of `parent`. -/
def margin (fuel : Nat) (parent : Int) (widest : Nat) (m : Margin) (c : Cursor) :
    Except String (Margin × Cursor) :=
  let free := fun c : Cursor => m.indent = 0 ∨ c.column < m.indent
  let spaces := (c.rest.takeWhile (· = ' ')).length
  let c := c.advance (if m.indent = 0 then spaces else min spaces (m.indent - c.column))
  let widest := max widest c.column
  if free c ∧ c.peek? = some '\t' then
    .error "found a tab character where an indentation space is expected"
  else
    match fuel, c.peek?.any isBreak with
    | fuel + 1, true =>
      margin fuel parent widest { m with breaks := m.breaks ++ c.breakText } c.skipBreak
    | _, _ =>
      let found := max (max widest (parent + 1).toNat) 1
      .ok ({ m with indent := if m.indent = 0 then found else m.indent }, c)

/-- The lines read so far, and what stands between them and the next one. -/
structure Lines where
  text : List Char := []
  leadingBreak : List Char := []
  leadingBlank : Bool := false
  trailing : List Char := []
deriving Repr, DecidableEq

/-- The text with the next line joined to it; `blank` tells whether that one starts with a
blank. -/
def Lines.joined (l : Lines) (literal blank : Bool) : List Char :=
  let folds := !literal && l.leadingBreak.head? = some '\n' && !l.leadingBlank && !blank
  let joint := if folds then if l.trailing = [] then [' '] else [] else l.leadingBreak
  l.text ++ joint ++ l.trailing

def lines (fuel : Nat) (literal : Bool) (indent : Nat) (l : Lines) (c : Cursor) :
    Except String (Lines × Cursor) :=
  match fuel with
  | 0 => .ok (l, c)
  | fuel + 1 =>
    if c.column ≠ indent ∨ c.rest = [] then .ok (l, c)
    else do
      let blank := c.peek?.any isSpaceOrTab
      let text := l.joined literal blank
      let (line, c) := c.run fun _ => true
      let leadingBreak := c.breakText
      let (m, c) ← margin c.rest.length 0 0 ⟨indent, []⟩ c.skipBreak
      lines fuel literal indent
        { text := text ++ line, leadingBreak, leadingBlank := blank, trailing := m.breaks } c

def chomp (chomping : Chomping) (l : Lines) : List Char :=
  match chomping with
  | .strip => l.text
  | .clip => l.text ++ l.leadingBreak
  | .keep => l.text ++ l.leadingBreak ++ l.trailing

/-- The scalar whose indicator is here, inside a collection indented by `parent`. -/
def scalar (literal : Bool) (parent : Int) : Step String := fun c => do
  let ((chomping, increment), c) ← header (c.advance 1)
  let c := c.skipWhile isSpaceOrTab
  let c := if c.peek? = some '#' then c.skipWhile fun _ => true else c
  if !endsLine c.peek? then .error "did not find expected comment or line break"
  else
    let start := increment.map fun n => (if 0 ≤ parent then parent + n else n).toNat
    let c := c.skipBreak
    let (m, c) ← margin c.rest.length parent 0 ⟨start.getD 0, []⟩ c
    let (l, c) ← lines c.rest.length literal m.indent { trailing := m.breaks } c
    .ok (.ofList (chomp chomping l), c)

end Block

end RepoSelect.Yaml
