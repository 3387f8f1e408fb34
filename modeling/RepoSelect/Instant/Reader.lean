import RepoSelect.Instant.Basic
import RepoSelect.Power
import RepoSelect.Text.Blank

/-!
# Reading an instant

RFC 3339 with some freedom: blanks in front of numbers and marks, `T`, `t` or a space between
date and time, fewer digits than usual, `UTC` or `z` for the offset, and no colon in it.
-/

namespace RepoSelect

inductive InstantFault where
  | tooShort
  | invalid
  | outOfRange
  | tooLong
  | impossible
deriving Repr, DecidableEq

def InstantFault.message : InstantFault → String
  | .tooShort => "premature end of input"
  | .invalid => "input contains invalid characters"
  | .outOfRange => "input is out of range"
  | .tooLong => "trailing input"
  | .impossible => "no possible date and time matching input"

namespace Instant

/-- A step that reads something from the front of a text and returns the rest. -/
abbrev Step (α : Type) := List Char → Except InstantFault (α × List Char)

def digitOf? (c : Char) : Option Nat := if c.isDigit then some (c.toNat - '0'.toNat) else none

/-- The digits at the front, `most` at most, read on from the value `n`. -/
def moreDigits : Nat → Nat → Step Nat
  | 0, n, s => .ok (n, s)
  | _ + 1, n, [] => .ok (n, [])
  | most + 1, n, c :: r =>
    match digitOf? c with
    | none => .ok (n, c :: r)
    | some d =>
      if 10 * n + d < twoTo 63 then moreDigits most (10 * n + d) r else .error .outOfRange

/-- A number of one digit at least and `most` at most. -/
def number (most : Nat) : Step Nat
  | [] => .error .tooShort
  | c :: r => if c.isDigit then moreDigits most 0 (c :: r) else .error .invalid

/-- A number between two bounds, behind blanks. -/
def bounded (most low high : Nat) : Step Nat := fun s => do
  let (n, r) ← number most (Text.trimStart s)
  if low ≤ n ∧ n ≤ high then .ok (n, r) else .error .outOfRange

/-- A year has at most four digits unless it has a sign. -/
def yearStep : Step Int := fun s => do
  let (y, r) ← match Text.trimStart s with
    | '-' :: r => (number r.length r).map fun (n, r) => (-(n : Int), r)
    | '+' :: r => (number r.length r).map fun (n, r) => ((n : Int), r)
    | s => (number 4 s).map fun (n, r) => ((n : Int), r)
  if -twoTo 31 ≤ y ∧ y < twoTo 31 then .ok (y, r) else .error .outOfRange

/-- A mark behind blanks. -/
def mark (m : Char) : Step Unit := fun s =>
  match Text.trimStart s with
  | [] => .error .tooShort
  | c :: r => if c = m then .ok ((), r) else .error .invalid

/-- Between date and time. -/
def separator : Step Unit
  | [] => .error .tooShort
  | c :: r => if c = 't' ∨ c = 'T' ∨ c = ' ' then .ok ((), r) else .error .invalid

/-- The nanoseconds of a fraction of a second; places past the ninth do not count. -/
def fraction : Step Nat
  | '.' :: s => do
    let (n, r) ← number 9 s
    .ok (n * tenTo (9 - (s.length - r.length)), r.dropWhile Char.isDigit)
  | s => .ok (0, s)

/-- Two characters; a text of one byte is too short for them. -/
def pair : Step (Char × Char)
  | c :: d :: r => .ok ((c, d), r)
  | [c] => .error (if c.utf8Size < 2 then .tooShort else .invalid)
  | [] => .error .tooShort

/-- The hours and minutes of an offset in seconds. -/
def offsetSize : Step Nat := fun s => do
  let ((h₁, h₂), r) ← pair s
  let hours ← match digitOf? h₁, digitOf? h₂ with
    | some a, some b => .ok (10 * a + b)
    | _, _ => .error .invalid
  let ((m₁, m₂), r) ← pair (r.dropWhile fun c => c = ':' || isBlank c)
  match digitOf? m₁, digitOf? m₂ with
  | some a, some b =>
    if a < 6 then .ok (hours * 3600 + (10 * a + b) * 60, r) else .error .outOfRange
  | _, _ => .error .invalid

/-- The offset of local time from universal time, in seconds. -/
def offset : Step Int := fun s =>
  if (s.take 3).map Char.toUpper = ['U', 'T', 'C'] then .ok (0, s.drop 3)
  else
    match s with
    | [] => .error .tooShort
    | c :: r =>
      if c = 'Z' ∨ c = 'z' then .ok (0, r)
      else if c = '+' then (offsetSize r).map fun (n, r) => ((n : Int), r)
      else if c = '-' ∨ c = '−' then (offsetSize r).map fun (n, r) => (-(n : Int), r)
      else .error .invalid

/-- The fields of a text, before it is known whether they name an instant. -/
structure Fields where
  year : Int
  month : Nat
  day : Nat
  hour : Nat
  minute : Nat
  second : Nat
  nanos : Nat
  offset : Int
deriving Repr, DecidableEq

def fields : Step Fields := fun s => do
  let (year, s) ← yearStep s
  let (_, s) ← mark '-' s
  let (month, s) ← bounded 2 1 12 s
  let (_, s) ← mark '-' s
  let (day, s) ← bounded 2 1 31 s
  let (_, s) ← separator s
  let (hour, s) ← bounded 2 0 23 s
  let (_, s) ← mark ':' s
  let (minute, s) ← bounded 2 0 59 s
  let (_, s) ← mark ':' s
  let (second, s) ← bounded 2 0 60 s
  let (nanos, s) ← fraction s
  let (offset, s) ← offset (Text.trimStart s)
  .ok ({ year, month, day, hour, minute, second, nanos, offset }, s)

/-- The instant that the fields name; second 60 is a leap second. -/
def Fields.instant (f : Fields) : Except InstantFault Instant :=
  let leap := f.second = 60
  let local_ := f.hour * 3600 + f.minute * 60 + if leap then 59 else f.second
  let nanos := f.nanos + if leap then 1000000000 else 0
  match Calendar.dayNumber? f.year f.month f.day with
  | none => .error .outOfRange
  | some day =>
    if ¬ Calendar.inRange day ∨ 86400 ≤ f.offset.natAbs then .error .outOfRange
    else
      let universal : Int := local_ - f.offset
      match of? (day + universal / 86400) (universal % 86400).toNat nanos with
      | none => .error .impossible
      | some t => .ok t

def read (text : String) : Except InstantFault Instant := do
  let (f, rest) ← fields text.toList
  if Text.trimStart rest = [] then f.instant else .error .tooLong

end Instant

end RepoSelect
