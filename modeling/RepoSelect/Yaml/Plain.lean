import RepoSelect.Binary64.Shortest
import RepoSelect.Power
import RepoSelect.Text.Numeral

/-!
# What plain scalars mean

Null, a truth value, an integer in one of four bases, a number with a fraction or an exponent,
or just text. Digits with a zero in front are text.
-/

namespace RepoSelect.Yaml

/-- The meaning of a scalar without quotes. -/
inductive Plain where
  | null
  | bool (b : Bool)
  /-- An integer of 128 bits at most. -/
  | integer (n : Int)
  | number (negative : Bool) (x : Binary64)
  | infinite (negative : Bool)
  | notANumber
  | text
deriving Repr, DecidableEq

namespace Plain

def isNull (s : String) : Bool := s = "null" || s = "Null" || s = "NULL" || s = "~"

def bool? : String → Option Bool
  | "true" | "True" | "TRUE" => some true
  | "false" | "False" | "FALSE" => some false
  | _ => none

/-! ## Integers -/

/-- Digits behind a sign or none, with a zero in front of others. -/
def hasLeadingZero (s : List Char) : Bool :=
  let ds := match s with
    | '-' :: r => r
    | '+' :: r => r
    | r => r
  match ds with
  | '0' :: r@(_ :: _) => r.all Char.isDigit
  | _ => false

/-- The digits behind `0x`, `0o` or `0b` in their base, or the whole in base ten. -/
def magnitude? : List Char → Option Nat
  | '0' :: 'x' :: r => Text.natural? 16 r
  | '0' :: 'o' :: r => Text.natural? 8 r
  | '0' :: 'b' :: r => Text.natural? 2 r
  | s => if hasLeadingZero s then none else Text.natural? 10 s

/-- An integer without a minus. -/
def unsigned? (s : List Char) : Option Nat :=
  match s with
  | '+' :: r => magnitude? r
  | r => magnitude? r

/-- The magnitude of an integer behind a minus. -/
def negated? (s : List Char) : Option Nat :=
  match s with
  | '-' :: r => magnitude? r
  | _ => none

/-- An integer of 128 bits. -/
def integer? (s : List Char) : Option Int :=
  match unsigned? s, negated? s with
  | some n, _ => if n < twoTo 128 then some n else none
  | none, some n => if n ≤ twoTo 127 then some (-n) else none
  | none, none => none

/-! ## Numbers -/

/-- The value of `digits · 10 ^ exponent`, if it is finite. -/
def decimal? (digits : List Char) (exponent : Int) : Option Binary64 :=
  let m := digits.foldl (fun n c => 10 * n + (c.toNat - '0'.toNat)) 0
  let size : Int := digits.length + exponent
  if m = 0 ∨ size < -330 then some ⟨0⟩
  else if 400 + digits.length < size then none
  else
    let x := Binary64.ofRatio (m * tenTo exponent.toNat) (tenTo (-exponent).toNat)
    if x.isFinite then some x else none

/-- The exponent behind `e`, with a sign or none; nothing stands for zero. -/
def exponent? : List Char → Option Int
  | [] => some 0
  | c :: r =>
    if c = 'e' ∨ c = 'E' then
      let (negative, ds) := match r with
        | '-' :: ds => (true, ds)
        | '+' :: ds => (false, ds)
        | ds => (false, ds)
      (Text.natural? 10 ds).map fun n => if negative then -n else n
    else none

/-- A number without a sign. -/
def unsignedNumber? (s : List Char) : Option Binary64 :=
  let whole := s.takeWhile Char.isDigit
  let rest := s.dropWhile Char.isDigit
  let (fraction, rest) := match rest with
    | '.' :: r => (r.takeWhile Char.isDigit, r.dropWhile Char.isDigit)
    | r => ([], r)
  if whole = [] ∧ fraction = [] then none
  else
    match exponent? rest with
    | none => none
    | some e => decimal? (whole ++ fraction) (e - fraction.length)

def number? (s : List Char) : Option (Bool × Binary64) :=
  match s with
  | '-' :: r => (unsignedNumber? r).map (true, ·)
  | '+' :: r => (unsignedNumber? r).map (false, ·)
  | r => (unsignedNumber? r).map (false, ·)

/-- A number, an infinity, or none of either. -/
def float? (s : String) : Option Plain :=
  match s with
  | ".inf" | ".Inf" | ".INF" | "+.inf" | "+.Inf" | "+.INF" => some (infinite false)
  | "-.inf" | "-.Inf" | "-.INF" => some (infinite true)
  | ".nan" | ".NaN" | ".NAN" => some notANumber
  | s => (number? s.toList).map fun (negative, x) => number negative x

def ofText (s : String) : Plain :=
  if s = "" ∨ isNull s then null
  else
    match bool? s, integer? s.toList with
    | some b, _ => bool b
    | none, some n => integer n
    | none, none => if hasLeadingZero s.toList then text else (float? s).getD text

/-- A number as messages show it, with all of its digits. -/
def numberText (negative : Bool) (x : Binary64) : String :=
  String.ofList (if negative then '-' :: x.shortest.positional else x.shortest.positional)

end Plain

end RepoSelect.Yaml
