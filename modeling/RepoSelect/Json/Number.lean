import RepoSelect.Binary64.Shortest
import RepoSelect.Json.Basic
import RepoSelect.Power

/-!
# JSON numbers

The value of a number's spelling. An integer that 64 bits hold is exact. Any other number is
a significand of as many leading digits as 64 bits hold, multiplied or divided once by a
power of ten.
-/

namespace RepoSelect.Json

/-- The spelling of a number, in parts. -/
structure Literal where
  negative : Bool
  whole : List Char
  fraction : List Char
  /-- Sign and digits behind the `e`. -/
  exponent : Option (Bool × List Char)
deriving Repr, DecidableEq

namespace Number

def digit (c : Char) : Nat := c.toNat - '0'.toNat

/-- Reads digits on to `n` for as long as the value stays below 2⁶⁴; the digits left over. -/
def gather (n : Nat) : List Char → Nat × List Char
  | [] => (n, [])
  | c :: r => if 10 * n + digit c < twoTo 64 then gather (10 * n + digit c) r else (n, c :: r)

/-- The power `10 ^ n` as a binary64. -/
def power (n : Nat) : Binary64 := .ofNat (tenTo n)

/-- Divides by powers of ten, at most `10 ^ 308` at a time. -/
def shrink (fuel : Nat) (x : Binary64) (n : Nat) : Binary64 :=
  match fuel with
  | 0 => ⟨0⟩
  | fuel + 1 =>
    if x.units = 0 then x
    else if n ≤ 308 then .ofRatio x.units (power n).units
    else shrink fuel (.ofRatio x.units (power 308).units) (n - 308)

/-- The number `significand · 10 ^ exponent`; none when it is out of range. -/
def scaled? (significand : Nat) (exponent : Int) : Option Binary64 :=
  let x := Binary64.ofNat significand
  if 0 ≤ exponent then
    if x.units = 0 then some x
    else if 308 < exponent then none
    else
      let y := Binary64.nearest (x.units * (power exponent.toNat).units) Binary64.one
      if y.isFinite then some y else none
  else some (shrink ((-exponent).toNat / 308 + 1) x (-exponent).toNat)

/-- The decimal exponent that a spelling asks for beyond its digits; it has 32 bits. -/
def writtenExponent (significand : Nat) : Option (Bool × List Char) → Option (Option Int)
  | none => some (some 0)
  | some (negative, ds) =>
    let n := ds.foldl (fun n c => 10 * n + digit c) 0
    if n < twoTo 31 then some (some (if negative then -n else n))
    else if negative ∨ significand = 0 then some none
    else none

def ofLiteral? (l : Literal) : Option Number :=
  let (s₁, left₁) := gather 0 l.whole
  let (s, left₂) := gather s₁ l.fraction
  let inPlace := l.fraction = [] && l.exponent.isNone && left₁ = []
  if inPlace && !l.negative then some (.integer s)
  else if inPlace && s ≠ 0 && s ≤ twoTo 63 then some (.integer (-s))
  else
    match writtenExponent s l.exponent with
    | none => none
    | some none => some (.double l.negative ⟨0⟩)
    | some (some e) =>
      let shift : Int := left₁.length - (l.fraction.length - left₂.length : Nat)
      (scaled? s (shift + e)).map (.double l.negative)

/-- A number as it is shown: an exponent only far from the decimal point. -/
def text : Number → String
  | integer n => toString n
  | double negative x =>
    let d := x.shortest
    let digits := if -5 < d.point ∧ d.point ≤ 16 then d.positional else d.scientific
    String.ofList (if negative then '-' :: digits else digits)

end Number

end RepoSelect.Json
