import RepoSelect.Binary64

/-!
# The shortest decimal of a binary64 number

The fewest digits that read back as the same number; of two such decimals the nearer one,
and of two equally near the even one.
-/

namespace RepoSelect

/-- The decimal `digits · 10 ^ exponent`. -/
structure Decimal where
  digits : Nat
  exponent : Int
deriving Repr, DecidableEq

namespace Binary64

/-- The decimals that read back as a number, in quarters of a unit: those from `low` to
`high`, with the ends if `closed`. -/
structure Reach where
  low : Nat
  high : Nat
  closed : Bool
deriving Repr, DecidableEq

def reach (x : Binary64) : Reach :=
  let step := twoTo (lastBit x.units)
  let significand := x.units / step
  let below := if significand = twoTo 52 ∧ 1 < step then step else 2 * step
  ⟨4 * x.units - below, 4 * x.units + 2 * step, significand % 2 = 0⟩

/-- The exponent of the first digit. -/
def leadingExponent (x : Binary64) : Int :=
  let whole := x.units / one
  if whole ≠ 0 then (Nat.toDigits 10 whole).length - 1
  else -(((List.range 325).find? fun j => one ≤ x.units * tenTo j).getD 0 : Nat)

/-- `c · 10 ^ k` lies in the reach of `x`. -/
def reads (r : Reach) (c : Nat) (k : Int) : Bool :=
  let value := 4 * c * one * tenTo k.toNat
  let scale := tenTo (-k).toNat
  (r.low * scale < value && value < r.high * scale)
    || (r.closed && (value = r.low * scale || value = r.high * scale))

/-- The decimal of the grid `10 ^ k` that reads back as `x`, if one of its two neighbours
there does. -/
def onGrid? (x : Binary64) (k : Int) : Option Decimal :=
  let a := x.units * tenTo (-k).toNat
  let d := one * tenTo k.toNat
  let nearer := roundHalfEven a d
  let other := if nearer = a / d then nearer + 1 else a / d
  if reads x.reach nearer k then some ⟨nearer, k⟩
  else if reads x.reach other k then some ⟨other, k⟩
  else none

/-- The shortest decimal, from the coarsest grid that has one. -/
def shortest (x : Binary64) : Decimal :=
  if x.units = 0 then ⟨0, 0⟩
  else
    let lead := x.leadingExponent
    ((List.range 18).findSome? fun (n : Nat) => x.onGrid? (lead + 1 - n)).getD ⟨0, 0⟩

end Binary64

namespace Decimal

def digitTexts (d : Decimal) : List Char := Nat.toDigits 10 d.digits

/-- Where the decimal point stands, counted from in front of the first digit. -/
def point (d : Decimal) : Int := d.digitTexts.length + d.exponent

/-- All digits written out, with `.0` behind an integer. -/
def positional (d : Decimal) : List Char :=
  let ds := d.digitTexts
  let p := d.point
  if p ≤ 0 then '0' :: '.' :: List.replicate (-p).toNat '0' ++ ds
  else if d.exponent ≥ 0 then ds ++ List.replicate d.exponent.toNat '0' ++ ['.', '0']
  else ds.take p.toNat ++ '.' :: ds.drop p.toNat

/-- One digit in front of the point, and an exponent with a sign and two digits at least. -/
def scientific (d : Decimal) : List Char :=
  let ds := d.digitTexts
  let e := d.point - 1
  let mantissa := match ds with
    | c :: r@(_ :: _) => c :: '.' :: r
    | short => short
  let size := Nat.toDigits 10 e.natAbs
  let padded := if size.length < 2 then '0' :: size else size
  mantissa ++ 'e' :: (if e < 0 then '-' else '+') :: padded

end Decimal

end RepoSelect
