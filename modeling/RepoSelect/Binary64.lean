import RepoSelect.Power

/-!
# Non-negative binary64 numbers

A finite non-negative number of IEEE 754 binary64 is a count of units of 2⁻¹⁰⁷⁴, so that
rounding is integer arithmetic. Numbers past the largest finite one keep their value here;
`isFinite` tells them apart.

Main statement: a count below 2⁵³ is kept as it stands (`nearest_of_small`).
-/

namespace RepoSelect

/-- The integer nearest to `a / d`; a tie goes to the even one. -/
def roundHalfEven (a d : Nat) : Nat :=
  let q := a / d
  let r := a % d
  if 2 * r < d then q else if d < 2 * r then q + 1 else if q % 2 = 0 then q else q + 1

theorem roundHalfEven_mul (q : Nat) {d : Nat} (h : 0 < d) : roundHalfEven (q * d) d = q := by
  simp [roundHalfEven, Nat.mul_div_cancel _ h, h]

structure Binary64 where
  /-- How many times 2⁻¹⁰⁷⁴ the number is. -/
  units : Nat
deriving Repr, DecidableEq

namespace Binary64

/-- How many units make one. -/
def one : Nat := twoTo 1074

/-- Position of the last bit kept of a count, so that 53 bits are left of it. -/
def lastBit (units : Nat) : Nat := units.log2 - 52

/-- The number nearest to `a / d` units; a tie goes to the even significand. -/
def nearest (a d : Nat) : Binary64 :=
  let step := twoTo (lastBit (a / d))
  ⟨roundHalfEven a (d * step) * step⟩

/-- The number nearest to the quotient `a / d`. -/
def ofRatio (a d : Nat) : Binary64 := nearest (a * one) d

def ofNat (n : Nat) : Binary64 := ofRatio n 1

/-- The product with an integer, rounded once. -/
def scale (x : Binary64) (n : Nat) : Binary64 := nearest (x.units * n) 1

/-- The quotient by an integer, rounded once. -/
def divide (x : Binary64) (n : Nat) : Binary64 := nearest x.units n

def isFinite (x : Binary64) : Bool := x.units < twoTo 2098

theorem nearest_of_small {u : Nat} (h : u < twoTo 53) : nearest u 1 = ⟨u⟩ := by
  have hz : lastBit u = 0 := by
    rcases Nat.eq_zero_or_pos u with rfl | hu
    · simp [lastBit]
    · have : u.log2 < 53 := (Nat.log2_lt (Nat.ne_of_gt hu)).2 h
      simp only [lastBit]
      omega
  have := roundHalfEven_mul u (d := 1) (by decide)
  rw [Nat.mul_one] at this
  simp [nearest, hz, this]

end Binary64

end RepoSelect
