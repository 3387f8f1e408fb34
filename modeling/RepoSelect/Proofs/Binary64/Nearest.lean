import RepoSelect.Binary64

/-!
# Rounding to binary64

The number nearest to a quotient is at most half a step off (`nearest_near`), and the step is known
from a bound of the quotient (`step_le_of_lt`). A significand below 2⁵³ is kept at every exponent
(`nearest_of_significand`), so that whole numbers up to 2⁵³ are kept, and their products up to there
(`ofNat_eq`, `scale_ofNat`). In the other direction, a quotient that is less than one half off a
whole number is rounded to it (`roundHalfEven_eq`).
-/

namespace RepoSelect

theorem roundHalfEven_near (a : Nat) {d : Nat} (h : 0 < d) :
    2 * a ≤ 2 * (roundHalfEven a d * d) + d ∧ 2 * (roundHalfEven a d * d) ≤ 2 * a + d := by
  have hdiv : d * (a / d) + a % d = a := Nat.div_add_mod a d
  have hmod : a % d < d := Nat.mod_lt a h
  rw [Nat.mul_comm] at hdiv
  unfold roundHalfEven
  simp only
  repeat' split
  all_goals
    try rw [Nat.add_mul, Nat.one_mul]
    omega

theorem roundHalfEven_eq {a d q : Nat} (hlow : 2 * (q * d) < 2 * a + d)
    (hhigh : 2 * a < 2 * (q * d) + d) : roundHalfEven a d = q := by
  by_cases hle : q * d ≤ a
  · have hdiv : a / d = q := Nat.div_eq_of_lt_le hle (by rw [Nat.add_mul, Nat.one_mul]; omega)
    have hmod : a % d = a - q * d := by
      rw [Nat.mod_eq_sub_mul_div, hdiv, Nat.mul_comm]
    simp only [roundHalfEven, hdiv, hmod]
    rw [if_pos (by omega)]
  · -- The quotient is rounded up.
    obtain ⟨p, rfl⟩ : ∃ p, q = p + 1 := by
      cases q with
      | zero => omega
      | succ p => exact ⟨p, rfl⟩
    rw [Nat.add_mul, Nat.one_mul] at hlow hhigh hle
    have hdiv : a / d = p :=
      Nat.div_eq_of_lt_le (by omega) (by rw [Nat.add_mul, Nat.one_mul]; omega)
    have hmod : a % d = a - p * d := by
      rw [Nat.mod_eq_sub_mul_div, hdiv, Nat.mul_comm]
    simp only [roundHalfEven, hdiv, hmod]
    rw [if_neg (by omega), if_pos (by omega)]

namespace Binary64

theorem one_pos : 0 < one := twoTo_pos 1074

/-- The distance of the numbers around so many units. -/
def step (units : Nat) : Nat := twoTo (lastBit units)

theorem nearest_near (a : Nat) {d : Nat} (h : 0 < d) :
    2 * a ≤ 2 * ((nearest a d).units * d) + d * step (a / d)
      ∧ 2 * ((nearest a d).units * d) ≤ 2 * a + d * step (a / d) := by
  have hnear := roundHalfEven_near a (d := d * step (a / d)) (Nat.mul_pos h (twoTo_pos _))
  have hunits : (nearest a d).units * d
      = roundHalfEven a (d * step (a / d)) * (d * step (a / d)) := by
    show roundHalfEven a (d * step (a / d)) * step (a / d) * d = _
    rw [Nat.mul_assoc, Nat.mul_comm (step _)]
  rwa [hunits]

theorem lastBit_le_of_lt {units k : Nat} (h : units < twoTo (53 + k)) : lastBit units ≤ k := by
  rcases Nat.eq_zero_or_pos units with rfl | hpos
  · simp [lastBit]
  · have := (Nat.log2_lt (Nat.ne_of_gt hpos)).mpr h
    unfold lastBit
    omega

theorem step_le_of_lt {units k : Nat} (h : units < twoTo (53 + k)) : step units ≤ twoTo k :=
  Nat.pow_le_pow_right (by decide) (lastBit_le_of_lt h)

theorem nearest_of_significand {m : Nat} (k : Nat) (h : m < twoTo 53) :
    nearest (m * twoTo k) 1 = ⟨m * twoTo k⟩ := by
  rcases Nat.eq_zero_or_pos m with rfl | hm
  · rw [Nat.zero_mul]
    exact nearest_of_small (twoTo_pos 53)
  have hlast : lastBit (m * twoTo k) ≤ k := by
    apply lastBit_le_of_lt
    calc m * twoTo k < twoTo 53 * twoTo k := (Nat.mul_lt_mul_right (twoTo_pos k)).mpr h
      _ = twoTo (53 + k) := (twoTo_add 53 k).symm
  have hsplit : m * twoTo k
      = m * twoTo (k - lastBit (m * twoTo k)) * step (m * twoTo k) := by
    have hpow : twoTo k = twoTo (k - lastBit (m * twoTo k)) * step (m * twoTo k) := by
      rw [step, ← twoTo_add, Nat.sub_add_cancel hlast]
    rw [Nat.mul_assoc, ← hpow]
  have hround := roundHalfEven_mul (m * twoTo (k - lastBit (m * twoTo k)))
    (d := step (m * twoTo k)) (twoTo_pos _)
  rw [← hsplit] at hround
  unfold nearest
  simp only [Nat.div_one, Nat.one_mul]
  exact congrArg Binary64.mk ((congrArg (· * _) hround).trans hsplit.symm)

theorem ofNat_eq {n : Nat} (h : n ≤ twoTo 53) : ofNat n = ⟨n * one⟩ := by
  rcases Nat.lt_or_eq_of_le h with hlt | rfl
  · exact nearest_of_significand 1074 hlt
  · -- The bound itself has the significand 2⁵² and the next exponent.
    have hnext : twoTo 53 * one = twoTo 52 * twoTo 1075 := by
      rw [one, twoTo_succ 52, twoTo_succ 1074, Nat.mul_left_comm, Nat.mul_assoc]
    rw [ofNat, ofRatio, hnext]
    exact nearest_of_significand 1075 (by decide)

theorem scale_ofNat {n size : Nat} (hn : n ≤ twoTo 53) (h : n * size ≤ twoTo 53) :
    (ofNat n).scale size = ⟨n * size * one⟩ := by
  rw [ofNat_eq hn, scale, Nat.mul_right_comm]
  exact ofNat_eq h

end Binary64

end RepoSelect
