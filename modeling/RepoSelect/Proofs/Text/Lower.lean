import RepoSelect.Proofs.Text.Trim
import RepoSelect.Text.Lower

/-!
# Lower case

Digits and small Latin letters are their own lower case (`lowerFrom_eq_self`), and no character that
is no blank has a blank in its lower case, so that a text which ends with none still does
(`isBlank_getLast_lower`).
-/

namespace RepoSelect

/-! ## Characters of a numeral and its unit -/

/-- A digit or a small Latin letter. -/
def IsWritten (c : Char) : Prop := c.isDigit = true ∨ c.isLower = true

theorem range_of_isLower {c : Char} (h : c.isLower = true) : 97 ≤ c.toNat ∧ c.toNat ≤ 122 := by
  obtain ⟨hfirst, hlast⟩ := Bool.and_eq_true_iff.mp h
  exact ⟨of_decide_eq_true hfirst, of_decide_eq_true hlast⟩

theorem IsWritten.range {c : Char} (h : IsWritten c) :
    48 ≤ c.toNat ∧ c.toNat ≤ 57 ∨ 97 ≤ c.toNat ∧ c.toNat ≤ 122 := by
  rcases h with h | h
  · simp only [Char.isDigit, Bool.and_eq_true, decide_eq_true_eq] at h
    exact .inl h
  · exact .inr (range_of_isLower h)

theorem IsWritten.not_blank {c : Char} (h : IsWritten c) : isBlank c = false := by
  have hrange := h.range
  simp only [isBlank, Bool.or_eq_false_iff, Bool.and_eq_false_iff, decide_eq_false_iff_not,
    beq_eq_false_iff_ne]
  omega

namespace Text

theorem lowerChar_of_isWritten {c : Char} (h : IsWritten c) : lowerChar c = c := by
  have hruns : ∀ r ∈ lowerRuns, 0x41 ≤ r.1 ∧ (r.2.1 ≤ 0x5A ∨ 0xC0 ≤ r.1) := by decide +kernel
  simp only [lowerChar]
  split
  next first last step shift hfound =>
    -- a run that holds `c` lies below or above the numeral's characters
    have houtside : 0x41 ≤ first ∧ (last ≤ 0x5A ∨ 0xC0 ≤ first) :=
      hruns _ (List.mem_of_find?_eq_some hfound)
    have hinside := List.find?_some hfound
    simp only [Bool.and_eq_true, decide_eq_true_eq] at hinside
    have hrange := h.range
    omega
  next => rfl

theorem lowerFrom_eq_self {s : List Char} (before : List Char) (h : ∀ c ∈ s, IsWritten c) :
    lowerFrom before s = s := by
  induction s generalizing before with
  | nil => rfl
  | cons c r ih =>
    have hc : IsWritten c := h c (by simp)
    have hsigma : c ≠ 'Σ' ∧ c ≠ 'İ' := by
      constructor <;> (rintro rfl; have := hc.range; revert this; decide)
    simp only [lowerFrom]
    rw [if_neg hsigma.1, if_neg hsigma.2, lowerChar_of_isWritten hc,
      ih _ fun d hd => h d (by simp [hd])]
    rfl

theorem trim_of_isWritten {s : List Char} (h : ∀ c ∈ s, IsWritten c) : trim s = s :=
  trim_eq_self (fun c hc => (h c (List.mem_of_mem_head? hc)).not_blank)
    fun c hc => (h c (List.mem_of_getLast? hc)).not_blank

/-! ## Blanks -/

/-- The lower-case forms that the table gives lie between the blanks. -/
theorem lowerRuns_apart : ∀ r ∈ lowerRuns,
    (0x61 ≤ r.1 + r.2.2.2 ∧ r.2.1 + r.2.2.2 ≤ 0x7A)
      ∨ (0xA1 ≤ r.1 + r.2.2.2 ∧ r.2.1 + r.2.2.2 ≤ 0x167F)
      ∨ (0x1681 ≤ r.1 + r.2.2.2 ∧ r.2.1 + r.2.2.2 ≤ 0x1FFF)
      ∨ (0x2060 ≤ r.1 + r.2.2.2 ∧ r.2.1 + r.2.2.2 ≤ 0x2FFF)
      ∨ 0x3001 ≤ r.1 + r.2.2.2 := by
  decide +kernel

/-- A number that is no character stands for the first one. -/
theorem toNat_ofNat_cases (n : Nat) : (Char.ofNat n).toNat = n ∨ (Char.ofNat n).toNat = 0 := by
  by_cases h : n.isValidChar
  · rw [Char.ofNat, dif_pos h]
    exact .inl rfl
  · rw [Char.ofNat, dif_neg h]
    exact .inr rfl

theorem isBlank_lowerChar {c : Char} (h : isBlank c = false) : isBlank (lowerChar c) = false := by
  simp only [lowerChar]
  split
  next first last step shift hfound =>
    have hapart := lowerRuns_apart _ (List.mem_of_find?_eq_some hfound)
    have hinside := List.find?_some hfound
    simp only [Bool.and_eq_true, decide_eq_true_eq] at hinside hapart
    have hnumber := toNat_ofNat_cases (c.toNat + shift).toNat
    simp only [isBlank, Bool.or_eq_false_iff, Bool.and_eq_false_iff, decide_eq_false_iff_not,
      beq_eq_false_iff_ne]
    omega
  next => exact h

theorem eq_nil_of_lowerFrom {before s : List Char} (h : lowerFrom before s = []) : s = [] := by
  cases s with
  | nil => rfl
  | cons c r =>
    simp only [lowerFrom, List.append_eq_nil_iff] at h
    repeat' split at h
    all_goals cases h.1

theorem isBlank_getLast_lowerFrom {s : List Char} (before : List Char)
    (h : ∀ c, s.getLast? = some c → isBlank c = false) {d : Char}
    (hd : (lowerFrom before s).getLast? = some d) : isBlank d = false := by
  induction s generalizing before with
  | nil => cases hd
  | cons c r ih =>
    simp only [lowerFrom, List.getLast?_append, Option.or_eq_some_iff] at hd
    rcases hd with hrest | ⟨hnone, hhere⟩
    · refine ih _ (fun e he => h e ?_) hrest
      rw [List.getLast?_cons, he, Option.getD_some]
    · -- nothing follows, so that the character is the last one
      obtain rfl : r = [] := eq_nil_of_lowerFrom (List.getLast?_eq_none_iff.mp hnone)
      have hc : isBlank c = false := h c rfl
      split at hhere
      · split at hhere <;> cases hhere <;> decide
      · split at hhere
        · cases hhere
          decide
        · cases hhere
          exact isBlank_lowerChar hc

theorem isBlank_getLast_lower {s : List Char} (h : ∀ c, s.getLast? = some c → isBlank c = false)
    {d : Char} (hd : (lower s).getLast? = some d) : isBlank d = false :=
  isBlank_getLast_lowerFrom [] h hd

end Text

end RepoSelect
