import RepoSelect.Proofs.Suggestion.Rows
import RepoSelect.Suggestion.Similar

/-!
# The name that was perhaps meant

> What is suggested is the earliest of the candidates with the fewest edits, among those that are
> at most two edits away and fewer edits than the name has bytes; nothing is suggested exactly if
> there is no such candidate (`suggests_nearest`).

Candidates that are too far away are dropped before any are compared. So the nearest is first placed
among those that are left (`nearest_eq_some_iff`), and then among all candidates: what is dropped
around it is not near at all.
-/

namespace RepoSelect

variable {name candidate s : String} {d n : Nat} {candidates : List String} {p q : String × Nat}
  {ps : List (String × Nat)}

/-! ## Near candidates -/

/-- The candidate is that many edits away, and near enough to be suggested. -/
structure Near (name candidate : String) (d : Nat) : Prop where
  isLeast : IsLeast {n | Edits n name.toList candidate.toList} d
  le_two : d ≤ 2
  lt_size : d < name.utf8ByteSize

theorem isLeast_editDistance (a b : String) :
    IsLeast {n | Edits n a.toList b.toList} (editDistance a b) := by
  rw [editDistance_eq]
  exact isLeast_leastEdits a.toList b.toList

theorem near_iff :
    Near name candidate d ↔ d = editDistance name candidate ∧ d ≤ 2 ∧ d < name.utf8ByteSize := by
  constructor
  · intro h
    exact ⟨h.isLeast.unique (isLeast_editDistance name candidate), h.le_two, h.lt_size⟩
  · rintro ⟨rfl, htwo, hsize⟩
    exact ⟨isLeast_editDistance name candidate, htwo, hsize⟩

theorem near?_eq_some_iff : near? name candidate = some (s, d) ↔ candidate = s ∧ Near name s d := by
  rw [near_iff, near?]
  constructor
  · intro h
    split at h
    next hnear =>
      obtain ⟨rfl, rfl⟩ := Prod.mk.inj (Option.some.inj h)
      exact ⟨rfl, rfl, hnear⟩
    next => cases h
  · rintro ⟨rfl, rfl, hnear⟩
    exact if_pos hnear

theorem near?_eq_none_iff : near? name candidate = none ↔ ∀ d, ¬Near name candidate d := by
  rw [Option.eq_none_iff_forall_ne_some]
  constructor
  · intro h d hnear
    exact h (candidate, d) (near?_eq_some_iff.mpr ⟨rfl, hnear⟩)
  · rintro h ⟨t, d⟩ hsome
    obtain ⟨rfl, hnear⟩ := near?_eq_some_iff.mp hsome
    exact h d hnear

theorem forall_filterMap_near?_iff {P : Nat → Prop} :
    (∀ q ∈ candidates.filterMap (near? name), P q.2)
      ↔ ∀ t ∈ candidates, ∀ e, Near name t e → P e := by
  rw [List.forall_mem_filterMap]
  constructor
  · intro h t ht e hnear
    exact h t ht (t, e) (near?_eq_some_iff.mpr ⟨rfl, hnear⟩)
  · rintro h t ht ⟨_, e⟩ hsome
    obtain ⟨rfl, hnear⟩ := near?_eq_some_iff.mp hsome
    exact h t ht e hnear

/-! ## The nearest of them -/

theorem forall_nearest_iff :
    (∀ q, nearest ps = some q → n ≤ q.2) ↔ ∀ q ∈ ps, n ≤ q.2 := by
  induction ps with
  | nil => simp [nearest]
  | cons p ps ih =>
    rw [List.forall_mem_cons, ← ih, nearest]
    cases nearest ps with
    | none => simp
    | some q =>
      by_cases hlt : q.2 < p.2
      · simp only [if_pos hlt, Option.some.injEq, forall_eq']
        omega
      · simp only [if_neg hlt, Option.some.injEq, forall_eq']
        omega

theorem nearest_cons_eq_some_iff :
    nearest (q :: ps) = some p
      ↔ (q = p ∧ ∀ r ∈ ps, q.2 ≤ r.2) ∨ (nearest ps = some p ∧ p.2 < q.2) := by
  rw [← forall_nearest_iff, nearest]
  cases nearest ps with
  | none => simp
  | some r =>
    by_cases hlt : r.2 < q.2
    · simp only [if_pos hlt, Option.some.injEq, forall_eq']
      constructor
      · rintro rfl
        exact .inr ⟨rfl, hlt⟩
      · rintro (⟨-, hle⟩ | ⟨rfl, -⟩)
        · exact absurd hlt (Nat.not_lt.mpr hle)
        · rfl
    · simp only [if_neg hlt, Option.some.injEq, forall_eq']
      constructor
      · rintro rfl
        exact .inl ⟨rfl, Nat.not_lt.mp hlt⟩
      · rintro (⟨rfl, -⟩ | ⟨rfl, hlt'⟩)
        · rfl
        · exact absurd hlt' hlt

theorem nearest_eq_none_iff : nearest ps = none ↔ ps = [] := by
  cases ps with
  | nil => simp [nearest]
  | cons p ps =>
    rw [nearest]
    cases nearest ps with
    | none => simp
    | some q => simp only; split <;> simp

/-- The nearest is nearer than all in front of it, and nothing behind it is nearer. -/
theorem nearest_eq_some_iff :
    nearest ps = some p ↔
      ∃ before after, ps = before ++ p :: after ∧ (∀ q ∈ before, p.2 < q.2)
        ∧ ∀ q ∈ after, p.2 ≤ q.2 := by
  induction ps with
  | nil => simp [nearest]
  | cons q ps ih =>
    rw [nearest_cons_eq_some_iff, ih]
    constructor
    · rintro (⟨rfl, hle⟩ | ⟨⟨before, after, rfl, hbefore, hafter⟩, hlt⟩)
      · exact ⟨[], ps, rfl, List.forall_mem_nil _, hle⟩
      · exact ⟨q :: before, after, rfl, List.forall_mem_cons.mpr ⟨hlt, hbefore⟩, hafter⟩
    · rintro ⟨before, after, heq, hbefore, hafter⟩
      cases before with
      | nil =>
        obtain ⟨rfl, rfl⟩ := List.cons.inj heq
        exact .inl ⟨rfl, hafter⟩
      | cons r before =>
        obtain ⟨rfl, rfl⟩ := List.cons.inj heq
        obtain ⟨hlt, hbefore⟩ := List.forall_mem_cons.mp hbefore
        exact .inr ⟨⟨before, after, rfl, hbefore, hafter⟩, hlt⟩

/-! ## The one that is suggested -/

/-- What is in front of and behind a value that was kept comes from what was in front of and behind
the one it was kept for. -/
theorem exists_of_filterMap_eq {f : String → Option (String × Nat)}
    {before after : List (String × Nat)} (h : candidates.filterMap f = before ++ p :: after) :
    ∃ front t back, candidates = front ++ t :: back ∧ f t = some p
      ∧ front.filterMap f = before ∧ back.filterMap f = after := by
  obtain ⟨front, rest, rfl, hfront, hrest⟩ := List.filterMap_eq_append_iff.mp h
  obtain ⟨gap, t, back, rfl, hgap, ht, hback⟩ := List.filterMap_eq_cons_iff.mp hrest
  refine ⟨front ++ gap, t, back, (List.append_assoc ..).symm, ht, ?_, hback⟩
  rw [List.filterMap_append, hfront, List.filterMap_eq_nil_iff.mpr hgap, List.append_nil]

theorem similar?_eq_some_iff :
    similar? name candidates = some s ↔
      ∃ d front back, candidates = front ++ s :: back ∧ Near name s d
        ∧ (∀ t ∈ front, ∀ e, Near name t e → d < e)
        ∧ ∀ t ∈ back, ∀ e, Near name t e → d ≤ e := by
  rw [similar?, Option.map_eq_some_iff]
  constructor
  · rintro ⟨⟨s, d⟩, hnearest, rfl⟩
    obtain ⟨before, after, hcut, hbefore, hafter⟩ := nearest_eq_some_iff.mp hnearest
    obtain ⟨front, t, back, rfl, ht, rfl, rfl⟩ := exists_of_filterMap_eq hcut
    obtain ⟨rfl, hnear⟩ := near?_eq_some_iff.mp ht
    exact ⟨d, front, back, rfl, hnear, forall_filterMap_near?_iff.mp hbefore,
      forall_filterMap_near?_iff.mp hafter⟩
  · rintro ⟨d, front, back, rfl, hnear, hfront, hback⟩
    have hs : near? name s = some (s, d) := near?_eq_some_iff.mpr ⟨rfl, hnear⟩
    refine ⟨(s, d), nearest_eq_some_iff.mpr ⟨front.filterMap (near? name),
      back.filterMap (near? name), ?_, forall_filterMap_near?_iff.mpr hfront,
      forall_filterMap_near?_iff.mpr hback⟩, rfl⟩
    rw [List.filterMap_append, List.filterMap_cons_some hs]

theorem similar?_eq_none_iff :
    similar? name candidates = none ↔ ∀ t ∈ candidates, ∀ d, ¬Near name t d := by
  rw [similar?, Option.map_eq_none_iff, nearest_eq_none_iff, List.filterMap_eq_nil_iff]
  simp only [near?_eq_none_iff]

/-- **What is suggested.** The table has the least number of edits that lead from one text to the
other, and the suggestion is the first of the candidates for which this number is smallest. Edits
are counted in characters and the name is measured in bytes, so a name of one character is
corrected only if that takes more than one byte. -/
theorem suggests_nearest :
    (∀ a b : String, IsLeast {n | Edits n a.toList b.toList} (editDistance a b))
      ∧ ∀ (name : String) (candidates : List String),
          (∀ s, similar? name candidates = some s ↔
            ∃ d front back, candidates = front ++ s :: back ∧ Near name s d
              ∧ (∀ t ∈ front, ∀ e, Near name t e → d < e)
              ∧ ∀ t ∈ back, ∀ e, Near name t e → d ≤ e)
          ∧ (similar? name candidates = none ↔ ∀ t ∈ candidates, ∀ d, ¬Near name t d) :=
  ⟨isLeast_editDistance, fun _ _ => ⟨fun _ => similar?_eq_some_iff, similar?_eq_none_iff⟩⟩

example : similar? "é" ["xyz", "e", "ë"] = some "e" ∧ similar? "e" ["é"] = none := by decide +kernel

end RepoSelect
