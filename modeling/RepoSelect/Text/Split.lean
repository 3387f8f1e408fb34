/-!
# Cutting texts

The texts between the occurrences of a character. Main statement: put together again with
the character between them, they are the whole (`intercalate_splitAt`). Lines are put together with
an end behind each of them (`unlines`).
-/

namespace RepoSelect.Text

/-- Lines as one text, each with its end. -/
def unlines (lines : List String) : String := String.join (lines.map (· ++ "\n"))

/-- The texts between the occurrences of `c`, one more than those. -/
def splitAt (c : Char) : List Char → List (List Char)
  | [] => [[]]
  | d :: r =>
    if d = c then [] :: splitAt c r
    else
      match splitAt c r with
      | [] => [[d]]
      | piece :: pieces => (d :: piece) :: pieces

theorem splitAt_ne_nil (c : Char) (s : List Char) : splitAt c s ≠ [] := by
  cases s with
  | nil => simp [splitAt]
  | cons d r =>
    unfold splitAt
    split
    · simp
    · split <;> simp

theorem intercalate_splitAt (c : Char) (s : List Char) :
    [c].intercalate (splitAt c s) = s := by
  induction s with
  | nil => rfl
  | cons d r ih =>
    unfold splitAt
    split
    · next h =>
      subst h
      cases hs : splitAt d r with
      | nil => exact absurd hs (splitAt_ne_nil d r)
      | cons piece pieces =>
        rw [hs] at ih
        simp [List.intercalate, List.intersperse] at ih ⊢
        exact ih
    · split
      · next h hs => exact absurd hs (splitAt_ne_nil c r)
      · next h piece pieces hs =>
        rw [hs] at ih
        cases pieces <;> simp_all [List.intercalate, List.intersperse]

theorem splitAt_of_not_mem {c : Char} {s : List Char} (h : c ∉ s) : splitAt c s = [s] := by
  induction s with
  | nil => rfl
  | cons d r ih =>
    rw [List.mem_cons, not_or] at h
    rw [splitAt, if_neg (Ne.symm h.1), ih h.2]

theorem splitAt_append_cons (c : Char) (a b : List Char) :
    splitAt c (a ++ c :: b) = splitAt c a ++ splitAt c b := by
  induction a with
  | nil => simp [splitAt]
  | cons d a ih =>
    rw [List.cons_append, splitAt, splitAt]
    split
    · rw [ih, List.cons_append]
    · rw [ih]
      cases hs : splitAt c a with
      | nil => exact absurd hs (splitAt_ne_nil c a)
      | cons piece pieces => rfl

end RepoSelect.Text
