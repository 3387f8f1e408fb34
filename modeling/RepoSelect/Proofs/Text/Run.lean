/-!
# Runs of characters

A text is a run of characters of one kind and what follows it (`exists_run`), and a reader that
takes such a run stops where the run does (`takeWhile_append`, `dropWhile_append`). A text that is
joined of others has their characters and those between them (`of_mem_intercalate`).
-/

namespace RepoSelect

variable {p : Char → Bool} {s r : List Char}

theorem exists_run (p : Char → Bool) (s : List Char) :
    ∃ w r, s = w ++ r ∧ (∀ d ∈ w, p d = true) ∧ r.head?.any p = false := by
  induction s with
  | nil => exact ⟨[], [], rfl, nofun, rfl⟩
  | cons d s ih =>
    obtain ⟨w, r, rfl, hw, hr⟩ := ih
    cases hd : p d with
    | false => exact ⟨[], d :: (w ++ r), rfl, nofun, hd⟩
    | true =>
      refine ⟨d :: w, r, rfl, fun e he => ?_, hr⟩
      rcases List.mem_cons.mp he with rfl | he
      · exact hd
      · exact hw e he

theorem takeWhile_append (hs : ∀ d ∈ s, p d = true) (hr : ∀ d, r.head? = some d → p d = false) :
    (s ++ r).takeWhile p = s := by
  rw [List.takeWhile_append_of_pos hs]
  cases r with
  | nil => exact List.append_nil s
  | cons d r => rw [List.takeWhile_cons_of_neg (by simp [hr d rfl]), List.append_nil]

theorem dropWhile_append (hs : ∀ d ∈ s, p d = true) (hr : ∀ d, r.head? = some d → p d = false) :
    (s ++ r).dropWhile p = r := by
  rw [List.dropWhile_append_of_pos hs]
  cases r with
  | nil => rfl
  | cons d r => rw [List.dropWhile_cons_of_neg (by simp [hr d rfl])]

theorem of_mem_intercalate {sep : List Char} {l : List (List Char)} {d : Char}
    (h : d ∈ sep.intercalate l) : d ∈ sep ∨ ∃ s ∈ l, d ∈ s := by
  induction l with
  | nil => simp at h
  | cons s l ih =>
    cases l with
    | nil => exact .inr ⟨s, by simp, by simpa using h⟩
    | cons s' l =>
      rw [List.intercalate_cons_cons, List.mem_append, List.mem_append] at h
      rcases h with (hhead | hsep) | hrest
      · exact .inr ⟨s, by simp, hhead⟩
      · exact .inl hsep
      · exact (ih hrest).imp_right fun ⟨s, hs, hd⟩ => ⟨s, by simp [hs], hd⟩

end RepoSelect
