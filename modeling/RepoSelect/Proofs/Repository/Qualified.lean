import RepoSelect.Repository.Basic

/-!
# Qualified names

A qualified name does not always tell which repository it is the name of, since names may have the
separator in them:

> two repositories have the same qualified name if they are the same, or if the project of one of
> them can be read off the other's project or name (`qualifiedName_eq_iff`).

Where no project has a separator in its name, nor a repository of the default project, there are no
such pairs (`not_clashes`).
-/

namespace RepoSelect

variable {d p p' n n' : String}

/-- Two repositories, each as its project and its name, that have one qualified name. -/
inductive Clashes (d : String) : String × String → String × String → Prop
  /-- The name in the default project begins with the other project. -/
  | bare {p n : String} (hp : p ≠ d) : Clashes d (d, p ++ "/" ++ n) (p, n)
  /-- One project begins with the other one. -/
  | nested {p rest n : String} (hp : p ≠ d) (hrest : p ++ "/" ++ rest ≠ d) :
      Clashes d (p ++ "/" ++ rest, n) (p, rest ++ "/" ++ n)

theorem qualifiedName_default (d n : String) : qualifiedName d n d = n := by
  simp [qualifiedName]

theorem qualifiedName_of_ne (hp : p ≠ "") (hd : p ≠ d) (n : String) :
    qualifiedName p n d = p ++ "/" ++ n := by
  simp [qualifiedName, hp, hd]

theorem length_slash (p n : String) :
    (p ++ "/" ++ n).toList.length = p.toList.length + n.toList.length + 1 := by
  simp
  omega

/-- If one text is cut further behind than the other one, the cut goes through the other name. -/
theorem eq_or_exists_rest {more : List Char} (hp : p.toList = p'.toList ++ more)
    (hn : '/' :: n'.toList = more ++ '/' :: n.toList) :
    (p = p' ∧ n = n') ∨ ∃ rest, p = p' ++ "/" ++ rest ∧ n' = rest ++ "/" ++ n := by
  cases more with
  | nil =>
    rw [List.append_nil, String.toList_inj] at hp
    exact .inl ⟨hp, String.toList_inj.mp (List.cons.inj hn).2.symm⟩
  | cons c rest =>
    obtain ⟨rfl, hbehind⟩ := List.cons.inj hn
    have hname : n'.toList = rest ++ '/' :: n.toList := hbehind
    refine .inr ⟨String.ofList rest, ?_, ?_⟩
    · simp [← String.toList_inj, hp]
    · simp [← String.toList_inj, hname]

/-- Of two ways to cut a text at a separator, one cuts a part of the other once more. -/
theorem slash_eq_slash_iff : p ++ "/" ++ n = p' ++ "/" ++ n'
    ↔ (p = p' ∧ n = n') ∨ (∃ rest, p = p' ++ "/" ++ rest ∧ n' = rest ++ "/" ++ n)
      ∨ ∃ rest, p' = p ++ "/" ++ rest ∧ n = rest ++ "/" ++ n' := by
  constructor
  · intro h
    have hlist : p.toList ++ '/' :: n.toList = p'.toList ++ '/' :: n'.toList := by
      simpa using congrArg String.toList h
    obtain ⟨more, hp', hn⟩ | ⟨more, hp, hn'⟩ := List.append_eq_append_iff.mp hlist
    · obtain ⟨rfl, rfl⟩ | hrest := eq_or_exists_rest hp' hn
      · exact .inl ⟨rfl, rfl⟩
      · exact .inr (.inr hrest)
    · obtain hsame | hrest := eq_or_exists_rest hp hn'
      · exact .inl hsame
      · exact .inr (.inl hrest)
  · rintro (⟨rfl, rfl⟩ | ⟨rest, rfl, rfl⟩ | ⟨rest, rfl, rfl⟩)
    · rfl
    · simp [String.append_assoc]
    · simp [String.append_assoc]

namespace Clashes

variable {a b : String × String}

theorem qualifiedName_eq (h : Clashes d a b) (ha : a.1 ≠ "") (hb : b.1 ≠ "") :
    qualifiedName a.1 a.2 d = qualifiedName b.1 b.2 d := by
  cases h with
  | bare hp => rw [qualifiedName_default, qualifiedName_of_ne hb hp]
  | nested hp hrest =>
    rw [qualifiedName_of_ne ha hrest, qualifiedName_of_ne hb hp]
    simp [String.append_assoc]

/-- Repositories that clash have names of different lengths. -/
theorem name_ne (h : Clashes d a b) : a.2 ≠ b.2 := by
  intro heq
  have hlength := congrArg (fun name => name.toList.length) heq
  cases h with
  | bare =>
    simp only [length_slash] at hlength
    omega
  | nested =>
    simp only [length_slash] at hlength
    omega

end Clashes

/-- **Two repositories have one qualified name** if they are the same one or clash. -/
theorem qualifiedName_eq_iff (hp : p ≠ "") (hp' : p' ≠ "") :
    qualifiedName p n d = qualifiedName p' n' d
      ↔ (p, n) = (p', n') ∨ Clashes d (p, n) (p', n') ∨ Clashes d (p', n') (p, n) := by
  constructor
  · intro h
    by_cases hd : p = d
    · subst hd
      by_cases hd' : p' = p
      · subst hd'
        rw [qualifiedName_default, qualifiedName_default] at h
        exact .inl (by rw [h])
      · rw [qualifiedName_default, qualifiedName_of_ne hp' hd'] at h
        subst h
        exact .inr (.inl (.bare hd'))
    · rw [qualifiedName_of_ne hp hd] at h
      by_cases hd' : p' = d
      · subst hd'
        rw [qualifiedName_default] at h
        subst h
        exact .inr (.inr (.bare hd))
      · rw [qualifiedName_of_ne hp' hd'] at h
        obtain ⟨rfl, rfl⟩ | ⟨rest, rfl, rfl⟩ | ⟨rest, rfl, rfl⟩ := slash_eq_slash_iff.mp h
        · exact .inl rfl
        · exact .inr (.inl (.nested hd' hd))
        · exact .inr (.inr (.nested hd hd'))
  · rintro (heq | h | h)
    · obtain ⟨rfl, rfl⟩ := Prod.mk.inj heq
      rfl
    · exact h.qualifiedName_eq hp hp'
    · exact (h.qualifiedName_eq hp' hp).symm

/-- Without separators in the names of projects and of the default project's repositories, nothing
clashes. -/
theorem not_clashes {a b : String × String} (hproject : '/' ∉ a.1.toList)
    (hname : a.1 = d → '/' ∉ a.2.toList) : ¬Clashes d a b := by
  intro h
  cases h with
  | bare => exact hname rfl (by simp)
  | nested => exact hproject (by simp)

end RepoSelect
