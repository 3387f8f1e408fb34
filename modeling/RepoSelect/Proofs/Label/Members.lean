import RepoSelect.Label.Index

/-!
# The members of a label

What the steps that make a label index do to the members of each label. An index is built from
repositories that are added to labels (`mem_members_extend`), and at the end one label is made
to hold the keys of the catalog and nothing else (`get?_superset_build`).
-/

namespace RepoSelect.LabelIndex

variable {ix : LabelIndex} {label l r : String}

theorem mem_members : r ∈ ix.members label ↔ ∃ repos, ix.get? label = some repos ∧ r ∈ repos := by
  unfold members
  cases h : ix.get? label with
  | none => simp [Std.ExtTreeSet.not_mem_empty]
  | some repos => simp

theorem not_mem_members_empty : r ∉ empty.members label := by
  simp [members, get?, empty, Std.ExtTreeSet.not_mem_empty]

theorem mem_members_extend {repos : List String} :
    r ∈ (ix.extend label repos).members l ↔ r ∈ ix.members l ∨ (l = label ∧ r ∈ repos) := by
  by_cases h : label = l
  · subst h
    simp [extend, members, get?, Std.ExtTreeSet.mem_union_iff, Std.ExtTreeSet.mem_ofList]
  · have hne : l ≠ label := fun heq => h heq.symm
    simp [extend, members, get?, Std.ExtTreeMap.getElem?_insert, h, hne]

theorem mem_members_insert {repo : String} :
    r ∈ (ix.insert label repo).members l ↔ r ∈ ix.members l ∨ (l = label ∧ r = repo) := by
  rw [insert, mem_members_extend, List.mem_singleton]

/-! ## The superset -/

/-- The superset holds the keys of the catalog, whatever labels and aliases have the same
name. -/
theorem get?_superset_build (catalog : Catalog) (aliases : NameMap (List String))
    (superset : String) :
    ∃ repos, (build catalog aliases superset).get? superset = some repos
      ∧ ∀ key, key ∈ repos ↔ key ∈ catalog := by
  refine ⟨Std.ExtTreeSet.ofList catalog.keys, ?_, fun key => ?_⟩
  · simp [build, setSuperset, get?]
  · rw [Std.ExtTreeSet.mem_ofList, List.contains_iff_mem, Std.ExtTreeMap.mem_keys]

end RepoSelect.LabelIndex
