import RepoSelect.Proofs.Label.Members

/-!
# What a label index is built of

A label index is built in three passes over two tables, and each pass changes what the ones before
it have left. What comes out is said without any pass:

> Apart from the superset, which holds the keys of the catalog, a label holds the repositories whose
> records list it and those that the aliases give it, and a label exists if it is the superset,
> some record lists it or the aliases have it (`build_holds`).

The first two passes are one: they add repositories to labels, entry by entry of a list
(`gather`, `addDeclared_eq_gather`, `addAliases_eq_gather`). Nothing is taken away on the way, so
the order of the entries does not show (`mem_members_gather`, `contains_gather`). The third pass
does take away: whatever a label of the superset's name held before is gone.
-/

namespace RepoSelect.LabelIndex

variable {ix : LabelIndex} {catalog : Catalog} {aliases : NameMap (List String)}
  {entries : List (String × List String)} {superset l r : String}

/-! ## Entries that are added -/

theorem contains_mk_insert {label : String} {repos : NameSet} :
    (LabelIndex.mk (ix.table.insert label repos)).contains l = true
      ↔ l = label ∨ ix.contains l = true := by
  rw [contains, contains, Std.ExtTreeMap.contains_insert, Bool.or_eq_true, beq_iff_eq,
    Std.LawfulEqCmp.compare_eq_iff_eq, eq_comm (a := label)]

theorem contains_extend {label : String} {repos : List String} :
    (ix.extend label repos).contains l = true ↔ ix.contains l = true ∨ l = label := by
  rw [extend, contains_mk_insert, or_comm]

/-- Adds the repositories of each entry to the label of the entry. -/
def gather (ix : LabelIndex) (entries : List (String × List String)) : LabelIndex :=
  entries.foldl (fun ix entry => ix.extend entry.1 entry.2) ix

theorem gather_cons (ix : LabelIndex) (label : String) (repos : List String)
    (entries : List (String × List String)) :
    ix.gather ((label, repos) :: entries) = (ix.extend label repos).gather entries := rfl

theorem mem_members_gather :
    r ∈ (ix.gather entries).members l
      ↔ r ∈ ix.members l ∨ ∃ repos, (l, repos) ∈ entries ∧ r ∈ repos := by
  induction entries generalizing ix with
  | nil => simp [gather]
  | cons entry entries ih =>
    obtain ⟨label, repos⟩ := entry
    rw [gather_cons, ih, mem_members_extend, or_assoc]
    simp only [List.mem_cons, Prod.mk.injEq, or_and_right, exists_or, and_assoc,
      exists_and_left, exists_eq_left]

theorem contains_gather :
    (ix.gather entries).contains l = true
      ↔ ix.contains l = true ∨ ∃ repos, (l, repos) ∈ entries := by
  induction entries generalizing ix with
  | nil => simp [gather]
  | cons entry entries ih =>
    obtain ⟨label, repos⟩ := entry
    rw [gather_cons, ih, contains_extend, or_assoc]
    simp only [List.mem_cons, Prod.mk.injEq, exists_or, exists_and_left, exists_eq, and_true]

/-! ## The passes -/

/-- One entry for each label of each record. -/
def declarations (catalog : Catalog) : List (String × List String) :=
  catalog.toList.flatMap fun entry => entry.2.labels.map fun label => (label, [entry.1])

theorem mem_declarations {repos : List String} :
    (l, repos) ∈ declarations catalog
      ↔ ∃ r repo, catalog[r]? = some repo ∧ l ∈ repo.labels ∧ repos = [r] := by
  simp only [declarations, List.mem_flatMap, List.mem_map, Prod.mk.injEq, Prod.exists,
    Std.ExtTreeMap.mem_toList_iff_getElem?_eq_some]
  constructor
  · rintro ⟨r, repo, hget, _, hlabel, rfl, rfl⟩
    exact ⟨r, repo, hget, hlabel, rfl⟩
  · rintro ⟨r, repo, hget, hlabel, rfl⟩
    exact ⟨r, repo, hget, l, hlabel, rfl, rfl⟩

theorem addDeclared_eq_gather (ix : LabelIndex) (catalog : Catalog) :
    ix.addDeclared catalog = ix.gather (declarations catalog) := by
  rw [addDeclared, gather, declarations, Std.ExtTreeMap.foldl_eq_foldl_toList,
    List.foldl_flatMap]
  simp only [List.foldl_map, insert]

theorem addAliases_eq_gather (ix : LabelIndex) (aliases : NameMap (List String)) :
    ix.addAliases aliases = ix.gather aliases.toList := by
  rw [addAliases, gather, Std.ExtTreeMap.foldl_eq_foldl_toList]

theorem members_setSuperset (h : l ≠ superset) :
    (ix.setSuperset superset catalog).members l = ix.members l := by
  simp [setSuperset, members, get?, Std.ExtTreeMap.getElem?_insert, h.symm]

theorem contains_setSuperset :
    (ix.setSuperset superset catalog).contains l = true ↔ l = superset ∨ ix.contains l = true :=
  contains_mk_insert

/-! ## The index -/

theorem build_eq (catalog : Catalog) (aliases : NameMap (List String)) (superset : String) :
    build catalog aliases superset
      = ((empty.gather (declarations catalog)).gather aliases.toList).setSuperset superset
          catalog := by
  rw [build, addDeclared_eq_gather, addAliases_eq_gather]

theorem mem_members_build (h : l ≠ superset) :
    r ∈ (build catalog aliases superset).members l
      ↔ (∃ repo, catalog[r]? = some repo ∧ l ∈ repo.labels)
        ∨ ∃ repos, aliases[l]? = some repos ∧ r ∈ repos := by
  rw [build_eq, members_setSuperset h, mem_members_gather, mem_members_gather,
    or_iff_right not_mem_members_empty]
  simp only [Std.ExtTreeMap.mem_toList_iff_getElem?_eq_some, mem_declarations]
  refine or_congr ?_ Iff.rfl
  constructor
  · rintro ⟨_, ⟨key, repo, hget, hlabel, rfl⟩, hr⟩
    rw [List.mem_singleton.mp hr]
    exact ⟨repo, hget, hlabel⟩
  · rintro ⟨repo, hget, hlabel⟩
    exact ⟨[r], ⟨r, repo, hget, hlabel, rfl⟩, List.mem_singleton_self r⟩

theorem contains_build :
    (build catalog aliases superset).contains l = true
      ↔ l = superset
        ∨ (∃ (r : String) (repo : Repository), catalog[r]? = some repo ∧ l ∈ repo.labels)
        ∨ l ∈ aliases := by
  have hempty : ¬empty.contains l = true := by
    simp [empty, contains]
  rw [build_eq, contains_setSuperset, contains_gather, contains_gather, or_iff_right hempty]
  simp only [Std.ExtTreeMap.mem_toList_iff_getElem?_eq_some, mem_declarations,
    Std.ExtTreeMap.mem_iff_isSome_getElem?, Option.isSome_iff_exists]
  refine or_congr Iff.rfl (or_congr ?_ Iff.rfl)
  constructor
  · rintro ⟨_, r, repo, hget, hlabel, -⟩
    exact ⟨r, repo, hget, hlabel⟩
  · rintro ⟨r, repo, hget, hlabel⟩
    exact ⟨_, r, repo, hget, hlabel, rfl⟩

theorem names_pairwise_lt (ix : LabelIndex) : ix.names.Pairwise (· < ·) := by
  have hord := ix.table.ordered_keys
  exact hord.imp fun hlt => compareOfLessAndEq_eq_lt.mp hlt

theorem mem_names : l ∈ ix.names ↔ ix.contains l = true := by
  rw [names, Std.ExtTreeMap.mem_keys, contains, Std.ExtTreeMap.contains_iff_mem]

/-- **What an index holds.** The superset holds the keys of the catalog and nothing else, whatever
records and aliases say of a label of that name; any other label holds what the records and the
aliases put there together. An alias makes a label even if it gives it no repository, and may give
it one that the catalog does not have. -/
theorem build_holds (catalog : Catalog) (aliases : NameMap (List String)) (superset : String) :
    (∃ repos, (build catalog aliases superset).get? superset = some repos
        ∧ ∀ r, r ∈ repos ↔ r ∈ catalog)
      ∧ (∀ l, l ≠ superset → ∀ r, r ∈ (build catalog aliases superset).members l ↔
          (∃ repo, catalog[r]? = some repo ∧ l ∈ repo.labels)
            ∨ ∃ repos, aliases[l]? = some repos ∧ r ∈ repos)
      ∧ (∀ l, (build catalog aliases superset).contains l = true ↔
          l = superset
            ∨ (∃ (r : String) (repo : Repository), catalog[r]? = some repo ∧ l ∈ repo.labels)
            ∨ l ∈ aliases)
      ∧ (build catalog aliases superset).names.Pairwise (· < ·)
      ∧ ∀ l, l ∈ (build catalog aliases superset).names ↔
          (build catalog aliases superset).contains l = true :=
  ⟨get?_superset_build catalog aliases superset, fun _ hne _ => mem_members_build hne,
    fun _ => contains_build, names_pairwise_lt _, fun _ => mem_names⟩

/-- The record and an alias use the name of the superset, and another alias has no repositories. -/
theorem build_holds_shared :
    let web : Repository := { name := "web", labels := ["all", "ops"] }
    let catalog : Catalog := .ofList [("web", web)]
    let aliases : NameMap (List String) := .ofList [("all", ["db"]), ("none", []), ("ops", ["db"])]
    "ops" ≠ "all"
      ∧ "web" ∈ (build catalog aliases "all").members "ops"
      ∧ "db" ∈ (build catalog aliases "all").members "ops"
      ∧ (build catalog aliases "all").members "all" = .ofList ["web"]
      ∧ (build catalog aliases "all").names = ["all", "none", "ops"] := by
  intro web catalog aliases
  have hne : "ops" ≠ "all" := by decide
  have hops := (build_holds catalog aliases "all").2.1 "ops" hne
  have hweb : catalog["web"]? = some web := by decide +kernel
  have hdb : aliases["ops"]? = some ["db"] := by decide +kernel
  refine ⟨hne, (hops "web").mpr (.inl ⟨web, hweb, by decide⟩),
    (hops "db").mpr (.inr ⟨["db"], hdb, by decide⟩), by decide +kernel, by decide +kernel⟩

end RepoSelect.LabelIndex
