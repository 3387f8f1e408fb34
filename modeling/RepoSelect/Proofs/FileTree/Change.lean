import RepoSelect.FileTree.Action
import RepoSelect.Proofs.FileTree.Grounded

/-!
# What changes do

What each change to a tree asks for and what it does, in one equivalence each (`write_eq_ok` and
its like). Creating the directories above a path goes on from one change to the next, and all that
comes of it, whether it succeeds or fails, is that the tree grows:

> `ensureDirectories_growsAlong`: some of the places along the path, where nothing was, are
> directories now, and everything else is as it was.
-/

namespace RepoSelect.FileTree

variable {t u v : FileTree} {path : String}

/-! ## Single changes -/

theorem write_eq_ok {content : ByteArray} :
    t.write path content = .ok u ↔ ∃ place, t.resolve path = .ok (.named place false)
      ∧ t.at? place ≠ some .directory ∧ u = t.put place (.file content) := by
  unfold write
  cases t.resolve path with
  | error fault => simp [bind, Except.bind]
  | ok target =>
    rcases target with place | ⟨place, _ | _⟩
    · simp [bind, Except.bind]
    · by_cases hdir : t.at? place = some .directory
      · simp [bind, Except.bind, hdir]
      · simp [bind, Except.bind, hdir, eq_comm (b := u)]
    · simp [bind, Except.bind]

theorem createDirectory_eq_ok :
    t.createDirectory path = .ok u ↔ ∃ place slash, t.resolve path = .ok (.named place slash)
      ∧ t.at? place = none ∧ u = t.put place .directory := by
  unfold createDirectory
  cases t.resolve path with
  | error fault => simp [bind, Except.bind]
  | ok target =>
    rcases target with place | ⟨place, slash⟩
    · simp [bind, Except.bind]
    · cases hat : t.at? place <;> simp [bind, Except.bind, hat, eq_comm]

theorem removeFile_eq_ok :
    t.removeFile path = .ok u ↔ ∃ place content, t.resolve path = .ok (.named place false)
      ∧ t.at? place = some (.file content) ∧ u = t.drop place := by
  unfold removeFile
  cases t.resolve path with
  | error fault => simp [bind, Except.bind]
  | ok target =>
    rcases target with place | ⟨place, _ | _⟩
    · simp [bind, Except.bind]
    · rcases hat : t.at? place with _ | _ | _ <;> simp [bind, Except.bind, hat, eq_comm]
    · rcases hat : t.at? place with _ | _ | _ <;> simp [bind, Except.bind, hat]

/-- Nothing is removed exactly if the path leads nowhere. -/
theorem removeFile_eq_notFound :
    t.removeFile path = .error .notFound ↔ t.lookup path = .error .notFound := by
  unfold removeFile lookup
  cases t.resolve path with
  | error fault => simp [bind, Except.bind]
  | ok target =>
    rcases target with place | ⟨place, _ | _⟩
    · simp [bind, Except.bind]
    · rcases hat : t.at? place with _ | _ | _ <;> simp [bind, Except.bind, hat]
    · rcases hat : t.at? place with _ | _ | _ <;> simp [bind, Except.bind, hat]

/-- The path leads nowhere when its file is removed. -/
theorem lookup_of_removeFile (h : t.removeFile path = .ok u) :
    u.lookup path = .error .notFound := by
  obtain ⟨place, content, hplace, hat, rfl⟩ := removeFile_eq_ok.mp h
  have hne := ne_nil_of_resolve hplace
  have hkeep : KeepsDirectories t (t.drop place) := keepsDirectories_drop hne (by rw [hat]; nofun)
  have hplace' : (t.drop place).resolve path = .ok (.named place false) :=
    resolve_mono hkeep rfl hplace
  have hnone : (t.drop place).at? place = none := by rw [at?_drop _ _ hne, if_pos rfl]
  simp only [lookup, hplace', bind, Except.bind, hnone]

/-- A path can be removed exactly if it leads to a file. -/
theorem removeFile_succeeds_iff :
    (∃ u, t.removeFile path = .ok u) ↔ ∃ content, t.lookup path = .ok (.file content) := by
  constructor
  · rintro ⟨u, hu⟩
    obtain ⟨place, content, hplace, hat, -⟩ := removeFile_eq_ok.mp hu
    exact ⟨content, lookup_eq_ok.mpr ⟨_, hplace, hat, nofun⟩⟩
  · rintro ⟨content, hlookup⟩
    obtain ⟨target, hresolve, hfinds⟩ := lookup_eq_ok.mp hlookup
    rcases target with place | ⟨place, slash⟩
    · cases hfinds
    · obtain ⟨hat, hslash⟩ := hfinds
      cases slash with
      | false => exact ⟨_, removeFile_eq_ok.mpr ⟨place, content, hresolve, hat, rfl⟩⟩
      | true => cases hslash rfl

theorem moveFile_eq_ok {source dest : String} :
    t.moveFile source dest = .ok u ↔ ∃ here there content,
      t.resolve source = .ok (.named here false) ∧ t.resolve dest = .ok (.named there false)
        ∧ t.at? here = some (.file content) ∧ t.at? there ≠ some .directory
        ∧ u = (t.drop here).put there (.file content) := by
  unfold moveFile
  cases t.resolve source with
  | error fault => simp [bind, Except.bind]
  | ok target =>
    cases t.resolve dest with
    | error fault => simp [bind, Except.bind]
    | ok target' =>
      rcases target with here | ⟨here, slash⟩
      · simp [bind, Except.bind]
      rcases target' with there | ⟨there, slash'⟩
      · simp [bind, Except.bind]
      rcases hat : t.at? here with _ | content | _
      · simp [bind, Except.bind, hat]
      · by_cases hdir : t.at? there = some .directory
        · cases slash <;> cases slash' <;> simp [bind, Except.bind, hat, hdir]
        · cases slash <;> cases slash' <;>
            simp [bind, Except.bind, hat, hdir, eq_comm (b := u)]
      · simp [bind, Except.bind, hat]

/-! ## Growing -/

/-- The tree that an action leaves behind, whether it succeeds or fails. -/
def treeAfter {ε α : Type} (action : FileAction ε α) (t : FileTree) : FileTree :=
  match action t with
  | .ok _ u | .error _ u => u

/-- Some of the places along a path are directories now, where nothing was, and everything else
is as it was. -/
structure GrowsAlong (t u : FileTree) (path : String) : Prop where
  workingDirectory_eq : u.workingDirectory = t.workingDirectory
  grounded (h : t.Grounded) : u.Grounded
  at?_eq (place : Place) : u.at? place = t.at? place
    ∨ (t.at? place = none ∧ u.at? place = some .directory ∧ place ∈ t.placesAlong path)

theorem placesAlong_congr (h : u.workingDirectory = t.workingDirectory) (path : String) :
    u.placesAlong path = t.placesAlong path := by
  simp [placesAlong, start, h]

theorem placesFrom_append (here : Place) (names names' : List String) :
    placesFrom here (names ++ names')
      = placesFrom here names ++ placesFrom (destination here names) names' := by
  induction names generalizing here with
  | nil => rfl
  | cons name names ih => simp [placesFrom, ih, destination]

/-- A path leads along the places that its parent leads along. -/
theorem mem_placesAlong_of_parent? {parent : String} {place : Place}
    (hparent : Path.parent? path = some parent) (h : place ∈ t.placesAlong parent) :
    place ∈ t.placesAlong path := by
  obtain ⟨habs, dots, name, dots', -, -, hcomponents, -⟩ := Path.components_parent? hparent
  have hstart : t.start path = t.start parent := by simp [start, habs]
  rw [placesAlong, hstart, hcomponents, placesFrom_append]
  exact List.mem_append_left _ h

namespace GrowsAlong

theorem refl (t : FileTree) (path : String) : GrowsAlong t t path := ⟨rfl, id, fun _ => .inl rfl⟩

theorem trans (h : GrowsAlong t u path) (h' : GrowsAlong u v path) : GrowsAlong t v path := by
  refine ⟨h'.workingDirectory_eq.trans h.workingDirectory_eq, h'.grounded ∘ h.grounded,
    fun place => ?_⟩
  rcases h'.at?_eq place with hv | ⟨hu, hv, hmem⟩
  · rw [hv]
    exact h.at?_eq place
  · rw [placesAlong_congr h.workingDirectory_eq] at hmem
    rcases h.at?_eq place with heq | ⟨-, hdir, -⟩
    · exact .inr ⟨heq ▸ hu, hv, hmem⟩
    · rw [hu] at hdir
      cases hdir

theorem of_parent {parent : String} (hparent : Path.parent? path = some parent)
    (h : GrowsAlong t u parent) : GrowsAlong t u path := by
  refine ⟨h.workingDirectory_eq, h.grounded, fun place => ?_⟩
  rcases h.at?_eq place with heq | ⟨hnone, hdir, hmem⟩
  · exact .inl heq
  · exact .inr ⟨hnone, hdir, mem_placesAlong_of_parent? hparent hmem⟩

theorem keepsDirectories (h : GrowsAlong t u path) : KeepsDirectories t u := by
  intro place hdir
  rcases h.at?_eq place with heq | ⟨hnone, -, -⟩
  · rw [heq, hdir]
  · rw [hnone] at hdir
    cases hdir

end GrowsAlong

theorem createDirectory_growsAlong (h : t.createDirectory path = .ok u) :
    GrowsAlong t u path := by
  obtain ⟨place, slash, hresolve, hnone, rfl⟩ := createDirectory_eq_ok.mp h
  have hfree : t.at? place ≠ some .directory := by
    rw [hnone]
    nofun
  refine ⟨rfl, fun hground => hground.put .directory hresolve hfree, fun other => ?_⟩
  rw [at?_put _ _ _ (ne_nil_of_resolve hresolve)]
  split
  · next heq =>
    subst heq
    have hfollow := follow_eq_ok.mpr (resolve_eq_ok.mp hresolve).2
    exact .inr ⟨hnone, rfl, mem_placesFrom_of_follow hfollow⟩
  · exact .inl rfl

theorem ensureDirectory_growsAlong (t : FileTree) (path : String) :
    GrowsAlong t (treeAfter (ensureDirectory path) t) path := by
  unfold treeAfter ensureDirectory
  cases h : t.createDirectory path with
  | ok u => exact createDirectory_growsAlong h
  | error fault =>
    cases t.isDirectory path <;> exact .refl t path

theorem ensureDirectories_of_ok (hne : path ≠ "") (h : ensureDirectory path t = .ok () u) :
    ensureDirectories path t = .ok () u := by
  rw [ensureDirectories, if_neg hne, h]

theorem ensureDirectories_of_parent {parent : String} (hne : path ≠ "")
    (h : ensureDirectory path t = .error .notFound u) (hparent : Path.parent? path = some parent)
    (hup : ensureDirectories parent u = .ok () v) :
    ensureDirectories path t = ensureDirectory path v := by
  rw [ensureDirectories, if_neg hne, h]
  dsimp only
  split
  · next hnone =>
    rw [hparent] at hnone
    cases hnone
  · next other hother =>
    obtain rfl : parent = other := Option.some.inj (hparent.symm.trans hother)
    rw [hup]

theorem ensureDirectories_growsAlong (t : FileTree) (path : String) :
    GrowsAlong t (treeAfter (ensureDirectories path) t) path := by
  have hone := ensureDirectory_growsAlong
  unfold treeAfter at hone ⊢
  fun_induction ensureDirectories path t with
  | case1 t => exact .refl t ""
  | case2 path t _ u hu =>
    have hgrow := hone t path
    rwa [hu] at hgrow
  | case3 path t _ u hu parent hparent v hv ih =>
    have hgrow := hone t path
    rw [hu] at hgrow
    rw [hv] at ih
    exact (hgrow.trans (ih.of_parent hparent)).trans (hone v path)
  | case4 path t _ u hu parent hparent fault v hv ih =>
    have hgrow := hone t path
    rw [hu] at hgrow
    rw [hv] at ih
    exact hgrow.trans (ih.of_parent hparent)
  | case5 path t => exact hone t path

end RepoSelect.FileTree
