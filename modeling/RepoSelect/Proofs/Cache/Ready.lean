import RepoSelect.Proofs.Cache.Save

/-!
# When a record can be saved

A tree is `Ready` for a path if the path and its draft lead to names in directories that are
there, and neither name is a directory. Each step of saving then does what it is meant to do, and
the tree stays ready, whatever files come and go (`Ready.put`, `Ready.drop`). So saving succeeds:

> in a ready tree the record is put at the path, and the draft is gone (`Ready.save_eq`).

Conversely a record is only ever saved in a tree that is ready once the directories are there
(`exists_ready_of_saved`).
-/

namespace RepoSelect.Cache

open FileTree

variable {t u : FileTree} {path : String} {r : CacheRecord} {draft place : Place}
  {content : ByteArray}

/-- Saving a text that is at hand. -/
def saveText (path : String) (content : ByteArray) : FileAction IoFault Unit := do
  ensureDirectories (folder path)
  change (·.write (draftPath path) content)
  publish path

theorem save_eq_saveText (path : String) (r : CacheRecord) : save path r
    = EStateM.adaptExcept (Failure.cacheWrite path) (saveText path r.print.toUTF8) := rfl

/-- The path and its draft lead to names, and neither of them is a directory. -/
structure Ready (t : FileTree) (path : String) (draft place : Place) : Prop where
  resolve_draft : t.resolve (draftPath path) = .ok (.named draft false)
  resolve_place : t.resolve path = .ok (.named place false)
  draft_free : t.at? draft ≠ some .directory
  place_free : t.at? place ≠ some .directory

namespace Ready

theorem draft_ne_nil (h : Ready t path draft place) : draft ≠ [] :=
  ne_nil_of_resolve h.resolve_draft

theorem place_ne_nil (h : Ready t path draft place) : place ≠ [] :=
  ne_nil_of_resolve h.resolve_place

theorem draft_ne_place (h : Ready t path draft place) : draft ≠ place := by
  have hplace : place = t.endOf path := place_of_resolve h.resolve_place
  rw [hplace]
  exact draft_ne_endOf h.resolve_draft

/-! ## Staying ready -/

/-- Writing a file leaves a tree ready. -/
theorem put (h : Ready t path draft place) {other : Place} (hne : other ≠ [])
    (hfree : t.at? other ≠ some .directory) (content : ByteArray) :
    Ready (t.put other (.file content)) path draft place := by
  have hkeep := keepsDirectories_put (.file content) hne hfree
  have hfile : ∀ {p : Place}, t.at? p ≠ some .directory →
      (t.put other (.file content)).at? p ≠ some .directory := by
    intro p hp
    rw [at?_put _ _ _ hne]
    split
    · nofun
    · exact hp
  exact ⟨resolve_mono hkeep rfl h.resolve_draft, resolve_mono hkeep rfl h.resolve_place,
    hfile h.draft_free, hfile h.place_free⟩

/-- Removing a file leaves a tree ready. -/
theorem drop (h : Ready t path draft place) {other : Place} (hne : other ≠ [])
    (hfree : t.at? other ≠ some .directory) : Ready (t.drop other) path draft place := by
  have hkeep := keepsDirectories_drop hne hfree
  have hfile : ∀ {p : Place}, t.at? p ≠ some .directory →
      (t.drop other).at? p ≠ some .directory := by
    intro p hp
    rw [at?_drop _ _ hne]
    split
    · nofun
    · exact hp
  exact ⟨resolve_mono hkeep rfl h.resolve_draft, resolve_mono hkeep rfl h.resolve_place,
    hfile h.draft_free, hfile h.place_free⟩

/-- The tree that saving leaves is ready. -/
theorem saved (h : Ready t path draft place) (content : ByteArray) :
    Ready (((t.put draft (.file content)).drop draft).put place (.file content)) path draft
      place := by
  have hdrafted := h.put h.draft_ne_nil h.draft_free content
  have hdropped := hdrafted.drop h.draft_ne_nil hdrafted.draft_free
  exact hdropped.put h.place_ne_nil hdropped.place_free content

/-! ## The steps of saving -/

theorem ensure_eq (h : Ready t path draft place) : ensureDirectories (folder path) t = .ok () t :=
  ensureDirectories_folder h.resolve_place

theorem write_eq (h : Ready t path draft place) (content : ByteArray) :
    t.write (draftPath path) content = .ok (t.put draft (.file content)) :=
  write_eq_ok.mpr ⟨draft, h.resolve_draft, h.draft_free, rfl⟩

theorem move_eq (h : Ready t path draft place) (hfile : t.at? draft = some (.file content)) :
    t.moveFile (draftPath path) path = .ok ((t.drop draft).put place (.file content)) :=
  moveFile_eq_ok.mpr
    ⟨draft, place, content, h.resolve_draft, h.resolve_place, hfile, h.place_free, rfl⟩

theorem move_missing (h : Ready t path draft place) (hnone : t.at? draft = none) :
    t.moveFile (draftPath path) path = .error .notFound := by
  simp [moveFile, h.resolve_draft, h.resolve_place, hnone, bind, Except.bind]

theorem lookup_eq (h : Ready t path draft place) {e : Entry} (hat : t.at? place = some e) :
    t.lookup path = .ok e :=
  lookup_eq_ok.mpr ⟨_, h.resolve_place, hat, nofun⟩

theorem removeFile_missing (h : Ready t path draft place) (hnone : t.at? draft = none) :
    t.removeFile (draftPath path) = .error .notFound := by
  simp [removeFile, h.resolve_draft, hnone, bind, Except.bind]

/-- What the path leads to hangs on what is at its place. -/
theorem lookup_congr (h : Ready t path draft place) (h' : Ready u path draft place)
    (hat : u.at? place = t.at? place) : u.lookup path = t.lookup path := by
  simp only [FileTree.lookup, h.resolve_place, h'.resolve_place, bind, Except.bind, hat]

theorem saveText_eq (h : Ready t path draft place) (content : ByteArray) :
    saveText path content t
      = .ok () (((t.put draft (.file content)).drop draft).put place (.file content)) := by
  have hwrite := h.write_eq content
  have hat : (t.put draft (.file content)).at? draft = some (.file content) := by
    rw [at?_put _ _ _ h.draft_ne_nil, if_pos rfl]
  have hmove := (h.put h.draft_ne_nil h.draft_free content).move_eq hat
  simp only [saveText, bind, EStateM.bind, h.ensure_eq, change, hwrite, publish, hmove]

/-- **Saving succeeds in a ready tree.** -/
theorem save_eq (h : Ready t path draft place) (r : CacheRecord) :
    save path r t = .ok () (((t.put draft (fileOf r)).drop draft).put place (fileOf r)) := by
  simp only [save_eq_saveText, EStateM.adaptExcept, h.saveText_eq]
  rfl

/-- The beginning of a draft is left if the disk does not take all of it. -/
theorem saveOn_failing (h : Ready t path draft place) (room : Nat) (fault : IoFault)
    (r : CacheRecord) : saveOn (.failing room fault) path r t = .error (.cacheWrite path fault)
      (t.put draft (.file (beginning room r.print.toUTF8))) := by
  rw [saveOn_eq]
  simp only [EStateM.adaptExcept, bind, EStateM.bind, h.ensure_eq, writeFile, h.write_eq]

end Ready

/-- A draft that cannot be opened is all that can go wrong when the path leads to a name. -/
theorem saveOn_of_unopened {slash : Bool} {fault : IoFault}
    (hplace : t.resolve path = .ok (.named place slash))
    (hwrite : ∀ content, t.write (draftPath path) content = .error fault) (disk : Disk)
    (r : CacheRecord) : saveOn disk path r t = .error (.cacheWrite path fault) t := by
  rw [saveOn_eq]
  cases disk <;> simp only [EStateM.adaptExcept, bind, EStateM.bind,
    ensureDirectories_folder hplace, writeFile, change, hwrite]

/-- A record is saved where all was ready, once the directories were there. -/
theorem exists_ready_of_saved (h : save path r t = .ok () u) :
    ∃ v draft place, ensureDirectories (folder path) t = .ok () v ∧ Ready v path draft place := by
  rw [save_eq_saveText, saveText] at h
  cases hensure : ensureDirectories (folder path) t with
  | error fault v =>
    simp only [EStateM.adaptExcept, bind, EStateM.bind, hensure] at h
    cases h
  | ok done v =>
    simp only [EStateM.adaptExcept, bind, EStateM.bind, hensure, change] at h
    cases hwrite : v.write (draftPath path) r.print.toUTF8 with
    | error fault =>
      simp only [hwrite] at h
      cases h
    | ok w =>
      simp only [hwrite] at h
      obtain ⟨draft, hdraft, hfree, rfl⟩ := write_eq_ok.mp hwrite
      have hne := ne_nil_of_resolve hdraft
      cases hmove : (v.put draft (.file r.print.toUTF8)).moveFile (draftPath path) path with
      | error fault =>
        simp only [publish, hmove] at h
        cases h
      | ok x =>
        obtain ⟨here, place, content, -, hplace, -, hfree', -⟩ := moveFile_eq_ok.mp hmove
        have hback : KeepsDirectories (v.put draft (.file r.print.toUTF8)) v := by
          intro other hdir
          rw [at?_put _ _ _ hne] at hdir
          split at hdir
          · cases hdir
          · exact hdir
        have hkeep := keepsDirectories_put (.file r.print.toUTF8) hne hfree
        exact ⟨v, draft, place, rfl, hdraft, resolve_mono hback rfl hplace, hfree,
          fun hdir => hfree' (hkeep _ hdir)⟩

end RepoSelect.Cache
