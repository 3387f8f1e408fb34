import RepoSelect.Proofs.Cache.Draft
import RepoSelect.Proofs.Cache.Record

/-!
# Saving a record

Every way in which saving a record can end, one constructor for each (`Saves`), with the tree that
is left behind: the directories were not all there or the draft could not be opened
(`unprepared`), the disk did not take all of it (`unwritten`), it could not be put in its place
(`unplaced`), or it was (`placed`).

> A record that was saved is what is read from the path afterwards (`read_of_saved`). If it was
> not saved, whatever the path led to it still leads to (`Spares.lookup`), and a path without
> `..` leads to nothing that it did not lead to before (`Spares.lookup_back`).

The draft has a place of its own, next to the end of the path (`draft_ne_endOf`), so that writing
or removing it does not change what the path leads to. A draft that was not written as a whole is
the one thing that stays (`leftover`), and it is no record (`parse_of_leftover`).
-/

namespace RepoSelect.Cache

open FileTree

variable {disk : Disk} {t u v : FileTree} {path : String} {r : CacheRecord}

/-- The file that a record is kept in. -/
def fileOf (r : CacheRecord) : Entry := .file r.print.toUTF8

/-- What stays of a draft that was begun and has not got its place: one that was written is
removed. -/
def leftover (disk : Disk) (r : CacheRecord) : Option Entry :=
  match disk with
  | .sound => none
  | .failing room _ => some (.file (beginning room r.print.toUTF8))

/-- How saving a record can end. -/
inductive Saves (disk : Disk) (t : FileTree) (path : String) (r : CacheRecord) :
    EStateM.Result Failure FileTree Unit → Prop
  | unprepared {u : FileTree} {fault : IoFault} (hgrow : GrowsAlong t u (folder path)) :
      Saves disk t path r (.error (.cacheWrite path fault) u)
  | unwritten {u : FileTree} {draft : Place} {room : Nat} {fault : IoFault}
      (hdisk : disk = .failing room fault) (hgrow : GrowsAlong t u (folder path))
      (hdraft : u.resolve (draftPath path) = .ok (.named draft false))
      (hfree : u.at? draft ≠ some .directory) :
      Saves disk t path r (.error (.cacheWrite path fault)
        (u.put draft (.file (beginning room r.print.toUTF8))))
  | unplaced {u : FileTree} {draft : Place} {fault : IoFault} (hdisk : disk = .sound)
      (hgrow : GrowsAlong t u (folder path))
      (hdraft : u.resolve (draftPath path) = .ok (.named draft false))
      (hfree : u.at? draft ≠ some .directory) :
      Saves disk t path r (.error (.cacheWrite path fault) ((u.put draft (fileOf r)).drop draft))
  | placed {u : FileTree} {draft place : Place} (hdisk : disk = .sound)
      (hgrow : GrowsAlong t u (folder path))
      (hdraft : u.resolve (draftPath path) = .ok (.named draft false))
      (hfree : u.at? draft ≠ some .directory)
      (hplace : (u.put draft (fileOf r)).resolve path = .ok (.named place false))
      (hfree' : (u.put draft (fileOf r)).at? place ≠ some .directory) :
      Saves disk t path r (.ok () (((u.put draft (fileOf r)).drop draft).put place (fileOf r)))

/-- What stays of a draft is no record. -/
theorem parse_of_leftover {content : ByteArray} (h : leftover disk r = some (.file content)) :
    ∃ failure, CacheRecord.parse content = .error failure := by
  cases disk with
  | sound => cases h
  | failing room fault =>
    obtain rfl := Entry.file.inj (Option.some.inj h)
    have hpos := r.size_print_pos
    exact r.parse_extract (by omega)

theorem at?_draft {draft : Place} {slash : Bool}
    (hdraft : u.resolve (draftPath path) = .ok (.named draft slash)) (r : CacheRecord) :
    (u.put draft (fileOf r)).at? draft = some (fileOf r) := by
  rw [at?_put _ _ _ (ne_nil_of_resolve hdraft), if_pos rfl]

theorem draft_free {draft : Place} {slash : Bool}
    (hdraft : u.resolve (draftPath path) = .ok (.named draft slash)) (r : CacheRecord) :
    (u.put draft (fileOf r)).at? draft ≠ some .directory := by
  rw [at?_draft hdraft]
  nofun

/-- What is no directory is none without the draft. -/
theorem place_free {draft place : Place} {slash : Bool}
    (hdraft : u.resolve (draftPath path) = .ok (.named draft slash))
    (hfree : (u.put draft (fileOf r)).at? place ≠ some .directory) :
    ((u.put draft (fileOf r)).drop draft).at? place ≠ some .directory := by
  rw [at?_drop _ _ (ne_nil_of_resolve hdraft)]
  split
  · nofun
  · exact hfree

/-- Once the draft is written, it is put in its place or removed. -/
theorem publish_saves {draft : Place} (hgrow : GrowsAlong t u (folder path))
    (hdraft : u.resolve (draftPath path) = .ok (.named draft false))
    (hfree : u.at? draft ≠ some .directory) :
    Saves .sound t path r ((publish path).adaptExcept (Failure.cacheWrite path)
      (u.put draft (fileOf r))) := by
  have hne := ne_nil_of_resolve hdraft
  have hkeep := keepsDirectories_put (fileOf r) hne hfree
  have hdraft' := resolve_mono hkeep rfl hdraft
  have hat := at?_draft hdraft r
  cases hmove : (u.put draft (fileOf r)).moveFile (draftPath path) path with
  | ok w =>
    obtain ⟨here, place, content, hhere, hplace, hfile, hfree', rfl⟩ := moveFile_eq_ok.mp hmove
    obtain ⟨rfl, -⟩ := Target.named.inj (Except.ok.inj (hhere.symm.trans hdraft'))
    have hcontent : Entry.file content = fileOf r := Option.some.inj (hfile.symm.trans hat)
    simp only [EStateM.adaptExcept, publish, hmove, hcontent]
    exact .placed rfl hgrow hdraft hfree hplace hfree'
  | error fault =>
    have hremove : (u.put draft (fileOf r)).removeFile (draftPath path)
        = .ok ((u.put draft (fileOf r)).drop draft) :=
      removeFile_eq_ok.mpr ⟨draft, _, hdraft', hat, rfl⟩
    simp only [EStateM.adaptExcept, publish, hmove, hremove]
    exact .unplaced rfl hgrow hdraft hfree

/-- Saving in three steps: the directories, the draft, and the draft put in its place. -/
theorem saveOn_eq (disk : Disk) (path : String) (r : CacheRecord) : saveOn disk path r
    = EStateM.adaptExcept (Failure.cacheWrite path) (do
      ensureDirectories (folder path)
      writeFile disk (draftPath path) r.print.toUTF8
      publish path) := rfl

theorem saveOn_saves (disk : Disk) (t : FileTree) (path : String) (r : CacheRecord) :
    Saves disk t path r (saveOn disk path r t) := by
  have hensured := ensureDirectories_growsAlong t (folder path)
  rw [saveOn_eq]
  cases hensure : ensureDirectories (folder path) t with
  | error fault u =>
    have hgrow : GrowsAlong t u (folder path) := by simpa only [treeAfter, hensure] using hensured
    simp only [EStateM.adaptExcept, bind, EStateM.bind, hensure]
    exact .unprepared hgrow
  | ok done u =>
    have hgrow : GrowsAlong t u (folder path) := by simpa only [treeAfter, hensure] using hensured
    cases disk with
    | sound =>
      cases hwrite : u.write (draftPath path) r.print.toUTF8 with
      | error fault =>
        simp only [EStateM.adaptExcept, bind, EStateM.bind, hensure, writeFile, change, hwrite]
        exact .unprepared hgrow
      | ok w =>
        obtain ⟨draft, hdraft, hfree, rfl⟩ := write_eq_ok.mp hwrite
        have hpublish := publish_saves (r := r) hgrow hdraft hfree
        simp only [EStateM.adaptExcept, bind, EStateM.bind, hensure, writeFile, change, hwrite]
        exact hpublish
    | failing room fault =>
      cases hwrite : u.write (draftPath path) (beginning room r.print.toUTF8) with
      | error fault' =>
        simp only [EStateM.adaptExcept, bind, EStateM.bind, hensure, writeFile, hwrite]
        exact .unprepared hgrow
      | ok w =>
        obtain ⟨draft, hdraft, hfree, rfl⟩ := write_eq_ok.mp hwrite
        simp only [EStateM.adaptExcept, bind, EStateM.bind, hensure, writeFile, hwrite]
        exact .unwritten rfl hgrow hdraft hfree

theorem saves_of_eq {result : EStateM.Result Failure FileTree Unit}
    (h : saveOn disk path r t = result) : Saves disk t path r result :=
  h ▸ saveOn_saves disk t path r

theorem failure_of_unsaved {f : Failure} (h : saveOn disk path r t = .error f u) :
    ∃ fault, f = .cacheWrite path fault := by
  cases saves_of_eq h with
  | unprepared => exact ⟨_, rfl⟩
  | unwritten => exact ⟨_, rfl⟩
  | unplaced => exact ⟨_, rfl⟩

/-- A directory in the place of the draft keeps it from being written. -/
theorem save_of_draft_directory {draft : Place} {slash : Bool}
    (hensure : ensureDirectories (folder path) t = .ok () u)
    (hdraft : u.resolve (draftPath path) = .ok (.named draft slash))
    (hdir : u.at? draft = some .directory) (r : CacheRecord) :
    save path r t = .error (.cacheWrite path .isADirectory) u := by
  have hwrite : u.write (draftPath path) r.print.toUTF8 = .error .isADirectory := by
    cases slash <;> simp [FileTree.write, hdraft, hdir, bind, Except.bind]
  rw [save, saveOn_eq]
  simp only [EStateM.adaptExcept, bind, EStateM.bind, hensure, writeFile, change, hwrite]

/-! ## What is left unsaved -/

/-- A path without `..` does not end at any place that its directory is reached by. -/
theorem endOf_not_mem_folder (hdots : ".." ∉ Path.components path) :
    t.endOf path ∉ t.placesAlong (folder path) := by
  cases hparent : Path.parent? path with
  | none =>
    rw [folder, hparent]
    exact List.not_mem_nil
  | some parent =>
    obtain ⟨habs, dots, name, dots', hidle, hidle', hpath, hroot⟩ :=
      Path.components_parent? hparent
    have hfolder : t.placesAlong (folder path)
        = placesFrom (t.start path) (Path.components parent) := by
      rw [folder, hparent, Option.getD_some, placesAlong, start, start, habs]
    rw [hpath] at hdots
    have hup : ".." ∉ Path.components parent := fun h => hdots (List.mem_append_left _ h)
    have hname : name ≠ ".." := fun h => hdots (by simp [h])
    have hto : t.endOf path
        = toward (destination (t.start path) (Path.components parent)) name := by
      rw [endOf, hpath, destination_append, destination_append, destination_of_idle hidle]
      exact destination_of_idle hidle' _
    rw [hto, hfolder]
    intro hmem
    by_cases hdot : name = "."
    · rw [hroot hdot] at hmem
      exact absurd hmem List.not_mem_nil
    · have hprefix := (isPrefix_of_mem_placesFrom hup hmem).length_le
      rw [toward_of_ne hdot hname, List.length_append] at hprefix
      exact absurd hprefix (by simp)

/-- Directories may have been added on the way to the folder of a path, and no more than what is
left of the record may be where its draft belongs; everything else is as it was, the end of the path
too. -/
structure Spares (disk : Disk) (r : CacheRecord) (t u : FileTree) (path : String) : Prop where
  workingDirectory_eq : u.workingDirectory = t.workingDirectory
  at?_eq (place : Place) : u.at? place = t.at? place
    ∨ (t.at? place = none ∧ u.at? place = some .directory ∧ place ∈ t.placesAlong (folder path))
    ∨ (place = t.endOf (draftPath path) ∧ place ≠ t.endOf path
      ∧ t.at? place ≠ some .directory ∧ u.at? place = leftover disk r)

/-- What is not more than a leftover in the place of the draft spares the rest. -/
theorem spares_of_leftover {draft : Place} (hgrow : GrowsAlong t v (folder path))
    (hdraft : v.resolve (draftPath path) = .ok (.named draft false))
    (hfree : v.at? draft ≠ some .directory) (hstart : u.workingDirectory = v.workingDirectory)
    (hat : ∀ place, u.at? place = if draft = place then leftover disk r else v.at? place) :
    Spares disk r t u path := by
  have hfrom := hgrow.workingDirectory_eq
  refine ⟨hstart.trans hfrom, fun place => ?_⟩
  rw [hat place]
  split
  · next heq =>
    subst heq
    refine .inr (.inr ⟨?_, ?_, ?_, rfl⟩)
    · rw [← endOf_congr hfrom]
      exact place_of_resolve hdraft
    · rw [← endOf_congr hfrom]
      exact draft_ne_endOf hdraft
    · intro hdir
      exact hfree (hgrow.keepsDirectories _ hdir)
  · rcases hgrow.at?_eq place with heq | hnew
    · exact .inl heq
    · exact .inr (.inl hnew)

theorem spares_of_unsaved {f : Failure} (h : saveOn disk path r t = .error f u) :
    Spares disk r t u path := by
  cases saves_of_eq h with
  | unprepared hgrow =>
    refine ⟨hgrow.workingDirectory_eq, fun place => ?_⟩
    rcases hgrow.at?_eq place with heq | hnew
    · exact .inl heq
    · exact .inr (.inl hnew)
  | unwritten hdisk hgrow hdraft hfree =>
    subst hdisk
    exact spares_of_leftover hgrow hdraft hfree rfl fun place =>
      at?_put _ _ _ (ne_nil_of_resolve hdraft)
  | unplaced hdisk hgrow hdraft hfree =>
    subst hdisk
    have hne := ne_nil_of_resolve hdraft
    refine spares_of_leftover hgrow hdraft hfree rfl fun place => ?_
    rw [at?_drop _ _ hne, at?_put _ _ _ hne]
    split <;> rfl

namespace Spares

theorem keepsDirectories (h : Spares disk r t u path) : KeepsDirectories t u := by
  intro place hdir
  rcases h.at?_eq place with heq | ⟨hnone, -⟩ | ⟨-, -, hfree, -⟩
  · rw [heq, hdir]
  · rw [hnone] at hdir
    cases hdir
  · exact absurd hdir hfree

/-- No file is new or has another content, but for what is left of the draft. -/
theorem file (h : Spares disk r t u path) {place : Place} {content : ByteArray}
    (hfile : u.at? place = some (.file content)) : t.at? place = some (.file content)
      ∨ (place = t.endOf (draftPath path) ∧ leftover disk r = some (.file content)) := by
  rcases h.at?_eq place with heq | ⟨-, hdir, -⟩ | ⟨hend, -, -, hleft⟩
  · rw [← heq]
    exact .inl hfile
  · rw [hfile] at hdir
    cases hdir
  · exact .inr ⟨hend, hleft.symm.trans hfile⟩

/-- What the path led to is not lost. -/
theorem lookup (h : Spares disk r t u path) {e : Entry} (hold : t.lookup path = .ok e) :
    u.lookup path = .ok e := by
  obtain ⟨target, hresolve, hfinds⟩ := lookup_eq_ok.mp hold
  refine lookup_eq_ok.mpr
    ⟨target, resolve_mono h.keepsDirectories h.workingDirectory_eq hresolve, ?_⟩
  cases target with
  | directory place => exact hfinds
  | named place slash =>
    refine ⟨?_, hfinds.2⟩
    rcases h.at?_eq place with heq | ⟨hnone, -⟩ | ⟨-, hend, -⟩
    · rw [heq, hfinds.1]
    · rw [hfinds.1] at hnone
      cases hnone
    · exact absurd (place_of_resolve hresolve) hend

/-- A path without `..` leads to nothing that it did not lead to before. -/
theorem lookup_back (h : Spares disk r t u path) (hground : t.Grounded)
    (hdots : ".." ∉ Path.components path) {e : Entry} (hnew : u.lookup path = .ok e) :
    t.lookup path = .ok e := by
  refine FileTree.lookup_back hground h.keepsDirectories h.workingDirectory_eq hdots ?_ hnew
  rcases h.at?_eq (t.endOf path) with heq | ⟨-, -, hmem⟩ | ⟨-, hend, -⟩
  · exact heq
  · exact absurd hmem (endOf_not_mem_folder hdots)
  · exact absurd rfl hend

end Spares

/-! ## What is left saved -/

theorem read_of_lookup (h : t.lookup path = .ok (fileOf r)) : read t path = .ok r.asWritten := by
  simp only [read, h, fileOf, Entry.bytes, CacheRecord.parse_print]
  rfl

/-- What was saved is what is read from the path. -/
theorem read_of_saved (h : saveOn disk path r t = .ok () u) : read u path = .ok r.asWritten := by
  cases saves_of_eq h with
  | @placed v draft place hdisk hgrow hdraft hfree hplace hfree' =>
    have hne := ne_nil_of_resolve hplace
    have hdrop := keepsDirectories_drop (ne_nil_of_resolve hdraft) (draft_free hdraft r)
    have hput := keepsDirectories_put (fileOf r) hne (place_free hdraft hfree')
    refine read_of_lookup (lookup_eq_ok.mpr ⟨_, resolve_mono (hdrop.trans hput) rfl hplace, ?_⟩)
    exact ⟨by rw [at?_put _ _ _ hne, if_pos rfl], nofun⟩

/-- A file that is new or has another content is the record, or what is left of its draft. -/
theorem file_of_save {place : Place} {content : ByteArray}
    (hfile : (treeAfter (saveOn disk path r) t).at? place = some (.file content)) :
    t.at? place = some (.file content) ∨ .file content = fileOf r
      ∨ (place = t.endOf (draftPath path) ∧ leftover disk r = some (.file content)) := by
  unfold treeAfter at hfile
  cases h : saveOn disk path r t with
  | error f u =>
    rw [h] at hfile
    exact ((spares_of_unsaved h).file hfile).imp_right .inr
  | ok done u =>
    rw [h] at hfile
    cases saves_of_eq h with
    | @placed v draft there hdisk hgrow hdraft hfree hplace hfree' =>
      dsimp only at hfile
      rw [at?_put _ _ _ (ne_nil_of_resolve hplace), at?_drop _ _ (ne_nil_of_resolve hdraft),
        at?_put _ _ _ (ne_nil_of_resolve hdraft)] at hfile
      split at hfile
      · exact .inr (.inl (Option.some.inj hfile).symm)
      · split at hfile
        · cases hfile
        · rcases hgrow.at?_eq place with heq | ⟨-, hdir, -⟩
          · exact .inl (heq ▸ hfile)
          · rw [hfile] at hdir
            cases hdir

theorem save_grounded (hground : t.Grounded) (disk : Disk) (path : String) (r : CacheRecord) :
    (treeAfter (saveOn disk path r) t).Grounded := by
  have hsaves := saveOn_saves disk t path r
  unfold treeAfter
  generalize saveOn disk path r t = result at hsaves ⊢
  cases hsaves with
  | unprepared hgrow => exact hgrow.grounded hground
  | unwritten hdisk hgrow hdraft hfree => exact (hgrow.grounded hground).put _ hdraft hfree
  | unplaced hdisk hgrow hdraft hfree =>
    exact ((hgrow.grounded hground).put (fileOf r) hdraft hfree).drop (draft_free hdraft r)
  | placed hdisk hgrow hdraft hfree hplace hfree' =>
    have hdrop := keepsDirectories_drop (ne_nil_of_resolve hdraft) (draft_free hdraft r)
    have hground' := ((hgrow.grounded hground).put (fileOf r) hdraft hfree).drop
      (draft_free hdraft r)
    exact hground'.put (fileOf r) (resolve_mono hdrop rfl hplace) (place_free hdraft hfree')

end RepoSelect.Cache
