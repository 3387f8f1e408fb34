import RepoSelect.Proofs.Cache.Ready

/-!
# What saving leaves behind

> A record that was saved is read back from its path, and its draft is gone. If it could not be
> saved, what the path leads to is still there, also if the disk filled up and the beginning of
> a draft stays. Nothing is changed but the file, its draft and the directories that had to be
> made on the way (`save_outcome`).

Two things do not come out so. A text has no words for a leap second within a minute, which is read
back as the second behind it. And a path through `..` can begin to lead somewhere although the
record was not saved, by the directories that were made (`save_not_lossless`).

Trees have no links. Through a link in the place of the draft, another file would be written.
-/

namespace RepoSelect.Cache

open FileTree

variable {disk : Disk} {t u : FileTree} {path : String} {r : CacheRecord}

theorem asWritten_eq_iff (r : CacheRecord) : r.asWritten = r ↔ r.updatedAt.IsInstant := by
  rw [← Timestamp.asWritten_eq_iff]
  constructor
  · intro h
    exact congrArg CacheRecord.updatedAt h
  · intro h
    rw [CacheRecord.asWritten, h]

theorem lookup_draft_of_saved (h : saveOn disk path r t = .ok () u) :
    u.lookup (draftPath path) = .error .notFound := by
  cases saves_of_eq h with
  | @placed v draft place hdisk hgrow hdraft hfree hplace hfree' =>
    have hne := ne_nil_of_resolve hdraft
    have hkeep := keepsDirectories_put (fileOf r) hne hfree
    have hdrop := keepsDirectories_drop hne (draft_free hdraft r)
    have hput := keepsDirectories_put (fileOf r) (ne_nil_of_resolve hplace)
      (place_free hdraft hfree')
    have hresolve := resolve_mono (hkeep.trans (hdrop.trans hput)) rfl hdraft
    have hother : place ≠ draft := by
      have hdraft' := resolve_mono hkeep rfl hdraft
      have hend : place = (v.put draft (fileOf r)).endOf path := place_of_resolve hplace
      rw [hend]
      exact (draft_ne_endOf hdraft').symm
    have hnone : ((((v.put draft (fileOf r)).drop draft).put place (fileOf r))).at? draft
        = none := by
      rw [at?_put _ _ _ (ne_nil_of_resolve hplace), if_neg hother, at?_drop _ _ hne, if_pos rfl]
    simp [FileTree.lookup, hresolve, hnone, bind, Except.bind]

/-- Saving changes nothing but what is at the ends of the path and of its draft, and makes
directories on the way to them. -/
structure Alters (t u : FileTree) (path : String) : Prop where
  workingDirectory_eq : u.workingDirectory = t.workingDirectory
  at?_eq (place : Place) (hplace : place ≠ t.endOf path)
    (hdraft : place ≠ t.endOf (draftPath path)) : u.at? place = t.at? place
      ∨ (t.at? place = none ∧ u.at? place = some .directory ∧ place ∈ t.placesAlong (folder path))

theorem saveOn_alters (disk : Disk) (t : FileTree) (path : String) (r : CacheRecord) :
    Alters t (treeAfter (saveOn disk path r) t) path := by
  unfold treeAfter
  cases h : saveOn disk path r t with
  | error f u =>
    have hspares := spares_of_unsaved h
    refine ⟨hspares.workingDirectory_eq, fun place _ hdraft => ?_⟩
    rcases hspares.at?_eq place with heq | hnew | ⟨hend, -⟩
    · exact .inl heq
    · exact .inr hnew
    · exact absurd hend hdraft
  | ok done u =>
    cases saves_of_eq h with
    | @placed v draft end_ hdisk hgrow hdraft hfree hplace hfree' =>
      have hstart := hgrow.workingDirectory_eq
      have hdraftEnd : draft = t.endOf (draftPath path) := by
        rw [← endOf_congr hstart]
        exact place_of_resolve hdraft
      have hplaceEnd : end_ = t.endOf path := by
        rw [← endOf_congr (u := v.put draft (fileOf r)) (t := t) hstart]
        exact place_of_resolve hplace
      refine ⟨hstart, fun place hne hne' => ?_⟩
      rw [← hplaceEnd] at hne
      rw [← hdraftEnd] at hne'
      rw [at?_put _ _ _ (ne_nil_of_resolve hplace), if_neg hne.symm,
        at?_drop _ _ (ne_nil_of_resolve hdraft), if_neg hne'.symm,
        at?_put _ _ _ (ne_nil_of_resolve hdraft), if_neg hne'.symm]
      exact hgrow.at?_eq place

theorem save_alters (t : FileTree) (path : String) (r : CacheRecord) :
    Alters t (treeAfter (save path r) t) path := saveOn_alters .sound t path r

/-- **What saving leaves behind**, whether or not the disk takes all that is written. A saved record
is read back from the path, with the timestamp that its text names, which is its own unless that
lies in a leap second within a minute; the draft is not there. After a failure the path still leads
to what it led to, and without `..` to nothing new either. -/
theorem save_outcome (disk : Disk) (t : FileTree) (path : String) (r : CacheRecord) :
    (∀ u, saveOn disk path r t = .ok () u →
        (read u path = .ok r ↔ r.updatedAt.IsInstant)
          ∧ (∃ stamp, read u path = .ok { r with updatedAt := stamp })
          ∧ u.lookup (draftPath path) = .error .notFound)
      ∧ (∀ f u, saveOn disk path r t = .error f u →
          (∃ fault, f = .cacheWrite path fault)
            ∧ (∀ e, t.lookup path = .ok e → u.lookup path = .ok e)
            ∧ (t.Grounded → ".." ∉ Path.components path →
                ∀ e, u.lookup path = .ok e → t.lookup path = .ok e))
      ∧ Alters t (treeAfter (saveOn disk path r) t) path := by
  refine ⟨fun u h => ?_, fun f u h => ?_, saveOn_alters disk t path r⟩
  · have hread := read_of_saved h
    refine ⟨?_, ⟨_, hread⟩, lookup_draft_of_saved h⟩
    rw [hread, Except.ok.injEq]
    exact asWritten_eq_iff r
  · have hspares := spares_of_unsaved h
    exact ⟨failure_of_unsaved h, fun e => hspares.lookup,
      fun hground hdots e => hspares.lookup_back hground hdots⟩

/-! ## Saving in an empty directory -/

theorem ready_empty : Ready {} "c.json" ["c.json.tmp"] ["c.json"] := by
  have hdraft : draftPath "c.json" = "c.json.tmp" := by
    simp [draftPath, Path.withExtension, Path.fileName?, Path.splitName, Path.splitLast?,
      Path.trimEnd]
  refine ⟨?_, by decide +kernel, by decide +kernel, by decide +kernel⟩
  rw [hdraft]
  decide +kernel

/-- A repository with quotes, blanks and other characters in its texts. -/
def sampleRepository : Repository where
  name := "app \"1\"\\"
  description := "é\t\n\x00漢🦀"
  isPublic := true
  defaultBranch := "main"
  labels := ["", " old "]

/-- The middle of the leap second at the end of the year 12345. -/
def sampleStamp : Timestamp where
  day := Calendar.daysBeforeYear 12346 - 1
  second := 86399
  nanos := 1500000000
  day_inRange := by decide
  second_lt := by decide
  nanos_lt := by decide

/-- In a leap second, and then on a disk that has room for seven bytes. -/
theorem saved_in_leap_second :
    let r : CacheRecord := ⟨sampleStamp, (∅ : Catalog).insert "a/\"b\"" sampleRepository⟩
    (∃ u, save "c.json" r {} = .ok () u ∧ read u "c.json" = .ok r
        ∧ u.lookup (draftPath "c.json") = .error .notFound ∧ Alters {} u "c.json")
      ∧ ∃ u, saveOn (.failing 7 .noSpace) "c.json" r {} = .error (.cacheWrite "c.json" .noSpace) u
          ∧ (∀ e, u.lookup "c.json" ≠ .ok e)
          ∧ u.lookup "c.json.tmp" = .ok (.file "\x7b\n  \"up".toUTF8) := by
  intro r
  constructor
  · have hsave := ready_empty.save_eq r
    have hsave' : saveOn .sound "c.json" r {} = _ := hsave
    obtain ⟨hsaved, -, halters⟩ := save_outcome .sound {} "c.json" r
    obtain ⟨hread, -, hdraft⟩ := hsaved _ hsave'
    rw [treeAfter, hsave'] at halters
    exact ⟨_, hsave, hread.mpr (by decide), hdraft, halters⟩
  · have hsave := ready_empty.saveOn_failing 7 .noSpace r
    obtain ⟨-, hunsaved, -⟩ := save_outcome (.failing 7 .noSpace) {} "c.json" r
    obtain ⟨-, -, hback⟩ := hunsaved _ _ hsave
    refine ⟨_, hsave, fun e hlookup => ?_, by decide +kernel⟩
    have hmissing : ({} : FileTree).lookup "c.json" = .error .notFound := by decide +kernel
    have hthere := hback grounded_empty (by decide +kernel) e hlookup
    rw [hmissing] at hthere
    cases hthere

/-! ## What is not read back, and what appears -/

/-- The middle of a leap second behind the first second of 1970. -/
def strayLeapSecond : Timestamp :=
  { Instant.epoch.toTimestamp with nanos := 1500000000, nanos_lt := by decide }

/-- A file, and a directory in the place of its draft. -/
def blockedFiles : FileTree :=
  (({} : FileTree).put ["c.json"] (.file "old".toUTF8)).put ["c.json.tmp"] .directory

theorem blockedFiles_ensure : ensureDirectories (folder "b/../c.json") blockedFiles
    = .ok () (blockedFiles.put ["b"] .directory) := by
  have hfolder : folder "b/../c.json" = "b/.." := by
    simp [folder, Path.parent?, Path.splitLast?, Path.trimEnd]
  have hparent : Path.parent? "b/.." = some "b" := by
    simp [Path.parent?, Path.splitLast?, Path.trimEnd]
  have hmissing : ensureDirectory "b/.." blockedFiles = .error .notFound blockedFiles := by
    have hcreate : blockedFiles.createDirectory "b/.." = .error .notFound := by decide +kernel
    have hthere : blockedFiles.isDirectory "b/.." = false := by decide +kernel
    simp only [ensureDirectory, hcreate, hthere, Bool.false_eq_true, if_false]
  have habove : ensureDirectory "b" blockedFiles
      = .ok () (blockedFiles.put ["b"] .directory) := by
    have hcreate : blockedFiles.createDirectory "b"
        = .ok (blockedFiles.put ["b"] .directory) := by decide +kernel
    simp only [ensureDirectory, hcreate]
  have hmade : (blockedFiles.put ["b"] .directory).lookup "b/.." = .ok .directory := by
    decide +kernel
  rw [hfolder, ensureDirectories_of_parent (by decide) hmissing hparent
    (ensureDirectories_of_ok (by decide) habove)]
  exact ensureDirectory_of_lookup hmade

theorem blockedFiles_draft : (blockedFiles.put ["b"] .directory).resolve (draftPath "b/../c.json")
    = .ok (.named ["c.json.tmp"] false) := by
  have hname : draftPath "b/../c.json" = "b/../c.json.tmp" := by
    simp [draftPath, Path.withExtension, Path.fileName?, Path.splitName, Path.splitLast?,
      Path.trimEnd]
  rw [hname]
  decide +kernel

/-- Not everything is read back, and a path can begin to lead to a file when nothing is saved. -/
theorem save_not_lossless :
    (∃ u, save "c.json" ⟨strayLeapSecond, ∅⟩ {} = .ok () u
        ∧ read u "c.json" ≠ .ok ⟨strayLeapSecond, ∅⟩)
      ∧ ∃ u, save "b/../c.json" ⟨Instant.epoch, ∅⟩ blockedFiles
            = .error (.cacheWrite "b/../c.json" .isADirectory) u
          ∧ blockedFiles.lookup "b/../c.json" = .error .notFound
          ∧ u.lookup "b/../c.json" = .ok (.file "old".toUTF8) := by
  constructor
  · have hsave := ready_empty.save_eq ⟨strayLeapSecond, ∅⟩
    refine ⟨_, hsave, ?_⟩
    rw [read_of_saved hsave, ne_eq, Except.ok.injEq, asWritten_eq_iff]
    decide
  · refine ⟨_, save_of_draft_directory blockedFiles_ensure blockedFiles_draft (by decide +kernel) _,
      ?_, ?_⟩
    · decide +kernel
    · decide +kernel

end RepoSelect.Cache
