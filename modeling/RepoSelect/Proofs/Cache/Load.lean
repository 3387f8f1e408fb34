import RepoSelect.Cache.File
import RepoSelect.Proofs.FileTree.Change

/-!
# Reading and loading a record

Reading depends on what the path leads to and on nothing else (`read_congr`). Whatever is there, a
reader gets a record or is told that no usable cache is there (`isCacheMiss_of_load`): a file that
is missing, or is no JSON or no record, is a miss and not another kind of failure. What a load makes
of each is said once (`judged`), and so is what comes of a file that is to be removed (`removes`).

Once the file has been removed, the path leads nowhere (`lookup_of_flush`).
-/

namespace RepoSelect.Cache

variable {t u : FileTree} {path : String} {ttl : Duration} {now : Timestamp} {r : CacheRecord}
  {f : Failure}

theorem read_congr (h : t.lookup path = u.lookup path) : read t path = read u path := by
  rw [read, read, h]

/-- What cannot be read is missing or corrupt. -/
theorem failure_of_read (h : read t path = .error f) :
    f = .cacheMissing path ∨ ∃ message, f = .cacheCorrupt path message := by
  unfold read at h
  split at h
  · exact .inl (Except.error.inj h).symm
  · split at h
    · exact .inr ⟨_, (Except.error.inj h).symm⟩
    · next content _ =>
      cases hparse : CacheRecord.parse content with
      | error fault =>
        rw [hparse] at h
        exact .inr ⟨_, (Except.error.inj h).symm⟩
      | ok r =>
        rw [hparse] at h
        cases h

theorem load_eq_ok :
    load t path ttl now = .ok r ↔ read t path = .ok r ∧ ¬ttl < r.ageAt now := by
  unfold load
  cases read t path with
  | error failure => simp [bind, Except.bind]
  | ok found =>
    by_cases hage : ttl < found.ageAt now
    · simp only [bind, Except.bind, hage, if_true, reduceCtorEq, false_iff]
      rintro ⟨heq, hle⟩
      cases heq
      exact hle hage
    · simp only [bind, Except.bind, hage, if_false, Except.ok.injEq]
      constructor
      · rintro rfl
        exact ⟨rfl, hage⟩
      · exact fun h => h.1

/-- What reading gives, and what a load makes of it. -/
inductive Judged (path : String) (ttl : Duration) (now : Timestamp) :
    Except Failure CacheRecord → Except Failure CacheRecord → Prop
  | missing : Judged path ttl now (.error (.cacheMissing path)) (.error (.cacheMissing path))
  | corrupt (message : String) : Judged path ttl now (.error (.cacheCorrupt path message))
      (.error (.cacheCorrupt path message))
  | expired {r : CacheRecord} (hage : ttl < r.ageAt now) :
      Judged path ttl now (.ok r) (.error (.cacheExpired path (r.ageAt now)))
  | fresh {r : CacheRecord} (hage : ¬ttl < r.ageAt now) : Judged path ttl now (.ok r) (.ok r)

theorem judged (t : FileTree) (path : String) (ttl : Duration) (now : Timestamp) :
    Judged path ttl now (read t path) (load t path ttl now) := by
  unfold load
  cases hread : read t path with
  | error f =>
    rcases failure_of_read hread with rfl | ⟨message, rfl⟩
    · exact .missing
    · exact .corrupt message
  | ok r =>
    by_cases hage : ttl < r.ageAt now
    · simp only [bind, Except.bind, hage, if_true]
      exact .expired hage
    · simp only [bind, Except.bind, hage, if_false]
      exact .fresh hage

theorem isCacheMiss_of_load (h : load t path ttl now = .error f) : f.isCacheMiss = true := by
  have hjudged := judged t path ttl now
  rw [h] at hjudged
  generalize read t path = found at hjudged
  cases hjudged <;> rfl

/-! ## A file that is removed -/

/-- What comes of the file. -/
inductive Removes (t : FileTree) (path : String) : EStateM.Result Failure FileTree Bool → Prop
  | removed {content : ByteArray} {u : FileTree} (hfile : t.lookup path = .ok (.file content))
      (hremove : t.removeFile path = .ok u) : Removes t path (.ok true u)
  | missing (hnone : t.lookup path = .error .notFound) : Removes t path (.ok false t)
  | stuck (fault : IoFault) (hfile : ∀ content, t.lookup path ≠ .ok (.file content))
      (hnone : t.lookup path ≠ .error .notFound) : Removes t path (.error (.io fault) t)

theorem removes (t : FileTree) (path : String) : Removes t path (flush path t) := by
  unfold flush
  cases hremove : t.removeFile path with
  | ok u =>
    obtain ⟨content, hfile⟩ := FileTree.removeFile_succeeds_iff.mp ⟨u, hremove⟩
    exact .removed hfile hremove
  | error fault =>
    have hfile (content : ByteArray) : t.lookup path ≠ .ok (.file content) := by
      intro hfile
      obtain ⟨u, hu⟩ := FileTree.removeFile_succeeds_iff.mpr ⟨content, hfile⟩
      rw [hremove] at hu
      cases hu
    by_cases hfault : fault = .notFound
    · subst hfault
      exact .missing (FileTree.removeFile_eq_notFound.mp hremove)
    · have hnone : t.lookup path ≠ .error .notFound := by
        intro hnone
        rw [FileTree.removeFile_eq_notFound.mpr hnone] at hremove
        exact hfault (Except.error.inj hremove).symm
      cases fault <;> first | exact absurd rfl hfault | exact .stuck _ hfile hnone

namespace Removes

variable {found : Bool} {u : FileTree}

/-- The file is found exactly if there is one, and the tree stays as it is exactly if there is
none. -/
theorem found_iff (h : Removes t path (.ok found u)) :
    (found = true ↔ ∃ content, t.lookup path = .ok (.file content))
      ∧ (u = t ↔ ∀ content, t.lookup path ≠ .ok (.file content)) := by
  cases h with
  | @removed content u hfile hremove =>
    refine ⟨iff_of_true rfl ⟨content, hfile⟩, iff_of_false ?_ fun hno => hno content hfile⟩
    rintro rfl
    rw [FileTree.lookup_of_removeFile hremove] at hfile
    cases hfile
  | missing hnone =>
    refine ⟨iff_of_false Bool.false_ne_true ?_, iff_of_true rfl ?_⟩
    · rintro ⟨content, hfile⟩
      rw [hnone] at hfile
      cases hfile
    · intro content hfile
      rw [hnone] at hfile
      cases hfile

theorem lookup_eq (h : Removes t path (.ok found u)) : u.lookup path = .error .notFound := by
  cases h with
  | removed hfile hremove => exact FileTree.lookup_of_removeFile hremove
  | missing hnone => exact hnone

theorem removable (h : Removes t path (.ok found u)) :
    (∃ content, t.lookup path = .ok (.file content)) ∨ t.lookup path = .error .notFound := by
  cases h with
  | removed hfile hremove => exact .inl ⟨_, hfile⟩
  | missing hnone => exact .inr hnone

end Removes

theorem lookup_of_flush {found : Bool} (h : flush path t = .ok found u) :
    u.lookup path = .error .notFound := by
  have hremoves : Removes t path (.ok found u) := h ▸ removes t path
  exact hremoves.lookup_eq

theorem flush_of_missing (h : t.lookup path = .error .notFound) : flush path t = .ok false t := by
  rw [flush, FileTree.removeFile_eq_notFound.mpr h]

end RepoSelect.Cache
