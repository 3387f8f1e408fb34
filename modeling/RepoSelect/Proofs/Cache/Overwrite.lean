import RepoSelect.Proofs.Cache.Ready

/-!
# Overwriting a file

Two trees that differ in nothing but the file that a path leads to (`SameButFile`) are the same to
whoever saves a record there, on disks that have the same room:

> either both are ready, or in neither of them the draft can be opened, for the same reason
> (`SameButFile.ready_or_unopened`).

So what the file held before, if it was there at all, does not show in what is saved, in a failure,
or anywhere else in the tree (`SameButFile.saveOn_cases`).
-/

namespace RepoSelect.Cache

open FileTree

variable {t u : FileTree} {path : String} {draft place other : Place}

/-- Two trees that differ in nothing but the file that the path leads to, if there is one. -/
structure SameButFile (path : String) (place : Place) (t u : FileTree) : Prop where
  workingDirectory_eq : u.workingDirectory = t.workingDirectory
  resolve_eq : t.resolve path = .ok (.named place false)
  free : t.at? place ≠ some .directory
  free' : u.at? place ≠ some .directory
  at?_eq {other : Place} (hne : other ≠ place) : u.at? other = t.at? other

namespace SameButFile

theorem keepsDirectories (h : SameButFile path place t u) : KeepsDirectories t u := by
  intro other hdir
  rw [h.at?_eq]
  · exact hdir
  · rintro rfl
    exact h.free hdir

theorem resolve_eq' (h : SameButFile path place t u) :
    u.resolve path = .ok (.named place false) :=
  resolve_mono h.keepsDirectories h.workingDirectory_eq h.resolve_eq

theorem resolve_draft (h : SameButFile path place t u) :
    u.resolve (draftPath path) = t.resolve (draftPath path) :=
  resolve_draftPath_congr h.resolve_eq h.resolve_eq' h.workingDirectory_eq

/-- A record can be saved in both trees, or its draft cannot be opened in either. -/
theorem ready_or_unopened (h : SameButFile path place t u) :
    (∃ draft, Ready t path draft place ∧ Ready u path draft place)
      ∨ ∃ fault, ∀ content, t.write (draftPath path) content = .error fault
          ∧ u.write (draftPath path) content = .error fault := by
  simp only [write, h.resolve_draft]
  cases hdraft : t.resolve (draftPath path) with
  | error fault => exact .inr ⟨fault, fun _ => ⟨rfl, rfl⟩⟩
  | ok target =>
    rcases target with _ | ⟨draft, _ | _⟩
    · exact .inr ⟨.isADirectory, fun _ => ⟨rfl, rfl⟩⟩
    · have hother : draft ≠ place := by
        have hplace : place = t.endOf path := place_of_resolve h.resolve_eq
        rw [hplace]
        exact draft_ne_endOf hdraft
      have hat := h.at?_eq hother
      by_cases hdir : t.at? draft = some .directory
      · refine .inr ⟨.isADirectory, fun _ => ?_⟩
        simp [bind, Except.bind, hat, hdir]
      · refine .inl ⟨draft, ⟨hdraft, h.resolve_eq, hdir, h.free⟩, ?_, h.resolve_eq', ?_, h.free'⟩
        · rw [h.resolve_draft, hdraft]
        · rwa [hat]
    · exact .inr ⟨.isADirectory, fun _ => ⟨rfl, rfl⟩⟩

/-- What is saved over the file, in the one tree and in the other, leaves them the same. If it is
not saved, they are left as they were, or with what each disk has taken of the draft. -/
theorem saveOn_cases (h : SameButFile path place t u) (disk : Disk) (r r' : CacheRecord) :
    (∃ v w, saveOn disk path r t = .ok () v ∧ saveOn disk path r' u = .ok () w
        ∧ ∀ other ≠ place, w.at? other = v.at? other)
      ∨ ∃ fault v w, saveOn disk path r t = .error (.cacheWrite path fault) v
          ∧ saveOn disk path r' u = .error (.cacheWrite path fault) w
          ∧ (v = t ∧ w = u ∨ ∃ draft e e', t.resolve (draftPath path) = .ok (.named draft false)
              ∧ leftover disk r = some e ∧ leftover disk r' = some e'
              ∧ v = t.put draft e ∧ w = u.put draft e') := by
  rcases h.ready_or_unopened with ⟨draft, ht, hu⟩ | ⟨fault, hfault⟩
  · cases disk with
    | sound =>
      refine .inl ⟨_, _, ht.save_eq r, hu.save_eq r', fun other hne => ?_⟩
      simp only [at?_put _ _ _ ht.place_ne_nil, at?_drop _ _ ht.draft_ne_nil,
        at?_put _ _ _ ht.draft_ne_nil, if_neg hne.symm, h.at?_eq hne]
      split
      · rfl
      · rfl
    | failing room fault =>
      refine .inr ⟨fault, _, _, ht.saveOn_failing room fault r, hu.saveOn_failing room fault r',
        .inr ⟨draft, _, _, ht.resolve_draft, rfl, rfl, rfl, rfl⟩⟩
  · exact .inr ⟨fault, t, u,
      saveOn_of_unopened h.resolve_eq (fun content => (hfault content).1) disk r,
      saveOn_of_unopened h.resolve_eq' (fun content => (hfault content).2) disk r',
      .inl ⟨rfl, rfl⟩⟩

end SameButFile

end RepoSelect.Cache
