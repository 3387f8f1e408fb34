import RepoSelect.Proofs.FileTree.Follow

/-!
# Trees without loose ends

In a tree that is `Grounded` whatever is somewhere is in a directory. All changes keep that, and
what it says about paths is the converse of `resolve_mono` for those that never go up:

> a path without `..` that leads somewhere in one tree leads there in any grounded tree that has
> the same at the end of it (`resolve_back`).

A path with `..` is not like that: a directory that it passes through need not be above its end.
-/

namespace RepoSelect.FileTree

variable {t u : FileTree} {path : String}

/-- Whatever is somewhere is in a directory, and relative paths start at one. -/
structure Grounded (t : FileTree) : Prop where
  parent {place : Place} {name : String} {e : Entry} (h : t.at? (place ++ [name]) = some e) :
    t.at? place = some .directory
  workingDirectory : t.at? t.workingDirectory = some .directory

theorem grounded_empty : ({} : FileTree).Grounded := by
  refine ⟨fun {place name e} h => ?_, rfl⟩
  rw [at?, if_neg (List.append_ne_nil_of_right_ne_nil _ (List.cons_ne_nil _ _))] at h
  simp at h

namespace Grounded

theorem above (hground : t.Grounded) {place more : Place} {e : Entry} (hne : more ≠ [])
    (h : t.at? (place ++ more) = some e) : t.at? place = some .directory := by
  induction more generalizing place with
  | nil => exact absurd rfl hne
  | cons name more ih =>
    rw [List.append_cons] at h
    by_cases hmore : more = []
    · rw [hmore, List.append_nil] at h
      exact hground.parent h
    · exact hground.parent (ih hmore h)

theorem start (hground : t.Grounded) (path : String) :
    t.at? (t.start path) = some .directory := by
  unfold FileTree.start
  split
  · rfl
  · exact hground.workingDirectory

end Grounded

/-! ## Paths that never go up -/

theorem toward_eq_append {name : String} (h : name ≠ "..") (here : Place) :
    ∃ more, toward here name = here ++ more := by
  unfold toward
  rw [if_neg h]
  split
  · exact ⟨[], (List.append_nil _).symm⟩
  · exact ⟨[name], rfl⟩

theorem destination_eq_append {names : List String} (h : ".." ∉ names) (here : Place) :
    ∃ more, destination here names = here ++ more := by
  induction names generalizing here with
  | nil => exact ⟨[], (List.append_nil _).symm⟩
  | cons name names ih =>
    rw [List.mem_cons, not_or] at h
    obtain ⟨first, hfirst⟩ := toward_eq_append (Ne.symm h.1) here
    obtain ⟨more, hmore⟩ := ih h.2 (toward here name)
    refine ⟨first ++ more, ?_⟩
    rw [← List.append_assoc, ← hfirst]
    exact hmore

/-- The places along components that never go up are above where they lead. -/
theorem isPrefix_of_mem_placesFrom {names : List String} (h : ".." ∉ names) {here place : Place}
    (hmem : place ∈ placesFrom here names) : place <+: destination here names := by
  induction names generalizing here with
  | nil => cases hmem
  | cons name names ih =>
    rw [List.mem_cons, not_or] at h
    rcases List.mem_cons.mp hmem with rfl | hmem
    · obtain ⟨more, hmore⟩ := destination_eq_append h.2 (toward here name)
      exact ⟨more, hmore.symm⟩
    · exact ih h.2 hmem

/-- A component that does not go up leads from a directory to a directory. -/
theorem at?_of_descend {here : Place} {name : String} (hdots : name ≠ "..")
    (hhere : t.at? here = some .directory)
    (h : t.descend here name = .ok (toward here name)) :
    t.at? (toward here name) = some .directory := by
  by_cases hdot : name = "."
  · rwa [hdot]
  · rw [toward_of_ne hdot hdots]
    exact ((descend_toward.mp h).resolve_left (not_or.mpr ⟨hdot, hdots⟩)).2

theorem Leads.back (hground : t.Grounded) {slash : Bool} {names : List String} {here : Place}
    {target : Target} {e : Entry} (hdots : ".." ∉ names)
    (h : u.Leads slash here names target) (hu : u.at? (destination here names) = some e)
    (ht : t.at? (destination here names) = some e) : t.Leads slash here names target := by
  induction h with
  | nowhere here => exact .nowhere here
  | idle hname => exact .idle hname
  | name hdot hup hchild => exact .name hdot hup hchild
  | @on here name names target hne hdescend h ih =>
    rw [List.mem_cons, not_or] at hdots
    refine .on hne ?_ (ih hdots.2 hu ht)
    rcases descend_toward.mp hdescend with hname | ⟨hchild, hdir⟩
    · exact descend_of_idle hname t here
    · by_cases hdot : name = "."
      · exact descend_of_idle (.inl hdot) t here
      · refine descend_toward.mpr (.inr ⟨hchild, ?_⟩)
        rw [destination, List.foldl_cons, ← destination,
          toward_of_ne hdot (Ne.symm hdots.1)] at hu ht
        obtain ⟨more, hmore⟩ := destination_eq_append hdots.2 (here ++ [name])
        rw [hmore] at hu ht
        by_cases hend : more = []
        · rw [hend, List.append_nil] at hu ht
          rw [ht, ← hu, hdir]
        · exact hground.above hend ht

theorem resolve_back (hground : t.Grounded) (hstart : u.workingDirectory = t.workingDirectory)
    {target : Target} {e : Entry} (hdots : ".." ∉ Path.components path)
    (hresolve : u.resolve path = .ok target) (hu : u.at? target.place = some e)
    (ht : t.at? target.place = some e) : t.resolve path = .ok target := by
  have heq : t.start path = u.start path := by simp [start, hstart]
  have hplace := place_of_resolve hresolve
  obtain ⟨hpath, hleads⟩ := resolve_eq_ok.mp hresolve
  rw [hplace, endOf] at hu ht
  refine resolve_eq_ok.mpr ⟨hpath, ?_⟩
  rw [heq]
  exact hleads.back hground hdots hu ht

theorem Leads.at?_directory {slash : Bool} {names : List String} {here place : Place}
    (h : t.Leads slash here names (.directory place)) (hdots : ".." ∉ names)
    (hhere : t.at? here = some .directory) : t.at? place = some .directory := by
  generalize htarget : Target.directory place = target at h
  induction h with
  | nowhere =>
    cases htarget
    exact hhere
  | @idle here name hname =>
    cases htarget
    obtain rfl : name = "." := hname.resolve_right fun h => hdots (by simp [h])
    exact hhere
  | name => cases htarget
  | on hne hdescend h ih =>
    rw [List.mem_cons, not_or] at hdots
    exact ih hdots.2 (at?_of_descend (Ne.symm hdots.1) hhere hdescend) htarget

/-- What a path without `..` leads to was there before, if what is at its end was. -/
theorem lookup_back (hground : t.Grounded) (hkeep : KeepsDirectories t u)
    (hstart : u.workingDirectory = t.workingDirectory) {e : Entry}
    (hdots : ".." ∉ Path.components path)
    (hsame : u.at? (t.endOf path) = t.at? (t.endOf path))
    (h : u.lookup path = .ok e) : t.lookup path = .ok e := by
  obtain ⟨target, hresolve, hfinds⟩ := lookup_eq_ok.mp h
  have heq : u.start path = t.start path := by simp [start, hstart]
  have hplace := place_of_resolve hresolve
  rw [endOf_congr hstart] at hplace
  rw [← hplace] at hsame
  have hat : u.at? target.place = some e := by
    cases target with
    | directory place =>
      have hhere : u.at? (u.start path) = some .directory := by
        rw [heq]
        exact hkeep _ (hground.start path)
      rw [hfinds]
      exact (resolve_eq_ok.mp hresolve).2.at?_directory hdots hhere
    | named place slash => exact hfinds.1
  have hback := resolve_back hground hstart hdots hresolve hat (hsame ▸ hat)
  refine lookup_eq_ok.mpr ⟨target, hback, ?_⟩
  cases target with
  | directory place => exact hfinds
  | named place slash => exact ⟨hsame ▸ hat, hfinds.2⟩

/-! ## Changes -/

namespace Grounded

theorem dropLast (hground : t.Grounded) {place : Place} (h : t.at? place = some .directory) :
    t.at? place.dropLast = some .directory := by
  by_cases hnil : place = []
  · rw [hnil]
    rfl
  · rw [← List.dropLast_concat_getLast hnil] at h
    exact hground.parent h

/-- A name that can be followed is in a directory. -/
theorem parent_of_leads (hground : t.Grounded) {slash behind : Bool} {names : List String}
    {here place : Place} (hhere : t.at? here = some .directory)
    (h : t.Leads slash here names (.named place behind)) :
    ∃ parent name, place = parent ++ [name] ∧ t.at? parent = some .directory := by
  generalize htarget : Target.named place behind = target at h
  induction h with
  | nowhere => cases htarget
  | idle => cases htarget
  | @name here name =>
    cases htarget
    exact ⟨here, name, rfl, hhere⟩
  | @on here name names target hne hdescend h ih =>
    refine ih ?_ htarget
    by_cases hdots : name = ".."
    · rw [hdots]
      exact hground.dropLast hhere
    · exact at?_of_descend hdots hhere hdescend

theorem parent_of_resolve (hground : t.Grounded) {place : Place} {slash : Bool}
    (h : t.resolve path = .ok (.named place slash)) :
    ∃ parent name, place = parent ++ [name] ∧ t.at? parent = some .directory :=
  hground.parent_of_leads (hground.start path) (resolve_eq_ok.mp h).2

/-- Something new in a directory, or in place of a file, has a directory above it. -/
theorem put (hground : t.Grounded) {place : Place} {slash : Bool} (e : Entry)
    (hresolve : t.resolve path = .ok (.named place slash))
    (hfree : t.at? place ≠ some .directory) : (t.put place e).Grounded := by
  obtain ⟨parent, name, rfl, hparent⟩ := hground.parent_of_resolve hresolve
  have hne := ne_nil_of_resolve hresolve
  have hkeep := keepsDirectories_put e hne hfree
  refine ⟨fun {place name' e'} h => ?_, hkeep _ hground.workingDirectory⟩
  rw [at?_put _ _ _ hne] at h
  split at h
  · next heq =>
    rw [← (List.append_inj' heq rfl).1]
    exact hkeep _ hparent
  · exact hkeep _ (hground.parent h)

theorem drop (hground : t.Grounded) {place : Place} (hfree : t.at? place ≠ some .directory) :
    (t.drop place).Grounded := by
  have hne : place ≠ [] := by
    rintro rfl
    exact hfree rfl
  have hkeep := keepsDirectories_drop hne hfree
  refine ⟨fun {other name e} h => ?_, hkeep _ hground.workingDirectory⟩
  rw [at?_drop _ _ hne] at h
  split at h
  · cases h
  · exact hkeep _ (hground.parent h)

end Grounded

end RepoSelect.FileTree
