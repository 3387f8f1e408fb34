import RepoSelect.Cache.File
import RepoSelect.Proofs.FileTree.Change

/-!
# The draft and its file

The draft lies beside the file: both are reached along the same components, up to their names
(`components_draftPath`), and their names differ, so that

> the draft never is what the path leads to (`endOf_draftPath_ne`), and whether it can be reached
> does not depend on what is at the end of the path (`resolve_draftPath_congr`).

The directories on the way to the file are there if the path leads to a name, and there is nothing
to be done for them (`ensureDirectories_folder`).
-/

namespace RepoSelect

namespace FileTree

variable {t : FileTree} {path : String}

/-- A directory that is there is left as it is. -/
theorem ensureDirectory_of_lookup (h : t.lookup path = .ok .directory) :
    ensureDirectory path t = .ok () t := by
  obtain ⟨target, hresolve, hfinds⟩ := lookup_eq_ok.mp h
  have hcreate : t.createDirectory path = .error .alreadyExists := by
    unfold createDirectory
    rw [hresolve]
    cases target with
    | directory place => rfl
    | named place slash => simp [bind, Except.bind, hfinds.1]
  simp only [ensureDirectory, hcreate, isDirectory, h, if_true]

theorem ensureDirectories_of_lookup (h : t.lookup path = .ok .directory) :
    ensureDirectories path t = .ok () t := by
  have hne : path ≠ "" := by
    rintro rfl
    cases h
  exact ensureDirectories_of_ok hne (ensureDirectory_of_lookup h)

end FileTree

namespace Cache

open FileTree

variable {t u : FileTree} {path : String} {draft place : Place} {slash : Bool}

/-- The directory that the file is to be in. -/
def folder (path : String) : String := (Path.parent? path).getD ""

theorem fileName?_of_resolve (h : t.resolve path = .ok (.named place slash)) :
    ∃ file, Path.fileName? path = some file := by
  obtain ⟨front, name, hlast, hdot, hdots, -⟩ := (resolve_eq_ok.mp h).2.of_named
  cases hname : Path.fileName? path with
  | some file => exact ⟨file, rfl⟩
  | none =>
    rcases Path.last_of_fileName?_eq_none hname hlast with h | h
    · exact absurd h hdot
    · exact absurd h hdots

/-- A path without a file name is its own draft. -/
theorem draftPath_of_fileName?_eq_none (hname : Path.fileName? path = none) :
    draftPath path = path := by
  rw [draftPath, Path.withExtension, hname]
  split <;> simp_all

/-- The draft is reached along the components that the path is reached along, up to its name. -/
theorem components_draftPath {file : String} (hname : Path.fileName? path = some file) :
    ∃ front dots sibling, Path.Idle dots ∧ Path.components path = front ++ file :: dots
      ∧ Path.components (draftPath path) = front ++ [sibling]
      ∧ sibling ≠ file ∧ sibling ≠ "." ∧ sibling ≠ ".." := by
  have hslash : '/' ∉ "json.tmp".toList := by decide
  have hdotted : '.' ∈ "json.tmp".toList := by decide
  obtain ⟨-, front, dots, hidle, hpath, hdraft⟩ := Path.components_withExtension hname hslash
  have hlong : 2 < ((Path.splitName file).1 ++ "." ++ "json.tmp").toList.length := by
    rw [String.toList_append, List.length_append]
    exact Nat.lt_add_left _ (by decide)
  refine ⟨front, dots, _, hidle, hpath, hdraft, Path.stem_append_ne hdotted file, ?_, ?_⟩
  · intro heq
    rw [heq] at hlong
    exact absurd hlong (by decide)
  · intro heq
    rw [heq] at hlong
    exact absurd hlong (by decide)

theorem isAbsolute_draftPath (path : String) :
    Path.isAbsolute (draftPath path) = Path.isAbsolute path := by
  cases hname : Path.fileName? path with
  | none => rw [draftPath_of_fileName?_eq_none hname]
  | some file => exact (Path.components_withExtension hname (by decide)).1

theorem start_draftPath (t : FileTree) (path : String) :
    t.start (draftPath path) = t.start path := by
  rw [start, start, isAbsolute_draftPath]

theorem endOf_draftPath_ne {file : String} (hname : Path.fileName? path = some file)
    (t : FileTree) : t.endOf (draftPath path) ≠ t.endOf path := by
  obtain ⟨front, dots, sibling, hidle, hpath, hdraft, hne, hdot, hdots⟩ :=
    components_draftPath hname
  obtain ⟨-, -, hfile, hfile'⟩ := Path.fileName?_eq_some hname
  have hto : t.endOf path = destination (t.start path) front ++ [file] := by
    rw [endOf, hpath, destination_append, ← toward_of_ne hfile hfile']
    exact destination_of_idle hidle _
  have hfrom : t.endOf (draftPath path) = destination (t.start path) front ++ [sibling] := by
    rw [endOf, start_draftPath, hdraft, destination_append, ← toward_of_ne hdot hdots]
    rfl
  rw [hfrom, hto]
  intro heq
  exact hne (List.singleton_inj.mp (List.append_cancel_left heq))

/-- The draft is next to what the path leads to. -/
theorem draft_ne_endOf (h : t.resolve (draftPath path) = .ok (.named draft slash)) :
    draft ≠ t.endOf path := by
  cases hname : Path.fileName? path with
  | none =>
    rw [draftPath_of_fileName?_eq_none hname] at h
    obtain ⟨file, hfile⟩ := fileName?_of_resolve h
    rw [hname] at hfile
    cases hfile
  | some file =>
    have hplace : draft = t.endOf (draftPath path) := place_of_resolve h
    rw [hplace]
    exact endOf_draftPath_ne hname t

/-- Two trees in which a path leads to a name agree on its draft: what the draft's path means hangs
on the components in front of its name. -/
theorem resolve_draftPath_congr (ht : t.resolve path = .ok (.named place slash))
    (hu : u.resolve path = .ok (.named place slash))
    (hstart : u.workingDirectory = t.workingDirectory) :
    u.resolve (draftPath path) = t.resolve (draftPath path) := by
  obtain ⟨file, hname⟩ := fileName?_of_resolve ht
  obtain ⟨front, dots, sibling, -, hpath, hdraft, -⟩ := components_draftPath hname
  have hstart' : u.start path = t.start path := by rw [start, start, hstart]
  have hfront := (resolve_eq_ok.mp ht).2
  have hfront' := (resolve_eq_ok.mp hu).2
  rw [hpath, leads_append (List.cons_ne_nil _ _)] at hfront hfront'
  rw [hstart'] at hfront'
  simp only [resolve, start_draftPath, hdraft, hstart',
    hfront.1.follow_append (List.cons_ne_nil _ _), hfront'.1.follow_append (List.cons_ne_nil _ _),
    follow_single u t]

/-- The directories on the way to a name are there. -/
theorem ensureDirectories_folder (h : t.resolve path = .ok (.named place slash)) :
    ensureDirectories (folder path) t = .ok () t := by
  rw [folder]
  cases hparent : Path.parent? path with
  | none => rw [Option.getD_none, ensureDirectories, if_pos rfl]
  | some parent =>
    rw [Option.getD_some]
    by_cases hempty : parent = ""
    · rw [hempty, ensureDirectories, if_pos rfl]
    · obtain ⟨⟨hzero, hne, hsize⟩, hleads⟩ := resolve_eq_ok.mp h
      obtain ⟨habs, dots, name, dots', -, -, hcomponents, -⟩ := Path.components_parent? hparent
      obtain ⟨rest, hrest⟩ := Path.parent?_prefix hparent
      have hpath : IsPath parent := by
        refine ⟨?_, hempty, ?_⟩
        · rw [List.contains_eq_mem, decide_eq_false_iff_not] at hzero ⊢
          exact fun hmem => hzero (hrest ▸ List.mem_append_left rest hmem)
        · have htext : path = parent ++ String.ofList rest := by
            rw [← String.toList_inj, String.toList_append, String.toList_ofList, hrest]
          rw [htext, String.utf8ByteSize_append] at hsize
          omega
      rw [hcomponents, leads_append (by simp)] at hleads
      obtain ⟨target, hto, hfinds⟩ := hleads.1.finds (parent.toList.getLast? = some '/')
      have hstart : t.start parent = t.start path := by rw [start, start, habs]
      exact ensureDirectories_of_lookup
        (lookup_eq_ok.mpr ⟨target, resolve_eq_ok.mpr ⟨hpath, hstart ▸ hto⟩, hfinds⟩)

end Cache

end RepoSelect
