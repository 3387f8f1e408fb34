import Mathlib.Logic.Relation
import RepoSelect.Proofs.Cache.Ready

/-!
# Saving step by step

Saving a record takes several steps between which others can look at the files and change them: the
directories are made, the draft is opened and thereby emptied, the text is written to it piece by
piece, the draft is put in its place, and if it cannot be, it is removed. A saver that has a draft
open goes on writing to that file wherever it is moved meanwhile.

> A saver that is left alone ends as saving in one go does, with the same outcome and the same
> files, whatever the pieces are (`alone_iff_save`).
-/

namespace RepoSelect.Cache

open FileTree

variable {t u v : FileTree} {path : String} {r : CacheRecord} {draft place : Place} {n : Nat}

/-! ## Writing piece by piece -/

/-- A content with bytes put over those at an offset, and zeros in a gap before them. -/
def overwrite (content : ByteArray) (offset : Nat) (bytes : ByteArray) : ByteArray :=
  content.extract 0 offset ++ ⟨Array.replicate (offset - content.size) 0⟩ ++ bytes
    ++ content.extract (offset + bytes.size) content.size

/-- Writes to an open file, if it still has a name. -/
def fill (t : FileTree) (file : Option Place) (offset : Nat) (bytes : ByteArray) : FileTree :=
  match file with
  | none => t
  | some place =>
    match t.at? place with
    | some (.file content) => t.put place (.file (overwrite content offset bytes))
    | _ => t

/-- The next piece of a text goes behind those that are written. -/
theorem overwrite_extract {bytes : ByteArray} {written : Nat} (h : written ≤ bytes.size) (n : Nat) :
    overwrite (bytes.extract 0 written) written (bytes.extract written (written + n))
      = bytes.extract 0 (written + n) := by
  have hsize : (bytes.extract 0 written).size = written := by
    rw [ByteArray.size_extract]
    omega
  have hfront : (bytes.extract 0 written).extract 0 written = bytes.extract 0 written := by
    have hwhole := ByteArray.extract_zero_size (b := bytes.extract 0 written)
    rwa [hsize] at hwhole
  have hbehind : (bytes.extract 0 written).extract
      (written + (bytes.extract written (written + n)).size) written = .empty := by
    rw [ByteArray.extract_eq_empty_iff, hsize]
    omega
  have hgap : (⟨Array.replicate (written - written) 0⟩ : ByteArray) = .empty := by
    rw [Nat.sub_self]
    rfl
  rw [overwrite, hsize, hfront, hgap, hbehind, ByteArray.append_empty, ByteArray.append_empty,
    ByteArray.extract_append_extract, Nat.zero_min, Nat.max_eq_right (Nat.le_add_right _ _)]

theorem extract_min (bytes : ByteArray) (n : Nat) :
    bytes.extract 0 (min n bytes.size) = bytes.extract 0 n := by
  refine ByteArray.ext ?_
  rw [ByteArray.data_extract, ByteArray.data_extract, ByteArray.size,
    Array.extract_eq_extract_right]
  omega

theorem put_put (t : FileTree) (place : Place) (e e' : Entry) :
    (t.put place e).put place e' = t.put place e' := by
  unfold put
  congr 1
  refine Std.ExtTreeMap.ext_getElem? fun other => ?_
  simp only [Std.ExtTreeMap.getElem?_insert]
  split
  · rfl
  · rfl

theorem fill_put {content : ByteArray} (hne : draft ≠ []) (offset : Nat)
    (bytes : ByteArray) : fill (t.put draft (.file content)) (some draft) offset bytes
      = t.put draft (.file (overwrite content offset bytes)) := by
  simp only [fill, at?_put _ _ _ hne, if_true, put_put]

/-- Whether a file can be written does not depend on what is to be written. -/
theorem write_eq_error {fault : IoFault} {content content' : ByteArray}
    (h : t.write path content = .error fault) : t.write path content' = .error fault := by
  unfold write at h ⊢
  cases hresolve : t.resolve path with
  | error _ =>
    rw [hresolve] at h
    exact h
  | ok target =>
    rw [hresolve] at h
    match target, h with
    | .directory _, h => exact h
    | .named _ true, h => exact h
    | .named place false, h =>
      by_cases hdir : t.at? place = some .directory
      · simp only [bind, Except.bind, if_pos hdir] at h ⊢
        exact h
      · simp only [bind, Except.bind, if_neg hdir] at h
        cases h

/-! ## One saver -/

/-- How far a saver has come. -/
inductive Stage where
  | begun
  /-- The directories are there. -/
  | prepared
  /-- The draft is open, and so many bytes are written; the file may have lost its name. -/
  | writing (file : Option Place) (written : Nat)
  /-- The draft could not be put in its place. -/
  | unplaced (fault : IoFault)
  | ended (outcome : Except IoFault Unit)

/-- What a step of a saver leads to. -/
structure Advance where
  files : FileTree
  stage : Stage
  /-- Where the files that had names are found now, by those who have them open. -/
  moved : Place → Option Place := some

/-- The next step of a saver, which writes at most `n` bytes. -/
def advance (path : String) (content : ByteArray) (n : Nat) (t : FileTree) : Stage → Advance
  | .begun =>
    match ensureDirectories (folder path) t with
    | .ok () u => { files := u, stage := .prepared }
    | .error fault u => { files := u, stage := .ended (.error fault) }
  | .prepared =>
    match t.write (draftPath path) .empty with
    | .ok u => { files := u, stage := .writing (some (t.endOf (draftPath path))) 0 }
    | .error fault => { files := t, stage := .ended (.error fault) }
  | .writing file written =>
    if written < content.size then
      { files := fill t file written (content.extract written (written + n))
        stage := .writing file (min (written + n) content.size) }
    else
      match t.moveFile (draftPath path) path with
      | .ok u =>
        { files := u
          stage := .ended (.ok ())
          moved := fun place =>
            if place = t.endOf (draftPath path) then some (t.endOf path)
            else if place = t.endOf path then none else some place }
      | .error fault => { files := t, stage := .unplaced fault }
  | .unplaced fault =>
    match t.removeFile (draftPath path) with
    | .ok u =>
      { files := u
        stage := .ended (.error fault)
        moved := fun place => if place = t.endOf (draftPath path) then none else some place }
    | .error _ => { files := t, stage := .ended (.error fault) }
  | .ended outcome => { files := t, stage := .ended outcome }

/-- A saver and its files before and after one of its steps. -/
def Advances (path : String) (content : ByteArray) (a b : FileTree × Stage) : Prop :=
  ∃ n, b = ((advance path content n a.1 a.2).files, (advance path content n a.1 a.2).stage)

/-- The steps of a saver lead to an end. -/
def Ends (path : String) (content : ByteArray) (t : FileTree) (stage : Stage) : Prop :=
  ∃ u outcome, Relation.ReflTransGen (Advances path content) (t, stage) (u, .ended outcome)

namespace Ends

variable {content : ByteArray} {stage : Stage}

theorem of_advance (n : Nat)
    (h : Ends path content (advance path content n t stage).files
      (advance path content n t stage).stage) : Ends path content t stage := by
  obtain ⟨u, outcome, hrun⟩ := h
  exact ⟨u, outcome, .head ⟨n, rfl⟩ hrun⟩

theorem ended (t : FileTree) (outcome : Except IoFault Unit) :
    Ends path content t (.ended outcome) :=
  ⟨t, outcome, .refl⟩

theorem unplaced (t : FileTree) (fault : IoFault) : Ends path content t (.unplaced fault) := by
  refine .of_advance 0 ?_
  unfold advance
  cases t.removeFile (draftPath path) <;> exact ended _ _

theorem full {written : Nat} (h : content.size ≤ written) (t : FileTree) (file : Option Place) :
    Ends path content t (.writing file written) := by
  refine .of_advance 0 ?_
  simp only [advance, Nat.not_lt.mpr h, if_false]
  cases t.moveFile (draftPath path) path with
  | ok u => exact ended _ _
  | error fault => exact unplaced _ _

theorem writing (t : FileTree) (file : Option Place) (written : Nat) :
    Ends path content t (.writing file written) := by
  rcases Nat.lt_or_ge written content.size with hlt | hge
  · refine .of_advance content.size ?_
    simp only [advance, hlt, if_true]
    exact full (Nat.le_min.mpr ⟨Nat.le_add_left _ _, Nat.le_refl _⟩) _ _
  · exact full hge t file

theorem prepared (t : FileTree) : Ends path content t .prepared := by
  refine .of_advance 0 ?_
  unfold advance
  cases t.write (draftPath path) .empty with
  | ok u => exact writing _ _ _
  | error fault => exact ended _ _

theorem begun (t : FileTree) : Ends path content t .begun := by
  refine .of_advance 0 ?_
  unfold advance
  cases ensureDirectories (folder path) t with
  | ok done u => exact prepared u
  | error fault u => exact ended _ _

end Ends

/-- Nothing keeps a saver from ending, wherever it has come to. -/
theorem ends (path : String) (content : ByteArray) (t : FileTree) (stage : Stage) :
    Ends path content t stage := by
  cases stage with
  | begun => exact .begun t
  | prepared => exact .prepared t
  | writing file written => exact .writing t file written
  | unplaced fault => exact .unplaced t fault
  | ended outcome => exact .ended t outcome

/-! ## Left alone -/

/-- The directories are made, and the draft has a content. -/
structure Drafted (path : String) (t u : FileTree) (draft : Place) (content : ByteArray) :
    Prop where
  exists_tree : ∃ v, ensureDirectories (folder path) t = .ok () v
    ∧ v.resolve (draftPath path) = .ok (.named draft false) ∧ v.at? draft ≠ some .directory
    ∧ u = v.put draft (.file content)

/-- What has come of the files that a saver found, if only it has changed them. -/
def Alone (path : String) (content : ByteArray) (t u : FileTree) : Stage → Prop
  | .begun => u = t
  | .prepared => ensureDirectories (folder path) t = .ok () u
  | .writing file written => written ≤ content.size ∧ ∃ draft, file = some draft
      ∧ Drafted path t u draft (content.extract 0 written)
  | .unplaced fault => u.moveFile (draftPath path) path = .error fault
      ∧ ∃ draft, Drafted path t u draft content
  | .ended (.ok ()) => saveText path content t = .ok () u
  | .ended (.error fault) => saveText path content t = .error fault u

namespace Drafted

variable {content : ByteArray}

theorem draft_ne_nil (h : Drafted path t u draft content) : draft ≠ [] := by
  obtain ⟨v, -, hdraft, -⟩ := h.exists_tree
  exact ne_nil_of_resolve hdraft

theorem fill (h : Drafted path t u draft content) (offset : Nat) (bytes : ByteArray) :
    Drafted path t (fill u (some draft) offset bytes) draft (overwrite content offset bytes) := by
  obtain ⟨v, hensure, hdraft, hfree, rfl⟩ := h.exists_tree
  exact ⟨v, hensure, hdraft, hfree, fill_put (ne_nil_of_resolve hdraft) offset bytes⟩

/-- Once the draft has the whole text, saving goes on with putting it in its place. -/
theorem saveText_eq (h : Drafted path t u draft content) :
    saveText path content t = publish path u := by
  obtain ⟨v, hensure, hdraft, hfree, rfl⟩ := h.exists_tree
  have hwrite : v.write (draftPath path) content = .ok (v.put draft (.file content)) :=
    write_eq_ok.mpr ⟨draft, hdraft, hfree, rfl⟩
  simp only [saveText, bind, EStateM.bind, hensure, change, hwrite]

theorem removeFile_eq (h : Drafted path t u draft content) :
    u.removeFile (draftPath path) = .ok (u.drop draft) := by
  obtain ⟨v, -, hdraft, hfree, rfl⟩ := h.exists_tree
  have hne := ne_nil_of_resolve hdraft
  have hdraft' := resolve_mono (keepsDirectories_put (.file content) hne hfree) rfl hdraft
  refine removeFile_eq_ok.mpr ⟨draft, content, hdraft', ?_, rfl⟩
  rw [at?_put _ _ _ hne, if_pos rfl]

end Drafted

namespace Alone

variable {content : ByteArray} {stage : Stage} {file : Option Place} {written n : Nat}

theorem advance_prepared (hensure : ensureDirectories (folder path) t = .ok () u) :
    Alone path content t (advance path content n u .prepared).files
      (advance path content n u .prepared).stage := by
  cases hopen : u.write (draftPath path) .empty with
  | ok w =>
    obtain ⟨draft, hdraft, hfree, rfl⟩ := write_eq_ok.mp hopen
    have hend : u.endOf (draftPath path) = draft := (place_of_resolve hdraft).symm
    simp only [Cache.advance, hopen, hend]
    refine ⟨Nat.zero_le _, draft, rfl, u, hensure, hdraft, hfree, ?_⟩
    rw [ByteArray.extract_same]
  | error fault =>
    have hwrite : u.write (draftPath path) content = .error fault := write_eq_error hopen
    simp only [Cache.advance, hopen, Alone, saveText, bind, EStateM.bind, hensure, change, hwrite]

theorem advance_writing (h : Alone path content t u (.writing file written)) :
    Alone path content t (advance path content n u (.writing file written)).files
      (advance path content n u (.writing file written)).stage := by
  obtain ⟨hle, draft, rfl, hdrafted⟩ := h
  by_cases hlt : written < content.size
  · simp only [Cache.advance, hlt, if_true]
    refine ⟨Nat.min_le_right _ _, draft, rfl, ?_⟩
    have hfill := hdrafted.fill written (content.extract written (written + n))
    rwa [overwrite_extract hle, ← extract_min] at hfill
  · obtain rfl : written = content.size := Nat.le_antisymm hle (Nat.not_lt.mp hlt)
    rw [ByteArray.extract_zero_size] at hdrafted
    cases hmove : u.moveFile (draftPath path) path with
    | ok w =>
      simp only [Cache.advance, Nat.lt_irrefl, if_false, hmove, Alone, hdrafted.saveText_eq,
        publish]
    | error fault =>
      simp only [Cache.advance, Nat.lt_irrefl, if_false, hmove]
      exact ⟨hmove, draft, hdrafted⟩

/-- Each step of a saver that is alone brings it further. -/
theorem advance (h : Alone path content t u stage) (n : Nat) :
    Alone path content t (advance path content n u stage).files
      (advance path content n u stage).stage := by
  cases stage with
  | begun =>
    obtain rfl : u = t := h
    cases hensure : ensureDirectories (folder path) u with
    | ok done v => simp only [Cache.advance, hensure, Alone]
    | error fault v => simp only [Cache.advance, hensure, Alone, saveText, bind, EStateM.bind]
  | prepared => exact advance_prepared h
  | writing file written => exact advance_writing h
  | unplaced fault =>
    obtain ⟨hmove, draft, hdrafted⟩ := h
    simp only [Cache.advance, hdrafted.removeFile_eq, Alone, hdrafted.saveText_eq, publish, hmove,
      Except.toOption, Option.getD]
  | ended outcome => exact h

theorem run {a b : FileTree × Stage} (h : Alone path content t a.1 a.2)
    (hrun : Relation.ReflTransGen (Advances path content) a b) :
    Alone path content t b.1 b.2 := by
  induction hrun with
  | refl => exact h
  | tail _ hstep ih =>
    obtain ⟨n, rfl⟩ := hstep
    exact ih.advance n

end Alone

/-- How saving a text ends is how the steps that it takes end. -/
theorem alone_iff_saveText {content : ByteArray} {outcome : Except IoFault Unit} :
    Relation.ReflTransGen (Advances path content) (t, .begun) (u, .ended outcome)
      ↔ Alone path content t u (.ended outcome) := by
  constructor
  · intro hrun
    exact Alone.run (a := (t, .begun)) rfl hrun
  · intro h
    obtain ⟨w, outcome', hrun⟩ := ends path content t .begun
    have h' : Alone path content t w (.ended outcome') := Alone.run (a := (t, .begun)) rfl hrun
    rcases outcome with fault | done <;> rcases outcome' with fault' | done' <;>
      cases h.symm.trans h'
    · exact hrun
    · exact hrun

/-- **A saver that is left alone does what saving in one go does**, whatever the pieces in which it
writes the text. -/
theorem alone_iff_save :
    (Relation.ReflTransGen (Advances path r.print.toUTF8) (t, .begun) (u, .ended (.ok ()))
        ↔ save path r t = .ok () u)
      ∧ ∀ fault, Relation.ReflTransGen (Advances path r.print.toUTF8) (t, .begun)
          (u, .ended (.error fault)) ↔ save path r t = .error (.cacheWrite path fault) u := by
  constructor
  · rw [alone_iff_saveText]
    simp only [Alone, save_eq_saveText, EStateM.adaptExcept]
    cases saveText path r.print.toUTF8 t <;> simp
  · intro fault
    rw [alone_iff_saveText]
    simp only [Alone, save_eq_saveText, EStateM.adaptExcept]
    cases saveText path r.print.toUTF8 t <;> simp

end RepoSelect.Cache
