import Mathlib.Logic.Function.Basic
import RepoSelect.Proofs.Cache.Saver

/-!
# Savers in turn

Any number of savers save to one path and take their steps in any order. They all use the same
draft, so what one of them does depends on where the others are.

> Savers that leave the draft to each other come to their ends one after the other, as if each of
> them had saved in one go (`settled_of_turns`).

The invariant (`Settled`) speaks of the tree that those who have ended have left; the one saver
that may be at the draft has changed nothing in it but the draft.
-/

namespace RepoSelect.Cache

open FileTree

variable {ι : Type} {path : String} {content : ι → ByteArray} {t u v : FileTree}
  {draft place : Place} {i j : ι}

/-! ## Single steps -/

/-- The files, and how far each saver has come. -/
structure World (ι : Type) where
  files : FileTree
  stage : ι → Stage

/-- The saver has opened the draft, and neither placed nor removed it yet. -/
def Stage.AtDraft : Stage → Prop
  | .writing _ _ | .unplaced _ => True
  | .begun | .prepared | .ended _ => False

namespace Ready

variable {bytes : ByteArray} {n written : Nat} {file : Option Place}

theorem advance_begun (h : Ready t path draft place) (bytes : ByteArray) (n : Nat) :
    advance path bytes n t .begun = { files := t, stage := .prepared } := by
  simp only [advance, h.ensure_eq]

theorem advance_prepared (h : Ready t path draft place) (bytes : ByteArray) (n : Nat) :
    advance path bytes n t .prepared
      = { files := t.put draft (.file .empty), stage := .writing (some draft) 0 } := by
  have hend : t.endOf (draftPath path) = draft := (place_of_resolve h.resolve_draft).symm
  simp only [advance, h.write_eq, hend]

/-- Whatever is in the draft is placed. -/
theorem advance_place (h : Ready t path draft place) {found : ByteArray}
    (hfile : t.at? draft = some (.file found)) (hle : bytes.size ≤ written) :
    advance path bytes n t (.writing file written)
      = { files := (t.drop draft).put place (.file found)
          stage := .ended (.ok ())
          moved := fun other =>
            if other = draft then some place else if other = place then none else some other } := by
  have hdraft : t.endOf (draftPath path) = draft := (place_of_resolve h.resolve_draft).symm
  have hplace : t.endOf path = place := (place_of_resolve h.resolve_place).symm
  simp only [advance, Nat.not_lt.mpr hle, if_false, h.move_eq hfile, hdraft, hplace]

theorem advance_missing (h : Ready t path draft place) (hnone : t.at? draft = none)
    (hle : bytes.size ≤ written) : advance path bytes n t (.writing file written)
      = { files := t, stage := .unplaced .notFound } := by
  simp only [advance, Nat.not_lt.mpr hle, if_false, h.move_missing hnone]

theorem advance_unplaced (h : Ready t path draft place) (hnone : t.at? draft = none)
    (fault : IoFault) : advance path bytes n t (.unplaced fault)
      = { files := t, stage := .ended (.error fault) } := by
  simp only [advance, h.removeFile_missing hnone]

end Ready

theorem advance_fill {bytes : ByteArray} {written : Nat} (hlt : written < bytes.size)
    (file : Option Place) (n : Nat) : advance path bytes n t (.writing file written)
      = { files := fill t file written (bytes.extract written (written + n))
          stage := .writing file (min (written + n) bytes.size) } := by
  simp only [advance, hlt, if_true]

/-- A text can be written in one piece. -/
theorem advance_whole {bytes : ByteArray} (hne : place ≠ []) (hpos : 0 < bytes.size) :
    advance path bytes bytes.size (t.put place (.file .empty)) (.writing (some place) 0)
      = { files := t.put place (.file bytes), stage := .writing (some place) bytes.size } := by
  have hover := overwrite_extract (Nat.zero_le bytes.size) bytes.size
  rw [ByteArray.extract_same] at hover
  rw [advance_fill hpos, fill_put hne, hover, Nat.zero_add, ByteArray.extract_zero_size,
    Nat.min_self]

/-- A saver leaves the draft by coming to its end. -/
theorem advance_of_atDraft {stage : Stage} (h : stage.AtDraft) (bytes : ByteArray) (n : Nat)
    (t : FileTree) : (advance path bytes n t stage).stage.AtDraft
      ∨ ∃ outcome, (advance path bytes n t stage).stage = .ended outcome := by
  cases stage with
  | begun => cases h
  | prepared => cases h
  | writing file written =>
    by_cases hlt : written < bytes.size
    · rw [advance_fill hlt]
      exact .inl trivial
    · simp only [advance, hlt, if_false]
      cases t.moveFile (draftPath path) path with
      | ok u => exact .inr ⟨_, rfl⟩
      | error fault => exact .inl trivial
  | unplaced fault =>
    unfold advance
    cases t.removeFile (draftPath path) with
    | ok u => exact .inr ⟨_, rfl⟩
    | error _ => exact .inr ⟨_, rfl⟩
  | ended outcome => cases h

/-! ## One at a time -/

theorem Drafted.eq_put {d : Place} {bytes : ByteArray} (hready : Ready v path draft place)
    (h : Drafted path v u d bytes) : u = v.put draft (.file bytes) := by
  obtain ⟨w, hensure, hdraft, -, rfl⟩ := h.exists_tree
  cases hready.ensure_eq.symm.trans hensure
  cases hready.resolve_draft.symm.trans hdraft
  rfl

theorem Alone.exists_drafted {bytes : ByteArray} {stage : Stage} (h : Alone path bytes v u stage)
    (hat : stage.AtDraft) : ∃ d found, Drafted path v u d found := by
  cases stage with
  | begun => cases hat
  | prepared => cases hat
  | writing file written =>
    obtain ⟨-, d, -, hdrafted⟩ := h
    exact ⟨d, _, hdrafted⟩
  | unplaced fault =>
    obtain ⟨-, d, hdrafted⟩ := h
    exact ⟨d, _, hdrafted⟩
  | ended outcome => cases hat

/-- The savers that have ended have left the tree `v`, and at most one more is at work on it. -/
structure Settled (path : String) (content : ι → ByteArray) (draft place : Place)
    (before : Option Entry) (w : World ι) (v : FileTree) : Prop where
  ready : Ready v path draft place
  ended_ok {i : ι} {outcome : Except IoFault Unit} (h : w.stage i = .ended outcome) :
    outcome = .ok ()
  found : (v.at? place = before ∧ ∀ i outcome, w.stage i ≠ .ended outcome)
    ∨ ∃ i, v.at? place = some (.file (content i))
  working : (w.files = v ∧ ∀ i, ¬(w.stage i).AtDraft)
    ∨ ∃ i, (w.stage i).AtDraft ∧ Alone path (content i) v w.files (w.stage i)

namespace Settled

variable {before : Option Entry} {w : World ι}

/-- Whoever is at work changes nothing but the draft. -/
theorem ready_files (h : Settled path content draft place before w v) :
    Ready w.files path draft place ∧ w.files.at? place = v.at? place := by
  rcases h.working with ⟨hfiles, -⟩ | ⟨i, hat, halone⟩
  · rw [hfiles]
    exact ⟨h.ready, rfl⟩
  · obtain ⟨d, found, hdrafted⟩ := halone.exists_drafted hat
    rw [hdrafted.eq_put h.ready]
    refine ⟨h.ready.put h.ready.draft_ne_nil h.ready.draft_free found, ?_⟩
    rw [at?_put _ _ _ h.ready.draft_ne_nil, if_neg h.ready.draft_ne_place]

theorem files_eq (h : Settled path content draft place before w v)
    (hfree : ∀ i, ¬(w.stage i).AtDraft) : w.files = v := by
  rcases h.working with ⟨hfiles, -⟩ | ⟨i, hat, -⟩
  · exact hfiles
  · exact absurd hat (hfree i)

/-- If nobody comes to an end, what is found stays what it is. -/
theorem found_of_ended {w' : World ι} (h : Settled path content draft place before w v)
    (hends : ∀ i outcome, w'.stage i = .ended outcome → w.stage i = .ended outcome) :
    (v.at? place = before ∧ ∀ i outcome, w'.stage i ≠ .ended outcome)
      ∨ ∃ i, v.at? place = some (.file (content i)) := by
  rcases h.found with ⟨hat, hgoing⟩ | hfound
  · exact .inl ⟨hat, fun i outcome hi => hgoing i outcome (hends i outcome hi)⟩
  · exact .inr hfound

end Settled

/-! ## Taking turns -/

/-- A saver goes on with the file that it has open, wherever that is now. -/
def Stage.follow (moved : Place → Option Place) : Stage → Stage
  | .writing file written => .writing (file.bind moved) written
  | stage => stage

theorem Stage.follow_some (stage : Stage) : stage.follow some = stage := by
  cases stage with
  | writing file written => cases file <;> rfl
  | _ => rfl

theorem Stage.follow_of_not_atDraft {stage : Stage} (h : ¬stage.AtDraft)
    (moved : Place → Option Place) : stage.follow moved = stage := by
  cases stage with
  | writing file written => exact absurd trivial h
  | _ => rfl

variable [DecidableEq ι]

namespace World

/-- All savers have yet to begin. -/
def start (t : FileTree) : World ι := ⟨t, fun _ => .begun⟩

/-- One saver takes its next step. -/
def step (path : String) (content : ι → ByteArray) (w : World ι) (i : ι) (n : Nat) : World ι where
  files := (advance path (content i) n w.files (w.stage i)).files
  stage := Function.update
    (fun j => (w.stage j).follow (advance path (content i) n w.files (w.stage i)).moved) i
    (advance path (content i) n w.files (w.stage i)).stage

/-- What a step leads to, once it is known what the saver does. -/
theorem step_spec (w : World ι) (i : ι) (n : Nat) {a : Advance}
    (h : advance path (content i) n w.files (w.stage i) = a) :
    (w.step path content i n).files = a.files ∧ (w.step path content i n).stage i = a.stage
      ∧ ∀ j ≠ i, (w.step path content i n).stage j = (w.stage j).follow a.moved := by
  subst h
  refine ⟨rfl, ?_, fun j hne => ?_⟩
  · simp only [step, Function.update_self]
  · simp only [step, Function.update_of_ne hne]

/-- No two savers are at the draft. -/
def Exclusive (w : World ι) : Prop :=
  ∀ i j, (w.stage i).AtDraft → (w.stage j).AtDraft → i = j

/-- The files have changed, and one saver has come to another stage. -/
def set (w : World ι) (files : FileTree) (i : ι) (stage : Stage) : World ι :=
  ⟨files, Function.update w.stage i stage⟩

theorem stage_set_self (w : World ι) (files : FileTree) (i : ι) (stage : Stage) :
    (w.set files i stage).stage i = stage := by
  simp only [set, Function.update_self]

theorem stage_set_of_ne (w : World ι) (files : FileTree) (stage : Stage) (hne : j ≠ i) :
    (w.set files i stage).stage j = w.stage j := by
  simp only [set, Function.update_of_ne hne]

theorem forall_stage_set {w : World ι} {files : FileTree} {stage : Stage} (P : ι → Stage → Prop)
    (hi : P i stage) (hothers : ∀ j ≠ i, P j (w.stage j)) :
    ∀ j, P j ((w.set files i stage).stage j) :=
  (Function.forall_update_iff w.stage P).mpr ⟨hi, hothers⟩

/-- Who has ended then has ended before. -/
theorem ended_of_set {w : World ι} {files : FileTree} {stage : Stage}
    (hended : ∀ outcome, stage = .ended outcome → w.stage i = .ended outcome) :
    ∀ j outcome, (w.set files i stage).stage j = .ended outcome → w.stage j = .ended outcome :=
  forall_stage_set (fun j s => ∀ outcome, s = .ended outcome → w.stage j = .ended outcome) hended
    fun _ _ _ => id

/-- The others stay where they are if the files that they have open do. -/
theorem step_eq_set (w : World ι) (i : ι) (n : Nat) {a : Advance}
    (h : advance path (content i) n w.files (w.stage i) = a)
    (hothers : ∀ j ≠ i, (w.stage j).follow a.moved = w.stage j) :
    w.step path content i n = w.set a.files i a.stage := by
  subst h
  refine congrArg (World.mk _) (funext fun j => ?_)
  by_cases hji : j = i
  · rw [hji, Function.update_self, Function.update_self]
  · rw [Function.update_of_ne hji, Function.update_of_ne hji, hothers j hji]

end World

/-- Some saver takes a step. -/
def Turn (path : String) (content : ι → ByteArray) (w w' : World ι) : Prop :=
  ∃ i n, w' = w.step path content i n

abbrev Turns (path : String) (content : ι → ByteArray) : World ι → World ι → Prop :=
  Relation.ReflTransGen (Turn path content)

/-- Savers take turns and leave the draft to each other. -/
abbrev ExclusiveTurns (path : String) (content : ι → ByteArray) : World ι → World ι → Prop :=
  Relation.ReflTransGen fun w w' => Turn path content w w' ∧ w'.Exclusive

/-! ## Steps of savers that leave the draft to each other -/

namespace Settled

variable {before : Option Entry} {w : World ι} {stage : Stage} {n : Nat}

/-- A step away from the draft that ends nothing. -/
theorem set_quiet (h : Settled path content draft place before w v)
    (hi : ¬(w.stage i).AtDraft) (hstage : ¬stage.AtDraft)
    (hended : ∀ outcome, stage = .ended outcome → w.stage i = .ended outcome) :
    Settled path content draft place before (w.set w.files i stage) v := by
  have hends : ∀ j outcome, (w.set w.files i stage).stage j = .ended outcome →
      w.stage j = .ended outcome := World.ended_of_set hended
  refine ⟨h.ready, fun hj => h.ended_ok (hends _ _ hj), h.found_of_ended hends, ?_⟩
  rcases h.working with ⟨hfiles, hfree⟩ | ⟨j, hat, halone⟩
  · exact .inl ⟨hfiles, World.forall_stage_set (fun _ s => ¬s.AtDraft) hstage fun k _ => hfree k⟩
  · have hji : j ≠ i := by
      rintro rfl
      exact hi hat
    refine .inr ⟨j, ?_⟩
    rw [World.stage_set_of_ne _ _ _ hji]
    exact ⟨hat, halone⟩

/-- The only saver at the draft goes on there. -/
theorem set_atDraft (h : Settled path content draft place before w v)
    (halone : Alone path (content i) v u stage) (hstage : stage.AtDraft) :
    Settled path content draft place before (w.set u i stage) v := by
  have hends : ∀ j outcome, (w.set u i stage).stage j = .ended outcome →
      w.stage j = .ended outcome := by
    refine World.ended_of_set ?_
    rintro outcome rfl
    cases hstage
  refine ⟨h.ready, fun hj => h.ended_ok (hends _ _ hj), h.found_of_ended hends, .inr ⟨i, ?_⟩⟩
  rw [World.stage_set_self]
  exact ⟨hstage, halone⟩

/-- The only saver at the draft comes to its end, and leaves what saving in one go leaves. -/
theorem set_ended (h : Settled path content draft place before w v)
    {outcome : Except IoFault Unit} (halone : Alone path (content i) v u (.ended outcome))
    (hfree : ∀ j ≠ i, ¬(w.stage j).AtDraft) :
    Settled path content draft place before (w.set u i (.ended outcome)) u := by
  have hsave := h.ready.saveText_eq (content i)
  obtain ⟨rfl, hu⟩ : outcome = .ok ()
      ∧ u = ((v.put draft (.file (content i))).drop draft).put place (.file (content i)) := by
    cases outcome with
    | error fault => cases halone.symm.trans hsave
    | ok done => exact ⟨rfl, (EStateM.Result.ok.inj (halone.symm.trans hsave)).2⟩
  have hready := h.ready.saved (content i)
  rw [← hu] at hready
  have hends : ∀ j outcome, (w.set u i (.ended (.ok ()))).stage j = .ended outcome →
      outcome = .ok () :=
    World.forall_stage_set (fun _ s => ∀ outcome, s = .ended outcome → outcome = .ok ())
      (fun _ hdone => (Stage.ended.inj hdone).symm) fun _ _ _ hj => h.ended_ok hj
  refine ⟨hready, fun hj => hends _ _ hj, .inr ⟨i, ?_⟩,
    .inl ⟨rfl, World.forall_stage_set (fun _ s => ¬s.AtDraft) id hfree⟩⟩
  rw [hu, at?_put _ _ _ h.ready.place_ne_nil, if_pos rfl]

/-- The only saver at the draft takes its next step. -/
theorem step_alone (h : Settled path content draft place before w v)
    (halone : Alone path (content i) v w.files (w.stage i))
    (hstage : (advance path (content i) n w.files (w.stage i)).stage.AtDraft
      ∨ ∃ outcome, (advance path (content i) n w.files (w.stage i)).stage = .ended outcome)
    (hfree : ∀ j ≠ i, ¬(w.stage j).AtDraft) :
    ∃ v', Settled path content draft place before (w.step path content i n) v' := by
  have hnext := halone.advance n
  rw [w.step_eq_set i n rfl fun j hne => Stage.follow_of_not_atDraft (hfree j hne) _]
  rcases hstage with hat | ⟨outcome, hend⟩
  · exact ⟨v, h.set_atDraft hnext hat⟩
  · rw [hend] at hnext ⊢
    exact ⟨_, h.set_ended hnext hfree⟩

/-- A saver opens the draft, if nobody else has it open then. -/
theorem step_prepared (h : Settled path content draft place before w v)
    (hstage : w.stage i = .prepared) (hexclusive : (w.step path content i n).Exclusive) :
    ∃ v', Settled path content draft place before (w.step path content i n) v' := by
  have hopen := h.ready_files.1.advance_prepared (content i) n
  rw [← hstage] at hopen
  have hstep := w.step_eq_set i n hopen fun j _ => Stage.follow_some _
  have hfree : ∀ j, ¬(w.stage j).AtDraft := by
    intro j hj
    by_cases hji : j = i
    · rw [hji, hstage] at hj
      exact hj
    · refine hji (hexclusive j i ?_ ?_)
      · rw [hstep, World.stage_set_of_ne _ _ _ hji]
        exact hj
      · rw [hstep, World.stage_set_self]
        trivial
  have halone : Alone path (content i) v w.files (w.stage i) := by
    rw [hstage, h.files_eq hfree]
    exact h.ready.ensure_eq
  refine h.step_alone halone (.inl ?_) fun j _ => hfree j
  rw [hopen]
  trivial

/-- Savers that leave the draft to each other come to their ends one after the other. -/
theorem step (h : Settled path content draft place before w v) (hexclusive : w.Exclusive) (i : ι)
    (n : Nat) (hexclusive' : (w.step path content i n).Exclusive) :
    ∃ v', Settled path content draft place before (w.step path content i n) v' := by
  by_cases hat : (w.stage i).AtDraft
  · have hfree : ∀ j ≠ i, ¬(w.stage j).AtDraft := fun j hne hj => hne (hexclusive j i hj hat)
    obtain ⟨j, hj, halone⟩ := h.working.resolve_left fun ⟨_, hnone⟩ => hnone i hat
    obtain rfl : j = i := hexclusive j i hj hat
    exact h.step_alone halone (advance_of_atDraft hat (content j) n w.files) hfree
  · cases hstage : w.stage i with
    | begun =>
      have hmade := h.ready_files.1.advance_begun (content i) n
      rw [← hstage] at hmade
      rw [w.step_eq_set i n hmade fun j _ => Stage.follow_some _]
      exact ⟨v, h.set_quiet hat id nofun⟩
    | prepared => exact h.step_prepared hstage hexclusive'
    | writing file written => exact absurd (hstage ▸ trivial) hat
    | unplaced fault => exact absurd (hstage ▸ trivial) hat
    | ended outcome =>
      have hdone : advance path (content i) n w.files (w.stage i)
          = { files := w.files, stage := w.stage i } := by
        rw [hstage]
        rfl
      rw [w.step_eq_set i n hdone fun j _ => Stage.follow_some _]
      exact ⟨v, h.set_quiet hat hat fun _ => id⟩

end Settled

/-- The first step makes the directories. -/
theorem settled_step_start (hensure : ensureDirectories (folder path) t = .ok () v)
    (hready : Ready v path draft place) (i : ι) (n : Nat) :
    Settled path content draft place (v.at? place) ((World.start t).step path content i n) v := by
  have hadvance : advance path (content i) n t .begun = { files := v, stage := .prepared } := by
    simp only [advance, hensure]
  rw [(World.start t).step_eq_set i n hadvance fun j _ => Stage.follow_some _]
  have hgoing : ∀ j outcome, ((World.start t).set v i .prepared).stage j ≠ .ended outcome :=
    World.forall_stage_set (fun _ s => ∀ outcome, s ≠ .ended outcome)
      (fun _ => Stage.noConfusion) fun _ _ _ => Stage.noConfusion
  exact ⟨hready, fun hj => absurd hj (hgoing _ _), .inl ⟨rfl, hgoing⟩,
    .inl ⟨rfl, World.forall_stage_set (fun _ s => ¬s.AtDraft) id fun _ _ => id⟩⟩

/-- However savers that leave the draft to each other take turns, none has begun yet, or they have
come so far one after the other. -/
theorem settled_of_turns (hensure : ensureDirectories (folder path) t = .ok () v)
    (hready : Ready v path draft place) {w : World ι}
    (hrun : ExclusiveTurns path content (.start t) w) :
    w = .start t ∨ ∃ v', Settled path content draft place (v.at? place) w v' := by
  have hboth : w.Exclusive
      ∧ (w = .start t ∨ ∃ v', Settled path content draft place (v.at? place) w v') := by
    induction hrun with
    | refl => exact ⟨nofun, .inl rfl⟩
    | tail _ hturn ih =>
      obtain ⟨⟨i, n, rfl⟩, hexclusive'⟩ := hturn
      obtain ⟨hexclusive, rfl | ⟨v', hsettled⟩⟩ := ih
      · exact ⟨hexclusive', .inr ⟨v, settled_step_start hensure hready i n⟩⟩
      · exact ⟨hexclusive', .inr (hsettled.step hexclusive i n hexclusive')⟩
  exact hboth.2

end RepoSelect.Cache
