import Mathlib.Logic.Function.Basic
import RepoSelect.Proofs.Cache.Savers
import RepoSelect.Proofs.Service.Filling

/-!
# Calls that take turns

Any number of calls are made to one service at the same time, and take their steps in any order
(`Turn`). A call that fills the service holds the lock from its first step to its last. The others
need it for one step only. A flush removes the file before that step, whoever has the lock.

> Calls that do not both flush and fill the service leave each other alone (`exclusive_of_turns`).
> A call that fills the service and is left alone is answered as when it is served in one go, and
> leaves the same (`turns_of_populate`).
-/

namespace RepoSelect.Service

open FileTree

variable {ι : Type} {calls : ι → Call} {start p : Shared} {i j : ι}

/-! ## Worlds -/

/-- How far a call has come. -/
inductive Stage where
  /-- There is no answer yet; the call may hold the lock. -/
  | unanswered
  /-- The call is a flush and about to remove the file. -/
  | removing
  /-- The call is a flush; it has removed the file, if there was one, and needs the lock. -/
  | removed (found : Bool)
  | answered

/-- The flush has begun, and has no answer yet. -/
def Stage.Flushing : Stage → Prop
  | .removing | .removed _ => True
  | .unanswered | .answered => False

/-- A service and its files, and what has come of the calls. -/
structure World (ι : Type) extends Shared where
  /-- The call that holds the lock, and how far it has come. -/
  lock : Option (ι × Filling) := none
  stage : ι → Stage := fun _ => .unanswered
  /-- The calls that have been answered, the first one first. -/
  answers : List (ι × Answer) := []

namespace World

/-- Nobody has done anything yet. -/
def begin (p : Shared) : World ι := { toShared := p }

/-- No flush is under way while a call fills the service. -/
def Exclusive (w : World ι) : Prop :=
  ∀ i, (w.stage i).Flushing → w.lock = none

/-- No call is under way. -/
def Quiet (w : World ι) : Prop :=
  w.lock = none ∧ ∀ i, ¬(w.stage i).Flushing

end World

/-! ## Steps -/

/-- A saver whose file is removed has it open nevertheless. -/
def Filling.follow (moved : Place → Option Place) : Filling → Filling
  | .saving catalog asked stage => .saving catalog asked (stage.follow moved)
  | f => f

variable [DecidableEq ι]

namespace World

/-- A call has come to another stage. -/
def set (w : World ι) (i : ι) (stage : Stage) : World ι :=
  { w with stage := Function.update w.stage i stage }

/-- A call is answered. -/
def answer (w : World ι) (i : ι) (a : Answer) (p : Shared) : World ι where
  toShared := p
  lock := w.lock
  stage := Function.update w.stage i .answered
  answers := w.answers ++ [(i, a)]

/-- The file at the cache path has been removed. -/
def remove (w : World ι) (i : ι) (found : Bool) (t : FileTree) : World ι where
  toShared := ⟨w.service, t⟩
  lock := w.lock.map fun (j, f) =>
    (j, f.follow fun place =>
      if place = w.files.endOf w.service.cachePath then none else some place)
  stage := Function.update w.stage i (.removed found)
  answers := w.answers

end World

/-- Some call takes a step. -/
inductive Turn (calls : ι → Call) : World ι → World ι → Prop
  | flush {w : World ι} {i : ι} (hcall : calls i = .flush) (hstage : w.stage i = .unanswered) :
      Turn calls w (w.set i .removing)
  | remove {w : World ι} {i : ι} {found : Bool} {t : FileTree} (hcall : calls i = .flush)
      (hstage : w.stage i = .removing)
      (hremove : Cache.flush w.service.cachePath w.files = .ok found t) :
      Turn calls w (w.remove i found t)
  | keep {w : World ι} {i : ι} {failure : Failure} {t : FileTree} (hcall : calls i = .flush)
      (hstage : w.stage i = .removing)
      (hremove : Cache.flush w.service.cachePath w.files = .error failure t) :
      Turn calls w (w.answer i { outcome := .error (.failed failure) } ⟨w.service, t⟩)
  | empty {w : World ι} {i : ι} {found : Bool} (hcall : calls i = .flush)
      (hstage : w.stage i = .removed found) (hlock : w.lock = none) :
      Turn calls w (w.answer i (flushAnswer w.service found) ⟨w.service.emptied, w.files⟩)
  | brief {w : World ι} {i : ι} (hbrief : (calls i).Brief w.service)
      (hstage : w.stage i = .unanswered) (hlock : w.lock = none) :
      Turn calls w (w.answer i ((calls i).serve w.toShared).1 ((calls i).serve w.toShared).2)
  | lock {w : World ι} {i : ι} {refresh : Bool} {g : ProviderRegistry} {clock : Clock}
      (hcall : calls i = .populate refresh g clock) (hstage : w.stage i = .unanswered)
      (hlock : w.lock = none) (hclean : w.service.isPoisoned = false) :
      Turn calls w { w with lock := some (i, .begun) }
  | fill {w : World ι} {i : ι} {refresh : Bool} {g : ProviderRegistry} {clock : Clock} {n : Nat}
      {f f' : Filling} {p : Shared} (hcall : calls i = .populate refresh g clock)
      (hlock : w.lock = some (i, f))
      (hadvance : advance refresh g clock n w.toShared f = .goesOn p f') :
      Turn calls w { w with toShared := p, lock := some (i, f') }
  | filled {w : World ι} {i : ι} {refresh : Bool} {g : ProviderRegistry} {clock : Clock} {n : Nat}
      {f : Filling} {p : Shared} {a : Answer} (hcall : calls i = .populate refresh g clock)
      (hlock : w.lock = some (i, f))
      (hadvance : advance refresh g clock n w.toShared f = .ends p a) :
      Turn calls w { w.answer i a p with lock := none }

abbrev Turns (calls : ι → Call) : World ι → World ι → Prop :=
  Relation.ReflTransGen (Turn calls)

/-- Calls take turns, and none flushes while another one fills the service. -/
abbrev ExclusiveTurns (calls : ι → Call) : World ι → World ι → Prop :=
  Relation.ReflTransGen fun w w' => Turn calls w w' ∧ w'.Exclusive

namespace World

variable {w : World ι} {stage : Stage} {found : Bool}

/-- The same flushes wait for the lock if the one call that has come to another stage did not and
does not. -/
theorem update_eq_removed (hold : ∀ found, w.stage i ≠ .removed found)
    (hnew : ∀ found, stage ≠ .removed found) :
    Function.update w.stage i stage j = .removed found ↔ w.stage j = .removed found := by
  rw [Function.update_apply]
  split
  · next hji =>
    rw [hji]
    exact ⟨fun h => absurd h (hnew _), fun h => absurd h (hold _)⟩
  · rfl

theorem stage_answer (hold : ∀ found, w.stage i ≠ .removed found) (a : Answer)
    (p : Shared) : (w.answer i a p).stage j = .removed found ↔ w.stage j = .removed found :=
  update_eq_removed hold nofun

/-- Which flushes wait when one more has removed the file. -/
theorem update_removed {found' : Bool} (hstage : w.stage i = .removing) :
    Function.update w.stage i (.removed found) j = .removed found'
      ↔ w.stage j = .removed found' ∨ (j, found') = (i, found) := by
  rw [Function.update_apply]
  split
  · next hji => simp [hji, hstage, eq_comm]
  · next hji => simp [hji]

/-- When a call is answered, and no other one is a flush that is under way, none is. -/
theorem still_answer (hothers : ∀ j, j ≠ i → ¬(w.stage j).Flushing) (a : Answer) (p : Shared) :
    ∀ j, ¬((w.answer i a p).stage j).Flushing :=
  (Function.forall_update_iff w.stage fun _ stage => ¬stage.Flushing).mpr ⟨id, hothers⟩

omit [DecidableEq ι] in
theorem Exclusive.free (h : w.Exclusive) (hstage : w.stage i = .removing) : w.lock = none := by
  have hflushing : (w.stage i).Flushing := by
    rw [hstage]
    trivial
  exact h i hflushing

omit [DecidableEq ι] in
theorem Exclusive.not_removed (h : w.Exclusive) {holder : ι × Filling}
    (hlock : w.lock = some holder) (i : ι) (found : Bool) : w.stage i ≠ .removed found := by
  intro hstage
  have hfree : w.lock = none := h i (by rw [hstage]; trivial)
  rw [hlock] at hfree
  cases hfree

end World

/-! ## Calls that leave each other alone -/

variable {w w' : World ι} {refresh : Bool} {g : ProviderRegistry} {clock : Clock} {f : Filling}
  {a : Answer} {q : Shared}

/-- A turn of a call that is no flush begins none. -/
theorem Turn.still (hturn : Turn calls w w') (hcalls : ∀ i, calls i ≠ .flush)
    (hstill : ∀ i, ¬(w.stage i).Flushing) : ∀ i, ¬(w'.stage i).Flushing := by
  cases hturn with
  | flush hcall | remove hcall | keep hcall | empty hcall => exact absurd hcall (hcalls _)
  | brief => exact World.still_answer (fun j _ => hstill j) _ _
  | lock => exact hstill
  | fill => exact hstill
  | @filled _ _ _ _ _ _ p a => exact World.still_answer (fun j _ => hstill j) a p

/-- Without a call that fills the service nobody has the lock for long. -/
theorem Turn.free (hturn : Turn calls w w')
    (hcalls : ∀ i refresh g clock, calls i ≠ .populate refresh g clock) (hlock : w.lock = none) :
    w'.lock = none := by
  cases hturn with
  | lock hcall | fill hcall | filled hcall => exact absurd hcall (hcalls _ _ _ _)
  | remove => rw [World.remove, hlock]; rfl
  | _ => exact hlock

theorem still_of_turns (hcalls : ∀ i, calls i ≠ .flush) (hrun : Turns calls (.begin start) w) :
    ∀ i, ¬(w.stage i).Flushing := by
  induction hrun with
  | refl => exact fun _ => id
  | tail _ hturn ih => exact hturn.still hcalls ih

theorem free_of_turns (hcalls : ∀ i refresh g clock, calls i ≠ .populate refresh g clock)
    (hrun : Turns calls (.begin start) w) : w.lock = none := by
  induction hrun with
  | refl => rfl
  | tail _ hturn ih => exact hturn.free hcalls ih

/-- Calls that do not both flush and fill the service leave each other alone. -/
theorem exclusive_of_turns
    (hcalls : (∀ i, calls i ≠ .flush) ∨ ∀ i refresh g clock, calls i ≠ .populate refresh g clock)
    (hrun : Turns calls (.begin start) w) : ExclusiveTurns calls (.begin start) w := by
  have hexclusive : ∀ {w}, Turns calls (.begin start) w → w.Exclusive := by
    intro w hrun i hi
    rcases hcalls with hflush | hfill
    · exact absurd hi (still_of_turns hflush hrun i)
    · exact free_of_turns hfill hrun
  induction hrun with
  | refl => exact .refl
  | tail hrun hturn ih => exact ih.tail ⟨hturn, hexclusive (hrun.tail hturn)⟩

/-! ## One call after the other -/

/-- The call that has the lock comes to its end before anybody else does anything. -/
theorem turns_of_completes (hcall : calls i = .populate refresh g clock)
    (h : Completes refresh g clock p f a q) :
    ∀ w : World ι, w.toShared = p → w.lock = some (i, f) →
      Turns calls w { w.answer i a q with lock := none } := by
  induction h with
  | last h =>
    rintro w rfl hlock
    exact .single (.filled hcall hlock h)
  | next h _ ih =>
    rintro w rfl hlock
    exact .head (.fill hcall hlock h) (ih { w with toShared := _, lock := _ } rfl rfl)

/-- A call fills the service as it does when it is served. -/
theorem turns_of_populate (hcall : calls i = .populate refresh g clock)
    (hserve : (calls i).serve w.toShared = (a, q)) (hstage : w.stage i = .unanswered)
    (hlock : w.lock = none) (hclean : w.service.isPoisoned = false) :
    Turns calls w (w.answer i a q) := by
  have hcompletes : Completes refresh g clock w.toShared .begun a q := by
    have hserves : Completes refresh g clock w.toShared .begun _ _ := .serve hclean
    rwa [← hcall, hserve] at hserves
  have hfilled := turns_of_completes hcall hcompletes { w with lock := some (i, .begun) } rfl rfl
  have hend := Relation.ReflTransGen.head (Turn.lock hcall hstage hlock hclean) hfilled
  rw [World.answer, hlock]
  exact hend

end RepoSelect.Service
