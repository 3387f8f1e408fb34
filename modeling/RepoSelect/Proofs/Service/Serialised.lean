import Mathlib.Data.List.Nodup
import RepoSelect.Proofs.Service.Turns

/-!
# Histories of calls that take turns

> Calls none of which flushes while another one fills the service answer what they answer when they
> are served one after the other, and leave the same (`serialised_of_turns`).

The order may be another one than that of the answers. A flush that has removed the file and waits
for the lock goes into the history at once, with the answer that it is going to have, and what is
served before it has the lock goes in front of it (`Flushes`).
-/

namespace RepoSelect.Service

variable {ι : Type} {calls : ι → Call} {start p : Shared} {i j : ι}

/-! ## Histories -/

/-- The answers in an order that is that of time if nobody flushes. -/
def Ordered (calls : ι → Call) (h answers : List (ι × Answer)) : Prop :=
  h.Perm answers ∧ ((∀ i, calls i ≠ .flush) → h = answers)

namespace Ordered

variable {h answers : List (ι × Answer)}

theorem concat (hordered : Ordered calls h answers) (e : ι × Answer) :
    Ordered calls (h ++ [e]) (answers ++ [e]) :=
  ⟨hordered.1.append_right [e], fun hcalls => by rw [hordered.2 hcalls]⟩

/-- If there is a flush among the calls, the order may be another one. -/
theorem of_flush (hperm : h.Perm answers) (hflush : ∃ i, calls i = .flush) :
    Ordered calls h answers := by
  obtain ⟨i, hi⟩ := hflush
  exact ⟨hperm, fun hcalls => absurd hi (hcalls i)⟩

end Ordered

/-- The answer that a flush is going to have that has removed the file. -/
def promise (s : Service) (e : ι × Bool) : ι × Answer := (e.1, flushAnswer s e.2)

theorem promise_congr {s s' : Service} (h : s'.emptied = s.emptied) (waiting : List (ι × Bool)) :
    waiting.map (promise s') = waiting.map (promise s) := by
  refine List.map_congr_left fun e _ => ?_
  rw [promise, promise, flushAnswer_congr h]

/-- Since `p` was left, flushes have removed the file, and some of them wait for the lock. The calls
`rest` can be served from there, and what is held before them makes no difference. -/
structure Flushes (calls : ι → Call) (w : World ι) (p : Shared) (rest : List (ι × Answer))
    (waiting : List (ι × Bool)) : Prop where
  exists_flush : ∃ i, calls i = .flush
  lock_eq : w.lock = none
  gone : w.files.lookup w.service.cachePath = .error .notFound
  nodup : waiting.Nodup
  mem_iff (i : ι) (found : Bool) : (i, found) ∈ waiting ↔ w.stage i = .removed found
  emptied_eq : p.service.emptied = w.service.emptied
  serves (s : Service) (h : s.emptied = w.service.emptied) :
    Serves calls ⟨s, p.files⟩ rest ⟨w.service.emptied, w.files⟩

/-- The calls that have been answered make a history, together with the flushes that wait for the
lock. -/
inductive Serialised (calls : ι → Call) (start : Shared) (w : World ι) : Prop
  | free {h : List (ι × Answer)} (hlock : w.lock = none)
      (hnone : ∀ i found, w.stage i ≠ .removed found)
      (hserves : Serves calls start h w.toShared) (hordered : Ordered calls h w.answers)
  | filling {h : List (ι × Answer)} {p : Shared} {i : ι} {f : Filling} {refresh : Bool}
      {g : ProviderRegistry} {clock : Clock} (hlock : w.lock = some (i, f))
      (hcall : calls i = .populate refresh g clock) (hclean : p.service.isPoisoned = false)
      (hreached : Reached refresh g clock p w.toShared f)
      (hserves : Serves calls start h p) (hordered : Ordered calls h w.answers)
  | flushing {h rest : List (ι × Answer)} {p : Shared} {waiting : List (ι × Bool)}
      (hserves : Serves calls start h p) (hflushes : Flushes calls w p rest waiting)
      (hne : waiting ≠ [])
      (hordered : (h ++ rest).Perm (w.answers ++ waiting.map (promise w.service)))

theorem serialised_begin (calls : ι → Call) (p : Shared) : Serialised calls p (.begin p) :=
  .free rfl nofun (.nil p) ⟨.refl _, fun _ => rfl⟩

variable [DecidableEq ι]

/-! ## Steps while flushes wait -/

namespace Flushes

variable {w : World ι} {rest : List (ι × Answer)} {waiting : List (ι × Bool)} {found : Bool}
  {t : FileTree}

/-- The first flush removes the file. -/
theorem first (hlock : w.lock = none) (hnone : ∀ i found, w.stage i ≠ .removed found)
    (hcall : calls i = .flush) (hstage : w.stage i = .removing)
    (hremove : Cache.flush w.service.cachePath w.files = .ok found t) :
    Flushes calls (w.remove i found t) w.toShared [promise w.service (i, found)] [(i, found)] where
  exists_flush := ⟨i, hcall⟩
  lock_eq := by rw [World.remove, hlock]; rfl
  gone := Cache.lookup_of_flush hremove
  nodup := List.nodup_singleton _
  mem_iff j found' := by
    rw [World.remove, World.update_removed hstage, List.mem_singleton]
    exact ⟨.inr, fun h => h.resolve_left (hnone j found')⟩
  emptied_eq := rfl
  serves s hs := (Serves.nil _).concat (by rw [hcall, Call.serve_flush_congr hremove hs]; rfl)

/-- One more flush removes the file. -/
theorem remove (h : Flushes calls w p rest waiting) (hcall : calls i = .flush)
    (hstage : w.stage i = .removing)
    (hremove : Cache.flush w.service.cachePath w.files = .ok found t) :
    Flushes calls (w.remove i found t) p (rest ++ [promise w.service (i, found)])
      (waiting ++ [(i, found)]) where
  exists_flush := h.exists_flush
  lock_eq := by rw [World.remove, h.lock_eq]; rfl
  gone := Cache.lookup_of_flush hremove
  nodup := by
    refine h.nodup.append (List.nodup_singleton _) ?_
    rw [List.disjoint_singleton, h.mem_iff, hstage]
    intro hremoved
    cases hremoved
  mem_iff j found' := by
    rw [World.remove, World.update_removed hstage, List.mem_append, h.mem_iff, List.mem_singleton]
  emptied_eq := h.emptied_eq
  serves s hs := (h.serves s hs).concat
    (by rw [hcall, Call.serve_flush_congr hremove (emptied_emptied _)]; rfl)

/-- A flush has the lock. -/
theorem empty (h : Flushes calls w p rest waiting) (hstage : w.stage i = .removed found) :
    Flushes calls (w.answer i (flushAnswer w.service found) ⟨w.service.emptied, w.files⟩) p rest
      (waiting.erase (i, found)) where
  exists_flush := h.exists_flush
  lock_eq := h.lock_eq
  gone := by
    rw [World.answer, cachePath_emptied]
    exact h.gone
  nodup := h.nodup.erase _
  mem_iff j found' := by
    rw [h.nodup.mem_erase_iff, h.mem_iff]
    show _ ↔ Function.update w.stage i .answered j = .removed found'
    rw [Function.update_apply]
    split
    · next hji =>
      rw [hji, hstage]
      simp [eq_comm]
    · next hji => simp [hji]
  emptied_eq := by
    rw [World.answer, emptied_emptied]
    exact h.emptied_eq
  serves s hs := by
    rw [World.answer, emptied_emptied] at hs ⊢
    exact h.serves s hs

/-- A brief call goes in front of the flushes. -/
theorem brief (h : Flushes calls w p rest waiting) (hbrief : (calls i).Brief w.service)
    (hstage : w.stage i = .unanswered) :
    (calls i).serve p = (((calls i).serve w.toShared).1, ((calls i).serve p).2)
      ∧ Flushes calls
          (w.answer i ((calls i).serve w.toShared).1 ((calls i).serve w.toShared).2)
          ((calls i).serve p).2 rest waiting := by
  obtain ⟨hanswer, hfiles, hemptied⟩ := hbrief.serve (t := p.files) (u := w.files) h.emptied_eq
  obtain ⟨-, hfiles', hemptied'⟩ := hbrief.serve (t := w.files) (u := w.files) rfl
  have hpath := cachePath_congr hemptied'
  refine ⟨Prod.ext hanswer rfl, h.exists_flush, h.lock_eq, ?_, h.nodup, fun j found => ?_,
    hemptied.trans (h.emptied_eq.trans hemptied'.symm), fun s hs => ?_⟩
  · rw [World.answer, hpath, hfiles']
    exact h.gone
  · rw [h.mem_iff]
    exact (World.stage_answer (by simp [hstage]) _ _).symm
  · have hserves := h.serves s (hs.trans hemptied')
    rwa [← hfiles, ← hfiles', ← hemptied'] at hserves

end Flushes

/-! ## One step -/

namespace Serialised

variable {w w' : World ι} {found : Bool} {t : FileTree}

theorem flush (h : Serialised calls start w) (hstage : w.stage i = .unanswered) :
    Serialised calls start (w.set i .removing) := by
  have hsame : ∀ {j found}, (w.set i .removing).stage j = .removed found
      ↔ w.stage j = .removed found :=
    World.update_eq_removed (by simp [hstage]) nofun
  cases h with
  | free hlock hnone hserves hordered =>
    exact .free hlock (fun j found hj => hnone j found (hsame.mp hj)) hserves hordered
  | filling hlock hcall hclean hreached hserves hordered =>
    exact .filling hlock hcall hclean hreached hserves hordered
  | flushing hserves hflushes hne hordered =>
    refine .flushing hserves { hflushes with mem_iff := fun j found => ?_ } hne hordered
    exact (hflushes.mem_iff j found).trans hsame.symm

theorem remove (h : Serialised calls start w) (hexclusive : w.Exclusive)
    (hcall : calls i = .flush) (hstage : w.stage i = .removing)
    (hremove : Cache.flush w.service.cachePath w.files = .ok found t) :
    Serialised calls start (w.remove i found t) := by
  cases h with
  | free hlock hnone hserves hordered =>
    exact .flushing hserves (.first hlock hnone hcall hstage hremove) (List.cons_ne_nil _ _)
      (hordered.1.append_right _)
  | filling hlock =>
    rw [hexclusive.free hstage] at hlock
    cases hlock
  | flushing hserves hflushes hne hordered =>
    refine .flushing hserves (hflushes.remove hcall hstage hremove) (by simp) ?_
    rw [← List.append_assoc, List.map_append, ← List.append_assoc]
    exact hordered.append_right _

/-- A file that cannot be removed is still there, so that no flush waits for the lock. -/
theorem keep (h : Serialised calls start w) (hexclusive : w.Exclusive)
    (hcall : calls i = .flush) (hstage : w.stage i = .removing) {failure : Failure}
    (hremove : Cache.flush w.service.cachePath w.files = .error failure t) :
    Serialised calls start
      (w.answer i { outcome := .error (.failed failure) } ⟨w.service, t⟩) := by
  cases h with
  | free hlock hnone hserves hordered =>
    refine .free hlock (fun j found hj => ?_) (hserves.concat ?_) (hordered.concat _)
    · exact hnone j found ((World.stage_answer (by simp [hstage]) _ _).mp hj)
    · rw [hcall]
      exact Call.serve_flush_of_error hremove
  | filling hlock =>
    rw [hexclusive.free hstage] at hlock
    cases hlock
  | flushing hserves hflushes hne hordered =>
    rw [Cache.flush_of_missing hflushes.gone] at hremove
    cases hremove

theorem empty (h : Serialised calls start w) (hstage : w.stage i = .removed found)
    (hlock : w.lock = none) : Serialised calls start
      (w.answer i (flushAnswer w.service found) ⟨w.service.emptied, w.files⟩) := by
  cases h with
  | free hlock hnone => exact absurd hstage (hnone i found)
  | filling hlock' =>
    rw [hlock] at hlock'
    cases hlock'
  | @flushing h rest p waiting hserves hflushes hne hordered =>
    have hmem : (i, found) ∈ waiting := (hflushes.mem_iff i found).mpr hstage
    have hempty := hflushes.empty hstage
    have hperm : (h ++ rest).Perm (w.answers ++ [promise w.service (i, found)]
        ++ (waiting.erase (i, found)).map (promise w.service.emptied)) := by
      rw [promise_congr (emptied_emptied _), List.append_assoc]
      exact hordered.trans (((List.perm_cons_erase hmem).map _).append_left _)
    by_cases hlast : waiting.erase (i, found) = []
    · rw [hlast] at hempty hperm
      refine .free hlock (fun j found' hj => ?_)
        (hserves.append (hflushes.serves p.service hflushes.emptied_eq))
        (.of_flush ?_ hflushes.exists_flush)
      · have hnone := (hempty.mem_iff j found').mpr hj
        cases hnone
      · rwa [List.map_nil, List.append_nil] at hperm
    · exact .flushing hserves hempty hlast hperm

theorem brief (h : Serialised calls start w) (hbrief : (calls i).Brief w.service)
    (hstage : w.stage i = .unanswered) (hlock : w.lock = none) : Serialised calls start
      (w.answer i ((calls i).serve w.toShared).1 ((calls i).serve w.toShared).2) := by
  cases h with
  | free _ hnone hserves hordered =>
    refine .free hlock (fun j found hj => ?_) (hserves.concat rfl) (hordered.concat _)
    exact hnone j found ((World.stage_answer (by simp [hstage]) _ _).mp hj)
  | filling hlock' =>
    rw [hlock] at hlock'
    cases hlock'
  | @flushing h rest p waiting hserves hflushes hne hordered =>
    obtain ⟨hserve, hflushes'⟩ := hflushes.brief hbrief hstage
    obtain ⟨-, -, hemptied⟩ := hbrief.serve (t := w.files) (u := w.files) rfl
    refine .flushing (hserves.concat hserve) hflushes' hne ?_
    rw [World.answer, promise_congr hemptied, List.append_assoc, List.append_assoc]
    exact List.perm_middle.trans ((hordered.cons _).trans List.perm_middle.symm)

omit [DecidableEq ι] in
theorem lock (h : Serialised calls start w) {refresh : Bool} {g : ProviderRegistry} {clock : Clock}
    (hcall : calls i = .populate refresh g clock) (hlock : w.lock = none)
    (hclean : w.service.isPoisoned = false)
    (hexclusive : World.Exclusive { w with lock := some (i, .begun) }) :
    Serialised calls start { w with lock := some (i, .begun) } := by
  cases h with
  | free _ _ hserves hordered => exact .filling rfl hcall hclean rfl hserves hordered
  | filling hlock' =>
    rw [hlock] at hlock'
    cases hlock'
  | flushing hserves hflushes hne hordered =>
    obtain ⟨⟨j, found⟩, hmem⟩ := List.exists_mem_of_ne_nil _ hne
    exact absurd ((hflushes.mem_iff j found).mp hmem) (hexclusive.not_removed rfl j found)

omit [DecidableEq ι] in
/-- A call that has the lock has come as far as it does alone. -/
theorem exists_reached (h : Serialised calls start w) {refresh : Bool} {g : ProviderRegistry}
    {clock : Clock} {f : Filling} (hcall : calls i = .populate refresh g clock)
    (hlock : w.lock = some (i, f)) :
    ∃ h p, p.service.isPoisoned = false ∧ Reached refresh g clock p w.toShared f
      ∧ Serves calls start h p ∧ Ordered calls h w.answers := by
  cases h with
  | free hlock' =>
    rw [hlock] at hlock'
    cases hlock'
  | filling hlock' hcall' hclean hreached hserves hordered =>
    cases hlock.symm.trans hlock'
    cases hcall.symm.trans hcall'
    exact ⟨_, _, hclean, hreached, hserves, hordered⟩
  | flushing _ hflushes =>
    rw [hflushes.lock_eq] at hlock
    cases hlock

/-- The call that has the lock goes on, or comes to its end. -/
theorem advance (h : Serialised calls start w) (hexclusive : w.Exclusive) {refresh : Bool}
    {g : ProviderRegistry} {clock : Clock} {n : Nat} {f : Filling} {progress : Progress}
    (hcall : calls i = .populate refresh g clock) (hlock : w.lock = some (i, f))
    (hadvance : Service.advance refresh g clock n w.toShared f = progress) :
    match progress with
    | .goesOn p f' => Serialised calls start { w with toShared := p, lock := some (i, f') }
    | .ends p a => Serialised calls start { w.answer i a p with lock := none } := by
  have hnone := hexclusive.not_removed hlock
  obtain ⟨_, _, hclean, hreached, hserves, hordered⟩ := h.exists_reached hcall hlock
  have hfollows := hreached.advance hclean n
  rw [hadvance] at hfollows
  cases progress with
  | goesOn p f' => exact .filling rfl hcall hclean hfollows hserves hordered
  | ends p a =>
    refine .free rfl (fun j found hj => ?_) (hserves.concat ?_) (hordered.concat _)
    · exact hnone j found ((World.stage_answer (hnone i) a p).mp hj)
    · rw [hcall]
      exact hfollows

/-- Each step of a call goes into the history or leaves it as it is. -/
theorem turn (h : Serialised calls start w) (hexclusive : w.Exclusive) (hturn : Turn calls w w')
    (hexclusive' : w'.Exclusive) : Serialised calls start w' := by
  cases hturn with
  | flush hcall hstage => exact h.flush hstage
  | remove hcall hstage hremove => exact h.remove hexclusive hcall hstage hremove
  | keep hcall hstage hremove => exact h.keep hexclusive hcall hstage hremove
  | empty hcall hstage hlock => exact h.empty hstage hlock
  | brief hbrief hstage hlock => exact h.brief hbrief hstage hlock
  | lock hcall hstage hlock hclean => exact h.lock hcall hlock hclean hexclusive'
  | fill hcall hlock hadvance => exact h.advance hexclusive hcall hlock hadvance
  | filled hcall hlock hadvance => exact h.advance hexclusive hcall hlock hadvance

omit [DecidableEq ι] in
/-- If no call is under way, the answers are those of the history. -/
theorem exists_serves (h : Serialised calls start w) (hquiet : w.Quiet) :
    ∃ h, Serves calls start h w.toShared ∧ Ordered calls h w.answers := by
  obtain ⟨hlock, hstill⟩ := hquiet
  cases h with
  | free _ _ hserves hordered => exact ⟨_, hserves, hordered⟩
  | filling hlock' =>
    rw [hlock] at hlock'
    cases hlock'
  | flushing _ hflushes hne _ =>
    obtain ⟨⟨i, found⟩, hmem⟩ := List.exists_mem_of_ne_nil _ hne
    have hstage := (hflushes.mem_iff i found).mp hmem
    refine absurd ?_ (hstill i)
    rw [hstage]
    trivial

end Serialised

/-- However calls take turns none of which flushes while another one fills the service, those that
have been answered make a history. -/
theorem serialised_of_turns {w : World ι} (hrun : ExclusiveTurns calls (.begin start) w) :
    w.Exclusive ∧ Serialised calls start w := by
  induction hrun with
  | refl => exact ⟨fun i hi => hi.elim, serialised_begin calls start⟩
  | tail _ hturn ih => exact ⟨hturn.2, ih.2.turn ih.1 hturn.1 hturn.2⟩

/-! ## A flush that returns -/

variable {w w' : World ι} {a : Answer} {found : Bool}

omit [DecidableEq ι] in
theorem answer_eq_of_append {answers : List (ι × Answer)} {b : Answer}
    (h : answers ++ [(i, a)] = answers ++ [(j, b)]) : a = b :=
  (Prod.mk.inj (List.singleton_injective (List.append_cancel_left h))).2

/-- When a flush returns and was not refused, the file is gone and nothing is held. -/
theorem gone_of_flushed (hrun : ExclusiveTurns calls (.begin start) w) (hturn : Turn calls w w')
    (hanswers : w'.answers = w.answers ++ [(i, { outcome := .ok (.flushed found) })]) :
    w'.files.lookup w'.service.cachePath = .error .notFound ∧ w'.service.held = {} := by
  obtain ⟨hexclusive, hserialised⟩ := serialised_of_turns hrun
  cases hturn with
  | flush | remove | lock | fill => simp [World.set, World.remove] at hanswers
  | keep => simp [World.answer] at hanswers
  | @empty j found' hcall hstage hlock =>
    refine ⟨?_, flushAnswer_eq_ok (congrArg Answer.outcome (answer_eq_of_append hanswers))⟩
    cases hserialised with
    | free _ hnone => exact absurd hstage (hnone j found')
    | filling hlock' =>
      rw [hlock] at hlock'
      cases hlock'
    | flushing _ hflushes =>
      rw [World.answer, cachePath_emptied]
      exact hflushes.gone
  | @brief j hbrief =>
    have hcall : calls j ≠ .flush := by
      intro hcall
      rw [hcall] at hbrief
      exact hbrief
    exact absurd (congrArg Answer.outcome (answer_eq_of_append hanswers))
      (Call.serve_ne_flushed hcall _)
  | @filled j _ _ _ _ _ _ a hcall hlock hadvance =>
    have hanswer : a.outcome = .ok (.flushed found) :=
      congrArg Answer.outcome (answer_eq_of_append hanswers)
    obtain ⟨_, _, hclean, hreached, -⟩ := hserialised.exists_reached hcall hlock
    have hserve := hreached.serve_eq hclean hadvance
    rw [← hcall] at hserve
    have hne : calls j ≠ .flush := by
      rw [hcall]
      intro hflush
      cases hflush
    have ha : ((calls j).serve _).1 = a := congrArg Prod.fst hserve
    rw [← ha] at hanswer
    exact absurd hanswer (Call.serve_ne_flushed hne _)

end RepoSelect.Service
