import RepoSelect.Proofs.Service.Run

/-!
# Calls to a service

A service can be filled, flushed and given a catalog. Each of these calls has an answer and leaves
something behind in memory and in the files (`Call.serve`). Calls that are served one after the
other, whatever they answer, make a history (`Serves`).

All that a flush leaves of the memory is whether it is poisoned (`emptied`), so that a flush does
not see what is held before it (`Call.serve_flush`). Some calls are brief: they do nothing but
change what is held, or are refused.
-/

namespace RepoSelect.Service

/-- What the calls to a service share. -/
structure Shared where
  service : Service
  files : FileTree

inductive Call where
  /-- Fill the service from the cache or from providers as they are then. -/
  | populate (refresh : Bool) (providers : ProviderRegistry) (clock : Clock)
  | flush
  | replace (catalog : Catalog)

inductive Reply where
  | filled (origin : Origin)
  | flushed (found : Bool)
  | replaced
deriving DecidableEq

/-- What a call returns, and the projects whose providers it asked. -/
structure Answer where
  outcome : Except Mishap Reply
  asked : List String := []
deriving DecidableEq

/-- The service with other providers. -/
def knowing (s : Service) (g : ProviderRegistry) : Service := { s with registry := g }

/-- What a call answers, and what it leaves, if nothing happens meanwhile. -/
def Call.serve (call : Call) (p : Shared) : Answer × Shared :=
  match call with
  | .populate refresh g clock =>
    let report := (p.service.knowing g).populate refresh p.files clock
    (⟨report.outcome.map .filled, report.asked⟩,
      ⟨report.service.knowing p.service.registry, report.files⟩)
  | .flush =>
    let report := p.service.flush p.files
    (⟨report.outcome.map .flushed, []⟩, ⟨report.service, report.files⟩)
  | .replace catalog =>
    match p.service.replace catalog with
    | .ok s => (⟨.ok .replaced, []⟩, ⟨s, p.files⟩)
    | .error failure => (⟨.error (.failed failure), []⟩, p)

variable {s s' : Service} {t u : FileTree} {p q r : Shared} {call : Call}

theorem Call.serve_of_populates {refresh : Bool} {g : ProviderRegistry} {clock : Clock}
    {outcome : Except Mishap Origin} {asked : List String}
    (h : Populates .sound (s.knowing g) t clock refresh outcome s' u asked) :
    (Call.populate refresh g clock).serve ⟨s, t⟩
      = (⟨outcome.map .filled, asked⟩, ⟨s'.knowing s.registry, u⟩) := by
  obtain ⟨log, hreport⟩ := h.report_eq
  simp only [serve, Service.populate, hreport]

/-! ## Flushes -/

/-- What a flush leaves of a service. -/
def emptied (s : Service) : Service :=
  if s.isPoisoned then s else { s with held := {} }

@[simp] theorem isPoisoned_emptied (s : Service) : s.emptied.isPoisoned = s.isPoisoned := by
  unfold emptied
  split <;> rfl

@[simp] theorem cachePath_emptied (s : Service) : s.emptied.cachePath = s.cachePath := by
  unfold emptied
  split <;> rfl

@[simp] theorem emptied_emptied (s : Service) : s.emptied.emptied = s.emptied := by
  cases hpoison : s.isPoisoned <;> simp [emptied, hpoison]

theorem isPoisoned_congr (h : s.emptied = s'.emptied) : s.isPoisoned = s'.isPoisoned := by
  rw [← isPoisoned_emptied, h, isPoisoned_emptied]

theorem cachePath_congr (h : s.emptied = s'.emptied) : s.cachePath = s'.cachePath := by
  rw [← cachePath_emptied, h, cachePath_emptied]

/-- What a flush answers that has removed the file. -/
def flushAnswer (s : Service) (found : Bool) : Answer :=
  if s.isPoisoned then { outcome := .error (.failed poisoned) }
  else { outcome := .ok (.flushed found) }

theorem flushAnswer_congr (h : s.emptied = s'.emptied) (found : Bool) :
    flushAnswer s found = flushAnswer s' found := by
  rw [flushAnswer, flushAnswer, isPoisoned_congr h]

theorem Call.serve_flush {found : Bool} (h : Cache.flush s.cachePath t = .ok found u) :
    Call.flush.serve ⟨s, t⟩ = (flushAnswer s found, ⟨s.emptied, u⟩) := by
  cases hpoison : s.isPoisoned <;>
    simp only [serve, Service.flush, h, flushAnswer, emptied, hpoison, if_true, if_false,
      Bool.false_eq_true, Except.map]

/-- Whatever is held, a flush answers the same and leaves the same. -/
theorem Call.serve_flush_congr {found : Bool} (h : Cache.flush s.cachePath t = .ok found u)
    (hemptied : s'.emptied = s.emptied) :
    Call.flush.serve ⟨s', t⟩ = (flushAnswer s found, ⟨s.emptied, u⟩) := by
  have h' : Cache.flush s'.cachePath t = .ok found u := by rwa [cachePath_congr hemptied]
  rw [serve_flush h', flushAnswer_congr hemptied, hemptied]

theorem Call.serve_flush_of_error {failure : Failure}
    (h : Cache.flush s.cachePath t = .error failure u) :
    Call.flush.serve ⟨s, t⟩ = ({ outcome := .error (.failed failure) }, ⟨s, u⟩) := by
  simp only [serve, Service.flush, h, Except.map]

theorem Call.serve_ne_flushed {found : Bool} (h : call ≠ .flush) (p : Shared) :
    (call.serve p).1.outcome ≠ .ok (.flushed found) := by
  cases call with
  | populate refresh g clock =>
    show (((p.service.knowing g).populate refresh p.files clock).outcome.map Reply.filled) ≠ _
    cases ((p.service.knowing g).populate refresh p.files clock).outcome <;> simp [Except.map]
  | flush => exact absurd rfl h
  | replace catalog =>
    rw [serve]
    cases p.service.replace catalog <;> simp

theorem flushAnswer_eq_ok {s : Service} {found found' : Bool}
    (h : (flushAnswer s found).outcome = .ok (.flushed found')) : s.emptied.held = {} := by
  unfold flushAnswer at h
  unfold emptied
  split at h
  · cases h
  · next hclean => rw [if_neg hclean]

/-- Behind a flush that was not refused, the file is gone and nothing is held. -/
theorem Call.gone_of_serve {found : Bool}
    (h : Call.flush.serve p = ({ outcome := .ok (.flushed found) }, q)) :
    q.files.lookup q.service.cachePath = .error .notFound ∧ q.service.held = {} := by
  cases hremove : Cache.flush p.service.cachePath p.files with
  | ok found' t =>
    rw [serve_flush hremove, Prod.mk.injEq] at h
    obtain ⟨hanswer, rfl⟩ := h
    refine ⟨?_, flushAnswer_eq_ok (congrArg Answer.outcome hanswer)⟩
    rw [cachePath_emptied]
    exact Cache.lookup_of_flush hremove
  | error failure t =>
    rw [serve_flush_of_error hremove] at h
    cases h

/-! ## Brief calls -/

/-- The call is answered as soon as it has the lock, without a look at the files. -/
def Call.Brief (s : Service) : Call → Prop
  | .populate _ _ _ => s.isPoisoned = true
  | .flush => False
  | .replace _ => True

theorem Call.serve_of_poisoned (h : s.isPoisoned = true) (refresh : Bool) (g : ProviderRegistry)
    (clock : Clock) (t : FileTree) : (Call.populate refresh g clock).serve ⟨s, t⟩
      = ({ outcome := .error (.failed poisoned) }, ⟨s, t⟩) := by
  have hrefused : Populates .sound (s.knowing g) t clock refresh _ _ _ _ := .poisoned h
  exact serve_of_populates hrefused

/-- A brief call leaves the files, and what a flush would leave of the service. Its answer does not
hang on what is held. -/
theorem Call.Brief.serve (h : call.Brief s) (hemptied : s'.emptied = s.emptied) :
    (call.serve ⟨s', t⟩).1 = (call.serve ⟨s, u⟩).1
      ∧ (call.serve ⟨s', t⟩).2.files = t
      ∧ (call.serve ⟨s', t⟩).2.service.emptied = s'.emptied := by
  have hpoison := isPoisoned_congr hemptied
  cases call with
  | populate refresh g clock =>
    rw [serve_of_poisoned h, serve_of_poisoned (hpoison.trans h)]
    exact ⟨rfl, rfl, rfl⟩
  | flush => exact h.elim
  | replace catalog =>
    cases hs : s.isPoisoned <;> rw [hs] at hpoison <;>
      simp [Call.serve, Service.replace, view, emptied, hs, hpoison, bind, Except.bind, holding]

/-! ## One after the other -/

variable {ι : Type} {calls : ι → Call} {h h' : List (ι × Answer)} {i : ι}

/-- Calls that are served one after the other, with their answers. -/
inductive Serves (calls : ι → Call) : Shared → List (ι × Answer) → Shared → Prop
  | nil (p : Shared) : Serves calls p [] p
  | cons {i : ι} {p q : Shared} {h : List (ι × Answer)}
      (rest : Serves calls ((calls i).serve p).2 h q) :
      Serves calls p ((i, ((calls i).serve p).1) :: h) q

namespace Serves

theorem single (i : ι) (p : Shared) :
    Serves calls p [(i, ((calls i).serve p).1)] ((calls i).serve p).2 :=
  .cons (.nil _)

theorem append (hp : Serves calls p h q) (hq : Serves calls q h' r) :
    Serves calls p (h ++ h') r := by
  induction hp with
  | nil p => exact hq
  | cons _ ih => exact .cons (ih hq)

/-- One more call is served. -/
theorem concat {a : Answer} (hp : Serves calls p h q) (hserve : (calls i).serve q = (a, r)) :
    Serves calls p (h ++ [(i, a)]) r := by
  have hsingle : Serves calls q [(i, ((calls i).serve q).1)] ((calls i).serve q).2 := single i q
  rw [hserve] at hsingle
  exact hp.append hsingle

theorem nil_iff : Serves calls p [] q ↔ q = p := by
  constructor
  · rintro ⟨⟩
    rfl
  · rintro rfl
    exact nil q

theorem cons_iff {a : Answer} : Serves calls p ((i, a) :: h) q
    ↔ (∃ r, (calls i).serve p = (a, r) ∧ Serves calls r h q) := by
  constructor
  · rintro ⟨⟩
    exact ⟨_, rfl, ‹_›⟩
  · rintro ⟨r, hserve, hrest⟩
    have hcons : Serves calls p ((i, ((calls i).serve p).1) :: h) q := cons (by rwa [hserve])
    rwa [hserve] at hcons

end Serves

end RepoSelect.Service
