import Mathlib.Data.List.Permutation
import RepoSelect.Proofs.Service.Outcome
import RepoSelect.Proofs.Service.Reload
import RepoSelect.Proofs.Service.Serialised

/-!
# Calls at the same time

Calls that are made at the same time are promised to have the answers, and to leave the memory and
the cache, of calls that are made one after the other in some order (`Serial`).

> The promise is kept as long as no flush is under way while another call fills the service, and for
> all turns if there are not both flushes and calls that fill the service. Otherwise a flush can
> remove the file before a call fills the service, and empty the memory after it: then the cache has
> what the service no longer holds, in no order of the two calls (`turns_serial`).
-/

namespace RepoSelect.Service

variable {ι : Type} {calls : ι → Call} {start p q : Shared} {i j : ι} {w : World ι}
  {refresh : Bool} {g : ProviderRegistry} {clock : Clock} {a : Answer} {found : Bool} {u : FileTree}

/-! ## The promise -/

/-- The answers of the calls, and what they leave, are those of calls served one after the other. -/
def Serial (calls : ι → Call) (start : Shared) (w : World ι) : Prop :=
  ∃ h : List (ι × Answer), h.Perm w.answers ∧ Serves calls start h w.toShared

variable [DecidableEq ι]

theorem serial_of_exclusive (hrun : ExclusiveTurns calls (.begin start) w) (hquiet : w.Quiet) :
    Serial calls start w := by
  obtain ⟨h, hserves, hordered⟩ := (serialised_of_turns hrun).2.exists_serves hquiet
  exact ⟨h, hordered.1, hserves⟩

/-! ## A flush around another call -/

/-- Whichever call fills the service when the file is gone, its providers list repositories and what
they list is cached. -/
structure Refills (calls : ι → Call) (p : Shared) (found : Bool) (u : FileTree) : Prop where
  clean : p.service.isPoisoned = false
  removes : Cache.flush p.service.cachePath p.files = .ok found u
  fills {j : ι} {refresh : Bool} {g : ProviderRegistry} {clock : Clock}
    (h : calls j = .populate refresh g clock) :
    ((Call.populate refresh g clock).serve ⟨p.service, u⟩).1.outcome = .ok (.filled .provider)
  lists {j : ι} {refresh : Bool} {g : ProviderRegistry} {clock : Clock} {catalog : Catalog}
    (h : calls j = .populate refresh g clock)
    (hfetch : (p.service.knowing g).Fetches u clock catalog) : catalog.isEmpty = false

/-- A call to fill the service leaves what its providers list, if it says so. -/
theorem served_of_provider {s s' : Service} {t : FileTree}
    (h : (Call.populate refresh g clock).serve ⟨s, u⟩ = (a, ⟨s', t⟩))
    (houtcome : a.outcome = .ok (.filled .provider)) :
    ∃ catalog, (s.knowing g).Fetches u clock catalog ∧ s' = s.withCatalog catalog
      ∧ Cache.read t s.cachePath = .ok ⟨clock.now, catalog⟩ := by
  have hpopulates := populate_populates (s.knowing g) refresh u clock
  simp only [Call.serve, Prod.mk.injEq, Shared.mk.injEq] at h
  obtain ⟨rfl, rfl, rfl⟩ := h
  have hprovider : ((s.knowing g).populate refresh u clock).outcome = .ok .provider := by
    cases horigin : ((s.knowing g).populate refresh u clock).outcome with
    | error mishap => simp [horigin, Except.map] at houtcome
    | ok origin => simpa [horigin, Except.map] using houtcome
  rw [hprovider] at hpopulates
  obtain ⟨catalog, hfetches, hservice, hread⟩ := hpopulates.of_provider
  exact ⟨catalog, hfetches, by rw [hservice]; rfl, hread⟩

/-- A flush removes the file, another call fills the service, and the flush empties the memory. -/
theorem turns_around (hi : calls i = .flush) (hj : calls j = .populate refresh g clock)
    (hclean : start.service.isPoisoned = false)
    (hremove : Cache.flush start.service.cachePath start.files = .ok found u)
    (hserve : (Call.populate refresh g clock).serve ⟨start.service, u⟩ = (a, q)) :
    ∃ w : World ι, Turns calls (.begin start) w ∧ w.Quiet
      ∧ w.answers = [(j, a), (i, flushAnswer q.service found)]
      ∧ w.toShared = ⟨q.service.emptied, q.files⟩ := by
  have hne : j ≠ i := by
    rintro rfl
    rw [hi] at hj
    cases hj
  let w₁ : World ι := (World.begin start).set i .removing
  let w₂ : World ι := w₁.remove i found u
  let w₃ : World ι := w₂.answer j a q
  let w₄ : World ι := w₃.answer i (flushAnswer q.service found) ⟨q.service.emptied, q.files⟩
  have hbegins : Turn calls (.begin start) w₁ := .flush hi rfl
  have hremoves : Turn calls w₁ w₂ := .remove hi (Function.update_self ..) hremove
  have hfills : Turns calls w₂ w₃ := by
    have hwaits : w₂.stage j = .unanswered := by
      simp only [w₂, w₁, World.remove, World.set, Function.update_of_ne hne, World.begin]
    refine turns_of_populate hj ?_ hwaits rfl hclean
    rw [hj]
    exact hserve
  have hempties : Turn calls w₃ w₄ := by
    refine .empty hi ?_ rfl
    simp only [w₃, w₂, World.answer, World.remove, Function.update_of_ne hne.symm,
      Function.update_self]
  have hquiet : w₄.Quiet := by
    refine ⟨rfl, World.still_answer (fun k hki => ?_) _ _⟩
    simp only [w₃, w₂, w₁, World.answer, World.remove, World.set, World.begin,
      Function.update_apply, hki, if_false]
    split <;> exact id
  exact ⟨w₄, ((hfills.head hremoves).head hbegins).tail hempties, hquiet, rfl, rfl⟩

namespace Refills

/-- Both calls succeed, and the file has what the service no longer holds. -/
theorem exists_turns (h : Refills calls start found u) (hi : calls i = .flush)
    (hj : calls j = .populate refresh g clock) :
    ∃ w : World ι, ∃ a catalog, Turns calls (.begin start) w ∧ w.Quiet
      ∧ w.answers = [(j, a), (i, { outcome := .ok (.flushed found) })]
      ∧ a.outcome = .ok (.filled .provider)
      ∧ w.service = start.service.emptied
      ∧ Cache.read w.files start.service.cachePath = .ok ⟨clock.now, catalog⟩ := by
  rcases hserve : (Call.populate refresh g clock).serve ⟨start.service, u⟩ with ⟨a, s, t⟩
  have houtcome : a.outcome = .ok (.filled .provider) := by
    have hfills := h.fills hj
    rwa [hserve] at hfills
  obtain ⟨catalog, -, rfl, hread⟩ := served_of_provider hserve houtcome
  obtain ⟨w, hrun, hquiet, hanswers, hshared⟩ := turns_around hi hj h.clean h.removes hserve
  have hclean : (start.service.withCatalog catalog).isPoisoned = false := h.clean
  have hanswer : flushAnswer (start.service.withCatalog catalog) found
      = { outcome := .ok (.flushed found) } := by
    simp only [flushAnswer, hclean, Bool.false_eq_true, if_false]
  have hemptied : (start.service.withCatalog catalog).emptied = start.service.emptied := by
    simp only [emptied, hclean, h.clean, Bool.false_eq_true, if_false]
    rfl
  rw [hanswer] at hanswers
  rw [hemptied] at hshared
  refine ⟨w, a, catalog, hrun, hquiet, hanswers, houtcome, congrArg Shared.service hshared, ?_⟩
  rw [hshared]
  exact hread

omit [DecidableEq ι] in
/-- What is left is left by the two calls in no order: behind the flush there is no file, and behind
the other call something is held. -/
theorem not_serial (h : Refills calls start found u) (hi : calls i = .flush)
    (hj : calls j = .populate refresh g clock) {a : Answer} {r : CacheRecord}
    (hanswers : w.answers = [(j, a), (i, { outcome := .ok (.flushed found) })])
    (houtcome : a.outcome = .ok (.filled .provider)) (hservice : w.service = start.service.emptied)
    (hread : Cache.read w.files start.service.cachePath = .ok r) : ¬Serial calls start w := by
  rintro ⟨order, hperm, hserves⟩
  rw [hanswers, List.perm_pair] at hperm
  rcases hperm with rfl | rfl
  · obtain ⟨p, -, hrest⟩ := Serves.cons_iff.mp hserves
    obtain ⟨q, hserve, hnil⟩ := Serves.cons_iff.mp hrest
    obtain rfl := Serves.nil_iff.mp hnil
    rw [hi] at hserve
    have hgone := (Call.gone_of_serve hserve).1
    rw [hservice, cachePath_emptied] at hgone
    rw [Cache.read, hgone] at hread
    cases hread
  · obtain ⟨p, hserve, hrest⟩ := Serves.cons_iff.mp hserves
    obtain ⟨q, hserve', hnil⟩ := Serves.cons_iff.mp hrest
    obtain rfl := Serves.nil_iff.mp hnil
    have hflush := Call.serve_flush h.removes
    rw [hi] at hserve
    obtain rfl : p = ⟨start.service.emptied, u⟩ := congrArg Prod.snd (hserve.symm.trans hflush)
    rw [hj] at hserve'
    obtain ⟨catalog, hfetches, hfull, -⟩ := served_of_provider hserve' houtcome
    have hemptied : start.service.emptied = { start.service with held := {} } :=
      if_neg (Bool.eq_false_iff.mp h.clean)
    rw [hemptied] at hfetches
    have hheld : start.service.emptied.withCatalog catalog = start.service.emptied :=
      hfull.symm.trans hservice
    have hempty : catalog = ∅ := by
      have hrepositories := congrArg (fun s : Service => s.held.repositories) hheld
      rw [hemptied] at hrepositories
      exact hrepositories
    have hlists := h.lists hj hfetches
    rw [hempty] at hlists
    cases hlists

end Refills

/-! ## The whole -/

/-- **Calls at the same time.** Calls none of which flushes while another one fills the service have
the answers and leave the memory and the files of calls that are served one after the other, and
when a flush returns and was not refused, the file is gone and nothing is held. This goes for all
turns that the calls can take if they do not both flush and fill the service. If they do, and the
providers can be reached and the cache be written, a flush can take its two steps around another
call: both succeed, the file has what the providers listed and the service holds nothing, which is
what they leave in no order. -/
theorem turns_serial (calls : ι → Call) (start : Shared) :
    (∀ w, ExclusiveTurns calls (.begin start) w → w.Quiet → Serial calls start w)
      ∧ (∀ w w' i found, ExclusiveTurns calls (.begin start) w → Turn calls w w' →
          w'.answers = w.answers ++ [(i, { outcome := .ok (.flushed found) })] →
          w'.files.lookup w'.service.cachePath = .error .notFound ∧ w'.service.held = {})
      ∧ ((∀ i, calls i ≠ .flush) ∨ (∀ i refresh g clock, calls i ≠ .populate refresh g clock) →
          ∀ w, Turns calls (.begin start) w → w.Quiet → Serial calls start w)
      ∧ ∀ found u, Refills calls start found u → ∀ i j refresh g clock, calls i = .flush →
          calls j = .populate refresh g clock →
          ∃ w a catalog, Turns calls (.begin start) w ∧ w.Quiet
            ∧ w.answers = [(j, a), (i, { outcome := .ok (.flushed found) })]
            ∧ a.outcome = .ok (.filled .provider) ∧ w.service = start.service.emptied
            ∧ Cache.read w.files start.service.cachePath = .ok ⟨clock.now, catalog⟩
            ∧ ¬Serial calls start w := by
  refine ⟨fun w hrun hquiet => serial_of_exclusive hrun hquiet,
    fun w w' i found hrun hturn hanswers => gone_of_flushed hrun hturn hanswers,
    fun hcalls w hrun hquiet => serial_of_exclusive (exclusive_of_turns hcalls hrun) hquiet,
    fun found u h i j refresh g clock hi hj => ?_⟩
  obtain ⟨w, a, catalog, hrun, hquiet, hanswers, houtcome, hservice, hread⟩ := h.exists_turns hi hj
  exact ⟨w, a, catalog, hrun, hquiet, hanswers, houtcome, hservice, hread,
    h.not_serial hi hj hanswers houtcome hservice hread⟩

/-! ## A flush and a call that fills the service -/

/-- A flush, and a call that fills the service if it is empty. -/
def twoCalls : Bool → Call
  | false => .flush
  | true => .populate false lister.registry ⟨.epoch, .zero, {}⟩

theorem twoCalls_refill : Refills twoCalls ⟨lister, {}⟩ false {} where
  clean := rfl
  removes := Cache.flush_of_missing (by decide +kernel)
  fills {j _ _ _} h := by
    cases j with
    | false => cases h
    | true =>
      cases h
      have hprovider : (lister.populate false {} ⟨.epoch, .zero, {}⟩).outcome = .ok .provider :=
        populate_of_ready rfl (.inr ⟨rfl, _, lister_load _⟩) lister_fetch Cache.ready_empty
      exact congrArg (Except.map Reply.filled) hprovider
  lists {j _ _ _ catalog} h hfetch := by
    cases j with
    | false => cases h
    | true =>
      cases h
      have hanswer : (lister.fetch {} ⟨.epoch, .zero, {}⟩).answer = .ok catalog :=
        fetch_answer_eq_ok.mpr hfetch
      rw [← Except.ok.inj (lister_fetch.symm.trans hanswer)]
      exact listed_isEmpty

theorem twoCalls_serial_in_turn :
    (∀ w, ExclusiveTurns twoCalls (.begin ⟨lister, {}⟩) w → w.Quiet →
        Serial twoCalls ⟨lister, {}⟩ w)
      ∧ ¬∀ w, Turns twoCalls (.begin ⟨lister, {}⟩) w → w.Quiet →
          Serial twoCalls ⟨lister, {}⟩ w := by
  obtain ⟨hexclusive, -, -, htorn⟩ := turns_serial twoCalls ⟨lister, {}⟩
  obtain ⟨w, -, -, hrun, hquiet, -, -, -, -, hserial⟩ :=
    htorn false {} twoCalls_refill false true _ _ _ rfl rfl
  exact ⟨hexclusive, fun hall => hserial (hall w hrun hquiet)⟩

/-- The flush removes no file, since there is none yet, and empties the memory when the file is
there: both calls succeed, and they leave the file and nothing in memory. -/
theorem torn_by_flush :
    ∃ w a catalog, Turns twoCalls (.begin ⟨lister, {}⟩) w ∧ w.Quiet
      ∧ w.answers = [(true, a), (false, { outcome := .ok (.flushed false) })]
      ∧ a.outcome = .ok (.filled .provider) ∧ w.service.held = {}
      ∧ Cache.read w.files "c.json" = .ok ⟨Instant.epoch, catalog⟩
      ∧ ¬Serial twoCalls ⟨lister, {}⟩ w := by
  obtain ⟨w, a, catalog, hrun, hquiet, hanswers, houtcome, hservice, hread⟩ :=
    twoCalls_refill.exists_turns (i := false) (j := true) rfl rfl
  exact ⟨w, a, catalog, hrun, hquiet, hanswers, houtcome, by rw [hservice]; rfl, hread,
    twoCalls_refill.not_serial (i := false) (j := true) rfl rfl hanswers houtcome hservice hread⟩

end RepoSelect.Service
