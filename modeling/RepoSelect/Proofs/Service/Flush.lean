import RepoSelect.Proofs.Cache.Location
import RepoSelect.Proofs.Service.Labels
import RepoSelect.Proofs.Service.Outcome

/-!
# Flushes that fail

A flush has two things to take away, the file and what is held, and it can fail at each of them. If
the file cannot be removed, nothing has happened yet. The lock is only asked for when the file is
gone, and a service whose provider broke down does not give it away any more. So

> a flush does all of its work or none of it, unless the service is poisoned and there is a file;
> then the flush fails and the file is gone (`flush_whole_iff`).

A service is poisoned by nothing but a breakdown (`Steps.poisons`) and stays poisoned, so that this
happens to every flush that finds a file behind one (`torn_by_breakdown`). What a flush can come to
is said once (`flushEnds`), with what can come of the file (`Cache.removes`).
-/

namespace RepoSelect.Service

open FileTree

variable {s s' : Service} {t : FileTree} {report : Report Bool}

/-! ## How a service is poisoned -/

theorem Populates.poisons {disk : Disk} {clock : Clock} {refresh : Bool}
    {outcome : Except Mishap Origin} {u : FileTree} {asked : List String}
    (h : Populates disk s t clock refresh outcome s' u asked) (hclean : s.isPoisoned = false)
    (hpoison : s'.isPoisoned = true) : outcome = .error .brokeDown := by
  cases h with
  | brokeDown => rfl
  | poisoned | loaded | cached | failed | saved | unsaved =>
    exact absurd (hclean.symm.trans hpoison) Bool.false_ne_true

/-- Where a provider breaks down, nothing is written, be the disk what it may. -/
theorem Populates.on_sound {disk : Disk} {clock : Clock} {refresh : Bool} {u : FileTree}
    {asked : List String} (h : Populates disk s t clock refresh (.error .brokeDown) s' u asked) :
    Populates .sound s t clock refresh (.error .brokeDown) s' u asked := by
  cases h with
  | brokeDown hclean hask hfetch => exact .brokeDown hclean hask hfetch

/-- A step poisons a service only if a provider breaks down in it. -/
theorem Step.poisons (h : Step s s') (hclean : s.isPoisoned = false)
    (hpoison : s'.isPoisoned = true) : ∃ refresh t clock,
      (s.populate refresh t clock).outcome = .error .brokeDown
        ∧ s' = (s.populate refresh t clock).service := by
  cases h with
  | populate disk refresh t clock =>
    have hpopulates := populateOn_populates disk s refresh t clock
    rw [hpopulates.poisons hclean hpoison] at hpopulates
    obtain ⟨log, hreport⟩ := hpopulates.on_sound.report_eq
    refine ⟨refresh, t, clock, ?_, ?_⟩ <;> rw [Service.populate, hreport]
  | flush t =>
    obtain heq | ⟨-, heq⟩ := flush_service s t <;> rw [heq] at hpoison <;>
      exact absurd (hclean.symm.trans hpoison) Bool.false_ne_true
  | replace h =>
    obtain ⟨-, rfl⟩ := replace_eq_ok.mp h
    exact absurd (hclean.symm.trans hpoison) Bool.false_ne_true
  | providers g => exact absurd (hclean.symm.trans hpoison) Bool.false_ne_true

/-- Behind a service that is poisoned and was not, there is a call in which a provider broke
down. -/
theorem Steps.poisons (h : Steps s s') (hclean : s.isPoisoned = false)
    (hpoison : s'.isPoisoned = true) : ∃ mid refresh t clock, Steps s mid
      ∧ (mid.populate refresh t clock).outcome = .error .brokeDown
      ∧ Steps (mid.populate refresh t clock).service s' := by
  induction h with
  | refl =>
    rw [hclean] at hpoison
    cases hpoison
  | @tail mid s' hrun hstep ih =>
    by_cases hmid : mid.isPoisoned = true
    · obtain ⟨mid', refresh, t, clock, hbefore, houtcome, hbehind⟩ := ih hmid
      exact ⟨mid', refresh, t, clock, hbefore, houtcome, hbehind.tail hstep⟩
    · obtain ⟨refresh, t, clock, houtcome, rfl⟩ :=
        hstep.poisons (Bool.eq_false_iff.mpr hmid) hpoison
      exact ⟨mid, refresh, t, clock, hrun, houtcome, .refl⟩

/-! ## The file and the memory -/

/-- The call did all of its work if it succeeded, and none of it if it failed. -/
structure IsWhole (s : Service) (t : FileTree) (report : Report Bool) : Prop where
  failed (mishap : Mishap) (h : report.outcome = .error mishap) :
    report.files = t ∧ report.service.held = s.held
  done (found : Bool) (h : report.outcome = .ok found) :
    report.files.lookup s.cachePath = .error .notFound ∧ report.service.held = {}
      ∧ (found = true ↔ ∃ content, t.lookup s.cachePath = .ok (.file content))

namespace FlushEnds

theorem done (h : FlushEnds s t report) {found : Bool} (houtcome : report.outcome = .ok found) :
    report.files.lookup s.cachePath = .error .notFound ∧ report.service.held = {}
      ∧ (found = true ↔ ∃ content, t.lookup s.cachePath = .ok (.file content)) := by
  cases h with
  | stuck hremoves => cases houtcome
  | refused hpoison hremoves => cases houtcome
  | emptied hclean hremoves =>
    cases houtcome
    exact ⟨hremoves.lookup_eq, rfl, hremoves.found_iff.1⟩

theorem service_eq (h : FlushEnds s t report) {mishap : Mishap}
    (houtcome : report.outcome = .error mishap) : report.service = s := by
  cases h with
  | stuck hremoves => rfl
  | refused hpoison hremoves => rfl
  | emptied hclean hremoves => cases houtcome

theorem succeeds_iff (h : FlushEnds s t report) :
    (∃ found, report.outcome = .ok found) ↔ s.isPoisoned = false
      ∧ ((∃ content, t.lookup s.cachePath = .ok (.file content))
        ∨ t.lookup s.cachePath = .error .notFound) := by
  cases h with
  | stuck hremoves =>
    refine iff_of_false nofun ?_
    cases hremoves with
    | stuck fault hfile hnone =>
      rintro ⟨-, ⟨content, hcontent⟩ | hmissing⟩
      · exact hfile content hcontent
      · exact hnone hmissing
  | refused hpoison hremoves =>
    refine iff_of_false nofun ?_
    rintro ⟨hclean, -⟩
    rw [hpoison] at hclean
    cases hclean
  | emptied hclean hremoves => exact iff_of_true ⟨_, rfl⟩ ⟨hclean, hremoves.removable⟩

/-- A flush that is refused has removed the file already. -/
theorem isWhole_iff (h : FlushEnds s t report) : IsWhole s t report
    ↔ s.isPoisoned = false ∨ ∀ content, t.lookup s.cachePath ≠ .ok (.file content) := by
  cases h with
  | stuck hremoves =>
    cases hremoves with
    | stuck fault hfile hnone =>
      exact iff_of_true ⟨fun _ _ => ⟨rfl, rfl⟩, nofun⟩ (.inr hfile)
  | @refused found u hpoison hremoves =>
    rw [hpoison, ← hremoves.found_iff.2]
    constructor
    · intro hwhole
      exact .inr (hwhole.failed _ rfl).1
    · rintro (hclean | heq)
      · cases hclean
      · exact ⟨fun _ _ => ⟨heq, rfl⟩, nofun⟩
  | emptied hclean hremoves =>
    exact iff_of_true ⟨nofun, fun _ => (FlushEnds.emptied hclean hremoves).done⟩ (.inl hclean)

/-- A service that is poisoned answers no flush, and loses its file by one. -/
theorem torn (h : FlushEnds s t report) (hpoison : s.isPoisoned = true) {content : ByteArray}
    (hfile : t.lookup s.cachePath = .ok (.file content)) :
    report.outcome = .error (.failed poisoned)
      ∧ report.files.lookup s.cachePath = .error .notFound := by
  cases h with
  | stuck hremoves =>
    cases hremoves with
    | stuck fault hno hnone => exact absurd hfile (hno content)
  | refused hpoison hremoves => exact ⟨rfl, hremoves.lookup_eq⟩
  | emptied hclean hremoves =>
    rw [hpoison] at hclean
    cases hclean

end FlushEnds

/-- A flush changes nothing but what the path of the cache leads to. -/
theorem at?_flush {place : Place} (hplace : place ≠ t.endOf s.cachePath) :
    (s.flush t).files.at? place = t.at? place := by
  have hfiles : (s.flush t).files = treeAfter (Cache.flush s.cachePath) t := by
    unfold flush treeAfter
    cases Cache.flush s.cachePath t with
    | error failure u => rfl
    | ok found u => cases s.isPoisoned <;> rfl
  rw [hfiles]
  rcases Cache.treeAfter_flush t s.cachePath with heq | ⟨hnil, heq⟩
  · rw [heq]
  · rw [heq, at?_drop _ _ hnil, if_neg hplace.symm]

/-- **Flushes that fail.** A flush succeeds exactly if the service is not poisoned and there is a
file or nothing at the path; then the file is gone, nothing is held, and the answer says whether
there was a file. If it fails, the service is as it was, and so is the file, unless the service is
poisoned and there was one. That is the only flush that does half of its work. A service is poisoned
by nothing but a breakdown, and behind one every flush that finds a file is such a flush. No other
place in the tree is ever changed. -/
theorem flush_whole_iff (s : Service) (t : FileTree) :
    (IsWhole s t (s.flush t)
        ↔ s.isPoisoned = false ∨ ∀ content, t.lookup s.cachePath ≠ .ok (.file content))
      ∧ ((∃ found, (s.flush t).outcome = .ok found) ↔ s.isPoisoned = false
          ∧ ((∃ content, t.lookup s.cachePath = .ok (.file content))
            ∨ t.lookup s.cachePath = .error .notFound))
      ∧ (∀ found, (s.flush t).outcome = .ok found →
          (s.flush t).files.lookup s.cachePath = .error .notFound ∧ (s.flush t).service.held = {}
            ∧ (found = true ↔ ∃ content, t.lookup s.cachePath = .ok (.file content)))
      ∧ (∀ mishap, (s.flush t).outcome = .error mishap → (s.flush t).service = s)
      ∧ (∀ s₀, s₀.isPoisoned = false → Steps s₀ s → s.isPoisoned = true →
          ∃ mid refresh u clock, Steps s₀ mid
            ∧ (mid.populate refresh u clock).outcome = .error .brokeDown
            ∧ Steps (mid.populate refresh u clock).service s)
      ∧ (s.isPoisoned = true → ∀ s', Steps s s' → ∀ u content,
          u.lookup s'.cachePath = .ok (.file content) →
          (s'.flush u).outcome = .error (.failed poisoned)
            ∧ (s'.flush u).files.lookup s'.cachePath = .error .notFound)
      ∧ ∀ place, place ≠ t.endOf s.cachePath → (s.flush t).files.at? place = t.at? place := by
  have hends : FlushEnds s t (s.flush t) := flushEnds s t
  refine ⟨hends.isWhole_iff, hends.succeeds_iff, fun found => hends.done,
    fun mishap => hends.service_eq, fun s₀ hclean hrun => hrun.poisons hclean,
    fun hpoison s' hrun u content => ?_, fun place => at?_flush⟩
  exact (flushEnds s' u).torn (hrun.isPoisoned hpoison)

/-! ## A flush after a breakdown -/

/-- A service whose provider breaks down. -/
def breaker : Service where
  config := { provider := "mock", projects := ["platform"] }
  cachePath := "c.json"
  registry := ProviderRegistry.empty.register "mock" fun _ =>
    .ok { name := "mock", list := fun _ => { answer := .error .brokeDown } }

/-- A tree with a cache file in it. -/
def cachedFiles : FileTree := ({} : FileTree).put ["c.json"] (.file "old".toUTF8)

/-- The flush of a service that was started and broke down fails, and the file is gone. -/
theorem torn_by_breakdown :
    start breaker.config breaker.registry "c.json" = .ok breaker
      ∧ ∃ s, Steps breaker s
        ∧ cachedFiles.lookup s.cachePath = .ok (.file "old".toUTF8)
        ∧ (s.flush cachedFiles).outcome = .error (.failed poisoned)
        ∧ (s.flush cachedFiles).files.lookup s.cachePath = .error .notFound
        ∧ ¬IsWhole s cachedFiles (s.flush cachedFiles) := by
  have hstart : start breaker.config breaker.registry "c.json" = .ok breaker :=
    start_of_check (by decide +kernel) (by decide +kernel)
  let s : Service := (breaker.populate true {} ⟨.epoch, .zero, {}⟩).service
  have hpath : s.cachePath = "c.json" := by decide +kernel
  have hpoison : s.isPoisoned = true := by decide +kernel
  have hfile : cachedFiles.lookup s.cachePath = .ok (.file "old".toUTF8) := by
    rw [hpath]
    decide +kernel
  have hends : FlushEnds s cachedFiles (s.flush cachedFiles) := flushEnds s cachedFiles
  obtain ⟨houtcome, hgone⟩ := hends.torn hpoison hfile
  refine ⟨hstart, s, .single (.populate ..), hfile, houtcome, hgone, fun hwhole => ?_⟩
  rcases hends.isWhole_iff.mp hwhole with hclean | hno
  · rw [hpoison] at hclean
    cases hclean
  · exact hno _ hfile

end RepoSelect.Service
