import RepoSelect.Proofs.Cache.Outcome
import RepoSelect.Proofs.Service.Labels
import RepoSelect.Proofs.Service.Outcome

/-!
# Services that share a cache

What one service fetched, another one of the same configuration finds in the cache:

> a service that is filled from the cache before it expires holds the catalog and the labels that
> were held when the cache was written, asks no provider, and selects the same (`populate_again`).

The file is all that goes from the one to the other, so it does not matter what else has happened
to the files, nor which providers the second service knows. A clock that was put back counts as no
time at all.
-/

namespace RepoSelect

theorem CacheRecord.not_lt_ageAt {r : CacheRecord} {now : Timestamp} {ttl : Duration}
    (h : now.nanosSince r.updatedAt ≤ ttl.nanos) : ¬ttl < r.ageAt now := by
  intro hlt
  have hnanos : ttl.nanos < (now.nanosSince r.updatedAt).toNat := hlt
  omega

namespace Service

variable {s s' : Service} {g : ProviderRegistry} {t u : FileTree} {clock clock' : Clock}
  {refresh : Bool} {catalog : Catalog} {draft place : FileTree.Place}

/-- A service that holds nothing takes a record that is not too old. -/
theorem populate_of_load (s : Service) (t : FileTree) (clock : Clock) {r : CacheRecord}
    (hclean : s.isPoisoned = false) (hempty : s.held.repositories.isEmpty = true)
    (hload : Cache.load t s.cachePath s.ttl clock.now = .ok r) :
    (s.populate false t clock).outcome = .ok .cache
      ∧ (s.populate false t clock).service = s.withCatalog r.repositories
      ∧ (s.populate false t clock).files = t ∧ (s.populate false t clock).asked = [] := by
  have hcached : Populates .sound s t clock false _ _ _ _ := .cached hclean rfl hempty hload
  obtain ⟨log, hreport⟩ := hcached.report_eq
  rw [populate, hreport]
  exact ⟨rfl, rfl, rfl, rfl⟩

/-- The providers fill a service if the fetch succeeds and the record can be saved. -/
theorem populate_of_ready (hclean : s.isPoisoned = false)
    (hask : s.AsksProviders t clock refresh) (hfetch : (s.fetch t clock).answer = .ok catalog)
    (hready : Cache.Ready t s.cachePath draft place) :
    (s.populate refresh t clock).outcome = .ok .provider := by
  have hsave := hready.save_eq ⟨clock.now, catalog⟩
  have hsaved : Populates .sound s t clock refresh _ _ _ _ := .saved hclean hask hfetch hsave
  obtain ⟨log, hreport⟩ := hsaved.report_eq
  rw [populate, hreport]

theorem Populates.clean {disk : Disk} {origin : Origin} {asked : List String}
    (h : Populates disk s t clock refresh (.ok origin) s' u asked) : s.isPoisoned = false := by
  cases h with
  | loaded hclean => exact hclean
  | cached hclean => exact hclean
  | saved hclean => exact hclean

theorem select_withCatalog (hclean : s.isPoisoned = false) (catalog : Catalog)
    (tokens : List String) :
    (s.withCatalog catalog).select tokens = .ok (s.config.filter.toFilter.evaluate tokens
      (.build catalog s.config.aliases s.config.filter.superset)) := by
  have hview : (s.withCatalog catalog).view = .ok (s.holding catalog) := by
    rw [view, if_neg]
    · rfl
    · exact Bool.eq_false_iff.mp hclean
  rw [select_eq, hview]
  rfl

/-- **Services that share a cache hold the same.** If a service was filled by its providers, then
any service of the same configuration and cache path that is filled while the record is not older
than the limit, and finds at the path what the first one left there, is filled from the cache: it
asks no provider, holds the same catalog and labels, and selects the same. -/
theorem populate_again (hprovider : (s.populate refresh t clock).outcome = .ok .provider)
    (hkept : u.lookup s.cachePath = (s.populate refresh t clock).files.lookup s.cachePath)
    (hstart : start s.config g s.cachePath = .ok s')
    (hage : clock'.now.nanosSince clock.now ≤ s.ttl.nanos) :
    let first := (s.populate refresh t clock).service
    let report := s'.populate false u clock'
    report.outcome = .ok .cache ∧ report.asked = [] ∧ report.files = u
      ∧ report.service.held = first.held
      ∧ ∀ tokens, ∃ names, first.select tokens = .ok names
          ∧ report.service.select tokens = .ok names := by
  intro first report
  have hpopulates := populate_populates s refresh t clock
  rw [hprovider] at hpopulates
  have hclean := hpopulates.clean
  obtain ⟨catalog, -, hfirst, hread⟩ := hpopulates.of_provider
  have hload : Cache.load u s.cachePath s.ttl clock'.now = .ok ⟨clock.now, catalog⟩ := by
    rw [Cache.load_eq_ok, Cache.read_congr hkept, hread]
    exact ⟨rfl, CacheRecord.not_lt_ageAt hage⟩
  obtain rfl := start_eq_ok hstart
  obtain ⟨houtcome, hservice, hfiles, hasked⟩ :=
    populate_of_load { config := s.config, cachePath := s.cachePath, registry := g } u clock'
      rfl rfl hload
  change first = _ at hfirst
  change report.service = _ at hservice
  refine ⟨houtcome, hasked, hfiles, ?_, fun tokens => ?_⟩
  · rw [hservice, hfirst]
    rfl
  · rw [hservice, hfirst]
    exact ⟨_, select_withCatalog hclean catalog tokens, select_withCatalog rfl catalog tokens⟩

/-- A service whose provider lists a repository with all kinds of characters in its texts. -/
def lister : Service where
  config := { provider := "mock", projects := ["platform"] }
  cachePath := "c.json"
  registry := ProviderRegistry.empty.register "mock" fun _ =>
    .ok { name := "mock", list := fun _ => { answer := .ok [Cache.sampleRepository] } }

/-- What its provider lists. -/
def listed : Catalog :=
  (∅ : Catalog).insert Cache.sampleRepository.name
    { Cache.sampleRepository with project := "platform" }

theorem listed_isEmpty : listed.isEmpty = false := by
  simp [listed]

theorem lister_fetch : (lister.fetch {} ⟨.epoch, .zero, {}⟩).answer = .ok listed := by
  decide +kernel

theorem lister_read : Cache.read {} lister.cachePath = .error (.cacheMissing "c.json") := by
  have hmissing : ({} : FileTree).lookup "c.json" = .error .notFound := by decide +kernel
  show Cache.read {} "c.json" = _
  rw [Cache.read, hmissing]

theorem lister_load (now : Instant) :
    Cache.load {} lister.cachePath lister.ttl now = .error (.cacheMissing "c.json") := by
  rw [Cache.load, lister_read]
  rfl

/-- A second service finds what was listed in a leap second, by a clock that shows 1970. -/
theorem populate_lister_again :
    let clock : Clock := ⟨⟨Cache.sampleStamp, by decide⟩, .zero, {}⟩
    let report := lister.populate true {} clock
    let s' : Service :=
      { config := lister.config, cachePath := "c.json", registry := lister.registry }
    let report' := s'.populate false report.files ⟨.epoch, .zero, {}⟩
    report'.outcome = .ok .cache ∧ report'.asked = []
      ∧ report'.service.held = report.service.held := by
  intro clock report s' report'
  have hfetch : (lister.fetch {} clock).answer
      = .ok ((∅ : Catalog).insert Cache.sampleRepository.name
          { Cache.sampleRepository with project := "platform" }) := by
    decide +kernel
  have hprovider : report.outcome = .ok .provider :=
    populate_of_ready rfl (.inl rfl) hfetch Cache.ready_empty
  have hfault : lister.config.fault? = none := by decide +kernel
  have hensure : lister.registry.ensure "mock" = .ok () := by
    simp [lister, ProviderRegistry.ensure, ProviderRegistry.contains, ProviderRegistry.register]
  have hstart : start lister.config lister.registry "c.json" = .ok s' := by
    rw [start, Config.check, hfault]
    show (lister.registry.ensure "mock" >>= _) = _
    rw [hensure]
    rfl
  have hage : (⟨.epoch, .zero, {}⟩ : Clock).now.nanosSince clock.now ≤ lister.ttl.nanos := by
    decide +kernel
  obtain ⟨houtcome, hasked, -, hheld, -⟩ :=
    populate_again (u := report.files) hprovider rfl hstart hage
  exact ⟨houtcome, hasked, hheld⟩

end Service

end RepoSelect
