import RepoSelect.Proofs.Cache.Overwrite
import RepoSelect.Proofs.Service.Reload

/-!
# What the cache file does not decide

A service is filled in two trees that differ in nothing but the cache file, at two times, on disks
that take equally much. Unless it takes its catalog from the file, the file makes no difference:

> A refresh ends alike whatever the file holds, and so does filling an empty service if neither
> file has a record that is young enough. A file that cannot be used never is the reason why a
> service is not filled (`populate_indifferent`).

Only a call that fails shows what was in the file, since it leaves it there. And where several
projects fail, it is up to the race between them which one a call fails with
(`unfilled_keeps_file`).
-/

namespace RepoSelect.Service

open FileTree

variable {disk : Disk} {s : Service} {t u : FileTree} {place : Place} {clock clock' : Clock}
  {refresh : Bool} {now : Instant} {mishap mishap' : Mishap}

/-! ## Providers that do not look at the file -/

/-- Every provider that the service can ask lists the same in both trees. -/
def ListsAlike (s : Service) (t u : FileTree) : Prop :=
  ∀ settings provider, s.registry.create s.config.provider settings = .ok provider →
    provider.list u = provider.list t

/-- What the providers list does not depend on the cache file. -/
def IgnoresCache (s : Service) : Prop :=
  ∀ place t u, Cache.SameButFile s.cachePath place t u → s.ListsAlike t u

theorem listProject_congr (halike : s.ListsAlike t u) (hlag : clock'.lag = clock.lag)
    (project : String) : s.listProject u clock' project = s.listProject t clock project := by
  unfold listProject
  rw [hlag]
  dsimp only
  cases timeLeft s.config.fetchTimeout clock.lag project with
  | error failure => rfl
  | ok timeout =>
    simp only [bind, Except.bind]
    cases hcreate : s.registry.create s.config.provider
        { ProviderSettings.ofConfig s.config project with timeout } with
    | error failure => rfl
    | ok provider =>
      have hmade : (Except.ok provider : Except Failure Provider).mapError (fetchFailure project)
          = .ok provider := rfl
      simp only [hmade, halike _ _ hcreate]

/-- A fetch is the same, unless it is decided by the race. -/
theorem fetch_congr (halike : s.ListsAlike t u) (hlag : clock'.lag = clock.lag)
    (hrace : clock'.race = clock.race) : s.fetch u clock' = s.fetch t clock := by
  have hattempts : s.attemptAll u clock' = s.attemptAll t clock :=
    List.map_congr_left fun project _ => listProject_congr halike hlag project
  rw [fetch, fetch, hrace, hattempts]

theorem ListsAlike.symm (halike : s.ListsAlike t u) : s.ListsAlike u t :=
  fun settings provider hcreate => (halike settings provider hcreate).symm

theorem Fetches.congr {catalog : Catalog} (halike : s.ListsAlike t u)
    (hlag : clock'.lag = clock.lag) (h : s.Fetches t clock catalog) :
    s.Fetches u clock' catalog := by
  obtain ⟨listed, hprojects, hlists, hcatalog⟩ := h
  refine ⟨listed, hprojects, fun p hp => ?_, hcatalog⟩
  rw [listProject_congr halike hlag]
  exact hlists p hp

theorem Misses.congr (halike : s.ListsAlike t u) (hlag : clock'.lag = clock.lag)
    (h : s.Misses t clock mishap) : s.Misses u clock' mishap := by
  obtain ⟨project, hproject, hanswer⟩ := h
  refine ⟨project, hproject, ?_⟩
  rw [listProject_congr halike hlag]
  exact hanswer

/-! ## Two calls -/

/-- The file has no record, or one that is too old. -/
def Stale (s : Service) (t : FileTree) (now : Instant) : Prop :=
  ∀ r, Cache.read t s.cachePath = .ok r → s.ttl < r.ageAt now

theorem stale_of_lookup {fault : IoFault} (h : t.lookup s.cachePath = .error fault) :
    s.Stale t now := by
  intro r hread
  rw [Cache.read, h] at hread
  cases hread

/-- Two calls come to the same or, if the projects fail for several reasons and the races differ,
each to one of these. -/
inductive ComeAlike (s : Service) (t : FileTree) (clock clock' : Clock)
    (report report' : Report Origin) : Prop
  | same (houtcome : report'.outcome = report.outcome)
      (hservice : report'.service = report.service) :
      ComeAlike s t clock clock' report report'
  | raced {mishap mishap' : Mishap} (hrace : clock'.race ≠ clock.race) (hne : mishap' ≠ mishap)
      (houtcome : report.outcome = .error mishap) (hmisses : s.Misses t clock mishap)
      (houtcome' : report'.outcome = .error mishap') (hmisses' : s.Misses t clock mishap') :
      ComeAlike s t clock clock' report report'

/-- How filling a service ends in two trees that differ in the cache file: alike, and holding the
same. The files have the same repositories, with the time of each call, if the providers filled the
service. If not, they are left as they were, or with what the disk has taken of the drafts of two
records that only differ in the time. -/
structure EndAlike (disk : Disk) (s : Service) (place : Place) (t u : FileTree)
    (clock clock' : Clock) (report report' : Report Origin) : Prop where
  comeAlike : s.ComeAlike t clock clock' report report'
  held_eq : report'.service.held = report.service.held
  asked_eq {catalog : Catalog} (h : s.Fetches t clock catalog) : report'.asked = report.asked
  others_eq (other : Place) (hne : other ≠ place)
    (hdraft : other = t.endOf (Cache.draftPath s.cachePath) → disk = .sound) :
    report'.files.at? other = report.files.at? other
  cached (h : report.outcome = .ok .provider) : ∃ catalog,
    report.service = s.withCatalog catalog
      ∧ Cache.read report.files s.cachePath = .ok ⟨clock.now, catalog⟩
      ∧ Cache.read report'.files s.cachePath = .ok ⟨clock'.now, catalog⟩
  kept (h : report.outcome ≠ .ok .provider) : report.files = t ∧ report'.files = u
    ∨ ∃ catalog draft e e', s.Fetches t clock catalog
      ∧ t.resolve (Cache.draftPath s.cachePath) = .ok (.named draft false)
      ∧ Cache.leftover disk ⟨clock.now, catalog⟩ = some e
      ∧ Cache.leftover disk ⟨clock'.now, catalog⟩ = some e'
      ∧ report.files = t.put draft e ∧ report'.files = u.put draft e'

theorem endAlike_of_untouched (hsame : Cache.SameButFile s.cachePath place t u)
    {report report' : Report Origin} (halike : s.ComeAlike t clock clock' report report')
    (hheld : report'.service.held = report.service.held)
    (hasked : ∀ catalog, s.Fetches t clock catalog → report'.asked = report.asked)
    (hfiles : report.files = t) (hfiles' : report'.files = u)
    (hunfilled : report.outcome ≠ .ok .provider) :
    s.EndAlike disk place t u clock clock' report report' := by
  refine ⟨halike, hheld, hasked _, fun other hne _ => ?_, fun h => absurd h hunfilled,
    fun _ => .inl ⟨hfiles, hfiles'⟩⟩
  rw [hfiles, hfiles', hsame.at?_eq hne]

/-- The service behind a fetch that failed. -/
def struck (s : Service) : Mishap → Service
  | .brokeDown => { s with isPoisoned := true }
  | .failed _ => s

theorem struck_held (s : Service) (mishap : Mishap) : (s.struck mishap).held = s.held := by
  cases mishap <;> rfl

theorem populateFromProviders_of_mishap (h : (s.fetch t clock).answer = .error mishap)
    (disk : Disk) (log : List Log.Message) : s.populateFromProviders disk t clock log
      = ⟨.error mishap, s.struck mishap, t, log ++ (s.fetch t clock).log,
          (s.fetch t clock).asked⟩ := by
  cases mishap <;> simp only [populateFromProviders, h, struck]

theorem populateOn_of_mishap (hclean : s.isPoisoned = false)
    (hask : s.AsksProviders t clock refresh) (h : (s.fetch t clock).answer = .error mishap)
    (disk : Disk) : (s.populateOn disk refresh t clock).outcome = .error mishap
      ∧ (s.populateOn disk refresh t clock).files = t := by
  obtain ⟨log, hlog⟩ := populate_of_asks disk hclean hask
  rw [hlog, populateFromProviders_of_mishap h]
  exact ⟨rfl, rfl⟩

/-- Calls that the providers are asked in end alike, whatever is logged. -/
theorem populateFromProviders_endAlike (hsame : Cache.SameButFile s.cachePath place t u)
    (halike : s.ListsAlike t u) (hlag : clock'.lag = clock.lag) (disk : Disk)
    (log log' : List Log.Message) :
    s.EndAlike disk place t u clock clock' (s.populateFromProviders disk t clock log)
      (s.populateFromProviders disk u clock' log') := by
  cases hanswer : (s.fetch t clock).answer with
  | error mishap =>
    have hunfetched (catalog : Catalog) : ¬ s.Fetches t clock catalog := by
      intro hfetches
      rw [fetch_answer_eq_ok.mpr hfetches] at hanswer
      cases hanswer
    cases hanswer' : (s.fetch u clock').answer with
    | ok catalog =>
      have hback := (fetch_answer_eq_ok.mp hanswer').congr halike.symm hlag.symm
      exact absurd hback (hunfetched catalog)
    | error mishap' =>
      rw [populateFromProviders_of_mishap hanswer, populateFromProviders_of_mishap hanswer']
      refine endAlike_of_untouched hsame ?_ (by rw [struck_held, struck_held])
        (fun catalog hfetches => absurd hfetches (hunfetched catalog)) rfl rfl (by simp)
      by_cases heq : mishap' = mishap
      · subst heq
        exact .same rfl rfl
      · have hmisses' := (misses_of_fetch hanswer').congr halike.symm hlag.symm
        refine .raced ?_ heq rfl (misses_of_fetch hanswer) rfl hmisses'
        intro hrace
        rw [fetch_congr halike hlag hrace, hanswer] at hanswer'
        exact heq (Except.error.inj hanswer').symm
  | ok catalog =>
    have hfetches := fetch_answer_eq_ok.mp hanswer
    have hfetches' := hfetches.congr halike hlag
    have hanswer' := fetch_answer_eq_ok.mpr hfetches'
    have hasked : (s.fetch u clock').asked = (s.fetch t clock).asked := by
      rw [asked_of_fetches hfetches, asked_of_fetches hfetches']
    rcases hsame.saveOn_cases disk ⟨clock.now, catalog⟩ ⟨clock'.now, catalog⟩ with
      ⟨v, w, hv, hw, hafter⟩ | ⟨fault, v, w, hv, hw, hleft⟩
    · have hread := Cache.read_of_saved hv
      have hread' := Cache.read_of_saved hw
      rw [CacheRecord.asWritten_mk_coe] at hread hread'
      simp only [populateFromProviders, hanswer, hanswer', hv, hw]
      exact ⟨.same rfl rfl, rfl, fun _ => hasked, fun other hne _ => hafter other hne,
        fun _ => ⟨catalog, rfl, hread, hread'⟩, fun h => absurd rfl h⟩
    · simp only [populateFromProviders, hanswer, hanswer', hv, hw]
      refine ⟨.same rfl rfl, rfl, fun _ => hasked, fun other hne hdraft => ?_, by simp, fun _ => ?_⟩
      · rcases hleft with ⟨rfl, rfl⟩ | ⟨draft, e, e', hresolve, hleft, -, rfl, rfl⟩
        · exact hsame.at?_eq hne
        · have hother : draft ≠ other := by
            rintro rfl
            rw [hdraft (place_of_resolve hresolve)] at hleft
            cases hleft
          have hnil := ne_nil_of_resolve hresolve
          simp only [at?_put _ _ _ hnil, if_neg hother, hsame.at?_eq hne]
      · rcases hleft with huntouched | ⟨draft, e, e', hends⟩
        · exact .inl huntouched
        · exact .inr ⟨catalog, draft, e, e', hfetches, hends⟩

theorem populateOn_endAlike (hsame : Cache.SameButFile s.cachePath place t u)
    (halike : s.ListsAlike t u) (hlag : clock'.lag = clock.lag)
    (hask : s.AsksProviders t clock refresh) (hask' : s.AsksProviders u clock' refresh)
    (disk : Disk) : s.EndAlike disk place t u clock clock' (s.populateOn disk refresh t clock)
      (s.populateOn disk refresh u clock') := by
  cases hpoison : s.isPoisoned with
  | true =>
    rw [populateOn, populateOn, if_pos hpoison, if_pos hpoison]
    exact endAlike_of_untouched hsame (.same rfl rfl) rfl (fun _ _ => rfl) rfl rfl (by simp)
  | false =>
    obtain ⟨log, hlog⟩ := populate_of_asks disk hpoison hask
    obtain ⟨log', hlog'⟩ := populate_of_asks disk hpoison hask'
    rw [hlog, hlog']
    exact populateFromProviders_endAlike hsame halike hlag disk log log'

theorem asksProviders_of_stale (hempty : s.held.repositories.isEmpty = true)
    (hstale : s.Stale t clock.now) : s.AsksProviders t clock refresh := by
  refine .inr ⟨hempty, ?_⟩
  cases hload : Cache.load t s.cachePath s.ttl clock.now with
  | error failure => exact ⟨failure, rfl⟩
  | ok r =>
    obtain ⟨hread, hage⟩ := Cache.load_eq_ok.mp hload
    exact absurd (hstale r hread) hage

/-- All that a call that fills a service can fail with. -/
theorem Populates.failure_cases {s' : Service} {t' : FileTree} {asked : List String} {f : Failure}
    (h : Populates disk s t clock refresh (.error (.failed f)) s' t' asked) :
    f = Service.poisoned ∨ (∃ project message, f = .providerFetch project message)
      ∨ ∃ fault, f = .cacheWrite s.cachePath fault := by
  cases h with
  | poisoned => exact .inl rfl
  | failed hclean hask hfetch => exact .inr (.inl (fetch_failed hfetch))
  | unsaved hclean hask hfetch hsave => exact .inr (.inr (Cache.failure_of_unsaved hsave))

/-- **The cache file makes no difference** to a service whose providers ignore it: to a refresh,
whatever the two files hold, if any, and to filling an empty service, if neither has a record that
is young enough. Nor can filling any service fail because of what is at the cache path. -/
theorem populate_indifferent (disk : Disk) (s : Service) :
    (s.IgnoresCache → ∀ place t u, Cache.SameButFile s.cachePath place t u →
        ∀ clock clock' : Clock, clock'.lag = clock.lag →
          s.EndAlike disk place t u clock clock' (s.populateOn disk true t clock)
              (s.populateOn disk true u clock')
            ∧ (s.held.repositories.isEmpty = true → s.Stale t clock.now → s.Stale u clock'.now →
                s.EndAlike disk place t u clock clock' (s.populateOn disk false t clock)
                  (s.populateOn disk false u clock')))
      ∧ ∀ refresh t clock f, (s.populateOn disk refresh t clock).outcome = .error (.failed f) →
          f = Service.poisoned ∨ (∃ project message, f = .providerFetch project message)
            ∨ ∃ fault, f = .cacheWrite s.cachePath fault := by
  constructor
  · intro hignores place t u hsame clock clock' hlag
    have halike := hignores place t u hsame
    constructor
    · exact populateOn_endAlike hsame halike hlag (.inl rfl) (.inl rfl) disk
    · intro hempty hstale hstale'
      exact populateOn_endAlike hsame halike hlag (asksProviders_of_stale hempty hstale)
        (asksProviders_of_stale hempty hstale') disk
  · intro refresh t clock f houtcome
    have hpopulates := populateOn_populates disk s refresh t clock
    rw [houtcome] at hpopulates
    exact hpopulates.failure_cases

/-! ## A file that cannot be used -/

/-- A cache file that is no record. -/
def garbledFiles : FileTree := ({} : FileTree).put ["c.json"] (.file "garbage".toUTF8)

theorem garbledFiles_sameButFile : Cache.SameButFile "c.json" ["c.json"] garbledFiles {} where
  workingDirectory_eq := rfl
  resolve_eq := by decide +kernel
  free := by decide +kernel
  free' := by decide +kernel
  at?_eq hne := by rw [garbledFiles, at?_put _ _ _ (List.cons_ne_nil _ _), if_neg hne.symm]

theorem garbledFiles_stale (hpath : s.cachePath = "c.json") : s.Stale garbledFiles now := by
  intro r hread
  have hunread : (Cache.read garbledFiles "c.json").toBool = false := by decide +kernel
  rw [hpath] at hread
  rw [hread] at hunread
  cases hunread

theorem empty_stale (hpath : s.cachePath = "c.json") : s.Stale {} now := by
  have hmissing : ({} : FileTree).lookup "c.json" = .error .notFound := by decide +kernel
  exact stale_of_lookup (hpath ▸ hmissing)

theorem lister_ignoresCache : lister.IgnoresCache := by
  intro place t u _ settings provider hcreate
  rw [show lister.registry.create lister.config.provider settings = _ from
    ProviderRegistry.create_register _ _ _ settings] at hcreate
  rw [← Except.ok.inj hcreate]

/-- What is cached over a file that is no record is what is cached where there was no file. -/
theorem populate_lister_over_garbage :
    let report := lister.populate false garbledFiles ⟨.epoch, .zero, {}⟩
    report.outcome = .ok .provider ∧ ∃ catalog, report.service = lister.withCatalog catalog
      ∧ Cache.read report.files "c.json" = .ok ⟨Instant.epoch, catalog⟩ := by
  intro report
  have hend : lister.EndAlike .sound ["c.json"] garbledFiles {} ⟨.epoch, .zero, {}⟩
      ⟨.epoch, .zero, {}⟩ report (lister.populate false {} ⟨.epoch, .zero, {}⟩) :=
    ((populate_indifferent .sound lister).1 lister_ignoresCache _ _ _ garbledFiles_sameButFile
      _ _ rfl).2 rfl (garbledFiles_stale rfl) (empty_stale rfl)
  have hfilled : (lister.populate false {} ⟨.epoch, .zero, {}⟩).outcome = .ok .provider :=
    populate_of_ready rfl (asksProviders_of_stale rfl (empty_stale rfl)) lister_fetch
      Cache.ready_empty
  have houtcome : report.outcome = .ok .provider := by
    cases hend.comeAlike with
    | same houtcome => rw [← houtcome, hfilled]
    | raced hrace => exact absurd rfl hrace
  obtain ⟨catalog, hservice, hread, -⟩ := hend.cached houtcome
  exact ⟨houtcome, catalog, hservice, hread⟩

/-- A service of two projects whose providers cannot be made. -/
def stranded : Service where
  config := { provider := "mock", projects := ["platform", "tools"] }
  cachePath := "c.json"
  registry := providerless.registry

theorem stranded_ignoresCache : stranded.IgnoresCache := by
  intro place t u _ settings provider hcreate
  rw [show stranded.registry.create stranded.config.provider settings = _ from
    ProviderRegistry.create_register _ _ _ settings] at hcreate
  cases hcreate

/-- What the service fails with if this project is heard. -/
def strandedBy (project : String) : Mishap :=
  .failed (.providerFetch project (Failure.unsupported "mock" "lists").message)

theorem stranded_unfilled (h : (stranded.fetch t clock).answer = .error mishap)
    (hstale : stranded.Stale t clock.now) (refresh : Bool) :
    (stranded.populate refresh t clock).outcome = .error mishap
      ∧ (stranded.populate refresh t clock).files = t :=
  populateOn_of_mishap rfl (asksProviders_of_stale rfl hstale) h .sound

/-- A call that fails leaves the file there, and no file where there was none. If the other project
is heard, it fails with another failure. -/
theorem unfilled_keeps_file :
    let report := stranded.populate false garbledFiles ⟨.epoch, .zero, {}⟩
    let report' := stranded.populate false {} ⟨.epoch, .zero, {}⟩
    stranded.IgnoresCache ∧ Cache.SameButFile stranded.cachePath ["c.json"] garbledFiles {}
      ∧ stranded.held.repositories.isEmpty = true ∧ stranded.Stale garbledFiles .epoch
      ∧ report.outcome = report'.outcome
      ∧ report.files.lookup stranded.cachePath = .ok (.file "garbage".toUTF8)
      ∧ report'.files.lookup stranded.cachePath = .error .notFound
      ∧ ∀ refresh, (stranded.populate refresh garbledFiles ⟨.epoch, .zero, {}⟩).outcome
          ≠ (stranded.populate refresh {} ⟨.epoch, .zero, ⟨1, []⟩⟩).outcome := by
  intro report report'
  have hstale : stranded.Stale garbledFiles .epoch := garbledFiles_stale rfl
  have hstale' : stranded.Stale {} .epoch := empty_stale rfl
  have hfetch : (stranded.fetch garbledFiles ⟨.epoch, .zero, {}⟩).answer
      = .error (strandedBy "platform") := by decide +kernel
  have hfetch' : (stranded.fetch {} ⟨.epoch, .zero, {}⟩).answer
      = .error (strandedBy "platform") := by decide +kernel
  have hraced : (stranded.fetch {} ⟨.epoch, .zero, ⟨1, []⟩⟩).answer
      = .error (strandedBy "tools") := by decide +kernel
  have hends := stranded_unfilled hfetch hstale
  have hends' := stranded_unfilled hfetch' hstale'
  refine ⟨stranded_ignoresCache, garbledFiles_sameButFile, rfl, hstale,
    (hends false).1.trans (hends' false).1.symm, ?_, ?_, fun refresh => ?_⟩
  · rw [show report.files = _ from (hends false).2]
    decide +kernel
  · rw [show report'.files = _ from (hends' false).2]
    decide +kernel
  · rw [(hends refresh).1, (stranded_unfilled hraced hstale' refresh).1]
    decide +kernel

end RepoSelect.Service
