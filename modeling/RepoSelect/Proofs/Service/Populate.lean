import RepoSelect.Proofs.Cache.Load
import RepoSelect.Service.Populate

/-!
# How filling a service can end

Every way in which a service can be filled or fail to be filled, one constructor for each
(`Populates`), with what was found on the way there and what is left behind: the outcome, the
service, the files and the projects that were asked. `populate_populates` says that there are no
others. Proofs about filling take the cases from here and do not unfold the program.

What is left behind differs in two places only. A fetch that breaks down poisons the service,
and a catalog that was fetched is held whether or not it could be cached (`saved`, `unsaved`). Only
these two depend on the disk that the cache is written to.
-/

namespace RepoSelect.Service

/-- The service with another catalog and the labels that follow from it. -/
def withCatalog (s : Service) (catalog : Catalog) : Service :=
  { s with held := s.holding catalog }

/-- The providers have to be asked: a refresh is wanted, or nothing is held and nothing usable
is cached. -/
def AsksProviders (s : Service) (t : FileTree) (clock : Clock) (refresh : Bool) : Prop :=
  refresh = true ∨ (s.held.repositories.isEmpty = true
    ∧ ∃ failure, Cache.load t s.cachePath s.ttl clock.now = .error failure)

inductive Populates (disk : Disk) (s : Service) (t : FileTree) (clock : Clock) (refresh : Bool) :
    Except Mishap Origin → Service → FileTree → List String → Prop
  | poisoned (hpoison : s.isPoisoned = true) :
      Populates disk s t clock refresh (.error (.failed poisoned)) s t []
  | loaded (hclean : s.isPoisoned = false) (hkeep : refresh = false)
      (hfull : s.held.repositories.isEmpty = false) :
      Populates disk s t clock refresh (.ok .alreadyLoaded) s t []
  | cached {r : CacheRecord} (hclean : s.isPoisoned = false) (hkeep : refresh = false)
      (hempty : s.held.repositories.isEmpty = true)
      (hload : Cache.load t s.cachePath s.ttl clock.now = .ok r) :
      Populates disk s t clock refresh (.ok .cache) (s.withCatalog r.repositories) t []
  | brokeDown (hclean : s.isPoisoned = false) (hask : s.AsksProviders t clock refresh)
      (hfetch : (s.fetch t clock).answer = .error .brokeDown) :
      Populates disk s t clock refresh (.error .brokeDown) { s with isPoisoned := true } t
        (s.fetch t clock).asked
  | failed {failure : Failure} (hclean : s.isPoisoned = false)
      (hask : s.AsksProviders t clock refresh)
      (hfetch : (s.fetch t clock).answer = .error (.failed failure)) :
      Populates disk s t clock refresh (.error (.failed failure)) s t (s.fetch t clock).asked
  | saved {catalog : Catalog} {t' : FileTree} (hclean : s.isPoisoned = false)
      (hask : s.AsksProviders t clock refresh) (hfetch : (s.fetch t clock).answer = .ok catalog)
      (hsave : Cache.saveOn disk s.cachePath ⟨clock.now, catalog⟩ t = .ok () t') :
      Populates disk s t clock refresh (.ok .provider) (s.withCatalog catalog) t'
        (s.fetch t clock).asked
  | unsaved {catalog : Catalog} {failure : Failure} {t' : FileTree}
      (hclean : s.isPoisoned = false) (hask : s.AsksProviders t clock refresh)
      (hfetch : (s.fetch t clock).answer = .ok catalog)
      (hsave : Cache.saveOn disk s.cachePath ⟨clock.now, catalog⟩ t = .error failure t') :
      Populates disk s t clock refresh (.error (.failed failure)) (s.withCatalog catalog) t'
        (s.fetch t clock).asked

variable {disk : Disk} {s : Service} {t : FileTree} {clock : Clock} {refresh : Bool}

theorem populateFromProviders_populates (hclean : s.isPoisoned = false)
    (hask : s.AsksProviders t clock refresh) (log : List Log.Message) :
    Populates disk s t clock refresh (s.populateFromProviders disk t clock log).outcome
      (s.populateFromProviders disk t clock log).service
      (s.populateFromProviders disk t clock log).files
      (s.populateFromProviders disk t clock log).asked := by
  cases hfetch : (s.fetch t clock).answer with
  | error mishap =>
    cases mishap with
    | brokeDown =>
      simp only [populateFromProviders, hfetch]
      exact .brokeDown hclean hask hfetch
    | failed failure =>
      simp only [populateFromProviders, hfetch]
      exact .failed hclean hask hfetch
  | ok catalog =>
    cases hsave : Cache.saveOn disk s.cachePath ⟨clock.now, catalog⟩ t with
    | ok done t' =>
      simp only [populateFromProviders, hfetch, hsave]
      exact .saved hclean hask hfetch hsave
    | error failure t' =>
      simp only [populateFromProviders, hfetch, hsave]
      exact .unsaved hclean hask hfetch hsave

theorem populateOn_populates (disk : Disk) (s : Service) (refresh : Bool) (t : FileTree)
    (clock : Clock) : Populates disk s t clock refresh (s.populateOn disk refresh t clock).outcome
      (s.populateOn disk refresh t clock).service (s.populateOn disk refresh t clock).files
      (s.populateOn disk refresh t clock).asked := by
  cases hpoison : s.isPoisoned with
  | true =>
    rw [populateOn, if_pos hpoison]
    exact .poisoned hpoison
  | false =>
    cases refresh with
    | true =>
      rw [populateOn, if_neg (by simp [hpoison]), if_pos rfl]
      exact populateFromProviders_populates hpoison (.inl rfl) _
    | false =>
      rw [populateOn, if_neg (by simp [hpoison]), if_neg (by simp)]
      cases hempty : s.held.repositories.isEmpty with
      | false => exact .loaded hpoison rfl hempty
      | true =>
        cases hload : Cache.load t s.cachePath s.ttl clock.now with
        | ok r => exact .cached hpoison rfl hempty hload
        | error failure =>
          have hmiss := Cache.isCacheMiss_of_load hload
          simp only [Bool.not_true, Bool.false_eq_true, if_false, hmiss, if_true]
          exact populateFromProviders_populates hpoison (.inr ⟨hempty, failure, hload⟩) _

theorem populate_populates (s : Service) (refresh : Bool) (t : FileTree) (clock : Clock) :
    Populates .sound s t clock refresh (s.populate refresh t clock).outcome
      (s.populate refresh t clock).service (s.populate refresh t clock).files
      (s.populate refresh t clock).asked :=
  populateOn_populates .sound s refresh t clock

/-- If the providers have to be asked, they are; only what is logged hangs on the reason. -/
theorem populate_of_asks (disk : Disk) (hclean : s.isPoisoned = false)
    (hask : s.AsksProviders t clock refresh) :
    ∃ log, s.populateOn disk refresh t clock = s.populateFromProviders disk t clock log := by
  unfold populateOn
  rw [if_neg (Bool.eq_false_iff.mp hclean)]
  rcases hask with rfl | ⟨hempty, failure, hload⟩
  · exact ⟨_, if_pos rfl⟩
  · cases refresh with
    | true => exact ⟨_, if_pos rfl⟩
    | false =>
      rw [if_neg Bool.false_ne_true, if_neg (by rw [hempty]; exact Bool.false_ne_true), hload]
      exact ⟨_, if_pos (Cache.isCacheMiss_of_load hload)⟩

/-- What was found on the way decides how a service is filled. -/
theorem Populates.report_eq {outcome : Except Mishap Origin} {s' : Service} {t' : FileTree}
    {asked : List String} (h : Populates disk s t clock refresh outcome s' t' asked) :
    ∃ log, s.populateOn disk refresh t clock = ⟨outcome, s', t', log, asked⟩ := by
  cases h with
  | poisoned hpoison => exact ⟨_, if_pos hpoison⟩
  | loaded hclean hkeep hfull =>
    simp only [populateOn, hclean, hkeep, hfull, Bool.false_eq_true, if_false, Bool.not_false,
      if_true]
    exact ⟨_, rfl⟩
  | cached hclean hkeep hempty hload =>
    rw [populateOn, if_neg (Bool.eq_false_iff.mp hclean),
      if_neg (by rw [hkeep]; exact Bool.false_ne_true),
      if_neg (by rw [hempty]; exact Bool.false_ne_true), hload]
    exact ⟨_, rfl⟩
  | brokeDown hclean hask hfetch =>
    obtain ⟨log, hpopulate⟩ := populate_of_asks disk hclean hask
    simp only [hpopulate, populateFromProviders, hfetch]
    exact ⟨_, rfl⟩
  | failed hclean hask hfetch =>
    obtain ⟨log, hpopulate⟩ := populate_of_asks disk hclean hask
    simp only [hpopulate, populateFromProviders, hfetch]
    exact ⟨_, rfl⟩
  | saved hclean hask hfetch hsave =>
    obtain ⟨log, hpopulate⟩ := populate_of_asks disk hclean hask
    simp only [hpopulate, populateFromProviders, hfetch, hsave]
    exact ⟨_, rfl⟩
  | unsaved hclean hask hfetch hsave =>
    obtain ⟨log, hpopulate⟩ := populate_of_asks disk hclean hask
    simp only [hpopulate, populateFromProviders, hfetch, hsave]
    exact ⟨_, rfl⟩

end RepoSelect.Service
