import RepoSelect.Proofs.Service.Indifference
import RepoSelect.Proofs.Service.Serialised

/-!
# A service is filled once

Any number of calls want a service filled that holds nothing, at the same time, and those that fail
may be made again.

> Once a call has found a catalog, in the cache or at the providers, all others find it held: they
> ask nobody and look at no file. The calls before it could not list some project, and changed
> nothing (`filled_once`).

It makes no difference whether the call could cache the catalog. If it could not, it returns the
failure, and the catalog is held nevertheless.
-/

namespace RepoSelect.Service

variable {ι : Type} {calls : ι → Call} {s : Service} {t : FileTree} {g : ProviderRegistry}
  {clock : Clock} {catalog : Catalog} {p q : Shared} {h answers : List (ι × Answer)} {a : Answer}

/-! ## One call -/

/-- The call has found a catalog. -/
def Answer.fills (a : Answer) : Bool :=
  match a.outcome with
  | .ok (.filled .provider) | .ok (.filled .cache) | .error (.failed (.cacheWrite _ _)) => true
  | _ => false

/-- Some project could not be listed. -/
def Answer.FailsToFetch (a : Answer) : Prop :=
  ∃ project message, a.outcome = .error (.failed (.providerFetch project message))

/-- Something is held, and no project was asked for. -/
def loadedAnswer : Answer := { outcome := .ok (.filled .alreadyLoaded) }

/-- The service is poisoned, and refused to everybody. -/
def refusedAnswer : Answer := { outcome := .error (.failed poisoned) }

/-- The call finds the catalog in the cache, or else at the providers, who are asked for each
project once. -/
inductive Finds (s : Service) (t : FileTree) (g : ProviderRegistry) (clock : Clock) :
    Catalog → Answer → Prop
  | cached {r : CacheRecord} (hload : Cache.load t s.cachePath s.ttl clock.now = .ok r) :
      Finds s t g clock r.repositories { outcome := .ok (.filled .cache) }
  | saved {catalog : Catalog} (hfetch : (s.knowing g).Fetches t clock catalog) :
      Finds s t g clock catalog ⟨.ok (.filled .provider), s.config.projects⟩
  | unsaved {catalog : Catalog} {fault : IoFault} (hfetch : (s.knowing g).Fetches t clock catalog) :
      Finds s t g clock catalog
        ⟨.error (.failed (.cacheWrite s.cachePath fault)), s.config.projects⟩

theorem Finds.fills (h : Finds s t g clock catalog a) : a.fills = true := by
  cases h <;> rfl

theorem Answer.FailsToFetch.fills (h : a.FailsToFetch) : a.fills = false := by
  obtain ⟨project, message, houtcome⟩ := h
  rw [Answer.fills, houtcome]

/-- How a call ends that finds nothing held. -/
theorem serve_cases (hclean : s.isPoisoned = false) (hempty : s.held.repositories.isEmpty = true)
    (t : FileTree) (g : ProviderRegistry) (clock : Clock) :
    ∃ a q, (Call.populate false g clock).serve ⟨s, t⟩ = (a, q)
      ∧ (a.outcome = .error .brokeDown ∨ (a.FailsToFetch ∧ q = ⟨s, t⟩)
        ∨ ∃ catalog u, Finds s t g clock catalog a ∧ q = ⟨s.withCatalog catalog, u⟩) := by
  obtain ⟨outcome, s', u, asked, hpopulates⟩ : ∃ outcome s' u asked,
      Populates .sound (s.knowing g) t clock false outcome s' u asked :=
    ⟨_, _, _, _, populate_populates (s.knowing g) false t clock⟩
  refine ⟨_, _, Call.serve_of_populates hpopulates, ?_⟩
  cases hpopulates with
  | poisoned hpoison =>
    have hpoison' : s.isPoisoned = true := hpoison
    rw [hclean] at hpoison'
    cases hpoison'
  | loaded _ _ hfull =>
    have hfull' : s.held.repositories.isEmpty = false := hfull
    rw [hempty] at hfull'
    cases hfull'
  | cached _ _ _ hload => exact .inr (.inr ⟨_, _, .cached hload, rfl⟩)
  | brokeDown => exact .inl rfl
  | failed _ _ hfetch =>
    obtain ⟨project, message, rfl⟩ := fetch_failed hfetch
    exact .inr (.inl ⟨⟨project, message, rfl⟩, rfl⟩)
  | saved _ _ hfetch _ =>
    have hfetches := fetch_answer_eq_ok.mp hfetch
    rw [asked_of_fetches hfetches]
    exact .inr (.inr ⟨_, _, .saved hfetches, rfl⟩)
  | unsaved _ _ hfetch hsave =>
    have hfetches := fetch_answer_eq_ok.mp hfetch
    obtain ⟨fault, rfl⟩ := Cache.failure_of_unsaved hsave
    rw [asked_of_fetches hfetches]
    exact .inr (.inr ⟨_, _, .unsaved hfetches, rfl⟩)

theorem serve_of_full (hclean : s.isPoisoned = false)
    (hfull : s.held.repositories.isEmpty = false) (t : FileTree) (g : ProviderRegistry)
    (clock : Clock) : (Call.populate false g clock).serve ⟨s, t⟩ = (loadedAnswer, ⟨s, t⟩) := by
  have hloaded : Populates .sound (s.knowing g) t clock false _ _ _ _ := .loaded hclean rfl hfull
  exact Call.serve_of_populates hloaded

/-! ## One after the other -/

/-- If every call answers the same and leaves everything as it is, so do all of them. -/
theorem Serves.of_constant (hserves : Serves calls p h q)
    (hserve : ∀ i, (calls i).serve p = (a, p)) : q = p ∧ ∀ e ∈ h, e.2 = a := by
  induction hserves with
  | nil => exact ⟨rfl, nofun⟩
  | @cons i p q h _ ih =>
    have hhead := hserve i
    rw [hhead] at ih ⊢
    obtain ⟨rfl, hall⟩ := ih hserve
    refine ⟨rfl, fun e he => ?_⟩
    rcases List.mem_cons.mp he with rfl | he
    · rfl
    · exact hall e he

/-- What comes of calls that want a service filled that holds nothing: each of them fails and leaves
everything as it is, or one of them has found a catalog, which is held; those before it failed, and
those behind it found it held. -/
inductive FilledOnce (fillers : ι → ProviderRegistry × Clock) (s : Service) (t : FileTree) :
    List (ι × Answer) → Shared → Prop
  | never {h : List (ι × Answer)} (hfails : ∀ e ∈ h, e.2.FailsToFetch) :
      FilledOnce fillers s t h ⟨s, t⟩
  | once {before after : List (ι × Answer)} {k : ι} {a : Answer} {catalog : Catalog} {u : FileTree}
      (hbefore : ∀ e ∈ before, e.2.FailsToFetch)
      (hfinds : Finds s t (fillers k).1 (fillers k).2 catalog a)
      (hafter : ∀ e ∈ after, e.2 = loadedAnswer) :
      FilledOnce fillers s t (before ++ (k, a) :: after) ⟨s.withCatalog catalog, u⟩

/-- Calls to fill the service unless it holds something. -/
def fillCalls (fillers : ι → ProviderRegistry × Clock) (i : ι) : Call :=
  .populate false (fillers i).1 (fillers i).2

variable {fillers : ι → ProviderRegistry × Clock}

/-- If the record and what is fetched have repositories, so has the catalog that is found. -/
theorem Finds.isEmpty_eq_false (h : Finds s t g clock catalog a)
    (hrecord : ∀ r, Cache.read t s.cachePath = .ok r → r.repositories.isEmpty = false)
    (hfetch : ∀ catalog, (s.knowing g).Fetches t clock catalog → catalog.isEmpty = false) :
    catalog.isEmpty = false := by
  cases h with
  | cached hload => exact hrecord _ (Cache.load_eq_ok.mp hload).1
  | saved hfetches => exact hfetch _ hfetches
  | unsaved hfetches => exact hfetch _ hfetches

theorem filledOnce_of_serves (hclean : s.isPoisoned = false)
    (hempty : s.held.repositories.isEmpty = true)
    (hrecord : ∀ r, Cache.read t s.cachePath = .ok r → r.repositories.isEmpty = false)
    (hfetch : ∀ i catalog, (s.knowing (fillers i).1).Fetches t (fillers i).2 catalog →
      catalog.isEmpty = false)
    (hserves : Serves (fillCalls fillers) ⟨s, t⟩ h q)
    (hpanic : ∀ e ∈ h, e.2.outcome ≠ .error .brokeDown) : FilledOnce fillers s t h q := by
  generalize hstart : (⟨s, t⟩ : Shared) = start at hserves
  induction hserves with
  | nil =>
    subst hstart
    exact .never nofun
  | @cons i p q h rest ih =>
    subst hstart
    obtain ⟨a, p, hserve, hcases⟩ := serve_cases hclean hempty t (fillers i).1 (fillers i).2
    have hhead : (fillCalls fillers i).serve ⟨s, t⟩ = (a, p) := hserve
    rw [hhead] at rest ih hpanic ⊢
    have hpanic' : ∀ e ∈ h, e.2.outcome ≠ .error .brokeDown :=
      fun e he => hpanic e (List.mem_cons_of_mem _ he)
    rcases hcases with hbroke | ⟨hfails, rfl⟩ | ⟨catalog, u, hfinds, rfl⟩
    · exact absurd hbroke (hpanic _ List.mem_cons_self)
    · have hfails' : ∀ {l : List (ι × Answer)}, (∀ e ∈ l, e.2.FailsToFetch) →
          ∀ e ∈ (i, a) :: l, e.2.FailsToFetch :=
        fun hall => List.forall_mem_cons.mpr ⟨hfails, hall⟩
      cases ih hpanic' rfl with
      | never hall => exact .never (hfails' hall)
      | once hbefore hfinds hafter =>
        rw [← List.cons_append]
        exact .once (hfails' hbefore) hfinds hafter
    · have hfull := hfinds.isEmpty_eq_false hrecord (hfetch i)
      obtain ⟨rfl, hloaded⟩ := rest.of_constant
        fun j => serve_of_full (s := s.withCatalog catalog) hclean hfull u (fillers j).1
          (fillers j).2
      exact .once (List.forall_mem_nil _) hfinds hloaded

theorem filter_fills_eq_nil (h : ∀ e ∈ answers, e.2.fills = false) :
    (answers.filter fun e => e.2.fills) = [] := by
  rw [List.filter_eq_nil_iff]
  intro e he
  rw [h e he]
  exact Bool.false_ne_true

/-- At most one call has found a catalog. -/
theorem FilledOnce.length_filter_le (h : FilledOnce fillers s t answers q) :
    (answers.filter fun e => e.2.fills).length ≤ 1 := by
  cases h with
  | never hfails =>
    rw [filter_fills_eq_nil fun e he => (hfails e he).fills]
    exact Nat.zero_le 1
  | @once before after k a _ _ hbefore hfinds hafter =>
    have hloaded : ∀ e ∈ after, e.2.fills = false := by
      intro e he
      rw [hafter e he]
      rfl
    rw [List.filter_append, List.filter_cons, if_pos hfinds.fills,
      filter_fills_eq_nil fun e he => (hbefore e he).fills, filter_fills_eq_nil hloaded]
    exact Nat.le_refl 1

/-! ## The whole -/

variable [DecidableEq ι] {w : World ι}

/-- **A service is filled once**, however the calls that want it filled take turns, if what they
find has repositories. At most one call finds a catalog, in the cache or at the providers, each of
whom it asks once, and this catalog is held with its labels. The calls that were answered before it
could not list some project; those behind it, and all that may follow, find something held, ask for
no project and look at no file. -/
theorem filled_once (hempty : s.held.repositories.isEmpty = true)
    (hrecord : ∀ r, Cache.read t s.cachePath = .ok r → r.repositories.isEmpty = false)
    (hfetch : ∀ i catalog, (s.knowing (fillers i).1).Fetches t (fillers i).2 catalog →
      catalog.isEmpty = false)
    (hrun : Turns (fillCalls fillers) (.begin ⟨s, t⟩) w) (hlock : w.lock = none)
    (hpanic : ∀ e ∈ w.answers, e.2.outcome ≠ .error .brokeDown) :
    (w.answers.filter fun e => e.2.fills).length ≤ 1
      ∧ ((w.toShared = ⟨s, t⟩ ∧ ∀ e ∈ w.answers, e.2.FailsToFetch
            ∨ (s.isPoisoned = true ∧ e.2 = refusedAnswer))
        ∨ ∃ before k a after catalog, w.answers = before ++ (k, a) :: after
            ∧ (∀ e ∈ before, e.2.FailsToFetch)
            ∧ a.fills = true ∧ Finds s t (fillers k).1 (fillers k).2 catalog a
            ∧ w.service = s.withCatalog catalog
            ∧ (∀ e ∈ after, e.2 = loadedAnswer)
            ∧ ∀ g clock u, (Call.populate false g clock).serve ⟨w.service, u⟩
                = (loadedAnswer, ⟨w.service, u⟩)) := by
  have hcalls : ∀ i, fillCalls fillers i ≠ .flush := fun i => Call.noConfusion
  have hquiet : w.Quiet := ⟨hlock, still_of_turns hcalls hrun⟩
  obtain ⟨h, hserves, -, hordered⟩ :=
    (serialised_of_turns (exclusive_of_turns (.inl hcalls) hrun)).2.exists_serves hquiet
  obtain rfl : h = w.answers := hordered hcalls
  cases hclean : s.isPoisoned with
  | true =>
    obtain ⟨hshared, hrefused⟩ := hserves.of_constant
      fun i => Call.serve_of_poisoned hclean false (fillers i).1 (fillers i).2 t
    refine ⟨?_, .inl ⟨hshared, fun e he => .inr ⟨rfl, hrefused e he⟩⟩⟩
    rw [filter_fills_eq_nil fun e he => by rw [hrefused e he]; rfl]
    exact Nat.zero_le 1
  | false =>
    have honce := filledOnce_of_serves hclean hempty hrecord hfetch hserves hpanic
    refine ⟨honce.length_filter_le, ?_⟩
    generalize hanswers : w.answers = answers at honce
    generalize hshared : w.toShared = q at honce
    cases honce with
    | never hfails => exact .inl ⟨rfl, fun e he => .inl (hfails e he)⟩
    | @once before after k a catalog u hbefore hfinds hafter =>
      have hfull := hfinds.isEmpty_eq_false hrecord (hfetch k)
      refine .inr ⟨before, k, a, after, catalog, rfl, hbefore, hfinds.fills, hfinds, rfl, hafter,
        ?_⟩
      exact fun g clock u => serve_of_full (s := s.withCatalog catalog) hclean hfull u g clock

/-! ## Three calls -/

/-- While the first call waits for its providers they cannot be reached. -/
def callers : Fin 3 → ProviderRegistry × Clock
  | 0 => (stranded.registry, ⟨.epoch, .zero, {}⟩)
  | _ => (lister.registry, ⟨.epoch, .zero, {}⟩)

theorem stranded_fetch : (stranded.fetch {} ⟨.epoch, .zero, {}⟩).answer = .error (.failed
    (.providerFetch "platform" "Provider 'mock' does not support lists")) := by
  decide +kernel

theorem callers_list (i : Fin 3) {catalog : Catalog}
    (h : (lister.knowing (callers i).1).Fetches {} (callers i).2 catalog) :
    catalog.isEmpty = false := by
  have hanswer := fetch_answer_eq_ok.mpr h
  match i with
  | 0 => cases stranded_fetch.symm.trans hanswer
  | 1 | 2 =>
    obtain rfl := Except.ok.inj (lister_fetch.symm.trans hanswer)
    exact listed_isEmpty

theorem callers_first : ∃ a, (fillCalls callers 0).serve ⟨lister, {}⟩ = (a, ⟨lister, {}⟩)
    ∧ a.FailsToFetch := by
  have hfailed : Populates .sound (lister.knowing stranded.registry) {} ⟨.epoch, .zero, {}⟩ false
      _ _ _ _ :=
    .failed rfl (.inr ⟨rfl, _, lister_load _⟩) stranded_fetch
  exact ⟨_, Call.serve_of_populates hfailed, _, _, rfl⟩

theorem callers_second : ∃ a u,
    (fillCalls callers 1).serve ⟨lister, {}⟩ = (a, ⟨lister.withCatalog listed, u⟩)
      ∧ a.outcome = .ok (.filled .provider) := by
  have hsaved : Populates .sound (lister.knowing lister.registry) {} ⟨.epoch, .zero, {}⟩ false
      _ _ _ _ :=
    .saved rfl (.inr ⟨rfl, _, lister_load _⟩) lister_fetch (Cache.ready_empty.save_eq _)
  exact ⟨_, _, Call.serve_of_populates hsaved, rfl⟩

/-- The first call fails, the second one finds the catalog, and the third one finds it held. -/
theorem callers_fill_once : ∃ (w : World (Fin 3)) (a b : Answer),
    Turns (fillCalls callers) (.begin ⟨lister, {}⟩) w
      ∧ w.answers = [(0, a), (1, b), (2, loadedAnswer)]
      ∧ a.FailsToFetch ∧ b.outcome = .ok (.filled .provider)
      ∧ (w.answers.filter fun e => e.2.fills).length ≤ 1
      ∧ ∃ catalog, w.service = lister.withCatalog catalog
        ∧ ∀ g clock u, (Call.populate false g clock).serve ⟨w.service, u⟩
            = (loadedAnswer, ⟨w.service, u⟩) := by
  obtain ⟨a, hfirst, hfails⟩ := callers_first
  obtain ⟨b, u, hsecond, hprovider⟩ := callers_second
  let w₁ : World (Fin 3) := (World.begin ⟨lister, {}⟩).answer 0 a ⟨lister, {}⟩
  let w₂ : World (Fin 3) := w₁.answer 1 b ⟨lister.withCatalog listed, u⟩
  let w₃ : World (Fin 3) := w₂.answer 2 loadedAnswer w₂.toShared
  have hrun₁ : Turns (fillCalls callers) (.begin ⟨lister, {}⟩) w₁ :=
    turns_of_populate rfl hfirst rfl rfl rfl
  have hrun₂ : Turns (fillCalls callers) w₁ w₂ := turns_of_populate rfl hsecond rfl rfl rfl
  have hrun₃ : Turns (fillCalls callers) w₂ w₃ := by
    refine turns_of_populate rfl ?_ rfl rfl rfl
    exact serve_of_full (s := lister.withCatalog listed) rfl listed_isEmpty u _ _
  have hrun : Turns (fillCalls callers) (.begin ⟨lister, {}⟩) w₃ := (hrun₁.trans hrun₂).trans hrun₃
  have hanswers : w₃.answers = [(0, a), (1, b), (2, loadedAnswer)] := rfl
  have hrecord : ∀ r, Cache.read {} lister.cachePath = .ok r → r.repositories.isEmpty = false := by
    intro r hread
    cases lister_read.symm.trans hread
  have hpanic : ∀ e ∈ w₃.answers, e.2.outcome ≠ .error .brokeDown := by
    obtain ⟨project, message, houtcome⟩ := hfails
    simp [hanswers, houtcome, hprovider, loadedAnswer]
  obtain ⟨hone, ⟨-, hnone⟩ | ⟨_, _, _, _, catalog, -, -, -, -, hservice, -, hloaded⟩⟩ :=
    filled_once rfl hrecord (fun i _ => callers_list i) hrun rfl hpanic
  · obtain ⟨project, message, houtcome⟩ | ⟨hpoison, -⟩ := hnone (1, b) (by simp [hanswers])
    · cases hprovider.symm.trans houtcome
    · cases hpoison
  · exact ⟨w₃, a, b, hrun, hanswers, hfails, hprovider, hone, catalog, hservice, hloaded⟩

end RepoSelect.Service
