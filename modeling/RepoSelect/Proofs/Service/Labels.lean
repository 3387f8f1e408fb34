import RepoSelect.Proofs.Label.Members
import RepoSelect.Proofs.Service.Run
import RepoSelect.Service.Query

/-!
# Labels follow from the catalog

A service never holds labels that some other catalog gave it:

> In every state that a service can reach, it either holds nothing, or its labels are the ones
> that its catalog, the aliases and the superset of its configuration give.

This is an invariant of single steps (`Step.followsFrom`) and so of runs (`Steps.followsFrom`). A
selection reads nothing but the labels (`select_eq`), which is why it is about the catalog that is
shown, whatever was loaded, fetched, replaced or removed before (`labels_of_reached`).
-/

namespace RepoSelect

/-- Nothing is held, or the labels are those of the catalog. -/
def Holding.FollowsFrom (h : Holding) (c : Config) : Prop :=
  (h.repositories = ∅ ∧ h.labels = .empty)
    ∨ h.labels = .build h.repositories c.aliases c.filter.superset

namespace Service

variable {c : Config} {g : ProviderRegistry} {path : String} {s s' : Service}

theorem holding_followsFrom (s : Service) (catalog : Catalog) :
    (s.holding catalog).FollowsFrom s.config :=
  .inr rfl

theorem start_eq_ok {s₀ : Service} (h : start c g path = .ok s₀) :
    s₀ = { config := c, cachePath := path, registry := g } := by
  unfold start at h
  cases hcheck : c.check with
  | error fault =>
    rw [hcheck] at h
    cases h
  | ok _ =>
    rw [hcheck] at h
    cases hensure : g.ensure c.provider with
    | error failure =>
      rw [hensure] at h
      cases h
    | ok _ =>
      rw [hensure] at h
      exact (Except.ok.inj h).symm

theorem start_of_check (hcheck : c.check = .ok ()) (hensure : g.ensure c.provider = .ok ()) :
    start c g path = .ok { config := c, cachePath := path, registry := g } := by
  rw [start, hcheck, hensure]
  rfl

/-! ## The invariant -/

theorem Step.followsFrom (hstep : Step s s') (h : s.held.FollowsFrom s.config) :
    s'.held.FollowsFrom s'.config := by
  rw [hstep.config_eq]
  obtain heq | heq | ⟨catalog, heq⟩ := hstep.held_eq
  · rw [heq]
    exact h
  · rw [heq]
    exact .inl ⟨rfl, rfl⟩
  · rw [heq]
    exact s.holding_followsFrom catalog

theorem Steps.followsFrom (hrun : Steps s s') (h : s.held.FollowsFrom s.config) :
    s'.held.FollowsFrom s'.config := by
  induction hrun with
  | refl => exact h
  | tail _ hstep ih => exact hstep.followsFrom ih

theorem followsFrom_of_start {s₀ : Service} (hstart : start c g path = .ok s₀)
    (hrun : Steps s₀ s) : s.config = c ∧ s.held.FollowsFrom c := by
  have hinit := start_eq_ok hstart
  have hconfig : s.config = c := by rw [hrun.config_eq, hinit]
  refine ⟨hconfig, ?_⟩
  rw [← hconfig]
  refine hrun.followsFrom ?_
  rw [hinit]
  exact .inl ⟨rfl, rfl⟩

/-! ## What follows for those who ask -/

theorem get?_superset_of_followsFrom {h : Holding} (hfollows : h.FollowsFrom c)
    (hne : h.repositories ≠ ∅) :
    ∃ repos, h.labels.get? c.filter.superset = some repos
      ∧ ∀ key, key ∈ repos ↔ key ∈ h.repositories := by
  obtain ⟨hempty, -⟩ | hbuild := hfollows
  · exact absurd hempty hne
  · rw [hbuild]
    exact LabelIndex.get?_superset_build h.repositories c.aliases c.filter.superset

/-- A selection reads the configuration's filter and the labels that are shown. -/
theorem select_eq (s : Service) (tokens : List String) :
    s.select tokens = s.view.map fun h => s.config.filter.toFilter.evaluate tokens h.labels := by
  unfold select
  cases s.view <;> rfl

/-- **Labels follow from the catalog** in every state that a service can reach: it holds nothing
or the labels of its catalog, the superset of a catalog has exactly its keys, and a selection is
made with the labels of the catalog that is shown. -/
theorem labels_of_reached {s₀ : Service} (hstart : start c g path = .ok s₀)
    (hrun : Steps s₀ s) :
    s.held.FollowsFrom c
      ∧ (s.held.repositories ≠ ∅ → ∃ repos, s.held.labels.get? c.filter.superset = some repos
          ∧ ∀ key, key ∈ repos ↔ key ∈ s.held.repositories)
      ∧ (∀ h, s.view = .ok h → h.FollowsFrom c)
      ∧ ∀ tokens, s.select tokens
          = s.view.map fun h => c.filter.toFilter.evaluate tokens h.labels := by
  obtain ⟨hconfig, hfollows⟩ := followsFrom_of_start hstart hrun
  refine ⟨hfollows, get?_superset_of_followsFrom hfollows, fun h hview => ?_, fun tokens => ?_⟩
  · unfold view at hview
    split at hview
    · cases hview
    · rw [← Except.ok.inj hview]
      exact hfollows
  · rw [select_eq, hconfig]

/-- A service whose provider cannot be made. -/
def providerless : Service where
  config := { provider := "mock", projects := ["platform"] }
  cachePath := "c.json"
  registry := ProviderRegistry.empty.register "mock" fun _ => .error (.unsupported "mock" "lists")

/-- One repository, with a label. -/
def oneLabelled : Catalog := (∅ : Catalog).insert "app" { name := "app", labels := ["old"] }

theorem providerless_start :
    start providerless.config providerless.registry "c.json" = .ok providerless := by
  have hfault : providerless.config.fault? = none := by decide +kernel
  have hensure : providerless.registry.ensure "mock" = .ok () := by
    simp [providerless, ProviderRegistry.ensure, ProviderRegistry.contains,
      ProviderRegistry.register]
  have hcheck : providerless.config.check = .ok () := by rw [Config.check, hfault]
  exact start_of_check hcheck hensure

theorem providerless_keeps :
    ((providerless.withCatalog oneLabelled).populate true {} ⟨.epoch, .zero, {}⟩).service
      = providerless.withCatalog oneLabelled := by
  have hfetch : ((providerless.withCatalog oneLabelled).fetch {} ⟨.epoch, .zero, {}⟩).answer
      = .error (.failed (.providerFetch "platform"
          (Failure.unsupported "mock" "lists").message)) := by
    decide +kernel
  have hfailed : Populates .sound (providerless.withCatalog oneLabelled) {} ⟨.epoch, .zero, {}⟩
      true _ _ _ _ := .failed rfl (.inl rfl) hfetch
  obtain ⟨log, hreport⟩ := hfailed.report_eq
  rw [populate, hreport]

/-- The service is given a catalog and then fails to be filled anew. It holds the catalog, and all
of it is in the superset. -/
theorem labels_of_replaced :
    let c := providerless.config
    let s := ((providerless.withCatalog oneLabelled).populate true {} ⟨.epoch, .zero, {}⟩).service
    s.held.FollowsFrom c ∧ s.held.repositories ≠ ∅
      ∧ (∃ repos, s.held.labels.get? "all" = some repos ∧ ∀ key, key ∈ repos ↔ key = "app")
      ∧ (∀ h, s.view = .ok h → h.FollowsFrom c)
      ∧ ∀ tokens, s.select tokens
          = s.view.map fun h => c.filter.toFilter.evaluate tokens h.labels := by
  intro c s
  have hreplace : Step providerless (providerless.withCatalog oneLabelled) := .replace rfl
  have hrun : Steps providerless s := .tail (.single hreplace) (.populate _ .sound true {} _)
  obtain ⟨hfollows, hsuperset, hview, hselect⟩ := labels_of_reached providerless_start hrun
  have hheld : s.held.repositories = oneLabelled :=
    congrArg (·.held.repositories) providerless_keeps
  have hne : s.held.repositories ≠ ∅ := by
    rw [hheld]
    simp [oneLabelled]
  obtain ⟨repos, hget, hmem⟩ := hsuperset hne
  refine ⟨hfollows, hne, ⟨repos, hget, fun key => ?_⟩, hview, hselect⟩
  rw [hmem key, hheld]
  simp [oneLabelled, eq_comm (b := key)]

end Service

end RepoSelect
