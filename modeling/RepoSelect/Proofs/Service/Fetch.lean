import RepoSelect.Proofs.Document.Record
import RepoSelect.Proofs.Service.Race

/-!
# What a fetch gives

A fetch gives all or nothing:

> `fetch_answer_eq_ok`: it gives a catalog exactly if every configured project was listed, and the
> catalog is then made of all that was listed (`Fetches`).

If it fails, then as one of the projects that cannot be listed does (`misses_of_fetch`), and it says
which project could not be listed (`fetch_failed`), whatever went wrong. How an attempt to list one
project can end is said once (`attempts`).
-/

namespace RepoSelect.Service

open Document (mapError_ok mapError_error)

variable {s : Service} {t : FileTree} {clock : Clock} {project : String} {f : Failure}

/-- Every configured project can be listed, and the catalog is made of what all of them list. -/
def Fetches (s : Service) (t : FileTree) (clock : Clock) (catalog : Catalog) : Prop :=
  ∃ listed : List (String × List Repository), listed.map (·.1) = s.config.projects
    ∧ (∀ p ∈ listed, (s.listProject t clock p.1).answer = .ok p.2)
    ∧ catalog = (merge s.config.defaultProject
        (listed.flatMap fun (project, rs) => rs.map (project, ·))).1

/-! ## One project -/

/-- The project is listed in time, and this is what its provider gives. -/
def Lists (s : Service) (t : FileTree) (clock : Clock) (project : String)
    (rs : List Repository) : Prop :=
  ∃ timeout provider left, timeLeft s.config.fetchTimeout clock.lag project = .ok timeout
    ∧ s.registry.create s.config.provider
        { ProviderSettings.ofConfig s.config project with timeout } = .ok provider
    ∧ (provider.list t).answer = .ok rs
    ∧ timeLeft s.config.fetchTimeout ⟨clock.lag.nanos + (provider.list t).delay.nanos⟩ project
        = .ok left

/-- The factory or the provider of the project gives this as the reason why it is not listed. -/
inductive Fails (s : Service) (t : FileTree) (clock : Clock) (project : String) : Failure → Prop
  | unmade {timeout : Option Duration} {f : Failure}
      (htime : timeLeft s.config.fetchTimeout clock.lag project = .ok timeout)
      (hcreate : s.registry.create s.config.provider
        { ProviderSettings.ofConfig s.config project with timeout } = .error f) :
      Fails s t clock project f
  | unlisted {timeout : Option Duration} {provider : Provider} {f : Failure}
      (htime : timeLeft s.config.fetchTimeout clock.lag project = .ok timeout)
      (hcreate : s.registry.create s.config.provider
        { ProviderSettings.ofConfig s.config project with timeout } = .ok provider)
      (hlist : (provider.list t).answer = .error (.failed f)) : Fails s t clock project f

theorem listProject_project (s : Service) (t : FileTree) (clock : Clock) (project : String) :
    (s.listProject t clock project).project = project := by
  unfold listProject
  dsimp only
  split
  · rfl
  · split
    · rfl
    · rfl
    · split <;> rfl

/-- A project that is listed was asked for. -/
theorem asked_of_listed {rs : List Repository}
    (h : (s.listProject t clock project).answer = .ok rs) :
    (s.listProject t clock project).asked = true := by
  revert h
  unfold listProject
  dsimp only
  split
  · nofun
  · intro _
    split
    · rfl
    · rfl
    · split <;> rfl

theorem listProject_of_lists {rs : List Repository} (h : s.Lists t clock project rs) :
    (s.listProject t clock project).answer = .ok (rs.map (adopt project))
      ∧ (s.listProject t clock project).asked = true := by
  obtain ⟨timeout, provider, left, htime, hcreate, hlist, hleft⟩ := h
  simp only [listProject, htime, hcreate, hlist, hleft, mapError_ok, bind, Except.bind, and_self]

theorem Fails.answer_eq (h : s.Fails t clock project f) :
    (s.listProject t clock project).answer = .error (.failed (fetchFailure project f)) := by
  cases h with
  | unmade htime hcreate =>
    simp only [listProject, htime, hcreate, mapError_error, bind, Except.bind]
  | unlisted htime hcreate hlist =>
    simp only [listProject, htime, hcreate, hlist, mapError_ok, bind, Except.bind]

/-- How an attempt to list a project can end. -/
inductive Attempts (s : Service) (t : FileTree) (clock : Clock) (project : String) :
    Except Mishap (List Repository) → Prop
  | late {elapsed : Duration} {f : Failure}
      (htime : timeLeft s.config.fetchTimeout elapsed project = .error f) :
      Attempts s t clock project (.error (.failed f))
  | failed {f : Failure} (hfails : s.Fails t clock project f) :
      Attempts s t clock project (.error (.failed (fetchFailure project f)))
  | brokeDown : Attempts s t clock project (.error .brokeDown)
  | listed {rs : List Repository} (hlists : s.Lists t clock project rs) :
      Attempts s t clock project (.ok (rs.map (adopt project)))

theorem attempts (s : Service) (t : FileTree) (clock : Clock) (project : String) :
    Attempts s t clock project (s.listProject t clock project).answer := by
  cases htime : timeLeft s.config.fetchTimeout clock.lag project with
  | error f =>
    simp only [listProject, htime, bind, Except.bind]
    exact .late htime
  | ok timeout =>
    cases hcreate : s.registry.create s.config.provider
        { ProviderSettings.ofConfig s.config project with timeout } with
    | error f =>
      rw [(Fails.unmade htime hcreate).answer_eq]
      exact .failed (.unmade htime hcreate)
    | ok provider =>
      cases hlist : (provider.list t).answer with
      | error mishap =>
        cases mishap with
        | brokeDown =>
          simp only [listProject, htime, hcreate, hlist, mapError_ok, bind, Except.bind]
          exact .brokeDown
        | failed f =>
          rw [(Fails.unlisted htime hcreate hlist).answer_eq]
          exact .failed (.unlisted htime hcreate hlist)
      | ok rs =>
        cases hleft : timeLeft s.config.fetchTimeout
            ⟨clock.lag.nanos + (provider.list t).delay.nanos⟩ project with
        | error f =>
          simp only [listProject, htime, hcreate, hlist, hleft, mapError_ok, bind, Except.bind]
          exact .late hleft
        | ok left =>
          have hlists : s.Lists t clock project rs :=
            ⟨timeout, provider, left, htime, hcreate, hlist, hleft⟩
          rw [(listProject_of_lists hlists).1]
          exact .listed hlists

theorem fetchFailure_eq (project : String) (f : Failure) :
    ∃ name message, fetchFailure project f = .providerFetch name message := by
  cases f <;> exact ⟨_, _, rfl⟩

/-- Whoever is late is named. -/
theorem timeLeft_eq_error {limit : Option Duration} {elapsed : Duration}
    (h : timeLeft limit elapsed project = .error f) :
    ∃ message, f = .providerFetch project message := by
  unfold timeLeft at h
  split at h
  · cases h
  · split at h
    · cases h
    · exact ⟨_, (Except.error.inj h).symm⟩

theorem listProject_failed (h : (s.listProject t clock project).answer = .error (.failed f)) :
    ∃ name message, f = .providerFetch name message := by
  have hattempts : Attempts s t clock project (.error (.failed f)) := h ▸ attempts s t clock project
  cases hattempts with
  | late htime => exact ⟨project, timeLeft_eq_error htime⟩
  | failed hfails => exact fetchFailure_eq project _

/-! ## All projects -/

/-- All attempts have an answer if all projects can be listed. -/
theorem answers_eq_ok {projects : List String} {listed : List (String × List Repository)} :
    answers (projects.map (s.listProject t clock)) = .ok listed ↔
      listed.map (·.1) = projects
        ∧ ∀ p ∈ listed, (s.listProject t clock p.1).answer = .ok p.2 := by
  rw [answers_eq_ok_iff]
  constructor
  · intro h
    induction projects generalizing listed with
    | nil =>
      obtain rfl := List.forall₂_nil_left_iff.mp h
      exact ⟨rfl, nofun⟩
    | cons project projects ih =>
      rw [List.map_cons, List.forall₂_cons_left_iff] at h
      obtain ⟨⟨name, rs⟩, rest, ⟨hname, hanswer⟩, hrest, rfl⟩ := h
      obtain rfl : project = name := (listProject_project s t clock project).symm.trans hname
      obtain ⟨rfl, hanswers⟩ := ih hrest
      exact ⟨rfl, List.forall_mem_cons.mpr ⟨hanswer, hanswers⟩⟩
  · rintro ⟨rfl, hanswers⟩
    rw [List.map_map, List.forall₂_map_left_iff, List.forall₂_same]
    exact fun p hp => ⟨listProject_project s t clock p.1, hanswers p hp⟩

section Gather

variable {race : Race} {attempts : List Attempt} {catalog : Catalog} {mishap : Mishap}

theorem gather_eq_ok : (s.gather race attempts).answer = .ok catalog ↔ ∃ listed,
    answers attempts = .ok listed
      ∧ catalog = (merge s.config.defaultProject (entries listed)).1 := by
  have hrace (listed) : race.answers attempts = .ok listed ↔ answers attempts = .ok listed :=
    Race.answers_eq_ok
  simp only [← hrace, gather]
  cases race.answers attempts with
  | error mishap => simp
  | ok listed => simp [eq_comm (b := catalog)]

theorem gather_eq_error : (s.gather race attempts).answer = .error mishap
    ↔ race.answers attempts = .error mishap := by
  unfold gather
  cases race.answers attempts with
  | error found => simp
  | ok listed => simp

theorem asked_gather : (s.gather race attempts).asked = askedOf (race.made attempts) := by
  unfold gather
  cases race.answers attempts <;> rfl

theorem fetch_answer_eq_ok :
    (s.fetch t clock).answer = .ok catalog ↔ s.Fetches t clock catalog := by
  rw [fetch, gather_eq_ok, attemptAll]
  simp only [Fetches, answers_eq_ok, and_assoc]
  rfl

/-- A fetch that succeeds asks for each project once, in their order. -/
theorem asked_of_fetches (h : s.Fetches t clock catalog) :
    (s.fetch t clock).asked = s.config.projects := by
  obtain ⟨listed, hprojects, hlists, -⟩ := h
  have hanswers : answers (s.attemptAll t clock) = .ok listed :=
    answers_eq_ok.mpr ⟨hprojects, hlists⟩
  have hasked : ∀ a ∈ s.attemptAll t clock, a.asked = true := by
    intro a ha
    obtain ⟨rs, hrs⟩ := answer_of_answers hanswers ha
    obtain ⟨project, -, rfl⟩ := List.mem_map.mp ha
    exact asked_of_listed hrs
  have hproject : Attempt.project ∘ s.listProject t clock = id :=
    funext (listProject_project s t clock)
  rw [fetch, asked_gather, Race.made_of_answered hanswers, askedOf, List.filter_eq_self.mpr hasked,
    attemptAll, List.map_map, hproject, List.map_id]

/-- Some configured project cannot be listed, for this reason. -/
def Misses (s : Service) (t : FileTree) (clock : Clock) (mishap : Mishap) : Prop :=
  ∃ project ∈ s.config.projects, (s.listProject t clock project).answer = .error mishap

/-- A fetch that fails does so for the reason why some project cannot be listed. -/
theorem misses_of_fetch (h : (s.fetch t clock).answer = .error mishap) :
    s.Misses t clock mishap := by
  obtain ⟨a, ha, hanswer⟩ := Race.exists_of_answers (gather_eq_error.mp h)
  obtain ⟨project, hproject, rfl⟩ := List.mem_map.mp ha
  exact ⟨project, hproject, hanswer⟩

end Gather

/-- A fetch that fails says which project could not be listed. -/
theorem fetch_failed (h : (s.fetch t clock).answer = .error (.failed f)) :
    ∃ project message, f = .providerFetch project message := by
  obtain ⟨project, -, hanswer⟩ := misses_of_fetch h
  exact listProject_failed hanswer

end RepoSelect.Service
