import RepoSelect.Proofs.Service.Labels
import RepoSelect.Proofs.Service.Listing

/-!
# Which project is blamed

A fetch that fails names a project. What a factory or a provider gives as its reason can be any
failure, and most of them become the message of one that names the project that was asked for. But a
reason that names a project itself is passed on as it is, so that

> if one project fails and the others are listed, the fetch fails and names this project, unless the
> reason given names another one; then it names that one (`blamed_unless_passed_on`).

It does not matter which attempt comes in first. And whatever failure a fetch ends with, however
many projects fail, it names a configured one or was passed on (`blamed_of_failed`).
-/

namespace RepoSelect

/-- The failure is one to list this project. -/
def Failure.Blames (f : Failure) (project : String) : Prop :=
  ∃ message, f = .providerFetch project message

theorem Failure.blames_iff {blamed message project : String} :
    (providerFetch blamed message).Blames project ↔ blamed = project := by
  simp [Blames]

namespace Service

variable {s : Service} {t : FileTree} {clock : Clock} {project : String} {f : Failure}

/-! ## Reasons -/

theorem fetchFailure_of_passedOn (project name message : String) :
    fetchFailure project (.providerFetch name message) = .providerFetch name message := rfl

theorem fetchFailure_of_wrapped (hother : ∀ name message, f ≠ .providerFetch name message) :
    fetchFailure project f = .providerFetch project f.message := by
  cases f with
  | providerFetch name message => exact absurd rfl (hother name message)
  | _ => rfl

/-- The project is named, unless the reason names another one. -/
theorem fetchFailure_blames_iff : (fetchFailure project f).Blames project
    ↔ ∀ name message, f = .providerFetch name message → name = project := by
  by_cases hpassed : ∃ name message, f = .providerFetch name message
  · obtain ⟨name, message, rfl⟩ := hpassed
    rw [fetchFailure_of_passedOn, Failure.blames_iff]
    simp
  · rw [fetchFailure_of_wrapped fun name message h => hpassed ⟨name, message, h⟩]
    exact iff_of_true ⟨_, rfl⟩ fun name message h => absurd ⟨name, message, h⟩ hpassed

/-! ## All projects -/

/-- A fetch that fails blames a configured project, unless one of them blames another. -/
theorem blamed_of_failed (h : (s.fetch t clock).answer = .error (.failed f)) :
    ∃ project ∈ s.config.projects, f.Blames project
      ∨ s.Fails t clock project f ∧ ∃ name, f.Blames name := by
  obtain ⟨project, hproject, hanswer⟩ := misses_of_fetch h
  refine ⟨project, hproject, ?_⟩
  generalize hattempt : (s.listProject t clock project).answer = answer at hanswer
  have hattempts : Attempts s t clock project answer := hattempt ▸ attempts s t clock project
  cases hattempts with
  | late htime =>
    cases hanswer
    exact .inl (timeLeft_eq_error htime)
  | @failed reason hfails =>
    cases hanswer
    by_cases hpassed : ∃ name message, reason = .providerFetch name message
    · obtain ⟨name, message, rfl⟩ := hpassed
      exact .inr ⟨hfails, name, message, rfl⟩
    · exact .inl ⟨_, fetchFailure_of_wrapped fun name message h => hpassed ⟨name, message, h⟩⟩
  | brokeDown => cases hanswer
  | listed hlists => cases hanswer

/-- If one project fails and the others are listed, every attempt that has a mishap has the one
that comes of the reason. -/
theorem only_mishap (hfails : s.Fails t clock project f)
    (hothers : ∀ other ∈ s.config.projects, other ≠ project → ∃ rs, s.Lists t clock other rs) :
    ∀ a ∈ s.attemptAll t clock, ∀ mishap, a.answer = .error mishap →
      mishap = .failed (fetchFailure project f) := by
  intro a ha mishap hmishap
  obtain ⟨other, hother, rfl⟩ := List.mem_map.mp ha
  by_cases heq : other = project
  · subst heq
    exact Except.error.inj (hmishap.symm.trans hfails.answer_eq)
  · obtain ⟨rs, hlists⟩ := hothers other hother heq
    rw [(listProject_of_lists hlists).1] at hmishap
    cases hmishap

/-- **Which project is blamed.** If one project fails and the others are listed, a call that asks
the providers fails, with a project that is named and a message, and changes nothing. The project is
the one that failed, unless the reason names another one: such a reason is what the call fails with,
and any other is the message. It does not matter in which order the attempts come in, nor how they
race. -/
theorem blamed_unless_passed_on {refresh : Bool} (hclean : s.isPoisoned = false)
    (hask : s.AsksProviders t clock refresh) (hproject : project ∈ s.config.projects)
    (hfails : s.Fails t clock project f)
    (hothers : ∀ other ∈ s.config.projects, other ≠ project → ∃ rs, s.Lists t clock other rs) :
    let report := s.populate refresh t clock
    ∃ blamed message, report.outcome = .error (.failed (.providerFetch blamed message))
      ∧ report.service = s ∧ report.files = t
      ∧ (blamed = project ↔ ∀ name reason, f = .providerFetch name reason → name = project)
      ∧ (∀ name reason, f = .providerFetch name reason → blamed = name ∧ message = reason)
      ∧ ((∀ name reason, f ≠ .providerFetch name reason) → message = f.message)
      ∧ ∀ attempts : List Attempt,
          attempts.Perm (s.config.projects.map (s.listProject t clock)) →
          answers attempts = .error (.failed (.providerFetch blamed message)) := by
  intro report
  have honly := only_mishap hfails hothers
  have hattempt : s.listProject t clock project ∈ s.attemptAll t clock :=
    List.mem_map_of_mem hproject
  have hanswers (attempts : List Attempt)
      (hperm : attempts.Perm (s.config.projects.map (s.listProject t clock))) :
      answers attempts = .error (.failed (fetchFailure project f)) :=
    answers_of_only (hperm.mem_iff.mpr hattempt) hfails.answer_eq
      fun a ha => honly a (hperm.mem_iff.mp ha)
  have hfetch : (s.fetch t clock).answer = .error (.failed (fetchFailure project f)) :=
    gather_eq_error.mpr (Race.answers_of_only hattempt hfails.answer_eq honly)
  obtain ⟨log, hreport⟩ := (Populates.failed hclean hask hfetch).report_eq
  obtain ⟨blamed, message, hblamed⟩ := fetchFailure_eq project f
  rw [hblamed] at hreport hanswers
  have hblames :
      blamed = project ↔ ∀ name reason, f = .providerFetch name reason → name = project := by
    rw [← fetchFailure_blames_iff, hblamed]
    exact Failure.blames_iff.symm
  refine ⟨blamed, message, congrArg Report.outcome hreport, congrArg Report.service hreport,
    congrArg Report.files hreport, hblames, ?_, fun hwrapped => ?_, hanswers⟩
  · rintro name reason rfl
    cases hblamed
    exact ⟨rfl, rfl⟩
  · rw [fetchFailure_of_wrapped hwrapped] at hblamed
    cases hblamed
    rfl

/-! ## A provider that names another project -/

/-- A service with two projects, one of which is not listed for a reason that its provider gives. -/
def blaming (reason : Failure) : Service where
  config := { provider := "mock", projects := ["platform", "tools"] }
  cachePath := "c.json"
  registry := ProviderRegistry.empty.register "mock" fun settings => .ok
    { name := "mock"
      list := fun _ => { answer :=
        if settings.project = "tools" then .error (.failed reason) else .ok [] } }

theorem blaming_fails (reason : Failure) : (blaming reason).Fails t clock "tools" reason :=
  .unlisted rfl (ProviderRegistry.create_register ..) rfl

theorem blaming_lists (reason : Failure) : (blaming reason).Lists t clock "platform" [] :=
  ⟨none, _, none, rfl, ProviderRegistry.create_register .., rfl, rfl⟩

theorem blamed_as_asked :
    ∃ message, ((blaming (.unsupported "mock" "lists")).populate true {}
        ⟨.epoch, .zero, {}⟩).outcome
      = .error (.failed (.providerFetch "tools" message)) := by
  let s : Service := blaming (.unsupported "mock" "lists")
  have hothers : ∀ other ∈ s.config.projects, other ≠ "tools" →
      ∃ rs, s.Lists {} ⟨.epoch, .zero, {}⟩ other rs := by
    intro other hother hne
    obtain rfl : other = "platform" := by simpa [s, blaming, hne] using hother
    exact ⟨[], blaming_lists _⟩
  have hask : s.AsksProviders {} ⟨.epoch, .zero, {}⟩ true := .inl rfl
  obtain ⟨blamed, message, houtcome, -, -, hblamed, -⟩ :=
    blamed_unless_passed_on rfl hask (by decide) (blaming_fails _) hothers
  obtain rfl := hblamed.mpr nofun
  exact ⟨message, houtcome⟩

/-- The project that is named is no configured one. -/
theorem blamed_elsewhere :
    let s : Service := blaming (.providerFetch "elsewhere" "no answer")
    let report := s.populate false {} ⟨.epoch, .zero, {}⟩
    start s.config s.registry "c.json" = .ok s ∧ s.config.projects = ["platform", "tools"]
      ∧ s.Fails {} ⟨.epoch, .zero, {}⟩ "tools" (.providerFetch "elsewhere" "no answer")
      ∧ s.Lists {} ⟨.epoch, .zero, {}⟩ "platform" []
      ∧ report.outcome = .error (.failed (.providerFetch "elsewhere" "no answer"))
      ∧ ¬∃ message, report.outcome = .error (.failed (.providerFetch "tools" message)) := by
  intro s report
  have houtcome : report.outcome = .error (.failed (.providerFetch "elsewhere" "no answer")) := by
    decide +kernel
  refine ⟨start_of_check (by decide +kernel) (by decide +kernel), rfl, blaming_fails _,
    blaming_lists _, houtcome, ?_⟩
  rintro ⟨message, htools⟩
  rw [houtcome] at htools
  obtain ⟨hname, -⟩ := Failure.providerFetch.inj (Mishap.failed.inj (Except.error.inj htools))
  exact absurd hname (by decide)

end Service

end RepoSelect
