import Mathlib.Data.List.Nodup
import RepoSelect.Proofs.Repository.Qualified
import RepoSelect.Proofs.Service.Listing

/-!
# Repositories that share a key

The repositories of a project are told apart by their names, and those of different projects by
their qualified names. This is not always enough:

> a fetch keeps every repository exactly if no two that are listed clash (`fetch_keepsAll_iff`).

If no separator is in the name of a project, nor in that of a repository of the default project,
none clash. A repository `tools/cli` of the default project makes room for a repository `cli` of the
project `tools` (`listed_repository_vanishes`).
-/

namespace RepoSelect.Service

variable {s : Service} {t : FileTree} {clock : Clock} {d : String} {catalog : Catalog}
  {listed : List (String × List Repository)}

/-- The catalog has every repository that was listed, under its qualified name. -/
def KeepsAll (catalog : Catalog) (d : String) (listed : List (String × List Repository)) : Prop :=
  ∀ e ∈ entries listed, catalog[qualifiedName e.1 e.2.name d]? = some (adopt e.1 e.2)

/-- Two repositories that are listed clash. -/
def HasClash (d : String) (listed : List (String × List Repository)) : Prop :=
  ∃ e ∈ entries listed, ∃ e' ∈ entries listed, Clashes d (e.1, e.2.name) (e'.1, e'.2.name)

/-- No project is listed twice, and no project has two repositories of one name. -/
structure Distinct (listed : List (String × List Repository)) : Prop where
  projects : (listed.map (·.1)).Nodup
  names {p : String × List Repository} (hp : p ∈ listed) : (p.2.map (·.name)).Nodup

theorem Distinct.entry_eq (h : Distinct listed) {e e' : String × Repository}
    (he : e ∈ entries listed) (he' : e' ∈ entries listed)
    (heq : (e.1, e.2.name) = (e'.1, e'.2.name)) : e = e' := by
  obtain ⟨hproject, hname⟩ := Prod.mk.inj heq
  obtain ⟨p, hp, hep, hmem⟩ := mem_entries.mp he
  obtain ⟨p', hp', hep', hmem'⟩ := mem_entries.mp he'
  have hsame : p = p' := by
    refine List.inj_on_of_nodup_map h.projects hp hp' ?_
    rw [← hep, ← hep', hproject]
  subst hsame
  exact Prod.ext hproject (List.inj_on_of_nodup_map (h.names hp) hmem hmem' hname)

theorem project_ne_empty_of_check {c : Config} (h : c.check = .ok ()) {project : String}
    (hproject : project ∈ c.projects) : project ≠ "" := by
  rintro rfl
  have hfault : c.fault? = none := by
    unfold Config.check at h
    split at h
    · cases h
    · assumption
  have hfound : ∃ name, c.projects.find? (!hasText ·) = some name := by
    cases hfind : c.projects.find? (!hasText ·) with
    | some name => exact ⟨name, rfl⟩
    | none => exact absurd (List.find?_eq_none.mp hfind "" hproject) (by decide)
  obtain ⟨name, hname⟩ := hfound
  simp only [Config.fault?, hname] at hfault
  split at hfault
  · cases hfault
  · split at hfault <;> cases hfault

/-- Two repositories that are listed have one key if they are the same one or clash. -/
theorem key_eq_iff (hdistinct : Distinct listed) (hprojects : ∀ e ∈ entries listed, e.1 ≠ "")
    {e e' : String × Repository} (he : e ∈ entries listed) (he' : e' ∈ entries listed) :
    qualifiedName e.1 e.2.name d = qualifiedName e'.1 e'.2.name d
      ↔ e = e' ∨ Clashes d (e.1, e.2.name) (e'.1, e'.2.name)
        ∨ Clashes d (e'.1, e'.2.name) (e.1, e.2.name) := by
  rw [qualifiedName_eq_iff (hprojects e he) (hprojects e' he')]
  constructor
  · rintro (heq | h)
    · exact .inl (hdistinct.entry_eq he he' heq)
    · exact .inr h
  · rintro (rfl | h)
    · exact .inl rfl
    · exact .inr h

theorem HoldsLast.keepsAll_iff (hlast : HoldsLast catalog d listed) (hdistinct : Distinct listed)
    (hprojects : ∀ e ∈ entries listed, e.1 ≠ "") :
    KeepsAll catalog d listed ↔ ¬HasClash d listed := by
  constructor
  · rintro hkeeps ⟨e, he, e', he', hclash⟩
    have hkey := hclash.qualifiedName_eq (hprojects e he) (hprojects e' he')
    have hsame := hkeeps e he
    rw [hkey, hkeeps e' he'] at hsame
    have hname := congrArg Repository.name (Option.some.inj hsame)
    rw [adopt_name, adopt_name] at hname
    exact hclash.name_ne hname.symm
  · intro hfree e he
    have hthere : catalog[qualifiedName e.1 e.2.name d]?.isSome := by
      rw [hlast, Option.isSome_map, isSome_lastWith]
      exact ⟨e, he, rfl⟩
    obtain ⟨r, hr⟩ := Option.isSome_iff_exists.mp hthere
    obtain ⟨e', hmem, hkey, rfl⟩ := hlast.exists_entry hr
    obtain rfl | hclash | hclash := (key_eq_iff hdistinct hprojects hmem he).mp hkey
    · exact hr
    · exact absurd ⟨e', hmem, e, he, hclash⟩ hfree
    · exact absurd ⟨e, he, e', hmem, hclash⟩ hfree

/-- **What a fetch keeps.** For a configuration that has been checked, of distinct projects, each
of which lists distinct names, the catalog has everything that was listed exactly if no two
repositories clash; only such two get the same key. There are none if neither a project nor a
repository of the default project has a separator in its name. -/
theorem fetch_keepsAll_iff (hcheck : s.config.check = .ok ())
    (hprojects : listed.map (·.1) = s.config.projects)
    (hlists : ∀ p ∈ listed, s.Lists t clock p.1 p.2) (hdistinct : Distinct listed) :
    ∃ catalog, (s.fetch t clock).answer = .ok catalog
      ∧ (KeepsAll catalog s.config.defaultProject listed
          ↔ ¬HasClash s.config.defaultProject listed)
      ∧ (∀ e ∈ entries listed, ∀ e' ∈ entries listed,
          qualifiedName e.1 e.2.name s.config.defaultProject
              = qualifiedName e'.1 e'.2.name s.config.defaultProject
            ↔ e = e' ∨ Clashes s.config.defaultProject (e.1, e.2.name) (e'.1, e'.2.name)
              ∨ Clashes s.config.defaultProject (e'.1, e'.2.name) (e.1, e.2.name))
      ∧ ((∀ project ∈ s.config.projects, '/' ∉ project.toList) →
          (∀ e ∈ entries listed, e.1 = s.config.defaultProject → '/' ∉ e.2.name.toList) →
          KeepsAll catalog s.config.defaultProject listed) := by
  have hmem : ∀ e ∈ entries listed, e.1 ∈ s.config.projects := by
    intro e he
    obtain ⟨p, hp, heq, -⟩ := mem_entries.mp he
    rw [← hprojects, heq]
    exact List.mem_map_of_mem hp
  have htext := fun e he => project_ne_empty_of_check hcheck (hmem e he)
  have hkeeps := (s.catalogOf_holdsLast listed).keepsAll_iff hdistinct htext
  refine ⟨s.catalogOf listed, fetch_listed hprojects hlists, hkeeps,
    fun e he e' he' => key_eq_iff hdistinct htext he he', fun hslash hslash' => hkeeps.mpr ?_⟩
  rintro ⟨e, he, e', he', hclash⟩
  exact not_clashes (hslash _ (hmem e he)) (hslash' e he) hclash

/-! ## Two projects -/

/-- A name with a separator and no project of that name. -/
def apartListings : List (String × List Repository) :=
  [ ("platform", [{ name := "api" }, { name := "team/cli" }]),
    ("tools", [{ name := "api" }, { name := "cli" }]) ]

theorem apartListings_distinct : Distinct apartListings where
  projects := by decide
  names {p} hp := by
    revert p
    decide

theorem apartListings_apart : ¬HasClash "platform" apartListings := by
  rintro ⟨e, he, e', he', hclash⟩
  have hkeys : ∀ e ∈ entries apartListings, ∀ e' ∈ entries apartListings,
      e.1 ≠ "" ∧ (qualifiedName e.1 e.2.name "platform" = qualifiedName e'.1 e'.2.name "platform" →
        e.2.name = e'.2.name) := by decide
  have hkey := hclash.qualifiedName_eq (hkeys e he e' he').1 (hkeys e' he' e he).1
  exact hclash.name_ne ((hkeys e he e' he').2 hkey)

theorem apartListings_kept :
    ∃ catalog, ((serving apartListings).fetch {} ⟨.epoch, .zero, {}⟩).answer = .ok catalog
      ∧ KeepsAll catalog "platform" apartListings := by
  have hcheck : (serving apartListings).config.check = .ok () := by decide +kernel
  have hlookup : ∀ p ∈ apartListings, (apartListings.lookup p.1).getD [] = p.2 := by decide
  obtain ⟨catalog, hfetch, hkeeps, -⟩ := fetch_keepsAll_iff hcheck rfl
    (fun p hp => serving_lists (hlookup p hp)) apartListings_distinct
  exact ⟨catalog, hfetch, hkeeps.mpr apartListings_apart⟩

/-- A repository of the first project is named like the second project and its repository. -/
def sharedListings : List (String × List Repository) :=
  [ ("platform", [{ name := "api", project := "PLAT" }, { name := "tools/cli" }]),
    ("tools", [{ name := "cli", labels := ["go"] }]) ]

theorem sharedListings_lookup :
    ∀ p ∈ sharedListings, (sharedListings.lookup p.1).getD [] = p.2 := by
  decide

theorem sharedListings_distinct : Distinct sharedListings where
  projects := by decide
  names {p} hp := by
    revert p
    decide

/-- A repository of the first project is listed and is not in the catalog. -/
theorem listed_repository_vanishes :
    (serving sharedListings).config.check = .ok ()
      ∧ sharedListings.map (·.1) = (serving sharedListings).config.projects
      ∧ Distinct sharedListings
      ∧ (∀ p ∈ sharedListings, (serving sharedListings).Lists {} ⟨.epoch, .zero, {}⟩ p.1 p.2)
      ∧ ∃ catalog, ((serving sharedListings).fetch {} ⟨.epoch, .zero, {}⟩).answer = .ok catalog
        ∧ ("platform", { name := "tools/cli" }) ∈ entries sharedListings
        ∧ ∀ (key : String) (r : Repository), catalog[key]? = some r → r.name ≠ "tools/cli" := by
  have hlists : ∀ p ∈ sharedListings,
      (serving sharedListings).Lists {} ⟨.epoch, .zero, {}⟩ p.1 p.2 :=
    fun p hp => serving_lists (sharedListings_lookup p hp)
  have hlast := (serving sharedListings).catalogOf_holdsLast sharedListings
  refine ⟨by decide +kernel, rfl, sharedListings_distinct, hlists, _, fetch_listed rfl hlists,
    by decide, fun key r hr hname => ?_⟩
  obtain ⟨e, he, hkey, hadopt⟩ := hlast.exists_entry hr
  have hlisted : e.2.name = "tools/cli" := by rw [← hname, ← hadopt, adopt_name]
  have honly : ∀ e ∈ entries sharedListings, e.2.name = "tools/cli" →
      qualifiedName e.1 e.2.name "platform" = "tools/cli" := by decide
  obtain rfl : "tools/cli" = key := (honly e he hlisted).symm.trans hkey
  have hshared : ((serving sharedListings).catalogOf sharedListings)["tools/cli"]?
      = some { name := "cli", project := "tools", labels := ["go"] } :=
    (hlast _).trans (by decide)
  rw [hshared] at hr
  rw [← Option.some.inj hr] at hname
  exact absurd hname (by decide)

end RepoSelect.Service
