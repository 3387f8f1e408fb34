import Mathlib.Data.List.Induction
import RepoSelect.Cache.Record
import RepoSelect.Proofs.Service.Fetch

/-!
# The catalog of a fetch

What the providers list becomes a catalog:

> Under each key lies the last repository, in the order of the configured projects and then of
> their listings, that has this qualified name, and there are no other keys (`fetch_eq_last`).

The projects are listed at the same time. Their attempts come in one by one, each at the position
of its project, so that the order in which they come in is forgotten (`Gathers.eq_attempts`). A
qualified name is made of the project that was asked for, not of the one that a provider reports.

Nothing is asked of the providers but that they list something. One that is asked twice, because a
project is configured twice, may list something else the second time (`Attempted`).
-/

namespace RepoSelect.Service

variable {s : Service} {t : FileTree} {clock : Clock} {project key : String}

/-! ## One project -/

@[simp] theorem adopt_name (project : String) (r : Repository) :
    (adopt project r).name = r.name := by
  unfold adopt
  split <;> rfl

/-! ## The last one wins -/

theorem mem_entries {listed : List (String × List Repository)} {e : String × Repository} :
    e ∈ entries listed ↔ ∃ p ∈ listed, e.1 = p.1 ∧ e.2 ∈ p.2 := by
  obtain ⟨project, r⟩ := e
  simp only [entries, List.mem_flatMap, List.mem_map, Prod.mk.injEq]
  constructor
  · rintro ⟨p, hp, r, hr, rfl, rfl⟩
    exact ⟨p, hp, rfl, hr⟩
  · rintro ⟨p, hp, rfl, hr⟩
    exact ⟨p, hp, r, hr, rfl, rfl⟩

/-- The last repository whose qualified name is the key. -/
def lastWith (defaultProject : String) (listed : List (String × Repository)) (key : String) :
    Option (String × Repository) :=
  (listed.filter fun e => qualifiedName e.1 e.2.name defaultProject = key).getLast?

theorem merge_concat (defaultProject : String) (listed : List (String × Repository))
    (e : String × Repository) : (merge defaultProject (listed ++ [e])).1
      = (merge defaultProject listed).1.insert (qualifiedName e.1 e.2.name defaultProject) e.2 := by
  rw [merge, List.foldl_append]
  rfl

theorem getElem?_merge (defaultProject : String) (listed : List (String × Repository))
    (key : String) : (merge defaultProject listed).1[key]?
      = (lastWith defaultProject listed key).map (·.2) := by
  induction listed using List.reverseRecOn with
  | nil => rfl
  | append_singleton listed e ih =>
    rw [merge_concat, Std.ExtTreeMap.getElem?_insert, lastWith, List.filter_append]
    by_cases hkey : qualifiedName e.1 e.2.name defaultProject = key
    · simp [hkey]
    · simp [hkey, ih, lastWith]

/-- That repositories are adopted changes no key. -/
theorem lastWith_adopted (defaultProject : String) (listed : List (String × Repository))
    (key : String) :
    lastWith defaultProject (listed.map fun e => (e.1, adopt e.1 e.2)) key
      = (lastWith defaultProject listed key).map fun e => (e.1, adopt e.1 e.2) := by
  simp only [lastWith, List.filter_map, List.getLast?_map, Function.comp_def, adopt_name]

theorem isSome_lastWith {defaultProject : String} {listed : List (String × Repository)} :
    (lastWith defaultProject listed key).isSome
      ↔ ∃ e ∈ listed, qualifiedName e.1 e.2.name defaultProject = key := by
  simp [lastWith]

/-! ## Whatever comes in first -/

/-- The attempts that have come in, in whatever order, each at its position among all. -/
inductive Gathers (attempts : List Attempt) : List (Option Attempt) → Prop
  | start : Gathers attempts (List.replicate attempts.length none)
  | arrive {slots : List (Option Attempt)} {i : Nat} {a : Attempt} (h : Gathers attempts slots)
      (ha : attempts[i]? = some a) : Gathers attempts (slots.set i (some a))

namespace Gathers

variable {attempts found : List Attempt} {slots : List (Option Attempt)}

theorem length_eq (h : Gathers attempts slots) : slots.length = attempts.length := by
  induction h with
  | start => rw [List.length_replicate]
  | arrive _ _ ih => rw [List.length_set, ih]

theorem attempt_eq (h : Gathers attempts slots) {i : Nat} {a : Attempt}
    (hi : slots[i]? = some (some a)) : attempts[i]? = some a := by
  induction h with
  | start => simp [List.getElem?_replicate] at hi
  | @arrive slots j b h hb ih =>
    rw [List.getElem?_set] at hi
    split at hi
    · next heq =>
      subst heq
      split at hi
      · rw [hb]
        exact Option.some.inj hi
      · cases hi
    · exact ih hi

/-- When all attempts have come in, they are in their order. -/
theorem eq_attempts (h : Gathers attempts (found.map some)) : found = attempts := by
  refine List.ext_getElem? fun i => ?_
  cases hi : found[i]? with
  | some a => exact (h.attempt_eq (by rw [List.getElem?_map, hi]; rfl)).symm
  | none =>
    have hlength := h.length_eq
    rw [List.length_map] at hlength
    rw [List.getElem?_eq_none_iff, hlength, ← List.getElem?_eq_none_iff] at hi
    rw [hi]

/-- They can come in from the first to the last. -/
theorem front {ahead rest : List Attempt} (h : ahead ++ rest = attempts) :
    Gathers attempts (ahead.map some ++ List.replicate rest.length none) := by
  induction ahead using List.reverseRecOn generalizing rest with
  | nil =>
    obtain rfl : rest = attempts := h
    exact start
  | append_singleton ahead a ih =>
    rw [List.append_assoc, List.singleton_append] at h
    have ha : attempts[ahead.length]? = some a := by simp [← h]
    have harrive := (ih h).arrive ha
    rw [List.set_append_right _ _ (by simp)] at harrive
    simpa [List.replicate_succ] using harrive

theorem all (attempts : List Attempt) : Gathers attempts (attempts.map some) := by
  have h : Gathers attempts _ := front (List.append_nil attempts)
  rwa [List.length_nil, List.replicate_zero, List.append_nil] at h

end Gathers

/-! ## The whole -/

/-- At this attempt a provider lists these repositories of the project in time. Each attempt may
meet providers, files and a time of its own. -/
def Attempted (s : Service) (a : Attempt) (p : String × List Repository) : Prop :=
  ∃ (g : ProviderRegistry) (t : FileTree) (clock : Clock),
    { s with registry := g }.Lists t clock p.1 p.2
      ∧ a = { s with registry := g }.listProject t clock p.1

theorem Attempted.gives {a : Attempt} {p : String × List Repository} (h : s.Attempted a p) :
    a.Gives (p.1, p.2.map (adopt p.1)) := by
  obtain ⟨g, t, clock, hlists, rfl⟩ := h
  exact ⟨listProject_project .., (listProject_of_lists hlists).1⟩

/-- The attempts at which one and the same registry lists all projects. -/
theorem attempted_attemptAll {listed : List (String × List Repository)}
    (hprojects : listed.map (·.1) = s.config.projects)
    (hlists : ∀ p ∈ listed, s.Lists t clock p.1 p.2) :
    List.Forall₂ s.Attempted (s.attemptAll t clock) listed := by
  rw [attemptAll, ← hprojects, List.map_map, List.forall₂_map_left_iff, List.forall₂_same]
  exact fun p hp => ⟨s.registry, t, clock, hlists p hp, rfl⟩

/-- What is listed, as a catalog. -/
def catalogOf (s : Service) (listed : List (String × List Repository)) : Catalog :=
  (merge s.config.defaultProject (entries (listed.map fun p => (p.1, p.2.map (adopt p.1))))).1

/-- Each key has the last repository with this qualified name, as it was listed, with its project
filled in if it had none. -/
def HoldsLast (catalog : Catalog) (defaultProject : String)
    (listed : List (String × List Repository)) : Prop :=
  ∀ key : String, catalog[key]?
    = (lastWith defaultProject (entries listed) key).map fun e => adopt e.1 e.2

theorem catalogOf_holdsLast (s : Service) (listed : List (String × List Repository)) :
    HoldsLast (s.catalogOf listed) s.config.defaultProject listed := by
  intro key
  have hentries : entries (listed.map fun p => (p.1, p.2.map (adopt p.1)))
      = (entries listed).map fun e => (e.1, adopt e.1 e.2) := by
    simp [entries, List.flatMap_map, List.map_flatMap, Function.comp_def]
  rw [catalogOf, getElem?_merge, hentries, lastWith_adopted, Option.map_map]
  rfl

/-- What was found out at all attempts makes the catalog, whatever the race. -/
theorem gather_attempted {attempts : List Attempt} {listed : List (String × List Repository)}
    (h : List.Forall₂ s.Attempted attempts listed) (race : Race) :
    (s.gather race attempts).answer = .ok (s.catalogOf listed) := by
  have hgives : List.Forall₂ Attempt.Gives attempts
      (listed.map fun p => (p.1, p.2.map (adopt p.1))) :=
    List.forall₂_map_right_iff.mpr (h.imp fun _ _ => Attempted.gives)
  exact gather_eq_ok.mpr ⟨_, answers_eq_ok_iff.mpr hgives, rfl⟩

theorem fetch_listed {listed : List (String × List Repository)}
    (hprojects : listed.map (·.1) = s.config.projects)
    (hlists : ∀ p ∈ listed, s.Lists t clock p.1 p.2) :
    (s.fetch t clock).answer = .ok (s.catalogOf listed) :=
  gather_attempted (attempted_attemptAll hprojects hlists) clock.race

/-- The names that a listing gives, project by project. -/
def namesOf (listed : List (String × List Repository)) : List (String × List String) :=
  listed.map fun p => (p.1, p.2.map (·.name))

/-- The keys of a catalog are the qualified names of what was listed. -/
theorem HoldsLast.mem_iff {catalog : Catalog} {defaultProject : String}
    {listed : List (String × List Repository)} (h : HoldsLast catalog defaultProject listed) :
    key ∈ catalog ↔ ∃ p ∈ namesOf listed, ∃ name ∈ p.2,
      qualifiedName p.1 name defaultProject = key := by
  rw [Std.ExtTreeMap.mem_iff_isSome_getElem?, h key, Option.isSome_map, isSome_lastWith]
  constructor
  · rintro ⟨e, he, hkey⟩
    obtain ⟨p, hp, hproject, hr⟩ := mem_entries.mp he
    exact ⟨_, List.mem_map_of_mem hp, _, List.mem_map_of_mem hr, hproject ▸ hkey⟩
  · rintro ⟨q, hq, name, hname, hkey⟩
    obtain ⟨p, hp, rfl⟩ := List.mem_map.mp hq
    obtain ⟨r, hr, rfl⟩ := List.mem_map.mp hname
    exact ⟨(p.1, r), mem_entries.mpr ⟨p, hp, rfl, hr⟩, hkey⟩

/-- What a catalog has under a key was listed with this qualified name. -/
theorem HoldsLast.exists_entry {catalog : Catalog} {defaultProject : String}
    {listed : List (String × List Repository)} (h : HoldsLast catalog defaultProject listed)
    {r : Repository} (hr : catalog[key]? = some r) : ∃ e ∈ entries listed,
      qualifiedName e.1 e.2.name defaultProject = key ∧ adopt e.1 e.2 = r := by
  rw [h key, Option.map_eq_some_iff] at hr
  obtain ⟨e, he, hadopt⟩ := hr
  obtain ⟨hmem, hkey⟩ := List.mem_filter.mp (List.mem_of_getLast? he)
  exact ⟨e, hmem, of_decide_eq_true hkey, hadopt⟩

/-- **The catalog of a fetch** in which all projects are listed. Each key has the last repository
with this name, as it was listed, with its project filled in if it had none; whatever is no such
name is no key. That is the catalog whatever providers list these repositories, be they other ones
at each attempt, in whatever order the attempts come in; and it is what a fetch gives. The projects
that the providers report do not matter to the keys: they are the same if the names are. -/
theorem fetch_eq_last {listed : List (String × List Repository)}
    (hprojects : listed.map (·.1) = s.config.projects) :
    ∃ catalog : Catalog,
      (∀ key, catalog[key]? = (lastWith s.config.defaultProject (entries listed) key).map
          fun e => adopt e.1 e.2)
      ∧ (∀ key, key ∈ catalog ↔ ∃ p ∈ namesOf listed, ∃ name ∈ p.2,
          qualifiedName p.1 name s.config.defaultProject = key)
      ∧ (∀ attempts, List.Forall₂ s.Attempted attempts listed →
          (∃ found : List Attempt, Gathers attempts (found.map some))
            ∧ ∀ (found : List Attempt) (race : Race), Gathers attempts (found.map some) →
              (s.gather race found).answer = .ok catalog)
      ∧ (∀ t clock, (∀ p ∈ listed, s.Lists t clock p.1 p.2) →
          (s.fetch t clock).answer = .ok catalog)
      ∧ ∀ (s' : Service) (listed' : List (String × List Repository)) (attempts' : List Attempt)
          (race : Race), s'.config = s.config → namesOf listed' = namesOf listed →
          List.Forall₂ s'.Attempted attempts' listed' →
          ∃ catalog', (s'.gather race attempts').answer = .ok catalog'
            ∧ ∀ key, key ∈ catalog' ↔ key ∈ catalog := by
  have hlast := s.catalogOf_holdsLast listed
  refine ⟨s.catalogOf listed, hlast, fun key => hlast.mem_iff, fun attempts hattempts => ?_,
    fun t clock hlists => fetch_listed hprojects hlists,
    fun s' listed' attempts' race hconfig hnames hattempts' => ?_⟩
  · refine ⟨⟨attempts, .all attempts⟩, fun found race hgathers => ?_⟩
    rw [hgathers.eq_attempts]
    exact gather_attempted hattempts race
  · refine ⟨s'.catalogOf listed', gather_attempted hattempts' race, fun key => ?_⟩
    rw [(s'.catalogOf_holdsLast listed').mem_iff, hlast.mem_iff, hnames, hconfig]

/-! ## A project that is configured twice -/

/-- A service whose provider gives some listings, all in time. -/
def serving (listings : List (String × List Repository)) : Service where
  config := { provider := "mock", projects := listings.map (·.1) }
  cachePath := "c.json"
  registry := ProviderRegistry.empty.register "mock" fun settings => .ok
    { name := "mock"
      list := fun _ => { answer := .ok ((listings.lookup settings.project).getD []) } }

theorem serving_lists {listings : List (String × List Repository)} {rs : List Repository}
    (hlookup : (listings.lookup project).getD [] = rs) :
    (serving listings).Lists t clock project rs :=
  ⟨none, _, none, rfl, ProviderRegistry.create_register .., congrArg Except.ok hlookup, rfl⟩

/-- The first project is listed twice, and has another repository the second time. One of its
repositories is named like the second project and its repository. -/
def repeatedListings : List (String × List Repository) :=
  [ ("platform", [{ name := "api", project := "PLAT" }, { name := "tools/cli" }]),
    ("tools", [{ name := "cli", labels := ["go"] }]),
    ("platform", [{ name := "api", labels := ["new"] }]) ]

/-- The attempts, each with a provider of its own. -/
def repeatedAttempts : List Attempt :=
  repeatedListings.map fun p =>
    { serving repeatedListings with registry := (serving [p]).registry }.listProject {}
      ⟨.epoch, .zero, {}⟩ p.1

theorem repeatedAttempts_attempted :
    List.Forall₂ (serving repeatedListings).Attempted repeatedAttempts repeatedListings := by
  rw [repeatedAttempts, List.forall₂_map_left_iff, List.forall₂_same]
  rintro ⟨project, rs⟩ -
  have hlookup : ([(project, rs)].lookup project).getD [] = rs := by simp
  have hlists : (serving [(project, rs)]).Lists {} ⟨.epoch, .zero, {}⟩ project rs :=
    serving_lists hlookup
  exact ⟨(serving [(project, rs)]).registry, {}, ⟨.epoch, .zero, {}⟩, hlists, rfl⟩

/-- What is listed last is kept, of the second project and of the first. -/
theorem gather_repeatedListings :
    ∃ catalog, ((serving repeatedListings).gather {} repeatedAttempts).answer = .ok catalog
      ∧ catalog["api"]? = some { name := "api", project := "platform", labels := ["new"] }
      ∧ catalog["tools/cli"]? = some { name := "cli", project := "tools", labels := ["go"] }
      ∧ "PLAT/api" ∉ catalog := by
  have hprojects : repeatedListings.map (·.1) = (serving repeatedListings).config.projects := rfl
  obtain ⟨catalog, hlast, hkeys, hgather, -⟩ := fetch_eq_last hprojects
  obtain ⟨-, hfound⟩ := hgather _ repeatedAttempts_attempted
  refine ⟨catalog, hfound _ {} (.all _), (hlast _).trans (by decide), (hlast _).trans (by decide),
    ?_⟩
  rw [hkeys]
  decide

end RepoSelect.Service
