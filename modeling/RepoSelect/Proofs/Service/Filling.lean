import RepoSelect.Proofs.Cache.Saver
import RepoSelect.Proofs.Service.Calls
import RepoSelect.Proofs.Service.Listing

/-!
# Filling a service step by step

A call that fills a service looks into the cache, asks the providers, whose attempts come in one by
one, holds what they list, and saves it in several steps. Each step meets the files as they are at
its time. An attempt that the race skips comes in with the others and does not count.

> If nobody else changes the service or the files meanwhile, the call answers what it answers when
> it is served in one go, and leaves the same (`Reached.advance`). Nothing keeps it from coming to
> its end (`Completes.serve`).
-/

namespace RepoSelect.Service

variable {s : Service} {t u : FileTree} {p q start : Shared} {refresh : Bool} {g : ProviderRegistry}
  {clock : Clock} {f : Filling} {a : Answer} {n : Nat}

/-! ## Steps -/

/-- How far a call has come that fills a service. -/
inductive Filling where
  | begun
  /-- The providers are asked; there is a slot for the attempt at each project. -/
  | asking (slots : List (Option Attempt))
  /-- The catalog is held and on its way to the cache. -/
  | saving (catalog : Catalog) (asked : List String) (stage : Cache.Stage)

/-- What a step leads to. -/
inductive Progress where
  | goesOn (p : Shared) (f : Filling)
  | ends (p : Shared) (a : Answer)

/-- The attempts, if all of them have come in. -/
def allIn : List (Option Attempt) → Option (List Attempt)
  | [] => some []
  | none :: _ => none
  | some a :: slots => (allIn slots).map (a :: ·)

/-- The attempt at one project comes in, unless it has. -/
def takeIn (s : Service) (t : FileTree) (clock : Clock) (n : Nat) (slots : List (Option Attempt)) :
    List (Option Attempt) :=
  match slots[n]?, s.config.projects[n]? with
  | some none, some project => slots.set n (some (s.listProject t clock project))
  | _, _ => slots

def textOf (clock : Clock) (catalog : Catalog) : ByteArray :=
  (⟨clock.now, catalog⟩ : CacheRecord).print.toUTF8

/-- Nothing has come in yet. -/
def noneIn (s : Service) : Filling := .asking (List.replicate s.config.projects.length none)

/-- How a call goes on when its saver has come so far. -/
def Progress.ofSaver (s : Service) (catalog : Catalog) (asked : List String) (t : FileTree) :
    Cache.Stage → Progress
  | .ended (.ok ()) => .ends ⟨s, t⟩ ⟨.ok (.filled .provider), asked⟩
  | .ended (.error fault) => .ends ⟨s, t⟩ ⟨.error (.failed (.cacheWrite s.cachePath fault)), asked⟩
  | stage => .goesOn ⟨s, t⟩ (.saving catalog asked stage)

/-- The next step of a call that fills the service; `n` is the project whose attempt comes in, or
the number of bytes that are written. -/
def advance (refresh : Bool) (g : ProviderRegistry) (clock : Clock) (n : Nat) (p : Shared) :
    Filling → Progress
  | .begun =>
    if refresh then .goesOn p (noneIn p.service)
    else if !p.service.held.repositories.isEmpty then
      .ends p { outcome := .ok (.filled .alreadyLoaded) }
    else
      match Cache.load p.files p.service.cachePath p.service.ttl clock.now with
      | .ok r =>
        .ends ⟨p.service.withCatalog r.repositories, p.files⟩ { outcome := .ok (.filled .cache) }
      | .error failure =>
        if failure.isCacheMiss then .goesOn p (noneIn p.service)
        else .ends p { outcome := .error (.failed failure) }
  | .asking slots =>
    match allIn slots with
    | none => .goesOn p (.asking (takeIn (p.service.knowing g) p.files clock n slots))
    | some attempts =>
      let fetch := p.service.gather clock.race attempts
      match fetch.answer with
      | .error .brokeDown =>
        .ends ⟨{ p.service with isPoisoned := true }, p.files⟩ ⟨.error .brokeDown, fetch.asked⟩
      | .error mishap => .ends p ⟨.error mishap, fetch.asked⟩
      | .ok catalog =>
        .goesOn ⟨p.service.withCatalog catalog, p.files⟩ (.saving catalog fetch.asked .begun)
  | .saving catalog asked stage =>
    let saver := Cache.advance p.service.cachePath (textOf clock catalog) n p.files stage
    .ofSaver p.service catalog asked saver.files saver.stage

/-! ## The attempts -/

theorem allIn_eq_some {slots : List (Option Attempt)} {attempts : List Attempt} :
    allIn slots = some attempts ↔ slots = attempts.map some := by
  induction slots generalizing attempts with
  | nil => cases attempts <;> simp [allIn]
  | cons slot slots ih =>
    cases slot with
    | none => cases attempts <;> simp [allIn]
    | some a => cases attempts <;> simp [allIn, ih, and_comm]

theorem allIn_eq_none {before after : List (Option Attempt)} :
    allIn (before ++ none :: after) = none := by
  cases h : allIn (before ++ none :: after) with
  | none => rfl
  | some attempts =>
    rw [allIn_eq_some] at h
    have hnone : none ∈ attempts.map some := h ▸ by simp
    simp at hnone

theorem Gathers.takeIn {slots : List (Option Attempt)} (h : Gathers (s.attemptAll t clock) slots)
    (n : Nat) : Gathers (s.attemptAll t clock) (takeIn s t clock n slots) := by
  unfold Service.takeIn
  split
  · next hproject => exact h.arrive (by rw [attemptAll, List.getElem?_map, hproject]; rfl)
  · exact h

theorem gathers_noneIn (s : Service) (t : FileTree) (clock : Clock) :
    Gathers (s.attemptAll t clock) (List.replicate s.config.projects.length none) := by
  have hlength : (s.attemptAll t clock).length = s.config.projects.length := List.length_map _
  rw [← hlength]
  exact .start

theorem takeIn_next {attempts : List Attempt} {project : String}
    (hproject : s.config.projects[attempts.length]? = some project) (left : Nat) :
    takeIn s t clock attempts.length (attempts.map some ++ List.replicate (left + 1) none)
      = (attempts ++ [s.listProject t clock project]).map some ++ List.replicate left none := by
  have hslot : (attempts.map some ++ List.replicate (left + 1) none)[attempts.length]?
      = some none := by
    simp
  simp only [takeIn, hslot, hproject]
  rw [List.set_append_right _ _ (by simp)]
  simp [List.replicate_succ]

/-! ## Left alone -/

/-- What has come of a call, if only it has changed what it found. -/
def Reached (refresh : Bool) (g : ProviderRegistry) (clock : Clock) (start p : Shared) :
    Filling → Prop
  | .begun => p = start
  | .asking slots =>
    p = start ∧ (start.service.knowing g).AsksProviders start.files clock refresh
      ∧ Gathers ((start.service.knowing g).attemptAll start.files clock) slots
  | .saving catalog asked stage =>
    (start.service.knowing g).AsksProviders start.files clock refresh
      ∧ ((start.service.knowing g).fetch start.files clock).answer = .ok catalog
      ∧ ((start.service.knowing g).fetch start.files clock).asked = asked
      ∧ p.service = start.service.withCatalog catalog
      ∧ Cache.Alone start.service.cachePath (textOf clock catalog) start.files p.files stage

/-- The same after a step, which may be the last one. -/
def Progress.Follows (refresh : Bool) (g : ProviderRegistry) (clock : Clock) (start : Shared) :
    Progress → Prop
  | .goesOn p f => Reached refresh g clock start p f
  | .ends p a => (Call.populate refresh g clock).serve start = (a, p)

namespace Reached

theorem advance_begun (hclean : start.service.isPoisoned = false) :
    (Service.advance refresh g clock n start .begun).Follows refresh g clock start := by
  cases refresh with
  | true => exact ⟨rfl, .inl rfl, gathers_noneIn ..⟩
  | false =>
    cases hempty : start.service.held.repositories.isEmpty with
    | false =>
      have hloaded : Populates .sound (start.service.knowing g) start.files clock false _ _ _ _ :=
        .loaded hclean rfl hempty
      simp only [Service.advance, hempty, Bool.not_false, Bool.false_eq_true, if_false, if_true]
      exact Call.serve_of_populates hloaded
    | true =>
      cases hload : Cache.load start.files start.service.cachePath start.service.ttl clock.now with
      | ok r =>
        have hcached : Populates .sound (start.service.knowing g) start.files clock false _ _ _ _ :=
          .cached hclean rfl hempty hload
        simp only [Service.advance, hempty, hload, Bool.not_true, Bool.false_eq_true, if_false]
        exact Call.serve_of_populates hcached
      | error failure =>
        simp only [Service.advance, hempty, hload, Bool.not_true, Bool.false_eq_true, if_false,
          Cache.isCacheMiss_of_load hload, if_true]
        exact ⟨rfl, .inr ⟨hempty, failure, hload⟩, gathers_noneIn ..⟩

theorem advance_asking {slots : List (Option Attempt)} (hclean : start.service.isPoisoned = false)
    (h : Reached refresh g clock start p (.asking slots)) :
    (Service.advance refresh g clock n p (.asking slots)).Follows refresh g clock start := by
  obtain ⟨rfl, hask, hgathers⟩ := h
  cases hin : allIn slots with
  | none =>
    simp only [Service.advance, hin]
    exact ⟨rfl, hask, hgathers.takeIn n⟩
  | some attempts =>
    obtain rfl := allIn_eq_some.mp hin
    obtain rfl := hgathers.eq_attempts
    have hfetch : p.service.gather clock.race ((p.service.knowing g).attemptAll p.files clock)
        = (p.service.knowing g).fetch p.files clock := rfl
    simp only [Service.advance, hin, hfetch]
    cases hanswer : ((p.service.knowing g).fetch p.files clock).answer with
    | error mishap =>
      cases mishap with
      | brokeDown =>
        have hbroke : Populates .sound (p.service.knowing g) p.files clock refresh _ _ _ _ :=
          .brokeDown hclean hask hanswer
        exact Call.serve_of_populates hbroke
      | failed failure =>
        have hfailed : Populates .sound (p.service.knowing g) p.files clock refresh _ _ _ _ :=
          .failed hclean hask hanswer
        exact Call.serve_of_populates hfailed
    | ok catalog => exact ⟨hask, hanswer, rfl, rfl, rfl⟩

/-- If the saver has come to its end, so has the call. -/
theorem ofSaver {catalog : Catalog} {asked : List String} {stage : Cache.Stage}
    (hclean : start.service.isPoisoned = false)
    (h : Reached refresh g clock start ⟨start.service.withCatalog catalog, t⟩
      (.saving catalog asked stage)) :
    (Progress.ofSaver (start.service.withCatalog catalog) catalog asked t stage).Follows refresh g
      clock start := by
  cases stage with
  | ended outcome =>
    obtain ⟨hask, hfetch, rfl, -, halone⟩ := h
    cases outcome with
    | ok done =>
      have hsave := Cache.alone_iff_save.1.mp (Cache.alone_iff_saveText.mpr halone)
      have hsaved : Populates .sound (start.service.knowing g) start.files clock refresh _ _ _ _ :=
        .saved hclean hask hfetch hsave
      exact Call.serve_of_populates hsaved
    | error fault =>
      have hsave := (Cache.alone_iff_save.2 fault).mp (Cache.alone_iff_saveText.mpr halone)
      have hunsaved : Populates .sound (start.service.knowing g) start.files clock refresh
          _ _ _ _ :=
        .unsaved hclean hask hfetch hsave
      exact Call.serve_of_populates hunsaved
  | _ => exact h

/-- Each step of a call that is alone brings it further. -/
theorem advance (hclean : start.service.isPoisoned = false)
    (h : Reached refresh g clock start p f) (n : Nat) :
    (Service.advance refresh g clock n p f).Follows refresh g clock start := by
  cases f with
  | begun =>
    obtain rfl : p = start := h
    exact advance_begun hclean
  | asking slots => exact advance_asking hclean h
  | saving catalog asked stage =>
    obtain ⟨hask, hfetch, hasked, hheld, halone⟩ := h
    obtain ⟨s, t⟩ := p
    obtain rfl : s = start.service.withCatalog catalog := hheld
    exact ofSaver hclean ⟨hask, hfetch, hasked, rfl, halone.advance n⟩

/-- A call that comes to its end is served in one go. -/
theorem serve_eq (hclean : start.service.isPoisoned = false) (h : Reached refresh g clock start p f)
    (hadvance : Service.advance refresh g clock n p f = .ends q a) :
    (Call.populate refresh g clock).serve start = (a, q) := by
  have hfollows := h.advance hclean n
  rwa [hadvance] at hfollows

end Reached

/-! ## To the end -/

/-- The call alone takes the steps that are left, and ends so. -/
inductive Completes (refresh : Bool) (g : ProviderRegistry) (clock : Clock) :
    Shared → Filling → Answer → Shared → Prop
  | last {p q : Shared} {f : Filling} {a : Answer} {n : Nat}
      (h : advance refresh g clock n p f = .ends q a) : Completes refresh g clock p f a q
  | next {p q r : Shared} {f f' : Filling} {a : Answer} {n : Nat}
      (h : advance refresh g clock n p f = .goesOn q f')
      (rest : Completes refresh g clock q f' a r) : Completes refresh g clock p f a r

namespace Completes

/-- Whoever comes to the end alone is served in one go. -/
theorem serve_eq (h : Completes refresh g clock p f a q) (hclean : start.service.isPoisoned = false)
    (hreached : Reached refresh g clock start p f) :
    (Call.populate refresh g clock).serve start = (a, q) := by
  induction h with
  | last h => exact hreached.serve_eq hclean h
  | @next _ _ _ _ _ _ n h _ ih =>
    have hfollows := hreached.advance hclean n
    rw [h] at hfollows
    exact ih hfollows

theorem of_saver {catalog : Catalog} {asked : List String} {stage : Cache.Stage}
    (hadvance : advance refresh g clock n p f = .ofSaver s catalog asked t stage)
    (hrest : ∃ a q, Completes refresh g clock ⟨s, t⟩ (.saving catalog asked stage) a q) :
    ∃ a q, Completes refresh g clock p f a q := by
  obtain ⟨a, q, hrest⟩ := hrest
  cases stage with
  | ended outcome => cases outcome <;> exact ⟨_, _, .last hadvance⟩
  | _ => exact ⟨a, q, .next hadvance hrest⟩

theorem saving (s : Service) (t : FileTree) (catalog : Catalog) (asked : List String)
    (stage : Cache.Stage) :
    ∃ a q, Completes refresh g clock ⟨s, t⟩ (.saving catalog asked stage) a q := by
  obtain ⟨u, outcome, hrun⟩ := Cache.ends s.cachePath (textOf clock catalog) t stage
  generalize hbegin : (t, stage) = begin at hrun
  induction hrun using Relation.ReflTransGen.head_induction_on generalizing t stage with
  | refl =>
    cases hbegin
    cases outcome <;> exact ⟨_, _, .last (n := 0) rfl⟩
  | head hstep _ ih =>
    subst hbegin
    obtain ⟨n, rfl⟩ := hstep
    exact of_saver (n := n) rfl (ih _ _ rfl)

theorem asking (left : Nat) {attempts : List Attempt}
    (hlength : attempts.length + left = (p.service.knowing g).config.projects.length) :
    ∃ a q, Completes refresh g clock p
      (.asking (attempts.map some ++ List.replicate left none)) a q := by
  induction left generalizing attempts with
  | zero =>
    have hin : allIn (attempts.map some) = some attempts := allIn_eq_some.mpr rfl
    rw [List.replicate_zero, List.append_nil]
    cases hanswer : (p.service.gather clock.race attempts).answer with
    | error mishap =>
      cases mishap <;>
        exact ⟨_, _, .last (n := 0) (by simp only [advance, hin, hanswer]; rfl)⟩
    | ok catalog =>
      obtain ⟨a, q, hrest⟩ : ∃ a q, Completes refresh g clock
          ⟨p.service.withCatalog catalog, p.files⟩
          (.saving catalog (p.service.gather clock.race attempts).asked .begun) a q := saving ..
      exact ⟨a, q, .next (n := 0) (by simp only [advance, hin, hanswer]) hrest⟩
  | succ left ih =>
    have hlt : attempts.length < (p.service.knowing g).config.projects.length := by omega
    have htaken : takeIn (p.service.knowing g) p.files clock attempts.length _ = _ :=
      takeIn_next (List.getElem?_eq_getElem hlt) left
    have hnone : allIn (attempts.map some ++ List.replicate (left + 1) none) = none :=
      allIn_eq_none
    have hlength' : (attempts ++ [(p.service.knowing g).listProject p.files clock
        (p.service.knowing g).config.projects[attempts.length]]).length + left
          = (p.service.knowing g).config.projects.length := by
      rw [List.length_append, List.length_singleton]
      omega
    obtain ⟨a, q, hrest⟩ := ih hlength'
    exact ⟨a, q, .next (n := attempts.length) (by simp only [advance, hnone, htaken]) hrest⟩

/-- Nothing keeps a call that fills a service from coming to its end. -/
theorem begun (p : Shared) : ∃ a q, Completes refresh g clock p .begun a q := by
  have hasking : ∃ a q, Completes refresh g clock p (noneIn p.service) a q := by
    have hlength : ([] : List Attempt).length + p.service.config.projects.length
        = (p.service.knowing g).config.projects.length := Nat.zero_add _
    exact asking _ hlength
  obtain ⟨a, q, hrest⟩ := hasking
  -- The first step ends the call or leads to the providers.
  have hbegun : (∃ a q, advance refresh g clock 0 p .begun = .ends q a)
      ∨ advance refresh g clock 0 p .begun = .goesOn p (noneIn p.service) := by
    simp only [advance]
    split
    · exact .inr rfl
    · split
      · exact .inl ⟨_, _, rfl⟩
      · split
        · exact .inl ⟨_, _, rfl⟩
        · split
          · exact .inr rfl
          · exact .inl ⟨_, _, rfl⟩
  obtain ⟨a, q, hlast⟩ | hnext := hbegun
  · exact ⟨a, q, .last hlast⟩
  · exact ⟨a, q, .next hnext hrest⟩

/-- A call that is alone does what serving it in one go does. -/
theorem serve (hclean : p.service.isPoisoned = false) :
    Completes refresh g clock p .begun ((Call.populate refresh g clock).serve p).1
      ((Call.populate refresh g clock).serve p).2 := by
  obtain ⟨a, q, h⟩ : ∃ a q, Completes refresh g clock p .begun a q := begun p
  rwa [h.serve_eq hclean rfl]

end Completes

end RepoSelect.Service
