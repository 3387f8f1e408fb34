import Mathlib.Logic.Relation
import RepoSelect.Proofs.Service.Populate

/-!
# Runs of a service

A service changes when it is filled, flushed or given a catalog, and in no other way (`Step`). The
files of each call are whatever they are at its time, so that anything may happen to them between
two calls, and so may anything to the providers and to the disk.

What a flush can come to is said by cases (`flushEnds`), as it is for filling. What a step can do is
said once and for all runs:

> `Step.held_eq`: a service holds what it held, or nothing, or a catalog with the labels that
> follow from it.

The configuration stays (`Steps.config_eq`), and a service that was poisoned stays so
(`Steps.isPoisoned`).
-/

namespace RepoSelect.Service

/-- What can happen to a service. -/
inductive Step : Service → Service → Prop
  | populate (s : Service) (disk : Disk) (refresh : Bool) (t : FileTree) (clock : Clock) :
      Step s (s.populateOn disk refresh t clock).service
  | flush (s : Service) (t : FileTree) : Step s (s.flush t).service
  | replace {s s' : Service} {catalog : Catalog} (h : s.replace catalog = .ok s') : Step s s'
  | providers (s : Service) (g : ProviderRegistry) : Step s { s with registry := g }

/-- What can come of a service over time. -/
abbrev Steps : Service → Service → Prop := Relation.ReflTransGen Step

variable {s s' : Service}

/-! ## The calls one by one -/

theorem Populates.service_cases {disk : Disk} {t t' : FileTree} {clock : Clock} {refresh : Bool}
    {outcome : Except Mishap Origin} {asked : List String}
    (h : Populates disk s t clock refresh outcome s' t' asked) :
    s' = s ∨ s' = { s with isPoisoned := true } ∨ ∃ catalog, s' = s.withCatalog catalog := by
  cases h with
  | poisoned => exact .inl rfl
  | loaded => exact .inl rfl
  | cached => exact .inr (.inr ⟨_, rfl⟩)
  | brokeDown => exact .inr (.inl rfl)
  | failed => exact .inl rfl
  | saved => exact .inr (.inr ⟨_, rfl⟩)
  | unsaved => exact .inr (.inr ⟨_, rfl⟩)

/-- What a flush comes to. -/
inductive FlushEnds (s : Service) (t : FileTree) : Report Bool → Prop
  | stuck {failure : Failure} (hremoves : Cache.Removes t s.cachePath (.error failure t)) :
      FlushEnds s t { outcome := .error (.failed failure), service := s, files := t }
  | refused {found : Bool} {u : FileTree} (hpoison : s.isPoisoned = true)
      (hremoves : Cache.Removes t s.cachePath (.ok found u)) :
      FlushEnds s t { outcome := .error (.failed poisoned), service := s, files := u }
  | emptied {found : Bool} {u : FileTree} (hclean : s.isPoisoned = false)
      (hremoves : Cache.Removes t s.cachePath (.ok found u)) :
      FlushEnds s t { outcome := .ok found, service := { s with held := {} }, files := u }

theorem flushEnds (s : Service) (t : FileTree) : FlushEnds s t (s.flush t) := by
  have hremoves : Cache.Removes t s.cachePath (Cache.flush s.cachePath t) := Cache.removes _ _
  unfold flush
  cases hflush : Cache.flush s.cachePath t with
  | error failure u =>
    rw [hflush] at hremoves
    cases hremoves with
    | stuck fault hfile hnone => exact .stuck (.stuck fault hfile hnone)
  | ok found u =>
    rw [hflush] at hremoves
    by_cases hpoison : s.isPoisoned = true
    · dsimp only
      rw [if_pos hpoison]
      exact .refused hpoison hremoves
    · dsimp only
      rw [if_neg hpoison]
      exact .emptied (Bool.eq_false_iff.mpr hpoison) hremoves

theorem flush_service (s : Service) (t : FileTree) :
    (s.flush t).service = s
      ∨ (s.isPoisoned = false ∧ (s.flush t).service = { s with held := {} }) := by
  generalize hflush : s.flush t = report
  have hends : FlushEnds s t report := hflush ▸ flushEnds s t
  cases hends with
  | stuck => exact .inl rfl
  | refused => exact .inl rfl
  | emptied hclean => exact .inr ⟨hclean, rfl⟩

theorem replace_eq_ok {catalog : Catalog} :
    s.replace catalog = .ok s' ↔ s.isPoisoned = false ∧ s' = s.withCatalog catalog := by
  unfold replace view
  by_cases hpoison : s.isPoisoned = true
  · simp [hpoison, bind, Except.bind]
  · rw [if_neg hpoison]
    constructor
    · intro h
      exact ⟨Bool.eq_false_iff.mpr hpoison, (Except.ok.inj h).symm⟩
    · rintro ⟨-, rfl⟩
      rfl

/-! ## Steps -/

theorem Step.held_eq (h : Step s s') :
    s'.held = s.held ∨ s'.held = {} ∨ ∃ catalog, s'.held = s.holding catalog := by
  cases h with
  | populate disk refresh t clock =>
    obtain heq | heq | ⟨catalog, heq⟩ := (populateOn_populates disk s refresh t clock).service_cases
    · exact .inl (by rw [heq])
    · exact .inl (by rw [heq])
    · exact .inr (.inr ⟨catalog, by rw [heq]; rfl⟩)
  | flush t =>
    obtain heq | ⟨-, heq⟩ := flush_service s t
    · exact .inl (by rw [heq])
    · exact .inr (.inl (by rw [heq]))
  | replace h =>
    obtain ⟨-, rfl⟩ := replace_eq_ok.mp h
    exact .inr (.inr ⟨_, rfl⟩)
  | providers g => exact .inl rfl

theorem Step.config_eq (h : Step s s') : s'.config = s.config := by
  cases h with
  | populate disk refresh t clock =>
    obtain heq | heq | ⟨catalog, heq⟩ := (populateOn_populates disk s refresh t clock).service_cases
    · rw [heq]
    · rw [heq]
    · rw [heq]
      rfl
  | flush t =>
    obtain heq | ⟨-, heq⟩ := flush_service s t
    · rw [heq]
    · rw [heq]
  | replace h =>
    obtain ⟨-, rfl⟩ := replace_eq_ok.mp h
    rfl
  | providers g => rfl

theorem Step.isPoisoned (h : Step s s') (hpoison : s.isPoisoned = true) :
    s'.isPoisoned = true := by
  cases h with
  | populate disk refresh t clock => rw [populateOn, if_pos hpoison, hpoison]
  | flush t =>
    obtain heq | ⟨hclean, -⟩ := flush_service s t
    · rw [heq, hpoison]
    · rw [hpoison] at hclean
      cases hclean
  | replace h =>
    obtain ⟨hclean, -⟩ := replace_eq_ok.mp h
    rw [hpoison] at hclean
    cases hclean
  | providers g => exact hpoison

/-! ## Runs -/

theorem Steps.config_eq (h : Steps s s') : s'.config = s.config := by
  induction h with
  | refl => rfl
  | tail _ hstep ih => rw [hstep.config_eq, ih]

theorem Steps.isPoisoned (h : Steps s s') (hpoison : s.isPoisoned = true) :
    s'.isPoisoned = true := by
  induction h with
  | refl => exact hpoison
  | tail _ hstep ih => exact hstep.isPoisoned ih

end RepoSelect.Service
