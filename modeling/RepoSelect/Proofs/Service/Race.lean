import Mathlib.Data.List.Forall2
import RepoSelect.Service.Fetch

/-!
# Attempts that race

The attempts at several projects are made at the same time, and if one of them fails, some of the
others may not be made any more. If all of them have an answer, the race between them decides
nothing: all are made, and their answers are those of the attempts (`Race.made_of_answered`,
`Race.answers_eq_ok`). If not, it decides which one is heard:

> what the attempts can come to in some race are exactly the mishaps that they have
> (`exists_race_iff`).
-/

namespace RepoSelect

variable {a : Attempt} {attempts : List Attempt} {listed : List (String × List Repository)}
  {mishap : Mishap}

/-- What the attempt has found out about its project. -/
def Attempt.Gives (a : Attempt) (p : String × List Repository) : Prop :=
  a.project = p.1 ∧ a.answer = .ok p.2

theorem Attempt.hasFailed_iff : a.hasFailed = true ↔ ∃ mishap, a.answer = .error mishap := by
  cases h : a.answer with
  | error mishap => simp [hasFailed, h, Except.toBool]
  | ok rs => simp [hasFailed, h, Except.toBool]

namespace Service

/-! ## One after the other -/

theorem answers_cons_eq_ok : answers (a :: attempts) = .ok listed ↔ ∃ rs rest, a.answer = .ok rs
    ∧ answers attempts = .ok rest ∧ listed = (a.project, rs) :: rest := by
  rw [answers]
  rcases a.answer with (_ | _) | rs <;> rcases answers attempts with (_ | _) | rest <;>
    simp [eq_comm (b := listed)]

/-- All attempts have an answer, and these are the answers in their order. -/
theorem answers_eq_ok_iff :
    answers attempts = .ok listed ↔ List.Forall₂ Attempt.Gives attempts listed := by
  induction attempts generalizing listed with
  | nil =>
    rw [List.forall₂_nil_left_iff, answers, Except.ok.injEq]
    exact eq_comm
  | cons a attempts ih =>
    rw [answers_cons_eq_ok, List.forall₂_cons_left_iff]
    constructor
    · rintro ⟨rs, rest, ha, hrest, rfl⟩
      exact ⟨_, _, ⟨rfl, ha⟩, ih.mp hrest, rfl⟩
    · rintro ⟨⟨project, rs⟩, rest, ⟨hproject, ha⟩, hrest, rfl⟩
      obtain rfl : a.project = project := hproject
      exact ⟨rs, rest, ha, ih.mpr hrest, rfl⟩

theorem answer_of_answers (h : answers attempts = .ok listed) (ha : a ∈ attempts) :
    ∃ rs, a.answer = .ok rs := by
  induction attempts generalizing listed with
  | nil => cases ha
  | cons b attempts ih =>
    obtain ⟨rs, rest, hb, hrest, -⟩ := answers_cons_eq_ok.mp h
    rcases List.mem_cons.mp ha with rfl | ha
    · exact ⟨rs, hb⟩
    · exact ih hrest ha

/-- Attempts that come to a mishap have one that has it. -/
theorem exists_of_answers (h : answers attempts = .error mishap) :
    ∃ a ∈ attempts, a.answer = .error mishap := by
  induction attempts with
  | nil => cases h
  | cons a attempts ih =>
    have hhead (ha : a.answer = .error mishap) :
        ∃ b ∈ a :: attempts, b.answer = .error mishap := ⟨a, List.mem_cons_self, ha⟩
    have htail (hrest : answers attempts = .error mishap) :
        ∃ b ∈ a :: attempts, b.answer = .error mishap := by
      obtain ⟨b, hb, hanswer⟩ := ih hrest
      exact ⟨b, List.mem_cons_of_mem a hb, hanswer⟩
    rw [answers] at h
    split at h
    · next ha =>
      obtain rfl := Except.error.inj h
      exact hhead ha
    · next hrest _ => exact htail (hrest.trans h)
    · next ha _ =>
      obtain rfl := Except.error.inj h
      exact hhead ha
    · next hrest =>
      obtain rfl := Except.error.inj h
      exact htail hrest
    · cases h

/-- Attempts that have a mishap come to one. -/
theorem answers_of_mishap (ha : a ∈ attempts) (h : a.answer = .error mishap) :
    ∃ mishap', answers attempts = .error mishap' := by
  cases hanswers : answers attempts with
  | error mishap' => exact ⟨mishap', rfl⟩
  | ok listed =>
    obtain ⟨rs, hrs⟩ := answer_of_answers hanswers ha
    rw [h] at hrs
    cases hrs

/-- If no attempt has another mishap, this is what all of them come to. -/
theorem answers_of_only (ha : a ∈ attempts) (h : a.answer = .error mishap)
    (honly : ∀ b ∈ attempts, ∀ other, b.answer = .error other → other = mishap) :
    answers attempts = .error mishap := by
  obtain ⟨other, hanswers⟩ := answers_of_mishap ha h
  obtain ⟨b, hb, hanswer⟩ := exists_of_answers hanswers
  rw [hanswers, honly b hb other hanswer]

end Service

/-! ## At the same time -/

namespace Race

variable {race : Race} {i : Nat}

theorem heard?_eq_some (h : race.heard? attempts = some (a, i)) :
    attempts[i]? = some a ∧ ∃ mishap, a.answer = .error mishap := by
  obtain ⟨hmem, hfailed⟩ := List.mem_filter.mp (List.mem_of_getElem? h)
  exact ⟨List.mem_zipIdx_iff_getElem?.mp hmem, Attempt.hasFailed_iff.mp hfailed⟩

theorem mem_of_mem_made (h : a ∈ race.made attempts) : a ∈ attempts := by
  unfold made at h
  split at h
  · exact h
  · obtain ⟨⟨b, j⟩, hb, rfl⟩ := List.mem_map.mp h
    exact List.mem_of_getElem? (List.mem_zipIdx_iff_getElem?.mp (List.mem_filter.mp hb).1)

/-- Whoever is heard had no answer. -/
theorem heard?_of_answered (h : Service.answers attempts = .ok listed) :
    race.heard? attempts = none := by
  cases hheard : race.heard? attempts with
  | none => rfl
  | some found =>
    obtain ⟨hat, mishap, hanswer⟩ := heard?_eq_some hheard
    obtain ⟨rs, hrs⟩ := Service.answer_of_answers h (List.mem_of_getElem? hat)
    rw [hanswer] at hrs
    cases hrs

theorem made_of_answered (h : Service.answers attempts = .ok listed) :
    race.made attempts = attempts := by
  rw [made, heard?_of_answered h]

/-- Where all attempts have an answer, there is nothing to race for. -/
theorem answers_eq_ok :
    race.answers attempts = .ok listed ↔ Service.answers attempts = .ok listed := by
  constructor
  · intro h
    unfold answers at h
    split at h
    · exact h
    · next a i hheard =>
      obtain ⟨-, mishap, hanswer⟩ := heard?_eq_some hheard
      obtain ⟨rs, hrs⟩ := Service.answer_of_answers h List.mem_cons_self
      rw [hanswer] at hrs
      cases hrs
  · intro h
    rw [answers, heard?_of_answered h]
    exact h

theorem exists_of_answers (h : race.answers attempts = .error mishap) :
    ∃ a ∈ attempts, a.answer = .error mishap := by
  unfold answers at h
  split at h
  · exact Service.exists_of_answers h
  · next a i hheard =>
    obtain ⟨b, hb, hanswer⟩ := Service.exists_of_answers h
    rcases List.mem_cons.mp hb with rfl | hb
    · exact ⟨b, List.mem_of_getElem? (heard?_eq_some hheard).1, hanswer⟩
    · exact ⟨b, mem_of_mem_made hb, hanswer⟩

/-- If no attempt has another mishap, the race does not matter. -/
theorem answers_of_only (ha : a ∈ attempts) (h : a.answer = .error mishap)
    (honly : ∀ b ∈ attempts, ∀ other, b.answer = .error other → other = mishap) :
    race.answers attempts = .error mishap := by
  cases hanswers : race.answers attempts with
  | ok listed =>
    obtain ⟨rs, hrs⟩ := Service.answer_of_answers (answers_eq_ok.mp hanswers) ha
    rw [h] at hrs
    cases hrs
  | error other =>
    obtain ⟨b, hb, hanswer⟩ := exists_of_answers hanswers
    rw [honly b hb other hanswer]

/-- An attempt without an answer can be the only one that is made. -/
theorem exists_answers (ha : a ∈ attempts) (h : a.answer = .error mishap) :
    ∃ race : Race, race.answers attempts = .error mishap := by
  obtain ⟨i, hi⟩ := List.mem_iff_getElem?.mp ha
  have hfailed : (a, i) ∈ attempts.zipIdx.filter (·.1.hasFailed) :=
    List.mem_filter.mpr
      ⟨List.mem_zipIdx_iff_getElem?.mpr hi, Attempt.hasFailed_iff.mpr ⟨mishap, h⟩⟩
  obtain ⟨k, hk⟩ := List.mem_iff_getElem?.mp hfailed
  let race : Race := ⟨k, (List.range attempts.length).filter (· ≠ i)⟩
  have hheard : race.heard? attempts = some (a, i) := hk
  have halone (b : Attempt) (hb : b ∈ race.made attempts) : b = a := by
    simp only [made, hheard] at hb
    obtain ⟨⟨c, j⟩, hc, rfl⟩ := List.mem_map.mp hb
    obtain ⟨hmem, hj⟩ := List.mem_filter.mp hc
    have hat := List.mem_zipIdx_iff_getElem?.mp hmem
    have hlt : j < attempts.length := (List.getElem?_eq_some_iff.mp hat).1
    have heq : j = i := by
      by_contra hne
      simp [race, hne, hlt] at hj
    subst heq
    exact Option.some.inj (hat.symm.trans hi)
  refine ⟨race, ?_⟩
  rw [answers, hheard]
  refine Service.answers_of_only List.mem_cons_self h fun b hb other hanswer => ?_
  obtain rfl : b = a := (List.mem_cons.mp hb).elim id (halone b)
  exact Except.error.inj (hanswer.symm.trans h)

end Race

/-- **What a race can come to.** Every mishap that an attempt has is what some race comes to, and
there are no others. -/
theorem exists_race_iff : (∃ race : Race, race.answers attempts = .error mishap)
    ↔ ∃ a ∈ attempts, a.answer = .error mishap := by
  constructor
  · rintro ⟨race, h⟩
    exact Race.exists_of_answers h
  · rintro ⟨a, ha, h⟩
    exact Race.exists_answers ha h

end RepoSelect
