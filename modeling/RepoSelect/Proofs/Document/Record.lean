import RepoSelect.Document

/-!
# Records that were read

A reading finds something exactly if each of its steps does (`bind_eq_ok`); where its faults are
said to arise makes no difference (`at_eq_ok`, `under_eq_ok`). So a record that was read has every
property that the record at the start has and that no slot takes away (`readRecord_keeps`).
-/

namespace RepoSelect.Document

variable {δ ε ε' α β σ : Type}

/-! ## Steps of a reading -/

theorem bind_eq_ok {x : Except ε α} {f : α → Except ε β} {b : β} :
    (x >>= f) = .ok b ↔ ∃ a, x = .ok a ∧ f a = .ok b := by
  cases x <;> simp [bind, Except.bind]

@[simp] theorem mapError_ok (f : ε → ε') (a : α) :
    (Except.ok a : Except ε α).mapError f = .ok a := rfl

@[simp] theorem mapError_error (f : ε → ε') (e : ε) :
    (Except.error e : Except ε α).mapError f = .error (f e) := rfl

@[simp] theorem mapError_eq_ok {x : Except ε α} {f : ε → ε'} {a : α} :
    x.mapError f = .ok a ↔ x = .ok a := by
  cases x <;> simp

@[simp] theorem at_eq_ok [Document δ] {x : Reading α} {a : α} : at_ δ x = .ok a ↔ x = .ok a :=
  mapError_eq_ok

@[simp] theorem under_eq_ok {s : Segment} {x : Reading α} {a : α} : under s x = .ok a ↔ x = .ok a :=
  mapError_eq_ok

@[simp] theorem atCause_eq_ok [Document δ] {x : Except Cause α} {a : α} :
    atCause δ x = .ok a ↔ x = .ok a := by
  rw [atCause, at_eq_ok, mapError_eq_ok]

theorem ok_of_toOption {ε α : Type} {x : Except ε α} {a : α} (h : x.toOption = some a) :
    x = .ok a := by
  cases x with
  | ok b => exact congrArg Except.ok (Option.some.inj h)
  | error e => cases h

/-! ## What slots keep -/

/-- No value in the slot takes the property from a record. -/
def Slot.Keeps (P : σ → Prop) (s : Slot δ σ) : Prop := ∀ d r r', s.put d r = .ok r' → P r → P r'

variable {P : σ → Prop} {slots : List (Slot δ σ)}

theorem fillPositions_keeps (hslots : ∀ s ∈ slots, s.Keeps P) {wanted : String} {i : Nat}
    {items : List δ} {r r' : σ} (h : fillPositions wanted i slots items r = .ok r') (hr : P r) :
    P r' := by
  induction slots generalizing i items r with
  | nil =>
    cases items with
    | nil =>
      cases h
      exact hr
    | cons d items => cases h
  | cons s slots ih =>
    have hrest : ∀ s ∈ slots, s.Keeps P := fun t ht => hslots t (by simp [ht])
    cases items with
    | nil =>
      simp only [fillPositions] at h
      split at h
      · cases h
      · exact ih hrest h hr
    | cons d items =>
      simp only [fillPositions, bind_eq_ok, under_eq_ok] at h
      obtain ⟨r₁, hput, h⟩ := h
      exact ih hrest h (hslots s (by simp) d r r₁ hput hr)

variable [Document δ]

theorem fill_keeps (hslots : ∀ s ∈ slots, s.Keeps P) {strict : Bool} {entries : List (δ × δ)}
    {seen : List String} {r : σ} {filled : List String × σ}
    (h : fill strict slots entries seen r = .ok filled) (hr : P r) : P filled.2 := by
  induction entries generalizing seen r with
  | nil =>
    cases h
    exact hr
  | cons e entries ih =>
    obtain ⟨k, d⟩ := e
    simp only [fill, bind_eq_ok] at h
    obtain ⟨key, -, h⟩ := h
    split at h
    · split at h
      · cases h
      · exact ih h hr
    · next s hfind =>
      split at h
      · cases h
      · obtain ⟨r', hput, h⟩ := bind_eq_ok.mp h
        have hs := hslots s (List.mem_of_find?_eq_some hfind)
        exact ih h (hs d r r' (under_eq_ok.mp hput) hr)

theorem readRecord_keeps (hslots : ∀ s ∈ slots, s.Keeps P) {record : String} {strict : Bool}
    {start r : σ} {d : δ} (h : readRecord record strict slots start d = .ok r) (hstart : P start) :
    P r := by
  simp only [readRecord, bind_eq_ok] at h
  obtain ⟨shape, -, h⟩ := h
  cases shape with
  | members entries =>
    obtain ⟨filled, hfill, h⟩ := bind_eq_ok.mp (at_eq_ok.mp h)
    have hfilled := fill_keeps hslots hfill hstart
    split at h
    · cases h
    · cases h
      exact hfilled
  | positions items => exact fillPositions_keeps hslots (at_eq_ok.mp h) hstart

end RepoSelect.Document
