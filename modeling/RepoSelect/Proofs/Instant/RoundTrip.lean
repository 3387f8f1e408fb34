import RepoSelect.Instant.Printer
import RepoSelect.Instant.Reader
import RepoSelect.Proofs.Instant.Calendar

/-!
# Reading a timestamp that was written

Every timestamp is read back from its text as it is written, leap seconds and years before 0 and
behind 9999 included (`read_print`). Field by field: a number written to a width is read back up
to whatever is no digit (`number_padded`), and so are a year with its sign (`yearStep_yearText`)
and a fraction in groups of three places (`fraction_fractionText`).

A text has a second 60 but no other place for a leap second, so one that is not at the end of
its minute is written as the second behind it (`Timestamp.asWritten`). Instants have no such leap
seconds, and they are read back as they are (`asWritten_coe`).
-/

namespace RepoSelect

namespace Timestamp

/-- The instant that the text of a timestamp names. -/
def asWritten (t : Timestamp) : Instant :=
  if h : t.IsInstant then { toTimestamp := t, leap_last := h }
  else
    { t with
      second := t.second + 1
      nanos := t.nanos - 1000000000
      second_lt := by unfold IsInstant at h; have := t.second_lt; omega
      nanos_lt := by have := t.nanos_lt; omega
      leap_last := by
        have := t.nanos_lt
        show 1000000000 ≤ t.nanos - 1000000000 → _
        omega }

@[simp] theorem asWritten_coe (t : Instant) : (t : Timestamp).asWritten = t := by
  rw [asWritten, dif_pos t.leap_last]

theorem asWritten_eq_iff (t : Timestamp) : (t.asWritten : Timestamp) = t ↔ t.IsInstant := by
  constructor
  · intro h
    rw [← h]
    exact t.asWritten.leap_last
  · intro h
    rw [asWritten, dif_pos h]

end Timestamp

namespace Instant

open Timestamp

/-! ## Numbers -/

/-- The text does not go on with a digit. -/
def EndsNumber (r : List Char) : Prop := ∀ c, r.head? = some c → c.isDigit = false

theorem endsNumber_cons {c : Char} (h : c.isDigit = false) (r : List Char) :
    EndsNumber (c :: r) := by
  rintro _ ⟨⟩
  exact h

theorem digitOf?_of_isDigit {c : Char} (h : c.isDigit = true) :
    digitOf? c = some (c.toNat - '0'.toNat) := by
  rw [digitOf?, if_pos h]

theorem le_ofDigitChars (ds : List Char) (n : Nat) : n ≤ Nat.ofDigitChars 10 ds n := by
  induction ds generalizing n with
  | nil => simp
  | cons c ds ih =>
    rw [Nat.ofDigitChars_cons]
    have := ih (10 * n + (c.toNat - '0'.toNat))
    omega

theorem moreDigits_append {ds r : List Char} {most n : Nat} (hds : ∀ c ∈ ds, c.isDigit = true)
    (hr : EndsNumber r) (hmost : ds.length ≤ most) (hn : Nat.ofDigitChars 10 ds n < twoTo 63) :
    moreDigits most n (ds ++ r) = .ok (Nat.ofDigitChars 10 ds n, r) := by
  induction ds generalizing most n with
  | nil =>
    cases r with
    | nil => cases most <;> simp [moreDigits]
    | cons c r =>
      have hc : digitOf? c = none := by rw [digitOf?, if_neg (by simp [hr c rfl])]
      cases most <;> simp [moreDigits, hc]
  | cons c ds ih =>
    obtain ⟨most, rfl⟩ : ∃ m, most = m + 1 := ⟨most - 1, by simp at hmost; omega⟩
    rw [Nat.ofDigitChars_cons] at hn ⊢
    have hle := le_ofDigitChars ds (10 * n + (c.toNat - '0'.toNat))
    rw [List.cons_append, moreDigits, digitOf?_of_isDigit (hds c (by simp))]
    simp only
    rw [if_pos (by omega)]
    exact ih (fun d hd => hds d (by simp [hd])) (by simpa using hmost) hn

/-! ## Numbers to a width -/

theorem isDigit_of_mem_padded {width n : Nat} {c : Char} (h : c ∈ padded width n) :
    c.isDigit = true := by
  unfold padded at h
  rcases List.mem_append.mp h with h | h
  · rw [List.eq_of_mem_replicate h]
    rfl
  · exact Nat.isDigit_of_mem_toDigits (by decide) (by decide) h

theorem length_padded (width n : Nat) (hpos : 0 < width) (h : n < tenTo width) :
    (padded width n).length = width := by
  have hlen := (Nat.length_toDigits_le_iff (b := 10) (by decide) hpos).mpr h
  simp only [padded, List.length_append, List.length_replicate]
  omega

theorem ofDigitChars_padded (width n : Nat) : Nat.ofDigitChars 10 (padded width n) 0 = n := by
  rw [padded, Nat.ofDigitChars_append, Nat.ofDigitChars_replicate_zero, Nat.mul_zero,
    Nat.ofDigitChars_ten_toDigits]

theorem padded_eq_cons (width n : Nat) : ∃ c ds, padded width n = c :: ds ∧ c.isDigit = true := by
  cases h : padded width n with
  | nil =>
    rw [padded, List.append_eq_nil_iff] at h
    exact absurd h.2 Nat.toDigits_ne_nil
  | cons c ds =>
    have hmem : c ∈ padded width n := by simp [h]
    exact ⟨c, ds, rfl, isDigit_of_mem_padded hmem⟩

/-- A number is read back from behind its zeros. -/
theorem number_padded (width most n : Nat) {r : List Char} (hr : EndsNumber r)
    (hmost : (padded width n).length ≤ most) (hn : n < twoTo 63) :
    number most (padded width n ++ r) = .ok (n, r) := by
  have hmore := moreDigits_append (n := 0) (fun c => isDigit_of_mem_padded) hr hmost
    (by rwa [ofDigitChars_padded])
  rw [ofDigitChars_padded] at hmore
  obtain ⟨c, ds, heq, hc⟩ := padded_eq_cons width n
  rw [heq] at hmore ⊢
  rw [List.cons_append, number, if_pos hc]
  exact hmore

theorem not_isBlank_of_isDigit {c : Char} (h : c.isDigit = true) : isBlank c = false := by
  simp only [Char.isDigit, Bool.and_eq_true, decide_eq_true_eq] at h
  have hlow : 48 ≤ c.toNat := h.1
  have hhigh : c.toNat ≤ 57 := h.2
  simp only [isBlank, Bool.or_eq_false_iff, Bool.and_eq_false_iff, decide_eq_false_iff_not,
    beq_eq_false_iff_ne]
  omega

theorem trimStart_cons {c : Char} (h : isBlank c = false) (r : List Char) :
    Text.trimStart (c :: r) = c :: r := by
  rw [Text.trimStart, List.dropWhile_cons_of_neg (by simp [h])]

theorem trimStart_padded (width n : Nat) (r : List Char) :
    Text.trimStart (padded width n ++ r) = padded width n ++ r := by
  obtain ⟨c, ds, heq, hc⟩ := padded_eq_cons width n
  rw [heq, List.cons_append, trimStart_cons (not_isBlank_of_isDigit hc)]

/-! ## Fields -/

theorem bounded_padded {most low high n : Nat} {r : List Char} (hr : EndsNumber r)
    (hpos : 0 < most) (hmost : n < tenTo most) (hn : n < twoTo 63) (hlow : low ≤ n)
    (hhigh : n ≤ high) :
    bounded most low high (padded most n ++ r) = .ok (n, r) := by
  rw [bounded, trimStart_padded,
    number_padded _ _ _ hr (Nat.le_of_eq (length_padded _ _ hpos hmost)) hn]
  simp only [bind, Except.bind]
  rw [if_pos ⟨hlow, hhigh⟩]

theorem mark_cons {m : Char} (h : isBlank m = false) (r : List Char) :
    mark m (m :: r) = .ok ((), r) := by
  rw [mark, trimStart_cons h]
  simp

/-- A year is read back with its sign, or without one from four digits. -/
theorem yearStep_yearText {y : Int} {r : List Char} (hr : EndsNumber r)
    (hy : y.natAbs < twoTo 31) : yearStep (yearText y ++ r) = .ok (y, r) := by
  have h63 : y.natAbs < twoTo 63 :=
    Nat.lt_trans hy (Nat.pow_lt_pow_right (by decide) (by decide))
  unfold yearStep yearText
  generalize twoTo 31 = bound at *
  have hrange : -(bound : Int) ≤ y ∧ y < bound := by omega
  have hsigned := number_padded 4 (padded 4 y.natAbs ++ r).length y.natAbs hr (by simp) h63
  by_cases hplain : 0 ≤ y ∧ y ≤ 9999
  · have hlen := length_padded 4 y.toNat (by decide) (by simp [tenTo]; omega)
    have hnumber := number_padded 4 4 y.toNat hr (Nat.le_of_eq hlen) (by omega)
    obtain ⟨c, ds, heq, hc⟩ := padded_eq_cons 4 y.toNat
    have hsign : c ≠ '-' ∧ c ≠ '+' := by
      constructor <;> (rintro rfl; cases hc)
    rw [if_pos hplain, trimStart_padded]
    rw [heq, List.cons_append] at hnumber ⊢
    split
    · next h => exact absurd (List.cons.inj h).1 hsign.1
    · next h => exact absurd (List.cons.inj h).1 hsign.2
    · simp only [hnumber, Except.map, bind, Except.bind, Int.toNat_of_nonneg hplain.1]
      rw [if_pos hrange]
  · rw [if_neg hplain]
    by_cases hneg : y < 0
    · rw [if_pos hneg, List.cons_append, trimStart_cons (by decide)]
      simp only [hsigned, Except.map, bind, Except.bind]
      rw [show -(y.natAbs : Int) = y by omega, if_pos hrange]
    · rw [if_neg hneg, List.cons_append, trimStart_cons (by decide)]
      simp only [hsigned, Except.map, bind, Except.bind]
      rw [show (y.natAbs : Int) = y by omega, if_pos hrange]

theorem fraction_padded {width n : Nat} {r : List Char} (hr : EndsNumber r) (hpos : 0 < width)
    (hnine : width ≤ 9) (hn : n < tenTo width) :
    fraction ('.' :: padded width n ++ r) = .ok (n * tenTo (9 - width), r) := by
  have hlen := length_padded _ _ hpos hn
  have hsmall : tenTo width ≤ tenTo 9 := Nat.pow_le_pow_right (by decide) hnine
  have h63 : tenTo 9 < twoTo 63 := by decide
  have hnumber := number_padded width 9 n hr (by omega) (by omega)
  have hrest : r.dropWhile Char.isDigit = r := by
    cases r with
    | nil => rfl
    | cons c r => rw [List.dropWhile_cons_of_neg (by simp [hr c rfl])]
  rw [List.cons_append, fraction, hnumber]
  simp only [bind, Except.bind, hrest, List.length_append, hlen, Nat.add_sub_cancel]

theorem fraction_fractionText {n : Nat} {r : List Char} (hn : n < 1000000000) :
    fraction (fractionText n ++ 'Z' :: r) = .ok (n, 'Z' :: r) := by
  have hr : EndsNumber ('Z' :: r) := endsNumber_cons rfl r
  unfold fractionText
  split
  · next hzero =>
    rw [hzero]
    rfl
  · split
    · next hmillis =>
      rw [fraction_padded hr (by decide) (by decide) (by simp [tenTo]; omega)]
      simp only [tenTo, Nat.pow_eq, Except.ok.injEq, Prod.mk.injEq, and_true]
      omega
    · split
      · next hmicros =>
        rw [fraction_padded hr (by decide) (by decide) (by simp [tenTo]; omega)]
        simp only [tenTo, Nat.pow_eq, Except.ok.injEq, Prod.mk.injEq, and_true]
        omega
      · rw [fraction_padded hr (by decide) (by decide) (by simp [tenTo]; omega)]
        simp

theorem endsNumber_fractionText (n : Nat) (r : List Char) :
    EndsNumber (fractionText n ++ 'Z' :: r) := by
  unfold fractionText
  repeat' split
  all_goals exact endsNumber_cons rfl _

/-! ## The whole text -/

theorem fields_text {f : Fields} (hyear : f.year.natAbs < twoTo 31)
    (hmonth : 1 ≤ f.month ∧ f.month ≤ 12) (hday : 1 ≤ f.day ∧ f.day ≤ 31) (hhour : f.hour ≤ 23)
    (hminute : f.minute ≤ 59) (hsecond : f.second ≤ 60) (hnanos : f.nanos < 1000000000)
    (hoffset : f.offset = 0) :
    fields (yearText f.year ++ '-' :: (padded 2 f.month ++ '-' :: (padded 2 f.day
      ++ 'T' :: (padded 2 f.hour ++ ':' :: (padded 2 f.minute ++ ':' :: (padded 2 f.second
      ++ (fractionText f.nanos ++ ['Z'])))))))
      = .ok (f, []) := by
  have hend : ∀ r, EndsNumber ('-' :: r) ∧ EndsNumber ('T' :: r) ∧ EndsNumber (':' :: r) :=
    fun r => ⟨endsNumber_cons rfl r, endsNumber_cons rfl r, endsNumber_cons rfl r⟩
  have htwo : ∀ {low high n : Nat} {r : List Char}, EndsNumber r → high < 100 →
      low ≤ n ∧ n ≤ high → bounded 2 low high (padded 2 n ++ r) = .ok (n, r) := by
    intro low high n r hr hhigh hn
    exact bounded_padded hr (by decide) (by simp [tenTo]; omega) (by simp [twoTo]; omega) hn.1 hn.2
  have hseparator : ∀ r, separator ('T' :: r) = .ok ((), r) := fun r => rfl
  have hzone : offset (Text.trimStart ['Z']) = .ok (0, []) := rfl
  have hdash : ∀ r, mark '-' ('-' :: r) = .ok ((), r) := mark_cons (by decide)
  have hcolon : ∀ r, mark ':' (':' :: r) = .ok ((), r) := mark_cons (by decide)
  simp only [fields, bind, Except.bind, yearStep_yearText (hend _).1 hyear, hdash, hcolon,
    hseparator, htwo (hend _).1 (by decide) hmonth, htwo (hend _).2.1 (by decide) hday,
    htwo (hend _).2.2 (by decide) ⟨Nat.zero_le _, hhour⟩,
    htwo (hend _).2.2 (by decide) ⟨Nat.zero_le _, hminute⟩,
    htwo (endsNumber_fractionText _ _) (by decide) ⟨Nat.zero_le _, hsecond⟩,
    fraction_fractionText hnanos, hzone, ← hoffset]

/-- Fields in universal time name the instant that has their day, their time of day and their
nanoseconds. -/
theorem Fields.instant_eq {f : Fields} {t : Instant}
    (hday : Calendar.dayNumber? f.year f.month f.day = some t.day) (hoffset : f.offset = 0)
    (hsecond : f.hour * 3600 + f.minute * 60 + (if f.second = 60 then 59 else f.second) = t.second)
    (hnanos : f.nanos + (if f.second = 60 then 1000000000 else 0) = t.nanos) :
    f.instant = .ok t := by
  have hlt := t.second_lt
  have hof : of? t.day t.second t.nanos = some t := by
    rw [of?, dif_pos ⟨t.day_inRange, hlt, t.nanos_lt⟩]
    exact dif_pos t.leap_last
  simp only [Fields.instant, hday, hoffset, hsecond, hnanos]
  rw [if_neg (by simp [t.day_inRange]),
    show t.day + ((t.second : Int) - 0) / 86400 = t.day by omega,
    show (((t.second : Int) - 0) % 86400).toNat = t.second by omega, hof]

theorem natAbs_yearOf_lt (t : Timestamp) : (Calendar.yearOf t.day).natAbs < twoTo 31 := by
  obtain ⟨hstart, hend⟩ := Calendar.year_bounds t.day
  obtain ⟨hfirst, hlast⟩ := t.day_inRange
  simp only [Calendar.daysBeforeYear, Calendar.minYear, Calendar.maxYear] at *
  simp only [twoTo, Nat.pow_eq]
  omega

/-- **Every timestamp is read back from its text** as it is written. -/
theorem read_print (t : Timestamp) : read t.print = .ok t.asWritten := by
  obtain ⟨month, day, hsplit, hmonth, hmonth', hday, hday', hnumber⟩ :=
    Calendar.dayNumber?_splitDay t.day
  have hsecond := t.second_lt
  have hnanos := t.nanos_lt
  let f : Fields :=
    { year := Calendar.yearOf t.day, month, day, hour := t.second / 3600
      minute := t.second / 60 % 60, second := t.second % 60 + if t.isLeap then 1 else 0
      nanos := t.nanos % 1000000000, offset := 0 }
  have hsecond' : f.second ≤ 60 := by
    show t.second % 60 + (if t.isLeap then 1 else 0) ≤ 60
    split <;> omega
  have hfields := fields_text (f := f) (natAbs_yearOf_lt t) ⟨hmonth, hmonth'⟩ ⟨hday, hday'⟩
    (by show t.second / 3600 ≤ 23; omega) (by show t.second / 60 % 60 ≤ 59; omega) hsecond'
    (by show t.nanos % 1000000000 < 1000000000; omega) rfl
  have hinstant : f.instant = .ok t.asWritten := by
    by_cases hlast : t.IsInstant
    · rw [asWritten, dif_pos hlast]
      unfold IsInstant at hlast
      refine Fields.instant_eq hnumber rfl ?_ ?_
      all_goals
        simp only [f, isLeap, decide_eq_true_eq]
        split <;> split <;> omega
    · -- The second behind the leap second is in the same minute.
      rw [asWritten, dif_neg hlast]
      unfold IsInstant at hlast
      refine Fields.instant_eq hnumber rfl ?_ ?_
      all_goals
        simp only [f, isLeap, decide_eq_true_eq]
        split <;> split <;> omega
  simp only [f] at hfields
  simp only [read, print, printWith, hsplit, String.toList_ofList, List.append_assoc,
    List.cons_append, hfields, bind, Except.bind]
  exact hinstant

end Instant

end RepoSelect
