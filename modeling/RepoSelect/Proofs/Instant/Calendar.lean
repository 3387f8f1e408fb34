import RepoSelect.Instant.Basic

/-!
# Days and dates

A day has one date, and the date names that day again (`dayNumber?_splitDay`):

> the year that a day lies in, the month that the days left in it reach, and the day of that month
> are a date of the calendar, and its number is the day.

The years are as long as the months together (`daysBeforeYear_succ`), so that the search for the
month always ends within one (`splitDay_spec`).
-/

namespace RepoSelect.Calendar

/-- The days of some months. -/
def total (lengths : List Nat) : Nat := lengths.foldl Nat.add 0

theorem foldl_add (a : Nat) (lengths : List Nat) :
    lengths.foldl Nat.add a = a + lengths.foldl Nat.add 0 := by
  induction lengths generalizing a with
  | nil => rfl
  | cons len lens ih =>
    rw [List.foldl_cons, List.foldl_cons, ih (Nat.add a len), ih (Nat.add 0 len)]
    simp only [Nat.add_eq]
    omega

theorem total_cons (len : Nat) (lens : List Nat) : total (len :: lens) = len + total lens := by
  rw [total, List.foldl_cons, foldl_add, Nat.add_eq, Nat.zero_add]
  rfl

/-- The month found is one of the months, the day is one of its days, and the days in front of
it are as many as were asked for. -/
theorem splitDay_spec {dayOfYear : Nat} {lengths : List Nat} (h : dayOfYear < total lengths) :
    ∃ month day len, splitDay dayOfYear lengths = (month + 1, day + 1)
      ∧ lengths[month]? = some len ∧ day < len
      ∧ total (lengths.take month) + day = dayOfYear := by
  induction lengths generalizing dayOfYear with
  | nil => exact absurd h (Nat.not_lt_zero _)
  | cons len lens ih =>
    by_cases hlt : dayOfYear < len
    · exact ⟨0, dayOfYear, len, by simp [splitDay, hlt], rfl, hlt, by simp [total]⟩
    · rw [total_cons] at h
      have hrest : dayOfYear - len < total lens := by omega
      obtain ⟨month, day, len', hsplit, hlen, hday, htotal⟩ := ih hrest
      refine ⟨month + 1, day, len', by simp [splitDay, hlt, hsplit], by simpa using hlen, hday, ?_⟩
      rw [List.take_succ_cons, total_cons]
      omega

theorem total_monthLengths (leap : Bool) :
    total (monthLengths leap) = if leap then 366 else 365 := by
  cases leap <;> rfl

theorem daysBeforeYear_succ (y : Int) :
    daysBeforeYear (y + 1) = daysBeforeYear y + total (monthLengths (isLeapYear y)) := by
  rw [total_monthLengths]
  simp only [daysBeforeYear, isLeapYear, decide_eq_true_eq]
  split <;> omega

theorem dayNumber?_splitDay (day : Int) :
    ∃ month dayOfMonth, splitDay (day - daysBeforeYear (yearOf day)).toNat
        (monthLengths (isLeapYear (yearOf day))) = (month, dayOfMonth)
      ∧ 1 ≤ month ∧ month ≤ 12 ∧ 1 ≤ dayOfMonth ∧ dayOfMonth ≤ 31
      ∧ dayNumber? (yearOf day) month dayOfMonth = some day := by
  obtain ⟨hstart, hend⟩ := year_bounds day
  rw [daysBeforeYear_succ] at hend
  generalize yearOf day = year at *
  generalize hlengths : monthLengths (isLeapYear year) = lengths at *
  have hin : (day - daysBeforeYear year).toNat < total lengths := by omega
  obtain ⟨month, dayOfMonth, len, hsplit, hlen, hday, htotal⟩ := splitDay_spec hin
  have hbounds : lengths.length = 12 ∧ ∀ l ∈ lengths, l ≤ 31 := by
    subst hlengths
    cases isLeapYear year <;> decide
  obtain ⟨hmonth, -⟩ := List.getElem?_eq_some_iff.mp hlen
  have hmost := hbounds.2 len (List.mem_of_getElem? hlen)
  refine ⟨month + 1, dayOfMonth + 1, hsplit, by omega, by omega, by omega, by omega, ?_⟩
  simp only [dayNumber?, hlengths, Nat.add_sub_cancel, hlen]
  rw [if_neg (by omega), Option.some.injEq]
  have hbefore : (lengths.take month).foldl Nat.add 0 = total (lengths.take month) := rfl
  omega

end RepoSelect.Calendar
