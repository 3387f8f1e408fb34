import RepoSelect.Instant.Basic

/-!
# The time that has passed

The nanoseconds from one timestamp to another count a leap second only where the later time of day
lies behind the earlier one. So the time from a leap second to a moment of the same or a later day
is one second more in the hours behind it than in those before it, and at midnight, where the time
of day starts again, that second is lost:

> As time goes on, the time that has passed since a stamp shrinks only at the end of a day, when the
> stamp lies in a leap second that is not the last second of its own day: the first second of the
> next day counts as the last one of the day before (`since_lt_since_iff`).

A leap second that ends its day has no time of day behind it, and no stamp outside a leap second
gains anything, so that for these the time that has passed never shrinks.
-/

namespace RepoSelect.Timestamp

variable {t u stamp now later : Timestamp}

/-! ## The order of time -/

/-- An earlier day comes first, then an earlier second of the day. -/
instance : LE Timestamp :=
  ⟨fun t u => t.day < u.day ∨ t.day = u.day ∧
    (t.second < u.second ∨ t.second = u.second ∧ t.nanos ≤ u.nanos)⟩

instance (t u : Timestamp) : Decidable (t ≤ u) :=
  inferInstanceAs (Decidable (_ ∨ _ ∧ (_ ∨ _ ∧ _)))

theorem le_def : t ≤ u ↔ t.day < u.day ∨ t.day = u.day ∧
    (t.second < u.second ∨ t.second = u.second ∧ t.nanos ≤ u.nanos) := Iff.rfl

/-- The nanoseconds from the start of 1970, leap seconds not counted. -/
def count (t : Timestamp) : Int := (t.day * 86400 + t.second) * 1000000000 + t.nanos

theorem nanos_lt_of_not_isLeap (h : t.isLeap = false) : t.nanos < 1000000000 := by
  simpa [isLeap] using h

/-- Outside leap seconds the order of time is the order of the counts. -/
theorem le_iff_count_le (ht : t.isLeap = false) (hu : u.isLeap = false) :
    t ≤ u ↔ t.count ≤ u.count := by
  have htnanos := nanos_lt_of_not_isLeap ht
  have hunanos := nanos_lt_of_not_isLeap hu
  have htsecond := t.second_lt
  have husecond := u.second_lt
  rw [le_def, count, count]
  omega

/-! ## Since a stamp -/

/-- The second that a time of day behind a leap second gains. -/
def gain (stamp now : Timestamp) : Int :=
  if stamp.second < now.second ∧ stamp.isLeap = true then 1000000000 else 0

theorem nanosSince_eq (h : now.isLeap = false) :
    now.nanosSince stamp = now.count - stamp.count + gain stamp now := by
  have hleap : ¬(now.second < stamp.second ∧ now.isLeap = true) := by simp [h]
  rw [nanosSince, leapBetween, if_neg hleap, gain, count, count]
  split <;> omega

/-- At the end of a day the time since a leap second within a day is set back: the first moments of
the next day are no further from it than the last ones of this day. -/
structure SetsBack (stamp now later : Timestamp) : Prop where
  isLeap : stamp.isLeap = true
  within : stamp.second < 86399
  day_le : stamp.day ≤ now.day
  lastSecond : now.second = 86399
  nextDay : later.day = now.day + 1
  firstSecond : later.second = 0
  nanos_lt : later.nanos < now.nanos

/-- The gain is lost at midnight and nowhere else. -/
theorem nanosSince_lt_iff (hnow : now.isLeap = false) (hlater : later.isLeap = false)
    (h : now ≤ later) :
    later.nanosSince stamp < now.nanosSince stamp
      ↔ stamp.isLeap = true ∧ stamp.second < 86399 ∧ now.second = 86399
        ∧ later.day = now.day + 1 ∧ later.second = 0 ∧ later.nanos < now.nanos := by
  have hcount := (le_iff_count_le hnow hlater).mp h
  have hnanos := nanos_lt_of_not_isLeap hnow
  have hnanos' := nanos_lt_of_not_isLeap hlater
  have hsecond := now.second_lt
  have hsecond' := later.second_lt
  rw [nanosSince_eq hnow, nanosSince_eq hlater, gain, gain]
  simp only [count] at *
  cases stamp.isLeap with
  | false =>
    simp only [Bool.false_eq_true, and_false, if_false, false_and, iff_false]
    omega
  | true =>
    simp only [and_true, true_and]
    split <;> split <;> omega

theorem nanosSince_pos (hleap : now.isLeap = false) (h : stamp.isLeap = true)
    (hwithin : stamp.second < now.second) :
    0 < now.nanosSince stamp ↔ stamp.day ≤ now.day := by
  have hnanos := nanos_lt_of_not_isLeap hleap
  have hstamp : 1000000000 ≤ stamp.nanos := by simpa [isLeap] using h
  have hmost := stamp.nanos_lt
  have hsecond := now.second_lt
  rw [nanosSince_eq hleap, gain, if_pos ⟨hwithin, h⟩, count, count]
  omega

theorem since_lt_since_iff_nanosSince :
    later.since stamp < now.since stamp
      ↔ 0 < now.nanosSince stamp ∧ later.nanosSince stamp < now.nanosSince stamp := by
  show (later.nanosSince stamp).toNat < (now.nanosSince stamp).toNat ↔ _
  omega

/-- **The time that has passed is set back at midnight**, and never else. -/
theorem since_lt_since_iff (hnow : now.isLeap = false) (hlater : later.isLeap = false)
    (h : now ≤ later) : later.since stamp < now.since stamp ↔ SetsBack stamp now later := by
  rw [since_lt_since_iff_nanosSince, nanosSince_lt_iff hnow hlater h]
  constructor
  · rintro ⟨hpos, hleap, hwithin, hlast, hday, hfirst, hnanos⟩
    have hbehind : stamp.second < now.second := hlast ▸ hwithin
    exact ⟨hleap, hwithin, (nanosSince_pos hnow hleap hbehind).mp hpos, hlast, hday, hfirst, hnanos⟩
  · rintro ⟨hleap, hwithin, hday_le, hlast, hday, hfirst, hnanos⟩
    have hbehind : stamp.second < now.second := hlast ▸ hwithin
    exact ⟨(nanosSince_pos hnow hleap hbehind).mpr hday_le, hleap, hwithin, hlast, hday, hfirst,
      hnanos⟩

end RepoSelect.Timestamp
