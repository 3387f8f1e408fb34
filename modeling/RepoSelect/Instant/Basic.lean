import RepoSelect.Duration.Basic

/-!
# Instants

A moment of universal time: a day counted from 1 January 1970, the second within it, and the
nanoseconds past that second, which reach beyond a whole second only in a leap second. A
timestamp can have a leap second behind any second, an instant only at the end of a minute.

Main statement: the calendar year found for a day is the one that the day lies in
(`year_bounds`).
-/

namespace RepoSelect

namespace Calendar

/-- Days from 1 January 1970 to the first day of a year. -/
def daysBeforeYear (y : Int) : Int :=
  365 * (y - 1) + (y - 1) / 4 - (y - 1) / 100 + (y - 1) / 400 - 719162

def isLeapYear (y : Int) : Bool := y % 4 = 0 ∧ (y % 100 ≠ 0 ∨ y % 400 = 0)

/-- The lengths of the months of a year. -/
def monthLengths (leap : Bool) : List Nat :=
  [31, if leap then 29 else 28, 31, 30, 31, 30, 31, 31, 30, 31, 30, 31]

/-- The year that a day lies in. -/
def yearOf (day : Int) : Int :=
  let guess := (day + 719162) * 400 / 146097 + 1
  if day < daysBeforeYear guess then guess - 1
  else if daysBeforeYear (guess + 1) ≤ day then guess + 1
  else guess

theorem year_bounds (day : Int) :
    daysBeforeYear (yearOf day) ≤ day ∧ day < daysBeforeYear (yearOf day + 1) := by
  have hmid : ∀ g : Int, g = (day + 719162) * 400 / 146097 + 1 →
      daysBeforeYear (g - 1) ≤ day ∧ day < daysBeforeYear (g + 2) := by
    intro g hg
    simp only [daysBeforeYear]
    omega
  have := hmid _ rfl
  unfold yearOf
  dsimp only
  split
  · next h => exact ⟨this.1, by simpa using h⟩
  · next h =>
    split
    · next h' => exact ⟨h', by simpa [Int.add_assoc] using this.2⟩
    · next h' => exact ⟨Int.not_lt.1 h, Int.not_le.1 h'⟩

/-- The month, from 1 on, and the day of the month of a day of the year that starts at 0. -/
def splitDay (dayOfYear : Nat) : List Nat → Nat × Nat
  | [] => (0, dayOfYear + 1)
  | len :: lens =>
    if dayOfYear < len then (1, dayOfYear + 1)
    else
      let (month, day) := splitDay (dayOfYear - len) lens
      (month + 1, day)

/-- The number of a day of the calendar, if there is such a day. -/
def dayNumber? (year : Int) (month day : Nat) : Option Int :=
  let lengths := monthLengths (isLeapYear year)
  match lengths[month - 1]? with
  | none => none
  | some length =>
    if month = 0 ∨ day = 0 ∨ length < day then none
    else
      let before := (lengths.take (month - 1)).foldl Nat.add 0
      some (daysBeforeYear year + before + (day - 1 : Nat))

def minYear : Int := -262143

def maxYear : Int := 262142

/-- The days of the years that instants lie in. -/
def inRange (day : Int) : Prop :=
  daysBeforeYear minYear ≤ day ∧ day < daysBeforeYear (maxYear + 1)

instance (day : Int) : Decidable (inRange day) :=
  inferInstanceAs (Decidable (_ ∧ _))

end Calendar

structure Timestamp where
  day : Int
  second : Nat
  nanos : Nat
  day_inRange : Calendar.inRange day
  second_lt : second < 86400
  nanos_lt : nanos < 2 * 1000000000
deriving DecidableEq

namespace Timestamp

def isLeap (t : Timestamp) : Bool := 1000000000 ≤ t.nanos

/-- The leap second that lies between two times of day. -/
def leapBetween (t u : Timestamp) : Int :=
  if u.second < t.second ∧ u.isLeap then 1
  else if t.second < u.second ∧ t.isLeap then -1
  else 0

/-- The nanoseconds from `u` to `t`. -/
def nanosSince (t u : Timestamp) : Int :=
  ((t.day - u.day) * 86400 + ((t.second : Int) - u.second) + leapBetween t u) * 1000000000
    + ((t.nanos : Int) - u.nanos)

/-- The time from `u` to `t`; zero when `u` is later. -/
def since (t u : Timestamp) : Duration := ⟨(t.nanosSince u).toNat⟩

/-- Only the last second of a minute can be a leap second. -/
def IsInstant (t : Timestamp) : Prop := 1000000000 ≤ t.nanos → t.second % 60 = 59

instance (t : Timestamp) : Decidable t.IsInstant := inferInstanceAs (Decidable (_ → _))

end Timestamp

structure Instant extends Timestamp where
  leap_last : toTimestamp.IsInstant
deriving DecidableEq

instance : Coe Instant Timestamp := ⟨Instant.toTimestamp⟩

namespace Instant

/-- The instant of a day, a second of the day and nanoseconds past it. -/
def of? (day : Int) (second nanos : Nat) : Option Instant :=
  if h : Calendar.inRange day ∧ second < 86400 ∧ nanos < 2 * 1000000000 then
    let t : Timestamp := ⟨day, second, nanos, h.1, h.2.1, h.2.2⟩
    if hleap : t.IsInstant then some ⟨t, hleap⟩ else none
  else none

/-- The instant that lies `n` nanoseconds behind the start of 1970, leap seconds not counted. -/
def ofNanos? (n : Int) : Option Instant :=
  let seconds := n / 1000000000
  of? (seconds / 86400) (seconds % 86400).toNat (n % 1000000000).toNat

end Instant

end RepoSelect
