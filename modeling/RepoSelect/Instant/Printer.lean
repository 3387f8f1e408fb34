import RepoSelect.Instant.Basic

/-!
# Writing a timestamp

RFC 3339 in universal time: `2026-01-02T03:04:05.678Z`, with as many groups of three places
as the fraction needs, one second more in a leap second, and a sign on years that do not have
four digits.
-/

namespace RepoSelect

/-- A number with zeros in front, to a width at least. -/
def padded (width n : Nat) : List Char :=
  let ds := Nat.toDigits 10 n
  List.replicate (width - ds.length) '0' ++ ds

namespace Timestamp

def yearText (y : Int) : List Char :=
  if 0 ≤ y ∧ y ≤ 9999 then padded 4 y.toNat
  else (if y < 0 then '-' else '+') :: padded 4 y.natAbs

/-- The fraction of a second in 0, 3, 6 or 9 places. -/
def fractionText (nanos : Nat) : List Char :=
  if nanos = 0 then []
  else if nanos % 1000000 = 0 then '.' :: padded 3 (nanos / 1000000)
  else if nanos % 1000 = 0 then '.' :: padded 6 (nanos / 1000)
  else '.' :: padded 9 nanos

/-- The time with a given text for the fraction of its second. -/
def printWith (fraction : List Char) (t : Timestamp) : String :=
  let year := Calendar.yearOf t.day
  let dayOfYear := (t.day - Calendar.daysBeforeYear year).toNat
  let (month, day) :=
    Calendar.splitDay dayOfYear (Calendar.monthLengths (Calendar.isLeapYear year))
  let second := t.second % 60 + if t.isLeap then 1 else 0
  String.ofList <|
    yearText year ++ '-' :: padded 2 month ++ '-' :: padded 2 day
      ++ 'T' :: padded 2 (t.second / 3600) ++ ':' :: padded 2 (t.second / 60 % 60)
      ++ ':' :: padded 2 second ++ fraction ++ ['Z']

def print (t : Timestamp) : String := t.printWith (fractionText (t.nanos % 1000000000))

/-- The time without the fraction of its second. -/
def printSeconds (t : Timestamp) : String := t.printWith []

end Timestamp

end RepoSelect
