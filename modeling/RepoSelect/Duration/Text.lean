import RepoSelect.Binary64
import RepoSelect.Duration.Basic
import RepoSelect.Power
import RepoSelect.Text.Blank
import RepoSelect.Text.Lower

/-!
# Durations as text

A number and a unit, such as `30s`, `1.5h` or `2w`. Reading takes the number as the nearest
binary64, converts the unit with one rounding, and rounds to the nearest nanosecond; writing
picks the largest unit that divides the duration.
-/

namespace RepoSelect

inductive DurationFault where
  | empty
  | noNumber (text : String)
  | badNumber (digits : String)
  | badUnit (unit : String)
  | outOfRange (text : String)
deriving Repr, DecidableEq

namespace DurationFault

def message : DurationFault → String
  | empty => "duration string cannot be empty"
  | noNumber text => "duration '" ++ text ++ "' must start with a number"
  | badNumber digits => "invalid number in duration: '" ++ digits ++ "'"
  | badUnit unit => "invalid duration unit: '" ++ unit ++ "'"
  | outOfRange text => "duration '" ++ text ++ "' out of range: "
      ++ "cannot convert float seconds to Duration: value is either too big or NaN"

def hint : DurationFault → Option String
  | badUnit _ => some "Valid units: ms, s, m, h, d, w"
  | _ => none

end DurationFault

inductive TimeUnit where
  | millisecond
  | second
  | minute
  | hour
  | day
  | week
deriving Repr, DecidableEq

namespace TimeUnit

def ofText? : String → Option TimeUnit
  | "ms" => some millisecond
  | "" | "s" | "sec" | "second" | "seconds" => some second
  | "m" | "min" | "minute" | "minutes" => some minute
  | "h" | "hr" | "hour" | "hours" => some hour
  | "d" | "day" | "days" => some day
  | "w" | "week" | "weeks" => some week
  | _ => none

/-- A number of these units in seconds. -/
def toSeconds (u : TimeUnit) (x : Binary64) : Binary64 :=
  match u with
  | millisecond => x.divide 1000
  | second => x
  | minute => x.scale 60
  | hour => x.scale 3600
  | day => x.scale 86400
  | week => x.scale 604800

end TimeUnit

/-- The value of a row of decimal digits. -/
def digitsValue (ds : List Char) : Nat :=
  ds.foldl (fun n c => 10 * n + (c.toNat - '0'.toNat)) 0

namespace Duration

/-- Digits with at most one point among them; a digit there must be. -/
def number? (s : List Char) : Option Binary64 :=
  let whole := s.takeWhile (· ≠ '.')
  let fraction := (s.dropWhile (· ≠ '.')).drop 1
  if s = ['.'] ∨ s = [] ∨ '.' ∈ fraction then none
  else some (.ofRatio (digitsValue (whole ++ fraction)) (tenTo fraction.length))

/-- The nearest whole number of nanoseconds; none from 2⁶⁴ seconds on. -/
def ofBinary64? (x : Binary64) : Option Duration :=
  if x.units < secondsBound * Binary64.one then
    some ⟨roundHalfEven (x.units * 1000000000) Binary64.one⟩
  else none

def parse (raw : String) : Except DurationFault Duration :=
  let text := Text.lower (Text.trim raw.toList)
  let isNumeric := fun c : Char => c.isDigit || c = '.'
  let digits := text.takeWhile isNumeric
  let unit := String.ofList (Text.trim (text.dropWhile isNumeric))
  if text = [] then .error .empty
  else if digits = [] then .error (.noNumber (.ofList text))
  else
    match number? digits with
    | none => .error (.badNumber (.ofList digits))
    | some x =>
      match TimeUnit.ofText? unit with
      | none => .error (.badUnit unit)
      | some u =>
        match ofBinary64? (u.toSeconds x) with
        | none => .error (.outOfRange (.ofList text))
        | some d => .ok d

/-- The units that `format` tries, largest first, with their seconds. -/
def wholeUnits : List (String × Nat) :=
  [("w", 604800), ("d", 86400), ("h", 3600), ("m", 60)]

/-- Milliseconds for parts of a second and for zero, else the largest unit that leaves no
remainder. -/
def format (d : Duration) : String :=
  if d.subsecNanos ≠ 0 ∨ d.seconds = 0 then toString d.millis ++ "ms"
  else
    match wholeUnits.find? fun u => d.seconds % u.2 = 0 with
    | some (unit, size) => toString (d.seconds / size) ++ unit
    | none => toString d.seconds ++ "s"

end Duration

end RepoSelect
