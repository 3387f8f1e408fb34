import RepoSelect.Power
import RepoSelect.Text.Numeral
import RepoSelect.Text.Split

/-!
# Internet addresses

Addresses of 32 bits, as up to four numbers in three bases, and of 128 bits, as eight groups
of which a run of zeros may be left out.
-/

namespace RepoSelect.Url

open Text (natural? splitAt)

/-! ## Four parts -/

namespace Address

/-- A number in base 16 behind `0x`, in base 8 behind `0`, else in base 10; a base alone is
zero. -/
def number? : List Char → Option Nat
  | '0' :: x :: r =>
    if x = 'x' ∨ x = 'X' then if r = [] then some 0 else natural? 16 r
    else natural? 8 (x :: r)
  | s => natural? 10 s

/-- The parts of a text between dots; a dot at the end does not count. -/
def parts (s : List Char) : List (List Char) :=
  match (splitAt '.' s).reverse with
  | [] :: ps => ps.reverse
  | ps => ps.reverse

/-- The last part looks like a number, so that the whole can be nothing but an address. -/
def endsInNumber (s : List Char) : Bool :=
  match (parts s).getLast? with
  | none => false
  | some part => (part ≠ [] && part.all Char.isDigit) || (number? part).isSome

/-- The bytes of `n`, `count` of them. -/
def bytes (count n : Nat) : List Nat :=
  (List.range count).reverse.map fun i => n / twoTo (8 * i) % 256

/-- One to four numbers; the last one fills the bytes that are left. -/
def v4? (s : List Char) : Option (List Nat) := do
  let numbers ← (parts s).mapM number?
  let last ← numbers.getLast?
  let front := numbers.dropLast
  if 3 < front.length ∨ front.any (255 < ·) then none
  else if twoTo (8 * (4 - front.length)) ≤ last then none
  else some (front ++ bytes (4 - front.length) last)

def v4Text (bytes : List Nat) : String := ".".intercalate (bytes.map toString)

/-! ## Eight groups -/

/-- One byte in decimal, without zeros in front. -/
def byte? (s : List Char) : Option Nat :=
  if s.head? = some '0' ∧ 1 < s.length then none
  else (natural? 10 s).bind fun n => if n < 256 then some n else none

/-- Two groups, as four bytes between dots. -/
def dotted? (s : List Char) : Option (List Nat) := do
  match ← (splitAt '.' s).mapM byte? with
  | [a, b, c, d] => some [256 * a + b, 256 * c + d]
  | _ => none

def group? (s : List Char) : Option Nat := if 4 < s.length then none else natural? 16 s

/-- Groups between colons; the last may be two groups as bytes. -/
def groups? : List (List Char) → Option (List Nat)
  | [] => some []
  | [s] => if s.contains '.' then dotted? s else (group? s).map ([·])
  | s :: ss => do some ((← group? s) :: (← groups? ss))

/-- What stands in front of the first two colons, and behind them. -/
def cutAtGap? : List Char → Option (List Char × List Char)
  | ':' :: ':' :: r => some ([], r)
  | c :: r => (cutAtGap? r).map fun (front, back) => (c :: front, back)
  | [] => none

/-- The groups of a text, which may be empty. -/
def side? (s : List Char) : Option (List Nat) :=
  if s = [] then some [] else groups? (splitAt ':' s)

/-- The eight groups of an address without its brackets. -/
def v6? (s : List Char) : Option (List Nat) :=
  match cutAtGap? s with
  | none => do
    let groups ← side? s
    if groups.length = 8 then some groups else none
  | some (front, back) => do
    if front.contains '.' then none
    else
      let front ← side? front
      let back ← side? back
      let count := front.length + back.length
      if count < 8 then some (front ++ List.replicate (8 - count) 0 ++ back) else none

/-- How many zeros stand at each place and behind it without a break. -/
def zeroRuns : List Nat → List Nat
  | [] => []
  | 0 :: r =>
    let runs := zeroRuns r
    ((runs.headD 0) + 1) :: runs
  | _ :: r => 0 :: zeroRuns r

def hex (n : Nat) : String := String.ofList (Nat.toDigits 16 n)

/-- Groups in base 16; the first of the longest runs of two or more zeros is left out. -/
def v6Text (groups : List Nat) : String :=
  let runs := zeroRuns groups
  let longest := runs.foldl max 0
  let shown (gs : List Nat) := ":".intercalate (gs.map hex)
  if longest < 2 then shown groups
  else
    let start := runs.idxOf longest
    shown (groups.take start) ++ "::" ++ shown (groups.drop (start + longest))

end Address

end RepoSelect.Url
