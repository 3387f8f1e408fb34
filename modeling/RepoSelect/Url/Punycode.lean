/-!
# Punycode

A label of any characters in letters, digits and hyphens. The basic characters stand in
front. Behind the last hyphen, each of the others is a step through all pairs of a code point
and a position, in increasing order; a step is written in base 36 with a smallest digit that
follows the size of the steps before it.
-/

namespace RepoSelect.Url.Punycode

/-! ## Digits -/

def digitChar (d : Nat) : Char :=
  if d < 26 then Char.ofNat ('a'.toNat + d) else Char.ofNat ('0'.toNat + (d - 26))

def digitOf? (c : Char) : Option Nat :=
  if 'a' ≤ c ∧ c ≤ 'z' then some (c.toNat - 'a'.toNat)
  else if 'A' ≤ c ∧ c ≤ 'Z' then some (c.toNat - 'A'.toNat)
  else if c.isDigit then some (c.toNat - '0'.toNat + 26)
  else none

theorem digitOf?_digitChar : ∀ d < 36, digitOf? (digitChar d) = some d := by decide

/-- The threshold of the digit at place `k`: smaller digits are last ones. -/
def threshold (bias k : Nat) : Nat := min 26 (max 1 (36 * (k + 1) - bias))

theorem threshold_pos (bias k : Nat) : 0 < threshold bias k := by
  unfold threshold
  omega

/-- Divides by 35 until at most 455 is left, and counts 36 each time. -/
def scaleDown (delta : Nat) : Nat × Nat :=
  if 455 < delta then
    let (d, k) := scaleDown (delta / 35)
    (d, k + 36)
  else (delta, 0)
termination_by delta
decreasing_by omega

/-- The bias behind a step, `count` characters being placed by then. -/
def adapt (step count : Nat) (isFirst : Bool) : Nat :=
  let d := if isFirst then step / 700 else step / 2
  let (d, k) := scaleDown (d + d / count)
  k + 36 * d / (d + 38)

/-! ## Writing -/

/-- The digits of `n` from place `k` on. -/
def digits (bias k n : Nat) : List Char :=
  let t := threshold bias k
  if n < t then [digitChar n]
  else digitChar (t + (n - t) % (36 - t)) :: digits bias (k + 1) ((n - t) / (36 - t))
termination_by n
decreasing_by
  have := threshold_pos bias k
  exact Nat.lt_of_le_of_lt (Nat.div_le_self _ _) (by omega)

structure Writer where
  bias : Nat := 72
  step : Nat := 0
  /-- The number of characters placed. -/
  count : Nat
  /-- What is written, in reverse. -/
  written : List Char := []

/-- Passes the character `c` of a label on the way to the places of the code point `n`. -/
def Writer.pass (basic n : Nat) (w : Writer) (c : Char) : Writer :=
  if c.toNat < n then { w with step := w.step + 1 }
  else if c.toNat = n then
    { bias := adapt w.step (w.count + 1) (w.count = basic)
      step := 0
      count := w.count + 1
      written := (digits w.bias 0 w.step).reverse ++ w.written }
  else w

/-- Writes the code points `ns`, in increasing order; those below `first` are done. -/
def writeFrom (label : List Char) (basic first : Nat) : List Nat → Writer → Writer
  | [], w => w
  | n :: ns, w =>
    let w := { w with step := w.step + (n - first) * (w.count + 1) }
    let w := label.foldl (Writer.pass basic n) w
    writeFrom label basic (n + 1) ns { w with step := w.step + 1 }

def isBasic (c : Char) : Bool := c.toNat < 0x80

def encode (label : List Char) : List Char :=
  let basic := label.filter isBasic
  let others := (label.filter (!isBasic ·)).map Char.toNat
  let ns := (others.mergeSort (· ≤ ·)).eraseDups
  let w := writeFrom label basic.length 0x80 ns { count := basic.length }
  basic ++ (if basic = [] then [] else ['-']) ++ w.written.reverse

/-! ## Reading -/

/-- Reads digits from place `k` on, the place having the given weight. -/
def readDigits (bias k weight n : Nat) : List Char → Option (Nat × List Char)
  | [] => none
  | c :: r =>
    match digitOf? c with
    | none => none
    | some d =>
      let t := threshold bias k
      if d < t then some (n + d * weight, r)
      else readDigits bias (k + 1) (weight * (36 - t)) (n + d * weight) r

theorem length_readDigits_lt {bias k weight n m : Nat} {s r : List Char}
    (h : readDigits bias k weight n s = some (m, r)) : r.length < s.length := by
  induction s generalizing k weight n with
  | nil => simp [readDigits] at h
  | cons c s ih =>
    unfold readDigits at h
    split at h
    · cases h
    · simp only at h
      split at h
      · simp only [Option.some.injEq, Prod.mk.injEq] at h
        simp [h.2]
      · exact Nat.lt_succ_of_lt (ih h)

/-- Places further characters in `label`, from the code point `first` and a position on. -/
def place (bias first position : Nat) (label s : List Char) : Option (List Char) :=
  match s with
  | [] => some label
  | c :: cs =>
    match _h : readDigits bias 0 1 0 (c :: cs) with
    | none => none
    | some (step, r) =>
      let count := label.length + 1
      let n := first + (position + step) / count
      if n.isValidChar then
        let i := (position + step) % count
        place (adapt step count (position = 0)) n (i + 1)
          (label.insertIdx i (Char.ofNat n)) r
      else none
termination_by s.length
decreasing_by exact length_readDigits_lt ‹_›

def decode (s : List Char) : Option (List Char) :=
  let tail := (s.reverse.takeWhile (· ≠ '-')).reverse
  let front := (s.reverse.dropWhile (· ≠ '-')).drop 1
  if front.all isBasic then place 72 0x80 0 front.reverse tail else none

end RepoSelect.Url.Punycode
