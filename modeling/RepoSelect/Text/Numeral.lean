/-!
# Numerals

Natural numbers in bases up to sixteen, with letters of either case as digits from ten on.
-/

namespace RepoSelect.Text

/-- The value of a digit in a base. -/
def digitOf? (base : Nat) (c : Char) : Option Nat :=
  let n := if c.isDigit then c.toNat - '0'.toNat
    else if 'a' ≤ c ∧ c ≤ 'f' then c.toNat - 'a'.toNat + 10
    else if 'A' ≤ c ∧ c ≤ 'F' then c.toNat - 'A'.toNat + 10
    else base
  if n < base then some n else none

/-- The value of digits, at least one. -/
def natural? (base : Nat) (ds : List Char) : Option Nat :=
  if ds = [] then none
  else (ds.mapM (digitOf? base)).map fun ns => ns.foldl (fun n d => n * base + d) 0

end RepoSelect.Text
