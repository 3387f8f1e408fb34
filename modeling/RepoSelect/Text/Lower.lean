import RepoSelect.Text.Case

/-!
# Lower case

A text in lower case, by the full mapping of Unicode: `İ` becomes two characters, and `Σ` at
the end of a word becomes `ς`.
-/

namespace RepoSelect

namespace Text

def inRanges (ranges : List (Nat × Nat)) (c : Char) : Bool :=
  ranges.any fun r => r.1 ≤ c.toNat && c.toNat ≤ r.2

/-- The lower-case form of one character, for all but `İ` and the final sigma. -/
def lowerChar (c : Char) : Char :=
  let n := c.toNat
  match lowerRuns.find? fun (first, last, step, _) =>
      first ≤ n && n ≤ last && (n - first) % step == 0 with
  | some (_, _, _, shift) => Char.ofNat (n + shift).toNat
  | none => c

/-- The nearest character that has to do with case is a letter. -/
def meetsCased (s : List Char) : Bool :=
  ((s.dropWhile (inRanges caseIgnorableRanges)).head?).any (inRanges casedRanges)

/-- Lower case of `s`, where `before` is what stands in front of it, the nearest first. -/
def lowerFrom (before : List Char) : List Char → List Char
  | [] => []
  | c :: r =>
    let here :=
      if c = 'Σ' then if meetsCased before && !meetsCased r then ['ς'] else ['σ']
      else if c = 'İ' then ['i', '\u0307']
      else [lowerChar c]
    here ++ lowerFrom (c :: before) r

def lower (s : List Char) : List Char := lowerFrom [] s

end Text

def lowercase (s : String) : String := String.ofList (Text.lower s.toList)

end RepoSelect
