import RepoSelect.Suggestion.EditDistance

/-!
# Names that were perhaps meant

The nearest of some candidates, if it is at most two edits away and fewer edits than the name
has bytes.
-/

namespace RepoSelect

/-- A candidate near enough to be suggested, with its distance. -/
def near? (name candidate : String) : Option (String × Nat) :=
  let d := editDistance name candidate
  if d ≤ 2 ∧ d < name.utf8ByteSize then some (candidate, d) else none

/-- The earliest of the pairs with the smallest number. -/
def nearest : List (String × Nat) → Option (String × Nat)
  | [] => none
  | p :: ps =>
    match nearest ps with
    | none => some p
    | some q => if q.2 < p.2 then some q else some p

/-- The candidate that was perhaps meant. -/
def similar? (name : String) (candidates : List String) : Option String :=
  (nearest (candidates.filterMap (near? name))).map (·.1)

end RepoSelect
