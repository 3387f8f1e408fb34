import RepoSelect.Filter.Token
import RepoSelect.Label.Index

/-!
# Evaluating a filter

Each token feeds one of three sets of repositories, and the selection is
`forced ∪ (included ∖ excluded)`. An unknown label contributes nothing, and a plain name is
taken as it stands.

A selection is a set. It is listed in increasing order, also by a filter without `sort`, whose
order is nobody's to rely on: the increasing one stands for any. So the flag is kept, and nothing
here reads it.

Main statement: a repository is selected exactly when it is forced, or included and not
excluded (`mem_selection`).
-/

namespace RepoSelect

structure Filter where
  markers : Markers := {}
  skipUnwanted : Bool := false
  unwanted : List String := []
  sort : Bool := true
deriving Repr, DecidableEq

structure Partition where
  forced : NameSet
  included : NameSet
  excluded : NameSet
deriving DecidableEq

namespace Partition

def get (p : Partition) : Bucket → NameSet
  | .forced => p.forced
  | .excluded => p.excluded
  | .included => p.included

def selection (p : Partition) : NameSet :=
  p.forced ∪ p.included.filter (· ∉ p.excluded)

end Partition

/-- The repositories that a token names: the members of its label, or its own name. -/
def LabelIndex.reach (ix : LabelIndex) (t : Token) : NameSet :=
  if t.isLabel then ix.members t.name else {t.name}

namespace Filter

/-- One token that excludes each unwanted label. -/
def unwantedTokens (f : Filter) : List String :=
  if f.skipUnwanted then f.unwanted.map fun l => f.markers.skip ++ f.markers.label ++ l
  else []

def expand (f : Filter) (raw : List String) : List String := raw ++ f.unwantedTokens

/-- The tokens of the expanded list that have a name. -/
def tokens (f : Filter) (raw : List String) : List Token :=
  ((f.expand raw).map (Token.read f.markers)).filter (·.name ≠ "")

def partition (f : Filter) (raw : List String) (ix : LabelIndex) : Partition :=
  let fed (b : Bucket) : NameSet :=
    NameSet.unions (((f.tokens raw).filter (·.bucket = b)).map ix.reach)
  ⟨fed .forced, fed .included, fed .excluded⟩

/-- The selected repositories, each once and in increasing order. -/
def evaluate (f : Filter) (raw : List String) (ix : LabelIndex) : List String :=
  (f.partition raw ix).selection.toList

end Filter

theorem Partition.mem_selection (p : Partition) (r : String) :
    r ∈ p.selection ↔ r ∈ p.forced ∨ (r ∈ p.included ∧ r ∉ p.excluded) := by
  simp [selection, Std.ExtTreeSet.mem_union_iff, Std.ExtTreeSet.mem_filter]

end RepoSelect
