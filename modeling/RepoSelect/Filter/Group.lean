import RepoSelect.Filter.Basic

/-!
# Set notation

The names of a filter grouped by bucket, labels unresolved, and their text, such as
`(+legacy) ∪ ((~frontend ∪ web) ∖ (old))`. The names of a bucket are written in increasing order.
That stands for any order if they need not be `sorted`, a flag that nothing here reads.
-/

namespace RepoSelect

structure LabelGroup where
  forced : Label
  included : Label
  excluded : Label
  sorted : Bool
deriving Repr, DecidableEq

namespace LabelGroup

def isEmpty (g : LabelGroup) : Bool :=
  g.forced.members.isEmpty && g.included.members.isEmpty && g.excluded.members.isEmpty

/-- A bucket's names joined by the sign of union, in parentheses. -/
def union (l : Label) : String := "(" ++ " ∪ ".intercalate l.members.toList ++ ")"

/-- The part of the selection that exclusions apply to, if it has a text. -/
def remainder? (g : LabelGroup) : Option String :=
  let included := if g.included.members.isEmpty then "∅" else union g.included
  if !g.excluded.members.isEmpty then some (included ++ " ∖ " ++ union g.excluded)
  else if g.included.members.isEmpty then none
  else some included

def display (g : LabelGroup) : String :=
  let forced? := if g.forced.members.isEmpty then none else some (union g.forced)
  match forced?, g.remainder? with
  | some forced, some rest =>
    if g.excluded.members.isEmpty then forced ++ " ∪ " ++ rest
    else forced ++ " ∪ (" ++ rest ++ ")"
  | some forced, none => forced
  | none, some rest => rest
  | none, none => "∅"

end LabelGroup

/-- The display names of a filter's tokens, by bucket. -/
def Filter.labelGroup (f : Filter) (raw : List String) : LabelGroup :=
  let shown (b : Bucket) : NameSet :=
    .ofList (((f.tokens raw).filter (·.bucket = b)).map (·.displayName f.markers))
  { forced := ⟨"forced", shown .forced⟩
    included := ⟨"included", shown .included⟩
    excluded := ⟨"excluded", shown .excluded⟩
    sorted := f.sort }

end RepoSelect
