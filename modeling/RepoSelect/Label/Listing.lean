import RepoSelect.Label.Index
import RepoSelect.Style
import RepoSelect.Text.Split

/-!
# Labels line by line

A text with one line per label, `name (count): repo, repo`, and an end behind each of them.
-/

namespace RepoSelect

namespace LabelIndex

/-- The labels to show: all of them, or the known ones of a list, in increasing order. -/
def shown (ix : LabelIndex) (wanted : List String) : List String :=
  if wanted.isEmpty then ix.names
  else (Std.ExtTreeSet.ofList (wanted.filter ix.contains)).toList

def lines (ix : LabelIndex) (wanted : List String) (style : Style) : List String :=
  ((ix.shown wanted).filterMap ix.label?).map fun l =>
    style.emphasis l.name ++ " (" ++ toString l.members.size ++ "): "
      ++ ", ".intercalate l.members.toList

/-- What is printed of the labels. -/
def listing (ix : LabelIndex) (wanted : List String) (style : Style) : String :=
  Text.unlines (ix.lines wanted style)

end LabelIndex

end RepoSelect
