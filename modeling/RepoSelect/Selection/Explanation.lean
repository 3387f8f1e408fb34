import RepoSelect.Filter.Group
import RepoSelect.Style

/-!
# Explanations of a selection

How a filter is read, in set notation, and what it selects.
-/

namespace RepoSelect.Selection

def countText (n : Nat) : String :=
  toString n ++ (if n = 1 then " repository" else " repositories") ++ " selected"

def explanation (g : LabelGroup) (style : Style) (names : List String) : List String :=
  let count := countText names.length
  [style.emphasis g.display, ""]
    ++ if names = [] then [count] else (count ++ ":") :: names.map ("  " ++ ·)

end RepoSelect.Selection
