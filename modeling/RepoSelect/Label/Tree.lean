import RepoSelect.Label.Index

/-!
# Labels as a tree

A root, a child for each label shown, and below it a child for each of its members.
-/

namespace RepoSelect

inductive Tree where
  | node (text : String) (children : List Tree)
deriving Repr

namespace Tree

def text : Tree → String
  | node text _ => text

def children : Tree → List Tree
  | node _ children => children

def leaf (text : String) : Tree := node text []

/-- Lines under a branch: `first` in front of the topmost, `rest` in front of the others. -/
def hang (first rest : String) : List String → List String
  | [] => []
  | line :: lines => (first ++ line) :: lines.map (rest ++ ·)

mutual

/-- The drawing of a tree, line by line. -/
def lines : Tree → List String
  | node text children => text :: branches children

def branches : List Tree → List String
  | [] => []
  | t :: ts =>
    if ts.isEmpty then hang "└─ " "   " t.lines
    else hang "├─ " "│  " t.lines ++ branches ts

end

end Tree

/-- The labels of the index that are wanted, all of them for an empty list. -/
def LabelIndex.tree (ix : LabelIndex) (wanted : List String) : Tree :=
  let names := ix.names.filter fun name => wanted.isEmpty || wanted.contains name
  .node "labels" <| (names.filterMap ix.label?).map fun l =>
    .node (l.name ++ " (" ++ toString l.members.size ++ ")") (l.members.toList.map .leaf)

end RepoSelect
