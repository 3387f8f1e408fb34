import RepoSelect.Yaml.Token

/-!
# YAML nodes

A document as a tree. Anchors are numbered; an alias holds the number of its anchor, and the
nodes behind the numbers are kept beside the tree.
-/

namespace RepoSelect.Yaml

inductive Node where
  | scalar (tag : Option String) (text : String) (style : ScalarStyle)
  | sequence (tag : Option String) (items : List Node)
  | mapping (tag : Option String) (entries : List (Node × Node))
  | alias (anchor : Nat)
deriving Repr

/-- A node behind an anchor. -/
structure Anchored where
  anchor : Nat
  /-- How many anchors stood in front of it. -/
  place : Nat
  node : Node
deriving Repr

structure Graph where
  /-- None in a text without a document. -/
  root : Option Node
  anchored : List Anchored
deriving Repr

/-- The node behind an anchor number; the last one in the text counts. -/
def Graph.lookup? (d : Graph) (anchor : Nat) : Option Node :=
  let last := (d.anchored.filter (·.anchor = anchor)).foldl (fun best a =>
    match best with
    | none => some a
    | some b => if b.place < a.place then some a else some b) none
  last.map (·.node)

/-- A value without text. -/
def Node.empty : Node := .scalar none "" .plain

end RepoSelect.Yaml
