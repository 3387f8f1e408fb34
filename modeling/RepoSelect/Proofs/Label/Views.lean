import Mathlib.Data.List.Forall2
import Mathlib.Data.List.Sort
import RepoSelect.Label.Listing
import RepoSelect.Label.Tree
import RepoSelect.Proofs.Label.Build

/-!
# Labels as lines and as a tree

The lines and the tree choose their labels in different ways: one sorts the wanted names that are
known, the other takes those of all names that are wanted. Both are increasing and have the same
members, so they are the same list (`shown_eq_filter`), and so are the labels found for it. Hence

> the lines are those of the children of the tree, in the same order, and the labels shown are the
> known ones that are wanted, each once and in increasing order (`views_agree`).
-/

namespace RepoSelect

/-- A child and its own children on one line. -/
def Tree.line (t : Tree) : String := t.text ++ ": " ++ ", ".intercalate (t.children.map Tree.text)

namespace LabelIndex

variable {ix : LabelIndex} {wanted : List String} {name : String}

/-! ## The labels shown -/

theorem shown_pairwise_lt (ix : LabelIndex) (wanted : List String) :
    (ix.shown wanted).Pairwise (· < ·) := by
  unfold shown
  split
  · exact ix.names_pairwise_lt
  · exact NameSet.pairwise_lt _

theorem mem_shown :
    name ∈ ix.shown wanted ↔ ix.contains name = true ∧ (wanted = [] ∨ name ∈ wanted) := by
  unfold shown
  split
  next hempty =>
    have hwanted : wanted = [] := List.isEmpty_iff.mp hempty
    rw [mem_names, and_iff_left (.inl hwanted)]
  next hne =>
    have hwanted : wanted ≠ [] := fun h => hne (by rw [h]; rfl)
    rw [Std.ExtTreeSet.mem_toList, Std.ExtTreeSet.mem_ofList, List.contains_iff_mem,
      List.mem_filter, or_iff_right hwanted, and_comm]

/-- The wanted names that are known, in order, are the known names that are wanted. -/
theorem shown_eq_filter (ix : LabelIndex) (wanted : List String) :
    ix.shown wanted = ix.names.filter fun name => wanted.isEmpty || wanted.contains name := by
  refine (shown_pairwise_lt ix wanted).eq_of_mem_iff (ix.names_pairwise_lt.filter _) fun name => ?_
  rw [mem_shown, List.mem_filter, mem_names, Bool.or_eq_true, List.isEmpty_iff,
    List.contains_iff_mem]

theorem label?_of_contains (h : ix.contains name = true) :
    ix.label? name = some ⟨name, ix.members name⟩ := by
  rw [contains, Std.ExtTreeMap.contains_eq_isSome_getElem?, Option.isSome_iff_exists] at h
  obtain ⟨repos, hget⟩ := h
  simp [label?, members, get?, hget]

theorem filterMap_label?_shown (ix : LabelIndex) (wanted : List String) :
    (ix.shown wanted).filterMap ix.label?
      = (ix.shown wanted).map fun name => ⟨name, ix.members name⟩ := by
  rw [← List.filterMap_eq_map]
  refine List.filterMap_congr fun name hmem => ?_
  exact label?_of_contains (mem_shown.mp hmem).1

/-! ## The two views -/

/-- The child for a label. -/
def child (ix : LabelIndex) (name : String) : Tree :=
  .node (name ++ " (" ++ toString (ix.members name).size ++ ")")
    ((ix.members name).toList.map .leaf)

theorem children_tree (ix : LabelIndex) (wanted : List String) :
    (ix.tree wanted).children = (ix.shown wanted).map ix.child := by
  rw [tree, Tree.children, ← shown_eq_filter, filterMap_label?_shown, List.map_map]
  rfl

theorem map_text_children (ix : LabelIndex) (name : String) :
    (ix.child name).children.map Tree.text = (ix.members name).toList := by
  rw [child, Tree.children, List.map_map]
  exact List.map_id _

theorem lines_plain (ix : LabelIndex) (wanted : List String) :
    ix.lines wanted .plain = (ix.shown wanted).map fun name => (ix.child name).line := by
  rw [lines, filterMap_label?_shown, List.map_map]
  refine List.map_congr_left fun name _ => ?_
  have hcolon : "): " = ")" ++ ": " := rfl
  rw [Tree.line, map_text_children, Function.comp_apply, hcolon, ← String.append_assoc]
  rfl

/-- A child shows a label: its name and how many members it has, and below it the members in
increasing order. -/
structure Shows (ix : LabelIndex) (name : String) (child : Tree) : Prop where
  text : child.text = name ++ " (" ++ toString child.children.length ++ ")"
  members : ∀ r, r ∈ child.children.map Tree.text ↔ r ∈ ix.members name
  increasing : (child.children.map Tree.text).Pairwise (· < ·)

theorem shows_child (ix : LabelIndex) (name : String) : ix.Shows name (ix.child name) where
  text := by
    rw [← List.length_map Tree.text, map_text_children, Std.ExtTreeSet.length_toList]
    rfl
  members r := by rw [map_text_children, Std.ExtTreeSet.mem_toList]
  increasing := by
    rw [map_text_children]
    exact NameSet.pairwise_lt _

/-- **Lines and tree agree.** Without colour there is one line for each child of the tree, in the
same order, and it is the text of the child with its own children behind it; nothing else is
printed. The children show the labels that are known and wanted, each once and in increasing order,
and all labels if none is named. -/
theorem views_agree (ix : LabelIndex) (wanted : List String) :
    ix.lines wanted .plain = (ix.tree wanted).children.map Tree.line
      ∧ ix.listing wanted .plain
        = String.join ((ix.tree wanted).children.map fun child => child.line ++ "\n")
      ∧ ∃ names : List String,
          List.Forall₂ ix.Shows names (ix.tree wanted).children
            ∧ names.Pairwise (· < ·)
            ∧ ∀ name, name ∈ names ↔ ix.contains name = true ∧ (wanted = [] ∨ name ∈ wanted) := by
  have hlines : ix.lines wanted .plain = (ix.tree wanted).children.map Tree.line := by
    rw [lines_plain, children_tree, List.map_map]
    rfl
  refine ⟨hlines, ?_, ix.shown wanted, ?_, shown_pairwise_lt ix wanted, fun name => mem_shown⟩
  · rw [listing, hlines, Text.unlines, List.map_map]
    rfl
  · rw [children_tree, List.forall₂_map_right_iff, List.forall₂_same]
    exact fun name _ => shows_child ix name

end LabelIndex

end RepoSelect
