import Std.Data.ExtTreeSet
import Std.Data.ExtTreeMap

/-!
# Sets of names and tables by name

Names are ordered by code point. Both containers are extensional: two of them are equal
when they hold the same, and their lists come out in increasing order.
-/

namespace RepoSelect

abbrev NameSet := Std.ExtTreeSet String

abbrev NameMap (α : Type) := Std.ExtTreeMap String α

namespace NameSet

/-- The members of every set of a list. -/
def unions (sets : List NameSet) : NameSet := sets.foldl (· ∪ ·) ∅

theorem mem_foldl_union (sets : List NameSet) (s : NameSet) (x : String) :
    x ∈ sets.foldl (· ∪ ·) s ↔ x ∈ s ∨ ∃ t ∈ sets, x ∈ t := by
  induction sets generalizing s with
  | nil => simp
  | cons t ts ih => simp [ih, Std.ExtTreeSet.mem_union_iff, or_assoc]

theorem mem_unions (sets : List NameSet) (x : String) :
    x ∈ unions sets ↔ ∃ t ∈ sets, x ∈ t := by
  rw [unions, mem_foldl_union]
  simp [Std.ExtTreeSet.not_mem_empty]

theorem mem_singleton {x y : String} : x ∈ ({y} : NameSet) ↔ x = y := by
  rw [Std.ExtTreeSet.singleton_eq_insert, Std.ExtTreeSet.mem_insert,
    Std.LawfulEqCmp.compare_eq_iff_eq, or_iff_left Std.ExtTreeSet.not_mem_empty]
  exact eq_comm

theorem pairwise_lt (s : NameSet) : s.toList.Pairwise (· < ·) := by
  have hord := s.ordered_toList
  exact hord.imp fun hlt => compareOfLessAndEq_eq_lt.mp hlt

end NameSet

/-- A table is its entries. -/
theorem NameMap.ofList_toList {α : Type} (m : NameMap α) : .ofList m.toList = m := by
  ext1 k
  cases hk : m[k]? with
  | some a =>
    have hmem := Std.ExtTreeMap.mem_toList_iff_getElem?_eq_some.mpr hk
    exact Std.ExtTreeMap.getElem?_ofList_of_mem Std.ReflCmp.compare_self
      Std.ExtTreeMap.distinct_keys_toList hmem
  | none =>
    refine Std.ExtTreeMap.getElem?_ofList_of_contains_eq_false ?_
    rw [Std.ExtTreeMap.map_fst_toList_eq_keys, Std.ExtTreeMap.contains_keys,
      Std.ExtTreeMap.contains_eq_isSome_getElem?, hk, Option.isSome_none]

end RepoSelect
