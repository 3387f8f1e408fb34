import RepoSelect.Proofs.FileTree.Follow

/-!
# Paths below a directory

What a path means that was joined to a directory. A relative path is followed along the components
of the directory and then along its own (`components_join`). An ordinary component has one meaning
wherever it stands, a name to go down to, and

> a path through some names behind a directory leads below them, if no `..` follows
> (`FileTree.endOf_below`).
-/

namespace RepoSelect

namespace Path

/-- A component that is a name: it says neither to stay nor to go up, and nothing parts it. -/
structure Ordinary (name : String) : Prop where
  ne_empty : name ≠ ""
  ne_dot : name ≠ "."
  ne_dots : name ≠ ".."
  no_slash : '/' ∉ name.toList

/-- The components of a path that count. -/
def names (p : String) : List String := (components p).filter (· ≠ ".")

/-! ## Joining -/

theorem components_eq_pieces (p : String) : components p = pieces p.toList := rfl

theorem components_join {p : String} (h : isAbsolute p = false) (base : String) :
    components (join base p) = components base ++ components p := by
  rw [join, h, Bool.false_or]
  split
  · next hempty =>
    rw [decide_eq_true_eq] at hempty
    rw [hempty]
    rfl
  · split
    · next hslash =>
      -- The slash that the base ends in is the cut between the two.
      obtain ⟨front, hfront⟩ := List.getLast?_eq_some_iff.mp hslash
      rw [components_eq_pieces, components_eq_pieces base, String.toList_append, hfront,
        List.append_assoc, List.singleton_append, pieces_append_slash, pieces_append_slash]
      exact congrArg (· ++ _) (List.append_nil _).symm
    · rw [components_eq_pieces, String.toList_append, String.toList_append, List.append_assoc]
      exact pieces_append_slash _ _

theorem isAbsolute_join {p : String} (h : isAbsolute p = false) (base : String) :
    isAbsolute (join base p) = isAbsolute base := by
  rw [join, h, Bool.false_or]
  split
  · next hempty =>
    rw [decide_eq_true_eq] at hempty
    rw [hempty, h]
    rfl
  · next hempty =>
    rw [decide_eq_true_eq] at hempty
    obtain ⟨d, rest, hbase⟩ := List.exists_cons_of_ne_nil (mt String.toList_eq_nil_iff.mp hempty)
    split
    · rw [isAbsolute, isAbsolute, String.toList_append, hbase]
      rfl
    · rw [isAbsolute, isAbsolute, String.toList_append, String.toList_append, hbase]
      rfl

theorem join_of_isAbsolute {p : String} (h : isAbsolute p = true) (base : String) :
    join base p = p := by
  rw [join, h, Bool.true_or, if_pos rfl]

namespace Ordinary

variable {name : String}

theorem isAbsolute_eq (h : Ordinary name) : isAbsolute name = false := by
  rw [isAbsolute, decide_eq_false_iff_not]
  exact fun hslash => h.no_slash (List.mem_of_mem_head? hslash)

theorem components_eq (h : Ordinary name) : components name = [name] := by
  rw [components_eq_pieces, pieces_of_not_mem (mt String.toList_eq_nil_iff.mp h.ne_empty)
    h.no_slash, String.ofList_toList]

theorem names_eq (h : Ordinary name) : names name = [name] := by
  simp [names, h.components_eq, h.ne_dot]

end Ordinary

end Path

namespace FileTree

/-- Components that do not go up lead to a place below. -/
theorem destination_below {names : List String} (h : ".." ∉ names) (here : Place) :
    here <+: destination here names := by
  induction names generalizing here with
  | nil => exact List.prefix_refl here
  | cons name names ih =>
    rw [List.mem_cons, not_or] at h
    refine List.IsPrefix.trans ?_ (ih h.2 (toward here name))
    by_cases hdot : name = "."
    · have hsame : toward here name = here := by rw [toward, if_pos hdot]
      exact hsame.symm ▸ List.prefix_refl here
    · rw [toward_of_ne hdot (Ne.symm h.1)]
      exact List.prefix_append here [name]

theorem destination_of_ordinary {names : List String} (h : ∀ name ∈ names, Path.Ordinary name)
    (here : Place) : destination here names = here ++ names := by
  induction names generalizing here with
  | nil => exact (List.append_nil here).symm
  | cons name names ih =>
    have hname := h name (by simp)
    have hrest := ih (fun other hother => h other (by simp [hother])) (here ++ [name])
    rw [List.append_assoc, List.singleton_append,
      ← toward_of_ne hname.ne_dot hname.ne_dots] at hrest
    exact hrest

/-- A path through names behind a directory leads below them, if it does not go up again. -/
theorem endOf_below {root path : String} {front behind : List String}
    (habs : Path.isAbsolute path = Path.isAbsolute root)
    (hpath : Path.components path = Path.components root ++ (front ++ behind))
    (hfront : ∀ name ∈ front, Path.Ordinary name) (hdots : ".." ∉ behind) (t : FileTree) :
    t.endOf root ++ front <+: t.endOf path := by
  have hend : t.endOf path = destination (t.endOf root ++ front) behind := by
    rw [endOf, endOf, start, start, habs, hpath, destination_append, destination_append,
      destination_of_ordinary hfront]
  rw [hend]
  exact destination_below hdots _

end FileTree

end RepoSelect
