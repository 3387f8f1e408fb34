import RepoSelect.FileTree.Basic

/-!
# The places along a path

The places that a path leads along, the outermost first: all that what it leads to depends
on. Main statement: trees that have the same at those places have the same at the end of the
path (`lookup_congr`).
-/

namespace RepoSelect.FileTree

/-- Where a component leads to from the directory `here`, if all goes well. -/
def toward (here : Place) (name : String) : Place :=
  if name = "." then here else if name = ".." then here.dropLast else here ++ [name]

/-- The places that some components lead along, seen from the directory `here`. -/
def placesFrom (here : Place) : List String → List Place
  | [] => []
  | name :: names => toward here name :: placesFrom (toward here name) names

/-- The places that a path leads along; the last one is what the path means. -/
def placesAlong (t : FileTree) (path : String) : List Place :=
  placesFrom (t.start path) (Path.components path)

theorem child_eq_ok {here there : Place} {name : String} (h : child here name = .ok there) :
    there = here ++ [name] := by
  unfold child at h
  split at h
  · cases h
  · exact (Except.ok.inj h).symm

/-- A component leads where it is meant to, or nowhere. -/
theorem descend_eq_ok {t : FileTree} {here there : Place} {name : String}
    (h : t.descend here name = .ok there) : there = toward here name := by
  unfold descend at h
  unfold toward
  split at h
  · next hdot => simp_all
  · split at h
    · next hdot => simp_all
    · cases hc : child here name with
      | error fault => simp [hc, bind, Except.bind] at h
      | ok place =>
        simp only [hc, bind, Except.bind] at h
        split at h <;> simp_all [child_eq_ok hc]

theorem descend_congr {t u : FileTree} {here : Place} {name : String}
    (h : t.at? (toward here name) = u.at? (toward here name)) :
    t.descend here name = u.descend here name := by
  unfold descend
  unfold toward at h
  split
  · rfl
  · split
    · rfl
    · cases hc : child here name with
      | error fault => rfl
      | ok place =>
        obtain rfl := child_eq_ok hc
        simp_all [bind, Except.bind]

theorem follow_congr {t u : FileTree} {slash : Bool} {names : List String} {here : Place}
    (h : ∀ place ∈ placesFrom here names, t.at? place = u.at? place) :
    t.follow slash here names = u.follow slash here names := by
  fun_induction follow t slash here names with
  | case1 => rfl
  | case2 here name hdot =>
    rw [follow, if_pos hdot, descend_congr (h _ (by simp [placesFrom]))]
  | case3 here name hdot => rw [follow, if_neg hdot]
  | case4 here name names hne ih =>
    rw [follow, ← descend_congr (h _ (by simp [placesFrom]))]
    · cases hd : t.descend here name with
      | error fault => rfl
      | ok there =>
        obtain rfl := descend_eq_ok hd
        exact ih _ fun place hp => h place (by simp [placesFrom, hp])
    · exact hne

/-- A name that some components lead to is the last of the places along them. -/
theorem mem_placesFrom_of_follow {t : FileTree} {slash behind : Bool} {names : List String}
    {here place : Place} (h : t.follow slash here names = .ok (.named place behind)) :
    place ∈ placesFrom here names := by
  fun_induction follow t slash here names with
  | case1 => cases h
  | case2 here name hdot =>
    cases hd : t.descend here name <;> simp [hd, bind, Except.bind, pure, Except.pure] at h
  | case3 here name hdot =>
    cases hc : child here name with
    | error fault => simp [hc, bind, Except.bind] at h
    | ok there =>
      obtain rfl := child_eq_ok hc
      simp [hc, bind, Except.bind, pure, Except.pure] at h
      simp_all [placesFrom, toward]
  | case4 here name names hne ih =>
    cases hd : t.descend here name with
    | error fault => simp [hd, bind, Except.bind] at h
    | ok there =>
      obtain rfl := descend_eq_ok hd
      exact List.mem_cons_of_mem _ (ih _ (by simpa [hd, bind, Except.bind] using h))

theorem resolve_congr {t u : FileTree} {path : String}
    (hstart : t.workingDirectory = u.workingDirectory)
    (h : ∀ place ∈ t.placesAlong path, t.at? place = u.at? place) :
    t.resolve path = u.resolve path := by
  have heq : u.start path = t.start path := by simp [start, hstart]
  simp only [resolve, heq, follow_congr h]

theorem lookup_congr {t u : FileTree} {path : String}
    (hstart : t.workingDirectory = u.workingDirectory)
    (h : ∀ place ∈ t.placesAlong path, t.at? place = u.at? place) :
    t.lookup path = u.lookup path := by
  rw [lookup, lookup, ← resolve_congr hstart h]
  cases hr : t.resolve path with
  | error fault => rfl
  | ok target =>
    cases target with
    | directory place => rfl
    | named place behind =>
      have hmem : place ∈ t.placesAlong path := by
        unfold resolve at hr
        split at hr
        · cases hr
        · split at hr
          · cases hr
          · split at hr
            · cases hr
            · exact mem_placesFrom_of_follow hr
      simp [bind, Except.bind, h place hmem]

end RepoSelect.FileTree
