import RepoSelect.FileTree.Along
import RepoSelect.Proofs.Path.Parent

/-!
# Where paths lead

A path means the same place in every tree in which it can be followed (`place_of_resolve`), so that
the places of different paths can be told apart by their components. Only directories help to
follow a path:

> a path that leads somewhere still leads there when there are more directories (`resolve_mono`).

What can be followed is described by a relation (`Leads`), one case for each kind of component, and
proofs about paths are inductions on it.
-/

namespace RepoSelect.FileTree

variable {t u : FileTree} {path : String}

/-! ## Destinations -/

/-- Where some components lead to, whatever is there. -/
def destination (here : Place) (names : List String) : Place := names.foldl toward here

/-- The place that a path means, whatever is there. -/
def endOf (t : FileTree) (path : String) : Place :=
  destination (t.start path) (Path.components path)

theorem endOf_congr (h : u.workingDirectory = t.workingDirectory) (path : String) :
    u.endOf path = t.endOf path := by
  simp [endOf, start, h]

def Target.place : Target → Place
  | .directory place => place
  | .named place _ => place

theorem toward_of_ne {here : Place} {name : String} (hdot : name ≠ ".") (hdots : name ≠ "..") :
    toward here name = here ++ [name] := by
  rw [toward, if_neg hdot, if_neg hdots]

theorem destination_append (here : Place) (names names' : List String) :
    destination here (names ++ names') = destination (destination here names) names' :=
  List.foldl_append

theorem destination_of_idle {names : List String} (h : Path.Idle names) (here : Place) :
    destination here names = here := by
  induction names with
  | nil => rfl
  | cons name names ih =>
    obtain rfl := h name (by simp)
    exact ih fun other hother => h other (by simp [hother])

/-! ## Leading somewhere -/

/-- Some components can be followed from a directory and lead to `target`. -/
inductive Leads (t : FileTree) (slash : Bool) : Place → List String → Target → Prop
  | nowhere (here : Place) : Leads t slash here [] (.directory here)
  | idle {here : Place} {name : String} (hname : name = "." ∨ name = "..") :
      Leads t slash here [name] (.directory (toward here name))
  | name {here : Place} {name : String} (hdot : name ≠ ".") (hdots : name ≠ "..")
      (hchild : child here name = .ok (here ++ [name])) :
      Leads t slash here [name] (.named (here ++ [name]) slash)
  | on {here : Place} {name : String} {names : List String} {target : Target}
      (hne : names ≠ []) (hdescend : t.descend here name = .ok (toward here name))
      (h : Leads t slash (toward here name) names target) :
      Leads t slash here (name :: names) target

theorem descend_of_idle {name : String} (h : name = "." ∨ name = "..") (t : FileTree)
    (here : Place) : t.descend here name = .ok (toward here name) := by
  rcases h with rfl | rfl <;> rfl

/-- A component leads on if it says to stay or to go up, or is the name of a directory. -/
theorem descend_toward {here : Place} {name : String} :
    t.descend here name = .ok (toward here name) ↔ (name = "." ∨ name = "..")
      ∨ child here name = .ok (here ++ [name]) ∧ t.at? (here ++ [name]) = some .directory := by
  by_cases hname : name = "." ∨ name = ".."
  · exact iff_of_true (descend_of_idle hname t here) (.inl hname)
  · rw [or_iff_right hname]
    rw [not_or] at hname
    rw [toward_of_ne hname.1 hname.2, descend, if_neg hname.1, if_neg hname.2]
    cases hc : child here name with
    | error fault => simp [bind, Except.bind]
    | ok there =>
      obtain rfl := child_eq_ok hc
      rcases hat : t.at? (here ++ [name]) with _ | _ | _ <;> simp [bind, Except.bind, hat]

theorem follow_eq_ok {slash : Bool} {names : List String} {here : Place} {target : Target} :
    t.follow slash here names = .ok target ↔ t.Leads slash here names target := by
  constructor
  · intro h
    fun_induction follow t slash here names with
    | case1 =>
      cases h
      exact .nowhere _
    | case2 here name hname =>
      simp only [descend_of_idle hname, bind, Except.bind, pure, Except.pure,
        Except.ok.injEq] at h
      exact h ▸ .idle hname
    | case3 here name hname =>
      rw [not_or] at hname
      cases hc : child here name with
      | error fault => simp [hc, bind, Except.bind] at h
      | ok there =>
        obtain rfl := child_eq_ok hc
        simp only [hc, bind, Except.bind, pure, Except.pure, Except.ok.injEq] at h
        exact h ▸ .name hname.1 hname.2 hc
    | case4 here name names hne ih =>
      cases hd : t.descend here name with
      | error fault => simp [hd, bind, Except.bind] at h
      | ok there =>
        obtain rfl := descend_eq_ok hd
        exact .on hne hd (ih _ (by simpa [hd, bind, Except.bind] using h))
  · intro h
    induction h with
    | nowhere => rfl
    | idle hname =>
      rw [follow, if_pos hname, descend_of_idle hname]
      rfl
    | name hdot hdots hchild =>
      rw [follow, if_neg (not_or.mpr ⟨hdot, hdots⟩), hchild]
      rfl
    | on hne hdescend h ih =>
      rw [follow, hdescend]
      · exact ih
      · exact hne

namespace Leads

variable {slash behind : Bool} {names : List String} {here place : Place} {target : Target}

theorem place_eq (h : t.Leads slash here names target) :
    target.place = destination here names := by
  induction h with
  | nowhere => rfl
  | idle => rfl
  | name hdot hdots => rw [Target.place, ← toward_of_ne hdot hdots]; rfl
  | on hne hdescend h ih => exact ih

/-- Components that mean a name end with that name, and the place is inside the one that the
components in front of it lead to. -/
theorem of_named (h : t.Leads slash here names (.named place behind)) :
    ∃ front name, names = front ++ [name] ∧ name ≠ "." ∧ name ≠ ".."
      ∧ place = destination here front ++ [name] := by
  generalize htarget : Target.named place behind = target at h
  induction h with
  | nowhere => cases htarget
  | idle => cases htarget
  | @name here name hdot hdots =>
    cases htarget
    exact ⟨[], name, rfl, hdot, hdots, rfl⟩
  | @on here name names target hne hdescend h ih =>
    obtain ⟨front, last, rfl, hdot, hdots, hplace⟩ := ih htarget
    exact ⟨name :: front, last, rfl, hdot, hdots, hplace⟩

end Leads

/-! ## On the way -/

/-- Every component leads to a directory. -/
def Descends (t : FileTree) : Place → List String → Prop
  | _, [] => True
  | here, name :: names =>
    t.descend here name = .ok (toward here name) ∧ t.Descends (toward here name) names

/-- Components in front of others lead to directories. -/
theorem leads_append {slash : Bool} {front more : List String} {here : Place} {target : Target}
    (hne : more ≠ []) :
    t.Leads slash here (front ++ more) target
      ↔ t.Descends here front ∧ t.Leads slash (destination here front) more target := by
  induction front generalizing here with
  | nil => exact ⟨fun h => ⟨trivial, h⟩, fun h => h.2⟩
  | cons name front ih =>
    have hmore : front ++ more ≠ [] := List.append_ne_nil_of_right_ne_nil _ hne
    constructor
    · intro h
      rw [List.cons_append] at h
      generalize hrest : front ++ more = rest at h hmore
      cases h with
      | idle => exact absurd rfl hmore
      | name => exact absurd rfl hmore
      | on _ hdescend h =>
        obtain ⟨hfront, hleads⟩ := ih.mp (hrest ▸ h)
        exact ⟨⟨hdescend, hfront⟩, hleads⟩
    · rintro ⟨⟨hdescend, hfront⟩, hleads⟩
      exact .on hmore hdescend (ih.mpr ⟨hfront, hleads⟩)

namespace Descends

theorem follow_append {slash : Bool} {front names : List String} {here : Place}
    (h : t.Descends here front) (hne : names ≠ []) :
    t.follow slash here (front ++ names) = t.follow slash (destination here front) names := by
  induction front generalizing here with
  | nil => rfl
  | cons name front ih =>
    rw [List.cons_append, follow, h.1]
    · exact ih h.2
    · exact List.append_ne_nil_of_right_ne_nil _ hne

end Descends

/-- What the last component means does not depend on what is there. -/
theorem follow_single (t u : FileTree) (slash : Bool) (here : Place) (name : String) :
    t.follow slash here [name] = u.follow slash here [name] := by
  rw [follow, follow]
  split
  · next hidle => rw [descend_of_idle hidle, descend_of_idle hidle]
  · rfl

/-- A text that can be a path. -/
def IsPath (path : String) : Prop :=
  path.toList.contains '\x00' = false ∧ path ≠ "" ∧ path.utf8ByteSize ≤ pathLimit

theorem resolve_eq_ok {target : Target} :
    t.resolve path = .ok target ↔ IsPath path
      ∧ t.Leads (path.toList.getLast? = some '/') (t.start path) (Path.components path)
        target := by
  rw [← follow_eq_ok]
  unfold resolve IsPath
  split
  · next hzero => simp only [hzero, reduceCtorEq, Bool.true_eq_false, false_and]
  · next hzero =>
    rw [Bool.not_eq_true] at hzero
    split
    · next hempty => simp [hempty]
    · next hempty =>
      split
      · next hlong => simp only [Nat.not_le.mpr hlong, reduceCtorEq, and_false, false_and]
      · next hlong => simp only [hzero, hempty, Nat.not_lt.mp hlong, ne_eq, not_false_eq_true,
          and_self, true_and]

/-- What a path means does not depend on what is there, if it can be followed. -/
theorem place_of_resolve {target : Target} (h : t.resolve path = .ok target) :
    target.place = t.endOf path :=
  (resolve_eq_ok.mp h).2.place_eq

theorem ne_nil_of_resolve {place : Place} {slash : Bool}
    (h : t.resolve path = .ok (.named place slash)) : place ≠ [] := by
  obtain ⟨front, name, -, -, -, rfl⟩ := (resolve_eq_ok.mp h).2.of_named
  exact List.append_ne_nil_of_right_ne_nil _ (List.cons_ne_nil _ _)

/-! ## More directories -/

/-- All directories of one tree are directories of another. -/
def KeepsDirectories (t u : FileTree) : Prop :=
  ∀ place, t.at? place = some .directory → u.at? place = some .directory

theorem KeepsDirectories.trans {v : FileTree} (h : KeepsDirectories t u)
    (h' : KeepsDirectories u v) : KeepsDirectories t v :=
  fun place hdir => h' place (h place hdir)

theorem descend_mono (hkeep : KeepsDirectories t u) {here : Place} {name : String}
    (h : t.descend here name = .ok (toward here name)) :
    u.descend here name = .ok (toward here name) := by
  rw [descend_toward] at h ⊢
  exact h.imp_right fun ⟨hchild, hdir⟩ => ⟨hchild, hkeep _ hdir⟩

theorem Leads.mono (hkeep : KeepsDirectories t u) {slash : Bool} {names : List String}
    {here : Place} {target : Target} (h : t.Leads slash here names target) :
    u.Leads slash here names target := by
  induction h with
  | nowhere here => exact .nowhere here
  | idle hname => exact .idle hname
  | name hdot hdots hchild => exact .name hdot hdots hchild
  | on hne hdescend h ih => exact .on hne (descend_mono hkeep hdescend) ih

/-- A path that can be followed leads to the same when there are more directories. -/
theorem resolve_mono (hkeep : KeepsDirectories t u)
    (hstart : u.workingDirectory = t.workingDirectory) {target : Target}
    (h : t.resolve path = .ok target) : u.resolve path = .ok target := by
  obtain ⟨hpath, hleads⟩ := resolve_eq_ok.mp h
  have heq : u.start path = t.start path := by simp [start, hstart]
  exact resolve_eq_ok.mpr ⟨hpath, heq ▸ hleads.mono hkeep⟩

theorem keepsDirectories_put {place : Place} (e : Entry) (hne : place ≠ [])
    (hfree : t.at? place ≠ some .directory) : KeepsDirectories t (t.put place e) := by
  intro other hdir
  rw [at?_put _ _ _ hne, if_neg]
  · exact hdir
  · rintro rfl
    exact hfree hdir

theorem keepsDirectories_drop {place : Place} (hne : place ≠ [])
    (hfree : t.at? place ≠ some .directory) : KeepsDirectories t (t.drop place) := by
  intro other hdir
  rw [at?_drop _ _ hne, if_neg]
  · exact hdir
  · rintro rfl
    exact hfree hdir

/-! ## Looking -/

/-- What is found behind a path that means `target`. -/
def Finds (t : FileTree) (e : Entry) : Target → Prop
  | .directory _ => e = .directory
  | .named place slash => t.at? place = some e ∧ (slash = true → e = .directory)

theorem lookup_eq_ok {e : Entry} :
    t.lookup path = .ok e ↔ ∃ target, t.resolve path = .ok target ∧ t.Finds e target := by
  unfold lookup
  cases t.resolve path with
  | error fault => simp [bind, Except.bind]
  | ok target =>
    rcases target with place | ⟨place, slash⟩
    · simp [bind, Except.bind, Finds, eq_comm (b := e)]
    · rcases hat : t.at? place with _ | content | _
      · simp [bind, Except.bind, Finds, hat]
      · cases slash
        · simp [bind, Except.bind, Finds, hat]
        · have hfile : ∀ e, ¬(Entry.file content = e ∧ e = .directory) := by
            rintro _ ⟨rfl, hdir⟩
            cases hdir
          simp [bind, Except.bind, Finds, hat, hfile]
      · have hdir : (Entry.directory = e ∧ (slash = true → e = .directory)) ↔ .directory = e :=
          and_iff_left_of_imp fun h _ => h.symm
        simp [bind, Except.bind, Finds, hat, hdir]

/-- A directory is found behind components that all lead to directories. -/
theorem Descends.finds {names : List String} {here : Place} (h : t.Descends here names)
    (slash : Bool) : ∃ target, t.Leads slash here names target ∧ t.Finds .directory target := by
  induction names generalizing here with
  | nil => exact ⟨_, .nowhere here, rfl⟩
  | cons name names ih =>
    by_cases hnames : names = []
    · subst hnames
      by_cases hidle : name = "." ∨ name = ".."
      · exact ⟨_, .idle hidle, rfl⟩
      · obtain ⟨hchild, hdir⟩ := (descend_toward.mp h.1).resolve_left hidle
        rw [not_or] at hidle
        exact ⟨_, .name hidle.1 hidle.2 hchild, hdir, fun _ => rfl⟩
    · obtain ⟨target, hleads, hfinds⟩ := ih h.2
      exact ⟨target, .on hnames h.1 hleads, hfinds⟩

end RepoSelect.FileTree
