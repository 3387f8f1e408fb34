import RepoSelect.Text.Split

/-!
# Paths

A path is a text; `/` separates its components. Empty components and `.` behind another
component do not count.
-/

namespace RepoSelect.Path

def isAbsolute (p : String) : Bool := p.toList.head? = some '/'

/-- The path `p` seen from the directory `base`. -/
def join (base p : String) : String :=
  if isAbsolute p || base = "" then p
  else if base.toList.getLast? = some '/' then base ++ p
  else base ++ "/" ++ p

/-- The components that a path is followed along, empty ones left out. -/
def components (p : String) : List String :=
  ((Text.splitAt '/' p.toList).filter (· ≠ [])).map String.ofList

/-- A path in reverse without what does not count at its end; a root stays. -/
def trimEnd : List Char → List Char
  | '/' :: r => if r = [] then ['/'] else trimEnd r
  | '.' :: r@('/' :: _) => trimEnd r
  | s => s

/-- The last component and the text in front of it, both in reverse. -/
def splitLast? (p : String) : Option (List Char × List Char) :=
  match trimEnd p.toList.reverse with
  | [] | ['/'] => none
  | s => some (s.takeWhile (· ≠ '/'), s.dropWhile (· ≠ '/'))

/-- The path without its last component. -/
def parent? (p : String) : Option String :=
  (splitLast? p).map fun (_, front) => String.ofList (trimEnd front).reverse

theorem length_trimEnd_le (s : List Char) : (trimEnd s).length ≤ s.length := by
  fun_induction trimEnd s <;> simp_all <;> omega

theorem trimEnd_eq_cons_slash {s r : List Char} (h : trimEnd s = '/' :: r) : r = [] := by
  fun_induction trimEnd s <;> simp_all

theorem length_parent?_lt {p q : String} (h : parent? p = some q) :
    q.toList.length < p.toList.length := by
  have htrim := length_trimEnd_le p.toList.reverse
  simp only [parent?, splitLast?, Option.map_eq_some_iff] at h
  obtain ⟨⟨name, front⟩, h, rfl⟩ := h
  split at h
  · cases h
  · cases h
  · next hne hslash =>
    obtain ⟨rfl, rfl⟩ := Prod.mk.inj (Option.some.inj h)
    generalize hs : trimEnd p.toList.reverse = s at *
    have hfront := length_trimEnd_le (s.dropWhile fun c => decide (c ≠ '/'))
    cases s with
    | nil => exact absurd rfl hne
    | cons c r =>
      have hc : c ≠ '/' := by
        rintro rfl
        exact hslash (by rw [trimEnd_eq_cons_slash hs])
      have hdrop : (r.dropWhile fun c => !decide (c = '/')).length ≤ r.length :=
        (List.dropWhile_sublist _).length_le
      simp [hc] at hfront htrim ⊢
      omega

/-- The last component, unless it stands for a directory by its position. -/
def fileName? (p : String) : Option String :=
  match splitLast? p with
  | none => none
  | some (name, _) =>
    if name = ['.'] ∨ name = ['.', '.'] then none else some (String.ofList name.reverse)

/-- A file name in front of its last dot, and behind it; a dot at the start does not count. -/
def splitName (name : String) : String × Option String :=
  let reversed := name.toList.reverse
  match reversed.dropWhile (· ≠ '.') with
  | [] | ['.'] => (name, none)
  | _ :: stem =>
    (.ofList stem.reverse, some (.ofList (reversed.takeWhile (· ≠ '.')).reverse))

def extension? (p : String) : Option String := (fileName? p).bind fun n => (splitName n).2

/-- The path with another extension in place of its own. -/
def withExtension (p ext : String) : String :=
  match splitLast? p, fileName? p with
  | some (_, front), some name =>
    String.ofList front.reverse ++ (splitName name).1 ++ "." ++ ext
  | _, _ => p

end RepoSelect.Path
