import RepoSelect.Text.Blank

/-!
# Markers

The three texts that may stand in front of a name, and which of them begins a text.

Main statement: the marker found at the head of a text is a non-empty prefix of it, and no
other marker that begins the text is longer (`leading?_eq_some`).
-/

namespace RepoSelect

inductive MarkerKind where
  | label
  | skip
  | force
deriving Repr, DecidableEq

namespace MarkerKind

/-- The kinds in the order in which they are checked and tried. -/
def all : List MarkerKind := [.label, .skip, .force]

def name : MarkerKind → String
  | .label => "label"
  | .skip => "skip"
  | .force => "force"

theorem mem_all (k : MarkerKind) : k ∈ all := by cases k <;> simp [all]

end MarkerKind

structure Markers where
  label : String := "~"
  skip : String := "!"
  force : String := "+"
deriving Repr, DecidableEq

/-- Why three texts cannot serve as markers. -/
inductive MarkerFault where
  | blank (kind : MarkerKind)
  | shared
deriving Repr, DecidableEq

namespace MarkerFault

def message : MarkerFault → String
  | .blank k =>
    "filter.markers." ++ k.name ++ " must be a non-empty string without whitespace"
  | .shared => "filter markers must be distinct"

def hint : MarkerFault → Option String
  | .blank _ => none
  | .shared => some "Defaults are label '~', skip '!' and force '+'"

end MarkerFault

namespace Markers

def text (m : Markers) : MarkerKind → String
  | .label => m.label
  | .skip => m.skip
  | .force => m.force

/-- A usable marker has a character and no blank. -/
def usable (s : String) : Bool := s ≠ "" && !s.toList.any isBlank

/-- Markers are usable and pairwise distinct; the first fault in the order of the kinds. -/
def check (m : Markers) : Except MarkerFault Unit :=
  match MarkerKind.all.find? fun k => !usable (m.text k) with
  | some k => .error (.blank k)
  | none =>
    if m.label = m.skip ∨ m.label = m.force ∨ m.skip = m.force then .error .shared
    else .ok ()

/-- Number of characters of a marker. -/
def size (m : Markers) (k : MarkerKind) : Nat := (m.text k).toList.length

/-- The marker of kind `k` is not empty and begins the text. -/
def begins (m : Markers) (k : MarkerKind) (s : List Char) : Bool :=
  m.size k ≠ 0 && (m.text k).toList.isPrefixOf s

/-- The kind of the longest marker of the list, the earliest of several. -/
def longest (m : Markers) : List MarkerKind → Option MarkerKind
  | [] => none
  | k :: ks =>
    match longest m ks with
    | none => some k
    | some j => if m.size k < m.size j then some j else some k

/-- The kind of the longest marker that begins the text. -/
def leading? (m : Markers) (s : List Char) : Option MarkerKind :=
  longest m (MarkerKind.all.filter fun k => m.begins k s)

theorem longest_eq_none {m : Markers} : ∀ {ks}, m.longest ks = none ↔ ks = []
  | [] => by simp [longest]
  | k :: ks => by
    simp only [longest, reduceCtorEq, iff_false]
    split
    · simp
    · split <;> simp

theorem longest_eq_some {m : Markers} :
    ∀ {ks k}, m.longest ks = some k → k ∈ ks ∧ ∀ j ∈ ks, m.size j ≤ m.size k
  | [], k, h => by simp [longest] at h
  | i :: ks, k, h => by
    simp only [longest] at h
    split at h
    · next hn =>
      obtain rfl := longest_eq_none.1 hn
      obtain rfl := Option.some.inj h
      simp
    · next j hj =>
      obtain ⟨hmem, hle⟩ := longest_eq_some hj
      split at h
      · next hlt =>
        obtain rfl := Option.some.inj h
        refine ⟨List.mem_cons_of_mem _ hmem, fun a ha => ?_⟩
        rcases List.mem_cons.1 ha with rfl | ha
        · exact Nat.le_of_lt hlt
        · exact hle a ha
      · next hge =>
        obtain rfl := Option.some.inj h
        refine ⟨List.mem_cons_self, fun a ha => ?_⟩
        rcases List.mem_cons.1 ha with rfl | ha
        · exact Nat.le_refl _
        · exact Nat.le_trans (hle a ha) (Nat.le_of_not_lt hge)

theorem leading?_eq_some {m : Markers} {s : List Char} {k : MarkerKind}
    (h : m.leading? s = some k) :
    m.begins k s = true ∧ ∀ j, m.begins j s = true → m.size j ≤ m.size k := by
  obtain ⟨hmem, hle⟩ := longest_eq_some h
  exact ⟨(List.mem_filter.1 hmem).2,
    fun j hj => hle j (List.mem_filter.2 ⟨j.mem_all, hj⟩)⟩

theorem leading?_eq_none {m : Markers} {s : List Char} :
    m.leading? s = none ↔ ∀ k, m.begins k s = false := by
  rw [leading?, longest_eq_none, List.filter_eq_nil_iff]
  exact ⟨fun h k => by simpa using h k k.mem_all, fun h k _ => by simp [h k]⟩

theorem size_pos_of_begins {m : Markers} {k : MarkerKind} {s : List Char}
    (h : m.begins k s = true) : 0 < m.size k ∧ m.size k ≤ s.length := by
  simp only [begins, Bool.and_eq_true, decide_eq_true_eq, List.isPrefixOf_iff_prefix] at h
  exact ⟨Nat.pos_of_ne_zero h.1, h.2.length_le⟩

end Markers

end RepoSelect
