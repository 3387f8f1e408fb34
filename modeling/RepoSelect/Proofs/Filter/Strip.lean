import RepoSelect.Filter.Token
import RepoSelect.Proofs.Text.Trim

/-!
# Runs of markers

What is left of a text when its markers are taken off, and when the run that is taken off is
the run that was put there. Two facts carry everything else:

- taking off stops only where no marker begins the text (`leading?_strip`), so a name never
  starts with a marker;
- if no marker is a prefix of another, the marker in front of a text is the one that is taken
  off first (`strip_text_append`).

The blanks at the ends of a text are gone before the first marker is looked for.
-/

namespace RepoSelect

namespace Markers

/-! ## Where taking off stops -/

theorem leading?_strip (m : Markers) (s : List Char) : m.leading? (m.strip s).2 = none := by
  fun_induction strip m s with
  | case1 s h => exact h
  | case2 s k h _ rest ih => exact ih

theorem strip_of_leading?_eq_none {m : Markers} {s : List Char} (h : m.leading? s = none) :
    m.strip s = ([], s) := by
  rw [strip]
  split
  · rfl
  · next k hk => rw [h] at hk; cases hk

theorem strip_of_leading?_eq_some {m : Markers} {s : List Char} {k : MarkerKind}
    (h : m.leading? s = some k) :
    m.strip s = (k :: (m.strip (s.drop (m.size k))).1, (m.strip (s.drop (m.size k))).2) := by
  rw [strip]
  split
  · next hk => rw [h] at hk; cases hk
  · next j hj =>
    rw [h] at hj
    obtain rfl := Option.some.inj hj
    rfl

/-! ## How long a run is -/

theorem size_le_length_concat {m : Markers} {k : MarkerKind} {ks : List MarkerKind}
    (h : k ∈ ks) : m.size k ≤ (m.concat ks).length := by
  induction ks with
  | nil => cases h
  | cons j ks ih =>
    rw [concat, List.flatMap_cons, List.length_append]
    rcases List.mem_cons.mp h with rfl | htail
    · exact Nat.le_add_right _ _
    · exact Nat.le_trans (ih htail) (Nat.le_add_left _ _)

/-- A run that holds markers of two kinds is as long as the two together. -/
theorem size_add_size_le_length_concat {m : Markers} {j k : MarkerKind}
    {ks : List MarkerKind} (hne : j ≠ k) (hj : j ∈ ks) (hk : k ∈ ks) :
    m.size j + m.size k ≤ (m.concat ks).length := by
  induction ks with
  | nil => cases hj
  | cons i ks ih =>
    rw [concat, List.flatMap_cons, List.length_append]
    rcases List.mem_cons.mp hj with rfl | hj'
    · have hk' : k ∈ ks := (List.mem_cons.mp hk).resolve_left (Ne.symm hne)
      exact Nat.add_le_add (Nat.le_refl _) (size_le_length_concat hk')
    · rcases List.mem_cons.mp hk with rfl | hk'
      · rw [Nat.add_comm]
        exact Nat.add_le_add (Nat.le_refl _) (size_le_length_concat hj')
      · exact Nat.le_trans (ih hj' hk') (Nat.le_add_left _ _)

/-! ## Markers none of which begins another -/

/-- No marker is a prefix of a marker of another kind. -/
def PrefixFree (m : Markers) : Prop :=
  ∀ j k, (m.text j).toList <+: (m.text k).toList → j = k

theorem leading?_eq_some_of_unique {m : Markers} {s : List Char} {k : MarkerKind}
    (hk : m.begins k s = true) (huniq : ∀ j, m.begins j s = true → j = k) :
    m.leading? s = some k := by
  cases h : m.leading? s with
  | none =>
    rw [leading?_eq_none.mp h k] at hk
    cases hk
  | some j => rw [huniq j (leading?_eq_some h).1]

theorem begins_iff {m : Markers} {k : MarkerKind} {s : List Char} :
    m.begins k s = true ↔ m.size k ≠ 0 ∧ (m.text k).toList <+: s := by
  rw [begins, Bool.and_eq_true, decide_eq_true_eq, List.isPrefixOf_iff_prefix]

/-- The marker that was put in front is the one that is found there. -/
theorem strip_text_append {m : Markers} (hfree : m.PrefixFree) {k : MarkerKind}
    (hsize : m.size k ≠ 0) (s : List Char) :
    m.strip ((m.text k).toList ++ s) = (k :: (m.strip s).1, (m.strip s).2) := by
  have hlead : m.leading? ((m.text k).toList ++ s) = some k := by
    refine leading?_eq_some_of_unique (begins_iff.mpr ⟨hsize, List.prefix_append _ _⟩) ?_
    intro j hj
    rcases List.prefix_or_prefix_of_prefix (begins_iff.mp hj).2 (List.prefix_append _ _) with h | h
    · exact hfree j k h
    · exact (hfree k j h).symm
  rw [strip_of_leading?_eq_some hlead, size, List.drop_left]

/-! ## Markers that have been checked -/

theorem usable_of_check {m : Markers} (h : m.check = .ok ()) (k : MarkerKind) :
    usable (m.text k) = true := by
  unfold check at h
  split at h
  · cases h
  · next hnone => simpa using List.find?_eq_none.mp hnone k k.mem_all

theorem size_ne_zero_of_check {m : Markers} (h : m.check = .ok ()) (k : MarkerKind) :
    m.size k ≠ 0 := by
  have husable := usable_of_check h k
  simp only [usable, Bool.and_eq_true, decide_eq_true_eq] at husable
  intro hzero
  exact husable.1 (String.toList_eq_nil_iff.mp (List.length_eq_zero_iff.mp hzero))

theorem isBlank_of_check {m : Markers} (h : m.check = .ok ()) {k : MarkerKind} {c : Char}
    (hc : c ∈ (m.text k).toList) : isBlank c = false := by
  have husable := usable_of_check h k
  simp only [usable, Bool.and_eq_true, Bool.not_eq_true', List.any_eq_false] at husable
  simpa using husable.2 c hc

end Markers

/-! ## Reading a token -/

namespace Token

theorem name_read (m : Markers) (raw : String) :
    (read m raw).name.toList = (m.strip (Text.trim raw.toList)).2 := by
  simp [read, ofRun]

/-- The text that is read is a run of markers and the name. -/
theorem concat_append_name (m : Markers) (raw : String) :
    m.concat (m.strip (Text.trim raw.toList)).1 ++ (read m raw).name.toList
      = Text.trim raw.toList := by
  rw [name_read]
  exact m.strip_append _

theorem leading?_name (m : Markers) (raw : String) :
    m.leading? (read m raw).name.toList = none := by
  rw [name_read]
  exact m.leading?_strip _

theorem isBlank_getLast_name {m : Markers} {raw : String} {c : Char}
    (h : (read m raw).name.toList.getLast? = some c) : isBlank c = false := by
  have hlast : (Text.trim raw.toList).getLast? = some c := by
    rw [← concat_append_name m raw, List.getLast?_append, h]
    rfl
  exact Text.isBlank_getLast_trimEnd hlast

/-- A text that no marker begins and no blanks surround is its own name. -/
theorem read_plain {m : Markers} {raw : String} (hlead : m.leading? raw.toList = none)
    (htrim : Text.trim raw.toList = raw.toList) : read m raw = { name := raw } := by
  rw [read, htrim, Markers.strip_of_leading?_eq_none hlead]
  simp [ofRun]

end Token

end RepoSelect
