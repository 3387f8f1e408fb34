import RepoSelect.Filter.Markers

/-!
# Filter tokens

A raw token is a run of markers followed by a name. Reading one takes the surrounding
blanks off and then, again and again, the longest marker that begins what is left.

Main statement: the markers taken, written out, and the name make up the text
(`strip_append`).
-/

namespace RepoSelect

inductive Bucket where
  | forced
  | excluded
  | included
deriving Repr, DecidableEq

structure Token where
  name : String
  isLabel : Bool := false
  isForced : Bool := false
  isSkipped : Bool := false
deriving Repr, DecidableEq

namespace Markers

/-- The kinds of the markers that a text starts with, and the text behind them. -/
def strip (m : Markers) (s : List Char) : List MarkerKind × List Char :=
  match h : m.leading? s with
  | none => ([], s)
  | some k =>
    have := size_pos_of_begins (leading?_eq_some h).1
    let rest := m.strip (s.drop (m.size k))
    (k :: rest.1, rest.2)
termination_by s.length
decreasing_by simp only [List.length_drop]; omega

/-- The texts of a run of markers, one after the other. -/
def concat (m : Markers) (ks : List MarkerKind) : List Char :=
  ks.flatMap fun k => (m.text k).toList

theorem text_append_drop {m : Markers} {k : MarkerKind} {s : List Char}
    (h : m.begins k s = true) : (m.text k).toList ++ s.drop (m.size k) = s := by
  simp only [begins, Bool.and_eq_true, List.isPrefixOf_iff_prefix] at h
  obtain ⟨t, rfl⟩ := h.2
  simp [size]

theorem strip_append (m : Markers) (s : List Char) :
    m.concat (m.strip s).1 ++ (m.strip s).2 = s := by
  fun_induction strip m s with
  | case1 s h => simp [concat]
  | case2 s k h _ rest ih =>
    simp only [concat, List.flatMap_cons, List.append_assoc] at ih ⊢
    rw [ih]
    exact text_append_drop (leading?_eq_some h).1

end Markers

namespace Token

/-- A token is flagged by the kinds of its markers. -/
def ofRun (ks : List MarkerKind) (name : List Char) : Token where
  name := String.ofList name
  isLabel := ks.contains .label
  isForced := ks.contains .force
  isSkipped := ks.contains .skip

def read (m : Markers) (raw : String) : Token :=
  let run := m.strip (Text.trim raw.toList)
  ofRun run.1 run.2

/-- Force beats skip, and skip beats plain inclusion. -/
def bucket (t : Token) : Bucket :=
  if t.isForced then .forced else if t.isSkipped then .excluded else .included

/-- The name as set notation shows it: a label keeps its marker. -/
def displayName (m : Markers) (t : Token) : String :=
  if t.isLabel then m.label ++ t.name else t.name

end Token

end RepoSelect
