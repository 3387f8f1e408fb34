import RepoSelect.Filter.Group
import RepoSelect.Service.Basic

/-!
# Questions to a service

Selections, single repositories, and how a filter token that is typed in part may go on.

Main statement: a completion starts with what has been typed (`lead_append`).
-/

namespace RepoSelect

namespace Markers

/-- The skip or force marker that a text starts with; skip goes first. -/
def leadMarker? (m : Markers) (s : List Char) : Option (List Char) :=
  [m.skip.toList, m.force.toList].find? fun k => k ≠ [] && k.isPrefixOf s

theorem leadMarker?_eq_some {m : Markers} {s k : List Char} (h : m.leadMarker? s = some k) :
    0 < k.length ∧ k <+: s := by
  have h := List.find?_some h
  simp only [ne_eq, decide_not, Bool.and_eq_true, Bool.not_eq_eq_eq_not, Bool.not_true,
    decide_eq_false_iff_not, List.isPrefixOf_iff_prefix] at h
  exact ⟨List.length_pos_iff.mpr h.1, h.2⟩

/-- The skip and force markers that a text starts with, and what is behind them. -/
def splitLead (m : Markers) (s : List Char) : List Char × List Char :=
  match h : m.leadMarker? s with
  | none => ([], s)
  | some k =>
    have := leadMarker?_eq_some h
    have := this.2.length_le
    let (lead, rest) := m.splitLead (s.drop k.length)
    (k ++ lead, rest)
termination_by s.length
decreasing_by simp only [List.length_drop]; omega

theorem lead_append (m : Markers) (s : List Char) :
    (m.splitLead s).1 ++ (m.splitLead s).2 = s := by
  fun_induction splitLead m s with
  | case1 s h => rfl
  | case2 s k h hk _ lead rest heq ih =>
    obtain ⟨t, rfl⟩ := hk.2
    simp_all

/-- The name of a label, given with its marker or without. -/
def withoutLabel (m : Markers) (name : String) : String :=
  if m.label.toList.isPrefixOf name.toList then
    String.ofList (name.toList.drop m.label.toList.length)
  else name

end Markers

namespace Service

def select (s : Service) (tokens : List String) : Except Failure (List String) := do
  .ok (s.filter.evaluate tokens (← s.view).labels)

def labelGroup (s : Service) (tokens : List String) : LabelGroup := s.filter.labelGroup tokens

def repository? (s : Service) (name : String) : Except Failure (Option Repository) := do
  .ok ((← s.view).repositories[name]?)

/-- The default branch of a repository, if it is known. -/
def defaultBranch? (s : Service) (name : String) : Except Failure (Option String) := do
  .ok (((← s.repository? name).map (·.defaultBranch)).filter (· ≠ ""))

def size (s : Service) : Except Failure Nat := do .ok (← s.view).repositories.size

/-- The labels, marked, and the names of the repositories. -/
def Holding.words (h : Holding) (m : Markers) : List String :=
  h.labels.names.map (m.label ++ ·) ++ h.repositories.keys

/-- How a token that starts with `typed` may go on, each way once and in increasing order.
Skip and force markers at its start stay. -/
def completions (s : Service) (typed : String) : Except Failure (List String) := do
  let (lead, rest) := s.markers.splitLead typed.toList
  let words := (Holding.words (← s.view) s.markers).filter (fun w => rest.isPrefixOf w.toList)
  let candidates : NameSet := .ofList (words.map (String.ofList lead ++ ·))
  .ok candidates.toList

end Service

end RepoSelect
