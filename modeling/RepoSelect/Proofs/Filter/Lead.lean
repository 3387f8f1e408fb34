import RepoSelect.Proofs.Filter.Reading
import RepoSelect.Proofs.Filter.Unwanted
import RepoSelect.Service.Query

/-!
# The run in front of a completion

Completion takes skip and force markers off the front of what has been typed, and it does so in its
own way: a skip marker wherever there is one, and else a force marker (`Markers.Leads`). A token is
read by the longest marker. So a run that was taken off may be read as another one when a name is
put behind it:

> the runs are read back in front of every name and every label (`Markers.Keeps`) if no marker is a
> prefix of another (`keeps_of_prefixFree`).

It is enough to look at texts that are taken off as a whole, for what is behind a run does not
change it (`Leads.whole`).
-/

namespace RepoSelect

namespace Markers

variable {m : Markers} {s rest : List Char} {ks : List MarkerKind} {name : String}

/-! ## What is taken off -/

/-- The kinds of the markers that completion takes off a text, and what is behind them. -/
inductive Leads (m : Markers) : List Char → List MarkerKind → List Char → Prop
  | stop {s : List Char} (hskip : ¬m.skip.toList <+: s) (hforce : ¬m.force.toList <+: s) :
      Leads m s [] s
  | skip {s : List Char} {ks : List MarkerKind} {rest : List Char} (h : Leads m s ks rest) :
      Leads m (m.skip.toList ++ s) (.skip :: ks) rest
  | force {s : List Char} {ks : List MarkerKind} {rest : List Char}
      (hskip : ¬m.skip.toList <+: m.force.toList ++ s) (h : Leads m s ks rest) :
      Leads m (m.force.toList ++ s) (.force :: ks) rest

theorem concat_cons (m : Markers) (k : MarkerKind) (ks : List MarkerKind) :
    m.concat (k :: ks) = (m.text k).toList ++ m.concat ks := rfl

theorem concat_append (m : Markers) (ks ks' : List MarkerKind) :
    m.concat (ks ++ ks') = m.concat ks ++ m.concat ks' :=
  List.flatMap_append

namespace Leads

theorem append_eq (h : m.Leads s ks rest) : m.concat ks ++ rest = s := by
  induction h with
  | stop _ _ => rfl
  | skip _ ih =>
    rw [concat_cons, List.append_assoc, ih]
    rfl
  | force _ _ ih =>
    rw [concat_cons, List.append_assoc, ih]
    rfl

/-- What is behind the run begins a text exactly if all begins the run with that text behind it. -/
theorem prefix_iff (h : m.Leads s ks rest) {behind : List Char} :
    rest <+: behind ↔ s <+: m.concat ks ++ behind := by
  rw [← h.append_eq, List.prefix_append_right_inj]

theorem label_not_mem (h : m.Leads s ks rest) : .label ∉ ks := by
  induction h with
  | stop _ _ => exact List.not_mem_nil
  | skip _ ih => simpa using ih
  | force _ _ ih => simpa using ih

theorem unique {ks' : List MarkerKind} {rest' : List Char} (h : m.Leads s ks rest)
    (h' : m.Leads s ks' rest') : ks' = ks ∧ rest' = rest := by
  induction h generalizing ks' rest' with
  | stop hskip hforce =>
    cases h' with
    | stop _ _ => exact ⟨rfl, rfl⟩
    | skip _ => exact absurd (List.prefix_append _ _) hskip
    | force _ _ => exact absurd (List.prefix_append _ _) hforce
  | @skip s ks rest h ih =>
    generalize hs : m.skip.toList ++ s = text at h'
    cases h' with
    | stop hskip _ =>
      rw [← hs] at hskip
      exact absurd (List.prefix_append _ _) hskip
    | skip h' =>
      obtain rfl := List.append_cancel_left hs
      obtain ⟨rfl, rfl⟩ := ih h'
      exact ⟨rfl, rfl⟩
    | force hskip _ =>
      rw [← hs] at hskip
      exact absurd (List.prefix_append _ _) hskip
  | @force s ks rest hskip h ih =>
    generalize hs : m.force.toList ++ s = text at h'
    cases h' with
    | stop _ hforce =>
      rw [← hs] at hforce
      exact absurd (List.prefix_append _ _) hforce
    | skip _ =>
      rw [hs] at hskip
      exact absurd (List.prefix_append _ _) hskip
    | force _ h' =>
      obtain rfl := List.append_cancel_left hs
      obtain ⟨rfl, rfl⟩ := ih h'
      exact ⟨rfl, rfl⟩

/-- A run that is taken off is taken off alone as well. -/
theorem whole (hcheck : m.check = .ok ()) (h : m.Leads s ks rest) :
    m.Leads (m.concat ks) ks [] := by
  induction h with
  | stop _ _ =>
    have hnil (k : MarkerKind) : ¬(m.text k).toList <+: [] := by
      intro hstarts
      exact size_ne_zero_of_check hcheck k (congrArg List.length (List.prefix_nil.mp hstarts))
    exact .stop (hnil .skip) (hnil .force)
  | skip _ ih => exact .skip ih
  | @force s ks rest hskip h ih =>
    refine .force (fun hstarts => hskip (hstarts.trans ?_)) ih
    rw [← h.append_eq, ← List.append_assoc]
    exact List.prefix_append _ _

end Leads

/-- What completion looks at first. -/
theorem leadMarker?_cases (hcheck : m.check = .ok ()) (s : List Char) :
    (m.leadMarker? s = none ∧ ¬m.skip.toList <+: s ∧ ¬m.force.toList <+: s)
      ∨ (m.leadMarker? s = some m.skip.toList ∧ m.skip.toList <+: s)
      ∨ (m.leadMarker? s = some m.force.toList ∧ ¬m.skip.toList <+: s
          ∧ m.force.toList <+: s) := by
  have hskip : m.skip.toList ≠ [] :=
    fun hnil => size_ne_zero_of_check hcheck .skip (congrArg List.length hnil)
  have hforce : m.force.toList ≠ [] :=
    fun hnil => size_ne_zero_of_check hcheck .force (congrArg List.length hnil)
  by_cases h : m.skip.toList <+: s
  · simp [leadMarker?, hskip, h]
  · by_cases h' : m.force.toList <+: s
    · simp [leadMarker?, hforce, h, h']
    · simp [leadMarker?, h, h']

theorem splitLead_leads (hcheck : m.check = .ok ()) (s : List Char) :
    ∃ ks, m.Leads s ks (m.splitLead s).2 ∧ (m.splitLead s).1 = m.concat ks := by
  fun_induction splitLead m s with
  | case1 s h =>
    rcases leadMarker?_cases hcheck s with ⟨-, hskip, hforce⟩ | ⟨hsome, -⟩ | ⟨hsome, -⟩
    · exact ⟨[], .stop hskip hforce, rfl⟩
    · rw [h] at hsome
      cases hsome
    · rw [h] at hsome
      cases hsome
  | case2 s k h hk _ lead rest heq ih =>
    rw [heq] at ih
    obtain ⟨ks, hleads, hlead⟩ := ih
    obtain ⟨behind, rfl⟩ := hk.2
    rw [List.drop_left] at hleads
    rcases leadMarker?_cases hcheck (k ++ behind) with ⟨hnone, -⟩ | ⟨hsome, -⟩ | ⟨hsome, hskip, -⟩
    · rw [h] at hnone
      cases hnone
    · rw [h] at hsome
      obtain rfl := Option.some.inj hsome
      exact ⟨.skip :: ks, .skip hleads, congrArg _ hlead⟩
    · rw [h] at hsome
      obtain rfl := Option.some.inj hsome
      exact ⟨.force :: ks, .force hskip hleads, congrArg _ hlead⟩

/-! ## Names that markers can stand in front of -/

/-- The name is not empty, has no blank at its ends and starts with no marker. -/
structure Fit (m : Markers) (name : String) : Prop where
  ne_empty : name ≠ ""
  trim_eq : Text.trim name.toList = name.toList
  unmarked : m.Unmarked name.toList

instance (m : Markers) (name : String) : Decidable (m.Fit name) :=
  decidable_of_iff (name ≠ "" ∧ Text.trim name.toList = name.toList ∧ m.Unmarked name.toList)
    ⟨fun ⟨hne, htrim, hmark⟩ => ⟨hne, htrim, hmark⟩, fun h => ⟨h.1, h.2, h.3⟩⟩

/-- A name that is read as itself is fit. -/
theorem fit_of_read (hne : name ≠ "") (hread : Token.read m name = { name := name }) :
    m.Fit name := by
  have hname : (Token.read m name).name = name := by rw [hread]
  have hrun := Token.concat_append_name m name
  have hlead := Token.leading?_name m name
  rw [hname] at hrun hlead
  refine ⟨hne, (Text.trim_infix _).eq_of_length_le ?_, leading?_eq_none_iff_unmarked.mp hlead⟩
  rw [← hrun, List.length_append]
  exact Nat.le_add_left _ _

theorem exists_fit (m : Markers) (names : List String) : ∃ x, x ∉ names ∧ m.Fit x := by
  obtain ⟨x, hne, hfresh, hread⟩ := m.exists_plain_name names
  exact ⟨x, hfresh, fit_of_read hne hread⟩

theorem Fit.hasText (h : m.Fit name) : hasText name = true := by
  cases hlist : name.toList with
  | nil => exact absurd (String.toList_eq_nil_iff.mp hlist) h.ne_empty
  | cons c r =>
    have hblank := (Text.ends_of_trim h.trim_eq).1 c (by rw [hlist]; rfl)
    simp [RepoSelect.hasText, hlist, hblank]

/-! ## Runs that are read back -/

/-- Every run that completion takes off, alone and with a label marker behind it, is read back in
front of every name that is fit. -/
def Keeps (m : Markers) : Prop :=
  ∀ s ks, m.Leads s ks [] → ∀ ending ∈ [[], [MarkerKind.label]], ∀ name, m.Fit name →
    Token.read m (String.ofList (m.concat (ks ++ ending) ++ name.toList))
      = Token.ofRun (ks ++ ending) name.toList

theorem read_concat (hcheck : m.check = .ok ()) (hfree : m.PrefixFree) (ks : List MarkerKind)
    (hname : m.Fit name) : Token.read m (String.ofList (m.concat ks ++ name.toList))
      = Token.ofRun ks name.toList := by
  have hlead := leading?_eq_none_iff_unmarked.mpr hname.unmarked
  rw [Token.read, String.toList_ofList,
    trim_concat_append (trim_text_of_check hcheck) ks hname.trim_eq, strip_concat hfree,
    strip_of_leading?_eq_none hlead, List.append_nil]

theorem keeps_of_prefixFree (hcheck : m.check = .ok ()) (hfree : m.PrefixFree) : m.Keeps :=
  fun _ ks _ ending _ _ hname => read_concat hcheck hfree (ks ++ ending) hname

end Markers

end RepoSelect
