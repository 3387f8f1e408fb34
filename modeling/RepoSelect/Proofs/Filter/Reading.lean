import Mathlib.Data.List.Basic
import RepoSelect.Proofs.Filter.Strip

/-!
# What a raw token is read as

A raw token is a run of markers and a name. `Markers.Decomposes` says so without the loop that takes
the markers off: each marker is the longest that begins what is left, and no marker begins the name.

> Every text decomposes in one way, and that is the way in which it is read
> (`decomposes_iff_strip`).

A decomposition is one of texts. The kinds of the markers follow from it only if the markers differ,
for nothing tells equal ones apart.

The way back asks for more. A run that is written out is taken off again marker by marker if no
marker is a prefix of another (`strip_concat`). But the blanks at the ends of a text are gone before
the first marker is looked for, and with them a part of a marker that starts or ends with a blank
and stands there (`blank_of_marker_lost`).
-/

namespace RepoSelect

namespace Markers

variable {m : Markers} {s name : List Char} {texts : List String}

/-! ## Decompositions -/

/-- No marker that has a text begins this one. -/
def Unmarked (m : Markers) (s : List Char) : Prop :=
  ∀ k, m.text k ≠ "" → ¬(m.text k).toList <+: s

instance (m : Markers) : Decidable m.PrefixFree :=
  decidable_of_iff (∀ j ∈ MarkerKind.all, ∀ k ∈ MarkerKind.all,
      (m.text j).toList <+: (m.text k).toList → j = k)
    ⟨fun h j k => h j j.mem_all k k.mem_all, fun h j _ k _ => h j k⟩

instance (m : Markers) (s : List Char) : Decidable (m.Unmarked s) :=
  decidable_of_iff (∀ k ∈ MarkerKind.all, m.text k ≠ "" → ¬(m.text k).toList <+: s)
    ⟨fun h k => h k k.mem_all, fun h k _ => h k⟩

/-- The text is made of markers, each the longest that begins the text from there on, and of a name
that no marker begins. -/
inductive Decomposes (m : Markers) : List Char → List String → List Char → Prop
  | name {s : List Char} (hend : m.Unmarked s) : Decomposes m s [] s
  | marker {k : MarkerKind} {rest name : List Char} {texts : List String} (hne : m.text k ≠ "")
      (hlongest : ∀ j, (m.text j).toList <+: (m.text k).toList ++ rest →
        (m.text j).toList.length ≤ (m.text k).toList.length)
      (hrest : Decomposes m rest texts name) :
      Decomposes m ((m.text k).toList ++ rest) (m.text k :: texts) name

theorem Decomposes.append_eq (h : m.Decomposes s texts name) :
    texts.flatMap String.toList ++ name = s := by
  induction h with
  | name _ => rfl
  | marker _ _ _ ih => rw [List.flatMap_cons, List.append_assoc, ih]

/-- Of two longest markers that begin a text each is as long as the other, hence its text. -/
theorem Decomposes.unique {name' : List Char} {texts' : List String}
    (h : m.Decomposes s texts name) (h' : m.Decomposes s texts' name') :
    texts' = texts ∧ name' = name := by
  induction h generalizing texts' name' with
  | name hend =>
    cases h' with
    | name _ => exact ⟨rfl, rfl⟩
    | marker hne _ _ => exact absurd (List.prefix_append _ _) (hend _ hne)
  | @marker k rest name texts hne hlongest hrest ih =>
    generalize hs : (m.text k).toList ++ rest = s at h'
    cases h' with
    | name hend =>
      rw [← hs] at hend
      exact absurd (List.prefix_append _ _) (hend k hne)
    | @marker k' rest' _ texts' hne' hlongest' hrest' =>
      have hle := hlongest k' (by rw [hs]; exact List.prefix_append _ _)
      have hge := hlongest' k (by rw [← hs]; exact List.prefix_append _ _)
      obtain ⟨htext, rfl⟩ := List.append_inj hs (Nat.le_antisymm hge hle)
      obtain ⟨rfl, rfl⟩ := ih hrest'
      exact ⟨by rw [String.toList_inj.mp htext], rfl⟩

theorem size_ne_zero_iff {k : MarkerKind} : m.size k ≠ 0 ↔ m.text k ≠ "" := by
  rw [size, ne_eq, List.length_eq_zero_iff, String.toList_eq_nil_iff]

theorem leading?_eq_none_iff_unmarked : m.leading? s = none ↔ m.Unmarked s := by
  rw [leading?_eq_none, Unmarked]
  refine forall_congr' fun k => ?_
  rw [← Bool.not_eq_true, begins_iff, size_ne_zero_iff, not_and]

theorem decomposes_strip (m : Markers) (s : List Char) :
    m.Decomposes s ((m.strip s).1.map m.text) (m.strip s).2 := by
  fun_induction strip m s with
  | case1 s h => exact .name (leading?_eq_none_iff_unmarked.mp h)
  | case2 s k h _ rest ih =>
    obtain ⟨hbegins, hlongest⟩ := leading?_eq_some h
    have hs := text_append_drop hbegins
    have hmarker : m.Decomposes ((m.text k).toList ++ s.drop (m.size k))
        (m.text k :: rest.1.map m.text) rest.2 := by
      refine .marker (size_ne_zero_iff.mp (begins_iff.mp hbegins).1) (fun j hj => ?_) ih
      rw [hs] at hj
      -- A marker without a text begins every text, and is no longer than any other.
      rcases Nat.eq_zero_or_pos (m.size j) with hzero | hpos
      · exact Nat.le_trans (Nat.le_of_eq hzero) (Nat.zero_le _)
      · exact hlongest j (begins_iff.mpr ⟨Nat.ne_of_gt hpos, hj⟩)
    rw [hs] at hmarker
    exact hmarker

/-- The markers that are taken off a text and what is left are its only decomposition. -/
theorem decomposes_iff_strip :
    m.Decomposes s texts name ↔ texts = (m.strip s).1.map m.text ∧ name = (m.strip s).2 := by
  constructor
  · exact (m.decomposes_strip s).unique
  · rintro ⟨rfl, rfl⟩
    exact m.decomposes_strip s

/-! ## Runs that are written out -/

theorem PrefixFree.text_ne_empty (hfree : m.PrefixFree) (k : MarkerKind) : m.text k ≠ "" := by
  intro hempty
  have hall (j : MarkerKind) : k = j := by
    refine hfree k j ?_
    rw [hempty]
    exact List.nil_prefix
  have hlabel := hall .label
  rw [hall .skip] at hlabel
  cases hlabel

theorem PrefixFree.text_injective (hfree : m.PrefixFree) : Function.Injective m.text := by
  intro j k hjk
  refine hfree j k ⟨[], ?_⟩
  rw [List.append_nil, hjk]

theorem strip_concat (hfree : m.PrefixFree) (ks : List MarkerKind) (s : List Char) :
    m.strip (m.concat ks ++ s) = (ks ++ (m.strip s).1, (m.strip s).2) := by
  induction ks with
  | nil => rfl
  | cons k ks ih =>
    have hcons : m.concat (k :: ks) ++ s = (m.text k).toList ++ (m.concat ks ++ s) := by
      simp only [concat, List.flatMap_cons, List.append_assoc]
    rw [hcons, strip_text_append hfree (size_ne_zero_iff.mpr (hfree.text_ne_empty k)), ih]
    rfl

theorem trim_concat_append (hmarkers : ∀ k, Text.trim (m.text k).toList = (m.text k).toList)
    (ks : List MarkerKind) (hname : Text.trim name = name) :
    Text.trim (m.concat ks ++ name) = m.concat ks ++ name := by
  induction ks with
  | nil => exact hname
  | cons k ks ih =>
    have htrim := Text.trim_append (hmarkers k) ih
    rw [← List.append_assoc] at htrim
    exact htrim

theorem trim_text_of_check (hcheck : m.check = .ok ()) (k : MarkerKind) :
    Text.trim (m.text k).toList = (m.text k).toList :=
  Text.trim_eq_self (fun _ hc => isBlank_of_check hcheck (List.mem_of_head? hc))
    (fun _ hc => isBlank_of_check hcheck (List.mem_of_getLast? hc))

end Markers

/-! ## Reading a token -/

namespace Token

/-- The flag that a marker of the kind sets. -/
def flag (t : Token) : MarkerKind → Bool
  | .label => t.isLabel
  | .skip => t.isSkipped
  | .force => t.isForced

theorem flag_ofRun (ks : List MarkerKind) (name : List Char) (k : MarkerKind) :
    (ofRun ks name).flag k = ks.contains k := by
  cases k <;> rfl

/-- **Markers and a name.** A raw token decomposes in one way, into its name and the markers that
its flags stand for. If no marker is a prefix of another, as with the default ones, a run of markers
that is written in front of a name is read as that run and that name, as long as no blank stands at
an end of the text. None does if none stands at an end of the name or of a marker, and checked
markers have none. -/
theorem read_decomposes (m : Markers) :
    (∀ raw, ∃ texts,
        m.Decomposes (Text.trim raw.toList) texts (read m raw).name.toList
          ∧ texts.flatMap String.toList ++ (read m raw).name.toList = Text.trim raw.toList
          ∧ (∀ texts' name, m.Decomposes (Text.trim raw.toList) texts' name →
              texts' = texts ∧ name = (read m raw).name.toList)
          ∧ (Function.Injective m.text → ∀ k, (read m raw).flag k = true ↔ m.text k ∈ texts))
      ∧ (m.PrefixFree → ∀ ks name, m.Unmarked name.toList →
          Text.trim (m.concat ks ++ name.toList) = m.concat ks ++ name.toList →
          read m (String.ofList (m.concat ks ++ name.toList))
            = ⟨name, ks.contains .label, ks.contains .force, ks.contains .skip⟩)
      ∧ ((∀ k, Text.trim (m.text k).toList = (m.text k).toList) →
          ∀ ks name, Text.trim name = name →
            Text.trim (m.concat ks ++ name) = m.concat ks ++ name)
      ∧ (m.check = .ok () → ∀ k, Text.trim (m.text k).toList = (m.text k).toList)
      ∧ ({} : Markers).PrefixFree := by
  refine ⟨fun raw => ?_, fun hfree ks name hname htrim => ?_,
    fun hmarkers ks _ => Markers.trim_concat_append hmarkers ks, Markers.trim_text_of_check,
    by decide⟩
  · have hdec := Markers.decomposes_iff_strip.mpr ⟨rfl, name_read m raw⟩
    refine ⟨_, hdec, hdec.append_eq, fun texts name hother => ?_, fun hinj k => ?_⟩
    · rw [name_read]
      exact Markers.decomposes_iff_strip.mp hother
    · rw [read, flag_ofRun, List.contains_iff_mem, List.mem_map_of_injective hinj]
  · have hlead := Markers.leading?_eq_none_iff_unmarked.mpr hname
    rw [read, String.toList_ofList, htrim, Markers.strip_concat hfree,
      Markers.strip_of_leading?_eq_none hlead, List.append_nil, ofRun, String.ofList_toList]

/-- Markers that begin with the same character, none of them a prefix of another. -/
def colons : Markers := ⟨"::", ":!", ":+"⟩

theorem colons_read :
    colons.check = .ok () ∧ colons.PrefixFree ∧ colons.Unmarked ":web app:".toList
      ∧ Text.trim ":web app:".toList = ":web app:".toList
      ∧ read colons ":+:::+:web app:" = ⟨":web app:", true, true, false⟩
      ∧ ∃ texts, colons.Decomposes ":+:::+:web app:".toList texts ":web app:".toList
          ∧ ":+" ∈ texts ∧ ":!" ∉ texts := by
  have hcheck : colons.check = .ok () := by rfl
  have hfree : colons.PrefixFree := by decide
  have hname : colons.Unmarked ":web app:".toList := by decide
  have hblanks : Text.trim ":web app:".toList = ":web app:".toList := by decide
  obtain ⟨hdecomposes, hwritten, htrim, hchecked, -⟩ := read_decomposes colons
  have hwhole := htrim (hchecked hcheck) [.force, .label, .force] ":web app:".toList hblanks
  have hread : read colons ":+:::+:web app:" = ⟨":web app:", true, true, false⟩ :=
    hwritten hfree [.force, .label, .force] ":web app:" hname hwhole
  obtain ⟨texts, hdec, -, -, hflag⟩ := hdecomposes ":+:::+:web app:"
  rw [hread] at hdec hflag
  refine ⟨hcheck, hfree, hname, hblanks, hread, texts, hdec, ?_, ?_⟩
  · exact (hflag hfree.text_injective .force).mp rfl
  · intro hskip
    exact Bool.false_ne_true ((hflag hfree.text_injective .skip).mpr hskip)

/-- A label marker that starts with a blank is not found where it stands first: its blank is gone,
and what is left of it is taken for a part of the name. -/
theorem blank_of_marker_lost :
    let m : Markers := ⟨" x", "!", "+"⟩
    m.PrefixFree ∧ m.Unmarked "app".toList ∧ Text.trim "app".toList = "app".toList
      ∧ read m (String.ofList (m.concat [.label] ++ "app".toList)) = { name := "xapp" }
      ∧ ¬∀ ks name, m.Unmarked name.toList → Text.trim name.toList = name.toList →
          read m (String.ofList (m.concat ks ++ name.toList))
            = ⟨name, ks.contains .label, ks.contains .force, ks.contains .skip⟩ := by
  intro m
  have hname : m.Unmarked "app".toList := by decide
  have hblanks : Text.trim "app".toList = "app".toList := by decide
  have hread : read m (String.ofList (m.concat [.label] ++ "app".toList)) = { name := "xapp" } := by
    decide +kernel
  refine ⟨by decide, hname, hblanks, hread, fun hall => ?_⟩
  have hflagged := hall [.label] "app" hname hblanks
  rw [hread] at hflagged
  exact absurd (congrArg Token.isLabel hflagged) (by decide)

end Token

end RepoSelect
