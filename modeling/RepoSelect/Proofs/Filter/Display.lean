import RepoSelect.Proofs.Filter.Notation
import RepoSelect.Proofs.Text.Run
import RepoSelect.Text.Split

/-!
# What set notation says

The text that a filter is shown as, such as `(legacy) ∪ ((~frontend ∪ web) ∖ (old))`, has a shape
for each combination of buckets that have names. No two groups of names that mean different
selections share a text:

> Names that have no blanks and no parentheses can be read off from the text again, bucket by
> bucket, except that forced names that stand alone look like included ones (`read_text`).

Which of the two they are makes no difference to the selection (`selected_merged`). So the text
alone determines what is selected, whatever the names stand for (`display_determines_selected`), and
filters that are shown alike select alike (`evaluate_eq_of_display_eq`).

The reader follows the parentheses. A union is read up to the first closing one, and within it names
are told from signs by their places and not by their looks, for a name may be a sign of the
notation.
-/

namespace RepoSelect

/-! ## Writing -/

/-- The names of a group in the order in which they are written. -/
structure Written where
  forced : List (List Char)
  included : List (List Char)
  excluded : List (List Char)

namespace Written

def union (names : List (List Char)) : List Char :=
  '(' :: ([' ', '∪', ' '].intercalate names ++ [')'])

/-- A union, or the sign of the empty set if it has no names. -/
def part (names : List (List Char)) : List Char := if names = [] then ['∅'] else union names

def remainder (w : Written) : List Char :=
  part w.included ++ if w.excluded = [] then [] else [' ', '∖', ' '] ++ union w.excluded

def text (w : Written) : List Char :=
  if w.forced = [] then w.remainder
  else if w.included = [] ∧ w.excluded = [] then union w.forced
  else
    union w.forced ++ ([' ', '∪', ' ']
      ++ if w.excluded = [] then w.remainder else '(' :: (w.remainder ++ [')']))

/-! ## Reading -/

/-- Every other item of a list, the first among them. -/
def alternate {α : Type} : List α → List α
  | [] => []
  | [a] => [a]
  | a :: _ :: l => a :: alternate l

/-- The names of the part that a text starts with, and the text behind it. -/
def readPart : List Char → List (List Char) × List Char
  | '(' :: s =>
    (alternate (Text.splitAt ' ' (s.takeWhile (· ≠ ')'))), (s.dropWhile (· ≠ ')')).drop 1)
  | s => ([], s.drop 1)

/-- The included and the excluded names. -/
def readRemainder (s : List Char) : List (List Char) × List (List Char) :=
  ((readPart s).1, (readPart ((readPart s).2.drop 3)).1)

/-- Behind forced names and a sign of union, parentheses within what follows the first character
show that something is excluded. -/
def read (s : List Char) : Written :=
  let rest := (readPart s).2.drop 3
  if (readPart s).2.take 3 = [' ', '∪', ' '] then
    let remainder := readRemainder (if '(' ∈ rest.drop 1 then rest.drop 1 else rest)
    ⟨(readPart s).1, remainder.1, remainder.2⟩
  else ⟨[], (readRemainder s).1, (readRemainder s).2⟩

/-! ## Names that can be read -/

def IsWord (name : List Char) : Prop := ∀ d ∈ name, d ≠ ' ' ∧ d ≠ '(' ∧ d ≠ ')'

structure Legible (w : Written) : Prop where
  forced : ∀ name ∈ w.forced, IsWord name
  included : ∀ name ∈ w.included, IsWord name
  excluded : ∀ name ∈ w.excluded, IsWord name

variable {names : List (List Char)} {w : Written}

theorem IsWord.not_mem_blank {name : List Char} (h : IsWord name) : ' ' ∉ name :=
  fun hmem => (h ' ' hmem).1 rfl

/-- Of the words of a joined text every other one is a name. -/
theorem alternate_splitAt_joined (hne : names ≠ []) (hwords : ∀ name ∈ names, IsWord name) :
    alternate (Text.splitAt ' ' ([' ', '∪', ' '].intercalate names)) = names := by
  induction names with
  | nil => exact absurd rfl hne
  | cons name names ih =>
    have hname := (hwords name List.mem_cons_self).not_mem_blank
    cases names with
    | nil => rw [List.intercalate_singleton, Text.splitAt_of_not_mem hname, alternate]
    | cons next names =>
      have hrest := ih (List.cons_ne_nil _ _) fun n hn => hwords n (List.mem_cons_of_mem _ hn)
      have hjoined : [' ', '∪', ' '].intercalate (name :: next :: names)
          = name ++ ' ' :: (['∪'] ++ ' ' :: [' ', '∪', ' '].intercalate (next :: names)) := by
        rw [List.intercalate_cons_cons, List.append_assoc]
        rfl
      rw [hjoined, Text.splitAt_append_cons, Text.splitAt_append_cons,
        Text.splitAt_of_not_mem hname, Text.splitAt_of_not_mem (by decide)]
      show name :: alternate (Text.splitAt ' ' ([' ', '∪', ' '].intercalate (next :: names)))
        = name :: next :: names
      rw [hrest]

theorem ne_parentheses_of_mem_joined (hwords : ∀ name ∈ names, IsWord name) {d : Char}
    (hd : d ∈ [' ', '∪', ' '].intercalate names) : d ≠ '(' ∧ d ≠ ')' := by
  rcases of_mem_intercalate hd with hsep | ⟨name, hname, hd⟩
  · simp only [List.mem_cons, List.not_mem_nil, or_false] at hsep
    rcases hsep with rfl | rfl | rfl <;> decide
  · exact (hwords name hname d hd).2

/-! ## What is written is read -/

theorem readPart_union (hne : names ≠ []) (hwords : ∀ name ∈ names, IsWord name) (r : List Char) :
    readPart (union names ++ r) = (names, r) := by
  have hinside : ∀ d ∈ [' ', '∪', ' '].intercalate names, decide (d ≠ ')') = true :=
    fun d hd => decide_eq_true (ne_parentheses_of_mem_joined hwords hd).2
  have hclose : ∀ d, (')' :: r).head? = some d → decide (d ≠ ')') = false := by
    rintro d ⟨⟩
    decide
  have htext : union names ++ r = '(' :: ([' ', '∪', ' '].intercalate names ++ ')' :: r) := by
    simp only [union, List.cons_append, List.append_assoc, List.nil_append]
  rw [htext, readPart, takeWhile_append hinside hclose, dropWhile_append hinside hclose,
    alternate_splitAt_joined hne hwords, List.drop_one, List.tail_cons]

theorem readPart_part (hwords : ∀ name ∈ names, IsWord name) (r : List Char) :
    readPart (part names ++ r) = (names, r) := by
  unfold part
  split
  · next hnil =>
    rw [hnil]
    rfl
  · next hne => exact readPart_union hne hwords r

theorem readRemainder_remainder (h : w.Legible) {r : List Char} (hr : w.excluded = [] → r = []) :
    readRemainder (w.remainder ++ r) = (w.included, w.excluded) := by
  rw [remainder, List.append_assoc, readRemainder, readPart_part h.included]
  split
  · next hnil =>
    rw [hr hnil, hnil]
    rfl
  · next hne =>
    have hdrop : (([' ', '∖', ' '] ++ union w.excluded) ++ r).drop 3 = union w.excluded ++ r := rfl
    rw [hdrop, readPart_union hne h.excluded]

theorem read_remainder (h : w.Legible) : read w.remainder = ⟨[], w.included, w.excluded⟩ := by
  have hremainder := readRemainder_remainder h (r := []) fun _ => rfl
  rw [List.append_nil] at hremainder
  have hfirst : (readPart w.remainder).2.take 3 ≠ [' ', '∪', ' '] := by
    rw [remainder, readPart_part h.included]
    split
    · exact List.cons_ne_nil _ _ ∘ Eq.symm
    · simp
  rw [read, if_neg hfirst, hremainder]

theorem read_union_append (hne : w.forced ≠ []) (h : w.Legible) (r : List Char) :
    read (union w.forced ++ ([' ', '∪', ' '] ++ r))
      = ⟨w.forced, (readRemainder (if '(' ∈ r.drop 1 then r.drop 1 else r)).1,
          (readRemainder (if '(' ∈ r.drop 1 then r.drop 1 else r)).2⟩ := by
  rw [read, readPart_union hne h.forced]
  rfl

/-- Forced names that stand alone are taken for included ones. -/
def merged (w : Written) : Written :=
  if w.included = [] ∧ w.excluded = [] then ⟨[], w.forced, []⟩ else w

theorem read_text (h : w.Legible) : read w.text = w.merged := by
  unfold text merged
  split
  · next hforced =>
    rw [read_remainder h]
    split
    · next hempty => rw [hempty.1, hempty.2, hforced]
    · rw [← hforced]
  next hforced =>
  split
  · next hempty =>
    have hlegible : Legible ⟨[], w.forced, []⟩ := ⟨nofun, h.forced, nofun⟩
    have hread := read_remainder hlegible
    rwa [remainder, part, if_neg hforced, if_pos rfl, List.append_nil] at hread
  next hsome =>
  rw [read_union_append hforced h]
  split
  · next hexcluded =>
    -- The included names stand alone, and their union has no parenthesis inside.
    have hincluded : w.included ≠ [] := fun hnil => hsome ⟨hnil, hexcluded⟩
    have hremainder := readRemainder_remainder h (r := []) fun _ => rfl
    rw [List.append_nil] at hremainder
    have hplain : '(' ∉ w.remainder.drop 1 := by
      rw [remainder, part, if_neg hincluded, if_pos hexcluded, List.append_nil, union,
        List.drop_one, List.tail_cons, List.mem_append]
      rintro (hopen | hopen)
      · exact (ne_parentheses_of_mem_joined h.included hopen).1 rfl
      · exact absurd hopen (by decide)
    rw [if_neg hplain, hremainder]
  · next hexcluded =>
    have hremainder := readRemainder_remainder h (r := [')']) fun hnil => absurd hnil hexcluded
    have hnested : '(' ∈ w.remainder ++ [')'] := by
      rw [remainder, if_neg hexcluded, union]
      simp
    rw [List.drop_one, List.tail_cons, if_pos hnested, hremainder]

/-! ## What is selected -/

/-- What the names of a list stand for together. -/
def together (stands : String → NameSet) (names : List (List Char)) : NameSet :=
  NameSet.unions (names.map fun name => stands (String.ofList name))

def selected (w : Written) (stands : String → NameSet) : NameSet :=
  Partition.selection
    ⟨together stands w.forced, together stands w.included, together stands w.excluded⟩

/-- If nothing is excluded, what is forced and what is included are selected alike. -/
theorem selected_merged (w : Written) (stands : String → NameSet) :
    w.merged.selected stands = w.selected stands := by
  unfold merged
  split
  · next hempty =>
    have hnone (r : String) : r ∉ together stands [] := Std.ExtTreeSet.not_mem_empty
    refine Std.ExtTreeSet.ext_mem fun r => ?_
    rw [selected, selected, Partition.mem_selection, Partition.mem_selection, hempty.1, hempty.2]
    simp only [hnone, false_or, or_false, not_false_eq_true, and_true]
  · rfl

end Written

/-! ## Groups of names -/

namespace LabelGroup

variable {g g' : LabelGroup}

/-- What is selected if each name stands for some repositories. -/
def selected (g : LabelGroup) (stands : String → NameSet) : NameSet :=
  let together (l : Label) : NameSet := NameSet.unions (l.members.toList.map stands)
  Partition.selection ⟨together g.forced, together g.included, together g.excluded⟩

def written (g : LabelGroup) : Written :=
  let names (l : Label) : List (List Char) := l.members.toList.map String.toList
  ⟨names g.forced, names g.included, names g.excluded⟩

/-- Names without blanks and without parentheses. -/
def Legible (g : LabelGroup) : Prop :=
  ∀ name, name ∈ g.forced.members ∨ name ∈ g.included.members ∨ name ∈ g.excluded.members →
    ∀ d ∈ name.toList, isBlank d = false ∧ d ≠ '(' ∧ d ≠ ')'

instance (g : LabelGroup) : Decidable g.Legible :=
  decidable_of_iff
    ((g.forced.members.toList ++ (g.included.members.toList ++ g.excluded.members.toList)).all
      (fun name => name.toList.all fun d => !isBlank d && (d != '(' && d != ')')) = true)
    (by simp only [List.all_eq_true, List.mem_append, Std.ExtTreeSet.mem_toList, Bool.and_eq_true,
          Bool.not_eq_true', bne_iff_ne, Legible])

theorem Legible.written (h : g.Legible) : g.written.Legible := by
  have hword : ∀ l : Label, (∀ name ∈ l.members, ∀ d ∈ name.toList,
      isBlank d = false ∧ d ≠ '(' ∧ d ≠ ')') →
      ∀ name ∈ l.members.toList.map String.toList, Written.IsWord name := by
    intro l hl name hname d hd
    obtain ⟨text, htext, rfl⟩ := List.mem_map.mp hname
    obtain ⟨hblank, hparentheses⟩ := hl text (Std.ExtTreeSet.mem_toList.mp htext) d hd
    refine ⟨?_, hparentheses⟩
    rintro rfl
    cases hblank
  exact ⟨hword _ fun name hname => h name (.inl hname),
    hword _ fun name hname => h name (.inr (.inl hname)),
    hword _ fun name hname => h name (.inr (.inr hname))⟩

theorem selected_written (g : LabelGroup) (stands : String → NameSet) :
    g.written.selected stands = g.selected stands := by
  simp only [Written.selected, Written.together, written, selected, List.map_map,
    Function.comp_def, String.ofList_toList]

theorem toList_union (l : Label) :
    (union l).toList = Written.union (l.members.toList.map String.toList) := by
  rw [union, Written.union]
  simp only [String.toList_append, String.toList_intercalate]
  rfl

theorem names_eq_nil_iff (l : Label) :
    l.members.toList.map String.toList = [] ↔ l.members.isEmpty = true := by
  rw [List.map_eq_nil_iff, ← List.isEmpty_iff, Std.ExtTreeSet.isEmpty_toList]

theorem toList_display (g : LabelGroup) : g.display.toList = g.written.text := by
  simp only [display, remainder?, written, Written.text, Written.remainder, Written.part,
    names_eq_nil_iff]
  cases g.forced.members.isEmpty <;> cases g.included.members.isEmpty <;>
    cases g.excluded.members.isEmpty <;> simp [toList_union]

/-- A group and its text select alike. -/
theorem selected_read_display (h : g.Legible) (stands : String → NameSet) :
    (Written.read g.display.toList).selected stands = g.selected stands := by
  rw [toList_display, Written.read_text h.written, Written.selected_merged, selected_written]

/-- **The text determines the selection.** Two groups of names that have no blanks and no
parentheses and that are shown as the same text select the same, whatever repositories the names
stand for. -/
theorem display_determines_selected (g g' : LabelGroup) (h : g.Legible) (h' : g'.Legible)
    (htext : g.display = g'.display) (stands : String → NameSet) :
    g.selected stands = g'.selected stands := by
  rw [← selected_read_display h, ← selected_read_display h', htext]

/-- Forced names that stand alone, among them signs of the notation, and the same names included. -/
theorem lone_names_selected_alike :
    let forced := ({} : Filter).labelGroup ["+∪", "+~ops", "+∅"]
    let included := ({} : Filter).labelGroup ["~ops", "∅", "∪", "∅"]
    forced.Legible ∧ included.Legible ∧ forced ≠ included
      ∧ forced.display = "(~ops ∪ ∅ ∪ ∪)" ∧ included.display = "(~ops ∪ ∅ ∪ ∪)"
      ∧ forced.selected (fun name => {name, "web"})
          = included.selected (fun name => {name, "web"}) := by
  intro forced included
  have hforced : forced.Legible := by decide +kernel
  have hincluded : included.Legible := by decide +kernel
  have htext : forced.display = "(~ops ∪ ∅ ∪ ∪)" := by decide +kernel
  have htext' : included.display = "(~ops ∪ ∅ ∪ ∪)" := by decide +kernel
  refine ⟨hforced, hincluded, by decide +kernel, htext, htext', ?_⟩
  exact display_determines_selected forced included hforced hincluded (htext.trans htext'.symm) _

end LabelGroup

/-- Filters with the same markers that are shown as the same text select the same repositories. -/
theorem Filter.evaluate_eq_of_display_eq {f f' : Filter} {raw raw' : List String}
    (hmarkers : f'.markers = f.markers) (hsize : f.markers.size .label ≠ 0)
    (h : (f.labelGroup raw).Legible) (h' : (f'.labelGroup raw').Legible)
    (htext : (f.labelGroup raw).display = (f'.labelGroup raw').display) (ix : LabelIndex) :
    f.evaluate raw ix = f'.evaluate raw' ix := by
  have hselected : (f.labelGroup raw).selected (ix.denoted f.markers)
      = (f'.labelGroup raw').selected (ix.denoted f.markers) := by
    rw [← LabelGroup.selected_read_display h, ← LabelGroup.selected_read_display h', htext]
  have hresolved : (f.labelGroup raw).resolved f.markers ix = f.partition raw ix :=
    resolved_labelGroup hsize raw ix
  have hresolved' : (f'.labelGroup raw').resolved f.markers ix = f'.partition raw' ix := by
    rw [← hmarkers] at hsize ⊢
    exact resolved_labelGroup hsize raw' ix
  rw [evaluate, evaluate, ← hresolved, ← hresolved']
  exact congrArg _ hselected

end RepoSelect
