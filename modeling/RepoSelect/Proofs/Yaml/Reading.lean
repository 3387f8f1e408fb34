import RepoSelect.Config.Printer
import RepoSelect.Config.Reader
import RepoSelect.Proofs.Document.Record
import RepoSelect.Proofs.Yaml.Tree

/-!
# Typed readers on trees of values

What a typed reader finds in the tree of a value (`Reads`): the text, the flag, the option, the list
or the table that the value was made from. A text is taken for nothing else, since it is only plain
where it looks like no number, no truth value and no null (`ofText_of_plain`).
-/

namespace RepoSelect.Yaml

open Document
open Printer (form isSimpleKey)

variable {α : Type} {g : Graph}

/-- The part of a graph that the tree of a value is. -/
def Value.part (g : Graph) (v : Value) : Part := ⟨g, some v.toNode⟩

theorem Value.target_part (v : Value) : (v.part g).target = some v.toNode := by
  have hfollow : ∀ fuel, (v.part g).follow fuel = v.part g := by
    intro fuel
    cases fuel <;> cases v <;> rfl
  rw [Part.target, hfollow]
  rfl

/-- The reader finds `a` in the tree of the value. -/
def Reads (read : Part → Reading α) (v : Value) (a : α) : Prop :=
  ∀ g : Graph, read (v.part g) = .ok a

/-- A key as a part. -/
def partOfKey (g : Graph) (k : String) : Part := ⟨g, some (.scalar none k (keyStyle k))⟩

theorem readTextAs_partOfKey (expected k : String) :
    readTextAs expected (partOfKey g k) = .ok k := rfl

/-! ## Scalars -/

theorem reads_text (expected s : String) : Reads (readTextAs expected) (.text s) s := fun _ => rfl

theorem readText_part (s : String) : readText ((Value.text s).part g) = .ok s := reads_text _ s g

theorem reads_flag (b : Bool) : Reads readFlag (.bool b) b := fun _ => by
  cases b <;> rfl

theorem ofText_of_plain {simpleKey : Bool} {s : String} (h : form simpleKey s = .plain) :
    Plain.ofText s = .text := by
  refine Classical.byContradiction fun hne => ?_
  have htyped : Printer.looksTyped s = true := by simp [Printer.looksTyped, hne]
  revert h
  unfold form
  simp only [htyped, Bool.true_or, if_true]
  repeat' split
  all_goals
    intro hplain
    cases hplain

theorem not_null_of_ofText {s : String} (h : Plain.ofText s = .text) :
    s ≠ "" ∧ Plain.isNull s = false := by
  have hnull : ¬(s = "" ∨ Plain.isNull s = true) := by
    intro hnull
    rw [Plain.ofText, if_pos hnull] at h
    cases h
  exact ⟨fun hs => hnull (.inl hs), Bool.eq_false_iff.mpr fun hs => hnull (.inr hs)⟩

theorem style_eq_plain {f : Printer.Form} (h : f.style = .plain) : f = .plain := by
  cases f <;> first | rfl | cases h

/-- A text that is written is not absent. -/
theorem isNull_text (g : Graph) (s : String) : isNull ((Value.text s).part g) = .ok false := by
  have htarget : ((Value.text s).part g).target = some (.scalar none s (form false s).style) :=
    Value.target_part _
  show Part.asNull _ = _
  unfold Part.asNull
  rw [htarget]
  cases hstyle : (form false s).style with
  | plain =>
    obtain ⟨hne, hnull⟩ := not_null_of_ofText (ofText_of_plain (style_eq_plain hstyle))
    simp [hne, hnull]
  | singleQuoted | doubleQuoted | literal | folded => rfl

theorem reads_option (expected : String) (s : Option String) :
    Reads (readOption (readTextAs expected)) (.ofOption s) s := by
  intro g
  cases s with
  | none => rfl
  | some s =>
    have hnull : isNull ((Value.ofOption (some s)).part g) = .ok false := isNull_text g s
    have hread : readTextAs expected ((Value.ofOption (some s)).part g) = .ok s :=
      reads_text expected s g
    simp only [readOption, hnull, hread, mapError_ok, bind, Except.bind, Bool.false_eq_true,
      if_false]

theorem readOption_part (s : Option String) :
    readOption readText ((Value.ofOption s).part g) = .ok s := reads_option _ s g

theorem readPath_part (s : Option String) : readPath ((Value.ofOption s).part g) = .ok s :=
  reads_option _ s g

/-! ## Lists and tables -/

theorem map_sub_itemNodes (p : Part) (vs : List Value) :
    (itemNodes vs).map p.sub = vs.map (·.part p.graph) := by
  induction vs with
  | nil => rfl
  | cons v vs ih =>
    rw [itemNodes, List.map_cons, List.map_cons, ih]
    rfl

theorem map_sub_entryNodes (p : Part) (es : List (String × Value)) :
    (entryNodes es).map (fun e => (p.sub e.1, p.sub e.2))
      = es.map fun e => (partOfKey p.graph e.1, e.2.part p.graph) := by
  induction es with
  | nil => rfl
  | cons e es ih =>
    rw [entryNodes, List.map_cons, List.map_cons, ih]
    rfl

theorem items_list (g : Graph) (vs : List Value) :
    atCause Part (items ((Value.list vs).part g)) = .ok (vs.map (·.part g)) := by
  have htarget : ((Value.list vs).part g).target = some (.sequence none (itemNodes vs)) :=
    Value.target_part _
  show atCause Part (Part.asItems _) = _
  unfold Part.asItems
  rw [htarget]
  exact congrArg Except.ok (map_sub_itemNodes ((Value.list vs).part g) vs)

theorem readItems_map {β : Type} {read : Part → Reading α} {encode : β → Value} {f : β → α}
    (h : ∀ b, Reads read (encode b) (f b)) (bs : List β) (i : Nat) :
    readItems read i (bs.map fun b => (encode b).part g) = .ok (bs.map f) := by
  induction bs generalizing i with
  | nil => rfl
  | cons b bs ih =>
    simp only [List.map_cons, readItems, h b g, ih, under_ok, bind, Except.bind]

theorem reads_list {read : Part → Reading α} {encode : α → Value}
    (h : ∀ a, Reads read (encode a) a) (as : List α) :
    Reads (readList read) (.list (as.map encode)) as := by
  intro g
  have hitems := items_list g (as.map encode)
  rw [List.map_map] at hitems
  have hread := readItems_map (g := g) h as 0
  rw [List.map_id'] at hread
  simp only [readList, hitems, bind, Except.bind]
  exact congrArg (at_ Part) hread

theorem readTexts_part (ss : List String) :
    readList readText ((Value.texts ss).part g) = .ok ss := reads_list (reads_text "a string") ss g

theorem pairs_table (expected : String) (g : Graph) (es : List (String × Value)) :
    ((Value.table es).part g).pairs expected
      = .ok (es.map fun e => (partOfKey g e.1, e.2.part g)) := by
  have htarget : ((Value.table es).part g).target = some (.mapping none (entryNodes es)) :=
    Value.target_part _
  unfold Part.pairs
  rw [htarget]
  exact congrArg Except.ok (map_sub_entryNodes ((Value.table es).part g) es)

theorem shape_table (record : String) (g : Graph) (es : List (String × Value)) :
    shape record ((Value.table es).part g)
      = .ok (.members (es.map fun e => (partOfKey g e.1, e.2.part g))) := by
  show (Part.pairs record _).map Shape.members = _
  rw [pairs_table]
  rfl

theorem readEntries_map {read : Part → Reading α} {encode : α → Value}
    (h : ∀ a, Reads read (encode a) a) (es : List (String × α)) :
    readEntries read (es.map fun e => (partOfKey g e.1, (encode e.2).part g)) = .ok es := by
  induction es with
  | nil => rfl
  | cons e es ih =>
    have hkey : readText (partOfKey g e.1) = .ok e.1 := readTextAs_partOfKey _ _
    simp only [List.map_cons, readEntries, hkey, h e.2 g, ih, under_ok, bind, Except.bind]

theorem reads_table {read : Part → Reading α} {encode : α → Value}
    (h : ∀ a, Reads read (encode a) a) (es : List (String × α)) :
    Reads (readTable read) (.table (es.map fun e => (e.1, encode e.2))) es := by
  intro g
  have hentries : atCause Part (entries ((Value.table (es.map fun e => (e.1, encode e.2))).part g))
      = .ok (es.map fun e => (partOfKey g e.1, (encode e.2).part g)) := by
    show atCause Part (Part.pairs "a map" _) = _
    rw [pairs_table, List.map_map]
    rfl
  simp only [readTable, hentries, bind, Except.bind]
  exact congrArg (at_ Part) (readEntries_map h es)

/-! ## Contents -/

/-- A text is a text to a reader that chooses by the type it finds. -/
theorem reads_content_text (depth : Nat) (s : String) :
    Reads (Content.ofPart depth) (.text s) (.text s) := by
  intro g
  have htarget : ((Value.text s).part g).target = some (.scalar none s (form false s).style) :=
    Value.target_part _
  have hmeaning : Part.meaning none s (form false s).style = .ok none := by
    cases hstyle : (form false s).style with
    | plain =>
      have htext := ofText_of_plain (style_eq_plain hstyle)
      simp [Part.meaning, htext]
    | singleQuoted | doubleQuoted | literal | folded => rfl
  unfold Content.ofPart
  simp only [htarget, Tag.isLocal, Option.any_none, Bool.false_eq_true, if_false, Content.ofScalar,
    hmeaning, bind, Except.bind, atCause_ok]

theorem mapM_text? (names : List String) :
    (names.map Content.text).mapM Content.text? = some names := by
  induction names with
  | nil => rfl
  | cons name names ih =>
    rw [List.map_cons, List.mapM_cons, ih]
    rfl

/-- The names of a list, where one name alone would do. -/
theorem reads_oneOrMany {level : Nat} (hlevel : level < maxDepth) (names : List String) :
    Reads (oneOrMany level) (.texts names) names := by
  intro g
  obtain ⟨depth, hdepth⟩ : ∃ depth, maxDepth - level = depth + 1 := ⟨maxDepth - level - 1, by omega⟩
  have htarget : ((Value.texts names).part g).target
      = some (.sequence none (itemNodes (names.map .text))) := Value.target_part _
  have hitems : readItems (Content.ofPart depth) 0
      ((itemNodes (names.map .text)).map ((Value.texts names).part g).sub)
      = .ok (names.map .text) := by
    rw [map_sub_itemNodes, List.map_map]
    exact readItems_map (reads_content_text depth) names 0
  have hcontent : Content.ofPart (depth + 1) ((Value.texts names).part g)
      = .ok (.list (names.map .text)) := by
    unfold Content.ofPart
    simp only [htarget, Tag.isLocal, Option.any_none, Bool.false_eq_true, if_false, hitems, bind,
      Except.bind]
  simp only [oneOrMany, hdepth, hcontent, mapM_text?, bind, Except.bind]

/-- A duration is what its text is read as. -/
theorem duration_ofPart (level : Nat) (d : Duration) (g : Graph) :
    Duration.ofPart level ((Value.text d.format).part g)
      = (Duration.parse d.format).mapError fun fault =>
          ⟨.refused (Failure.config (.duration fault)).message, none⟩ := by
  have hcontent := reads_content_text (maxDepth - level) d.format g
  simp only [Duration.ofPart, hcontent, bind, Except.bind]
  cases Duration.parse d.format <;> rfl

end RepoSelect.Yaml
