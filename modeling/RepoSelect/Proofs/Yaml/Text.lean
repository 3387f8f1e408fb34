import RepoSelect.Proofs.Yaml.Collections

/-!
# The text of a table is scanned to its tokens

The text that the printer writes has only characters that a YAML text may hold (`all_entries`), and
the scan of the whole of it gives the tokens of the table (`scan_table`).
-/

namespace RepoSelect.Yaml

open Printer (isPlainlyPrintable isSimpleKey spaces)

namespace Printer

/-! ## Characters -/

variable {s r : List Char} {d : Char} {x : String}

theorem all_spaces (n : Nat) : (spaces n).all isPlainlyPrintable = true :=
  List.all_eq_true.mpr fun d hd => by
    rw [mem_spaces hd]
    decide

theorem all_line (h : s.all isPlainlyPrintable = true) :
    (line s).all isPlainlyPrintable = true := by
  unfold line
  split
  · exact h
  · rw [List.all_append, h]
    decide

theorem all_upperHex (width n : Nat) : (upperHex width n).all isPlainlyPrintable = true := by
  refine List.all_eq_true.mpr fun d hd => ?_
  rcases List.mem_append.mp hd with hzero | hdigit
  · rw [List.eq_of_mem_replicate hzero]
    decide
  · obtain ⟨e, he, rfl⟩ := List.mem_map.mp hdigit
    obtain ⟨k, hk, rfl⟩ := Quoted.exists_digitChar he
    have hdigits : ∀ k < 16, isPlainlyPrintable (Nat.digitChar k).toUpper = true := by decide
    exact hdigits k hk

theorem all_escape (d : Char) : (escape d).all isPlainlyPrintable = true := by
  have hmarks : ['\\', 'x'].all isPlainlyPrintable = true
      ∧ ['\\', 'u'].all isPlainlyPrintable = true
      ∧ ['\\', 'U'].all isPlainlyPrintable = true := by decide
  unfold escape
  split
  all_goals first | decide | skip
  dsimp only
  split
  · simpa using ‹_›
  · split
    · simpa [all_upperHex] using hmarks.1
    · split
      · simpa [all_upperHex] using hmarks.2.1
      · simpa [all_upperHex] using hmarks.2.2

theorem all_singleBody (indent : Nat) (atLineStart : Bool) (h : s.all isPlainlyPrintable = true) :
    (singleBody indent atLineStart s).all isPlainlyPrintable = true := by
  induction s generalizing atLineStart with
  | nil =>
    unfold singleBody
    split
    · exact all_spaces indent
    · rfl
  | cons d s ih =>
    rw [List.all_cons, Bool.and_eq_true] at h
    have hquote : isPlainlyPrintable '\'' = true := by decide
    rw [singleBody]
    split
    · simp [h.1, ih true h.2]
    · rw [List.all_append, List.all_append, ih false h.2]
      split <;> split <;> simp [all_spaces, hquote, h.1]

theorem all_literalBody (indent : Nat) (atLineStart : Bool) (h : s.all isPlainlyPrintable = true) :
    (literalBody indent atLineStart s).all isPlainlyPrintable = true := by
  induction s generalizing atLineStart with
  | nil => rfl
  | cons d s ih =>
    rw [List.all_cons, Bool.and_eq_true] at h
    rw [literalBody]
    split
    · simp [h.1, ih true h.2]
    · rw [List.all_append, List.all_cons, ih false h.2]
      split <;> simp [all_spaces, h.1]

theorem all_literalHints (s : List Char) : (literalHints s).all isPlainlyPrintable = true := by
  rw [Block.literalHints_eq, List.all_append]
  split <;> cases Block.chompingOf s <;> decide

theorem all_scalar (indent : Nat) (simpleKey : Bool) (x : String) :
    (scalar indent simpleKey x).all isPlainlyPrintable = true := by
  have hplainly : form simpleKey x ≠ .doubleQuoted → x.toList.all isPlainlyPrintable = true :=
    fun h => List.all_eq_true.mpr (plainly_of_form h).1
  have hmarks : isPlainlyPrintable '\'' = true ∧ isPlainlyPrintable '"' = true
      ∧ isPlainlyPrintable '|' = true ∧ isPlainlyPrintable '\n' = true := by decide
  cases hform : form simpleKey x with
  | plain =>
    rw [scalar_plain hform]
    exact hplainly (by rw [hform]; exact nofun)
  | singleQuoted =>
    rw [scalar_singleQuoted hform]
    have hbody := all_singleBody (indent + 2) false (hplainly (by rw [hform]; exact nofun))
    simp only [List.all_append, List.all_cons, List.all_nil, hbody, hmarks, Bool.and_self]
  | doubleQuoted =>
    rw [scalar_doubleQuoted hform]
    have hbody : (x.toList.flatMap escape).all isPlainlyPrintable = true := by
      rw [List.all_flatMap]
      exact List.all_eq_true.mpr fun d _ => all_escape d
    simp only [List.all_append, List.all_cons, List.all_nil, hbody, hmarks, Bool.and_self]
  | literal =>
    rw [scalar_literal hform]
    have hbody := all_literalBody (indent + 2) true (hplainly (by rw [hform]; exact nofun))
    simp only [List.all_append, List.all_cons, all_literalHints, hbody, hmarks, Bool.and_self]

theorem all_keyPart (indent : Nat) (k : String) :
    (keyPart indent k).all isPlainlyPrintable = true := by
  have hmarks : isPlainlyPrintable ':' = true ∧ isPlainlyPrintable '?' = true
      ∧ isPlainlyPrintable ' ' = true := by decide
  unfold keyPart
  split
  · simp only [List.all_append, all_scalar, List.all_cons, List.all_nil, hmarks, Bool.and_self]
  · simp only [List.all_append, List.all_cons, List.all_nil, all_line (all_scalar _ _ _),
      all_spaces, hmarks, Bool.and_self]

theorem all_marks : isPlainlyPrintable ' ' = true ∧ isPlainlyPrintable '-' = true
    ∧ isPlainlyPrintable '\n' = true := by decide

mutual

theorem all_value (indent : Nat) (inTable : Bool) :
    ∀ v, (value indent inTable v).all isPlainlyPrintable = true
  | .null => by rw [value]; decide
  | .bool true => by rw [value]; decide
  | .bool false => by rw [value]; decide
  | .list [] => by rw [value]; decide
  | .table [] => by rw [value]; decide
  | .text x => by
    rw [value, List.all_cons, all_line (all_scalar indent false x)]
    decide
  | .list (v :: vs) => by
    rw [value]
    split <;>
      simp only [List.all_append, List.all_cons, all_spaces, all_value _ false v, all_items _ vs,
        all_marks, Bool.and_self]
  | .table ((k, v) :: es) => by
    rw [value]
    split <;>
      simp only [List.all_append, List.all_cons, List.all_nil, all_spaces, all_keyPart,
        all_value _ _ v, all_entries _ es, all_marks, Bool.and_self]

theorem all_items (indent : Nat) : ∀ vs, (items indent vs).all isPlainlyPrintable = true
  | [] => rfl
  | v :: vs => by
    rw [items]
    simp only [List.all_append, List.all_cons, all_spaces, all_value indent false v,
      all_items indent vs, all_marks, Bool.and_self]

theorem all_entries (indent : Nat) : ∀ es, (entries indent es).all isPlainlyPrintable = true
  | [] => rfl
  | (k, v) :: es => by
    rw [entries]
    simp only [List.all_append, all_spaces, all_keyPart, all_value indent _ v,
      all_entries indent es, Bool.and_self]

end

end Printer

namespace Scan

variable {s : Scan} {found : List Token}

/-! ## The end of the text -/

/-- Outside of all collections the scan ends with the text. -/
theorem Waits.finish (h : Waits s [] (-1) [] found) :
    ∃ t : Scan, t.found = found ∧ ∀ fuel, Scan.loop (fuel + 1) s = .ok t := by
  obtain ⟨c, before, inner, key, hnext, hlines, -, hinner, rfl, hfree, -⟩ := h
  have hrest : c.rest = [] := (List.append_eq_nil_iff.mp hlines.symm).2
  have hunroll : (block c before (inner ++ [-1]) key true).unroll (-1)
      = block c (List.replicate inner.length .blockEnd ++ before) [-1] key true :=
    unroll_block hinner (Int.le_refl _)
  have hclose : (block c before (inner ++ [-1]) key true).closeAll
      = .ok { block c (List.replicate inner.length .blockEnd ++ before) [-1] none true with
          keyAllowed := false } := by
    unfold closeAll
    rw [hunroll, dropKey_block hfree]
    rfl
  refine ⟨{ block c (List.replicate inner.length .blockEnd ++ before) [-1] none true with
    keyAllowed := false }, rfl, fun fuel => ?_⟩
  have hpeek : s.next.cursor.peek? = none := by
    rw [hnext]
    exact congrArg List.head? hrest
  rw [Scan.loop_of_end hpeek, hnext]
  exact hclose

/-! ## The text -/

/-- **The text of a table is scanned to its tokens.** -/
theorem scan_entries (k : String) (v : Value) (es : List (String × Value)) :
    Token.scan (Printer.entries 0 ((k, v) :: es))
      = .ok ((Value.table ((k, v) :: es)).tokens false) := by
  obtain ⟨d, r, hcode, hfresh⟩ := exists_head_keyPart 0 k
    (Printer.value 0 (isSimpleKey k) v ++ (Printer.entries 0 es ++ []))
  have htext : Printer.entries 0 ((k, v) :: es) = d :: r := by
    rw [← hcode]
    simp [Printer.entries, spaces]
  have hstarts : Starts (block ⟨d :: r, 0, 0, 0⟩ [] [-1] none true) (d :: r) 0 [-1] [] :=
    starts_behind_spaces (n := 0) hfresh rfl (by decide) 0 0
  rw [← hcode] at hstarts
  have hopens : Opens (-1) [] 0 .blockMappingStart [] [-1] [.blockMappingStart] :=
    .inr ⟨by decide, rfl, rfl⟩
  obtain ⟨m, t, hm, htakes, hwaits⟩ := takes_entry (takesValue v) hstarts hopens
    (falls_entries (falls_nil 0))
  obtain ⟨n, u, hn, htakes', hwaits'⟩ := takesEntries es hwaits (falls_nil 0)
  obtain ⟨w, hfound, hloop⟩ := (hwaits'.leave (by decide)).finish
  have hlength : m + n ≤ (d :: r).length := by
    rw [← htext, Printer.entries]
    simp only [List.length_append]
    omega
  have hfuel : (d :: r).length + 1 = ((d :: r).length - (m + n) + 1) + (m + n) := by omega
  have hscan : loop ((d :: r).length + 1) { cursor := { rest := d :: r } } = .ok w := by
    rw [hfuel]
    rw [hcode] at htakes
    exact (htakes.trans htakes' _).trans (hloop _)
  have hall : ∀ e ∈ d :: r, Printer.isPlainlyPrintable e = true := by
    rw [← htext]
    exact List.all_eq_true.mp (Printer.all_entries 0 _)
  have hmark : (d :: r).head? ≠ some '\ufeff' := fun h =>
    Printer.ne_byteOrderMark_of_plainly (hall d (by simp)) (Option.some.inj h)
  have hprintable : (d :: r).all isPrintable = true :=
    List.all_eq_true.mpr fun e he => Printer.isPrintable_of_plainly (hall e he)
  rw [htext]
  unfold Token.scan
  simp only [hmark, hprintable, hscan, hfound, if_false, Bool.not_true, Bool.false_eq_true, bind,
    Except.bind]
  simp [Value.tokens]

end Scan

end RepoSelect.Yaml
