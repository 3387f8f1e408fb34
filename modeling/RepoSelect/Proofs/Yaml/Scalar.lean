import RepoSelect.Proofs.Yaml.Block
import RepoSelect.Proofs.Yaml.Unquoted

/-!
# Every text is read back in its form

The form that the printer chooses for a text is one that the text can be read back from: a plain
text is unmarked (`bare_of_plain`), one between single quotes is quotable, and a literal block has
breaks that stay as they are. So a value is one token, behind which the scan waits for the lines
that follow (`takes_text`), and a key is one token up to its colon (`fetch_key`).
-/

namespace RepoSelect.Yaml

namespace Printer

/-- The style that a form is read as. -/
def Form.style : Form → ScalarStyle
  | .plain => .plain
  | .singleQuoted => .singleQuoted
  | .doubleQuoted => .doubleQuoted
  | .literal => .literal

/-! ## Characters -/

variable {d : Char} {s r : List Char}

theorem isPrintable_of_plainly (h : isPlainlyPrintable d = true) : isPrintable d = true := by
  simp only [isPlainlyPrintable, isPrintable, Bool.or_eq_true, Bool.and_eq_true,
    decide_eq_true_eq] at *
  omega

theorem ne_tab_of_plainly (h : isPlainlyPrintable d = true) : d ≠ '\t' := by
  rintro rfl
  exact absurd h (by decide)

theorem ne_byteOrderMark_of_plainly (h : isPlainlyPrintable d = true) : d ≠ '\ufeff' := by
  rintro rfl
  exact absurd h (by decide)

/-- The breaks that need no escape. -/
theorem isKept_of_plainly (h : isPlainlyPrintable d = true) (hd : isBreak d = true) :
    Block.IsKept d := by
  simp only [isBreak, Bool.or_eq_true, decide_eq_true_eq] at hd
  rcases hd with (((rfl | rfl) | rfl) | rfl) | rfl
  · exact .inl rfl
  · exact absurd h (by decide)
  · exact absurd h (by decide)
  · exact .inr (.inl rfl)
  · exact .inr (.inr rfl)

/-! ## Forms -/

/-- A text that may be a plain scalar. -/
structure Bare (s : List Char) : Prop extends Unquoted.Unmarked s where
  plainly : ∀ d ∈ s, isPlainlyPrintable d = true
  start : ∀ d r, s = d :: r → startsMarked d r.head? = false
  noDocument : s.take 3 ≠ ['-', '-', '-'] ∧ s.take 3 ≠ ['.', '.', '.']

theorem Bare.fresh (hs : Bare s) (stop : List Char) : Fresh (s ++ stop) := by
  cases s with
  | nil => exact absurd rfl hs.ne_nil
  | cons d s =>
    have hstart := hs.start d s rfl
    have hhash : d ≠ '#' := by
      rintro rfl
      simp [startsMarked] at hstart
    refine ⟨fun e he => ?_, (hs.chars d (by simp)).2⟩
    obtain rfl := Option.some.inj he
    exact ⟨fun heq => hs.head (by rw [heq]; rfl), (hs.chars d (by simp)).1, hhash,
      ne_byteOrderMark_of_plainly (hs.plainly d (by simp))⟩

theorem holdsMark_cons {d : Char} {r : List Char} (hstart : startsMarked d r.head? = false)
    (h : holdsMark d r = false) : holdsMark ' ' (d :: r) = false := by
  simp only [startsMarked, Bool.or_eq_false_iff, Bool.and_eq_false_iff, decide_eq_false_iff_not]
    at hstart
  simp only [holdsMark, Bool.or_eq_false_iff, Bool.and_eq_false_iff, decide_eq_false_iff_not, h,
    and_true]
  refine ⟨?_, .inl (by simp_all)⟩
  rcases hstart.2 with hmark | hnext
  · exact .inl (by simp_all)
  · exact .inr hnext

theorem bare_cons (hhead : d ≠ ' ') (hlast : (d :: r).getLast? ≠ some ' ')
    (hnoBreak : ∀ e ∈ d :: r, isBreak e = false)
    (hplainly : ∀ e ∈ d :: r, isPlainlyPrintable e = true)
    (hstart : startsMarked d r.head? = false) (hmarks : holdsMark d r = false)
    (hdocument : (d :: r).take 3 ≠ ['-', '-', '-'] ∧ (d :: r).take 3 ≠ ['.', '.', '.']) :
    Bare (d :: r) where
  ne_nil := List.cons_ne_nil d r
  head := fun h => hhead (Option.some.inj h)
  last := hlast
  chars := fun e he => ⟨ne_tab_of_plainly (hplainly e he), hnoBreak e he⟩
  marks := holdsMark_cons hstart hmarks
  plainly := hplainly
  start := fun e t h => by
    obtain ⟨rfl, rfl⟩ := List.cons.inj h
    exact hstart
  noDocument := hdocument

variable {simpleKey : Bool} {x : String}

/-- A text that is not escaped has only characters that need none. -/
theorem plainly_of_form (h : form simpleKey x ≠ .doubleQuoted) :
    (∀ d ∈ x.toList, isPlainlyPrintable d = true) ∧ spaceBeside false x.toList = false := by
  have hescaped : (x.toList.any (!isPlainlyPrintable ·) || spaceBeside false x.toList) = false := by
    refine Bool.eq_false_iff.mpr fun hescaped => h ?_
    simp [form, hescaped]
  rw [Bool.or_eq_false_iff] at hescaped
  exact ⟨fun d hd => by simpa using List.any_eq_false.mp hescaped.1 d hd, hescaped.2⟩

theorem bare_of_plain (h : form simpleKey x = .plain) : Bare x.toList := by
  obtain ⟨hplainly, -⟩ := plainly_of_form (by rw [h]; exact nofun)
  cases hx : x.toList with
  | nil => simp [form, hx, spaceBeside] at h
  | cons d r =>
    rw [hx] at hplainly
    unfold form at h
    simp only [hx] at h
    split at h
    · cases h
    split at h
    · split at h <;> cases h
    split at h
    · cases h
    split at h
    · cases h
    next hplain =>
    simp only [Bool.or_eq_true, not_or, Bool.not_eq_true, decide_eq_true_eq, edgeIs] at hplain
    obtain ⟨⟨⟨-, ⟨hdashes, hdots⟩, hstart, hmarks⟩, hbroken⟩, hhead, hlast⟩ := hplain
    have hnoBreak : ∀ e ∈ d :: r, isBreak e = false := fun e he =>
      Bool.eq_false_iff.mpr (List.any_eq_false.mp hbroken e he)
    refine bare_cons ?_ ?_ hnoBreak hplainly hstart hmarks ⟨hdashes, hdots⟩
    · rintro rfl
      simp at hhead
    · intro heq
      simp [heq] at hlast

theorem bare_null : Bare ['n', 'u', 'l', 'l'] :=
  bare_cons (by decide) (by decide) (by simp [isBreak]) (by simp [isPlainlyPrintable]) (by decide)
    (by decide) (by decide)

theorem bare_true : Bare ['t', 'r', 'u', 'e'] :=
  bare_cons (by decide) (by decide) (by simp [isBreak]) (by simp [isPlainlyPrintable]) (by decide)
    (by decide) (by decide)

theorem bare_false : Bare ['f', 'a', 'l', 's', 'e'] :=
  bare_cons (by decide) (by decide) (by simp [isBreak]) (by simp [isPlainlyPrintable]) (by decide)
    (by decide) (by decide)

theorem quotable_of_singleQuoted (h : form simpleKey x = .singleQuoted) :
    Quoted.Quotable x.toList := by
  obtain ⟨hplainly, hbeside⟩ := plainly_of_form (by
    rw [h]
    intro hquoted
    cases hquoted)
  have hfeed : x.toList.contains '\n' = false := by
    refine Bool.eq_false_iff.mpr fun hfeed => ?_
    revert h
    simp only [form, hfeed, if_true]
    split
    · intro hsingle
      cases hsingle
    · split <;> (intro hsingle; cases hsingle)
  have hbehind : spaceBeside true x.toList = false := by
    refine Bool.eq_false_iff.mpr fun hbehind => ?_
    revert h
    simp only [form, hfeed, hbehind, Bool.or_true, if_true]
    split <;> (intro hsingle; cases hsingle)
  refine ⟨fun ht => ne_tab_of_plainly (hplainly _ ht) rfl, fun d hd hbreak => ?_, fun behind => ?_⟩
  · rcases isKept_of_plainly (hplainly d hd) hbreak with rfl | hseparator
    · rw [List.contains_eq_mem, decide_eq_false_iff_not] at hfeed
      exact absurd hd hfeed
    · exact hseparator
  · cases behind with
    | true => exact hbehind
    | false => exact hbeside

theorem blockable_of_literal (h : form simpleKey x = .literal) :
    Block.Blockable x.toList ∧ x.toList ≠ [] := by
  obtain ⟨hplainly, -⟩ := plainly_of_form (by rw [h]; exact nofun)
  refine ⟨⟨fun ht => ne_tab_of_plainly (hplainly _ ht) rfl,
    fun d hd => isKept_of_plainly (hplainly d hd)⟩, fun hnil => ?_⟩
  simp [form, hnil, spaceBeside] at h

theorem scalar_plain (h : form simpleKey x = .plain) (indent : Nat) :
    scalar indent simpleKey x = x.toList := by
  simp only [scalar, h]

theorem scalar_singleQuoted (h : form simpleKey x = .singleQuoted) (indent : Nat) :
    scalar indent simpleKey x = '\'' :: singleBody (indent + 2) false x.toList ++ ['\''] := by
  simp only [scalar, h]

theorem scalar_doubleQuoted (h : form simpleKey x = .doubleQuoted) (indent : Nat) :
    scalar indent simpleKey x = '"' :: x.toList.flatMap escape ++ ['"'] := by
  simp only [scalar, h]

theorem scalar_literal (h : form simpleKey x = .literal) (indent : Nat) :
    scalar indent simpleKey x = '|' :: literalHints x.toList
      ++ '\n' :: literalBody (indent + 2) true x.toList := by
  simp only [scalar, h]

end Printer

namespace Scan

open Printer (Bare)
open Quoted (mark)

variable {found : List Token} {indent : Int} {stack : List Int} {key : Option PossibleKey}
  {keyAllowed : Bool} {s code rest stop : List Char} {d : Char}

/-! ## Quoted scalars -/

theorem named_block {step : Step Token} {c c' : Cursor} {t : Token} (hfree : Free key)
    (h : step c = .ok (t, c')) : (block c found (indent :: stack) key keyAllowed).named 0 step
      = .ok (block c' (t :: found) (indent :: stack) (saved c found indent key keyAllowed)
          false) := by
  unfold named
  simp only [saveKey_block hfree, bind, Except.bind]
  have hcursor : (block c found (indent :: stack) (saved c found indent key keyAllowed)
      keyAllowed).cursor.advance 0 = c := rfl
  rw [hcursor, h]
  rfl

theorem fetch_mark (single : Bool) (rest : List Char) (index line column : Nat) :
    (block ⟨mark single :: rest, index, line, column⟩ found stack key keyAllowed).fetch
        (mark single)
      = (block ⟨mark single :: rest, index, line, column⟩ found stack key keyAllowed).named 0
          fun c => (Quoted.scalar single c).map fun (t, c) =>
            (.scalar t (if single then .singleQuoted else .doubleQuoted), c) := by
  cases single <;> simp [fetch, mark, block, Cursor.atDocumentMark]

theorem fetch_quoted {single : Bool} (h : Quoted.Spells single s code)
    (hrest : rest.head? ≠ some '\'') (hfree : Free key) (index line column : Nat) :
    let c : Cursor := ⟨mark single :: (code ++ mark single :: rest), index, line, column⟩
    ∃ line' column', (block c found (indent :: stack) key keyAllowed).fetch (mark single)
        = .ok (block ⟨rest, index + (code.length + 2), line', column'⟩
            (.scalar (.ofList s) (if single then .singleQuoted else .doubleQuoted) :: found)
            (indent :: stack) (saved c found indent key keyAllowed) false)
      ∧ line ≤ line' ∧ ((∀ d ∈ code, isBreak d = false) →
          line' = line ∧ column' = column + (code.length + 2)) := by
  intro c
  obtain ⟨line', column', hscalar, hle, hexact⟩ := Quoted.scalar_quoted h hrest index line column
  refine ⟨line', column', ?_, hle, hexact⟩
  rw [fetch_mark]
  refine named_block hfree ?_
  rw [hscalar]
  rfl

/-! ## Plain scalars -/

/-- No token but a plain scalar starts here. -/
theorem fetch_unmarked {c : Cursor} (hrest : c.rest = d :: rest)
    (hdocument : c.atDocumentMark = false)
    (hblank : isSpaceOrTab d = false) (hstart : Printer.startsMarked d rest.head? = false) :
    (block c found stack key keyAllowed).fetch d
      = (block c found stack key keyAllowed).plainScalar := by
  have hnext : c.ahead? 1 = rest.head? := by
    rw [Cursor.ahead?, hrest, List.head?_eq_getElem?]
    rfl
  simp only [Printer.startsMarked, Bool.or_eq_false_iff, Bool.and_eq_false_iff,
    decide_eq_false_iff_not] at hstart
  obtain ⟨hmarks, hends⟩ := hstart
  by_cases hmark : d = '?' ∨ d = ':' ∨ d = '-'
  · have hword : endsWord rest.head? = false := by
      rcases hends with ⟨⟨hquestion, hcolon⟩, hdash⟩ | hends
      · exact absurd hmark (by simp [hquestion, hcolon, hdash])
      · exact hends
    have hspace : rest.head?.any isSpaceOrTab = false := by
      cases hhead : rest.head? with
      | none => rfl
      | some e =>
        rw [hhead, endsWord, Bool.or_eq_false_iff] at hword
        exact hword.1
    rcases hmark with rfl | rfl | rfl <;>
      simp [fetch, block, hdocument, inFlow, hnext, hword, hspace, startsPlain]
  · simp only [not_or] at hmark
    simp [fetch, block, hdocument, hmarks, hmark, hblank, startsPlain, isIndicator,
      Unquoted.isFlowMark]

theorem startsMarked_append (h : Printer.startsMarked d s.head? = false) (stop : List Char) :
    Printer.startsMarked d (s ++ stop).head? = false := by
  cases s with
  | cons e s => exact h
  | nil =>
    simp only [Printer.startsMarked, List.head?_nil, endsWord, Bool.and_true,
      Bool.or_eq_false_iff] at h
    simp [Printer.startsMarked, h]

theorem atDocumentMark_append (hs : s.take 3 ≠ ['-', '-', '-'] ∧ s.take 3 ≠ ['.', '.', '.'])
    (hstop : stop.head? = some ':' ∨ stop.head? = some '\n') (index line column : Nat) :
    (⟨s ++ stop, index, line, column⟩ : Cursor).atDocumentMark = false := by
  have htake : (s ++ stop).take 3 ≠ ['-', '-', '-'] ∧ (s ++ stop).take 3 ≠ ['.', '.', '.'] := by
    cases stop with
    | nil => simp at hstop
    | cons e stop =>
      have he : e ≠ '-' ∧ e ≠ '.' := by
        rcases hstop with h | h <;> obtain rfl := Option.some.inj h <;> decide
      match s, hs with
      | [], _ => simp [he]
      | [a], _ => simp [he]
      | [a, b], _ => simp [he]
      | a :: b :: c :: s, hs => exact hs
  simp [Cursor.atDocumentMark, htake]

theorem plainScalar_block {c c' : Cursor} {text : String} {broken : Bool} (hfree : Free key)
    (h : Unquoted.scalar false indent c = .ok ((text, broken), c')) :
    (block c found (indent :: stack) key keyAllowed).plainScalar
      = .ok (block c' (.scalar text .plain :: found) (indent :: stack)
          (saved c found indent key keyAllowed) broken) := by
  unfold plainScalar
  simp only [saveKey_block hfree, bind, Except.bind]
  have hstate : Unquoted.scalar
      (block c found (indent :: stack) (saved c found indent key keyAllowed) keyAllowed).inFlow
      (block c found (indent :: stack) (saved c found indent key keyAllowed) keyAllowed).indent
      (block c found (indent :: stack) (saved c found indent key keyAllowed) keyAllowed).cursor
      = .ok ((text, broken), c') := h
  rw [hstate]
  rfl

/-- A plain scalar up to a colon or to the end of its line. -/
theorem fetch_bare (hs : Bare (d :: s)) (hstop : Unquoted.Ends (indent + 1) stop)
    (hfree : Free key) {index line column : Nat} (hcolumn : indent ≤ column) :
    let c : Cursor := ⟨d :: s ++ stop, index, line, column⟩
    let c' : Cursor := ⟨stop, index + (d :: s).length, line, column + (d :: s).length⟩
    (block c found (indent :: stack) key keyAllowed).fetch d
      = .ok (block (Unquoted.behind c').2 (.scalar (.ofList (d :: s)) .plain :: found)
          (indent :: stack) (saved c found indent key keyAllowed) (Unquoted.behind c').1) := by
  intro c c'
  have hhead : stop.head? = some ':' ∨ stop.head? = some '\n' := by
    cases hstop with
    | key h => exact .inl rfl
    | line hr hcolumn => exact .inr rfl
  have hdocument : c.atDocumentMark = false :=
    atDocumentMark_append hs.noDocument hhead index line column
  have hblank : isSpaceOrTab d = false := by
    have hspace : d ≠ ' ' := fun heq => hs.head (by rw [heq]; rfl)
    have htab : d ≠ '\t' := (hs.chars d (by simp)).1
    simp [isSpaceOrTab, hspace, htab]
  have hrest : c.rest = d :: (s ++ stop) := rfl
  rw [fetch_unmarked hrest hdocument hblank (startsMarked_append (hs.start d s rfl) stop)]
  exact plainScalar_block hfree
    (Unquoted.scalar_unmarked hs.toUnmarked hstop hcolumn hdocument)

/-! ## Literal blocks -/

theorem blockScalar_block {c c' : Cursor} {text : String} (hfree : Free key)
    (h : Block.scalar true indent c = .ok (text, c')) :
    (block c found (indent :: stack) key keyAllowed).blockScalar true
      = .ok (block c' (.scalar text .literal :: found) (indent :: stack) none true) := by
  unfold blockScalar
  simp only [dropKey_block hfree, bind, Except.bind]
  have hstate : Block.scalar true
      (block c found (indent :: stack) none keyAllowed).indent
      (block c found (indent :: stack) none keyAllowed).cursor = .ok (text, c') := h
  rw [hstate]
  rfl

theorem fetch_literal (hs : Block.Blockable s) (hne : s ≠ []) {i n : Nat} (hrest : Fresh rest)
    (hn : n ≤ i) (hfree : Free key) (index line column : Nat) :
    ∃ index' line', (block ⟨'|' :: (Printer.literalHints s ++ '\n' ::
          (Printer.literalBody (i + 2) true s ++ (Block.ending s ++ (Printer.spaces n ++ rest)))),
        index, line, column⟩ found (i :: stack) key keyAllowed).fetch '|'
      = .ok (block ⟨rest, index', line', n⟩ (.scalar (.ofList s) .literal :: found) (i :: stack)
          none true) := by
  obtain ⟨index', line', hscalar⟩ := Block.scalar_literal hs hne hrest hn index line column
  refine ⟨index', line', ?_⟩
  have hfetch : ∀ rest : List Char,
      (block ⟨'|' :: rest, index, line, column⟩ found ((i : Int) :: stack) key keyAllowed).fetch '|'
        = (block ⟨'|' :: rest, index, line, column⟩ found (i :: stack) key
            keyAllowed).blockScalar true := by
    intro rest
    simp [fetch, block, Cursor.atDocumentMark, inFlow]
  rw [hfetch]
  exact blockScalar_block hfree hscalar

/-! ## Values -/

open Printer (form isSimpleKey)

variable {i column : Nat} {lines : List Char}

theorem line_eq (text : List Char) : Printer.line text = text ++ Block.ending text := by
  unfold Printer.line Block.ending
  split <;> simp

theorem takes_behind_space {t : Scan} {r : List Char} {index line : Nat} (hfresh : Fresh (d :: r))
    (hcolumn : i ≤ column)
    (h : (block ⟨d :: r, index + 1, line, column + 1⟩ found (i :: stack) none keyAllowed).fetch d
      = .ok t) :
    Takes 1 (block ⟨' ' :: d :: r, index, line, column⟩ found (i :: stack) none keyAllowed) t :=
  have hrest : (⟨' ' :: d :: r, index, line, column⟩ : Cursor).rest = Printer.spaces 1 ++ d :: r :=
    rfl
  takes_of_fetch hrest hfresh (by simp only; omega) h

theorem takes_bare (hs : Bare s) (hlines : Falls lines i) (hcolumn : i ≤ column)
    (index line : Nat) :
    ∃ t, Takes 1 (block ⟨' ' :: (Printer.line s ++ lines), index, line, column⟩ found (i :: stack)
        none keyAllowed) t
      ∧ Waits t lines i stack (.scalar (.ofList s) .plain :: found) := by
  obtain ⟨n, r, rfl, hr, hn⟩ := hlines
  cases s with
  | nil => exact absurd rfl hs.ne_nil
  | cons d s =>
    have hline : Printer.line (d :: s) ++ (Printer.spaces n ++ r)
        = d :: s ++ '\n' :: (Printer.spaces n ++ r) := by
      rw [line_eq, Block.ending_line hs.ne_nil fun d hd => (hs.chars d hd).2]
      simp
    have hends : Unquoted.Ends (i + 1) ('\n' :: (Printer.spaces n ++ r)) := .line hr (by omega)
    have hinside : (i : Int) ≤ (column + 1 : Nat) := by omega
    rw [hline]
    refine ⟨_, takes_behind_space (hs.fresh _) hcolumn (fetch_bare hs hends free_none hinside), ?_⟩
    rw [Unquoted.behind_line hr]
    have hnone : ∀ k, (none : Option PossibleKey) = some k → k.line ≤ line := nofun
    exact waits_of_fresh hr (free_saved free_none (by simp only; omega)) fun k hk =>
      Nat.lt_succ_of_le (line_saved hnone k hk)

theorem fresh_mark (single : Bool) (rest : List Char) : Fresh (mark single :: rest) := by
  refine ⟨fun d hd => ?_, by cases single <;> rfl⟩
  obtain rfl := Option.some.inj hd
  cases single <;> decide

theorem takes_quoted {single : Bool} (h : Quoted.Spells single s code) (hlines : Falls lines i)
    (hcolumn : i ≤ column) (index line : Nat) :
    ∃ t, Takes 1 (block ⟨' ' :: (Printer.line (mark single :: (code ++ [mark single])) ++ lines),
        index, line, column⟩ found (i :: stack) none keyAllowed) t
      ∧ Waits t lines i stack
          (.scalar (.ofList s) (if single then .singleQuoted else .doubleQuoted) :: found) := by
  have hending : Block.ending (mark single :: (code ++ [mark single])) = ['\n'] := by
    unfold Block.ending
    rw [← List.cons_append, List.getLast?_concat]
    cases single <;> rfl
  have hline : Printer.line (mark single :: (code ++ [mark single])) ++ lines
      = mark single :: (code ++ mark single :: '\n' :: lines) := by
    rw [line_eq, hending]
    simp
  have hbreak : ('\n' :: lines).head? ≠ some '\'' := by
    rw [List.head?_cons]
    decide
  rw [hline]
  obtain ⟨line', column', hfetch, hle, -⟩ := fetch_quoted h hbreak free_none (index + 1) line
    (column + 1)
  refine ⟨_, takes_behind_space (fresh_mark single _) hcolumn hfetch, ?_⟩
  have hnone : ∀ k, (none : Option PossibleKey) = some k → k.line ≤ line := nofun
  refine waits_of_break hlines (free_saved free_none (by simp only; omega)) fun k hk => ?_
  exact Nat.le_trans (line_saved hnone k hk) hle

theorem fresh_of_mark (hspace : d ≠ ' ' ∧ d ≠ '\t' ∧ d ≠ '#' ∧ d ≠ '\ufeff')
    (hbreak : isBreak d = false) (rest : List Char) : Fresh (d :: rest) := by
  refine ⟨fun e he => ?_, hbreak⟩
  obtain rfl := Option.some.inj he
  exact hspace

theorem takes_literal (hs : Block.Blockable s) (hne : s ≠ []) (hlines : Falls lines i)
    (hcolumn : i ≤ column) (index line : Nat) :
    ∃ t, Takes 1 (block ⟨' ' :: (Printer.line ('|' :: (Printer.literalHints s ++ '\n' ::
        Printer.literalBody (i + 2) true s)) ++ lines), index, line, column⟩ found (i :: stack)
        none keyAllowed) t
      ∧ Waits t lines i stack (.scalar (.ofList s) .literal :: found) := by
  obtain ⟨n, r, rfl, hr, hn⟩ := hlines
  have hbody : Printer.literalBody (i + 2) true s ≠ [] := by
    intro hnil
    have hlength : s.length ≤ (Printer.literalBody (i + 2) true s).length :=
      Block.length_le_literalBody s true
    rw [hnil] at hlength
    exact hne (List.eq_nil_of_length_eq_zero (Nat.le_zero.mp hlength))
  have hending : Block.ending ('|' :: (Printer.literalHints s ++ '\n' ::
      Printer.literalBody (i + 2) true s)) = Block.ending s := by
    unfold Block.ending
    rw [List.getLast?_cons_of_ne_nil (by simp), List.getLast?_append,
      List.getLast?_cons_of_ne_nil hbody,
      Block.getLast?_literalBody, Option.or_of_isSome (List.getLast?_isSome.mpr hne)]
  have hline : Printer.line ('|' :: (Printer.literalHints s ++ '\n' ::
      Printer.literalBody (i + 2) true s)) ++ (Printer.spaces n ++ r)
      = '|' :: (Printer.literalHints s ++ '\n' :: (Printer.literalBody (i + 2) true s
          ++ (Block.ending s ++ (Printer.spaces n ++ r)))) := by
    rw [line_eq, hending]
    simp
  rw [hline]
  obtain ⟨index', line', hfetch⟩ := fetch_literal hs hne hr hn free_none (index + 1) line
    (column + 1)
  refine ⟨_, takes_behind_space (fresh_of_mark (by decide) (by decide) _) hcolumn hfetch, ?_⟩
  exact waits_of_fresh hr free_none nofun

/-- **A text that is a value is one token.** -/
theorem takes_text (x : String) (hlines : Falls lines i) (hcolumn : i ≤ column)
    (index line : Nat) :
    ∃ t, Takes 1 (block ⟨' ' :: (Printer.line (Printer.scalar i false x) ++ lines), index, line,
        column⟩ found (i :: stack) none keyAllowed) t
      ∧ Waits t lines i stack (.scalar x (form false x).style :: found) := by
  have hx : String.ofList x.toList = x := String.ofList_toList
  cases hform : form false x with
  | plain =>
    rw [Printer.scalar_plain hform]
    obtain ⟨t, htakes, hwaits⟩ := takes_bare (Printer.bare_of_plain hform) hlines hcolumn index line
    rw [hx] at hwaits
    exact ⟨t, htakes, hwaits⟩
  | singleQuoted =>
    have hspells : Quoted.Spells true x.toList (Printer.singleBody (i + 2) false x.toList) :=
      Quoted.spells_single (Printer.quotable_of_singleQuoted hform) (Nat.succ_pos _)
    rw [Printer.scalar_singleQuoted hform]
    obtain ⟨t, htakes, hwaits⟩ := takes_quoted hspells hlines hcolumn index line
    rw [hx] at hwaits
    exact ⟨t, htakes, hwaits⟩
  | doubleQuoted =>
    rw [Printer.scalar_doubleQuoted hform]
    obtain ⟨t, htakes, hwaits⟩ := takes_quoted (Quoted.spells_double x.toList) hlines hcolumn index
      line
    rw [hx] at hwaits
    exact ⟨t, htakes, hwaits⟩
  | literal =>
    rw [Printer.scalar_literal hform]
    obtain ⟨hs, hne⟩ := Printer.blockable_of_literal hform
    obtain ⟨t, htakes, hwaits⟩ := takes_literal hs hne hlines hcolumn index line
    rw [hx] at hwaits
    exact ⟨t, htakes, hwaits⟩

/-! ## Keys -/

/-- A key that is short in bytes is short in its code. -/
theorem length_flatMap_le {f : Char → List Char} (hf : ∀ d, (f d).length ≤ 4 * d.utf8Size)
    (s : List Char) : (s.flatMap f).length ≤ 4 * (String.ofList s).utf8ByteSize := by
  induction s with
  | nil => exact Nat.zero_le _
  | cons d s ih =>
    rw [List.flatMap_cons, List.length_append, String.ofList_cons, String.utf8ByteSize_append,
      String.utf8ByteSize_singleton]
    have := hf d
    omega

theorem utf8Size_of_lt {d : Char} (h : 0x7F < d.toNat) :
    2 ≤ d.utf8Size ∧ (0xFFFF < d.toNat → d.utf8Size = 4) := by
  have hval : d.val.toNat = d.toNat := rfl
  unfold Char.utf8Size
  simp only [UInt32.le_iff_toNat_le, hval]
  split
  · exact absurd h (by simp at *; omega)
  · split
    · refine ⟨Nat.le_refl 2, fun h' => ?_⟩
      simp at *
      omega
    · split
      · refine ⟨by decide, fun h' => ?_⟩
        simp at *
        omega
      · exact ⟨by decide, fun _ => rfl⟩

theorem length_escape_le (d : Char) : (Printer.escape d).length ≤ 4 * d.utf8Size := by
  have hpos := Char.utf8Size_pos d
  unfold Printer.escape
  split
  all_goals first | (simp only [List.length_cons, List.length_nil]; omega) | skip
  dsimp only
  split
  · simp only [List.length_cons, List.length_nil]; omega
  split
  · rw [List.length_cons, List.length_cons, Quoted.length_upperHex (by decide) (by omega)]
    omega
  split
  · rw [List.length_cons, List.length_cons, Quoted.length_upperHex (by decide) (by omega)]
    have := (utf8Size_of_lt (d := d) (by omega)).1
    omega
  · have hchar : d.toNat < 0xD800 ∨ 0xDFFF < d.toNat ∧ d.toNat < 0x110000 := d.valid
    rw [List.length_cons, List.length_cons, Quoted.length_upperHex (by decide) (by omega),
      (utf8Size_of_lt (d := d) (by omega)).2 (by omega)]
    omega


theorem length_doubled_le (d : Char) : (Quoted.doubled d).length ≤ 4 * d.utf8Size := by
  have hpos := Char.utf8Size_pos d
  unfold Quoted.doubled
  split <;> simp only [List.length_cons, List.length_nil] <;> omega

theorem length_le_utf8ByteSize (s : List Char) : s.length ≤ 4 * (String.ofList s).utf8ByteSize := by
  have hle := length_flatMap_le (f := fun d => [d]) (fun d => by
    have hpos := Char.utf8Size_pos d
    simp only [List.length_singleton]
    omega) s
  rwa [List.flatMap_singleton'] at hle

variable {x : String}

theorem noBreak_of_isSimpleKey (h : isSimpleKey x = true) : ∀ d ∈ x.toList, isBreak d = false := by
  unfold isSimpleKey at h
  rw [Bool.and_eq_true, Bool.not_eq_true'] at h
  exact fun d hd => Bool.eq_false_iff.mpr (List.any_eq_false.mp h.1 d hd)

theorem form_ne_literal (h : ∀ d ∈ x.toList, isBreak d = false) (simpleKey : Bool) :
    form simpleKey x ≠ .literal := by
  have hfeed : x.toList.contains '\n' = false := by
    rw [List.contains_eq_mem, decide_eq_false_iff_not]
    exact fun hmem => absurd (h _ hmem) (by decide)
  unfold form
  simp only [hfeed, Bool.false_eq_true, if_false]
  repeat' split
  all_goals
    intro hliteral
    cases hliteral

theorem fetch_bare_key (hs : Bare (d :: s)) (hrest : endsWord rest.head? = true) (hfree : Free key)
    (index line : Nat) (hcolumn : indent ≤ column) :
    let c : Cursor := ⟨d :: s ++ ':' :: rest, index, line, column⟩
    (block c found (indent :: stack) key true).fetch d
      = .ok (block ⟨':' :: rest, index + (d :: s).length, line, column + (d :: s).length⟩
          (.scalar (.ofList (d :: s)) .plain :: found) (indent :: stack)
          (some (keyAt c found indent)) false) :=
  fetch_bare hs (.key hrest) hfree hcolumn

theorem fetch_quoted_key {single : Bool} (h : Quoted.Spells single s code)
    (hcode : ∀ d ∈ code, isBreak d = false) (hfree : Free key) (rest : List Char)
    (index line column : Nat) :
    let c : Cursor := ⟨mark single :: (code ++ [mark single]) ++ ':' :: rest, index, line, column⟩
    let n := (mark single :: (code ++ [mark single])).length
    (block c found (indent :: stack) key true).fetch (mark single)
      = .ok (block ⟨':' :: rest, index + n, line, column + n⟩
          (.scalar (.ofList s) (if single then .singleQuoted else .doubleQuoted) :: found)
          (indent :: stack) (some (keyAt c found indent)) false) := by
  intro c n
  have hcolon : (':' :: rest).head? ≠ some '\'' := by
    rw [List.head?_cons]
    decide
  have hrest : mark single :: (code ++ [mark single]) ++ ':' :: rest
      = mark single :: (code ++ mark single :: ':' :: rest) := by simp
  have hlength : n = code.length + 2 := by simp [n]
  obtain ⟨line', column', hfetch, -, hexact⟩ := fetch_quoted h hcolon hfree index line column
  obtain ⟨rfl, rfl⟩ := hexact hcode
  rw [hlength]
  simp only [c, hrest]
  exact hfetch

/-- **A key on the line of its value is one token up to its colon.** -/
theorem fetch_key (hx : isSimpleKey x = true) (hrest : endsWord rest.head? = true)
    (hfree : Free key) (i index line : Nat) (hcolumn : indent ≤ column) :
    ∃ d r, Printer.scalar i true x ++ ':' :: rest = d :: r ∧ Fresh (d :: r)
      ∧ 0 < (Printer.scalar i true x).length ∧ (Printer.scalar i true x).length ≤ 1024
      ∧ (block ⟨d :: r, index, line, column⟩ found (indent :: stack) key true).fetch d
        = .ok (block ⟨':' :: rest, index + (Printer.scalar i true x).length, line,
              column + (Printer.scalar i true x).length⟩
            (.scalar x (form true x).style :: found) (indent :: stack)
            (some (keyAt ⟨d :: r, index, line, column⟩ found indent)) false) := by
  have hshort : x.utf8ByteSize ≤ 128 := by
    unfold isSimpleKey at hx
    rw [Bool.and_eq_true, decide_eq_true_eq] at hx
    exact hx.2
  have hnoBreak := noBreak_of_isSimpleKey hx
  have hlist : String.ofList x.toList = x := String.ofList_toList
  cases hform : form true x with
  | plain =>
    have hs := Printer.bare_of_plain hform
    have hlength := length_le_utf8ByteSize x.toList
    rw [hlist] at hlength
    rw [Printer.scalar_plain hform]
    cases hcons : x.toList with
    | nil => exact absurd hcons hs.ne_nil
    | cons d s =>
      rw [hcons] at hs hlength hlist
      refine ⟨d, s ++ ':' :: rest, rfl, hs.fresh _, Nat.succ_pos _, by omega, ?_⟩
      refine (fetch_bare_key hs hrest hfree index line hcolumn).trans ?_
      rw [hlist]
      rfl
  | singleQuoted =>
    have hspells : Quoted.Spells true x.toList (Printer.singleBody (i + 2) false x.toList) :=
      Quoted.spells_single (Printer.quotable_of_singleQuoted hform) (Nat.succ_pos _)
    have hlength := length_flatMap_le length_doubled_le x.toList
    have hcode : ∀ d ∈ x.toList.flatMap Quoted.doubled, isBreak d = false := by
      intro d hd
      obtain ⟨e, he, hd⟩ := List.mem_flatMap.mp hd
      exact Quoted.noBreak_doubled (hnoBreak e he) hd
    rw [Printer.scalar_singleQuoted hform]
    rw [Quoted.singleBody_of_noBreak hnoBreak] at hspells ⊢
    rw [hlist] at hlength
    refine ⟨'\'', _, rfl, fresh_mark true _, Nat.succ_pos _, ?_, ?_⟩
    · simp only [List.length_cons, List.length_append, List.length_nil]
      omega
    · refine (fetch_quoted_key hspells hcode hfree rest index line column).trans ?_
      rw [hlist]
      rfl
  | doubleQuoted =>
    have hlength := length_flatMap_le length_escape_le x.toList
    rw [hlist] at hlength
    rw [Printer.scalar_doubleQuoted hform]
    refine ⟨'"', _, rfl, fresh_mark false _, Nat.succ_pos _, ?_, ?_⟩
    · simp only [List.length_cons, List.length_append, List.length_nil]
      omega
    · refine (fetch_quoted_key (Quoted.spells_double x.toList)
        (fun d hd => Quoted.noBreak_escaped hd) hfree rest index line column).trans ?_
      rw [hlist]
      rfl
  | literal => exact absurd hform (form_ne_literal hnoBreak true)

end Scan

end RepoSelect.Yaml
