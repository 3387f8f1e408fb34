import Mathlib.Algebra.Group.Nat.Defs
import RepoSelect.Proofs.Yaml.Scan

/-!
# Quoted scalars are read back

A text between quotes is read word by word. How a word is spelled is up to the kind of quotes
(`Spelling`): a character as it is, a quote written twice, a letter or a code point behind a
backslash. Between two words there are spaces, or breaks that are line separators, behind which the
next line is indented (`Spells`).

> What spells a text between quotes is read as that text (`scalar_quoted`),

and the printer's two quoted forms spell their text (`spells_double`, `spells_single`).
-/

namespace RepoSelect.Yaml.Quoted

open Printer (spaces upperHex)

/-! ## Code points -/

theorem hexDigit?_digitChar : ∀ k < 16, hexDigit? (Nat.digitChar k).toUpper = some k := by
  decide

theorem exists_digits (n : Nat) : ∃ values : List Nat,
    ((Nat.toDigits 16 n).map Char.toUpper).mapM hexDigit? = some values
      ∧ values.foldl (fun a v => a * 16 + v) 0 = n := by
  induction n using Nat.strongRecOn with
  | ind n ih =>
    by_cases hn : n < 16
    · refine ⟨[n], ?_, by simp⟩
      rw [Nat.toDigits_of_lt_base hn, List.map_singleton, List.mapM_cons,
        hexDigit?_digitChar n hn]
      rfl
    · obtain ⟨values, hvalues, hfold⟩ := ih (n / 16) (by omega)
      refine ⟨values ++ [n % 16], ?_, ?_⟩
      · rw [Nat.toDigits_of_base_le (by decide) (by omega), List.map_append, List.mapM_append,
          hvalues, List.map_singleton, List.mapM_cons,
          hexDigit?_digitChar _ (Nat.mod_lt n (by decide))]
        rfl
      · rw [List.foldl_append, hfold]
        simp only [List.foldl_cons, List.foldl_nil]
        omega

theorem mapM_zeros (k : Nat) (ds : List Char) {values : List Nat}
    (h : ds.mapM hexDigit? = some values) :
    (List.replicate k '0' ++ ds).mapM hexDigit? = some (List.replicate k 0 ++ values) := by
  have hzero : hexDigit? '0' = some 0 := by decide
  induction k with
  | zero => exact h
  | succ k ih =>
    rw [List.replicate_succ, List.cons_append, List.mapM_cons, hzero, ih]
    rfl

theorem foldl_zeros (k : Nat) (values : List Nat) :
    (List.replicate k 0 ++ values).foldl (fun a v => a * 16 + v) 0
      = values.foldl (fun a v => a * 16 + v) 0 := by
  induction k with
  | zero => rfl
  | succ k ih => rw [List.replicate_succ, List.cons_append, List.foldl_cons, Nat.zero_mul,
      Nat.zero_add, ih]

theorem length_upperHex {width n : Nat} (hwidth : 0 < width) (h : n < 16 ^ width) :
    (upperHex width n).length = width := by
  have hle := (Nat.length_toDigits_le_iff (b := 16) (by decide) hwidth).mpr h
  simp only [upperHex, List.length_append, List.length_replicate, List.length_map]
  omega

/-- A code point behind its letter is read back. -/
theorem escape_upperHex {letter : Char} {width n : Nat} (hnone : letterEscape? letter = none)
    (hwidth : hexLength? letter = some width) (hpos : 0 < width) (hn : n < 16 ^ width)
    (hvalid : ¬((0xD800 ≤ n ∧ n ≤ 0xDFFF) ∨ 0x10FFFF < n)) (r : List Char)
    (index line column : Nat) :
    escape ⟨letter :: (upperHex width n ++ r), index, line, column⟩
      = .ok (.ofNat n, ⟨r, index + (width + 1), line, column + (width + 1)⟩) := by
  obtain ⟨values, hvalues, hfold⟩ := exists_digits n
  have hlength := length_upperHex hpos hn
  have htake : (upperHex width n ++ r).take width = upperHex width n := List.take_left' hlength
  have hdrop : (upperHex width n ++ r).drop width = r := List.drop_left' hlength
  have hmapM : (upperHex width n).mapM hexDigit? = some (List.replicate
      (width - ((Nat.toDigits 16 n).map Char.toUpper).length) 0 ++ values) :=
    mapM_zeros _ _ hvalues
  unfold escape
  simp only [Cursor.peek?, List.head?_cons, hnone, hwidth, List.drop_succ_cons, List.drop_zero,
    htake, hmapM, foldl_zeros, hfold, hlength, Nat.lt_irrefl, if_false, if_neg hvalid,
    Cursor.advance, hdrop]

/-! ## Words -/

/-- The code of a character inside a word, which is read as that character. -/
structure Spelling (single : Bool) (d : Char) (code : List Char) : Prop where
  ne_nil : code ≠ []
  solid : Solid code
  noBreak : ∀ e ∈ code, isBreak e = false
  read (fuel : Nat) (r : List Char) (index line column : Nat) :
    word (fuel + 1) single ⟨code ++ r, index, line, column⟩
      = (word fuel single ⟨r, index + code.length, line, column + code.length⟩).map
          fun found => ((d :: found.1.1, found.1.2), found.2)

/-- The code of a word, character by character. -/
def SpellsWord (single : Bool) (w code : List Char) : Prop :=
  ∃ spell : Char → List Char, (∀ d ∈ w, Spelling single d (spell d)) ∧ code = w.flatMap spell

/-- A word ends here: at a blank, a break or the closing quote. -/
def EndsWord (single : Bool) (stop : List Char) : Prop :=
  ∀ fuel index line column,
    word fuel single ⟨stop, index, line, column⟩ = .ok (([], false), ⟨stop, index, line, column⟩)

variable {single : Bool} {w s code stop rest r : List Char}

def mark (single : Bool) : Char := if single then '\'' else '"'

theorem endsWord_mark (h : rest.head? ≠ some '\'') : EndsWord single (mark single :: rest) := by
  intro fuel index line column
  cases fuel with
  | zero => rfl
  | succ fuel => cases single <;> simp [word, mark, isSpaceOrTab, isBreak, h]

theorem endsWord_of_blank {d : Char} (h : (isSpaceOrTab d || isBreak d) = true) :
    EndsWord single (d :: r) := by
  intro fuel index line column
  cases fuel with
  | zero => rfl
  | succ fuel => simp only [word, h, if_true]

theorem word_append (h : SpellsWord single w code) (hstop : EndsWord single stop) {fuel : Nat}
    (hfuel : w.length ≤ fuel) (index line column : Nat) :
    word fuel single ⟨code ++ stop, index, line, column⟩
      = .ok ((w, false), ⟨stop, index + code.length, line, column + code.length⟩) := by
  obtain ⟨spell, hspell, rfl⟩ := h
  induction w generalizing fuel index column with
  | nil => exact hstop fuel index line column
  | cons d w ih =>
    obtain ⟨fuel, rfl⟩ : ∃ k, fuel = k + 1 := ⟨fuel - 1, by simp at hfuel; omega⟩
    rw [List.flatMap_cons, List.append_assoc, (hspell d (by simp)).read,
      ih (by simpa using hfuel) _ _ (fun e he => hspell e (by simp [he]))]
    simp [Except.map, Nat.add_assoc]

/-! ## Gaps -/

/-- A gap with more spaces; those behind a break do not count. -/
def widened (g : Gap) (n : Nat) : Gap :=
  if g.broken then g else { g with blanks := g.blanks ++ spaces n }

theorem widened_zero (g : Gap) : widened g 0 = g := by
  obtain ⟨blanks, broken, leading, trailing⟩ := g
  cases broken <;> simp [widened, spaces]

theorem widened_widened (g : Gap) (m n : Nat) : widened (widened g m) n = widened g (m + n) := by
  obtain ⟨blanks, broken, leading, trailing⟩ := g
  cases broken <;> simp [widened, spaces, List.replicate_append_replicate]

theorem gap_solid (hr : Solid r) (fuel : Nat) (g : Gap) (index line column : Nat) :
    gap fuel g ⟨r, index, line, column⟩ = (g, ⟨r, index, line, column⟩) := by
  cases fuel with
  | zero => rfl
  | succ fuel =>
    cases r with
    | nil => rfl
    | cons d r => simp [gap, Cursor.peek?, hr d rfl]

theorem gap_space (fuel : Nat) (g : Gap) (r : List Char) (index line column : Nat) :
    gap (fuel + 1) g ⟨' ' :: r, index, line, column⟩
      = gap fuel (widened g 1) ⟨r, index + 1, line, column + 1⟩ := by
  simp [gap, Cursor.peek?, Cursor.advance, isSpaceOrTab, widened, spaces]

theorem gap_spaces (hr : Solid r) {n fuel : Nat} (hfuel : n ≤ fuel) (g : Gap)
    (index line column : Nat) :
    gap fuel g ⟨spaces n ++ r, index, line, column⟩
      = (widened g n, ⟨r, index + n, line, column + n⟩) := by
  induction n generalizing fuel g index column with
  | zero =>
    rw [widened_zero]
    exact gap_solid hr fuel g index line column
  | succ n ih =>
    obtain ⟨fuel, rfl⟩ : ∃ k, fuel = k + 1 := ⟨fuel - 1, by omega⟩
    have hspace : spaces (n + 1) ++ r = ' ' :: (spaces n ++ r) := rfl
    rw [hspace, gap_space, ih (by omega), widened_widened, Nat.add_comm 1 n, Nat.add_assoc,
      Nat.add_assoc, Nat.add_comm 1 n]

/-- A break that stays as it is when lines are joined. -/
def IsSeparator (d : Char) : Prop := d = '\u2028' ∨ d = '\u2029'

theorem isBreak_of_isSeparator {d : Char} (h : IsSeparator d) : isBreak d = true := by
  rcases h with rfl | rfl <;> decide

theorem gap_separator {d : Char} (h : IsSeparator d) (fuel : Nat) (g : Gap)
    (index line column : Nat) :
    gap (fuel + 1) g ⟨d :: r, index, line, column⟩
      = gap fuel (if g.broken then { g with trailing := g.trailing ++ [d] }
          else { g with broken := true, blanks := [], leading := [d] })
          ⟨r, index + 1, line + 1, 0⟩ := by
  rcases h with rfl | rfl <;>
    simp [gap, Cursor.peek?, isSpaceOrTab, isBreak, Cursor.breakText, Cursor.skipBreak]

/-- Further breaks stay in the gap, the indentation behind them does not. -/
theorem gap_separators {breaks : List Char} (hbreaks : ∀ d ∈ breaks, IsSeparator d)
    (hr : Solid r) {n fuel : Nat} (hfuel : breaks.length + n ≤ fuel)
    (blanks leading trailing : List Char) (index line : Nat) :
    gap fuel ⟨blanks, true, leading, trailing⟩ ⟨breaks ++ (spaces n ++ r), index, line, 0⟩
      = (⟨blanks, true, leading, trailing ++ breaks⟩,
          ⟨r, index + breaks.length + n, line + breaks.length, n⟩) := by
  induction breaks generalizing fuel trailing index line with
  | nil =>
    rw [List.nil_append, gap_spaces hr (by simpa using hfuel)]
    simp [widened]
  | cons d breaks ih =>
    obtain ⟨fuel, rfl⟩ : ∃ k, fuel = k + 1 := ⟨fuel - 1, by simp at hfuel; omega⟩
    rw [List.cons_append, gap_separator (hbreaks d (by simp)), if_pos rfl,
      ih (fun e he => hbreaks e (by simp [he])) (by simp at hfuel; omega)]
    simp [Nat.add_comm, Nat.add_left_comm]

/-! ## Texts between quotes -/

/-- The code of a text: words with spaces between them, or with separators and the indentation of
the next line. -/
inductive Spells (single : Bool) : List Char → List Char → Prop
  | word {w code : List Char} (hw : SpellsWord single w code) : Spells single w code
  | spaces {w code s more : List Char} {n : Nat} (hw : SpellsWord single w code) (hn : 0 < n)
      (hmore : Solid more) (h : Spells single s more) :
      Spells single (w ++ (spaces n ++ s)) (code ++ (spaces n ++ more))
  | breaks {w code s more breaks : List Char} {d : Char} {n : Nat} (hw : SpellsWord single w code)
      (hd : IsSeparator d) (hbreaks : ∀ e ∈ breaks, IsSeparator e) (hn : 0 < n)
      (hmore : Solid more) (h : Spells single s more) :
      Spells single (w ++ (d :: breaks ++ s)) (code ++ (d :: breaks ++ (spaces n ++ more)))

/-- What spells a text is no gap if it starts with none. -/
theorem solid_append_mark (h : Solid code) (rest : List Char) :
    Solid (code ++ mark single :: rest) := by
  cases code with
  | nil =>
    intro d hd
    obtain rfl := Option.some.inj hd
    cases single <;> decide
  | cons d code => exact fun e he => h e he

/-! ## Reading -/

theorem body_of_word {c c' : Cursor} {text : List Char} (hcolumn : c.column ≠ 0)
    (hrest : c.rest ≠ []) (hword : word c.rest.length single c = .ok ((text, false), c'))
    (fuel : Nat) : body (fuel + 1) single c
      = if c'.peek? = some (mark single) then .ok (text, c'.advance 1)
        else
          let (g, c'') := gap c'.rest.length {} c'
          (body fuel single c'').map fun more => (text ++ g.text ++ more.1, more.2) := by
  have hdocument : c.atDocumentMark = false := by simp [Cursor.atDocumentMark, hcolumn]
  rw [body]
  simp only [hdocument, hrest, hword, bind, Except.bind, Bool.false_eq_true, if_false, mark]
  rcases gap c'.rest.length {} c' with ⟨g, c''⟩
  cases body fuel single c'' with
  | error message => rfl
  | ok more => simp [Except.map]

theorem length_le_of_spellsWord (h : SpellsWord single w code) : w.length ≤ code.length := by
  obtain ⟨spell, hspell, rfl⟩ := h
  induction w with
  | nil => exact Nat.zero_le _
  | cons d w ih =>
    have hpos : 0 < (spell d).length := List.length_pos_iff.mpr (hspell d (by simp)).ne_nil
    have hrest := ih fun e he => hspell e (by simp [he])
    rw [List.flatMap_cons, List.length_append, List.length_cons]
    omega

/-- A word, and then the end of the text or a gap. -/
theorem body_append (hw : SpellsWord single w code) (hstop : EndsWord single stop)
    (hne : stop ≠ []) (fuel : Nat) (index line : Nat) {column : Nat} (hcolumn : column ≠ 0) :
    let c : Cursor := ⟨stop, index + code.length, line, column + code.length⟩
    body (fuel + 1) single ⟨code ++ stop, index, line, column⟩
      = if c.peek? = some (mark single) then .ok (w, c.advance 1)
        else (body fuel single (gap stop.length {} c).2).map fun more =>
          (w ++ (gap stop.length {} c).1.text ++ more.1, more.2) := by
  have hlength := length_le_of_spellsWord hw
  have hword : word (code ++ stop).length single ⟨code ++ stop, index, line, column⟩
      = .ok ((w, false), ⟨stop, index + code.length, line, column + code.length⟩) :=
    word_append hw hstop (by rw [List.length_append]; omega) index line column
  exact body_of_word (c := ⟨code ++ stop, index, line, column⟩) hcolumn
    (List.append_ne_nil_of_right_ne_nil _ hne) hword fuel

/-- **What spells a text between quotes is read as that text.** The line is left only if there are
breaks in it. -/
theorem body_spells (h : Spells single s code) (hrest : rest.head? ≠ some '\'') (fuel : Nat)
    (hfuel : code.length < fuel) (index line column : Nat) (hcolumn : column ≠ 0) :
    ∃ line' column', body fuel single ⟨code ++ mark single :: rest, index, line, column⟩
        = .ok (s, ⟨rest, index + code.length + 1, line', column'⟩)
      ∧ line ≤ line' ∧ ((∀ d ∈ code, isBreak d = false) →
          line' = line ∧ column' = column + code.length + 1) := by
  induction h generalizing fuel index line column with
  | @word w code hw =>
    obtain ⟨fuel, rfl⟩ : ∃ k, fuel = k + 1 := ⟨fuel - 1, by omega⟩
    refine ⟨line, column + code.length + 1, ?_, Nat.le_refl line, fun _ => ⟨rfl, rfl⟩⟩
    rw [body_append hw (endsWord_mark hrest) (List.cons_ne_nil _ _) fuel index line hcolumn]
    simp [Cursor.peek?, Cursor.advance]
  | @spaces w code s more n hw hn hmore h ih =>
    obtain ⟨fuel, rfl⟩ : ∃ k, fuel = k + 1 := ⟨fuel - 1, by omega⟩
    simp only [List.length_append, length_spaces] at hfuel
    have hstop : EndsWord single (spaces n ++ (more ++ mark single :: rest)) := by
      obtain ⟨k, rfl⟩ : ∃ k, n = k + 1 := ⟨n - 1, by omega⟩
      exact endsWord_of_blank (by decide)
    have hpeek : (spaces n ++ (more ++ mark single :: rest)).head? ≠ some (mark single) := by
      obtain ⟨k, rfl⟩ : ∃ k, n = k + 1 := ⟨n - 1, by omega⟩
      cases single <;> (intro h; cases h)
    have hgap : gap (spaces n ++ (more ++ mark single :: rest)).length {}
        ⟨spaces n ++ (more ++ mark single :: rest), index + code.length, line,
          column + code.length⟩
        = (widened {} n, ⟨more ++ mark single :: rest, index + code.length + n, line,
            column + code.length + n⟩) :=
      gap_spaces (solid_append_mark hmore rest) (by simp [length_spaces]) {} _ line _
    obtain ⟨line', column', hbody, hle, hexact⟩ := ih fuel (by omega)
      (index + code.length + n) line (column + code.length + n) (by omega)
    refine ⟨line', column', ?_, hle, fun hcode => ?_⟩
    · rw [List.append_assoc, List.append_assoc,
        body_append hw hstop (by simp) fuel index line hcolumn, Cursor.peek?, if_neg hpeek, hgap,
        hbody]
      simp [Except.map, widened, Gap.text, length_spaces, Nat.add_assoc]
    · obtain ⟨hline, hcolumn'⟩ := hexact fun e he => hcode e (by simp [he])
      refine ⟨hline, ?_⟩
      simp only [List.length_append, length_spaces]
      omega
  | @breaks w code s more breaks d n hw hd hbreaks hn hmore h ih =>
    obtain ⟨fuel, rfl⟩ : ∃ k, fuel = k + 1 := ⟨fuel - 1, by omega⟩
    simp only [List.length_append, List.length_cons, length_spaces] at hfuel
    have hstop : EndsWord single (d :: (breaks ++ (spaces n ++ (more ++ mark single :: rest)))) :=
      endsWord_of_blank (by simp [isBreak_of_isSeparator hd])
    have hpeek : d ≠ mark single := by
      rcases hd with rfl | rfl <;> cases single <;> decide
    have hgap : gap (d :: (breaks ++ (spaces n ++ (more ++ mark single :: rest)))).length {}
        ⟨d :: (breaks ++ (spaces n ++ (more ++ mark single :: rest))), index + code.length, line,
          column + code.length⟩
        = (⟨[], true, [d], breaks⟩, ⟨more ++ mark single :: rest,
            index + code.length + 1 + breaks.length + n, line + 1 + breaks.length, n⟩) := by
      rw [List.length_cons, gap_separator hd]
      exact gap_separators hbreaks (solid_append_mark hmore rest) (by simp [length_spaces])
        [] [d] []
        _ _
    have htext : (⟨[], true, [d], breaks⟩ : Gap).text = d :: breaks := by
      rcases hd with rfl | rfl <;> simp [Gap.text, foldBreaks]
    obtain ⟨line', column', hbody, hle, -⟩ := ih fuel (by omega)
      (index + code.length + 1 + breaks.length + n) (line + 1 + breaks.length) n (by omega)
    refine ⟨line', column', ?_, by omega, fun hcode => ?_⟩
    · have hassoc : code ++ (d :: breaks ++ (spaces n ++ more)) ++ mark single :: rest
          = code ++ d :: (breaks ++ (spaces n ++ (more ++ mark single :: rest))) := by simp
      rw [hassoc, body_append hw hstop (List.cons_ne_nil _ _) fuel index line hcolumn, hgap, htext,
        hbody, Cursor.peek?, List.head?_cons, if_neg (by simpa using hpeek)]
      simp [Except.map, length_spaces, Nat.add_assoc, Nat.add_comm 1]
    · -- There is a break in the code.
      have hbreak := hcode d (by simp)
      rw [isBreak_of_isSeparator hd] at hbreak
      cases hbreak

/-- The scalar between quotes. -/
theorem scalar_quoted (h : Spells single s code) (hrest : rest.head? ≠ some '\'')
    (index line column : Nat) :
    ∃ line' column',
      scalar single ⟨mark single :: (code ++ mark single :: rest), index, line, column⟩
        = .ok (String.ofList s, ⟨rest, index + (code.length + 2), line', column'⟩)
      ∧ line ≤ line' ∧ ((∀ d ∈ code, isBreak d = false) →
          line' = line ∧ column' = column + (code.length + 2)) := by
  obtain ⟨line', column', hbody, hle, hexact⟩ := body_spells h hrest
    ((mark single :: (code ++ mark single :: rest)).length + 1) (by simp; omega) (index + 1) line
    (column + 1) (Nat.succ_ne_zero column)
  have hindex : index + 1 + code.length + 1 = index + (code.length + 2) := by omega
  rw [hindex] at hbody
  refine ⟨line', column', ?_, hle, fun hcode => ?_⟩
  · unfold scalar
    have hadvance :
        Cursor.advance ⟨mark single :: (code ++ mark single :: rest), index, line, column⟩ 1
          = ⟨code ++ mark single :: rest, index + 1, line, column + 1⟩ := rfl
    rw [hadvance]
    simp only [hbody, bind, Except.bind]
  · obtain ⟨hline, hcolumn⟩ := hexact hcode
    exact ⟨hline, by omega⟩

/-! ## Double quotes -/

/-- A character behind a backslash. -/
theorem spelling_escape {d e : Char} {more : List Char}
    (hbreak : ∀ f ∈ e :: more, isBreak f = false)
    (hescape : ∀ r index line column, escape ⟨e :: (more ++ r), index, line, column⟩
      = .ok (d, ⟨r, index + (more.length + 1), line, column + (more.length + 1)⟩)) :
    Spelling false d ('\\' :: e :: more) := by
  refine ⟨List.cons_ne_nil _ _, fun f hf => ?_, fun f hf => ?_, fun fuel r index line column => ?_⟩
  · obtain rfl := Option.some.inj hf
    decide
  · rcases List.mem_cons.mp hf with rfl | hf
    · decide
    · exact hbreak f hf
  · have hread := hescape r (index + 1) line (column + 1)
    have hslash : isBreak '\\' = false := by decide
    have hnext : isBreak e = false := hbreak e (by simp)
    have hstep : word (fuel + 1) false ⟨'\\' :: e :: (more ++ r), index, line, column⟩
        = escape ⟨e :: (more ++ r), index + 1, line, column + 1⟩ >>= fun read =>
            word fuel false read.2 >>= fun next =>
              .ok ((read.1 :: next.1.1, next.1.2), next.2) := by
      simp [word, isSpaceOrTab, hslash, hnext, Cursor.advance]
    rw [List.cons_append, List.cons_append, hstep, hread]
    simp only [bind, Except.bind, List.length_cons, Nat.add_assoc, Nat.add_comm 1]
    cases word fuel false
      ⟨r, index + (more.length + 1 + 1), line, column + (more.length + 1 + 1)⟩ <;> rfl

theorem spelling_letter {d letter : Char} (hletter : letterEscape? letter = some d)
    (hbreak : isBreak letter = false) : Spelling false d ['\\', letter] := by
  refine spelling_escape (fun f hf => ?_) fun r index line column => ?_
  · rw [List.mem_singleton.mp hf]
    exact hbreak
  · simp [escape, Cursor.peek?, hletter, Cursor.advance]

theorem exists_digitChar {n : Nat} {d : Char} (h : d ∈ Nat.toDigits 16 n) :
    ∃ k < 16, d = Nat.digitChar k := by
  induction n using Nat.strongRecOn with
  | ind n ih =>
    by_cases hn : n < 16
    · rw [Nat.toDigits_of_lt_base hn, List.mem_singleton] at h
      exact ⟨n, hn, h⟩
    · rw [Nat.toDigits_of_base_le (by decide) (by omega), List.mem_append,
        List.mem_singleton] at h
      rcases h with h | h
      · exact ih (n / 16) (by omega) h
      · exact ⟨n % 16, Nat.mod_lt n (by decide), h⟩

theorem isBreak_of_mem_upperHex {width n : Nat} {d : Char} (h : d ∈ upperHex width n) :
    isBreak d = false := by
  rcases List.mem_append.mp h with hzero | hdigit
  · rw [List.eq_of_mem_replicate hzero]
    decide
  · obtain ⟨e, he, rfl⟩ := List.mem_map.mp hdigit
    obtain ⟨k, hk, rfl⟩ := exists_digitChar he
    have hdigits : ∀ k < 16, isBreak (Nat.digitChar k).toUpper = false := by decide
    exact hdigits k hk

theorem spelling_upperHex {d letter : Char} {width : Nat} (hnone : letterEscape? letter = none)
    (hwidth : hexLength? letter = some width) (hpos : 0 < width) (hd : d.toNat < 16 ^ width)
    (hbreak : isBreak letter = false) :
    Spelling false d ('\\' :: letter :: upperHex width d.toNat) := by
  have hvalid : ¬((0xD800 ≤ d.toNat ∧ d.toNat ≤ 0xDFFF) ∨ 0x10FFFF < d.toNat) := by
    have hchar : d.toNat < 0xD800 ∨ 0xDFFF < d.toNat ∧ d.toNat < 0x110000 := d.valid
    omega
  refine spelling_escape (fun f hf => ?_) fun r index line column => ?_
  · rcases List.mem_cons.mp hf with rfl | hf
    · exact hbreak
    · exact isBreak_of_mem_upperHex hf
  · rw [escape_upperHex hnone hwidth hpos hd hvalid, length_upperHex hpos hd, Char.ofNat_toNat]

/-- A character that is read as it stands. -/
theorem spelling_self {d : Char} (hspace : isSpaceOrTab d = false) (hbreak : isBreak d = false)
    (hmark : d ≠ mark single) (hslash : single = false → d ≠ '\\') : Spelling single d [d] := by
  refine ⟨List.cons_ne_nil _ _, fun e he => ?_, fun e he => ?_, fun fuel r index line column => ?_⟩
  · obtain rfl := Option.some.inj he
    exact ⟨hspace, hbreak⟩
  · rw [List.mem_singleton.mp he]
    exact hbreak
  · have hstep : word (fuel + 1) single ⟨d :: r, index, line, column⟩
        = word fuel single ⟨r, index + 1, line, column + 1⟩ >>= fun next =>
            .ok ((d :: next.1.1, next.1.2), next.2) := by
      cases single with
      | true =>
        have hquote : d ≠ '\'' := hmark
        simp [word, hspace, hbreak, hquote, Cursor.advance]
      | false =>
        have hquote : d ≠ '"' := hmark
        simp [word, hspace, hbreak, hquote, hslash rfl, Cursor.advance]
    rw [List.singleton_append, hstep]
    cases word fuel single ⟨r, index + 1, line, column + 1⟩ <;> rfl

/-- Every character but a space is read back from its escape. -/
theorem spelling_escaped {d : Char} (hspace : d ≠ ' ') :
    Spelling false d (Printer.escape d) := by
  unfold Printer.escape
  split
  all_goals first | exact spelling_letter (by decide) (by decide) | skip
  next =>
    dsimp only
    split
    · refine spelling_self ?_ ?_ ?_ ?_
      · simp_all [isSpaceOrTab]
      · simp_all [isBreak]
      · simp_all [mark]
      · simp_all
    · split
      · exact spelling_upperHex (by decide) rfl (by decide) (by omega) (by decide)
      · split
        · exact spelling_upperHex (by decide) rfl (by decide) (by omega) (by decide)
        · have hchar : d.toNat < 0xD800 ∨ 0xDFFF < d.toNat ∧ d.toNat < 0x110000 := d.valid
          exact spelling_upperHex (by decide) rfl (by decide) (by omega) (by decide)

theorem solid_of_spelling {single : Bool} {d : Char} {code more : List Char}
    (h : Spelling single d code) : Solid (code ++ more) := by
  intro e he
  rw [List.head?_append, Option.or_of_isSome (List.isSome_head?.mpr h.ne_nil)] at he
  exact h.solid e he

theorem escape_spaces (n : Nat) : (spaces n).flatMap Printer.escape = spaces n := by
  simp [spaces, List.flatMap_replicate, Printer.escape, Printer.isPlainlyPrintable]

theorem solid_escaped (h : s.head? ≠ some ' ') : Solid (s.flatMap Printer.escape) := by
  cases s with
  | nil => exact nofun
  | cons d s =>
    rw [List.flatMap_cons]
    exact solid_of_spelling (spelling_escaped fun hd => h (by rw [hd]; rfl))

/-- **Between double quotes every text is spelled by its escapes.** -/
theorem spells_double (s : List Char) : Spells false s (s.flatMap Printer.escape) := by
  induction hlength : s.length using Nat.strongRecOn generalizing s with
  | ind length ih =>
    obtain ⟨n, r, hs, hhead, hpos⟩ := exists_word s
    have hw : SpellsWord false (s.takeWhile (· ≠ ' '))
        ((s.takeWhile (· ≠ ' ')).flatMap Printer.escape) := by
      refine ⟨Printer.escape, fun d hd => spelling_escaped ?_, rfl⟩
      simpa using List.all_eq_true.mp List.all_takeWhile d hd
    generalize s.takeWhile (· ≠ ' ') = w at hs hw
    subst hs
    cases n with
    | zero =>
      obtain rfl : r = [] := Classical.byContradiction fun hr => absurd (hpos hr) (by decide)
      simpa [spaces] using Spells.word hw
    | succ n =>
      have hshort : r.length < length := by
        simp only [← hlength, List.length_append, length_spaces]
        omega
      rw [List.flatMap_append, List.flatMap_append, escape_spaces]
      exact .spaces hw (Nat.succ_pos n) (solid_escaped hhead) (ih r.length hshort r rfl)

theorem noBreak_escaped {d : Char} (h : d ∈ s.flatMap Printer.escape) : isBreak d = false := by
  obtain ⟨e, -, hd⟩ := List.mem_flatMap.mp h
  by_cases he : e = ' '
  · subst he
    obtain rfl : d = ' ' := by simpa [Printer.escape, Printer.isPlainlyPrintable] using hd
    decide
  · exact (spelling_escaped he).noBreak d hd

/-! ## Single quotes -/

/-- A character between single quotes. -/
def doubled (d : Char) : List Char := if d = '\'' then ['\'', '\''] else [d]

theorem spelling_doubled {d : Char} (hspace : isSpaceOrTab d = false) (hbreak : isBreak d = false) :
    Spelling true d (doubled d) := by
  by_cases hd : d = '\''
  · subst hd
    refine ⟨by decide, fun e he => ?_, by simp [doubled, isBreak],
      fun fuel r index line column => ?_⟩
    · obtain rfl := Option.some.inj he
      decide
    · have hstep : word (fuel + 1) true ⟨'\'' :: '\'' :: r, index, line, column⟩
          = word fuel true ⟨r, index + 2, line, column + 2⟩ >>= fun next =>
              .ok (('\'' :: next.1.1, next.1.2), next.2) := by
        simp [word, hspace, hbreak, Cursor.advance]
      refine hstep.trans ?_
      change _ = (word fuel true ⟨r, index + 2, line, column + 2⟩).map _
      cases word fuel true ⟨r, index + 2, line, column + 2⟩ <;> rfl
  · rw [doubled, if_neg hd]
    exact spelling_self hspace hbreak hd fun hsingle => absurd hsingle (by decide)

theorem noBreak_doubled {d e : Char} (he : isBreak e = false) (hd : d ∈ doubled e) :
    isBreak d = false := by
  unfold doubled at hd
  split at hd
  · have hquote : d = '\'' := by simpa using hd
    rw [hquote]
    decide
  · rw [List.mem_singleton.mp hd]
    exact he

/-- A text that may stand between single quotes: its breaks are separators, with no space beside
them. -/
structure Quotable (s : List Char) : Prop where
  noTab : '\t' ∉ s
  separator : ∀ d ∈ s, isBreak d = true → IsSeparator d
  noSpace : ∀ behind, Printer.spaceBeside behind s = false

theorem spaceBeside_of_append {behind : Bool} {s r : List Char}
    (h : Printer.spaceBeside behind (s ++ r) = false) : Printer.spaceBeside behind r = false := by
  induction s with
  | nil => exact h
  | cons d s ih =>
    refine ih ?_
    cases hsr : s ++ r with
    | nil => rfl
    | cons e t =>
      rw [List.cons_append, hsr, Printer.spaceBeside, Bool.or_eq_false_iff] at h
      exact h.2

theorem Quotable.of_append (h : Quotable (s ++ r)) : Quotable r :=
  ⟨fun ht => h.noTab (by simp [ht]), fun d hd => h.separator d (by simp [hd]),
    fun behind => spaceBeside_of_append (h.noSpace behind)⟩

/-- Behind spaces stands no break. -/
theorem Quotable.behind_spaces {n : Nat} (h : Quotable (spaces (n + 1) ++ r)) :
    r.head?.any isBreak = false := by
  cases r with
  | nil => rfl
  | cons e t =>
    have hlast : spaces (n + 1) ++ e :: t = spaces n ++ ' ' :: e :: t := by
      simp [spaces, List.replicate_succ']
    rw [hlast] at h
    have hbeside := h.of_append.noSpace false
    simp only [Printer.spaceBeside, Bool.or_eq_false_iff] at hbeside
    simpa using hbeside.1

/-- Behind breaks stands no space. -/
theorem Quotable.behind_breaks {breaks : List Char} (h : Quotable (breaks ++ r)) (hne : breaks ≠ [])
    (hbreaks : ∀ d ∈ breaks, isBreak d = true) : r.head? ≠ some ' ' := by
  obtain ⟨before, d, rfl⟩ := (List.eq_nil_or_concat breaks).resolve_left hne
  cases r with
  | nil => exact nofun
  | cons e t =>
    rw [List.concat_eq_append, List.append_assoc] at h
    have hbeside := h.of_append.noSpace true
    simp only [List.singleton_append, Printer.spaceBeside, Bool.or_eq_false_iff] at hbeside
    simpa [hbreaks d (by simp)] using hbeside.1

variable {indent : Nat}

theorem singleBody_append (hw : ∀ d ∈ w, isBreak d = false) (r : List Char) :
    Printer.singleBody indent false (w ++ r)
      = w.flatMap doubled ++ Printer.singleBody indent false r := by
  induction w with
  | nil => rfl
  | cons d w ih =>
    rw [List.cons_append, Printer.singleBody, if_neg (by simp [hw d (by simp)]),
      ih fun e he => hw e (by simp [he])]
    simp [doubled]

theorem singleBody_of_noBreak (h : ∀ d ∈ s, isBreak d = false) :
    Printer.singleBody indent false s = s.flatMap doubled := by
  rw [← List.append_nil s, singleBody_append h, Printer.singleBody]
  simp

theorem singleBody_breaks {breaks : List Char} (h : ∀ d ∈ breaks, isBreak d = true)
    (r : List Char) : Printer.singleBody indent true (breaks ++ r)
      = breaks ++ Printer.singleBody indent true r := by
  induction breaks with
  | nil => rfl
  | cons d breaks ih =>
    rw [List.cons_append, Printer.singleBody, if_pos (h d (by simp)),
      ih fun e he => h e (by simp [he]), List.cons_append]

theorem singleBody_line (h : r.head?.any isBreak = false) :
    Printer.singleBody indent true r = spaces indent ++ Printer.singleBody indent false r := by
  cases r with
  | nil => simp [Printer.singleBody]
  | cons d r =>
    have hd : isBreak d = false := by simpa using h
    simp [Printer.singleBody, hd]

theorem solid_singleBody (h : Quotable r) (hspace : r.head? ≠ some ' ')
    (hbreak : r.head?.any isBreak = false) : Solid (Printer.singleBody indent false r) := by
  cases r with
  | nil => exact nofun
  | cons d r =>
    have hd : isBreak d = false := by simpa using hbreak
    have hblank : isSpaceOrTab d = false := by
      have hne : d ≠ ' ' := fun heq => hspace (by rw [heq]; rfl)
      have htab : d ≠ '\t' := fun heq => h.noTab (by simp [heq])
      simp [isSpaceOrTab, hne, htab]
    rw [← List.singleton_append, singleBody_append (by simpa using hd), List.flatMap_singleton]
    exact solid_of_spelling (spelling_doubled hblank hd)

theorem doubled_spaces (n : Nat) : (spaces n).flatMap doubled = spaces n := by
  simp [spaces, List.flatMap_replicate, doubled]

/-- **Between single quotes a text is spelled by the printer's body.** -/
theorem spells_single (hs : Quotable s) (hindent : 0 < indent) :
    Spells true s (Printer.singleBody indent false s) := by
  induction hlength : s.length using Nat.strongRecOn generalizing s with
  | ind length ih =>
    obtain ⟨w, r, rfl, hchars, hstop⟩ := exists_run (fun d => d ≠ ' ' && !isBreak d) s
    have hchar : ∀ d ∈ w, d ≠ ' ' ∧ isBreak d = false := fun d hd => by simpa using hchars d hd
    have hw : SpellsWord true w (w.flatMap doubled) := by
      refine ⟨doubled, fun d hd => spelling_doubled ?_ (hchar d hd).2, rfl⟩
      have htab : d ≠ '\t' := fun heq => hs.noTab (List.mem_append_left r (heq ▸ hd))
      simp [isSpaceOrTab, (hchar d hd).1, htab]
    have hr : Quotable r := hs.of_append
    rw [singleBody_append fun d hd => (hchar d hd).2]
    cases r with
    | nil => simpa [Printer.singleBody] using Spells.word hw
    | cons d r =>
      by_cases hd : d = ' '
      · -- The word is followed by spaces.
        obtain ⟨gap, t, rfl, hgap, ht⟩ := exists_run (· = ' ') r
        have hspaces : d :: (gap ++ t) = spaces (gap.length + 1) ++ t := by
          have heq : gap = spaces gap.length :=
            List.eq_replicate_of_mem fun e he => by simpa using hgap e he
          rw [hd, heq, length_spaces]
          rfl
        rw [hspaces] at hr hlength ⊢
        have hspace : t.head? ≠ some ' ' := fun heq => by simp [heq] at ht
        rw [singleBody_append fun e he => by rw [mem_spaces he]; decide, doubled_spaces]
        refine .spaces hw (Nat.succ_pos _) (solid_singleBody hr.of_append hspace hr.behind_spaces)
          (ih t.length ?_ hr.of_append rfl)
        simp only [← hlength, List.length_append, length_spaces]
        omega
      · -- The word is followed by breaks.
        have hbreak : isBreak d = true := by simpa [hd] using hstop
        obtain ⟨breaks, t, rfl, hbreaks, ht⟩ := exists_run isBreak r
        have hseparator : ∀ e ∈ breaks, IsSeparator e := fun e he =>
          hr.separator e (by simp [he]) (hbreaks e he)
        have hbody : Printer.singleBody indent false (d :: (breaks ++ t))
            = d :: (breaks ++ (spaces indent ++ Printer.singleBody indent false t)) := by
          rw [Printer.singleBody, if_pos hbreak, singleBody_breaks hbreaks, singleBody_line ht]
        rw [← List.cons_append] at hr
        have hspace : t.head? ≠ some ' ' :=
          hr.behind_breaks (List.cons_ne_nil d breaks) (by simpa [hbreak] using hbreaks)
        rw [hbody, ← List.cons_append, ← List.cons_append]
        refine .breaks hw (hr.separator d (by simp) hbreak) hseparator hindent
          (solid_singleBody hr.of_append hspace ht) (ih t.length ?_ hr.of_append rfl)
        simp only [← hlength, List.length_append, List.length_cons]
        omega

end RepoSelect.Yaml.Quoted
