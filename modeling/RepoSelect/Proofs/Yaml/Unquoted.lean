import RepoSelect.Proofs.Yaml.Quoted

/-!
# Plain scalars are read back

A text without marks, breaks, tabs and spaces at its ends is read as a plain scalar, up to the colon
of a key or to the end of its line (`scalar_unmarked`). The text is read word by word: a word ends
where a space is (`word_append`), and the gap behind it is kept as it is (`onward_spaces`).
-/

namespace RepoSelect.Yaml.Unquoted

open Printer (spaces holdsMark)
open Quoted (Gap widened widened_zero widened_widened)

/-- A text that means itself without quotes. -/
structure Unmarked (s : List Char) : Prop where
  ne_nil : s ≠ []
  head : s.head? ≠ some ' '
  last : s.getLast? ≠ some ' '
  chars : ∀ d ∈ s, d ≠ '\t' ∧ isBreak d = false
  marks : holdsMark ' ' s = false

/-- What a plain scalar ends at: the colon of a key, or the end of a line when the next token is
less indented than the scalar. -/
inductive Ends (indent : Int) : List Char → Prop
  | key {r : List Char} (h : endsWord r.head? = true) : Ends indent (':' :: r)
  | line {column : Nat} {r : List Char} (hr : Fresh r) (hcolumn : column < indent) :
      Ends indent ('\n' :: (spaces column ++ r))

/-- Where the scan goes on behind the scalar, and whether it has crossed a line. -/
def behind (c : Cursor) : Bool × Cursor :=
  match c.rest with
  | '\n' :: r =>
    let column := (r.takeWhile (· = ' ')).length
    (true, ⟨r.drop column, c.index + 1 + column, c.line + 1, column⟩)
  | _ => (false, c)

variable {indent : Int} {s stop r : List Char}

theorem behind_line (hr : Fresh r) (n index line column : Nat) :
    behind ⟨'\n' :: (spaces n ++ r), index, line, column⟩
      = (true, ⟨r, index + 1 + n, line + 1, n⟩) := by
  have htaken : (spaces n ++ r).takeWhile (· = ' ') = spaces n :=
    takeWhile_append (fun d hd => by simp [mem_spaces hd]) (fun d hd => by
      simp [(hr.clear d hd).1])
  simp [behind, htaken, length_spaces]

/-! ## Words -/

theorem word_ends (h : Ends indent stop) : word false stop = .ok [] := by
  cases h with
  | key h => simp [word, isSpaceOrTab, isBreak, h]
  | line hr hcolumn => simp [word, isBreak]

/-- A word ends at a space, or with the scalar. -/
theorem word_append {before : Char} (hchars : ∀ d ∈ s, d ≠ '\t' ∧ isBreak d = false)
    (hmarks : holdsMark before s = false) (hstop : Ends indent stop) :
    word false (s ++ stop) = .ok (s.takeWhile (· ≠ ' ')) := by
  induction s generalizing before with
  | nil => exact word_ends hstop
  | cons d s ih =>
    by_cases hspace : d = ' '
    · subst hspace
      simp [word, isSpaceOrTab]
    · obtain ⟨htab, hbreak⟩ := hchars d (by simp)
      simp only [holdsMark, Bool.or_eq_false_iff] at hmarks
      obtain ⟨⟨hcolon, -⟩, hrest⟩ := hmarks
      have hblank : (isSpaceOrTab d || isBreak d) = false := by
        simp [isSpaceOrTab, hspace, htab, hbreak]
      have hmark : (d = ':' && endsWord (s ++ stop).head?) = false := by
        by_cases hd : d = ':'
        · cases s with
          | nil => simp [hd, endsWord] at hcolon
          | cons e s => simpa [hd] using hcolon
        · simp [hd]
      rw [List.cons_append, word]
      simp only [hblank, hmark, Bool.false_and, Bool.false_eq_true, if_false,
        ih (fun e he => hchars e (by simp [he])) hrest, bind, Except.bind]
      rw [List.takeWhile_cons_of_pos (by simpa using hspace)]

/-! ## Gaps -/

theorem gap_solid (hr : Solid r) (fuel : Nat) (g : Gap) (index line column : Nat) :
    gap fuel indent g ⟨r, index, line, column⟩ = .ok (g, ⟨r, index, line, column⟩) := by
  cases fuel with
  | zero => rfl
  | succ fuel =>
    cases r with
    | nil => rfl
    | cons d r => simp [gap, Cursor.peek?, hr d rfl]

theorem gap_space (fuel : Nat) (g : Gap) (r : List Char) (index line column : Nat) :
    gap (fuel + 1) indent g ⟨' ' :: r, index, line, column⟩
      = gap fuel indent (widened g 1) ⟨r, index + 1, line, column + 1⟩ := by
  simp [gap, Cursor.peek?, Cursor.advance, isSpaceOrTab, widened, spaces]

theorem gap_spaces (hr : Solid r) {n fuel : Nat} (hfuel : n ≤ fuel) (g : Gap)
    (index line column : Nat) :
    gap fuel indent g ⟨spaces n ++ r, index, line, column⟩
      = .ok (widened g n, ⟨r, index + n, line, column + n⟩) := by
  induction n generalizing fuel g index column with
  | zero =>
    rw [widened_zero]
    exact gap_solid hr fuel g index line column
  | succ n ih =>
    obtain ⟨fuel, rfl⟩ : ∃ k, fuel = k + 1 := ⟨fuel - 1, by omega⟩
    have hspace : spaces (n + 1) ++ r = ' ' :: (spaces n ++ r) := rfl
    rw [hspace, gap_space, ih (by omega), widened_widened, Nat.add_comm 1 n, Nat.add_assoc,
      Nat.add_assoc, Nat.add_comm 1 n]

theorem gap_line (hr : Solid r) {n fuel : Nat} (hfuel : n < fuel) (index line column : Nat) :
    gap fuel indent {} ⟨'\n' :: (spaces n ++ r), index, line, column⟩
      = .ok ({ broken := true, leading := ['\n'] }, ⟨r, index + 1 + n, line + 1, n⟩) := by
  obtain ⟨fuel, rfl⟩ : ∃ k, fuel = k + 1 := ⟨fuel - 1, by omega⟩
  have hline : gap (fuel + 1) indent {} ⟨'\n' :: (spaces n ++ r), index, line, column⟩
      = gap fuel indent { broken := true, leading := ['\n'] }
          ⟨spaces n ++ r, index + 1, line + 1, 0⟩ := by
    simp [gap, Cursor.peek?, Cursor.breakText, Cursor.skipBreak, isSpaceOrTab, isBreak]
  rw [hline, gap_spaces hr (by omega)]
  simp [widened]

/-! ## The text -/

/-- What is done behind a word. -/
def onward (fuel : Nat) (indent : Int) (shown : List Char) (c : Cursor) :
    Except String ((List Char × Bool) × Cursor) :=
  if !c.peek?.any fun d => isSpaceOrTab d || isBreak d then .ok ((shown, false), c)
  else do
    let (g, c) ← gap c.rest.length indent {} c
    if c.column < indent then .ok ((shown, g.broken), c)
    else do
      let ((more, broken), c) ← body fuel false indent g c
      .ok ((shown ++ more, broken), c)

theorem body_of_word {c : Cursor} {w : List Char} (hdocument : c.atDocumentMark = false)
    (hhash : c.peek? ≠ some '#') (hword : word false c.rest = .ok w) (hne : w ≠ []) (fuel : Nat)
    (g : Gap) : body (fuel + 1) false indent g c
      = onward fuel indent (g.text ++ w) (c.advance w.length) := by
  simp [body, onward, hdocument, hhash, hword, hne, bind, Except.bind]

/-- The scalar ends behind its last word. -/
theorem onward_ends (hstop : Ends indent stop) (fuel : Nat) (shown : List Char)
    (index line column : Nat) :
    let c : Cursor := ⟨stop, index, line, column⟩
    onward fuel indent shown c = .ok ((shown, (behind c).1), (behind c).2) := by
  cases hstop with
  | key h => simp [onward, Cursor.peek?, isSpaceOrTab, isBreak, behind]
  | @line n r hr hcolumn =>
    have hgap : gap ('\n' :: (spaces n ++ r)).length indent {}
        ⟨'\n' :: (spaces n ++ r), index, line, column⟩
        = .ok ({ broken := true, leading := ['\n'] }, ⟨r, index + 1 + n, line + 1, n⟩) :=
      gap_line (solid_of_fresh hr)
        (by rw [List.length_cons, List.length_append, length_spaces]; omega)
        index line column
    simp only [onward, hgap, behind_line hr, bind, Except.bind, if_pos hcolumn]
    rfl

/-- Behind a gap the scalar goes on. -/
theorem onward_spaces (hr : Solid r) {n : Nat} (hn : 0 < n) {column : Nat}
    (hcolumn : indent ≤ (column + n : Nat)) (fuel : Nat) (shown : List Char) (index line : Nat) :
    onward fuel indent shown ⟨spaces n ++ r, index, line, column⟩
      = (body fuel false indent { blanks := spaces n } ⟨r, index + n, line, column + n⟩).map
          fun result => ((shown ++ result.1.1, result.1.2), result.2) := by
  have hgap : gap (spaces n ++ r).length indent {} ⟨spaces n ++ r, index, line, column⟩
      = .ok ({ blanks := spaces n }, ⟨r, index + n, line, column + n⟩) :=
    gap_spaces hr (by simp [length_spaces]) {} index line column
  have hpeek : (spaces n ++ r).head? = some ' ' := by
    obtain ⟨k, rfl⟩ : ∃ k, n = k + 1 := ⟨n - 1, by omega⟩
    rfl
  simp only [onward, Cursor.peek?, hpeek, hgap, bind, Except.bind,
    if_neg (Int.not_lt.mpr hcolumn)]
  rw [if_neg (by decide)]
  cases body fuel false indent { blanks := spaces n } ⟨r, index + n, line, column + n⟩ <;> rfl

theorem holdsMark_append {before d : Char} {s r : List Char}
    (h : holdsMark before (s ++ d :: r) = false) : holdsMark d r = false := by
  induction s generalizing before with
  | nil =>
    simp only [List.nil_append, holdsMark, Bool.or_eq_false_iff] at h
    exact h.2
  | cons e s ih =>
    rw [List.cons_append, holdsMark, Bool.or_eq_false_iff] at h
    exact ih h.2

namespace Unmarked

theorem head_ne_hash (h : Unmarked s) : s.head? ≠ some '#' := by
  intro hhead
  cases s with
  | nil => cases hhead
  | cons d s =>
    obtain rfl := Option.some.inj hhead
    have hmarks := h.marks
    simp [holdsMark, endsWord, isSpaceOrTab] at hmarks

/-- What follows a gap is unmarked as the whole is. -/
theorem rest {w : List Char} {n : Nat} (h : Unmarked (w ++ (spaces n ++ r))) (hn : 0 < n)
    (hhead : r.head? ≠ some ' ') : Unmarked r := by
  obtain ⟨k, rfl⟩ : ∃ k, n = k + 1 := ⟨n - 1, by omega⟩
  have hspaces : w ++ (spaces (k + 1) ++ r) = (w ++ spaces k) ++ ' ' :: r := by
    simp [spaces, List.replicate_succ']
  rw [hspaces] at h
  have hne : r ≠ [] := by
    rintro rfl
    exact h.last (by simp)
  refine ⟨hne, hhead, ?_, fun d hd => h.chars d (by simp [hd]), holdsMark_append h.marks⟩
  have hlast := h.last
  rwa [List.getLast?_append, List.getLast?_cons_of_ne_nil hne,
    Option.or_of_isSome (List.getLast?_isSome.mpr hne)] at hlast

theorem word_ne_nil (h : Unmarked s) : s.takeWhile (· ≠ ' ') ≠ [] := by
  cases s with
  | nil => exact absurd rfl h.ne_nil
  | cons d s =>
    have hd : d ≠ ' ' := fun hd => h.head (by rw [hd]; rfl)
    rw [List.takeWhile_cons_of_pos (by simpa using hd)]
    exact List.cons_ne_nil _ _

end Unmarked

/-- The words of the text and what stands between them. -/
theorem body_append {fuel : Nat} (hfuel : s.length < fuel) (hs : Unmarked s)
    (hstop : Ends indent stop) (b : List Char) {index line column : Nat}
    (hcolumn : indent ≤ (column + 1 : Nat))
    (hdocument : (⟨s ++ stop, index, line, column⟩ : Cursor).atDocumentMark = false) :
    let c : Cursor := ⟨stop, index + s.length, line, column + s.length⟩
    body fuel false indent { blanks := b } ⟨s ++ stop, index, line, column⟩
      = .ok ((b ++ s, (behind c).1), (behind c).2) := by
  induction fuel generalizing s b index column with
  | zero => exact absurd hfuel (Nat.not_lt_zero _)
  | succ fuel ih =>
    have hword : word false (s ++ stop) = .ok (s.takeWhile (· ≠ ' ')) :=
      word_append hs.chars hs.marks hstop
    have hne := hs.word_ne_nil
    obtain ⟨n, r, hsplit, hhead, hpos⟩ := exists_word s
    have hhash : (⟨s ++ stop, index, line, column⟩ : Cursor).peek? ≠ some '#' := by
      rw [Cursor.peek?, List.head?_append, Option.or_of_isSome (List.isSome_head?.mpr hs.ne_nil)]
      exact hs.head_ne_hash
    rw [body_of_word hdocument hhash hword hne]
    generalize s.takeWhile (· ≠ ' ') = w at hne hsplit
    subst hsplit
    have hadvance : (⟨w ++ (spaces n ++ r) ++ stop, index, line, column⟩ : Cursor).advance w.length
        = ⟨spaces n ++ (r ++ stop), index + w.length, line, column + w.length⟩ := by
      rw [List.append_assoc, List.append_assoc, Cursor.advance_append]
    have hlength : 0 < w.length := List.length_pos_iff.mpr hne
    rw [hadvance]
    by_cases hr : r = []
    · -- Spaces at the end would be the last characters of the text.
      have hn : n = 0 := by
        rcases Nat.eq_zero_or_pos n with hn | hn
        · exact hn
        · exact absurd hr (hs.rest hn hhead).ne_nil
      subst hr hn
      have hends := onward_ends hstop fuel (({ blanks := b } : Gap).text ++ w) (index + w.length)
        line (column + w.length)
      simpa [spaces, Gap.text] using hends
    · have hn := hpos hr
      have hrest : Unmarked r := hs.rest hn hhead
      have hsolid : Solid (r ++ stop) := by
        intro d hd
        rw [List.head?_append, Option.or_of_isSome (List.isSome_head?.mpr hr)] at hd
        obtain ⟨htab, hbreak⟩ := hrest.chars d (List.mem_of_mem_head? hd)
        have hspace : d ≠ ' ' := fun heq => hhead (heq ▸ hd)
        exact ⟨by simp [isSpaceOrTab, hspace, htab], hbreak⟩
      have henough : r.length < fuel := by
        simp only [List.length_append, length_spaces] at hfuel
        omega
      have hinside : indent ≤ (column + w.length + n + 1 : Nat) := by omega
      have hmark : (⟨r ++ stop, index + w.length + n, line, column + w.length + n⟩ :
          Cursor).atDocumentMark = false := by
        simp [Cursor.atDocumentMark]
        omega
      have hmore := ih henough hrest (spaces n) hinside hmark
      rw [onward_spaces hsolid hn (by omega), hmore]
      simp [Gap.text, length_spaces, Except.map, Nat.add_assoc]

/-- **An unmarked text is read as a plain scalar.** -/
theorem scalar_unmarked {parent : Int} (hs : Unmarked s) (hstop : Ends (parent + 1) stop)
    {index line column : Nat} (hcolumn : parent ≤ column)
    (hdocument : (⟨s ++ stop, index, line, column⟩ : Cursor).atDocumentMark = false) :
    let c : Cursor := ⟨stop, index + s.length, line, column + s.length⟩
    scalar false parent ⟨s ++ stop, index, line, column⟩
      = .ok ((String.ofList s, (behind c).1), (behind c).2) := by
  have hfuel : s.length < (s ++ stop).length + 1 := by
    rw [List.length_append]
    omega
  have hinside : parent + 1 ≤ (column + 1 : Nat) := by omega
  have hbody := body_append hfuel hs hstop [] hinside hdocument
  unfold scalar
  simp only [hbody, bind, Except.bind, List.nil_append]

end RepoSelect.Yaml.Unquoted
