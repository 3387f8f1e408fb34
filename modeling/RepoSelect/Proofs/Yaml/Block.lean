import RepoSelect.Proofs.Yaml.Scan

/-!
# Literal blocks are read back

The lines of a literal block are read one by one, each up to its break. The breaks behind it, and
the indentation of the line that follows them, are skipped together (`margin_breaks`), so that the
text is as its lines and breaks were written (`lines_literal`). Where the text starts with a space
or a break, its indentation is given, and how it ends is told by its chomping (`chompingOf`).
-/

namespace RepoSelect.Yaml.Block

open Printer (spaces literalBody literalHints)

/-- A break that enters a literal block as it is. -/
def IsKept (d : Char) : Prop := d = '\n' ∨ d = '\u2028' ∨ d = '\u2029'

variable {d : Char} {w s r breaks : List Char} {indent : Nat}

theorem isBreak_of_isKept (h : IsKept d) : isBreak d = true := by
  rcases h with rfl | rfl | rfl <;> decide

theorem breakText_of_isKept (h : IsKept d) (index line column : Nat) :
    (⟨d :: r, index, line, column⟩ : Cursor).breakText = [d] := by
  rcases h with rfl | rfl | rfl <;> rfl

theorem skipBreak_of_isKept (h : IsKept d) (index line column : Nat) :
    (⟨d :: r, index, line, column⟩ : Cursor).skipBreak = ⟨r, index + 1, line + 1, 0⟩ := by
  rcases h with rfl | rfl | rfl <;> rfl

/-! ## The body -/

theorem literalBody_append (hw : ∀ d ∈ w, isBreak d = false) (r : List Char) :
    literalBody indent false (w ++ r) = w ++ literalBody indent false r := by
  induction w with
  | nil => rfl
  | cons d w ih =>
    rw [List.cons_append, literalBody, if_neg (by simp [hw d (by simp)]),
      ih fun e he => hw e (by simp [he])]
    rfl

theorem literalBody_breaks (h : ∀ d ∈ breaks, isBreak d = true) (r : List Char) :
    literalBody indent true (breaks ++ r) = breaks ++ literalBody indent true r := by
  induction breaks with
  | nil => rfl
  | cons d breaks ih =>
    rw [List.cons_append, literalBody, if_pos (h d (by simp)), ih fun e he => h e (by simp [he]),
      List.cons_append]

/-- The last line and the breaks behind it. -/
theorem literalBody_last (hw : ∀ d ∈ w, isBreak d = false) (h : ∀ d ∈ breaks, isBreak d = true) :
    literalBody indent false (w ++ breaks) = w ++ breaks := by
  rw [literalBody_append hw]
  cases breaks with
  | nil => rfl
  | cons d breaks =>
    have hbehind : literalBody indent true (breaks ++ []) = breaks ++ literalBody indent true [] :=
      literalBody_breaks (fun e he => h e (List.mem_cons_of_mem d he)) []
    rw [List.append_nil, literalBody, List.append_nil] at hbehind
    rw [literalBody, if_pos (h d (by simp)), hbehind]

theorem literalBody_line (hr : r ≠ []) (h : r.head?.any isBreak = false) :
    literalBody indent true r = spaces indent ++ literalBody indent false r := by
  cases r with
  | nil => exact absurd rfl hr
  | cons d r =>
    have hd : isBreak d = false := by simpa using h
    simp [literalBody, hd]

theorem length_le_literalBody (s : List Char) (atLineStart : Bool) :
    s.length ≤ (literalBody indent atLineStart s).length := by
  induction s generalizing atLineStart with
  | nil => exact Nat.zero_le _
  | cons d s ih =>
    rw [literalBody]
    split
    · have := ih true
      simp only [List.length_cons]
      omega
    · have := ih false
      simp only [List.length_append, List.length_cons]
      omega

theorem head?_literalBody (s : List Char) : (literalBody indent false s).head? = s.head? := by
  cases s with
  | nil => rfl
  | cons d s =>
    rw [literalBody]
    split <;> rfl

theorem getLast?_literalBody (s : List Char) (atLineStart : Bool) :
    (literalBody indent atLineStart s).getLast? = s.getLast? := by
  induction s generalizing atLineStart with
  | nil => rfl
  | cons d s ih =>
    rw [literalBody]
    split
    · rw [List.getLast?_cons, List.getLast?_cons, ih]
    · rw [List.getLast?_append, List.getLast?_cons, List.getLast?_cons, ih, Option.some_or]

/-- The break behind a text that ends with none. -/
def ending (s : List Char) : List Char := if s.getLast?.any isBreak then [] else ['\n']

theorem ending_append (hr : r ≠ []) : ending (s ++ r) = ending r := by
  rw [ending, ending, List.getLast?_append,
    Option.or_of_isSome (List.getLast?_isSome.mpr hr)]

/-- A line without its break is given one. -/
theorem ending_line (hw : w ≠ []) (h : ∀ d ∈ w, isBreak d = false) : ending w = ['\n'] := by
  obtain ⟨init, d, rfl⟩ := (List.eq_nil_or_concat w).resolve_left hw
  have hd : isBreak d = false := h d (by simp)
  simp [ending, hd]

theorem ending_breaks (hs : s ≠ []) (h : ∀ d ∈ s, isBreak d = true) : ending s = [] := by
  obtain ⟨init, d, rfl⟩ := (List.eq_nil_or_concat s).resolve_left hs
  have hd : isBreak d = true := h d (by simp)
  simp [ending, hd]

/-! ## Hints -/

/-- What is to be done with the breaks at the end of a text. -/
def chompingOf (s : List Char) : Chomping :=
  match s.reverse with
  | [] => .strip
  | [d] => if isBreak d then .keep else .strip
  | d :: e :: _ => if !isBreak d then .strip else if isBreak e then .keep else .clip

/-- Only the last line and what is behind it count. -/
theorem chompingOf_append (hr : r ≠ []) (h : r.head?.any isBreak = false) :
    chompingOf (s ++ r) = chompingOf r := by
  unfold chompingOf
  rw [List.reverse_append]
  match hrev : r.reverse with
  | [] => exact absurd (List.reverse_eq_nil_iff.mp hrev) hr
  | [d] =>
    have hd : isBreak d = false := by
      rw [← List.reverse_reverse r, hrev] at h
      simpa using h
    cases s.reverse with
    | nil => rfl
    | cons e t => simp [hd]
  | d :: e :: t => rfl

theorem chompingOf_line (hw : w ≠ []) (h : ∀ d ∈ w, isBreak d = false) :
    chompingOf w = .strip := by
  obtain ⟨init, d, rfl⟩ := (List.eq_nil_or_concat w).resolve_left hw
  have hd : isBreak d = false := h d (by simp)
  unfold chompingOf
  rw [List.concat_eq_append, List.reverse_append, List.reverse_singleton, List.singleton_append]
  cases init.reverse <;> simp [hd]

/-- A single break behind a line is the usual end of a block. -/
theorem chompingOf_line_breaks (hw : w ≠ []) (hline : ∀ e ∈ w, isBreak e = false)
    (hd : isBreak d = true) (h : ∀ e ∈ breaks, isBreak e = true) :
    chompingOf (w ++ d :: breaks) = if breaks = [] then .clip else .keep := by
  obtain ⟨init, e, rfl⟩ := (List.eq_nil_or_concat w).resolve_left hw
  have he : isBreak e = false := hline e (by simp)
  have hrev : ∀ e ∈ breaks.reverse, isBreak e = true := fun e he => h e (List.mem_reverse.mp he)
  unfold chompingOf
  rw [List.reverse_append, List.reverse_cons]
  match hmatch : breaks.reverse with
  | [] =>
    rw [List.reverse_eq_nil_iff.mp hmatch]
    simp [hd, he]
  | [f] =>
    have hf : isBreak f = true := hrev f (by simp [hmatch])
    have hne : breaks ≠ [] := fun h => by simp [h] at hmatch
    simp [hd, hf, hne]
  | f :: g :: t =>
    have hf : isBreak f = true := hrev f (by simp [hmatch])
    have hg : isBreak g = true := hrev g (by simp [hmatch])
    have hne : breaks ≠ [] := fun h => by simp [h] at hmatch
    simp [hf, hg, hne]

theorem chompingOf_breaks (hs : s ≠ []) (h : ∀ d ∈ s, isBreak d = true) :
    chompingOf s = .keep := by
  have hrev : ∀ d ∈ s.reverse, isBreak d = true := fun d hd => h d (List.mem_reverse.mp hd)
  unfold chompingOf
  match hmatch : s.reverse with
  | [] => exact absurd (List.reverse_eq_nil_iff.mp hmatch) hs
  | [d] => simp [hrev d (by simp [hmatch])]
  | d :: e :: t => simp [hrev d (by simp [hmatch]), hrev e (by simp [hmatch])]

/-- The indentation that is given where the text does not show it. -/
def incrementOf (s : List Char) : Option Nat :=
  if s.head?.any fun d => d = ' ' || isBreak d then some 2 else none

theorem incrementOf_eq (s : List Char) : incrementOf s = some 2 ∨ incrementOf s = none := by
  unfold incrementOf
  split
  · exact .inl rfl
  · exact .inr rfl

def chompingMark : Chomping → List Char
  | .strip => ['-']
  | .clip => []
  | .keep => ['+']

theorem literalHints_eq (s : List Char) : literalHints s
    = (if (incrementOf s).isSome then ['2'] else []) ++ chompingMark (chompingOf s) := by
  unfold literalHints chompingOf incrementOf
  dsimp only
  congr 1
  · split <;> rfl
  · match s.reverse with
    | [] => rfl
    | [d] => cases hd : isBreak d <;> simp [hd, chompingMark]
    | d :: e :: t =>
      cases hd : isBreak d <;> cases he : isBreak e <;> simp [hd, he, chompingMark]

theorem increment_break (r : List Char) (index line column : Nat) :
    increment ⟨'\n' :: r, index, line, column⟩ = .ok (none, ⟨'\n' :: r, index, line, column⟩) := by
  have hdigit : '\n'.isDigit = false := by decide
  simp [increment, Cursor.peek?, hdigit]

theorem increment_two (r : List Char) (index line column : Nat) :
    increment ⟨'2' :: r, index, line, column⟩ = .ok (some 2, ⟨r, index + 1, line, column + 1⟩) := by
  have hdigit : '2'.isDigit = true := by decide
  simp [increment, Cursor.peek?, Cursor.advance, hdigit]

theorem header_literalHints (s r : List Char) (index line column : Nat) :
    ∃ index' column', header ⟨literalHints s ++ '\n' :: r, index, line, column⟩
      = .ok ((chompingOf s, incrementOf s), ⟨'\n' :: r, index', line, column'⟩) := by
  rw [literalHints_eq]
  rcases incrementOf_eq s with h | h <;> rw [h] <;> cases chompingOf s <;>
    simp [header, chomping?, chompingMark, increment_break, increment_two, Cursor.peek?,
      Cursor.advance, bind, Except.bind]

/-! ## Indentation -/

/-- The position behind the indentation that is here, none of it beyond the one that is known. -/
def behindIndent (indent : Nat) (c : Cursor) : Cursor :=
  let found := (c.rest.takeWhile (· = ' ')).length
  c.advance (if indent = 0 then found else min found (indent - c.column))

theorem takeWhile_spaces (n : Nat) (h : r.head? ≠ some ' ') :
    (spaces n ++ r).takeWhile (· = ' ') = spaces n :=
  takeWhile_append (fun d hd => by simp [mem_spaces hd]) fun d hd => by
    simp only [decide_eq_false_iff_not]
    rintro rfl
    exact h hd

theorem behindIndent_spaces {n : Nat} (hn : n ≤ indent) (hr : n = indent ∨ r.head? ≠ some ' ')
    (hindent : 0 < indent) (index line : Nat) :
    behindIndent indent ⟨spaces n ++ r, index, line, 0⟩ = ⟨r, index + n, line, n⟩ := by
  have hskip : min ((spaces n ++ r).takeWhile (· = ' ')).length indent = n := by
    rcases hr with rfl | hhead
    · rw [List.takeWhile_append_of_pos fun d hd => by simp [mem_spaces hd], List.length_append,
        length_spaces]
      omega
    · rw [takeWhile_spaces n hhead, length_spaces, Nat.min_eq_left hn]
  have hadvance := Cursor.advance_append (spaces n) r index line 0
  rw [length_spaces, Nat.zero_add] at hadvance
  simp only [behindIndent, Nat.ne_of_gt hindent, if_false, Nat.sub_zero, hskip, hadvance]

section

variable {parent : Int} {widest : Nat} {m : Margin} {c : Cursor}

theorem margin_stop (htab : (behindIndent m.indent c).peek? ≠ some '\t')
    (hbreak : (behindIndent m.indent c).peek?.any isBreak = false) (fuel : Nat) :
    margin fuel parent widest m c = .ok
      ({ m with
          indent := if m.indent = 0
            then max (max (max widest (behindIndent m.indent c).column) (parent + 1).toNat) 1
            else m.indent },
        behindIndent m.indent c) := by
  unfold behindIndent at *
  unfold margin
  dsimp only
  rw [if_neg fun h => htab h.2, hbreak]
  cases fuel <;> rfl

theorem margin_break {d : Char} (hpeek : (behindIndent m.indent c).peek? = some d)
    (hd : IsKept d) (fuel : Nat) :
    margin (fuel + 1) parent widest m c
      = margin fuel parent (max widest (behindIndent m.indent c).column)
          { m with breaks := m.breaks ++ [d] } (behindIndent m.indent c).skipBreak := by
  have htab : (behindIndent m.indent c).peek? ≠ some '\t' := by
    rw [hpeek]
    rcases hd with rfl | rfl | rfl <;> decide
  have hbreak : (behindIndent m.indent c).peek?.any isBreak = true := by
    rw [hpeek]
    exact isBreak_of_isKept hd
  have htext : (behindIndent m.indent c).breakText = [d] := by
    generalize behindIndent m.indent c = c' at hpeek
    obtain ⟨rest, index, line, column⟩ := c'
    cases rest with
    | nil => cases hpeek
    | cons e rest =>
      obtain rfl := Option.some.inj hpeek
      exact breakText_of_isKept hd index line column
  have hfree : ¬((m.indent = 0 ∨ (behindIndent m.indent c).column < m.indent)
      ∧ (behindIndent m.indent c).peek? = some '\t') := fun h => htab h.2
  rw [← htext]
  unfold behindIndent at *
  rw [margin.eq_def]
  simp only [hfree, hbreak, if_false]

end

/-- Known indentation is skipped with the breaks in front of it. -/
theorem margin_breaks {n : Nat} (hbreaks : ∀ d ∈ breaks, IsKept d) (hindent : 0 < indent)
    (hn : n ≤ indent) (hr : n = indent ∨ r.head? ≠ some ' ') (htab : r.head? ≠ some '\t')
    (hbreak : r.head?.any isBreak = false) {fuel : Nat} (hfuel : breaks.length ≤ fuel)
    (parent : Int) (widest : Nat) (before : List Char) (index line : Nat) :
    margin fuel parent widest ⟨indent, before⟩ ⟨breaks ++ (spaces n ++ r), index, line, 0⟩
      = .ok (⟨indent, before ++ breaks⟩,
          ⟨r, index + breaks.length + n, line + breaks.length, n⟩) := by
  induction breaks generalizing fuel widest before index line with
  | nil =>
    have hskip := behindIndent_spaces hn hr hindent index line
    rw [List.nil_append, margin_stop (by rwa [hskip]) (by rwa [hskip]), hskip]
    simp [Nat.ne_of_gt hindent]
  | cons d breaks ih =>
    obtain ⟨fuel, rfl⟩ : ∃ k, fuel = k + 1 := ⟨fuel - 1, by simp at hfuel; omega⟩
    have hd := hbreaks d (by simp)
    have hspace : d ≠ ' ' := by rcases hd with rfl | rfl | rfl <;> decide
    have hskip : behindIndent indent ⟨d :: (breaks ++ (spaces n ++ r)), index, line, 0⟩
        = ⟨d :: (breaks ++ (spaces n ++ r)), index, line, 0⟩ :=
      behindIndent_spaces (n := 0) (Nat.zero_le _) (.inr (by simpa using hspace)) hindent index line
    rw [List.cons_append, margin_break (d := d) (by rw [hskip]; rfl) hd, hskip,
      skipBreak_of_isKept hd, ih (fun e he => hbreaks e (by simp [he])) (by simpa using hfuel)]
    simp [Nat.add_assoc, Nat.add_comm 1]

/-- The first line gives the indentation. -/
theorem margin_first (hr : r.head? ≠ some ' ') (htab : r.head? ≠ some '\t')
    (hbreak : r.head?.any isBreak = false) {parent : Int} (hparent : parent < indent)
    (hindent : 0 < indent) (fuel index line : Nat) :
    margin fuel parent 0 ⟨0, []⟩ ⟨spaces indent ++ r, index, line, 0⟩
      = .ok (⟨indent, []⟩, ⟨r, index + indent, line, indent⟩) := by
  have hskip : behindIndent 0 ⟨spaces indent ++ r, index, line, 0⟩
      = ⟨r, index + indent, line, indent⟩ := by
    have hadvance := Cursor.advance_append (spaces indent) r index line 0
    rw [length_spaces, Nat.zero_add] at hadvance
    simp only [behindIndent, if_true, takeWhile_spaces indent hr, length_spaces, hadvance]
  rw [margin_stop (by rwa [hskip]) (by rwa [hskip]), hskip]
  have hmax : max (max (max 0 indent) (parent + 1).toNat) 1 = indent := by omega
  dsimp only
  rw [if_pos rfl, hmax]

/-! ## Lines -/

/-- The text up to the next line. -/
def Lines.shown (l : Lines) : List Char := l.text ++ l.leadingBreak ++ l.trailing

theorem joined_literal (l : Lines) (blank : Bool) : l.joined true blank = l.shown := by
  simp [Lines.joined, Lines.shown]

/-- A line, its break and the breaks behind it. -/
theorem lines_line {n : Nat} (hw : w ≠ []) (hline : ∀ d ∈ w, isBreak d = false) (hd : IsKept d)
    (hbreaks : ∀ d ∈ breaks, IsKept d) (hindent : 0 < indent) (hn : n ≤ indent)
    (hr : n = indent ∨ r.head? ≠ some ' ') (htab : r.head? ≠ some '\t')
    (hbreak : r.head?.any isBreak = false) (fuel : Nat) (l : Lines) (index line : Nat) :
    ∃ blank index' line', lines (fuel + 1) true indent l
        ⟨w ++ d :: (breaks ++ (spaces n ++ r)), index, line, indent⟩
      = lines fuel true indent ⟨l.shown ++ w, [d], blank, breaks⟩ ⟨r, index', line', n⟩ := by
  refine ⟨w.head?.any isSpaceOrTab, index + w.length + 1 + breaks.length + n,
    line + 1 + breaks.length, ?_⟩
  have hpeek : (w ++ d :: (breaks ++ (spaces n ++ r))).head? = w.head? := by
    rw [List.head?_append, Option.or_of_isSome (List.isSome_head?.mpr hw)]
  have hrun : (⟨w ++ d :: (breaks ++ (spaces n ++ r)), index, line, indent⟩ : Cursor).run
      (fun _ => true)
      = (w, ⟨d :: (breaks ++ (spaces n ++ r)), index + w.length, line, indent + w.length⟩) :=
    Cursor.run_append (fun e he => ⟨rfl, hline e he⟩) fun e he => by
      obtain rfl := Option.some.inj he
      simp [isBreak_of_isKept hd]
  have hfuel : breaks.length ≤ (d :: (breaks ++ (spaces n ++ r))).length := by
    simp only [List.length_cons, List.length_append]
    omega
  have hmargin := margin_breaks hbreaks hindent hn hr htab hbreak hfuel 0 0 []
    (index + w.length + 1) (line + 1)
  rw [lines]
  simp only [ne_eq, not_true_eq_false, List.append_eq_nil_iff, hw, false_and, or_self, if_false,
    joined_literal, hrun, breakText_of_isKept hd, skipBreak_of_isKept hd, hmargin, bind,
    Except.bind, Cursor.peek?, hpeek, List.nil_append]

/-- Less indented lines are not part of the block. -/
theorem lines_stop {column : Nat} (h : column ≠ indent) (fuel : Nat) (l : Lines)
    (index line : Nat) : lines fuel true indent l ⟨r, index, line, column⟩
      = .ok (l, ⟨r, index, line, column⟩) := by
  cases fuel with
  | zero => rfl
  | succ fuel => rw [lines, if_pos (.inl h)]

/-- A text whose breaks enter a literal block as they are. -/
structure Blockable (s : List Char) : Prop where
  noTab : '\t' ∉ s
  kept : ∀ d ∈ s, isBreak d = true → IsKept d

theorem Blockable.of_append (h : Blockable (s ++ r)) : Blockable r :=
  ⟨fun ht => h.noTab (by simp [ht]), fun d hd => h.kept d (by simp [hd])⟩

/-- The last line and the breaks behind it, up to a line that is less indented. -/
theorem lines_last (hwne : w ≠ []) (hw : ∀ d ∈ w, isBreak d = false)
    (hbreaks : ∀ d ∈ breaks, IsKept d) {column : Nat} (hr : Fresh r) (hcolumn : column < indent)
    (fuel : Nat) (l : Lines) (index line : Nat) :
    ∃ l' index' line', lines (fuel + 1) true indent l
        ⟨w ++ (breaks ++ (ending (w ++ breaks) ++ (spaces column ++ r))), index, line, indent⟩
        = .ok (l', ⟨r, index', line', column⟩)
      ∧ chomp (chompingOf (w ++ breaks)) l' = l.shown ++ (w ++ breaks) := by
  have hspace : r.head? ≠ some ' ' := fun h => (hr.clear ' ' h).1 rfl
  have htab : r.head? ≠ some '\t' := fun h => (hr.clear '\t' h).2.1 rfl
  have hline : ∀ {d : Char} {behind : List Char}, IsKept d → (∀ e ∈ behind, IsKept e) →
      ∃ blank index' line', lines (fuel + 1) true indent l
          ⟨w ++ d :: (behind ++ (spaces column ++ r)), index, line, indent⟩
        = .ok (⟨l.shown ++ w, [d], blank, behind⟩, ⟨r, index', line', column⟩) := by
    intro d behind hd hbehind
    obtain ⟨blank, index', line', hstep⟩ :=
      lines_line hwne hw hd hbehind (Nat.zero_lt_of_lt hcolumn)
      (Nat.le_of_lt hcolumn) (.inr hspace) htab hr.noBreak fuel l index line
    exact ⟨blank, index', line',
      hstep.trans (lines_stop (Nat.ne_of_lt hcolumn) fuel _ index' line')⟩
  cases breaks with
  | nil =>
    obtain ⟨blank, index', line', hread⟩ := @hline '\n' [] (.inl rfl) nofun
    refine ⟨⟨l.shown ++ w, ['\n'], blank, []⟩, index', line', ?_, ?_⟩
    · rw [List.append_nil, ending_line hwne hw]
      exact hread
    · rw [List.append_nil, chompingOf_line hwne hw]
      rfl
  | cons d breaks =>
    have hd : IsKept d := hbreaks d (by simp)
    have hbehind : ∀ e ∈ breaks, IsKept e := fun e he => hbreaks e (by simp [he])
    have hall : ∀ e ∈ d :: breaks, isBreak e = true := fun e he => isBreak_of_isKept (hbreaks e he)
    obtain ⟨blank, index', line', hread⟩ := hline hd hbehind
    refine ⟨⟨l.shown ++ w, [d], blank, breaks⟩, index', line', ?_, ?_⟩
    · rw [ending_append (List.cons_ne_nil _ _), ending_breaks (List.cons_ne_nil _ _) hall]
      exact hread
    · rw [chompingOf_line_breaks hwne hw (hall d (by simp)) fun e he => hall e (by simp [he])]
      split
      · next hnil => simp [hnil, chomp]
      · simp [chomp]

/-- The lines of a text that starts with one, up to a line that is less indented. -/
theorem lines_literal (hs : Blockable s) (hne : s ≠ []) (hfirst : s.head?.any isBreak = false)
    {column : Nat} (hr : Fresh r) (hcolumn : column < indent) {fuel : Nat}
    (hfuel : s.length ≤ fuel) (l : Lines) (index line : Nat) :
    ∃ l' index' line', lines fuel true indent l
        ⟨literalBody indent false s ++ (ending s ++ (spaces column ++ r)), index, line, indent⟩
        = .ok (l', ⟨r, index', line', column⟩)
      ∧ chomp (chompingOf s) l' = l.shown ++ s := by
  induction hlength : s.length using Nat.strongRecOn generalizing s fuel l index line with
  | ind length ih =>
    -- The text is a line, the breaks behind it, and what follows them.
    obtain ⟨w, more, rfl, hchars, hstop⟩ := exists_run (fun d => !isBreak d) s
    have hw : ∀ d ∈ w, isBreak d = false := fun d hd => by simpa using hchars d hd
    have hwne : w ≠ [] := by
      rintro rfl
      cases more with
      | nil => exact hne rfl
      | cons d more =>
        have hd : isBreak d = false := by simpa using hfirst
        simp [hd] at hstop
    have hpos : 0 < w.length := List.length_pos_iff.mpr hwne
    obtain ⟨breaks, t, rfl, hbreaks, ht⟩ := exists_run isBreak more
    have hkept : ∀ e ∈ breaks, IsKept e := fun e he => hs.kept e (by simp [he]) (hbreaks e he)
    rw [List.length_append, List.length_append] at hfuel hlength
    obtain ⟨fuel, rfl⟩ : ∃ k, fuel = k + 1 := ⟨fuel - 1, by omega⟩
    by_cases htne : t = []
    · subst htne
      rw [List.append_nil, literalBody_last hw hbreaks, List.append_assoc]
      exact lines_last hwne hw hkept hr hcolumn fuel l index line
    · -- A further line follows, so there are breaks in front of it.
      obtain ⟨d, breaks, rfl⟩ : ∃ d behind, breaks = d :: behind := by
        cases breaks with
        | nil =>
          cases t with
          | nil => exact absurd rfl htne
          | cons d t =>
            have hd : isBreak d = false := by simpa using ht
            simp [hd] at hstop
        | cons d breaks => exact ⟨d, breaks, rfl⟩
      have hd : isBreak d = true := hbreaks d (by simp)
      have hbehind : ∀ e ∈ breaks, IsKept e := fun e he => hkept e (by simp [he])
      have hline : literalBody indent true t = spaces indent ++ literalBody indent false t :=
        literalBody_line htne ht
      have hbody : literalBody indent false (w ++ (d :: breaks ++ t))
          = w ++ d :: (breaks ++ (spaces indent ++ literalBody indent false t)) := by
        rw [literalBody_append hw, List.cons_append, literalBody, if_pos hd,
          literalBody_breaks fun e he => hbreaks e (by simp [he]), hline]
      have hmore : Blockable t := hs.of_append.of_append
      have hhead : (literalBody indent false t ++ (ending t ++ (spaces column ++ r))).head?
          = t.head? := by
        rw [List.head?_append, head?_literalBody, Option.or_of_isSome (List.isSome_head?.mpr htne)]
      have hnotab : t.head? ≠ some '\t' := fun h => hmore.noTab (List.mem_of_mem_head? h)
      obtain ⟨blank, index', line', hstep⟩ := lines_line
        (r := literalBody indent false t ++ (ending t ++ (spaces column ++ r))) hwne hw
        (hkept d (by simp)) hbehind (Nat.zero_lt_of_lt hcolumn)
        (Nat.le_refl indent) (.inl rfl) (by rwa [hhead]) (by rwa [hhead]) fuel l index line
      have hshort : t.length < length := by omega
      have henough : t.length ≤ fuel := by omega
      obtain ⟨l', index'', line'', hlines, hchomp⟩ := ih t.length hshort hmore htne ht
        henough ⟨l.shown ++ w, [d], blank, breaks⟩ index' line' rfl
      have hwhole : w ++ (d :: breaks ++ t) = (w ++ d :: breaks) ++ t := by simp
      refine ⟨l', index'', line'', ?_, ?_⟩
      · rw [hbody, hwhole, ending_append htne]
        simp only [List.append_assoc, List.cons_append]
        exact hstep.trans hlines
      · rw [hwhole, chompingOf_append htne ht, hchomp]
        simp [Lines.shown]

/-! ## Scalars -/

/-- The indentation that the header gives, if any. -/
def startOf (i : Nat) (s : List Char) : Nat := if (incrementOf s).isSome then i + 2 else 0

/-- The margin of a text that starts with a line. -/
theorem margin_literal (ht : Blockable r) (hne : r ≠ []) (hfirst : r.head?.any isBreak = false)
    (hbreaks : ∀ d ∈ breaks, IsKept d) {i fuel : Nat} (hfuel : breaks.length ≤ fuel)
    (rest : List Char) (index line : Nat) :
    ∃ index' line', margin fuel i 0 ⟨startOf i (breaks ++ r), []⟩
        ⟨literalBody (i + 2) true (breaks ++ r) ++ rest, index, line, 0⟩
      = .ok (⟨i + 2, breaks⟩,
          ⟨literalBody (i + 2) false r ++ rest, index', line', i + 2⟩) := by
  have hbody : literalBody (i + 2) true (breaks ++ r) ++ rest
      = breaks ++ (spaces (i + 2) ++ (literalBody (i + 2) false r ++ rest)) := by
    rw [literalBody_breaks fun d hd => isBreak_of_isKept (hbreaks d hd),
      literalBody_line hne hfirst, List.append_assoc, List.append_assoc]
  have hhead : (literalBody (i + 2) false r ++ rest).head? = r.head? := by
    rw [List.head?_append, head?_literalBody, Option.or_of_isSome (List.isSome_head?.mpr hne)]
  have htab : (literalBody (i + 2) false r ++ rest).head? ≠ some '\t' := by
    rw [hhead]
    exact fun h => ht.noTab (List.mem_of_mem_head? h)
  have hbreak : (literalBody (i + 2) false r ++ rest).head?.any isBreak = false := by
    rwa [hhead]
  rw [hbody]
  by_cases hstart : (incrementOf (breaks ++ r)).isSome = true
  · rw [startOf, if_pos hstart]
    exact ⟨_, _, margin_breaks hbreaks (Nat.succ_pos _) (Nat.le_refl _) (.inl rfl) htab hbreak
      hfuel i 0 [] index line⟩
  · -- The text starts with neither a space nor a break, so there are no breaks in front of it.
    have hplain : (breaks ++ r).head?.any (fun d => d = ' ' || isBreak d) = false := by
      unfold incrementOf at hstart
      split at hstart
      · simp at hstart
      · next h => exact Bool.eq_false_iff.mpr h
    obtain rfl : breaks = [] := by
      cases breaks with
      | nil => rfl
      | cons d breaks => simp [isBreak_of_isKept (hbreaks d (by simp))] at hplain
    have hspace : (literalBody (i + 2) false r ++ rest).head? ≠ some ' ' := by
      rw [hhead]
      intro h
      simp [h] at hplain
    rw [startOf, if_neg hstart]
    exact ⟨_, _, margin_first hspace htab hbreak (by omega) (Nat.succ_pos _) fuel index line⟩

/-- The lines behind the header. -/
theorem content_literal (hs : Blockable s) (hne : s ≠ []) {i column : Nat} (hr : Fresh r)
    (hcolumn : column ≤ i) (index line : Nat) :
    ∃ m c l index' line',
      margin (literalBody (i + 2) true s ++ (ending s ++ (spaces column ++ r))).length i 0
          ⟨startOf i s, []⟩
          ⟨literalBody (i + 2) true s ++ (ending s ++ (spaces column ++ r)), index, line, 0⟩
        = .ok (m, c)
      ∧ lines c.rest.length true m.indent { trailing := m.breaks } c
        = .ok (l, ⟨r, index', line', column⟩)
      ∧ chomp (chompingOf s) l = s := by
  obtain ⟨breaks, t, rfl, hbreaks, ht⟩ := exists_run isBreak s
  have hkept : ∀ d ∈ breaks, IsKept d := fun d hd => hs.kept d (by simp [hd]) (hbreaks d hd)
  have hspace : r.head? ≠ some ' ' := fun h => (hr.clear ' ' h).1 rfl
  have htab : r.head? ≠ some '\t' := fun h => (hr.clear '\t' h).2.1 rfl
  by_cases htne : t = []
  · -- Only breaks, which all belong to the margin.
    subst htne
    rw [List.append_nil] at hs hne ⊢
    have hbody : literalBody (i + 2) true breaks = breaks := by
      rw [← List.append_nil breaks, literalBody_breaks hbreaks, literalBody]
    have hstart : startOf i breaks = i + 2 := by
      cases breaks with
      | nil => exact absurd rfl hne
      | cons d breaks => simp [startOf, incrementOf, hbreaks d]
    have hfuel : breaks.length ≤ (breaks ++ (spaces column ++ r)).length := by
      rw [List.length_append]
      omega
    have hmargin := margin_breaks hkept (Nat.succ_pos (i + 1)) (by omega : column ≤ i + 2)
      (.inr hspace) htab hr.noBreak hfuel i 0 [] index line
    rw [hbody, ending_breaks hne hbreaks, hstart]
    have hout : column ≠ i + 2 := by omega
    refine ⟨_, _, _, _, _, hmargin, lines_stop hout _ _ _ _, ?_⟩
    rw [chompingOf_breaks hne hbreaks]
    rfl
  · have hmore : Blockable t := hs.of_append
    have hfuel : breaks.length ≤ (literalBody (i + 2) true (breaks ++ t)
        ++ (ending (breaks ++ t) ++ (spaces column ++ r))).length := by
      rw [literalBody_breaks hbreaks, List.append_assoc, List.length_append]
      omega
    obtain ⟨index', line', hmargin⟩ := margin_literal hmore htne ht hkept hfuel
      (ending (breaks ++ t) ++ (spaces column ++ r)) index line
    rw [ending_append htne] at hmargin ⊢
    have henough : t.length
        ≤ (literalBody (i + 2) false t ++ (ending t ++ (spaces column ++ r))).length := by
      rw [List.length_append]
      exact Nat.le_trans (length_le_literalBody t false) (Nat.le_add_right _ _)
    obtain ⟨l, index'', line'', hlines, hchomp⟩ := lines_literal hmore htne ht hr
      (by omega : column < i + 2) henough { trailing := breaks } index' line'
    refine ⟨_, _, l, index'', line'', hmargin, hlines, ?_⟩
    rw [chompingOf_append htne ht, hchomp]
    rfl

/-- **A text is read back from its literal block.** -/
theorem scalar_literal (hs : Blockable s) (hne : s ≠ []) {i column : Nat} (hr : Fresh r)
    (hcolumn : column ≤ i) (index line start : Nat) :
    ∃ index' line', scalar true i
        ⟨'|' :: (literalHints s ++ '\n' :: (literalBody (i + 2) true s
          ++ (ending s ++ (spaces column ++ r)))), index, line, start⟩
      = .ok (String.ofList s, ⟨r, index', line', column⟩) := by
  obtain ⟨behind, place, hheader⟩ := header_literalHints s
    (literalBody (i + 2) true s ++ (ending s ++ (spaces column ++ r))) (index + 1) line (start + 1)
  obtain ⟨m, c, l, index', line', hmargin, hlines, hchomp⟩ := content_literal hs hne hr hcolumn
    (behind + 1) (line + 1)
  refine ⟨index', line', ?_⟩
  have hstart : (((incrementOf s).bind fun n => pure (n : Int)).map fun n =>
      (if 0 ≤ (i : Int) then (i : Int) + n else n).toNat).getD 0 = startOf i s := by
    unfold startOf
    rcases incrementOf_eq s with h | h <;> rw [h]
    · rw [Option.bind_some, Option.pure_def, Option.map_some, Option.getD_some,
        if_pos (Int.natCast_nonneg i)]
      exact Int.toNat_natCast (i + 2)
    · rfl
  have hskip : (⟨'\n' :: (literalBody (i + 2) true s ++ (ending s ++ (spaces column ++ r))), behind,
      line, place⟩ : Cursor).skipWhile isSpaceOrTab
      = ⟨'\n' :: (literalBody (i + 2) true s ++ (ending s ++ (spaces column ++ r))), behind, line,
          place⟩ :=
    Cursor.skipWhile_self fun d hd => by
      obtain rfl := Option.some.inj hd
      decide
  have hadvance : ∀ rest : List Char,
      (⟨'|' :: rest, index, line, start⟩ : Cursor).advance 1 = ⟨rest, index + 1, line, start + 1⟩ :=
    fun rest => rfl
  have hhash : ('\n' = '#') = False := by decide
  unfold scalar
  simp only [hadvance, hheader, hskip, bind, Except.bind, Cursor.peek?, List.head?_cons,
    Option.some.injEq, hhash, if_false, endsLine, isBreak_of_isKept (.inl rfl), Bool.not_true,
    Bool.false_eq_true, skipBreak_of_isKept (.inl rfl), hstart, hmargin, hlines, hchomp]

end RepoSelect.Yaml.Block
