import RepoSelect.Proofs.Text.Run
import RepoSelect.Yaml.Printer
import RepoSelect.Yaml.Token.Lexer

/-!
# Scanning block by block

A scan outside of flow collections (`Scan.block`), and what brings it to its next token. Where the
scalar or the collection that was read ends, the scan stands at the end of a line or already at the
next token, and what is open below is closed when that token turns out to be less indented. So a
scan is known by where it goes on:

> it `Waits` for the lines that follow, inside a collection with a given indentation, with the
> tokens found up to there.

Waiting inside a collection is waiting outside of it, with the end of the collection found
(`Waits.leave`), and a scan that waits for a token takes it at its column (`Waits.loop`).
-/

namespace RepoSelect.Yaml

open Printer (spaces)

namespace Cursor

variable {p : Char → Bool} {s r : List Char} {index line column : Nat}

@[simp] theorem advance_zero (c : Cursor) : c.advance 0 = c := rfl

theorem advance_append (s r : List Char) (index line column : Nat) :
    (⟨s ++ r, index, line, column⟩ : Cursor).advance s.length
      = ⟨r, index + s.length, line, column + s.length⟩ := by
  simp [advance]

theorem run_append (hs : ∀ d ∈ s, p d = true ∧ isBreak d = false)
    (hr : ∀ d, r.head? = some d → (p d && !isBreak d) = false) :
    (⟨s ++ r, index, line, column⟩ : Cursor).run p
      = (s, ⟨r, index + s.length, line, column + s.length⟩) := by
  have htaken : (s ++ r).takeWhile (fun d => p d && !isBreak d) = s :=
    takeWhile_append (fun d hd => by simp [hs d hd]) hr
  simp only [run, htaken, advance_append]

theorem skipWhile_self {c : Cursor} (h : ∀ d, c.rest.head? = some d → (p d && !isBreak d) = false) :
    c.skipWhile p = c := by
  have hnone : c.rest.takeWhile (fun d => p d && !isBreak d) = [] :=
    takeWhile_append (s := []) nofun h
  simp [skipWhile, run, hnone]

end Cursor

/-! ## Starts of tokens -/

/-- No blank and no comment starts here. -/
def Clear (r : List Char) : Prop :=
  ∀ d, r.head? = some d → d ≠ ' ' ∧ d ≠ '\t' ∧ d ≠ '#' ∧ d ≠ '\ufeff'

/-- A token starts here, or the text is at its end. -/
structure Fresh (r : List Char) : Prop where
  clear : Clear r
  noBreak : r.head?.any isBreak = false

theorem mem_spaces {n : Nat} {d : Char} (h : d ∈ spaces n) : d = ' ' := List.eq_of_mem_replicate h

theorem length_spaces (n : Nat) : (spaces n).length = n := List.length_replicate

theorem head?_spaces_append {n : Nat} {r : List Char} {d : Char}
    (h : (spaces n ++ r).head? = some d) : d = ' ' ∨ r.head? = some d := by
  cases n with
  | zero => exact .inr h
  | succ n => exact .inl (Option.some.inj h).symm

/-- Neither a blank nor a break is here. -/
def Solid (r : List Char) : Prop :=
  ∀ d, r.head? = some d → isSpaceOrTab d = false ∧ isBreak d = false

theorem solid_of_fresh {r : List Char} (h : Fresh r) : Solid r := by
  intro d hd
  have hbreak := h.noBreak
  rw [hd] at hbreak
  obtain ⟨hspace, htab, -, -⟩ := h.clear d hd
  exact ⟨by simp [isSpaceOrTab, hspace, htab], by simpa using hbreak⟩

/-- A text is a word, some spaces and what follows them. -/
theorem exists_word (s : List Char) : ∃ n r, s = s.takeWhile (· ≠ ' ') ++ (spaces n ++ r)
    ∧ r.head? ≠ some ' ' ∧ (r ≠ [] → 0 < n) := by
  induction s with
  | nil => exact ⟨0, [], rfl, nofun, fun h => absurd rfl h⟩
  | cons d s ih =>
    obtain ⟨n, r, hs, hhead, hpos⟩ := ih
    by_cases hd : d = ' '
    · subst hd
      cases hw : s.takeWhile (· ≠ ' ') with
      | nil =>
        refine ⟨n + 1, r, ?_, hhead, fun _ => Nat.succ_pos n⟩
        rw [hw, List.nil_append] at hs
        rw [List.takeWhile_cons_of_neg (by simp), hs]
        rfl
      | cons e w =>
        refine ⟨1, s, by simp [spaces], ?_, fun _ => Nat.one_pos⟩
        intro hs'
        cases s with
        | nil => cases hs'
        | cons f s =>
          obtain rfl := Option.some.inj hs'
          simp at hw
    · refine ⟨n, r, ?_, hhead, hpos⟩
      rw [List.takeWhile_cons_of_pos (by simpa using hd), List.cons_append, ← hs]

/-- Lines that go on with a token at a column of `indent` at most. -/
def Falls (lines : List Char) (indent : Nat) : Prop :=
  ∃ column r, lines = spaces column ++ r ∧ Fresh r ∧ column ≤ indent

theorem Falls.mono {lines : List Char} {i j : Nat} (h : Falls lines i) (hle : i ≤ j) :
    Falls lines j := by
  obtain ⟨column, r, hlines, hr, hcolumn⟩ := h
  exact ⟨column, r, hlines, hr, Nat.le_trans hcolumn hle⟩

theorem falls_of_fresh {r : List Char} (h : Fresh r) (i : Nat) : Falls (spaces i ++ r) i :=
  ⟨i, r, rfl, h, Nat.le_refl i⟩

theorem fresh_nil : Fresh [] := ⟨nofun, rfl⟩

theorem falls_nil (i : Nat) : Falls [] i := ⟨0, [], rfl, fresh_nil, Nat.zero_le i⟩

namespace Scan

/-! ## The next token -/

/-- The scan at its next token. -/
def next (s : Scan) : Scan := s.toNextToken (s.cursor.rest.length + 1)

variable {s : Scan} {r : List Char} {n : Nat}

/-- Blanks are skipped, and with them the end of the line if nothing follows them. -/
theorem toNextToken_spaces (hrest : s.cursor.rest = spaces n ++ r) (hr : Clear r) (fuel : Nat) :
    s.toNextToken (fuel + 1) =
      let c := s.cursor.advance n
      if r.head?.any isBreak then
        toNextToken fuel { s with cursor := c.skipBreak, keyAllowed := s.keyAllowed || !s.inFlow }
      else { s with cursor := c } := by
  have hmark : ¬(s.cursor.index = 0 ∧ s.cursor.peek? = some '\ufeff') := by
    rintro ⟨-, hhead⟩
    rw [Cursor.peek?, hrest] at hhead
    rcases head?_spaces_append hhead with hspace | hclear
    · exact absurd hspace (by decide)
    · exact (hr _ hclear).2.2.2 rfl
  have hrest' : (s.cursor.advance n).rest = r := by
    simp [Cursor.advance, hrest, length_spaces]
  have hskip : ∀ tabs : Bool,
      s.cursor.skipWhile (fun d => d = ' ' || (tabs && d = '\t')) = s.cursor.advance n := by
    intro tabs
    have hblank : ∀ d ∈ spaces n, (d = ' ' || (tabs && d = '\t')) = true ∧ isBreak d = false := by
      intro d hd
      rw [mem_spaces hd]
      exact ⟨by simp, by decide⟩
    have htaken : s.cursor.rest.takeWhile
        (fun d => (d = ' ' || (tabs && d = '\t')) && !isBreak d) = spaces n := by
      rw [hrest]
      exact takeWhile_append (fun d hd => by simp [hblank d hd])
        (fun d hd => by simp [(hr d hd).1, (hr d hd).2.1])
    simp only [Cursor.skipWhile, Cursor.run, htaken, length_spaces]
  have hcomment : (s.cursor.advance n).peek? ≠ some '#' := by
    rw [Cursor.peek?, hrest']
    exact fun hhead => (hr _ hhead).2.2.1 rfl
  rw [toNextToken, if_neg hmark, hskip, if_neg hcomment, Cursor.peek?, hrest']

theorem next_of_fresh (hrest : s.cursor.rest = spaces n ++ r) (hr : Fresh r) :
    s.next = { s with cursor := s.cursor.advance n } := by
  rw [next, toNextToken_spaces hrest hr.clear, hr.noBreak]
  rfl

/-- The blanks behind a break are skipped, and a key may start. -/
theorem next_of_break (hrest : s.cursor.rest = '\n' :: (spaces n ++ r)) (hr : Fresh r)
    (hflow : s.inFlow = false) : s.next
      = { s with
          cursor := ⟨r, s.cursor.index + 1 + n, s.cursor.line + 1, n⟩
          keyAllowed := true } := by
  have hclear : Clear ('\n' :: (spaces n ++ r)) := by
    intro d hd
    obtain rfl := Option.some.inj hd
    decide
  have hskip : s.cursor.skipBreak
      = ⟨spaces n ++ r, s.cursor.index + 1, s.cursor.line + 1, 0⟩ := by
    simp [Cursor.skipBreak, hrest, isBreak]
  have hone : s.cursor.rest = spaces 0 ++ '\n' :: (spaces n ++ r) := hrest
  rw [next, toNextToken_spaces hone hclear, hrest, List.length_cons]
  simp only [Cursor.advance_zero, hskip, hflow, Bool.not_false, Bool.or_true]
  rw [if_pos (by rfl), toNextToken_spaces rfl hr.clear, hr.noBreak]
  simp [Cursor.advance, length_spaces]

/-! ## Scans outside of flow collections -/

/-- A scan inside block collections only, with their indentations from the innermost on and its
possible key. -/
def block (cursor : Cursor) (found : List Token) (stack : List Int) (key : Option PossibleKey)
    (keyAllowed : Bool) : Scan :=
  ⟨cursor, found, found.length, stack.headD (-1), stack.drop 1, [key], keyAllowed⟩

/-- A key that may have started need not be one. -/
def Free (key : Option PossibleKey) : Prop := ∀ k, key = some k → k.required = false

theorem free_none : Free none := nofun

section

variable {c : Cursor} {found : List Token} {indent column : Int} {stack : List Int}
  {key : Option PossibleKey} {keyAllowed : Bool}

theorem dropKey_block (h : Free key) : (block c found stack key keyAllowed).dropKey
    = .ok (block c found stack none keyAllowed) := by
  cases key with
  | none => rfl
  | some k => simp [dropKey, possibleKey?, block, setKey, h k rfl]

/-- The key that may start at a position. -/
def keyAt (c : Cursor) (found : List Token) (indent : Int) : PossibleKey :=
  ⟨indent = c.column, found.length, c.index, c.line, c.column⟩

theorem saveKey_block_of_allowed (h : Free key) :
    (block c found (indent :: stack) key true).saveKey
    = .ok (block c found (indent :: stack) (some (keyAt c found indent)) true) := by
  have hdrop : (block c found (indent :: stack) key true).dropKey
      = .ok (block c found (indent :: stack) none true) := dropKey_block h
  have hallowed : (block c found (indent :: stack) key true).keyAllowed = true := rfl
  unfold saveKey
  rw [if_pos hallowed]
  simp only [hdrop, bind, Except.bind]
  rfl

/-- The possible key once a token that may be one has been met. -/
def saved (c : Cursor) (found : List Token) (indent : Int) (key : Option PossibleKey)
    (keyAllowed : Bool) : Option PossibleKey :=
  if keyAllowed then some (keyAt c found indent) else key

theorem saveKey_block (h : Free key) (keyAllowed : Bool) :
    (block c found (indent :: stack) key keyAllowed).saveKey
      = .ok (block c found (indent :: stack) (saved c found indent key keyAllowed) keyAllowed) := by
  cases keyAllowed with
  | true => exact saveKey_block_of_allowed h
  | false => rfl

/-- Inside of a line no key is required. -/
theorem free_saved (h : Free key) (hindent : indent ≠ c.column) :
    Free (saved c found indent key keyAllowed) := by
  unfold saved
  split
  · intro k hk
    obtain rfl := Option.some.inj hk
    simp [keyAt, hindent]
  · exact h

theorem line_saved (h : ∀ k, key = some k → k.line ≤ c.line) :
    ∀ k, saved c found indent key keyAllowed = some k → k.line ≤ c.line := by
  unfold saved
  split
  · intro k hk
    obtain rfl := Option.some.inj hk
    exact Nat.le_refl c.line
  · exact h

/-- The collections that are indented more than the column are closed. -/
theorem unroll_block {inner : List Int} (hinner : ∀ i ∈ inner, column < i) (h : indent ≤ column) :
    (block c found (inner ++ indent :: stack) key keyAllowed).unroll column
      = block c (List.replicate inner.length .blockEnd ++ found) (indent :: stack) key
          keyAllowed := by
  have hall : (inner ++ indent :: stack).headD (-1) :: (inner ++ indent :: stack).drop 1
      = inner ++ indent :: stack := by
    cases inner <;> rfl
  have hleft : (inner ++ indent :: stack).dropWhile (column < ·) = indent :: stack := by
    rw [List.dropWhile_append_of_pos (by simpa using hinner), List.dropWhile_cons_of_neg]
    simpa using h
  unfold unroll block
  rw [if_neg (by simp [inFlow])]
  dsimp only
  rw [hall, hleft]
  simp [Nat.add_comm]

theorem roll_block_of_le (place : Nat) (start : Token) (h : column ≤ indent) :
    (block c found (indent :: stack) key keyAllowed).roll column place start
      = block c found (indent :: stack) key keyAllowed := by
  simp [roll, block, inFlow, h]

theorem insertIdx_append {α : Type} (inside rest : List α) (a : α) :
    (inside ++ rest).insertIdx inside.length a = inside ++ a :: rest := by
  induction inside with
  | nil => rfl
  | cons b inside ih => simp [ih]

theorem insertAt_block (inside : List Token) (t : Token) :
    (block c (inside ++ found) stack key keyAllowed).insertAt found.length t
      = block c (inside ++ t :: found) stack key keyAllowed := by
  unfold insertAt block
  dsimp only
  rw [List.length_append, Nat.add_sub_cancel, insertIdx_append]
  simp [Nat.add_assoc]

/-- A collection starts in front of what was found since its place. -/
theorem roll_block_of_lt (inside : List Token) (start : Token) (h : indent < column) :
    (block c (inside ++ found) (indent :: stack) key keyAllowed).roll column found.length start
      = block c (inside ++ start :: found) (column :: indent :: stack) key keyAllowed := by
  rw [← insertAt_block]
  simp [roll, block, inFlow, Int.not_le.mpr h]

end

/-! ## Taking tokens -/

/-- The scan `s` is the scan `t` some tokens later. -/
def Takes (n : Nat) (s t : Scan) : Prop := ∀ fuel, loop (fuel + n) s = loop fuel t

theorem Takes.trans {m : Nat} {t u : Scan} (h : Takes n s t) (h' : Takes m t u) :
    Takes (n + m) s u := fun fuel => by
  rw [Nat.add_comm n m, ← Nat.add_assoc, h, h']

section

variable {c : Cursor} {found : List Token} {indent : Int} {stack : List Int}
  {key : Option PossibleKey} {keyAllowed : Bool} {d : Char} {lines : List Char}

theorem loop_of_peek {s : Scan} (h : s.next.cursor.peek? = some d) (fuel : Nat) :
    loop (fuel + 1) s = (s.next.unroll s.next.cursor.column).fetch d >>= loop fuel := by
  unfold next at h ⊢
  unfold loop
  simp only [h]

/-- The scan ends where nothing follows. -/
theorem loop_of_end {s : Scan} (h : s.next.cursor.peek? = none) (fuel : Nat) :
    loop (fuel + 1) s = s.next.closeAll := by
  unfold next at h ⊢
  unfold loop
  simp only [h]

/-- A token behind blanks is taken where it is. -/
theorem loop_block (hrest : c.rest = spaces n ++ d :: r) (hfresh : Fresh (d :: r))
    (hindent : indent ≤ (c.column + n : Nat)) (fuel : Nat) :
    loop (fuel + 1) (block c found (indent :: stack) key keyAllowed)
      = (block (c.advance n) found (indent :: stack) key keyAllowed).fetch d >>= loop fuel := by
  have hnext : (block c found (indent :: stack) key keyAllowed).next
      = block (c.advance n) found (indent :: stack) key keyAllowed := next_of_fresh hrest hfresh
  have hpeek : (block c found (indent :: stack) key keyAllowed).next.cursor.peek? = some d := by
    rw [hnext]
    simp [block, Cursor.peek?, Cursor.advance, hrest, length_spaces]
  have hunroll : (block (c.advance n) found (indent :: stack) key keyAllowed).unroll
      (c.advance n).column = block (c.advance n) found (indent :: stack) key keyAllowed :=
    have hnone : ∀ i ∈ ([] : List Int), (c.advance n).column < i := nofun
    unroll_block hnone hindent
  rw [loop_of_peek hpeek, hnext]
  exact congrArg (fun s : Scan => s.fetch d >>= loop fuel) hunroll

/-- One token behind blanks. -/
theorem takes_of_fetch {t : Scan} (hrest : c.rest = spaces n ++ d :: r) (hfresh : Fresh (d :: r))
    (hindent : indent ≤ (c.column + n : Nat))
    (h : (block (c.advance n) found (indent :: stack) key keyAllowed).fetch d = .ok t) :
    Takes 1 (block c found (indent :: stack) key keyAllowed) t := fun fuel => by
  rw [loop_block hrest hfresh hindent, h]
  rfl

/-- One token where the scan stands. -/
theorem takes_here {t : Scan} (hrest : c.rest = d :: r) (hfresh : Fresh (d :: r))
    (hindent : indent ≤ c.column)
    (h : (block c found (indent :: stack) key keyAllowed).fetch d = .ok t) :
    Takes 1 (block c found (indent :: stack) key keyAllowed) t :=
  have hnone : c.rest = spaces 0 ++ d :: r := hrest
  takes_of_fetch hnone hfresh hindent h

/-! ## Waiting -/

/-- Inside a collection with some tokens found, the scan goes on with the lines given. What has been
opened further in is closed by their first token. -/
def Waits (s : Scan) (lines : List Char) (indent : Int) (outer : List Int) (found : List Token) :
    Prop :=
  ∃ (c : Cursor) (before : List Token) (inner : List Int) (key : Option PossibleKey),
    s.next = block c before (inner ++ indent :: outer) key true
      ∧ lines = spaces c.column ++ c.rest ∧ Fresh c.rest
      ∧ (∀ i ∈ inner, indent < i) ∧ found = List.replicate inner.length .blockEnd ++ before
      ∧ Free key ∧ ∀ k, key = some k → k.line < c.line

theorem spaces_append_inj {m n : Nat} {r r' : List Char} (hr : Clear r) (hr' : Clear r')
    (h : spaces m ++ r = spaces n ++ r') : m = n ∧ r = r' := by
  have htake : ∀ {k : Nat} {r : List Char}, Clear r →
      (spaces k ++ r).takeWhile (· = ' ') = spaces k := fun hr =>
    takeWhile_append (fun d hd => by simp [mem_spaces hd]) (fun d hd => by simp [(hr d hd).1])
  have heq := congrArg (List.takeWhile (· = ' ')) h
  rw [htake hr, htake hr'] at heq
  have hlength := congrArg List.length heq
  rw [length_spaces, length_spaces] at hlength
  subst hlength
  exact ⟨rfl, List.append_cancel_left h⟩

/-- A scan at the end of a line. -/
theorem waits_of_break {index line column i : Nat} {outer : List Int} (h : Falls lines i)
    (hfree : Free key) (hline : ∀ k, key = some k → k.line ≤ line) :
    Waits (block ⟨'\n' :: lines, index, line, column⟩ found (i :: outer) key keyAllowed) lines i
      outer found := by
  obtain ⟨n, r, rfl, hr, hn⟩ := h
  refine ⟨⟨r, index + 1 + n, line + 1, n⟩, found, [], key, ?_, rfl, hr, nofun, rfl, hfree,
    fun k hk => Nat.lt_succ_of_le (hline k hk)⟩
  exact next_of_break rfl hr rfl

/-- A scan that has already met its next token. -/
theorem waits_of_fresh {index line column i : Nat} {outer : List Int} (hr : Fresh r)
    (hfree : Free key) (hline : ∀ k, key = some k → k.line < line) :
    Waits (block ⟨r, index, line, column⟩ found (i :: outer) key true) (spaces column ++ r) i
      outer found := by
  have hrest : (block ⟨r, index, line, column⟩ found ((i : Int) :: outer) key true).cursor.rest
      = spaces 0 ++ r := rfl
  exact ⟨⟨r, index, line, column⟩, found, [], key, next_of_fresh hrest hr, rfl, hr, nofun, rfl,
    hfree, hline⟩

namespace Waits

variable {outer : List Int} {s : Scan}

/-- Lines that are indented less end the collection. -/
theorem leave {inside : Int} (h : Waits s lines inside (indent :: outer) found)
    (hlt : indent < inside) : Waits s lines indent outer (.blockEnd :: found) := by
  obtain ⟨c, before, inner, key, hnext, hlines, hfresh, hinner, hfound, hkey⟩ := h
  refine ⟨c, before, inner ++ [inside], key, ?_, hlines, hfresh, ?_, ?_, hkey⟩
  · rw [hnext, List.append_assoc]
    rfl
  · intro i hi
    rcases List.mem_append.mp hi with hi | hi
    · exact Int.lt_trans hlt (hinner i hi)
    · rw [List.mem_singleton.mp hi]
      exact hlt
  · rw [hfound, List.length_append, List.length_singleton, List.replicate_succ, List.cons_append]

/-- The next token is taken at the indentation of the collection. -/
theorem loop {i : Nat} (h : Waits s (spaces i ++ d :: r) i outer found) (hfresh : Fresh (d :: r)) :
    ∃ (c : Cursor) (key : Option PossibleKey), c.rest = d :: r ∧ c.column = i
      ∧ Free key ∧ (∀ k, key = some k → k.line < c.line)
      ∧ ∀ fuel, Scan.loop (fuel + 1) s
          = (block c found (i :: outer) key true).fetch d >>= Scan.loop fuel := by
  obtain ⟨c, before, inner, key, hnext, hlines, hfresh', hinner, rfl, hfree, hline⟩ := h
  obtain ⟨hcolumn, hrest⟩ := spaces_append_inj hfresh.clear hfresh'.clear hlines
  have hpeek : s.next.cursor.peek? = some d := by
    rw [hnext]
    exact congrArg List.head? hrest.symm
  refine ⟨c, key, hrest.symm, hcolumn.symm, hfree, hline, fun fuel => ?_⟩
  have hunroll : (block c before (inner ++ (i : Int) :: outer) key true).unroll c.column
      = block c (List.replicate inner.length .blockEnd ++ before) (i :: outer) key true := by
    refine unroll_block (fun j hj => ?_) (by omega)
    have hlt := hinner j hj
    omega
  rw [loop_of_peek hpeek, hnext]
  exact congrArg (fun s : Scan => s.fetch d >>= Scan.loop fuel) hunroll

end Waits

end

end Scan

end RepoSelect.Yaml
