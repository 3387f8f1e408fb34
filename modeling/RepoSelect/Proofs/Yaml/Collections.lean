import RepoSelect.Proofs.Yaml.Scalar

/-!
# Collections are read back as their tokens

What the printer writes is scanned to the tokens of the value (`Value.tokens`): block collections
have a start and an end, except for a sequence at the indentation of its key, and each key and value
has a mark. The proof follows the printer. Behind a mark the scan takes the tokens of the value
(`TakesValue`) and then waits for the lines that follow at the indentation of the collection. The
first entry of a collection opens it and the further ones stay inside (`Opens`); they are otherwise
alike (`takes_item`, `takes_entry`).
-/

namespace RepoSelect.Yaml

open Printer (form isSimpleKey spaces keyPart)

/-- The style of a key. -/
def keyStyle (k : String) : ScalarStyle := (form (isSimpleKey k) k).style

mutual

/-- The tokens of a value, `indentless` for one whose sequence has no indentation of its own. -/
def Value.tokens (indentless : Bool) : Value → List Token
  | .null => [.scalar "null" .plain]
  | .bool b => [.scalar (toString b) .plain]
  | .text s => [.scalar s (form false s).style]
  | .list [] => [.flowSequenceStart, .flowSequenceEnd]
  | .table [] => [.flowMappingStart, .flowMappingEnd]
  | .list (v :: vs) =>
    let items := .blockEntry :: (v.tokens false ++ itemTokens vs)
    if indentless then items else .blockSequenceStart :: (items ++ [.blockEnd])
  | .table ((k, v) :: es) =>
    .blockMappingStart :: .key :: .scalar k (keyStyle k) :: .value
      :: (v.tokens (isSimpleKey k) ++ entryTokens es ++ [.blockEnd])

def itemTokens : List Value → List Token
  | [] => []
  | v :: vs => .blockEntry :: (v.tokens false ++ itemTokens vs)

def entryTokens : List (String × Value) → List Token
  | [] => []
  | (k, v) :: es =>
    .key :: .scalar k (keyStyle k) :: .value :: (v.tokens (isSimpleKey k) ++ entryTokens es)

end

namespace Scan

variable {s : Scan} {lines r : List Char} {d : Char} {i j n column : Nat} {p : Int}
  {outer outer' : List Int} {found found' : List Token} {key : Option PossibleKey}
  {keyAllowed : Bool}

/-! ## Where tokens start -/

/-- The scan goes on with the token that is given, at a column inside the collections given. -/
def Starts (s : Scan) (r : List Char) (column : Nat) (stack : List Int) (found : List Token) :
    Prop :=
  ∃ (index line : Nat) (key : Option PossibleKey), Free key ∧ (∀ k, key = some k → k.line < line)
    ∧ ∀ d t, r.head? = some d →
        (block ⟨r, index, line, column⟩ found stack key true).fetch d = .ok t → Takes 1 s t

theorem takes_of_loop {t : Scan} {result : Result} (hresult : result = .ok t)
    (h : ∀ fuel, loop (fuel + 1) s = result >>= loop fuel) : Takes 1 s t := fun fuel => by
  rw [h, hresult]
  rfl

theorem Waits.starts (h : Waits s (spaces i ++ d :: r) i outer found) (hfresh : Fresh (d :: r)) :
    Starts s (d :: r) i (i :: outer) found := by
  obtain ⟨⟨rest, index, line, column⟩, key, hrest, hcolumn, hfree, hline, hloop⟩ := h.loop hfresh
  obtain rfl : rest = d :: r := hrest
  obtain rfl : column = i := hcolumn
  refine ⟨index, line, key, hfree, hline, fun e t he hfetch => ?_⟩
  obtain rfl := Option.some.inj he
  exact takes_of_loop hfetch hloop

theorem starts_behind_spaces (hfresh : Fresh (d :: r)) (hj : j = column + n) (hp : p ≤ j)
    (index line : Nat) :
    Starts (block ⟨spaces n ++ d :: r, index, line, column⟩ found (p :: outer) none true) (d :: r)
      j (p :: outer) found := by
  subst hj
  have hadvance : (⟨spaces n ++ d :: r, index, line, column⟩ : Cursor).advance n
      = ⟨d :: r, index + n, line, column + n⟩ := by
    have hadvance := Cursor.advance_append (spaces n) (d :: r) index line column
    rwa [length_spaces] at hadvance
  refine ⟨index + n, line, none, free_none, nofun, fun e t he hfetch => ?_⟩
  obtain rfl := Option.some.inj he
  rw [← hadvance] at hfetch
  exact takes_of_fetch rfl hfresh hp hfetch

theorem starts_behind_break (hfresh : Fresh (d :: r)) (hp : p ≤ j) (index line column : Nat) :
    Starts (block ⟨'\n' :: (spaces j ++ d :: r), index, line, column⟩ found (p :: outer) none
      keyAllowed) (d :: r) j (p :: outer) found := by
  have hnext : (block ⟨'\n' :: (spaces j ++ d :: r), index, line, column⟩ found (p :: outer) none
      keyAllowed).next = block ⟨d :: r, index + 1 + j, line + 1, j⟩ found (p :: outer) none true :=
    next_of_break rfl hfresh rfl
  have hnone : ∀ i ∈ ([] : List Int), (j : Int) < i := nofun
  have hunroll : (block ⟨d :: r, index + 1 + j, line + 1, j⟩ found (p :: outer) none true).unroll j
      = block ⟨d :: r, index + 1 + j, line + 1, j⟩ found (p :: outer) none true :=
    unroll_block hnone hp
  refine ⟨index + 1 + j, line + 1, none, free_none, nofun, fun e t he hfetch => ?_⟩
  obtain rfl := Option.some.inj he
  refine takes_of_loop hfetch fun fuel => ?_
  rw [loop_of_peek (by rw [hnext]; rfl), hnext]
  exact congrArg (fun s : Scan => s.fetch d >>= loop fuel) hunroll

/-! ## Opening a collection -/

/-- An entry at a column is inside a collection there, or it opens one with the token `start`. -/
def Opens (p : Int) (outer : List Int) (column : Nat) (start : Token) (found : List Token)
    (outer' : List Int) (found' : List Token) : Prop :=
  (p = column ∧ outer' = outer ∧ found' = found)
    ∨ (p < column ∧ outer' = p :: outer ∧ found' = start :: found)

theorem Opens.le {start : Token} (h : Opens p outer column start found outer' found') :
    p ≤ column := by
  rcases h with ⟨h, -, -⟩ | ⟨h, -, -⟩ <;> omega

theorem Opens.roll {start : Token} (h : Opens p outer column start found outer' found')
    (inside : List Token) (c : Cursor) :
    (block c (inside ++ found) (p :: outer) key keyAllowed).roll column found.length start
      = block c (inside ++ found') (column :: outer') key keyAllowed := by
  rcases h with ⟨rfl, rfl, rfl⟩ | ⟨hlt, rfl, rfl⟩
  · exact roll_block_of_le _ _ (Int.le_refl _)
  · exact roll_block_of_lt inside start hlt

/-! ## Marks -/

section

variable {c : Cursor}

theorem ahead?_one (hrest : c.rest = d :: r) : c.ahead? 1 = r.head? := by
  rw [Cursor.ahead?, hrest, List.head?_eq_getElem?]
  rfl

theorem fetch_blockEntry (hrest : c.rest = '-' :: r) (hends : endsWord r.head? = true)
    (hfree : Free key) (hopens : Opens p outer c.column .blockSequenceStart found outer' found') :
    (block c found (p :: outer) key true).fetch '-'
      = .ok (block (c.advance 1) (.blockEntry :: found') (c.column :: outer') none true) := by
  have hdocument : c.atDocumentMark = false := by
    cases r with
    | nil => simp [Cursor.atDocumentMark, hrest]
    | cons d r =>
      have hd : d ≠ '-' := by
        rintro rfl
        simp [endsWord, isSpaceOrTab, isBreak] at hends
      simp [Cursor.atDocumentMark, hrest, hd]
  have hfetch : (block c found (p :: outer) key true).fetch '-'
      = (block c found (p :: outer) key true).blockEntry := by
    unfold fetch
    simp [block, hdocument, ahead?_one hrest, hends]
  have hroll : (block c found (p :: outer) key true).roll
      (block c found (p :: outer) key true).cursor.column
      (block c found (p :: outer) key true).count .blockSequenceStart
      = block c found' (c.column :: outer') key true := hopens.roll [] c
  rw [hfetch]
  unfold blockEntry
  rw [hroll]
  simp only [dropKey_block hfree, bind, Except.bind]
  rfl

theorem fetch_keyMark (hrest : c.rest = '?' :: r) (hends : endsWord r.head? = true)
    (hfree : Free key) (hopens : Opens p outer c.column .blockMappingStart found outer' found') :
    (block c found (p :: outer) key true).fetch '?'
      = .ok (block (c.advance 1) (.key :: found') (c.column :: outer') none true) := by
  have hdocument : c.atDocumentMark = false := by simp [Cursor.atDocumentMark, hrest]
  have hfetch : (block c found (p :: outer) key true).fetch '?'
      = (block c found (p :: outer) key true).keyMark := by
    unfold fetch
    simp [block, hdocument, ahead?_one hrest, hends]
  have hroll : (block c found (p :: outer) key true).roll
      (block c found (p :: outer) key true).cursor.column
      (block c found (p :: outer) key true).count .blockMappingStart
      = block c found' (c.column :: outer') key true := hopens.roll [] c
  rw [hfetch]
  unfold keyMark
  rw [hroll]
  simp only [dropKey_block hfree, bind, Except.bind]
  rfl

theorem fetch_colon (hrest : c.rest = ':' :: r) (hends : endsWord r.head? = true)
    (stack : List Int) : (block c found stack key keyAllowed).fetch ':'
      = (block c found stack key keyAllowed).valueMark := by
  have hdocument : c.atDocumentMark = false := by simp [Cursor.atDocumentMark, hrest]
  unfold fetch
  simp [block, hdocument, ahead?_one hrest, hends]

/-- With a possible key the colon may end it. -/
theorem valueMark_block (k : PossibleKey) (stack : List Int) :
    (block c found stack (some k) keyAllowed).valueMark
      = if k.reaches c then
          let s := ((block c found stack (some k) keyAllowed).insertAt k.place .key).roll k.column
            k.place .blockMappingStart
          .ok ((({ s.setKey none with keyAllowed := false } : Scan).move 1).push .value)
        else if k.required then .error "could not find expected ':'"
        else valueMark.behindComplexKey (block c found stack none keyAllowed) fun s =>
          (s.move 1).push .value := rfl

/-- The colon behind a key on its line; the mark of the key goes in front of it. -/
theorem fetch_value (c start : Cursor) {t : Token} (hrest : c.rest = ':' :: r)
    (hends : endsWord r.head? = true) (hline : c.line = start.line)
    (hindex : c.index ≤ start.index + 1024)
    (hopens : Opens p outer start.column .blockMappingStart found outer' found') :
    (block c (t :: found) (p :: outer) (some (keyAt start found p)) keyAllowed).fetch ':'
      = .ok (block (c.advance 1) (.value :: t :: .key :: found') (start.column :: outer') none
          false) := by
  have hreaches : (keyAt start found p).reaches c = true := by
    simp [PossibleKey.reaches, keyAt, hline, hindex]
  have hinsert : (block c (t :: found) (p :: outer) (some (keyAt start found p))
        keyAllowed).insertAt (keyAt start found p).place .key
      = block c (t :: .key :: found) (p :: outer) (some (keyAt start found p)) keyAllowed :=
    insertAt_block [t] .key
  have hroll : (block c (t :: .key :: found) (p :: outer) (some (keyAt start found p))
      keyAllowed).roll (keyAt start found p).column (keyAt start found p).place .blockMappingStart
      = block c (t :: .key :: found') (start.column :: outer') (some (keyAt start found p))
          keyAllowed := hopens.roll [t, .key] c
  rw [fetch_colon hrest hends, valueMark_block, if_pos hreaches, hinsert, hroll]
  rfl

/-- The colon behind a key that has a mark of its own. -/
theorem fetch_value_of_marked (hrest : c.rest = ':' :: r) (hends : endsWord r.head? = true)
    (hfree : Free key) (hline : ∀ k, key = some k → k.line < c.line) :
    (block c found (c.column :: outer) key true).fetch ':'
      = .ok (block (c.advance 1) (.value :: found) (c.column :: outer) none true) := by
  have hroll : (block c found (c.column :: outer) none true).roll c.column found.length
      .blockMappingStart = block c found (c.column :: outer) none true :=
    roll_block_of_le _ _ (Int.le_refl _)
  have hbehind : valueMark.behindComplexKey (block c found (c.column :: outer) none true)
      (fun s => (s.move 1).push .value)
      = .ok (block (c.advance 1) (.value :: found) (c.column :: outer) none true) := by
    unfold valueMark.behindComplexKey
    rw [if_neg (by simp [block])]
    exact congrArg (fun s : Scan =>
      Except.ok ((({ s with keyAllowed := !s.inFlow } : Scan).move 1).push .value)) hroll
  rw [fetch_colon hrest hends]
  cases key with
  | none => exact hbehind
  | some k =>
    have hreaches : k.reaches c = false := by
      have hlt := hline k rfl
      simp [PossibleKey.reaches, Nat.ne_of_lt hlt]
    rw [valueMark_block, hreaches, hfree k rfl]
    exact hbehind

end

/-! ## Flow collections -/

/-- A scan inside one flow collection. -/
def flow (c : Cursor) (found : List Token) (stack : List Int) (key : Option PossibleKey) : Scan :=
  ⟨c, found, found.length, stack.headD (-1), stack.drop 1, [none, key], true⟩

/-- The brackets of a flow collection with their tokens. -/
inductive Brackets : Char → Char → Token → Token → Prop
  | square : Brackets '[' ']' .flowSequenceStart .flowSequenceEnd
  | curly : Brackets '\x7b' '\x7d' .flowMappingStart .flowMappingEnd

section

variable {left right : Char} {start stop : Token}

theorem fetch_left (h : Brackets left right start stop) (hfree : Free key) (r : List Char)
    (index line column : Nat) :
    let c : Cursor := ⟨left :: r, index, line, column⟩
    (block c found (p :: outer) key keyAllowed).fetch left
      = .ok (flow ⟨r, index + 1, line, column + 1⟩ (start :: found) (p :: outer)
          (saved c found p key keyAllowed)) := by
  intro c
  have hdocument : c.atDocumentMark = false := by
    cases h <;> simp [c, Cursor.atDocumentMark]
  have hfetch : (block c found (p :: outer) key keyAllowed).fetch left
      = (block c found (p :: outer) key keyAllowed).flowStart start := by
    cases h <;> simp [fetch, block, hdocument]
  rw [hfetch]
  unfold flowStart
  simp only [saveKey_block hfree, bind, Except.bind]
  rfl

theorem takes_right (h : Brackets left right start stop) (r : List Char) (index line column : Nat)
    (stack : List Int) (key : Option PossibleKey) :
    Takes 1 (flow ⟨right :: r, index, line, column⟩ found stack key)
      (block ⟨r, index + 1, line, column + 1⟩ (stop :: found) stack key false) := by
  intro fuel
  have hfresh : Fresh (right :: r) := by
    cases h <;> exact fresh_of_mark (by decide) (by decide) r
  have hrest : (flow ⟨right :: r, index, line, column⟩ found stack key).cursor.rest
      = spaces 0 ++ right :: r := rfl
  have hnext : (flow ⟨right :: r, index, line, column⟩ found stack key).next
      = flow ⟨right :: r, index, line, column⟩ found stack key := next_of_fresh hrest hfresh
  have hunroll : (flow ⟨right :: r, index, line, column⟩ found stack key).unroll column
      = flow ⟨right :: r, index, line, column⟩ found stack key := by
    simp [unroll, flow, inFlow]
  have hfetch : (flow ⟨right :: r, index, line, column⟩ found stack key).fetch right
      = .ok (block ⟨r, index + 1, line, column + 1⟩ (stop :: found) stack key false) := by
    have hdocument : (⟨right :: r, index, line, column⟩ : Cursor).atDocumentMark = false := by
      cases h <;> simp [Cursor.atDocumentMark]
    have hend : (flow ⟨right :: r, index, line, column⟩ found stack key).fetch right
        = (flow ⟨right :: r, index, line, column⟩ found stack key).flowEnd stop := by
      cases h <;> simp [fetch, flow, hdocument]
    rw [hend]
    rfl
  rw [loop_of_peek (by rw [hnext]; rfl), hnext]
  refine (congrArg (fun s : Scan => s.fetch right >>= loop fuel) hunroll).trans ?_
  rw [hfetch]
  rfl

/-- An empty collection is two tokens. -/
theorem takes_empty (h : Brackets left right start stop) (hlines : Falls lines i)
    (hcolumn : i ≤ column) (index line : Nat) :
    ∃ t, Takes 2 (block ⟨' ' :: (Printer.line [left, right] ++ lines), index, line, column⟩ found
        (i :: outer) none keyAllowed) t
      ∧ Waits t lines i outer (stop :: start :: found) := by
  have hline : Printer.line [left, right] ++ lines = left :: right :: '\n' :: lines := by
    cases h <;> simp [Printer.line, isBreak]
  have hfresh : Fresh (left :: right :: '\n' :: lines) := by
    cases h <;> exact fresh_of_mark (by decide) (by decide) _
  have hnone : ∀ k, (none : Option PossibleKey) = some k → k.line ≤ line := fun k hk => by
    cases hk
  rw [hline]
  refine ⟨_, (takes_behind_space hfresh hcolumn (fetch_left h free_none _ _ line _)).trans
    (takes_right h _ _ line _ _ _), ?_⟩
  exact waits_of_break hlines (free_saved free_none (by simp only; omega)) (line_saved hnone)

end

/-! ## Values, items and entries -/

/-- The tokens of a value are taken behind its mark, up to the lines that follow. -/
def TakesValue (v : Value) : Prop :=
  ∀ {i column : Nat} {inTable keyAllowed : Bool} {lines : List Char} {outer : List Int}
    {found : List Token} (index line : Nat), Falls lines i → i < column →
    (inTable = false → column = i + 1 ∧ keyAllowed = true) →
    ∃ n t, n ≤ (Printer.value i inTable v).length
      ∧ Takes n (block ⟨Printer.value i inTable v ++ lines, index, line, column⟩ found (i :: outer)
          none keyAllowed) t
      ∧ Waits t lines i outer ((v.tokens inTable).reverse ++ found)

def TakesItems (vs : List Value) : Prop :=
  ∀ {s : Scan} {i : Nat} {lines : List Char} {outer : List Int} {found : List Token},
    Waits s (Printer.items i vs ++ lines) i outer found → Falls lines i →
    ∃ n t, n ≤ (Printer.items i vs).length ∧ Takes n s t
      ∧ Waits t lines i outer ((itemTokens vs).reverse ++ found)

def TakesEntries (es : List (String × Value)) : Prop :=
  ∀ {s : Scan} {i : Nat} {lines : List Char} {outer : List Int} {found : List Token},
    Waits s (Printer.entries i es ++ lines) i outer found → Falls lines i →
    ∃ n t, n ≤ (Printer.entries i es).length ∧ Takes n s t
      ∧ Waits t lines i outer ((entryTokens es).reverse ++ found)

/-- Behind the mark of a value there is a space or a break. -/
theorem endsWord_value (i : Nat) (inTable : Bool) (v : Value) (rest : List Char) :
    endsWord (Printer.value i inTable v ++ rest).head? = true := by
  match v with
  | .null | .bool true | .bool false | .text s | .list [] | .table [] => rfl
  | .list (v :: vs) | .table ((k, v) :: es) => cases inTable <;> rfl

/-- An item of a sequence, the first one or a further one. -/
theorem takes_item {v : Value} (hv : TakesValue v)
    (hs : Starts s ('-' :: (Printer.value j false v ++ lines)) j (p :: outer) found)
    (hopens : Opens p outer j .blockSequenceStart found outer' found') (hlines : Falls lines j) :
    ∃ n t, n ≤ (Printer.value j false v).length + 1 ∧ Takes n s t
      ∧ Waits t lines j outer' ((v.tokens false).reverse ++ .blockEntry :: found') := by
  obtain ⟨index, line, key, hfree, -, hs⟩ := hs
  have hmark := hs '-' _ rfl
    (fetch_blockEntry rfl (endsWord_value j false v lines) hfree hopens)
  obtain ⟨n, t, hn, htakes, hwaits⟩ := hv (index + 1) line hlines (Nat.lt_succ_self j)
    fun _ => ⟨rfl, rfl⟩
  exact ⟨1 + n, t, by omega, hmark.trans htakes, hwaits⟩

theorem fresh_scalar (indent : Nat) (simpleKey : Bool) (x : String) (rest : List Char) :
    Fresh (Printer.scalar indent simpleKey x ++ rest) := by
  cases hform : form simpleKey x with
  | plain =>
    rw [Printer.scalar_plain hform]
    exact (Printer.bare_of_plain hform).fresh rest
  | singleQuoted =>
    rw [Printer.scalar_singleQuoted hform]
    exact fresh_mark true _
  | doubleQuoted =>
    rw [Printer.scalar_doubleQuoted hform]
    exact fresh_mark false _
  | literal =>
    rw [Printer.scalar_literal hform]
    exact fresh_of_mark (by decide) (by decide) _

theorem fresh_keyPart (indent : Nat) (k : String) (rest : List Char) :
    Fresh (keyPart indent k ++ rest) := by
  unfold keyPart
  split
  · rw [List.append_assoc]
    exact fresh_scalar indent true k _
  · exact fresh_of_mark (by decide) (by decide) _

theorem exists_head_keyPart (indent : Nat) (k : String) (rest : List Char) :
    ∃ d r, keyPart indent k ++ rest = d :: r ∧ Fresh (d :: r) := by
  have hfresh := fresh_keyPart indent k rest
  cases hcode : keyPart indent k ++ rest with
  | nil =>
    unfold keyPart at hcode
    split at hcode <;> simp at hcode
  | cons d r => exact ⟨d, r, rfl, hcode ▸ hfresh⟩

/-- An entry whose key stands on the line of its value. -/
theorem takes_simple_entry {k : String} {v : Value} (hk : isSimpleKey k = true)
    (hv : TakesValue v)
    (hs : Starts s (Printer.scalar j true k ++ ':' :: (Printer.value j true v ++ lines)) j
      (p :: outer) found)
    (hopens : Opens p outer j .blockMappingStart found outer' found') (hlines : Falls lines j) :
    ∃ n t, n ≤ (Printer.scalar j true k).length + 1 + (Printer.value j true v).length
      ∧ Takes n s t ∧ Waits t lines j outer' ((v.tokens true).reverse
        ++ .value :: .scalar k (form true k).style :: .key :: found') := by
  obtain ⟨index, line, key, hfree, -, hs⟩ := hs
  obtain ⟨d, r, hcode, hfresh, hpos, hshort, hfetch⟩ := fetch_key hk
    (endsWord_value j true v lines) hfree j index line hopens.le
  rw [hcode] at hs
  have hkey := hs d _ rfl hfetch
  generalize (Printer.scalar j true k).length = length at *
  have hcolon : Fresh (':' :: (Printer.value j true v ++ lines)) :=
    fresh_of_mark (by decide) (by decide) _
  have hle := hopens.le
  have hinside : p ≤ (j + length : Nat) := by omega
  have hmark : Takes 1 (block ⟨':' :: (Printer.value j true v ++ lines), index + length, line,
      j + length⟩ (.scalar k (form true k).style :: found) (p :: outer)
      (some (keyAt ⟨d :: r, index, line, j⟩ found p)) false) _ := takes_here rfl hcolon hinside
    (fetch_value ⟨_, index + length, line, j + length⟩ ⟨d :: r, index, line, j⟩ rfl
      (endsWord_value j true v lines) rfl (Nat.add_le_add_left hshort index) hopens)
  have hdeeper : j < j + length + 1 := by omega
  have hinTable : true = false → j + length + 1 = j + 1 ∧ false = true := nofun
  obtain ⟨n, t, hn, htakes, hwaits⟩ := hv (index + length + 1) line hlines hdeeper hinTable
  exact ⟨1 + (1 + n), t, by omega, hkey.trans (hmark.trans htakes), hwaits⟩

/-- An entry whose key has a mark and lines of its own. -/
theorem takes_marked_entry (k : String) {v : Value} (hv : TakesValue v)
    (hs : Starts s ('?' :: ' ' :: (Printer.line (Printer.scalar j false k)
      ++ (spaces j ++ ':' :: (Printer.value j false v ++ lines)))) j (p :: outer) found)
    (hopens : Opens p outer j .blockMappingStart found outer' found') (hlines : Falls lines j) :
    ∃ n t, n ≤ 3 + (Printer.value j false v).length ∧ Takes n s t
      ∧ Waits t lines j outer' ((v.tokens false).reverse
        ++ .value :: .scalar k (form false k).style :: .key :: found') := by
  obtain ⟨index, line, key, hfree, -, hs⟩ := hs
  have hmark := hs '?' _ rfl (fetch_keyMark rfl rfl hfree hopens)
  have hcolon : Fresh (':' :: (Printer.value j false v ++ lines)) :=
    fresh_of_mark (by decide) (by decide) _
  obtain ⟨t, hkey, hwaits⟩ : ∃ t, Takes 1 (block ⟨' ' :: (Printer.line (Printer.scalar j false k)
        ++ (spaces j ++ ':' :: (Printer.value j false v ++ lines))), index + 1, line, j + 1⟩
        (.key :: found') (j :: outer') none true) t
      ∧ Waits t (spaces j ++ ':' :: (Printer.value j false v ++ lines)) j outer'
        (.scalar k (form false k).style :: .key :: found') :=
    takes_text k (falls_of_fresh hcolon j) (Nat.le_succ j) (index + 1) line
  obtain ⟨index', line', key', hfree', hline', ht⟩ := hwaits.starts hcolon
  have hvalue := ht ':' _ rfl
    (fetch_value_of_marked rfl (endsWord_value j false v lines) hfree' hline')
  obtain ⟨n, u, hn, htakes, hwaits⟩ := hv (index' + 1) line' hlines (Nat.lt_succ_self j)
    fun _ => ⟨rfl, rfl⟩
  exact ⟨1 + (1 + (1 + n)), u, by omega, hmark.trans (hkey.trans (hvalue.trans htakes)), hwaits⟩

/-- An entry of a table, the first one or a further one. -/
theorem takes_entry {k : String} {v : Value} (hv : TakesValue v)
    (hs : Starts s (keyPart j k ++ (Printer.value j (isSimpleKey k) v ++ lines)) j (p :: outer)
      found)
    (hopens : Opens p outer j .blockMappingStart found outer' found') (hlines : Falls lines j) :
    ∃ n t, n ≤ (keyPart j k).length + (Printer.value j (isSimpleKey k) v).length ∧ Takes n s t
      ∧ Waits t lines j outer' ((v.tokens (isSimpleKey k)).reverse
        ++ .value :: .scalar k (keyStyle k) :: .key :: found') := by
  unfold keyStyle
  unfold keyPart at hs ⊢
  cases hk : isSimpleKey k with
  | true =>
    rw [hk] at hs
    simp only [if_true, List.append_assoc, List.singleton_append, List.length_append,
      List.length_singleton] at hs ⊢
    exact takes_simple_entry hk hv hs hopens hlines
  | false =>
    rw [hk] at hs
    simp only [Bool.false_eq_true, if_false, List.append_assoc, List.cons_append, List.nil_append,
      List.length_append, List.length_cons] at hs ⊢
    obtain ⟨n, t, hn, htakes, hwaits⟩ := takes_marked_entry k hv hs hopens hlines
    exact ⟨n, t, by omega, htakes, hwaits⟩

/-! ## Whole collections -/

theorem falls_items {vs : List Value} (hlines : Falls lines j) :
    Falls (Printer.items j vs ++ lines) j := by
  cases vs with
  | nil => exact hlines
  | cons v vs =>
    rw [Printer.items, List.append_assoc, List.append_assoc]
    exact falls_of_fresh (fresh_of_mark (by decide) (by decide) _) j

theorem falls_entries {es : List (String × Value)} (hlines : Falls lines j) :
    Falls (Printer.entries j es ++ lines) j := by
  cases es with
  | nil => exact hlines
  | cons e es =>
    rw [Printer.entries, List.append_assoc, List.append_assoc, List.append_assoc]
    exact falls_of_fresh (fresh_keyPart j e.1 _) j

theorem takesItems_nil : TakesItems [] :=
  fun hwaits _ => ⟨0, _, Nat.zero_le _, fun _ => rfl, hwaits⟩

theorem takesEntries_nil : TakesEntries [] := fun hwaits _ =>
  ⟨0, _, Nat.zero_le _, fun _ => rfl, hwaits⟩

theorem takesItems_cons {v : Value} {vs : List Value} (hv : TakesValue v) (hvs : TakesItems vs) :
    TakesItems (v :: vs) := by
  intro s i lines outer found hwaits hlines
  have hprinted : Printer.items i (v :: vs) ++ lines
      = spaces i ++ '-' :: (Printer.value i false v ++ (Printer.items i vs ++ lines)) := by
    simp [Printer.items]
  rw [hprinted] at hwaits
  have hstarts := hwaits.starts (fresh_of_mark (by decide) (by decide) _)
  obtain ⟨m, t, hm, htakes, hwaits⟩ := takes_item hv hstarts (.inl ⟨rfl, rfl, rfl⟩)
    (falls_items hlines)
  obtain ⟨n, u, hn, htakes', hwaits'⟩ := hvs hwaits hlines
  refine ⟨m + n, u, ?_, htakes.trans htakes', ?_⟩
  · simp only [Printer.items, List.length_append, List.length_cons, length_spaces]
    omega
  · simpa [itemTokens] using hwaits'

theorem takesEntries_cons {k : String} {v : Value} {es : List (String × Value)}
    (hv : TakesValue v) (hes : TakesEntries es) : TakesEntries ((k, v) :: es) := by
  intro s i lines outer found hwaits hlines
  have hprinted : Printer.entries i ((k, v) :: es) ++ lines
      = spaces i ++ (keyPart i k ++ (Printer.value i (isSimpleKey k) v
          ++ (Printer.entries i es ++ lines))) := by
    simp [Printer.entries]
  rw [hprinted] at hwaits
  have hstarts : Starts s (keyPart i k ++ (Printer.value i (isSimpleKey k) v
      ++ (Printer.entries i es ++ lines))) i (i :: outer) found := by
    obtain ⟨d, r, hcode, hfresh⟩ := exists_head_keyPart i k (Printer.value i (isSimpleKey k) v
      ++ (Printer.entries i es ++ lines))
    rw [hcode] at hwaits ⊢
    exact hwaits.starts hfresh
  obtain ⟨m, t, hm, htakes, hwaits⟩ := takes_entry hv hstarts (.inl ⟨rfl, rfl, rfl⟩)
    (falls_entries hlines)
  obtain ⟨n, u, hn, htakes', hwaits'⟩ := hes hwaits hlines
  refine ⟨m + n, u, ?_, htakes.trans htakes', ?_⟩
  · simp only [Printer.entries, List.length_append, length_spaces]
    omega
  · simpa [entryTokens] using hwaits'

theorem takesValue_bare {v : Value} {w : List Char} (hs : Printer.Bare w)
    (hprinted : ∀ i inTable, Printer.value i inTable v = ' ' :: Printer.line w)
    (htokens : ∀ indentless, v.tokens indentless = [.scalar (.ofList w) .plain]) :
    TakesValue v := by
  intro i column inTable keyAllowed lines outer found index line hlines hcolumn _
  rw [hprinted, htokens]
  obtain ⟨t, htakes, hwaits⟩ := takes_bare hs hlines (Nat.le_of_lt hcolumn) index line
  exact ⟨1, t, Nat.succ_pos _, htakes, hwaits⟩

theorem takesValue_text (x : String) : TakesValue (.text x) := by
  intro i column inTable keyAllowed lines outer found index line hlines hcolumn _
  obtain ⟨t, htakes, hwaits⟩ := takes_text x hlines (Nat.le_of_lt hcolumn) index line
  rw [Printer.value]
  exact ⟨1, t, Nat.succ_pos _, htakes, hwaits⟩

theorem takesValue_empty {v : Value} {left right : Char} {start stop : Token}
    (h : Brackets left right start stop)
    (hprinted : ∀ i inTable, Printer.value i inTable v = ' ' :: Printer.line [left, right])
    (htokens : ∀ indentless, v.tokens indentless = [start, stop]) : TakesValue v := by
  intro i column inTable keyAllowed lines outer found index line hlines hcolumn _
  rw [hprinted, htokens]
  obtain ⟨t, htakes, hwaits⟩ := takes_empty h hlines (Nat.le_of_lt hcolumn) index line
  refine ⟨2, t, ?_, htakes, hwaits⟩
  simp [line_eq]

theorem takesValue_list {v : Value} {vs : List Value} (hv : TakesValue v) (hvs : TakesItems vs) :
    TakesValue (.list (v :: vs)) := by
  intro i column inTable keyAllowed lines outer found index line hlines hcolumn hplace
  have hdash : ∀ r, Fresh ('-' :: r) := fresh_of_mark (by decide) (by decide)
  cases inTable with
  | true =>
    have hprinted : Printer.value i true (.list (v :: vs)) ++ lines
        = '\n' :: (spaces i
          ++ '-' :: (Printer.value i false v ++ (Printer.items i vs ++ lines))) := by
      simp [Printer.value]
    rw [hprinted]
    have hstarts : Starts (block ⟨'\n' :: (spaces i ++ '-' :: (Printer.value i false v
        ++ (Printer.items i vs ++ lines))), index, line, column⟩ found (i :: outer) none keyAllowed)
        ('-' :: (Printer.value i false v ++ (Printer.items i vs ++ lines))) i (i :: outer) found :=
      starts_behind_break (hdash _) (Int.le_refl i) index line column
    obtain ⟨m, t, hm, htakes, hwaits⟩ := takes_item hv hstarts (.inl ⟨rfl, rfl, rfl⟩)
      (falls_items hlines)
    obtain ⟨n, u, hn, htakes', hwaits'⟩ := hvs hwaits hlines
    refine ⟨m + n, u, ?_, htakes.trans htakes', ?_⟩
    · simp only [Printer.value, if_true, List.length_append, List.length_cons, length_spaces]
      omega
    · simpa [Value.tokens] using hwaits'
  | false =>
    obtain ⟨rfl, rfl⟩ := hplace rfl
    have hprinted : Printer.value i false (.list (v :: vs)) ++ lines
        = spaces 1 ++ '-' :: (Printer.value (i + 2) false v
            ++ (Printer.items (i + 2) vs ++ lines)) := by
      simp [Printer.value, spaces]
    rw [hprinted]
    have hdeeper : (i : Int) < (i + 2 : Nat) := by omega
    have hlines' : Falls lines (i + 2) := hlines.mono (Nat.le_add_right i 2)
    have hstarts : Starts (block ⟨spaces 1 ++ '-' :: (Printer.value (i + 2) false v
        ++ (Printer.items (i + 2) vs ++ lines)), index, line, i + 1⟩ found (i :: outer) none true)
        ('-' :: (Printer.value (i + 2) false v ++ (Printer.items (i + 2) vs ++ lines))) (i + 2)
        (i :: outer) found :=
      starts_behind_spaces (n := 1) (hdash _) rfl (Int.le_of_lt hdeeper) index line
    obtain ⟨m, t, hm, htakes, hwaits⟩ := takes_item hv hstarts (.inr ⟨hdeeper, rfl, rfl⟩)
      (falls_items hlines')
    obtain ⟨n, u, hn, htakes', hwaits'⟩ := hvs hwaits hlines'
    refine ⟨m + n, u, ?_, htakes.trans htakes', ?_⟩
    · simp only [Printer.value, Bool.false_eq_true, if_false, List.length_append, List.length_cons]
      omega
    · simpa [Value.tokens] using hwaits'.leave hdeeper

theorem takesValue_table {k : String} {v : Value} {es : List (String × Value)} (hv : TakesValue v)
    (hes : TakesEntries es) : TakesValue (.table ((k, v) :: es)) := by
  intro i column inTable keyAllowed lines outer found index line hlines hcolumn hplace
  have hdeeper : (i : Int) < (i + 2 : Nat) := by omega
  have hlines' : Falls lines (i + 2) := hlines.mono (Nat.le_add_right i 2)
  obtain ⟨d, r, hcode, hfresh⟩ := exists_head_keyPart (i + 2) k
    (Printer.value (i + 2) (isSimpleKey k) v ++ (Printer.entries (i + 2) es ++ lines))
  have hprinted : Printer.value i inTable (.table ((k, v) :: es)) ++ lines
      = (if inTable then '\n' :: spaces (i + 2) else [' ']) ++ d :: r := by
    rw [← hcode]
    simp [Printer.value]
  have hstarts : Starts (block ⟨Printer.value i inTable (.table ((k, v) :: es)) ++ lines, index,
      line, column⟩ found (i :: outer) none keyAllowed) (d :: r) (i + 2) (i :: outer) found := by
    rw [hprinted]
    cases inTable with
    | true => exact starts_behind_break hfresh (Int.le_of_lt hdeeper) index line column
    | false =>
      obtain ⟨rfl, rfl⟩ := hplace rfl
      exact starts_behind_spaces (n := 1) hfresh rfl (Int.le_of_lt hdeeper) index line
  rw [← hcode] at hstarts
  obtain ⟨m, t, hm, htakes, hwaits⟩ := takes_entry hv hstarts (.inr ⟨hdeeper, rfl, rfl⟩)
    (falls_entries hlines')
  obtain ⟨n, u, hn, htakes', hwaits'⟩ := hes hwaits hlines'
  refine ⟨m + n, u, ?_, htakes.trans htakes', ?_⟩
  · simp only [Printer.value, List.length_append]
    omega
  · simpa [Value.tokens] using hwaits'.leave hdeeper

mutual

/-- **What the printer writes for a value is taken as the tokens of the value.** -/
theorem takesValue : ∀ v, TakesValue v
  | .null => takesValue_bare (Printer.bare_null) (fun _ _ => rfl) fun _ => rfl
  | .bool true => takesValue_bare (Printer.bare_true) (fun _ _ => rfl) fun _ => rfl
  | .bool false => takesValue_bare (Printer.bare_false) (fun _ _ => rfl) fun _ => rfl
  | .text x => takesValue_text x
  | .list [] => takesValue_empty .square (fun _ _ => rfl) fun _ => rfl
  | .table [] => takesValue_empty .curly (fun _ _ => rfl) fun _ => rfl
  | .list (v :: vs) => takesValue_list (takesValue v) (takesItems vs)
  | .table ((_, v) :: es) => takesValue_table (takesValue v) (takesEntries es)

theorem takesItems : ∀ vs, TakesItems vs
  | [] => takesItems_nil
  | v :: vs => takesItems_cons (takesValue v) (takesItems vs)

theorem takesEntries : ∀ es, TakesEntries es
  | [] => takesEntries_nil
  | (_, v) :: es => takesEntries_cons (takesValue v) (takesEntries es)

end

end Scan

end RepoSelect.Yaml
