import RepoSelect.Json.Printer
import RepoSelect.Json.Reader

/-!
# Reading what was written as JSON

A value without numbers is read back from its text (`readSigns_print`):

> reading behind `pretty depth v` gives `v` and leaves what follows, for as many steps as the
> text has characters.

What follows may be any signs, so that the text is `(pretty depth v).map some` to the reader. The
proof goes along the printer, with one lemma for each thing that it writes: an escaped
character (`stringBody_escape`), a string (`string_quoted`), and the way into an array and an
object (`value_open_array`, `value_open_object`). Blanks are only written where they are skipped.
-/

namespace RepoSelect.Json

namespace Value

mutual

/-- The value has no number in it, and every part of it can be read. -/
def isPlain : Value → Bool
  | array items => allPlain items
  | object members => membersPlain members
  | number _ | unreadable _ => false
  | _ => true

def allPlain : List Value → Bool
  | [] => true
  | v :: vs => v.isPlain && allPlain vs

def membersPlain : List (String × Value) → Bool
  | [] => true
  | (_, v) :: ms => v.isPlain && membersPlain ms

end

end Value

/-! ## Blanks -/

theorem isSpace_newline (depth : Nat) : ∀ c ∈ newline depth, isSpace (some c) = true := by
  intro c hc
  rcases List.mem_cons.mp hc with rfl | hc
  · rfl
  · rw [List.eq_of_mem_replicate hc]
    rfl

theorem skipSpace_newline (depth : Nat) (s : List Sign) :
    skipSpace ((newline depth).map some ++ s) = skipSpace s := by
  refine List.dropWhile_append_of_pos fun c hc => ?_
  obtain ⟨d, hd, rfl⟩ := List.mem_map.mp hc
  exact isSpace_newline depth d hd

theorem skipSpace_cons {c : Sign} (h : isSpace c = false) (s : List Sign) :
    skipSpace (c :: s) = c :: s := by
  rw [skipSpace, List.dropWhile_cons_of_neg (by simp [h])]

/-! ## Strings -/

theorem hexDigit?_hexDigit : ∀ n < 16, hexDigit? (hexDigit n) = some n := by
  decide

/-- What one character more does to the pieces read behind it. -/
def consChar (c : Char) : List Piece × List Sign → List Piece × List Sign :=
  fun (ps, r) => (.char c :: ps, r)

theorem stringBody_plain {c : Char} (hquote : c ≠ '"') (hslash : c ≠ '\\')
    (hctrl : ¬c.toNat < 0x20) (fuel : Nat) (s : List Sign) :
    stringBody (fuel + 1) (some c :: s) = (stringBody fuel s).map (consChar c) := by
  rw [stringBody]
  · rw [if_neg hctrl]
    simp only [bind, Except.bind]
    cases stringBody fuel s <;> rfl
  · exact hquote
  · intro _ _ _ h
    exact hslash h

theorem stringBody_letter {e c : Char} (h : letterEscape? e = some c) (hu : e ≠ 'u') (fuel : Nat)
    (s : List Sign) :
    stringBody (fuel + 1) (some '\\' :: some e :: s) = (stringBody fuel s).map (consChar c) := by
  rw [stringBody, if_neg (by simp [hu]), Option.bind_some, h]
  simp only [bind, Except.bind]
  cases stringBody fuel s <;> rfl

theorem stringBody_control {c : Char} (hctrl : c.toNat < 0x20) (fuel : Nat) (s : List Sign) :
    stringBody (fuel + 1) (some '\\' :: some 'u' :: some '0' :: some '0'
        :: some (hexDigit (c.toNat / 16)) :: some (hexDigit (c.toNat % 16)) :: s)
      = (stringBody fuel s).map (consChar c) := by
  have hzero : hexDigit? '0' = some 0 := by decide
  have hhigh := hexDigit?_hexDigit (c.toNat / 16) (by omega)
  have hlow := hexDigit?_hexDigit (c.toNat % 16) (by omega)
  have hnat : ((0 * 16 + 0) * 16 + c.toNat / 16) * 16 + c.toNat % 16 = c.toNat := by omega
  have hcode : unicodeEscape c.toNat s = .ok (.char c, s) := by
    have hpair : isHighSurrogate c.toNat = false ∧ isLowSurrogate c.toNat = false := by
      simp only [isHighSurrogate, isLowSurrogate, Bool.and_eq_false_iff, decide_eq_false_iff_not]
      omega
    simp only [unicodeEscape, hpair, Bool.false_eq_true, if_false, Char.ofNat_toNat]
  rw [stringBody, if_pos rfl]
  simp only [hex4, Option.bind_some, hzero, hhigh, hlow, hnat, hcode, Except.bind, bind]
  cases stringBody fuel s <;> rfl

theorem stringBody_escape (fuel : Nat) (c : Char) (s : List Sign) :
    stringBody (fuel + 1) ((escape c).map some ++ s) = (stringBody fuel s).map (consChar c) := by
  unfold escape
  split
  case h_8 hquote hslash _ _ _ _ _ =>
    split
    · next hctrl => exact stringBody_control hctrl fuel s
    · next hctrl => exact stringBody_plain hquote hslash hctrl fuel s
  all_goals exact stringBody_letter rfl (by decide) fuel s

theorem stringBody_quoted (cs : List Char) (r : List Sign) {fuel : Nat}
    (hfuel : cs.length < fuel) :
    stringBody fuel ((cs.flatMap escape).map some ++ some '"' :: r)
      = .ok (cs.map .char, r) := by
  induction cs generalizing fuel with
  | nil =>
    obtain ⟨n, rfl⟩ := Nat.exists_eq_succ_of_ne_zero (Nat.ne_of_gt hfuel)
    rfl
  | cons c cs ih =>
    obtain ⟨n, rfl⟩ := Nat.exists_eq_succ_of_ne_zero (Nat.ne_of_gt (Nat.zero_lt_of_lt hfuel))
    have hn : cs.length < n := by simpa using hfuel
    rw [List.flatMap_cons, List.map_append, List.append_assoc, stringBody_escape, ih hn]
    rfl

theorem length_le_length_flatMap_escape (cs : List Char) :
    cs.length ≤ (cs.flatMap escape).length := by
  induction cs with
  | nil => exact Nat.le_refl _
  | cons c cs ih =>
    have hpos : 0 < (escape c).length := by
      unfold escape
      split
      case h_8 => split <;> simp
      all_goals simp
    rw [List.flatMap_cons, List.length_append, List.length_cons]
    omega

theorem quoted_append (text : String) (r : List Sign) : (quoted text).map some ++ r
    = some '"' :: ((text.toList.flatMap escape).map some ++ some '"' :: r) := by
  simp [quoted]

theorem textOf_char (text : String) : textOf (text.toList.map .char) = .ok text := by
  have hchars : (text.toList.map Piece.char).filterMap Piece.char? = text.toList := by
    rw [List.filterMap_map]
    exact List.filterMap_some
  rw [textOf, if_neg (by simp), if_neg (by simp), hchars, String.ofList_toList]

/-- A string is read back from between its quotes. -/
theorem string_quoted (text : String) (r : List Sign) :
    string ((text.toList.flatMap escape).map some ++ some '"' :: r) = .ok (.ok text, r) := by
  have hfuel : text.toList.length
      < ((text.toList.flatMap escape).map some ++ some '"' :: r).length := by
    have hlen := length_le_length_flatMap_escape text.toList
    rw [List.length_append, List.length_map, List.length_cons]
    omega
  have hbody := stringBody_quoted text.toList r hfuel
  simp only [string, hbody, bind, Except.bind, textOf_char]

/-! ## Values -/

theorem value_congr {s s' : List Sign} (h : skipSpace s = skipSpace s') (fuel : Nat) :
    value fuel s = value fuel s' := by
  rw [value.eq_def, value.eq_def, h]

theorem value_newline (depth fuel : Nat) (s : List Sign) :
    value fuel ((newline depth).map some ++ s) = value fuel s :=
  value_congr (skipSpace_newline depth s) fuel

theorem items_newline (depth fuel : Nat) (s : List Sign) :
    items fuel ((newline depth).map some ++ s) = items fuel s := by
  cases fuel with
  | zero => rfl
  | succ fuel => rw [items, items, value_newline]

theorem members_newline (depth fuel : Nat) (s : List Sign) :
    members fuel ((newline depth).map some ++ s) = members fuel s := by
  rw [members.eq_def, members.eq_def, skipSpace_newline]

theorem value_space (fuel : Nat) (s : List Sign) : value fuel (some ' ' :: s) = value fuel s :=
  value_congr (by simp [skipSpace, isSpace]) fuel

theorem value_array (fuel : Nat) (s : List Sign) :
    value (fuel + 1) (some '[' :: s) = match skipSpace s with
      | some ']' :: r => .ok (.array [], r)
      | r => (items fuel r).map fun (vs, r) => (.array vs, r) := rfl

theorem value_object (fuel : Nat) (s : List Sign) :
    value (fuel + 1) (some '\x7b' :: s) = match skipSpace s with
      | some '\x7d' :: r => .ok (.object [], r)
      | r => (members fuel r).map fun (ms, r) => (objectOf ms, r) := rfl

theorem value_open_array {s r : List Sign} {c : Sign} (hs : skipSpace s = c :: r)
    (hc : c ≠ some ']')
    (fuel : Nat) :
    value (fuel + 1) (some '[' :: s)
      = (items fuel (c :: r)).map fun (vs, r) => (.array vs, r) := by
  rw [value_array, hs]
  split
  · next h => exact absurd (List.cons.inj h).1 hc
  · rfl

theorem value_open_object {s r : List Sign} {c : Sign} (hs : skipSpace s = c :: r)
    (hc : c ≠ some '\x7d') (fuel : Nat) :
    value (fuel + 1) (some '\x7b' :: s)
      = (members fuel (c :: r)).map fun (ms, r) => (objectOf ms, r) := by
  rw [value_object, hs]
  split
  · next h => exact absurd (List.cons.inj h).1 hc
  · rfl

theorem value_quoted (fuel : Nat) (text : String) (r : List Sign) :
    value (fuel + 1) ((quoted text).map some ++ r) = .ok (.string text, r) := by
  rw [quoted_append, value.eq_def, skipSpace_cons rfl]
  simp [string_quoted, Except.map, stringOf]

/-- A value begins with a character of one byte, which is no blank and closes no array. -/
theorem pretty_head {v : Value} (h : v.isPlain = true) (depth : Nat) : ∃ c s,
    pretty depth v = c :: s ∧ isSpace (some c) = false ∧ c ≠ ']' ∧ c.toNat < 0x80 := by
  cases v with
  | null => exact ⟨_, _, rfl, by decide⟩
  | bool b => cases b <;> exact ⟨_, _, rfl, by decide⟩
  | string text => exact ⟨_, _, rfl, by decide⟩
  | array vs => cases vs <;> exact ⟨_, _, rfl, by decide⟩
  | object ms => cases ms <;> exact ⟨_, _, rfl, by decide⟩
  | number n => cases h
  | unreadable message => cases h

theorem pretty_starts {v : Value} (h : v.isPlain = true) (depth : Nat) (r : List Sign) :
    ∃ c s, (pretty depth v).map some ++ r = c :: s ∧ isSpace c = false ∧ c ≠ some ']' := by
  obtain ⟨c, s, hhead, hspace, hc, -⟩ := pretty_head h depth
  refine ⟨some c, s.map some ++ r, by rw [hhead]; rfl, hspace, ?_⟩
  exact fun heq => hc (Option.some.inj heq)

/-- Members whose keys are texts. -/
def texted (ms : List (String × Value)) : List (Except String String × Value) :=
  ms.map fun m => (.ok m.1, m.2)

theorem objectOf_texted (ms : List (String × Value)) : objectOf (texted ms) = .object ms := by
  have hkeys : (texted ms).mapM (fun m => m.1.map (·, m.2)) = .ok ms := by
    induction ms with
    | nil => rfl
    | cons m ms ih =>
      rw [texted, List.map_cons, List.mapM_cons, ← texted, ih]
      rfl
  rw [objectOf, hkeys]

mutual

theorem value_pretty : ∀ (v : Value) (depth fuel : Nat) (r : List Sign), v.isPlain = true →
    (pretty depth v).length ≤ fuel → value fuel ((pretty depth v).map some ++ r) = .ok (v, r)
  | .null, depth, fuel + 1, r, _, _ => rfl
  | .bool true, depth, fuel + 1, r, _, _ => rfl
  | .bool false, depth, fuel + 1, r, _, _ => rfl
  | .string text, depth, fuel + 1, r, _, _ => value_quoted fuel text r
  | .array [], depth, fuel + 1, r, _, _ => rfl
  | .object [], depth, fuel + 1, r, _, _ => rfl
  | .array (v :: vs), depth, fuel + 1, r, h, hfuel => by
    rw [Value.isPlain, Value.allPlain, Bool.and_eq_true] at h
    simp only [pretty, newline, List.length_cons, List.length_append, List.cons_append] at hfuel
    obtain ⟨fuel, rfl⟩ : ∃ n, fuel = n + 1 := ⟨fuel - 1, by omega⟩
    have hitems := items_more vs (depth + 1) depth fuel _ v r h.2 (by omega)
      (value_pretty v (depth + 1) fuel _ h.1 (by omega))
    obtain ⟨c, s, hstart, hspace, hc⟩ := pretty_starts h.1 (depth + 1)
      ((moreItems (depth + 1) vs).map some ++ ((newline depth).map some ++ some ']' :: r))
    have hskip : skipSpace ((newline (depth + 1)).map some ++ (c :: s)) = c :: s := by
      rw [skipSpace_newline, skipSpace_cons hspace]
    rw [hstart] at hitems
    simp only [pretty, List.map_append, List.map_cons, List.map_nil, List.cons_append,
      List.append_assoc, List.nil_append, hstart]
    rw [value_open_array hskip hc, hitems]
    rfl
  | .object ((k, v) :: ms), depth, fuel + 1, r, h, hfuel => by
    rw [Value.isPlain, Value.membersPlain, Bool.and_eq_true] at h
    simp only [pretty, newline, List.length_cons, List.length_append, List.cons_append] at hfuel
    obtain ⟨fuel, rfl⟩ : ∃ n, fuel = n + 1 := ⟨fuel - 1, by omega⟩
    have hvalue := value_pretty v (depth + 1) fuel ((moreMembers (depth + 1) ms).map some
      ++ ((newline depth).map some ++ some '\x7d' :: r)) h.1 (by omega)
    have hmembers := members_more ms (depth + 1) depth fuel k (some ' ' :: _) v r h.2 (by omega)
      (by rw [value_space, hvalue])
    have hskip : ∀ s, skipSpace ((newline (depth + 1)).map some ++ ((quoted k).map some ++ s))
        = some '"' :: ((k.toList.flatMap escape).map some ++ some '"' :: s) := by
      intro s
      rw [skipSpace_newline, quoted_append, skipSpace_cons rfl]
    simp only [pretty, List.map_append, List.map_cons, List.map_nil, List.cons_append,
      List.append_assoc, List.nil_append]
    rw [value_open_object (hskip _) (by decide), ← quoted_append, hmembers]
    simp only [Except.map, objectOf_texted]

theorem items_more : ∀ (vs : List Value) (depth d fuel : Nat) (s : List Sign) (v : Value)
    (r : List Sign), Value.allPlain vs = true → (moreItems depth vs).length ≤ fuel →
    value fuel s
      = .ok (v, (moreItems depth vs).map some ++ ((newline d).map some ++ some ']' :: r)) →
    items (fuel + 1) s = .ok (v :: vs, r)
  | [], depth, d, fuel, s, v, r, _, _, hv => by
    have hskip : skipSpace ((newline d).map some ++ some ']' :: r) = some ']' :: r := by
      rw [skipSpace_newline, skipSpace_cons rfl]
    rw [items, hv]
    simp [moreItems, bind, Except.bind, hskip]
  | w :: ws, depth, d, fuel, s, v, r, h, hfuel, hv => by
    rw [Value.allPlain, Bool.and_eq_true] at h
    simp only [moreItems, newline, List.length_cons, List.length_append, List.cons_append] at hfuel
    obtain ⟨fuel, rfl⟩ : ∃ n, fuel = n + 1 := ⟨fuel - 1, by omega⟩
    have hw := value_pretty w depth fuel
      ((moreItems depth ws).map some ++ ((newline d).map some ++ some ']' :: r)) h.1 (by omega)
    have hrest := items_more ws depth d fuel ((newline depth).map some ++ _) w r h.2 (by omega)
      (by rw [value_newline, hw])
    rw [items, hv]
    simp [moreItems, bind, Except.bind, skipSpace_cons, isSpace, hrest]

theorem members_more : ∀ (ms : List (String × Value)) (depth d fuel : Nat) (k : String)
    (s : List Sign) (v : Value) (r : List Sign), Value.membersPlain ms = true →
    (moreMembers depth ms).length ≤ fuel →
    value fuel s
      = .ok (v, (moreMembers depth ms).map some ++ ((newline d).map some ++ some '\x7d' :: r)) →
    members (fuel + 1) ((quoted k).map some ++ some ':' :: s) = .ok (texted ((k, v) :: ms), r)
  | [], depth, d, fuel, k, s, v, r, _, _, hv => by
    have hskip : skipSpace ((newline d).map some ++ some '\x7d' :: r) = some '\x7d' :: r := by
      rw [skipSpace_newline, skipSpace_cons rfl]
    rw [quoted_append, members.eq_def, skipSpace_cons rfl]
    simp [moreMembers, bind, Except.bind, string_quoted, skipSpace_cons, isSpace, hv, hskip,
      texted]
  | (l, w) :: ms, depth, d, fuel, k, s, v, r, h, hfuel, hv => by
    rw [Value.membersPlain, Bool.and_eq_true] at h
    simp only [moreMembers, newline, List.length_cons, List.length_append, List.cons_append]
      at hfuel
    obtain ⟨fuel, rfl⟩ : ∃ n, fuel = n + 1 := ⟨fuel - 1, by omega⟩
    have hw := value_pretty w depth fuel
      ((moreMembers depth ms).map some ++ ((newline d).map some ++ some '\x7d' :: r)) h.1
      (by omega)
    have hrest := members_more ms depth d fuel l (some ' ' :: _) w r h.2 (by omega)
      (by rw [value_space, hw])
    rw [quoted_append, members.eq_def, skipSpace_cons rfl]
    simp [moreMembers, bind, Except.bind, string_quoted, skipSpace_cons, isSpace, hv,
      members_newline, hrest, texted]

end

/-- **A value is read back from its text.** -/
theorem readSigns_print {v : Value} (h : v.isPlain = true) :
    readSigns (signs (print v)) = .ok v := by
  have hvalue := value_pretty v 0 (2 * (pretty 0 v).length + 2) [] h (by omega)
  rw [List.append_nil] at hvalue
  rw [print, signs, String.toList_ofList, readSigns, List.length_map, hvalue]
  rfl

end RepoSelect.Json
