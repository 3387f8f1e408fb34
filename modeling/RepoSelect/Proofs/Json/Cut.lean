import RepoSelect.Proofs.Json.RoundTrip
import RepoSelect.Proofs.Json.Signs

/-!
# Texts that are cut off

What is left of a text whose end is missing is no value (`readSigns_cut`): reading goes along the
text as it does when it is whole, and ends where something is still missing.

Only a string can have characters of several bytes. If it is cut off within one, no quote is left
that could close it (`stringBody_open`). A number could be read when it is cut off, so there must
be none.
-/

namespace RepoSelect.Json

variable {s : List Char} {p : List Sign} {c : Char} {v : Value} {fuel : Nat}

/-- There is no answer. -/
def Refused {ε α : Type} (x : Except ε α) : Prop := ∃ message, x = .error message

theorem Refused.bind {ε α β : Type} {x : Except ε α} {f : α → Except ε β} (h : Refused x) :
    Refused (x >>= f) := by
  obtain ⟨message, rfl⟩ := h
  exact ⟨message, rfl⟩

theorem Refused.map {ε α β : Type} {x : Except ε α} (h : Refused x) (f : α → β) :
    Refused (x.map f) := by
  obtain ⟨message, rfl⟩ := h
  exact ⟨message, rfl⟩

/-! ## Blanks -/

/-- Nothing but blanks is left of blanks. -/
theorem skipSpace_cut (hblank : ∀ c ∈ s, isSpace (some c) = true) (h : Cut s p) :
    skipSpace p = [] := by
  induction s generalizing p with
  | nil => exact absurd h not_cut_nil
  | cons c s ih =>
    have hc := hblank c List.mem_cons_self
    have hascii : c.toNat < 0x80 := by
      simp only [isSpace, Option.some.injEq, Bool.or_eq_true, decide_eq_true_eq] at hc
      rcases hc with ((rfl | rfl) | rfl) | rfl <;> decide
    rcases cut_cons hascii h with rfl | ⟨p', rfl, hcut⟩
    · rfl
    · rw [skipSpace, List.dropWhile_cons_of_pos hc]
      exact ih (fun d hd => hblank d (List.mem_cons_of_mem c hd)) hcut

/-! ## Strings that are not closed -/

theorem suffix_of_hex4 {n : Nat} {r : List Sign} (h : hex4 p = .ok (n, r)) : r <:+ p := by
  unfold hex4 at h
  split at h
  · split at h
    · obtain ⟨-, rfl⟩ := Prod.mk.inj (Except.ok.inj h)
      exact ⟨[_, _, _, _], rfl⟩
    · cases h
  · cases h

theorem suffix_of_unicodeEscape {n : Nat} {q : Piece} {r : List Sign}
    (h : unicodeEscape n p = .ok (q, r)) : r <:+ p := by
  unfold unicodeEscape at h
  split at h
  · split at h
    · split at h
      · cases h
      · next r' m r'' hhex =>
        split at h
        · obtain ⟨-, rfl⟩ := Prod.mk.inj (Except.ok.inj h)
          exact (suffix_of_hex4 hhex).trans ⟨[_, _], rfl⟩
        · obtain ⟨-, rfl⟩ := Prod.mk.inj (Except.ok.inj h)
          exact List.suffix_refl _
    · obtain ⟨-, rfl⟩ := Prod.mk.inj (Except.ok.inj h)
      exact List.suffix_refl _
  · split at h <;>
    · obtain ⟨-, rfl⟩ := Prod.mk.inj (Except.ok.inj h)
      exact List.suffix_refl _

/-- Without a quote a string does not end. -/
theorem stringBody_open (h : some '"' ∉ p) : Refused (stringBody fuel p) := by
  induction fuel generalizing p with
  | zero => exact ⟨_, by rw [stringBody]⟩
  | succ fuel ih =>
    have hrest {r : List Sign} (hr : r <:+ p) : Refused (stringBody fuel r) :=
      ih fun hquote => h (hr.subset hquote)
    unfold stringBody
    split
    · next heq => cases heq
    · exact ⟨_, rfl⟩
    · exact absurd List.mem_cons_self h
    · next n e r hn =>
      obtain rfl : fuel = n := Nat.succ.inj hn
      have hbehind : r <:+ some '\\' :: e :: r := ⟨[_, _], rfl⟩
      split
      · cases hhex : hex4 r with
        | error message => exact ⟨message, rfl⟩
        | ok found =>
          obtain ⟨code, r'⟩ := found
          cases hescape : unicodeEscape code r' with
          | error message =>
            simp only [Except.bind, bind, hescape]
            exact ⟨message, rfl⟩
          | ok found =>
            have hsuffix := (suffix_of_unicodeEscape hescape).trans (suffix_of_hex4 hhex)
            simp only [Except.bind, hescape]
            exact (hrest (hsuffix.trans hbehind)).bind
      · split
        · exact (hrest hbehind).bind
        · exact ⟨_, rfl⟩
    · next n c r _ _ hn =>
      obtain rfl : fuel = n := Nat.succ.inj hn
      split
      · exact ⟨_, rfl⟩
      · exact (hrest ⟨[_], rfl⟩).bind
    · next n r hn =>
      obtain rfl : fuel = n := Nat.succ.inj hn
      exact (hrest ⟨[_], rfl⟩).bind

/-- A quote is only written at the end of what stands for a character. -/
theorem quote_not_mem_of_cut_escape (h : Cut (escape c) p) : some '"' ∉ p := by
  obtain ⟨front, d, rest, left, hs, rfl, -, hquote⟩ := h
  have hdrop : '"' ∉ (escape c).dropLast := by
    unfold escape
    split
    case h_8 =>
      split
      · have hdigit : ∀ n < 16, hexDigit n ≠ '"' := by decide
        have hhigh := hdigit (c.toNat / 16) (by omega)
        simp [hhigh.symm]
      · simp
    all_goals decide
  have hfront : front <+: (escape c).dropLast := by
    rw [hs, List.dropLast_append_of_ne_nil (List.cons_ne_nil _ _)]
    exact List.prefix_append _ _
  rw [List.mem_append, not_or]
  refine ⟨fun hmem => ?_, hquote⟩
  obtain ⟨e, he, heq⟩ := List.mem_map.mp hmem
  obtain rfl := Option.some.inj heq
  exact hdrop (hfront.subset he)

/-- A string is not read if its end is missing. -/
theorem stringBody_cut {cs : List Char} (h : Cut (cs.flatMap escape ++ ['"']) p) :
    Refused (stringBody fuel p) := by
  induction cs generalizing p fuel with
  | nil =>
    rcases cut_cons (by decide) h with rfl | ⟨p', -, hcut⟩
    · exact stringBody_open List.not_mem_nil
    · exact absurd hcut not_cut_nil
  | cons c cs ih =>
    rw [List.flatMap_cons, List.append_assoc] at h
    rcases cut_append h with hcut | ⟨p', rfl, hcut⟩
    · exact stringBody_open (quote_not_mem_of_cut_escape hcut)
    · cases fuel with
      | zero => exact ⟨_, by rw [stringBody]⟩
      | succ fuel =>
        rw [stringBody_escape]
        exact (ih hcut).map _

theorem string_cut {text : String} (h : Cut (text.toList.flatMap escape ++ ['"']) p) :
    Refused (string p) :=
  (stringBody_cut h).bind

/-! ## Values that do not end -/

theorem word_cut (hascii : (s.all fun d => d.toNat < 0x80) = true) (h : Cut s p) :
    Refused (word v s p) := by
  induction s generalizing p with
  | nil => exact absurd h not_cut_nil
  | cons c s ih =>
    rw [List.all_cons, Bool.and_eq_true, decide_eq_true_eq] at hascii
    rcases cut_cons hascii.1 h with rfl | ⟨p', rfl, hcut⟩
    · exact ⟨_, rfl⟩
    · rw [word, if_pos rfl]
      exact ih hascii.2 hcut

/-- In front of the bracket that closes it, a container has nothing but blanks left. -/
theorem skipSpace_unclosed {depth : Nat} (hc : c.toNat < 0x80)
    (h : Cut (newline depth ++ [c]) p) : skipSpace p = [] := by
  rcases cut_append h with hcut | ⟨p', rfl, hcut⟩
  · exact skipSpace_cut (isSpace_newline depth) hcut
  · rcases cut_cons hc hcut with rfl | ⟨p', -, hcut⟩
    · rw [skipSpace_newline]
      rfl
    · exact absurd hcut not_cut_nil

theorem value_blank (h : skipSpace p = []) : Refused (value fuel p) := by
  rw [value.eq_def, h]
  cases fuel <;> exact ⟨_, rfl⟩

theorem items_blank (h : skipSpace p = []) : Refused (items fuel p) := by
  cases fuel with
  | zero => exact ⟨_, rfl⟩
  | succ fuel => exact (value_blank h).bind

theorem members_blank (h : skipSpace p = []) : Refused (members fuel p) := by
  rw [members.eq_def, h]
  cases fuel <;> exact ⟨_, rfl⟩

theorem value_word_cut (hread : ∀ q, value (fuel + 1) (some c :: q) = word v s q)
    (hascii : ((c :: s).all fun d => d.toNat < 0x80) = true) (h : Cut (c :: s) p) :
    Refused (value (fuel + 1) p) := by
  rw [List.all_cons, Bool.and_eq_true, decide_eq_true_eq] at hascii
  rcases cut_cons hascii.1 h with rfl | ⟨q, rfl, hq⟩
  · exact value_blank rfl
  · rw [hread]
    exact word_cut hascii.2 hq

theorem value_unopened_array (h : skipSpace p = []) :
    Refused (value (fuel + 1) (some '[' :: p)) := by
  rw [value_array, h]
  exact (items_blank rfl).map _

theorem value_unopened_object (h : skipSpace p = []) :
    Refused (value (fuel + 1) (some '\x7b' :: p)) := by
  rw [value_object, h]
  exact (members_blank rfl).map _

theorem members_of_key (h : Refused (string p)) : Refused (members (fuel + 1) (some '"' :: p)) := by
  obtain ⟨message, h⟩ := h
  rw [members.eq_def, skipSpace_cons rfl]
  exact ⟨message, by simp [h, bind, Except.bind]⟩

theorem members_of_colon (k : String) (h : skipSpace p = []) :
    Refused (members (fuel + 1) ((quoted k).map some ++ p)) := by
  rw [quoted_append, members.eq_def, skipSpace_cons rfl]
  exact ⟨_, by simp [bind, Except.bind, string_quoted, h]; rfl⟩

theorem members_of_value (k : String) (h : Refused (value fuel p)) :
    Refused (members (fuel + 1) ((quoted k).map some ++ some ':' :: p)) := by
  obtain ⟨message, h⟩ := h
  rw [quoted_append, members.eq_def, skipSpace_cons rfl]
  exact ⟨message, by simp [bind, Except.bind, string_quoted, skipSpace_cons, isSpace, h]⟩

theorem members_of_end {r : List Sign} (k : String) (hv : value fuel p = .ok (v, r))
    (h : skipSpace r = []) :
    Refused (members (fuel + 1) ((quoted k).map some ++ some ':' :: p)) := by
  rw [quoted_append, members.eq_def, skipSpace_cons rfl]
  exact ⟨_, by simp [bind, Except.bind, string_quoted, skipSpace_cons, isSpace, hv, h]; rfl⟩

theorem members_of_next {r : List Sign} (k : String) (hv : value fuel p = .ok (v, some ',' :: r))
    (h : Refused (members fuel r)) :
    Refused (members (fuel + 1) ((quoted k).map some ++ some ':' :: p)) := by
  obtain ⟨message, h⟩ := h
  rw [quoted_append, members.eq_def, skipSpace_cons rfl]
  exact ⟨message, by simp [bind, Except.bind, string_quoted, skipSpace_cons, isSpace, hv, h]⟩

/-- The value is not read if its end is missing. -/
def Unread (depth : Nat) (v : Value) : Prop :=
  ∀ fuel p, Cut (pretty depth v) p → p.length ≤ fuel → Refused (value fuel p)

-- The parts of a text are gone through in the order they are written. The text is cut off in one of
-- them, or it has all of this part and is cut off in what follows.
mutual

theorem value_cut : ∀ (v : Value) (depth : Nat), v.isPlain = true → Unread depth v
  | v, depth, h, 0, p, _, _ => ⟨_, by rw [value.eq_def]⟩
  | .null, depth, _, fuel + 1, p, hcut, _ => value_word_cut (fun _ => rfl) rfl hcut
  | .bool true, depth, _, fuel + 1, p, hcut, _ => value_word_cut (fun _ => rfl) rfl hcut
  | .bool false, depth, _, fuel + 1, p, hcut, _ => value_word_cut (fun _ => rfl) rfl hcut
  | .string text, depth, _, fuel + 1, p, hcut, _ => by
    rcases cut_cons (by decide) hcut with rfl | ⟨q, rfl, hq⟩
    · exact value_blank rfl
    · have hstring : Refused (string q) := string_cut hq
      rw [value.eq_def, skipSpace_cons rfl]
      exact hstring.map _
  | .array [], depth, _, fuel + 1, p, hcut, _ => by
    rcases cut_cons (by decide) hcut with rfl | ⟨q, rfl, hq⟩
    · exact value_blank rfl
    · rcases cut_cons (by decide) hq with rfl | ⟨q', -, hq'⟩
      · exact value_unopened_array rfl
      · exact absurd hq' not_cut_nil
  | .object [], depth, _, fuel + 1, p, hcut, _ => by
    rcases cut_cons (by decide) hcut with rfl | ⟨q, rfl, hq⟩
    · exact value_blank rfl
    · rcases cut_cons (by decide) hq with rfl | ⟨q', -, hq'⟩
      · exact value_unopened_object rfl
      · exact absurd hq' not_cut_nil
  | .array (v :: vs), depth, h, fuel + 1, p, hcut, hfuel => by
    rw [Value.isPlain, Value.allPlain, Bool.and_eq_true] at h
    have hunread := value_cut v (depth + 1) h.1
    simp only [pretty, List.cons_append, List.append_assoc] at hcut
    rcases cut_cons (by decide) hcut with rfl | ⟨q, rfl, hq⟩
    · exact value_blank rfl
    rcases cut_append hq with hblank | ⟨q, rfl, hbody⟩
    · exact value_unopened_array (skipSpace_cut (isSpace_newline _) hblank)
    simp only [newline, List.map_cons, List.length_cons, List.length_append, List.cons_append]
      at hfuel
    have hitems : Refused (items fuel q) :=
      items_cut vs v (depth + 1) depth fuel q h.2 h.1 hunread hbody (by omega)
    obtain ⟨c, s, hhead, hspace, hc, hascii⟩ := pretty_head h.1 (depth + 1)
    rw [hhead, List.cons_append] at hbody
    rcases cut_cons hascii hbody with rfl | ⟨q, rfl, -⟩
    · exact value_unopened_array (by rw [skipSpace_newline]; rfl)
    have hskip : skipSpace ((newline (depth + 1)).map some ++ some c :: q) = some c :: q := by
      rw [skipSpace_newline, skipSpace_cons hspace]
    rw [value_open_array hskip fun heq => hc (Option.some.inj heq)]
    exact hitems.map _
  | .object ((k, v) :: ms), depth, h, fuel + 1, p, hcut, hfuel => by
    rw [Value.isPlain, Value.membersPlain, Bool.and_eq_true] at h
    have hunread := value_cut v (depth + 1) h.1
    simp only [pretty, List.cons_append, List.append_assoc] at hcut
    rcases cut_cons (by decide) hcut with rfl | ⟨q, rfl, hq⟩
    · exact value_blank rfl
    rcases cut_append hq with hblank | ⟨q, rfl, hbody⟩
    · exact value_unopened_object (skipSpace_cut (isSpace_newline _) hblank)
    simp only [newline, List.map_cons, List.length_cons, List.length_append, List.cons_append]
      at hfuel
    have hmembers : Refused (members fuel q) :=
      members_cut ms k v (depth + 1) depth fuel q h.2 h.1 hunread hbody (by omega)
    rw [quoted, List.cons_append] at hbody
    rcases cut_cons (by decide) hbody with rfl | ⟨q, rfl, -⟩
    · exact value_unopened_object (by rw [skipSpace_newline]; rfl)
    have hskip : skipSpace ((newline (depth + 1)).map some ++ some '"' :: q) = some '"' :: q := by
      rw [skipSpace_newline, skipSpace_cons rfl]
    rw [value_open_object hskip (by decide)]
    exact hmembers.map _

theorem items_cut : ∀ (vs : List Value) (v : Value) (depth d fuel : Nat) (p : List Sign),
    Value.allPlain vs = true → v.isPlain = true → Unread depth v →
    Cut (pretty depth v ++ (moreItems depth vs ++ (newline d ++ [']']))) p → p.length < fuel →
    Refused (items fuel p)
  | vs, v, depth, d, fuel + 1, p, hvs, hv, hunread, hcut, hfuel => by
    rw [items]
    rcases cut_append hcut with hitem | ⟨q, rfl, hrest⟩
    · exact (hunread fuel p hitem (by omega)).bind
    rw [List.length_append, List.length_map] at hfuel
    rw [value_pretty v depth fuel q hv (by omega)]
    match vs with
    | [] =>
      have hblank := skipSpace_unclosed (by decide) hrest
      simp only [bind, Except.bind, hblank]
      exact ⟨_, rfl⟩
    | w :: ws =>
      rw [Value.allPlain, Bool.and_eq_true] at hvs
      simp only [moreItems, List.cons_append, List.append_assoc] at hrest
      rcases cut_cons (by decide) hrest with rfl | ⟨q, rfl, hnext⟩
      · exact ⟨_, rfl⟩
      have hmore : Refused (items fuel q) := by
        rcases cut_append hnext with hblank | ⟨q, rfl, hitem⟩
        · exact items_blank (skipSpace_cut (isSpace_newline depth) hblank)
        rw [List.length_cons, List.length_append] at hfuel
        rw [items_newline]
        exact items_cut ws w depth d fuel q hvs.2 hvs.1 (value_cut w depth hvs.1) hitem (by omega)
      exact hmore.bind

theorem members_cut : ∀ (ms : List (String × Value)) (k : String) (v : Value)
    (depth d fuel : Nat) (p : List Sign),
    Value.membersPlain ms = true → v.isPlain = true → Unread depth v →
    Cut (quoted k ++ ':' :: ' ' :: (pretty depth v ++ (moreMembers depth ms
      ++ (newline d ++ ['\x7d'])))) p → p.length < fuel →
    Refused (members fuel p)
  | ms, k, v, depth, d, fuel + 1, p, hms, hv, hunread, hcut, hfuel => by
    rcases cut_append hcut with hkey | ⟨q, rfl, hcolon⟩
    · rcases cut_cons (by decide) hkey with rfl | ⟨q, rfl, hq⟩
      · exact members_blank rfl
      · exact members_of_key (string_cut hq)
    rcases cut_cons (by decide) hcolon with rfl | ⟨q, rfl, hspace⟩
    · exact members_of_colon k rfl
    rcases cut_cons (by decide) hspace with rfl | ⟨q, rfl, hvalue⟩
    · exact members_of_value k (value_blank rfl)
    simp only [List.length_append, List.length_map, List.length_cons] at hfuel
    rcases cut_append hvalue with hvalue | ⟨q, rfl, hrest⟩
    · have hrefused := hunread fuel q hvalue (by omega)
      rw [← value_space] at hrefused
      exact members_of_value k hrefused
    rw [List.length_append, List.length_map] at hfuel
    have hread := value_pretty v depth fuel q hv (by omega)
    rw [← value_space] at hread
    match ms with
    | [] => exact members_of_end k hread (skipSpace_unclosed (by decide) hrest)
    | (l, w) :: ms =>
      rw [Value.membersPlain, Bool.and_eq_true] at hms
      simp only [moreMembers, List.cons_append, List.append_assoc] at hrest
      rcases cut_cons (by decide) hrest with rfl | ⟨q, rfl, hnext⟩
      · exact members_of_end k hread rfl
      refine members_of_next k hread ?_
      rcases cut_append hnext with hblank | ⟨q, rfl, hmember⟩
      · exact members_blank (skipSpace_cut (isSpace_newline depth) hblank)
      rw [List.length_cons, List.length_append] at hfuel
      rw [members_newline]
      exact members_cut ms l w depth d fuel q hms.2 hms.1 (value_cut w depth hms.1) hmember
        (by omega)

end

/-- **What is left of the text of a value is no value.** -/
theorem readSigns_cut (hv : v.isPlain = true) (h : Cut (pretty 0 v) p) : Refused (readSigns p) :=
  (value_cut v 0 hv (2 * p.length + 2) p h (by omega)).bind

end RepoSelect.Json
