import RepoSelect.Json.Reader

/-!
# The signs of a content

The signs of the bytes of a text are those of the text (`signsOf_toUTF8`), and the signs of bytes
whose end is missing are those of the beginning of a text (`cut_signsOf`).

The end may be missing from within a character. Of such a character there are bytes left that are
part of none, but no quote (`Cut`): all bytes of a character that has several are beyond the
characters that have one.
-/

namespace RepoSelect.Json

variable {s s' : List Char} {p : List Sign} {c : Char}

/-! ## The bytes of a text -/

theorem size_utf8Encode_singleton (c : Char) : [c].utf8Encode.size = c.utf8Size := by
  simp [List.utf8Encode_singleton]

theorem signsFrom_append (cs : List Char) (front tail : ByteArray) (found : Array Sign) :
    signsFrom (front ++ cs.utf8Encode ++ tail) front.size found
      = signsFrom (front ++ cs.utf8Encode ++ tail) (front ++ cs.utf8Encode).size
          (found ++ cs.map some) := by
  induction cs generalizing front found with
  | nil => simp
  | cons c cs ih =>
    have hpos := c.utf8Size_pos
    have hsplit : front ++ (c :: cs).utf8Encode = (front ++ [c].utf8Encode) ++ cs.utf8Encode := by
      rw [List.utf8Encode_cons, ByteArray.append_assoc]
    have hchar : (front ++ (c :: cs).utf8Encode ++ tail).utf8DecodeChar? front.size = some c := by
      rw [ByteArray.utf8DecodeChar?_eq_utf8DecodeChar?_extract, ByteArray.append_assoc,
        ByteArray.extract_append_eq_right rfl ByteArray.size_append, List.utf8Encode_cons,
        ByteArray.append_assoc]
      exact List.utf8DecodeChar?_utf8Encode_singleton_append
    have hnext : front.size + c.utf8Size = (front ++ [c].utf8Encode).size := by
      rw [ByteArray.size_append, size_utf8Encode_singleton]
    rw [signsFrom, if_pos, hchar]
    · dsimp only
      rw [hsplit, hnext, ih]
      simp
    · rw [hsplit, ByteArray.size_append, ByteArray.size_append, ← hnext]
      omega

/-- A text is read from its bytes. -/
theorem signsOf_toUTF8 (text : String) : signsOf text.toUTF8 = signs text := by
  have hsigns := signsFrom_append text.toList .empty .empty #[]
  rw [ByteArray.empty_append, ByteArray.append_empty, ByteArray.size_empty] at hsigns
  have hencode : text.toUTF8 = text.toList.utf8Encode := by simp
  rw [signsOf, hencode, hsigns, signsFrom, if_neg (Nat.lt_irrefl _)]
  simp [signs]

/-! ## The beginning of a text -/

/-- The signs of a text whose end is missing. The last of them may be what is left of a character;
that is one of several bytes then, and none of these is a quote. -/
def Cut (s : List Char) (p : List Sign) : Prop :=
  ∃ front c rest left, s = front ++ c :: rest ∧ p = front.map some ++ left
    ∧ (left ≠ [] → ¬c.toNat < 0x80) ∧ some '"' ∉ left

theorem not_cut_nil : ¬Cut [] p := by
  rintro ⟨front, c, rest, left, hs, -⟩
  cases front <;> cases hs

theorem cut_append (h : Cut (s ++ s') p) :
    Cut s p ∨ ∃ p', p = s.map some ++ p' ∧ Cut s' p' := by
  obtain ⟨front, c, rest, left, hs, rfl, hleft, hquote⟩ := h
  rcases List.append_eq_append_iff.mp hs with ⟨more, hfront, hs'⟩ | ⟨more, hs, hrest⟩
  · subst hfront
    refine .inr ⟨more.map some ++ left, ?_, more, c, rest, left, hs', rfl, hleft, hquote⟩
    rw [List.map_append, List.append_assoc]
  · cases more with
    | nil =>
      rw [List.append_nil] at hs
      subst hs
      exact .inr ⟨left, rfl, [], c, rest, left, hrest.symm, rfl, hleft, hquote⟩
    | cons d more =>
      obtain ⟨rfl, -⟩ := List.cons.inj hrest
      exact .inl ⟨front, c, more, left, hs, rfl, hleft, hquote⟩

theorem cut_cons (hc : c.toNat < 0x80) (h : Cut (c :: s) p) :
    p = [] ∨ ∃ p', p = some c :: p' ∧ Cut s p' := by
  obtain ⟨front, d, rest, left, hs, rfl, hleft, hquote⟩ := h
  cases front with
  | nil =>
    obtain ⟨rfl, -⟩ := List.cons.inj hs
    cases left with
    | nil => exact .inl rfl
    | cons => exact absurd hc (hleft (List.cons_ne_nil _ _))
  | cons e front =>
    obtain ⟨rfl, rfl⟩ := List.cons.inj hs
    exact .inr ⟨_, rfl, front, d, rest, left, rfl, rfl, hleft, hquote⟩

/-! ## The bytes of the beginning of a text -/

/-- None of the bytes from the `i`th on is a character by itself. -/
def Wide (content : ByteArray) (i : Nat) : Prop :=
  ∀ j (hj : j < content.size), i ≤ j → 0x80 ≤ content[j].toNat

theorem utf8DecodeChar?_ne_quote {content : ByteArray} {i : Nat} (hi : i < content.size)
    (h : 0x80 ≤ content[i].toNat) : content.utf8DecodeChar? i ≠ some '"' := by
  intro hquote
  rw [ByteArray.utf8DecodeChar?_eq_utf8DecodeChar?_extract] at hquote
  obtain ⟨rest, hbytes⟩ := ByteArray.exists_of_utf8DecodeChar?_eq_some hquote
  have hsize : 0 < (content.extract i content.size).size := by
    rw [ByteArray.size_extract]
    omega
  have hfirst : (content.extract i content.size)[0] = 0x22 := by
    simp only [hbytes]
    rfl
  simp only [ByteArray.getElem_extract, Nat.add_zero] at hfirst
  rw [hfirst] at h
  exact absurd h (by decide)

/-- Without characters of one byte there is no quote. -/
theorem signsFrom_wide {content : ByteArray} {i : Nat} (h : Wide content i) (found : Array Sign) :
    ∃ left, (signsFrom content i found).toList = found.toList ++ left ∧ some '"' ∉ left
      ∧ (content.size ≤ i → left = []) := by
  fun_induction signsFrom content i found with
  | case1 i found hi c hchar ih =>
    obtain ⟨left, hleft, hquote, -⟩ := ih fun j hj hij => h j hj (Nat.le_of_add_right_le hij)
    refine ⟨some c :: left, by simp [hleft], ?_, fun hsize => absurd hi (by omega)⟩
    rintro (- | ⟨-, hmem⟩)
    · exact utf8DecodeChar?_ne_quote hi (h i hi (Nat.le_refl i)) hchar
    · exact hquote hmem
  | case2 i found hi hchar ih =>
    obtain ⟨left, hleft, hquote, -⟩ := ih fun j hj hij => h j hj (Nat.le_of_succ_le hij)
    refine ⟨none :: left, by simp [hleft], ?_, fun hsize => absurd hi (by omega)⟩
    rintro (- | ⟨-, hmem⟩)
    exact hquote hmem
  | case3 i found hi => exact ⟨[], by simp, by simp, fun _ => rfl⟩

/-- The bytes of a character of several bytes. -/
theorem utf8EncodeChar_wide (hc : ¬c.toNat < 0x80) :
    ∀ b ∈ String.utf8EncodeChar c, 0x80 ≤ b.toNat := by
  have hbyte : ∀ n, 0x80 ≤ n → n < 0x100 → 0x80 ≤ (UInt8.ofNat n).toNat := by
    intro n hlow hhigh
    rwa [UInt8.toNat_ofNat', Nat.mod_eq_of_lt hhigh]
  have hval : ¬c.val.toNat ≤ 0x7f := fun hle => hc (Nat.lt_succ_of_le hle)
  intro b hb
  unfold String.utf8EncodeChar at hb
  simp only [hval, if_false] at hb
  split at hb
  · simp only [List.mem_cons, List.not_mem_nil, or_false] at hb
    rcases hb with rfl | rfl <;> exact hbyte _ (by omega) (by omega)
  · split at hb
    · simp only [List.mem_cons, List.not_mem_nil, or_false] at hb
      rcases hb with rfl | rfl | rfl <;> exact hbyte _ (by omega) (by omega)
    · simp only [List.mem_cons, List.not_mem_nil, or_false] at hb
      rcases hb with rfl | rfl | rfl | rfl <;> exact hbyte _ (by omega) (by omega)

/-- Where a text is cut off: behind some characters, and some bytes of the next. -/
theorem extract_utf8Encode (cs : List Char) {n : Nat} (hn : n < cs.utf8Encode.size) :
    ∃ front c rest k, cs = front ++ c :: rest ∧ k < c.utf8Size
      ∧ cs.utf8Encode.extract 0 n = front.utf8Encode ++ [c].utf8Encode.extract 0 k := by
  induction cs generalizing n with
  | nil =>
    rw [List.utf8Encode_nil] at hn
    exact absurd hn (Nat.not_lt_zero n)
  | cons c cs ih =>
    have hsize := size_utf8Encode_singleton c
    rw [List.utf8Encode_cons, ByteArray.size_append, hsize] at hn
    rw [List.utf8Encode_cons, ByteArray.extract_append, hsize, Nat.zero_sub]
    rcases Nat.lt_or_ge n c.utf8Size with hlt | hge
    · refine ⟨[], c, cs, n, rfl, hlt, ?_⟩
      rw [Nat.sub_eq_zero_of_le (Nat.le_of_lt hlt), ByteArray.extract_same, List.utf8Encode_nil,
        ByteArray.append_empty, ByteArray.empty_append]
    · obtain ⟨front, d, rest, k, rfl, hk, hextract⟩ := ih (n := n - c.utf8Size) (by omega)
      refine ⟨c :: front, d, rest, k, rfl, hk, ?_⟩
      have hwhole := ByteArray.extract_zero_max_size (a := [c].utf8Encode) (i := n)
      rw [hsize, Nat.max_eq_left hge] at hwhole
      rw [hextract, hwhole, List.utf8Encode_cons (c := c) (l := front), ByteArray.append_assoc]

/-- A file that is cut off has the signs of a text that is. -/
theorem cut_signsOf {cs : List Char} {n : Nat} (hn : n < cs.utf8Encode.size) :
    Cut cs (signsOf (cs.utf8Encode.extract 0 n)) := by
  obtain ⟨front, c, rest, k, rfl, hk, hextract⟩ := extract_utf8Encode cs hn
  have hnone : c.toNat < 0x80 → k = 0 := by
    intro hascii
    have hone : c.utf8Size = 1 := Char.utf8Size_eq_one_iff.mpr (Nat.le_of_lt_succ hascii)
    omega
  have hwide : Wide (front.utf8Encode ++ [c].utf8Encode.extract 0 k) front.utf8Encode.size := by
    intro j hj hle
    have htail : j - front.utf8Encode.size < ([c].utf8Encode.extract 0 k).size := by
      rw [ByteArray.size_append] at hj
      omega
    rw [ByteArray.getElem_append_right hle, ByteArray.getElem_extract]
    simp only [List.utf8Encode_singleton, List.getElem_toByteArray]
    refine utf8EncodeChar_wide (fun hascii => ?_) _ (List.getElem_mem _)
    rw [hnone hascii, ByteArray.extract_same] at htail
    exact absurd htail (Nat.not_lt_zero _)
  obtain ⟨left, hleft, hquote, hempty⟩ :=
    signsFrom_wide hwide ((#[] : Array Sign) ++ front.map some)
  refine ⟨front, c, rest, left, rfl, ?_, fun hne hascii => hne (hempty ?_), hquote⟩
  · have hfront := signsFrom_append front .empty ([c].utf8Encode.extract 0 k) #[]
    rw [ByteArray.empty_append, ByteArray.size_empty] at hfront
    rw [hextract, signsOf, hfront, hleft]
    simp
  · have hnothing : [c].utf8Encode.extract 0 k = .empty := by
      rw [hnone hascii, ByteArray.extract_same]
    exact Nat.le_of_eq (by rw [hnothing, ByteArray.append_empty])

end RepoSelect.Json
