import RepoSelect.Duration.Text
import RepoSelect.Proofs.Binary64.Nearest
import RepoSelect.Proofs.Text.Lower

/-!
# Which texts are durations

A duration is read from a text without blanks at its ends and in lower case. Such a text is one if
it is a number, blanks and the name of a unit, where the number has digits and at most one point
(`Denotes`). Nothing else is asked for but that the number of seconds is below 2⁶⁴:

> A text is read exactly if it is of this form and not too large, and any other is refused for a
> fault that it has (`parse_accepts`).

The number ends where its characters do. No unit starts with a digit, a point or a blank, so the
three parts are found again (`parse_of_denotes`); and as nothing blank is at the end of the text,
what is taken off in front of the name is all that is taken off (`exists_blanks`).
-/

namespace RepoSelect

/-! ## Units -/

namespace TimeUnit

def names : TimeUnit → List String
  | millisecond => ["ms"]
  | second => ["", "s", "sec", "second", "seconds"]
  | minute => ["m", "min", "minute", "minutes"]
  | hour => ["h", "hr", "hour", "hours"]
  | day => ["d", "day", "days"]
  | week => ["w", "week", "weeks"]

theorem ofText?_eq_some_iff {name : String} {u : TimeUnit} :
    ofText? name = some u ↔ name ∈ u.names := by
  constructor
  · unfold ofText?
    intro h
    split at h <;> cases h <;> decide
  · intro h
    cases u <;> simp only [names, List.mem_cons, List.not_mem_nil, or_false] at h
    case millisecond => subst h; rfl
    case second => rcases h with rfl | rfl | rfl | rfl | rfl <;> rfl
    case minute => rcases h with rfl | rfl | rfl | rfl <;> rfl
    case hour => rcases h with rfl | rfl | rfl | rfl <;> rfl
    case day => rcases h with rfl | rfl | rfl <;> rfl
    case week => rcases h with rfl | rfl | rfl <;> rfl

theorem isLower_of_mem_names {u : TimeUnit} {name : String} (h : name ∈ u.names) :
    ∀ c ∈ name.toList, c.isLower = true := by
  have hnames : ∀ name ∈ u.names, name.toList.all Char.isLower = true := by
    cases u <;> decide
  exact List.all_eq_true.mp (hnames name h)

/-- The whole seconds in one of these units; in a millisecond there is none. -/
def size : TimeUnit → Nat
  | millisecond => 0
  | second => 1
  | minute => 60
  | hour => 3600
  | day => 86400
  | week => 604800

theorem toSeconds_ofNat {u : TimeUnit} {n : Nat} (hu : u ≠ millisecond)
    (h : n * u.size ≤ twoTo 53) : u.toSeconds (.ofNat n) = ⟨n * u.size * Binary64.one⟩ := by
  have hn : n ≤ twoTo 53 := by
    refine Nat.le_trans (Nat.le_mul_of_pos_right n ?_) h
    cases u <;> first | exact absurd rfl hu | decide
  cases u with
  | millisecond => exact absurd rfl hu
  | second => rw [toSeconds, size, Nat.mul_one, Binary64.ofNat_eq hn]
  | minute => exact Binary64.scale_ofNat hn h
  | hour => exact Binary64.scale_ofNat hn h
  | day => exact Binary64.scale_ofNat hn h
  | week => exact Binary64.scale_ofNat hn h

end TimeUnit

namespace Duration

/-! ## Numbers -/

/-- A character of a number. -/
def isNumeric (c : Char) : Bool := c.isDigit || c = '.'

/-- How a number is written: digits, with or without a point in front of, among or behind them. -/
inductive Spells : List Char → Binary64 → Prop
  | whole {ds : List Char} (hds : ∀ c ∈ ds, c.isDigit = true) (hne : ds ≠ []) :
      Spells ds (.ofNat (digitsValue ds))
  | pointed {ds es : List Char} (hds : ∀ c ∈ ds, c.isDigit = true)
      (hes : ∀ c ∈ es, c.isDigit = true) (hne : ds ++ es ≠ []) :
      Spells (ds ++ '.' :: es) (.ofRatio (digitsValue (ds ++ es)) (tenTo es.length))

theorem Spells.isNumeric {s : List Char} {x : Binary64} (h : Spells s x) :
    ∀ c ∈ s, isNumeric c = true := by
  cases h with
  | whole hds => exact fun c hc => by simp [Duration.isNumeric, hds c hc]
  | pointed hds hes =>
    intro c hc
    rcases List.mem_append.mp hc with hc | hc
    · simp [Duration.isNumeric, hds c hc]
    · rcases List.mem_cons.mp hc with rfl | hc
      · rfl
      · simp [Duration.isNumeric, hes c hc]

theorem Spells.ne_nil {s : List Char} {x : Binary64} (h : Spells s x) : s ≠ [] := by
  cases h with
  | whole hds hne => exact hne
  | pointed => simp

theorem forall_ne_point {s : List Char} (h : '.' ∉ s) : ∀ c ∈ s, decide (c ≠ '.') = true := by
  intro c hc
  refine decide_eq_true ?_
  rintro rfl
  exact h hc

theorem number?_whole {s : List Char} (hpoint : '.' ∉ s) (hne : s ≠ []) :
    number? s = some (.ofNat (digitsValue s)) := by
  have hpart := forall_ne_point hpoint
  have hwhole := takeWhile_append (r := []) hpart nofun
  have hfraction := dropWhile_append (r := []) hpart nofun
  rw [List.append_nil] at hwhole hfraction
  have hform : s ≠ ['.'] := by
    rintro rfl
    exact hpoint (List.mem_singleton_self _)
  unfold number?
  simp only [hwhole, hfraction]
  simp [hform, hne, Binary64.ofNat]

/-- The first point is the only one of a number, and not all of it. -/
theorem number?_pointed {ds : List Char} (es : List Char) (hpoint : '.' ∉ ds) :
    number? (ds ++ '.' :: es) = if ds ++ es = [] ∨ '.' ∈ es then none
      else some (.ofRatio (digitsValue (ds ++ es)) (tenTo es.length)) := by
  have hpart := forall_ne_point hpoint
  have hstop : ∀ c, ('.' :: es).head? = some c → decide (c ≠ '.') = false := by
    rintro c ⟨⟩
    rfl
  have hform : ds ++ '.' :: es = ['.'] ↔ ds ++ es = [] := by
    cases ds with
    | nil => simp
    | cons d ds => simp
  unfold number?
  simp only [takeWhile_append hpart hstop, dropWhile_append hpart hstop, hform]
  simp

theorem not_mem_of_isDigit {ds : List Char} (hds : ∀ c ∈ ds, c.isDigit = true) : '.' ∉ ds :=
  fun hmem => by cases hds '.' hmem

theorem number?_of_spells {s : List Char} {x : Binary64} (h : Spells s x) : number? s = some x := by
  cases h with
  | whole hds hne => exact number?_whole (not_mem_of_isDigit hds) hne
  | pointed hds hes hne =>
    rw [number?_pointed _ (not_mem_of_isDigit hds), if_neg]
    exact not_or.mpr ⟨hne, not_mem_of_isDigit hes⟩

theorem spells_of_number? {s : List Char} {x : Binary64} (hs : ∀ c ∈ s, isNumeric c = true)
    (hne : s ≠ []) (h : number? s = some x) : Spells s x := by
  have hdigits : ∀ ds : List Char, ds ⊆ s → '.' ∉ ds → ∀ c ∈ ds, c.isDigit = true := by
    intro ds hsub hpoint c hc
    have hother : c ≠ '.' := fun heq => hpoint (heq ▸ hc)
    simpa [isNumeric, hother] using hs c (hsub hc)
  by_cases hpoint : '.' ∈ s
  · obtain ⟨ds, es, rfl, hds⟩ := List.eq_append_cons_of_mem hpoint
    rw [number?_pointed es hds] at h
    split at h
    · cases h
    next hform =>
      obtain ⟨hform, hes⟩ := not_or.mp hform
      cases h
      exact .pointed (hdigits ds (by simp) hds) (hdigits es (by simp) hes) hform
  · rw [number?_whole hpoint hne] at h
    cases h
    exact .whole (hdigits s (List.Subset.refl s) hpoint) hne

/-! ## Texts -/

/-- The text that is read: without blanks at its ends, and in lower case. -/
def lowered (raw : String) : List Char := Text.lower (Text.trim raw.toList)

/-- A number, blanks and the name of a unit. -/
inductive Denotes : List Char → Binary64 → TimeUnit → Prop
  | parts {number blanks : List Char} {name : String} {x : Binary64} {u : TimeUnit}
      (hnumber : Spells number x) (hblanks : ∀ c ∈ blanks, isBlank c = true)
      (hname : name ∈ u.names) : Denotes (number ++ (blanks ++ name.toList)) x u

/-- The same with a number that has no point. -/
inductive DenotesWhole : List Char → Nat → TimeUnit → Prop
  | parts {ds blanks : List Char} {name : String} {u : TimeUnit}
      (hds : ∀ c ∈ ds, c.isDigit = true) (hne : ds ≠ [])
      (hblanks : ∀ c ∈ blanks, isBlank c = true) (hname : name ∈ u.names) :
      DenotesWhole (ds ++ (blanks ++ name.toList)) (digitsValue ds) u

theorem DenotesWhole.denotes {text : List Char} {n : Nat} {u : TimeUnit}
    (h : DenotesWhole text n u) : Denotes text (.ofNat n) u := by
  cases h with
  | parts hds hne hblanks hname => exact .parts (.whole hds hne) hblanks hname

/-- The number that a text starts with, and the rest of the text. -/
structure Cut (text number rest : List Char) : Prop where
  eq : text = number ++ rest
  numeric : ∀ c ∈ number, isNumeric c = true
  stops : ∀ c, rest.head? = some c → isNumeric c = false

namespace Cut

variable {text number rest : List Char}

theorem takeWhile_eq (h : Cut text number rest) : text.takeWhile isNumeric = number := by
  rw [h.eq, takeWhile_append h.numeric h.stops]

theorem dropWhile_eq (h : Cut text number rest) : text.dropWhile isNumeric = rest := by
  rw [h.eq, dropWhile_append h.numeric h.stops]

end Cut

theorem exists_cut (text : List Char) : ∃ number rest, Cut text number rest := by
  obtain ⟨number, rest, heq, hnumeric, hstop⟩ := exists_run isNumeric text
  refine ⟨number, rest, heq, hnumeric, fun c hc => ?_⟩
  simpa [hc] using hstop

/-- What a text is refused for. -/
inductive Refuses (text : List Char) : DurationFault → Prop
  | empty (h : text = []) : Refuses text .empty
  | noNumber (hcut : Cut text [] text) (hne : text ≠ []) : Refuses text (.noNumber (.ofList text))
  | badNumber {number rest : List Char} (hcut : Cut text number rest) (hne : number ≠ [])
      (h : ∀ x, ¬Spells number x) : Refuses text (.badNumber (.ofList number))
  | badUnit {number rest : List Char} {x : Binary64} (hcut : Cut text number rest)
      (hnumber : Spells number x) (h : ∀ u, String.ofList (Text.trim rest) ∉ TimeUnit.names u) :
      Refuses text (.badUnit (.ofList (Text.trim rest)))
  | outOfRange {x : Binary64} {u : TimeUnit} (htext : Denotes text x u)
      (h : secondsBound * Binary64.one ≤ (u.toSeconds x).units) :
      Refuses text (.outOfRange (.ofList text))

/-! ## Seconds -/

theorem ofBinary64?_eq_some_iff {x : Binary64} {d : Duration} :
    ofBinary64? x = some d ↔ x.units < secondsBound * Binary64.one
      ∧ d = ⟨roundHalfEven (x.units * 1000000000) Binary64.one⟩ := by
  unfold ofBinary64?
  split
  · next h => simp [h, eq_comm]
  · next h => simp [h]

theorem ofBinary64?_eq_none_iff {x : Binary64} :
    ofBinary64? x = none ↔ secondsBound * Binary64.one ≤ x.units := by
  unfold ofBinary64?
  split
  · next h => simp [h]
  · next h => simpa using h

theorem ofBinary64?_seconds {n : Nat} (h : n ≤ twoTo 53) :
    ofBinary64? ⟨n * Binary64.one⟩ = some (.ofSeconds n) := by
  have hpos := Binary64.one_pos
  have hbound : n * Binary64.one < secondsBound * Binary64.one :=
    (Nat.mul_lt_mul_right hpos).mpr (Nat.lt_of_le_of_lt h (by decide))
  rw [ofBinary64?, if_pos hbound]
  dsimp only
  rw [Nat.mul_right_comm, roundHalfEven_mul _ hpos, ofSeconds]

/-! ## Reading -/

theorem not_isNumeric_of_isLower {c : Char} (h : c.isLower = true) : isNumeric c = false := by
  have hletter : 97 ≤ c.toNat := (range_of_isLower h).1
  have hdigit : c.isDigit = false := by
    refine Bool.eq_false_iff.mpr fun hdigit => ?_
    simp only [Char.isDigit, Bool.and_eq_true, decide_eq_true_eq] at hdigit
    have : c.toNat ≤ 57 := hdigit.2
    omega
  have hpoint : c ≠ '.' := by
    rintro rfl
    cases h
  simp [isNumeric, hdigit, hpoint]

theorem not_isNumeric_of_isBlank {c : Char} (h : isBlank c = true) : isNumeric c = false := by
  refine Bool.eq_false_iff.mpr fun hnumeric => ?_
  have hblank : isBlank c = false := by
    rcases Bool.or_eq_true_iff.mp hnumeric with hdigit | hpoint
    · exact IsWritten.not_blank (.inl hdigit)
    · rw [of_decide_eq_true hpoint]
      rfl
  rw [h] at hblank
  cases hblank

/-- What stands behind the number does not go on with it. -/
theorem not_isNumeric_head {blanks name : List Char} (hblanks : ∀ c ∈ blanks, isBlank c = true)
    (hname : ∀ c ∈ name, c.isLower = true) :
    ∀ c, (blanks ++ name).head? = some c → isNumeric c = false := by
  intro c hc
  rcases List.mem_append.mp (List.mem_of_mem_head? hc) with hc | hc
  · exact not_isNumeric_of_isBlank (hblanks c hc)
  · exact not_isNumeric_of_isLower (hname c hc)

theorem parse_of_denotes {raw : String} {x : Binary64} {u : TimeUnit} {d : Duration}
    (h : Denotes (lowered raw) x u) (hd : ofBinary64? (u.toSeconds x) = some d) :
    parse raw = .ok d := by
  generalize htext : lowered raw = text at h
  rw [lowered] at htext
  cases h with
  | @parts number blanks name _ _ hnumber hblanks hname =>
    have hletters := TimeUnit.isLower_of_mem_names hname
    have hcut : Cut (number ++ (blanks ++ name.toList)) number (blanks ++ name.toList) :=
      ⟨rfl, hnumber.isNumeric, not_isNumeric_head hblanks hletters⟩
    have htake := hcut.takeWhile_eq
    have hdrop := hcut.dropWhile_eq
    have htrim : Text.trim (blanks ++ name.toList) = name.toList :=
      Text.trim_blanks_append hblanks
        (fun c hc => IsWritten.not_blank (.inr (hletters c (List.mem_of_mem_head? hc))))
        (fun c hc => IsWritten.not_blank (.inr (hletters c (List.mem_of_getLast? hc))))
    unfold isNumeric at htake hdrop
    unfold parse
    simp only [htext, htake, hdrop, htrim, number?_of_spells hnumber, String.ofList_toList,
      TimeUnit.ofText?_eq_some_iff.mpr hname, hd]
    rw [if_neg (by simp [hnumber.ne_nil]), if_neg hnumber.ne_nil]

/-- Where the text has no blank at its end, the blanks that are taken off stand before the name. -/
theorem Cut.denotes {text number rest : List Char} {x : Binary64} {u : TimeUnit}
    (h : Cut text number rest) (hlast : ∀ c, text.getLast? = some c → isBlank c = false)
    (hnumber : Spells number x) (hname : String.ofList (Text.trim rest) ∈ u.names) :
    Denotes text x u := by
  have hend : ∀ c, rest.getLast? = some c → isBlank c = false := by
    intro c hc
    refine hlast c ?_
    rw [h.eq, List.getLast?_append, hc, Option.some_or]
  obtain ⟨blanks, hsplit, hblanks⟩ := Text.exists_blanks hend
  have hparts := Denotes.parts hnumber hblanks hname
  rwa [String.toList_ofList, ← hsplit, ← h.eq] at hparts

/-- A text that is no duration is refused for what is wrong with it. -/
theorem denotes_or_refuses (raw : String) :
    (∃ x u d, Denotes (lowered raw) x u ∧ ofBinary64? (u.toSeconds x) = some d)
      ∨ ∃ fault, parse raw = .error fault ∧ Refuses (lowered raw) fault := by
  have hlast : ∀ c, (lowered raw).getLast? = some c → isBlank c = false := fun c hc =>
    Text.isBlank_getLast_lower (fun d hd => Text.isBlank_getLast_trim hd) hc
  generalize htext : lowered raw = text at *
  rw [lowered] at htext
  obtain ⟨number, rest, hcut⟩ := exists_cut text
  have htake := hcut.takeWhile_eq
  have hdrop := hcut.dropWhile_eq
  unfold isNumeric at htake hdrop
  unfold parse
  simp only [htext, htake, hdrop]
  by_cases hempty : text = []
  · exact .inr ⟨_, if_pos hempty, .empty hempty⟩
  rw [if_neg hempty]
  by_cases hne : number = []
  · have hwhole : rest = text := by
      rw [hcut.eq, hne, List.nil_append]
    exact .inr ⟨_, if_pos hne, .noNumber (by rwa [hne, hwhole] at hcut) hempty⟩
  rw [if_neg hne]
  cases hnumber : number? number with
  | none =>
    refine .inr ⟨_, rfl, .badNumber hcut hne fun x hx => ?_⟩
    rw [number?_of_spells hx] at hnumber
    cases hnumber
  | some x =>
    have hspells := spells_of_number? hcut.numeric hne hnumber
    cases hname : TimeUnit.ofText? (.ofList (Text.trim rest)) with
    | none =>
      refine .inr ⟨_, rfl, .badUnit hcut hspells fun u hu => ?_⟩
      rw [TimeUnit.ofText?_eq_some_iff.mpr hu] at hname
      cases hname
    | some u =>
      have hdenotes := hcut.denotes hlast hspells (TimeUnit.ofText?_eq_some_iff.mp hname)
      dsimp only
      cases hd : ofBinary64? (u.toSeconds x) with
      | none => exact .inr ⟨_, rfl, .outOfRange hdenotes (ofBinary64?_eq_none_iff.mp hd)⟩
      | some d => exact .inl ⟨x, u, d, hdenotes, hd⟩

theorem parse_of_denotesWhole {raw : String} {n : Nat} {u : TimeUnit}
    (h : DenotesWhole (lowered raw) n u) (hu : u ≠ .millisecond) (hmost : n * u.size ≤ twoTo 53) :
    parse raw = .ok (.ofSeconds (n * u.size)) := by
  refine parse_of_denotes h.denotes ?_
  rw [TimeUnit.toSeconds_ofNat hu hmost, ofBinary64?_seconds hmost]

/-- **Which texts are read.** Those that are a number with a unit, if it is below 2⁶⁴ seconds; they
are read as the nearest whole number of nanoseconds, and whole seconds up to 2⁵³ as they stand.
Every other text is refused for a fault that it has. -/
theorem parse_accepts (raw : String) :
    ((∃ d, parse raw = .ok d)
        ↔ ∃ x u, Denotes (lowered raw) x u ∧ (u.toSeconds x).units < secondsBound * Binary64.one)
      ∧ (∀ x u, Denotes (lowered raw) x u →
          (u.toSeconds x).units < secondsBound * Binary64.one →
          parse raw = .ok ⟨roundHalfEven ((u.toSeconds x).units * 1000000000) Binary64.one⟩)
      ∧ ((∀ d, parse raw ≠ .ok d) → ∃ fault, parse raw = .error fault
          ∧ Refuses (lowered raw) fault)
      ∧ ∀ n u, DenotesWhole (lowered raw) n u → u ≠ .millisecond → n * u.size ≤ twoTo 53 →
          parse raw = .ok (.ofSeconds (n * u.size)) := by
  have hread : ∀ x u, Denotes (lowered raw) x u →
      (u.toSeconds x).units < secondsBound * Binary64.one →
      parse raw = .ok ⟨roundHalfEven ((u.toSeconds x).units * 1000000000) Binary64.one⟩ :=
    fun x u h hlt => parse_of_denotes h (ofBinary64?_eq_some_iff.mpr ⟨hlt, rfl⟩)
  refine ⟨⟨?_, ?_⟩, hread, ?_, fun n u => parse_of_denotesWhole⟩
  · rintro ⟨d, hok⟩
    rcases denotes_or_refuses raw with ⟨x, u, e, hdenotes, he⟩ | ⟨fault, herror, -⟩
    · exact ⟨x, u, hdenotes, (ofBinary64?_eq_some_iff.mp he).1⟩
    · rw [hok] at herror
      cases herror
  · rintro ⟨x, u, hdenotes, hlt⟩
    exact ⟨_, hread x u hdenotes hlt⟩
  · intro hnone
    rcases denotes_or_refuses raw with ⟨x, u, d, hdenotes, hd⟩ | hrefused
    · exact absurd (parse_of_denotes hdenotes hd) (hnone d)
    · exact hrefused

/-- Blanks and capitals around a number without a point, a point in front of a digit, and two
points. -/
theorem parse_accepts_each :
    parse "\u00a0 0090\u2003Min\n" = .ok (.ofSeconds (90 * 60))
      ∧ parse ".5 H" = .ok (.ofSeconds 1800)
      ∧ (∀ d, parse "1.2.3s" ≠ .ok d)
      ∧ ∃ fault, parse "1.2.3s" = .error fault ∧ Refuses (lowered "1.2.3s") fault := by
  have hwhole : DenotesWhole (lowered "\u00a0 0090\u2003Min\n") 90 .minute := by
    have hparts : lowered "\u00a0 0090\u2003Min\n"
        = ['0', '0', '9', '0'] ++ (['\u2003'] ++ "min".toList) := by decide +kernel
    rw [hparts]
    exact .parts (List.all_eq_true.mp rfl) (by decide) (List.all_eq_true.mp rfl) (by decide)
  have hpointed : Denotes (lowered ".5 H") (.ofRatio 5 10) .hour := by
    have hparts : lowered ".5 H" = ([] ++ '.' :: ['5']) ++ ([' '] ++ "h".toList) := by
      decide +kernel
    rw [hparts]
    exact .parts (.pointed nofun (List.all_eq_true.mp rfl) (by decide)) (List.all_eq_true.mp rfl)
      (by decide)
  have hnone : ∀ d, parse "1.2.3s" ≠ .ok d := by
    have hfails : (parse "1.2.3s").toBool = false := by decide +kernel
    intro d hok
    rw [hok] at hfails
    cases hfails
  have hminutes := (parse_accepts _).2.2.2 _ _ hwhole (by decide) (by decide)
  have hhalf := (parse_accepts _).2.1 _ _ hpointed (by decide +kernel)
  refine ⟨hminutes, ?_, hnone, (parse_accepts _).2.2.1 hnone⟩
  rw [hhalf, Except.ok.injEq]
  decide +kernel

end Duration

end RepoSelect
