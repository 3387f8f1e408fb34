import RepoSelect.Proofs.Duration.Grammar

/-!
# Reading a duration that was written

A duration is written as a whole number and a unit, which are read back apart (`parse_numeral`). The
number and its product with a unit of whole seconds are kept up to 2⁵³. A quotient by a thousand is
off by half a step of its binary64, which is less than half a nanosecond below 2²³ seconds, so that
the nanosecond it is rounded to is that of the whole milliseconds (`ofBinary64?_millis`). Hence

> below 2²³ seconds, what is read back of a duration is its whole milliseconds, and whole seconds up
> to 2⁵³ are read back as they are (`parse_format`).
-/

namespace RepoSelect

namespace Duration

/-! ## Numbers and units -/

theorem isDigit_of_mem {n : Nat} {c : Char} (h : c ∈ Nat.toDigits 10 n) : c.isDigit = true :=
  Nat.isDigit_of_mem_toDigits (by decide) (by decide) h

/-- A numeral and a unit are read apart. -/
theorem parse_numeral (n : Nat) {unit : String} {u : TimeUnit} {d : Duration}
    (hunit : unit ∈ u.names) (hd : ofBinary64? (u.toSeconds (.ofNat n)) = some d) :
    parse (toString n ++ unit) = .ok d := by
  have htext : (toString n ++ unit).toList = Nat.toDigits 10 n ++ unit.toList := by
    rw [String.toList_append, Nat.toString_eq_repr, Nat.toList_repr]
  have hwritten : ∀ c ∈ Nat.toDigits 10 n ++ unit.toList, IsWritten c := by
    intro c hc
    rcases List.mem_append.mp hc with hc | hc
    · exact .inl (isDigit_of_mem hc)
    · exact .inr (TimeUnit.isLower_of_mem_names hunit c hc)
  have hlowered : lowered (toString n ++ unit) = Nat.toDigits 10 n ++ ([] ++ unit.toList) := by
    rw [lowered, htext, Text.trim_of_isWritten hwritten, Text.lower,
      Text.lowerFrom_eq_self [] hwritten, List.nil_append]
  have hvalue : digitsValue (Nat.toDigits 10 n) = n := Nat.ofDigitChars_ten_toDigits
  have hdenotes : DenotesWhole (Nat.toDigits 10 n ++ ([] ++ unit.toList)) _ u :=
    .parts (fun _ hc => isDigit_of_mem hc) Nat.toDigits_ne_nil
      (fun _ hc => absurd hc List.not_mem_nil) hunit
  rw [← hlowered, hvalue] at hdenotes
  exact parse_of_denotes hdenotes.denotes hd

/-! ## Rounding -/

/-- The quotient by a thousand is less than half a nanosecond off. -/
theorem ofBinary64?_millis {n : Nat} (hn : n < twoTo 23 * 1000) :
    ofBinary64? ((Binary64.ofNat n).divide 1000) = some (.ofMillis n) := by
  have hsmall : n ≤ twoTo 53 := Nat.le_of_lt (Nat.lt_trans hn (by decide))
  have hone := Binary64.one_pos
  have hscaled : n * Binary64.one < twoTo 23 * 1000 * Binary64.one :=
    (Nat.mul_lt_mul_right hone).mpr hn
  -- A step below 2²³ is the 2³⁰-th part of one.
  have hstep : twoTo 30 * Binary64.step (n * Binary64.one / 1000) ≤ Binary64.one := by
    have hquotient : n * Binary64.one / 1000 < twoTo 23 * Binary64.one := by
      rw [Nat.div_lt_iff_lt_mul (by decide), Nat.mul_right_comm]
      exact hscaled
    have hpower : twoTo 23 * Binary64.one = twoTo (53 + 1044) := by
      rw [Binary64.one, ← twoTo_add]
    rw [hpower] at hquotient
    calc twoTo 30 * Binary64.step _ ≤ twoTo 30 * twoTo 1044 :=
          Nat.mul_le_mul_left _ (Binary64.step_le_of_lt hquotient)
      _ = Binary64.one := (twoTo_add 30 1044).symm
  have hnear := Binary64.nearest_near (n * Binary64.one) (d := 1000) (by decide)
  rw [Binary64.ofNat_eq hsmall, Binary64.divide, ofBinary64?]
  dsimp only
  generalize (Binary64.nearest (n * Binary64.one) 1000).units = u at *
  generalize Binary64.step (n * Binary64.one / 1000) = step at *
  have hmillis : n * 1000000 * Binary64.one = n * Binary64.one * 1000000 := Nat.mul_right_comm ..
  have hbound : u < secondsBound * Binary64.one := by
    generalize n * Binary64.one = p at *
    simp only [secondsBound, twoTo, Nat.pow_eq] at *
    omega
  have hround : roundHalfEven (u * 1000000000) Binary64.one = n * 1000000 := by
    apply roundHalfEven_eq <;> rw [hmillis] <;>
    · generalize n * Binary64.one = p at *
      simp only [twoTo, Nat.pow_eq] at *
      omega
  rw [if_pos hbound, hround, ofMillis]

/-! ## Written and read -/

theorem parse_format_millis {d : Duration} (h : d < .ofSeconds (twoTo 23))
    (hmillis : d.subsecNanos ≠ 0 ∨ d.seconds = 0) : parse d.format = .ok (.ofMillis d.millis) := by
  have hlt : d.millis < twoTo 23 * 1000 := by
    have hnanos : d.nanos < twoTo 23 * 1000000000 := h
    simp only [millis, twoTo, Nat.pow_eq] at hnanos ⊢
    omega
  unfold format
  rw [if_pos hmillis]
  have hname : "ms" ∈ TimeUnit.millisecond.names := by decide
  exact parse_numeral _ hname (ofBinary64?_millis hlt)

theorem ofSeconds_seconds {d : Duration} (h : d.subsecNanos = 0) : .ofSeconds d.seconds = d := by
  obtain ⟨nanos⟩ := d
  simp only [subsecNanos] at h
  simp only [ofSeconds, seconds, mk.injEq]
  omega

theorem ofMillis_millis {d : Duration} (h : d.subsecNanos = 0) : .ofMillis d.millis = d := by
  obtain ⟨nanos⟩ := d
  simp only [subsecNanos] at h
  simp only [ofMillis, millis, mk.injEq]
  omega

theorem parse_seconds {d : Duration} (hsub : d.subsecNanos = 0) (hle : d.seconds ≤ twoTo 53)
    {unit : String} {u : TimeUnit} (hunit : unit ∈ u.names) (hu : u ≠ .millisecond)
    (hmod : d.seconds % u.size = 0) : parse (toString (d.seconds / u.size) ++ unit) = .ok d := by
  have hexact : d.seconds / u.size * u.size = d.seconds :=
    Nat.div_mul_cancel (Nat.dvd_of_mod_eq_zero hmod)
  apply parse_numeral _ hunit
  rw [TimeUnit.toSeconds_ofNat hu (by rwa [hexact]), hexact, ofBinary64?_seconds hle,
    ofSeconds_seconds hsub]

/-- The units that are written are known when they are read. -/
theorem unit_of_mem_wholeUnits {unit : String} {size : Nat} (h : (unit, size) ∈ wholeUnits) :
    ∃ u : TimeUnit, unit ∈ u.names ∧ u ≠ .millisecond ∧ u.size = size := by
  simp only [wholeUnits, List.mem_cons, Prod.mk.injEq, List.not_mem_nil, or_false] at h
  rcases h with ⟨rfl, rfl⟩ | ⟨rfl, rfl⟩ | ⟨rfl, rfl⟩ | ⟨rfl, rfl⟩
  · exact ⟨.week, by decide⟩
  · exact ⟨.day, by decide⟩
  · exact ⟨.hour, by decide⟩
  · exact ⟨.minute, by decide⟩

theorem parse_format_seconds {d : Duration} (hsub : d.subsecNanos = 0)
    (hle : d.seconds ≤ twoTo 53) : parse d.format = .ok d := by
  by_cases hzero : d.seconds = 0
  · have hshort : d < .ofSeconds (twoTo 23) := by
      rw [← ofSeconds_seconds hsub, hzero]
      decide
    rw [parse_format_millis hshort (.inr hzero), ofMillis_millis hsub]
  unfold format
  rw [if_neg (by simp [hsub, hzero])]
  split
  · next unit size hfind =>
    have hmod : d.seconds % size = 0 := by simpa using List.find?_some hfind
    obtain ⟨u, hunit, hu, rfl⟩ := unit_of_mem_wholeUnits (List.mem_of_find?_eq_some hfind)
    exact parse_seconds hsub hle hunit hu hmod
  · have hname : "s" ∈ TimeUnit.second.names := by decide
    have hone := parse_seconds hsub hle hname (by decide) (Nat.mod_one _)
    rwa [TimeUnit.size, Nat.div_one] at hone

theorem parse_format_brief {d : Duration} (h : d < .ofSeconds (twoTo 23)) :
    parse d.format = .ok (.ofMillis d.millis) := by
  by_cases hsub : d.subsecNanos = 0
  · have hle : d.seconds ≤ twoTo 53 := by
      have hnanos : d.nanos < twoTo 23 * 1000000000 := h
      simp only [seconds, twoTo, Nat.pow_eq] at hnanos ⊢
      omega
    rw [ofMillis_millis hsub]
    exact parse_format_seconds hsub hle
  · exact parse_format_millis h (.inl hsub)

/-- **What is read back.** Of a duration below 2²³ seconds that is its whole milliseconds; whole
seconds up to 2⁵³ are read back as they are. -/
theorem parse_format :
    (∀ d : Duration, d < .ofSeconds (twoTo 23) → parse d.format = .ok (.ofMillis d.millis))
      ∧ ∀ s, s ≤ twoTo 53 → parse (ofSeconds s).format = .ok (.ofSeconds s) := by
  refine ⟨fun d h => parse_format_brief h, fun s hle => parse_format_seconds ?_ ?_⟩
  · exact Nat.mul_mod_left s 1000000000
  · have hseconds : (ofSeconds s).seconds = s := Nat.mul_div_cancel s (by decide)
    rwa [hseconds]

/-- The last nanosecond before the bound, and as many seconds as a binary64 counts one by one. -/
theorem parse_format_longest :
    (⟨8388607999999999⟩ : Duration) < .ofSeconds (twoTo 23)
      ∧ parse (⟨8388607999999999⟩ : Duration).format = .ok (.ofMillis 8388607999)
      ∧ 9007199254740992 ≤ twoTo 53
      ∧ parse (ofSeconds 9007199254740992).format = .ok (.ofSeconds 9007199254740992) :=
  ⟨by decide, parse_format.1 _ (by decide), by decide, parse_format.2 _ (by decide)⟩

/-! ## What keeps a duration -/

/-- A number of whole seconds that a binary64 has room for. -/
def IsWholeSeconds (d : Duration) : Prop := d.subsecNanos = 0 ∧ d.seconds < twoTo 53

instance (d : Duration) : Decidable d.IsWholeSeconds :=
  inferInstanceAs (Decidable (d.subsecNanos = 0 ∧ d.seconds < twoTo 53))

/-- Below 2⁵² nanoseconds, which is more than 52 days. -/
def IsShort (d : Duration) : Prop := d.nanos < twoTo 52

instance (d : Duration) : Decidable d.IsShort := inferInstanceAs (Decidable (d.nanos < twoTo 52))

theorem parse_format_iff {d : Duration} (h : d.IsShort) :
    parse d.format = .ok d ↔ d.nanos % 1000000 = 0 := by
  have hbrief : d < .ofSeconds (twoTo 23) := Nat.lt_trans h (by decide)
  rw [parse_format_brief hbrief, Except.ok.injEq]
  obtain ⟨nanos⟩ := d
  simp only [ofMillis, millis, mk.injEq]
  omega

theorem parse_format_whole {d : Duration}
    (h : d.IsWholeSeconds ∨ d.IsShort ∧ d.nanos % 1000000 = 0) : parse d.format = .ok d := by
  rcases h with ⟨hsub, hlt⟩ | ⟨hshort, hmillis⟩
  · exact parse_format_seconds hsub (Nat.le_of_lt hlt)
  · exact (parse_format_iff hshort).mpr hmillis

end Duration

end RepoSelect
