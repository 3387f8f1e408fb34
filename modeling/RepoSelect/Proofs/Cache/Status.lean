import RepoSelect.Cache.Status
import RepoSelect.Proofs.Cache.Load

/-!
# What is shown of a cache, and what a load makes of it

Whether a record is loaded and how the cache is shown are decided apart from each other, and the two
decisions are the same:

> A cache is shown as not there, as of no use, as expired or as fresh exactly if a load finds no
> file, finds a file that holds no record, finds a record that is too old, or gives the record
> (`shown_as_loaded`).

Both start from what reading gives, so that there are four cases (`judged`). A record whose age is
the limit itself is fresh for both of them.
-/

namespace RepoSelect

open Json (Value)

/-! ## Warnings -/

theorem Style.head?_warning (style : Style) (message : String) :
    (style.warning message).toList.head? = some (if style.color then '\x1b' else 'w') := by
  obtain ⟨color⟩ := style
  cases color <;> simp [warning, paint]

/-- A warning starts with its own word or with a change of colour. -/
theorem Style.warning_ne (style : Style) (message : String) {text : String}
    (hword : text.toList.head? ≠ some 'w') (hcolor : text.toList.head? ≠ some '\x1b') :
    style.warning message ≠ text := by
  rintro rfl
  rw [head?_warning] at hword hcolor
  split at hword
  · next h => exact hcolor (by rw [if_pos h])
  · exact hword rfl

namespace Cache

variable {path : String} {ttl : Duration} {now : Timestamp}
  {found loaded : Except Failure CacheRecord}

/-! ## What is shown -/

namespace Status

variable {s : Status} {style : Style} {message : String}

/-- A field of the state, as JSON shows it. -/
def field? (s : Status) (name : String) : Option Value :=
  match s.toJson with
  | .object fields => fields.lookup name
  | _ => none

/-- The status line of the text has this behind its title. -/
def Says (s : Status) (style : Style) (text : String) : Prop :=
  (s.lines style)[1]? = some ("Status:     " ++ text)

theorem isFresh_eq_true {r : CacheRecord} : s.isFresh r = true ↔ ¬s.ttl < r.ageAt s.now := by
  rw [isFresh, decide_eq_true_eq]
  exact Nat.not_lt.symm

theorem isFresh_eq_false {r : CacheRecord} : s.isFresh r = false ↔ s.ttl < r.ageAt s.now := by
  rw [← Bool.not_eq_true, isFresh_eq_true, Decidable.not_not]

theorem field?_exists : s.field? "exists" = some (.bool false) ↔ s.state = .absent := by
  rw [field?, toJson]
  cases s.state <;> simp [List.lookup_cons]

theorem field?_error {v : Value} :
    s.field? "error" = some v ↔ ∃ message, s.state = .unusable message ∧ v = .string message := by
  rw [field?, toJson]
  cases s.state <;> simp [List.lookup_cons, List.lookup_nil, eq_comm]

theorem field?_fresh {b : Bool} :
    s.field? "fresh" = some (.bool b) ↔ ∃ r, s.state = .present r ∧ s.isFresh r = b := by
  rw [field?, toJson]
  cases s.state <;> simp [List.lookup_cons, List.lookup_nil]

theorem field?_of_present {r : CacheRecord} (h : s.state = .present r) :
    s.field? "updated_at" = some (.string r.updatedAt.print)
      ∧ s.field? "repositories" = some (.ofNat r.repositories.size) := by
  rw [field?, field?, toJson, h]
  simp [List.lookup_cons]

/-- What the status line says of each state. -/
def verdict (s : Status) (style : Style) : String :=
  match s.state with
  | .absent => "not populated"
  | .unusable message => style.warning message
  | .present r => if s.isFresh r then "fresh" else "expired"

theorem says_iff {text : String} : s.Says style text ↔ s.verdict style = text := by
  have habsent : "Status:     not populated" = "Status:     " ++ "not populated" := rfl
  rw [Says, lines, verdict]
  cases s.state with
  | absent =>
    simp only [List.getElem?_cons_succ, List.getElem?_cons_zero, Option.some.injEq]
    rw [habsent, String.append_right_inj]
  | unusable message => simp
  | present r => simp

theorem says_absent : s.Says style "not populated" ↔ s.state = .absent := by
  rw [says_iff, verdict]
  cases s.state with
  | absent => simp
  | unusable message =>
    have hwarning : style.warning message ≠ "not populated" :=
      style.warning_ne message (by decide) (by decide)
    simp [hwarning]
  | present r => cases hfresh : s.isFresh r <;> simp [hfresh]

theorem says_warning : s.Says style (style.warning message) ↔ s.state = .unusable message := by
  rw [says_iff, verdict]
  cases s.state with
  | absent =>
    have hwarning : style.warning message ≠ "not populated" :=
      style.warning_ne message (by decide) (by decide)
    simp [hwarning.symm]
  | unusable message => simp [Style.warning]
  | present r =>
    have hwarning : style.warning message ≠ if s.isFresh r then "fresh" else "expired" := by
      split <;> exact style.warning_ne message (by decide) (by decide)
    simp [hwarning.symm]

theorem says_freshness {b : Bool} :
    s.Says style (if b then "fresh" else "expired")
      ↔ ∃ r, s.state = .present r ∧ s.isFresh r = b := by
  have hwarning (message : String) : style.warning message ≠ if b then "fresh" else "expired" := by
    cases b <;> exact style.warning_ne message (by decide) (by decide)
  rw [says_iff, verdict]
  cases s.state with
  | absent => cases b <;> simp
  | unusable message => simp [hwarning]
  | present r => cases b <;> cases hfresh : s.isFresh r <;> simp [hfresh]

end Status

/-! ## The two decisions -/

theorem Status.ofRead_present (path : String) (ttl : Duration) (now : Timestamp)
    (r : CacheRecord) : (ofRead path ttl now (.ok r)).state = .present r := rfl

namespace Judged

variable {message : String} {r : CacheRecord}

theorem loaded_cases (h : Judged path ttl now found loaded) :
    loaded = .error (.cacheMissing path) ∨ (∃ fault, loaded = .error (.cacheCorrupt path fault))
      ∨ (∃ age, loaded = .error (.cacheExpired path age)) ∨ ∃ r, loaded = .ok r := by
  cases h with
  | missing => exact .inl rfl
  | corrupt message => exact .inr (.inl ⟨message, rfl⟩)
  | expired hage => exact .inr (.inr (.inl ⟨_, rfl⟩))
  | @fresh r hage => exact .inr (.inr (.inr ⟨r, rfl⟩))

theorem absent_iff (h : Judged path ttl now found loaded) :
    (Status.ofRead path ttl now found).state = .absent ↔ loaded = .error (.cacheMissing path) := by
  cases h <;> simp [Status.ofRead]

theorem unusable_iff (h : Judged path ttl now found loaded) :
    (Status.ofRead path ttl now found).state = .unusable message
      ↔ ∃ fault, loaded = .error (.cacheCorrupt path fault)
        ∧ message = (Failure.cacheCorrupt path fault).message := by
  cases h <;> simp [Status.ofRead, eq_comm]

theorem expired_iff (h : Judged path ttl now found loaded) :
    (∃ r, (Status.ofRead path ttl now found).state = .present r
        ∧ (Status.ofRead path ttl now found).isFresh r = false)
      ↔ ∃ age, loaded = .error (.cacheExpired path age) := by
  cases h with
  | missing => simp [Status.ofRead]
  | corrupt message => simp [Status.ofRead]
  | @expired r hage => exact iff_of_true ⟨r, rfl, Status.isFresh_eq_false.mpr hage⟩ ⟨_, rfl⟩
  | @fresh r hage =>
    have hfresh : (Status.ofRead path ttl now (.ok r)).isFresh r = true :=
      Status.isFresh_eq_true.mpr hage
    simp [Status.ofRead_present, hfresh]

theorem fresh_iff (h : Judged path ttl now found loaded) :
    ((Status.ofRead path ttl now found).state = .present r
        ∧ (Status.ofRead path ttl now found).isFresh r = true)
      ↔ loaded = .ok r := by
  cases h with
  | missing => simp [Status.ofRead]
  | corrupt message => simp [Status.ofRead]
  | @expired r' hage =>
    have hstale : (Status.ofRead path ttl now (.ok r')).isFresh r' = false :=
      Status.isFresh_eq_false.mpr hage
    simp only [Status.ofRead_present, State.present.injEq, reduceCtorEq, iff_false, not_and]
    rintro rfl
    simp [hstale]
  | @fresh r' hage =>
    have hfresh : (Status.ofRead path ttl now (.ok r')).isFresh r' = true :=
      Status.isFresh_eq_true.mpr hage
    simp only [Status.ofRead_present, State.present.injEq, Except.ok.injEq, and_iff_left_iff_imp]
    rintro rfl
    exact hfresh

end Judged

/-- **Shown and loaded alike.** Whatever is at the path, for every limit and time the cache is shown
as not there exactly if a load misses it, as of no use exactly if a load finds it corrupt, as
expired exactly if a load does, and as fresh exactly if a load gives a record, whose time and size
are then shown. A load has no other end. The status line has the word that goes with it. -/
theorem shown_as_loaded (t : FileTree) (path : String) (ttl : Duration) (now : Timestamp)
    (style : Style) :
    let s := Status.ofRead path ttl now (read t path)
    let loaded := load t path ttl now
    (loaded = .error (.cacheMissing path) ∨ (∃ fault, loaded = .error (.cacheCorrupt path fault))
        ∨ (∃ age, loaded = .error (.cacheExpired path age)) ∨ ∃ r, loaded = .ok r)
      ∧ (s.field? "exists" = some (.bool false) ↔ loaded = .error (.cacheMissing path))
      ∧ (s.Says style "not populated" ↔ loaded = .error (.cacheMissing path))
      ∧ (∀ v, s.field? "error" = some v ↔ ∃ fault, loaded = .error (.cacheCorrupt path fault)
          ∧ v = .string (Failure.cacheCorrupt path fault).message)
      ∧ (∀ message, s.Says style (style.warning message)
          ↔ ∃ fault, loaded = .error (.cacheCorrupt path fault)
            ∧ message = (Failure.cacheCorrupt path fault).message)
      ∧ (s.field? "fresh" = some (.bool false) ↔ ∃ age, loaded = .error (.cacheExpired path age))
      ∧ (s.Says style "expired" ↔ ∃ age, loaded = .error (.cacheExpired path age))
      ∧ (s.field? "fresh" = some (.bool true) ↔ ∃ r, loaded = .ok r)
      ∧ (s.Says style "fresh" ↔ ∃ r, loaded = .ok r)
      ∧ ∀ r, loaded = .ok r ↔ s.state = .present r
          ∧ s.field? "fresh" = some (.bool true)
          ∧ s.field? "updated_at" = some (.string r.updatedAt.print)
          ∧ s.field? "repositories" = some (.ofNat r.repositories.size) := by
  intro s loaded
  have h : Judged path ttl now (read t path) loaded := judged t path ttl now
  have hfresh : (∃ r, s.state = .present r ∧ s.isFresh r = true) ↔ ∃ r, loaded = .ok r :=
    exists_congr fun r => h.fresh_iff
  refine ⟨h.loaded_cases, Status.field?_exists.trans h.absent_iff,
    Status.says_absent.trans h.absent_iff, fun v => ?_,
    fun message => Status.says_warning.trans h.unusable_iff,
    Status.field?_fresh.trans h.expired_iff,
    (Status.says_freshness (b := false)).trans h.expired_iff,
    Status.field?_fresh.trans hfresh, (Status.says_freshness (b := true)).trans hfresh,
    fun r => ⟨fun hr => ?_, fun ⟨hpresent, hshown, _⟩ => ?_⟩⟩
  · rw [Status.field?_error]
    constructor
    · rintro ⟨message, hstate, rfl⟩
      obtain ⟨fault, hloaded, rfl⟩ := h.unusable_iff.mp hstate
      exact ⟨fault, hloaded, rfl⟩
    · rintro ⟨fault, hloaded, rfl⟩
      exact ⟨_, h.unusable_iff.mpr ⟨fault, hloaded, rfl⟩, rfl⟩
  · obtain ⟨hpresent, hisFresh⟩ := h.fresh_iff.mpr hr
    exact ⟨hpresent, Status.field?_fresh.mpr ⟨r, hpresent, hisFresh⟩,
      Status.field?_of_present hpresent⟩
  · obtain ⟨r', hpresent', hisFresh⟩ := Status.field?_fresh.mp hshown
    obtain rfl := State.present.inj (hpresent.symm.trans hpresent')
    exact h.fresh_iff.mp ⟨hpresent, hisFresh⟩

end Cache

end RepoSelect
