import RepoSelect.Proofs.Cache.Load
import RepoSelect.Proofs.Cache.Outcome
import RepoSelect.Proofs.Instant.Elapsed

/-!
# A cache that has expired

A record is too old from the moment on at which its age exceeds the limit. Whether it stays so is a
question of its time stamp alone:

> For every limit, a cache that has expired is still expired at each later moment, unless the end of
> a day lies between that sets the age back (`expired_stays_iff`).

An age is set back only for a stamp in a leap second within a day, by less than a second, so that a
limit between the two ages makes the cache fresh for another moment (`expired_then_fresh`).
-/

namespace RepoSelect.Cache

open Timestamp

variable {t : FileTree} {path : String} {ttl : Duration} {now later : Timestamp} {r : CacheRecord}

/-- A load finds a record that is too old. -/
def IsExpired (t : FileTree) (path : String) (ttl : Duration) (now : Timestamp) : Prop :=
  ∃ age, load t path ttl now = .error (.cacheExpired path age)

theorem isExpired_iff (hread : read t path = .ok r) :
    IsExpired t path ttl now ↔ ttl < r.ageAt now := by
  have hjudged := judged t path ttl now
  rw [hread] at hjudged
  unfold IsExpired
  generalize load t path ttl now = loaded at hjudged
  cases hjudged with
  | expired hage => exact iff_of_true ⟨_, rfl⟩ hage
  | fresh hage => exact iff_of_false nofun hage

/-- **Expired for good.** Whatever the limit, a record that is too old is so at each later moment,
exactly if its age is not set back between the two. -/
theorem expired_stays_iff (hread : read t path = .ok r) (hnow : now.isLeap = false)
    (hlater : later.isLeap = false) (horder : now ≤ later) :
    (∀ ttl, IsExpired t path ttl now → IsExpired t path ttl later)
      ↔ ¬SetsBack r.updatedAt now later := by
  have hback : r.ageAt later < r.ageAt now ↔ SetsBack r.updatedAt now later :=
    since_lt_since_iff hnow hlater horder
  rw [← hback]
  constructor
  · intro hstays hlt
    have hexpired : IsExpired t path (r.ageAt later) now := (isExpired_iff hread).mpr hlt
    exact Nat.lt_irrefl _ ((isExpired_iff hread).mp (hstays _ hexpired))
  · intro hle ttl hexpired
    rw [isExpired_iff hread] at hexpired ⊢
    exact Nat.lt_of_lt_of_le hexpired (Nat.not_lt.mp hle)

/-! ## Around a midnight -/

/-- A time of 17 October 2026. -/
def october17 (second : Fin 86400) (nanos : Fin 2000000000) : Timestamp where
  day := 20743
  second := second
  nanos := nanos
  day_inRange := by decide
  second_lt := second.isLt
  nanos_lt := nanos.isLt

/-- A leap second behind a minute of that day. -/
def noonLeapSecond : Timestamp := october17 43259 1000000000

/-- In the middle of the last second of that day. -/
def beforeMidnight : Timestamp := october17 86399 500000000

/-- So many nanoseconds behind the end of that day. -/
def afterMidnight (nanos : Fin 2000000000) : Timestamp :=
  { october17 0 nanos with day := 20744, day_inRange := by decide }

/-- An empty record with that stamp. -/
def noonRecord : CacheRecord := ⟨noonLeapSecond, ∅⟩

theorem exists_noonFiles :
    ∃ t, save "c.json" noonRecord {} = .ok () t ∧ read t "c.json" = .ok noonRecord := by
  have hsave := ready_empty.save_eq noonRecord
  refine ⟨_, hsave, ?_⟩
  rw [read_of_saved hsave, Except.ok.injEq, asWritten_eq_iff]
  decide

/-- A whole second later the record is still expired. -/
theorem expired_a_second_later :
    ∃ t, save "c.json" noonRecord {} = .ok () t
      ∧ beforeMidnight.isLeap = false ∧ (afterMidnight 500000000).isLeap = false
      ∧ beforeMidnight ≤ afterMidnight 500000000
      ∧ IsExpired t "c.json" (.ofSeconds 43140) beforeMidnight
      ∧ IsExpired t "c.json" (.ofSeconds 43140) (afterMidnight 500000000) := by
  obtain ⟨t, hsave, hread⟩ := exists_noonFiles
  have hexpired : IsExpired t "c.json" (.ofSeconds 43140) beforeMidnight :=
    (isExpired_iff hread).mpr (by decide)
  have hback : ¬SetsBack noonRecord.updatedAt beforeMidnight (afterMidnight 500000000) :=
    fun h => absurd h.nanos_lt (by decide)
  refine ⟨t, hsave, by decide, by decide, by decide, hexpired, ?_⟩
  exact (expired_stays_iff hread (by decide) (by decide) (by decide)).mpr hback _ hexpired

/-- **Half a second later, at midnight, the record that was expired is fresh.** -/
theorem expired_then_fresh :
    ∃ t, save "c.json" noonRecord {} = .ok () t
      ∧ beforeMidnight.isLeap = false ∧ (afterMidnight 0).isLeap = false
      ∧ beforeMidnight ≤ afterMidnight 0
      ∧ IsExpired t "c.json" (.ofSeconds 43140) beforeMidnight
      ∧ load t "c.json" (.ofSeconds 43140) (afterMidnight 0) = .ok noonRecord := by
  obtain ⟨t, hsave, hread⟩ := exists_noonFiles
  refine ⟨t, hsave, by decide, by decide, by decide, (isExpired_iff hread).mpr (by decide), ?_⟩
  exact load_eq_ok.mpr ⟨hread, by decide⟩

end RepoSelect.Cache
