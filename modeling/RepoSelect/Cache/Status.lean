import RepoSelect.Cache.Record
import RepoSelect.Failure
import RepoSelect.Style

/-!
# The state of a cache

What a reader of the cache would find: nothing, a record and its age, or a reason why the
file is of no use; as text and as JSON.
-/

namespace RepoSelect.Cache

inductive State where
  | absent
  | present (record : CacheRecord)
  | unusable (message : String)

structure Status where
  path : String
  ttl : Duration
  now : Timestamp
  state : State

namespace Status

/-- The state as the outcome of reading the file says it. -/
def ofRead (path : String) (ttl : Duration) (now : Timestamp) (r : Except Failure CacheRecord) :
    Status :=
  ⟨path, ttl, now, match r with
    | .ok record => .present record
    | .error (.cacheMissing _) => .absent
    | .error failure => .unusable failure.message⟩

/-- An age in whole seconds, one at least. -/
def ageText (age : Duration) : String := (Duration.ofSeconds (max 1 age.seconds)).format

def isFresh (s : Status) (r : CacheRecord) : Bool := r.ageAt s.now ≤ s.ttl

open Json (Value)

def toJson (s : Status) : Value :=
  let ttl := ("ttl", Value.string s.ttl.format)
  .object <| ("path", .string s.path) :: match s.state with
    | .absent => [("exists", .bool false), ttl]
    | .unusable message => [("exists", .bool true), ttl, ("error", .string message)]
    | .present r =>
      [ ("exists", .bool true),
        ("updated_at", .string r.updatedAt.print),
        ("age", .string (ageText (r.ageAt s.now))),
        ttl,
        ("fresh", .bool (s.isFresh r)),
        ("repositories", .ofNat r.repositories.size) ]

def lines (s : Status) (style : Style) : List String :=
  let ttl := "TTL:        " ++ s.ttl.format
  ("Cache file: " ++ s.path) :: match s.state with
    | .absent => ["Status:     not populated", ttl]
    | .unusable message => ["Status:     " ++ style.warning message]
    | .present r =>
      [ "Status:     " ++ if s.isFresh r then "fresh" else "expired",
        "Updated:    " ++ r.updatedAt.printSeconds ++ " (" ++ ageText (r.ageAt s.now) ++ " ago)",
        ttl,
        "Repos:      " ++ toString r.repositories.size ]

end Status

end RepoSelect.Cache
