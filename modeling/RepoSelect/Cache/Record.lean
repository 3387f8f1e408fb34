import RepoSelect.Instant.Printer
import RepoSelect.Instant.Reader
import RepoSelect.Json.Decode
import RepoSelect.Json.Printer
import RepoSelect.Repository.Codec

/-!
# Cache records

A catalog and the time at which it was taken, and their JSON text.
-/

namespace RepoSelect

open Document

structure CacheRecord where
  updatedAt : Timestamp
  repositories : Catalog
deriving DecidableEq

namespace CacheRecord

/-- The time since the record was taken; zero for a stamp in the future. -/
def ageAt (r : CacheRecord) (now : Timestamp) : Duration := now.since r.updatedAt

end CacheRecord

/-- The first instant of 1970, in local time without an offset. -/
def Instant.epoch : Instant :=
  ⟨⟨0, 0, 0, by decide, by decide, by decide⟩, by decide⟩

def Instant.ofDocument {δ : Type} [Document δ] (d : δ) : Reading Instant := do
  let text ← readTextAs "an RFC 3339 formatted date and time string" d
  atCause δ ((Instant.read text).mapError fun f => .refused f.message)

namespace CacheRecord

def slots (δ : Type) [Document δ] : List (Slot δ CacheRecord) :=
  [ { name := "updated_at", required := true
      put := fun d r => do .ok { r with updatedAt := ← Instant.ofDocument d } },
    { name := "repositories", required := true
      put := fun d r => do .ok { r with repositories := ← Catalog.ofDocument d } } ]

def ofDocument {δ : Type} [Document δ] : δ → Reading CacheRecord :=
  readRecord "CacheRecord" false (slots δ) ⟨Instant.epoch, ∅⟩

def toJson (r : CacheRecord) : Json.Value :=
  .object
    [ ("updated_at", .string r.updatedAt.print),
      ("repositories", Catalog.toJson r.repositories) ]

/-- The text of a cache file. -/
def print (r : CacheRecord) : String := Json.print r.toJson

/-- Reads the content of a cache file. -/
def parse (content : ByteArray) : Reading CacheRecord := Json.decodeBytes ofDocument content

end CacheRecord

end RepoSelect
