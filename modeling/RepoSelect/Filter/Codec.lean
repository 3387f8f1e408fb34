import RepoSelect.Document
import RepoSelect.Filter.Markers
import RepoSelect.Json.Basic

/-!
# Markers in documents

A record of three texts, none of which has to be there, and no others.
-/

namespace RepoSelect.Markers

open Document

def slots (δ : Type) [Document δ] : List (Slot δ Markers) :=
  [ { name := "label", put := fun d m => do .ok { m with label := ← readText d } },
    { name := "skip", put := fun d m => do .ok { m with skip := ← readText d } },
    { name := "force", put := fun d m => do .ok { m with force := ← readText d } } ]

def ofDocument {δ : Type} [Document δ] : δ → Reading Markers :=
  readRecord "Markers" true (slots δ) {}

def toJson (m : Markers) : Json.Value :=
  .object [("label", .string m.label), ("skip", .string m.skip), ("force", .string m.force)]

end RepoSelect.Markers
