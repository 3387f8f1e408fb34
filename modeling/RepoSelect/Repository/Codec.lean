import RepoSelect.Document
import RepoSelect.Json.Basic
import RepoSelect.Repository.Basic

/-!
# Repositories in documents

The members of a repository's record, read from any format and written as JSON. Only the
name has to be there, and members of other names are passed over.
-/

namespace RepoSelect

open Document

namespace Repository

def slots (δ : Type) [Document δ] : List (Slot δ Repository) :=
  [ { name := "name", required := true
      put := fun d r => do .ok { r with name := ← readText d } },
    { name := "description", put := fun d r => do .ok { r with description := ← readText d } },
    { name := "public", put := fun d r => do .ok { r with isPublic := ← readFlag d } },
    { name := "project", put := fun d r => do .ok { r with project := ← readText d } },
    { name := "default_branch"
      put := fun d r => do .ok { r with defaultBranch := ← readText d } },
    { name := "labels", put := fun d r => do .ok { r with labels := ← readList readText d } } ]

def ofDocument {δ : Type} [Document δ] : δ → Reading Repository :=
  readRecord "Repository" false (slots δ) { name := "" }

def toJson (r : Repository) : Json.Value :=
  .object
    [ ("name", .string r.name),
      ("description", .string r.description),
      ("public", .bool r.isPublic),
      ("project", .string r.project),
      ("default_branch", .string r.defaultBranch),
      ("labels", .array (r.labels.map .string)) ]

end Repository

namespace Catalog

/-- A table of records; of two entries with one key the later counts. -/
def ofDocument {δ : Type} [Document δ] (d : δ) : Reading Catalog := do
  .ok (.ofList (← readTable Repository.ofDocument d))

def toJson (c : Catalog) : Json.Value := .object (c.toList.map fun (k, r) => (k, r.toJson))

end Catalog

end RepoSelect
