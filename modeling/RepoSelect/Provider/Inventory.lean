import RepoSelect.Json.Decode
import RepoSelect.Provider.Basic
import RepoSelect.Repository.Codec
import RepoSelect.Yaml.Decode

/-!
# Inventories

A provider that finds the repositories of its project in a file: a table from projects to
lists of repositories, in YAML, or in JSON where the name of the file says so. The file is
read anew for every listing.
-/

namespace RepoSelect

open Document

structure Inventory where
  project : String
  path : String
deriving Repr, DecidableEq

namespace Inventory

def providerName : String := "static"

/-- The option that names the file. -/
def optionName : String := "inventory"

def ofSettings (s : ProviderSettings) : Except Failure Inventory := do
  let path ← s.require optionName
  .ok ⟨s.project, if Path.isAbsolute path then path else Path.join s.baseDir path⟩

def isJson (i : Inventory) : Bool :=
  (Path.extension? i.path).any fun ext => ext.toList.map Char.toLower = "json".toList

def ofDocument {δ : Type} [Document δ] (d : δ) : Reading (NameMap (List Repository)) := do
  .ok (.ofList (← readTable (readList Repository.ofDocument) d))

/-- A failure to list, for a reason. -/
def refuse (i : Inventory) (reason : String) : Failure :=
  .providerFetch i.project (i.path ++ ": " ++ reason)

/-- The repositories of all projects. -/
def read (i : Inventory) (t : FileTree) : Except Failure (NameMap (List Repository)) := do
  let text ← (t.readText i.path).mapError fun fault => i.refuse fault.message
  let read := if i.isJson then Json.decode ofDocument else Yaml.decode ofDocument
  (read text).mapError fun fault => i.refuse fault.message

/-- The repositories of the project. -/
def list (i : Inventory) (t : FileTree) : Except Failure (List Repository) := do
  match (← i.read t)[i.project]? with
  | some rs => .ok (rs.map fun r => { r with project := i.project })
  | none => .error (i.refuse ("project '" ++ i.project ++ "' not found in inventory"))

def listing (i : Inventory) (t : FileTree) : Listing :=
  match i.list t with
  | .error failure => { answer := .error (.failed failure) }
  | .ok rs =>
    { answer := .ok rs
      log := [⟨.debug, .inventory, "Inventory " ++ i.path ++ " lists " ++ toString rs.length
        ++ " repositories for project '" ++ i.project ++ "'"⟩] }

def provider (i : Inventory) : Provider := { name := providerName, list := i.listing }

end Inventory

/-- The registry of the providers that are there from the start. -/
def ProviderRegistry.builtin : ProviderRegistry :=
  empty.register Inventory.providerName fun s => (Inventory.ofSettings s).map Inventory.provider

end RepoSelect
