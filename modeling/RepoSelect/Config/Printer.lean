import RepoSelect.Config.Basic
import RepoSelect.Json.Basic
import RepoSelect.Yaml.Printer

/-!
# Writing a configuration

Every setting with its value, in YAML or as a JSON value; a limit on listing only if there is
one.
-/

namespace RepoSelect

namespace Yaml.Value

mutual

/-- The same value in JSON. -/
def toJson : Value → Json.Value
  | null => .null
  | bool b => .bool b
  | text s => .string s
  | list items => .array (itemsToJson items)
  | table entries => .object (entriesToJson entries)

def itemsToJson : List Value → List Json.Value
  | [] => []
  | v :: vs => v.toJson :: itemsToJson vs

def entriesToJson : List (String × Value) → List (String × Json.Value)
  | [] => []
  | (k, v) :: rest => (k, v.toJson) :: entriesToJson rest

end

def ofOption (s : Option String) : Value := (s.map text).getD null

def texts (ss : List String) : Value := list (ss.map text)

end Yaml.Value

open Yaml (Value)

def Markers.toYaml (m : Markers) : Value :=
  .table [("label", .text m.label), ("skip", .text m.skip), ("force", .text m.force)]

def CacheSettings.toYaml (c : CacheSettings) : Value :=
  .table
    [ ("ttl", .text c.ttl.format),
      ("dir", .ofOption c.dir),
      ("file", .ofOption c.file),
      ("filename", .text c.filename) ]

def FilterSettings.toYaml (f : FilterSettings) : Value :=
  .table
    [ ("skip_unwanted", .bool f.skipUnwanted),
      ("unwanted", .texts f.unwanted),
      ("sort", .bool f.sort),
      ("superset", .text f.superset),
      ("markers", f.markers.toYaml) ]

namespace Config

def entries (c : Config) : List (String × Value) :=
  [("provider", .text c.provider), ("projects", .texts c.projects),
    ("git_host", .ofOption c.gitHost)]
  ++ (match c.fetchTimeout with
    | some d => [("fetch_timeout", .text d.format)]
    | none => [])
  ++ [ ("provider_options", .table (c.providerOptions.toList.map fun (k, v) => (k, .text v))),
    ("cache", c.cache.toYaml),
    ("filter", c.filter.toYaml),
    ("aliases", .table (c.aliases.toList.map fun (k, v) => (k, .texts v))) ]

def print (c : Config) : String := Yaml.Printer.table c.entries

end Config

end RepoSelect
