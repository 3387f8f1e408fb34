import RepoSelect.Config.Basic
import RepoSelect.Filter.Codec
import RepoSelect.Yaml.Decode

/-!
# Reading a configuration

The YAML text of a configuration as a record with sections. A duration is a number of seconds
or a text, and the projects are a list or a single name.
-/

namespace RepoSelect

open Document Yaml

/-- How many levels of collections a document may have. -/
def maxDepth : Nat := 128

/-- A duration inside `level` collections. -/
def Duration.ofPart (level : Nat) (p : Part) : Reading Duration := do
  match ← Content.ofPart (maxDepth - level) p with
  | .integer n =>
    if 0 ≤ n then .ok (.ofSeconds n.toNat) else .error ⟨.noAlternative "Raw", none⟩
  | .text s =>
    match Duration.parse s with
    | .ok d => .ok d
    | .error fault => .error ⟨.refused (Failure.config (.duration fault)).message, none⟩
  | _ => .error ⟨.noAlternative "Raw", none⟩

def Content.text? : Content → Option String
  | .text s => some s
  | _ => none

/-- A list of names, or one name alone. -/
def oneOrMany (level : Nat) (p : Part) : Reading (List String) := do
  let names? := match ← Content.ofPart (maxDepth - level) p with
    | .text s => some [s]
    | .list items => items.mapM Content.text?
    | _ => none
  match names? with
  | some names => .ok names
  | none => .error ⟨.noAlternative "OneOrMany", none⟩

def readPath (p : Part) : Reading (Option String) := readOption (readTextAs "path string") p

namespace CacheSettings

def slots : List (Slot Part CacheSettings) :=
  [ { name := "ttl", put := fun p c => do .ok { c with ttl := ← Duration.ofPart 2 p } },
    { name := "dir", put := fun p c => do .ok { c with dir := ← readPath p } },
    { name := "file", put := fun p c => do .ok { c with file := ← readPath p } },
    { name := "filename", put := fun p c => do .ok { c with filename := ← readText p } } ]

def ofPart : Part → Reading CacheSettings := readRecord "CacheConfig" true slots {}

end CacheSettings

namespace FilterSettings

def slots : List (Slot Part FilterSettings) :=
  [ { name := "skip_unwanted"
      put := fun p f => do .ok { f with skipUnwanted := ← readFlag p } },
    { name := "unwanted"
      put := fun p f => do .ok { f with unwanted := ← readList readText p } },
    { name := "sort", put := fun p f => do .ok { f with sort := ← readFlag p } },
    { name := "superset", put := fun p f => do .ok { f with superset := ← readText p } },
    { name := "markers"
      put := fun p f => do .ok { f with markers := ← Markers.ofDocument p } } ]

def ofPart : Part → Reading FilterSettings := readRecord "FilterConfig" true slots {}

end FilterSettings

namespace Config

def slots : List (Slot Part Config) :=
  [ { name := "provider", required := true
      put := fun p c => do .ok { c with provider := ← readText p } },
    { name := "projects", aliases := ["project"], required := true
      put := fun p c => do .ok { c with projects := ← oneOrMany 1 p } },
    { name := "git_host"
      put := fun p c => do .ok { c with gitHost := ← readOption readText p } },
    { name := "fetch_timeout"
      put := fun p c => do .ok { c with fetchTimeout := some (← Duration.ofPart 1 p) } },
    { name := "provider_options"
      put := fun p c => do .ok { c with providerOptions := .ofList (← readTable readText p) } },
    { name := "cache", put := fun p c => do .ok { c with cache := ← CacheSettings.ofPart p } },
    { name := "filter"
      put := fun p c => do .ok { c with filter := ← FilterSettings.ofPart p } },
    { name := "aliases"
      put := fun p c => do
        .ok { c with aliases := .ofList (← readTable (readList readText) p) } } ]

def ofPart : Part → Reading Config :=
  readRecord "Config" true slots { provider := "", projects := [] }

/-- Reads and checks a configuration. -/
def parse (text : String) : Except Failure Config := do
  let c ← (Yaml.decode ofPart text).mapError .yaml
  (c.check).mapError .config
  .ok c

end Config

end RepoSelect
