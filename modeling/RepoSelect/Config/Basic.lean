import RepoSelect.Failure
import RepoSelect.Filter.Basic
import RepoSelect.Path

/-!
# Configurations

Which provider lists which projects, where the catalog is cached and for how long, and how
filters are read. A configuration is checked before it is used (`Config.check`).
-/

namespace RepoSelect

structure CacheSettings where
  ttl : Duration := .ofSeconds 86400
  /-- The directory that cache files lie under. -/
  dir : Option String := none
  /-- The cache file itself, which makes `dir` and `filename` idle. -/
  file : Option String := none
  filename : String := "repositories.json"
deriving Repr, DecidableEq

structure FilterSettings extends Filter where
  /-- The label that every repository has. -/
  superset : String := "all"
deriving Repr, DecidableEq

structure Config where
  provider : String
  projects : List String
  gitHost : Option String := none
  /-- A limit on listing all projects. -/
  fetchTimeout : Option Duration := none
  providerOptions : NameMap String := ∅
  cache : CacheSettings := {}
  filter : FilterSettings := {}
  aliases : NameMap (List String) := ∅
  /-- The directory that relative paths start from. -/
  baseDir : String := ""
deriving DecidableEq

namespace Config

/-- The project whose repositories are known by their bare names. -/
def defaultProject (c : Config) : String := c.projects.headD ""

def resolvePath (c : Config) (path : String) : String :=
  if Path.isAbsolute path then path else Path.join c.baseDir path

/-- The first thing that is wrong with a configuration, if anything is. -/
def fault? (c : Config) : Option ConfigFault :=
  if !hasText c.provider then some .noProvider
  else if c.projects = [] then some .noProjects
  else
    match c.projects.find? (!hasText ·) with
    | some name => some (.badProject name)
    | none =>
      if c.cache.ttl.isZero then some .zeroTtl
      else if c.fetchTimeout.any (·.isZero) then some .zeroTimeout
      else if !hasText c.cache.filename then some .noFilename
      else if !hasText c.filter.superset then some .noSuperset
      else
        match c.filter.markers.check with
        | .error fault => some (.markers fault)
        | .ok () => none

def check (c : Config) : Except ConfigFault Unit :=
  match c.fault? with
  | some fault => .error fault
  | none => .ok ()

end Config

end RepoSelect
