import RepoSelect.Config.Basic
import RepoSelect.Text.Blank
import RepoSelect.Url.Authority

/-!
# Where a cache lies

The path of a configuration's cache file: the one that it names, or else one that says which
host and which projects the catalog is of.
-/

namespace RepoSelect

/-- Where a user's files are, as far as that is known. -/
structure Home where
  /-- The user's own directory. -/
  dir : Option String := none
  /-- A directory for caches, if it is absolute. -/
  cacheDir : Option String := none
deriving Repr, DecidableEq

namespace Cache

/-- The directory that caches lie under unless a configuration says otherwise. -/
def defaultRoot (home : Home) : String :=
  let base := match home.cacheDir.filter Path.isAbsolute, home.dir with
    | some dir, _ => dir
    | none, some dir => Path.join dir ".cache"
    | none, none => ".repo-fleet-cache"
  Path.join base "repo-fleet"

/-- A character that may stand in a component of a path. -/
def isKept (c : Char) : Bool := c.isAlphanum || c = '-' || c = '_' || c = '.' || c = '+'

/-- A text with `-` in place of the characters that are not kept. -/
def sanitized (s : List Char) : List Char := s.map fun c => if isKept c then c else '-'

/-- A text as one component of a path. -/
def component (text : String) : String :=
  let s := String.ofList (sanitized text.toList)
  if s = "" ∨ s = "." ∨ s = ".." then "_" else s

/-- The component for a host, given as a URL or as a name; `authority?` tells the host and the port
of a URL. -/
def hostComponentBy (authority? : String → Option Url.Authority) (host : Option String) :
    String :=
  match (host.map trimmed).filter (· ≠ "") with
  | none => "local"
  | some text =>
    match authority? text with
    | some ⟨name, some port⟩ => component (name ++ "-" ++ toString port)
    | some ⟨name, none⟩ => component name
    | none => component (String.ofList (text.toList.reverse.dropWhile (· = '/')).reverse)

/-- The component for a list of projects. -/
def projectsComponent (projects : List String) : String := component ("+".intercalate projects)

end Cache

namespace Config

/-- The directory that the cache file lies under unless the configuration names the file. -/
def cacheRoot (c : Config) (home : Home) : String :=
  match c.cache.dir with
  | some dir => c.resolvePath dir
  | none => Cache.defaultRoot home

/-- The path of the cache file, with the hosts that `authority?` finds in URLs. -/
def cachePathBy (authority? : String → Option Url.Authority) (c : Config) (home : Home) : String :=
  match c.cache.file with
  | some file => c.resolvePath file
  | none =>
    let dir := Path.join (c.cacheRoot home) (Cache.hostComponentBy authority? c.gitHost)
    Path.join (Path.join dir (Cache.projectsComponent c.projects)) c.cache.filename

/-- The path of the cache file. -/
def cachePath (c : Config) (home : Home) : String := c.cachePathBy Url.authority? home

end Config

end RepoSelect
