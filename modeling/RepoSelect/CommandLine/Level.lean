/-!
# Levels of the command line

The program, its commands and the commands below those: which flags each level knows, what
else may stand there, and which levels are below it.
-/

namespace RepoSelect.CommandLine

/-! ## Flags -/

inductive Flag where
  | help
  | version
  | config
  | cacheDir
  | refresh
  | color
  | logLevel
  | long
  | json
  | count
  | tree
deriving Repr, DecidableEq

/-- What stands behind a flag. -/
inductive ValueKind where
  | nothing
  | text
  /-- A text with at least one character. -/
  | path
deriving Repr, DecidableEq

namespace Flag

/-- The name behind two hyphens. -/
def name : Flag → String
  | help => "help"
  | version => "version"
  | config => "config"
  | cacheDir => "cache-dir"
  | refresh => "refresh"
  | color => "color"
  | logLevel => "log-level"
  | long => "long"
  | json => "json"
  | count => "count"
  | tree => "tree"

/-- The letter behind one hyphen. -/
def letter? : Flag → Option Char
  | help => some 'h'
  | version => some 'V'
  | config => some 'c'
  | long => some 'l'
  | _ => none

def value : Flag → ValueKind
  | config | cacheDir => .path
  | color | logLevel => .text
  | _ => .nothing

/-- The variable that gives a value to the flag if the command line does not. -/
def fallbackVariable : Flag → Option String
  | config => some "REPO_FLEET_CONFIG"
  | cacheDir => some "REPO_FLEET_CACHE"
  | _ => none

end Flag

/-! ## Levels -/

inductive Level where
  | program
  | list
  | labels
  | explain
  | complete
  | cache
  | cachePath
  | cacheStatus
  | cacheFlush
  | cacheRefresh
deriving Repr, DecidableEq

/-- What may stand at a level besides flags. -/
inductive Operands where
  | none
  /-- One text, which may look like a flag. -/
  | one
  | many
deriving Repr, DecidableEq

namespace Level

/-- The flags that every level knows. -/
def commonFlags : List Flag := [.config, .cacheDir, .refresh, .color, .logLevel, .help]

def flags : Level → List Flag
  | program => .version :: commonFlags
  | list => [.long, .json, .count] ++ commonFlags
  | labels => .tree :: commonFlags
  | cacheStatus => .json :: commonFlags
  | _ => commonFlags

def operands : Level → Operands
  | list | labels | explain => .many
  | complete => .one
  | _ => .none

/-- The levels below, by the words that lead there. -/
def children : Level → List (String × Level)
  | program =>
    [ ("list", list), ("ls", list), ("labels", labels), ("explain", explain),
      ("cache", cache), ("complete", complete) ]
  | cache =>
    [ ("path", cachePath), ("status", cacheStatus), ("flush", cacheFlush),
      ("refresh", cacheRefresh) ]
  | _ => []

/-- The word `help` leads to the help texts of the levels below. -/
def isGroup (l : Level) : Bool := !l.children.isEmpty

/-- No two of these flags may stand together. -/
def exclusive : Level → List Flag
  | list => [.long, .json, .count]
  | _ => []

end Level

end RepoSelect.CommandLine
