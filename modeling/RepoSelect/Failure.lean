import RepoSelect.Document
import RepoSelect.Duration.Text
import RepoSelect.Filter.Markers

/-!
# Failures

Everything that can go wrong, as causes, and the wording of each. Three of them say that no
usable cache is there; whoever wants the catalog then asks the providers.
-/

namespace RepoSelect

/-! ## Input and output -/

inductive IoFault where
  | notFound
  | alreadyExists
  | notADirectory
  | isADirectory
  | inUse
  | nameTooLong
  | zeroByteInName
  | noSpace
  | notText
  | other (message : String)
deriving Repr, DecidableEq

def IoFault.message : IoFault → String
  | .notFound => "No such file or directory (os error 2)"
  | .alreadyExists => "File exists (os error 17)"
  | .notADirectory => "Not a directory (os error 20)"
  | .isADirectory => "Is a directory (os error 21)"
  | .inUse => "Device or resource busy (os error 16)"
  | .nameTooLong => "File name too long (os error 36)"
  | .zeroByteInName => "file name contained an unexpected NUL byte"
  | .noSpace => "No space left on device (os error 28)"
  | .notText => "stream did not contain valid UTF-8"
  | .other message => message

/-! ## Configuration -/

/-- What a configuration can be refused for. -/
inductive ConfigFault where
  | noProvider
  | noProjects
  | badProject (name : String)
  | zeroTtl
  | zeroTimeout
  | noFilename
  | noSuperset
  | markers (fault : MarkerFault)
  | duration (fault : DurationFault)
  | missingOption (key : String)
  | other (message : String) (hint : Option String)
deriving Repr, DecidableEq

namespace ConfigFault

def message : ConfigFault → String
  | noProvider => "provider must not be empty"
  | noProjects => "no projects configured"
  | badProject name => "invalid project name '" ++ name ++ "'"
  | zeroTtl => "cache.ttl must be greater than zero"
  | zeroTimeout => "fetch_timeout must be greater than zero"
  | noFilename => "cache.filename must not be empty"
  | noSuperset => "filter.superset must not be empty"
  | markers fault => fault.message
  | duration fault => fault.message
  | missingOption key => "provider option '" ++ key ++ "' is required"
  | other message _ => message

/-- How to mend it. -/
def hint : ConfigFault → Option String
  | noProvider => some "Set 'provider:' to a registered provider such as 'static'"
  | noProjects => some "Add 'projects: [<name>]' with at least one project"
  | zeroTtl => some "Use a duration such as '24h' or '30m'"
  | zeroTimeout => some "Remove 'fetch_timeout:' to wait for providers indefinitely"
  | markers fault => fault.hint
  | duration fault => fault.hint
  | missingOption key => some ("Add '" ++ key ++ ":' under 'provider_options:'")
  | other _ hint => hint
  | badProject _ | noFilename | noSuperset => none

end ConfigFault

/-! ## All failures -/

inductive Failure where
  | cacheMissing (path : String)
  | cacheCorrupt (path message : String)
  | cacheExpired (path : String) (age : Duration)
  | cacheWrite (path : String) (fault : IoFault)
  | providerFetch (project message : String)
  | unregisteredProvider (name : String) (available : List String)
  | unsupported (provider operation : String)
  | config (fault : ConfigFault)
  | lockPoisoned (context : String)
  | io (fault : IoFault)
  | yaml (fault : Fault)
  | json (fault : Fault)
deriving Repr, DecidableEq

namespace Failure

def message : Failure → String
  | cacheMissing path => "Repository cache not found: " ++ path
  | cacheCorrupt path message => "Repository cache is corrupt: " ++ path ++ ": " ++ message
  | cacheExpired path age =>
    "Repository cache expired: " ++ path ++ " is " ++ toString age.seconds ++ "s old"
  | cacheWrite path fault =>
    "Failed to write repository cache " ++ path ++ ": " ++ fault.message
  | providerFetch project message =>
    "Failed to fetch repositories for project '" ++ project ++ "': " ++ message
  | unregisteredProvider name available =>
    "Provider '" ++ name ++ "' is not registered (available: "
      ++ ", ".intercalate available ++ ")"
  | unsupported provider operation =>
    "Provider '" ++ provider ++ "' does not support " ++ operation
  | config fault => "Configuration parsing error: " ++ fault.message
      ++ (fault.hint.map ("\n  hint: " ++ ·)).getD ""
  | lockPoisoned context => "Lock poisoned: " ++ context
  | io fault => "I/O error: " ++ fault.message
  | yaml fault => "YAML parsing error: " ++ fault.message
  | json fault => "JSON error: " ++ fault.message

/-- The fault behind a failure, where it is told apart from the failure itself. -/
def source? : Failure → Option String
  | cacheWrite _ fault => some fault.message
  | io fault => some fault.message
  | _ => none

/-- No usable cache is there. -/
def isCacheMiss : Failure → Bool
  | cacheMissing _ | cacheCorrupt _ _ | cacheExpired _ _ => true
  | _ => false

end Failure

end RepoSelect
