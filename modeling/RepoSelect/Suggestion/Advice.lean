import RepoSelect.Failure
import RepoSelect.Suggestion.Similar

/-!
# Advice

Failures worded for the person at the command line, with hints what to do.
-/

namespace RepoSelect.Advice

def configNotFound (path : String) : String :=
  "Configuration file not found: " ++ path ++ "\n\n"
    ++ "hint: Create a .repo-fleet.yaml file listing 'provider' and 'projects'\n"
    ++ "hint: Use -c/--config to specify a different path\n"
    ++ "hint: Set REPO_FLEET_CONFIG environment variable"

def configInvalid (path : String) (f : Failure) : String :=
  "Failed to load config from " ++ path ++ ": " ++ f.message

/-- A name that no provider is registered under, with the one that was perhaps meant. -/
def unregisteredProvider (name : String) (available : List String) : String :=
  let meant := (similar? name available).map fun s => "\nhint: Did you mean '" ++ s ++ "'?"
  "Unknown provider: " ++ name ++ meant.getD "" ++ "\n\n"
    ++ "Registered providers are: " ++ ", ".intercalate available ++ "\n"
    ++ "hint: Set 'provider:' in .repo-fleet.yaml to one of them"

end RepoSelect.Advice
