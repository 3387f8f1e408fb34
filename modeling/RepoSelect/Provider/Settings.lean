import RepoSelect.Config.Basic

/-!
# Settings of a provider

What a provider is told about the project that it is to list.
-/

namespace RepoSelect

structure ProviderSettings where
  project : String
  gitHost : Option String := none
  options : NameMap String := ∅
  /-- The directory that relative paths among the options start from. -/
  baseDir : String := ""
  /-- The time that is left for the listing of all projects. -/
  timeout : Option Duration := none
deriving DecidableEq

namespace ProviderSettings

def ofConfig (c : Config) (project : String) : ProviderSettings :=
  { project, gitHost := c.gitHost, options := c.providerOptions, baseDir := c.baseDir
    timeout := c.fetchTimeout }

/-- The option `key`, which has to be there. -/
def require (s : ProviderSettings) (key : String) : Except Failure String :=
  match s.options[key]? with
  | some value => .ok value
  | none => .error (.config (.missingOption key))

end ProviderSettings

end RepoSelect
