import RepoSelect.FileTree.Basic
import RepoSelect.Log.Basic
import RepoSelect.Provider.PullRequest
import RepoSelect.Provider.Settings
import RepoSelect.Repository.Basic
import RepoSelect.Text.Quoted

/-!
# Providers

A provider lists the repositories of one project. Providers are made by factories, which a
registry knows by name.

Main statement: a registry makes a provider only by the factory that was registered last
under its name (`create_register`).
-/

namespace RepoSelect

/-- Why a provider has no answer: it says so, or it breaks down and says nothing. -/
inductive Mishap where
  | failed (failure : Failure)
  | brokeDown
deriving Repr, DecidableEq

/-- What came of asking a provider for its repositories. -/
structure Listing where
  answer : Except Mishap (List Repository)
  /-- The time that it took. -/
  delay : Duration := .zero
  log : List Log.Message := []

structure Provider where
  name : String
  /-- What the provider lists, given the files that there are. -/
  list : FileTree → Listing
  openRequest : PullRequestDraft → Except Failure PullRequest :=
    fun _ => .error (.unsupported name "creating pull requests")
  requests : (repository : String) → Except Failure (List PullRequest) :=
    fun _ => .error (.unsupported name "listing pull requests")
  mergeRequest : (repository : String) → (id : Nat) → Except Failure Unit :=
    fun _ _ => .error (.unsupported name "merging pull requests")

/-- Makes a provider for a project. -/
abbrev ProviderFactory := ProviderSettings → Except Failure Provider

/-- Factories by the names of their providers. -/
structure ProviderRegistry where
  factories : NameMap ProviderFactory := ∅

namespace ProviderRegistry

def empty : ProviderRegistry := {}

/-- Puts a factory under a name, in place of one that is there. -/
def register (g : ProviderRegistry) (name : String) (f : ProviderFactory) :
    ProviderRegistry :=
  ⟨g.factories.insert name f⟩

def contains (g : ProviderRegistry) (name : String) : Bool := g.factories.contains name

/-- The registered names in increasing order. -/
def names (g : ProviderRegistry) : List String := g.factories.keys

def ensure (g : ProviderRegistry) (name : String) : Except Failure Unit :=
  if g.contains name then .ok () else .error (.unregisteredProvider name g.names)

def create (g : ProviderRegistry) (name : String) (settings : ProviderSettings) :
    Except Failure Provider :=
  match g.factories[name]? with
  | some factory => factory settings
  | none => .error (.unregisteredProvider name g.names)

theorem create_register (g : ProviderRegistry) (name : String) (f : ProviderFactory)
    (settings : ProviderSettings) : (g.register name f).create name settings = f settings := by
  simp [create, register]

/-- The names as a record of the registry shows them. -/
def shown (g : ProviderRegistry) : String :=
  "ProviderRegistry \x7b providers: [" ++ ", ".intercalate (g.names.map quotedText) ++ "] \x7d"

end ProviderRegistry

end RepoSelect
