import RepoSelect.Config.Basic
import RepoSelect.Provider.Basic

/-!
# Catalog services

A service holds a catalog and the labels that follow from it. It is made for a configuration
that has been checked and whose provider is registered (`Service.start`), and it holds
nothing at first. If a provider breaks down while the service waits for it, what the service
holds may be half done, so it is not shown any more.
-/

namespace RepoSelect

/-- A catalog and the labels that follow from it. -/
structure Holding where
  repositories : Catalog := ∅
  labels : LabelIndex := .empty

structure Service where
  config : Config
  cachePath : String
  registry : ProviderRegistry
  held : Holding := {}
  /-- A provider broke down, and nothing held is shown any more. -/
  isPoisoned : Bool := false

namespace Service

def start (c : Config) (g : ProviderRegistry) (cachePath : String) :
    Except Failure Service := do
  (c.check).mapError .config
  g.ensure c.provider
  .ok { config := c, cachePath, registry := g }

def filter (s : Service) : Filter := s.config.filter.toFilter

def markers (s : Service) : Markers := s.config.filter.markers

def ttl (s : Service) : Duration := s.config.cache.ttl

/-- The catalog with the labels that the repositories and the configuration give. -/
def holding (s : Service) (catalog : Catalog) : Holding :=
  ⟨catalog, .build catalog s.config.aliases s.config.filter.superset⟩

def poisoned : Failure := .lockPoisoned "catalog state"

/-- What the service holds, if it may be shown. -/
def view (s : Service) : Except Failure Holding :=
  if s.isPoisoned then .error poisoned else .ok s.held

/-- The service with another catalog. -/
def replace (s : Service) (catalog : Catalog) : Except Failure Service := do
  let _ ← s.view
  .ok { s with held := s.holding catalog }

end Service

end RepoSelect
