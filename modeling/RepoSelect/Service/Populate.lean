import RepoSelect.Cache.File
import RepoSelect.Service.Fetch

/-!
# Filling a service

A service that holds nothing takes its catalog from the cache, if the cache has one that is
not too old, or else from the providers; what they list is cached. A service that holds a
catalog already keeps it, unless a refresh is asked for. After a failure it holds what it held
before, except that a catalog that could not be cached is kept.
-/

namespace RepoSelect

/-- Where a catalog comes from. -/
inductive Origin where
  | alreadyLoaded
  | cache
  | provider
deriving Repr, DecidableEq

def Origin.name : Origin → String
  | .alreadyLoaded => "AlreadyLoaded"
  | .cache => "Cache"
  | .provider => "Provider"

/-- What came of a call to a service, and how things stand behind it. -/
structure Report (α : Type) where
  outcome : Except Mishap α
  service : Service
  files : FileTree
  log : List Log.Message := []
  /-- The projects whose providers were asked. -/
  asked : List String := []

namespace Service

def refreshMessage (s : Service) : Log.Message :=
  ⟨.debug, .catalog, "Refreshing catalog from provider '" ++ s.config.provider ++ "'"⟩

def missMessage (s : Service) (failure : Failure) : Log.Message :=
  ⟨.info, .catalog,
    failure.message ++ "; fetching from provider '" ++ s.config.provider ++ "'"⟩

def loadedMessage (s : Service) (r : CacheRecord) (now : Instant) : Log.Message :=
  ⟨.debug, .cache, "Loaded " ++ toString r.repositories.size ++ " repositories from cache "
    ++ s.cachePath ++ " (" ++ toString (r.ageAt now).seconds ++ "s old)"⟩

def fetchedMessage (s : Service) (c : Catalog) : Log.Message :=
  ⟨.info, .catalog, "Fetched " ++ toString c.size ++ " repositories from "
    ++ toString s.config.projects.length ++ " project(s)"⟩

def savedMessage (s : Service) (c : Catalog) : Log.Message :=
  ⟨.debug, .cache, "Saved " ++ toString c.size ++ " repositories to cache " ++ s.cachePath⟩

/-- Fills the service from its providers, and the cache with what they list. -/
def populateFromProviders (disk : Disk) (s : Service) (t : FileTree) (clock : Clock)
    (log : List Log.Message) : Report Origin :=
  let fetch := s.fetch t clock
  let log := log ++ fetch.log
  let asked := fetch.asked
  match fetch.answer with
  | .error .brokeDown =>
    ⟨.error .brokeDown, { s with isPoisoned := true }, t, log, asked⟩
  | .error mishap => ⟨.error mishap, s, t, log, asked⟩
  | .ok catalog =>
    let log := log ++ [s.fetchedMessage catalog]
    let s := { s with held := s.holding catalog }
    match Cache.saveOn disk s.cachePath ⟨clock.now, catalog⟩ t with
    | .ok () t => ⟨.ok .provider, s, t, log ++ [s.savedMessage catalog], asked⟩
    | .error failure t => ⟨.error (.failed failure), s, t, log, asked⟩

/-- Fills the service; with `refresh`, from its providers whatever it holds. -/
def populateOn (disk : Disk) (s : Service) (refresh : Bool) (t : FileTree) (clock : Clock) :
    Report Origin :=
  if s.isPoisoned then { outcome := .error (.failed poisoned), service := s, files := t }
  else if refresh then s.populateFromProviders disk t clock [s.refreshMessage]
  else if !s.held.repositories.isEmpty then
    { outcome := .ok .alreadyLoaded, service := s, files := t }
  else
    match Cache.load t s.cachePath s.ttl clock.now with
    | .ok r =>
      { outcome := .ok .cache
        service := { s with held := s.holding r.repositories }
        files := t
        log := [s.loadedMessage r clock.now] }
    | .error failure =>
      if failure.isCacheMiss then s.populateFromProviders disk t clock [s.missMessage failure]
      else { outcome := .error (.failed failure), service := s, files := t }

/-- The same on a disk that takes all that is written. -/
def populate (s : Service) (refresh : Bool) (t : FileTree) (clock : Clock) : Report Origin :=
  s.populateOn .sound refresh t clock

/-- Removes the cache file, and what the service holds; false if there was no file. -/
def flush (s : Service) (t : FileTree) : Report Bool :=
  match Cache.flush s.cachePath t with
  | .error failure t => { outcome := .error (.failed failure), service := s, files := t }
  | .ok removed t =>
    if s.isPoisoned then { outcome := .error (.failed poisoned), service := s, files := t }
    else { outcome := .ok removed, service := { s with held := {} }, files := t }

end Service

end RepoSelect
