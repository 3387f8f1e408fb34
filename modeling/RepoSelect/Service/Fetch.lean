import RepoSelect.Duration.Text
import RepoSelect.Instant.Basic
import RepoSelect.Service.Basic

/-!
# Fetching a catalog

Every configured project is listed by a provider of its own, all of them at the same time. The
fetch fails if one of them cannot be listed, and it breaks down if any provider does. If there are
several, it is up to the race between them which one the fetch fails with, and whether the others
are still asked. A limit on the whole fetch is checked before a provider is made and after it has
answered.
-/

namespace RepoSelect

/-- How attempts that are made at the same time turn out if some of them have no answer. -/
structure Race where
  /-- Which of those without an answer is heard. -/
  heard : Nat := 0
  /-- The positions of those that have not begun by then, and are not made any more. -/
  skipped : List Nat := []
deriving Repr, DecidableEq

/-- How a call falls in time. -/
structure Clock where
  now : Instant
  /-- The time from the start of a fetch until providers are made. -/
  lag : Duration := ⟨10000⟩
  race : Race := {}

/-- What came of the listing of one project. -/
structure Attempt where
  project : String
  answer : Except Mishap (List Repository)
  /-- A provider was asked. -/
  asked : Bool := false
  log : List Log.Message := []

/-- The attempt has ended without an answer. -/
def Attempt.hasFailed (a : Attempt) : Bool := !a.answer.toBool

structure Fetch where
  answer : Except Mishap Catalog
  asked : List String
  log : List Log.Message

namespace Service

/-- The time that is left of a limit, if there is one. -/
def timeLeft (limit : Option Duration) (elapsed : Duration) (project : String) :
    Except Failure (Option Duration) :=
  match limit with
  | none => .ok none
  | some d =>
    if elapsed < d then .ok (some (d.minus elapsed))
    else .error (.providerFetch project ("timed out after " ++ d.format))

/-- A failure to list a project, whatever its reason. -/
def fetchFailure (project : String) : Failure → Failure
  | f@(.providerFetch _ _) => f
  | f => .providerFetch project f.message

def listedMessage (project : String) (count : Nat) : Log.Message :=
  ⟨.debug, .catalog,
    "Project '" ++ project ++ "' lists " ++ toString count ++ " repositories"⟩

/-- A repository without a project belongs to the one that was listed. -/
def adopt (project : String) (r : Repository) : Repository :=
  if r.project = "" then { r with project := project } else r

def listProject (s : Service) (t : FileTree) (clock : Clock) (project : String) : Attempt :=
  let limit := s.config.fetchTimeout
  let provider := do
    let timeout ← timeLeft limit clock.lag project
    let settings := { ProviderSettings.ofConfig s.config project with timeout }
    (s.registry.create s.config.provider settings).mapError (fetchFailure project)
  match provider with
  | .error failure => { project, answer := .error (.failed failure) }
  | .ok provider =>
    let listing := provider.list t
    let ended (answer : Except Mishap (List Repository)) (log : List Log.Message) : Attempt :=
      { project, answer, asked := true, log := listing.log ++ log }
    match listing.answer with
    | .error .brokeDown => ended (.error .brokeDown) []
    | .error (.failed failure) => ended (.error (.failed (fetchFailure project failure))) []
    | .ok rs =>
      match timeLeft limit ⟨clock.lag.nanos + listing.delay.nanos⟩ project with
      | .error failure => ended (.error (.failed failure)) []
      | .ok _ => ended (.ok (rs.map (adopt project))) [listedMessage project rs.length]

/-- The answers of all attempts, or why the first one has none that has none. A breakdown goes
first. -/
def answers : List Attempt → Except Mishap (List (String × List Repository))
  | [] => .ok []
  | a :: rest =>
    match a.answer, answers rest with
    | .error .brokeDown, _ | _, .error .brokeDown => .error .brokeDown
    | .error mishap, _ => .error mishap
    | .ok _, .error mishap => .error mishap
    | .ok rs, .ok all => .ok ((a.project, rs) :: all)

end Service

namespace Race

/-- The attempt that is heard to have no answer, and its position. -/
def heard? (race : Race) (attempts : List Attempt) : Option (Attempt × Nat) :=
  (attempts.zipIdx.filter (·.1.hasFailed))[race.heard]?

/-- The attempts that are made. -/
def made (race : Race) (attempts : List Attempt) : List Attempt :=
  match race.heard? attempts with
  | none => attempts
  | some (_, i) =>
    (attempts.zipIdx.filter fun (_, j) => j = i || !race.skipped.contains j).map (·.1)

/-- The answers of all attempts, or why the one that is heard has none. A breakdown goes first. -/
def answers (race : Race) (attempts : List Attempt) :
    Except Mishap (List (String × List Repository)) :=
  match race.heard? attempts with
  | none => Service.answers attempts
  | some (a, _) => Service.answers (a :: race.made attempts)

end Race

namespace Service

def twiceMessage (key : String) (previous : Repository) : Log.Message :=
  ⟨.warn, .catalog, "Repository '" ++ key ++ "' listed twice (project '" ++ previous.project
    ++ "'); keeping the last entry"⟩

/-- Adds a repository under its qualified name; it takes the place of one that is there. -/
def addListed (defaultProject project : String) (catalog : Catalog) (r : Repository) :
    Catalog × List Log.Message :=
  let key := qualifiedName project r.name defaultProject
  (catalog.insert key r, (catalog[key]?.map (twiceMessage key)).toList)

/-- The catalog of all repositories listed, each with the project that it was listed for. -/
def merge (defaultProject : String) (listed : List (String × Repository)) :
    Catalog × List Log.Message :=
  listed.foldl (fun (catalog, log) (project, r) =>
    let (catalog, more) := addListed defaultProject project catalog r
    (catalog, log ++ more)) (∅, [])

/-- All that is listed, each repository with the project that it was listed for. -/
def entries (listed : List (String × List Repository)) : List (String × Repository) :=
  listed.flatMap fun (project, rs) => rs.map (project, ·)

/-- The projects whose providers were asked. -/
def askedOf (attempts : List Attempt) : List String :=
  (attempts.filter (·.asked)).map (·.project)

/-- What comes of attempts, one for each configured project, in the order of the projects. -/
def gather (s : Service) (race : Race) (attempts : List Attempt) : Fetch :=
  let asked := askedOf (race.made attempts)
  let log := (race.made attempts).flatMap (·.log)
  match race.answers attempts with
  | .error mishap => ⟨.error mishap, asked, log⟩
  | .ok listed =>
    let (catalog, more) := merge s.config.defaultProject (entries listed)
    ⟨.ok catalog, asked, log ++ more⟩

/-- The attempts at all configured projects. -/
def attemptAll (s : Service) (t : FileTree) (clock : Clock) : List Attempt :=
  s.config.projects.map (s.listProject t clock)

def fetch (s : Service) (t : FileTree) (clock : Clock) : Fetch :=
  s.gather clock.race (s.attemptAll t clock)

end Service

end RepoSelect
