import RepoSelect.Cache.Location
import RepoSelect.Cache.Status
import RepoSelect.CommandLine.Invocation
import RepoSelect.Config.Load
import RepoSelect.Filter.Remarks
import RepoSelect.Label.Listing
import RepoSelect.Label.Tree
import RepoSelect.Log.Printer
import RepoSelect.Log.Rules
import RepoSelect.Provider.Inventory
import RepoSelect.Selection.Explanation
import RepoSelect.Selection.Listing
import RepoSelect.Service.Populate
import RepoSelect.Service.Query
import RepoSelect.Suggestion.Advice

/-!
# The program

From the words of a command line, the variables around it and the files that there are, to
what is printed and what becomes of the files.

Commands that select repositories go on with an empty catalog if it cannot be had, with a
warning; the commands on the cache itself fail.
-/

namespace RepoSelect.Program

open CommandLine
open Text (unlines)

/-- What surrounds a run. -/
structure Environment where
  getVariable : String → Option String
  home : Home
  clock : Clock
  isTerminal : Bool := false

def Environment.surroundings (e : Environment) : Style.Surroundings :=
  { noColor := e.getVariable "NO_COLOR", cliColor := e.getVariable "CLICOLOR"
    cliColorForce := e.getVariable "CLICOLOR_FORCE", terminalType := e.getVariable "TERM"
    isTerminal := e.isTerminal }

/-- Something told beside the output. -/
inductive Notice where
  | message (m : Log.Message)
  | warning (text : String)
deriving Repr, DecidableEq

/-- Why a command failed. -/
structure Complaint where
  text : String
  cause : Option String := none
deriving Repr, DecidableEq

def Complaint.ofFailure (f : Failure) : Complaint := ⟨f.message, f.source?⟩

def Complaint.ofMishap : Mishap → Complaint
  | .failed f => .ofFailure f
  | .brokeDown => { text := "The provider broke down" }

structure Outcome where
  files : FileTree
  notices : List Notice := []
  /-- The output. -/
  result : Except Complaint String

/-! ## Commands -/

/-- The service that the configuration asks for; it holds nothing. -/
def openService (e : Environment) (t : FileTree) (i : Invocation) :
    Except Complaint Service := do
  if !t.exists? i.configPath then .error { text := Advice.configNotFound i.configPath }
  else
    let c ← (Config.load t i.configPath).mapError fun f =>
      { text := Advice.configInvalid i.configPath f }
    let dir := (i.cacheDir.map (Path.join t.workingPath)).or c.cache.dir
    let cache := c.cache
    let c := { c with cache := { cache with dir } }
    (Service.start c .builtin (c.cachePath e.home)).mapError fun
      | .unregisteredProvider name available =>
        { text := Advice.unregisteredProvider name available }
      | f => .ofFailure f

/-- What is told of an attempt to fill a service. -/
def populationNotices (r : Report Origin) : List Notice :=
  r.log.map .message ++ match r.outcome with
    | .ok origin =>
      [.message ⟨.debug, .commands, "Catalog initialized: " ++ origin.name⟩]
    | .error mishap => [.warning (Complaint.ofMishap mishap).text]

/-- What a question to a filled service is answered with, and the remarks on it. -/
def answer (s : Service) (style : Style) :
    Command → Except Failure (String × List Log.Message)
  | .list tokens form => do
    let names ← s.select tokens
    let h ← s.view
    let lines := match form with
      | .plain => names
      | .long => Selection.table h.repositories style names
      | .json => [Json.print (Selection.toJson h.repositories names)]
      | .count => [toString names.length]
    .ok (unlines lines, s.filter.evaluationRemarks tokens h.labels)
  | .labels names asTree => do
    let h ← s.view
    let names := names.map s.markers.withoutLabel
    .ok (if asTree then unlines (h.labels.tree names).lines else h.labels.listing names style, [])
  | .explain tokens => do
    let names ← s.select tokens
    let h ← s.view
    .ok (unlines (Selection.explanation (s.labelGroup tokens) style names),
      s.filter.readingRemarks tokens ++ s.filter.evaluationRemarks tokens h.labels)
  | .complete typed => do .ok (unlines (← s.completions typed), [])
  | _ => .ok ("", [])

/-- Fills a service and puts a question to it. -/
def ask (e : Environment) (t : FileTree) (i : Invocation) (style : Style) (s : Service) :
    Outcome :=
  let r := s.populate i.refresh t e.clock
  let notices := populationNotices r
  match answer r.service style i.command with
  | .ok (text, remarks) =>
    { files := r.files, notices := notices ++ remarks.map .message, result := .ok text }
  | .error failure => { files := r.files, notices, result := .error (.ofFailure failure) }

def refreshCache (e : Environment) (t : FileTree) (s : Service) : Outcome :=
  let r := s.populate true t e.clock
  let count := r.service.held.repositories.size
  { files := r.files
    notices := r.log.map .message
    result := match r.outcome with
      | .error mishap => .error (.ofMishap mishap)
      | .ok .provider =>
        .ok ("Fetched " ++ toString count ++ " repositories into " ++ s.cachePath ++ "\n")
      | .ok origin =>
        .ok ("Catalog loaded (" ++ origin.name ++ "): " ++ toString count ++ " repositories\n") }

def flushCache (t : FileTree) (s : Service) : Outcome :=
  let r := s.flush t
  { files := r.files
    result := match r.outcome with
      | .error mishap => .error (.ofMishap mishap)
      | .ok true => .ok ("Removed catalog cache: " ++ s.cachePath ++ "\n")
      | .ok false => .ok ("No catalog cache at: " ++ s.cachePath ++ "\n") }

def showStatus (e : Environment) (t : FileTree) (style : Style) (asJson : Bool)
    (s : Service) : Outcome :=
  let status :=
    Cache.Status.ofRead s.cachePath s.ttl e.clock.now (Cache.read t s.cachePath)
  let lines := if asJson then [Json.print status.toJson] else status.lines style
  { files := t, result := .ok (unlines lines) }

def execute (e : Environment) (t : FileTree) (i : Invocation) : Outcome :=
  let style := Style.choose i.color e.surroundings
  match openService e t i with
  | .error complaint => { files := t, result := .error complaint }
  | .ok s =>
    match i.command with
    | .cachePath => { files := t, result := .ok (s.cachePath ++ "\n") }
    | .cacheStatus asJson => showStatus e t style asJson s
    | .cacheFlush => flushCache t s
    | .cacheRefresh => refreshCache e t s
    | .list _ _ | .labels _ _ | .explain _ | .complete _ => ask e t i style s

/-- The paths that a run follows, as far as the files at hand tell: where its configuration
is, and what that names. -/
def paths (e : Environment) (t : FileTree) (words : List String) : List String :=
  match Invocation.read e.getVariable words with
  | .error _ => []
  | .ok i =>
    match openService e t i with
    | .error _ => [i.configPath]
    | .ok s =>
      let inventory := Inventory.ofSettings (.ofConfig s.config s.config.defaultProject)
      [i.configPath, s.cachePath, Cache.draftPath s.cachePath]
        ++ (inventory.toOption.map (·.path)).toList

/-! ## Runs -/

/-- How a run ends. -/
structure Exit where
  code : Nat
  out : String
  err : String
  files : FileTree

def versionText : String := "repo-fleet 0.1.0"

def helpText : List String :=
  [ "Select repositories for batch operations by name and label",
    "",
    "Usage: repo-fleet [FLAGS] <COMMAND>",
    "",
    "Commands:",
    "  list [-l | --json | --count] [FILTER]...  List the selected repositories (also: ls)",
    "  labels [--tree] [NAME]...                 Show labels and what they hold",
    "  explain [FILTER]...                       Show how a filter is read",
    "  cache path                                Print where the cache is",
    "  cache status [--json]                     Show the age and size of the cache",
    "  cache flush                               Delete the cache",
    "  cache refresh                             Fetch the catalog again",
    "",
    "Flags:",
    "  -c, --config <FILE>      Path of the configuration [env: REPO_FLEET_CONFIG]",
    "      --cache-dir <DIR>    Directory of the cache [env: REPO_FLEET_CACHE]",
    "      --refresh            Fetch the catalog even if it is cached",
    "      --color <WHEN>       Colour output: always, never or auto",
    "      --log-level <LEVEL>  error, warn, info, debug or trace",
    "  -h, --help               Print help",
    "  -V, --version            Print version" ]

def usageLines : List String :=
  ["error: invalid arguments", "", "For more information, try '--help'."]

/-- How a run ends that carries nothing out. -/
def stopped (t : FileTree) : Stop → Exit
  | .help => ⟨0, unlines helpText, "", t⟩
  | .version => ⟨0, unlines [versionText], "", t⟩
  | .misuse => ⟨2, "", unlines usageLines, t⟩

def Complaint.print (c : Complaint) : String :=
  "Error: " ++ c.text ++ (c.cause.map ("\n\nCaused by:\n    " ++ ·)).getD "" ++ "\n"

/-- The notices that are shown, line by line. -/
def noticeLines (rules : Log.Rules) (logStyle style : Style) (notices : List Notice) :
    List String :=
  notices.filterMap fun
    | .message m => if rules.admits m then some (m.print logStyle) else none
    | .warning text => some (style.warning text)

def perform (e : Environment) (t : FileTree) (i : Invocation) : Exit :=
  let rules := Log.Rules.read ((e.getVariable "RUST_LOG").getD i.logLevel)
  let complaints := rules.complaints.map fun c => "warning: " ++ c ++ ", ignoring it"
  let o := execute e t i
  let style := Style.choose i.color e.surroundings
  let err := unlines (complaints
    ++ noticeLines rules (Log.styleIn e.surroundings) style o.notices)
  match o.result with
  | .ok text => ⟨0, text, err, o.files⟩
  | .error complaint => ⟨1, "", err ++ complaint.print, o.files⟩

def run (e : Environment) (t : FileTree) (words : List String) : Exit :=
  match Invocation.read e.getVariable words with
  | .error stop => stopped t stop
  | .ok i => perform e t i

end RepoSelect.Program
