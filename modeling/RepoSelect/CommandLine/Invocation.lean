import RepoSelect.CommandLine.Reader

/-!
# Invocations

What a command line asks for. A setting that several levels know is taken from the innermost
level that gives it, then from its variable, and last from its default.
-/

namespace RepoSelect.CommandLine

/-- How selected repositories are listed. -/
inductive ListForm where
  | plain
  | long
  | json
  | count
deriving Repr, DecidableEq

inductive Command where
  | list (tokens : List String) (form : ListForm)
  | labels (names : List String) (asTree : Bool)
  | explain (tokens : List String)
  | complete (typed : String)
  | cachePath
  | cacheStatus (asJson : Bool)
  | cacheFlush
  | cacheRefresh
deriving Repr, DecidableEq

/-- Where the configuration is unless a command line or a variable says otherwise. -/
def defaultConfigPath : String := ".repo-fleet.yaml"

structure Invocation where
  command : Command
  configPath : String := defaultConfigPath
  cacheDir : Option String := none
  /-- Whatever is cached is fetched anew. -/
  refresh : Bool := false
  color : String := "auto"
  logLevel : String := "warn"
deriving Repr, DecidableEq

/-- The value that the innermost level gives to a flag. -/
def given? (levels : List Progress) (f : Flag) : Option (Option String) :=
  levels.reverse.findSome? (·.given.lookup f)

/-- The value of a flag; an empty variable is misuse where a level relies on it. -/
def valueOf (levels : List Progress) (getVariable : String → Option String) (f : Flag) :
    Except Stop (Option String) :=
  let fallback := f.fallbackVariable.bind getVariable
  let isRelied := levels.any fun p => (p.given.lookup f).isNone
  if fallback = some "" && f.value = .path && isRelied then .error .misuse
  else .ok (((given? levels f).getD none).or fallback)

/-- The command that the innermost level stands for. -/
def Command.ofProgress (p : Progress) : Except Stop Command :=
  let has (f : Flag) := (p.given.lookup f).isSome
  match p.level with
  | .list =>
    let form := if has .count then .count else if has .json then .json
      else if has .long then .long else .plain
    .ok (.list p.operands form)
  | .labels => .ok (.labels p.operands (has .tree))
  | .explain => .ok (.explain p.operands)
  | .complete => .ok (.complete (p.operands.headD ""))
  | .cachePath => .ok .cachePath
  | .cacheStatus => .ok (.cacheStatus (has .json))
  | .cacheFlush => .ok .cacheFlush
  | .cacheRefresh => .ok .cacheRefresh
  | .program | .cache => .error .misuse

def Invocation.read (getVariable : String → Option String) (words : List String) :
    Except Stop Invocation := do
  let levels ← CommandLine.read words
  let innermost ← match levels.getLast? with
    | some p => .ok p
    | none => .error .misuse
  let command ← Command.ofProgress innermost
  let value := valueOf levels getVariable
  .ok
    { command
      configPath := (← value .config).getD defaultConfigPath
      cacheDir := ← value .cacheDir
      refresh := (given? levels .refresh).isSome
      color := (← value .color).getD "auto"
      logLevel := (← value .logLevel).getD "warn" }

end RepoSelect.CommandLine
