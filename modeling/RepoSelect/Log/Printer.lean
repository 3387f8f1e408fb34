import RepoSelect.Log.Basic
import RepoSelect.Style

/-!
# Writing log messages

One line `[LEVEL topic] text` per message; further lines of a text are indented.
-/

namespace RepoSelect.Log

/-- The name of a level, five characters wide. -/
def Level.label : Level → String
  | .error => "ERROR"
  | .warn => "WARN "
  | .info => "INFO "
  | .debug => "DEBUG"
  | .trace => "TRACE"

/-- The terminal attributes of a level's name. -/
def Level.attributes : Level → List Nat
  | .error => [1, 31]
  | .warn => [33]
  | .info => [32]
  | .debug => [34]
  | .trace => [36]

/-- Whether messages are coloured; unlike other output they follow no flag. -/
def styleIn (e : Style.Surroundings) : Style :=
  let isSet (v : Option String) := v.any (· ≠ "")
  if isSet e.noColor then .plain
  else if isSet e.cliColorForce then .colored
  else if e.cliColor = some "0" then .plain
  else ⟨e.isTerminal && (e.cliColor.isSome || e.terminalType.any (· ≠ "dumb"))⟩

def indented (text : String) : String :=
  String.ofList (text.toList.flatMap fun c => if c = '\n' then "\n    ".toList else [c])

def Message.print (m : Message) (s : Style) : String :=
  s.paint [90] "[" ++ s.paint m.level.attributes m.level.label ++ " " ++ m.topic.name
    ++ s.paint [90] "]" ++ " " ++ indented m.text

end RepoSelect.Log
