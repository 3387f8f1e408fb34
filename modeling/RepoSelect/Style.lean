import RepoSelect.Text.Lower

/-!
# Coloured output

Which terminal attributes surround a text, and whether any do.
-/

namespace RepoSelect

/-- Whether texts carry terminal attributes. -/
structure Style where
  color : Bool
deriving Repr, DecidableEq

namespace Style

def plain : Style := ⟨false⟩

def colored : Style := ⟨true⟩

/-- A text between the sequence of each attribute and one that resets them. -/
def paint (s : Style) (attributes : List Nat) (text : String) : String :=
  if s.color then
    attributes.foldr (fun a r => "\x1b[" ++ toString a ++ "m" ++ r) (text ++ "\x1b[0m")
  else text

/-- Bold. -/
def emphasis (s : Style) (text : String) : String := s.paint [1] text

def dim (s : Style) (text : String) : String := s.paint [2] text

/-- A message after a bold yellow `warning:`. -/
def warning (s : Style) (message : String) : String :=
  s.paint [33, 1] "warning:" ++ " " ++ message

/-! ## Choosing -/

/-- What the surroundings ask for; a variable that is not set is `none`. -/
structure Surroundings where
  noColor : Option String := none
  cliColor : Option String := none
  cliColorForce : Option String := none
  terminalType : Option String := none
  isTerminal : Bool := false
deriving Repr, DecidableEq

/-- `NO_COLOR` with any value and `CLICOLOR=0` forbid colour; otherwise `CLICOLOR_FORCE`
asks for it everywhere, and a terminal that is not dumb shows it. -/
def Surroundings.wantsColor (e : Surroundings) : Bool :=
  if e.noColor.isSome || e.cliColor = some "0" then false
  else if e.cliColorForce.any fun v => v ≠ "0" && v ≠ "" then true
  else e.isTerminal && e.terminalType.any (· ≠ "dumb")

/-- `always` and `never`, in any case, overrule the surroundings. -/
def choose (flag : String) (e : Surroundings) : Style :=
  match lowercase flag with
  | "always" => ⟨true⟩
  | "never" => ⟨false⟩
  | _ => ⟨e.wantsColor⟩

end Style

end RepoSelect
