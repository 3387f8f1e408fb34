import RepoSelect.CommandLine.Level

/-!
# Reading the command line

The words of a command line, level by level. A word that names a level below leads there; a
word with hyphens in front is a flag; `--` makes operands of all words behind it.
-/

namespace RepoSelect.CommandLine

/-- Why the words are not carried out. -/
inductive Stop where
  | help
  | version
  | misuse
deriving Repr, DecidableEq

/-! ## Words -/

inductive Word where
  | separator
  | long (name : String) (value : Option String)
  | letters (s : List Char)
  | plain
deriving Repr, DecidableEq

/-- The name and the value of a text as `name=value`. -/
def splitValue (s : List Char) : String × Option String :=
  match s.dropWhile (· ≠ '=') with
  | [] => (String.ofList s, none)
  | _ :: value => (String.ofList (s.takeWhile (· ≠ '=')), some (String.ofList value))

def Word.ofText (text : String) : Word :=
  match text.toList with
  | ['-', '-'] => .separator
  | '-' :: '-' :: s => let (name, value) := splitValue s; .long name value
  | ['-'] => .plain
  | '-' :: s => .letters s
  | _ => .plain

/-! ## One level -/

/-- What is known of a level while its words are read. -/
structure Progress where
  level : Level
  given : List (Flag × Option String) := []
  operands : List String := []
  /-- A flag whose value is still to come. -/
  pending : Option Flag := none
  /-- Behind `--`. -/
  operandsOnly : Bool := false
deriving Repr, DecidableEq

namespace Progress

def flagNamed? (p : Progress) (name : String) : Option Flag :=
  p.level.flags.find? (·.name = name)

def flagLettered? (p : Progress) (c : Char) : Option Flag :=
  p.level.flags.find? (·.letter? = some c)

/-- The next word may be an operand even if it looks like an unknown flag. -/
def takesHyphens (p : Progress) : Bool := p.level.operands = .one && p.operands.isEmpty

/-- A flag and its value. At one level each flag stands at most once. -/
def give (p : Progress) (f : Flag) (value : Option String) : Except Stop Progress :=
  if p.pending.isSome then .error .misuse
  else
    match f with
    | .help => .error .help
    | .version => .error .version
    | f =>
      if (p.given.lookup f).isSome || (f.value = .path && value = some "") then .error .misuse
      else .ok { p with given := p.given ++ [(f, value)] }

/-- A flag whose value is the next word. -/
def await (p : Progress) (f : Flag) : Except Stop Progress :=
  if p.pending.isSome then .error .misuse else .ok { p with pending := some f }

/-- The value of the pending flag, or an operand. -/
def plain (p : Progress) (text : String) : Except Stop Progress :=
  match p.pending with
  | some f => { p with pending := none }.give f (some text)
  | none =>
    if p.level.operands = .many || p.takesHyphens then
      .ok { p with operands := p.operands ++ [text] }
    else .error .misuse

/-- A flag by its name. -/
def long (p : Progress) (text name : String) (value : Option String) :
    Except Stop Progress :=
  match p.flagNamed? name with
  | none => if p.takesHyphens then p.plain text else .error .misuse
  | some f =>
    if f.value = .nothing then if value.isSome then .error .misuse else p.give f none
    else if value.isSome then p.give f value
    else p.await f

/-- Flags by their letters; one with a value takes what is left as its value. -/
def letters (p : Progress) : List Char → Except Stop Progress
  | [] => .ok p
  | c :: rest =>
    match p.flagLettered? c with
    | none => .error .misuse
    | some f =>
      if f.value = .nothing then do (← p.give f none).letters rest
      else
        match rest with
        | [] => p.await f
        | '=' :: value => p.give f (some (String.ofList value))
        | value => p.give f (some (String.ofList value))

/-- A word that leads to no other level. -/
def word (p : Progress) (text : String) : Except Stop Progress :=
  if p.operandsOnly then p.plain text
  else
    match Word.ofText text with
    | .separator =>
      if p.pending.isSome then .error .misuse else .ok { p with operandsOnly := true }
    | .plain => p.plain text
    | .long name value => p.long text name value
    | .letters s =>
      if p.takesHyphens && s.any (fun c => (p.flagLettered? c).isNone) then p.plain text
      else p.letters s

/-- The level that a word leads to. -/
def child? (p : Progress) (text : String) : Option Level :=
  if p.operandsOnly || p.pending.isSome then none else p.level.children.lookup text

/-- All words of the level are read. -/
def finish (p : Progress) : Except Stop Progress :=
  if p.pending.isSome || p.level.isGroup
      || 1 < (p.given.filter (p.level.exclusive.contains ·.1)).length then
    .error .misuse
  else .ok p

end Progress

/-! ## All levels -/

/-- What words behind `help` ask for. -/
def helpFor (l : Level) : List String → Stop
  | [] => .help
  | w :: ws =>
    if l.isGroup && w = "help" then if ws.isEmpty then .help else .misuse
    else
      match l.children.lookup w with
      | some child => helpFor child ws
      | none => .misuse

/-- The levels that the words go through, the outermost first. -/
def readFrom (p : Progress) : List String → Except Stop (List Progress)
  | [] => do .ok [← p.finish]
  | text :: rest =>
    if p.level.isGroup && text = "help" && !p.operandsOnly && p.pending.isNone then
      .error (helpFor p.level rest)
    else
      match p.child? text with
      | some child => do .ok (p :: (← readFrom { level := child } rest))
      | none => do readFrom (← p.word text) rest

def read (words : List String) : Except Stop (List Progress) :=
  readFrom { level := .program } words

end RepoSelect.CommandLine
