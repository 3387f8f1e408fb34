import RepoSelect.Log.Basic
import RepoSelect.Text.Blank
import RepoSelect.Text.Split

/-!
# Which messages are shown

A specification such as `warn,repo_fleet::cache=debug` is a list of rules: a level for every
topic, or for the topics whose names start with a text. Of the rules that fit a topic, the
one with the longest text decides. Text behind a `/` has to occur in the message.
-/

namespace RepoSelect.Log

/-- How important a message has to be to be shown; more of them are shown at a higher rank. -/
inductive Threshold where
  | off
  | upTo (level : Level)
deriving Repr, DecidableEq

def Level.rank : Level → Nat
  | .error => 1
  | .warn => 2
  | .info => 3
  | .debug => 4
  | .trace => 5

def Threshold.admits : Threshold → Level → Bool
  | .off, _ => false
  | .upTo limit, level => level.rank ≤ limit.rank

/-- A threshold by its name in any case. -/
def Threshold.named? (s : List Char) : Option Threshold :=
  match String.ofList (s.map Char.toLower) with
  | "off" => some .off
  | "error" => some (.upTo .error)
  | "warn" => some (.upTo .warn)
  | "info" => some (.upTo .info)
  | "debug" => some (.upTo .debug)
  | "trace" => some (.upTo .trace)
  | _ => none

/-- A threshold for the topics whose names start with a text. -/
structure Rule where
  start : Option (List Char)
  threshold : Threshold
deriving Repr, DecidableEq

structure Rules where
  rules : List Rule := []
  /-- What a message has to contain. -/
  needle : List Char := []
  /-- What is wrong with the specification. -/
  complaints : List String := []
deriving Repr, DecidableEq

namespace Rules

/-- One rule of a specification, or what is wrong with it. -/
def readRule (s : List Char) : Except String Rule :=
  match Text.splitAt '=' s with
  | [name] =>
    match Threshold.named? name with
    | some threshold => .ok ⟨none, threshold⟩
    | none => .ok ⟨some name, .upTo .trace⟩
  | [name, level] =>
    let level := Text.trim level
    if level = [] then .ok ⟨some name, .upTo .trace⟩
    else
      match Threshold.named? level with
      | some threshold => .ok ⟨some name, threshold⟩
      | none => .error ("invalid logging spec '" ++ String.ofList level ++ "'")
  | _ => .error ("invalid logging spec '" ++ String.ofList s ++ "'")

/-- Adds a rule, in place of one for the same start. -/
def add (rules : List Rule) (r : Rule) : List Rule :=
  if rules.any (·.start = r.start) then
    rules.map fun other => if other.start = r.start then r else other
  else rules ++ [r]

def readRules (s : List Char) : Rules :=
  let parts := ((Text.splitAt ',' s).map Text.trim).filter (· ≠ [])
  parts.foldl (fun rs part =>
    match readRule part with
    | .ok r => { rs with rules := add rs.rules r }
    | .error complaint => { rs with complaints := rs.complaints ++ [complaint] }) {}

def read (spec : String) : Rules :=
  match Text.splitAt '/' spec.toList with
  | [rules] => readRules rules
  | [rules, needle] => { readRules rules with needle }
  | _ => { complaints := ["invalid logging spec '" ++ spec ++ "' (too many '/'s)"] }

/-- How specific a rule is. -/
def Rule.weight (r : Rule) : Nat := ((r.start.map String.ofList).getD "").utf8ByteSize

def Rule.fits (r : Rule) (topic : Topic) : Bool :=
  r.start.all (·.isPrefixOf topic.name.toList)

/-- The rule that decides about a topic: of the most specific ones, the last. -/
def deciding? (rules : List Rule) (topic : Topic) : Option Rule :=
  (rules.filter (Rule.fits · topic)).foldl (fun best r =>
    match best with
    | some b => if Rule.weight b ≤ Rule.weight r then some r else some b
    | none => some r) none

def contains (needle : List Char) : List Char → Bool
  | [] => needle.isEmpty
  | c :: r => needle.isPrefixOf (c :: r) || contains needle r

/-- A message is shown; without any rule only errors are. -/
def admits (rs : Rules) (m : Message) : Bool :=
  let decided :=
    if rs.rules.isEmpty then Threshold.admits (.upTo .error) m.level
    else (deciding? rs.rules m.topic).any (·.threshold.admits m.level)
  decided && contains rs.needle m.text.toList

end Rules

end RepoSelect.Log
