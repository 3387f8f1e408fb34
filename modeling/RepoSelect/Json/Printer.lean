import RepoSelect.Json.Number

/-!
# Writing JSON

One item or member per line, two spaces deeper than its container.
-/

namespace RepoSelect.Json

def hexDigit (n : Nat) : Char := (Nat.toDigits 16 n).headD '0'

/-- One character between quotes. -/
def escape (c : Char) : List Char :=
  match c with
  | '"' => ['\\', '"']
  | '\\' => ['\\', '\\']
  | '\x08' => ['\\', 'b']
  | '\x0c' => ['\\', 'f']
  | '\n' => ['\\', 'n']
  | '\r' => ['\\', 'r']
  | '\t' => ['\\', 't']
  | c =>
    if c.toNat < 0x20 then
      ['\\', 'u', '0', '0', hexDigit (c.toNat / 16), hexDigit (c.toNat % 16)]
    else [c]

def quoted (s : String) : List Char := '"' :: s.toList.flatMap escape ++ ['"']

def newline (depth : Nat) : List Char := '\n' :: List.replicate (2 * depth) ' '

mutual

/-- A value inside `depth` containers. -/
def pretty (depth : Nat) : Value → List Char
  | .null => ['n', 'u', 'l', 'l']
  | .bool true => ['t', 'r', 'u', 'e']
  | .bool false => ['f', 'a', 'l', 's', 'e']
  | .number n => n.text.toList
  | .string s => quoted s
  | .unreadable _ => []
  | .array [] => ['[', ']']
  | .array (v :: vs) =>
    '[' :: newline (depth + 1) ++ pretty (depth + 1) v ++ moreItems (depth + 1) vs
      ++ newline depth ++ [']']
  | .object [] => ['\x7b', '\x7d']
  | .object ((k, v) :: ms) =>
    '\x7b' :: newline (depth + 1) ++ quoted k ++ ':' :: ' ' :: pretty (depth + 1) v
      ++ moreMembers (depth + 1) ms ++ newline depth ++ ['\x7d']

def moreItems (depth : Nat) : List Value → List Char
  | [] => []
  | v :: vs => ',' :: newline depth ++ pretty depth v ++ moreItems depth vs

def moreMembers (depth : Nat) : List (String × Value) → List Char
  | [] => []
  | (k, v) :: ms =>
    ',' :: newline depth ++ quoted k ++ ':' :: ' ' :: pretty depth v ++ moreMembers depth ms

end

def print (v : Value) : String := String.ofList (pretty 0 v)

end RepoSelect.Json
