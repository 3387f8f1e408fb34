import RepoSelect.Document
import RepoSelect.Json.Reader
import RepoSelect.Text.Quoted

/-!
# JSON as a document

What each kind of value is to a reader of typed values. A record may also be an array, its
members in the order of the slots.
-/

namespace RepoSelect.Json

namespace Value

/-- A value as messages name it. -/
def found : Value → String
  | null => "null"
  | bool b => "boolean `" ++ toString b ++ "`"
  | number (.integer n) => "integer `" ++ toString n ++ "`"
  | number n => "floating point `" ++ n.text ++ "`"
  | string s => "string " ++ quotedText s
  | array _ => "sequence"
  | object _ => "map"
  | unreadable message => message

/-- The value is not of the expected type. -/
def mismatch (expected : String) : Value → Cause
  | unreadable message => .malformed message
  | v => .wrongType v.found expected

def asText (expected : String) : Value → Except Cause String
  | string s => .ok s
  | v => .error (v.mismatch expected)

def asFlag : Value → Except Cause Bool
  | bool b => .ok b
  | v => .error (v.mismatch "a boolean")

def asCount : Value → Except Cause Nat
  | v@(number (.integer n)) =>
    if 0 ≤ n then .ok n.toNat else .error (.wrongValue v.found "u64")
  | v => .error (v.mismatch "u64")

def asItems : Value → Except Cause (List Value)
  | array items => .ok items
  | v => .error (v.mismatch "a sequence")

/-- The members of an object, with their keys as values. -/
def keyed (members : List (String × Value)) : List (Value × Value) :=
  members.map fun (k, v) => (string k, v)

def asEntries : Value → Except Cause (List (Value × Value))
  | object members => .ok (keyed members)
  | v => .error (v.mismatch "a map")

def asShape (record : String) : Value → Except Cause (Shape Value)
  | object members => .ok (.members (keyed members))
  | array items => .ok (.positions items)
  | v => .error (v.mismatch record)

def isNull : Value → Bool
  | null => true
  | _ => false

def knownVariant (known : List String) (name : String) : Except Cause String :=
  if known.contains name then .ok name else .error (.unknownVariant name known)

/-- A variant is its name, or an object of the name alone with nothing under it. -/
def asVariant (known : List String) : Value → Except Cause String
  | string name => knownVariant known name
  | object ((name, v) :: rest) => do
    let name ← knownVariant known name
    match v with
    | null => if rest.isEmpty then .ok name else .error .expectedValue
    | v => .error (v.mismatch "unit")
  | _ => .error .expectedValue

end Value

instance : Document Value where
  located := false
  text := Value.asText
  flag := Value.asFlag
  count := Value.asCount
  items := Value.asItems
  entries := Value.asEntries
  shape := Value.asShape
  isNull v := .ok v.isNull
  variant := Value.asVariant

/-- Reads signs and then a typed value from them. -/
def decodeSigns (read : Value → Reading α) (s : List Sign) : Reading α :=
  match readSigns s with
  | .error message => .error ⟨.malformed message, none⟩
  | .ok v => read v

/-- Reads a text and then a typed value from it. -/
def decode (read : Value → Reading α) (text : String) : Reading α := decodeSigns read (signs text)

/-- Reads a content as UTF-8 and then a typed value from it. -/
def decodeBytes (read : Value → Reading α) (content : ByteArray) : Reading α :=
  decodeSigns read (signsOf content)

end RepoSelect.Json
