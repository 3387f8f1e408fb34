/-!
# Typed reading of documents

What a reader of typed values asks of a document, whatever its format: a text, a flag, a
count, a list, a table, a record. A record is described by its slots; its members are read in
the order of the document, and what is missing afterwards is reported in the order of the
slots.

A fault is a cause and, in formats that say so, the place where it arose.
-/

namespace RepoSelect

/-! ## Faults -/

/-- One step down from a document to a part of it. -/
inductive Segment where
  | field (name : String)
  | item (index : Nat)
  | unnamed
deriving Repr, DecidableEq

inductive Cause where
  | wrongType (found expected : String)
  | wrongValue (found expected : String)
  | wrongLength (length : Nat) (expected : String)
  | missingField (name : String)
  | unknownField (name : String) (known : List String)
  | duplicateField (name : String)
  | unknownVariant (name : String) (known : List String)
  | noAlternative (type : String)
  | excessItems
  | expectedValue
  | tooDeep
  /-- The text has the right type, and its own reader refused it. -/
  | refused (message : String)
  /-- The text is no document of its format. -/
  | malformed (message : String)
deriving Repr, DecidableEq

structure Fault where
  cause : Cause
  path : Option (List Segment) := none
deriving Repr, DecidableEq

namespace Cause

def quoted (name : String) : String := "`" ++ name ++ "`"

/-- The names that would have been right. -/
def choices : List String → String
  | [] => "there are no fields"
  | [a] => "expected " ++ quoted a
  | [a, b] => "expected " ++ quoted a ++ " or " ++ quoted b
  | names => "expected one of " ++ ", ".intercalate (names.map quoted)

def message : Cause → String
  | wrongType found expected => "invalid type: " ++ found ++ ", expected " ++ expected
  | wrongValue found expected => "invalid value: " ++ found ++ ", expected " ++ expected
  | wrongLength n expected =>
    "invalid length " ++ toString n ++ ", expected " ++ expected
  | missingField name => "missing field " ++ quoted name
  | unknownField name known => "unknown field " ++ quoted name ++ ", " ++ choices known
  | duplicateField name => "duplicate field " ++ quoted name
  | unknownVariant name known => "unknown variant " ++ quoted name ++ ", " ++ choices known
  | noAlternative type => "data did not match any variant of untagged enum " ++ type
  | excessItems => "trailing characters"
  | expectedValue => "expected value"
  | tooDeep => "recursion limit exceeded"
  | refused message => message
  | malformed message => message

end Cause

/-- A path as text; the document itself is `.`. -/
def Segment.pathText (path : List Segment) : String :=
  path.foldl (fun shown segment =>
    let parent := if shown = "." then "" else shown ++ "."
    match segment with
    | field name => parent ++ name
    | item i => shown ++ "[" ++ toString i ++ "]"
    | unnamed => parent ++ "?") "."

namespace Fault

/-- The place and the cause; a document that is too deep is not at fault in one place. -/
def message (f : Fault) : String :=
  match f.path with
  | none | some [] => f.cause.message
  | some path =>
    if f.cause = .tooDeep then f.cause.message
    else Segment.pathText path ++ ": " ++ f.cause.message

/-- A fault of a part, seen from the whole. -/
def under (s : Segment) (f : Fault) : Fault := { f with path := f.path.map (s :: ·) }

/-- A fault without a place arose here. -/
def here (located : Bool) (f : Fault) : Fault :=
  if located && f.path.isNone then { f with path := some [] } else f

end Fault

abbrev Reading (α : Type) := Except Fault α

/-! ## Documents -/

/-- The parts of what is to be a record: members with their keys, or values in the order of
the slots. -/
inductive Shape (δ : Type) where
  | members (entries : List (δ × δ))
  | positions (items : List δ)

/-- A document format, seen by readers of typed values. -/
class Document (δ : Type) where
  /-- Faults say where in the document they arose. -/
  located : Bool
  text : (expected : String) → δ → Except Cause String
  flag : δ → Except Cause Bool
  /-- A whole number below 2⁶⁴. -/
  count : δ → Except Cause Nat
  items : δ → Except Cause (List δ)
  entries : δ → Except Cause (List (δ × δ))
  shape : (record : String) → δ → Except Cause (Shape δ)
  /-- An optional value is absent. -/
  isNull : δ → Except Cause Bool
  variant : (known : List String) → δ → Except Cause String

namespace Document

variable {δ : Type} [Document δ] {α σ : Type}

/-- A fault without a place arose in this document. -/
def at_ (δ : Type) [Document δ] (r : Reading α) : Reading α :=
  r.mapError (·.here (located δ))

def atCause (δ : Type) [Document δ] (r : Except Cause α) : Reading α :=
  at_ δ (r.mapError fun c => ⟨c, none⟩)

def under (s : Segment) (r : Reading α) : Reading α := r.mapError (·.under s)

@[simp] theorem at_ok (a : α) : at_ δ (.ok a) = .ok a := rfl

@[simp] theorem atCause_ok (a : α) : atCause δ (.ok a) = .ok a := rfl

@[simp] theorem under_ok (s : Segment) (a : α) : under s (.ok a) = .ok a := rfl

def readTextAs (expected : String) (d : δ) : Reading String := atCause δ (text expected d)

def readText : δ → Reading String := readTextAs "a string"

def readFlag (d : δ) : Reading Bool := atCause δ (flag d)

def readCount (d : δ) : Reading Nat := atCause δ (count d)

def readOption (read : δ → Reading α) (d : δ) : Reading (Option α) := do
  if ← (isNull d).mapError fun c => ⟨c, none⟩ then .ok none else .ok (some (← read d))

def readVariant (known : List String) (d : δ) : Reading String := atCause δ (variant known d)

/-- Reads the items from index `i` on. -/
def readItems (read : δ → Reading α) (i : Nat) : List δ → Reading (List α)
  | [] => .ok []
  | d :: ds => do
    let a ← under (.item i) (read d)
    let as ← readItems read (i + 1) ds
    .ok (a :: as)

def readList (read : δ → Reading α) (d : δ) : Reading (List α) := do
  let ds ← atCause δ (items d)
  at_ δ (readItems read 0 ds)

/-- Reads a table entry by entry. -/
def readEntries (read : δ → Reading α) : List (δ × δ) → Reading (List (String × α))
  | [] => .ok []
  | (k, d) :: rest => do
    let key ← readText k
    let a ← under (.field key) (read d)
    let as ← readEntries read rest
    .ok ((key, a) :: as)

/-- The entries of a table, in the order of the document. -/
def readTable (read : δ → Reading α) (d : δ) : Reading (List (String × α)) := do
  let ds ← atCause δ (entries d)
  at_ δ (readEntries read ds)

/-! ## Records -/

/-- A member that a record may have, and what its value does to the record. -/
structure Slot (δ σ : Type) where
  name : String
  aliases : List String := []
  required : Bool := false
  put : δ → σ → Reading σ

/-- The keys that name a slot. -/
def Slot.spellings (s : Slot δ σ) : List String := s.aliases ++ [s.name]

/-- Fills the record `r` from members; `seen` are the slots filled already. -/
def fill (strict : Bool) (slots : List (Slot δ σ)) :
    List (δ × δ) → List String → σ → Reading (List String × σ)
  | [], seen, r => .ok (seen, r)
  | (k, d) :: rest, seen, r => do
    let key ← readTextAs "field identifier" k
    match slots.find? fun s => s.spellings.contains key with
    | none =>
      if strict then .error ⟨.unknownField key (slots.flatMap (·.spellings)), none⟩
      else fill strict slots rest seen r
    | some s =>
      if seen.contains s.name then .error ⟨.duplicateField s.name, none⟩
      else
        let r ← under (.field key) (s.put d r)
        fill strict slots rest (s.name :: seen) r

/-- Fills the record from values in the order of the slots; `i` of them are filled. -/
def fillPositions (wanted : String) :
    Nat → List (Slot δ σ) → List δ → σ → Reading σ
  | _, [], [], r => .ok r
  | _, [], _ :: _, _ => .error ⟨.excessItems, none⟩
  | i, s :: ss, [], r =>
    if s.required then .error ⟨.wrongLength i wanted, none⟩
    else fillPositions wanted (i + 1) ss [] r
  | i, s :: ss, d :: ds, r => do
    let r ← under (.item i) (s.put d r)
    fillPositions wanted (i + 1) ss ds r

/-- Reads a record of the type named `record`. Unless `strict`, members without a slot are
passed over. -/
def readRecord (record : String) (strict : Bool) (slots : List (Slot δ σ)) (start : σ)
    (d : δ) : Reading σ := do
  match ← atCause δ (shape ("struct " ++ record) d) with
  | .members entries =>
    at_ δ do
      let (seen, r) ← fill strict slots entries [] start
      match slots.find? fun s => s.required && !seen.contains s.name with
      | some s => .error ⟨.missingField s.name, none⟩
      | none => .ok r
  | .positions items =>
    let wanted := "struct " ++ record ++ " with " ++ toString slots.length ++ " elements"
    at_ δ (fillPositions wanted 0 slots items start)

end Document

end RepoSelect
