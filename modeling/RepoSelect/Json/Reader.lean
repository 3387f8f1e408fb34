import RepoSelect.Json.Number

/-!
# Reading JSON

A recursive descent over the signs of a text: its characters, and the bytes that are part of no
character. Such a byte may stand in a string. The string is then no text, which only matters to
whoever wants it: a value that is skipped may have any. Elsewhere the byte is an error.

Containers are read with a bound on the number of steps; the length of the text is always enough.
-/

namespace RepoSelect.Json

/-! ## Signs -/

/-- A character, or none for a byte that is part of no character. -/
abbrev Sign := Option Char

def signs (text : String) : List Sign := text.toList.map some

/-- The signs from the byte `i` on, behind those found so far. -/
def signsFrom (content : ByteArray) (i : Nat) (found : Array Sign) : Array Sign :=
  if i < content.size then
    match content.utf8DecodeChar? i with
    | some c => signsFrom content (i + c.utf8Size) (found.push (some c))
    | none => signsFrom content (i + 1) (found.push none)
  else found
termination_by content.size - i
decreasing_by
  · have := c.utf8Size_pos
    omega
  · omega

/-- The signs of a content, read as UTF-8. -/
def signsOf (content : ByteArray) : List Sign := (signsFrom content 0 #[]).toList

/-- A step that reads something from the front of a text and returns the rest. -/
abbrev Step (α : Type) := List Sign → Except String (α × List Sign)

def isSpace (c : Sign) : Bool :=
  c = some ' ' || c = some '\n' || c = some '\t' || c = some '\r'

def skipSpace (s : List Sign) : List Sign := s.dropWhile isSpace

/-- The rest of a word of the language, such as `true`. -/
def word (v : Value) : List Char → Step Value
  | [], s => .ok (v, s)
  | _ :: _, [] => .error "EOF while parsing a value"
  | c :: cs, d :: s => if d = some c then word v cs s else .error "expected ident"

/-! ## Numbers -/

/-- Digits, one at least. -/
def digits : Step (List Char) := fun s =>
  match s.span (·.any Char.isDigit) with
  | ([], []) => .error "EOF while parsing a value"
  | ([], _) => .error "invalid number"
  | (ds, r) => .ok (ds.filterMap id, r)

/-- The digits in front of the point; a zero stands alone. -/
def wholeDigits : Step (List Char) := fun s => do
  match ← digits s with
  | ('0' :: _ :: _, _) => .error "invalid number"
  | found => .ok found

def fractionDigits : Step (List Char)
  | some '.' :: r => digits r
  | s => .ok ([], s)

def exponentPart : Step (Option (Bool × List Char))
  | c :: r =>
    if c = some 'e' ∨ c = some 'E' then do
      let (negative, r) := match r with
        | some '-' :: r => (true, r)
        | some '+' :: r => (false, r)
        | r => (false, r)
      let (ds, r) ← digits r
      .ok (some (negative, ds), r)
    else .ok (none, c :: r)
  | [] => .ok (none, [])

def number (s : List Sign) (negative : Bool) : Except String (Value × List Sign) := do
  let (whole, s) ← wholeDigits s
  let (fraction, s) ← fractionDigits s
  let (exponent, s) ← exponentPart s
  let v := match Number.ofLiteral? { negative, whole, fraction, exponent } with
    | some n => .number n
    | none => .unreadable "number out of range"
  .ok (v, s)

/-! ## Strings -/

def hexDigit? (c : Char) : Option Nat :=
  if c.isDigit then some (c.toNat - '0'.toNat)
  else if 'a' ≤ c ∧ c ≤ 'f' then some (c.toNat - 'a'.toNat + 10)
  else if 'A' ≤ c ∧ c ≤ 'F' then some (c.toNat - 'A'.toNat + 10)
  else none

/-- The number of four hexadecimal digits. -/
def hex4 : Step Nat
  | a :: b :: c :: d :: r =>
    match a.bind hexDigit?, b.bind hexDigit?, c.bind hexDigit?, d.bind hexDigit? with
    | some a, some b, some c, some d => .ok (((a * 16 + b) * 16 + c) * 16 + d, r)
    | _, _, _, _ => .error "invalid escape"
  | _ => .error "EOF while parsing a string"

def isHighSurrogate (n : Nat) : Bool := 0xD800 ≤ n && n < 0xDC00

def isLowSurrogate (n : Nat) : Bool := 0xDC00 ≤ n && n < 0xE000

/-- The character of a backslash and one letter. -/
def letterEscape? : Char → Option Char
  | '"' => some '"'
  | '\\' => some '\\'
  | '/' => some '/'
  | 'b' => some '\x08'
  | 'f' => some '\x0c'
  | 'n' => some '\n'
  | 'r' => some '\r'
  | 't' => some '\t'
  | _ => none

/-- What a string may have at one place. -/
inductive Piece where
  | char (c : Char)
  /-- Half of a surrogate pair. -/
  | half
  /-- A byte that is part of no character. -/
  | stray
deriving Repr, DecidableEq

def Piece.char? : Piece → Option Char
  | char c => some c
  | half | stray => none

/-- The text of a string, if all of it is text. -/
def textOf (ps : List Piece) : Except String String :=
  if .half ∈ ps then .error "lone leading surrogate in hex escape"
  else if .stray ∈ ps then .error "invalid unicode code point"
  else .ok (.ofList (ps.filterMap Piece.char?))

/-- The character written with the code unit `n`, which may take a second one. -/
def unicodeEscape (n : Nat) (s : List Sign) : Except String (Piece × List Sign) :=
  if isHighSurrogate n then
    match s with
    | some '\\' :: some 'u' :: r =>
      match hex4 r with
      | .error e => .error e
      | .ok (m, r') =>
        if isLowSurrogate m then
          .ok (.char (.ofNat (0x10000 + (n - 0xD800) * 0x400 + (m - 0xDC00))), r')
        else .ok (.half, s)
    | _ => .ok (.half, s)
  else if isLowSurrogate n then .ok (.half, s)
  else .ok (.char (.ofNat n), s)

/-- The pieces up to the closing quote. -/
def stringBody (fuel : Nat) (s : List Sign) : Except String (List Piece × List Sign) :=
  match fuel, s with
  | 0, _ | _, [] => .error "EOF while parsing a string"
  | _ + 1, some '"' :: r => .ok ([], r)
  | fuel + 1, some '\\' :: e :: r => do
    let (p, r) ← if e = some 'u' then (hex4 r).bind fun (n, r) => unicodeEscape n r
      else match e.bind letterEscape? with
        | some d => .ok (.char d, r)
        | none => .error "invalid escape"
    let (ps, r) ← stringBody fuel r
    .ok (p :: ps, r)
  | fuel + 1, some c :: r =>
    if c.toNat < 0x20 then .error "control character (\\u0000-\\u001F) found while parsing a string"
    else do
      let (ps, r) ← stringBody fuel r
      .ok (.char c :: ps, r)
  | fuel + 1, none :: r => do
    let (ps, r) ← stringBody fuel r
    .ok (.stray :: ps, r)

/-- The text of a string behind its opening quote, or why it is none. -/
def string : Step (Except String String) := fun s => do
  let (ps, r) ← stringBody s.length s
  .ok (textOf ps, r)

/-! ## Values -/

def stringOf : Except String String → Value
  | .ok text => .string text
  | .error message => .unreadable message

/-- An object; it is unreadable as soon as one of its keys is. -/
def objectOf (members : List (Except String String × Value)) : Value :=
  match members.mapM fun m => m.1.map (·, m.2) with
  | .ok ms => .object ms
  | .error message => .unreadable message

mutual

def value (fuel : Nat) (s : List Sign) : Except String (Value × List Sign) :=
  match fuel, skipSpace s with
  | 0, _ => .error "recursion limit exceeded"
  | _, [] => .error "EOF while parsing a value"
  | fuel + 1, c :: r =>
    if c = some 'n' then word .null ['u', 'l', 'l'] r
    else if c = some 't' then word (.bool true) ['r', 'u', 'e'] r
    else if c = some 'f' then word (.bool false) ['a', 'l', 's', 'e'] r
    else if c = some '"' then
      (string r).map fun (t, r) => (stringOf t, r)
    else if c = some '-' then number r true
    else if c.any Char.isDigit then number (c :: r) false
    else if c = some '[' then
      match skipSpace r with
      | some ']' :: r => .ok (.array [], r)
      | r => (items fuel r).map fun (vs, r) => (.array vs, r)
    else if c = some '\x7b' then
      match skipSpace r with
      | some '\x7d' :: r => .ok (.object [], r)
      | r => (members fuel r).map fun (ms, r) => (objectOf ms, r)
    else .error "expected value"

/-- The items of an array up to its end, one at least. -/
def items (fuel : Nat) (s : List Sign) : Except String (List Value × List Sign) :=
  match fuel with
  | 0 => .error "recursion limit exceeded"
  | fuel + 1 => do
    let (v, r) ← value fuel s
    match skipSpace r with
    | [] => .error "EOF while parsing a list"
    | c :: r =>
      if c = some ']' then .ok ([v], r)
      else if c = some ',' then do
        let (vs, r) ← items fuel r
        .ok (v :: vs, r)
      else .error "expected `,` or `]`"

/-- The members of an object up to its end, one at least. -/
def members (fuel : Nat) (s : List Sign) :
    Except String (List (Except String String × Value) × List Sign) :=
  match fuel, skipSpace s with
  | 0, _ => .error "recursion limit exceeded"
  | fuel + 1, some '"' :: r => do
    let (k, r) ← string r
    match skipSpace r with
    | some ':' :: r => do
      let (v, r) ← value fuel r
      match skipSpace r with
      | [] => .error "EOF while parsing an object"
      | c :: r =>
        if c = some '\x7d' then .ok ([(k, v)], r)
        else if c = some ',' then do
          let (ms, r) ← members fuel r
          .ok ((k, v) :: ms, r)
        else .error "expected `,` or `\x7d`"
    | _ => .error "expected `:`"
  | _ + 1, _ => .error "key must be a string"

end

/-- The value that some signs hold, with nothing but blanks around it. -/
def readSigns (s : List Sign) : Except String Value := do
  let (v, r) ← value (2 * s.length + 2) s
  if skipSpace r = [] then .ok v else .error "trailing characters"

def read (text : String) : Except String Value := readSigns (signs text)

/-- The text is a value, every part of which can be read. -/
def isWellFormed (text : String) : Bool :=
  match read text with
  | .ok v => v.isReadable
  | .error _ => false

end RepoSelect.Json
