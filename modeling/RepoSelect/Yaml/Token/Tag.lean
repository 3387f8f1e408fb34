import RepoSelect.Yaml.Token.Quoted

/-!
# Anchors, tags and directives

Names behind `&`, `*`, `!` and `%`.
-/

namespace RepoSelect.Yaml

/-- The name of an anchor behind its mark. -/
def anchorName : Step String := fun c =>
  let (name, c) := c.run isWordChar
  let ends := endsWord c.peek? || c.peek?.any fun d =>
    d = '?' || d = ':' || d = ',' || d = ']' || d = '\x7d' || d = '%' || d = '@' || d = '`'
  if name = [] ∨ !ends then .error "did not find expected alphabetic or numeric character"
  else .ok (.ofList name, c)

namespace Tag

def isUriChar (verbatim : Bool) (c : Char) : Bool :=
  isWordChar c || c = ';' || c = '/' || c = '?' || c = ':' || c = '@' || c = '&' || c = '='
    || c = '+' || c = '$' || c = '.' || c = '%' || c = '!' || c = '~' || c = '*' || c = '\''
    || c = '(' || c = ')' || (verbatim && (c = ',' || c = '[' || c = ']'))

/-- The bytes that a text with `%xx` in it stands for. -/
def unescape : List Char → Except String (List UInt8)
  | '%' :: a :: b :: r =>
    match Quoted.hexDigit? a, Quoted.hexDigit? b with
    | some x, some y => do .ok ((x * 16 + y).toUInt8 :: (← unescape r))
    | _, _ => .error "did not find URI escaped octet"
  | '%' :: _ => .error "did not find URI escaped octet"
  | c :: r => do .ok ((String.singleton c).toUTF8.toList ++ (← unescape r))
  | [] => .ok []

/-- The part of a tag behind its handle; `given` characters stand in front of it. -/
def uri (verbatim : Bool) (given : List Char) : Step String := fun c => do
  let (text, c) := c.run (isUriChar verbatim)
  if given = [] ∧ text = [] then .error "did not find expected tag URI"
  else
    let bytes ← unescape (given.drop 1 ++ text)
    match String.fromUTF8? bytes.toByteArray with
    | some s => .ok (s, c)
    | none => .error "found an incorrect UTF-8 octet"

/-- A handle such as `!`, `!!` or `!name!`, or the part of a tag that looks like one. -/
def handle (directive : Bool) : Step (List Char) := fun c =>
  if c.peek? ≠ some '!' then .error "did not find expected '!'"
  else
    let (name, c) := (c.advance 1).run isWordChar
    if c.peek? = some '!' then .ok ('!' :: name ++ ['!'], c.advance 1)
    else if directive && name ≠ [] then .error "did not find expected '!'"
    else .ok ('!' :: name, c)

/-- A tag at its mark. -/
def token (flow : Bool) : Step Token := fun c => do
  let (t, c) ← if c.ahead? 1 = some '<' then do
      let (suffix, c) ← uri true [] (c.advance 2)
      if c.peek? = some '>' then .ok (Token.tag "" suffix, c.advance 1)
      else .error "did not find the expected '>'"
    else do
      let (h, c) ← handle false c
      if 2 ≤ h.length && h.getLast? = some '!' then do
        let (suffix, c) ← uri false [] c
        .ok (Token.tag (.ofList h) suffix, c)
      else do
        let (suffix, c) ← uri false h c
        .ok (if suffix = "" then Token.tag "" "!" else Token.tag "!" suffix, c)
  if endsWord c.peek? || (flow && c.peek? = some ',') then .ok (t, c)
  else .error "did not find expected whitespace or line break"

end Tag

namespace Directive

/-- A number of at most nine digits. -/
def versionNumber : Step Nat := fun c =>
  let (ds, c) := c.run Char.isDigit
  if ds = [] then .error "did not find expected version number"
  else if 9 < ds.length then .error "found extremely long version number"
  else .ok (ds.foldl (fun n d => 10 * n + (d.toNat - '0'.toNat)) 0, c)

def version : Step Token := fun c => do
  let (major, c) ← versionNumber (c.skipWhile isSpaceOrTab)
  if c.peek? ≠ some '.' then .error "did not find expected digit or '.' character"
  else
    let (minor, c) ← versionNumber (c.advance 1)
    .ok (.version major minor, c)

def tagHandle : Step Token := fun c => do
  let (h, c) ← Tag.handle true (c.skipWhile isSpaceOrTab)
  if !c.peek?.any isSpaceOrTab then .error "did not find expected whitespace"
  else
    let (stem, c) ← Tag.uri true [] (c.skipWhile isSpaceOrTab)
    if endsWord c.peek? then .ok (.tagHandle (.ofList h) stem, c)
    else .error "did not find expected whitespace or line break"

/-- A directive at its mark, with the rest of its line. -/
def token : Step Token := fun c => do
  let (name, c) := (c.advance 1).run isWordChar
  if name = [] then .error "could not find expected directive name"
  else if !endsWord c.peek? then .error "found unexpected non-alphabetical character"
  else
    let (t, c) ← match String.ofList name with
      | "YAML" => version c
      | "TAG" => tagHandle c
      | _ => .error "found unknown directive name"
    let c := c.skipWhile isSpaceOrTab
    let c := if c.peek? = some '#' then c.skipWhile fun _ => true else c
    if endsLine c.peek? then .ok (t, c.skipBreak)
    else .error "did not find expected comment or line break"

end Directive

end RepoSelect.Yaml
