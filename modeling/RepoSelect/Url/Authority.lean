import RepoSelect.Url.Address
import RepoSelect.Url.Domain

/-!
# Hosts and ports of URLs

The host that a URL names, and the port if it is not the one that goes with the scheme. A URL
of a web scheme has a host however many slashes there are; one of another scheme has a host
behind two slashes, and it is taken as it stands.
-/

namespace RepoSelect.Url

structure Authority where
  host : String
  port : Option Nat
deriving Repr, DecidableEq

/-! ## Schemes -/

/-- The port that goes with a web scheme. -/
def defaultPort? : String → Option Nat
  | "http" | "ws" => some 80
  | "https" | "wss" => some 443
  | "ftp" => some 21
  | _ => none

def isSchemeChar (c : Char) : Bool := c.isAlphanum || c = '+' || c = '-' || c = '.'

/-- The scheme in lower case, and what stands behind its colon. -/
def scheme? (s : List Char) : Option (String × List Char) :=
  match s.takeWhile isSchemeChar, s.dropWhile isSchemeChar with
  | c :: name, ':' :: r =>
    if c.isAlpha then some (String.ofList ((c :: name).map Char.toLower), r) else none
  | _, _ => none

/-! ## Hosts -/

/-- The bytes of a text with `%41` as one byte. -/
def percentDecoded : List UInt8 → List UInt8
  | 0x25 :: a :: b :: r =>
    match Text.natural? 16 [Char.ofNat a.toNat, Char.ofNat b.toNat] with
    | some n => n.toUInt8 :: percentDecoded r
    | none => 0x25 :: percentDecoded (a :: b :: r)
  | c :: r => c :: percentDecoded r
  | [] => []

/-- An address in brackets. -/
def bracketed? (s : List Char) : Option String :=
  match s.reverse with
  | ']' :: r => (Address.v6? (r.reverse.drop 1)).map fun g => "[" ++ Address.v6Text g ++ "]"
  | _ => none

/-- The host of a web scheme. -/
def webHost? (s : List Char) : Option String :=
  if s.head? = some '[' then bracketed? s
  else do
    let bytes := percentDecoded (String.ofList s).toUTF8.toList
    let text ← String.fromUTF8? ⟨bytes.toArray⟩
    let domain ← Domain.ofText? text.toList
    if domain = [] then none
    else if Address.endsInNumber domain then (Address.v4? domain).map Address.v4Text
    else some (String.ofList domain)

/-- A byte as `%C3`. -/
def percentEncoded (b : UInt8) : List Char :=
  ['%', (Nat.digitChar (b.toNat / 16)).toUpper, (Nat.digitChar (b.toNat % 16)).toUpper]

/-- The host of any other scheme. -/
def opaqueHost? (s : List Char) : Option String :=
  if s.head? = some '[' then bracketed? s
  else if s = [] ∨ s.any (fun c => "\x00\t\n\r #/:<>?@[\\]^|".toList.contains c) then none
  else
    some <| String.ofList <| s.flatMap fun c =>
      if c < ' ' ∨ '\x7f' ≤ c then (String.singleton c).toUTF8.toList.flatMap percentEncoded
      else [c]

/-! ## Authorities -/

/-- The text up to the first colon outside brackets, and the rest. -/
def splitPort (inside : Bool) : List Char → List Char × List Char
  | [] => ([], [])
  | c :: r =>
    if c = ':' && !inside then ([], c :: r)
    else
      let (host, rest) := splitPort (c = '[' || (inside && c ≠ ']')) r
      (c :: host, rest)

/-- The number behind a colon; nothing stands for no port. -/
def port? : List Char → Option (Option Nat)
  | [] | [':'] => some none
  | _ :: ds =>
    if ds.all Char.isDigit then
      (Text.natural? 10 ds).bind fun n => if n < 65536 then some (some n) else none
    else none

/-- The text behind the last `@`. -/
def afterUser (s : List Char) : List Char := (s.reverse.takeWhile (· ≠ '@')).reverse

/-- The authority at the start of a text that goes on with `ends` characters. -/
def Authority.read? (ends : List Char) (host? : List Char → Option String)
    (usual : Option Nat) (s : List Char) : Option Authority := do
  let (host, rest) := splitPort false (afterUser (s.takeWhile (!ends.contains ·)))
  let port ← port? (if rest.head? = some ':' then rest.takeWhile (· ≠ '\\') else rest)
  some ⟨← host? host, if port = usual then none else port⟩

/-- A letter of a drive, as `c:` or `c|`. -/
def isDrive : List Char → Bool
  | [c, d] => c.isAlpha && (d = ':' || d = '|')
  | _ => false

/-- The host of a file; the machine itself is no host. -/
def fileAuthority? (s : List Char) : Option Authority := do
  let isSlash (c : Char) := c = '/' || c = '\\'
  let goesOn (c : Char) := !(isSlash c || c = '?' || c = '#')
  match s with
  | a :: b :: r =>
    let text := r.takeWhile goesOn
    let path := ((r.dropWhile goesOn).dropWhile isSlash).takeWhile goesOn
    if !isSlash a || !isSlash b || isDrive text || isDrive path then none
    else
      let host ← webHost? text
      if host = "localhost" then none else some ⟨host, none⟩
  | _ => none

/-- The host and port of a URL, if the text is a URL that has them. -/
def authority? (text : String) : Option Authority := do
  let s := (text.toList.dropWhile (· ≤ ' ')).reverse.dropWhile (· ≤ ' ')
  let s := s.reverse.filter fun c => c ≠ '\t' && c ≠ '\n' && c ≠ '\r'
  let (scheme, rest) ← scheme? s
  if scheme = "file" then fileAuthority? rest
  else
    match defaultPort? scheme, rest with
    | some usual, _ =>
      Authority.read? ['/', '\\', '?', '#'] webHost? (some usual)
        (rest.dropWhile fun c => c = '/' || c = '\\')
    | none, '/' :: '/' :: r => Authority.read? ['/', '?', '#'] opaqueHost? none r
    | none, _ => none

end RepoSelect.Url
