import RepoSelect.Text.Lower
import RepoSelect.Text.Split
import RepoSelect.Url.Punycode

/-!
# Domain names

The name that a domain is known by: in lower case, with plain letters for wide ones, without
invisible characters, and with every label that is not basic in Punycode.
-/

namespace RepoSelect.Url.Domain

open Text (splitAt inRanges)

/-- Characters that do not count. -/
def ignored : List (Nat × Nat) :=
  [(0xAD, 0xAD), (0x34F, 0x34F), (0x180B, 0x180F), (0x200B, 0x200B), (0x2060, 0x2060),
    (0x2064, 0x2064), (0xFE00, 0xFE0F), (0xFEFF, 0xFEFF), (0xE0100, 0xE01EF)]

/-- Characters that no domain has: controls, spaces, marks of direction, and such as are not
assigned. -/
def refused : List (Nat × Nat) :=
  [(0x80, 0xA0), (0x61C, 0x61C), (0x1680, 0x1680), (0x2000, 0x200A), (0x200C, 0x200F),
    (0x2028, 0x202F), (0x205F, 0x205F), (0x2061, 0x2063), (0x2065, 0x206F),
    (0x3000, 0x3000), (0xE000, 0xF8FF), (0xFDD0, 0xFDEF), (0xFFF0, 0xFFFF),
    (0xE0000, 0xE00FF), (0xE01F0, 0x10FFFF)]

/-- Basic characters that no domain has. -/
def forbidden (c : Char) : Bool :=
  c ≤ ' ' || c = '\x7f' || "%#/:<>?@[\\]^|".toList.contains c

/-- The characters that a character stands for; none if there is no such domain. -/
def mapped? (c : Char) : Option (List Char) :=
  if inRanges ignored c then some []
  else if c = '\u3002' ∨ c = '\uff61' then some ['.']
  else
    let n := c.toNat
    let plain := if 0xFF01 ≤ n ∧ n ≤ 0xFF5E then Char.ofNat (n - 0xFEE0) else c
    if inRanges refused plain || forbidden plain then none
    else if plain = '\u0130' then some ['i', '\u0307']
    else some [Text.lowerChar plain]

/-- A label in basic characters. A label that is Punycode already has to be that of some
label. -/
def label? (s : List Char) : Option (List Char) :=
  let tail := s.drop 4
  let isEncoded := s.take 4 = "xn--".toList
  if s.all Punycode.isBasic then
    if isEncoded then
      match Punycode.decode tail with
      | some plain =>
        if !plain.all Punycode.isBasic && plain.mapM mapped? = some (plain.map ([·])) then some s
        else none
      | none => none
    else some s
  else if isEncoded then none
  else some ("xn--".toList ++ Punycode.encode s)

def ofText? (s : List Char) : Option (List Char) := do
  let s := (← s.mapM mapped?).flatten
  some (['.'].intercalate (← (splitAt '.' s).mapM label?))

end RepoSelect.Url.Domain
