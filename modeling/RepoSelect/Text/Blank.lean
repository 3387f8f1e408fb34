/-!
# Blanks

The characters of Unicode's `White_Space` property, and a text without them at its ends.

Main statement: `trim` keeps a text whose first and last characters are no blanks
(`trim_eq_self`).
-/

namespace RepoSelect

/-- The characters with the property `White_Space`. -/
def isBlank (c : Char) : Bool :=
  let n := c.toNat
  (9 ≤ n && n ≤ 13) || n == 0x20 || n == 0x85 || n == 0xA0 || n == 0x1680
    || (0x2000 ≤ n && n ≤ 0x200A) || n == 0x2028 || n == 0x2029 || n == 0x202F
    || n == 0x205F || n == 0x3000

namespace Text

def trimStart (s : List Char) : List Char := s.dropWhile isBlank

def trimEnd (s : List Char) : List Char := (s.reverse.dropWhile isBlank).reverse

def trim (s : List Char) : List Char := trimEnd (trimStart s)

theorem trimStart_of_head {s : List Char} (h : ∀ c, s.head? = some c → isBlank c = false) :
    trimStart s = s := by
  cases s with
  | nil => rfl
  | cons c r => simp [trimStart, h c rfl]

theorem trimEnd_of_getLast {s : List Char}
    (h : ∀ c, s.getLast? = some c → isBlank c = false) : trimEnd s = s := by
  have : trimStart s.reverse = s.reverse := trimStart_of_head (by simpa using h)
  simpa [trimEnd, trimStart] using congrArg List.reverse this

theorem trim_eq_self {s : List Char} (h : ∀ c, s.head? = some c → isBlank c = false)
    (h' : ∀ c, s.getLast? = some c → isBlank c = false) : trim s = s := by
  rw [trim, trimStart_of_head h, trimEnd_of_getLast h']

end Text

/-- The text without the blanks at its ends. -/
def trimmed (s : String) : String := String.ofList (Text.trim s.toList)

/-- The text has a character that is no blank. -/
def hasText (s : String) : Bool := s.toList.any fun c => !isBlank c

end RepoSelect
