/-!
# Powers of two and of ten

The bounds of numbers by how many binary or decimal digits they have.
-/

namespace RepoSelect

/-- The bound of the numbers with `n` binary digits. -/
def twoTo (n : Nat) : Nat := Nat.pow 2 n

/-- The bound of the numbers with `n` decimal digits. -/
def tenTo (n : Nat) : Nat := Nat.pow 10 n

@[simp] theorem twoTo_zero : twoTo 0 = 1 := rfl

theorem twoTo_succ (n : Nat) : twoTo (n + 1) = 2 * twoTo n := Nat.pow_succ'

theorem twoTo_add (m n : Nat) : twoTo (m + n) = twoTo m * twoTo n := Nat.pow_add 2 m n

theorem twoTo_pos (n : Nat) : 0 < twoTo n := Nat.pow_pos (by decide)

@[simp] theorem tenTo_zero : tenTo 0 = 1 := rfl

end RepoSelect
