import RepoSelect.Binary64

/-!
# JSON values

A number is an integer where 64 bits hold it, else a binary64. A value is `unreadable` when
its spelling follows the grammar and yet stands for nothing, such as half of a surrogate pair
or a number out of range; it may be passed over, but not read.
-/

namespace RepoSelect.Json

inductive Number where
  | integer (n : Int)
  | double (negative : Bool) (x : Binary64)
deriving Repr, DecidableEq

inductive Value where
  | null
  | bool (b : Bool)
  | number (n : Number)
  | string (s : String)
  | array (items : List Value)
  | object (members : List (String × Value))
  | unreadable (message : String)
deriving Repr

namespace Value

mutual

/-- Every part of the value can be read. -/
def isReadable : Value → Bool
  | array items => allReadable items
  | object members => membersReadable members
  | unreadable _ => false
  | _ => true

def allReadable : List Value → Bool
  | [] => true
  | v :: vs => v.isReadable && allReadable vs

def membersReadable : List (String × Value) → Bool
  | [] => true
  | (_, v) :: ms => v.isReadable && membersReadable ms

end

def ofNat (n : Nat) : Value := .number (.integer n)

end Value

end RepoSelect.Json
