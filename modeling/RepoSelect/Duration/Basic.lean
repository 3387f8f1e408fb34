import RepoSelect.Power

/-!
# Durations

A span of time of at least zero, in whole nanoseconds.
-/

namespace RepoSelect

structure Duration where
  nanos : Nat
deriving Repr, DecidableEq

namespace Duration

def zero : Duration := ⟨0⟩

def ofSeconds (s : Nat) : Duration := ⟨s * 1000000000⟩

def ofMillis (ms : Nat) : Duration := ⟨ms * 1000000⟩

def seconds (d : Duration) : Nat := d.nanos / 1000000000

/-- The nanoseconds past the last whole second. -/
def subsecNanos (d : Duration) : Nat := d.nanos % 1000000000

def millis (d : Duration) : Nat := d.nanos / 1000000

/-- Durations end below this number of seconds. -/
def secondsBound : Nat := twoTo 64

def isZero (d : Duration) : Bool := d.nanos = 0

def minus (d e : Duration) : Duration := ⟨d.nanos - e.nanos⟩

instance : LT Duration := ⟨fun d e => d.nanos < e.nanos⟩

instance : LE Duration := ⟨fun d e => d.nanos ≤ e.nanos⟩

instance (d e : Duration) : Decidable (d < e) := inferInstanceAs (Decidable (d.nanos < e.nanos))

instance (d e : Duration) : Decidable (d ≤ e) := inferInstanceAs (Decidable (d.nanos ≤ e.nanos))

end Duration

end RepoSelect
