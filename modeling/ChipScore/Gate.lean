/-!
# Gate times

A gate says how much of a note's length sounds before the key is let go.
-/

namespace ChipScore

/-- `ticks n` lets go `n` ticks before the end, `eighths n` after `n` eighths of the length. -/
inductive Gate
  | ticks (n : UInt8)
  | eighths (n : UInt8)
  deriving DecidableEq, Repr

namespace Gate

/-- The key is held to the end of the note. -/
def full : Gate := .ticks 0

def silence (duration : Nat) : Gate → Nat
  | .ticks n => min n.toNat duration
  | .eighths n => if n = 0 ∨ 8 ≤ n then 0 else duration - duration * n.toNat / 8

/-- The tick at which the key is let go. Every note sounds for at least one tick. -/
def release (gate : Gate) (start duration : Nat) : Nat :=
  max (start + duration - gate.silence duration) (start + 1)

end Gate

end ChipScore
