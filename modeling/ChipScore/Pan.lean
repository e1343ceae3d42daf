/-!
# Stereo position
-/

namespace ChipScore

inductive Pan
  | off
  | right
  | left
  | center
  deriving DecidableEq, Repr

namespace Pan

def ofOperand? (n : UInt8) : Option Pan :=
  if n = 0 then some off
  else if n = 1 then some right
  else if n = 2 then some left
  else if n = 3 then some center
  else none

/-- The tracker's panning value: the left volume in the high digit, the right one in the low. -/
def level : Pan → UInt8
  | off => 0x00
  | right => 0x0F
  | left => 0xF0
  | center => 0xFF

end Pan

end ChipScore
