import ChipScore.Event
import ChipScore.Row

/-!
# The row grid

All channels share one grid of rows, each of which lasts the same number of ticks.
-/

namespace ChipScore

/-- `tempo` is the tempo in force before the first row. -/
structure Grid where
  ticksPerRow : Nat
  rowCount : Nat
  tempo : Tempo
  deriving DecidableEq, Repr

namespace Grid

def rowOf (g : Grid) (tick : Nat) : Nat := tick / g.ticksPerRow

/-- The first row that starts at a tick or after it. -/
def rowFrom (g : Grid) (tick : Nat) : Nat := (tick + g.ticksPerRow - 1) / g.ticksPerRow

end Grid

/-! ## Effect values that depend on the grid or have a range -/

namespace Effect

/-- A quarter of the detune around `80`, if that fits. -/
def detuneValue? (detune : Int16) : Option UInt8 :=
  let value := 0x80 + detune.toInt.fdiv 4
  if 0 ≤ value ∧ value ≤ 0xFF then some (UInt8.ofNat value.toNat) else none

def maxSlideSemitones : Nat := 15

/-- The speed of a slide within one row. Longer slides share it among their rows. -/
def fullSlideSpeed : Nat := 32

def distance (a b : UInt8) : Nat := (a.toNat - b.toNat) + (b.toNat - a.toNat)

/-- The start of a slide from `note`, if the pitch moves at all. -/
def slide? (note : UInt8) (slide : Slide) (ticksPerRow : Nat) : Option Effect :=
  let semitones := min (distance note slide.target) maxSlideSemitones
  let rows := max (slide.ticks / ticksPerRow) 1
  let speed := min (max (fullSlideSpeed / rows) 1) 15
  if note < slide.target then some (slideUp speed semitones)
  else if slide.target < note then some (slideDown speed semitones)
  else none

end Effect

end ChipScore
