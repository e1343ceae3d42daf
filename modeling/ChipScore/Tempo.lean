/-!
# Tempo

The tempo is kept as the number that a musician writes. The period of the chip's timer follows from
it, so the two never disagree: the product of tempo and period is a constant, up to rounding.
-/

namespace ChipScore

structure Tempo where
  human : UInt8 := 75
  deriving DecidableEq, Repr

/-- `timer` and `timerBy` give the timer register, `human` and `humanBy` the musician's number. -/
inductive TempoChange
  | timer (value : UInt8)
  | human (value : UInt8)
  | timerBy (delta : Int8)
  | humanBy (delta : Int8)
  deriving DecidableEq, Repr

def saturatingAdd (n : UInt8) (delta : Int8) : UInt8 :=
  UInt8.ofNat (min (n.toNat + delta.toInt).toNat 255)

namespace Tempo

def timerConstant : Nat := 4396

/-- A tempo of zero would stand still, so one is the least. -/
def ofHuman (value : UInt8) : Tempo := ⟨max value 1⟩

def ofTimer (register : UInt8) : Tempo :=
  let period := 256 - register.toNat
  ofHuman (UInt8.ofNat (min ((timerConstant + period / 2) / period) 255))

def timer (t : Tempo) : UInt8 :=
  let period := (timerConstant + t.human.toNat / 2) / t.human.toNat
  UInt8.ofNat (min (256 - period) 255)

def change (t : Tempo) : TempoChange → Tempo
  | .timer value => ofTimer value
  | .human value => ofHuman value
  | .timerBy delta => ofTimer (saturatingAdd t.timer delta)
  | .humanBy delta => ofHuman (saturatingAdd t.human delta)

end Tempo

end ChipScore
