/-!
# Options of a conversion
-/

namespace ChipScore

structure Options where
  ticksPerRow : Nat := 3
  patternLength : Nat := 64
  effectColumns : Nat := 8
  tempoBase : Nat := 75
  compress : Bool := false
  deriving DecidableEq, Repr

inductive OptionFault
  | ticksPerRow (value : Nat)
  | patternLength (value : Nat)
  | effectColumns (value : Nat)
  | tempoBase
  deriving DecidableEq, Repr

namespace Options

def maxTicksPerRow : Nat := 255

def maxPatternLength : Nat := 256

def maxEffectColumns : Nat := 8

end Options

namespace OptionFault

def message : OptionFault → String
  | ticksPerRow value => s!"ticks per row must be 1-{Options.maxTicksPerRow}, got {value}"
  | patternLength value => s!"pattern length must be 1-{Options.maxPatternLength}, got {value}"
  | effectColumns value => s!"effect columns must be 1-{Options.maxEffectColumns}, got {value}"
  | tempoBase => "tempo baseline must be positive"

end OptionFault

namespace Options

def fault? (o : Options) : Option OptionFault :=
  if o.ticksPerRow = 0 ∨ maxTicksPerRow < o.ticksPerRow then some (.ticksPerRow o.ticksPerRow)
  else if o.patternLength = 0 ∨ maxPatternLength < o.patternLength then
    some (.patternLength o.patternLength)
  else if o.effectColumns = 0 ∨ maxEffectColumns < o.effectColumns then
    some (.effectColumns o.effectColumns)
  else if o.tempoBase = 0 then some .tempoBase
  else none

end Options

end ChipScore
