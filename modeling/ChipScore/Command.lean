import ChipScore.Envelope
import ChipScore.Tempo

/-!
# Commands of a part

What one instruction of a part's byte stream asks for.
-/

namespace ChipScore

inductive Command
  | note (octave semitone length : UInt8)
  | rest (length : UInt8)
  | trackEnd
  | tie
  | slur
  | instrument (number : UInt8)
  | volume (value : UInt8)
  | volumeUp
  | volumeDown
  | volumeUpBy (amount : UInt8)
  | volumeDownBy (amount : UInt8)
  | tempo (change : TempoChange)
  | detune (value : Int16)
  | detuneBy (delta : Int16)
  | transpose (value : Int8)
  | transposeBy (delta : Int8)
  | masterTranspose (value : Int8)
  | pan (operand : UInt8)
  | gateTicks (ticks : UInt8)
  | gateEighths (eighths : UInt8)
  | loopStart
  | loopEnd (count : UInt8)
  | loopBreak
  | songLoop
  /-- Slides from one packed pitch to another over its whole length. -/
  | portamento (start target length : UInt8)
  | envelope (envelope : Envelope)
  | rhythmPattern (number : UInt8)
  /-- Known and read to its end, but without a counterpart in the tracker. -/
  | unsupported (op : UInt8) (name : String)
  deriving DecidableEq, Repr

end ChipScore
