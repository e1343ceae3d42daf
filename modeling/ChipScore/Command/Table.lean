/-!
# The table of command bytes

Every command byte has a name for messages and a number of operands that it always takes. Bytes
below `80` are notes, `80` ends a part, and the bytes between it and the first of the table mean
nothing.
-/

namespace ChipScore.Command

structure Entry where
  operands : Nat
  name : String
  deriving DecidableEq, Repr

def firstTabled : Nat := 0xB1

/-- The entries of the command bytes from `firstTabled` to `FF`. -/
def table : Array Entry := #[
  -- from B1
  ⟨1, "random gate time"⟩,
  ⟨1, "master transpose"⟩,
  ⟨1, "minimum gate time"⟩,
  ⟨16, "PPZ extension"⟩,
  ⟨2, "slot key-on delay"⟩,
  ⟨1, "FM feedback"⟩,
  ⟨1, "LFO depth count"⟩,
  ⟨2, "FM total level"⟩,
  ⟨1, "software LFO B delay"⟩,
  ⟨1, "LFO B volume mask"⟩,
  ⟨1, "software LFO B mode"⟩,
  ⟨1, "software LFO B waveform"⟩,
  ⟨2, "LFO B depth change"⟩,
  ⟨1, "software LFO B switch"⟩,
  ⟨4, "software LFO B parameters"⟩,
  -- from C0
  ⟨1, "part mask"⟩,
  ⟨0, "slur"⟩,
  ⟨1, "software LFO delay"⟩,
  ⟨2, "extended pan"⟩,
  ⟨1, "gate time (eighths)"⟩,
  ⟨1, "volume mask"⟩,
  ⟨6, "FM3 extended parts"⟩,
  ⟨3, "relative slot detune"⟩,
  ⟨3, "slot detune"⟩,
  ⟨1, "envelope speed mode"⟩,
  ⟨1, "software LFO mode"⟩,
  ⟨1, "software LFO waveform"⟩,
  ⟨1, "extended detune mode"⟩,
  ⟨5, "extended SSG envelope"⟩,
  ⟨6, "PCM repeat"⟩,
  ⟨1, "FM slot mask"⟩,
  -- from D0
  ⟨1, "noise frequency add"⟩,
  ⟨1, "reserved"⟩,
  ⟨1, "fade out"⟩,
  ⟨1, "FM sound effect"⟩,
  ⟨1, "SSG sound effect"⟩,
  ⟨2, "relative detune"⟩,
  ⟨2, "LFO depth change"⟩,
  ⟨1, "hardware LFO speed"⟩,
  ⟨1, "hardware LFO depth"⟩,
  ⟨1, "hardware LFO waveform"⟩,
  ⟨3, "portamento"⟩,
  ⟨1, "status add"⟩,
  ⟨1, "status write"⟩,
  ⟨1, "fine volume down"⟩,
  ⟨1, "fine volume up"⟩,
  ⟨1, "whole-note length"⟩,
  -- from E0
  ⟨1, "hardware LFO frequency"⟩,
  ⟨1, "hardware LFO sensitivity"⟩,
  ⟨1, "volume down by"⟩,
  ⟨1, "volume up by"⟩,
  ⟨1, "hardware LFO delay"⟩,
  ⟨2, "rhythm volume add"⟩,
  ⟨1, "rhythm master volume add"⟩,
  ⟨1, "relative transpose"⟩,
  ⟨1, "rhythm master volume"⟩,
  ⟨1, "rhythm pan"⟩,
  ⟨1, "rhythm volume"⟩,
  ⟨1, "rhythm key on"⟩,
  ⟨1, "pan"⟩,
  ⟨1, "SSG tone/noise mix"⟩,
  ⟨1, "SSG noise frequency"⟩,
  ⟨2, "direct register write"⟩,
  -- from F0
  ⟨4, "SSG envelope"⟩,
  ⟨1, "software LFO switch"⟩,
  ⟨4, "software LFO parameters"⟩,
  ⟨0, "volume down"⟩,
  ⟨0, "volume up"⟩,
  ⟨1, "transpose"⟩,
  ⟨0, "song loop point"⟩,
  ⟨2, "loop break"⟩,
  ⟨4, "loop end"⟩,
  ⟨2, "loop start"⟩,
  ⟨2, "detune"⟩,
  ⟨0, "tie"⟩,
  ⟨1, "tempo"⟩,
  ⟨1, "volume"⟩,
  ⟨1, "gate time (ticks)"⟩,
  ⟨1, "instrument"⟩]

def entry? (op : UInt8) : Option Entry :=
  if firstTabled ≤ op.toNat then table[op.toNat - firstTabled]? else none

end ChipScore.Command
