import ChipScore.Envelope
import ChipScore.Pan
import ChipScore.Tempo

/-!
# Rows

A row holds what one channel does at one point of the tracker's grid: a note, an instrument, a
volume and any number of effects. While a song is arranged, its rows ask for timbres; in a pattern,
notes and instruments are numbers.
-/

namespace ChipScore

structure Effect where
  code : UInt8
  value : UInt8
  deriving DecidableEq, Repr

structure Row (Note Instrument : Type) where
  note : Option Note := none
  instrument : Option Instrument := none
  volume : Option UInt8 := none
  effects : List Effect := []
  deriving DecidableEq, Repr

namespace Row

def empty {Note Instrument : Type} : Row Note Instrument := {}

def isEmpty {Note Instrument : Type} (r : Row Note Instrument) : Bool :=
  r.note.isNone && r.instrument.isNone && r.volume.isNone && r.effects.isEmpty

end Row

/-- What a note is to sound like. An FM part asks for a voice by its number, an SSG part for an
envelope. -/
inductive Timbre
  | fm (number : UInt8)
  | ssg (envelope : Envelope)
  deriving DecidableEq, Repr

/-- `off` lets go of an FM note, `release` starts the release of an SSG envelope. -/
inductive NoteCell
  | on (note : UInt8)
  | off
  | release
  deriving DecidableEq, Repr

abbrev ScoreRow := Row NoteCell Timbre

abbrev PatternRow := Row UInt8 UInt8

/-! ## Effects of the tracker -/

namespace Effect

def jumpCode : UInt8 := 0x0B

def tempoCode : UInt8 := 0xFD

def jump (order : Nat) : Effect := ⟨jumpCode, UInt8.ofNat order⟩

def tempo (t : Tempo) : Effect := ⟨tempoCode, t.human⟩

def pan (p : Pan) : Effect := ⟨0x08, p.level⟩

/-- `80` is the pitch without detune. -/
def detune (value : UInt8) : Effect := ⟨0xE5, value⟩

/-- Cuts the note of the row after a number of ticks. -/
def noteCut (ticks : Nat) : Effect := ⟨0xEC, UInt8.ofNat (min ticks 255)⟩

/-- The speed is in the high digit, the distance in the low. -/
def slideUp (speed semitones : Nat) : Effect := ⟨0xE1, UInt8.ofNat (16 * speed + semitones)⟩

def slideDown (speed semitones : Nat) : Effect := ⟨0xE2, UInt8.ofNat (16 * speed + semitones)⟩

def slideStop : Effect := slideDown 0 0

/-- Jumps and tempo changes mean something only on their own row. -/
def isUrgent (e : Effect) : Bool := e.code = jumpCode || e.code = tempoCode

end Effect

end ChipScore
