import ChipScore.Envelope
import ChipScore.Tracker.Block
import ChipScore.Voice

/-!
# Instruments of a module

An instrument is a block of features, each with a code of two letters and its size: its name, and
either the registers of an FM voice or the volume macro of an SSG envelope.
-/

namespace ChipScore.Tracker

def formatVersion : Nat := 228

inductive Instrument
  | fm (name : String) (voice : Voice)
  | ssg (name : String) (envelope : Envelope)
  deriving DecidableEq, Repr

namespace Instrument

def name : Instrument → String
  | fm n _ => n
  | ssg n _ => n

def type : Instrument → Nat
  | fm .. => 1
  | ssg .. => 6

def encodeFeature (code : String) (body : List UInt8) : List UInt8 :=
  Utf8.encode code ++ LittleEndian.encode 2 body.length ++ body

/-- The format stores detune with 3 as its centre, the chip with a sign bit. -/
def centeredDetune (register : UInt8) : UInt8 :=
  if register < 4 then 3 + register else 7 - register

/-- Every register is cut to its width. -/
def encodeOperator (o : Operator) : List UInt8 :=
  [o.mul % 16 + 16 * centeredDetune (o.dt % 8),
    o.tl % 128,
    o.ar % 32 + 64 * (o.ks % 4),
    o.dr % 32 + 128 * (o.am % 2),
    o.sr % 32 + 64,
    o.rr % 16 + 16 * (o.sl % 16),
    0, 0]

/-- All four operators are there and switched on. -/
def encodeVoice (v : Voice) : List UInt8 :=
  [0xF4, v.fb % 8 + 16 * (v.alg % 8), 0, 0, 0] ++ v.operators.toList.flatMap encodeOperator

def macroHeaderSize : Nat := 8

/-- Stands for a loop point or a release point that a macro does not have, and ends the macros. -/
def noStep : UInt8 := 0xFF

/-- The macro has a header of its code, its length, its loop point, its release point, its mode, its
form, its delay and its speed. -/
def encodeMacro (m : VolumeMacro) : List UInt8 :=
  encodeFields [.word macroHeaderSize, .byte 0, .byte (UInt8.ofNat m.steps.length), .byte noStep,
    .byte (m.releasePoint.getD noStep), .byte 0, .byte 1, .byte 0, .byte 1, .bytes m.steps,
    .byte noStep]

def encodeSound : Instrument → List UInt8
  | fm _ voice => encodeFeature "FM" (encodeVoice voice)
  | ssg _ envelope => encodeFeature "MA" (encodeMacro envelope.volumeMacro)

def encode (i : Instrument) : List UInt8 :=
  encodeBlock "INS2" (encodeFields [.word formatVersion, .word i.type,
    .bytes (encodeFeature "NA" (Field.text i.name).encode), .bytes i.encodeSound,
    .bytes (Utf8.encode "EN")])

end Instrument

end ChipScore.Tracker
