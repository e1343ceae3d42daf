import ChipScore.Bytes.Cursor
import ChipScore.Bytes.LittleEndian
import ChipScore.Command
import ChipScore.Command.Table
import ChipScore.Pitch
import ChipScore.Text.Hexadecimal

/-!
# Decoding instructions

An instruction is one opcode byte and its operands. How many operands there are is known from the
opcode, and for three opcodes from the opcode and its first operand.
-/

namespace ChipScore

inductive DecodeCause
  | truncated (op : UInt8)
  | unknown (op : UInt8)
  deriving DecidableEq, Repr

namespace DecodeCause

def message : DecodeCause → String
  | truncated op =>
    s!"opcode {Hexadecimal.address 2 op.toNat} needs operands past the end of the channel"
  | unknown op => s!"unknown opcode {Hexadecimal.address 2 op.toNat}"

end DecodeCause

/-- Why there is no instruction, and how many bytes were read before that showed. -/
structure DecodeFault where
  cause : DecodeCause
  read : Nat
  deriving DecidableEq, Repr

/-- A command and the number of operand bytes after its opcode. -/
structure Instruction where
  command : Command
  operands : Nat
  deriving DecidableEq, Repr

namespace Instruction

def size (i : Instruction) : Nat := i.operands + 1

end Instruction

namespace Command

def restSemitone : UInt8 := 0x0F

/-- Operands that the first operand announces: a tempo selector, an extended gate time, or a part
mask with a command of its own. -/
def extraOperands (op first : UInt8) : Nat :=
  if op = 0xFC ∧ 0xFD ≤ first then 1
  else if op = 0xFE ∧ first = 0xB1 then 2
  else if op = 0xC0 ∧ 0xF5 ≤ first then 1
  else 0

def signedWord (low high : UInt8) : Int16 :=
  (UInt16.ofNat (LittleEndian.decode [low, high])).toInt16

def ofOperands (op : UInt8) (name : String) (operands : List UInt8) : Command :=
  match op, operands with
  | 0xFF, [n] => .instrument n
  | 0xFE, [n] => .gateTicks n
  | 0xFE, _ => .unsupported op "extended gate time"
  | 0xFD, [n] => .volume n
  | 0xFC, [n] => .tempo (.timer n)
  | 0xFC, [0xFF, n] => .tempo (.human n)
  | 0xFC, [0xFE, n] => .tempo (.timerBy n.toInt8)
  | 0xFC, [_, n] => .tempo (.humanBy n.toInt8)
  | 0xFB, _ => .tie
  | 0xFA, [low, high] => .detune (signedWord low high)
  | 0xF9, _ => .loopStart
  | 0xF8, count :: _ => .loopEnd count
  | 0xF7, _ => .loopBreak
  | 0xF6, _ => .songLoop
  | 0xF5, [n] => .transpose n.toInt8
  | 0xF4, _ => .volumeUp
  | 0xF3, _ => .volumeDown
  | 0xF0, [attack, decay, sustain, release] =>
    .envelope { attack, decay := decay.toInt8, sustain, release }
  | 0xEC, [n] => .pan n
  | 0xE7, [n] => .transposeBy n.toInt8
  | 0xE3, [n] => .volumeUpBy n
  | 0xE2, [n] => .volumeDownBy n
  | 0xDA, [start, target, length] => .portamento start target length
  | 0xD5, [low, high] => .detuneBy (signedWord low high)
  | 0xC4, [n] => .gateEighths n
  | 0xC1, _ => .slur
  | 0xB2, [n] => .masterTranspose n.toInt8
  | _, _ => .unsupported op name

def noteOrRest (packed length : UInt8) : Command :=
  let (octave, semitone) := Pitch.unpack packed
  if semitone = restSemitone then .rest length else .note octave semitone length

def decodeTabled (op : UInt8) (entry : Entry) (bytes : List UInt8) :
    Except DecodeFault Instruction :=
  let operands := bytes.take entry.operands
  let count := entry.operands + extraOperands op (operands.headD 0)
  if operands.length < entry.operands then .error ⟨.truncated op, 1⟩
  else if (bytes.take count).length < count then .error ⟨.truncated op, entry.operands + 1⟩
  else .ok ⟨ofOperands op entry.name (bytes.take count), count⟩

/-- The first instruction of some bytes. On a rhythm part a byte below `80` is a whole instruction
and not the first half of a note. -/
def decode (kind : PartKind) : List UInt8 → Except DecodeFault Instruction
  | [] => .error ⟨.truncated 0, 0⟩
  | op :: bytes =>
    if op < 0x80 then
      if kind = .rhythm then .ok ⟨.rhythmPattern op, 0⟩
      else match bytes with
        | [] => .error ⟨.truncated op, 1⟩
        | length :: _ => .ok ⟨noteOrRest op length, 1⟩
    else if op = 0x80 then .ok ⟨.trackEnd, 0⟩
    else match entry? op with
      | none => .error ⟨.unknown op, 1⟩
      | some entry => decodeTabled op entry bytes

def read (kind : PartKind) (c : Cursor) : Except DecodeFault (Instruction × Cursor) :=
  match decode kind c.rest with
  | .error fault => .error fault
  | .ok i => .ok (i, c.skip i.size)

theorem ne_nil_of_decode {kind : PartKind} {bytes : List UInt8} {i : Instruction}
    (h : decode kind bytes = .ok i) : bytes ≠ [] := by
  rintro rfl
  simp [decode] at h

theorem length_rest_of_read {kind : PartKind} {c next : Cursor} {i : Instruction}
    (h : read kind c = .ok (i, next)) : next.rest.length < c.rest.length := by
  unfold read at h
  split at h
  · simp at h
  · rename_i hd
    have := List.length_pos_iff.2 (ne_nil_of_decode hd)
    cases h
    simp [Cursor.skip, Instruction.size]
    omega

end Command

end ChipScore
