import ChipScore.Bytes.Cursor
import ChipScore.Image.Credits
import ChipScore.Image.Header
import ChipScore.Voice

/-!
# Compiled scores

An image is a compiled score in memory: its header, the byte ranges of its parts, its voices and its
credits, and the bytes themselves.
-/

namespace ChipScore

structure Image where
  data : List UInt8
  header : Header
  parts : List PartRange
  voices : List VoiceRecord
  credits : Credits
  deriving DecidableEq, Repr

namespace Image

/-- A table ends at this mark or when no whole record is left. The first `skip` bytes belong to a
record that is already read. -/
def readVoices : Nat → List UInt8 → List VoiceRecord
  | _, [] => []
  | skip + 1, _ :: bytes => readVoices skip bytes
  | 0, b :: bytes =>
    if b = 0x00 ∧ bytes.head? = some 0xFF then []
    else match VoiceRecord.parse? (b :: bytes) with
      | none => []
      | some record => record :: readVoices (VoiceRecord.size - 1) bytes

def voiceTable (header : Header) (data : List UInt8) : List VoiceRecord :=
  match header.voiceTable with
  | none => []
  | some offset => readVoices 0 (data.drop offset)

def parse (data : List UInt8) : Except HeaderFault Image := do
  let header ← Header.parse data
  return {
    data
    header
    parts := header.partRanges data.length
    voices := voiceTable header data
    credits := Credits.ofData data }

/-- The record that the score means by a voice number: the first one with it. -/
def voice? (image : Image) (number : UInt8) : Option VoiceRecord :=
  image.voices.find? (·.id = number)

def defines (image : Image) (number : UInt8) : Bool := (image.voice? number).isSome

def cursor (image : Image) (range : PartRange) : Cursor :=
  .ofRange image.data range.start range.stop

end Image

end ChipScore
