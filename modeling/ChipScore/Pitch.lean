import ChipScore.Part

/-!
# Pitches

A score writes an octave and a semitone, packed into one byte. The tracker counts semitones from its
lowest C and knows 180 notes.
-/

namespace ChipScore.Pitch

def semitones : Nat := 12

def highest : Nat := 179

/-- Octave and semitone of a packed byte. The top bit means nothing here. -/
def unpack (b : UInt8) : UInt8 × UInt8 := (b / 16 % 8, b % 16)

/-- The tracker's number of a note, if it is in the tracker's range. -/
def note? (kind : PartKind) (octave semitone : UInt8) (transpose : Int) : Option UInt8 :=
  let n : Int := (octave.toNat + kind.octaveShift) * semitones + semitone.toNat + transpose
  if 0 ≤ n ∧ n ≤ highest then some (UInt8.ofNat n.toNat) else none

end ChipScore.Pitch
