/-!
# Parts of a song

A song has eleven parts, lettered A to K: six FM parts, three SSG parts, one ADPCM part and one
rhythm part. The family of a part decides its pitch range and its volume scale.
-/

namespace ChipScore

inductive PartKind
  | fm
  | ssg
  | adpcm
  | rhythm
  deriving DecidableEq, Repr

namespace PartKind

def startVolume : PartKind → UInt8
  | ssg => 8
  | _ => 108

def fullVolume : PartKind → UInt8
  | ssg => 15
  | _ => 127

/-- How far one volume command without an operand goes. -/
def volumeStep : PartKind → UInt8
  | ssg => 1
  | _ => 4

/-- Octaves between the numbering of the score and that of the tracker. An SSG part sounds one
octave above an FM part. -/
def octaveShift : PartKind → Int
  | ssg => 6
  | _ => 5

end PartKind

structure Part where
  number : UInt8
  deriving DecidableEq, Repr

namespace Part

def count : Nat := 11

def all : List Part := (List.range count).map fun n => ⟨UInt8.ofNat n⟩

def index (p : Part) : Nat := p.number.toNat

def kind (p : Part) : PartKind :=
  if p.number < 6 then .fm
  else if p.number < 9 then .ssg
  else if p.number = 9 then .adpcm
  else .rhythm

def letter (p : Part) : Char := Char.ofNat ('A'.toNat + p.index)

def names : List String :=
  ["FM-A", "FM-B", "FM-C", "FM-D", "FM-E", "FM-F", "SSG-G", "SSG-H", "SSG-I", "ADPCM-J", "Rhythm-K"]

def name (p : Part) : String := names.getD p.index "?"

/-- The tracker channel that plays the part. ADPCM and rhythm parts have none. -/
def channel? (p : Part) : Option Nat :=
  match p.kind with
  | .fm | .ssg => some p.index
  | .adpcm | .rhythm => none

end Part

end ChipScore
