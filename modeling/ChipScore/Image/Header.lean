import ChipScore.Bytes.LittleEndian
import ChipScore.Part
import ChipScore.Text.Hexadecimal

/-!
# The header of a score

A compiled score starts with a version byte, the pointers of its eleven parts, the pointer of its
rhythm table and the pointer of its voice table. A pointer is two bytes, counts from the byte after
the version, and is zero for what the score does not have.
-/

namespace ChipScore

structure Header where
  version : UInt8
  parts : List (Option Nat)
  rhythmTable : Option Nat
  voiceTable : Option Nat
  deriving DecidableEq, Repr

inductive HeaderFault
  | short (size : Nat)
  | partPastEnd (part : Part) (offset size : Nat)
  | rhythmTablePastEnd (offset size : Nat)
  | voiceTablePastEnd (offset size : Nat)
  deriving DecidableEq, Repr

namespace Header

def size : Nat := 27

def pointerBase : Nat := 1

end Header

namespace HeaderFault

def pointerText (name : String) (offset size : Nat) : String :=
  s!"{name} pointer {Hexadecimal.address 1 offset} beyond file length {Hexadecimal.address 1 size}"

def message : HeaderFault → String
  | short size => s!"file is {size} bytes, header needs {Header.size}"
  | partPastEnd part offset size => pointerText part.name offset size
  | rhythmTablePastEnd offset size => pointerText "rhythm table" offset size
  | voiceTablePastEnd offset size => pointerText "instrument table" offset size

end HeaderFault

namespace Header

def resolve? (stored : Nat) : Option Nat :=
  if stored = 0 then none else some (stored + pointerBase)

/-- The pointer in the `slot`-th place of the header. -/
def pointer? (data : List UInt8) (slot : Nat) : Option Nat :=
  resolve? (LittleEndian.decode ((data.drop (pointerBase + 2 * slot)).take 2))

def rhythmSlot : Nat := Part.count

def voiceSlot : Nat := Part.count + 1

/-- A pointer has to be at most `last`. -/
def check (last : Nat) (fault : Nat → HeaderFault) (pointer : Option Nat) :
    Except HeaderFault (Option Nat) :=
  match pointer with
  | some offset => if offset ≤ last then .ok pointer else .error (fault offset)
  | none => .ok none

/-- Parts and the rhythm table have to start inside the data. The voice table may be empty and start
at the very end. -/
def parse (data : List UInt8) : Except HeaderFault Header :=
  match data with
  | [] => .error (.short 0)
  | version :: _ => do
    let total := data.length
    if total < size then throw (.short total)
    let parts ← Part.all.mapM fun part =>
      check (total - 1) (fun offset => .partPastEnd part offset total) (pointer? data part.index)
    let rhythmTable ←
      check (total - 1) (fun offset => .rhythmTablePastEnd offset total) (pointer? data rhythmSlot)
    let voiceTable ←
      check total (fun offset => .voiceTablePastEnd offset total) (pointer? data voiceSlot)
    return { version, parts, rhythmTable, voiceTable }

def part? (h : Header) (part : Part) : Option Nat := (h.parts[part.index]?).join

end Header

structure PartRange where
  part : Part
  start : Nat
  stop : Nat
  deriving DecidableEq, Repr

namespace Header

/-- A part ends where the next one starts, the last one at the rhythm table or, if that lies
elsewhere, at the end of the data. -/
def partStop (h : Header) (total start : Nat) : Nat :=
  match ((h.parts.filterMap id).filter (start < ·)).min? with
  | some next => next
  | none => ((h.rhythmTable.filter (start < ·)).getD total)

def partRanges (h : Header) (total : Nat) : List PartRange :=
  Part.all.filterMap fun part =>
    (h.part? part).map fun start => { part, start, stop := h.partStop total start }

end Header

end ChipScore
