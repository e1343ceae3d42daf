/-!
# Reading bits

Compressed data is read bit by bit, the lowest bit of each byte first. Whole bytes can be read after
the rest of the byte in progress is thrown away.
-/

namespace ChipScore

theorem bind_eq_of_ok {σ ε α β : Type} {reader : StateT σ (Except ε) α}
    {next : α → StateT σ (Except ε) β} {s s' : σ} {a : α} (h : reader s = .ok (a, s')) :
    (reader >>= next) s = next a s' := by
  change (reader s).bind _ = _
  rw [h]
  rfl

namespace Deflate

inductive Fault
  | ended
  | header
  | blockType
  | storedSize
  | codeCounts
  | code
  | symbol
  | distance
  | checksum
  deriving DecidableEq, Repr

namespace Fault

def message : Fault → String
  | ended => "the data is cut off"
  | header => "bad header"
  | blockType => "bad block type"
  | storedSize => "bad size of a stored block"
  | codeCounts => "bad number of codes"
  | code => "bad code lengths"
  | symbol => "bad symbol"
  | distance => "bad distance"
  | checksum => "checksum mismatch"

end Fault

/-- `pending` is the rest of the byte in progress. -/
structure Bits where
  pending : List Bool
  bytes : List UInt8
  deriving DecidableEq, Repr

abbrev Read := StateT Bits (Except Fault)

namespace Bits

def ofBytes (bytes : List UInt8) : Bits := ⟨[], bytes⟩

def ofByte (b : UInt8) : List Bool := (List.range 8).map b.toNat.testBit

def bit : Read Bool
  | ⟨b :: pending, bytes⟩ => .ok (b, ⟨pending, bytes⟩)
  | ⟨[], []⟩ => .error .ended
  | ⟨[], b :: bytes⟩ => .ok (b.toNat.testBit 0, ⟨(ofByte b).tail, bytes⟩)

/-- A number of so many bits, the lowest first. -/
def number : Nat → Read Nat
  | 0 => pure 0
  | width + 1 => do
    let low ← bit
    let high ← number width
    return low.toNat + 2 * high

def align : Read Unit := modify fun s => { s with pending := [] }

def takeBytes (count : Nat) : Read (List UInt8) := fun s =>
  let taken := s.bytes.take count
  if taken.length < count then .error .ended
  else .ok (taken, { s with bytes := s.bytes.drop count })

end Bits

end Deflate

end ChipScore
