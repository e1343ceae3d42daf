import ChipScore.Bytes.LittleEndian
import ChipScore.Deflate.Huffman

/-!
# Inflating

Compressed data is a list of blocks. A block is stored as it is, or it is a list of symbols: a byte,
the end of the block, or a copy of bytes that came before. Before the first byte there are zeros.
-/

namespace ChipScore.Deflate

/-- The length that a symbol from 257 on starts with, and how many more bits it takes. -/
def lengthBases : List (Nat × Nat) := [
  (3, 0), (4, 0), (5, 0), (6, 0), (7, 0), (8, 0), (9, 0), (10, 0), (11, 1), (13, 1), (15, 1),
  (17, 1), (19, 2), (23, 2), (27, 2), (31, 2), (35, 3), (43, 3), (51, 3), (59, 3), (67, 4), (83, 4),
  (99, 4), (115, 4), (131, 5), (163, 5), (195, 5), (227, 5), (258, 0)]

/-- The same for distances. -/
def distanceBases : List (Nat × Nat) := [
  (1, 0), (2, 0), (3, 0), (4, 0), (5, 1), (7, 1), (9, 2), (13, 2), (17, 3), (25, 3), (33, 4),
  (49, 4), (65, 5), (97, 5), (129, 6), (193, 6), (257, 7), (385, 7), (513, 8), (769, 8), (1025, 9),
  (1537, 9), (2049, 10), (3073, 10), (4097, 11), (6145, 11), (8193, 12), (12289, 12), (16385, 13),
  (24577, 13)]

def readExtra (bases : List (Nat × Nat)) (symbol : Nat) : Read Nat :=
  match bases[symbol]? with
  | some (base, width) => do return base + (← Bits.number width)
  | none => throw .symbol

def lookBack (out : Array UInt8) (distance : Nat) : UInt8 :=
  if distance ≤ out.size then out.getD (out.size - distance) 0 else 0

def copy (distance : Nat) : Nat → Array UInt8 → Array UInt8
  | 0, out => out
  | length + 1, out => copy distance length (out.push (lookBack out distance))

/-- Symbols up to the end of the block. Each takes a bit at least, so `fuel` is enough if it counts
the bits of the input. -/
def symbols (literals distances : Code) : Nat → Array UInt8 → Read (Array UInt8)
  | 0, _ => throw .ended
  | fuel + 1, out => do
    let symbol ← literals.read
    if symbol < 256 then symbols literals distances fuel (out.push (UInt8.ofNat symbol))
    else if symbol = 256 then return out
    else do
      let length ← readExtra lengthBases (symbol - 257)
      let distance ← readExtra distanceBases (← distances.read)
      symbols literals distances fuel (copy distance length out)

/-- The size is followed by its complement. -/
def storedBlock (out : Array UInt8) : Read (Array UInt8) := do
  Bits.align
  let size := LittleEndian.decode (← Bits.takeBytes 2)
  let complement := LittleEndian.decode (← Bits.takeBytes 2)
  if size + complement ≠ 0xFFFF then throw .storedSize
  return out.appendList (← Bits.takeBytes size)

def block (fuel : Nat) (out : Array UInt8) : Read (Array UInt8) := do
  match ← Bits.number 2 with
  | 0 => storedBlock out
  | 1 => symbols fixedLiterals fixedDistances fuel out
  | 2 => do
    let (literals, distances) ← readCodes
    symbols literals distances fuel out
  | _ => throw .blockType

/-- Blocks up to the one that is marked as the last. `bound` counts the bits of the input. -/
def blocks (bound : Nat) : Nat → Array UInt8 → Read (Array UInt8)
  | 0, _ => throw .ended
  | fuel + 1, out => do
    let last ← Bits.bit
    let out ← block bound out
    if last then return out else blocks bound fuel out

/-- The bytes that compressed data stands for, and what follows the last block. -/
def inflate (data : List UInt8) : Except Fault (List UInt8 × List UInt8) :=
  let bound := 8 * data.length
  match (blocks bound bound #[]).run (.ofBytes data) with
  | .ok (out, rest) => .ok (out.toList, rest.bytes)
  | .error fault => .error fault

end ChipScore.Deflate
