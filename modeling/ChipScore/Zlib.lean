import ChipScore.Codec
import ChipScore.Deflate.Stored

/-!
# Zlib streams

A stream is a header of two bytes, compressed data, and a checksum of what the data stands for.
Bytes after the checksum are ignored.
-/

namespace ChipScore.Zlib

open Deflate (Fault)

/-- The first byte of every stream with a full window. -/
def firstByte : UInt8 := 0x78

def secondByte : UInt8 := 0x01

def checksumBase : Nat := 65521

/-- One plus the sum of all bytes, and the sum of all the sums on the way. -/
def checksum (data : List UInt8) : Nat :=
  let (a, b) := data.foldl (fun (a, b) byte =>
    let a := (a + byte.toNat) % checksumBase
    (a, (b + a) % checksumBase)) (1, 0)
  65536 * b + a

/-- The four bytes of a checksum, the highest first. -/
def encodeChecksum (sum : Nat) : List UInt8 := (LittleEndian.encode 4 sum).reverse

/-- The header is a multiple of 31, names the one compression method that there is, and asks for no
dictionary. -/
def headerIsValid (first second : UInt8) : Bool :=
  (256 * first.toNat + second.toNat) % 31 = 0 && first.toNat % 16 = 8 && !second.toNat.testBit 5

def decompress : List UInt8 → Except Fault (List UInt8)
  | first :: second :: data => do
    if !headerIsValid first second then throw .header
    let (out, rest) ← Deflate.inflate data
    if (rest.take 4).length < 4 then throw .ended
    if rest.take 4 = encodeChecksum (checksum out) then return out else throw .checksum
  | _ => .error .ended

def compress (data : List UInt8) : List UInt8 :=
  firstByte :: secondByte :: Deflate.store data ++ encodeChecksum (checksum data)

theorem length_encodeChecksum (sum : Nat) : (encodeChecksum sum).length = 4 := by
  simp [encodeChecksum]

theorem decompress_compress (data : List UInt8) : decompress (compress data) = .ok data := by
  have htake : (encodeChecksum (checksum data)).take 4 = encodeChecksum (checksum data) :=
    List.take_of_length_le (Nat.le_of_eq (length_encodeChecksum _))
  have hvalid : headerIsValid firstByte secondByte = true := by decide
  unfold compress
  rw [List.cons_append, List.cons_append]
  unfold decompress
  simp only [hvalid, Deflate.inflate_store, bind, Except.bind, htake, length_encodeChecksum]
  rfl

def codec : Codec where
  compress := compress
  decompress := fun data => (decompress data).mapError Fault.message
  head?_compress := fun _ => rfl
  decompress_compress := fun data => by rw [decompress_compress]; rfl

end ChipScore.Zlib
