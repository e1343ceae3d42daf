/-!
# Codecs

How the bytes of a module are compressed.
-/

namespace ChipScore

/-- The first byte of all that is compressed. -/
def Codec.firstByte : UInt8 := 0x78

/-- Compressed bytes are known by their first byte, and stand for what was compressed. -/
structure Codec where
  compress : List UInt8 → List UInt8
  decompress : List UInt8 → Except String (List UInt8)
  head?_compress : ∀ data, (compress data).head? = some Codec.firstByte
  decompress_compress : ∀ data, decompress (compress data) = .ok data

end ChipScore
