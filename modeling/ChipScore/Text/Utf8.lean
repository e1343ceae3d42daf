/-!
# UTF-8

Decoding splits bytes into characters and ill-formed pieces. A piece is as long as it still could
have become a character, so a cut-off sequence is one piece and a stray byte is another.
-/

namespace ChipScore.Utf8

def encode (text : String) : List UInt8 := text.toList.flatMap String.utf8EncodeChar

/-- What a lead byte promises: the number of continuation bytes, the range of the first of them,
and the bits that the lead byte itself holds. -/
structure Lead where
  more : Nat
  low : UInt8
  high : UInt8
  bits : Nat

/-- The range of the second byte rules out overlong forms, surrogates and values past U+10FFFF. -/
def lead? (b : UInt8) : Option Lead :=
  let n := b.toNat
  if n < 0x80 then some ⟨0, 0x80, 0xBF, n⟩
  else if n < 0xC2 then none
  else if n < 0xE0 then some ⟨1, 0x80, 0xBF, n - 0xC0⟩
  else if n = 0xE0 then some ⟨2, 0xA0, 0xBF, 0⟩
  else if n = 0xED then some ⟨2, 0x80, 0x9F, 0xD⟩
  else if n < 0xF0 then some ⟨2, 0x80, 0xBF, n - 0xE0⟩
  else if n = 0xF0 then some ⟨3, 0x90, 0xBF, 0⟩
  else if n < 0xF4 then some ⟨3, 0x80, 0xBF, n - 0xF0⟩
  else if n = 0xF4 then some ⟨3, 0x80, 0x8F, 4⟩
  else none

/-- The continuation bytes that follow a lead byte: their number and the value reached with them. -/
def continuation : Nat → UInt8 → UInt8 → Nat → List UInt8 → Nat × Nat
  | 0, _, _, value, _ => (0, value)
  | _ + 1, _, _, value, [] => (0, value)
  | more + 1, low, high, value, b :: bytes =>
    if low ≤ b ∧ b ≤ high then
      let (taken, total) := continuation more 0x80 0xBF (value * 64 + b.toNat % 64) bytes
      (taken + 1, total)
    else (0, value)

/-- The first character or ill-formed piece of `b :: bytes`, and how many of `bytes` belong to
it. -/
def first (b : UInt8) (bytes : List UInt8) : Option Char × Nat :=
  match lead? b with
  | none => (none, 0)
  | some l =>
    let (taken, value) := continuation l.more l.low l.high l.bits bytes
    (if taken = l.more then some (Char.ofNat value) else none, taken)

/-- Characters in order, `none` for each ill-formed piece. The first `taken` bytes belong to a piece
that is already decoded. -/
def decodeAfter : Nat → List UInt8 → List (Option Char)
  | _, [] => []
  | taken + 1, _ :: bytes => decodeAfter taken bytes
  | 0, b :: bytes =>
    let (piece, more) := first b bytes
    piece :: decodeAfter more bytes

def decode (bytes : List UInt8) : List (Option Char) := decodeAfter 0 bytes

/-- Each ill-formed piece becomes one replacement character. -/
def decodeLossy (bytes : List UInt8) : String :=
  String.ofList ((decode bytes).map (·.getD (Char.ofNat 0xFFFD)))

def decode? (bytes : List UInt8) : Option String :=
  ((decode bytes).mapM id).map String.ofList

end ChipScore.Utf8
