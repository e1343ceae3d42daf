import ChipScore.Bytes.LittleEndian
import ChipScore.Text.Utf8

/-!
# Fields and blocks

A module is made of blocks: a name of four letters, the size of the body, and the body. A body is a
list of fields without anything between them.
-/

namespace ChipScore.Tracker

/-- Texts end with a NUL byte, and a floating-point number is given by its bits. -/
inductive Field
  | byte (value : UInt8)
  | word (value : Nat)
  | long (value : Nat)
  | float (bits : UInt32)
  | text (s : String)
  | bytes (bs : List UInt8)
  | zeros (count : Nat)
  deriving DecidableEq, Repr

namespace Field

def encode : Field → List UInt8
  | byte value => [value]
  | word value => LittleEndian.encode 2 value
  | long value => LittleEndian.encode 4 value
  | float bits => LittleEndian.encode 4 bits.toNat
  | text s => Utf8.encode s ++ [0]
  | bytes bs => bs
  | zeros count => List.replicate count 0

end Field

def encodeFields (fields : List Field) : List UInt8 := fields.flatMap Field.encode

theorem encodeFields_append (first second : List Field) :
    encodeFields (first ++ second) = encodeFields first ++ encodeFields second :=
  List.flatMap_append

def encodeBlock (id : String) (body : List UInt8) : List UInt8 :=
  Utf8.encode id ++ LittleEndian.encode 4 body.length ++ body

theorem length_encodeBlock {id : String} (hid : (Utf8.encode id).length = 4) (body : List UInt8) :
    (encodeBlock id body).length = 8 + body.length := by
  unfold encodeBlock
  rw [List.length_append, List.length_append, hid, LittleEndian.length_encode]

end ChipScore.Tracker
