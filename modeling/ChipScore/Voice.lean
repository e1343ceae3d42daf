/-!
# FM voices

A voice is four operators and the way they are connected. A voice record is the number of a voice
and its 25 register bytes, which go column by column: each register of all four operators, then the
connection.
-/

namespace ChipScore

structure Operator where
  dt : UInt8 := 0
  mul : UInt8 := 0
  tl : UInt8 := 0
  ks : UInt8 := 0
  ar : UInt8 := 0
  am : UInt8 := 0
  dr : UInt8 := 0
  sr : UInt8 := 0
  sl : UInt8 := 0
  rr : UInt8 := 0
  deriving DecidableEq, Repr

/-- The operators are in the order of the registers: 1, 3, 2, 4. -/
structure Voice where
  alg : UInt8
  fb : UInt8
  operators : Vector Operator 4
  deriving DecidableEq, Repr

/-- Four carriers of equal loudness, for songs that bring no voice of their own. -/
def Voice.plain : Voice :=
  { alg := 7, fb := 0, operators := Vector.replicate 4 { mul := 1, ar := 31, rr := 15 } }

structure VoiceRecord where
  id : UInt8
  voice : Voice
  deriving DecidableEq, Repr

namespace VoiceRecord

def size : Nat := 26

def operator (registers : List UInt8) (slot : Nat) : Operator :=
  let column (n : Nat) : UInt8 := registers.getD (4 * n + slot) 0
  { dt := column 0 / 16 % 8
    mul := column 0 % 16
    tl := column 1 % 128
    ks := column 2 / 64
    ar := column 2 % 32
    am := column 3 / 128
    dr := column 3 % 32
    sr := column 4 % 32
    sl := column 5 / 16
    rr := column 5 % 16 }

/-- Bytes after the record are ignored. -/
def parse? (bytes : List UInt8) : Option VoiceRecord :=
  match bytes.take size with
  | id :: registers =>
    if registers.length + 1 < size then none
    else
      let connection := registers.getD 24 0
      some {
        id
        voice := {
          alg := connection % 8
          fb := connection / 8 % 8
          operators := Vector.ofFn fun slot => operator registers slot } }
  | [] => none

end VoiceRecord

end ChipScore
