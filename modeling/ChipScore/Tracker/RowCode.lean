import ChipScore.Row

/-!
# The code of pattern rows

A row starts with a mask byte that says which of its cells follow. More than one effect takes one or
two further mask bytes, with two bits for each effect. Runs of empty rows are one byte, with the top
bit set unless the run is a single row, and `FF` leaves all further rows empty.
-/

namespace ChipScore.Tracker.RowCode

def endMark : UInt8 := 0xFF

def maxEffects : Nat := 8

/-- The longest run of empty rows that one byte stands for. -/
def longestRun : Nat := 128

/-! ## Writing -/

def encodeRun (count : Nat) : List UInt8 :=
  List.replicate (count / longestRun) 0xFE ++
    match count % longestRun with
    | 0 => []
    | 1 => [0x00]
    | n + 2 => [UInt8.ofNat (0x80 + n)]

/-- Two bits for each effect, those of the first effect lowest. -/
def effectBits : Nat → Nat
  | 0 => 0
  | count + 1 => 4 * effectBits count + 3

/-- One effect is announced in the first mask byte alone. -/
def encodeMask (cells effects : Nat) : List UInt8 :=
  let both := 0x08 + 0x10
  if effects = 0 then [UInt8.ofNat cells]
  else if effects = 1 then [UInt8.ofNat (cells + both)]
  else if effects ≤ 4 then [UInt8.ofNat (cells + both + 0x20), UInt8.ofNat (effectBits effects)]
  else [UInt8.ofNat (cells + both + 0x20 + 0x40), 0xFF, UInt8.ofNat (effectBits (effects - 4))]

def encodeRow (row : PatternRow) : List UInt8 :=
  let effects := row.effects.take maxEffects
  let cells := (if row.note.isSome then 1 else 0) + (if row.instrument.isSome then 2 else 0) +
    (if row.volume.isSome then 4 else 0)
  encodeMask cells effects.length ++ row.note.toList ++ row.instrument.toList ++
    row.volume.toList ++ effects.flatMap fun e => [e.code, e.value]

/-- `run` counts the empty rows just before. Empty rows at the end are not written. -/
def encodeFrom (run : Nat) : List PatternRow → List UInt8
  | [] => [endMark]
  | row :: rows =>
    if row.isEmpty then encodeFrom (run + 1) rows
    else encodeRun run ++ encodeRow row ++ encodeFrom 0 rows

def encode (rows : List PatternRow) : List UInt8 := encodeFrom 0 rows

/-! ## Reading -/

/-- Reads from the front of some bytes, and fails where there are none. -/
abbrev Take := StateT (List UInt8) Option

def next : Take UInt8
  | [] => none
  | b :: bytes => some (b, bytes)

def nextIf (there : Bool) : Take (Option UInt8) :=
  if there then some <$> next else pure none

/-- The effects from `slot` on, of which `count` are left to look at. A half of an effect that is
not there is zero. -/
def takeEffects (bits slot : Nat) : Nat → Take (List Effect)
  | 0 => pure []
  | count + 1 => do
    let code ← nextIf (bits.testBit (2 * slot))
    let value ← nextIf (bits.testBit (2 * slot + 1))
    let effects ← takeEffects bits (slot + 1) count
    if code.isNone && value.isNone then return effects
    else return ⟨code.getD 0, value.getD 0⟩ :: effects

def takeRow (mask : Nat) : Take PatternRow := do
  let low ← nextIf (mask.testBit 5)
  let high ← nextIf (mask.testBit 6)
  let bits := (low.getD 0).toNat + 256 * (high.getD 0).toNat ||| mask / 8 % 4
  let note ← nextIf (mask.testBit 0)
  let instrument ← nextIf (mask.testBit 1)
  let volume ← nextIf (mask.testBit 2)
  let effects ← takeEffects bits 0 maxEffects
  return { note, instrument, volume, effects }

/-- Reads the rows of which the first argument counts how many are missing. `run` counts the empty
rows that come next, and `rows` holds those that are there, the last first. -/
def decodeFrom : Nat → Nat → List PatternRow → List UInt8 → Option (List PatternRow)
  | 0, _, rows, _ => some rows.reverse
  | missing + 1, run + 1, rows, bytes => decodeFrom missing run (.empty :: rows) bytes
  | _ + 1, 0, _, [] => none
  | missing + 1, 0, rows, b :: bytes =>
    if b = endMark then some (rows.reverseAux (List.replicate (missing + 1) .empty))
    else if 0x80 ≤ b then decodeFrom missing (b.toNat - 0x80 + 1) (.empty :: rows) bytes
    else if b = 0 then decodeFrom missing 0 (.empty :: rows) bytes
    else match takeRow b.toNat bytes with
      | none => none
      | some (row, bytes) => decodeFrom missing 0 (row :: rows) bytes

/-- The first `length` rows, if the bytes are not over before. -/
def decode? (length : Nat) (bytes : List UInt8) : Option (List PatternRow) :=
  decodeFrom length 0 [] bytes

end ChipScore.Tracker.RowCode
