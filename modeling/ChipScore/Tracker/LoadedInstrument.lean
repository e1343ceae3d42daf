import ChipScore.Tracker.Instrument
import ChipScore.Tracker.Scan

/-!
# Reading instruments

Features that are not understood are passed over, and a feature that comes twice counts as it comes
last.
-/

namespace ChipScore.Tracker

structure LoadedInstrument where
  type : Nat
  name : String := ""
  voice : Option Voice := none
  volumeMacro : Option VolumeMacro := none
  deriving DecidableEq, Repr

theorem Scan.length_rest_of_bytes {count : Nat} {c next : Cursor} {found : List UInt8}
    (h : Scan.bytes count c = .ok (found, next)) : next.rest.length + count = c.rest.length := by
  have := c.length_rest
  simp only [Scan.bytes, Cursor.take?] at h
  split at h <;> rename_i h'
  · split at h' <;> simp at h'
    cases h
    cases h'
    simp [Cursor.skip]
    omega
  · simp at h

theorem Scan.length_rest_of_word {c next : Cursor} {n : Nat}
    (h : Scan.word c = .ok (n, next)) : next.rest.length + 2 = c.rest.length := by
  change (Scan.bytes 2 c).bind _ = _ at h
  cases hb : Scan.bytes 2 c with
  | error fault =>
    rw [hb] at h
    cases h
  | ok result =>
    rw [hb] at h
    cases h
    exact Scan.length_rest_of_bytes hb

namespace LoadedInstrument

/-! ## Voices -/

/-- The chip's form of a stored detune. A detune of minus zero is not told from zero. -/
def signedDetune (stored : UInt8) : UInt8 := if 3 ≤ stored then stored - 3 else 7 - stored

def operator (bytes : List UInt8) : Operator :=
  let column (n : Nat) : UInt8 := bytes.getD n 0
  { dt := signedDetune (column 0 / 16 % 8)
    mul := column 0 % 16
    tl := column 1 % 128
    ks := column 2 / 64
    ar := column 2 % 32
    am := column 3 / 128
    dr := column 3 % 32
    sr := column 4 % 32
    sl := column 5 / 16
    rr := column 5 % 16 }

def scanVoice : Scan Voice := do
  Scan.skip 1
  let connection ← Scan.byte
  Scan.skip 3
  let first ← Scan.bytes 8
  let second ← Scan.bytes 8
  let third ← Scan.bytes 8
  let fourth ← Scan.bytes 8
  return {
    alg := connection / 16 % 8
    fb := connection % 8
    operators := #v[operator first, operator second, operator third, operator fourth] }

/-! ## Macros -/

/-- How many bytes each step takes, from the byte that says what form the macro has. -/
def stepWidth (form : UInt8) : Nat :=
  match form.toNat / 64 with
  | 2 => 2
  | 3 => 4
  | _ => 1

def stepBytes (width : Nat) (bytes : List UInt8) : List UInt8 :=
  (List.range (bytes.length / width)).filterMap fun n => bytes[n * width]?

/-- The code of a macro and its steps, or nothing at the end of the macros. The size of the header
counts from the code on, whatever the header holds. -/
def scanMacro (headerSize : Nat) : Scan (Option (UInt8 × VolumeMacro)) := do
  let start ← get
  let code ← Scan.byte
  if code = Instrument.noStep then return none
  let length ← Scan.byte
  Scan.skip 1
  let release ← Scan.byte
  Scan.skip 1
  let width := stepWidth (← Scan.byte)
  set (start.skip headerSize)
  let bytes ← Scan.bytes (length.toNat * width)
  return some (code, {
    steps := stepBytes width bytes
    releasePoint := if release = Instrument.noStep then none else some release })

/-- The volume macro among the macros up to an offset; it has the code zero. A macro that takes no
bytes at all would be read for ever. -/
def macrosFrom (stop headerSize : Nat) (found : Option VolumeMacro) (c : Cursor) :
    Except LoadFault (Option VolumeMacro) :=
  if c.offset < stop then
    match (scanMacro headerSize).run c with
    | .error fault => .error fault
    | .ok (none, _) => .ok found
    | .ok (some (code, m), next) =>
      if next.rest.length < c.rest.length then
        macrosFrom stop headerSize (if code = 0 then some m else found) next
      else .error (.macroStuck c.offset)
  else .ok found
termination_by c.rest.length

def scanMacros (stop : Nat) : Scan (Option VolumeMacro) := do
  let headerSize ← Scan.word
  macrosFrom stop headerSize none (← get)

/-! ## Features -/

/-- Takes in a feature whose body is ahead of the cursor. -/
def feature (i : LoadedInstrument) (code : List UInt8) (size : Nat) : Scan LoadedInstrument := do
  if code = Utf8.encode "NA" then return { i with name := ← Scan.text }
  else if code = Utf8.encode "FM" ∧ i.type = 1 then return { i with voice := some (← scanVoice) }
  else if code = Utf8.encode "MA" then
    return { i with volumeMacro := ← scanMacros ((← get).offset + size) }
  else return i

/-- Reads one feature, or gives nothing at the end mark. The next feature is where the size says,
however much of this one was read. -/
def scanFeature (i : LoadedInstrument) : Scan (Option LoadedInstrument) := fun c =>
  match Scan.bytes 2 c with
  | .error fault => .error fault
  | .ok (code, sized) =>
    if code = Utf8.encode "EN" then .ok (none, sized)
    else match Scan.word sized with
      | .error fault => .error fault
      | .ok (size, body) =>
        match (i.feature code size).run body with
        | .error fault => .error fault
        | .ok (taken, _) => .ok (some taken, body.skip size)

theorem length_rest_of_scanFeature {i taken : LoadedInstrument} {c next : Cursor}
    (h : i.scanFeature c = .ok (some taken, next)) : next.rest.length < c.rest.length := by
  unfold scanFeature at h
  split at h
  · simp at h
  · rename_i hcode
    split at h
    · simp at h
    · split at h
      · simp at h
      · rename_i hsize
        have := Scan.length_rest_of_bytes hcode
        have := Scan.length_rest_of_word hsize
        split at h
        · simp at h
        · cases h
          simp [Cursor.skip]
          omega

def featuresFrom (stop : Nat) (i : LoadedInstrument) (c : Cursor) :
    Except LoadFault LoadedInstrument :=
  if c.offset + 2 ≤ stop then
    match _h : i.scanFeature c with
    | .error fault => .error fault
    | .ok (none, _) => .ok i
    | .ok (some taken, next) => featuresFrom stop taken next
  else .ok i
termination_by c.rest.length
decreasing_by exact length_rest_of_scanFeature _h

def load : Scan LoadedInstrument := do
  let stop ← Scan.block "INS2"
  Scan.skip 2
  let type ← Scan.word
  featuresFrom stop { type } (← get)

end LoadedInstrument

end ChipScore.Tracker
