import ChipScore.Bytes.Cursor
import ChipScore.Bytes.LittleEndian
import ChipScore.Text.Hexadecimal
import ChipScore.Text.Quoted
import ChipScore.Text.Utf8

/-!
# Reading the fields of a module

Each field is read at a cursor, which stays where it is if the field is not there.
-/

namespace ChipScore.Tracker

inductive LoadFault
  | bytesEnded (offset : Nat)
  | textEnded (offset : Nat)
  | notAModule
  | wrongBlock (expected : String) (offset : Nat) (found : List UInt8)
  | patternEnded
  | macroStuck (offset : Nat)
  | compression (text : String)
  deriving DecidableEq, Repr

namespace LoadFault

def offsetText (offset : Nat) : String := "0x" ++ Hexadecimal.upper 1 offset

def message : LoadFault → String
  | bytesEnded offset => s!"unexpected end of data reading bytes at {offsetText offset}"
  | textEnded offset => s!"unexpected end of data reading string at {offsetText offset}"
  | notAModule => "not a Furnace module"
  | wrongBlock expected offset found =>
    let shown := Text.quote (Utf8.decodeLossy found)
    s!"expected {expected} block at {offsetText offset}, found {shown}"
  | patternEnded => "pattern data ended early"
  | macroStuck offset => s!"macro without a size at {offsetText offset}"
  | compression text => s!"zlib: {text}"

end LoadFault

abbrev Scan := StateT Cursor (Except LoadFault)

namespace Scan

def bytes (count : Nat) : Scan (List UInt8) := fun c =>
  match c.take? count with
  | some result => .ok result
  | none => .error (.bytesEnded c.offset)

def byte : Scan UInt8 := do return (← bytes 1).headD 0

def word : Scan Nat := do return LittleEndian.decode (← bytes 2)

def long : Scan Nat := do return LittleEndian.decode (← bytes 4)

def float : Scan UInt32 := do return UInt32.ofNat (← long)

/-- A text goes up to the next NUL byte. -/
def text : Scan String := fun c =>
  if c.rest.contains 0 then
    let content := c.rest.takeWhile (· ≠ 0)
    .ok (Utf8.decodeLossy content, c.skip (content.length + 1))
  else .error (.textEnded c.offset)

def skip (count : Nat) : Scan Unit := do let _ ← bytes count

/-- Reads the same thing so many times; `done` holds what is read, the last first. -/
def repeatFrom {α : Type} (scan : Scan α) : Nat → List α → Scan (List α)
  | 0, done => return done.reverse
  | count + 1, done => do repeatFrom scan count ((← scan) :: done)

def times {α : Type} (count : Nat) (scan : Scan α) : Scan (List α) := repeatFrom scan count []

/-- The head of a block. Gives the offset at which its body ends. -/
def block (id : String) : Scan Nat := do
  let start ← get
  let found ← bytes 4
  if found ≠ Utf8.encode id then throw (.wrongBlock id start.offset found)
  let size ← long
  return (← get).offset + size

end Scan

end ChipScore.Tracker
