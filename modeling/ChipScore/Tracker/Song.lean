import ChipScore.Tracker.Instrument
import ChipScore.Tracker.RowCode
import ChipScore.Zlib

/-!
# Songs and their modules

A song is all that goes into a module. The module starts with a header of 32 bytes, and then has one
block after the other: the song information, three asset directories, the instruments and the
patterns. The information block holds the offsets of the blocks after it.
-/

namespace ChipScore.Tracker

def channelCount : Nat := 16

def maxChips : Nat := 32

def headerSize : Nat := 32

def magic : List UInt8 := Utf8.encode "-Furnace module-"

/-- The chip with six FM, three SSG and seven ADPCM channels. -/
def chip : UInt8 := 0x8E

/-! ## Floating-point numbers of the format -/

/-- The tick rate in hertz, 60. -/
def tickRate : UInt32 := 0x42700000

/-- The tuning in hertz, 440. -/
def tuning : UInt32 := 0x43DC0000

def floatOne : UInt32 := 0x3F800000

/-! ## Songs -/

/-- `tempo` over `tempoBase` is the speed of the song against the tick rate. -/
structure SongInfo where
  name : String := ""
  author : String := ""
  comment : String := ""
  ticksPerRow : UInt8 := 3
  patternLength : Nat := 64
  tempo : Nat := 75
  tempoBase : Nat := 75
  effectColumns : List UInt8 := List.replicate channelCount 1
  deriving DecidableEq, Repr

/-- What a channel plays where its order names the index. -/
structure Pattern where
  channel : UInt8
  index : Nat
  rows : List PatternRow
  deriving DecidableEq, Repr

namespace Pattern

def isEmpty (p : Pattern) : Bool := p.rows.all Row.isEmpty

def encode (p : Pattern) : List UInt8 :=
  encodeBlock "PATN" (encodeFields [.byte 0, .byte p.channel, .word p.index, .text "",
    .bytes (RowCode.encode p.rows)])

end Pattern

structure Song where
  info : SongInfo
  orderCount : Nat
  instruments : List Instrument
  patterns : List Pattern
  deriving DecidableEq, Repr

structure Pointers where
  directories : List Nat
  instruments : List Nat
  patterns : List Nat
  deriving DecidableEq, Repr

namespace Song

/-- A song has at least one order. Patterns without content are left out: a pattern that a module
does not have is empty. -/
def make (info : SongInfo) (orderCount : Nat) (instruments : List Instrument)
    (patterns : List Pattern) : Song where
  info := info
  orderCount := max orderCount 1
  instruments := instruments
  patterns := patterns.filter (!·.isEmpty)

/-- In each channel, the pattern with a number plays in the order with the same number. -/
def orders (s : Song) : List UInt8 :=
  (List.replicate channelCount ((List.range s.orderCount).map UInt8.ofNat)).flatten

/-! ## The information block -/

def timing (s : Song) : List Field :=
  [.byte 0, .byte s.info.ticksPerRow, .byte s.info.ticksPerRow, .byte 1, .float tickRate,
    .word s.info.patternLength, .word s.orderCount, .byte 4, .byte 16]

/-- There are no wavetables and no samples. -/
def counts (s : Song) : List Field :=
  [.word s.instruments.length, .word 0, .word 0, .long s.patterns.length]

/-- One chip at full volume, in the middle, without flags. -/
def chips : List Field :=
  [.byte chip, .zeros (maxChips - 1), .bytes (List.replicate maxChips 0x40), .zeros maxChips,
    .zeros (maxChips * 4)]

def texts (s : Song) : List Field :=
  [.text s.info.name, .text s.info.author, .float tuning, .zeros 20]

/-- Every channel is shown, open and without a name. -/
def channels (s : Song) : List Field :=
  [.bytes s.orders, .bytes s.info.effectColumns, .bytes (List.replicate channelCount 3),
    .zeros channelCount] ++ List.replicate (2 * channelCount) (.text "")

def remarks (s : Song) : List Field :=
  [.text s.info.comment, .float floatOne, .zeros 28, .word s.info.tempo, .word s.info.tempoBase,
    .text "", .text "", .byte 0, .zeros 3]

def system : List Field :=
  [.text "PC-98", .text "", .text "", .text "", .text "PC-98", .text "", .float floatOne, .float 0,
    .float 0, .long 0, .byte 1, .zeros 8]

/-- One speed for all rows, and no grooves. -/
def speeds (s : Song) : List Field := [.byte 1, .byte s.info.ticksPerRow, .zeros 15, .byte 0]

def infoFields (s : Song) (p : Pointers) : List Field :=
  s.timing ++ s.counts ++ chips ++ s.texts ++ p.instruments.map .long ++
    p.patterns.map .long ++ s.channels ++ s.remarks ++ system ++ s.speeds ++
    p.directories.map .long

def infoBlock (s : Song) (p : Pointers) : List UInt8 :=
  encodeBlock "INFO" (encodeFields (s.infoFields p))

/-! ## The module -/

def directory (count : Nat) : List UInt8 :=
  encodeBlock "ADIR" (encodeFields
    (if count = 0 then [.long 0]
    else [.long 1, .text "", .word count, .bytes ((List.range count).map UInt8.ofNat)]))

def directories (s : Song) : List (List UInt8) :=
  [directory s.instruments.length, directory 0, directory 0]

def offsetsFrom (start : Nat) : List (List UInt8) → List Nat
  | [] => []
  | block :: blocks => start :: offsetsFrom (start + block.length) blocks

def laterBlocks (s : Song) : List (List UInt8) :=
  s.directories ++ s.instruments.map Instrument.encode ++ s.patterns.map Pattern.encode

/-- The pointers of a module whose later blocks start at the given offsets. -/
def pointersAt (s : Song) (offsets : List Nat) : Pointers where
  directories := offsets.take 3
  instruments := (offsets.drop 3).take s.instruments.length
  patterns := offsets.drop (3 + s.instruments.length)

/-- The size of the information block does not depend on its pointers. -/
def infoSize (s : Song) : Nat :=
  let unset := List.replicate (3 + s.instruments.length + s.patterns.length) 0
  (s.infoBlock (s.pointersAt unset)).length

def pointers (s : Song) : Pointers :=
  s.pointersAt (offsetsFrom (headerSize + s.infoSize) s.laterBlocks)

def header : List UInt8 :=
  encodeFields [.bytes magic, .word formatVersion, .zeros 2, .long headerSize, .zeros 8]

def encode (s : Song) : List UInt8 :=
  header ++ s.infoBlock s.pointers ++ s.laterBlocks.flatten

def module (s : Song) (compressed : Bool) (codec : Codec := Zlib.codec) : List UInt8 :=
  if compressed then codec.compress s.encode else s.encode

end Song

end ChipScore.Tracker
