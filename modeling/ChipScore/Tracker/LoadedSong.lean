import ChipScore.Tracker.LoadedInstrument
import ChipScore.Tracker.Song
import ChipScore.Zlib

/-!
# Reading modules

What a module says, read back from its bytes. A module may be compressed as a whole.
-/

namespace ChipScore.Tracker

structure LoadedInfo where
  name : String
  author : String
  comment : String
  ticksPerRow : UInt8
  tickRate : UInt32
  patternLength : Nat
  chips : List UInt8
  orders : List (List UInt8)
  effectColumns : List UInt8
  tempo : Nat
  tempoBase : Nat
  deriving DecidableEq, Repr

structure LoadedSong extends LoadedInfo where
  version : Nat
  instruments : List LoadedInstrument
  patterns : List Pattern
  deriving DecidableEq, Repr

namespace LoadedSong

def orderCount (s : LoadedSong) : Nat := (s.orders.head?.map List.length).getD 0

def pattern? (s : LoadedSong) (channel : Nat) (index : UInt8) : Option Pattern :=
  s.patterns.find? fun p => p.channel.toNat = channel ∧ p.index = index.toNat

/-- What a channel plays in one order. A pattern that is not there is empty. -/
def orderRows (s : LoadedSong) (channel : Nat) (index : UInt8) : List PatternRow :=
  match s.pattern? channel index with
  | some p => p.rows
  | none => List.replicate s.patternLength .empty

def channelRows (s : LoadedSong) (channel : Nat) : List PatternRow :=
  (s.orders.getD channel []).flatMap (s.orderRows channel)

end LoadedSong

namespace Scan

/-- The rows are read from the rest of the block alone. -/
def pattern (length : Nat) : Scan Pattern := do
  let stop ← block "PATN"
  skip 1
  let channel ← byte
  let index ← word
  let _ ← text
  let c ← get
  match RowCode.decode? length (c.rest.take (stop - c.offset)) with
  | some rows => return { channel, index, rows }
  | none => throw .patternEnded

def goTo (data : List UInt8) (offset : Nat) : Scan Unit := set (Cursor.ofOffset data offset)

/-- The information block up to the tempo, with the offsets of the instruments and of the patterns.
What comes after the tempo is not looked at. -/
def info : Scan (LoadedInfo × List Nat × List Nat) := do
  let _ ← block "INFO"
  skip 1
  let ticksPerRow ← byte
  skip 1
  skip 1
  let tickRate ← float
  let patternLength ← word
  let orderCount ← word
  skip 2
  let instrumentCount ← word
  skip 2
  skip 2
  let patternCount ← long
  let chips ← bytes maxChips
  skip (maxChips * 6)
  let name ← text
  let author ← text
  skip 4
  skip 20
  let instrumentOffsets ← times instrumentCount long
  let patternOffsets ← times patternCount long
  let orders ← times channelCount (bytes orderCount)
  let effectColumns ← bytes channelCount
  skip (channelCount * 2)
  let _ ← times (channelCount * 2) text
  let comment ← text
  skip 4
  skip 28
  let tempo ← word
  let tempoBase ← word
  let info : LoadedInfo := {
    name, author, comment, ticksPerRow, tickRate, patternLength
    chips := chips.takeWhile (· ≠ 0)
    orders, effectColumns, tempo, tempoBase }
  return (info, instrumentOffsets, patternOffsets)

/-- Reads the same thing at each of some offsets of the module. -/
def atOffsets {α : Type} (data : List UInt8) (scan : Scan α) (offsets : List Nat) : Scan (List α) :=
  offsets.mapM fun offset => do
    goTo data offset
    scan

def song (data : List UInt8) : Scan LoadedSong := do
  if (← bytes 16) ≠ magic then throw .notAModule
  let version ← word
  skip 2
  goTo data (← long)
  let (info, instrumentOffsets, patternOffsets) ← info
  let instruments ← atOffsets data LoadedInstrument.load instrumentOffsets
  let patterns ← atOffsets data (pattern info.patternLength) patternOffsets
  return { info with version, instruments, patterns }

end Scan

/-- The song of a module that is not compressed. -/
def parse (data : List UInt8) : Except LoadFault LoadedSong :=
  ((Scan.song data).run (.ofList data)).map Prod.fst

/-- A compressed module is known by its first byte. -/
def unpack (data : List UInt8) (codec : Codec := Zlib.codec) : Except LoadFault (List UInt8) :=
  if data.head? = some Codec.firstByte then (codec.decompress data).mapError .compression
  else .ok data

def load (data : List UInt8) (codec : Codec := Zlib.codec) : Except LoadFault LoadedSong := do
  parse (← unpack data codec)

end ChipScore.Tracker
