import ChipScore.Arrangement

/-!
# The song of an arrangement

The rows of each channel are cut into patterns, one for each order, and the credits of the score
become the texts of the song.
-/

namespace ChipScore.Arrangement

/-- The tracker's numbers for letting go of a key. -/
def noteNumber : NoteCell → UInt8
  | .on note => note
  | .off => 180
  | .release => 181

def patternRow (b : Tracker.Bank) (r : ScoreRow) : PatternRow where
  note := r.note.map noteNumber
  instrument := r.instrument.bind b.resolve?
  volume := r.volume
  effects := r.effects

/-- The rows of one order. A last order that is not full is filled up with empty rows. -/
def pattern (a : Arrangement) (channel : Nat) (rows : List ScoreRow) (order : Nat) :
    Tracker.Pattern :=
  let chunk := (rows.drop (order * a.patternLength)).take a.patternLength
  { channel := UInt8.ofNat channel
    index := order
    rows := chunk.map (patternRow a.instruments) ++
      List.replicate (a.patternLength - chunk.length) .empty }

def patterns (a : Arrangement) : List Tracker.Pattern :=
  a.channels.zipIdx.flatMap fun (rows, channel) =>
    (List.range a.orderCount).map (a.pattern channel rows)

def defaultTitle : String := "PMD Import"

def title (c : Credits) : String := if c.title.isEmpty then defaultTitle else c.title

def comment (c : Credits) : String :=
  let arranger := if c.arranger.isEmpty then [] else ["Arranger: " ++ c.arranger]
  "\n".intercalate (arranger ++ c.memos)

def song (a : Arrangement) (c : Credits) (tempoBase : Nat) : Tracker.Song :=
  .make {
      name := title c
      author := c.composer
      comment := comment c
      ticksPerRow := UInt8.ofNat a.grid.ticksPerRow
      patternLength := a.patternLength
      tempo := a.grid.tempo.human.toNat
      tempoBase
      effectColumns := a.effectColumns }
    a.orderCount a.instruments.entries.toList a.patterns

end ChipScore.Arrangement
