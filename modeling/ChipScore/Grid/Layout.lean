import ChipScore.Grid.Marks

/-!
# Rows from marks

The rows of a part hold the cells of its marks, each row those of its own marks in their order.
Marks past the last row are left out.
-/

namespace ChipScore

namespace Cell

def instrument? : Cell → Option Timbre
  | instrument i => some i
  | _ => none

def volume? : Cell → Option UInt8
  | volume v => some v
  | _ => none

def effect? : Cell → Option Effect
  | effect e => some e
  | _ => none

/-- A later note replaces an earlier one, but a key-off replaces nothing. -/
def fillNote (keyOff : NoteCell) (filled : Option NoteCell) : Cell → Option NoteCell
  | note n => some (.on n)
  | .keyOff => filled.or (some keyOff)
  | _ => filled

end Cell

namespace Row

def ofCells (keyOff : NoteCell) (cells : List Cell) : ScoreRow where
  note := cells.foldl (Cell.fillNote keyOff) none
  instrument := (cells.filterMap Cell.instrument?).getLast?
  volume := (cells.filterMap Cell.volume?).getLast?
  effects := cells.filterMap Cell.effect?

end Row

def PartKind.keyOff : PartKind → NoteCell
  | .ssg => .release
  | _ => .off

namespace Grid

def cells (g : Grid) (marks : Array Mark) : Array (List Cell) :=
  marks.foldr (fun mark rows => rows.modify mark.row (mark.cell :: ·))
    (Array.replicate g.rowCount [])

def layOut (g : Grid) (part : Part) (events : List Event) : List ScoreRow × List Loss :=
  let (marks, losses) := g.marks part events
  (((g.cells marks).map (Row.ofCells part.kind.keyOff)).toList, losses.toList)

end Grid

end ChipScore
