import ChipScore.Grid.Columns
import ChipScore.Grid.Layout
import ChipScore.Image
import ChipScore.Options
import ChipScore.Tracker.Bank
import ChipScore.Tracker.Song

/-!
# Arranging a score

An arrangement is a score on the tracker's grid: the rows of all channels, with the song loop placed
and the effects fitted, and a bank with the instruments that the rows ask for.
-/

namespace ChipScore

structure Arrangement where
  grid : Grid
  patternLength : Nat
  channels : List (List ScoreRow)
  effectColumns : List UInt8
  instruments : Tracker.Bank
  deriving DecidableEq, Repr

namespace Arrangement

def maxOrders : Nat := 256

/-- So many units of a size cover a length. -/
def cover (size length : Nat) : Nat := (length + size - 1) / size

def orderCount (a : Arrangement) : Nat := cover a.patternLength a.grid.rowCount

/-! ## Planning the grid -/

/-- The timelines that the tracker has a channel for. -/
def audible (timelines : List Timeline) : List Timeline :=
  timelines.filter (·.part.channel?.isSome)

/-- The grid is as long as the longest part, but not longer than the tracker's orders. -/
def planGrid (o : Options) (timelines : List Timeline) : Grid × List Loss :=
  let tempo := (timelines.findSome? Timeline.initialTempo?).getD {}
  let stop := (timelines.map Timeline.endTick).max?.getD 0
  let rows := max (cover o.ticksPerRow stop) 1
  let limit := maxOrders * o.patternLength
  if limit < rows then
    (⟨o.ticksPerRow, limit, tempo⟩,
      [.ordersCut (cover o.patternLength rows) maxOrders])
  else (⟨o.ticksPerRow, rows, tempo⟩, [])

/-! ## Laying out the channels -/

def partWarnings (part : Part) (losses : List Loss) : List Warning :=
  losses.map (.overflow (.part part))

def songWarnings (losses : List Loss) : List Warning := losses.map (.overflow .song)

def layOutChannel (g : Grid) (timelines : List Timeline) (channel : Nat) :
    List ScoreRow × List Warning :=
  match timelines.find? (·.part.channel? = some channel) with
  | some t =>
    let (rows, losses) := g.layOut t.part t.events
    (rows, partWarnings t.part losses)
  | none => (List.replicate g.rowCount .empty, [])

def layOut (g : Grid) (timelines : List Timeline) : List (List ScoreRow) × List Warning :=
  let channels := (List.range Tracker.channelCount).map (layOutChannel g timelines)
  (channels.map Prod.fst, channels.flatMap Prod.snd)

/-! ## The song loop -/

def addEffect (e : Effect) (r : ScoreRow) : ScoreRow := { r with effects := e :: r.effects }

/-- The tracker can only go back to the start of an order. -/
def placeLoop (g : Grid) (patternLength : Nat) (channels : List (List ScoreRow)) (tick : Nat) :
    List (List ScoreRow) × List Loss :=
  let row := g.rowOf tick
  if g.rowCount ≤ row then (channels, [])
  else
    let order := row / patternLength
    (channels.modifyHead fun rows => rows.modify (g.rowCount - 1) (addEffect (.jump order)),
      if row % patternLength = 0 then [] else [.loopRowMoved row order])

/-- The first part with a loop mark decides for the song. -/
def placeLoop? (g : Grid) (patternLength : Nat) (channels : List (List ScoreRow))
    (timelines : List Timeline) : List (List ScoreRow) × List Loss :=
  match timelines.findSome? Timeline.loopTick with
  | some tick => placeLoop g patternLength channels tick
  | none => (channels, [])

/-! ## Effect columns and instruments -/

/-- Every channel gets the columns that its fullest row needs, but one at least. -/
def neededColumns (limit : Nat) (rows : List ScoreRow) : UInt8 :=
  UInt8.ofNat (min (max ((rows.map (·.effects.length)).max?.getD 0) 1) limit)

/-- Losses are told of the part that has the number of the channel. -/
def fitChannel (columns channel : Nat) (rows : List ScoreRow) : List ScoreRow × List Warning :=
  let (fitted, losses) := Columns.fit columns rows
  (fitted, partWarnings ⟨UInt8.ofNat channel⟩ losses)

def fitAll (columns : Nat) (channels : List (List ScoreRow)) :
    List (List ScoreRow) × List Warning :=
  let fitted := channels.zipIdx.map fun (rows, channel) => fitChannel columns channel rows
  (fitted.map Prod.fst, fitted.flatMap Prod.snd)

/-- The timbres that rows ask for, channel by channel. -/
def timbres (channels : List (List ScoreRow)) : List Timbre :=
  channels.flatMap fun rows => rows.filterMap Row.instrument

end Arrangement

/-- Arranges the timelines of a score. The warnings may repeat themselves. -/
def arrange (o : Options) (voices : List VoiceRecord) (timelines : List Timeline) :
    Arrangement × List Warning :=
  let parts := Arrangement.audible timelines
  let (grid, gridLosses) := Arrangement.planGrid o parts
  let (laid, layWarnings) := Arrangement.layOut grid parts
  let (looped, loopLosses) := Arrangement.placeLoop? grid o.patternLength laid parts
  let (channels, fitWarnings) := Arrangement.fitAll o.effectColumns looped
  let (instruments, bankLosses) := Tracker.Bank.build voices (Arrangement.timbres channels)
  let arrangement := {
    grid
    patternLength := o.patternLength
    channels
    effectColumns := channels.map (Arrangement.neededColumns o.effectColumns)
    instruments }
  (arrangement,
    Arrangement.songWarnings gridLosses ++ layWarnings ++ Arrangement.songWarnings loopLosses ++
      fitWarnings ++ Arrangement.songWarnings bankLosses)

end ChipScore
