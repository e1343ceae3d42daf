import ChipScore.Arrangement.Song
import ChipScore.Performance

/-!
# Converting scores to modules
-/

namespace ChipScore

structure Conversion where
  bytes : List UInt8
  warnings : Warnings
  timelines : List Timeline
  arrangement : Arrangement
  song : Tracker.Song
  deriving DecidableEq, Repr

/-- The module of a compiled score. Options are checked before the score is looked at. -/
def convert (o : Options) (data : List UInt8) (codec : Codec := Zlib.codec) :
    Except Failure Conversion := do
  if let some fault := o.fault? then throw (.options fault)
  let performance ← Performance.ofData data
  let (arrangement, more) := arrange o performance.image.voices performance.timelines
  let song := arrangement.song performance.image.credits o.tempoBase
  return {
    bytes := song.module o.compress codec
    warnings := performance.warnings.append more
    timelines := performance.timelines
    arrangement
    song }

end ChipScore
