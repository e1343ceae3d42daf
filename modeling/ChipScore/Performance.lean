import ChipScore.Failure

/-!
# Performances

A performance is a score that was read and played: the image, and what each of its parts plays.
-/

namespace ChipScore

/-- The timelines are in the order of the image's parts. -/
structure Performance where
  image : Image
  timelines : List Timeline
  warnings : Warnings
  deriving DecidableEq, Repr

namespace Performance

def ofData (data : List UInt8) : Except Failure Performance := do
  let image ← (Image.parse data).mapError .header
  let (timelines, warnings) ← image.play.mapError .play
  return { image, timelines, warnings }

/-- Where the bytes of each part are, and what it plays. -/
def parts (p : Performance) : List (PartRange × Timeline) := p.image.parts.zip p.timelines

end Performance

end ChipScore
