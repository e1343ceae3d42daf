import ChipScore.Image
import ChipScore.Player.Machine

/-!
# The timelines of a score

All parts of a score are played one after the other. A part that cannot be played to its end stops
the whole score.
-/

namespace ChipScore.Image

/-- `played` holds the timelines of the parts before, the last first. -/
def playFrom (image : Image) (played : List Timeline) (warnings : Warnings) :
    List PartRange → Except PlayError (List Timeline × Warnings)
  | [] => .ok (played.reverse, warnings)
  | range :: ranges =>
    match ChipScore.play range.part image.defines (image.cursor range) with
    | (.error e, _) => .error e
    | (.ok timeline, more) =>
      image.playFrom (timeline :: played) (warnings.append more.toList) ranges

def play (image : Image) : Except PlayError (List Timeline × Warnings) :=
  image.playFrom [] {} image.parts

end ChipScore.Image
