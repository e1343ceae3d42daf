import ChipScore.Image.Timelines
import ChipScore.Options
import ChipScore.Tracker.Scan

/-!
# Failures

Why there is no result at all, with the text that the user sees.
-/

namespace ChipScore

inductive Failure
  | header (fault : HeaderFault)
  | play (error : PlayError)
  | options (fault : OptionFault)
  | load (fault : Tracker.LoadFault)
  deriving DecidableEq, Repr

namespace Failure

def message : Failure → String
  | header fault => s!"Malformed header: {fault.message}"
  | play error =>
    let place := Hexadecimal.address 4 error.offset
    s!"Decode error in channel {error.part.name} at offset {place}: {error.cause.message}"
  | options fault => s!"Invalid option: {fault.message}"
  | load fault => s!"FUR parse error: {fault.message}"

end Failure

end ChipScore
