import ChipScore.Envelope
import ChipScore.Gate
import ChipScore.Pan
import ChipScore.Part
import ChipScore.Tempo

/-!
# Settings of a part

What a note is played with. A part's settings change only by parameters, one at a time, so a list of
parameters is a complete record of them.
-/

namespace ChipScore

inductive Parameter
  | instrument (number : UInt8)
  | volume (value : UInt8)
  | tempo (tempo : Tempo)
  | detune (value : Int16)
  | pan (pan : Pan)
  | envelope (envelope : Envelope)
  deriving DecidableEq, Repr

structure Settings where
  instrument : UInt8 := 0
  volume : UInt8
  tempo : Tempo := {}
  detune : Int16 := 0
  pan : Pan := .center
  envelope : Envelope := {}
  deriving DecidableEq, Repr

namespace Settings

def start (kind : PartKind) : Settings := { volume := kind.startVolume }

def apply (s : Settings) : Parameter → Settings
  | .instrument n => { s with instrument := n }
  | .volume v => { s with volume := v }
  | .tempo t => { s with tempo := t }
  | .detune d => { s with detune := d }
  | .pan p => { s with pan := p }
  | .envelope e => { s with envelope := e }

end Settings

end ChipScore
