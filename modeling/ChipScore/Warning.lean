import ChipScore.Part
import ChipScore.Text.Hexadecimal

/-!
# Warnings

What a conversion left out or bent, but could go on from. The same warning is kept once.
-/

namespace ChipScore

/-- What a warning is about. `other` is for what a caller adds. -/
inductive Source
  | part (part : Part)
  | song
  | other (name : String)
  deriving DecidableEq, Repr

namespace Source

def name : Source → String
  | part p => p.name
  | song => "module"
  | other name => name

end Source

/-- Something in the score that the tracker does not get. -/
inductive Feature
  | command (name : String)
  | semitone (value : UInt8)
  | ssgPreset (number : UInt8)
  | undefinedVoice (number : UInt8)
  | pan (operand : UInt8)
  | endlessLoop
  | loopWithoutEnd
  | loopEndWithoutStart
  | breakOutsideLoop
  | partEndInLoop
  | envelopeOutsideSsg
  | rhythmPart
  | adpcmPart
  deriving DecidableEq, Repr

namespace Feature

def text : Feature → String
  | command name => name
  | semitone value => s!"pitch nibble {Hexadecimal.address 1 value.toNat} played as rest"
  | ssgPreset number => s!"SSG instrument preset @{number}"
  | undefinedVoice number => s!"undefined FM instrument @{number}"
  | pan operand => s!"pan value {operand}"
  | endlessLoop => "endless loop played once"
  | loopWithoutEnd => "loop without matching end"
  | loopEndWithoutStart => "loop end without matching start"
  | breakOutsideLoop => "loop break outside a loop"
  | partEndInLoop => "channel ended inside a loop"
  | envelopeOutsideSsg => "SSG envelope on a non-SSG part"
  | rhythmPart => "rhythm part not converted"
  | adpcmPart => "ADPCM part not converted"

end Feature

/-- Something that had to be cut, moved or approximated to fit the tracker. `other` is for what a
caller adds. -/
inductive Loss
  | noteOutOfRange (octave semitone : UInt8)
  | portamentoOutOfRange
  | notesPastRow (row : Nat)
  | sharedRow (row : Nat)
  | detuneClamped (value : Int16)
  | slideLimited (start target : UInt8) (semitones : Nat)
  | effectDropped (code value : UInt8) (row : Nat)
  | ordersCut (needed kept : Nat)
  | loopRowMoved (row order : Nat)
  | volumeMacroCut (instrument : String) (steps : Nat)
  | instrumentDropped (instrument : String)
  | other (text : String)
  deriving DecidableEq, Repr

namespace Loss

def text : Loss → String
  | noteOutOfRange octave semitone => s!"note o{octave} {semitone} outside playable range dropped"
  | portamentoOutOfRange => "portamento outside playable range dropped"
  | notesPastRow row => s!"notes past row {row} dropped"
  | sharedRow row => s!"two notes start in row {row}; the later one is kept"
  | detuneClamped value => s!"detune {value} clamped to the E5 range"
  | slideLimited start target semitones =>
    s!"slide from {start} to {target} limited to {semitones} semitones"
  | effectDropped code value row =>
    let effect := Hexadecimal.upper 2 code.toNat ++ Hexadecimal.upper 2 value.toNat
    s!"effect {effect} dropped at row {row}: no free effect column"
  | ordersCut needed kept => s!"song needs {needed} orders, truncated to {kept}"
  | loopRowMoved row order => s!"song loop at row {row} approximated by the start of order {order}"
  | volumeMacroCut instrument steps => s!"volume macro of '{instrument}' cut to {steps} steps"
  | instrumentDropped instrument => s!"instrument '{instrument}' dropped: table full"
  | other text => text

end Loss

inductive Warning
  | unsupported (source : Source) (feature : Feature)
  | overflow (source : Source) (loss : Loss)
  deriving DecidableEq, Repr

namespace Warning

def message : Warning → String
  | unsupported source feature => s!"{source.name}: unsupported feature: {feature.text}"
  | overflow source loss => s!"{source.name}: encoding overflow: {loss.text}"

end Warning

/-- Warnings in the order in which each was first given. -/
structure Warnings where
  items : Array Warning := #[]
  deriving DecidableEq, Repr

namespace Warnings

def empty : Warnings := {}

def size (ws : Warnings) : Nat := ws.items.size

def isEmpty (ws : Warnings) : Bool := ws.items.isEmpty

def toList (ws : Warnings) : List Warning := ws.items.toList

def push (ws : Warnings) (w : Warning) : Warnings :=
  if ws.items.contains w then ws else ⟨ws.items.push w⟩

def append (ws : Warnings) (more : List Warning) : Warnings := more.foldl push ws

def ofList (ws : List Warning) : Warnings := empty.append ws

end Warnings

end ChipScore
