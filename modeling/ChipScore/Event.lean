import ChipScore.Settings

/-!
# Events and timelines

A timeline is what one part plays, with all loops played out: notes, ties and rests one after the
other, and between them the changes of the part's settings.
-/

namespace ChipScore

structure Slide where
  target : UInt8
  ticks : Nat
  deriving DecidableEq, Repr

structure Tone where
  note : UInt8
  duration : Nat
  gate : Gate
  slide : Option Slide := none
  deriving DecidableEq, Repr

/-- A tie goes on with the tone before it, without a new key-on where the pitch is the same. -/
inductive Action
  | noteOn (tone : Tone)
  | tie (tone : Tone)
  | rest (duration : Nat)
  | change (parameter : Parameter)
  deriving DecidableEq, Repr

namespace Action

def tone? : Action → Option Tone
  | noteOn t => some t
  | tie t => some t
  | _ => none

def mapTone (f : Tone → Tone) : Action → Action
  | noteOn t => noteOn (f t)
  | tie t => tie (f t)
  | a => a

def isNoteOn : Action → Bool
  | noteOn _ => true
  | _ => false

def tempo? : Action → Option Tempo
  | change (.tempo t) => some t
  | _ => none

end Action

structure Event where
  tick : Nat
  action : Action
  deriving DecidableEq, Repr

namespace Event

def tone? (e : Event) : Option Tone := e.action.tone?

def note? (e : Event) : Option UInt8 := e.tone?.map Tone.note

def mapTone (f : Tone → Tone) (e : Event) : Event := { e with action := e.action.mapTone f }

end Event

/-- Where a part stands in time, and how it will play its next note. -/
structure PartState where
  part : Part
  tick : Nat := 0
  settings : Settings
  transpose : Int8 := 0
  masterTranspose : Int8 := 0
  gate : Gate := .full
  loopTick : Option Nat := none
  tiePending : Bool := false
  noteCount : Nat := 0
  deriving DecidableEq, Repr

namespace PartState

def start (part : Part) : PartState := { part, settings := .start part.kind }

def kind (s : PartState) : PartKind := s.part.kind

def totalTranspose (s : PartState) : Int := s.transpose.toInt + s.masterTranspose.toInt

/-- A volume is never above what the part can play. -/
def fitVolume (s : PartState) (value : Nat) : UInt8 :=
  UInt8.ofNat (min value s.kind.fullVolume.toNat)

def louder (s : PartState) (amount : UInt8) : UInt8 :=
  s.fitVolume (s.settings.volume.toNat + amount.toNat)

/-- The volume that is set is never above the full one, so only the lower end is cut. -/
def softer (s : PartState) (amount : UInt8) : UInt8 :=
  UInt8.ofNat (s.settings.volume.toNat - amount.toNat)

end PartState

/-- `state` is how the part stood when it ended. -/
structure Timeline where
  events : List Event
  state : PartState
  deriving DecidableEq, Repr

namespace Timeline

def part (t : Timeline) : Part := t.state.part

def endTick (t : Timeline) : Nat := t.state.tick

/-- The tick to which the song goes back when it has ended. -/
def loopTick (t : Timeline) : Option Nat := t.state.loopTick

def noteCount (t : Timeline) : Nat := t.events.countP (·.action.isNoteOn)

def hasNotes (t : Timeline) : Bool := 0 < t.noteCount

/-- The first tempo that is set before any time has passed. -/
def initialTempo? (t : Timeline) : Option Tempo :=
  (t.events.takeWhile (·.tick = 0)).findSome? (·.action.tempo?)

end Timeline

end ChipScore
