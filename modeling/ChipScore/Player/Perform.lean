import ChipScore.Command
import ChipScore.Event
import ChipScore.Pitch
import ChipScore.Warning

/-!
# Performing commands

A player turns commands into events. It knows nothing of bytes or loops: what a command does depends
only on the player and on which voice numbers the song defines.
-/

namespace ChipScore

/-- `sounding` is the index of the event of the tone that a tie would go on with. -/
structure Player where
  state : PartState
  events : Array Event := #[]
  sounding : Option Nat := none
  warnings : Warnings := {}

namespace Player

def start (part : Part) : Player := { state := .start part }

def kind (p : Player) : PartKind := p.state.kind

def emit (p : Player) (action : Action) : Player :=
  { p with events := p.events.push ⟨p.state.tick, action⟩ }

def warn (p : Player) (w : Warning) : Player := { p with warnings := p.warnings.push w }

def unsupported (p : Player) (feature : Feature) : Player :=
  p.warn (.unsupported (.part p.state.part) feature)

def lose (p : Player) (loss : Loss) : Player := p.warn (.overflow (.part p.state.part) loss)

def advance (p : Player) (ticks : Nat) : Player :=
  { p with state.tick := p.state.tick + ticks }

/-- The one way in which settings change: with an event that says so. -/
def change (p : Player) (parameter : Parameter) : Player :=
  { p with state.settings := p.state.settings.apply parameter }.emit (.change parameter)

def mapSounding (p : Player) (f : Tone → Tone) : Player :=
  match p.sounding with
  | some index => { p with events := p.events.modify index (Event.mapTone f) }
  | none => p

def soundingNote? (p : Player) : Option UInt8 :=
  (p.sounding.bind fun index => p.events[index]?).bind Event.note?

/-! ## Tones and rests -/

def rest (p : Player) (duration : Nat) : Player :=
  ({ p with state.tiePending := false, sounding := none }.emit (.rest duration)).advance duration

def key (p : Player) (tone : Tone) : Player :=
  ({ p with sounding := some p.events.size, state.noteCount := p.state.noteCount + 1 }.emit
    (.noteOn tone)).advance tone.duration

/-- The sounding tone gets longer, and the new tone's gate decides where it ends. -/
def extend (p : Player) (tone : Tone) : Player :=
  let longer := p.mapSounding fun t =>
    { t with duration := t.duration + tone.duration, gate := tone.gate }
  longer.advance tone.duration

/-- The sounding tone is held to its end, where the new one takes over. -/
def continueWith (p : Player) (tone : Tone) : Player :=
  let held := p.mapSounding fun t => { t with gate := .full }
  ({ held with sounding := some held.events.size }.emit (.tie tone)).advance tone.duration

/-- A tone after a tie goes on with the sounding one. It is the same tone if it has the same note
and does not slide. -/
def sound (p : Player) (tone : Tone) : Player :=
  let free := { p with state.tiePending := false }
  if p.state.tiePending ∧ p.sounding.isSome then
    if tone.slide.isNone ∧ p.soundingNote? = some tone.note then free.extend tone
    else free.continueWith tone
  else free.key tone

/-- The gate in force decides how the tone ends. -/
def tone (p : Player) (note length : UInt8) (slide : Option Slide) : Tone :=
  { note, duration := length.toNat, gate := p.state.gate, slide }

def pitch? (p : Player) (octave semitone : UInt8) : Option UInt8 :=
  if semitone.toNat < Pitch.semitones then
    Pitch.note? p.kind octave semitone p.state.totalTranspose
  else none

def packedPitch? (p : Player) (packed : UInt8) : Option UInt8 :=
  let (octave, semitone) := Pitch.unpack packed
  p.pitch? octave semitone

/-- What cannot be played keeps its length as a rest. -/
def playNote (p : Player) (octave semitone length : UInt8) : Player :=
  match p.pitch? octave semitone with
  | some note => p.sound (p.tone note length none)
  | none =>
    let missed :=
      if semitone.toNat < Pitch.semitones then p.lose (.noteOutOfRange octave semitone)
      else p.unsupported (.semitone semitone)
    missed.rest length.toNat

def playPortamento (p : Player) (start target length : UInt8) : Player :=
  match p.packedPitch? start, p.packedPitch? target with
  | some note, some goal =>
    p.sound (p.tone note length (some { target := goal, ticks := length.toNat }))
  | _, _ => (p.lose .portamentoOutOfRange).rest length.toNat

/-! ## All commands -/

def changeInstrument (defined : UInt8 → Bool) (p : Player) (number : UInt8) : Player :=
  match p.kind with
  | .ssg => p.unsupported (.ssgPreset number)
  | .fm =>
    let known := if defined number then p else p.unsupported (.undefinedVoice number)
    known.change (.instrument number)
  | .adpcm | .rhythm => p.change (.instrument number)

def changePan (p : Player) (operand : UInt8) : Player :=
  match Pan.ofOperand? operand with
  | some pan => p.change (.pan pan)
  | none => p.unsupported (.pan operand)

def changeEnvelope (p : Player) (envelope : Envelope) : Player :=
  if p.kind = .ssg then p.change (.envelope envelope) else p.unsupported .envelopeOutsideSsg

/-- The first mark counts. -/
def markLoop (p : Player) : Player :=
  { p with state.loopTick := p.state.loopTick.or (some p.state.tick) }

/-- What a command does to the player. The commands that steer the reading of the part, its loops
and its end, do nothing to the player. -/
def perform (defined : UInt8 → Bool) (p : Player) : Command → Player
  | .note octave semitone length => p.playNote octave semitone length
  | .rest length => p.rest length.toNat
  | .tie | .slur => { p with state.tiePending := true }
  | .portamento start target length => p.playPortamento start target length
  | .instrument number => p.changeInstrument defined number
  | .volume value => p.change (.volume (p.state.fitVolume value.toNat))
  | .volumeUp => p.change (.volume (p.state.louder p.kind.volumeStep))
  | .volumeDown => p.change (.volume (p.state.softer p.kind.volumeStep))
  | .volumeUpBy amount => p.change (.volume (p.state.louder amount))
  | .volumeDownBy amount => p.change (.volume (p.state.softer amount))
  | .tempo c => p.change (.tempo (p.state.settings.tempo.change c))
  | .detune value => p.change (.detune value)
  | .detuneBy delta =>
    p.change (.detune (.ofIntClamp (p.state.settings.detune.toInt + delta.toInt)))
  | .transpose value => { p with state.transpose := value }
  | .transposeBy delta =>
    { p with state.transpose := .ofIntClamp (p.state.transpose.toInt + delta.toInt) }
  | .masterTranspose value => { p with state.masterTranspose := value }
  | .pan operand => p.changePan operand
  | .gateTicks ticks => { p with state.gate := .ticks ticks }
  | .gateEighths eighths => { p with state.gate := .eighths eighths }
  | .songLoop => p.markLoop
  | .envelope e => p.changeEnvelope e
  | .rhythmPattern _ => p.unsupported .rhythmPart
  | .unsupported _ name => p.unsupported (.command name)
  | .loopStart | .loopEnd _ | .loopBreak | .trackEnd => p

end Player

end ChipScore
