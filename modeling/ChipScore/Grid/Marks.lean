import ChipScore.Grid
import ChipScore.Warning

/-!
# Marks of a timeline

A mark is one cell that an event writes into one row of the grid. Each event gives its own marks;
what the pattern already says is not said again, and what ends a tone is marked when the tone
starts.
-/

namespace ChipScore

/-- A key-off only fills a note cell that is empty. -/
inductive Cell
  | note (note : UInt8)
  | keyOff
  | instrument (instrument : Timbre)
  | volume (value : UInt8)
  | effect (effect : Effect)
  deriving DecidableEq, Repr

structure Mark where
  row : Nat
  cell : Cell
  deriving DecidableEq, Repr

/-! ## Ends of tones -/

/-- A key is let go by a cut in the row of the note, or by a mark in a later row. -/
inductive KeyOff
  | cut (ticks : Nat)
  | row (row : Nat)
  deriving DecidableEq, Repr

namespace Grid

/-- A key that is let go before the tone's last row is let go at the start of that row, any other
key at the end of the tone. -/
def keyOff (g : Grid) (tick : Nat) (tone : Tone) : KeyOff :=
  let stop := tick + tone.duration
  let release := tone.gate.release tick tone.duration
  let startRow := g.rowOf tick
  let releaseRow := g.rowOf release
  let endRow := max (g.rowFrom stop) (startRow + 1)
  if release < stop ∧ releaseRow = startRow then .cut (release - startRow * g.ticksPerRow)
  else .row (if release < stop ∧ releaseRow + 1 < endRow then releaseRow else endRow)

/-- A key-off that does not come before the next tone is left out: that tone ends this one. `next`
is the tick at which a tone starts after this one. -/
def keyOffMarks (g : Grid) (tick : Nat) (tone : Tone) (next : Option Nat) : List Mark :=
  match g.keyOff tick tone with
  | .cut ticks => [⟨g.rowOf tick, .effect (.noteCut ticks)⟩]
  | .row row => if next.any (g.rowOf · ≤ row) then [] else [⟨row, .keyOff⟩]

/-- A slide is stopped where it has reached its target, unless a tone starts before that. -/
def slideMarks (g : Grid) (tick : Nat) (tone : Tone) (next : Option Nat) : List Mark :=
  match tone.slide with
  | none => []
  | some slide =>
    match Effect.slide? tone.note slide g.ticksPerRow with
    | none => []
    | some effect =>
      let stop := tick + slide.ticks
      ⟨g.rowOf tick, .effect effect⟩ ::
        if next.any (· < stop) then [] else [⟨g.rowFrom stop, .effect .slideStop⟩]

end Grid

/-! ## What the pattern says -/

structure Written where
  instrument : Option Timbre := none
  volume : Option UInt8 := none
  detune : Int16 := 0
  tempo : Tempo
  deriving DecidableEq, Repr

/-- Stands between two events. `sounding` is the note that sounds with the tick at which it ends,
`lastOn` the row of the last note cell, and `starts` are the ticks at which tones start after the
last event. -/
structure Marker where
  part : Part
  settings : Settings
  written : Written
  pendingPan : Option Pan := none
  sounding : Option (UInt8 × Nat) := none
  lastOn : Option Nat := none
  starts : List Nat
  deriving Repr

namespace Marker

def start (part : Part) (g : Grid) (events : List Event) : Marker where
  part := part
  settings := .start part.kind
  written := { tempo := g.tempo }
  starts := events.filterMap fun e => e.tone?.map fun _ => e.tick

def instrument (m : Marker) : Timbre :=
  if m.part.kind = .ssg then .ssg m.settings.envelope else .fm m.settings.instrument

def detuneEffect (detune : Int16) : Effect :=
  .detune ((Effect.detuneValue? detune).getD (if detune < 0 then 0x00 else 0xFF))

/-- The cells of a note that is struck: the note, and all settings that changed since the last
one. -/
def struckCells (m : Marker) (note : UInt8) : List Cell :=
  [.note note] ++
  (if m.written.instrument = some m.instrument then [] else [.instrument m.instrument]) ++
  (if m.written.volume = some m.settings.volume then [] else [.volume m.settings.volume]) ++
  (if m.written.detune = m.settings.detune then []
    else [.effect (detuneEffect m.settings.detune)]) ++
  (m.pendingPan.map fun pan => .effect (.pan pan)).toList

def struckLosses (m : Marker) (row : Nat) : List Loss :=
  (if m.lastOn = some row then [.sharedRow row] else []) ++
  (if m.written.detune ≠ m.settings.detune ∧ (Effect.detuneValue? m.settings.detune).isNone
    then [.detuneClamped m.settings.detune] else [])

def strike (m : Marker) (row : Nat) : Marker :=
  { m with
    written := { m.written with
      instrument := some m.instrument
      volume := some m.settings.volume
      detune := m.settings.detune }
    pendingPan := none
    lastOn := some row }

def slideLosses (tone : Tone) : List Loss :=
  match tone.slide with
  | some slide =>
    if Effect.maxSlideSemitones < Effect.distance tone.note slide.target then
      [.slideLimited tone.note slide.target Effect.maxSlideSemitones]
    else []
  | none => []

/-- A tie to the note that sounds does not strike it again. -/
def continues (m : Marker) (action : Action) (tone : Tone) : Bool :=
  !action.isNoteOn && m.sounding.any (·.1 = tone.note)

/-! ## One event -/

structure Ink where
  marks : List Mark := []
  losses : List Loss := []
  deriving DecidableEq, Repr

def sound (g : Grid) (m : Marker) (tick : Nat) (action : Action) (tone : Tone) : Marker × Ink :=
  let row := g.rowOf tick
  if g.rowCount ≤ row then (m, { losses := [.notesPastRow g.rowCount] })
  else
    let next := m.starts.head?
    let after := { m with sounding := some (tone.note, tick + tone.duration) }
    let ending := g.slideMarks tick tone next ++ g.keyOffMarks tick tone next
    if m.continues action tone then (after, ⟨ending, slideLosses tone⟩)
    else (after.strike row,
      ⟨(m.struckCells tone.note).map (⟨row, ·⟩) ++ ending, m.struckLosses row ++ slideLosses tone⟩)

/-- A new pan is heard at once while a note sounds, and with the next note otherwise. -/
def changePan (g : Grid) (m : Marker) (tick : Nat) (pan : Pan) : Marker × Ink :=
  let row := g.rowOf tick
  if m.sounding.any (tick < ·.2) ∧ row < g.rowCount then
    ({ m with pendingPan := none }, { marks := [⟨row, .effect (.pan pan)⟩] })
  else ({ m with pendingPan := some pan }, {})

/-- A new tempo holds at once, for the whole song. -/
def changeTempo (g : Grid) (m : Marker) (tick : Nat) (tempo : Tempo) : Marker × Ink :=
  let row := g.rowOf tick
  if tempo ≠ m.written.tempo ∧ row < g.rowCount then
    ({ m with written.tempo := tempo }, { marks := [⟨row, .effect (.tempo tempo)⟩] })
  else (m, {})

/-- All other settings wait for the next note. -/
def change (g : Grid) (m : Marker) (tick : Nat) (parameter : Parameter) : Marker × Ink :=
  let m := { m with settings := m.settings.apply parameter }
  match parameter with
  | .pan pan => m.changePan g tick pan
  | .tempo tempo => m.changeTempo g tick tempo
  | _ => (m, {})

def event (g : Grid) (m : Marker) (e : Event) : Marker × Ink :=
  let m := { m with starts := m.starts.dropWhile (· ≤ e.tick) }
  match e.action with
  | .change parameter => m.change g e.tick parameter
  | .rest _ => ({ m with sounding := none }, {})
  | .noteOn tone | .tie tone => m.sound g e.tick e.action tone

end Marker

/-- All marks of a part in the order in which they are made, and what was lost. -/
def Grid.marks (g : Grid) (part : Part) (events : List Event) : Array Mark × Array Loss :=
  let (_, marks, losses) := events.foldl
    (fun (m, marks, losses) e =>
      let (m, ink) := m.event g e
      (m, marks.appendList ink.marks, losses.appendList ink.losses))
    (Marker.start part g events, #[], #[])
  (marks, losses)

end ChipScore
