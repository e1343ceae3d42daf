import ChipScore.Player.Perform
import Mathlib.Tactic.SplitIfs

/-!
# What performing leaves alone

No command moves a player to another part, and a command gives at most one warning, about itself.
-/

namespace ChipScore

theorem Warnings.mem_push {ws : Warnings} {v w : Warning} :
    v ∈ (ws.push w).items ↔ v ∈ ws.items ∨ v = w := by
  unfold push
  split_ifs with hw
  · rw [Array.contains_iff_mem] at hw
    constructor
    · exact .inl
    · rintro (hv | rfl)
      · exact hv
      · exact hw
  · exact Array.mem_push

namespace Player

/-- What a player does with a list of commands, one after the other. -/
def performAll (defined : UInt8 → Bool) (p : Player) (commands : List Command) : Player :=
  commands.foldl (perform defined) p

@[simp] theorem performAll_nil (defined : UInt8 → Bool) (p : Player) :
    p.performAll defined [] = p := rfl

@[simp] theorem performAll_cons (defined : UInt8 → Bool) (p : Player) (command : Command)
    (commands : List Command) : p.performAll defined (command :: commands) =
      (p.perform defined command).performAll defined commands := rfl

theorem performAll_append (defined : UInt8 → Bool) (p : Player) (first second : List Command) :
    p.performAll defined (first ++ second) =
      (p.performAll defined first).performAll defined second :=
  List.foldl_append

/-! ## The part of a player -/

@[simp] theorem state_emit (p : Player) (action : Action) : (p.emit action).state = p.state := rfl

@[simp] theorem state_unsupported (p : Player) (feature : Feature) :
    (p.unsupported feature).state = p.state := rfl

@[simp] theorem state_lose (p : Player) (loss : Loss) : (p.lose loss).state = p.state := rfl

@[simp] theorem part_advance (p : Player) (ticks : Nat) :
    (p.advance ticks).state.part = p.state.part := rfl

@[simp] theorem part_change (p : Player) (parameter : Parameter) :
    (p.change parameter).state.part = p.state.part := rfl

@[simp] theorem part_rest (p : Player) (duration : Nat) :
    (p.rest duration).state.part = p.state.part := rfl

@[simp] theorem state_mapSounding (p : Player) (f : Tone → Tone) :
    (p.mapSounding f).state = p.state := by
  unfold mapSounding
  split <;> rfl

@[simp] theorem part_extend (p : Player) (tone : Tone) :
    (p.extend tone).state.part = p.state.part := by
  simp [extend]

@[simp] theorem part_continueWith (p : Player) (tone : Tone) :
    (p.continueWith tone).state.part = p.state.part := by
  simp [continueWith]

@[simp] theorem part_sound (p : Player) (tone : Tone) :
    (p.sound tone).state.part = p.state.part := by
  simp only [sound]
  split_ifs
  · rw [part_extend]
  · rw [part_continueWith]
  · rfl

@[simp] theorem part_playNote (p : Player) (octave semitone length : UInt8) :
    (p.playNote octave semitone length).state.part = p.state.part := by
  simp only [playNote]
  split
  · exact part_sound _ _
  · split_ifs <;> simp

@[simp] theorem part_playPortamento (p : Player) (start target length : UInt8) :
    (p.playPortamento start target length).state.part = p.state.part := by
  simp only [playPortamento]
  split <;> simp

@[simp] theorem part_changeInstrument (defined : UInt8 → Bool) (p : Player) (number : UInt8) :
    (p.changeInstrument defined number).state.part = p.state.part := by
  unfold changeInstrument
  split <;> simp
  split_ifs <;> simp

@[simp] theorem part_changePan (p : Player) (operand : UInt8) :
    (p.changePan operand).state.part = p.state.part := by
  unfold changePan
  split <;> simp

@[simp] theorem part_changeEnvelope (p : Player) (envelope : Envelope) :
    (p.changeEnvelope envelope).state.part = p.state.part := by
  unfold changeEnvelope
  split_ifs <;> simp

@[simp] theorem part_perform (defined : UInt8 → Bool) (p : Player) (command : Command) :
    (p.perform defined command).state.part = p.state.part := by
  cases command <;> simp [perform, markLoop]

@[simp] theorem kind_perform (defined : UInt8 → Bool) (p : Player) (command : Command) :
    (p.perform defined command).kind = p.kind := by
  simp [kind, PartState.kind]

@[simp] theorem kind_performAll (defined : UInt8 → Bool) (p : Player) (commands : List Command) :
    (p.performAll defined commands).kind = p.kind := by
  induction commands generalizing p with
  | nil => rfl
  | cons command commands ih => rw [performAll_cons, ih, kind_perform]

/-! ## The warnings of a player -/

@[simp] theorem warnings_emit (p : Player) (action : Action) :
    (p.emit action).warnings = p.warnings := rfl

@[simp] theorem warnings_change (p : Player) (parameter : Parameter) :
    (p.change parameter).warnings = p.warnings := rfl

@[simp] theorem warnings_unsupported (p : Player) (feature : Feature) :
    (p.unsupported feature).warnings =
      p.warnings.push (.unsupported (.part p.state.part) feature) := rfl

@[simp] theorem warnings_lose (p : Player) (loss : Loss) :
    (p.lose loss).warnings = p.warnings.push (.overflow (.part p.state.part) loss) := rfl

@[simp] theorem warnings_rest (p : Player) (duration : Nat) :
    (p.rest duration).warnings = p.warnings := rfl

@[simp] theorem warnings_mapSounding (p : Player) (f : Tone → Tone) :
    (p.mapSounding f).warnings = p.warnings := by
  unfold mapSounding
  split <;> rfl

@[simp] theorem warnings_sound (p : Player) (tone : Tone) :
    (p.sound tone).warnings = p.warnings := by
  simp only [sound]
  split_ifs
  · exact warnings_mapSounding _ _
  · exact warnings_mapSounding _ _
  · rfl

/-- A later player has at most one more warning, and that one is about a command. That the part ends
inside a loop is not for a command to say. -/
inductive WarnsOnce (p later : Player) : Prop
  | silent (h : later.warnings = p.warnings)
  | unsupported (feature : Feature) (hfeature : feature ≠ .partEndInLoop)
    (h : later.warnings = p.warnings.push (.unsupported (.part p.state.part) feature))
  | overflow (loss : Loss)
    (h : later.warnings = p.warnings.push (.overflow (.part p.state.part) loss))

theorem warnsOnce_playNote (p : Player) (octave semitone length : UInt8) :
    WarnsOnce p (p.playNote octave semitone length) := by
  simp only [playNote]
  split
  · exact .silent (warnings_sound _ _)
  · split_ifs
    · exact .overflow _ rfl
    · exact .unsupported _ (by simp) rfl

theorem warnsOnce_playPortamento (p : Player) (start target length : UInt8) :
    WarnsOnce p (p.playPortamento start target length) := by
  simp only [playPortamento]
  split
  · exact .silent (warnings_sound _ _)
  · exact .overflow _ rfl

theorem warnsOnce_changeInstrument (defined : UInt8 → Bool) (p : Player) (number : UInt8) :
    WarnsOnce p (p.changeInstrument defined number) := by
  unfold changeInstrument
  split
  · exact .unsupported _ (by simp) rfl
  · dsimp only
    split_ifs
    · exact .silent rfl
    · exact .unsupported (.undefinedVoice number) (by simp) rfl
  · exact .silent rfl
  · exact .silent rfl

theorem warnsOnce_changePan (p : Player) (operand : UInt8) :
    WarnsOnce p (p.changePan operand) := by
  unfold changePan
  split
  · exact .silent rfl
  · exact .unsupported _ (by simp) rfl

theorem warnsOnce_changeEnvelope (p : Player) (envelope : Envelope) :
    WarnsOnce p (p.changeEnvelope envelope) := by
  unfold changeEnvelope
  split_ifs
  · exact .silent rfl
  · exact .unsupported _ (by simp) rfl

theorem warnsOnce_perform (defined : UInt8 → Bool) (p : Player) (command : Command) :
    WarnsOnce p (p.perform defined command) := by
  cases command with
  | note octave semitone length => exact warnsOnce_playNote p octave semitone length
  | portamento start target length => exact warnsOnce_playPortamento p start target length
  | instrument number => exact warnsOnce_changeInstrument defined p number
  | pan operand => exact warnsOnce_changePan p operand
  | envelope e => exact warnsOnce_changeEnvelope p e
  | rhythmPattern number => exact .unsupported _ (by simp) rfl
  | unsupported op name => exact .unsupported _ (by simp) rfl
  | _ => exact .silent rfl

end Player

end ChipScore
