import ChipScore.Proofs.Timing

/-!
# Timing does not depend on what is played

Two parts that read the same bytes stay in step, whatever each of them can play of it: a note that is
out of range, a command that has no effect and a voice that the song does not define take as long as
what would have been played. The two runs are compared step by step. They share the place in the bytes
and the open loops, and between their players a relation holds that no command breaks.
-/

namespace ChipScore

/-! ## Reading -/

theorem Command.read_eq_of_ne_rhythm {kind kind' : PartKind} (h : kind ≠ .rhythm)
    (h' : kind' ≠ .rhythm) : read kind = read kind' := by
  funext c
  unfold read decode
  simp only [if_neg h, if_neg h']

theorem findLoopEnd_eq_of_read {kind kind' : PartKind} (h : Command.read kind = Command.read kind')
    (depth : Nat) (c : Cursor) : findLoopEnd kind depth c = findLoopEnd kind' depth c := by
  induction hlength : c.rest.length using Nat.strongRecOn generalizing c depth with
  | ind length ih =>
    subst hlength
    cases hread : Command.read kind c with
    | error fault =>
      have hread' := hread
      rw [h] at hread'
      rw [findLoopEnd, findLoopEnd]
      split
      · rfl
      · split <;> split <;> simp_all
    | ok result =>
      obtain ⟨i, next⟩ := result
      have hread' := hread
      rw [h] at hread'
      have hnext (depth : Nat) := ih _ (Command.length_rest_of_read hread) depth next rfl
      rw [findLoopEnd_of_read depth hread, findLoopEnd_of_read depth hread']
      unfold findLoopEndAfter
      split <;> first | rfl | exact hnext _

/-! ## Two runs side by side -/

/-- What no command takes from two players. Both read the same instructions. -/
structure Companions (defined defined' : UInt8 → Bool) (R : Player → Player → Prop) : Prop where
  read {p q : Player} (h : R p q) : Command.read p.kind = Command.read q.kind
  perform {p q : Player} (h : R p q) (command : Command) :
    R (p.perform defined command) (q.perform defined' command)
  unsupported {p q : Player} (h : R p q) (feature : Feature) :
    R (p.unsupported feature) (q.unsupported feature)

namespace Machine

/-- Both runs are at the same place and in the same loops, or have failed there for the same
reason. -/
inductive Abreast (R : Player → Player → Prop) : Outcome → Outcome → Prop
  | running {p q : Player} (c : Cursor) (loops : List Frame) (players : R p q) :
    Abreast R (.running ⟨c, loops, p⟩) (.running ⟨c, loops, q⟩)
  | ended {p q : Player} (c : Cursor) (loops : List Frame) (players : R p q) :
    Abreast R (.ended ⟨c, loops, p⟩) (.ended ⟨c, loops, q⟩)
  | failed {p q : Player} (offset : Nat) (cause : PlayCause) :
    Abreast R (.failed p offset cause) (.failed q offset cause)

section Abreast

variable {defined defined' : UInt8 → Bool} {R : Player → Player → Prop} {p q : Player}

theorem abreast_enterLoop (hR : Companions defined defined' R) (h : R p q) (loops : List Frame)
    (offset : Nat) (body : Cursor) :
    Abreast R (enterLoop p loops offset body) (enterLoop q loops offset body) := by
  unfold enterLoop
  rw [findLoopEnd_eq_of_read (hR.read h)]
  split
  · exact .failed _ _
  · split
    · dsimp only
      split
      · exact .running _ _ (hR.unsupported h _)
      · exact .running _ _ h
    · exact .running _ _ (hR.unsupported h _)
    · exact .failed _ _

theorem abreast_endLoop (hR : Companions defined defined' R) (h : R p q) (loops : List Frame)
    (next : Cursor) :
    Abreast R (.running (endLoop p loops next)) (.running (endLoop q loops next)) := by
  unfold endLoop
  split
  · exact .running _ _ (hR.unsupported h _)
  · split
    · exact .running _ _ h
    · exact .running _ _ h

theorem abreast_breakLoop (hR : Companions defined defined' R) (h : R p q) (loops : List Frame)
    (next : Cursor) :
    Abreast R (.running (breakLoop p loops next)) (.running (breakLoop q loops next)) := by
  unfold breakLoop
  split
  · exact .running _ _ (hR.unsupported h _)
  · split
    · exact .running _ _ h
    · exact .running _ _ h

theorem abreast_step (hR : Companions defined defined' R) (h : R p q) (c : Cursor)
    (loops : List Frame) :
    Abreast R (step defined ⟨c, loops, p⟩) (step defined' ⟨c, loops, q⟩) := by
  unfold step
  dsimp only
  rw [hR.read h]
  split
  · exact .failed _ _
  · rename_i i next _
    cases i.command with
    | trackEnd => exact .ended _ _ h
    | loopStart => exact abreast_enterLoop hR h _ _ _
    | loopEnd count => exact abreast_endLoop hR h _ _
    | loopBreak => exact abreast_breakLoop hR h _ _
    | _ => exact .running _ _ (hR.perform h _)

theorem abreast_runFor (hR : Companions defined defined' R) (h : R p q) (limit : Nat) (c : Cursor)
    (loops : List Frame) :
    Abreast R (runFor defined limit ⟨c, loops, p⟩) (runFor defined' limit ⟨c, loops, q⟩) := by
  induction limit generalizing c loops p q with
  | zero =>
    unfold runFor
    dsimp only
    split
    · exact .ended _ _ h
    · exact .failed _ _
  | succ limit ih =>
    unfold runFor
    dsimp only
    split
    · exact .ended _ _ h
    · have hstep := abreast_step hR h c loops
      generalize step defined ⟨c, loops, p⟩ = outcome,
        step defined' ⟨c, loops, q⟩ = outcome' at hstep ⊢
      cases hstep with
      | running c loops players => exact ih players c loops
      | ended c loops players => exact .ended c loops players
      | failed offset cause => exact .failed offset cause

end Abreast

end Machine

/-! ## What commands alone decide -/

/-- What a part's state is made of apart from the sound: the time and the settings that commands set
in the same way for all parts. -/
structure Standing where
  tick : Nat
  loopTick : Option Nat
  transpose : Int8
  masterTranspose : Int8
  detune : Int16
  gate : Gate
  tempo : Tempo
  pan : Pan
  deriving DecidableEq, Repr

def PartState.standing (s : PartState) : Standing :=
  { tick := s.tick, loopTick := s.loopTick, transpose := s.transpose,
    masterTranspose := s.masterTranspose, detune := s.settings.detune, gate := s.gate,
    tempo := s.settings.tempo, pan := s.settings.pan }

namespace Standing

/-- A note takes its length whether or not it sounds. -/
def follow (s : Standing) : Command → Standing
  | .note _ _ length | .rest length | .portamento _ _ length =>
    { s with tick := s.tick + length.toNat }
  | .tempo change => { s with tempo := s.tempo.change change }
  | .detune value => { s with detune := value }
  | .detuneBy delta => { s with detune := .ofIntClamp (s.detune.toInt + delta.toInt) }
  | .transpose value => { s with transpose := value }
  | .transposeBy delta => { s with transpose := .ofIntClamp (s.transpose.toInt + delta.toInt) }
  | .masterTranspose value => { s with masterTranspose := value }
  | .pan operand => { s with pan := (Pan.ofOperand? operand).getD s.pan }
  | .gateTicks ticks => { s with gate := .ticks ticks }
  | .gateEighths eighths => { s with gate := .eighths eighths }
  | .songLoop => { s with loopTick := s.loopTick.or (some s.tick) }
  | _ => s

end Standing

namespace Player

theorem standing_sound (p : Player) (tone : Tone) : (p.sound tone).state.standing =
    { p.state.standing with tick := p.state.tick + tone.duration } := by
  simp only [sound]
  split_ifs
  · simp [extend, advance, PartState.standing]
  · simp [continueWith, advance, PartState.standing]
  · simp [key, advance, PartState.standing]

theorem standing_rest (p : Player) (duration : Nat) : (p.rest duration).state.standing =
    { p.state.standing with tick := p.state.tick + duration } := rfl

theorem standing_playNote (p : Player) (octave semitone length : UInt8) :
    (p.playNote octave semitone length).state.standing =
      p.state.standing.follow (.note octave semitone length) := by
  simp only [playNote]
  split
  · exact standing_sound _ _
  · rw [standing_rest]
    split_ifs <;> rfl

theorem standing_playPortamento (p : Player) (start target length : UInt8) :
    (p.playPortamento start target length).state.standing =
      p.state.standing.follow (.portamento start target length) := by
  simp only [playPortamento]
  split
  · exact standing_sound _ _
  · exact standing_rest _ _

theorem standing_changeInstrument (defined : UInt8 → Bool) (p : Player) (number : UInt8) :
    (p.changeInstrument defined number).state.standing = p.state.standing := by
  unfold changeInstrument
  split
  · rfl
  · dsimp only
    split_ifs <;> rfl
  · rfl
  · rfl

theorem standing_changePan (p : Player) (operand : UInt8) :
    (p.changePan operand).state.standing = p.state.standing.follow (.pan operand) := by
  unfold changePan Standing.follow
  split <;> simp_all [change, PartState.standing, Settings.apply]

theorem standing_changeEnvelope (p : Player) (envelope : Envelope) :
    (p.changeEnvelope envelope).state.standing = p.state.standing := by
  unfold changeEnvelope
  split_ifs <;> rfl

theorem standing_perform (defined : UInt8 → Bool) (p : Player) (command : Command) :
    (p.perform defined command).state.standing = p.state.standing.follow command := by
  cases command with
  | note octave semitone length => exact standing_playNote p octave semitone length
  | portamento start target length => exact standing_playPortamento p start target length
  | instrument number => exact standing_changeInstrument defined p number
  | pan operand => exact standing_changePan p operand
  | envelope e => exact standing_changeEnvelope p e
  | _ => rfl

/-- Two players of parts with tones that stand alike. -/
structure KeepsTime (p q : Player) : Prop where
  standing : p.state.standing = q.state.standing
  tonal : p.kind ≠ .rhythm
  tonal_other : q.kind ≠ .rhythm

theorem companions_keepsTime (defined defined' : UInt8 → Bool) :
    Companions defined defined' KeepsTime where
  read h := Command.read_eq_of_ne_rhythm h.tonal h.tonal_other
  perform h command := by
    refine ⟨?_, ?_, ?_⟩
    · rw [standing_perform, standing_perform, h.standing]
    · rw [kind_perform]
      exact h.tonal
    · rw [kind_perform]
      exact h.tonal_other
  unsupported h _ := ⟨h.standing, h.tonal, h.tonal_other⟩

/-! ## What the voices of a song decide -/

/-- Two players that differ in their warnings alone. -/
inductive SoundsLike : Player → Player → Prop
  | mk (state : PartState) (events : Array Event) (sounding : Option Nat) (ws ws' : Warnings) :
    SoundsLike ⟨state, events, sounding, ws⟩ ⟨state, events, sounding, ws'⟩

namespace SoundsLike

variable {p q : Player}

theorem state_eq (h : SoundsLike p q) : p.state = q.state := by
  cases h
  rfl

theorem kind_eq (h : SoundsLike p q) : p.kind = q.kind := by
  unfold kind
  rw [h.state_eq]

theorem events_eq (h : SoundsLike p q) : p.events = q.events := by
  cases h
  rfl

theorem pitch?_eq (h : SoundsLike p q) : p.pitch? = q.pitch? := by
  cases h
  rfl

theorem tone_eq (h : SoundsLike p q) : p.tone = q.tone := by
  cases h
  rfl

theorem unsupported_left (h : SoundsLike p q) (feature : Feature) :
    SoundsLike (p.unsupported feature) q := by
  cases h
  exact .mk _ _ _ _ _

theorem unsupported_right (h : SoundsLike p q) (feature : Feature) :
    SoundsLike p (q.unsupported feature) := by
  cases h
  exact .mk _ _ _ _ _

theorem unsupported (h : SoundsLike p q) (feature : Feature) :
    SoundsLike (p.unsupported feature) (q.unsupported feature) :=
  (h.unsupported_left feature).unsupported_right feature

theorem lose (h : SoundsLike p q) (loss : Loss) : SoundsLike (p.lose loss) (q.lose loss) := by
  cases h
  exact .mk _ _ _ _ _

theorem change (h : SoundsLike p q) (parameter : Parameter) :
    SoundsLike (p.change parameter) (q.change parameter) := by
  cases h
  exact .mk _ _ _ _ _

theorem rest (h : SoundsLike p q) (duration : Nat) :
    SoundsLike (p.rest duration) (q.rest duration) := by
  cases h
  exact .mk _ _ _ _ _

theorem sound (h : SoundsLike p q) (tone : Tone) : SoundsLike (p.sound tone) (q.sound tone) := by
  cases h with
  | mk state events sounding ws ws' =>
    cases sounding with
    | none =>
      simp only [Player.sound, Option.isSome_none, Bool.false_eq_true, and_false, if_false]
      exact .mk _ _ _ _ _
    | some index =>
      unfold Player.sound soundingNote?
      dsimp only
      split_ifs <;> exact .mk _ _ _ _ _

theorem playNote (h : SoundsLike p q) (octave semitone length : UInt8) :
    SoundsLike (p.playNote octave semitone length) (q.playNote octave semitone length) := by
  unfold Player.playNote
  rw [h.pitch?_eq, h.tone_eq]
  split
  · exact h.sound _
  · dsimp only
    split_ifs
    · exact (h.lose _).rest _
    · exact (h.unsupported _).rest _

theorem playPortamento (h : SoundsLike p q) (start target length : UInt8) :
    SoundsLike (p.playPortamento start target length) (q.playPortamento start target length) := by
  unfold Player.playPortamento packedPitch?
  rw [h.pitch?_eq, h.tone_eq]
  split
  · exact h.sound _
  · exact (h.lose _).rest _

theorem changeInstrument (defined defined' : UInt8 → Bool) (h : SoundsLike p q) (number : UInt8) :
    SoundsLike (p.changeInstrument defined number) (q.changeInstrument defined' number) := by
  unfold Player.changeInstrument
  rw [h.kind_eq]
  split
  · exact h.unsupported _
  · apply change
    split_ifs
    · exact h
    · exact h.unsupported_right _
    · exact h.unsupported_left _
    · exact h.unsupported _
  · exact h.change _
  · exact h.change _

theorem changePan (h : SoundsLike p q) (operand : UInt8) :
    SoundsLike (p.changePan operand) (q.changePan operand) := by
  unfold Player.changePan
  split
  · exact h.change _
  · exact h.unsupported _

theorem changeEnvelope (h : SoundsLike p q) (envelope : Envelope) :
    SoundsLike (p.changeEnvelope envelope) (q.changeEnvelope envelope) := by
  unfold Player.changeEnvelope
  rw [h.kind_eq]
  split_ifs
  · exact h.change _
  · exact h.unsupported _

theorem perform (defined defined' : UInt8 → Bool) (h : SoundsLike p q) (command : Command) :
    SoundsLike (p.perform defined command) (q.perform defined' command) := by
  cases command with
  | note octave semitone length => exact h.playNote octave semitone length
  | portamento start target length => exact h.playPortamento start target length
  | instrument number => exact h.changeInstrument defined defined' number
  | pan operand => exact h.changePan operand
  | envelope e => exact h.changeEnvelope e
  | _ =>
    cases h
    exact .mk _ _ _ _ _

end SoundsLike

theorem companions_soundsLike (defined defined' : UInt8 → Bool) :
    Companions defined defined' SoundsLike where
  read h := by rw [h.kind_eq]
  perform h := h.perform defined defined'
  unsupported h feature := h.unsupported feature

end Player

/-! ## Whole parts -/

open Machine

/-- Two parts are played through and end at the same time and with the same settings, or neither can
be played on from the same place for the same reason. -/
inductive KeepsStep : Except PlayError Timeline → Except PlayError Timeline → Prop
  | plays {t u : Timeline} (standing : t.state.standing = u.state.standing) :
    KeepsStep (.ok t) (.ok u)
  | fails (part other : Part) (offset : Nat) (cause : PlayCause) :
    KeepsStep (.error ⟨part, offset, cause⟩) (.error ⟨other, offset, cause⟩)

/-- Two parts are played through by players that are related, or fail at the same place. -/
inductive PlayedAbreast (R : Player → Player → Prop) (part other : Part) :
    Except PlayError Timeline → Except PlayError Timeline → Prop
  | plays {p q : Player} (players : R p q) :
    PlayedAbreast R part other (.ok ⟨p.events.toList, p.state⟩) (.ok ⟨q.events.toList, q.state⟩)
  | fails (offset : Nat) (cause : PlayCause) :
    PlayedAbreast R part other (.error ⟨part, offset, cause⟩) (.error ⟨other, offset, cause⟩)

section Play

variable {part other : Part} {defined defined' : UInt8 → Bool}

theorem playedAbreast_play {R : Player → Player → Prop} (hR : Companions defined defined' R)
    (hstart : R (.start part) (.start other)) (c : Cursor) :
    PlayedAbreast R part other (play part defined c).1 (play other defined' c).1 := by
  have hrun := abreast_runFor hR hstart maxInstructions c []
  unfold play start
  generalize runFor defined maxInstructions _ = outcome,
    runFor defined' maxInstructions _ = outcome' at hrun ⊢
  cases hrun with
  | running c loops players =>
    simp only [state_finish, events_finish]
    exact .plays players
  | ended c loops players =>
    simp only [state_finish, events_finish]
    exact .plays players
  | failed offset cause => exact .fails offset cause

theorem keepsStep_play (hpart : part.kind ≠ .rhythm) (hother : other.kind ≠ .rhythm) (c : Cursor) :
    KeepsStep (play part defined c).1 (play other defined' c).1 := by
  have hstart : Player.KeepsTime (.start part) (.start other) := ⟨rfl, hpart, hother⟩
  have hplayed := playedAbreast_play (Player.companions_keepsTime defined defined') hstart c
  generalize (play part defined c).1 = played, (play other defined' c).1 = played' at hplayed ⊢
  cases hplayed with
  | plays players => exact .plays players.standing
  | fails offset cause => exact .fails part other offset cause

theorem play_eq_of_tables (c : Cursor) : (play part defined c).1 = (play part defined' c).1 := by
  have hstart : Player.SoundsLike (.start part) (.start part) := .mk _ _ _ _ _
  have hplayed := playedAbreast_play (Player.companions_soundsLike defined defined') hstart c
  generalize (play part defined c).1 = played, (play part defined' c).1 = played' at hplayed ⊢
  cases hplayed with
  | plays players => rw [players.state_eq, players.events_eq]
  | fails offset cause => rfl

end Play

/-- Any two parts with tones keep step over the same bytes, whatever voices the song defines for each
of them. For one and the same part, of any kind, the voices show in nothing but the warnings. -/
theorem play_inStep {part other : Part} (hpart : part.kind ≠ .rhythm) (hother : other.kind ≠ .rhythm)
    (defined defined' : UInt8 → Bool) (c : Cursor) :
    KeepsStep (play part defined c).1 (play other defined' c).1 ∧
      ∀ same : Part, (play same defined c).1 = (play same defined' c).1 :=
  ⟨keepsStep_play hpart hother c, fun _ => play_eq_of_tables c⟩

/-- A voice, a high transposition, a loop of two tied notes with the mark of the song's loop in it,
and an envelope. -/
def highTrack : List UInt8 :=
  [0xFF, 3, 0xF5, 100, 0xF9, 0, 0, 0x10, 12, 0xFB, 0x10, 12, 0xF6, 0xF8, 2, 0, 0, 0, 0xF0, 1, 2, 3,
    4, 0x80]

theorem play_inStep_highTrack :
    let c := Cursor.ofRange highTrack 0 24
    let fm := play ⟨0⟩ (fun _ => false) c
    let ssg := play ⟨6⟩ (· = 3) c
    fm.1.toOption.map Timeline.noteCount = some 2 ∧ ssg.1.toOption.map Timeline.noteCount = some 0 ∧
      fm.1.toOption.map Timeline.endTick = some 48 ∧ fm.2 ≠ ssg.2 ∧ KeepsStep fm.1 ssg.1 ∧
        ∀ same : Part, (play same (fun _ => false) c).1 = (play same (· = 3) c).1 := by
  intro c fm ssg
  exact ⟨by decide +kernel, by decide +kernel, by decide +kernel, by decide +kernel,
    play_inStep (by decide) (by decide) _ _ c⟩

end ChipScore
