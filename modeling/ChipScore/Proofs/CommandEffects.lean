import ChipScore.Proofs.Runs

/-!
# What a command can do

However many commands there are, a player does one of four things: it changes a setting and logs the
change, it plays a tone, it rests, or it takes note of something for later. What it plays and what it
sets is in the range of the tracker.
-/

namespace ChipScore

/-! ## The range of the tracker -/

/-- The tracker has 180 notes, from zero. -/
def Tone.Fits (t : Tone) : Prop :=
  t.note.toNat ≤ 179 ∧ ∀ slide ∈ t.slide, slide.target.toNat ≤ 179

/-- An SSG part has 16 volumes and plays envelopes, any other part has 128 volumes and plays voices.
No tempo stands still. -/
def Parameter.Fits (kind : PartKind) : Parameter → Prop
  | instrument _ => kind ≠ .ssg
  | volume value => value.toNat ≤ if kind = .ssg then 15 else 127
  | tempo t => 1 ≤ t.human.toNat
  | envelope _ => kind = .ssg
  | detune _ | pan _ => True

structure Settings.Fits (kind : PartKind) (s : Settings) : Prop where
  volume : (Parameter.volume s.volume).Fits kind
  tempo : (Parameter.tempo s.tempo).Fits kind

theorem Settings.fits_start (kind : PartKind) : (start kind).Fits kind := by
  constructor
  · cases kind <;> simp [start, Parameter.Fits, PartKind.startVolume]
  · simp [start, Parameter.Fits]

theorem PartKind.toNat_fullVolume (kind : PartKind) :
    kind.fullVolume.toNat = if kind = .ssg then 15 else 127 := by
  cases kind <;> rfl

theorem Pitch.le_highest {kind : PartKind} {octave semitone note : UInt8} {transpose : Int}
    (h : note? kind octave semitone transpose = some note) : note.toNat ≤ 179 := by
  simp only [note?] at h
  split at h
  · rename_i hrange
    obtain ⟨-, hhigh⟩ := hrange
    rw [highest] at hhigh
    cases h
    rw [UInt8.toNat_ofNat']
    exact Nat.le_trans (Nat.mod_le _ _) (by omega)
  · cases h

theorem Tempo.one_le_ofHuman (value : UInt8) : 1 ≤ (ofHuman value).human.toNat := by
  change 1 ≤ (if value ≤ 1 then 1 else value).toNat
  split
  · exact Nat.le_refl _
  · rename_i h
    rw [UInt8.le_iff_toNat_le] at h
    exact Nat.le_of_not_le h

theorem Tempo.one_le_change (t : Tempo) (c : TempoChange) : 1 ≤ (t.change c).human.toNat := by
  cases c <;> exact one_le_ofHuman _

namespace PartState

variable {s : PartState}

theorem fits_fitVolume (s : PartState) (value : Nat) :
    (Parameter.volume (s.fitVolume value)).Fits s.kind := by
  change (UInt8.ofNat (min value s.kind.fullVolume.toNat)).toNat ≤ _
  rw [← PartKind.toNat_fullVolume, UInt8.toNat_ofNat']
  exact Nat.le_trans (Nat.mod_le _ _) (Nat.min_le_right _ _)

theorem fits_softer (h : s.settings.Fits s.kind) (amount : UInt8) :
    (Parameter.volume (s.softer amount)).Fits s.kind := by
  change (UInt8.ofNat (s.settings.volume.toNat - amount.toNat)).toNat ≤ _
  rw [UInt8.toNat_ofNat']
  exact Nat.le_trans (Nat.le_trans (Nat.mod_le _ _) (Nat.sub_le _ _)) h.volume

/-- Something is noted for later: nothing that is played or set changes, and the loop of the song
starts here if it does not start earlier. -/
structure Notes (s later : PartState) : Prop where
  part : later.part = s.part
  settings : later.settings = s.settings
  tick : later.tick = s.tick
  noteCount : later.noteCount = s.noteCount
  loopTick : ∀ tick ∈ later.loopTick, tick ∈ s.loopTick ∨ tick = s.tick

theorem Notes.refl (s : PartState) : s.Notes s := ⟨rfl, rfl, rfl, rfl, fun _ => .inl⟩

end PartState

/-! ## All that a command can do -/

namespace Player

/-- A player meets a command with some warnings at most, and in one of four ways. -/
inductive Performs (p : Player) : Player → Prop
  | changes (ws : Warnings) (parameter : Parameter)
    (fits : p.state.settings.Fits p.kind → parameter.Fits p.kind) :
    Performs p ({ p with warnings := ws }.change parameter)
  | sounds (tone : Tone) (fits : tone.Fits) : Performs p (p.sound tone)
  | rests (ws : Warnings) (duration : Nat) : Performs p ({ p with warnings := ws }.rest duration)
  | notes (ws : Warnings) (state : PartState) (part : state.part = p.state.part)
    (settings : state.settings = p.state.settings) :
    Performs p { p with warnings := ws, state }

theorem Performs.kind_eq {p later : Player} (h : p.Performs later) : later.kind = p.kind := by
  cases h with
  | changes | rests => rfl
  | sounds tone _ => exact congrArg Part.kind (part_sound p tone)
  | notes ws state part settings => exact congrArg Part.kind part

/-- A player meets a command that plays no tone in one of the other three ways. -/
inductive PlaysNoTone (p : Player) : Player → Prop
  | changes (ws : Warnings) (parameter : Parameter)
    (fits : p.state.settings.Fits p.kind → parameter.Fits p.kind) :
    PlaysNoTone p ({ p with warnings := ws }.change parameter)
  | rests (ws : Warnings) (length : UInt8) :
    PlaysNoTone p ({ p with warnings := ws }.rest length.toNat)
  | notes (ws : Warnings) (state : PartState) (noted : p.state.Notes state) :
    PlaysNoTone p { p with warnings := ws, state }

theorem PlaysNoTone.performs {p later : Player} (h : p.PlaysNoTone later) : p.Performs later := by
  cases h with
  | changes ws parameter fits => exact .changes ws parameter fits
  | rests ws length => exact .rests ws length.toNat
  | notes ws state noted => exact .notes ws state noted.part noted.settings

/-- The tone that a command plays, if it plays one and the tracker has it. -/
def playedTone? (p : Player) : Command → Option Tone
  | .note octave semitone length =>
    (p.pitch? octave semitone).map fun note => p.tone note length none
  | .portamento start target length =>
    match p.packedPitch? start, p.packedPitch? target with
    | some note, some goal =>
      some (p.tone note length (some { target := goal, ticks := length.toNat }))
    | _, _ => none
  | _ => none

theorem perform_of_playedTone? {p : Player} {command : Command} {tone : Tone}
    (h : p.playedTone? command = some tone) (defined : UInt8 → Bool) :
    p.perform defined command = p.sound tone := by
  cases command with
  | note octave semitone length =>
    obtain ⟨note, hnote, rfl⟩ := Option.map_eq_some_iff.mp h
    simp only [perform, playNote, hnote]
  | portamento start target length =>
    simp only [playedTone?] at h
    split at h
    · rename_i note goal hnote hgoal
      cases h
      simp only [perform, playPortamento, hnote, hgoal]
    · cases h
  | _ => cases h

theorem pitch?_le {p : Player} {octave semitone note : UInt8}
    (h : p.pitch? octave semitone = some note) : note.toNat ≤ 179 := by
  unfold pitch? at h
  split at h
  · exact Pitch.le_highest h
  · cases h

theorem tone_of_playedTone? {p : Player} {command : Command} {tone : Tone}
    (h : p.playedTone? command = some tone) : ∃ note length slide, tone = p.tone note length slide ∧
      note.toNat ≤ 179 ∧ ∀ s ∈ slide, s.target.toNat ≤ 179 ∧ s.ticks = length.toNat := by
  cases command with
  | note octave semitone length =>
    obtain ⟨note, hnote, rfl⟩ := Option.map_eq_some_iff.mp h
    exact ⟨note, length, none, rfl, pitch?_le hnote, by simp⟩
  | portamento start target length =>
    simp only [playedTone?] at h
    split at h
    · rename_i note goal hnote hgoal
      cases h
      refine ⟨note, length, _, rfl, pitch?_le hnote, ?_⟩
      intro slide hslide
      cases hslide
      exact ⟨pitch?_le hgoal, rfl⟩
    · cases h
  | _ => cases h

section Played

variable {p : Player} {command : Command} {tone : Tone}

theorem fits_of_playedTone? (h : p.playedTone? command = some tone) : tone.Fits := by
  obtain ⟨note, length, slide, rfl, hnote, hslide⟩ := tone_of_playedTone? h
  exact ⟨hnote, fun s hs => (hslide s hs).1⟩

theorem gate_of_playedTone? (h : p.playedTone? command = some tone) :
    tone.gate = p.state.gate := by
  obtain ⟨note, length, slide, rfl, -, -⟩ := tone_of_playedTone? h
  rfl

theorem duration_of_playedTone? (h : p.playedTone? command = some tone) : tone.duration ≤ 255 := by
  obtain ⟨note, length, slide, rfl, -, -⟩ := tone_of_playedTone? h
  exact Nat.le_of_lt_succ length.toNat_lt

theorem slide_of_playedTone? (h : p.playedTone? command = some tone) :
    ∀ slide ∈ tone.slide, slide.ticks ≤ tone.duration := by
  obtain ⟨note, length, slide, rfl, -, hslide⟩ := tone_of_playedTone? h
  exact fun s hs => Nat.le_of_eq (hslide s hs).2

end Played

theorem notes_markLoop (p : Player) : p.state.Notes p.markLoop.state := by
  refine ⟨rfl, rfl, rfl, rfl, ?_⟩
  intro tick htick
  rcases Option.or_eq_some_iff.mp htick with hmarked | ⟨-, hnow⟩
  · exact .inl hmarked
  · exact .inr (Option.some.inj hnow).symm

theorem playsNoTone_changeInstrument (defined : UInt8 → Bool) (p : Player) (number : UInt8) :
    p.PlaysNoTone (p.changeInstrument defined number) := by
  unfold changeInstrument
  split
  · exact .notes _ _ (.refl _)
  · rename_i hkind
    have hfits : (Parameter.instrument number).Fits p.kind := by simp [Parameter.Fits, hkind]
    dsimp only
    split
    · exact .changes p.warnings _ fun _ => hfits
    · exact .changes _ _ fun _ => hfits
  · rename_i hkind
    exact .changes p.warnings _ fun _ => by simp [Parameter.Fits, hkind]
  · rename_i hkind
    exact .changes p.warnings _ fun _ => by simp [Parameter.Fits, hkind]

theorem playsNoTone_changePan (p : Player) (operand : UInt8) :
    p.PlaysNoTone (p.changePan operand) := by
  unfold changePan
  split
  · exact .changes p.warnings _ fun _ => trivial
  · exact .notes _ _ (.refl _)

theorem playsNoTone_changeEnvelope (p : Player) (envelope : Envelope) :
    p.PlaysNoTone (p.changeEnvelope envelope) := by
  unfold changeEnvelope
  split
  · rename_i hkind
    exact .changes p.warnings _ fun _ => hkind
  · exact .notes _ _ (.refl _)

theorem playsNoTone_perform {p : Player} {command : Command} (h : p.playedTone? command = none)
    (defined : UInt8 → Bool) : p.PlaysNoTone (p.perform defined command) := by
  cases command with
  | note octave semitone length =>
    simp only [perform, playNote, Option.map_eq_none_iff.mp h]
    split
    · exact .rests _ _
    · exact .rests _ _
  | portamento start target length =>
    simp only [playedTone?] at h
    simp only [perform, playPortamento]
    split
    · rename_i hnote hgoal
      simp [hnote, hgoal] at h
    · exact .rests _ _
  | rest length => exact .rests p.warnings _
  | instrument number => exact p.playsNoTone_changeInstrument defined number
  | volume value => exact .changes p.warnings _ fun _ => p.state.fits_fitVolume _
  | volumeUp | volumeUpBy => exact .changes p.warnings _ fun _ => p.state.fits_fitVolume _
  | volumeDown | volumeDownBy => exact .changes p.warnings _ fun h => PartState.fits_softer h _
  | tempo c => exact .changes p.warnings _ fun _ => p.state.settings.tempo.one_le_change c
  | detune | detuneBy => exact .changes p.warnings _ fun _ => trivial
  | pan operand => exact p.playsNoTone_changePan operand
  | envelope e => exact p.playsNoTone_changeEnvelope e
  | songLoop => exact .notes p.warnings _ p.notes_markLoop
  | _ => exact .notes _ _ ⟨rfl, rfl, rfl, rfl, fun _ => .inl⟩

end Player

namespace Machine

variable {defined : UInt8 → Bool}

/-- The tone that the next instruction plays. -/
def playedTone? (m : Machine) : Option Tone :=
  match Command.read m.player.kind m.cursor with
  | .ok (i, _) => m.player.playedTone? i.command
  | .error _ => none

theorem exists_of_playedTone? {m : Machine} {tone : Tone} (h : m.playedTone? = some tone) :
    ∃ command, m.player.playedTone? command = some tone := by
  unfold playedTone? at h
  split at h
  · exact ⟨_, h⟩
  · cases h

theorem step_of_playedTone? {m : Machine} {tone : Tone} (h : m.playedTone? = some tone)
    (defined : UInt8 → Bool) : ∃ c, m.step defined = .running ⟨c, m.loops, m.player.sound tone⟩ := by
  unfold playedTone? at h
  split at h
  · rename_i i c hread
    have hsteers : i.command.steers = false := by
      cases hcommand : i.command with
      | trackEnd | loopStart | loopEnd | loopBreak =>
        rw [hcommand] at h
        cases h
      | _ => rfl
    refine ⟨c, ?_⟩
    rw [← Player.perform_of_playedTone? h defined]
    unfold step
    dsimp only
    rw [hread]
    exact execute_of_not_steers hsteers _ _ _ _
  · cases h

theorem playsNoTone_of_step {m next : Machine} (h : m.step defined = .running next)
    (htone : m.playedTone? = none) : m.player.PlaysNoTone next.player := by
  obtain ⟨i, c, hread, ⟨-, hplayer⟩ | ⟨-, hsteers⟩⟩ := performs_or_steers_of_step h
  · rw [playedTone?, hread] at htone
    rw [hplayer]
    exact Player.playsNoTone_perform htone defined
  · generalize next.player = later at hsteers ⊢
    cases hsteers with
    | silent => exact .notes _ _ (.refl _)
    | unsupported feature _ => exact .notes _ _ (.refl _)

/-- All that a step does to the player: it plays a tone, or it does something without one. -/
theorem playsNoTone_or_sounds_of_step {m next : Machine} (h : m.step defined = .running next) :
    m.playedTone? = none ∧ m.player.PlaysNoTone next.player ∨
      ∃ command tone, m.playedTone? = some tone ∧ m.player.playedTone? command = some tone ∧
        next.player = m.player.sound tone := by
  cases htone : m.playedTone? with
  | none => exact .inl ⟨rfl, playsNoTone_of_step h htone⟩
  | some tone =>
    obtain ⟨command, hcommand⟩ := exists_of_playedTone? htone
    obtain ⟨c, hplayed⟩ := step_of_playedTone? htone defined
    cases hplayed.symm.trans h
    exact .inr ⟨command, tone, rfl, hcommand, rfl⟩

theorem performs_of_step {m next : Machine} (h : m.step defined = .running next) :
    m.player.Performs next.player := by
  rcases playsNoTone_or_sounds_of_step h with ⟨-, hnone⟩ | ⟨command, tone, -, hcommand, hnext⟩
  · exact hnone.performs
  · rw [hnext]
    exact .sounds tone (Player.fits_of_playedTone? hcommand)

/-- What holds of a player at the start of a part, and is kept by all that a command can do, holds of
it between any two instructions. -/
theorem player_keeps {P : Player → Prop} {part : Part} {c : Cursor} {n : Nat} {m : Machine}
    (h : (start part c).after? defined n = some m) (hstart : P (.start part))
    (hperforms : ∀ {p later : Player}, P p → p.Performs later → P later) : P m.player :=
  after?_keeps (P := fun _ m => P m.player) (k := 0) h hstart
    fun hp hrun => hperforms hp (performs_of_step hrun)

end Machine

end ChipScore
