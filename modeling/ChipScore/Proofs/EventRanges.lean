import ChipScore.Proofs.CommandEffects
import ChipScore.Proofs.LoopStack
import ChipScore.Proofs.Timing

/-!
# Timelines stay in range

Notes and settings are reached by steps up and down from wherever a part stands, in loops as often as
a score likes. Every value that gets into a timeline is one that the tracker has all the same.
-/

namespace ChipScore

def Action.Fits (kind : PartKind) : Action → Prop
  | noteOn tone | tie tone => tone.Fits
  | rest _ => True
  | change parameter => parameter.Fits kind

theorem Action.Fits.mapTone {kind : PartKind} {f : Tone → Tone} {a : Action} (h : a.Fits kind)
    (hf : ∀ tone : Tone, tone.Fits → (f tone).Fits) : (a.mapTone f).Fits kind := by
  cases a with
  | noteOn tone | tie tone => exact hf tone h
  | rest | change => exact h

theorem Settings.Fits.apply {kind : PartKind} {s : Settings} {parameter : Parameter}
    (h : s.Fits kind) (hparameter : parameter.Fits kind) : (s.apply parameter).Fits kind := by
  cases parameter with
  | volume value => exact ⟨hparameter, h.tempo⟩
  | tempo t => exact ⟨h.volume, hparameter⟩
  | _ => exact ⟨h.volume, h.tempo⟩

/-! ## Players -/

namespace Player

variable {kind : PartKind} {p later : Player}

/-- What a player has played and set so far is in range. -/
structure Fits (kind : PartKind) (p : Player) : Prop where
  kind_eq : p.kind = kind
  events : ∀ e ∈ p.events, e.action.Fits kind
  settings : p.state.settings.Fits kind

theorem fits_start (part : Part) : (start part).Fits part.kind :=
  ⟨rfl, by simp [start], Settings.fits_start _⟩

theorem Fits.free (h : p.Fits kind) : ({ p with state.tiePending := false } : Player).Fits kind :=
  ⟨h.kind_eq, h.events, h.settings⟩

theorem Fits.emit (h : p.Fits kind) (action : Action) (haction : action.Fits kind) :
    (p.emit action).Fits kind := by
  refine ⟨h.kind_eq, ?_, h.settings⟩
  intro e he
  rcases Array.mem_push.mp he with he | rfl
  · exact h.events e he
  · exact haction

theorem Fits.mapSounding (h : p.Fits kind) {f : Tone → Tone}
    (hf : ∀ tone : Tone, tone.Fits → (f tone).Fits) : (p.mapSounding f).Fits kind := by
  unfold Player.mapSounding
  split
  · rename_i index _
    refine ⟨h.kind_eq, ?_, h.settings⟩
    intro e he
    obtain ⟨n, hn, rfl⟩ := Array.mem_iff_getElem.mp he
    rw [Array.size_modify] at hn
    have hfits := h.events p.events[n] (Array.getElem_mem hn)
    rw [Array.getElem_modify]
    split
    · exact hfits.mapTone hf
    · exact hfits
  · exact h

theorem Fits.sound (h : p.Fits kind) {tone : Tone} (htone : tone.Fits) :
    (p.sound tone).Fits kind := by
  simp only [Player.sound]
  split_ifs
  · obtain ⟨hkind, hevents, hsettings⟩ := h.free.mapSounding
      (f := fun t => { t with duration := t.duration + tone.duration, gate := tone.gate })
      fun _ ht => ht
    exact ⟨hkind, hevents, hsettings⟩
  · have hheld := h.free.mapSounding (f := fun t => { t with gate := .full }) fun _ ht => ht
    obtain ⟨hkind, hevents, hsettings⟩ := hheld.emit (.tie tone) htone
    exact ⟨hkind, hevents, hsettings⟩
  · obtain ⟨hkind, hevents, hsettings⟩ := h.free.emit (.noteOn tone) htone
    exact ⟨hkind, hevents, hsettings⟩

theorem Fits.performs (h : p.Fits kind) (hperforms : p.Performs later) : later.Fits kind := by
  cases hperforms with
  | changes ws parameter fits =>
    rw [h.kind_eq] at fits
    -- A relative change stays in range because the settings before it are.
    have hparameter := fits h.settings
    obtain ⟨hkind, hevents, -⟩ := h.emit (.change parameter) hparameter
    exact ⟨hkind, hevents, h.settings.apply hparameter⟩
  | sounds tone fits => exact h.sound fits
  | rests ws duration =>
    obtain ⟨hkind, hevents, hsettings⟩ := h.emit (.rest duration) trivial
    exact ⟨hkind, hevents, hsettings⟩
  | notes ws state part settings =>
    refine ⟨(congrArg Part.kind part).trans h.kind_eq, h.events, ?_⟩
    rw [settings]
    exact h.settings

end Player

/-! ## Whole parts -/

open Machine

/-- Whenever a part can be played, all that its timeline holds is in range, and the part ends outside
all loops, at the tick at which the timeline ends. -/
theorem fits_of_play {part : Part} {defined : UInt8 → Bool} {c : Cursor} {t : Timeline}
    {ws : Warnings} (h : play part defined c = (.ok t, ws)) :
    (∀ e ∈ t.events, e.action.Fits part.kind) ∧ t.state.settings.Fits part.kind ∧
      ∃ final, Ends defined maxInstructions (.start part c) final ∧
        final.player.events.toList = t.events ∧ final.player.state = t.state ∧
        final.loops = [] ∧ final.player.state.tick = t.endTick := by
  obtain ⟨final, hends⟩ := ends_of_play h
  rw [play_of_ends hends, events_finish, state_finish] at h
  cases h
  obtain ⟨n, last, -, hlast, hend, hloops, hplayer⟩ := hends.after?
  have hfits : last.player.Fits part.kind :=
    player_keeps hlast (Player.fits_start part) Player.Fits.performs
  have hkept : LoopsKept part.kind c.stop last :=
    after?_keeps (P := fun _ => LoopsKept part.kind c.stop) (k := 0) hlast
      (loopsKept_start part c) LoopsKept.step
  rw [← hplayer] at hfits
  refine ⟨?_, hfits.settings, final, hends, rfl, rfl, ?_, rfl⟩
  · intro e he
    exact hfits.events e (Array.mem_toList_iff.mp he)
  · rw [hloops]
    exact hkept.loops_eq_nil hend

/-- A transposition up to the highest note and a slide up to it, one more step up, a tempo far below
the lowest one, and a volume above the full one. -/
def outermostValues : List UInt8 :=
  [0xE7, 12, 0x7B, 24, 0xDA, 0x70, 0x7B, 12, 0xE7, 1, 0x7B, 6, 0xFC, 0xFD, 0x80, 0xFD, 200, 0x80]

theorem fits_of_play_outermostValues :
    ∃ t ws, play ⟨6⟩ (fun _ => false) (.ofList outermostValues) = (.ok t, ws) ∧
      t.events.map Event.note? = [some 179, some 168, none, none, none] ∧
      t.state.settings = { volume := 15, tempo := ⟨1⟩ } ∧
      (∀ e ∈ t.events, e.action.Fits .ssg) ∧ t.state.settings.Fits .ssg := by
  have hplayed : (play ⟨6⟩ (fun _ => false) (.ofList outermostValues)).1.toOption.map
      (fun t => (t.events.map Event.note?, t.state.settings)) =
      some ([some 179, some 168, none, none, none], { volume := 15, tempo := ⟨1⟩ }) := by
    decide +kernel
  match h : play ⟨6⟩ (fun _ => false) (.ofList outermostValues) with
  | (.ok t, ws) =>
    rw [h] at hplayed
    obtain ⟨hnotes, hsettings⟩ := Prod.mk.inj (Option.some.inj hplayed)
    obtain ⟨hevents, hstate, -⟩ := fits_of_play h
    exact ⟨t, ws, rfl, hnotes, hsettings, hevents, hstate⟩
  | (.error e, ws) =>
    rw [h] at hplayed
    cases hplayed

end ChipScore
