import ChipScore.Proofs.CommandEffects
import ChipScore.Proofs.Timing

/-!
# The log of settings

The events of a part are a complete record of its settings. Played back from the start, the changes
among them lead to the settings that the part has, at its end and between any two instructions.
-/

namespace ChipScore

def Action.parameter? : Action → Option Parameter
  | change parameter => some parameter
  | _ => none

/-- The changes among events, in their order. -/
def parameters (events : List Event) : List Parameter := events.filterMap (·.action.parameter?)

/-- The settings to which the events of a part lead. -/
def Settings.replay (kind : PartKind) (events : List Event) : Settings :=
  (parameters events).foldl apply (start kind)

/-! ## Changes among events -/

theorem parameters_cons (e : Event) (events : List Event) :
    parameters (e :: events) = e.action.parameter?.toList ++ parameters events := by
  unfold parameters
  rw [List.filterMap_cons]
  cases e.action.parameter? <;> rfl

theorem parameters_append (first second : List Event) :
    parameters (first ++ second) = parameters first ++ parameters second :=
  List.filterMap_append

theorem parameter?_mapTone (f : Tone → Tone) (a : Action) :
    (a.mapTone f).parameter? = a.parameter? := by
  cases a <;> rfl

theorem parameters_modify (events : List Event) (index : Nat) (f : Tone → Tone) :
    parameters (events.modify index (Event.mapTone f)) = parameters events := by
  induction events generalizing index with
  | nil => cases index <;> rfl
  | cons e events ih =>
    cases index with
    | zero => rw [List.modify_zero_cons, parameters_cons, parameters_cons, Event.mapTone,
        parameter?_mapTone]
    | succ index => rw [List.modify_succ_cons, parameters_cons, parameters_cons, ih]

/-! ## Players -/

namespace Player

variable {kind : PartKind} {p later : Player}

theorem parameters_mapSounding (p : Player) (f : Tone → Tone) :
    parameters (p.mapSounding f).events.toList = parameters p.events.toList := by
  unfold mapSounding
  split
  · rw [Array.toList_modify, parameters_modify]
  · rfl

theorem parameters_emit (p : Player) (action : Action) :
    parameters (p.emit action).events.toList =
      parameters p.events.toList ++ action.parameter?.toList := by
  change parameters (p.events.push _).toList = _
  rw [Array.toList_push, parameters_append, parameters_cons]
  exact congrArg _ (List.append_nil _)

theorem parameters_sound (p : Player) (tone : Tone) :
    parameters (p.sound tone).events.toList = parameters p.events.toList := by
  simp only [sound]
  split_ifs
  · exact parameters_mapSounding _ _
  · have hheld := parameters_mapSounding { p with state.tiePending := false }
      fun t => { t with gate := .full }
    exact (parameters_emit _ (.tie tone)).trans ((List.append_nil _).trans hheld)
  · exact (parameters_emit _ (.noteOn tone)).trans (List.append_nil _)

theorem settings_sound (p : Player) (tone : Tone) :
    (p.sound tone).state.settings = p.state.settings := by
  simp only [sound]
  split_ifs
  · simp [extend, advance]
  · simp [continueWith, advance]
  · rfl

/-- The settings of a player are those that its events lead to. -/
structure Logged (kind : PartKind) (p : Player) : Prop where
  kind_eq : p.kind = kind
  settings_eq : p.state.settings = Settings.replay kind p.events.toList

theorem logged_start (part : Part) : (start part).Logged part.kind := ⟨rfl, rfl⟩

theorem Logged.performs (h : p.Logged kind) (hperforms : p.Performs later) :
    later.Logged kind := by
  refine ⟨hperforms.kind_eq.trans h.kind_eq, ?_⟩
  have hsettings := h.settings_eq
  unfold Settings.replay at hsettings ⊢
  cases hperforms with
  | changes ws parameter _ =>
    have hlog : parameters ({ p with warnings := ws }.change parameter).events.toList =
        parameters p.events.toList ++ [parameter] :=
      parameters_emit _ (.change parameter)
    rw [hlog, List.foldl_append, ← hsettings]
    rfl
  | sounds tone _ => rw [settings_sound, parameters_sound, hsettings]
  | rests ws duration =>
    have hlog : parameters ({ p with warnings := ws }.rest duration).events.toList =
        parameters p.events.toList ++ [] :=
      parameters_emit _ (.rest duration)
    rw [hlog, List.append_nil, ← hsettings]
    rfl
  | notes ws state part settings => exact settings.trans hsettings

end Player

/-! ## Whole parts -/

open Machine

/-- The events so far give the settings after any number of instructions, and those of a timeline
give the settings at its end. -/
theorem settings_eq_replay (part : Part) (defined : UInt8 → Bool) (c : Cursor) :
    (∀ n m, (Machine.start part c).after? defined n = some m →
      m.player.state.settings = .replay part.kind m.player.events.toList) ∧
    ∀ t ws, play part defined c = (.ok t, ws) →
      t.state.settings = .replay part.kind t.events := by
  have hlogged : ∀ n m, (Machine.start part c).after? defined n = some m →
      m.player.Logged part.kind :=
    fun n m hm => player_keeps hm (Player.logged_start part) Player.Logged.performs
  refine ⟨fun n m hm => (hlogged n m hm).settings_eq, ?_⟩
  intro t ws hplay
  obtain ⟨final, hends⟩ := ends_of_play hplay
  rw [play_of_ends hends, events_finish, state_finish] at hplay
  cases hplay
  obtain ⟨n, last, -, hlast, -, -, hplayer⟩ := hends.after?
  rw [hplayer]
  exact (hlogged n last hlast).settings_eq

/-- Ten passes over a tied note, each of them louder, faster and higher, up to what a part can do. -/
def risingPasses : List UInt8 :=
  [0xF9, 0, 0, 0xF4, 0x40, 24, 0xFB, 0xFC, 0xFD, 30, 0xD5, 1, 0, 0xF8, 10, 0, 0, 0, 0x80]

theorem settings_eq_replay_risingPasses :
    (∃ m, (Machine.start ⟨6⟩ (.ofList risingPasses)).after? (fun _ => false) 8 = some m ∧
      m.player.state.settings.volume = 10 ∧
      m.player.state.settings = .replay .ssg m.player.events.toList) ∧
    ∃ t ws, play ⟨6⟩ (fun _ => false) (.ofList risingPasses) = (.ok t, ws) ∧
      t.state.settings = { volume := 15, tempo := ⟨255⟩, detune := 10 } ∧
      t.state.settings = .replay .ssg t.events := by
  have hvolume : ((Machine.start ⟨6⟩ (.ofList risingPasses)).after? (fun _ => false) 8).map
      (·.player.state.settings.volume) = some 10 := by
    decide +kernel
  have hsettings : (play ⟨6⟩ (fun _ => false) (.ofList risingPasses)).1.toOption.map
      (·.state.settings) = some { volume := 15, tempo := ⟨255⟩, detune := 10 } := by
    decide +kernel
  obtain ⟨m, hm, hvolume⟩ := Option.map_eq_some_iff.mp hvolume
  obtain ⟨hbetween, hplayed⟩ := settings_eq_replay ⟨6⟩ (fun _ => false) (.ofList risingPasses)
  refine ⟨⟨m, hm, hvolume, hbetween 8 m hm⟩, ?_⟩
  match h : play ⟨6⟩ (fun _ => false) (.ofList risingPasses) with
  | (.ok t, ws) =>
    rw [h] at hsettings
    exact ⟨t, ws, rfl, Option.some.inj hsettings, hplayed t ws h⟩
  | (.error e, ws) =>
    rw [h] at hsettings
    cases hsettings

end ChipScore
