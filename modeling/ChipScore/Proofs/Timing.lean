import ChipScore.Proofs.CommandEffects

/-!
# Timelines have no gaps

The notes, ties and rests of a timeline follow each other without a gap or an overlap, from tick zero
to its end. Ties make an earlier event longer while other events stand behind it already, so this
rests on what the sounding event is: always the last one that takes time.
-/

namespace ChipScore

/-! ## Events that take time -/

/-- How long an action lasts. A change of settings takes no time. -/
def Action.duration? : Action → Option Nat
  | noteOn tone | tie tone => some tone.duration
  | rest duration => some duration
  | change _ => none

/-- The start and the length of an event that takes time. -/
def Event.span? (e : Event) : Option (Nat × Nat) := e.action.duration?.map fun d => (e.tick, d)

def spans (events : List Event) : List (Nat × Nat) := events.filterMap Event.span?

/-- Spans that follow each other from one tick to another, each starting where the one before it
ends. -/
def Tiles : Nat → List (Nat × Nat) → Nat → Prop
  | start, [], stop => start = stop
  | start, (tick, duration) :: rest, stop => tick = start ∧ Tiles (start + duration) rest stop

theorem tiles_append {start stop : Nat} (first second : List (Nat × Nat)) :
    Tiles start (first ++ second) stop ↔ ∃ mid, Tiles start first mid ∧ Tiles mid second stop := by
  induction first generalizing start with
  | nil => simp [Tiles]
  | cons span first ih =>
    simp only [List.cons_append, Tiles, ih, and_assoc, exists_and_left]

theorem Tiles.le_stop {start stop : Nat} {l : List (Nat × Nat)} (h : Tiles start l stop) :
    start ≤ stop ∧ ∀ span ∈ l, span.1 + span.2 ≤ stop := by
  induction l generalizing start with
  | nil =>
    cases h
    simp
  | cons span l ih =>
    obtain ⟨htick, hrest⟩ := h
    obtain ⟨hstop, hspans⟩ := ih hrest
    rw [List.forall_mem_cons]
    refine ⟨by omega, ?_, hspans⟩
    rw [htick]
    exact hstop

theorem tiles_singleton {start stop tick duration : Nat} :
    Tiles start [(tick, duration)] stop ↔ tick = start ∧ start + duration = stop := by
  simp [Tiles]

/-- A slide does not last longer than its tone. -/
def Action.SlideFits (a : Action) : Prop :=
  ∀ tone ∈ a.tone?, ∀ slide ∈ tone.slide, slide.ticks ≤ tone.duration

/-- The events fill the time up to a tick. -/
structure Fills (events : List Event) (stop : Nat) : Prop where
  tiles : Tiles 0 (spans events) stop
  sorted : (events.map Event.tick).Pairwise (· ≤ ·)
  tick_le : ∀ tick ∈ events.map Event.tick, tick ≤ stop
  slide_le : ∀ e ∈ events, e.action.SlideFits

/-- The event at an index has a tone, and no later one takes time. -/
def LastTone (events : List Event) (index : Nat) : Prop :=
  ∃ before tick action after, events = before ++ ⟨tick, action⟩ :: after ∧ before.length = index ∧
    action.tone?.isSome ∧ spans after = []

section Fills

variable {events before after : List Event} {stop tick index : Nat} {action : Action}

theorem spans_append (first second : List Event) :
    spans (first ++ second) = spans first ++ spans second :=
  List.filterMap_append

theorem spans_cons (e : Event) (events : List Event) :
    spans (e :: events) = e.span?.toList ++ spans events := by
  unfold spans
  rw [List.filterMap_cons]
  cases e.span? <;> rfl

theorem fills_nil : Fills [] 0 := by
  constructor <;> simp [Tiles, spans]

theorem Fills.push (h : Fills events stop) (hslide : action.SlideFits) :
    Fills (events ++ [⟨stop, action⟩]) (stop + action.duration?.getD 0) := by
  constructor
  · rw [spans_append, tiles_append]
    refine ⟨stop, h.tiles, ?_⟩
    cases hduration : action.duration? with
    | none => simp [spans, Event.span?, hduration, Tiles]
    | some duration => simp [spans, Event.span?, hduration, Tiles]
  · rw [List.map_append, List.pairwise_append]
    refine ⟨h.sorted, List.pairwise_singleton _ _, ?_⟩
    intro tick htick new hnew
    rw [List.mem_singleton.mp hnew]
    exact h.tick_le tick htick
  · rw [List.map_append, List.forall_mem_append]
    refine ⟨?_, by simp⟩
    intro tick htick
    exact Nat.le_trans (h.tick_le tick htick) (Nat.le_add_right _ _)
  · rw [List.forall_mem_append]
    exact ⟨h.slide_le, by simpa using hslide⟩

theorem Fills.stretch (h : Fills (before ++ ⟨tick, action⟩ :: after) stop)
    (hafter : spans after = []) {duration more : Nat} (hduration : action.duration? = some duration)
    {longer : Action} (hlonger : longer.duration? = some (duration + more))
    (hslide : longer.SlideFits) : Fills (before ++ ⟨tick, longer⟩ :: after) (stop + more) := by
  have hticks : (before ++ ⟨tick, longer⟩ :: after).map Event.tick =
      (before ++ ⟨tick, action⟩ :: after).map Event.tick := by
    simp
  constructor
  · have htiles := h.tiles
    rw [spans_append, tiles_append] at htiles ⊢
    obtain ⟨mid, hbefore, hlast⟩ := htiles
    refine ⟨mid, hbefore, ?_⟩
    simp only [spans_cons, Event.span?, hduration, hlonger, hafter, Option.map_some,
      Option.toList_some, List.append_nil, tiles_singleton] at hlast ⊢
    omega
  · rw [hticks]
    exact h.sorted
  · rw [hticks]
    intro t ht
    exact Nat.le_trans (h.tick_le t ht) (Nat.le_add_right _ _)
  · have hslides := h.slide_le
    rw [List.forall_mem_append, List.forall_mem_cons] at hslides ⊢
    exact ⟨hslides.1, hslide, hslides.2.2⟩

end Fills

/-! ## The last tone -/

section LastTone

variable {events : List Event} {index tick : Nat} {action : Action}

theorem lastTone_push (events : List Event) (tick : Nat) (h : action.tone?.isSome) :
    LastTone (events ++ [⟨tick, action⟩]) events.length :=
  ⟨events, tick, action, [], rfl, rfl, h, rfl⟩

theorem LastTone.push (h : LastTone events index) (haction : action.duration? = none) :
    LastTone (events ++ [⟨tick, action⟩]) index := by
  obtain ⟨before, t, a, after, rfl, hindex, htone, hafter⟩ := h
  refine ⟨before, t, a, after ++ [⟨tick, action⟩], by simp, hindex, htone, ?_⟩
  rw [spans_append, hafter]
  simp [spans, Event.span?, haction]

theorem tone?_mapTone (f : Tone → Tone) (a : Action) : (a.mapTone f).tone? = a.tone?.map f := by
  cases a <;> rfl

theorem isNoteOn_mapTone (f : Tone → Tone) (a : Action) : (a.mapTone f).isNoteOn = a.isNoteOn := by
  cases a <;> rfl

theorem duration?_of_tone? {a : Action} {tone : Tone} (h : a.tone? = some tone) :
    a.duration? = some tone.duration := by
  cases a <;> first | cases h; rfl | cases h

theorem Event.span?_of_tone? {e : Event} {tone : Tone} (h : e.tone? = some tone) :
    e.span? = some (e.tick, tone.duration) := by
  rw [span?, duration?_of_tone? h]
  rfl

theorem modify_length (before after : List Event) (e : Event) (f : Event → Event) :
    (before ++ e :: after).modify before.length f = before ++ f e :: after := by
  induction before with
  | nil => rfl
  | cons b before ih => rw [List.cons_append, List.length_cons, List.modify_succ_cons, ih]; rfl

theorem Fills.modify {f : Tone → Tone} {stop more : Nat} (h : Fills events stop)
    (hlast : LastTone events index) (hduration : ∀ tone, (f tone).duration = tone.duration + more)
    (hslide : ∀ tone, (f tone).slide = tone.slide) :
    Fills (events.modify index (Event.mapTone f)) (stop + more) ∧
      LastTone (events.modify index (Event.mapTone f)) index ∧
      (events.modify index (Event.mapTone f)).countP (·.action.isNoteOn) =
        events.countP (·.action.isNoteOn) := by
  obtain ⟨before, t, a, after, rfl, rfl, htone, hafter⟩ := hlast
  obtain ⟨tone, htone⟩ := Option.isSome_iff_exists.mp htone
  have hmapped : (a.mapTone f).tone? = some (f tone) := by
    rw [tone?_mapTone, htone]
    rfl
  rw [modify_length]
  refine ⟨h.stretch hafter (duration?_of_tone? htone) ?_ ?_,
    ⟨before, t, _, after, rfl, rfl, ?_, hafter⟩, ?_⟩
  · rw [duration?_of_tone? hmapped, hduration]
  · intro tone' htone' slide hs
    rw [hmapped] at htone'
    cases htone'
    rw [hslide] at hs
    have hle := h.slide_le ⟨t, a⟩ (by simp) tone htone slide hs
    rw [hduration]
    omega
  · rw [hmapped]
    rfl
  · simp only [List.countP_append, List.countP_cons, Event.mapTone, isNoteOn_mapTone]

end LastTone

/-! ## Players -/

namespace Player

/-- What every command keeps of a player's events. -/
structure Timed (p : Player) : Prop where
  fills : Fills p.events.toList p.state.tick
  sounding : ∀ index ∈ p.sounding, LastTone p.events.toList index
  loopTick_le : ∀ tick ∈ p.state.loopTick, tick ≤ p.state.tick
  noteCount_eq : p.state.noteCount = p.events.toList.countP (·.action.isNoteOn)

theorem timed_start (part : Part) : (start part).Timed := by
  constructor
  · exact fills_nil
  · intro index h
    cases h
  · intro tick h
    cases h
  · rfl

section Timed

variable {p : Player}

theorem Timed.emit (h : p.Timed) (action : Action) (sounding : Option Nat)
    (hslide : action.SlideFits)
    (hsounding : ∀ index ∈ sounding, LastTone (p.events.toList ++ [⟨p.state.tick, action⟩]) index) :
    (({ p with
        sounding
        state.noteCount := p.state.noteCount + if action.isNoteOn then 1 else 0 }.emit action).advance
      (action.duration?.getD 0)).Timed := by
  have hevents : (p.events.push ⟨p.state.tick, action⟩).toList =
      p.events.toList ++ [⟨p.state.tick, action⟩] := Array.toList_push
  constructor
  · change Fills (p.events.push _).toList _
    rw [hevents]
    exact h.fills.push hslide
  · intro index hindex
    change LastTone (p.events.push _).toList index
    rw [hevents]
    exact hsounding index hindex
  · intro tick htick
    exact Nat.le_trans (h.loopTick_le tick htick) (Nat.le_add_right _ _)
  · change _ = (p.events.push _).toList.countP _
    rw [hevents, List.countP_append, ← h.noteCount_eq, List.countP_singleton]
    rfl

theorem Timed.change (h : p.Timed) (parameter : Parameter) : (p.change parameter).Timed := by
  have hset : Timed { p with state.settings := p.state.settings.apply parameter } :=
    ⟨h.fills, h.sounding, h.loopTick_le, h.noteCount_eq⟩
  apply hset.emit (.change parameter) p.sounding
  · simp [Action.SlideFits, Action.tone?]
  · intro index hindex
    exact (h.sounding index hindex).push rfl

theorem Timed.free (h : p.Timed) : Timed { p with state.tiePending := false } :=
  ⟨h.fills, h.sounding, h.loopTick_le, h.noteCount_eq⟩

theorem Timed.rest (h : p.Timed) (duration : Nat) : (p.rest duration).Timed := by
  apply h.free.emit (.rest duration) none
  · simp [Action.SlideFits, Action.tone?]
  · simp

theorem Timed.key (h : p.Timed) {tone : Tone} (hslide : (Action.noteOn tone).SlideFits) :
    (p.key tone).Timed := by
  apply h.emit (.noteOn tone) (some p.events.size) hslide
  intro index hindex
  cases hindex
  exact lastTone_push _ _ rfl

theorem Timed.stretch (h : p.Timed) (hsome : p.sounding.isSome) {f : Tone → Tone} {m : Nat}
    (hduration : ∀ tone, (f tone).duration = tone.duration + m)
    (hslide : ∀ tone, (f tone).slide = tone.slide) :
    ((p.mapSounding f).advance m).Timed := by
  obtain ⟨index, hindex⟩ := Option.isSome_iff_exists.mp hsome
  obtain ⟨hfills, hlast, hcount⟩ := h.fills.modify (h.sounding index hindex) hduration hslide
  simp only [mapSounding, hindex]
  constructor
  · change Fills (p.events.modify _ _).toList _
    rw [Array.toList_modify]
    exact hfills
  · intro other hother
    change LastTone (p.events.modify _ _).toList other
    rw [Array.toList_modify]
    cases hother
    exact hlast
  · intro tick htick
    exact Nat.le_trans (h.loopTick_le tick htick) (Nat.le_add_right _ _)
  · change _ = (p.events.modify _ _).toList.countP _
    rw [Array.toList_modify, hcount]
    exact h.noteCount_eq

theorem Timed.extend (h : p.Timed) (hsome : p.sounding.isSome) (tone : Tone) :
    (p.extend tone).Timed :=
  h.stretch hsome (fun _ => rfl) fun _ => rfl

theorem Timed.continueWith (h : p.Timed) (hsome : p.sounding.isSome) {tone : Tone}
    (hslide : (Action.tie tone).SlideFits) : (p.continueWith tone).Timed := by
  have hheld : (p.mapSounding fun t => { t with gate := .full }).Timed :=
    h.stretch (m := 0) hsome (fun _ => rfl) fun _ => rfl
  apply hheld.emit (.tie tone) (some _) hslide
  intro index hindex
  cases hindex
  exact lastTone_push _ _ rfl

theorem Timed.sound (h : p.Timed) {tone : Tone}
    (hslide : ∀ slide ∈ tone.slide, slide.ticks ≤ tone.duration) : (p.sound tone).Timed := by
  have hfits : ∀ a : Action, a.tone? = some tone → a.SlideFits := by
    intro a ha t ht
    cases ha.symm.trans ht
    exact hslide
  simp only [Player.sound]
  split_ifs with htied hsame
  · exact h.free.extend htied.2 tone
  · exact h.free.continueWith htied.2 (hfits (.tie tone) rfl)
  · exact h.free.key (hfits (.noteOn tone) rfl)

theorem Timed.notes (h : p.Timed) (ws : Warnings) {state : PartState}
    (noted : p.state.Notes state) : Timed { p with warnings := ws, state } := by
  constructor
  · rw [noted.tick]
    exact h.fills
  · exact h.sounding
  · intro tick htick
    rw [noted.tick]
    rcases noted.loopTick tick htick with hmarked | rfl
    · exact h.loopTick_le tick hmarked
    · exact Nat.le_refl _
  · rw [noted.noteCount]
    exact h.noteCount_eq

theorem Timed.warned (h : p.Timed) (ws : Warnings) : Timed { p with warnings := ws } :=
  h.notes ws (.refl _)

theorem tick_sound (p : Player) (tone : Tone) :
    (p.sound tone).state.tick = p.state.tick + tone.duration := by
  simp only [Player.sound]
  split_ifs
  · simp [Player.extend, advance]
  · simp [Player.continueWith, advance]
  · rfl

theorem Timed.playsNoTone {later : Player} (h : p.Timed) (hp : p.PlaysNoTone later) :
    later.Timed ∧ later.state.tick ≤ p.state.tick + 255 := by
  cases hp with
  | changes ws parameter _ => exact ⟨(h.warned ws).change parameter, Nat.le_add_right _ _⟩
  | rests ws length =>
    have hbyte : length.toNat ≤ 255 := Nat.le_of_lt_succ length.toNat_lt
    exact ⟨(h.warned ws).rest length.toNat, Nat.add_le_add_left hbyte _⟩
  | notes ws state noted =>
    refine ⟨h.notes ws noted, ?_⟩
    rw [noted.tick]
    exact Nat.le_add_right _ _

theorem Timed.played {command : Command} {tone : Tone} (h : p.Timed)
    (htone : p.playedTone? command = some tone) :
    (p.sound tone).Timed ∧ (p.sound tone).state.tick ≤ p.state.tick + 255 := by
  refine ⟨h.sound (slide_of_playedTone? htone), ?_⟩
  rw [tick_sound]
  exact Nat.add_le_add_left (duration_of_playedTone? htone) _

end Timed

end Player

/-! ## Whole parts -/

namespace Machine

variable {defined : UInt8 → Bool}

/-- After some instructions the events have no gaps, and each instruction took as many ticks as fit
in a byte, at the most. -/
structure TimedAfter (n : Nat) (m : Machine) : Prop where
  timed : m.player.Timed
  tick_le : m.player.state.tick ≤ 255 * n

theorem timedAfter_start (part : Part) (c : Cursor) : TimedAfter 0 (start part c) :=
  ⟨Player.timed_start part, Nat.le_refl 0⟩

theorem timed_of_step {m next : Machine} (h : m.player.Timed)
    (hrun : m.step defined = .running next) :
    next.player.Timed ∧ next.player.state.tick ≤ m.player.state.tick + 255 := by
  rcases playsNoTone_or_sounds_of_step hrun with ⟨-, hnone⟩ | ⟨command, tone, -, hcommand, hnext⟩
  · exact h.playsNoTone hnone
  · rw [hnext]
    exact h.played hcommand

theorem TimedAfter.step {n : Nat} {m next : Machine} (h : TimedAfter n m)
    (hrun : m.step defined = .running next) : TimedAfter (n + 1) next := by
  obtain ⟨htimed, htick⟩ := timed_of_step h.timed hrun
  have hle := h.tick_le
  refine ⟨htimed, ?_⟩
  omega

@[simp] theorem events_finish (m : Machine) : m.finish.events = m.player.events := by
  simp only [finish]
  split_ifs <;> rfl

@[simp] theorem state_finish (m : Machine) : m.finish.state = m.player.state := by
  simp only [finish]
  split_ifs <;> rfl

end Machine

/-- No number that is made of the event's tick with a length or a slide of its tone overflows 32
bits. -/
def Event.FitsWord (e : Event) : Prop :=
  ∀ tone ∈ e.tone?, e.tick + tone.duration < UInt32.size ∧ e.tick + 1 < UInt32.size ∧
    (∀ eighths < 8, tone.duration * eighths < UInt32.size) ∧
    ∀ slide ∈ tone.slide, e.tick + slide.ticks < UInt32.size

/-- A timeline whose notes, ties and rests fill the time from zero to its end. -/
structure Timeline.Gapless (t : Timeline) : Prop where
  tiles : Tiles 0 (spans t.events) t.endTick
  sorted : t.events.Pairwise (·.tick ≤ ·.tick)
  tick_le : ∀ e ∈ t.events, e.tick ≤ t.endTick
  loopTick_le : ∀ tick ∈ t.loopTick, tick ≤ t.endTick
  noteCount_eq : t.state.noteCount = t.noteCount
  endTick_le : t.endTick ≤ 255 * Machine.maxInstructions
  fitsWord : ∀ e ∈ t.events, e.FitsWord

open Machine

theorem Fills.fitsWord {events : List Event} {stop : Nat} (h : Fills events stop)
    (hstop : stop ≤ 255 * maxInstructions) : ∀ e ∈ events, e.FitsWord := by
  intro e he tone htone
  have hspan : (e.tick, tone.duration) ∈ spans events :=
    List.mem_filterMap.mpr ⟨e, he, Event.span?_of_tone? htone⟩
  have hend : e.tick + tone.duration ≤ stop := h.tiles.le_stop.2 _ hspan
  have hslides := h.slide_le e he tone htone
  have hword : 255 * maxInstructions * 8 + 1 < UInt32.size := by decide
  refine ⟨by omega, by omega, ?_, ?_⟩
  · intro eighths heighths
    have : tone.duration * eighths ≤ tone.duration * 8 := Nat.mul_le_mul_left _ (by omega)
    omega
  · intro slide hslide
    have := hslides slide hslide
    omega

theorem Machine.TimedAfter.gapless {n : Nat} {m : Machine} (h : TimedAfter n m)
    (hn : n ≤ maxInstructions) : (Timeline.mk m.player.events.toList m.player.state).Gapless := by
  obtain ⟨⟨hfills, -, hloop, hcount⟩, htick⟩ := h
  have hend : m.player.state.tick ≤ 255 * maxInstructions :=
    Nat.le_trans htick (Nat.mul_le_mul_left _ hn)
  have hsorted := hfills.sorted
  have hticks := hfills.tick_le
  rw [List.pairwise_map] at hsorted
  rw [List.forall_mem_map] at hticks
  exact ⟨hfills.tiles, hsorted, hticks, hloop, hcount, hend, hfills.fitsWord hend⟩

theorem exists_timedAfter_of_play {part : Part} {defined : UInt8 → Bool} {c : Cursor} {t : Timeline}
    {ws : Warnings} (h : play part defined c = (.ok t, ws)) : ∃ n m, n ≤ maxInstructions ∧
      TimedAfter n m ∧ t = ⟨m.player.events.toList, m.player.state⟩ := by
  obtain ⟨final, hends⟩ := ends_of_play h
  rw [play_of_ends hends, events_finish, state_finish] at h
  cases h
  obtain ⟨n, last, hn, hlast, -, -, hplayer⟩ := hends.after?
  have hafter : TimedAfter (0 + n) last :=
    after?_keeps (P := TimedAfter) hlast (timedAfter_start part c) TimedAfter.step
  rw [Nat.zero_add] at hafter
  exact ⟨n, last, hn, hafter, by rw [hplayer]⟩

/-- Whenever a part can be played, its timeline has no gaps, and is short enough for 32 bits. -/
theorem gapless_of_play {part : Part} {defined : UInt8 → Bool} {c : Cursor} {t : Timeline}
    {ws : Warnings} (h : play part defined c = (.ok t, ws)) : t.Gapless := by
  obtain ⟨n, m, hn, hafter, rfl⟩ := exists_timedAfter_of_play h
  exact hafter.gapless hn

/-- Two passes over a note and a tie, so that the second note goes on with the first one. A change of
volume stands before it, and a slide and a rest come after the loop. -/
def tiedPasses : List UInt8 :=
  [0xF9, 0, 0, 0x40, 24, 0xFB, 0xFD, 100, 0xF8, 2, 0, 0, 0, 0xDA, 0x40, 0x44, 12, 0x0F, 6, 0x80]

theorem gapless_of_play_tiedPasses :
    ∃ t ws, play ⟨0⟩ (fun _ => false) (.ofList tiedPasses) = (.ok t, ws) ∧
      spans t.events = [(0, 48), (48, 12), (60, 6)] ∧ t.Gapless := by
  have hspans : (play ⟨0⟩ (fun _ => false) (.ofList tiedPasses)).1.toOption.map (spans ·.events) =
      some [(0, 48), (48, 12), (60, 6)] := by
    decide +kernel
  match h : play ⟨0⟩ (fun _ => false) (.ofList tiedPasses) with
  | (.ok t, ws) =>
    rw [h] at hspans
    exact ⟨t, ws, rfl, Option.some.inj hspans, gapless_of_play h⟩
  | (.error e, ws) =>
    rw [h] at hspans
    cases hspans

end ChipScore
