import ChipScore.Proofs.TiedTones

/-!
# Ties hold what they go on with

A tie takes over from the last tone before it, which is held up to the tie whatever its gate was. All
other tones end by the gate that was in force at the last note that was played into them.

The gates of events that stand in the timeline already are written again and again. Only the sounding
tone is written to, and no event after it takes time, so what is known of earlier tones stays true.
-/

namespace ChipScore

def Action.isTie : Action → Bool
  | tie _ => true
  | _ => false

@[simp] theorem isTie_mapTone (f : Tone → Tone) (a : Action) : (a.mapTone f).isTie = a.isTie := by
  cases a <;> rfl

def Event.isTimed (e : Event) : Bool := e.action.duration?.isSome

theorem Event.isTimed_of_tone? {e : Event} {tone : Tone} (h : e.tone? = some tone) :
    e.isTimed = true := by
  rw [isTimed, duration?_of_tone? h]
  rfl

theorem Event.tone?_mapTone (f : Tone → Tone) (e : Event) :
    (e.mapTone f).tone? = e.tone?.map f :=
  ChipScore.tone?_mapTone f e.action

theorem isTimed_eq_false_of_spans {events : List Event} (h : spans events = []) :
    ∀ e ∈ events, e.isTimed = false := by
  intro e he
  have hspan := List.filterMap_eq_nil_iff.mp h e he
  rw [Event.span?, Option.map_eq_none_iff] at hspan
  rw [Event.isTimed, hspan]
  rfl

/-! ## Neighbours in time -/

def lastTimed? (events : List Event) : Option Event := events.reverse.find? Event.isTimed

/-- The next event that takes time is a tie. -/
def tiedOver (after : List Event) : Bool := (after.find? Event.isTimed).any (·.action.isTie)

section Neighbours

variable {before mid after after' : List Event} {e e' : Event}

theorem find?_isTimed_of_spans (h : spans after = []) : after.find? Event.isTimed = none := by
  rw [List.find?_eq_none]
  intro x hx
  rw [isTimed_eq_false_of_spans h x hx]
  exact Bool.false_ne_true

theorem lastTimed?_append_cons (htimed : e.isTimed = true) (h : spans after = []) :
    lastTimed? (before ++ e :: after) = some e := by
  have hafter : after.reverse.find? Event.isTimed = none := by
    apply find?_isTimed_of_spans
    rw [spans, List.filterMap_reverse, ← spans, h, List.reverse_nil]
  rw [lastTimed?, List.reverse_append, List.reverse_cons, List.append_assoc, List.find?_append,
    hafter, Option.none_or, List.singleton_append, List.find?_cons_of_pos htimed]

theorem tiedOver_append (h : tiedOver (mid ++ after) = false) : tiedOver mid = false := by
  unfold tiedOver at h ⊢
  rw [List.find?_append] at h
  cases hmid : mid.find? Event.isTimed with
  | none => rfl
  | some x =>
    rw [hmid] at h
    exact h

theorem tiedOver_append_cons (htimed : e.isTimed = true) (htimed' : e'.isTimed = true)
    (htie : e'.action.isTie = e.action.isTie) :
    tiedOver (mid ++ e' :: after') = tiedOver (mid ++ e :: after) := by
  unfold tiedOver
  rw [List.find?_append, List.find?_append, List.find?_cons_of_pos htimed,
    List.find?_cons_of_pos htimed']
  cases mid.find? Event.isTimed with
  | none => exact htie
  | some x => rfl

theorem tiedOver_append_tie {tone : Tone} {tick : Nat} (h : spans after = []) :
    tiedOver (after ++ [⟨tick, .tie tone⟩]) = true := by
  rw [tiedOver, List.find?_append, find?_isTimed_of_spans h]
  rfl

end Neighbours

/-! ## Notes that are played into events -/

/-- A note that was played: the index of the event that it became part of, and the gate that was in
force. -/
structure Stroke where
  index : Nat
  gate : Gate
  deriving DecidableEq, Repr

def lastStroke? (log : List Stroke) (index : Nat) : Option Stroke :=
  log.reverse.find? (·.index = index)

theorem lastStroke?_snoc_self (log : List Stroke) (s : Stroke) :
    lastStroke? (log ++ [s]) s.index = some s := by
  rw [lastStroke?, List.reverse_append, List.reverse_singleton, List.singleton_append,
    List.find?_cons_of_pos (by simp)]

theorem lastStroke?_snoc_of_ne {s : Stroke} {index : Nat} (h : s.index ≠ index)
    (log : List Stroke) : lastStroke? (log ++ [s]) index = lastStroke? log index := by
  rw [lastStroke?, List.reverse_append, List.reverse_singleton, List.singleton_append,
    List.find?_cons_of_neg (by simpa using h), lastStroke?]

/-- The tie at an event, if it is one, takes over from the last tone before it. That one is held to
its end, and it has another note or the tie slides. -/
def TakesOver (before : List Event) (x : Event) : Prop :=
  ∀ tone, x.action = .tie tone → ∃ e held, lastTimed? before = some e ∧ e.tone? = some held ∧
    e.tick + held.duration = x.tick ∧ held.gate = .full ∧
      (held.note ≠ tone.note ∨ tone.slide.isSome = true)

/-- A tone that no tie takes over ends by the gate of the last note that was played into it. -/
def EndsByLast (log : List Stroke) (before : List Event) (x : Event) (after : List Event) : Prop :=
  ∀ tone, x.tone? = some tone → tiedOver after = false →
    (lastStroke? log before.length).map Stroke.gate = some tone.gate

structure Continues (log : List Stroke) (before : List Event) (x : Event) (after : List Event) :
    Prop where
  takesOver : TakesOver before x
  endsByLast : EndsByLast log before x after

section Continues

variable {log : List Stroke} {s : Stroke} {before mid after after' : List Event} {x e : Event}

theorem continues_of_untimed (h : x.isTimed = false) : Continues log before x after := by
  constructor
  · intro tone htie
    rw [Event.isTimed, htie] at h
    cases h
  · intro tone htone
    rw [Event.isTimed_of_tone? htone] at h
    cases h

theorem Continues.append (h : Continues log before x after) (more : List Event) :
    Continues log before x (after ++ more) :=
  ⟨h.takesOver, fun tone htone hfree => h.endsByLast tone htone (tiedOver_append hfree)⟩

theorem Continues.snoc (h : Continues log before x after) (hs : s.index ≠ before.length) :
    Continues (log ++ [s]) before x after := by
  refine ⟨h.takesOver, ?_⟩
  intro tone htone hfree
  rw [lastStroke?_snoc_of_ne hs]
  exact h.endsByLast tone htone hfree

theorem Continues.mapTone (h : Continues log before x (mid ++ e :: after)) {held : Tone}
    (htone : e.tone? = some held) (f : Tone → Tone) :
    Continues log before x (mid ++ e.mapTone f :: after') := by
  have hmapped : (e.mapTone f).tone? = some (f held) := by
    rw [Event.tone?_mapTone, htone]
    rfl
  refine ⟨h.takesOver, ?_⟩
  intro tone hx hfree
  apply h.endsByLast tone hx
  rw [← hfree]
  exact tiedOver_append_cons (Event.isTimed_of_tone? hmapped) (Event.isTimed_of_tone? htone)
    (isTie_mapTone f e.action).symm

theorem TakesOver.mapTone (h : TakesOver before x) {f : Tone → Tone}
    (hnote : ∀ tone, (f tone).note = tone.note) (hslide : ∀ tone, (f tone).slide = tone.slide) :
    TakesOver before (x.mapTone f) := by
  intro tone htie
  unfold Event.mapTone at htie
  dsimp only at htie
  cases hx : x.action with
  | tie old =>
    rw [hx] at htie
    cases htie
    obtain ⟨e, held, hlast, hheld, htick, hgate, hnew⟩ := h old hx
    refine ⟨e, held, hlast, hheld, htick, hgate, ?_⟩
    rwa [hnote, hslide]
  | noteOn | rest | change =>
    rw [hx] at htie
    cases htie

end Continues

/-! ## All events -/

/-- Something holds of each event with those before and after it. -/
def Everywhere (Q : List Event → Event → List Event → Prop) (events : List Event) : Prop :=
  ∀ before x after, events = before ++ x :: after → Q before x after

section Everywhere

variable {Q : List Event → Event → List Event → Prop} {log : List Stroke} {events l r : List Event}
  {x y : Event}

theorem everywhere_nil : Everywhere Q [] := by
  intro before x after h
  simp at h

theorem everywhere_cons : Everywhere Q (y :: r) ↔
    Q [] y r ∧ Everywhere (fun before x after => Q (y :: before) x after) r := by
  constructor
  · intro h
    exact ⟨h [] y r rfl, fun before x after hr => h (y :: before) x after (by rw [hr]; rfl)⟩
  · rintro ⟨hy, hr⟩ before x after h
    rcases List.cons_eq_append_iff.mp h with ⟨rfl, hx⟩ | ⟨before', rfl, hx⟩
    · cases hx
      exact hy
    · exact hr before' x after hx

theorem everywhere_append_cons : Everywhere Q (l ++ y :: r) ↔
    Everywhere (fun before x after => Q before x (after ++ y :: r)) l ∧ Q l y r ∧
      Everywhere (fun before x after => Q (l ++ y :: before) x after) r := by
  induction l generalizing Q with
  | nil =>
    rw [List.nil_append, everywhere_cons]
    exact ⟨fun h => ⟨everywhere_nil, h⟩, fun h => h.2⟩
  | cons z l ih =>
    rw [List.cons_append, everywhere_cons, ih, everywhere_cons, and_assoc]
    rfl

theorem everywhere_push (h : Everywhere (Continues log) events)
    (hx : Continues log events x []) : Everywhere (Continues log) (events ++ [x]) := by
  rw [everywhere_append_cons]
  exact ⟨fun before y after hevents => (h before y after hevents).append [x], hx, everywhere_nil⟩

theorem everywhere_snoc (h : Everywhere (Continues log) events) {s : Stroke}
    (hs : events.length ≤ s.index) : Everywhere (Continues (log ++ [s])) events := by
  intro before y after hevents
  apply (h before y after hevents).snoc
  rw [hevents, List.length_append, List.length_cons] at hs
  omega

theorem everywhere_of_spans (h : spans events = []) {front back : List Event → List Event} :
    Everywhere (fun before x after => Continues log (front before) x (back after)) events := by
  intro before x after hevents
  have hx : x ∈ events := by simp [hevents]
  exact continues_of_untimed (isTimed_eq_false_of_spans h x hx)

end Everywhere

theorem Fills.end_eq {before after : List Event} {e : Event} {held : Tone} {stop : Nat}
    (h : Fills (before ++ e :: after) stop) (htone : e.tone? = some held)
    (hafter : spans after = []) : e.tick + held.duration = stop := by
  have htiles := h.tiles
  rw [spans_append, spans_cons, Event.span?_of_tone? htone, hafter, tiles_append] at htiles
  obtain ⟨start, -, hlast⟩ := htiles
  obtain ⟨htick, hstop⟩ := tiles_singleton.mp hlast
  rw [← htick] at hstop
  exact hstop

/-! ## Players -/

namespace Player

variable {log : List Stroke} {p later : Player} {tone : Tone}

/-- What every command keeps of a player's ties and of the notes that were played. -/
structure TiesHold (log : List Stroke) (p : Player) : Prop where
  everywhere : Everywhere (Continues log) p.events.toList
  index_lt : ∀ s ∈ log, s.index < p.events.toList.length

theorem tiesHold_start (part : Part) : (start part).TiesHold [] := ⟨everywhere_nil, by simp⟩

theorem TiesHold.push (h : p.TiesHold log) {x : Event} (hx : x.tone? = none)
    (hevents : later.events.toList = p.events.toList ++ [x]) : later.TiesHold log := by
  have hnew : Continues log p.events.toList x [] := by
    constructor
    · intro tone htie
      rw [Event.tone?, htie] at hx
      cases hx
    · intro tone htone
      rw [hx] at htone
      cases htone
  constructor
  · rw [hevents]
    exact everywhere_push h.everywhere hnew
  · intro s hs
    rw [hevents, List.length_append]
    exact Nat.lt_add_right _ (h.index_lt s hs)

theorem TiesHold.playsNoTone (h : p.TiesHold log) (hp : p.PlaysNoTone later) :
    later.TiesHold log := by
  cases hp with
  | changes ws parameter _ =>
    exact h.push (x := ⟨p.state.tick, .change parameter⟩) rfl Array.toList_push
  | rests ws length =>
    exact h.push (x := ⟨p.state.tick, .rest length.toNat⟩) rfl Array.toList_push
  | notes ws state _ => exact ⟨h.everywhere, h.index_lt⟩

theorem SoundsAt.earlier {before after after' : List Event} {e : Event} {held : Tone}
    (hat : p.SoundsAt before e held after) (h : p.TiesHold log) {s : Stroke}
    (hs : before.length ≤ s.index) (f : Tone → Tone) :
    Everywhere (fun mid x rest => Continues (log ++ [s]) mid x (rest ++ e.mapTone f :: after'))
      before := by
  have hall := h.everywhere
  rw [hat.events_eq, everywhere_append_cons] at hall
  intro mid x rest hbefore
  apply ((hall.1 mid x rest hbefore).mapTone hat.tone_eq f).snoc
  rw [hbefore, List.length_append, List.length_cons] at hs
  omega

theorem SoundsAt.takesOver {before after : List Event} {e : Event} {held : Tone}
    (hat : p.SoundsAt before e held after) (h : p.TiesHold log) : TakesOver before e := by
  have hall := h.everywhere
  rw [hat.events_eq, everywhere_append_cons] at hall
  exact hall.2.1.takesOver

theorem TiesHold.sounds (h : p.TiesHold log) (ht : p.Timed) {events : List Event} {index : Nat}
    (hs : p.Sounds tone events index) :
    Everywhere (Continues (log ++ [⟨index, tone.gate⟩])) events ∧
      p.events.toList.length ≤ events.length ∧ index < events.length := by
  cases hs with
  | keyed =>
    refine ⟨everywhere_push (everywhere_snoc h.everywhere (Nat.le_refl _)) ?_, by simp, by simp⟩
    constructor
    · intro other htie
      cases htie
    · intro other hother _
      cases hother
      rw [Array.length_toList, lastStroke?_snoc_self]
      rfl
  | @absorbed before e held after hat =>
    refine ⟨?_, by simp [hat.events_eq], by simp⟩
    rw [everywhere_append_cons]
    refine ⟨hat.earlier h (Nat.le_refl _) _, ⟨?_, ?_⟩, everywhere_of_spans hat.last⟩
    · exact (hat.takesOver h).mapTone (fun _ => rfl) fun _ => rfl
    · intro other hother _
      rw [Event.tone?_mapTone, hat.tone_eq] at hother
      cases hother
      rw [lastStroke?_snoc_self]
      rfl
  | @tied before e held after hat hother =>
    have hsize : p.events.size = (before ++ e.mapTone .hold :: after).length := by
      rw [← Array.length_toList, hat.events_eq]
      simp
    have hheld : (e.mapTone .hold).tone? = some held.hold := by
      rw [Event.tone?_mapTone, hat.tone_eq]
      rfl
    have hfills := ht.fills
    rw [hat.events_eq] at hfills
    refine ⟨?_, by simp [hat.events_eq], by simp [hsize]⟩
    rw [everywhere_append_cons]
    refine ⟨hat.earlier h (by simp [hsize]) _, ⟨?_, ?_⟩, ?_⟩
    · exact (hat.takesOver h).mapTone (fun _ => rfl) fun _ => rfl
    · intro other _ hfree
      rw [tiedOver_append_tie hat.last] at hfree
      cases hfree
    · rw [everywhere_append_cons]
      refine ⟨everywhere_of_spans hat.last, ⟨?_, ?_⟩, everywhere_nil⟩
      · intro new hnew
        cases hnew
        have hend : e.tick + held.duration = p.state.tick := hfills.end_eq hat.tone_eq hat.last
        refine ⟨_, _, lastTimed?_append_cons (Event.isTimed_of_tone? hheld) hat.last, hheld, hend,
          rfl, ?_⟩
        by_cases hslide : tone.slide = none
        · exact .inl fun hnote => hother ⟨hslide, hnote.symm⟩
        · exact .inr (Option.isSome_iff_ne_none.mpr hslide)
      · intro new hnew _
        cases hnew
        rw [← hsize, lastStroke?_snoc_self]
        rfl

theorem TiesHold.sound (h : p.TiesHold log) (ht : p.Timed) (tone : Tone) :
    ∃ index, (p.sound tone).sounding = some index ∧
      (p.sound tone).TiesHold (log ++ [⟨index, tone.gate⟩]) := by
  obtain ⟨index, hsounding, hsounds⟩ := ht.sounds tone
  obtain ⟨heverywhere, hlength, hindex⟩ := h.sounds ht hsounds
  refine ⟨index, hsounding, heverywhere, ?_⟩
  intro s hs
  rcases List.mem_append.mp hs with hs | hs
  · exact Nat.lt_of_lt_of_le (h.index_lt s hs) hlength
  · rw [List.mem_singleton.mp hs]
    exact hindex

end Player

/-! ## Whole parts -/

namespace Machine

variable {defined : UInt8 → Bool} {m mid next : Machine}

/-- The note that the next instruction plays. The event that sounds after it is the one that the note
is part of, whether it is new or got longer. -/
def stroke? (m : Machine) : Option Stroke :=
  m.playedTone?.bind fun tone =>
    (m.player.sound tone).sounding.map fun index => ⟨index, m.player.state.gate⟩

/-- The notes that so many instructions play. -/
def strokes (defined : UInt8 → Bool) : Nat → Machine → List Stroke
  | 0, _ => []
  | n + 1, m =>
    match m.step defined with
    | .running next => m.stroke?.toList ++ next.strokes defined n
    | _ => []

theorem strokes_succ {n : Nat} (h : m.step defined = .running next) :
    m.strokes defined (n + 1) = m.stroke?.toList ++ next.strokes defined n := by
  rw [strokes, h]

theorem strokes_snoc {n : Nat} (h : m.after? defined n = some mid)
    (hstep : mid.step defined = .running next) :
    m.strokes defined (n + 1) = m.strokes defined n ++ mid.stroke?.toList := by
  induction n generalizing m with
  | zero =>
    cases h
    rw [strokes_succ hstep, strokes, strokes, List.append_nil, List.nil_append]
  | succ n ih =>
    unfold after? at h
    split at h
    · rename_i later hlater
      rw [strokes_succ hlater, strokes_succ hlater, ih h, List.append_assoc]
    · cases h

/-- A step keeps the ties, and logs the note that it plays. -/
theorem tiesHold_step {log : List Stroke} (h : m.player.TiesHold log) (ht : m.player.Timed)
    (hstep : m.step defined = .running next) :
    next.player.TiesHold (log ++ m.stroke?.toList) := by
  rcases playsNoTone_or_sounds_of_step hstep with
    ⟨htone, hnone⟩ | ⟨command, tone, htone, hcommand, hnext⟩
  · rw [stroke?, htone, Option.bind_none, Option.toList_none, List.append_nil]
    exact h.playsNoTone hnone
  · obtain ⟨index, hsounding, hties⟩ := h.sound ht tone
    rw [stroke?, htone, Option.bind_some, hsounding, Option.map_some, Option.toList_some,
      ← Player.gate_of_playedTone? hcommand, hnext]
    exact hties

theorem tiesHold_after? {part : Part} {c : Cursor} {n : Nat} {last : Machine}
    (h : (start part c).after? defined n = some last) :
    last.player.TiesHold ((start part c).strokes defined n) := by
  have hkept : (start part c).after? defined (0 + n) = some last ∧ TimedAfter (0 + n) last ∧
      last.player.TiesHold ((start part c).strokes defined (0 + n)) := by
    apply after?_keeps (P := fun n m => (start part c).after? defined n = some m ∧
      TimedAfter n m ∧ m.player.TiesHold ((start part c).strokes defined n)) h
    · exact ⟨rfl, timedAfter_start part c, Player.tiesHold_start part⟩
    · rintro k mid next ⟨hmid, ht, hties⟩ hstep
      refine ⟨after?_snoc hmid hstep, ht.step hstep, ?_⟩
      rw [strokes_snoc hmid hstep]
      exact tiesHold_step hties ht.timed hstep
  rw [Nat.zero_add] at hkept
  exact hkept.2.2

end Machine

open Machine

/-- Whenever a part can be played, each tie of its timeline takes over from a tone that is held up to
it, and each tone that no tie takes over ends by the gate of the last note that was played into it. -/
theorem ties_of_play {part : Part} {defined : UInt8 → Bool} {c : Cursor} {t : Timeline}
    {ws : Warnings} (h : play part defined c = (.ok t, ws)) :
    ∃ n last, n ≤ maxInstructions ∧ (Machine.start part c).after? defined n = some last ∧
      last.PartEnds ∧ last.player.events.toList = t.events ∧
      ∀ before x after, t.events = before ++ x :: after →
        TakesOver before x ∧
          EndsByLast ((Machine.start part c).strokes defined n) before x after := by
  obtain ⟨final, hends⟩ := ends_of_play h
  rw [play_of_ends hends, events_finish, state_finish] at h
  cases h
  obtain ⟨n, last, hn, hlast, hend, -, hplayer⟩ := hends.after?
  refine ⟨n, last, hn, hlast, hend, by rw [hplayer], ?_⟩
  intro before x after hevents
  rw [hplayer] at hevents
  have hcontinues := (tiesHold_after? hlast).everywhere before x after hevents
  exact ⟨hcontinues.takesOver, hcontinues.endsByLast⟩

/-- A note that is let go three ticks early, tied to a higher one, and after a new gate of five ticks
that one again. A change of volume and a rest come last. -/
def regatedTies : List UInt8 :=
  [0xFE, 3, 0x40, 12, 0xFB, 0x42, 12, 0xFE, 5, 0xFB, 0x42, 4, 0xFD, 100, 0x0F, 6, 0x80]

theorem ties_of_play_regatedTies :
    let struck : Event := ⟨0, .noteOn ⟨108, 12, .full, none⟩⟩
    let tied : Event := ⟨12, .tie ⟨110, 16, .ticks 5, none⟩⟩
    ∃ t ws n, play ⟨0⟩ (fun _ => false) (.ofList regatedTies) = (.ok t, ws) ∧
      t.events = [struck, tied, ⟨28, .change (.volume 100)⟩, ⟨28, .rest 6⟩] ∧
      TakesOver [struck] tied ∧
      (lastStroke? ((Machine.start ⟨0⟩ (.ofList regatedTies)).strokes (fun _ => false) n) 1).map
        Stroke.gate = some (.ticks 5) := by
  intro struck tied
  have hruns : (play ⟨0⟩ (fun _ => false) (.ofList regatedTies)).1.toOption.map Timeline.events =
      some [struck, tied, ⟨28, .change (.volume 100)⟩, ⟨28, .rest 6⟩] := by
    decide +kernel
  match h : play ⟨0⟩ (fun _ => false) (.ofList regatedTies) with
  | (.error e, ws) =>
    rw [h] at hruns
    cases hruns
  | (.ok t, ws) =>
    rw [h] at hruns
    have hevents := Option.some.inj hruns
    obtain ⟨n, last, -, -, -, -, hall⟩ := ties_of_play h
    obtain ⟨htakes, hends⟩ := hall [struck] tied _ hevents
    exact ⟨t, ws, n, rfl, hevents, htakes, hends _ rfl rfl⟩

end ChipScore
