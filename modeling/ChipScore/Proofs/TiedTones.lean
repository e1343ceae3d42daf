import ChipScore.Proofs.CommandEffects
import ChipScore.Proofs.Timing

/-!
# Tones after a tie

A tone that is played gets an event of its own, with one exception: after a tie, a tone without a
slide at the note of the sounding one makes that one longer. The note that counts is the one at which
the sounding tone began, so a tone that slides away takes in a tone at the pitch that it has left.
-/

namespace ChipScore

namespace Tone

/-- A tone that takes in another one after it, and ends by the gate of that one. -/
def absorb (more t : Tone) : Tone :=
  { t with duration := t.duration + more.duration, gate := more.gate }

def hold (t : Tone) : Tone := { t with gate := .full }

/-- The note at which a tone arrives. -/
def reached (t : Tone) : UInt8 :=
  match t.slide with
  | some slide => slide.target
  | none => t.note

end Tone

namespace Player

/-! ## The tone that sounds -/

/-- The tone that sounds is the one of an event, and no later event takes time. -/
structure SoundsAt (p : Player) (before : List Event) (e : Event) (held : Tone)
    (after : List Event) : Prop where
  events_eq : p.events.toList = before ++ e :: after
  sounding_eq : p.sounding = some before.length
  tone_eq : e.tone? = some held
  last : spans after = []

theorem Timed.exists_soundsAt {p : Player} (h : p.Timed) (hsounding : p.sounding.isSome) :
    ∃ before e held after, p.SoundsAt before e held after := by
  obtain ⟨index, hindex⟩ := Option.isSome_iff_exists.mp hsounding
  obtain ⟨before, tick, action, after, hevents, rfl, htone, hafter⟩ := h.sounding index hindex
  obtain ⟨held, hheld⟩ := Option.isSome_iff_exists.mp htone
  exact ⟨before, ⟨tick, action⟩, held, after, hevents, hindex, hheld, hafter⟩

section SoundsAt

variable {p : Player} {before after : List Event} {e : Event} {held tone : Tone}

theorem SoundsAt.soundingNote?_eq (h : p.SoundsAt before e held after) :
    p.soundingNote? = some held.note := by
  have hentry : p.events[before.length]? = some e := by
    rw [← Array.getElem?_toList, h.events_eq, List.getElem?_append_right (Nat.le_refl _),
      Nat.sub_self]
    rfl
  rw [soundingNote?, h.sounding_eq, Option.bind_some, hentry, Option.bind_some, Event.note?,
    h.tone_eq, Option.map_some]

theorem SoundsAt.events_mapSounding (h : p.SoundsAt before e held after) (f : Tone → Tone) :
    (p.mapSounding f).events.toList = before ++ e.mapTone f :: after := by
  simp only [mapSounding, h.sounding_eq]
  rw [Array.toList_modify, h.events_eq, modify_length]

theorem SoundsAt.free (h : p.SoundsAt before e held after) :
    SoundsAt { p with state.tiePending := false } before e held after :=
  ⟨h.events_eq, h.sounding_eq, h.tone_eq, h.last⟩

theorem SoundsAt.sound_same (h : p.SoundsAt before e held after)
    (htie : p.state.tiePending = true) (hsame : tone.slide = none ∧ tone.note = held.note) :
    (p.sound tone).events.toList = before ++ e.mapTone tone.absorb :: after ∧
      (p.sound tone).sounding = some before.length := by
  have hpending : p.state.tiePending = true ∧ p.sounding.isSome = true :=
    ⟨htie, by rw [h.sounding_eq]; rfl⟩
  have hnote : tone.slide.isNone = true ∧ p.soundingNote? = some tone.note :=
    ⟨Option.isNone_iff_eq_none.mpr hsame.1, by rw [h.soundingNote?_eq, hsame.2]⟩
  rw [sound, if_pos hpending, if_pos hnote]
  refine ⟨h.free.events_mapSounding tone.absorb, ?_⟩
  simp only [extend, mapSounding, h.sounding_eq]
  rfl

theorem SoundsAt.sound_other (h : p.SoundsAt before e held after)
    (htie : p.state.tiePending = true) (hother : ¬(tone.slide = none ∧ tone.note = held.note)) :
    (p.sound tone).events.toList =
        before ++ e.mapTone .hold :: (after ++ [⟨p.state.tick, .tie tone⟩]) ∧
      (p.sound tone).sounding = some p.events.size := by
  have hpending : p.state.tiePending = true ∧ p.sounding.isSome = true :=
    ⟨htie, by rw [h.sounding_eq]; rfl⟩
  have hnote : ¬(tone.slide.isNone = true ∧ p.soundingNote? = some tone.note) := by
    rintro ⟨hslide, hnote⟩
    rw [h.soundingNote?_eq] at hnote
    exact hother ⟨Option.isNone_iff_eq_none.mp hslide, (Option.some.inj hnote).symm⟩
  have hheld := h.free.events_mapSounding Tone.hold
  rw [sound, if_pos hpending, if_neg hnote]
  constructor
  · change (Array.push _ _).toList = _
    rw [Array.toList_push, state_mapSounding]
    change (mapSounding _ Tone.hold).events.toList ++ _ = _
    rw [hheld, List.append_assoc]
    rfl
  · change some (mapSounding _ Tone.hold).events.size = _
    rw [← Array.length_toList, hheld, ← Array.length_toList, h.events_eq]
    simp

end SoundsAt

/-! ## All that a tone can become -/

/-- The events with a played tone among them, and the index of the event that it is part of. -/
inductive Sounds (p : Player) (tone : Tone) : List Event → Nat → Prop
  | keyed : Sounds p tone (p.events.toList ++ [⟨p.state.tick, .noteOn tone⟩]) p.events.size
  | absorbed {before e held after} (soundsAt : p.SoundsAt before e held after) :
    Sounds p tone (before ++ e.mapTone tone.absorb :: after) before.length
  | tied {before e held after} (soundsAt : p.SoundsAt before e held after)
    (other : ¬(tone.slide = none ∧ tone.note = held.note)) :
    Sounds p tone (before ++ e.mapTone .hold :: (after ++ [⟨p.state.tick, .tie tone⟩]))
      p.events.size

theorem Timed.sounds {p : Player} (h : p.Timed) (tone : Tone) :
    ∃ index, (p.sound tone).sounding = some index ∧
      p.Sounds tone (p.sound tone).events.toList index := by
  by_cases hpending : p.state.tiePending = true ∧ p.sounding.isSome = true
  · obtain ⟨before, e, held, after, hat⟩ := h.exists_soundsAt hpending.2
    by_cases hsame : tone.slide = none ∧ tone.note = held.note
    · obtain ⟨hevents, hsounding⟩ := hat.sound_same hpending.1 hsame
      exact ⟨_, hsounding, hevents ▸ .absorbed hat⟩
    · obtain ⟨hevents, hsounding⟩ := hat.sound_other hpending.1 hsame
      exact ⟨_, hsounding, hevents ▸ .tied hat hsame⟩
  · have hkeyed : (p.sound tone).events.toList =
        p.events.toList ++ [⟨p.state.tick, .noteOn tone⟩] := by
      rw [Player.sound, if_neg hpending]
      exact Array.toList_push
    refine ⟨p.events.size, by rw [Player.sound, if_neg hpending]; rfl, ?_⟩
    rw [hkeyed]
    exact .keyed

end Player

/-! ## Whole parts -/

open Machine

/-- Whenever a tone is played after a tie while another one sounds, it makes that one longer if it
does not slide and has the note at which that one began, and in every other case a tie is added at
the tick where the part stands. It is taken in at another pitch than the one reached exactly if the
sounding tone slides away from its note and the new one is at that note. -/
theorem absorbed_or_tied {part : Part} {defined : UInt8 → Bool} {c : Cursor} {n : Nat}
    {m : Machine} {tone : Tone} (hm : (Machine.start part c).after? defined n = some m)
    (htone : m.playedTone? = some tone) (htie : m.player.state.tiePending = true)
    (hsounding : m.player.sounding.isSome = true) :
    ∃ before e held after next, m.player.SoundsAt before e held after ∧
      m.step defined = .running next ∧
      (tone.slide = none ∧ tone.note = held.note ∧
          next.player.events.toList = before ++ e.mapTone tone.absorb :: after ∨
        ¬(tone.slide = none ∧ tone.note = held.note) ∧
          next.player.events.toList =
            before ++ e.mapTone .hold :: (after ++ [⟨m.player.state.tick, .tie tone⟩])) ∧
      (next.player.events.size = m.player.events.size ∧ tone.note ≠ held.reached ↔
        tone.slide = none ∧ tone.note = held.note ∧ held.reached ≠ held.note) := by
  have hafter : TimedAfter (0 + n) m :=
    after?_keeps (P := TimedAfter) hm (timedAfter_start part c) TimedAfter.step
  obtain ⟨before, e, held, after, hat⟩ := hafter.timed.exists_soundsAt hsounding
  obtain ⟨c', hstep⟩ := step_of_playedTone? htone defined
  refine ⟨before, e, held, after, _, hat, hstep, ?_⟩
  dsimp only
  rw [← Array.length_toList, ← Array.length_toList, hat.events_eq]
  by_cases hsame : tone.slide = none ∧ tone.note = held.note
  · obtain ⟨hevents, -⟩ := hat.sound_same htie hsame
    refine ⟨.inl ⟨hsame.1, hsame.2, hevents⟩, ?_⟩
    rw [hevents, hsame.2]
    simp [hsame.1, ne_comm]
  · obtain ⟨hevents, -⟩ := hat.sound_other htie hsame
    refine ⟨.inr ⟨hsame, hevents⟩, ?_⟩
    rw [hevents]
    constructor
    · rintro ⟨hlength, -⟩
      simp at hlength
    · rintro ⟨hslide, hnote, -⟩
      exact absurd ⟨hslide, hnote⟩ hsame

theorem absorbed_or_tied_tiedPasses :
    ∃ m before e held after next,
      (Machine.start ⟨0⟩ (.ofList tiedPasses)).after? (fun _ => false) 5 = some m ∧
      m.playedTone? = some ⟨108, 24, .full, none⟩ ∧ m.player.state.tiePending = true ∧
      m.player.sounding.isSome = true ∧ m.player.SoundsAt before e held after ∧
      held.note = 108 ∧ m.step (fun _ => false) = .running next ∧
      next.player.events.toList =
        before ++ e.mapTone (Tone.absorb ⟨108, 24, .full, none⟩) :: after := by
  have hruns : ((Machine.start ⟨0⟩ (.ofList tiedPasses)).after? (fun _ => false) 5).map
      (fun m => (m.playedTone?, m.player.state.tiePending, m.player.sounding.isSome,
        m.player.soundingNote?)) =
      some (some ⟨108, 24, .full, none⟩, true, true, some 108) := by
    decide +kernel
  obtain ⟨m, hm, hfound⟩ := Option.map_eq_some_iff.mp hruns
  simp only [Prod.mk.injEq] at hfound
  obtain ⟨htone, htie, hsounding, hnote⟩ := hfound
  obtain ⟨before, e, held, after, next, hat, hstep, hevents, -⟩ :=
    absorbed_or_tied hm htone htie hsounding
  rw [hat.soundingNote?_eq, Option.some.injEq] at hnote
  refine ⟨m, before, e, held, after, next, hm, htone, htie, hsounding, hat, hnote, hstep, ?_⟩
  rcases hevents with ⟨-, -, hevents⟩ | ⟨hother, -⟩
  · exact hevents
  · exact absurd ⟨rfl, hnote.symm⟩ hother

/-- A slide from C to E, and after a tie the C again. -/
def slideBack : List UInt8 := [0xDA, 0x30, 0x34, 4, 0xFB, 0x30, 6, 0x80]

/-- The slide has reached the E when the C comes, and still takes it in, so that the C is never heard
again. -/
theorem absorbed_leftNote_slideBack :
    let slide : Tone := ⟨96, 4, .full, some ⟨100, 4⟩⟩
    let back : Tone := ⟨96, 6, .full, none⟩
    slide.reached = 100 ∧
      ∃ m next, (Machine.start ⟨0⟩ (.ofList slideBack)).after? (fun _ => false) 2 = some m ∧
        m.playedTone? = some back ∧ m.player.state.tiePending = true ∧
        m.player.sounding = some 0 ∧ m.player.events = #[⟨0, .noteOn slide⟩] ∧
        m.step (fun _ => false) = .running next ∧
        next.player.events = #[⟨0, .noteOn (back.absorb slide)⟩] := by
  intro slide back
  have hruns : ((Machine.start ⟨0⟩ (.ofList slideBack)).after? (fun _ => false) 2).map
      (fun m => (m.playedTone?, m.player.state.tiePending, m.player.sounding, m.player.events,
        (m.player.sound back).events)) =
      some (some back, true, some 0, #[⟨0, .noteOn slide⟩],
        #[⟨0, .noteOn (back.absorb slide)⟩]) := by
    decide +kernel
  obtain ⟨m, hm, hfound⟩ := Option.map_eq_some_iff.mp hruns
  simp only [Prod.mk.injEq] at hfound
  obtain ⟨htone, htie, hsounding, hevents, hsound⟩ := hfound
  obtain ⟨c, hstep⟩ := step_of_playedTone? htone fun _ => false
  exact ⟨rfl, m, _, hm, htone, htie, hsounding, hevents, hstep, hsound⟩

end ChipScore
