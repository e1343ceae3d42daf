import ChipScore.Proofs.KeyOffs
import ChipScore.Proofs.Timing

/-!
# Whose key-off it is

A key-off in a row lets go of the tone that was struck or tied last before that row. There is one way
in which it can be the key-off of another tone: a tone of no length is not taken over by what starts
at its own tick, so its key-off stays and lets go of that one.
-/

namespace ChipScore

/-! ## The tone before a row -/

/-- The last note or tie that starts in a row before this one. -/
def Grid.lastToneBefore? (g : Grid) (events : List Event) (row : Nat) : Option Event :=
  (events.filter fun e => e.tone?.isSome && g.rowOf e.tick < row).getLast?

/-- Of itself, an event is let go by a key-off in a row. -/
def Grid.LetsGoAt (g : Grid) (e : Event) (row : Nat) : Prop :=
  ∃ tone, e.tone? = some tone ∧ ¬ g.LetsGoInRow e.tick tone ∧ g.offRow e.tick tone = row

theorem getLast?_filter_append_cons {α : Type} {p : α → Bool} {x : α} (before later : List α)
    (hx : p x = true) : ∃ last, ((before ++ x :: later).filter p).getLast? = some last ∧
      (last = x ∨ last ∈ later ∧ p last = true) := by
  rw [List.filter_append, List.filter_cons_of_pos hx]
  rcases List.eq_nil_or_concat (later.filter p) with hnil | ⟨others, last, hlast⟩
  · exact ⟨x, by simp [hnil], .inl rfl⟩
  · rw [List.concat_eq_append] at hlast
    have hmem : last ∈ later.filter p := by simp [hlast]
    refine ⟨last, ?_, .inr (List.mem_filter.mp hmem)⟩
    rw [hlast, ← List.cons_append, ← List.append_assoc, List.getLast?_concat]

theorem Grid.lastToneBefore?_of_letsGoAt {g : Grid} {before later : List Event} {e : Event}
    {tone : Tone} (hsorted : (before ++ e :: later).Pairwise (·.tick ≤ ·.tick))
    (htone : e.tone? = some tone) (hcut : ¬ g.LetsGoInRow e.tick tone)
    (htaken : ¬ g.TakenOver e.tick tone (before ++ e :: later)) :
    ∃ last, g.lastToneBefore? (before ++ e :: later) (g.offRow e.tick tone) = some last ∧
      (last = e ∨ last ∈ later ∧ last.tone?.isSome ∧ last.tick = e.tick) := by
  obtain ⟨last, hlast, rfl | ⟨hmem, hp⟩⟩ := getLast?_filter_append_cons
    (p := fun x => x.tone?.isSome && g.rowOf x.tick < g.offRow e.tick tone) (x := e) before later
    (by simp [htone, rowOf_lt_offRow hcut])
  · exact ⟨_, hlast, .inl rfl⟩
  · rw [Bool.and_eq_true, decide_eq_true_eq] at hp
    have hle : e.tick ≤ last.tick :=
      (List.pairwise_cons.mp (List.pairwise_append.mp hsorted).2.1).1 last hmem
    have hnot : ¬ e.tick < last.tick := fun hlt =>
      htaken ⟨last, by simp [hmem], hp.1, hlt, Nat.le_of_lt hp.2⟩
    exact ⟨last, hlast, .inr ⟨hmem, hp.1, by omega⟩⟩

/-! ## Where key-offs come from -/

namespace Marker

variable {g : Grid} {m : Marker} {e : Event}

theorem keyOff_notMem_event (htone : e.tone? = none) (row : Nat) :
    ⟨row, .keyOff⟩ ∉ (m.event g e).2.marks := by
  rcases marks_event_of_no_tone g m htone with hnone | ⟨effect, -, hone⟩
  · simp [hnone]
  · simp [hone]

end Marker

section Owners

variable {g : Grid} {part : Part} {events : List Event} {row : Nat}

/-- A key-off is that of a tone which is let go in its row and is not taken over before that. -/
theorem exists_of_keyOff_mem_marked (hsorted : events.Pairwise (·.tick ≤ ·.tick))
    (h : ⟨row, .keyOff⟩ ∈ g.marked part events) :
    ∃ before e later tone, events = before ++ e :: later ∧ e.tone? = some tone ∧
      ¬ g.LetsGoInRow e.tick tone ∧ ¬ g.TakenOver e.tick tone events ∧
      g.offRow e.tick tone = row := by
  obtain ⟨ink, hink, hmark⟩ := List.mem_flatMap.mp h
  obtain ⟨before, e, later, rfl, rfl⟩ := Marker.exists_of_mem_inks hink
  cases htone : e.tone? with
  | none => exact absurd hmark (Marker.keyOff_notMem_event htone row)
  | some tone =>
    rcases Nat.lt_or_ge (g.rowOf e.tick) g.rowCount with hrow | hpast
    · have hends : ⟨row, .keyOff⟩ ∈ g.endMarks e.tick tone (before ++ e :: later) := by
        rw [← Marker.filter_endsTone_marks part hsorted htone hrow]
        exact List.mem_filter.mpr ⟨hmark, rfl⟩
      unfold Grid.endMarks at hends
      split_ifs at hends with hcut htaken
      · cases List.mem_singleton.mp hends
      · cases hends
      · cases List.mem_singleton.mp hends
        exact ⟨before, e, later, tone, rfl, htone, hcut, htaken, rfl⟩
    · rw [Marker.event_past_grid _ htone hpast] at hmark
      cases hmark

theorem keyOff_mem_marked_of_note {r : ScoreRow} (hr : (g.layOut part events).1[row]? = some r)
    (hnote : r.note = some .off ∨ r.note = some .release) :
    ⟨row, .keyOff⟩ ∈ g.marked part events := by
  have hrow : row < g.rowCount := by
    rw [← g.length_layOut part events]
    exact (List.getElem?_eq_some_iff.mp hr).1
  rw [g.getElem?_layOut part events hrow, Option.some.injEq] at hr
  rw [← Grid.mem_rowCells]
  rw [← hr, Row.note_ofCells] at hnote
  by_contra hfree
  rw [if_neg hfree, Option.or_none] at hnote
  cases hlast : ((g.rowCells part events row).filterMap Cell.note?).getLast? with
  | none =>
    rw [hlast] at hnote
    simp at hnote
  | some n =>
    rw [hlast] at hnote
    simp at hnote

end Owners

/-! ## Timelines without gaps -/

theorem Tiles.start_le {start stop : Nat} {l : List (Nat × Nat)} (h : Tiles start l stop) :
    ∀ span ∈ l, start ≤ span.1 := by
  induction l generalizing start with
  | nil => simp
  | cons span l ih =>
    obtain ⟨htick, hrest⟩ := h
    rw [List.forall_mem_cons]
    refine ⟨Nat.le_of_eq htick.symm, ?_⟩
    intro later hlater
    exact Nat.le_trans (Nat.le_add_right _ _) (ih hrest later hlater)

theorem Timeline.Gapless.le_tick {t : Timeline} (ht : t.Gapless) {before later : List Event}
    {e x : Event} {tone : Tone} (hevents : t.events = before ++ e :: later)
    (htone : e.tone? = some tone) (hx : x ∈ later) (hxtone : x.tone?.isSome) :
    e.tick + tone.duration ≤ x.tick := by
  have htiles := ht.tiles
  rw [hevents, spans_append, spans_cons, Event.span?_of_tone? htone, tiles_append] at htiles
  obtain ⟨mid, -, htick, hlater⟩ := htiles
  obtain ⟨next, hnext⟩ := Option.isSome_iff_exists.mp hxtone
  have hspan : (x.tick, next.duration) ∈ spans later :=
    List.mem_filterMap.mpr ⟨x, hx, Event.span?_of_tone? hnext⟩
  rw [htick]
  exact Tiles.start_le hlater _ hspan

/-- A key-off in a row is that of the last tone before the row, unless a tone of no length stands at
the tick of that one: then it may be the key-off of the tone of no length. -/
theorem layOut_keyOff_owner {part : Part} {defined : UInt8 → Bool} {c : Cursor} {t : Timeline}
    {ws : Warnings} (h : play part defined c = (.ok t, ws)) (g : Grid) {row : Nat} {r : ScoreRow}
    (hr : (g.layOut t.part t.events).1[row]? = some r)
    (hnote : r.note = some .off ∨ r.note = some .release) :
    ∃ last, g.lastToneBefore? t.events row = some last ∧
      (g.LetsGoAt last row ∨
        ∃ before e later tone, t.events = before ++ e :: later ∧ last ∈ later ∧
          e.tone? = some tone ∧ tone.duration = 0 ∧ e.tick = last.tick ∧ g.LetsGoAt e row) := by
  obtain ⟨n, m, hn, hafter, rfl⟩ := exists_timedAfter_of_play h
  have ht := hafter.gapless hn
  have hmark := keyOff_mem_marked_of_note hr hnote
  obtain ⟨before, e, later, tone, hevents, htone, hcut, htaken, rfl⟩ :=
    exists_of_keyOff_mem_marked ht.sorted hmark
  have hsorted := ht.sorted
  rw [hevents] at hsorted htaken
  obtain ⟨last, hlast, hlater⟩ := Grid.lastToneBefore?_of_letsGoAt hsorted htone hcut htaken
  rw [← hevents] at hlast
  have hown : g.LetsGoAt e (g.offRow e.tick tone) := ⟨tone, htone, hcut, rfl⟩
  refine ⟨last, hlast, ?_⟩
  rcases hlater with rfl | ⟨hmem, hlasttone, htick⟩
  · exact .inl hown
  · have hle := ht.le_tick hevents htone hmem hlasttone
    exact .inr ⟨before, e, later, tone, hevents, hmem, htone, by omega, htick.symm, hown⟩

theorem layOut_keyOff_owner_tiedPasses :
    let g : Grid := ⟨6, 11, ⟨75⟩⟩
    ∃ t ws r, play ⟨0⟩ (fun _ => false) (.ofList tiedPasses) = (.ok t, ws) ∧
      (g.layOut t.part t.events).1[10]? = some r ∧ r.note = some .off ∧
      ∃ last, g.lastToneBefore? t.events 10 = some last ∧ last.tick = 48 ∧ g.LetsGoAt last 10 := by
  intro g
  have hruns : (play ⟨0⟩ (fun _ => false) (.ofList tiedPasses)).1.toOption.map (fun t =>
      ((g.layOut t.part t.events).1[10]?.bind Row.note,
        (g.lastToneBefore? t.events 10).map Event.tick,
        t.events.all fun e => e.tone?.all (0 < ·.duration))) =
      some (some .off, some 48, true) := by
    decide +kernel
  match h : play ⟨0⟩ (fun _ => false) (.ofList tiedPasses) with
  | (.error e, ws) =>
    rw [h] at hruns
    cases hruns
  | (.ok t, ws) =>
    rw [h] at hruns
    obtain ⟨hnote, hrest⟩ := Prod.ext_iff.mp (Option.some.inj hruns)
    obtain ⟨htick, hlong⟩ := Prod.ext_iff.mp hrest
    obtain ⟨r, hr, hoff⟩ := Option.bind_eq_some_iff.mp hnote
    obtain ⟨last, hlast, hown⟩ := layOut_keyOff_owner h g hr (.inl hoff)
    refine ⟨t, ws, r, rfl, hr, hoff, last, hlast, ?_, ?_⟩
    · obtain ⟨other, hother, hat⟩ := Option.map_eq_some_iff.mp htick
      cases hother.symm.trans hlast
      exact hat
    · rcases hown with hown | ⟨before, e, later, tone, hevents, -, htone, hzero, -⟩
      · exact hown
      · have hmem : e ∈ t.events := by simp [hevents]
        have hpos := List.all_eq_true.mp hlong e hmem
        rw [htone, Option.all_some, hzero] at hpos
        cases hpos

/-- A note of no length and then one of twelve ticks, which is what sounds. -/
def silentStrike : List UInt8 := [0x30, 0, 0x32, 12, 0x80]

/-- With three ticks a row, the note that sounds is to be let go in row 4, but the key-off of the note
of no length comes in row 1. -/
theorem keyOff_of_silent_note :
    let g : Grid := ⟨3, 5, ⟨75⟩⟩
    ∃ t ws r last, play ⟨0⟩ (fun _ => false) (.ofList silentStrike) = (.ok t, ws) ∧
      (g.layOut t.part t.events).1[1]? = some r ∧ r.note = some .off ∧
      g.lastToneBefore? t.events 1 = some last ∧ g.LetsGoAt last 4 ∧ ¬ g.LetsGoAt last 1 := by
  intro g
  have hruns : (play ⟨0⟩ (fun _ => false) (.ofList silentStrike)).1.toOption.map (fun t =>
      ((g.layOut t.part t.events).1[1]?.bind Row.note, g.lastToneBefore? t.events 1)) =
      some (some .off, some ⟨0, .noteOn ⟨98, 12, .full, none⟩⟩) := by
    decide +kernel
  match h : play ⟨0⟩ (fun _ => false) (.ofList silentStrike) with
  | (.error e, ws) =>
    rw [h] at hruns
    cases hruns
  | (.ok t, ws) =>
    rw [h] at hruns
    obtain ⟨hnote, hlast⟩ := Prod.ext_iff.mp (Option.some.inj hruns)
    obtain ⟨r, hr, hoff⟩ := Option.bind_eq_some_iff.mp hnote
    have hrow : g.offRow 0 ⟨98, 12, .full, none⟩ = 4 := by decide
    refine ⟨t, ws, r, _, rfl, hr, hoff, hlast, ⟨_, rfl, by decide, hrow⟩, ?_⟩
    rintro ⟨tone, htone, -, hat⟩
    cases htone
    rw [hrow] at hat
    cases hat

end ChipScore
