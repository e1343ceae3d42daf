import ChipScore.Proofs.KeyOffOwners

/-!
# Effects of a tone

A tone has effects of its own: the start of its slide, the stop of it, and its cut. The start and
the cut stand in the row of the tone. When a later tone takes that row over, they stay, and it is
the later one that they bend and cut. The stop stands where the first row starts in which the slide
is over, also when the row before that has a new tone, whose slide it stops then.
-/

namespace ChipScore

/-! ## Starts of slides and cuts -/

namespace Effect

/-- A cut or the start of a slide. -/
def isOfTone (e : Effect) : Bool := e.code = 0xEC || e.code = 0xE1 || (e.code = 0xE2 && e.value ≠ 0)

theorem value_slideDown_ne_zero {speed semitones : Nat} (hspeed : 1 ≤ speed) (hmax : speed ≤ 15)
    (hsemitones : semitones ≤ 15) : (slideDown speed semitones).value ≠ 0 := by
  intro hzero
  have hvalue : (slideDown speed semitones).value.toNat = 0 := congrArg UInt8.toNat hzero
  rw [slideDown, UInt8.toNat_ofNat'] at hvalue
  omega

theorem isOfTone_of_slide? {note : UInt8} {slide : Slide} {ticksPerRow : Nat} {effect : Effect}
    (h : slide? note slide ticksPerRow = some effect) : effect.isOfTone = true := by
  unfold slide? at h
  dsimp only at h
  split_ifs at h
  · cases h
    rfl
  · have hvalue : effect.value ≠ 0 := by
      rw [← Option.some.inj h]
      apply value_slideDown_ne_zero
      · omega
      · omega
      · exact Nat.min_le_right _ _
    have hcode : effect.code = 0xE2 := by
      rw [← Option.some.inj h]
      rfl
    simp [isOfTone, hcode, hvalue]

theorem isOfTone_slideStop : slideStop.isOfTone = false := by
  decide

theorem isOfTone_of_setting {e : Effect} (h : e.code = 0xE5 ∨ e.code = 0x08 ∨ e.code = tempoCode) :
    e.isOfTone = false := by
  rcases h with h | h | h <;> simp [isOfTone, tempoCode, h]

end Effect

namespace Grid

variable (g : Grid)

def slideStart? (tone : Tone) : Option Effect :=
  tone.slide.bind (Effect.slide? tone.note · g.ticksPerRow)

/-- A key that is let go in the row of its tone is cut after so many ticks of the row. -/
def cut? (tick : Nat) (tone : Tone) : Option Effect :=
  if g.LetsGoInRow tick tone then
    some (.noteCut (tone.release tick - g.rowOf tick * g.ticksPerRow))
  else none

/-- The effects that an event has in its row, if it is a tone. -/
def toneEffects (e : Event) : List Effect :=
  match e.tone? with
  | some tone => (g.slideStart? tone).toList ++ (g.cut? e.tick tone).toList
  | none => []

/-- The notes and ties that start in a row. -/
def tonesIn (events : List Event) (row : Nat) : List Event :=
  events.filter fun e => e.tone?.isSome && g.rowOf e.tick = row

end Grid

/-- What a mark says of a tone that starts in this row. -/
def Mark.toneEffect? (row : Nat) : Mark → Option Effect :=
  Mark.effectIn? (Option.guard Effect.isOfTone) row

section ToneEffects

variable {g : Grid} {m : Marker} {e : Event} {tone : Tone} {row : Nat}

theorem Mark.toneEffect?_of_isOfTone {effect : Effect} (h : effect.isOfTone = true) (start : Nat) :
    (Mark.mk start (.effect effect)).toneEffect? row =
      if start = row then some effect else none := by
  simp [toneEffect?, effectIn?, Cell.effect?, Option.guard, h]

theorem Mark.toneEffect?_of_not_isOfTone {effect : Effect} (h : effect.isOfTone = false)
    (start : Nat) : (Mark.mk start (.effect effect)).toneEffect? row = none := by
  simp [toneEffect?, effectIn?, Cell.effect?, Option.guard, h]

theorem filterMap_toneEffect?_struck {struck : List Cell} {note : UInt8}
    (h : ∀ cell ∈ struck, ∃ m : Marker, cell ∈ m.struckCells note) (start : Nat) :
    (struck.map (Mark.mk start)).filterMap (Mark.toneEffect? row) = [] := by
  rw [List.filterMap_eq_nil_iff, List.forall_mem_map]
  intro cell hcell
  obtain ⟨m, hcell⟩ := h cell hcell
  cases cell with
  | effect effect =>
    apply Mark.toneEffect?_of_not_isOfTone
    apply Effect.isOfTone_of_setting
    rcases Marker.code_of_mem_struckCells hcell with hcode | hcode
    · exact .inl hcode
    · exact .inr (.inl hcode)
  | _ => exact ite_self none

theorem filterMap_toneEffect?_slideMarks (g : Grid) (tick : Nat) (tone : Tone) (next : Option Nat) :
    (g.slideMarks tick tone next).filterMap (Mark.toneEffect? row) =
      if g.rowOf tick = row then (g.slideStart? tone).toList else [] := by
  unfold Grid.slideMarks Grid.slideStart?
  cases tone.slide with
  | none => simp
  | some slide =>
    dsimp only [Option.bind_some]
    cases hstart : Effect.slide? tone.note slide g.ticksPerRow with
    | none => simp
    | some effect =>
      have hown := Effect.isOfTone_of_slide? hstart
      have hstop (start : Nat) : (Mark.mk start (.effect .slideStop)).toneEffect? row = none :=
        Mark.toneEffect?_of_not_isOfTone Effect.isOfTone_slideStop start
      split_ifs <;> simp [Mark.toneEffect?_of_isOfTone hown, *]

theorem filterMap_toneEffect?_keyOffMarks (g : Grid) (tick : Nat) (tone : Tone)
    (next : Option Nat) : (g.keyOffMarks tick tone next).filterMap (Mark.toneEffect? row) =
      if g.rowOf tick = row then (g.cut? tick tone).toList else [] := by
  unfold Grid.keyOffMarks Grid.cut?
  rw [g.keyOff_eq]
  by_cases hcut : g.LetsGoInRow tick tone
  · have hown (ticks : Nat) : (Effect.noteCut ticks).isOfTone = true := rfl
    rw [if_pos hcut, if_pos hcut]
    dsimp only
    split_ifs <;> simp [Mark.toneEffect?_of_isOfTone (hown _), *]
  · rw [if_neg hcut, if_neg hcut]
    dsimp only
    split_ifs <;> simp [Mark.toneEffect?, Mark.effectIn?, Cell.effect?]

theorem filterMap_toneEffect?_event (m : Marker) (e : Event) (hrow : row < g.rowCount) :
    (m.event g e).2.marks.filterMap (Mark.toneEffect? row) =
      (g.tonesIn [e] row).flatMap g.toneEffects := by
  cases htone : e.tone? with
  | some tone =>
    rcases Nat.lt_or_ge (g.rowOf e.tick) g.rowCount with hgrid | hpast
    · obtain ⟨struck, hstruck, hmarks⟩ := m.marks_event_of_tone htone hgrid
      rw [hmarks, List.filterMap_append, List.filterMap_append,
        filterMap_toneEffect?_struck hstruck, filterMap_toneEffect?_slideMarks,
        filterMap_toneEffect?_keyOffMarks]
      by_cases hin : g.rowOf e.tick = row
      · simp [Grid.tonesIn, Grid.toneEffects, htone, hin]
      · simp [Grid.tonesIn, hin]
    · have hne : g.rowOf e.tick ≠ row := by omega
      rw [m.event_past_grid htone hpast]
      simp [Grid.tonesIn, hne]
  | none =>
    have hnone : (m.event g e).2.marks.filterMap (Mark.toneEffect? row) = [] := by
      rcases Marker.marks_event_of_no_tone g m htone with hnone | ⟨effect, hcode, hone⟩
      · rw [hnone]
        rfl
      · have hsetting := Effect.isOfTone_of_setting (.inr hcode)
        rw [hone, List.filterMap_cons_none (Mark.toneEffect?_of_not_isOfTone hsetting _)]
        rfl
    rw [hnone]
    simp [Grid.tonesIn, htone]

theorem Grid.tonesIn_append (g : Grid) (first second : List Event) (row : Nat) :
    g.tonesIn (first ++ second) row = g.tonesIn first row ++ g.tonesIn second row :=
  List.filter_append first second

theorem filterMap_toneEffect?_inks (m : Marker) (events : List Event) (hrow : row < g.rowCount) :
    ((m.inks g events).flatMap Marker.Ink.marks).filterMap (Mark.toneEffect? row) =
      (g.tonesIn events row).flatMap g.toneEffects := by
  induction events generalizing m with
  | nil => rfl
  | cons e events ih =>
    rw [← List.singleton_append, g.tonesIn_append, Marker.inks_append, List.flatMap_append,
      List.filterMap_append, List.flatMap_append, ih, ← filterMap_toneEffect?_event m e hrow]
    simp [Marker.inks]

end ToneEffects

section Rows

variable {g : Grid} {part : Part} {events : List Event} {e : Event} {tone : Tone} {row : Nat}

theorem value_of_mem_cut? {effect : Effect} (hticks : 1 ≤ g.ticksPerRow)
    (hmax : g.ticksPerRow ≤ 255) (h : effect ∈ g.cut? e.tick tone) :
    g.LetsGoInRow e.tick tone ∧ effect.code = 0xEC ∧
      effect.value.toNat = tone.release e.tick - g.rowOf e.tick * g.ticksPerRow := by
  obtain ⟨hcut, heffect⟩ := Option.ite_none_right_eq_some.mp h
  obtain ⟨hafter, hbefore⟩ := Grid.cut_bounds hticks hcut
  rw [← Option.some.inj heffect, Effect.toNat_noteCut]
  refine ⟨hcut, rfl, ?_⟩
  omega

/-- The starts of slides and the cuts in a row are those of all notes and ties that start in the
row, in their order. So they belong to the last one alone exactly if the others have none. -/
theorem layOut_toneEffects (g : Grid) (part : Part) (events : List Event)
    (hticks : 1 ≤ g.ticksPerRow) (hmax : g.ticksPerRow ≤ 255) (hrow : row < g.rowCount) :
    ∃ r, (g.layOut part events).1[row]? = some r ∧
      r.effects.filter Effect.isOfTone = (g.tonesIn events row).flatMap g.toneEffects ∧
      (∀ effect ∈ r.effects, effect.isOfTone → ∃ e ∈ g.tonesIn events row, ∃ tone,
        e.tone? = some tone ∧ (g.slideStart? tone = some effect ∨
          g.LetsGoInRow e.tick tone ∧ effect.code = 0xEC ∧
            effect.value.toNat = tone.release e.tick - row * g.ticksPerRow)) ∧
      ∀ earlier last, g.tonesIn events row = earlier ++ [last] →
        (r.effects.filter Effect.isOfTone = g.toneEffects last ↔
          ∀ e ∈ earlier, g.toneEffects e = []) := by
  refine ⟨_, g.getElem?_layOut part events hrow, ?_⟩
  have heffects : (Row.ofCells part.kind.keyOff (g.rowCells part events row)).effects.filter
      Effect.isOfTone = (g.tonesIn events row).flatMap g.toneEffects := by
    rw [← List.filterMap_eq_filter, g.filterMap_effects_rowCells]
    exact filterMap_toneEffect?_inks _ events hrow
  refine ⟨heffects, ?_, ?_⟩
  · intro effect hmem hown
    have hfilter := List.mem_filter.mpr ⟨hmem, hown⟩
    rw [heffects] at hfilter
    obtain ⟨e, he, heffect⟩ := List.mem_flatMap.mp hfilter
    obtain ⟨htone, hin⟩ := Bool.and_eq_true_iff.mp (List.mem_filter.mp he).2
    obtain ⟨tone, htone⟩ := Option.isSome_iff_exists.mp htone
    rw [Grid.toneEffects, htone] at heffect
    refine ⟨e, he, tone, htone, ?_⟩
    rcases List.mem_append.mp heffect with hslide | hcut
    · exact .inl (Option.mem_toList.mp hslide)
    · rw [← of_decide_eq_true hin]
      exact .inr (value_of_mem_cut? hticks hmax (Option.mem_toList.mp hcut))
  · intro earlier last htones
    rw [heffects, htones, List.flatMap_append, List.flatMap_singleton, List.append_left_eq_self,
      List.flatMap_eq_nil_iff]

end Rows

/-- Two notes in the first of two rows. The later one has a slide, and is let go in the row. -/
def bentNotes : List Event :=
  [⟨0, .noteOn ⟨60, 2, .full, none⟩⟩, ⟨2, .noteOn ⟨62, 4, .ticks 2, some ⟨65, 4⟩⟩⟩, ⟨6, .rest 6⟩]

theorem layOut_toneEffects_bentNotes :
    ∃ r, ((Grid.mk 6 2 ⟨75⟩).layOut ⟨0⟩ bentNotes).1[0]? = some r ∧
      r.effects.filter Effect.isOfTone = [.slideUp 15 3, .noteCut 4] := by
  obtain ⟨r, hr, -, -, hlast⟩ := layOut_toneEffects ⟨6, 2, ⟨75⟩⟩ ⟨0⟩ bentNotes
    (by decide) (by decide) (show 0 < 2 by decide)
  refine ⟨r, hr, ?_⟩
  exact (hlast [⟨0, .noteOn ⟨60, 2, .full, none⟩⟩] ⟨2, .noteOn ⟨62, 4, .ticks 2, some ⟨65, 4⟩⟩⟩
    (by decide)).mpr (by decide)

/-- A note of two ticks that is let go after one, and then one that is held for its twelve. -/
def shortStrike : List UInt8 := [0xFE, 1, 0x30, 2, 0xFE, 0, 0x32, 12, 0x80]

/-- With three ticks a row, both notes start in the first row, and the later one is what stands
there. It has no cut, but the one of the first note stays and cuts it. -/
theorem cut_of_lost_note :
    let g : Grid := ⟨3, 6, ⟨75⟩⟩
    ∃ t ws r earlier last, play ⟨0⟩ (fun _ => false) (.ofList shortStrike) = (.ok t, ws) ∧
      (g.layOut t.part t.events).1[0]? = some r ∧ r.note = some (.on 98) ∧
      g.tonesIn t.events 0 = [earlier, last] ∧ last.note? = some 98 ∧ g.toneEffects last = [] ∧
      .noteCut 1 ∈ r.effects := by
  intro g
  have hruns : (play ⟨0⟩ (fun _ => false) (.ofList shortStrike)).1.toOption.map (fun t =>
      ((g.layOut t.part t.events).1[0]?.map fun r => (r.note, r.effects), g.tonesIn t.events 0)) =
      some (some (some (.on 98), [.noteCut 1]), [⟨0, .noteOn ⟨96, 2, .ticks 1, none⟩⟩,
        ⟨2, .noteOn ⟨98, 12, .ticks 0, none⟩⟩]) := by
    decide +kernel
  obtain ⟨t, ws, h, hread⟩ := exists_play_of_map hruns
  obtain ⟨hfirst, htones⟩ := Prod.ext_iff.mp hread
  obtain ⟨r, hr, hcells⟩ := Option.map_eq_some_iff.mp hfirst
  obtain ⟨hnote, heffects⟩ := Prod.ext_iff.mp hcells
  dsimp only at hnote heffects
  refine ⟨t, ws, r, _, _, h, hr, hnote, htones, rfl, by decide, ?_⟩
  rw [heffects]
  exact List.mem_singleton_self _

/-! ## Stops of slides -/

def Cell.stopsSlide (cell : Cell) : Bool := cell = .effect .slideStop

section SlideStops

variable {g : Grid} {m : Marker} {before later : List Event} {e : Event} {tone : Tone}
  {slide : Slide}

theorem Effect.exists_slide?_of_ne {note : UInt8} (hmoves : slide.target ≠ note)
    (ticksPerRow : Nat) : ∃ effect, slide? note slide ticksPerRow = some effect := by
  unfold slide?
  dsimp only
  rcases UInt8.lt_or_lt_of_ne hmoves with hlt | hlt
  · rw [if_neg (UInt8.lt_asymm hlt), if_pos hlt]
    exact ⟨_, rfl⟩
  · rw [if_pos hlt]
    exact ⟨_, rfl⟩

theorem filter_stopsSlide_struck {struck : List Cell} {note : UInt8}
    (h : ∀ cell ∈ struck, ∃ m : Marker, cell ∈ m.struckCells note) (start : Nat) :
    (struck.map (Mark.mk start)).filter (·.cell.stopsSlide) = [] := by
  rw [List.filter_eq_nil_iff, List.forall_mem_map]
  intro cell hcell hstop
  obtain ⟨m, hcell⟩ := h cell hcell
  obtain rfl : cell = .effect .slideStop := of_decide_eq_true hstop
  rcases Marker.code_of_mem_struckCells hcell with hcode | hcode
  · exact absurd hcode (by decide)
  · exact absurd hcode (by decide)

theorem filter_stopsSlide_keyOffMarks (g : Grid) (tick : Nat) (tone : Tone) (next : Option Nat) :
    (g.keyOffMarks tick tone next).filter (·.cell.stopsSlide) = [] := by
  rw [List.filter_eq_nil_iff]
  intro mark hmark
  rcases Grid.cell_of_mem_keyOffMarks hmark with hcell | ⟨ticks, hcell⟩
  · rw [hcell]
    decide
  · rw [hcell]
    exact of_decide_eq_false rfl

theorem filter_stopsSlide_slideMarks (g : Grid) (tick : Nat) (next : Option Nat)
    (hslide : tone.slide = some slide) (hmoves : slide.target ≠ tone.note) :
    (g.slideMarks tick tone next).filter (·.cell.stopsSlide) =
      if next.any (· < tick + slide.ticks) then []
      else [⟨g.rowFrom (tick + slide.ticks), .effect .slideStop⟩] := by
  obtain ⟨effect, hstart⟩ := Effect.exists_slide?_of_ne hmoves g.ticksPerRow
  have hne : effect ≠ .slideStop := by
    rintro rfl
    have hown := Effect.isOfTone_of_slide? hstart
    rw [Effect.isOfTone_slideStop] at hown
    cases hown
  rw [Grid.slideMarks, hslide]
  dsimp only
  rw [hstart]
  split_ifs <;> simp [Cell.stopsSlide, hne]

theorem filter_stopsSlide_marks (part : Part)
    (hsorted : (before ++ e :: later).Pairwise (·.tick ≤ ·.tick)) (htone : e.tone? = some tone)
    (hrow : g.rowOf e.tick < g.rowCount) (hslide : tone.slide = some slide)
    (hmoves : slide.target ≠ tone.note)
    (hapart : ∀ x ∈ later, x.tone?.isSome → e.tick + slide.ticks ≤ x.tick) :
    (((Marker.start part g (before ++ e :: later)).after g before).event g e).2.marks.filter
        (·.cell.stopsSlide) = [⟨g.rowFrom (e.tick + slide.ticks), .effect .slideStop⟩] := by
  obtain ⟨struck, hstruck, hmarks⟩ := Marker.marks_event_of_tone _ htone hrow
  rw [hmarks, List.filter_append, List.filter_append, filter_stopsSlide_struck hstruck,
    filter_stopsSlide_keyOffMarks, filter_stopsSlide_slideMarks g e.tick _ hslide hmoves,
    List.nil_append, List.append_nil, if_neg]
  rw [Marker.any_next part hsorted]
  · rintro ⟨x, hx, hxtone, hlt, hbefore⟩
    rw [decide_eq_true_eq] at hbefore
    have hle := (List.pairwise_append.mp hsorted).2.2
    rcases List.mem_append.mp hx with hx | hx
    · exact absurd hlt (Nat.not_lt.mpr (hle x hx e List.mem_cons_self))
    · rcases List.mem_cons.mp hx with rfl | hx
      · exact absurd hlt (Nat.lt_irrefl _)
      · exact absurd hbefore (Nat.not_lt.mpr (hapart x hx hxtone))
  · intro s t hle ht
    rw [decide_eq_true_eq] at ht ⊢
    exact Nat.lt_of_le_of_lt hle ht

end SlideStops

/-! ## Rows that a slide ends in -/

namespace Grid

variable {g : Grid} {tick stop row : Nat}

theorem lt_rowFrom_iff (hticks : 1 ≤ g.ticksPerRow) :
    row < g.rowFrom stop ↔ row * g.ticksPerRow < stop := by
  unfold rowFrom
  rw [← Nat.succ_le_iff, Nat.le_div_iff_mul_le hticks, Nat.succ_mul]
  omega

theorem rowOf_lt_rowFrom_iff (hticks : 1 ≤ g.ticksPerRow) (hle : stop ≤ tick) :
    g.rowOf tick < g.rowFrom stop ↔ g.rowOf tick = g.rowOf stop ∧ ¬ g.ticksPerRow ∣ stop := by
  have hrows : g.rowOf stop ≤ g.rowOf tick := g.rowOf_mono hle
  rw [lt_rowFrom_iff hticks]
  constructor
  · intro hlt
    have hrow : g.rowOf tick ≤ g.rowOf stop := (Nat.le_div_iff_mul_le hticks).mpr (Nat.le_of_lt hlt)
    have heq := Nat.le_antisymm hrow hrows
    refine ⟨heq, ?_⟩
    intro hdvd
    rw [heq, rowOf, Nat.div_mul_cancel hdvd] at hlt
    exact Nat.lt_irrefl _ hlt
  · rintro ⟨heq, hdvd⟩
    rw [heq]
    apply Nat.lt_of_le_of_ne (Nat.div_mul_le_self stop g.ticksPerRow)
    intro hmul
    exact hdvd ⟨g.rowOf stop, by rw [Nat.mul_comm]; exact hmul.symm⟩

end Grid

theorem slideFits_of_play {part : Part} {defined : UInt8 → Bool} {c : Cursor} {t : Timeline}
    {ws : Warnings} (h : play part defined c = (.ok t, ws)) :
    ∀ e ∈ t.events, e.action.SlideFits := by
  obtain ⟨n, m, hn, hafter, rfl⟩ := exists_timedAfter_of_play h
  exact hafter.timed.fills.slide_le

/-- Whatever comes next, a slide that moves the pitch is stopped once: where the first row starts in
which it is over. That is after the row of a later tone exactly if the tone starts in the row in
which the slide ends, and the slide does not end with the start of that row. -/
theorem layOut_slideStop {part : Part} {defined : UInt8 → Bool} {c : Cursor} {t : Timeline}
    {ws : Warnings} (h : play part defined c = (.ok t, ws)) (g : Grid) (hticks : 1 ≤ g.ticksPerRow)
    {before later : List Event} {e : Event} {tone : Tone} {slide : Slide}
    (hevents : t.events = before ++ e :: later) (hrow : g.rowOf e.tick < g.rowCount)
    (htone : e.tone? = some tone) (hslide : tone.slide = some slide)
    (hmoves : slide.target ≠ tone.note) :
    let stop := e.tick + slide.ticks
    (∃ ink, (g.inks t.part t.events)[before.length]? = some ink ∧
      ink.marks.filter (·.cell = .effect .slideStop) =
        [⟨g.rowFrom stop, .effect .slideStop⟩]) ∧
    (g.rowFrom stop < g.rowCount → ∃ r,
      (g.layOut t.part t.events).1[g.rowFrom stop]? = some r ∧ .slideStop ∈ r.effects) ∧
    ∀ x ∈ later, x.tone?.isSome → stop ≤ x.tick ∧ (g.rowOf x.tick < g.rowFrom stop ↔
      g.rowOf x.tick = g.rowOf stop ∧ ¬ g.ticksPerRow ∣ stop) := by
  intro stop
  have hfits := slideFits_of_play h e (by simp [hevents]) tone htone slide hslide
  obtain ⟨n, m, hn, hafter, hplayed⟩ := exists_timedAfter_of_play h
  have ht : t.Gapless := by
    rw [hplayed]
    exact hafter.gapless hn
  have hapart : ∀ x ∈ later, x.tone?.isSome → stop ≤ x.tick := by
    intro x hx hxtone
    exact Nat.le_trans (Nat.add_le_add_left hfits _) (ht.le_tick hevents htone hx hxtone)
  have hsorted := ht.sorted
  rw [hevents] at hsorted ⊢
  have hmarks := filter_stopsSlide_marks t.part hsorted htone hrow hslide hmoves hapart
  have hink := Marker.getElem?_inks_append g (.start t.part g (before ++ e :: later)) before later e
  refine ⟨⟨_, hink, hmarks⟩, ?_, ?_⟩
  · intro hgrid
    have hmark : ⟨g.rowFrom stop, .effect .slideStop⟩ ∈ g.marked t.part (before ++ e :: later) := by
      have hstop := List.mem_singleton_self (Mark.mk (g.rowFrom stop) (.effect .slideStop))
      rw [← hmarks] at hstop
      exact mem_marked_of_ink hink (List.mem_filter.mp hstop).1
    exact ⟨_, g.getElem?_layOut _ _ hgrid, Row.effect_mem_ofCells.mpr (Grid.mem_rowCells.mpr hmark)⟩
  · intro x hx hxtone
    have hle := hapart x hx hxtone
    exact ⟨hle, Grid.rowOf_lt_rowFrom_iff hticks hle⟩

/-- A slide of four ticks, and a slide of twelve that starts when that one has ended. -/
def twoSlides : List UInt8 := [0xDA, 0x30, 0x34, 4, 0xDA, 0x32, 0x37, 12, 0x0F, 6, 0x80]

def twoSlideEvents : List Event :=
  [⟨0, .noteOn ⟨96, 4, .ticks 0, some ⟨100, 4⟩⟩⟩, ⟨4, .noteOn ⟨98, 12, .ticks 0, some ⟨103, 12⟩⟩⟩,
    ⟨16, .rest 6⟩]

theorem play_twoSlides : ∃ t ws, play ⟨0⟩ (fun _ => false) (.ofList twoSlides) = (.ok t, ws) ∧
    t.part = ⟨0⟩ ∧ t.events = twoSlideEvents := by
  have hruns : (play ⟨0⟩ (fun _ => false) (.ofList twoSlides)).1.toOption.map
      (fun t => (t.part, t.events)) = some (⟨0⟩, twoSlideEvents) := by
    decide +kernel
  obtain ⟨t, ws, h, hread⟩ := exists_play_of_map hruns
  obtain ⟨hpart, hevents⟩ := Prod.ext_iff.mp hread
  exact ⟨t, ws, h, hpart, hevents⟩

theorem layOut_slideStop_twoSlides :
    let g : Grid := ⟨4, 6, ⟨75⟩⟩
    ∃ t ws r, play ⟨0⟩ (fun _ => false) (.ofList twoSlides) = (.ok t, ws) ∧
      (g.layOut t.part t.events).1[1]? = some r ∧ .slideStop ∈ r.effects ∧
      ∀ x ∈ t.events.tail, x.tone?.isSome → ¬ g.rowOf x.tick < 1 := by
  intro g
  obtain ⟨t, ws, h, -, hevents⟩ := play_twoSlides
  obtain ⟨-, hstop, hlater⟩ := layOut_slideStop h g (by decide)
    (show t.events = [] ++ _ :: _ from hevents) (by decide) rfl rfl (by decide)
  have hrow : g.rowFrom (0 + 4) = 1 := by decide
  rw [hrow] at hstop hlater
  obtain ⟨r, hr, hmem⟩ := hstop (by decide)
  refine ⟨t, ws, r, h, hr, hmem, ?_⟩
  rw [hevents]
  intro x hx hxtone hlt
  exact ((hlater x hx hxtone).2.mp hlt).2 (by decide)

/-- With three ticks a row, the second slide starts in row 1, but the stop of the first one stands
in row 2. -/
theorem slideStop_after_next_slide :
    let g : Grid := ⟨3, 8, ⟨75⟩⟩
    ∃ t ws first second r, play ⟨0⟩ (fun _ => false) (.ofList twoSlides) = (.ok t, ws) ∧
      t.events[0]? = some first ∧ t.events[1]? = some second ∧ second.tone?.isSome ∧
      g.rowOf second.tick < g.rowFrom (first.tick + 4) ∧
      first.tone?.map Tone.slide = some (some ⟨100, 4⟩) ∧
      (∃ ink, (g.inks t.part t.events)[0]? = some ink ∧ ⟨2, .effect .slideStop⟩ ∈ ink.marks) ∧
      (g.layOut t.part t.events).1[2]? = some r ∧ .slideStop ∈ r.effects := by
  intro g
  obtain ⟨t, ws, h, hpart, hevents⟩ := play_twoSlides
  have hstops : (g.inks ⟨0⟩ twoSlideEvents)[0]?.any
      fun ink => ⟨2, .effect .slideStop⟩ ∈ ink.marks := by
    decide +kernel
  obtain ⟨ink, hink, hmark⟩ := (Option.any_eq_true _ _).mp hstops
  refine ⟨t, ws, ⟨0, .noteOn ⟨96, 4, .ticks 0, some ⟨100, 4⟩⟩⟩,
    ⟨4, .noteOn ⟨98, 12, .ticks 0, some ⟨103, 12⟩⟩⟩, { effects := [.slideStop] }, h, ?_⟩
  rw [hpart, hevents]
  exact ⟨rfl, rfl, rfl, by decide, rfl, ⟨ink, hink, of_decide_eq_true hmark⟩,
    by decide +kernel, List.mem_singleton_self _⟩

end ChipScore
