import ChipScore.Proofs.Arrangement
import ChipScore.Proofs.RowMarks

/-!
# Passages that start later

A passage that starts some whole rows later stands in the grid that many rows later, cell by cell.
What it loses is the same too, and is told with the later rows.
-/

namespace ChipScore

/-! ## The same thing later -/

def Event.delay (ticks : Nat) (e : Event) : Event := { e with tick := e.tick + ticks }

/-- The grid with some more rows in front. -/
def Grid.delay (rows : Nat) (g : Grid) : Grid := { g with rowCount := g.rowCount + rows }

def Mark.delay (rows : Nat) (mark : Mark) : Mark := { mark with row := mark.row + rows }

def KeyOff.delay (rows : Nat) : KeyOff → KeyOff
  | cut ticks => cut ticks
  | row r => row (r + rows)

/-- The same loss, told with another row. -/
def Loss.mapRow (f : Nat → Nat) : Loss → Loss
  | notesPastRow row => notesPastRow (f row)
  | sharedRow row => sharedRow (f row)
  | effectDropped code value row => effectDropped code value (f row)
  | loopRowMoved row order => loopRowMoved (f row) order
  | loss => loss

def Loss.delay (rows : Nat) : Loss → Loss := mapRow (· + rows)

def Warning.mapRow (f : Nat → Nat) : Warning → Warning
  | unsupported source feature => unsupported source feature
  | overflow source loss => overflow source (loss.mapRow f)

def Warning.delay (rows : Nat) : Warning → Warning := mapRow (· + rows)

def Warnings.delay (rows : Nat) (ws : Warnings) : Warnings := ⟨ws.items.map (Warning.delay rows)⟩

namespace Marker

def Ink.delay (rows : Nat) (ink : Ink) : Ink where
  marks := ink.marks.map (Mark.delay rows)
  losses := ink.losses.map (Loss.delay rows)

def delay (ticks rows : Nat) (m : Marker) : Marker :=
  { m with
    sounding := m.sounding.map fun (note, stop) => (note, stop + ticks)
    lastOn := m.lastOn.map (· + rows)
    starts := m.starts.map (· + ticks) }

end Marker

@[simp] theorem Grid.rowCount_delay (rows : Nat) (g : Grid) :
    (g.delay rows).rowCount = g.rowCount + rows := rfl

/-! ## Ends of tones -/

theorem Gate.silence_le (gate : Gate) (duration : Nat) : gate.silence duration ≤ duration := by
  unfold silence
  split
  · exact Nat.min_le_right _ _
  · split
    · exact Nat.zero_le _
    · exact Nat.sub_le _ _

theorem Gate.release_add (gate : Gate) (start duration ticks : Nat) :
    gate.release (start + ticks) duration = gate.release start duration + ticks := by
  have := gate.silence_le duration
  unfold release
  omega

namespace Grid

variable {g : Grid} (rows tick : Nat) (tone : Tone) (next : Option Nat)

theorem rowOf_add (hticks : 0 < g.ticksPerRow) :
    g.rowOf (tick + rows * g.ticksPerRow) = g.rowOf tick + rows :=
  Nat.add_mul_div_right tick rows hticks

theorem rowOf_delay (hticks : 0 < g.ticksPerRow) :
    (g.delay rows).rowOf (tick + rows * g.ticksPerRow) = g.rowOf tick + rows :=
  rowOf_add rows tick hticks

theorem rowFrom_add (hticks : 0 < g.ticksPerRow) :
    g.rowFrom (tick + rows * g.ticksPerRow) = g.rowFrom tick + rows := by
  unfold rowFrom
  rw [← Nat.add_mul_div_right _ _ hticks]
  congr 1
  omega

theorem keyOff_add (hticks : 0 < g.ticksPerRow) :
    g.keyOff (tick + rows * g.ticksPerRow) tone = (g.keyOff tick tone).delay rows := by
  have hstop : tick + rows * g.ticksPerRow + tone.duration =
      tick + tone.duration + rows * g.ticksPerRow := Nat.add_right_comm _ _ _
  have hcut : (g.rowOf tick + rows) * g.ticksPerRow =
      g.rowOf tick * g.ticksPerRow + rows * g.ticksPerRow := Nat.add_mul _ _ _
  have hend : max (g.rowFrom (tick + tone.duration) + rows) (g.rowOf tick + rows + 1) =
      max (g.rowFrom (tick + tone.duration)) (g.rowOf tick + 1) + rows := by
    omega
  unfold keyOff
  dsimp only
  rw [Gate.release_add, hstop, rowOf_add _ _ hticks, rowOf_add _ _ hticks, rowFrom_add _ _ hticks,
    hcut, hend, Nat.add_sub_add_right]
  simp only [Nat.add_lt_add_iff_right, Nat.add_right_cancel_iff, Nat.add_right_comm _ rows 1]
  split_ifs
  · rfl
  · rfl
  · rfl

theorem keyOffMarks_add (hticks : 0 < g.ticksPerRow) :
    g.keyOffMarks (tick + rows * g.ticksPerRow) tone (next.map (· + rows * g.ticksPerRow)) =
      (g.keyOffMarks tick tone next).map (Mark.delay rows) := by
  unfold keyOffMarks
  rw [keyOff_add _ _ _ hticks]
  cases g.keyOff tick tone with
  | cut ticks =>
    dsimp only [KeyOff.delay]
    rw [rowOf_add _ _ hticks]
    rfl
  | row row =>
    dsimp only [KeyOff.delay]
    have hnext : (next.map (· + rows * g.ticksPerRow)).any (g.rowOf · ≤ row + rows) =
        next.any (g.rowOf · ≤ row) := by
      cases next with
      | none => rfl
      | some start => simp [rowOf_add _ _ hticks]
    rw [hnext]
    split
    · rfl
    · rfl

theorem slideMarks_add (hticks : 0 < g.ticksPerRow) :
    g.slideMarks (tick + rows * g.ticksPerRow) tone (next.map (· + rows * g.ticksPerRow)) =
      (g.slideMarks tick tone next).map (Mark.delay rows) := by
  unfold slideMarks
  cases tone.slide with
  | none => rfl
  | some slide =>
    dsimp only
    cases Effect.slide? tone.note slide g.ticksPerRow with
    | none => rfl
    | some effect =>
      dsimp only
      have hstop : tick + rows * g.ticksPerRow + slide.ticks =
          tick + slide.ticks + rows * g.ticksPerRow := Nat.add_right_comm _ _ _
      have hnext : (next.map (· + rows * g.ticksPerRow)).any
            (· < tick + slide.ticks + rows * g.ticksPerRow) =
          next.any (· < tick + slide.ticks) := by
        cases next with
        | none => rfl
        | some start => simp
      rw [hstop, hnext, rowOf_add _ _ hticks, rowFrom_add _ _ hticks, List.map_cons]
      split
      · rfl
      · rfl

end Grid

/-! ## One event -/

namespace Marker

variable {g : Grid} (m : Marker) (rows tick : Nat)

theorem struckLosses_delay (ticks row : Nat) :
    (m.delay ticks rows).struckLosses (row + rows) =
      (m.struckLosses row).map (Loss.delay rows) := by
  have hrow : (m.delay ticks rows).lastOn = some (row + rows) ↔ m.lastOn = some row := by
    unfold delay
    dsimp only
    cases m.lastOn with
    | none => simp
    | some last => simp
  unfold struckLosses
  rw [List.map_append, apply_ite (List.map _), apply_ite (List.map _)]
  simp only [hrow]
  rfl

theorem slideLosses_delay (tone : Tone) :
    (slideLosses tone).map (Loss.delay rows) = slideLosses tone := by
  unfold slideLosses
  split
  · split
    · rfl
    · rfl
  · rfl

theorem continues_delay (ticks : Nat) (action : Action) (tone : Tone) :
    (m.delay ticks rows).continues action tone = m.continues action tone := by
  unfold continues delay
  cases m.sounding with
  | none => rfl
  | some sounding => rfl

theorem ending_delay (tone : Tone) (hticks : 0 < g.ticksPerRow) :
    (g.delay rows).slideMarks (tick + rows * g.ticksPerRow) tone
          (m.delay (rows * g.ticksPerRow) rows).starts.head? ++
        (g.delay rows).keyOffMarks (tick + rows * g.ticksPerRow) tone
          (m.delay (rows * g.ticksPerRow) rows).starts.head? =
      (g.slideMarks tick tone m.starts.head? ++ g.keyOffMarks tick tone m.starts.head?).map
        (Mark.delay rows) := by
  have hnext : (m.delay (rows * g.ticksPerRow) rows).starts.head? =
      m.starts.head?.map (· + rows * g.ticksPerRow) := List.head?_map
  rw [hnext, List.map_append, ← g.slideMarks_add _ _ _ _ hticks, ← g.keyOffMarks_add _ _ _ _ hticks]
  rfl

theorem sound_delay (action : Action) (tone : Tone) (hticks : 0 < g.ticksPerRow) :
    (m.delay (rows * g.ticksPerRow) rows).sound (g.delay rows) (tick + rows * g.ticksPerRow)
        action tone =
      Prod.map (delay (rows * g.ticksPerRow) rows) (Ink.delay rows)
        (m.sound g tick action tone) := by
  have hstop : tick + rows * g.ticksPerRow + tone.duration =
      tick + tone.duration + rows * g.ticksPerRow := Nat.add_right_comm _ _ _
  unfold sound
  dsimp only
  rw [Grid.rowOf_delay _ _ hticks, ending_delay _ _ _ _ hticks, continues_delay,
    struckLosses_delay, hstop]
  simp only [Grid.rowCount_delay, Nat.add_le_add_iff_right]
  split
  · rfl
  · split
    · exact Prod.ext rfl (congrArg (Ink.mk _) (slideLosses_delay rows tone).symm)
    · refine Prod.ext rfl (congrArg₂ Ink.mk ?_ ?_)
      · simp only [List.map_append, List.map_map]
        rfl
      · rw [List.map_append, slideLosses_delay]

theorem changePan_delay (pan : Pan) (hticks : 0 < g.ticksPerRow) :
    (m.delay (rows * g.ticksPerRow) rows).changePan (g.delay rows) (tick + rows * g.ticksPerRow)
        pan =
      Prod.map (delay (rows * g.ticksPerRow) rows) (Ink.delay rows) (m.changePan g tick pan) := by
  have hsounding : (m.delay (rows * g.ticksPerRow) rows).sounding.any
        (tick + rows * g.ticksPerRow < ·.2) = m.sounding.any (tick < ·.2) := by
    unfold delay
    cases m.sounding with
    | none => rfl
    | some sounding => simp
  unfold changePan
  dsimp only
  rw [Grid.rowOf_delay _ _ hticks, hsounding]
  simp only [Grid.rowCount_delay, Nat.add_lt_add_iff_right]
  split
  · rfl
  · rfl

theorem changeTempo_delay (tempo : Tempo) (hticks : 0 < g.ticksPerRow) :
    (m.delay (rows * g.ticksPerRow) rows).changeTempo (g.delay rows)
        (tick + rows * g.ticksPerRow) tempo =
      Prod.map (delay (rows * g.ticksPerRow) rows) (Ink.delay rows)
        (m.changeTempo g tick tempo) := by
  unfold changeTempo delay
  dsimp only
  rw [Grid.rowOf_delay _ _ hticks]
  simp only [Grid.rowCount_delay, Nat.add_lt_add_iff_right]
  split
  · rfl
  · rfl

theorem change_delay (parameter : Parameter) (hticks : 0 < g.ticksPerRow) :
    (m.delay (rows * g.ticksPerRow) rows).change (g.delay rows) (tick + rows * g.ticksPerRow)
        parameter =
      Prod.map (delay (rows * g.ticksPerRow) rows) (Ink.delay rows)
        (m.change g tick parameter) := by
  cases parameter with
  | pan pan => exact changePan_delay { m with settings := _ } rows tick pan hticks
  | tempo tempo => exact changeTempo_delay { m with settings := _ } rows tick tempo hticks
  | _ => rfl

theorem dropWhile_starts_delay (ticks : Nat) :
    ({ m.delay ticks rows with
        starts := (m.delay ticks rows).starts.dropWhile (· ≤ tick + ticks) } : Marker) =
      delay ticks rows { m with starts := m.starts.dropWhile (· ≤ tick) } := by
  unfold delay
  dsimp only
  rw [List.dropWhile_map]
  congr 3
  funext start
  simp

/-- What one event does is the same later. -/
theorem event_delay (e : Event) (hticks : 0 < g.ticksPerRow) :
    (m.delay (rows * g.ticksPerRow) rows).event (g.delay rows) (e.delay (rows * g.ticksPerRow)) =
      Prod.map (delay (rows * g.ticksPerRow) rows) (Ink.delay rows) (m.event g e) := by
  obtain ⟨tick, action⟩ := e
  have hpassed := m.dropWhile_starts_delay rows tick (rows * g.ticksPerRow)
  cases action with
  | noteOn tone =>
    refine (congrArg (sound (g.delay rows) · _ _ tone) hpassed).trans ?_
    exact sound_delay _ rows tick _ tone hticks
  | tie tone =>
    refine (congrArg (sound (g.delay rows) · _ _ tone) hpassed).trans ?_
    exact sound_delay _ rows tick _ tone hticks
  | rest duration =>
    exact congrArg (fun m : Marker => ({ m with sounding := none }, ({} : Ink))) hpassed
  | change parameter =>
    refine (congrArg (change (g.delay rows) · _ parameter) hpassed).trans ?_
    exact change_delay _ rows tick parameter hticks

theorem start_delay (part : Part) (events : List Event) (ticks : Nat) :
    start part (g.delay rows) (events.map (Event.delay ticks)) =
      (start part g events).delay ticks rows := by
  unfold start delay
  dsimp only
  rw [List.filterMap_map, List.map_filterMap]
  congr 2
  funext e
  change e.action.tone?.map _ = (e.action.tone?.map _).map _
  rw [Option.map_map]
  rfl

theorem inks_delay (events : List Event) (hticks : 0 < g.ticksPerRow) :
    (m.delay (rows * g.ticksPerRow) rows).inks (g.delay rows)
        (events.map (Event.delay (rows * g.ticksPerRow))) =
      (m.inks g events).map (Ink.delay rows) := by
  -- The markers of both runs stay apart by the same delay, by `event_delay`.
  induction events generalizing m with
  | nil => rfl
  | cons e events ih =>
    rw [List.map_cons]
    unfold inks
    rw [event_delay _ _ _ hticks]
    exact congrArg _ (ih _)

end Marker

/-! ## Rows -/

namespace Grid

variable {g : Grid} (part : Part) (events : List Event) (rows row : Nat)

theorem inks_delay (hticks : 0 < g.ticksPerRow) :
    (g.delay rows).inks part (events.map (Event.delay (rows * g.ticksPerRow))) =
      (g.inks part events).map (Marker.Ink.delay rows) := by
  unfold inks
  rw [Marker.start_delay, Marker.inks_delay _ _ _ hticks]

theorem marked_delay (hticks : 0 < g.ticksPerRow) :
    (g.delay rows).marked part (events.map (Event.delay (rows * g.ticksPerRow))) =
      (g.marked part events).map (Mark.delay rows) := by
  unfold marked
  rw [inks_delay _ _ _ hticks, List.flatMap_map, List.map_flatMap]
  rfl

theorem rowCells_delay_of_lt (hticks : 0 < g.ticksPerRow) (h : row < rows) :
    (g.delay rows).rowCells part (events.map (Event.delay (rows * g.ticksPerRow))) row = [] := by
  unfold rowCells
  rw [marked_delay _ _ _ hticks, List.map_eq_nil_iff, List.filter_eq_nil_iff]
  intro mark hmark
  obtain ⟨mark, -, rfl⟩ := List.mem_map.mp hmark
  have : row ≠ mark.row + rows := by omega
  exact fun heq => this (of_decide_eq_true heq).symm

theorem rowCells_delay_add (hticks : 0 < g.ticksPerRow) :
    (g.delay rows).rowCells part (events.map (Event.delay (rows * g.ticksPerRow))) (rows + row) =
      g.rowCells part events row := by
  have hrow : ((fun mark : Mark => decide (mark.row = rows + row)) ∘ Mark.delay rows) =
      fun mark => decide (mark.row = row) := by
    funext mark
    simp [Mark.delay, Nat.add_comm rows row]
  unfold rowCells
  rw [marked_delay _ _ _ hticks, List.filter_map, List.map_map, hrow]
  rfl

theorem rows_delay (hticks : 0 < g.ticksPerRow) :
    ((g.delay rows).layOut part (events.map (Event.delay (rows * g.ticksPerRow)))).1 =
      List.replicate rows Row.empty ++ (g.layOut part events).1 := by
  -- The rows in front, the rows of the grid, and what lies past it.
  refine List.ext_getElem? fun row => ?_
  rcases Nat.lt_or_ge row rows with h | h
  · rw [getElem?_layOut _ _ _ (Nat.lt_add_left _ h), rowCells_delay_of_lt _ _ _ _ hticks h,
      List.getElem?_append_left (by simpa using h), List.getElem?_replicate_of_lt h]
    rfl
  · obtain ⟨row, rfl⟩ := Nat.exists_eq_add_of_le h
    rw [List.getElem?_append_right (by simp), List.length_replicate, Nat.add_sub_cancel_left]
    rcases Nat.lt_or_ge row g.rowCount with hrow | hrow
    · rw [getElem?_layOut _ _ _ (by rw [rowCount_delay]; omega), rowCells_delay_add _ _ _ _ hticks,
        getElem?_layOut _ _ _ hrow]
    · rw [List.getElem?_eq_none (by rw [length_layOut, rowCount_delay]; omega),
        List.getElem?_eq_none (by rwa [length_layOut])]

theorem losses_delay (hticks : 0 < g.ticksPerRow) :
    ((g.delay rows).layOut part (events.map (Event.delay (rows * g.ticksPerRow)))).2 =
      (g.layOut part events).2.map (Loss.delay rows) := by
  rw [losses_layOut, losses_layOut, inks_delay _ _ _ hticks, List.flatMap_map, List.map_flatMap]
  rfl

end Grid

/-! ## Warnings -/

theorem Loss.leftInverse_delay (rows : Nat) :
    Function.LeftInverse (mapRow (· - rows)) (delay rows) := by
  intro loss
  cases loss with
  | notesPastRow row => exact congrArg notesPastRow (Nat.add_sub_cancel row rows)
  | sharedRow row => exact congrArg sharedRow (Nat.add_sub_cancel row rows)
  | effectDropped code value row =>
    exact congrArg (effectDropped code value) (Nat.add_sub_cancel row rows)
  | loopRowMoved row order => exact congrArg (loopRowMoved · order) (Nat.add_sub_cancel row rows)
  | _ => rfl

theorem Warning.leftInverse_delay (rows : Nat) :
    Function.LeftInverse (mapRow (· - rows)) (delay rows) := by
  intro warning
  cases warning with
  | unsupported source feature => rfl
  | overflow source loss => exact congrArg (overflow source) (Loss.leftInverse_delay rows loss)

namespace Warnings

variable (rows : Nat) (ws : Warnings)

@[simp] theorem delay_empty : empty.delay rows = empty := by
  simp [delay, empty]

theorem push_delay (w : Warning) :
    (ws.delay rows).push (w.delay rows) = (ws.push w).delay rows := by
  have hcontains : (ws.delay rows).items.contains (w.delay rows) = ws.items.contains w := by
    rw [Bool.eq_iff_iff, Array.contains_iff_mem, Array.contains_iff_mem]
    unfold delay
    rw [Array.mem_map]
    constructor
    · rintro ⟨v, hv, heq⟩
      rwa [(Warning.leftInverse_delay rows).injective heq] at hv
    · intro hw
      exact ⟨w, hw, rfl⟩
  unfold push
  rw [hcontains]
  split
  · rfl
  · unfold delay
    rw [Array.map_push]

theorem append_delay (more : List Warning) :
    (ws.delay rows).append (more.map (Warning.delay rows)) = (ws.append more).delay rows := by
  unfold append
  induction more generalizing ws with
  | nil => rfl
  | cons w more ih =>
    rw [List.map_cons, List.foldl_cons, List.foldl_cons, push_delay]
    exact ih _

end Warnings

/-! ## The whole passage -/

/-- A passage that starts some rows later gets as many empty rows in front of the same rows. It
loses the same, in the same order, and the warnings differ in their rows only. -/
theorem layOut_delay (g : Grid) (part : Part) (events : List Event) (rows : Nat) (ws : Warnings)
    (hticks : 0 < g.ticksPerRow) :
    let later := (g.delay rows).layOut part (events.map (Event.delay (rows * g.ticksPerRow)))
    later.1 = List.replicate rows Row.empty ++ (g.layOut part events).1 ∧
      later.2 = (g.layOut part events).2.map (Loss.delay rows) ∧
      (ws.delay rows).append (Arrangement.partWarnings part later.2) =
        (ws.append (Arrangement.partWarnings part (g.layOut part events).2)).delay rows := by
  intro later
  have hlosses : later.2 = (g.layOut part events).2.map (Loss.delay rows) :=
    Grid.losses_delay part events rows hticks
  refine ⟨Grid.rows_delay part events rows hticks, hlosses, ?_⟩
  rw [hlosses, ← Warnings.append_delay]
  unfold Arrangement.partWarnings
  rw [List.map_map, List.map_map]
  rfl

/-- The first two notes share a row, the last two come after the fourth row. A slide, a pan and a
cut stand between them. -/
def crowdedPassage : List Event :=
  [⟨0, .noteOn ⟨60, 3, .full, none⟩⟩, ⟨3, .noteOn ⟨62, 9, .ticks 2, some ⟨64, 6⟩⟩⟩,
    ⟨7, .change (.pan .left)⟩, ⟨12, .tie ⟨62, 4, .eighths 4, none⟩⟩, ⟨16, .rest 8⟩,
    ⟨24, .noteOn ⟨60, 6, .full, none⟩⟩, ⟨30, .noteOn ⟨64, 6, .full, none⟩⟩]

theorem layOut_delay_crowdedPassage :
    let g : Grid := ⟨6, 4, {}⟩
    let later := (g.delay 2).layOut ⟨0⟩ (crowdedPassage.map (Event.delay (2 * g.ticksPerRow)))
    0 < g.ticksPerRow ∧
      later.1 = [.empty, .empty, ⟨some (.on 62), some (.fm 0), some 108, [⟨0xE1, 0xF2⟩]⟩,
        ⟨none, none, none, [.pan .left]⟩, ⟨none, none, none, [.slideStop, .noteCut 2]⟩, .empty] ∧
      later.2 = [.sharedRow 2, .notesPastRow 6, .notesPastRow 6] ∧
      (Warnings.ofList (Arrangement.partWarnings ⟨0⟩ later.2)).toList =
        [.overflow (.part ⟨0⟩) (.sharedRow 2), .overflow (.part ⟨0⟩) (.notesPastRow 6)] := by
  intro g later
  have hticks : 0 < g.ticksPerRow := by decide
  obtain ⟨hrows, hlosses, hwarnings⟩ := layOut_delay g ⟨0⟩ crowdedPassage 2 .empty hticks
  have hplain : g.layOut ⟨0⟩ crowdedPassage =
      ([⟨some (.on 62), some (.fm 0), some 108, [⟨0xE1, 0xF2⟩]⟩,
        ⟨none, none, none, [.pan .left]⟩, ⟨none, none, none, [.slideStop, .noteCut 2]⟩, .empty],
        [.sharedRow 0, .notesPastRow 4, .notesPastRow 4]) := by
    decide +kernel
  rw [hplain] at hrows hlosses hwarnings
  rw [Warnings.delay_empty] at hwarnings
  refine ⟨hticks, hrows, hlosses, (congrArg Warnings.toList hwarnings).trans ?_⟩
  decide +kernel

end ChipScore
