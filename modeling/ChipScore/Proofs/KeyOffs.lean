import ChipScore.Proofs.KeyOns

/-!
# Key-offs

Every tone of the grid is let go: by a cut in its own row, by the next tone, or by a key-off in a
later row that no note replaces, unless that row lies past the grid.
-/

namespace ChipScore

/-! ## Where a tone is let go -/

def Tone.release (tone : Tone) (tick : Nat) : Nat := tone.gate.release tick tone.duration

namespace Grid

variable (g : Grid) (tick : Nat) (tone : Tone)

/-- The key is let go before the end of the tone, and in the row in which the tone starts. -/
def LetsGoInRow : Prop :=
  tone.release tick < tick + tone.duration ∧ g.rowOf (tone.release tick) = g.rowOf tick

/-- The row from which on the tone is over. -/
def endRow : Nat := max (g.rowFrom (tick + tone.duration)) (g.rowOf tick + 1)

def offRow : Nat :=
  if tone.release tick < tick + tone.duration ∧ g.rowOf (tone.release tick) + 1 < g.endRow tick tone
  then g.rowOf (tone.release tick)
  else g.endRow tick tone

/-- A later tone starts no later than in the row in which this one is let go. -/
def TakenOver (events : List Event) : Prop :=
  ∃ later ∈ events, later.tone?.isSome ∧ tick < later.tick ∧
    g.rowOf later.tick ≤ g.offRow tick tone

instance : Decidable (g.LetsGoInRow tick tone) := by
  unfold LetsGoInRow
  infer_instance

instance (events : List Event) : Decidable (g.TakenOver tick tone events) := by
  unfold TakenOver
  infer_instance

/-- A tone is ended once at most: by a cut in its row if it has one, or else by a key-off, unless a
later tone ends it. -/
def endMarks (events : List Event) : List Mark :=
  if g.LetsGoInRow tick tone then
    [⟨g.rowOf tick, .effect (.noteCut (tone.release tick - g.rowOf tick * g.ticksPerRow))⟩]
  else if g.TakenOver tick tone events then []
  else [⟨g.offRow tick tone, .keyOff⟩]

theorem keyOff_eq : g.keyOff tick tone =
    if g.LetsGoInRow tick tone then .cut (tone.release tick - g.rowOf tick * g.ticksPerRow)
    else .row (g.offRow tick tone) := rfl

variable {g tick tone}

theorem rowOf_lt_endRow : g.rowOf tick < g.endRow tick tone := by
  unfold endRow
  omega

theorem lt_release : tick < tone.release tick := by
  unfold Tone.release Gate.release
  omega

theorem rowOf_lt_offRow (h : ¬ g.LetsGoInRow tick tone) : g.rowOf tick < g.offRow tick tone := by
  unfold offRow
  split
  · rename_i hearly
    have hle : g.rowOf tick ≤ g.rowOf (tone.release tick) := g.rowOf_mono (Nat.le_of_lt lt_release)
    have hne : g.rowOf (tone.release tick) ≠ g.rowOf tick := fun heq => h ⟨hearly.1, heq⟩
    omega
  · exact rowOf_lt_endRow

theorem cut_bounds (hticks : 1 ≤ g.ticksPerRow) (h : g.LetsGoInRow tick tone) :
    g.rowOf tick * g.ticksPerRow < tone.release tick ∧
      tone.release tick < g.rowOf tick * g.ticksPerRow + g.ticksPerRow := by
  constructor
  · exact Nat.lt_of_le_of_lt (Nat.div_mul_le_self tick g.ticksPerRow) lt_release
  · rw [← h.2, ← Nat.succ_mul, Nat.mul_comm]
    exact Nat.lt_mul_div_succ _ hticks

end Grid

/-! ## The next tone -/

theorem dropWhile_le_dropWhile_le {s t : Nat} (h : s ≤ t) (ticks : List Nat) :
    (ticks.dropWhile (· ≤ s)).dropWhile (· ≤ t) = ticks.dropWhile (· ≤ t) := by
  induction ticks with
  | nil => rfl
  | cons tick ticks ih =>
    rw [List.dropWhile_cons]
    split
    · rename_i hle
      rw [decide_eq_true_eq] at hle
      rw [ih, List.dropWhile_cons_of_pos (by simpa using Nat.le_trans hle h)]
    · rfl

theorem mem_dropWhile_le {ticks : List Nat} (hsorted : ticks.Pairwise (· ≤ ·)) {s t : Nat} :
    s ∈ ticks.dropWhile (· ≤ t) ↔ s ∈ ticks ∧ t < s := by
  induction ticks with
  | nil => simp
  | cons tick ticks ih =>
    rw [List.pairwise_cons] at hsorted
    rw [List.dropWhile_cons]
    split
    · rename_i hle
      rw [decide_eq_true_eq] at hle
      rw [ih hsorted.2, List.mem_cons]
      constructor
      · exact fun ⟨hmem, hlt⟩ => ⟨.inr hmem, hlt⟩
      · rintro ⟨rfl | hmem, hlt⟩
        · omega
        · exact ⟨hmem, hlt⟩
    · rename_i hgt
      rw [decide_eq_true_eq, Nat.not_le] at hgt
      constructor
      · intro hmem
        refine ⟨hmem, ?_⟩
        rcases List.mem_cons.mp hmem with rfl | hmem
        · exact hgt
        · exact Nat.lt_of_lt_of_le hgt (hsorted.1 s hmem)
      · exact And.left

theorem any_head?_of_sorted {p : Nat → Bool} (hdown : ∀ s t, s ≤ t → p t = true → p s = true)
    {ticks : List Nat} (hsorted : ticks.Pairwise (· ≤ ·)) :
    ticks.head?.any p ↔ ∃ tick ∈ ticks, p tick = true := by
  cases ticks with
  | nil => simp
  | cons first ticks =>
    rw [List.head?_cons, Option.any_some]
    constructor
    · exact fun h => ⟨first, List.mem_cons_self, h⟩
    · rintro ⟨tick, hmem, htick⟩
      rcases List.mem_cons.mp hmem with rfl | hmem
      · exact htick
      · exact hdown first tick ((List.pairwise_cons.mp hsorted).1 tick hmem) htick

namespace Marker

variable {g : Grid} {m : Marker} {part : Part} {events before later : List Event} {e : Event}
  {tone : Tone}

theorem starts_event (g : Grid) (m : Marker) (e : Event) :
    (m.event g e).1.starts = m.starts.dropWhile (· ≤ e.tick) := by
  cases htone : e.tone? with
  | some tone =>
    rw [m.event_of_tone htone, sound]
    dsimp only
    split_ifs <;> rfl
  | none =>
    rcases Action.eq_of_tone?_none htone with ⟨duration, haction⟩ | ⟨parameter, haction⟩
    · rw [event_of_rest g m haction]
    · obtain ⟨⟨settings, written, pendingPan, heq⟩, -⟩ := event_of_change g m haction
      rw [heq]

theorem starts_after (m : Marker) {tick : Nat} (hticks : ∀ e ∈ before, e.tick ≤ tick) :
    (m.after g before).starts.dropWhile (· ≤ tick) = m.starts.dropWhile (· ≤ tick) := by
  induction before using List.reverseRecOn with
  | nil => rfl
  | append_singleton before e ih =>
    rw [List.forall_mem_append, List.forall_mem_singleton] at hticks
    rw [after_snoc, starts_event, dropWhile_le_dropWhile_le hticks.2, ih hticks.1]

theorem mem_starts {tick : Nat} : tick ∈ (start part g events).starts ↔
    ∃ e ∈ events, e.tone?.isSome ∧ e.tick = tick := by
  simp [start, Option.isSome_iff_exists]

theorem sorted_starts (part : Part) (hsorted : events.Pairwise (·.tick ≤ ·.tick)) :
    (start part g events).starts.Pairwise (· ≤ ·) := by
  unfold start
  rw [List.pairwise_filterMap]
  refine hsorted.imp ?_
  intro e later hle s hs t ht
  obtain ⟨-, -, rfl⟩ := Option.map_eq_some_iff.mp hs
  obtain ⟨-, -, rfl⟩ := Option.map_eq_some_iff.mp ht
  exact hle

theorem any_next (part : Part) (hsorted : (before ++ e :: later).Pairwise (·.tick ≤ ·.tick))
    {p : Nat → Bool} (hdown : ∀ s t, s ≤ t → p t = true → p s = true) :
    (((start part g (before ++ e :: later)).after g before).starts.dropWhile
        (· ≤ e.tick)).head?.any p ↔
      ∃ x ∈ before ++ e :: later, x.tone?.isSome ∧ e.tick < x.tick ∧ p x.tick = true := by
  have hticks : ∀ x ∈ before, x.tick ≤ e.tick :=
    fun x hx => (List.pairwise_append.mp hsorted).2.2 x hx e List.mem_cons_self
  have hstarts := sorted_starts (g := g) part hsorted
  rw [starts_after _ hticks,
    any_head?_of_sorted hdown (hstarts.sublist (List.dropWhile_sublist _))]
  simp only [mem_dropWhile_le hstarts, mem_starts]
  constructor
  · rintro ⟨_, ⟨⟨x, hx, htone, rfl⟩, hlt⟩, hp⟩
    exact ⟨x, hx, htone, hlt, hp⟩
  · rintro ⟨x, hx, htone, hlt, hp⟩
    exact ⟨x.tick, ⟨⟨x, hx, htone, rfl⟩, hlt⟩, hp⟩

theorem any_next_rowOf (part : Part)
    (hsorted : (before ++ e :: later).Pairwise (·.tick ≤ ·.tick)) (row : Nat) :
    (((start part g (before ++ e :: later)).after g before).starts.dropWhile
        (· ≤ e.tick)).head?.any (g.rowOf · ≤ row) ↔
      ∃ x ∈ before ++ e :: later, x.tone?.isSome ∧ e.tick < x.tick ∧ g.rowOf x.tick ≤ row := by
  rw [any_next part hsorted]
  · simp only [decide_eq_true_eq]
  · intro s t hle
    simpa using Nat.le_trans (g.rowOf_mono hle)

end Marker

/-! ## What ends a tone -/

def Effect.noteCutCode : UInt8 := 0xEC

def Cell.endsTone : Cell → Bool
  | keyOff => true
  | effect fx => fx.code = Effect.noteCutCode
  | _ => false

namespace Marker

variable {g : Grid} {m : Marker} {e : Event} {tone : Tone}

theorem not_endsTone_of_mem_struckCells {note : UInt8} {cell : Cell}
    (h : cell ∈ m.struckCells note) : ¬ cell.endsTone := by
  cases cell with
  | effect effect => rcases code_of_mem_struckCells h with hcode | hcode <;>
      simp [Cell.endsTone, Effect.noteCutCode, hcode]
  | keyOff => simp [struckCells] at h
  | _ => simp [Cell.endsTone]

theorem filter_endsTone_slideMarks (g : Grid) (tick : Nat) (tone : Tone) (next : Option Nat) :
    (g.slideMarks tick tone next).filter (·.cell.endsTone) = [] := by
  rw [List.filter_eq_nil_iff]
  intro mark hmark
  obtain ⟨effect, hcell, hcode⟩ := Grid.cell_of_mem_slideMarks hmark
  rw [hcell, Cell.endsTone]
  rcases hcode with hcode | hcode
  · rw [hcode]
    decide
  · rw [hcode]
    decide

theorem filter_endsTone_keyOffMarks (g : Grid) (tick : Nat) (tone : Tone) (next : Option Nat) :
    (g.keyOffMarks tick tone next).filter (·.cell.endsTone) = g.keyOffMarks tick tone next := by
  unfold Grid.keyOffMarks
  split
  · rfl
  · split <;> rfl

theorem filter_endsTone_event (m : Marker) (htone : e.tone? = some tone)
    (hrow : g.rowOf e.tick < g.rowCount) :
    (m.event g e).2.marks.filter (·.cell.endsTone) =
      g.keyOffMarks e.tick tone (m.starts.dropWhile (· ≤ e.tick)).head? := by
  obtain ⟨struck, hstruck, hmarks⟩ := m.marks_event_of_tone htone hrow
  rw [hmarks, List.filter_append, List.filter_append, filter_endsTone_slideMarks,
    filter_endsTone_keyOffMarks, List.filter_eq_nil_iff.mpr, List.nil_append, List.nil_append]
  rw [List.forall_mem_map]
  intro cell hcell
  obtain ⟨m, hcell⟩ := hstruck cell hcell
  exact not_endsTone_of_mem_struckCells hcell

theorem filter_endsTone_marks {before later : List Event} (part : Part)
    (hsorted : (before ++ e :: later).Pairwise (·.tick ≤ ·.tick)) (htone : e.tone? = some tone)
    (hrow : g.rowOf e.tick < g.rowCount) :
    (((start part g (before ++ e :: later)).after g before).event g e).2.marks.filter
        (·.cell.endsTone) = g.endMarks e.tick tone (before ++ e :: later) := by
  rw [filter_endsTone_event _ htone hrow, Grid.keyOffMarks, Grid.keyOff_eq, Grid.endMarks]
  by_cases hcut : g.LetsGoInRow e.tick tone
  · rw [if_pos hcut, if_pos hcut]
  · rw [if_neg hcut, if_neg hcut]
    dsimp only
    simp only [any_next_rowOf part hsorted]
    rfl

end Marker

/-! ## The ends of all tones -/

theorem Effect.toNat_noteCut (ticks : Nat) : (noteCut ticks).value.toNat = min ticks 255 := by
  unfold noteCut
  rw [UInt8.toNat_ofNat']
  omega

section Ends

variable {g : Grid} {part : Part} {events : List Event} {e : Event} {tone : Tone} {row : Nat}

theorem PartKind.keyOff_eq (kind : PartKind) :
    kind.keyOff = if kind = .ssg then .release else .off := by
  cases kind <;> rfl

theorem note_of_keyOff (hsorted : events.Pairwise (·.tick ≤ ·.tick)) (hrow : row < g.rowCount)
    (hmark : ⟨row, .keyOff⟩ ∈ g.marked part events)
    (hfree : ∀ e ∈ keyOns events, g.rowOf e.tick ≠ row) :
    (Row.ofCells part.kind.keyOff (g.rowCells part events row)).note = some part.kind.keyOff := by
  have hnone : g.keyOnsIn events row = [] := by
    rw [List.eq_nil_iff_forall_not_mem]
    intro e he
    obtain ⟨hkeyOn, hin⟩ := mem_keyOnsIn.mp he
    exact hfree e hkeyOn hin
  rw [Row.note_ofCells, filterMap_note?_rowCells part hsorted hrow, hnone,
    if_pos (Grid.mem_rowCells.mpr hmark)]
  rfl

theorem rowOf_ne_offRow (hcut : ¬ g.LetsGoInRow e.tick tone)
    (htaken : ¬ g.TakenOver e.tick tone events) {x : Event} (hx : x ∈ keyOns events) :
    g.rowOf x.tick ≠ g.offRow e.tick tone := by
  intro hrow
  obtain ⟨n, hn⟩ := note?_of_mem_keyOns hx
  obtain ⟨t, ht, -⟩ := Option.map_eq_some_iff.mp hn
  have hlt := Grid.rowOf_lt_offRow hcut
  rw [← hrow] at hlt
  -- The tone is let go after the row of `e`, so whatever starts in that row is later than `e`.
  have hlater : e.tick < x.tick :=
    Nat.lt_of_not_le fun hle => absurd (g.rowOf_mono hle) (Nat.not_le.mpr hlt)
  exact htaken ⟨x, (keyOns_sublist events).subset hx, Option.isSome_of_eq_some ht, hlater,
    Nat.le_of_eq hrow⟩

theorem exists_ink_endMarks (part : Part) (hsorted : events.Pairwise (·.tick ≤ ·.tick)) {i : Nat}
    (he : events[i]? = some e) (htone : e.tone? = some tone) (hrow : g.rowOf e.tick < g.rowCount) :
    ∃ ink, (g.inks part events)[i]? = some ink ∧
      ink.marks.filter (·.cell.endsTone) = g.endMarks e.tick tone events := by
  obtain ⟨before, later, rfl, hink⟩ := Marker.getElem?_inks g (.start part g events) he
  exact ⟨_, hink, Marker.filter_endsTone_marks part hsorted htone hrow⟩

theorem mem_marked_of_ink {i : Nat} {ink : Marker.Ink} {mark : Mark}
    (hink : (g.inks part events)[i]? = some ink) (hmark : mark ∈ ink.marks) :
    mark ∈ g.marked part events :=
  List.mem_flatMap.mpr ⟨ink, List.mem_of_getElem? hink, hmark⟩

/-- Every tone in the grid is let go: by a cut in its row, by a later tone that starts before it has
to be let go, or by a key-off that stays in its row, unless that lies past the grid. -/
theorem layOut_keyOff (g : Grid) (part : Part) (hsorted : events.Pairwise (·.tick ≤ ·.tick))
    (hticks : 1 ≤ g.ticksPerRow) {i : Nat} (he : events[i]? = some e)
    (htone : e.tone? = some tone) (hrow : g.rowOf e.tick < g.rowCount) :
    let rows := (g.layOut part events).1
    let target := g.offRow e.tick tone
    (g.LetsGoInRow e.tick tone ∧
      ∃ r, rows[g.rowOf e.tick]? = some r ∧ ∃ effect ∈ r.effects, effect.code = 0xEC ∧
        effect.value.toNat = min (tone.release e.tick - g.rowOf e.tick * g.ticksPerRow) 255 ∧
        1 ≤ effect.value.toNat ∧
        (g.ticksPerRow ≤ 255 → effect.value.toNat < g.ticksPerRow)) ∨
    (¬ g.LetsGoInRow e.tick tone ∧ g.TakenOver e.tick tone events ∧
      ∃ ink, (g.inks part events)[i]? = some ink ∧ ∀ mark ∈ ink.marks, ¬ mark.cell.endsTone) ∨
    (¬ g.LetsGoInRow e.tick tone ∧ ¬ g.TakenOver e.tick tone events ∧ target < g.rowCount ∧
      ∃ r, rows[target]? = some r ∧ r.note = some (if part.kind = .ssg then .release else .off)) ∨
    (¬ g.LetsGoInRow e.tick tone ∧ ¬ g.TakenOver e.tick tone events ∧ g.rowCount ≤ target) := by
  intro rows target
  obtain ⟨ink, hink, hends⟩ := exists_ink_endMarks part hsorted he htone hrow
  unfold Grid.endMarks at hends
  have hmarked : ∀ mark ∈ ink.marks.filter (·.cell.endsTone), mark ∈ g.marked part events := by
    intro mark hmark
    exact mem_marked_of_ink hink (List.mem_filter.mp hmark).1
  by_cases hcut : g.LetsGoInRow e.tick tone
  · rw [hends, if_pos hcut, List.forall_mem_singleton] at hmarked
    obtain ⟨hafter, hbefore⟩ := Grid.cut_bounds hticks hcut
    have hcell := Grid.mem_rowCells.mpr hmarked
    refine .inl ⟨hcut, _, g.getElem?_layOut part events hrow, _, Row.effect_mem_ofCells.mpr hcell,
      rfl, Effect.toNat_noteCut _, ?_, ?_⟩
    · rw [Effect.toNat_noteCut]
      omega
    · rw [Effect.toNat_noteCut]
      omega
  · rw [if_neg hcut] at hends
    by_cases htaken : g.TakenOver e.tick tone events
    · rw [if_pos htaken, List.filter_eq_nil_iff] at hends
      exact .inr (.inl ⟨hcut, htaken, ink, hink, hends⟩)
    · rw [hends, if_neg htaken, List.forall_mem_singleton] at hmarked
      rcases Nat.lt_or_ge target g.rowCount with hgrid | hpast
      · have hfree : ∀ x ∈ keyOns events, g.rowOf x.tick ≠ target :=
          fun x hx => rowOf_ne_offRow hcut htaken hx
        have hnote := note_of_keyOff hsorted hgrid hmarked hfree
        refine .inr (.inr (.inl ⟨hcut, htaken, hgrid, _, g.getElem?_layOut part events hgrid, ?_⟩))
        rw [hnote, PartKind.keyOff_eq]
      · exact .inr (.inr (.inr ⟨hcut, htaken, hpast⟩))

end Ends

/-- The first note is let go in its own row. The second one is taken over by a tie, which sounds for
half its length. -/
def shortNotes : List Event :=
  [⟨0, .noteOn ⟨60, 12, .ticks 9, none⟩⟩, ⟨12, .noteOn ⟨62, 6, .full, none⟩⟩,
    ⟨18, .tie ⟨64, 18, .eighths 4, none⟩⟩, ⟨36, .rest 6⟩]

theorem layOut_keyOff_shortNotes :
    let g : Grid := ⟨6, 7, ⟨75⟩⟩
    (∃ r, (g.layOut ⟨0⟩ shortNotes).1[0]? = some r ∧ ∃ effect ∈ r.effects,
      effect.code = 0xEC ∧ effect.value.toNat = 3) ∧
    (∃ ink, (g.inks ⟨0⟩ shortNotes)[1]? = some ink ∧ ∀ mark ∈ ink.marks, ¬ mark.cell.endsTone) ∧
    ∃ r, (g.layOut ⟨0⟩ shortNotes).1[4]? = some r ∧ r.note = some .off := by
  intro g
  have hsorted : shortNotes.Pairwise (·.tick ≤ ·.tick) := by decide
  have hticks : 1 ≤ g.ticksPerRow := by decide
  have hrow : g.rowOf 0 = 0 := by decide
  have hcut :
      min (Tone.release ⟨60, 12, .ticks 9, none⟩ 0 - g.rowOf 0 * g.ticksPerRow) 255 = 3 := by
    decide
  have htarget : g.offRow 18 ⟨64, 18, .eighths 4, none⟩ = 4 := by decide
  refine ⟨?_, ?_, ?_⟩
  · obtain ⟨-, r, hr, effect, heffect, hcode, hvalue, -⟩ | h | h | h :=
      layOut_keyOff g ⟨0⟩ hsorted hticks (i := 0) rfl rfl (by decide)
    · rw [hrow] at hr
      exact ⟨r, hr, effect, heffect, hcode, hvalue.trans hcut⟩
    all_goals exact absurd (by decide) h.1
  · obtain h | ⟨-, -, hink⟩ | h | h :=
      layOut_keyOff g ⟨0⟩ hsorted hticks (i := 1) rfl rfl (by decide)
    · exact absurd h.1 (by decide)
    · exact hink
    all_goals exact absurd (by decide) h.2.1
  · obtain h | h | ⟨-, -, -, hr⟩ | h :=
      layOut_keyOff g ⟨0⟩ hsorted hticks (i := 2) rfl rfl (by decide)
    · exact absurd h.1 (by decide)
    · exact absurd h.2.1 (by decide)
    · rw [htarget] at hr
      exact hr
    · exact absurd h.2.2 (by decide)

end ChipScore
