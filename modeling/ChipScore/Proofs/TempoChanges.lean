import ChipScore.Proofs.KeyOns

/-!
# The tempos that a part writes

A part writes a tempo in the row in which it sets it, unless it is the tempo that the part has set
itself before that.
-/

namespace ChipScore

/-! ## Tempos one after the other -/

/-- The tempos that differ from the one before them, if the first one comes after `now`. -/
def Tempo.changes (now : Tempo) : List Tempo → List Tempo
  | [] => []
  | t :: ts => if t = now then now.changes ts else t :: t.changes ts

/-- The tempo that is in force before a row, if `start` is it before the first one. -/
def latest (start : Tempo) (tempos : Nat → List Tempo) : Nat → Tempo
  | 0 => start
  | row + 1 => (tempos row).getLastD (latest start tempos row)

theorem getLastD_append {α : Type} (first second : List α) (x : α) :
    (first ++ second).getLastD x = second.getLastD (first.getLastD x) := by
  induction first generalizing x with
  | nil => rfl
  | cons y first ih => rw [List.cons_append, List.getLastD_cons, List.getLastD_cons, ih]

theorem getLastD_toList {α : Type} (x? : Option α) (x : α) :
    x?.toList.getLastD x = x?.getD x := by
  cases x? with
  | none => rfl
  | some y => rfl

namespace Tempo

variable (now : Tempo)

theorem changes_append (first second : List Tempo) : now.changes (first ++ second) =
    now.changes first ++ (first.getLastD now).changes second := by
  induction first generalizing now with
  | nil => rfl
  | cons t first ih =>
    rw [List.cons_append, changes, changes, List.getLastD_cons]
    split
    · rename_i h
      rw [ih, h]
    · rw [ih, List.cons_append]

theorem changes_eq_nil {tempos : List Tempo} : now.changes tempos = [] ↔ ∀ t ∈ tempos, t = now := by
  induction tempos with
  | nil => simp [changes]
  | cons t tempos ih =>
    rw [changes, List.forall_mem_cons]
    split
    · rename_i h
      rw [ih]
      exact (and_iff_right h).symm
    · rename_i h
      simp [h]

theorem getLastD_changes (tempos : List Tempo) :
    (now.changes tempos).getLastD now = tempos.getLastD now := by
  induction tempos generalizing now with
  | nil => rfl
  | cons t tempos ih =>
    rw [changes, List.getLastD_cons]
    split
    · rename_i h
      rw [ih, h]
    · rw [List.getLastD_cons, ih]

end Tempo

/-! ## Lists in the order of a key -/

section Sorted

variable {α : Type} {key : α → Nat} {l : List α}

theorem filter_lt_append_filter_le (hsorted : l.Pairwise (key · ≤ key ·)) (n : Nat) :
    l.filter (key · < n) ++ l.filter (n ≤ key ·) = l := by
  induction l with
  | nil => rfl
  | cons x l ih =>
    obtain ⟨hle, hsorted⟩ := List.pairwise_cons.mp hsorted
    rcases Nat.lt_or_ge (key x) n with h | h
    · simp [h, ih hsorted]
    · have hnone : l.filter (key · < n) = [] := by
        simpa using fun y hy => Nat.le_trans h (hle y hy)
      have hall : l.filter (n ≤ key ·) = l := by
        simpa using fun y hy => Nat.le_trans h (hle y hy)
      simp [h, hnone, hall]

theorem filter_lt_succ (hsorted : l.Pairwise (key · ≤ key ·)) (n : Nat) :
    l.filter (key · < n + 1) = l.filter (key · < n) ++ l.filter (key · = n) := by
  rw [← filter_lt_append_filter_le (hsorted.filter (key · < n + 1)) n, List.filter_filter,
    List.filter_filter]
  congr 1
  · apply List.filter_congr
    intro x _
    simpa using Nat.lt_succ_of_lt
  · apply List.filter_congr
    intro x _
    rw [← Bool.decide_and, decide_eq_decide]
    omega

end Sorted

/-! ## The tempos that a part sets -/

namespace Grid

variable (g : Grid)

/-- The tempos that a part sets in a row, in their order. -/
def temposIn (events : List Event) (row : Nat) : List Tempo :=
  (events.filter (g.rowOf ·.tick = row)).filterMap (·.action.tempo?)

def temposBefore (events : List Event) (row : Nat) : List Tempo :=
  (events.filter (g.rowOf ·.tick < row)).filterMap (·.action.tempo?)

variable {g} {events : List Event} {row : Nat}

theorem temposBefore_of_le (h : ∀ e ∈ events, row ≤ g.rowOf e.tick) :
    g.temposBefore events row = [] := by
  unfold temposBefore
  rw [List.filter_eq_nil_iff.mpr, List.filterMap_nil]
  intro e he hlt
  exact Nat.not_le.mpr (of_decide_eq_true hlt) (h e he)

theorem temposIn_of_lt (h : ∀ e ∈ events, row < g.rowOf e.tick) : g.temposIn events row = [] := by
  unfold temposIn
  rw [List.filter_eq_nil_iff.mpr, List.filterMap_nil]
  intro e he heq
  exact Nat.ne_of_gt (h e he) (of_decide_eq_true heq)

theorem temposBefore_cons (e : Event) (events : List Event) (row : Nat) :
    g.temposBefore (e :: events) row =
      (if g.rowOf e.tick < row then e.action.tempo?.toList else []) ++
        g.temposBefore events row := by
  unfold temposBefore
  rw [List.filter_cons]
  by_cases h : g.rowOf e.tick < row
  · cases htempo : e.action.tempo? <;> simp [h, htempo]
  · simp [h]

theorem temposIn_cons (e : Event) (events : List Event) (row : Nat) :
    g.temposIn (e :: events) row =
      (if g.rowOf e.tick = row then e.action.tempo?.toList else []) ++ g.temposIn events row := by
  unfold temposIn
  rw [List.filter_cons]
  by_cases h : g.rowOf e.tick = row
  · cases htempo : e.action.tempo? <;> simp [h, htempo]
  · simp [h]

theorem rowOf_le_of_sorted {e : Event} (hsorted : (e :: events).Pairwise (·.tick ≤ ·.tick)) :
    ∀ x ∈ events, g.rowOf e.tick ≤ g.rowOf x.tick :=
  fun x hx => g.rowOf_mono ((List.pairwise_cons.mp hsorted).1 x hx)

theorem temposBefore_succ (hsorted : events.Pairwise (·.tick ≤ ·.tick)) (row : Nat) :
    g.temposBefore events (row + 1) = g.temposBefore events row ++ g.temposIn events row := by
  unfold temposBefore temposIn
  rw [filter_lt_succ (hsorted.imp g.rowOf_mono), List.filterMap_append]

theorem latest_temposIn (hsorted : events.Pairwise (·.tick ≤ ·.tick)) (start : Tempo) (row : Nat) :
    latest start (g.temposIn events) row = (g.temposBefore events row).getLastD start := by
  induction row with
  | zero =>
    rw [temposBefore_of_le fun _ _ => Nat.zero_le _]
    rfl
  | succ row ih =>
    rw [latest, ih, temposBefore_succ hsorted, getLastD_append]

end Grid

/-! ## Tempos in rows and marks -/

/-- The tempo that an effect sets. -/
def Effect.tempo? (e : Effect) : Option Tempo :=
  if e.code = tempoCode then some ⟨e.value⟩ else none

theorem Effect.tempo?_of_mem_toneCodes {e : Effect} (h : e.code ∈ toneCodes) : e.tempo? = none := by
  refine if_neg ?_
  intro hcode
  rw [hcode] at h
  revert h
  decide

def Cell.tempo? (cell : Cell) : Option Tempo := cell.effect?.bind Effect.tempo?

/-- The tempos that the effects of a row set, in their order. -/
def Row.tempos (r : ScoreRow) : List Tempo := r.effects.filterMap Effect.tempo?

/-- The tempo that a mark sets in this row. -/
def Mark.tempoIn? (row : Nat) (mark : Mark) : Option Tempo :=
  if mark.row = row then mark.cell.tempo? else none

theorem Grid.tempos_rowCells (g : Grid) (part : Part) (events : List Event) (row : Nat) :
    (Row.ofCells part.kind.keyOff (g.rowCells part events row)).tempos =
      (g.marked part events).filterMap (Mark.tempoIn? row) :=
  g.filterMap_effects_rowCells Effect.tempo? part events row

/-! ## What an event writes -/

namespace Marker

variable {g : Grid} {m : Marker} {e : Event} {row : Nat}

theorem tempo_sound (g : Grid) (m : Marker) (tick : Nat) (action : Action) (tone : Tone) :
    (m.sound g tick action tone).1.written.tempo = m.written.tempo ∧
      ∀ mark ∈ (m.sound g tick action tone).2.marks, mark.cell.tempo? = none := by
  constructor
  · unfold sound
    dsimp only
    split_ifs <;> rfl
  · intro mark hmark
    cases hcell : mark.cell with
    | effect effect => exact Effect.tempo?_of_mem_toneCodes (code_of_mem_sound hmark hcell)
    | _ => rfl

theorem tempo_event_of_none (g : Grid) (m : Marker) (h : e.action.tempo? = none) :
    (m.event g e).1.written.tempo = m.written.tempo ∧
      ∀ mark ∈ (m.event g e).2.marks, mark.cell.tempo? = none := by
  unfold Marker.event
  cases haction : e.action with
  | noteOn tone => exact tempo_sound g _ e.tick _ tone
  | tie tone => exact tempo_sound g _ e.tick _ tone
  | rest duration => exact ⟨rfl, by simp⟩
  | change parameter =>
    cases parameter with
    | tempo t =>
      rw [haction] at h
      cases h
    | pan pan =>
      simp only [change, changePan]
      split_ifs
      · refine ⟨rfl, ?_⟩
        intro mark hmark
        rw [List.mem_singleton.mp hmark]
        rfl
      · exact ⟨rfl, by simp⟩
    | _ => exact ⟨rfl, by simp [change]⟩

theorem event_of_tempo (g : Grid) (m : Marker) {t : Tempo} (h : e.action.tempo? = some t) :
    ∃ settings starts, m.event g e = changeTempo g { m with settings, starts } e.tick t := by
  unfold Marker.event
  cases haction : e.action with
  | change parameter =>
    rw [haction] at h
    cases parameter with
    | tempo tempo =>
      cases h
      exact ⟨_, _, rfl⟩
    | _ => cases h
  | _ =>
    rw [haction] at h
    cases h

theorem tempo_event (m : Marker) (hrow : g.rowOf e.tick < g.rowCount) :
    (m.event g e).1.written.tempo = e.action.tempo?.getD m.written.tempo := by
  cases htempo : e.action.tempo? with
  | none => exact (tempo_event_of_none g m htempo).1
  | some t =>
    obtain ⟨settings, starts, heq⟩ := event_of_tempo g m htempo
    rw [heq]
    unfold changeTempo
    dsimp only
    split_ifs with hnew
    · rfl
    · exact (not_not.mp fun hne => hnew ⟨hne, hrow⟩).symm

theorem filterMap_tempoIn?_event_of_ne (m : Marker) (hrow : g.rowOf e.tick ≠ row) :
    (m.event g e).2.marks.filterMap (Mark.tempoIn? row) = [] := by
  cases htempo : e.action.tempo? with
  | none =>
    rw [List.filterMap_eq_nil_iff]
    intro mark hmark
    rw [Mark.tempoIn?, (tempo_event_of_none g m htempo).2 mark hmark, ite_self]
  | some t =>
    obtain ⟨settings, starts, heq⟩ := event_of_tempo g m htempo
    rw [heq]
    unfold changeTempo
    dsimp only
    split_ifs
    · simp [Mark.tempoIn?, hrow]
    · rfl

theorem filterMap_tempoIn?_event (m : Marker) (hrow : g.rowOf e.tick < g.rowCount) :
    (m.event g e).2.marks.filterMap (Mark.tempoIn? (g.rowOf e.tick)) =
      m.written.tempo.changes e.action.tempo?.toList := by
  cases htempo : e.action.tempo? with
  | none =>
    rw [List.filterMap_eq_nil_iff.mpr]
    · rfl
    · intro mark hmark
      rw [Mark.tempoIn?, (tempo_event_of_none g m htempo).2 mark hmark, ite_self]
  | some t =>
    obtain ⟨settings, starts, heq⟩ := event_of_tempo g m htempo
    rw [heq]
    unfold changeTempo
    dsimp only
    split_ifs with hnew
    · rw [Option.toList_some, Tempo.changes, if_neg hnew.1]
      simp only [List.filterMap_cons, Mark.tempoIn?]
      rfl
    · have hsame : t = m.written.tempo := not_not.mp fun hne => hnew ⟨hne, hrow⟩
      rw [Option.toList_some, Tempo.changes, if_pos hsame]
      rfl

end Marker

/-! ## What a part writes -/

section Parts

variable {g : Grid} {m : Marker} {events : List Event} {row : Nat}

theorem filterMap_tempoIn?_inks_of_lt (h : ∀ e ∈ events, row < g.rowOf e.tick) :
    ((m.inks g events).flatMap Marker.Ink.marks).filterMap (Mark.tempoIn? row) = [] := by
  induction events generalizing m with
  | nil => rfl
  | cons e events ih =>
    rw [List.forall_mem_cons] at h
    rw [Marker.inks, List.flatMap_cons, List.filterMap_append,
      Marker.filterMap_tempoIn?_event_of_ne m (Nat.ne_of_gt h.1), ih h.2]
    rfl

theorem filterMap_tempoIn?_inks (hsorted : events.Pairwise (·.tick ≤ ·.tick))
    (hrow : row < g.rowCount) :
    ((m.inks g events).flatMap Marker.Ink.marks).filterMap (Mark.tempoIn? row) =
      ((g.temposBefore events row).getLastD m.written.tempo).changes
        (g.temposIn events row) := by
  induction events generalizing m with
  | nil => rfl
  | cons e events ih =>
    have hlater := Grid.rowOf_le_of_sorted (g := g) hsorted
    rw [Grid.temposBefore_cons, Grid.temposIn_cons]
    -- Earlier events only move the tempo that is written, and after the row nothing is left to say.
    rcases Nat.lt_trichotomy (g.rowOf e.tick) row with h | rfl | h
    · rw [Marker.inks, List.flatMap_cons, List.filterMap_append,
        Marker.filterMap_tempoIn?_event_of_ne m (Nat.ne_of_lt h),
        ih (List.pairwise_cons.mp hsorted).2, Marker.tempo_event m (Nat.lt_trans h hrow), if_pos h,
        if_neg (Nat.ne_of_lt h), getLastD_append, getLastD_toList]
      rfl
    · rw [Marker.inks, List.flatMap_cons, List.filterMap_append, Marker.filterMap_tempoIn?_event m hrow,
        ih (List.pairwise_cons.mp hsorted).2, Marker.tempo_event m hrow, if_neg (Nat.lt_irrefl _),
        if_pos rfl, Grid.temposBefore_of_le hlater, Tempo.changes_append, getLastD_toList]
      rfl
    · have hpast : ∀ x ∈ e :: events, row < g.rowOf x.tick :=
        List.forall_mem_cons.mpr ⟨h, fun x hx => Nat.lt_of_lt_of_le h (hlater x hx)⟩
      rw [filterMap_tempoIn?_inks_of_lt hpast, if_neg (Nat.ne_of_gt h),
        Grid.temposIn_of_lt (List.forall_mem_cons.mp hpast).2]
      rfl

/-- A row of a part sets the tempos that the part sets there, but for repetitions. -/
theorem tempos_layOut (part : Part) (hsorted : events.Pairwise (·.tick ≤ ·.tick))
    (hrow : row < g.rowCount) : ((g.layOut part events).1.getD row .empty).tempos =
      (latest g.tempo (g.temposIn events) row).changes (g.temposIn events row) := by
  rw [List.getD_eq_getElem?_getD, g.getElem?_layOut part events hrow, Option.getD_some,
    g.tempos_rowCells, Grid.latest_temposIn hsorted]
  exact filterMap_tempoIn?_inks hsorted hrow

end Parts

end ChipScore
