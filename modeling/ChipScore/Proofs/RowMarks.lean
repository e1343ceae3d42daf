import ChipScore.Grid.Layout
import Mathlib.Data.List.Induction

/-!
# Rows hold the marks of their events

What an event marks depends on the events before it only through the marker. A row of the grid holds
the cells that all events marked in it, in their order.
-/

namespace ChipScore

/-! ## The ink of each event -/

namespace Marker

variable (g : Grid)

/-- The marker after some events. -/
def after (m : Marker) (events : List Event) : Marker :=
  events.foldl (fun m e => (m.event g e).1) m

/-- What each event marks and loses. -/
def inks : Marker → List Event → List Ink
  | _, [] => []
  | m, e :: events => (m.event g e).2 :: inks (m.event g e).1 events

@[simp] theorem after_nil (m : Marker) : m.after g [] = m := rfl

theorem after_snoc (m : Marker) (events : List Event) (e : Event) :
    m.after g (events ++ [e]) = ((m.after g events).event g e).1 := by
  simp [after, List.foldl_append]

theorem inks_append (m : Marker) (first second : List Event) :
    m.inks g (first ++ second) = m.inks g first ++ (m.after g first).inks g second := by
  induction first generalizing m with
  | nil => rfl
  | cons e first ih => exact congrArg _ (ih _)

theorem inks_snoc (m : Marker) (events : List Event) (e : Event) :
    m.inks g (events ++ [e]) = m.inks g events ++ [((m.after g events).event g e).2] :=
  inks_append g m events [e]

theorem length_inks (m : Marker) (events : List Event) :
    (m.inks g events).length = events.length := by
  induction events generalizing m with
  | nil => rfl
  | cons e events ih => exact congrArg _ (ih _)

theorem getElem?_inks_append (m : Marker) (before later : List Event) (e : Event) :
    (m.inks g (before ++ e :: later))[before.length]? = some ((m.after g before).event g e).2 := by
  rw [inks_append, List.getElem?_append_right (Nat.le_of_eq (length_inks g m before)), length_inks,
    Nat.sub_self]
  rfl

theorem mem_inks (m : Marker) (before later : List Event) (e : Event) :
    ((m.after g before).event g e).2 ∈ m.inks g (before ++ e :: later) :=
  List.mem_of_getElem? (getElem?_inks_append g m before later e)

theorem getElem?_inks {events : List Event} {i : Nat} {e : Event} (m : Marker)
    (h : events[i]? = some e) : ∃ before later, events = before ++ e :: later ∧
      (m.inks g events)[i]? = some ((m.after g before).event g e).2 := by
  induction events generalizing m i with
  | nil => cases h
  | cons x events ih =>
    cases i with
    | zero =>
      cases h
      exact ⟨[], events, rfl, rfl⟩
    | succ i =>
      obtain ⟨before, later, rfl, hink⟩ := ih (m.event g x).1 h
      exact ⟨x :: before, later, rfl, hink⟩

theorem exists_of_mem_inks {g : Grid} {m : Marker} {events : List Event} {ink : Ink}
    (h : ink ∈ m.inks g events) :
    ∃ before e later, events = before ++ e :: later ∧ ink = ((m.after g before).event g e).2 := by
  obtain ⟨i, hi⟩ := List.mem_iff_getElem?.mp h
  have hlt : i < events.length := by
    rw [← length_inks g m]
    exact (List.getElem?_eq_some_iff.mp hi).1
  obtain ⟨before, later, hevents, hink⟩ := getElem?_inks g m (List.getElem?_eq_getElem hlt)
  exact ⟨before, _, later, hevents, Option.some.inj (hi.symm.trans hink)⟩

end Marker

namespace Grid

variable (g : Grid) (part : Part) (events : List Event)

/-- What each event of a part marks and loses. -/
def inks : List Marker.Ink := (Marker.start part g events).inks g events

/-- All marks of a part, in the order in which they are made. -/
def marked : List Mark := (g.inks part events).flatMap Marker.Ink.marks

theorem foldl_event (m : Marker) (marks : Array Mark) (losses : Array Loss) :
    events.foldl (fun (m, marks, losses) e =>
        let (m, ink) := m.event g e
        (m, marks.appendList ink.marks, losses.appendList ink.losses)) (m, marks, losses) =
      (m.after g events, marks.appendList ((m.inks g events).flatMap Marker.Ink.marks),
        losses.appendList ((m.inks g events).flatMap Marker.Ink.losses)) := by
  induction events generalizing m marks losses with
  | nil => simp [Marker.inks]
  | cons e events ih =>
    rw [List.foldl_cons]
    dsimp only
    rw [ih]
    refine Prod.ext rfl (Prod.ext ?_ ?_)
    · apply Array.ext'
      simp [Marker.inks]
    · apply Array.ext'
      simp [Marker.inks]

theorem marks_eq : g.marks part events = ((g.marked part events).toArray,
    ((g.inks part events).flatMap Marker.Ink.losses).toArray) := by
  unfold marks
  rw [foldl_event]
  refine Prod.ext ?_ ?_
  · apply Array.ext'
    simp [marked, inks]
  · apply Array.ext'
    simp [inks]

theorem losses_layOut :
    (g.layOut part events).2 = (g.inks part events).flatMap Marker.Ink.losses := by
  unfold layOut
  rw [marks_eq]

/-! ## The cells of each row -/

/-- The cells of a row, in the order in which they are marked. -/
def rowCells (row : Nat) : List Cell :=
  ((g.marked part events).filter (·.row = row)).map Mark.cell

theorem getElem?_cells (marks : List Mark) {row : Nat} (h : row < g.rowCount) :
    (g.cells marks.toArray)[row]? = some ((marks.filter (·.row = row)).map Mark.cell) := by
  unfold cells
  rw [List.foldr_toArray]
  induction marks with
  | nil => simp [h]
  | cons mark marks ih =>
    rw [List.foldr_cons, Array.getElem?_modify, ih]
    split
    · rename_i heq
      rw [List.filter_cons_of_pos (by simpa using heq)]
      rfl
    · rename_i hne
      rw [List.filter_cons_of_neg (by simpa using hne)]

theorem getElem?_layOut {row : Nat} (h : row < g.rowCount) :
    (g.layOut part events).1[row]? =
      some (Row.ofCells part.kind.keyOff (g.rowCells part events row)) := by
  unfold layOut
  rw [marks_eq]
  dsimp only
  rw [Array.getElem?_toList, Array.getElem?_map, g.getElem?_cells _ h]
  rfl

variable {g part events}

theorem mem_rowCells {row : Nat} {cell : Cell} :
    cell ∈ g.rowCells part events row ↔ ⟨row, cell⟩ ∈ g.marked part events := by
  unfold rowCells
  rw [List.mem_map]
  constructor
  · rintro ⟨⟨r, c⟩, hmark, rfl⟩
    obtain ⟨hmem, hrow⟩ := List.mem_filter.mp hmark
    rw [← of_decide_eq_true hrow]
    exact hmem
  · intro h
    exact ⟨⟨row, cell⟩, List.mem_filter.mpr ⟨h, by simp⟩, rfl⟩

end Grid

/-! ## What marks the end of a tone -/

theorem Effect.code_of_slide? {note : UInt8} {slide : Slide} {ticksPerRow : Nat} {effect : Effect}
    (h : Effect.slide? note slide ticksPerRow = some effect) :
    effect.code = 0xE1 ∨ effect.code = 0xE2 := by
  unfold slide? at h
  dsimp only at h
  split at h
  · cases h
    exact .inl rfl
  · split at h
    · cases h
      exact .inr rfl
    · cases h

namespace Grid

variable {g : Grid} {tick : Nat} {tone : Tone} {next : Option Nat} {mark : Mark}

theorem cell_of_mem_slideMarks (h : mark ∈ g.slideMarks tick tone next) :
    ∃ effect : Effect, mark.cell = .effect effect ∧ (effect.code = 0xE1 ∨ effect.code = 0xE2) := by
  unfold slideMarks at h
  split at h
  · cases h
  · split at h
    · cases h
    · rename_i effect heffect
      rcases List.mem_cons.mp h with rfl | h
      · exact ⟨effect, rfl, Effect.code_of_slide? heffect⟩
      · split at h
        · cases h
        · rw [List.mem_singleton.mp h]
          exact ⟨.slideStop, rfl, .inr rfl⟩

theorem cell_of_mem_keyOffMarks (h : mark ∈ g.keyOffMarks tick tone next) :
    mark.cell = .keyOff ∨ ∃ ticks, mark.cell = .effect (.noteCut ticks) := by
  unfold keyOffMarks at h
  split at h
  · rw [List.mem_singleton.mp h]
    exact .inr ⟨_, rfl⟩
  · split at h
    · cases h
    · rw [List.mem_singleton.mp h]
      exact .inl rfl

end Grid

/-! ## What a tone is marked with -/

/-- The codes of the effects of a tone: pan, slides, detune and cut. -/
def Effect.toneCodes : List UInt8 := [0x08, 0xE1, 0xE2, 0xE5, 0xEC]

namespace Marker

variable {g : Grid} {m : Marker} {tick : Nat} {tone : Tone} {mark : Mark} {effect : Effect}

theorem code_of_mem_ending {next : Option Nat}
    (h : mark ∈ g.slideMarks tick tone next ++ g.keyOffMarks tick tone next)
    (hcell : mark.cell = .effect effect) : effect.code ∈ Effect.toneCodes := by
  rcases List.mem_append.mp h with h | h
  · obtain ⟨slide, hslide, hcode⟩ := Grid.cell_of_mem_slideMarks h
    cases hcell.symm.trans hslide
    rcases hcode with hcode | hcode
    · rw [hcode]
      decide
    · rw [hcode]
      decide
  · rcases Grid.cell_of_mem_keyOffMarks h with hoff | ⟨ticks, hcut⟩
    · cases hcell.symm.trans hoff
    · cases hcell.symm.trans hcut
      exact show 0xEC ∈ Effect.toneCodes by decide

theorem code_of_mem_struckCells {note : UInt8} (h : .effect effect ∈ m.struckCells note) :
    effect.code = 0xE5 ∨ effect.code = 0x08 := by
  simp only [struckCells, List.mem_append, List.mem_ite_nil_left, List.mem_singleton,
    Option.mem_toList, Option.map_eq_some_iff, reduceCtorEq, and_false, or_false, false_or] at h
  rcases h with ⟨-, h⟩ | ⟨pan, -, h⟩
  · cases h
    exact .inl rfl
  · cases h
    exact .inr rfl

theorem code_of_mem_sound {action : Action} (h : mark ∈ (m.sound g tick action tone).2.marks)
    (hcell : mark.cell = .effect effect) : effect.code ∈ Effect.toneCodes := by
  unfold sound at h
  dsimp only at h
  split_ifs at h
  · cases h
  · exact code_of_mem_ending h hcell
  · rcases List.mem_append.mp h with h | h
    · obtain ⟨cell, hstruck, rfl⟩ := List.mem_map.mp h
      cases hcell
      rcases code_of_mem_struckCells hstruck with hcode | hcode
      · rw [hcode]
        decide
      · rw [hcode]
        decide
    · exact code_of_mem_ending h hcell

theorem marks_change (g : Grid) (m : Marker) (tick : Nat) (parameter : Parameter) :
    (m.change g tick parameter).2.marks = [] ∨
      ∃ effect : Effect, (effect.code = 0x08 ∨ effect.code = Effect.tempoCode) ∧
        (m.change g tick parameter).2.marks = [⟨g.rowOf tick, .effect effect⟩] := by
  cases parameter with
  | pan pan =>
    simp only [change, changePan]
    split_ifs
    · exact .inr ⟨.pan pan, .inl rfl, rfl⟩
    · exact .inl rfl
  | tempo tempo =>
    simp only [change, changeTempo]
    split_ifs
    · exact .inr ⟨.tempo tempo, .inr rfl, rfl⟩
    · exact .inl rfl
  | _ => exact .inl rfl

end Marker

/-! ## The effects of a row -/

/-- What an effect says, if it is marked in this row. -/
def Mark.effectIn? {α : Type} (f : Effect → Option α) (row : Nat) (mark : Mark) : Option α :=
  if mark.row = row then mark.cell.effect?.bind f else none

theorem Grid.filterMap_effects_rowCells {α : Type} (f : Effect → Option α) (g : Grid) (part : Part)
    (events : List Event) (row : Nat) :
    (Row.ofCells part.kind.keyOff (g.rowCells part events row)).effects.filterMap f =
      (g.marked part events).filterMap (Mark.effectIn? f row) := by
  unfold Row.ofCells rowCells
  rw [List.filterMap_filterMap, List.filterMap_map, List.filterMap_filter]
  refine congrArg (List.filterMap · _) (funext fun mark => ?_)
  simp [Mark.effectIn?]

/-! ## The note of a row -/

def Cell.note? : Cell → Option UInt8
  | note n => some n
  | _ => none

/-- The row and the note of a mark that is a note. -/
def Mark.note? (mark : Mark) : Option (Nat × UInt8) := mark.cell.note?.map fun n => (mark.row, n)

theorem Cell.fillNote_eq (keyOff : NoteCell) (filled : Option NoteCell) (cell : Cell) :
    cell.fillNote keyOff filled = (cell.note?.map NoteCell.on).or
      (filled.or (if .keyOff = cell then some keyOff else none)) := by
  cases cell with
  | note n => rfl
  | keyOff =>
    rw [if_pos rfl]
    rfl
  | _ => exact (Option.or_none).symm

namespace Row

theorem note_ofCells (keyOff : NoteCell) (cells : List Cell) :
    (Row.ofCells keyOff cells).note = ((cells.filterMap Cell.note?).getLast?.map NoteCell.on).or
      (if .keyOff ∈ cells then some keyOff else none) := by
  unfold ofCells
  dsimp only
  induction cells using List.reverseRecOn with
  | nil => rfl
  | append_singleton cells cell ih =>
    rw [List.foldl_append, List.foldl_cons, List.foldl_nil, ih, Cell.fillNote_eq,
      List.filterMap_append]
    cases hnote : cell.note? with
    | none =>
      by_cases hcell : .keyOff = cell
      · have hfree : (if cell ∈ cells then some keyOff else none).getD keyOff = keyOff := by
          split
          · rfl
          · rfl
        simp [hnote, hcell, hfree]
      · simp [hnote, hcell]
    | some n => simp [hnote]

theorem effect_mem_ofCells {keyOff : NoteCell} {cells : List Cell} {effect : Effect} :
    effect ∈ (Row.ofCells keyOff cells).effects ↔ .effect effect ∈ cells := by
  unfold ofCells
  rw [List.mem_filterMap]
  constructor
  · rintro ⟨cell, hcell, heffect⟩
    cases cell with
    | effect e =>
      cases heffect
      exact hcell
    | _ => cases heffect
  · intro h
    exact ⟨_, h, rfl⟩

end Row

end ChipScore
