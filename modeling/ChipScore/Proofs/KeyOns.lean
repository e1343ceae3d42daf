import ChipScore.Proofs.Arrangement
import ChipScore.Proofs.RowMarks

/-!
# Key-ons

A key-on is a note, or a tie to another note than the one that sounds. The rows of a part hold its
key-ons and no other notes, and where two of them meet in a row or one lies past the grid, that is
said.
-/

namespace ChipScore

/-! ## The key-ons of a part -/

def Action.isChange : Action → Bool
  | change _ => true
  | _ => false

theorem Action.eq_of_tone? {a : Action} {tone : Tone} (h : a.tone? = some tone) :
    a = .noteOn tone ∨ a = .tie tone := by
  cases a with
  | noteOn t =>
    cases h
    exact .inl rfl
  | tie t =>
    cases h
    exact .inr rfl
  | rest duration => cases h
  | change parameter => cases h

theorem Action.eq_of_tone?_none {a : Action} (h : a.tone? = none) :
    (∃ duration, a = .rest duration) ∨ ∃ parameter, a = .change parameter := by
  cases a with
  | noteOn t => cases h
  | tie t => cases h
  | rest duration => exact .inl ⟨duration, rfl⟩
  | change parameter => exact .inr ⟨parameter, rfl⟩

/-- The last event that is a note, a tie or a rest. -/
def lastPlayed? (events : List Event) : Option Event :=
  (events.filter fun e => !e.action.isChange).getLast?

/-- A tie goes on with the note that was played last, if it has the same pitch. -/
def isKeyOn (before : List Event) (e : Event) : Bool :=
  match e.action with
  | .noteOn _ => true
  | .tie tone => (lastPlayed? before).bind Event.note? ≠ some tone.note
  | _ => false

def keyOnsAfter (before : List Event) : List Event → List Event
  | [] => []
  | e :: later => (if isKeyOn before e then [e] else []) ++ keyOnsAfter (before ++ [e]) later

def keyOns (events : List Event) : List Event := keyOnsAfter [] events

def Grid.keyOnsIn (g : Grid) (events : List Event) (row : Nat) : List Event :=
  (keyOns events).filter (g.rowOf ·.tick = row)

theorem lastPlayed?_snoc (events : List Event) (e : Event) :
    lastPlayed? (events ++ [e]) = if e.action.isChange then lastPlayed? events else some e := by
  unfold lastPlayed?
  rw [List.filter_append]
  cases hchange : e.action.isChange <;> simp [hchange]

theorem keyOnsAfter_append (before first second : List Event) :
    keyOnsAfter before (first ++ second) =
      keyOnsAfter before first ++ keyOnsAfter (before ++ first) second := by
  induction first generalizing before with
  | nil => simp [keyOnsAfter]
  | cons e first ih => simp [keyOnsAfter, ih]

theorem keyOns_snoc (events : List Event) (e : Event) :
    keyOns (events ++ [e]) = keyOns events ++ if isKeyOn events e then [e] else [] := by
  simp [keyOns, keyOnsAfter_append, keyOnsAfter]

theorem keyOnsAfter_sublist (before events : List Event) :
    (keyOnsAfter before events).Sublist events := by
  induction events generalizing before with
  | nil => exact .refl []
  | cons e events ih =>
    unfold keyOnsAfter
    split
    · exact (ih _).cons_cons e
    · exact (ih _).cons e

theorem keyOns_sublist (events : List Event) : (keyOns events).Sublist events :=
  keyOnsAfter_sublist [] events

theorem tone?_of_isKeyOn {before : List Event} {e : Event} (h : isKeyOn before e) :
    ∃ tone, e.tone? = some tone := by
  unfold isKeyOn at h
  unfold Event.tone?
  cases haction : e.action with
  | noteOn tone => exact ⟨tone, rfl⟩
  | tie tone => exact ⟨tone, rfl⟩
  | rest duration => simp [haction] at h
  | change parameter => simp [haction] at h

theorem isKeyOn_of_tone?_none (before : List Event) {e : Event} (htone : e.tone? = none) :
    isKeyOn before e = false := by
  rw [Bool.eq_false_iff]
  intro hkey
  obtain ⟨tone, h⟩ := tone?_of_isKeyOn hkey
  rw [htone] at h
  cases h

theorem lastPlayed?_of_tone (before : List Event) {e : Event} {tone : Tone}
    (htone : e.tone? = some tone) : lastPlayed? (before ++ [e]) = some e := by
  rw [lastPlayed?_snoc]
  rcases Action.eq_of_tone? htone with haction | haction
  · rw [haction]
    rfl
  · rw [haction]
    rfl

theorem exists_of_two_keyOns {p : Event → Bool} {events : List Event}
    (h : 2 ≤ (keyOns events).countP p) :
    ∃ before e later, events = before ++ e :: later ∧ isKeyOn before e ∧ p e ∧
      ∃ earlier ∈ keyOns before, p earlier := by
  induction events using List.reverseRecOn with
  | nil => simp [keyOns, keyOnsAfter] at h
  | append_singleton events e ih =>
    by_cases htwo : 2 ≤ (keyOns events).countP p
    · obtain ⟨before, x, later, rfl, hx⟩ := ih htwo
      exact ⟨before, x, later ++ [e], by simp, hx⟩
    · rw [keyOns_snoc, List.countP_append] at h
      split at h
      · rename_i hkey
        rw [List.countP_singleton] at h
        split at h
        · rename_i hp
          refine ⟨events, e, [], rfl, hkey, hp, ?_⟩
          rw [← List.countP_pos_iff]
          omega
        · omega
      · rw [List.countP_nil] at h
        omega

namespace Marker

variable {g : Grid} {m : Marker} {before : List Event} {e : Event} {tone : Tone}

/-- The marker knows what sounds and where the last key-on was. -/
structure Follows (g : Grid) (m : Marker) (before : List Event) : Prop where
  sounding : m.sounding =
    (lastPlayed? before).bind fun e => e.tone?.map fun tone => (tone.note, e.tick + tone.duration)
  lastOn : m.lastOn = (keyOns before).getLast?.map fun e => g.rowOf e.tick

theorem event_of_change {parameter : Parameter} (g : Grid) (m : Marker)
    (haction : e.action = .change parameter) :
    (∃ settings written pendingPan, (m.event g e).1 =
        { m with starts := m.starts.dropWhile (· ≤ e.tick), settings, written, pendingPan }) ∧
      (m.event g e).2.marks.filterMap Mark.note? = [] := by
  unfold Marker.event
  rw [haction]
  cases parameter with
  | pan pan =>
    simp only [change, changePan]
    split
    · exact ⟨⟨_, _, _, rfl⟩, rfl⟩
    · exact ⟨⟨_, _, _, rfl⟩, rfl⟩
  | tempo tempo =>
    simp only [change, changeTempo]
    split
    · exact ⟨⟨_, _, _, rfl⟩, rfl⟩
    · exact ⟨⟨_, _, _, rfl⟩, rfl⟩
  | _ => exact ⟨⟨_, _, _, rfl⟩, rfl⟩

theorem event_of_rest {duration : Nat} (g : Grid) (m : Marker)
    (haction : e.action = .rest duration) : m.event g e =
      ({ m with starts := m.starts.dropWhile (· ≤ e.tick), sounding := none }, {}) := by
  unfold Marker.event
  rw [haction]

theorem marks_event_of_no_tone (g : Grid) (m : Marker) (htone : e.tone? = none) :
    (m.event g e).2.marks = [] ∨
      ∃ effect : Effect, (effect.code = 0x08 ∨ effect.code = Effect.tempoCode) ∧
        (m.event g e).2.marks = [⟨g.rowOf e.tick, .effect effect⟩] := by
  rcases Action.eq_of_tone?_none htone with ⟨duration, haction⟩ | ⟨parameter, haction⟩
  · rw [event_of_rest g m haction]
    exact .inl rfl
  · unfold Marker.event
    rw [haction]
    exact marks_change g _ e.tick parameter

theorem event_of_tone (m : Marker) (htone : e.tone? = some tone) :
    m.event g e =
      sound g { m with starts := m.starts.dropWhile (· ≤ e.tick) } e.tick e.action tone := by
  unfold Marker.event
  rcases Action.eq_of_tone? htone with haction | haction
  · rw [haction]
  · rw [haction]

theorem event_past_grid (m : Marker) (htone : e.tone? = some tone)
    (hrow : g.rowCount ≤ g.rowOf e.tick) :
    (m.event g e).2 = { losses := [.notesPastRow g.rowCount] } := by
  rw [m.event_of_tone htone, sound]
  dsimp only
  rw [if_pos hrow]

/-- A tone in the grid marks the cells of its note, if it is struck, and what ends it. -/
theorem marks_event_of_tone (m : Marker) (htone : e.tone? = some tone)
    (hrow : g.rowOf e.tick < g.rowCount) :
    ∃ struck : List Cell, (∀ cell ∈ struck, ∃ m : Marker, cell ∈ m.struckCells tone.note) ∧
      (m.event g e).2.marks = struck.map (Mark.mk (g.rowOf e.tick)) ++
        (g.slideMarks e.tick tone (m.starts.dropWhile (· ≤ e.tick)).head? ++
          g.keyOffMarks e.tick tone (m.starts.dropWhile (· ≤ e.tick)).head?) := by
  rw [m.event_of_tone htone, sound]
  dsimp only
  rw [if_neg (Nat.not_le.mpr hrow)]
  split_ifs
  · exact ⟨[], by simp, rfl⟩
  · exact ⟨_, fun _ hcell => ⟨_, hcell⟩, rfl⟩

theorem Follows.continues (h : m.Follows g before) (htone : e.tone? = some tone) :
    m.continues e.action tone = !isKeyOn before e := by
  unfold Marker.continues isKeyOn
  rw [h.sounding]
  rcases Action.eq_of_tone? htone with haction | haction
  · rw [haction]
    rfl
  · rw [haction]
    cases hlast : lastPlayed? before with
    | none => simp [Action.isNoteOn]
    | some last =>
      cases hsounds : last.tone? with
      | none => simp [Action.isNoteOn, Event.note?, hsounds]
      | some t => simp [Action.isNoteOn, Event.note?, hsounds]

theorem Follows.event_of_keyOn (h : m.Follows g before) (htone : e.tone? = some tone)
    (hrow : g.rowOf e.tick < g.rowCount) (hkey : isKeyOn before e = true) :
    m.event g e =
      let m := { m with starts := m.starts.dropWhile (· ≤ e.tick) }
      let next := m.starts.head?
      (({ m with sounding := some (tone.note, e.tick + tone.duration) }).strike (g.rowOf e.tick),
        ⟨(m.struckCells tone.note).map (⟨g.rowOf e.tick, ·⟩) ++
            (g.slideMarks e.tick tone next ++ g.keyOffMarks e.tick tone next),
          m.struckLosses (g.rowOf e.tick) ++ slideLosses tone⟩) := by
  have hcontinues := h.continues htone
  rw [hkey] at hcontinues
  rw [m.event_of_tone htone, sound]
  dsimp only
  rw [if_neg (Nat.not_le.mpr hrow), if_neg]
  exact Bool.eq_false_iff.mp hcontinues

theorem Follows.event_of_held (h : m.Follows g before) (htone : e.tone? = some tone)
    (hrow : g.rowOf e.tick < g.rowCount) (hkey : isKeyOn before e = false) :
    m.event g e =
      let m := { m with starts := m.starts.dropWhile (· ≤ e.tick) }
      let next := m.starts.head?
      ({ m with sounding := some (tone.note, e.tick + tone.duration) },
        ⟨g.slideMarks e.tick tone next ++ g.keyOffMarks e.tick tone next, slideLosses tone⟩) := by
  have hcontinues := h.continues htone
  rw [hkey] at hcontinues
  rw [m.event_of_tone htone, sound]
  dsimp only
  rw [if_neg (Nat.not_le.mpr hrow), if_pos]
  exact hcontinues

theorem Follows.event (h : m.Follows g before) (hrow : g.rowOf e.tick < g.rowCount) :
    (m.event g e).1.Follows g (before ++ [e]) := by
  have hkeyOns := keyOns_snoc before e
  cases htone : e.tone? with
  | some tone =>
    have hplayed := lastPlayed?_of_tone before htone
    cases hkey : isKeyOn before e with
    | true =>
      rw [h.event_of_keyOn htone hrow hkey]
      constructor
      · rw [hplayed, Option.bind_some, htone]
        rfl
      · rw [hkeyOns, hkey, if_pos rfl, List.getLast?_concat]
        rfl
    | false =>
      rw [h.event_of_held htone hrow hkey]
      constructor
      · rw [hplayed, Option.bind_some, htone]
        rfl
      · rw [hkeyOns, hkey, if_neg Bool.false_ne_true, List.append_nil]
        exact h.lastOn
  | none =>
    have hkey := isKeyOn_of_tone?_none before htone
    have hlastOn : m.lastOn = (keyOns (before ++ [e])).getLast?.map fun e => g.rowOf e.tick := by
      rw [hkeyOns, hkey, if_neg Bool.false_ne_true, List.append_nil]
      exact h.lastOn
    rcases Action.eq_of_tone?_none htone with ⟨duration, haction⟩ | ⟨parameter, haction⟩
    · rw [event_of_rest g m haction]
      refine ⟨?_, hlastOn⟩
      rw [lastPlayed?_snoc, haction]
      simp [Action.isChange, htone]
    · obtain ⟨⟨settings, written, pendingPan, heq⟩, -⟩ := event_of_change g m haction
      rw [heq]
      refine ⟨?_, hlastOn⟩
      rw [lastPlayed?_snoc, haction]
      exact h.sounding

/-- As long as the events lie in the grid, the marker follows them. -/
theorem follows_after (part : Part) (all : List Event)
    (hgrid : ∀ e ∈ before, g.rowOf e.tick < g.rowCount) :
    ((start part g all).after g before).Follows g before := by
  induction before using List.reverseRecOn with
  | nil => exact ⟨rfl, rfl⟩
  | append_singleton before e ih =>
    rw [List.forall_mem_append, List.forall_mem_singleton] at hgrid
    rw [after_snoc]
    exact (ih hgrid.1).event hgrid.2

end Marker

/-! ## Notes in rows -/

namespace Marker

variable {g : Grid} {m : Marker} {before : List Event} {e : Event} {tone : Tone}

theorem note?_of_mem_slideMarks {tick : Nat} {next : Option Nat} {mark : Mark}
    (h : mark ∈ g.slideMarks tick tone next) : mark.note? = none := by
  obtain ⟨effect, hcell, -⟩ := Grid.cell_of_mem_slideMarks h
  rw [Mark.note?, hcell]
  rfl

theorem note?_of_mem_keyOffMarks {tick : Nat} {next : Option Nat} {mark : Mark}
    (h : mark ∈ g.keyOffMarks tick tone next) : mark.note? = none := by
  unfold Mark.note?
  rcases Grid.cell_of_mem_keyOffMarks h with hcell | ⟨ticks, hcell⟩
  · rw [hcell]
    rfl
  · rw [hcell]
    rfl

theorem filterMap_note?_ending (g : Grid) (tick : Nat) (tone : Tone) (next : Option Nat) :
    (g.slideMarks tick tone next ++ g.keyOffMarks tick tone next).filterMap Mark.note? = [] := by
  rw [List.filterMap_eq_nil_iff]
  intro mark h
  rcases List.mem_append.mp h with h | h
  · exact note?_of_mem_slideMarks h
  · exact note?_of_mem_keyOffMarks h

theorem filterMap_note?_struckCells (m : Marker) (row : Nat) (note : UInt8) :
    ((m.struckCells note).map (Mark.mk row)).filterMap Mark.note? = [(row, note)] := by
  unfold struckCells
  cases m.pendingPan with
  | none => split_ifs <;> rfl
  | some pan => split_ifs <;> rfl

end Marker

/-- Where a key-on stands in the grid, if it does. -/
def Grid.noteMark? (g : Grid) (e : Event) : Option (Nat × UInt8) :=
  if g.rowOf e.tick < g.rowCount then e.note?.map fun n => (g.rowOf e.tick, n) else none

theorem Grid.rowOf_mono (g : Grid) {tick later : Nat} (h : tick ≤ later) :
    g.rowOf tick ≤ g.rowOf later :=
  Nat.div_le_div_right h

section Notes

variable {g : Grid} {m : Marker} {part : Part} {events before later : List Event} {e : Event}

theorem follows_of_sorted (part : Part) (all : List Event)
    (hsorted : (before ++ e :: later).Pairwise (·.tick ≤ ·.tick))
    (hrow : g.rowOf e.tick < g.rowCount) :
    ((Marker.start part g all).after g before).Follows g before := by
  apply Marker.follows_after
  intro x hx
  have hle : x.tick ≤ e.tick := (List.pairwise_append.mp hsorted).2.2 x hx e List.mem_cons_self
  exact Nat.lt_of_le_of_lt (g.rowOf_mono hle) hrow

theorem filterMap_note?_event (hfollows : g.rowOf e.tick < g.rowCount → m.Follows g before) :
    (m.event g e).2.marks.filterMap Mark.note? =
      (if isKeyOn before e then [e] else []).filterMap g.noteMark? := by
  cases htone : e.tone? with
  | some tone =>
    by_cases hrow : g.rowOf e.tick < g.rowCount
    · have hnote : g.noteMark? e = some (g.rowOf e.tick, tone.note) := by
        rw [Grid.noteMark?, if_pos hrow, Event.note?, htone]
        rfl
      cases hkey : isKeyOn before e with
      | true =>
        rw [(hfollows hrow).event_of_keyOn htone hrow hkey]
        dsimp only
        rw [List.filterMap_append, Marker.filterMap_note?_ending,
          Marker.filterMap_note?_struckCells, if_pos rfl, List.filterMap_cons_some hnote]
        rfl
      | false =>
        rw [(hfollows hrow).event_of_held htone hrow hkey]
        exact Marker.filterMap_note?_ending _ _ _ _
    · -- Past the grid the marker may have lost track, but nothing is marked there.
      have hnote : g.noteMark? e = none := if_neg hrow
      rw [m.event_past_grid htone (Nat.not_lt.mp hrow)]
      cases isKeyOn before e with
      | true => simp [hnote]
      | false => rfl
  | none =>
    rw [isKeyOn_of_tone?_none before htone]
    rcases Action.eq_of_tone?_none htone with ⟨duration, haction⟩ | ⟨parameter, haction⟩
    · rw [Marker.event_of_rest g m haction]
      rfl
    · exact (Marker.event_of_change g m haction).2

theorem filterMap_note?_inks (part : Part) (all : List Event)
    (hsorted : events.Pairwise (·.tick ≤ ·.tick)) :
    (((Marker.start part g all).inks g events).flatMap Marker.Ink.marks).filterMap Mark.note? =
      (keyOns events).filterMap g.noteMark? := by
  induction events using List.reverseRecOn with
  | nil => rfl
  | append_singleton before e ih =>
    rw [Marker.inks_snoc, List.flatMap_append, List.filterMap_append, List.flatMap_singleton,
      ih (List.pairwise_append.mp hsorted).1,
      filterMap_note?_event (follows_of_sorted part all hsorted), keyOns_snoc, List.filterMap_append]

theorem filterMap_cell_note? (marks : List Mark) (row : Nat) :
    ((marks.filter (·.row = row)).map Mark.cell).filterMap Cell.note? =
      ((marks.filterMap Mark.note?).filter (·.1 = row)).map Prod.snd := by
  rw [List.filterMap_map, List.filterMap_filter, List.filter_filterMap, List.map_filterMap]
  refine congrArg (List.filterMap · marks) (funext fun mark => ?_)
  unfold Mark.note?
  by_cases hrow : mark.row = row
  · cases hnote : mark.cell.note? <;> simp [Option.filter, hrow, hnote]
  · cases hnote : mark.cell.note? <;> simp [Option.filter, hrow]

theorem filterMap_noteMark? (events : List Event) {row : Nat} (hrow : row < g.rowCount) :
    ((events.filterMap g.noteMark?).filter (·.1 = row)).map Prod.snd =
      (events.filter (g.rowOf ·.tick = row)).filterMap Event.note? := by
  rw [List.filter_filterMap, List.map_filterMap, List.filterMap_filter]
  refine congrArg (List.filterMap · events) (funext fun e => ?_)
  unfold Grid.noteMark?
  by_cases he : g.rowOf e.tick = row
  · cases hnote : e.note? <;> simp [he, hrow]
  · split
    · cases hnote : e.note? <;> simp [he]
    · simp [he]

theorem filterMap_note?_rowCells (part : Part) (hsorted : events.Pairwise (·.tick ≤ ·.tick))
    {row : Nat} (hrow : row < g.rowCount) :
    (g.rowCells part events row).filterMap Cell.note? =
      (g.keyOnsIn events row).filterMap Event.note? := by
  rw [Grid.rowCells, filterMap_cell_note?, Grid.marked, Grid.inks,
    filterMap_note?_inks part events hsorted, filterMap_noteMark? _ hrow, Grid.keyOnsIn]

theorem note?_of_mem_keyOns (h : e ∈ keyOns events) : ∃ n, e.note? = some n := by
  induction events using List.reverseRecOn with
  | nil => cases h
  | append_singleton before x ih =>
    rw [keyOns_snoc, List.mem_append] at h
    rcases h with h | h
    · exact ih h
    · split at h
      · rename_i hkey
        obtain ⟨tone, htone⟩ := tone?_of_isKeyOn hkey
        rw [List.mem_singleton.mp h]
        exact ⟨tone.note, by rw [Event.note?, htone]; rfl⟩
      · cases h

theorem mem_keyOnsIn {row : Nat} :
    e ∈ g.keyOnsIn events row ↔ e ∈ keyOns events ∧ g.rowOf e.tick = row := by
  simp [Grid.keyOnsIn]

theorem getLast?_note?_keyOnsIn (g : Grid) (events : List Event) (row : Nat) :
    ((g.keyOnsIn events row).filterMap Event.note?).getLast? =
      (g.keyOnsIn events row).getLast?.bind Event.note? := by
  rcases List.eq_nil_or_concat (g.keyOnsIn events row) with hnil | ⟨earlier, last, hlast⟩
  · rw [hnil]
    rfl
  · have hmem : last ∈ g.keyOnsIn events row := by simp [hlast]
    obtain ⟨n, hn⟩ := note?_of_mem_keyOns (mem_keyOnsIn.mp hmem).1
    rw [hlast, List.concat_eq_append, List.filterMap_append, List.filterMap_cons_some hn]
    simp [hn]

theorem exists_last_note_iff {row : Nat} :
    (∃ n, (g.keyOnsIn events row).getLast?.bind Event.note? = some n) ↔
      ∃ e ∈ keyOns events, g.rowOf e.tick = row := by
  constructor
  · rintro ⟨n, hn⟩
    obtain ⟨e, he, -⟩ := Option.bind_eq_some_iff.mp hn
    exact ⟨e, mem_keyOnsIn.mp (List.mem_of_getLast? he)⟩
  · rintro ⟨e, he⟩
    cases hlast : (g.keyOnsIn events row).getLast? with
    | none =>
      rw [List.getLast?_eq_none_iff, List.eq_nil_iff_forall_not_mem] at hlast
      exact absurd (mem_keyOnsIn.mpr he) (hlast e)
    | some last =>
      exact note?_of_mem_keyOns (mem_keyOnsIn.mp (List.mem_of_getLast? hlast)).1

theorem PartKind.keyOff_ne_on (kind : PartKind) (n : UInt8) : kind.keyOff ≠ .on n := by
  cases kind <;> simp [keyOff]

theorem Row.note_ofCells_on {kind : PartKind} {cells : List Cell} {n : UInt8} :
    (Row.ofCells kind.keyOff cells).note = some (.on n) ↔
      (cells.filterMap Cell.note?).getLast? = some n := by
  rw [note_ofCells]
  cases (cells.filterMap Cell.note?).getLast? with
  | none =>
    rw [Option.map_none, Option.none_or]
    constructor
    · intro h
      split at h
      · exact absurd (Option.some.inj h) (kind.keyOff_ne_on n)
      · cases h
    · intro h
      cases h
  | some m => simp

/-! ## What is said of lost notes -/

theorem notesPastRow_mem_losses (part : Part) (he : e ∈ events) (htone : e.tone?.isSome)
    (hrow : g.rowCount ≤ g.rowOf e.tick) :
    .notesPastRow g.rowCount ∈ (g.layOut part events).2 := by
  obtain ⟨tone, htone⟩ := Option.isSome_iff_exists.mp htone
  obtain ⟨before, later, rfl⟩ := List.append_of_mem he
  rw [Grid.losses_layOut, List.mem_flatMap]
  refine ⟨_, Marker.mem_inks g _ before later e, ?_⟩
  rw [Marker.event_past_grid _ htone hrow]
  exact List.mem_singleton_self _

theorem lastOn_eq (hfollows : m.Follows g before)
    (hsorted : (before ++ e :: later).Pairwise (·.tick ≤ ·.tick)) {earlier : Event}
    (hmem : earlier ∈ keyOns before) (hrow : g.rowOf earlier.tick = g.rowOf e.tick) :
    m.lastOn = some (g.rowOf e.tick) := by
  obtain ⟨hbefore, -, hle⟩ := List.pairwise_append.mp hsorted
  have hsub := keyOns_sublist before
  have hkeyOns := hbefore.sublist hsub
  rw [hfollows.lastOn]
  rcases List.eq_nil_or_concat (keyOns before) with hnil | ⟨others, last, hlast⟩
  · rw [hnil] at hmem
    cases hmem
  · rw [List.concat_eq_append] at hlast
    rw [hlast] at hmem hsub hkeyOns
    -- Rows never go back, so the last key-on lies between the earlier one and `e`.
    have hupper : g.rowOf last.tick ≤ g.rowOf e.tick := by
      apply g.rowOf_mono
      exact hle last (hsub.subset (by simp)) e List.mem_cons_self
    have hlower : g.rowOf e.tick ≤ g.rowOf last.tick := by
      rw [← hrow]
      rcases List.mem_append.mp hmem with h | h
      · exact g.rowOf_mono ((List.pairwise_append.mp hkeyOns).2.2 earlier h last (by simp))
      · obtain rfl := List.mem_singleton.mp h
        exact Nat.le_refl _
    rw [hlast, List.getLast?_concat, Option.map_some, Nat.le_antisymm hupper hlower]

theorem sharedRow_mem_losses (part : Part) (hsorted : events.Pairwise (·.tick ≤ ·.tick))
    {row : Nat} (hrow : row < g.rowCount) (htwo : 2 ≤ (g.keyOnsIn events row).length) :
    .sharedRow row ∈ (g.layOut part events).2 := by
  rw [Grid.keyOnsIn, ← List.countP_eq_length_filter] at htwo
  obtain ⟨before, e, later, rfl, hkey, he, earlier, hearlier, hin⟩ := exists_of_two_keyOns htwo
  rw [decide_eq_true_eq] at he hin
  subst he
  obtain ⟨tone, htone⟩ := tone?_of_isKeyOn hkey
  have hfollows := follows_of_sorted (g := g) part (before ++ e :: later) hsorted hrow
  rw [Grid.losses_layOut, List.mem_flatMap]
  refine ⟨_, Marker.mem_inks g _ before later e, ?_⟩
  rw [hfollows.event_of_keyOn htone hrow hkey]
  dsimp only
  rw [List.mem_append, Marker.struckLosses, List.mem_append]
  refine .inl (.inl ?_)
  rw [if_pos (lastOn_eq hfollows hsorted hearlier hin)]
  exact List.mem_singleton_self _

/-! ## The notes of a part -/

/-- A row of the grid has a note exactly if a key-on lies in it, and then it has that of the last
one. Where a key-on has to make way for a later one in its row, or a tone lies past the grid, that
is said. -/
theorem layOut_keyOns (g : Grid) (part : Part) (hsorted : events.Pairwise (·.tick ≤ ·.tick)) :
    (g.layOut part events).1.length = g.rowCount ∧
      (∀ row < g.rowCount, ∃ r, (g.layOut part events).1[row]? = some r ∧
        ((∃ n, r.note = some (.on n)) ↔ ∃ e ∈ keyOns events, g.rowOf e.tick = row) ∧
        ∀ n, r.note = some (.on n) → (g.keyOnsIn events row).getLast?.bind Event.note? = some n) ∧
      (∀ row < g.rowCount, 2 ≤ (g.keyOnsIn events row).length →
        .sharedRow row ∈ (g.layOut part events).2) ∧
      ∀ e ∈ events, e.tone?.isSome → g.rowCount ≤ g.rowOf e.tick →
        .notesPastRow g.rowCount ∈ (g.layOut part events).2 := by
  refine ⟨g.length_layOut part events, ?_, ?_, ?_⟩
  · intro row hrow
    have hnote := filterMap_note?_rowCells part hsorted hrow
    refine ⟨_, g.getElem?_layOut part events hrow, ?_, ?_⟩
    · simp only [Row.note_ofCells_on, hnote, getLast?_note?_keyOnsIn]
      exact exists_last_note_iff
    · simp only [Row.note_ofCells_on, hnote, getLast?_note?_keyOnsIn]
      exact fun n hn => hn
  · intro row hrow htwo
    exact sharedRow_mem_losses part hsorted hrow htwo
  · intro e he htone hrow
    exact notesPastRow_mem_losses part he htone hrow

end Notes

/-- Two notes meet in the second of three rows, the later one by a tie that is no key-on for the tie
after it. The last note lies past the grid. -/
def meetingNotes : List Event :=
  [⟨0, .noteOn ⟨60, 4, .full, none⟩⟩, ⟨4, .tie ⟨60, 2, .full, none⟩⟩,
    ⟨6, .noteOn ⟨62, 2, .full, none⟩⟩, ⟨8, .tie ⟨64, 2, .full, none⟩⟩, ⟨10, .change (.volume 9)⟩,
    ⟨10, .tie ⟨64, 2, .full, none⟩⟩, ⟨12, .rest 6⟩, ⟨18, .tie ⟨64, 6, .full, none⟩⟩]

theorem layOut_keyOns_meetingNotes :
    let g : Grid := ⟨6, 3, ⟨75⟩⟩
    (keyOns meetingNotes).map Event.tick = [0, 6, 8, 18] ∧
      ∃ r, (g.layOut ⟨0⟩ meetingNotes).1[1]? = some r ∧ (∃ n, r.note = some (.on n)) ∧
        (∀ n, r.note = some (.on n) → n = 64) ∧
        .sharedRow 1 ∈ (g.layOut ⟨0⟩ meetingNotes).2 ∧
        .notesPastRow 3 ∈ (g.layOut ⟨0⟩ meetingNotes).2 := by
  intro g
  have hsorted : meetingNotes.Pairwise (·.tick ≤ ·.tick) := by decide
  obtain ⟨-, hrows, hshared, hpast⟩ := layOut_keyOns g ⟨0⟩ hsorted
  obtain ⟨r, hr, hnote, hlast⟩ := hrows 1 (by decide)
  refine ⟨by decide, r, hr, ?_, ?_, ?_, ?_⟩
  · exact hnote.mpr ⟨⟨6, .noteOn ⟨62, 2, .full, none⟩⟩, by decide, by decide⟩
  · intro n hn
    have hkeyOn : (g.keyOnsIn meetingNotes 1).getLast?.bind Event.note? = some 64 := by decide
    exact Option.some.inj ((hlast n hn).symm.trans hkeyOn)
  · exact hshared 1 (by decide) (by decide)
  · exact hpast ⟨18, .tie ⟨64, 6, .full, none⟩⟩ (by decide) (by decide) (by decide)

end ChipScore
