import ChipScore.Proofs.SettingsLog
import ChipScore.Proofs.TempoChanges

/-!
# Settings that rows leave out

A row says only what is new: an instrument, a volume, a detune or a pan stays until another one is
given, and so does a tempo. Whoever plays the rows and keeps what they said last has, with each
note, the settings that the part had when it played the note.
-/

namespace ChipScore

/-! ## Playing rows -/

/-- What is in force after some rows: what they said last, if they said anything. -/
structure Kept where
  instrument : Option Timbre := none
  volume : Option UInt8 := none
  detune : UInt8 := 0x80
  pan : Option UInt8 := none
  tempo : UInt8
  deriving DecidableEq, Repr

namespace Kept

def hear (k : Kept) (e : Effect) : Kept :=
  if e.code = 0xE5 then { k with detune := e.value }
  else if e.code = 0x08 then { k with pan := some e.value }
  else if e.code = Effect.tempoCode then { k with tempo := e.value }
  else k

def columns (k : Kept) (instrument : Option Timbre) (volume : Option UInt8) : Kept :=
  { k with instrument := instrument.or k.instrument, volume := volume.or k.volume }

def row (k : Kept) (r : ScoreRow) : Kept := (r.effects.foldl hear k).columns r.instrument r.volume

/-- Before the first row, only the tempo has been set. -/
def after (tempo : Tempo) (rows : List ScoreRow) : Kept := rows.foldl row { tempo := tempo.human }

/-! ## Cells and marks -/

def cell (k : Kept) : Cell → Kept
  | .instrument i => { k with instrument := some i }
  | .volume v => { k with volume := some v }
  | .effect e => k.hear e
  | _ => k

def mark (k : Kept) (mark : Mark) : Kept := k.cell mark.cell

variable {k : Kept}

@[simp] theorem hear_pan (k : Kept) (pan : Pan) :
    k.hear (.pan pan) = { k with pan := some pan.level } := rfl

@[simp] theorem hear_detuneEffect (k : Kept) (detune : Int16) :
    k.hear (Marker.detuneEffect detune) =
      { k with detune := (Marker.detuneEffect detune).value } := rfl

end Kept

/-! ## Marks that stay in force -/

/-- A cell that says something for later rows too. -/
def Cell.isSetting : Cell → Bool
  | instrument _ => true
  | volume _ => true
  | effect e => e.code = 0xE5 || e.code = 0x08 || e.code = Effect.tempoCode
  | _ => false

section Settings

variable {g : Grid} {m : Marker} {k : Kept} {part : Part} {events : List Event} {e : Event}
  {mark : Mark}

theorem Kept.mark_of_not_isSetting (k : Kept) (h : mark.cell.isSetting = false) :
    k.mark mark = k := by
  unfold Kept.mark
  cases hcell : mark.cell with
  | effect e =>
    rw [hcell, Cell.isSetting] at h
    simp only [Bool.or_eq_false_iff, decide_eq_false_iff_not] at h
    simp [cell, hear, h]
  | note n => rfl
  | keyOff => rfl
  | _ =>
    rw [hcell] at h
    cases h

theorem Kept.foldl_mark_of_not_isSetting {marks : List Mark} (k : Kept)
    (h : ∀ mark ∈ marks, mark.cell.isSetting = false) : marks.foldl Kept.mark k = k := by
  induction marks with
  | nil => rfl
  | cons mark marks ih =>
    rw [List.forall_mem_cons] at h
    rw [List.foldl_cons, k.mark_of_not_isSetting h.1, ih h.2]

namespace Marker

theorem isSetting_of_mem_ending {tick : Nat} {tone : Tone} {next : Option Nat}
    (h : mark ∈ g.slideMarks tick tone next ++ g.keyOffMarks tick tone next) :
    mark.cell.isSetting = false := by
  rcases List.mem_append.mp h with h | h
  · obtain ⟨effect, hcell, hcode⟩ := Grid.cell_of_mem_slideMarks h
    rw [hcell]
    rcases hcode with hcode | hcode <;> simp [Cell.isSetting, Effect.tempoCode, hcode]
  · rcases Grid.cell_of_mem_keyOffMarks h with hcell | ⟨ticks, hcell⟩
    · rw [hcell]
      rfl
    · rw [hcell]
      rfl

end Marker

def Parameter.pan? : Parameter → Option Pan
  | .pan p => some p
  | _ => none

def Parameter.tempo? : Parameter → Option Tempo
  | .tempo t => some t
  | _ => none

/-- The instrument that a part with these settings plays. -/
def Settings.timbre (s : Settings) (kind : PartKind) : Timbre :=
  if kind = .ssg then .ssg s.envelope else .fm s.instrument

/-- The last pan that is set. -/
def lastPan? (ps : List Parameter) : Option Pan := (ps.filterMap Parameter.pan?).getLast?

/-- The last tempo that is set, after a first one. -/
def lastTempo (tempo : Tempo) (ps : List Parameter) : Tempo :=
  (ps.filterMap Parameter.tempo?).getLastD tempo

theorem lastPan?_snoc (ps : List Parameter) (p : Parameter) :
    lastPan? (ps ++ [p]) = p.pan?.or (lastPan? ps) := by
  cases hp : p.pan? <;> simp [lastPan?, List.filterMap_append, hp]

theorem lastTempo_snoc (tempo : Tempo) (ps : List Parameter) (p : Parameter) :
    lastTempo tempo (ps ++ [p]) = p.tempo?.getD (lastTempo tempo ps) := by
  cases hp : p.tempo? <;> simp [lastTempo, List.filterMap_append, hp]

/-- What is kept from the rows is what the marker has said, and the marker knows what was set. -/
structure Marker.Agrees (g : Grid) (part : Part) (m : Marker) (k : Kept) (ps : List Parameter) :
    Prop where
  part_eq : m.part = part
  settings : m.settings = ps.foldl Settings.apply (.start part.kind)
  instrument : k.instrument = m.written.instrument
  volume : k.volume = m.written.volume
  detune : k.detune = (detuneEffect m.written.detune).value
  pan : (m.pendingPan.map Pan.level).or k.pan = (lastPan? ps).map Pan.level
  tempo : k.tempo = m.written.tempo.human
  tempo_eq : m.written.tempo = lastTempo g.tempo ps

namespace Marker

variable {g : Grid} {m : Marker} {part : Part} {k : Kept} {ps : List Parameter}
  {before events : List Event} {e : Event}

theorem Agrees.sounding (h : m.Agrees g part k ps) (starts : List Nat)
    (sounding : Option (UInt8 × Nat)) : { m with starts, sounding }.Agrees g part k ps :=
  ⟨h.part_eq, h.settings, h.instrument, h.volume, h.detune, h.pan, h.tempo, h.tempo_eq⟩

theorem Agrees.foldl_struckCells (h : m.Agrees g part k ps) (note : UInt8) :
    (m.struckCells note).foldl Kept.cell k = { k with
      instrument := some m.instrument
      volume := some m.settings.volume
      detune := (detuneEffect m.settings.detune).value
      pan := (m.pendingPan.map Pan.level).or k.pan } := by
  obtain ⟨-, -, hinstrument, hvolume, hdetune, -⟩ := h
  rcases k with ⟨i, v, d, p, t⟩
  subst hinstrument hvolume hdetune
  unfold struckCells
  cases m.pendingPan with
  | none => split_ifs <;> simp [Kept.cell, *]
  | some pan => split_ifs <;> simp [Kept.cell, *]

theorem Agrees.change (h : m.Agrees g part k ps) (tick : Nat) (p : Parameter)
    (hrow : g.rowOf tick < g.rowCount) :
    (m.change g tick p).1.Agrees g part
      ((m.change g tick p).2.marks.foldl Kept.mark k) (ps ++ [p]) := by
  obtain ⟨hpart, hsettings, hinstrument, hvolume, hdetune, hpan, htempo, hlast⟩ := h
  have happlied : m.settings.apply p = (ps ++ [p]).foldl Settings.apply (.start part.kind) := by
    rw [List.foldl_append, hsettings]
    rfl
  cases p with
  | pan pan =>
    have hset : some pan.level = (lastPan? (ps ++ [.pan pan])).map Pan.level := by
      rw [lastPan?_snoc]
      rfl
    have hkept : m.written.tempo = lastTempo g.tempo (ps ++ [.pan pan]) := by
      rw [lastTempo_snoc]
      exact hlast
    simp only [Marker.change, Marker.changePan]
    split_ifs
    · exact ⟨hpart, happlied, hinstrument, hvolume, hdetune, hset, htempo, hkept⟩
    · exact ⟨hpart, happlied, hinstrument, hvolume, hdetune, hset, htempo, hkept⟩
  | tempo tempo =>
    have hset : tempo = lastTempo g.tempo (ps ++ [.tempo tempo]) := by
      rw [lastTempo_snoc]
      rfl
    have hkept : (m.pendingPan.map Pan.level).or k.pan =
        (lastPan? (ps ++ [.tempo tempo])).map Pan.level := by
      rw [lastPan?_snoc]
      exact hpan
    simp only [Marker.change, Marker.changeTempo]
    split_ifs with hnew
    · exact ⟨hpart, happlied, hinstrument, hvolume, hdetune, hkept, rfl, hset⟩
    · -- A tempo that is not marked is the one that was set before.
      have hsame : tempo = m.written.tempo := not_not.mp fun hne => hnew ⟨hne, hrow⟩
      exact ⟨hpart, happlied, hinstrument, hvolume, hdetune, hkept, htempo, hsame ▸ hset⟩
  | _ =>
    refine ⟨hpart, happlied, hinstrument, hvolume, hdetune, ?_, htempo, ?_⟩
    · rw [lastPan?_snoc]
      exact hpan
    · rw [lastTempo_snoc]
      exact hlast

theorem Agrees.sound (h : m.Agrees g part k ps) (tick : Nat) (action : Action) (tone : Tone)
    (hrow : g.rowOf tick < g.rowCount) :
    (m.sound g tick action tone).1.Agrees g part
      ((m.sound g tick action tone).2.marks.foldl Kept.mark k) ps := by
  have hending (k : Kept) : (g.slideMarks tick tone m.starts.head? ++
      g.keyOffMarks tick tone m.starts.head?).foldl Kept.mark k = k :=
    k.foldl_mark_of_not_isSetting fun mark => isSetting_of_mem_ending
  unfold Marker.sound
  dsimp only
  rw [if_neg (Nat.not_le.mpr hrow)]
  split_ifs
  · rw [hending]
    exact h.sounding _ _
  · rw [List.foldl_append, hending, List.foldl_map]
    change Agrees g part _ ((m.struckCells tone.note).foldl Kept.cell k) ps
    rw [h.foldl_struckCells]
    exact ⟨h.part_eq, h.settings, rfl, rfl, rfl, h.pan, h.tempo, h.tempo_eq⟩

theorem Agrees.event (h : m.Agrees g part k ps) (hrow : g.rowOf e.tick < g.rowCount) :
    (m.event g e).1.Agrees g part ((m.event g e).2.marks.foldl Kept.mark k)
      (ps ++ e.action.parameter?.toList) := by
  have hnow := h.sounding (m.starts.dropWhile (· ≤ e.tick)) m.sounding
  unfold Marker.event
  cases e.action with
  | change parameter => exact hnow.change e.tick parameter hrow
  | rest duration =>
    change Agrees g part _ _ (ps ++ [])
    rw [List.append_nil]
    exact h.sounding _ none
  | noteOn tone =>
    change Agrees g part _ _ (ps ++ [])
    rw [List.append_nil]
    exact hnow.sound e.tick _ tone hrow
  | tie tone =>
    change Agrees g part _ _ (ps ++ [])
    rw [List.append_nil]
    exact hnow.sound e.tick _ tone hrow

theorem Agrees.after (h : m.Agrees g part k ps)
    (hgrid : ∀ e ∈ events, g.rowOf e.tick < g.rowCount) : (m.after g events).Agrees g part
      (((m.inks g events).flatMap Ink.marks).foldl Kept.mark k) (ps ++ parameters events) := by
  induction events generalizing m k ps with
  | nil => simpa [inks, parameters] using h
  | cons e events ih =>
    rw [List.forall_mem_cons] at hgrid
    rw [inks, List.flatMap_cons, List.foldl_append, parameters_cons, ← List.append_assoc]
    exact ih (h.event hgrid.1) hgrid.2

/-! ## From one key-on to the next -/

end Marker

/-! ## Detunes -/

section Row

variable {before later : List Event} {row : Nat}

end Row

end Settings

end ChipScore
