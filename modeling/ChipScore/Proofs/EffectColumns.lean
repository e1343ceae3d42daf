import ChipScore.Proofs.Arrangement
import ChipScore.Proofs.Performing
import Mathlib.Data.List.Basic

/-!
# Effects that find no column

Fitting effects into columns keeps their order. An urgent effect stays in its row or is dropped
there. Any other effect stays or is carried on, past full rows only, and is dropped in the last row
if no column was free up to there. All that is dropped is said.
-/

namespace ChipScore.Columns

variable {Note Instrument : Type}

/-! ## One row -/

theorem filter_isUrgent_keep (urgent free : Nat) (effects : List Effect) :
    (keep urgent free effects).filter Effect.isUrgent =
      (effects.filter Effect.isUrgent).take urgent := by
  induction effects generalizing urgent free with
  | nil => simp [keep]
  | cons e effects ih =>
    unfold keep
    cases he : e.isUrgent with
    | true => cases urgent <;> simp [he, ih]
    | false => cases free <;> simp [he, ih]

theorem filter_not_isUrgent_keep (urgent free : Nat) (effects : List Effect) :
    (keep urgent free effects).filter (!·.isUrgent) =
      (effects.filter (!·.isUrgent)).take free := by
  induction effects generalizing urgent free with
  | nil => simp [keep]
  | cons e effects ih =>
    unfold keep
    cases he : e.isUrgent with
    | true => cases urgent <;> simp [he, ih]
    | false => cases free <;> simp [he, ih]

theorem filter_isUrgent_kept (columns : Nat) (effects : List Effect) :
    (split columns effects).kept.filter Effect.isUrgent =
      (effects.filter Effect.isUrgent).take columns :=
  filter_isUrgent_keep _ _ _

theorem kept_append_carried (columns : Nat) (effects : List Effect) :
    (split columns effects).kept.filter (!·.isUrgent) ++ (split columns effects).carried =
      effects.filter (!·.isUrgent) := by
  unfold split
  dsimp only
  rw [filter_not_isUrgent_keep, List.take_append_drop]

theorem carried_eq (columns : Nat) (effects : List Effect) : (split columns effects).carried =
    (effects.filter (!·.isUrgent)).drop (columns - effects.countP Effect.isUrgent) := rfl

theorem length_kept (columns : Nat) {effects : List Effect}
    (hcarried : (split columns effects).carried ≠ []) :
    (split columns effects).kept.length = columns := by
  rw [carried_eq, ne_eq, List.drop_eq_nil_iff] at hcarried
  rw [List.length_eq_length_filter_add Effect.isUrgent, filter_isUrgent_kept]
  unfold split
  dsimp only
  rw [filter_not_isUrgent_keep, List.length_take, List.length_take, ← List.countP_eq_length_filter]
  omega

theorem not_isUrgent_of_mem_carried {columns : Nat} {effects : List Effect} {e : Effect}
    (h : e ∈ (split columns effects).carried) : e.isUrgent = false := by
  rw [carried_eq] at h
  simpa using (List.mem_filter.mp (List.mem_of_mem_drop h)).2

/-! ## One row after the other -/

/-- The rows that are still to be fitted, and what is lost in them. -/
def fitRest (columns row : Nat) (carried : List Effect) (rows : List (Row Note Instrument)) :
    List (Row Note Instrument) × List Loss :=
  fitFrom columns row carried #[] [] rows

theorem fitFrom_eq (columns row : Nat) (carried : List Effect)
    (fitted : Array (Row Note Instrument)) (lost : List Loss)
    (rows : List (Row Note Instrument)) : fitFrom columns row carried fitted lost rows =
      (fitted.toList ++ (fitRest columns row carried rows).1,
        lost.reverse ++ (fitRest columns row carried rows).2) := by
  unfold fitRest
  induction rows generalizing row carried fitted lost with
  | nil => simp [fitFrom]
  | cons r rows ih =>
    unfold fitFrom
    dsimp only
    split
    · rw [ih, ih _ _ (Array.push _ _)]
      simp
    · rw [ih, ih _ _ (Array.push _ _)]
      simp

theorem fitRest_last (columns row : Nat) (carried : List Effect) (r : Row Note Instrument) :
    fitRest columns row carried [r] =
      let s := split columns (carried ++ r.effects)
      ([{ r with effects := s.kept }], losses row (s.carried.reverse ++ s.dropped)) := by
  simp [fitRest, fitFrom]

theorem fitRest_cons (columns row : Nat) (carried : List Effect) (r next : Row Note Instrument)
    (rows : List (Row Note Instrument)) : fitRest columns row carried (r :: next :: rows) =
      let s := split columns (carried ++ r.effects)
      let rest := fitRest columns (row + 1) s.carried (next :: rows)
      ({ r with effects := s.kept } :: rest.1, losses row s.dropped ++ rest.2) := by
  rw [fitRest, fitFrom]
  dsimp only
  rw [if_neg (by simp), fitFrom_eq]
  simp

/-! ## Urgent effects -/

/-- What stays of a row, whatever is carried to it. -/
structure Keeps (columns row : Nat) (lost : List Loss) (r fitted : Row Note Instrument) : Prop where
  note : fitted.note = r.note
  instrument : fitted.instrument = r.instrument
  volume : fitted.volume = r.volume
  urgent : fitted.effects.filter Effect.isUrgent = (r.effects.filter Effect.isUrgent).take columns
  lost : ∀ e ∈ (r.effects.filter Effect.isUrgent).drop columns,
    .effectDropped e.code e.value row ∈ lost

section Keeps

variable {columns row : Nat} {carried : List Effect} {lost more : List Loss}
  {r fitted : Row Note Instrument}

theorem Keeps.mono (h : Keeps columns row lost r fitted) (hmore : ∀ loss ∈ lost, loss ∈ more) :
    Keeps columns row more r fitted :=
  ⟨h.note, h.instrument, h.volume, h.urgent, fun e he => hmore _ (h.lost e he)⟩

theorem filter_isUrgent_carried (hcarried : ∀ e ∈ carried, e.isUrgent = false)
    (effects : List Effect) :
    (carried ++ effects).filter Effect.isUrgent = effects.filter Effect.isUrgent := by
  rw [List.filter_append, List.filter_eq_nil_iff.mpr (by simpa using hcarried), List.nil_append]

theorem keeps_split (columns row : Nat) (hcarried : ∀ e ∈ carried, e.isUrgent = false)
    (r : Row Note Instrument) : Keeps columns row
      (losses row (split columns (carried ++ r.effects)).dropped) r
      { r with effects := (split columns (carried ++ r.effects)).kept } := by
  have hurgent := filter_isUrgent_carried hcarried r.effects
  refine ⟨rfl, rfl, rfl, ?_, ?_⟩
  · rw [filter_isUrgent_kept, hurgent]
  · intro e he
    refine List.mem_map.mpr ⟨e, ?_, rfl⟩
    change e ∈ (((carried ++ r.effects).filter Effect.isUrgent).drop columns).reverse
    rwa [hurgent, List.mem_reverse]

theorem keeps_fitRest (columns row : Nat) (hcarried : ∀ e ∈ carried, e.isUrgent = false)
    (rows : List (Row Note Instrument)) {i : Nat} (hr : rows[i]? = some r) :
    ∃ fitted, (fitRest columns row carried rows).1[i]? = some fitted ∧
      Keeps columns (row + i) (fitRest columns row carried rows).2 r fitted := by
  induction rows generalizing row carried i with
  | nil => cases hr
  | cons first rows ih =>
    have hfirst := keeps_split columns row hcarried first
    cases rows with
    | nil =>
      rw [fitRest_last]
      cases i with
      | zero =>
        cases hr
        refine ⟨_, rfl, hfirst.mono ?_⟩
        intro loss hloss
        dsimp only
        unfold losses at hloss ⊢
        rw [List.map_append]
        exact List.mem_append_right _ hloss
      | succ i => cases hr
    | cons next rows =>
      rw [fitRest_cons]
      cases i with
      | zero =>
        cases hr
        exact ⟨_, rfl, hfirst.mono fun _ => List.mem_append_left _⟩
      | succ i =>
        obtain ⟨fitted, hfitted, hkeeps⟩ :=
          ih (row + 1) (fun _ => not_isUrgent_of_mem_carried) hr
        rw [Nat.add_right_comm, Nat.add_assoc] at hkeeps
        exact ⟨fitted, hfitted, hkeeps.mono fun _ => List.mem_append_right _⟩

theorem keeps_fit (columns : Nat) (rows : List (Row Note Instrument)) {i : Nat}
    (hr : rows[i]? = some r) : ∃ fitted, (fit columns rows).1[i]? = some fitted ∧
      Keeps columns i (fit columns rows).2 r fitted := by
  have hnone : ∀ e ∈ ([] : List Effect), e.isUrgent = false := by simp
  have h := keeps_fitRest columns 0 hnone rows hr
  rwa [Nat.zero_add] at h

end Keeps

/-! ## Effects that may be carried -/

/-- The effects that are not urgent, row by row, each with the number of its row. -/
def loose : List (Row Note Instrument) → List (Nat × Effect)
  | [] => []
  | r :: rows => (r.effects.filter (!·.isUrgent)).map (0, ·) ++
    (loose rows).map fun (row, e) => (row + 1, e)

/-- All columns of a row are taken. -/
def FullAt (columns : Nat) (rows : List (Row Note Instrument)) (row : Nat) : Prop :=
  ∃ r, rows[row]? = some r ∧ r.effects.length = columns

/-- All columns of some rows are taken. -/
def FullFrom (columns : Nat) (rows : List (Row Note Instrument)) (start stop : Nat) : Prop :=
  ∀ row, start ≤ row → row < stop → FullAt columns rows row

/-- What becomes of an effect in `row` that is the `k`-th of those that may be carried: it has the
same place among those of the fitted rows, or is dropped in the last row. -/
def Settles (columns last : Nat) (fitted : List (Row Note Instrument)) (lost : List Loss)
    (k row : Nat) (e : Effect) : Prop :=
  (∃ later, row ≤ later ∧ (loose fitted)[k]? = some (later, e) ∧
    FullFrom columns fitted row later) ∨
  ((loose fitted)[k]? = none ∧ FullFrom columns fitted row fitted.length ∧
    .effectDropped e.code e.value last ∈ lost)

section Settles

variable {columns last : Nat} {fitted : List (Row Note Instrument)} {lost more : List Loss}
  {k row : Nat} {e : Effect}

theorem FullFrom.cons {start stop : Nat} (h : FullFrom columns fitted start stop)
    (f : Row Note Instrument) : FullFrom columns (f :: fitted) (start + 1) (stop + 1) := by
  intro row hstart hstop
  cases row with
  | zero => omega
  | succ row => exact h row (by omega) (by omega)

theorem FullFrom.zero {stop : Nat} {f : Row Note Instrument} (hf : f.effects.length = columns)
    (h : FullFrom columns (f :: fitted) 1 stop) : FullFrom columns (f :: fitted) 0 stop := by
  intro row _ hstop
  cases row with
  | zero => exact ⟨f, rfl, hf⟩
  | succ row => exact h (row + 1) (by omega) hstop

theorem getElem?_loose_cons (f : Row Note Instrument) (fitted : List (Row Note Instrument))
    (k : Nat) : (loose (f :: fitted))[(f.effects.filter (!·.isUrgent)).length + k]? =
      (loose fitted)[k]?.map fun (row, e) => (row + 1, e) := by
  rw [loose, List.getElem?_append_right (by simp), List.getElem?_map]
  simp

theorem Settles.cons (h : Settles columns last fitted lost k row e) (f : Row Note Instrument)
    (hmore : ∀ loss ∈ lost, loss ∈ more) : Settles columns last (f :: fitted) more
      ((f.effects.filter (!·.isUrgent)).length + k) (row + 1) e := by
  unfold Settles
  rw [getElem?_loose_cons]
  rcases h with ⟨later, hle, hk, hfull⟩ | ⟨hk, hfull, hlost⟩
  · exact .inl ⟨later + 1, by omega, by rw [hk]; rfl, hfull.cons f⟩
  · exact .inr ⟨by rw [hk]; rfl, hfull.cons f, hmore _ hlost⟩

theorem Settles.carried {f : Row Note Instrument} (hf : f.effects.length = columns)
    (h : Settles columns last (f :: fitted) lost k 1 e) :
    Settles columns last (f :: fitted) lost k 0 e := by
  rcases h with ⟨later, -, hk, hfull⟩ | ⟨hk, hfull, hlost⟩
  · exact .inl ⟨later, Nat.zero_le _, hk, hfull.zero hf⟩
  · exact .inr ⟨hk, hfull.zero hf, hlost⟩

end Settles

/-! ## All rows -/

section Loose

variable {columns row : Nat} {carried : List Effect}

/-- What is carried to the first of the rows comes before its own effects. -/
def incoming (carried : List Effect) (rows : List (Row Note Instrument)) : List (Nat × Effect) :=
  carried.map (0, ·) ++ loose rows

theorem incoming_cons (columns : Nat) (hcarried : ∀ e ∈ carried, e.isUrgent = false)
    (r : Row Note Instrument) (rows : List (Row Note Instrument)) :
    incoming carried (r :: rows) =
      ((split columns (carried ++ r.effects)).kept.filter (!·.isUrgent)).map (0, ·) ++
        ((split columns (carried ++ r.effects)).carried.map (0, ·) ++
          (loose rows).map fun (row, e) => (row + 1, e)) := by
  have hothers : carried.filter (!·.isUrgent) = carried := by
    rw [List.filter_eq_self]
    simpa using hcarried
  rw [← List.append_assoc, ← List.map_append, kept_append_carried, List.filter_append, hothers,
    incoming, loose, List.map_append, List.append_assoc]

/-- The effects that are carried on, and then those of the later rows: the first settle as at the
start of the next row, from which the others are one row nearer. -/
theorem of_getElem?_carried {rows : List (Row Note Instrument)} {k : Nat} {e : Effect}
    (h : (carried.map (0, ·) ++ (loose rows).map fun (row, e) => (row + 1, e))[k]? =
      some (row, e)) :
    (carried ≠ [] ∧ row = 0 ∧ (incoming carried rows)[k]? = some (0, e)) ∨
      ∃ later, row = later + 1 ∧ (incoming carried rows)[k]? = some (later, e) := by
  unfold incoming
  rcases Nat.lt_or_ge k carried.length with hlt | hge
  · have hlength : k < (carried.map fun e => (0, e)).length := by rwa [List.length_map]
    rw [List.getElem?_append_left hlength] at h ⊢
    have hrow : row = 0 := by
      rw [List.getElem?_map] at h
      obtain ⟨x, -, hx⟩ := Option.map_eq_some_iff.mp h
      exact (congrArg Prod.fst hx).symm
    rw [hrow] at h
    exact .inl ⟨List.ne_nil_of_length_pos (Nat.zero_lt_of_lt hlt), hrow, h⟩
  · have hlength : (carried.map fun e => (0, e)).length ≤ k := by rwa [List.length_map]
    rw [List.getElem?_append_right hlength] at h ⊢
    rw [List.getElem?_map] at h
    obtain ⟨⟨later, x⟩, hx, heq⟩ := Option.map_eq_some_iff.mp h
    cases heq
    exact .inr ⟨later, rfl, hx⟩

theorem settles_first {last k start : Nat} {f : Row Note Instrument}
    (fitted : List (Row Note Instrument)) (lost : List Loss) {e : Effect}
    (h : ((f.effects.filter (!·.isUrgent)).map fun e => (0, e))[k]? = some (start, e)) :
    Settles columns last (f :: fitted) lost k start e := by
  have hk := (List.getElem?_eq_some_iff.mp h).1
  have hloose : (loose (f :: fitted))[k]? = some (start, e) := by
    rw [loose, List.getElem?_append_left hk, h]
  exact .inl ⟨start, Nat.le_refl _, hloose, fun _ hle hlt => absurd hle (Nat.not_le.mpr hlt)⟩

theorem settles_last {last k : Nat} {f : Row Note Instrument} {lost : List Loss} {e : Effect}
    (hf : f.effects.length = columns) (hk : (f.effects.filter (!·.isUrgent)).length ≤ k)
    (hlost : .effectDropped e.code e.value last ∈ lost) :
    Settles columns last [f] lost k 0 e := by
  refine .inr ⟨?_, ?_, hlost⟩
  · rw [List.getElem?_eq_none_iff]
    simpa [loose] using hk
  · intro row _ hrow
    have hzero : row = 0 := Nat.lt_one_iff.mp hrow
    exact ⟨f, by rw [hzero]; rfl, hf⟩

/-- Each effect that may be carried settles, and there are no others. -/
theorem settles_fitRest (columns row : Nat) (hcarried : ∀ e ∈ carried, e.isUrgent = false)
    (first : Row Note Instrument) (rows : List (Row Note Instrument)) :
    (loose (fitRest columns row carried (first :: rows)).1).length ≤
        (incoming carried (first :: rows)).length ∧
      ∀ k start e, (incoming carried (first :: rows))[k]? = some (start, e) →
        Settles columns (row + rows.length) (fitRest columns row carried (first :: rows)).1
          (fitRest columns row carried (first :: rows)).2 k start e := by
  induction rows generalizing row carried first with
  | nil =>
    rw [fitRest_last, incoming_cons columns hcarried]
    dsimp only
    refine ⟨by simp [loose], ?_⟩
    intro k start e hk
    rw [List.getElem?_append] at hk
    split at hk
    · exact settles_first _ _ hk
    · rename_i hge
      rw [List.length_map, Nat.not_lt] at hge
      rw [loose, List.map_nil, List.append_nil, List.getElem?_map] at hk
      obtain ⟨x, hx, heq⟩ := Option.map_eq_some_iff.mp hk
      cases heq
      have hx := List.mem_of_getElem? hx
      refine settles_last (length_kept columns (List.ne_nil_of_mem hx)) hge ?_
      exact List.mem_map.mpr ⟨e, List.mem_append_left _ (List.mem_reverse.mpr hx), rfl⟩
  | cons next rows ih =>
    rw [fitRest_cons, incoming_cons columns hcarried]
    dsimp only
    obtain ⟨hlength, hsettles⟩ :=
      ih (row + 1) (fun _ => not_isUrgent_of_mem_carried) next
    have hlast : row + (next :: rows).length = row + 1 + rows.length := by
      rw [List.length_cons]
      omega
    refine ⟨?_, ?_⟩
    · rw [incoming, List.length_append, List.length_map] at hlength
      rw [loose, List.length_append, List.length_map, List.length_map, List.length_append,
        List.length_map, List.length_append, List.length_map, List.length_map]
      exact Nat.add_le_add_left hlength _
    · intro k start e hk
      rw [hlast]
      rw [List.getElem?_append] at hk
      split at hk
      · exact settles_first _ _ hk
      · rename_i hge
        rw [List.length_map, Nat.not_lt] at hge
        rw [List.length_map] at hk
        obtain ⟨j, rfl⟩ := Nat.exists_eq_add_of_le hge
        rw [Nat.add_sub_cancel_left] at hk
        rcases of_getElem?_carried hk with ⟨hne, rfl, hj⟩ | ⟨later, rfl, hj⟩
        · apply Settles.carried (length_kept columns hne)
          exact (hsettles j 0 e hj).cons _ fun _ => List.mem_append_right _
        · exact (hsettles j later e hj).cons _ fun _ => List.mem_append_right _

end Loose

end ChipScore.Columns

namespace ChipScore

theorem Warnings.mem_append {ws : Warnings} {more : List Warning} {w : Warning} :
    w ∈ (ws.append more).items ↔ w ∈ ws.items ∨ w ∈ more := by
  unfold append
  induction more generalizing ws with
  | nil => simp
  | cons v more ih => rw [List.foldl_cons, ih, mem_push, or_assoc, List.mem_cons]

/-- It is said that an effect of a row of a part was dropped. -/
def Warnings.SayDropped (ws : Warnings) (part : Part) (row : Nat) (e : Effect) : Prop :=
  .overflow (.part part) (.effectDropped e.code e.value row) ∈ ws.items

open Columns

/-- Fitting a channel changes nothing but effects, and gives no row more of them than columns. Urgent
effects stay in their row, the first of them, as many as there are columns. The others stay in their
order, and each stays in its row or is carried past full rows only. What is dropped is said. -/
theorem fit_settles (columns : Nat) (part : Part) (ws : Warnings) (rows : List ScoreRow) :
    let fitted := (fit columns rows).1
    let said := ws.append (Arrangement.partWarnings part (fit columns rows).2)
    fitted.length = rows.length ∧
      (∀ row r, rows[row]? = some r → ∃ f, fitted[row]? = some f ∧
        f.note = r.note ∧ f.instrument = r.instrument ∧ f.volume = r.volume ∧
        f.effects.length ≤ columns ∧
        f.effects.filter Effect.isUrgent = (r.effects.filter Effect.isUrgent).take columns ∧
        ∀ e ∈ (r.effects.filter Effect.isUrgent).drop columns, said.SayDropped part row e) ∧
      (loose fitted).length ≤ (loose rows).length ∧
      ∀ (k row : Nat) (e : Effect), (loose rows)[k]? = some (row, e) →
        (∃ later, row ≤ later ∧ (loose fitted)[k]? = some (later, e) ∧
          FullFrom columns fitted row later) ∨
        ((loose fitted)[k]? = none ∧ FullFrom columns fitted row rows.length ∧
          said.SayDropped part (rows.length - 1) e) := by
  intro fitted said
  obtain ⟨hlength, hcolumns⟩ := fit_shape columns rows
  have hsays : ∀ (e : Effect) row, .effectDropped e.code e.value row ∈ (fit columns rows).2 →
      said.SayDropped part row e :=
    fun e row h => Warnings.mem_append.mpr (.inr (List.mem_map_of_mem h))
  refine ⟨hlength, ?_, ?_⟩
  · intro row r hr
    obtain ⟨f, hf, hkeeps⟩ := keeps_fit columns rows hr
    exact ⟨f, hf, hkeeps.note, hkeeps.instrument, hkeeps.volume,
      hcolumns f (List.mem_of_getElem? hf), hkeeps.urgent, fun e he => hsays _ _ (hkeeps.lost e he)⟩
  · cases rows with
    | nil =>
      refine ⟨Nat.le_refl _, ?_⟩
      intro k row e h
      cases h
    | cons first rows =>
      have hnone : ∀ e ∈ ([] : List Effect), e.isUrgent = false := by simp
      obtain ⟨hle, hsettles⟩ := settles_fitRest columns 0 hnone first rows
      refine ⟨hle, ?_⟩
      intro k row e hk
      have hlast : 0 + rows.length = (first :: rows).length - 1 := by simp
      rcases hsettles k row e hk with hstays | ⟨hnone, hfull, hlost⟩
      · exact .inl hstays
      · rw [hlast] at hlost
        change FullFrom columns fitted row fitted.length at hfull
        rw [hlength] at hfull
        exact .inr ⟨hnone, hfull, hsays _ _ hlost⟩

/-- Two columns. -/
example : (fit 2 [
      ({ effects := [.jump 1, .pan .left, .detune 3, .noteCut 2] } : ScoreRow),
      { effects := [.noteCut 1] }, {}]).1.map Row.effects =
    [[.jump 1, .pan .left], [.detune 3, .noteCut 2], [.noteCut 1]] := by
  decide

end ChipScore
