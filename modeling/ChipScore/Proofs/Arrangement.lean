import ChipScore.Arrangement

/-!
# The shape of an arrangement

Every channel of an arrangement has as many rows as the grid, and every row has as many effects as
its channel has columns, at the most.
-/

namespace ChipScore

/-! ## Effect columns -/

namespace Columns

theorem length_keep_le (urgent free : Nat) (effects : List Effect) :
    (keep urgent free effects).length ≤ min urgent (effects.countP Effect.isUrgent) + free := by
  induction effects generalizing urgent free with
  | nil => simp [keep]
  | cons e effects ih =>
    unfold keep
    split
    · rename_i he
      rw [List.countP_cons_of_pos he]
      split
      · have := ih 0 free
        omega
      · rename_i urgent
        have := ih urgent free
        rw [List.length_cons]
        omega
    · rename_i he
      rw [List.countP_cons_of_neg he]
      split
      · exact ih urgent 0
      · rename_i free
        have := ih urgent free
        rw [List.length_cons]
        omega

theorem length_kept_le (columns : Nat) (effects : List Effect) :
    (split columns effects).kept.length ≤ columns := by
  have := length_keep_le columns (columns - effects.countP Effect.isUrgent) effects
  unfold split
  dsimp only
  omega

variable {Note Instrument : Type}

theorem fitFrom_shape (columns row : Nat) (carried : List Effect)
    {fitted : Array (Row Note Instrument)} (lost : List Loss)
    (hfitted : ∀ r ∈ fitted, r.effects.length ≤ columns) (rows : List (Row Note Instrument)) :
    (fitFrom columns row carried fitted lost rows).1.length = fitted.size + rows.length ∧
      ∀ r ∈ (fitFrom columns row carried fitted lost rows).1, r.effects.length ≤ columns := by
  induction rows generalizing row carried fitted lost with
  | nil => simpa [fitFrom] using hfitted
  | cons r rows ih =>
    have hpush : ∀ x ∈ fitted.push { r with effects := (split columns (carried ++ r.effects)).kept },
        x.effects.length ≤ columns := by
      intro x hx
      rcases Array.mem_push.mp hx with hx | rfl
      · exact hfitted x hx
      · exact length_kept_le columns _
    have hsize : fitted.size + (r :: rows).length =
        (fitted.push { r with effects := (split columns (carried ++ r.effects)).kept }).size +
          rows.length := by
      rw [Array.size_push, List.length_cons]
      omega
    rw [hsize]
    unfold fitFrom
    dsimp only
    split
    · exact ih _ _ _ hpush
    · exact ih _ _ _ hpush

theorem fit_shape (columns : Nat) (rows : List (Row Note Instrument)) :
    (fit columns rows).1.length = rows.length ∧
      ∀ r ∈ (fit columns rows).1, r.effects.length ≤ columns := by
  have hnone : ∀ r ∈ (#[] : Array (Row Note Instrument)), r.effects.length ≤ columns := by simp
  have h := fitFrom_shape columns 0 [] [] hnone rows
  rwa [Array.size_empty, Nat.zero_add] at h

end Columns

/-! ## Rows of the grid -/

namespace Grid

theorem size_cells (g : Grid) (marks : Array Mark) : (g.cells marks).size = g.rowCount := by
  unfold cells
  rw [← Array.foldr_toList]
  induction marks.toList with
  | nil => simp
  | cons mark marks ih => simpa using ih

theorem length_layOut (g : Grid) (part : Part) (events : List Event) :
    (g.layOut part events).1.length = g.rowCount := by
  unfold layOut
  simp [size_cells]

end Grid

namespace Arrangement

theorem length_of_mem_layOut {g : Grid} {timelines : List Timeline} {rows : List ScoreRow}
    (h : rows ∈ (layOut g timelines).1) : rows.length = g.rowCount := by
  unfold layOut at h
  simp only [List.map_map, List.mem_map, Function.comp_apply] at h
  obtain ⟨channel, -, rfl⟩ := h
  unfold layOutChannel
  split
  · exact g.length_layOut _ _
  · simp

theorem length_layOut (g : Grid) (timelines : List Timeline) :
    (layOut g timelines).1.length = Tracker.channelCount := by
  simp [layOut]

/-! ## The song loop -/

theorem length_of_mem_placeLoop {g : Grid} {patternLength tick : Nat}
    {channels : List (List ScoreRow)} (hchannels : ∀ rows ∈ channels, rows.length = g.rowCount)
    {rows : List ScoreRow} (h : rows ∈ (placeLoop g patternLength channels tick).1) :
    rows.length = g.rowCount := by
  unfold placeLoop at h
  dsimp only at h
  split at h
  · exact hchannels rows h
  · cases channels with
    | nil => cases h
    | cons first others =>
      rw [List.modifyHead_cons, List.mem_cons] at h
      rw [List.forall_mem_cons] at hchannels
      rcases h with rfl | h
      · rw [List.length_modify]
        exact hchannels.1
      · exact hchannels.2 rows h

theorem length_placeLoop (g : Grid) (patternLength tick : Nat) (channels : List (List ScoreRow)) :
    (placeLoop g patternLength channels tick).1.length = channels.length := by
  unfold placeLoop
  dsimp only
  split
  · rfl
  · simp

/-- The rows of all channels with the song loop in them, before effects are carried on. -/
def loopedChannels (o : Options) (timelines : List Timeline) : List (List ScoreRow) :=
  let parts := audible timelines
  let grid := (planGrid o parts).1
  (placeLoop? grid o.patternLength (layOut grid parts).1 parts).1

/-- The rows of a channel as they go into the song. -/
def fittedRows (o : Options) (timelines : List Timeline) (channel : Nat) : List ScoreRow :=
  (Columns.fit o.effectColumns ((loopedChannels o timelines).getD channel [])).1

theorem length_loopedChannels (o : Options) (timelines : List Timeline) :
    (loopedChannels o timelines).length = Tracker.channelCount := by
  unfold loopedChannels placeLoop?
  dsimp only
  split
  · rw [length_placeLoop, length_layOut]
  · exact length_layOut _ _

theorem length_of_mem_loopedChannels {o : Options} {timelines : List Timeline}
    {rows : List ScoreRow} (h : rows ∈ loopedChannels o timelines) :
    rows.length = (planGrid o (audible timelines)).1.rowCount := by
  unfold loopedChannels placeLoop? at h
  dsimp only at h
  split at h
  · exact length_of_mem_placeLoop (fun _ => length_of_mem_layOut) h
  · exact length_of_mem_layOut h

theorem length_fittedRows {o : Options} {timelines : List Timeline} {channel : Nat}
    (h : channel < Tracker.channelCount) :
    (fittedRows o timelines channel).length = (planGrid o (audible timelines)).1.rowCount := by
  have hlength : channel < (loopedChannels o timelines).length := by rwa [length_loopedChannels]
  unfold fittedRows
  rw [(Columns.fit_shape _ _).1, List.getD_eq_getElem?_getD, List.getElem?_eq_getElem hlength,
    Option.getD_some]
  exact length_of_mem_loopedChannels (List.getElem_mem hlength)

theorem length_effects_of_mem_fittedRows {o : Options} {timelines : List Timeline} {channel : Nat}
    {r : ScoreRow} (h : r ∈ fittedRows o timelines channel) : r.effects.length ≤ o.effectColumns :=
  (Columns.fit_shape _ _).2 r h

/-! ## The whole arrangement -/

variable (o : Options) (voices : List VoiceRecord) (timelines : List Timeline)

theorem fitAll_eq (columns : Nat) (channels : List (List ScoreRow)) :
    (fitAll columns channels).1 =
      (List.range channels.length).map fun channel =>
        (Columns.fit columns (channels.getD channel [])).1 := by
  apply List.ext_getElem
  · simp [fitAll]
  · intro channel h _
    have hlength : channel < channels.length := by simpa [fitAll] using h
    simp [fitAll, fitChannel, hlength]

theorem arrange_channels :
    (arrange o voices timelines).1.channels =
      (List.range Tracker.channelCount).map (fittedRows o timelines) := by
  change (fitAll o.effectColumns (loopedChannels o timelines)).1 = _
  rw [fitAll_eq, length_loopedChannels]
  rfl

theorem arrange_effectColumns :
    (arrange o voices timelines).1.effectColumns =
      (List.range Tracker.channelCount).map fun channel =>
        neededColumns o.effectColumns (fittedRows o timelines channel) := by
  change (arrange o voices timelines).1.channels.map _ = _
  rw [arrange_channels, List.map_map]
  rfl

theorem neededColumns_shape {limit : Nat} (hpos : 1 ≤ limit) (hlimit : limit < 256)
    {rows : List ScoreRow} (hrows : ∀ r ∈ rows, r.effects.length ≤ limit) :
    1 ≤ (neededColumns limit rows).toNat ∧ (neededColumns limit rows).toNat ≤ limit ∧
      ∀ r ∈ rows, r.effects.length ≤ (neededColumns limit rows).toNat := by
  unfold neededColumns
  rw [UInt8.toNat_ofNat_of_lt' (by rw [UInt8.size]; omega)]
  refine ⟨by omega, by omega, fun r hr => ?_⟩
  have hmax := List.le_max?_getD_of_mem (k := 0) (List.mem_map_of_mem (f := (·.effects.length)) hr)
  have := hrows r hr
  omega

/-! ## Orders -/

theorem cover_bounds {size length : Nat} (hsize : 0 < size) (hlength : 0 < length) :
    length ≤ cover size length * size ∧ (cover size length - 1) * size < length := by
  have hdiv := Nat.div_add_mod (length + size - 1) size
  have hmod := Nat.mod_lt (length + size - 1) hsize
  unfold cover
  rw [Nat.sub_one_mul, Nat.mul_comm]
  omega

theorem cover_pos {size length : Nat} (hsize : 0 < size) (hlength : 0 < length) :
    1 ≤ cover size length := by
  apply (Nat.one_le_div_iff hsize).mpr
  omega

theorem cover_le {size length count : Nat} (hsize : 0 < size) (h : length ≤ count * size) :
    cover size length ≤ count := by
  apply Nat.le_of_lt_succ
  unfold cover
  rw [Nat.div_lt_iff_lt_mul hsize, Nat.succ_mul]
  omega

end Arrangement

/-! ## Options that were accepted -/

/-- What the options are checked for. -/
structure Options.Valid (o : Options) : Prop where
  ticksPerRow_pos : 1 ≤ o.ticksPerRow
  ticksPerRow_le : o.ticksPerRow ≤ 255
  patternLength_pos : 1 ≤ o.patternLength
  patternLength_le : o.patternLength ≤ 256
  effectColumns_pos : 1 ≤ o.effectColumns
  effectColumns_le : o.effectColumns ≤ 8
  tempoBase_pos : 1 ≤ o.tempoBase

theorem Options.valid_of_fault? {o : Options} (h : o.fault? = none) : o.Valid := by
  unfold fault? at h
  split at h
  · cases h
  · split at h
    · cases h
    · split at h
      · cases h
      · split at h
        · cases h
        · unfold maxTicksPerRow maxPatternLength maxEffectColumns at *
          constructor <;> omega

namespace Arrangement

theorem rowCount_planGrid {o : Options} (ho : o.Valid) (timelines : List Timeline) :
    1 ≤ (planGrid o timelines).1.rowCount ∧
      (planGrid o timelines).1.rowCount ≤ maxOrders * o.patternLength := by
  have hlength := ho.patternLength_pos
  unfold planGrid maxOrders
  dsimp only
  split
  · dsimp only
    omega
  · dsimp only
    omega

end Arrangement

end ChipScore
