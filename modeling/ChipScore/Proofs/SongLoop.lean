import ChipScore.Proofs.KeyOffOwners
import ChipScore.Proofs.SongTempo
import Mathlib.Data.List.GetD

/-!
# The loop of a song

A song goes back by one jump, in the last row of its first channel. The jump stands in front of the
effects that this row has of its own and is urgent, so it finds a column whatever else the row has
and whatever is carried to it. No part writes a jump.
-/

namespace ChipScore

open Tracker

/-! ## Jumps -/

/-- The order to which an effect jumps. -/
def Effect.jump? (e : Effect) : Option Nat :=
  if e.code = jumpCode then some e.value.toNat else none

/-- The orders to which the effects of a row jump. -/
def Row.jumps {Note Instrument : Type} (r : Row Note Instrument) : List Nat :=
  r.effects.filterMap Effect.jump?

theorem Effect.isUrgent_of_jump? {e : Effect} {order : Nat} (h : e.jump? = some order) :
    e.isUrgent = true := by
  unfold jump? at h
  split_ifs at h with hcode
  simp [isUrgent, hcode]

theorem Effect.jump?_jump {order : Nat} (h : order < 256) : (jump order).jump? = some order := by
  change some (UInt8.ofNat order).toNat = some order
  rw [UInt8.toNat_ofNat_of_lt' h]

theorem Row.jumps_eq {Note Instrument : Type} (r : Row Note Instrument) :
    r.jumps = (r.effects.filter Effect.isUrgent).filterMap Effect.jump? :=
  (Effect.filterMap_isUrgent (fun _ _ => Effect.isUrgent_of_jump?) r.effects).symm

/-- A jump as it is found in a song. -/
structure Jump where
  channel : Nat
  row : Nat
  order : Nat
  deriving DecidableEq, Repr

/-- All jumps of a song: channel by channel, and in each the rows that are played. -/
def Tracker.LoadedSong.jumps (s : LoadedSong) : List Jump :=
  (List.range channelCount).flatMap fun channel =>
    (List.range (s.channelRows channel).length).flatMap fun row =>
      ((s.channelRows channel).getD row .empty).jumps.map fun order => ⟨channel, row, order⟩

/-- The row to which a song goes back: the one with the loop mark of the first part that has one, if
the song has that row. -/
def loopRow? (ticksPerRow rowCount : Nat) (parts : List Timeline) : Option Nat :=
  ((parts.findSome? Timeline.loopTick).map (· / ticksPerRow)).filter (· < rowCount)

theorem loopRow?_eq (ticksPerRow rowCount : Nat) (parts : List Timeline) :
    loopRow? ticksPerRow rowCount parts = (parts.findSome? Timeline.loopTick).bind fun tick =>
      if tick / ticksPerRow < rowCount then some (tick / ticksPerRow) else none := by
  unfold loopRow?
  cases parts.findSome? Timeline.loopTick with
  | none => rfl
  | some tick => simp [Option.filter]

/-! ## Parts write no jumps -/

/-- The codes of the effects that a part writes. -/
def Effect.partCodes : List UInt8 := tempoCode :: toneCodes

theorem Effect.jump?_of_mem_partCodes {e : Effect} (h : e.code ∈ partCodes) : e.jump? = none := by
  refine if_neg ?_
  intro hcode
  rw [hcode] at h
  revert h
  decide

namespace Marker

variable {g : Grid} {m : Marker} {e : Event} {effect : Effect} {mark : Mark}

theorem code_of_mem_change {tick : Nat} {parameter : Parameter}
    (h : mark ∈ (m.change g tick parameter).2.marks) (hcell : mark.cell = .effect effect) :
    effect.code ∈ Effect.partCodes := by
  rcases marks_change g m tick parameter with hnone | ⟨change, hcode, hone⟩
  · simp [hnone] at h
  · rw [hone, List.mem_singleton] at h
    subst h
    cases hcell
    rcases hcode with hcode | hcode <;> simp [Effect.partCodes, Effect.toneCodes, hcode]

theorem code_of_mem_event (h : mark ∈ (m.event g e).2.marks) (hcell : mark.cell = .effect effect) :
    effect.code ∈ Effect.partCodes := by
  unfold Marker.event at h
  cases haction : e.action with
  | noteOn tone =>
    rw [haction] at h
    exact List.mem_cons_of_mem _ (code_of_mem_sound h hcell)
  | tie tone =>
    rw [haction] at h
    exact List.mem_cons_of_mem _ (code_of_mem_sound h hcell)
  | rest duration =>
    rw [haction] at h
    cases h
  | change parameter =>
    rw [haction] at h
    exact code_of_mem_change h hcell

end Marker

theorem Grid.jumps_layOut {g : Grid} {part : Part} {events : List Event} {r : ScoreRow}
    (h : r ∈ (g.layOut part events).1) : r.jumps = [] := by
  obtain ⟨row, hr⟩ := List.mem_iff_getElem?.mp h
  have hrow : row < g.rowCount := by
    rw [← g.length_layOut part events]
    exact (List.getElem?_eq_some_iff.mp hr).1
  rw [g.getElem?_layOut part events hrow, Option.some.injEq] at hr
  unfold Row.jumps
  rw [List.filterMap_eq_nil_iff]
  intro e he
  rw [← hr, Row.effect_mem_ofCells, Grid.mem_rowCells] at he
  obtain ⟨ink, hink, hmark⟩ := List.mem_flatMap.mp he
  obtain ⟨before, event, later, -, rfl⟩ := Marker.exists_of_mem_inks hink
  exact Effect.jump?_of_mem_partCodes (Marker.code_of_mem_event hmark rfl)

theorem Arrangement.jumps_layOut {g : Grid} {parts : List Timeline} {rows : List ScoreRow}
    (hrows : rows ∈ (layOut g parts).1) {r : ScoreRow} (hr : r ∈ rows) : r.jumps = [] := by
  unfold layOut at hrows
  simp only [List.map_map, List.mem_map, Function.comp_apply] at hrows
  obtain ⟨channel, -, rfl⟩ := hrows
  unfold layOutChannel at hr
  split at hr
  · exact Grid.jumps_layOut hr
  · rw [List.eq_of_mem_replicate hr]
    rfl

/-! ## The jump is placed -/

namespace Arrangement

/-- The order to which a channel is to jump in a row. -/
def orderAt? (g : Grid) (patternLength : Nat) (parts : List Timeline) (channel row : Nat) :
    Option Nat :=
  if channel = 0 ∧ row = g.rowCount - 1 then
    (loopRow? g.ticksPerRow g.rowCount parts).map (· / patternLength)
  else none

/-- A row that jumps to an order, if there is one, before it does anything else. -/
def JumpsFirst (order? : Option Nat) (r : ScoreRow) : Prop :=
  ∃ others, r.effects = (order?.map Effect.jump).toList ++ others ∧
    others.filterMap Effect.jump? = []

variable {g : Grid} {patternLength channel row : Nat} {parts : List Timeline}
  {channels : List (List ScoreRow)} {r : ScoreRow}

theorem placeLoop?_eq (h : loopRow? g.ticksPerRow g.rowCount parts = some row) :
    placeLoop? g patternLength channels parts =
      (channels.modifyHead fun rows =>
          rows.modify (g.rowCount - 1) (addEffect (.jump (row / patternLength))),
        if row % patternLength = 0 then [] else [.loopRowMoved row (row / patternLength)]) := by
  rw [loopRow?_eq, Option.bind_eq_some_iff] at h
  obtain ⟨tick, htick, h⟩ := h
  split_ifs at h with hin
  cases h
  unfold placeLoop? placeLoop
  rw [htick]
  exact if_neg (Nat.not_le.mpr hin)

theorem placeLoop?_of_none (h : loopRow? g.ticksPerRow g.rowCount parts = none) :
    placeLoop? g patternLength channels parts = (channels, []) := by
  rw [loopRow?_eq, Option.bind_eq_none_iff] at h
  unfold placeLoop?
  cases htick : parts.findSome? Timeline.loopTick with
  | none => rfl
  | some tick =>
    have hpast := h tick htick
    split_ifs at hpast with hin
    exact if_pos (Nat.not_lt.mp hin)

theorem jumpsFirst_placeLoop? (hr : (channels.getD channel [])[row]? = some r)
    (hjumps : r.jumps = []) :
    ∃ looped, ((placeLoop? g patternLength channels parts).1.getD channel [])[row]? = some looped ∧
      JumpsFirst (orderAt? g patternLength parts channel row) looped := by
  unfold orderAt?
  cases hloop : loopRow? g.ticksPerRow g.rowCount parts with
  | none =>
    rw [placeLoop?_of_none hloop, Option.map_none, ite_self]
    exact ⟨r, hr, r.effects, rfl, hjumps⟩
  | some target =>
    rw [placeLoop?_eq hloop]
    cases channels with
    | nil => cases hr
    | cons first others =>
      cases channel with
      | succ channel =>
        -- The jump goes into the first channel only.
        exact ⟨r, hr, r.effects, rfl, hjumps⟩
      | zero =>
        have hfirst : first[row]? = some r := hr
        change ∃ looped, (first.modify _ _)[row]? = some looped ∧ _
        rw [List.getElem?_modify, hfirst, Option.map_eq_map, Option.map_some]
        refine ⟨_, rfl, ?_⟩
        by_cases hlast : g.rowCount - 1 = row
        · rw [if_pos hlast, if_pos ⟨rfl, hlast.symm⟩]
          exact ⟨r.effects, rfl, hjumps⟩
        · rw [if_neg hlast, if_neg fun h => hlast h.2.symm]
          exact ⟨r.effects, rfl, hjumps⟩

theorem jumpsFirst_looped (patternLength : Nat) (parts : List Timeline)
    (hchannel : channel < channelCount) (hrow : row < g.rowCount) :
    ∃ looped, ((placeLoop? g patternLength (layOut g parts).1 parts).1.getD channel [])[row]? =
      some looped ∧ JumpsFirst (orderAt? g patternLength parts channel row) looped := by
  rw [← length_layOut g parts] at hchannel
  have hmem := List.getElem_mem hchannel
  rw [← length_of_mem_layOut hmem] at hrow
  refine jumpsFirst_placeLoop? ?_ (jumps_layOut hmem (List.getElem_mem hrow))
  rw [List.getD_eq_getElem _ _ hchannel, List.getElem?_eq_getElem hrow]

end Arrangement

/-! ## The jump finds a column -/

theorem Columns.Keeps.jumps {columns row : Nat} {lost : List Loss} {order? : Option Nat}
    {r fitted : ScoreRow} (h : Keeps columns row lost r fitted) (hcolumns : 1 ≤ columns)
    (hr : Arrangement.JumpsFirst order? r) (horder : ∀ order ∈ order?, order < 256) :
    fitted.jumps = order?.toList := by
  obtain ⟨others, heffects, hothers⟩ := hr
  have hnone : ∀ columns,
      ((others.filter Effect.isUrgent).take columns).filterMap Effect.jump? = [] := by
    intro columns
    rw [List.filterMap_eq_nil_iff] at hothers ⊢
    exact fun e he => hothers e (List.mem_of_mem_filter (List.mem_of_mem_take he))
  -- What is carried to a row is not urgent, so the jump is still the first urgent effect.
  rw [Row.jumps_eq, h.urgent, heffects]
  cases order? with
  | none => exact hnone columns
  | some order =>
    obtain ⟨columns, rfl⟩ := Nat.exists_eq_add_of_le' hcolumns
    have hurgent : (Effect.jump order).isUrgent = true := rfl
    change (((Effect.jump order :: others).filter _).take (columns + 1)).filterMap _ = [order]
    rw [List.filter_cons_of_pos hurgent, List.take_succ_cons,
      List.filterMap_cons_some (Effect.jump?_jump (horder order rfl)), hnone]

namespace Arrangement

variable {o : Options} {timelines : List Timeline}

theorem ticksPerRow_planGrid (o : Options) (parts : List Timeline) :
    (planGrid o parts).1.ticksPerRow = o.ticksPerRow := by
  unfold planGrid
  dsimp only
  split <;> rfl

theorem orderAt?_lt (ho : o.Valid) (parts : List Timeline) (channel row : Nat) :
    ∀ order ∈ orderAt? (planGrid o parts).1 o.patternLength parts channel row, order < 256 := by
  intro order horder
  unfold orderAt? at horder
  split_ifs at horder
  · obtain ⟨target, htarget, rfl⟩ := Option.map_eq_some_iff.mp horder
    have hin := of_decide_eq_true (Option.mem_filter_iff.mp htarget).2
    have hrows := (rowCount_planGrid ho parts).2
    rw [maxOrders, Nat.mul_comm] at hrows
    exact Nat.div_lt_of_lt_mul (Nat.lt_of_lt_of_le hin hrows)
  · cases horder

theorem jumps_fittedRows (ho : o.Valid) {channel : Nat} (hchannel : channel < channelCount)
    (row : Nat) : ((fittedRows o timelines channel).getD row .empty).jumps =
      (orderAt? (planGrid o (audible timelines)).1 o.patternLength (audible timelines)
        channel row).toList := by
  rcases Nat.lt_or_ge row (planGrid o (audible timelines)).1.rowCount with hrow | hrow
  · obtain ⟨looped, hlooped, hfirst⟩ :=
      jumpsFirst_looped o.patternLength (audible timelines) hchannel hrow
    obtain ⟨fitted, hfitted, hkeeps⟩ := Columns.keeps_fit o.effectColumns _ hlooped
    have hjumps := hkeeps.jumps ho.effectColumns_pos hfirst (orderAt?_lt ho _ channel row)
    rw [List.getD_eq_getElem?_getD]
    exact (congrArg (fun r? => (r?.getD Row.empty).jumps) hfitted).trans hjumps
  · have hpos := (rowCount_planGrid ho (audible timelines)).1
    rw [orderAt?, if_neg fun h => by omega, List.getD_eq_default]
    · rfl
    · rwa [length_fittedRows hchannel]

end Arrangement

/-! ## The jump is read back -/

theorem PlaysFitted.jumps {o : Options} {conv : Conversion} {loaded : LoadedSong} {channel : Nat}
    (h : PlaysFitted o conv loaded channel) (row : Nat) :
    ((loaded.channelRows channel).getD row .empty).jumps =
      ((Arrangement.fittedRows o conv.timelines channel).getD row .empty).jumps := by
  rw [h.rows]
  rcases Nat.lt_or_ge row conv.arrangement.grid.rowCount with hrow | hrow
  · rw [List.getD_append _ _ _ _ (by rwa [List.length_map, h.length_fitted])]
    exact congrArg Row.jumps (List.getD_map _ Row.empty _)
  · rw [← h.length_fitted] at hrow
    rw [List.getD_append_right _ _ _ _ (by rwa [List.length_map]), List.getD_eq_default _ _ hrow,
      List.getD_eq_getElem?_getD, List.getElem?_getD_replicate_default_eq]
    rfl

theorem Tracker.LoadedSong.jumps_eq {s : LoadedSong} {last : Nat} (order? : Option Nat)
    (hlast : last < (s.channelRows 0).length)
    (h : ∀ channel < channelCount, ∀ row, ((s.channelRows channel).getD row .empty).jumps =
      if channel = 0 ∧ row = last then order?.toList else []) :
    s.jumps = order?.toList.map fun order => ⟨0, last, order⟩ := by
  unfold jumps
  rw [flatMap_of_unique List.nodup_range (List.mem_range.mpr (show 0 < channelCount by decide)),
    flatMap_of_unique List.nodup_range (List.mem_range.mpr hlast),
    h 0 (by decide) last, if_pos ⟨rfl, rfl⟩]
  · intro row _ hne
    rw [h 0 (by decide) row, if_neg fun h => hne h.2]
    rfl
  · intro channel hchannel hne
    rw [List.flatMap_eq_nil_iff]
    intro row _
    rw [h channel (List.mem_range.mp hchannel) row, if_neg fun h => hne h.1]
    rfl

theorem jumps_of_plays {o : Options} (ho : o.Valid) {conv : Conversion} {loaded : LoadedSong}
    (hgrid : conv.arrangement.grid =
      (Arrangement.planGrid o (Arrangement.audible conv.timelines)).1)
    (hplays : ∀ channel < channelCount, PlaysFitted o conv loaded channel) :
    loaded.jumps = (loopRow? o.ticksPerRow conv.arrangement.grid.rowCount
      (Arrangement.audible conv.timelines)).toList.map fun row =>
        ⟨0, conv.arrangement.grid.rowCount - 1, row / o.patternLength⟩ := by
  have hpos := (Arrangement.rowCount_planGrid ho (Arrangement.audible conv.timelines)).1
  have hlast : conv.arrangement.grid.rowCount - 1 < (loaded.channelRows 0).length := by
    rw [(hplays 0 (by decide)).rows, List.length_append, List.length_map,
      (hplays 0 (by decide)).length_fitted, hgrid]
    omega
  rw [LoadedSong.jumps_eq ((loopRow? o.ticksPerRow conv.arrangement.grid.rowCount
    (Arrangement.audible conv.timelines)).map (· / o.patternLength)) hlast]
  · rw [Option.toList_map, List.map_map]
    rfl
  · intro channel hchannel row
    rw [(hplays channel hchannel).jumps, Arrangement.jumps_fittedRows ho hchannel, ← hgrid]
    unfold Arrangement.orderAt?
    rw [hgrid, Arrangement.ticksPerRow_planGrid]
    split_ifs <;> rfl

/-! ## Whole songs -/

theorem Arrangement.overflow_song_mem_arrange {o : Options} (voices : List VoiceRecord)
    {timelines : List Timeline} {row : Nat}
    (hloop : loopRow? (planGrid o (audible timelines)).1.ticksPerRow
      (planGrid o (audible timelines)).1.rowCount (audible timelines) = some row)
    (hrow : row % o.patternLength ≠ 0) :
    .overflow .song (.loopRowMoved row (row / o.patternLength)) ∈
      (arrange o voices timelines).2 := by
  have hloss : .loopRowMoved row (row / o.patternLength) ∈
      (placeLoop? (planGrid o (audible timelines)).1 o.patternLength
        (layOut (planGrid o (audible timelines)).1 (audible timelines)).1
        (audible timelines)).2 := by
    rw [placeLoop?_eq hloop]
    dsimp only
    rw [if_neg hrow]
    exact List.mem_singleton_self _
  exact List.mem_append_left _ (List.mem_append_left _ (List.mem_append_right _
    (List.mem_map_of_mem hloss)))

/-- A song that goes back to a row has one jump: in the last row of its first channel, to the order
that the row is in. A warning says so if that order starts before the row. Any other song has no
jump. -/
theorem jumps_convert {o : Options} {data : List UInt8} {codec : Codec} {conv : Conversion}
    (h : convert o data codec = .ok conv) :
    ∃ loaded, load conv.bytes codec = .ok loaded ∧
      loaded.jumps = (loopRow? o.ticksPerRow conv.arrangement.grid.rowCount
        (Arrangement.audible conv.timelines)).toList.map (fun row =>
          ⟨0, conv.arrangement.grid.rowCount - 1, row / o.patternLength⟩) ∧
      ∀ row ∈ loopRow? o.ticksPerRow conv.arrangement.grid.rowCount
          (Arrangement.audible conv.timelines),
        row / o.patternLength < loaded.orderCount ∧
        (row % o.patternLength ≠ 0 →
          .overflow .song (.loopRowMoved row (row / o.patternLength)) ∈ conv.warnings.items) := by
  obtain ⟨hload, horders, hplays⟩ := load_of_convert h
  obtain ⟨p, ho, hp, htimelines, harrangement, -, -⟩ := of_convert h
  have hgrid : conv.arrangement.grid =
      (Arrangement.planGrid o (Arrangement.audible conv.timelines)).1 := by
    rw [harrangement, htimelines]
    rfl
  obtain ⟨hwf, hlength⟩ := wellFormed_of_convert h
  refine ⟨_, hload, jumps_of_plays ho hgrid hplays, ?_⟩
  intro row hloop
  have hin := of_decide_eq_true (Option.mem_filter_iff.mp hloop).2
  have hcover := hwf.orderCount_bounds.1
  rw [hlength, Nat.mul_comm] at hcover
  refine ⟨?_, ?_⟩
  · rw [horders]
    exact Nat.div_lt_of_lt_mul (Nat.lt_of_lt_of_le hin hcover)
  · intro hrow
    rw [← Arrangement.ticksPerRow_planGrid o (Arrangement.audible conv.timelines), hgrid,
      htimelines] at hloop
    rw [warnings_of_convert h hp, Warnings.mem_append]
    exact .inr (Arrangement.overflow_song_mem_arrange _ hloop hrow)

/-- A part that changes its detune and its pan at the loop mark, and its detune and the tempo in the
last row. -/
def busyEnding : List UInt8 :=
  [0, 26, 0] ++ List.replicate 24 0 ++ [0x30, 9, 0xF6, 0xFA, 8, 0, 0xEC, 1, 0x30, 3] ++
    [0xFA, 16, 0, 0xFC, 0xFF, 90, 0x30, 3, 0x80]

theorem jumps_convert_busyEnding :
    let o : Options := { patternLength := 2, effectColumns := 1 }
    ∃ conv loaded, convert o busyEnding = .ok conv ∧ load conv.bytes = .ok loaded ∧
      loaded.jumps = [⟨0, 4, 1⟩] ∧ 1 < loaded.orderCount ∧
      .overflow .song (.loopRowMoved 3 1) ∈ conv.warnings.items ∧
      ∀ e ∈ [Effect.pan .right, .detune 0x84, .tempo ⟨90⟩],
        .overflow (.part ⟨0⟩) (.effectDropped e.code e.value 4) ∈ conv.warnings.items := by
  intro o
  have hconverts : ∃ conv ∈ (convert o busyEnding).toOption,
      conv.arrangement.grid.rowCount = 5 ∧
      loopRow? o.ticksPerRow 5 (Arrangement.audible conv.timelines) = some 3 ∧
      ∀ e ∈ [Effect.pan .right, .detune 0x84, .tempo ⟨90⟩],
        .overflow (.part ⟨0⟩) (.effectDropped e.code e.value 4) ∈ conv.warnings.items := by
    decide +kernel
  obtain ⟨conv, hmem, hrows, hloop, hdropped⟩ := hconverts
  have hconv := eq_ok_of_mem_toOption hmem
  obtain ⟨loaded, hload, hjumps, hrow⟩ := jumps_convert hconv
  rw [hrows, hloop] at hjumps hrow
  have htarget : 3 / o.patternLength = 1 := by decide
  obtain ⟨horder, hmoved⟩ := hrow 3 rfl
  rw [htarget] at horder hmoved
  rw [Option.toList_some, List.map_singleton, htarget] at hjumps
  exact ⟨conv, loaded, hconv, hload, hjumps, horder, hmoved (by decide), hdropped⟩

end ChipScore
