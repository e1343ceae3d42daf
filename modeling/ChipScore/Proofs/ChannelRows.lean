import ChipScore.Arrangement.Song
import ChipScore.Proofs.LoadedSong

/-!
# What the channels of a song play

Cut into patterns, with empty patterns left out, the rows of a channel come back in one piece when
its orders are played.
-/

namespace ChipScore

open Tracker RowCode

/-! ## Cutting rows -/

namespace Tracker.RowCode

theorem length_resize (length : Nat) (rows : List PatternRow) :
    (resize length rows).length = length := by
  simp [resize]
  omega

theorem mem_of_mem_resize {length : Nat} {rows : List PatternRow} {row : PatternRow}
    (h : row ∈ resize length rows) : row ∈ rows ∨ row = .empty := by
  unfold resize at h
  rw [List.mem_append] at h
  rcases h with h | h
  · exact .inl (List.mem_of_mem_take h)
  · exact .inr (List.eq_of_mem_replicate h)

theorem resize_add (first second : Nat) (rows : List PatternRow) :
    resize (first + second) rows = resize first rows ++ resize second (rows.drop first) := by
  induction first generalizing rows with
  | zero => simp
  | succ first ih =>
    rw [Nat.succ_add]
    cases rows with
    | nil => simp [List.replicate_succ]
    | cons row rows => simp [ih]

theorem flatMap_resize (count length : Nat) (rows : List PatternRow) :
    ((List.range count).flatMap fun order => resize length (rows.drop (order * length))) =
      resize (count * length) rows := by
  induction count with
  | zero => simp
  | succ count ih =>
    rw [List.range_succ, List.flatMap_append, ih, List.flatMap_singleton, Nat.succ_mul, resize_add]

end Tracker.RowCode

theorem find?_eq_some_of_unique {α : Type} {p : α → Bool} {xs : List α} {x : α} (hx : x ∈ xs)
    (hp : p x) (hunique : ∀ y ∈ xs, p y → y = x) : xs.find? p = some x := by
  cases h : xs.find? p with
  | none =>
    rw [List.find?_eq_none] at h
    exact absurd hp (h x hx)
  | some y => rw [hunique y (List.mem_of_find?_eq_some h) (List.find?_some h)]

/-! ## Patterns -/

theorem Tracker.Pattern.rows_of_isEmpty {p : Pattern} (h : p.isEmpty) :
    p.rows = List.replicate p.rows.length .empty := by
  unfold Pattern.isEmpty at h
  rw [List.all_eq_true] at h
  exact List.eq_replicate_of_mem fun row hrow => eq_empty_of_isEmpty (h row hrow)

namespace Arrangement

variable (a : Arrangement)

theorem rows_pattern (channel : Nat) (rows : List ScoreRow) (order : Nat) :
    (a.pattern channel rows order).rows = resize a.patternLength
      ((rows.map (patternRow a.instruments)).drop (order * a.patternLength)) := by
  unfold pattern resize
  simp [List.map_take, List.map_drop]
  omega

theorem stored_pattern (channel : Nat) (rows : List ScoreRow) (order : Nat) :
    (a.pattern channel rows order).stored a.patternLength = a.pattern channel rows order := by
  unfold Pattern.stored
  rw [rows_pattern, resize_of_length (length_resize _ _), ← rows_pattern a channel]

variable {a}

theorem channel_lt (hchannels : a.channels.length = channelCount) {channel : Nat}
    {rows : List ScoreRow} (hrows : a.channels[channel]? = some rows) : channel < channelCount := by
  rw [← hchannels]
  exact (List.getElem?_eq_some_iff.mp hrows).1

theorem toNat_channel_pattern {channel : Nat} (h : channel < channelCount) (rows : List ScoreRow)
    (order : Nat) : (a.pattern channel rows order).channel.toNat = channel :=
  UInt8.toNat_ofNat_of_lt' (Nat.lt_trans h (by decide))

theorem mem_patterns {p : Pattern} : p ∈ a.patterns ↔
    ∃ channel rows order, a.channels[channel]? = some rows ∧ order < a.orderCount ∧
      p = a.pattern channel rows order := by
  unfold patterns
  simp only [List.mem_flatMap, Prod.exists, List.mk_mem_zipIdx_iff_getElem?, List.mem_map,
    List.mem_range]
  constructor
  · rintro ⟨rows, channel, hrows, order, horder, rfl⟩
    exact ⟨channel, rows, order, hrows, horder, rfl⟩
  · rintro ⟨channel, rows, order, hrows, horder, rfl⟩
    exact ⟨rows, channel, hrows, order, horder, rfl⟩

theorem eq_pattern_of_mem (hchannels : a.channels.length = channelCount) {channel order : Nat}
    {rows : List ScoreRow} (hrows : a.channels[channel]? = some rows) {p : Pattern}
    (hp : p ∈ a.patterns) (hchannel : p.channel.toNat = channel) (hindex : p.index = order) :
    p = a.pattern channel rows order := by
  obtain ⟨channel', rows', order', hrows', -, rfl⟩ := mem_patterns.mp hp
  rw [toNat_channel_pattern (channel_lt hchannels hrows')] at hchannel
  subst hchannel
  rw [hrows] at hrows'
  cases hrows'
  rw [← hindex]
  rfl

variable (c : Credits) (tempoBase : Nat)

theorem pattern?_song (hchannels : a.channels.length = channelCount) {channel order : Nat}
    {rows : List ScoreRow} (hrows : a.channels[channel]? = some rows) (horder : order < a.orderCount)
    (horders : a.orderCount ≤ maxOrders) :
    (a.song c tempoBase).stored.pattern? channel (UInt8.ofNat order) =
      if (a.pattern channel rows order).isEmpty then none
      else some (a.pattern channel rows order) := by
  have hindex : (UInt8.ofNat order).toNat = order :=
    UInt8.toNat_ofNat_of_lt' (Nat.lt_of_lt_of_le horder horders)
  have hmem : a.pattern channel rows order ∈ a.patterns :=
    mem_patterns.mpr ⟨channel, rows, order, hrows, horder, rfl⟩
  have hindexed : (a.pattern channel rows order).channel.toNat = channel ∧
      (a.pattern channel rows order).index = order :=
    ⟨toNat_channel_pattern (channel_lt hchannels hrows) rows order, rfl⟩
  unfold LoadedSong.pattern?
  rw [hindex]
  change ((a.patterns.filter (!·.isEmpty)).map (Pattern.stored a.patternLength)).find? _ = _
  rw [List.find?_map, List.find?_filter]
  split
  · rename_i hempty
    rw [Option.map_eq_none_iff, List.find?_eq_none]
    intro p hp hfound
    simp [Pattern.stored] at hfound
    rw [eq_pattern_of_mem hchannels hrows hp (of_decide_eq_true hfound.2.1)
      (of_decide_eq_true hfound.2.2), hempty] at hfound
    exact Bool.noConfusion hfound.1
  · rename_i hempty
    rw [find?_eq_some_of_unique hmem, Option.map_some, stored_pattern]
    · simp [Pattern.stored, hempty, hindexed]
    · intro p hp hfound
      simp [Pattern.stored] at hfound
      exact eq_pattern_of_mem hchannels hrows hp (of_decide_eq_true hfound.2.1)
        (of_decide_eq_true hfound.2.2)

theorem orderRows_song (hchannels : a.channels.length = channelCount) {channel order : Nat}
    {rows : List ScoreRow} (hrows : a.channels[channel]? = some rows) (horder : order < a.orderCount)
    (horders : a.orderCount ≤ maxOrders) :
    (a.song c tempoBase).stored.orderRows channel (UInt8.ofNat order) =
      resize a.patternLength
        ((rows.map (patternRow a.instruments)).drop (order * a.patternLength)) := by
  unfold LoadedSong.orderRows
  rw [pattern?_song c tempoBase hchannels hrows horder horders, ← rows_pattern a channel]
  split
  · rename_i p hp
    split at hp
    · cases hp
    · cases hp
      rfl
  · rename_i hp
    split at hp
    · rename_i hempty
      rw [Pattern.rows_of_isEmpty hempty, rows_pattern, length_resize]
      rfl
    · cases hp

/-- What a channel plays: its rows, and empty rows up to the end of the last order. -/
theorem channelRows_song (hchannels : a.channels.length = channelCount) {channel : Nat}
    {rows : List ScoreRow} (hrows : a.channels[channel]? = some rows) (hpos : 1 ≤ a.orderCount)
    (horders : a.orderCount ≤ maxOrders) :
    (a.song c tempoBase).stored.channelRows channel =
      resize (a.orderCount * a.patternLength) (rows.map (patternRow a.instruments)) := by
  have hcount : max a.orderCount 1 = a.orderCount := Nat.max_eq_left hpos
  have hlt := channel_lt hchannels hrows
  have horder : (a.song c tempoBase).stored.orders.getD channel [] =
      (List.range a.orderCount).map UInt8.ofNat := by
    change (List.replicate channelCount ((List.range (max a.orderCount 1)).map UInt8.ofNat)).getD
      channel [] = _
    rw [hcount, List.getD_eq_getElem?_getD, List.getElem?_replicate_of_lt hlt, Option.getD_some]
  unfold LoadedSong.channelRows
  rw [horder, List.flatMap_map, ← flatMap_resize]
  apply List.flatMap_congr
  intro order hmem
  exact orderRows_song c tempoBase hchannels hrows (List.mem_range.mp hmem) horders

end Arrangement

end ChipScore
