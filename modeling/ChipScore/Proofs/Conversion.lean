import ChipScore.Conversion
import ChipScore.Proofs.Arrangement
import ChipScore.Proofs.Bank
import ChipScore.Proofs.ChannelRows
import ChipScore.Proofs.ModuleSize
import ChipScore.Proofs.Timelines

/-!
# Modules say what was arranged

Whenever a score is converted, its module can be read, and what its channels play is what was arranged
for them.
-/

namespace ChipScore

open Tracker

namespace Arrangement

/-! ## What is arranged fits into a module -/

/-- What every arrangement is like. -/
structure WellFormed (a : Arrangement) : Prop where
  length_channels : a.channels.length = channelCount
  rowCount_pos : 1 ≤ a.grid.rowCount
  patternLength_pos : 1 ≤ a.patternLength
  patternLength_le : a.patternLength ≤ Options.maxPatternLength
  orderCount_le : a.orderCount ≤ maxOrders
  effects_le : ∀ rows ∈ a.channels, ∀ r ∈ rows, r.effects.length ≤ RowCode.maxEffects
  length_effectColumns : a.effectColumns.length = channelCount
  instruments : a.instruments.Sound

theorem wellFormed_arrange {o : Options} (ho : o.Valid) (voices : List VoiceRecord)
    (timelines : List Timeline) : (arrange o voices timelines).1.WellFormed := by
  obtain ⟨hpos, hle⟩ := rowCount_planGrid ho (audible timelines)
  constructor
  · rw [arrange_channels, List.length_map, List.length_range]
  · exact hpos
  · exact ho.patternLength_pos
  · exact ho.patternLength_le
  · exact cover_le ho.patternLength_pos hle
  · intro rows hrows r hr
    rw [arrange_channels, List.mem_map] at hrows
    obtain ⟨channel, -, rfl⟩ := hrows
    exact Nat.le_trans (length_effects_of_mem_fittedRows hr) ho.effectColumns_le
  · rw [arrange_effectColumns, List.length_map, List.length_range]
  · exact Bank.sound_build voices _

variable {a : Arrangement}

theorem WellFormed.orderCount_pos (ha : a.WellFormed) : 1 ≤ a.orderCount :=
  cover_pos ha.patternLength_pos ha.rowCount_pos

theorem WellFormed.orderCount_bounds (ha : a.WellFormed) :
    a.grid.rowCount ≤ a.orderCount * a.patternLength ∧
      (a.orderCount - 1) * a.patternLength < a.grid.rowCount :=
  cover_bounds ha.patternLength_pos ha.rowCount_pos

theorem WellFormed.fits_of_mem (ha : a.WellFormed) {p : Pattern} (hp : p ∈ a.patterns) :
    p.Fits := by
  obtain ⟨channel, rows, order, hrows, horder, rfl⟩ := mem_patterns.mp hp
  have hmem := List.mem_of_getElem? hrows
  constructor
  · have := ha.orderCount_le
    rw [maxOrders] at this
    change order < 2 ^ 16
    omega
  · intro row hrow
    rw [rows_pattern] at hrow
    rcases RowCode.mem_of_mem_resize hrow with hrow | rfl
    · obtain ⟨r, hr, rfl⟩ := List.mem_map.mp (List.mem_of_mem_drop hrow)
      exact ha.effects_le rows hmem r hr
    · exact Nat.zero_le _

theorem WellFormed.length_encode_le (ha : a.WellFormed) {p : Pattern} (hp : p ∈ a.patterns) :
    p.encode.length ≤ 5646 := by
  obtain ⟨channel, rows, order, -, -, rfl⟩ := mem_patterns.mp hp
  have hencode := (a.pattern channel rows order).length_encode_le
  have hlength := ha.patternLength_le
  rw [rows_pattern, RowCode.length_resize] at hencode
  unfold Options.maxPatternLength at hlength
  omega

theorem WellFormed.length_patterns_le (ha : a.WellFormed) : a.patterns.length ≤ 4096 := by
  have hcount := ha.orderCount_le
  have hlength : a.patterns.length = a.channels.length * a.orderCount := by
    simp [patterns, List.length_flatMap]
  rw [hlength, ha.length_channels]
  unfold channelCount maxOrders at *
  omega

theorem WellFormed.length_encode_song_lt (ha : a.WellFormed) {c : Credits}
    (hc : c.AllBrief Credits.window) (tempoBase : Nat) :
    (a.song c tempoBase).encode.length < 2 ^ 32 := by
  have hinstrument : ∀ i ∈ (a.song c tempoBase).instruments, i.encode.length ≤ 373 := by
    intro i hi
    have hname := (ha.instruments.brief_name i (Array.mem_toList_iff.mp hi)).length_encode_le
    have := i.length_encode_le
    rw [Bank.nameLimit] at hname
    omega
  have hpattern : ∀ p ∈ (a.song c tempoBase).patterns, p.encode.length ≤ 5646 :=
    fun p hp => ha.length_encode_le (List.mem_of_mem_filter hp)
  have hencode := Song.length_encode_le hinstrument hpattern
  have htitle : (Utf8.encode (a.song c tempoBase).info.name).length ≤ 4 * 500 :=
    (brief_title hc (by decide)).length_encode_le
  have hcomposer : (Utf8.encode (a.song c tempoBase).info.author).length ≤ 4 * 500 :=
    hc.composer.length_encode_le
  have hcomment : (Utf8.encode (a.song c tempoBase).info.comment).length ≤ 4 * 1533 :=
    (brief_comment hc).length_encode_le
  have horders : (a.song c tempoBase).orderCount ≤ 256 :=
    Nat.max_le.mpr ⟨ha.orderCount_le, by decide⟩
  have hcolumns : (a.song c tempoBase).info.effectColumns.length = 16 := ha.length_effectColumns
  have hinstruments : (a.song c tempoBase).instruments.length ≤ 256 := ha.instruments.size_le
  have hpatterns : (a.song c tempoBase).patterns.length ≤ 4096 :=
    Nat.le_trans (List.length_filter_le _ _) ha.length_patterns_le
  rw [channelCount] at hencode
  omega

theorem song_fits (ha : a.WellFormed) {c : Credits} (hc : c.AllBrief Credits.window)
    (tempoBase : Nat) : (a.song c tempoBase).Fits := by
  have htitle := brief_title hc (by decide)
  have hcomment := brief_comment hc
  have hbank := ha.instruments.size_le
  have hpatterns : ∀ p ∈ a.patterns.filter (!·.isEmpty), p ∈ a.patterns :=
    fun p => List.mem_of_mem_filter
  have hinstruments : ∀ i ∈ a.instruments.entries.toList, Brief Bank.nameLimit i.name :=
    fun i hi => ha.instruments.brief_name i (Array.mem_toList_iff.mp hi)
  constructor
  · exact ⟨htitle.nul_notMem, hc.composer.nul_notMem, hcomment.nul_notMem,
      Nat.lt_of_le_of_lt ha.patternLength_le (by decide), ha.length_effectColumns⟩
  · have := ha.orderCount_le
    change max a.orderCount 1 < 2 ^ 16
    unfold maxOrders at this
    omega
  · change a.instruments.entries.toList.length < 2 ^ 16
    rw [Array.length_toList]
    exact Nat.lt_of_le_of_lt hbank (by decide)
  · intro i hi
    refine ⟨(hinstruments i hi).nul_notMem, ?_⟩
    exact Nat.lt_of_le_of_lt (hinstruments i hi).length_encode_le (by decide)
  · exact fun p hp => ha.fits_of_mem (hpatterns p hp)
  · exact ha.length_encode_song_lt hc tempoBase

/-! ## What the channels of an arrangement play -/

section Channels

variable {o : Options} (voices : List VoiceRecord) (timelines : List Timeline) {channel : Nat}

theorem getElem?_channels_arrange (hchannel : channel < channelCount) :
    (arrange o voices timelines).1.channels[channel]? = some (fittedRows o timelines channel) := by
  rw [arrange_channels, List.getElem?_map, List.getElem?_range hchannel, Option.map_some]

theorem getElem?_effectColumns_arrange (hchannel : channel < channelCount) :
    (arrange o voices timelines).1.effectColumns[channel]? =
      some (neededColumns o.effectColumns (fittedRows o timelines channel)) := by
  rw [arrange_effectColumns, List.getElem?_map, List.getElem?_range hchannel, Option.map_some]

theorem channelRows_arrange (ho : o.Valid) (hchannel : channel < channelCount) (c : Credits) :
    ((arrange o voices timelines).1.song c o.tempoBase).stored.channelRows channel =
      (fittedRows o timelines channel).map
          (patternRow (arrange o voices timelines).1.instruments) ++
        List.replicate ((arrange o voices timelines).1.orderCount * o.patternLength -
          (arrange o voices timelines).1.grid.rowCount) .empty := by
  have hwf := wellFormed_arrange ho voices timelines
  have hlength : (fittedRows o timelines channel).length =
      (arrange o voices timelines).1.grid.rowCount := length_fittedRows hchannel
  rw [channelRows_song c o.tempoBase hwf.length_channels
    (getElem?_channels_arrange voices timelines hchannel) hwf.orderCount_pos hwf.orderCount_le,
    RowCode.resize, List.length_map, hlength, List.take_of_length_le]
  · rfl
  · rw [List.length_map, hlength]
    exact hwf.orderCount_bounds.1

end Channels

end Arrangement

/-! ## Conversions -/

theorem eq_ok_of_mem_toOption {ε α : Type} {x : Except ε α} {a : α} (h : a ∈ x.toOption) :
    x = .ok a := by
  cases x with
  | error e => cases h
  | ok b =>
    cases h
    rfl

theorem credits_of_ofData {data : List UInt8} {p : Performance}
    (h : Performance.ofData data = .ok p) : p.image.credits = Credits.ofData data := by
  obtain ⟨header, -, himage, -⟩ := Performance.of_ofData h
  rw [himage]

theorem of_convert {o : Options} {data : List UInt8} {codec : Codec} {conv : Conversion}
    (h : convert o data codec = .ok conv) : ∃ p : Performance, o.Valid ∧
      Performance.ofData data = .ok p ∧ conv.timelines = p.timelines ∧
      conv.arrangement = (arrange o p.image.voices p.timelines).1 ∧
      conv.song = conv.arrangement.song p.image.credits o.tempoBase ∧
      conv.bytes = conv.song.module o.compress codec := by
  unfold convert at h
  cases hfault : o.fault? with
  | some fault =>
    rw [hfault] at h
    cases h
  | none =>
    rw [hfault] at h
    cases hp : Performance.ofData data with
    | error failure =>
      rw [hp] at h
      cases h
    | ok p =>
      rw [hp] at h
      cases h
      exact ⟨p, Options.valid_of_fault? hfault, rfl, rfl, rfl, rfl, rfl⟩

theorem warnings_of_convert {o : Options} {data : List UInt8} {codec : Codec} {conv : Conversion}
    (h : convert o data codec = .ok conv) {p : Performance} (hp : Performance.ofData data = .ok p) :
    conv.warnings = p.warnings.append (arrange o p.image.voices p.timelines).2 := by
  unfold convert at h
  cases hfault : o.fault? with
  | some fault =>
    rw [hfault] at h
    cases h
  | none =>
    rw [hfault, hp] at h
    cases h
    rfl

theorem unpack_module (s : Song) (compressed : Bool) (codec : Codec) :
    unpack (s.module compressed codec) codec = .ok s.encode := by
  cases compressed with
  | false => exact s.unpack_encode codec
  | true =>
    change unpack (codec.compress s.encode) codec = _
    unfold unpack
    rw [if_pos (codec.head?_compress _), codec.decompress_compress]
    rfl

/-- What stands in a pattern for a row. -/
structure WrittenAs (instruments : Bank) (r : ScoreRow) (row : PatternRow) : Prop where
  note_on : ∀ n, r.note = some (.on n) → row.note = some n
  note_off : r.note = some .off → row.note = some 180
  note_release : r.note = some .release → row.note = some 181
  note_none : r.note = none → row.note = none
  instrument : ∀ timbre, r.instrument = some timbre → row.instrument = instruments.resolve? timbre
  instrument_none : r.instrument = none → row.instrument = none
  volume : row.volume = r.volume
  effects : row.effects = r.effects

theorem Arrangement.writtenAs_patternRow (instruments : Bank) (r : ScoreRow) :
    WrittenAs instruments r (patternRow instruments r) where
  note_on := fun n h => by simp [patternRow, noteNumber, h]
  note_off := fun h => by simp [patternRow, noteNumber, h]
  note_release := fun h => by simp [patternRow, noteNumber, h]
  note_none := fun h => by simp [patternRow, h]
  instrument := fun timbre h => by simp [patternRow, h]
  instrument_none := fun h => by simp [patternRow, h]
  volume := rfl
  effects := rfl

/-- What one channel of a module plays: the rows that were fitted for it, each cell as it is written,
then empty rows up to the end of the last order, and no row with more effects than columns. -/
structure PlaysFitted (o : Options) (conv : Conversion) (loaded : LoadedSong) (channel : Nat) :
    Prop where
  length_fitted :
    (Arrangement.fittedRows o conv.timelines channel).length = conv.arrangement.grid.rowCount
  rows : loaded.channelRows channel =
    (Arrangement.fittedRows o conv.timelines channel).map
        (Arrangement.patternRow conv.arrangement.instruments) ++
      List.replicate (conv.arrangement.orderCount * o.patternLength -
        conv.arrangement.grid.rowCount) .empty
  cells : List.Forall₂ (WrittenAs conv.arrangement.instruments)
    (Arrangement.fittedRows o conv.timelines channel)
    ((loaded.channelRows channel).take conv.arrangement.grid.rowCount)
  columns : ∃ columns, loaded.effectColumns[channel]? = some columns ∧
    1 ≤ columns.toNat ∧ columns.toNat ≤ o.effectColumns ∧
    ∀ row ∈ loaded.channelRows channel, row.effects.length ≤ columns.toNat

theorem playsFitted_song {o : Options} (ho : o.Valid) {conv : Conversion} {voices : List VoiceRecord}
    (harrangement : conv.arrangement = (arrange o voices conv.timelines).1) (c : Credits)
    {channel : Nat} (hchannel : channel < channelCount) :
    PlaysFitted o conv (conv.arrangement.song c o.tempoBase).stored channel := by
  obtain ⟨bytes, warnings, timelines, arrangement, song⟩ := conv
  dsimp only at harrangement
  subst harrangement
  have hrows := Arrangement.channelRows_arrange voices timelines ho hchannel c
  have hlimit : ∀ r ∈ Arrangement.fittedRows o timelines channel,
      r.effects.length ≤ o.effectColumns := fun r => Arrangement.length_effects_of_mem_fittedRows
  obtain ⟨hpos, hle, heffects⟩ := Arrangement.neededColumns_shape ho.effectColumns_pos
    (Nat.lt_of_le_of_lt ho.effectColumns_le (by decide)) hlimit
  have hlength : (Arrangement.fittedRows o timelines channel).length =
      (arrange o voices timelines).1.grid.rowCount := Arrangement.length_fittedRows hchannel
  refine ⟨hlength, hrows, ?_, _,
    Arrangement.getElem?_effectColumns_arrange voices timelines hchannel, hpos, hle, ?_⟩
  · rw [hrows, List.take_left' (by rw [List.length_map]; exact hlength),
      List.forall₂_map_right_iff, List.forall₂_same]
    exact fun r _ => Arrangement.writtenAs_patternRow _ r
  intro row hrow
  rw [hrows, List.mem_append] at hrow
  rcases hrow with hrow | hrow
  · obtain ⟨r, hr, rfl⟩ := List.mem_map.mp hrow
    exact heffects r hr
  · rw [List.eq_of_mem_replicate hrow]
    exact Nat.zero_le _

section Converted

variable {o : Options} {data : List UInt8} {codec : Codec} {conv : Conversion}

theorem wellFormed_of_convert (h : convert o data codec = .ok conv) :
    conv.arrangement.WellFormed ∧ conv.arrangement.patternLength = o.patternLength := by
  obtain ⟨p, ho, -, -, harrangement, -, -⟩ := of_convert h
  rw [harrangement]
  exact ⟨Arrangement.wellFormed_arrange ho _ _, rfl⟩

theorem fits_of_convert (h : convert o data codec = .ok conv) : conv.song.Fits := by
  obtain ⟨p, -, hp, -, -, hsong, -⟩ := of_convert h
  have hcredits : p.image.credits.AllBrief Credits.window := by
    rw [credits_of_ofData hp]
    exact Credits.allBrief_ofData data
  rw [hsong]
  exact Arrangement.song_fits (wellFormed_of_convert h).1 hcredits o.tempoBase

theorem load_of_convert (h : convert o data codec = .ok conv) :
    load conv.bytes codec = .ok conv.song.stored ∧
      conv.song.stored.orderCount = conv.arrangement.orderCount ∧
      ∀ channel < channelCount, PlaysFitted o conv conv.song.stored channel := by
  obtain ⟨p, ho, -, htimelines, harrangement, hsong, hbytes⟩ := of_convert h
  refine ⟨?_, ?_, ?_⟩
  · rw [hbytes]
    exact Song.load_of_unpack (fits_of_convert h) (unpack_module _ _ codec)
  · rw [hsong]
    change ((List.range (max conv.arrangement.orderCount 1)).map UInt8.ofNat).length = _
    rw [List.length_map, List.length_range,
      Nat.max_eq_left (wellFormed_of_convert h).1.orderCount_pos]
  · intro channel hchannel
    rw [← htimelines] at harrangement
    rw [hsong]
    exact playsFitted_song ho harrangement _ hchannel

/-- The module of a conversion can be read, however it is packed, and says what was arranged. -/
theorem load_convert (h : convert o data codec = .ok conv) :
    ∃ loaded, load conv.bytes codec = .ok loaded ∧
      (∀ packed, packed.head? = some Codec.firstByte →
        codec.decompress packed = .ok conv.song.encode → load packed codec = .ok loaded) ∧
      1 ≤ conv.arrangement.orderCount ∧ conv.arrangement.orderCount ≤ 256 ∧
      conv.arrangement.grid.rowCount ≤ conv.arrangement.orderCount * o.patternLength ∧
      (conv.arrangement.orderCount - 1) * o.patternLength < conv.arrangement.grid.rowCount ∧
      loaded.orderCount = conv.arrangement.orderCount ∧
      loaded.instruments.length = conv.arrangement.instruments.size ∧
      loaded.patterns.length = conv.song.patterns.length ∧
      ∀ channel < channelCount, PlaysFitted o conv loaded channel := by
  obtain ⟨hwf, hpatternLength⟩ := wellFormed_of_convert h
  obtain ⟨hload, horders, hplays⟩ := load_of_convert h
  obtain ⟨hcover, hlast⟩ := hwf.orderCount_bounds
  rw [hpatternLength] at hcover hlast
  refine ⟨conv.song.stored, hload, ?_, hwf.orderCount_pos, hwf.orderCount_le, hcover, hlast,
    horders, ?_, List.length_map _, hplays⟩
  · intro packed hhead hpacked
    apply Song.load_of_unpack (fits_of_convert h)
    unfold unpack
    rw [if_pos hhead, hpacked]
    rfl
  · obtain ⟨p, -, -, -, -, hsong, -⟩ := of_convert h
    rw [hsong]
    exact List.length_map _

end Converted

/-- A score in which an FM part and an SSG part strike one note twice, with a rest in between. -/
def twoStrikes : List UInt8 :=
  [0, 26, 0] ++ List.replicate 10 0 ++ [33, 0] ++ List.replicate 12 0 ++
    [0x30, 3, 0x0F, 3, 0x30, 3, 0x80] ++ [0x40, 3, 0x0F, 3, 0x40, 3, 0x80]

theorem load_convert_twoStrikes :
    ∃ conv loaded, convert { compress := true } twoStrikes = .ok conv ∧
      load conv.bytes = .ok loaded ∧ loaded.orderCount = 1 ∧
      (Arrangement.fittedRows { compress := true } conv.timelines 0).map Row.note =
        [some (.on 96), some .off, some (.on 96)] ∧
      (Arrangement.fittedRows { compress := true } conv.timelines 6).map Row.note =
        [some (.on 120), some .release, some (.on 120)] ∧
      (loaded.channelRows 0).take 3 = [⟨some 96, some 0, some 108, []⟩,
        ⟨some 180, none, none, []⟩, ⟨some 96, none, none, []⟩] ∧
      (loaded.channelRows 6).take 3 = [⟨some 120, some 1, some 8, []⟩,
        ⟨some 181, none, none, []⟩, ⟨some 120, none, none, []⟩] ∧
      ∀ channel < channelCount, PlaysFitted { compress := true } conv loaded channel := by
  have hconverts : ∃ conv ∈ (convert { compress := true } twoStrikes).toOption,
      conv.arrangement.orderCount = 1 ∧
      (Arrangement.fittedRows { compress := true } conv.timelines 0).map Row.note =
        [some (.on 96), some .off, some (.on 96)] ∧
      (Arrangement.fittedRows { compress := true } conv.timelines 6).map Row.note =
        [some (.on 120), some .release, some (.on 120)] ∧
      (Arrangement.fittedRows { compress := true } conv.timelines 0).map
          (Arrangement.patternRow conv.arrangement.instruments) =
        [⟨some 96, some 0, some 108, []⟩, ⟨some 180, none, none, []⟩,
          ⟨some 96, none, none, []⟩] ∧
      (Arrangement.fittedRows { compress := true } conv.timelines 6).map
          (Arrangement.patternRow conv.arrangement.instruments) =
        [⟨some 120, some 1, some 8, []⟩, ⟨some 181, none, none, []⟩,
          ⟨some 120, none, none, []⟩] := by
    decide +kernel
  obtain ⟨conv, hmem, horders, hfm, hssg, hfmRows, hssgRows⟩ := hconverts
  have hconv := eq_ok_of_mem_toOption hmem
  obtain ⟨loaded, hload, -, -, -, -, -, hcount, -, -, hplays⟩ := load_convert hconv
  refine ⟨conv, loaded, hconv, hload, hcount.trans horders, hfm, hssg, ?_, ?_, hplays⟩
  · rw [(hplays 0 (by decide)).rows, hfmRows]
    rfl
  · rw [(hplays 6 (by decide)).rows, hssgRows]
    rfl

end ChipScore
