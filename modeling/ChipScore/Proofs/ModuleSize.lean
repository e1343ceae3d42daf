import ChipScore.Proofs.LoadedSong

/-!
# How large a module is

Every part of a module has a largest size, so offsets in the module of a song with bounded parts fit
into four bytes.
-/

namespace ChipScore.Tracker

/-! ## Rows -/

namespace RowCode

theorem length_encodeRun_le (count : Nat) : (encodeRun count).length ≤ count := by
  unfold encodeRun longestRun
  rw [List.length_append, List.length_replicate]
  split <;> simp <;> omega

theorem length_encodeMask_le (cells effects : Nat) : (encodeMask cells effects).length ≤ 3 := by
  unfold encodeMask
  dsimp only
  split
  · simp
  · split
    · simp
    · split <;> simp

theorem length_encodeRow_le (row : PatternRow) : (encodeRow row).length ≤ 22 := by
  have hcell (cell : Option UInt8) : cell.toList.length ≤ 1 := by cases cell <;> simp
  have hmask := length_encodeMask_le ((if row.note.isSome then 1 else 0) +
    (if row.instrument.isSome then 2 else 0) + (if row.volume.isSome then 4 else 0))
    (row.effects.take maxEffects).length
  have hnote := hcell row.note
  have hinstrument := hcell row.instrument
  have hvolume := hcell row.volume
  have heffects : ((row.effects.take maxEffects).flatMap fun e => [e.code, e.value]).length ≤ 16 := by
    have := List.length_take_le maxEffects row.effects
    rw [maxEffects] at this
    simp [List.length_flatMap, maxEffects]
    omega
  unfold encodeRow
  dsimp only
  simp only [List.length_append]
  omega

theorem length_encodeFrom_le (run : Nat) (rows : List PatternRow) :
    (encodeFrom run rows).length ≤ run + 22 * rows.length + 1 := by
  induction rows generalizing run with
  | nil => simp [encodeFrom]
  | cons row rows ih =>
    unfold encodeFrom
    split
    · have := ih (run + 1)
      rw [List.length_cons]
      omega
    · have hrest := ih 0
      have hrun := length_encodeRun_le run
      have hrow := length_encodeRow_le row
      simp only [List.length_append, List.length_cons]
      omega

end RowCode

theorem Pattern.length_encode_le (p : Pattern) : p.encode.length ≤ 14 + 22 * p.rows.length := by
  have hrows : (RowCode.encode p.rows).length ≤ 22 * p.rows.length + 1 := by
    have := RowCode.length_encodeFrom_le 0 p.rows
    rwa [Nat.zero_add] at this
  unfold Pattern.encode
  rw [length_encodeBlock rfl]
  simp [encodeFields, Field.encode, Utf8.encode]
  omega

/-! ## Instruments -/

namespace Instrument

theorem length_encodeSound_le (i : Instrument) : i.encodeSound.length ≤ 270 := by
  have hfm : (Utf8.encode "FM").length = 2 := rfl
  have hma : (Utf8.encode "MA").length = 2 := rfl
  cases i with
  | fm name voice =>
    have := LoadedInstrument.length_encodeVoice voice
    simp only [encodeSound, encodeFeature, List.length_append, LittleEndian.length_encode]
    omega
  | ssg name envelope =>
    have := (LoadedInstrument.storable_volumeMacro envelope).length_steps
    simp only [encodeSound, encodeFeature, List.length_append, LittleEndian.length_encode,
      LoadedInstrument.length_encodeMacro]
    omega

theorem length_encode_le (i : Instrument) :
    i.encode.length ≤ 289 + (Utf8.encode i.name).length := by
  have hsound := i.length_encodeSound_le
  have hna : (Utf8.encode "NA").length = 2 := rfl
  have hen : (Utf8.encode "EN").length = 2 := rfl
  unfold encode
  rw [length_encodeBlock rfl]
  simp [encodeFields, Field.encode, encodeFeature]
  omega

end Instrument

/-! ## The whole module -/

theorem length_flatten_le {limit : Nat} {blocks : List (List UInt8)}
    (h : ∀ block ∈ blocks, block.length ≤ limit) :
    blocks.flatten.length ≤ blocks.length * limit := by
  induction blocks with
  | nil => simp
  | cons block blocks ih =>
    rw [List.forall_mem_cons] at h
    have := ih h.2
    rw [List.flatten_cons, List.length_append, List.length_cons, Nat.succ_mul]
    omega

namespace Song

theorem length_directory_le (count : Nat) : (directory count).length ≤ 15 + count := by
  unfold directory
  rw [length_encodeBlock rfl]
  split
  · simp [encodeFields, Field.encode]
    omega
  · simp [encodeFields, Field.encode, Utf8.encode]
    omega

theorem length_orders (s : Song) : s.orders.length = channelCount * s.orderCount := by
  simp [orders]

theorem length_beforePointers (s : Song) :
    (encodeFields (s.timing ++ s.counts ++ chips ++ s.texts)).length =
      274 + (Utf8.encode s.info.name).length + (Utf8.encode s.info.author).length := by
  have htiming : (encodeFields s.timing).length = 14 := rfl
  have hcounts : (encodeFields s.counts).length = 10 := rfl
  have hchips : (encodeFields chips).length = 7 * maxChips := by
    simp [chips, encodeFields, Field.encode]
    simp [maxChips]
  have htexts : (encodeFields s.texts).length =
      26 + (Utf8.encode s.info.name).length + (Utf8.encode s.info.author).length := by
    simp [texts, encodeFields, Field.encode]
    omega
  simp only [encodeFields_append, List.length_append, htiming, hcounts, hchips, htexts, maxChips]
  omega

theorem length_infoBlock (s : Song) (p : Pointers) :
    (s.infoBlock p).length = 448 + (Utf8.encode s.info.name).length +
      (Utf8.encode s.info.author).length + (Utf8.encode s.info.comment).length +
      channelCount * s.orderCount + s.info.effectColumns.length +
      4 * (p.instruments.length + p.patterns.length + p.directories.length) := by
  have hbefore := s.length_beforePointers
  have hchannels : (encodeFields s.channels).length =
      4 * channelCount + channelCount * s.orderCount + s.info.effectColumns.length := by
    simp [channels, encodeFields, Field.encode, length_orders, List.length_flatMap, Utf8.encode]
    omega
  have hremarks : (encodeFields s.remarks).length = 43 + (Utf8.encode s.info.comment).length := by
    simp [remarks, encodeFields, Field.encode, Utf8.encode]
    omega
  have hsystem : (encodeFields system).length = 41 := rfl
  have hspeeds : (encodeFields s.speeds).length = 18 := rfl
  unfold infoBlock
  rw [length_encodeBlock rfl]
  simp only [encodeFields_append, List.length_append] at hbefore
  simp only [infoFields, encodeFields_append, length_encodeFields_long, List.length_append, hbefore,
    hchannels, hremarks, hsystem, hspeeds, channelCount]
  omega

theorem length_pointers (s : Song) : s.pointers.instruments.length = s.instruments.length ∧
    s.pointers.patterns.length = s.patterns.length ∧ s.pointers.directories.length = 3 := by
  refine ⟨?_, ?_, ?_⟩
  · simpa using s.standsAt_instruments.length_eq
  · simpa using s.standsAt_patterns.length_eq
  · rw [pointers, pointersAt, List.length_take, length_offsetsFrom, length_laterBlocks]
    omega

theorem length_encode_le {s : Song} {instrumentLimit patternLimit : Nat}
    (hinstruments : ∀ i ∈ s.instruments, i.encode.length ≤ instrumentLimit)
    (hpatterns : ∀ p ∈ s.patterns, p.encode.length ≤ patternLimit) :
    s.encode.length ≤ 537 + (Utf8.encode s.info.name).length + (Utf8.encode s.info.author).length +
      (Utf8.encode s.info.comment).length + channelCount * s.orderCount +
      s.info.effectColumns.length + s.instruments.length * (instrumentLimit + 5) +
      s.patterns.length * (patternLimit + 4) := by
  have hheader : header.length = 32 := rfl
  have hdirectories : s.directories.flatten.length ≤ 45 + s.instruments.length := by
    have := length_directory_le s.instruments.length
    have := length_directory_le 0
    simp [directories]
    omega
  have hinstrumentBlocks := length_flatten_le (List.forall_mem_map.mpr hinstruments)
  have hpatternBlocks := length_flatten_le (List.forall_mem_map.mpr hpatterns)
  obtain ⟨hfirst, hsecond, hthird⟩ := s.length_pointers
  rw [List.length_map] at hinstrumentBlocks hpatternBlocks
  simp only [encode, laterBlocks, List.flatten_append, List.length_append, length_infoBlock, hheader,
    hfirst, hsecond, Nat.mul_add]
  omega

end Song

end ChipScore.Tracker
