import ChipScore.Proofs.LoadedInfo
import ChipScore.Proofs.LoadedInstrument
import ChipScore.Proofs.RowCode

/-!
# Songs survive their modules

What a song says is read back from its module: the blocks are where the pointers say, and each block
gives back what was written into it.
-/

namespace ChipScore.Tracker

open Scan

/-! ## Patterns -/

namespace Pattern

/-- What a module keeps of a pattern: as many rows as the song has in a pattern. -/
def stored (length : Nat) (p : Pattern) : Pattern :=
  { p with rows := RowCode.resize length p.rows }

structure Fits (p : Pattern) : Prop where
  index_lt : p.index < 2 ^ 16
  effects_le : ∀ row ∈ p.rows, row.effects.length ≤ RowCode.maxEffects

theorem scan_encode {p : Pattern} (hp : p.Fits) (length : Nat) {c : Cursor} {rest : List UInt8}
    (hsize : p.encode.length < 2 ^ 32) (hc : Ahead c p.encode rest) :
    ∃ next, Scan.pattern length c = .ok (p.stored length, next) := by
  obtain ⟨channel, index, rows⟩ := p
  have hencode : Pattern.encode ⟨channel, index, rows⟩ = encodeBlock "PATN"
      ([0] ++ ([channel] ++ (LittleEndian.encode 2 index ++
        ((Utf8.encode "" ++ [0]) ++ RowCode.encode rows)))) := by
    unfold Pattern.encode encodeFields
    simp [Field.encode]
  rw [hencode] at hc hsize
  have hbody : ([0] ++ ([channel] ++ (LittleEndian.encode 2 index ++
      ((Utf8.encode "" ++ [0]) ++ RowCode.encode rows)))).length < 2 ^ 32 := by
    rw [length_encodeBlock rfl] at hsize
    omega
  have hgap : Reads (skip 1) [0] () := reads_skip rfl
  have hzero := ahead_body rfl hc
  have hchannel := hzero.append.skip
  have hindex := hchannel.append.skip
  have hname := hindex.append.skip
  have hrows := hname.append.skip
  have htext := reads_text (show Char.ofNat 0 ∉ "".toList by decide) _ _ hname.append
  apply Exists.intro
  rw [Scan.pattern, bind_eq_of_ok (block_encodeBlock rfl hbody hc),
    bind_eq_of_ok (hgap _ _ hzero.append), bind_eq_of_ok (reads_byte _ _ _ hchannel.append),
    bind_eq_of_ok (reads_word hp.index_lt _ _ hindex.append), bind_eq_of_ok htext, get_bind,
    hrows.rest_eq]
  -- The block ends where the rows end.
  have hcode : ∀ stop, stop = (RowCode.encode rows).length →
      RowCode.decode? length ((RowCode.encode rows ++ rest).take stop) =
        some (RowCode.resize length rows) := by
    rintro _ rfl
    rw [List.take_left]
    simpa using RowCode.decode?_encode_append hp.effects_le length []
  rw [hcode]
  · rfl
  · simp [Utf8.encode]
    omega

end Pattern

/-! ## Where blocks stand -/

namespace Song

variable {data : List UInt8}

def StandsAt (data : List UInt8) (offset : Nat) (block : List UInt8) : Prop :=
  ∃ rest, Ahead (.ofOffset data offset) block rest

theorem StandsAt.offset_le {offset : Nat} {block : List UInt8} (h : StandsAt data offset block) :
    offset ≤ data.length := by
  obtain ⟨rest, h⟩ := h
  exact h.le_stop

theorem StandsAt.length_le {offset : Nat} {block : List UInt8} (h : StandsAt data offset block) :
    block.length ≤ data.length := by
  obtain ⟨rest, h⟩ := h
  have := congrArg List.length h.rest_eq
  simp [Cursor.ofOffset] at this
  omega

theorem standsAt_offsetsFrom (before : List UInt8) (blocks : List (List UInt8)) :
    List.Forall₂ (StandsAt (before ++ blocks.flatten)) (offsetsFrom before.length blocks)
      blocks := by
  induction blocks generalizing before with
  | nil => exact .nil
  | cons block blocks ih =>
    have hnext := ih (before ++ block)
    rw [List.append_assoc, List.length_append] at hnext
    refine .cons ⟨blocks.flatten, ?_, ?_⟩ hnext
    · simp [Cursor.ofOffset]
    · simp [Cursor.ofOffset]

theorem length_offsetsFrom (start : Nat) (blocks : List (List UInt8)) :
    (offsetsFrom start blocks).length = blocks.length := by
  induction blocks generalizing start with
  | nil => rfl
  | cons block blocks ih => simp [offsetsFrom, ih]

theorem length_encodeFields_long (offsets : List Nat) :
    (encodeFields (offsets.map .long)).length = 4 * offsets.length := by
  induction offsets with
  | nil => rfl
  | cons offset offsets ih =>
    simp only [List.map_cons, encodeFields, List.flatMap_cons] at ih ⊢
    simp [ih, Field.encode]
    omega

theorem length_infoBlock_pointersAt (s : Song) {first second : List Nat}
    (h : first.length = second.length) :
    (s.infoBlock (s.pointersAt first)).length = (s.infoBlock (s.pointersAt second)).length := by
  simp only [infoBlock, encodeBlock, infoFields, pointersAt, encodeFields_append,
    length_encodeFields_long, LittleEndian.length_encode, List.length_append, List.length_take,
    List.length_drop, h]

theorem length_laterBlocks (s : Song) :
    s.laterBlocks.length = 3 + s.instruments.length + s.patterns.length := by
  simp [laterBlocks, directories]
  omega

theorem infoSize_eq (s : Song) : s.infoSize = (s.infoBlock s.pointers).length := by
  apply length_infoBlock_pointersAt
  rw [List.length_replicate, length_offsetsFrom, length_laterBlocks]

/-- All blocks after the information block stand where its pointers say. -/
theorem standsAt_laterBlocks (s : Song) :
    List.Forall₂ (StandsAt s.encode) (offsetsFrom (headerSize + s.infoSize) s.laterBlocks)
      s.laterBlocks := by
  have hbefore : headerSize + s.infoSize = (header ++ s.infoBlock s.pointers).length := by
    rw [List.length_append, infoSize_eq]
    rfl
  rw [hbefore]
  exact standsAt_offsetsFrom _ _

theorem standsAt_instruments (s : Song) :
    List.Forall₂ (StandsAt s.encode) s.pointers.instruments
      (s.instruments.map Instrument.encode) := by
  have hblocks : (s.laterBlocks.drop 3).take s.instruments.length =
      s.instruments.map Instrument.encode := by
    simp [laterBlocks, directories]
  rw [← hblocks]
  exact List.forall₂_take _ (List.forall₂_drop 3 s.standsAt_laterBlocks)

theorem standsAt_patterns (s : Song) :
    List.Forall₂ (StandsAt s.encode) s.pointers.patterns (s.patterns.map Pattern.encode) := by
  have hblocks : s.laterBlocks.drop (3 + s.instruments.length) =
      s.patterns.map Pattern.encode := by
    apply List.drop_left'
    simp [directories]
    omega
  rw [← hblocks]
  exact List.forall₂_drop _ s.standsAt_laterBlocks

/-! ## Whole songs -/

/-- What is read back from the module of a song. -/
def stored (s : Song) : LoadedSong where
  toLoadedInfo := s.loadedInfo
  version := formatVersion
  instruments := s.instruments.map Instrument.stored
  patterns := s.patterns.map (Pattern.stored s.info.patternLength)

/-- The parts of the song fit into their blocks, and the offsets of its module have four bytes. -/
structure Fits (s : Song) : Prop where
  info : s.info.Fits
  orderCount_lt : s.orderCount < 2 ^ 16
  length_instruments : s.instruments.length < 2 ^ 16
  instruments : ∀ i ∈ s.instruments, i.Fits
  patterns : ∀ p ∈ s.patterns, p.Fits
  length_encode : s.encode.length < 2 ^ 32

theorem lt_of_forall₂_standsAt {offsets : List Nat} {blocks : List (List UInt8)}
    (h : List.Forall₂ (StandsAt data) offsets blocks) (hdata : data.length < 2 ^ 32) :
    ∀ offset ∈ offsets, offset < 2 ^ 32 := by
  induction h with
  | nil => exact nofun
  | cons hblock _ ih =>
    rw [List.forall_mem_cons]
    exact ⟨Nat.lt_of_le_of_lt hblock.offset_le hdata, ih⟩

theorem Fits.infoFits {s : Song} (hs : s.Fits) : InfoFits s s.pointers := by
  have hinstruments := s.standsAt_instruments
  have hpatterns := s.standsAt_patterns
  have hlength := hpatterns.length_eq
  refine ⟨hs.info, hs.orderCount_lt, by simpa using hinstruments.length_eq, by simpa using hlength,
    hs.length_instruments, ?_, lt_of_forall₂_standsAt hinstruments hs.length_encode,
    lt_of_forall₂_standsAt hpatterns hs.length_encode⟩
  have := hs.length_encode
  simp only [encode, infoBlock, encodeBlock, infoFields, encodeFields_append,
    length_encodeFields_long, List.length_append] at this
  rw [List.length_map] at hlength
  omega

theorem atOffsets_of_standsAt {α β : Type} {scan : Scan α} {encode : β → List UInt8} {f : β → α}
    {offsets : List Nat} {xs : List β}
    (hscan : ∀ x ∈ xs, (encode x).length ≤ data.length → ∀ (c : Cursor) (rest : List UInt8),
      Ahead c (encode x) rest → ∃ next, scan c = .ok (f x, next))
    (h : List.Forall₂ (StandsAt data) offsets (xs.map encode)) (c : Cursor) :
    ∃ next, atOffsets data scan offsets c = .ok (xs.map f, next) := by
  induction offsets generalizing xs c with
  | nil =>
    rw [List.forall₂_nil_left_iff, List.map_eq_nil_iff] at h
    subst h
    exact ⟨c, rfl⟩
  | cons offset offsets ih =>
    cases xs with
    | nil => cases h
    | cons x xs =>
      rw [List.map_cons, List.forall₂_cons] at h
      rw [List.forall_mem_cons] at hscan
      obtain ⟨rest, hblock⟩ := h.1
      obtain ⟨next, hvalue⟩ := hscan.1 h.1.length_le _ rest hblock
      obtain ⟨last, hvalues⟩ := ih hscan.2 h.2 next
      refine ⟨last, ?_⟩
      have hfirst : (do goTo data offset; scan : Scan α) c = .ok (f x, next) := hvalue
      unfold atOffsets at hvalues ⊢
      rw [List.mapM_cons, bind_eq_of_ok hfirst, bind_eq_of_ok hvalues]
      rfl

theorem standsAt_infoBlock (s : Song) : StandsAt s.encode headerSize (s.infoBlock s.pointers) := by
  refine ⟨s.laterBlocks.flatten, ?_, ?_⟩
  · change headerSize ≤ s.encode.length
    simp only [encode, List.length_append]
    exact Nat.le_add_right_of_le (Nat.le_add_right headerSize _)
  · change s.encode.drop headerSize = _
    rw [encode, List.append_assoc]
    exact List.drop_left' rfl

theorem parse_encode {s : Song} (hs : s.Fits) : parse s.encode = .ok s.stored := by
  have hgap : Reads (skip 2) [0, 0] () := reads_skip rfl
  have hmagic : Reads (bytes 16) magic magic := reads_bytes rfl
  have hstart : Ahead (.ofList s.encode) (magic ++ (LittleEndian.encode 2 formatVersion ++ ([0, 0] ++
      (LittleEndian.encode 4 headerSize ++ (List.replicate 8 0 ++
        (s.infoBlock s.pointers ++ s.laterBlocks.flatten)))))) [] :=
    ⟨Nat.zero_le _, by rw [Cursor.rest_ofList, List.append_nil]; rfl⟩
  have hversion := hstart.append.skip
  have hzeros := hversion.append.skip
  have hpointer := hzeros.append.skip
  have hlength := hs.length_encode
  obtain ⟨rest, hinfoBlock⟩ := s.standsAt_infoBlock
  have hinfoSize := Nat.lt_of_le_of_lt s.standsAt_infoBlock.length_le hlength
  obtain ⟨afterInfo, hinfo⟩ := info_of_ahead hs.infoFits hinfoSize hinfoBlock
  obtain ⟨afterInstruments, hinstruments⟩ : ∃ next, atOffsets s.encode LoadedInstrument.load
      s.pointers.instruments afterInfo = .ok (s.stored.instruments, next) :=
    atOffsets_of_standsAt
      (fun i hi hsize c rest hc => LoadedInstrument.load_encode (hs.instruments i hi)
        (Nat.lt_of_le_of_lt hsize hlength) hc) s.standsAt_instruments afterInfo
  obtain ⟨afterPatterns, hpatterns⟩ : ∃ next, atOffsets s.encode
      (pattern s.loadedInfo.patternLength) s.pointers.patterns afterInstruments =
        .ok (s.stored.patterns, next) :=
    atOffsets_of_standsAt
      (fun p hp hsize c rest hc => Pattern.scan_encode (hs.patterns p hp) s.info.patternLength
        (Nat.lt_of_le_of_lt hsize hlength) hc) s.standsAt_patterns afterInstruments
  have hsong : song s.encode (.ofList s.encode) = .ok (s.stored, afterPatterns) := by
    rw [song, bind_eq_of_ok (hmagic _ _ hstart.append)]
    simp only [ne_eq, not_true_eq_false, if_false]
    rw [bind_eq_of_ok (reads_word (by decide) _ _ hversion.append),
      bind_eq_of_ok (hgap _ _ hzeros.append),
      bind_eq_of_ok (reads_long (by decide) _ _ hpointer.append), goTo, set_bind,
      bind_eq_of_ok hinfo]
    dsimp only
    rw [bind_eq_of_ok hinstruments, bind_eq_of_ok hpatterns]
    rfl
  unfold parse
  rw [StateT.run, hsong]
  rfl

theorem unpack_encode (s : Song) (codec : Codec) : unpack s.encode codec = .ok s.encode := by
  have hhead : s.encode.head? = some 0x2D := rfl
  unfold unpack
  rw [hhead, if_neg (by decide)]

theorem load_of_unpack {s : Song} (hs : s.Fits) {packed : List UInt8} {codec : Codec}
    (h : unpack packed codec = .ok s.encode) : load packed codec = .ok s.stored := by
  unfold load
  rw [h]
  simp only [bind, Except.bind]
  exact parse_encode hs

theorem make_fits {info : SongInfo} {orderCount : Nat} {instruments : List Instrument}
    {patterns : List Pattern} (hinfo : info.Fits) (horders : orderCount < 2 ^ 16)
    (hlength : instruments.length < 2 ^ 16) (hinstruments : ∀ i ∈ instruments, i.Fits)
    (hpatterns : ∀ p ∈ patterns, p.Fits)
    (hsize : (make info orderCount instruments patterns).encode.length < 2 ^ 32) :
    (make info orderCount instruments patterns).Fits where
  info := hinfo
  orderCount_lt := by
    change max orderCount 1 < 2 ^ 16
    omega
  length_instruments := hlength
  instruments := hinstruments
  patterns := fun p hp => hpatterns p (List.mem_of_mem_filter hp)
  length_encode := hsize

/-- A song that is put together and written is read back whole: its texts and numbers, in each channel
the orders from zero on with their number in one byte, the instruments as they are stored, and the
patterns that are not empty, with as many rows as the song has in a pattern. -/
theorem load_encode_make (codec : Codec) {info : SongInfo} {orderCount : Nat}
    {instruments : List Instrument} {patterns : List Pattern} (hinfo : info.Fits) (htempo : info.tempo < 2 ^ 16)
    (htempoBase : info.tempoBase < 2 ^ 16) (horders : 1 ≤ orderCount)
    (horders_lt : orderCount < 2 ^ 16) (hlength : instruments.length < 2 ^ 16)
    (hinstruments : ∀ i ∈ instruments, i.Fits) (hpatterns : ∀ p ∈ patterns, p.Fits)
    (hsize : (make info orderCount instruments patterns).encode.length < 2 ^ 32) :
    ∃ loaded, load (make info orderCount instruments patterns).encode codec = .ok loaded ∧
      loaded.name = info.name ∧ loaded.author = info.author ∧ loaded.comment = info.comment ∧
      loaded.ticksPerRow = info.ticksPerRow ∧ loaded.patternLength = info.patternLength ∧
      loaded.effectColumns = info.effectColumns ∧
      loaded.tempo = info.tempo ∧ loaded.tempoBase = info.tempoBase ∧
      loaded.orders.length = channelCount ∧
      (∀ orders ∈ loaded.orders, orders.map UInt8.toNat = (List.range orderCount).map (· % 256)) ∧
      loaded.instruments = instruments.map Instrument.stored ∧
      loaded.patterns =
        (patterns.filter (!·.isEmpty)).map (Pattern.stored info.patternLength) := by
  have hfits := make_fits hinfo horders_lt hlength hinstruments hpatterns hsize
  refine ⟨(make info orderCount instruments patterns).stored,
    load_of_unpack hfits (unpack_encode _ codec), rfl, rfl, rfl, rfl, rfl, rfl, Nat.mod_eq_of_lt htempo,
    Nat.mod_eq_of_lt htempoBase, List.length_replicate, ?_, rfl, rfl⟩
  intro orders h
  rw [List.eq_of_mem_replicate h, List.map_map]
  change (List.range (max orderCount 1)).map _ = _
  rw [Nat.max_eq_left horders]
  exact List.map_congr_left fun i _ => UInt8.toNat_ofNat'

theorem load_encode_make_twoInstruments :
    let info : SongInfo := { name := "Title", comment := "First\nSecond", patternLength := 2 }
    let detuned : Operator := { ({} : Operator) with dt := 12, mul := 17 }
    let voice : Voice := ⟨9, 3, Vector.replicate 4 detuned⟩
    let instruments : List Instrument :=
      [.fm "FM 01" voice, .ssg "SSG" { decay := -14 }]
    let struck : PatternRow := { note := some 60, instrument := some 1 }
    let patterns : List Pattern := [⟨0, 1, [struck, .empty, struck]⟩, ⟨1, 0, [.empty]⟩]
    ∃ loaded, load (make info 258 instruments patterns).encode = .ok loaded ∧
      loaded.comment = "First\nSecond" ∧
      loaded.instruments = [
        { type := 1, name := "FM 01", voice := some ⟨1, 3, Vector.replicate 4 { mul := 1 }⟩ },
        { type := 6, name := "SSG", volumeMacro := some ⟨[1, 0], some 0⟩ }] ∧
      loaded.patterns = [⟨0, 1, [struck, .empty]⟩] := by
  intro info detuned voice instruments struck patterns
  have hinfo : info.Fits := by constructor <;> decide
  have hinstruments : ∀ i ∈ instruments, i.Fits := by
    simp only [instruments, List.forall_mem_cons]
    exact ⟨⟨by decide, by decide⟩, ⟨by decide, by decide⟩, nofun⟩
  have hpatterns : ∀ p ∈ patterns, p.Fits := by
    simp only [patterns, List.forall_mem_cons]
    exact ⟨⟨by decide, by decide⟩, ⟨by decide, by decide⟩, nofun⟩
  have hlength : instruments.length < 2 ^ 16 := by decide
  have hsize : (make info 258 instruments patterns).encode.length < 2 ^ 32 := by decide +kernel
  obtain ⟨loaded, hloaded, -, -, hcomment, -, -, -, -, -, -, -, hsounds, hrows⟩ :=
    load_encode_make Zlib.codec hinfo (by decide) (by decide) (by decide) (by decide) hlength
      hinstruments hpatterns hsize
  refine ⟨loaded, hloaded, hcomment, ?_, ?_⟩
  · rw [hsounds]
    decide +kernel
  · rw [hrows]
    rfl

end Song

end ChipScore.Tracker
