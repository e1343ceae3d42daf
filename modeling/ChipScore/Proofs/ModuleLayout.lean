import ChipScore.Proofs.ModuleSize

/-!
# Where everything is in a module

A reader that knows nothing of the song finds the blocks of a module by their sizes alone: each block
starts where the one before it ends. The pointers in the header and in the information block say the
same.
-/

namespace ChipScore.Tracker

/-! ## Walking over blocks -/

/-- A block as it is found in a module: where it starts, its four letters and its body. -/
structure Block where
  offset : Nat
  id : List UInt8
  body : List UInt8
  deriving DecidableEq, Repr

namespace Block

def bytes (b : Block) : List UInt8 := b.id ++ LittleEndian.encode 4 b.body.length ++ b.body

/-- The block has a name, and this is all of it. -/
def Holds (id : String) (b : Block) (bytes : List UInt8) : Prop :=
  b.id = Utf8.encode id ∧ b.bytes = bytes

def place (offset : Nat) (bytes : List UInt8) : Block := ⟨offset, bytes.take 4, bytes.drop 8⟩

end Block

/-- The blocks that lie back to back from an offset to the end of the data. The size that a block
states is the only thing that says where the next one starts. No bytes may be missing or left over. -/
def blocksFrom (offset : Nat) (data : List UInt8) : Option (List Block) :=
  if data = [] then some []
  else
    let size := LittleEndian.decode ((data.drop 4).take 4)
    if data.length < 8 + size then none
    else (blocksFrom (offset + (8 + size)) (data.drop (8 + size))).map
      (⟨offset, data.take 4, (data.drop 8).take size⟩ :: ·)
termination_by data.length
decreasing_by
  rw [List.length_drop]
  omega

/-- So many numbers of four bytes. -/
def longs : Nat → List UInt8 → List Nat
  | 0, _ => []
  | count + 1, data => LittleEndian.decode (data.take 4) :: longs count (data.drop 4)

theorem longs_encodeFields {ns : List Nat} (h : ∀ n ∈ ns, n < 2 ^ 32) (rest : List UInt8) :
    longs ns.length (encodeFields (ns.map .long) ++ rest) = ns := by
  induction ns with
  | nil => rfl
  | cons n ns ih =>
    rw [List.forall_mem_cons] at h
    have hlength := LittleEndian.length_encode 4 n
    have hencode : encodeFields ((n :: ns).map .long) ++ rest =
        LittleEndian.encode 4 n ++ (encodeFields (ns.map .long) ++ rest) := by
      rw [← List.append_assoc]
      rfl
    rw [hencode, List.length_cons, longs, List.take_left' hlength, List.drop_left' hlength,
      LittleEndian.decode_encode, ih h.2, Nat.mod_eq_of_lt (show n < 256 ^ 4 from h.1)]

section Blocks

variable {id : String} {block : List UInt8} {blocks : List (List UInt8)} {offsets : List Nat}

/-- A block that was written with its size. -/
structure IsBlock (id : String) (block : List UInt8) : Prop where
  body : ∃ body, block = encodeBlock id body
  length_id : (Utf8.encode id).length = 4
  length_lt : block.length < 2 ^ 32

theorem IsBlock.size_eq (h : IsBlock id block) :
    8 + LittleEndian.decode ((block.drop 4).take 4) = block.length := by
  obtain ⟨⟨body, rfl⟩, hid, hlength⟩ := h
  rw [length_encodeBlock hid] at hlength ⊢
  rw [encodeBlock, List.append_assoc, List.drop_left' hid,
    List.take_left' (LittleEndian.length_encode 4 _), LittleEndian.decode_encode,
    Nat.mod_eq_of_lt (by omega)]

theorem IsBlock.holds (h : IsBlock id block) (offset : Nat) :
    (Block.place offset block).Holds id block := by
  obtain ⟨⟨body, rfl⟩, hid, -⟩ := h
  have hbody : (encodeBlock id body).drop 8 = body := by
    apply List.drop_left'
    rw [List.length_append, hid, LittleEndian.length_encode]
  have htake : (encodeBlock id body).take 4 = Utf8.encode id := by
    rw [encodeBlock, List.append_assoc]
    exact List.take_left' hid
  refine ⟨htake, ?_⟩
  unfold Block.bytes Block.place
  rw [htake, hbody]
  rfl

theorem blocksFrom_append (h : IsBlock id block) (offset : Nat) (rest : List UInt8) :
    blocksFrom offset (block ++ rest) =
      (blocksFrom (offset + block.length) rest).map (Block.place offset block :: ·) := by
  have hsize := h.size_eq
  have hne : block ++ rest ≠ [] := by
    intro hnil
    rw [(List.append_eq_nil_iff.mp hnil).1] at hsize
    simp at hsize
  have hdecode : ((block ++ rest).drop 4).take 4 = (block.drop 4).take 4 := by
    rw [List.drop_append_of_le_length (by omega), List.take_append_of_le_length]
    rw [List.length_drop]
    omega
  rw [blocksFrom, if_neg hne]
  dsimp only
  rw [hdecode, hsize, if_neg (by simp), List.drop_left, List.take_append_of_le_length (by omega),
    List.drop_append_of_le_length (by omega), List.take_left']
  · rfl
  · rw [List.length_drop]
    omega

theorem blocksFrom_flatten (h : ∀ block ∈ blocks, ∃ id, IsBlock id block) (offset : Nat) :
    blocksFrom offset blocks.flatten =
      some (List.zipWith Block.place (Song.offsetsFrom offset blocks) blocks) := by
  induction blocks generalizing offset with
  | nil => simp [blocksFrom]
  | cons block blocks ih =>
    rw [List.forall_mem_cons] at h
    obtain ⟨id, hblock⟩ := h.1
    rw [List.flatten_cons, blocksFrom_append hblock, ih h.2]
    rfl

theorem map_offset_zipWith (h : offsets.length = blocks.length) :
    (List.zipWith Block.place offsets blocks).map Block.offset = offsets := by
  apply List.ext_getElem
  · simp [h]
  · intro k _ _
    simp [Block.place]

theorem holds_zipWith (h : offsets.length = blocks.length)
    (hblocks : ∀ block ∈ blocks, IsBlock id block) :
    List.Forall₂ (Block.Holds id) (List.zipWith Block.place offsets blocks) blocks := by
  induction blocks generalizing offsets with
  | nil => simp
  | cons block blocks ih =>
    cases offsets with
    | nil => cases h
    | cons offset offsets =>
      rw [List.forall_mem_cons] at hblocks
      exact .cons (hblocks.1.holds offset) (ih (Nat.succ.inj h) hblocks.2)

end Blocks

/-! ## The blocks of a module -/

namespace Song

/-- Where the pointers to the instruments are in the body of the information block, behind the title
and the author. The pointers to the patterns follow. -/
def pointersStart (info : SongInfo) : Nat :=
  274 + (Utf8.encode info.name).length + (Utf8.encode info.author).length

section Encode

variable {s : Song}

theorem pointers_append (s : Song) :
    s.pointers.directories ++ s.pointers.instruments ++ s.pointers.patterns =
      offsetsFrom (headerSize + s.infoSize) s.laterBlocks := by
  simp only [pointers, pointersAt]
  rw [← List.drop_drop, List.append_assoc, List.take_append_drop, List.take_append_drop]

theorem isBlock_infoBlock (h : s.encode.length < 2 ^ 32) : IsBlock "INFO" (s.infoBlock s.pointers) :=
  ⟨⟨_, rfl⟩, rfl, Nat.lt_of_le_of_lt s.standsAt_infoBlock.length_le h⟩

theorem isBlock_of_mem {id : String} {block : List UInt8} (h : s.encode.length < 2 ^ 32)
    (hid : (Utf8.encode id).length = 4) (hblock : block ∈ s.laterBlocks)
    (hbody : ∃ body, block = encodeBlock id body) : IsBlock id block := by
  refine ⟨hbody, hid, Nat.lt_of_le_of_lt ?_ h⟩
  have hlength := (List.sublist_flatten_of_mem hblock).length_le
  simp only [encode, List.length_append]
  omega

theorem isBlock_directories (h : s.encode.length < 2 ^ 32) :
    ∀ block ∈ s.directories, IsBlock "ADIR" block := by
  intro block hblock
  apply isBlock_of_mem h rfl
  · exact List.mem_append_left _ (List.mem_append_left _ hblock)
  · simp only [directories, List.mem_cons, List.not_mem_nil, or_false] at hblock
    rcases hblock with rfl | rfl | rfl <;> exact ⟨_, rfl⟩

theorem isBlock_instruments (h : s.encode.length < 2 ^ 32) :
    ∀ block ∈ s.instruments.map Instrument.encode, IsBlock "INS2" block := by
  intro block hblock
  apply isBlock_of_mem h rfl
  · exact List.mem_append_left _ (List.mem_append_right _ hblock)
  · obtain ⟨i, -, rfl⟩ := List.mem_map.mp hblock
    exact ⟨_, rfl⟩

theorem isBlock_patterns (h : s.encode.length < 2 ^ 32) :
    ∀ block ∈ s.patterns.map Pattern.encode, IsBlock "PATN" block := by
  intro block hblock
  apply isBlock_of_mem h rfl
  · exact List.mem_append_right _ hblock
  · obtain ⟨p, -, rfl⟩ := List.mem_map.mp hblock
    exact ⟨_, rfl⟩

theorem blocksFrom_encode (h : s.encode.length < 2 ^ 32) :
    blocksFrom headerSize (s.encode.drop headerSize) =
      some (Block.place headerSize (s.infoBlock s.pointers) ::
        (List.zipWith Block.place s.pointers.directories s.directories ++
          List.zipWith Block.place s.pointers.instruments (s.instruments.map Instrument.encode) ++
          List.zipWith Block.place s.pointers.patterns (s.patterns.map Pattern.encode))) := by
  obtain ⟨hinstruments, hpatterns, hdirectories⟩ := s.length_pointers
  have hdrop : s.encode.drop headerSize = s.infoBlock s.pointers ++ s.laterBlocks.flatten := by
    rw [encode, List.append_assoc]
    exact List.drop_left' rfl
  have hblocks : ∀ block ∈ s.laterBlocks, ∃ id, IsBlock id block := by
    simp only [laterBlocks, List.mem_append]
    rintro block ((hblock | hblock) | hblock)
    · exact ⟨_, isBlock_directories h block hblock⟩
    · exact ⟨_, isBlock_instruments h block hblock⟩
    · exact ⟨_, isBlock_patterns h block hblock⟩
  rw [hdrop, blocksFrom_append (isBlock_infoBlock h), ← infoSize_eq, blocksFrom_flatten hblocks,
    ← pointers_append, laterBlocks, List.zipWith_append, List.zipWith_append]
  · rfl
  · rw [hdirectories]
    rfl
  · rw [List.length_append, List.length_append, hdirectories, hinstruments, List.length_map]
    rfl

theorem lt_of_mem_pointers (h : s.encode.length < 2 ^ 32) {offset : Nat}
    (hoffset : offset ∈ s.pointers.directories ++ s.pointers.instruments ++ s.pointers.patterns) :
    offset < 2 ^ 32 := by
  rw [pointers_append] at hoffset
  exact lt_of_forall₂_standsAt s.standsAt_laterBlocks h offset hoffset

/-! ## The pointers of the information block -/

/-- The body of the information block. -/
def infoBody (s : Song) : List UInt8 := encodeFields (s.infoFields s.pointers)

theorem body_place_infoBlock (s : Song) (offset : Nat) :
    (Block.place offset (s.infoBlock s.pointers)).body = s.infoBody :=
  List.drop_left' rfl

theorem drop_infoBody (s : Song) : s.infoBody.drop (pointersStart s.info) =
    encodeFields (s.pointers.instruments.map .long) ++
      (encodeFields (s.pointers.patterns.map .long) ++
        encodeFields (s.channels ++ s.remarks ++ system ++ s.speeds ++
          s.pointers.directories.map .long)) := by
  have hfields : s.infoFields s.pointers = (s.timing ++ s.counts ++ chips ++ s.texts) ++
      (s.pointers.instruments.map .long ++ (s.pointers.patterns.map .long ++
        (s.channels ++ s.remarks ++ system ++ s.speeds ++
          s.pointers.directories.map .long))) := by
    simp only [infoFields, List.append_assoc]
  have hstart : (encodeFields (s.timing ++ s.counts ++ chips ++ s.texts)).length =
      pointersStart s.info := s.length_beforePointers
  rw [infoBody, hfields, encodeFields_append, List.drop_left' hstart, encodeFields_append,
    encodeFields_append]

theorem longs_instruments (h : s.encode.length < 2 ^ 32) :
    longs s.instruments.length (s.infoBody.drop (pointersStart s.info)) =
      s.pointers.instruments := by
  rw [drop_infoBody, ← s.length_pointers.1]
  apply longs_encodeFields
  intro offset hoffset
  exact lt_of_mem_pointers h (by simp [hoffset])

theorem longs_patterns (h : s.encode.length < 2 ^ 32) :
    longs s.patterns.length (s.infoBody.drop (pointersStart s.info + 4 * s.instruments.length)) =
      s.pointers.patterns := by
  rw [← List.drop_drop, drop_infoBody, ← s.length_pointers.1,
    List.drop_left' (length_encodeFields_long _), ← s.length_pointers.2.1]
  apply longs_encodeFields
  intro offset hoffset
  exact lt_of_mem_pointers h (by simp [hoffset])

theorem longs_directories (h : s.encode.length < 2 ^ 32) :
    longs 3 (s.infoBody.drop (s.infoBody.length - 12)) = s.pointers.directories := by
  have hcount := s.length_pointers.2.2
  have hlength := length_encodeFields_long s.pointers.directories
  rw [hcount] at hlength
  rw [infoBody, infoFields, encodeFields_append, List.length_append, hlength, Nat.add_sub_cancel,
    List.drop_left, ← hcount, ← List.append_nil (encodeFields _)]
  apply longs_encodeFields
  intro offset hoffset
  exact lt_of_mem_pointers h (by simp [hoffset])

end Encode

/-- A module is its header and then, from the first byte after it to the last byte of all, the
information block, three asset directories, the instruments and the patterns that are not empty. The
header has a pointer to the information block. That block is written with the offsets of all the
others: those of the instruments and of the patterns stand behind title and author, and those of the
directories at its end. -/
theorem blocksFrom_encode_make {info : SongInfo} {orderCount : Nat} {instruments : List Instrument}
    {patterns : List Pattern}
    (hsize : (make info orderCount instruments patterns).encode.length < 2 ^ 32) :
    ∃ (first : Block) (directories sounds tracks : List Block),
      (make info orderCount instruments patterns).encode.take 32 = header ∧
      blocksFrom 32 ((make info orderCount instruments patterns).encode.drop 32) =
        some (first :: (directories ++ sounds ++ tracks)) ∧
      first.Holds "INFO" ((make info orderCount instruments patterns).infoBlock
        ⟨directories.map Block.offset, sounds.map Block.offset, tracks.map Block.offset⟩) ∧
      List.Forall₂ (Block.Holds "ADIR") directories
        [directory instruments.length, directory 0, directory 0] ∧
      List.Forall₂ (Block.Holds "INS2") sounds (instruments.map Instrument.encode) ∧
      List.Forall₂ (Block.Holds "PATN") tracks
        ((patterns.filter (!·.isEmpty)).map Pattern.encode) ∧
      longs 1 (header.drop 20) = [first.offset] ∧
      longs instruments.length (first.body.drop (pointersStart info)) = sounds.map Block.offset ∧
      longs (patterns.filter (!·.isEmpty)).length
        (first.body.drop (pointersStart info + 4 * instruments.length)) =
          tracks.map Block.offset ∧
      longs 3 (first.body.drop (first.body.length - 12)) = directories.map Block.offset := by
  have hheader : (make info orderCount instruments patterns).encode.take 32 = header := by
    rw [encode, List.append_assoc]
    exact List.take_left' rfl
  obtain ⟨hinstruments, hpatterns, hdirectories⟩ :=
    (make info orderCount instruments patterns).length_pointers
  rw [← List.length_map Instrument.encode] at hinstruments
  rw [← List.length_map Pattern.encode] at hpatterns
  change _ = (make info orderCount instruments patterns).directories.length at hdirectories
  have hfirst := map_offset_zipWith hdirectories
  have hsounds := map_offset_zipWith hinstruments
  have htracks := map_offset_zipWith hpatterns
  refine ⟨_, _, _, _, hheader, blocksFrom_encode hsize, ?_,
    holds_zipWith hdirectories (isBlock_directories hsize),
    holds_zipWith hinstruments (isBlock_instruments hsize),
    holds_zipWith hpatterns (isBlock_patterns hsize), rfl, ?_, ?_, ?_⟩
  · rw [hfirst, hsounds, htracks]
    exact (isBlock_infoBlock hsize).holds _
  · rw [hsounds, body_place_infoBlock]
    exact longs_instruments hsize
  · rw [htracks, body_place_infoBlock]
    exact longs_patterns hsize
  · rw [hfirst, body_place_infoBlock]
    exact longs_directories hsize

theorem blocksFrom_encode_make_emptyPattern :
    let info : SongInfo := { name := "Title", author := "Author", comment := "First\nSecond" }
    let instruments : List Instrument :=
      [.fm "FM 01" ⟨9, 3, Vector.replicate 4 {}⟩, .ssg "SSG" { decay := -14 }]
    let patterns : List Pattern :=
      [⟨1, 0, [.empty]⟩, ⟨0, 1, [{ note := some 60, instrument := some 1 }]⟩]
    let data := (make info 258 instruments patterns).encode
    data.length < 2 ^ 32 ∧
      ∃ blocks, blocksFrom 32 (data.drop 32) = some blocks ∧ blocks.length = 7 := by
  intro info instruments patterns data
  have hsize : data.length < 2 ^ 32 := by decide +kernel
  obtain ⟨first, directories, sounds, tracks, -, hblocks, -, hdirectories, hsounds, htracks, -⟩ :=
    blocksFrom_encode_make hsize
  refine ⟨hsize, _, hblocks, ?_⟩
  rw [List.length_cons, List.length_append, List.length_append, hdirectories.length_eq,
    hsounds.length_eq, htracks.length_eq]
  rfl

end Song

end ChipScore.Tracker
