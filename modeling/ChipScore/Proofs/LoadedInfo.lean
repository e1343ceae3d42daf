import ChipScore.Proofs.Scan
import ChipScore.Tracker.LoadedSong

/-!
# The information block survives

What a song says of itself is read back from its information block, together with the offsets of its
instruments and patterns.
-/

namespace ChipScore.Tracker

/-- What the information block keeps of a song. The chip is always the same, and the tempo has two
bytes. -/
def Song.loadedInfo (s : Song) : LoadedInfo where
  name := s.info.name
  author := s.info.author
  comment := s.info.comment
  ticksPerRow := s.info.ticksPerRow
  tickRate := tickRate
  patternLength := s.info.patternLength
  chips := [chip]
  orders := List.replicate channelCount ((List.range s.orderCount).map UInt8.ofNat)
  effectColumns := s.info.effectColumns
  tempo := s.info.tempo % 2 ^ 16
  tempoBase := s.info.tempoBase % 2 ^ 16

namespace SongInfo

/-- Texts end at their first NUL byte, and the pattern length has two bytes. -/
structure Fits (info : SongInfo) : Prop where
  nul_notMem_name : Char.ofNat 0 ∉ info.name.toList
  nul_notMem_author : Char.ofNat 0 ∉ info.author.toList
  nul_notMem_comment : Char.ofNat 0 ∉ info.comment.toList
  patternLength_lt : info.patternLength < 2 ^ 16
  length_effectColumns : info.effectColumns.length = channelCount

end SongInfo

namespace Scan

/-! ## Fields in their order -/

theorem Reads.field {α β : Type} {scan : Scan α} {next : α → Scan β} {f : Field}
    {fields : List Field} {a : α} {b : β} (h : Reads scan f.encode a)
    (hnext : Reads (next a) (encodeFields fields) b) :
    Reads (scan >>= next) (encodeFields (f :: fields)) b :=
  h.bind hnext

theorem Reads.fields {α β : Type} {scan : Scan α} {next : α → Scan β} (group : List Field)
    {fields : List Field} {a : α} {b : β} (h : Reads scan (encodeFields group) a)
    (hnext : Reads (next a) (encodeFields fields) b) :
    Reads (scan >>= next) (encodeFields (group ++ fields)) b := by
  rw [encodeFields_append]
  exact h.bind hnext

theorem reads_noTexts (count : Nat) :
    Reads (times count text) (encodeFields (List.replicate count (.text "")))
      (List.replicate count "") := by
  have hbytes : encodeFields (List.replicate count (.text "")) =
      (List.replicate count (Utf8.encode "" ++ [0])).flatten := by
    rw [encodeFields, List.flatMap_def, List.map_replicate]
    rfl
  rw [hbytes]
  exact reads_times_replicate (reads_text (by decide)) count

theorem reads_offsets {offsets : List Nat} (h : ∀ offset ∈ offsets, offset < 2 ^ 32) :
    Reads (times offsets.length long) (encodeFields (offsets.map .long)) offsets := by
  have hbytes : encodeFields (offsets.map .long) =
      (offsets.map (LittleEndian.encode 4)).flatten := by
    rw [encodeFields, List.flatMap_map, ← List.flatMap_def]
    rfl
  rw [hbytes]
  refine reads_times ?_ rfl
  rw [List.forall₂_map_left_iff, List.forall₂_same]
  exact fun offset hoffset => reads_long (h offset hoffset)

/-! ## The information block -/

/-- The fields that are looked at. -/
def infoHead (s : Song) (p : Pointers) : List Field :=
  s.timing ++ (s.counts ++ (Song.chips ++ (s.texts ++ (p.instruments.map .long ++
    (p.patterns.map .long ++ (s.channels ++ [.text s.info.comment, .float floatOne, .zeros 28,
      .word s.info.tempo, .word s.info.tempoBase]))))))

theorem infoFields_eq (s : Song) (p : Pointers) :
    s.infoFields p = infoHead s p ++ ([.text "", .text "", .byte 0, .zeros 3] ++
      (Song.system ++ (s.speeds ++ p.directories.map .long))) := by
  simp only [Song.infoFields, infoHead, Song.remarks, List.append_assoc]
  rfl

variable {s : Song} {p : Pointers}

/-- The numbers in the information block fit, as do the texts. -/
structure InfoFits (s : Song) (p : Pointers) : Prop where
  info : s.info.Fits
  orderCount_lt : s.orderCount < 2 ^ 16
  length_instruments : p.instruments.length = s.instruments.length
  length_patterns : p.patterns.length = s.patterns.length
  length_instruments_lt : s.instruments.length < 2 ^ 16
  length_patterns_lt : s.patterns.length < 2 ^ 32
  instruments_lt : ∀ offset ∈ p.instruments, offset < 2 ^ 32
  patterns_lt : ∀ offset ∈ p.patterns, offset < 2 ^ 32

theorem info_of_ahead (h : InfoFits s p) {c : Cursor} {rest : List UInt8}
    (hsize : (s.infoBlock p).length < 2 ^ 32) (hc : Ahead c (s.infoBlock p) rest) :
    ∃ next, info c = .ok ((s.loadedInfo, p.instruments, p.patterns), next) := by
  have hbody : (encodeFields (s.infoFields p)).length < 2 ^ 32 := by
    rw [Song.infoBlock, length_encodeBlock rfl] at hsize
    omega
  have hahead := ahead_body rfl hc
  rw [infoFields_eq, encodeFields_append] at hahead
  have hvolumes : (encodeFields [.bytes (List.replicate maxChips 0x40), .zeros maxChips,
      .zeros (maxChips * 4)]).length = maxChips * 6 := by
    simp [encodeFields, Field.encode]
    omega
  refine ⟨(c.skip 8).skip (encodeFields (infoHead s p)).length, ?_⟩
  rw [info, bind_eq_of_ok (block_encodeBlock rfl hbody hc)]
  refine Reads.eq_of_ahead hahead.append ?_
  refine .field (reads_skip rfl) <| .field (reads_byte _) <| .field (reads_skip rfl) <|
    .field (reads_skip rfl) <| .field (reads_float _) <|
    .field (reads_word h.info.patternLength_lt) <| .field (reads_word h.orderCount_lt) <|
    .fields [.byte 4, .byte 16] (reads_skip rfl) <|
    .field (reads_word h.length_instruments_lt) <| .field (reads_skip rfl) <|
    .field (reads_skip rfl) <| .field (reads_long h.length_patterns_lt) <|
    .fields [.byte chip, .zeros (maxChips - 1)] (reads_bytes rfl) <|
    .fields [.bytes (List.replicate maxChips 0x40), .zeros maxChips, .zeros (maxChips * 4)]
      (reads_skip hvolumes) <|
    .field (reads_text h.info.nul_notMem_name) <| .field (reads_text h.info.nul_notMem_author) <|
    .field (reads_skip rfl) <| .field (reads_skip rfl) ?_
  rw [← h.length_instruments, ← h.length_patterns]
  refine .fields (p.instruments.map .long) (reads_offsets h.instruments_lt) <|
    .fields (p.patterns.map .long) (reads_offsets h.patterns_lt) <|
    .field (reads_times_replicate (reads_bytes ?_) channelCount) <|
    .field (reads_bytes h.info.length_effectColumns) <|
    .fields [.bytes (List.replicate channelCount 3), .zeros channelCount] (reads_skip rfl) <|
    .fields (List.replicate (channelCount * 2) (.text "")) (reads_noTexts (channelCount * 2)) <|
    .field (reads_text h.info.nul_notMem_comment) <| .field (reads_skip rfl) <|
    .field (reads_skip rfl) <| .field (reads_number 2 _) <|
    .field (reads_number 2 _) <| .pure _
  rw [List.length_map, List.length_range]

end Scan

end ChipScore.Tracker
