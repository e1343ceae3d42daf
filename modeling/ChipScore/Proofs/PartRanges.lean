import ChipScore.Conversion
import Mathlib.Data.List.Basic

/-!
# Where the parts of a score lie

A header can be read exactly if what it points to lies in the data, and what is wrong with any other
one is told. The ranges of the parts never overlap, whatever order the parts are in: parts that start
at one place share their bytes, and every other part ends before the next one starts.
-/

namespace ChipScore

/-! ## Pointers -/

namespace Header

/-- The number in the `slot`-th place of a header. -/
def stored (data : List UInt8) (slot : Nat) : Nat :=
  (data.getD (2 * slot + 1) 0).toNat + 256 * (data.getD (2 * slot + 2) 0).toNat

theorem pointer?_eq (data : List UInt8) (slot : Nat) :
    pointer? data slot = if stored data slot = 0 then none else some (stored data slot + 1) := by
  have hlow : data.getD (2 * slot + 1) 0 = (data.drop (pointerBase + 2 * slot)).getD 0 0 := by
    rw [List.getD_eq_getElem?_getD, List.getD_eq_getElem?_getD, List.getElem?_drop, pointerBase,
      Nat.add_comm 1]
  have hhigh : data.getD (2 * slot + 2) 0 = (data.drop (pointerBase + 2 * slot)).getD 1 0 := by
    rw [List.getD_eq_getElem?_getD, List.getD_eq_getElem?_getD, List.getElem?_drop, pointerBase,
      Nat.add_right_comm, Nat.add_comm (1 + 1)]
  have hstored : LittleEndian.decode ((data.drop (pointerBase + 2 * slot)).take 2) =
      stored data slot := by
    rw [stored, hlow, hhigh]
    rcases data.drop (pointerBase + 2 * slot) with _ | ⟨low, _ | ⟨high, rest⟩⟩
    · rfl
    · rfl
    · rfl
  rw [pointer?, hstored, resolve?, pointerBase]

theorem pointer?_eq_some_iff {data : List UInt8} {slot offset : Nat} :
    pointer? data slot = some offset ↔ stored data slot ≠ 0 ∧ offset = stored data slot + 1 := by
  rw [pointer?_eq]
  split
  · simp_all
  · simp_all [eq_comm]

theorem index_lt_of_mem_all : ∀ part ∈ Part.all, part.index < 12 := by
  decide

/-- What a header points to lies in the data. A voice table may start at the end, if it is empty. -/
structure PointsInside (data : List UInt8) : Prop where
  size_le : 27 ≤ data.length
  table : ∀ slot < 12, stored data slot ≠ 0 → stored data slot + 1 < data.length
  voiceTable : stored data 12 ≠ 0 → stored data 12 + 1 ≤ data.length

/-- What the bytes of a header say, wherever it points to. -/
def ofBytes (data : List UInt8) : Header where
  version := data.headD 0
  parts := Part.all.map fun part => pointer? data part.index
  rhythmTable := pointer? data rhythmSlot
  voiceTable := pointer? data voiceSlot

end Header

/-- What is wrong with a header. -/
def HeaderFault.Tells (data : List UInt8) : HeaderFault → Prop
  | short size => size = data.length ∧ size < Header.size
  | partPastEnd part offset size => part ∈ Part.all ∧
      Header.pointer? data part.index = some offset ∧ size = data.length ∧ size ≤ offset
  | rhythmTablePastEnd offset size =>
      Header.pointer? data Header.rhythmSlot = some offset ∧ size = data.length ∧ size ≤ offset
  | voiceTablePastEnd offset size =>
      Header.pointer? data Header.voiceSlot = some offset ∧ size = data.length ∧ size < offset

/-! ## Reading a header -/

namespace Header

section Check

variable (last : Nat)

theorem check_cases (fault : Nat → HeaderFault) (pointer : Option Nat) :
    (check last fault pointer = .ok pointer ∧ ∀ offset, pointer = some offset → offset ≤ last) ∨
      ∃ offset, pointer = some offset ∧ last < offset ∧
        check last fault pointer = .error (fault offset) := by
  unfold check
  cases pointer with
  | none => exact .inl ⟨rfl, nofun⟩
  | some offset =>
    dsimp only
    split
    · rename_i hinside
      refine .inl ⟨rfl, ?_⟩
      rintro _ ⟨⟩
      exact hinside
    · rename_i hpast
      exact .inr ⟨offset, rfl, Nat.not_le.mp hpast, rfl⟩

theorem mapM_check_cases (fault : Part → Nat → HeaderFault) (pointer : Part → Option Nat)
    (parts : List Part) :
    (parts.mapM (fun part => check last (fault part) (pointer part)) = .ok (parts.map pointer) ∧
        ∀ part ∈ parts, ∀ offset, pointer part = some offset → offset ≤ last) ∨
      ∃ part ∈ parts, ∃ offset, pointer part = some offset ∧ last < offset ∧
        parts.mapM (fun part => check last (fault part) (pointer part)) =
          .error (fault part offset) := by
  induction parts with
  | nil => exact .inl ⟨rfl, by simp⟩
  | cons part parts ih =>
    simp only [List.mapM_cons]
    rcases check_cases last (fault part) (pointer part) with
      ⟨hcheck, hinside⟩ | ⟨offset, hoffset, hpast, hcheck⟩
    · rcases ih with ⟨hrest, hothers⟩ | ⟨other, hother, offset, hoffset, hpast, hrest⟩
      · refine .inl ⟨?_, List.forall_mem_cons.mpr ⟨hinside, hothers⟩⟩
        rw [hcheck, hrest]
        rfl
      · refine .inr ⟨other, List.mem_cons_of_mem part hother, offset, hoffset, hpast, ?_⟩
        rw [hcheck, hrest]
        rfl
    · refine .inr ⟨part, List.mem_cons_self, offset, hoffset, hpast, ?_⟩
      rw [hcheck]
      rfl

end Check

variable {data : List UInt8}

theorem parse_of_size_le (h : size ≤ data.length) : parse data =
    (Part.all.mapM fun part => check (data.length - 1)
      (fun offset => .partPastEnd part offset data.length) (pointer? data part.index)).bind
        fun parts => (check (data.length - 1)
          (fun offset => .rhythmTablePastEnd offset data.length) (pointer? data rhythmSlot)).bind
            fun rhythmTable => (check data.length
              (fun offset => .voiceTablePastEnd offset data.length) (pointer? data voiceSlot)).bind
                fun voiceTable =>
                  .ok { version := data.headD 0, parts, rhythmTable, voiceTable } := by
  unfold parse
  split
  · cases h
  · dsimp only
    rw [if_neg (Nat.not_lt.mpr h)]
    rfl

theorem parse_of_lt_size (h : data.length < size) : parse data = .error (.short data.length) := by
  unfold parse
  split
  · rfl
  · dsimp only
    rw [if_pos h]
    rfl

theorem pointsInside_of_le (hsize : size ≤ data.length)
    (hparts : ∀ part ∈ Part.all, ∀ offset, pointer? data part.index = some offset →
      offset ≤ data.length - 1)
    (hrhythm : ∀ offset, pointer? data rhythmSlot = some offset → offset ≤ data.length - 1)
    (hvoices : ∀ offset, pointer? data voiceSlot = some offset → offset ≤ data.length) :
    PointsInside data where
  size_le := hsize
  table := by
    intro slot hslot hstored
    have hpos : 0 < data.length := Nat.lt_of_lt_of_le (by decide) hsize
    have hpointer := pointer?_eq_some_iff.mpr ⟨hstored, rfl⟩
    have hslots : ∀ slot < 12, slot = rhythmSlot ∨ ∃ part ∈ Part.all, part.index = slot := by
      decide
    have hle : stored data slot + 1 ≤ data.length - 1 := by
      rcases hslots slot hslot with rfl | ⟨part, hpart, rfl⟩
      · exact hrhythm _ hpointer
      · exact hparts part hpart _ hpointer
    omega
  voiceTable := fun hstored => hvoices _ (pointer?_eq_some_iff.mpr ⟨hstored, rfl⟩)

/-- A header is read if it points inside the data. Otherwise it is told what is wrong. -/
theorem parse_cases (data : List UInt8) :
    (parse data = .ok (ofBytes data) ∧ PointsInside data) ∨
      ∃ fault, parse data = .error fault ∧ fault.Tells data := by
  rcases Nat.lt_or_ge data.length size with hshort | hsize
  · exact .inr ⟨_, parse_of_lt_size hshort, rfl, hshort⟩
  rw [parse_of_size_le hsize]
  rcases mapM_check_cases (data.length - 1) (fun part offset => .partPastEnd part offset data.length)
    (fun part => pointer? data part.index) Part.all with
    ⟨hchecked, hparts⟩ | ⟨part, hpart, offset, hoffset, hpast, hchecked⟩
  · rcases check_cases (data.length - 1) (fun offset => .rhythmTablePastEnd offset data.length)
      (pointer? data rhythmSlot) with ⟨htable, hrhythm⟩ | ⟨offset, hoffset, hpast, htable⟩
    · rcases check_cases data.length (fun offset => .voiceTablePastEnd offset data.length)
        (pointer? data voiceSlot) with ⟨hvoice, hvoices⟩ | ⟨offset, hoffset, hpast, hvoice⟩
      · refine .inl ⟨?_, pointsInside_of_le hsize hparts hrhythm hvoices⟩
        rw [hchecked, htable, hvoice]
        rfl
      · refine .inr ⟨.voiceTablePastEnd offset data.length, ?_, hoffset, rfl, hpast⟩
        rw [hchecked, htable, hvoice]
        rfl
    · refine .inr ⟨.rhythmTablePastEnd offset data.length, ?_, hoffset, rfl,
        Nat.le_of_pred_lt hpast⟩
      rw [hchecked, htable]
      rfl
  · refine .inr ⟨.partPastEnd part offset data.length, ?_, hpart, hoffset, rfl,
      Nat.le_of_pred_lt hpast⟩
    rw [hchecked]
    rfl

theorem not_pointsInside_of_tells {fault : HeaderFault} (h : fault.Tells data) :
    ¬PointsInside data := by
  intro hinside
  cases fault with
  | short size =>
    obtain ⟨rfl, hshort⟩ := h
    exact Nat.not_le.mpr hshort hinside.size_le
  | partPastEnd part offset size =>
    obtain ⟨hpart, hpointer, rfl, hpast⟩ := h
    obtain ⟨hstored, rfl⟩ := pointer?_eq_some_iff.mp hpointer
    exact Nat.not_lt.mpr hpast (hinside.table _ (index_lt_of_mem_all part hpart) hstored)
  | rhythmTablePastEnd offset size =>
    obtain ⟨hpointer, rfl, hpast⟩ := h
    obtain ⟨hstored, rfl⟩ := pointer?_eq_some_iff.mp hpointer
    exact Nat.not_lt.mpr hpast (hinside.table _ (by decide) hstored)
  | voiceTablePastEnd offset size =>
    obtain ⟨hpointer, rfl, hpast⟩ := h
    obtain ⟨hstored, rfl⟩ := pointer?_eq_some_iff.mp hpointer
    exact Nat.not_le.mpr hpast (hinside.voiceTable hstored)

/-! ## Ranges -/

variable {h : Header} {total start : Nat}

theorem partStop_cases (h : Header) (total start : Nat) :
    (∃ next, some next ∈ h.parts ∧ start < next ∧ h.partStop total start = next ∧
        ∀ other, some other ∈ h.parts → start < other → next ≤ other) ∨
      (∀ other, some other ∈ h.parts → other ≤ start) ∧
        h.partStop total start = (h.rhythmTable.filter (start < ·)).getD total := by
  have hlater {other : Nat} : other ∈ (h.parts.filterMap id).filter (start < ·) ↔
      some other ∈ h.parts ∧ start < other := by
    simp
  unfold partStop
  cases hnext : ((h.parts.filterMap id).filter (start < ·)).min? with
  | some next =>
    obtain ⟨hmem, hleast⟩ := List.min?_eq_some_iff.mp hnext
    obtain ⟨hpart, hlt⟩ := hlater.mp hmem
    exact .inl ⟨next, hpart, hlt, rfl, fun other hother hafter =>
      hleast other (hlater.mpr ⟨hother, hafter⟩)⟩
  | none =>
    rw [List.min?_eq_none_iff] at hnext
    refine .inr ⟨?_, rfl⟩
    intro other hother
    apply Nat.le_of_not_lt
    intro hafter
    have hmem := hlater.mpr ⟨hother, hafter⟩
    rw [hnext] at hmem
    cases hmem

theorem mem_partRanges {r : PartRange} : r ∈ h.partRanges total ↔
    r.part ∈ Part.all ∧ h.part? r.part = some r.start ∧ r.stop = h.partStop total r.start := by
  unfold partRanges
  rw [List.mem_filterMap]
  constructor
  · rintro ⟨part, hpart, hrange⟩
    obtain ⟨start, hstart, rfl⟩ := Option.map_eq_some_iff.mp hrange
    exact ⟨hpart, hstart, rfl⟩
  · rintro ⟨hpart, hstart, hstop⟩
    refine ⟨r.part, hpart, ?_⟩
    rw [hstart, Option.map_some, ← hstop]

theorem part?_ofBytes {part : Part} (hpart : part ∈ Part.all) :
    (ofBytes data).part? part = pointer? data part.index := by
  have hindex : ∀ part ∈ Part.all, Part.all[part.index]? = some part := by decide
  rw [part?, ofBytes, List.getElem?_map, hindex part hpart]
  rfl

theorem some_mem_parts_ofBytes {offset : Nat} : some offset ∈ (ofBytes data).parts ↔
    ∃ r ∈ (ofBytes data).partRanges data.length, r.start = offset := by
  constructor
  · intro hmem
    obtain ⟨part, hpart, hpointer⟩ := List.mem_map.mp hmem
    refine ⟨⟨part, offset, (ofBytes data).partStop data.length offset⟩, ?_, rfl⟩
    rw [mem_partRanges, part?_ofBytes hpart]
    exact ⟨hpart, hpointer, rfl⟩
  · rintro ⟨r, hr, rfl⟩
    obtain ⟨hpart, hstart, -⟩ := mem_partRanges.mp hr
    rw [part?_ofBytes hpart] at hstart
    exact List.mem_map.mpr ⟨r.part, hpart, hstart⟩

theorem map_part_partRanges : ((ofBytes data).partRanges data.length).map PartRange.part =
    Part.all.filter fun part => stored data part.index ≠ 0 := by
  unfold partRanges
  rw [List.map_filterMap, ← List.filterMap_eq_filter]
  apply List.filterMap_congr
  intro part hpart
  rw [part?_ofBytes hpart, pointer?_eq]
  by_cases hstored : stored data part.index = 0
  · simp [Option.guard, hstored]
  · simp [Option.guard, hstored]

section Ranges

variable {r s : PartRange}

theorem start_of_mem_partRanges (hr : r ∈ (ofBytes data).partRanges data.length) :
    stored data r.part.index ≠ 0 ∧ r.start = stored data r.part.index + 1 := by
  obtain ⟨hpart, hstart, -⟩ := mem_partRanges.mp hr
  rw [part?_ofBytes hpart] at hstart
  exact pointer?_eq_some_iff.mp hstart

theorem PointsInside.start_lt (hinside : PointsInside data)
    (hr : r ∈ (ofBytes data).partRanges data.length) : r.start < data.length := by
  obtain ⟨hstored, hstart⟩ := start_of_mem_partRanges hr
  rw [hstart]
  exact hinside.table _ (index_lt_of_mem_all _ (mem_partRanges.mp hr).1) hstored

theorem stop_cases (hr : r ∈ (ofBytes data).partRanges data.length) :
    (∃ next ∈ (ofBytes data).partRanges data.length, r.start < next.start ∧ r.stop = next.start ∧
        ∀ s ∈ (ofBytes data).partRanges data.length, r.start < s.start → next.start ≤ s.start) ∨
      (∀ s ∈ (ofBytes data).partRanges data.length, s.start ≤ r.start) ∧
        r.stop = if r.start < stored data 11 + 1 ∧ stored data 11 ≠ 0 then stored data 11 + 1
          else data.length := by
  rw [(mem_partRanges.mp hr).2.2]
  rcases (ofBytes data).partStop_cases data.length r.start with
    ⟨offset, hoffset, hlt, hstop, hleast⟩ | ⟨hlast, hstop⟩
  · obtain ⟨next, hnext, rfl⟩ := some_mem_parts_ofBytes.mp hoffset
    exact .inl ⟨next, hnext, hlt, hstop, fun s hs =>
      hleast s.start (some_mem_parts_ofBytes.mpr ⟨s, hs, rfl⟩)⟩
  · refine .inr ⟨fun s hs => hlast s.start (some_mem_parts_ofBytes.mpr ⟨s, hs, rfl⟩), ?_⟩
    have hrhythm : (ofBytes data).rhythmTable = pointer? data 11 := rfl
    rw [hstop, hrhythm, pointer?_eq]
    by_cases hstored : stored data 11 = 0
    · rw [if_pos hstored, if_neg fun h => h.2 hstored]
      rfl
    · rw [if_neg hstored, Option.filter_some]
      by_cases hafter : r.start < stored data 11 + 1
      · rw [if_pos (decide_eq_true hafter), if_pos ⟨hafter, hstored⟩]
        rfl
      · rw [if_neg (by simpa using hafter), if_neg fun h => hafter h.1]
        rfl

theorem PointsInside.bounds (hinside : PointsInside data)
    (hr : r ∈ (ofBytes data).partRanges data.length) :
    r.start < r.stop ∧ r.stop ≤ data.length := by
  have hstart := hinside.start_lt hr
  rcases stop_cases hr with ⟨next, hnext, hlt, hstop, -⟩ | ⟨-, hstop⟩
  · have hend := hinside.start_lt hnext
    omega
  · rw [hstop]
    split
    · rename_i hrhythm
      exact ⟨hrhythm.1, Nat.le_of_lt (hinside.table 11 (by decide) hrhythm.2)⟩
    · exact ⟨hstart, Nat.le_refl _⟩

theorem stop_le_of_start_lt (hr : r ∈ (ofBytes data).partRanges data.length)
    (hs : s ∈ (ofBytes data).partRanges data.length) (hlt : r.start < s.start) :
    r.stop ≤ s.start := by
  rcases stop_cases hr with ⟨next, -, -, hstop, hleast⟩ | ⟨hlast, -⟩
  · rw [hstop]
    exact hleast s hs hlt
  · exact absurd hlt (Nat.not_lt.mpr (hlast s hs))

theorem stop_eq_of_start_eq (hr : r ∈ (ofBytes data).partRanges data.length)
    (hs : s ∈ (ofBytes data).partRanges data.length) (heq : r.start = s.start) :
    r.stop = s.stop := by
  rw [(mem_partRanges.mp hr).2.2, (mem_partRanges.mp hs).2.2, heq]

theorem start_eq_of_within (hr : r ∈ (ofBytes data).partRanges data.length)
    (hs : s ∈ (ofBytes data).partRanges data.length) (hle : r.start ≤ s.start)
    (hlt : s.start < r.stop) : s.start = r.start := by
  rcases Nat.eq_or_lt_of_le hle with heq | hafter
  · exact heq.symm
  · exact absurd hlt (Nat.not_lt.mpr (stop_le_of_start_lt hr hs hafter))

theorem same_or_apart (hr : r ∈ (ofBytes data).partRanges data.length)
    (hs : s ∈ (ofBytes data).partRanges data.length) :
    (r.start = s.start ∧ r.stop = s.stop) ∨
      (r.start ≠ s.start ∧ (r.stop ≤ s.start ∨ s.stop ≤ r.start)) := by
  rcases Nat.lt_trichotomy r.start s.start with hlt | heq | hgt
  · exact .inr ⟨Nat.ne_of_lt hlt, .inl (stop_le_of_start_lt hr hs hlt)⟩
  · exact .inl ⟨heq, stop_eq_of_start_eq hr hs heq⟩
  · exact .inr ⟨Nat.ne_of_gt hgt, .inr (stop_le_of_start_lt hs hr hgt)⟩

theorem stop_of_last (hr : r ∈ (ofBytes data).partRanges data.length)
    (hlast : ∀ s ∈ (ofBytes data).partRanges data.length, s.start ≤ r.start) :
    r.stop = if r.start < stored data 11 + 1 ∧ stored data 11 ≠ 0 then stored data 11 + 1
      else data.length := by
  rcases stop_cases hr with ⟨next, hnext, hlt, -, -⟩ | ⟨-, hstop⟩
  · exact absurd hlt (Nat.not_lt.mpr (hlast next hnext))
  · exact hstop

end Ranges

end Header

/-! ## Scores -/

theorem convert_of_parse_error {data : List UInt8} {fault : HeaderFault}
    (h : Header.parse data = .error fault) {o : Options} (ho : o.fault? = none) (codec : Codec) :
    convert o data codec = .error (.header fault) := by
  unfold convert Performance.ofData Image.parse
  rw [ho, h]
  rfl

/-- A header is read exactly if it points inside the data. Any other one is a fault that says what is
wrong, and no conversion goes on after it. Of a header that is read, the parts that have a pointer
have ranges of at least one byte inside the data, in the order of the parts. Parts that start at one
place have one range, and all others are apart, so no range holds the start of another one but at
its own start. A range that nothing starts after ends at the rhythm table, if that comes later, and
at the end of the data otherwise. -/
theorem parse_partRanges (data : List UInt8) :
    ((∃ h, Header.parse data = .ok h) ↔ Header.PointsInside data) ∧
      (∀ fault, Header.parse data = .error fault → fault.Tells data ∧
        ∀ o : Options, o.fault? = none →
          ∀ codec, convert o data codec = .error (.header fault)) ∧
      ∀ h, Header.parse data = .ok h →
        let ranges := h.partRanges data.length
        (ranges.map PartRange.part =
          Part.all.filter fun part => Header.stored data part.index ≠ 0) ∧
        (∀ r ∈ ranges, r.start = Header.stored data r.part.index + 1 ∧ r.start < r.stop ∧
          r.stop ≤ data.length) ∧
        (∀ r ∈ ranges, ∀ s ∈ ranges, (r.start = s.start ∧ r.stop = s.stop) ∨
          (r.start ≠ s.start ∧ (r.stop ≤ s.start ∨ s.stop ≤ r.start))) ∧
        (∀ r ∈ ranges, ∀ s ∈ ranges, r.start ≤ s.start → s.start < r.stop →
          s.start = r.start) ∧
        ∀ r ∈ ranges, (∀ s ∈ ranges, s.start ≤ r.start) → r.stop =
          if r.start < Header.stored data 11 + 1 ∧ Header.stored data 11 ≠ 0
            then Header.stored data 11 + 1 else data.length := by
  rcases Header.parse_cases data with ⟨hparse, hinside⟩ | ⟨fault, hparse, htells⟩
  · refine ⟨⟨fun _ => hinside, fun _ => ⟨_, hparse⟩⟩, ?_, ?_⟩
    · intro fault hfault
      rw [hparse] at hfault
      cases hfault
    · intro h hh
      rw [hparse] at hh
      cases hh
      exact ⟨Header.map_part_partRanges,
        fun r hr => ⟨(Header.start_of_mem_partRanges hr).2, hinside.bounds hr⟩,
        fun r hr s hs => Header.same_or_apart hr hs,
        fun r hr s hs => Header.start_eq_of_within hr hs,
        fun r hr => Header.stop_of_last hr⟩
  · refine ⟨⟨?_, fun hinside => absurd hinside (Header.not_pointsInside_of_tells htells)⟩, ?_, ?_⟩
    · rintro ⟨h, hh⟩
      rw [hparse] at hh
      cases hh
    · intro told htold
      rw [hparse] at htold
      cases htold
      exact ⟨htells, fun o ho => convert_of_parse_error hparse ho⟩
    · intro h hh
      rw [hparse] at hh
      cases hh

/-- A score of 40 bytes. Parts A and B start at byte 31, part C inside of the header, part G at byte
28, and the rhythm table at byte 35. -/
def sharedStarts : List UInt8 :=
  [0, 30, 0, 30, 0, 1, 0, 0, 0, 0, 0, 0, 0, 27, 0, 0, 0, 0, 0, 0, 0, 0, 0, 34, 0, 0, 0] ++
    List.replicate 13 0x80

theorem parse_partRanges_sharedStarts :
    (∃ h a b c g, Header.parse sharedStarts = .ok h ∧ h.partRanges 40 = [a, b, c, g] ∧
      a.stop = b.stop ∧ a.stop = 35 ∧ c.start = 2 ∧ (c.stop ≤ g.start ∨ g.stop ≤ c.start)) ∧
      convert {} (sharedStarts.take 34) = .error (.header (.rhythmTablePastEnd 35 34)) := by
  constructor
  · obtain ⟨hread, -, hranges⟩ := parse_partRanges sharedStarts
    obtain ⟨h, hh⟩ := hread.mpr ⟨by decide, by decide, by decide⟩
    have hlist : h.partRanges sharedStarts.length =
        [⟨⟨0⟩, 31, 35⟩, ⟨⟨1⟩, 31, 35⟩, ⟨⟨2⟩, 2, 28⟩, ⟨⟨6⟩, 28, 31⟩] := by
      have hall : (Header.parse sharedStarts).toOption.map (·.partRanges sharedStarts.length) =
          some [⟨⟨0⟩, 31, 35⟩, ⟨⟨1⟩, 31, 35⟩, ⟨⟨2⟩, 2, 28⟩, ⟨⟨6⟩, 28, 31⟩] := by
        decide
      rw [hh] at hall
      exact Option.some.inj hall
    have hproperties := hranges h hh
    dsimp only at hproperties
    rw [hlist] at hproperties
    obtain ⟨-, hbounds, hpairs, -, hlast⟩ := hproperties
    refine ⟨h, _, _, _, _, hh, hlist, ?_, ?_, ?_, ?_⟩
    · have hshared := hpairs ⟨⟨0⟩, 31, 35⟩ (by decide) ⟨⟨1⟩, 31, 35⟩ (by decide)
      exact (hshared.resolve_right fun hapart => hapart.1 rfl).2
    · exact hlast ⟨⟨0⟩, 31, 35⟩ (by decide) (by decide)
    · exact (hbounds ⟨⟨2⟩, 2, 28⟩ (by decide)).1
    · have hapart := hpairs ⟨⟨2⟩, 2, 28⟩ (by decide) ⟨⟨6⟩, 28, 31⟩ (by decide)
      exact (hapart.resolve_left fun hshared => absurd hshared.1 (by decide)).2
  · obtain ⟨-, hfault, -⟩ := parse_partRanges (sharedStarts.take 34)
    exact (hfault _ (by decide)).2 {} (by decide) _

end ChipScore
