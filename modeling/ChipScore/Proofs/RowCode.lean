import ChipScore.Tracker.RowCode
import Mathlib.Tactic.SplitIfs
import Mathlib.Tactic.IntervalCases

/-!
# Pattern rows survive their code

Writing rows and reading them back gives the rows again, cut or filled up to the length that is asked
for. Reading never gives a row that writing cannot hold, so what was read once is a fixed point.
-/

namespace ChipScore.Tracker.RowCode

/-! ## Runs of empty rows -/

theorem decodeFrom_run {bytes more : List UInt8} {count : Nat}
    (h : ∀ missing rows, decodeFrom missing 0 rows bytes = decodeFrom missing count rows more)
    (missing run : Nat) (rows : List PatternRow) :
    decodeFrom missing run rows bytes = decodeFrom missing (run + count) rows more := by
  induction run generalizing missing rows with
  | zero => rw [h, Nat.zero_add]
  | succ run ih =>
    cases missing with
    | zero => simp [decodeFrom]
    | succ missing => rw [Nat.add_right_comm, decodeFrom, decodeFrom, ih]

theorem decodeFrom_skip {b : UInt8} (hskip : 0x80 ≤ b) (hend : b ≠ endMark) (missing run : Nat)
    (rows : List PatternRow) (bytes : List UInt8) :
    decodeFrom missing run rows (b :: bytes) =
      decodeFrom missing (run + (b.toNat - 0x80 + 2)) rows bytes := by
  refine decodeFrom_run (fun missing rows => ?_) missing run rows
  cases missing with
  | zero => simp [decodeFrom]
  | succ missing => rw [decodeFrom, decodeFrom, if_neg hend, if_pos hskip]

theorem decodeFrom_zero (missing run : Nat) (rows : List PatternRow) (bytes : List UInt8) :
    decodeFrom missing run rows (0 :: bytes) = decodeFrom missing (run + 1) rows bytes := by
  refine decodeFrom_run (fun missing rows => ?_) missing run rows
  cases missing with
  | zero => simp [decodeFrom]
  | succ missing => rw [decodeFrom, decodeFrom, if_neg (by decide), if_neg (by decide), if_pos rfl]

theorem decodeFrom_replicate (count missing run : Nat) (rows : List PatternRow)
    (bytes : List UInt8) :
    decodeFrom missing run rows (List.replicate count 0xFE ++ bytes) =
      decodeFrom missing (run + longestRun * count) rows bytes := by
  induction count generalizing run with
  | zero => rfl
  | succ count ih =>
    rw [List.replicate_succ, List.cons_append, decodeFrom_skip (by decide) (by decide), ih,
      Nat.add_assoc, Nat.mul_succ, Nat.add_comm (longestRun * count)]
    rfl

theorem decodeFrom_encodeRun (count missing run : Nat) (rows : List PatternRow)
    (bytes : List UInt8) :
    decodeFrom missing run rows (encodeRun count ++ bytes) =
      decodeFrom missing (run + count) rows bytes := by
  have hcount := Nat.div_add_mod count longestRun
  have hlt : count % longestRun < 128 := Nat.mod_lt count (by decide)
  rw [encodeRun, List.append_assoc, decodeFrom_replicate]
  match hmod : count % longestRun with
  | 0 =>
    rw [List.nil_append, ← Nat.add_zero (longestRun * _), ← hmod, hcount]
  | 1 =>
    rw [hmod] at hcount
    rw [List.singleton_append, decodeFrom_zero, Nat.add_assoc, hcount]
  | n + 2 =>
    rw [hmod] at hcount hlt
    have hbyte : (UInt8.ofNat (0x80 + n)).toNat = 0x80 + n :=
      UInt8.toNat_ofNat_of_lt' (by rw [UInt8.size]; omega)
    rw [List.singleton_append, decodeFrom_skip, hbyte, Nat.add_sub_cancel_left, Nat.add_assoc,
      hcount]
    · rw [UInt8.le_iff_toNat_le, hbyte]
      exact Nat.le_add_right _ _
    · intro hend
      have := congrArg UInt8.toNat hend
      rw [hbyte] at this
      simp [endMark] at this
      omega

theorem decodeFrom_endMark (missing run : Nat) (rows : List PatternRow) (bytes : List UInt8) :
    decodeFrom missing run rows (endMark :: bytes) =
      some (rows.reverse ++ List.replicate missing .empty) := by
  induction run generalizing missing rows with
  | zero =>
    cases missing with
    | zero => simp [decodeFrom]
    | succ missing => rw [decodeFrom, if_pos rfl, List.reverseAux_eq]
  | succ run ih =>
    cases missing with
    | zero => simp [decodeFrom]
    | succ missing => rw [decodeFrom, ih, List.reverse_cons, List.append_assoc]; rfl

/-! ## Single rows -/

theorem Take.pure_apply {α : Type} (a : α) (bytes : List UInt8) :
    (pure a : Take α) bytes = some (a, bytes) := rfl

theorem nextIf_isSome (cell : Option UInt8) (bytes : List UInt8) :
    nextIf cell.isSome (cell.toList ++ bytes) = some (cell, bytes) := by
  cases cell <;> rfl

theorem takeEffects_there {bits slot : Nat} (hcode : bits.testBit (2 * slot) = true)
    (hvalue : bits.testBit (2 * slot + 1) = true) (count : Nat) (e : Effect) (bytes : List UInt8) :
    takeEffects bits slot (count + 1) (e.code :: e.value :: bytes) =
      (takeEffects bits (slot + 1) count bytes).map fun taken => (e :: taken.1, taken.2) := by
  simp only [takeEffects, hcode, hvalue]
  cases h : takeEffects bits (slot + 1) count bytes <;>
    simp [nextIf, next, bind, StateT.bind, Functor.map, StateT.map, pure, h]
  rfl

theorem takeEffects_gone {bits slot : Nat} (hcode : bits.testBit (2 * slot) = false)
    (hvalue : bits.testBit (2 * slot + 1) = false) (count : Nat) (bytes : List UInt8) :
    takeEffects bits slot (count + 1) bytes = takeEffects bits (slot + 1) count bytes := by
  simp only [takeEffects, hcode, hvalue]
  cases h : takeEffects bits (slot + 1) count bytes <;>
    simp [nextIf, bind, StateT.bind, Take.pure_apply, h]

theorem takeEffects_none {bits slot : Nat} (hgone : ∀ i, 2 * slot ≤ i → bits.testBit i = false)
    (count : Nat) (bytes : List UInt8) : takeEffects bits slot count bytes = some ([], bytes) := by
  induction count generalizing slot with
  | zero => rfl
  | succ count ih =>
    rw [takeEffects_gone (hgone _ (Nat.le_refl _)) (hgone _ (Nat.le_succ _))]
    exact ih fun i hi => hgone i (by omega)

theorem takeEffects_of_testBit {bits : Nat} (effects : List Effect) (slot more : Nat)
    (bytes : List UInt8)
    (hbits : ∀ i, bits.testBit i = decide (i < 2 * (slot + effects.length))) :
    takeEffects bits slot (effects.length + more)
      (effects.flatMap (fun e => [e.code, e.value]) ++ bytes) = some (effects, bytes) := by
  induction effects generalizing slot with
  | nil =>
    rw [List.length_nil, Nat.zero_add]
    apply takeEffects_none
    intro i hi
    rw [hbits, decide_eq_false_iff_not]
    simpa using hi
  | cons e effects ih =>
    have hthere : ∀ i, i < 2 * slot + 2 → bits.testBit i = true := by
      intro i hi
      rw [hbits, decide_eq_true_iff, List.length_cons]
      omega
    have hrest := ih (slot + 1) fun i => by
      rw [hbits, List.length_cons, Nat.add_assoc, Nat.add_comm 1]
    rw [List.length_cons, Nat.add_right_comm]
    refine (takeEffects_there (hthere _ (by omega)) (hthere _ (by omega)) _ e
      (effects.flatMap (fun e => [e.code, e.value]) ++ bytes)).trans ?_
    rw [hrest]
    rfl

theorem effectBits_eq (count : Nat) : effectBits count = 2 ^ (2 * count) - 1 := by
  induction count with
  | zero => rfl
  | succ count ih =>
    have : 0 < 2 ^ (2 * count) := Nat.two_pow_pos _
    rw [effectBits, ih, Nat.mul_succ, Nat.pow_add]
    omega

theorem testBit_effectBits (count i : Nat) :
    (effectBits count).testBit i = decide (i < 2 * count) := by
  rw [effectBits_eq, Nat.testBit_two_pow_sub_one]

/-- What a row's first mask says of the cells before the effects. -/
def cellBits (row : PatternRow) : Nat :=
  (if row.note.isSome then 1 else 0) + (if row.instrument.isSome then 2 else 0) +
    (if row.volume.isSome then 4 else 0)

def firstMask (cells effects : Nat) : Nat :=
  cells + (if effects = 0 then 0 else 0x18) + (if effects ≤ 1 then 0 else 0x20) +
    (if effects ≤ 4 then 0 else 0x40)

def lowMask (effects : Nat) : Option UInt8 :=
  if 1 < effects then some (UInt8.ofNat (effectBits (min effects 4))) else none

def highMask (effects : Nat) : Option UInt8 :=
  if 4 < effects then some (UInt8.ofNat (effectBits (effects - 4))) else none

theorem encodeMask_eq (cells : Nat) {effects : Nat} (h : effects ≤ maxEffects) :
    encodeMask cells effects =
      UInt8.ofNat (firstMask cells effects) ::
        ((lowMask effects).toList ++ (highMask effects).toList) := by
  unfold maxEffects at h
  interval_cases effects <;> rfl

theorem masks_eq {cells effects : Nat} (hcells : cells < 8) (heffects : effects ≤ maxEffects) :
    ((lowMask effects).getD 0).toNat + 256 * ((highMask effects).getD 0).toNat |||
      firstMask cells effects / 8 % 4 = effectBits effects := by
  unfold maxEffects at heffects
  interval_cases cells <;> interval_cases effects <;> rfl

theorem cellBits_lt (row : PatternRow) : cellBits row < 8 := by
  unfold cellBits
  split_ifs <;> decide

theorem firstMask_lt {cells : Nat} (h : cells < 8) (effects : Nat) :
    firstMask cells effects < 0x80 := by
  unfold firstMask
  split_ifs <;> omega

theorem firstMask_pos {cells effects : Nat} (h : 0 < cells ∨ 0 < effects) :
    0 < firstMask cells effects := by
  unfold firstMask
  split_ifs <;> omega

theorem testBit_firstMask {cells effects : Nat} (hcells : cells < 8)
    (heffects : effects ≤ maxEffects) :
    (∀ i < 3, (firstMask cells effects).testBit i = cells.testBit i) ∧
      (firstMask cells effects).testBit 5 = (lowMask effects).isSome ∧
      (firstMask cells effects).testBit 6 = (highMask effects).isSome := by
  unfold maxEffects at heffects
  interval_cases cells <;> interval_cases effects <;> decide

theorem testBit_cellBits (row : PatternRow) :
    (cellBits row).testBit 0 = row.note.isSome ∧ (cellBits row).testBit 1 = row.instrument.isSome ∧
      (cellBits row).testBit 2 = row.volume.isSome := by
  unfold cellBits
  cases row.note.isSome <;> cases row.instrument.isSome <;> cases row.volume.isSome <;> decide

theorem encodeRow_eq {row : PatternRow} (h : row.effects.length ≤ maxEffects) :
    encodeRow row = UInt8.ofNat (firstMask (cellBits row) row.effects.length) ::
      ((lowMask row.effects.length).toList ++ ((highMask row.effects.length).toList ++
        (row.note.toList ++ (row.instrument.toList ++ (row.volume.toList ++
          row.effects.flatMap fun e => [e.code, e.value]))))) := by
  simp only [encodeRow, List.take_of_length_le h]
  change encodeMask (cellBits row) row.effects.length ++ _ ++ _ ++ _ ++ _ = _
  rw [encodeMask_eq _ h]
  simp

theorem takeRow_of_row {row : PatternRow} (h : row.effects.length ≤ maxEffects)
    (bytes : List UInt8) :
    takeRow (firstMask (cellBits row) row.effects.length)
      ((lowMask row.effects.length).toList ++ ((highMask row.effects.length).toList ++
        (row.note.toList ++ (row.instrument.toList ++ (row.volume.toList ++
          (row.effects.flatMap (fun e => [e.code, e.value]) ++ bytes)))))) = some (row, bytes) := by
  have hcells := cellBits_lt row
  obtain ⟨hbits, hlow, hhigh⟩ := testBit_firstMask hcells h
  obtain ⟨hnote, hinstrument, hvolume⟩ := testBit_cellBits row
  have heffects := takeEffects_of_testBit row.effects 0 (maxEffects - row.effects.length) bytes
    (by simpa using testBit_effectBits row.effects.length)
  rw [Nat.add_sub_cancel' h] at heffects
  simp only [takeRow, bind, StateT.bind, Take.pure_apply, Option.bind, hlow, hhigh, nextIf_isSome,
    hbits 0 (by decide), hnote, hbits 1 (by decide), hinstrument, hbits 2 (by decide), hvolume,
    masks_eq hcells h, heffects]

/-! ## Lists of rows -/

/-- Cuts rows to a length, or fills them up with empty ones. -/
def resize (length : Nat) (rows : List PatternRow) : List PatternRow :=
  rows.take length ++ List.replicate (length - rows.length) .empty

@[simp] theorem resize_zero (rows : List PatternRow) : resize 0 rows = [] := by
  simp [resize]

@[simp] theorem resize_nil (length : Nat) :
    resize length [] = List.replicate length .empty := by
  simp [resize]

@[simp] theorem resize_succ_cons (length : Nat) (row : PatternRow) (rows : List PatternRow) :
    resize (length + 1) (row :: rows) = row :: resize length rows := by
  simp [resize]

theorem resize_replicate (length run : Nat) :
    resize length (List.replicate run .empty) = List.replicate length .empty := by
  rw [resize, List.take_replicate, List.length_replicate, List.replicate_append_replicate]
  congr 1
  omega

theorem resize_of_length {length : Nat} {rows : List PatternRow} (h : rows.length = length) :
    resize length rows = rows := by
  simp [resize, ← h]

/-- The bytes stand for these rows, and for empty rows after them. -/
def Denotes (bytes : List UInt8) (rows : List PatternRow) : Prop :=
  ∀ missing done, decodeFrom missing 0 done bytes = some (done.reverse ++ resize missing rows)

theorem Denotes.run {bytes : List UInt8} {rows : List PatternRow} (h : Denotes bytes rows)
    (missing run : Nat) (done : List PatternRow) :
    decodeFrom missing run done bytes =
      some (done.reverse ++ resize missing (List.replicate run .empty ++ rows)) := by
  induction run generalizing missing done with
  | zero => exact h missing done
  | succ run ih =>
    cases missing with
    | zero => simp [decodeFrom]
    | succ missing =>
      rw [decodeFrom, ih, List.replicate_succ, List.cons_append, resize_succ_cons,
        List.reverse_cons, List.append_assoc]
      rfl

theorem eq_empty_of_isEmpty {row : PatternRow} (h : row.isEmpty = true) : row = .empty := by
  obtain ⟨note, instrument, volume, effects⟩ := row
  simp only [Row.isEmpty, Bool.and_eq_true, Option.isNone_iff_eq_none, List.isEmpty_iff] at h
  obtain ⟨⟨⟨rfl, rfl⟩, rfl⟩, rfl⟩ := h
  rfl

theorem isEmpty_iff_masks (row : PatternRow) :
    row.isEmpty = true ↔ cellBits row = 0 ∧ row.effects.length = 0 := by
  obtain ⟨note, instrument, volume, effects⟩ := row
  cases note <;> cases instrument <;> cases volume <;> cases effects <;>
    simp [Row.isEmpty, cellBits]

/-- The first mask of a row with content is told from a run, from a single empty row and from the
end mark. -/
theorem Denotes.row {bytes : List UInt8} {rows : List PatternRow} (h : Denotes bytes rows)
    {row : PatternRow} (heffects : row.effects.length ≤ maxEffects) (hrow : ¬row.isEmpty) :
    Denotes (encodeRow row ++ bytes) (row :: rows) := by
  intro missing done
  cases missing with
  | zero => simp [decodeFrom]
  | succ missing =>
    have hlt := firstMask_lt (cellBits_lt row) row.effects.length
    have hpos : 0 < firstMask (cellBits row) row.effects.length := by
      apply firstMask_pos
      rw [isEmpty_iff_masks] at hrow
      omega
    have hmask : (UInt8.ofNat (firstMask (cellBits row) row.effects.length)).toNat =
        firstMask (cellBits row) row.effects.length :=
      UInt8.toNat_ofNat_of_lt' (by rw [UInt8.size]; omega)
    generalize hb : UInt8.ofNat (firstMask (cellBits row) row.effects.length) = b at hmask
    have hend : b ≠ endMark := by
      rintro rfl
      simp [endMark] at hmask
      omega
    have hrun : ¬0x80 ≤ b := by
      rw [UInt8.le_iff_toNat_le, hmask]
      simpa using hlt
    have hsingle : b ≠ 0 := by
      rintro rfl
      simp at hmask
      omega
    have htake := takeRow_of_row heffects bytes
    rw [encodeRow_eq heffects, hb, List.cons_append, decodeFrom, if_neg hend, if_neg hrun,
      if_neg hsingle, hmask]
    simp only [List.append_assoc, htake]
    rw [h, resize_succ_cons, List.reverse_cons, List.append_assoc]
    rfl

theorem denotes_encodeFrom {rows : List PatternRow}
    (h : ∀ row ∈ rows, row.effects.length ≤ maxEffects) (run : Nat) (more : List UInt8) :
    Denotes (encodeFrom run rows ++ more) (List.replicate run .empty ++ rows) := by
  induction rows generalizing run with
  | nil =>
    intro missing done
    rw [encodeFrom, List.singleton_append, decodeFrom_endMark, List.append_nil, resize_replicate]
  | cons row rows ih =>
    rw [List.forall_mem_cons] at h
    rw [encodeFrom]
    split_ifs with hrow
    · obtain rfl := eq_empty_of_isEmpty hrow
      have := ih h.2 (run + 1)
      rwa [List.replicate_succ', List.append_assoc] at this
    · intro missing done
      rw [List.append_assoc, List.append_assoc, decodeFrom_encodeRun, Nat.zero_add]
      exact (Denotes.row (ih h.2 0) h.1 hrow).run missing run done

theorem decode?_encode_append {rows : List PatternRow}
    (h : ∀ row ∈ rows, row.effects.length ≤ maxEffects) (length : Nat) (more : List UInt8) :
    decode? length (encode rows ++ more) = some (resize length rows) :=
  denotes_encodeFrom h 0 more length []

/-! ## What can be read -/

theorem length_effects_of_takeEffects {bits slot count : Nat} {bytes rest : List UInt8}
    {effects : List Effect} (h : takeEffects bits slot count bytes = some (effects, rest)) :
    effects.length ≤ count := by
  induction count generalizing slot bytes effects rest with
  | zero =>
    cases h
    exact Nat.le_refl 0
  | succ count ih =>
    simp only [takeEffects, bind, StateT.bind, Option.bind_eq_some_iff, Prod.exists] at h
    obtain ⟨code, afterCode, -, value, afterValue, -, others, afterOthers, hothers, hreturn⟩ := h
    have := ih hothers
    split_ifs at hreturn <;> cases hreturn
    · exact Nat.le_succ_of_le this
    · exact Nat.succ_le_succ this

theorem length_effects_of_takeRow {mask : Nat} {bytes rest : List UInt8} {row : PatternRow}
    (h : takeRow mask bytes = some (row, rest)) : row.effects.length ≤ maxEffects := by
  simp only [takeRow, bind, StateT.bind, Option.bind_eq_some_iff, Prod.exists] at h
  obtain ⟨low, _, _, high, _, _, note, _, _, instrument, _, _, volume, _, _, effects, _, heffects,
    hreturn⟩ := h
  cases hreturn
  exact length_effects_of_takeEffects heffects

theorem of_decodeFrom {missing run : Nat} {done rows : List PatternRow} {bytes : List UInt8}
    (h : decodeFrom missing run done bytes = some rows)
    (hdone : ∀ row ∈ done, row.effects.length ≤ maxEffects) :
    rows.length = done.length + missing ∧ ∀ row ∈ rows, row.effects.length ≤ maxEffects := by
  have hempty : ∀ done : List PatternRow, (∀ row ∈ done, row.effects.length ≤ maxEffects) →
      ∀ row ∈ Row.empty :: done, row.effects.length ≤ maxEffects :=
    fun done hdone => List.forall_mem_cons.2 ⟨Nat.zero_le _, hdone⟩
  -- A row that is done is missing no longer.
  have hnext : ∀ {missing : Nat} {row : PatternRow} {done : List PatternRow},
      rows.length = (row :: done).length + missing → rows.length = done.length + (missing + 1) := by
    intro missing row done hlength
    rw [hlength, List.length_cons]
    omega
  fun_induction decodeFrom missing run done bytes with
  | case1 run done bytes =>
    cases h
    simpa using hdone
  | case2 missing run done bytes ih => exact (ih h (hempty done hdone)).imp_left hnext
  | case3 => simp at h
  | case4 missing done bytes =>
    cases h
    rw [List.reverseAux_eq]
    refine ⟨by simp, fun row hrow => ?_⟩
    rw [List.mem_append, List.mem_reverse, List.mem_replicate] at hrow
    rcases hrow with hrow | ⟨-, rfl⟩
    · exact hdone row hrow
    · exact Nat.zero_le _
  | case5 missing done b bytes hend hskip ih => exact (ih h (hempty done hdone)).imp_left hnext
  | case6 missing done bytes hend hskip ih => exact (ih h (hempty done hdone)).imp_left hnext
  | case7 => simp at h
  | case8 missing done b bytes hend hskip hzero row rest htake ih =>
    have hrow := length_effects_of_takeRow htake
    exact (ih h (List.forall_mem_cons.2 ⟨hrow, hdone⟩)).imp_left hnext

theorem of_decode? {length : Nat} {bytes : List UInt8} {rows : List PatternRow}
    (h : decode? length bytes = some rows) :
    rows.length = length ∧ ∀ row ∈ rows, row.effects.length ≤ maxEffects := by
  simpa using of_decodeFrom h (by simp)

/-- Writing and reading gives the rows back at the length that is asked for, and rows that were read
are among those that can be written. -/
theorem decode?_encode :
    (∀ (rows : List PatternRow) (length : Nat), (∀ row ∈ rows, row.effects.length ≤ maxEffects) →
      decode? length (encode rows) = some (resize length rows)) ∧
    (∀ (bytes : List UInt8) (length : Nat) (rows : List PatternRow),
      decode? length bytes = some rows →
        rows.length = length ∧ (∀ row ∈ rows, row.effects.length ≤ maxEffects) ∧
          decode? length (encode rows) = some rows) := by
  have hencode : ∀ (rows : List PatternRow) (length : Nat),
      (∀ row ∈ rows, row.effects.length ≤ maxEffects) →
        decode? length (encode rows) = some (resize length rows) := by
    intro rows length h
    simpa using decode?_encode_append h length []
  refine ⟨hencode, fun bytes length rows h => ?_⟩
  obtain ⟨hlength, heffects⟩ := of_decode? h
  refine ⟨hlength, heffects, ?_⟩
  rw [hencode rows length heffects, resize_of_length hlength]

theorem decode?_encode_fullRow :
    let full : PatternRow :=
      { note := some 0xFF, instrument := some 0, volume := some 0x80,
        effects := List.replicate 8 ⟨0xFF, 0x00⟩ }
    let halves : List PatternRow := [{ effects := [⟨1, 0⟩, ⟨0, 3⟩] }, .empty]
    (∀ row ∈ List.replicate 130 .empty ++ [full], row.effects.length ≤ maxEffects) ∧
      decode? 129 (encode (List.replicate 130 .empty ++ [full])) =
        some (resize 129 (List.replicate 130 .empty ++ [full])) ∧
      decode? 2 [0x28, 0x08, 1, 3, endMark] = some halves ∧
      decode? 2 (encode halves) = some halves := by
  intro full halves
  have hrows : ∀ row ∈ List.replicate 130 .empty ++ [full], row.effects.length ≤ maxEffects := by
    decide +kernel
  have hhalves : decode? 2 [0x28, 0x08, 1, 3, endMark] = some halves := by decide
  exact ⟨hrows, decode?_encode.1 _ 129 hrows, hhalves, (decode?_encode.2 _ 2 _ hhalves).2.2⟩

end ChipScore.Tracker.RowCode
