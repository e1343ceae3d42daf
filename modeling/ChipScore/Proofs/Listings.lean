import ChipScore.Command.Listing
import ChipScore.Proofs.Instructions
import ChipScore.Proofs.Timing

/-!
# Instructions mark their own end

Where an instruction ends can be told from its own bytes, and fewer of them are no instruction. So
the instructions of a listing lie side by side, from the start of their range to its end or to the
first place where there is no instruction.
-/

namespace ChipScore.Command

/-! ## An instruction and no more than that -/

section Decode

variable {kind : PartKind} {op : UInt8} {entry : Entry} {bytes : List UInt8} {i : Instruction}
  {count : Nat}

theorem decodeTabled_take (h : decodeTabled op entry bytes = .ok i) :
    decodeTabled op entry (bytes.take i.operands) = .ok i := by
  obtain ⟨hentry, hlength, hcount, hcommand⟩ := decodeTabled_ok h
  have htake : (bytes.take i.operands).take entry.operands = bytes.take entry.operands := by
    rw [List.take_take, Nat.min_eq_left hentry]
  have htakeAll : (bytes.take i.operands).take i.operands = bytes.take i.operands := by
    rw [List.take_take, Nat.min_self]
  simp only [decodeTabled, htake, ← hcount, htakeAll, ← hcommand, List.length_take]
  rw [if_neg (by omega), if_neg (by omega)]

theorem decodeTabled_cut (h : decodeTabled op entry bytes = .ok i) (hcount : count < i.operands) :
    ∃ n, decodeTabled op entry (bytes.take count) = .error ⟨.truncated op, n⟩ := by
  obtain ⟨-, hlength, hoperands, -⟩ := decodeTabled_ok h
  unfold decodeTabled
  dsimp only
  rcases Nat.lt_or_ge count entry.operands with hfew | hmany
  · refine ⟨1, if_pos ?_⟩
    rw [List.length_take, List.length_take]
    omega
  · -- The first operand is there, so it is known how many there should be.
    have htake : (bytes.take count).take entry.operands = bytes.take entry.operands := by
      rw [List.take_take, Nat.min_eq_left hmany]
    refine ⟨entry.operands + 1, ?_⟩
    rw [htake, ← hoperands, if_neg, if_pos]
    · rw [List.length_take, List.length_take]
      omega
    · rw [List.length_take]
      omega

theorem decode_take (h : decode kind bytes = .ok i) : decode kind (bytes.take i.size) = .ok i := by
  cases bytes with
  | nil => cases h
  | cons op bytes =>
    rw [Instruction.size, List.take_succ_cons]
    simp only [decode] at h ⊢
    split_ifs at h ⊢
    · exact h
    · cases bytes with
      | nil => cases h
      | cons length bytes =>
        cases h
        rfl
    · exact h
    · cases he : entry? op with
      | none =>
        rw [he] at h
        cases h
      | some entry =>
        rw [he] at h
        exact decodeTabled_take h

theorem decode_of_take_eq {other : List UInt8} (h : decode kind bytes = .ok i)
    (hsame : other.take i.size = bytes.take i.size) : decode kind other = .ok i := by
  rw [← List.take_append_drop i.size other, hsame]
  exact decode_append (decode_take h) _

theorem decode_cut (h : decode kind (op :: bytes) = .ok i) (hcount : count < i.operands) :
    ∃ n, decode kind (op :: bytes.take count) = .error ⟨.truncated op, n⟩ := by
  simp only [decode] at h ⊢
  split_ifs at h ⊢
  · cases h
    cases hcount
  · cases bytes with
    | nil => cases h
    | cons length bytes =>
      cases h
      have hzero : count = 0 := Nat.lt_one_iff.mp hcount
      rw [hzero]
      exact ⟨1, rfl⟩
  · cases h
    cases hcount
  · cases he : entry? op with
    | none =>
      rw [he] at h
      cases h
    | some entry =>
      rw [he] at h
      exact decodeTabled_cut h hcount

/-! ## Bytes that mean nothing -/

theorem entry?_eq_none_iff : entry? op = none ↔ op.toNat < firstTabled := by
  have hsize : table.size = 0x100 - firstTabled := rfl
  have hop := op.toNat_lt
  unfold entry?
  split
  · rename_i hle
    rw [Array.getElem?_eq_none_iff, hsize]
    omega
  · rename_i hlt
    exact iff_of_true rfl (Nat.not_le.mp hlt)

theorem decodeTabled_ne_unknown {other : UInt8} {n : Nat} :
    decodeTabled op entry bytes ≠ .error ⟨.unknown other, n⟩ := by
  unfold decodeTabled
  dsimp only
  split_ifs <;> simp

theorem untabled_iff : 0x80 < op ∧ entry? op = none ↔ 0x81 ≤ op ∧ op ≤ 0xB0 := by
  have hend : (0x80 : UInt8).toNat = 128 := rfl
  have hfirst : (0x81 : UInt8).toNat = 129 := rfl
  have hlast : (0xB0 : UInt8).toNat = 176 := rfl
  rw [entry?_eq_none_iff, firstTabled, UInt8.lt_iff_toNat_lt, UInt8.le_iff_toNat_le,
    UInt8.le_iff_toNat_le]
  omega

theorem decode_unknown_iff : (∃ n, decode kind bytes = .error ⟨.unknown op, n⟩) ↔
    bytes.head? = some op ∧ 0x81 ≤ op ∧ op ≤ 0xB0 := by
  rw [← untabled_iff]
  cases bytes with
  | nil => simp [decode]
  | cons first bytes =>
    rw [List.head?_cons, Option.some.injEq]
    constructor
    · rintro ⟨n, hn⟩
      simp only [decode] at hn
      split_ifs at hn with hnote hrhythm hend
      · cases bytes with
        | nil => cases hn
        | cons length bytes => cases hn
      · cases he : entry? first with
        | none =>
          rw [he] at hn
          cases hn
          exact ⟨rfl, UInt8.lt_of_le_of_ne (UInt8.not_lt.mp hnote) (Ne.symm hend), he⟩
        | some entry =>
          rw [he] at hn
          exact absurd hn decodeTabled_ne_unknown
    · rintro ⟨rfl, hlt, he⟩
      refine ⟨1, ?_⟩
      simp only [decode, he]
      rw [if_neg (UInt8.not_lt.mpr (UInt8.le_of_lt hlt)), if_neg (UInt8.ne_of_lt hlt).symm]

end Decode

/-! ## Reading at a cursor -/

section Read

variable {kind : PartKind} {c next : Cursor} {i : Instruction} {fault : DecodeFault}

theorem read_eq_ok_iff :
    read kind c = .ok (i, next) ↔ decode kind c.rest = .ok i ∧ next = c.skip i.size := by
  unfold read
  cases decode kind c.rest with
  | error fault => simp
  | ok j =>
    constructor
    · intro h
      cases h
      exact ⟨rfl, rfl⟩
    · rintro ⟨h, rfl⟩
      cases h
      rfl

theorem read_eq_error_iff : read kind c = .error fault ↔ decode kind c.rest = .error fault := by
  unfold read
  cases decode kind c.rest with
  | error fault => simp
  | ok j => simp

theorem rest_seek_of_le (data : List UInt8) {earlier stop : Nat} (h : earlier ≤ stop)
    (offset : Nat) : (Cursor.seek data earlier offset).rest =
      (Cursor.seek data stop offset).rest.take (earlier - offset) := by
  change (data.take earlier).drop offset = ((data.take stop).drop offset).take (earlier - offset)
  rw [List.drop_take, List.drop_take, List.take_take, Nat.min_eq_left (Nat.sub_le_sub_right h offset)]

theorem head?_rest_seek (data : List UInt8) {stop offset : Nat} (h : offset < stop) :
    (Cursor.seek data stop offset).rest.head? = data[offset]? := by
  change ((data.take stop).drop offset).head? = _
  rw [List.head?_drop, List.getElem?_take_of_lt h]

theorem read_cut {data : List UInt8} {stop offset earlier : Nat}
    (h : read kind (.seek data stop offset) = .ok (i, next)) (hlate : offset < earlier)
    (hcut : earlier < offset + i.size) (hstop : earlier ≤ stop) : ∃ op n, data[offset]? = some op ∧
      read kind (.seek data earlier offset) = .error ⟨.truncated op, n⟩ := by
  have hdecode := (read_eq_ok_iff.mp h).1
  have hhead := head?_rest_seek data (Nat.lt_of_lt_of_le hlate hstop)
  have hrest := rest_seek_of_le data hstop offset
  cases hbytes : (Cursor.seek data stop offset).rest with
  | nil =>
    rw [hbytes] at hdecode
    cases hdecode
  | cons op bytes =>
    rw [hbytes] at hdecode hhead hrest
    obtain ⟨count, hcount⟩ := Nat.exists_eq_add_of_lt hlate
    have htake : earlier - offset = count + 1 := by omega
    have hfew : count < i.operands := by
      unfold Instruction.size at hcut
      omega
    obtain ⟨n, hn⟩ := decode_cut hdecode hfew
    refine ⟨op, n, hhead.symm, ?_⟩
    rw [read_eq_error_iff, hrest, htake, List.take_succ_cons, hn]

end Read

/-! ## Listings -/

def Listed.span (x : Listed) : Nat × Nat := (x.offset, x.instruction.size)

/-- The instructions of a listing lie side by side from where a cursor stands up to some place, and
each of them is what is read where it lies. -/
structure Listing.Covers (l : Listing) (kind : PartKind) (c : Cursor) (place : Nat) : Prop where
  tiles : Tiles c.offset (l.instructions.map Listed.span) place
  reads : ∀ x ∈ l.instructions, c.offset ≤ x.offset ∧
    read kind (c.skip (x.offset - c.offset)) =
      .ok (x.instruction, c.skip (x.offset + x.instruction.size - c.offset))

/-- A listing ends with its range, or where there is no instruction. -/
def Listing.EndsAt (l : Listing) (kind : PartKind) (c : Cursor) (place : Nat) : Prop :=
  match l.fault with
  | none => place = c.stop
  | some (offset, fault) => offset = place ∧ place < c.stop ∧
    read kind (c.skip (place - c.offset)) = .error fault

section Listing

variable {kind : PartKind} {c next : Cursor} {i : Instruction} {fault : DecodeFault}

theorem atEnd_of_read (h : read kind c = .ok (i, next)) : c.atEnd = false := by
  have := bounds_of_read h
  unfold Cursor.atEnd
  rw [decide_eq_false_iff_not]
  omega

theorem listFrom_atEnd (before : List Listed) (h : c.atEnd = true) :
    listFrom kind before c = ⟨before.reverse, none⟩ := by
  rw [listFrom, if_pos h]

theorem listFrom_of_read (before : List Listed) (h : read kind c = .ok (i, next)) :
    listFrom kind before c = listFrom kind (⟨c.offset, i⟩ :: before) next := by
  rw [listFrom, if_neg (by rw [atEnd_of_read h]; exact Bool.false_ne_true)]
  split
  · rename_i hfault
    rw [h] at hfault
    cases hfault
  · rename_i hread
    rw [h] at hread
    cases hread
    rfl

theorem listFrom_of_fault (before : List Listed) (hend : c.atEnd = false)
    (h : read kind c = .error fault) :
    listFrom kind before c = ⟨before.reverse, some (c.offset, fault)⟩ := by
  rw [listFrom, if_neg (by rw [hend]; exact Bool.false_ne_true)]
  split
  · rename_i hfault
    rw [h] at hfault
    cases hfault
    rfl
  · rename_i hread
    rw [h] at hread
    cases hread

theorem listFrom_eq (kind : PartKind) (before : List Listed) (c : Cursor) :
    listFrom kind before c =
      ⟨before.reverse ++ (list kind c).instructions, (list kind c).fault⟩ := by
  induction hlength : c.rest.length using Nat.strongRecOn generalizing before c with
  | ind length ih =>
    subst hlength
    unfold list
    cases hend : c.atEnd with
    | true => simp [listFrom_atEnd _ hend]
    | false =>
      cases hread : read kind c with
      | error fault => simp [listFrom_of_fault _ hend hread]
      | ok result =>
        have hshort := length_rest_of_read hread
        rw [listFrom_of_read _ hread, listFrom_of_read _ hread, ih _ hshort _ _ rfl,
          ih _ hshort _ _ rfl]
        simp

theorem list_of_read (h : read kind c = .ok (i, next)) : list kind c =
    ⟨⟨c.offset, i⟩ :: (list kind next).instructions, (list kind next).fault⟩ := by
  rw [list, listFrom_of_read _ h, listFrom_eq]
  rfl

theorem Listing.Covers.cons {l : Listing} {place : Nat} (h : read kind c = .ok (i, next))
    (hl : l.Covers kind next place) :
    Covers ⟨⟨c.offset, i⟩ :: l.instructions, l.fault⟩ kind c place := by
  obtain ⟨-, rfl⟩ := read_eq_ok_iff.mp h
  constructor
  · exact ⟨rfl, hl.tiles⟩
  · rw [List.forall_mem_cons]
    refine ⟨?_, ?_⟩
    · dsimp only
      rw [Nat.sub_self, Nat.add_sub_cancel_left]
      exact ⟨Nat.le_refl _, h⟩
    · intro x hx
      obtain ⟨hle, hread⟩ := hl.reads x hx
      rw [Cursor.offset_skip] at hle
      rw [Cursor.skip_skip, Cursor.skip_skip, Cursor.offset_skip] at hread
      have hstart : i.size + (x.offset - (c.offset + i.size)) = x.offset - c.offset := by omega
      have hstop : i.size + (x.offset + x.instruction.size - (c.offset + i.size)) =
          x.offset + x.instruction.size - c.offset := by omega
      rw [hstart, hstop] at hread
      exact ⟨by omega, hread⟩

theorem Listing.EndsAt.cons {l : Listing} {place : Nat} (h : read kind c = .ok (i, next))
    (hplace : next.offset ≤ place) (hl : l.EndsAt kind next place) :
    EndsAt ⟨⟨c.offset, i⟩ :: l.instructions, l.fault⟩ kind c place := by
  obtain ⟨-, rfl⟩ := read_eq_ok_iff.mp h
  rw [Cursor.offset_skip] at hplace
  unfold EndsAt at hl ⊢
  dsimp only
  cases hfault : l.fault with
  | none =>
    rw [hfault] at hl
    exact hl
  | some broken =>
    rw [hfault] at hl
    dsimp only at hl ⊢
    rw [Cursor.skip_skip, Cursor.offset_skip] at hl
    have hskip : i.size + (place - (c.offset + i.size)) = place - c.offset := by omega
    rw [hskip] at hl
    exact hl

/-- A listing covers its range up to the first place where there is no instruction. -/
theorem covers_list (kind : PartKind) (c : Cursor) (hc : c.offset ≤ c.stop) :
    ∃ place, (list kind c).Covers kind c place ∧ (list kind c).EndsAt kind c place := by
  induction hlength : c.rest.length using Nat.strongRecOn generalizing c with
  | ind length ih =>
    subst hlength
    cases hend : c.atEnd with
    | true =>
      rw [list, listFrom_atEnd _ hend]
      have hplace : c.offset = c.stop := Nat.le_antisymm hc (of_decide_eq_true hend)
      exact ⟨c.offset, ⟨rfl, by simp⟩, hplace⟩
    | false =>
      have hlt : c.offset < c.stop := Nat.not_le.mp (of_decide_eq_false hend)
      cases hread : read kind c with
      | error fault =>
        rw [list, listFrom_of_fault _ hend hread]
        refine ⟨c.offset, ⟨rfl, by simp⟩, rfl, hlt, ?_⟩
        rw [Nat.sub_self]
        exact hread
      | ok result =>
        obtain ⟨i, next⟩ := result
        obtain ⟨-, hnext, hstop⟩ := bounds_of_read hread
        obtain ⟨place, hcovers, hends⟩ :=
          ih _ (length_rest_of_read hread) next (by rw [hstop]; exact hnext) rfl
        rw [list_of_read hread]
        exact ⟨place, hcovers.cons hread, hends.cons hread hcovers.tiles.le_stop.1⟩

end Listing

/-! ## What can be told of any place -/

/-- Where an instruction can be read, it is told from its own bytes: wherever the same bytes stand it
is read too, and if the range ends within them it is missed under its opcode. Only the opcodes from
`81` to `B0` are unknown. A listing therefore leaves no gap. -/
theorem read_selfDelimiting (kind : PartKind) (data : List UInt8) {stop offset : Nat}
    (h : offset < min stop data.length) :
    let c := Cursor.seek data stop offset
    (∀ i next, read kind c = .ok (i, next) →
      1 ≤ i.size ∧ next.offset = offset + i.size ∧ next.offset ≤ min stop data.length ∧
      (list kind c).instructions.head? = some ⟨offset, i⟩ ∧
      (∀ other : Cursor, other.rest.take i.size = c.rest.take i.size →
        read kind other = .ok (i, other.skip i.size)) ∧
      ∀ earlier, offset < earlier → earlier < next.offset → ∃ op n, data[offset]? = some op ∧
        read kind (.seek data earlier offset) = .error ⟨.truncated op, n⟩) ∧
    (∀ op, (∃ n, read kind c = .error ⟨.unknown op, n⟩) ↔
      data[offset]? = some op ∧ 0x81 ≤ op ∧ op ≤ 0xB0) ∧
    ∃ place, (list kind c).Covers kind c place ∧ (list kind c).EndsAt kind c place := by
  intro c
  refine ⟨?_, ?_, covers_list kind c (Nat.le_of_lt h)⟩
  · intro i next hread
    obtain ⟨hdecode, hnext⟩ := read_eq_ok_iff.mp hread
    have hbound : next.offset ≤ min stop data.length := (bounds_of_read hread).2.1
    rw [hnext, Cursor.offset_skip] at hbound ⊢
    refine ⟨Nat.le_add_left _ _, rfl, hbound, ?_, ?_, ?_⟩
    · rw [list_of_read hread]
      rfl
    · intro other hsame
      exact read_eq_ok_iff.mpr ⟨decode_of_take_eq hdecode hsame, rfl⟩
    · intro earlier hlate hcut
      change earlier < offset + i.size at hcut
      change offset + i.size ≤ min stop data.length at hbound
      exact read_cut hread hlate hcut (by omega)
  · intro op
    simp only [read_eq_error_iff]
    rw [decode_unknown_iff, head?_rest_seek data (by omega)]

/-- A rest, a tempo with a selector and a gate time that announces two more operands, of which the
range holds only one. -/
def cutGate : List UInt8 := [0x0F, 6, 0xFC, 0xFD, 3, 0xFE, 0xB1, 0, 0]

theorem read_selfDelimiting_cutGate :
    let c := Cursor.seek cutGate 8 2
    read .fm c = .ok (⟨.tempo (.humanBy 3), 2⟩, c.skip 3) ∧
      (∃ n, read .fm (.seek cutGate 4 2) = .error ⟨.truncated 0xFC, n⟩) ∧
      (list .fm c).instructions.map Listed.offset = [2] ∧
      ∃ place, (list .fm c).Covers .fm c place ∧ (list .fm c).EndsAt .fm c place := by
  intro c
  have hrange : 2 < min 8 cutGate.length := by decide
  obtain ⟨hread, -, hlist⟩ := read_selfDelimiting .fm cutGate hrange
  have hc : read .fm c = .ok (⟨.tempo (.humanBy 3), 2⟩, c.skip 3) := rfl
  obtain ⟨-, -, -, -, -, hcut⟩ := hread _ _ hc
  obtain ⟨op, n, hop, hn⟩ := hcut 4 (by decide) (by decide)
  cases hop
  exact ⟨hc, ⟨n, hn⟩, by decide +kernel, hlist⟩

end ChipScore.Command
