import ChipScore.Command.Decode
import Mathlib.Tactic.SplitIfs

/-!
# Instructions and their bytes

Decoding looks only at the bytes of the instruction that it returns, and it can be told from the
opcode alone whether an instruction steers the reading of its part.
-/

namespace ChipScore

/-- The commands that loops and the end of a part are made of. All others are for the player. -/
def Command.steers : Command → Bool
  | trackEnd | loopStart | loopEnd _ | loopBreak => true
  | _ => false

namespace Command

/-! ## Following bytes -/

theorem decodeTabled_ok {op : UInt8} {entry : Entry} {bytes : List UInt8} {i : Instruction}
    (h : decodeTabled op entry bytes = .ok i) :
    entry.operands ≤ i.operands ∧ i.operands ≤ bytes.length ∧
      i.operands = entry.operands + extraOperands op ((bytes.take entry.operands).headD 0) ∧
      i.command = ofOperands op entry.name (bytes.take i.operands) := by
  simp only [decodeTabled] at h
  split_ifs at h with hfew hshort
  cases h
  simp only [List.length_take] at hfew hshort
  refine ⟨Nat.le_add_right _ _, ?_, rfl, rfl⟩
  dsimp only
  omega

theorem decodeTabled_append {op : UInt8} {entry : Entry} {bytes : List UInt8} {i : Instruction}
    (h : decodeTabled op entry bytes = .ok i) (more : List UInt8) :
    decodeTabled op entry (bytes ++ more) = .ok i := by
  obtain ⟨hentry, hlength, hcount, hcommand⟩ := decodeTabled_ok h
  have htake : (bytes ++ more).take entry.operands = bytes.take entry.operands :=
    List.take_append_of_le_length (by omega)
  have htakeAll : (bytes ++ more).take i.operands = bytes.take i.operands :=
    List.take_append_of_le_length hlength
  simp only [decodeTabled, htake, ← hcount, htakeAll, ← hcommand, List.length_take]
  rw [if_neg (by omega), if_neg (by omega)]

theorem decode_append {kind : PartKind} {bytes : List UInt8} {i : Instruction}
    (h : decode kind bytes = .ok i) (more : List UInt8) : decode kind (bytes ++ more) = .ok i := by
  cases bytes with
  | nil => simp [decode] at h
  | cons op bytes =>
    simp only [List.cons_append, decode] at h ⊢
    split_ifs at h ⊢ with hnote hrhythm hend
    · exact h
    · cases bytes with
      | nil => simp at h
      | cons length bytes => exact h
    · exact h
    · cases he : entry? op with
      | none => simp [he] at h
      | some entry =>
        rw [he] at h
        exact decodeTabled_append h more

theorem size_le_of_decode {kind : PartKind} {bytes : List UInt8} {i : Instruction}
    (h : decode kind bytes = .ok i) : i.size ≤ bytes.length := by
  cases bytes with
  | nil => simp [decode] at h
  | cons op bytes =>
    rw [List.length_cons, Instruction.size]
    apply Nat.succ_le_succ
    simp only [decode] at h
    split_ifs at h
    · cases h
      exact Nat.zero_le _
    · cases bytes with
      | nil => simp at h
      | cons length bytes =>
        cases h
        exact Nat.succ_le_succ (Nat.zero_le _)
    · cases h
      exact Nat.zero_le _
    · cases he : entry? op with
      | none => simp [he] at h
      | some entry =>
        rw [he] at h
        exact (decodeTabled_ok h).2.1

theorem bounds_of_read {kind : PartKind} {c next : Cursor} {i : Instruction}
    (h : read kind c = .ok (i, next)) :
    c.offset < next.offset ∧ next.offset ≤ c.stop ∧ next.stop = c.stop := by
  unfold read at h
  split at h
  · cases h
  · rename_i hdecode
    have hsize := size_le_of_decode hdecode
    rw [c.length_rest] at hsize
    cases h
    unfold Instruction.size at *
    refine ⟨?_, ?_, rfl⟩
    · rw [Cursor.offset_skip]
      omega
    · rw [Cursor.offset_skip]
      omega

/-- The bytes are one whole instruction, whatever follows them. -/
def EncodedBy (kind : PartKind) (command : Command) (bytes : List UInt8) : Prop :=
  ∃ operands, bytes.length = operands + 1 ∧
    ∀ rest, decode kind (bytes ++ rest) = .ok ⟨command, operands⟩

theorem encodedBy_of_decode {kind : PartKind} {bytes : List UInt8} {i : Instruction}
    (h : decode kind bytes = .ok i) (hsize : bytes.length = i.size) :
    EncodedBy kind i.command bytes :=
  ⟨i.operands, hsize, decode_append h⟩

section EncodedBy

variable {kind : PartKind} {command : Command} {bytes rest : List UInt8} {c : Cursor}

theorem EncodedBy.ne_nil (h : EncodedBy kind command bytes) : bytes ≠ [] := by
  obtain ⟨operands, hlength, -⟩ := h
  rintro rfl
  simp at hlength

theorem EncodedBy.atEnd_eq_false (h : EncodedBy kind command bytes) (hc : c.rest = bytes ++ rest) :
    c.atEnd = false := by
  rw [Bool.eq_false_iff, ne_eq, Cursor.atEnd_iff, hc]
  exact fun hnil => h.ne_nil (List.append_eq_nil_iff.1 hnil).1

theorem EncodedBy.read_eq (h : EncodedBy kind command bytes) (hc : c.rest = bytes ++ rest) :
    ∃ i : Instruction, i.command = command ∧ read kind c = .ok (i, c.skip bytes.length) := by
  obtain ⟨operands, hlength, hdecode⟩ := h
  refine ⟨⟨command, operands⟩, rfl, ?_⟩
  rw [read, hc, hdecode, hlength]
  rfl

end EncodedBy

/-! ## Which commands steer -/

theorem steers_noteOrRest (packed length : UInt8) : (noteOrRest packed length).steers = false := by
  simp only [noteOrRest]
  split_ifs <;> rfl

theorem steers_ofOperands {op : UInt8} (name : String) (operands : List UInt8)
    (hstart : op ≠ 0xF9) (hend : op ≠ 0xF8) (hbreak : op ≠ 0xF7) :
    (ofOperands op name operands).steers = false := by
  unfold ofOperands
  split <;> first | rfl | contradiction

theorem steers_of_decode {kind : PartKind} {op : UInt8} {bytes : List UInt8} {i : Instruction}
    (h : decode kind (op :: bytes) = .ok i) (hstart : op ≠ 0xF9) (hend : op ≠ 0xF8)
    (hbreak : op ≠ 0xF7) (htrack : op ≠ 0x80) : i.command.steers = false := by
  simp only [decode] at h
  split_ifs at h with hnote hrhythm
  · cases h
    rfl
  · cases bytes with
    | nil => simp at h
    | cons length bytes =>
      cases h
      exact steers_noteOrRest op length
  · cases he : entry? op with
    | none => simp [he] at h
    | some entry =>
      rw [he] at h
      rw [(decodeTabled_ok h).2.2.2]
      exact steers_ofOperands _ _ hstart hend hbreak

end Command

end ChipScore
