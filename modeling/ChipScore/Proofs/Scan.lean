import ChipScore.Deflate.Bits
import ChipScore.Proofs.Utf8
import ChipScore.Tracker.Block
import ChipScore.Tracker.Scan
import Mathlib.Algebra.Group.Nat.Defs
import Mathlib.Data.List.Forall2

/-!
# Reading what was written

A scan reads some bytes if it takes exactly them, wherever they stand and whatever follows, and gives
its value. Scans that follow each other read bytes that follow each other.
-/

namespace ChipScore

theorem LittleEndian.decode_encode (width n : Nat) : decode (encode width n) = n % 256 ^ width := by
  induction width generalizing n with
  | zero => rw [Nat.pow_zero, Nat.mod_one]; rfl
  | succ width ih =>
    have hlow : (UInt8.ofNat n).toNat = n % 256 := UInt8.toNat_ofNat'
    rw [encode, decode, ih, hlow, Nat.pow_succ', Nat.mod_mul]

namespace Tracker.Scan

variable {α β : Type}

/-- The cursor stands in its data, with some bytes ahead. A cursor past its stop has nothing ahead
either, but cannot even read no bytes. -/
structure Ahead (c : Cursor) (bytes rest : List UInt8) : Prop where
  le_stop : c.offset ≤ c.stop
  rest_eq : c.rest = bytes ++ rest

theorem Ahead.skip {c : Cursor} {bytes rest more : List UInt8}
    (h : Ahead c bytes (rest ++ more)) : Ahead (c.skip bytes.length) rest more where
  le_stop := by
    have hlength := c.length_rest
    have hstop := h.le_stop
    rw [h.rest_eq, List.length_append] at hlength
    simp only [Cursor.skip]
    omega
  rest_eq := Cursor.rest_skip_append h.rest_eq

theorem Ahead.append {c : Cursor} {bytes rest more : List UInt8}
    (h : Ahead c (bytes ++ rest) more) : Ahead c bytes (rest ++ more) :=
  ⟨h.le_stop, by rw [h.rest_eq, List.append_assoc]⟩

theorem Ahead.take? {c : Cursor} {bytes rest : List UInt8} (h : Ahead c bytes rest) :
    c.take? bytes.length = some (bytes, c.skip bytes.length) := by
  have hempty : Ahead c bytes ([] ++ rest) := h
  have hstop := hempty.skip.le_stop
  simp only [Cursor.skip] at hstop
  rw [Cursor.take?, if_pos hstop, h.rest_eq, List.take_left]

/-- The scan takes exactly these bytes and gives this value. -/
def Reads (scan : Scan α) (bytes : List UInt8) (a : α) : Prop :=
  ∀ (c : Cursor) (rest : List UInt8), Ahead c bytes rest → scan c = .ok (a, c.skip bytes.length)

theorem get_bind (next : Cursor → Scan β) (c : Cursor) : (get >>= next) c = next c c := rfl

theorem set_bind (next : PUnit → Scan β) (c c' : Cursor) : (set c' >>= next) c = next ⟨⟩ c' := rfl

theorem Reads.pure (a : α) : Reads (pure a) [] a := fun _ _ _ => rfl

theorem Reads.bind {scan : Scan α} {next : α → Scan β} {bytes more : List UInt8} {a : α} {b : β}
    (h : Reads scan bytes a) (hnext : Reads (next a) more b) :
    Reads (scan >>= next) (bytes ++ more) b := by
  intro c rest hc
  rw [bind_eq_of_ok (h c _ hc.append), hnext _ _ hc.append.skip, Cursor.skip_skip,
    List.length_append]

theorem Reads.map {scan : Scan α} {bytes : List UInt8} {a : α} (h : Reads scan bytes a)
    (f : α → β) : Reads (do return f (← scan)) bytes (f a) := by
  intro c rest hc
  rw [bind_eq_of_ok (h c rest hc)]
  rfl

/-! ## Fields -/

theorem reads_bytes {count : Nat} {bytes : List UInt8} (h : bytes.length = count) :
    Reads (Scan.bytes count) bytes bytes := by
  intro c rest hc
  rw [Scan.bytes, ← h, hc.take?]

theorem reads_skip {count : Nat} {bytes : List UInt8} (h : bytes.length = count) :
    Reads (Scan.skip count) bytes () :=
  (reads_bytes h).map fun _ => ()

theorem reads_byte (b : UInt8) : Reads Scan.byte [b] b :=
  (reads_bytes (show [b].length = 1 from rfl)).map fun bytes => bytes.headD 0

theorem reads_number (width n : Nat) :
    Reads (do return LittleEndian.decode (← Scan.bytes width)) (LittleEndian.encode width n)
      (n % 256 ^ width) := by
  have h := (reads_bytes (LittleEndian.length_encode width n)).map LittleEndian.decode
  rwa [LittleEndian.decode_encode] at h

theorem reads_word {n : Nat} (h : n < 2 ^ 16) : Reads Scan.word (LittleEndian.encode 2 n) n := by
  have := reads_number 2 n
  rwa [Nat.mod_eq_of_lt (show n < 256 ^ 2 by omega)] at this

theorem reads_long {n : Nat} (h : n < 2 ^ 32) : Reads Scan.long (LittleEndian.encode 4 n) n := by
  have := reads_number 4 n
  rwa [Nat.mod_eq_of_lt (show n < 256 ^ 4 by omega)] at this

theorem reads_float (bits : UInt32) :
    Reads Scan.float (LittleEndian.encode 4 bits.toNat) bits := by
  have h := (reads_long bits.toNat_lt).map UInt32.ofNat
  rwa [UInt32.ofNat_toNat] at h

theorem reads_text {s : String} (h : Char.ofNat 0 ∉ s.toList) :
    Reads Scan.text (Utf8.encode s ++ [0]) s := by
  intro c rest hc
  have hcontent : c.rest.takeWhile (· ≠ 0) = Utf8.encode s := by
    rw [hc.rest_eq, List.append_assoc, List.takeWhile_append_of_pos]
    · simp
    · intro b hb
      rw [decide_eq_true_iff]
      rintro rfl
      exact Utf8.zero_notMem_encode h hb
  have hnul : c.rest.contains 0 = true := by
    rw [hc.rest_eq]
    simp
  rw [Scan.text, if_pos hnul]
  simp only [hcontent, Utf8.decodeLossy_encode, List.length_append, List.length_singleton]

theorem reads_repeatFrom {scan : Scan α} {bytes : List (List UInt8)} {values : List α}
    (h : List.Forall₂ (Reads scan) bytes values) (done : List α) :
    Reads (Scan.repeatFrom scan values.length done) bytes.flatten (done.reverse ++ values) := by
  induction h generalizing done with
  | nil =>
    rw [List.append_nil]
    exact .pure done.reverse
  | @cons first value bytes values hfirst _ ih =>
    have := ih (value :: done)
    rw [List.reverse_cons, List.append_assoc] at this
    exact hfirst.bind this

theorem reads_times {scan : Scan α} {bytes : List (List UInt8)} {values : List α}
    (h : List.Forall₂ (Reads scan) bytes values) {count : Nat} (hcount : values.length = count) :
    Reads (Scan.times count scan) bytes.flatten values := by
  subst hcount
  exact reads_repeatFrom h []

theorem reads_times_replicate {scan : Scan α} {bytes : List UInt8} {value : α}
    (h : Reads scan bytes value) (count : Nat) :
    Reads (Scan.times count scan) (List.replicate count bytes).flatten
      (List.replicate count value) := by
  refine reads_times ?_ List.length_replicate
  induction count with
  | zero => exact .nil
  | succ count ih => exact .cons h ih

theorem Reads.eq_of_ahead {scan : Scan α} {bytes rest : List UInt8} {c : Cursor} {a : α}
    (hc : Ahead c bytes rest) (h : Reads scan bytes a) : scan c = .ok (a, c.skip bytes.length) :=
  h c rest hc

/-! ## Blocks -/

theorem block_encodeBlock {id : String} {body rest : List UInt8} {c : Cursor}
    (hid : (Utf8.encode id).length = 4) (hbody : body.length < 2 ^ 32)
    (hc : Ahead c (encodeBlock id body) rest) :
    Scan.block id c = .ok (c.offset + 8 + body.length, c.skip 8) := by
  rw [encodeBlock, List.append_assoc] at hc
  have hfound := reads_bytes hid c _ hc.append
  have hlong := reads_long hbody _ _ hc.append.skip.append
  rw [hid] at hfound hlong
  rw [Cursor.skip_skip, LittleEndian.length_encode] at hlong
  rw [Scan.block, get_bind, bind_eq_of_ok hfound]
  simp only [ne_eq, not_true_eq_false, if_false]
  rw [bind_eq_of_ok hlong]
  rfl

theorem ahead_body {id : String} {body rest : List UInt8} {c : Cursor}
    (hid : (Utf8.encode id).length = 4) (hc : Ahead c (encodeBlock id body) rest) :
    Ahead (c.skip 8) body rest := by
  rw [encodeBlock] at hc
  have := hc.append.skip
  rwa [List.length_append, hid, LittleEndian.length_encode] at this

end Tracker.Scan

end ChipScore
