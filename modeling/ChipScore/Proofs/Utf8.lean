import ChipScore.Text.Utf8
import Mathlib.Algebra.Group.Nat.Defs
import Mathlib.Tactic.SplitIfs

/-!
# Texts survive UTF-8

Decoding the bytes of a text gives its characters back, and a text without NUL characters has no NUL
bytes.
-/

namespace ChipScore.Utf8

/-! ## One character -/

theorem continuation_cons {more : Nat} {low high b : UInt8} (value : Nat) (bytes : List UInt8)
    (hlow : low ≤ b) (hhigh : b ≤ high) :
    continuation (more + 1) low high value (b :: bytes) =
      ((continuation more 0x80 0xBF (value * 64 + b.toNat % 64) bytes).1 + 1,
        (continuation more 0x80 0xBF (value * 64 + b.toNat % 64) bytes).2) := by
  rw [continuation, if_pos ⟨hlow, hhigh⟩]

/-- The byte that continues a character with six of its bits. -/
def tail (n : Nat) : UInt8 := UInt8.ofNat (n % 0x40 + 0x80)

theorem toNat_tail (n : Nat) : (tail n).toNat = n % 64 + 128 :=
  UInt8.toNat_ofNat_of_lt' (by rw [UInt8.size]; omega)

theorem continuation_tail {more : Nat} {low high : UInt8} (value n : Nat) (bytes : List UInt8)
    (hlow : low.toNat ≤ n % 64 + 128) (hhigh : n % 64 + 128 ≤ high.toNat) :
    continuation (more + 1) low high value (tail n :: bytes) =
      ((continuation more 0x80 0xBF (value * 64 + n % 64) bytes).1 + 1,
        (continuation more 0x80 0xBF (value * 64 + n % 64) bytes).2) := by
  have hmod : (n % 64 + 128) % 64 = n % 64 := by omega
  rw [continuation_cons, toNat_tail, hmod]
  · rwa [UInt8.le_iff_toNat_le, toNat_tail]
  · rwa [UInt8.le_iff_toNat_le, toNat_tail]

theorem continuation_tail_full {more : Nat} (value n : Nat) (bytes : List UInt8) :
    continuation (more + 1) 0x80 0xBF value (tail n :: bytes) =
      ((continuation more 0x80 0xBF (value * 64 + n % 64) bytes).1 + 1,
        (continuation more 0x80 0xBF (value * 64 + n % 64) bytes).2) :=
  continuation_tail value n bytes (by simp) (by simp; omega)

theorem continuation_zero (low high : UInt8) (value : Nat) (bytes : List UInt8) :
    continuation 0 low high value bytes = (0, value) := rfl

theorem first_of_lead {b : UInt8} {l : Lead} {bytes : List UInt8} {value : Nat}
    (hlead : lead? b = some l)
    (hmore : continuation l.more l.low l.high l.bits bytes = (l.more, value)) :
    first b bytes = (some (Char.ofNat value), l.more) := by
  simp [first, hlead, hmore]

/-! ### Leads -/

theorem lead?_one {n : Nat} (h : n < 0x80) :
    lead? (UInt8.ofNat n) = some ⟨0, 0x80, 0xBF, n⟩ := by
  have hn : (UInt8.ofNat n).toNat = n := UInt8.toNat_ofNat_of_lt' (by rw [UInt8.size]; omega)
  simp only [lead?, hn]
  rw [if_pos h]

theorem lead?_two {n : Nat} (hlow : 2 ≤ n) (hhigh : n < 0x20) :
    lead? (UInt8.ofNat (n + 0xC0)) = some ⟨1, 0x80, 0xBF, n⟩ := by
  have hn : (UInt8.ofNat (n + 0xC0)).toNat = n + 0xC0 :=
    UInt8.toNat_ofNat_of_lt' (by rw [UInt8.size]; omega)
  simp only [lead?, hn]
  rw [if_neg (by omega), if_neg (by omega), if_pos (by omega), Nat.add_sub_cancel]

theorem lead?_three {n : Nat} (h : n < 0x10) :
    lead? (UInt8.ofNat (n + 0xE0)) =
      some ⟨2, if n = 0 then 0xA0 else 0x80, if n = 0xD then 0x9F else 0xBF, n⟩ := by
  have hn : (UInt8.ofNat (n + 0xE0)).toNat = n + 0xE0 :=
    UInt8.toNat_ofNat_of_lt' (by rw [UInt8.size]; omega)
  simp only [lead?, hn]
  rw [if_neg (by omega), if_neg (by omega), if_neg (by omega)]
  split_ifs <;> first | omega | simp_all

theorem lead?_four {n : Nat} (h : n < 5) :
    lead? (UInt8.ofNat (n + 0xF0)) =
      some ⟨3, if n = 0 then 0x90 else 0x80, if n = 4 then 0x8F else 0xBF, n⟩ := by
  have hn : (UInt8.ofNat (n + 0xF0)).toNat = n + 0xF0 :=
    UInt8.toNat_ofNat_of_lt' (by rw [UInt8.size]; omega)
  simp only [lead?, hn]
  rw [if_neg (by omega), if_neg (by omega), if_neg (by omega), if_neg (by omega),
    if_neg (by omega), if_neg (by omega)]
  split_ifs <;> first | omega | simp_all

theorem toNat_valid (c : Char) :
    c.val.toNat < 0xD800 ∨ 0xDFFF < c.val.toNat ∧ c.val.toNat < 0x110000 :=
  c.valid

theorem first_encodeChar (c : Char) (rest : List UInt8) :
    ∃ b bytes, String.utf8EncodeChar c = b :: bytes ∧
      first b (bytes ++ rest) = (some c, bytes.length) := by
  have hvalid := toNat_valid c
  have hchar : Char.ofNat c.val.toNat = c := Char.ofNat_toNat c
  unfold String.utf8EncodeChar
  generalize c.val.toNat = v at hvalid hchar ⊢
  dsimp only
  split_ifs with h1 h2 h3
  · refine ⟨_, _, rfl, ?_⟩
    rw [← hchar]
    exact first_of_lead (lead?_one (by omega)) (continuation_zero _ _ _ _)
  · refine ⟨_, _, rfl, ?_⟩
    have hvalue : v / 64 % 32 * 64 + v % 64 = v := by omega
    have hmore : continuation 1 0x80 0xBF (v / 64 % 32) (tail v :: rest) = (1, v) := by
      rw [continuation_tail_full, continuation_zero, hvalue]
    rw [← hchar]
    exact first_of_lead (lead?_two (by omega) (by omega)) hmore
  · refine ⟨_, _, rfl, ?_⟩
    have hvalue : (v / 4096 % 16 * 64 + v / 64 % 64) * 64 + v % 64 = v := by omega
    have hmore : continuation 2 (if v / 4096 % 16 = 0 then 0xA0 else 0x80)
        (if v / 4096 % 16 = 0xD then 0x9F else 0xBF) (v / 4096 % 16)
        (tail (v / 64) :: tail v :: rest) = (2, v) := by
      rw [continuation_tail, continuation_tail_full, continuation_zero, hvalue]
      -- The first range leaves out what fits in two bytes, the second the surrogates.
      · split_ifs
        · simp
          omega
        · simp
      · split_ifs
        · simp
          omega
        · simp
          omega
    rw [← hchar]
    exact first_of_lead (lead?_three (by omega)) hmore
  · refine ⟨_, _, rfl, ?_⟩
    have hvalue :
        ((v / 262144 % 8 * 64 + v / 4096 % 64) * 64 + v / 64 % 64) * 64 + v % 64 = v := by omega
    have hmore : continuation 3 (if v / 262144 % 8 = 0 then 0x90 else 0x80)
        (if v / 262144 % 8 = 4 then 0x8F else 0xBF) (v / 262144 % 8)
        (tail (v / 4096) :: tail (v / 64) :: tail v :: rest) = (3, v) := by
      rw [continuation_tail, continuation_tail_full, continuation_tail_full, continuation_zero,
        hvalue]
      -- The first range leaves out what fits in three bytes, the second what is past the last plane.
      · split_ifs
        · simp
          omega
        · simp
      · split_ifs
        · simp
          omega
        · simp
          omega
    rw [← hchar]
    exact first_of_lead (lead?_four (by omega)) hmore

/-! ## Texts -/

theorem decodeAfter_append (bytes rest : List UInt8) :
    decodeAfter bytes.length (bytes ++ rest) = decode rest := by
  induction bytes with
  | nil => rfl
  | cons b bytes ih => exact ih

theorem decode_encodeChar_append (c : Char) (rest : List UInt8) :
    decode (String.utf8EncodeChar c ++ rest) = some c :: decode rest := by
  obtain ⟨b, bytes, hencode, hfirst⟩ := first_encodeChar c rest
  rw [hencode, List.cons_append, decode, decodeAfter, hfirst]
  dsimp only
  rw [decodeAfter_append]

theorem decode_encode (text : String) : decode (encode text) = text.toList.map some := by
  rw [encode]
  induction text.toList with
  | nil => rfl
  | cons c cs ih => rw [List.flatMap_cons, decode_encodeChar_append, ih, List.map_cons]

theorem decodeLossy_encode (text : String) : decodeLossy (encode text) = text := by
  rw [decodeLossy, decode_encode, List.map_map]
  simp [Function.comp_def]

theorem zero_ne_ofNat {n : Nat} (hpos : 0 < n) (hlt : n < 256) : 0 ≠ UInt8.ofNat n := by
  intro h
  have := congrArg UInt8.toNat h
  rw [UInt8.toNat_ofNat_of_lt' hlt] at this
  exact Nat.ne_of_lt hpos this

theorem zero_notMem_encodeChar {c : Char} (h : c ≠ Char.ofNat 0) :
    0 ∉ String.utf8EncodeChar c := by
  have hvalid := toNat_valid c
  have hne : c.val.toNat ≠ 0 := by
    intro hzero
    apply h
    rw [← Char.ofNat_toNat c]
    exact congrArg Char.ofNat hzero
  unfold String.utf8EncodeChar
  generalize c.val.toNat = v at hvalid hne ⊢
  dsimp only
  split_ifs <;> simp only [List.mem_cons, List.not_mem_nil, or_false, not_or] <;>
    and_intros <;> exact zero_ne_ofNat (by omega) (by omega)

theorem zero_notMem_encode {text : String} (h : Char.ofNat 0 ∉ text.toList) :
    0 ∉ encode text := by
  rw [encode, List.mem_flatMap]
  rintro ⟨c, hc, hzero⟩
  exact zero_notMem_encodeChar (fun hnul => h (hnul ▸ hc)) hzero

/-! ## What is read from bytes -/

theorem exists_of_continuation {more : Nat} {low high : UInt8} {value total : Nat}
    {bytes : List UInt8} (h : continuation (more + 1) low high value bytes = (more + 1, total)) :
    ∃ (b : UInt8) (rest : List UInt8), low.toNat ≤ b.toNat ∧ b.toNat ≤ high.toNat ∧
      continuation more 0x80 0xBF (value * 64 + b.toNat % 64) rest = (more, total) := by
  cases bytes with
  | nil => simp [continuation] at h
  | cons b rest =>
    unfold continuation at h
    split_ifs at h with hb
    · exact ⟨b, rest, hb.1, hb.2, by simpa [Prod.ext_iff] using h⟩
    · simp at h

theorem bounds_of_continuation {more value total : Nat} {bytes : List UInt8}
    (h : continuation more 0x80 0xBF value bytes = (more, total)) :
    value * 64 ^ more ≤ total ∧ total < (value + 1) * 64 ^ more := by
  induction more generalizing value bytes with
  | zero =>
    simp [continuation] at h
    omega
  | succ more ih =>
    obtain ⟨b, rest, -, -, hrest⟩ := exists_of_continuation h
    obtain ⟨hlow, hhigh⟩ := ih hrest
    rw [Nat.pow_succ', ← Nat.mul_assoc, ← Nat.mul_assoc]
    constructor
    · exact Nat.le_trans (Nat.mul_le_mul_right _ (Nat.le_add_right _ _)) hlow
    · exact Nat.lt_of_lt_of_le hhigh (Nat.mul_le_mul_right _ (by omega))

theorem bounds_of_range {more : Nat} {low high : UInt8} (hmin : 0x80 ≤ low.toNat)
    (hmax : high.toNat ≤ 0xBF) {value total : Nat} {bytes : List UInt8}
    (h : continuation (more + 1) low high value bytes = (more + 1, total)) :
    (value * 64 + (low.toNat - 0x80)) * 64 ^ more ≤ total ∧
      total < (value * 64 + (high.toNat - 0x80) + 1) * 64 ^ more := by
  obtain ⟨b, rest, hlow, hhigh, hrest⟩ := exists_of_continuation h
  obtain ⟨hle, hlt⟩ := bounds_of_continuation hrest
  constructor
  · exact Nat.le_trans (Nat.mul_le_mul_right _ (by omega)) hle
  · exact Nat.lt_of_lt_of_le hlt (Nat.mul_le_mul_right _ (by omega))

theorem value_of_lead {b : UInt8} {l : Lead} {total : Nat} {bytes : List UInt8} (hb : b ≠ 0)
    (hlead : lead? b = some l)
    (h : continuation l.more l.low l.high l.bits bytes = (l.more, total)) :
    0 < total ∧ (total < 0xD800 ∨ 0xDFFF < total ∧ total < 0x110000) := by
  have hpos : 0 < b.toNat := by
    rw [Nat.pos_iff_ne_zero]
    exact fun hzero => hb (UInt8.toNat_inj.mp hzero)
  unfold lead? at hlead
  dsimp only at hlead
  split_ifs at hlead <;> cases hlead
  · simp [continuation] at h
    omega
  all_goals
    have := bounds_of_range (by simp) (by simp) h
    simp at this
    omega

theorem first_ne_nul {b : UInt8} (hb : b ≠ 0) (bytes : List UInt8) :
    (first b bytes).1 ≠ some (Char.ofNat 0) := by
  unfold first
  cases hlead : lead? b with
  | none => simp
  | some l =>
    obtain ⟨⟨taken, total⟩, hmore⟩ :
        ∃ result, continuation l.more l.low l.high l.bits bytes = result := ⟨_, rfl⟩
    simp only [hmore]
    split_ifs with htaken
    · subst htaken
      obtain ⟨hpos, hvalid⟩ := value_of_lead hb hlead hmore
      intro h
      have hnat := congrArg Char.toNat (Option.some.inj h)
      rw [Char.ofNat, dif_pos hvalid] at hnat
      exact Nat.ne_of_gt hpos hnat
    · simp

theorem nul_notMem_decodeAfter {bytes : List UInt8} (h : 0 ∉ bytes) (taken : Nat) :
    some (Char.ofNat 0) ∉ decodeAfter taken bytes := by
  induction bytes generalizing taken with
  | nil => simp [decodeAfter]
  | cons b bytes ih =>
    rw [List.mem_cons, not_or] at h
    cases taken with
    | zero =>
      unfold decodeAfter
      rw [List.mem_cons, not_or]
      exact ⟨fun hnul => first_ne_nul (Ne.symm h.1) bytes hnul.symm, ih h.2 _⟩
    | succ taken => exact ih h.2 taken

theorem length_decodeAfter_le (bytes : List UInt8) (taken : Nat) :
    (decodeAfter taken bytes).length ≤ bytes.length := by
  induction bytes generalizing taken with
  | nil => simp [decodeAfter]
  | cons b bytes ih =>
    cases taken with
    | zero =>
      unfold decodeAfter
      exact Nat.succ_le_succ (ih _)
    | succ taken => exact Nat.le_succ_of_le (ih taken)

theorem mapM_id_eq_some {α : Type} {pieces : List (Option α)} {xs : List α}
    (h : pieces.mapM id = some xs) : pieces = xs.map some := by
  induction pieces generalizing xs with
  | nil =>
    cases h
    rfl
  | cons piece pieces ih =>
    simp only [List.mapM_cons, id, Option.bind_eq_bind, Option.bind_eq_some_iff] at h
    obtain ⟨x, rfl, xs, hxs, h⟩ := h
    cases h
    rw [ih hxs, List.map_cons]

theorem decode_of_decode? {bytes : List UInt8} {s : String} (h : decode? bytes = some s) :
    decode bytes = s.toList.map some := by
  unfold decode? at h
  rw [Option.map_eq_some_iff] at h
  obtain ⟨cs, hcs, rfl⟩ := h
  rw [mapM_id_eq_some hcs, String.toList_ofList]

theorem nul_notMem_of_decode? {bytes : List UInt8} {s : String} (hbytes : 0 ∉ bytes)
    (h : decode? bytes = some s) : Char.ofNat 0 ∉ s.toList := by
  intro hnul
  apply nul_notMem_decodeAfter hbytes 0
  change _ ∈ decode bytes
  rw [decode_of_decode? h]
  exact List.mem_map_of_mem hnul

theorem length_of_decode? {bytes : List UInt8} {s : String} (h : decode? bytes = some s) :
    s.toList.length ≤ bytes.length := by
  have hlength := length_decodeAfter_le bytes 0
  change (decode bytes).length ≤ _ at hlength
  rwa [decode_of_decode? h, List.length_map] at hlength

theorem length_encode_le (s : String) : (encode s).length ≤ 4 * s.toList.length := by
  rw [encode]
  induction s.toList with
  | nil => simp
  | cons c cs ih =>
    have hchar : (String.utf8EncodeChar c).length ≤ 4 := by
      rw [String.length_utf8EncodeChar]
      exact Char.utf8Size_le_four c
    rw [List.flatMap_cons, List.length_append, List.length_cons]
    omega

end ChipScore.Utf8
