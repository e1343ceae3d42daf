import ChipScore.Deflate.Inflate

/-!
# Storing

Bytes can be written as stored blocks, and a stream of stored blocks stands for the bytes in them.
-/

namespace ChipScore.Deflate

def maxStored : Nat := 0xFFFF

def encodeStored (last : Bool) (data : List UInt8) : List UInt8 :=
  UInt8.ofNat last.toNat :: LittleEndian.encode 2 data.length ++
    LittleEndian.encode 2 (maxStored - data.length) ++ data

def store (data : List UInt8) : List UInt8 :=
  if data.length ≤ maxStored then encodeStored true data
  else encodeStored false (data.take maxStored) ++ store (data.drop maxStored)
termination_by data.length
decreasing_by simp [maxStored] at *; omega

/-! ## What is stored is inflated again -/

theorem takeBytes_append {bytes : List UInt8} {count : Nat} (h : bytes.length = count)
    (pending : List Bool) (rest : List UInt8) :
    Bits.takeBytes count ⟨pending, bytes ++ rest⟩ = .ok (bytes, ⟨pending, rest⟩) := by
  subst h
  simp [Bits.takeBytes]

theorem storedBlock_encode {data : List UInt8} (h : data.length ≤ maxStored) (out : Array UInt8)
    (pending : List Bool) (rest : List UInt8) :
    storedBlock out ⟨pending, LittleEndian.encode 2 data.length ++
      (LittleEndian.encode 2 (maxStored - data.length) ++ (data ++ rest))⟩ =
        .ok (out.appendList data, ⟨[], rest⟩) := by
  unfold maxStored at *
  have hsize : data.length % 0x10000 = data.length := Nat.mod_eq_of_lt (by omega)
  have hcomplement : (0xFFFF - data.length) % 0x10000 = 0xFFFF - data.length :=
    Nat.mod_eq_of_lt (by omega)
  have halign : Bits.align ⟨pending, LittleEndian.encode 2 data.length ++
      (LittleEndian.encode 2 (0xFFFF - data.length) ++ (data ++ rest))⟩ =
        .ok ((), ⟨[], LittleEndian.encode 2 data.length ++
          (LittleEndian.encode 2 (0xFFFF - data.length) ++ (data ++ rest))⟩) := rfl
  unfold storedBlock
  rw [bind_eq_of_ok halign,
    bind_eq_of_ok (takeBytes_append (LittleEndian.length_encode 2 _) _ _),
    bind_eq_of_ok (takeBytes_append (LittleEndian.length_encode 2 _) _ _)]
  simp only [LittleEndian.decode_encode_two, hsize, hcomplement]
  rw [if_neg (by omega), bind_eq_of_ok (takeBytes_append rfl _ _)]
  rfl

theorem blocks_encodeStored {data : List UInt8} (h : data.length ≤ maxStored) (last : Bool)
    (bound fuel : Nat) (out : Array UInt8) (rest : List UInt8) :
    blocks bound (fuel + 1) out ⟨[], encodeStored last data ++ rest⟩ =
      if last then .ok (out.appendList data, ⟨[], rest⟩)
      else blocks bound fuel (out.appendList data) ⟨[], rest⟩ := by
  have hbit : Bits.bit ⟨[], encodeStored last data ++ rest⟩ = .ok (last, ⟨List.replicate 7 false,
      LittleEndian.encode 2 data.length ++ (LittleEndian.encode 2 (maxStored - data.length) ++
        (data ++ rest))⟩) := by
    cases last <;> simp [encodeStored, Bits.bit] <;> decide
  have hnumber (bytes : List UInt8) : Bits.number 2 ⟨List.replicate 7 false, bytes⟩ =
      .ok (0, ⟨List.replicate 5 false, bytes⟩) := rfl
  have hblock : block bound out ⟨List.replicate 7 false, LittleEndian.encode 2 data.length ++
      (LittleEndian.encode 2 (maxStored - data.length) ++ (data ++ rest))⟩ =
        .ok (out.appendList data, ⟨[], rest⟩) := by
    unfold block
    rw [bind_eq_of_ok (hnumber _)]
    exact storedBlock_encode h out _ rest
  rw [blocks, bind_eq_of_ok hbit, bind_eq_of_ok hblock]
  cases last <;> rfl

theorem length_encodeStored (last : Bool) (data : List UInt8) :
    (encodeStored last data).length = 5 + data.length := by
  simp [encodeStored]
  omega

theorem blocks_store (data : List UInt8) (bound : Nat) (rest : List UInt8) :
    ∀ (fuel : Nat) (out : Array UInt8), (store data).length ≤ fuel →
      blocks bound fuel out ⟨[], store data ++ rest⟩ = .ok (out.appendList data, ⟨[], rest⟩) := by
  -- Each block takes bytes, so fuel for as many blocks as there are bytes is enough.
  induction data using store.induct with
  | case1 data h =>
    intro fuel out hfuel
    rw [store, if_pos h] at hfuel ⊢
    rw [length_encodeStored] at hfuel
    obtain ⟨fuel, rfl⟩ : ∃ k, fuel = k + 1 := ⟨fuel - 1, by omega⟩
    rw [blocks_encodeStored h, if_pos rfl]
  | case2 data h ih =>
    intro fuel out hfuel
    rw [store, if_neg h] at hfuel ⊢
    rw [List.length_append, length_encodeStored] at hfuel
    obtain ⟨fuel, rfl⟩ : ∃ k, fuel = k + 1 := ⟨fuel - 1, by omega⟩
    have htake : (data.take maxStored).length ≤ maxStored := List.length_take_le _ _
    rw [List.append_assoc, blocks_encodeStored htake, if_neg (by decide), ih _ _ (by omega)]
    have hout : (out.appendList (data.take maxStored)).appendList (data.drop maxStored) =
        out.appendList data := by
      rw [← Array.toList_inj]
      simp
    rw [hout]

theorem inflate_store (data rest : List UInt8) :
    inflate (store data ++ rest) = .ok (data, rest) := by
  unfold inflate
  have h := blocks_store data (8 * (store data ++ rest).length) rest
    (8 * (store data ++ rest).length) #[] (by rw [List.length_append]; omega)
  dsimp only [Bits.ofBytes]
  rw [StateT.run, h]
  simp

end ChipScore.Deflate
