import ChipScore.Proofs.ModuleSize

/-!
# The registers of a voice

A voice record holds the registers of a voice, and a module brings each of them back: only a detune
of minus zero comes back as zero. Two voices are written in the same bytes exactly if they sound the
same.
-/

namespace ChipScore

/-! ## Voices as registers -/

/-- A detune of minus zero is heard as zero. -/
def Operator.heard (o : Operator) : Operator := { o with dt := if o.dt = 4 then 0 else o.dt }

def Voice.heard (v : Voice) : Voice := { v with operators := v.operators.map Operator.heard }

/-- The registers of a voice column by column, as a record has them after the number. -/
def Voice.registers (v : Voice) : List UInt8 :=
  let column (f : Operator → UInt8) : List UInt8 := v.operators.toList.map f
  column (fun o => 16 * o.dt + o.mul) ++ column Operator.tl ++
    column (fun o => 64 * o.ks + o.ar) ++ column (fun o => 128 * o.am + o.dr) ++
    column Operator.sr ++ column (fun o => 16 * o.sl + o.rr) ++ [8 * v.fb + v.alg]

/-- Every register is within its width. -/
structure Operator.Fits (o : Operator) : Prop where
  dt : o.dt < 8
  mul : o.mul < 16
  tl : o.tl < 128
  ks : o.ks < 4
  ar : o.ar < 32
  am : o.am < 2
  dr : o.dr < 32
  sr : o.sr < 32
  sl : o.sl < 16
  rr : o.rr < 16

structure Voice.Fits (v : Voice) : Prop where
  alg : v.alg < 8
  fb : v.fb < 8
  operators : ∀ slot : Fin 4, v.operators[slot].Fits

theorem Operator.Fits.stored_eq {o : Operator} (h : o.Fits) : o.stored = o.heard := by
  simp [Operator.stored, Operator.heard, UInt8.mod_eq_of_lt h.dt, UInt8.mod_eq_of_lt h.mul,
    UInt8.mod_eq_of_lt h.tl, UInt8.mod_eq_of_lt h.ks, UInt8.mod_eq_of_lt h.ar,
    UInt8.mod_eq_of_lt h.am, UInt8.mod_eq_of_lt h.dr, UInt8.mod_eq_of_lt h.sr,
    UInt8.mod_eq_of_lt h.sl, UInt8.mod_eq_of_lt h.rr]

theorem Voice.Fits.stored_eq {v : Voice} (h : v.Fits) : v.stored = v.heard := by
  unfold Voice.stored Voice.heard
  rw [UInt8.mod_eq_of_lt h.alg, UInt8.mod_eq_of_lt h.fb]
  congr 1
  ext1 slot hslot
  rw [Vector.getElem_map, Vector.getElem_map]
  exact (h.operators ⟨slot, hslot⟩).stored_eq

/-! ## Reading a record -/

namespace VoiceRecord

/-- The bits of the registers that mean something. -/
def usedBits : List UInt8 :=
  List.replicate 4 0x7F ++ List.replicate 4 0x7F ++ List.replicate 4 0xDF ++
    List.replicate 4 0x9F ++ List.replicate 4 0x1F ++ List.replicate 4 0xFF ++ [0x3F]

theorem forall_byte {p : UInt8 → Prop} (h : ∀ n < 256, p (UInt8.ofNat n)) (b : UInt8) : p b := by
  have hb := h b.toNat b.toNat_lt
  rwa [UInt8.ofNat_toNat] at hb

theorem high_lt (b : UInt8) : b / 16 < 16 ∧ b / 64 < 4 ∧ b / 128 < 2 := by
  revert b
  exact forall_byte (by decide +kernel)

theorem fits_operator (registers : List UInt8) (slot : Nat) : (operator registers slot).Fits where
  dt := UInt8.mod_lt _ (by decide)
  mul := UInt8.mod_lt _ (by decide)
  tl := UInt8.mod_lt _ (by decide)
  ks := (high_lt _).2.1
  ar := UInt8.mod_lt _ (by decide)
  am := (high_lt _).2.2
  dr := UInt8.mod_lt _ (by decide)
  sr := UInt8.mod_lt _ (by decide)
  sl := (high_lt _).1
  rr := UInt8.mod_lt _ (by decide)

theorem join_fields (b : UInt8) :
    16 * (b / 16 % 8) + b % 16 = 0x7F &&& b ∧ 64 * (b / 64) + b % 32 = 0xDF &&& b ∧
      128 * (b / 128) + b % 32 = 0x9F &&& b ∧ 16 * (b / 16) + b % 16 = 0xFF &&& b ∧
      8 * (b / 8 % 8) + b % 8 = 0x3F &&& b := by
  revert b
  exact forall_byte (by decide +kernel)

theorem low_fields (b : UInt8) : b % 128 = 0x7F &&& b ∧ b % 32 = 0x1F &&& b := by
  revert b
  exact forall_byte (by decide +kernel)

def voiceOf (registers : List UInt8) : Voice where
  alg := registers.getD 24 0 % 8
  fb := registers.getD 24 0 / 8 % 8
  operators := Vector.ofFn fun slot => operator registers slot

theorem parse?_cons (id : UInt8) {registers : List UInt8} (h : registers.length = 25) :
    parse? (id :: registers) = some ⟨id, voiceOf registers⟩ := by
  have htake : (id :: registers).take size = id :: registers := by
    rw [List.take_of_length_le]
    rw [List.length_cons, h]
    exact Nat.le_refl 26
  unfold parse?
  rw [htake]
  dsimp only
  rw [if_neg]
  · rfl
  · rw [h]
    decide

theorem voice_of_parse? {bytes : List UInt8} {r : VoiceRecord} (h : parse? bytes = some r) :
    ∃ registers, r.voice = voiceOf registers := by
  unfold parse? at h
  split at h
  · rename_i id registers hbytes
    dsimp only at h
    split at h
    · cases h
    · cases h
      exact ⟨registers, rfl⟩
  · cases h

theorem fits_voiceOf (registers : List UInt8) : (voiceOf registers).Fits where
  alg := UInt8.mod_lt _ (by decide)
  fb := UInt8.mod_lt _ (by decide)
  operators := by
    intro slot
    have hslot : (voiceOf registers).operators[slot] = operator registers slot := by
      simp [voiceOf]
    rw [hslot]
    exact fits_operator registers slot

theorem registers_voiceOf {registers : List UInt8} (h : registers.length = 25) :
    (voiceOf registers).registers = List.zipWith (· &&& ·) usedBits registers := by
  have hall : registers = (List.range 25).map fun n => registers.getD n 0 := by
    apply List.ext_getElem
    · simp [h]
    · intro n hn _
      simp [hn]
  have hmasked : (voiceOf registers).registers =
      List.zipWith (· &&& ·) usedBits ((List.range 25).map fun n => registers.getD n 0) := by
    simp only [Voice.registers, voiceOf, operator, Vector.toList_ofFn, List.map_ofFn,
      Function.comp_def, join_fields]
    simp only [low_fields]
    rfl
  rw [hmasked, ← hall]

end VoiceRecord

/-! ## Writing a voice -/

namespace Tracker

open Scan

theorem mod_mod_of_pos (b : UInt8) {n : UInt8} (hn : 0 < n) : b % n % n = b % n :=
  UInt8.mod_eq_of_lt (UInt8.mod_lt b hn)

theorem encodeOperator_stored (o : Operator) :
    Instrument.encodeOperator o.stored = Instrument.encodeOperator o := by
  have hdetune : Instrument.centeredDetune (o.stored.dt % 8) =
      Instrument.centeredDetune (o.dt % 8) := by
    unfold Operator.stored
    dsimp only
    split
    · rename_i hminus
      rw [hminus]
      rfl
    · rw [mod_mod_of_pos _ (by decide)]
  unfold Instrument.encodeOperator
  rw [hdetune]
  simp (disch := decide) only [Operator.stored, mod_mod_of_pos]

theorem encodeVoice_stored (v : Voice) :
    Instrument.encodeVoice v.stored = Instrument.encodeVoice v := by
  unfold Instrument.encodeVoice Voice.stored
  simp (disch := decide) only [mod_mod_of_pos, Vector.toList_map, List.flatMap_map,
    encodeOperator_stored]

theorem encodeVoice_eq_iff {v w : Voice} :
    Instrument.encodeVoice v = Instrument.encodeVoice w ↔ v.stored = w.stored := by
  constructor
  · intro h
    have hahead : Ahead (.ofList (Instrument.encodeVoice v)) (Instrument.encodeVoice v) [] :=
      ⟨Nat.zero_le _, (List.append_nil _).symm⟩
    have hv := LoadedInstrument.reads_voice v _ _ hahead
    rw [h] at hahead hv
    rw [LoadedInstrument.reads_voice w _ _ hahead] at hv
    exact (Prod.mk.inj (Except.ok.inj hv)).1.symm
  · intro h
    rw [← encodeVoice_stored v, h, encodeVoice_stored]

theorem encodeFeature_encodeVoice_eq_iff {v w : Voice} :
    Instrument.encodeFeature "FM" (Instrument.encodeVoice v) =
      Instrument.encodeFeature "FM" (Instrument.encodeVoice w) ↔ v.stored = w.stored := by
  rw [← encodeVoice_eq_iff]
  unfold Instrument.encodeFeature
  rw [LoadedInstrument.length_encodeVoice, LoadedInstrument.length_encodeVoice,
    List.append_cancel_left_eq]

theorem load_encode_fm {v : Voice} (hv : v.Fits) {name : String}
    (hname : (Instrument.fm name v).Fits) (before after : List UInt8) :
    ∃ next, LoadedInstrument.load
      (.ofOffset (before ++ (Instrument.fm name v).encode ++ after) before.length) =
        .ok ({ type := 1, name, voice := some v.heard }, next) := by
  have hlength : (Instrument.fm name v).encode.length < 2 ^ 32 := by
    have hle := (Instrument.fm name v).length_encode_le
    have hlt := hname.length_name
    omega
  have hahead : Ahead (.ofOffset (before ++ (Instrument.fm name v).encode ++ after) before.length)
      (Instrument.fm name v).encode after := by
    constructor
    · simp [Cursor.ofOffset]
    · simp [Cursor.ofOffset]
  have hload := LoadedInstrument.load_encode hname hlength hahead
  rwa [Instrument.stored, hv.stored_eq] at hload

end Tracker

/-! ## From the record to the module and back -/

/-- A record of 26 bytes is a voice, whose registers are those of the record without the bits that
mean nothing. Written into a module under any name that can be written, it comes back with the name
and all registers, wherever its block stands, but with zero for a detune of minus zero. Two records
are written in the same bytes exactly if they are the same voice then. -/
theorem load_encode_voiceRecord {record : List UInt8} (hsize : record.length = 26) {name : String}
    (hnul : Char.ofNat 0 ∉ name.toList) (hname : (Utf8.encode name).length < 65535) :
    ∃ r, VoiceRecord.parse? record = some r ∧ record.head? = some r.id ∧
      r.voice.registers = List.zipWith (· &&& ·) VoiceRecord.usedBits record.tail ∧
      (∀ before after, ∃ next, Tracker.LoadedInstrument.load
        (.ofOffset (before ++ (Tracker.Instrument.fm name r.voice).encode ++ after)
          before.length) = .ok ({ type := 1, name, voice := some r.voice.heard }, next)) ∧
      ∀ other s, VoiceRecord.parse? other = some s →
        (Tracker.Instrument.encodeFeature "FM" (Tracker.Instrument.encodeVoice r.voice) =
          Tracker.Instrument.encodeFeature "FM" (Tracker.Instrument.encodeVoice s.voice) ↔
            r.voice.heard = s.voice.heard) := by
  match record, hsize with
  | id :: registers, hsize =>
    have hregisters : registers.length = 25 := Nat.succ.inj hsize
    have hfits := VoiceRecord.fits_voiceOf registers
    refine ⟨_, VoiceRecord.parse?_cons id hregisters, rfl,
      VoiceRecord.registers_voiceOf hregisters, ?_, ?_⟩
    · exact Tracker.load_encode_fm hfits ⟨hnul, hname⟩
    · intro other s hs
      obtain ⟨others, hvoice⟩ := VoiceRecord.voice_of_parse? hs
      have hothers := VoiceRecord.fits_voiceOf others
      rw [hvoice, Tracker.encodeFeature_encodeVoice_eq_iff, hfits.stored_eq, hothers.stored_eq]

namespace VoiceRecord

/-- A record in which one detune is minus zero and bits are set that mean nothing. -/
def minusZero : List UInt8 :=
  [0x02, 0x71, 0x42, 0x33, 0x81, 0x23, 0x2D, 0x26, 0x80, 0x5F, 0x99, 0x3F, 0x94,
    0x85, 0x05, 0x65, 0x07, 0x02, 0x02, 0x02, 0xE2, 0x11, 0x11, 0x11, 0xA6, 0xFA]

/-- The same voice under another number, with nothing in it that is not heard. -/
def plainZero : List UInt8 :=
  [0x09, 0x71, 0x02, 0x33, 0x01, 0x23, 0x2D, 0x26, 0x00, 0x5F, 0x99, 0x1F, 0x94,
    0x85, 0x05, 0x05, 0x07, 0x02, 0x02, 0x02, 0x02, 0x11, 0x11, 0x11, 0xA6, 0x3A]

end VoiceRecord

theorem load_encode_voiceRecord_minusZero :
    ∃ r s, VoiceRecord.parse? VoiceRecord.minusZero = some r ∧
      VoiceRecord.parse? VoiceRecord.plainZero = some s ∧ r.voice ≠ s.voice ∧
      Tracker.Instrument.encodeFeature "FM" (Tracker.Instrument.encodeVoice r.voice) =
        Tracker.Instrument.encodeFeature "FM" (Tracker.Instrument.encodeVoice s.voice) ∧
      ∃ next, Tracker.LoadedInstrument.load
        (.ofOffset ([0xFF] ++ (Tracker.Instrument.fm "FM 02" r.voice).encode ++ [0xFF]) 1) =
          .ok ({ type := 1, name := "FM 02", voice := some s.voice }, next) := by
  obtain ⟨r, hr, -, -, hload, hbytes⟩ := load_encode_voiceRecord
    (show VoiceRecord.minusZero.length = 26 from rfl) (show Char.ofNat 0 ∉ "FM 02".toList by decide)
    (show (Utf8.encode "FM 02").length < 65535 by decide)
  obtain ⟨s, hs, -⟩ := load_encode_voiceRecord
    (show VoiceRecord.plainZero.length = 26 from rfl) (show Char.ofNat 0 ∉ "FM 09".toList by decide)
    (show (Utf8.encode "FM 09").length < 65535 by decide)
  have hsame : (VoiceRecord.parse? VoiceRecord.minusZero).map (·.voice.heard) =
      (VoiceRecord.parse? VoiceRecord.plainZero).map VoiceRecord.voice := by
    decide +kernel
  have hplain : (VoiceRecord.parse? VoiceRecord.plainZero).map (·.voice.heard) =
      (VoiceRecord.parse? VoiceRecord.plainZero).map VoiceRecord.voice := by
    decide +kernel
  have hother : (VoiceRecord.parse? VoiceRecord.minusZero).map VoiceRecord.voice ≠
      (VoiceRecord.parse? VoiceRecord.plainZero).map VoiceRecord.voice := by
    decide +kernel
  rw [hr, hs] at hsame hother
  rw [hs] at hplain
  have hheard : r.voice.heard = s.voice := Option.some.inj hsame
  refine ⟨r, s, hr, hs, fun h => hother (congrArg some h), ?_, ?_⟩
  · exact (hbytes _ s hs).mpr (hheard.trans (Option.some.inj hplain).symm)
  · rw [← hheard]
    exact hload [0xFF] [0xFF]

end ChipScore
