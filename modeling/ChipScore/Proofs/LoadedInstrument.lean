import ChipScore.Proofs.Scan
import ChipScore.Tracker.LoadedInstrument
import Mathlib.Tactic.IntervalCases

/-!
# Instruments survive their blocks

An instrument that was written is read back with its name and its sound. The registers of an FM voice
come back cut to their widths, an SSG envelope comes back as its volume macro.
-/

namespace ChipScore

/-! ## What a block can hold -/

/-- Detune has three bits, of which the highest is the sign: zero has two forms, and the format keeps
only one. -/
def Operator.stored (o : Operator) : Operator where
  dt := if o.dt % 8 = 4 then 0 else o.dt % 8
  mul := o.mul % 16
  tl := o.tl % 128
  ks := o.ks % 4
  ar := o.ar % 32
  am := o.am % 2
  dr := o.dr % 32
  sr := o.sr % 32
  sl := o.sl % 16
  rr := o.rr % 16

def Voice.stored (v : Voice) : Voice where
  alg := v.alg % 8
  fb := v.fb % 8
  operators := v.operators.map Operator.stored

namespace Tracker

def Instrument.stored : Instrument → LoadedInstrument
  | fm name voice => { type := 1, name, voice := some voice.stored }
  | ssg name envelope => { type := 6, name, volumeMacro := some envelope.volumeMacro }

/-- The name ends at the first NUL byte, and its size has two bytes. -/
structure Instrument.Fits (i : Instrument) : Prop where
  nul_notMem : Char.ofNat 0 ∉ i.name.toList
  length_name : (Utf8.encode i.name).length < 65535

open Scan

namespace LoadedInstrument

/-! ## Voices -/

theorem signedDetune_centeredDetune {register : UInt8} (h : register < 8) :
    Instrument.centeredDetune register < 8 ∧
      signedDetune (Instrument.centeredDetune register) = if register = 4 then 0 else register := by
  rw [UInt8.lt_iff_toNat_lt] at h
  obtain ⟨n, hn⟩ : ∃ n, register.toNat = n := ⟨_, rfl⟩
  obtain rfl : register = UInt8.ofNat n := by rw [← hn, UInt8.ofNat_toNat]
  rw [hn] at h
  change n < 8 at h
  interval_cases n <;> decide

theorem operator_encodeOperator (o : Operator) :
    operator (Instrument.encodeOperator o) = o.stored := by
  have hdt : o.dt % 8 < 8 := by
    rw [UInt8.lt_iff_toNat_lt]
    simp
    omega
  obtain ⟨hlt, hdetune⟩ := signedDetune_centeredDetune hdt
  have hfirst : (o.mul % 16 + 16 * Instrument.centeredDetune (o.dt % 8)) / 16 % 8 =
      Instrument.centeredDetune (o.dt % 8) := by
    generalize Instrument.centeredDetune (o.dt % 8) = stored at hlt
    rw [UInt8.lt_iff_toNat_lt] at hlt
    rw [← UInt8.toNat_inj]
    simp at hlt ⊢
    omega
  have hmul : (o.mul % 16 + 16 * Instrument.centeredDetune (o.dt % 8)) % 16 = o.mul % 16 := by
    generalize Instrument.centeredDetune (o.dt % 8) = stored
    rw [← UInt8.toNat_inj]
    simp
  have hks : (o.ar % 32 + 64 * (o.ks % 4)) / 64 = o.ks % 4 := by grind
  have har : (o.ar % 32 + 64 * (o.ks % 4)) % 32 = o.ar % 32 := by grind
  have ham : (o.dr % 32 + 128 * (o.am % 2)) / 128 = o.am % 2 := by grind
  have hdr : (o.dr % 32 + 128 * (o.am % 2)) % 32 = o.dr % 32 := by grind
  have hsr : (o.sr % 32 + 64) % 32 = o.sr % 32 := by grind
  have hsl : (o.rr % 16 + 16 * (o.sl % 16)) / 16 = o.sl % 16 := by grind
  have hrr : (o.rr % 16 + 16 * (o.sl % 16)) % 16 = o.rr % 16 := by grind
  have htl : o.tl % 128 % 128 = o.tl % 128 := by grind
  simp [operator, Instrument.encodeOperator, Operator.stored, hfirst, hdetune, hmul, hks, har, ham,
    hdr, hsr, hsl, hrr, htl]

theorem length_encodeOperator (o : Operator) : (Instrument.encodeOperator o).length = 8 := rfl

theorem length_encodeVoice (v : Voice) : (Instrument.encodeVoice v).length = 37 := by
  simp [Instrument.encodeVoice, List.length_flatMap, length_encodeOperator]

theorem reads_voice (v : Voice) : Reads scanVoice (Instrument.encodeVoice v) v.stored := by
  obtain ⟨alg, fb, operators⟩ := v
  obtain ⟨a, b, c, d, rfl⟩ : ∃ a b c d, operators = #v[a, b, c, d] :=
    ⟨operators[0], operators[1], operators[2], operators[3], by
      ext i hi
      match i with
      | 0 | 1 | 2 | 3 => rfl⟩
  have hbytes : Instrument.encodeVoice ⟨alg, fb, #v[a, b, c, d]⟩ =
      [0xF4] ++ ([fb % 8 + 16 * (alg % 8)] ++ ([0, 0, 0] ++ (Instrument.encodeOperator a ++
        (Instrument.encodeOperator b ++ (Instrument.encodeOperator c ++
          (Instrument.encodeOperator d ++ [])))))) := rfl
  have halg : (fb % 8 + 16 * (alg % 8)) / 16 % 8 = alg % 8 := by grind
  have hfb : (fb % 8 + 16 * (alg % 8)) % 8 = fb % 8 := by grind
  have hstored : Voice.stored ⟨alg, fb, #v[a, b, c, d]⟩ =
      ⟨(fb % 8 + 16 * (alg % 8)) / 16 % 8, (fb % 8 + 16 * (alg % 8)) % 8,
        #v[operator (Instrument.encodeOperator a), operator (Instrument.encodeOperator b),
          operator (Instrument.encodeOperator c), operator (Instrument.encodeOperator d)]⟩ := by
    simp [Voice.stored, halg, hfb, operator_encodeOperator]
  rw [hbytes, hstored]
  exact (reads_skip rfl).bind <| (reads_byte _).bind <| (reads_skip rfl).bind <|
    (reads_bytes (length_encodeOperator a)).bind <| (reads_bytes (length_encodeOperator b)).bind <|
    (reads_bytes (length_encodeOperator c)).bind <| (reads_bytes (length_encodeOperator d)).bind <|
    .pure _

/-! ## Macros -/

theorem stepBytes_one (bytes : List UInt8) : stepBytes 1 bytes = bytes := by
  rw [stepBytes, Nat.div_one]
  simp only [Nat.mul_one]
  induction bytes with
  | nil => rfl
  | cons b bytes ih =>
    rw [List.length_cons, List.range_succ_eq_map, List.filterMap_cons, List.filterMap_map]
    exact congrArg (b :: ·) ih

/-- A macro that can be told from one without a release point, and whose steps can be counted in a
byte. -/
structure Storable (m : VolumeMacro) : Prop where
  length_steps : m.steps.length < 256
  releasePoint_ne : m.releasePoint ≠ some Instrument.noStep

def macroHead (m : VolumeMacro) : List UInt8 :=
  [0, UInt8.ofNat m.steps.length, Instrument.noStep, m.releasePoint.getD Instrument.noStep, 0, 1, 0, 1]

theorem scanMacro_of_ahead {m : VolumeMacro} (hm : Storable m) {c : Cursor} {rest : List UInt8}
    (hc : Ahead c (macroHead m ++ m.steps) rest) :
    scanMacro Instrument.macroHeaderSize c =
      .ok (some (0, m), c.skip (Instrument.macroHeaderSize + m.steps.length)) := by
  have hcode : Ahead c ([0] ++ ([UInt8.ofNat m.steps.length] ++ ([Instrument.noStep] ++
      ([m.releasePoint.getD Instrument.noStep] ++ ([0] ++ ([1] ++ ([0, 1] ++ m.steps))))))) rest := hc
  have hlength := hcode.append.skip
  have hloop := hlength.append.skip
  have hrelease := hloop.append.skip
  have hmode := hrelease.append.skip
  have hform := hmode.append.skip
  have hcount : (UInt8.ofNat m.steps.length).toNat * stepWidth 1 = m.steps.length := by
    rw [UInt8.toNat_ofNat_of_lt' hm.length_steps]
    exact Nat.mul_one _
  have hsteps : Ahead (c.skip Instrument.macroHeaderSize) m.steps rest := hc.append.skip
  have hpoint : (if m.releasePoint.getD Instrument.noStep = Instrument.noStep then none
      else some (m.releasePoint.getD Instrument.noStep)) = m.releasePoint := by
    cases hpoint : m.releasePoint with
    | none => rfl
    | some point => exact if_neg fun h => hm.releasePoint_ne (hpoint.trans (congrArg some h))
  have hone (b : UInt8) : [b].length = 1 := rfl
  rw [scanMacro, get_bind, bind_eq_of_ok (reads_byte _ _ _ hcode.append), if_neg (by decide),
    bind_eq_of_ok (reads_byte _ _ _ hlength.append),
    bind_eq_of_ok (reads_skip (hone Instrument.noStep) _ _ hloop.append),
    bind_eq_of_ok (reads_byte _ _ _ hrelease.append),
    bind_eq_of_ok (reads_skip (hone 0) _ _ hmode.append),
    bind_eq_of_ok (reads_byte _ _ _ hform.append), set_bind,
    bind_eq_of_ok (reads_bytes hcount.symm _ _ hsteps), hpoint, Cursor.skip_skip]
  change Except.ok (some ((0 : UInt8), VolumeMacro.mk (stepBytes 1 m.steps) m.releasePoint), _) = _
  rw [stepBytes_one]

theorem scanMacro_noStep {headerSize : Nat} {c : Cursor} {rest : List UInt8}
    (hc : Ahead c [Instrument.noStep] rest) :
    scanMacro headerSize c = .ok (none, c.skip 1) := by
  rw [scanMacro, get_bind, bind_eq_of_ok (reads_byte _ _ _ hc), if_pos rfl]
  rfl

theorem macrosFrom_of_ahead {m : VolumeMacro} (hm : Storable m) {c : Cursor} {rest : List UInt8}
    {stop : Nat} (hstop : c.offset + (Instrument.macroHeaderSize + m.steps.length) < stop)
    (hc : Ahead c (macroHead m ++ m.steps ++ [Instrument.noStep]) rest) :
    macrosFrom stop Instrument.macroHeaderSize none c = .ok (some m) := by
  have hmark := hc.append.skip
  have hlength : (macroHead m ++ m.steps).length = Instrument.macroHeaderSize + m.steps.length := by
    rw [List.length_append]
    rfl
  rw [hlength] at hmark
  rw [macrosFrom, if_pos (by omega), StateT.run, scanMacro_of_ahead hm hc.append]
  dsimp only
  have hless : (c.skip (Instrument.macroHeaderSize + m.steps.length)).rest.length <
      c.rest.length := by
    rw [hmark.rest_eq, hc.rest_eq]
    simp [macroHead]
    omega
  rw [if_pos hless, if_pos rfl, macrosFrom,
    if_pos (show (c.skip _).offset < stop from hstop), StateT.run, scanMacro_noStep hmark]

theorem length_encodeMacro (m : VolumeMacro) :
    (Instrument.encodeMacro m).length = 11 + m.steps.length := by
  simp [Instrument.encodeMacro, encodeFields, Field.encode]
  omega

theorem scanMacros_encodeMacro {m : VolumeMacro} (hm : Storable m) {c : Cursor} {rest : List UInt8}
    (hc : Ahead c (Instrument.encodeMacro m) rest) :
    ∃ next, scanMacros (c.offset + (Instrument.encodeMacro m).length) c = .ok (some m, next) := by
  have hbytes : Instrument.encodeMacro m = LittleEndian.encode 2 Instrument.macroHeaderSize ++
      (macroHead m ++ m.steps ++ [Instrument.noStep]) := rfl
  rw [hbytes] at hc ⊢
  have hmacros := hc.append.skip
  rw [LittleEndian.length_encode] at hmacros
  refine ⟨c.skip 2, ?_⟩
  rw [scanMacros, bind_eq_of_ok (reads_word (by decide) _ _ hc.append), get_bind,
    LittleEndian.length_encode]
  have hstop : (c.skip 2).offset + (Instrument.macroHeaderSize + m.steps.length) <
      c.offset + (LittleEndian.encode 2 Instrument.macroHeaderSize ++
        (macroHead m ++ m.steps ++ [Instrument.noStep])).length := by
    simp [Cursor.skip, macroHead, Instrument.macroHeaderSize]
    omega
  change (macrosFrom _ _ _ _).bind _ = _
  rw [macrosFrom_of_ahead hm hstop hmacros]
  rfl

/-! ## Envelopes -/

theorem storable_volumeMacro (e : Envelope) : Storable e.volumeMacro where
  length_steps := by
    have := List.length_take_le Envelope.stepLimit e.steps
    exact Nat.lt_succ_of_le this
  releasePoint_ne := by
    rw [Envelope.volumeMacro]
    dsimp only
    split
    · rename_i hheld
      rw [Envelope.stepLimit] at hheld
      intro h
      have hpoint := congrArg UInt8.toNat (Option.some.inj h)
      rw [UInt8.toNat_ofNat_of_lt' (Nat.lt_of_le_of_lt (Nat.sub_le _ 1) (Nat.lt_succ_of_le hheld))]
        at hpoint
      change _ = 255 at hpoint
      omega
    · exact nofun

/-! ## Features -/

theorem scanFeature_of_ahead {i taken : LoadedInstrument} {code : String} {body rest : List UInt8}
    {c next : Cursor} (hcode : (Utf8.encode code).length = 2)
    (hend : Utf8.encode code ≠ Utf8.encode "EN") (hbody : body.length < 2 ^ 16)
    (hc : Ahead c (Instrument.encodeFeature code body) rest)
    (htaken : i.feature (Utf8.encode code) body.length (c.skip 4) = .ok (taken, next)) :
    i.scanFeature c = .ok (some taken, c.skip (Instrument.encodeFeature code body).length) := by
  have hlength : (Instrument.encodeFeature code body).length = 4 + body.length := by
    rw [Instrument.encodeFeature, List.length_append, List.length_append, hcode,
      LittleEndian.length_encode]
  rw [Instrument.encodeFeature, List.append_assoc] at hc
  have hsized := reads_word hbody _ _ hc.append.skip.append
  rw [hcode, LittleEndian.length_encode] at hsized
  rw [scanFeature, reads_bytes hcode c _ hc.append]
  dsimp only
  rw [if_neg hend, hcode, hsized]
  dsimp only
  rw [Cursor.skip_skip, StateT.run, htaken, hlength, ← Cursor.skip_skip 4, ← Cursor.skip_skip 2]

theorem scanFeature_name {type : Nat} {name : String} (hname : Char.ofNat 0 ∉ name.toList)
    (hlength : (Utf8.encode name).length < 65535) {c : Cursor} {rest : List UInt8}
    (hc : Ahead c (Instrument.encodeFeature "NA" (Field.text name).encode) rest) :
    scanFeature { type } c = .ok (some { type, name },
      c.skip (Instrument.encodeFeature "NA" (Field.text name).encode).length) := by
  have hbody : Ahead (c.skip 4) (Utf8.encode name ++ [0]) rest := hc.append.skip
  have hsize : (Field.text name).encode.length < 2 ^ 16 := by
    rw [Field.encode, List.length_append, List.length_singleton]
    omega
  have htaken : feature { type } (Utf8.encode "NA") (Field.text name).encode.length (c.skip 4) =
      .ok ({ type, name }, (c.skip 4).skip (Utf8.encode name ++ [0]).length) := by
    rw [feature, if_pos rfl, bind_eq_of_ok (reads_text hname _ _ hbody)]
    rfl
  exact scanFeature_of_ahead rfl (by decide) hsize hc htaken

theorem scanFeature_sound (i : Instrument) {c : Cursor} {rest : List UInt8}
    (hc : Ahead c i.encodeSound rest) :
    scanFeature { type := i.type, name := i.name } c =
      .ok (some i.stored, c.skip i.encodeSound.length) := by
  cases i with
  | fm name voice =>
    have hbody : Ahead (c.skip 4) (Instrument.encodeVoice voice) rest := hc.append.skip
    have hsize : (Instrument.encodeVoice voice).length < 2 ^ 16 := by
      rw [length_encodeVoice]
      decide
    have htaken : feature { type := 1, name } (Utf8.encode "FM")
        (Instrument.encodeVoice voice).length (c.skip 4) =
          .ok (Instrument.stored (.fm name voice),
            (c.skip 4).skip (Instrument.encodeVoice voice).length) := by
      rw [feature, if_neg (by decide), if_pos ⟨rfl, rfl⟩,
        bind_eq_of_ok (reads_voice voice _ _ hbody)]
      rfl
    exact scanFeature_of_ahead rfl (by decide) hsize hc htaken
  | ssg name envelope =>
    have hbody : Ahead (c.skip 4) (Instrument.encodeMacro envelope.volumeMacro) rest :=
      hc.append.skip
    have hm := storable_volumeMacro envelope
    obtain ⟨next, hmacros⟩ := scanMacros_encodeMacro hm hbody
    have hsize : (Instrument.encodeMacro envelope.volumeMacro).length < 2 ^ 16 := by
      rw [length_encodeMacro]
      have := hm.length_steps
      omega
    have htaken : feature { type := 6, name } (Utf8.encode "MA")
        (Instrument.encodeMacro envelope.volumeMacro).length (c.skip 4) =
          .ok (Instrument.stored (.ssg name envelope), next) := by
      rw [feature, if_neg (by decide), if_neg (show ¬(_ ∧ (6 : Nat) = 1) by omega), if_pos rfl,
        get_bind, bind_eq_of_ok hmacros]
      rfl
    exact scanFeature_of_ahead rfl (by decide) hsize hc htaken

/-! ## Whole instruments -/

theorem featuresFrom_of_scanFeature {stop : Nat} {i taken : LoadedInstrument} {c next : Cursor}
    (hstop : c.offset + 2 ≤ stop) (h : i.scanFeature c = .ok (some taken, next)) :
    featuresFrom stop i c = featuresFrom stop taken next := by
  rw [featuresFrom, if_pos hstop]
  split
  · simp_all
  · simp_all
  · simp_all

theorem featuresFrom_end (stop : Nat) (i : LoadedInstrument) {c : Cursor} {rest : List UInt8}
    (hc : Ahead c (Utf8.encode "EN") rest) : featuresFrom stop i c = .ok i := by
  have h : i.scanFeature c = .ok (none, c.skip (Utf8.encode "EN").length) := by
    rw [scanFeature, reads_bytes (show (Utf8.encode "EN").length = 2 from rfl) c _ hc]
    rfl
  rw [featuresFrom]
  split
  · split <;> simp_all
  · rfl

theorem load_encode {i : Instrument} (hi : i.Fits) (hencoded : i.encode.length < 2 ^ 32)
    {c : Cursor} {rest : List UInt8} (hc : Ahead c i.encode rest) :
    ∃ next, load c = .ok (i.stored, next) := by
  obtain ⟨body, hbody⟩ : ∃ body, body = LittleEndian.encode 2 formatVersion ++
      (LittleEndian.encode 2 i.type ++
        (Instrument.encodeFeature "NA" (Field.text i.name).encode ++
          (i.encodeSound ++ Utf8.encode "EN"))) := ⟨_, rfl⟩
  have hencode : i.encode = encodeBlock "INS2" body := by
    rw [hbody]
    rfl
  have hsize : body.length < 2 ^ 32 := by
    rw [hencode, length_encodeBlock rfl] at hencoded
    omega
  rw [hencode] at hc
  have hblock := block_encodeBlock rfl hsize hc
  have hversion := ahead_body rfl hc
  rw [hbody] at hversion
  have htype := hversion.append.skip
  have hname := htype.append.skip
  have hsound := hname.append.skip
  have hend := hsound.append.skip
  simp only [LittleEndian.length_encode] at htype hname hsound hend
  have hstop : c.offset + 8 + body.length = (((c.skip 8).skip 2).skip 2).offset +
      (Instrument.encodeFeature "NA" (Field.text i.name).encode).length + i.encodeSound.length +
        2 := by
    have hmark : (Utf8.encode "EN").length = 2 := rfl
    simp only [hbody, List.length_append, LittleEndian.length_encode, Cursor.skip, hmark]
    omega
  have htypeValue : i.type < 2 ^ 16 := by
    cases i with
    | fm => exact show 1 < 2 ^ 16 by decide
    | ssg => exact show 6 < 2 ^ 16 by decide
  refine ⟨((c.skip 8).skip 2).skip 2, ?_⟩
  rw [load, bind_eq_of_ok hblock,
    bind_eq_of_ok (reads_skip (LittleEndian.length_encode 2 formatVersion) _ _ hversion.append),
    LittleEndian.length_encode, bind_eq_of_ok (reads_word htypeValue _ _ htype.append), get_bind,
    LittleEndian.length_encode]
  change (featuresFrom _ _ _).bind _ = _
  rw [featuresFrom_of_scanFeature (by omega)
      (scanFeature_name hi.nul_notMem hi.length_name hname.append),
    featuresFrom_of_scanFeature (by rw [Cursor.offset_skip]; omega)
      (scanFeature_sound i hsound.append),
    featuresFrom_end _ _ hend]
  rfl

end LoadedInstrument

end Tracker

end ChipScore
