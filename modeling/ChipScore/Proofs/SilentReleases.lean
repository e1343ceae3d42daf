import ChipScore.Proofs.BankNumbers
import ChipScore.Proofs.Conversion
import ChipScore.Proofs.EffectColumns
import ChipScore.Proofs.VolumeMacros

/-!
# Released notes fall silent

A released note falls silent if its macro has a step to wait on and ends without a sound. That is so
for all macros that fit, and for a cut one exactly if the cut comes where the note is silent. Of every
macro that is cut a conversion tells.
-/

namespace ChipScore

/-- The macro waits until the key is let go, and ends without a sound. -/
def VolumeMacro.FallsSilent (m : VolumeMacro) : Prop :=
  m.releasePoint.isSome = true ∧ m.steps.getLast? = some 0

namespace Envelope

theorem getElem?_steps (e : Envelope) {tick : Nat} (h : tick < e.heldTicks + e.releasedTicks) :
    e.steps[tick]? = some (UInt8.ofNat (if tick < e.heldTicks then e.heldLevel tick
      else e.releasedLevel (tick - e.heldTicks))) := by
  rw [steps]
  split
  · rename_i hheld
    rw [List.getElem?_append_left (by rwa [length_expand_held]), expand_held,
      getElem?_levels _ hheld]
  · rename_i hheld
    rw [List.getElem?_append_right (by rw [length_expand_held]; omega), length_expand_held,
      expand_released, getElem?_levels _ (by omega)]

theorem length_steps (e : Envelope) : e.steps.length = e.heldTicks + e.releasedTicks := by
  rw [steps, List.length_append, length_expand_held, length_expand_released]

theorem ofNat_eq_zero_iff {level : Nat} (h : level ≤ fullLevel) :
    UInt8.ofNat level = 0 ↔ level = 0 := by
  rw [← UInt8.toNat_inj, UInt8.toNat_ofNat_of_lt' (Nat.lt_of_le_of_lt h (by decide))]
  rfl

theorem fall_lt_releasedTicks (e : Envelope) :
    (e.decayed - 1) * e.release.toNat < e.releasedTicks := by
  rw [releasedTicks]
  split
  · rename_i h
    rcases h with h | h <;> simp [h]
  · rename_i h
    rw [not_or] at h
    exact Nat.mul_lt_mul_of_pos_right (Nat.sub_one_lt h.2) (pos_of_ne_zero h.1)

theorem getLast?_volumeMacro (e : Envelope) : e.volumeMacro.steps.getLast? = some 0 ↔
    e.heldTicks + (e.decayed - 1) * e.release.toNat < stepLimit ∨
      e.heldTicks = stepLimit ∧ (e.sustain ≠ 0 ∨ e.decayed = 0) := by
  have hfall := e.fall_lt_releasedTicks
  change (e.steps.take stepLimit).getLast? = some 0 ↔ _
  by_cases hfits : e.steps.length < stepLimit
  · have hlast : e.steps.getLast? = some 0 := by
      rw [steps, List.getLast?_append, getLast?_expand_released]
      rfl
    rw [List.take_of_length_le (Nat.le_of_lt hfits)]
    rw [length_steps] at hfits
    exact iff_of_true hlast (.inl (by omega))
  · rw [length_steps] at hfits
    have hlimit : stepLimit = 255 := rfl
    rw [List.getLast?_take, if_neg (by decide), e.getElem?_steps (by omega), Option.some_or,
      Option.some.injEq]
    split
    · rename_i hheld
      rw [ofNat_eq_zero_iff (e.heldLevel_le _), e.heldLevel_eq_zero_iff hheld]
      constructor
      · rintro ⟨hat, hsilent⟩
        exact .inr ⟨by omega, hsilent⟩
      · rintro (hlong | ⟨hat, hsilent⟩)
        · omega
        · exact ⟨by omega, hsilent⟩
    · rename_i hheld
      rw [ofNat_eq_zero_iff (e.releasedLevel_le _), releasedLevel_eq_zero_iff]
      constructor
      · intro hfallen
        exact .inl (by omega)
      · rintro (hfallen | ⟨hat, -⟩)
        · omega
        · omega

theorem isSome_releasePoint_iff (e : Envelope) :
    e.volumeMacro.releasePoint.isSome = true ↔ e.heldTicks ≤ stepLimit := by
  rw [← Option.isSome_map (f := UInt8.toNat), releasePoint_volumeMacro]
  split
  · rename_i h
    exact iff_of_true rfl h
  · rename_i h
    exact iff_of_false Bool.false_ne_true h

theorem fallsSilent_iff (e : Envelope) : e.volumeMacro.FallsSilent ↔
    e.heldTicks + (e.decayed - 1) * e.release.toNat < stepLimit ∨
      e.heldTicks = stepLimit ∧ (e.sustain ≠ 0 ∨ e.decayed = 0) := by
  rw [VolumeMacro.FallsSilent, isSome_releasePoint_iff, getLast?_volumeMacro]
  constructor
  · exact And.right
  · intro h
    refine ⟨?_, h⟩
    rcases h with h | ⟨h, -⟩ <;> omega

theorem fallsSilent_of_isCut_eq_false {e : Envelope} (h : e.isCut = false) :
    e.volumeMacro.FallsSilent := by
  have hfall := e.fall_lt_releasedTicks
  rw [isCut, length_steps, decide_eq_false_iff_not] at h
  exact e.fallsSilent_iff.mpr (.inl (by omega))

end Envelope

/-! ## Telling of cuts -/

namespace Tracker.Bank

variable {b : Bank} {losses : List Loss}

/-- Of every macro in a bank that is cut there is a loss that says so. -/
def TellsCuts (b : Bank) (losses : List Loss) : Prop :=
  ∀ name e, .ssg name e ∈ b.entries → e.isCut = true →
    .volumeMacroCut name Envelope.stepLimit ∈ losses

theorem Voiced.tellsCuts (h : b.Voiced) : b.TellsCuts [] := by
  intro name e hentry
  cases h.isFm _ hentry

theorem TellsCuts.mono (h : b.TellsCuts losses) (more : List Loss) :
    b.TellsCuts (losses ++ more) :=
  fun name e hentry hcut => List.mem_append_left _ (h name e hentry hcut)

theorem TellsCuts.addTimbre (h : b.TellsCuts losses) (t : Timbre) :
    (b.addTimbre t).1.TellsCuts (losses ++ (b.addTimbre t).2) := by
  cases t with
  | fm number => exact h.mono []
  | ssg envelope =>
    change (b.addEnvelope envelope).1.TellsCuts (losses ++ (b.addEnvelope envelope).2)
    unfold addEnvelope
    split
    · exact h.mono []
    · dsimp only
      cases hfull : b.isFull with
      | true =>
        rw [add_of_full hfull]
        exact h.mono _
      | false =>
        rw [add_of_room hfull]
        intro name e hentry hcut
        rcases Array.mem_push.mp hentry with hentry | hnew
        · exact List.mem_append_left _ (h name e hentry hcut)
        · cases hnew
          rw [if_pos hcut]
          simp

theorem tellsCuts_build (voices : List VoiceRecord) (timbres : List Timbre) :
    (build voices timbres).1.TellsCuts (build voices timbres).2 := by
  have hvoiced := addAll_induction (P := fun _ b _ => b.Voiced) voiced_empty
    (fun r h => h.addVoice r) (voices.mergeSort fun r s => r.id ≤ s.id)
  obtain ⟨hfm, -⟩ := hvoiced.addFallback (timbres.any isFm)
  have hall := addAll_induction (P := fun _ b losses => b.TellsCuts losses) hfm.tellsCuts
    (fun t h => h.addTimbre t) timbres
  intro name e hentry hcut
  exact List.mem_append_right _ (hall name e hentry hcut)

end Tracker.Bank

theorem overflow_volumeMacroCut_mem_arrange {o : Options} {voices : List VoiceRecord}
    {timelines : List Timeline} {name : String} {e : Envelope}
    (hentry : .ssg name e ∈ (arrange o voices timelines).1.instruments.entries)
    (hcut : e.isCut = true) : .overflow .song (.volumeMacroCut name Envelope.stepLimit) ∈
      (arrange o voices timelines).2 :=
  List.mem_append_right _
    (List.mem_map_of_mem (Tracker.Bank.tellsCuts_build _ _ name e hentry hcut))

theorem volumeMacroCut_mem_warnings {o : Options} {data : List UInt8} {codec : Codec}
    {conv : Conversion} (h : convert o data codec = .ok conv) {name : String} {e : Envelope}
    (hentry : .ssg name e ∈ conv.arrangement.instruments.entries) (hcut : e.isCut = true) :
    .overflow .song (.volumeMacroCut name Envelope.stepLimit) ∈ conv.warnings.items := by
  obtain ⟨p, -, hp, -, harrangement, -, -⟩ := of_convert h
  rw [harrangement] at hentry
  rw [warnings_of_convert h hp, Warnings.mem_append]
  exact .inr (overflow_volumeMacroCut_mem_arrange hentry hcut)

/-- The volume macro of an envelope has a release point exactly if its held levels fit, and falls
silent exactly if the limit comes when a released note is silent already or a held one has just faded
away, so every macro that is not cut does. Of any other one in a module the conversion tells. -/
theorem fallsSilent_or_told (e : Envelope) :
    (e.volumeMacro.releasePoint.isSome = true ↔ e.heldTicks ≤ Envelope.stepLimit) ∧
      (e.volumeMacro.FallsSilent ↔
        e.heldTicks + (e.decayed - 1) * e.release.toNat < Envelope.stepLimit ∨
          e.heldTicks = Envelope.stepLimit ∧ (e.sustain ≠ 0 ∨ e.decayed = 0)) ∧
      (e.isCut = false → e.volumeMacro.FallsSilent) ∧
      ∀ o data codec conv name, convert o data codec = .ok conv →
        .ssg name e ∈ conv.arrangement.instruments.entries → ¬e.volumeMacro.FallsSilent →
          .overflow .song (.volumeMacroCut name Envelope.stepLimit) ∈ conv.warnings.items := by
  refine ⟨e.isSome_releasePoint_iff, e.fallsSilent_iff, Envelope.fallsSilent_of_isCut_eq_false, ?_⟩
  intro o data codec conv name h hentry hsounds
  apply volumeMacroCut_mem_warnings h hentry
  rw [← Bool.not_eq_false]
  exact fun hfits => hsounds (Envelope.fallsSilent_of_isCut_eq_false hfits)

def slowRelease : Envelope := { attack := 200, release := 60 }

/-- A score with one SSG part, which plays one note with a slow release. -/
def slowlyReleased : List UInt8 :=
  List.replicate 13 0 ++ [26, 0] ++ List.replicate 12 0 ++ [0xF0, 200, 0, 0, 60, 0x40, 12, 0x80]

theorem fallsSilent_or_told_slowRelease :
    ({} : Envelope).volumeMacro.FallsSilent ∧
      slowRelease.volumeMacro.releasePoint.isSome = true ∧
      ¬slowRelease.volumeMacro.FallsSilent ∧
      ∃ conv, convert {} slowlyReleased = .ok conv ∧
        .ssg "SSG E200,0,0,60" slowRelease ∈ conv.arrangement.instruments.entries ∧
        .overflow .song (.volumeMacroCut "SSG E200,0,0,60" 255) ∈ conv.warnings.items := by
  obtain ⟨-, -, hplain, -⟩ := fallsSilent_or_told {}
  obtain ⟨hpoint, hsilent, -, htold⟩ := fallsSilent_or_told slowRelease
  have hsounds : ¬slowRelease.volumeMacro.FallsSilent := by
    rw [hsilent]
    decide
  have hconverts : ∃ conv ∈ (convert {} slowlyReleased).toOption,
      conv.arrangement.instruments.entries = #[.ssg "SSG E200,0,0,60" slowRelease] := by
    decide +kernel
  obtain ⟨conv, hmem, hentries⟩ := hconverts
  have hconv := eq_ok_of_mem_toOption hmem
  have hentry : .ssg "SSG E200,0,0,60" slowRelease ∈ conv.arrangement.instruments.entries := by
    rw [hentries]
    exact Array.mem_singleton.mpr rfl
  exact ⟨hplain (by decide), hpoint.mpr (by decide), hsounds, conv, hconv, hentry,
    htold _ _ _ conv _ hconv hentry hsounds⟩

/-- An attack that alone fills the macro. -/
def longAttack : Envelope := { attack := 255, decay := -1, sustain := 1, release := 1 }

theorem not_fallsSilent_longAttack :
    longAttack.volumeMacro.releasePoint = none ∧
      longAttack.volumeMacro.steps.getLast? = some 15 ∧ ¬longAttack.volumeMacro.FallsSilent := by
  have hpoint : longAttack.volumeMacro.releasePoint = none := by decide +kernel
  refine ⟨hpoint, by decide +kernel, ?_⟩
  rintro ⟨hsome, -⟩
  rw [hpoint] at hsome
  cases hsome

end ChipScore
