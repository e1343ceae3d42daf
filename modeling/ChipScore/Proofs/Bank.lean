import ChipScore.Proofs.Texts
import ChipScore.Tracker.Bank

/-!
# What a bank holds

However a bank is filled, its instruments can be numbered in one byte, and their names are short.
-/

namespace ChipScore

/-! ## Names -/

theorem brief_repr {n : Nat} (h : n < 256) : Brief 3 n.repr := by
  have hdigits : ∀ m, m < 256 →
      Char.ofNat 0 ∉ Nat.toDigits 10 m ∧ (Nat.toDigits 10 m).length ≤ 3 := by decide +kernel
  exact .ofList (hdigits n h).1 (hdigits n h).2

theorem brief_toString_uint8 (n : UInt8) : Brief 3 (toString n) := brief_repr n.toNat_lt

theorem brief_toString_int8 (n : Int8) : Brief 4 (toString n) := by
  have hlow : -128 ≤ n.toInt := n.le_toInt
  have hhigh : n.toInt < 128 := n.toInt_lt
  change Brief 4 n.toInt.repr
  cases h : n.toInt with
  | ofNat m =>
    rw [h, Int.ofNat_eq_natCast] at hhigh
    exact (brief_repr (by omega)).mono (by decide)
  | negSucc m =>
    rw [h] at hlow
    exact (show Brief 1 "-" by decide).append (brief_repr (by omega))

theorem brief_upper (n : UInt8) : Brief 2 (Hexadecimal.upper 2 n.toNat) := by
  have hdigits : ∀ m, m < 256 → Char.ofNat 0 ∉ (Hexadecimal.digits 2 m).map Char.toUpper ∧
      ((Hexadecimal.digits 2 m).map Char.toUpper).length ≤ 2 := by decide +kernel
  exact .ofList (hdigits _ n.toNat_lt).1 (hdigits _ n.toNat_lt).2

theorem Envelope.brief_name (e : Envelope) : Brief 17 e.name := by
  have hcomma : Brief 1 "," := by decide
  unfold Envelope.name
  exact (((((((show Brief 1 "E" by decide).append (brief_toString_uint8 _)).append hcomma).append
    (brief_toString_int8 _)).append hcomma).append (brief_toString_uint8 _)).append hcomma).append
      (brief_toString_uint8 _)

namespace Tracker.Bank

/-- As long as the longest name of an instrument. -/
def nameLimit : Nat := 21

structure Sound (b : Bank) : Prop where
  size_le : b.size ≤ maxSize
  brief_name : ∀ i ∈ b.entries, Brief nameLimit i.name

theorem sound_empty : Sound {} := ⟨by decide, by simp⟩

theorem sound_add {b : Bank} (hb : Sound b) {i : Instrument} (hi : Brief nameLimit i.name) :
    Sound (b.add i).1 := by
  unfold add
  split
  · exact hb
  · rename_i hfull
    rw [isFull, decide_eq_true_iff] at hfull
    constructor
    · simp [size] at hfull ⊢
      omega
    · intro j hj
      rcases Array.mem_push.mp hj with hj | rfl
      · exact hb.brief_name j hj
      · exact hi

theorem sound_addVoice {b : Bank} (hb : Sound b) (r : VoiceRecord) : Sound (b.addVoice r).1 := by
  have hname : Brief nameLimit ("FM " ++ Hexadecimal.upper 2 r.id.toNat) :=
    ((show Brief 3 "FM " by decide).append (brief_upper r.id)).mono (by decide)
  have hadded : Sound (b.add (.fm ("FM " ++ Hexadecimal.upper 2 r.id.toNat) r.voice)).1 :=
    sound_add hb hname
  unfold addVoice
  split
  · exact ⟨hb.size_le, hb.brief_name⟩
  · dsimp only
    split
    · exact hadded
    · exact ⟨hadded.size_le, hadded.brief_name⟩

theorem sound_addFallback {b : Bank} (hb : Sound b) (needed : Bool) :
    Sound (b.addFallback needed).1 := by
  have hadded : Sound (b.add (.fm "FM default" .plain)).1 := sound_add hb (by decide)
  unfold addFallback
  split
  · split
    · exact ⟨hadded.size_le, hadded.brief_name⟩
    · exact hb
  · exact ⟨hb.size_le, hb.brief_name⟩

theorem sound_addTimbre {b : Bank} (hb : Sound b) (t : Timbre) : Sound (b.addTimbre t).1 := by
  cases t with
  | fm => exact hb
  | ssg envelope =>
    have hname : Brief nameLimit ("SSG " ++ envelope.name) :=
      (show Brief 4 "SSG " by decide).append envelope.brief_name
    have hadded : Sound (b.add (.ssg ("SSG " ++ envelope.name) envelope)).1 := sound_add hb hname
    change Sound (b.addEnvelope envelope).1
    unfold addEnvelope
    split
    · exact hb
    · exact hadded

theorem sound_addAll {α : Type} {add : Bank → α → Bank × List Loss}
    (hadd : ∀ b x, Sound b → Sound (add b x).1) {b : Bank} (hb : Sound b) (xs : List α) :
    Sound (addAll add b xs).1 := by
  unfold addAll
  generalize (#[] : Array Loss) = lost
  induction xs generalizing b lost with
  | nil => exact hb
  | cons x xs ih => exact ih (hadd b x hb) _

theorem sound_build (voices : List VoiceRecord) (timbres : List Timbre) :
    Sound (build voices timbres).1 := by
  unfold build
  exact sound_addAll (fun _ t hb => sound_addTimbre hb t)
    (sound_addFallback (sound_addAll (fun _ r hb => sound_addVoice hb r) sound_empty _) _) _

end Tracker.Bank

end ChipScore
