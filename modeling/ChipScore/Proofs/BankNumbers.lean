import ChipScore.Proofs.Bank
import Mathlib.Data.List.Induction
import Mathlib.Data.List.Nodup

/-!
# How a bank numbers its instruments

FM voices come before SSG envelopes, each of them once, and the envelopes in the order in which they
are first asked for. The number that stands for a timbre is always one of the bank, and as long as the
bank has not run out of numbers every timbre that is asked for has one.
-/

namespace ChipScore

def Timbre.envelope? : Timbre → Option Envelope
  | fm _ => none
  | ssg envelope => some envelope

/-- The envelopes that are asked for, each once and in the order of the first time. -/
def firstEnvelopes (timbres : List Timbre) : List Envelope :=
  (timbres.filterMap Timbre.envelope?).eraseDups

namespace Tracker

namespace Instrument

def voice? : Instrument → Option Voice
  | fm _ voice => some voice
  | ssg .. => none

def envelope? : Instrument → Option Envelope
  | fm .. => none
  | ssg _ envelope => some envelope

theorem exists_of_isSome_voice? {i : Instrument} (h : i.voice?.isSome) :
    ∃ name voice, i = .fm name voice := by
  cases i with
  | fm name voice => exact ⟨name, voice, rfl⟩
  | ssg => cases h

end Instrument

namespace Bank

variable {b : Bank} {timbres : List Timbre} {losses : List Loss}

def heldVoices (b : Bank) : List Voice := b.entries.toList.filterMap Instrument.voice?

def heldEnvelopes (b : Bank) : List Envelope := b.entries.toList.filterMap Instrument.envelope?

/-! ## Looking up -/

theorem lt_of_voiceIndex? {voice : Voice} {index : Nat} (h : b.voiceIndex? voice = some index) :
    index < b.size := by
  obtain ⟨hindex, -⟩ := Array.findIdx?_eq_some_iff_getElem.mp h
  exact hindex

theorem notMem_of_voiceIndex? {voice : Voice} (h : b.voiceIndex? voice = none) :
    voice ∉ b.heldVoices := by
  unfold heldVoices
  intro hmem
  obtain ⟨i, hi, hvoice⟩ := List.mem_filterMap.mp hmem
  have hno := Array.findIdx?_eq_none_iff.mp h i (Array.mem_toList_iff.mp hi)
  cases i with
  | fm name v =>
    cases hvoice
    simp at hno
  | ssg => cases hvoice

theorem entry_of_envelopeIndex? {envelope : Envelope} {index : Nat}
    (h : b.envelopeIndex? envelope = some index) :
    ∃ name, b.entries[index]? = some (.ssg name envelope) := by
  obtain ⟨hindex, hentry, -⟩ := Array.findIdx?_eq_some_iff_getElem.mp h
  rw [Array.getElem?_eq_getElem hindex]
  generalize b.entries[index] = i at hentry
  cases i with
  | fm => cases hentry
  | ssg name e =>
    have he : e = envelope := by simpa using hentry
    rw [he]
    exact ⟨name, rfl⟩

theorem mem_heldEnvelopes {envelope : Envelope} :
    envelope ∈ b.heldEnvelopes ↔ (b.envelopeIndex? envelope).isSome := by
  unfold heldEnvelopes envelopeIndex?
  rw [Array.findIdx?_isSome, Array.any_eq_true', List.mem_filterMap]
  constructor
  · rintro ⟨i, hi, henvelope⟩
    refine ⟨i, Array.mem_toList_iff.mp hi, ?_⟩
    cases i <;> simp_all [Instrument.envelope?]
  · rintro ⟨i, hi, henvelope⟩
    refine ⟨i, Array.mem_toList_iff.mpr hi, ?_⟩
    cases i <;> simp_all [Instrument.envelope?]

theorem lt_of_envelopeIndex? {envelope : Envelope} {index : Nat}
    (h : b.envelopeIndex? envelope = some index) : index < b.size := by
  obtain ⟨hindex, -⟩ := Array.findIdx?_eq_some_iff_getElem.mp h
  exact hindex

/-! ## Filling -/

theorem add_of_full (h : b.isFull) (i : Instrument) :
    b.add i = (b, [.instrumentDropped i.name]) := by
  unfold add
  rw [if_pos h]

theorem add_of_room (h : b.isFull = false) (i : Instrument) :
    b.add i = ({ b with entries := b.entries.push i }, []) := by
  unfold add
  rw [if_neg (Bool.eq_false_iff.mp h)]

theorem size_push (b : Bank) (i : Instrument) :
    { b with entries := b.entries.push i }.size = b.size + 1 :=
  Array.size_push i

theorem heldVoices_push (b : Bank) (name : String) (voice : Voice) :
    { b with entries := b.entries.push (.fm name voice) }.heldVoices = b.heldVoices ++ [voice] := by
  unfold heldVoices
  rw [Array.toList_push, List.filterMap_append]
  rfl

theorem heldEnvelopes_push (b : Bank) (name : String) (envelope : Envelope) :
    { b with entries := b.entries.push (.ssg name envelope) }.heldEnvelopes =
      b.heldEnvelopes ++ [envelope] := by
  unfold heldEnvelopes
  rw [Array.toList_push, List.filterMap_append]
  rfl

/-- What holds of a bank before anything is added, and is kept by each addition, holds after all of
them. The losses come one after the other. -/
theorem addAll_induction {α : Type} {add : Bank → α → Bank × List Loss} {start : Bank}
    {P : List α → Bank → List Loss → Prop} (hstart : P [] start [])
    (hadd : ∀ {done b losses} (x : α), P done b losses →
      P (done ++ [x]) (add b x).1 (losses ++ (add b x).2)) (xs : List α) :
    P xs (addAll add start xs).1 (addAll add start xs).2.toList := by
  induction xs using List.reverseRecOn with
  | nil => exact hstart
  | append_singleton xs x ih =>
    have hlast := hadd x ih
    unfold addAll at hlast ⊢
    rw [List.foldl_append]
    simpa using hlast

/-! ## Voices -/

/-- A bank of FM voices only, each of them once, in which voice numbers and the fallback stand for
something. -/
structure Voiced (b : Bank) : Prop where
  isFm : ∀ i ∈ b.entries, i.voice?.isSome
  nodup : b.heldVoices.Nodup
  index_lt : ∀ entry ∈ b.voices, entry.2 < b.size
  fallback_lt : ∀ index ∈ b.fallback, index < b.size

theorem voiced_empty : Voiced {} := by
  constructor <;> simp [heldVoices]

theorem Voiced.push (h : b.Voiced) (name : String) {voice : Voice} (hnew : voice ∉ b.heldVoices) :
    Voiced { b with entries := b.entries.push (.fm name voice) } := by
  obtain ⟨hfm, hnodup, hindex, hfallback⟩ := h
  constructor
  · intro i hi
    rcases Array.mem_push.mp hi with hi | rfl
    · exact hfm i hi
    · rfl
  · rw [heldVoices_push, ← List.concat_eq_append]
    exact hnodup.concat hnew
  · intro entry hentry
    rw [size_push]
    exact Nat.lt_succ_of_lt (hindex entry hentry)
  · intro index hi
    rw [size_push]
    exact Nat.lt_succ_of_lt (hfallback index hi)

theorem Voiced.assign (h : b.Voiced) (number : UInt8) {index : Nat} (hindex : index < b.size) :
    (b.assign number index).Voiced := by
  refine ⟨h.isFm, h.nodup, ?_, h.fallback_lt⟩
  intro entry hentry
  rcases List.mem_cons.mp hentry with rfl | hentry
  · exact hindex
  · exact h.index_lt entry hentry

theorem Voiced.addVoice (h : b.Voiced) (r : VoiceRecord) : (b.addVoice r).1.Voiced := by
  unfold Bank.addVoice
  split
  · rename_i index hindex
    exact h.assign r.id (lt_of_voiceIndex? hindex)
  · rename_i hnone
    cases hfull : b.isFull with
    | true =>
      rw [add_of_full hfull]
      exact h
    | false =>
      rw [add_of_room hfull]
      refine (h.push _ (notMem_of_voiceIndex? hnone)).assign r.id ?_
      rw [size_push]
      exact Nat.lt_succ_self _

theorem Voiced.addFallback (h : b.Voiced) (needed : Bool) :
    (b.addFallback needed).1.Voiced ∧
      (needed = true → (b.addFallback needed).1.fallback.isSome) := by
  unfold Bank.addFallback
  split_ifs with hempty hneeded
  · have hentries : b.entries = #[] := Array.isEmpty_iff.mp hempty
    have hroom : b.isFull = false := by simp [isFull, size, hentries, maxSize]
    have hheld : b.heldVoices = [] := by simp [heldVoices, hentries]
    have hplain : Voiced { b with entries := b.entries.push (.fm "FM default" .plain) } :=
      h.push "FM default" (by simp [hheld])
    rw [add_of_room hroom]
    refine ⟨⟨hplain.isFm, hplain.nodup, hplain.index_lt, ?_⟩, fun _ => rfl⟩
    intro index hindex
    cases hindex
    exact Nat.lt_of_lt_of_eq (Nat.succ_pos _) (size_push b _).symm
  · exact ⟨h, fun hn => absurd hn hneeded⟩
  · refine ⟨⟨h.isFm, h.nodup, h.index_lt, ?_⟩, fun _ => rfl⟩
    intro index hindex
    cases hindex
    rw [Array.isEmpty_iff_size_eq_zero] at hempty
    exact Nat.pos_of_ne_zero hempty

/-! ## Envelopes -/

/-- The warning that a bank has run out of numbers. -/
def SaysFull (losses : List Loss) : Prop := ∃ name, .instrumentDropped name ∈ losses

/-- All that the request for an envelope can do to a bank. -/
inductive Takes (b : Bank) (envelope : Envelope) : Bank → List Loss → Prop
  | held (h : envelope ∈ b.heldEnvelopes) : Takes b envelope b []
  | drops (h : envelope ∉ b.heldEnvelopes) {losses : List Loss} (full : b.isFull)
    (said : SaysFull losses) : Takes b envelope b losses
  | adds (h : envelope ∉ b.heldEnvelopes) (name : String) (losses : List Loss)
    (room : b.isFull = false) :
    Takes b envelope { b with entries := b.entries.push (.ssg name envelope) } losses

theorem takes_addEnvelope (b : Bank) (envelope : Envelope) :
    Takes b envelope (b.addEnvelope envelope).1 (b.addEnvelope envelope).2 := by
  unfold addEnvelope
  split
  · rename_i hindex
    exact .held (mem_heldEnvelopes.mpr hindex)
  · rename_i hindex
    have hnew : envelope ∉ b.heldEnvelopes := fun h => hindex (mem_heldEnvelopes.mp h)
    dsimp only
    cases hfull : b.isFull with
    | true =>
      rw [add_of_full hfull]
      exact .drops hnew hfull ⟨_, List.mem_append_right _ (List.mem_singleton_self _)⟩
    | false =>
      rw [add_of_room hfull]
      exact .adds hnew _ _ hfull

theorem firstEnvelopes_fm (done : List Timbre) (number : UInt8) :
    firstEnvelopes (done ++ [.fm number]) = firstEnvelopes done := by
  unfold firstEnvelopes
  rw [List.filterMap_append, List.filterMap_cons]
  simp [Timbre.envelope?]

theorem firstEnvelopes_ssg (done : List Timbre) (envelope : Envelope) :
    firstEnvelopes (done ++ [.ssg envelope]) =
      if envelope ∈ firstEnvelopes done then firstEnvelopes done
      else firstEnvelopes done ++ [envelope] := by
  have hasked : (done ++ [Timbre.ssg envelope]).filterMap Timbre.envelope? =
      done.filterMap Timbre.envelope? ++ [envelope] := List.filterMap_append
  unfold firstEnvelopes
  rw [hasked, List.eraseDups_append]
  simp only [List.mem_eraseDups]
  generalize done.filterMap Timbre.envelope? = asked
  split_ifs with h
  · simp [List.removeAll, h]
  · simp [List.removeAll, h, List.eraseDups_cons]

/-- A bank of FM voices to which envelopes were added for some timbres. -/
structure Extends (fm : Bank) (done : List Timbre) (b : Bank) (losses : List Loss) : Prop where
  voices : b.voices = fm.voices
  fallback : b.fallback = fm.fallback
  entries : ∃ ssg, b.entries.toList = fm.entries.toList ++ ssg ∧ ∀ i ∈ ssg, i.envelope?.isSome
  nodup : b.heldEnvelopes.Nodup
  firstAsked : b.heldEnvelopes <+: firstEnvelopes done
  complete : b.heldEnvelopes = firstEnvelopes done ∨ b.isFull ∧ SaysFull losses

theorem Extends.takes {fm next : Bank} {done : List Timbre} {envelope : Envelope}
    {more : List Loss} (h : Extends fm done b losses) (htakes : Takes b envelope next more) :
    Extends fm (done ++ [.ssg envelope]) next (losses ++ more) := by
  obtain ⟨hvoices, hfallback, ⟨ssg, hentries, hssg⟩, hnodup, hfirst, hcomplete⟩ := h
  have hsaid : SaysFull losses → SaysFull (losses ++ more) :=
    fun ⟨name, hname⟩ => ⟨name, List.mem_append_left _ hname⟩
  have hmore := firstEnvelopes_ssg done envelope
  cases htakes with
  | held hheld =>
    rw [if_pos (hfirst.subset hheld)] at hmore
    rw [← hmore] at hfirst hcomplete
    exact ⟨hvoices, hfallback, ⟨ssg, hentries, hssg⟩, hnodup, hfirst,
      hcomplete.imp_right (And.imp_right hsaid)⟩
  | drops hnew full said =>
    obtain ⟨name, hname⟩ := said
    refine ⟨hvoices, hfallback, ⟨ssg, hentries, hssg⟩, hnodup, ?_,
      .inr ⟨full, name, List.mem_append_right _ hname⟩⟩
    rw [hmore]
    split_ifs
    · exact hfirst
    · exact hfirst.trans (List.prefix_append _ _)
  | adds hnew name _ room =>
    -- There was room, so nothing has been left out so far.
    have hall : b.heldEnvelopes = firstEnvelopes done := by
      refine hcomplete.resolve_right ?_
      rintro ⟨hfull, -⟩
      rw [room] at hfull
      cases hfull
    rw [hall] at hnew
    rw [if_neg hnew, ← hall, ← heldEnvelopes_push b name] at hmore
    refine ⟨hvoices, hfallback, ⟨ssg ++ [.ssg name envelope], ?_, ?_⟩, ?_, ?_, .inl hmore.symm⟩
    · rw [Array.toList_push, hentries, List.append_assoc]
    · rw [List.forall_mem_append]
      exact ⟨hssg, by simp [Instrument.envelope?]⟩
    · rw [heldEnvelopes_push, ← List.concat_eq_append]
      rw [← hall] at hnew
      exact hnodup.concat hnew
    · exact ⟨[], by rw [List.append_nil, hmore]⟩

theorem Extends.addTimbre {fm : Bank} {done : List Timbre} (h : Extends fm done b losses)
    (t : Timbre) : Extends fm (done ++ [t]) (b.addTimbre t).1 (losses ++ (b.addTimbre t).2) := by
  cases t with
  | ssg envelope => exact h.takes (takes_addEnvelope b envelope)
  | fm number =>
    obtain ⟨hvoices, hfallback, hentries, hnodup, hfirst, hcomplete⟩ := h
    rw [← firstEnvelopes_fm done number] at hfirst hcomplete
    rw [← List.append_nil losses] at hcomplete
    exact ⟨hvoices, hfallback, hentries, hnodup, hfirst, hcomplete⟩

theorem Voiced.heldEnvelopes_eq (h : b.Voiced) : b.heldEnvelopes = [] := by
  unfold heldEnvelopes
  rw [List.filterMap_eq_nil_iff]
  intro i hi
  obtain ⟨name, voice, rfl⟩ :=
    Instrument.exists_of_isSome_voice? (h.isFm i (Array.mem_toList_iff.mp hi))
  rfl

theorem Voiced.extends_nil (h : b.Voiced) : Extends b [] b [] := by
  have hnone := h.heldEnvelopes_eq
  refine ⟨rfl, rfl, ⟨[], (List.append_nil _).symm, by simp⟩, ?_, ?_, .inl hnone⟩
  · simp [hnone]
  · simp [hnone]

/-! ## Numbers -/

theorem toNat_ofNat_of_lt {index : Nat} (h : index < b.size) (hsize : b.size ≤ maxSize) :
    (UInt8.ofNat index).toNat = index :=
  UInt8.toNat_ofNat_of_lt' (Nat.lt_of_lt_of_le h hsize)

theorem Voiced.lt_of_number (h : b.Voiced) {number : UInt8} {index : Nat}
    (hindex : (b.voices.lookup number).or b.fallback = some index) : index < b.size := by
  cases hlookup : b.voices.lookup number with
  | some place =>
    rw [hlookup] at hindex
    cases hindex
    obtain ⟨before, after, hvoices, -⟩ := List.lookup_eq_some_iff.mp hlookup
    exact h.index_lt (number, index) (by simp [hvoices])
  | none =>
    rw [hlookup] at hindex
    exact h.fallback_lt index hindex

namespace Extends

variable {fm : Bank}

theorem size_le (h : Extends fm timbres b losses) : fm.size ≤ b.size := by
  obtain ⟨ssg, hentries, -⟩ := h.entries
  unfold size
  rw [← Array.length_toList, ← Array.length_toList, hentries, List.length_append]
  exact Nat.le_add_right _ _

theorem heldVoices_eq (h : Extends fm timbres b losses) : b.heldVoices = fm.heldVoices := by
  obtain ⟨ssg, hentries, hssg⟩ := h.entries
  have hnone : ssg.filterMap Instrument.voice? = [] := by
    rw [List.filterMap_eq_nil_iff]
    intro i hi
    have henvelope := hssg i hi
    cases i with
    | fm => cases henvelope
    | ssg => rfl
  unfold heldVoices
  rw [hentries, List.filterMap_append, hnone, List.append_nil]

theorem getElem?_of_lt (h : Extends fm timbres b losses) {index : Nat} (hindex : index < fm.size) :
    b.entries[index]? = fm.entries[index]? := by
  obtain ⟨ssg, hentries, -⟩ := h.entries
  have hlength : index < fm.entries.toList.length := by
    rw [Array.length_toList]
    exact hindex
  rw [← Array.getElem?_toList, hentries, List.getElem?_append_left hlength, Array.getElem?_toList]

theorem voice_of_lt (h : Extends fm timbres b losses) (hfm : fm.Voiced) {index : Nat}
    (hindex : index < fm.size) : ∃ name voice, b.entries[index]? = some (.fm name voice) := by
  obtain ⟨name, voice, hi⟩ := Instrument.exists_of_isSome_voice?
    (hfm.isFm fm.entries[index] (Array.getElem_mem hindex))
  refine ⟨name, voice, ?_⟩
  rw [h.getElem?_of_lt hindex, Array.getElem?_eq_getElem hindex]
  exact congrArg some hi

theorem resolve?_fm (h : Extends fm timbres b losses) (number : UInt8) :
    b.resolve? (.fm number) = ((fm.voices.lookup number).or fm.fallback).map UInt8.ofNat := by
  rw [resolve?, h.voices, h.fallback]

theorem resolve_lt (h : Extends fm timbres b losses) (hfm : fm.Voiced) (hsize : b.size ≤ maxSize)
    {timbre : Timbre} {n : UInt8} (hn : b.resolve? timbre = some n) : n.toNat < b.size := by
  have hlt : ∃ index, index < b.size ∧ UInt8.ofNat index = n := by
    cases timbre with
    | fm number =>
      rw [h.resolve?_fm] at hn
      obtain ⟨index, hindex, hn⟩ := Option.map_eq_some_iff.mp hn
      exact ⟨index, Nat.lt_of_lt_of_le (hfm.lt_of_number hindex) h.size_le, hn⟩
    | ssg envelope =>
      obtain ⟨index, hindex, hn⟩ := Option.map_eq_some_iff.mp hn
      exact ⟨index, lt_of_envelopeIndex? hindex, hn⟩
  obtain ⟨index, hlt, rfl⟩ := hlt
  rw [toNat_ofNat_of_lt hlt hsize]
  exact hlt

theorem voice_of_fm (h : Extends fm timbres b losses) (hfm : fm.Voiced)
    (hsize : b.size ≤ maxSize) (hfallback : fm.fallback.isSome) (number : UInt8) :
    ∃ n name voice, b.resolve? (.fm number) = some n ∧
      b.entries[n.toNat]? = some (.fm name voice) := by
  have hsome : ((fm.voices.lookup number).or fm.fallback).isSome := by
    rw [Option.isSome_or, hfallback, Bool.or_true]
  obtain ⟨index, hindex⟩ := Option.isSome_iff_exists.mp hsome
  have hlt := hfm.lt_of_number hindex
  obtain ⟨name, voice, hentry⟩ := h.voice_of_lt hfm hlt
  refine ⟨UInt8.ofNat index, name, voice, ?_, ?_⟩
  · rw [h.resolve?_fm, hindex]
    rfl
  · rw [toNat_ofNat_of_lt (Nat.lt_of_lt_of_le hlt h.size_le) hsize]
    exact hentry

end Extends

theorem envelope_of_mem (hsize : b.size ≤ maxSize) {envelope : Envelope}
    (h : envelope ∈ b.heldEnvelopes) : ∃ n name, b.resolve? (.ssg envelope) = some n ∧
      b.entries[n.toNat]? = some (.ssg name envelope) := by
  obtain ⟨index, hindex⟩ := Option.isSome_iff_exists.mp (mem_heldEnvelopes.mp h)
  obtain ⟨name, hentry⟩ := entry_of_envelopeIndex? hindex
  refine ⟨UInt8.ofNat index, name, ?_, ?_⟩
  · rw [resolve?, hindex]
    rfl
  · rw [toNat_ofNat_of_lt (lt_of_envelopeIndex? hindex) hsize]
    exact hentry

/-- What a bank is to the rows that ask for timbres. -/
structure Numbers (timbres : List Timbre) (b : Bank) (losses : List Loss) : Prop where
  size_le : b.size ≤ 256
  voicesFirst : ∃ fm ssg, b.entries.toList = fm ++ ssg ∧ (∀ i ∈ fm, i.voice?.isSome) ∧
    ∀ i ∈ ssg, i.envelope?.isSome
  nodup_voices : b.heldVoices.Nodup
  nodup_envelopes : b.heldEnvelopes.Nodup
  firstAsked : b.heldEnvelopes <+: firstEnvelopes timbres
  resolve_lt : ∀ timbre n, b.resolve? timbre = some n → n.toNat < b.size
  voice_of_fm : ∀ number, .fm number ∈ timbres → ∃ n name voice,
    b.resolve? (.fm number) = some n ∧ b.entries[n.toNat]? = some (.fm name voice)
  envelope_of_ssg : SaysFull losses ∨ ∀ envelope, .ssg envelope ∈ timbres → ∃ n name,
    b.resolve? (.ssg envelope) = some n ∧ b.entries[n.toNat]? = some (.ssg name envelope)

theorem Extends.numbers {fm : Bank} {all : List Loss} (h : Extends fm timbres b losses)
    (hfm : fm.Voiced) (hneeded : timbres.any isFm → fm.fallback.isSome)
    (hsize : b.size ≤ maxSize) (hall : losses ⊆ all) : Numbers timbres b all := by
  obtain ⟨ssg, hentries, hssg⟩ := h.entries
  refine ⟨hsize, ⟨_, ssg, hentries, ?_, hssg⟩, ?_, h.nodup, h.firstAsked,
    fun _ _ => h.resolve_lt hfm hsize, ?_, ?_⟩
  · intro i hi
    exact hfm.isFm i (Array.mem_toList_iff.mp hi)
  · rw [h.heldVoices_eq]
    exact hfm.nodup
  · intro number hasked
    have hfallback := hneeded (List.any_eq_true.mpr ⟨_, hasked, rfl⟩)
    exact h.voice_of_fm hfm hsize hfallback number
  · rcases h.complete with hcomplete | ⟨-, name, hname⟩
    · right
      intro envelope hasked
      apply envelope_of_mem hsize
      rw [hcomplete, firstEnvelopes, List.mem_eraseDups, List.mem_filterMap]
      exact ⟨_, hasked, rfl⟩
    · exact .inl ⟨name, hall hname⟩

/-- Whatever voices a score has and whatever timbres its rows ask for. -/
theorem numbers_build (voices : List VoiceRecord) (timbres : List Timbre) :
    Numbers timbres (build voices timbres).1 (build voices timbres).2 := by
  have hsize := (sound_build voices timbres).size_le
  have hvoiced := addAll_induction (P := fun _ b _ => b.Voiced) voiced_empty
    (fun r h => h.addVoice r) (voices.mergeSort fun r s => r.id ≤ s.id)
  obtain ⟨hfm, hneeded⟩ := hvoiced.addFallback (timbres.any isFm)
  have hall := addAll_induction hfm.extends_nil (fun t h => h.addTimbre t) timbres
  exact hall.numbers hfm hneeded hsize (List.subset_append_right _ _)

/-- Two numbers for one voice and a third one for another. -/
def sharedVoices : List VoiceRecord :=
  [⟨1, .plain⟩, ⟨2, { Voice.plain with alg := 4 }⟩, ⟨3, .plain⟩]

/-- A number without a voice, and two envelopes, the first of them twice. -/
def mixedTimbres : List Timbre := [.ssg { attack := 1 }, .fm 9, .ssg {}, .fm 2, .ssg { attack := 1 }]

theorem numbers_build_sharedVoices :
    mixedTimbres.map (build sharedVoices mixedTimbres).1.resolve? =
        [some 2, some 0, some 3, some 1, some 2] ∧
      Numbers mixedTimbres (build sharedVoices mixedTimbres).1
        (build sharedVoices mixedTimbres).2 := by
  have hsorted : sharedVoices.mergeSort (fun r s => r.id ≤ s.id) = sharedVoices :=
    List.mergeSort_of_pairwise (by decide)
  refine ⟨?_, numbers_build sharedVoices mixedTimbres⟩
  rw [build, hsorted]
  decide +kernel

end Bank

end Tracker

end ChipScore
