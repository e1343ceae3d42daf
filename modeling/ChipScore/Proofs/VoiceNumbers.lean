import ChipScore.Image
import ChipScore.Proofs.BankNumbers
import Mathlib.Data.Finset.Card
import Mathlib.Data.Finset.Dedup

/-!
# Which voice a number stands for

A score may have several records with one voice number. The score means the first of them, but a bank
gives the number the voice of the last one, so the two agree only where these have the same voice.
-/

namespace ChipScore

/-- The last record with a voice number. -/
def lastRecord? (records : List VoiceRecord) (number : UInt8) : Option VoiceRecord :=
  (records.filter (·.id = number)).getLast?

def distinctVoices (records : List VoiceRecord) : Finset Voice :=
  (records.map VoiceRecord.voice).toFinset

theorem lastRecord?_snoc (records : List VoiceRecord) (r : VoiceRecord) (number : UInt8) :
    lastRecord? (records ++ [r]) number =
      if r.id = number then some r else lastRecord? records number := by
  unfold lastRecord?
  split_ifs with h <;> simp [List.filter_append, h]

theorem distinctVoices_snoc (records : List VoiceRecord) (r : VoiceRecord) :
    distinctVoices (records ++ [r]) = insert r.voice (distinctVoices records) := by
  ext voice
  simp [distinctVoices]

theorem exists_lastRecord? {records : List VoiceRecord} {number : UInt8}
    (h : number ∈ records.map VoiceRecord.id) : ∃ r, lastRecord? records number = some r := by
  obtain ⟨r, hr, hid⟩ := List.mem_map.mp h
  have hmem : r ∈ records.filter (·.id = number) := List.mem_filter.mpr ⟨hr, by simp [hid]⟩
  exact ⟨_, List.getLast?_eq_some_getLast (List.ne_nil_of_mem hmem)⟩

/-! ## Records in the order of their numbers -/

theorem filter_id_mergeSort (records : List VoiceRecord) (number : UInt8) :
    (records.mergeSort fun r s => r.id ≤ s.id).filter (·.id = number) =
      records.filter (·.id = number) := by
  have hsame : (records.filter (·.id = number)).Pairwise fun r s => decide (r.id ≤ s.id) = true := by
    refine List.pairwise_of_forall_mem_list ?_
    intro r hr s hs
    simp only [List.mem_filter, decide_eq_true_eq] at hr hs
    simp [hr.2, hs.2]
  have hsub : (records.filter (·.id = number)).Sublist
      (records.mergeSort fun r s => decide (r.id ≤ s.id)) := by
    apply List.sublist_mergeSort
    · intro r s t hrs hst
      rw [decide_eq_true_eq] at hrs hst ⊢
      exact UInt8.le_trans hrs hst
    · intro r s
      simpa using UInt8.le_total r.id s.id
    · exact hsame
    · exact List.filter_sublist
  have hfiltered := hsub.filter (·.id = number)
  rw [List.filter_filter] at hfiltered
  simp only [Bool.and_self] at hfiltered
  exact (hfiltered.eq_of_length ((List.mergeSort_perm _ _).filter _).length_eq.symm).symm

theorem lastRecord?_mergeSort (records : List VoiceRecord) (number : UInt8) :
    lastRecord? (records.mergeSort fun r s => r.id ≤ s.id) number = lastRecord? records number := by
  rw [lastRecord?, filter_id_mergeSort, lastRecord?]

theorem distinctVoices_mergeSort (records : List VoiceRecord) :
    distinctVoices (records.mergeSort fun r s => r.id ≤ s.id) = distinctVoices records :=
  List.toFinset_eq_of_perm _ _ ((List.mergeSort_perm _ _).map _)

namespace Tracker.Bank

variable {b : Bank} {done : List VoiceRecord}

/-! ## Filling a bank with voices -/

theorem entry_of_voiceIndex? {voice : Voice} {index : Nat} (h : b.voiceIndex? voice = some index) :
    ∃ name, b.entries[index]? = some (.fm name voice) := by
  obtain ⟨hindex, hentry, -⟩ := Array.findIdx?_eq_some_iff_getElem.mp h
  rw [Array.getElem?_eq_getElem hindex]
  generalize b.entries[index] = i at hentry
  rcases i with ⟨name, v⟩ | _
  · exact ⟨name, by simpa using hentry⟩
  · simp at hentry

theorem Voiced.length_heldVoices (h : b.Voiced) : b.heldVoices.length = b.size := by
  rw [heldVoices, List.filterMap_length_eq_length.mpr, Array.length_toList]
  · rfl
  · simpa using h.isFm

/-- The bank for some records when there was room for all of their voices. -/
structure Holds (done : List VoiceRecord) (b : Bank) : Prop where
  voiced : b.Voiced
  held : b.heldVoices.toFinset = distinctVoices done
  numbered : ∀ number r, lastRecord? done number = some r → ∃ index name,
    b.voices.lookup number = some index ∧ b.entries[index]? = some (.fm name r.voice)

theorem holds_nil : Holds [] {} := by
  refine ⟨voiced_empty, rfl, ?_⟩
  simp [lastRecord?]

theorem Holds.size_eq (h : b.Holds done) : b.size = (distinctVoices done).card := by
  rw [← h.voiced.length_heldVoices, ← h.held, List.toFinset_card_of_nodup h.voiced.nodup]

theorem Holds.numbered_snoc (h : b.Holds done) (r : VoiceRecord) {later : Bank} {index : Nat}
    {name : String} (hvoices : later.voices = (r.id, index) :: b.voices)
    (hkept : ∀ i < b.size, later.entries[i]? = b.entries[i]?)
    (hentry : later.entries[index]? = some (.fm name r.voice)) (number : UInt8) (s : VoiceRecord)
    (hs : lastRecord? (done ++ [r]) number = some s) : ∃ index name,
      later.voices.lookup number = some index ∧ later.entries[index]? = some (.fm name s.voice) := by
  rw [lastRecord?_snoc] at hs
  rw [hvoices, List.lookup_cons]
  by_cases hid : r.id = number
  · rw [if_pos hid, Option.some.injEq] at hs
    subst hs
    exact ⟨index, name, by simp [hid], hentry⟩
  · rw [if_neg hid] at hs
    obtain ⟨i, name, hlookup, hi⟩ := h.numbered number s hs
    have hlt : i < b.size := (Array.getElem?_eq_some_iff.mp hi).1
    refine ⟨i, name, ?_, (hkept i hlt).trans hi⟩
    simpa [beq_eq_false_iff_ne.mpr (Ne.symm hid)] using hlookup

theorem addVoice_of_held {r : VoiceRecord} {index : Nat}
    (h : b.voiceIndex? r.voice = some index) : (b.addVoice r).1 = b.assign r.id index := by
  simp [addVoice, h]

theorem addVoice_of_new {r : VoiceRecord} (h : b.voiceIndex? r.voice = none)
    (hroom : b.isFull = false) : ∃ name, (b.addVoice r).1 =
      { b with entries := b.entries.push (.fm name r.voice) }.assign r.id b.size :=
  ⟨_, by simp [addVoice, h, add_of_room hroom, hroom]; rfl⟩

theorem Holds.addVoice (h : b.Holds done) (r : VoiceRecord)
    (hroom : (distinctVoices (done ++ [r])).card ≤ maxSize) :
    (b.addVoice r).1.Holds (done ++ [r]) := by
  have hvoiced := h.voiced.addVoice r
  rw [distinctVoices_snoc] at hroom
  rcases hindex : b.voiceIndex? r.voice with _ | index
  · have hnew : r.voice ∉ distinctVoices done := by
      rw [← h.held, List.mem_toFinset]
      exact notMem_of_voiceIndex? hindex
    rw [Finset.card_insert_of_notMem hnew, ← h.size_eq] at hroom
    have hfull : b.isFull = false := by
      rw [isFull, decide_eq_false_iff_not]
      omega
    obtain ⟨name, hadded⟩ := addVoice_of_new hindex hfull
    rw [hadded] at hvoiced ⊢
    refine ⟨hvoiced, ?_, h.numbered_snoc r rfl ?_ Array.getElem?_push_size⟩
    · change (heldVoices { b with entries := b.entries.push (.fm name r.voice) }).toFinset = _
      rw [heldVoices_push, distinctVoices_snoc, ← h.held]
      ext voice
      simp
    · intro i hi
      exact (Array.getElem?_push_lt hi).trans (Array.getElem?_eq_getElem hi).symm
  · obtain ⟨name, hentry⟩ := entry_of_voiceIndex? hindex
    have hmem : r.voice ∈ distinctVoices done := by
      rw [← h.held, List.mem_toFinset]
      exact List.mem_filterMap.mpr ⟨_, Array.mem_toList_iff.mpr (Array.mem_of_getElem? hentry), rfl⟩
    rw [addVoice_of_held hindex] at hvoiced ⊢
    refine ⟨hvoiced, ?_, h.numbered_snoc r rfl (fun _ _ => rfl) hentry⟩
    rw [distinctVoices_snoc, Finset.insert_eq_of_mem hmem]
    exact h.held

theorem holds_addAll {records : List VoiceRecord} (hroom : (distinctVoices records).card ≤ maxSize) :
    (addAll addVoice {} records).1.Holds records := by
  refine addAll_induction
    (P := fun done b _ => (distinctVoices done).card ≤ maxSize → b.Holds done)
    (fun _ => holds_nil) ?_ records hroom
  intro done b losses r ih hroom
  refine (ih ?_).addVoice r hroom
  rw [distinctVoices_snoc] at hroom
  exact Nat.le_trans (Finset.card_le_card (Finset.subset_insert _ _)) hroom

/-! ## Looking a number up -/

theorem Holds.resolve? {fm : Bank} {records : List VoiceRecord} {timbres : List Timbre}
    {needed : Bool} {losses : List Loss} (h : fm.Holds records)
    (hall : Extends (fm.addFallback needed).1 timbres b losses) (hsize : b.size ≤ maxSize)
    {number : UInt8} {r : VoiceRecord} (hr : lastRecord? records number = some r) :
    ∃ n name, b.resolve? (.fm number) = some n ∧ b.entries[n.toNat]? = some (.fm name r.voice) := by
  obtain ⟨index, name, hlookup, hentry⟩ := h.numbered number r hr
  have hlt : index < fm.size := (Array.getElem?_eq_some_iff.mp hentry).1
  have hkept : (fm.addFallback needed).1 = { fm with fallback := some 0 } := by
    have hsome : ¬ fm.entries.isEmpty := by
      rw [Array.isEmpty_iff_size_eq_zero]
      exact Nat.ne_of_gt (Nat.zero_lt_of_lt hlt)
    simp [addFallback, hsome]
  rw [hkept] at hall
  refine ⟨UInt8.ofNat index, name, ?_, ?_⟩
  · rw [hall.resolve?_fm, hlookup]
    rfl
  · rw [toNat_ofNat_of_lt (Nat.lt_of_lt_of_le hlt hall.size_le) hsize, hall.getElem?_of_lt hlt]
    exact hentry

/-- As long as there is room for all voices of a score, a number of one of its records stands for an
FM instrument with the voice of the last record with it. That is the voice which the score means
exactly if the first record with the number has it too. -/
theorem resolve?_lastRecord (image : Image) (timbres : List Timbre)
    (hroom : (distinctVoices image.voices).card ≤ 256) {number : UInt8}
    (hnumber : number ∈ image.voices.map VoiceRecord.id) :
    let bank := (build image.voices timbres).1
    ∃ n name first last, bank.resolve? (.fm number) = some n ∧
      bank.entries[n.toNat]? = some (.fm name last.voice) ∧
      lastRecord? image.voices number = some last ∧ image.voice? number = some first ∧
      ((∃ name, bank.entries[n.toNat]? = some (.fm name first.voice)) ↔
        first.voice = last.voice) := by
  intro bank
  obtain ⟨last, hlast⟩ := exists_lastRecord? hnumber
  have hfirst : (image.voice? number).isSome := by
    obtain ⟨r, hr, hid⟩ := List.mem_map.mp hnumber
    exact List.find?_isSome.mpr ⟨r, hr, by simp [hid]⟩
  obtain ⟨first, hfirst⟩ := Option.isSome_iff_exists.mp hfirst
  have hfew : (distinctVoices (image.voices.mergeSort fun r s => r.id ≤ s.id)).card ≤ 256 := by
    rwa [distinctVoices_mergeSort]
  have hholds := holds_addAll hfew
  have hall := addAll_induction
    (hholds.voiced.addFallback (timbres.any isFm)).1.extends_nil (fun t h => h.addTimbre t) timbres
  obtain ⟨n, name, hn, hentry⟩ := hholds.resolve? hall (sound_build image.voices timbres).size_le
    (by rwa [lastRecord?_mergeSort])
  refine ⟨n, name, first, last, hn, hentry, hlast, hfirst, ?_⟩
  constructor
  · rintro ⟨other, hother⟩
    exact (Instrument.fm.inj (Option.some.inj (hother.symm.trans hentry))).2
  · intro hvoice
    exact ⟨name, hvoice ▸ hentry⟩

/-- A record in which all operators are the same. -/
def plainRecord (number connection : UInt8) : List UInt8 :=
  number :: [1, 1, 1, 1, 0, 0, 0, 0, 31, 31, 31, 31] ++ List.replicate 8 0 ++
    [15, 15, 15, 15, connection]

/-- A score without parts that defines number 1 twice, and number 2 with the second of these voices. -/
def repeatedNumber : List UInt8 :=
  List.replicate 25 0 ++ [26, 0] ++ plainRecord 1 7 ++ plainRecord 1 4 ++ plainRecord 2 4

def repeatedRecords : List VoiceRecord :=
  [⟨1, .plain⟩, ⟨1, { Voice.plain with alg := 4 }⟩, ⟨2, { Voice.plain with alg := 4 }⟩]

theorem exists_image_repeatedNumber :
    ∃ image, Image.parse repeatedNumber = .ok image ∧ image.voices = repeatedRecords := by
  have hvoices : (Image.parse repeatedNumber).toOption.map Image.voices = some repeatedRecords := by
    decide +kernel
  rcases h : Image.parse repeatedNumber with fault | image
  · rw [h] at hvoices
    cases hvoices
  · rw [h] at hvoices
    exact ⟨image, rfl, Option.some.inj hvoices⟩

theorem card_repeatedRecords : (distinctVoices repeatedRecords).card ≤ 256 :=
  Nat.le_trans (List.toFinset_card_le _) (by decide)

theorem resolve?_lastRecord_repeatedNumber :
    ∃ image, Image.parse repeatedNumber = .ok image ∧
      ∃ n name, (build image.voices [.fm 1]).1.resolve? (.fm 1) = some n ∧
        (build image.voices [.fm 1]).1.entries[n.toNat]? =
          some (.fm name { Voice.plain with alg := 4 }) := by
  obtain ⟨image, himage, hvoices⟩ := exists_image_repeatedNumber
  have hroom : (distinctVoices image.voices).card ≤ 256 := hvoices ▸ card_repeatedRecords
  have hnumber : 1 ∈ image.voices.map VoiceRecord.id := by
    rw [hvoices]
    decide
  obtain ⟨n, name, first, last, hn, hentry, hlast, -⟩ :=
    resolve?_lastRecord image [.fm 1] hroom hnumber
  rw [hvoices, lastRecord?] at hlast
  cases hlast
  exact ⟨image, himage, n, name, hn, hentry⟩

/-- The score means the first record with number 1, and the bank gives its number the voice of the
second one. -/
theorem resolve?_ne_voice?_repeatedNumber :
    ∃ image, Image.parse repeatedNumber = .ok image ∧
      (distinctVoices image.voices).card ≤ 256 ∧ 1 ∈ image.voices.map VoiceRecord.id ∧
      ∃ n first, (build image.voices [.fm 1]).1.resolve? (.fm 1) = some n ∧
        image.voice? 1 = some first ∧
        ∀ name, (build image.voices [.fm 1]).1.entries[n.toNat]? ≠ some (.fm name first.voice) := by
  obtain ⟨image, himage, hvoices⟩ := exists_image_repeatedNumber
  have hsorted : repeatedRecords.mergeSort (fun r s => r.id ≤ s.id) = repeatedRecords :=
    List.mergeSort_of_pairwise (by decide)
  have hbuilt : (build repeatedRecords [.fm 1]).1.resolve? (.fm 1) = some 1 ∧
      (build repeatedRecords [.fm 1]).1.entries[1]? =
        some (.fm "FM 01" { Voice.plain with alg := 4 }) := by
    rw [build, hsorted]
    decide +kernel
  have hfirst : image.voice? 1 = some ⟨1, .plain⟩ := by
    rw [Image.voice?, hvoices]
    rfl
  refine ⟨image, himage, ?_⟩
  rw [hvoices]
  refine ⟨card_repeatedRecords, by decide, 1, _, hbuilt.1, hfirst, ?_⟩
  intro name hentry
  have hvoice := (Instrument.fm.inj (Option.some.inj (hbuilt.2.symm.trans hentry))).2
  revert hvoice
  decide

end Tracker.Bank

end ChipScore
