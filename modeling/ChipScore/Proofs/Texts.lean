import ChipScore.Arrangement.Song
import ChipScore.Proofs.Utf8

/-!
# The texts of a song

All texts that a song gets from its score are short and without NUL characters, so that they can be
written into a module.
-/

namespace ChipScore

/-- The text has at most so many characters, and none of them is NUL. -/
structure Brief (limit : Nat) (text : String) : Prop where
  nul_notMem : Char.ofNat 0 ∉ text.toList
  length_le : text.toList.length ≤ limit

namespace Brief

variable {limit more : Nat} {text other : String}

instance (limit : Nat) (text : String) : Decidable (Brief limit text) :=
  decidable_of_iff (Char.ofNat 0 ∉ text.toList ∧ text.toList.length ≤ limit)
    ⟨fun h => ⟨h.1, h.2⟩, fun h => ⟨h.nul_notMem, h.length_le⟩⟩

theorem ofList {cs : List Char} (hnul : Char.ofNat 0 ∉ cs) (hlength : cs.length ≤ limit) :
    Brief limit (String.ofList cs) := by
  constructor
  · rwa [String.toList_ofList]
  · rwa [String.toList_ofList]

theorem mono (h : Brief limit text) (hle : limit ≤ more) : Brief more text :=
  ⟨h.nul_notMem, Nat.le_trans h.length_le hle⟩

theorem append (h : Brief limit text) (hother : Brief more other) :
    Brief (limit + more) (text ++ other) := by
  constructor
  · rw [String.toList_append, List.mem_append, not_or]
    exact ⟨h.nul_notMem, hother.nul_notMem⟩
  · rw [String.toList_append, List.length_append]
    exact Nat.add_le_add h.length_le hother.length_le

theorem intercalate {separator : String} (hseparator : Brief more separator) {texts : List String}
    (h : ∀ text ∈ texts, Brief limit text) :
    Brief (texts.length * (limit + more)) (separator.intercalate texts) := by
  induction texts with
  | nil =>
    rw [String.intercalate_nil]
    exact ⟨by decide, by simp⟩
  | cons text texts ih =>
    rw [List.forall_mem_cons] at h
    cases texts with
    | nil =>
      rw [String.intercalate_singleton]
      apply h.1.mono
      simp
    | cons next texts =>
      rw [String.intercalate_cons_cons]
      apply ((h.1.append hseparator).append (ih h.2)).mono
      simp only [List.length_cons, Nat.succ_mul]
      omega

theorem length_encode_le (h : Brief limit text) : (Utf8.encode text).length ≤ 4 * limit :=
  Nat.le_trans (Utf8.length_encode_le text) (Nat.mul_le_mul_left 4 h.length_le)

end Brief

/-! ## Credits -/

namespace Credits

theorem trim_sublist (cs : List Char) : (Text.trim cs).Sublist cs := by
  unfold Text.trim
  rw [← List.reverse_sublist, List.reverse_reverse]
  exact (List.dropWhile_sublist _).trans (List.reverse_sublist.mpr (List.dropWhile_sublist _))

theorem brief_of_accept? {piece : List UInt8} {text : String} (hpiece : 0 ∉ piece)
    (h : accept? piece = some text) : Brief piece.length text := by
  unfold accept? at h
  rw [Option.bind_eq_some_iff] at h
  obtain ⟨decoded, hdecoded, h⟩ := h
  dsimp only at h
  split at h
  · cases h
    have htrim := trim_sublist decoded.toList
    apply Brief.ofList
    · exact fun hnul => Utf8.nul_notMem_of_decode? hpiece hdecoded (htrim.subset hnul)
    · exact Nat.le_trans htrim.length_le (Utf8.length_of_decode? hdecoded)
  · cases h

theorem brief_of_mem_accepted {limit : Nat} {found : List String} {piece : List UInt8}
    (hfound : ∀ text ∈ found, Brief limit text) (hpiece : 0 ∉ piece) (hlimit : piece.length ≤ limit) :
    ∀ text ∈ (accept? piece).toList ++ found, Brief limit text := by
  intro text htext
  rw [List.mem_append, Option.mem_toList] at htext
  rcases htext with htext | htext
  · exact (brief_of_accept? hpiece htext).mono hlimit
  · exact hfound text htext

theorem brief_of_mem_lastTexts {limit : Nat} {found : List String} {piece bytes : List UInt8}
    (hfound : ∀ text ∈ found, Brief limit text) (hpiece : 0 ∉ piece)
    (hlimit : piece.length + bytes.length ≤ limit) :
    ∀ text ∈ lastTexts found piece bytes, Brief limit text := by
  induction bytes generalizing found piece with
  | nil =>
    unfold lastTexts
    split
    · exact brief_of_mem_accepted hfound hpiece hlimit
    · exact hfound
  | cons b bytes ih =>
    rw [List.length_cons] at hlimit
    unfold lastTexts
    split
    · split
      · refine ih (brief_of_mem_accepted hfound hpiece (by omega)) (by simp) ?_
        rw [List.length_nil]
        omega
      · rename_i hb
        refine ih hfound ?_ ?_
        · rw [List.mem_cons, not_or]
          exact ⟨Ne.symm hb, hpiece⟩
        · rw [List.length_cons]
          omega
    · exact hfound

theorem brief_of_mem_texts (data : List UInt8) : ∀ text ∈ texts data, Brief window text := by
  unfold texts
  apply brief_of_mem_lastTexts
  · simp
  · simp
  · have := (List.dropWhile_sublist (· = 0)
      (l := (data.drop (max Header.size (data.length - window))).reverse)).length_le
    rw [List.length_reverse, List.length_drop] at this
    simp only [List.length_nil]
    omega

/-- The credits of a score are the texts at its end. -/
structure AllBrief (limit : Nat) (c : Credits) : Prop where
  title : Brief limit c.title
  composer : Brief limit c.composer
  arranger : Brief limit c.arranger
  memos : ∀ memo ∈ c.memos, Brief limit memo
  length_memos : c.memos.length ≤ 2

theorem allBrief_ofTexts {limit : Nat} {texts : List String}
    (h : ∀ text ∈ texts, Brief limit text) : (ofTexts texts).AllBrief limit := by
  have hreverse : ∀ text ∈ texts.reverse, Brief limit text := by simpa using h
  have hnone : Brief limit "" := ⟨by decide, by simp⟩
  unfold ofTexts
  split <;> constructor <;> simp_all

theorem allBrief_ofData (data : List UInt8) : (ofData data).AllBrief window :=
  allBrief_ofTexts (brief_of_mem_texts data)

end Credits

/-! ## Texts of the song -/

namespace Arrangement

variable {limit : Nat} {c : Credits}

theorem brief_title (h : c.AllBrief limit) (hlimit : 10 ≤ limit) : Brief limit (title c) := by
  unfold title
  split
  · exact (show Brief 10 defaultTitle by decide).mono hlimit
  · exact h.title

theorem brief_comment (h : c.AllBrief limit) : Brief (3 * (limit + 11)) (comment c) := by
  have hlines : ∀ line ∈ (if c.arranger.isEmpty then [] else ["Arranger: " ++ c.arranger]) ++ c.memos,
      Brief (limit + 10) line := by
    intro line hline
    rw [List.mem_append] at hline
    rcases hline with hline | hline
    · split at hline
      · cases hline
      · rw [List.mem_singleton] at hline
        subst hline
        exact ((show Brief 10 "Arranger: " by decide).append h.arranger).mono (by omega)
    · exact (h.memos line hline).mono (by omega)
  have hcount : ((if c.arranger.isEmpty then [] else ["Arranger: " ++ c.arranger]) ++
      c.memos).length ≤ 3 := by
    have := h.length_memos
    rw [List.length_append]
    split <;> simp <;> omega
  apply (Brief.intercalate (show Brief 1 "\n" by decide) hlines).mono
  exact Nat.mul_le_mul_right _ hcount

end Arrangement

end ChipScore
