import ChipScore.Image.Credits
import Mathlib.Data.List.DropRight

/-!
# The texts at the end of a score

The end of a score is searched backwards, byte by byte, until there are enough texts. What is found
is what a reader finds who splits the end at its NUL bytes and keeps the last texts.
-/

namespace ChipScore.Credits

/-! ## All texts of some bytes -/

/-- The pieces between the NUL bytes that look like text, in the order in which they stand. -/
def textsIn (bytes : List UInt8) : List String := (bytes.splitOn 0).filterMap accept?

theorem textsIn_append_nul (before after : List UInt8) :
    textsIn (before ++ 0 :: after) = textsIn before ++ textsIn after := by
  unfold textsIn
  rw [List.splitOn_eq_splitOnP, List.splitOnP_append_cons before after (by rfl),
    List.filterMap_append]
  rfl

theorem textsIn_of_notMem {piece : List UInt8} (h : 0 ∉ piece) :
    textsIn piece = (accept? piece).toList := by
  have hsingle : piece.splitOn 0 = [piece] := by
    apply List.splitOnP_eq_singleton
    intro b hb
    rw [beq_eq_false_iff_ne]
    rintro rfl
    exact h hb
  rw [textsIn, hsingle]
  cases haccept : accept? piece with
  | none => simp [haccept]
  | some text => simp [haccept]

/-! ## The search -/

theorem rtake_append_of_length {α : Type} {n : Nat} (before : List α) {last : List α}
    (h : last.length = n) : (before ++ last).rtake n = last := by
  rw [List.rtake, List.length_append, h, Nat.add_sub_cancel]
  exact List.drop_left

theorem rtake_of_length_le {α : Type} {n : Nat} {xs : List α} (h : xs.length ≤ n) :
    xs.rtake n = xs := by
  rw [List.rtake, Nat.sub_eq_zero_of_le h, List.drop_zero]

/-- What was found already stays at the end, and a piece that is not read to its start is put
together with the bytes before it. -/
theorem lastTexts_eq {found : List String} {piece bytes : List UInt8}
    (hfound : found.length ≤ maxTexts) (hpiece : 0 ∉ piece) :
    lastTexts found piece bytes = (textsIn (bytes.reverse ++ piece) ++ found).rtake maxTexts := by
  induction bytes generalizing found piece with
  | nil =>
    unfold lastTexts
    rw [List.reverse_nil, List.nil_append, textsIn_of_notMem hpiece]
    split
    · rename_i hroom
      rw [rtake_of_length_le]
      have := Option.length_toList_le (o := accept? piece)
      rw [List.length_append]
      omega
    · rename_i hfull
      rw [rtake_append_of_length _ (by omega)]
  | cons b bytes ih =>
    unfold lastTexts
    rw [List.reverse_cons, List.append_assoc, List.singleton_append]
    split
    · rename_i hroom
      split
      · rename_i hnul
        have hmore : ((accept? piece).toList ++ found).length ≤ maxTexts := by
          have := Option.length_toList_le (o := accept? piece)
          rw [List.length_append]
          omega
        rw [ih hmore List.not_mem_nil, List.append_nil, hnul, textsIn_append_nul,
          textsIn_of_notMem hpiece, List.append_assoc]
      · rename_i hb
        apply ih hfound
        rw [List.mem_cons, not_or]
        exact ⟨Ne.symm hb, hpiece⟩
    · rename_i hfull
      rw [rtake_append_of_length _ (by omega)]

theorem texts_eq (data : List UInt8) : texts data =
    (textsIn ((data.drop (max Header.size (data.length - window))).rdropWhile (· = 0))).rtake
      maxTexts := by
  unfold texts
  rw [lastTexts_eq (Nat.zero_le _) List.not_mem_nil, List.append_nil, List.append_nil]
  rfl

/-! ## What the texts are -/

theorem texts_append {before other : List UInt8} (after : List UInt8)
    (hlength : other.length = before.length)
    (hstart : before.length ≤ max Header.size ((before ++ after).length - window)) :
    texts (other ++ after) = texts (before ++ after) := by
  unfold texts
  have hsize : (other ++ after).length = (before ++ after).length := by
    rw [List.length_append, List.length_append, hlength]
  rw [hsize, List.drop_append, List.drop_append, List.drop_eq_nil_of_le hstart,
    List.drop_eq_nil_of_le (hlength ▸ hstart), hlength]

theorem ofTexts_title {others : List String} (title : String) (h : others.length ≤ 1) :
    ofTexts (others ++ [title]) = { title } := by
  match others, h with
  | [], _ => rfl
  | [_], _ => rfl

theorem ofTexts_names {others : List String} (title composer arranger : String)
    (h : others.length ≤ 1) :
    ofTexts (others ++ [title, composer, arranger]) = { title, composer, arranger } := by
  match others, h with
  | [], _ => rfl
  | [_], _ => rfl

theorem ofTexts_memos (others : List String) (title composer arranger memo₁ memo₂ : String) :
    ofTexts (others ++ [title, composer, arranger, memo₁, memo₂]) =
      { title, composer, arranger, memos := [memo₁, memo₂] } := by
  simp [ofTexts]

/-- The credits come from the last ten texts in the last 500 bytes of a score without its header.
One or two texts end with the title, three or four with the title and the names, and more with two
memos after them. What stands before those bytes does not count. -/
theorem ofData_trailingTexts (data : List UInt8) :
    let start := max 27 (data.length - 500)
    let texts := (textsIn ((data.drop start).rdropWhile (· = 0))).rtake 10
    Credits.texts data = texts ∧
      (texts = [] → ofData data = {}) ∧
      (∀ others title, texts = others ++ [title] → others.length ≤ 1 →
        ofData data = { title }) ∧
      (∀ others title composer arranger, texts = others ++ [title, composer, arranger] →
        others.length ≤ 1 → ofData data = { title, composer, arranger }) ∧
      (∀ others title composer arranger memo₁ memo₂,
        texts = others ++ [title, composer, arranger, memo₁, memo₂] →
          ofData data = { title, composer, arranger, memos := [memo₁, memo₂] }) ∧
      ∀ before other after, data = before ++ after → before.length ≤ start →
        other.length = before.length → ofData (other ++ after) = ofData data := by
  intro start texts
  have htexts : Credits.texts data = texts := texts_eq data
  refine ⟨htexts, ?_, ?_, ?_, ?_, ?_⟩
  · intro h
    rw [ofData, htexts, h]
    rfl
  · intro others title h hothers
    rw [ofData, htexts, h, ofTexts_title title hothers]
  · intro others title composer arranger h hothers
    rw [ofData, htexts, h, ofTexts_names title composer arranger hothers]
  · intro others title composer arranger memo₁ memo₂ h
    rw [ofData, htexts, h, ofTexts_memos]
  · intro before other after h hstart hlength
    subst h
    rw [ofData, ofData, texts_append after hlength hstart]

/-- The last 500 bytes of a score, which start inside of a text. -/
def cutEnding : List UInt8 :=
  Utf8.encode "ing" ++ [0, 0] ++ Utf8.encode "#Title=no" ++ [0] ++ Utf8.encode " Night " ++ [0] ++
    Utf8.encode "x" ++ [0] ++ Utf8.encode "Someone" ++ [0] ++ Utf8.encode "Arr" ++ [0] ++
    Utf8.encode "Memo" ++ List.replicate 459 0

theorem ofData_trailingTexts_cutEnding :
    let data := List.replicate 40 0x41 ++ cutEnding
    texts data = ["ing", "Night", "Someone", "Arr", "Memo"] ∧
      ofData data = ⟨"ing", "Night", "Someone", ["Arr", "Memo"]⟩ ∧
      ofData (List.replicate 40 0 ++ cutEnding) = ofData data := by
  intro data
  obtain ⟨htexts, -, -, -, hmemos, hbefore⟩ := ofData_trailingTexts data
  have hfive : (textsIn ((data.drop (max 27 (data.length - 500))).rdropWhile (· = 0))).rtake 10 =
      ["ing", "Night", "Someone", "Arr", "Memo"] := by
    decide +kernel
  refine ⟨htexts.trans hfive, hmemos [] _ _ _ _ _ hfive, ?_⟩
  exact hbefore _ _ _ rfl (by decide +kernel) (by decide +kernel)

end ChipScore.Credits
