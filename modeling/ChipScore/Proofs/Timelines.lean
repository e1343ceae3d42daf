import ChipScore.Performance
import ChipScore.Proofs.Timing
import Mathlib.Data.List.Forall2

/-!
# The timelines of a score

A score that can be played has one timeline for each of its parts, in the order of the parts, and no
two of them are of the same part.
-/

namespace ChipScore

namespace Machine

theorem part_of_meets {defined : UInt8 → Bool} {p later : Player} (h : Meets defined p later) :
    later.state.part = p.state.part := by
  cases h with
  | perform command => exact p.part_perform defined command
  | silent => rfl
  | unsupported feature _ => rfl

end Machine

open Machine

theorem part_of_play {part : Part} {defined : UInt8 → Bool} {c : Cursor} {t : Timeline}
    {ws : Warnings} (h : play part defined c = (.ok t, ws)) : t.part = part := by
  obtain ⟨final, hends⟩ := ends_of_play h
  rw [play_of_ends hends, state_finish] at h
  cases h
  obtain ⟨n, last, -, hlast, -, -, hplayer⟩ := hends.after?
  have hpart : last.player.state.part = part :=
    after?_keeps (P := fun _ m => m.player.state.part = part) (k := 0) hlast rfl
      fun hm hrun => (part_of_meets (meets_of_step hrun)).trans hm
  rw [← hplayer] at hpart
  exact hpart

/-! ## The parts of an image -/

theorem Header.nodup_partRanges (h : Header) (total : Nat) :
    ((h.partRanges total).map PartRange.part).Nodup := by
  have hall : Part.all.Nodup := by decide
  refine hall.sublist ?_
  unfold partRanges
  generalize Part.all = parts
  induction parts with
  | nil => exact .refl []
  | cons part parts ih =>
    rw [List.filterMap_cons]
    cases h.part? part with
    | none => exact ih.cons part
    | some start => exact ih.cons_cons part

/-- The timeline is what the part plays that has these bytes. -/
def Image.Plays (image : Image) (range : PartRange) (t : Timeline) : Prop :=
  ∃ ws, ChipScore.play range.part image.defines (image.cursor range) = (.ok t, ws)

theorem Image.plays_of_playFrom {image : Image} {played timelines : List Timeline}
    {warnings ws : Warnings} {ranges : List PartRange}
    (h : image.playFrom played warnings ranges = .ok (timelines, ws)) :
    ∃ later, timelines = played.reverse ++ later ∧ List.Forall₂ image.Plays ranges later := by
  induction ranges generalizing played warnings with
  | nil =>
    cases h
    exact ⟨[], (List.append_nil _).symm, .nil⟩
  | cons range ranges ih =>
    unfold playFrom at h
    split at h
    · cases h
    · rename_i t more hplay
      obtain ⟨later, rfl, hlater⟩ := ih h
      exact ⟨t :: later, by simp, .cons ⟨more, hplay⟩ hlater⟩

section Plays

variable {image : Image} {ranges : List PartRange} {timelines : List Timeline}

theorem Image.gapless_of_plays (h : List.Forall₂ image.Plays ranges timelines) :
    ∀ t ∈ timelines, t.Gapless := by
  induction h with
  | nil => simp
  | cons hplay _ ih =>
    obtain ⟨ws, hplay⟩ := hplay
    obtain ⟨n, m, hn, hafter, rfl⟩ := exists_timedAfter_of_play hplay
    exact List.forall_mem_cons.mpr ⟨hafter.gapless hn, ih⟩

theorem Image.map_part_of_plays (h : List.Forall₂ image.Plays ranges timelines) :
    timelines.map Timeline.part = ranges.map PartRange.part := by
  induction h with
  | nil => rfl
  | cons hplay _ ih =>
    obtain ⟨ws, hplay⟩ := hplay
    rw [List.map_cons, List.map_cons, part_of_play hplay, ih]

end Plays

/-! ## Performances -/

theorem Performance.of_ofData {data : List UInt8} {p : Performance} (h : ofData data = .ok p) :
    ∃ header, Header.parse data = .ok header ∧
      p.image = {
        data
        header
        parts := header.partRanges data.length
        voices := Image.voiceTable header data
        credits := Credits.ofData data } ∧
      p.image.play = .ok (p.timelines, p.warnings) := by
  unfold ofData Image.parse at h
  cases hheader : Header.parse data with
  | error fault =>
    rw [hheader] at h
    cases h
  | ok header =>
    rw [hheader] at h
    simp only [bind, Except.bind, pure, Except.pure, Except.mapError] at h
    split at h
    · cases h
    · rename_i played hplayed
      rw [← Except.ok.inj h]
      split at hplayed
      · cases hplayed
      · rename_i played hplay
        cases hplayed
        exact ⟨header, rfl, rfl, hplay⟩

/-- What all performances have in common. -/
structure Performance.Sound (p : Performance) : Prop where
  gapless : ∀ t ∈ p.timelines, t.Gapless
  nodup : (p.timelines.map Timeline.part).Nodup

theorem sound_of_ofData {data : List UInt8} {p : Performance}
    (h : Performance.ofData data = .ok p) : p.Sound := by
  obtain ⟨header, -, himage, hplay⟩ := Performance.of_ofData h
  obtain ⟨later, hlater, hplays⟩ := Image.plays_of_playFrom hplay
  rw [List.reverse_nil, List.nil_append] at hlater
  rw [← hlater, himage] at hplays
  constructor
  · exact Image.gapless_of_plays hplays
  · rw [Image.map_part_of_plays hplays]
    exact header.nodup_partRanges _

end ChipScore
