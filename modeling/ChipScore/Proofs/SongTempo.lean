import ChipScore.Proofs.Conversion
import ChipScore.Proofs.EffectColumns
import ChipScore.Proofs.TempoChanges
import ChipScore.Proofs.Timelines
import Mathlib.Data.List.Nodup
import Mathlib.Data.List.Pairwise

/-!
# The tempo of the song

The tempo is one for the whole song, but a part does not write a tempo that it has set itself before.
So the song is in the tempo that was set last, as long as no part goes back to its own tempo after
another part has set one.
-/

namespace ChipScore

/-! ## Tempos that are set, and tempos that are written -/

namespace Grid

variable (g : Grid)

/-- The tempo that a part itself has set last before a row. -/
def ownTempo (t : Timeline) (row : Nat) : Tempo := latest g.tempo (g.temposIn t.events) row

/-- The tempo that any of the parts has set last before a row. -/
def songTempo (parts : List Timeline) (row : Nat) : Tempo :=
  latest g.tempo (fun row => parts.flatMap fun t => g.temposIn t.events row) row

/-- No two parts set tempos in the same row. -/
def TemposApart (parts : List Timeline) : Prop :=
  parts.Pairwise fun t u =>
    ∀ row < g.rowCount, g.temposIn t.events row = [] ∨ g.temposIn u.events row = []

/-- A part that sets only its own tempo in a row finds the song in that tempo. -/
def TempoHolds (parts : List Timeline) (row : Nat) : Prop :=
  ∀ t ∈ parts, g.temposIn t.events row ≠ [] →
    (∀ tempo ∈ g.temposIn t.events row, tempo = g.ownTempo t row) →
    g.songTempo parts row = g.ownTempo t row

instance (parts : List Timeline) : Decidable (g.TemposApart parts) :=
  inferInstanceAs (Decidable (parts.Pairwise fun t u =>
    ∀ row < g.rowCount, g.temposIn t.events row = [] ∨ g.temposIn u.events row = []))

instance (parts : List Timeline) (row : Nat) : Decidable (g.TempoHolds parts row) :=
  inferInstanceAs (Decidable (∀ t ∈ parts, g.temposIn t.events row ≠ [] →
    (∀ tempo ∈ g.temposIn t.events row, tempo = g.ownTempo t row) →
    g.songTempo parts row = g.ownTempo t row))

end Grid

/-- The tempos that the channels set in a row. -/
def Arrangement.temposIn (a : Arrangement) (row : Nat) : List Tempo :=
  a.channels.flatMap fun rows => (rows.getD row .empty).tempos

/-- The tempo in which a song is played before a row. -/
def Arrangement.tempo (a : Arrangement) (row : Nat) : Tempo := latest a.grid.tempo a.temposIn row

/-! ## From the parts to the channels -/

theorem Effect.isUrgent_of_tempo? {e : Effect} {t : Tempo} (h : e.tempo? = some t) :
    e.isUrgent = true := by
  unfold Effect.tempo? at h
  split_ifs at h with hcode
  simp [isUrgent, hcode]

theorem Effect.filterMap_isUrgent {α : Type} {f : Effect → Option α}
    (h : ∀ e x, f e = some x → e.isUrgent = true) (effects : List Effect) :
    (effects.filter Effect.isUrgent).filterMap f = effects.filterMap f := by
  rw [List.filterMap_filter]
  refine congrArg (List.filterMap · effects) (funext fun e => ?_)
  cases hf : f e with
  | none => exact ite_self none
  | some x => exact if_pos (h e x hf)

theorem Row.tempos_eq (r : ScoreRow) :
    r.tempos = (r.effects.filter Effect.isUrgent).filterMap Effect.tempo? :=
  (Effect.filterMap_isUrgent (fun _ _ => Effect.isUrgent_of_tempo?) r.effects).symm

namespace Columns

theorem tempos_fit {columns row : Nat} {rows : List ScoreRow}
    (h : ∀ code value, .effectDropped code value row ∉ (fit columns rows).2) :
    ((fit columns rows).1.getD row .empty).tempos = (rows.getD row .empty).tempos := by
  rw [List.getD_eq_getElem?_getD, List.getD_eq_getElem?_getD]
  cases hr : rows[row]? with
  | none =>
    have hlength := List.getElem?_eq_none_iff.mp hr
    rw [← (fit_shape columns rows).1] at hlength
    rw [List.getElem?_eq_none hlength]
  | some r =>
    obtain ⟨fitted, hfitted, hkeeps⟩ := keeps_fit columns rows hr
    have hdropped : (r.effects.filter Effect.isUrgent).drop columns = [] := by
      rw [List.eq_nil_iff_forall_not_mem]
      exact fun e he => h _ _ (hkeeps.lost e he)
    rw [hfitted, Option.getD_some, Option.getD_some, Row.tempos_eq, Row.tempos_eq r, hkeeps.urgent,
      List.take_of_length_le (List.drop_eq_nil_iff.mp hdropped)]

end Columns

namespace Arrangement

/-- The tempos that one channel sets in a row. -/
def temposAt (channels : List (List ScoreRow)) (channel row : Nat) : List Tempo :=
  ((channels.getD channel []).getD row .empty).tempos

theorem temposAt_placeLoop (g : Grid) (patternLength : Nat) (channels : List (List ScoreRow))
    (tick channel row : Nat) : temposAt (placeLoop g patternLength channels tick).1 channel row =
      temposAt channels channel row := by
  unfold placeLoop
  dsimp only
  split
  · rfl
  · cases channels with
    | nil => rfl
    | cons first others =>
      cases channel with
      | succ channel => rfl
      | zero =>
        change ((first.modify _ _).getD row .empty).tempos = (first.getD row .empty).tempos
        rw [List.getD_eq_getElem?_getD, List.getD_eq_getElem?_getD, List.getElem?_modify]
        cases first[row]? with
        | none => rfl
        | some r =>
          simp only [Option.map_eq_map, Option.map_some, Option.getD_some]
          split
          · rfl
          · rfl

theorem temposAt_placeLoop? (g : Grid) (patternLength : Nat) (channels : List (List ScoreRow))
    (timelines : List Timeline) (channel row : Nat) :
    temposAt (placeLoop? g patternLength channels timelines).1 channel row =
      temposAt channels channel row := by
  unfold placeLoop?
  split
  · exact temposAt_placeLoop g patternLength channels _ channel row
  · rfl

theorem temposAt_layOut {g : Grid} {parts : List Timeline}
    (hsorted : ∀ t ∈ parts, t.events.Pairwise (·.tick ≤ ·.tick)) {channel row : Nat}
    (hchannel : channel < Tracker.channelCount) (hrow : row < g.rowCount) :
    temposAt (layOut g parts).1 channel row =
      (parts.find? (·.part.channel? = some channel)).toList.flatMap fun t =>
        (g.ownTempo t row).changes (g.temposIn t.events row) := by
  have hrows : (layOut g parts).1.getD channel [] = (layOutChannel g parts channel).1 := by
    simp [layOut, hchannel]
  unfold temposAt
  rw [hrows, layOutChannel]
  cases hfind : parts.find? (·.part.channel? = some channel) with
  | none =>
    dsimp only
    rw [List.getD_eq_getElem?_getD, List.getElem?_replicate, if_pos hrow]
    rfl
  | some t =>
    rw [Option.toList_some, List.flatMap_singleton]
    exact tempos_layOut t.part (hsorted t (List.mem_of_find?_eq_some hfind)) hrow

theorem overflow_mem_arrange (o : Options) (voices : List VoiceRecord) (timelines : List Timeline)
    {channel : Nat} (hchannel : channel < Tracker.channelCount) {loss : Loss}
    (h : loss ∈ (Columns.fit o.effectColumns ((loopedChannels o timelines).getD channel [])).2) :
    .overflow (.part ⟨UInt8.ofNat channel⟩) loss ∈ (arrange o voices timelines).2 := by
  have hlength : channel < (loopedChannels o timelines).length := by rwa [length_loopedChannels]
  have hfitted : .overflow (.part ⟨UInt8.ofNat channel⟩) loss ∈
      (fitAll o.effectColumns (loopedChannels o timelines)).2 := by
    unfold fitAll
    rw [List.mem_flatMap]
    refine ⟨fitChannel o.effectColumns channel ((loopedChannels o timelines).getD channel []), ?_,
      List.mem_map_of_mem h⟩
    refine List.mem_map.mpr ⟨((loopedChannels o timelines)[channel], channel), ?_, ?_⟩
    · rw [List.mk_mem_zipIdx_iff_getElem?, List.getElem?_eq_getElem hlength]
    · rw [List.getD_eq_getElem?_getD, List.getElem?_eq_getElem hlength, Option.getD_some]
  exact List.mem_append_left _ (List.mem_append_right _ hfitted)

theorem temposIn_arrange {o : Options} {voices : List VoiceRecord} {timelines : List Timeline}
    (hkept : ∀ source code value row,
      .overflow source (.effectDropped code value row) ∉ (arrange o voices timelines).2)
    (hsorted : ∀ t ∈ timelines, t.events.Pairwise (·.tick ≤ ·.tick)) {row : Nat}
    (hrow : row < (arrange o voices timelines).1.grid.rowCount) :
    (arrange o voices timelines).1.temposIn row =
      (List.range Tracker.channelCount).flatMap fun channel =>
        ((audible timelines).find? (·.part.channel? = some channel)).toList.flatMap fun t =>
          ((arrange o voices timelines).1.grid.ownTempo t row).changes
            ((arrange o voices timelines).1.grid.temposIn t.events row) := by
  unfold temposIn
  rw [arrange_channels, List.flatMap_map]
  refine List.flatMap_congr ?_
  intro channel hchannel
  have hchannel := List.mem_range.mp hchannel
  unfold fittedRows
  rw [Columns.tempos_fit fun code value h =>
    hkept _ code value row (overflow_mem_arrange o voices timelines hchannel h)]
  have hparts : ∀ t ∈ audible timelines, t.events.Pairwise (·.tick ≤ ·.tick) :=
    fun t ht => hsorted t (List.mem_of_mem_filter ht)
  exact (temposAt_placeLoop? _ _ _ _ channel row).trans (temposAt_layOut hparts hchannel hrow)

end Arrangement

/-! ## One part in one row -/

theorem flatMap_of_unique {α β : Type} {l : List α} (hl : l.Nodup) {x : α} (hx : x ∈ l)
    {f : α → List β} (h : ∀ y ∈ l, y ≠ x → f y = []) : l.flatMap f = f x := by
  obtain ⟨before, later, rfl⟩ := List.append_of_mem hx
  have hne := List.nodup_middle.mp hl
  have hothers : ∀ y ∈ before ++ later, f y = [] := by
    intro y hy
    refine h y ?_ ?_
    · rw [List.mem_append] at hy
      rw [List.mem_append, List.mem_cons]
      tauto
    · rintro rfl
      exact (List.nodup_cons.mp hne).1 hy
  rw [List.forall_mem_append] at hothers
  rw [List.flatMap_append, List.flatMap_cons, List.flatMap_eq_nil_iff.mpr hothers.1,
    List.flatMap_eq_nil_iff.mpr hothers.2, List.nil_append, List.append_nil]

theorem Part.of_channel? {part : Part} {channel : Nat} (h : part.channel? = some channel) :
    part.index = channel ∧ channel < Tracker.channelCount := by
  unfold channel? kind at h
  unfold index at *
  split_ifs at h with hfm hssg
  · have hlt : part.number.toNat < 6 := hfm
    cases h
    exact ⟨rfl, Nat.lt_trans hlt (by decide)⟩
  · have hlt : part.number.toNat < 9 := hssg
    cases h
    exact ⟨rfl, Nat.lt_trans hlt (by decide)⟩

theorem Part.eq_of_channel? {first second : Part} {channel : Nat}
    (hfirst : first.channel? = some channel) (hsecond : second.channel? = some channel) :
    first = second := by
  have hindex := (of_channel? hfirst).1.trans (of_channel? hsecond).1.symm
  cases first
  cases second
  exact congrArg Part.mk (UInt8.toNat_inj.mp hindex)

/-- Timelines of different parts, each with a channel of its own. -/
structure Seated (parts : List Timeline) : Prop where
  nodup : (parts.map Timeline.part).Nodup
  channel : ∀ t ∈ parts, ∃ channel, t.part.channel? = some channel

theorem Performance.Sound.seated {p : Performance} (hp : p.Sound) :
    Seated (Arrangement.audible p.timelines) := by
  constructor
  · exact hp.nodup.sublist (List.filter_sublist.map _)
  · exact fun t ht => Option.isSome_iff_exists.mp (List.mem_filter.mp ht).2

theorem Seated.find?_eq_some_iff {parts : List Timeline} (hparts : Seated parts) {channel : Nat}
    {t : Timeline} : parts.find? (·.part.channel? = some channel) = some t ↔
      t ∈ parts ∧ t.part.channel? = some channel := by
  constructor
  · intro h
    exact ⟨List.mem_of_find?_eq_some h, by simpa using List.find?_some h⟩
  · rintro ⟨ht, hchannel⟩
    refine find?_eq_some_of_unique ht (by simpa using hchannel) ?_
    intro u hu h
    refine List.inj_on_of_nodup_map hparts.nodup hu ht ?_
    exact Part.eq_of_channel? (of_decide_eq_true h) hchannel

theorem Seated.flatMap_channels {parts : List Timeline} (hparts : Seated parts) {t : Timeline}
    (ht : t ∈ parts) {f : Timeline → List Tempo} (h : ∀ u ∈ parts, u ≠ t → f u = []) :
    ((List.range Tracker.channelCount).flatMap fun channel =>
      (parts.find? (·.part.channel? = some channel)).toList.flatMap f) = f t := by
  obtain ⟨seat, hseat⟩ := hparts.channel t ht
  rw [flatMap_of_unique List.nodup_range (List.mem_range.mpr (Part.of_channel? hseat).2),
    hparts.find?_eq_some_iff.mpr ⟨ht, hseat⟩, Option.toList_some, List.flatMap_singleton]
  intro channel _ hne
  cases hother : parts.find? (·.part.channel? = some channel) with
  | none => rfl
  | some u =>
    obtain ⟨hu, hchannel⟩ := hparts.find?_eq_some_iff.mp hother
    rw [Option.toList_some, List.flatMap_singleton]
    refine h u hu ?_
    rintro rfl
    exact hne (Option.some.inj (hchannel.symm.trans hseat))

/-- Who sets a tempo in a row, and what is written there: nobody and nothing, or one part and what
is new to it. -/
inductive SetsTempo (a : Arrangement) (parts : List Timeline) (row : Nat) : Prop
  | nobody (set : ∀ t ∈ parts, a.grid.temposIn t.events row = []) (written : a.temposIn row = [])
  | one (t : Timeline) (mem : t ∈ parts) (set : a.grid.temposIn t.events row ≠ [])
    (others : ∀ u ∈ parts, u ≠ t → a.grid.temposIn u.events row = [])
    (song : (parts.flatMap fun t => a.grid.temposIn t.events row) = a.grid.temposIn t.events row)
    (written : a.temposIn row = (a.grid.ownTempo t row).changes (a.grid.temposIn t.events row))

theorem setsTempo_arrange {o : Options} {voices : List VoiceRecord} {timelines : List Timeline}
    (hkept : ∀ source code value row,
      .overflow source (.effectDropped code value row) ∉ (arrange o voices timelines).2)
    (hsorted : ∀ t ∈ timelines, t.events.Pairwise (·.tick ≤ ·.tick))
    (hparts : Seated (Arrangement.audible timelines))
    (hapart : (arrange o voices timelines).1.grid.TemposApart (Arrangement.audible timelines))
    {row : Nat} (hrow : row < (arrange o voices timelines).1.grid.rowCount) :
    SetsTempo (arrange o voices timelines).1 (Arrangement.audible timelines) row := by
  have hwritten := Arrangement.temposIn_arrange hkept hsorted hrow
  generalize (arrange o voices timelines).1 = a at *
  generalize Arrangement.audible timelines = parts at *
  by_cases hset : ∀ t ∈ parts, a.grid.temposIn t.events row = []
  · refine .nobody hset ?_
    rw [hwritten, List.flatMap_eq_nil_iff]
    intro channel _
    rw [List.flatMap_eq_nil_iff]
    intro t ht
    rw [hset t (List.mem_of_find?_eq_some (Option.mem_toList.mp ht))]
    rfl
  · push Not at hset
    obtain ⟨t, ht, hne⟩ := hset
    have hothers : ∀ u ∈ parts, u ≠ t → a.grid.temposIn u.events row = [] := by
      intro u hu hut
      have hsymm : Std.Symm fun t u : Timeline => ∀ row < a.grid.rowCount,
          a.grid.temposIn t.events row = [] ∨ a.grid.temposIn u.events row = [] :=
        ⟨fun _ _ h row hrow => (h row hrow).symm⟩
      exact (hapart.forall ht hu hut.symm row hrow).resolve_left hne
    have hnodup := List.Nodup.of_map _ hparts.nodup
    refine .one t ht hne hothers (flatMap_of_unique hnodup ht hothers) ?_
    rw [hwritten]
    refine hparts.flatMap_channels ht ?_
    intro u hu hut
    rw [hothers u hu hut]
    rfl

section Step

variable {a : Arrangement} {parts : List Timeline} {row : Nat}

theorem getLastD_of_ne_nil {α : Type} {l : List α} (h : l ≠ []) (x y : α) :
    l.getLastD x = l.getLastD y := by
  cases l with
  | nil => exact absurd rfl h
  | cons z l => rw [List.getLastD_cons, List.getLastD_cons]

/-- If the song is in the tempo that was set last, it stays so in a row exactly if no part goes back
there to a tempo that the song has left. -/
theorem SetsTempo.tempo_succ_iff (h : SetsTempo a parts row)
    (hrow : a.tempo row = a.grid.songTempo parts row) :
    a.tempo (row + 1) = a.grid.songTempo parts (row + 1) ↔ a.grid.TempoHolds parts row := by
  have hnext : a.tempo (row + 1) = (a.temposIn row).getLastD (a.tempo row) := rfl
  have hsong : a.grid.songTempo parts (row + 1) =
      (parts.flatMap fun t => a.grid.temposIn t.events row).getLastD
        (a.grid.songTempo parts row) := rfl
  rw [hnext, hsong, hrow]
  cases h with
  | nobody set written =>
    rw [written, List.flatMap_eq_nil_iff.mpr set]
    exact iff_of_true rfl fun t ht hne => absurd (set t ht) hne
  | one t mem set others song written =>
    have honly : ∀ u ∈ parts, a.grid.temposIn u.events row ≠ [] → u = t :=
      fun u hu hne => not_not.mp fun hut => hne (others u hu hut)
    have hlast := (a.grid.ownTempo t row).getLastD_changes (a.grid.temposIn t.events row)
    rw [getLastD_of_ne_nil set _ (a.grid.songTempo parts row)] at hlast
    rw [written, song, ← hlast]
    by_cases hown : ∀ tempo ∈ a.grid.temposIn t.events row, tempo = a.grid.ownTempo t row
    · -- The part writes nothing, so the song stays in its tempo.
      rw [(Tempo.changes_eq_nil _).mpr hown]
      refine ⟨fun h u hu hne _ => ?_, fun h => h t mem set hown⟩
      rw [honly u hu hne]
      exact h
    · -- Something is written, and it ends in the tempo that the part sets last.
      have hchanges := mt (Tempo.changes_eq_nil _).mp hown
      refine iff_of_true (getLastD_of_ne_nil hchanges _ _) ?_
      intro u hu hne hall
      rw [honly u hu hne] at hall
      exact absurd hall hown

end Step

/-! ## Whole songs -/

/-- Where no effect is dropped and no two parts set tempos in one row, the song is always in the tempo
that was set last, exactly if no part goes back to a tempo of its own that the song has left: that
tempo is not written again. -/
theorem tempo_eq_songTempo_iff {o : Options} {data : List UInt8} {codec : Codec} {conv : Conversion}
    (h : convert o data codec = .ok conv)
    (hkept : ∀ source code value row,
      .overflow source (.effectDropped code value row) ∉ conv.warnings.items)
    (hapart : conv.arrangement.grid.TemposApart (Arrangement.audible conv.timelines)) :
    (∀ row ≤ conv.arrangement.grid.rowCount, conv.arrangement.tempo row =
        conv.arrangement.grid.songTempo (Arrangement.audible conv.timelines) row) ↔
      ∀ row < conv.arrangement.grid.rowCount,
        conv.arrangement.grid.TempoHolds (Arrangement.audible conv.timelines) row := by
  obtain ⟨p, -, hp, htimelines, harrangement, -, -⟩ := of_convert h
  have hsound := sound_of_ofData hp
  rw [warnings_of_convert h hp] at hkept
  rw [harrangement, htimelines] at hapart ⊢
  have hsets : ∀ row < (arrange o p.image.voices p.timelines).1.grid.rowCount,
      SetsTempo (arrange o p.image.voices p.timelines).1 (Arrangement.audible p.timelines) row := by
    intro row hrow
    refine setsTempo_arrange ?_ (fun t ht => (hsound.gapless t ht).sorted) hsound.seated hapart hrow
    exact fun source code value row hmem =>
      hkept source code value row (Warnings.mem_append.mpr (.inr hmem))
  generalize (arrange o p.image.voices p.timelines).1 = a at *
  generalize Arrangement.audible p.timelines = parts at *
  constructor
  · intro hall row hrow
    exact ((hsets row hrow).tempo_succ_iff (hall row (Nat.le_of_lt hrow))).mp (hall (row + 1) hrow)
  · intro hholds row hrow
    induction row with
    | zero => rfl
    | succ row ih =>
      exact ((hsets row hrow).tempo_succ_iff (ih (Nat.le_of_lt hrow))).mpr (hholds row hrow)

/-- A score of two parts. -/
def duet (first second : List UInt8) : List UInt8 :=
  [0, 26, 0, UInt8.ofNat (26 + first.length), 0] ++ List.replicate 22 0 ++ first ++ second

/-- The first part starts at a tempo of 100, which the second part changes to 120 after three ticks and
the first one to 90 after six. -/
def handedTempo : List UInt8 :=
  duet [0xFC, 0xFF, 100, 0x30, 6, 0xFC, 0xFF, 90, 0x30, 6, 0x80]
    [0x30, 3, 0xFC, 0xFF, 120, 0x30, 9, 0x80]

theorem tempo_eq_songTempo_iff_handedTempo :
    ∃ conv, convert {} handedTempo = .ok conv ∧
      (List.range 5).map conv.arrangement.tempo = [⟨100⟩, ⟨100⟩, ⟨120⟩, ⟨90⟩, ⟨90⟩] ∧
      ∀ row ≤ conv.arrangement.grid.rowCount, conv.arrangement.tempo row =
        conv.arrangement.grid.songTempo (Arrangement.audible conv.timelines) row := by
  have hconverts : ∃ conv ∈ (convert {} handedTempo).toOption, conv.warnings.items = #[] ∧
      (List.range 5).map conv.arrangement.tempo = [⟨100⟩, ⟨100⟩, ⟨120⟩, ⟨90⟩, ⟨90⟩] ∧
      conv.arrangement.grid.TemposApart (Arrangement.audible conv.timelines) ∧
      ∀ row < conv.arrangement.grid.rowCount,
        conv.arrangement.grid.TempoHolds (Arrangement.audible conv.timelines) row := by
    decide +kernel
  obtain ⟨conv, hmem, hwarnings, htempos, hapart, hholds⟩ := hconverts
  have hconv := eq_ok_of_mem_toOption hmem
  have hkept : ∀ source code value row,
      .overflow source (.effectDropped code value row) ∉ conv.warnings.items := by
    simp [hwarnings]
  exact ⟨conv, hconv, htempos, (tempo_eq_songTempo_iff hconv hkept hapart).mpr hholds⟩

/-- Both parts as before, but after six ticks the first part goes back to its tempo of 100. -/
def restoredTempo : List UInt8 :=
  duet [0xFC, 0xFF, 100, 0x30, 6, 0xFC, 0xFF, 100, 0x30, 6, 0x80]
    [0x30, 3, 0xFC, 0xFF, 120, 0x30, 9, 0x80]

theorem tempo_ne_songTempo_restoredTempo :
    ∃ conv, convert {} restoredTempo = .ok conv ∧
      (∀ source code value row,
        .overflow source (.effectDropped code value row) ∉ conv.warnings.items) ∧
      conv.arrangement.grid.TemposApart (Arrangement.audible conv.timelines) ∧
      3 ≤ conv.arrangement.grid.rowCount ∧ conv.arrangement.tempo 3 = ⟨120⟩ ∧
      conv.arrangement.grid.songTempo (Arrangement.audible conv.timelines) 3 = ⟨100⟩ := by
  have hconverts : ∃ conv ∈ (convert {} restoredTempo).toOption, conv.warnings.items = #[] ∧
      conv.arrangement.grid.TemposApart (Arrangement.audible conv.timelines) ∧
      3 ≤ conv.arrangement.grid.rowCount ∧ conv.arrangement.tempo 3 = ⟨120⟩ ∧
      conv.arrangement.grid.songTempo (Arrangement.audible conv.timelines) 3 = ⟨100⟩ := by
    decide +kernel
  obtain ⟨conv, hmem, hwarnings, hrest⟩ := hconverts
  refine ⟨conv, eq_ok_of_mem_toOption hmem, ?_, hrest⟩
  simp [hwarnings]

end ChipScore
