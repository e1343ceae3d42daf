import ChipScore.Proofs.LoadedInstrument

/-!
# Volume macros

An envelope runs once a tick: it gives a level for each tick that the key is held, and for each tick
after it is let go. Its macro is written tick by tick, up to the limit of the format. All that is said
of the steps follows from the level at a single tick.
-/

namespace ChipScore

namespace Envelope

/-! ## Levels at single ticks -/

def heldTicks (e : Envelope) : Nat :=
  e.attack.toNat + if e.sustain = 0 then 1 else e.decayed * e.sustain.toNat + 1

/-- The level that a held note has after so many ticks. -/
def heldLevel (e : Envelope) (tick : Nat) : Nat :=
  if tick < e.attack.toNat then fullLevel
  else if e.sustain = 0 then e.decayed
  else e.decayed - (tick - e.attack.toNat) / e.sustain.toNat

def releasedTicks (e : Envelope) : Nat :=
  if e.release = 0 ∨ e.decayed = 0 then 1 else e.decayed * e.release.toNat

/-- The level of a note so many ticks after it was let go. -/
def releasedLevel (e : Envelope) (tick : Nat) : Nat :=
  if e.release = 0 then 0 else e.decayed - 1 - tick / e.release.toNat

def levels (count : Nat) (level : Nat → Nat) : List UInt8 :=
  (List.range count).map fun tick => UInt8.ofNat (level tick)

theorem levels_add (m n : Nat) (level : Nat → Nat) :
    levels (m + n) level = levels m level ++ levels n fun tick => level (m + tick) := by
  rw [levels, List.range_add, List.map_append, List.map_map]
  rfl

theorem levels_congr {count : Nat} {level level' : Nat → Nat}
    (h : ∀ tick < count, level tick = level' tick) : levels count level = levels count level' :=
  List.map_congr_left fun tick htick => by rw [h tick (List.mem_range.mp htick)]

theorem levels_const (count level : Nat) :
    (levels count fun _ => level) = List.replicate count (UInt8.ofNat level) := by
  rw [levels, List.map_const', List.length_range]

theorem levels_one (level : Nat → Nat) : levels 1 level = [UInt8.ofNat (level 0)] := rfl

@[simp] theorem length_levels (count : Nat) (level : Nat → Nat) :
    (levels count level).length = count := by
  rw [levels, List.length_map, List.length_range]

theorem getElem?_levels {count tick : Nat} (level : Nat → Nat) (h : tick < count) :
    (levels count level)[tick]? = some (UInt8.ofNat (level tick)) := by
  rw [levels, List.getElem?_map, List.getElem?_range h, Option.map_some]

theorem pairwise_levels {count : Nat} {level : Nat → Nat} (hle : ∀ tick, level tick ≤ fullLevel)
    (hfall : ∀ s t, s ≤ t → level t ≤ level s) : (levels count level).Pairwise (· ≥ ·) := by
  rw [levels, List.pairwise_map]
  apply List.pairwise_lt_range.imp
  intro s t hst
  have hbyte (tick : Nat) : level tick < UInt8.size := Nat.lt_of_le_of_lt (hle tick) (by decide)
  exact (UInt8.ofNat_le_iff_le (hbyte t) (hbyte s)).mpr (hfall s t (Nat.le_of_lt hst))

/-! ## Segments -/

@[simp] theorem expand_nil : expand [] = [] := rfl

@[simp] theorem expand_cons (s : Segment) (segments : List Segment) :
    expand (s :: segments) = List.replicate s.hold s.level ++ expand segments := rfl

theorem expand_append (first second : List Segment) :
    expand (first ++ second) = expand first ++ expand second :=
  List.flatMap_append

theorem expand_steps (level : Nat → Nat) {hold : Nat} (h : 0 < hold) (n : Nat) :
    expand ((List.range n).map fun i => ⟨UInt8.ofNat (level i), hold⟩) =
      levels (n * hold) fun tick => level (tick / hold) := by
  induction n with
  | zero => rw [Nat.zero_mul]; rfl
  | succ n ih =>
    have hlast : (levels hold fun tick => level ((n * hold + tick) / hold)) =
        List.replicate hold (UInt8.ofNat (level n)) := by
      rw [← levels_const]
      apply levels_congr
      intro tick htick
      rw [Nat.mul_comm, Nat.mul_add_div h, Nat.div_eq_of_lt htick, Nat.add_zero]
    rw [List.range_succ, List.map_append, expand_append, ih, Nat.succ_mul, levels_add, hlast,
      List.map_singleton, expand_cons, expand_nil, List.append_nil]

theorem expand_fall {floor top hold : Nat} (hfloor : floor ≤ top) (h : 0 < hold) :
    expand (fall top floor hold) =
      levels ((top - floor) * hold) fun tick => top - 1 - tick / hold := by
  rw [fall, List.reverse_range', List.map_map, Nat.add_sub_cancel' hfloor]
  exact expand_steps (fun i => top - 1 - i) h (top - floor)

theorem decayed_le (e : Envelope) : e.decayed ≤ fullLevel := Nat.min_le_right _ _

theorem pos_of_ne_zero {b : UInt8} (h : b ≠ 0) : 0 < b.toNat :=
  Nat.pos_of_ne_zero fun hzero => h (UInt8.toNat_inj.mp hzero)

theorem expand_attackSegments (e : Envelope) :
    expand e.attackSegments = levels e.attack.toNat fun _ => fullLevel := by
  rw [attackSegments, levels_const]
  split
  · rename_i h
    rw [h]
    rfl
  · rw [expand_cons, expand_nil, List.append_nil]

theorem expand_sustainSegments (e : Envelope) :
    expand e.sustainSegments =
      levels (if e.sustain = 0 then 1 else e.decayed * e.sustain.toNat + 1) fun tick =>
        if e.sustain = 0 then e.decayed else e.decayed - tick / e.sustain.toNat := by
  rw [sustainSegments]
  split
  · rfl
  · rename_i h
    have hpos := pos_of_ne_zero h
    rw [expand_append, expand_fall (by omega) hpos, Nat.add_sub_cancel, levels_add, levels_one,
      Nat.add_zero, Nat.mul_div_cancel _ hpos, Nat.sub_self]
    rfl

theorem expand_held (e : Envelope) : expand e.held = levels e.heldTicks e.heldLevel := by
  rw [held, expand_append, expand_attackSegments, expand_sustainSegments, heldTicks, levels_add]
  congr 1
  · apply levels_congr
    intro tick htick
    rw [heldLevel, if_pos htick]
  · apply levels_congr
    intro tick _
    have hlate : ¬e.attack.toNat + tick < e.attack.toNat := by omega
    rw [heldLevel, if_neg hlate, Nat.add_sub_cancel_left]

theorem expand_released (e : Envelope) :
    expand e.released = levels e.releasedTicks e.releasedLevel := by
  rw [released, releasedTicks]
  split
  · rename_i h
    have hzero : e.releasedLevel 0 = 0 := by
      rw [releasedLevel]
      split
      · rfl
      · rename_i hne
        rw [h.resolve_left hne, Nat.zero_sub]
    rw [levels_one, hzero]
    rfl
  · rename_i h
    have hne : e.release ≠ 0 := fun hzero => h (.inl hzero)
    rw [expand_fall (Nat.zero_le _) (pos_of_ne_zero hne), Nat.sub_zero]
    apply levels_congr
    intro tick _
    rw [releasedLevel, if_neg hne]

/-! ## What the levels have in common -/

theorem heldTicks_pos (e : Envelope) : 0 < e.heldTicks := by
  unfold heldTicks
  split <;> omega

theorem releasedTicks_pos (e : Envelope) : 0 < e.releasedTicks := by
  unfold releasedTicks
  split
  · exact Nat.one_pos
  · rename_i h
    rw [not_or] at h
    exact Nat.mul_pos (Nat.pos_of_ne_zero h.2) (pos_of_ne_zero h.1)

theorem heldLevel_le (e : Envelope) (tick : Nat) : e.heldLevel tick ≤ fullLevel := by
  have hdecayed := e.decayed_le
  unfold heldLevel
  split
  · exact Nat.le_refl _
  · split
    · exact hdecayed
    · exact Nat.le_trans (Nat.sub_le _ _) hdecayed

theorem releasedLevel_le (e : Envelope) (tick : Nat) : e.releasedLevel tick ≤ fullLevel := by
  have hdecayed := e.decayed_le
  unfold releasedLevel
  split
  · exact Nat.zero_le _
  · exact Nat.le_trans (Nat.sub_le _ _) (Nat.le_trans (Nat.sub_le _ _) hdecayed)

theorem heldLevel_anti (e : Envelope) {s t : Nat} (h : s ≤ t) :
    e.heldLevel t ≤ e.heldLevel s := by
  by_cases hs : s < e.attack.toNat
  · have hfull : e.heldLevel s = fullLevel := if_pos hs
    rw [hfull]
    exact e.heldLevel_le t
  · have ht : ¬t < e.attack.toNat := by omega
    rw [heldLevel, heldLevel, if_neg hs, if_neg ht]
    split
    · exact Nat.le_refl _
    · exact Nat.sub_le_sub_left (Nat.div_le_div_right (by omega)) _

theorem releasedLevel_anti (e : Envelope) {s t : Nat} (h : s ≤ t) :
    e.releasedLevel t ≤ e.releasedLevel s := by
  unfold releasedLevel
  split
  · exact Nat.le_refl _
  · exact Nat.sub_le_sub_left (Nat.div_le_div_right h) _

theorem releasedLevel_eq_zero_iff (e : Envelope) (tick : Nat) :
    e.releasedLevel tick = 0 ↔ (e.decayed - 1) * e.release.toNat ≤ tick := by
  unfold releasedLevel
  split
  · rename_i h
    simp [h]
  · rename_i h
    rw [Nat.sub_eq_zero_iff_le, Nat.le_div_iff_mul_le (pos_of_ne_zero h)]

theorem heldLevel_eq_zero_iff (e : Envelope) {tick : Nat} (h : tick < e.heldTicks) :
    e.heldLevel tick = 0 ↔ tick + 1 = e.heldTicks ∧ (e.sustain ≠ 0 ∨ e.decayed = 0) := by
  unfold heldTicks at h ⊢
  unfold heldLevel
  split
  · rename_i hattack
    have : fullLevel ≠ 0 := by decide
    split <;> omega
  · split
    · rename_i hsustain
      rw [if_pos hsustain] at h
      simp [hsustain]
      omega
    · rename_i hsustain
      rw [if_neg hsustain] at h
      rw [Nat.sub_eq_zero_iff_le, Nat.le_div_iff_mul_le (pos_of_ne_zero hsustain)]
      simp [hsustain]
      omega

theorem length_expand_held (e : Envelope) : (expand e.held).length = e.heldTicks := by
  rw [expand_held, length_levels]

theorem length_expand_released (e : Envelope) :
    (expand e.released).length = e.releasedTicks := by
  rw [expand_released, length_levels]

theorem level_le_of_mem_levels {count : Nat} {level : Nat → Nat}
    (hle : ∀ tick, level tick ≤ fullLevel) : ∀ l ∈ levels count level, l.toNat ≤ fullLevel := by
  intro l hl
  obtain ⟨tick, -, rfl⟩ := List.mem_map.mp hl
  rw [UInt8.toNat_ofNat_of_lt' (Nat.lt_of_le_of_lt (hle tick) (by decide))]
  exact hle tick

theorem getLast?_expand_released (e : Envelope) : (expand e.released).getLast? = some 0 := by
  have hpos := e.releasedTicks_pos
  have hlast : e.releasedLevel (e.releasedTicks - 1) = 0 := by
    rw [releasedLevel_eq_zero_iff, releasedTicks]
    split
    · rename_i h
      rcases h with h | h <;> simp [h]
    · rename_i h
      have hrelease := pos_of_ne_zero fun hzero => h (.inl hzero)
      rw [Nat.sub_mul, Nat.one_mul]
      omega
  rw [List.getLast?_eq_getElem?, length_expand_released, expand_released,
    getElem?_levels _ (by omega), hlast]
  rfl

/-! ## Writing a macro -/

/-- A macro that is being written. Nothing is written any more once a step did not fit. -/
structure Draft where
  steps : List UInt8 := []
  releasePoint : Option Nat := none
  isCut : Bool := false
  deriving DecidableEq, Repr

namespace Draft

def tick (d : Draft) (level : UInt8) : Draft :=
  if d.isCut then d
  else if stepLimit ≤ d.steps.length then { d with isCut := true }
  else { d with steps := d.steps ++ [level] }

def segment (d : Draft) (s : Segment) : Draft := (List.replicate s.hold s.level).foldl tick d

/-- The macro waits on the last step that is there when the release begins. -/
def markRelease (d : Draft) : Draft :=
  if d.isCut ∨ d.steps = [] then d
  else { d with releasePoint := some (d.steps.length - 1) }

def write (e : Envelope) : Draft :=
  e.released.foldl segment (e.held.foldl segment {}).markRelease

theorem foldl_segment (d : Draft) (segments : List Segment) :
    segments.foldl segment d = (expand segments).foldl tick d :=
  List.foldl_flatMap.symm

theorem foldl_tick_of_isCut {d : Draft} (h : d.isCut = true) (levels : List UInt8) :
    levels.foldl tick d = d := by
  induction levels with
  | nil => rfl
  | cons level levels ih => rw [List.foldl_cons, tick, if_pos h, ih]

theorem foldl_tick {d : Draft} (hcut : d.isCut = false) (hfits : d.steps.length ≤ stepLimit)
    (levels : List UInt8) :
    levels.foldl tick d =
      { d with
        steps := (d.steps ++ levels).take stepLimit
        isCut := stepLimit < (d.steps ++ levels).length } := by
  induction levels generalizing d with
  | nil =>
    rw [List.foldl_nil, List.append_nil, List.take_of_length_le hfits,
      decide_eq_false (Nat.not_lt.mpr hfits), ← hcut]
  | cons level levels ih =>
    rw [List.foldl_cons, tick, if_neg (by simp [hcut])]
    split
    · rename_i hfull
      have hlength : d.steps.length = stepLimit := Nat.le_antisymm hfits hfull
      have hlong : stepLimit < (d.steps ++ level :: levels).length := by
        rw [List.length_append, List.length_cons]
        omega
      rw [foldl_tick_of_isCut rfl, decide_eq_true hlong, List.take_left' hlength]
    · rename_i hroom
      have hnext : (d.steps ++ [level]).length ≤ stepLimit := by
        rw [List.length_append, List.length_singleton]
        omega
      have hrest := ih (d := { d with steps := d.steps ++ [level] }) hcut hnext
      rw [List.append_assoc, List.singleton_append] at hrest
      exact hrest

end Draft

theorem releasePoint_volumeMacro (e : Envelope) : e.volumeMacro.releasePoint.map UInt8.toNat =
    if e.heldTicks ≤ stepLimit then some (e.heldTicks - 1) else none := by
  rw [volumeMacro]
  dsimp only
  rw [length_expand_held]
  split
  · rename_i h
    have hbyte : e.heldTicks - 1 < UInt8.size :=
      Nat.lt_of_le_of_lt (Nat.sub_le _ _) (Nat.lt_succ_of_le h)
    rw [Option.map_some, UInt8.toNat_ofNat_of_lt' hbyte]
  · rfl

/-- Written tick by tick, the macro of an envelope is cut where its levels are too many, and waits on
the last held step, if that one was written. -/
theorem write_eq (e : Envelope) : Draft.write e =
    ⟨e.volumeMacro.steps, e.volumeMacro.releasePoint.map UInt8.toNat, e.isCut⟩ := by
  have hheld := Draft.foldl_tick (d := {}) rfl (Nat.zero_le _) (expand e.held)
  have hlength := e.length_expand_held
  rw [List.nil_append, hlength] at hheld
  rw [Draft.write, Draft.foldl_segment, Draft.foldl_segment, hheld, releasePoint_volumeMacro]
  by_cases hfits : e.heldTicks ≤ stepLimit
  · have hne : expand e.held ≠ [] := by
      have hpos := e.heldTicks_pos
      rw [← hlength] at hpos
      exact List.ne_nil_of_length_pos hpos
    rw [if_pos hfits, List.take_of_length_le (by rwa [hlength]),
      decide_eq_false (Nat.not_lt.mpr hfits), Draft.markRelease, if_neg (by simp [hne])]
    dsimp only
    rw [Draft.foldl_tick rfl (by rwa [hlength]), hlength]
    rfl
  · have hlong : stepLimit < e.heldTicks := Nat.lt_of_not_le hfits
    have hcut : e.isCut = true := by
      rw [isCut, steps, List.length_append, hlength]
      exact decide_eq_true (Nat.lt_add_right _ hlong)
    have hsteps : e.volumeMacro.steps = (expand e.held).take stepLimit :=
      List.take_append_of_le_length (by rw [hlength]; exact Nat.le_of_lt hlong)
    rw [if_neg hfits, decide_eq_true hlong, Draft.markRelease, if_pos (.inl rfl),
      Draft.foldl_tick_of_isCut rfl, hsteps, hcut]

end Envelope

/-! ## The whole macro -/

/-- A macro is made of the levels of a held note and those of a released one, cut or not. -/
structure VolumeMacro.Expands (m : VolumeMacro) (isCut : Bool) (held released : List UInt8) :
    Prop where
  held_ne_nil : held ≠ []
  released_ne_nil : released ≠ []
  level_le : ∀ level ∈ held ++ released, level.toNat ≤ 15
  held_falls : held.Pairwise (· ≥ ·)
  released_falls : released.Pairwise (· ≥ ·)
  released_silent : released.getLast? = some 0
  steps_eq : m.steps = (held ++ released).take (min 255 (held.length + released.length))
  isCut_iff : isCut = true ↔ 255 < held.length + released.length
  releasePoint_eq : m.releasePoint.map UInt8.toNat =
    if held.length ≤ 255 then some (held.length - 1) else none
  releasePoint_lt : ∀ point ∈ m.releasePoint, point.toNat < m.steps.length
  releasePoint_ne : m.releasePoint ≠ some Tracker.Instrument.noStep
  length_byte : (UInt8.ofNat m.steps.length).toNat = m.steps.length

namespace Envelope

theorem releasePoint_lt (e : Envelope) :
    ∀ point ∈ e.volumeMacro.releasePoint, point.toNat < e.volumeMacro.steps.length := by
  intro point hpoint
  have hmap := e.releasePoint_volumeMacro
  have hpos := e.heldTicks_pos
  have hsteps : e.volumeMacro.steps.length = min stepLimit (e.heldTicks + e.releasedTicks) := by
    rw [volumeMacro, List.length_take, steps, List.length_append, length_expand_held,
      length_expand_released]
  rw [hpoint, Option.map_some] at hmap
  rw [hsteps]
  split at hmap
  · have hat := Option.some.inj hmap
    omega
  · cases hmap

/-- The volume macro of every envelope is the expansion of its segments, and it is what is written
tick by tick. -/
theorem expands_volumeMacro (e : Envelope) :
    e.volumeMacro.Expands e.isCut (expand e.held) (expand e.released) ∧
      Draft.write e =
        ⟨e.volumeMacro.steps, e.volumeMacro.releasePoint.map UInt8.toNat, e.isCut⟩ := by
  have hheld := e.length_expand_held
  have hreleased := e.length_expand_released
  have hstorable := Tracker.LoadedInstrument.storable_volumeMacro e
  refine ⟨⟨?_, ?_, ?_, ?_, ?_, e.getLast?_expand_released, ?_, ?_, ?_, e.releasePoint_lt,
    hstorable.releasePoint_ne, UInt8.toNat_ofNat_of_lt' hstorable.length_steps⟩, e.write_eq⟩
  · exact List.ne_nil_of_length_pos (hheld ▸ e.heldTicks_pos)
  · exact List.ne_nil_of_length_pos (hreleased ▸ e.releasedTicks_pos)
  · rw [List.forall_mem_append, expand_held, expand_released]
    exact ⟨level_le_of_mem_levels e.heldLevel_le, level_le_of_mem_levels e.releasedLevel_le⟩
  · rw [expand_held]
    exact pairwise_levels e.heldLevel_le fun _ _ => e.heldLevel_anti
  · rw [expand_released]
    exact pairwise_levels e.releasedLevel_le fun _ _ => e.releasedLevel_anti
  · rw [← List.length_append, ← List.take_eq_take_min]
    rfl
  · rw [← List.length_append]
    exact decide_eq_true_iff
  · rw [hheld]
    exact e.releasePoint_volumeMacro

example : Draft.write { attack := 1, decay := -2, release := 1 } =
    ⟨[15, 13, 12, 11, 10, 9, 8, 7, 6, 5, 4, 3, 2, 1, 0], some 1, false⟩ := by decide

end Envelope

end ChipScore
