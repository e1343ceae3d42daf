import ChipScore.Proofs.Runs

/-!
# The stack of loops

A loop is entered with the end that was found by reading ahead, but it is left by the commands that
are met on the way. The two agree on every stream of bytes, balanced or not: the end of a loop is
met exactly where it was found, and no part can end inside a loop.
-/

namespace ChipScore

/-! ## What the search for a loop end finds -/

section FindLoopEnd

variable {kind : PartKind} {depth : Nat} {c next exit : Cursor} {count : UInt8}

theorem findLoopEndAfter_of_ne {command : Command} (hend : ∀ n, command ≠ .loopEnd n)
    (hstart : command ≠ .loopStart) (htrack : command ≠ .trackEnd) :
    findLoopEndAfter kind next command depth = findLoopEnd kind depth next := by
  cases command with
  | loopEnd n => exact absurd rfl (hend n)
  | loopStart => exact absurd rfl hstart
  | trackEnd => exact absurd rfl htrack
  | _ => rfl

theorem bounds_of_found (h : findLoopEnd kind depth c = .found count exit) :
    c.offset < exit.offset ∧ exit.offset ≤ c.stop ∧ exit.stop = c.stop := by
  fun_induction findLoopEnd kind depth c
  case case1 | case2 | case6 => cases h
  case case3 c _ i next hread n hcommand =>
    cases h
    exact Command.bounds_of_read hread
  case case4 ih | case5 ih | case7 ih =>
    have := ih h
    have := Command.bounds_of_read ‹_›
    omega

/-- On its way to the end of an outer loop the search comes by the end of the loop it stands in. -/
theorem found_inside (depth outer : Nat) {total : Nat} (htotal : total = depth + outer + 1)
    (h : findLoopEnd kind total c = .found count exit) : ∃ n mid,
      findLoopEnd kind depth c = .found n mid ∧
        findLoopEnd kind outer mid = .found count exit := by
  fun_induction findLoopEnd kind total c generalizing depth
  case case1 | case2 | case6 => cases h
  case case3 => omega
  case case4 c _ i next hread n total hcommand ih =>
    cases depth with
    | zero =>
      refine ⟨n, next, ?_, ?_⟩
      · rw [findLoopEnd_of_read 0 hread, hcommand]
        rfl
      · rwa [show outer = total by omega]
    | succ depth =>
      rw [findLoopEnd_of_read (depth + 1) hread, hcommand]
      exact ih _ (by omega) h
  case case5 c _ i next hread total hcommand ih =>
    rw [findLoopEnd_of_read depth hread, hcommand]
    exact ih _ (by omega) h
  case case7 c _ i next hread total hend hend' hstart htrack ih =>
    have hne : ∀ n, i.command ≠ .loopEnd n := by
      intro n hn
      cases total with
      | zero => exact hend n hn rfl
      | succ total => exact hend' n total hn rfl
    rw [findLoopEnd_of_read depth hread, findLoopEndAfter_of_ne hne hstart htrack]
    exact ih _ htotal h

end FindLoopEnd

/-! ## Nested frames -/

/-- A cursor stands in the loop of a frame: past the start of its body, and with its exit as the
first loop end ahead. -/
structure Frame.Surrounds (kind : PartKind) (frame : Frame) (c : Cursor) : Prop where
  remaining_pos : 1 ≤ frame.remaining
  body_le : frame.body.offset ≤ c.offset
  exit_ahead : ∃ n, findLoopEnd kind 0 c = .found n frame.exit
  exit_of_body : ∃ n, findLoopEnd kind 0 frame.body = .found n frame.exit

/-- A cursor stands in the innermost loop, the exit of that one in the next loop, and so on. -/
inductive Nested (kind : PartKind) : Cursor → List Frame → Prop
  | outside (c : Cursor) : Nested kind c []
  | inside {c : Cursor} {frame : Frame} {outer : List Frame} (surrounds : frame.Surrounds kind c)
    (later : ∀ f ∈ outer.head?, f.body.offset < frame.body.offset)
    (rest : Nested kind frame.exit outer) : Nested kind c (frame :: outer)

namespace Frame

variable {kind : PartKind} {frame : Frame} {c next : Cursor} {i : Instruction}

theorem Surrounds.lt_exit (h : frame.Surrounds kind c) : c.offset < frame.exit.offset := by
  obtain ⟨n, hfound⟩ := h.exit_ahead
  exact (bounds_of_found hfound).1

theorem Surrounds.exit_le (h : frame.Surrounds kind c) : frame.exit.offset ≤ c.stop := by
  obtain ⟨n, hfound⟩ := h.exit_ahead
  exact (bounds_of_found hfound).2.1

theorem Surrounds.stop_exit (h : frame.Surrounds kind c) : frame.exit.stop = c.stop := by
  obtain ⟨n, hfound⟩ := h.exit_ahead
  exact (bounds_of_found hfound).2.2

theorem Surrounds.stop_body (h : frame.Surrounds kind c) : frame.body.stop = c.stop := by
  obtain ⟨n, hfound⟩ := h.exit_of_body
  rw [← (bounds_of_found hfound).2.2, h.stop_exit]

theorem Surrounds.after (h : frame.Surrounds kind c) (hread : Command.read kind c = .ok (i, next)) :
    ∃ n, findLoopEndAfter kind next i.command 0 = .found n frame.exit := by
  obtain ⟨n, hfound⟩ := h.exit_ahead
  rw [findLoopEnd_of_read 0 hread] at hfound
  exact ⟨n, hfound⟩

theorem Surrounds.eq_exit (h : frame.Surrounds kind c) (hread : Command.read kind c = .ok (i, next))
    {n : UInt8} (hcommand : i.command = .loopEnd n) : next = frame.exit := by
  obtain ⟨m, hfound⟩ := h.after hread
  rw [hcommand] at hfound
  cases hfound
  rfl

theorem Surrounds.not_trackEnd (h : frame.Surrounds kind c)
    (hread : Command.read kind c = .ok (i, next)) : i.command ≠ .trackEnd := by
  obtain ⟨m, hfound⟩ := h.after hread
  intro hcommand
  rw [hcommand] at hfound
  cases hfound

theorem Surrounds.advance (h : frame.Surrounds kind c) (hread : Command.read kind c = .ok (i, next))
    (hend : ∀ n, i.command ≠ .loopEnd n) (hstart : i.command ≠ .loopStart) :
    frame.Surrounds kind next := by
  obtain ⟨m, hfound⟩ := h.after hread
  rw [findLoopEndAfter_of_ne hend hstart (h.not_trackEnd hread)] at hfound
  have hbounds := Command.bounds_of_read hread
  have hle := h.body_le
  exact ⟨h.remaining_pos, by omega, ⟨m, hfound⟩, h.exit_of_body⟩

end Frame

namespace Nested

variable {kind : PartKind} {frame : Frame} {outer loops : List Frame} {c next : Cursor}
  {i : Instruction}

theorem surrounds (h : Nested kind c (frame :: outer)) : frame.Surrounds kind c := by
  cases h
  assumption

theorem exit (h : Nested kind c (frame :: outer)) : Nested kind frame.exit outer := by
  cases h
  assumption

theorem move (h : Nested kind c (frame :: outer)) {remaining : Nat}
    (hmove : Frame.Surrounds kind { frame with remaining } next) :
    Nested kind next ({ frame with remaining } :: outer) := by
  cases h with
  | inside _ later rest => exact .inside hmove later rest

theorem not_trackEnd (h : Nested kind c loops) (hread : Command.read kind c = .ok (i, next))
    (hcommand : i.command = .trackEnd) : loops = [] := by
  cases h with
  | outside => rfl
  | inside surrounds _ _ => exact absurd hcommand (surrounds.not_trackEnd hread)

theorem advance (h : Nested kind c loops) (hread : Command.read kind c = .ok (i, next))
    (hend : ∀ n, i.command ≠ .loopEnd n) (hstart : i.command ≠ .loopStart) :
    Nested kind next loops := by
  cases h with
  | outside => exact .outside next
  | inside surrounds later rest => exact .inside (surrounds.advance hread hend hstart) later rest

theorem enter {exit : Cursor} {n : UInt8} (h : Nested kind c loops)
    (hread : Command.read kind c = .ok (i, next)) (hcommand : i.command = .loopStart)
    (hfound : findLoopEnd kind 0 next = .found n exit) :
    Nested kind next (⟨next, exit, max n.toNat 1⟩ :: loops) := by
  have hbounds := Command.bounds_of_read hread
  have hexit := bounds_of_found hfound
  refine .inside ⟨Nat.le_max_right _ _, Nat.le_refl _, ⟨n, hfound⟩, ⟨n, hfound⟩⟩ ?_ ?_
  · intro f hf
    cases h with
    | outside => cases hf
    | inside surrounds _ _ =>
      cases hf
      have := surrounds.body_le
      dsimp only
      omega
  · cases h with
    | outside => exact .outside exit
    | inside surrounds later rest =>
      obtain ⟨m, hafter⟩ := surrounds.after hread
      rw [hcommand] at hafter
      -- The end that the outer search found comes after that of the new loop.
      obtain ⟨n', mid, hinner, houter⟩ := found_inside 0 0 rfl hafter
      rw [hfound] at hinner
      cases hinner
      have := surrounds.body_le
      exact .inside ⟨surrounds.remaining_pos, by dsimp only; omega, ⟨m, houter⟩,
        surrounds.exit_of_body⟩ later rest

theorem exit_bounds (h : Nested kind c loops) :
    ∀ f ∈ loops, c.offset < f.exit.offset ∧ f.exit.offset ≤ c.stop := by
  induction h with
  | outside => simp
  | inside surrounds _ _ ih =>
    rw [List.forall_mem_cons]
    refine ⟨⟨surrounds.lt_exit, surrounds.exit_le⟩, ?_⟩
    intro f hf
    have hlt := surrounds.lt_exit
    have hstop := surrounds.stop_exit
    have := ih f hf
    omega

theorem body_lt_of_head {bound : Nat} (h : Nested kind c loops)
    (hhead : ∀ f ∈ loops.head?, f.body.offset < bound) : ∀ f ∈ loops, f.body.offset < bound := by
  induction h generalizing bound with
  | outside => simp
  | @inside c frame outer _ later _ ih =>
    have hframe : frame.body.offset < bound := hhead frame rfl
    rw [List.forall_mem_cons]
    refine ⟨hframe, ?_⟩
    intro f hf
    exact Nat.lt_trans (ih later f hf) hframe

theorem remaining_pos (h : Nested kind c loops) : ∀ f ∈ loops, 1 ≤ f.remaining := by
  induction h with
  | outside => simp
  | inside surrounds _ _ ih => exact List.forall_mem_cons.mpr ⟨surrounds.remaining_pos, ih⟩

theorem body_lt_exit (h : Nested kind c loops) : ∀ f ∈ loops, f.body.offset < f.exit.offset := by
  induction h with
  | outside => simp
  | inside surrounds _ _ ih =>
    exact List.forall_mem_cons.mpr ⟨Nat.lt_of_le_of_lt surrounds.body_le surrounds.lt_exit, ih⟩

theorem not_missing (h : Nested kind c loops) (hread : Command.read kind c = .ok (i, next))
    (hcommand : i.command = .loopStart) (hmissing : findLoopEnd kind 0 next = .missing) :
    loops = [] := by
  cases h with
  | outside => rfl
  | inside surrounds _ _ =>
    obtain ⟨m, hafter⟩ := surrounds.after hread
    rw [hcommand] at hafter
    obtain ⟨n, mid, hinner, -⟩ := found_inside 0 0 rfl hafter
    rw [hmissing] at hinner
    cases hinner

theorem pairwise (h : Nested kind c loops) :
    loops.Pairwise fun inner outer =>
      outer.body.offset < inner.body.offset ∧ inner.exit.offset < outer.exit.offset := by
  induction h with
  | outside => exact .nil
  | inside _ later rest ih =>
    refine .cons ?_ ih
    intro f hf
    exact ⟨rest.body_lt_of_head later f hf, (rest.exit_bounds f hf).1⟩

end Nested

/-! ## Steps -/

namespace Machine

variable {defined : UInt8 → Bool} {kind : PartKind} {stop : Nat} {m next : Machine}

/-- What every step keeps of the loops of a machine. -/
structure LoopsKept (kind : PartKind) (stop : Nat) (m : Machine) : Prop where
  kind_eq : m.player.kind = kind
  stop_eq : m.cursor.stop = stop
  depth_le : m.loops.length ≤ maxLoopDepth
  nested : Nested kind m.cursor m.loops

theorem loopsKept_start (part : Part) (c : Cursor) : LoopsKept part.kind c.stop (start part c) :=
  ⟨rfl, rfl, Nat.zero_le _, .outside c⟩

section Step

variable {i : Instruction} {c : Cursor}

theorem LoopsKept.advance (h : LoopsKept kind stop m)
    (hread : Command.read kind m.cursor = .ok (i, c)) (hend : ∀ n, i.command ≠ .loopEnd n)
    (hstart : i.command ≠ .loopStart) {player : Player} (hplayer : player.kind = kind) :
    LoopsKept kind stop ⟨c, m.loops, player⟩ := by
  refine ⟨hplayer, ?_, h.depth_le, h.nested.advance hread hend hstart⟩
  rw [← h.stop_eq]
  exact (Command.bounds_of_read hread).2.2

theorem LoopsKept.leave {cursor : Cursor} {frame : Frame} {outer : List Frame} {player : Player}
    (h : LoopsKept kind stop ⟨cursor, frame :: outer, player⟩) :
    LoopsKept kind stop ⟨frame.exit, outer, player⟩ := by
  refine ⟨h.kind_eq, ?_, Nat.le_of_succ_le h.depth_le, h.nested.exit⟩
  rw [← h.stop_eq]
  exact h.nested.surrounds.stop_exit

theorem LoopsKept.enterLoop (h : LoopsKept kind stop m)
    (hread : Command.read kind m.cursor = .ok (i, c)) (hcommand : i.command = .loopStart)
    (hrun : enterLoop m.player m.loops m.cursor.offset c = .running next) :
    LoopsKept kind stop next := by
  have hstop : c.stop = stop := by
    rw [(Command.bounds_of_read hread).2.2, h.stop_eq]
  unfold Machine.enterLoop at hrun
  rw [h.kind_eq] at hrun
  split at hrun
  · cases hrun
  · rename_i hdepth
    split at hrun
    · rename_i count exit hfound
      cases hrun
      refine ⟨?_, hstop, ?_, h.nested.enter hread hcommand hfound⟩
      · rw [← h.kind_eq]
        dsimp only
        split <;> rfl
      · rw [List.length_cons]
        omega
    · rename_i hmissing
      cases hrun
      refine ⟨h.kind_eq, hstop, h.depth_le, ?_⟩
      rw [h.nested.not_missing hread hcommand hmissing]
      exact .outside c
    · cases hrun

theorem LoopsKept.endLoop (h : LoopsKept kind stop m)
    (hread : Command.read kind m.cursor = .ok (i, c)) {n : UInt8}
    (hcommand : i.command = .loopEnd n) : LoopsKept kind stop (endLoop m.player m.loops c) := by
  obtain ⟨cursor, loops, player⟩ := m
  cases loops with
  | nil =>
    refine ⟨h.kind_eq, ?_, h.depth_le, .outside c⟩
    rw [← h.stop_eq]
    exact (Command.bounds_of_read hread).2.2
  | cons frame outer =>
    have hframe := h.nested.surrounds
    unfold Machine.endLoop
    dsimp only
    split
    · -- The next pass starts where the first one did.
      refine ⟨h.kind_eq, ?_, h.depth_le, h.nested.move ?_⟩
      · rw [← h.stop_eq]
        exact hframe.stop_body
      · exact ⟨by dsimp only; omega, Nat.le_refl _, hframe.exit_of_body, hframe.exit_of_body⟩
    · rw [hframe.eq_exit hread hcommand]
      exact h.leave

theorem LoopsKept.breakLoop (h : LoopsKept kind stop m)
    (hread : Command.read kind m.cursor = .ok (i, c)) (hcommand : i.command = .loopBreak) :
    LoopsKept kind stop (breakLoop m.player m.loops c) := by
  have hadvance : ∀ player : Player, player.kind = kind → LoopsKept kind stop ⟨c, m.loops, player⟩ :=
    fun player => h.advance hread (by simp [hcommand]) (by simp [hcommand])
  obtain ⟨cursor, loops, player⟩ := m
  cases loops with
  | nil => exact hadvance _ h.kind_eq
  | cons frame outer =>
    unfold Machine.breakLoop
    dsimp only
    split
    · exact h.leave
    · exact hadvance player h.kind_eq

theorem LoopsKept.step (h : LoopsKept kind stop m) (hrun : m.step defined = .running next) :
    LoopsKept kind stop next := by
  have hkind := h.kind_eq
  subst hkind
  cases stepsTo_of_step hrun with
  | perform read steers eq =>
    rw [eq]
    refine h.advance read ?_ ?_ (Player.kind_perform _ _ _)
    · intro n hcommand
      rw [hcommand] at steers
      cases steers
    · intro hcommand
      rw [hcommand] at steers
      cases steers
  | enter read command eq => exact h.enterLoop read command eq
  | endLoop read command eq =>
    rw [eq]
    exact h.endLoop read command
  | breakLoop read command eq =>
    rw [eq]
    exact h.breakLoop read command

end Step

/-! ## Whole runs -/

/-- The loops of a machine whose part ends at `stop`: not too many, one inside the other, and the
cursor in the innermost. The end of that one is where it was found when the loop was entered. -/
structure WellNested (stop : Nat) (m : Machine) : Prop where
  depth_le : m.loops.length ≤ maxLoopDepth
  bounds : ∀ f ∈ m.loops, 1 ≤ f.remaining ∧ f.body.offset < f.exit.offset ∧ f.exit.offset ≤ stop
  pairwise : m.loops.Pairwise fun inner outer =>
    outer.body.offset < inner.body.offset ∧ inner.exit.offset < outer.exit.offset
  cursor_mem : ∀ f ∈ m.loops.head?,
    f.body.offset ≤ m.cursor.offset ∧ m.cursor.offset < f.exit.offset
  exit_eq : ∀ i c n, Command.read m.player.kind m.cursor = .ok (i, c) →
    i.command = .loopEnd n → ∀ f ∈ m.loops.head?, c = f.exit

theorem LoopsKept.wellNested (h : LoopsKept kind stop m) : m.WellNested stop := by
  obtain ⟨cursor, loops, player⟩ := m
  obtain ⟨hkind, hstop, hdepth, hnested⟩ := h
  dsimp only at *
  refine ⟨hdepth, ?_, hnested.pairwise, ?_, ?_⟩
  · intro f hf
    rw [← hstop]
    exact ⟨hnested.remaining_pos f hf, hnested.body_lt_exit f hf, (hnested.exit_bounds f hf).2⟩
  · intro f hf
    cases hnested with
    | outside => cases hf
    | inside surrounds _ _ =>
      cases hf
      exact ⟨surrounds.body_le, surrounds.lt_exit⟩
  · intro i c n hread hcommand f hf
    rw [hkind] at hread
    cases hnested with
    | outside => cases hf
    | inside surrounds _ _ =>
      cases hf
      exact surrounds.eq_exit hread hcommand

theorem LoopsKept.loops_eq_nil (h : LoopsKept kind stop m) (hend : m.PartEnds) : m.loops = [] := by
  obtain ⟨hkind, -, -, hnested⟩ := h
  rcases hend with hend | ⟨i, c, hread, hcommand⟩
  · unfold Cursor.atEnd at hend
    rw [decide_eq_true_iff] at hend
    cases hloops : m.loops with
    | nil => rfl
    | cons frame outer =>
      rw [hloops] at hnested
      have := hnested.surrounds.lt_exit
      have := hnested.surrounds.exit_le
      omega
  · rw [hkind] at hread
    exact hnested.not_trackEnd hread hcommand

/-! ## Warnings -/

theorem warnsOnce_of_meets {p later : Player} (h : Meets defined p later) :
    Player.WarnsOnce p later := by
  cases h with
  | perform command => exact Player.warnsOnce_perform defined p command
  | silent => exact .silent rfl
  | unsupported feature hfeature => exact .unsupported feature hfeature rfl

/-- Nothing is said of a part that ends inside a loop. -/
def SaysNoOpenLoop (ws : Warnings) : Prop :=
  ∀ source, Warning.unsupported source .partEndInLoop ∉ ws.items

theorem SaysNoOpenLoop.warnsOnce {p later : Player} (h : SaysNoOpenLoop p.warnings)
    (hwarns : Player.WarnsOnce p later) : SaysNoOpenLoop later.warnings := by
  intro source
  cases hwarns with
  | silent heq =>
    rw [heq]
    exact h source
  | unsupported feature hfeature heq =>
    rw [heq, Warnings.mem_push]
    rintro (hmem | hlast)
    · exact h source hmem
    · cases hlast
      exact hfeature rfl
  | overflow loss heq =>
    rw [heq, Warnings.mem_push]
    rintro (hmem | hlast)
    · exact h source hmem
    · cases hlast

theorem saysNoOpenLoop_of_ends {part : Part} {c : Cursor} {limit : Nat} {final : Machine}
    (h : Ends defined limit (start part c) final) : SaysNoOpenLoop final.player.warnings := by
  obtain ⟨n, last, -, hlast, -, -, hplayer⟩ := h.after?
  have hstart : SaysNoOpenLoop (start part c).player.warnings := fun source => Array.not_mem_empty _
  rw [hplayer]
  exact after?_keeps (P := fun _ m => SaysNoOpenLoop m.player.warnings) (k := 0) hlast hstart
    fun hmid hrun => hmid.warnsOnce (warnsOnce_of_meets (meets_of_step hrun))

theorem warnsOnce_finish (h : m.loops = []) : Player.WarnsOnce m.player m.finish := by
  unfold finish
  rw [h, List.isEmpty_nil, if_pos rfl]
  dsimp only
  split_ifs
  · exact .unsupported .adpcmPart (by simp) rfl
  · exact .silent rfl

end Machine

open Machine

/-- In every machine between two instructions of a part the loops are nested, and they have all been
left when the part ends. So nothing is ever said of a part that ends inside a loop. -/
theorem play_wellNested (part : Part) (defined : UInt8 → Bool) (data : List UInt8)
    (start stop : Nat) :
    (∀ n m, (Machine.start part (.ofRange data start stop)).after? defined n = some m →
      m.WellNested (min stop data.length)) ∧
    (∀ limit final, Ends defined limit (.start part (.ofRange data start stop)) final →
      final.loops = []) ∧
    ∀ t ws, play part defined (.ofRange data start stop) = (.ok t, ws) →
      ∀ source, Warning.unsupported source .partEndInLoop ∉ ws.items := by
  have hkept : ∀ n m, (Machine.start part (.ofRange data start stop)).after? defined n = some m →
      LoopsKept part.kind (min stop data.length) m := by
    intro n m hm
    have hstart := loopsKept_start part (.ofRange data start stop)
    exact after?_keeps (P := fun _ => LoopsKept part.kind _) (k := 0) hm hstart LoopsKept.step
  have hended : ∀ limit final, Ends defined limit (.start part (.ofRange data start stop)) final →
      final.loops = [] := by
    intro limit final hends
    obtain ⟨n, last, -, hlast, hend, hloops, -⟩ := hends.after?
    rw [hloops]
    exact (hkept n last hlast).loops_eq_nil hend
  refine ⟨fun n m hm => (hkept n m hm).wellNested, hended, ?_⟩
  intro t ws hplay
  obtain ⟨final, hends⟩ := ends_of_play hplay
  rw [play_of_ends hends] at hplay
  cases hplay
  exact (saysNoOpenLoop_of_ends hends).warnsOnce (warnsOnce_finish (hended _ _ hends))

/-- A loop end and a break outside all loops, a loop in a loop with a break in it, and a loop without
an end. -/
def strayLoops : List UInt8 :=
  [0xF8, 2, 0, 0, 0, 0xF7, 0, 0] ++
  [0xF9, 0, 0, 0xF9, 0, 0, 0x40, 24, 0xF7, 0, 0, 0x42, 12, 0xF8, 2, 0, 0, 0, 0xF8, 3, 0, 0, 0] ++
  [0xF9, 0, 0, 0x80]

theorem play_wellNested_strayLoops :
    (∃ m, (Machine.start ⟨0⟩ (.ofRange strayLoops 0 40)).after? (fun _ => false) 5 = some m ∧
      m.loops.length = 2 ∧ m.WellNested 35) ∧
    (∃ final, Ends (fun _ => false) maxInstructions (.start ⟨0⟩ (.ofRange strayLoops 0 40)) final ∧
      final.loops = []) ∧
    ∃ t ws, play ⟨0⟩ (fun _ => false) (.ofRange strayLoops 0 40) = (.ok t, ws) ∧
      ∀ source, Warning.unsupported source .partEndInLoop ∉ ws.items := by
  have hloops : ((Machine.start ⟨0⟩ (.ofRange strayLoops 0 40)).after? (fun _ => false) 5).map
      (·.loops.length) = some 2 := by
    decide +kernel
  have hplays : (play ⟨0⟩ (fun _ => false) (.ofRange strayLoops 0 40)).1.toOption.isSome := by
    decide +kernel
  obtain ⟨m, hm, hlength⟩ := Option.map_eq_some_iff.mp hloops
  obtain ⟨hnested, hleft, hsays⟩ := play_wellNested ⟨0⟩ (fun _ => false) strayLoops 0 40
  refine ⟨⟨m, hm, hlength, hnested 5 m hm⟩, ?_⟩
  match h : play ⟨0⟩ (fun _ => false) (.ofRange strayLoops 0 40) with
  | (.ok t, ws) =>
    obtain ⟨final, hends⟩ := ends_of_play h
    exact ⟨⟨final, hends, hleft _ final hends⟩, t, ws, rfl, hsays t ws h⟩
  | (.error e, ws) =>
    rw [h] at hplays
    cases hplays

end ChipScore
