import ChipScore.Player.Machine
import ChipScore.Proofs.LoopProgram
import ChipScore.Proofs.Performing

/-!
# Loops play like their unrolled instructions

The machine finds the ends of loops by reading ahead and jumps with a stack of frames. A part whose
loops are well nested sounds exactly like the part in which every loop is written out.
-/

namespace ChipScore

/-! ## Finding the end of a loop -/

section FindLoopEnd

/-- How the search for the end goes on from `next`, after a command. -/
def findLoopEndAfter (kind : PartKind) (next : Cursor) : Command → Nat → LoopEnd
  | .loopEnd count, 0 => .found count next
  | .loopEnd _, depth + 1 => findLoopEnd kind depth next
  | .loopStart, depth => findLoopEnd kind (depth + 1) next
  | .trackEnd, _ => .missing
  | _, depth => findLoopEnd kind depth next

variable {kind : PartKind}

theorem findLoopEndAfter_of_not_steers {command : Command} (h : command.steers = false)
    (depth : Nat) (next : Cursor) :
    findLoopEndAfter kind next command depth = findLoopEnd kind depth next := by
  cases command <;> first | exact Bool.noConfusion h | rfl

theorem findLoopEnd_of_read {c next : Cursor} {i : Instruction} (depth : Nat)
    (h : Command.read kind c = .ok (i, next)) :
    findLoopEnd kind depth c = findLoopEndAfter kind next i.command depth := by
  have hend : c.atEnd = false := by
    rw [Bool.eq_false_iff, ne_eq, Cursor.atEnd_iff, ← List.length_eq_zero_iff]
    have := Command.length_rest_of_read h
    omega
  rw [findLoopEnd, if_neg (by simp [hend])]
  split
  · simp_all
  · rename_i j next hread
    rw [h] at hread
    cases hread
    rfl

theorem findLoopEnd_encodedBy {command : Command} {bytes rest : List UInt8} {c : Cursor}
    (depth : Nat) (h : Command.EncodedBy kind command bytes) (hc : c.rest = bytes ++ rest) :
    findLoopEnd kind depth c = findLoopEndAfter kind (c.skip bytes.length) command depth := by
  obtain ⟨i, rfl, hread⟩ := h.read_eq hc
  exact findLoopEnd_of_read depth hread

theorem findLoopEnd_encode {inLoop : Bool} (p : LoopProgram kind inLoop) (depth : Nat) (c : Cursor)
    (rest : List UInt8) (h : c.rest = p.encode ++ rest) :
    findLoopEnd kind depth c = findLoopEnd kind depth (c.skip p.encode.length) := by
  induction p generalizing depth c rest with
  | done => rfl
  | play i next ih =>
    rw [LoopProgram.encode, List.append_assoc] at h
    rw [LoopProgram.encode, List.length_append, ← Cursor.skip_skip,
      ← ih depth _ rest (Cursor.rest_skip_append h),
      findLoopEnd_encodedBy depth i.encodedBy_bytes h,
      findLoopEndAfter_of_not_steers i.steers_command]
  | loop start body count count_pos stop next ihBody ihNext =>
    simp only [LoopProgram.encode, LoopProgram.encodeLoop, List.append_assoc] at h
    have hbody := Cursor.rest_skip_append h
    have hend := Cursor.rest_skip_append hbody
    have hnext := Cursor.rest_skip_append hend
    calc findLoopEnd kind depth c
      _ = findLoopEnd kind (depth + 1) (c.skip (LoopProgram.encodeStart start).length) :=
        findLoopEnd_encodedBy depth (LoopProgram.encodedBy_start start) h
      _ = findLoopEnd kind (depth + 1) _ := ihBody (depth + 1) _ _ hbody
      _ = findLoopEnd kind depth _ :=
        findLoopEnd_encodedBy (depth + 1) (LoopProgram.encodedBy_end count stop) hend
      _ = findLoopEnd kind depth _ := ihNext depth _ rest hnext
      _ = _ := by simp [LoopProgram.encode, LoopProgram.encodeLoop, Nat.add_assoc]
  | leave pointer next ih =>
    rw [LoopProgram.encode, List.append_assoc] at h
    rw [LoopProgram.encode, List.length_append, ← Cursor.skip_skip,
      ← ih depth _ rest (Cursor.rest_skip_append h)]
    exact findLoopEnd_encodedBy depth (LoopProgram.encodedBy_leave pointer) h

end FindLoopEnd

/-! ## Runs that come to an end -/

namespace Machine

variable {defined : UInt8 → Bool} {limit : Nat} {final : Machine} {c : Cursor} {loops : List Frame}
  {player : Player} {command : Command} {bytes rest : List UInt8}

/-- The machine plays its part to the end within so many instructions. -/
def Ends (defined : UInt8 → Bool) (limit : Nat) (m final : Machine) : Prop :=
  m.runFor defined limit = .ended final

theorem step_encodedBy (h : Command.EncodedBy player.kind command bytes)
    (hc : c.rest = bytes ++ rest) :
    step defined ⟨c, loops, player⟩ =
      execute defined player loops c.offset (c.skip bytes.length) command := by
  obtain ⟨i, rfl, hread⟩ := h.read_eq hc
  simp only [step, hread]

theorem Ends.execute (h : Ends defined limit ⟨c, loops, player⟩ final)
    (henc : Command.EncodedBy player.kind command bytes) (hc : c.rest = bytes ++ rest) :
    ∃ l, limit = l + 1 ∧
      ((∃ m, Machine.execute defined player loops c.offset (c.skip bytes.length) command =
          .running m ∧ Ends defined l m final) ∨
        Machine.execute defined player loops c.offset (c.skip bytes.length) command =
          .ended final) := by
  have hend := henc.atEnd_eq_false hc
  cases limit with
  | zero => simp [Ends, runFor, hend] at h
  | succ l =>
    refine ⟨l, rfl, ?_⟩
    simp only [Ends, runFor, hend, step_encodedBy henc hc, Bool.false_eq_true, if_false] at h
    split at h
    · exact .inl ⟨_, ‹_›, h⟩
    · exact .inr h

theorem Ends.running {m : Machine} (h : Ends defined limit ⟨c, loops, player⟩ final)
    (henc : Command.EncodedBy player.kind command bytes) (hc : c.rest = bytes ++ rest)
    (hm : Machine.execute defined player loops c.offset (c.skip bytes.length) command =
      .running m) :
    ∃ l, limit = l + 1 ∧ Ends defined l m final := by
  obtain ⟨l, rfl, ⟨m', hm', hl⟩ | hended⟩ := h.execute henc hc
  · cases hm.symm.trans hm'
    exact ⟨l, rfl, hl⟩
  · cases hm.symm.trans hended

/-! ## What the steering commands do -/

theorem endLoop_of_lt (player : Player) (frame : Frame) (outer : List Frame) (next : Cursor)
    (h : 1 < frame.remaining) : endLoop player (frame :: outer) next =
      ⟨frame.body, { frame with remaining := frame.remaining - 1 } :: outer, player⟩ :=
  if_pos h

theorem endLoop_of_le (player : Player) (frame : Frame) (outer : List Frame) (next : Cursor)
    (h : frame.remaining ≤ 1) :
    endLoop player (frame :: outer) next = ⟨next, outer, player⟩ :=
  if_neg (by omega)

theorem breakLoop_of_lt (player : Player) (frame : Frame) (outer : List Frame) (next : Cursor)
    (h : 1 < frame.remaining) :
    breakLoop player (frame :: outer) next = ⟨next, frame :: outer, player⟩ :=
  if_neg (by omega)

theorem breakLoop_of_le (player : Player) (frame : Frame) (outer : List Frame) (next : Cursor)
    (h : frame.remaining ≤ 1) :
    breakLoop player (frame :: outer) next = ⟨frame.exit, outer, player⟩ :=
  if_pos h

theorem enterLoop_of_found {offset : Nat} {body exit : Cursor} {count : UInt8} {m : Machine}
    (hpos : 0 < count) (hfound : findLoopEnd player.kind 0 body = .found count exit)
    (h : enterLoop player loops offset body = .running m) :
    m = ⟨body, ⟨body, exit, count.toNat⟩ :: loops, player⟩ := by
  have hcount : 0 < count.toNat := UInt8.lt_iff_toNat_lt.1 hpos
  have hne : count ≠ 0 := by
    rintro rfl
    simp at hcount
  rw [enterLoop, hfound] at h
  split_ifs at h
  simp only [if_neg hne, Nat.max_eq_left hcount, Outcome.running.injEq] at h
  exact h.symm

theorem enterLoop_ne_ended {offset : Nat} {body exit : Cursor} {count : UInt8}
    (hfound : findLoopEnd player.kind 0 body = .found count exit) (final : Machine) :
    enterLoop player loops offset body ≠ .ended final := by
  unfold enterLoop
  rw [hfound]
  split <;> exact Outcome.noConfusion

theorem execute_of_not_steers (h : command.steers = false) (player : Player)
    (loops : List Frame) (offset : Nat) (next : Cursor) :
    execute defined player loops offset next command =
      .running ⟨next, loops, player.perform defined command⟩ := by
  cases command <;> first | exact Bool.noConfusion h | rfl

/-- The run comes by a cursor, in some loops, with all of the commands performed. What it has left
leaves room for them. -/
def EndsBy (defined : UInt8 → Bool) (limit : Nat) (c : Cursor) (loops : List Frame)
    (player : Player) (commands : List Command) (final : Machine) : Prop :=
  ∃ l, l + commands.length ≤ limit ∧
    Ends defined l ⟨c, loops, player.performAll defined commands⟩ final

theorem EndsBy.nil {l : Nat} (hl : l ≤ limit)
    (h : Ends defined l ⟨c, loops, player⟩ final) : EndsBy defined limit c loops player [] final :=
  ⟨l, by simpa using hl, h⟩

theorem EndsBy.trans {c' : Cursor} {loops' : List Frame} {first second : List Command}
    (h : EndsBy defined limit c loops player first final)
    (hnext : ∀ l, Ends defined l ⟨c, loops, player.performAll defined first⟩ final →
      EndsBy defined l c' loops' (player.performAll defined first) second final) :
    EndsBy defined limit c' loops' player (first ++ second) final := by
  obtain ⟨l, hle, hl⟩ := h
  obtain ⟨l', hle', hl'⟩ := hnext l hl
  refine ⟨l', ?_, ?_⟩
  · rw [List.length_append]
    omega
  · rwa [Player.performAll_append]

theorem EndsBy.mono {commands : List Command} {less : Nat}
    (h : EndsBy defined less c loops player commands final) (hle : less ≤ limit) :
    EndsBy defined limit c loops player commands final := by
  obtain ⟨l, hless, hl⟩ := h
  exact ⟨l, by omega, hl⟩

theorem EndsBy.plain {kind : PartKind} {i : PlainInstruction kind} (hkind : player.kind = kind)
    (hc : c.rest = i.bytes ++ rest) (h : Ends defined limit ⟨c, loops, player⟩ final) :
    EndsBy defined limit (c.skip i.bytes.length) loops player [i.command] final := by
  subst hkind
  obtain ⟨l, rfl, hl⟩ := h.running i.encodedBy_bytes hc
    (execute_of_not_steers i.steers_command _ _ _ _)
  exact ⟨l, Nat.le_refl _, hl⟩

/-! ## Passes -/

variable {kind : PartKind} {inLoop : Bool}

/-- A break is passed over unless the loop is on its last pass. -/
def MindsNoBreak : Bool → List Frame → Prop
  | false, _ => True
  | true, [] => False
  | true, frame :: _ => 1 < frame.remaining

/-- A pass that does not mind breaks comes out behind the program, in the same loops. -/
def PassesOver (defined : UInt8 → Bool) (p : LoopProgram kind inLoop) : Prop :=
  ∀ {limit : Nat} {c : Cursor} {loops : List Frame} {player : Player} {rest : List UInt8}
    {final : Machine}, player.kind = kind → c.rest = p.encode ++ rest → MindsNoBreak inLoop loops →
    Ends defined limit ⟨c, loops, player⟩ final →
    EndsBy defined limit (c.skip p.encode.length) loops player (p.commands false) final

/-- The last pass of a loop comes out behind its end, by the end or by a break. -/
def LeavesLoop (defined : UInt8 → Bool) (p : LoopProgram kind inLoop) : Prop :=
  ∀ {limit : Nat} {c : Cursor} {frame : Frame} {outer : List Frame} {player : Player}
    {count : UInt8} {stop : UInt8 × UInt8 × UInt8} {rest : List UInt8} {final : Machine},
    player.kind = kind → c.rest = p.encode ++ (LoopProgram.encodeEnd count stop ++ rest) →
    frame.remaining ≤ 1 →
    frame.exit = c.skip (p.encode.length + (LoopProgram.encodeEnd count stop).length) →
    Ends defined limit ⟨c, frame :: outer, player⟩ final →
    EndsBy defined limit frame.exit outer player (p.commands true) final

theorem endsBy_passes {body : LoopProgram kind true} (hover : PassesOver defined body)
    (hleave : LeavesLoop defined body) {count : UInt8} {stop : UInt8 × UInt8 × UInt8} (more : Nat)
    (hkind : player.kind = kind)
    (hc : c.rest = body.encode ++ (LoopProgram.encodeEnd count stop ++ rest))
    (h : Ends defined limit
      ⟨c, ⟨c, c.skip (body.encode.length + (LoopProgram.encodeEnd count stop).length), more + 1⟩ ::
        loops, player⟩ final) :
    EndsBy defined limit
      (c.skip (body.encode.length + (LoopProgram.encodeEnd count stop).length)) loops player
      ((List.replicate more (body.commands false)).flatten ++ body.commands true) final := by
  induction more generalizing limit player with
  | zero => exact hleave hkind hc (Nat.le_refl 1) rfl h
  | succ more ih =>
    rw [List.replicate_succ, List.flatten_cons, List.append_assoc]
    refine (hover hkind hc (by simp [MindsNoBreak]) h).trans fun l hl => ?_
    have hend := Cursor.rest_skip_append hc
    have hkind' : (player.performAll defined (body.commands false)).kind = kind := by
      rw [Player.kind_performAll, hkind]
    -- One pass is done, and the end of the loop goes back to the start of its body.
    obtain ⟨l', rfl, hl'⟩ := hl.running (LoopProgram.encodedBy_end count stop) hend
      (congrArg Outcome.running (endLoop_of_lt _ _ _ _ (Nat.lt_add_of_pos_left more.succ_pos)))
    exact (ih hkind' hl').mono (Nat.le_succ l')

theorem endsBy_loop {body : LoopProgram kind true} (hover : PassesOver defined body)
    (hleave : LeavesLoop defined body) {start : UInt8 × UInt8} {count : UInt8}
    {stop : UInt8 × UInt8 × UInt8} (hpos : 0 < count) (hkind : player.kind = kind)
    (hc : c.rest = LoopProgram.encodeLoop start body.encode count stop ++ rest)
    (h : Ends defined limit ⟨c, loops, player⟩ final) :
    EndsBy defined limit (c.skip (LoopProgram.encodeLoop start body.encode count stop).length) loops
      player (body.loopCommands count.toNat) final := by
  simp only [LoopProgram.encodeLoop, List.append_assoc] at hc
  have hbody := Cursor.rest_skip_append hc
  have hend := Cursor.rest_skip_append hbody
  have hfound : findLoopEnd player.kind 0 (c.skip (LoopProgram.encodeStart start).length) =
      .found count ((c.skip (LoopProgram.encodeStart start).length).skip
        (body.encode.length + (LoopProgram.encodeEnd count stop).length)) := by
    rw [hkind, findLoopEnd_encode body 0 _ _ hbody,
      findLoopEnd_encodedBy 0 (LoopProgram.encodedBy_end count stop) hend, ← Cursor.skip_skip]
    rfl
  obtain ⟨l, rfl, ⟨m, hm, hl⟩ | hended⟩ := h.execute (LoopProgram.encodedBy_start start) hc
  · cases enterLoop_of_found hpos hfound hm
    have hcount : count.toNat = count.toNat - 1 + 1 := by
      have : 0 < count.toNat := UInt8.lt_iff_toNat_lt.1 hpos
      omega
    rw [hcount] at hl
    rw [LoopProgram.encodeLoop, List.length_append, List.length_append, ← Cursor.skip_skip]
    exact (endsBy_passes hover hleave _ hkind hbody hl).mono (Nat.le_succ l)
  · exact absurd hended (enterLoop_ne_ended hfound final)

/-- Both kinds of passes, by recursion on the program: a loop needs both for its body. -/
theorem passesOver_and_leavesLoop (defined : UInt8 → Bool) (p : LoopProgram kind inLoop) :
    PassesOver defined p ∧ LeavesLoop defined p := by
  induction p with
  | done =>
    refine ⟨fun _ _ _ h => .nil (Nat.le_refl _) h, ?_⟩
    intro limit c frame outer player count stop rest final hkind hc hlast hexit h
    obtain ⟨l, rfl, hl⟩ := h.running (LoopProgram.encodedBy_end count stop) hc
      (congrArg Outcome.running (endLoop_of_le _ _ _ _ hlast))
    rw [hexit]
    exact .nil (Nat.le_succ l) (by simpa [LoopProgram.encode] using hl)
  | play i next ih =>
    refine ⟨?_, ?_⟩
    · intro limit c loops player rest final hkind hc hbreak h
      rw [LoopProgram.encode, List.append_assoc] at hc
      rw [LoopProgram.encode, List.length_append, ← Cursor.skip_skip]
      exact (EndsBy.plain hkind hc h).trans fun l hl =>
        ih.1 (by simpa using hkind) (Cursor.rest_skip_append hc) hbreak hl
    · intro limit c frame outer player count stop rest final hkind hc hlast hexit h
      rw [LoopProgram.encode, List.append_assoc] at hc
      refine (EndsBy.plain hkind hc h).trans fun l hl =>
        ih.2 (by simpa using hkind) (Cursor.rest_skip_append hc) hlast ?_ hl
      rw [hexit, LoopProgram.encode, List.length_append, Cursor.skip_skip, Nat.add_assoc]
  | loop start body count hpos stop next ihBody ihNext =>
    refine ⟨?_, ?_⟩
    · intro limit c loops player rest final hkind hc hbreak h
      rw [LoopProgram.encode, List.append_assoc] at hc
      rw [LoopProgram.encode, List.length_append, ← Cursor.skip_skip, LoopProgram.commands_loop]
      exact (endsBy_loop ihBody.1 ihBody.2 hpos hkind hc h).trans fun l hl =>
        ihNext.1 (by simpa using hkind) (Cursor.rest_skip_append hc) hbreak hl
    · intro limit c frame outer player count' stop' rest final hkind hc hlast hexit h
      rw [LoopProgram.encode, List.append_assoc] at hc
      rw [LoopProgram.commands_loop]
      refine (endsBy_loop ihBody.1 ihBody.2 hpos hkind hc h).trans fun l hl =>
        ihNext.2 (by simpa using hkind) (Cursor.rest_skip_append hc) hlast ?_ hl
      rw [hexit, LoopProgram.encode, List.length_append, Cursor.skip_skip, Nat.add_assoc]
  | leave pointer next ih =>
    refine ⟨?_, ?_⟩
    · intro limit c loops player rest final hkind hc hbreak h
      rw [LoopProgram.encode, List.append_assoc] at hc
      rw [LoopProgram.encode, List.length_append, ← Cursor.skip_skip]
      cases loops with
      | nil => cases hbreak
      | cons frame outer =>
        obtain ⟨l, rfl, hl⟩ := h.running (LoopProgram.encodedBy_leave pointer) hc
          (congrArg Outcome.running (breakLoop_of_lt _ _ _ _ hbreak))
        exact (ih.1 hkind (Cursor.rest_skip_append hc) hbreak hl).mono (Nat.le_succ l)
    · intro limit c frame outer player count stop rest final hkind hc hlast hexit h
      rw [LoopProgram.encode, List.append_assoc] at hc
      obtain ⟨l, rfl, hl⟩ := h.running (LoopProgram.encodedBy_leave pointer) hc
        (congrArg Outcome.running (breakLoop_of_le _ _ _ _ hlast))
      exact .nil (Nat.le_succ l) hl

/-! ## Whole parts -/

theorem ends_trackEnd (hc : c.rest = 0x80 :: rest) (limit : Nat) :
    Ends defined (limit + 1) ⟨c, loops, player⟩ ⟨c.skip 1, loops, player⟩ := by
  have henc : Command.EncodedBy player.kind .trackEnd [0x80] := LoopProgram.encodedBy_trackEnd
  rw [Ends, runFor, if_neg (by simp [henc.atEnd_eq_false hc]), step_encodedBy henc hc]
  rfl

theorem ends_encodeAll (defined : UInt8 → Bool) (is : List (PlainInstruction kind)) (spare : Nat)
    (hkind : player.kind = kind)
    (hc : c.rest = PlainInstruction.encodeAll is ++ 0x80 :: rest) :
    ∃ next, Ends defined (spare + is.length + 1) ⟨c, [], player⟩
      ⟨next, [], player.performAll defined (is.map PlainInstruction.command)⟩ := by
  induction is generalizing c player with
  | nil => exact ⟨_, ends_trackEnd hc spare⟩
  | cons i is ih =>
    rw [PlainInstruction.encodeAll, List.flatMap_cons, List.append_assoc] at hc
    have hkind' : (player.perform defined i.command).kind = kind := by
      rw [Player.kind_perform, hkind]
    obtain ⟨next, hnext⟩ := ih hkind' (Cursor.rest_skip_append hc)
    refine ⟨next, ?_⟩
    subst hkind
    rw [Ends, List.length_cons, ← Nat.add_assoc, runFor,
      if_neg (by simp [i.encodedBy_bytes.atEnd_eq_false hc]),
      step_encodedBy i.encodedBy_bytes hc, execute_of_not_steers i.steers_command]
    exact hnext

theorem runFor_ne_running (defined : UInt8 → Bool) (limit : Nat) (m next : Machine) :
    m.runFor defined limit ≠ .running next := by
  induction limit generalizing m with
  | zero =>
    rw [runFor]
    split_ifs <;> simp
  | succ limit ih =>
    rw [runFor]
    split_ifs
    · simp
    · split
      · exact ih _
      · rename_i hother
        exact hother next

end Machine

open Machine

theorem play_of_ends {part : Part} {defined : UInt8 → Bool} {c : Cursor} {m : Machine}
    (h : Ends defined maxInstructions (.start part c) m) :
    play part defined c =
      (.ok ⟨m.finish.events.toList, m.finish.state⟩, m.finish.warnings) := by
  rw [Ends] at h
  simp only [play, h]

theorem ends_of_play {part : Part} {defined : UInt8 → Bool} {c : Cursor} {t : Timeline}
    {ws : Warnings} (h : play part defined c = (.ok t, ws)) :
    ∃ m, Ends defined maxInstructions (.start part c) m := by
  unfold play at h
  split at h
  · simp at h
  · rename_i m hm
    exact absurd hm (runFor_ne_running _ _ _ _)
  · rename_i m hm
    exact ⟨m, hm⟩

theorem exists_play_of_map {α : Type} {part : Part} {defined : UInt8 → Bool} {c : Cursor}
    {f : Timeline → α} {a : α} (h : (play part defined c).1.toOption.map f = some a) :
    ∃ t ws, play part defined c = (.ok t, ws) ∧ f t = a := by
  match hplay : play part defined c with
  | (.error e, ws) =>
    rw [hplay] at h
    cases h
  | (.ok t, ws) =>
    rw [hplay] at h
    exact ⟨t, ws, rfl, Option.some.inj h⟩

/-- A part that can be played sounds the same with all its loops played out, wherever the bytes of
either stand and whatever follows them. -/
theorem play_unrolled (part : Part) (defined : UInt8 → Bool) (p : LoopProgram part.kind false)
    {c flat : Cursor} {rest flatRest : List UInt8} (hc : c.rest = p.encode ++ 0x80 :: rest)
    (hflat : flat.rest = PlainInstruction.encodeAll p.unrolled ++ 0x80 :: flatRest)
    {t : Timeline} {ws : Warnings} (h : play part defined c = (.ok t, ws)) :
    play part defined flat = (.ok t, ws) := by
  obtain ⟨m, hm⟩ := ends_of_play h
  -- The run with loops comes by the end mark with the unrolled commands performed.
  obtain ⟨limit, hlimit, hl⟩ := (passesOver_and_leavesLoop defined p).1 rfl hc trivial hm
  have hend := Cursor.rest_skip_append hc
  obtain ⟨limit, rfl, ⟨next, hnext, -⟩ | hended⟩ := hl.execute LoopProgram.encodedBy_trackEnd hend
  · cases hnext
  · cases hended
    rw [LoopProgram.commands, List.length_map] at hlimit
    -- The unrolled commands and their end mark fit in the limit too, since they are not more.
    obtain ⟨spare, hspare⟩ : ∃ spare, maxInstructions = spare + p.unrolled.length + 1 :=
      ⟨maxInstructions - (p.unrolled.length + 1), by rw [LoopProgram.unrolled]; omega⟩
    obtain ⟨flatEnd, hflatEnd⟩ := ends_encodeAll defined p.unrolled spare
      (show (Player.start part).kind = part.kind from rfl) hflat
    rw [← hspare] at hflatEnd
    rw [← h, play_of_ends hm, play_of_ends hflatEnd]
    rfl

/-- Three passes over two notes, the inner loop with two passes of its own. The last outer pass ends
at the break between the notes. -/
def LoopProgram.nestedNotes : LoopProgram .fm false :=
  .loop (1, 2)
    (.loop (3, 4)
      (.play ⟨0x40, [24], .note 4 0 24, rfl, by decide, by decide, by decide, by decide⟩ .done)
      2 (by decide) (5, 6, 7)
      (.leave (8, 9)
        (.play ⟨0x42, [12], .note 4 2 12, rfl, by decide, by decide, by decide, by decide⟩ .done)))
    3 (by decide) (10, 11, 12) .done

theorem play_unrolled_nestedNotes :
    ∃ t ws,
      play ⟨0⟩ (fun _ => false) (.ofList (LoopProgram.nestedNotes.encode ++ [0x80])) =
        (.ok t, ws) ∧
      play ⟨0⟩ (fun _ => false)
        (.ofList (PlainInstruction.encodeAll LoopProgram.nestedNotes.unrolled ++ [0x80])) =
          (.ok t, ws) ∧
      t.noteCount = 8 := by
  have hnotes : (play ⟨0⟩ (fun _ => false)
      (.ofList (LoopProgram.nestedNotes.encode ++ [0x80]))).1.toOption.map Timeline.noteCount =
        some 8 := by
    decide +kernel
  match h : play ⟨0⟩ (fun _ => false) (.ofList (LoopProgram.nestedNotes.encode ++ [0x80])) with
  | (.ok t, ws) =>
    rw [h] at hnotes
    exact ⟨t, ws, rfl, play_unrolled ⟨0⟩ _ LoopProgram.nestedNotes rfl rfl h,
      Option.some.inj hnotes⟩
  | (.error e, ws) => simp [h, Except.toOption] at hnotes

end ChipScore
