import ChipScore.Proofs.LoopUnrolling

/-!
# Machines between two instructions

A part is played one instruction after the other. What holds of the machine at its start and is kept
by every step holds of every machine that comes up on the way, and of the one in which the part ends.
-/

namespace ChipScore.Machine

variable {defined : UInt8 → Bool} {m next : Machine}

/-! ## Steps -/

/-- All that a step can do that does not end the run. -/
inductive StepsTo (defined : UInt8 → Bool) (m next : Machine) : Prop
  | perform {i : Instruction} {c : Cursor} (read : Command.read m.player.kind m.cursor = .ok (i, c))
    (steers : i.command.steers = false)
    (eq : next = ⟨c, m.loops, m.player.perform defined i.command⟩)
  | enter {i : Instruction} {c : Cursor} (read : Command.read m.player.kind m.cursor = .ok (i, c))
    (command : i.command = .loopStart)
    (eq : enterLoop m.player m.loops m.cursor.offset c = .running next)
  | endLoop {i : Instruction} {c : Cursor} {n : UInt8}
    (read : Command.read m.player.kind m.cursor = .ok (i, c)) (command : i.command = .loopEnd n)
    (eq : next = endLoop m.player m.loops c)
  | breakLoop {i : Instruction} {c : Cursor}
    (read : Command.read m.player.kind m.cursor = .ok (i, c)) (command : i.command = .loopBreak)
    (eq : next = breakLoop m.player m.loops c)

theorem stepsTo_of_step (h : m.step defined = .running next) : StepsTo defined m next := by
  unfold step at h
  dsimp only at h
  split at h
  · cases h
  · rename_i i c hread
    cases hcommand : i.command with
    | trackEnd =>
      rw [hcommand] at h
      cases h
    | loopStart =>
      rw [hcommand] at h
      exact .enter hread hcommand h
    | loopEnd n =>
      rw [hcommand] at h
      exact .endLoop hread hcommand (Outcome.running.inj h).symm
    | loopBreak =>
      rw [hcommand] at h
      exact .breakLoop hread hcommand (Outcome.running.inj h).symm
    | _ =>
      have hsteers : i.command.steers = false := by
        rw [hcommand]
        rfl
      rw [execute_of_not_steers hsteers] at h
      exact .perform hread hsteers (Outcome.running.inj h).symm

/-- A player meets a step as a command to perform or, from a command that steers, as a warning at
most. -/
inductive Meets (defined : UInt8 → Bool) (p : Player) : Player → Prop
  | perform (command : Command) : Meets defined p (p.perform defined command)
  | silent : Meets defined p p
  | unsupported (feature : Feature) (h : feature ≠ .partEndInLoop) :
    Meets defined p (p.unsupported feature)

/-- A command that steers leaves the player with a warning at most. -/
inductive Steers (p : Player) : Player → Prop
  | silent : Steers p p
  | unsupported (feature : Feature) (h : feature ≠ .partEndInLoop) : Steers p (p.unsupported feature)

theorem steers_enterLoop {player : Player} {loops : List Frame} {offset : Nat} {body : Cursor}
    (h : enterLoop player loops offset body = .running next) : Steers player next.player := by
  unfold enterLoop at h
  split at h
  · cases h
  · split at h
    · cases h
      dsimp only
      split
      · exact .unsupported .endlessLoop (by simp)
      · exact .silent
    · cases h
      exact .unsupported .loopWithoutEnd (by simp)
    · cases h

theorem steers_endLoop (player : Player) (loops : List Frame) (c : Cursor) :
    Steers player (endLoop player loops c).player := by
  rw [Machine.endLoop.eq_def]
  split
  · exact .unsupported .loopEndWithoutStart (by simp)
  · split
    · exact .silent
    · exact .silent

theorem steers_breakLoop (player : Player) (loops : List Frame) (c : Cursor) :
    Steers player (breakLoop player loops c).player := by
  rw [Machine.breakLoop.eq_def]
  split
  · exact .unsupported .breakOutsideLoop (by simp)
  · split
    · exact .silent
    · exact .silent

theorem Steers.meets {p later : Player} (h : Steers p later) : Meets defined p later := by
  cases h with
  | silent => exact .silent
  | unsupported feature h => exact .unsupported feature h

theorem performs_or_steers_of_step (h : m.step defined = .running next) :
    ∃ i c, Command.read m.player.kind m.cursor = .ok (i, c) ∧
      (i.command.steers = false ∧ next.player = m.player.perform defined i.command ∨
        i.command.steers = true ∧ Steers m.player next.player) := by
  cases stepsTo_of_step h with
  | perform read steers eq => exact ⟨_, _, read, .inl ⟨steers, by rw [eq]⟩⟩
  | enter read command eq => exact ⟨_, _, read, .inr ⟨by rw [command]; rfl, steers_enterLoop eq⟩⟩
  | endLoop read command eq =>
    rw [eq]
    exact ⟨_, _, read, .inr ⟨by rw [command]; rfl, steers_endLoop _ _ _⟩⟩
  | breakLoop read command eq =>
    rw [eq]
    exact ⟨_, _, read, .inr ⟨by rw [command]; rfl, steers_breakLoop _ _ _⟩⟩

theorem meets_of_step (h : m.step defined = .running next) :
    Meets defined m.player next.player := by
  obtain ⟨i, c, -, ⟨-, hplayer⟩ | ⟨-, hsteers⟩⟩ := performs_or_steers_of_step h
  · rw [hplayer]
    exact .perform _
  · exact hsteers.meets

theorem step_ended {final : Machine} (h : m.step defined = .ended final) :
    ∃ i c, Command.read m.player.kind m.cursor = .ok (i, c) ∧ i.command = .trackEnd ∧
      final = ⟨c, m.loops, m.player⟩ := by
  unfold step at h
  dsimp only at h
  split at h
  · cases h
  · rename_i i c hread
    refine ⟨i, c, hread, ?_⟩
    cases hcommand : i.command with
    | trackEnd =>
      rw [hcommand] at h
      cases h
      exact ⟨rfl, rfl⟩
    | loopStart =>
      rw [hcommand] at h
      change enterLoop _ _ _ _ = _ at h
      unfold enterLoop at h
      split at h
      · cases h
      · split at h <;> cases h
    | _ =>
      rw [hcommand] at h
      cases h

/-! ## Runs -/

/-- The machine so many instructions later, if the run goes on for so long. -/
def after? (defined : UInt8 → Bool) : Nat → Machine → Option Machine
  | 0, m => some m
  | n + 1, m =>
    match m.step defined with
    | .running next => next.after? defined n
    | _ => none

theorem after?_succ {n : Nat} (h : m.step defined = .running next) :
    m.after? defined (n + 1) = next.after? defined n := by
  rw [after?, h]

theorem after?_snoc {n : Nat} {mid : Machine} (h : m.after? defined n = some mid)
    (hstep : mid.step defined = .running next) : m.after? defined (n + 1) = some next := by
  induction n generalizing m with
  | zero =>
    cases h
    rw [after?_succ hstep, after?]
  | succ n ih =>
    unfold after? at h
    split at h
    · rename_i later hlater
      rw [after?_succ hlater]
      exact ih h
    · cases h

/-- What holds after some instructions and is kept by the next one holds of every later machine. -/
theorem after?_keeps {P : Nat → Machine → Prop} {last : Machine} {k n : Nat}
    (h : m.after? defined n = some last) (hm : P k m)
    (hstep : ∀ {k mid next}, P k mid → mid.step defined = .running next → P (k + 1) next) :
    P (k + n) last := by
  induction n generalizing k m with
  | zero =>
    cases h
    exact hm
  | succ n ih =>
    unfold after? at h
    split at h
    · rename_i next hnext
      rw [← Nat.succ_add_eq_add_succ]
      exact ih h (hstep hm hnext)
    · cases h

/-- The part ends here, because its bytes do or because of an end mark. -/
def PartEnds (m : Machine) : Prop :=
  m.cursor.atEnd = true ∨
    ∃ i c, Command.read m.player.kind m.cursor = .ok (i, c) ∧ i.command = .trackEnd

theorem Ends.after? {limit : Nat} {final : Machine} (h : Ends defined limit m final) :
    ∃ n last, n ≤ limit ∧ m.after? defined n = some last ∧ last.PartEnds ∧
      final.loops = last.loops ∧ final.player = last.player := by
  induction limit generalizing m with
  | zero =>
    unfold Ends runFor at h
    split at h
    · rename_i hend
      cases h
      exact ⟨0, final, Nat.le_refl 0, rfl, .inl hend, rfl, rfl⟩
    · cases h
  | succ limit ih =>
    unfold Ends runFor at h
    split at h
    · rename_i hend
      cases h
      exact ⟨0, final, Nat.zero_le _, rfl, .inl hend, rfl, rfl⟩
    · split at h
      · rename_i mid hmid
        obtain ⟨n, last, hn, hlast, hend⟩ := ih h
        exact ⟨n + 1, last, Nat.succ_le_succ hn, by rwa [after?_succ hmid], hend⟩
      · obtain ⟨i, c, hread, hcommand, rfl⟩ := step_ended h
        exact ⟨0, m, Nat.zero_le _, rfl, .inr ⟨i, c, hread, hcommand⟩, rfl, rfl⟩

end ChipScore.Machine
