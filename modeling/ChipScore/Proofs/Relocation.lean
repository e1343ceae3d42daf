import ChipScore.Proofs.Listings
import Mathlib.Data.List.Forall2

/-!
# A track is played from its own bytes

What a part plays depends on its instructions up to the first end mark and on nothing else: not on
what follows the mark or on where the range of the part ends, not on where the bytes stand, and not
on the pointers that are stored in loop commands.
-/

namespace ChipScore

/-! ## Bytes that are never used -/

namespace Command

/-- Whether a byte of an instruction, counted from its opcode, belongs to a pointer. Loop commands
hold nothing else but pointers, apart from the count of a loop. -/
def isPointer : Command → Nat → Bool
  | loopStart, place | loopBreak, place => 1 ≤ place
  | loopEnd _, place => 2 ≤ place
  | _, _ => false

def Listed.isPointer (x : Listed) (offset : Nat) : Bool :=
  x.offset ≤ offset && offset < x.offset + x.instruction.size &&
    x.instruction.command.isPointer (offset - x.offset)

variable {kind : PartKind} {op : UInt8} {entry : Entry} {bytes others : List UInt8}
  {i : Instruction}

theorem isPointer_of_not_steers {command : Command} (h : command.steers = false) (place : Nat) :
    command.isPointer place = false := by
  cases command <;> first | exact Bool.noConfusion h | rfl

theorem opcode_of_steers (h : decode kind (op :: bytes) = .ok i) (hsteers : i.command.steers) :
    op = 0xF9 ∨ op = 0xF8 ∨ op = 0xF7 ∨ op = 0x80 := by
  apply Decidable.byContradiction
  intro hop
  simp only [not_or] at hop
  obtain ⟨hstart, hend, hbreak, htrack⟩ := hop
  rw [steers_of_decode h hstart hend hbreak htrack] at hsteers
  cases hsteers

theorem ofOperands_loopEnd {xs ys : List UInt8} (name : String) (h : xs.head? = ys.head?) :
    ofOperands 0xF8 name xs = ofOperands 0xF8 name ys := by
  cases xs <;> cases ys <;> cases h <;> rfl

theorem isPointer_loopEnd_one (name : String) (operands : List UInt8) :
    (ofOperands 0xF8 name operands).isPointer 1 = false := by
  cases operands <;> rfl

theorem decodeTabled_of_command (h : decodeTabled op entry bytes = .ok i)
    (hextra : ∀ first, extraOperands op first = 0) (hlength : i.operands ≤ others.length)
    (hcommand : ofOperands op entry.name (others.take i.operands) = i.command) :
    decodeTabled op entry others = .ok i := by
  obtain ⟨-, -, hcount, -⟩ := decodeTabled_ok h
  rw [hextra, Nat.add_zero] at hcount
  simp only [decodeTabled, hextra, Nat.add_zero, List.length_take, ← hcount, hcommand]
  rw [if_neg (by omega), if_neg (by omega)]

theorem decode_steering_of_same (h : decode kind (op :: bytes) = .ok i)
    (hsteers : i.command.steers) (hlength : i.operands ≤ others.length)
    (hsecond : 1 < i.size → i.command.isPointer 1 = false → others.head? = bytes.head?) :
    decode kind (op :: others) = .ok i := by
  rcases opcode_of_steers h hsteers with rfl | rfl | rfl | rfl
  · have htabled : decodeTabled 0xF9 ⟨2, "loop start"⟩ bytes = .ok i := h
    obtain ⟨-, -, -, hcommand⟩ := decodeTabled_ok htabled
    exact decodeTabled_of_command htabled (fun _ => rfl) hlength hcommand.symm
  · have htabled : decodeTabled 0xF8 ⟨4, "loop end"⟩ bytes = .ok i := h
    obtain ⟨hentry, -, -, hcommand⟩ := decodeTabled_ok htabled
    have hhead : others.head? = bytes.head? := by
      apply hsecond
      · exact Nat.succ_lt_succ (Nat.lt_of_lt_of_le (by decide) hentry)
      · rw [hcommand]
        exact isPointer_loopEnd_one _ _
    refine decodeTabled_of_command htabled (fun _ => rfl) hlength ?_
    rw [hcommand]
    exact ofOperands_loopEnd _ (by rw [List.head?_take, List.head?_take, hhead])
  · have htabled : decodeTabled 0xF7 ⟨2, "loop break"⟩ bytes = .ok i := h
    obtain ⟨-, -, -, hcommand⟩ := decodeTabled_ok htabled
    exact decodeTabled_of_command htabled (fun _ => rfl) hlength hcommand.symm
  · exact h

/-- Bytes that differ in pointers alone are the same instruction. -/
theorem decode_of_same (h : decode kind bytes = .ok i) (hlength : i.size ≤ others.length)
    (hsame : ∀ k < i.size, i.command.isPointer k = false → others[k]? = bytes[k]?) :
    decode kind others = .ok i := by
  cases hsteers : i.command.steers with
  | false =>
    apply decode_of_take_eq h
    apply List.ext_getElem?
    intro k
    simp only [List.getElem?_take]
    split_ifs with hk
    · exact hsame k hk (isPointer_of_not_steers hsteers k)
    · rfl
  | true =>
    have hfirst : others[0]? = bytes[0]? :=
      hsame 0 (Nat.succ_pos _) (by cases i.command <;> rfl)
    cases bytes with
    | nil => cases h
    | cons op bytes =>
      cases others with
      | nil => cases hfirst
      | cons first others =>
        cases hfirst
        apply decode_steering_of_same h hsteers (Nat.le_of_succ_le_succ hlength)
        intro hsize hpointer
        have hsecond := hsame 1 hsize hpointer
        rwa [List.getElem?_cons_succ, List.getElem?_cons_succ, ← List.head?_eq_getElem?,
          ← List.head?_eq_getElem?] at hsecond

/-! ## Tracks -/

section Track

variable {c other next : Cursor} {x : Listed} {k : Nat}

theorem exists_read_of_mem (h : x ∈ (list kind c).instructions) :
    ∃ i next, read kind c = .ok (i, next) := by
  cases hend : c.atEnd with
  | true =>
    rw [list, listFrom_atEnd _ hend] at h
    cases h
  | false =>
    cases hread : read kind c with
    | error fault =>
      rw [list, listFrom_of_fault _ hend hread] at h
      cases h
    | ok result => exact ⟨result.1, result.2, rfl⟩

theorem offset_le_of_mem (h : x ∈ (list kind c).instructions) : c.offset ≤ x.offset := by
  obtain ⟨i, next, hread⟩ := exists_read_of_mem h
  have hbounds := bounds_of_read hread
  obtain ⟨place, hcovers, -⟩ := covers_list kind c (by omega)
  exact (hcovers.reads x h).1

theorem isPointer_of_lt (h : k < i.size) :
    (⟨c.offset, i⟩ : Listed).isPointer (c.offset + k) = i.command.isPointer k := by
  unfold Listed.isPointer
  dsimp only
  rw [decide_eq_true (by omega), decide_eq_true (by omega), Nat.add_sub_cancel_left]
  rfl

theorem isPointer_of_le (h : i.size ≤ k) :
    (⟨c.offset, i⟩ : Listed).isPointer (c.offset + k) = false := by
  unfold Listed.isPointer
  rw [decide_eq_false (p := c.offset + k < c.offset + i.size) (by omega), Bool.and_false,
    Bool.false_and]

theorem isPointer_of_offset_lt (h : k < x.offset) : x.isPointer k = false := by
  unfold Listed.isPointer
  rw [decide_eq_false (by omega), Bool.false_and, Bool.false_and]

end Track

end Command

open Command

variable {kind : PartKind}

/-- The instructions ahead of a cursor reach an end mark, and the bytes up to it are also ahead of
another cursor, wherever that one stands. Only pointers may differ. -/
def SharesTrack (kind : PartKind) (c other : Cursor) : Prop :=
  ∃ mark ∈ (list kind c).instructions, mark.instruction.command = .trackEnd ∧
    ∀ k < mark.offset + mark.instruction.size - c.offset, k < other.rest.length ∧
      ((∀ x ∈ (list kind c).instructions, x.isPointer (c.offset + k) = false) →
        other.rest[k]? = c.rest[k]?)

instance (kind : PartKind) (c other : Cursor) : Decidable (SharesTrack kind c other) :=
  inferInstanceAs (Decidable (∃ mark ∈ (list kind c).instructions, _ ∧ _))

/-- The same instructions lie ahead of both cursors, up to an end mark. -/
inductive SameTrack (kind : PartKind) : Cursor → Cursor → Prop
  | mark {c other next next' : Cursor} {i : Instruction} (read : read kind c = .ok (i, next))
    (read_other : Command.read kind other = .ok (i, next')) (command : i.command = .trackEnd) :
    SameTrack kind c other
  | step {c other next next' : Cursor} {i : Instruction} (read : read kind c = .ok (i, next))
    (read_other : Command.read kind other = .ok (i, next')) (rest : SameTrack kind next next') :
    SameTrack kind c other

section SharesTrack

variable {c other next : Cursor} {i : Instruction}

theorem SharesTrack.read_other (h : SharesTrack kind c other) (hread : read kind c = .ok (i, next)) :
    read kind other = .ok (i, other.skip i.size) := by
  obtain ⟨mark, hmark, -, hsame⟩ := h
  obtain ⟨hdecode, rfl⟩ := read_eq_ok_iff.mp hread
  rw [list_of_read hread] at hmark hsame
  have hsize : c.offset + i.size ≤ mark.offset + mark.instruction.size := by
    rcases List.mem_cons.mp hmark with rfl | hmark
    · exact Nat.le_refl _
    · exact Nat.le_trans (offset_le_of_mem hmark) (Nat.le_add_right _ _)
  have hpos : 0 < i.size := Nat.succ_pos _
  refine read_eq_ok_iff.mpr ⟨decode_of_same hdecode ?_ ?_, rfl⟩
  · have := (hsame (i.size - 1) (by omega)).1
    omega
  · intro k hk hpointer
    apply (hsame k (by omega)).2
    rw [List.forall_mem_cons, isPointer_of_lt hk]
    refine ⟨hpointer, ?_⟩
    intro x hx
    have hoffset : c.offset + i.size ≤ x.offset := offset_le_of_mem hx
    exact isPointer_of_offset_lt (by omega)

theorem SharesTrack.advance {mark : Listed} (hread : read kind c = .ok (i, next))
    (hmark : mark ∈ (list kind next).instructions) (hcommand : mark.instruction.command = .trackEnd)
    (hsame : ∀ k < mark.offset + mark.instruction.size - c.offset, k < other.rest.length ∧
      ((∀ x ∈ (list kind c).instructions, x.isPointer (c.offset + k) = false) →
        other.rest[k]? = c.rest[k]?)) :
    SharesTrack kind next (other.skip i.size) := by
  obtain ⟨-, rfl⟩ := read_eq_ok_iff.mp hread
  refine ⟨mark, hmark, hcommand, ?_⟩
  intro k hk
  rw [Cursor.offset_skip] at hk
  obtain ⟨hlength, hbyte⟩ := hsame (i.size + k) (by omega)
  rw [Cursor.rest_skip, Cursor.rest_skip, List.length_drop, List.getElem?_drop, List.getElem?_drop]
  refine ⟨by omega, ?_⟩
  intro hpointer
  apply hbyte
  rw [list_of_read hread, List.forall_mem_cons, isPointer_of_le (Nat.le_add_right _ _)]
  refine ⟨rfl, ?_⟩
  intro x hx
  rw [← Nat.add_assoc]
  exact hpointer x hx

theorem SharesTrack.sameTrack (h : SharesTrack kind c other) : SameTrack kind c other := by
  induction hlength : c.rest.length using Nat.strongRecOn generalizing c other with
  | ind length ih =>
    subst hlength
    obtain ⟨mark, hmark, hcommand, hsame⟩ := h
    obtain ⟨i, next, hread⟩ := exists_read_of_mem hmark
    have hother := read_other ⟨mark, hmark, hcommand, hsame⟩ hread
    have hlisted := hmark
    rw [list_of_read hread] at hlisted
    rcases List.mem_cons.mp hlisted with hfirst | hlater
    · rw [hfirst] at hcommand
      exact .mark hread hother hcommand
    · exact .step hread hother
        (ih _ (length_rest_of_read hread) (advance hread hlater hcommand hsame) rfl)

end SharesTrack

/-! ## Machines on two copies of a track -/

/-- Cursors at one place of two copies of a track, that stand where the copies have the offsets
`start` and `start'`. -/
structure Twins (kind : PartKind) (start start' : Nat) (c other : Cursor) : Prop where
  track : SameTrack kind c other
  place : ∃ place, c.offset = start + place ∧ other.offset = start' + place

section Twins

variable {start start' : Nat} {c other : Cursor}

theorem Twins.read (h : Twins kind start start' c other) : ∃ i next next',
    Command.read kind c = .ok (i, next) ∧ Command.read kind other = .ok (i, next') ∧
      (i.command ≠ .trackEnd → Twins kind start start' next next') := by
  obtain ⟨htrack, place, hplace, hplace'⟩ := h
  cases htrack with
  | mark hread hother hcommand =>
    exact ⟨_, _, _, hread, hother, fun hne => absurd hcommand hne⟩
  | @step _ _ next next' i hread hother hrest =>
    refine ⟨i, next, next', hread, hother, fun _ => ⟨hrest, place + i.size, ?_, ?_⟩⟩
    · rw [(read_eq_ok_iff.mp hread).2, Cursor.offset_skip, hplace, Nat.add_assoc]
    · rw [(read_eq_ok_iff.mp hother).2, Cursor.offset_skip, hplace', Nat.add_assoc]

/-- Both searches find the same end at the same place, or none. -/
inductive FindsTwins (kind : PartKind) (start start' : Nat) : LoopEnd → LoopEnd → Prop
  | found {count : UInt8} {exit exit' : Cursor} (exits : Twins kind start start' exit exit') :
    FindsTwins kind start start' (.found count exit) (.found count exit')
  | missing : FindsTwins kind start start' .missing .missing

theorem Twins.findLoopEnd (h : Twins kind start start' c other) (depth : Nat) :
    FindsTwins kind start start' (findLoopEnd kind depth c) (findLoopEnd kind depth other) := by
  induction hlength : c.rest.length using Nat.strongRecOn generalizing c other depth with
  | ind length ih =>
    subst hlength
    obtain ⟨i, next, next', hread, hother, hnext⟩ := h.read
    rw [findLoopEnd_of_read depth hread, findLoopEnd_of_read depth hother]
    have hgoesOn (depth : Nat) (hne : i.command ≠ .trackEnd) :=
      ih _ (length_rest_of_read hread) (hnext hne) depth rfl
    cases hcommand : i.command with
    | trackEnd => exact .missing
    | loopEnd count =>
      have hne : i.command ≠ .trackEnd := by simp [hcommand]
      cases depth with
      | zero => exact .found (hnext hne)
      | succ depth => exact hgoesOn depth hne
    | loopStart => exact hgoesOn (depth + 1) (by simp [hcommand])
    | _ => exact hgoesOn depth (by simp [hcommand])

end Twins

structure Frame.Twins (kind : PartKind) (start start' : Nat) (f g : Frame) : Prop where
  body : ChipScore.Twins kind start start' f.body g.body
  exit : ChipScore.Twins kind start start' f.exit g.exit
  remaining : f.remaining = g.remaining

namespace Machine

structure Twins (kind : PartKind) (start start' : Nat) (m m' : Machine) : Prop where
  cursor : ChipScore.Twins kind start start' m.cursor m'.cursor
  loops : List.Forall₂ (Frame.Twins kind start start') m.loops m'.loops
  player : m.player = m'.player
  kind_eq : m.player.kind = kind

/-- Both steps do the same, and if they fail then at the same place. -/
inductive StepTwins (kind : PartKind) (start start' : Nat) : Outcome → Outcome → Prop
  | running {m m' : Machine} (twins : m.Twins kind start start' m') :
    StepTwins kind start start' (.running m) (.running m')
  | ended {m m' : Machine} (player : m.player = m'.player)
    (isEmpty : m.loops.isEmpty = m'.loops.isEmpty) :
    StepTwins kind start start' (.ended m) (.ended m')
  | failed (player : Player) (place : Nat) (cause : PlayCause) :
    StepTwins kind start start' (.failed player (start + place) cause)
      (.failed player (start' + place) cause)

variable {start start' place : Nat} {player : Player}
  {loops loops' : List Frame} {next next' : Cursor} {m m' : Machine}

theorem isEmpty_of_twins (h : List.Forall₂ (Frame.Twins kind start start') loops loops') :
    loops.isEmpty = loops'.isEmpty := by
  cases h <;> rfl

theorem twins_enterLoop (hkind : player.kind = kind)
    (hloops : List.Forall₂ (Frame.Twins kind start start') loops loops')
    (hnext : ChipScore.Twins kind start start' next next') :
    StepTwins kind start start' (enterLoop player loops (start + place) next)
      (enterLoop player loops' (start' + place) next') := by
  have hfinds := hnext.findLoopEnd 0
  unfold enterLoop
  rw [hkind, ← hloops.length_eq]
  generalize findLoopEnd kind 0 next = found, findLoopEnd kind 0 next' = found' at hfinds ⊢
  split
  · exact .failed player place .loopsTooDeep
  · cases hfinds with
    | found exits =>
      refine .running ⟨hnext, .cons ⟨hnext, exits, rfl⟩ hloops, rfl, ?_⟩
      dsimp only
      split <;> exact hkind
    | missing => exact .running ⟨hnext, hloops, rfl, hkind⟩

theorem twins_endLoop (hkind : player.kind = kind)
    (hloops : List.Forall₂ (Frame.Twins kind start start') loops loops')
    (hnext : ChipScore.Twins kind start start' next next') :
    (endLoop player loops next).Twins kind start start' (endLoop player loops' next') := by
  cases hloops with
  | nil => exact ⟨hnext, .nil, rfl, hkind⟩
  | cons hframe houter =>
    simp only [endLoop, hframe.remaining]
    split
    · exact ⟨hframe.body, .cons ⟨hframe.body, hframe.exit, rfl⟩ houter, rfl, hkind⟩
    · exact ⟨hnext, houter, rfl, hkind⟩

theorem twins_breakLoop (hkind : player.kind = kind)
    (hloops : List.Forall₂ (Frame.Twins kind start start') loops loops')
    (hnext : ChipScore.Twins kind start start' next next') :
    (breakLoop player loops next).Twins kind start start' (breakLoop player loops' next') := by
  cases hloops with
  | nil => exact ⟨hnext, .nil, rfl, hkind⟩
  | cons hframe houter =>
    simp only [breakLoop, hframe.remaining]
    split
    · exact ⟨hframe.exit, houter, rfl, hkind⟩
    · exact ⟨hnext, .cons hframe houter, rfl, hkind⟩

theorem Twins.step (defined : UInt8 → Bool) (h : m.Twins kind start start' m') :
    StepTwins kind start start' (m.step defined) (m'.step defined) := by
  obtain ⟨cursor, loops, player⟩ := m
  obtain ⟨cursor', loops', player'⟩ := m'
  obtain ⟨hcursor, hloops, hplayer, hkind⟩ := h
  dsimp only at hcursor hloops hplayer hkind
  subst hplayer hkind
  obtain ⟨place, hplace, hplace'⟩ := hcursor.place
  obtain ⟨i, next, next', hread, hread', hnext⟩ := hcursor.read
  simp only [Machine.step, hread, hread', hplace, hplace']
  cases hcommand : i.command with
  | trackEnd => exact .ended rfl (isEmpty_of_twins hloops)
  | loopStart => exact twins_enterLoop rfl hloops (hnext (by simp [hcommand]))
  | loopEnd n => exact .running (twins_endLoop rfl hloops (hnext (by simp [hcommand])))
  | loopBreak => exact .running (twins_breakLoop rfl hloops (hnext (by simp [hcommand])))
  | _ =>
    exact .running ⟨hnext (by simp [hcommand]), hloops, rfl, Player.kind_perform _ _ _⟩

theorem Twins.runFor (defined : UInt8 → Bool) (h : m.Twins kind start start' m') (limit : Nat) :
    StepTwins kind start start' (m.runFor defined limit) (m'.runFor defined limit) := by
  induction limit generalizing m m' with
  | zero =>
    obtain ⟨i, next, next', hread, hread', -⟩ := h.cursor.read
    obtain ⟨place, hplace, hplace'⟩ := h.cursor.place
    unfold Machine.runFor
    rw [atEnd_of_read hread, atEnd_of_read hread', hplace, hplace', h.player]
    exact .failed _ place .tooManyInstructions
  | succ limit ih =>
    obtain ⟨i, next, next', hread, hread', -⟩ := h.cursor.read
    have hstep := h.step defined
    unfold Machine.runFor
    rw [atEnd_of_read hread, atEnd_of_read hread']
    generalize m.step defined = outcome, m'.step defined = outcome' at hstep ⊢
    cases hstep with
    | running twins => exact ih twins
    | ended player isEmpty => exact .ended player isEmpty
    | failed player place cause => exact .failed player place cause

theorem finish_eq (hplayer : m.player = m'.player) (hloops : m.loops.isEmpty = m'.loops.isEmpty) :
    m.finish = m'.finish := by
  unfold finish
  rw [hplayer, hloops]

end Machine

/-! ## Whole parts -/

/-- The same timeline and warnings, or the same failure at the same place of the track. -/
inductive PlaysAlike (start start' : Nat) :
    Except PlayError Timeline × Warnings → Except PlayError Timeline × Warnings → Prop
  | plays (t : Timeline) (ws : Warnings) : PlaysAlike start start' (.ok t, ws) (.ok t, ws)
  | fails (part : Part) (place : Nat) (cause : PlayCause) (ws : Warnings) :
    PlaysAlike start start' (.error ⟨part, start + place, cause⟩, ws)
      (.error ⟨part, start' + place, cause⟩, ws)

open Machine

/-- A track sounds the same, or fails in the same way, wherever its bytes stand, whatever follows its
end mark and whatever its loop pointers say. -/
theorem play_of_sharesTrack (part : Part) (defined : UInt8 → Bool) {c other : Cursor}
    (h : SharesTrack part.kind c other) :
    PlaysAlike c.offset other.offset (play part defined c) (play part defined other) := by
  have htwins : (start part c).Twins part.kind c.offset other.offset (start part other) :=
    ⟨⟨h.sameTrack, 0, rfl, rfl⟩, .nil, rfl, rfl⟩
  have hrun := htwins.runFor defined maxInstructions
  unfold play
  generalize (start part c).runFor defined maxInstructions = outcome,
    (start part other).runFor defined maxInstructions = outcome' at hrun ⊢
  cases hrun with
  | running twins =>
    dsimp only
    rw [finish_eq twins.player (isEmpty_of_twins twins.loops)]
    exact .plays _ _
  | ended player isEmpty =>
    dsimp only
    rw [finish_eq player isEmpty]
    exact .plays _ _
  | failed player place cause => exact .fails part place cause _

/-- A loop with two passes and a break between its notes, and a loop without an end. The pointers of
both loops are made of one byte. -/
def loopTrack (pointer : UInt8) : List UInt8 :=
  [0xF9, pointer, pointer, 0x40, 12, 0xF7, pointer, pointer, 0x42, 12, 0xF8, 2, pointer, pointer,
    pointer, 0xF9, pointer, pointer, 0x80]

theorem play_of_sharesTrack_loopTrack :
    let c := Cursor.ofRange (loopTrack 0) 0 19
    let other := Cursor.ofRange ([7, 7, 7] ++ loopTrack 0x80 ++ [0xF8, 2, 0, 0, 0, 0x80]) 3 28
    SharesTrack .fm c other ∧
      (play ⟨0⟩ (fun _ => false) c).1.toOption.map Timeline.noteCount = some 3 ∧
      PlaysAlike 0 3 (play ⟨0⟩ (fun _ => false) c) (play ⟨0⟩ (fun _ => false) other) := by
  intro c other
  have hshares : SharesTrack .fm c other := by decide +kernel
  exact ⟨hshares, by decide +kernel, play_of_sharesTrack ⟨0⟩ _ hshares⟩

end ChipScore
