import ChipScore.Command.Decode
import ChipScore.Player.Perform

/-!
# Playing a part

A machine reads the instructions of one part and hands its commands to a player. It keeps a frame
for each loop that it is in. The end of a loop is found by reading ahead when the loop starts, so
the pointers that are stored in the loop commands are never used.
-/

namespace ChipScore

inductive PlayCause
  | decode (cause : DecodeCause)
  | loopsTooDeep
  | tooManyInstructions
  deriving DecidableEq, Repr

namespace Machine

def maxLoopDepth : Nat := 32

def maxInstructions : Nat := 1000000

end Machine

namespace PlayCause

def message : PlayCause → String
  | decode cause => cause.message
  | loopsTooDeep => s!"loops nested deeper than {Machine.maxLoopDepth}"
  | tooManyInstructions => s!"more than {Machine.maxInstructions} instructions executed"

end PlayCause

structure PlayError where
  part : Part
  offset : Nat
  cause : PlayCause
  deriving DecidableEq, Repr

/-- A loop that is being played: where its body starts, where it goes on after its end, and how many
passes are left with the one that is being played. -/
structure Frame where
  body : Cursor
  exit : Cursor
  remaining : Nat

/-- `loops` has the innermost loop first. -/
structure Machine where
  cursor : Cursor
  loops : List Frame := []
  player : Player

/-! ## Finding the end of a loop -/

inductive LoopEnd
  | found (count : UInt8) (exit : Cursor)
  | missing
  | fault (offset : Nat) (cause : DecodeCause)

/-- Reads on to the loop end that belongs to no loop start on the way. `depth` counts the loops that
are open here. -/
def findLoopEnd (kind : PartKind) (depth : Nat) (c : Cursor) : LoopEnd :=
  if c.atEnd then .missing
  else match _h : Command.read kind c with
    | .error fault => .fault c.offset fault.cause
    | .ok (i, next) =>
      match i.command, depth with
      | .loopEnd count, 0 => .found count next
      | .loopEnd _, depth + 1 => findLoopEnd kind depth next
      | .loopStart, depth => findLoopEnd kind (depth + 1) next
      | .trackEnd, _ => .missing
      | _, depth => findLoopEnd kind depth next
termination_by c.rest.length
decreasing_by all_goals exact Command.length_rest_of_read _h

/-! ## One step -/

inductive Outcome
  | running (machine : Machine)
  | ended (machine : Machine)
  | failed (player : Player) (offset : Nat) (cause : PlayCause)

namespace Machine

/-- A loop that counts zero would never end, so it is played once. -/
def enterLoop (player : Player) (loops : List Frame) (offset : Nat) (body : Cursor) : Outcome :=
  if maxLoopDepth ≤ loops.length then .failed player offset .loopsTooDeep
  else match findLoopEnd player.kind 0 body with
    | .found count exit =>
      let player := if count = 0 then player.unsupported .endlessLoop else player
      .running ⟨body, ⟨body, exit, max count.toNat 1⟩ :: loops, player⟩
    | .missing => .running ⟨body, loops, player.unsupported .loopWithoutEnd⟩
    | .fault place cause => .failed player place (.decode cause)

def endLoop (player : Player) (loops : List Frame) (next : Cursor) : Machine :=
  match loops with
  | [] => ⟨next, [], player.unsupported .loopEndWithoutStart⟩
  | frame :: outer =>
    if 1 < frame.remaining then
      ⟨frame.body, { frame with remaining := frame.remaining - 1 } :: outer, player⟩
    else ⟨next, outer, player⟩

/-- A loop is left early only on its last pass. -/
def breakLoop (player : Player) (loops : List Frame) (next : Cursor) : Machine :=
  match loops with
  | [] => ⟨next, [], player.unsupported .breakOutsideLoop⟩
  | frame :: outer =>
    if frame.remaining ≤ 1 then ⟨frame.exit, outer, player⟩ else ⟨next, loops, player⟩

/-- Carries out a command that was read at `offset`, with `next` after it. -/
def execute (defined : UInt8 → Bool) (player : Player) (loops : List Frame) (offset : Nat)
    (next : Cursor) : Command → Outcome
  | .trackEnd => .ended ⟨next, loops, player⟩
  | .loopStart => enterLoop player loops offset next
  | .loopEnd _ => .running (endLoop player loops next)
  | .loopBreak => .running (breakLoop player loops next)
  | command => .running ⟨next, loops, player.perform defined command⟩

def step (defined : UInt8 → Bool) : Machine → Outcome
  | ⟨cursor, loops, player⟩ =>
    match Command.read player.kind cursor with
    | .error fault => .failed player cursor.offset (.decode fault.cause)
    | .ok (i, next) => execute defined player loops cursor.offset next i.command

/-! ## Whole runs -/

/-- Steps until the part ends. `limit` is the number of instructions that may still be executed. -/
def runFor (defined : UInt8 → Bool) : Nat → Machine → Outcome
  | 0, m =>
    if m.cursor.atEnd then .ended m else .failed m.player m.cursor.offset .tooManyInstructions
  | limit + 1, m =>
    if m.cursor.atEnd then .ended m
    else match m.step defined with
      | .running next => runFor defined limit next
      | outcome => outcome

def start (part : Part) (cursor : Cursor) : Machine := { cursor, player := .start part }

/-- Warnings that only the end of a part can show. -/
def finish (m : Machine) : Player :=
  let player := if m.loops.isEmpty then m.player else m.player.unsupported .partEndInLoop
  if player.kind = .adpcm ∧ 0 < player.state.noteCount then player.unsupported .adpcmPart
  else player

end Machine

/-- The timeline of a part whose bytes are ahead of a cursor. The warnings stand also when the part
cannot be played to its end. -/
def play (part : Part) (defined : UInt8 → Bool) (cursor : Cursor) :
    Except PlayError Timeline × Warnings :=
  match (Machine.start part cursor).runFor defined Machine.maxInstructions with
  | .failed player offset cause => (.error ⟨part, offset, cause⟩, player.warnings)
  | .running m | .ended m =>
    let player := m.finish
    (.ok ⟨player.events.toList, player.state⟩, player.warnings)

end ChipScore
