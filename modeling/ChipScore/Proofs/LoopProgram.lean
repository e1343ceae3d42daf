import ChipScore.Proofs.Instructions

/-!
# Programs of loops

A part's bytes with its loops as a structure: instructions, loops around programs, and breaks that
stand inside a loop. A program has an encoding, and it can be unrolled to instructions alone.
-/

namespace ChipScore

/-- A whole instruction for the player, with its bytes. -/
structure PlainInstruction (kind : PartKind) where
  op : UInt8
  operands : List UInt8
  command : Command
  decode_eq : Command.decode kind (op :: operands) = .ok ⟨command, operands.length⟩
  ne_loopStart : op ≠ 0xF9
  ne_loopEnd : op ≠ 0xF8
  ne_loopBreak : op ≠ 0xF7
  ne_trackEnd : op ≠ 0x80

namespace PlainInstruction

variable {kind : PartKind}

def bytes (i : PlainInstruction kind) : List UInt8 := i.op :: i.operands

theorem encodedBy_bytes (i : PlainInstruction kind) : Command.EncodedBy kind i.command i.bytes :=
  Command.encodedBy_of_decode i.decode_eq rfl

theorem steers_command (i : PlainInstruction kind) : i.command.steers = false :=
  Command.steers_of_decode i.decode_eq i.ne_loopStart i.ne_loopEnd i.ne_loopBreak i.ne_trackEnd

/-- Instructions one after the other, without any loops. -/
def encodeAll (is : List (PlainInstruction kind)) : List UInt8 := is.flatMap bytes

end PlainInstruction

/-- The flag says whether the program stands in a loop, the only place for a break. Beside the count
the commands of a loop hold bytes of any value: two at its start, three at its end and two at a
break. -/
inductive LoopProgram (kind : PartKind) : Bool → Type
  | done {inLoop : Bool} : LoopProgram kind inLoop
  | play {inLoop : Bool} (i : PlainInstruction kind) (next : LoopProgram kind inLoop) :
    LoopProgram kind inLoop
  | loop {inLoop : Bool} (start : UInt8 × UInt8) (body : LoopProgram kind true) (count : UInt8)
    (count_pos : 0 < count) (stop : UInt8 × UInt8 × UInt8) (next : LoopProgram kind inLoop) :
    LoopProgram kind inLoop
  | leave (pointer : UInt8 × UInt8) (next : LoopProgram kind true) : LoopProgram kind true

namespace LoopProgram

variable {kind : PartKind} {inLoop : Bool}

def encodeStart (start : UInt8 × UInt8) : List UInt8 := [0xF9, start.1, start.2]

def encodeEnd (count : UInt8) (stop : UInt8 × UInt8 × UInt8) : List UInt8 :=
  [0xF8, count, stop.1, stop.2.1, stop.2.2]

def encodeLeave (pointer : UInt8 × UInt8) : List UInt8 := [0xF7, pointer.1, pointer.2]

theorem encodedBy_start (start : UInt8 × UInt8) :
    Command.EncodedBy kind .loopStart (encodeStart start) :=
  ⟨2, rfl, fun _ => rfl⟩

theorem encodedBy_end (count : UInt8) (stop : UInt8 × UInt8 × UInt8) :
    Command.EncodedBy kind (.loopEnd count) (encodeEnd count stop) :=
  ⟨4, rfl, fun _ => rfl⟩

theorem encodedBy_leave (pointer : UInt8 × UInt8) :
    Command.EncodedBy kind .loopBreak (encodeLeave pointer) :=
  ⟨2, rfl, fun _ => rfl⟩

theorem encodedBy_trackEnd : Command.EncodedBy kind .trackEnd [0x80] := ⟨0, rfl, fun _ => rfl⟩

def encodeLoop (start : UInt8 × UInt8) (body : List UInt8) (count : UInt8)
    (stop : UInt8 × UInt8 × UInt8) : List UInt8 :=
  encodeStart start ++ (body ++ encodeEnd count stop)

def encode {inLoop : Bool} : LoopProgram kind inLoop → List UInt8
  | done => []
  | play i next => i.bytes ++ next.encode
  | loop start body count _ stop next =>
    encodeLoop start body.encode count stop ++ next.encode
  | leave pointer next => encodeLeave pointer ++ next.encode

/-- What one pass over a program plays. Only the last pass of a loop minds its breaks: the first one
ends it. -/
def pass {inLoop : Bool} (last : Bool) : LoopProgram kind inLoop → List (PlainInstruction kind)
  | done => []
  | play i next => i :: next.pass last
  | loop _ body count _ _ next =>
    (List.replicate (count.toNat - 1) (body.pass false)).flatten ++ body.pass true ++ next.pass last
  | leave _ next => if last then [] else next.pass last

def commands (last : Bool) (p : LoopProgram kind inLoop) : List Command :=
  (p.pass last).map PlainInstruction.command

def loopCommands (body : LoopProgram kind true) (count : Nat) : List Command :=
  (List.replicate (count - 1) (body.commands false)).flatten ++ body.commands true

@[simp] theorem commands_done (last : Bool) :
    (done : LoopProgram kind inLoop).commands last = [] := rfl

@[simp] theorem commands_play (last : Bool) (i : PlainInstruction kind)
    (next : LoopProgram kind inLoop) :
    (play i next).commands last = i.command :: next.commands last := rfl

@[simp] theorem commands_loop (last : Bool) (start : UInt8 × UInt8) (body : LoopProgram kind true)
    (count : UInt8) (count_pos : 0 < count) (stop : UInt8 × UInt8 × UInt8)
    (next : LoopProgram kind inLoop) :
    (loop start body count count_pos stop next).commands last =
      body.loopCommands count.toNat ++ next.commands last := by
  simp [commands, loopCommands, pass, List.map_flatten]

@[simp] theorem commands_leave (last : Bool) (pointer : UInt8 × UInt8)
    (next : LoopProgram kind true) :
    (leave pointer next).commands last = if last then [] else next.commands last := by
  cases last <;> rfl

/-- All loops of a song played out. There are no breaks outside them. -/
def unrolled (p : LoopProgram kind false) : List (PlainInstruction kind) := p.pass false

end LoopProgram

end ChipScore
