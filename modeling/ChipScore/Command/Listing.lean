import ChipScore.Command.Decode

/-!
# Listings

A listing is all instructions of a range of bytes, one after the other, up to the end of the range
or to the first place where there is no instruction.
-/

namespace ChipScore.Command

structure Listed where
  offset : Nat
  instruction : Instruction
  deriving DecidableEq, Repr

/-- `fault` says at which offset the listing broke off, and why. -/
structure Listing where
  instructions : List Listed
  fault : Option (Nat × DecodeFault)
  deriving DecidableEq, Repr

/-- `before` holds what is listed already, the last first. -/
def listFrom (kind : PartKind) (before : List Listed) (c : Cursor) : Listing :=
  if c.atEnd then ⟨before.reverse, none⟩
  else match _h : read kind c with
    | .error fault => ⟨before.reverse, some (c.offset, fault)⟩
    | .ok (i, next) => listFrom kind (⟨c.offset, i⟩ :: before) next
termination_by c.rest.length
decreasing_by exact length_rest_of_read _h

def list (kind : PartKind) (c : Cursor) : Listing := listFrom kind [] c

end ChipScore.Command
