import ChipScore.Deflate.Bits

/-!
# Canonical codes

A canonical code is given by the lengths of its code words alone: shorter words come first, and
words of one length are numbered in the order of their symbols. A length of zero leaves a symbol
out.
-/

namespace ChipScore.Deflate

def maxCodeLength : Nat := 15

/-- `counts` says how many words there are of each length from one on, and `symbols` lists the
symbols in the order of their words. -/
structure Code where
  counts : List Nat
  symbols : Array Nat
  deriving DecidableEq, Repr

namespace Code

def lengths : List Nat := List.range' 1 maxCodeLength

def ofLengths (symbolLengths : List Nat) : Code where
  counts := lengths.map symbolLengths.count
  symbols := (lengths.flatMap fun length =>
    symbolLengths.zipIdx.filterMap fun (l, symbol) =>
      if l = length then some symbol else none).toArray

/-- The words that are still free after all lengths, counted in words of the greatest length. -/
def free (c : Code) : Int := c.counts.foldl (fun (left : Int) (count : Nat) => 2 * left - count) 1

def isComplete (c : Code) : Bool := c.free = 0

/-- A code may also have no words at all, or a single one of one bit. -/
def isUsable (c : Code) : Bool :=
  c.isComplete || c.symbols.isEmpty || (c.symbols.size = 1 && c.counts.head? = some 1)

/-- Reads on with each length in turn. `word` is what was read, `first` the first word of the length
at hand without its last bit, and `index` the number of all shorter words. -/
def readFrom (c : Code) (word first index : Nat) : List Nat → Read Nat
  | [] => throw .symbol
  | count :: counts => do
    let word := 2 * word + (← Bits.bit).toNat
    let first := 2 * first
    if word < first + count then
      match c.symbols[index + (word - first)]? with
      | some symbol => return symbol
      | none => throw .symbol
    else readFrom c word (first + count) (index + count) counts

def read (c : Code) : Read Nat := c.readFrom 0 0 0 c.counts

end Code

/-! ## Fixed codes -/

def fixedLiterals : Code :=
  .ofLengths (List.replicate 144 8 ++ List.replicate 112 9 ++ List.replicate 24 7 ++
    List.replicate 8 8)

def fixedDistances : Code := .ofLengths (List.replicate 32 5)

/-! ## Codes that a block brings along -/

/-- The order in which the lengths of the code for code lengths are given. -/
def lengthOrder : List Nat := [16, 17, 18, 0, 8, 7, 9, 6, 10, 5, 11, 4, 12, 3, 13, 2, 14, 1, 15]

/-- Reads as many lengths as are missing; `done` holds those that are read, the last first. Symbols
up to 15 are lengths, the others repeat the last length or zero. -/
def readLengths (c : Code) (missing : Nat) (done : List Nat) : Read (List Nat) :=
  match missing with
  | 0 => return done.reverse
  | others + 1 => do
    let symbol ← c.read
    if symbol < 16 then readLengths c others (symbol :: done)
    else
      let (more, value) ←
        if symbol = 16 then
          match done with
          | [] => throw .code
          | last :: _ => do pure (2 + (← Bits.number 2), last)
        else if symbol = 17 then do pure (2 + (← Bits.number 3), 0)
        else do pure (10 + (← Bits.number 7), 0)
      if others < more then throw .code
      else readLengths c (others - more) (List.replicate (more + 1) value ++ done)
termination_by missing
decreasing_by all_goals simp only [Nat.lt_add_one_iff]; omega

def readCodes : Read (Code × Code) := do
  let literals := 257 + (← Bits.number 5)
  let distances := 1 + (← Bits.number 5)
  let ordered := 4 + (← Bits.number 4)
  if 286 < literals ∨ 30 < distances then throw .codeCounts
  let given ← (List.range ordered).mapM fun _ => Bits.number 3
  let lengthOf (symbol : Nat) : Nat := ((lengthOrder.zip given).lookup symbol).getD 0
  let lengthCode := Code.ofLengths ((List.range 19).map lengthOf)
  if !lengthCode.isComplete then throw .code
  let total := literals + distances
  let lengths ← readLengths lengthCode total []
  let literalCode := Code.ofLengths (lengths.take literals)
  let distanceCode := Code.ofLengths (lengths.drop literals)
  if literalCode.isUsable && distanceCode.isUsable then return (literalCode, distanceCode)
  else throw .code

end ChipScore.Deflate
