import ChipScore.Conversion

/-!
# The command line

What the arguments of the program ask for, and what the program says about a conversion.
-/

namespace ChipScore.CommandLine

structure Request where
  input : Option String := none
  output : Option String := none
  options : Options := {}
  verbose : Bool := false
  deriving DecidableEq, Repr

def usage : String :=
  "usage: chipscore INPUT [-o OUTPUT] [--ticks-per-row N] [--pattern-length N] [-c] [-v]"

def number (option value : String) : Except String Nat :=
  match value.toNat? with
  | some n => .ok n
  | none => .error s!"{option} needs a number, got '{value}'"

/-- Options may stand before and after the input. -/
def parseFrom (r : Request) : List String → Except String Request
  | [] => .ok r
  | "-o" :: value :: args | "--output" :: value :: args => parseFrom { r with output := value } args
  | "--ticks-per-row" :: value :: args => do
    let n ← number "--ticks-per-row" value
    parseFrom { r with options.ticksPerRow := n } args
  | "--pattern-length" :: value :: args => do
    let n ← number "--pattern-length" value
    parseFrom { r with options.patternLength := n } args
  | "-c" :: args | "--compress" :: args => parseFrom { r with options.compress := true } args
  | "-v" :: args | "--verbose" :: args => parseFrom { r with verbose := true } args
  | arg :: args =>
    if arg.startsWith "-" ∨ r.input.isSome then .error s!"unexpected argument '{arg}'"
    else parseFrom { r with input := some arg } args

def parse (args : List String) : Except String Request := parseFrom {} args

/-- The path with the extension of modules. A dot at the start of a file's name is no extension. -/
def modulePath (input : String) : String :=
  let reversed := input.toList.reverse
  let file := reversed.takeWhile (· ≠ '/')
  let folder := reversed.drop file.length
  let stem := (file.dropWhile (· ≠ '.')).drop 1
  String.ofList ((if stem.isEmpty then file else stem) ++ folder).reverse ++ ".fur"

def report (c : Conversion) : List String :=
  if c.warnings.isEmpty then []
  else s!"{c.warnings.size} warning(s):" :: c.warnings.toList.map fun w => "  " ++ w.message

def summary (c : Conversion) : String :=
  let a := c.arrangement
  s!"{a.grid.rowCount} rows in {a.orderCount} orders, {a.instruments.size} instruments, " ++
    s!"{c.song.patterns.length} patterns, tempo {a.grid.tempo.human}"

end ChipScore.CommandLine
