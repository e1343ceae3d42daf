import ChipScore.CommandLine

/-!
# The program

Reads a compiled score and writes the module next to it, or where the command line says.
-/

namespace ChipScore.Program

/-- Gives the exit status back. -/
def complain (lines : List String) (status : UInt32) : IO UInt32 := do
  lines.forM IO.eprintln
  return status

def convertFile (request : CommandLine.Request) (input : String) : IO UInt32 := do
  let data ← IO.FS.readBinFile input
  match convert request.options data.toList with
  | .error failure => complain ["error: " ++ failure.message] 1
  | .ok conversion =>
    let output := request.output.getD (CommandLine.modulePath input)
    IO.FS.writeBinFile output ⟨conversion.bytes.toArray⟩
    let lines := if request.verbose then [CommandLine.summary conversion] else []
    complain (lines ++ CommandLine.report conversion) 0

def run (args : List String) : IO UInt32 := do
  match CommandLine.parse args with
  | .error text => complain ["error: " ++ text, CommandLine.usage] 2
  | .ok request =>
    match request.input with
    | none => complain ["error: no input", CommandLine.usage] 2
    | some input =>
      try convertFile request input
      catch e => complain [s!"error: IO error: {e}"] 1

end ChipScore.Program

def main (args : List String) : IO UInt32 := ChipScore.Program.run args
