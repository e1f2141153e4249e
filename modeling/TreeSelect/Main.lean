import TreeSelect.CommandLine.Run

/-!
# The program

Prints what the command line asks for; errors go to the error output.
-/

open TreeSelect

/-- Runs the command line and gives the exit code. -/
def main (arguments : List String) : IO UInt32 := do
  match CommandLine.run (arguments.map String.toList) with
  | .ok output =>
    if !output.isEmpty then IO.println (String.ofList output)
    return 0
  | .error failure =>
    IO.eprintln (String.ofList failure.text)
    return failure.exitCode
