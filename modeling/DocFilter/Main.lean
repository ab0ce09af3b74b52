import DocFilter.CommandLine

/-!
# The program

Reads the command line, the environment and, where a command needs it, the standard input.
-/

namespace DocFilter

/-- Prints what a run leaves behind and gives its exit code. -/
def Report.emit (report : Report) : IO UInt32 := do
  IO.print report.output
  IO.eprint report.errors
  return report.exitCode

end DocFilter

open DocFilter

/-- Runs the command that the words of the command line ask for. -/
def main (args : List String) : IO UInt32 := do
  match Arguments.read args (← IO.getEnv CommandLine.depthVariable) with
  | .error halt => halt.report.emit
  | .ok invocation =>
    let piped ← if invocation.readsInput then (← IO.getStdin).readToEnd else pure ""
    (invocation.run piped).emit
