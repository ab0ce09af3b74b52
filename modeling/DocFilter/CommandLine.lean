import DocFilter.Command
import DocFilter.CommandLine.Arguments
import DocFilter.Json.Printer

/-!
# The command line

What an invocation prints and how it ends: with 0 on success, with 1 when a command fails and with 2 when the words
of the command line make no sense.
-/

namespace DocFilter

/-- What a run leaves behind. -/
structure Report where
  exitCode : UInt32
  output : String
  errors : String
  deriving DecidableEq, Repr

namespace Report

/-- Success with a text to print. -/
def success (output : String) : Report :=
  ⟨0, output, ""⟩

/-- The text of a successful command, or the message of its error on a line of its own. -/
def ofResult : Except CommandError String → Report
  | .ok output => success output
  | .error e => ⟨1, "", e.message ++ "\n"⟩

end Report

def Verdict.text : Verdict → String
  | syntaxValid => "Syntax is valid"
  | matched b => if b then "true" else "false"

namespace Halt

def report : Halt → Report
  | version => .success "mapq 0.1.0\n"
  | usage => ⟨2, "", "Usage: mapq [--max-depth <N>] <check|filter|docs|doc> ...\n"⟩

end Halt

namespace Invocation

/-- Whether the command reads its data from the standard input. -/
def readsInput (i : Invocation) : Bool :=
  match i.action with
  | .check _ input? syntaxOnly => input?.isNone && !syntaxOnly
  | .filter _ input? _ => input?.isNone
  | _ => false

/-- Runs the command.  `piped` is the standard input, which counts only if the command reads it. -/
def run (i : Invocation) (piped : String) : Report :=
  let piped? := if i.readsInput then some piped else none
  match i.action with
  | .check query input? syntaxOnly =>
    let outcome := Command.check ⟨query, input?.orElse fun _ => piped?, i.maxDepth⟩ syntaxOnly
    .ofResult (outcome.result.map fun verdict => verdict.text ++ "\n")
  | .filter query input? pretty =>
    let outcome := Command.filter ⟨query, input?.orElse fun _ => piped?, i.maxDepth⟩
    .ofResult (outcome.result.map fun kept => (if pretty then kept.pretty else kept.compact) ++ "\n")
  | .overview => .success Manual.overview
  | .manual category => .ofResult (Command.manualPage category)

end Invocation

namespace CommandLine

/-- The environment variable that sets the bound on nesting. -/
def depthVariable : String :=
  "MAPQ_MAX_DEPTH"

/-- Reads the words of a command line and runs what they ask for. -/
def run (args : List String) (environment? : Option String) (piped : String) : Report :=
  match Arguments.read args environment? with
  | .error halt => halt.report
  | .ok invocation => invocation.run piped

end CommandLine

end DocFilter
