import ProvideIndex.Run
import ProvideIndex.Text.Blank

/-!
# The formatter

An outside program that rewrites the generated file in place. Its command line is cut into words at
white space; the path of the file is passed as one more argument, whatever it holds.
-/

namespace ProvideIndex

structure Formatter where
  program : String
  arguments : List String
  deriving DecidableEq, Repr

namespace Formatter

def defaultCommand : String := "go fmt"

/-- The formatter of a command line, unless the line is blank. -/
def parse? (command : String) : Option Formatter :=
  match (Text.words command.toList).map String.ofList with
  | [] => none
  | program :: arguments => some ⟨program, arguments⟩

/-- The command line, with single spaces between its words. -/
def command (formatter : Formatter) : String :=
  formatter.arguments.foldl (fun line argument => line ++ " " ++ argument) formatter.program

/-- Runs the formatter on the file at `path`; the result is its exit code. -/
def run (formatter : Formatter) (path : String) : Run Int32 := do
  let reply ← Run.request (.runProgram formatter.program (formatter.arguments ++ [path]))
  let output ← Run.orFail (.formatterNotStarted formatter.command) reply
  if output.succeeded then
    return output.exitCode
  else
    let stderr := String.ofList (Text.trimEnd output.stderr.toList)
    Run.report (.formatterFailed formatter.command output.exitCode stderr)
      (.done output.exitCode)

end Formatter

end ProvideIndex
