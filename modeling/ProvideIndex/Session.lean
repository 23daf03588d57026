import ProvideIndex.CommandLine.Message

/-!
# A session

What a call of the program does from its arguments to its exit status.
-/

namespace ProvideIndex

/-- What a session prints, and the status it ends with. -/
structure Answer where
  stdout : String
  status : UInt8
  deriving DecidableEq, Repr

namespace Session

/-- The line about a finished run. -/
def summary (options : Regenerate.Options) (report : Regenerate.Report) : String :=
  "Scanned " ++ toString report.files ++ " files: " ++ toString report.libraries ++
    " libraries, " ++ toString report.symbols ++ " symbols written to " ++ options.output ++ "\n"

def regenerate (options : Regenerate.Options) : Run Answer := do
  let report ← Regenerate.run options
  return ⟨summary options report, report.exitStatus⟩

/-- The run that a command line asks for; `environment` is the formatter of the environment. -/
def ofArguments (environment : Option String) (arguments : List String) :
    Except CommandLine.Refusal (Run Answer) :=
  match CommandLine.Invocation.parse environment arguments.tail with
  | .ok invocation => .ok (regenerate invocation.options)
  | .error refusal =>
    if refusal.isError then .error refusal
    else .ok (.done ⟨refusal.text (CommandLine.calledName arguments) environment, 0⟩)

end Session

end ProvideIndex
