/-!
# Requests to the outside

Everything that a run asks of the file system and of other programs, and what each request is
answered with. A refusal is answered with its text.
-/

namespace ProvideIndex

/-- What a finished program left behind; the exit code is -1 after death by a signal. -/
structure ProgramOutput where
  exitCode : Int32
  stdout : String
  stderr : String
  deriving DecidableEq, Repr

def ProgramOutput.succeeded (output : ProgramOutput) : Bool := output.exitCode == 0

inductive Request where
  | fileExists (path : String)
  /-- The files at or below a directory, as paths relative to it. -/
  | listFiles (root : String)
  | readText (path : String)
  /-- Puts a text at a path so that no reader sees a part of it. -/
  | writeText (path contents : String)
  | runProgram (program : String) (arguments : List String)
  deriving DecidableEq, Repr

namespace Request

@[reducible] def Reply : Request → Type
  | fileExists _ => Bool
  | listFiles _ => Except String (List String)
  | readText _ => Except String String
  | writeText _ _ => Except String Unit
  | runProgram _ _ => Except String ProgramOutput

end Request

end ProvideIndex
