import ProvideIndex.Disk.Files
import ProvideIndex.Session

/-!
# The program

Carries out the run that a command line asks for on the files of the machine. All decisions are made
by the run; here its requests are answered and its result is printed. Formatters are not started
from here, so a run that asks for one ends with a failure.
-/

namespace ProvideIndex.Program

/-- A refusal of the machine in the words of its error number. -/
def describe (error : IO.Error) : String :=
  let numbered (code : UInt32) (text : String) : String :=
    text ++ " (os error " ++ toString code ++ ")"
  match error with
  | .noFileOrDirectory _ code text => numbered code text
  | .permissionDenied _ code text => numbered code text
  | .inappropriateType _ code text => numbered code text
  | .alreadyExists _ code text => numbered code text
  | .resourceBusy code text => numbered code text
  | .invalidArgument _ code text => numbered code text
  | other => toString other

/-- The result of an action, or the text of its refusal. -/
def attempt {α : Type} (action : IO α) : IO (Except String α) := do
  match ← action.toBaseIO with
  | .ok result => return .ok result
  | .error error => return .error (describe error)

def readText (path : String) : IO (Except String String) := do
  match ← attempt (IO.FS.readBinFile path) with
  | .error cause => return .error cause
  | .ok bytes =>
    match String.fromUTF8? bytes with
    | some text => return .ok text
    | none => return .error FileFault.notText.message

/-- Puts a text at a path by way of a file beside it. -/
def writeText (path contents : String) : IO (Except String Unit) := do
  let directory := Disk.stagingDirectory path
  match ← attempt (IO.FS.createDirAll directory), Path.fileName? path with
  | .error cause, _ => return .error cause
  | .ok (), none => return .error (FileFault.noFileName path).message
  | .ok (), some name =>
    let staging := Path.join directory ("." ++ name ++ ".tmp")
    match ← attempt (IO.FS.writeFile staging contents) with
    | .error cause => return .error cause
    | .ok () =>
      match ← attempt (IO.FS.rename staging path) with
      | .ok () => return .ok ()
      | .error cause =>
        let _ ← attempt (IO.FS.removeFile staging)
        return .error cause

def fileExists (path : String) : IO Bool := do
  match ← attempt (IO.FS.realPath path) with
  | .ok found => found.pathExists
  | .error _ => return false

/--
The files below a directory, each with the names that lead to it; links to directories stay shut.
-/
partial def namesBelow (directory : String) (above : List String) : IO (List String) := do
  let place ← IO.FS.realPath directory
  let mut names := []
  for entry in ← place.readDir do
    let below := above ++ [entry.fileName]
    let isDirectory ← entry.path.isDir
    match (← entry.path.symlinkMetadata).type with
    | .dir => names := names ++ (← namesBelow (toString entry.path) below)
    | .symlink => if !isDirectory then names := names ++ ["/".intercalate below]
    | _ => names := names ++ ["/".intercalate below]
  return names

def listFiles (root : String) : IO (Except String (List String)) := do
  let absent := Disk.listFilesMessage root (.system .notFound)
  match ← attempt (IO.FS.realPath root) with
  | .error _ => return .error absent
  | .ok place =>
    if ← place.isDir then
      match ← attempt (namesBelow root []) with
      | .ok names => return .ok (names.mergeSort fun a b => a ≤ b)
      | .error cause => return .error ("IO error for operation on " ++ root ++ ": " ++ cause)
    else if ← place.pathExists then return .ok [""]
    else return .error absent

def answer : (request : Request) → IO request.Reply
  | .fileExists path => fileExists path
  | .listFiles root => listFiles root
  | .readText path => readText path
  | .writeText path contents => writeText path contents
  | .runProgram program _ => return .error (program ++ ": programs are not started from here")

/-- Warnings go to standard error; other events are not shown. -/
def announce (event : Event) : IO Unit :=
  if event.level = .warn then IO.eprintln ("WARN " ++ event.message) else return ()

def perform {α : Type} : Run α → IO (Except Failure α)
  | .done result => return .ok result
  | .fail failure => return .error failure
  | .report event rest => do
    announce event
    perform rest
  | .ask request rest => do
    let reply ← answer request
    perform (rest reply)

def call (environment : Option String) (arguments : List String) : IO UInt32 := do
  match Session.ofArguments environment arguments with
  | .error refusal =>
    IO.eprintln (refusal.text (CommandLine.calledName arguments) environment)
    return 1
  | .ok run =>
    match ← perform run with
    | .ok answer =>
      IO.print answer.stdout
      return answer.status.toUInt32
    | .error failure =>
      IO.eprintln failure.message
      return 1

end ProvideIndex.Program

def main (arguments : List String) : IO UInt32 := do
  let environment ← IO.getEnv "PROVMAP_FORMATTER"
  ProvideIndex.Program.call environment (ProvideIndex.CommandLine.programName :: arguments)
