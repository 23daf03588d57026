import ProvideIndex.Shell.Listing

/-!
# Starting programs from a shell

What is no command of the shell is a program. It is looked for at its path or in the search path,
gets the open files of the shell, and is waited for.
-/

namespace ProvideIndex.Shell.Starting

open Program (Started)

/-- What the file at a path starts; a text that is no script of another program is read by `sh`. -/
def startAt (programs : Programs) (disk : Disk) (name : Raw) (arguments : List Raw) (path : Raw) :
    Except SystemFault Started :=
  match Program.start programs disk path name arguments with
  | .error .noProgram =>
    match programs "sh" with
    | some shell => .ok ⟨shell, "/bin/sh".toList, path :: arguments⟩
    | none => .error .noProgram
  | result => result

/-- What the first of some paths starts at which there is a program. -/
def startAny (start : Raw → Except SystemFault Started) (fault : SystemFault) :
    List Raw → Except SystemFault Started
  | [] => .error fault
  | path :: paths =>
    match start path with
    | .ok started => .ok started
    | .error cause =>
      startAny start (if cause = .notFound ∨ cause = .notDirectory then fault else cause) paths

/-- What a name starts. -/
def find (programs : Programs) (state : State) (usual : Bool) (name : Raw) (arguments : List Raw) :
    Except SystemFault Started :=
  let start := startAt programs state.disk name arguments
  if name.contains '/' then start name
  else
    match (if usual then some Program.usualDirectories else state.value? "PATH".toList) with
    | some directories => startAny start .notFound (Program.searched directories name)
    | none => .error .notFound

/-- The status of a command that could not be started. -/
def failureStatus (fault : SystemFault) : Nat :=
  if fault = .notFound ∨ fault = .notDirectory ∨ fault = .tooManyLinks ∨ fault = .nameTooLong then
    127
  else 126

/-- Runs a program on the open files of the shell. -/
def run (started : Started) : Act Exit := do
  let state ← get
  let input ← Act.input 0
  let output ← Act.output 1
  let finished := started.run state.environment input output state.mask state.disk
  Act.consume 0 ((input.toOption.getD []).length - finished.unread.length)
  let directory := state.disk.workingDirectory
  modify fun now => { now with disk := { finished.disk with workingDirectory := directory } }
  finished.printed.forM fun
    | .output text => discard (Act.write 1 text)
    | .complaint text => discard (Act.write 2 text)
  return finished.exit

/-- Runs what a name starts, and waits for it. -/
def startAndWait (programs : Programs) (usual : Bool) (name : Raw) (arguments : List Raw) :
    Act Unit := do
  match find programs (← get) usual name arguments with
  | .error fault => do
    Listing.warnOfProgram name fault
    Act.setStatus (failureStatus fault)
  | .ok started => do
    match ← run started with
    | .status status => Act.setStatus status.toNat
    | .killed signal => Act.setStatus (← Act.reportKilled signal)
  Signals.noteChild

/-- Runs a program and waits for it. One that is not in the search path is not started at all. -/
def runAndWait (programs : Programs) (usual : Bool) (name : Raw) (arguments : List Raw) :
    Act Unit := do
  if name.contains '/' then startAndWait programs usual name arguments
  else
    match Listing.search (← get) usual name with
    | .found _ => do
      Listing.noteFound name
      startAndWait programs usual name arguments
    | .failed fault => do
      Listing.warnOfProgram name fault
      Act.setStatus 127

/-- Lets a program take the place of the shell. -/
def exec (programs : Programs) : List Raw → Act Nat
  | [] => return 0
  | name :: arguments => do
    match find programs (← get) false name arguments with
    | .error fault => do
      Listing.warnOfProgram name fault
      Act.setStatus (failureStatus fault)
      throw .exit
    | .ok started => do
      match ← run started with
      | .status status => do
        Act.setStatus status.toNat
        throw (.replaced none)
      | .killed signal => do
        Act.setStatus (128 + signal)
        throw (.replaced (some signal))

end ProvideIndex.Shell.Starting
