import ProvideIndex.Programs.Basic
import ProvideIndex.Shell.Tree

/-!
# The state of a shell

A shell has a disk and open files in common with the shells that it starts for parts of a script.
All else belongs to one shell alone, and is as before when a part ends.
-/

namespace ProvideIndex.Shell

/-! ## Open files -/

/-- What an open file leads to. -/
inductive Target where
  | sink
  /-- To the one who called the first shell, for its results or for complaints. -/
  | caller (complains : Bool)
  /-- A text that is written at its end and read from its start. -/
  | pipe (number : Nat)
  | file (location : Location)
  | directory
  deriving DecidableEq, Repr

/-- What was written to a pipe and has not been read. -/
structure Pipe where
  front : Raw
  /-- What was written after it, the last piece first. -/
  back : List Raw

namespace Pipe

def ofText (text : Raw) : Pipe := ⟨text, []⟩

def text (pipe : Pipe) : Raw := pipe.front ++ pipe.back.reverse.flatten

def write (pipe : Pipe) (text : Raw) : Pipe := { pipe with back := text :: pipe.back }

/-- The pipe with all of its text in front. -/
def gathered (pipe : Pipe) : Pipe := if pipe.back.isEmpty then pipe else ofText pipe.text

def drop (pipe : Pipe) (count : Nat) : Pipe := ofText (pipe.text.drop count)

end Pipe

/-- A file that has been opened, with the place that reading or writing has come to. -/
structure Channel where
  target : Target
  offset : Nat
  appends : Bool
  canRead : Bool
  canWrite : Bool
  deriving Repr

/-! ## Options -/

/-- An option, with the letter by which it is set. -/
structure Flag where
  letter : Option Char
  name : String

/-- All options, in the order in which they are listed. -/
def flags : List Flag :=
  [⟨some 'e', "errexit"⟩, ⟨some 'f', "noglob"⟩, ⟨some 'I', "ignoreeof"⟩,
    ⟨some 'i', "interactive"⟩, ⟨some 'm', "monitor"⟩, ⟨some 'n', "noexec"⟩, ⟨some 's', "stdin"⟩,
    ⟨some 'x', "xtrace"⟩, ⟨some 'v', "verbose"⟩, ⟨some 'V', "vi"⟩, ⟨some 'E', "emacs"⟩,
    ⟨some 'C', "noclobber"⟩, ⟨some 'a', "allexport"⟩, ⟨some 'b', "notify"⟩,
    ⟨some 'u', "nounset"⟩, ⟨some 'p', "privileged"⟩, ⟨none, "nolog"⟩, ⟨none, "debug"⟩]

/-! ## Shells -/

structure Variable where
  value : Option Raw
  isExported : Bool
  isReadOnly : Bool
  deriving Repr

/-- What has to be left before commands are run again. -/
inductive Skip where
  /-- Loops, the last of which may go on. -/
  | loops (count : Nat) (goesOn : Bool)
  /-- A function or a script. -/
  | function
  deriving DecidableEq, Repr

/-- A signal, or the end of the shell, by its number. -/
abbrev Signal := Nat

/-- What is put back when a function ends. -/
structure Hidden where
  bindings : List (Raw × Option Variable)
  options : Option (List String)

structure State where
  disk : Disk
  channels : Array Channel
  pipes : Array Pipe
  /-- What the caller of the first shell got, the last piece first. -/
  given : List Printed
  /-- The signals that were sent to the first shell and are to be dealt with. -/
  pending : List Signal
  /-- What the first shell does about signals. -/
  firstTraps : List (Signal × Raw)
  /-- How many shells were started in the background. -/
  jobs : Nat
  /-- The name in front of complaints. -/
  name : Raw
  /-- The command that complains. -/
  command : Option Raw
  line : Nat
  /-- The line that the script has been read to. -/
  readLine : Nat
  bindings : List (Raw × Variable)
  /-- What local variables hide, for each function that is being run, the last one first. -/
  hidden : List Hidden
  functions : List (Raw × Command)
  aliases : List (Raw × Raw)
  documents : Documents
  arguments : List Raw
  /-- The names of the options that are set. -/
  options : List String
  status : Nat
  /-- The status before a trap, with which the shell ends if the trap does not say otherwise. -/
  savedStatus : Option Nat
  /-- The status of the last command whose output was used, if there was one. -/
  outputStatus : Nat
  /-- How many loops are being run. -/
  loops : Nat
  /-- How many functions are being run. -/
  calls : Nat
  skip : Option Skip
  traps : List (Signal × Raw)
  /-- Where descriptors lead. -/
  descriptors : List (Nat × Nat)
  /-- What a command of the shell has printed and what is not yet written. -/
  printed : Raw
  /-- The permissions that new files do not get. -/
  mask : Nat
  /-- The path of the working directory as it was given. -/
  directory : Raw
  /-- The shells in the background, the last one first: their numbers and what they left. -/
  backgroundShells : List (Nat × Nat)
  /-- Which argument is looked at next for options, and how much of the one before it was. -/
  optionIndex : Nat
  optionOffset : Option Nat
  /-- The programs that were found in the search path. -/
  found : List Raw
  /-- Whether this is a shell for a part of a script. -/
  isPart : Bool

/-- Why commands are not gone on with. -/
inductive Stop where
  /-- The shell ends with its status. -/
  | exit
  /-- A mistake, which ends the shell unless a command takes it up. -/
  | failure
  /-- A program took the place of the shell; a signal may have killed it. -/
  | replaced (signal : Option Signal)
  /-- The first shell was killed. -/
  | killed (signal : Signal)
  /-- There was too much to do. -/
  | exhausted
  deriving DecidableEq, Repr

/-- What a shell does, on its state. -/
abbrev Act := ExceptT Stop (StateM State)

/-- How commands and texts are run, with less left to do. -/
structure Runner where
  /-- Runs a command; one that is tested may fail. -/
  command : (isTested : Bool) → Command → Act Unit
  /-- Runs a text as a script; the status of its last command is the result. -/
  script : (isTested : Bool) → Raw → Act Nat
  /-- The programs of the machine. -/
  program : String → Option Program
  /-- How often a loop may be run. -/
  most : Nat

/-- The state of a shell after a part of a script was run in a shell of its own. -/
def State.after (before part : State) : State :=
  { before with
    disk := { part.disk with workingDirectory := before.disk.workingDirectory }
    channels := part.channels
    pipes := part.pipes
    given := part.given
    pending := part.pending
    jobs := part.jobs }

namespace Act

/-- Runs `act`, and after it `last`, even if `act` ends early. -/
def ensuring {α : Type} (act : Act α) (last : Act Unit) : Act α := fun state =>
  match act.run state with
  | (.ok result, after) =>
    match last.run after with
    | (.ok (), final) => (.ok result, final)
    | (.error stop, final) => (.error stop, final)
  | (.error stop, after) =>
    match last.run after with
    | (.ok (), final) => (.error stop, final)
    | (.error stop, final) => (.error stop, final)

/-- Runs `act`; whether it ended early is a result. -/
def attempt {α : Type} (act : Act α) : Act (Except Stop α) := fun state =>
  let (result, after) := act.run state
  (.ok result, after)

def setStatus (status : Nat) : Act Unit := modify fun state => { state with status := status }

end Act

end ProvideIndex.Shell
