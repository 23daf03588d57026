import ProvideIndex.Disk.Files
import ProvideIndex.Raw

/-!
# Programs

A program is called by a name, with arguments and with an input that it may read. It may change the
disk, and it leaves a status and what it has printed behind, unless a signal kills it.
-/

namespace ProvideIndex

/-- Where the output of a program goes. -/
inductive Output where
  | closed
  /-- To a file, at a place in it. -/
  | file (location : Location) (offset : Nat)
  | elsewhere
  deriving DecidableEq, Repr

/-- What a program is started with. -/
structure Call where
  name : Raw
  arguments : List Raw
  environment : List (Raw × Raw)
  /-- What can be read from the input. -/
  input : Except SystemFault Raw
  output : Output
  /-- The permissions that new files do not get. -/
  mask : Nat

/-- A piece of what a program prints. -/
inductive Printed where
  | output (text : Raw)
  | complaint (text : Raw)

/-- How a program ends. -/
inductive Exit where
  | status (status : UInt8)
  | killed (signal : Nat)
  deriving DecidableEq, Repr

structure Finished where
  exit : Exit
  printed : List Printed
  /-- What is left of the input. -/
  unread : Raw
  disk : Disk

abbrev Program := Call → Disk → Finished

namespace Finished

/-- The status of the program; one that was killed has none but -1. -/
def exitCode (finished : Finished) : Int32 :=
  match finished.exit with
  | .status status => Int32.ofNat status.toNat
  | .killed _ => -1

def stdout (finished : Finished) : Raw :=
  finished.printed.flatMap fun
    | .output text => text
    | .complaint _ => []

def stderr (finished : Finished) : Raw :=
  finished.printed.flatMap fun
    | .output _ => []
    | .complaint text => text

end Finished

/-- The work of a program, on what it will leave behind. -/
abbrev Job := StateM Finished

namespace Job

def print (text : Raw) : Job Unit := modify fun done =>
  { done with printed := done.printed ++ [.output text] }

/-- A line on standard error that begins with the name of the program. -/
def warn (call : Call) (text : Raw) : Job Unit := modify fun done =>
  { done with printed := done.printed ++ [.complaint (call.name ++ ": ".toList ++ text ++ ['\n'])] }

def exitWith (status : UInt8) : Job Unit := modify fun done => { done with exit := .status status }

/-- A warning that makes the status 1. -/
def complain (call : Call) (text : Raw) : Job Unit := do
  warn call text
  exitWith 1

/-- Where a user is sent who got the arguments wrong. -/
def pointToHelp (call : Call) : Job Unit := modify fun done =>
  let tip := "Try \x27".toList ++ call.name ++ " --help\x27 for more information.\n".toList
  { done with exit := .status 1, printed := done.printed ++ [.complaint tip] }

/-- A complaint about the arguments. -/
def misuse (call : Call) (text : Raw) : Job Unit := do
  complain call text
  pointToHelp call

/-- Takes all that is left of the input. -/
def readAll (call : Call) : Job (Except SystemFault Raw) := modifyGet fun done =>
  (call.input.map fun _ => done.unread, { done with unread := [] })

def disk : Job Disk := return (← get).disk

def setDisk (disk : Disk) : Job Unit := modify fun done => { done with disk := disk }

/-- Notes at the end that nothing could be printed where the output is closed. -/
def closeOutput (call : Call) : Job Unit := do
  let done ← get
  if call.output = .closed && !done.stdout.isEmpty then
    set { done with printed := [.complaint done.stderr] }
    complain call "write error: Bad file descriptor".toList

def program (job : Call → Job Unit) : Program := fun call disk =>
  let work : Job Unit := do
    job call
    closeOutput call
  (StateT.run work ⟨.status 0, [], call.input.toOption.getD [], disk⟩).2

end Job

namespace Program

/-- A program that does nothing but end. -/
def quiet (status : UInt8) : Program := Job.program fun _ => Job.exitWith status

/-! ## Options -/

/-- What the arguments of a program ask for. -/
structure Options where
  letters : List Char
  operands : List Raw

/-- An option that a program does not have. -/
inductive Unknown where
  | letter (letter : Char)
  | name (name : Raw)
  /-- A name that could be one of several. -/
  | unclear (name : Raw) (names : List String)
  /-- A name that takes no value. -/
  | value (name : String)
  /-- A name that takes a value and has none. -/
  | noValue (name : String)

def Unknown.text : Unknown → Raw
  | letter c => "invalid option -- \x27".toList ++ c :: ['\x27']
  | name text => "unrecognized option \x27".toList ++ text ++ ['\x27']
  | unclear text names =>
    "option \x27".toList ++ text ++ "\x27 is ambiguous; possibilities:".toList ++
      names.flatMap fun name => (" \x27--" ++ name ++ "\x27").toList
  | value text => ("option \x27--" ++ text ++ "\x27 doesn\x27t allow an argument").toList
  | noValue text => ("option \x27--" ++ text ++ "\x27 requires an argument").toList

/-- The letter of the options that ask for nothing but an account of the program. -/
def accountLetter : Char := '?'

/-- The names of these options. Such an account is not kept here, so that it is empty. -/
def accountNames : List (String × Char) := [("help", accountLetter), ("version", accountLetter)]

/-- Whether the only argument asks for an account of the program. -/
def isAccount (arguments : List Raw) : Bool :=
  [["--help".toList], ["--version".toList]].contains arguments

/-- The letter of a long name, which may be shortened as long as it stays clear. -/
def longOption (names : List (String × Char)) (argument : Raw) :
    Except Unknown (String × Char) :=
  let name := (argument.drop 2).takeWhile (· != '=')
  match names.find? fun entry => entry.1.toList == name with
  | some entry => .ok entry
  | none =>
    match names.filter fun entry => name.isPrefixOf entry.1.toList with
    | [] => .error (.name argument)
    | entry :: entries =>
      if entries.all fun other => other.2 == entry.2 then .ok entry
      else .error (.unclear argument ((entry :: entries).map (·.1)))

/--
Parts options from operands. Options may stand between operands, and after `--` there are none. One
that asks for an account of the program ends the search.
-/
def options (letters : List Char) (names : List (String × Char)) :
    List Raw → Except Unknown Options
  | [] => .ok ⟨[], []⟩
  | argument :: arguments =>
    match argument with
    | ['-', '-'] => .ok ⟨[], arguments⟩
    | '-' :: '-' :: text => do
      let (name, letter) ← longOption names argument
      if text.contains '=' then throw (.value name)
      else if letter == accountLetter then return ⟨[letter], []⟩
      else
        let more ← options letters names arguments
        return { more with letters := letter :: more.letters }
    | '-' :: c :: rest =>
      match (c :: rest).find? fun c => !letters.contains c with
      | some unknown => .error (.letter unknown)
      | none => do
        let more ← options letters names arguments
        return { more with letters := c :: rest ++ more.letters }
    | _ => do
      let more ← options letters names arguments
      return { more with operands := argument :: more.operands }

end Program

end ProvideIndex
