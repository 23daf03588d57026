import ProvideIndex.Shell.Directory
import ProvideIndex.Shell.Reading
import ProvideIndex.Shell.Signals

/-!
# What a shell says about itself

Lists of variables, aliases and traps, in a form that a shell would read back, and what a name means
as a command.
-/

namespace ProvideIndex.Shell

/-- Single quotes around a text; those in it stand between double quotes. `fuel` bounds its
length. -/
def quotedFrom : Nat → Raw → Raw
  | 0, _ => []
  | fuel + 1, text =>
    let (plain, rest) := text.span (· != '\x27')
    let marks := rest.takeWhile (· == '\x27')
    let start := '\x27' :: plain ++ ['\x27']
    if marks.isEmpty then start
    else
      let after := rest.drop marks.length
      start ++ '\x22' :: marks ++ '\x22' :: (if after.isEmpty then [] else quotedFrom fuel after)

def quoted (text : Raw) : Raw := quotedFrom (text.length + 1) text

/-! ## Commands of the shell -/

/-- A command that the shell knows. -/
structure Builtin where
  name : String
  /-- Whether mistakes in it end the shell. -/
  isSpecial : Bool
  /-- Whether its arguments may be assignments. -/
  takesAssignments : Bool

def builtins : List Builtin :=
  ([".", ":", "break", "continue", "eval", "exec", "exit", "return", "set", "shift", "times",
    "trap", "unset"].map fun name => ⟨name, true, false⟩) ++
  (["export", "local", "readonly"].map fun name => ⟨name, true, true⟩) ++
  ⟨"alias", false, true⟩ ::
  (["[", "bg", "cd", "chdir", "command", "echo", "false", "fg", "getopts", "hash", "jobs", "kill",
    "printf", "pwd", "read", "test", "true", "type", "ulimit", "umask", "unalias", "wait"].map
      fun name => ⟨name, false, false⟩)

def builtin? (name : Raw) : Option Builtin :=
  builtins.find? fun builtin => builtin.name.toList == name

namespace Listing

/-! ## Lists -/

def ascending {α : Type} (entries : List (Raw × α)) : List (Raw × α) :=
  entries.mergeSort fun a b => Raw.isAtMost a.1 b.1

/-- Prints the variables that satisfy `p`, each after a command. -/
def printBindings (command : Raw) (withUnset : Bool) (p : Variable → Bool) : Act Unit := do
  let start := if command.isEmpty then [] else command ++ [' ']
  (ascending (← get).bindings).forM fun (name, known) =>
    if !p known then return
    else
      match known.value with
      | some value => Act.print (start ++ name ++ '=' :: quoted value ++ ['\n'])
      | none => if withUnset then Act.print (start ++ name ++ ['\n']) else return

/-- Names in the order of a table with a number of rows, in which they stand by their sums. -/
def inRows (rows : Nat) (names : List Raw) : List Raw :=
  let row (name : Raw) : Nat :=
    (name.foldl (fun sum c => sum + c.toNat) (16 * (name.head?.map Char.toNat).getD 0)) % rows
  names.mergeSort fun a b => row a ≤ row b

def printAlias (name value : Raw) : Act Unit := Act.print (name ++ '=' :: quoted value ++ ['\n'])

def traps : Act Unit := do
  let entries := (← get).traps.mergeSort fun a b => a.1 ≤ b.1
  entries.forM fun (signal, action) =>
    Act.print ("trap -- ".toList ++ quoted action ++ ' ' :: (Signals.name signal).toList ++ ['\n'])

/-! ## Programs -/

/-- What is known of a name that is looked for in the search path. -/
inductive Search where
  | found (path : Raw)
  | failed (fault : SystemFault)

/-- Whether an entry can be a program. -/
def isProgramFile (disk : Disk) (path : Raw) : Except FileFault Bool := do
  match disk.entryAt? (← disk.locate .target (Raw.decode path)) with
  | some (.file _) | some (.program _) => return true
  | _ => return false

/-- Looks for a program at some paths, one after the other. -/
def searchAt (disk : Disk) (fault : SystemFault) : List Raw → Search
  | [] => .failed fault
  | path :: paths =>
    match isProgramFile disk path with
    | .ok true => .found path
    | .ok false => searchAt disk .accessDenied paths
    | .error (.system cause) =>
      searchAt disk (if cause = .notFound ∨ cause = .notDirectory then fault else cause) paths
    | .error _ => searchAt disk fault paths

/-- Looks for a program in the search path. -/
def search (state : State) (usual : Bool) (name : Raw) : Search :=
  match (if usual then some Program.usualDirectories else state.value? "PATH".toList) with
  | some paths => searchAt state.disk .notFound (Program.searched paths name)
  | none => .failed .notFound

/-- Complains about a program that cannot be started. -/
def warnOfProgram (name : Raw) (fault : SystemFault) : Act Unit :=
  let cause := if fault = .notFound ∨ fault = .notDirectory then "not found" else fault.text
  Act.warn (name ++ ": ".toList ++ cause.toList)

/-- Notes that a program was found in the search path. -/
def noteFound (name : Raw) : Act Unit := modify fun state =>
  if state.found.contains name then state else { state with found := state.found ++ [name] }

/-! ## Names -/

/-- The path of a program that a name means. -/
def programPath? (state : State) (usual : Bool) (name : Raw) : Option Raw :=
  if name.contains '/' then
    if (state.disk.locate .target (Raw.decode name)).isOk then some name else none
  else
    match search state usual name with
    | .found path => some path
    | .failed _ => none

/-- Says what a name means as a command, at length or in a form that can be used. -/
def describe (atLength usual : Bool) (name : Raw) : Act Nat := do
  let state ← get
  let say (text : String) (short : Raw) : Act Nat := do
    Act.print ((if atLength then name ++ text.toList else short) ++ ['\n'])
    return 0
  match Keyword.ofText? name, state.aliases.lookup name with
  | some _, _ => say " is a shell keyword" name
  | none, some value =>
    if atLength then
      Act.print (name ++ " is an alias for ".toList ++ value ++ ['\n'])
    else
      Act.print "alias ".toList
      printAlias name value
    return 0
  | none, none =>
    if (state.functions.lookup name).isSome then say " is a shell function" name
    else
      match builtin? name with
      | some builtin =>
        say (if builtin.isSpecial then " is a special shell builtin" else " is a shell builtin")
          name
      | none =>
        match programPath? state usual name with
        | some path =>
          let verb := if state.found.contains name then " is a tracked alias for " else " is "
          say (verb ++ String.ofList path) path
        | none => do
          if atLength then Act.print (name ++ ": not found\n".toList)
          return 127

end Listing

end ProvideIndex.Shell
