import ProvideIndex.Programs.Basic

/-!
# Starting programs

What the file at a path starts: a program of the machine, or a script, which names the program that
is to read it on its first line. A bare name is looked for in the directories of a search path.
-/

namespace ProvideIndex

/-- The programs of a machine, by their names. -/
abbrev Programs := String → Option Program

namespace Program

/-- A program with the name and the arguments that it is started with. -/
structure Started where
  program : Program
  name : Raw
  arguments : List Raw

def Started.run (started : Started) (environment : List (Raw × Raw))
    (input : Except SystemFault Raw) (output : Output) (mask : Nat) (disk : Disk) : Finished :=
  started.program ⟨started.name, started.arguments, environment, input, output, mask⟩ disk

/-- The file at a path that may be run, with its location. -/
def runnable (disk : Disk) (path : Raw) : Except SystemFault (Location × Entry) := do
  match disk.locate .target (Raw.decode path) with
  | .error (.system fault) => throw fault
  | .error _ => throw .notFound
  | .ok location =>
    match disk.entryAt? location with
    | some (.file contents) =>
      if Nat.land (disk.mode location) 0o111 = 0 then throw .accessDenied
      else return (location, .file contents)
    | some (.program name) =>
      if Nat.land (disk.mode location) 0o111 = 0 then throw .accessDenied
      else return (location, .program name)
    | _ => throw .accessDenied

/-- The path of the program that reads a script, and the argument that goes with it. -/
def interpreter? (text : Raw) : Option (Raw × Option Raw) :=
  match text.takeWhile (· != '\n') with
  | '#' :: '!' :: line =>
    let trimmed := ((line.dropWhile Raw.isBlank).reverse.dropWhile Raw.isBlank).reverse
    let path := trimmed.takeWhile fun c => !Raw.isBlank c
    let argument := (trimmed.drop path.length).dropWhile Raw.isBlank
    if path.isEmpty then none else some (path, if argument.isEmpty then none else some argument)
  | _ => none

/-- How many scripts may be read by one another. -/
def maxScripts : Nat := 5

/-- What the file at a path starts. `fuel` bounds the number of scripts that are read. -/
def startFrom (programs : Programs) (disk : Disk) (path name : Raw) (arguments : List Raw) :
    Nat → Except SystemFault Started
  | 0 => .error .tooManyLinks
  | fuel + 1 => do
    match ← runnable disk path with
    | (_, .program known) =>
      match programs known with
      | some program => return ⟨program, name, arguments⟩
      | none => throw .noProgram
    | (_, entry) =>
      let text := Raw.ofBytes ((entry.contents?.getD .empty).toList)
      match interpreter? text with
      | some (reader, argument) =>
        startFrom programs disk reader reader (argument.toList ++ path :: arguments) fuel
      | none => throw .noProgram

def start (programs : Programs) (disk : Disk) (path name : Raw) (arguments : List Raw) :
    Except SystemFault Started :=
  startFrom programs disk path name arguments maxScripts

/-- The paths at which a name is looked for. -/
def searched (directories name : Raw) : List Raw :=
  (Text.split ':' directories).map fun directory =>
    if directory.isEmpty then name else directory ++ '/' :: name

def usualDirectories : Raw := "/usr/local/sbin:/usr/local/bin:/usr/sbin:/usr/bin:/sbin:/bin".toList

end Program

end ProvideIndex
