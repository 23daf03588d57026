import ProvideIndex.Programs.Start
import ProvideIndex.Shell.Options
import ProvideIndex.Shell.Redirecting

/-!
# The working directory

The shell remembers its working directory by the path by which it came there. Steps back are taken
along that path, not along the links that may be on it.
-/

namespace ProvideIndex.Shell.Directory

/-- A path without links to the working directory. -/
def physical (disk : Disk) : Raw :=
  Raw.encode ("/" ++ "/".intercalate disk.workingDirectory)

/-- The names of a path, with steps back taken. -/
def names (before : List Raw) (path : Raw) : List Raw :=
  (Text.split '/' path).foldl (fun names name =>
    if name.isEmpty || name == ['.'] then names
    else if name == ['.', '.'] then names.dropLast
    else names ++ [name]) before

/-- The path that comes of going on with another path. -/
def joined (base path : Raw) : Raw :=
  let start := if path.head? == some '/' then [] else names [] base
  '/' :: ['/'].intercalate (names start path)

def isDirectory (disk : Disk) (path : Raw) : Bool := disk.isDirectoryAt (Raw.decode path)

/-- Goes to a directory, if it is one. -/
def move (isPhysical : Bool) (path : Raw) : Act Bool := do
  let state ← get
  let target := if isPhysical then path else joined state.directory path
  match state.disk.locate .target (Raw.decode target) with
  | .error _ => return false
  | .ok location =>
    if !state.disk.isDirectory location then return false
    else
      let disk := { state.disk with workingDirectory := location }
      let directory := if isPhysical then physical disk else target
      Act.assign "OLDPWD".toList state.directory true
      Act.assign "PWD".toList directory true
      modify fun state => { state with disk := disk, directory := directory }
      return true

/-- Whether a path is taken as it is, without a look at the search path. -/
def isPlain (path : Raw) : Bool :=
  path.head? == some '/' ||
    [['.'], ['.', '.']].contains (path.takeWhile (· != '/'))

/-- The paths in which a directory may be meant, each with whether it is shown. -/
def candidates (state : State) (path : Raw) : List (Raw × Bool) :=
  match (if isPlain path then none else state.value? "CDPATH".toList) with
  | some directories =>
    (Text.split ':' directories).zip (Program.searched directories path) |>.map fun (base, full) =>
      (full, !base.isEmpty)
  | none => []

def change (arguments : List Raw) : Act Nat := do
  let (found, operands) ← Options.part "LP" arguments
  let isPhysical := (found.getLast?.map (·.letter)) == some 'P'
  let state ← get
  let isBack := operands.head? == some ['-']
  let target := match operands with
    | [] => (state.value? "HOME".toList).getD []
    | path :: _ => if isBack then (state.value? "OLDPWD".toList).getD [] else path
  let path := if target.isEmpty then ['.'] else target
  let found := (candidates state path).find? fun entry => isDirectory state.disk entry.1
  let (path, isShown) := found.getD (path, false)
  if ← move isPhysical path then
    if isBack || isShown then Act.print ((← get).directory ++ ['\n'])
    return 0
  else Act.fail ("can\x27t cd to ".toList ++ target)

def printCurrent (arguments : List Raw) : Act Nat := do
  let (found, _) ← Options.part "LP" arguments
  let state ← get
  let isPhysical := (found.getLast?.map (·.letter)) == some 'P'
  Act.print ((if isPhysical then physical state.disk else state.directory) ++ ['\n'])
  return 0

end ProvideIndex.Shell.Directory
