import ProvideIndex.Disk.Basic
import ProvideIndex.Disk.Fault
import ProvideIndex.Text.Split

/-!
# Finding what a path names

A path is walked from the root or from the working directory, name by name. A link on the way is
replaced by the path that it holds; more than `maxLinks` of them are refused. What happens at the
last name depends on the aim of the walk.
-/

namespace ProvideIndex

/-- A path cut into names. A slash at the end asks for a directory. -/
structure PathNames where
  isAbsolute : Bool
  names : List String
  endsInSlash : Bool
  deriving DecidableEq, Repr

namespace PathNames

def ofText (path : String) : PathNames where
  isAbsolute := Text.startsWith ['/'] path.toList
  names := (Text.split '/' path.toList).filterMap fun name =>
    if name.isEmpty then none else some (String.ofList name)
  endsInSlash := Text.endsWith ['/'] path.toList

/-- The names with the empty step that a slash at the end asks for. -/
def steps (path : PathNames) : List String :=
  if path.endsInSlash then path.names ++ [""] else path.names

end PathNames

/-- What a path names: an entry, or a name that a directory does not hold. -/
inductive Place where
  | present (location : Location)
  | absent (directory : Location) (name : String)
  deriving DecidableEq, Repr

/-- What a walk is after. -/
inductive Aim where
  /-- The entry itself, which may be a link. -/
  | entry
  /-- What the entry leads to. -/
  | target
  /-- A file that may be made there; so a slash may not follow its name, even in a link. -/
  | newFile
  deriving DecidableEq, Repr

namespace Disk

def maxLinks : Nat := 40

/-- The most bytes that a name has. -/
def maxNameLength : Nat := 255

/-- The most bytes that a path has. -/
def maxPathLength : Nat := 4095

/-- Walks names; `expand` goes on where a link has been replaced. -/
def walkNames (disk : Disk) (aim : Aim)
    (expand : Location → List String → Except SystemFault Place) :
    Location → List String → Except SystemFault Place
  | here, [] => .ok (.present here)
  | here, name :: rest =>
    if !disk.isDirectory here then .error .notDirectory
    else if name == "" || name == "." then walkNames disk aim expand here rest
    else if name == ".." then walkNames disk aim expand here.dropLast rest
    else if aim == .newFile && !rest.isEmpty && rest.all (·.isEmpty) then .error .isDirectory
    else if maxNameLength < name.utf8ByteSize then .error .nameTooLong
    else
      let next := here ++ [name]
      match disk.entryAt? next with
      | none => if rest.isEmpty then .ok (.absent here name) else .error .notFound
      | some (.link target) =>
        if rest.isEmpty && aim == .entry then .ok (.present next)
        else
          let path := PathNames.ofText target
          expand (if path.isAbsolute then [] else here) (path.steps ++ rest)
      | some _ => walkNames disk aim expand next rest

/-- Walks names, with a limit on the links on the way. -/
def walk (disk : Disk) (aim : Aim) :
    Nat → Location → List String → Except SystemFault Place
  | 0 => walkNames disk aim fun _ _ => .error .tooManyLinks
  | links + 1 => walkNames disk aim (walk disk aim links)

/-- The names of a path that can be passed on. -/
def pathNames (path : String) : Except FileFault PathNames :=
  if path.toList.contains '\x00' then .error .nullInPath
  else if path.isEmpty then .error (.system .notFound)
  else if maxPathLength < path.utf8ByteSize then .error (.system .nameTooLong)
  else .ok (PathNames.ofText path)

def origin (disk : Disk) (path : PathNames) : Location :=
  if path.isAbsolute then [] else disk.workingDirectory

def walkFrom (disk : Disk) (aim : Aim) (path : PathNames) (names : List String) :
    Except FileFault Place :=
  match disk.walk aim maxLinks (disk.origin path) names with
  | .ok place => .ok place
  | .error fault => .error (.system fault)

/-- The place that a path names. -/
def place (disk : Disk) (aim : Aim) (path : String) : Except FileFault Place := do
  let names ← pathNames path
  disk.walkFrom aim names names.steps

/-- The location of the entry that a path names. -/
def locate (disk : Disk) (aim : Aim) (path : String) : Except FileFault Location := do
  match ← disk.place aim path with
  | .present location => return location
  | .absent _ _ => throw (.system .notFound)

/-- Where the last step of a path begins, and that step, unless it is a name. -/
structure LastStep where
  directory : Location
  /-- The last name; the steps `.` and `..` and the root have none. -/
  name? : Option String
  endsInSlash : Bool
  deriving DecidableEq, Repr

/-- Walks all but the last step of a path. -/
def lastStep (disk : Disk) (path : String) : Except FileFault LastStep := do
  let names ← pathNames path
  match names.names.getLast? with
  | none => return ⟨[], none, names.endsInSlash⟩
  | some last =>
    match ← disk.walkFrom .target names names.names.dropLast with
    | .absent _ _ => throw (.system .notFound)
    | .present directory =>
      if !disk.isDirectory directory then throw (.system .notDirectory)
      else if last == "." || last == ".." then return ⟨directory, none, names.endsInSlash⟩
      else if maxNameLength < last.utf8ByteSize then throw (.system .nameTooLong)
      else return ⟨directory, some last, names.endsInSlash⟩

end Disk

end ProvideIndex
