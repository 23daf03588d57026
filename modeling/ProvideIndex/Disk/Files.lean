import ProvideIndex.Disk.Resolve
import ProvideIndex.Path

/-!
# Reading and writing files

What the program asks of a file system. A text is first written to a file of its own beside its
place and then moved there, so that no reader sees a part of it; a move that fails leaves no such
file behind.
-/

namespace ProvideIndex.Disk

def hasEntry (disk : Disk) (path : String) : Bool := (disk.locate .target path).isOk

def isDirectoryAt (disk : Disk) (path : String) : Bool :=
  match disk.locate .target path with
  | .ok location => disk.isDirectory location
  | .error _ => false

def readBytes (disk : Disk) (path : String) : Except FileFault ByteArray := do
  match (disk.entryAt? (← disk.locate .target path)).bind (·.contents?) with
  | some contents => return contents
  | none => throw (.system .isDirectory)

def readText (disk : Disk) (path : String) : Except FileFault String := do
  match String.fromUTF8? (← disk.readBytes path) with
  | some text => return text
  | none => throw .notText

/-- The names in the directory at a location, in ascending order. -/
def children (disk : Disk) (location : Location) : List String :=
  let names := (disk.below location).filterMap fun (names, _) =>
    match names with
    | [name] => some name
    | _ => none
  names.mergeSort fun a b => a ≤ b

/-- Makes one directory. -/
def makeDirectory (disk : Disk) (path : String) : Except FileFault Disk := do
  let last ← disk.lastStep path
  match last.name? with
  | none => throw (.system .alreadyExists)
  | some name =>
    let location := last.directory ++ [name]
    if (disk.entryAt? location).isSome then throw (.system .alreadyExists)
    else return disk.put location .directory

/-- Makes one directory, unless it is there. -/
def ensureDirectory (disk : Disk) (path : String) : Except FileFault Disk :=
  match disk.makeDirectory path with
  | .ok next => .ok next
  | .error fault => if disk.isDirectoryAt path then .ok disk else .error fault

/--
Makes a directory and those on the way to it. What was made stays when a later one cannot be made.
`fuel` bounds the number of directories.
-/
def makeDirectoriesFrom (disk : Disk) (path : String) : Nat → Except FileFault Unit × Disk
  | 0 => (.error (.system .notFound), disk)
  | fuel + 1 =>
    if path.isEmpty then (.ok (), disk)
    else
      match disk.makeDirectory path, Path.parent? path with
      | .ok next, _ => (.ok (), next)
      | .error (.system .notFound), some parent =>
        match disk.makeDirectoriesFrom parent fuel with
        | (.ok (), made) =>
          match made.ensureDirectory path with
          | .ok next => (.ok (), next)
          | .error fault => (.error fault, made)
        | failed => failed
      | .error fault, _ =>
        if disk.isDirectoryAt path then (.ok (), disk) else (.error fault, disk)

def makeDirectories (disk : Disk) (path : String) : Except FileFault Unit × Disk :=
  disk.makeDirectoriesFrom path (path.length + 1)

/-- Writes a file, which need not be there yet. -/
def writeBytes (disk : Disk) (path : String) (contents : ByteArray) : Except FileFault Disk := do
  match ← disk.place .newFile path with
  | .absent directory name => return disk.put (directory ++ [name]) (.file contents)
  | .present location =>
    match disk.entryAt? location with
    | some .directory => throw (.system .isDirectory)
    | some .sink => return disk
    | _ => return disk.put location (.file contents)

def writeText (disk : Disk) (path contents : String) : Except FileFault Disk :=
  disk.writeBytes path contents.toUTF8

/-- Moves a file to a place where there may be another one. -/
def moveFile (disk : Disk) (source target : String) : Except FileFault Disk := do
  let sourceLocation ← disk.locate .entry source
  let last ← disk.lastStep target
  match last.name?, disk.entryAt? sourceLocation with
  | some name, some entry =>
    let location := last.directory ++ [name]
    if last.endsInSlash then throw (.system .notDirectory)
    else if disk.isDirectory location then throw (.system .isDirectory)
    else
      let moved := ((disk.remove sourceLocation).remove location).put location entry
      match disk.modes.lookup sourceLocation with
      | some mode => return moved.setMode location mode
      | none => return moved
  | _, _ => throw (.system .busy)

def removeFile (disk : Disk) (path : String) : Except FileFault Disk := do
  let last ← disk.lastStep path
  match last.name? with
  | none => throw (.system .isDirectory)
  | some name =>
    let location := last.directory ++ [name]
    match disk.entryAt? location with
    | none => throw (.system .notFound)
    | some .directory => throw (.system .isDirectory)
    | some _ =>
      if last.endsInSlash then throw (.system .notDirectory) else return disk.remove location

/-- The directory in which the file for a path is prepared. -/
def stagingDirectory (path : String) : String :=
  match Path.parent? path with
  | some parent => if parent.isEmpty then "." else parent
  | none => "."

/-- Puts a text at a path, with all directories on the way. -/
def writeAtomic (disk : Disk) (path contents : String) : Except FileFault Unit × Disk :=
  let directory := stagingDirectory path
  match disk.makeDirectories directory with
  | (.error fault, made) => (.error fault, made)
  | (.ok (), made) =>
    match Path.fileName? path with
    | none => (.error (.noFileName path), made)
    | some name =>
      let staging := Path.join directory ("." ++ name ++ ".tmp")
      match made.writeText staging contents with
      | .error fault => (.error fault, made)
      | .ok staged =>
        match staged.moveFile staging path with
        | .ok final => (.ok (), final)
        | .error fault =>
          match staged.removeFile staging with
          | .ok cleaned => (.error fault, cleaned)
          | .error _ => (.error fault, staged)

/-- Whether the entry at a path counts as a file: a link does unless it leads to a directory. -/
def countsAsFile (disk : Disk) (path : String) : Entry → Bool
  | .file _ | .program _ => true
  | .directory | .sink => false
  | .link _ => !disk.isDirectoryAt path

/--
The files below the directory at a location, which has the path `root`, in ascending order; links to
directories stay shut.
-/
def filesBelow (disk : Disk) (root : String) (location : Location) : List String :=
  let files := (disk.below location).filterMap fun (names, entry) =>
    let name := "/".intercalate names
    if disk.countsAsFile (Path.join root name) entry then some name else none
  files.mergeSort fun a b => a ≤ b

/-- The files at or below a path; a file itself is listed by the empty name. -/
def listFiles (disk : Disk) (root : String) : Except FileFault (List String) := do
  let itself ← disk.locate .entry root
  let location ← disk.locate .target root
  if disk.isDirectory location then return disk.filesBelow root location
  else if (disk.entryAt? itself).any (disk.countsAsFile root) then return [""]
  else return []

def listFilesMessage (root : String) (fault : FileFault) : String :=
  "IO error for operation on " ++ root ++ ": " ++ fault.message

end ProvideIndex.Disk
