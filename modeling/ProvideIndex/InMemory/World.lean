import ProvideIndex.InMemory.Machine
import ProvideIndex.Run

/-!
# Requests on a disk in memory

Every request is answered from a disk. Programs are those that the disk holds; a bare name is looked
for in the usual directories.
-/

namespace ProvideIndex.InMemory

/-! ## Programs -/

/-- What programs get to know of the machine. -/
def environment : List (Raw × Raw) :=
  [("HOME".toList, "/root".toList), ("PATH".toList, Program.usualDirectories)]

/-- What the file at the first of some paths starts, unless all refuse or one cannot be run. -/
def startAny (start : Raw → Except SystemFault Program.Started) (fault : SystemFault) :
    List Raw → Except SystemFault Program.Started
  | [] => .error fault
  | path :: paths =>
    match start path with
    | .error .notFound | .error .notDirectory => startAny start fault paths
    | .error .accessDenied => startAny start .accessDenied paths
    | result => result

/-- What a name starts: the file at a path, or a program of the usual directories. -/
def find (disk : Disk) (name : Raw) (arguments : List Raw) :
    Except SystemFault Program.Started :=
  let start (path : Raw) := Program.start (programs maxShells) disk path name arguments
  if name.contains '/' then start name
  else if name.isEmpty then .error .notFound
  else startAny start .notFound (Program.searched Program.usualDirectories name)

/-- The permissions that new files do not get. -/
def mask : Nat := 0o022

def runProgram (name : String) (arguments : List String) (disk : Disk) :
    Except String ProgramOutput × Disk :=
  if (name :: arguments).any fun text => text.toList.contains '\x00' then
    (.error "nul byte found in provided data", disk)
  else
    match find disk (Raw.encode name) (arguments.map Raw.encode) with
    | .error fault => (.error fault.message, disk)
    | .ok started =>
      let finished := started.run environment (.ok []) .elsewhere mask disk
      (.ok ⟨finished.exitCode, Raw.decode finished.stdout, Raw.decode finished.stderr⟩,
        finished.disk)

/-! ## Requests -/

/-- A result of the disk with the text of its fault. -/
def described {α : Type} : Except FileFault α → Except String α
  | .ok result => .ok result
  | .error fault => .error fault.message

def answer (request : Request) (disk : Disk) : request.Reply × Disk :=
  match request with
  | .fileExists path => (disk.hasEntry path, disk)
  | .listFiles root =>
    match disk.listFiles root with
    | .ok names => (.ok names, disk)
    | .error fault => (.error (Disk.listFilesMessage root fault), disk)
  | .readText path => (described (disk.readText path), disk)
  | .writeText path contents =>
    let (result, next) := disk.writeAtomic path contents
    (described result, next)
  | .runProgram program arguments => runProgram program arguments disk

def world : World Empty Disk := .reliable answer

end ProvideIndex.InMemory
