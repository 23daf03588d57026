import ProvideIndex.Shell.Expansion

/-!
# Redirections

A redirection opens a file, copies a descriptor or provides a text, and connects a descriptor with
it. After the command the descriptors lead again to where they led before.
-/

namespace ProvideIndex.Shell.Redirect

/-- A redirection whose words have been expanded. -/
inductive Ready where
  | file (descriptor : Nat) (opening : Opening) (path : Raw)
  | copy (descriptor : Nat) (source : Option Nat)
  | document (descriptor number : Nat)

def Ready.descriptor : Ready → Nat
  | file descriptor _ _ => descriptor
  | copy descriptor _ => descriptor
  | document descriptor _ => descriptor

variable (run : Runner)

/-- A complaint about a source that is no descriptor; it counts as one about the script. -/
def failBadSource {α : Type} : Act α := do
  modify fun state => { state with line := state.readLine }
  Act.fail "Syntax error: Bad fd number".toList

/-- Expands the words of a redirection. -/
def ready : Redirection → Act Ready
  | .file descriptor opening path => do
    return .file descriptor opening (← Expand.text run .text path)
  | .copy descriptor source => do
    match ← Expand.text run .text source with
    | ['-'] => return .copy descriptor none
    | [c] =>
      if c.isDigit then return .copy descriptor (some (Text.digitValue c))
      else failBadSource
    | _ => failBadSource
  | .document descriptor number => return .document descriptor number

/-- The text of a fault; `missing` stands for a file or a directory that is not there. -/
def causeText (missing : String) : FileFault → Raw
  | .system .notFound | .system .notDirectory => missing.toList
  | fault => Raw.encode fault.plainText

def failToOpen {α : Type} (path : Raw) (fault : FileFault) : Act α :=
  Act.fail ("cannot open ".toList ++ path ++ ": ".toList ++ causeText "No such file" fault)

def failToCreate {α : Type} (path : Raw) (fault : FileFault) : Act α :=
  Act.fail ("cannot create ".toList ++ path ++ ": ".toList ++
    causeText "Directory nonexistent" fault)

/-- What opening the entry at a location leads to. -/
def targetAt (disk : Disk) (location : Location) : Target :=
  match disk.entryAt? location with
  | some .directory => .directory
  | some .sink => .sink
  | _ => .file location

def openToRead (path : Raw) : Act Channel := do
  let disk := (← get).disk
  match disk.locate .target (Raw.decode path) with
  | .ok location => return ⟨targetAt disk location, 0, false, true, false⟩
  | .error fault => failToOpen path fault

/-- Makes an empty file at a location. -/
def makeFile (location : Location) : Act Unit := modify fun state =>
  let mode := 0o666 - Nat.land 0o666 state.mask
  let disk := state.disk.put location (.file .empty)
  { state with disk := if mode = 0o644 then disk else disk.setMode location mode }

/-- Opens a file to write, which is made if it is not there. -/
def openToWrite (opening : Opening) (path : Raw) : Act Channel := do
  let state ← get
  let canRead := opening == .readWrite
  let channel (target : Target) : Channel := ⟨target, 0, opening == .append, canRead, true⟩
  match state.disk.place .newFile (Raw.decode path) with
  | .error fault => failToCreate path fault
  | .ok (.absent directory name) => do
    makeFile (directory ++ [name])
    return channel (.file (directory ++ [name]))
  | .ok (.present location) =>
    match targetAt state.disk location with
    | .directory => failToCreate path (.system .isDirectory)
    | .file location =>
      if opening == .write && state.isSet "noclobber" then
        failToCreate path (.system .alreadyExists)
      else
        if opening == .write || opening == .overwrite then
          set { state with disk := state.disk.put location (.file .empty) }
        return channel (.file location)
    | target => return channel target

/-- A pipe that holds a text. -/
def openText (text : Raw) : Act Channel := do
  let pipe ← Act.addPipe
  modify fun state => { state with pipes := state.pipes.setIfInBounds pipe (.ofText text) }
  return .pipe pipe

/-- Connects a descriptor as a redirection says. -/
def perform : Ready → Act Unit
  | .file descriptor opening path => do
    let channel ← match opening with
      | .read => openToRead path
      | opening => openToWrite opening path
    Act.connect descriptor (some (← Act.addChannel channel))
  | .copy descriptor none => Act.connect descriptor none
  | .copy descriptor (some source) => do
    match (← get).descriptors.lookup source with
    | some number => Act.connect descriptor (some number)
    | none =>
      if source = descriptor then return
      else Act.fail (Raw.decimal source ++ ": Bad file descriptor".toList)
  | .document descriptor number => do
    let word := ((← get).documents.lookup number).getD []
    let text ← Expand.text run .document word
    Act.connect descriptor (some (← Act.addChannel (← openText text)))

/-- Connects the descriptors of redirections with what they led to before. -/
def restore (before : List (Nat × Nat)) (redirections : List Ready) : Act Unit :=
  redirections.forM fun redirection =>
    Act.connect redirection.descriptor (before.lookup redirection.descriptor)

/-- The redirections of a command with their words expanded. -/
def readyAll (redirections : List Redirection) : Act (List Ready) := redirections.mapM (ready run)

/-- Lets go of a descriptor that is to become a copy, so that complaints cannot be written to it. -/
def letGo : Ready → Act Unit
  | .copy descriptor (some source) =>
    if source = descriptor then return else do
      let isOpen := ((← get).descriptors.lookup source).isSome
      if isOpen then return else Act.connect descriptor none
  | _ => return

/-- Performs redirections; if one is a mistake, the result is false. -/
def performAll (redirections : List Ready) : Act Bool := do
  let work := redirections.forM fun redirection => do
    letGo redirection
    perform run redirection
  match ← Act.attempt work with
  | .ok () => return true
  | .error .failure => return false
  | .error stop => throw stop

end ProvideIndex.Shell.Redirect
