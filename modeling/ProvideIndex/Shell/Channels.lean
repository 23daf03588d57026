import ProvideIndex.Shell.State

/-!
# Reading, writing and opening files

Descriptors are numbers for open files. Several of them may lead to the same one, and then they have
its place in common.
-/

namespace ProvideIndex.Shell

namespace Channel

def sink : Channel := ⟨.sink, 0, false, true, true⟩

def pipe (number : Nat) : Channel := ⟨.pipe number, 0, false, true, true⟩

end Channel

/-- The bytes of the file at a location. -/
def contentsAt (disk : Disk) (location : Location) : ByteArray :=
  ((disk.entryAt? location).bind (·.contents?)).getD .empty

/-- The bytes of a file after others have been written at a place in it. -/
def spliced (old : ByteArray) (offset : Nat) (new : ByteArray) : ByteArray :=
  if offset = old.size then old ++ new
  else
    let gap : ByteArray := ⟨Array.replicate (offset - old.size) 0⟩
    old.extract 0 offset ++ gap ++ new ++ old.extract (offset + new.size) old.size

namespace Act

def channel? (descriptor : Nat) : Act (Option (Nat × Channel)) := do
  let state ← get
  return do
    let number ← state.descriptors.lookup descriptor
    let channel ← state.channels[number]?
    return (number, channel)

def setChannel (number : Nat) (channel : Channel) : Act Unit := modify fun state =>
  { state with channels := state.channels.setIfInBounds number channel }

/-- Writes a text; whether that was possible is the result. -/
def write (descriptor : Nat) (text : Raw) : Act Bool := do
  match ← channel? descriptor with
  | none => return false
  | some (number, channel) =>
    if !channel.canWrite then return false
    else
      match channel.target with
      | .sink => return true
      | .directory => return false
      | .caller complains =>
        let piece := if complains then Printed.complaint text else .output text
        modify fun state => { state with given := piece :: state.given }
        return true
      | .pipe pipe =>
        modify fun state =>
          { state with pipes := state.pipes.modify pipe (·.write text) }
        return true
      | .file location =>
        let disk := (← get).disk
        match disk.entryAt? location with
        | some (.file old) =>
          let offset := if channel.appends then old.size else channel.offset
          let new := spliced old offset ⟨(Raw.bytes text).toArray⟩
          modify fun state => { state with disk := state.disk.put location (.file new) }
          setChannel number { channel with offset := offset + text.length }
          return true
        | _ => return true

/-- All that can be read from a descriptor. -/
def available (descriptor : Nat) : Act (Option Raw) := do
  match ← channel? descriptor with
  | none => return none
  | some (_, channel) =>
    if !channel.canRead then return none
    else
      match channel.target with
      | .sink => return some []
      | .directory | .caller _ => return none
      | .pipe pipe => do
        modify fun state => { state with pipes := state.pipes.modify pipe (·.gathered) }
        return ((← get).pipes[pipe]?).map (·.text)
      | .file location =>
        do
        let contents := contentsAt (← get).disk location
        return some (Raw.ofBytes (contents.extract channel.offset contents.size).toList)

/-- Passes over characters that were read. -/
def consume (descriptor count : Nat) : Act Unit := do
  match ← channel? descriptor with
  | none => return
  | some (number, channel) =>
    match channel.target with
    | .pipe pipe =>
      modify fun state => { state with pipes := state.pipes.modify pipe (·.drop count) }
    | .file _ => setChannel number { channel with offset := channel.offset + count }
    | _ => return

/-- What a program that writes to a descriptor is told of it. -/
def output (descriptor : Nat) : Act Output := do
  match ← channel? descriptor with
  | some (_, channel) =>
    if !channel.canWrite then return .closed
    else
      match channel.target with
      | .file location =>
        let size := (contentsAt (← get).disk location).size
        return .file location (if channel.appends then size else channel.offset)
      | .directory => return .closed
      | _ => return .elsewhere
  | none => return .closed

/-- What a program can read from a descriptor. -/
def input (descriptor : Nat) : Act (Except SystemFault Raw) := do
  match ← available descriptor, ← channel? descriptor with
  | some text, _ => return .ok text
  | none, some (_, channel) =>
    return .error (if channel.target = .directory then .isDirectory else .badDescriptor)
  | none, none => return .error .badDescriptor

/-- Adds an open file; its number is the result. -/
def addChannel (channel : Channel) : Act Nat := modifyGet fun state =>
  (state.channels.size, { state with channels := state.channels.push channel })

/-- A pipe with nothing in it. -/
def addPipe : Act Nat := modifyGet fun state =>
  (state.pipes.size, { state with pipes := state.pipes.push (.ofText []) })

def connect (descriptor : Nat) (number : Option Nat) : Act Unit := modify fun state =>
  let others := state.descriptors.filter (·.1 != descriptor)
  { state with
    descriptors := match number with
      | some number => (descriptor, number) :: others
      | none => others }

/-! ## Complaints -/

/-- A line on standard error with the name of the shell, the line and the command. -/
def warn (text : Raw) : Act Unit := do
  let state ← get
  let place := state.name ++ ": ".toList ++ Raw.decimal state.line ++ ": ".toList
  let command := match state.command with
    | some command => command ++ ": ".toList
    | none => []
  let _ ← write 2 (place ++ command ++ text ++ ['\n'])

/-- Prints on standard output, once the command is at its end. -/
def print (text : Raw) : Act Unit := modify fun state =>
  { state with printed := state.printed ++ text }

/-- Writes what was printed; whether that was possible is the result. -/
def flush : Act Bool := do
  let state ← get
  if state.printed.isEmpty then return true
  else
    set { state with printed := [] }
    write 1 state.printed

/-- A complaint that ends what is being done. -/
def fail {α : Type} (text : Raw) : Act α := do
  warn text
  let _ ← flush
  setStatus 2
  throw .failure

end Act

end ProvideIndex.Shell
