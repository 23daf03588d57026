import ProvideIndex.Programs.Cat
import ProvideIndex.Programs.ChangeMode
import ProvideIndex.Programs.Printf
import ProvideIndex.Programs.Remove
import ProvideIndex.Shell.Start

/-!
# A machine

The programs of a machine and the entries that its disk has before anything is put there.
-/

namespace ProvideIndex.InMemory

/-! ## Programs -/

/-- The programs besides the shell. -/
def tool? : Programs
  | "cat" => some Program.Cat.run
  | "chmod" => some Program.ChangeMode.run
  | "echo" => some Program.Echo.run
  | "false" => some (Program.quiet 1)
  | "printf" => some Program.Printf.run
  | "rm" => some Program.Remove.run
  | "true" => some (Program.quiet 0)
  | _ => none

/-- The names of the shell. -/
def shellNames : List String := ["dash", "sh"]

/-- All programs. A shell may start another one, up to a number of them within each other. -/
def programs : Nat → Programs
  | 0 => tool?
  | shells + 1 => fun name =>
    if shellNames.contains name then some (Shell.program (programs shells)) else tool? name

/-- How many shells may run within each other. -/
def maxShells : Nat := 50

/-! ## Entries -/

def programNames : List String :=
  ["cat", "chmod", "echo", "false", "printf", "rm", "true"] ++ shellNames

def directories : List Location :=
  [["dev"], ["etc"], ["home"], ["opt"], ["proc"], ["root"], ["run"], ["srv"], ["sys"], ["tmp"],
    ["usr"], ["usr", "bin"], ["usr", "lib"], ["usr", "local"], ["usr", "local", "bin"],
    ["usr", "local", "sbin"], ["usr", "sbin"], ["usr", "share"], ["var"], ["var", "tmp"]]

/-- The disk of a machine that nobody has used. -/
def freshDisk : Disk where
  entries :=
    directories.map (fun location => (location, .directory)) ++
      ["bin", "lib", "sbin"].map (fun name => ([name], .link ("usr/" ++ name))) ++
      programNames.map (fun name => (["usr", "bin", name], .program name)) ++
      [(["dev", "null"], .sink)]
  workingDirectory := []

end ProvideIndex.InMemory
