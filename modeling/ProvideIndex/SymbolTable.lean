import ProvideIndex.Label
import ProvideIndex.Source.File
import ProvideIndex.StringMap

/-!
# The symbol table

Which file owns each declared symbol, and what each library asks for. Files are taken in order and
the last file that declares a symbol owns it; every declaration of a symbol that had an owner
already is reported as a `Clash`.
-/

namespace ProvideIndex

/-- A declaration of a symbol that was owned by the file `previous` and now belongs to `owner`. -/
structure Clash where
  symbol : String
  previous : String
  owner : String
  deriving DecidableEq, Repr

structure SymbolTable where
  owners : StringMap String
  requires : StringMap (List String)

namespace SymbolTable

def empty : SymbolTable := ⟨.empty, .empty⟩

/-- Gives symbols, in order, to the file at `path`. -/
def giveAll (path : String) : List String → SymbolTable → SymbolTable × List Clash
  | [], table => (table, [])
  | symbol :: symbols, table =>
    let (final, clashes) :=
      giveAll path symbols { table with owners := table.owners.insert symbol path }
    match table.owners.get? symbol with
    | some previous => (final, ⟨symbol, previous, path⟩ :: clashes)
    | none => (final, clashes)

/-- Takes one file; only libraries leave a trace. -/
def addFile (table : SymbolTable) (file : Source.File) : SymbolTable × List Clash :=
  if file.isLibrary then
    let (given, clashes) := giveAll file.path file.provides table
    ({ given with requires := given.requires.insert file.path file.requires }, clashes)
  else (table, [])

def addFiles (table : SymbolTable) : List Source.File → SymbolTable × List Clash
  | [] => (table, [])
  | file :: files =>
    let (next, clashes) := table.addFile file
    let (final, later) := next.addFiles files
    (final, clashes ++ later)

/-- The table of the files, and the clashes in the order in which they arise. -/
def build (files : List Source.File) : SymbolTable × List Clash := empty.addFiles files

def ofFiles (files : List Source.File) : SymbolTable := (build files).1

def clashes (files : List Source.File) : List Clash := (build files).2

def size (table : SymbolTable) : Nat := table.owners.size

def isEmpty (table : SymbolTable) : Bool := table.size == 0

def owner? (table : SymbolTable) (symbol : String) : Option String := table.owners.get? symbol

def requires? (table : SymbolTable) (path : String) : Option (List String) :=
  table.requires.get? path

/-- Each symbol with the label of its owner, in ascending order of symbols. -/
def targets (table : SymbolTable) : List (String × Label) :=
  table.owners.entries.map fun (symbol, path) => (symbol, Label.ofPath path)

end SymbolTable

end ProvideIndex
