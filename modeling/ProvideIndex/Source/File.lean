/-!
# Source files

How a file of the tree takes part in the index, and what each kind of file contributes to it.
-/

namespace ProvideIndex.Source

inductive Kind where
  /-- Left out because of its path; never read. -/
  | ignored
  /-- A test-only file that is itself a unit test. -/
  | unitTest
  /-- Not a script; never read. -/
  | asset
  /-- A script that declares no symbol. -/
  | raw
  /-- A script that declares `provides`, in the order of its text, and asks for `requires`. -/
  | library (provides requires : List String) (testOnly : Bool)
  deriving DecidableEq, Repr

/-- A file, by its path relative to the root of the tree. -/
structure File where
  path : String
  kind : Kind
  deriving DecidableEq, Repr

namespace File

def provides (file : File) : List String :=
  match file.kind with
  | .library provides _ _ => provides
  | _ => []

def requires (file : File) : List String :=
  match file.kind with
  | .library _ requires _ => requires
  | _ => []

def isIgnored (file : File) : Bool := file.kind matches .ignored

def isRaw (file : File) : Bool := file.kind matches .raw

def isTestOnly (file : File) : Bool := file.kind matches .library _ _ true

/-- Raw files and declaring files are the libraries of the tree. -/
def isLibrary (file : File) : Bool := file.kind matches .raw | .library ..

end File

end ProvideIndex.Source
