import ProvideIndex.Text.Split

/-!
# Build labels

The label of the target that builds a source file. The tree keeps its sources below `sourceRoot` and
its build files below `buildRoot`; a label is made from the path alone.
-/

namespace ProvideIndex

/-- A target `name` in a `directory` of the build tree. -/
structure Label where
  directory : String
  name : String
  deriving DecidableEq, Repr

namespace Label

def sourceRoot : String := "closure/goog"
def buildRoot : String := "closure/library"

def text (label : Label) : String := "//" ++ label.directory ++ ":" ++ label.name

/-- A file name without its last extension; a name that would be empty is kept whole. -/
def stem (name : List Char) : List Char :=
  match Text.splitLast? '.' name with
  | some (before, _) => if before.isEmpty then name else before
  | none => name

def ofPath (path : String) : Label :=
  let built := Text.replace sourceRoot.toList buildRoot.toList path.toList
  match Text.splitLast? '/' built with
  | some (directory, name) => ⟨String.ofList directory, String.ofList (stem name)⟩
  | none => ⟨"", String.ofList (stem built)⟩

end Label

end ProvideIndex
