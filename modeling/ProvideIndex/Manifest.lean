import ProvideIndex.Label
import ProvideIndex.Source.File

/-!
# The manifest

Every library of the tree with what it declares and what it asks for, in the order of the files.
-/

namespace ProvideIndex

structure LibraryEntry where
  path : String
  target : String
  provides : List String
  requires : List String
  testOnly : Bool
  raw : Bool
  deriving DecidableEq, Repr

namespace LibraryEntry

def ofFile (file : Source.File) : LibraryEntry where
  path := file.path
  target := (Label.ofPath file.path).text
  provides := file.provides
  requires := file.requires
  testOnly := file.isTestOnly
  raw := file.isRaw

end LibraryEntry

structure Manifest where
  libraries : List LibraryEntry
  deriving DecidableEq, Repr

namespace Manifest

def ofFiles (files : List Source.File) : Manifest :=
  ⟨(files.filter (·.isLibrary)).map .ofFile⟩

end Manifest

end ProvideIndex
