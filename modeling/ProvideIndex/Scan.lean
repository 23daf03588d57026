import ProvideIndex.Path
import ProvideIndex.Run
import ProvideIndex.Source.Classify
import ProvideIndex.Text.Ascending

/-!
# Scanning a tree

Finding the root of a tree from its anchor file, listing the files below the scan roots, and
classifying each. The files come in strictly ascending order of their paths, which the symbol table
relies on.
-/

namespace ProvideIndex

/-- A directory, relative to the root of the tree, whose files are listed. -/
structure ScanRoot where
  path : String
  /-- Whether a run ends if the directory is missing. -/
  required : Bool
  deriving DecidableEq, Repr

namespace Scan

def roots : List ScanRoot :=
  [⟨"closure/goog", true⟩, ⟨"third_party/closure/goog", false⟩]

/--
The root of the tree is two steps above the directory of the anchor; the steps stay written out.
-/
def locate (anchor : String) : Run String := do
  let found ← Run.request (.fileExists anchor)
  match found, Path.parent? anchor with
  | true, some directory => return Path.join directory "../.."
  | _, _ => Run.fail (.anchorNotFound anchor)

/-- The files below one scan root, as paths relative to the root of the tree. -/
def listRoot (tree : String) (root : ScanRoot) : Run (List String) := do
  let directory := Path.join tree root.path
  let found ← Run.request (.fileExists directory)
  if found then
    let reply ← Run.request (.listFiles directory)
    let names ← Run.orFail (.fileSystem .walk directory) reply
    Run.report (.rootWalked root.path names.length)
      (.done (names.map fun name => root.path ++ "/" ++ name))
  else if root.required then
    Run.fail (.rootNotFound directory)
  else
    Run.report (.rootAbsent root.path) (.done [])

def listRoots (tree : String) : List ScanRoot → Run (List String)
  | [] => return []
  | root :: roots => do
    let files ← listRoot tree root
    let others ← listRoots tree roots
    return files ++ others

/-- The files below the scan roots, each once, in ascending order. -/
def enumerate (tree : String) (roots : List ScanRoot) : Run (List String) := do
  let files ← listRoots tree roots
  return Text.ascending files

/-- The kind of the file at a path; its text is read only if the path leaves the kind open. -/
def kindOf (tree path : String) : Run Source.Kind :=
  if Source.isIgnoredPath path then return .ignored
  else if !Source.isScriptPath path then return .asset
  else do
    let full := Path.join tree path
    let reply ← Run.request (.readText full)
    let content ← Run.orFail (.fileSystem .read full) reply
    return Source.classify path content

def classify (tree path : String) : Run Source.File := do
  let kind ← kindOf tree path
  Run.report (@Event.classified path kind) (.done ⟨path, kind⟩)

def classifyAll (tree : String) : List String → Run (List Source.File)
  | [] => return []
  | path :: paths => do
    let file ← classify tree path
    let files ← classifyAll tree paths
    return file :: files

/-- Every file below the scan roots with its kind. -/
def files (tree : String) : Run (List Source.File) := do
  let paths ← enumerate tree roots
  classifyAll tree paths

end Scan

end ProvideIndex
