import ProvideIndex.Source.Declaration
import ProvideIndex.Source.File
import ProvideIndex.Text.Word

/-!
# Classification

What kind of file a path and a text make. A path alone decides what is ignored and what is an asset;
`classify` decides among the remaining kinds from the text.
-/

namespace ProvideIndex.Source

/-- Names that leave out every path in which they occur. -/
def ignoredParts : List String := ["_perf", "_test", "/demos/", "/testdata/"]

def ignoredPaths : List String :=
  ["closure/goog/base.js", "closure/goog/deps.js",
    "closure/goog/transitionalforwarddeclarations.js", "closure/goog/transpile.js"]

def ignoredStarts : List String :=
  ["closure/goog/debug_loader_integration_tests/", "third_party/closure/goog/osapi"]

def isIgnoredPath (path : String) : Bool :=
  ignoredParts.any (fun part => Text.contains part.toList path.toList) ||
    ignoredPaths.contains path ||
    ignoredStarts.any fun start => Text.startsWith start.toList path.toList

def isScriptPath (path : String) : Bool := Text.endsWith ".js".toList path.toList

/-- Paths of files that are for tests although they do not say so. -/
def isTestOnlyPath (path : String) : Bool :=
  Text.startsWith "closure/goog/labs/testing/".toList path.toList ||
    path == "closure/goog/testing/net/mockiframeio.js"

def isTestOnly (path : String) (text : List Char) : Bool :=
  isTestOnlyPath path || Text.anyLine (Text.startsWith "goog.setTestOnly(".toList) true text

/-- A call that loads the test suite runner; any character of the line may stand for the quote. -/
def loadsTestSuite (text : List Char) : Bool :=
  match Text.after? requireName text with
  | some (c :: rest) => c != '\n' && Text.startsWith "goog.testing.testSuite".toList rest
  | _ => false

/-- A function of exactly this name: the next character does not continue the word. -/
def declaresFunction (name : String) (text : List Char) : Bool :=
  match Text.after? ("function ".toList ++ name.toList) text with
  | some [] => true
  | some (c :: _) => !Text.isWordChar c
  | none => false

def isUnitTest (text : List Char) : Bool :=
  Text.anyTail loadsTestSuite text ||
    Text.anyLine (fun line => declaresFunction "setUp" line || declaresFunction "tearDown" line)
      true text

/-- The kind of a script with this path and this text. -/
def classify (path content : String) : Kind :=
  let declared := provides content
  if declared.isEmpty then .raw
  else
    let testOnly := isTestOnly path content.toList
    if testOnly && isUnitTest content.toList then .unitTest
    else .library declared (requires content) testOnly

end ProvideIndex.Source
