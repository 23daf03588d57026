import ProvideIndex.Formatter
import ProvideIndex.ManifestText
import ProvideIndex.Scan
import ProvideIndex.TableText

/-!
# The regeneration run

A run scans the tree, writes the table, writes the manifest if one is asked for, and lets the
formatter go over the table. Nothing is written before the whole tree has been read, and no manifest
before the table.
-/

namespace ProvideIndex

namespace Regenerate

structure Options where
  /-- The file that locates the tree. -/
  anchor : String
  /-- Where the table goes; an absolute path. -/
  output : String
  formatter : Option Formatter
  /-- Where the manifest goes, if one is asked for. -/
  manifest : Option String
  deriving DecidableEq, Repr

structure Report where
  files : Nat
  libraries : Nat
  symbols : Nat
  /-- The exit code of the formatter, or 0 if there is none. -/
  formatterExit : Int32
  deriving DecidableEq, Repr

/-- The exit status of the program: that of the formatter, or 1 if it does not fit. -/
def Report.exitStatus (report : Report) : UInt8 :=
  if 0 ≤ report.formatterExit.toInt ∧ report.formatterExit.toInt ≤ 255 then
    UInt8.ofNat report.formatterExit.toInt.toNat
  else 1

def writeTable (table : SymbolTable) (output : String) : Run Unit := do
  let reply ← Run.request (.writeText output (TableText.render table))
  Run.orFail (.fileSystem .write output) reply
  Run.report (.tableWritten output table.size) (.done ())

def writeManifest (manifest : Manifest) (path : String) : Run Unit := do
  let reply ← Run.request (.writeText path manifest.text)
  Run.orFail (.fileSystem .write path) reply

def writeManifestIf (files : List Source.File) : Option String → Run Unit
  | some path => writeManifest (.ofFiles files) path
  | none => return ()

/-- Runs the formatter, if there is one. -/
def format (output : String) : Option Formatter → Run Int32
  | some formatter => formatter.run output
  | none => return 0

def run (options : Options) : Run Report :=
  if Path.isAbsolute options.output then do
    let tree ← Scan.locate options.anchor
    let files ← Scan.files tree
    let (table, clashes) := SymbolTable.build files
    Run.reportAll (clashes.map .clash)
    let libraries := (files.filter (·.isLibrary)).length
    Run.report (.scanned tree files.length libraries table.size) (.done ())
    writeTable table options.output
    writeManifestIf files options.manifest
    let exit ← format options.output options.formatter
    return ⟨files.length, libraries, table.size, exit⟩
  else .fail (.outputNotAbsolute options.output)

end Regenerate

end ProvideIndex
