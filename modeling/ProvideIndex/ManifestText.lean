import ProvideIndex.Manifest
import ProvideIndex.Yaml.Document
import ProvideIndex.Yaml.Write

/-!
# The manifest as a text

The manifest is kept as a YAML record with the list of its entries.
-/

namespace ProvideIndex

open Yaml

namespace LibraryEntry

def texts (items : List String) : Value := .list (items.map .string)

def fields (entry : LibraryEntry) : List (String × Value) :=
  [("path", .string entry.path), ("target", .string entry.target),
    ("provides", texts entry.provides), ("requires", texts entry.requires),
    ("test_only", .bool entry.testOnly), ("raw", .bool entry.raw)]

def read (document : Document) (node : Node) : Reader LibraryEntry := do
  let names := ["path", "target", "provides", "requires", "test_only", "raw"]
  match ← document.fields names node with
  | [path, target, provides, requires, testOnly, raw] =>
    return {
      path := ← document.string path
      target := ← document.string target
      provides := ← document.list document.string provides
      requires := ← document.list document.string requires
      testOnly := ← document.bool testOnly
      raw := ← document.bool raw }
  | _ => failure

end LibraryEntry

namespace Manifest

def text (manifest : Manifest) : String :=
  writeRecord [("libraries", .list (manifest.libraries.map fun entry => .object entry.fields))]

def read (document : Document) (node : Node) : Reader Manifest := do
  match ← document.fields ["libraries"] node with
  | [libraries] => return ⟨← document.list (LibraryEntry.read document) libraries⟩
  | _ => failure

def ofText? (text : String) : Option Manifest := do
  let document ← Document.ofText? text
  document.read? (read document)

end Manifest

end ProvideIndex
