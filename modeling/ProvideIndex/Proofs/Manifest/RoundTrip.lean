import ProvideIndex.ManifestText
import ProvideIndex.Proofs.Yaml.ValueReading

/-!
# Written manifests read back

The text of a manifest is read back as the manifest, whatever its paths and symbols are: they stay
texts also where they hold breaks, colons or dashes, or spell a number, a truth value or nothing. An
entry says all that is known of its library, so the libraries are found again in it.

* `LibraryEntry.read_nodeOf`: one entry.
* `Manifest.ofText?_text`: a whole manifest.
* `Manifest.files_ofFiles`: the libraries among some files, from their manifest.
* `Manifest.ofText?_text_ofFiles`: the libraries among some files, from the text of their manifest.
-/

namespace ProvideIndex

open Yaml

namespace LibraryEntry

variable {document : Document} {entry : LibraryEntry}

theorem list_texts (items : List String) :
    document.list document.string (nodeOf (texts items)) = pure items := by
  have hItems : document.list document.string (nodeOf (.list (items.map .string))) =
      pure (items.map id) :=
    Document.list_nodeOf fun item _ => Document.string_nodeOf item
  rw [texts, hItems, List.map_id]

/-- A written entry is read back. -/
theorem read_nodeOf : read document (nodeOf (.object entry.fields)) = pure entry := by
  have hFields : document.fields ["path", "target", "provides", "requires", "test_only", "raw"]
      (nodeOf (.object entry.fields)) =
      pure [nodeOf (.string entry.path), nodeOf (.string entry.target),
        nodeOf (texts entry.provides), nodeOf (texts entry.requires),
        nodeOf (.bool entry.testOnly), nodeOf (.bool entry.raw)] := by
    rw [Document.fields_nodeOf]
    rfl
  rw [read, hFields]
  simp only [pure_bind, Document.string_nodeOf, list_texts, Document.bool_nodeOf]

/-- The library that an entry stands for. -/
def file (entry : LibraryEntry) : Source.File where
  path := entry.path
  kind := if entry.raw then .raw else .library entry.provides entry.requires entry.testOnly

theorem file_ofFile {file : Source.File} (h : file.isLibrary = true) :
    (ofFile file).file = file := by
  obtain ⟨path, kind⟩ := file
  cases kind with
  | raw => rfl
  | library provides requires testOnly => cases testOnly <;> rfl
  | ignored | unitTest | asset => cases h

end LibraryEntry

namespace Manifest

/-- The libraries that a manifest lists. -/
def files (manifest : Manifest) : List Source.File := manifest.libraries.map (·.file)

theorem files_ofFiles (files : List Source.File) :
    (ofFiles files).files = files.filter (·.isLibrary) := by
  have hSame : ∀ file ∈ files.filter (·.isLibrary), (LibraryEntry.ofFile file).file = file :=
    fun file hMem => LibraryEntry.file_ofFile (List.mem_filter.mp hMem).2
  rw [Manifest.files, ofFiles, List.map_map]
  exact (List.map_congr_left hSame).trans (List.map_id _)

theorem read_nodeOf {document : Document} {manifest : Manifest} :
    read document (nodeOf (.object
      [("libraries", .list (manifest.libraries.map fun entry => .object entry.fields))])) =
      pure manifest := by
  have hFields : document.fields ["libraries"] (nodeOf (.object
      [("libraries", .list (manifest.libraries.map fun entry => .object entry.fields))])) =
      pure [nodeOf (.list (manifest.libraries.map fun entry => .object entry.fields))] := by
    rw [Document.fields_nodeOf]
    rfl
  have hLibraries : document.list (LibraryEntry.read document)
      (nodeOf (.list (manifest.libraries.map fun entry => .object entry.fields))) =
      pure (manifest.libraries.map id) :=
    Document.list_nodeOf fun _ _ => LibraryEntry.read_nodeOf
  rw [read, hFields]
  simp only [pure_bind, hLibraries, List.map_id]

/-- The text of a manifest is read back as the manifest. -/
theorem ofText?_text (manifest : Manifest) : ofText? manifest.text = some manifest := by
  rw [ofText?, text, Document.ofText?_writeRecord]
  simp only [Option.bind_eq_bind, Option.bind_some, Document.read?, read_nodeOf]
  rfl

/-- The manifest of some files is read back from its text, and the libraries among the files are the
files that it lists: the same ones in the same order, each with its path, with its symbols in the
order of its text, and with what it asks for; and those without symbols and those for tests are told
apart from the others. -/
theorem ofText?_text_ofFiles (files : List Source.File) :
    ofText? (ofFiles files).text = some (ofFiles files) ∧
      (ofText? (ofFiles files).text).map (·.files) = some (files.filter (·.isLibrary)) := by
  have hManifest := ofText?_text (ofFiles files)
  exact ⟨hManifest, by rw [hManifest, Option.map_some, files_ofFiles]⟩

end Manifest

end ProvideIndex
