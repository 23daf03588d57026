import ProvideIndex.Manifest
import ProvideIndex.Proofs.Label.Parts
import ProvideIndex.Proofs.Scan.Enumeration
import ProvideIndex.Proofs.Source.WellFormed

/-!
# Well-formed scans and manifests

Every file that a scan returns is well formed, whatever the world answers, and so is the manifest of
well-formed files.

* `isWellFormed_kindWith`: a listed file is well formed, with any text.
* `isWellFormed_ofFile`, `isWellFormed_ofFiles`: entries and manifests of well-formed files.
* `isWellFormed_of_done`: the files of a scan, and their manifest.
-/

namespace ProvideIndex

open Source

/-! ### Manifests -/

namespace LibraryEntry

/-- An entry is raw exactly if it declares nothing, and then it asks for nothing and is not for tests
only. Its target has a directory and a name. -/
structure IsWellFormed (entry : LibraryEntry) : Prop where
  raw_iff : entry.raw = true ↔ entry.provides = []
  plain : entry.raw = true → entry.requires = [] ∧ entry.testOnly = false
  target : ∃ directory name, directory ≠ "" ∧ name ≠ "" ∧
    entry.target = "//" ++ directory ++ ":" ++ name

theorem isWellFormed_ofFile {file : File} (h : file.IsWellFormed)
    (hLibrary : file.isLibrary = true) : (ofFile file).IsWellFormed where
  raw_iff := h.isRaw_iff hLibrary
  plain := File.plain_of_isRaw
  target := by
    have hSlash := h.below.slash_mem
    refine ⟨(Label.ofPath file.path).directory, (Label.ofPath file.path).name, ?_, ?_, rfl⟩
    · exact Label.directory_ofPath_ne hSlash h.below.head?_ne
    · exact Label.name_ofPath_ne hSlash (h.isScriptPath hLibrary)

end LibraryEntry

namespace Manifest

/-- A manifest has an entry of its own for each path. -/
structure IsWellFormed (manifest : Manifest) : Prop where
  entry : ∀ entry ∈ manifest.libraries, entry.IsWellFormed
  paths_nodup : (manifest.libraries.map (·.path)).Nodup

theorem isWellFormed_ofFiles {files : List File}
    (hAscending : files.Pairwise fun a b => a.path < b.path)
    (hFiles : ∀ file ∈ files, file.IsWellFormed) : (ofFiles files).IsWellFormed where
  entry := by
    refine List.forall_mem_map.mpr fun file hMem => ?_
    obtain ⟨hFile, hLibrary⟩ := List.mem_filter.mp hMem
    exact LibraryEntry.isWellFormed_ofFile (hFiles file hFile) hLibrary
  paths_nodup := by
    rw [ofFiles, List.map_map]
    refine List.pairwise_map.mpr ((hAscending.filter _).imp fun hLess => ?_)
    exact String.ne_of_lt hLess

end Manifest

/-! ### Scans -/

namespace Scan

open Run Script

theorem isBelowRoot_of_mem_paths {answers : Answers} {path : String} (h : path ∈ answers.paths) :
    IsBelowRoot path := by
  rw [Answers.paths, Text.mem_ascending] at h
  obtain ⟨root, hRoot, hBelow⟩ := List.mem_flatMap.mp h
  obtain ⟨names, -, name, -, hPath⟩ := mem_below_iff.mp hBelow
  have hStart : (root.path ++ "/").toList <+: path.toList :=
    ⟨name.toList, String.toList_append.symm.trans (congrArg String.toList hPath.symm)⟩
  simp only [roots, List.mem_cons, List.not_mem_nil, or_false] at hRoot
  rcases hRoot with rfl | rfl
  · exact .inl hStart
  · exact .inr hStart

theorem isWellFormed_kindWith {path : String} (h : IsBelowRoot path)
    (content : Except String String) : (File.mk path (kindWith path content)).IsWellFormed := by
  unfold kindWith
  by_cases hIgnored : isIgnoredPath path = true
  · rw [if_pos hIgnored]
    exact isWellFormed_ignored h (isIgnoredPath_iff.mp hIgnored)
  · have hKept : ¬ IsLeftOut path := mt isIgnoredPath_iff.mpr hIgnored
    rw [if_neg hIgnored]
    by_cases hScript : isScriptPath path = true
    · have hEnd := isScriptPath_iff.mp hScript
      rw [if_neg (by simp [hScript])]
      cases content with
      | error cause => exact isWellFormed_raw h hKept hEnd
      | ok text => exact isWellFormed_classify h hKept hEnd text
    · rw [if_pos (by simp [hScript])]
      exact isWellFormed_asset h hKept (mt isScriptPath_iff.mpr hScript)

/-- The files that a scan returns are those that some answers make. -/
theorem exists_answers_of_done {ε σ : Type} {world : World ε σ} {tree : String} {state : σ}
    {found : List File} (h : ((files tree).execute world state).ending = .done found) :
    ∃ answers : Answers, found = answers.files := by
  have hCourse : Course (files tree) _ _ (.ok found) := course_of_ending h
  obtain ⟨answers, -, hFollows⟩ :=
    follows_files (Answers.within_all tree) hCourse fun _ _ => trivial
  exact ⟨answers, hFollows.failure?_of_ok.2.symm⟩

/--
Whatever a world answers, the files that a scan returns come in strictly ascending order of their
paths, and each is well formed; and so is their manifest.
-/
theorem isWellFormed_of_done {ε σ : Type} (world : World ε σ) (tree : String) (state : σ)
    {found : List File} (h : ((files tree).execute world state).ending = .done found) :
    found.Pairwise (fun a b => a.path < b.path) ∧ (∀ file ∈ found, file.IsWellFormed) ∧
      (Manifest.ofFiles found).IsWellFormed := by
  obtain ⟨answers, rfl⟩ := exists_answers_of_done h
  have hFiles : ∀ file ∈ answers.files, file.IsWellFormed :=
    List.forall_mem_map.mpr fun path hPath =>
      isWellFormed_kindWith (isBelowRoot_of_mem_paths hPath) (answers.content path)
  have hAscending := FileTree.pairwise_files answers
  exact ⟨hAscending, hFiles, Manifest.isWellFormed_ofFiles hAscending hFiles⟩

/-- A tree with a file of each kind. -/
def allKinds : FileTree where
  fileExists _ := true
  listFiles root :=
    if root = "/t/closure/goog" then
      .ok ["raw.js", "demos/a.js", "labs/testing/mock.js", "note.txt", "suite.js"]
    else .ok [".js"]
  readText path :=
    if path = "/t/closure/goog/labs/testing/mock.js" then
      .ok "goog.module('m');\nvar b = goog.require('b');\ngoog.require(\"a\\\");\n"
    else if path = "/t/closure/goog/suite.js" then
      .ok "goog.provide('s');\ngoog.setTestOnly();\nfunction setUp() {}\n"
    else if path = "/t/third_party/closure/goog/.js" then .ok "goog.provide('p');\n"
    else .ok "goog.provide('');\n"

theorem isWellFormed_allKinds :
    let found : List File :=
      [⟨"closure/goog/demos/a.js", .ignored⟩,
        ⟨"closure/goog/labs/testing/mock.js", .library ["m"] ["a\\", "b"] true⟩,
        ⟨"closure/goog/note.txt", .asset⟩, ⟨"closure/goog/raw.js", .raw⟩,
        ⟨"closure/goog/suite.js", .unitTest⟩,
        ⟨"third_party/closure/goog/.js", .library ["p"] [] false⟩]
    ((files "/t").execute (allKinds.overlay .accepting) ()).ending = .done found ∧
      found.Pairwise (fun a b => a.path < b.path) ∧ (∀ file ∈ found, file.IsWellFormed) ∧
      (Manifest.ofFiles found).IsWellFormed := by
  intro found
  have hFound : ((files "/t").execute (allKinds.overlay .accepting) ()).ending = .done found := by
    decide +kernel
  exact ⟨hFound, isWellFormed_of_done _ "/t" () hFound⟩

end Scan

end ProvideIndex
