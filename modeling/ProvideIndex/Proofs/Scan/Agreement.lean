import ProvideIndex.Proofs.Run.Outline
import ProvideIndex.Proofs.Scan.FileTree
import Mathlib.Data.List.Sort

/-!
# Trees that agree on their scripts

Two trees agree if they differ in ignored files and assets at most. A scan finds the same libraries
in both, and its scripts have the same outline.

* `Agree.libraries_eq`: the libraries of trees that agree.
* `Agree.outline_rootScript`, `Agree.outline_filesScript`: the outlines of the parts of a scan.
-/

namespace ProvideIndex

namespace FileTree

open Scan

/-- Whether two listings below a scan root are the same refusal, or hold the same scripts. -/
def AgreeBelow (root : ScanRoot) : Except String (List String) → Except String (List String) → Prop
  | .error cause, .error other => cause = other
  | .ok names, .ok others =>
    ∀ name, isRead (root.path ++ "/" ++ name) = true → (name ∈ names ↔ name ∈ others)
  | _, _ => False

/--
Whether two trees agree on what is there, on the texts of the listed scripts that are not ignored,
and on the listings of the scan roots up to other names.
-/
structure Agree (tree : String) (first second : FileTree) : Prop where
  fileExists : ∀ path, first.fileExists path = second.fileExists path
  listFiles : ∀ root ∈ Scan.roots, AgreeBelow root
    (first.listFiles (Path.join tree root.path)) (second.listFiles (Path.join tree root.path))
  readText : ∀ path, first.Lists tree path → isRead path = true →
    first.readText (Path.join tree path) = second.readText (Path.join tree path)

variable {first second : FileTree} {tree path : String}

theorem AgreeBelow.symm {root : ScanRoot} {names others : Except String (List String)}
    (h : AgreeBelow root names others) : AgreeBelow root others names := by
  match names, others with
  | .error cause, .error other => exact Eq.symm h
  | .ok names, .ok others => exact fun name hRead => (h name hRead).symm

/-- Listings with the same scripts in the same order agree. -/
theorem agreeBelow_of_filter {root : ScanRoot} {names others : List String}
    (h : (names.filter fun name => isRead (root.path ++ "/" ++ name)) =
      others.filter fun name => isRead (root.path ++ "/" ++ name)) :
    AgreeBelow root (.ok names) (.ok others) := by
  intro name hRead
  have hNames : name ∈ names.filter (fun name => isRead (root.path ++ "/" ++ name)) ↔
      name ∈ names := by
    rw [List.mem_filter]
    exact and_iff_left hRead
  have hOthers : name ∈ others.filter (fun name => isRead (root.path ++ "/" ++ name)) ↔
      name ∈ others := by
    rw [List.mem_filter]
    exact and_iff_left hRead
  rw [← hNames, ← hOthers, h]

theorem lists_of_agreeBelow (hFound : ∀ path, first.fileExists path = second.fileExists path)
    (hBelow : ∀ root ∈ Scan.roots, AgreeBelow root
      (first.listFiles (Path.join tree root.path)) (second.listFiles (Path.join tree root.path)))
    (hRead : isRead path = true) (h : first.Lists tree path) : second.Lists tree path := by
  obtain ⟨root, hRoot, hRootFound, names, hNames, name, hName, rfl⟩ := h
  have hAgree := hBelow root hRoot
  rw [hNames] at hAgree
  refine ⟨root, hRoot, (hFound _).symm.trans hRootFound, ?_⟩
  cases hOthers : second.listFiles (Path.join tree root.path) with
  | error cause =>
    rw [hOthers] at hAgree
    exact hAgree.elim
  | ok others =>
    rw [hOthers] at hAgree
    exact ⟨others, rfl, name, (hAgree name hRead).mp hName, rfl⟩

theorem Agree.symm (h : Agree tree first second) : Agree tree second first := by
  have hFound := fun path => (h.fileExists path).symm
  have hBelow := fun root hRoot => (h.listFiles root hRoot).symm
  refine ⟨hFound, hBelow, fun path hPath hRead => (h.readText path ?_ hRead).symm⟩
  exact lists_of_agreeBelow hFound hBelow hRead hPath

theorem Agree.lists_iff (h : Agree tree first second) (hRead : isRead path = true) :
    first.Lists tree path ↔ second.Lists tree path :=
  ⟨lists_of_agreeBelow h.fileExists h.listFiles hRead,
    lists_of_agreeBelow h.symm.fileExists h.symm.listFiles hRead⟩

theorem Agree.scripts_eq (h : Agree tree first second) :
    first.scripts tree = second.scripts tree := by
  refine (pairwise_scripts first tree).eq_of_mem_iff (pairwise_scripts second tree) fun path => ?_
  rw [mem_scripts, mem_scripts]
  exact and_congr_left h.lists_iff

theorem Agree.content_eq (h : Agree tree first second) (hPath : path ∈ first.scripts tree) :
    (first.answers tree).content path = (second.answers tree).content path := by
  obtain ⟨hLists, hRead⟩ := mem_scripts.mp hPath
  exact h.readText path hLists hRead

/-! ### The same libraries -/

theorem isRead_of_isLibrary {content : Except String String}
    (h : (Source.File.mk path (kindWith path content)).isLibrary = true) : isRead path = true := by
  unfold kindWith at h
  unfold isRead
  cases hIgnored : Source.isIgnoredPath path with
  | true =>
    rw [hIgnored] at h
    cases h
  | false =>
    cases hScript : Source.isScriptPath path with
    | true => rfl
    | false =>
      rw [hIgnored, hScript] at h
      cases h

/-- Only scripts that are not ignored can be libraries. -/
theorem libraries_answers (files : FileTree) (tree : String) :
    (files.answers tree).files.filter (·.isLibrary) =
      ((files.scripts tree).map fun path =>
        ⟨path, kindWith path ((files.answers tree).content path)⟩).filter (·.isLibrary) := by
  rw [Answers.files, scripts, List.filter_map, List.filter_map, List.filter_filter]
  refine congrArg _ (List.filter_congr fun path _ => ?_)
  rw [Bool.eq_iff_iff, Bool.and_eq_true]
  exact ⟨fun h => ⟨h, isRead_of_isLibrary h⟩, And.left⟩

theorem Agree.libraries_eq (h : Agree tree first second) :
    (first.answers tree).files.filter (·.isLibrary) =
      (second.answers tree).files.filter (·.isLibrary) := by
  rw [libraries_answers, libraries_answers, ← h.scripts_eq]
  refine congrArg _ (List.map_congr_left fun path hPath => ?_)
  rw [h.content_eq hPath]

/-! ### The same outline -/

theorem Agree.outline_rootScript (h : Agree tree first second) {root : ScanRoot}
    (hRoot : root ∈ Scan.roots) :
    (rootScript tree root ((first.answers tree).listing root)).outline =
      (rootScript tree root ((second.answers tree).listing root)).outline := by
  rw [answers_listing, answers_listing, h.fileExists]
  have hBelow := h.listFiles root hRoot
  cases second.fileExists (Path.join tree root.path) with
  | false => rfl
  | true =>
    rw [if_pos rfl, if_pos rfl]
    match hNames : first.listFiles (Path.join tree root.path),
      hOthers : second.listFiles (Path.join tree root.path) with
    | .error cause, .error other =>
      rw [hNames, hOthers] at hBelow
      cases hBelow
      rfl
    | .ok names, .ok others => rfl
    | .error cause, .ok others =>
      rw [hNames, hOthers] at hBelow
      exact hBelow.elim
    | .ok names, .error cause =>
      rw [hNames, hOthers] at hBelow
      exact hBelow.elim

theorem outline_fileScript (tree path : String) (content : Except String String) :
    (fileScript tree path content).outline = readScript tree path content := by
  rw [fileScript, Script.outline_append, readScript]
  split <;> rfl

theorem outline_filesScript (files : FileTree) (tree : String) :
    ((files.answers tree).filesScript tree).outline =
      (files.scripts tree).map fun path =>
        .asked ⟨.readText (Path.join tree path), (files.answers tree).content path⟩
          (Step.refusal (.fileSystem .read (Path.join tree path))
            ((files.answers tree).content path)) := by
  rw [Answers.filesScript, scripts, Script.outline_flatMap]
  induction (files.answers tree).paths with
  | nil => rfl
  | cons path paths ih =>
    rw [List.flatMap_cons, ih, outline_fileScript, readScript, List.filter_cons]
    split <;> rfl

theorem Agree.outline_filesScript (h : Agree tree first second) :
    ((first.answers tree).filesScript tree).outline =
      ((second.answers tree).filesScript tree).outline := by
  rw [FileTree.outline_filesScript, FileTree.outline_filesScript, ← h.scripts_eq]
  refine List.map_congr_left fun path hPath => ?_
  rw [h.content_eq hPath]

end FileTree

end ProvideIndex
