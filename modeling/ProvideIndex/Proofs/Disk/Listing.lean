import Mathlib.Data.List.Sort
import Mathlib.Data.String.Basic
import ProvideIndex.Proofs.Disk.Paths
import ProvideIndex.Proofs.Disk.Tree
import ProvideIndex.Proofs.Text.Parts

/-!
# Listing the files below a directory

Where the entries of a disk make up a tree, the listing of a directory holds the path of each file
that is reached from it through directories only. A link counts as a file unless its path comes to a
directory, and nothing is listed through it: so a link that leads back up, or to itself, does no
harm.

* `mem_filesBelow_iff`: what is listed below a directory.
* `pairwise_filesBelow`: each path is listed once, in ascending order.
* `listFiles_of_isDirectoryAt`: the listing of a path that leads to a directory.
-/

namespace ProvideIndex.Disk

/-- Whether the entry at a path is a file, or a link that does not lead to a directory. -/
def IsListed (disk : Disk) (path : String) : Entry → Prop
  | .file _ | .program _ => True
  | .directory | .sink => False
  | .link _ => ¬∃ location, disk.ComesTo path location ∧ disk.isDirectory location = true

variable {disk : Disk} {root path name : String} {location way other : Location} {entry : Entry}

theorem countsAsFile_iff : disk.countsAsFile path entry = true ↔ disk.IsListed path entry := by
  cases entry with
  | file | program => exact iff_of_true rfl trivial
  | directory | sink => exact iff_of_false Bool.false_ne_true not_false
  | link target =>
    rw [countsAsFile, Bool.not_eq_true', ← Bool.not_eq_true, isDirectoryAt_iff]
    rfl

/-! ### Names joined to a path -/

theorem join_eq_intercalate (parts : List (List Char)) :
    Text.join '/' parts = ['/'].intercalate parts := by
  induction parts with
  | nil => rfl
  | cons part parts ih =>
    cases parts with
    | nil => simp [Text.join, List.intercalate]
    | cons next parts =>
      rw [Text.join, ih]
      simp [List.intercalate]

theorem toList_intercalate (names : List String) :
    ("/".intercalate names).toList = Text.join '/' (names.map String.toList) := by
  rw [String.toList_intercalate, join_eq_intercalate]
  rfl

/-- Names without a slash are joined to different paths. -/
theorem intercalate_inj (hWay : way ≠ []) (hOther : other ≠ [])
    (hNames : ∀ name ∈ way, '/' ∉ name.toList) (hOthers : ∀ name ∈ other, '/' ∉ name.toList)
    (h : "/".intercalate way = "/".intercalate other) : way = other := by
  have hChars := congrArg String.toList h
  rw [toList_intercalate, toList_intercalate] at hChars
  have hParts := (Text.join_inj (by simpa using hWay) (by simpa using hOther)
    (by simpa using hNames) (by simpa using hOthers)).mp hChars
  exact List.map_injective_iff.mpr (fun a b => String.toList_inj.mp) hParts

/-! ### What is listed -/

section Tree

variable (hTree : disk.IsTree)
include hTree

theorem mem_filesBelow_iff :
    name ∈ disk.filesBelow root location ↔
      ∃ way entry, disk.Reaches location way entry ∧ name = "/".intercalate way ∧
        disk.IsListed (Path.join root name) entry := by
  rw [filesBelow, List.mem_mergeSort, List.mem_filterMap]
  constructor
  · rintro ⟨⟨way, entry⟩, hMem, h⟩
    dsimp only at h
    split at h
    · rename_i hListed
      cases h
      exact ⟨way, entry, hTree.mem_below_iff.mp hMem, rfl, countsAsFile_iff.mp hListed⟩
    · cases h
  · rintro ⟨way, entry, hReaches, rfl, hListed⟩
    refine ⟨(way, entry), hTree.mem_below_iff.mpr hReaches, ?_⟩
    dsimp only
    rw [if_pos (countsAsFile_iff.mpr hListed)]

/-- No path is listed twice. -/
theorem pairwise_filesBelow (root : String) (location : Location) :
    (disk.filesBelow root location).Pairwise (· < ·) := by
  rw [filesBelow]
  generalize hFiles : List.filterMap _ (disk.below location) = files
  have hUnique : files.Pairwise (· ≠ ·) := by
    rw [← hFiles, List.pairwise_filterMap]
    refine (hTree.pairwise_below location).imp_of_mem ?_
    rintro ⟨way, entry⟩ ⟨other, another⟩ hWay hOther hNe name hName path hPath hSame
    dsimp only at hName hPath
    split at hName
    · split at hPath
      · cases hName
        cases hPath
        have hReaches := hTree.mem_below_iff.mp hWay
        have hLater := hTree.mem_below_iff.mp hOther
        have hSlash : ∀ name ∈ way, '/' ∉ name.toList := fun _ => hTree.not_mem_of_reaches hReaches
        have hOther : ∀ name ∈ other, '/' ∉ name.toList := fun _ => hTree.not_mem_of_reaches hLater
        exact hNe (intercalate_inj hReaches.nonempty hLater.nonempty hSlash hOther hSame)
      · cases hPath
    · cases hName
  have hSorted := List.pairwise_mergeSort' (· ≤ · : String → String → Prop) files
  have hPerm := List.mergeSort_perm files fun a b => a ≤ b
  refine (hSorted.and ((hPerm.pairwise_iff Ne.symm).mpr hUnique)).imp ?_
  rintro a b ⟨hLe, hNe⟩
  exact lt_of_le_of_ne hLe hNe

theorem listFiles_of_isDirectoryAt (hRoot : disk.isDirectoryAt root = true) :
    ∃ location names, disk.ComesTo root location ∧ disk.isDirectory location = true ∧
      disk.listFiles root = .ok names ∧ names.Pairwise (· < ·) ∧
      ∀ name, name ∈ names ↔ ∃ way entry, disk.Reaches location way entry ∧
        name = "/".intercalate way ∧ disk.IsListed (Path.join root name) entry := by
  obtain ⟨location, hComes, hDirectory⟩ := isDirectoryAt_iff.mp hRoot
  obtain ⟨itself, hItself⟩ := exists_locate_entry hComes
  have hList : disk.listFiles root = .ok (disk.filesBelow root location) := by
    rw [listFiles, hItself, locate_target_iff.mpr hComes]
    change (if _ then _ else _) = _
    rw [if_pos hDirectory]
    rfl
  exact ⟨location, disk.filesBelow root location, hComes, hDirectory, hList,
    pairwise_filesBelow hTree root location, fun name => mem_filesBelow_iff hTree⟩

end Tree

/-- A directory with links to a file, to two directories, to itself and to nothing. -/
def crossedDisk : Disk where
  entries :=
    [(["r"], .directory), (["r", "a"], .directory), (["r", "a", "b"], .file .empty),
      (["r", "a-b"], .file .empty), (["r", "near"], .link "a-b"), (["r", "under"], .link "a"),
      (["r", "a", "up"], .link ".."), (["r", "self"], .link "self"),
      (["r", "gone"], .link "nowhere")]
  workingDirectory := []

theorem isTree_crossedDisk : crossedDisk.IsTree where
  unique := by decide +kernel
  parents := by decide +kernel
  names := by decide +kernel

theorem listFiles_crossedDisk :
    crossedDisk.IsTree ∧ crossedDisk.isDirectoryAt "r" = true ∧
      ∃ location names, crossedDisk.ComesTo "r" location ∧ crossedDisk.isDirectory location = true ∧
        crossedDisk.listFiles "r" = .ok names ∧ names.Pairwise (· < ·) ∧
        ∀ name, name ∈ names ↔ ∃ way entry, crossedDisk.Reaches location way entry ∧
          name = "/".intercalate way ∧ crossedDisk.IsListed (Path.join "r" name) entry := by
  have hRoot : crossedDisk.isDirectoryAt "r" = true := by decide +kernel
  exact ⟨isTree_crossedDisk, hRoot, listFiles_of_isDirectoryAt isTree_crossedDisk hRoot⟩

end ProvideIndex.Disk
