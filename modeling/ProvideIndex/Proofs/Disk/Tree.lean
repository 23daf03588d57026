import Mathlib.Data.List.Induction
import ProvideIndex.Disk.Basic

/-!
# The entries below a directory

On a disk whose entries make up a tree, the entries below a directory are those that are reached from
it through directories only, each of them once. A link is such an entry, but nothing is reached
through it.

* `IsTree.mem_below_iff`: the entries below a directory are those that it reaches.
* `IsTree.pairwise_below`: no two of them are reached by the same names.
* `IsTree.put`: entries that are put into directories leave a tree.
-/

namespace ProvideIndex.Disk

/-- Whether the entries of a disk make up a tree. -/
structure IsTree (disk : Disk) : Prop where
  /-- No two entries have one location. -/
  unique : (disk.entries.map (·.1)).Nodup
  /-- An entry stands in a directory. -/
  parents : ∀ entry ∈ disk.entries, disk.isDirectory entry.1.dropLast = true
  /-- A slash separates names and stands in none. -/
  names : ∀ entry ∈ disk.entries, ∀ name ∈ entry.1, '/' ∉ name.toList

/-- What is reached from a directory through directories only, by the names on the way. -/
inductive Reaches (disk : Disk) (start : Location) : List String → Entry → Prop
  | child {name : String} {entry : Entry} (h : disk.entryAt? (start ++ [name]) = some entry) :
      Reaches disk start [name] entry
  | deeper {way : List String} {name : String} {entry : Entry}
      (hWay : Reaches disk start way .directory)
      (h : disk.entryAt? (start ++ way ++ [name]) = some entry) :
      Reaches disk start (way ++ [name]) entry

variable {disk : Disk} {start location way : Location} {entry : Entry}

theorem entryAt?_eq_lookup (h : location ≠ []) :
    disk.entryAt? location = disk.entries.lookup location := by
  rw [entryAt?, List.isEmpty_eq_false_iff.mpr h, if_neg Bool.false_ne_true]

theorem mem_of_entryAt? (hLocation : location ≠ []) (h : disk.entryAt? location = some entry) :
    (location, entry) ∈ disk.entries := by
  rw [entryAt?_eq_lookup hLocation, List.lookup_eq_some_iff] at h
  obtain ⟨before, after, hEntries, -⟩ := h
  rw [hEntries]
  exact List.mem_append_right _ List.mem_cons_self

namespace Reaches

theorem nonempty (h : disk.Reaches start way entry) : way ≠ [] := by
  cases h with
  | child => exact List.cons_ne_nil _ _
  | deeper => exact List.append_ne_nil_of_right_ne_nil _ (List.cons_ne_nil _ _)

theorem entryAt?_eq (h : disk.Reaches start way entry) :
    disk.entryAt? (start ++ way) = some entry := by
  cases h with
  | child h => exact h
  | deeper hWay h => rwa [← List.append_assoc]

end Reaches

/-! ### Entries that are put -/

theorem mem_replaceOrAdd {entries : List (Location × Entry)} {item : Location × Entry}
    (h : item ∈ replaceOrAdd location entry entries) :
    item = (location, entry) ∨ item ∈ entries := by
  induction entries with
  | nil => exact .inl (List.mem_singleton.mp h)
  | cons first entries ih =>
    rw [replaceOrAdd] at h
    split at h
    · rename_i hSame
      rcases List.mem_cons.mp h with hItem | hItem
      · rw [hItem, beq_iff_eq.mp hSame]
        exact .inl rfl
      · exact .inr (List.mem_cons_of_mem _ hItem)
    · rcases List.mem_cons.mp h with hItem | hItem
      · exact .inr (hItem ▸ List.mem_cons_self)
      · exact (ih hItem).imp_right (List.mem_cons_of_mem _)

theorem nodup_replaceOrAdd {entries : List (Location × Entry)} (h : (entries.map (·.1)).Nodup) :
    ((replaceOrAdd location entry entries).map (·.1)).Nodup := by
  induction entries with
  | nil => exact List.nodup_cons.mpr ⟨List.not_mem_nil, List.nodup_nil⟩
  | cons first entries ih =>
    rw [List.map_cons, List.nodup_cons] at h
    rw [replaceOrAdd]
    split
    · exact List.nodup_cons.mpr h
    · rename_i hOther
      refine List.nodup_cons.mpr ⟨?_, ih h.2⟩
      intro hMem
      obtain ⟨item, hItem, hFirst⟩ := List.mem_map.mp hMem
      rcases mem_replaceOrAdd hItem with rfl | hOld
      · exact hOther (beq_iff_eq.mpr hFirst)
      · have hFirst : item.1 = first.1 := hFirst
        rw [← hFirst] at h
        exact h.1 (List.mem_map_of_mem hOld)

namespace IsTree

/-- A tree stays one when an entry is put into a directory, unless it replaces a directory. -/
theorem put (hTree : disk.IsTree) {name : String} (hDirectory : disk.isDirectory location = true)
    (hName : '/' ∉ name.toList)
    (hPlace : entry = .directory ∨ disk.isDirectory (location ++ [name]) = false) :
    (disk.put (location ++ [name]) entry).IsTree := by
  have hNonempty : location ++ [name] ≠ [] :=
    List.append_ne_nil_of_right_ne_nil _ (List.cons_ne_nil _ _)
  have hKept : ∀ other, disk.isDirectory other = true →
      (disk.put (location ++ [name]) entry).isDirectory other = true := by
    intro other hOther
    rw [isDirectory_iff, entryAt?_put _ _ _ _ hNonempty]
    by_cases hSame : other = location ++ [name]
    · have hNot : ¬disk.isDirectory (location ++ [name]) = false := by
        rw [← hSame, hOther]
        exact nofun
      rw [if_pos hSame, hPlace.resolve_right hNot]
    · rw [if_neg hSame]
      exact isDirectory_iff.mp hOther
  refine ⟨nodup_replaceOrAdd hTree.unique, ?_, ?_⟩
  · intro item hItem
    rcases mem_replaceOrAdd hItem with rfl | hOld
    · rw [List.dropLast_concat]
      exact hKept _ hDirectory
    · exact hKept _ (hTree.parents item hOld)
  · intro item hItem
    rcases mem_replaceOrAdd hItem with rfl | hOld
    · intro other hOther
      rcases List.mem_append.mp hOther with hFront | hLast
      · have hMem := mem_of_entryAt? (List.ne_nil_of_mem hFront) (isDirectory_iff.mp hDirectory)
        exact hTree.names _ hMem other hFront
      · rw [List.mem_singleton.mp hLast]
        exact hName
    · exact hTree.names item hOld

variable (hTree : disk.IsTree)
include hTree

theorem entryAt?_of_mem (hLocation : location ≠ []) (h : (location, entry) ∈ disk.entries) :
    disk.entryAt? location = some entry := by
  obtain ⟨before, after, hEntries⟩ := List.append_of_mem h
  have hUnique := hTree.unique
  rw [hEntries, List.map_append, List.map_cons, List.nodup_append] at hUnique
  rw [entryAt?_eq_lookup hLocation, List.lookup_eq_some_iff]
  refine ⟨before, after, hEntries, fun other hOther => ?_⟩
  rw [bne_iff_ne]
  exact (hUnique.2.2 _ (List.mem_map_of_mem hOther) _ List.mem_cons_self).symm

theorem isDirectory_parent {name : String} (h : disk.entryAt? (location ++ [name]) = some entry) :
    disk.isDirectory location = true := by
  have hNonempty : location ++ [name] ≠ [] :=
    List.append_ne_nil_of_right_ne_nil _ (List.cons_ne_nil _ _)
  have hParent := hTree.parents _ (mem_of_entryAt? hNonempty h)
  rwa [List.dropLast_concat] at hParent

/-- All entries whose location begins with that of a directory are reached from there. -/
theorem reaches_iff :
    disk.Reaches start way entry ↔ way ≠ [] ∧ disk.entryAt? (start ++ way) = some entry := by
  constructor
  · intro h
    exact ⟨h.nonempty, h.entryAt?_eq⟩
  · rintro ⟨hWay, h⟩
    induction way using List.reverseRecOn generalizing entry with
    | nil => exact absurd rfl hWay
    | append_singleton way name ih =>
      rw [← List.append_assoc] at h
      by_cases hFirst : way = []
      · subst hFirst
        rw [List.append_nil] at h
        exact .child h
      · -- The directory that holds the entry is reached, since the disk is a tree.
        have hParent := isDirectory_iff.mp (hTree.isDirectory_parent h)
        exact .deeper (ih hFirst hParent) h

/-- The entries below a directory are those that it reaches. -/
theorem mem_below_iff :
    (way, entry) ∈ disk.below start ↔ disk.Reaches start way entry := by
  rw [hTree.reaches_iff, below, List.mem_filterMap]
  constructor
  · rintro ⟨⟨location, other⟩, hMem, h⟩
    dsimp only at h
    split at h
    · rename_i hBelow
      obtain ⟨hPrefix, hLength⟩ := hBelow
      obtain ⟨rest, rfl⟩ := List.isPrefixOf_iff_prefix.mp hPrefix
      rw [List.drop_left] at h
      cases h
      have hRest : way ≠ [] := by
        rintro rfl
        rw [List.append_nil] at hLength
        exact Nat.lt_irrefl _ hLength
      exact ⟨hRest, hTree.entryAt?_of_mem (List.append_ne_nil_of_right_ne_nil _ hRest) hMem⟩
    · cases h
  · rintro ⟨hWay, h⟩
    refine ⟨(start ++ way, entry), mem_of_entryAt? (List.append_ne_nil_of_right_ne_nil _ hWay) h, ?_⟩
    have hPrefix : start.isPrefixOf (start ++ way) = true :=
      List.isPrefixOf_iff_prefix.mpr (List.prefix_append start way)
    have hLength : start.length < (start ++ way).length := by
      rw [List.length_append]
      exact Nat.lt_add_of_pos_right (List.length_pos_iff.mpr hWay)
    dsimp only
    rw [if_pos ⟨hPrefix, hLength⟩, List.drop_left]

/-- No two entries below a directory are reached by the same names. -/
theorem pairwise_below (start : Location) :
    (disk.below start).Pairwise fun a b => a.1 ≠ b.1 := by
  rw [below, List.pairwise_filterMap]
  have hUnique := List.pairwise_map.mp hTree.unique
  refine hUnique.imp ?_
  rintro ⟨location, entry⟩ ⟨other, another⟩ hNe found hFound later hLater hSame
  dsimp only at hFound hLater
  split at hFound
  · split at hLater
    · rename_i hLeft hRight
      obtain ⟨front, rfl⟩ := List.isPrefixOf_iff_prefix.mp hLeft.1
      obtain ⟨rest, rfl⟩ := List.isPrefixOf_iff_prefix.mp hRight.1
      rw [List.drop_left] at hFound hLater
      cases hFound
      cases hLater
      have hSame : front = rest := hSame
      exact hNe (congrArg (start ++ ·) hSame)
    · cases hLater
  · cases hFound

theorem not_mem_of_reaches (h : disk.Reaches start way entry) {name : String} (hName : name ∈ way) :
    '/' ∉ name.toList := by
  have hNonempty := List.append_ne_nil_of_right_ne_nil start h.nonempty
  exact hTree.names _ (mem_of_entryAt? hNonempty h.entryAt?_eq) name (List.mem_append_right _ hName)

end IsTree

end ProvideIndex.Disk
