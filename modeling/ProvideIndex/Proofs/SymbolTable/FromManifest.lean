import ProvideIndex.Manifest
import ProvideIndex.Proofs.SymbolTable.Owner
import Mathlib.Data.Finset.Card
import Mathlib.Data.Finset.Dedup

/-!
# The table of a manifest

A manifest lists the libraries in the order of the files, so the symbol table can be made from it:
each entry gives its target to its symbols, and later entries overwrite earlier ones.

* `entries_table_ofFiles`: the table of the manifest is the symbol table with its labels as texts.
* `requires?_ofFiles`: what a path asks for is what the last entry with that path asks for.
* `size_ofFiles`: the symbol table is as large as the set of symbols that the entries declare.
-/

namespace ProvideIndex

namespace StringMap

variable {α β : Type}

theorem map_put (f : α → β) (key : String) (value : α) (entries : List (String × α)) :
    (put key value entries).map (Prod.map id f) =
      put key (f value) (entries.map (Prod.map id f)) := by
  induction entries with
  | nil => rfl
  | cons entry entries ih =>
    obtain ⟨k, v⟩ := entry
    rw [put, List.map_cons]
    change _ = put key (f value) ((k, f v) :: entries.map (Prod.map id f))
    rw [put]
    split
    · rfl
    · split
      · rfl
      · exact congrArg _ ih

/-- The map with the same keys and other values. -/
def map (f : α → β) (map : StringMap α) : StringMap β :=
  ⟨map.entries.map (Prod.map id f), List.pairwise_map.mpr map.ascending⟩

theorem map_insert (f : α → β) (m : StringMap α) (key : String) (value : α) :
    (m.insert key value).map f = (m.map f).insert key (f value) :=
  StringMap.mk.injEq .. |>.mpr (map_put f key value m.entries)

theorem nodup_keys (m : StringMap α) : m.keys.Nodup :=
  List.pairwise_map.mpr (m.ascending.imp fun h => String.ne_of_lt h)

theorem mem_keys_iff {m : StringMap α} {key : String} :
    key ∈ m.keys ↔ ∃ value, m.get? key = some value := by
  simp only [keys, List.mem_map, Prod.exists, mem_entries_iff]
  constructor
  · rintro ⟨_, value, h, rfl⟩
    exact ⟨value, h⟩
  · rintro ⟨value, h⟩
    exact ⟨key, value, h, rfl⟩

end StringMap

/-- Gives the target of an entry to its symbols, in order. -/
def LibraryEntry.giveTo (entry : LibraryEntry) (table : StringMap String) : StringMap String :=
  entry.provides.foldl (fun table symbol => table.insert symbol entry.target) table

/-- The target of each symbol, where later entries overwrite earlier ones. -/
def Manifest.table (manifest : Manifest) : StringMap String :=
  manifest.libraries.foldl (fun table entry => entry.giveTo table) .empty

namespace SymbolTable

variable {path symbol : String} {symbols : List String} {table : SymbolTable}
  {file : Source.File} {files : List Source.File}

/-- The text of the label of a path. -/
def targetOf (path : String) : String := (Label.ofPath path).text

/-- Each symbol with the text of the label of its owner. -/
def targetMap (table : SymbolTable) : StringMap String := table.owners.map targetOf

theorem entries_targetMap (table : SymbolTable) :
    table.targetMap.entries = table.targets.map fun entry => (entry.1, entry.2.text) := by
  rw [targets, List.map_map]
  rfl

theorem targetMap_giveAll :
    (giveAll path symbols table).1.targetMap =
      symbols.foldl (fun targets symbol => targets.insert symbol (targetOf path))
        table.targetMap := by
  induction symbols generalizing table with
  | nil => rfl
  | cons first symbols ih =>
    rw [giveAll_cons, ih, List.foldl_cons, targetMap, give, StringMap.map_insert, targetMap]

theorem targetMap_addFile (h : file.isLibrary = true) :
    (table.addFile file).1.targetMap = (LibraryEntry.ofFile file).giveTo table.targetMap := by
  rw [addFile, if_pos h]
  exact targetMap_giveAll

theorem targetMap_addFiles :
    (table.addFiles files).1.targetMap =
      (Manifest.ofFiles files).libraries.foldl (fun targets entry => entry.giveTo targets)
        table.targetMap := by
  induction files generalizing table with
  | nil => rfl
  | cons file files ih =>
    rw [addFiles_cons, ih, Manifest.ofFiles, Manifest.ofFiles, List.filter_cons]
    cases hLibrary : file.isLibrary with
    | true => rw [if_pos rfl, List.map_cons, List.foldl_cons, targetMap_addFile hLibrary]
    | false =>
      rw [if_neg Bool.false_ne_true, addFile, if_neg (Bool.eq_false_iff.mp hLibrary)]

/-- The table of the manifest is the symbol table. -/
theorem entries_table_ofFiles (files : List Source.File) :
    (Manifest.ofFiles files).table.entries =
      (ofFiles files).targets.map fun entry => (entry.1, entry.2.text) := by
  rw [← entries_targetMap, ofFiles, build, targetMap_addFiles]
  rfl

/-! ### What a path asks for -/

theorem requires_giveAll : (giveAll path symbols table).1.requires = table.requires := by
  induction symbols generalizing table with
  | nil => rfl
  | cons first symbols ih =>
    rw [giveAll_cons]
    exact ih

theorem requires?_addFile (h : file.isLibrary = true) :
    (table.addFile file).1.requires? path =
      if path = file.path then some file.requires else table.requires? path := by
  rw [addFile, if_pos h]
  change StringMap.get? (StringMap.insert (giveAll ..).1.requires _ _) path = _
  rw [StringMap.get?_insert, requires_giveAll]
  rfl

/-- The last entry with a path says what it asks for. -/
theorem requires?_addFiles :
    (table.addFiles files).1.requires? path =
      (((Manifest.ofFiles files).libraries.filter (·.path = path)).getLast?.map (·.requires)).or
        (table.requires? path) := by
  induction files generalizing table with
  | nil => rfl
  | cons file files ih =>
    rw [addFiles_cons, ih, Manifest.ofFiles, Manifest.ofFiles, List.filter_cons]
    cases hLibrary : file.isLibrary with
    | true =>
      rw [if_pos rfl, List.map_cons, List.filter_cons, requires?_addFile hLibrary]
      change _ = Option.or (Option.map _ (List.getLast?
        (if decide (file.path = path) then LibraryEntry.ofFile file :: _ else _))) _
      by_cases hPath : file.path = path
      · rw [if_pos hPath.symm, if_pos (decide_eq_true hPath), List.getLast?_cons]
        cases (((files.filter (·.isLibrary)).map LibraryEntry.ofFile).filter
          (·.path = path)).getLast? <;> rfl
      · rw [if_neg (Ne.symm hPath), if_neg (by simpa using hPath)]
    | false =>
      rw [if_neg Bool.false_ne_true, addFile, if_neg (Bool.eq_false_iff.mp hLibrary)]

theorem requires?_ofFiles (files : List Source.File) (path : String) :
    (ofFiles files).requires? path =
      ((Manifest.ofFiles files).libraries.filter (·.path = path)).getLast?.map (·.requires) := by
  rw [ofFiles, build, requires?_addFiles]
  exact Option.or_none

/-! ### How large a table is -/

theorem exists_owner?_iff :
    (∃ path, (ofFiles files).owner? symbol = some path) ↔
      symbol ∈ (Manifest.ofFiles files).libraries.flatMap (·.provides) := by
  rw [List.mem_flatMap, owner?_ofFiles]
  constructor
  · rintro ⟨path, h⟩
    obtain ⟨file, hLast, rfl⟩ := Option.map_eq_some_iff.mp h
    have hMem := List.mem_filter.mp (List.mem_of_getLast? hLast)
    have hSymbol : symbol ∈ file.provides := of_decide_eq_true hMem.2
    have hLibrary : file.isLibrary = true := Source.File.isLibrary_of_mem_provides hSymbol
    exact ⟨.ofFile file, List.mem_map_of_mem (List.mem_filter.mpr ⟨hMem.1, hLibrary⟩), hSymbol⟩
  · rintro ⟨entry, hEntry, hSymbol⟩
    obtain ⟨file, hFile, rfl⟩ := List.mem_map.mp hEntry
    have hDeclares : file ∈ files.filter fun file => symbol ∈ file.provides :=
      List.mem_filter.mpr ⟨(List.mem_filter.mp hFile).1, decide_eq_true hSymbol⟩
    obtain ⟨last, hLast⟩ :=
      Option.ne_none_iff_exists'.mp (mt List.getLast?_eq_none_iff.mp (List.ne_nil_of_mem hDeclares))
    exact ⟨last.path, by rw [hLast, Option.map_some]⟩

theorem size_ofFiles (files : List Source.File) :
    (ofFiles files).size =
      ((Manifest.ofFiles files).libraries.flatMap (·.provides)).toFinset.card := by
  have hKeys : ((Manifest.ofFiles files).libraries.flatMap (·.provides)).toFinset =
      (ofFiles files).owners.keys.toFinset := by
    ext symbol
    rw [List.mem_toFinset, List.mem_toFinset, StringMap.mem_keys_iff]
    exact exists_owner?_iff.symm
  rw [hKeys, List.toFinset_card_of_nodup (StringMap.nodup_keys _), StringMap.keys,
    List.length_map]
  rfl

end SymbolTable

end ProvideIndex
