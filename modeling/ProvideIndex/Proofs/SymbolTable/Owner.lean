import ProvideIndex.SymbolTable

/-!
# Who owns a symbol

A table is built by a fold in which later files overwrite earlier ones.

* `owner?_addFiles`: the last file that declares a symbol owns it.
* `owner?_eq_some_iff`: if the files come in strictly ascending order of their paths, that is the
  file with the greatest path among those that declare the symbol.
* `mem_targets_iff`: the entries of the table are the owned symbols, each with the label of its
  owner.
* `build_filter`: only libraries count.
-/

namespace ProvideIndex

namespace StringMap

variable {α : Type}

theorem mem_iff_find? {key : String} {value : α} {entries : List (String × α)}
    (h : entries.Pairwise fun a b => a.1 < b.1) :
    (key, value) ∈ entries ↔ find? key entries = some value := by
  induction entries with
  | nil => simp [find?]
  | cons entry entries ih =>
    obtain ⟨k, v⟩ := entry
    obtain ⟨hFirst, hEntries⟩ := List.pairwise_cons.mp h
    rw [List.mem_cons, find?]
    by_cases hKey : key = k
    · subst hKey
      have hNew : (key, value) ∉ entries := fun hMem =>
        String.lt_irrefl key (hFirst (key, value) hMem)
      simp [hNew, eq_comm]
    · rw [if_neg hKey, ← ih hEntries]
      simp [hKey]

theorem mem_entries_iff {map : StringMap α} {key : String} {value : α} :
    (key, value) ∈ map.entries ↔ map.get? key = some value :=
  mem_iff_find? map.ascending

end StringMap

namespace Source.File

theorem provides_eq_nil {file : File} (h : file.isLibrary = false) : file.provides = [] := by
  obtain ⟨path, kind⟩ := file
  cases kind with
  | ignored | unitTest | asset | raw => rfl
  | library provides requires testOnly => cases h

theorem isLibrary_of_mem_provides {file : File} {symbol : String} (h : symbol ∈ file.provides) :
    file.isLibrary = true := by
  cases hLibrary : file.isLibrary with
  | true => rfl
  | false =>
    rw [provides_eq_nil hLibrary] at h
    cases h

end Source.File

namespace SymbolTable

variable {path symbol : String} {symbols : List String} {table : SymbolTable}
  {file : Source.File} {files : List Source.File}

/-! ### One symbol -/

/-- The table after one symbol is given to the file at `path`. -/
def give (path symbol : String) (table : SymbolTable) : SymbolTable :=
  { table with owners := table.owners.insert symbol path }

/-- The clash that giving a symbol to the file at `path` means. -/
def clash? (path symbol : String) (table : SymbolTable) : Option Clash :=
  (table.owner? symbol).map fun previous => ⟨symbol, previous, path⟩

theorem giveAll_cons :
    giveAll path (symbol :: symbols) table =
      ((giveAll path symbols (table.give path symbol)).1,
        (table.clash? path symbol).toList ++
          (giveAll path symbols (table.give path symbol)).2) := by
  rw [giveAll, clash?, owner?]
  cases table.owners.get? symbol <;> rfl

theorem owner?_give (other : String) :
    (table.give path symbol).owner? other =
      if other = symbol then some path else table.owner? other :=
  StringMap.get?_insert table.owners symbol other path

/-! ### One file -/

theorem owner?_giveAll :
    (giveAll path symbols table).1.owner? symbol =
      if symbol ∈ symbols then some path else table.owner? symbol := by
  induction symbols generalizing table with
  | nil => simp [giveAll]
  | cons first symbols ih =>
    rw [giveAll_cons, ih, owner?_give]
    by_cases hMem : symbol ∈ symbols
    · simp [hMem]
    · by_cases hFirst : symbol = first <;> simp [hMem, hFirst]

theorem owner?_addFile :
    (table.addFile file).1.owner? symbol =
      if symbol ∈ file.provides then some file.path else table.owner? symbol := by
  rw [addFile]
  cases hLibrary : file.isLibrary with
  | true => exact owner?_giveAll
  | false =>
    rw [Source.File.provides_eq_nil hLibrary]
    simp

/-! ### All files -/

theorem addFiles_cons :
    table.addFiles (file :: files) =
      (((table.addFile file).1.addFiles files).1,
        (table.addFile file).2 ++ ((table.addFile file).1.addFiles files).2) := rfl

/-- The last file that declares a symbol owns it. -/
theorem owner?_addFiles :
    (table.addFiles files).1.owner? symbol =
      ((files.filter fun file => symbol ∈ file.provides).getLast?.map (·.path)).or
        (table.owner? symbol) := by
  induction files generalizing table with
  | nil => rfl
  | cons file files ih =>
    rw [addFiles_cons, List.filter_cons, ih, owner?_addFile]
    by_cases hMem : symbol ∈ file.provides
    · rw [if_pos hMem, if_pos (decide_eq_true hMem), List.getLast?_cons]
      cases (files.filter fun file => symbol ∈ file.provides).getLast? <;> rfl
    · rw [if_neg hMem, if_neg (by simpa using hMem)]

theorem owner?_ofFiles :
    (ofFiles files).owner? symbol =
      (files.filter fun file => symbol ∈ file.provides).getLast?.map (·.path) := by
  rw [ofFiles, build, owner?_addFiles]
  exact Option.or_none

theorem exists_file_of_owner? {symbol path : String}
    (h : (ofFiles files).owner? symbol = some path) :
    ∃ file ∈ files, symbol ∈ file.provides ∧ file.path = path := by
  rw [owner?_ofFiles] at h
  obtain ⟨file, hLast, hPath⟩ := Option.map_eq_some_iff.mp h
  obtain ⟨hFile, hSymbol⟩ := List.mem_filter.mp (List.mem_of_getLast? hLast)
  exact ⟨file, hFile, of_decide_eq_true hSymbol, hPath⟩

/-- In strictly ascending order the last file is the one with the greatest path. -/
theorem owner?_eq_some_iff (hFiles : files.Pairwise fun a b => a.path < b.path) :
    (ofFiles files).owner? symbol = some path ↔
      (∃ file ∈ files, file.path = path ∧ symbol ∈ file.provides) ∧
        ∀ file ∈ files, symbol ∈ file.provides → file.path ≤ path := by
  rw [owner?_ofFiles]
  have hAscending := hFiles.filter fun file => decide (symbol ∈ file.provides)
  have hMem : ∀ file, file ∈ files.filter (fun file => decide (symbol ∈ file.provides)) ↔
      file ∈ files ∧ symbol ∈ file.provides := by simp
  -- The owner is the last of the declaring files, which are in ascending order as all files are.
  cases hLast : (files.filter fun file => decide (symbol ∈ file.provides)).getLast? with
  | none =>
    rw [List.getLast?_eq_none_iff] at hLast
    rw [hLast] at hMem
    constructor
    · intro h
      cases h
    · rintro ⟨⟨file, hFile, -, hSymbol⟩, -⟩
      exact absurd ((hMem file).mpr ⟨hFile, hSymbol⟩) (List.not_mem_nil)
  | some last =>
    obtain ⟨before, hBefore⟩ := List.getLast?_eq_some_iff.mp hLast
    rw [hBefore] at hMem hAscending
    have hGreatest : ∀ file ∈ files, symbol ∈ file.provides → file.path ≤ last.path := by
      intro file hFile hSymbol
      rcases List.mem_append.mp ((hMem file).mpr ⟨hFile, hSymbol⟩) with hEarlier | hEq
      · exact String.not_lt.mp fun hLess => String.lt_irrefl _ (String.lt_trans hLess
          ((List.pairwise_append.mp hAscending).2.2 file hEarlier last (List.mem_singleton_self _)))
      · obtain rfl := List.mem_singleton.mp hEq
        exact String.le_refl _
    obtain ⟨hLastFile, hLastSymbol⟩ := (hMem last).mp (by simp)
    constructor
    · rintro h
      cases h
      exact ⟨⟨last, hLastFile, rfl, hLastSymbol⟩, hGreatest⟩
    · rintro ⟨⟨file, hFile, rfl, hSymbol⟩, hPath⟩
      exact congrArg some (String.le_antisymm (hPath last hLastFile hLastSymbol)
        (hGreatest file hFile hSymbol))

/-! ### What is written -/

theorem mem_targets_iff {label : Label} :
    (symbol, label) ∈ table.targets ↔
      ∃ path, table.owner? symbol = some path ∧ label = Label.ofPath path := by
  rw [targets, List.mem_map]
  constructor
  · rintro ⟨⟨key, path⟩, hMem, hEq⟩
    cases hEq
    exact ⟨path, StringMap.mem_entries_iff.mp hMem, rfl⟩
  · rintro ⟨path, hOwner, rfl⟩
    exact ⟨(symbol, path), StringMap.mem_entries_iff.mpr hOwner, rfl⟩

theorem pairwise_targets : table.targets.Pairwise fun a b => a.1 < b.1 :=
  List.pairwise_map.mpr table.owners.ascending

/-! ### Only libraries count -/

theorem addFiles_filter :
    table.addFiles (files.filter (·.isLibrary)) = table.addFiles files := by
  induction files generalizing table with
  | nil => rfl
  | cons file files ih =>
    rw [List.filter_cons]
    cases hLibrary : file.isLibrary with
    | true => simp only [if_true, addFiles, ih]
    | false => simp [addFiles, addFile, hLibrary, ih]

theorem build_filter : build (files.filter (·.isLibrary)) = build files := addFiles_filter

end SymbolTable

end ProvideIndex
