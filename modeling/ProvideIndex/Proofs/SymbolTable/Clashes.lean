import ProvideIndex.Proofs.SymbolTable.Overlay

/-!
# Every declaration is counted

Making a table is a fold over the declared symbols, file by file, in which a symbol that has an
owner already gives rise to a clash. `Stands` says where the fold stands after some of them: who
owns what, which clashes there were, and that each symbol taken so far has either made the table
larger or been reported.

* `Stands.give`, `Stands.giveAll`, `Stands.addFiles`: one symbol, one file, all files.
* `clashes_eq`: each declaration that is not the first one of its symbol clashes with the latest
  earlier one.
* `isLastWriteFold_build`: what a table holds, which clashes its making reports, and how the table
  of two lists of files comes from their tables.
-/

namespace ProvideIndex

namespace SymbolTable

/-- A symbol where it stands among those that the library at `path` declares. -/
structure Occurrence where
  symbol : String
  path : String
  deriving DecidableEq, Repr

/-- The symbols that the libraries declare, file by file, each as often as it is declared. -/
def occurrences (files : List Source.File) : List Occurrence :=
  (files.filter (·.isLibrary)).flatMap fun file =>
    file.provides.map fun symbol => ⟨symbol, file.path⟩

/-- The latest occurrence of a symbol. -/
def latest? (symbol : String) (all : List Occurrence) : Option Occurrence :=
  (all.filter (·.symbol = symbol)).getLast?

/-- The clash of an occurrence with the latest earlier one of its symbol. -/
def clashOf? (earlier : List Occurrence) (current : Occurrence) : Option Clash :=
  (latest? current.symbol earlier).map fun previous =>
    ⟨current.symbol, previous.path, current.path⟩

/-- The clash of the occurrence at a place. -/
def clashAt? (all : List Occurrence) (place : Nat) : Option Clash :=
  all[place]?.bind (clashOf? (all.take place))

/-- The clashes of all occurrences, in order. -/
def clashesOf (all : List Occurrence) : List Clash :=
  (List.range all.length).filterMap (clashAt? all)

variable {path symbol : String} {symbols : List String} {table : SymbolTable}
  {file : Source.File} {files : List Source.File} {all : List Occurrence} {clashes : List Clash}

/-! ### One more occurrence -/

theorem latest?_concat (current : Occurrence) :
    latest? symbol (all ++ [current]) =
      if symbol = current.symbol then some current else latest? symbol all := by
  rw [latest?, List.filter_append]
  by_cases hSymbol : symbol = current.symbol
  · rw [if_pos hSymbol, List.filter_singleton, decide_eq_true hSymbol.symm]
    exact List.getLast?_concat
  · rw [if_neg hSymbol, List.filter_singleton, decide_eq_false (Ne.symm hSymbol), cond_false,
      List.append_nil]
    rfl

theorem clashAt?_concat {place : Nat} (h : place < all.length) (current : Occurrence) :
    clashAt? (all ++ [current]) place = clashAt? all place := by
  rw [clashAt?, clashAt?, List.getElem?_append_left h, List.take_append_of_le_length h.le]

/-- A new occurrence does not change the clashes of the earlier ones. -/
theorem clashesOf_concat (current : Occurrence) :
    clashesOf (all ++ [current]) = clashesOf all ++ (clashOf? all current).toList := by
  have hEarlier : (List.range all.length).filterMap (clashAt? (all ++ [current])) =
      clashesOf all :=
    List.filterMap_congr fun place hPlace => clashAt?_concat (List.mem_range.mp hPlace) current
  have hLast : clashAt? (all ++ [current]) all.length = clashOf? all current := by
    rw [clashAt?, List.getElem?_concat_length, List.take_left]
    rfl
  rw [clashesOf, List.length_append, List.length_singleton, List.range_succ,
    List.filterMap_append, hEarlier, List.filterMap_cons, hLast]
  cases clashOf? all current <;> rfl

/-! ### One more symbol -/

/-- A symbol makes the table larger or is reported. -/
theorem length_clash?_add_size (path symbol : String) (table : SymbolTable) :
    (table.clash? path symbol).toList.length + (table.give path symbol).size = table.size + 1 := by
  have hSize : (table.give path symbol).size =
      table.size + if (table.owner? symbol).isSome then 0 else 1 :=
    StringMap.size_insert table.owners symbol path
  rw [hSize, clash?]
  cases table.owner? symbol with
  | none =>
    show 0 + (table.size + 1) = table.size + 1
    omega
  | some previous =>
    show 1 + (table.size + 0) = table.size + 1
    omega

/-! ### Where the fold stands -/

/-- Whether a fold over these occurrences stands at this table, and has reported these clashes. -/
structure Stands (all : List Occurrence) (table : SymbolTable) (clashes : List Clash) : Prop where
  owner : ∀ symbol, table.owner? symbol = (latest? symbol all).map (·.path)
  reported : clashes = clashesOf all
  /-- Each occurrence has made the table larger or been reported. -/
  count : clashes.length + table.size = all.length

theorem stands_empty : Stands [] empty [] := ⟨fun _ => rfl, rfl, rfl⟩

/-- What libraries ask for does not matter. -/
theorem Stands.of_owners {other : SymbolTable} (h : Stands all table clashes)
    (hOwners : other.owners = table.owners) : Stands all other clashes := by
  have hOwner : ∀ symbol, other.owner? symbol = table.owner? symbol := fun symbol =>
    congrArg (StringMap.get? · symbol) hOwners
  have hSize : other.size = table.size := congrArg StringMap.size hOwners
  exact ⟨fun symbol => (hOwner symbol).trans (h.owner symbol), h.reported, hSize ▸ h.count⟩

theorem Stands.give (h : Stands all table clashes) (path symbol : String) :
    Stands (all ++ [⟨symbol, path⟩]) (table.give path symbol)
      (clashes ++ (table.clash? path symbol).toList) where
  owner other := by
    rw [owner?_give, latest?_concat]
    by_cases hOther : other = symbol
    · rw [if_pos hOther, if_pos hOther]
      rfl
    · rw [if_neg hOther, if_neg hOther, h.owner]
  reported := by
    have hClash : table.clash? path symbol = clashOf? all ⟨symbol, path⟩ := by
      rw [clash?, h.owner, Option.map_map]
      rfl
    rw [clashesOf_concat, hClash, ← h.reported]
  count := by
    have hOne := length_clash?_add_size path symbol table
    have hBefore := h.count
    rw [List.length_append, List.length_append, List.length_singleton]
    omega

theorem Stands.giveAll (h : Stands all table clashes) (path : String) (symbols : List String) :
    Stands (all ++ symbols.map fun symbol => ⟨symbol, path⟩) (giveAll path symbols table).1
      (clashes ++ (SymbolTable.giveAll path symbols table).2) := by
  induction symbols generalizing all table clashes with
  | nil =>
    rw [List.map_nil, List.append_nil]
    simpa [SymbolTable.giveAll] using h
  | cons symbol symbols ih =>
    have hRest := ih (h.give path symbol)
    rw [List.append_assoc, List.append_assoc, List.singleton_append] at hRest
    rw [giveAll_cons]
    exact hRest

theorem Stands.addFile (h : Stands all table clashes) (file : Source.File) :
    Stands (all ++ occurrences [file]) (table.addFile file).1
      (clashes ++ (table.addFile file).2) := by
  rw [SymbolTable.addFile, occurrences, List.filter_singleton]
  cases hLibrary : file.isLibrary with
  | true =>
    rw [cond_true, List.flatMap_singleton, if_pos rfl]
    exact (h.giveAll file.path file.provides).of_owners rfl
  | false =>
    rw [cond_false, List.flatMap_nil, List.append_nil, if_neg Bool.false_ne_true]
    simpa using h

theorem occurrences_cons :
    occurrences (file :: files) = occurrences [file] ++ occurrences files := by
  rw [occurrences, occurrences, occurrences, ← List.flatMap_append, ← List.filter_append]
  rfl

theorem Stands.addFiles (h : Stands all table clashes) (files : List Source.File) :
    Stands (all ++ occurrences files) (table.addFiles files).1
      (clashes ++ (table.addFiles files).2) := by
  induction files generalizing all table clashes with
  | nil =>
    rw [SymbolTable.addFiles, List.append_nil]
    exact (List.append_nil all).symm ▸ h
  | cons file files ih =>
    have hRest := ih (h.addFile file)
    rw [List.append_assoc, List.append_assoc, ← occurrences_cons] at hRest
    exact hRest

theorem stands_build (files : List Source.File) :
    Stands (occurrences files) (build files).1 (build files).2 :=
  stands_empty.addFiles files

/-- Each declaration that is not the first one of its symbol clashes with the latest one before. -/
theorem clashes_eq (files : List Source.File) : (build files).2 = clashesOf (occurrences files) :=
  (stands_build files).reported

/-! ### The whole fold -/

theorem map_symbol_occurrences :
    (occurrences files).map (·.symbol) =
      (Manifest.ofFiles files).libraries.flatMap (·.provides) := by
  rw [occurrences, Manifest.ofFiles, List.map_flatMap, List.flatMap_map]
  refine congrArg (List.flatMap · _) (funext fun file => ?_)
  rw [List.map_map]
  exact List.map_id _

/-- What a table made from files holds, and which clashes its making reports. -/
structure IsLastWriteFold (files : List Source.File) (table : SymbolTable) (clashes : List Clash) :
    Prop where
  owner : ∀ symbol, table.owner? symbol =
    (files.filter fun file => file.isLibrary ∧ symbol ∈ file.provides).getLast?.map (·.path)
  size : table.size = ((occurrences files).map (·.symbol)).toFinset.card
  targets : ∀ symbol label, (symbol, label) ∈ table.targets ↔
    ∃ path, table.owner? symbol = some path ∧ label = Label.ofPath path
  ascending : table.targets.Pairwise fun a b => a.1 < b.1
  requires : ∀ path, table.requires? path =
    (files.filter fun file => file.isLibrary ∧ file.path = path).getLast?.map (·.requires)
  /-- A raw library asks for nothing. -/
  raw : ∀ path file,
    (files.filter fun file => file.isLibrary ∧ file.path = path).getLast? = some file →
      file.isRaw = true → table.requires? path = some []
  /-- Each occurrence that is not the first one of its symbol clashes with the latest before it. -/
  reported : clashes =
    (List.range (occurrences files).length).filterMap (clashAt? (occurrences files))
  count : clashes.length + table.size = (occurrences files).length

theorem requires?_build (files : List Source.File) (path : String) :
    (build files).1.requires? path =
      (files.filter fun file => file.isLibrary ∧ file.path = path).getLast?.map
        (·.requires) := by
  have hLibraries : (Manifest.ofFiles files).libraries.filter (·.path = path) =
      (files.filter fun file => file.isLibrary ∧ file.path = path).map .ofFile := by
    rw [Manifest.ofFiles, List.filter_map, List.filter_filter]
    refine congrArg _ (List.filter_congr fun file _ => ?_)
    rw [Bool.decide_and, Bool.and_comm, Bool.decide_eq_true]
    rfl
  refine (requires?_ofFiles files path).trans ?_
  rw [hLibraries, List.getLast?_map, Option.map_map]
  rfl

theorem owner?_build (files : List Source.File) (symbol : String) :
    (build files).1.owner? symbol =
      (files.filter fun file => file.isLibrary ∧ symbol ∈ file.provides).getLast?.map
        (·.path) := by
  have hDeclaring : (files.filter fun file => symbol ∈ file.provides) =
      files.filter fun file => file.isLibrary ∧ symbol ∈ file.provides := by
    refine List.filter_congr fun file _ => decide_eq_decide.mpr ?_
    exact ⟨fun h => ⟨Source.File.isLibrary_of_mem_provides h, h⟩, And.right⟩
  rw [← hDeclaring]
  exact owner?_ofFiles

theorem isLastWriteFold_build (files others : List Source.File) :
    IsLastWriteFold files (build files).1 (build files).2 ∧
      (build (files ++ others)).1 = (build files).1.overlay (build others).1 := by
  refine ⟨?_, ofFiles_append files others⟩
  constructor
  case owner => exact owner?_build files
  case size =>
    rw [map_symbol_occurrences]
    exact size_ofFiles files
  case targets => exact fun symbol label => mem_targets_iff
  case ascending => exact pairwise_targets
  case requires => exact requires?_build files
  case raw =>
    intro path file hLast hRaw
    have hAsked : file.requires = [] := by
      obtain ⟨path, kind⟩ := file
      cases kind with
      | raw => rfl
      | ignored | unitTest | asset | library provides requires testOnly => cases hRaw
    rw [requires?_build, hLast, Option.map_some, hAsked]
  case reported => exact clashes_eq files
  case count => exact (stands_build files).count

example :
    (build [⟨"a.js", .library ["x", "x"] [] false⟩, ⟨"b.js", .library ["x"] [] false⟩]).2 =
      [⟨"x", "a.js", "a.js"⟩, ⟨"x", "a.js", "b.js"⟩] := by
  decide

end SymbolTable

end ProvideIndex
