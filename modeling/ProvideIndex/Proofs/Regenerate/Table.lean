import ProvideIndex.Proofs.Regenerate.Overlay
import ProvideIndex.Proofs.SymbolTable.Owner

/-!
# The written table

The table that a run writes, from the file tree that it scans.

* `table_of_first_write`: the first text that a run writes is the table of the greatest provider of
  each symbol.
-/

namespace ProvideIndex

namespace TableText

theorem entryLines_eq (entries : List (String × Label)) :
    entryLines entries =
      String.join (entries.map fun entry => entryLine entry.1 entry.2.text) := by
  induction entries with
  | nil => rfl
  | cons entry entries ih => rw [entryLines, ih, List.map_cons, String.join_cons]

theorem render_eq (table : SymbolTable) :
    render table =
      header ++ packageLine ++ opening ++
          String.join ((table.targets.map fun entry => (entry.1, entry.2.text)).map fun entry =>
            entryLine entry.1 entry.2) ++
        closing := by
  rw [render, entryLines_eq, List.map_map]
  rfl

end TableText

namespace FileTree

open Scan

/-- The path owns the symbol: no greater path provides it. -/
def Owns (files : FileTree) (tree path symbol : String) : Prop :=
  files.Provides tree path symbol ∧ ∀ other, files.Provides tree other symbol → other ≤ path

variable {files : FileTree} {tree path symbol : String}

theorem owner?_files :
    (SymbolTable.ofFiles (files.answers tree).files).owner? symbol = some path ↔
      files.Owns tree path symbol := by
  rw [SymbolTable.owner?_eq_some_iff (pairwise_files _), exists_file_iff]
  refine and_congr_right fun _ => ?_
  constructor
  · intro h other hOther
    obtain ⟨file, hFile, rfl, hSymbol⟩ := exists_file_iff.mpr hOther
    exact h file hFile hSymbol
  · intro h file hFile hSymbol
    exact h file.path (exists_file_iff.mp ⟨file, hFile, rfl, hSymbol⟩)

theorem mem_targets_files {target : String} :
    (symbol, target) ∈
        (SymbolTable.ofFiles (files.answers tree).files).targets.map
          (fun entry => (entry.1, entry.2.text)) ↔
      ∃ path, files.Owns tree path symbol ∧ target = (Label.ofPath path).text := by
  rw [List.mem_map]
  constructor
  · rintro ⟨⟨other, label⟩, hMem, hEq⟩
    cases hEq
    obtain ⟨path, hOwner, rfl⟩ := SymbolTable.mem_targets_iff.mp hMem
    exact ⟨path, owner?_files.mp hOwner, rfl⟩
  · rintro ⟨path, hOwns, rfl⟩
    have hMem : (symbol, Label.ofPath path) ∈
        (SymbolTable.ofFiles (files.answers tree).files).targets :=
      SymbolTable.mem_targets_iff.mpr ⟨path, owner?_files.mpr hOwns, rfl⟩
    exact ⟨_, hMem, rfl⟩

end FileTree

namespace Regenerate

open Run Script

variable {σ : Type} {world : World Empty σ} {files : FileTree} {options : Options}

/-- The first thing that a run writes, if it writes at all, is the table. -/
theorem head?_writes_performed {answers : Answers} {path text : String}
    (h : ((script options answers).performed.exchanges.filterMap Exchange.write?).head? =
      some (path, text)) :
    path = options.output ∧ text = TableText.render (.ofFiles answers.scan.files) := by
  cases hLookup : (lookupScript options answers).failure? with
  -- A run that fails while it looks up has made a part of its lookups, and no write.
  | some failure =>
    obtain ⟨rest, hRest⟩ := exchanges_performed_of_some hLookup
    have hNone := filterMap_write?_lookups options answers
    rw [← hRest, List.filterMap_append, List.append_eq_nil_iff] at hNone
    rw [hNone.1] at h
    cases h
  | none =>
    obtain ⟨later, hLater⟩ :=
      exchanges_performed_emitScript options answers.scan.files answers.replies
    rw [exchanges_performed_of_none hLookup, List.filterMap_append, filterMap_write?_lookups,
      hLater] at h
    cases h
    exact ⟨rfl, rfl⟩

/--
The first text that a run writes is the table, which holds one line for each symbol that some file
provides, in ascending order of symbols, with the label of the greatest path that provides it.
-/
theorem table_of_first_write (hWorld : world.Shows files) (options : Options) (state : σ)
    {path text : String}
    (hWrite : (((run options).execute world state).exchanges.filterMap Exchange.write?).head? =
      some (path, text)) :
    path = options.output ∧
      ∃ entries : List (String × String),
        text =
            TableText.header ++ TableText.packageLine ++ TableText.opening ++
                String.join (entries.map fun entry =>
                  "\t\"" ++ entry.1 ++ "\": \"" ++ entry.2 ++ "\",\n") ++
              TableText.closing ∧
          entries.Pairwise (fun a b => a.1 < b.1) ∧
          ∀ symbol target, (symbol, target) ∈ entries ↔
            ∃ path, files.Owns (Scan.treeOf options.anchor) path symbol ∧
              target = (Label.ofPath path).text := by
  by_cases hOutput : Path.isAbsolute options.output = true
  · obtain ⟨replies, hFollows⟩ := follows_execute_of_shows hWorld hOutput state
    rw [hFollows.exchanges_eq] at hWrite
    obtain ⟨hPath, hText⟩ := head?_writes_performed hWrite
    rw [TableText.render_eq] at hText
    refine ⟨hPath, _, hText, ?_, fun symbol target => FileTree.mem_targets_files⟩
    exact List.pairwise_map.mpr SymbolTable.pairwise_targets
  · obtain ⟨hNone, -, -⟩ :=
      course_run_of_not_isAbsolute hOutput (course_execute world (run options) state)
    rw [hNone] at hWrite
    cases hWrite

/-- The table of `FileTree.twoProviders`. -/
def twoProvidersTable : String :=
  TableText.header ++ TableText.packageLine ++ TableText.opening ++
      "\t\"x.A\": \"//third_party/closure/library:c\",\n" ++
      "\t\"x.B\": \"//closure/library:b\",\n" ++
    TableText.closing

theorem table_of_twoProviders :
    (((run ⟨"/t/closure/goog/base.js", "/out.go", none, none⟩).execute
        (FileTree.twoProviders.overlay .accepting) ()).exchanges.filterMap Exchange.write?).head? =
      some ("/out.go", twoProvidersTable) ∧
    ∃ entries : List (String × String),
      twoProvidersTable =
          TableText.header ++ TableText.packageLine ++ TableText.opening ++
              String.join (entries.map fun entry =>
                "\t\"" ++ entry.1 ++ "\": \"" ++ entry.2 ++ "\",\n") ++
            TableText.closing ∧
        entries.Pairwise (fun a b => a.1 < b.1) ∧
        ∀ symbol target, (symbol, target) ∈ entries ↔
          ∃ path, FileTree.twoProviders.Owns (Scan.treeOf "/t/closure/goog/base.js") path symbol ∧
            target = (Label.ofPath path).text := by
  have hWrite : (((run ⟨"/t/closure/goog/base.js", "/out.go", none, none⟩).execute
      (FileTree.twoProviders.overlay .accepting) ()).exchanges.filterMap Exchange.write?).head? =
        some ("/out.go", twoProvidersTable) := by
    decide +kernel
  have hShows := FileTree.twoProviders.shows_overlay .accepting
  exact ⟨hWrite, (table_of_first_write hShows _ () hWrite).2⟩

end Regenerate

end ProvideIndex
