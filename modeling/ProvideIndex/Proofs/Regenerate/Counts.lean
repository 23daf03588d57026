import ProvideIndex.Proofs.Regenerate.Table
import ProvideIndex.Proofs.Regenerate.Tabulate
import ProvideIndex.Proofs.Scan.Reports
import ProvideIndex.Proofs.SymbolTable.FromManifest

/-!
# What a run counts

The report of a run, the events on its scan and on its table, the manifest and the written table all
come from the same files, so they agree.

* `counted_of_done`: what a run that ends with a report counts and writes.
* `table_manifest_agree`: the table is made from the manifest, and a run counts what they hold.
-/

namespace ProvideIndex

/-- Whether an event tells how much was found or written. -/
def Event.isTally (event : Event) : Bool := event matches .scanned .. | .tableWritten ..

theorem Event.isTally_of_isDebug {event : Event} (h : Scan.IsDebug event) :
    event.isTally = false := by
  cases event with
  | rootWalked | rootAbsent | classified | clash | formatterFailed => rfl
  | scanned | tableWritten => cases h

namespace Regenerate

open Run Script

variable {ε σ : Type} {options : Options} {files : List Source.File} {exchanges : List Exchange}
  {events : List Event}

theorem isTally_of_course_gather {anchor : String} {result : Except Failure (List Source.File)}
    (h : Course (gather anchor) exchanges events result) :
    ∀ event ∈ events, event.isTally = false := by
  have hGather : (gather anchor).ReportsOnly Scan.IsDebug :=
    (Scan.reportsOnly_locate anchor).bind fun tree => Scan.reportsOnly_files _
  exact fun event hMem => Event.isTally_of_isDebug (hGather.of_course h event hMem)

theorem filter_isTally_eq_nil (h : ∀ event ∈ events, event.isTally = false) :
    events.filter Event.isTally = [] :=
  List.filter_eq_nil_iff.mpr fun event hMem => Bool.eq_false_iff.mp (h event hMem)

theorem filter_isTally_foundEvents (tree : String) (files : List Source.File) :
    (foundEvents tree files).filter Event.isTally =
      [.scanned tree files.length (files.filter (·.isLibrary)).length
        (SymbolTable.ofFiles files).size] := by
  have hClashes : ((SymbolTable.clashes files).map Event.clash).filter Event.isTally = [] := by
    refine filter_isTally_eq_nil fun event hMem => ?_
    obtain ⟨clash, -, rfl⟩ := List.mem_map.mp hMem
    rfl
  rw [foundEvents, List.filter_append, hClashes]
  rfl

/-- The text of a table, from its symbols and their targets. -/
def tableText (entries : List (String × String)) : String :=
  TableText.header ++ TableText.packageLine ++ TableText.opening ++
      String.join (entries.map fun entry => "\t\"" ++ entry.1 ++ "\": \"" ++ entry.2 ++ "\",\n") ++
    TableText.closing

/-- What a run that ended with a report shows, counted on the manifest of the files it scanned. -/
structure Counted (options : Options) (scanned : List Source.File) (report : Report)
    (exchanges : List Exchange) (events : List Event) : Prop where
  files : report.files = scanned.length
  libraries : report.libraries = (Manifest.ofFiles scanned).libraries.length
  symbols : report.symbols =
    ((Manifest.ofFiles scanned).libraries.flatMap (·.provides)).toFinset.card
  /-- The written table has one line for each symbol. -/
  lines : (Manifest.ofFiles scanned).table.entries.length = report.symbols
  written : exchanges.filterMap Exchange.write? =
    (options.output, tableText (Manifest.ofFiles scanned).table.entries) ::
      options.manifest.toList.map fun path => (path, (Manifest.ofFiles scanned).text)
  tallies : events.filter Event.isTally =
    [.scanned (Scan.treeOf options.anchor) report.files report.libraries report.symbols,
      .tableWritten options.output report.symbols]

theorem render_ofFiles (files : List Source.File) :
    TableText.render (.ofFiles files) = tableText (Manifest.ofFiles files).table.entries := by
  rw [TableText.render_eq, SymbolTable.entries_table_ofFiles]
  rfl

theorem counted_of_done {world : World ε σ} {state : σ} {report : Report}
    (h : ((run options).execute world state).ending = .done report) :
    ∃ files, ((gather options.anchor).execute world state).ending = .done files ∧
      Counted options files report ((run options).execute world state).exchanges
        ((run options).execute world state).events := by
  obtain ⟨files, hTabulate, hConclude, hExchanges, hEvents⟩ := tabulate_of_done h
  obtain ⟨lookups, scanEvents, hGather, hTable, hTableEvents⟩ :=
    course_tabulate (course_of_ending hTabulate)
  obtain ⟨programs, exit, hAfter, rfl, hPrograms, hLast⟩ :=
    course_conclude (course_of_ending hConclude)
  have hLookups : lookups.filterMap Exchange.write? = [] :=
    List.filterMap_eq_nil_iff.mpr fun exchange hMem =>
      Exchange.write?_eq_none (isLookup_of_course_gather hGather exchange hMem)
  have hNoWrite : programs.filterMap Exchange.write? = [] := by
    refine List.filterMap_eq_nil_iff.mpr fun exchange hMem => ?_
    obtain ⟨program, arguments, hRequest⟩ := hPrograms exchange hMem
    obtain ⟨request, reply⟩ := exchange
    cases hRequest
    rfl
  have hFormatter : ∀ event ∈ ((conclude options files).execute world
      ((tabulate options).execute world state).state).events, event.isTally = false := by
    intro event hMem
    obtain ⟨command, code, stderr, rfl⟩ := hLast event hMem
    rfl
  refine ⟨files, gather_of_tabulate hTabulate, ?_, ?_, ?_, ?_, ?_, ?_⟩
  · rfl
  · exact (List.length_map _).symm
  · exact SymbolTable.size_ofFiles files
  · rw [SymbolTable.entries_table_ofFiles, List.length_map, SymbolTable.targets, List.length_map]
    rfl
  · rw [hExchanges, hTable, hAfter, List.filterMap_append, List.filterMap_append, hLookups,
      List.filterMap_append, hNoWrite, List.append_nil, manifestWritten, List.filterMap_map,
      ← render_ofFiles]
    refine congrArg _ ?_
    cases options.manifest <;> rfl
  · rw [hEvents, hTableEvents, List.filter_append, List.filter_append,
      filter_isTally_eq_nil (isTally_of_course_gather hGather), List.filter_append,
      filter_isTally_foundEvents, filter_isTally_eq_nil hFormatter]
    rfl

/--
The symbol table of any files is the one that their manifest makes, and it knows what a path asks for
as the last entry with that path does. A run that ends with a report counts these files, the entries
of their manifest and the symbols of the table, in its report and in its events, and writes one line
for each symbol.
-/
theorem table_manifest_agree :
    (∀ files : List Source.File,
      (Manifest.ofFiles files).table.entries =
          (SymbolTable.ofFiles files).targets.map (fun entry => (entry.1, entry.2.text)) ∧
        ∀ path, (SymbolTable.ofFiles files).requires? path =
          ((Manifest.ofFiles files).libraries.filter (·.path = path)).getLast?.map (·.requires)) ∧
      ∀ (ε σ : Type) (world : World ε σ) (options : Options) (state : σ) (report : Report),
        ((run options).execute world state).ending = .done report →
          ∃ files, ((gather options.anchor).execute world state).ending = .done files ∧
            Counted options files report ((run options).execute world state).exchanges
              ((run options).execute world state).events :=
  ⟨fun files => ⟨SymbolTable.entries_table_ofFiles files, SymbolTable.requires?_ofFiles files⟩,
    fun _ _ _ _ _ _ h => counted_of_done h⟩

theorem counted_of_twoProviders :
    let options : Options := ⟨"/t/closure/goog/base.js", "/out.go", none, some "/manifest.yaml"⟩
    let outcome := (run options).execute (FileTree.twoProviders.overlay .accepting) ()
    outcome.ending = .done ⟨4, 2, 2, 0⟩ ∧
      ∃ files,
        ((gather options.anchor).execute (FileTree.twoProviders.overlay .accepting) ()).ending =
            .done files ∧
          Counted options files ⟨4, 2, 2, 0⟩ outcome.exchanges outcome.events := by
  intro options outcome
  have hDone : outcome.ending = .done ⟨4, 2, 2, 0⟩ := by
    decide +kernel
  exact ⟨hDone, table_manifest_agree.2 _ _ _ _ _ _ hDone⟩

end Regenerate

end ProvideIndex
