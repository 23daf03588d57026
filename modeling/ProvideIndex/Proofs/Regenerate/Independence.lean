import ProvideIndex.Proofs.Regenerate.Reads
import ProvideIndex.Proofs.Regenerate.Table
import ProvideIndex.Proofs.Scan.Agreement
import ProvideIndex.Proofs.SymbolTable.Owner

/-!
# What ignored files and assets may change

A run does not tell apart two trees that agree on their scripts, except that it counts other numbers
of files and classifies other paths.

* `outline_scriptOf`: the scripts of gathering the files of such trees have the same outline.
* `emit_eq`: what is emitted depends on the libraries alone.
* `run_alike`: runs over such trees are alike, and what is read is what there is to read, in order.
-/

namespace ProvideIndex

namespace Regenerate

open Run Script

theorem outline_scriptOf {first second : FileTree} {anchor : String}
    (h : FileTree.Agree (Scan.treeOf anchor) first second) :
    (scriptOf first anchor).outline = (scriptOf second anchor).outline := by
  have hRoots : ((first.answers (Scan.treeOf anchor)).rootsScript (Scan.treeOf anchor)).outline =
      ((second.answers (Scan.treeOf anchor)).rootsScript (Scan.treeOf anchor)).outline := by
    rw [Scan.Answers.rootsScript, Scan.Answers.rootsScript, outline_flatMap, outline_flatMap]
    exact List.flatMap_congr fun root hRoot => h.outline_rootScript hRoot
  rw [scriptOf, scriptOf, gatherScript, gatherScript, outline_append, outline_append,
    Scan.Answers.script, Scan.Answers.script, outline_append, outline_append, hRoots,
    h.outline_filesScript, h.fileExists]

theorem outline_performed_scriptOf {first second : FileTree} {anchor : String}
    (h : FileTree.Agree (Scan.treeOf anchor) first second) :
    (scriptOf first anchor).performed.outline = (scriptOf second anchor).performed.outline := by
  rw [← performed_outline, ← performed_outline, outline_scriptOf h]

/-! ### The same emission -/

section Emission

variable {files others : List Source.File}

theorem build_eq (h : files.filter (·.isLibrary) = others.filter (·.isLibrary)) :
    SymbolTable.build files = SymbolTable.build others := by
  rw [← SymbolTable.build_filter, h, SymbolTable.build_filter]

theorem ofFiles_eq (h : files.filter (·.isLibrary) = others.filter (·.isLibrary)) :
    SymbolTable.ofFiles files = SymbolTable.ofFiles others := congrArg Prod.fst (build_eq h)

theorem emit_eq (h : files.filter (·.isLibrary) = others.filter (·.isLibrary))
    (options : Options) : emit options files = emit options others := by
  have hManifest : Manifest.ofFiles files = Manifest.ofFiles others := by
    rw [Manifest.ofFiles, Manifest.ofFiles, h]
  have hWrite : writeManifestIf files options.manifest =
      writeManifestIf others options.manifest := by
    cases options.manifest with
    | none => rfl
    | some path => rw [writeManifestIf, writeManifestIf, hManifest]
  rw [emit, emit, ofFiles_eq h, hWrite]

theorem outline_foundEvents (h : files.filter (·.isLibrary) = others.filter (·.isLibrary))
    (tree : String) :
    (foundEvents tree files).filterMap Event.outline? =
      (foundEvents tree others).filterMap Event.outline? := by
  have hClashes : SymbolTable.clashes files = SymbolTable.clashes others :=
    congrArg Prod.snd (build_eq h)
  rw [foundEvents, foundEvents, hClashes, ofFiles_eq h, h, List.filterMap_append,
    List.filterMap_append]
  rfl

/-- A report without the count of files. -/
def Report.outline (report : Report) : Report := { report with files := 0 }

theorem outline_reportOn (h : files.filter (·.isLibrary) = others.filter (·.isLibrary))
    (exit : Int32) : (reportOn files exit).outline = (reportOn others exit).outline := by
  rw [reportOn, reportOn, Report.outline, Report.outline, ofFiles_eq h, h]

end Emission

/-! ### Whole runs -/

/-- Outcomes that differ in counts of files, classified paths and names in listings at most. -/
structure Alike {σ : Type} (first second : Outcome Empty σ Report) : Prop where
  exchanges : first.exchanges.map Exchange.outline = second.exchanges.map Exchange.outline
  events : first.events.filterMap Event.outline? = second.events.filterMap Event.outline?
  result : first.ending.result.map Report.outline = second.ending.result.map Report.outline
  state : first.state = second.state

/-- What an outline keeps of exchanges is the same in runs that are alike. -/
theorem Alike.filterMap_eq {σ β : Type} {one other : Outcome Empty σ Report}
    {f : Exchange → Option β} (h : Alike one other)
    (hOutline : ∀ exchange, f exchange.outline = f exchange) :
    one.exchanges.filterMap f = other.exchanges.filterMap f := by
  have hSame : f ∘ Exchange.outline = f := funext hOutline
  have hKept := congrArg (List.filterMap f) h.exchanges
  rwa [List.filterMap_map, List.filterMap_map, hSame] at hKept

theorem read?_outline (exchange : Exchange) : exchange.outline.read? = exchange.read? := by
  obtain ⟨request, reply⟩ := exchange
  cases request with
  | listFiles root => cases reply <;> rfl
  | fileExists path | readText path | writeText path contents | runProgram program arguments => rfl

theorem write?_outline (exchange : Exchange) : exchange.outline.write? = exchange.write? := by
  obtain ⟨request, reply⟩ := exchange
  cases request with
  | listFiles root => cases reply <;> rfl
  | fileExists path | readText path | writeText path contents | runProgram program arguments => rfl

variable {σ : Type} {first second : FileTree}

theorem publish_alike {files others : List Source.File}
    (h : files.filter (·.isLibrary) = others.filter (·.isLibrary)) (rest : World Empty σ)
    (options : Options) (tree : String) (state : σ) :
    Alike ((publish options tree files).execute (first.overlay rest) state)
      ((publish options tree others).execute (second.overlay rest) state) := by
  have hEmit := execute_emit_overlay first second rest options files state
  rw [emit_eq h] at hEmit
  rw [execute_publish, execute_publish, emit_eq h, hEmit]
  refine ⟨rfl, ?_, ?_, rfl⟩
  · rw [List.filterMap_append, List.filterMap_append, outline_foundEvents h]
  · cases ((emit options others).execute (second.overlay rest) state).ending.result with
    | error failure => rfl
    | ok exit => exact congrArg Except.ok (outline_reportOn h exit)

theorem gather_publish_alike {options : Options}
    (h : FileTree.Agree (Scan.treeOf options.anchor) first second) (rest : World Empty σ)
    (state : σ) :
    Alike
      ((gather options.anchor >>= publish options (Scan.treeOf options.anchor)).execute
        (first.overlay rest) state)
      ((gather options.anchor >>= publish options (Scan.treeOf options.anchor)).execute
        (second.overlay rest) state) := by
  -- Both scripts fail at the same step, since an outline keeps all failing steps.
  have hOutline := outline_performed_scriptOf h
  have hExchanges := congrArg Script.exchanges hOutline
  have hEvents := congrArg Script.events hOutline
  rw [exchanges_outline, exchanges_outline] at hExchanges
  rw [events_outline, events_outline] at hEvents
  have hFailure : (scriptOf first options.anchor).failure? =
      (scriptOf second options.anchor).failure? := by
    rw [← failure?_outline, outline_scriptOf h, failure?_outline]
  rw [execute_bind, execute_bind, execute_gather_overlay, execute_gather_overlay, Script.result,
    Script.result, hFailure]
  cases (scriptOf second options.anchor).failure? with
  | some failure => exact ⟨hExchanges, hEvents, rfl, rfl⟩
  | none =>
    have hPublish : Alike
        ((publish options (Scan.treeOf options.anchor)
          (first.answers (Scan.treeOf options.anchor)).files).execute (first.overlay rest) state)
        ((publish options (Scan.treeOf options.anchor)
          (second.answers (Scan.treeOf options.anchor)).files).execute (second.overlay rest)
          state) :=
      publish_alike h.libraries_eq rest options _ state
    refine ⟨?_, ?_, hPublish.result, hPublish.state⟩
    · change List.map _ (_ ++ _) = List.map _ (_ ++ _)
      rw [List.map_append, List.map_append, hExchanges, hPublish.exchanges]
    · change List.filterMap _ (_ ++ _) = List.filterMap _ (_ ++ _)
      rw [List.filterMap_append, List.filterMap_append, hEvents, hPublish.events]

/--
Runs over two trees that agree on their scripts are alike, and both read these scripts in strictly
ascending order up to the first failure: all of them, unless one is refused or something failed
before.
-/
theorem run_alike (rest : World Empty σ) (options : Options) (state : σ)
    (h : FileTree.Agree (Scan.treeOf options.anchor) first second) :
    Alike ((run options).execute (first.overlay rest) state)
        ((run options).execute (second.overlay rest) state) ∧
      ∃ scripts,
        ReadsInOrder first options ((run options).execute (first.overlay rest) state) scripts ∧
          ReadsInOrder second options ((run options).execute (second.overlay rest) state)
            scripts := by
  constructor
  · rw [run_eq]
    split
    · exact gather_publish_alike h rest state
    · exact ⟨rfl, rfl, rfl, rfl⟩
  · refine ⟨first.scripts (Scan.treeOf options.anchor),
      readsInOrder_execute (first.shows_overlay rest) options state, ?_⟩
    rw [h.scripts_eq]
    exact readsInOrder_execute (second.shows_overlay rest) options state

/-- The libraries of `FileTree.twoProviders`, with other ignored files and assets beside them. -/
def otherAssets : FileTree where
  fileExists := FileTree.twoProviders.fileExists
  listFiles root :=
    if root = "/t/closure/goog/../../closure/goog" then .ok ["b.js"]
    else .ok ["c.css", "c.js", "c.txt", "demos/d.js"]
  readText := FileTree.twoProviders.readText

theorem agree_otherAssets :
    FileTree.Agree (Scan.treeOf "/t/closure/goog/base.js") FileTree.twoProviders otherAssets := by
  refine ⟨fun _ => rfl, fun root hRoot => ?_, fun _ _ _ => rfl⟩
  rcases List.mem_cons.mp hRoot with rfl | hRoot
  · have hDirectory : Path.join (Scan.treeOf "/t/closure/goog/base.js") "closure/goog" =
        "/t/closure/goog/../../closure/goog" := by
      decide +kernel
    have hNames : FileTree.twoProviders.listFiles "/t/closure/goog/../../closure/goog" =
        .ok ["a_test.js", "b.js", "notes.txt"] := rfl
    have hOthers : otherAssets.listFiles "/t/closure/goog/../../closure/goog" = .ok ["b.js"] := rfl
    rw [hDirectory, hNames, hOthers]
    exact FileTree.agreeBelow_of_filter (by decide +kernel)
  · cases List.mem_singleton.mp hRoot
    have hDirectory : Path.join (Scan.treeOf "/t/closure/goog/base.js") "third_party/closure/goog" =
        "/t/closure/goog/../../third_party/closure/goog" := by
      decide +kernel
    have hNames : FileTree.twoProviders.listFiles "/t/closure/goog/../../third_party/closure/goog" =
        .ok ["c.js"] := rfl
    have hOthers : otherAssets.listFiles "/t/closure/goog/../../third_party/closure/goog" =
        .ok ["c.css", "c.js", "c.txt", "demos/d.js"] := rfl
    rw [hDirectory, hNames, hOthers]
    exact FileTree.agreeBelow_of_filter (by decide +kernel)

/-- A run to `/out.go` and `/manifest.yaml`. -/
def assetsOptions : Options := ⟨"/t/closure/goog/base.js", "/out.go", none, some "/manifest.yaml"⟩

/-- The manifest of `FileTree.twoProviders`. -/
def twoProvidersManifest : String :=
  "libraries:\n" ++
    "- path: closure/goog/b.js\n" ++
    "  target: //closure/library:b\n" ++
    "  provides:\n  - x.B\n  - x.A\n  requires: []\n  test_only: false\n  raw: false\n" ++
    "- path: third_party/closure/goog/c.js\n" ++
    "  target: //third_party/closure/library:c\n" ++
    "  provides:\n  - x.A\n  requires: []\n  test_only: false\n  raw: false\n"

/-- Whether a run reads both libraries and writes their table and their manifest. -/
structure TellsTwoProviders (outcome : Outcome Empty Unit Report) : Prop where
  reads : outcome.exchanges.filterMap Exchange.read? =
    ["/t/closure/goog/../../closure/goog/b.js",
      "/t/closure/goog/../../third_party/closure/goog/c.js"]
  writes : outcome.exchanges.filterMap Exchange.write? =
    [("/out.go", twoProvidersTable), ("/manifest.yaml", twoProvidersManifest)]

theorem run_alike_otherAssets :
    let one := (run assetsOptions).execute (FileTree.twoProviders.overlay .accepting) ()
    let other := (run assetsOptions).execute (otherAssets.overlay .accepting) ()
    FileTree.Agree (Scan.treeOf assetsOptions.anchor) FileTree.twoProviders otherAssets ∧
      (Alike one other ∧
        ∃ scripts,
          ReadsInOrder FileTree.twoProviders assetsOptions one scripts ∧
            ReadsInOrder otherAssets assetsOptions other scripts) ∧
      (TellsTwoProviders one ∧ one.ending = .done ⟨4, 2, 2, 0⟩) ∧
      TellsTwoProviders other ∧ other.ending = .done ⟨5, 2, 2, 0⟩ := by
  have hAlike := run_alike .accepting assetsOptions () agree_otherAssets
  have hOne : TellsTwoProviders
      ((run assetsOptions).execute (FileTree.twoProviders.overlay .accepting) ()) :=
    ⟨by decide +kernel, by decide +kernel⟩
  have hOther : TellsTwoProviders
      ((run assetsOptions).execute (otherAssets.overlay .accepting) ()) :=
    ⟨(hAlike.1.filterMap_eq read?_outline).symm.trans hOne.reads,
      (hAlike.1.filterMap_eq write?_outline).symm.trans hOne.writes⟩
  have hReport : ((run assetsOptions).execute (FileTree.twoProviders.overlay .accepting)
      ()).ending = .done ⟨4, 2, 2, 0⟩ := by decide +kernel
  have hOtherReport : ((run assetsOptions).execute (otherAssets.overlay .accepting) ()).ending =
      .done ⟨5, 2, 2, 0⟩ := by decide +kernel
  exact ⟨agree_otherAssets, hAlike, ⟨hOne, hReport⟩, hOther, hOtherReport⟩

end Regenerate

end ProvideIndex
