import ProvideIndex.Proofs.Regenerate.Overlay
import ProvideIndex.Proofs.Regenerate.Tabulate

/-!
# The path of the manifest

The manifest is written after the table, and nothing keeps the two paths apart. The paths are those
that the run names its files by, told apart by their texts; which of them lead to one file is up to
the file system (see `Publishes.kept_iff`).

* `lastWritten_withManifest`: a run that asks for a manifest leaves the table that it leaves without,
  unless the manifest goes to the path of the table.
* `sharedPath_loses_table`: a run over `FileTree.twoProviders` whose manifest takes the place of the
  table.
-/

namespace ProvideIndex

/-- The path and the contents of a write that was accepted. -/
def Exchange.accepted? : Exchange → Option (String × String)
  | ⟨.writeText path contents, .ok ()⟩ => some (path, contents)
  | _ => none

/-- The text that was written last to a path. -/
def lastWritten (path : String) (exchanges : List Exchange) : Option String :=
  ((exchanges.filterMap Exchange.accepted?).reverse.find? fun written => written.1 = path).map (·.2)

section LastWritten

variable {path other contents : String} {first second : List Exchange}

theorem lastWritten_append :
    lastWritten path (first ++ second) =
      (lastWritten path second).or (lastWritten path first) := by
  rw [lastWritten, List.filterMap_append, List.reverse_append, List.find?_append, Option.map_or]
  rfl

theorem lastWritten_singleton :
    lastWritten path [⟨.writeText other contents, .ok ()⟩] =
      if other = path then some contents else none := by
  change Option.map _ (List.find? _ [(other, contents)]) = _
  by_cases h : other = path <;> simp [h]

theorem lastWritten_eq_none
    (h : ∀ exchange ∈ first, exchange.accepted? = none) : lastWritten path first = none := by
  rw [lastWritten, List.filterMap_eq_nil_iff.mpr h]
  rfl

theorem Exchange.accepted?_of_isLookup {exchange : Exchange}
    (h : exchange.request.isLookup = true) : exchange.accepted? = none := by
  obtain ⟨request, reply⟩ := exchange
  cases request with
  | fileExists | listFiles | readText | runProgram => rfl
  | writeText path contents => cases h

theorem Exchange.accepted?_of_runProgram {exchange : Exchange}
    (h : ∃ program arguments, exchange.request = .runProgram program arguments) :
    exchange.accepted? = none := by
  obtain ⟨request, reply⟩ := exchange
  obtain ⟨program, arguments, rfl⟩ := h
  rfl

end LastWritten

namespace Manifest

theorem head?_text (manifest : Manifest) : manifest.text.toList.head? = some 'l' := by
  have hKey : Yaml.ScalarText.isSimpleKey "libraries" = true := by decide +kernel
  have hName : Yaml.ScalarText.write 0 "libraries".toList = "libraries".toList := by decide +kernel
  rw [text, Yaml.writeRecord, String.toList_ofList, Yaml.Write.entries, if_pos hKey, hName]
  rfl

end Manifest

theorem TableText.head?_render (table : SymbolTable) :
    (render table).toList.head? = some '/' := by
  have hHeader : header.toList.head? = some '/' := by decide +kernel
  rw [render]
  simp only [String.toList_append, List.append_assoc]
  rw [List.head?_append, hHeader, Option.some_or]

/-- The text of a manifest begins with its key, and that of a table with a comment mark. -/
theorem Manifest.text_ne_render (manifest : Manifest) (table : SymbolTable) :
    manifest.text ≠ TableText.render table := by
  intro h
  have hHead := manifest.head?_text
  rw [h, TableText.head?_render] at hHead
  cases hHead

namespace Regenerate

open Run Script

variable {σ : Type} {world : World Empty σ} {options : Options} {files : List Source.File}
  {state : σ} {output : String}

/-- The options with this manifest, or with none. -/
def Options.withManifest (options : Options) (manifest : Option String) : Options :=
  { options with manifest := manifest }

theorem lastWritten_tabulate
    (h : ((tabulate options).execute world state).ending = .done files) :
    lastWritten output ((tabulate options).execute world state).exchanges =
      if options.output = output then some (TableText.render (.ofFiles files)) else none := by
  obtain ⟨lookups, _, hGather, hExchanges, -⟩ := course_tabulate (course_of_ending h)
  have hLookups : lastWritten output lookups = none :=
    lastWritten_eq_none fun exchange hMem =>
      Exchange.accepted?_of_isLookup (isLookup_of_course_gather hGather exchange hMem)
  rw [hExchanges, lastWritten_append, hLookups, Option.or_none, tableWritten, lastWritten_singleton]

/-- Without a manifest a run writes nothing after the table, whether the formatter starts or not. -/
theorem lastWritten_conclude_none (state : σ) :
    lastWritten output
      ((conclude (options.withManifest none) files).execute world state).exchanges = none := by
  refine lastWritten_eq_none fun exchange hMem => Exchange.accepted?_of_runProgram ?_
  have hCourse := course_execute world (conclude (options.withManifest none) files) state
  rcases course_bind.mp hCourse with
    ⟨failure, hManifest, -⟩ | ⟨⟨⟩, first, rest, _, _, hManifest, hFormat, hExchanges, -⟩
  · obtain ⟨-, -, hResult⟩ := course_done.mp hManifest
    cases hResult
  · obtain ⟨rfl, -, -⟩ := course_done.mp hManifest
    obtain ⟨before, hFormat, -⟩ := course_map.mp hFormat
    rw [hExchanges] at hMem
    exact (course_format hFormat).1 exchange hMem

theorem lastWritten_conclude {report : Report}
    (h : ((conclude options files).execute world state).ending = .done report) :
    lastWritten output ((conclude options files).execute world state).exchanges =
      if options.manifest = some output then some (Manifest.ofFiles files).text else none := by
  obtain ⟨programs, exit, hExchanges, -, hPrograms, -⟩ := course_conclude (course_of_ending h)
  have hLast : lastWritten output programs = none :=
    lastWritten_eq_none fun exchange hMem =>
      Exchange.accepted?_of_runProgram (hPrograms exchange hMem)
  rw [hExchanges, lastWritten_append, hLast, Option.none_or, manifestWritten]
  cases options.manifest with
  | none => rfl
  | some path =>
    rw [Option.toList_some, List.map_singleton, lastWritten_singleton]
    simp only [Option.some.injEq]

/--
A run that asks for a manifest and ends with a report leaves the table at its output, as the run
without a manifest does, unless the manifest goes to the output as well; then it leaves the manifest,
which is never the table.
-/
theorem lastWritten_withManifest (world : World Empty σ) (options : Options) (path : String)
    (state : σ) {report : Report}
    (hDone : ((run (options.withManifest (some path))).execute world state).ending =
      .done report) :
    ∃ files,
      ((gather options.anchor).execute world state).ending = .done files ∧
        lastWritten options.output
            ((run (options.withManifest none)).execute world state).exchanges =
          some (TableText.render (.ofFiles files)) ∧
        lastWritten options.output
            ((run (options.withManifest (some path))).execute world state).exchanges =
          some (if path = options.output then (Manifest.ofFiles files).text
            else TableText.render (.ofFiles files)) ∧
        (Manifest.ofFiles files).text ≠ TableText.render (.ofFiles files) := by
  obtain ⟨files, hTable, hConclude, hExchanges, -⟩ := tabulate_of_done hDone
  -- What comes before the manifest does not depend on it.
  have hTabulate : ((tabulate options).execute world state).ending = .done files := hTable
  have hOutput : Path.isAbsolute (options.withManifest (some path)).output = true :=
    isAbsolute_of_done hDone
  have hNone : run (options.withManifest none) =
      tabulate options >>= conclude (options.withManifest none) := run_eq_tabulate hOutput
  refine ⟨files, gather_of_tabulate hTabulate, ?_, ?_, Manifest.text_ne_render _ _⟩
  · rw [hNone, execute_bind, Outcome.andThen, hTabulate, lastWritten_append,
      lastWritten_conclude_none, Option.none_or, lastWritten_tabulate hTabulate, if_pos rfl]
  · rw [hExchanges, lastWritten_append, lastWritten_conclude hConclude,
      lastWritten_tabulate hTable]
    change (if some path = some options.output then _ else none).or
      (if options.output = options.output then _ else none) = _
    by_cases h : path = options.output <;> simp [h]

theorem lastWritten_of_twoProviders :
    let options : Options := ⟨"/t/closure/goog/base.js", "/out.go", none, none⟩
    let world := FileTree.twoProviders.overlay .accepting
    ((run (options.withManifest (some "/manifest.yaml"))).execute world ()).ending =
        .done ⟨4, 2, 2, 0⟩ ∧
      ∃ files,
        ((gather options.anchor).execute world ()).ending = .done files ∧
          lastWritten options.output
              ((run (options.withManifest none)).execute world ()).exchanges =
            some (TableText.render (.ofFiles files)) ∧
          lastWritten options.output
              ((run (options.withManifest (some "/manifest.yaml"))).execute world ()).exchanges =
            some (if "/manifest.yaml" = options.output then (Manifest.ofFiles files).text
              else TableText.render (.ofFiles files)) ∧
          (Manifest.ofFiles files).text ≠ TableText.render (.ofFiles files) := by
  intro options world
  have hDone : ((run (options.withManifest (some "/manifest.yaml"))).execute world ()).ending =
      .done ⟨4, 2, 2, 0⟩ := by
    decide +kernel
  exact ⟨hDone, lastWritten_withManifest world options "/manifest.yaml" () hDone⟩

/-- With one path for both, a run that ends well leaves another text than without a manifest. -/
theorem sharedPath_loses_table :
    let options : Options := ⟨"/t/closure/goog/base.js", "/out.go", none, none⟩
    let world := FileTree.twoProviders.overlay .accepting
    ((run (options.withManifest (some "/out.go"))).execute world ()).ending =
        .done ⟨4, 2, 2, 0⟩ ∧
      lastWritten "/out.go"
          ((run (options.withManifest (some "/out.go"))).execute world ()).exchanges ≠
        lastWritten "/out.go" ((run (options.withManifest none)).execute world ()).exchanges := by
  decide +kernel

end Regenerate

end ProvideIndex
