import ProvideIndex.Proofs.Regenerate.Abort

/-!
# Before and after the table

A run goes on in the same way up to the accepted table, whatever manifest and formatter are asked
for, and after it depends on the scanned files alone.

* `run_eq_tabulate`: a run to an absolute output is `tabulate` and then `conclude`.
* `course_tabulate`, `course_conclude`: what shows of the two parts where they succeed.
* `tabulate_of_done`, `gather_of_tabulate`: how a run that ends with a report goes through them.
-/

namespace ProvideIndex.Regenerate

open Run Script

/-- A run up to the accepted table; the manifest and the formatter do not matter to it. -/
def tabulate (options : Options) : Run (List Source.File) := do
  let files ← gather options.anchor
  Run.reportAll (foundEvents (Scan.treeOf options.anchor) files)
  writeTable (.ofFiles files) options.output
  return files

/-- What a run does after the table. -/
def conclude (options : Options) (files : List Source.File) : Run Report := do
  writeManifestIf files options.manifest
  let exit ← format options.output options.formatter
  return reportOn files exit

variable {α σ ε : Type} {options : Options} {files : List Source.File} {exchanges : List Exchange}
  {events : List Event}

theorem reportAll_append_bind (first second : List Event) (f : Unit → Run α) :
    Run.reportAll (first ++ second) >>= f =
      Run.reportAll first >>= fun _ => Run.reportAll second >>= f := by
  induction first with
  | nil => rfl
  | cons event first ih => exact congrArg (Run.report event) ih

theorem publish_eq_conclude (options : Options) (files : List Source.File) :
    publish options (Scan.treeOf options.anchor) files =
      Run.reportAll (foundEvents (Scan.treeOf options.anchor) files) >>= fun _ =>
        writeTable (.ofFiles files) options.output >>= fun _ => conclude options files := by
  rw [foundEvents, reportAll_append_bind]
  simp only [publish, emit_bind]
  rfl

theorem run_eq_tabulate (hOutput : Path.isAbsolute options.output = true) :
    run options = tabulate options >>= conclude options := by
  have hBind : tabulate options >>= conclude options = gather options.anchor >>= fun files =>
      Run.reportAll (foundEvents (Scan.treeOf options.anchor) files) >>= fun _ =>
        writeTable (.ofFiles files) options.output >>= fun _ => conclude options files := by
    refine (bind_bind _ _ _).trans (congrArg _ (funext fun files => ?_))
    refine (bind_bind _ _ _).trans (congrArg _ (funext fun _ => ?_))
    exact bind_bind _ _ _
  rw [run_eq, if_pos hOutput, hBind]
  exact congrArg _ (funext fun files => publish_eq_conclude options files)

/-- Only a run to an absolute output comes to an end with a report. -/
theorem isAbsolute_of_done {world : World ε σ} {state : σ} {report : Report}
    (h : ((run options).execute world state).ending = .done report) :
    Path.isAbsolute options.output = true := by
  by_contra hOutput
  rw [run_eq, if_neg hOutput] at h
  cases h

/-! ### Courses of the two parts -/

theorem isLookup_of_course_gather {anchor : String} {result : Except Failure (List Source.File)}
    (h : Course (gather anchor) exchanges events result) :
    ∀ exchange ∈ exchanges, exchange.request.isLookup = true := by
  obtain ⟨found, scan, -, hFollows⟩ :=
    follows_gather (Scan.Answers.within_all _) h fun _ _ => trivial
  intro exchange hMem
  rw [hFollows.exchanges_eq] at hMem
  have hGathered := (prefix_exchanges _).subset hMem
  rw [exchanges_gatherScript] at hGathered
  exact isLookup_of_mem_gathered hGathered

/-- What is looked up to find these files. -/
theorem gathered_of_course_gather {anchor : String}
    (h : Course (gather anchor) exchanges events (.ok files)) :
    ∃ scan : Scan.Answers, files = scan.files ∧ exchanges = gathered anchor true scan := by
  obtain ⟨found, scan, -, hFollows⟩ :=
    follows_gather (Scan.Answers.within_all _) h fun _ _ => trivial
  obtain ⟨hNone, rfl⟩ := hFollows.failure?_of_ok
  have hFound : found = true := by
    rw [gatherScript, failure?_append, Option.or_eq_none_iff, Scan.failure?_anchorScript] at hNone
    cases found with
    | true => rfl
    | false => cases hNone.1
  subst hFound
  exact ⟨scan, rfl, by rw [hFollows.exchanges_eq, performed_of_none hNone, exchanges_gatherScript]⟩

theorem course_writeTable_ok {output : String}
    (h : Course (writeTable (.ofFiles files) output) exchanges events (.ok ())) :
    exchanges = [⟨.writeText output (TableText.render (.ofFiles files)), .ok ()⟩] ∧
      events = [.tableWritten output (SymbolTable.ofFiles files).size] := by
  obtain ⟨reply, later, hReply, rfl⟩ := course_request.mp h
  cases reply with
  | error cause =>
    obtain ⟨-, -, hResult⟩ := course_fail.mp hReply
    cases hResult
  | ok done =>
    obtain ⟨_, hRest, rfl⟩ := course_report.mp hReply
    obtain ⟨rfl, rfl, -⟩ := course_done.mp hRest
    exact ⟨rfl, rfl⟩

/-- What shows of a run up to the accepted table. -/
theorem course_tabulate (h : Course (tabulate options) exchanges events (.ok files)) :
    ∃ lookups scanEvents, Course (gather options.anchor) lookups scanEvents (.ok files) ∧
      exchanges = lookups ++ [tableWritten options files] ∧
      events = scanEvents ++ (foundEvents (Scan.treeOf options.anchor) files ++
        [.tableWritten options.output (SymbolTable.ofFiles files).size]) := by
  rcases course_bind.mp h with
    ⟨failure, -, hResult⟩ | ⟨found, lookups, rest, scanEvents, later, hGather, hRest, rfl, rfl⟩
  · cases hResult
  · obtain ⟨tableEvents, hWrite, rfl⟩ := course_reportAll.mp hRest
    obtain ⟨before, hTable, hFiles⟩ := course_map.mp hWrite
    cases before with
    | error failure => cases hFiles
    | ok done =>
      cases hFiles
      obtain ⟨rfl, rfl⟩ := course_writeTable_ok hTable
      exact ⟨lookups, scanEvents, hGather, rfl, rfl⟩

theorem course_writeManifestIf_ok {path? : Option String}
    (h : Course (writeManifestIf files path?) exchanges events (.ok ())) :
    exchanges = path?.toList.map (fun path =>
        ⟨.writeText path (Manifest.ofFiles files).text, .ok ()⟩) ∧ events = [] := by
  cases path? with
  | none =>
    obtain ⟨rfl, rfl, -⟩ := course_done.mp h
    exact ⟨rfl, rfl⟩
  | some path =>
    obtain ⟨reply, later, hReply, rfl⟩ := course_request.mp h
    cases reply with
    | error cause =>
      obtain ⟨-, -, hResult⟩ := course_fail.mp hReply
      cases hResult
    | ok done =>
      obtain ⟨rfl, rfl, -⟩ := course_done.mp hReply
      exact ⟨rfl, rfl⟩

/-- A formatter writes nothing through the run, and reports nothing but its own failure. -/
theorem course_format {path : String} {formatter? : Option Formatter}
    {result : Except Failure Int32} (h : Course (format path formatter?) exchanges events result) :
    (∀ exchange ∈ exchanges, ∃ program arguments,
        exchange.request = .runProgram program arguments) ∧
      ∀ event ∈ events, ∃ command code stderr, event = .formatterFailed command code stderr := by
  obtain ⟨reply, hFollows⟩ := follows_format h
  have hExchanges := (prefix_exchanges (formatScript path formatter? reply))
  rw [← hFollows.exchanges_eq, exchanges_formatScript] at hExchanges
  have hEvents : events <+: (formatScript path formatter? reply).events := by
    rw [hFollows.events_eq]
    exact (performed_prefix_self _).filterMap _
  constructor
  · intro exchange hMem
    have hMade := hExchanges.subset hMem
    cases formatter? with
    | none => cases hMade
    | some formatter =>
      rw [List.mem_singleton.mp hMade]
      exact ⟨_, _, rfl⟩
  · intro event hMem
    have hMade := hEvents.subset hMem
    match formatter?, reply with
    | none, _ => cases hMade
    | some formatter, .error cause => cases hMade
    | some formatter, .ok output =>
      rw [formatScript, formatEvents] at hMade
      split at hMade
      · cases hMade
      · rw [List.mem_singleton.mp hMade]
        exact ⟨_, _, _, rfl⟩

/-- What shows of a run that ends with a report, after the table. -/
theorem course_conclude {report : Report}
    (h : Course (conclude options files) exchanges events (.ok report)) :
    ∃ programs exit, exchanges = manifestWritten options files ++ programs ∧
      report = reportOn files exit ∧
      (∀ exchange ∈ programs, ∃ program arguments,
        exchange.request = .runProgram program arguments) ∧
      ∀ event ∈ events, ∃ command code stderr, event = .formatterFailed command code stderr := by
  rcases course_bind.mp h with
    ⟨failure, -, hResult⟩ | ⟨⟨⟩, first, rest, firstEvents, later, hManifest, hRest, rfl, rfl⟩
  · cases hResult
  · obtain ⟨rfl, rfl⟩ := course_writeManifestIf_ok hManifest
    obtain ⟨before, hFormat, hReport⟩ := course_map.mp hRest
    cases before with
    | error failure => cases hReport
    | ok exit =>
      cases hReport
      obtain ⟨hPrograms, hEvents⟩ := course_format hFormat
      exact ⟨rest, exit, rfl, rfl, hPrograms, hEvents⟩

/-! ### Executions of the two parts -/

/-- A run that ends with a report has gathered files and had their table accepted. -/
theorem tabulate_of_done {world : World ε σ} {state : σ} {report : Report}
    (h : ((run options).execute world state).ending = .done report) :
    ∃ files,
      ((tabulate options).execute world state).ending = .done files ∧
        ((conclude options files).execute world
          ((tabulate options).execute world state).state).ending = .done report ∧
        ((run options).execute world state).exchanges =
          ((tabulate options).execute world state).exchanges ++
            ((conclude options files).execute world
              ((tabulate options).execute world state).state).exchanges ∧
        ((run options).execute world state).events =
          ((tabulate options).execute world state).events ++
            ((conclude options files).execute world
              ((tabulate options).execute world state).state).events := by
  have hOutput := isAbsolute_of_done h
  rw [run_eq_tabulate hOutput, execute_bind, Outcome.andThen] at h ⊢
  cases hFirst : ((tabulate options).execute world state).ending with
  | done files =>
    rw [hFirst] at h
    exact ⟨files, rfl, h, rfl, rfl⟩
  | failed failure =>
    rw [hFirst] at h
    cases h
  | broken cause =>
    rw [hFirst] at h
    cases h

theorem gather_of_tabulate {world : World ε σ} {state : σ}
    (h : ((tabulate options).execute world state).ending = .done files) :
    ((gather options.anchor).execute world state).ending = .done files := by
  rw [tabulate, execute_bind, Outcome.andThen] at h
  cases hGather : ((gather options.anchor).execute world state).ending with
  | failed failure =>
    rw [hGather] at h
    cases h
  | broken cause =>
    rw [hGather] at h
    cases h
  | done found =>
    rw [hGather] at h
    have hCourse : Course _ _ _ (.ok files) := course_of_ending h
    obtain ⟨_, hWrite, -⟩ := course_reportAll.mp hCourse
    obtain ⟨before, -, hFiles⟩ := course_map.mp hWrite
    cases before with
    | error failure => cases hFiles
    | ok done =>
      cases hFiles
      rfl

end ProvideIndex.Regenerate
