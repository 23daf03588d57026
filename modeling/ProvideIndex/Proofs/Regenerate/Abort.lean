import ProvideIndex.Proofs.Regenerate.Exchanges

/-!
# Where a run stops

A run goes through its script in order and stops right after the first step that fails, whatever
answers it.

* `due_of_emitted`: what a run has written by the time it writes or starts something else.
* `run_ends`: a run to an absolute output ends by its script, and what it changes comes after the
  whole tree was listed and read.
-/

namespace ProvideIndex

namespace Scan

/-- Whether exchanges show that all files below the scan roots were listed and all scripts read. -/
def Complete (tree : String) (exchanges : List Exchange) : Prop :=
  ∀ root ∈ roots,
    (root.required = false ∧ ⟨.fileExists (Path.join tree root.path), false⟩ ∈ exchanges) ∨
      ∃ names, ⟨.listFiles (Path.join tree root.path), .ok names⟩ ∈ exchanges ∧
        ∀ name ∈ names, isRead (root.path ++ "/" ++ name) = true →
          ∃ text, ⟨.readText (Path.join tree (root.path ++ "/" ++ name)), .ok text⟩ ∈ exchanges

variable {answers : Answers} {tree path : String} {root : ScanRoot}

theorem Answers.mem_reads (h : path ∈ answers.paths) (hRead : isRead path = true) :
    ⟨.readText (Path.join tree path), answers.content path⟩ ∈ answers.reads tree :=
  List.mem_map.mpr ⟨path, List.mem_filter.mpr ⟨h, hRead⟩, rfl⟩

theorem Answers.mem_paths (hRoot : root ∈ roots) (h : path ∈ below root (answers.listing root)) :
    path ∈ answers.paths :=
  Text.mem_ascending.mpr (List.mem_flatMap.mpr ⟨root, hRoot, h⟩)

/-- A scan without a failing step has listed and read everything. -/
theorem complete_of_failure?_eq_none (h : (answers.script tree).failure? = none)
    {exchanges : List Exchange}
    (hRoots : ∀ root ∈ roots, ∀ exchange ∈ rootExchanges tree root (answers.listing root),
      exchange ∈ exchanges)
    (hReads : ∀ exchange ∈ answers.reads tree, exchange ∈ exchanges) :
    Complete tree exchanges := by
  intro root hRoot
  rw [Answers.script, Script.failure?_append, Option.or_eq_none_iff,
    answers.failure?_rootsScript_eq_none, answers.failure?_filesScript_eq_none] at h
  obtain ⟨hListed, hRead⟩ := h
  have hExchanges := hRoots root hRoot
  rcases hListed root hRoot with ⟨hAbsent, hRequired⟩ | ⟨names, hNames⟩
  · rw [hAbsent] at hExchanges
    exact .inl ⟨hRequired, hExchanges _ (List.mem_singleton_self _)⟩
  · rw [hNames] at hExchanges
    refine .inr ⟨names, hExchanges _ (List.mem_cons_of_mem _ (List.mem_singleton_self _)), ?_⟩
    intro name hName hScript
    have hPath : root.path ++ "/" ++ name ∈ answers.paths := by
      refine Answers.mem_paths hRoot ?_
      rw [hNames]
      exact List.mem_map_of_mem hName
    obtain ⟨text, hText⟩ := hRead _ hPath hScript
    refine ⟨text, hText ▸ hReads _ (Answers.mem_reads hPath hScript)⟩

end Scan

namespace Regenerate

open Run Script

/-! ### Before a change -/

/-- The accepted write of the table. -/
def tableWritten (options : Options) (files : List Source.File) : Exchange :=
  ⟨.writeText options.output (TableText.render (.ofFiles files)), .ok ()⟩

/-- The accepted write of the manifest, if one is asked for. -/
def manifestWritten (options : Options) (files : List Source.File) : List Exchange :=
  options.manifest.toList.map fun path => ⟨.writeText path (Manifest.ofFiles files).text, .ok ()⟩

/-- What a run has written by the time it makes a request that is not a lookup. -/
inductive Due (options : Options) (files : List Source.File) : List Exchange → Request → Prop where
  | table : Due options files [] (.writeText options.output (TableText.render (.ofFiles files)))
  | manifest {path : String} (h : options.manifest = some path) :
      Due options files [tableWritten options files]
        (.writeText path (Manifest.ofFiles files).text)
  | program {formatter : Formatter} (h : options.formatter = some formatter) :
      Due options files (tableWritten options files :: manifestWritten options files)
        (.runProgram formatter.program (formatter.arguments ++ [options.output]))

variable {options : Options} {files : List Source.File} {replies : Replies}
  {changes after : List Exchange} {exchange : Exchange}

theorem eq_of_singleton {made : Exchange} (h : [made] = changes ++ exchange :: after) :
    changes = [] ∧ exchange = made := by
  rcases List.append_eq_singleton_iff.mp h.symm with ⟨hChanges, hRest⟩ | ⟨-, hRest⟩
  · exact ⟨hChanges, List.head_eq_of_cons_eq hRest⟩
  · cases hRest

theorem eq_or_exists_of_cons {made : Exchange} {later : List Exchange}
    (h : made :: later = changes ++ exchange :: after) :
    (changes = [] ∧ exchange = made) ∨
      ∃ others, changes = made :: others ∧ later = others ++ exchange :: after := by
  rcases List.cons_eq_append_iff.mp h with ⟨hChanges, hRest⟩ | ⟨others, hChanges, hRest⟩
  · exact .inl ⟨hChanges, List.head_eq_of_cons_eq hRest⟩
  · exact .inr ⟨others, hChanges, hRest⟩

/-- The formatter is the only thing that is started, and nothing is written after the start. -/
theorem program_of_formatted {path : String} {formatter? : Option Formatter}
    {reply : Except String ProgramOutput}
    (h : (formatScript path formatter? reply).performed.exchanges = changes ++ exchange :: after) :
    changes = [] ∧ ∃ formatter, formatter? = some formatter ∧
      exchange.request = .runProgram formatter.program (formatter.arguments ++ [path]) := by
  have hMade : (formatScript path formatter? reply).performed.exchanges =
      (formatScript path formatter? reply).exchanges := by
    match formatter?, reply with
    | none, _ => rfl
    | some formatter, .error cause => rfl
    | some formatter, .ok output =>
      rw [formatScript, performed, performed_of_none (failure?_reportedAll _)]
      rfl
  rw [hMade, exchanges_formatScript] at h
  cases formatter? with
  | none =>
    have hLength := congrArg List.length h
    rw [List.length_append] at hLength
    simp at hLength
  | some formatter =>
    obtain ⟨hChanges, rfl⟩ := eq_of_singleton h
    exact ⟨hChanges, formatter, rfl, rfl⟩

/-- A run writes the table first, then the manifest, and starts the formatter at the end. -/
theorem due_of_emitted
    (h : (emitScript options files replies).performed.exchanges = changes ++ exchange :: after) :
    Due options files changes exchange.request := by
  obtain ⟨table, manifest, format⟩ := replies
  rw [emitScript] at h
  -- A refused write is the last exchange, so what follows it takes an accepted one.
  cases table with
  | error cause =>
    obtain ⟨rfl, rfl⟩ := eq_of_singleton h
    exact .table
  | ok done =>
    rcases eq_or_exists_of_cons h with ⟨rfl, rfl⟩ | ⟨later, rfl, hLater⟩
    · exact .table
    · cases hPath : options.manifest with
      | none =>
        rw [hPath] at hLater
        obtain ⟨rfl, formatter, hFormatter, hRequest⟩ := program_of_formatted hLater
        have hWritten : manifestWritten options files = [] := by
          rw [manifestWritten, hPath]
          rfl
        rw [hRequest, ← hWritten]
        exact .program hFormatter
      | some path =>
        rw [hPath] at hLater
        cases manifest with
        | error cause =>
          obtain ⟨rfl, rfl⟩ := eq_of_singleton hLater
          exact .manifest hPath
        | ok done =>
          rcases eq_or_exists_of_cons hLater with ⟨rfl, rfl⟩ | ⟨last, rfl, hLast⟩
          · exact .manifest hPath
          · obtain ⟨rfl, formatter, hFormatter, hRequest⟩ := program_of_formatted hLast
            have hWritten : manifestWritten options files =
                [⟨.writeText path (Manifest.ofFiles files).text, .ok ()⟩] := by
              rw [manifestWritten, hPath]
              rfl
            rw [hRequest, ← hWritten]
            exact .program hFormatter

theorem Due.isLookup_eq_false {request : Request} (h : Due options files changes request) :
    request.isLookup = false := by
  cases h with
  | table => rfl
  | manifest => rfl
  | program => rfl

/-- Nothing is looked up while a run emits. -/
theorem isLookup_of_mem_emitted
    (h : exchange ∈ (emitScript options files replies).performed.exchanges) :
    exchange.request.isLookup = false := by
  obtain ⟨changes, after, hSplit⟩ := List.append_of_mem h
  exact (due_of_emitted hSplit).isLookup_eq_false

/-! ### Before a change, the whole tree -/

variable {answers : Answers} {before : List Exchange}

theorem complete_lookups (h : (lookupScript options answers).failure? = none)
    (hLookups : ∀ exchange ∈ answers.lookups options, exchange ∈ before) :
    Scan.Complete (Scan.treeOf options.anchor) before := by
  rw [lookupScript, gatherScript, failure?_append, Option.or_eq_none_iff] at h
  refine Scan.complete_of_failure?_eq_none h.2 ?_ ?_
  · intro root hRoot exchange hMem
    refine hLookups exchange (List.mem_cons_of_mem _ (List.mem_append_left _ ?_))
    exact List.mem_flatMap.mpr ⟨root, hRoot, hMem⟩
  · intro exchange hMem
    exact hLookups exchange (List.mem_cons_of_mem _ (List.mem_append_right _ hMem))

/-- What is not a lookup comes after all lookups, none of which failed. -/
theorem exists_changes_of_performed
    (h : (script options answers).performed.exchanges = before ++ exchange :: after)
    (hChange : exchange.request.isLookup = false) :
    Scan.Complete (Scan.treeOf options.anchor) before ∧
      ∃ changes, before = answers.lookups options ++ changes ∧
        Due options answers.scan.files changes exchange.request := by
  have hNotMem : exchange ∉ answers.lookups options := by
    intro hMem
    rw [isLookup_of_mem_gathered hMem] at hChange
    cases hChange
  cases hLookup : (lookupScript options answers).failure? with
  | some failure =>
    have hMade : exchange ∈ (script options answers).performed.exchanges := by
      rw [h]
      exact List.mem_append_right _ (List.mem_cons_self ..)
    exact absurd ((exchanges_performed_of_some hLookup).subset hMade) hNotMem
  | none =>
    rw [exchanges_performed_of_none hLookup] at h
    -- The exchange cannot be one of the lookups, so it is cut off within what is emitted.
    rcases List.append_eq_append_iff.mp h with ⟨changes, rfl, hEmitted⟩ | ⟨rest, hRest, hEmitted⟩
    · refine ⟨complete_lookups hLookup fun _ => List.mem_append_left _, changes, rfl, ?_⟩
      exact due_of_emitted hEmitted
    · cases rest with
      | nil =>
        rw [List.append_nil] at hRest
        rw [← hRest]
        refine ⟨complete_lookups hLookup fun _ h => h, [], (List.append_nil _).symm, ?_⟩
        have hFirst : (emitScript options answers.scan.files answers.replies).performed.exchanges =
            [] ++ exchange :: after := hEmitted.symm
        exact due_of_emitted hFirst
      | cons first rest =>
        obtain ⟨rfl, -⟩ := List.cons_eq_cons.mp hEmitted
        refine absurd ?_ hNotMem
        rw [hRest]
        exact List.mem_append_right _ (List.mem_cons_self ..)

/-! ### Whole runs -/

/--
A run to a path that is not absolute does nothing. Any other goes through a script of lookups, then
writes, then programs, and ends by it; before it writes or starts anything, everything below the
scan roots was listed and read, and everything that is due was written.
-/
theorem run_ends {σ : Type} (world : World Empty σ) (options : Options) (state : σ) :
    let outcome := (run options).execute world state
    if Path.isAbsolute options.output then
      ∃ answers : Answers,
        (script options answers).exchanges =
            answers.lookups options ++ (answers.writes options ++ answers.programs options) ∧
          (script options answers).Ends
            (reportWith options answers.scan.files answers.replies)
            outcome.exchanges outcome.ending ∧
          ∀ before exchange after, outcome.exchanges = before ++ exchange :: after →
            exchange.request.isLookup = false →
              Scan.Complete (Scan.treeOf options.anchor) before ∧
                ∃ changes, before = answers.lookups options ++ changes ∧
                  Due options answers.scan.files changes exchange.request
    else
      outcome.exchanges = [] ∧ outcome.ending = .failed (.outputNotAbsolute options.output) := by
  intro outcome
  have hCourse : Course (run options) outcome.exchanges outcome.events outcome.ending.result :=
    course_execute world (run options) state
  by_cases hOutput : Path.isAbsolute options.output = true
  · rw [if_pos hOutput]
    have hBase : (⟨fun _ => none, fun _ => .error ""⟩ : Scan.Answers).Within (fun _ => True)
        (Scan.treeOf options.anchor) := ⟨fun _ _ _ => trivial, fun _ => trivial⟩
    obtain ⟨answers, -, hFollows⟩ := follows_run hOutput hBase hCourse fun _ _ => trivial
    refine ⟨answers, exchanges_script options answers, hFollows.ends, ?_⟩
    intro before exchange after hSplit hChange
    rw [hFollows.exchanges_eq] at hSplit
    exact exists_changes_of_performed hSplit hChange
  · rw [if_neg hOutput]
    obtain ⟨hNone, -, hResult⟩ := course_run_of_not_isAbsolute hOutput hCourse
    exact ⟨hNone, Ending.result_eq_error.mp hResult⟩

end Regenerate

end ProvideIndex
