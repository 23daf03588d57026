import ProvideIndex.Proofs.Path.Join
import ProvideIndex.Proofs.Regenerate.Overlay
import ProvideIndex.Proofs.Scan.Enumeration

/-!
# What a run reads

The tree and the options alone say what a run reads. Something may fail before the first read: the
output, the anchor, or a scan root. Else the scripts are read in ascending order up to the first one
that is refused, and if none is, all of them are read before anything is written or started.

* `failureBeforeReads?`: what fails before the first read.
* `performed_filesScript_of_some`: a scan that cannot read a script stops there.
* `ReadsUntil`: the reads of a run, in each of the cases above.
* `readsInOrder_execute`: a run over a tree reads the scripts of the tree in ascending order, each
  once, until something fails.
-/

namespace ProvideIndex

/-- The path that is read. -/
def Exchange.read? : Exchange → Option String
  | ⟨.readText path, _⟩ => some path
  | _ => none

theorem Exchange.read?_eq_none {exchange : Exchange} (h : exchange.request.isLookup = false) :
    exchange.read? = none := by
  obtain ⟨request, reply⟩ := exchange
  cases request with
  | fileExists path | listFiles root | writeText path contents => rfl
  | runProgram program arguments => rfl
  | readText path => cases h

namespace Scan

open Script

variable {answers : Answers} {tree : String} {failure : Failure}

/-- The exchange in which a script is read. -/
def Answers.readOf (answers : Answers) (tree path : String) : Exchange :=
  ⟨.readText (Path.join tree path), answers.content path⟩

theorem failure?_of_asked_mem {full : String} {reply : Except String String}
    {failure? : Option Failure}
    (h : .asked ⟨.readText full, reply⟩ failure? ∈ answers.filesScript tree) :
    failure? = Step.refusal (.fileSystem .read full) reply := by
  obtain ⟨path, -, hStep⟩ := List.mem_flatMap.mp h
  rcases List.mem_append.mp hStep with hRead | hReported
  · rw [readScript] at hRead
    split at hRead
    · cases List.mem_singleton.mp hRead
      rfl
    · cases hRead
  · cases List.mem_singleton.mp hReported

/-- A scan stops at the first script that it cannot read. -/
theorem performed_filesScript_of_some (h : (answers.filesScript tree).failure? = some failure) :
    ∃ before path after cause, answers.paths.filter isRead = before ++ path :: after ∧
      (∀ earlier ∈ before, ∃ text, answers.content earlier = .ok text) ∧
      answers.content path = .error cause ∧
      failure = .fileSystem .read (Path.join tree path) cause ∧
      (answers.filesScript tree).performed.exchanges =
        (before ++ [path]).map (answers.readOf tree) := by
  obtain ⟨first, exchange, last, hScript, hFirst, hPerformed⟩ := exists_first_of_failure? h
  have hReads : (answers.paths.filter isRead).map (answers.readOf tree) =
      exchanges first ++ exchange :: exchanges last := by
    have hAll := answers.exchanges_filesScript tree
    rw [hScript, exchanges_append] at hAll
    exact hAll.symm
  -- The exchanges of the steps are those of the paths, so the failing step belongs to a path.
  obtain ⟨before, others, hSplit, hBefore, hOthers⟩ := List.map_eq_append_iff.mp hReads
  obtain ⟨path, after, rfl, hPath, -⟩ := List.map_eq_cons_iff.mp hOthers
  have hRefusal : ∀ path failure?, .asked (answers.readOf tree path) failure? ∈
      answers.filesScript tree → failure? =
        Step.refusal (.fileSystem .read (Path.join tree path)) (answers.content path) :=
    fun path failure? hMem => failure?_of_asked_mem hMem
  have hFailing : some failure =
      Step.refusal (.fileSystem .read (Path.join tree path)) (answers.content path) := by
    refine hRefusal path _ ?_
    rw [hScript, ← hPath]
    exact List.mem_append_right _ (List.mem_cons_self ..)
  refine ⟨before, path, after, ?_⟩
  cases hContent : answers.content path with
  | ok text =>
    rw [hContent] at hFailing
    cases hFailing
  | error cause =>
    rw [hContent] at hFailing
    cases hFailing
    refine ⟨cause, hSplit, fun earlier hEarlier => ?_, rfl, rfl, ?_⟩
    · have hMem : answers.readOf tree earlier ∈ exchanges first := by
        rw [← hBefore]
        exact List.mem_map_of_mem hEarlier
      obtain ⟨step, hStep, hExchange⟩ := List.mem_filterMap.mp hMem
      cases step with
      | reported event => cases hExchange
      | asked asked failure? =>
        cases hExchange
        have hStepMem :
            .asked (answers.readOf tree earlier) failure? ∈ answers.filesScript tree := by
          rw [hScript]
          exact List.mem_append_left _ hStep
        have hNone : failure? = none := hFirst _ hStep
        exact Step.refusal_eq_none.mp ((hRefusal earlier failure? hStepMem).symm.trans hNone)
    · rw [hPerformed, exchanges_append, List.map_append, hBefore, ← hPath]
      rfl

/-! ### Where the scripts are -/

theorem roots_relative : ∀ root ∈ roots, Path.isAbsolute root.path = false ∧ root.path ≠ "" ∧
    Text.endsWith ['/'] root.path.toList = false := by
  decide +kernel

variable {files : FileTree} {path : String}

theorem isAbsolute_of_lists (h : files.Lists tree path) : Path.isAbsolute path = false := by
  obtain ⟨root, hRoot, -, names, -, name, -, rfl⟩ := h
  obtain ⟨hRelative, hEmpty, -⟩ := roots_relative root hRoot
  rw [String.append_assoc, Path.isAbsolute_append hEmpty, hRelative]

/-- Scripts keep their order below the root of the tree. -/
theorem pairwise_join_scripts (files : FileTree) (tree : String) :
    ((files.scripts tree).map (Path.join tree)).Pairwise (· < ·) := by
  rw [List.pairwise_map]
  refine (files.pairwise_scripts tree).imp_of_mem fun {first second} hFirst hSecond hLess => ?_
  have hFirstRelative := isAbsolute_of_lists (FileTree.mem_scripts.mp hFirst).1
  have hSecondRelative := isAbsolute_of_lists (FileTree.mem_scripts.mp hSecond).1
  exact Path.join_lt_join hFirstRelative hSecondRelative hLess

/-- Whether a path below the root of the tree is one that a scan root was walked to find. -/
def Walked (files : FileTree) (tree path : String) : Prop :=
  ∃ root ∈ roots, ∃ names, files.listFiles (Path.join tree root.path) = .ok names ∧
    ∃ name ∈ names, path = root.path ++ "/" ++ name ∧
      (Path.isAbsolute name = false →
        Path.join tree path = Path.join (Path.join tree root.path) name)

theorem walked_of_lists (h : files.Lists tree path) : Walked files tree path := by
  obtain ⟨root, hRoot, -, names, hNames, name, hName, rfl⟩ := h
  obtain ⟨hRelative, hEmpty, hEnd⟩ := roots_relative root hRoot
  exact ⟨root, hRoot, names, hNames, name, hName, rfl,
    fun h => (Path.join_join hRelative hEmpty hEnd h).symm⟩

end Scan

namespace Regenerate

open Run Script

/-! ### Before the reads -/

/-- What makes a run fail before it reads anything: the output, the anchor, or a scan root. -/
def failureBeforeReads? (files : FileTree) (options : Options) : Option Failure :=
  if Path.isAbsolute options.output then
    (Scan.anchorFailure? options.anchor (files.fileExists options.anchor)).or
      (Scan.roots.findSome? fun root =>
        Scan.rootFailure? (Scan.treeOf options.anchor) root
          ((files.answers (Scan.treeOf options.anchor)).listing root))
  else some (.outputNotAbsolute options.output)

variable {σ : Type} {world : World Empty σ} {files : FileTree} {options : Options}

/-- What a run asks before it reads anything. -/
def openingScript (files : FileTree) (options : Options) : Script :=
  Scan.anchorScript options.anchor (files.fileExists options.anchor) ++
    (files.answers (Scan.treeOf options.anchor)).rootsScript (Scan.treeOf options.anchor)

theorem failure?_openingScript (hOutput : Path.isAbsolute options.output = true) :
    (openingScript files options).failure? = failureBeforeReads? files options := by
  rw [openingScript, failure?_append, Scan.failure?_anchorScript,
    Scan.Answers.failure?_rootsScript, failureBeforeReads?, if_pos hOutput]

theorem filterMap_read?_openingScript (files : FileTree) (options : Options) :
    (openingScript files options).exchanges.filterMap Exchange.read? = [] := by
  rw [openingScript, exchanges_append, Scan.Answers.exchanges_rootsScript, List.filterMap_append,
    List.filterMap_flatMap, List.flatMap_eq_nil_iff.mpr]
  · rfl
  · intro root hRoot
    cases (files.answers (Scan.treeOf options.anchor)).listing root <;> rfl

/-! ### After the reads -/

/-- Whether an exchange after the reads is refused, and the failure that this means. -/
inductive Refused (options : Options) : Exchange → Failure → Prop where
  | write {path : String} (hPath : path = options.output ∨ options.manifest = some path)
      (contents cause : String) :
      Refused options ⟨.writeText path contents, .error cause⟩ (.fileSystem .write path cause)
  | program {formatter : Formatter} (hFormatter : options.formatter = some formatter)
      (cause : String) :
      Refused options
        ⟨.runProgram formatter.program (formatter.arguments ++ [options.output]), .error cause⟩
        (.formatterNotStarted formatter.command cause)

theorem refused_of_write {path contents : String} {reply : Except String Unit} {failure : Failure}
    (hPath : path = options.output ∨ options.manifest = some path)
    (h : some failure = Step.refusal (.fileSystem .write path) reply) :
    Refused options ⟨.writeText path contents, reply⟩ failure := by
  cases reply with
  | ok done => cases h
  | error cause =>
    cases h
    exact .write hPath contents cause

/-- While a run emits, a step fails only if its own request is refused. -/
theorem refused_of_mem_emitScript {found : List Source.File} {replies : Replies}
    {exchange : Exchange} {failure : Failure}
    (h : .asked exchange (some failure) ∈ emitScript options found replies) :
    Refused options exchange failure := by
  rcases List.mem_append.mp h with hTable | hLater
  · rcases List.mem_cons.mp hTable with hWrite | hReported
    · obtain ⟨rfl, hFailure⟩ := Step.asked.inj hWrite
      exact refused_of_write (.inl rfl) hFailure
    · cases List.mem_singleton.mp hReported
  rcases List.mem_append.mp hLater with hManifest | hFormat
  · cases hPath : options.manifest with
    | none =>
      rw [hPath] at hManifest
      cases hManifest
    | some path =>
      rw [hPath] at hManifest
      obtain ⟨rfl, hFailure⟩ := Step.asked.inj (List.mem_singleton.mp hManifest)
      exact refused_of_write (.inr hPath) hFailure
  · cases hFormatter : options.formatter with
    | none =>
      rw [hFormatter] at hFormat
      cases hFormat
    | some formatter =>
      rw [hFormatter] at hFormat
      cases hReply : replies.format with
      | error cause =>
        rw [hReply] at hFormat
        cases List.mem_singleton.mp hFormat
        exact .program hFormatter cause
      | ok output =>
        rw [hReply] at hFormat
        rcases List.mem_cons.mp hFormat with hRun | hReported
        · cases hRun
        · obtain ⟨event, -, hEvent⟩ := List.mem_map.mp hReported
          cases hEvent

/-! ### The reads -/

/-- The paths that a run reads of the scripts of a tree, and how it ends. -/
inductive ReadsUntil (files : FileTree) (options : Options) (scripts : List String)
    (exchanges : List Exchange) : Ending Empty Report → Prop where
  /-- Something fails before the first read. -/
  | none {failure : Failure} (hEarly : failureBeforeReads? files options = some failure)
      (hReads : exchanges.filterMap Exchange.read? = []) :
      ReadsUntil files options scripts exchanges (.failed failure)
  /-- A read is refused, and it is the last one. -/
  | failed {before after : List String} {path cause : String}
      (hEarly : failureBeforeReads? files options = Option.none)
      (hScripts : scripts = before ++ path :: after)
      (hBefore : ∀ earlier ∈ before,
        ∃ text, files.readText (Path.join (Scan.treeOf options.anchor) earlier) = .ok text)
      (hPath : files.readText (Path.join (Scan.treeOf options.anchor) path) = .error cause)
      (hReads : exchanges.filterMap Exchange.read? =
        (before ++ [path]).map (Path.join (Scan.treeOf options.anchor))) :
      ReadsUntil files options scripts exchanges
        (.failed (.fileSystem .read (Path.join (Scan.treeOf options.anchor) path) cause))
  /-- Everything is read, and the run ends with a report or at a refused write or program. -/
  | all {ending : Ending Empty Report} (hEarly : failureBeforeReads? files options = Option.none)
      (hTexts : ∀ path ∈ scripts,
        ∃ text, files.readText (Path.join (Scan.treeOf options.anchor) path) = .ok text)
      (hReads : exchanges.filterMap Exchange.read? =
        scripts.map (Path.join (Scan.treeOf options.anchor)))
      (hEnding : (∃ report, ending = .done report) ∨
        ∃ exchange failure, exchanges.getLast? = some exchange ∧
          Refused options exchange failure ∧ ending = .failed failure) :
      ReadsUntil files options scripts exchanges ending

/--
Whether a run reads the scripts of a tree that are not ignored, in strictly ascending order, up to
the first failure, and each at the place where the walk found it.
-/
structure ReadsInOrder {σ : Type} (files : FileTree) (options : Options)
    (outcome : Outcome Empty σ Report) (scripts : List String) : Prop where
  mem_iff : ∀ path, path ∈ scripts ↔
    files.Lists (Scan.treeOf options.anchor) path ∧ Scan.isRead path = true
  ascending : (scripts.map (Path.join (Scan.treeOf options.anchor))).Pairwise (· < ·)
  walked : ∀ path ∈ scripts, Scan.Walked files (Scan.treeOf options.anchor) path
  reads : ReadsUntil files options scripts outcome.exchanges outcome.ending

theorem filterMap_read?_emitted (options : Options) (files : List Source.File)
    (replies : Replies) :
    ((emitScript options files replies).performed.exchanges).filterMap Exchange.read? = [] :=
  List.filterMap_eq_nil_iff.mpr fun _ hMem =>
    Exchange.read?_eq_none (isLookup_of_mem_emitted hMem)

theorem filterMap_read?_reads (answers : Scan.Answers) (tree : String) (paths : List String) :
    (paths.map (answers.readOf tree)).filterMap Exchange.read? = paths.map (Path.join tree) := by
  have hRead : Exchange.read? ∘ answers.readOf tree = some ∘ Path.join tree := rfl
  rw [List.filterMap_map, hRead, List.filterMap_eq_map]

theorem filterMap_read?_filesScript (files : FileTree) (tree : String) :
    ((files.answers tree).filesScript tree).exchanges.filterMap Exchange.read? =
      (files.scripts tree).map (Path.join tree) := by
  rw [Scan.Answers.exchanges_filesScript]
  exact filterMap_read?_reads ..

/-- What is emitted after all reads goes on to a report, or up to a refused write or program. -/
theorem ending_of_emitted {found : List Source.File} {replies : Replies} {before : List Exchange}
    (value : Report) :
    (∃ report, Ending.ofResult ((emitScript options found replies).result value) =
        (.done report : Ending Empty Report)) ∨
      ∃ exchange failure,
        (before ++ (emitScript options found replies).performed.exchanges).getLast? =
            some exchange ∧
          Refused options exchange failure ∧
          Ending.ofResult ((emitScript options found replies).result value) =
            (.failed failure : Ending Empty Report) := by
  cases hFailure : (emitScript options found replies).failure? with
  | none =>
    rw [Script.result, hFailure]
    exact .inl ⟨value, rfl⟩
  | some failure =>
    obtain ⟨earlier, exchange, later, hScript, -, hPerformed⟩ := exists_first_of_failure? hFailure
    have hFailing : .asked exchange (some failure) ∈ emitScript options found replies := by
      rw [hScript]
      exact List.mem_append_right _ (List.mem_cons_self ..)
    refine .inr ⟨exchange, failure, ?_, refused_of_mem_emitScript hFailing, ?_⟩
    · rw [hPerformed, exchanges_append, ← List.append_assoc]
      exact List.getLast?_concat
    · rw [Script.result, hFailure]
      rfl

theorem readsUntil_script (hOutput : Path.isAbsolute options.output = true) (replies : Replies)
    (value : Report) :
    ReadsUntil files options (files.scripts (Scan.treeOf options.anchor))
      (script options (answersOf files options replies)).performed.exchanges
      (.ofResult ((script options (answersOf files options replies)).result value)) := by
  have hScript : script options (answersOf files options replies) =
      openingScript files options ++
        ((files.answers (Scan.treeOf options.anchor)).filesScript (Scan.treeOf options.anchor) ++
          publishScript options (Scan.treeOf options.anchor)
            (files.answers (Scan.treeOf options.anchor)).files replies) := by
    rw [script_eq, ← List.append_assoc]
    rfl
  have hOpening := filterMap_read?_openingScript files options
  have hEarly : (openingScript files options).failure? = failureBeforeReads? files options :=
    failure?_openingScript hOutput
  rw [hScript]
  cases hFirst : (openingScript files options).failure? with
  | some failure =>
    obtain ⟨unmade, hUnmade⟩ := prefix_exchanges (openingScript files options)
    rw [← hUnmade, List.filterMap_append, List.append_eq_nil_iff] at hOpening
    rw [performed_append_of_some hFirst, Script.result, failure?_append, hFirst]
    exact .none (hEarly.symm.trans hFirst) hOpening.1
  | none =>
    have hNone := hEarly.symm.trans hFirst
    rw [performed_append_of_none hFirst, exchanges_append, Script.result, failure?_append, hFirst,
      Option.none_or]
    cases hBody : ((files.answers (Scan.treeOf options.anchor)).filesScript
        (Scan.treeOf options.anchor)).failure? with
    | some failure =>
      obtain ⟨before, path, after, cause, hSplit, hBefore, hPath, rfl, hExchanges⟩ :=
        Scan.performed_filesScript_of_some hBody
      rw [performed_append_of_some hBody, hExchanges, failure?_append, hBody]
      refine .failed hNone hSplit hBefore hPath ?_
      rw [List.filterMap_append, hOpening, List.nil_append]
      exact filterMap_read?_reads ..
    | none =>
      have hTexts : ∀ path ∈ files.scripts (Scan.treeOf options.anchor),
          ∃ text, files.readText (Path.join (Scan.treeOf options.anchor) path) = .ok text := by
        intro path hPath
        obtain ⟨hListed, hRead⟩ := List.mem_filter.mp hPath
        exact Scan.Answers.failure?_filesScript_eq_none _ |>.mp hBody path hListed hRead
      rw [performed_append_of_none hBody, performed_publishScript, exchanges_append,
        exchanges_append, exchanges_reportedAll, List.nil_append, failure?_append, hBody,
        Option.none_or, publishScript, failure?_append, failure?_reportedAll, Option.none_or,
        ← List.append_assoc]
      refine .all hNone hTexts ?_ (ending_of_emitted value)
      rw [List.filterMap_append, List.filterMap_append, hOpening, filterMap_read?_filesScript,
        filterMap_read?_emitted, List.nil_append, List.append_nil]

theorem readsInOrder_execute (hWorld : world.Shows files) (options : Options) (state : σ) :
    ReadsInOrder files options ((run options).execute world state)
      (files.scripts (Scan.treeOf options.anchor)) where
  mem_iff _ := FileTree.mem_scripts
  ascending := Scan.pairwise_join_scripts ..
  walked _ hPath := Scan.walked_of_lists (FileTree.mem_scripts.mp hPath).1
  reads := by
    by_cases hOutput : Path.isAbsolute options.output = true
    · obtain ⟨replies, hFollows⟩ := follows_execute_of_shows hWorld hOutput state
      rw [← Ending.ofResult_result ((run options).execute world state).ending,
        hFollows.exchanges_eq, hFollows.result_eq]
      exact readsUntil_script hOutput replies _
    · obtain ⟨hNone, -, hResult⟩ :=
        course_run_of_not_isAbsolute hOutput (course_execute world (run options) state)
      rw [hNone, Ending.result_eq_error.mp hResult]
      exact .none (if_neg hOutput) rfl

/-- Where no script can be read, the first one is asked for and the other is not. -/
example :
    let files := { FileTree.twoProviders with readText := fun _ => .error "denied" }
    let outcome := (run ⟨"/t/closure/goog/base.js", "/out.go", none, none⟩).execute
      (files.overlay .accepting) ()
    outcome.exchanges.filterMap Exchange.read? = ["/t/closure/goog/../../closure/goog/b.js"] ∧
      outcome.ending =
        .failed (.fileSystem .read "/t/closure/goog/../../closure/goog/b.js" "denied") := by
  decide +kernel

end Regenerate

end ProvideIndex
