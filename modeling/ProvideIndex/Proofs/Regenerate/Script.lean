import ProvideIndex.Proofs.Scan.Script
import ProvideIndex.Regenerate

/-!
# The script of a regeneration run

What a whole run does, as a function of the answers it gets: it locates and scans the tree, reports
what it found, and then emits, which is to write the table, to write the manifest if one is asked
for, and to let the formatter go over the table.

* `run_eq`: a run gathers the files of the tree and publishes what it found.
* `follows_run`: every course of a run to an absolute output follows the script of some answers.
-/

namespace ProvideIndex.Regenerate

open Run Script

/-! ### The two halves of a run -/

/-- Locates the tree and scans it. -/
def gather (anchor : String) : Run (List Source.File) := do
  let _ ← Scan.locate anchor
  Scan.files (Scan.treeOf anchor)

/-- Writes the table and the manifest of the files, and runs the formatter. -/
def emit (options : Options) (files : List Source.File) : Run Int32 := do
  writeTable (.ofFiles files) options.output
  writeManifestIf files options.manifest
  format options.output options.formatter

/-- The report on these files, with the exit code of the formatter. -/
def reportOn (files : List Source.File) (exit : Int32) : Report where
  files := files.length
  libraries := (files.filter (·.isLibrary)).length
  symbols := (SymbolTable.ofFiles files).size
  formatterExit := exit

/-- Reports what a scan found, and emits it. -/
def publish (options : Options) (tree : String) (files : List Source.File) : Run Report := do
  Run.reportAll ((SymbolTable.clashes files).map .clash)
  let libraries := (files.filter (·.isLibrary)).length
  let symbols := (SymbolTable.ofFiles files).size
  Run.report (.scanned tree files.length libraries symbols) (.done ())
  let exit ← emit options files
  return reportOn files exit

theorem emit_bind {α : Type} (options : Options) (files : List Source.File) (f : Int32 → Run α) :
    emit options files >>= f =
      writeTable (.ofFiles files) options.output >>= fun _ =>
        writeManifestIf files options.manifest >>= fun _ =>
          format options.output options.formatter >>= f := by
  change (Run.bind _ _).bind f = _
  rw [bind_bind]
  refine congrArg _ (funext fun _ => ?_)
  change (Run.bind _ _).bind f = _
  rw [bind_bind]
  rfl

/-- Where an anchor locates a tree, it is the tree of the anchor. -/
theorem locate_bind {α : Type} (anchor : String) (f : String → Run α) :
    Scan.locate anchor >>= f = Scan.locate anchor >>= fun _ => f (Scan.treeOf anchor) := by
  refine congrArg (Run.ask (.fileExists anchor)) (funext fun found => ?_)
  unfold Scan.treeOf
  cases found with
  | false => rfl
  | true => cases Path.parent? anchor <;> rfl

theorem run_eq (options : Options) :
    run options =
      if Path.isAbsolute options.output then
        gather options.anchor >>= publish options (Scan.treeOf options.anchor)
      else .fail (.outputNotAbsolute options.output) := by
  have hGather : gather options.anchor >>= publish options (Scan.treeOf options.anchor) =
      Scan.locate options.anchor >>= fun tree =>
        Scan.files tree >>= fun files => publish options tree files := by
    rw [locate_bind options.anchor fun tree =>
      Scan.files tree >>= fun files => publish options tree files]
    exact bind_bind _ _ _
  rw [hGather]
  simp only [publish, emit_bind]
  rfl

/-! ### Scripts of the parts -/

def tableScript (files : List Source.File) (output : String) (reply : Except String Unit) :
    Script :=
  [.asked ⟨.writeText output (TableText.render (.ofFiles files)), reply⟩
      (Step.refusal (.fileSystem .write output) reply),
    .reported (.tableWritten output (SymbolTable.ofFiles files).size)]

def manifestScript (files : List Source.File) (path? : Option String)
    (reply : Except String Unit) : Script :=
  match path? with
  | some path =>
    [.asked ⟨.writeText path (Manifest.ofFiles files).text, reply⟩
      (Step.refusal (.fileSystem .write path) reply)]
  | none => []

/-- What is reported of a formatter that ran. -/
def formatEvents (formatter : Formatter) (output : ProgramOutput) : List Event :=
  if output.succeeded then []
  else
    [.formatterFailed formatter.command output.exitCode
      (String.ofList (Text.trimEnd output.stderr.toList))]

def formatScript (path : String) (formatter? : Option Formatter)
    (reply : Except String ProgramOutput) : Script :=
  match formatter?, reply with
  | none, _ => []
  | some formatter, .error cause =>
    [.asked ⟨.runProgram formatter.program (formatter.arguments ++ [path]), .error cause⟩
      (some (.formatterNotStarted formatter.command cause))]
  | some formatter, .ok output =>
    .asked ⟨.runProgram formatter.program (formatter.arguments ++ [path]), .ok output⟩ none ::
      (formatEvents formatter output).map .reported

/-- The exit code that a run passes on. -/
def exitWith (formatter? : Option Formatter) (reply : Except String ProgramOutput) : Int32 :=
  match formatter?, reply with
  | some _, .ok output => output.exitCode
  | _, _ => 0

/-- What a run is answered while it emits. -/
structure Replies where
  table : Except String Unit
  manifest : Except String Unit
  format : Except String ProgramOutput

def emitScript (options : Options) (files : List Source.File) (replies : Replies) : Script :=
  tableScript files options.output replies.table ++
    (manifestScript files options.manifest replies.manifest ++
      formatScript options.output options.formatter replies.format)

def foundEvents (tree : String) (files : List Source.File) : List Event :=
  (SymbolTable.clashes files).map .clash ++
    [.scanned tree files.length (files.filter (·.isLibrary)).length
      (SymbolTable.ofFiles files).size]

def publishScript (options : Options) (tree : String) (files : List Source.File)
    (replies : Replies) : Script :=
  (foundEvents tree files).map .reported ++ emitScript options files replies

def reportWith (options : Options) (files : List Source.File) (replies : Replies) : Report :=
  reportOn files (exitWith options.formatter replies.format)

/-! ### Courses of the parts -/

variable {exchanges : List Exchange} {events : List Event}

theorem follows_writeTable {files : List Source.File} {output : String}
    {result : Except Failure Unit}
    (h : Course (writeTable (.ofFiles files) output) exchanges events result) :
    ∃ reply, Follows (tableScript files output reply) () exchanges events result := by
  obtain ⟨reply, later, hReply, rfl⟩ := course_request.mp h
  refine ⟨reply, ?_⟩
  cases reply with
  | error cause =>
    obtain ⟨rfl, rfl, rfl⟩ := course_fail.mp hReply
    exact .failing ..
  | ok done =>
    obtain ⟨_, hRest, rfl⟩ := course_report.mp hReply
    obtain ⟨rfl, rfl, rfl⟩ := course_done.mp hRest
    exact .asked _ (.reported _ (.nil _))

theorem follows_writeManifestIf {files : List Source.File} {path? : Option String}
    {result : Except Failure Unit}
    (h : Course (writeManifestIf files path?) exchanges events result) :
    ∃ reply, Follows (manifestScript files path? reply) () exchanges events result := by
  cases path? with
  | none =>
    obtain ⟨rfl, rfl, rfl⟩ := course_done.mp h
    exact ⟨.ok (), .nil _⟩
  | some path =>
    obtain ⟨reply, later, hReply, rfl⟩ := course_request.mp h
    refine ⟨reply, ?_⟩
    cases reply with
    | error cause =>
      obtain ⟨rfl, rfl, rfl⟩ := course_fail.mp hReply
      exact .failing ..
    | ok done =>
      obtain ⟨rfl, rfl, rfl⟩ := course_done.mp hReply
      exact .asked _ (.nil _)

theorem follows_format {path : String} {formatter? : Option Formatter}
    {result : Except Failure Int32}
    (h : Course (format path formatter?) exchanges events result) :
    ∃ reply, Follows (formatScript path formatter? reply) (exitWith formatter? reply)
      exchanges events result := by
  cases formatter? with
  | none =>
    obtain ⟨rfl, rfl, rfl⟩ := course_done.mp h
    exact ⟨.error "", .nil _⟩
  | some formatter =>
    obtain ⟨reply, later, hReply, rfl⟩ := course_request.mp h
    refine ⟨reply, ?_⟩
    cases reply with
    | error cause =>
      obtain ⟨rfl, rfl, rfl⟩ := course_fail.mp hReply
      exact .failing ..
    | ok output =>
      change Course (if output.succeeded then _ else _) _ _ _ at hReply
      refine .asked _ ?_
      rw [formatEvents, exitWith]
      split at hReply
      · obtain ⟨rfl, rfl, rfl⟩ := course_done.mp hReply
        rw [if_pos ‹_›]
        exact .nil _
      · obtain ⟨_, hRest, rfl⟩ := course_report.mp hReply
        obtain ⟨rfl, rfl, rfl⟩ := course_done.mp hRest
        rw [if_neg ‹_›]
        exact .reported _ (.nil _)

theorem follows_emit {options : Options} {files : List Source.File} {result : Except Failure Int32}
    (h : Course (emit options files) exchanges events result) :
    ∃ replies, Follows (emitScript options files replies)
      (exitWith options.formatter replies.format) exchanges events result := by
  have hRest : ∀ {exchanges : List Exchange} {events : List Event} {result : Except Failure Int32},
      Course (writeManifestIf files options.manifest >>= fun _ =>
        format options.output options.formatter) exchanges events result →
      ∃ later : Except String Unit × Except String ProgramOutput,
        Follows (manifestScript files options.manifest later.1 ++
          formatScript options.output options.formatter later.2)
          (exitWith options.formatter later.2) exchanges events result := by
    intro exchanges events result h
    obtain ⟨manifest, format, hFollows⟩ := follows_bind h follows_writeManifestIf
      (fun _ => follows_format) (.error "")
    exact ⟨(manifest, format), hFollows⟩
  obtain ⟨table, later, hFollows⟩ :=
    follows_bind h follows_writeTable (fun _ => hRest) (.ok (), .error "")
  exact ⟨⟨table, later.1, later.2⟩, hFollows⟩

theorem follows_publish {options : Options} {tree : String} {files : List Source.File}
    {result : Except Failure Report}
    (h : Course (publish options tree files) exchanges events result) :
    ∃ replies, Follows (publishScript options tree files replies)
      (reportWith options files replies) exchanges events result := by
  obtain ⟨later, hScanned, rfl⟩ := course_reportAll.mp h
  obtain ⟨rest, hRest, rfl⟩ := course_report.mp hScanned
  obtain ⟨before, hEmit, rfl⟩ := course_map.mp hRest
  obtain ⟨replies, hFollows⟩ := follows_emit hEmit
  refine ⟨replies, ?_⟩
  rw [publishScript, foundEvents, List.map_append, List.append_assoc]
  exact .reportedAll _ (.reported _ (hFollows.map _))

/-! ### The whole run -/

/-- What a run looks up, if the anchor is `found` or not and the scan gets these answers. -/
def gatherScript (anchor : String) (found : Bool) (scan : Scan.Answers) : Script :=
  Scan.anchorScript anchor found ++ scan.script (Scan.treeOf anchor)

theorem follows_gather {anchor : String} {allowed : Exchange → Prop} {base : Scan.Answers}
    (hBase : base.Within allowed (Scan.treeOf anchor))
    {result : Except Failure (List Source.File)}
    (h : Course (gather anchor) exchanges events result)
    (hAllowed : ∀ exchange ∈ exchanges, allowed exchange) :
    ∃ found scan, scan.Within allowed (Scan.treeOf anchor) ∧
      Follows (gatherScript anchor found scan) scan.files exchanges events result := by
  rcases course_bind.mp h with
    ⟨failure, hLocate, rfl⟩ | ⟨tree, first, second, _, _, hLocate, hFiles, rfl, rfl⟩
  · obtain ⟨found, hFollows⟩ := Scan.follows_locate hLocate
    exact ⟨found, base, hBase, hFollows.append_of_error⟩
  · obtain ⟨found, hLocated⟩ := Scan.follows_locate hLocate
    obtain ⟨-, rfl⟩ := hLocated.failure?_of_ok
    obtain ⟨scan, hScan, hFollows⟩ := Scan.follows_files hBase hFiles
      fun exchange hMem => hAllowed exchange (List.mem_append_right _ hMem)
    exact ⟨found, scan, hScan, hLocated.append hFollows⟩

structure Answers where
  /-- Whether the anchor is there. -/
  anchor : Bool
  scan : Scan.Answers
  replies : Replies

/-- What a run looks up before it emits anything. -/
def lookupScript (options : Options) (answers : Answers) : Script :=
  gatherScript options.anchor answers.anchor answers.scan

/-- The script of a run to an absolute output. -/
def script (options : Options) (answers : Answers) : Script :=
  lookupScript options answers ++
    publishScript options (Scan.treeOf options.anchor) answers.scan.files answers.replies

/-- A run to a path that is not absolute fails before it asks anything. -/
theorem course_run_of_not_isAbsolute {options : Options} {result : Except Failure Report}
    (hOutput : ¬Path.isAbsolute options.output = true)
    (h : Course (run options) exchanges events result) :
    exchanges = [] ∧ events = [] ∧ result = .error (.outputNotAbsolute options.output) := by
  rw [run_eq, if_neg hOutput] at h
  exact course_fail.mp h

/-- Every course of a run to an absolute output follows the script of some answers. -/
theorem follows_run {options : Options} {allowed : Exchange → Prop} {base : Scan.Answers}
    (hOutput : Path.isAbsolute options.output = true)
    (hBase : base.Within allowed (Scan.treeOf options.anchor)) {result : Except Failure Report}
    (h : Course (run options) exchanges events result)
    (hAllowed : ∀ exchange ∈ exchanges, allowed exchange) :
    ∃ answers, answers.scan.Within allowed (Scan.treeOf options.anchor) ∧
      Follows (script options answers) (reportWith options answers.scan.files answers.replies)
        exchanges events result := by
  rw [run_eq, if_pos hOutput] at h
  rcases course_bind.mp h with
    ⟨failure, hGather, rfl⟩ | ⟨files, first, second, _, _, hGather, hPublish, rfl, rfl⟩
  · obtain ⟨found, scan, hScan, hFollows⟩ := follows_gather hBase hGather hAllowed
    exact ⟨⟨found, scan, ⟨.ok (), .ok (), .error ""⟩⟩, hScan, hFollows.append_of_error⟩
  · obtain ⟨found, scan, hScan, hFollows⟩ := follows_gather hBase hGather
      fun exchange hMem => hAllowed exchange (List.mem_append_left _ hMem)
    obtain ⟨-, rfl⟩ := hFollows.failure?_of_ok
    obtain ⟨replies, hPublished⟩ := follows_publish hPublish
    exact ⟨⟨found, scan, replies⟩, hScan, hFollows.append hPublished⟩

end ProvideIndex.Regenerate
