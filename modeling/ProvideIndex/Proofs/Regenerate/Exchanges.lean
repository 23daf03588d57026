import ProvideIndex.Proofs.Regenerate.Script

/-!
# The exchanges of a run

The script of a run first looks up, then writes, then starts a program. Here its exchanges are
listed in these three parts.

* `exchanges_script`: all exchanges of the script.
* `exchanges_performed_of_none`, `exchanges_performed_of_some`: the exchanges of a run, which emits
  if no step of the lookup fails, and ends within the lookup otherwise.
-/

namespace ProvideIndex

namespace Request

/-- Whether a request looks something up and leaves everything as it is. -/
def isLookup : Request → Bool
  | fileExists _ | listFiles _ | readText _ => true
  | writeText _ _ | runProgram _ _ => false

end Request

namespace Exchange

/-- The path and the contents of a write. -/
def write? : Exchange → Option (String × String)
  | ⟨.writeText path contents, _⟩ => some (path, contents)
  | _ => none

theorem write?_eq_none {exchange : Exchange} (h : exchange.request.isLookup = true) :
    exchange.write? = none := by
  obtain ⟨request, reply⟩ := exchange
  cases request with
  | fileExists | listFiles | readText | runProgram => rfl
  | writeText path contents => cases h

end Exchange

namespace Regenerate

open Run Script

/-! ### The three parts -/

/-- What is exchanged to gather the files. -/
def gathered (anchor : String) (found : Bool) (scan : Scan.Answers) : List Exchange :=
  ⟨.fileExists anchor, found⟩ ::
    ((Scan.roots.flatMap fun root =>
        Scan.rootExchanges (Scan.treeOf anchor) root (scan.listing root)) ++
      scan.reads (Scan.treeOf anchor))

def Answers.lookups (options : Options) (answers : Answers) : List Exchange :=
  gathered options.anchor answers.anchor answers.scan

def Answers.writes (options : Options) (answers : Answers) : List Exchange :=
  ⟨.writeText options.output (TableText.render (.ofFiles answers.scan.files)),
      answers.replies.table⟩ ::
    match options.manifest with
    | some path =>
      [⟨.writeText path (Manifest.ofFiles answers.scan.files).text, answers.replies.manifest⟩]
    | none => []

def Answers.programs (options : Options) (answers : Answers) : List Exchange :=
  match options.formatter with
  | some formatter =>
    [⟨.runProgram formatter.program (formatter.arguments ++ [options.output]),
      answers.replies.format⟩]
  | none => []

variable {options : Options} {answers : Answers}

theorem exchanges_gatherScript (anchor : String) (found : Bool) (scan : Scan.Answers) :
    (gatherScript anchor found scan).exchanges = gathered anchor found scan := by
  rw [gatherScript, exchanges_append, Scan.Answers.script, exchanges_append,
    Scan.Answers.exchanges_rootsScript, Scan.Answers.exchanges_filesScript]
  rfl

theorem exchanges_lookupScript (options : Options) (answers : Answers) :
    (lookupScript options answers).exchanges = answers.lookups options :=
  exchanges_gatherScript ..

theorem exchanges_formatScript (path : String) (formatter? : Option Formatter)
    (reply : Except String ProgramOutput) :
    (formatScript path formatter? reply).exchanges =
      match formatter? with
      | some formatter => [⟨.runProgram formatter.program (formatter.arguments ++ [path]), reply⟩]
      | none => [] := by
  match formatter?, reply with
  | none, _ => rfl
  | some formatter, .error cause => rfl
  | some formatter, .ok output => exact congrArg _ (exchanges_reportedAll _)

theorem exchanges_emitScript (options : Options) (answers : Answers) :
    (emitScript options answers.scan.files answers.replies).exchanges =
      answers.writes options ++ answers.programs options := by
  rw [emitScript, exchanges_append, exchanges_append, exchanges_formatScript, Answers.writes,
    Answers.programs]
  cases options.manifest <;> rfl

theorem exchanges_script (options : Options) (answers : Answers) :
    (script options answers).exchanges =
      answers.lookups options ++ (answers.writes options ++ answers.programs options) := by
  rw [script, publishScript, exchanges_append, exchanges_append, exchanges_reportedAll,
    exchanges_lookupScript, exchanges_emitScript, List.nil_append]

/-! ### What is performed -/

theorem performed_publishScript (options : Options) (tree : String) (files : List Source.File)
    (replies : Replies) :
    (publishScript options tree files replies).performed =
      (foundEvents tree files).map .reported ++ (emitScript options files replies).performed :=
  performed_append_of_none (failure?_reportedAll _)

theorem exchanges_performed_of_none (h : (lookupScript options answers).failure? = none) :
    (script options answers).performed.exchanges =
      answers.lookups options ++
        (emitScript options answers.scan.files answers.replies).performed.exchanges := by
  rw [script, performed_append_of_none h, performed_publishScript, exchanges_append,
    exchanges_append, exchanges_reportedAll, exchanges_lookupScript, List.nil_append]

theorem exchanges_performed_of_some {failure : Failure}
    (h : (lookupScript options answers).failure? = some failure) :
    (script options answers).performed.exchanges <+: answers.lookups options := by
  rw [script, performed_append_of_some h, ← exchanges_lookupScript]
  exact prefix_exchanges _

/-- The first thing that a run emits is the table. -/
theorem exchanges_performed_emitScript (options : Options) (files : List Source.File)
    (replies : Replies) :
    ∃ later, (emitScript options files replies).performed.exchanges =
      ⟨.writeText options.output (TableText.render (.ofFiles files)), replies.table⟩ :: later := by
  rw [emitScript, tableScript, List.cons_append, performed]
  split
  · exact ⟨_, rfl⟩
  · exact ⟨[], rfl⟩

theorem isLookup_of_mem_gathered {anchor : String} {found : Bool} {scan : Scan.Answers}
    {exchange : Exchange} (h : exchange ∈ gathered anchor found scan) :
    exchange.request.isLookup = true := by
  rcases List.mem_cons.mp h with rfl | h
  · rfl
  rcases List.mem_append.mp h with h | h
  · obtain ⟨root, -, h⟩ := List.mem_flatMap.mp h
    cases hListing : scan.listing root with
    | none =>
      rw [hListing] at h
      rw [List.mem_singleton.mp h]
      rfl
    | some reply =>
      rw [hListing] at h
      rcases List.mem_cons.mp h with rfl | h
      · rfl
      · rw [List.mem_singleton.mp h]
        rfl
  · obtain ⟨path, -, rfl⟩ := List.mem_map.mp h
    rfl

theorem filterMap_write?_lookups (options : Options) (answers : Answers) :
    (answers.lookups options).filterMap Exchange.write? = [] :=
  List.filterMap_eq_nil_iff.mpr fun _ hMem =>
    Exchange.write?_eq_none (isLookup_of_mem_gathered hMem)

end Regenerate

end ProvideIndex
