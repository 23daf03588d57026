import ProvideIndex.Proofs.Regenerate.Script
import ProvideIndex.Proofs.Run.Requests
import ProvideIndex.Proofs.Text.Words

/-!
# The command line of a formatter

A formatter is read from a command line as its words, and is written as a command line again. What
it is written as is read as the same formatter, so a failure or an event that quotes the command
tells which formatter was run.

* `parse?_eq_some_iff`, `toList_command`: reading and writing, in words.
* `RunsOn`, `runsOn_of_course`: what a run of a formatter comes to.
* `command_tells_formatter`: a command line, its formatter, and every run of it.
-/

namespace ProvideIndex.Formatter

open Run Text

/-- The program and the arguments. -/
def words (formatter : Formatter) : List (List Char) :=
  formatter.program.toList :: formatter.arguments.map String.toList

variable {command : String} {formatter : Formatter}

/-! ### Reading and writing a command line -/

theorem parse?_eq_some_iff :
    parse? command = some formatter ↔ HasWords command.toList formatter.words := by
  rw [← words_eq_iff, parse?, words]
  cases Text.words command.toList with
  | nil => exact iff_of_false (fun h => by cases h) (fun h => by cases h)
  | cons first others =>
    obtain ⟨program, arguments⟩ := formatter
    simp only [List.map_cons, Option.some.injEq, Formatter.mk.injEq, List.cons.injEq]
    constructor
    · rintro ⟨rfl, rfl⟩
      simp
    · rintro ⟨rfl, rfl⟩
      simp

theorem parse?_eq_none_iff :
    parse? command = none ↔ ∀ c ∈ command.toList, isBlank c = true := by
  rw [← words_eq_nil_iff, parse?]
  cases Text.words command.toList with
  | nil => exact iff_of_true rfl rfl
  | cons first others => exact iff_of_false (fun h => by cases h) (fun h => by cases h)

theorem toList_foldl_arguments (line : String) (arguments : List String) :
    (arguments.foldl (fun line argument => line ++ " " ++ argument) line).toList =
      join ' ' (line.toList :: arguments.map String.toList) := by
  induction arguments generalizing line with
  | nil => rfl
  | cons argument arguments ih =>
    rw [List.foldl_cons, ih, List.map_cons, String.toList_append, String.toList_append]
    cases arguments with
    | nil => simp [join]
    | cons next arguments => simp [join]

theorem toList_command (formatter : Formatter) :
    formatter.command.toList = join ' ' formatter.words :=
  toList_foldl_arguments ..

theorem parse?_command (h : parse? command = some formatter) :
    parse? formatter.command = some formatter := by
  rw [parse?_eq_some_iff, toList_command]
  exact hasWords_join (parse?_eq_some_iff.mp h).isWord

/-! ### Running a formatter -/

/--
What a run of a formatter on the file at `path` comes to. One program is started, with the path
behind its other arguments. If it cannot be started, the run fails; if it ends with another code
than 0, an event says so. Both quote a line that is read as this formatter.
-/
inductive RunsOn (formatter : Formatter) (path : String) :
    List Exchange → List Event → Except Failure Int32 → Prop
  | refused {line cause : String} (hLine : parse? line = some formatter) :
      RunsOn formatter path
        [⟨.runProgram formatter.program (formatter.arguments ++ [path]), .error cause⟩] []
        (.error (.formatterNotStarted line cause))
  | failed {line : String} {output : ProgramOutput} (hLine : parse? line = some formatter)
      (hExit : output.exitCode ≠ 0) :
      RunsOn formatter path
        [⟨.runProgram formatter.program (formatter.arguments ++ [path]), .ok output⟩]
        [.formatterFailed line output.exitCode (String.ofList (trimEnd output.stderr.toList))]
        (.ok output.exitCode)
  | succeeded {output : ProgramOutput} (hExit : output.exitCode = 0) :
      RunsOn formatter path
        [⟨.runProgram formatter.program (formatter.arguments ++ [path]), .ok output⟩] [] (.ok 0)

theorem runsOn_of_course {path : String} {exchanges : List Exchange} {events : List Event}
    {result : Except Failure Int32} (hLine : parse? formatter.command = some formatter)
    (h : Course (formatter.run path) exchanges events result) :
    RunsOn formatter path exchanges events result := by
  have hFormat : Course (Regenerate.format path (some formatter)) exchanges events result := h
  obtain ⟨reply, rfl, rfl, rfl⟩ := Regenerate.follows_format hFormat
  cases reply with
  | error cause => exact .refused hLine
  | ok output =>
    rw [Regenerate.formatScript, Regenerate.formatEvents, Regenerate.exitWith]
    by_cases hExit : output.exitCode = 0
    · have hSucceeded : output.succeeded = true := beq_iff_eq.mpr hExit
      rw [if_pos hSucceeded, hExit]
      exact .succeeded hExit
    · have hFailed : ¬output.succeeded = true := mt beq_iff_eq.mp hExit
      rw [if_neg hFailed]
      exact .failed hLine hExit

/--
A command line is read as no formatter exactly if it is white space, and otherwise as its words. A
formatter that was read is written as a command line that is read as the same formatter and written
as the same line again. Whatever it is run on and whatever answers, one program is started on the
words and the path, and what is told about it quotes a command line of the same formatter.
-/
theorem command_tells_formatter (command : String) :
    (parse? command = none ↔ ∀ c ∈ command.toList, isBlank c = true) ∧
      ∀ formatter,
        (parse? command = some formatter ↔ HasWords command.toList formatter.words) ∧
        (parse? command = some formatter →
          parse? formatter.command = some formatter ∧
          (parse? formatter.command).map Formatter.command = some formatter.command ∧
          ∀ {σ : Type} (world : World Empty σ) (path : String) (state : σ),
            let outcome := (formatter.run path).execute world state
            RunsOn formatter path outcome.exchanges outcome.events outcome.ending.result) := by
  refine ⟨parse?_eq_none_iff, fun formatter => ⟨parse?_eq_some_iff, fun h => ?_⟩⟩
  have hLine := parse?_command h
  refine ⟨hLine, ?_, fun world path state => ?_⟩
  · rw [hLine, Option.map_some]
  · exact runsOn_of_course hLine (course_execute world (formatter.run path) state)

/-- The world in which nothing is found and no program can be started. -/
def barren : World Empty Unit := .reliable fun request state => (request.anyReply, state)

/-- The path is one argument although it holds spaces, and the failure quotes the formatter. -/
theorem command_tells_spaced :
    let formatter : Formatter := ⟨"go", ["fmt", "-x"]⟩
    let outcome := (formatter.run "/out dir/a b.go").execute barren ()
    parse? "\u3000go \tfmt\u2028-x\n" = some formatter ∧ parse? "go fmt -x" = some formatter ∧
      outcome.exchanges.map Exchange.request =
        [.runProgram "go" ["fmt", "-x", "/out dir/a b.go"]] ∧
      outcome.ending = .failed (.formatterNotStarted "go fmt -x" "") ∧
      RunsOn formatter "/out dir/a b.go" outcome.exchanges outcome.events
        outcome.ending.result := by
  intro formatter outcome
  have hParse : parse? "\u3000go \tfmt\u2028-x\n" = some formatter := by decide +kernel
  obtain ⟨hLine, -, hRuns⟩ := ((command_tells_formatter _).2 formatter).2 hParse
  exact ⟨hParse, hLine, rfl, rfl, hRuns barren "/out dir/a b.go" ()⟩

end ProvideIndex.Formatter
