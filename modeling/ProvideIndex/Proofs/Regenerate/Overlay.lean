import ProvideIndex.Proofs.Regenerate.Abort
import ProvideIndex.Proofs.Scan.FileTree

/-!
# Runs over a file tree

A world that shows a tree leaves only writes and programs open, and a run makes none of them before
it has gathered all files.

* `follows_execute_of_shows`: in a world that shows a tree, what a run does is known up to the
  replies to what it emits.
* `execute_gather_overlay`: gathering files from a tree is known altogether and leaves the state
  alone.
* `execute_publish`: what is published, from what is emitted.
* `execute_emit_overlay`: emitting does not depend on the tree.
-/

namespace ProvideIndex

open Run Script

variable {σ α β : Type} {rest : World Empty σ} {files : FileTree} {state : σ}

/-! ### Lookups and changes over a tree -/

namespace FileTree

theorem state_answer_overlay {request : Request} (h : request.isLookup = true) (state : σ) :
    ((files.overlay rest).answer request state).2 = state := by
  cases request with
  | fileExists path | listFiles root | readText path => rfl
  | writeText path contents | runProgram program arguments => cases h

theorem answer_overlay_eq {first second : FileTree} {request : Request}
    (h : request.isLookup = false) (state : σ) :
    (first.overlay rest).answer request state = (second.overlay rest).answer request state := by
  cases request with
  | fileExists path | listFiles root | readText path => cases h
  | writeText path contents | runProgram program arguments => rfl

end FileTree

namespace Regenerate

variable {options : Options}

/-- The parts of a script in the order in which they are gone through. -/
theorem script_eq (options : Options) (answers : Answers) :
    script options answers =
      Scan.anchorScript options.anchor answers.anchor ++
        (answers.scan.rootsScript (Scan.treeOf options.anchor) ++
          (answers.scan.filesScript (Scan.treeOf options.anchor) ++
            publishScript options (Scan.treeOf options.anchor) answers.scan.files
              answers.replies)) := by
  rw [script, lookupScript, gatherScript, Scan.Answers.script, List.append_assoc,
    List.append_assoc]

/-- What is found of the anchor is asked first. -/
theorem fileExists_mem_performed (anchor : String) (found : Bool) (later : Script) :
    ⟨.fileExists anchor, found⟩ ∈
      (Scan.anchorScript anchor found ++ later).performed.exchanges := by
  rw [Scan.anchorScript, List.cons_append, performed]
  split
  · exact List.mem_cons_self ..
  · exact List.mem_cons_self ..

/-- What a run is answered in a world that shows a tree and gives these replies to the rest. -/
def answersOf (files : FileTree) (options : Options) (replies : Replies) : Answers :=
  ⟨files.fileExists options.anchor, files.answers (Scan.treeOf options.anchor), replies⟩

/-- In a world that shows a tree, a run gets the answers of the tree until it emits. -/
theorem follows_execute_of_shows (hWorld : world.Shows files)
    (hOutput : Path.isAbsolute options.output = true) (state : σ) :
    ∃ replies, Follows (script options (answersOf files options replies))
      (reportWith options (files.answers (Scan.treeOf options.anchor)).files replies)
      ((run options).execute world state).exchanges
      ((run options).execute world state).events
      ((run options).execute world state).ending.result := by
  have hTells : ∀ exchange ∈ ((run options).execute world state).exchanges,
      files.Tells exchange := fun exchange => FileTree.tells_of_mem hWorld
  obtain ⟨⟨found, scan, replies⟩, hWithin, hFollows⟩ := follows_run hOutput
    (files.answers_within _) (course_execute world (run options) state) hTells
  cases FileTree.eq_answers_of_within hWithin
  have hFound : found = files.fileExists options.anchor := by
    refine hTells ⟨.fileExists options.anchor, found⟩ ?_
    rw [hFollows.exchanges_eq, script_eq]
    exact fileExists_mem_performed ..
  subst hFound
  exact ⟨replies, hFollows⟩

/-- The script of gathering files from a tree. -/
def scriptOf (files : FileTree) (anchor : String) : Script :=
  gatherScript anchor (files.fileExists anchor) (files.answers (Scan.treeOf anchor))

theorem execute_gather_overlay (files : FileTree) (rest : World Empty σ) (anchor : String)
    (state : σ) :
    (gather anchor).execute (files.overlay rest) state =
      ⟨.ofResult ((scriptOf files anchor).result (files.answers (Scan.treeOf anchor)).files),
        (scriptOf files anchor).performed.exchanges, (scriptOf files anchor).performed.events,
        state⟩ := by
  have hTells : ∀ exchange ∈ ((gather anchor).execute (files.overlay rest) state).exchanges,
      files.Tells exchange := fun _ => FileTree.tells_of_mem (files.shows_overlay rest)
  obtain ⟨found, scan, hScan, hFollows⟩ := follows_gather (files.answers_within _)
    (course_execute (files.overlay rest) (gather anchor) state) hTells
  cases FileTree.eq_answers_of_within hScan
  have hFound : found = files.fileExists anchor := by
    refine hTells ⟨.fileExists anchor, found⟩ ?_
    rw [hFollows.exchanges_eq]
    exact fileExists_mem_performed ..
  subst hFound
  -- Only lookups are made, and the tree answers these without the state.
  have hState : ((gather anchor).execute (files.overlay rest) state).state = state := by
    refine state_execute fun exchange hMem => FileTree.state_answer_overlay ?_
    rw [hFollows.exchanges_eq] at hMem
    have hGathered := (prefix_exchanges _).subset hMem
    rw [exchanges_gatherScript] at hGathered
    exact isLookup_of_mem_gathered hGathered
  have hEnding : ((gather anchor).execute (files.overlay rest) state).ending =
      .ofResult ((scriptOf files anchor).result (files.answers (Scan.treeOf anchor)).files) := by
    rw [← Ending.ofResult_result ((gather anchor).execute (files.overlay rest) state).ending,
      hFollows.result_eq]
    rfl
  exact (Outcome.mk.injEq ..).mpr ⟨hEnding, hFollows.exchanges_eq, hFollows.events_eq, hState⟩

/-- Nothing is looked up while a run emits, so the tree makes no difference. -/
theorem execute_emit_overlay (first second : FileTree) (rest : World Empty σ) (options : Options)
    (files : List Source.File) (state : σ) :
    (emit options files).execute (first.overlay rest) state =
      (emit options files).execute (second.overlay rest) state := by
  obtain ⟨replies, hFollows⟩ :=
    follows_emit (course_execute (first.overlay rest) (emit options files) state)
  refine execute_congr fun exchange hMem => FileTree.answer_overlay_eq ?_
  rw [hFollows.exchanges_eq] at hMem
  exact isLookup_of_mem_emitted hMem

theorem publish_eq (options : Options) (tree : String) (files : List Source.File) :
    publish options tree files =
      Run.reportAll ((SymbolTable.clashes files).map .clash) >>= fun _ =>
        .report
          (.scanned tree files.length (files.filter (·.isLibrary)).length
            (SymbolTable.ofFiles files).size)
          (emit options files >>= fun exit => .done (reportOn files exit)) := rfl

/-- What is published, from what is emitted. -/
theorem execute_publish (world : World Empty σ) (options : Options) (tree : String)
    (files : List Source.File) (state : σ) :
    (publish options tree files).execute world state =
      ⟨.ofResult (((emit options files).execute world state).ending.result.map (reportOn files)),
        ((emit options files).execute world state).exchanges,
        foundEvents tree files ++ ((emit options files).execute world state).events,
        ((emit options files).execute world state).state⟩ := by
  rw [publish_eq, execute_reportAll, execute, execute_map, foundEvents, List.append_assoc]
  rfl

end Regenerate

end ProvideIndex
