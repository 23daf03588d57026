import ProvideIndex.Proofs.Regenerate.Overlay
import ProvideIndex.Proofs.Run.Outline
import ProvideIndex.Proofs.Scan.Enumeration

/-!
# The order of a listing does not matter

A walk may list the names below a scan root in any order and more than once. All files of a tree are
put into one strictly ascending list before any of them is read, so nothing later depends on how
they were listed.

* `ListsAlike.files_eq`: trees that list the same names have the same files.
* `run_of_listsAlike`: runs over such trees make the same requests, end alike and report the same,
  except for the lengths of the listings.
-/

namespace ProvideIndex

/-! ### Scripts without listings -/

/-- An event without the length of a listing. -/
def Event.uncounted : Event → Event
  | .rootWalked root _ => .rootWalked root 0
  | event => event

/-- A step without the names of a listing and their number. -/
def Step.uncounted : Step → Step
  | .asked exchange failure => .asked exchange.outline failure
  | .reported event => .reported event.uncounted

namespace Script

def uncounted (script : Script) : Script := script.map Step.uncounted

theorem failure?_uncounted (script : Script) : script.uncounted.failure? = script.failure? := by
  have hStep : Step.failure? ∘ Step.uncounted = Step.failure? := by
    funext step
    cases step <;> rfl
  rw [failure?, uncounted, List.findSome?_map, hStep]
  rfl

theorem performed_uncounted (script : Script) :
    script.uncounted.performed = script.performed.uncounted := by
  induction script with
  | nil => rfl
  | cons step script ih =>
    cases step with
    | reported event => exact congrArg _ ih
    | asked exchange failure =>
      cases failure with
      | none => exact congrArg _ ih
      | some failure => rfl

theorem exchanges_uncounted (script : Script) :
    script.uncounted.exchanges = script.exchanges.map Exchange.outline := by
  rw [exchanges, uncounted, List.filterMap_map, exchanges, List.map_filterMap]
  refine List.filterMap_congr fun step _ => ?_
  cases step <;> rfl

theorem events_uncounted (script : Script) :
    script.uncounted.events = script.events.map Event.uncounted := by
  rw [events, uncounted, List.filterMap_map, events, List.map_filterMap]
  refine List.filterMap_congr fun step _ => ?_
  cases step <;> rfl

end Script

theorem Exchange.request_outline (exchange : Exchange) :
    exchange.outline.request = exchange.request := by
  obtain ⟨request, reply⟩ := exchange
  cases request with
  | listFiles root => cases reply <;> rfl
  | fileExists path | readText path | writeText path contents | runProgram program arguments => rfl

theorem requests_eq_of_outline {exchanges others : List Exchange}
    (h : exchanges.map Exchange.outline = others.map Exchange.outline) :
    exchanges.map Exchange.request = others.map Exchange.request := by
  have hRequests := congrArg (List.map Exchange.request) h
  have hOutline : Exchange.request ∘ Exchange.outline = Exchange.request :=
    funext Exchange.request_outline
  rwa [List.map_map, List.map_map, hOutline] at hRequests

/-! ### Trees that list the same names -/

namespace FileTree

open Scan

/-- Whether two listings are the same refusal, or hold the same names in whatever order. -/
def SameNames : Except String (List String) → Except String (List String) → Prop
  | .error cause, .error other => cause = other
  | .ok names, .ok others => ∀ name, name ∈ names ↔ name ∈ others
  | _, _ => False

/-- Whether two trees differ in the order and the repetitions of their listings at most. -/
structure ListsAlike (tree : String) (first second : FileTree) : Prop where
  fileExists : ∀ path, first.fileExists path = second.fileExists path
  listFiles : ∀ root ∈ Scan.roots, SameNames
    (first.listFiles (Path.join tree root.path)) (second.listFiles (Path.join tree root.path))
  readText : ∀ path, first.readText path = second.readText path

theorem sameNames_of_subset {names others : List String} (h : names ⊆ others)
    (hOthers : others ⊆ names) : SameNames (.ok names) (.ok others) :=
  fun _ => ⟨fun hName => h hName, fun hName => hOthers hName⟩

variable {first second : FileTree} {tree path : String} {root : ScanRoot}

/-- A scan root is missing from both trees, or it is in both, with listings of the same names. -/
theorem ListsAlike.listing (h : ListsAlike tree first second) (hRoot : root ∈ Scan.roots) :
    ((first.answers tree).listing root = none ∧ (second.answers tree).listing root = none) ∨
      ∃ names others, (first.answers tree).listing root = some names ∧
        (second.answers tree).listing root = some others ∧ SameNames names others := by
  rw [answers_listing, answers_listing, h.fileExists]
  cases second.fileExists (Path.join tree root.path) with
  | false => exact .inl ⟨rfl, rfl⟩
  | true => exact .inr ⟨_, _, rfl, rfl, h.listFiles root hRoot⟩

theorem ListsAlike.mem_below (h : ListsAlike tree first second) (hRoot : root ∈ Scan.roots) :
    path ∈ below root ((first.answers tree).listing root) ↔
      path ∈ below root ((second.answers tree).listing root) := by
  rcases h.listing hRoot with ⟨hFirst, hSecond⟩ | ⟨names, others, hFirst, hSecond, hSame⟩
  · rw [hFirst, hSecond]
  · rw [hFirst, hSecond]
    match names, others with
    | .error cause, .error other => exact Iff.rfl
    | .ok names, .ok others =>
      rw [below, below, List.mem_map, List.mem_map]
      exact exists_congr fun name => and_congr_left fun _ => hSame name

theorem ListsAlike.paths_eq (h : ListsAlike tree first second) :
    (first.answers tree).paths = (second.answers tree).paths := by
  refine Text.ascending_eq_of_mem_iff fun path => ?_
  rw [List.mem_flatMap, List.mem_flatMap]
  exact exists_congr fun root => and_congr_right fun hRoot => h.mem_below hRoot

theorem ListsAlike.content_eq (h : ListsAlike tree first second) :
    (first.answers tree).content = (second.answers tree).content :=
  funext fun path => h.readText (Path.join tree path)

theorem ListsAlike.files_eq (h : ListsAlike tree first second) :
    (first.answers tree).files = (second.answers tree).files := by
  rw [Answers.files, Answers.files, h.paths_eq, h.content_eq]

theorem ListsAlike.filesScript_eq (h : ListsAlike tree first second) :
    (first.answers tree).filesScript tree = (second.answers tree).filesScript tree := by
  rw [Answers.filesScript, Answers.filesScript, h.paths_eq, h.content_eq]

theorem ListsAlike.uncounted_rootScript (h : ListsAlike tree first second)
    (hRoot : root ∈ Scan.roots) :
    (rootScript tree root ((first.answers tree).listing root)).uncounted =
      (rootScript tree root ((second.answers tree).listing root)).uncounted := by
  rcases h.listing hRoot with ⟨hFirst, hSecond⟩ | ⟨names, others, hFirst, hSecond, hSame⟩
  · rw [hFirst, hSecond]
  · rw [hFirst, hSecond]
    match names, others with
    | .error cause, .error other =>
      cases hSame
      rfl
    | .ok names, .ok others => rfl

end FileTree

/-! ### Whole runs -/

namespace Regenerate

open Run Script

variable {σ : Type} {first second : FileTree}

theorem uncounted_scriptOf {anchor : String}
    (h : FileTree.ListsAlike (Scan.treeOf anchor) first second) :
    (scriptOf first anchor).uncounted = (scriptOf second anchor).uncounted := by
  have hRoots : ((first.answers (Scan.treeOf anchor)).rootsScript (Scan.treeOf anchor)).uncounted =
      ((second.answers (Scan.treeOf anchor)).rootsScript (Scan.treeOf anchor)).uncounted := by
    rw [uncounted, uncounted, Scan.Answers.rootsScript, Scan.Answers.rootsScript, List.map_flatMap,
      List.map_flatMap]
    exact List.flatMap_congr fun root hRoot => h.uncounted_rootScript hRoot
  simp only [uncounted] at hRoots ⊢
  simp only [scriptOf, gatherScript, Scan.Answers.script, List.map_append, h.fileExists, hRoots,
    h.filesScript_eq]

/-- What is published does not depend on the tree that the files come from. -/
theorem execute_publish_overlay (first second : FileTree) (rest : World Empty σ)
    (options : Options) (tree : String) (files : List Source.File) (state : σ) :
    (publish options tree files).execute (first.overlay rest) state =
      (publish options tree files).execute (second.overlay rest) state := by
  rw [execute_publish, execute_publish, execute_emit_overlay first second]

/-- Outcomes of runs that differ in the listings they were given at most. -/
structure SameButListings (one other : Outcome Empty σ Report) : Prop where
  requests : one.exchanges.map Exchange.request = other.exchanges.map Exchange.request
  replies : one.exchanges.map Exchange.outline = other.exchanges.map Exchange.outline
  events : one.events.map Event.uncounted = other.events.map Event.uncounted
  ending : one.ending = other.ending
  state : one.state = other.state

theorem gather_publish_of_listsAlike {options : Options}
    (h : FileTree.ListsAlike (Scan.treeOf options.anchor) first second) (rest : World Empty σ)
    (state : σ) :
    SameButListings
      ((gather options.anchor >>= publish options (Scan.treeOf options.anchor)).execute
        (first.overlay rest) state)
      ((gather options.anchor >>= publish options (Scan.treeOf options.anchor)).execute
        (second.overlay rest) state) := by
  have hScript := uncounted_scriptOf h
  have hPerformed : (scriptOf first options.anchor).performed.uncounted =
      (scriptOf second options.anchor).performed.uncounted := by
    rw [← performed_uncounted, hScript, performed_uncounted]
  have hReplies := congrArg Script.exchanges hPerformed
  have hEvents := congrArg Script.events hPerformed
  rw [exchanges_uncounted, exchanges_uncounted] at hReplies
  rw [events_uncounted, events_uncounted] at hEvents
  have hRequests := requests_eq_of_outline hReplies
  have hFailure : (scriptOf first options.anchor).failure? =
      (scriptOf second options.anchor).failure? := by
    rw [← failure?_uncounted, hScript, failure?_uncounted]
  rw [execute_bind, execute_bind, execute_gather_overlay, execute_gather_overlay, Script.result,
    Script.result, hFailure]
  cases (scriptOf second options.anchor).failure? with
  | some failure => exact ⟨hRequests, hReplies, hEvents, rfl, rfl⟩
  | none =>
    -- Both runs publish the same files from here on, and the trees are not asked again.
    have hPublish := execute_publish_overlay first second rest options
      (Scan.treeOf options.anchor) (second.answers (Scan.treeOf options.anchor)).files state
    simp only [Outcome.andThen, Ending.ofResult, h.files_eq, hPublish]
    refine ⟨?_, ?_, ?_, rfl, rfl⟩
    · rw [List.map_append, List.map_append, hRequests]
    · rw [List.map_append, List.map_append, hReplies]
    · rw [List.map_append, List.map_append, hEvents]

/--
Runs over two trees whose listings hold the same names make the same requests, with the same texts
written, and end alike: the same report, or the same failure at the same path.
-/
theorem run_of_listsAlike (rest : World Empty σ) (options : Options) (state : σ)
    (h : FileTree.ListsAlike (Scan.treeOf options.anchor) first second) :
    SameButListings ((run options).execute (first.overlay rest) state)
      ((run options).execute (second.overlay rest) state) := by
  rw [run_eq]
  split
  · exact gather_publish_of_listsAlike h rest state
  · exact ⟨rfl, rfl, rfl, rfl, rfl⟩

/-- The tree `FileTree.twoProviders`, listed in another order and with repetitions. -/
def shuffledProviders : FileTree where
  fileExists := FileTree.twoProviders.fileExists
  listFiles root :=
    if root = "/t/closure/goog/../../closure/goog" then
      .ok ["notes.txt", "b.js", "a_test.js", "b.js"]
    else .ok ["c.js", "c.js"]
  readText := FileTree.twoProviders.readText

theorem listsAlike_shuffledProviders :
    FileTree.ListsAlike (Scan.treeOf "/t/closure/goog/base.js") FileTree.twoProviders
      shuffledProviders := by
  refine ⟨fun _ => rfl, fun root hRoot => ?_, fun _ => rfl⟩
  rcases List.mem_cons.mp hRoot with rfl | hRoot
  · have hDirectory : Path.join (Scan.treeOf "/t/closure/goog/base.js") "closure/goog" =
        "/t/closure/goog/../../closure/goog" := by
      decide +kernel
    rw [hDirectory]
    exact FileTree.sameNames_of_subset (by decide +kernel) (by decide +kernel)
  · cases List.mem_singleton.mp hRoot
    have hDirectory : Path.join (Scan.treeOf "/t/closure/goog/base.js") "third_party/closure/goog" =
        "/t/closure/goog/../../third_party/closure/goog" := by
      decide +kernel
    rw [hDirectory]
    exact FileTree.sameNames_of_subset (by decide +kernel) (by decide +kernel)

theorem run_of_shuffledProviders :
    let options : Options :=
      ⟨"/t/closure/goog/base.js", "/out.go", Formatter.parse? "go fmt", some "/manifest.yaml"⟩
    let one := (run options).execute (FileTree.twoProviders.overlay .accepting) ()
    let other := (run options).execute (shuffledProviders.overlay .accepting) ()
    FileTree.ListsAlike (Scan.treeOf options.anchor) FileTree.twoProviders shuffledProviders ∧
      SameButListings one other ∧ one.ending = .done ⟨4, 2, 2, 0⟩ ∧
      @Event.classified "closure/goog/b.js" (.library ["x.B", "x.A"] [] false) ∈ one.events := by
  intro options one other
  have hAlike : SameButListings one other :=
    run_of_listsAlike .accepting options () listsAlike_shuffledProviders
  exact ⟨listsAlike_shuffledProviders, hAlike, by decide +kernel, by decide +kernel⟩

end Regenerate

end ProvideIndex
