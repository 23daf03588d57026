import ProvideIndex.Proofs.Scan.Script

/-!
# File systems that answer by path

A `FileTree` gives the answers of a file system to the requests that look something up, each by the
path alone. A world shows a file tree if its answers to such requests are those of the tree,
whatever its state; writes and programs are left open.

* `eq_answers_of_within`: a scan in a world that shows a tree gets the answers of the tree.
* `mem_paths_iff`, `exists_file_iff`: what a scan lists, and which symbols its files declare, in
  terms of the tree.
-/

namespace ProvideIndex

structure FileTree where
  fileExists : String → Bool
  listFiles : String → Except String (List String)
  readText : String → Except String String

namespace FileTree

/-- Whether an exchange is as the tree has it. -/
def Tells (files : FileTree) : Exchange → Prop
  | ⟨.fileExists path, found⟩ => found = files.fileExists path
  | ⟨.listFiles root, names⟩ => names = files.listFiles root
  | ⟨.readText path, content⟩ => content = files.readText path
  | _ => True

/-- The answers of the tree to a scan from the root `tree`. -/
def answers (files : FileTree) (tree : String) : Scan.Answers where
  listing root :=
    if files.fileExists (Path.join tree root.path) then
      some (files.listFiles (Path.join tree root.path))
    else none
  content path := files.readText (Path.join tree path)

end FileTree

/-- The world that has no files, accepts every write, and whose programs succeed in silence. -/
def World.accepting : World Empty Unit :=
  .reliable fun request state =>
    (match request with
      | .fileExists _ => false
      | .listFiles _ => .ok []
      | .readText _ => .ok ""
      | .writeText _ _ => .ok ()
      | .runProgram _ _ => .ok ⟨0, "", ""⟩, state)

/-- Whether a world answers every request that looks something up as the tree has it. -/
def World.Shows {ε σ : Type} (world : World ε σ) (files : FileTree) : Prop :=
  ∀ (request : Request) (reply : request.Reply) (before after : σ),
    world.answer request before = (.inr reply, after) → files.Tells ⟨request, reply⟩

namespace FileTree

/-- The world that shows the tree, and leaves writes and programs to another world. -/
def overlay {ε σ : Type} (files : FileTree) (world : World ε σ) : World ε σ where
  answer
    | .fileExists path, state => (.inr (files.fileExists path), state)
    | .listFiles root, state => (.inr (files.listFiles root), state)
    | .readText path, state => (.inr (files.readText path), state)
    | .writeText path contents, state => world.answer (.writeText path contents) state
    | .runProgram program arguments, state => world.answer (.runProgram program arguments) state

theorem shows_overlay {ε σ : Type} (files : FileTree) (world : World ε σ) :
    (files.overlay world).Shows files := by
  intro request reply before after h
  cases request with
  | fileExists path | listFiles root | readText path =>
    cases h
    rfl
  | writeText path contents | runProgram program arguments => trivial

/-- Libraries below both scan roots declare `x.A`; a test and an asset are beside them. -/
def twoProviders : FileTree where
  fileExists _ := true
  listFiles root :=
    if root = "/t/closure/goog/../../closure/goog" then .ok ["a_test.js", "b.js", "notes.txt"]
    else .ok ["c.js"]
  readText path :=
    if path = "/t/closure/goog/../../closure/goog/b.js" then
      .ok "goog.provide('x.B');\ngoog.provide('x.A');\n"
    else .ok "goog.module('x.A');\n"

open Run Scan

variable {files : FileTree} {tree path symbol : String}

theorem tells_of_mem {ε σ α : Type} {world : World ε σ} {run : Run α} {state : σ}
    (hWorld : world.Shows files) {exchange : Exchange}
    (h : exchange ∈ (run.execute world state).exchanges) : files.Tells exchange := by
  obtain ⟨before, after, hAnswer⟩ := exists_answer_of_mem h
  exact hWorld _ _ before after hAnswer

theorem answers_listing (root : ScanRoot) :
    (files.answers tree).listing root =
      if files.fileExists (Path.join tree root.path) then
        some (files.listFiles (Path.join tree root.path))
      else none := rfl

theorem answers_within (files : FileTree) (tree : String) :
    (files.answers tree).Within files.Tells tree := by
  refine ⟨fun root exchange hMem => ?_, fun path => rfl⟩
  rw [answers_listing] at hMem
  cases hFound : files.fileExists (Path.join tree root.path) with
  | false =>
    rw [hFound, if_neg Bool.false_ne_true] at hMem
    rw [List.mem_singleton.mp hMem]
    exact hFound.symm
  | true =>
    rw [hFound, if_pos rfl] at hMem
    rcases List.mem_cons.mp hMem with rfl | hMem
    · exact hFound.symm
    · rw [List.mem_singleton.mp hMem]
      exact rfl

/-- What the tree tells about a scan root is its listing. -/
theorem listing_eq_of_tells {root : ScanRoot} {listing : Listing}
    (h : ∀ exchange ∈ rootExchanges tree root listing, files.Tells exchange) :
    listing = (files.answers tree).listing root := by
  rw [answers_listing]
  cases listing with
  | none =>
    have hFound : false = files.fileExists (Path.join tree root.path) :=
      h _ (List.mem_singleton_self _)
    rw [← hFound, if_neg Bool.false_ne_true]
  | some reply =>
    have hFound : true = files.fileExists (Path.join tree root.path) :=
      h _ (List.mem_cons_self ..)
    have hReply : reply = files.listFiles (Path.join tree root.path) :=
      h _ (List.mem_cons_of_mem _ (List.mem_singleton_self _))
    rw [← hFound, if_pos rfl, hReply]

theorem listing_eq_of_within {answers : Answers} (h : answers.Within files.Tells tree)
    (root : ScanRoot) : answers.listing root = (files.answers tree).listing root :=
  listing_eq_of_tells (h.listing root)

theorem eq_answers_of_within {answers : Answers} (h : answers.Within files.Tells tree) :
    answers = files.answers tree := by
  have hListing : answers.listing = (files.answers tree).listing :=
    funext (listing_eq_of_within h)
  have hContent : answers.content = (files.answers tree).content := funext h.content
  cases answers
  cases hListing
  cases hContent
  rfl

/-! ### What a scan finds -/

/-- Whether a scan lists a path, which is relative to the root `tree`. -/
def Lists (files : FileTree) (tree path : String) : Prop :=
  ∃ root ∈ Scan.roots, files.fileExists (Path.join tree root.path) = true ∧
    ∃ names, files.listFiles (Path.join tree root.path) = .ok names ∧
      ∃ name ∈ names, path = root.path ++ "/" ++ name

/-- Whether the file at a listed path declares a symbol and counts as a library. -/
structure Provides (files : FileTree) (tree path symbol : String) : Prop where
  listed : files.Lists tree path
  notIgnored : Source.isIgnoredPath path = false
  isScript : Source.isScriptPath path = true
  declared : ∃ content, files.readText (Path.join tree path) = .ok content ∧
    symbol ∈ Source.provides content ∧
    ¬(Source.isTestOnly path content.toList = true ∧ Source.isUnitTest content.toList = true)

theorem mem_paths_iff : path ∈ (files.answers tree).paths ↔ files.Lists tree path := by
  rw [Answers.paths, Text.mem_ascending, List.mem_flatMap]
  refine exists_congr fun root => and_congr_right fun _ => ?_
  rw [answers_listing]
  cases files.fileExists (Path.join tree root.path) with
  | false => simp [below]
  | true =>
    rw [if_pos rfl]
    cases files.listFiles (Path.join tree root.path) with
    | error cause => simp [below]
    | ok names => simp [below, eq_comm]

/-- The listed scripts that are not ignored, in strictly ascending order. -/
def scripts (files : FileTree) (tree : String) : List String :=
  (files.answers tree).paths.filter isRead

theorem mem_scripts :
    path ∈ files.scripts tree ↔ files.Lists tree path ∧ isRead path = true := by
  rw [scripts, List.mem_filter, mem_paths_iff]

theorem pairwise_scripts (files : FileTree) (tree : String) :
    (files.scripts tree).Pairwise (· < ·) :=
  (Text.pairwise_ascending _).filter _

end FileTree

namespace Source

/-- A script declares the symbols of its text, unless it is a unit test that is for tests only. -/
theorem mem_provides_classify {path content symbol : String} :
    symbol ∈ (File.mk path (classify path content)).provides ↔
      symbol ∈ provides content ∧
        ¬(isTestOnly path content.toList = true ∧ isUnitTest content.toList = true) := by
  rw [classify, File.provides]
  cases hDeclared : provides content with
  | nil => simp
  | cons first others =>
    by_cases hTest : isTestOnly path content.toList = true ∧ isUnitTest content.toList = true
    · simp [hTest]
    · simp only [List.isEmpty_cons, Bool.false_eq_true, if_false, Bool.and_eq_true, hTest,
        not_false_eq_true, and_true]

end Source

namespace FileTree

open Scan

variable {files : FileTree} {tree path symbol : String}

theorem mem_provides_kindWith {content : Except String String} :
    symbol ∈ (Source.File.mk path (kindWith path content)).provides ↔
      Source.isIgnoredPath path = false ∧ Source.isScriptPath path = true ∧
        ∃ text, content = .ok text ∧ symbol ∈ Source.provides text ∧
          ¬(Source.isTestOnly path text.toList = true ∧ Source.isUnitTest text.toList = true) := by
  unfold kindWith
  cases Source.isIgnoredPath path with
  | true => simp [Source.File.provides]
  | false =>
    cases Source.isScriptPath path with
    | false => simp [Source.File.provides]
    | true =>
      cases content with
      | error cause => simp [Source.File.provides]
      | ok text => simpa using Source.mem_provides_classify

/-- The files of a scan that declare a symbol are those that provide it. -/
theorem exists_file_iff :
    (∃ file ∈ (files.answers tree).files, file.path = path ∧ symbol ∈ file.provides) ↔
      files.Provides tree path symbol := by
  constructor
  · rintro ⟨file, hFile, hPath, hSymbol⟩
    obtain ⟨other, hOther, rfl⟩ := List.mem_map.mp hFile
    cases hPath
    obtain ⟨hIgnored, hScript, hDeclared⟩ := mem_provides_kindWith.mp hSymbol
    exact ⟨mem_paths_iff.mp hOther, hIgnored, hScript, hDeclared⟩
  · intro h
    refine ⟨_, List.mem_map.mpr ⟨path, mem_paths_iff.mpr h.listed, rfl⟩, rfl, ?_⟩
    exact mem_provides_kindWith.mpr ⟨h.notIgnored, h.isScript, h.declared⟩

theorem pairwise_files (answers : Scan.Answers) :
    answers.files.Pairwise fun a b => a.path < b.path :=
  List.pairwise_map.mpr (Text.pairwise_ascending _)

end FileTree

end ProvideIndex
