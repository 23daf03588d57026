import ProvideIndex.Proofs.Run.Script
import ProvideIndex.Scan

/-!
# The script of a scan

What a scan does and what it finds, as functions of the answers it gets. `Answers` holds the listing
of each scan root and the text at each path, and `Answers.script` puts the steps of the scan one
after another: for each scan root the question whether it is there and its listing, then the texts
of the scripts in ascending order of their paths.

* `follows_locate`, `follows_listRoot`, `follows_classify`: the script of each part.
* `follows_files`: every course of a scan follows the script of some answers.
-/

namespace ProvideIndex.Scan

open Run Script

/-- Whether the file at a path is read. -/
def isRead (path : String) : Bool := !Source.isIgnoredPath path && Source.isScriptPath path

/-! ### Scripts of the parts -/

def treeOf (anchor : String) : String :=
  match Path.parent? anchor with
  | some directory => Path.join directory "../.."
  | none => anchor

def anchorFailure? (anchor : String) (found : Bool) : Option Failure :=
  if found && (Path.parent? anchor).isSome then none else some (.anchorNotFound anchor)

def anchorScript (anchor : String) (found : Bool) : Script :=
  [.asked ⟨.fileExists anchor, found⟩ (anchorFailure? anchor found)]

theorem failure?_anchorScript (anchor : String) (found : Bool) :
    (anchorScript anchor found).failure? = anchorFailure? anchor found := by
  rw [anchorScript, failure?, List.findSome?_singleton]
  rfl

/-- The listing of a directory, or `none` if there is no such directory. -/
abbrev Listing := Option (Except String (List String))

/-- The paths below a scan root, relative to the root of the tree. -/
def below (root : ScanRoot) : Listing → List String
  | some (.ok names) => names.map fun name => root.path ++ "/" ++ name
  | _ => []

def rootScript (tree : String) (root : ScanRoot) : Listing → Script
  | none =>
    [.asked ⟨.fileExists (Path.join tree root.path), false⟩
        (if root.required then some (.rootNotFound (Path.join tree root.path)) else none),
      .reported (.rootAbsent root.path)]
  | some (.error cause) =>
    [.asked ⟨.fileExists (Path.join tree root.path), true⟩ none,
      .asked ⟨.listFiles (Path.join tree root.path), .error cause⟩
        (some (.fileSystem .walk (Path.join tree root.path) cause))]
  | some (.ok names) =>
    [.asked ⟨.fileExists (Path.join tree root.path), true⟩ none,
      .asked ⟨.listFiles (Path.join tree root.path), .ok names⟩ none,
      .reported (.rootWalked root.path names.length)]

/-- What is asked about a scan root. -/
def rootExchanges (tree : String) (root : ScanRoot) : Listing → List Exchange
  | none => [⟨.fileExists (Path.join tree root.path), false⟩]
  | some reply =>
    [⟨.fileExists (Path.join tree root.path), true⟩, ⟨.listFiles (Path.join tree root.path), reply⟩]

theorem exchanges_rootScript (tree : String) (root : ScanRoot) (listing : Listing) :
    (rootScript tree root listing).exchanges = rootExchanges tree root listing := by
  match listing with
  | none => rfl
  | some (.error cause) => rfl
  | some (.ok names) => rfl

/-- A scan root may be missing if it is not required, and what is there has to be listed. -/
theorem failure?_rootScript_eq_none {tree : String} {root : ScanRoot} {listing : Listing} :
    (rootScript tree root listing).failure? = none ↔
      (listing = none ∧ root.required = false) ∨ ∃ names, listing = some (.ok names) := by
  match listing with
  | none => cases h : root.required <;> simp [rootScript, failure?, Step.failure?, h]
  | some (.error cause) => simp [rootScript, failure?, Step.failure?]
  | some (.ok names) => simp [rootScript, failure?, Step.failure?]

/-- The kind of the file at a path with this text; without one, a script passes for raw. -/
def kindWith (path : String) (content : Except String String) : Source.Kind :=
  if Source.isIgnoredPath path then .ignored
  else if !Source.isScriptPath path then .asset
  else
    match content with
    | .ok text => Source.classify path text
    | .error _ => .raw

def readScript (tree path : String) (content : Except String String) : Script :=
  if isRead path then
    [.asked ⟨.readText (Path.join tree path), content⟩
      (Step.refusal (.fileSystem .read (Path.join tree path)) content)]
  else []

theorem exchanges_readScript (tree path : String) (content : Except String String) :
    (readScript tree path content).exchanges =
      if isRead path then [⟨.readText (Path.join tree path), content⟩] else [] := by
  rw [readScript]
  split <;> rfl

theorem failure?_readScript_eq_none {tree path : String} {content : Except String String} :
    (readScript tree path content).failure? = none ↔
      (isRead path = true → ∃ text, content = .ok text) := by
  rw [readScript]
  by_cases hRead : isRead path = true
  · rw [if_pos hRead]
    cases content <;> simp [failure?, Step.failure?, hRead]
  · rw [if_neg hRead]
    simp [failure?, hRead]

def fileScript (tree path : String) (content : Except String String) : Script :=
  readScript tree path content ++ [.reported (@Event.classified path (kindWith path content))]

/-- What a scan is answered: scan roots are listed and the paths of the tree hold texts. -/
structure Answers where
  listing : ScanRoot → Listing
  content : String → Except String String

namespace Answers

variable (answers : Answers)

def paths : List String :=
  Text.ascending (roots.flatMap fun root => below root (answers.listing root))

def files : List Source.File :=
  answers.paths.map fun path => ⟨path, kindWith path (answers.content path)⟩

def rootsScript (tree : String) : Script :=
  roots.flatMap fun root => rootScript tree root (answers.listing root)

def filesScript (tree : String) : Script :=
  answers.paths.flatMap fun path => fileScript tree path (answers.content path)

def script (tree : String) : Script := answers.rootsScript tree ++ answers.filesScript tree

/-- The texts that are read, in ascending order of their paths. -/
def reads (tree : String) : List Exchange :=
  (answers.paths.filter isRead).map fun path =>
    ⟨.readText (Path.join tree path), answers.content path⟩

theorem exchanges_rootsScript (tree : String) :
    (answers.rootsScript tree).exchanges =
      roots.flatMap fun root => rootExchanges tree root (answers.listing root) := by
  rw [rootsScript, exchanges_flatMap]
  exact congrArg (List.flatMap · roots) (funext fun root => exchanges_rootScript ..)

theorem exchanges_filesScript (tree : String) :
    (answers.filesScript tree).exchanges = answers.reads tree := by
  rw [filesScript, reads, exchanges_flatMap]
  induction answers.paths with
  | nil => rfl
  | cons path paths ih =>
    rw [List.flatMap_cons, ih, fileScript, exchanges_append, exchanges_readScript, List.filter_cons]
    split <;> rfl

theorem failure?_rootsScript_eq_none {tree : String} :
    (answers.rootsScript tree).failure? = none ↔
      ∀ root ∈ roots, (answers.listing root = none ∧ root.required = false) ∨
        ∃ names, answers.listing root = some (.ok names) := by
  rw [rootsScript, failure?_flatMap_eq_none]
  exact forall₂_congr fun root _ => failure?_rootScript_eq_none

theorem failure?_filesScript_eq_none {tree : String} :
    (answers.filesScript tree).failure? = none ↔
      ∀ path ∈ answers.paths, isRead path = true → ∃ text, answers.content path = .ok text := by
  rw [filesScript, failure?_flatMap_eq_none]
  refine forall₂_congr fun path _ => ?_
  rw [fileScript, failure?_append, Option.or_eq_none_iff, failure?_readScript_eq_none]
  exact and_iff_left rfl

/-- Whether all exchanges with these answers are of an allowed kind. -/
structure Within (allowed : Exchange → Prop) (tree : String) : Prop where
  listing : ∀ root, ∀ exchange ∈ rootExchanges tree root (answers.listing root), allowed exchange
  content : ∀ path, allowed ⟨.readText (Path.join tree path), answers.content path⟩

/-- Where every exchange is allowed, a tree without scan roots and texts will do. -/
theorem within_all (tree : String) :
    (⟨fun _ => none, fun _ => .error ""⟩ : Answers).Within (fun _ => True) tree :=
  ⟨fun _ _ _ => trivial, fun _ => trivial⟩

end Answers

/-! ### Courses of the parts -/

variable {exchanges : List Exchange} {events : List Event} {allowed : Exchange → Prop}

theorem follows_locate {anchor : String} {result : Except Failure String}
    (h : Course (locate anchor) exchanges events result) :
    ∃ found, Follows (anchorScript anchor found) (treeOf anchor) exchanges events result := by
  obtain ⟨found, later, hLater, rfl⟩ := course_request.mp h
  refine ⟨found, ?_⟩
  rw [anchorScript, anchorFailure?, treeOf]
  cases found with
  | false =>
    obtain ⟨rfl, rfl, rfl⟩ := course_fail.mp hLater
    exact .failing ..
  | true =>
    cases hParent : Path.parent? anchor with
    | none =>
      rw [hParent] at hLater
      obtain ⟨rfl, rfl, rfl⟩ := course_fail.mp hLater
      exact .failing ..
    | some directory =>
      rw [hParent] at hLater
      obtain ⟨rfl, rfl, rfl⟩ := course_done.mp hLater
      exact .asked _ (.nil _)

theorem follows_listRoot {tree : String} {root : ScanRoot} {result : Except Failure (List String)}
    (h : Course (listRoot tree root) exchanges events result)
    (hAllowed : ∀ exchange ∈ exchanges, allowed exchange) :
    ∃ listing, (∀ exchange ∈ rootExchanges tree root listing, allowed exchange) ∧
      Follows (rootScript tree root listing) (below root listing) exchanges events result := by
  obtain ⟨found, later, hFound, rfl⟩ := course_request.mp h
  cases found with
  | false =>
    refine ⟨none, fun exchange hMem => ?_, ?_⟩
    · exact hAllowed exchange (List.mem_cons.mpr (.inl (List.mem_singleton.mp hMem)))
    · rw [rootScript]
      cases hRequired : root.required with
      | true =>
        rw [hRequired] at hFound
        obtain ⟨rfl, rfl, rfl⟩ := course_fail.mp hFound
        exact .failing ..
      | false =>
        rw [hRequired] at hFound
        obtain ⟨_, hRest, rfl⟩ := course_report.mp hFound
        obtain ⟨rfl, rfl, rfl⟩ := course_done.mp hRest
        exact .asked _ (.reported _ (.nil _))
  | true =>
    obtain ⟨reply, later, hReply, rfl⟩ := course_request.mp hFound
    cases reply with
    | error cause =>
      obtain ⟨rfl, rfl, rfl⟩ := course_fail.mp hReply
      exact ⟨some (.error cause), hAllowed, .asked _ (.failing ..)⟩
    | ok names =>
      obtain ⟨_, hRest, rfl⟩ := course_report.mp hReply
      obtain ⟨rfl, rfl, rfl⟩ := course_done.mp hRest
      exact ⟨some (.ok names), hAllowed, .asked _ (.asked _ (.reported _ (.nil _)))⟩

theorem follows_kindOf {tree path : String} {result : Except Failure Source.Kind}
    {fallback : Except String String}
    (hFallback : allowed ⟨.readText (Path.join tree path), fallback⟩)
    (h : Course (kindOf tree path) exchanges events result)
    (hAllowed : ∀ exchange ∈ exchanges, allowed exchange) :
    ∃ content, allowed ⟨.readText (Path.join tree path), content⟩ ∧
      Follows (readScript tree path content) (kindWith path content) exchanges events result := by
  rw [kindOf] at h
  cases hIgnored : Source.isIgnoredPath path with
  | true =>
    rw [hIgnored] at h
    obtain ⟨rfl, rfl, rfl⟩ := course_done.mp h
    refine ⟨fallback, hFallback, ?_⟩
    unfold readScript kindWith isRead
    rw [hIgnored]
    exact .nil _
  | false =>
    cases hScript : Source.isScriptPath path with
    | false =>
      rw [hIgnored, hScript] at h
      obtain ⟨rfl, rfl, rfl⟩ := course_done.mp h
      refine ⟨fallback, hFallback, ?_⟩
      unfold readScript kindWith isRead
      rw [hIgnored, hScript]
      exact .nil _
    | true =>
      rw [hIgnored, hScript] at h
      obtain ⟨reply, later, hReply, rfl⟩ := course_request.mp h
      refine ⟨reply, hAllowed _ (List.mem_cons_self ..), ?_⟩
      unfold readScript kindWith isRead
      rw [hIgnored, hScript]
      cases reply with
      | error cause =>
        obtain ⟨rfl, rfl, rfl⟩ := course_fail.mp hReply
        exact .failing ..
      | ok text =>
        obtain ⟨rfl, rfl, rfl⟩ := course_done.mp hReply
        exact .asked _ (.nil _)

theorem follows_classify {tree path : String} {result : Except Failure Source.File}
    {fallback : Except String String}
    (hFallback : allowed ⟨.readText (Path.join tree path), fallback⟩)
    (h : Course (classify tree path) exchanges events result)
    (hAllowed : ∀ exchange ∈ exchanges, allowed exchange) :
    ∃ content, allowed ⟨.readText (Path.join tree path), content⟩ ∧
      Follows (fileScript tree path content) ⟨path, kindWith path content⟩
        exchanges events result := by
  rcases course_bind.mp h with
    ⟨failure, hKind, rfl⟩ | ⟨kind, first, second, _, _, hKind, hReport, rfl, rfl⟩
  · obtain ⟨content, hContent, hFollows⟩ := follows_kindOf hFallback hKind hAllowed
    exact ⟨content, hContent, hFollows.append_of_error⟩
  · obtain ⟨content, hContent, hFollows⟩ := follows_kindOf hFallback hKind
      fun exchange hMem => hAllowed exchange (List.mem_append_left _ hMem)
    obtain ⟨-, rfl⟩ := hFollows.failure?_of_ok
    obtain ⟨_, hDone, rfl⟩ := course_report.mp hReport
    obtain ⟨rfl, rfl, rfl⟩ := course_done.mp hDone
    exact ⟨content, hContent, hFollows.append (.reported _ (.nil _))⟩

/-! ### Courses of the whole scan -/

theorem nodup_ascending (texts : List String) : (Text.ascending texts).Nodup :=
  (Text.pairwise_ascending texts).imp fun h => (String.ne_of_lt h)

theorem follows_listRoots {tree : String} {roots : List ScanRoot} (hNodup : roots.Nodup)
    {base : ScanRoot → Listing}
    (hBase : ∀ root, ∀ exchange ∈ rootExchanges tree root (base root), allowed exchange)
    {result : Except Failure (List String)}
    (h : Course (listRoots tree roots) exchanges events result)
    (hAllowed : ∀ exchange ∈ exchanges, allowed exchange) :
    ∃ listing : ScanRoot → Listing,
      (∀ root, ∀ exchange ∈ rootExchanges tree root (listing root), allowed exchange) ∧
      Follows (roots.flatMap fun root => rootScript tree root (listing root))
        (roots.flatMap fun root => below root (listing root)) exchanges events result := by
  obtain ⟨listing, hListing, hFollows⟩ := follows_each_of_nodup h hAllowed hNodup rfl
    (fun _ _ => rfl) (fun _ => follows_listRoot) hBase
  refine ⟨listing, hListing, ?_⟩
  rwa [List.foldr_append_eq_append, List.append_nil, ← List.flatMap_def] at hFollows

theorem follows_classifyAll {tree : String} {paths : List String} (hNodup : paths.Nodup)
    {base : String → Except String String}
    (hBase : ∀ path, allowed ⟨.readText (Path.join tree path), base path⟩)
    {result : Except Failure (List Source.File)}
    (h : Course (classifyAll tree paths) exchanges events result)
    (hAllowed : ∀ exchange ∈ exchanges, allowed exchange) :
    ∃ content : String → Except String String,
      (∀ path, allowed ⟨.readText (Path.join tree path), content path⟩) ∧
      Follows (paths.flatMap fun path => fileScript tree path (content path))
        (paths.map fun path => ⟨path, kindWith path (content path)⟩)
        exchanges events result := by
  obtain ⟨content, hContent, hFollows⟩ := follows_each_of_nodup h hAllowed hNodup rfl
    (fun _ _ => rfl) (fun path => follows_classify (hBase path)) hBase
  refine ⟨content, hContent, ?_⟩
  rwa [← List.map_eq_foldr] at hFollows

theorem nodup_roots : roots.Nodup := by decide

/-- Every course of a scan follows the script of some answers. -/
theorem follows_files {tree : String} {base : Answers} (hBase : base.Within allowed tree)
    {result : Except Failure (List Source.File)}
    (h : Course (files tree) exchanges events result)
    (hAllowed : ∀ exchange ∈ exchanges, allowed exchange) :
    ∃ answers : Answers, answers.Within allowed tree ∧
      Follows (answers.script tree) answers.files exchanges events result := by
  rw [files, enumerate] at h
  rcases course_bind.mp h with
    ⟨failure, hPaths, rfl⟩ | ⟨paths, first, second, _, _, hPaths, hFiles, rfl, rfl⟩
  · obtain ⟨before, hRoots, hFailure⟩ := course_map.mp hPaths
    obtain ⟨listing, hListing, hFollows⟩ :=
      follows_listRoots nodup_roots hBase.listing hRoots hAllowed
    refine ⟨⟨listing, base.content⟩, ⟨hListing, hBase.content⟩, ?_⟩
    have hMap := hFollows.map Text.ascending
    rw [← hFailure] at hMap
    exact hMap.append_of_error
  · obtain ⟨before, hRoots, hOk⟩ := course_map.mp hPaths
    obtain ⟨listing, hListing, hFollows⟩ := follows_listRoots nodup_roots hBase.listing hRoots
      fun exchange hMem => hAllowed exchange (List.mem_append_left _ hMem)
    have hMap := hFollows.map Text.ascending
    rw [← hOk] at hMap
    obtain ⟨-, hEq⟩ := hMap.failure?_of_ok
    subst hEq
    obtain ⟨content, hContent, hRest⟩ := follows_classifyAll (nodup_ascending _) hBase.content
      hFiles fun exchange hMem => hAllowed exchange (List.mem_append_right _ hMem)
    exact ⟨⟨listing, content⟩, ⟨hListing, hContent⟩, hMap.append hRest⟩

end ProvideIndex.Scan
