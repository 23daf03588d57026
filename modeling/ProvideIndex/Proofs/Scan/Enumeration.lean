import ProvideIndex.Proofs.Scan.FileTree
import Mathlib.Data.List.Sort

/-!
# Listing scan roots

`Scan.enumerate` lists any scan roots, also ones that occur twice or that lie below one another. It
asks about one root after another and stops at the first that is missing although it is required, or
that cannot be listed.

* `Enumerates`: what comes of the listings that the roots get, one after another.
* `follows_enumerate`: every course of a listing follows the script of its visits.
* `enumerate_visits`: in any world, a listing goes by its visits; roots in another order lead to the
  same files as long as each root is answered alike.
-/

namespace ProvideIndex

theorem Text.ascending_eq_of_mem_iff {texts others : List String}
    (h : ∀ x, x ∈ texts ↔ x ∈ others) : ascending texts = ascending others := by
  refine (pairwise_ascending texts).eq_of_mem_iff (pairwise_ascending others) fun x => ?_
  rw [mem_ascending, mem_ascending, h]

namespace Scan

open Run Script

/-- Scan roots in the order in which they are asked about, each with the listing it gets. -/
abbrev Visits := List (ScanRoot × Listing)

namespace Visits

def script (tree : String) (visits : Visits) : Script :=
  visits.flatMap fun visit => rootScript tree visit.1 visit.2

def exchanges (tree : String) (visits : Visits) : List Exchange :=
  visits.flatMap fun visit => rootExchanges tree visit.1 visit.2

/-- What the visits find, with repetitions, in the order of the visits. -/
def found (visits : Visits) : List String := visits.flatMap fun visit => below visit.1 visit.2

end Visits

/-- The failure that a listing of a scan root means. -/
def rootFailure? (tree : String) (root : ScanRoot) : Listing → Option Failure
  | none => if root.required then some (.rootNotFound (Path.join tree root.path)) else none
  | some (.error cause) => some (.fileSystem .walk (Path.join tree root.path) cause)
  | some (.ok _) => none

/--
What comes of listing `roots` one after another. Either no listing means a failure, and the result
is the union of the listings in strictly ascending order; or the last visit is the first that means
one, and the roots behind it are not visited.
-/
inductive Enumerates (tree : String) (roots : List ScanRoot) :
    Visits → Except Failure (List String) → Prop where
  | done {visits : Visits} {paths : List String} (hRoots : visits.map Prod.fst = roots)
      (hVisits : ∀ visit ∈ visits, rootFailure? tree visit.1 visit.2 = none)
      (hAscending : paths.Pairwise (· < ·))
      (hPaths : ∀ path, path ∈ paths ↔ ∃ root names, (root, some (.ok names)) ∈ visits ∧
        ∃ name ∈ names, path = root.path ++ "/" ++ name) :
      Enumerates tree roots visits (.ok paths)
  | failed {before : Visits} {root : ScanRoot} {listing : Listing} {later : List ScanRoot}
      {failure : Failure} (hRoots : roots = before.map Prod.fst ++ root :: later)
      (hBefore : ∀ visit ∈ before, rootFailure? tree visit.1 visit.2 = none)
      (hFailure : rootFailure? tree root listing = some failure) :
      Enumerates tree roots (before ++ [(root, listing)]) (.error failure)

variable {exchanges : List Exchange} {events : List Event} {allowed : Exchange → Prop}
  {tree : String} {roots others : List ScanRoot} {visits : Visits}

/-! ### Visits -/

theorem failure?_rootScript (tree : String) (root : ScanRoot) (listing : Listing) :
    (rootScript tree root listing).failure? = rootFailure? tree root listing := by
  match listing with
  | none =>
    rw [rootScript, rootFailure?]
    cases root.required <;> rfl
  | some (.error cause) => rfl
  | some (.ok names) => rfl

theorem Answers.failure?_rootsScript (answers : Answers) (tree : String) :
    (answers.rootsScript tree).failure? =
      Scan.roots.findSome? fun root => rootFailure? tree root (answers.listing root) := by
  rw [Answers.rootsScript, failure?_flatMap]
  exact congrArg (Scan.roots.findSome? ·) (funext fun root => failure?_rootScript ..)

/-- A visit that fails does so with its last request. -/
theorem exchanges_performed_rootScript (tree : String) (root : ScanRoot) (listing : Listing) :
    (rootScript tree root listing).performed.exchanges = rootExchanges tree root listing := by
  match listing with
  | none =>
    rw [rootScript, rootExchanges]
    cases root.required <;> rfl
  | some (.error cause) => rfl
  | some (.ok names) => rfl

theorem exchanges_visitsScript (tree : String) (visits : Visits) :
    (visits.script tree).exchanges = visits.exchanges tree := by
  rw [Visits.script, exchanges_flatMap]
  exact congrArg (List.flatMap · visits) (funext fun visit => exchanges_rootScript ..)

theorem mem_below_iff {path : String} {root : ScanRoot} {listing : Listing} :
    path ∈ below root listing ↔
      ∃ names, listing = some (.ok names) ∧ ∃ name ∈ names, path = root.path ++ "/" ++ name := by
  match listing with
  | none => simp [below]
  | some (.error cause) => simp [below]
  | some (.ok names) => simp [below, eq_comm]

theorem mem_found_iff {path : String} :
    path ∈ visits.found ↔ ∃ root names, (root, some (.ok names)) ∈ visits ∧
      ∃ name ∈ names, path = root.path ++ "/" ++ name := by
  rw [Visits.found, List.mem_flatMap]
  constructor
  · rintro ⟨⟨root, listing⟩, hVisit, hPath⟩
    obtain ⟨names, rfl, hName⟩ := mem_below_iff.mp hPath
    exact ⟨root, names, hVisit, hName⟩
  · rintro ⟨root, names, hVisit, hName⟩
    exact ⟨_, hVisit, mem_below_iff.mpr ⟨names, rfl, hName⟩⟩

/-- Every course of a listing follows the script of visits to all roots; what is not reached is
answered by `base`. -/
theorem follows_enumerate {base : ScanRoot → Listing}
    (hBase : ∀ root, ∀ exchange ∈ rootExchanges tree root (base root), allowed exchange)
    {result : Except Failure (List String)}
    (h : Course (enumerate tree roots) exchanges events result)
    (hAllowed : ∀ exchange ∈ exchanges, allowed exchange) :
    ∃ visits : Visits, visits.map Prod.fst = roots ∧
      (∀ visit ∈ visits, ∀ exchange ∈ rootExchanges tree visit.1 visit.2, allowed exchange) ∧
      Follows (visits.script tree) (Text.ascending visits.found) exchanges events result := by
  rw [enumerate] at h
  obtain ⟨before, hRoots, rfl⟩ := course_map.mp h
  obtain ⟨visits, hKeys, hVisits, hFollows⟩ := follows_each hRoots hAllowed rfl
    (fun _ _ => rfl) (fun _ => follows_listRoot) hBase
  refine ⟨visits, hKeys, hVisits, ?_⟩
  rw [List.foldr_append_eq_append, List.append_nil, ← List.flatMap_def] at hFollows
  exact hFollows.map Text.ascending

/-- A script of visits comes to what its visits come to, and asks about no root behind the first
that fails. -/
theorem enumerates_of_follows {result : Except Failure (List String)}
    (hRoots : visits.map Prod.fst = roots)
    (h : Follows (visits.script tree) (Text.ascending visits.found) exchanges events result) :
    ∃ made : Visits, exchanges = made.exchanges tree ∧ Enumerates tree roots made result := by
  cases hFailure : (visits.script tree).failure? with
  | none =>
    have hResult := h.result_eq
    rw [Script.result, hFailure] at hResult
    subst hResult
    refine ⟨visits, ?_, .done hRoots ?_ (Text.pairwise_ascending _) fun path => ?_⟩
    · rw [h.exchanges_eq, performed_of_none hFailure, exchanges_visitsScript]
    · intro visit hVisit
      rw [← failure?_rootScript]
      exact failure?_flatMap_eq_none.mp hFailure visit hVisit
    · rw [Text.mem_ascending, mem_found_iff]
  | some failure =>
    have hResult := h.result_eq
    rw [Script.result, hFailure] at hResult
    subst hResult
    obtain ⟨before, ⟨root, listing⟩, after, rfl, hBefore, hLast, hPerformed⟩ :=
      exists_first_of_flatMap hFailure
    have hSplit : roots = before.map Prod.fst ++ root :: after.map Prod.fst := by
      rw [← hRoots, List.map_append, List.map_cons]
    refine ⟨before ++ [(root, listing)], ?_, .failed hSplit ?_ ?_⟩
    · have hMade : Script.exchanges (Visits.script tree before) = Visits.exchanges tree before :=
        exchanges_visitsScript tree before
      rw [h.exchanges_eq, Visits.script, hPerformed, exchanges_append,
        exchanges_performed_rootScript]
      simp only [Visits.exchanges, List.flatMap_append, List.flatMap_singleton]
      exact congrArg (· ++ rootExchanges tree root listing) hMade
    · intro visit hVisit
      rw [← failure?_rootScript]
      exact hBefore visit hVisit
    · rw [← failure?_rootScript]
      exact hLast

/-! ### Roots that are answered alike -/

/-- The visits to roots that are answered as a tree has it. -/
def visitsTo (files : FileTree) (tree : String) (roots : List ScanRoot) : Visits :=
  roots.map fun root => (root, (files.answers tree).listing root)

theorem follows_enumerate_of_tells {files : FileTree} {result : Except Failure (List String)}
    (h : Course (enumerate tree roots) exchanges events result)
    (hTells : ∀ exchange ∈ exchanges, files.Tells exchange) :
    Follows ((visitsTo files tree roots).script tree)
      (Text.ascending (visitsTo files tree roots).found) exchanges events result := by
  obtain ⟨visits, rfl, hVisits, hFollows⟩ :=
    follows_enumerate (FileTree.answers_within files tree).listing h hTells
  have hSame : visitsTo files tree (visits.map Prod.fst) = visits := by
    rw [visitsTo, List.map_map]
    refine List.map_congr_left (g := id) (fun visit hVisit => ?_) |>.trans (List.map_id visits)
    exact Prod.ext rfl (FileTree.listing_eq_of_tells (hVisits visit hVisit)).symm
  rw [hSame]
  exact hFollows

/-- If no root makes a listing fail, none does in another order, and the files are the same. -/
theorem done_of_perm {files : FileTree} {result : Except Failure (List String)}
    {paths : List String} {otherExchanges : List Exchange} {otherEvents : List Event}
    (hPerm : others.Perm roots) (hTells : ∀ exchange ∈ exchanges, files.Tells exchange)
    (hOthers : ∀ exchange ∈ otherExchanges, files.Tells exchange)
    (h : Course (enumerate tree roots) exchanges events (.ok paths))
    (hOther : Course (enumerate tree others) otherExchanges otherEvents result) :
    result = .ok paths := by
  obtain ⟨hNone, rfl⟩ := (follows_enumerate_of_tells h hTells).failure?_of_ok
  rw [(follows_enumerate_of_tells hOther hOthers).result_eq, result_eq_ok]
  have hVisits : (visitsTo files tree others).Perm (visitsTo files tree roots) := hPerm.map _
  constructor
  · rw [Visits.script, failure?_flatMap_eq_none] at hNone ⊢
    exact fun visit hVisit => hNone visit (hVisits.subset hVisit)
  · refine Text.ascending_eq_of_mem_iff fun path => ?_
    exact (hVisits.flatMap_right _).mem_iff

/-! ### Any world -/

/--
In any world, a listing of scan roots goes by the visits it makes, and makes no other request. If no
root makes it fail, roots in another order lead to the same files, as long as the answers of both
listings are those of one tree.
-/
theorem enumerate_visits {σ : Type} (world : World Empty σ) (tree : String)
    (roots : List ScanRoot) (state : σ) :
    let outcome := (enumerate tree roots).execute world state
    (∃ visits : Visits, outcome.exchanges = visits.exchanges tree ∧
      Enumerates tree roots visits outcome.ending.result) ∧
    ∀ (files : FileTree) (others : List ScanRoot) (later : σ) (paths : List String),
      let other := (enumerate tree others).execute world later
      others.Perm roots → (∀ exchange ∈ outcome.exchanges, files.Tells exchange) →
        (∀ exchange ∈ other.exchanges, files.Tells exchange) → outcome.ending = .done paths →
          other.ending = .done paths := by
  intro outcome
  have hCourse : Course (enumerate tree roots) outcome.exchanges outcome.events
      outcome.ending.result := course_execute world _ state
  constructor
  · have hBase : ∀ root : ScanRoot, ∀ exchange ∈ rootExchanges tree root none, True :=
      fun _ _ _ => trivial
    obtain ⟨visits, hRoots, -, hFollows⟩ := follows_enumerate hBase hCourse fun _ _ => trivial
    exact enumerates_of_follows hRoots hFollows
  · intro files others later paths other hPerm hTells hOthers hDone
    have hOther : Course (enumerate tree others) other.exchanges other.events
        other.ending.result := course_execute world _ later
    rw [hDone] at hCourse
    exact Ending.result_eq_ok.mp (done_of_perm hPerm hTells hOthers hCourse hOther)

/-- A tree with two scan roots of which one lies below the other; a third is missing. -/
def nested : FileTree where
  fileExists path := path != "/t/absent"
  listFiles root :=
    if root = "/t/closure/goog" then .ok ["dom/dom.js", "base.js"] else .ok ["dom.js"]
  readText _ := .ok ""

def nestedRoots : List ScanRoot :=
  [⟨"closure/goog", true⟩, ⟨"closure/goog/dom", true⟩, ⟨"absent", false⟩]

/-- The file below both roots is found once, whichever of them comes first. -/
theorem enumerate_nested :
    ((enumerate "/t" nestedRoots).execute (nested.overlay .accepting) ()).ending =
        .done ["closure/goog/base.js", "closure/goog/dom/dom.js"] ∧
      ((enumerate "/t" nestedRoots.reverse).execute (nested.overlay .accepting) ()).ending =
        .done ["closure/goog/base.js", "closure/goog/dom/dom.js"] := by
  have hFound : ((enumerate "/t" nestedRoots).execute (nested.overlay .accepting) ()).ending =
      .done ["closure/goog/base.js", "closure/goog/dom/dom.js"] := by decide +kernel
  have hShows := nested.shows_overlay World.accepting
  exact ⟨hFound, (enumerate_visits _ "/t" nestedRoots ()).2 nested _ () _ (List.reverse_perm _)
    (fun _ => FileTree.tells_of_mem hShows) (fun _ => FileTree.tells_of_mem hShows) hFound⟩

end Scan

end ProvideIndex
