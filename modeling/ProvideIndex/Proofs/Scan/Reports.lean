import ProvideIndex.Proofs.Run.Course
import ProvideIndex.Scan

/-!
# What a scan reports

A run is a tree, so which events it can report at all can be read off it, whatever its world answers
and however it ends.

* `ReportsOnly.of_execute`, `ReportsOnly.of_course`: no execution reports anything else.
* `reportsOnly_files`: a scan reports at the lowest level only.
-/

namespace ProvideIndex

namespace Run

variable {α β ε σ : Type} {allowed : Event → Prop}

/-- Whether a run can report no other events than the allowed ones. -/
def ReportsOnly (allowed : Event → Prop) : Run α → Prop
  | done _ => True
  | fail _ => True
  | report event rest => allowed event ∧ rest.ReportsOnly allowed
  | ask _ rest => ∀ reply, (rest reply).ReportsOnly allowed

theorem ReportsOnly.bind {run : Run α} {f : α → Run β} (h : run.ReportsOnly allowed)
    (hNext : ∀ a, (f a).ReportsOnly allowed) : (run >>= f).ReportsOnly allowed := by
  induction run with
  | done result => exact hNext result
  | fail failure => trivial
  | report event rest ih => exact ⟨h.1, ih h.2⟩
  | ask request rest ih => exact fun reply => ih reply (h reply)

theorem ReportsOnly.mono {others : Event → Prop} {run : Run α} (h : run.ReportsOnly allowed)
    (hMore : ∀ event, allowed event → others event) : run.ReportsOnly others := by
  induction run with
  | done result => trivial
  | fail failure => trivial
  | report event rest ih => exact ⟨hMore event h.1, ih h.2⟩
  | ask request rest ih => exact fun reply => ih reply (h reply)

theorem reportsOnly_reportAll {events : List Event} (h : ∀ event ∈ events, allowed event) :
    (reportAll events).ReportsOnly allowed := by
  induction events with
  | nil => trivial
  | cons event events ih =>
    obtain ⟨hFirst, hRest⟩ := List.forall_mem_cons.mp h
    exact ⟨hFirst, ih hRest⟩

theorem reportsOnly_orFail (failure : String → Failure) (reply : Except String α) :
    (orFail failure reply).ReportsOnly allowed := by
  cases reply <;> trivial

/-- No execution reports anything else, even if the world breaks down on the way. -/
theorem ReportsOnly.of_execute {run : Run α} (h : run.ReportsOnly allowed) (world : World ε σ)
    (state : σ) : ∀ event ∈ (run.execute world state).events, allowed event := by
  induction run generalizing state with
  | done result => exact fun event hMem => absurd hMem List.not_mem_nil
  | fail failure => exact fun event hMem => absurd hMem List.not_mem_nil
  | report first rest ih => exact List.forall_mem_cons.mpr ⟨h.1, ih h.2 state⟩
  | ask request rest ih =>
    rw [execute]
    cases world.answer request state with
    | mk answer next =>
      cases answer with
      | inl cause => exact fun event hMem => absurd hMem List.not_mem_nil
      | inr reply => exact ih reply (h reply) next

theorem ReportsOnly.of_course {run : Run α} {exchanges : List Exchange} {events : List Event}
    {result : Except Failure α} (h : run.ReportsOnly allowed)
    (hCourse : Course run exchanges events result) : ∀ event ∈ events, allowed event := by
  induction hCourse with
  | done result => exact fun event hMem => absurd hMem List.not_mem_nil
  | fail failure => exact fun event hMem => absurd hMem List.not_mem_nil
  | report rest ih => exact List.forall_mem_cons.mpr ⟨h.1, ih h.2⟩
  | ask rest ih => exact ih (h _)

end Run

namespace Scan

open Run

/-- Whether an event is one of the lowest level. -/
def IsDebug (event : Event) : Prop := event.level = .debug

theorem reportsOnly_locate (anchor : String) : (locate anchor).ReportsOnly IsDebug := by
  intro found
  cases found with
  | false => trivial
  | true => cases Path.parent? anchor <;> trivial

theorem reportsOnly_listRoot (tree : String) (root : ScanRoot) :
    (listRoot tree root).ReportsOnly IsDebug := by
  intro found
  cases found with
  | true => exact fun reply => (reportsOnly_orFail _ reply).bind fun names => ⟨rfl, trivial⟩
  | false =>
    show ReportsOnly IsDebug (if root.required then _ else _)
    cases root.required with
    | true => trivial
    | false => exact ⟨rfl, trivial⟩

theorem reportsOnly_listRoots (tree : String) (roots : List ScanRoot) :
    (listRoots tree roots).ReportsOnly IsDebug := by
  induction roots with
  | nil => trivial
  | cons root roots ih =>
    exact (reportsOnly_listRoot tree root).bind fun files => ih.bind fun others => trivial

theorem reportsOnly_kindOf (tree path : String) : (kindOf tree path).ReportsOnly IsDebug := by
  rw [kindOf]
  split
  · trivial
  · split
    · trivial
    · exact fun reply => (reportsOnly_orFail _ reply).bind fun content => trivial

theorem reportsOnly_classifyAll (tree : String) (paths : List String) :
    (classifyAll tree paths).ReportsOnly IsDebug := by
  induction paths with
  | nil => trivial
  | cons path paths ih =>
    have hFile : (classify tree path).ReportsOnly IsDebug :=
      (reportsOnly_kindOf tree path).bind fun kind => ⟨rfl, trivial⟩
    exact hFile.bind fun file => ih.bind fun files => trivial

/-- A scan reports at the lowest level only. -/
theorem reportsOnly_files (tree : String) : (files tree).ReportsOnly IsDebug := by
  have hPaths : (enumerate tree roots).ReportsOnly IsDebug :=
    (reportsOnly_listRoots tree roots).bind fun files => trivial
  exact hPaths.bind fun paths => reportsOnly_classifyAll tree paths

end Scan

end ProvideIndex
