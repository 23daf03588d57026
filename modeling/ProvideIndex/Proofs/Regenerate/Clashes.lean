import ProvideIndex.Proofs.Regenerate.Script
import ProvideIndex.Proofs.Scan.FileTree
import ProvideIndex.Proofs.Scan.Reports
import ProvideIndex.Proofs.SymbolTable.Clashes

/-!
# Which clashes a run reports

A scan lists each file once, but a file may declare a symbol more than once, and each declaration of
a symbol that has an owner is a clash. So a clash is either between two files or within one.

* `mem_clashes_iff`: the clashes of files in strictly ascending order.
* `run_eq_survey`: a run reports its clashes when it has surveyed the tree that it has located.
* `survey_clashes`: which clashes are reported there, and when all of them are between two files.
-/

namespace ProvideIndex

namespace SymbolTable

variable {path : String} {symbols : List String} {table : SymbolTable} {clash : Clash}
  {file : Source.File} {files : List Source.File}

/-! ### Clashes of one file -/

theorem mem_clash?_iff {symbol : String} :
    clash ∈ (table.clash? path symbol).toList ↔
      clash.symbol = symbol ∧ clash.owner = path ∧ table.owner? symbol = some clash.previous := by
  obtain ⟨declared, previous, owner⟩ := clash
  rw [Option.mem_toList, clash?, Option.map_eq_some_iff]
  constructor
  · rintro ⟨other, hOwner, hClash⟩
    cases hClash
    exact ⟨rfl, rfl, hOwner⟩
  · rintro ⟨rfl, rfl, hOwner⟩
    exact ⟨previous, hOwner, rfl⟩

/-- A file clashes with itself over a repeated symbol, and with the owner before it. -/
theorem mem_giveAll_iff :
    clash ∈ (giveAll path symbols table).2 ↔
      clash.owner = path ∧
        ((clash.previous = path ∧ 2 ≤ symbols.count clash.symbol) ∨
          (clash.symbol ∈ symbols ∧ table.owner? clash.symbol = some clash.previous)) := by
  induction symbols generalizing table with
  | nil => simp [giveAll]
  | cons first symbols ih =>
    rw [giveAll_cons, List.mem_append, mem_clash?_iff, ih, owner?_give]
    by_cases hFirst : clash.symbol = first
    · -- From now on the file owns the symbol, so each later declaration clashes with itself.
      have hCount : 2 ≤ (first :: symbols).count clash.symbol ↔ clash.symbol ∈ symbols := by
        rw [hFirst, List.count_cons_self, ← List.one_le_count_iff]
        omega
      have hMem : clash.symbol ∈ first :: symbols := by
        rw [hFirst]
        exact List.mem_cons_self
      have hTwice : 2 ≤ symbols.count clash.symbol → clash.symbol ∈ symbols := fun h =>
        List.one_le_count_iff.mp (by omega)
      rw [hCount, if_pos hFirst, Option.some.injEq, ← hFirst]
      constructor
      · rintro (⟨-, hOwner, hPrevious⟩ | ⟨hOwner, ⟨hSelf, hAgain⟩ | ⟨hAgain, hSelf⟩⟩)
        · exact ⟨hOwner, .inr ⟨hFirst ▸ hMem, hPrevious⟩⟩
        · exact ⟨hOwner, .inl ⟨hSelf, hTwice hAgain⟩⟩
        · exact ⟨hOwner, .inl ⟨hSelf.symm, hAgain⟩⟩
      · rintro ⟨hOwner, ⟨hSelf, hAgain⟩ | ⟨-, hPrevious⟩⟩
        · exact .inr ⟨hOwner, .inr ⟨hAgain, hSelf.symm⟩⟩
        · exact .inl ⟨rfl, hOwner, hPrevious⟩
    · have hCount : (first :: symbols).count clash.symbol = symbols.count clash.symbol :=
        List.count_cons_of_ne (Ne.symm hFirst)
      have hMem : clash.symbol ∈ first :: symbols ↔ clash.symbol ∈ symbols := by
        rw [List.mem_cons]
        exact or_iff_right hFirst
      rw [hCount, hMem, if_neg hFirst]
      constructor
      · rintro (⟨hSymbol, -⟩ | h)
        · exact absurd hSymbol hFirst
        · exact h
      · exact .inr

theorem mem_addFile_iff :
    clash ∈ (table.addFile file).2 ↔
      clash.owner = file.path ∧
        ((clash.previous = file.path ∧ 2 ≤ file.provides.count clash.symbol) ∨
          (clash.symbol ∈ file.provides ∧ table.owner? clash.symbol = some clash.previous)) := by
  rw [addFile]
  cases hLibrary : file.isLibrary with
  | true => exact mem_giveAll_iff
  | false =>
    rw [Source.File.provides_eq_nil hLibrary]
    simp

/-! ### Clashes of files in order -/

/-- A clash arises at one of the files, from the table of those before it. -/
theorem mem_addFiles_iff :
    clash ∈ (table.addFiles files).2 ↔
      ∃ before file after, files = before ++ file :: after ∧
        clash ∈ ((table.addFiles before).1.addFile file).2 := by
  constructor
  · intro h
    induction files generalizing table with
    | nil => cases h
    | cons first files ih =>
      rcases List.mem_append.mp h with hFirst | hLater
      · exact ⟨[], first, files, rfl, hFirst⟩
      · obtain ⟨before, file, after, rfl, hFile⟩ := ih hLater
        exact ⟨first :: before, file, after, rfl, hFile⟩
  · rintro ⟨before, file, after, rfl, h⟩
    rw [addFiles_append]
    exact List.mem_append_right _ (List.mem_append_left _ h)

/-- Whether a clash is within a file that declares the symbol more than once. -/
def IsWithin (files : List Source.File) (clash : Clash) : Prop :=
  clash.previous = clash.owner ∧
    ∃ file ∈ files, file.path = clash.owner ∧ 2 ≤ file.provides.count clash.symbol

/--
Whether a clash is between two files that declare the symbol, the later of them with the greater
path, such that no file between them declares it.
-/
structure IsBetween (files : List Source.File) (clash : Clash) : Prop where
  less : clash.previous < clash.owner
  previous : ∃ file ∈ files, file.path = clash.previous ∧ clash.symbol ∈ file.provides
  owner : ∃ file ∈ files, file.path = clash.owner ∧ clash.symbol ∈ file.provides
  next : ∀ file ∈ files, clash.symbol ∈ file.provides →
    file.path ≤ clash.previous ∨ clash.owner ≤ file.path

/-- The clashes of files in strictly ascending order of their paths. -/
theorem mem_clashes_iff (hFiles : files.Pairwise fun a b => a.path < b.path) :
    clash ∈ clashes files ↔ IsWithin files clash ∨ IsBetween files clash := by
  rw [clashes, build, mem_addFiles_iff]
  constructor
  · rintro ⟨before, file, after, rfl, hClash⟩
    obtain ⟨hBefore, hRest, hLess⟩ := List.pairwise_append.mp hFiles
    obtain ⟨hOwner, ⟨hSelf, hAgain⟩ | ⟨hSymbol, hPrevious⟩⟩ := mem_addFile_iff.mp hClash
    · exact .inl ⟨hSelf.trans hOwner.symm, file, by simp, hOwner.symm, hAgain⟩
    · obtain ⟨⟨first, hFirst, hPath, hDeclares⟩, hLast⟩ :=
        (owner?_eq_some_iff hBefore).mp hPrevious
      refine .inr ⟨?_, ⟨first, by simp [hFirst], hPath, hDeclares⟩,
        ⟨file, by simp, hOwner.symm, hSymbol⟩, ?_⟩
      · rw [← hPath, hOwner]
        exact hLess first hFirst file List.mem_cons_self
      · intro other hOther hOtherSymbol
        rcases List.mem_append.mp hOther with hEarlier | hLater
        · exact .inl (hLast other hEarlier hOtherSymbol)
        · rw [hOwner]
          rcases List.mem_cons.mp hLater with rfl | hLater
          · exact .inr (String.le_refl _)
          · exact .inr (Std.le_of_lt ((List.pairwise_cons.mp hRest).1 other hLater))
  · rintro (⟨hSelf, file, hFile, hPath, hAgain⟩ | ⟨hLess, hPrevious, hOwner, hNext⟩)
    · obtain ⟨before, after, rfl⟩ := List.append_of_mem hFile
      exact ⟨before, file, after, rfl,
        mem_addFile_iff.mpr ⟨hPath.symm, .inl ⟨hSelf.trans hPath.symm, hAgain⟩⟩⟩
    · obtain ⟨first, hFirst, hFirstPath, hDeclares⟩ := hPrevious
      obtain ⟨file, hFile, hPath, hSymbol⟩ := hOwner
      obtain ⟨before, after, rfl⟩ := List.append_of_mem hFile
      obtain ⟨hBefore, hRest, hOrder⟩ := List.pairwise_append.mp hFiles
      refine ⟨before, file, after, rfl, mem_addFile_iff.mpr ⟨hPath.symm, .inr ⟨hSymbol, ?_⟩⟩⟩
      refine (owner?_eq_some_iff hBefore).mpr ⟨⟨first, ?_, hFirstPath, hDeclares⟩, ?_⟩
      · -- The file of the previous owner comes before, because its path is less.
        rw [← hFirstPath, ← hPath] at hLess
        rcases List.mem_append.mp hFirst with hEarlier | hLater
        · exact hEarlier
        · rcases List.mem_cons.mp hLater with rfl | hLater
          · exact absurd hLess (String.lt_irrefl _)
          · exact absurd (String.lt_trans hLess ((List.pairwise_cons.mp hRest).1 first hLater))
              (String.lt_irrefl _)
      · intro other hOther hOtherSymbol
        have hBelow : other.path < clash.owner :=
          hPath ▸ hOrder other hOther file List.mem_cons_self
        rcases hNext other (List.mem_append_left _ hOther) hOtherSymbol with hLe | hLe
        · exact hLe
        · exact absurd hBelow (String.not_lt.mpr hLe)

/-- Whether a clash is between two files, both of them libraries that declare the symbol. -/
structure IsShared (files : List Source.File) (clash : Clash) : Prop where
  distinct : clash.previous ≠ clash.owner
  declared : ∃ first ∈ files, ∃ second ∈ files, first ≠ second ∧
    (first.isLibrary = true ∧ clash.symbol ∈ first.provides) ∧
      second.isLibrary = true ∧ clash.symbol ∈ second.provides

theorem IsBetween.isShared (h : IsBetween files clash) : IsShared files clash := by
  have hDistinct : clash.previous ≠ clash.owner := String.ne_of_lt h.less
  obtain ⟨first, hFirst, hFirstPath, hFirstSymbol⟩ := h.previous
  obtain ⟨second, hSecond, hSecondPath, hSecondSymbol⟩ := h.owner
  refine ⟨hDistinct, first, hFirst, second, hSecond, fun hSame => hDistinct ?_,
    ⟨Source.File.isLibrary_of_mem_provides hFirstSymbol, hFirstSymbol⟩,
    Source.File.isLibrary_of_mem_provides hSecondSymbol, hSecondSymbol⟩
  rw [← hFirstPath, hSame, hSecondPath]

/-- All clashes are between two files if and only if no file declares a symbol twice. -/
theorem forall_isShared_iff (hFiles : files.Pairwise fun a b => a.path < b.path) :
    (∀ clash ∈ clashes files, IsShared files clash) ↔ ∀ file ∈ files, file.provides.Nodup := by
  constructor
  · intro h file hFile
    refine List.nodup_iff_count_le_one.mpr fun symbol => ?_
    by_contra hMore
    have hClash : (⟨symbol, file.path, file.path⟩ : Clash) ∈ clashes files :=
      (mem_clashes_iff hFiles).mpr (.inl ⟨rfl, file, hFile, rfl, Nat.lt_of_not_le hMore⟩)
    exact (h _ hClash).distinct rfl
  · intro h clash hClash
    rcases (mem_clashes_iff hFiles).mp hClash with ⟨-, file, hFile, -, hAgain⟩ | hBetween
    · have hOnce := List.nodup_iff_count_le_one.mp (h file hFile) clash.symbol
      omega
    · exact hBetween.isShared

end SymbolTable

namespace Regenerate

open Run Script SymbolTable

variable {ε σ : Type} {world : World ε σ} {state : σ} {tree : String} {files : List Source.File}

/-! ### After a scan -/

/-- Scans the tree, and reports the clashes that the table of its files gives rise to. -/
def survey (tree : String) : Run (List Source.File) := do
  let files ← Scan.files tree
  Run.reportAll ((SymbolTable.clashes files).map .clash)
  return files

/-- A run to an absolute output surveys the tree that it has located, and goes on from there. -/
theorem run_eq_survey (options : Options) :
    run options =
      if Path.isAbsolute options.output then do
        let tree ← Scan.locate options.anchor
        let files ← survey tree
        let libraries := (files.filter (·.isLibrary)).length
        let symbols := (SymbolTable.ofFiles files).size
        Run.report (.scanned tree files.length libraries symbols) (.done ())
        let exit ← emit options files
        return reportOn files exit
      else .fail (.outputNotAbsolute options.output) := by
  rw [run]
  refine congrArg (ite _ · _) (congrArg _ (funext fun tree => ?_))
  change _ = (Run.bind _ _).bind _
  rw [bind_bind]
  refine congrArg _ (funext fun files => ?_)
  change _ = (Run.bind _ _).bind _
  rw [bind_bind]
  simp only [emit_bind]
  rfl

/-- A scan that comes to an end has found files in strictly ascending order of their paths. -/
theorem pairwise_of_done (h : ((Scan.files tree).execute world state).ending = .done files) :
    files.Pairwise fun a b => a.path < b.path := by
  have hEnding : ((Scan.files tree).execute world state).ending = .ofResult (.ok files) := h
  obtain ⟨answers, -, hFollows⟩ :=
    Scan.follows_files (Scan.Answers.within_all _) (course_of_ending hEnding) fun _ _ => trivial
  obtain ⟨-, rfl⟩ := hFollows.failure?_of_ok
  exact FileTree.pairwise_files answers

theorem not_clash_mem_scan {clash : Clash} :
    Event.clash clash ∉ ((Scan.files tree).execute world state).events := by
  intro h
  cases (Scan.reportsOnly_files tree).of_execute world state _ h

theorem clash_mem_survey_iff {clash : Clash} :
    Event.clash clash ∈ ((survey tree).execute world state).events ↔
      ∃ files, ((Scan.files tree).execute world state).ending = .done files ∧
        clash ∈ SymbolTable.clashes files := by
  rw [survey, execute_bind, Outcome.andThen]
  cases hEnding : ((Scan.files tree).execute world state).ending with
  | failed failure => simp [not_clash_mem_scan]
  | broken cause => simp [not_clash_mem_scan]
  | done files =>
    simp only [execute_reportAll]
    change Event.clash clash ∈ _ ++ ((SymbolTable.clashes files).map Event.clash ++ []) ↔ _
    rw [List.append_nil, List.mem_append]
    constructor
    · rintro (hScan | hReported)
      · exact absurd hScan not_clash_mem_scan
      · obtain ⟨other, hOther, hSame⟩ := List.mem_map.mp hReported
        cases hSame
        exact ⟨files, rfl, hOther⟩
    · rintro ⟨found, hSame, hClash⟩
      cases hSame
      exact .inr (List.mem_map_of_mem hClash)

/--
After a scan each reported clash is within one file or between two, and if the scan comes to an end,
all are between two files if and only if no file declares a symbol twice.
-/
theorem survey_clashes (world : World ε σ) (tree : String) (state : σ) :
    (∀ clash, .clash clash ∈ ((survey tree).execute world state).events ↔
      ∃ files, ((Scan.files tree).execute world state).ending = .done files ∧
        (IsWithin files clash ∨ IsBetween files clash)) ∧
      ∀ files, ((Scan.files tree).execute world state).ending = .done files →
        ((∀ clash, .clash clash ∈ ((survey tree).execute world state).events →
            IsShared files clash) ↔
          ∀ file ∈ files, file.provides.Nodup) := by
  constructor
  · intro clash
    rw [clash_mem_survey_iff]
    refine exists_congr fun files => and_congr_right fun hDone => ?_
    exact mem_clashes_iff (pairwise_of_done hDone)
  · intro files hDone
    rw [← forall_isShared_iff (pairwise_of_done hDone)]
    refine forall_congr' fun clash => imp_congr_left ?_
    rw [clash_mem_survey_iff, hDone]
    constructor
    · rintro ⟨found, hSame, hClash⟩
      cases hSame
      exact hClash
    · exact fun hClash => ⟨files, rfl, hClash⟩

theorem survey_clashes_twoProviders :
    let outcome :=
      (survey "/t/closure/goog/../..").execute (FileTree.twoProviders.overlay .accepting) ()
    let files : List Source.File :=
      [⟨"closure/goog/a_test.js", .ignored⟩,
        ⟨"closure/goog/b.js", .library ["x.B", "x.A"] [] false⟩,
        ⟨"closure/goog/notes.txt", .asset⟩,
        ⟨"third_party/closure/goog/c.js", .library ["x.A"] [] false⟩]
    outcome.ending = .done files ∧
      .clash ⟨"x.A", "closure/goog/b.js", "third_party/closure/goog/c.js"⟩ ∈ outcome.events ∧
      ∀ clash, .clash clash ∈ outcome.events → IsShared files clash := by
  intro outcome files
  have hEnding : outcome.ending = .done files := by
    decide +kernel
  have hScan : ((Scan.files "/t/closure/goog/../..").execute
      (FileTree.twoProviders.overlay .accepting) ()).ending = .done files := by
    decide +kernel
  have hOnce : ∀ file ∈ files, file.provides.Nodup := by
    decide +kernel
  refine ⟨hEnding, by decide +kernel, ?_⟩
  exact ((survey_clashes (FileTree.twoProviders.overlay .accepting) _ ()).2 files hScan).mpr hOnce

/-- A tree with a single script, which declares `x` twice. -/
def repeatedProvide : FileTree where
  fileExists path := path ≠ "/t/closure/goog/../../third_party/closure/goog"
  listFiles _ := .ok ["a.js"]
  readText _ := .ok "goog.provide('x');\ngoog.provide('x');\n"

/-- The clash over a repeated symbol is within the only file there is. -/
theorem repeatedProvide_clash :
    let outcome := (survey "/t/closure/goog/../..").execute (repeatedProvide.overlay .accepting) ()
    outcome.ending = .done [⟨"closure/goog/a.js", .library ["x", "x"] [] false⟩] ∧
      .clash ⟨"x", "closure/goog/a.js", "closure/goog/a.js"⟩ ∈ outcome.events := by
  decide +kernel

end Regenerate

end ProvideIndex
