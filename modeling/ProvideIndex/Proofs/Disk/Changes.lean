import ProvideIndex.Proofs.Disk.Paths
import ProvideIndex.Proofs.Disk.Tree

/-!
# What file operations change

Each operation that succeeds changes one entry, or moves one; directories are only made where nothing
stood.

* `grown_makeDirectories`: making directories puts one after the other where nothing stood, also when
  it fails on the way.
* `written_of_writeText`: what a write has done that succeeded.
* `moved_of_moveFile` and `EndsIn.removeFile_eq`: a move takes an entry away and puts it elsewhere.
-/

namespace ProvideIndex.Disk

/-- Whether all entries stay but the one at a place, and only directories are new elsewhere. -/
structure KeptOutside (place : Option Location) (before after : Disk) : Prop where
  kept : ∀ location entry, place ≠ some location → before.entryAt? location = some entry →
    after.entryAt? location = some entry
  fresh : ∀ location entry, place ≠ some location → after.entryAt? location = some entry →
    before.entryAt? location = some entry ∨ entry = .directory

theorem KeptOutside.trans {place : Option Location} {before middle after : Disk}
    (h : KeptOutside none before middle) (hNext : KeptOutside place middle after) :
    KeptOutside place before after where
  kept location entry hOther hEntry :=
    hNext.kept location entry hOther (h.kept location entry nofun hEntry)
  fresh location entry hOther hEntry := by
    rcases hNext.fresh location entry hOther hEntry with hMiddle | hNew
    · exact h.fresh location entry nofun hMiddle
    · exact .inr hNew

variable {disk next : Disk} {path source target contents : String} {location directory : Location}
  {name : String} {entry : Entry}

theorem concat_ne_nil (directory : Location) (name : String) : directory ++ [name] ≠ [] :=
  List.append_ne_nil_of_right_ne_nil _ (List.cons_ne_nil _ _)

theorem ne_nil_of_isDirectory_eq_false (h : disk.isDirectory location = false) : location ≠ [] := by
  rintro rfl
  cases h

/-! ### Making directories -/

/-- What becomes of a disk when directories are made where nothing stood. -/
inductive Grown (disk : Disk) : Disk → Prop
  | refl : Grown disk disk
  | step {middle : Disk} {directory : Location} {name : String} (h : Grown disk middle)
      (hDirectory : middle.isDirectory directory = true) (hName : '/' ∉ name.toList)
      (hVacant : middle.entryAt? (directory ++ [name]) = none) :
      Grown disk (middle.put (directory ++ [name]) .directory)

namespace Grown

theorem trans {middle : Disk} (h : Grown disk middle) (hNext : Grown middle next) :
    Grown disk next := by
  induction hNext with
  | refl => exact h
  | step _ hDirectory hName hVacant ih => exact .step ih hDirectory hName hVacant

theorem keptOutside (h : Grown disk next) : KeptOutside none disk next := by
  induction h with
  | refl => exact ⟨fun _ _ _ hEntry => hEntry, fun _ _ _ hEntry => .inl hEntry⟩
  | @step middle directory name _ hDirectory hName hVacant ih =>
    refine ih.trans ⟨?_, ?_⟩
    · intro location entry _ hEntry
      have hOther : location ≠ directory ++ [name] := by
        rintro rfl
        rw [hVacant] at hEntry
        cases hEntry
      rw [entryAt?_put _ _ _ _ (concat_ne_nil _ _), if_neg hOther, hEntry]
    · intro location entry _ hEntry
      rw [entryAt?_put _ _ _ _ (concat_ne_nil _ _)] at hEntry
      split at hEntry
      · exact .inr (Option.some.inj hEntry).symm
      · exact .inl hEntry

theorem isTree (h : Grown disk next) (hTree : disk.IsTree) : next.IsTree := by
  induction h with
  | refl => exact hTree
  | step _ hDirectory hName hVacant ih => exact ih.put hDirectory hName (.inl rfl)

end Grown

theorem grown_makeDirectory (h : disk.makeDirectory path = .ok next) : Grown disk next := by
  rw [makeDirectory] at h
  cases hStep : disk.lastStep path with
  | error fault =>
    rw [hStep] at h
    cases h
  | ok last =>
    obtain ⟨directory, name?, slash⟩ := last
    cases name? with
    | none =>
      rw [hStep] at h
      cases h
    | some name =>
      obtain ⟨names, front, hEnd, -, hDirectory, -⟩ := exists_endsIn_of_lastStep hStep
      rw [hStep] at h
      change (if (disk.entryAt? (directory ++ [name])).isSome = true then _ else _) = _ at h
      cases hEntry : disk.entryAt? (directory ++ [name]) with
      | some entry =>
        rw [hEntry] at h
        cases h
      | none =>
        rw [hEntry] at h
        cases h
        exact .step .refl hDirectory hEnd.not_mem hEntry

theorem grown_ensureDirectory (h : disk.ensureDirectory path = .ok next) : Grown disk next := by
  rw [ensureDirectory] at h
  cases hMake : disk.makeDirectory path with
  | ok made =>
    rw [hMake] at h
    cases h
    exact grown_makeDirectory hMake
  | error fault =>
    rw [hMake] at h
    dsimp only at h
    split at h
    · cases h
      exact .refl
    · cases h

/-- Also where a directory cannot be made, those before it have been made where nothing stood. -/
theorem grown_makeDirectoriesFrom (path : String) (fuel : Nat) :
    Grown disk (disk.makeDirectoriesFrom path fuel).2 := by
  induction fuel generalizing path with
  | zero => exact .refl
  | succ fuel ih =>
    rw [makeDirectoriesFrom]
    split
    · exact .refl
    · split
      · rename_i hMake
        exact grown_makeDirectory hMake
      · rename_i parent hMake hParent
        have hBefore := ih parent
        split
        · rename_i made hMade
          rw [hMade] at hBefore
          split
          · rename_i next hEnsure
            exact hBefore.trans (grown_ensureDirectory hEnsure)
          · exact hBefore
        · exact hBefore
      · split
        · exact .refl
        · exact .refl

theorem grown_makeDirectories (disk : Disk) (path : String) :
    Grown disk (disk.makeDirectories path).2 :=
  grown_makeDirectoriesFrom path _

/-! ### Writing -/

/-- What a write has done at the place of its path. -/
inductive Written (disk : Disk) (bytes : ByteArray) : Place → Disk → Prop
  | fresh (directory : Location) (name : String) :
      Written disk bytes (.absent directory name) (disk.put (directory ++ [name]) (.file bytes))
  | onto (location : Location) (hPlace : disk.isDirectory location = false) :
      Written disk bytes (.present location) (disk.put location (.file bytes))
  | lost (location : Location) (hPlace : disk.entryAt? location = some .sink) :
      Written disk bytes (.present location) disk

theorem written_of_writeText (h : disk.writeText path contents = .ok next) :
    ∃ place, disk.place .newFile path = .ok place ∧ Written disk contents.toUTF8 place next := by
  rw [writeText, writeBytes] at h
  cases hPlace : disk.place .newFile path with
  | error fault =>
    rw [hPlace] at h
    cases h
  | ok place =>
    rw [hPlace] at h
    refine ⟨place, rfl, ?_⟩
    cases place with
    | absent directory name =>
      cases h
      exact .fresh directory name
    | present location =>
      simp only [bind, Except.bind] at h
      cases hEntry : disk.entryAt? location with
      | none =>
        rw [hEntry] at h
        cases h
        exact .onto location (by rw [isDirectory, hEntry])
      | some entry =>
        rw [hEntry] at h
        cases entry with
        | directory => cases h
        | sink =>
          cases h
          exact .lost location hEntry
        | file | link | program =>
          cases h
          exact .onto location (by rw [isDirectory, hEntry])

namespace Written

variable {bytes : ByteArray} {place : Place} {left : Nat}

theorem workingDirectory_eq (h : Written disk bytes place next) :
    next.workingDirectory = disk.workingDirectory := by
  cases h with
  | fresh | onto | lost => rfl

/-- A write changes no entry but into its file. -/
theorem entryAt?_cases (h : Written disk bytes place next) (other : Location) :
    next.entryAt? other = some (.file bytes) ∨ next.entryAt? other = disk.entryAt? other := by
  cases h with
  | fresh directory name =>
    rw [entryAt?_put _ _ _ _ (concat_ne_nil _ _)]
    split
    · exact .inl rfl
    · exact .inr rfl
  | onto location hPlace =>
    rw [entryAt?_put _ _ _ _ (ne_nil_of_isDirectory_eq_false hPlace)]
    split
    · exact .inl rfl
    · exact .inr rfl
  | lost => exact .inr rfl

/-- A file is written to a free name itself, and never over a directory. -/
theorem of_walk_last (h : Written disk bytes place next) (hName : IsStep name)
    (hWalk : disk.walk .newFile left directory [name] = .ok place) :
    disk.isDirectory (directory ++ [name]) = false ∧
      (disk.entryAt? (directory ++ [name]) = none →
        next = disk.put (directory ++ [name]) (.file bytes)) := by
  have hDirectory := isDirectory_of_walk_cons hWalk
  constructor
  · refine Bool.eq_false_iff.mpr fun hPlace => ?_
    have hEntry := isDirectory_iff.mp hPlace
    rw [walk_entry hDirectory hName rfl hEntry nofun, walk_nil] at hWalk
    cases hWalk
    cases h with
    | onto _ hNot =>
      rw [hPlace] at hNot
      cases hNot
    | lost _ hSink =>
      rw [hEntry] at hSink
      cases hSink
  · intro hVacant
    rw [walk_absent hDirectory hName hVacant] at hWalk
    cases hWalk
    cases h with
    | fresh => rfl

/-- What stands at a name after a write to it is there and no directory. -/
theorem exists_entryAt? (h : Written disk bytes place next) (hName : IsStep name)
    (hWalk : disk.walk .newFile left directory [name] = .ok place) :
    ∃ entry, next.entryAt? (directory ++ [name]) = some entry ∧ entry ≠ .directory := by
  have hFile : Entry.file bytes ≠ .directory := Entry.noConfusion
  obtain ⟨hNoDirectory, hVacant⟩ := h.of_walk_last hName hWalk
  obtain hNew | hOld := h.entryAt?_cases (directory ++ [name])
  · exact ⟨_, hNew, hFile⟩
  · cases hBefore : disk.entryAt? (directory ++ [name]) with
    | none =>
      rw [hVacant hBefore, entryAt?_put _ _ _ _ (concat_ne_nil _ _), if_pos rfl]
      exact ⟨_, rfl, hFile⟩
    | some entry =>
      refine ⟨entry, hOld.trans hBefore, ?_⟩
      rintro rfl
      rw [isDirectory_iff.mpr hBefore] at hNoDirectory
      cases hNoDirectory

/-- On a tree, a write takes the place of no directory and of no link. -/
theorem keepsWays (h : Written disk bytes place next) (hTree : disk.IsTree)
    (hWalk : disk.walk .newFile left directory [name] = .ok place) : KeepsWays disk next := by
  cases h with
  | fresh directory name =>
    obtain ⟨-, -, hVacant⟩ := vacant_of_walk hWalk
    refine .put_file (concat_ne_nil _ _) bytes fun entry hEntry => ?_
    rw [hVacant] at hEntry
    cases hEntry
  | onto location hPlace =>
    have hLocation := ne_nil_of_isDirectory_eq_false hPlace
    have hStart : ∀ path, disk.entryAt? directory ≠ some (.link path) := by
      intro path hLink
      rw [isDirectory_iff.mp (isDirectory_of_walk_cons hWalk)] at hLink
      cases hLink
    have hClosed : ∀ other name, disk.entryAt? (other ++ [name]) ≠ none →
        disk.isDirectory other = true := by
      intro other name hEntry
      obtain ⟨entry, hEntry⟩ := Option.ne_none_iff_exists'.mp hEntry
      exact hTree.isDirectory_parent hEntry
    have hAim : Aim.newFile ≠ .entry := nofun
    have hNoLink := (resolves_of_walk hAim hWalk).not_link hClosed hStart
    refine .put_file hLocation bytes fun entry hEntry hWay => ?_
    cases entry with
    | directory =>
      rw [isDirectory_iff.mpr hEntry] at hPlace
      cases hPlace
    | link path => exact hNoLink path hEntry
    | file | sink | program => exact hWay
  | lost => exact .refl disk

end Written

/-! ### Moving and removing -/

/-- A move that succeeds takes an entry away and puts it where no directory stands. -/
theorem moved_of_moveFile (hSource : disk.locate .entry source = .ok location)
    (hLocation : location ≠ []) (h : disk.moveFile source target = .ok next) :
    ∃ directory name entry, disk.lastStep target = .ok ⟨directory, some name, false⟩ ∧
      disk.entryAt? location = some entry ∧ disk.isDirectory (directory ++ [name]) = false ∧
      next.workingDirectory = disk.workingDirectory ∧
      ∀ other, next.entryAt? other =
        if other = directory ++ [name] then some entry
        else if other = location then none else disk.entryAt? other := by
  rw [moveFile, hSource] at h
  cases hStep : disk.lastStep target with
  | error fault =>
    rw [hStep] at h
    cases h
  | ok last =>
    obtain ⟨directory, name?, slash⟩ := last
    rw [hStep] at h
    simp only [bind, Except.bind] at h
    cases name? with
    | none => cases h
    | some name =>
      cases hEntry : disk.entryAt? location with
      | none =>
        rw [hEntry] at h
        cases h
      | some entry =>
        rw [hEntry] at h
        change (if slash = true then _ else if disk.isDirectory (directory ++ [name]) = true then _
          else _) = _ at h
        cases slash with
        | true => cases h
        | false =>
          rw [if_neg Bool.false_ne_true] at h
          cases hPlace : disk.isDirectory (directory ++ [name]) with
          | true =>
            rw [hPlace] at h
            cases h
          | false =>
            rw [hPlace, if_neg Bool.false_ne_true] at h
            have hMoved : ∀ other, (((disk.remove location).remove (directory ++ [name])).put
                (directory ++ [name]) entry).entryAt? other =
                if other = directory ++ [name] then some entry
                else if other = location then none else disk.entryAt? other := by
              intro other
              rw [entryAt?_put _ _ _ _ (concat_ne_nil _ _),
                entryAt?_remove _ _ _ (concat_ne_nil _ _), entryAt?_remove _ _ _ hLocation]
              split <;> rfl
            refine ⟨directory, name, entry, rfl, rfl, hPlace, ?_⟩
            -- The mode of the entry goes with it, which is seen at no location.
            cases hMode : disk.modes.lookup location with
            | none =>
              simp only [hMode] at h
              cases h
              exact ⟨rfl, hMoved⟩
            | some mode =>
              simp only [hMode] at h
              cases h
              exact ⟨rfl, hMoved⟩

theorem EndsIn.removeFile_eq {names : PathNames} {front : List String}
    (h : EndsIn path names front name) (hSlash : names.endsInSlash = false)
    (hResolves : disk.Resolves maxLinks (disk.origin names) front directory)
    (hDirectory : disk.isDirectory directory = true)
    (hEntry : disk.entryAt? (directory ++ [name]) = some entry) (hFile : entry ≠ .directory) :
    disk.removeFile path = .ok (disk.remove (directory ++ [name])) := by
  simp only [removeFile, h.lastStep_eq hResolves hDirectory, hSlash, bind, Except.bind, hEntry]
  cases entry with
  | directory => exact absurd rfl hFile
  | file | link | sink | program => rfl

end ProvideIndex.Disk
