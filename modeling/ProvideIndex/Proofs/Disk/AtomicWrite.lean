import ProvideIndex.Proofs.Disk.Changes

/-!
# Putting a text at a path

A text is prepared in a file beside its place, the staging file, and moved from there. So nothing
but its place is touched, and its place only when all goes well, with two exceptions: something may
already stand where the staging file is put, and is lost then; and a path may lead over the link that
the text takes the place of, and is cut then.

* `touchesOnly_iff`: only the place of a text is touched exactly where neither of both is so.
* `exists_isWay_of_cutsOwnWay`: only a link or a directory at the end of a path can be cut.
* `entryAt?_of_successive`: of two texts, the second takes the place of the first where both paths
  lead to one place.
-/

namespace ProvideIndex.Disk

/-- The name of the file in which the text for a file is prepared. -/
def stagingName (name : String) : String := "." ++ name ++ ".tmp"

def stagingPath (path name : String) : String := Path.join (stagingDirectory path) (stagingName name)

theorem stagingPath_eq (path name : String) :
    stagingPath path name = Path.join (stagingDirectory path) ("." ++ name ++ ".tmp") := rfl

/-- The disk on which the directories for a path have been made, as far as that went well. -/
def prepared (disk : Disk) (path : String) : Disk := (disk.makeDirectories (stagingDirectory path)).2

/-- Whether the text for a path has been written to its staging file. -/
structure Stages (disk : Disk) (path contents name : String) (staged : Disk) : Prop where
  made : (disk.makeDirectories (stagingDirectory path)).1 = .ok ()
  name_eq : Path.fileName? path = some name
  written : (disk.prepared path).writeText (stagingPath path name) contents = .ok staged

/--
Whether putting a text at a path leaves everything else as it was, apart from new directories: if it
succeeds, the path is a file that holds the text, and if it fails, nothing is new.
-/
@[irreducible] def TouchesOnly (disk : Disk) (path contents : String) : Prop :=
  -- Kept folded: to unfold it at a given disk is to carry out the write.
  match disk.writeAtomic path contents with
  | (.ok (), after) =>
    ∃ location, after.locate .entry path = .ok location ∧
      after.entryAt? location = some (.file contents.toUTF8) ∧
      KeptOutside (some location) disk after
  | (.error _, after) => KeptOutside none disk after

/-- Whether the staging file is put where something stands. -/
def OverwritesStaging (disk : Disk) (path contents : String) : Prop :=
  ∃ name staged location, disk.Stages path contents name staged ∧
    (disk.prepared path).LeadsTo (stagingPath path name) location ∧
    (disk.prepared path).entryAt? location ≠ none

/-- Whether a path leads over the entry to which it leads. -/
def CutsOwnWay (disk : Disk) (path : String) : Prop :=
  ∃ location, (disk.prepared path).LeadsTo path location ∧
    ¬((disk.prepared path).remove location).LeadsTo path location

/--
How putting a text at a path goes: where it ends, and with which disk. The last case is not met on a
tree, where the staging file that was just written can be removed again (`StagedAt.removed`).
-/
inductive WriteCourse (disk : Disk) (path contents : String) : Except FileFault Unit × Disk → Prop
  | unprepared (fault : FileFault)
      (h : ∀ name staged, ¬disk.Stages path contents name staged) :
      WriteCourse disk path contents (.error fault, disk.prepared path)
  | moved (name : String) (staged final : Disk) (h : disk.Stages path contents name staged)
      (hMove : staged.moveFile (stagingPath path name) path = .ok final) :
      WriteCourse disk path contents (.ok (), final)
  | cleaned (name : String) (staged after : Disk) (fault : FileFault)
      (h : disk.Stages path contents name staged)
      (hRemove : staged.removeFile (stagingPath path name) = .ok after) :
      WriteCourse disk path contents (.error fault, after)
  | left (name : String) (staged : Disk) (fault other : FileFault)
      (h : disk.Stages path contents name staged)
      (hRemove : staged.removeFile (stagingPath path name) = .error other) :
      WriteCourse disk path contents (.error fault, staged)

variable {disk staged final : Disk} {path contents name : String} {location : Location}

theorem writeCourse (disk : Disk) (path contents : String) :
    WriteCourse disk path contents (disk.writeAtomic path contents) := by
  cases hMake : disk.makeDirectories (stagingDirectory path) with
  | mk result made =>
    have hPrepared : disk.prepared path = made := congrArg Prod.snd hMake
    rw [writeAtomic, hMake]
    cases result with
    | error fault =>
      rw [← hPrepared]
      refine .unprepared fault fun name staged h => ?_
      have hMade := h.made
      rw [hMake] at hMade
      cases hMade
    | ok =>
      have hOk : (disk.makeDirectories (stagingDirectory path)).1 = .ok () := congrArg Prod.fst hMake
      cases hName : Path.fileName? path with
      | none =>
        dsimp only
        rw [← hPrepared]
        refine .unprepared _ fun name staged h => ?_
        rw [h.name_eq] at hName
        cases hName
      | some name =>
        dsimp only
        rw [← stagingPath_eq]
        cases hWrite : made.writeText (stagingPath path name) contents with
        | error fault =>
          dsimp only
          rw [← hPrepared] at hWrite ⊢
          refine .unprepared fault fun other staged h => ?_
          obtain rfl := Option.some.inj (hName.symm.trans h.name_eq)
          rw [h.written] at hWrite
          cases hWrite
        | ok staged =>
          rw [← hPrepared] at hWrite
          have hStages : disk.Stages path contents name staged := ⟨hOk, hName, hWrite⟩
          dsimp only
          cases hMove : staged.moveFile (stagingPath path name) path with
          | ok final => exact .moved name staged final hStages hMove
          | error fault =>
            dsimp only
            cases hRemove : staged.removeFile (stagingPath path name) with
            | ok after => exact .cleaned name staged after fault hStages hRemove
            | error other => exact .left name staged fault other hStages hRemove

/-! ### The staging file -/

theorem not_mem_of_fileName? (h : Path.fileName? path = some name) : '/' ∉ name.toList := by
  obtain ⟨lead, front, part, idle, hSplit, -, -, rfl, -⟩ := Path.exists_split_of_fileName? h
  rw [String.toList_ofList]
  refine Text.not_mem_of_mem_split (?_ : part ∈ Text.split '/' path.toList)
  rw [hSplit]
  exact List.mem_append_right _ (List.mem_append_right _ List.mem_cons_self)

theorem toList_stagingName (name : String) :
    (stagingName name).toList = '.' :: (name.toList ++ ['.', 't', 'm', 'p']) := by
  rw [stagingName, String.toList_append, String.toList_append]
  rfl

theorem stagingName_ne (name : String) : name ≠ stagingName name := by
  intro h
  have hLength := congrArg List.length (congrArg String.toList h)
  rw [toList_stagingName, List.length_cons, List.length_append] at hLength
  have hTail : ['.', 't', 'm', 'p'].length = 4 := rfl
  omega

/-- The staging file has a name of its own, with no slash behind it. -/
theorem exists_names_stagingPath (h : Path.fileName? path = some name) :
    ∃ front, (PathNames.ofText (stagingPath path name)).names = front ++ [stagingName name] ∧
      (PathNames.ofText (stagingPath path name)).endsInSlash = false := by
  have hSlash : '/' ∉ (stagingName name).toList := by
    rw [toList_stagingName]
    simp [not_mem_of_fileName? h]
  have hEmpty : stagingName name ≠ "" := by
    intro hName
    have hChars := toList_stagingName name
    rw [hName] at hChars
    cases hChars
  have hRelative : Path.isAbsolute (stagingName name) = false := by
    refine Bool.eq_false_iff.mpr fun hAbsolute => hSlash ?_
    exact List.mem_of_mem_head? (Path.isAbsolute_iff.mp hAbsolute)
  have hEnd : (PathNames.ofText (stagingName name)).endsInSlash = false := by
    refine Bool.eq_false_iff.mpr fun hLast => hSlash ?_
    exact List.mem_of_getLast? (endsInSlash_iff.mp hLast)
  refine ⟨(PathNames.ofText (stagingDirectory path)).names, ?_, ?_⟩
  · rw [stagingPath, ofText_names_join hRelative, ofText_names_of_name hSlash hEmpty]
  · rw [stagingPath, endsInSlash_join hRelative hEmpty, hEnd]

/-- Where the staging file stands that has been written, and what it took the place of. -/
structure StagedAt (disk : Disk) (path contents name : String) (staged : Disk)
    (location : Location) : Prop where
  leadsTo : (disk.prepared path).LeadsTo (stagingPath path name) location
  named : ∃ directory, location = directory ++ [stagingName name]
  noDirectory : (disk.prepared path).isDirectory location = false
  vacant : (disk.prepared path).entryAt? location = none →
    staged = (disk.prepared path).put location (.file contents.toUTF8)
  start : staged.workingDirectory = (disk.prepared path).workingDirectory
  located : staged.locate .entry (stagingPath path name) = .ok location
  removed : staged.removeFile (stagingPath path name) = .ok (staged.remove location)

theorem StagedAt.nonempty (h : StagedAt disk path contents name staged location) :
    location ≠ [] := by
  obtain ⟨directory, rfl⟩ := h.named
  exact concat_ne_nil directory _

theorem isStep_stagingName (hShort : ¬maxNameLength < (stagingName name).utf8ByteSize) :
    IsStep (stagingName name) := by
  have hLong : 4 < (stagingName name).toList.length := by
    have hTail : ['.', 't', 'm', 'p'].length = 4 := rfl
    rw [toList_stagingName, List.length_cons, List.length_append]
    omega
  have hNe (other : String) (hOther : other.toList.length ≤ 4) : stagingName name ≠ other := by
    intro hName
    rw [hName] at hLong
    omega
  exact ⟨hNe "" (by decide), hNe "." (by decide), hNe ".." (by decide), Nat.not_lt.mp hShort⟩

/-- A staging file that has been written stands where its path leads, and is found there. -/
theorem Stages.exists_stagedAt (hTree : disk.IsTree) (h : disk.Stages path contents name staged) :
    ∃ location, StagedAt disk path contents name staged location := by
  have hPrepared : (disk.prepared path).IsTree := (grown_makeDirectories disk _).isTree hTree
  obtain ⟨place, hPlace, hWritten⟩ := written_of_writeText h.written
  obtain ⟨front, hNames, hSlash⟩ := exists_names_stagingPath h.name_eq
  cases hPath : pathNames (stagingPath path name) with
  | error fault =>
    rw [Disk.place, hPath] at hPlace
    cases hPlace
  | ok names =>
    rw [← pathNames_eq hPath] at hNames hSlash
    obtain ⟨directory, left, hResolves, hWalk⟩ :=
      exists_resolves_of_place hPath hNames hSlash hPlace
    have hDirectory := isDirectory_of_walk_cons hWalk
    have hStep := isStep_stagingName (not_long_of_walk_cons hWalk)
    have hEnd : EndsIn (stagingPath path name) names front (stagingName name) :=
      ⟨hPath, hNames, hStep⟩
    obtain ⟨hNoDirectory, hVacant⟩ := hWritten.of_walk_last hStep hWalk
    have hKeeps := hWritten.keepsWays hPrepared hWalk
    have hLeads : (disk.prepared path).LeadsTo (stagingPath path name)
        (directory ++ [stagingName name]) :=
      hEnd.leadsTo_iff.mpr ⟨directory, hResolves, hDirectory, rfl⟩
    obtain ⟨entry, hEntry, hFile⟩ := hWritten.exists_entryAt? hStep hWalk
    have hLater := hLeads.mono hKeeps
    obtain ⟨other, hOther, hOtherDirectory, hSame⟩ := hEnd.leadsTo_iff.mp hLater
    obtain ⟨rfl, -⟩ := List.append_inj' hSame rfl
    refine ⟨directory ++ [stagingName name], hLeads, ⟨directory, rfl⟩, hNoDirectory, hVacant,
      hWritten.workingDirectory_eq, ?_, ?_⟩
    · refine (hEnd.locate_entry_iff hSlash).mpr ⟨hLater, ?_⟩
      rw [hEntry]
      exact Option.some_ne_none entry
    · exact hEnd.removeFile_eq hSlash hOther hOtherDirectory hEntry hFile

/-! ### The move -/

/-- What has been done by a move of the staging file that succeeded. -/
structure MovedTo (path name : String) (staged final : Disk) (source location : Location) :
    Prop where
  ends : ∃ names front, EndsIn path names front name ∧ names.endsInSlash = false
  leadsTo : staged.LeadsTo path location
  apart : location ≠ source
  start : final.workingDirectory = staged.workingDirectory
  noDirectory : staged.isDirectory location = false
  entryAt?_eq : ∀ other, final.entryAt? other =
    if other = location then staged.entryAt? source
    else if other = source then none else staged.entryAt? other

theorem exists_movedTo {source : Location} (hName : Path.fileName? path = some name)
    (hStaged : StagedAt disk path contents name staged source)
    (hMove : staged.moveFile (stagingPath path name) path = .ok final) :
    ∃ location, MovedTo path name staged final source location := by
  obtain ⟨place, hSource⟩ := hStaged.named
  obtain ⟨directory, last, entry, hStep, hEntry, hNoDirectory, hStart, hFinal⟩ :=
    moved_of_moveFile hStaged.located hStaged.nonempty hMove
  obtain ⟨names, front, hEnd, hResolves, hDirectory, hSlash⟩ := exists_endsIn_of_lastStep hStep
  obtain rfl := hEnd.eq_of_fileName? hName
  refine ⟨directory ++ [last], ⟨names, front, hEnd, hSlash.symm⟩, ?_, ?_, hStart, hNoDirectory, ?_⟩
  · exact hEnd.leadsTo_iff.mpr ⟨directory, hResolves, hDirectory, rfl⟩
  · intro hSame
    rw [hSource] at hSame
    exact stagingName_ne last (List.singleton_inj.mp (List.append_inj' hSame rfl).2)
  · rw [hEntry]
    exact hFinal

section Vacant

variable {source : Location} (hStaged : StagedAt disk path contents name staged source)
  (hVacant : (disk.prepared path).entryAt? source = none)
include hStaged hVacant

theorem StagedAt.entryAt?_eq (other : Location) :
    staged.entryAt? other =
      if other = source then some (.file contents.toUTF8)
      else (disk.prepared path).entryAt? other := by
  obtain ⟨directory, rfl⟩ := hStaged.named
  rw [hStaged.vacant hVacant, entryAt?_put _ _ _ _ (concat_ne_nil _ _)]

theorem StagedAt.entryAt?_of_moved (hMoved : MovedTo path name staged final source location)
    (other : Location) :
    final.entryAt? other =
      if other = location then some (.file contents.toUTF8)
      else (disk.prepared path).entryAt? other := by
  rw [hMoved.entryAt?_eq, hStaged.entryAt?_eq hVacant, if_pos rfl]
  split
  · rfl
  · split
    · rename_i hOther
      rw [hOther, hVacant]
    · rename_i hOther
      rw [hStaged.entryAt?_eq hVacant, if_neg hOther]

theorem StagedAt.keptOutside_of_moved (hMoved : MovedTo path name staged final source location) :
    KeptOutside (some location) disk final := by
  refine (grown_makeDirectories disk (stagingDirectory path)).keptOutside.trans ⟨?_, ?_⟩
  · intro other entry hOther hEntry
    have hNe : other ≠ location := fun hSame => hOther (hSame ▸ rfl)
    rw [hStaged.entryAt?_of_moved hVacant hMoved, if_neg hNe]
    exact hEntry
  · intro other entry hOther hEntry
    have hNe : other ≠ location := fun hSame => hOther (hSame ▸ rfl)
    rw [hStaged.entryAt?_of_moved hVacant hMoved, if_neg hNe] at hEntry
    exact .inl hEntry

theorem StagedAt.keepsWays : KeepsWays staged (disk.prepared path) := by
  obtain ⟨directory, rfl⟩ := hStaged.named
  rw [hStaged.vacant hVacant]
  exact .of_put_file (concat_ne_nil _ _) _

theorem StagedAt.leadsTo_iff_of_moved (hMoved : MovedTo path name staged final source location)
    (other : Location) :
    final.LeadsTo path other ↔ ((disk.prepared path).remove location).LeadsTo path other := by
  have hNonempty := ne_nil_of_isDirectory_eq_false hMoved.noDirectory
  have hStart : final.workingDirectory = (disk.prepared path).workingDirectory :=
    hMoved.start.trans hStaged.start
  -- Both disks have the same entries but at the place, where neither has one that leads on.
  have hForth : KeepsWays final ((disk.prepared path).remove location) := by
    refine ⟨(workingDirectory_remove _ location).trans hStart.symm, ?_⟩
    intro place entry hWay hEntry
    rw [hStaged.entryAt?_of_moved hVacant hMoved] at hEntry
    rw [entryAt?_remove (disk.prepared path) location place hNonempty]
    by_cases hPlace : place = location
    · rw [if_pos hPlace] at hEntry
      obtain rfl := Option.some.inj hEntry
      exact hWay.elim
    · rw [if_neg hPlace] at hEntry ⊢
      exact hEntry
  have hBack : KeepsWays ((disk.prepared path).remove location) final := by
    refine ⟨hStart.trans (workingDirectory_remove _ location).symm, ?_⟩
    intro place entry hWay hEntry
    rw [entryAt?_remove (disk.prepared path) location place hNonempty] at hEntry
    rw [hStaged.entryAt?_of_moved hVacant hMoved]
    by_cases hPlace : place = location
    · rw [if_pos hPlace] at hEntry
      exact nomatch hEntry
    · rw [if_neg hPlace] at hEntry ⊢
      exact hEntry
  exact ⟨LeadsTo.mono hForth, LeadsTo.mono hBack⟩

/-- A text that has been moved to its place is found there unless its path has been cut. -/
theorem StagedAt.exists_located_iff (hMoved : MovedTo path name staged final source location) :
    (∃ place, final.locate .entry path = .ok place ∧
      final.entryAt? place = some (.file contents.toUTF8) ∧ KeptOutside (some place) disk final) ↔
      ¬disk.CutsOwnWay path := by
  obtain ⟨names, front, hEnd, hSlash⟩ := hMoved.ends
  have hNonempty := ne_nil_of_isDirectory_eq_false hMoved.noDirectory
  have hPlace : final.entryAt? location = some (.file contents.toUTF8) := by
    rw [hStaged.entryAt?_of_moved hVacant hMoved, if_pos rfl]
  have hBefore : (disk.prepared path).LeadsTo path location :=
    hMoved.leadsTo.mono (hStaged.keepsWays hVacant)
  constructor
  · rintro ⟨place, hLocated, -, -⟩ ⟨other, hOther, hCut⟩
    obtain rfl := hBefore.unique hOther
    have hAfter := (hStaged.leadsTo_iff_of_moved hVacant hMoved place).mp
      ((hEnd.locate_entry_iff hSlash).mp hLocated).1
    obtain rfl : place = location := (hAfter.mono (.of_remove hNonempty)).unique hBefore
    exact hCut hAfter
  · intro hUncut
    have hAfter : final.LeadsTo path location := by
      refine (hStaged.leadsTo_iff_of_moved hVacant hMoved location).mpr ?_
      exact Classical.byContradiction fun hCut => hUncut ⟨location, hBefore, hCut⟩
    refine ⟨location, (hEnd.locate_entry_iff hSlash).mpr ⟨hAfter, ?_⟩, hPlace,
      hStaged.keptOutside_of_moved hVacant hMoved⟩
    rw [hPlace]
    exact Option.some_ne_none _

/-- A staging file that is removed again leaves only the directories behind. -/
theorem StagedAt.keptOutside_of_removed : KeptOutside none disk (staged.remove source) := by
  have hNonempty := hStaged.nonempty
  refine (grown_makeDirectories disk (stagingDirectory path)).keptOutside.trans ⟨?_, ?_⟩
  · intro other entry _ hEntry
    have hOther : other ≠ source := by
      rintro rfl
      have hNone : some entry = none := hEntry.symm.trans hVacant
      cases hNone
    rw [entryAt?_remove _ _ _ hNonempty, if_neg hOther, hStaged.entryAt?_eq hVacant, if_neg hOther]
    exact hEntry
  · intro other entry _ hEntry
    rw [entryAt?_remove _ _ _ hNonempty] at hEntry
    by_cases hOther : other = source
    · rw [if_pos hOther] at hEntry
      cases hEntry
    · rw [if_neg hOther, hStaged.entryAt?_eq hVacant, if_neg hOther] at hEntry
      exact .inl hEntry

theorem StagedAt.not_overwritesStaging (h : disk.Stages path contents name staged) :
    ¬disk.OverwritesStaging path contents := by
  rintro ⟨other, _, location, hOther, hLeads, hOccupied⟩
  obtain rfl := Option.some.inj (h.name_eq.symm.trans hOther.name_eq)
  obtain rfl := hStaged.leadsTo.unique hLeads
  exact hOccupied hVacant

end Vacant

section Occupied

variable {source : Location} (hStaged : StagedAt disk path contents name staged source)
  (hOccupied : (disk.prepared path).entryAt? source ≠ none)
include hStaged hOccupied

/-- What stands where the staging file is put has stood there before. -/
theorem StagedAt.exists_entryAt? : ∃ entry, disk.entryAt? source = some entry := by
  obtain ⟨entry, hEntry⟩ := Option.ne_none_iff_exists'.mp hOccupied
  have hKept := (grown_makeDirectories disk (stagingDirectory path)).keptOutside
  rcases hKept.fresh source entry nofun hEntry with hOld | rfl
  · exact ⟨entry, hOld⟩
  · have hNot := hStaged.noDirectory
    rw [isDirectory_iff.mpr hEntry] at hNot
    cases hNot

theorem StagedAt.not_keptOutside {place : Option Location} {after : Disk}
    (hPlace : place ≠ some source) (hGone : after.entryAt? source = none) :
    ¬KeptOutside place disk after := by
  intro hKept
  obtain ⟨entry, hEntry⟩ := hStaged.exists_entryAt? hOccupied
  have hAfter := hKept.kept source entry hPlace hEntry
  rw [hGone] at hAfter
  cases hAfter

/-- The move takes away what stood where the staging file was put. -/
theorem StagedAt.not_located (hMoved : MovedTo path name staged final source location) :
    ¬∃ place, final.locate .entry path = .ok place ∧
      final.entryAt? place = some (.file contents.toUTF8) ∧ KeptOutside (some place) disk final := by
  rintro ⟨place, hLocated, -, hKept⟩
  obtain ⟨names, front, hEnd, hSlash⟩ := hMoved.ends
  obtain ⟨hLeads, -⟩ := (hEnd.locate_entry_iff hSlash).mp hLocated
  obtain ⟨directory, -, -, rfl⟩ := hEnd.leadsTo_iff.mp hLeads
  obtain ⟨other, rfl⟩ := hStaged.named
  refine hStaged.not_keptOutside hOccupied ?_ ?_ hKept
  · intro hSame
    have hLast := (List.append_inj' (Option.some.inj hSame) rfl).2
    exact stagingName_ne name (List.singleton_inj.mp hLast)
  · rw [hMoved.entryAt?_eq, if_neg hMoved.apart.symm, if_pos rfl]

end Occupied

/-! ### Where neither happens -/

/-- A path is cut only by what takes the place of a link or of a directory. -/
theorem exists_isWay_of_cutsOwnWay (h : disk.CutsOwnWay path) :
    ∃ location entry, (disk.prepared path).LeadsTo path location ∧
      (disk.prepared path).entryAt? location = some entry ∧ IsWay entry := by
  obtain ⟨location, hLeads, hCut⟩ := h
  obtain ⟨directory, last, rfl⟩ := hLeads.exists_concat
  by_cases hWay : ∃ entry,
      (disk.prepared path).entryAt? (directory ++ [last]) = some entry ∧ IsWay entry
  · obtain ⟨entry, hEntry, hWay⟩ := hWay
    exact ⟨_, entry, hLeads, hEntry, hWay⟩
  · have hKeeps := KeepsWays.remove (concat_ne_nil directory last) fun entry hEntry hIs =>
      hWay ⟨entry, hEntry, hIs⟩
    exact absurd (hLeads.mono hKeeps) hCut

/-- A staging file that is put where nothing is found overwrites nothing. -/
theorem not_overwritesStaging_of_locate (hName : Path.fileName? path = some name)
    (hFree : ((disk.prepared path).locate .entry (stagingPath path name)).isOk = false) :
    ¬disk.OverwritesStaging path contents := by
  rintro ⟨other, staged, location, hStages, hLeads, hOccupied⟩
  obtain rfl := Option.some.inj (hName.symm.trans hStages.name_eq)
  obtain ⟨front, -, hSlash⟩ := exists_names_stagingPath hName
  rw [hLeads.locate_entry hOccupied hSlash] at hFree
  cases hFree

/-- A path at which nothing is found is not cut. -/
theorem not_cutsOwnWay_of_locate (hSlash : (PathNames.ofText path).endsInSlash = false)
    (hFree : ((disk.prepared path).locate .entry path).isOk = false) : ¬disk.CutsOwnWay path := by
  intro hCut
  obtain ⟨location, entry, hLeads, hEntry, -⟩ := exists_isWay_of_cutsOwnWay hCut
  have hOccupied : (disk.prepared path).entryAt? location ≠ none := by
    rw [hEntry]
    exact Option.some_ne_none entry
  rw [hLeads.locate_entry hOccupied hSlash] at hFree
  cases hFree

/-! ### What is touched -/

/--
On a tree, putting a text at a path touches nothing but the place of the path, unless something
stands where the text is prepared or the path is cut by the text that it is given.
-/
theorem touchesOnly_iff (hTree : disk.IsTree) (path contents : String) :
    disk.TouchesOnly path contents ↔
      ¬disk.OverwritesStaging path contents ∧
        ((disk.writeAtomic path contents).1 = .ok () → ¬disk.CutsOwnWay path) := by
  have hCourse := writeCourse disk path contents
  rw [TouchesOnly]
  generalize disk.writeAtomic path contents = result at hCourse ⊢
  cases hCourse with
  | unprepared fault h =>
    refine iff_of_true (grown_makeDirectories disk _).keptOutside ⟨?_, nofun⟩
    rintro ⟨name, staged, location, hStages, -⟩
    exact h name staged hStages
  | moved name staged final h hMove =>
    obtain ⟨source, hStaged⟩ := h.exists_stagedAt hTree
    obtain ⟨location, hMoved⟩ := exists_movedTo h.name_eq hStaged hMove
    by_cases hVacant : (disk.prepared path).entryAt? source = none
    · refine (hStaged.exists_located_iff hVacant hMoved).trans ⟨?_, fun hBoth => hBoth.2 rfl⟩
      exact fun hUncut => ⟨hStaged.not_overwritesStaging hVacant h, fun _ => hUncut⟩
    · refine iff_of_false (hStaged.not_located hVacant hMoved) fun hBoth => ?_
      exact hBoth.1 ⟨name, staged, source, h, hStaged.leadsTo, hVacant⟩
  | cleaned name staged after fault h hRemove =>
    obtain ⟨source, hStaged⟩ := h.exists_stagedAt hTree
    rw [hStaged.removed] at hRemove
    obtain rfl := Except.ok.inj hRemove
    by_cases hVacant : (disk.prepared path).entryAt? source = none
    · exact iff_of_true (hStaged.keptOutside_of_removed hVacant)
        ⟨hStaged.not_overwritesStaging hVacant h, nofun⟩
    · have hGone : (staged.remove source).entryAt? source = none := by
        rw [entryAt?_remove _ _ _ hStaged.nonempty, if_pos rfl]
      refine iff_of_false (hStaged.not_keptOutside hVacant nofun hGone) fun hBoth => ?_
      exact hBoth.1 ⟨name, staged, source, h, hStaged.leadsTo, hVacant⟩
  | left name staged fault other h hRemove =>
    obtain ⟨source, hStaged⟩ := h.exists_stagedAt hTree
    rw [hStaged.removed] at hRemove
    cases hRemove

/-- A disk with a file below a directory, and a link to that directory. -/
def outputDisk : Disk where
  entries :=
    [(["gen"], .directory), (["gen", "out.go"], .file "old".toUTF8), (["latest"], .link "gen")]
  workingDirectory := []

/--
The text comes to a directory that has to be made behind the link; the file that was there keeps its
text.
-/
theorem touchesOnly_outputDisk :
    outputDisk.IsTree ∧
      ¬outputDisk.OverwritesStaging "latest/new/out.go" "new" ∧
      ¬outputDisk.CutsOwnWay "latest/new/out.go" ∧
      outputDisk.TouchesOnly "latest/new/out.go" "new" ∧
      (outputDisk.writeAtomic "latest/new/out.go" "new").1.isOk = true ∧
      ((outputDisk.writeAtomic "latest/new/out.go" "new").2.readText "gen/new/out.go").toOption =
        some "new" ∧
      ((outputDisk.writeAtomic "latest/new/out.go" "new").2.readText "gen/out.go").toOption =
        some "old" := by
  have hTree : outputDisk.IsTree :=
    ⟨by decide +kernel, by decide +kernel, by decide +kernel⟩
  have hName : Path.fileName? "latest/new/out.go" = some "out.go" := by decide +kernel
  have hFree : ((outputDisk.prepared "latest/new/out.go").locate .entry
      (stagingPath "latest/new/out.go" "out.go")).isOk = false := by decide +kernel
  have hStaging : ¬outputDisk.OverwritesStaging "latest/new/out.go" "new" :=
    not_overwritesStaging_of_locate hName hFree
  have hUncut : ¬outputDisk.CutsOwnWay "latest/new/out.go" :=
    not_cutsOwnWay_of_locate (by decide +kernel) (by decide +kernel)
  refine ⟨hTree, hStaging, hUncut, ?_, by decide +kernel, by decide +kernel, by decide +kernel⟩
  exact (touchesOnly_iff hTree "latest/new/out.go" "new").mpr ⟨hStaging, fun _ => hUncut⟩

/-- A disk on which the staging file for a path is a link to the path. -/
def linkedDisk : Disk where
  entries := [([".out.go.tmp"], .link "out.go"), (["out.go"], .file "old".toUTF8)]
  workingDirectory := []

/--
The text is written through the link, and then the link is moved to the place of the text: what is
left is a link to itself.
-/
theorem linkedStaging_loses_text : ¬linkedDisk.TouchesOnly "out.go" "new" := by
  have hOk : (linkedDisk.writeAtomic "out.go" "new").1.isOk = true := by decide +kernel
  have hLocated : ((linkedDisk.writeAtomic "out.go" "new").2.locate .entry "out.go").toOption =
      some ["out.go"] := by decide +kernel
  have hLink : (((linkedDisk.writeAtomic "out.go" "new").2.entryAt? ["out.go"]).bind
      Entry.contents?).isNone = true := by decide +kernel
  rw [TouchesOnly]
  generalize linkedDisk.writeAtomic "out.go" "new" = result at hOk hLocated hLink ⊢
  obtain ⟨result, after⟩ := result
  cases result with
  | error fault => cases hOk
  | ok =>
    rintro ⟨location, hLocation, hFile, -⟩
    rw [hLocation] at hLocated
    obtain rfl := Option.some.inj hLocated
    rw [hFile] at hLink
    cases hLink

/-! ### Two texts one after the other -/

section Successive

variable {middle : Disk} {other later : String}

/--
Of two texts that are put at paths one after the other, the second is found at its path, and at the
place of the first is the first, unless both paths lead to one place. How the paths are spelled does
not matter.
-/
theorem entryAt?_of_successive (hFirst : disk.writeAtomic path contents = (.ok (), middle))
    (hSecond : middle.writeAtomic other later = (.ok (), final))
    (hOnly : disk.TouchesOnly path contents) (hLater : middle.TouchesOnly other later) :
    ∃ place second, middle.locate .entry path = .ok place ∧
      final.locate .entry other = .ok second ∧
      final.entryAt? second = some (.file later.toUTF8) ∧
      final.entryAt? place =
        some (.file (if place = second then later else contents).toUTF8) := by
  rw [TouchesOnly, hFirst] at hOnly
  rw [TouchesOnly, hSecond] at hLater
  obtain ⟨place, hPlace, hContents, -⟩ := hOnly
  obtain ⟨second, hSecondPlace, hLaterContents, hKept⟩ := hLater
  refine ⟨place, second, hPlace, hSecondPlace, hLaterContents, ?_⟩
  by_cases hSame : place = second
  · rw [if_pos hSame, hSame]
    exact hLaterContents
  · rw [if_neg hSame]
    exact hKept.kept place _ (fun hSome => hSame (Option.some.inj hSome).symm) hContents

end Successive

end ProvideIndex.Disk
