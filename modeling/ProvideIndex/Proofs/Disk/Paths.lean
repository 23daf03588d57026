import ProvideIndex.Disk.Files
import ProvideIndex.Proofs.Disk.Resolution
import ProvideIndex.Proofs.Path.Resolved

/-!
# Where a path leads

A path that ends in a name leads to that name in a directory, whether the directory holds it or not.
What is found at the end of such a path is decided by the entry there alone.

* `locate_target_iff`: the location that a path comes to.
* `exists_endsIn_of_lastStep` and `EndsIn.lastStep_eq`: the last step of a path is a name exactly if
  the path leads there.
* `place_of_resolves` and `exists_resolves_of_place`: what is found at the end of a path.
-/

namespace ProvideIndex.Disk

variable {disk other : Disk} {aim : Aim} {directory : Location} {name last path : String}
  {rest front : List String} {place : Place}

/-- Whether a path comes to a location when all links are replaced. -/
def ComesTo (disk : Disk) (path : String) (location : Location) : Prop :=
  ∃ names, pathNames path = .ok names ∧
    disk.Resolves maxLinks (disk.origin names) names.steps location

theorem walkFrom_eq_ok {names : PathNames} :
    disk.walkFrom aim names rest = .ok place ↔
      disk.walk aim maxLinks (disk.origin names) rest = .ok place := by
  rw [walkFrom]
  cases disk.walk aim maxLinks (disk.origin names) rest <;> simp

theorem place_eq_walkFrom {names : PathNames} (h : pathNames path = .ok names) :
    disk.place aim path = disk.walkFrom aim names names.steps := by
  rw [place, h]
  rfl

theorem locate_eq_ok {location : Location} :
    disk.locate aim path = .ok location ↔ disk.place aim path = .ok (.present location) := by
  rw [locate]
  cases disk.place aim path with
  | error fault => simp [bind, Except.bind]
  | ok place =>
    cases place with
    | absent => simp [bind, Except.bind, throw, throwThe, MonadExceptOf.throw]
    | present other => simp [bind, Except.bind, pure, Except.pure]

theorem locate_target_iff {location : Location} :
    disk.locate .target path = .ok location ↔ disk.ComesTo path location := by
  rw [locate_eq_ok]
  constructor
  · intro h
    cases hPath : pathNames path with
    | error fault =>
      rw [place, hPath] at h
      cases h
    | ok names =>
      rw [place_eq_walkFrom hPath, walkFrom_eq_ok] at h
      exact ⟨names, hPath, walk_target_iff.mp h⟩
  · rintro ⟨names, hPath, hResolves⟩
    rw [place_eq_walkFrom hPath, walkFrom_eq_ok]
    exact walk_target_iff.mpr hResolves

theorem exists_locate_entry {location : Location} (h : disk.ComesTo path location) :
    ∃ itself, disk.locate .entry path = .ok itself := by
  obtain ⟨names, hPath, hResolves⟩ := h
  obtain ⟨itself, hWalk⟩ := hResolves.exists_walk_entry
  refine ⟨itself, ?_⟩
  rw [locate_eq_ok, place_eq_walkFrom hPath, walkFrom_eq_ok]
  exact hWalk

theorem isDirectoryAt_iff :
    disk.isDirectoryAt path = true ↔
      ∃ location, disk.ComesTo path location ∧ disk.isDirectory location = true := by
  rw [isDirectoryAt]
  cases h : disk.locate .target path with
  | error fault =>
    refine iff_of_false Bool.false_ne_true ?_
    rintro ⟨location, hComes, -⟩
    rw [locate_target_iff.mpr hComes] at h
    cases h
  | ok location =>
    refine ⟨fun hDirectory => ⟨location, locate_target_iff.mp h, hDirectory⟩, ?_⟩
    rintro ⟨other, hComes, hDirectory⟩
    rw [locate_target_iff.mpr hComes] at h
    cases h
    exact hDirectory

/-! ### Paths that end in a name -/

/-- The last step of a path, where the steps before it lead to a place. -/
def endsAt (disk : Disk) (last : String) (slash : Bool) : Place → Except FileFault LastStep
  | .absent _ _ => .error (.system .notFound)
  | .present directory =>
    if !disk.isDirectory directory then .error (.system .notDirectory)
    else if last == "." || last == ".." then .ok ⟨directory, none, slash⟩
    else if maxNameLength < last.utf8ByteSize then .error (.system .nameTooLong)
    else .ok ⟨directory, some last, slash⟩

theorem lastStep_concat {names : PathNames} (hPath : pathNames path = .ok names)
    (hFront : names.names = front ++ [last]) :
    disk.lastStep path =
      (disk.walkFrom .target names front).bind (disk.endsAt last names.endsInSlash) := by
  simp only [lastStep, hPath, bind, Except.bind, hFront, List.getLast?_concat, List.dropLast_concat]
  cases disk.walkFrom .target names front with
  | error fault => rfl
  | ok place => cases place <;> rfl

theorem endsAt_eq_some {slash other : Bool}
    (h : disk.endsAt name slash place = .ok ⟨directory, some last, other⟩) (hName : name ≠ "") :
    place = .present directory ∧ disk.isDirectory directory = true ∧ name = last ∧ IsStep last ∧
      other = slash := by
  cases place with
  | absent => cases h
  | present location =>
    rw [endsAt] at h
    by_cases hDirectory : disk.isDirectory location = true
    · rw [hDirectory, if_neg (by decide)] at h
      by_cases hDots : (name == "." || name == "..") = true
      · rw [if_pos hDots] at h
        cases h
      · by_cases hLong : maxNameLength < name.utf8ByteSize
        · rw [if_neg hDots, if_pos hLong] at h
          cases h
        · rw [if_neg hDots, if_neg hLong] at h
          rw [Bool.or_eq_true, beq_iff_eq, beq_iff_eq, not_or] at hDots
          cases h
          exact ⟨rfl, hDirectory, rfl, ⟨hName, hDots.1, hDots.2, Nat.le_of_not_lt hLong⟩, rfl⟩
    · rw [Bool.not_eq_true] at hDirectory
      rw [hDirectory] at h
      cases h

theorem nonempty_of_mem_names {path : String} (h : name ∈ (PathNames.ofText path).names) :
    name ≠ "" := by
  obtain ⟨chars, -, hChars⟩ := List.mem_filterMap.mp h
  cases chars with
  | nil => cases hChars
  | cons c chars =>
    obtain rfl := Option.some.inj hChars
    exact fun hEmpty => nomatch String.ofList_eq_empty_iff.mp hEmpty

theorem pathNames_eq {names : PathNames} (h : pathNames path = .ok names) :
    names = PathNames.ofText path := by
  rw [pathNames] at h
  split at h
  · cases h
  · split at h
    · cases h
    · split at h
      · cases h
      · exact (Except.ok.inj h).symm

theorem not_mem_of_mem_names {path : String} (h : name ∈ (PathNames.ofText path).names) :
    '/' ∉ name.toList := by
  obtain ⟨chars, hMem, hChars⟩ := List.mem_filterMap.mp h
  split at hChars
  · cases hChars
  · cases hChars
    rw [String.toList_ofList]
    exact Text.not_mem_of_mem_split hMem

/-- Whether a path can be passed on and ends in a name behind other steps. -/
structure EndsIn (path : String) (names : PathNames) (front : List String) (last : String) :
    Prop where
  passed : pathNames path = .ok names
  names_eq : names.names = front ++ [last]
  isStep : IsStep last

/-- Whether a path leads to a name in a directory, which need not hold that name. -/
def LeadsTo (disk : Disk) (path : String) (location : Location) : Prop :=
  ∃ names front last directory, EndsIn path names front last ∧
    disk.Resolves maxLinks (disk.origin names) front directory ∧
    disk.isDirectory directory = true ∧ location = directory ++ [last]

theorem LeadsTo.exists_concat {location : Location} (h : disk.LeadsTo path location) :
    ∃ directory last, location = directory ++ [last] := by
  obtain ⟨names, front, last, directory, -, -, -, rfl⟩ := h
  exact ⟨directory, last, rfl⟩

theorem LeadsTo.mono {location : Location} (hKeeps : KeepsWays disk other)
    (h : disk.LeadsTo path location) : other.LeadsTo path location := by
  obtain ⟨names, front, last, directory, hEnd, hResolves, hDirectory, hLocation⟩ := h
  have hOrigin : other.origin names = disk.origin names := by rw [origin, origin, hKeeps.start]
  refine ⟨names, front, last, directory, hEnd, ?_, hKeeps.isDirectory hDirectory, hLocation⟩
  rw [hOrigin]
  exact hResolves.mono hKeeps hDirectory

namespace EndsIn

variable {steps : PathNames} (h : EndsIn path steps front last)
include h

theorem not_mem : '/' ∉ last.toList := by
  refine not_mem_of_mem_names (?_ : last ∈ (PathNames.ofText path).names)
  rw [← pathNames_eq h.passed, h.names_eq]
  exact List.mem_append_right _ (List.mem_singleton_self last)

theorem leadsTo_iff {location : Location} :
    disk.LeadsTo path location ↔
      ∃ directory, disk.Resolves maxLinks (disk.origin steps) front directory ∧
        disk.isDirectory directory = true ∧ location = directory ++ [last] := by
  constructor
  · rintro ⟨names, others, name, directory, hEnd, hResolves, hDirectory, rfl⟩
    obtain rfl : steps = names := Except.ok.inj (h.passed.symm.trans hEnd.passed)
    obtain ⟨rfl, hLast⟩ := List.append_inj' (h.names_eq.symm.trans hEnd.names_eq) rfl
    obtain rfl : last = name := List.singleton_inj.mp hLast
    exact ⟨directory, hResolves, hDirectory, rfl⟩
  · rintro ⟨directory, hResolves, hDirectory, rfl⟩
    exact ⟨steps, front, last, directory, h, hResolves, hDirectory, rfl⟩

theorem lastStep_eq (hResolves : disk.Resolves maxLinks (disk.origin steps) front directory)
    (hDirectory : disk.isDirectory directory = true) :
    disk.lastStep path = .ok ⟨directory, some last, steps.endsInSlash⟩ := by
  have hWalk := walk_target_iff.mpr hResolves
  have hDots : ¬(last == "." || last == "..") = true := by
    rw [Bool.or_eq_true, beq_iff_eq, beq_iff_eq, not_or]
    exact ⟨h.isStep.notDot, h.isStep.notDots⟩
  rw [lastStep_concat h.passed h.names_eq, walkFrom, hWalk]
  simp only [Except.bind, endsAt, hDirectory, if_neg hDots, if_neg h.isStep.not_long, Bool.not_true,
    if_neg Bool.false_ne_true]

end EndsIn

section Last

variable {steps : PathNames} (hPath : pathNames path = .ok steps)
  (hNames : steps.names = front ++ [last]) (hSlash : steps.endsInSlash = false)
include hPath hNames hSlash

theorem place_of_resolves (hLast : last ≠ "")
    (hResolves : disk.Resolves maxLinks (disk.origin steps) front directory)
    (h : ∀ left, disk.walk aim left directory [last] = .ok place) :
    disk.place aim path = .ok place := by
  obtain ⟨left, hWalk⟩ := hResolves.exists_walk_eq (AimWaits.of_ne hLast)
  rw [place_eq_walkFrom hPath, walkFrom_eq_ok, PathNames.steps, hSlash, if_neg Bool.false_ne_true,
    hNames, hWalk]
  exact h left

theorem exists_resolves_of_place (h : disk.place aim path = .ok place) :
    ∃ directory left, disk.Resolves maxLinks (disk.origin steps) front directory ∧
      disk.walk aim left directory [last] = .ok place := by
  rw [place_eq_walkFrom hPath, walkFrom_eq_ok, PathNames.steps, hSlash, if_neg Bool.false_ne_true,
    hNames] at h
  exact exists_resolves_of_walk rfl (.inl (List.cons_ne_nil _ _)) h

end Last

/-- The last step of a path is a name only if the path leads there. -/
theorem exists_endsIn_of_lastStep {slash : Bool}
    (h : disk.lastStep path = .ok ⟨directory, some last, slash⟩) :
    ∃ names front, EndsIn path names front last ∧
      disk.Resolves maxLinks (disk.origin names) front directory ∧
      disk.isDirectory directory = true ∧ slash = names.endsInSlash := by
  cases hPath : pathNames path with
  | error fault =>
    rw [lastStep, hPath] at h
    cases h
  | ok names =>
    obtain hNone | ⟨front, name, hFront⟩ := names.names.eq_nil_or_concat
    · simp only [lastStep, hPath, bind, Except.bind, hNone, List.getLast?_nil] at h
      cases h
    · rw [List.concat_eq_append] at hFront
      rw [lastStep_concat hPath hFront, walkFrom] at h
      have hMem : name ∈ (PathNames.ofText path).names := by
        rw [← pathNames_eq hPath, hFront]
        exact List.mem_append_right _ (List.mem_singleton_self name)
      cases hWalk : disk.walk .target maxLinks (disk.origin names) front with
      | error fault =>
        rw [hWalk] at h
        cases h
      | ok place =>
        rw [hWalk] at h
        obtain ⟨rfl, hDirectory, rfl, hLast, hSlash⟩ :=
          endsAt_eq_some (h : disk.endsAt _ _ place = _) (nonempty_of_mem_names hMem)
        exact ⟨names, front, ⟨hPath, hFront, hLast⟩, walk_target_iff.mp hWalk, hDirectory, hSlash⟩

/-- A path leads to one location only. -/
theorem LeadsTo.unique {location another : Location} (h : disk.LeadsTo path location)
    (hOther : disk.LeadsTo path another) : location = another := by
  obtain ⟨names, front, last, directory, hEnd, hResolves, hDirectory, rfl⟩ := h
  obtain ⟨other, hOtherResolves, -, rfl⟩ := hEnd.leadsTo_iff.mp hOther
  rw [hResolves.unique hOtherResolves]

/-- An entry is located where the path leads, unless a slash follows. -/
theorem EndsIn.locate_entry_iff {names : PathNames} (h : EndsIn path names front last)
    (hSlash : names.endsInSlash = false) {location : Location} :
    disk.locate .entry path = .ok location ↔
      disk.LeadsTo path location ∧ disk.entryAt? location ≠ none := by
  rw [locate_eq_ok, h.leadsTo_iff]
  constructor
  · intro hPlace
    obtain ⟨directory, left, hResolves, hWalk⟩ :=
      exists_resolves_of_place h.passed h.names_eq hSlash hPlace
    have hDirectory := isDirectory_of_walk_cons hWalk
    cases hEntry : disk.entryAt? (directory ++ [last]) with
    | none =>
      rw [walk_absent hDirectory h.isStep hEntry] at hWalk
      cases hWalk
    | some entry =>
      rw [walk_entry_last hDirectory h.isStep hEntry] at hWalk
      cases hWalk
      refine ⟨⟨directory, hResolves, hDirectory, rfl⟩, ?_⟩
      rw [hEntry]
      exact Option.some_ne_none entry
  · rintro ⟨⟨directory, hResolves, hDirectory, rfl⟩, hEntry⟩
    obtain ⟨entry, hEntry⟩ := Option.ne_none_iff_exists'.mp hEntry
    exact place_of_resolves h.passed h.names_eq hSlash h.isStep.nonempty hResolves fun left =>
      walk_entry_last hDirectory h.isStep hEntry

/-- What stands where a path leads is located, unless a slash follows. -/
theorem LeadsTo.locate_entry {location : Location} (h : disk.LeadsTo path location)
    (hEntry : disk.entryAt? location ≠ none)
    (hSlash : (PathNames.ofText path).endsInSlash = false) :
    disk.locate .entry path = .ok location := by
  obtain ⟨names, front, last, directory, hEnd, -⟩ := id h
  rw [← pathNames_eq hEnd.passed] at hSlash
  exact (hEnd.locate_entry_iff hSlash).mpr ⟨h, hEntry⟩

/-! ### The names of a text -/

/-- The name that a part of a path is, unless it is empty. -/
def nameOfPart? (part : List Char) : Option String :=
  if part.isEmpty then none else some (String.ofList part)

theorem ofText_names (path : String) :
    (PathNames.ofText path).names = (Text.split '/' path.toList).filterMap nameOfPart? := rfl

theorem ofText_names_of_name (h : '/' ∉ name.toList) (hName : name ≠ "") :
    (PathNames.ofText name).names = [name] := by
  have hChars : name.toList ≠ [] := fun hEmpty => hName (String.toList_eq_nil_iff.mp hEmpty)
  rw [ofText_names, Text.split_of_not_mem h, List.filterMap_cons, nameOfPart?,
    List.isEmpty_eq_false_iff.mpr hChars, if_neg Bool.false_ne_true, String.ofList_toList]
  rfl

/-- A relative path below a base adds its names to those of the base. -/
theorem ofText_names_join {base : String} (h : Path.isAbsolute path = false) :
    (PathNames.ofText (Path.join base path)).names =
      (PathNames.ofText base).names ++ (PathNames.ofText path).names := by
  rw [Path.join_eq h, Path.lead]
  by_cases hBase : base = ""
  · subst hBase
    have hNone : (PathNames.ofText "").names = [] := rfl
    have hLead : ("" == "" || Text.endsWith ['/'] "".toList) = true := rfl
    rw [hLead, if_pos rfl, String.empty_append, hNone, List.nil_append]
  · by_cases hSlash : Text.endsWith ['/'] base.toList = true
    · obtain ⟨chars, hChars⟩ := Text.endsWith_iff.mp hSlash
      have hLast : Text.split '/' [] = [[]] := rfl
      rw [if_pos (by rw [hSlash, Bool.or_true]), ofText_names, String.toList_append, ofText_names,
        hChars, List.append_assoc, List.singleton_append, Text.split_append_cons,
        Text.split_append_cons, hLast, List.filterMap_append, List.filterMap_append]
      change _ = _ ++ [] ++ _
      rw [List.append_nil]
      rfl
    · have hLead : ¬(base == "" || Text.endsWith ['/'] base.toList) = true := by
        rw [Bool.or_eq_true, not_or, beq_iff_eq]
        exact ⟨hBase, hSlash⟩
      have hChars : (base ++ "/" ++ path).toList = base.toList ++ '/' :: path.toList := by
        rw [String.toList_append, String.toList_append, List.append_assoc]
        rfl
      rw [if_neg hLead, ofText_names, hChars, Text.split_append_cons, List.filterMap_append]
      rfl

theorem endsInSlash_iff :
    (PathNames.ofText path).endsInSlash = true ↔ path.toList.getLast? = some '/' := by
  rw [List.getLast?_eq_some_iff]
  exact Text.endsWith_iff

theorem endsInSlash_join {base : String} (h : Path.isAbsolute path = false) (hPath : path ≠ "") :
    (PathNames.ofText (Path.join base path)).endsInSlash = (PathNames.ofText path).endsInSlash := by
  have hChars : path.toList ≠ [] := fun hEmpty => hPath (String.toList_eq_nil_iff.mp hEmpty)
  rw [Bool.eq_iff_iff, endsInSlash_iff, endsInSlash_iff, Path.join_eq h, String.toList_append,
    List.getLast?_append_of_ne_nil _ hChars]

/-- Where the last step of a path is a name, it is the name of the file. -/
theorem EndsIn.eq_of_fileName? {names : PathNames} (h : EndsIn path names front last)
    (hName : Path.fileName? path = some name) : last = name := by
  obtain ⟨lead, others, part, idle, hSplit, -, -, rfl, hPart, -, hIdle⟩ :=
    Path.exists_split_of_fileName? hName
  have hNames : (PathNames.ofText path).names = front ++ [last] := by
    rw [← pathNames_eq h.passed, h.names_eq]
  have hNonempty : part.isEmpty = false := by
    cases part with
    | nil => cases hPart
    | cons c part => rfl
  rw [ofText_names, hSplit, List.filterMap_append, List.filterMap_append, List.filterMap_cons,
    nameOfPart?, hNonempty, if_neg Bool.false_ne_true] at hNames
  dsimp only at hNames
  obtain hNone | ⟨rest, final, hRest⟩ := (idle.filterMap nameOfPart?).eq_nil_or_concat
  · rw [hNone, ← List.append_assoc] at hNames
    exact (List.singleton_inj.mp (List.append_inj' hNames rfl).2).symm
  · -- An idle part that is a name can only be `.`, which is no name of a directory.
    rw [List.concat_eq_append] at hRest
    rw [hRest, ← List.cons_append, ← List.append_assoc, ← List.append_assoc] at hNames
    obtain rfl := List.singleton_inj.mp (List.append_inj' hNames rfl).2
    have hMem : final ∈ idle.filterMap nameOfPart? := by
      rw [hRest]
      exact List.mem_append_right _ (List.mem_singleton_self final)
    obtain ⟨other, hOther, hFinal⟩ := List.mem_filterMap.mp hMem
    obtain hEmpty | hDot := Bool.or_eq_true_iff.mp (hIdle other hOther)
    · rw [beq_iff_eq.mp hEmpty] at hFinal
      cases hFinal
    · rw [beq_iff_eq.mp hDot] at hFinal
      exact absurd (Option.some.inj hFinal).symm h.isStep.notDot

end ProvideIndex.Disk
