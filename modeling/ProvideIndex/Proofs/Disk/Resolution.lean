import ProvideIndex.Disk.Resolve

/-!
# What a walk finds

`Resolves` says, one rule for each kind of step, what the names of a path come to on a disk while no
more than a number of links are replaced.

* `walkStep_of_walk_cons`: the first step of a walk that finds something.
* `walk_target_iff`: a walk after the target finds exactly what the names come to.
* `exists_resolves_of_walk` and `Resolves.exists_walk_eq`: whatever a walk is after, this makes a
  difference at the last name only.
* `Resolves.mono`: names that come to a directory do so on every disk that keeps the directories and
  the links.
-/

namespace ProvideIndex.Disk

/-- Whether a step of a path is a name that a directory can hold. -/
structure IsStep (name : String) : Prop where
  nonempty : name ≠ ""
  notDot : name ≠ "."
  notDots : name ≠ ".."
  short : name.utf8ByteSize ≤ maxNameLength

/-- Where the names of a link begin: at the root, or at the directory that holds the link. -/
def linkStart (here : Location) (target : String) : Location :=
  if (PathNames.ofText target).isAbsolute then [] else here

/-- What the names of a path come to from a directory, if at most `links` links are replaced. -/
inductive Resolves (disk : Disk) : Nat → Location → List String → Location → Prop
  | here (links : Nat) (here : Location) : Resolves disk links here [] here
  | idle {links : Nat} {here target : Location} {name : String} {rest : List String}
      (hHere : disk.isDirectory here = true) (hName : name = "" ∨ name = ".")
      (h : Resolves disk links here rest target) : Resolves disk links here (name :: rest) target
  | up {links : Nat} {here target : Location} {rest : List String}
      (hHere : disk.isDirectory here = true) (h : Resolves disk links here.dropLast rest target) :
      Resolves disk links here (".." :: rest) target
  | entry {links : Nat} {here target : Location} {name : String} {rest : List String} {entry : Entry}
      (hHere : disk.isDirectory here = true) (hName : IsStep name)
      (hEntry : disk.entryAt? (here ++ [name]) = some entry) (hNoLink : ∀ path, entry ≠ .link path)
      (h : Resolves disk links (here ++ [name]) rest target) :
      Resolves disk links here (name :: rest) target
  | link {links : Nat} {here target : Location} {name path : String} {rest : List String}
      (hHere : disk.isDirectory here = true) (hName : IsStep name)
      (hEntry : disk.entryAt? (here ++ [name]) = some (.link path))
      (h : Resolves disk links (linkStart here path) ((PathNames.ofText path).steps ++ rest) target) :
      Resolves disk (links + 1) here (name :: rest) target

variable {disk other : Disk} {aim : Aim} {links : Nat} {here target directory : Location}
  {name last path : String} {names rest front : List String} {entry : Entry} {place : Place}

theorem isStep_cases (name : String) :
    (name = "" ∨ name = ".") ∨ name = ".." ∨ maxNameLength < name.utf8ByteSize ∨ IsStep name := by
  by_cases hIdle : name = "" ∨ name = "."
  · exact .inl hIdle
  · by_cases hDots : name = ".."
    · exact .inr (.inl hDots)
    · by_cases hLong : maxNameLength < name.utf8ByteSize
      · exact .inr (.inr (.inl hLong))
      · rw [not_or] at hIdle
        exact .inr (.inr (.inr ⟨hIdle.1, hIdle.2, hDots, Nat.le_of_not_lt hLong⟩))

namespace IsStep

theorem not_idle (h : IsStep name) : (name == "" || name == ".") = false := by
  rw [Bool.or_eq_false_iff]
  exact ⟨beq_false_of_ne h.nonempty, beq_false_of_ne h.notDot⟩

theorem not_up (h : IsStep name) : (name == "..") = false := beq_false_of_ne h.notDots

theorem not_long (h : IsStep name) : ¬maxNameLength < name.utf8ByteSize := Nat.not_lt.mpr h.short

end IsStep

/-! ### One step of a walk -/

/-- Whether a walk refuses the slash that is left behind a name. -/
def refusesSlash (aim : Aim) (rest : List String) : Bool :=
  aim == .newFile && !rest.isEmpty && rest.all (·.isEmpty)

/-- Whether a walk stops at a link. -/
def stopsAtLink (aim : Aim) (rest : List String) : Bool := rest.isEmpty && aim == .entry

theorem walk_nil : disk.walk aim links here [] = .ok (.present here) := by
  cases links <;> rfl

theorem walk_idle (hHere : disk.isDirectory here = true) (hName : name = "" ∨ name = ".") :
    disk.walk aim links here (name :: rest) = disk.walk aim links here rest := by
  have hIdle : (name == "" || name == ".") = true := by
    rcases hName with rfl | rfl <;> rfl
  cases links <;> simp only [walk, walkNames, hHere, hIdle, Bool.not_true, Bool.false_eq_true,
    if_false, if_true]

theorem walk_up (hHere : disk.isDirectory here = true) :
    disk.walk aim links here (".." :: rest) = disk.walk aim links here.dropLast rest := by
  cases links <;> simp [walk, walkNames, hHere]

section Names

variable (hHere : disk.isDirectory here = true) (hName : IsStep name)
include hHere hName

theorem walk_absent (hEntry : disk.entryAt? (here ++ [name]) = none) :
    disk.walk aim links here [name] = .ok (.absent here name) := by
  cases links <;> simp [walk, walkNames, hHere, hName.not_idle, hName.not_up, hName.not_long, hEntry]

theorem walk_itself (hEntry : disk.entryAt? (here ++ [name]) = some (.link path)) :
    disk.walk .entry links here [name] = .ok (.present (here ++ [name])) := by
  cases links <;> simp [walk, walkNames, hHere, hName.not_idle, hName.not_up, hName.not_long, hEntry]

theorem walk_entry (hSlash : refusesSlash aim rest = false)
    (hEntry : disk.entryAt? (here ++ [name]) = some entry) (hNoLink : ∀ path, entry ≠ .link path) :
    disk.walk aim links here (name :: rest) = disk.walk aim links (here ++ [name]) rest := by
  rw [refusesSlash] at hSlash
  cases entry with
  | link path => exact absurd rfl (hNoLink path)
  | directory | file | sink | program =>
    cases links <;> simp [walk, walkNames, hHere, hName.not_idle, hName.not_up, hName.not_long,
      hSlash, hEntry]

theorem walk_link (hSlash : refusesSlash aim rest = false) (hGo : stopsAtLink aim rest = false)
    (hEntry : disk.entryAt? (here ++ [name]) = some (.link path)) :
    disk.walk aim (links + 1) here (name :: rest) =
      disk.walk aim links (linkStart here path) ((PathNames.ofText path).steps ++ rest) := by
  rw [refusesSlash] at hSlash
  rw [stopsAtLink] at hGo
  simp [walk, walkNames, hHere, hName.not_idle, hName.not_up, hName.not_long, hSlash, hGo, hEntry,
    linkStart]

theorem walk_missing (hSlash : refusesSlash aim rest = false)
    (hEntry : disk.entryAt? (here ++ [name]) = none) (hRest : rest ≠ []) :
    disk.walk aim links here (name :: rest) = .error .notFound := by
  rw [refusesSlash] at hSlash
  cases links <;> simp [walk, walkNames, hHere, hName.not_idle, hName.not_up, hName.not_long, hSlash,
    hEntry, hRest]

/-- Whatever stands at the last name is what a walk after the entry finds. -/
theorem walk_entry_last (hEntry : disk.entryAt? (here ++ [name]) = some entry) :
    disk.walk .entry links here [name] = .ok (.present (here ++ [name])) := by
  by_cases hLink : ∃ path, entry = .link path
  · obtain ⟨path, rfl⟩ := hLink
    exact walk_itself hHere hName hEntry
  · rw [walk_entry hHere hName rfl hEntry fun path hPath => hLink ⟨path, hPath⟩, walk_nil]

/-- A walk that may replace no more links finds nothing through a link. -/
theorem walk_link_zero (hSlash : refusesSlash aim rest = false) (hGo : stopsAtLink aim rest = false)
    (hEntry : disk.entryAt? (here ++ [name]) = some (.link path)) :
    disk.walk aim 0 here (name :: rest) = .error .tooManyLinks := by
  rw [refusesSlash] at hSlash
  rw [stopsAtLink] at hGo
  simp [walk, walkNames, hHere, hName.not_idle, hName.not_up, hName.not_long, hSlash, hGo, hEntry]

end Names

/-- The first step of a walk that finds something: how the name is taken, and what is found behind. -/
inductive WalkStep (disk : Disk) (aim : Aim) (links : Nat) (here : Location) (name : String)
    (rest : List String) (place : Place) : Prop
  | idle (hName : name = "" ∨ name = ".") (h : disk.walk aim links here rest = .ok place)
  | up (hName : name = "..") (h : disk.walk aim links here.dropLast rest = .ok place)
  | absent (hName : IsStep name) (hEntry : disk.entryAt? (here ++ [name]) = none) (hRest : rest = [])
      (hPlace : place = .absent here name)
  | itself (hName : IsStep name) (path : String)
      (hEntry : disk.entryAt? (here ++ [name]) = some (.link path))
      (hStop : stopsAtLink aim rest = true) (hPlace : place = .present (here ++ [name]))
  | entry (hName : IsStep name) (entry : Entry)
      (hEntry : disk.entryAt? (here ++ [name]) = some entry) (hNoLink : ∀ path, entry ≠ .link path)
      (h : disk.walk aim links (here ++ [name]) rest = .ok place)
  | link (hName : IsStep name) (path : String) (fewer : Nat) (hLinks : links = fewer + 1)
      (hEntry : disk.entryAt? (here ++ [name]) = some (.link path))
      (h : disk.walk aim fewer (linkStart here path) ((PathNames.ofText path).steps ++ rest) =
        .ok place)

theorem isDirectory_of_walk_cons (h : disk.walk aim links here (name :: rest) = .ok place) :
    disk.isDirectory here = true := by
  cases hHere : disk.isDirectory here with
  | true => rfl
  | false => cases links <;> simp [walk, walkNames, hHere] at h

theorem not_long_of_walk_cons (h : disk.walk aim links here (name :: rest) = .ok place) :
    ¬maxNameLength < name.utf8ByteSize := by
  intro hLong
  have hHere := isDirectory_of_walk_cons h
  have hEmpty : name ≠ "" := fun hName => absurd (hName ▸ hLong) (by decide)
  have hDot : name ≠ "." := fun hName => absurd (hName ▸ hLong) (by decide)
  have hUp : name ≠ ".." := fun hName => absurd (hName ▸ hLong) (by decide)
  cases links <;> simp [walk, walkNames, hHere, hEmpty, hDot, hUp, hLong] at h <;> split at h <;>
    cases h

theorem refusesSlash_of_walk_cons (hName : IsStep name)
    (h : disk.walk aim links here (name :: rest) = .ok place) : refusesSlash aim rest = false := by
  have hHere := isDirectory_of_walk_cons h
  cases hSlash : refusesSlash aim rest with
  | false => rfl
  | true =>
    rw [refusesSlash] at hSlash
    cases links <;>
      simp only [walk, walkNames, hHere, hName.not_idle, hName.not_up, hSlash, Bool.not_true,
        Bool.false_eq_true, if_false, if_true] at h <;> cases h

/-- A walk that finds something has a first step. -/
theorem walkStep_of_walk_cons (h : disk.walk aim links here (name :: rest) = .ok place) :
    WalkStep disk aim links here name rest place := by
  have hHere := isDirectory_of_walk_cons h
  obtain hIdle | rfl | hLong | hName := isStep_cases name
  · rw [walk_idle hHere hIdle] at h
    exact .idle hIdle h
  · rw [walk_up hHere] at h
    exact .up rfl h
  · exact absurd hLong (not_long_of_walk_cons h)
  · have hSlash := refusesSlash_of_walk_cons hName h
    cases hEntry : disk.entryAt? (here ++ [name]) with
    | none =>
      by_cases hRest : rest = []
      · subst hRest
        rw [walk_absent hHere hName hEntry] at h
        exact .absent hName hEntry rfl (Except.ok.inj h).symm
      · rw [walk_missing hHere hName hSlash hEntry hRest] at h
        cases h
    | some entry =>
      by_cases hLink : ∃ path, entry = .link path
      · obtain ⟨path, rfl⟩ := hLink
        cases hStop : stopsAtLink aim rest with
        | true =>
          obtain ⟨hRest, hAim⟩ := Bool.and_eq_true_iff.mp hStop
          obtain rfl := List.isEmpty_iff.mp hRest
          obtain rfl := beq_iff_eq.mp hAim
          rw [walk_itself hHere hName hEntry] at h
          exact .itself hName path hEntry hStop (Except.ok.inj h).symm
        | false =>
          cases links with
          | zero =>
            rw [walk_link_zero hHere hName hSlash hStop hEntry] at h
            cases h
          | succ fewer =>
            rw [walk_link hHere hName hSlash hStop hEntry] at h
            exact .link hName path fewer rfl hEntry h
      · have hNoLink : ∀ path, entry ≠ .link path := fun path hPath => hLink ⟨path, hPath⟩
        rw [walk_entry hHere hName hSlash hEntry hNoLink] at h
        exact .entry hName entry hEntry hNoLink h

/-! ### A whole walk -/

/--
A walk that finds something passes the steps before the last ones as the path `front` resolves,
unless it stops at a link there.
-/
theorem exists_resolves_of_walk (hGo : stopsAtLink aim rest = false)
    (hFound : rest ≠ [] ∨ ∃ location, place = .present location)
    (h : disk.walk aim links here (front ++ rest) = .ok place) :
    ∃ directory left, disk.Resolves links here front directory ∧
      disk.walk aim left directory rest = .ok place := by
  induction links using Nat.strongRecOn generalizing here front with
  | _ links ihLinks =>
    induction front generalizing here with
    | nil => exact ⟨here, links, .here links here, h⟩
    | cons name front ihNames =>
      rw [List.cons_append] at h
      have hHere := isDirectory_of_walk_cons h
      cases walkStep_of_walk_cons h with
      | idle hName h =>
        obtain ⟨directory, left, hResolves, hWalk⟩ := ihNames h
        exact ⟨directory, left, .idle hHere hName hResolves, hWalk⟩
      | up hName h =>
        obtain ⟨directory, left, hResolves, hWalk⟩ := ihNames h
        exact ⟨directory, left, hName ▸ .up hHere hResolves, hWalk⟩
      | absent hName hEntry hRest hPlace =>
        obtain ⟨location, hLocation⟩ := hFound.resolve_left
          fun hRest' => hRest' (List.append_eq_nil_iff.mp hRest).2
        rw [hLocation] at hPlace
        cases hPlace
      | itself hName path hEntry hStop hPlace =>
        obtain ⟨hRest, hAim⟩ := Bool.and_eq_true_iff.mp hStop
        obtain rfl := (List.append_eq_nil_iff.mp (List.isEmpty_iff.mp hRest)).2
        rw [stopsAtLink, hAim] at hGo
        cases hGo
      | entry hName entry hEntry hNoLink h =>
        obtain ⟨directory, left, hResolves, hWalk⟩ := ihNames h
        exact ⟨directory, left, .entry hHere hName hEntry hNoLink hResolves, hWalk⟩
      | link hName path fewer hLinks hEntry hNext =>
        subst hLinks
        rw [← List.append_assoc] at hNext
        obtain ⟨directory, left, hResolves, hWalk⟩ := ihLinks fewer (Nat.lt_succ_self fewer) hNext
        exact ⟨directory, left, .link hHere hName hEntry hResolves, hWalk⟩

/-- A walk that stops at no link finds what the path comes to. -/
theorem resolves_of_walk (hAim : aim ≠ .entry)
    (h : disk.walk aim links here names = .ok (.present target)) :
    disk.Resolves links here names target := by
  have hGo : stopsAtLink aim [] = false := beq_false_of_ne hAim
  rw [← List.append_nil names] at h
  obtain ⟨directory, left, hResolves, hWalk⟩ := exists_resolves_of_walk hGo (.inr ⟨target, rfl⟩) h
  rw [walk_nil] at hWalk
  cases hWalk
  exact hResolves

/-- What a walk finds absent is a name that a directory does not hold. -/
theorem vacant_of_walk (h : disk.walk aim links here names = .ok (.absent directory name)) :
    disk.isDirectory directory = true ∧ IsStep name ∧
      disk.entryAt? (directory ++ [name]) = none := by
  induction links using Nat.strongRecOn generalizing here names with
  | _ links ihLinks =>
    induction names generalizing here with
    | nil =>
      rw [walk_nil] at h
      cases h
    | cons step rest ihNames =>
      have hHere := isDirectory_of_walk_cons h
      cases walkStep_of_walk_cons h with
      | idle hName h | up hName h | entry hName entry hEntry hNoLink h => exact ihNames h
      | absent hName hEntry hRest hPlace =>
        cases hPlace
        exact ⟨hHere, hName, hEntry⟩
      | itself hName path hEntry hStop hPlace => cases hPlace
      | link hName path fewer hLinks hEntry h =>
        exact ihLinks fewer (hLinks ▸ Nat.lt_succ_self fewer) h

/-- Whether the aim of a walk makes no difference before the steps `rest`. -/
def AimWaits (aim : Aim) (rest : List String) : Prop := aim = .target ∨ ∃ step ∈ rest, step ≠ ""

namespace AimWaits

theorem append (h : AimWaits aim rest) (front : List String) : AimWaits aim (front ++ rest) := by
  rcases h with hAim | ⟨step, hMem, hStep⟩
  · exact .inl hAim
  · exact .inr ⟨step, List.mem_append_right _ hMem, hStep⟩

theorem of_ne (h : last ≠ "") : AimWaits aim [last] :=
  .inr ⟨last, List.mem_singleton_self last, h⟩

theorem refusesSlash_eq (h : AimWaits aim rest) : refusesSlash aim rest = false := by
  rcases h with rfl | ⟨step, hMem, hStep⟩
  · rfl
  · have hAll : rest.all (·.isEmpty) = false := by
      rw [List.all_eq_false]
      exact ⟨step, hMem, by simpa using hStep⟩
    rw [refusesSlash, hAll, Bool.and_false]

theorem stopsAtLink_eq (h : AimWaits aim rest) : stopsAtLink aim rest = false := by
  rcases h with rfl | ⟨step, hMem, -⟩
  · exact Bool.and_false _
  · rw [stopsAtLink, List.isEmpty_eq_false_iff.mpr (List.ne_nil_of_mem hMem), Bool.false_and]

end AimWaits

/-- Behind a path that resolves, a walk goes on from what the path comes to. -/
theorem Resolves.exists_walk_eq (h : disk.Resolves links here front directory)
    (hWaits : AimWaits aim rest) :
    ∃ left, disk.walk aim links here (front ++ rest) = disk.walk aim left directory rest := by
  induction h with
  | here links here => exact ⟨links, rfl⟩
  | idle hHere hName h ih =>
    obtain ⟨left, hWalk⟩ := ih
    exact ⟨left, (walk_idle hHere hName).trans hWalk⟩
  | up hHere h ih =>
    obtain ⟨left, hWalk⟩ := ih
    exact ⟨left, (walk_up hHere).trans hWalk⟩
  | @entry links here target name others entry hHere hName hEntry hNoLink h ih =>
    obtain ⟨left, hWalk⟩ := ih
    have hSlash := (hWaits.append others).refusesSlash_eq
    exact ⟨left, (walk_entry hHere hName hSlash hEntry hNoLink).trans hWalk⟩
  | @link links here target name path others hHere hName hEntry h ih =>
    obtain ⟨left, hWalk⟩ := ih
    rw [List.append_assoc] at hWalk
    have hFront := hWaits.append others
    exact ⟨left, (walk_link hHere hName hFront.refusesSlash_eq hFront.stopsAtLink_eq hEntry).trans
      hWalk⟩

/-- A walk after the target of a path finds what the path comes to. -/
theorem walk_target_iff :
    disk.walk .target links here names = .ok (.present target) ↔
      disk.Resolves links here names target := by
  constructor
  · exact resolves_of_walk nofun
  · intro h
    have hWaits : AimWaits .target [] := .inl rfl
    obtain ⟨left, hWalk⟩ := h.exists_walk_eq hWaits
    rw [List.append_nil, walk_nil] at hWalk
    exact hWalk

/-- Whether a way may lead on from an entry. -/
def IsWay : Entry → Prop
  | .directory | .link _ => True
  | .file _ | .sink | .program _ => False

/-- Whether another disk has all directories and links of a disk, and so its ways. -/
structure KeepsWays (disk other : Disk) : Prop where
  start : other.workingDirectory = disk.workingDirectory
  ways : ∀ location entry, IsWay entry → disk.entryAt? location = some entry →
    other.entryAt? location = some entry

namespace KeepsWays

theorem isDirectory (h : KeepsWays disk other) {location : Location}
    (hDirectory : disk.isDirectory location = true) : other.isDirectory location = true :=
  isDirectory_iff.mpr (h.ways location .directory trivial (isDirectory_iff.mp hDirectory))

theorem refl (disk : Disk) : KeepsWays disk disk := ⟨rfl, fun _ _ _ hEntry => hEntry⟩

/-- A file that is put where no way goes on keeps the ways. -/
theorem put_file {location : Location} (hLocation : location ≠ []) (bytes : ByteArray)
    (hPlace : ∀ entry, disk.entryAt? location = some entry → ¬IsWay entry) :
    KeepsWays disk (disk.put location (.file bytes)) where
  start := rfl
  ways other entry hWay hEntry := by
    have hOther : other ≠ location := by
      rintro rfl
      exact hPlace entry hEntry hWay
    rw [entryAt?_put _ _ _ _ hLocation, if_neg hOther, hEntry]

/-- No way is made by a file that is put. -/
theorem of_put_file {location : Location} (hLocation : location ≠ []) (bytes : ByteArray) :
    KeepsWays (disk.put location (.file bytes)) disk where
  start := rfl
  ways other entry hWay hEntry := by
    rw [entryAt?_put _ _ _ _ hLocation] at hEntry
    split at hEntry
    · cases hEntry
      exact hWay.elim
    · exact hEntry

/-- An entry that is removed where no way goes on leaves the ways. -/
theorem remove {location : Location} (hLocation : location ≠ [])
    (hPlace : ∀ entry, disk.entryAt? location = some entry → ¬IsWay entry) :
    KeepsWays disk (disk.remove location) where
  start := rfl
  ways other entry hWay hEntry := by
    have hOther : other ≠ location := by
      rintro rfl
      exact hPlace entry hEntry hWay
    rw [entryAt?_remove _ _ _ hLocation, if_neg hOther, hEntry]

/-- No way is made by removing an entry. -/
theorem of_remove {location : Location} (hLocation : location ≠ []) :
    KeepsWays (disk.remove location) disk where
  start := rfl
  ways other entry hWay hEntry := by
    rw [entryAt?_remove _ _ _ hLocation] at hEntry
    split at hEntry
    · cases hEntry
    · exact hEntry

end KeepsWays

namespace Resolves

/-- A path comes to one location only. -/
theorem unique (h : disk.Resolves links here names target)
    (hOther : disk.Resolves links here names directory) : target = directory := by
  have hWalk := walk_target_iff.mpr h
  rw [walk_target_iff.mpr hOther] at hWalk
  cases hWalk
  rfl

/-- Only from a directory does a path come to a directory. -/
theorem isDirectory_start (h : disk.Resolves links here names target)
    (hTarget : disk.isDirectory target = true) : disk.isDirectory here = true := by
  cases h with
  | here => exact hTarget
  | idle hHere | up hHere | entry hHere | link hHere => exact hHere

/-- Names that come to a directory do so on every disk that keeps the ways. -/
theorem mono (hKeeps : KeepsWays disk other) (h : disk.Resolves links here names target)
    (hTarget : disk.isDirectory target = true) : other.Resolves links here names target := by
  induction h with
  | here links here => exact .here links here
  | idle hHere hName h ih => exact .idle (hKeeps.isDirectory hHere) hName (ih hTarget)
  | up hHere h ih => exact .up (hKeeps.isDirectory hHere) (ih hTarget)
  | entry hHere hName hEntry hNoLink h ih =>
    have hNext := hKeeps.isDirectory (h.isDirectory_start hTarget)
    exact .entry (hKeeps.isDirectory hHere) hName (isDirectory_iff.mp hNext) nofun (ih hTarget)
  | link hHere hName hEntry h ih =>
    exact .link (hKeeps.isDirectory hHere) hName (hKeeps.ways _ _ trivial hEntry) (ih hTarget)

/-- Names that resolve from wherever other names come to resolve behind them. -/
theorem append (h : disk.Resolves links here front directory)
    (hRest : ∀ left, disk.Resolves left directory rest target) :
    disk.Resolves links here (front ++ rest) target := by
  induction h with
  | here links here => exact hRest links
  | idle hHere hName h ih => exact .idle hHere hName (ih hRest)
  | up hHere h ih => exact .up hHere (ih hRest)
  | entry hHere hName hEntry hNoLink h ih => exact .entry hHere hName hEntry hNoLink (ih hRest)
  | link hHere hName hEntry h ih =>
    have hNext := ih hRest
    rw [List.append_assoc] at hNext
    exact .link hHere hName hEntry hNext

/-- Where entries stand in directories only, a path that does not begin at a link comes to none. -/
theorem not_link (hClosed : ∀ location name, disk.entryAt? (location ++ [name]) ≠ none →
      disk.isDirectory location = true)
    (h : disk.Resolves links here names target)
    (hHere : ∀ path, disk.entryAt? here ≠ some (.link path)) :
    ∀ path, disk.entryAt? target ≠ some (.link path) := by
  induction h with
  | here => exact hHere
  | idle _ _ _ ih => exact ih hHere
  | @up links here target rest hDirectory _ ih =>
    refine ih fun path hLink => ?_
    have hAbove : disk.isDirectory here.dropLast = true := by
      obtain rfl | ⟨front, name, rfl⟩ := here.eq_nil_or_concat
      · exact hDirectory
      · rw [List.concat_eq_append] at hDirectory ⊢
        rw [List.dropLast_concat]
        refine hClosed front name ?_
        rw [isDirectory_iff.mp hDirectory]
        exact Option.some_ne_none _
    rw [isDirectory_iff.mp hAbove] at hLink
    cases hLink
  | entry _ _ hEntry hNoLink _ ih =>
    refine ih fun path hLink => ?_
    rw [hEntry] at hLink
    exact hNoLink path (Option.some.inj hLink)
  | @link links here target name path rest hDirectory _ _ _ ih =>
    refine ih fun other hLink => ?_
    rw [linkStart] at hLink
    split at hLink
    · cases hLink
    · rw [isDirectory_iff.mp hDirectory] at hLink
      cases hLink

end Resolves

/-- Where a path comes to something, there is an entry at its end, which may be a link. -/
theorem Resolves.exists_walk_entry (h : disk.Resolves links here names target) :
    ∃ location, disk.walk .entry links here names = .ok (.present location) := by
  induction h with
  | here links here => exact ⟨here, walk_nil⟩
  | idle hHere hName h ih => rwa [walk_idle hHere hName]
  | up hHere h ih => rwa [walk_up hHere]
  | entry hHere hName hEntry hNoLink h ih => rwa [walk_entry hHere hName rfl hEntry hNoLink]
  | @link links here target name path rest hHere hName hEntry h ih =>
    cases rest with
    | nil => exact ⟨here ++ [name], walk_itself hHere hName hEntry⟩
    | cons next rest => rwa [walk_link hHere hName rfl rfl hEntry]

end ProvideIndex.Disk
