/-!
# A file system

Directories, files and symbolic links, each at a location: the names on the way from the root. The
root is a directory that is always there. No two entries have one location as long as entries are
only put and removed.

A machine has some entries besides that no user has put there: programs, and a file that swallows
all that is written to it.
-/

namespace ProvideIndex

inductive Entry where
  | directory
  | file (contents : ByteArray)
  | link (target : String)
  /-- Reads as an empty file; what is written to it is lost. -/
  | sink
  /-- A program of the machine, which is no text. -/
  | program (name : String)

namespace Entry

/-- Who may read, write and run an entry, unless it was said otherwise. -/
def initialMode : Entry → Nat
  | directory | program _ => 0o755
  | file _ => 0o644
  | link _ => 0o777
  | sink => 0o666

/-- What is read from an entry; a directory cannot be read. -/
def contents? : Entry → Option ByteArray
  | file contents => some contents
  | sink => some .empty
  | program _ => some ⟨#[0x7f, 0x45, 0x4c, 0x46, 0xff]⟩
  | directory | link _ => none

end Entry

/-- The names on the way from the root. -/
abbrev Location := List String

structure Disk where
  entries : List (Location × Entry)
  /-- Where relative paths begin. -/
  workingDirectory : Location
  /-- The modes of entries that do not have their initial one. -/
  modes : List (Location × Nat) := []

namespace Disk

def entryAt? (disk : Disk) (location : Location) : Option Entry :=
  if location.isEmpty then some .directory else disk.entries.lookup location

def isDirectory (disk : Disk) (location : Location) : Bool :=
  disk.entryAt? location matches some .directory

def replaceOrAdd (location : Location) (entry : Entry) :
    List (Location × Entry) → List (Location × Entry)
  | [] => [(location, entry)]
  | (l, e) :: entries =>
    if location == l then (l, entry) :: entries else (l, e) :: replaceOrAdd location entry entries

def put (location : Location) (entry : Entry) (disk : Disk) : Disk :=
  { disk with entries := replaceOrAdd location entry disk.entries }

def remove (location : Location) (disk : Disk) : Disk :=
  { disk with
    entries := disk.entries.filter fun entry => entry.1 != location
    modes := disk.modes.filter fun entry => entry.1 != location }

def mode (disk : Disk) (location : Location) : Nat :=
  match disk.modes.lookup location with
  | some mode => mode
  | none => ((disk.entryAt? location).getD .directory).initialMode

def setMode (location : Location) (mode : Nat) (disk : Disk) : Disk :=
  { disk with modes := (location, mode) :: disk.modes.filter fun entry => entry.1 != location }

/-- The entries below a location, each with the names that lead to it from there. -/
def below (disk : Disk) (location : Location) : List (Location × Entry) :=
  disk.entries.filterMap fun (l, entry) =>
    if location.isPrefixOf l ∧ location.length < l.length then some (l.drop location.length, entry)
    else none

theorem isDirectory_iff {disk : Disk} {location : Location} :
    disk.isDirectory location = true ↔ disk.entryAt? location = some .directory := by
  rw [isDirectory]
  cases disk.entryAt? location with
  | none => simp
  | some entry => cases entry <;> simp

theorem lookup_replaceOrAdd (location other : Location) (entry : Entry)
    (entries : List (Location × Entry)) :
    (replaceOrAdd location entry entries).lookup other =
      if other = location then some entry else entries.lookup other := by
  induction entries with
  | nil =>
    by_cases h : other = location
    · simp [replaceOrAdd, h]
    · simp [replaceOrAdd, List.lookup_cons, h, beq_false_of_ne h]
  | cons first entries ih =>
    obtain ⟨l, e⟩ := first
    rw [replaceOrAdd]
    by_cases hl : location = l
    · subst hl
      rw [if_pos (beq_self_eq_true _)]
      by_cases h : other = location
      · simp [h]
      · simp [List.lookup_cons, h, beq_false_of_ne h]
    · rw [if_neg (by simpa using hl)]
      by_cases h : other = l
      · subst h
        simp [Ne.symm hl]
      · rw [List.lookup_cons, List.lookup_cons, beq_false_of_ne h]
        exact ih

/-- What is put at a location is found there, and nothing else changes. -/
theorem entryAt?_put (disk : Disk) (location other : Location) (entry : Entry)
    (h : location ≠ []) :
    (disk.put location entry).entryAt? other =
      if other = location then some entry else disk.entryAt? other := by
  rw [entryAt?, entryAt?]
  by_cases hOther : other = []
  · subst hOther
    simp [Ne.symm h]
  · have hEmpty : other.isEmpty = false := by simpa using hOther
    rw [hEmpty]
    exact lookup_replaceOrAdd location other entry disk.entries

@[simp] theorem workingDirectory_remove (disk : Disk) (location : Location) :
    (disk.remove location).workingDirectory = disk.workingDirectory := rfl

theorem lookup_filter_ne (location other : Location) (entries : List (Location × Entry)) :
    (entries.filter fun entry => entry.1 != location).lookup other =
      if other = location then none else entries.lookup other := by
  induction entries with
  | nil => simp
  | cons first entries ih =>
    obtain ⟨l, e⟩ := first
    by_cases hl : l = location
    · rw [List.filter_cons_of_neg (by simpa using hl), ih, List.lookup_cons]
      by_cases h : other = location
      · simp [h]
      · rw [if_neg h, if_neg h, hl, beq_false_of_ne h]
    · rw [List.filter_cons_of_pos (by simpa using hl), List.lookup_cons, List.lookup_cons, ih]
      by_cases h : other = l
      · subst h
        simp [hl]
      · rw [beq_false_of_ne h]

/-- What is removed from a location is gone, and nothing else changes. -/
theorem entryAt?_remove (disk : Disk) (location other : Location) (h : location ≠ []) :
    (disk.remove location).entryAt? other =
      if other = location then none else disk.entryAt? other := by
  rw [entryAt?, entryAt?]
  by_cases hOther : other = []
  · subst hOther
    simp [Ne.symm h]
  · have hEmpty : other.isEmpty = false := by simpa using hOther
    rw [hEmpty]
    exact lookup_filter_ne location other disk.entries

end Disk

end ProvideIndex
