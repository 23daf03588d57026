import ProvideIndex.Proofs.SymbolTable.FromManifest
import Mathlib.Data.List.Sort

/-!
# One table over another

A map is determined by its look-ups, so the table of a list of files can be made from the tables of
the parts of the list: the later part is written over the earlier one.

* `StringMap.ext_get?`: maps with the same look-ups are equal.
* `StringMap.size_insert`: only a new key makes a map larger.
* `ofFiles_append`: the table of two lists of files in a row.
-/

namespace ProvideIndex

namespace StringMap

variable {α : Type} {key : String} {value : α} {entries : List (String × α)}

theorem find?_eq_none_of_lt (h : ∀ entry ∈ entries, key < entry.1) :
    find? key entries = none := by
  induction entries with
  | nil => rfl
  | cons entry entries ih =>
    obtain ⟨hFirst, hEntries⟩ := List.forall_mem_cons.mp h
    rw [find?, if_neg (String.ne_of_lt hFirst)]
    exact ih hEntries

/-- Maps with the same look-ups are equal. -/
theorem ext_get? {first second : StringMap α} (h : ∀ key, first.get? key = second.get? key) :
    first = second := by
  have hMem : ∀ entry, entry ∈ first.entries ↔ entry ∈ second.entries := by
    rintro ⟨key, value⟩
    rw [mem_entries_iff, mem_entries_iff, h key]
  have : Std.Irrefl fun a b : String × α => a.1 < b.1 := ⟨fun a => String.lt_irrefl a.1⟩
  have : Std.Antisymm fun a b : String × α => a.1 < b.1 :=
    ⟨fun _ _ hLess hMore => absurd (String.lt_trans hLess hMore) (String.lt_irrefl _)⟩
  have hEntries : first.entries = second.entries :=
    first.ascending.eq_of_mem_iff second.ascending hMem
  cases first
  cases second
  cases hEntries
  rfl

/-! ### The size after a write -/

theorem length_put (h : entries.Pairwise fun a b => a.1 < b.1) :
    (put key value entries).length =
      entries.length + if (find? key entries).isSome then 0 else 1 := by
  induction entries with
  | nil => rfl
  | cons entry entries ih =>
    obtain ⟨k, v⟩ := entry
    obtain ⟨hFirst, hEntries⟩ := List.pairwise_cons.mp h
    rw [put, find?]
    by_cases hLess : key < k
    · have hNew : find? key entries = none :=
        find?_eq_none_of_lt fun entry hMem => String.lt_trans hLess (hFirst entry hMem)
      rw [if_pos hLess, if_neg (String.ne_of_lt hLess), hNew]
      rfl
    · rw [if_neg hLess]
      by_cases hKey : key = k
      · rw [if_pos hKey, if_pos hKey]
        rfl
      · rw [if_neg hKey, if_neg hKey, List.length_cons, List.length_cons, ih hEntries]
        omega

/-- Only a new key makes a map larger. -/
theorem size_insert (map : StringMap α) (key : String) (value : α) :
    (map.insert key value).size = map.size + if (map.get? key).isSome then 0 else 1 :=
  length_put map.ascending

/-! ### One map over another -/

/-- The map with the entries of `top` written over those of `base`. -/
def overlay (base top : StringMap α) : StringMap α :=
  top.entries.foldl (fun map entry => map.insert entry.1 entry.2) base

theorem get?_foldl_insert (h : entries.Pairwise fun a b => a.1 < b.1) (base : StringMap α) :
    (entries.foldl (fun map entry => map.insert entry.1 entry.2) base).get? key =
      (find? key entries).or (base.get? key) := by
  induction entries generalizing base with
  | nil => rfl
  | cons entry entries ih =>
    obtain ⟨k, v⟩ := entry
    obtain ⟨hFirst, hEntries⟩ := List.pairwise_cons.mp h
    rw [List.foldl_cons, ih hEntries, get?_insert, find?]
    by_cases hKey : key = k
    · -- Keys ascend, so no later entry is for the key of the first one.
      subst hKey
      rw [find?_eq_none_of_lt hFirst, if_pos rfl, if_pos rfl]
      rfl
    · rw [if_neg hKey, if_neg hKey]

theorem get?_overlay (base top : StringMap α) (key : String) :
    (base.overlay top).get? key = (top.get? key).or (base.get? key) :=
  get?_foldl_insert top.ascending base

end StringMap

namespace SymbolTable

variable {table : SymbolTable} {files others : List Source.File}

/-- The table with what `top` holds written over what `base` holds. -/
def overlay (base top : SymbolTable) : SymbolTable :=
  ⟨base.owners.overlay top.owners, base.requires.overlay top.requires⟩

theorem ext_lookups {first second : SymbolTable}
    (hOwner : ∀ symbol, first.owner? symbol = second.owner? symbol)
    (hRequires : ∀ path, first.requires? path = second.requires? path) : first = second := by
  have hOwners : first.owners = second.owners := StringMap.ext_get? hOwner
  have hAsked : first.requires = second.requires := StringMap.ext_get? hRequires
  cases first
  cases second
  cases hOwners
  cases hAsked
  rfl

theorem owner?_overlay (base top : SymbolTable) (symbol : String) :
    (base.overlay top).owner? symbol = (top.owner? symbol).or (base.owner? symbol) :=
  StringMap.get?_overlay base.owners top.owners symbol

theorem requires?_overlay (base top : SymbolTable) (path : String) :
    (base.overlay top).requires? path = (top.requires? path).or (base.requires? path) :=
  StringMap.get?_overlay base.requires top.requires path

/-- Files are taken as if their table were made first and then written over what is there. -/
theorem addFiles_eq_overlay : (table.addFiles files).1 = table.overlay (ofFiles files) := by
  refine ext_lookups (fun symbol => ?_) fun path => ?_
  · rw [owner?_overlay, owner?_ofFiles, owner?_addFiles]
  · rw [requires?_overlay, requires?_ofFiles, requires?_addFiles]

theorem addFiles_append :
    table.addFiles (files ++ others) =
      (((table.addFiles files).1.addFiles others).1,
        (table.addFiles files).2 ++ ((table.addFiles files).1.addFiles others).2) := by
  induction files generalizing table with
  | nil => rfl
  | cons file files ih =>
    rw [List.cons_append, addFiles_cons, ih, addFiles_cons, List.append_assoc]

theorem ofFiles_append (files others : List Source.File) :
    ofFiles (files ++ others) = (ofFiles files).overlay (ofFiles others) := by
  rw [ofFiles, build, addFiles_append]
  exact addFiles_eq_overlay

end SymbolTable

end ProvideIndex
