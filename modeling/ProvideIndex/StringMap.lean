/-!
# Maps keyed by text

A map is the list of its keys with their values, in strictly ascending order of keys, so two maps
with the same content are equal. `get?_insert` says what a write does to a look-up.
-/

namespace ProvideIndex

structure StringMap (α : Type) where
  entries : List (String × α)
  ascending : entries.Pairwise fun a b => a.1 < b.1

namespace StringMap

variable {α : Type}

def empty : StringMap α := ⟨[], .nil⟩

def find? (key : String) : List (String × α) → Option α
  | [] => none
  | (k, v) :: entries => if key = k then some v else find? key entries

def get? (map : StringMap α) (key : String) : Option α := find? key map.entries

def size (map : StringMap α) : Nat := map.entries.length

def keys (map : StringMap α) : List String := map.entries.map (·.1)

/-- Puts a key into its place in ascending entries, or exchanges its value if it is there. -/
def put (key : String) (value : α) : List (String × α) → List (String × α)
  | [] => [(key, value)]
  | (k, v) :: entries =>
    if key < k then (key, value) :: (k, v) :: entries
    else if key = k then (key, value) :: entries
    else (k, v) :: put key value entries

theorem fst_mem_put {key k : String} {value v : α} {entries : List (String × α)}
    (h : (k, v) ∈ put key value entries) : k = key ∨ (k, v) ∈ entries := by
  induction entries with
  | nil => simp_all [put]
  | cons entry entries ih =>
    rw [put] at h
    split at h
    · rcases List.mem_cons.mp h with h | h
      · exact .inl (congrArg Prod.fst h)
      · exact .inr h
    · split at h
      · rcases List.mem_cons.mp h with h | h
        · exact .inl (congrArg Prod.fst h)
        · exact .inr (List.mem_cons_of_mem _ h)
      · rcases List.mem_cons.mp h with h | h
        · exact .inr (h ▸ List.mem_cons_self ..)
        · exact (ih h).imp_right (List.mem_cons_of_mem _)

theorem pairwise_put {key : String} {value : α} {entries : List (String × α)}
    (h : entries.Pairwise fun a b => a.1 < b.1) :
    (put key value entries).Pairwise fun a b => a.1 < b.1 := by
  induction entries with
  | nil => simp [put]
  | cons entry entries ih =>
    obtain ⟨k, v⟩ := entry
    obtain ⟨hFirst, hEntries⟩ := List.pairwise_cons.mp h
    rw [put]
    split
    · rename_i hLess
      refine List.pairwise_cons.mpr ⟨fun x hx => ?_, h⟩
      rcases List.mem_cons.mp hx with rfl | hx
      · exact hLess
      · exact String.lt_trans hLess (hFirst x hx)
    · split
      · rename_i hEq
        subst hEq
        exact List.pairwise_cons.mpr ⟨hFirst, hEntries⟩
      · rename_i hNotLess hNe
        refine List.pairwise_cons.mpr ⟨fun x hx => ?_, ih hEntries⟩
        rcases fst_mem_put hx with hx | hx
        · rw [hx]
          exact Decidable.byContradiction fun hl =>
            hNe (String.le_antisymm (String.not_lt.mp hl) (String.not_lt.mp hNotLess))
        · exact hFirst x hx

def insert (map : StringMap α) (key : String) (value : α) : StringMap α :=
  ⟨put key value map.entries, pairwise_put map.ascending⟩

theorem find?_put (key other : String) (value : α) (entries : List (String × α)) :
    find? other (put key value entries) =
      if other = key then some value else find? other entries := by
  induction entries with
  | nil => simp [put, find?]
  | cons entry entries ih =>
    obtain ⟨k, v⟩ := entry
    rw [put]
    split
    · simp [find?]
    · split
      · rename_i hEq
        subst hEq
        by_cases h : other = key <;> simp [find?, h]
      · rename_i hNe
        by_cases h : other = k
        · subst h
          simp [find?, Ne.symm hNe]
        · simp [find?, h, ih]

theorem get?_insert (map : StringMap α) (key other : String) (value : α) :
    (map.insert key value).get? other = if other = key then some value else map.get? other :=
  find?_put key other value map.entries

end StringMap

end ProvideIndex
