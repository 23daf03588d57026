import ProvideIndex.Value.Basic

/-!
# Shapes of data values

An object is a map from names to values: its fields stand in strictly ascending order of their
names. A value is as deep as its collections are nested.

* `isOrdered`: whether the fields of all objects ascend.
* `depth`: how deep a value is.
* `ofFields_eq`: ascending fields are an object as they are.
-/

namespace ProvideIndex.Value

mutual

/-- Whether the fields of every object in a value ascend. -/
def isOrdered : Value → Bool
  | .list items => areOrdered items
  | .object fields => decide (fields.Pairwise fun a b => a.1 < b.1) && haveOrdered fields
  | _ => true

def areOrdered : List Value → Bool
  | [] => true
  | item :: items => item.isOrdered && areOrdered items

def haveOrdered : List (String × Value) → Bool
  | [] => true
  | (_, value) :: fields => value.isOrdered && haveOrdered fields

end

mutual

/-- How many collections of a value lie in one another. -/
def depth : Value → Nat
  | .list items => itemsDepth items + 1
  | .object fields => fieldsDepth fields + 1
  | _ => 0

def itemsDepth : List Value → Nat
  | [] => 0
  | item :: items => max item.depth (itemsDepth items)

def fieldsDepth : List (String × Value) → Nat
  | [] => 0
  | (_, value) :: fields => max value.depth (fieldsDepth fields)

end

variable {items : List Value} {fields : List (String × Value)} {limit : Nat}

theorem isOrdered_of_mem {item : Value} (h : areOrdered items = true) (hMem : item ∈ items) :
    item.isOrdered = true := by
  induction items with
  | nil => cases hMem
  | cons first items ih =>
    rw [areOrdered, Bool.and_eq_true] at h
    rcases List.mem_cons.mp hMem with rfl | hMem
    · exact h.1
    · exact ih h.2 hMem

theorem isOrdered_of_mem_fields {field : String × Value} (h : haveOrdered fields = true)
    (hMem : field ∈ fields) : field.2.isOrdered = true := by
  induction fields with
  | nil => cases hMem
  | cons first fields ih =>
    rw [haveOrdered, Bool.and_eq_true] at h
    rcases List.mem_cons.mp hMem with rfl | hMem
    · exact h.1
    · exact ih h.2 hMem

theorem depth_le_of_mem {item : Value} (h : itemsDepth items ≤ limit) (hMem : item ∈ items) :
    item.depth ≤ limit := by
  induction items with
  | nil => cases hMem
  | cons first items ih =>
    rw [itemsDepth, Nat.max_le] at h
    rcases List.mem_cons.mp hMem with rfl | hMem
    · exact h.1
    · exact ih h.2 hMem

theorem depth_le_of_mem_fields {field : String × Value} (h : fieldsDepth fields ≤ limit)
    (hMem : field ∈ fields) : field.2.depth ≤ limit := by
  induction fields with
  | nil => cases hMem
  | cons first fields ih =>
    rw [fieldsDepth, Nat.max_le] at h
    rcases List.mem_cons.mp hMem with rfl | hMem
    · exact h.1
    · exact ih h.2 hMem

/-! ### Objects from their fields -/

/-- A name behind all others is put at the end. -/
theorem put_of_last {name : String} {value : Value} (h : ∀ field ∈ fields, field.1 < name) :
    StringMap.put name value fields = fields ++ [(name, value)] := by
  induction fields with
  | nil => rfl
  | cons field fields ih =>
    have hLess := h field (List.mem_cons_self ..)
    have hMore := ih fun field hMem => h field (List.mem_cons_of_mem _ hMem)
    rw [StringMap.put, if_neg (String.lt_asymm hLess), if_neg (String.ne_of_lt hLess).symm, hMore,
      List.cons_append]

theorem foldl_put {before : List (String × Value)}
    (h : (before ++ fields).Pairwise fun a b => a.1 < b.1) :
    fields.foldl (fun all (name, value) => StringMap.put name value all) before =
      before ++ fields := by
  induction fields generalizing before with
  | nil => exact (List.append_nil _).symm
  | cons field fields ih =>
    obtain ⟨name, value⟩ := field
    have hLast : ∀ other ∈ before, other.1 < name := fun other hMem =>
      (List.pairwise_append.mp h).2.2 other hMem (name, value) (List.mem_cons_self ..)
    have hSplit : before ++ (name, value) :: fields = before ++ [(name, value)] ++ fields := by
      rw [List.append_assoc]
      rfl
    rw [hSplit] at h
    rw [List.foldl_cons, hSplit, ← ih h, ← put_of_last hLast]

theorem ofFields_eq (h : fields.Pairwise fun a b => a.1 < b.1) :
    ofFields fields = .object fields := by
  rw [ofFields, foldl_put (by rwa [List.nil_append]), List.nil_append]

end ProvideIndex.Value
