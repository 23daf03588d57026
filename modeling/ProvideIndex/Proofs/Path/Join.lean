import ProvideIndex.Path

/-!
# Paths below a base

A relative path below a base is the path after a fixed text.

* `join_lt_join`: paths below a base keep their order.
* `join_join`: a name below a directory below a base, joined in one step or in two.
-/

namespace ProvideIndex.Path

variable {base directory name path : String}

theorem isAbsolute_iff : isAbsolute path = true ↔ path.toList.head? = some '/' := by
  rw [isAbsolute, Text.startsWith_iff]
  exact List.head?_eq_some_iff.symm

/-- A longer path starts as the path does. -/
theorem isAbsolute_append (h : directory ≠ "") :
    isAbsolute (directory ++ path) = isAbsolute directory := by
  rw [Bool.eq_iff_iff, isAbsolute_iff, isAbsolute_iff, String.toList_append]
  cases hChars : directory.toList with
  | nil => exact absurd (String.toList_eq_nil_iff.mp hChars) h
  | cons c rest => rfl

/-- What stands before a relative path below the base. -/
def lead (base : String) : String :=
  if base == "" || Text.endsWith ['/'] base.toList then base else base ++ "/"

theorem join_eq (h : isAbsolute path = false) : join base path = lead base ++ path := by
  rw [join, lead, h, if_neg Bool.false_ne_true]
  split
  · rfl
  · rfl

theorem join_lt_join {other : String} (hPath : isAbsolute path = false)
    (hOther : isAbsolute other = false) (h : path < other) : join base path < join base other := by
  rw [join_eq hPath, join_eq hOther, String.lt_iff, String.toList_append, String.toList_append]
  exact List.append_left_lt h

theorem lead_join (hDirectory : isAbsolute directory = false) (hEmpty : directory ≠ "")
    (hEnd : Text.endsWith ['/'] directory.toList = false) :
    lead (join base directory) = lead base ++ directory ++ "/" := by
  have hNonempty : lead base ++ directory ≠ "" := by
    intro h
    exact hEmpty (String.append_eq_empty_iff.mp h).2
  have hOpen : Text.endsWith ['/'] (lead base ++ directory).toList = false := by
    rw [Bool.eq_false_iff] at hEnd ⊢
    intro h
    obtain ⟨rest, hRest⟩ := Text.endsWith_iff.mp h
    rw [String.toList_append] at hRest
    have hLast := congrArg List.getLast? hRest
    rw [List.getLast?_append, List.getLast?_concat] at hLast
    cases hChar : directory.toList.getLast? with
    | none => exact hEmpty (String.toList_eq_nil_iff.mp (List.getLast?_eq_none_iff.mp hChar))
    | some last =>
      rw [hChar, Option.some_or] at hLast
      rw [hLast] at hChar
      exact hEnd (Text.endsWith_iff.mpr (List.getLast?_eq_some_iff.mp hChar))
  rw [join_eq hDirectory, lead, hOpen, Bool.or_false, if_neg]
  rw [beq_iff_eq]
  exact hNonempty

theorem join_join (hDirectory : isAbsolute directory = false) (hEmpty : directory ≠ "")
    (hEnd : Text.endsWith ['/'] directory.toList = false) (hName : isAbsolute name = false) :
    join (join base directory) name = join base (directory ++ "/" ++ name) := by
  have hPath : isAbsolute (directory ++ "/" ++ name) = false := by
    rw [String.append_assoc, isAbsolute_append hEmpty, hDirectory]
  rw [join_eq hName, join_eq hPath, lead_join hDirectory hEmpty hEnd, String.append_assoc,
    String.append_assoc, String.append_assoc]

end ProvideIndex.Path
