/-!
# Ascending lists of texts

Texts are ordered by code points. `ascending` arranges texts in strictly ascending order, each once;
its members are those of the list it is given, so order and repetitions of that list do not matter.
-/

namespace ProvideIndex.Text

/-- Puts a text into its place in an ascending list, unless the list has it already. -/
def insertAscending (text : String) : List String → List String
  | [] => [text]
  | first :: texts =>
    if text < first then text :: first :: texts
    else if text = first then first :: texts
    else first :: insertAscending text texts

def ascending : List String → List String
  | [] => []
  | text :: texts => insertAscending text (ascending texts)

theorem mem_insertAscending {x text : String} {texts : List String} :
    x ∈ insertAscending text texts ↔ x = text ∨ x ∈ texts := by
  induction texts with
  | nil => simp [insertAscending]
  | cons first texts ih =>
    rw [insertAscending]
    split
    · simp
    · split
      · simp_all
      · simp only [List.mem_cons, ih]
        constructor
        · rintro (h | h | h) <;> simp [h]
        · rintro (h | h | h) <;> simp [h]

theorem mem_ascending {x : String} {texts : List String} : x ∈ ascending texts ↔ x ∈ texts := by
  induction texts with
  | nil => simp [ascending]
  | cons text texts ih => simp [ascending, mem_insertAscending, ih]

theorem pairwise_insertAscending {text : String} {texts : List String}
    (h : texts.Pairwise (· < ·)) : (insertAscending text texts).Pairwise (· < ·) := by
  induction texts with
  | nil => simp [insertAscending]
  | cons first texts ih =>
    obtain ⟨hFirst, hTexts⟩ := List.pairwise_cons.mp h
    rw [insertAscending]
    split
    · rename_i hLess
      refine List.pairwise_cons.mpr ⟨fun x hx => ?_, h⟩
      rcases List.mem_cons.mp hx with rfl | hx
      · exact hLess
      · exact String.lt_trans hLess (hFirst x hx)
    · split
      · exact h
      · rename_i hNotLess hNe
        refine List.pairwise_cons.mpr ⟨fun x hx => ?_, ih hTexts⟩
        rcases mem_insertAscending.mp hx with rfl | hx
        · exact Decidable.byContradiction fun h =>
            hNe (String.le_antisymm (String.not_lt.mp h) (String.not_lt.mp hNotLess))
        · exact hFirst x hx

theorem pairwise_ascending (texts : List String) : (ascending texts).Pairwise (· < ·) := by
  induction texts with
  | nil => simp [ascending]
  | cons text texts ih => exact pairwise_insertAscending ih

end ProvideIndex.Text
