import ProvideIndex.Path
import ProvideIndex.Proofs.Text.Parts

/-!
# Directories and base name

A path is cut at its slashes into its directories and its base name.

* `exists_hasParts`, `HasParts.eq_join`: every path is made of its parts.
* `HasParts.fileName?_eq`: a base name that names something is the file name of the path.
-/

namespace ProvideIndex.Path

open Text

/-- Whether a path has these directories, from the outermost one on, and this base name. -/
def HasParts (path : String) (directories : List (List Char)) (name : List Char) : Prop :=
  split '/' path.toList = directories ++ [name]

theorem exists_hasParts (path : String) : ∃ directories name, HasParts path directories name := by
  rcases List.eq_nil_or_concat (split '/' path.toList) with h | ⟨directories, name, h⟩
  · exact absurd h (split_ne_nil '/' path.toList)
  · exact ⟨directories, name, h.trans List.concat_eq_append⟩

namespace HasParts

variable {path : String} {directories : List (List Char)} {name : List Char}

theorem eq_join (h : HasParts path directories name) :
    path.toList = Text.join '/' (directories ++ [name]) := by
  rw [← h, join_split]

theorem not_mem (h : HasParts path directories name) :
    ∀ part ∈ directories ++ [name], '/' ∉ part := by
  intro part hPart
  rw [← h] at hPart
  exact not_mem_of_mem_split hPart

theorem not_mem_directories (h : HasParts path directories name) :
    ∀ part ∈ directories, '/' ∉ part :=
  fun part hPart => h.not_mem part (List.mem_append_left _ hPart)

theorem not_mem_name (h : HasParts path directories name) : '/' ∉ name :=
  h.not_mem name (List.mem_append_right _ (List.mem_singleton_self name))

theorem eq_append (h : HasParts path directories name) (hDirectories : directories ≠ []) :
    path.toList = Text.join '/' directories ++ '/' :: name := by
  rw [h.eq_join, join_concat name hDirectories]

theorem ne_nil (h : HasParts path directories name) (hSlash : '/' ∈ path.toList) :
    directories ≠ [] := by
  rintro rfl
  rw [h.eq_join] at hSlash
  exact h.not_mem_name hSlash

/-- A word without a slash that ends the path ends its base name. -/
theorem suffix_name (h : HasParts path directories name) (hDirectories : directories ≠ [])
    {word : List Char} (hWord : '/' ∉ word) (hEnd : word <:+ path.toList) : word <:+ name := by
  rwa [h.eq_append hDirectories, suffix_append_cons_iff hWord] at hEnd

theorem fileName?_eq (h : HasParts path directories name) (hDirectories : directories ≠ [])
    (hName : isIdle name = false) (hParent : name ≠ ['.', '.']) :
    fileName? path = some (String.ofList name) := by
  have hEnd (parts : List (List Char)) : dropIdleEnd (parts ++ [name]) = parts ++ [name] := by
    rw [dropIdleEnd, List.reverse_append, List.reverse_singleton, List.singleton_append,
      List.dropWhile_cons_of_neg (by rw [hName]; exact Bool.false_ne_true), List.reverse_cons,
      List.reverse_reverse]
  obtain ⟨parts, hBody⟩ : ∃ parts, (leadAndBody path.toList).2 = parts ++ [name] := by
    cases directories with
    | nil => exact absurd rfl hDirectories
    | cons first others =>
      rw [HasParts, List.cons_append] at h
      rw [leadAndBody, h]
      dsimp only
      split
      · exact ⟨others, rfl⟩
      · exact ⟨first :: others, rfl⟩
  rw [fileName?]
  simp only [hBody, hEnd, List.getLast?_concat, if_neg, beq_iff_eq, hParent, not_false_eq_true]

end HasParts

end ProvideIndex.Path
