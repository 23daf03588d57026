import ProvideIndex.Proofs.Label.Characters
import ProvideIndex.Proofs.Path.Parts

/-!
# Labels, part by part

`Label.ofPath` exchanges `closure/goog` in the whole text of a path before it cuts the path. Seen
from the parts of the path, a part that begins with `goog` behind one that ends in `closure` begins
with `library` in the build tree; every other part stays.

* `replace_eq`: the exchange, part by part.
* `HasParts.ofPath_eq`: the label of a path from its directories and its base name.
* `stem_script`: what is left of the base name of a script.
-/

namespace ProvideIndex

open Text

namespace Label

variable {previous part name rest : List Char} {parts : List (List Char)}

/-- A part of a path in the build tree, from the part before it. -/
def builtPart (previous part : List Char) : List Char :=
  exchangePart "closure".toList "goog".toList "library".toList previous part

def builtParts (parts : List (List Char)) : List (List Char) :=
  List.zipWith builtPart ([] :: parts) parts

theorem sourceRoot_eq : sourceRoot.toList = "closure".toList ++ '/' :: "goog".toList := by decide

theorem buildRoot_eq : buildRoot.toList = "closure".toList ++ '/' :: "library".toList := by decide

/-- Neither `goog` nor `library` has the first letter of `closure`. -/
theorem not_mem_goog : ∀ c ∈ "closure".toList.head?, c ∉ "goog".toList := by simp

theorem not_mem_library : ∀ c ∈ "closure".toList.head?, c ∉ "library".toList := by
  simp

/-! ### Built parts -/

theorem replace_eq (h : ∀ part ∈ parts, '/' ∉ part) :
    replace sourceRoot.toList buildRoot.toList (join '/' parts) = join '/' (builtParts parts) := by
  rw [sourceRoot_eq, buildRoot_eq]
  exact replace_join (by decide) (by decide) (by decide) not_mem_goog h

theorem builtPart_append (h : "closure".toList <:+ previous) (rest : List Char) :
    builtPart previous ("goog".toList ++ rest) = "library".toList ++ rest :=
  exchangePart_append h rest

theorem builtPart_of_apart (h : ¬ IsOver "closure".toList "goog".toList previous part) :
    builtPart previous part = part :=
  exchangePart_of_apart h

/-- A part is built as `goog` is exchanged in it, or it stays. -/
theorem builtPart_cases (previous part : List Char) :
    (∃ rest, part = "goog".toList ++ rest ∧ builtPart previous part = "library".toList ++ rest) ∨
      builtPart previous part = part := by
  by_cases hOver : IsOver "closure".toList "goog".toList previous part
  · obtain ⟨hEnd, rest, rfl⟩ := hOver
    exact Or.inl ⟨rest, rfl, builtPart_append hEnd rest⟩
  · exact Or.inr (builtPart_of_apart hOver)

theorem not_mem_builtPart (h : '/' ∉ part) : '/' ∉ builtPart previous part := by
  rcases builtPart_cases previous part with ⟨rest, rfl, hBuilt⟩ | hBuilt
  · rw [hBuilt, List.mem_append, not_or]
    exact ⟨by decide, (not_or.mp (List.mem_append.not.mp h)).2⟩
  · rwa [hBuilt]

theorem builtPart_eq_nil (h : builtPart previous part = []) : part = [] := by
  rcases builtPart_cases previous part with ⟨rest, rfl, hBuilt⟩ | hBuilt
  · rw [hBuilt] at h
    exact absurd (List.append_eq_nil_iff.mp h).1 (by decide)
  · rw [← hBuilt, h]

/-- An extension stays as it is, whatever is built in front of it. -/
theorem builtPart_append_point (previous part rest : List Char) :
    builtPart previous (part ++ '.' :: rest) = builtPart previous part ++ '.' :: rest := by
  by_cases hOver : IsOver "closure".toList "goog".toList previous part
  · obtain ⟨hEnd, more, rfl⟩ := hOver
    rw [List.append_assoc, builtPart_append hEnd, builtPart_append hEnd, List.append_assoc]
  · have hApart : ¬ IsOver "closure".toList "goog".toList previous (part ++ '.' :: rest) := by
      rwa [IsOver, prefix_append_cons_iff (by decide)]
    rw [builtPart_of_apart hApart, builtPart_of_apart hOver]

theorem not_mem_builtParts (h : ∀ part ∈ parts, '/' ∉ part) :
    ∀ part ∈ builtParts parts, '/' ∉ part := by
  intro built hBuilt
  rw [builtParts, ← List.map_uncurry_zip_eq_zipWith] at hBuilt
  obtain ⟨⟨previous, part⟩, hPair, rfl⟩ := List.mem_map.mp hBuilt
  exact not_mem_builtPart (h part (List.of_mem_zip hPair).2)

theorem builtParts_eq_nil : builtParts parts = [] ↔ parts = [] := by
  simp [builtParts]

theorem builtParts_concat (directories : List (List Char)) (name : List Char) :
    builtParts (directories ++ [name]) =
      builtParts directories ++ [builtPart (directories.getLastD []) name] := by
  rw [builtParts, builtParts]
  generalize [] = before
  induction directories generalizing before with
  | nil => rfl
  | cons first others ih =>
    rw [List.cons_append, List.zipWith_cons_cons, List.zipWith_cons_cons, ih, List.cons_append,
      List.getLastD_cons]

/-! ### Stems -/

theorem stem_script (h : name ≠ []) : stem (name ++ ".js".toList) = name := by
  have hExtension : ".js".toList = '.' :: ['j', 's'] := rfl
  have hFront : name.isEmpty = false := List.isEmpty_eq_false_iff.mpr h
  rw [stem, hExtension, splitLast?_append_cons name (by decide)]
  simp only [hFront, Bool.false_eq_true, if_false]

end Label

namespace Path.HasParts

open Label

variable {path : String} {directories : List (List Char)} {name : List Char}

/-- The label of a path, from its directories and its base name. -/
theorem ofPath_eq (h : HasParts path directories name) :
    ofPath path = ⟨String.ofList (Text.join '/' (builtParts directories)),
      String.ofList (stem (builtPart (directories.getLastD []) name))⟩ := by
  have hBuilt : replace sourceRoot.toList buildRoot.toList path.toList =
      Text.join '/' (builtParts directories ++ [builtPart (directories.getLastD []) name]) := by
    rw [h.eq_join, replace_eq h.not_mem, builtParts_concat]
  have hName : '/' ∉ builtPart (directories.getLastD []) name := not_mem_builtPart h.not_mem_name
  rw [ofPath, hBuilt]
  cases hDirectories : builtParts directories with
  | nil =>
    have hWhole :
        splitLast? '/' (Text.join '/' [builtPart (directories.getLastD []) name]) = none :=
      splitLast?_eq_none.mpr hName
    rw [List.nil_append, hWhole]
    rfl
  | cons first others =>
    rw [join_concat _ (List.cons_ne_nil _ _), splitLast?_append_cons _ hName]

end Path.HasParts

namespace Label

variable {path : String} {name : List Char}

/-! ### What a label always has -/

theorem eq_nil_of_stem (h : stem name = []) : name = [] := by
  rw [stem] at h
  cases hSplit : splitLast? '.' name with
  | none => rwa [hSplit] at h
  | some cut =>
    rw [hSplit] at h
    dsimp only at h
    split at h
    · exact h
    · rename_i hBefore
      exact absurd (List.isEmpty_iff.mpr h) hBefore

/-- A path below a directory with a name has a label with a directory. -/
theorem directory_ofPath_ne (hSlash : '/' ∈ path.toList) (hStart : path.toList.head? ≠ some '/') :
    (ofPath path).directory ≠ "" := by
  obtain ⟨directories, name, hParts⟩ := Path.exists_hasParts path
  intro hEmpty
  have hBuilt : join '/' (builtParts directories) = [] := by
    rw [hParts.ofPath_eq] at hEmpty
    exact String.ofList_injective hEmpty
  cases directories with
  | nil => exact hParts.ne_nil hSlash rfl
  | cons first others =>
    cases others with
    | nil =>
      -- The only directory is nothing, so the path begins with the slash behind it.
      obtain rfl : first = [] := builtPart_eq_nil hBuilt
      refine hStart ?_
      rw [hParts.eq_append (List.cons_ne_nil _ _)]
      rfl
    | cons second others =>
      exact absurd hBuilt (List.append_ne_nil_of_right_ne_nil _ (List.cons_ne_nil _ _))

theorem name_ofPath_ne (hSlash : '/' ∈ path.toList) (hScript : Source.isScriptPath path = true) :
    (ofPath path).name ≠ "" := by
  obtain ⟨directories, name, hParts⟩ := Path.exists_hasParts path
  have hEnd : ".js".toList <:+ name :=
    hParts.suffix_name (hParts.ne_nil hSlash) (by decide) (endsWith_iff_isSuffix.mp hScript)
  intro hEmpty
  rw [hParts.ofPath_eq] at hEmpty
  have hBuilt : builtPart (directories.getLastD []) name = [] :=
    eq_nil_of_stem (String.ofList_injective hEmpty)
  rw [builtPart_eq_nil hBuilt] at hEnd
  exact absurd (List.suffix_nil.mp hEnd) (by decide)

end Label

end ProvideIndex
