import ProvideIndex.Proofs.Label.Parts
import ProvideIndex.Scan
import Mathlib.Data.List.Chain

/-!
# Labels that collide

No label holds `closure/goog`, and the label of a script tells its path, unless the path holds a
colon or `closure/library`, or its base name is nothing but the extension.

* `not_infix_text`: the exchange leaves no `closure/goog`, nor does the cut into directory and name.
* `eq_of_text_eq`: without a colon in the directory, both parts of a label can be read off.
* `path_eq_of_built`: the exchange can be undone.
* `eq_of_text_ofPath_eq`: so can the loss of the extension.
* `collisions_explained`: the reasons for which two scripts of a tree can have one label.
-/

namespace ProvideIndex

open Text

namespace Label

variable {path : String} {name front : List Char} {parts directories : List (List Char)}

/-! ### What a label does not hold -/

theorem isChain_builtParts (parts : List (List Char)) :
    (builtParts parts).IsChain fun a b => ¬ IsOver "closure".toList "goog".toList a b := by
  have hNew (rest : List Char) : ¬ "goog".toList <+: "library".toList ++ rest := by
    rintro ⟨tail, h⟩
    exact absurd (List.cons_eq_cons.mp h).1 (by decide)
  have hChain : ([] :: builtParts parts).IsChain
      fun a b => ¬ IsOver "closure".toList "goog".toList a b :=
    isChain_exchange not_mem_goog not_mem_library hNew id
  exact hChain.of_cons

theorem not_infix_builtParts (h : ∀ part ∈ parts, '/' ∉ part) :
    ¬ sourceRoot.toList <:+: join '/' (builtParts parts) := by
  rw [sourceRoot_eq, not_infix_join_iff (by decide) (by decide) (by decide) (not_mem_builtParts h)]
  exact isChain_builtParts parts

theorem toList_text (label : Label) :
    label.text.toList = '/' :: '/' :: (label.directory.toList ++ ':' :: label.name.toList) := by
  simp [text]

theorem not_infix_text (path : String) : ¬ sourceRoot.toList <:+: (ofPath path).text.toList := by
  obtain ⟨directories, name, hParts⟩ := Path.exists_hasParts path
  have hDirectory := not_infix_builtParts hParts.not_mem_directories
  have hName : ¬ sourceRoot.toList <:+: stem (builtPart (directories.getLastD []) name) := by
    intro h
    have hSlash : '/' ∈ stem (builtPart (directories.getLastD []) name) := h.subset (by decide)
    exact not_mem_builtPart hParts.not_mem_name ((stem_isPrefix _).subset hSlash)
  have hStart (rest : List Char) : ¬ sourceRoot.toList <+: '/' :: rest := by
    rw [sourceRoot_eq]
    exact not_word_prefix_separator (by decide) (by decide)
  rw [toList_text, List.infix_cons_iff, or_iff_right (hStart _), List.infix_cons_iff,
    or_iff_right (hStart _), infix_append_cons_iff (by decide), hParts.ofPath_eq, not_or]
  simp only [String.toList_ofList]
  exact ⟨hDirectory, hName⟩

/-! ### What a label tells -/

/-- Where no directory holds a colon, the first colon of a label stands behind the directory. -/
theorem eq_of_text_eq {first second : Label} (hFirst : ':' ∉ first.directory.toList)
    (hSecond : ':' ∉ second.directory.toList) (h : first.text = second.text) : first = second := by
  have hText := congrArg String.toList h
  rw [toList_text, toList_text, List.cons_eq_cons, List.cons_eq_cons] at hText
  obtain ⟨hDirectory, hName⟩ := append_cons_inj hFirst hSecond hText.2.2
  obtain ⟨directory, name⟩ := first
  obtain ⟨other, otherName⟩ := second
  obtain rfl : directory = other := String.toList_injective hDirectory
  obtain rfl : name = otherName := String.toList_injective hName
  rfl

theorem not_mem_directory (hParts : Path.HasParts path directories name)
    (hDirectories : directories ≠ []) (hColon : ':' ∉ path.toList) :
    ':' ∉ (ofPath path).directory.toList := by
  rw [hParts.eq_append hDirectories, List.mem_append, not_or] at hColon
  rw [hParts.ofPath_eq, String.toList_ofList, ← replace_eq hParts.not_mem_directories,
    mem_replace_iff (by decide) (by decide) (by decide)]
  exact hColon.1

/-- The base name of a script that is more than its extension, and what its label keeps of it. -/
theorem exists_front (hParts : Path.HasParts path directories name)
    (hDirectories : directories ≠ []) (hScript : Source.isScriptPath path = true)
    (hName : Path.fileName? path ≠ some ".js") :
    ∃ front, name = front ++ ".js".toList ∧
      (ofPath path).name.toList = builtPart (directories.getLastD []) front := by
  obtain ⟨front, rfl⟩ : ".js".toList <:+ name :=
    hParts.suffix_name hDirectories (by decide) (endsWith_iff_isSuffix.mp hScript)
  have hFront : front ≠ [] := by
    rintro rfl
    exact hName (hParts.fileName?_eq hDirectories (by decide) (by decide))
  have hBuilt : builtPart (directories.getLastD []) (front ++ ".js".toList) =
      builtPart (directories.getLastD []) front ++ ".js".toList :=
    builtPart_append_point _ front ['j', 's']
  refine ⟨front, rfl, ?_⟩
  rw [hParts.ofPath_eq, String.toList_ofList, hBuilt, stem_script (mt builtPart_eq_nil hFront)]

theorem isChain_of_unbuilt (hParts : Path.HasParts path directories name)
    (h : ¬ buildRoot.toList <:+: path.toList) :
    ([] :: (directories ++ [name])).IsChain
      fun a b => ¬ IsOver "closure".toList "library".toList a b := by
  rw [buildRoot_eq, hParts.eq_join,
    not_infix_join_iff (by decide) (by decide) (by decide) hParts.not_mem] at h
  refine List.isChain_cons.mpr ⟨fun part _ hOver => ?_, h⟩
  exact absurd (List.suffix_nil.mp hOver.1) (by decide)

theorem join_builtParts (directories : List (List Char)) (hDirectories : directories ≠ [])
    (name : List Char) :
    join '/' (builtParts (directories ++ [name])) =
      join '/' (builtParts directories) ++ '/' :: builtPart (directories.getLastD []) name := by
  rw [builtParts_concat, join_concat _ (mt builtParts_eq_nil.mp hDirectories)]

/-- Parts that are built alike are the same, where nothing stood that looks as if it were built. -/
theorem path_eq_of_built {first second : String} {others : List (List Char)} {other : List Char}
    (hParts : Path.HasParts first directories name) (hOthers : Path.HasParts second others other)
    (hFirst : ¬ buildRoot.toList <:+: first.toList)
    (hSecond : ¬ buildRoot.toList <:+: second.toList)
    (h : join '/' (builtParts (directories ++ [name])) =
      join '/' (builtParts (others ++ [other]))) :
    first = second := by
  have hBuilt : builtParts (directories ++ [name]) = builtParts (others ++ [other]) :=
    (join_inj (by simp [builtParts_eq_nil]) (by simp [builtParts_eq_nil])
      (not_mem_builtParts hParts.not_mem) (not_mem_builtParts hOthers.not_mem)).mp h
  have hSame : directories ++ [name] = others ++ [other] :=
    exchange_injective (isChain_of_unbuilt hParts hFirst) (isChain_of_unbuilt hOthers hSecond)
      hBuilt
  refine String.toList_injective ?_
  rw [hParts.eq_join, hOthers.eq_join, hSame]

/-- The reasons for which the label of a script may be that of another one. -/
def IsAmbiguous (path : String) : Prop :=
  ':' ∈ path.toList ∨ buildRoot.toList <:+: path.toList ∨ Path.fileName? path = some ".js"

theorem eq_of_text_ofPath_eq {first second : String} (hFirstSlash : '/' ∈ first.toList)
    (hSecondSlash : '/' ∈ second.toList) (hFirstScript : Source.isScriptPath first = true)
    (hSecondScript : Source.isScriptPath second = true) (hFirst : ¬ IsAmbiguous first)
    (hSecond : ¬ IsAmbiguous second) (h : (ofPath first).text = (ofPath second).text) :
    first = second := by
  obtain ⟨directories, name, hParts⟩ := Path.exists_hasParts first
  obtain ⟨others, other, hOthers⟩ := Path.exists_hasParts second
  simp only [IsAmbiguous, not_or] at hFirst hSecond
  have hDirectories := hParts.ne_nil hFirstSlash
  have hOtherDirectories := hOthers.ne_nil hSecondSlash
  have hLabel : ofPath first = ofPath second :=
    eq_of_text_eq (not_mem_directory hParts hDirectories hFirst.1)
      (not_mem_directory hOthers hOtherDirectories hSecond.1) h
  -- With the extension put back, both base names are parts of what the exchange made.
  obtain ⟨front, rfl, hFront⟩ := exists_front hParts hDirectories hFirstScript hFirst.2.2
  obtain ⟨otherFront, rfl, hOtherFront⟩ :=
    exists_front hOthers hOtherDirectories hSecondScript hSecond.2.2
  refine path_eq_of_built hParts hOthers hFirst.2.1 hSecond.2.1 ?_
  have hDirectory : join '/' (builtParts directories) = join '/' (builtParts others) := by
    rw [hParts.ofPath_eq, hOthers.ofPath_eq] at hLabel
    exact String.ofList_injective (congrArg Label.directory hLabel)
  have hName : builtPart (directories.getLastD []) front =
      builtPart (others.getLastD []) otherFront := by
    rw [← hFront, ← hOtherFront, hLabel]
  have hScript (previous front : List Char) :
      builtPart previous (front ++ ".js".toList) = builtPart previous front ++ ".js".toList :=
    builtPart_append_point previous front ['j', 's']
  rw [join_builtParts _ hDirectories, join_builtParts _ hOtherDirectories, hDirectory, hScript,
    hScript, hName]

/-- Whether a path is that of a script below a scan root. -/
structure IsScriptBelow (path : String) : Prop where
  below : ∃ root ∈ Scan.roots, ∃ name, path = root.path ++ "/" ++ name
  isScript : Source.isScriptPath path = true

theorem IsScriptBelow.slash (h : IsScriptBelow path) : '/' ∈ path.toList := by
  obtain ⟨root, -, name, rfl⟩ := h.below
  simp

/--
No label holds `closure/goog`. Two scripts of a tree have the same label only if one of them holds a
colon or `closure/library` in its path, or is called `.js`.
-/
theorem collisions_explained :
    (∀ path, ¬ sourceRoot.toList <:+: (ofPath path).text.toList) ∧
      ∀ first second, IsScriptBelow first → IsScriptBelow second → first ≠ second →
        (ofPath first).text = (ofPath second).text → IsAmbiguous first ∨ IsAmbiguous second := by
  refine ⟨not_infix_text, fun first second hFirst hSecond hNe hText => ?_⟩
  by_contra hNone
  rw [not_or] at hNone
  exact hNe (eq_of_text_ofPath_eq hFirst.slash hSecond.slash hFirst.isScript hSecond.isScript
    hNone.1 hNone.2 hText)

/-- A colon of a label need not be the one behind the directory. -/
theorem collision_of_colon :
    (ofPath "closure/goog/a/b:c.js").text = (ofPath "closure/goog/a:b/c.js").text ∧
      (IsAmbiguous "closure/goog/a/b:c.js" ∨ IsAmbiguous "closure/goog/a:b/c.js") := by
  have hSame : (ofPath "closure/goog/a/b:c.js").text = (ofPath "closure/goog/a:b/c.js").text := by
    decide
  refine ⟨hSame, collisions_explained.2 _ _ ⟨?_, by decide⟩ ⟨?_, by decide⟩ (by decide) hSame⟩
  · exact ⟨_, List.mem_cons_self, "a/b:c.js", by decide⟩
  · exact ⟨_, List.mem_cons_self, "a:b/c.js", by decide⟩

end Label

end ProvideIndex
