import ProvideIndex.Label
import ProvideIndex.Proofs.Text.Parts
import ProvideIndex.Source.Classify

/-!
# The characters of a label

A label is made from a path by exchanging a word, cutting the path at its last slash and leaving out
the extension. None of this adds or loses a character that occurs neither in the two words nor in
the marks nor in the extension of scripts.

* `Label.mem_path_of_mem_text`: a label holds no other characters that its path does not hold.
* `Label.mem_text_ofPath_iff`: the label of a script holds the same other characters as its path.
-/

namespace ProvideIndex

namespace Label

variable {c : Char} {path : String} {name before : List Char}

theorem stem_isPrefix (name : List Char) : stem name <+: name := by
  rw [stem]
  cases hSplit : Text.splitLast? '.' name with
  | none => exact List.prefix_rfl
  | some cut =>
    obtain ⟨before, extension⟩ := cut
    dsimp only
    split
    · exact List.prefix_rfl
    · rw [(Text.splitLast?_some hSplit).1]
      exact List.prefix_append ..

/-- All that a stem leaves out is the extension and the point before it. -/
theorem mem_stem_iff (hPoint : c ≠ '.')
    (hExtension : ∀ before extension, name = before ++ '.' :: extension → '.' ∉ extension →
      c ∉ extension) : c ∈ stem name ↔ c ∈ name := by
  rw [stem]
  cases hSplit : Text.splitLast? '.' name with
  | none => rfl
  | some parts =>
    obtain ⟨before, extension⟩ := parts
    obtain ⟨hName, hLast⟩ := Text.splitLast?_some hSplit
    have hOut := hExtension before extension hName hLast
    dsimp only
    split
    · rfl
    · simp [hName, hPoint, hOut]

/-- The characters in which the label of a script may differ from its path. -/
def marks : List Char := sourceRoot.toList ++ buildRoot.toList ++ "//:.js".toList

theorem mem_text_iff (label : Label) :
    c ∈ label.text.toList ↔
      c = '/' ∨ c ∈ label.directory.toList ∨ c = ':' ∨ c ∈ label.name.toList := by
  simp [text]

theorem not_mem_marks (hc : c ∉ marks) :
    (c ∉ sourceRoot.toList ∧ c ∉ buildRoot.toList) ∧ c ≠ '/' ∧ c ≠ ':' ∧ c ≠ '.' ∧
      c ∉ ['j', 's'] := by
  simp only [marks, List.mem_append, not_or] at hc
  exact ⟨hc.1, by simpa using hc.2⟩

theorem mem_path_of_mem_text (hc : c ∉ marks) (h : c ∈ (ofPath path).text.toList) :
    c ∈ path.toList := by
  obtain ⟨⟨hSource, hBuild⟩, hSlash, hColon, -⟩ := not_mem_marks hc
  have hStem (name : List Char) (hMem : c ∈ stem name) : c ∈ name :=
    (stem_isPrefix name).subset hMem
  rw [← Text.mem_replace_iff (by decide) hSource hBuild]
  rw [mem_text_iff, or_iff_right hSlash, or_iff_right hColon, ofPath] at h
  cases hSplit : Text.splitLast? '/'
      (Text.replace sourceRoot.toList buildRoot.toList path.toList) with
  | none =>
    simp only [hSplit, String.toList_ofList] at h
    rcases h with hDirectory | hName
    · exact absurd hDirectory List.not_mem_nil
    · exact hStem _ hName
  | some parts =>
    obtain ⟨directory, name⟩ := parts
    simp only [hSplit, String.toList_ofList] at h
    rw [(Text.splitLast?_some hSplit).1, List.mem_append, List.mem_cons]
    exact h.imp_right fun hName => Or.inr (hStem name hName)

theorem mem_text_ofPath_iff (hScript : Source.isScriptPath path = true) (hc : c ∉ marks) :
    c ∈ (ofPath path).text.toList ↔ c ∈ path.toList := by
  obtain ⟨⟨hSource, hBuild⟩, hSlash, hColon, hPoint, hScriptEnd⟩ := not_mem_marks hc
  generalize hBuilt : Text.replace sourceRoot.toList buildRoot.toList path.toList = built
  have hMem : c ∈ built ↔ c ∈ path.toList := by
    rw [← hBuilt, Text.mem_replace_iff (by decide) hSource hBuild]
  have hExtension (before extension : List Char) (h : built = before ++ '.' :: extension)
      (hLast : '.' ∉ extension) : c ∉ extension := by
    obtain ⟨start, hPath⟩ := Text.endsWith_iff.mp hScript
    have hEnd : built =
        Text.replace sourceRoot.toList buildRoot.toList start ++ '.' :: ['j', 's'] := by
      rw [← hBuilt, hPath]
      exact Text.replace_append (by decide) (by decide)
    rw [Text.eq_of_append_cons_eq (h.symm.trans hEnd) hLast (by decide)]
    exact hScriptEnd
  rw [← hMem, ofPath, hBuilt, mem_text_iff]
  cases hSplit : Text.splitLast? '/' built with
  | none =>
    simp [hSlash, hColon, mem_stem_iff hPoint hExtension]
  | some parts =>
    obtain ⟨directory, name⟩ := parts
    obtain ⟨hName, -⟩ := Text.splitLast?_some hSplit
    have hStem : c ∈ stem name ↔ c ∈ name :=
      mem_stem_iff hPoint fun before extension h =>
        hExtension (directory ++ '/' :: before) extension (by simp [hName, h])
    simp [hSlash, hColon, hStem, hName]

end Label

end ProvideIndex
