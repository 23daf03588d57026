/-!
# Literal matching

Matching of fixed words against a text, as a list of characters: at its start, at its end, anywhere
in it, and at the start of one of its lines.
-/

namespace ProvideIndex.Text

/-- What is left of a text after a word at its start. -/
def after? : List Char → List Char → Option (List Char)
  | [], text => some text
  | _ :: _, [] => none
  | w :: word, c :: text => if w = c then after? word text else none

def startsWith (word text : List Char) : Bool := (after? word text).isSome

def endsWith (word text : List Char) : Bool := startsWith word.reverse text.reverse

/-- Whether some tail of the text satisfies `p`. -/
def anyTail (p : List Char → Bool) : List Char → Bool
  | [] => p []
  | c :: text => p (c :: text) || anyTail p text

def contains (word text : List Char) : Bool := anyTail (startsWith word) text

/--
Whether a line of the text, taken from its start to the end of the whole text, satisfies `p`.
`lineStart` says whether the text itself begins a line; a line begins after each line feed.
-/
def anyLine (p : List Char → Bool) (lineStart : Bool) : List Char → Bool
  | [] => lineStart && p []
  | c :: text => (lineStart && p (c :: text)) || anyLine p (c == '\n') text

theorem after?_eq_some {word text rest : List Char} :
    after? word text = some rest ↔ text = word ++ rest := by
  induction word generalizing text with
  | nil => simp [after?, eq_comm]
  | cons w word ih =>
    cases text with
    | nil => simp [after?]
    | cons c text =>
      by_cases h : w = c
      · simp [after?, h, ih]
      · simp [after?, h, Ne.symm h]

/-- A word is not found across a character that it does not hold. -/
theorem after?_append_cons {separator : Char} {word : List Char} (hSeparator : separator ∉ word)
    (text rest : List Char) :
    after? word (text ++ separator :: rest) =
      (after? word text).map (· ++ separator :: rest) := by
  induction word generalizing text with
  | nil => rfl
  | cons w word ih =>
    rw [List.mem_cons, not_or] at hSeparator
    cases text with
    | nil => exact if_neg (Ne.symm hSeparator.1)
    | cons c text =>
      rw [List.cons_append, after?, after?]
      by_cases hSame : w = c
      · rw [if_pos hSame, if_pos hSame, ih hSeparator.2]
      · rw [if_neg hSame, if_neg hSame, Option.map_none]

theorem startsWith_iff {word text : List Char} :
    startsWith word text = true ↔ ∃ rest, text = word ++ rest := by
  simp [startsWith, Option.isSome_iff_exists, after?_eq_some]

theorem startsWith_iff_isPrefix {word text : List Char} :
    startsWith word text = true ↔ word <+: text := by
  rw [startsWith_iff]
  exact exists_congr fun rest => eq_comm

theorem endsWith_iff {word text : List Char} :
    endsWith word text = true ↔ ∃ rest, text = rest ++ word := by
  rw [endsWith, startsWith_iff]
  constructor
  · rintro ⟨rest, h⟩
    exact ⟨rest.reverse, by simpa using congrArg List.reverse h⟩
  · rintro ⟨rest, rfl⟩
    exact ⟨rest.reverse, by simp⟩

theorem endsWith_iff_isSuffix {word text : List Char} :
    endsWith word text = true ↔ word <:+ text := by
  rw [endsWith_iff]
  exact exists_congr fun rest => eq_comm

theorem anyTail_iff {p : List Char → Bool} {text : List Char} :
    anyTail p text = true ↔ ∃ before rest, text = before ++ rest ∧ p rest = true := by
  induction text with
  | nil =>
    constructor
    · exact fun h => ⟨[], [], rfl, h⟩
    · rintro ⟨before, rest, hText, h⟩
      obtain ⟨-, rfl⟩ := List.append_eq_nil_iff.mp hText.symm
      exact h
  | cons c text ih =>
    rw [anyTail, Bool.or_eq_true, ih]
    constructor
    · rintro (h | ⟨before, rest, rfl, h⟩)
      · exact ⟨[], _, rfl, h⟩
      · exact ⟨c :: before, rest, rfl, h⟩
    · rintro ⟨before, rest, hText, h⟩
      cases before with
      | nil => exact .inl (by simpa using hText ▸ h)
      | cons b before =>
        obtain ⟨-, rfl⟩ := List.cons_eq_cons.mp hText
        exact .inr ⟨before, rest, rfl, h⟩

theorem contains_iff_isInfix {word text : List Char} :
    contains word text = true ↔ word <:+: text := by
  simp only [contains, anyTail_iff, startsWith_iff]
  constructor
  · rintro ⟨before, -, rfl, rest, rfl⟩
    exact ⟨before, rest, List.append_assoc ..⟩
  · rintro ⟨before, rest, rfl⟩
    exact ⟨before, word ++ rest, List.append_assoc .., rest, rfl⟩

end ProvideIndex.Text
