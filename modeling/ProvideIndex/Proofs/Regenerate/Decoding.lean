import ProvideIndex.Proofs.Regenerate.Literals
import ProvideIndex.Proofs.Source.Declarations
import ProvideIndex.Proofs.Text.Parts

/-!
# The pairs in the text of a table

The text of a table sets symbols and labels between quotes and escapes nothing. As no symbol holds a
quote, the text still tells the pairs of the table, line feeds and backslashes included, as long as
no path of a file holds a quote.

* `pairUp_split`: the quotes of the entries cut the text into the pairs.
* `isUnquoted_of_mem_targets`: neither a symbol nor a label brings in a quote.
* `render_decodes`: the pairs, from the text.
-/

namespace ProvideIndex

namespace Source.File

/-- Whether a file declares what some text declares, and has no quote in its path. -/
structure IsExtracted (file : File) : Prop where
  declared : ∃ content, file.provides = Source.provides content
  unquoted : '\x22' ∉ file.path.toList

end Source.File

namespace TableText

/-- What a table maps to what, in ascending order of symbols. -/
def pairs (table : SymbolTable) : List (String × String) :=
  table.targets.map fun entry => (entry.1, entry.2.text)

/-- Every second piece, in pairs. -/
def pairUp : List (List Char) → List (String × String)
  | _ :: symbol :: _ :: target :: pieces =>
    (String.ofList symbol, String.ofList target) :: pairUp pieces
  | _ => []

/-- The pairs in the text of a table: what stands between the quotes behind the opening. -/
def decode? (text : String) : Option (List (String × String)) :=
  (Text.after? (header ++ packageLine ++ opening).toList text.toList).map fun rest =>
    pairUp (Text.split '\x22' rest)

def IsUnquoted (entry : List Char × List Char) : Prop := '\x22' ∉ entry.1 ∧ '\x22' ∉ entry.2

variable {lead last : List Char} {entry : List Char × List Char}
  {entries : List (List Char × List Char)}

/-! ### Between the quotes -/

theorem split_entryText (hLead : '\x22' ∉ lead) (hEntry : IsUnquoted entry) (rest : List Char) :
    Text.split '\x22' (lead ++ (Go.entryText entry ++ rest)) =
      (lead ++ ['\t']) :: entry.1 :: [':', ' '] :: entry.2 ::
        Text.split '\x22' ([',', '\n'] ++ rest) := by
  have hText : lead ++ (Go.entryText entry ++ rest) = (lead ++ ['\t']) ++ '\x22' :: (entry.1 ++
      '\x22' :: ([':', ' '] ++ '\x22' :: (entry.2 ++ '\x22' :: ([',', '\n'] ++ rest)))) := by
    simp [Go.entryText]
  have hStart : '\x22' ∉ lead ++ ['\t'] := by
    rw [List.mem_append, not_or]
    exact ⟨hLead, by decide⟩
  rw [hText, Text.split_append_cons, Text.split_append_cons, Text.split_append_cons,
    Text.split_append_cons, Text.split_of_not_mem hStart, Text.split_of_not_mem hEntry.1,
    Text.split_of_not_mem hEntry.2]
  rfl

/-- The piece between two entries ends the line of the first and begins that of the second. -/
theorem pairUp_split (hLead : '\x22' ∉ lead) (hLast : '\x22' ∉ last)
    (h : ∀ entry ∈ entries, IsUnquoted entry) :
    pairUp (Text.split '\x22' (lead ++ (entries.flatMap Go.entryText ++ last))) =
      entries.map fun entry => (String.ofList entry.1, String.ofList entry.2) := by
  induction entries generalizing lead with
  | nil =>
    have hWhole : '\x22' ∉ lead ++ last := by
      rw [List.mem_append, not_or]
      exact ⟨hLead, hLast⟩
    rw [List.flatMap_nil, List.nil_append, Text.split_of_not_mem hWhole]
    rfl
  | cons entry entries ih =>
    obtain ⟨hEntry, hEntries⟩ := List.forall_mem_cons.mp h
    rw [List.flatMap_cons, List.append_assoc, split_entryText hLead hEntry, pairUp,
      ih (by decide) hEntries, List.map_cons]

theorem decode?_render {table : SymbolTable}
    (h : ∀ entry ∈ table.targets, IsUnquoted (texts entry)) :
    decode? (render table) = some (pairs table) := by
  have hPairs : pairUp (Text.split '\x22'
      ([] ++ ((table.targets.map texts).flatMap Go.entryText ++ ['\x7d', '\n']))) =
      (table.targets.map texts).map fun entry => (String.ofList entry.1, String.ofList entry.2) :=
    pairUp_split (by simp) (by decide) (List.forall_mem_map.mpr h)
  rw [List.nil_append, List.map_map] at hPairs
  rw [decode?, after?_render, Option.map_some, hPairs, pairs]
  refine congrArg some (List.map_congr_left fun entry _ => ?_)
  simp [texts]

/-! ### The files of a table -/

variable {files others : List Source.File}

theorem isUnquoted_of_mem_targets (hFiles : ∀ file ∈ files, file.IsExtracted)
    {entry : String × Label} (h : entry ∈ (SymbolTable.ofFiles files).targets) :
    IsUnquoted (texts entry) := by
  obtain ⟨symbol, label⟩ := entry
  obtain ⟨path, hOwner, rfl⟩ := SymbolTable.mem_targets_iff.mp h
  obtain ⟨file, hFile, hSymbol, rfl⟩ := SymbolTable.exists_file_of_owner? hOwner
  obtain ⟨⟨content, hContent⟩, hPath⟩ := hFiles file hFile
  rw [hContent] at hSymbol
  constructor
  · intro hMem
    exact (Source.unquoted_of_mem_provides hSymbol).2 _ hMem (Or.inr rfl)
  · intro hMem
    exact hPath (Label.mem_path_of_mem_text (by decide) hMem)

/--
The text of a table tells its pairs, if the symbols are those of some texts and no path holds a
quote. So tables have the same text exactly if they have the same pairs.
-/
theorem render_decodes (hFiles : ∀ file ∈ files, file.IsExtracted)
    (hOthers : ∀ file ∈ others, file.IsExtracted) :
    decode? (render (.ofFiles files)) = some (pairs (.ofFiles files)) ∧
      (render (.ofFiles files) = render (.ofFiles others) ↔
        pairs (.ofFiles files) = pairs (.ofFiles others)) := by
  have hDecode := decode?_render fun _ => isUnquoted_of_mem_targets hFiles
  have hOther := decode?_render fun _ => isUnquoted_of_mem_targets hOthers
  refine ⟨hDecode, fun h => ?_, fun h => ?_⟩
  · rw [h, hOther] at hDecode
    exact (Option.some.inj hDecode).symm
  · rw [pairs, pairs] at h
    rw [render_eq, render_eq, h]

/-- A library whose symbol holds a line feed and a backslash, and whose path holds a backslash. -/
def unescaped (testOnly : Bool) : List Source.File :=
  [⟨"closure/goog/a\\.js", .library (Source.provides "goog.provide('x\n\\');") [] testOnly⟩]

theorem unescaped_decodes :
    (∀ testOnly, ∀ file ∈ unescaped testOnly, file.IsExtracted) ∧
      decode? (render (.ofFiles (unescaped false))) =
          some [("x\n\\", "//closure/library:a\\")] ∧
      render (.ofFiles (unescaped false)) = render (.ofFiles (unescaped true)) := by
  have hFiles (testOnly : Bool) : ∀ file ∈ unescaped testOnly, file.IsExtracted := by
    intro file hFile
    obtain rfl := List.mem_singleton.mp hFile
    have hPath : '\x22' ∉ "closure/goog/a\\.js".toList := by decide
    exact ⟨⟨_, rfl⟩, hPath⟩
  have hPairs (testOnly : Bool) : pairs (.ofFiles (unescaped testOnly)) =
      [("x\n\\", "//closure/library:a\\")] := by
    cases testOnly <;> decide +kernel
  obtain ⟨hDecode, hSame⟩ := render_decodes (hFiles false) (hFiles true)
  rw [hPairs] at hDecode
  exact ⟨hFiles, hDecode, hSame.mpr ((hPairs false).trans (hPairs true).symm)⟩

end TableText

end ProvideIndex
