import ProvideIndex.Proofs.Go.MapLiteral
import ProvideIndex.Proofs.Label.Characters
import ProvideIndex.Proofs.Regenerate.Table

/-!
# The written table as Go source

The lines of the table set symbols and labels between quotes as they are. This module says what Go
reads there.

* `reads_iff_plain`: a line, and so the whole table, reads as the symbols and the labels it was made
  from exactly if no symbol and no path of an owner holds a quote, a backslash or a line feed.
* `quotedName_unreadable`: a file with a quote in its name, whose table Go cannot read.
-/

namespace ProvideIndex

namespace Go

variable {text : List Char}

theorem forall_isPlain_iff :
    (∀ c ∈ text, IsPlain c) ↔ ∀ c ∈ ['\x22', '\n', '\\'], c ∉ text := by
  constructor
  · intro h c hc hMem
    have hPlain := h c hMem
    simp only [List.mem_cons, List.not_mem_nil, or_false] at hc
    rcases hc with rfl | rfl | rfl
    · exact hPlain.1 rfl
    · exact hPlain.2.1 rfl
    · exact hPlain.2.2 rfl
  · intro h c hc
    refine ⟨?_, ?_, ?_⟩ <;> rintro rfl <;> exact h _ (by simp) hc

/-- A label is plain exactly if the path of its script is. -/
theorem isPlain_label_iff {path : String} (hScript : Source.isScriptPath path = true) :
    (∀ c ∈ (Label.ofPath path).text.toList, IsPlain c) ↔ ∀ c ∈ path.toList, IsPlain c := by
  have hMarks : ∀ c ∈ ['\x22', '\n', '\\'], c ∉ Label.marks := by
    simp [Label.marks, Label.sourceRoot, Label.buildRoot]
  rw [forall_isPlain_iff, forall_isPlain_iff]
  exact forall₂_congr fun c hc => not_congr (Label.mem_text_ofPath_iff hScript (hMarks c hc))

end Go

namespace TableText

/-- The texts of an entry. -/
def texts (entry : String × Label) : List Char × List Char :=
  (entry.1.toList, entry.2.text.toList)

/-- The strings that a table stands for, in Go. -/
def values (table : SymbolTable) : List Go.Element :=
  table.targets.map fun entry => (Go.bytes entry.1.toList, Go.bytes entry.2.text.toList)

/-- What Go reads in the map literal of a table, which is the last thing in its text. -/
def read? (text : String) : Option (List Go.Element) := do
  let rest ← Text.after? (header ++ packageLine ++ opening).toList text.toList
  let (elements, after) ← Go.map? rest
  if after = ['\n'] then some elements else none

theorem toList_entryLine (symbol target : String) :
    (entryLine symbol target).toList = Go.entryText (symbol.toList, target.toList) := by
  simp [entryLine, Go.entryText]

theorem toList_entryLines (entries : List (String × Label)) :
    (entryLines entries).toList = (entries.map texts).flatMap Go.entryText := by
  induction entries with
  | nil => rfl
  | cons entry entries ih =>
    rw [entryLines, String.toList_append, toList_entryLine, ih, List.map_cons, List.flatMap_cons]
    rfl

theorem after?_render (table : SymbolTable) :
    Text.after? (header ++ packageLine ++ opening).toList (render table).toList =
      some ((table.targets.map texts).flatMap Go.entryText ++ ['\x7d', '\n']) := by
  rw [Text.after?_eq_some, render, String.toList_append, String.toList_append, toList_entryLines,
    List.append_assoc]
  rfl

theorem read?_render (table : SymbolTable) :
    read? (render table) =
      (Go.map? ((table.targets.map texts).flatMap Go.entryText ++ ['\x7d', '\n'])).bind
        fun (elements, after) => if after = ['\n'] then some elements else none := by
  rw [read?, after?_render]
  rfl

theorem read?_render_iff (table : SymbolTable) :
    read? (render table) = some (values table) ↔
      ∀ entry ∈ table.targets, Go.IsPlainEntry (texts entry) := by
  have hKeys : ((table.targets.map texts).map (·.1)).Nodup := by
    rw [List.map_map]
    refine List.pairwise_map.mpr (SymbolTable.pairwise_targets.imp fun hLess hEq => ?_)
    exact String.lt_irrefl _ (String.toList_injective hEq ▸ hLess)
  have hValues : values table =
      (table.targets.map texts).map fun texts => (Go.bytes texts.1, Go.bytes texts.2) := by
    rw [List.map_map]
    rfl
  rw [← List.forall_mem_map, ← Go.map?_entryTexts hKeys, ← hValues, read?_render]
  simp only [Option.bind_eq_some_iff, Prod.exists]
  constructor
  · rintro ⟨elements, after, hMap, hEnd⟩
    split at hEnd
    case isTrue hAfter =>
      cases hEnd
      rw [hMap, hAfter]
    case isFalse => cases hEnd
  · intro hMap
    exact ⟨_, _, hMap, if_pos rfl⟩

end TableText

namespace FileTree

variable {files : FileTree} {tree path symbol : String}

theorem Owns.isPlain_iff (h : files.Owns tree path symbol) :
    Go.IsPlainEntry (symbol.toList, (Label.ofPath path).text.toList) ↔
      Go.IsPlainEntry (symbol.toList, path.toList) :=
  and_congr_right fun _ => Go.isPlain_label_iff h.1.isScript

end FileTree

namespace Regenerate

/--
Go reads a line of the table as the symbol and the label it was made from, and the whole table as
all of them, exactly if the symbols and the paths of their owners hold no quote, no backslash and no
line feed.
-/
theorem reads_iff_plain (files : FileTree) (tree : String) :
    (∀ path symbol, files.Owns tree path symbol →
      (Go.element? (TableText.entryLine symbol (Label.ofPath path).text).toList =
          some ((Go.bytes symbol.toList, Go.bytes (Label.ofPath path).text.toList), [',', '\n']) ↔
        Go.IsPlainEntry (symbol.toList, path.toList))) ∧
      (TableText.read? (TableText.render (.ofFiles (files.answers tree).files)) =
          some (TableText.values (.ofFiles (files.answers tree).files)) ↔
        ∀ path symbol, files.Owns tree path symbol →
          Go.IsPlainEntry (symbol.toList, path.toList)) := by
  constructor
  · intro path symbol hOwns
    rw [← hOwns.isPlain_iff, TableText.toList_entryLine, ← List.append_nil (Go.entryText _),
      Go.element?_entryText]
    exact and_iff_left rfl
  · rw [TableText.read?_render_iff]
    constructor
    · intro h path symbol hOwns
      refine hOwns.isPlain_iff.mp (h (symbol, Label.ofPath path) ?_)
      exact SymbolTable.mem_targets_iff.mpr ⟨path, FileTree.owner?_files.mpr hOwns, rfl⟩
    · rintro h ⟨symbol, label⟩ hMem
      obtain ⟨path, hOwner, rfl⟩ := SymbolTable.mem_targets_iff.mp hMem
      have hOwns := FileTree.owner?_files.mp hOwner
      exact hOwns.isPlain_iff.mpr (h path symbol hOwns)

/-- A library whose name holds a quote. -/
def quotedName : FileTree where
  fileExists _ := true
  listFiles root :=
    if root = "/t/closure/goog/../../closure/goog" then .ok ["a\"b.js"] else .ok []
  readText _ := .ok "goog.provide('x');\n"

def quotedNameTable : SymbolTable :=
  .ofFiles (quotedName.answers (Scan.treeOf "/t/closure/goog/base.js")).files

theorem targets_quotedNameTable :
    quotedNameTable.targets = [("x", ⟨"closure/library", "a\"b"⟩)] := by
  decide +kernel

/-- The quote in the label ends the literal, and what follows it cannot stand in a map. -/
theorem quotedName_unreadable :
    quotedName.Owns (Scan.treeOf "/t/closure/goog/base.js") "closure/goog/a\"b.js" "x" ∧
      TableText.values quotedNameTable =
        [(Go.bytes "x".toList, Go.bytes "//closure/library:a\"b".toList)] ∧
      TableText.read? (TableText.render quotedNameTable) = none := by
  refine ⟨?_, ?_, ?_⟩
  · rw [← FileTree.owner?_files]
    decide +kernel
  · rw [TableText.values, targets_quotedNameTable]
    decide +kernel
  · rw [TableText.read?_render, targets_quotedNameTable]
    decide +kernel

end Regenerate

end ProvideIndex
