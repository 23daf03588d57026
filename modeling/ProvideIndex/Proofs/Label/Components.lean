import ProvideIndex.Proofs.Label.Parts
import ProvideIndex.Proofs.Scan.FileTree
import Mathlib.Data.List.Chain

/-!
# Labels and whole parts

The label of a file should name the file: its directory with the parts `closure` and `goog` of the
source root exchanged, and its base name without the extension. As the exchange takes place in the
text of the whole path, it also changes parts that only begin with `goog` behind parts that only end
in `closure`.

* `isStem_iff`: the stem of a base name.
* `isOwn_iff_parts`: whether a label names its file, part by part.
* `isAligned_join_iff`: where the source root stands, part by part.
* `isOwn_iff_isAligned`: the label names its file exactly if the source root stands nowhere in the
  path but as whole parts.
* `googleScript_renamed`: a script that is named after another one.
-/

namespace ProvideIndex

open Text

namespace Label

variable {path : String} {name front part rest : List Char}
  {parts directories : List (List Char)}

/-! ### The label that names a file -/

/-- A directory in the build tree, where the source root counts only as whole parts. -/
def ownPart (previous part : List Char) : List Char :=
  if previous = "closure".toList ∧ part = "goog".toList then "library".toList else part

def ownParts (parts : List (List Char)) : List (List Char) :=
  List.zipWith ownPart ([] :: parts) parts

/-- What is left of a file name without its last extension, unless that would be nothing. -/
inductive IsStem (name : List Char) : List Char → Prop
  | cut {front extension : List Char} (hName : name = front ++ '.' :: extension)
      (hFront : front ≠ []) (hExtension : '.' ∉ extension) : IsStem name front
  | whole (hPoint : '.' ∉ name.tail) : IsStem name name

theorem isStem_stem (name : List Char) : IsStem name (stem name) := by
  rw [stem]
  cases hSplit : splitLast? '.' name with
  | none => exact .whole fun h => splitLast?_eq_none.mp hSplit (List.mem_of_mem_tail h)
  | some cut =>
    obtain ⟨before, extension⟩ := cut
    obtain ⟨hName, hExtension⟩ := splitLast?_some hSplit
    cases before with
    | nil =>
      refine .whole ?_
      rwa [hName]
    | cons c before => exact .cut hName (List.cons_ne_nil _ _) hExtension

theorem isStem_iff : IsStem name front ↔ stem name = front := by
  constructor
  · intro h
    cases h with
    | cut hName hFront hExtension =>
      rw [stem, hName, splitLast?_append_cons front hExtension]
      simp only [List.isEmpty_eq_false_iff.mpr hFront, Bool.false_eq_true, if_false]
    | whole hPoint =>
      by_cases hName : '.' ∈ name
      · obtain ⟨rest, rfl⟩ : ∃ rest, name = '.' :: rest := by
          cases name with
          | nil => cases hName
          | cons c rest =>
            rcases List.mem_cons.mp hName with rfl | hRest
            · exact ⟨rest, rfl⟩
            · exact absurd hRest hPoint
        have hSplit : splitLast? '.' ('.' :: rest) = some ([], rest) :=
          splitLast?_append_cons [] hPoint
        rw [stem, hSplit]
        rfl
      · rw [stem, splitLast?_eq_none.mpr hName]
  · rintro rfl
    exact isStem_stem name

/-- Whether a label names the file at a path. -/
def IsOwn (path : String) (label : Label) : Prop :=
  ∃ directories name, Path.HasParts path directories name ∧
    label.directory.toList = join '/' (ownParts directories) ∧ IsStem name label.name.toList

/-! ### The label of a path -/

/-- Whether the source root stands over the border of two directories as whole parts, if at all. -/
def IsWhole (first second : List Char) : Prop :=
  IsOver "closure".toList "goog".toList first second →
    first = "closure".toList ∧ second = "goog".toList

theorem isWhole_nil (part : List Char) : IsWhole [] part := by
  rintro ⟨hEnd, -⟩
  exact absurd (List.suffix_nil.mp hEnd) (by decide)

theorem builtPart_eq_ownPart_iff {previous : List Char} :
    builtPart previous part = ownPart previous part ↔ IsWhole previous part := by
  by_cases hOver : IsOver "closure".toList "goog".toList previous part
  · rw [IsWhole, forall_prop_of_true hOver]
    obtain ⟨hEnd, rest, rfl⟩ := hOver
    rw [builtPart_append hEnd, ownPart]
    -- Where `ownPart` leaves the part as it is, the first letters differ.
    split
    next hWhole =>
      refine iff_of_true ?_ hWhole
      rw [List.append_right_eq_self.mp hWhole.2]
      rfl
    next hPart =>
      refine iff_of_false (fun h => ?_) hPart
      exact absurd (List.cons_eq_cons.mp h).1 (by decide)
  · refine iff_of_true ?_ fun h => absurd h hOver
    rw [builtPart_of_apart hOver, ownPart, if_neg]
    rintro ⟨rfl, rfl⟩
    exact hOver ⟨List.suffix_rfl, List.prefix_rfl⟩

theorem zipWith_eq_iff_isChain {f g : List Char → List Char → List Char} {previous : List Char} :
    List.zipWith f (previous :: parts) parts = List.zipWith g (previous :: parts) parts ↔
      (previous :: parts).IsChain fun a b => f a b = g a b := by
  induction parts generalizing previous with
  | nil => simp
  | cons part parts ih =>
    rw [List.zipWith_cons_cons, List.zipWith_cons_cons, List.cons_eq_cons, ih,
      List.isChain_cons_cons]

theorem builtParts_eq_ownParts_iff : builtParts parts = ownParts parts ↔ parts.IsChain IsWhole := by
  rw [builtParts, ownParts, zipWith_eq_iff_isChain]
  simp only [builtPart_eq_ownPart_iff]
  rw [List.isChain_cons]
  exact and_iff_right fun part _ => isWhole_nil part

theorem not_mem_ownParts (h : ∀ part ∈ parts, '/' ∉ part) :
    ∀ part ∈ ownParts parts, '/' ∉ part := by
  intro own hOwn
  rw [ownParts, ← List.map_uncurry_zip_eq_zipWith] at hOwn
  obtain ⟨⟨previous, part⟩, hPair, rfl⟩ := List.mem_map.mp hOwn
  have hPart := h part (List.of_mem_zip hPair).2
  rw [Function.uncurry_apply_pair, ownPart]
  split
  · decide
  · exact hPart

theorem ownParts_eq_nil : ownParts parts = [] ↔ parts = [] := by
  simp [ownParts]

theorem IsStem.head? (h : IsStem name front) : front.head? = name.head? := by
  cases h with
  | cut hName hFront hExtension => rw [hName, List.head?_append_of_ne_nil _ hFront]
  | whole hPoint => rfl

/-- A base name that begins with another letter has another stem. -/
theorem isStem_builtPart_iff {previous : List Char} :
    IsStem name (stem (builtPart previous name)) ↔
      ¬ IsOver "closure".toList "goog".toList previous name := by
  constructor
  · rintro h ⟨hEnd, rest, rfl⟩
    rw [builtPart_append hEnd] at h
    have hHead := (isStem_stem ("library".toList ++ rest)).head?.symm.trans h.head?
    exact absurd (Option.some.inj hHead) (by decide)
  · intro hOver
    rw [isStem_iff, builtPart_of_apart hOver]

theorem isOwn_iff_parts (hParts : Path.HasParts path directories name) :
    IsOwn path (ofPath path) ↔ directories.IsChain IsWhole ∧
      ¬ IsOver "closure".toList "goog".toList (directories.getLastD []) name := by
  have hDirectories : join '/' (builtParts directories) = join '/' (ownParts directories) ↔
      directories.IsChain IsWhole := by
    rw [← builtParts_eq_ownParts_iff]
    cases directories with
    | nil => exact iff_of_true rfl rfl
    | cons first others =>
      exact join_inj (by simp [builtParts_eq_nil]) (by simp [ownParts_eq_nil])
        (not_mem_builtParts hParts.not_mem_directories)
        (not_mem_ownParts hParts.not_mem_directories)
  rw [← hDirectories, ← isStem_builtPart_iff, hParts.ofPath_eq, IsOwn]
  simp only [String.toList_ofList]
  constructor
  · rintro ⟨others, other, hOthers, hOwn⟩
    obtain ⟨rfl, hName⟩ := List.append_inj' (hParts.symm.trans hOthers) rfl
    obtain rfl := List.singleton_inj.mp hName
    exact hOwn
  · exact fun hOwn => ⟨directories, name, hParts, hOwn⟩

/-! ### Where the source root stands -/

/-- Whether every `closure/goog` in a text makes up whole parts, with another part behind it. -/
def IsAligned (text : List Char) : Prop :=
  ∀ before after, text = before ++ sourceRoot.toList ++ after →
    (∀ c ∈ before.getLast?, c = '/') ∧ after.head? = some '/'

theorem isAligned_of_not_mem (h : '/' ∉ part) : IsAligned part := by
  intro before after hPart
  refine absurd ?_ h
  rw [hPart, sourceRoot_eq]
  simp

theorem eq_nil_of_last (hSlash : '/' ∉ front) (h : ∀ c ∈ front.getLast?, c = '/') :
    front = [] := by
  cases hLast : front.getLast? with
  | none => exact List.getLast?_eq_none_iff.mp hLast
  | some c =>
    obtain rfl := h c hLast
    exact absurd (List.mem_of_getLast? hLast) hSlash

theorem last_append_cons_iff :
    (∀ c ∈ (part ++ '/' :: front).getLast?, c = '/') ↔ ∀ c ∈ front.getLast?, c = '/' := by
  rw [List.getLast?_append, List.getLast?_cons]
  cases front.getLast? with
  | none => simp
  | some d => simp

/-- The source root stands over the first slash of a text, or behind it. -/
theorem isAligned_append_cons_iff (hPart : '/' ∉ part) :
    IsAligned (part ++ '/' :: rest) ↔
      (∀ after, "closure".toList <:+ part → rest = "goog".toList ++ after →
        part = "closure".toList ∧ after.head? = some '/') ∧ IsAligned rest := by
  constructor
  · intro h
    refine ⟨?_, fun before after hRest => ?_⟩
    · rintro after ⟨before, rfl⟩ rfl
      obtain ⟨hBefore, hAfter⟩ := h before after (by simp [sourceRoot_eq])
      have hSlash : '/' ∉ before := fun hMem => hPart (List.mem_append_left _ hMem)
      rw [eq_nil_of_last hSlash hBefore]
      exact ⟨rfl, hAfter⟩
    · obtain ⟨hBefore, hAfter⟩ := h (part ++ '/' :: before) after (by simp [hRest])
      exact ⟨last_append_cons_iff.mp hBefore, hAfter⟩
  · rintro ⟨hBorder, hRest⟩ before after hText
    rw [sourceRoot_eq] at hText
    rcases word_position (by decide) hPart hText with ⟨rfl, hOld⟩ | ⟨more, rfl, hMore⟩
    · obtain ⟨hWhole, hAfter⟩ := hBorder after (List.suffix_append ..) hOld
      rw [List.append_left_eq_self.mp hWhole]
      exact ⟨fun c hLast => (Option.some_ne_none c hLast.symm).elim, hAfter⟩
    · obtain ⟨hBefore, hAfter⟩ := hRest more after hMore
      exact ⟨last_append_cons_iff.mpr hBefore, hAfter⟩

theorem isAligned_directory_iff {directory : List Char} (hPart : '/' ∉ part)
    (hDirectory : '/' ∉ directory) :
    IsAligned (part ++ '/' :: (directory ++ '/' :: rest)) ↔
      IsWhole part directory ∧ IsAligned (directory ++ '/' :: rest) := by
  rw [isAligned_append_cons_iff hPart]
  refine and_congr_left' ⟨fun h => ?_, fun h after hEnd hRest => ?_⟩
  · rintro ⟨hEnd, more, rfl⟩
    obtain ⟨hWhole, hAfter⟩ := h (more ++ '/' :: rest) hEnd (List.append_assoc ..)
    refine ⟨hWhole, ?_⟩
    cases more with
    | nil => rfl
    | cons c more =>
      obtain rfl := Option.some.inj hAfter
      simp at hDirectory
  · -- `goog` does not reach over the slash behind the directory.
    have hText : "goog".toList <+: directory ++ '/' :: rest := by
      rw [hRest]
      exact List.prefix_append ..
    have hStart : "goog".toList <+: directory := (prefix_append_cons_iff (by decide)).mp hText
    obtain ⟨hWhole, rfl⟩ := h ⟨hEnd, hStart⟩
    refine ⟨hWhole, ?_⟩
    rw [← List.append_cancel_left hRest]
    rfl

theorem isAligned_name_iff (hPart : '/' ∉ part) (hName : '/' ∉ name) :
    IsAligned (part ++ '/' :: name) ↔ ¬ IsOver "closure".toList "goog".toList part name := by
  rw [isAligned_append_cons_iff hPart, and_iff_left (isAligned_of_not_mem hName)]
  constructor
  · rintro h ⟨hEnd, more, rfl⟩
    obtain ⟨-, hAfter⟩ := h more hEnd rfl
    exact hName (List.mem_append_right _ (List.mem_of_head? hAfter))
  · rintro h after hEnd rfl
    exact absurd ⟨hEnd, List.prefix_append ..⟩ h

theorem isAligned_join_iff (hDirectories : ∀ part ∈ directories, '/' ∉ part)
    (hName : '/' ∉ name) :
    IsAligned (join '/' (directories ++ [name])) ↔ directories.IsChain IsWhole ∧
      ¬ IsOver "closure".toList "goog".toList (directories.getLastD []) name := by
  induction directories with
  | nil =>
    refine iff_of_true (isAligned_of_not_mem hName) ⟨List.IsChain.nil, ?_⟩
    rintro ⟨hEnd, -⟩
    exact absurd (List.suffix_nil.mp hEnd) (by decide)
  | cons first others ih =>
    obtain ⟨hFirst, hOthers⟩ := List.forall_mem_cons.mp hDirectories
    cases others with
    | nil =>
      exact (isAligned_name_iff hFirst hName).trans
        (and_iff_right (List.IsChain.singleton first)).symm
    | cons second others =>
      have hSecond := hOthers second List.mem_cons_self
      have hJoin : join '/' (second :: others ++ [name]) =
          second ++ '/' :: join '/' (others ++ [name]) :=
        join_cons second (by simp)
      rw [List.cons_append, join_cons first (by simp), hJoin,
        isAligned_directory_iff hFirst hSecond, ← hJoin, ih hOthers, List.isChain_cons_cons,
        and_assoc, List.getLastD_cons, List.getLastD_cons, List.getLastD_cons]

/--
The label of a path names its file exactly if `closure/goog` occurs in the path only as whole
directories.
-/
theorem isOwn_iff_isAligned (path : String) :
    IsOwn path (ofPath path) ↔ IsAligned path.toList := by
  obtain ⟨directories, name, hParts⟩ := Path.exists_hasParts path
  rw [isOwn_iff_parts hParts, hParts.eq_join,
    isAligned_join_iff hParts.not_mem_directories hParts.not_mem_name]

/-- A script `google.js` in a directory `closure` below a scan root. -/
def googleScript : FileTree where
  fileExists _ := true
  listFiles root :=
    if root = "/t/closure/goog/../../closure/goog" then .ok ["closure/google.js"] else .ok []
  readText _ := .ok "goog.provide('x');\n"

/-- The label of the script has `library` in its name for the beginning of the base name. -/
theorem googleScript_renamed :
    googleScript.Provides (Scan.treeOf "/t/closure/goog/base.js") "closure/goog/closure/google.js"
        "x" ∧
      (ofPath "closure/goog/closure/google.js").text = "//closure/library/closure:libraryle" ∧
      ¬ IsOwn "closure/goog/closure/google.js" (ofPath "closure/goog/closure/google.js") := by
  refine ⟨⟨?_, by decide, by decide, "goog.provide('x');\n", rfl, ?_, ?_⟩, by decide, ?_⟩
  · rw [← FileTree.mem_paths_iff]
    decide +kernel
  · decide +kernel
  · decide +kernel
  · rw [isOwn_iff_isAligned]
    intro hAligned
    have hBehind := (hAligned "closure/goog/".toList "le.js".toList (by decide)).2
    exact absurd hBehind (by decide)

end Label

end ProvideIndex
