import ProvideIndex.Proofs.Path.Join
import ProvideIndex.Proofs.Path.Parts

/-!
# Resolving a path by its text

What a path comes to without a look at any file system: idle parts are dropped, and a part `..` takes
back the name before it. It stays where there is no such name, except at the root.

* `resolve_join`: a relative path below a base goes on from what the base comes to.
* `exists_parent?`: the directory of a file comes to the same path, less the name of the file.
* `resolve_text`: a resolved path comes to itself.
-/

namespace ProvideIndex.Path

open Text

/-- The part that goes one step up. -/
abbrev dots : List Char := ['.', '.']

structure Resolved where
  isAbsolute : Bool
  names : List (List Char)
  deriving DecidableEq, Repr

namespace Resolved

/-- A path with one more part. -/
def step (path : Resolved) (part : List Char) : Resolved :=
  if isIdle part then path
  else if part = dots then
    match path.names.getLast? with
    | none => if path.isAbsolute then path else { path with names := [dots] }
    | some last =>
      if last = dots then { path with names := path.names ++ [dots] }
      else { path with names := path.names.dropLast }
  else { path with names := path.names ++ [part] }

/-- The path written out. -/
def text (path : Resolved) : String :=
  String.ofList ((if path.isAbsolute then ['/'] else []) ++ Text.join '/' path.names)

end Resolved

/-- What a path comes to. -/
def resolve (path : String) : Resolved :=
  (split '/' path.toList).foldl Resolved.step ⟨isAbsolute path, []⟩

namespace Resolved

variable {path : Resolved} {part : List Char} {parts : List (List Char)}

theorem step_idle (h : isIdle part = true) : path.step part = path := by
  rw [step, if_pos h]

theorem step_name (h : isIdle part = false) (hName : part ≠ dots) :
    path.step part = { path with names := path.names ++ [part] } := by
  rw [step, h, if_neg Bool.false_ne_true, if_neg hName]

/-- A step up takes a name back. -/
theorem step_dots {isAbsolute : Bool} {names : List (List Char)} (h : part ≠ dots) :
    step ⟨isAbsolute, names ++ [part]⟩ dots = ⟨isAbsolute, names⟩ := by
  have hIdle : isIdle dots = false := rfl
  rw [step, hIdle, if_neg Bool.false_ne_true, if_pos rfl, List.getLast?_concat]
  simp only [if_neg h, List.dropLast_concat]

theorem foldl_step_idle (h : ∀ part ∈ parts, isIdle part = true) :
    parts.foldl step path = path := by
  induction parts with
  | nil => rfl
  | cons part parts ih =>
    obtain ⟨hFirst, hRest⟩ := List.forall_mem_cons.mp h
    rw [List.foldl_cons, step_idle hFirst]
    exact ih hRest

end Resolved

/-! ### Joining -/

variable {base path : String}

theorem resolve_empty : resolve "" = ⟨false, []⟩ := rfl

/-- A relative path below a base goes on from what the base comes to. -/
theorem resolve_join (h : isAbsolute path = false) :
    resolve (join base path) = (split '/' path.toList).foldl Resolved.step (resolve base) := by
  rw [join, h, if_neg Bool.false_ne_true]
  by_cases hEmpty : base = ""
  · subst hEmpty
    rw [resolve_empty, resolve, ← h]
    rfl
  · by_cases hSlash : endsWith ['/'] base.toList = true
    · -- The slash at the end of the base makes an empty part, which is idle.
      obtain ⟨front, hFront⟩ := endsWith_iff.mp hSlash
      have hLast : split '/' [] = [[]] := rfl
      rw [if_pos (by rw [hSlash, Bool.or_true]), resolve, resolve, isAbsolute_append hEmpty,
        String.toList_append, hFront, List.append_assoc, List.singleton_append, split_append_cons,
        split_append_cons, hLast, List.foldl_append, List.foldl_append, List.foldl_cons,
        Resolved.step_idle rfl, List.foldl_nil]
    · have hBase : ¬(base == "" || endsWith ['/'] base.toList) = true := by
        rw [Bool.or_eq_true, not_or, beq_iff_eq]
        exact ⟨hEmpty, hSlash⟩
      have hChars : (base ++ "/" ++ path).toList = base.toList ++ '/' :: path.toList := by
        rw [String.toList_append, String.toList_append, List.append_assoc]
        rfl
      rw [if_neg hBase, resolve, resolve, hChars, split_append_cons, List.foldl_append,
        String.append_assoc, isAbsolute_append hEmpty]

/-! ### The directory of a file -/

theorem exists_dropIdleEnd (parts : List (List Char)) :
    ∃ idle, parts = dropIdleEnd parts ++ idle ∧ ∀ part ∈ idle, isIdle part = true := by
  refine ⟨(parts.reverse.takeWhile isIdle).reverse, ?_, ?_⟩
  · rw [dropIdleEnd, ← List.reverse_append, List.takeWhile_append_dropWhile, List.reverse_reverse]
  · intro part hMem
    exact List.all_eq_true.mp List.all_takeWhile part (List.mem_reverse.mp hMem)

theorem leadAndBody_append (path : List Char) :
    (leadAndBody path).1 ++ (leadAndBody path).2 = split '/' path := by
  rw [leadAndBody]
  cases h : split '/' path with
  | nil => exact absurd h (split_ne_nil '/' path)
  | cons first parts =>
    dsimp only
    split <;> rfl

/-- A path is absolute if its first part is empty and others follow. -/
theorem isAbsolute_join_iff {parts : List (List Char)} (h : ∀ part ∈ parts, '/' ∉ part) :
    isAbsolute (String.ofList (Text.join '/' parts)) = true ↔
      ∃ next rest, parts = [] :: next :: rest := by
  rw [isAbsolute_iff, String.toList_ofList]
  cases parts with
  | nil => simp [Text.join]
  | cons first parts =>
    have hFirst := (List.forall_mem_cons.mp h).1
    cases parts with
    | nil =>
      rw [Text.join]
      refine iff_of_false (fun hHead => ?_) (by simp)
      exact hFirst (List.mem_of_mem_head? hHead)
    | cons next parts =>
      rw [Text.join]
      cases first with
      | nil => simp
      | cons c first =>
        have hNe : c ≠ '/' := fun hEq => hFirst (hEq ▸ List.mem_cons_self)
        simp [hNe]

theorem isIdle_of_getLast? {parts : List (List Char)} {part : List Char}
    (h : (dropIdleEnd parts).getLast? = some part) : isIdle part = false := by
  rw [dropIdleEnd, List.getLast?_reverse] at h
  have hHead := List.head?_dropWhile_not isIdle parts.reverse
  rw [h] at hHead
  simpa using hHead

/-- The parts of a path with a file name: behind the name, and before all, only idle parts. -/
theorem exists_split_of_fileName? {name : String} (h : fileName? path = some name) :
    ∃ lead front part idle, split '/' path.toList = lead ++ (front ++ part :: idle) ∧
      leadAndBody path.toList = (lead, front ++ part :: idle) ∧
      dropIdleEnd (front ++ part :: idle) = front ++ [part] ∧
      name = String.ofList part ∧ isIdle part = false ∧ part ≠ dots ∧
      ∀ other ∈ idle, isIdle other = true := by
  rw [fileName?] at h
  cases hBody : leadAndBody path.toList with
  | mk lead body =>
    rw [hBody] at h
    have hSplit := leadAndBody_append path.toList
    rw [hBody] at hSplit
    cases hLast : (dropIdleEnd body).getLast? with
    | none => simp only [hLast] at h; cases h
    | some part =>
      simp only [hLast] at h
      by_cases hDots : part = dots
      · simp [hDots] at h
      · obtain ⟨front, hFront⟩ := List.getLast?_eq_some_iff.mp hLast
        obtain ⟨idle, hIdle, hAll⟩ := exists_dropIdleEnd body
        have hWhole : body = front ++ part :: idle := by
          rw [hFront, List.append_assoc, List.singleton_append] at hIdle
          exact hIdle
        subst hWhole
        refine ⟨lead, front, part, idle, hSplit.symm, rfl, hFront, ?_, isIdle_of_getLast? hLast,
          hDots, hAll⟩
        simpa [hDots] using h.symm

/-- The lead of a path is one idle part or none, and then the path does not begin with one. -/
theorem lead_cases {path : List Char} {lead body : List (List Char)}
    (h : leadAndBody path = (lead, body)) :
    (∃ first, lead = [first] ∧ isIdle first = true) ∨
      lead = [] ∧ (path = [] ∨ ∀ first ∈ body.head?, isIdle first = false) := by
  rw [leadAndBody] at h
  cases hSplit : split '/' path with
  | nil => exact absurd hSplit (split_ne_nil '/' path)
  | cons first parts =>
    rw [hSplit] at h
    dsimp only at h
    by_cases hLead : (isIdle first && path != []) = true
    · rw [if_pos hLead] at h
      obtain ⟨rfl, rfl⟩ := Prod.mk.inj h
      exact .inl ⟨first, rfl, (Bool.and_eq_true_iff.mp hLead).1⟩
    · rw [if_neg hLead] at h
      obtain ⟨rfl, rfl⟩ := Prod.mk.inj h
      refine .inr ⟨rfl, ?_⟩
      by_cases hEmpty : path = []
      · exact .inl hEmpty
      · refine .inr fun other hOther => ?_
        cases hOther
        simpa [hEmpty] using hLead

theorem resolve_ofList_join {parts : List (List Char)} (h : ∀ part ∈ parts, '/' ∉ part) :
    resolve (String.ofList (Text.join '/' parts)) =
      parts.foldl Resolved.step ⟨isAbsolute (String.ofList (Text.join '/' parts)), []⟩ := by
  rw [resolve, String.toList_ofList]
  cases parts with
  | nil => rfl
  | cons first parts => rw [split_join (List.cons_ne_nil _ _) h]

/-- The directory of a file is absolute if the file is, and its other parts are those of the file. -/
theorem resolve_ofParts {lead body directory : List (List Char)}
    (hParts : leadAndBody path.toList = (lead, body)) (hPrefix : directory <+: body)
    (hBody : ∃ part ∈ body, isIdle part = false) :
    resolve (String.ofList (ofParts lead directory)) =
      directory.foldl Resolved.step ⟨isAbsolute path, []⟩ := by
  obtain ⟨rest, rfl⟩ := hPrefix
  have hSplit : split '/' path.toList = lead ++ (directory ++ rest) := by
    rw [← leadAndBody_append, hParts]
  have hNoSlash : ∀ part ∈ lead ++ directory, '/' ∉ part := by
    intro part hPart
    have hMem : part ∈ split '/' path.toList := by
      rw [hSplit, ← List.append_assoc]
      exact List.mem_append_left _ hPart
    exact not_mem_of_mem_split hMem
  have hNonempty : directory ++ rest ≠ [] := by
    obtain ⟨part, hMem, -⟩ := hBody
    exact List.ne_nil_of_mem hMem
  have hAbsolute : isAbsolute path = true ↔
      ∃ next others, lead ++ (directory ++ rest) = [] :: next :: others := by
    rw [← hSplit, ← isAbsolute_join_iff fun part => not_mem_of_mem_split, join_split,
      String.ofList_toList]
  rcases lead_cases hParts with ⟨first, rfl, hFirst⟩ | ⟨rfl, hOpen⟩
  · by_cases hRoot : first = [] ∧ directory = []
    · obtain ⟨rfl, rfl⟩ := hRoot
      rw [hAbsolute.mpr ?_]
      · rfl
      · obtain ⟨next, others, hCons⟩ := List.exists_cons_of_ne_nil hNonempty
        exact ⟨next, others, congrArg _ hCons⟩
    · have hLead : ¬([first] == [[]] && directory == []) = true := by simpa using hRoot
      rw [ofParts, if_neg hLead, resolve_ofList_join hNoSlash, List.singleton_append,
        List.foldl_cons, Resolved.step_idle hFirst]
      have hSame : isAbsolute (String.ofList (Text.join '/' (first :: directory))) =
          isAbsolute path := by
        rw [Bool.eq_iff_iff, hAbsolute]
        refine (isAbsolute_join_iff hNoSlash).trans ?_
        cases directory with
        | nil =>
          have hFirst : first ≠ [] := fun hEq => hRoot ⟨hEq, rfl⟩
          simp [hFirst]
        | cons next others => simp
      rw [hSame]
  · have hHead : ∀ first ∈ (directory ++ rest).head?, isIdle first = false := by
      refine hOpen.resolve_left fun hEmpty => ?_
      obtain ⟨part, hMem, hPart⟩ := hBody
      rw [hEmpty] at hSplit
      have hParts : directory ++ rest = [[]] := hSplit.symm
      rw [hParts, List.mem_singleton] at hMem
      subst hMem
      cases hPart
    have hRelative : isAbsolute path = false := by
      refine Bool.eq_false_iff.mpr fun hPath => ?_
      obtain ⟨next, others, hCons⟩ := hAbsolute.mp hPath
      rw [List.nil_append] at hCons
      rw [hCons] at hHead
      cases hHead [] rfl
    have hOther : isAbsolute (String.ofList (Text.join '/' directory)) = false := by
      refine Bool.eq_false_iff.mpr fun hDirectory => ?_
      obtain ⟨next, others, rfl⟩ := (isAbsolute_join_iff hNoSlash).mp hDirectory
      cases hHead [] rfl
    have hLead : ¬(([] : List (List Char)) == [[]] && directory == []) = true :=
      Bool.false_ne_true
    rw [ofParts, if_neg hLead, resolve_ofList_join hNoSlash, List.nil_append, hOther, hRelative]

/-- The directory of a file comes to what the file comes to, less the name of the file. -/
theorem exists_parent? {name : String} (h : fileName? path = some name) :
    ∃ directory, parent? path = some directory ∧ isIdle name.toList = false ∧ name.toList ≠ dots ∧
      resolve path = (resolve directory).step name.toList := by
  obtain ⟨lead, front, part, idle, hSplit, hParts, hEnd, rfl, hPart, hDots, hIdle⟩ :=
    exists_split_of_fileName? h
  obtain ⟨others, hFront, hOthers⟩ := exists_dropIdleEnd front
  have hParent : parent? path = some (String.ofList (ofParts lead (dropIdleEnd front))) := by
    rw [parent?, hParts]
    simp only [hEnd]
    cases hCons : front ++ [part] with
    | nil => exact absurd hCons (List.append_ne_nil_of_right_ne_nil _ (List.cons_ne_nil _ _))
    | cons first rest =>
      simp only
      rw [← hCons, List.dropLast_concat]
  -- What both paths come to, from the parts behind the lead.
  have hDirectory : resolve (String.ofList (ofParts lead (dropIdleEnd front))) =
      (dropIdleEnd front).foldl Resolved.step ⟨isAbsolute path, []⟩ := by
    refine resolve_ofParts hParts ?_ ⟨part, List.mem_append_right _ List.mem_cons_self, hPart⟩
    refine ⟨others ++ part :: idle, ?_⟩
    rw [← List.append_assoc, ← hFront]
  have hPath : resolve path =
      ((dropIdleEnd front).foldl Resolved.step ⟨isAbsolute path, []⟩).step part := by
    have hLead : ∀ other ∈ lead, isIdle other = true := by
      rcases lead_cases hParts with ⟨first, rfl, hFirst⟩ | ⟨rfl, -⟩
      · exact List.forall_mem_singleton.mpr hFirst
      · exact fun other hOther => absurd hOther List.not_mem_nil
    rw [resolve, hSplit, List.foldl_append, Resolved.foldl_step_idle hLead, List.foldl_append,
      List.foldl_cons, Resolved.foldl_step_idle hIdle]
    conv_lhs => rw [hFront]
    rw [List.foldl_append, Resolved.foldl_step_idle hOthers]
  rw [String.toList_ofList]
  exact ⟨_, hParent, hPart, hDots, hDirectory ▸ hPath⟩

/-! ### Resolving again -/

/-- Whether a path is made of parts that name something and resolving them changes nothing. -/
structure Resolved.IsClean (path : Resolved) : Prop where
  names : ∀ name ∈ path.names, isIdle name = false ∧ '/' ∉ name
  fixed : path.names.foldl step ⟨path.isAbsolute, []⟩ = path

namespace Resolved

variable {isAbsolute : Bool} {names : List (List Char)} {part : List Char}

theorem IsClean.of_concat (h : IsClean ⟨isAbsolute, names ++ [part]⟩) (hPart : part ≠ dots) :
    IsClean ⟨isAbsolute, names⟩ := by
  obtain ⟨hNames, hFixed⟩ := h
  refine ⟨fun name hName => hNames name (List.mem_append_left _ hName), ?_⟩
  have hIdle := (hNames part (List.mem_append_right _ (List.mem_singleton_self part))).1
  rw [List.foldl_append, List.foldl_cons, step_name hIdle hPart, List.foldl_nil] at hFixed
  obtain ⟨hAbsolute, hSame⟩ := Resolved.mk.inj hFixed
  dsimp only at hAbsolute hSame ⊢
  generalize names.foldl step ⟨isAbsolute, []⟩ = before at hAbsolute hSame ⊢
  obtain ⟨_, _⟩ := before
  exact congrArg₂ Resolved.mk hAbsolute (List.append_cancel_right hSame)

theorem IsClean.concat {path : Resolved} (h : path.IsClean) (hIdle : isIdle part = false)
    (hSlash : '/' ∉ part) (hStep : path.step part = { path with names := path.names ++ [part] }) :
    IsClean { path with names := path.names ++ [part] } := by
  constructor
  · intro name hName
    rcases List.mem_append.mp hName with hOld | hNew
    · exact h.names name hOld
    · rw [List.mem_singleton.mp hNew]
      exact ⟨hIdle, hSlash⟩
  · rw [List.foldl_append, h.fixed]
    exact hStep

theorem IsClean.step {path : Resolved} (h : path.IsClean) (hSlash : '/' ∉ part) :
    (path.step part).IsClean := by
  cases hIdle : isIdle part with
  | true =>
    rw [step_idle hIdle]
    exact h
  | false =>
    by_cases hDots : part = dots
    · subst hDots
      obtain ⟨isAbsolute, names⟩ := path
      rcases List.eq_nil_or_concat names with rfl | ⟨front, last, rfl⟩
      · cases isAbsolute with
        | true => exact h
        | false => exact h.concat rfl hSlash rfl
      · rw [List.concat_eq_append] at h ⊢
        by_cases hLast : last = dots
        · have hStep : Resolved.step ⟨isAbsolute, front ++ [last]⟩ dots =
              ⟨isAbsolute, front ++ [last] ++ [dots]⟩ := by
            have hIdle : isIdle dots = false := rfl
            rw [Resolved.step, hIdle, if_neg Bool.false_ne_true, if_pos rfl, List.getLast?_concat]
            exact if_pos hLast
          rw [hStep]
          exact h.concat rfl hSlash hStep
        · rw [step_dots hLast]
          exact h.of_concat hLast
    · rw [step_name hIdle hDots]
      exact h.concat hIdle hSlash (step_name hIdle hDots)

theorem IsClean.foldl_step {path : Resolved} {parts : List (List Char)} (h : path.IsClean)
    (hParts : ∀ part ∈ parts, '/' ∉ part) : (parts.foldl Resolved.step path).IsClean := by
  induction parts generalizing path with
  | nil => exact h
  | cons part parts ih =>
    obtain ⟨hPart, hRest⟩ := List.forall_mem_cons.mp hParts
    exact ih (h.step hPart) hRest

end Resolved

theorem isClean_resolve (path : String) : (resolve path).IsClean := by
  have hStart : Resolved.IsClean ⟨isAbsolute path, []⟩ :=
    ⟨fun name hName => absurd hName List.not_mem_nil, rfl⟩
  exact hStart.foldl_step fun part hPart => not_mem_of_mem_split hPart

/-- A resolved path comes to itself. -/
theorem resolve_text {path : Resolved} (h : path.IsClean) : resolve path.text = path := by
  have hNoSlash : ∀ name ∈ path.names, '/' ∉ name := fun name hName => (h.names name hName).2
  cases hAbsolute : path.isAbsolute with
  | true =>
    cases hNames : path.names with
    | nil =>
      have hRoot : path = ⟨true, []⟩ := by
        rw [← hAbsolute, ← hNames]
      rw [hRoot]
      rfl
    | cons first rest =>
      have hLead : ∀ part ∈ [] :: path.names, '/' ∉ part :=
        List.forall_mem_cons.mpr ⟨List.not_mem_nil, hNoSlash⟩
      have hText : path.text = String.ofList (Text.join '/' ([] :: path.names)) := by
        rw [Resolved.text, hAbsolute, hNames]
        rfl
      have hRoot : isAbsolute (String.ofList (Text.join '/' ([] :: path.names))) = true :=
        (isAbsolute_join_iff hLead).mpr ⟨first, rest, congrArg _ hNames⟩
      rw [hText, resolve_ofList_join hLead, hRoot, List.foldl_cons, Resolved.step_idle rfl,
        ← hAbsolute, h.fixed]
  | false =>
    have hText : path.text = String.ofList (Text.join '/' path.names) := by
      rw [Resolved.text, hAbsolute]
      rfl
    have hRelative : isAbsolute path.text = false := by
      refine Bool.eq_false_iff.mpr fun hText' => ?_
      obtain ⟨next, rest, hCons⟩ := (isAbsolute_join_iff hNoSlash).mp (hText ▸ hText')
      have hIdle := (h.names [] (hCons ▸ List.mem_cons_self)).1
      cases hIdle
    rw [hText] at hRelative ⊢
    rw [resolve_ofList_join hNoSlash, hRelative, ← hAbsolute, h.fixed]

end ProvideIndex.Path
