import ProvideIndex.InMemory.World
import ProvideIndex.Proofs.Path.Resolved
import ProvideIndex.Scan

/-!
# The root of a tree

The root of a tree is written as two steps up from the directory of the anchor. Where the anchor
comes to `closure/goog/base.js` below some directory, both steps take back a name, so that the root
comes to this directory, and what is looked for below the root is found below the directory.

* `resolve_root`: what the root of an anchor comes to.
* `locate_leads_back`: paths below the located root come to the same as below the directory.
-/

namespace ProvideIndex.Scan

open ProvideIndex.Path

/-- The parts of the path on which an anchor stands in its tree. -/
def anchorParts : List (List Char) := ["closure".toList, "goog".toList, "base.js".toList]

/-- Two steps up from `closure/goog` lead to the directory in which it stands. -/
theorem foldl_step_up (isAbsolute : Bool) (names : List (List Char)) :
    (Text.split '/' "../..".toList).foldl Resolved.step
      ⟨isAbsolute, names ++ ["closure".toList, "goog".toList]⟩ = ⟨isAbsolute, names⟩ := by
  have hParts : Text.split '/' "../..".toList = [dots, dots] := by decide +kernel
  have hNames : names ++ ["closure".toList, "goog".toList] =
      (names ++ ["closure".toList]) ++ ["goog".toList] := by
    rw [List.append_assoc]
    rfl
  rw [hParts, hNames, List.foldl_cons, Resolved.step_dots (by decide), List.foldl_cons,
    Resolved.step_dots (by decide), List.foldl_nil]

theorem resolve_root {anchor : String} {home : Resolved} (hName : fileName? anchor = some "base.js")
    (hAnchor : resolve anchor = ⟨home.isAbsolute, home.names ++ anchorParts⟩) :
    ∃ directory, parent? anchor = some directory ∧ resolve (join directory "../..") = home := by
  obtain ⟨directory, hParent, hIdle, hDots, hResolve⟩ := exists_parent? hName
  refine ⟨directory, hParent, ?_⟩
  -- The anchor comes to what its directory comes to, and `base.js` behind it.
  have hDirectory : resolve directory =
      ⟨home.isAbsolute, home.names ++ ["closure".toList, "goog".toList]⟩ := by
    rw [hAnchor, Resolved.step_name hIdle hDots] at hResolve
    obtain ⟨hAbsolute, hNames⟩ := Resolved.mk.inj hResolve
    have hSplit : home.names ++ anchorParts =
        (home.names ++ ["closure".toList, "goog".toList]) ++ ["base.js".toList] := by
      rw [List.append_assoc]
      rfl
    rw [hSplit] at hNames
    exact congrArg₂ Resolved.mk hAbsolute.symm (List.append_cancel_right hNames).symm
  rw [resolve_join (by decide +kernel), hDirectory]
  exact foldl_step_up ..

theorem isClean_home {anchor : String} {home : Resolved}
    (hAnchor : resolve anchor = ⟨home.isAbsolute, home.names ++ anchorParts⟩) : home.IsClean := by
  have hClean := isClean_resolve anchor
  have hSplit : home.names ++ anchorParts =
      ((home.names ++ ["closure".toList]) ++ ["goog".toList]) ++ ["base.js".toList] := by
    rw [List.append_assoc, List.append_assoc]
    rfl
  rw [hAnchor, hSplit] at hClean
  exact ((hClean.of_concat (by decide)).of_concat (by decide)).of_concat (by decide)

/--
An anchor that is there, has the name `base.js` and comes to `closure/goog/base.js` below a directory
locates a root, however it is written. Every relative path below the root comes to the same as below
that directory, and so the place of the anchor in its tree comes to the anchor.
-/
theorem locate_leads_back {ε σ : Type} (world : World ε σ) (state next : σ) (anchor : String)
    (home : Resolved) (hFound : world.answer (.fileExists anchor) state = (.inr true, next))
    (hName : fileName? anchor = some "base.js")
    (hAnchor : resolve anchor = ⟨home.isAbsolute, home.names ++ anchorParts⟩) :
    ∃ root, ((locate anchor).execute world state).ending = .done root ∧
      (∀ path, isAbsolute path = false →
        resolve (join root path) = resolve (join home.text path)) ∧
      resolve (join root "closure/goog/base.js") = resolve anchor := by
  obtain ⟨directory, hParent, hRoot⟩ := resolve_root hName hAnchor
  refine ⟨join directory "../..", ?_, ?_, ?_⟩
  · change ((Run.ask (.fileExists anchor) _).execute world state).ending = _
    rw [Run.execute, hFound]
    simp only [hParent]
    rfl
  · intro path hPath
    rw [resolve_join hPath, resolve_join hPath, hRoot, resolve_text (isClean_home hAnchor)]
  · have hParts : Text.split '/' "closure/goog/base.js".toList = anchorParts := by decide +kernel
    rw [resolve_join (by decide +kernel), hRoot, hParts, hAnchor, anchorParts, List.foldl_cons,
      Resolved.step_name (by decide) (by decide), List.foldl_cons,
      Resolved.step_name (by decide) (by decide), List.foldl_cons,
      Resolved.step_name (by decide) (by decide), List.foldl_nil]
    simp only [List.append_assoc]
    rfl

/-- A disk with a tree in the working directory, and another directory beside it. -/
def treeDisk : Disk where
  entries :=
    [(["t"], .directory), (["t", "x"], .directory), (["t", "closure"], .directory),
      (["t", "closure", "goog"], .directory), (["t", "closure", "goog", "base.js"], .file .empty)]
  workingDirectory := ["t"]

theorem locate_leads_back_crooked :
    let anchor := "x/../closure//goog/./../goog/base.js"
    InMemory.world.answer (.fileExists anchor) treeDisk = (.inr true, treeDisk) ∧
      fileName? anchor = some "base.js" ∧ resolve anchor = ⟨false, [] ++ anchorParts⟩ ∧
      ∃ root, ((locate anchor).execute InMemory.world treeDisk).ending = .done root ∧
        (∀ path, isAbsolute path = false →
          resolve (join root path) = resolve (join (Resolved.text ⟨false, []⟩) path)) ∧
        resolve (join root "closure/goog/base.js") = resolve anchor := by
  intro anchor
  have hFound : InMemory.world.answer (.fileExists anchor) treeDisk = (.inr true, treeDisk) := by
    have hEntry : treeDisk.hasEntry anchor = true := by decide +kernel
    change (Sum.inr (treeDisk.hasEntry anchor), treeDisk) = _
    rw [hEntry]
  have hName : fileName? anchor = some "base.js" := by decide +kernel
  have hAnchor : resolve anchor = ⟨false, [] ++ anchorParts⟩ := by decide +kernel
  exact ⟨hFound, hName, hAnchor, locate_leads_back _ _ _ anchor ⟨false, []⟩ hFound hName hAnchor⟩

end ProvideIndex.Scan
