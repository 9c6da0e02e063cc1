import Dyld.Chained.WalkViews
import Dyld.Closure.InterposingTuples

/-!
# The pointers of the chains

Bind targets and interposing tuples are taken from lists with the pointers of the chains of each
segment. These are the pointers that a walk over the chains calls its handler for.
-/

namespace Dyld.MachO.BindTargets

open Dyld.Lib
open Dyld.Chained
open Dyld.Chained.WalkChain (imageLocations supportedFormats)
open Dyld.Closure.InterposingTuples (InterposingImage InterposingSection Slots)

variable (m : Mem) (loadAddress : Nat)

def pointerOf (segInfo : StartsInSegment) (a : Nat) : ChainedPointer :=
  ⟨.ofNat (a - loadAddress), WalkChain.pointerAt m a, segInfo.pointerFormat⟩

def chainedPointers (segments : List (StartsInSegment × List Nat)) : List (List ChainedPointer) :=
  segments.map fun segment => segment.2.map (pointerOf m loadAddress segment.1)

/-- What a walk leaves whose handler looks at the pointers only. -/
def walkPointers {σ : Type} (notifyNonPointers : Bool) (fuel : Nat) (starts : ChainedImage.StartsInImage)
    (body : ChainedPointer → σ → σ × Bool) (s : σ) : Option σ :=
  (WalkChain.forEachFixupInAllChains m loadAddress notifyNonPointers
    (fun segInfo s a => body (pointerOf m loadAddress segInfo a) s) fuel starts ⟨s, none, []⟩).map (·.state)

variable {m loadAddress} {notifyNonPointers : Bool} {fuel : Nat} {starts : ChainedImage.StartsInImage}
  {segments : List (StartsInSegment × List Nat)}
  (hformats : ∀ segInfo, some segInfo ∈ starts → segInfo.pointerFormat ∈ supportedFormats)
  (h : imageLocations m loadAddress notifyNonPointers fuel starts = some segments)
include hformats h

theorem walkPointers_eq {σ : Type} (body : ChainedPointer → σ → σ × Bool) (s : σ) :
    walkPointers m loadAddress notifyNonPointers fuel starts body s =
      some ((chainedPointers m loadAddress segments).foldl (fun s pointers => (runBody body pointers s).1) s) := by
  rw [walkPointers, WalkChain.forEachFixupInAllChains_eq hformats h, chainedPointers, List.foldl_map]
  simp only [runBody, ← feed_map]

theorem walkPointers_chainedFixup (image : InterposingImage) (sect : InterposingSection)
    (hchains : image.chains = chainedPointers m loadAddress segments) (slots : Slots) :
    walkPointers m loadAddress notifyNonPointers fuel starts (image.chainedFixup sect) slots =
      some (image.forEachFixupInAllChains sect slots) := by
  rw [walkPointers_eq hformats h, InterposingImage.forEachFixupInAllChains, hchains]

omit hformats h

section Reports

variable {ι : Type} (set : AnalyzerSet ι) (fromWmo : ι) (targets : List (FixupTarget ι))

/-- The handler of `forEachChainedFixup`, which sets the error and stops at an ordinal out of range. -/
def reportPointer (w : ChainedPointer) (s : List (Option (Report ι)) × Bool) :
    (List (Option (Report ι)) × Bool) × Bool :=
  match w.fixupLoc.isBind w.pointer_format with
  | some (bindOrdinal, embeddedAddend) =>
    match targets[bindOrdinal]? with
    | some target => ((s.1 ++ [some (reportBind w target (UInt64.ofBitVec embeddedAddend))], s.2), false)
    | none => ((s.1, true), true)
  | none =>
    ((s.1 ++ [(w.fixupLoc.isRebase w.pointer_format (set.preferredLoadAddress fromWmo).toBitVec).map
      (reportRebase fromWmo w)], s.2), false)

lemma runBody_reportPointer (pointers : List ChainedPointer) (s : List (Option (Report ι)) × Bool) :
    (runBody (reportPointer set fromWmo targets) pointers s).1 =
      (s.1 ++ (forEachFixupInSegmentChains set fromWmo targets pointers).1,
        s.2 || (forEachFixupInSegmentChains set fromWmo targets pointers).2) := by
  induction pointers generalizing s with
  | nil => simp [forEachFixupInSegmentChains]
  | cons w rest ih =>
    rw [runBody_cons, reportPointer, forEachFixupInSegmentChains]
    cases w.fixupLoc.isBind w.pointer_format with
    | none => simp [ih]
    | some bind =>
      cases htarget : targets[bind.1]? with
      | none => simp [htarget]
      | some target => simp [htarget, ih]

include hformats h

/-- The reports, and whether there was an error. -/
theorem walkPointers_reportPointer :
    walkPointers m loadAddress notifyNonPointers fuel starts (reportPointer set fromWmo targets) ([], false) =
      some ((forEachFixupInAllChains set fromWmo targets (chainedPointers m loadAddress segments)).map
        List.flatten id) := by
  have hrun : ∀ (pointers : List (List ChainedPointer)) (s : List (Option (Report ι)) × Bool),
      pointers.foldl (fun s p => (runBody (reportPointer set fromWmo targets) p s).1) s =
        (s.1 ++ (forEachFixupInAllChains set fromWmo targets pointers).1.flatten,
          s.2 || (forEachFixupInAllChains set fromWmo targets pointers).2) := by
    intro pointers
    induction pointers with
    | nil => simp [forEachFixupInAllChains]
    | cons p pointers ih =>
      intro s
      rw [List.foldl_cons, ih, runBody_reportPointer]
      simp [forEachFixupInAllChains, Bool.or_assoc]
  rw [walkPointers_eq hformats h, hrun]
  simp [Prod.map]

end Reports

end Dyld.MachO.BindTargets
