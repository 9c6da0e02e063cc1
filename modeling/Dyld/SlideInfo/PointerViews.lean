import Dyld.Chained.Fixup
import Dyld.SlideInfo.V2
import Dyld.SlideInfo.V3

/-!
# Pointers on disk and in memory

`VMAddrConverter::convertToVMAddr` reads a pointer as it is on disk, or as one of the fixers left it
in memory. The two readings are meant to give the same address. They do, unless the slide takes a
pointer that is not null to address zero, which the converter takes for null.
-/

namespace Dyld.SlideInfo

open Dyld.Lib Dyld.Chained

inductive SharedCacheFormat
  | none
  | v2_x86_64_tbi
  | v3
  deriving DecidableEq, Repr

structure VMAddrConverter where
  preferredLoadAddress : BitVec 64
  slide : BitVec 64
  chainedPointerFormat : Nat
  contentRebased : Bool
  sharedCacheChainedPointerFormat : SharedCacheFormat

/-- The `deltaMask` of the version 2 slide info with tagged pointers. -/
def tbiDeltaMask : BitVec 64 := 0x00FFFF0000000000#64

namespace VMAddrConverter

def chainedVMAddr (preferredLoadAddress : BitVec 64) (format : Nat) (value : PointerOnDisk) : BitVec 64 :=
  match value.isRebase format preferredLoadAddress with
  | some targetRuntimeOffset => preferredLoadAddress + targetRuntimeOffset
  | .none => value

def convertToVMAddr (strip : BitVec 64 → BitVec 64) (c : VMAddrConverter) (value : BitVec 64) :
    BitVec 64 :=
  if c.contentRebased then
    if value = 0 then 0 else strip value - c.slide
  else if c.chainedPointerFormat ≠ 0 then
    chainedVMAddr c.preferredLoadAddress c.chainedPointerFormat value
  else
    match c.sharedCacheChainedPointerFormat with
    | .none => value
    | .v2_x86_64_tbi =>
      let value := value &&& ~~~tbiDeltaMask
      if value ≠ 0 then value + c.preferredLoadAddress else value
    | .v3 => chainedVMAddr c.preferredLoadAddress ptrArm64e value

end VMAddrConverter

/-! ### The forms on disk and their fixers -/

inductive DiskForm
  | chained (format : Nat)
  | sharedCacheV2
  | sharedCacheV3
  deriving DecidableEq, Repr

namespace DiskForm

/-- A plain rebase. In version 3 both unused bits above the chain are clear. -/
def IsPlainRebase (raw : PointerOnDisk) : DiskForm → Prop
  | chained format => format ∈ ChainedImage.userlandFormats ∧ raw.isBind format = none ∧
      (format ∈ arm64eFormats → raw.arm64eAuth = false)
  | sharedCacheV2 => True
  | sharedCacheV3 => authenticated raw = false ∧ raw.arm64eBind = false

def converter (preferredLoadAddress slide : BitVec 64) (contentRebased : Bool) :
    DiskForm → VMAddrConverter
  | chained format => ⟨preferredLoadAddress, slide, format, contentRebased, .none⟩
  | sharedCacheV2 => ⟨preferredLoadAddress, slide, 0, contentRebased, .v2_x86_64_tbi⟩
  | sharedCacheV3 => ⟨preferredLoadAddress, slide, 0, contentRebased, .v3⟩

/-- The fixer of a form leaves `w` at a location that held `raw`: `fixupAllChainedFixups` of an image,
`rebaseChainV2`, or the version 3 branch of `rebaseDataPages`. -/
def Fixes (preferredLoadAddress slide : BitVec 64) (raw w : BitVec 64) : DiskForm → Prop
  | chained format => ∃ (image : ChainedImage) (loc : Nat),
      image.preferredLoadAddress = preferredLoadAddress ∧ image.slide = slide ∧
        image.loadAddress = preferredLoadAddress + slide ∧ image.newValue format loc raw = .ok w
  | sharedCacheV2 => ∃ (hasHigh8 : Nat → Option (BitVec 8)) (loc : Nat),
      (formatV2 (n := 8) tbiDeltaMask preferredLoadAddress hasHigh8).rebased slide loc raw = .ok w
  | sharedCacheV3 => ∃ (c : LoaderV3) (loc : Nat), c.slide = slide ∧ c.rebased loc raw = .ok w

end DiskForm

open DiskForm VMAddrConverter

section Views

variable {preferredLoadAddress slide raw w : BitVec 64} {form : DiskForm}

lemma isRebase_of_isBind_none {format : Nat} (hformat : format ∈ ChainedImage.userlandFormats)
    (hbind : PointerOnDisk.isBind raw format = none) :
    ∃ off, PointerOnDisk.isRebase raw format preferredLoadAddress = some off := by
  unfold PointerOnDisk.isBind at hbind
  unfold PointerOnDisk.isRebase
  rcases ChainedImage.userlandFormats_cases hformat with ⟨h64, hnot, -⟩ | ⟨harm, -, -⟩
  · rw [if_neg hnot, if_pos h64] at hbind ⊢
    split_ifs at hbind with hb
    rw [if_neg hb]
    split_ifs <;> exact ⟨_, rfl⟩
  · rw [if_pos harm] at hbind ⊢
    split_ifs at hbind with hb
    rw [if_neg hb]
    split_ifs <;> exact ⟨_, rfl⟩

lemma fixes_chained {format : Nat} (hraw : IsPlainRebase raw (chained format))
    (hw : Fixes preferredLoadAddress slide raw w (chained format)) :
    w = chainedVMAddr preferredLoadAddress format raw + slide := by
  obtain ⟨image, loc, hpref, hslide, hload, hw⟩ := hw
  obtain ⟨hformat, hbind, hauth⟩ := hraw
  have hrebase : ∃ off, PointerOnDisk.isRebase raw format preferredLoadAddress = some off :=
    isRebase_of_isBind_none hformat hbind
  obtain ⟨off, hoff⟩ := hrebase
  have hdelta : image.slide = image.loadAddress - image.preferredLoadAddress := by
    rw [hslide, hload, hpref]
    ring
  have hrange : image.ordinalInRange format raw = true := by rw [ChainedImage.ordinalInRange, hbind]
  have hfinal : image.finalValue format raw = image.loadAddress + off := by
    rw [ChainedImage.finalValue, hpref, hoff]
  rw [ChainedImage.newValue_eq loc hdelta hformat hauth, if_pos hrange, hfinal] at hw
  rw [← Except.ok.inj hw, chainedVMAddr, hoff, hload]
  ring

lemma fixes_sharedCacheV3 (hraw : IsPlainRebase raw sharedCacheV3)
    (hw : Fixes preferredLoadAddress slide raw w sharedCacheV3) :
    w = chainedVMAddr preferredLoadAddress ptrArm64e raw + slide := by
  obtain ⟨c, loc, rfl, hw⟩ := hw
  obtain ⟨hauth, hbind⟩ := hraw
  have hrebase : PointerOnDisk.isRebase raw ptrArm64e preferredLoadAddress =
      some (PointerOnDisk.arm64eUnpackTarget raw - preferredLoadAddress) := by
    have hauth' : PointerOnDisk.arm64eAuth raw = false := hauth
    unfold PointerOnDisk.isRebase
    rw [if_pos (by decide), if_neg (by simp [hbind]), if_neg (by simp [hauth']), if_pos (.inl rfl)]
  rw [LoaderV3.rebased, hauth, if_neg (by decide)] at hw
  rw [← Except.ok.inj hw, chainedVMAddr, hrebase]
  ring

lemma fixes_sharedCacheV2 (hw : Fixes preferredLoadAddress slide raw w sharedCacheV2) :
    raw &&& ~~~tbiDeltaMask = 0 ∧ w = 0 ∨
      raw &&& ~~~tbiDeltaMask ≠ 0 ∧ w = (raw &&& ~~~tbiDeltaMask) + preferredLoadAddress + slide := by
  obtain ⟨hasHigh8, loc, hw⟩ := hw
  have hvalue : rebasedValueV2 (n := 8) preferredLoadAddress slide (raw &&& ~~~tbiDeltaMask) = w :=
    Except.ok.inj hw
  rw [← hvalue]
  by_cases hzero : raw &&& ~~~tbiDeltaMask = 0
  · rw [hzero]
    exact .inl ⟨rfl, rebasedValueV2_zero _ _⟩
  · exact .inr ⟨hzero, rebasedValueV2_of_ne hzero⟩

lemma convertToVMAddr_chained {strip : BitVec 64 → BitVec 64} {format : Nat}
    (hformat : format ∈ ChainedImage.userlandFormats) :
    ((chained format).converter preferredLoadAddress slide false).convertToVMAddr strip raw =
      chainedVMAddr preferredLoadAddress format raw := by
  have hne : format ≠ 0 := by
    rintro rfl
    revert hformat
    decide
  exact if_pos hne

lemma fixes_vmAddr (strip : BitVec 64 → BitVec 64) (hraw : IsPlainRebase raw form)
    (hw : Fixes preferredLoadAddress slide raw w form) :
    (form.converter preferredLoadAddress slide false).convertToVMAddr strip raw = 0 ∧ w = 0 ∨
      w = (form.converter preferredLoadAddress slide false).convertToVMAddr strip raw + slide := by
  cases form with
  | chained format =>
    right
    rw [convertToVMAddr_chained hraw.1]
    exact fixes_chained hraw hw
  | sharedCacheV2 =>
    rcases fixes_sharedCacheV2 hw with ⟨hzero, hw⟩ | ⟨hne, hw⟩
    · left
      refine ⟨?_, hw⟩
      change (if raw &&& ~~~tbiDeltaMask ≠ 0 then _ else raw &&& ~~~tbiDeltaMask) = 0
      rw [hzero, if_neg (by simp)]
    · right
      rw [hw]
      change _ = (if raw &&& ~~~tbiDeltaMask ≠ 0 then (raw &&& ~~~tbiDeltaMask) + preferredLoadAddress
        else raw &&& ~~~tbiDeltaMask) + slide
      rw [if_pos hne]
  | sharedCacheV3 => exact .inr (fixes_sharedCacheV3 hraw hw)

/-- The view of memory agrees with the view of the disk, unless the slide takes a pointer that is not
null to address zero. -/
theorem views_agree_iff {strip : BitVec 64 → BitVec 64} (hraw : IsPlainRebase raw form)
    (hw : Fixes preferredLoadAddress slide raw w form) (hstrip : strip w = w) :
    (form.converter preferredLoadAddress slide false).convertToVMAddr strip raw =
        (form.converter preferredLoadAddress slide true).convertToVMAddr strip w ↔
      ((form.converter preferredLoadAddress slide false).convertToVMAddr strip raw ≠ 0 →
        (form.converter preferredLoadAddress slide false).convertToVMAddr strip raw + slide ≠ 0) := by
  have hlive : (form.converter preferredLoadAddress slide true).convertToVMAddr strip w =
      if w = 0 then 0 else w - slide := by
    cases form <;> simp only [DiskForm.converter, convertToVMAddr, if_true, hstrip]
  have hdisk := fixes_vmAddr strip hraw hw
  rw [hlive]
  generalize (form.converter preferredLoadAddress slide false).convertToVMAddr strip raw = d at hdisk ⊢
  rcases hdisk with ⟨rfl, rfl⟩ | rfl
  · simp
  · by_cases hzero : d + slide = 0
    · rw [if_pos hzero]
      exact ⟨fun hd hne => absurd hd hne, fun h => by_contra fun hd => h hd hzero⟩
    · rw [if_neg hzero, add_sub_cancel_right]
      exact ⟨fun _ _ => hzero, fun _ => rfl⟩

end Views

def slidImage (preferredLoadAddress slide : BitVec 64) : ChainedImage :=
  ⟨preferredLoadAddress + slide, preferredLoadAddress, slide, [], fun target _ _ _ _ => target⟩

/-- A pointer with the tag `0x12`. -/
theorem views_agree_iff_tagged :
    ((chained ptr64).converter 0x100000000 0x4000 false).convertToVMAddr id 0x0000012100001000 =
      ((chained ptr64).converter 0x100000000 0x4000 true).convertToVMAddr id 0x1200000100005000 := by
  have hfixes : Fixes 0x100000000 0x4000 0x0000012100001000 0x1200000100005000 (chained ptr64) :=
    ⟨slidImage 0x100000000 0x4000, 0, rfl, rfl, rfl, by decide⟩
  have hraw : IsPlainRebase 0x0000012100001000 (chained ptr64) := ⟨by decide, by decide, by decide⟩
  exact (views_agree_iff hraw hfixes rfl).mpr (fun _ => by decide)

/-- A dylib that is linked at `0x180000000` and mapped at `0x104000000`: a pointer that holds the distance
slides to address zero. -/
theorem views_disagree_at_zero :
    IsPlainRebase 0x7C000000 (chained ptr64) ∧
      Fixes 0x180000000 (0x104000000 - 0x180000000) 0x7C000000 0 (chained ptr64) ∧
      ((chained ptr64).converter 0x180000000 (0x104000000 - 0x180000000) false).convertToVMAddr id
          0x7C000000 ≠
        ((chained ptr64).converter 0x180000000 (0x104000000 - 0x180000000) true).convertToVMAddr id 0 := by
  refine ⟨⟨by decide, by decide, by decide⟩, ?_, by decide⟩
  exact ⟨slidImage 0x180000000 (0x104000000 - 0x180000000), 0, rfl, rfl, rfl, by decide⟩

end Dyld.SlideInfo
