import Dyld.Closure.BindPattern
import Dyld.Lib.BitField
import Dyld.MachO.ReExports
import Dyld.Runtime.GarbageCollection

/-!
# Resolved symbol targets

The closure builder packs the target of a bind into a word, with a layout for each kind, and
`Loader` and `AllImages` turn the word into an address again. Both test bit 62 of an absolute value
for its sign, which a value of 62 bits does not have.
-/

namespace Dyld.Closure.ResolvedTarget

open Dyld.Lib Dyld.AllImages
open Dyld.MachO.ReExports (TargetKind)

inductive Kinds
  | kindRebase
  | kindSharedCache
  | kindImage
  | kindAbsolute
  deriving DecidableEq, Repr

/-- The enumerator's value. -/
def Kinds.value : Kinds → Nat
  | .kindRebase => 0
  | .kindSharedCache => 1
  | .kindImage => 2
  | .kindAbsolute => 3

structure PatchEntry where
  overriddenDylibInCache : Nat
  exportCacheOffset : UInt32
  replacement : ResolvedSymbolTarget
  deriving DecidableEq

/-! ### The builder -/

/-- A `FixupTarget`: `mh` is where `foundInImage` is while the closure is built, and `imageNum` the
number of its `BuilderLoadedImage`. -/
structure FixupTarget where
  kind : TargetKind
  mh : Nat
  inDyldCache : Bool
  imageNum : Nat
  offsetInImage : BitVec 64

/-- The value that is assigned to `sharedCache.offset`. -/
def FixupTarget.cacheOffset (dyldCache : Nat) (target : FixupTarget) : Int :=
  (target.mh : Int) - dyldCache + target.offsetInImage.toNat

/-- `ClosureBuilder::makeResolvedTarget`, which starts from a word that is not initialized. -/
def makeResolvedTarget (dyldCache : Nat) (uninitialized : ResolvedSymbolTarget) (target : FixupTarget) :
    Option ResolvedSymbolTarget :=
  match target.kind with
  | .rebase => none
  | .bindToImage =>
    if target.inDyldCache then
      let resolvedTarget := setField uninitialized 0 2 Kinds.kindSharedCache.value
      some (setField resolvedTarget 2 62 (target.cacheOffset dyldCache % 2 ^ 64).toNat)
    else
      let resolvedTarget := setField uninitialized 0 2 Kinds.kindImage.value
      let resolvedTarget := setField resolvedTarget 2 22 target.imageNum
      some (setField resolvedTarget 24 40 target.offsetInImage.toNat)
  | .bindAbsolute =>
    let resolvedTarget := setField uninitialized 0 2 Kinds.kindAbsolute.value
    some (setField resolvedTarget 2 62 target.offsetInImage.toNat)
  | .bindMissingSymbol => none

/-! ### The resolvers -/

/-- A process. `Loader` keeps its images in two arrays, which `AllImages` has in one. -/
structure Process where
  is64 : Bool
  dyldCacheAddress : Option Nat
  existingImages : List LoadedImage
  newImages : List LoadedImage

namespace Process

variable (p : Process)

/-- The width of `uintptr_t`. -/
def width : Nat := if p.is64 then 64 else 32

/-- A cast to `uintptr_t`. -/
def uintptr (z : Int) : Nat := (z % ((2 ^ p.width : Nat) : Int)).toNat

def loadedImages : List LoadedImage := p.existingImages ++ p.newImages

end Process

def Loader.findImage (p : Process) (targetImageNum : Nat) : Option LoadedImage :=
  (p.existingImages.find? (fun li => li.image.representsImageNum targetImageNum)).or
    (p.newImages.find? (fun li => li.image.representsImageNum targetImageNum))

def AllImages.findImageNum (p : Process) (imageNum : Nat) : Option LoadedImage :=
  p.loadedImages.find? (fun li => li.image.representsImageNum imageNum)

/-- The body that the two resolvers share; `none` is a failed assertion. -/
def resolve (p : Process) (findImage : Nat → Option LoadedImage) (target : ResolvedSymbolTarget) :
    Option Nat :=
  match getField target 0 2 with
  | 1 => p.dyldCacheAddress.map (fun (cache : Nat) => p.uintptr (cache + getSignedField target 2 62))
  | 2 =>
    (findImage (getField target 2 22)).map (fun info =>
      p.uintptr (info.loadedAddress + getSignedField target 24 40))
  | 3 =>
    let value := getField target 2 62
    if value.testBit 62 then some (p.uintptr ((value ||| 0xC000000000000000 : Nat) : Int))
    else some (p.uintptr value)
  | _ => none

def Loader.resolveTarget (p : Process) (target : ResolvedSymbolTarget) : Option Nat :=
  resolve p (Loader.findImage p) target

def AllImages.resolveTarget (p : Process) (target : ResolvedSymbolTarget) : Option Nat :=
  resolve p (AllImages.findImageNum p) target

lemma findImage_eq_findImageNum (p : Process) : Loader.findImage p = AllImages.findImageNum p := by
  funext imageNum
  rw [Loader.findImage, AllImages.findImageNum, Process.loadedImages, List.find?_append]

theorem loader_resolveTarget_eq (p : Process) : Loader.resolveTarget p = AllImages.resolveTarget p := by
  funext target
  rw [Loader.resolveTarget, AllImages.resolveTarget, findImage_eq_findImageNum]

/-! ### What the words hold -/

section Words

variable (u : ResolvedSymbolTarget) (v n : Nat)

lemma getField_kind (kind : Kinds) :
    getField (setField (setField u 0 2 kind.value) 2 62 v) 0 2 = kind.value := by
  rw [getField_setField_apart _ (by norm_num), getField_setField_same _ (by norm_num)]
  cases kind <;> rfl

lemma getField_kind_image :
    getField (setField (setField (setField u 0 2 Kinds.kindImage.value) 2 22 n) 24 40 v) 0 2 =
      Kinds.kindImage.value := by
  rw [getField_setField_apart _ (by norm_num), getField_setField_apart _ (by norm_num),
    getField_setField_same _ (by norm_num)]
  rfl

lemma getField_imageNum :
    getField (setField (setField u 2 22 n) 24 40 v) 2 22 = n % 2 ^ 22 := by
  rw [getField_setField_apart _ (by norm_num), getField_setField_same _ (by norm_num)]

end Words

section Resolve

variable (p : Process) (findImage : Nat → Option LoadedImage) (u : ResolvedSymbolTarget)

lemma resolve_sharedCache (v : Nat) :
    resolve p findImage (setField (setField u 0 2 Kinds.kindSharedCache.value) 2 62 v) =
      p.dyldCacheAddress.map (fun (cache : Nat) => p.uintptr (cache + Int.bmod v (2 ^ 62))) := by
  rw [resolve, getField_kind, getSignedField_setField_same _ (by norm_num)]
  rfl

lemma resolve_image (n v : Nat) :
    resolve p findImage (setField (setField (setField u 0 2 Kinds.kindImage.value) 2 22 n) 24 40 v) =
      (findImage (n % 2 ^ 22)).map (fun info =>
        p.uintptr (info.loadedAddress + Int.bmod v (2 ^ 40))) := by
  rw [resolve, getField_kind_image, getSignedField_setField_same _ (by norm_num), getField_imageNum]
  rfl

lemma resolve_absolute (v : Nat) :
    resolve p findImage (setField (setField u 0 2 Kinds.kindAbsolute.value) 2 62 v) =
      some (p.uintptr ((v % 2 ^ 62 : Nat) : Int)) := by
  have hbit : (v % 2 ^ 62).testBit 62 = false :=
    Nat.testBit_lt_two_pow (Nat.mod_lt _ (Nat.two_pow_pos 62))
  rw [resolve, getField_kind, getField_setField_same _ (by norm_num)]
  change (if (v % 2 ^ 62).testBit 62 = true then _ else _) = _
  rw [hbit]
  rfl

end Resolve

/-! ### The round trip -/

def FixupTarget.address (p : Process) (dyldCache : Nat) (target : FixupTarget) : Option Nat :=
  match target.kind with
  | .bindToImage =>
    if target.inDyldCache then
      p.dyldCacheAddress.map (fun (cache : Nat) => p.uintptr (cache + target.cacheOffset dyldCache))
    else
      (AllImages.findImageNum p target.imageNum).map (fun info =>
        p.uintptr (info.loadedAddress + target.offsetInImage.toNat))
  | .bindAbsolute => some (p.uintptr target.offsetInImage.toNat)
  | .rebase | .bindMissingSymbol => none

/-- A bind whose offset in another image has 40 bits, or whose absolute value is the sign extension
of 62 bits. -/
def FixupTarget.Encodable (target : FixupTarget) : Prop :=
  match target.kind with
  | .bindToImage =>
    target.inDyldCache = true ∨
      -(2 ^ 39) ≤ target.offsetInImage.toInt ∧ target.offsetInImage.toInt < 2 ^ 39
  | .bindAbsolute => -(2 ^ 61) ≤ target.offsetInImage.toInt ∧ target.offsetInImage.toInt < 2 ^ 61
  | .rebase | .bindMissingSymbol => False

def RoundTrips (p : Process) (dyldCache : Nat) (u : ResolvedSymbolTarget) (target : FixupTarget) :
    Prop :=
  ∃ word, makeResolvedTarget dyldCache u target = some word ∧
    Loader.resolveTarget p word = target.address p dyldCache ∧
    AllImages.resolveTarget p word = target.address p dyldCache

/-- Where pointers have 64 bits, an offset in the cache has 62 bits and an absolute value is not
negative; an image is found under the low 22 bits of its number. -/
def FixupTarget.Survives (p : Process) (dyldCache : Nat) (target : FixupTarget) : Prop :=
  match target.kind with
  | .bindToImage =>
    if target.inDyldCache then
      p.is64 = true → -(2 ^ 61) ≤ Int.bmod (target.cacheOffset dyldCache) (2 ^ 64) ∧
        Int.bmod (target.cacheOffset dyldCache) (2 ^ 64) < 2 ^ 61
    else
      (AllImages.findImageNum p (target.imageNum % 2 ^ 22)).map (fun li => p.uintptr li.loadedAddress) =
        (AllImages.findImageNum p target.imageNum).map (fun li => p.uintptr li.loadedAddress)
  | .bindAbsolute => p.is64 = true → 0 ≤ target.offsetInImage.toInt
  | .rebase | .bindMissingSymbol => False

section Uintptr

variable (p : Process) {a b : Int}

lemma uintptr_eq_iff : p.uintptr a = p.uintptr b ↔ a ≡ b [ZMOD ((2 ^ p.width : Nat) : Int)] := by
  have hpos : (0 : Int) < ((2 ^ p.width : Nat) : Int) := by positivity
  have ha := Int.emod_nonneg a hpos.ne'
  have hb := Int.emod_nonneg b hpos.ne'
  rw [Process.uintptr, Process.uintptr, Int.ModEq]
  omega

lemma uintptr_add_iff (c : Int) : p.uintptr (c + a) = p.uintptr (c + b) ↔ p.uintptr a = p.uintptr b := by
  rw [uintptr_eq_iff, uintptr_eq_iff]
  exact ⟨Int.ModEq.add_left_cancel' c, Int.ModEq.add_left c⟩

lemma uintptr_add_right_iff (c : Int) :
    p.uintptr (a + c) = p.uintptr (b + c) ↔ p.uintptr a = p.uintptr b := by
  rw [add_comm a, add_comm b]
  exact uintptr_add_iff p c

/-- A signed field that a pointer of 32 bits is read from is long enough. -/
lemma uintptr_bmod_of_32 (hwidth : p.is64 = false) {len : Nat} (hlen : 32 ≤ len) (z : Int) :
    p.uintptr (Int.bmod z (2 ^ len)) = p.uintptr z := by
  rw [uintptr_eq_iff, Process.width, if_neg (by simp [hwidth])]
  have hdvd : ((2 ^ 32 : Nat) : Int) ∣ ((2 ^ len : Nat) : Int) :=
    Int.natCast_dvd_natCast.mpr (pow_dvd_pow 2 hlen)
  have hlen : Int.bmod z (2 ^ len) ≡ z [ZMOD ((2 ^ len : Nat) : Int)] := Int.bmod_emod
  exact hlen.of_dvd hdvd

lemma width_eq_64 (h : p.is64 = true) : p.width = 64 := by rw [Process.width, if_pos h]

end Uintptr

section RoundTrip

variable (p : Process) (dyldCache : Nat) (u : ResolvedSymbolTarget) {target : FixupTarget}

lemma roundTrips_iff {word : ResolvedSymbolTarget}
    (h : makeResolvedTarget dyldCache u target = some word) :
    RoundTrips p dyldCache u target ↔
      AllImages.resolveTarget p word = target.address p dyldCache := by
  rw [RoundTrips, h, loader_resolveTarget_eq]
  constructor
  · rintro ⟨word', hword, haddress, -⟩
    rw [Option.some.injEq] at hword
    exact hword ▸ haddress
  · intro haddress
    exact ⟨word, rfl, haddress, haddress⟩

/-- A field of 62 bits keeps a value for a pointer exactly when the pointer is short or the value is
in its range. -/
lemma uintptr_bmod_iff (z : Int) :
    p.uintptr (Int.bmod z (2 ^ 62)) = p.uintptr z ↔
      (p.is64 = true → -(2 ^ 61) ≤ Int.bmod z (2 ^ 64) ∧ Int.bmod z (2 ^ 64) < 2 ^ 61) := by
  cases h64 : p.is64 with
  | false =>
    rw [uintptr_bmod_of_32 p h64 (by norm_num : 32 ≤ 62)]
    simp
  | true =>
    rw [uintptr_eq_iff, width_eq_64 p h64, Int.ModEq, bmod_emod_eq_iff z (by norm_num)]
    simp

lemma roundTrips_sharedCache (hkind : target.kind = .bindToImage) (hcache : target.inDyldCache = true)
    (h : (target.address p dyldCache).isSome) :
    RoundTrips p dyldCache u target ↔ target.Survives p dyldCache := by
  have hmake : makeResolvedTarget dyldCache u target = some (setField (setField u 0 2
      Kinds.kindSharedCache.value) 2 62 (target.cacheOffset dyldCache % 2 ^ 64).toNat) := by
    rw [makeResolvedTarget, hkind]
    simp [hcache]
  have hcast : ((target.cacheOffset dyldCache % 2 ^ 64).toNat : Int) =
      target.cacheOffset dyldCache % ((2 ^ 64 : Nat) : Int) := by
    rw [Int.toNat_of_nonneg (Int.emod_nonneg _ (by norm_num))]
    norm_num
  have hlow : Int.bmod (target.cacheOffset dyldCache % ((2 ^ 64 : Nat) : Int)) (2 ^ 62) =
      Int.bmod (target.cacheOffset dyldCache) (2 ^ 62) := by
    rw [← Int.bmod_bmod_of_dvd (m := 2 ^ 64) (by norm_num), Int.emod_bmod,
      Int.bmod_bmod_of_dvd (by norm_num)]
  rw [roundTrips_iff p dyldCache u hmake, AllImages.resolveTarget, resolve_sharedCache, hcast, hlow]
  rw [FixupTarget.address, hkind] at h ⊢
  rw [FixupTarget.Survives, hkind]
  simp only [hcache, if_true] at h ⊢
  cases hp : p.dyldCacheAddress with
  | none => simp [hp] at h
  | some cache =>
    rw [Option.map_some, Option.map_some, Option.some.injEq, uintptr_add_iff, uintptr_bmod_iff]

lemma roundTrips_image (hkind : target.kind = .bindToImage) (hcache : target.inDyldCache = false)
    (hoffset : -(2 ^ 39) ≤ target.offsetInImage.toInt ∧ target.offsetInImage.toInt < 2 ^ 39)
    (h : (target.address p dyldCache).isSome) :
    RoundTrips p dyldCache u target ↔ target.Survives p dyldCache := by
  have hmake : makeResolvedTarget dyldCache u target = some (setField (setField (setField u 0 2
      Kinds.kindImage.value) 2 22 target.imageNum) 24 40 target.offsetInImage.toNat) := by
    rw [makeResolvedTarget, hkind]
    simp [hcache]
  have hsigned : Int.bmod target.offsetInImage.toNat (2 ^ 40) = target.offsetInImage.toInt := by
    rw [← (bmod_eq_self_iff 39).mpr hoffset, BitVec.toInt_eq_toNat_bmod]
    exact (Int.bmod_bmod_of_dvd (by norm_num)).symm
  have hunsigned : p.uintptr target.offsetInImage.toInt = p.uintptr target.offsetInImage.toNat := by
    have hmod : target.offsetInImage.toInt ≡ target.offsetInImage.toNat [ZMOD ((2 ^ 64 : Nat) : Int)] := by
      rw [BitVec.toInt_eq_toNat_bmod]
      exact Int.bmod_emod
    have hdvd : ((2 ^ p.width : Nat) : Int) ∣ ((2 ^ 64 : Nat) : Int) := by
      rw [Process.width]
      split <;> norm_num
    exact (uintptr_eq_iff p).mpr (hmod.of_dvd hdvd)
  rw [roundTrips_iff p dyldCache u hmake, AllImages.resolveTarget, resolve_image, hsigned]
  rw [FixupTarget.address, hkind] at h ⊢
  rw [FixupTarget.Survives, hkind]
  simp only [hcache, Bool.false_eq_true, if_false] at h ⊢
  cases hfound : AllImages.findImageNum p target.imageNum with
  | none => simp [hfound] at h
  | some info =>
    cases hlow : AllImages.findImageNum p (target.imageNum % 2 ^ 22) with
    | none => simp
    | some info' =>
      simp only [Option.map_some, Option.some.injEq]
      rw [← (uintptr_add_iff p info.loadedAddress).mpr hunsigned, uintptr_add_right_iff]

lemma roundTrips_absolute (hkind : target.kind = .bindAbsolute)
    (hvalue : -(2 ^ 61) ≤ target.offsetInImage.toInt ∧ target.offsetInImage.toInt < 2 ^ 61) :
    RoundTrips p dyldCache u target ↔ target.Survives p dyldCache := by
  have hmake : makeResolvedTarget dyldCache u target = some (setField (setField u 0 2
      Kinds.kindAbsolute.value) 2 62 target.offsetInImage.toNat) := by
    rw [makeResolvedTarget, hkind]
  rw [roundTrips_iff p dyldCache u hmake, AllImages.resolveTarget, resolve_absolute,
    FixupTarget.address, hkind, FixupTarget.Survives, hkind, Option.some.injEq, uintptr_eq_iff]
  cases h64 : p.is64 with
  | false =>
    have hdvd : ((2 ^ 32 : Nat) : Int) ∣ ((2 ^ 62 : Nat) : Int) := by norm_num
    have hmod : ((target.offsetInImage.toNat % 2 ^ 62 : Nat) : Int) ≡ target.offsetInImage.toNat
        [ZMOD ((2 ^ 62 : Nat) : Int)] := by
      rw [Int.natCast_mod]
      exact Int.mod_modEq _ _
    rw [Process.width, if_neg (by simp [h64])]
    exact iff_of_true (hmod.of_dvd hdvd) (by simp)
  | true =>
    have hlt := target.offsetInImage.isLt
    rw [width_eq_64 p h64, Int.ModEq]
    rw [BitVec.toInt_eq_toNat_cond] at hvalue ⊢
    simp only [forall_const]
    split at hvalue
    · rw [if_pos (by assumption)]
      omega
    · rw [if_neg (by assumption)]
      omega

end RoundTrip

/-- The resolvers agree on every word, and the word of an encodable target leads back to its address
exactly when the target survives. -/
theorem roundTrips_iff_survives (p : Process) (dyldCache : Nat) (u : ResolvedSymbolTarget)
    (target : FixupTarget) (hencodable : target.Encodable) (h : (target.address p dyldCache).isSome) :
    Loader.resolveTarget p = AllImages.resolveTarget p ∧
      (RoundTrips p dyldCache u target ↔ target.Survives p dyldCache) := by
  refine ⟨loader_resolveTarget_eq p, ?_⟩
  rw [FixupTarget.Encodable] at hencodable
  cases hkind : target.kind with
  | rebase => simp [hkind] at hencodable
  | bindMissingSymbol => simp [hkind] at hencodable
  | bindToImage =>
    rw [hkind] at hencodable
    cases hcache : target.inDyldCache with
    | true => exact roundTrips_sharedCache p dyldCache u hkind hcache h
    | false =>
      rw [hcache] at hencodable
      exact roundTrips_image p dyldCache u hkind hcache
        (hencodable.resolve_left (by simp)) h
  | bindAbsolute =>
    rw [hkind] at hencodable
    exact roundTrips_absolute p dyldCache u hkind hencodable

def smallProcess : Process where
  is64 := true
  dyldCacheAddress := none
  existingImages := []
  newImages := []

def absoluteTarget (value : BitVec 64) : FixupTarget where
  kind := .bindAbsolute
  mh := 0
  inDyldCache := false
  imageNum := 0
  offsetInImage := value

theorem roundTrips_absolute_seven : RoundTrips smallProcess 0 0 (absoluteTarget 7) := by
  have hsurvives := roundTrips_iff_survives smallProcess 0 0 (absoluteTarget 7)
    ⟨by decide, by decide⟩ rfl
  exact hsurvives.2.mpr (fun _ => by decide)

/-- The absolute value -1 becomes 0x3FFFFFFFFFFFFFFF. -/
theorem absolute_minus_one_not_roundTrips :
    (absoluteTarget (-1)).Encodable ∧
      ∃ word, makeResolvedTarget 0 0 (absoluteTarget (-1)) = some word ∧
        (absoluteTarget (-1)).address smallProcess 0 = some 0xFFFFFFFFFFFFFFFF ∧
        Loader.resolveTarget smallProcess word = some 0x3FFFFFFFFFFFFFFF ∧
        AllImages.resolveTarget smallProcess word = some 0x3FFFFFFFFFFFFFFF := by
  refine ⟨⟨by decide, by decide⟩, 0xFFFFFFFFFFFFFFFF#64, by decide, by decide, by decide, by decide⟩

end Dyld.Closure.ResolvedTarget
