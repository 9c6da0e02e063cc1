import Dyld.Cache.Adjustor

/-!
# Chained rebases after their segments moved

The intermediate form of a chained rebase, in the entry and in the side tables of the cache,
and the pointer it stands for. The v2 path converts an entry in `adjustReference`, the v1 path
walks all chains in `adjustRebaseChains`; both are compared with the target that `isRebase`
read before, moved by the slide of its segment.
-/

namespace Dyld.Cache

open Dyld.Lib
open Dyld.Chained

/-! ### The intermediate form -/

def arm64eRebaseFormats : List Nat :=
  [ptrArm64e, ptrArm64eUserland, ptrArm64eUserland24, ptrArm64eKernel]

def entryTarget (format : Nat) (broken : Bool) (raw : PointerOnDisk) : BitVec 64 :=
  if format ∈ arm64eRebaseFormats then
    if broken then raw
    else if raw.arm64eAuth then BitVec.ofNat 64 raw.arm64eAuthTarget
    else BitVec.ofNat 64 raw.arm64eTarget
  else BitVec.ofNat 64 raw.generic64Target

/-- The top byte left in an entry. -/
def entryHigh8 (format : Nat) (broken : Bool) (raw : PointerOnDisk) : BitVec 8 :=
  if format ∈ arm64eRebaseFormats then
    if broken ∨ raw.arm64eAuth then 0 else BitVec.ofNat 8 raw.arm64eHigh8
  else BitVec.ofNat 8 raw.generic64High8

/-- A top byte in its place. -/
def tag (high8 : BitVec 8) : BitVec 64 := high8.setWidth 64 <<< 56

section Intermediate

variable (format : Nat) (broken : Bool) (s : AdjustState) (p : Nat)

def intermediateTarget : BitVec 64 :=
  (s.aslrTracker.rebaseTarget64 p).getD (entryTarget format broken (s.get64 p))

def intermediateHigh8 : BitVec 8 :=
  (s.aslrTracker.high8Map p).getD (entryHigh8 format broken (s.get64 p))

/-- The pointer that the entry at `p` and its records stand for. -/
def intermediate : BitVec 64 :=
  intermediateTarget format broken s p + tag (intermediateHigh8 format broken s p)

end Intermediate

def nextField (format : Nat) (raw : PointerOnDisk) : Nat :=
  if format ∈ arm64eRebaseFormats then raw.arm64eNext else raw.generic64Next

/-- The auth data of the entry `raw` is still in the entry at `p`, or recorded. -/
def AuthKept (broken : Bool) (raw : PointerOnDisk) (s : AdjustState) (p : Nat) : Prop :=
  (broken = false ∧ PointerOnDisk.arm64eAuth (s.get64 p) ∧ authDataOf (s.get64 p) = authDataOf raw) ∨
    s.aslrTracker.authDataMap p = some (authDataOf raw)

def RebaseMoved (format : Nat) (base slide : BitVec 64) (broken : Bool) (p : Nat)
    (s s' : AdjustState) : Prop :=
  ∀ offset, PointerOnDisk.isRebase (s.get64 p) format base = some offset →
    intermediate format broken s' p = offset + base + slide ∧
    (format ∈ arm64eRebaseFormats → PointerOnDisk.arm64eAuth (s.get64 p) →
      AuthKept broken (s.get64 p) s' p) ∧
    (broken = false → nextField format (s'.get64 p) = nextField format (s.get64 p))

/-- Nothing has been recorded for the location. -/
def Unrecorded (s : AdjustState) (p : Nat) : Prop :=
  s.aslrTracker.rebaseTarget64 p = none ∧ s.aslrTracker.high8Map p = none

/-! ### Fields of entries -/

section Fields

variable (raw : PointerOnDisk) (v : Nat)

lemma arm64eAuth_plainRebase : PointerOnDisk.arm64eAuth (plainRebase raw v) = false := by
  rw [PointerOnDisk.arm64eAuth, plainRebase, getLsbD_setField]
  rfl

lemma arm64eHigh8_plainRebase : PointerOnDisk.arm64eHigh8 (plainRebase raw v) = 0 := by
  simp only [PointerOnDisk.arm64eHigh8, plainRebase]
  rw [getField_setField_apart _ (by omega), getField_setField_apart _ (by omega),
    getField_setField_same _ (by omega)]
  rfl

lemma arm64eTarget_plainRebase : PointerOnDisk.arm64eTarget (plainRebase raw v) = v % 2 ^ 43 := by
  simp only [PointerOnDisk.arm64eTarget, plainRebase]
  rw [getField_setField_apart _ (by omega), getField_setField_apart _ (by omega),
    getField_setField_apart _ (by omega), getField_setField_same _ (by omega)]

lemma arm64eNext_plainRebase :
    PointerOnDisk.arm64eNext (plainRebase raw v) = raw.arm64eNext := by
  simp only [PointerOnDisk.arm64eNext, plainRebase]
  rw [getField_setField_apart _ (by omega), getField_setField_apart _ (by omega),
    getField_setField_apart _ (by omega), getField_setField_apart _ (by omega)]

lemma getLsbD_setField_above {lo len i : Nat} (h : lo + len ≤ i) :
    (setField raw lo len v).getLsbD i = raw.getLsbD i := by
  rw [getLsbD_setField, if_neg (by omega)]

lemma authDataOf_setField : authDataOf (setField raw 0 32 v) = authDataOf raw := by
  simp only [authDataOf, PointerOnDisk.arm64eDiversity, PointerOnDisk.arm64eAddrDiv,
    PointerOnDisk.arm64eKey]
  rw [getField_setField_apart _ (by omega), getField_setField_apart _ (by omega),
    getLsbD_setField_above _ _ (by omega)]

end Fields

lemma ofNat_toNat_mod {x : BitVec 64} {len : Nat} (h : x.toNat % 2 ^ len = x.toNat) :
    BitVec.ofNat 64 (x.toNat % 2 ^ len) = x := by
  rw [h, BitVec.ofNat_toNat, BitVec.setWidth_eq]

lemma arm64eUnpackTarget_eq (raw : PointerOnDisk) :
    raw.arm64eUnpackTarget =
      BitVec.ofNat 64 raw.arm64eTarget + tag (BitVec.ofNat 8 raw.arm64eHigh8) := by
  have hlt : raw.arm64eTarget < 2 ^ 43 := getField_lt raw 0 43
  have hh : raw.arm64eHigh8 < 2 ^ 8 := getField_lt raw 43 8
  have hsmall : (BitVec.ofNat 64 raw.arm64eTarget).toNat < 2 ^ 56 := by
    rw [BitVec.toNat_ofNat]
    omega
  have htag : (BitVec.ofNat 8 raw.arm64eHigh8).setWidth 64 = BitVec.ofNat 64 raw.arm64eHigh8 := by
    apply BitVec.eq_of_toNat_eq
    rw [BitVec.toNat_setWidth, BitVec.toNat_ofNat, BitVec.toNat_ofNat]
    omega
  rw [PointerOnDisk.arm64eUnpackTarget, shiftLeft_or_eq_add _ hsmall, tag, htag, BitVec.add_comm]

lemma generic64UnpackedTarget_eq (raw : PointerOnDisk) :
    raw.generic64UnpackedTarget =
      BitVec.ofNat 64 raw.generic64Target + tag (BitVec.ofNat 8 raw.generic64High8) := by
  have hlt : raw.generic64Target < 2 ^ 36 := getField_lt raw 0 36
  have hh : raw.generic64High8 < 2 ^ 8 := getField_lt raw 36 8
  have hsmall : (BitVec.ofNat 64 raw.generic64Target).toNat < 2 ^ 56 := by
    rw [BitVec.toNat_ofNat]
    omega
  have htag : (BitVec.ofNat 8 raw.generic64High8).setWidth 64 =
      BitVec.ofNat 64 raw.generic64High8 := by
    apply BitVec.eq_of_toNat_eq
    rw [BitVec.toNat_setWidth, BitVec.toNat_ofNat, BitVec.toNat_ofNat]
    omega
  rw [PointerOnDisk.generic64UnpackedTarget, shiftLeft_or_eq_add _ hsmall, tag, htag,
    BitVec.add_comm]

@[simp] lemma tag_zero : tag 0#8 = 0#64 := by decide

lemma low56_add_tag (x : BitVec 64) :
    (x &&& 0x00FFFFFFFFFFFFFF#64) + tag ((x >>> 56).setWidth 8) = x := by
  have hlow : (x &&& 0x00FFFFFFFFFFFFFF#64).toNat = x.toNat % 2 ^ 56 := by
    rw [BitVec.toNat_and]
    exact Nat.and_two_pow_sub_one_eq_mod _ 56
  have hhigh : (tag ((x >>> 56).setWidth 8)).toNat = x.toNat / 2 ^ 56 * 2 ^ 56 := by
    have hx := x.isLt
    rw [tag, BitVec.toNat_shiftLeft, BitVec.toNat_setWidth, BitVec.toNat_setWidth,
      BitVec.toNat_ushiftRight, Nat.shiftRight_eq_div_pow, Nat.shiftLeft_eq]
    omega
  apply BitVec.eq_of_toNat_eq
  have hx := x.isLt
  rw [BitVec.toNat_add, hlow, hhigh]
  omega

/-! ### Plain rebases -/

section Plain

variable {format p : Nat} {broken : Bool} {s : AdjustState} {targetVMAddr : BitVec 64}

lemma storePlainTarget_spec (hformat : format ∈ arm64eRebaseFormats)
    (hplain : PointerOnDisk.arm64eAuth (s.get64 p) = false)
    (hnone : s.aslrTracker.rebaseTarget64 p = none) :
    intermediateTarget format broken (storePlainTarget p targetVMAddr broken s) p =
      targetVMAddr := by
  unfold storePlainTarget
  cases broken with
  | true => simp [intermediateTarget, entryTarget, hformat, hnone]
  | false =>
    simp only [Bool.false_eq_true, if_false]
    split_ifs with hfit
    · have hauth : PointerOnDisk.arm64eAuth (setField (s.get64 p) 0 43 targetVMAddr.toNat) = false := by
        rw [PointerOnDisk.arm64eAuth, getLsbD_setField_above _ _ (by omega)]
        exact hplain
      have htarget : PointerOnDisk.arm64eTarget (setField (s.get64 p) 0 43 targetVMAddr.toNat) =
          targetVMAddr.toNat % 2 ^ 43 := getField_setField_same _ (by omega)
      simp only [intermediateTarget, AdjustState.aslrTracker_set64, hnone, Option.getD_none,
        AdjustState.get64_set64, entryTarget, hformat, if_true, Bool.false_eq_true, if_false, hauth,
        htarget]
      exact ofNat_toNat_mod hfit
    · simp [intermediateTarget]

/-- With nothing to store, a target that is recorded already stays. -/
lemma storePlainTarget_zero {x : BitVec 64} (hsome : s.aslrTracker.rebaseTarget64 p = some x) :
    intermediateTarget format broken (storePlainTarget p 0 broken s) p = x := by
  have hzero : (0 : BitVec 64).toNat % 2 ^ 43 = (0 : BitVec 64).toNat := rfl
  unfold storePlainTarget
  cases broken with
  | true => simp [intermediateTarget, hsome]
  | false =>
    simp only [Bool.false_eq_true, if_false, if_pos hzero]
    simp [intermediateTarget, hsome]

lemma storePlainTarget_high8Map :
    (storePlainTarget p targetVMAddr broken s).aslrTracker.high8Map = s.aslrTracker.high8Map := by
  unfold storePlainTarget
  dsimp only
  split_ifs <;> rfl

/-- The high byte and the next field of the entry stay unless the chain is broken. -/
lemma storePlainTarget_entry {lo len : Nat} (h : 43 ≤ lo) :
    getField ((storePlainTarget p targetVMAddr false s).get64 p) lo len =
      getField (s.get64 p) lo len := by
  unfold storePlainTarget
  simp only [Bool.false_eq_true, if_false]
  split_ifs
  · rw [AdjustState.get64_set64, getField_setField_apart _ (by omega)]
  · rw [AdjustState.get64_set64, getField_setField_apart _ (by omega)]

lemma storePlainTarget_auth :
    PointerOnDisk.arm64eAuth ((storePlainTarget p targetVMAddr false s).get64 p) =
      PointerOnDisk.arm64eAuth (s.get64 p) := by
  unfold storePlainTarget
  simp only [Bool.false_eq_true, if_false, PointerOnDisk.arm64eAuth]
  split_ifs
  · rw [AdjustState.get64_set64, getLsbD_setField_above _ _ (by omega)]
  · rw [AdjustState.get64_set64, getLsbD_setField_above _ _ (by omega)]

lemma storePlainTarget_high8 (hformat : format ∈ arm64eRebaseFormats)
    (hplain : PointerOnDisk.arm64eAuth (s.get64 p) = false) :
    intermediateHigh8 format broken (storePlainTarget p targetVMAddr broken s) p =
      (s.aslrTracker.high8Map p).getD
        (if broken then 0 else BitVec.ofNat 8 (PointerOnDisk.arm64eHigh8 (s.get64 p))) := by
  rw [intermediateHigh8, storePlainTarget_high8Map]
  congr 1
  cases broken with
  | true => simp [entryHigh8, hformat]
  | false =>
    have hfield : getField ((storePlainTarget p targetVMAddr false s).get64 p) 43 8 =
        getField (s.get64 p) 43 8 := storePlainTarget_entry le_rfl
    simp only [entryHigh8, hformat, if_true, storePlainTarget_auth, hplain, Bool.false_eq_true,
      or_self, if_false, PointerOnDisk.arm64eHigh8, hfield]

/-- The top byte of the pointer comes from the entry or from the new target, never from both. -/
lemma moveHigh8_spec (hformat : format ∈ arm64eRebaseFormats)
    (hplain : PointerOnDisk.arm64eAuth (s.get64 p) = false)
    (hnone : s.aslrTracker.rebaseTarget64 p = none) (hhigh : s.aslrTracker.high8Map p = none)
    (hok : (moveHigh8 p targetVMAddr broken s).diag = none) :
    intermediate format broken (moveHigh8 p targetVMAddr broken s) p =
      targetVMAddr + tag (BitVec.ofNat 8 (PointerOnDisk.arm64eHigh8 (s.get64 p))) := by
  unfold moveHigh8 at hok ⊢
  simp only at hok ⊢
  split_ifs at hok ⊢ with hentry htop htop
  · simp at hok
  · rw [intermediate, storePlainTarget_spec hformat (by exact hplain) (by exact hnone),
      storePlainTarget_high8 hformat (by exact hplain)]
    simp
  · rw [intermediate, storePlainTarget_spec hformat (by exact hplain) (by exact hnone),
      storePlainTarget_high8 hformat (by exact hplain)]
    have hz : PointerOnDisk.arm64eHigh8 (s.get64 p) = 0 := not_not.mp hentry
    have hsum := low56_add_tag targetVMAddr
    simp only [AdjustState.aslrTracker_track, ASLRTracker.setHigh8_high8Map, Option.getD_some, hsum,
      hz]
    simp [tag]
  · rw [intermediate, storePlainTarget_spec hformat (by exact hplain) (by exact hnone),
      storePlainTarget_high8 hformat (by exact hplain), hhigh, Option.getD_none]
    have hz : PointerOnDisk.arm64eHigh8 (s.get64 p) = 0 := not_not.mp hentry
    rw [hz]
    cases broken <;> rfl

end Plain

/-! ### One conversion -/

/-- Two states agree on the entry at `p` and on what is recorded for it. -/
structure SameAt (p : Nat) (s₁ s₂ : AdjustState) : Prop where
  entry : s₁.get64 p = s₂.get64 p
  target : s₁.aslrTracker.rebaseTarget64 p = s₂.aslrTracker.rebaseTarget64 p
  high8 : s₁.aslrTracker.high8Map p = s₂.aslrTracker.high8Map p
  auth : s₁.aslrTracker.authDataMap p = s₂.aslrTracker.authDataMap p

lemma SameAt.trans {p : Nat} {s₁ s₂ s₃ : AdjustState} (h : SameAt p s₁ s₂) (h' : SameAt p s₂ s₃) :
    SameAt p s₁ s₃ :=
  ⟨h.entry.trans h'.entry, h.target.trans h'.target, h.high8.trans h'.high8, h.auth.trans h'.auth⟩

lemma rebaseMoved_congr {format p : Nat} {base slide : BitVec 64} {broken : Bool}
    {s s₁ s₂ : AdjustState} (h : SameAt p s₁ s₂) :
    RebaseMoved format base slide broken p s s₁ ↔ RebaseMoved format base slide broken p s s₂ := by
  simp only [RebaseMoved, intermediate, intermediateTarget, intermediateHigh8, AuthKept, h.entry,
    h.target, h.high8, h.auth]

section Convert

variable {A : Adjustor} {p : Nat} {broken : Bool} {s : AdjustState} {targetSlide : BitVec 64}

lemma isRebase_auth {raw : PointerOnDisk} {format : Nat} (base : BitVec 64)
    (hformat : format ∈ arm64eRebaseFormats) (hbind : raw.arm64eBind = false)
    (hauth : raw.arm64eAuth = true) :
    raw.isRebase format base = some (BitVec.ofNat 64 raw.arm64eAuthTarget) := by
  have harm : format ∈ arm64eFormats := by
    simp only [arm64eRebaseFormats, arm64eFormats, List.mem_cons, List.not_mem_nil, or_false] at *
    tauto
  simp [PointerOnDisk.isRebase, harm, hbind, hauth]

lemma isRebase_plain {raw : PointerOnDisk} {format : Nat} (base : BitVec 64)
    (hformat : format ∈ arm64eRebaseFormats) (hbind : raw.arm64eBind = false)
    (hauth : raw.arm64eAuth = false) :
    raw.isRebase format base =
      some (if format = ptrArm64e then raw.arm64eUnpackTarget - base
        else raw.arm64eUnpackTarget) := by
  have harm : format ∈ arm64eFormats := by
    simp only [arm64eRebaseFormats, arm64eFormats, List.mem_cons, List.not_mem_nil, or_false] at *
    tauto
  have hfirm : format ≠ ptrArm64eFirmware := by
    rintro rfl
    exact absurd hformat (by decide)
  simp only [PointerOnDisk.isRebase, harm, if_true, hbind, hauth, Bool.false_eq_true, if_false,
    hfirm, or_false]
  split_ifs <;> rfl

lemma moveHigh8_next {targetVMAddr : BitVec 64} :
    PointerOnDisk.arm64eNext ((moveHigh8 p targetVMAddr false s).get64 p) =
      PointerOnDisk.arm64eNext (s.get64 p) := by
  unfold moveHigh8
  simp only [PointerOnDisk.arm64eNext]
  split_ifs
  · rfl
  · exact storePlainTarget_entry (by omega)
  · exact storePlainTarget_entry (by omega)
  · exact storePlainTarget_entry (by omega)

/-- A plain rebase whose new target is computed from the whole of the old one. -/
lemma moveHigh8_moved {targetVMAddr base : BitVec 64} {format : Nat}
    (hformat : format ∈ arm64eRebaseFormats) (hrec : Unrecorded s p)
    (hbind : PointerOnDisk.arm64eBind (s.get64 p) = false)
    (hplain : PointerOnDisk.arm64eAuth (s.get64 p) = false)
    (htarget : targetVMAddr = BitVec.ofNat 64 (PointerOnDisk.arm64eTarget (s.get64 p)) +
      (if format = ptrArm64e then 0 else base) + targetSlide)
    (hok : (moveHigh8 p targetVMAddr broken s).diag = none) :
    RebaseMoved format base targetSlide broken p s (moveHigh8 p targetVMAddr broken s) := by
  intro offset hoffset
  rw [isRebase_plain base hformat hbind hplain, Option.some.injEq] at hoffset
  refine ⟨?_, ?_, ?_⟩
  · rw [moveHigh8_spec hformat hplain hrec.1 hrec.2 hok, htarget, ← hoffset, arm64eUnpackTarget_eq]
    split_ifs
    · abel
    · abel
  · intro _ hauth
    rw [hplain] at hauth
    cases hauth
  · rintro rfl
    simp only [nextField, hformat, if_true]
    exact moveHigh8_next

lemma userland_moved_iff {base : BitVec 64} {format : Nat}
    (hformat : format = ptrArm64eUserland ∨ format = ptrArm64eUserland24)
    (hrec : Unrecorded s p) (hbind : PointerOnDisk.arm64eBind (s.get64 p) = false)
    (hplain : PointerOnDisk.arm64eAuth (s.get64 p) = false) :
    RebaseMoved format base targetSlide broken p s
      (moveHigh8 p 0 broken (s.track (fun t => t.setRebaseTarget64 p
        (BitVec.ofNat 64 (PointerOnDisk.arm64eTarget (s.get64 p)) + targetSlide)))) ↔ base = 0 := by
  have hmem : format ∈ arm64eRebaseFormats := by
    rcases hformat with rfl | rfl
    · decide
    · decide
  have hne : format ≠ ptrArm64e := by
    rcases hformat with rfl | rfl
    · decide
    · decide
  let t := s.track (fun t => t.setRebaseTarget64 p
    (BitVec.ofNat 64 (PointerOnDisk.arm64eTarget (s.get64 p)) + targetSlide))
  have hvalue : intermediate format broken (moveHigh8 p 0 broken t) p =
      BitVec.ofNat 64 (PointerOnDisk.arm64eTarget (s.get64 p)) + targetSlide +
        tag (BitVec.ofNat 8 (PointerOnDisk.arm64eHigh8 (s.get64 p))) := by
    have htop : ¬((0 : BitVec 64) >>> 56).setWidth 8 ≠ (0 : BitVec 8) := by decide
    unfold moveHigh8
    simp only [htop, if_false]
    split_ifs with hentry
    · rw [intermediate, storePlainTarget_zero (ASLRTracker.setRebaseTarget64_rebaseTarget64 _),
        storePlainTarget_high8 hmem (by exact hplain)]
      simp [t]
    · rw [intermediate, storePlainTarget_zero (ASLRTracker.setRebaseTarget64_rebaseTarget64 _),
        storePlainTarget_high8 hmem (by exact hplain)]
      have hz : PointerOnDisk.arm64eHigh8 (s.get64 p) = 0 := not_not.mp hentry
      have hh : t.aslrTracker.high8Map p = none := hrec.2
      have hzt : PointerOnDisk.arm64eHigh8 (t.get64 p) = 0 := hz
      rw [hh, Option.getD_none, hz, hzt]
      cases broken <;> rfl
  constructor
  · intro h
    have hoff := isRebase_plain base hmem hbind hplain
    rw [if_neg hne] at hoff
    have heq := (h _ hoff).1
    rw [hvalue, arm64eUnpackTarget_eq] at heq
    have hsub : BitVec.ofNat 64 (PointerOnDisk.arm64eTarget (s.get64 p)) + targetSlide +
        tag (BitVec.ofNat 8 (PointerOnDisk.arm64eHigh8 (s.get64 p))) + base =
        BitVec.ofNat 64 (PointerOnDisk.arm64eTarget (s.get64 p)) + targetSlide +
        tag (BitVec.ofNat 8 (PointerOnDisk.arm64eHigh8 (s.get64 p))) := by
      rw [← sub_eq_zero] at heq ⊢
      rw [← neg_eq_zero, ← heq]
      abel
    exact add_eq_left.mp hsub
  · rintro rfl offset hoffset
    rw [isRebase_plain 0 hmem hbind hplain, Option.some.injEq, if_neg hne] at hoffset
    refine ⟨?_, ?_, ?_⟩
    · rw [hvalue, ← hoffset, arm64eUnpackTarget_eq]
      abel
    · intro _ hauth
      rw [hplain] at hauth
      cases hauth
    · rintro rfl
      simp only [nextField, hmem, if_true]
      exact moveHigh8_next

lemma moveHigh8_zero_diag (p : Nat) (broken : Bool) (s : AdjustState) :
    (moveHigh8 p 0 broken s).diag = s.diag := by
  have hstore : ∀ t : AdjustState, (storePlainTarget p 0 broken t).diag = t.diag := by
    intro t
    unfold storePlainTarget
    dsimp only
    split_ifs <;> rfl
  have htop : ¬((0 : BitVec 64) >>> 56).setWidth 8 ≠ (0 : BitVec 8) := by decide
  unfold moveHigh8
  simp only [htop, if_false]
  split_ifs
  · exact hstore _
  · exact hstore _

/-- The condition on an `arm64e` entry: a plain rebase of a format with offsets needs an image
that was linked at address zero. -/
def BaseAdded (A : Adjustor) (raw : PointerOnDisk) : Prop :=
  A.chainedFixupsFormat = ptrArm64eUserland ∨ A.chainedFixupsFormat = ptrArm64eUserland24 →
    raw.arm64eAuth = false → A.origBase = 0

lemma convertPlainRebase_moved_iff (hformat : A.chainedFixupsFormat ∈ arm64eRebaseFormats)
    (hrec : Unrecorded s p) (hbind : PointerOnDisk.arm64eBind (s.get64 p) = false)
    (hplain : PointerOnDisk.arm64eAuth (s.get64 p) = false) (hs : s.diag = none) :
    ((convertPlainRebase A p targetSlide broken s).diag = none →
      RebaseMoved A.chainedFixupsFormat A.origBase targetSlide broken p s
        (convertPlainRebase A p targetSlide broken s)) ↔ BaseAdded A (s.get64 p) := by
  unfold convertPlainRebase BaseAdded
  simp only [hplain, forall_const]
  by_cases hu : A.chainedFixupsFormat = ptrArm64eUserland ∨
      A.chainedFixupsFormat = ptrArm64eUserland24
  · have hne : A.chainedFixupsFormat ≠ ptrArm64e := by
      rcases hu with h | h
      all_goals rw [h]; decide
    have hdiag : (moveHigh8 p 0 broken (s.track (fun t => t.setRebaseTarget64 p
        (BitVec.ofNat 64 (PointerOnDisk.arm64eTarget (s.get64 p)) + targetSlide)))).diag = none :=
      (moveHigh8_zero_diag ..).trans hs
    rw [if_neg hne, if_pos hu]
    simp only [hdiag, forall_const, hu]
    exact userland_moved_iff hu hrec hbind hplain
  · simp only [hu, if_false, false_implies, iff_true]
    have hrest : A.chainedFixupsFormat = ptrArm64e ∨ A.chainedFixupsFormat = ptrArm64eKernel := by
      simp only [arm64eRebaseFormats, List.mem_cons, List.not_mem_nil, or_false] at hformat
      tauto
    rcases hrest with h | h
    · rw [if_pos h]
      refine moveHigh8_moved hformat hrec hbind hplain ?_
      rw [if_pos h, add_zero]
    · have hne : A.chainedFixupsFormat ≠ ptrArm64e := by rw [h]; decide
      rw [if_neg hne, if_pos h]
      refine moveHigh8_moved hformat hrec hbind hplain ?_
      rw [if_neg hne]

lemma convertAuthRebase_moved (hformat : A.chainedFixupsFormat ∈ arm64eRebaseFormats)
    (hrec : Unrecorded s p) (hbind : PointerOnDisk.arm64eBind (s.get64 p) = false)
    (hauth : PointerOnDisk.arm64eAuth (s.get64 p) = true)
    (hok : (convertAuthRebase A p targetSlide broken s).diag = none) :
    RebaseMoved A.chainedFixupsFormat A.origBase targetSlide broken p s
      (convertAuthRebase A p targetSlide broken s) := by
  obtain ⟨hnone, hhigh⟩ := hrec
  intro offset hoffset
  rw [isRebase_auth _ hformat hbind hauth, Option.some.injEq] at hoffset
  subst hoffset
  have hplainEntry : ∀ v, entryHigh8 A.chainedFixupsFormat broken (plainRebase (s.get64 p) v) =
      0#8 := by
    intro v
    simp only [entryHigh8, hformat, if_true, arm64eAuth_plainRebase, arm64eHigh8_plainRebase]
    split_ifs <;> rfl
  unfold convertAuthRebase at hok ⊢
  simp only at hok ⊢
  generalize BitVec.ofNat 64 (PointerOnDisk.arm64eAuthTarget (s.get64 p)) + A.origBase +
    targetSlide = targetVMAddr at hok ⊢
  split_ifs at hok ⊢ with hbad huser hbroken hfits hplain
  · simp at hok
  · -- the target is tracked out of line
    refine ⟨?_, fun _ _ => Or.inr (by simp), fun _ => ?_⟩
    · simp [intermediate, intermediateTarget, intermediateHigh8, hhigh, hplainEntry]
    · simp [nextField, hformat, arm64eNext_plainRebase]
  · refine ⟨?_, fun _ _ => Or.inr (by simp), fun hb => absurd hb (by simp [hbroken])⟩
    simp [intermediate, intermediateTarget, intermediateHigh8, hhigh, hnone, entryTarget, entryHigh8,
      hformat, hbroken]
  · -- the target fits the entry, which stays authenticated
    have hb : broken = false := by simpa using hbroken
    have hentry : PointerOnDisk.arm64eAuth (setField (s.get64 p) 0 32 targetVMAddr.toNat) = true := by
      rw [PointerOnDisk.arm64eAuth, getLsbD_setField_above _ _ (by omega)]
      exact hauth
    have hfield : PointerOnDisk.arm64eAuthTarget (setField (s.get64 p) 0 32 targetVMAddr.toNat) =
        targetVMAddr.toNat % 2 ^ 32 := getField_setField_same _ (by omega)
    refine ⟨?_, fun _ _ => Or.inl ⟨hb, ?_, ?_⟩, fun _ => ?_⟩
    · have htarget : entryTarget A.chainedFixupsFormat broken
          (setField (s.get64 p) 0 32 targetVMAddr.toNat) = targetVMAddr := by
        rw [entryTarget, if_pos hformat, hb, if_neg (by decide), if_pos hentry, hfield,
          ofNat_toNat_mod hfits]
      have hbyte : entryHigh8 A.chainedFixupsFormat broken
          (setField (s.get64 p) 0 32 targetVMAddr.toNat) = 0#8 := by
        rw [entryHigh8, if_pos hformat, if_pos (Or.inr hentry)]
        rfl
      simp [intermediate, intermediateTarget, intermediateHigh8, hhigh, hnone, htarget, hbyte]
    · rw [AdjustState.get64_set64]
      exact hentry
    · rw [AdjustState.get64_set64, authDataOf_setField]
    · simp only [nextField, hformat, if_true, AdjustState.get64_set64, PointerOnDisk.arm64eNext]
      rw [getField_setField_apart _ (by omega)]
  · have hb : broken = false := by simpa using hbroken
    have htarget : entryTarget A.chainedFixupsFormat broken
        (plainRebase (s.get64 p) targetVMAddr.toNat) = targetVMAddr := by
      rw [entryTarget, if_pos hformat, hb, if_neg (by decide), arm64eAuth_plainRebase,
        if_neg (by decide), arm64eTarget_plainRebase, ofNat_toNat_mod hplain]
    refine ⟨?_, fun _ _ => Or.inr (by simp), fun _ => ?_⟩
    · simp [intermediate, intermediateTarget, intermediateHigh8, hhigh, hnone, htarget, hplainEntry]
    · simp [nextField, hformat, arm64eNext_plainRebase]
  · refine ⟨?_, fun _ _ => Or.inr (by simp), fun _ => ?_⟩
    · simp [intermediate, intermediateTarget, intermediateHigh8, hhigh, hplainEntry]
    · simp [nextField, hformat, arm64eNext_plainRebase]

lemma isRebase_generic64 {raw : PointerOnDisk} {format : Nat} (base : BitVec 64)
    (hformat : format = ptr64 ∨ format = ptr64Offset) (hbind : raw.generic64Bind = false) :
    raw.isRebase format base =
      some (if format = ptr64 then raw.generic64UnpackedTarget - base
        else raw.generic64UnpackedTarget) := by
  have harm : format ∉ arm64eFormats := by
    rcases hformat with rfl | rfl
    all_goals decide
  have hgen : format ∈ [ptr64, ptr64Offset] := by
    simpa only [List.mem_cons, List.not_mem_nil, or_false] using hformat
  simp only [PointerOnDisk.isRebase, harm, hgen, if_true, if_false, hbind, Bool.false_eq_true]
  split_ifs <;> rfl

lemma convertGeneric64_spec (broken : Bool) (targetSlide : BitVec 64) (hformat : A.chainedFixupsFormat = ptr64 ∨
      A.chainedFixupsFormat = ptr64Offset) (hrec : Unrecorded s p) :
    intermediate A.chainedFixupsFormat broken
        (convertGeneric64RebaseToIntermediate A p targetSlide s) p =
      BitVec.ofNat 64 (PointerOnDisk.generic64Target (s.get64 p)) +
        (if A.chainedFixupsFormat = ptr64 then 0 else A.origBase) + targetSlide +
        tag (BitVec.ofNat 8 (PointerOnDisk.generic64High8 (s.get64 p))) ∧
    PointerOnDisk.generic64Next ((convertGeneric64RebaseToIntermediate A p targetSlide s).get64 p) =
      PointerOnDisk.generic64Next (s.get64 p) := by
  obtain ⟨hnone, hhigh⟩ := hrec
  have harm : A.chainedFixupsFormat ∉ arm64eRebaseFormats := by
    rcases hformat with h | h
    all_goals rw [h]; decide
  have hkept : ∀ v, PointerOnDisk.generic64High8 (setField (s.get64 p) 0 36 v) =
      PointerOnDisk.generic64High8 (s.get64 p) := fun v => getField_setField_apart _ (by omega)
  have hnext : ∀ v, PointerOnDisk.generic64Next (setField (s.get64 p) 0 36 v) =
      PointerOnDisk.generic64Next (s.get64 p) := fun v => getField_setField_apart _ (by omega)
  unfold convertGeneric64RebaseToIntermediate
  simp only
  by_cases h : A.chainedFixupsFormat = ptr64
  · simp only [h, if_true, add_zero]
    rw [h] at harm
    split_ifs with hfit
    · have htarget : PointerOnDisk.generic64Target (setField (s.get64 p) 0 36
          (BitVec.ofNat 64 (PointerOnDisk.generic64Target (s.get64 p)) + targetSlide).toNat) = _ :=
        getField_setField_same _ (by omega)
      constructor
      · simp only [intermediate, intermediateTarget, intermediateHigh8,
          AdjustState.aslrTracker_set64, hhigh, hnone, Option.getD_none, AdjustState.get64_set64,
          entryTarget, entryHigh8, harm, if_false, htarget, hkept]
        rw [ofNat_toNat_mod hfit]
      · rw [AdjustState.get64_set64, hnext]
    · constructor
      · simp [intermediate, intermediateTarget, intermediateHigh8, hhigh, entryHigh8, harm, hkept]
      · rw [AdjustState.get64_set64, hnext]
  · have h' : A.chainedFixupsFormat = ptr64Offset := by tauto
    simp only [if_neg h, if_pos h']
    constructor
    · simp [intermediate, intermediateTarget, intermediateHigh8, hhigh, entryHigh8, harm, hkept]
    · rw [AdjustState.get64_set64, hnext]

lemma convertGeneric64_moved (hformat : A.chainedFixupsFormat = ptr64 ∨
      A.chainedFixupsFormat = ptr64Offset) (hrec : Unrecorded s p)
    (hbind : PointerOnDisk.generic64Bind (s.get64 p) = false) :
    RebaseMoved A.chainedFixupsFormat A.origBase targetSlide broken p s
      (convertGeneric64RebaseToIntermediate A p targetSlide s) := by
  have harm : A.chainedFixupsFormat ∉ arm64eRebaseFormats := by
    rcases hformat with h | h
    all_goals rw [h]; decide
  obtain ⟨hvalue, hnext⟩ := convertGeneric64_spec broken targetSlide hformat hrec
  intro offset hoffset
  rw [isRebase_generic64 _ hformat hbind, Option.some.injEq] at hoffset
  refine ⟨?_, fun h => absurd h harm, fun _ => ?_⟩
  · rw [hvalue, ← hoffset, generic64UnpackedTarget_eq]
    split_ifs
    · abel
    · abel
  · simp only [nextField, harm, if_false]
    exact hnext

end Convert

/-! ### The v2 path -/

/-- A reference to a chained pointer, in an image with chained fixups or with the threaded
rebases of old `arm64e` images. -/
def IsChainedPointer (A : Adjustor) (r : Reference) : Prop :=
  r.kind = .pointer64 ∧ A.hasChainedFixupsCmd ∧
      A.chainedFixupsFormat ∈ arm64eRebaseFormats ++ [ptr64, ptr64Offset] ∨
    r.kind = .threadedPointer64 ∧ A.chainedFixupsFormat ∈ arm64eRebaseFormats

section V2

variable {A : Adjustor} {r : Reference} {s : AdjustState}

lemma adjustReference_moved_iff {t : AdjustState}
    (h : adjustKind A r s = (t.track (fun u => u.add r.mappedAddr), .broke (some r.kind) 0)) :
    ((adjustReference A r s).diag = none →
      RebaseMoved A.chainedFixupsFormat A.origBase r.targetSlide r.convertRebaseChains r.mappedAddr
        s (adjustReference A r s)) ↔
    (t.diag = none →
      RebaseMoved A.chainedFixupsFormat A.origBase r.targetSlide r.convertRebaseChains r.mappedAddr
        s t) := by
  have hdiag : (adjustReference A r s).diag = t.diag := by
    simp only [adjustReference, h, AdjustState.diag_track]
  rw [hdiag]
  apply imp_congr_right
  intro _
  apply rebaseMoved_congr
  constructor
  · simp only [adjustReference, h]
    rfl
  all_goals
    simp only [adjustReference, h, AdjustState.aslrTracker_track, ASLRTracker.add_rebaseTarget64,
      ASLRTracker.add_high8Map, ASLRTracker.add_authDataMap]

lemma arm64e_moved_iff (hformat : A.chainedFixupsFormat ∈ arm64eRebaseFormats)
    (hkind : adjustKind A r s = (convertArm64eRebase A r s, .broke (some r.kind) 0))
    (hrec : Unrecorded s r.mappedAddr) (hs : s.diag = none)
    (hbind : PointerOnDisk.arm64eBind (s.get64 r.mappedAddr) = false) :
    ((adjustReference A r s).diag = none →
      RebaseMoved A.chainedFixupsFormat A.origBase r.targetSlide r.convertRebaseChains r.mappedAddr
        s (adjustReference A r s)) ↔ BaseAdded A (s.get64 r.mappedAddr) := by
  rw [convertArm64eRebase, hbind, if_neg (by decide)] at hkind
  rw [adjustReference_moved_iff hkind, convertArm64eRebaseToIntermediate]
  by_cases hauth : PointerOnDisk.arm64eAuth (s.get64 r.mappedAddr)
  · rw [if_pos hauth]
    refine ⟨fun _ _ h => ?_, fun _ hok => convertAuthRebase_moved hformat hrec hbind hauth hok⟩
    rw [hauth] at h
    cases h
  · rw [if_neg hauth]
    exact convertPlainRebase_moved_iff hformat hrec hbind (by simpa using hauth) hs

lemma chainedPointer_moved_iff (hr : IsChainedPointer A r) (hrec : Unrecorded s r.mappedAddr)
    (hs : s.diag = none)
    (hrebase : (PointerOnDisk.isRebase (s.get64 r.mappedAddr) A.chainedFixupsFormat
      A.origBase).isSome) :
    ((adjustReference A r s).diag = none →
      RebaseMoved A.chainedFixupsFormat A.origBase r.targetSlide r.convertRebaseChains r.mappedAddr
        s (adjustReference A r s)) ↔ BaseAdded A (s.get64 r.mappedAddr) := by
  by_cases harm : A.chainedFixupsFormat ∈ arm64eRebaseFormats
  · have hformat : A.chainedFixupsFormat ∈ arm64eFormats := by
      simp only [arm64eRebaseFormats, arm64eFormats, List.mem_cons, List.not_mem_nil,
        or_false] at *
      tauto
    have hbind : PointerOnDisk.arm64eBind (s.get64 r.mappedAddr) = false := by
      by_contra hb
      rw [Bool.not_eq_false] at hb
      simp [PointerOnDisk.isRebase, hformat, hb] at hrebase
    have hkind : adjustKind A r s = (convertArm64eRebase A r s, .broke (some r.kind) 0) := by
      rcases hr with ⟨hk, hcmd, -⟩ | ⟨hk, -⟩
      · have hmem : A.chainedFixupsFormat ∈
            [ptrArm64e, ptrArm64eUserland, ptrArm64eUserland24, ptrArm64eKernel] := harm
        simp only [adjustKind, hk, adjustPointer64, hcmd, if_true, hmem]
      · simp only [adjustKind, hk]
    exact arm64e_moved_iff harm hkind hrec hs hbind
  · obtain ⟨hk, hcmd, hformat⟩ : r.kind = .pointer64 ∧ A.hasChainedFixupsCmd ∧
        (A.chainedFixupsFormat = ptr64 ∨ A.chainedFixupsFormat = ptr64Offset) := by
      rcases hr with ⟨hk, hcmd, hf⟩ | ⟨-, hf⟩
      · refine ⟨hk, hcmd, ?_⟩
        simpa [harm] using hf
      · exact absurd hf harm
    have hne : A.chainedFixupsFormat ∉ arm64eFormats := by
      rcases hformat with h | h
      all_goals rw [h]; decide
    have hmem : A.chainedFixupsFormat ∈ [ptr64, ptr64Offset] := by simpa using hformat
    have hbind : PointerOnDisk.generic64Bind (s.get64 r.mappedAddr) = false := by
      by_contra hb
      rw [Bool.not_eq_false] at hb
      simp [PointerOnDisk.isRebase, hne, hmem, hb] at hrebase
    have hkind : adjustKind A r s =
        ((convertGeneric64RebaseToIntermediate A r.mappedAddr r.targetSlide s).track
          (fun t => t.add r.mappedAddr), .broke (some r.kind) 0) := by
      have hnot : A.chainedFixupsFormat ∉
          [ptrArm64e, ptrArm64eUserland, ptrArm64eUserland24, ptrArm64eKernel] := harm
      simp only [adjustKind, hk, adjustPointer64, hcmd, if_true, hnot, if_false, hmem,
        convertGeneric64Rebase, hbind, Bool.false_eq_true]
    have hbase : BaseAdded A (s.get64 r.mappedAddr) := by
      intro hu
      rcases hformat with h | h
      all_goals
        rw [h] at hu
        exact absurd hu (by decide)
    rw [adjustReference_moved_iff hkind]
    exact iff_of_true (fun _ => convertGeneric64_moved hformat hrec hbind) hbase

end V2

/-! ### The v1 path -/

/-- A segment of the image: original start address, size and slide. -/
def Contains (seg : BitVec 64 × BitVec 64 × BitVec 64) (addr : BitVec 64) : Prop :=
  seg.1 ≤ addr ∧ addr < seg.1 + seg.2.1

instance (seg : BitVec 64 × BitVec 64 × BitVec 64) (addr : BitVec 64) :
    Decidable (Contains seg addr) := inferInstanceAs (Decidable (_ ∧ _))

namespace Adjustor

variable (A : Adjustor)

def segmentSlide (addr : BitVec 64) : Option (BitVec 64) :=
  (A.segments.find? (fun seg => decide (Contains seg addr))).map (fun seg => seg.2.2)

/-- `none` is the error that the slide is not known, after which the source returns 0. -/
def slideForOrigAddress (addr : BitVec 64) : Option (BitVec 64) :=
  match A.segmentSlide addr with
  | some slide => some slide
  | none =>
    -- on arm64, the high nibble of pointers can have extra bits
    if A.maskPointers ∧ addr &&& 0xF000000000000000#64 ≠ 0 then
      A.segmentSlide (addr &&& 0x0FFFFFFFFFFFFFFF#64)
    else none

def DisjointSegments : Prop :=
  A.segments.Pairwise (fun a b => ∀ addr, ¬(Contains a addr ∧ Contains b addr))

/-- The handler of `adjustRebaseChains`. -/
def adjustRebase (pointerFormat : Nat) (s : AdjustState) (fixupLoc : Nat) : AdjustState × Bool :=
  if pointerFormat = ptr64 then
    -- only look at rebases
    if PointerOnDisk.generic64Bind (s.get64 fixupLoc) then (s, false)
    else
      let rebaseTargetInDylib := BitVec.ofNat 64 (PointerOnDisk.generic64Target (s.get64 fixupLoc))
      let s₁ := if A.slideForOrigAddress rebaseTargetInDylib = none
        then s.error (.slideNotKnown rebaseTargetInDylib) else s
      let rebaseTargetInDyldcache :=
        rebaseTargetInDylib + (A.slideForOrigAddress rebaseTargetInDylib).getD 0
      ((convertGeneric64RebaseToIntermediate A fixupLoc rebaseTargetInDyldcache s₁).track
        (fun t => t.add fixupLoc), false)
  else if pointerFormat = ptr64Offset then
    (s.error (.unhandledFormat A.chainedFixupsFormat), false)
  else (s.error (.unsupportedFormat pointerFormat), true)

def walkRebaseChain (pointerFormat fuel : Nat) (s : AdjustState) (chain : Nat) :
    Option (AdjustState × Bool) :=
  (strideSize pointerFormat).bind (fun stride =>
    if nextDistance pointerFormat stride 0 = none then
      let r := A.adjustRebase pointerFormat s chain
      if r.2 then some r else some (r.1.error (.unsupportedFormat pointerFormat), true)
    else
      walk (fun raw => (nextDistance pointerFormat stride raw).getD 0) AdjustState.get64
        (A.adjustRebase pointerFormat) fuel s chain)

def mappedLocation (mh : Nat) (segInfo : StartsInSegment) (pageIndex offsetInPage : Nat) : Nat :=
  mh + segInfo.segmentOffset + pageIndex * segInfo.pageSize + offsetInPage

def adjustRebaseChains (mh fuel : Nat) :
    List (Option StartsInSegment) → AdjustState → Option AdjustState
  | [], s => some s
  | none :: starts, s => adjustRebaseChains mh fuel starts s
  | some segInfo :: starts, s =>
    (forEachFixupInSegmentChains
      (fun s p o => A.walkRebaseChain segInfo.pointerFormat fuel s (mappedLocation mh segInfo p o))
      segInfo fuel ⟨s, [], []⟩).bind (fun r => adjustRebaseChains mh fuel starts r.1.state)

end Adjustor

/-- The distance to the next location of a chain of format 64. -/
def next64 (raw : PointerOnDisk) : Nat := raw.generic64Next * 4

/-- The chains of an image whose segments all have format 64, and the locations of all their
entries in the order of the walk. -/
inductive ImageChains (mh fuel : Nat) (s : AdjustState) :
    List (Option StartsInSegment) → List Nat → Prop
  | nil : ImageChains mh fuel s [] []
  | skip {starts : List (Option StartsInSegment)} {l : List Nat} (h : ImageChains mh fuel s starts l) :
      ImageChains mh fuel s (none :: starts) l
  | seg {segInfo : StartsInSegment} {starts : List (Option StartsInSegment)} {es : List StartEntry}
      {l l' : List Nat} (hformat : segInfo.pointerFormat = ptr64)
      (hentries : segInfo.entries fuel = some es)
      (hchains : EntryChains next64 s.get64 (Adjustor.mappedLocation mh segInfo) fuel es l)
      (h : ImageChains mh fuel s starts l') : ImageChains mh fuel s (some segInfo :: starts) (l ++ l')

section V1

variable {A : Adjustor} {p : Nat} {s : AdjustState}

lemma find?_of_pairwise {α : Type} {q : α → Bool} {l : List α} {a : α}
    (hl : l.Pairwise (fun a b => ¬(q a ∧ q b))) (ha : a ∈ l) (hq : q a) : l.find? q = some a := by
  induction l with
  | nil => cases ha
  | cons b l ih =>
    rw [List.pairwise_cons] at hl
    rcases List.mem_cons.mp ha with rfl | hmem
    · rw [List.find?_cons_of_pos hq]
    · have hb : ¬q b = true := fun hb => hl.1 a hmem ⟨hb, hq⟩
      rw [List.find?_cons_of_neg hb]
      exact ih hl.2 hmem

lemma slideForOrigAddress_eq {addr : BitVec 64} {seg : BitVec 64 × BitVec 64 × BitVec 64}
    (hdisj : A.DisjointSegments) (hseg : seg ∈ A.segments) (hin : Contains seg addr) :
    A.slideForOrigAddress addr = some seg.2.2 := by
  have hfind : A.segments.find? (fun seg => decide (Contains seg addr)) = some seg := by
    refine find?_of_pairwise (hdisj.imp (fun h => ?_)) hseg (decide_eq_true hin)
    simpa only [decide_eq_true_eq] using h addr
  simp [Adjustor.slideForOrigAddress, Adjustor.segmentSlide, hfind]

lemma sameAt_set64 {a b : Nat} (h : Apart 8 a b) (v : BitVec 64) : SameAt b (s.set64 a v) s :=
  ⟨load_store_apart h, rfl, rfl, rfl⟩

lemma sameAt_track_add (a b : Nat) : SameAt b (s.track (fun t => t.add a)) s :=
  ⟨rfl, by simp, by simp, by simp⟩

lemma sameAt_track_target {a b : Nat} (h : b ≠ a) (v : BitVec 64) :
    SameAt b (s.track (fun t => t.setRebaseTarget64 a v)) s :=
  ⟨rfl, Function.update_of_ne h _ _, rfl, rfl⟩

lemma ne_of_apart {a b : Nat} (h : Apart 8 a b) : b ≠ a := by
  rintro rfl
  unfold Apart at h
  omega

lemma sameAt_error (e : AdjustError) (b : Nat) : SameAt b (s.error e) s := ⟨rfl, rfl, rfl, rfl⟩

lemma sameAt_convertGeneric64 {a b : Nat} (h : Apart 8 a b) (targetSlide : BitVec 64) :
    SameAt b (convertGeneric64RebaseToIntermediate A a targetSlide s) s := by
  unfold convertGeneric64RebaseToIntermediate
  simp only
  split_ifs
  · exact sameAt_set64 h _
  · exact (sameAt_set64 h _).trans (sameAt_track_target (ne_of_apart h) _)
  · exact (sameAt_set64 h _).trans (sameAt_track_target (ne_of_apart h) _)
  · exact sameAt_error _ _

/-- The handler leaves every entry but its own alone. -/
lemma sameAt_adjustRebase (A : Adjustor) (format : Nat) (s : AdjustState) {a b : Nat}
    (h : Apart 8 a b) : SameAt b (A.adjustRebase format s a).1 s := by
  unfold Adjustor.adjustRebase
  split_ifs
  · exact ⟨rfl, rfl, rfl, rfl⟩
  · refine ((sameAt_track_add _ _).trans (sameAt_convertGeneric64 h _)).trans ?_
    split_ifs
    · exact sameAt_error _ _
    · exact ⟨rfl, rfl, rfl, rfl⟩
  · exact sameAt_error _ _
  · exact sameAt_error _ _

lemma sameAt_visit {l : List Nat} {b format : Nat} (h : ∀ a ∈ l, Apart 8 a b) (s : AdjustState) :
    SameAt b (feed (A.adjustRebase format) s l).1 s := by
  induction l generalizing s with
  | nil => exact ⟨rfl, rfl, rfl, rfl⟩
  | cons a l ih =>
    have ha := sameAt_adjustRebase A format s (h a (by simp))
    rw [feed_cons]
    split
    · exact ha
    · exact (ih (fun c hc => h c (List.mem_cons_of_mem a hc)) _).trans ha

lemma adjustRebase_continues (a : Nat) (s : AdjustState) :
    (A.adjustRebase ptr64 s a).2 = false := by
  unfold Adjustor.adjustRebase
  rw [if_pos rfl]
  split_ifs <;> rfl

lemma feed_continues (l : List Nat) (s : AdjustState) :
    (feed (A.adjustRebase ptr64) s l).2 = false := by
  induction l generalizing s with
  | nil => rfl
  | cons a l ih =>
    rw [feed_cons, adjustRebase_continues, if_neg (by decide)]
    exact ih _

lemma adjustRebaseChains_eq {mh fuel : Nat} {starts : List (Option StartsInSegment)}
    {l : List Nat} {s₀ : AdjustState} (h : ImageChains mh fuel s₀ starts l)
    (hap : l.Pairwise (Apart 8)) (s : AdjustState) (hagree : ∀ b ∈ l, s.get64 b = s₀.get64 b) :
    A.adjustRebaseChains mh fuel starts s = some (feed (A.adjustRebase ptr64) s l).1 := by
  induction h generalizing s with
  | nil => rfl
  | skip h ih => exact ih hap s hagree
  | @seg segInfo starts es l l' hformat hentries hchains h ih =>
    rw [List.pairwise_append] at hap
    obtain ⟨hap₁, hap₂, hap₁₂⟩ := hap
    have hwalk : (fun s p o => A.walkRebaseChain segInfo.pointerFormat fuel s
        (Adjustor.mappedLocation mh segInfo p o)) =
        (fun s p o => walk next64 AdjustState.get64 (A.adjustRebase ptr64) fuel s
          (Adjustor.mappedLocation mh segInfo p o)) := by
      rw [hformat]
      rfl
    obtain ⟨w, hw, hstate⟩ := visitEntries_walk
      (fun s x y hxy => (sameAt_adjustRebase A ptr64 s hxy).entry) hchains hap₁
      ⟨s, [], []⟩ (fun b hb => hagree b (List.mem_append_left _ hb))
    rw [Adjustor.adjustRebaseChains, hwalk, forEachFixupInSegmentChains_eq _ hentries, hw,
      Option.bind_some, hstate, feed_append, feed_continues, if_neg (by decide)]
    refine ih hap₂ _ (fun b hb => ?_)
    rw [(sameAt_visit (fun c hc => hap₁₂ c hc b hb) s).entry]
    exact hagree b (List.mem_append_right _ hb)

/-- The handler adds the target to the slide once more than it should. -/
lemma adjustRebase_moved_iff (hformat : A.chainedFixupsFormat = ptr64) (hrec : Unrecorded s p)
    (hbind : PointerOnDisk.generic64Bind (s.get64 p) = false) {slide : BitVec 64}
    (hslide : A.slideForOrigAddress
      (BitVec.ofNat 64 (PointerOnDisk.generic64Target (s.get64 p))) = some slide) :
    RebaseMoved ptr64 A.origBase slide false p s (A.adjustRebase ptr64 s p).1 ↔
      PointerOnDisk.generic64Target (s.get64 p) = 0 := by
  have hrun : (A.adjustRebase ptr64 s p).1 = (convertGeneric64RebaseToIntermediate A p
      (BitVec.ofNat 64 (PointerOnDisk.generic64Target (s.get64 p)) + slide) s).track
        (fun t => t.add p) := by
    unfold Adjustor.adjustRebase
    rw [if_pos rfl, if_neg (by rw [hbind]; decide)]
    simp only [hslide, reduceCtorEq, if_false, Option.getD_some]
  obtain ⟨hvalue, hnext⟩ := convertGeneric64_spec (A := A) false
    (BitVec.ofNat 64 (PointerOnDisk.generic64Target (s.get64 p)) + slide) (Or.inl hformat) hrec
  rw [hformat, if_pos rfl, add_zero] at hvalue
  have hoff := isRebase_generic64 A.origBase (Or.inl rfl) hbind
  rw [if_pos rfl, generic64UnpackedTarget_eq] at hoff
  rw [hrun, rebaseMoved_congr (sameAt_track_add _ _)]
  have hlt : PointerOnDisk.generic64Target (s.get64 p) < 2 ^ 36 := getField_lt _ _ _
  constructor
  · intro h
    have heq := (h _ hoff).1
    rw [hvalue, sub_add_cancel, ← sub_eq_zero] at heq
    have hzero : BitVec.ofNat 64 (PointerOnDisk.generic64Target (s.get64 p)) = 0 := by
      rw [← heq]
      abel
    have hnat := congrArg BitVec.toNat hzero
    rw [BitVec.toNat_ofNat] at hnat
    have hz : (0 : BitVec 64).toNat = 0 := rfl
    omega
  · intro hz offset hoffset
    rw [hoff, Option.some.injEq] at hoffset
    refine ⟨?_, fun h => absurd h (by decide), fun _ => hnext⟩
    rw [hvalue, ← hoffset, hz]
    have hzero : BitVec.ofNat 64 0 = 0 := rfl
    rw [hzero]
    abel

/-- In a run over all chains, an entry ends as its own call of the handler leaves it. -/
lemma rebaseChains_moved_iff {mh fuel : Nat} {starts : List (Option StartsInSegment)}
    {l : List Nat} {s' : AdjustState} {seg : BitVec 64 × BitVec 64 × BitVec 64}
    (hformat : A.chainedFixupsFormat = ptr64) (hdisj : A.DisjointSegments)
    (hchains : ImageChains mh fuel s starts l) (hap : l.Pairwise (Apart 8))
    (hrun : A.adjustRebaseChains mh fuel starts s = some s') (hp : p ∈ l)
    (hrec : Unrecorded s p) (hbind : PointerOnDisk.generic64Bind (s.get64 p) = false)
    (hseg : seg ∈ A.segments)
    (hin : Contains seg (BitVec.ofNat 64 (PointerOnDisk.generic64Target (s.get64 p)))) :
    RebaseMoved ptr64 A.origBase seg.2.2 false p s s' ↔
      PointerOnDisk.generic64Target (s.get64 p) = 0 := by
  rw [adjustRebaseChains_eq hchains hap s (fun _ _ => rfl), Option.some.injEq] at hrun
  obtain ⟨before, after, rfl⟩ := List.append_of_mem hp
  rw [List.pairwise_append, List.pairwise_cons] at hap
  obtain ⟨-, ⟨hafter, -⟩, hbefore⟩ := hap
  have hpre : SameAt p (feed (A.adjustRebase ptr64) s before).1 s :=
    sameAt_visit (fun a ha => hbefore a ha p (by simp)) s
  have hpost : SameAt p s' (A.adjustRebase ptr64 (feed (A.adjustRebase ptr64) s before).1 p).1 := by
    rw [← hrun, feed_append, feed_continues, if_neg (by decide), feed_cons,
      adjustRebase_continues, if_neg (by decide)]
    exact sameAt_visit (fun a ha => (hafter a ha).symm) _
  rw [rebaseMoved_congr hpost]
  have hsource : RebaseMoved ptr64 A.origBase seg.2.2 false p s
        (A.adjustRebase ptr64 (feed (A.adjustRebase ptr64) s before).1 p).1 ↔
      RebaseMoved ptr64 A.origBase seg.2.2 false p (feed (A.adjustRebase ptr64) s before).1
        (A.adjustRebase ptr64 (feed (A.adjustRebase ptr64) s before).1 p).1 := by
    simp only [RebaseMoved, hpre.entry]
  rw [hsource, adjustRebase_moved_iff hformat ⟨hpre.target.trans hrec.1, hpre.high8.trans hrec.2⟩
    (by rw [hpre.entry]; exact hbind) (by rw [hpre.entry]; exact slideForOrigAddress_eq hdisj hseg hin),
    hpre.entry]

end V1

/-! ### Both paths -/

/-- A chained rebase moves with its target on the v2 path unless the base address is left out,
and on the v1 path only if the target is address zero. -/
theorem chainedRebases_move_iff (A : Adjustor) (s : AdjustState) :
    (∀ r : Reference, IsChainedPointer A r → Unrecorded s r.mappedAddr → s.diag = none →
      (PointerOnDisk.isRebase (s.get64 r.mappedAddr) A.chainedFixupsFormat A.origBase).isSome →
      (((adjustReference A r s).diag = none →
        RebaseMoved A.chainedFixupsFormat A.origBase r.targetSlide r.convertRebaseChains
          r.mappedAddr s (adjustReference A r s)) ↔ BaseAdded A (s.get64 r.mappedAddr))) ∧
    (∀ (mh fuel : Nat) (starts : List (Option StartsInSegment)) (l : List Nat) (s' : AdjustState)
      (p : Nat) (seg : BitVec 64 × BitVec 64 × BitVec 64),
      A.chainedFixupsFormat = ptr64 → A.DisjointSegments → ImageChains mh fuel s starts l →
      l.Pairwise (Apart 8) → A.adjustRebaseChains mh fuel starts s = some s' → p ∈ l →
      Unrecorded s p → PointerOnDisk.generic64Bind (s.get64 p) = false → seg ∈ A.segments →
      Contains seg (BitVec.ofNat 64 (PointerOnDisk.generic64Target (s.get64 p))) →
      (RebaseMoved ptr64 A.origBase seg.2.2 false p s s' ↔
        PointerOnDisk.generic64Target (s.get64 p) = 0)) := by
  constructor
  · intro r hr hrec hs hrebase
    exact chainedPointer_moved_iff hr hrec hs hrebase
  · intro mh fuel starts l s' p seg hformat hdisj hchains hap hrun hp hrec hbind hseg hin
    exact rebaseChains_moved_iff hformat hdisj hchains hap hrun hp hrec hbind hseg hin

/-- An image of one segment, linked at `base` and moved by 6 GB, with chains of format 64. -/
def oneSegment (base : BitVec 64) : Adjustor :=
  ⟨0x180000000, true, ptr64, false, true, [(base, 0x4000, 0x180000000)]⟩

/-- Its chain starts: one page with a chain at its start. -/
def oneStart : StartsInSegment := ⟨24, 0x4000, ptr64, 0, 0, 1, fun _ => 0⟩

def oneEntry (low : UInt8) : AdjustState where
  mem := fun x => if x = 1 then low else 0
  aslrTracker := .empty 0
  lohTracker := []
  diag := none
  lastMappedAddr32 := 0
  lastKind := none
  lastToNewAddress := 0

lemma oneEntry_chains (low : UInt8) (h : next64 ((oneEntry low).get64 0) = 0) :
    ImageChains 0 1 (oneEntry low) [some oneStart] [0] := by
  let e : StartEntry := ⟨0, 0, some 0⟩
  have hentry : e.offsetInPage = some 0 := rfl
  have hloc : Adjustor.mappedLocation 0 oneStart e.pageIndex 0 = 0 := by
    simp [Adjustor.mappedLocation, oneStart, e]
  have hthread : Threaded next64 (oneEntry low).get64
      (Adjustor.mappedLocation 0 oneStart e.pageIndex 0) [] := by
    rw [Threaded, hloc, h]
  have hlen : ([] : List Nat).length < 1 := by decide
  have hchains := ImageChains.seg rfl rfl (.chain hentry ⟨[], rfl, hthread, hlen⟩ .nil) .nil
  rw [hloc] at hchains
  exact hchains

lemma oneSegment_disjoint (base : BitVec 64) : (oneSegment base).DisjointSegments :=
  List.pairwise_singleton _ _

/-- A segment linked at 4 GB and moved by 2 GB, with chains of userland arm64e. -/
def signedSegment : Adjustor :=
  ⟨0x180000000, true, ptrArm64eUserland, false, true, [(0x100000000, 0x4000, 0x80000000)]⟩

/-- An authenticated entry with target 0x2468, diversity 0x1234, address diversity and key 1. -/
def signedEntry : AdjustState :=
  { oneEntry 0 with mem := fun x => [0x68, 0x24, 0, 0, 0x34, 0x12, 0x03, 0x80].getD x 0 }

/-- The reference of split-seg info v2 to the entry. -/
def signedReference : Reference where
  kind := .threadedPointer64
  mappedAddr := 0
  fromNewAddress := 0x180000000
  toNewAddress := 0x180002468
  adjust := 0
  targetSlide := 0x80000000
  imageStartAddress := 0x180000000
  imageEndAddress := 0x180004000
  convertRebaseChains := true
  trackLOH := false

theorem chainedRebases_move_iff_signed :
    ((adjustReference signedSegment signedReference signedEntry).diag = none ∧
      PointerOnDisk.isRebase (signedEntry.get64 0) ptrArm64eUserland 0x100000000 = some 0x2468 ∧
      RebaseMoved ptrArm64eUserland 0x100000000 0x80000000 true 0 signedEntry
        (adjustReference signedSegment signedReference signedEntry)) ∧
    ∃ s', (oneSegment 0).adjustRebaseChains 0 1 [some oneStart] (oneEntry 0) = some s' ∧
      RebaseMoved ptr64 0 0x180000000 false 0 (oneEntry 0) s' := by
  constructor
  · have h := (chainedRebases_move_iff signedSegment signedEntry).1 signedReference
      (Or.inr ⟨rfl, by decide⟩) ⟨rfl, rfl⟩ rfl (by decide)
    have hdiag : (adjustReference signedSegment signedReference signedEntry).diag = none := by decide
    exact ⟨hdiag, by decide, h.mpr (fun _ hplain => absurd hplain (by decide)) hdiag⟩
  · have hchains := oneEntry_chains 0 (by decide)
    have hrun := adjustRebaseChains_eq (A := oneSegment 0) hchains (List.pairwise_singleton _ _)
      (oneEntry 0) (fun _ _ => rfl)
    exact ⟨_, hrun, ((chainedRebases_move_iff (oneSegment 0) (oneEntry 0)).2 0 1 [some oneStart] [0] _ 0
      (0, 0x4000, 0x180000000) rfl (oneSegment_disjoint 0) hchains (List.pairwise_singleton _ _) hrun
      (by simp) ⟨rfl, rfl⟩ (by decide) (by simp [oneSegment]) (by decide)).mpr (by decide)⟩

/-- The v1 path ends without an error and leaves the pointer twice as far from the slide. -/
theorem rebaseChain_target_doubled :
    ∃ s', (oneSegment 0x1000).adjustRebaseChains 0 1 [some oneStart] (oneEntry 0x11) = some s' ∧
      s'.diag = none ∧
      Contains (0x1000, 0x4000, 0x180000000)
        (BitVec.ofNat 64 (PointerOnDisk.generic64Target ((oneEntry 0x11).get64 0))) ∧
      ¬RebaseMoved ptr64 (oneSegment 0x1000).origBase 0x180000000 false 0 (oneEntry 0x11) s' := by
  have hchains := oneEntry_chains 0x11 (by decide)
  have hrun := adjustRebaseChains_eq (A := oneSegment 0x1000) hchains (List.pairwise_singleton _ _)
    (oneEntry 0x11) (fun _ _ => rfl)
  have hin : Contains (0x1000, 0x4000, 0x180000000)
      (BitVec.ofNat 64 (PointerOnDisk.generic64Target ((oneEntry 0x11).get64 0))) := by decide
  refine ⟨_, hrun, by decide, hin, ?_⟩
  rw [rebaseChains_moved_iff rfl (oneSegment_disjoint _)
    hchains (List.pairwise_singleton _ _) hrun (by simp) ⟨rfl, rfl⟩ (by decide)
    (by simp [oneSegment]) hin]
  decide

end Dyld.Cache
