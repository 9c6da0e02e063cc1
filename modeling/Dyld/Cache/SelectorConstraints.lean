import Dyld.Lib.BitWindow

/-!
# Constraints on the address of a selector

A `Constraint` of the IMP cache builder allows an address by the bits of one window of it.
`intersecting` gives one constraint for two, case by case for how their windows lie, and a
`ConstraintSet` merges all constraints that are added to it. Its hash function reads the first
allowed value of a constraint, which a constraint that allows nothing does not have.
-/

namespace Dyld.IMPCaches

open Dyld.Lib

/-! ### Arithmetic of `int` -/

/-- `a << b` of an `int`, as the bits that are left of it. -/
def shl (a b : Nat) : Nat := (a <<< b) % 2 ^ 32

def intLt (a b : Nat) : Bool := (BitVec.ofNat 32 a).slt (BitVec.ofNat 32 b)

/-- The number of the highest bit, counted from 1. -/
def fls (n : Nat) : Nat := if n = 0 then 0 else n.log2 + 1

/-! ### Constraints -/

structure Constraint where
  mask : Nat
  shift : Nat
  allowedValues : Finset Nat
  deriving DecidableEq

namespace Constraint

variable (self other : Constraint)

def shiftedMask : Nat := shl self.mask self.shift

/-- There are no real constraints. -/
def Free : Prop := self.mask = 0 ∧ self.allowedValues = {0}

instance : Decidable self.Free := inferInstanceAs (Decidable (_ ∧ _))

def restrict : Constraint where
  mask := self.mask
  shift := self.shift
  allowedValues := self.allowedValues.filter (fun v =>
    (v >>> (other.shift - self.shift)) &&& other.mask ∈ other.allowedValues)

def concat : Constraint where
  mask := (shl 1 (fls self.shiftedMask) - 1) >>> other.shift
  shift := other.shift
  allowedValues :=
    let numberOfUnconstrainedBits := self.shift - fls other.shiftedMask
    let otherMaskLength := fls (other.mask + 1) - 1
    let includingUnrestrictedBits :=
      if numberOfUnconstrainedBits > 0 then
        self.allowedValues.biUnion (fun allowed =>
          let shifted := shl allowed numberOfUnconstrainedBits
          (Finset.range (shl 1 numberOfUnconstrainedBits)).image (fun unconstrained =>
            shl (shifted ||| unconstrained) otherMaskLength))
      else self.allowedValues.image (fun allowed => shl allowed otherMaskLength)
    includingUnrestrictedBits.biUnion (fun allowed =>
      other.allowedValues.image (fun otherValue => allowed ||| otherValue))

def crossProduct : Constraint where
  mask := (self.shiftedMask ||| other.shiftedMask) >>> other.shift
  shift := other.shift
  allowedValues :=
    let intersectionMask := self.shiftedMask &&& other.shiftedMask
    let selfIntersectingBits := self.allowedValues.image (fun v =>
      (shl v self.shift &&& intersectionMask) >>> self.shift)
    let otherIntersectingBits := other.allowedValues.image (fun v =>
      (shl v other.shift &&& intersectionMask) >>> self.shift)
    (selfIntersectingBits ∩ otherIntersectingBits).biUnion (fun intersecting =>
      let intersectingShifted := shl intersecting self.shift
      (self.allowedValues.filter (fun selfAllowed =>
          shl selfAllowed self.shift &&& intersectionMask = intersectingShifted)).biUnion
        (fun selfAllowed =>
          (other.allowedValues.filter (fun otherAllowed =>
              shl otherAllowed other.shift &&& intersectionMask = intersectingShifted)).image
            (fun otherAllowed => shl selfAllowed (self.shift - other.shift) ||| otherAllowed)))

def intersectingLeftMost : Constraint :=
  if self.Free then other
  else if other.Free then self
  else if self.shift ≤ other.shift then self.restrict other
  else if intLt other.shiftedMask (shl 1 self.shift) then self.concat other
  else self.crossProduct other

/-- `Constraint::intersecting`. The call with the two exchanged gets past the first two tests. -/
def intersecting : Constraint :=
  if self.mask = other.mask ∧ self.shift = other.shift then
    ⟨self.mask, self.shift, self.allowedValues.filter (fun v => v ∈ other.allowedValues)⟩
  else if intLt self.shiftedMask other.shiftedMask then other.intersectingLeftMost self
  else self.intersectingLeftMost other

/-! ### What a constraint allows -/

/-- The address `x` has an allowed value in the window. -/
def Admits (x : Nat) : Prop := (x >>> self.shift) &&& self.mask ∈ self.allowedValues

instance (x : Nat) : Decidable (self.Admits x) := inferInstanceAs (Decidable (_ ∈ _))

/-- The mask has `k` bits, which stay in an `int` when they are shifted, and the allowed values
are within the mask. -/
structure Window (c : Constraint) (k : Nat) : Prop where
  mask_eq : c.mask = 2 ^ k - 1
  fits : c.mask <<< c.shift < 2 ^ 31
  allowed : ∀ v ∈ c.allowedValues, v ≤ c.mask

/-- The mask is a window. -/
def Formed (c : Constraint) : Prop := ∃ k, c.Window k

end Constraint

/-! ### Sets of constraints -/

structure ConstraintSet where
  constraints : Finset Constraint
  mergedConstraint : Option Constraint
  deriving DecidableEq

namespace ConstraintSet

def clear : ConstraintSet := ⟨∅, none⟩

/-- `ConstraintSet::add`, or `none` where the hash function reads the first element of an empty
set. The order of the allowed values goes into the hash value, so that `find` need not meet a
constraint that is there: `found` is whether it does. -/
def add (cs : ConstraintSet) (c : Constraint) (found : Bool) : Option (Bool × ConstraintSet) :=
  if c.allowedValues = ∅ then none
  else if found ∧ c ∈ cs.constraints then some (false, cs)
  else
    some (true, ⟨insert c cs.constraints,
      match cs.mergedConstraint with
      | some merged => some (merged.intersecting c)
      | none => some c⟩)

/-- The additions of a sequence of constraints. -/
def addAll (cs : ConstraintSet) (l : List (Constraint × Bool)) : Option ConstraintSet :=
  l.foldlM (fun cs c => (cs.add c.1 c.2).map Prod.snd) cs

end ConstraintSet

/-! ### Windows of constraints -/

lemma shl_eq {a k b : Nat} (ha : a < 2 ^ k) (hk : k + b ≤ 31) : shl a b = a <<< b := by
  have hlt : a <<< b < 2 ^ 32 := by
    rw [Nat.shiftLeft_eq]
    calc a * 2 ^ b < 2 ^ k * 2 ^ b := Nat.mul_lt_mul_of_pos_right ha (Nat.two_pow_pos b)
      _ = 2 ^ (k + b) := (Nat.pow_add 2 k b).symm
      _ ≤ 2 ^ 32 := Nat.pow_le_pow_right (by omega) (by omega)
  rw [shl, Nat.mod_eq_of_lt hlt]

lemma intLt_eq {a b : Nat} (ha : a < 2 ^ 31) (hb : b < 2 ^ 31) : intLt a b = decide (a < b) := by
  have hint : ∀ n, n < 2 ^ 31 → (BitVec.ofNat 32 n).toInt = n := by
    intro n hn
    rw [BitVec.toInt_eq_toNat_cond, BitVec.toNat_ofNat, Nat.mod_eq_of_lt (by omega),
      if_pos (by omega)]
  rw [intLt, BitVec.slt, hint a ha, hint b hb]
  exact decide_eq_decide.mpr Int.ofNat_lt

lemma fls_of_testBit {n i : Nat} (h : n.testBit i = true) (hlt : n < 2 ^ (i + 1)) :
    fls n = i + 1 := by
  have hle : 2 ^ i ≤ n := Nat.ge_two_pow_of_testBit h
  have hne : n ≠ 0 := by
    have := Nat.two_pow_pos i
    omega
  rw [fls, if_neg hne, (Nat.log2_eq_iff hne).mpr ⟨hle, hlt⟩]

namespace Constraint

variable {self other c : Constraint} {k k' x F : Nat}

lemma Window.shift_le (h : c.Window k) (hk : 0 < k) : k + c.shift ≤ 31 := by
  by_contra hlt
  have hfits := h.fits
  rw [h.mask_eq, Nat.shiftLeft_eq] at hfits
  have hone : 2 ^ (k - 1) ≤ 2 ^ k - 1 := by
    obtain ⟨k, rfl⟩ := Nat.exists_eq_succ_of_ne_zero (Nat.ne_of_gt hk)
    have := Nat.two_pow_pos k
    rw [Nat.succ_sub_one, Nat.pow_succ]
    omega
  have hbig : 2 ^ 31 ≤ 2 ^ (k - 1) * 2 ^ c.shift := by
    rw [← Nat.pow_add]
    exact Nat.pow_le_pow_right (by omega) (by omega)
  have := Nat.mul_le_mul_right (2 ^ c.shift) hone
  omega

lemma Window.shiftedMask_eq (h : c.Window k) : c.shiftedMask = (2 ^ k - 1) <<< c.shift := by
  rw [shiftedMask, shl, Nat.mod_eq_of_lt (lt_trans h.fits (by omega)), h.mask_eq]

lemma Window.shiftedMask_lt (h : c.Window k) : c.shiftedMask < 2 ^ 31 := by
  rw [h.shiftedMask_eq, ← h.mask_eq]
  exact h.fits

lemma Window.allowed_lt (h : c.Window k) {v : Nat} (hv : v ∈ c.allowedValues) : v < 2 ^ k := by
  have hle := h.allowed v hv
  rw [h.mask_eq] at hle
  have := Nat.two_pow_pos k
  omega

lemma Window.admits_iff (h : c.Window k) : c.Admits x ↔ window x c.shift k ∈ c.allowedValues := by
  rw [Admits, h.mask_eq, shiftRight_and_mask]

lemma Window.fls_shiftedMask (h : c.Window k) (hk : 0 < k) : fls c.shiftedMask = k + c.shift := by
  obtain ⟨k, rfl⟩ := Nat.exists_eq_succ_of_ne_zero (Nat.ne_of_gt hk)
  have hlt : (2 ^ (k + 1) - 1) <<< c.shift < 2 ^ (c.shift + k + 1) := by
    apply Nat.lt_pow_two_of_testBit
    intro i hi
    rw [testBit_shifted_mask]
    simp
    omega
  rw [h.shiftedMask_eq, fls_of_testBit (i := c.shift + k) _ hlt]
  · omega
  · rw [testBit_shifted_mask]
    simp

lemma fls_mask (k : Nat) : fls (2 ^ k - 1 + 1) - 1 = k := by
  have hpos := Nat.two_pow_pos k
  rw [Nat.sub_add_cancel hpos, fls_of_testBit (i := k) Nat.testBit_two_pow_self]
  · rfl
  · exact Nat.pow_lt_pow_right (by omega) (by omega)

/-- The constraint with the left-most mask reaches as high as the other. -/
lemma reach_le (h : self.Window k) (h' : other.Window k') (hk' : 0 < k')
    (hle : ¬self.shiftedMask < other.shiftedMask) : other.shift + k' ≤ self.shift + k := by
  by_contra hlt
  apply hle
  rw [h.shiftedMask_eq, h'.shiftedMask_eq]
  have hlow : (2 ^ k - 1) <<< self.shift < 2 ^ (other.shift + k' - 1) := by
    apply Nat.lt_pow_two_of_testBit
    intro i hi
    rw [testBit_shifted_mask]
    simp
    omega
  have hhigh : 2 ^ (other.shift + k' - 1) ≤ (2 ^ k' - 1) <<< other.shift := by
    apply Nat.ge_two_pow_of_testBit
    rw [testBit_shifted_mask]
    simp
    omega
  omega

/-! ### The three ways two windows lie -/

/-- The addresses of `r` are those of both constraints. -/
def Meets (self other r : Constraint) : Prop :=
  r.Formed ∧ ∀ x, r.Admits x ↔ self.Admits x ∧ other.Admits x

lemma Meets.symm {r : Constraint} (h : Meets self other r) : Meets other self r :=
  ⟨h.1, fun x => (h.2 x).trans and_comm⟩

lemma restrict_window (h : self.Window k) : (self.restrict other).Window k where
  mask_eq := h.mask_eq
  fits := h.fits
  allowed := fun v hv => h.allowed v (Finset.mem_filter.mp hv).1

lemma restrict_meets (h : self.Window k) (h' : other.Window k') (hs : self.shift ≤ other.shift)
    (hr : other.shift + k' ≤ self.shift + k) : Meets self other (self.restrict other) := by
  refine ⟨⟨k, restrict_window h⟩, fun x => ?_⟩
  have hinner : (window x self.shift k >>> (other.shift - self.shift)) &&& other.mask =
      window x other.shift k' := by
    rw [h'.mask_eq, shiftRight_and_mask, window_window (by omega), Nat.add_sub_cancel' hs]
  rw [(restrict_window h).admits_iff, h.admits_iff, h'.admits_iff, ← hinner]
  exact Finset.mem_filter

lemma concat_window_mask (h : self.Window k) (hk : 0 < k) :
    (self.concat other).mask = 2 ^ (k + self.shift - other.shift) - 1 := by
  have hle := h.shift_le hk
  have hone : shl 1 (k + self.shift) = 2 ^ (k + self.shift) := by
    rw [shl, Nat.one_shiftLeft, Nat.mod_eq_of_lt (Nat.pow_lt_pow_right (by omega) (by omega))]
  change (shl 1 (fls self.shiftedMask) - 1) >>> other.shift = _
  rw [h.fls_shiftedMask hk, hone]
  apply Nat.eq_of_testBit_eq
  intro i
  rw [Nat.testBit_shiftRight, Nat.testBit_two_pow_sub_one, Nat.testBit_two_pow_sub_one]
  exact decide_eq_decide.mpr (by omega)

/-- A mask from one shift up to the top of another window fits where that window does. -/
lemma fits_of_le {n s : Nat} (h : n + s ≤ 31) : (2 ^ n - 1) <<< s < 2 ^ 31 := by
  apply Nat.lt_pow_two_of_testBit
  intro i hi
  rw [testBit_shifted_mask]
  simp
  omega

lemma mem_concat (h : self.Window k) (h' : other.Window k') (hk : 0 < k) (hk' : 0 < k')
    (hd : other.shift + k' ≤ self.shift) :
    F ∈ (self.concat other).allowedValues ↔
      ∃ a ∈ self.allowedValues, ∃ u < 2 ^ (self.shift - (other.shift + k')),
        ∃ o ∈ other.allowedValues,
          F = (a * 2 ^ (self.shift - (other.shift + k')) + u) * 2 ^ k' + o := by
  have hle := h.shift_le hk
  have hle' := h'.shift_le hk'
  have hfls : self.shift - fls other.shiftedMask = self.shift - (other.shift + k') := by
    rw [h'.fls_shiftedMask hk', Nat.add_comm k']
  have hlen : fls (other.mask + 1) - 1 = k' := by rw [h'.mask_eq, fls_mask]
  obtain ⟨n, hn⟩ : ∃ n, self.shift - (other.shift + k') = n := ⟨_, rfl⟩
  have hrange : shl 1 n = 2 ^ n := by
    rw [shl, Nat.one_shiftLeft, Nat.mod_eq_of_lt (Nat.pow_lt_pow_right (by omega) (by omega))]
  -- what is inserted for one allowed value and one choice of the bits between the windows
  have hput : ∀ a ∈ self.allowedValues, ∀ u < 2 ^ n,
      shl (shl a n ||| u) k' = (a * 2 ^ n + u) * 2 ^ k' := by
    intro a ha u hu
    have hlt := h.allowed_lt ha
    rw [shl_eq hlt (by omega), shiftLeft_or hu, shl_eq (mul_add_lt hlt hu) (by omega),
      Nat.shiftLeft_eq]
  have hor : ∀ y, ∀ o ∈ other.allowedValues, y * 2 ^ k' ||| o = y * 2 ^ k' + o := by
    intro y o ho
    rw [← Nat.shiftLeft_eq, shiftLeft_or (h'.allowed_lt ho), Nat.shiftLeft_eq]
  unfold concat
  dsimp only
  rw [hfls, hlen, hn, Finset.mem_biUnion]
  simp only [Finset.mem_image]
  constructor
  · rintro ⟨y, hy, o, ho, rfl⟩
    split_ifs at hy with hpos
    · simp only [Finset.mem_biUnion, Finset.mem_image, Finset.mem_range, hrange] at hy
      obtain ⟨a, ha, u, hu, rfl⟩ := hy
      refine ⟨a, ha, u, hu, o, ho, ?_⟩
      rw [hput a ha u hu, hor _ o ho]
    · obtain ⟨a, ha, rfl⟩ := Finset.mem_image.mp hy
      have hzero : n = 0 := by omega
      refine ⟨a, ha, 0, Nat.two_pow_pos n, o, ho, ?_⟩
      rw [hzero, shl_eq (h.allowed_lt ha) (by omega), Nat.shiftLeft_eq, hor _ o ho, pow_zero,
        Nat.mul_one, Nat.add_zero]
  · rintro ⟨a, ha, u, hu, o, ho, rfl⟩
    refine ⟨(a * 2 ^ n + u) * 2 ^ k', ?_, o, ho, hor _ o ho⟩
    split_ifs with hpos
    · simp only [Finset.mem_biUnion, Finset.mem_image, Finset.mem_range, hrange]
      exact ⟨a, ha, u, hu, hput a ha u hu⟩
    · have hzero : n = 0 := by omega
      subst hzero
      have hu0 : u = 0 := by simpa using hu
      refine Finset.mem_image.mpr ⟨a, ha, ?_⟩
      rw [hu0, shl_eq (h.allowed_lt ha) (by omega), Nat.shiftLeft_eq, pow_zero, Nat.mul_one,
        Nat.add_zero]

lemma concat_meets (h : self.Window k) (h' : other.Window k') (hk : 0 < k) (hk' : 0 < k')
    (hd : other.shift + k' ≤ self.shift) : Meets self other (self.concat other) := by
  have hle := h.shift_le hk
  obtain ⟨n, hn⟩ := Nat.exists_eq_add_of_le hd
  have hmem : ∀ F, F ∈ (self.concat other).allowedValues ↔ ∃ a ∈ self.allowedValues, ∃ u < 2 ^ n,
      ∃ o ∈ other.allowedValues, F = (a * 2 ^ n + u) * 2 ^ k' + o := by
    intro F
    rw [mem_concat h h' hk hk' hd, hn, Nat.add_sub_cancel_left]
  have hbits : k + self.shift - other.shift = k' + (n + k) := by omega
  have hw : (self.concat other).Window (k' + (n + k)) := by
    constructor
    · rw [concat_window_mask h hk, hbits]
    · rw [concat_window_mask h hk, hbits]
      exact fits_of_le (s := other.shift) (by omega)
    · intro v hv
      obtain ⟨a, ha, u, hu, o, ho, rfl⟩ := (hmem v).mp hv
      have hlt := mul_add_lt (mul_add_lt (h.allowed_lt ha) hu) (h'.allowed_lt ho)
      rw [concat_window_mask h hk, hbits]
      omega
  refine ⟨⟨_, hw⟩, fun x => ?_⟩
  rw [hw.admits_iff, h.admits_iff, h'.admits_iff]
  change window x other.shift _ ∈ _ ↔ _
  rw [hmem, window_add x other.shift, window_add x (other.shift + k'), ← hn]
  constructor
  · rintro ⟨a, ha, u, hu, o, ho, heq⟩
    obtain ⟨hhigh, hlow⟩ := (mul_add_inj (window_lt _ _ _) (h'.allowed_lt ho)).mp heq
    obtain ⟨hhigh, -⟩ := (mul_add_inj (window_lt _ _ _) hu).mp hhigh
    rw [hhigh, hlow]
    exact ⟨ha, ho⟩
  · rintro ⟨ha, ho⟩
    exact ⟨_, ha, _, window_lt _ _ _, _, ho, rfl⟩

section Cross

variable {d n a o : Nat}

lemma testBit_intersectionMask (h : self.Window k) (h' : other.Window k')
    (hs : other.shift ≤ self.shift) (hr : other.shift + k' ≤ self.shift + k) (i : Nat) :
    (self.shiftedMask &&& other.shiftedMask).testBit i =
      decide (self.shift ≤ i ∧ i < other.shift + k') := by
  rw [h.shiftedMask_eq, h'.shiftedMask_eq, Nat.testBit_and, testBit_shifted_mask,
    testBit_shifted_mask, ← Bool.decide_and]
  exact decide_eq_decide.mpr (by omega)

/-- Of a value of the upper window the overlap keeps the low bits. -/
lemma self_and_intersectionMask (h : self.Window k) (h' : other.Window k') (hk : 0 < k)
    (hs : other.shift ≤ self.shift) (hr : other.shift + k' ≤ self.shift + k)
    (hn : other.shift + k' = self.shift + n) (ha : a ∈ self.allowedValues) :
    shl a self.shift &&& (self.shiftedMask &&& other.shiftedMask) = (a % 2 ^ n) <<< self.shift := by
  rw [shl_eq (h.allowed_lt ha) (h.shift_le hk)]
  apply Nat.eq_of_testBit_eq
  intro i
  rw [Nat.testBit_and, testBit_intersectionMask h h' hs hr, Nat.testBit_shiftLeft,
    Nat.testBit_shiftLeft, Nat.testBit_mod_two_pow]
  by_cases hi : self.shift ≤ i
  · have hin : i < other.shift + k' ↔ i - self.shift < n := by omega
    simp only [ge_iff_le, hi, decide_true, Bool.true_and, true_and, hin]
    exact Bool.and_comm _ _
  · simp [hi]

/-- Of a value of the lower window the overlap keeps the high bits. -/
lemma other_and_intersectionMask (h : self.Window k) (h' : other.Window k') (hk' : 0 < k')
    (hs : other.shift + d = self.shift) (hr : other.shift + k' ≤ self.shift + k)
    (ho : o ∈ other.allowedValues) :
    shl o other.shift &&& (self.shiftedMask &&& other.shiftedMask) = (o / 2 ^ d) <<< self.shift := by
  have hlt := h'.allowed_lt ho
  rw [shl_eq hlt (h'.shift_le hk')]
  apply Nat.eq_of_testBit_eq
  intro i
  rw [Nat.testBit_and, testBit_intersectionMask h h' (by omega) hr, Nat.testBit_shiftLeft,
    Nat.testBit_shiftLeft, Nat.testBit_div_two_pow]
  by_cases hi : self.shift ≤ i
  · have hlow : other.shift ≤ i := by omega
    have hidx : i - self.shift + d = i - other.shift := by omega
    rw [hidx]
    by_cases hin : i < other.shift + k'
    · simp [hi, hlow, hin]
    · have hbit : o.testBit (i - other.shift) = false :=
        Nat.testBit_lt_two_pow (lt_of_lt_of_le hlt (Nat.pow_le_pow_right (by omega) (by omega)))
      simp [hbit]
  · simp [hi]

lemma shiftLeft_inj {p q s : Nat} : p <<< s = q <<< s ↔ p = q := by
  rw [Nat.shiftLeft_eq, Nat.shiftLeft_eq]
  exact Nat.mul_left_inj (Nat.two_pow_pos s).ne'

lemma mem_crossProduct (h : self.Window k) (h' : other.Window k') (hk : 0 < k) (hk' : 0 < k')
    (hs : other.shift + d = self.shift) (hr : other.shift + k' ≤ self.shift + k)
    (hn : other.shift + k' = self.shift + n) :
    F ∈ (self.crossProduct other).allowedValues ↔
      ∃ a ∈ self.allowedValues, ∃ o ∈ other.allowedValues,
        o / 2 ^ d = a % 2 ^ n ∧ F = a * 2 ^ d + o % 2 ^ d := by
  have hle := h.shift_le hk
  have hself : ∀ a ∈ self.allowedValues,
      shl a self.shift &&& (self.shiftedMask &&& other.shiftedMask) =
        (a % 2 ^ n) <<< self.shift :=
    fun a ha => self_and_intersectionMask h h' hk (by omega) hr hn ha
  have hother : ∀ o ∈ other.allowedValues,
      shl o other.shift &&& (self.shiftedMask &&& other.shiftedMask) = (o / 2 ^ d) <<< self.shift :=
    fun o ho => other_and_intersectionMask h h' hk' hs hr ho
  have hdiff : self.shift - other.shift = d := by omega
  have hput : ∀ a ∈ self.allowedValues, ∀ o ∈ other.allowedValues, o / 2 ^ d = a % 2 ^ n →
      shl a (self.shift - other.shift) ||| o = a * 2 ^ d + o % 2 ^ d := by
    intro a ha o ho hagree
    rw [hdiff, shl_eq (h.allowed_lt ha) (by omega), shiftLeft_or_of_agree hagree]
  have hsmall : ∀ a, shl (a % 2 ^ n) self.shift = (a % 2 ^ n) <<< self.shift :=
    fun a => shl_eq (Nat.mod_lt a (Nat.two_pow_pos n)) (by omega)
  unfold crossProduct
  simp only [Finset.mem_biUnion, Finset.mem_inter, Finset.mem_image, Finset.mem_filter]
  constructor
  · rintro ⟨p, ⟨⟨b, hb, rfl⟩, -⟩, a, ⟨ha, hab⟩, o, ⟨ho, hob⟩, rfl⟩
    rw [hself b hb, Nat.shiftLeft_shiftRight, hsmall] at hab hob
    rw [hself a ha, shiftLeft_inj] at hab
    rw [hother o ho, shiftLeft_inj, ← hab] at hob
    exact ⟨a, ha, o, ho, hob, hput a ha o ho hob⟩
  · rintro ⟨a, ha, o, ho, hagree, rfl⟩
    refine ⟨a % 2 ^ n, ⟨⟨a, ha, ?_⟩, ⟨o, ho, ?_⟩⟩, a, ⟨ha, ?_⟩, o, ⟨ho, ?_⟩,
      hput a ha o ho hagree⟩
    · rw [hself a ha, Nat.shiftLeft_shiftRight]
    · rw [hother o ho, Nat.shiftLeft_shiftRight, hagree]
    · rw [hself a ha, hsmall]
    · rw [hother o ho, hsmall, hagree]

lemma crossProduct_meets (h : self.Window k) (h' : other.Window k') (hk : 0 < k) (hk' : 0 < k')
    (hs : other.shift < self.shift) (hr : other.shift + k' ≤ self.shift + k)
    (hover : self.shift ≤ other.shift + k') : Meets self other (self.crossProduct other) := by
  have hle := h.shift_le hk
  obtain ⟨d, hd⟩ := Nat.exists_eq_add_of_le hs.le
  obtain ⟨n, hn⟩ := Nat.exists_eq_add_of_le hover
  have hmem : ∀ F, F ∈ (self.crossProduct other).allowedValues ↔ ∃ a ∈ self.allowedValues,
      ∃ o ∈ other.allowedValues, o / 2 ^ d = a % 2 ^ n ∧ F = a * 2 ^ d + o % 2 ^ d :=
    fun F => mem_crossProduct h h' hk hk' hd.symm hr hn
  have hmask : (self.crossProduct other).mask = 2 ^ (d + k) - 1 := by
    change (self.shiftedMask ||| other.shiftedMask) >>> other.shift = _
    rw [h.shiftedMask_eq, h'.shiftedMask_eq]
    apply Nat.eq_of_testBit_eq
    intro i
    rw [Nat.testBit_shiftRight, Nat.testBit_or, testBit_shifted_mask, testBit_shifted_mask,
      Nat.testBit_two_pow_sub_one, ← Bool.decide_or]
    exact decide_eq_decide.mpr (by omega)
  have hw : (self.crossProduct other).Window (d + k) := by
    constructor
    · exact hmask
    · rw [hmask]
      exact fits_of_le (s := other.shift) (by omega)
    · intro v hv
      obtain ⟨a, ha, o, -, -, rfl⟩ := (hmem v).mp hv
      have hlt := mul_add_lt (h.allowed_lt ha) (Nat.mod_lt o (Nat.two_pow_pos d))
      rw [hmask]
      omega
  have hk'n : k' = d + n := by omega
  refine ⟨⟨_, hw⟩, fun x => ?_⟩
  rw [hw.admits_iff, h.admits_iff, h'.admits_iff]
  change window x other.shift _ ∈ _ ↔ _
  -- the two windows of one address agree where they overlap
  have hagree : window x other.shift k' / 2 ^ d = window x self.shift k % 2 ^ n := by
    have hnk : 0 + n ≤ k := by omega
    have hlow : window (window x self.shift k) 0 n = window x (self.shift + 0) n :=
      window_window hnk
    rw [window, Nat.pow_zero, Nat.div_one, Nat.add_zero] at hlow
    rw [hk'n, window_add, hlow, ← hd, Nat.mul_comm, Nat.mul_add_div (Nat.two_pow_pos d),
      Nat.div_eq_of_lt (window_lt _ _ _), Nat.add_zero]
  have hrest : window x other.shift k' % 2 ^ d = window x other.shift d := by
    rw [hk'n, window_add, Nat.mul_comm, Nat.mul_add_mod, Nat.mod_eq_of_lt (window_lt _ _ _)]
  rw [hmem, window_add, ← hd]
  constructor
  · rintro ⟨a, ha, o, ho, hao, heq⟩
    obtain ⟨hhigh, hlow⟩ := (mul_add_inj (window_lt _ _ _) (Nat.mod_lt o (Nat.two_pow_pos d))).mp heq
    refine ⟨hhigh ▸ ha, ?_⟩
    have ho' : o = window x other.shift k' := by
      rw [← Nat.div_add_mod o (2 ^ d), hao, ← hlow, ← hhigh, ← hagree, ← hrest]
      exact Nat.div_add_mod _ _
    exact ho' ▸ ho
  · rintro ⟨ha, ho⟩
    exact ⟨_, ha, _, ho, hagree, by rw [hrest]⟩

end Cross

/-! ### The intersection -/

lemma Window.empty_of_not_free (h : c.Window 0) (hf : ¬c.Free) : c.allowedValues = ∅ := by
  by_contra hne
  apply hf
  refine ⟨h.mask_eq, Finset.eq_singleton_iff_nonempty_unique_mem.mpr
    ⟨Finset.nonempty_iff_ne_empty.mpr hne, fun v hv => ?_⟩⟩
  have := h.allowed_lt hv
  omega

lemma Free.admits (h : c.Free) (x : Nat) : c.Admits x := by
  rw [Admits, h.1, h.2, Nat.and_zero]
  exact Finset.mem_singleton_self 0

lemma not_admits_of_empty (h : c.allowedValues = ∅) (x : Nat) : ¬c.Admits x := by
  rw [Admits, h]
  exact Finset.notMem_empty _

lemma meets_of_empty {r : Constraint} (hr : r.Formed) (h : r.allowedValues = ∅)
    (he : self.allowedValues = ∅ ∨ other.allowedValues = ∅) : Meets self other r := by
  refine ⟨hr, fun x => iff_of_false (not_admits_of_empty h x) ?_⟩
  rintro ⟨hs, ho⟩
  rcases he with he | he
  · exact not_admits_of_empty he x hs
  · exact not_admits_of_empty he x ho

lemma restrict_empty (h : self.allowedValues = ∅ ∨ other.allowedValues = ∅) :
    (self.restrict other).allowedValues = ∅ := by
  rcases h with h | h
  · simp [restrict, h]
  · simp [restrict, h]

lemma concat_empty (h : other.allowedValues = ∅) : (self.concat other).allowedValues = ∅ := by
  apply Finset.eq_empty_of_forall_notMem
  intro F hF
  obtain ⟨_, -, hF⟩ := Finset.mem_biUnion.mp hF
  rw [h] at hF
  exact Finset.notMem_empty _ hF

lemma crossProduct_empty (h : other.allowedValues = ∅) :
    (self.crossProduct other).allowedValues = ∅ := by
  simp [crossProduct, h]

lemma Window.of_empty {n : Nat} (hmask : c.mask = 2 ^ n - 1) (hn : n + c.shift ≤ 31 ∨ n = 0)
    (he : c.allowedValues = ∅) : c.Window n where
  mask_eq := hmask
  fits := by
    rw [hmask]
    rcases hn with hn | rfl
    · exact fits_of_le hn
    · simp
  allowed := by simp [he]

lemma Window.shiftedMask_zero (h : c.Window 0) : c.shiftedMask = 0 := by
  rw [h.shiftedMask_eq]
  simp

lemma Window.le_shiftedMask (h : c.Window k) (hk : 0 < k) :
    2 ^ (c.shift + k - 1) ≤ c.shiftedMask := by
  rw [h.shiftedMask_eq]
  apply Nat.ge_two_pow_of_testBit
  rw [testBit_shifted_mask]
  simp
  omega

lemma Window.shiftedMask_lt_top (h : c.Window k) : c.shiftedMask < 2 ^ (c.shift + k) := by
  rw [h.shiftedMask_eq]
  apply Nat.lt_pow_two_of_testBit
  intro i hi
  rw [testBit_shifted_mask]
  simp
  omega

/-- Only an empty mask is left of nothing but empty masks. -/
lemma Window.zero_of_not_lt (h : self.Window 0) (h' : other.Window k')
    (hle : ¬self.shiftedMask < other.shiftedMask) : k' = 0 := by
  by_contra hk'
  apply hle
  have := h'.le_shiftedMask (Nat.pos_of_ne_zero hk')
  have := Nat.two_pow_pos (other.shift + k' - 1)
  rw [h.shiftedMask_zero]
  omega

/-- The test that tells windows that are apart from windows that overlap. -/
lemma intLt_shiftedMask (h : self.Window k) (hk : 0 < k) (h' : other.Window k') (hk' : 0 < k') :
    intLt other.shiftedMask (shl 1 self.shift) = decide (other.shift + k' ≤ self.shift) := by
  have hle := h.shift_le hk
  have hone : shl 1 self.shift = 2 ^ self.shift := by
    rw [shl, Nat.one_shiftLeft, Nat.mod_eq_of_lt (Nat.pow_lt_pow_right (by omega) (by omega))]
  rw [hone, intLt_eq h'.shiftedMask_lt (Nat.pow_lt_pow_right (by omega) (by omega))]
  apply decide_eq_decide.mpr
  constructor
  · intro hlt
    by_contra hover
    have hhigh := h'.le_shiftedMask hk'
    have := Nat.pow_le_pow_right (n := 2) (by omega)
      (show self.shift ≤ other.shift + k' - 1 by omega)
    omega
  · intro hd
    exact lt_of_lt_of_le h'.shiftedMask_lt_top (Nat.pow_le_pow_right (by omega) hd)

lemma intersectingLeftMost_meets (h : self.Window k) (h' : other.Window k')
    (hle : ¬self.shiftedMask < other.shiftedMask) :
    Meets self other (self.intersectingLeftMost other) := by
  unfold intersectingLeftMost
  split_ifs with hf hf' hs hlt
  · exact ⟨⟨k', h'⟩, fun x => (and_iff_right (hf.admits x)).symm⟩
  · exact ⟨⟨k, h⟩, fun x => (and_iff_left (hf'.admits x)).symm⟩
  · rcases Nat.eq_zero_or_pos k' with rfl | hk'
    · have he := h'.empty_of_not_free hf'
      exact meets_of_empty ⟨k, restrict_window h⟩ (restrict_empty (Or.inr he)) (Or.inr he)
    · exact restrict_meets h h' hs (reach_le h h' hk' hle)
  · rcases Nat.eq_zero_or_pos k' with rfl | hk'
    · have he := h'.empty_of_not_free hf'
      refine meets_of_empty ?_ (concat_empty he) (Or.inr he)
      rcases Nat.eq_zero_or_pos k with rfl | hk
      · have hmask : (self.concat other).mask = 2 ^ 0 - 1 := by
          change (shl 1 (fls self.shiftedMask) - 1) >>> other.shift = _
          rw [h.shiftedMask_zero]
          exact Nat.zero_shiftRight _
        exact ⟨0, Window.of_empty hmask (Or.inr rfl) (concat_empty he)⟩
      · have hbound := h.shift_le hk
        have hfit : k + self.shift - other.shift + (self.concat other).shift ≤ 31 := by
          change k + self.shift - other.shift + other.shift ≤ 31
          omega
        exact ⟨_, Window.of_empty (concat_window_mask h hk) (Or.inl hfit) (concat_empty he)⟩
    · have hk : 0 < k := by
        rcases Nat.eq_zero_or_pos k with rfl | hk
        · exact absurd (h.zero_of_not_lt h' hle) hk'.ne'
        · exact hk
      rw [intLt_shiftedMask h hk h' hk', decide_eq_true_eq] at hlt
      exact concat_meets h h' hk hk' hlt
  · rcases Nat.eq_zero_or_pos k with rfl | hk
    · obtain rfl := h.zero_of_not_lt h' hle
      have he := h'.empty_of_not_free hf'
      have hmask : (self.crossProduct other).mask = 2 ^ 0 - 1 := by
        change (self.shiftedMask ||| other.shiftedMask) >>> other.shift = _
        rw [h.shiftedMask_zero, h'.shiftedMask_zero]
        exact Nat.zero_shiftRight _
      exact meets_of_empty ⟨0, Window.of_empty hmask (Or.inr rfl) (crossProduct_empty he)⟩
        (crossProduct_empty he) (Or.inr he)
    · have hk' : 0 < k' := by
        rcases Nat.eq_zero_or_pos k' with rfl | hk'
        · refine absurd ?_ hlt
          have hone : shl 1 self.shift = 2 ^ self.shift := by
            have := h.shift_le hk
            rw [shl, Nat.one_shiftLeft,
              Nat.mod_eq_of_lt (Nat.pow_lt_pow_right (by omega) (by omega))]
          have := h.shift_le hk
          rw [h'.shiftedMask_zero, hone, intLt_eq (by omega)
            (Nat.pow_lt_pow_right (by omega) (by omega))]
          exact decide_eq_true (Nat.two_pow_pos _)
        · exact hk'
      rw [intLt_shiftedMask h hk h' hk', decide_eq_true_eq] at hlt
      exact crossProduct_meets h h' hk hk' (by omega) (reach_le h h' hk' hle) (by omega)

/-- The intersection of two constraints allows the addresses that both allow. -/
lemma intersecting_meets (h : self.Formed) (h' : other.Formed) :
    Meets self other (self.intersecting other) := by
  obtain ⟨k, h⟩ := h
  obtain ⟨k', h'⟩ := h'
  unfold intersecting
  have hcmp : intLt self.shiftedMask other.shiftedMask ↔ self.shiftedMask < other.shiftedMask := by
    rw [intLt_eq h.shiftedMask_lt h'.shiftedMask_lt, decide_eq_true_eq]
  split_ifs with hsame hlt
  · refine ⟨⟨k, h.mask_eq, h.fits, fun v hv => h.allowed v (Finset.mem_filter.mp hv).1⟩,
      fun x => ?_⟩
    unfold Admits
    rw [← hsame.1, ← hsame.2]
    exact Finset.mem_filter
  · rw [hcmp] at hlt
    exact (intersectingLeftMost_meets h' h (by omega)).symm
  · rw [hcmp] at hlt
    exact intersectingLeftMost_meets h h' hlt

end Constraint

/-! ### The merged constraint -/

namespace ConstraintSet

variable {cs cs' : ConstraintSet} {c : Constraint} {l : List (Constraint × Bool)}

structure Merged (cs : ConstraintSet) : Prop where
  none_iff : cs.mergedConstraint = none ↔ cs.constraints = ∅
  admits : ∀ m, cs.mergedConstraint = some m → m.Formed ∧
    ∀ x, m.Admits x ↔ ∀ c ∈ cs.constraints, c.Admits x

lemma merged_clear : clear.Merged where
  none_iff := iff_of_true rfl rfl
  admits := fun m hm => by cases hm

lemma add_spec (h : cs.Merged) (hc : c.Formed) (hne : c.allowedValues.Nonempty) (found : Bool) :
    ∃ r cs', cs.add c found = some (r, cs') ∧ cs'.Merged ∧
      cs'.constraints = insert c cs.constraints := by
  unfold add
  rw [if_neg hne.ne_empty]
  split_ifs with hin
  · exact ⟨false, cs, rfl, h, (Finset.insert_eq_of_mem hin.2).symm⟩
  · refine ⟨true, _, rfl, ⟨?_, ?_⟩, rfl⟩
    · refine iff_of_false ?_ (Finset.insert_ne_empty _ _)
      cases cs.mergedConstraint <;> exact Option.some_ne_none _
    · intro m hm
      simp only [Finset.forall_mem_insert]
      cases hmerged : cs.mergedConstraint with
      | none =>
        have hempty := h.none_iff.mp hmerged
        rw [hmerged] at hm
        cases hm
        simp [hc, hempty]
      | some merged =>
        obtain ⟨hformed, hadmits⟩ := h.admits merged hmerged
        have hmeets := Constraint.intersecting_meets hformed hc
        rw [hmerged] at hm
        cases hm
        refine ⟨hmeets.1, fun x => ?_⟩
        rw [hmeets.2 x, hadmits x]
        exact and_comm

/-- A run of additions stops at the first constraint that allows nothing, and otherwise merges
all of them. -/
lemma addAll_spec (h : cs.Merged) (hl : ∀ c ∈ l, c.1.Formed) :
    (∀ c ∈ l, c.1.allowedValues.Nonempty) →
      ∃ cs', cs.addAll l = some cs' ∧ cs'.Merged ∧
        ∀ c, c ∈ cs'.constraints ↔ c ∈ cs.constraints ∨ c ∈ l.map Prod.fst := by
  intro hne
  induction l generalizing cs with
  | nil => exact ⟨cs, rfl, h, by simp⟩
  | cons c l ih =>
    obtain ⟨r, cs₁, hadd, hmerged, hins⟩ :=
      add_spec h (hl c List.mem_cons_self) (hne c List.mem_cons_self) c.2
    obtain ⟨cs', hall, hmerged', hmem⟩ := ih hmerged
      (fun c hc => hl c (List.mem_cons_of_mem _ hc)) (fun c hc => hne c (List.mem_cons_of_mem _ hc))
    refine ⟨cs', ?_, hmerged', fun d => ?_⟩
    · rw [addAll, List.foldlM_cons, hadd]
      exact hall
    · rw [hmem d, hins, Finset.mem_insert, List.map_cons, List.mem_cons]
      tauto

lemma addAll_eq_none {c : Constraint × Bool} (hc : c ∈ l) (he : c.1.allowedValues = ∅) :
    cs.addAll l = none := by
  induction l generalizing cs with
  | nil => cases hc
  | cons d l ih =>
    rw [addAll, List.foldlM_cons]
    cases hadd : cs.add d.1 d.2 with
    | none => rfl
    | some r =>
      rcases List.mem_cons.mp hc with rfl | hc
      · rw [add, if_pos he] at hadd
        cases hadd
      · exact ih hc

/-- All additions are made, and the merged constraint allows exactly the addresses that every
one of the constraints allows. -/
def Merges (l : List (Constraint × Bool)) : Prop :=
  ∃ cs, clear.addAll l = some cs ∧
    (cs.mergedConstraint = none ↔ l = []) ∧
    ∀ m, cs.mergedConstraint = some m → ∀ x, m.Admits x ↔ ∀ c ∈ l, c.1.Admits x

lemma merges_of_nonempty (hl : ∀ c ∈ l, c.1.Formed) (hne : ∀ c ∈ l, c.1.allowedValues.Nonempty) :
    Merges l := by
  obtain ⟨cs, hall, hmerged, hmem⟩ := addAll_spec merged_clear hl hne
  have hcons : ∀ c, c ∈ cs.constraints ↔ c ∈ l.map Prod.fst := by
    intro c
    rw [hmem]
    exact or_iff_right (Finset.notMem_empty c)
  refine ⟨cs, hall, ?_, fun m hm x => ?_⟩
  · rw [hmerged.none_iff, Finset.eq_empty_iff_forall_notMem]
    simp only [hcons]
    rw [← List.eq_nil_iff_forall_not_mem, List.map_eq_nil_iff]
  · rw [(hmerged.admits m hm).2 x]
    simp only [hcons, List.forall_mem_map]

end ConstraintSet

/-- Two windows are intersected exactly; a sequence of additions merges exactly, in any order,
when every constraint allows something. -/
theorem intersection_exact_iff (a b : Constraint) (ha : a.Formed) (hb : b.Formed)
    (l : List (Constraint × Bool)) (hl : ∀ c ∈ l, c.1.Formed) :
    (∀ x, (a.intersecting b).Admits x ↔ a.Admits x ∧ b.Admits x) ∧ ConstraintSet.Merges l ↔
      ∀ c ∈ l, c.1.allowedValues.Nonempty := by
  constructor
  · rintro ⟨-, cs, hall, -⟩ c hc
    by_contra hempty
    rw [ConstraintSet.addAll_eq_none hc (Finset.not_nonempty_iff_eq_empty.mp hempty)] at hall
    cases hall
  · intro hne
    exact ⟨(Constraint.intersecting_meets ha hb).2, ConstraintSet.merges_of_nonempty hl hne⟩

/-- Bit 3 of the address is set. -/
def highBit : Constraint := ⟨1, 3, {1}⟩

def lowBits : Constraint := ⟨3, 0, {2, 3}⟩

/-- A window of one bit of which neither value is allowed. -/
def noValue : Constraint := ⟨1, 0, ∅⟩

lemma formed_highBit : highBit.Formed := ⟨1, rfl, by decide, by decide⟩

lemma formed_lowBits : lowBits.Formed := ⟨2, rfl, by decide, by decide⟩

lemma formed_noValue : noValue.Formed := ⟨1, rfl, by decide, by decide⟩

theorem intersection_exact_highBit_lowBits :
    (∀ x, (highBit.intersecting lowBits).Admits x ↔ highBit.Admits x ∧ lowBits.Admits x) ∧
      ConstraintSet.Merges [(highBit, false), (lowBits, false), (highBit, true)] := by
  refine (intersection_exact_iff highBit lowBits formed_highBit formed_lowBits _ ?_).mpr ?_
  · intro c hc
    simp only [List.mem_cons, List.not_mem_nil, or_false] at hc
    rcases hc with rfl | rfl | rfl
    · exact formed_highBit
    · exact formed_lowBits
    · exact formed_highBit
  · decide

/-- The hash value of a constraint that allows nothing is that of no element. -/
theorem not_merges_noValue : noValue.Formed ∧ ¬ConstraintSet.Merges [(noValue, false)] := by
  refine ⟨formed_noValue, ?_⟩
  rintro ⟨cs, hall, -⟩
  rw [ConstraintSet.addAll_eq_none (List.mem_singleton_self _) rfl] at hall
  cases hall

end Dyld.IMPCaches
