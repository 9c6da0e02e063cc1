import Mathlib

/-!
# Bit fields of machine words

A field of `len` bits starting at bit `lo` of a word, read as a number, and the word after
such a field is assigned. Assigning a field keeps the low `len` bits of the value, as a C
bit-field does.
-/

namespace Dyld.Lib

variable {w : Nat}

/-- Subtraction of 32-bit unsigned integers. -/
def sub32 (a b : Nat) : Nat := (a + 2 ^ 32 - b % 2 ^ 32) % 2 ^ 32

lemma sub32_of_le {a b : Nat} (h : b ≤ a) (ha : a < 2 ^ 32) : sub32 a b = a - b := by
  have hb : b % 2 ^ 32 = b := Nat.mod_eq_of_lt (h.trans_lt ha)
  have hsum : a + 2 ^ 32 - b = a - b + 2 ^ 32 := by omega
  rw [sub32, hb, hsum, Nat.add_mod_right, Nat.mod_eq_of_lt (by omega)]

def getField (x : BitVec w) (lo len : Nat) : Nat := x.toNat / 2 ^ lo % 2 ^ len

/-- The word after `v` is assigned to the field of `len` bits at bit `lo`. -/
def setField (x : BitVec w) (lo len v : Nat) : BitVec w :=
  (x &&& ~~~(BitVec.ofNat w ((2 ^ len - 1) <<< lo))) ||| BitVec.ofNat w ((v % 2 ^ len) <<< lo)

lemma getField_lt (x : BitVec w) (lo len : Nat) : getField x lo len < 2 ^ len :=
  Nat.mod_lt _ (by positivity)

lemma testBit_getField (x : BitVec w) (lo len i : Nat) :
    (getField x lo len).testBit i = (decide (i < len) && x.getLsbD (lo + i)) := by
  rw [getField, Nat.testBit_mod_two_pow, ← Nat.shiftRight_eq_div_pow, Nat.testBit_shiftRight,
    ← BitVec.testBit_toNat]

lemma getLsbD_setField (x : BitVec w) (lo len v i : Nat) :
    (setField x lo len v).getLsbD i =
      if lo ≤ i ∧ i < lo + len then decide (i < w) && v.testBit (i - lo) else x.getLsbD i := by
  by_cases hw : i < w
  · simp only [setField, BitVec.getLsbD_or, BitVec.getLsbD_and, BitVec.getLsbD_not,
      BitVec.getLsbD_ofNat, Nat.testBit_shiftLeft, Nat.testBit_two_pow_sub_one,
      Nat.testBit_mod_two_pow, hw, decide_true, Bool.true_and]
    by_cases hlo : lo ≤ i
    · have hlt : i - lo < len ↔ i < lo + len := by omega
      by_cases hhi : i < lo + len
      · simp [hlo, hhi, hlt]
      · simp [hlo, hhi, hlt]
    · simp [hlo]
  · have hx : x.getLsbD i = false := BitVec.getLsbD_of_ge x i (by omega)
    have hs : (setField x lo len v).getLsbD i = false := BitVec.getLsbD_of_ge _ i (by omega)
    simp [hx, hs, hw]

lemma getField_setField_same {x : BitVec w} {lo len : Nat} (v : Nat) (h : lo + len ≤ w) :
    getField (setField x lo len v) lo len = v % 2 ^ len := by
  apply Nat.eq_of_testBit_eq
  intro i
  rw [testBit_getField, getLsbD_setField, Nat.testBit_mod_two_pow]
  by_cases hi : i < len
  · have h1 : lo ≤ lo + i ∧ lo + i < lo + len := by omega
    have h2 : lo + i < w := by omega
    simp [hi, h2]
  · simp [hi]

lemma getField_setField_apart {x : BitVec w} {lo len lo' len' : Nat} (v : Nat)
    (h : lo' + len' ≤ lo ∨ lo + len ≤ lo') :
    getField (setField x lo len v) lo' len' = getField x lo' len' := by
  apply Nat.eq_of_testBit_eq
  intro i
  rw [testBit_getField, testBit_getField, getLsbD_setField]
  by_cases hi : i < len'
  · have h1 : ¬(lo ≤ lo' + i ∧ lo' + i < lo + len) := by omega
    rw [if_neg h1]
  · simp [hi]

lemma setField_getField (x : BitVec w) (lo len : Nat) : setField x lo len (getField x lo len) = x := by
  apply BitVec.eq_of_getLsbD_eq
  intro i hi
  rw [getLsbD_setField]
  split_ifs with h
  · rw [testBit_getField, decide_eq_true hi, Bool.true_and, decide_eq_true (by omega), Bool.true_and,
      Nat.add_sub_of_le h.1]
  · rfl

lemma toNat_setField_top {x : BitVec w} {lo len : Nat} (v : Nat) (h : lo + len = w) :
    (setField x lo len v).toNat = v % 2 ^ len * 2 ^ lo + x.toNat % 2 ^ lo := by
  apply Nat.eq_of_testBit_eq
  intro i
  rw [BitVec.testBit_toNat, getLsbD_setField, Nat.mul_comm,
    Nat.testBit_two_pow_mul_add _ (Nat.mod_lt _ (Nat.two_pow_pos lo)), Nat.testBit_mod_two_pow,
    Nat.testBit_mod_two_pow, BitVec.testBit_toNat]
  by_cases hlo : i < lo
  · simp [hlo, Nat.not_le.mpr hlo]
  · have hlo' : lo ≤ i := by omega
    by_cases hi : i < w
    · have hin : i < lo + len := by omega
      have hsub : i - lo < len := by omega
      simp [hlo, hlo', hi, hin, hsub]
    · have hout : ¬i < lo + len := by omega
      have hsub : ¬i - lo < len := by omega
      simp [hlo, hout, hsub, BitVec.getLsbD_of_ge x i (by omega)]

/-! ### A field above a small word -/

lemma getLsbD_of_toNat_lt {x : BitVec w} {lo i : Nat} (hx : x.toNat < 2 ^ lo) (hi : lo ≤ i) :
    x.getLsbD i = false := by
  rw [← BitVec.testBit_toNat]
  exact Nat.testBit_lt_two_pow (lt_of_lt_of_le hx (Nat.pow_le_pow_right (by omega) hi))

lemma shiftLeft_or_eq_add {x : BitVec w} {lo : Nat} (v : BitVec w) (hx : x.toNat < 2 ^ lo) :
    (v <<< lo) ||| x = (v <<< lo) + x := by
  refine (BitVec.add_eq_or_of_and_eq_zero _ _ ?_).symm
  apply BitVec.eq_of_getLsbD_eq
  intro i hi
  rw [BitVec.getLsbD_and, BitVec.getLsbD_shiftLeft]
  by_cases hlo : i < lo
  · simp [hlo]
  · rw [getLsbD_of_toNat_lt hx (by omega)]
    simp

lemma shiftLeft_or_eq_setField {x : BitVec w} {lo len v : Nat} (hx : x.toNat < 2 ^ lo)
    (hv : v < 2 ^ len) : (BitVec.ofNat w v <<< lo) ||| x = setField x lo len v := by
  apply BitVec.eq_of_getLsbD_eq
  intro i hi
  rw [BitVec.getLsbD_or, BitVec.getLsbD_shiftLeft, getLsbD_setField]
  by_cases hlo : i < lo
  · simp [hlo, Nat.not_le.mpr hlo]
  · have hw : i - lo < w := by omega
    rw [getLsbD_of_toNat_lt hx (by omega), BitVec.getLsbD_ofNat]
    by_cases hlen : i < lo + len
    · simp [hlo, hlen, hi, hw, Nat.le_of_not_lt hlo]
    · have hbit : v.testBit (i - lo) = false :=
        Nat.testBit_lt_two_pow (lt_of_lt_of_le hv (Nat.pow_le_pow_right (by omega) (by omega)))
      simp [hlo, hlen, hbit]

/-! ### Signed fields -/

/-- A number of which the low `len` bits are kept, read as signed. -/
lemma bmod_eq_self_iff (len : Nat) {z : Int} :
    Int.bmod z (2 ^ (len + 1)) = z ↔ -(2 ^ len : Int) ≤ z ∧ z < 2 ^ len := by
  have hp : (2 ^ (len + 1) : Nat) = 2 * 2 ^ len := by rw [pow_succ, mul_comm]
  have hcast : ((2 ^ len : Nat) : Int) = 2 ^ len := by push_cast; rfl
  constructor
  · intro h
    have hlo := Int.le_bmod (x := z) (m := 2 ^ (len + 1)) (by positivity)
    have hhi := Int.bmod_lt (x := z) (m := 2 ^ (len + 1)) (by positivity)
    rw [h, hp] at hlo hhi
    push_cast at hlo hhi
    omega
  · intro h
    apply Int.bmod_eq_of_le
    · rw [hp]
      push_cast
      omega
    · rw [hp]
      push_cast
      omega

lemma bmod_toNat_mod {len : Nat} (x : BitVec w) (h : len ≤ w) :
    Int.bmod ((x.toNat % 2 ^ len : Nat) : Int) (2 ^ len) = Int.bmod x.toInt (2 ^ len) := by
  rw [BitVec.toInt_eq_toNat_bmod, Int.bmod_bmod_of_dvd (pow_dvd_pow 2 h), Int.natCast_mod,
    Int.emod_bmod]

def getSignedField (x : BitVec w) (lo len : Nat) : Int := Int.bmod (getField x lo len) (2 ^ len)

lemma getSignedField_setField_same {x : BitVec w} {lo len : Nat} (v : Nat) (h : lo + len ≤ w) :
    getSignedField (setField x lo len v) lo len = Int.bmod v (2 ^ len) := by
  rw [getSignedField, getField_setField_same v h, Int.natCast_mod, Int.emod_bmod]

/-- A number of which the low bits are kept is still the same modulo a larger power exactly when
it is in the range of the signed field. -/
lemma bmod_emod_eq_iff (z : Int) {len k : Nat} (h : len + 1 ≤ k) :
    Int.bmod z (2 ^ (len + 1)) % ((2 ^ k : Nat) : Int) = z % ((2 ^ k : Nat) : Int) ↔
      -(2 ^ len : Int) ≤ Int.bmod z (2 ^ k) ∧ Int.bmod z (2 ^ k) < 2 ^ len := by
  have hdvd : 2 ^ (len + 1) ∣ 2 ^ k := pow_dvd_pow 2 h
  have hlow : Int.bmod (Int.bmod z (2 ^ k)) (2 ^ (len + 1)) = Int.bmod z (2 ^ (len + 1)) :=
    Int.bmod_bmod_of_dvd hdvd
  rw [← bmod_eq_self_iff len, hlow]
  constructor
  · intro hz
    have hsame : Int.bmod (Int.bmod z (2 ^ (len + 1))) (2 ^ k) = Int.bmod z (2 ^ k) := by
      rw [← Int.emod_bmod, hz, Int.emod_bmod]
    -- the signed field is small enough for the larger power to keep it
    have hrange := (bmod_eq_self_iff len (z := Int.bmod z (2 ^ (len + 1)))).mp
      (Int.bmod_bmod_of_dvd (dvd_refl _))
    have hle : (2 : Int) ^ len ≤ 2 ^ (k - 1) := pow_le_pow_right₀ (by norm_num) (by omega)
    have hk : k - 1 + 1 = k := by omega
    rw [← hsame, ← hk, (bmod_eq_self_iff (k - 1)).mpr ⟨by omega, by omega⟩]
  · intro hz
    rw [hz, Int.bmod_emod]

/-! ### Masks -/

/-- Fields written with masks: `keep` selects the other bits of `x`, `put` the field in `y`. -/
lemma mask_or_eq_setField {x y keep put : BitVec w} {lo len v : Nat}
    (hput : put = BitVec.ofNat w ((2 ^ len - 1) <<< lo)) (hkeep : keep = ~~~put)
    (hy : ∀ i < len, y.getLsbD (lo + i) = (decide (lo + i < w) && v.testBit i)) :
    (x &&& keep) ||| (y &&& put) = setField x lo len v := by
  subst hput hkeep
  apply BitVec.eq_of_getLsbD_eq
  intro i hi
  rw [getLsbD_setField]
  simp only [BitVec.getLsbD_or, BitVec.getLsbD_and, BitVec.getLsbD_not, BitVec.getLsbD_ofNat,
    Nat.testBit_shiftLeft, Nat.testBit_two_pow_sub_one, hi, decide_true, Bool.true_and]
  by_cases hin : lo ≤ i ∧ i < lo + len
  · obtain ⟨j, rfl⟩ : ∃ j, i = lo + j := ⟨i - lo, by omega⟩
    have hj : j < len := by omega
    rw [if_pos hin, hy j hj]
    simp [hj, hi]
  · rw [if_neg hin]
    have hout : (decide (i ≥ lo) && decide (i - lo < len)) = false := by
      simp only [ge_iff_le, Bool.and_eq_false_imp, decide_eq_true_eq, decide_eq_false_iff_not]
      omega
    simp [hout]

lemma and_not_of_and_eq_zero {x y : BitVec w} (h : x &&& y = 0#w) : x &&& ~~~y = x := by
  apply BitVec.eq_of_getLsbD_eq
  intro i hi
  have hbit : (x &&& y).getLsbD i = false := by simp [h]
  rw [BitVec.getLsbD_and] at hbit
  rw [BitVec.getLsbD_and, BitVec.getLsbD_not]
  cases hx : x.getLsbD i with
  | false => rfl
  | true =>
    rw [hx, Bool.true_and] at hbit
    rw [hbit, Bool.true_and, Bool.not_false, Bool.and_true]
    exact decide_eq_true hi

lemma setField_and {x keep : BitVec w} {lo len : Nat} (v : Nat)
    (h : keep &&& BitVec.ofNat w ((2 ^ len - 1) <<< lo) = 0#w) :
    setField x lo len v &&& keep = x &&& keep := by
  apply BitVec.eq_of_getLsbD_eq
  intro i hi
  have hbit : (keep &&& BitVec.ofNat w ((2 ^ len - 1) <<< lo)).getLsbD i = false := by simp [h]
  rw [BitVec.getLsbD_and, BitVec.getLsbD_and, getLsbD_setField]
  split_ifs with hin
  · have hsub : i - lo < len := by omega
    have hmask : (BitVec.ofNat w ((2 ^ len - 1) <<< lo)).getLsbD i = true := by
      rw [BitVec.getLsbD_ofNat, Nat.testBit_shiftLeft, Nat.testBit_two_pow_sub_one]
      simp [hi, hin.1, hsub]
    rw [BitVec.getLsbD_and, hmask, Bool.and_true] at hbit
    simp [hbit]
  · rfl

lemma and_eq_and_of_subset {x y keep m : BitVec w} (h : x &&& keep = y &&& keep)
    (hm : keep &&& m = m) : x &&& m = y &&& m := by
  rw [← hm, ← BitVec.and_assoc, h, BitVec.and_assoc]

@[simp] lemma and_not_and_self (x y : BitVec w) : (x &&& ~~~y) &&& y = 0#w := by
  rw [BitVec.and_assoc, BitVec.and_comm (~~~y) y]
  simp

lemma and_not_or_of_and_eq {x y : BitVec w} (h : x &&& y = y) : (x &&& ~~~y) ||| y = x := by
  apply BitVec.eq_of_getLsbD_eq
  intro i hi
  have hbit : (x &&& y).getLsbD i = y.getLsbD i := by rw [h]
  rw [BitVec.getLsbD_and] at hbit
  rw [BitVec.getLsbD_or, BitVec.getLsbD_and, BitVec.getLsbD_not, decide_eq_true hi]
  cases hx : x.getLsbD i <;> cases hy : y.getLsbD i <;> simp_all

end Dyld.Lib
