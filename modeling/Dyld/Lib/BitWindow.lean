import Mathlib

/-!
# Windows of bits

The number made of the bits of a natural number in a window, and how windows nest, join and
overlap: what a mask after a shift reads, and what an `or` of shifted numbers puts together.
-/

namespace Dyld.Lib

/-- The number of the bits of `x` from bit `lo` on, for `len` bits. -/
def window (x lo len : Nat) : Nat := x / 2 ^ lo % 2 ^ len

variable {x lo len a b v w m n k : Nat}

lemma window_lt (x lo len : Nat) : window x lo len < 2 ^ len := Nat.mod_lt _ (Nat.two_pow_pos len)

lemma shiftRight_and_mask (x lo len : Nat) : (x >>> lo) &&& (2 ^ len - 1) = window x lo len := by
  rw [Nat.and_two_pow_sub_one_eq_mod, Nat.shiftRight_eq_div_pow, window]

lemma window_window (h : m + n ≤ k) : window (window x lo k) m n = window x (lo + m) n := by
  unfold window
  rw [Nat.pow_add, ← Nat.div_div_eq_div_mul]
  generalize x / 2 ^ lo = y
  obtain ⟨r, rfl⟩ := Nat.exists_eq_add_of_le h
  have hk : 2 ^ (m + n + r) = 2 ^ m * 2 ^ (n + r) := by rw [← Nat.pow_add, Nat.add_assoc]
  rw [hk, Nat.mod_mul_right_div_self, Nat.mod_mod_of_dvd]
  exact pow_dvd_pow 2 (Nat.le_add_right n r)

/-- A window is its high part above its low part. -/
lemma window_add (x lo m n : Nat) :
    window x lo (m + n) = window x (lo + m) n * 2 ^ m + window x lo m := by
  unfold window
  rw [Nat.pow_add 2 lo, ← Nat.div_div_eq_div_mul]
  generalize x / 2 ^ lo = y
  rw [Nat.pow_add, Nat.mod_mul, Nat.mul_comm]
  omega

/-- Numbers put together from a high and a low part have the same parts when they are equal. -/
lemma mul_add_inj (hb : b < 2 ^ m) (hw : w < 2 ^ m) :
    a * 2 ^ m + b = v * 2 ^ m + w ↔ a = v ∧ b = w := by
  constructor
  · intro h
    have hdiv := congrArg (· / 2 ^ m) h
    have hmod := congrArg (· % 2 ^ m) h
    simp only [Nat.mul_comm _ (2 ^ m), Nat.mul_add_div (Nat.two_pow_pos m), Nat.mul_add_mod,
      Nat.div_eq_of_lt hb, Nat.div_eq_of_lt hw, Nat.mod_eq_of_lt hb, Nat.mod_eq_of_lt hw,
      Nat.add_zero] at hdiv hmod
    exact ⟨hdiv, hmod⟩
  · rintro ⟨rfl, rfl⟩
    rfl

lemma shiftLeft_or (hb : b < 2 ^ m) : (a <<< m) ||| b = a * 2 ^ m + b := by
  rw [← Nat.shiftLeft_add_eq_or_of_lt hb, Nat.shiftLeft_eq]

lemma mul_add_lt (ha : a < 2 ^ n) (hb : b < 2 ^ m) : a * 2 ^ m + b < 2 ^ (m + n) := by
  rw [Nat.pow_add]
  have h := Nat.mul_le_mul_left (2 ^ m) (Nat.succ_le_of_lt ha)
  rw [Nat.mul_succ, Nat.mul_comm] at h
  omega

/-- Where the high part of the low number agrees with the low part of the high number, an `or`
joins the two. -/
lemma shiftLeft_or_of_agree (h : b / 2 ^ m = a % 2 ^ n) :
    (a <<< m) ||| b = a * 2 ^ m + b % 2 ^ m := by
  rw [← shiftLeft_or (Nat.mod_lt b (Nat.two_pow_pos m))]
  apply Nat.eq_of_testBit_eq
  intro i
  rw [Nat.testBit_or, Nat.testBit_or, Nat.testBit_shiftLeft, Nat.testBit_mod_two_pow]
  by_cases hi : i < m
  · simp [hi]
  · have hbit : b.testBit i = (decide (i - m < n) && a.testBit (i - m)) := by
      have hdiv := congrArg (fun y => y.testBit (i - m)) h
      simp only [Nat.testBit_div_two_pow, Nat.testBit_mod_two_pow] at hdiv
      rw [Nat.sub_add_cancel (Nat.le_of_not_lt hi)] at hdiv
      exact hdiv
    rw [hbit]
    cases a.testBit (i - m) <;> simp [hi, Nat.le_of_not_lt hi]

lemma testBit_shifted_mask (k s i : Nat) :
    ((2 ^ k - 1) <<< s).testBit i = decide (s ≤ i ∧ i < s + k) := by
  rw [Nat.testBit_shiftLeft, Nat.testBit_two_pow_sub_one]
  by_cases hs : s ≤ i
  · have hk : i - s < k ↔ i < s + k := by omega
    simp [hs, hk]
  · simp [hs]

end Dyld.Lib
