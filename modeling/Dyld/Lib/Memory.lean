import Mathlib

/-!
# Byte memory

Byte-addressed memory with little-endian words. A word of `n` bytes is a `BitVec (8 * n)`;
`load` and `store` move whole words, and the frame lemmas say which words and bytes a
store leaves alone.
-/

namespace Dyld.Lib

/-- Byte-addressed memory. -/
abbrev Mem := Nat → UInt8

/-- The number whose `n` little-endian bytes start at `a`. -/
def loadNat (m : Mem) (a : Nat) : Nat → Nat
  | 0 => 0
  | n + 1 => (m a).toNat + 256 * loadNat m (a + 1) n

/-- The word of `n` bytes at `a`. -/
def load (n : Nat) (m : Mem) (a : Nat) : BitVec (8 * n) :=
  BitVec.ofNat (8 * n) (loadNat m a n)

/-- Memory after the word `v` of `n` bytes is written at `a`. -/
def store (n : Nat) (m : Mem) (a : Nat) (v : BitVec (8 * n)) : Mem :=
  fun x => if a ≤ x ∧ x < a + n then UInt8.ofNat (v.toNat / 256 ^ (x - a)) else m x

/-- The words of `n` bytes at `a` and at `b` share no byte. -/
def Apart (n a b : Nat) : Prop := a + n ≤ b ∨ b + n ≤ a

def InWord (n a x : Nat) : Prop := a ≤ x ∧ x < a + n

instance (n a b : Nat) : Decidable (Apart n a b) := inferInstanceAs (Decidable (_ ∨ _))

instance (n a x : Nat) : Decidable (InWord n a x) := inferInstanceAs (Decidable (_ ∧ _))

lemma Apart.symm {n a b : Nat} (h : Apart n a b) : Apart n b a := Or.symm h

lemma Apart.not_inWord {n a b x : Nat} (h : Apart n a b) (hx : InWord n a x) : ¬InWord n b x := by
  unfold Apart InWord at *
  omega

lemma nodup_of_pairwise_apart {n : Nat} (hn : 0 < n) {l : List Nat} (h : l.Pairwise (Apart n)) :
    l.Nodup := by
  refine h.imp (fun {a b} hab => ?_)
  rintro rfl
  unfold Apart at hab
  omega

lemma apart_of_mem {n : Nat} {l : List Nat} (h : l.Pairwise (Apart n)) {a b : Nat} (ha : a ∈ l)
    (hb : b ∈ l) (hne : a ≠ b) : Apart n a b :=
  haveI : Std.Symm (Apart n) := ⟨fun _ _ => Apart.symm⟩
  h.forall ha hb hne

lemma loadNat_lt (m : Mem) (a n : Nat) : loadNat m a n < 2 ^ (8 * n) := by
  induction n generalizing a with
  | zero => simp [loadNat]
  | succ n ih =>
    have hb : (m a).toNat < 256 := (m a).toNat_lt
    have hr := ih (a + 1)
    have hp : (2 : Nat) ^ (8 * (n + 1)) = 256 * 2 ^ (8 * n) := by
      rw [Nat.mul_add, Nat.pow_add]
      omega
    rw [loadNat, hp]
    omega

lemma toNat_load (n : Nat) (m : Mem) (a : Nat) : (load n m a).toNat = loadNat m a n := by
  rw [load, BitVec.toNat_ofNat, Nat.mod_eq_of_lt (loadNat_lt m a n)]

lemma loadNat_congr {m m' : Mem} {a n : Nat} (h : ∀ x, InWord n a x → m x = m' x) :
    loadNat m a n = loadNat m' a n := by
  induction n generalizing a with
  | zero => rfl
  | succ n ih =>
    have h0 : m a = m' a := h a ⟨le_rfl, by omega⟩
    have hr : loadNat m (a + 1) n = loadNat m' (a + 1) n :=
      ih (fun x hx => h x (by unfold InWord at *; omega))
    rw [loadNat, loadNat, h0, hr]

lemma load_congr {m m' : Mem} {a n : Nat} (h : ∀ x, InWord n a x → m x = m' x) :
    load n m a = load n m' a := by
  rw [load, load, loadNat_congr h]

lemma byte_eq_of_loadNat (m : Mem) (a n i : Nat) (hi : i < n) :
    m (a + i) = UInt8.ofNat (loadNat m a n / 256 ^ i) := by
  induction n generalizing a i with
  | zero => omega
  | succ n ih =>
    have hb : (m a).toNat < 256 := (m a).toNat_lt
    cases i with
    | zero =>
      apply UInt8.toNat_inj.mp
      simp only [loadNat, Nat.add_zero, pow_zero, Nat.div_one, UInt8.toNat_ofNat']
      omega
    | succ i =>
      have hd : loadNat m a (n + 1) / 256 ^ (i + 1) = loadNat m (a + 1) n / 256 ^ i := by
        rw [loadNat, pow_succ', ← Nat.div_div_eq_div_mul]
        congr 1
        omega
      rw [hd, ← ih (a + 1) i (by omega)]
      congr 1
      omega

lemma byte_eq_of_load_eq {m m' : Mem} {a n x : Nat} (h : load n m a = load n m' a)
    (hx : InWord n a x) : m x = m' x := by
  have hn : loadNat m a n = loadNat m' a n := by
    rw [← toNat_load, ← toNat_load, h]
  obtain ⟨i, rfl⟩ : ∃ i, x = a + i := ⟨x - a, by unfold InWord at hx; omega⟩
  have hi : i < n := by unfold InWord at hx; omega
  rw [byte_eq_of_loadNat m a n i hi, byte_eq_of_loadNat m' a n i hi, hn]

lemma loadNat_of_bytes {m : Mem} {a n v : Nat}
    (h : ∀ i, i < n → (m (a + i)).toNat = v / 256 ^ i % 256) : loadNat m a n = v % 256 ^ n := by
  induction n generalizing a v with
  | zero => simp [loadNat, Nat.mod_one]
  | succ n ih =>
    have h0 : (m a).toNat = v % 256 := by simpa using h 0 (by omega)
    have hr : loadNat m (a + 1) n = (v / 256) % 256 ^ n := by
      refine ih (fun i hi => ?_)
      have hs := h (i + 1) (by omega)
      rw [pow_succ', ← Nat.div_div_eq_div_mul] at hs
      rw [← hs]
      congr 2
      omega
    rw [loadNat, h0, hr, pow_succ', Nat.mod_mul]

@[simp] lemma load_store_same (n : Nat) (m : Mem) (a : Nat) (v : BitVec (8 * n)) :
    load n (store n m a v) a = v := by
  apply BitVec.eq_of_toNat_eq
  rw [toNat_load, loadNat_of_bytes (v := v.toNat)]
  · have hp : (256 : Nat) ^ n = 2 ^ (8 * n) := by norm_num [pow_mul]
    rw [hp, Nat.mod_eq_of_lt v.isLt]
  · intro i hi
    have hin : a ≤ a + i ∧ a + i < a + n := by omega
    simp only [store, hin, and_self, if_true, UInt8.toNat_ofNat', Nat.add_sub_cancel_left]

lemma store_apply_of_not_inWord {n : Nat} {m : Mem} {a x : Nat} {v : BitVec (8 * n)}
    (h : ¬InWord n a x) : store n m a v x = m x := if_neg h

lemma load_store_apart {n : Nat} {m : Mem} {a b : Nat} {v : BitVec (8 * n)} (h : Apart n a b) :
    load n (store n m a v) b = load n m b :=
  load_congr (fun _ hx => store_apply_of_not_inWord (h.symm.not_inWord hx))

/-! ### Words as numbers -/

/-- Memory after the low `n` bytes of the number `v` are written at `a`. -/
def storeNat (n : Nat) (m : Mem) (a v : Nat) : Mem := store n m a (BitVec.ofNat (8 * n) v)

lemma loadNat_storeNat_same (n : Nat) (m : Mem) (a v : Nat) :
    loadNat (storeNat n m a v) a n = v % 2 ^ (8 * n) := by
  rw [← toNat_load, storeNat, load_store_same, BitVec.toNat_ofNat]

lemma storeNat_apply_of_not_inWord {n : Nat} {m : Mem} {a v x : Nat} (h : ¬InWord n a x) :
    storeNat n m a v x = m x :=
  store_apply_of_not_inWord h

/-- A number behind or before the one written is left alone. -/
lemma loadNat_storeNat_of_disjoint {n k : Nat} {m : Mem} {a b v : Nat}
    (h : a + n ≤ b ∨ b + k ≤ a) : loadNat (storeNat n m a v) b k = loadNat m b k := by
  apply loadNat_congr
  intro x hx
  apply storeNat_apply_of_not_inWord
  unfold InWord at *
  omega

end Dyld.Lib
