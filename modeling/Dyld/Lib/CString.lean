import Dyld.Lib.Memory

/-!
# Strings in a readable window

Byte strings laid out in memory and the C loop that visits NUL-terminated strings one after
the other. Every read goes through a `Window`, the half-open range of addresses that may be
read, so that running the same loop in a smaller window says which bytes it touches.
-/

namespace Dyld.Lib

/-- The half-open range of addresses that may be read. -/
structure Window where
  lo : Nat
  hi : Nat

/-- The `n` bytes from `a` on lie in the window. -/
def Window.Covers (W : Window) (a n : Nat) : Prop := W.lo ≤ a ∧ a + n ≤ W.hi

instance (W : Window) (a n : Nat) : Decidable (W.Covers a n) := inferInstanceAs (Decidable (_ ∧ _))

def readByte (m : Mem) (W : Window) (a : Nat) : Option UInt8 :=
  if W.Covers a 1 then some (m a) else none

def readWord (n : Nat) (m : Mem) (W : Window) (a : Nat) : Option (BitVec (8 * n)) :=
  if W.Covers a n then some (load n m a) else none

def strlen (m : Mem) (W : Window) (s : Nat) : Option Nat :=
  if W.Covers s 1 then
    if m s = 0 then some 0 else (strlen m W (s + 1)).map (· + 1)
  else none
termination_by W.hi - s
decreasing_by
  simp only [Window.Covers] at *
  omega

def forEachString {σ : Type} (m : Mem) (W : Window) (stop : Nat) (visit : σ → Nat → Option σ)
    (st : σ) (s : Nat) : Option σ :=
  if s < stop then
    (readByte m W s).bind fun c =>
      (if c = 0 then some st else visit st s).bind fun st' =>
        (strlen m W s).bind fun len => forEachString m W stop visit st' (s + len + 1)
  else some st
termination_by stop - s

/-! ### Bytes in memory -/

/-- The byte string stands in memory from `a` on. -/
def BytesAt (m : Mem) : Nat → List UInt8 → Prop
  | _, [] => True
  | a, b :: bs => m a = b ∧ BytesAt m (a + 1) bs

lemma bytesAt_append {m : Mem} {a : Nat} {xs ys : List UInt8} :
    BytesAt m a (xs ++ ys) ↔ BytesAt m a xs ∧ BytesAt m (a + xs.length) ys := by
  induction xs generalizing a with
  | nil => simp [BytesAt]
  | cons x xs ih =>
    have he : a + 1 + xs.length = a + (xs.length + 1) := by omega
    simp only [List.cons_append, BytesAt, List.length_cons, ih, he, and_assoc]

lemma bytesAt_iff {m : Mem} {a : Nat} {bs : List UInt8} :
    BytesAt m a bs ↔ ∀ i, i < bs.length → m (a + i) = bs.getD i 0 := by
  induction bs generalizing a with
  | nil => simp [BytesAt]
  | cons b bs ih =>
    rw [BytesAt, ih]
    constructor
    · rintro ⟨h0, hs⟩ i hi
      cases i with
      | zero => simpa using h0
      | succ i =>
        have hi' := hs i (by simpa using hi)
        rw [show a + (i + 1) = a + 1 + i by omega]
        simpa using hi'
    · intro h
      refine ⟨by simpa using h 0 (by simp), fun i hi => ?_⟩
      have hi' := h (i + 1) (by simpa using hi)
      rw [show a + 1 + i = a + (i + 1) by omega]
      simpa using hi'

def wordBytes (n : Nat) (v : BitVec (8 * n)) : List UInt8 :=
  (List.range n).map (fun i => UInt8.ofNat (v.toNat / 256 ^ i))

@[simp] lemma length_wordBytes (n : Nat) (v : BitVec (8 * n)) : (wordBytes n v).length = n := by
  simp [wordBytes]

lemma load_of_bytesAt {n : Nat} {m : Mem} {a : Nat} {v : BitVec (8 * n)}
    (h : BytesAt m a (wordBytes n v)) : load n m a = v := by
  apply BitVec.eq_of_toNat_eq
  rw [toNat_load, loadNat_of_bytes (v := v.toNat)]
  · have hp : (256 : Nat) ^ n = 2 ^ (8 * n) := by norm_num [pow_mul]
    rw [hp, Nat.mod_eq_of_lt v.isLt]
  · intro i hi
    rw [bytesAt_iff.mp h i (by simpa using hi)]
    simp [wordBytes, List.getD_eq_getElem?_getD, hi]

/-! ### One string -/

section Visit

variable {m : Mem} {W : Window} {s : Nat}

lemma readByte_of_covers (h : W.Covers s 1) : readByte m W s = some (m s) := if_pos h

lemma readByte_of_not_covers (h : ¬W.Covers s 1) : readByte m W s = none := if_neg h

lemma readWord_of_covers {n : Nat} (h : W.Covers s n) : readWord n m W s = some (load n m s) :=
  if_pos h

lemma strlen_of_bytesAt {p : List UInt8} (hp : ∀ b ∈ p, b ≠ 0) (h : BytesAt m s (p ++ [0]))
    (hW : W.Covers s (p.length + 1)) : strlen m W s = some p.length := by
  induction p generalizing s with
  | nil =>
    rw [strlen, if_pos (by simpa using hW), if_pos h.1]
    rfl
  | cons b p ih =>
    simp only [Window.Covers, List.length_cons] at hW
    have hb : m s ≠ 0 := by
      rw [h.1]
      exact hp b (by simp)
    have hrest := ih (fun c hc => hp c (List.mem_cons_of_mem b hc)) h.2
      (by simp only [Window.Covers]; omega)
    rw [strlen, if_pos (by simp only [Window.Covers]; omega), if_neg hb, hrest]
    rfl

variable {σ : Type} {stop : Nat} {visit : σ → Nat → Option σ} {st : σ}

lemma forEachString_done (h : stop ≤ s) : forEachString m W stop visit st s = some st := by
  rw [forEachString, if_neg (by omega)]

lemma forEachString_unreadable (hs : s < stop) (h : ¬W.Covers s 1) :
    forEachString m W stop visit st s = none := by
  rw [forEachString, if_pos hs, readByte_of_not_covers h]
  rfl

lemma forEachString_string {p : List UInt8} (hne : p ≠ []) (hp : ∀ b ∈ p, b ≠ 0)
    (h : BytesAt m s (p ++ [0])) (hW : W.Covers s (p.length + 1)) (hs : s < stop) :
    forEachString m W stop visit st s =
      (visit st s).bind (fun st' => forEachString m W stop visit st' (s + (p.length + 1))) := by
  have hlen := strlen_of_bytesAt hp h hW
  have hcover : W.Covers s 1 := by
    simp only [Window.Covers] at *
    omega
  have hfirst : m s ≠ 0 := by
    cases p with
    | nil => exact absurd rfl hne
    | cons b p =>
      rw [h.1]
      exact hp b (by simp)
  rw [forEachString, if_pos hs, readByte_of_covers hcover, hlen]
  simp only [Option.bind_some, if_neg hfirst, Nat.add_assoc]

/-- A NUL before the end is skipped alone. -/
lemma forEachString_nul (h : m s = 0) (hW : W.Covers s 1) (hs : s < stop) :
    forEachString m W stop visit st s = forEachString m W stop visit st (s + 1) := by
  have hlen : strlen m W s = some 0 := by rw [strlen, if_pos hW, if_pos h]
  rw [forEachString, if_pos hs, readByte_of_covers hW, hlen]
  simp [h]

lemma forEachString_nuls (k : Nat) (h : ∀ x, s ≤ x → x < s + k → m x = 0) (hW : W.Covers s k)
    (hs : s + k ≤ stop) :
    forEachString m W stop visit st s = forEachString m W stop visit st (s + k) := by
  induction k generalizing s with
  | zero => rfl
  | succ k ih =>
    simp only [Window.Covers] at hW
    rw [forEachString_nul (h s le_rfl (by omega)) (by simp only [Window.Covers]; omega) (by omega),
      ih (fun x h1 h2 => h x (by omega) (by omega)) (by simp only [Window.Covers]; omega) (by omega)]
    congr 1
    omega

/-- What every visit does not decrease, the loop does not decrease. -/
lemma le_of_forEachString {μ : σ → Nat} (hvisit : ∀ st s st', visit st s = some st' → μ st ≤ μ st')
    {st' : σ} (h : forEachString m W stop visit st s = some st') : μ st ≤ μ st' := by
  induction hn : stop - s using Nat.strong_induction_on generalizing s st with
  | _ n ih =>
    rw [forEachString] at h
    split at h
    · obtain ⟨c, -, h⟩ := Option.bind_eq_some_iff.mp h
      obtain ⟨st₁, hst, h⟩ := Option.bind_eq_some_iff.mp h
      obtain ⟨len, -, h⟩ := Option.bind_eq_some_iff.mp h
      have hrest := ih (stop - (s + len + 1)) (by omega) h rfl
      split at hst
      · rw [Option.some.inj hst]
        exact hrest
      · exact (hvisit st s st₁ hst).trans hrest
    · rw [Option.some.inj h]

/-- At a byte that is not NUL the visit happens, or the loop does not return. -/
lemma lt_of_forEachString {μ : σ → Nat} (hvisit : ∀ st s st', visit st s = some st' → μ st < μ st')
    (hs : s < stop) (hbyte : m s ≠ 0) {st' : σ} (h : forEachString m W stop visit st s = some st') :
    μ st < μ st' := by
  rw [forEachString, if_pos hs] at h
  obtain ⟨c, hc, h⟩ := Option.bind_eq_some_iff.mp h
  obtain ⟨st₁, hst, h⟩ := Option.bind_eq_some_iff.mp h
  obtain ⟨len, -, h⟩ := Option.bind_eq_some_iff.mp h
  have hcm : c = m s := by
    unfold readByte at hc
    split at hc
    · exact (Option.some.inj hc).symm
    · exact absurd hc (by simp)
  rw [if_neg (by rw [hcm]; exact hbyte)] at hst
  have hrest := le_of_forEachString (fun st s st' h => (hvisit st s st' h).le) h
  exact (hvisit st s st₁ hst).trans_le hrest

end Visit

end Dyld.Lib
