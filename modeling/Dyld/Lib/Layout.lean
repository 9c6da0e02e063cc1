import Mathlib

/-!
# Offsets of items whose sizes depend on them

Items are laid out one behind the other, and the size of an item depends on the offsets of items behind
it. Passes over all items are made until no offset changes. Sizes grow with the offsets, so the passes
stay below any layout that is consistent, and settle.
-/

namespace Dyld.Lib

structure Pass where
  table : Nat → Nat
  offset : Nat
  more : Bool

namespace Layout

variable (modulus : Nat) (size : Nat → (Nat → Nat) → Nat)

/-- An item gets its offset. Offsets are kept modulo `modulus`. -/
def assign (p : Pass) (i : Nat) : Pass where
  table := Function.update p.table i p.offset
  offset := (p.offset + size i p.table) % modulus
  more := p.more || p.table i ≠ p.offset

def pass (n : Nat) (table : Nat → Nat) : Pass :=
  (List.range n).foldl (assign modulus size) ⟨table, 0, false⟩

def settle (n : Nat) : Nat → (Nat → Nat) → Option (Nat → Nat)
  | 0, _ => none
  | fuel + 1, table =>
    let p := pass modulus size n table
    if p.more then settle n fuel p.table else some p.table

/-- The sizes of the items in front. -/
def position (o : Nat → Nat) (i : Nat) : Nat := ∑ j ∈ Finset.range i, size j o

/-- Every item is where the items in front of it end. -/
def Consistent (n : Nat) (o : Nat → Nat) : Prop := ∀ i < n, o i = position size o i

variable {modulus size} {n : Nat} {o o' : Nat → Nat}

lemma position_succ (o : Nat → Nat) (i : Nat) :
    position size o (i + 1) = position size o i + size i o := Finset.sum_range_succ _ _

lemma position_le_position {i j : Nat} (h : i ≤ j) : position size o i ≤ position size o j :=
  Finset.sum_le_sum_of_subset (Finset.range_mono h)

/-- Offsets rise where no item is empty. -/
lemma Consistent.lt (h : Consistent size n o) (hpos : ∀ i < n, 0 < size i o) {i j : Nat} (hij : i < j)
    (hj : j < n) : o i < o j := by
  have hnext : position size o (i + 1) ≤ position size o j := position_le_position hij
  have hsize := hpos i (hij.trans hj)
  rw [position_succ] at hnext
  rw [h i (hij.trans hj), h j hj]
  omega

/-- More passes than are needed make no difference. -/
lemma settle_of_le {fuel fuel' : Nat} (h : fuel ≤ fuel') (hsettle : settle modulus size n fuel o = some o') :
    settle modulus size n fuel' o = some o' := by
  induction fuel generalizing fuel' o with
  | zero => simp [settle] at hsettle
  | succ fuel ih =>
    obtain ⟨fuel', rfl⟩ : ∃ k, fuel' = k + 1 := ⟨fuel' - 1, by omega⟩
    rw [settle] at hsettle ⊢
    split at hsettle
    · rename_i hmore
      rw [if_pos hmore]
      exact ih (by omega) hsettle
    · rename_i hmore
      rw [if_neg hmore]
      exact hsettle

/-- Sizes depend on offsets further behind only. -/
def Forward (size : Nat → (Nat → Nat) → Nat) : Prop :=
  ∀ i o o', (∀ j, i < j → o j = o' j) → size i o = size i o'

def Grows (size : Nat → (Nat → Nat) → Nat) : Prop :=
  ∀ i o o', (∀ j, o j ≤ o' j) → size i o ≤ size i o'

lemma Grows.position_le (h : Grows size) (hle : ∀ j, o j ≤ o' j) (i : Nat) :
    position size o i ≤ position size o' i :=
  Finset.sum_le_sum (fun j _ => h j o o' hle)

lemma foldl_assign (hforward : Forward size) {i : Nat} (hfits : position size o i < modulus) :
    (List.range i).foldl (assign modulus size) ⟨o, 0, false⟩ =
      { table := fun j => if j < i then position size o j else o j
        offset := position size o i
        more := decide (∃ j < i, o j ≠ position size o j) } := by
  induction i with
  | zero => simp [position]
  | succ i ih =>
    rw [position_succ] at hfits
    have hsize : size i (fun j => if j < i then position size o j else o j) = size i o := by
      apply hforward
      intro j hj
      rw [if_neg (by omega)]
    rw [List.range_succ, List.foldl_concat, ih (by omega), assign]
    simp only [hsize, position_succ, Nat.mod_eq_of_lt hfits, lt_irrefl, if_false]
    congr 1
    · funext j
      by_cases hj : j = i
      · simp [hj]
      · rw [Function.update_of_ne hj]
        exact if_congr (by omega) rfl rfl
    · rw [← Bool.decide_or, decide_eq_decide]
      constructor
      · intro h
        cases h with
        | inl h =>
          obtain ⟨j, hj, hne⟩ := h
          exact ⟨j, by omega, hne⟩
        | inr h => exact ⟨i, i.lt_succ_self, by simpa using h⟩
      · rintro ⟨j, hj, hne⟩
        by_cases hsame : j = i
        · exact Or.inr (by simpa [hsame] using hne)
        · exact Or.inl ⟨j, by omega, hne⟩

theorem exists_settle (hforward : Forward size) (hgrows : Grows size) {L : Nat → Nat}
    (hL : Consistent size n L) (hfits : position size L n < modulus) (hle : ∀ j, o j ≤ L j)
    (hup : ∀ i < n, o i ≤ position size o i) :
    ∃ o', Consistent size n o' ∧ (∀ j, o' j ≤ L j) ∧
      ∃ k, ∀ fuel, k ≤ fuel → settle modulus size n fuel o = some o' := by
  induction hm : ∑ i ∈ Finset.range n, (L i - o i) using Nat.strong_induction_on generalizing o with
  | _ m ih =>
    have hpass : pass modulus size n o = _ :=
      foldl_assign hforward ((hgrows.position_le hle n).trans_lt hfits)
    by_cases hmore : ∃ j < n, o j ≠ position size o j
    · let next := fun j => if j < n then position size o j else o j
      have hnext : ∀ j, o j ≤ next j := by
        intro j
        by_cases hj : j < n
        · simp only [next, if_pos hj]
          exact hup j hj
        · simp only [next, if_neg hj, le_refl]
      have hbelow : ∀ j, next j ≤ L j := by
        intro j
        by_cases hj : j < n
        · simp only [next, if_pos hj]
          rw [hL j hj]
          exact hgrows.position_le hle j
        · simp only [next, if_neg hj]
          exact hle j
      have hrises : ∀ i < n, next i ≤ position size next i := by
        intro i hi
        simp only [next, if_pos hi]
        exact hgrows.position_le hnext i
      -- what is missing to the layout gets less
      have hless : ∑ i ∈ Finset.range n, (L i - next i) < m := by
        rw [← hm]
        obtain ⟨j, hj, hne⟩ := hmore
        apply Finset.sum_lt_sum
        · intro i _
          exact Nat.sub_le_sub_left (hnext i) (L i)
        · refine ⟨j, Finset.mem_range.mpr hj, ?_⟩
          have hlt : o j < next j := by
            simp only [next, if_pos hj]
            exact lt_of_le_of_ne (hup j hj) hne
          have hbelow := hbelow j
          omega
      obtain ⟨o', hconsistent, hle', k, hk⟩ := ih _ hless hbelow hrises rfl
      refine ⟨o', hconsistent, hle', k + 1, fun fuel hfuel => ?_⟩
      cases fuel with
      | zero => omega
      | succ fuel =>
        rw [settle, hpass]
        simp only [hmore, decide_true, if_true]
        exact hk fuel (by omega)
    · have hsame : ∀ j < n, o j = position size o j := by
        intro j hj
        by_contra hne
        exact hmore ⟨j, hj, hne⟩
      have htable : (fun j => if j < n then position size o j else o j) = o := by
        funext j
        by_cases hj : j < n
        · rw [if_pos hj, hsame j hj]
        · rw [if_neg hj]
      refine ⟨o, hsame, hle, 1, fun fuel hfuel => ?_⟩
      cases fuel with
      | zero => omega
      | succ fuel =>
        rw [settle, hpass]
        simp only [hmore, decide_false, Bool.false_eq_true, if_false, htable]

/-! ### All passes -/

variable (modulus size) in
/-- The offsets after a number of passes. -/
def after (n : Nat) (o : Nat → Nat) : Nat → Nat → Nat
  | 0 => o
  | k + 1 => (pass modulus size n (after n o k)).table

variable (modulus size) in
/-- In no pass the items take as much as the modulus. -/
def StaysBelow (n : Nat) (o : Nat → Nat) : Prop := ∀ k, position size (after modulus size n o k) n < modulus

lemma after_pass (n : Nat) (o : Nat → Nat) (k : Nat) :
    after modulus size n (pass modulus size n o).table k = after modulus size n o (k + 1) := by
  induction k with
  | zero => rfl
  | succ k ih => rw [after, ih, ← after]

lemma exists_after_of_settle {fuel : Nat} (h : settle modulus size n fuel o = some o') :
    ∃ k, o' = after modulus size n o k := by
  induction fuel generalizing o with
  | zero => cases h
  | succ fuel ih =>
    unfold settle at h
    dsimp only at h
    split_ifs at h
    · obtain ⟨k, hk⟩ := ih h
      exact ⟨k + 1, hk.trans (after_pass n o k)⟩
    · cases h
      exact ⟨1, rfl⟩

section Passes

variable (hforward : Forward size) (hgrows : Grows size) (hup : ∀ i < n, o i ≤ position size o i)
  (hbelow : StaysBelow modulus size n o)

include hforward hbelow

lemma after_succ (k j : Nat) : after modulus size n o (k + 1) j =
    if j < n then position size (after modulus size n o k) j else after modulus size n o k j := by
  rw [after, pass, foldl_assign hforward (hbelow k)]

include hgrows hup

lemma after_le_position (k : Nat) :
    (∀ i < n, after modulus size n o k i ≤ position size (after modulus size n o k) i) ∧
      ∀ j, after modulus size n o k j ≤ after modulus size n o (k + 1) j := by
  induction k with
  | zero =>
    refine ⟨hup, fun j => ?_⟩
    rw [after_succ hforward hbelow]
    split_ifs with hj
    · exact hup j hj
    · exact le_rfl
  | succ k ih =>
    have hrises : ∀ i < n,
        after modulus size n o (k + 1) i ≤ position size (after modulus size n o (k + 1)) i := by
      intro i hi
      rw [after_succ hforward hbelow, if_pos hi]
      exact hgrows.position_le ih.2 i
    refine ⟨hrises, fun j => ?_⟩
    rw [after_succ hforward hbelow (k + 1)]
    split_ifs with hj
    · exact hrises j hj
    · exact le_rfl

/-- No offset gets less from one pass to the next. -/
lemma after_le_succ (k j : Nat) : after modulus size n o k j ≤ after modulus size n o (k + 1) j :=
  (after_le_position hforward hgrows hup hbelow k).2 j

/-- A pass that changes nothing is reached. -/
lemma exists_after_eq : ∃ k, after modulus size n o (k + 1) = after modulus size n o k := by
  by_contra hchanges
  push Not at hchanges
  -- otherwise the sum of the offsets rises with every pass, and it is bounded
  have hmono : StrictMono fun k => ∑ i ∈ Finset.range n, after modulus size n o k i := by
    apply strictMono_nat_of_lt_succ
    intro k
    have hle := after_le_succ hforward hgrows hup hbelow k
    obtain ⟨j, hj⟩ := Function.ne_iff.mp (hchanges k)
    have hjn : j < n := by
      by_contra hjn
      rw [after_succ hforward hbelow, if_neg hjn] at hj
      exact hj rfl
    exact Finset.sum_lt_sum (fun i _ => hle i)
      ⟨j, Finset.mem_range.mpr hjn, lt_of_le_of_ne (hle j) (Ne.symm hj)⟩
  have hbound : ∀ k, ∑ i ∈ Finset.range n, after modulus size n o k i ≤ n * modulus := by
    intro k
    have hlt : ∀ i ∈ Finset.range n, after modulus size n o k i ≤ modulus := by
      intro i hi
      have hi := Finset.mem_range.mp hi
      calc after modulus size n o k i ≤ position size (after modulus size n o k) i :=
            (after_le_position hforward hgrows hup hbelow k).1 i hi
        _ ≤ position size (after modulus size n o k) n := position_le_position hi.le
        _ ≤ modulus := (hbelow k).le
    calc ∑ i ∈ Finset.range n, after modulus size n o k i ≤ ∑ _i ∈ Finset.range n, modulus :=
          Finset.sum_le_sum hlt
      _ = n * modulus := by rw [Finset.sum_const, Finset.card_range, smul_eq_mul]
  have hlast := (hmono.le_apply (x := n * modulus + 1)).trans (hbound (n * modulus + 1))
  omega

theorem exists_settle_of_staysBelow : ∃ o' k, settle modulus size n k o = some o' ∧ Consistent size n o' := by
  obtain ⟨k, hk⟩ := exists_after_eq hforward hgrows hup hbelow
  have hconsistent : Consistent size n (after modulus size n o k) := by
    intro i hi
    rw [← congrFun hk i, after_succ hforward hbelow, if_pos hi]
  have hle : ∀ m j, o j ≤ after modulus size n o m j := by
    intro m j
    induction m with
    | zero => exact le_rfl
    | succ m ih => exact ih.trans (after_le_succ hforward hgrows hup hbelow m j)
  obtain ⟨o', ho', -, fuel, hfuel⟩ := exists_settle hforward hgrows hconsistent (hbelow k) (hle k) hup
  exact ⟨o', fuel, hfuel fuel le_rfl, ho'⟩

end Passes

lemma staysBelow_of_consistent (hforward : Forward size) (hgrows : Grows size) {L : Nat → Nat}
    (hL : Consistent size n L) (hfits : position size L n < modulus) (hle : ∀ j, o j ≤ L j) :
    StaysBelow modulus size n o := by
  have hbelow : ∀ k j, after modulus size n o k j ≤ L j := by
    intro k
    induction k with
    | zero => exact hle
    | succ k ih =>
      intro j
      rw [after, pass, foldl_assign hforward ((hgrows.position_le ih n).trans_lt hfits)]
      dsimp only
      split_ifs with hj
      · rw [hL j hj]
        exact hgrows.position_le ih j
      · exact ih j
  intro k
  exact (hgrows.position_le (hbelow k) n).trans_lt hfits

end Layout

end Dyld.Lib
