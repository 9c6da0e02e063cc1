import Mathlib

/-!
# Bubble sort

The two loops that sort an array by a key: pass `i` compares neighbours up to `i` entries before the
end and moves the largest entry there.
-/

namespace Dyld.Lib

section BubbleSort

variable {α κ : Type*} [LinearOrder κ] (key : α → κ)

/-- The inner loop, with `m` comparisons. -/
def bubblePass : Nat → List α → List α
  | m + 1, a :: b :: l =>
    if key b < key a then b :: bubblePass m (a :: l) else a :: bubblePass m (b :: l)
  | _, l => l

def bubblePasses (k : Nat) (l : List α) : List α :=
  (List.range k).foldl (fun acc i => bubblePass key (l.length - i - 1) acc) l

def bubbleSort (l : List α) : List α := bubblePasses key (l.length - 1) l

variable {key}

@[simp] lemma bubblePass_zero (l : List α) : bubblePass key 0 l = l := by
  rw [bubblePass]
  rintro m a b l h
  cases h

lemma bubblePass_perm (m : Nat) (l : List α) : (bubblePass key m l).Perm l := by
  induction m generalizing l with
  | zero => rw [bubblePass_zero]
  | succ m ih =>
    match l with
    | [] => rfl
    | [a] => rfl
    | a :: b :: l =>
      rw [bubblePass]
      split_ifs
      · exact ((ih (a :: l)).cons b).trans (List.Perm.swap a b l)
      · exact (ih (b :: l)).cons a

/-- A pass leaves what is behind its last comparison alone. -/
lemma bubblePass_append {m : Nat} {xs : List α} (hm : m < xs.length) (ys : List α) :
    bubblePass key m (xs ++ ys) = bubblePass key m xs ++ ys := by
  induction m generalizing xs with
  | zero => rw [bubblePass_zero, bubblePass_zero]
  | succ m ih =>
    match xs with
    | [] => cases hm
    | [a] =>
      simp only [List.length_singleton] at hm
      omega
    | a :: b :: l =>
      have hlt : m < l.length + 1 := by
        simp only [List.length_cons] at hm
        omega
      have ha := @ih (a :: l) hlt
      have hb := @ih (b :: l) hlt
      rw [List.cons_append, List.cons_append, bubblePass, bubblePass]
      split_ifs
      · rw [List.cons_append, ← ha, List.cons_append]
      · rw [List.cons_append, ← hb, List.cons_append]

lemma bubblePass_largest {m : Nat} {xs : List α} (hm : xs.length = m + 1) :
    ∃ front last, bubblePass key m xs = front ++ [last] ∧ ∀ a ∈ front, key a ≤ key last := by
  induction m generalizing xs with
  | zero =>
    obtain ⟨a, rfl⟩ := List.length_eq_one_iff.mp hm
    exact ⟨[], a, rfl, by simp⟩
  | succ m ih =>
    match xs with
    | [] => cases hm
    | [a] =>
      simp only [List.length_singleton] at hm
      omega
    | a :: b :: l =>
      have hlength : l.length + 1 = m + 1 := by
        simp only [List.length_cons] at hm
        omega
      rw [bubblePass]
      split_ifs with hlt
      · obtain ⟨front, last, heq, hmax⟩ := @ih (a :: l) hlength
        refine ⟨b :: front, last, by rw [heq]; rfl, ?_⟩
        intro c hc
        rw [List.mem_cons] at hc
        rcases hc with rfl | hc
        · have ha : a ∈ front ++ [last] := heq ▸ (bubblePass_perm m (a :: l)).mem_iff.mpr (by simp)
          rw [List.mem_append, List.mem_singleton] at ha
          rcases ha with ha | rfl
          · exact hlt.le.trans (hmax a ha)
          · exact hlt.le
        · exact hmax c hc
      · obtain ⟨front, last, heq, hmax⟩ := @ih (b :: l) hlength
        refine ⟨a :: front, last, by rw [heq]; rfl, ?_⟩
        intro c hc
        rw [List.mem_cons] at hc
        rcases hc with rfl | hc
        · have hb : b ∈ front ++ [last] := heq ▸ (bubblePass_perm m (b :: l)).mem_iff.mpr (by simp)
          rw [List.mem_append, List.mem_singleton] at hb
          rcases hb with hb | rfl
          · exact (not_lt.mp hlt).trans (hmax b hb)
          · exact not_lt.mp hlt
        · exact hmax c hc

lemma bubblePasses_spec {l : List α} {k : Nat} (hk : k < l.length) :
    ∃ front back, bubblePasses key k l = front ++ back ∧ back.length = k ∧
      (front ++ back).Perm l ∧ back.Pairwise (fun a b => key a ≤ key b) ∧
      ∀ a ∈ front, ∀ b ∈ back, key a ≤ key b := by
  induction k with
  | zero => exact ⟨l, [], by simp [bubblePasses], rfl, by simp, List.Pairwise.nil, by simp⟩
  | succ k ih =>
    obtain ⟨front, back, heq, hlength, hperm, hsorted, hle⟩ := ih (by omega)
    have htotal := hperm.length_eq
    rw [List.length_append, hlength] at htotal
    obtain ⟨front', last, hpass, hmax⟩ := @bubblePass_largest _ _ _ key (l.length - k - 1) front
      (by omega)
    have hfront := @bubblePass_perm _ _ _ key (l.length - k - 1) front
    rw [hpass] at hfront
    have hstep : bubblePasses key (k + 1) l = front' ++ last :: back := by
      have hrange : bubblePasses key (k + 1) l =
          bubblePass key (l.length - k - 1) (bubblePasses key k l) := by
        unfold bubblePasses
        rw [List.range_succ, List.foldl_append, List.foldl_cons, List.foldl_nil]
      rw [hrange, heq, bubblePass_append (by omega), hpass, List.append_assoc]
      rfl
    refine ⟨front', last :: back, hstep, by rw [List.length_cons, hlength], ?_, ?_, ?_⟩
    · apply List.Perm.trans _ hperm
      have happend := hfront.append_right back
      rwa [List.append_assoc] at happend
    · rw [List.pairwise_cons]
      refine ⟨fun b hb => hle last (hfront.mem_iff.mp (by simp)) b hb, hsorted⟩
    · intro a ha b hb
      rw [List.mem_cons] at hb
      rcases hb with rfl | hb
      · exact hmax a ha
      · exact hle a (hfront.mem_iff.mp (List.mem_append_left _ ha)) b hb

theorem bubbleSort_perm (l : List α) : (bubbleSort key l).Perm l := by
  cases l with
  | nil => rfl
  | cons a l =>
    obtain ⟨front, back, heq, -, hperm, -⟩ := @bubblePasses_spec _ _ _ key (a :: l)
      ((a :: l).length - 1) (by simp)
    rw [bubbleSort, heq]
    exact hperm

theorem bubbleSort_sorted (l : List α) :
    (bubbleSort key l).Pairwise (fun a b => key a ≤ key b) := by
  cases l with
  | nil => exact List.Pairwise.nil
  | cons a l =>
    obtain ⟨front, back, heq, hlength, hperm, hsorted, hle⟩ := @bubblePasses_spec _ _ _ key (a :: l)
      ((a :: l).length - 1) (by simp)
    have htotal := hperm.length_eq
    rw [List.length_append, hlength] at htotal
    have hone : front.length = 1 := by
      simp only [List.length_cons] at htotal
      omega
    obtain ⟨first, rfl⟩ := List.length_eq_one_iff.mp hone
    rw [bubbleSort, heq, List.singleton_append, List.pairwise_cons]
    exact ⟨fun b hb => hle first (by simp) b hb, hsorted⟩

end BubbleSort

end Dyld.Lib
