import Mathlib

/-!
# Placing keyed items

Items are placed one after the other, each in a region of points that its key and its place give.
Some keys have a place of their own, the others take points that are still free. The regions stay
apart whatever the order of the keys is.
-/

namespace Dyld.Lib

variable {κ P X : Type} {region : κ → P → Set X}

/-- Regions of two tables that belong to different keys have no common point. -/
def TablesApart (region : κ → P → Set X) (T U : κ → Option P) : Prop :=
  ∀ j k p q, j ≠ k → T j = some p → U k = some q → Disjoint (region j p) (region k q)

lemma TablesApart.symm {T U : κ → Option P} (h : TablesApart region T U) : TablesApart region U T :=
  fun j k p q hne hj hk => (h k j q p hne.symm hk hj).symm

lemma TablesApart.update_left [DecidableEq κ] {T U : κ → Option P} (h : TablesApart region T U) {i : κ} {r : P}
    (hi : ∀ k q, i ≠ k → U k = some q → Disjoint (region i r) (region k q)) :
    TablesApart region (Function.update T i (some r)) U := by
  intro j k p q hne hj hk
  by_cases hji : j = i
  · subst hji
    rw [Function.update_self] at hj
    cases hj
    exact hi k q hne hk
  · rw [Function.update_of_ne hji] at hj
    exact h j k p q hne hj hk

structure Placement (region : κ → P → Set X) (fixed table : κ → Option P) (free : Set X) : Prop where
  fixed_apart : TablesApart region fixed fixed
  fixed_free : ∀ k p, fixed k = some p → Disjoint (region k p) free
  apart : TablesApart region table table
  apart_fixed : TablesApart region table fixed
  table_free : ∀ k p, table k = some p → Disjoint (region k p) free

section Steps

variable {fixed table : κ → Option P} {free free' : Set X}

lemma Placement.empty (hfixed : TablesApart region fixed fixed)
    (hfree : ∀ k p, fixed k = some p → Disjoint (region k p) free) :
    Placement region fixed (fun _ => none) free where
  fixed_apart := hfixed
  fixed_free := hfree
  apart := fun _ _ _ _ _ hj => nomatch hj
  apart_fixed := fun _ _ _ _ _ hj => nomatch hj
  table_free := fun _ _ hk => nomatch hk

variable [DecidableEq κ] {i : κ} {r : P}

lemma Placement.takeFixed (h : Placement region fixed table free) (hi : fixed i = some r) :
    Placement region fixed (Function.update table i (some r)) free where
  fixed_apart := h.fixed_apart
  fixed_free := h.fixed_free
  apart := by
    apply TablesApart.update_left
    · apply TablesApart.symm
      apply h.apart.update_left
      intro k q hne hk
      exact (h.apart_fixed k i q r hne.symm hk hi).symm
    · intro k q hne hk
      rw [Function.update_of_ne hne.symm] at hk
      exact (h.apart_fixed k i q r hne.symm hk hi).symm
  apart_fixed := h.apart_fixed.update_left fun k q hne hk => h.fixed_apart i k r q hne hi hk
  table_free := by
    intro k p hk
    by_cases hki : k = i
    · subst hki
      rw [Function.update_self] at hk
      cases hk
      exact h.fixed_free k r hi
    · rw [Function.update_of_ne hki] at hk
      exact h.table_free k p hk

/-- A key without one takes free points, which are free no more. -/
lemma Placement.allocate (h : Placement region fixed table free) (hi : fixed i = none)
    (htaken : region i r ⊆ free) (hless : free' ⊆ free) (hgone : Disjoint (region i r) free') :
    Placement region fixed (Function.update table i (some r)) free' where
  fixed_apart := h.fixed_apart
  fixed_free := fun k p hk => (h.fixed_free k p hk).mono_right hless
  apart := by
    apply TablesApart.update_left
    · apply TablesApart.symm
      apply h.apart.update_left
      intro k q _ hk
      exact ((h.table_free k q hk).mono_right htaken).symm
    · intro k q hne hk
      rw [Function.update_of_ne hne.symm] at hk
      exact ((h.table_free k q hk).mono_right htaken).symm
  apart_fixed := h.apart_fixed.update_left fun k q _ hk => ((h.fixed_free k q hk).mono_right htaken).symm
  table_free := by
    intro k p hk
    by_cases hki : k = i
    · subst hki
      rw [Function.update_self] at hk
      cases hk
      exact hgone
    · rw [Function.update_of_ne hki] at hk
      exact (h.table_free k p hk).mono_right hless

end Steps

end Dyld.Lib
