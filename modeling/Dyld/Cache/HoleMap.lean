import Dyld.Lib.Placement

/-!
# Holes between selectors

The selectors of the IMP caches leave holes between the addresses chosen for them. `HoleMap` gives
other strings room in the smallest hole that fits, or behind all selectors.
-/

namespace Dyld.Cache

open Lib

/-! ### Integers -/

/-- Conversion to `int`. -/
def intOf (x : Int) : Int := x.bmod (2 ^ 32)

/-- Conversion to `uint32_t`. -/
def uint32Of (x : Int) : Nat := (x % 2 ^ 32).toNat

lemma uint32Of_intOf (x : Int) : uint32Of (intOf x) = uint32Of x := by
  simp only [uint32Of, intOf, Nat.cast_ofNat, Int.reducePow, Nat.reducePow, Int.bmod_def]
  split_ifs <;> omega

lemma uint32Of_natCast {n : Nat} (hn : n < 2 ^ 32) : uint32Of n = n := by
  unfold uint32Of
  omega

lemma uint32Of_add {x : Int} {n : Nat} (h : uint32Of x + n < 2 ^ 32) :
    uint32Of (x + n) = uint32Of x + n := by
  unfold uint32Of at *
  omega

lemma intOf_eq {x : Int} (hlow : 0 ≤ x) (hhigh : x < 2 ^ 31) : intOf x = x := by
  unfold intOf
  apply Int.bmod_eq_of_le <;> omega

/-! ### Holes -/

/-- A range of addresses that no selector of the IMP caches takes. -/
structure Hole where
  startAddress : Int
  endAddress : Int
  deriving DecidableEq, Repr

def Hole.size (h : Hole) : Int := h.endAddress - h.startAddress

def Hole.key (h : Hole) : Lex (Int × Int) := toLex (h.size, h.startAddress)

lemma Hole.key_injective : Function.Injective Hole.key := by
  rintro ⟨a, b⟩ ⟨c, d⟩ h
  have hpair : (b - a, a) = (d - c, c) := toLex.injective h
  rw [Prod.mk.injEq] at hpair
  obtain ⟨hsize, rfl⟩ := hpair
  rw [sub_left_inj] at hsize
  rw [hsize]

instance : LinearOrder Hole := LinearOrder.lift' Hole.key Hole.key_injective

structure HoleMap where
  endAddress : Int
  holes : Finset Hole
  deriving DecidableEq

def HoleMap.lowerBound (m : HoleMap) (needed : Hole) : Option Hole :=
  let fit := m.holes.filter (needed ≤ ·)
  if h : fit.Nonempty then some (fit.min' h) else none

def HoleMap.addStringOfSize (m : HoleMap) (size : Nat) : Int × HoleMap :=
  let neededHole : Hole := ⟨0, intOf size⟩
  match m.lowerBound neededHole with
  | none => (m.endAddress, { m with endAddress := intOf (m.endAddress + size) })
  | some it =>
    let updatedHole : Hole := { it with startAddress := intOf (it.startAddress + size) }
    let holes := m.holes.erase it
    -- a hole of one byte would only take the empty string
    (it.startAddress, { m with holes := if 1 < updatedHole.size then insert updatedHole holes else holes })

/-! ### Free addresses -/

def bytesAt (str : List UInt8) (offset : Nat) : Set Nat := Set.Ico offset (offset + (str.length + 1))

namespace HoleMap

/-- The addresses that the next strings may get. -/
def free (m : HoleMap) : Set Nat :=
  {x | uint32Of m.endAddress ≤ x ∨ ∃ h ∈ m.holes, h.startAddress ≤ x ∧ (x : Int) < h.endAddress}

/-- The holes are apart, and below the end as an unsigned number. -/
structure Valid (m : HoleMap) : Prop where
  apart : ∀ h ∈ m.holes, ∀ h' ∈ m.holes, h ≠ h' →
    Disjoint (Set.Ico h.startAddress h.endAddress) (Set.Ico h'.startAddress h'.endAddress)
  start_nonneg : ∀ h ∈ m.holes, 0 ≤ h.startAddress
  end_le : ∀ h ∈ m.holes, h.endAddress ≤ uint32Of m.endAddress
  end_lt : ∀ h ∈ m.holes, h.endAddress < 2 ^ 31

/-- What a string of `size` bytes gets: addresses that were free and are free no more. -/
structure Added (m : HoleMap) (size : Nat) (r : Int × HoleMap) : Prop where
  valid : r.2.Valid
  taken : Set.Ico (uint32Of r.1) (uint32Of r.1 + size) ⊆ m.free
  free_subset : r.2.free ⊆ m.free
  gone : Disjoint (Set.Ico (uint32Of r.1) (uint32Of r.1 + size)) r.2.free
  below : uint32Of r.1 + size ≤ uint32Of r.2.endAddress
  end_le : uint32Of r.2.endAddress ≤ uint32Of m.endAddress + size

variable {m : HoleMap}

lemma lowerBound_some {needed it : Hole} (h : m.lowerBound needed = some it) :
    it ∈ m.holes ∧ needed ≤ it := by
  unfold lowerBound at h
  dsimp only at h
  split_ifs at h with hne
  cases h
  exact Finset.mem_filter.mp (Finset.min'_mem _ hne)

lemma size_le_of_le {size : Nat} {it : Hole} (hle : (⟨0, size⟩ : Hole) ≤ it) : (size : Int) ≤ it.size := by
  have hkey : Hole.key ⟨0, size⟩ ≤ it.key := hle
  have hlex := Prod.Lex.le_iff.mp hkey
  simp only [Hole.key, ofLex_toLex, Hole.size] at hlex
  unfold Hole.size
  omega

lemma Valid.append (hm : m.Valid) {size : Nat} (hroom : uint32Of m.endAddress + size < 2 ^ 32) :
    m.Added size (m.endAddress, { m with endAddress := intOf (m.endAddress + size) }) := by
  have hend : uint32Of (intOf (m.endAddress + size)) = uint32Of m.endAddress + size := by
    rw [uint32Of_intOf, uint32Of_add hroom]
  refine ⟨⟨hm.apart, hm.start_nonneg, ?_, hm.end_lt⟩, ?_, ?_, ?_, ?_, ?_⟩
  · intro h hh
    have hle := hm.end_le h hh
    dsimp only
    rw [hend]
    omega
  · intro x hx
    exact Or.inl hx.1
  · intro x hx
    apply hx.imp_left
    intro hle
    dsimp only at hle
    rw [hend] at hle
    omega
  · rw [Set.disjoint_left]
    rintro x ⟨hlow, hhigh⟩ (hle | ⟨h, hh, _, hlt⟩)
    · dsimp only at hle hhigh
      rw [hend] at hle
      omega
    · have hle := hm.end_le h hh
      dsimp only at hlow
      omega
  · exact hend.ge
  · exact hend.le

/-- The part of a hole that a string leaves. -/
lemma Valid.apart_rest (hm : m.Valid) {it h : Hole} (hit : it ∈ m.holes) (hh : h ∈ m.holes) (hne : h ≠ it)
    {size : Nat} :
    Disjoint (Set.Ico (it.startAddress + size) it.endAddress) (Set.Ico h.startAddress h.endAddress) := by
  apply (hm.apart it hit h hh hne.symm).mono_left
  apply Set.Ico_subset_Ico_left
  omega

lemma Valid.split (hm : m.Valid) {size : Nat} {it : Hole} (hit : it ∈ m.holes)
    (hsize : (size : Int) ≤ it.size) {holes : Finset Hole}
    (hholes : holes ⊆ insert ⟨it.startAddress + size, it.endAddress⟩ (m.holes.erase it)) :
    m.Added size (it.startAddress, { m with holes := holes }) := by
  have hstart := hm.start_nonneg it hit
  have hbelow := hm.end_le it hit
  have hint := hm.end_lt it hit
  unfold Hole.size at hsize
  have hu : (uint32Of it.startAddress : Int) = it.startAddress := by
    unfold uint32Of
    omega
  -- a hole that is left is the rest of the split one or another one
  have hcases : ∀ h ∈ holes, h = ⟨it.startAddress + size, it.endAddress⟩ ∨ h ≠ it ∧ h ∈ m.holes := by
    intro h hh
    rw [← Finset.mem_erase, ← Finset.mem_insert]
    exact hholes hh
  refine ⟨⟨?_, ?_, ?_, ?_⟩, ?_, ?_, ?_, ?_, ?_⟩
  · intro h hh h' hh' hne
    rcases hcases h hh with rfl | ⟨hne₁, hh₁⟩ <;> rcases hcases h' hh' with rfl | ⟨hne₂, hh₂⟩
    · exact absurd rfl hne
    · exact hm.apart_rest hit hh₂ hne₂
    · exact (hm.apart_rest hit hh₁ hne₁).symm
    · exact hm.apart h hh₁ h' hh₂ hne
  · intro h hh
    rcases hcases h hh with rfl | ⟨_, hh₁⟩
    · dsimp only
      omega
    · exact hm.start_nonneg h hh₁
  · intro h hh
    rcases hcases h hh with rfl | ⟨_, hh₁⟩
    · exact hbelow
    · exact hm.end_le h hh₁
  · intro h hh
    rcases hcases h hh with rfl | ⟨_, hh₁⟩
    · exact hint
    · exact hm.end_lt h hh₁
  · rintro x ⟨hlow, hhigh⟩
    dsimp only at hlow hhigh
    exact Or.inr ⟨it, hit, by omega, by omega⟩
  · rintro x (hle | ⟨h, hh, hlow, hhigh⟩)
    · exact Or.inl hle
    · rcases hcases h hh with rfl | ⟨_, hh₁⟩
      · dsimp only at hlow hhigh
        exact Or.inr ⟨it, hit, by omega, hhigh⟩
      · exact Or.inr ⟨h, hh₁, hlow, hhigh⟩
  · rw [Set.disjoint_left]
    rintro x ⟨hlow, hhigh⟩ (hle | ⟨h, hh, hlow', hhigh'⟩)
    · dsimp only at hle hhigh
      omega
    · dsimp only at hlow hhigh
      rcases hcases h hh with rfl | ⟨hne₁, hh₁⟩
      · dsimp only at hlow'
        omega
      · have hdisjoint := Set.disjoint_left.mp (hm.apart it hit h hh₁ hne₁.symm)
        exact hdisjoint (a := (x : Int)) ⟨by omega, by omega⟩ ⟨hlow', hhigh'⟩
  · dsimp only
    omega
  · dsimp only
    omega

theorem addStringOfSize_spec (hm : m.Valid) {size : Nat} (hsize : size < 2 ^ 31)
    (hroom : uint32Of m.endAddress + size < 2 ^ 32) : m.Added size (m.addStringOfSize size) := by
  unfold addStringOfSize
  rw [intOf_eq (by omega) (by omega)]
  dsimp only
  cases hit : m.lowerBound ⟨0, size⟩ with
  | none => exact hm.append hroom
  | some it =>
    obtain ⟨hmem, hle⟩ := lowerBound_some hit
    have hle' := size_le_of_le hle
    have hstart := hm.start_nonneg it hmem
    have hint := hm.end_lt it hmem
    have hsmall : it.startAddress + size < 2 ^ 31 := by
      unfold Hole.size at hle'
      omega
    dsimp only
    rw [intOf_eq (by omega) hsmall]
    apply hm.split hmem hle'
    split_ifs
    · exact Finset.Subset.refl _
    · exact Finset.subset_insert _ _

end HoleMap

end Dyld.Cache
