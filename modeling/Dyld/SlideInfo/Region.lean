import Dyld.Lib.Chains

/-!
# Data regions of a cache

What the slide info writers share: the tags and signing data the builder keeps beside the
pointers, and the pages of a data region with a flag for every four bytes. Addresses are
offsets from the start of the region's buffer.
-/

namespace Dyld.SlideInfo

open Dyld.Lib

/-- `ASLR_Tracker::AuthData`. The callers of `setAuthData` take the key from fields of two
bits. -/
structure AuthData where
  diversity : BitVec 16
  addrDiv : Bool
  key : Nat
  key_lt : key < 4

/-- The maps of `ASLR_Tracker` that the slide info writers read, by location. -/
structure AslrTracker where
  hasHigh8 : Nat → Option (BitVec 8)
  hasAuthData : Nat → Option AuthData

/-- The pages of a data region and the bitmap of its rebase locations, four bytes a flag. -/
structure DataRegion where
  pageSize : Nat
  pageCount : Nat
  bitmap : Nat → Bool

def flags (pageSize : Nat) (bitmap : Nat → Bool) : List Nat :=
  (List.range (pageSize / 4)).filter bitmap

lemma mem_flags {pageSize i : Nat} {bitmap : Nat → Bool} :
    i ∈ flags pageSize bitmap ↔ i < pageSize / 4 ∧ bitmap i = true := by
  simp [flags]

lemma flags_sorted (pageSize : Nat) (bitmap : Nat → Bool) :
    (flags pageSize bitmap).Pairwise (· < ·) :=
  List.pairwise_lt_range.filter _

namespace DataRegion

variable (r : DataRegion)

def page (i : Nat) : Nat := i * r.pageSize

def pageBitmap (i : Nat) (j : Nat) : Bool := r.bitmap (i * (r.pageSize / 4) + j)

/-- The rebase locations of a page. -/
def pageMarks (i : Nat) : List Nat :=
  (flags r.pageSize (r.pageBitmap i)).map (fun j => r.page i + j * 4)

/-- The rebase locations of the region. -/
def marks : List Nat := (List.range r.pageCount).flatMap r.pageMarks

variable {r}

lemma mem_pageMarks {i a : Nat} :
    a ∈ r.pageMarks i ↔
      ∃ j, j < r.pageSize / 4 ∧ r.pageBitmap i j = true ∧ r.page i + j * 4 = a := by
  simp only [pageMarks, List.mem_map, mem_flags, and_assoc]

lemma mem_marks {a : Nat} : a ∈ r.marks ↔ ∃ i < r.pageCount, a ∈ r.pageMarks i := by
  simp [marks]

lemma pageMarks_sorted (i : Nat) : (r.pageMarks i).Pairwise (· < ·) := by
  refine (flags_sorted r.pageSize (r.pageBitmap i)).map _ (fun j k hjk => ?_)
  omega

lemma pageMarks_bounds {i a : Nat} (ha : a ∈ r.pageMarks i) :
    r.page i ≤ a ∧ a + 4 ≤ r.page (i + 1) := by
  obtain ⟨j, hj, -, rfl⟩ := mem_pageMarks.mp ha
  have hp : r.page (i + 1) = r.page i + r.pageSize := by simp [page, Nat.add_mul]
  have h4 : r.pageSize / 4 * 4 ≤ r.pageSize := Nat.div_mul_le_self _ _
  omega

lemma page_mono {i j : Nat} (h : i ≤ j) : r.page i ≤ r.page j := Nat.mul_le_mul_right _ h

lemma four_dvd_of_mem_marks (h4 : 4 ∣ r.pageSize) {a : Nat} (ha : a ∈ r.marks) : 4 ∣ a := by
  obtain ⟨i, -, hi⟩ := mem_marks.mp ha
  obtain ⟨j, -, -, rfl⟩ := mem_pageMarks.mp hi
  have hp : 4 ∣ r.page i := Dvd.dvd.mul_left h4 i
  omega

lemma page_succ (i : Nat) : r.page (i + 1) = r.page i + r.pageSize := by
  simp [page, Nat.add_mul]

lemma div_page {i o : Nat} (ho : o < r.pageSize) : (r.page i + o) / r.pageSize = i := by
  rw [page, Nat.mul_comm, Nat.mul_add_div (by omega), Nat.div_eq_of_lt ho, Nat.add_zero]

lemma mem_marks_page {i o : Nat} (hi : i < r.pageCount) (ho : o < r.pageSize) :
    r.page i + o ∈ r.marks ↔ ∃ j ∈ flags r.pageSize (r.pageBitmap i), o = j * 4 := by
  have hmem : r.page i + o ∈ r.pageMarks i ↔
      ∃ j ∈ flags r.pageSize (r.pageBitmap i), o = j * 4 := by
    simp only [pageMarks, List.mem_map]
    constructor
    · rintro ⟨j, hj, heq⟩
      exact ⟨j, hj, by omega⟩
    · rintro ⟨j, hj, rfl⟩
      exact ⟨j, hj, rfl⟩
  rw [← hmem, mem_marks]
  constructor
  · rintro ⟨k, -, hk⟩
    have hb := pageMarks_bounds hk
    rw [page_succ] at hb
    have hki : k = i := by
      rw [← div_page (r := r) (i := i) ho, ← Nat.add_sub_of_le hb.1, div_page (by omega)]
    rwa [← hki] at hk ⊢
  · intro h
    exact ⟨i, hi, h⟩

end DataRegion

end Dyld.SlideInfo
