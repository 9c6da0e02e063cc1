import Dyld.SlideInfo.Pages

/-!
# Slide info, version 4

The chain format for 32-bit caches of up to 1 GB: two spare bits at the top, and words that fit
into 16 signed bits are co-opted into the chains. The loader tells such words from pointers by
their value bits, since nothing in a cache points to its first or last 32 KB.
-/

namespace Dyld.SlideInfo

open Dyld.Lib ChainFormat

/-- `smallValue`: fits in to int16_t. -/
def smallValue (value : BitVec 32) : Bool :=
  let high := value &&& 0xFFFF8000#32
  high == 0 || high == 0xFFFF8000#32

def rebasedValueV4 (valueAdd slideAmount value : BitVec 32) : BitVec 32 :=
  -- small positive non-pointer, use as-is
  if value &&& 0xFFFF8000#32 = 0 then value
  -- small negative non-pointer
  else if value &&& 0x3FFF8000#32 = 0x3FFF8000#32 then value ||| 0xC0000000#32
  else value + valueAdd + slideAmount

def formatV4 (valueAdd : BitVec 32) : ChainFormat 4 where
  deltaMask := 0xC0000000#32
  valueAdd := valueAdd
  tag _ := 0#32
  stealable := smallValue
  stolenValue value := value &&& ~~~0xC0000000#32
  rebasedValue := rebasedValueV4 valueAdd
  noRebase := 0xFFFF
  indexMask := 0x7FFF
  lastIndex := 0x7FFE
  endNeedsLocation := true

def makeRebaseChainV4 (valueAdd : BitVec 32) := (formatV4 valueAdd).makeRebaseChain

def addPageStartsV4 (valueAdd : BitVec 32) := (formatV4 valueAdd).addPageStarts

def writeSlideInfoV4 (valueAdd : BitVec 32) := (formatV4 valueAdd).writeSlideInfo

def rebaseChainV4 (valueAdd : BitVec 32) := (formatV4 valueAdd).rebaseChain

def rebaseDataPagesV4 (valueAdd : BitVec 32) := (formatV4 valueAdd).rebaseDataPages

lemma formatV4_lawful (valueAdd : BitVec 32) : (formatV4 valueAdd).Lawful 30 2 0x1000 where
  mask := rfl
  two_le_lo := by decide
  len_pos := by decide
  len_le := by decide
  fits := by decide
  tag_free _ := by
    show 0#32 &&& 0xC0000000#32 = 0#32
    decide
  stolen_free v _ := and_not_and_self v 0xC0000000#32
  four_dvd_pageSize := by decide
  pageSize_le := le_rfl
  size := Or.inl rfl
  start i hi := by
    have hlt : i < 2 ^ 15 := by omega
    refine ⟨?_, and_extra hlt, ?_, or_extra_and hlt le_rfl⟩
    · show i ≠ 0xFFFF
      omega
    · show i &&& (2 ^ 15 - 1) = i
      rw [Nat.and_two_pow_sub_one_eq_mod, Nat.mod_eq_of_lt hlt]
  index k hk := by
    have hlt : k < 2 ^ 15 := by
      change k ≤ 0x7FFE at hk
      omega
    refine ⟨?_, or_extra_and hlt le_rfl⟩
    show k ||| 0x8000 ≠ 0xFFFF
    change k ≤ 0x7FFE at hk
    rw [or_extra_eq_add hlt]
    omega
  noExtra := Or.inr rfl

/-! ### Value bits -/

lemma toNat_lt_of_and_high {x : BitVec 32} (h : x &&& 0xFFFF8000#32 = 0#32) : x.toNat < 0x8000 := by
  by_contra hge
  obtain ⟨i, hi, hbit⟩ := Nat.exists_ge_and_testBit_of_ge_two_pow (n := 15) (x := x.toNat) (by omega)
  have hi32 : i < 32 := by
    by_contra hi32
    rw [Nat.testBit_lt_two_pow (lt_of_lt_of_le x.isLt (Nat.pow_le_pow_right (by omega) (by omega)))] at hbit
    cases hbit
  have hmask : ∀ i < 32, 15 ≤ i → (0xFFFF8000#32).getLsbD i = true := by decide
  have hand : (x &&& 0xFFFF8000#32).getLsbD i = true := by
    rw [BitVec.getLsbD_and, hmask i hi32 hi, Bool.and_true, ← BitVec.testBit_toNat]
    exact hbit
  rw [h] at hand
  simp at hand

lemma rebasedValueV4_pointer {valueAdd v : BitVec 32} (slideAmount : BitVec 32)
    (hlow : 0x8000 ≤ (v - valueAdd).toNat) (hhigh : (v - valueAdd).toNat < 0x3FFF8000) :
    rebasedValueV4 valueAdd slideAmount ((formatV4 valueAdd).pointerValue v) = v + slideAmount := by
  have hvalue : (formatV4 valueAdd).pointerValue v = v - valueAdd :=
    and_not_of_and_eq_zero ((formatV4_lawful valueAdd).and_deltaMask_of_lt (lt_trans hhigh (by norm_num)))
  rw [hvalue, rebasedValueV4, if_neg, if_neg]
  · rw [BitVec.sub_add_cancel]
  · intro h
    have hle : (v - valueAdd &&& 0x3FFF8000#32).toNat ≤ (v - valueAdd).toNat := by
      rw [BitVec.toNat_and]
      exact Nat.and_le_left
    rw [h] at hle
    have hconst : (0x3FFF8000#32).toNat = 0x3FFF8000 := rfl
    omega
  · intro h
    have := toNat_lt_of_and_high h
    omega

lemma rebasedValueV4_stolen {valueAdd slideAmount v : BitVec 32} (h : smallValue v = true) :
    rebasedValueV4 valueAdd slideAmount (v &&& ~~~0xC0000000#32) = v := by
  simp only [smallValue, Bool.or_eq_true, beq_iff_eq] at h
  have hassoc : ∀ c d : BitVec 32, c = 0xFFFF8000#32 &&& d → v &&& c = (v &&& 0xFFFF8000#32) &&& d := by
    intro c d hc
    rw [hc, BitVec.and_assoc]
  rcases h with h | h
  · have htop : v &&& 0xC0000000#32 = 0#32 := by
      rw [hassoc 0xC0000000#32 0xC0000000#32 (by decide), h]
      decide
    rw [and_not_of_and_eq_zero htop, rebasedValueV4, if_pos h]
  · have htop : v &&& 0xC0000000#32 = 0xC0000000#32 := by
      rw [hassoc 0xC0000000#32 0xC0000000#32 (by decide), h]
      decide
    have hmid : ∀ c, ~~~0xC0000000#32 &&& c = 0xFFFF8000#32 &&& 0x3FFF8000#32 →
        v &&& ~~~0xC0000000#32 &&& c = 0x3FFF8000#32 := by
      intro c hc
      rw [BitVec.and_assoc, hc, ← BitVec.and_assoc, h]
      decide
    rw [rebasedValueV4, if_neg, if_pos (hmid _ (by decide))]
    · exact and_not_or_of_and_eq htop
    · rw [hmid _ (by decide)]
      decide

/-! ### Encoding and rebasing -/

/-- The pages and slide info written for a region that held `m` round trip: the loader slides each
rebase location and leaves every other byte, those of co-opted words among them, as it was before
encoding. -/
def RoundTripsV4 (valueAdd : BitVec 32) (r : DataRegion) (m : Mem) (info : RegionInfo) : Prop :=
  ∀ slideAmount : BitVec 32, ∀ fuel, r.page r.pageCount ≤ fuel →
    ∃ s, rebaseDataPagesV4 valueAdd slideAmount fuel r.pageSize info.pageExtras 0
        ⟨info.mem, none, []⟩ info.pageStarts = some s ∧
      (∀ a ∈ r.marks, load 4 s.mem a = load 4 m a + slideAmount) ∧
      ∀ x, (∀ a ∈ r.marks, ¬InWord 4 a x) → s.mem x = m x

/-- Encoding and rebasing a region of 4096-byte pages. -/
theorem writeSlideInfoV4_roundTrips (valueAdd : BitVec 32) (r : DataRegion) (m : Mem)
    (info : RegionInfo) (hsize : r.pageSize = 0x1000)
    (hvalues : ∀ a ∈ r.marks, 0x8000 ≤ (load 4 m a - valueAdd).toNat ∧
      (load 4 m a - valueAdd).toNat < 0x3FFF8000 ∧ smallValue (load 4 m a) = false)
    (h : writeSlideInfoV4 valueAdd r m = .ok info) : RoundTripsV4 valueAdd r m info := by
  have hf : (formatV4 valueAdd).Lawful 30 2 r.pageSize := by
    rw [hsize]
    exact formatV4_lawful valueAdd
  have hap : MarksApart 4 (fun a => a ∈ r.marks) := by
    intro a b ha hb hne
    have ha4 := DataRegion.four_dvd_of_mem_marks hf.four_dvd_pageSize ha
    have hb4 := DataRegion.four_dvd_of_mem_marks hf.four_dvd_pageSize hb
    unfold Apart
    omega
  obtain ⟨chains, hwritten⟩ :=
    writeSlideInfo_written hf hap (fun a ha => (hvalues a ha).2.2) h
  intro slideAmount fuel hfuel
  obtain ⟨s, hrun, hmarks, hframe⟩ := hwritten.rebaseDataPages_eq (by omega) slideAmount
    (fun v hv => rebasedValueV4_stolen hv) hfuel
  refine ⟨s, hrun, ?_, hframe⟩
  intro a ha
  obtain ⟨hlow, hhigh, -⟩ := hvalues a ha
  have hpointer := rebasedValueV4_pointer slideAmount hlow hhigh
  obtain ⟨hdirect, hnot⟩ := hmarks a ha
  by_cases hd : (formatV4 valueAdd).LinksDirectly r a
  · rw [hdirect hd]
    have htag : (formatV4 valueAdd).pointerValue (load 4 m a) ||| (formatV4 valueAdd).tag a =
        (formatV4 valueAdd).pointerValue (load 4 m a) := BitVec.or_zero
    rw [htag]
    exact hpointer
  · rw [hnot hd]
    exact hpointer

/-- A page with pointers at offsets 0, 40 and 80, linked through a co-opted `-5` and zeros, and cut
into two chains by text behind offset 40. -/
def stealingPage : Mem :=
  storeAll 4 (fun _ => 0) [(0, 0x1A010000#32), (8, 0xFFFFFFFB#32), (40, 0x2B000004#32),
    (44, 0x41424344#32), (48, 0x41424344#32), (52, 0x41424344#32), (80, 0x1A123450#32)]

def stealingRegion : DataRegion := ⟨0x1000, 1, fun k => k == 0 || k == 10 || k == 20⟩

theorem writeSlideInfoV4_roundTrips_stealing :
    ∃ info, writeSlideInfoV4 0x1A000000 stealingRegion stealingPage = .ok info ∧
      info.pageExtras.length = 2 ∧ RoundTripsV4 0x1A000000 stealingRegion stealingPage info := by
  have hmarks : stealingRegion.marks = [0, 40, 80] := by decide +kernel
  have hextras : (writeSlideInfoV4 0x1A000000 stealingRegion stealingPage).toOption.map
      (fun info => info.pageExtras.length) = some 2 := by decide +kernel
  cases h : writeSlideInfoV4 0x1A000000 stealingRegion stealingPage with
  | error e =>
    rw [h] at hextras
    cases hextras
  | ok info =>
    rw [h] at hextras
    refine ⟨info, rfl, Option.some.inj hextras, ?_⟩
    apply writeSlideInfoV4_roundTrips _ _ _ _ rfl _ h
    rw [hmarks]
    decide +kernel

end Dyld.SlideInfo
