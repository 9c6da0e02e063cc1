import Dyld.SlideInfo.Pages

/-!
# Slide info, version 2

The chain format for pointers of four and eight bytes with any contiguous spare bits. Only words
that are zero are stolen. The writer adds the tag of a pointer, `high8`, when it links the pointer
directly to the next rebase location, and does not when it ends a chain there.
-/

namespace Dyld.SlideInfo

open Dyld.Lib ChainFormat

variable {n : Nat}

/-- The tag of a pointer in its top byte, `(uint64_t)highByte << 56`. -/
def tbi (high8 : BitVec 8) : BitVec (8 * n) := BitVec.ofNat (8 * n) (high8.toNat <<< 56)

def rebasedValueV2 (valueAdd slideAmount value : BitVec (8 * n)) : BitVec (8 * n) :=
  if value ≠ 0 then value + valueAdd + slideAmount else value

def formatV2 (deltaMask valueAdd : BitVec (8 * n)) (hasHigh8 : Nat → Option (BitVec 8)) :
    ChainFormat n where
  deltaMask := deltaMask
  valueAdd := valueAdd
  tag a := match hasHigh8 a with
    | some highByte => tbi highByte
    | none => 0
  stealable value := value == 0
  stolenValue _ := 0
  rebasedValue := rebasedValueV2 valueAdd
  noRebase := 0x4000
  indexMask := 0x3FFF
  lastIndex := 0x3FFF
  endNeedsLocation := false

def makeRebaseChainV2 (deltaMask valueAdd : BitVec (8 * n)) (hasHigh8 : Nat → Option (BitVec 8)) :=
  (formatV2 deltaMask valueAdd hasHigh8).makeRebaseChain

def addPageStartsV2 (deltaMask valueAdd : BitVec (8 * n)) (hasHigh8 : Nat → Option (BitVec 8)) :=
  (formatV2 deltaMask valueAdd hasHigh8).addPageStarts

def writeSlideInfoV2 (deltaMask valueAdd : BitVec (8 * n)) (hasHigh8 : Nat → Option (BitVec 8)) :=
  (formatV2 deltaMask valueAdd hasHigh8).writeSlideInfo

def rebaseChainV2 (deltaMask valueAdd : BitVec (8 * n)) :=
  (formatV2 deltaMask valueAdd (fun _ => none)).rebaseChain

def rebaseDataPagesV2 (deltaMask valueAdd : BitVec (8 * n)) :=
  (formatV2 deltaMask valueAdd (fun _ => none)).rebaseDataPages

def addressBits (n : Nat) : Nat := if n = 8 then 56 else 32

/-- What an entry of `_s_archLayout` gives version 2: the spare bits are the top ones of the
address, `value_add` is the start of a cache whose size the other bits can hold, and "for 64-bit
architectures, there is always enough free bits to encode all possible deltas". -/
structure LayoutV2 (n : Nat) where
  deltaMask : BitVec (8 * n)
  valueAdd : BitVec (8 * n)
  lo : Nat
  pageSize : Nat
  size : n = 4 ∨ n = 8
  lo_ge : 26 ≤ lo
  lo_lt : lo < addressBits n
  mask : deltaMask = BitVec.ofNat (8 * n) ((2 ^ (addressBits n - lo) - 1) <<< lo)
  valueAdd_le : valueAdd.toNat + 2 ^ lo ≤ 2 ^ addressBits n
  four_dvd_pageSize : 4 ∣ pageSize
  pageSize_le : pageSize ≤ 0x1000
  enough : n = 8 → pageSize ≤ 4 * (2 ^ (addressBits n - lo) - 1)

namespace LayoutV2

variable (L : LayoutV2 n)

lemma addressBits_le (L : LayoutV2 n) : addressBits n ≤ 8 * n := by
  have := L.size
  unfold addressBits
  split_ifs <;> omega

/-- The bits of a tag are above the address. -/
lemma getLsbD_tbi (high8 : BitVec 8) (i : Nat) :
    (tbi high8 : BitVec (8 * n)).getLsbD i =
      (decide (i < 8 * n) && (decide (56 ≤ i) && high8.getLsbD (i - 56))) := by
  rw [tbi, BitVec.getLsbD_ofNat, Nat.testBit_shiftLeft, ← BitVec.testBit_toNat]

lemma tbi_and_deltaMask (high8 : BitVec 8) : tbi high8 &&& L.deltaMask = 0#(8 * n) := by
  have hlo := L.lo_lt
  have hle : addressBits n ≤ 56 := by
    unfold addressBits
    split_ifs <;> omega
  apply BitVec.eq_of_getLsbD_eq
  intro i hi
  rw [BitVec.getLsbD_and, getLsbD_tbi, L.mask, BitVec.getLsbD_ofNat, Nat.testBit_shiftLeft,
    Nat.testBit_two_pow_sub_one]
  by_cases h56 : 56 ≤ i
  · have hout : ¬i - L.lo < addressBits n - L.lo := by omega
    simp [hout]
  · simp [h56]

lemma lawful (hasHigh8 : Nat → Option (BitVec 8)) :
    (formatV2 L.deltaMask L.valueAdd hasHigh8).Lawful L.lo (addressBits n - L.lo) L.pageSize where
  mask := L.mask
  two_le_lo := by have := L.lo_ge; omega
  len_pos := by have := L.lo_lt; omega
  len_le := by
    have h1 := L.lo_ge
    have h2 : addressBits n ≤ 56 := by unfold addressBits; split_ifs <;> omega
    omega
  fits := by
    have h1 := L.addressBits_le
    have h2 := L.lo_lt
    omega
  tag_free a := by
    show (match hasHigh8 a with
      | some highByte => tbi highByte
      | none => 0) &&& L.deltaMask = 0#(8 * n)
    cases hasHigh8 a with
    | none => simp
    | some high8 => exact L.tbi_and_deltaMask high8
  stolen_free v _ := by
    show 0#(8 * n) &&& L.deltaMask = 0#(8 * n)
    simp
  four_dvd_pageSize := L.four_dvd_pageSize
  pageSize_le := L.pageSize_le
  size := by
    rcases L.size with h | h
    · exact Or.inl h
    · exact Or.inr ⟨by omega, L.enough h⟩
  start i hi := by
    have hsize := L.pageSize_le
    have hlt : i < 2 ^ 14 := by omega
    refine ⟨?_, and_extra (by omega), ?_, or_extra_and hlt (by omega)⟩
    · show i ≠ 0x4000
      omega
    · show i &&& (2 ^ 14 - 1) = i
      rw [Nat.and_two_pow_sub_one_eq_mod, Nat.mod_eq_of_lt hlt]
  index k hk := by
    have hlt : k < 2 ^ 14 := by
      change k ≤ 0x3FFF at hk
      omega
    refine ⟨?_, or_extra_and hlt (by omega)⟩
    show k ||| 0x8000 ≠ 0x4000
    rw [or_extra_eq_add (by omega)]
    omega
  noExtra := Or.inl (show 0x4000 &&& 0x8000 = 0 by decide)

end LayoutV2

/-! ### Tags -/

/-- What is to be found at a rebase location that held `v`: `v` slid, with its tag in the top byte.
A tag needs a slide that leaves the top byte alone. -/
def SlidToV2 (high8 : Option (BitVec 8)) (v slideAmount got : BitVec (8 * n)) : Prop :=
  match high8 with
  | none => got = v + slideAmount
  | some high8 =>
    (v + slideAmount) >>> 56 = v >>> 56 → got = setField (v + slideAmount) 56 8 high8.toNat

section Tags

variable {v slideAmount : BitVec 64}

lemma toNat_setField_topByte (x : BitVec 64) (y : Nat) :
    (setField x 56 8 y).toNat = y % 2 ^ 8 * 2 ^ 56 + x.toNat % 2 ^ 56 :=
  toNat_setField_top y rfl

lemma toNat_div_of_shift (h : (v + slideAmount) >>> 56 = v >>> 56) :
    (v + slideAmount).toNat / 2 ^ 56 = v.toNat / 2 ^ 56 := by
  have := congrArg BitVec.toNat h
  simpa only [BitVec.toNat_ushiftRight, Nat.shiftRight_eq_div_pow] using this

/-- A slide that leaves the top byte alone slides a pointer with any other top byte alike. -/
lemma setField_add (y : Nat) (h : (v + slideAmount) >>> 56 = v >>> 56) :
    setField v 56 8 y + slideAmount = setField (v + slideAmount) 56 8 y := by
  have hdiv := toNat_div_of_shift h
  apply BitVec.eq_of_toNat_eq
  have hadd := BitVec.toNat_add v slideAmount
  have hs := slideAmount.isLt
  have hv := v.isLt
  have hy := Nat.mod_lt y (show 0 < 2 ^ 8 by norm_num)
  rw [BitVec.toNat_add, toNat_setField_topByte, toNat_setField_topByte]
  omega

lemma slidTo_untagged_iff (v : BitVec 64) (high8 : BitVec 8) :
    (∀ slideAmount : BitVec 64, SlidToV2 (n := 8) (some high8) v slideAmount (v + slideAmount)) ↔
      getField v 56 8 = high8.toNat := by
  constructor
  · intro h
    have h0 : v = setField v 56 8 high8.toNat := by
      have := h 0#64 (by rw [BitVec.add_zero])
      simpa only [BitVec.add_zero] using this
    rw [h0, getField_setField_same _ (by omega), Nat.mod_eq_of_lt high8.isLt]
  · intro h slideAmount hguard
    have hfield : getField (v + slideAmount) 56 8 = high8.toNat := by
      rw [getField, toNat_div_of_shift hguard, ← h, getField]
    rw [← hfield, setField_getField]

lemma slidTo_tagged_iff (v : BitVec 64) (high8 : BitVec 8) :
    (∀ slideAmount : BitVec 64, SlidToV2 (n := 8) (some high8) v slideAmount
        (setField v 56 8 (getField v 56 8 ||| high8.toNat) + slideAmount)) ↔
      getField v 56 8 ||| high8.toNat = high8.toNat := by
  have hlt : getField v 56 8 ||| high8.toNat < 2 ^ 8 :=
    Nat.or_lt_two_pow (getField_lt v 56 8) high8.isLt
  constructor
  · intro h
    have h0 : setField v 56 8 (getField v 56 8 ||| high8.toNat) = setField v 56 8 high8.toNat := by
      have := h 0#64 (by rw [BitVec.add_zero])
      simpa only [BitVec.add_zero] using this
    have hfield : getField (setField v 56 8 (getField v 56 8 ||| high8.toNat)) 56 8 =
        getField (setField v 56 8 high8.toNat) 56 8 := by rw [h0]
    rwa [getField_setField_same _ (by omega), getField_setField_same _ (by omega),
      Nat.mod_eq_of_lt hlt, Nat.mod_eq_of_lt high8.isLt] at hfield
  · intro h slideAmount hguard
    rw [h, setField_add _ hguard]

/-- A pointer `v` into a cache that starts at `valueAdd`, with its tag added to the bits that are
stored of it. -/
lemma tagged_add_valueAdd {valueAdd : BitVec 64} {lo : Nat} (high8 : BitVec 8)
    (hfree : ∀ i, lo ≤ i → i < 56 → (v - valueAdd).getLsbD i = false)
    (hadd : valueAdd.toNat + 2 ^ lo ≤ 2 ^ 56) :
    ((v - valueAdd) ||| tbi (n := 8) high8) + valueAdd =
      setField v 56 8 (getField v 56 8 ||| high8.toNat) := by
  have hor : (v - valueAdd) ||| tbi (n := 8) high8 =
      setField (v - valueAdd) 56 8 (getField (v - valueAdd) 56 8 ||| high8.toNat) := by
    apply BitVec.eq_of_getLsbD_eq
    intro i hi
    have htbi : (tbi (n := 8) high8 : BitVec 64).getLsbD i =
        (decide (i < 64) && (decide (56 ≤ i) && high8.getLsbD (i - 56))) :=
      LayoutV2.getLsbD_tbi high8 i
    rw [BitVec.getLsbD_or, htbi, getLsbD_setField, Nat.testBit_or, testBit_getField,
      BitVec.testBit_toNat]
    by_cases h56 : 56 ≤ i
    · have hin : 56 ≤ i ∧ i < 56 + 8 := by omega
      have h8 : i - 56 < 8 := by omega
      rw [if_pos hin, Nat.add_sub_of_le h56]
      simp [hi, h56, h8]
    · simp [h56]
  -- the stored bits end below `lo`, so adding `valueAdd` leaves the top byte alone
  have hlow : (v - valueAdd).toNat % 2 ^ 56 < 2 ^ lo := by
    apply Nat.lt_pow_two_of_testBit
    intro i hi
    rw [Nat.testBit_mod_two_pow, BitVec.testBit_toNat]
    by_cases h56 : i < 56
    · rw [hfree i hi h56, Bool.and_false]
    · simp [h56]
  have hsum : v.toNat = (v - valueAdd).toNat + valueAdd.toNat := by
    have hv : v = (v - valueAdd) + valueAdd := (BitVec.sub_add_cancel v valueAdd).symm
    have hd := (v - valueAdd).isLt
    rw [hv, BitVec.toNat_add, ← hv]
    apply Nat.mod_eq_of_lt
    omega
  have hq : getField v 56 8 = getField (v - valueAdd) 56 8 := by
    unfold getField
    omega
  have hlt : getField v 56 8 ||| high8.toNat < 2 ^ 8 :=
    Nat.or_lt_two_pow (getField_lt v 56 8) high8.isLt
  apply BitVec.eq_of_toNat_eq
  rw [hor, BitVec.toNat_add, ← hq, toNat_setField_topByte, toNat_setField_topByte,
    Nat.mod_eq_of_lt hlt]
  omega

end Tags

/-! ### Encoding and rebasing -/

lemma rebaseChain_formatV2 (deltaMask valueAdd : BitVec (8 * n))
    (hasHigh8 : Nat → Option (BitVec 8)) :
    (formatV2 deltaMask valueAdd hasHigh8).rebaseChain = rebaseChainV2 deltaMask valueAdd :=
  rfl

/-- The tags do not matter to the loader. -/
lemma rebaseDataPages_formatV2 (deltaMask valueAdd : BitVec (8 * n))
    (hasHigh8 : Nat → Option (BitVec 8)) :
    (formatV2 deltaMask valueAdd hasHigh8).rebaseDataPages = rebaseDataPagesV2 deltaMask valueAdd := by
  have hextras : (formatV2 deltaMask valueAdd hasHigh8).rebaseExtras =
      (formatV2 deltaMask valueAdd (fun _ => none)).rebaseExtras := by
    funext slideAmount fuel page s extras
    induction extras generalizing s with
    | nil => rfl
    | cons pInfo extras ih =>
      simp only [rebaseExtras, rebaseChain_formatV2, ih]
      rfl
  have hpage : (formatV2 deltaMask valueAdd hasHigh8).rebasePage =
      (formatV2 deltaMask valueAdd (fun _ => none)).rebasePage := by
    funext slideAmount fuel page pageExtras s pageEntry
    unfold rebasePage
    rw [hextras]
    rfl
  funext slideAmount fuel pageSize pageExtras i s pageStarts
  induction pageStarts generalizing i s with
  | nil => rfl
  | cons pageEntry pageStarts ih =>
    simp only [rebaseDataPagesV2, rebaseDataPages, hpage] at ih ⊢
    cases (formatV2 deltaMask valueAdd (fun _ => none)).rebasePage slideAmount fuel (i * pageSize)
        pageExtras s pageEntry with
    | none => rfl
    | some s' => exact ih (i + 1) s'

/-- The pages and slide info written for a region that held `m` round trip: the loader slides each
rebase location and leaves every other byte as it was before encoding. -/
def RoundTripsV2 (L : LayoutV2 n) (hasHigh8 : Nat → Option (BitVec 8)) (r : DataRegion) (m : Mem)
    (info : RegionInfo) : Prop :=
  ∀ slideAmount : BitVec (8 * n), ∀ fuel, r.page r.pageCount ≤ fuel →
    ∃ s, rebaseDataPagesV2 L.deltaMask L.valueAdd slideAmount fuel r.pageSize info.pageExtras 0
        ⟨info.mem, none, []⟩ info.pageStarts = some s ∧
      (∀ a ∈ r.marks, SlidToV2 (hasHigh8 a) (load n m a) slideAmount (load n s.mem a)) ∧
      ∀ x, (∀ a ∈ r.marks, ¬InWord n a x) → s.mem x = m x

/-- A tag survives: when another rebase location follows in the page, if the pointer's own top byte
has no other bit, and when none follows, only if the pointer has the tag already. -/
def TagKept (hasHigh8 : Nat → Option (BitVec 8)) (r : DataRegion) (m : Mem) (a : Nat) : Prop :=
  ∀ high8, hasHigh8 a = some high8 →
    ((∃ b ∈ r.marks, b / r.pageSize = a / r.pageSize ∧ a < b) →
      getField (load n m a) 56 8 ||| high8.toNat = high8.toNat) ∧
    ((¬∃ b ∈ r.marks, b / r.pageSize = a / r.pageSize ∧ a < b) →
      getField (load n m a) 56 8 = high8.toNat)

/-- The rebase locations of a region with the values version 2 can encode: they share no byte, each
points into the cache but not to its start, and only pointers of eight bytes have tags. -/
structure MarkedV2 (L : LayoutV2 n) (hasHigh8 : Nat → Option (BitVec 8)) (r : DataRegion) (m : Mem) :
    Prop where
  pageSize : r.pageSize = L.pageSize
  apart : ∀ a ∈ r.marks, ∀ b ∈ r.marks, a ≠ b → Apart n a b
  inside : ∀ a ∈ r.marks, (load n m a - L.valueAdd) &&& L.deltaMask = 0
  not_start : ∀ a ∈ r.marks, load n m a ≠ L.valueAdd
  untagged : n = 4 → ∀ a, hasHigh8 a = none

section RoundTrip

variable {L : LayoutV2 n} {hasHigh8 : Nat → Option (BitVec 8)} {r : DataRegion} {m : Mem}

lemma LayoutV2.getLsbD_of_inside (L : LayoutV2 n) {x : BitVec (8 * n)} (hx : x &&& L.deltaMask = 0#(8 * n))
    {i : Nat} (hlo : L.lo ≤ i) (hi : i < addressBits n) : x.getLsbD i = false := by
  have hbit : (x &&& L.deltaMask).getLsbD i = false := by simp [hx]
  have hle := L.addressBits_le
  have hmask : L.deltaMask.getLsbD i = true := by
    rw [L.mask, BitVec.getLsbD_ofNat, Nat.testBit_shiftLeft, Nat.testBit_two_pow_sub_one]
    simp only [Bool.and_eq_true, decide_eq_true_eq]
    omega
  rwa [BitVec.getLsbD_and, hmask, Bool.and_true] at hbit

lemma LayoutV2.mod_lt_of_inside (L : LayoutV2 n) {x : BitVec (8 * n)}
    (hx : x &&& L.deltaMask = 0#(8 * n)) : x.toNat % 2 ^ addressBits n < 2 ^ L.lo := by
  apply Nat.lt_pow_two_of_testBit
  intro i hi
  rw [Nat.testBit_mod_two_pow, BitVec.testBit_toNat]
  by_cases h : i < addressBits n
  · rw [L.getLsbD_of_inside hx hi h, Bool.and_false]
  · simp [h]

lemma LayoutV2.ne_zero (L : LayoutV2 n) {v : BitVec (8 * n)}
    (hx : (v - L.valueAdd) &&& L.deltaMask = 0#(8 * n)) (hne : v ≠ L.valueAdd) : v ≠ 0#(8 * n) := by
  rintro rfl
  have hmod := L.mod_lt_of_inside hx
  have hle := L.valueAdd_le
  have hadd : L.valueAdd.toNat ≠ 0 := by
    intro h0
    exact hne (BitVec.eq_of_toNat_eq (by rw [h0]; rfl))
  have hlt := L.valueAdd.isLt
  rw [BitVec.toNat_sub, BitVec.toNat_ofNat, Nat.zero_mod, Nat.add_zero] at hmod
  generalize L.valueAdd.toNat = add at *
  rcases L.size with h | h
  · have hab : addressBits n = 32 := by rw [addressBits, if_neg (by omega)]
    have h8 : 8 * n = 32 := by omega
    rw [hab] at hmod hle
    rw [h8] at hmod hlt
    omega
  · have hab : addressBits n = 56 := by rw [addressBits, if_pos h]
    have h8 : 8 * n = 64 := by omega
    rw [hab] at hmod hle
    rw [h8] at hmod hlt
    omega

lemma pointerValue_of_inside {v : BitVec (8 * n)} (hx : (v - L.valueAdd) &&& L.deltaMask = 0#(8 * n)) :
    (formatV2 L.deltaMask L.valueAdd hasHigh8).pointerValue v = v - L.valueAdd :=
  and_not_of_and_eq_zero hx

lemma sub_ne_zero_of_ne {v w : BitVec (8 * n)} (h : v ≠ w) : v - w ≠ 0#(8 * n) := by
  intro h0
  apply h
  rw [← BitVec.sub_add_cancel v w, h0, BitVec.zero_add]

lemma rebasedValueV2_of_ne {valueAdd slideAmount x : BitVec (8 * n)} (hx : x ≠ 0#(8 * n)) :
    rebasedValueV2 valueAdd slideAmount x = x + valueAdd + slideAmount :=
  if_pos hx

lemma rebasedValueV2_zero (valueAdd slideAmount : BitVec (8 * n)) :
    rebasedValueV2 valueAdd slideAmount 0#(8 * n) = 0#(8 * n) :=
  if_neg (not_not.mpr rfl)

lemma linksDirectly_iff (hasHigh8 : Nat → Option (BitVec 8)) (hn : n = 8) (hsize : r.pageSize = L.pageSize) (a : Nat) :
    (formatV2 L.deltaMask L.valueAdd hasHigh8).LinksDirectly r a ↔
      ∃ b ∈ r.marks, b / r.pageSize = a / r.pageSize ∧ a < b := by
  have hmax := (L.lawful hasHigh8).maxDelta_eq
  have henough := L.enough hn
  rw [← hmax, ← hsize] at henough
  constructor
  · rintro ⟨b, hb, hpage, hlt, -⟩
    exact ⟨b, hb, hpage, hlt⟩
  · rintro ⟨b, hb, hpage, hlt⟩
    refine ⟨b, hb, hpage, hlt, ?_⟩
    have ha := Nat.div_add_mod a r.pageSize
    have hb' := Nat.div_add_mod b r.pageSize
    rw [hpage] at hb'
    have hpos : 0 < r.pageSize := by
      obtain ⟨i, -, hi⟩ := DataRegion.mem_marks.mp hb
      obtain ⟨j, hj, -⟩ := DataRegion.mem_pageMarks.mp hi
      omega
    have := Nat.mod_lt b hpos
    omega

lemma slidTo_iff_tagKept (hm : MarkedV2 L hasHigh8 r m) {a : Nat} (ha : a ∈ r.marks)
    (got : BitVec (8 * n) → BitVec (8 * n))
    (hgot : ∀ slideAmount,
      ((formatV2 L.deltaMask L.valueAdd hasHigh8).LinksDirectly r a → got slideAmount =
        rebasedValueV2 L.valueAdd slideAmount
          ((formatV2 L.deltaMask L.valueAdd hasHigh8).pointerValue (load n m a) |||
            (formatV2 L.deltaMask L.valueAdd hasHigh8).tag a)) ∧
      (¬(formatV2 L.deltaMask L.valueAdd hasHigh8).LinksDirectly r a → got slideAmount =
        rebasedValueV2 L.valueAdd slideAmount
          ((formatV2 L.deltaMask L.valueAdd hasHigh8).pointerValue (load n m a)))) :
    (∀ slideAmount, SlidToV2 (hasHigh8 a) (load n m a) slideAmount (got slideAmount)) ↔
      TagKept (n := n) hasHigh8 r m a := by
  have hin : (load n m a - L.valueAdd) &&& L.deltaMask = 0#(8 * n) := hm.inside a ha
  have hne : load n m a - L.valueAdd ≠ 0#(8 * n) := sub_ne_zero_of_ne (hm.not_start a ha)
  have hplain : ∀ slideAmount, rebasedValueV2 L.valueAdd slideAmount (load n m a - L.valueAdd) =
      load n m a + slideAmount := by
    intro slideAmount
    rw [rebasedValueV2_of_ne hne, BitVec.sub_add_cancel]
  rw [pointerValue_of_inside hin] at hgot
  cases htag : hasHigh8 a with
  | none =>
    have hzero : (formatV2 L.deltaMask L.valueAdd hasHigh8).tag a = 0#(8 * n) := by
      simp [formatV2, htag]
    rw [hzero, BitVec.or_zero] at hgot
    have hall : ∀ slideAmount, got slideAmount = load n m a + slideAmount := by
      intro slideAmount
      by_cases hd : (formatV2 L.deltaMask L.valueAdd hasHigh8).LinksDirectly r a
      · rw [(hgot slideAmount).1 hd, hplain]
      · rw [(hgot slideAmount).2 hd, hplain]
    refine ⟨fun _ high8 hhigh => ?_, fun _ => hall⟩
    rw [htag] at hhigh
    cases hhigh
  | some high8 =>
    have hn : n = 8 := by
      rcases L.size with h4 | h8
      · rw [hm.untagged h4 a] at htag
        cases htag
      · exact h8
    subst hn
    have hdirect := linksDirectly_iff hasHigh8 rfl hm.pageSize a
    have hkept : TagKept (n := 8) hasHigh8 r m a ↔
        ((formatV2 L.deltaMask L.valueAdd hasHigh8).LinksDirectly r a →
          getField (load 8 m a) 56 8 ||| high8.toNat = high8.toNat) ∧
        (¬(formatV2 L.deltaMask L.valueAdd hasHigh8).LinksDirectly r a →
          getField (load 8 m a) 56 8 = high8.toNat) := by
      unfold TagKept
      rw [htag, hdirect]
      simp
    rw [hkept]
    by_cases hd : (formatV2 L.deltaMask L.valueAdd hasHigh8).LinksDirectly r a
    · have htbi : (formatV2 L.deltaMask L.valueAdd hasHigh8).tag a = tbi high8 := by
        simp [formatV2, htag]
      have hvalue : ∀ slideAmount, got slideAmount =
          setField (load 8 m a) 56 8 (getField (load 8 m a) 56 8 ||| high8.toNat) + slideAmount := by
        intro slideAmount
        have hor : load 8 m a - L.valueAdd ||| tbi high8 ≠ 0#(8 * 8) :=
          fun h0 => hne (BitVec.or_eq_zero_iff.mp h0).1
        rw [(hgot slideAmount).1 hd, htbi, rebasedValueV2_of_ne hor]
        congr 1
        exact tagged_add_valueAdd high8 (fun i hlo hi => L.getLsbD_of_inside hin hlo hi) L.valueAdd_le
      simp only [hvalue, hd, true_imp_iff, not_true_eq_false, false_imp_iff, and_true]
      exact slidTo_tagged_iff (load 8 m a) high8
    · have hvalue : ∀ slideAmount, got slideAmount = load 8 m a + slideAmount := by
        intro slideAmount
        rw [(hgot slideAmount).2 hd, hplain]
      simp only [hvalue, hd, true_imp_iff, not_false_eq_true, false_imp_iff, true_and]
      exact slidTo_untagged_iff (load 8 m a) high8

theorem writeSlideInfoV2_roundTrips_iff (L : LayoutV2 n) (hasHigh8 : Nat → Option (BitVec 8))
    (r : DataRegion) (m : Mem) (info : RegionInfo) (hm : MarkedV2 L hasHigh8 r m)
    (h : writeSlideInfoV2 L.deltaMask L.valueAdd hasHigh8 r m = .ok info) :
    RoundTripsV2 L hasHigh8 r m info ↔ ∀ a ∈ r.marks, TagKept (n := n) hasHigh8 r m a := by
  have hf : (formatV2 L.deltaMask L.valueAdd hasHigh8).Lawful L.lo (addressBits n - L.lo) r.pageSize := by
    rw [hm.pageSize]
    exact L.lawful hasHigh8
  have hn : 0 < n := by
    have := L.size
    omega
  have hns : ∀ a ∈ r.marks,
      (formatV2 L.deltaMask L.valueAdd hasHigh8).stealable (load n m a) = false := by
    intro a ha
    exact beq_eq_false_iff_ne.mpr (L.ne_zero (hm.inside a ha) (hm.not_start a ha))
  obtain ⟨chains, hwritten⟩ :=
    writeSlideInfo_written hf (fun a b ha hb => hm.apart a ha b hb) hns h
  have hstolen : ∀ slideAmount v, (formatV2 L.deltaMask L.valueAdd hasHigh8).stealable v = true →
      (formatV2 L.deltaMask L.valueAdd hasHigh8).rebasedValue slideAmount
        ((formatV2 L.deltaMask L.valueAdd hasHigh8).stolenValue v) = v := by
    intro slideAmount v hv
    rw [show v = 0#(8 * n) from eq_of_beq hv]
    exact rebasedValueV2_zero L.valueAdd slideAmount
  have hrun := fun slideAmount fuel (hfuel : r.page r.pageCount ≤ fuel) =>
    hwritten.rebaseDataPages_eq hn slideAmount (hstolen slideAmount) hfuel
  rw [rebaseDataPages_formatV2] at hrun
  constructor
  · intro hround a ha
    choose s hs hmarks hframe using fun slideAmount => hrun slideAmount _ le_rfl
    rw [← slidTo_iff_tagKept hm ha (fun slideAmount => load n (s slideAmount).mem a)
      (fun slideAmount => hmarks slideAmount a ha)]
    intro slideAmount
    obtain ⟨s', hs', hslid, -⟩ := hround slideAmount _ le_rfl
    rw [hs slideAmount, Option.some.injEq] at hs'
    rw [hs']
    exact hslid a ha
  · intro hkept slideAmount fuel hfuel
    choose s hs hmarks hframe using fun slideAmount => hrun slideAmount fuel hfuel
    refine ⟨s slideAmount, hs slideAmount, fun a ha => ?_, hframe slideAmount⟩
    exact (slidTo_iff_tagKept hm ha (fun slideAmount => load n (s slideAmount).mem a)
      (fun slideAmount => hmarks slideAmount a ha)).mpr (hkept a ha) slideAmount

end RoundTrip

def arm64Layout : LayoutV2 8 where
  deltaMask := 0x00FFFF0000000000#64
  valueAdd := 0#64
  lo := 40
  pageSize := 0x1000
  size := Or.inr rfl
  lo_ge := by decide
  lo_lt := by decide
  mask := by decide
  valueAdd_le := by decide
  four_dvd_pageSize := by decide
  pageSize_le := le_rfl
  enough _ := by decide

/-- A page with a tagged pointer at offset 8 and an untagged one at offset 24. -/
def taggedRegion : DataRegion := ⟨0x1000, 1, fun k => k == 2 || k == 6⟩

def taggedPage : Mem :=
  storeAll 8 (fun _ => 0) [(8, 0x0000000180004000#64), (24, 0x00000001A2345678#64)]

def oneTag (a : Nat) (high8 : BitVec 8) : Nat → Option (BitVec 8) :=
  fun b => if b = a then some high8 else none

lemma taggedRegion_marked (a : Nat) (high8 : BitVec 8) :
    MarkedV2 arm64Layout (oneTag a high8) taggedRegion taggedPage := by
  have hmarks : taggedRegion.marks = [8, 24] := by decide +kernel
  refine ⟨rfl, ?_, ?_, ?_, fun h => absurd h (by decide)⟩
  · rw [hmarks]
    decide
  · rw [hmarks]
    decide +kernel
  · rw [hmarks]
    decide +kernel

theorem writeSlideInfoV2_roundTrips_iff_followed :
    ∃ info, writeSlideInfoV2 arm64Layout.deltaMask arm64Layout.valueAdd (oneTag 8 0x5A) taggedRegion
        taggedPage = .ok info ∧
      RoundTripsV2 arm64Layout (oneTag 8 0x5A) taggedRegion taggedPage info := by
  have hmarks : taggedRegion.marks = [8, 24] := by decide +kernel
  have hok : (writeSlideInfoV2 arm64Layout.deltaMask arm64Layout.valueAdd (oneTag 8 0x5A)
      taggedRegion taggedPage).isOk = true := by decide +kernel
  cases h : writeSlideInfoV2 arm64Layout.deltaMask arm64Layout.valueAdd (oneTag 8 0x5A) taggedRegion
      taggedPage with
  | error e =>
    rw [h] at hok
    cases hok
  | ok info =>
    refine ⟨info, rfl, ?_⟩
    rw [writeSlideInfoV2_roundTrips_iff _ _ _ _ _ (taggedRegion_marked 8 0x5A) h]
    intro a ha high8 htag
    have ha8 : a = 8 := by
      by_contra hne
      rw [oneTag, if_neg hne] at htag
      cases htag
    subst ha8
    have h5A : high8 = 0x5A := (Option.some.inj htag).symm
    subst h5A
    refine ⟨fun _ => by decide +kernel, fun hnone => absurd ⟨24, ?_, by decide, by decide⟩ hnone⟩
    rw [hmarks]
    simp

theorem writeSlideInfoV2_lastTag_lost :
    MarkedV2 arm64Layout (oneTag 24 0x5A) taggedRegion taggedPage ∧
      ∃ info, writeSlideInfoV2 arm64Layout.deltaMask arm64Layout.valueAdd (oneTag 24 0x5A)
          taggedRegion taggedPage = .ok info ∧
        ¬RoundTripsV2 arm64Layout (oneTag 24 0x5A) taggedRegion taggedPage info := by
  refine ⟨taggedRegion_marked 24 0x5A, ?_⟩
  have hmarks : taggedRegion.marks = [8, 24] := by decide +kernel
  have hread : ((writeSlideInfoV2 arm64Layout.deltaMask arm64Layout.valueAdd (oneTag 24 0x5A)
      taggedRegion taggedPage).toOption.bind (fun info =>
        rebaseDataPagesV2 arm64Layout.deltaMask arm64Layout.valueAdd 0 0x1000 0x1000 info.pageExtras 0
          ⟨info.mem, none, []⟩ info.pageStarts)).map (fun s => load 8 s.mem 24) =
      some 0x00000001A2345678#64 := by decide +kernel
  cases h : writeSlideInfoV2 arm64Layout.deltaMask arm64Layout.valueAdd (oneTag 24 0x5A) taggedRegion
      taggedPage with
  | error e =>
    rw [h] at hread
    cases hread
  | ok info =>
    refine ⟨info, rfl, fun hround => ?_⟩
    obtain ⟨s, hs, hslid, -⟩ := hround 0 0x1000 (by decide)
    have hrun : rebaseDataPagesV2 arm64Layout.deltaMask arm64Layout.valueAdd 0 0x1000 0x1000
        info.pageExtras 0 ⟨info.mem, none, []⟩ info.pageStarts = some s := hs
    rw [h, Except.toOption, Option.bind_some, hrun, Option.map_some, Option.some.injEq] at hread
    have hwant := hslid 24 (by rw [hmarks]; simp)
    have hheld : load 8 taggedPage 24 = 0x00000001A2345678#64 := by decide +kernel
    rw [hread, hheld] at hwant
    exact absurd (hwant (by decide)) (by decide)

end Dyld.SlideInfo
