import Dyld.Cache.HoleMap

/-!
# Selectors in buckets

`AddressSpace` places the selectors of IMP caches in buckets of 128 bytes, and `computeLowBits`
gives them their offsets. A long selector may run over into the buckets after its own. The first
bucket starts with the magic selector, which `canPlaceWithoutFillingOverflowCellAtIndex` does not
count when it asks how far the selectors of that bucket reach.
-/

namespace Dyld.IMPCaches.Buckets

open Dyld.Cache (Hole intOf intOf_eq)

structure Selector where
  name : List UInt8
  deriving DecidableEq

/-- `unsigned int`. -/
def Selector.size (s : Selector) : Nat := (s.name.length + 1) % 2 ^ 32

/-- The length of `magicSelector` with its NUL. -/
def magicSize : Int := 5

def maximumIndex : Nat := 2 ^ 17 - 1

def bagSizeAtIndex (idx : Nat) : Int := if idx ≠ 0 then 128 else 128 - magicSize

/-- The maps `methodsByIndex` and `sizes`, with the keys that they have. -/
structure AddressSpace where
  indices : List Nat
  methodsByIndex : Nat → List Selector
  sizes : Nat → Int

def emptySpace : AddressSpace := ⟨[], fun _ => [], fun _ => 0⟩

namespace AddressSpace

variable (a : AddressSpace)

def sizeAtIndex (idx : Nat) : Int := a.sizes idx

/-- The loop of `sizeAvailableAfterIndex` from index `j` on, for at most the given number of
indices. -/
def availableFrom : Nat → Nat → Int → Int
  | 0, _, available => available
  | n + 1, j, available =>
    if j ∈ a.indices then available else availableFrom n (j + 1) (available + bagSizeAtIndex j)

def sizeAvailableAfterIndex (idx : Nat) : Int :=
  a.availableFrom (maximumIndex - (idx + 1)) (idx + 1) (bagSizeAtIndex idx - a.sizeAtIndex idx)

/-- The loop down from index `j` over the empty buckets: the index it stops at, and their room. -/
def emptyBefore : Nat → Int → Nat × Int
  | 0, available => (0, available)
  | j + 1, available =>
    if a.sizeAtIndex (j + 1) = 0 then emptyBefore j (available + bagSizeAtIndex (j + 1))
    else (j + 1, available)

def canPlaceWithoutFillingOverflowCellAtIndex (idx : Nat) : Bool :=
  if idx = 0 ∨ a.sizeAtIndex idx > 0 then true
  else
    let (j, availableOnOrBefore) := a.emptyBefore idx 0
    decide (a.sizeAtIndex j < availableOnOrBefore)

def canPlaceMethodAtIndex (method : Selector) (idx : Nat) : Bool :=
  let existingSize := a.sizeAtIndex idx
  if !a.canPlaceWithoutFillingOverflowCellAtIndex idx then false
  else
    let available := bagSizeAtIndex idx - existingSize
    let methodSize := intOf method.size
    if available > methodSize then true
    else decide (methodSize > 64 ∧ available > 0 ∧ a.sizeAvailableAfterIndex idx > methodSize)

def placeMethodAtIndex (method : Selector) (idx : Nat) : AddressSpace where
  indices := if idx ∈ a.indices then a.indices else a.indices ++ [idx]
  methodsByIndex := Function.update a.methodsByIndex idx (a.methodsByIndex idx ++ [method])
  sizes := Function.update a.sizes idx (intOf (a.sizes idx + method.size))

end AddressSpace

/-! ### The low bits -/

structure Layout where
  currentEndOffset : Int
  holes : List Hole
  offsets : List ((Selector × Nat) × Int)

/-- The hole in front of a bucket that starts behind the selectors so far. -/
def Layout.openBucket (l : Layout) (index : Nat) : Layout :=
  let bucketOffset : Int := index <<< 7
  if bucketOffset > l.currentEndOffset then
    { l with holes := l.holes ++ [⟨l.currentEndOffset, bucketOffset⟩]
             currentEndOffset := bucketOffset }
  else l

def Layout.addSelector (index : Nat) (l : Layout) (s : Selector) : Layout :=
  { l with offsets := l.offsets ++ [((s, index), l.currentEndOffset)]
           currentEndOffset := intOf (l.currentEndOffset + s.size) }

def AddressSpace.addBucket (a : AddressSpace) (l : Layout) (index : Nat) : Layout :=
  (a.methodsByIndex index).foldl (Layout.addSelector index) (l.openBucket index)

/-- `computeLowBits`; the end of the last selector is `endAddress`. -/
def AddressSpace.computeLowBits (a : AddressSpace) : Layout :=
  (a.indices.mergeSort (fun i j => decide (i ≤ j))).foldl a.addBucket ⟨magicSize, [], []⟩

/-! ### Guarded placements -/

/-- Places the selector if that is allowed, and notes that it did. -/
def placeGuarded (r : AddressSpace × List (Selector × Nat)) (p : Selector × Nat) :
    AddressSpace × List (Selector × Nat) :=
  if r.1.canPlaceMethodAtIndex p.1 p.2 then (r.1.placeMethodAtIndex p.1 p.2, r.2 ++ [p]) else r

def placeAll (ps : List (Selector × Nat)) : AddressSpace × List (Selector × Nat) :=
  ps.foldl placeGuarded (emptySpace, [])

def Apart (a b c d : Int) : Prop := b ≤ c ∨ d ≤ a

structure LaidOut (placed : List (Selector × Nat)) (l : Layout) : Prop where
  all : (l.offsets.map Prod.fst).Perm placed
  bucket : ∀ x ∈ l.offsets, x.2 >>> (7 : Nat) = (x.1.2 : Int)
  selectors : l.offsets.Pairwise (fun x y => Apart x.2 (x.2 + x.1.1.size) y.2 (y.2 + y.1.1.size))
  magic : ∀ x ∈ l.offsets, Apart 0 magicSize x.2 (x.2 + x.1.1.size)
  holes : l.holes.Pairwise (fun h h' => Apart h.startAddress h.endAddress h'.startAddress h'.endAddress)
  holes_magic : ∀ h ∈ l.holes, Apart 0 magicSize h.startAddress h.endAddress
  holes_selectors : ∀ h ∈ l.holes, ∀ x ∈ l.offsets,
    Apart h.startAddress h.endAddress x.2 (x.2 + x.1.1.size)
  holes_below : ∀ h ∈ l.holes, h.startAddress ≤ h.endAddress ∧ h.endAddress ≤ l.currentEndOffset

/-- A step that the checks do not let go wrong: the selector is shorter than 2³¹ bytes, and when
it goes into an empty bucket with only empty ones between it and the first bucket, the selectors
of that one end before it, behind the magic selector. -/
def StepOk (a : AddressSpace) (p : Selector × Nat) : Prop :=
  a.canPlaceMethodAtIndex p.1 p.2 = true →
    p.1.name.length + 1 < 2 ^ 31 ∧
    (p.2 ≠ 0 → (∀ j, 0 < j → j ≤ p.2 → a.methodsByIndex j = []) →
      magicSize + a.sizeAtIndex 0 ≤ 128 * p.2)

/-- All steps of the placements, each in the space that the ones before it have left. -/
def StepsOk (ps : List (Selector × Nat)) : Prop :=
  ∀ l p r, ps = l ++ p :: r → StepOk (placeAll l).1 p

/-! ### What the checks say -/

def total (l : List Selector) : Int := (l.map (fun s => (s.size : Int))).sum

lemma total_append (l : List Selector) (s : Selector) : total (l ++ [s]) = total l + s.size := by
  simp [total]

lemma total_nonneg (l : List Selector) : 0 ≤ total l := by
  apply List.sum_nonneg
  intro x hx
  obtain ⟨s, -, rfl⟩ := List.mem_map.mp hx
  exact Int.natCast_nonneg _

def bucketStart (idx : Nat) : Int := 128 * (idx + 1) - bagSizeAtIndex idx

lemma bucketStart_zero : bucketStart 0 = magicSize := by decide

lemma bucketStart_of_pos {idx : Nat} (h : idx ≠ 0) : bucketStart idx = 128 * idx := by
  unfold bucketStart bagSizeAtIndex
  rw [if_pos h]
  ring

lemma le_bucketStart (idx : Nat) : 128 * (idx : Int) ≤ bucketStart idx := by
  by_cases h : idx = 0
  · rw [h, bucketStart_zero]
    decide
  · rw [bucketStart_of_pos h]

section Checks

variable {a : AddressSpace}

/-- The room after a bucket is that of the empty buckets that follow. -/
lemma availableFrom_spec (n j : Nat) (hj : j ≠ 0) (available : Int) :
    ∃ k ≤ n, a.availableFrom n j available = available + 128 * k ∧
      ∀ i, j ≤ i → i < j + k → i ∉ a.indices := by
  induction n generalizing j available with
  | zero =>
    refine ⟨0, Nat.le_refl _, by simp [AddressSpace.availableFrom], ?_⟩
    intro i h1 h2
    omega
  | succ n ih =>
    rw [AddressSpace.availableFrom]
    split
    · refine ⟨0, Nat.zero_le _, by simp, ?_⟩
      intro i h1 h2
      omega
    · rename_i hfree
      obtain ⟨k, hk, heq, hempty⟩ := ih (j + 1) (by omega) (available + bagSizeAtIndex j)
      have hbag : bagSizeAtIndex j = 128 := if_pos hj
      refine ⟨k + 1, by omega, ?_, ?_⟩
      · rw [heq, hbag]
        push_cast
        ring
      · intro i h1 h2
        rcases Nat.eq_or_lt_of_le h1 with rfl | hlt
        · exact hfree
        · exact hempty i hlt (by omega)

/-- The loop down stops at the next bucket that has selectors, or at the first one. -/
lemma emptyBefore_spec (idx : Nat) (available : Int) :
    ∃ j ≤ idx, a.emptyBefore idx available = (j, available + 128 * ((idx : Int) - j)) ∧
      (∀ i, j < i → i ≤ idx → a.sizeAtIndex i = 0) ∧ (j = 0 ∨ a.sizeAtIndex j ≠ 0) := by
  induction idx generalizing available with
  | zero =>
    refine ⟨0, Nat.le_refl _, by simp [AddressSpace.emptyBefore], ?_, Or.inl rfl⟩
    intro i h1 h2
    omega
  | succ idx ih =>
    rw [AddressSpace.emptyBefore]
    split
    · rename_i hempty
      obtain ⟨j, hj, heq, hbetween, hstop⟩ := ih (available + bagSizeAtIndex (idx + 1))
      have hbag : bagSizeAtIndex (idx + 1) = 128 := if_pos (Nat.succ_ne_zero idx)
      refine ⟨j, by omega, ?_, ?_, hstop⟩
      · rw [heq, hbag]
        congr 1
        push_cast
        ring
      · intro i h1 h2
        rcases Nat.eq_or_lt_of_le h2 with rfl | hlt
        · exact hempty
        · exact hbetween i h1 (by omega)
    · rename_i hfull
      refine ⟨idx + 1, Nat.le_refl _, by simp, ?_, Or.inr hfull⟩
      intro i h1 h2
      omega

lemma canPlace_room {m : Selector} {idx : Nat} (h : a.canPlaceMethodAtIndex m idx = true)
    (hidx : idx < maximumIndex) (hpos : 0 < m.size) (hlt : m.size < 2 ^ 31) :
    a.canPlaceWithoutFillingOverflowCellAtIndex idx = true ∧
    bucketStart idx + a.sizeAtIndex idx < 128 * (idx + 1) ∧
    ∃ k, idx + 1 + k ≤ maximumIndex ∧
      bucketStart idx + a.sizeAtIndex idx + m.size < 128 * (idx + 1 + k) ∧
      ∀ i, idx < i → i < idx + 1 + k → i ∉ a.indices := by
  have hsize : intOf m.size = m.size := intOf_eq (by omega) (by omega)
  unfold AddressSpace.canPlaceMethodAtIndex at h
  dsimp only at h
  rw [hsize] at h
  split at h
  · cases h
  · rename_i hfill
    refine ⟨by simpa using hfill, ?_⟩
    unfold bucketStart
    split at h
    · rename_i hroom
      refine ⟨by omega, 0, by omega, by push_cast; omega, ?_⟩
      intro i h1 h2
      omega
    · rw [decide_eq_true_eq] at h
      obtain ⟨-, havailable, hafter⟩ := h
      obtain ⟨k, hk, heq, hempty⟩ := availableFrom_spec (a := a) (maximumIndex - (idx + 1))
        (idx + 1) (by omega) (bagSizeAtIndex idx - a.sizeAtIndex idx)
      rw [AddressSpace.sizeAvailableAfterIndex, heq] at hafter
      exact ⟨by omega, k, by omega, by omega, hempty⟩

end Checks

/-! ### The space after guarded placements -/

section Space

variable {a : AddressSpace} {placed : List (Selector × Nat)}

/-- The buckets hold what was placed in them, start where they should, and end before the next
bucket that has selectors. -/
structure SpaceInv (a : AddressSpace) (placed : List (Selector × Nat)) : Prop where
  nodup : a.indices.Nodup
  mem : ∀ i, i ∈ a.indices ↔ a.methodsByIndex i ≠ []
  methods : ∀ i, a.methodsByIndex i = (placed.filter (fun p => p.2 == i)).map Prod.fst
  sizes : ∀ i, a.sizeAtIndex i = total (a.methodsByIndex i)
  small : ∀ i, ∀ s ∈ a.methodsByIndex i, 0 < s.size
  inside : ∀ i l s r, a.methodsByIndex i = l ++ s :: r → bucketStart i + total l < 128 * (i + 1)
  apart : ∀ i j, i < j → i ∈ a.indices → j ∈ a.indices →
    bucketStart i + total (a.methodsByIndex i) ≤ 128 * j
  bound : ∀ i ∈ a.indices, bucketStart i + total (a.methodsByIndex i) ≤ 128 * maximumIndex

lemma spaceInv_empty : SpaceInv emptySpace [] := by
  constructor
  · exact List.nodup_nil
  · intro i
    simp [emptySpace]
  · intro i
    rfl
  · intro i
    rfl
  · intro i s hs
    cases hs
  · intro i l s r h
    simp [emptySpace] at h
  · intro i j _ hi _
    cases hi
  · intro i hi
    cases hi

lemma SpaceInv.total_pos (h : SpaceInv a placed) {i : Nat} (hi : i ∈ a.indices) :
    0 < a.sizeAtIndex i := by
  rw [h.sizes]
  cases hm : a.methodsByIndex i with
  | nil => exact absurd hm ((h.mem i).mp hi)
  | cons s l =>
    have hs := h.small i s (by rw [hm]; exact List.mem_cons_self)
    have hl := total_nonneg l
    have htotal : total (s :: l) = s.size + total l := by simp [total]
    rw [htotal]
    omega

lemma SpaceInv.methods_eq_nil (h : SpaceInv a placed) {i : Nat} (hi : a.sizeAtIndex i = 0) :
    a.methodsByIndex i = [] := by
  by_contra hne
  have := h.total_pos ((h.mem i).mpr hne)
  omega

lemma SpaceInv.before_empty (h : SpaceInv a placed) {p : Selector × Nat} (hok : StepOk a p)
    (hplace : a.canPlaceMethodAtIndex p.1 p.2 = true)
    (hfill : a.canPlaceWithoutFillingOverflowCellAtIndex p.2 = true)
    (hnot : p.2 ∉ a.indices) {i : Nat} (hi : i < p.2) (hmem : i ∈ a.indices) :
    bucketStart i + total (a.methodsByIndex i) ≤ 128 * p.2 := by
  have hempty : a.methodsByIndex p.2 = [] := by
    by_contra hne
    exact hnot ((h.mem _).mpr hne)
  have hzero : a.sizeAtIndex p.2 = 0 := by
    rw [h.sizes, hempty]
    rfl
  obtain ⟨j, hj, heq, hbetween, hstop⟩ := emptyBefore_spec (a := a) p.2 0
  unfold AddressSpace.canPlaceWithoutFillingOverflowCellAtIndex at hfill
  rw [if_neg (by omega), heq] at hfill
  simp only [decide_eq_true_eq, Int.zero_add] at hfill
  have hij : i ≤ j := by
    by_contra hlt
    have := h.total_pos hmem
    have := hbetween i (by omega) (by omega)
    omega
  by_cases hj0 : j = 0
  · -- only the first bucket comes before
    obtain rfl : i = 0 := by omega
    subst hj0
    have hfirst := (hok hplace).2 (by omega) (fun j h1 h2 => h.methods_eq_nil (hbetween j h1 h2))
    rw [← h.sizes, bucketStart_zero]
    exact hfirst
  · have hfull : j ∈ a.indices := by
      rcases hstop with hj' | hne
      · exact absurd hj' hj0
      · rw [h.mem]
        intro hnil
        apply hne
        rw [h.sizes, hnil]
        rfl
    rcases Nat.eq_or_lt_of_le hij with rfl | hlt
    · rw [← h.sizes, bucketStart_of_pos hj0]
      omega
    · have := h.apart i j hlt hmem hfull
      omega

section Placed

variable {m : Selector} {idx : Nat}

lemma mem_indices_place {i : Nat} :
    i ∈ (a.placeMethodAtIndex m idx).indices ↔ i = idx ∨ i ∈ a.indices := by
  unfold AddressSpace.placeMethodAtIndex
  dsimp only
  split
  · rename_i hmem
    constructor
    · exact Or.inr
    · rintro (rfl | hi)
      · exact hmem
      · exact hi
  · rw [List.mem_append, List.mem_singleton, or_comm]

lemma nodup_indices_place (h : a.indices.Nodup) : (a.placeMethodAtIndex m idx).indices.Nodup := by
  unfold AddressSpace.placeMethodAtIndex
  dsimp only
  split
  · exact h
  · rename_i hmem
    rw [List.nodup_append]
    refine ⟨h, List.nodup_singleton _, ?_⟩
    rintro i hi j hj rfl
    rw [List.mem_singleton.mp hj] at hi
    exact hmem hi

lemma methodsByIndex_place_self :
    (a.placeMethodAtIndex m idx).methodsByIndex idx = a.methodsByIndex idx ++ [m] :=
  Function.update_self _ _ _

lemma methodsByIndex_place_of_ne {i : Nat} (hi : i ≠ idx) :
    (a.placeMethodAtIndex m idx).methodsByIndex i = a.methodsByIndex i :=
  Function.update_of_ne hi _ _

lemma sizeAtIndex_place_self :
    (a.placeMethodAtIndex m idx).sizeAtIndex idx = intOf (a.sizes idx + m.size) :=
  Function.update_self _ _ _

lemma sizeAtIndex_place_of_ne {i : Nat} (hi : i ≠ idx) :
    (a.placeMethodAtIndex m idx).sizeAtIndex i = a.sizeAtIndex i :=
  Function.update_of_ne hi _ _

end Placed

/-- A guarded placement that meets the condition keeps the buckets in order. -/
lemma SpaceInv.place (h : SpaceInv a placed) {p : Selector × Nat} (hok : StepOk a p)
    (hidx : p.2 < maximumIndex) (hplace : a.canPlaceMethodAtIndex p.1 p.2 = true) :
    SpaceInv (a.placeMethodAtIndex p.1 p.2) (placed ++ [p]) := by
  obtain ⟨m, idx⟩ := p
  dsimp only at hidx hplace ⊢
  have hname : m.name.length + 1 < 2 ^ 31 := (hok hplace).1
  have hsize : m.size = m.name.length + 1 := Nat.mod_eq_of_lt (by omega)
  obtain ⟨hfill, hinside, k, hk, hroom, hfree⟩ :=
    canPlace_room hplace hidx (by omega) (by omega)
  rw [h.sizes] at hinside hroom
  have hstart := le_bucketStart idx
  have hnonneg := total_nonneg (a.methodsByIndex idx)
  have hmax : 128 * (maximumIndex : Int) < 2 ^ 31 := by decide
  constructor
  · exact nodup_indices_place h.nodup
  · intro i
    rw [mem_indices_place]
    by_cases hi : i = idx
    · simp [hi, methodsByIndex_place_self]
    · rw [methodsByIndex_place_of_ne hi, h.mem]
      simp [hi]
  · intro i
    by_cases hi : i = idx
    · rw [hi, methodsByIndex_place_self, h.methods]
      simp
    · rw [methodsByIndex_place_of_ne hi, h.methods]
      simp [Ne.symm hi]
  · intro i
    by_cases hi : i = idx
    · subst hi
      have hold : a.sizes i = total (a.methodsByIndex i) := h.sizes i
      rw [sizeAtIndex_place_self, methodsByIndex_place_self, total_append, hold,
        intOf_eq (by omega) (by omega)]
    · rw [methodsByIndex_place_of_ne hi, ← h.sizes]
      exact sizeAtIndex_place_of_ne hi
  · intro i s hs
    by_cases hi : i = idx
    · rw [hi, methodsByIndex_place_self, List.mem_append, List.mem_singleton] at hs
      rcases hs with hs | rfl
      · exact h.small idx s hs
      · omega
    · rw [methodsByIndex_place_of_ne hi] at hs
      exact h.small i s hs
  · intro i l s r hsplit
    by_cases hi : i = idx
    · subst hi
      rw [methodsByIndex_place_self] at hsplit
      rcases List.eq_nil_or_concat r with rfl | ⟨r', x, rfl⟩
      · -- the new selector starts after the others
        have hl := (List.append_inj' hsplit rfl).1
        rw [← hl]
        exact hinside
      · have hl : a.methodsByIndex i = l ++ s :: r' := by
          rw [List.concat_eq_append, ← List.cons_append, ← List.append_assoc] at hsplit
          exact (List.append_inj' hsplit rfl).1
        exact h.inside i l s r' hl
    · rw [methodsByIndex_place_of_ne hi] at hsplit
      exact h.inside i l s r hsplit
  · intro i j hij hi hj
    rw [mem_indices_place] at hi hj
    by_cases hii : i = idx
    · subst hii
      rw [methodsByIndex_place_self, total_append]
      have hj' : j ∈ a.indices := hj.resolve_left (by omega)
      have hge : i + 1 + k ≤ j := by
        by_contra hlt
        exact hfree j hij (by omega) hj'
      omega
    · rw [methodsByIndex_place_of_ne hii]
      have hi' : i ∈ a.indices := hi.resolve_left hii
      rcases hj with rfl | hj'
      · by_cases hmem : j ∈ a.indices
        · exact h.apart i j hij hi' hmem
        · exact h.before_empty hok hplace hfill hmem hij hi'
      · exact h.apart i j hij hi' hj'
  · intro i hi
    rw [mem_indices_place] at hi
    by_cases hii : i = idx
    · subst hii
      rw [methodsByIndex_place_self, total_append]
      omega
    · rw [methodsByIndex_place_of_ne hii]
      exact h.bound i (hi.resolve_left hii)

lemma placeAll_append (ps : List (Selector × Nat)) (p : Selector × Nat) :
    placeAll (ps ++ [p]) = placeGuarded (placeAll ps) p := by
  simp [placeAll]

/-- The run lemma: all states of a run whose steps meet the condition are in order. -/
lemma placeAll_inv (ps : List (Selector × Nat)) (hidx : ∀ p ∈ ps, p.2 < maximumIndex)
    (hok : StepsOk ps) : SpaceInv (placeAll ps).1 (placeAll ps).2 := by
  induction ps using List.reverseRecOn with
  | nil => exact spaceInv_empty
  | append_singleton ps p ih =>
    have hps : StepsOk ps := by
      intro l q r heq
      exact hok l q (r ++ [p]) (by rw [heq]; simp)
    have hinv := ih (fun q hq => hidx q (List.mem_append_left _ hq)) hps
    have hstep := hok ps p [] rfl
    rw [placeAll_append, placeGuarded]
    split
    · rename_i hplace
      exact hinv.place hstep (hidx p (by simp)) hplace
    · exact hinv

end Space

/-! ### The layout of a space -/

section Low

variable {a : AddressSpace} {placed : List (Selector × Nat)} {l : Layout}

structure LayoutInv (l : Layout) : Prop where
  current : magicSize ≤ l.currentEndOffset
  selector : ∀ x ∈ l.offsets, magicSize ≤ x.2 ∧ x.2 + x.1.1.size ≤ l.currentEndOffset
  bucket : ∀ x ∈ l.offsets, x.2 >>> (7 : Nat) = (x.1.2 : Int)
  selectors : l.offsets.Pairwise (fun x y => Apart x.2 (x.2 + x.1.1.size) y.2 (y.2 + y.1.1.size))
  hole : ∀ h ∈ l.holes, magicSize ≤ h.startAddress ∧ h.startAddress ≤ h.endAddress ∧
    h.endAddress ≤ l.currentEndOffset
  holes : l.holes.Pairwise (fun h h' => Apart h.startAddress h.endAddress h'.startAddress h'.endAddress)
  holes_selectors : ∀ h ∈ l.holes, ∀ x ∈ l.offsets,
    Apart h.startAddress h.endAddress x.2 (x.2 + x.1.1.size)

lemma layoutInv_start : LayoutInv ⟨magicSize, [], []⟩ := by
  constructor <;> simp

lemma pairwise_append_singleton {α : Type} {R : α → α → Prop} {xs : List α} {x : α}
    (h : xs.Pairwise R) (hx : ∀ y ∈ xs, R y x) : (xs ++ [x]).Pairwise R := by
  rw [List.pairwise_append]
  refine ⟨h, List.pairwise_singleton _ _, ?_⟩
  intro y hy z hz
  rw [List.mem_singleton.mp hz]
  exact hx y hy

lemma LayoutInv.addSelector (h : LayoutInv l) {s : Selector} {index : Nat}
    (hlow : 128 * (index : Int) ≤ l.currentEndOffset)
    (hhigh : l.currentEndOffset < 128 * (index + 1))
    (hsmall : l.currentEndOffset + s.size < 2 ^ 31) :
    LayoutInv (l.addSelector index s) := by
  have hmagic : (0 : Int) ≤ magicSize := by decide
  have hcurrent := h.current
  have hend : (l.addSelector index s).currentEndOffset = l.currentEndOffset + s.size :=
    intOf_eq (by omega) hsmall
  have hoffsets : (l.addSelector index s).offsets =
      l.offsets ++ [((s, index), l.currentEndOffset)] := rfl
  have hholes : (l.addSelector index s).holes = l.holes := rfl
  constructor
  · rw [hend]
    omega
  · rw [hend, hoffsets]
    intro x hx
    rcases List.mem_append.mp hx with hx | hx
    · have := h.selector x hx
      omega
    · rw [List.mem_singleton.mp hx]
      exact ⟨hcurrent, le_refl _⟩
  · rw [hoffsets]
    intro x hx
    rcases List.mem_append.mp hx with hx | hx
    · exact h.bucket x hx
    · rw [List.mem_singleton.mp hx, Int.shiftRight_eq_div_pow]
      dsimp only
      omega
  · rw [hoffsets]
    apply pairwise_append_singleton h.selectors
    intro x hx
    exact Or.inl (h.selector x hx).2
  · rw [hend, hholes]
    intro x hx
    have := h.hole x hx
    omega
  · exact h.holes
  · rw [hoffsets, hholes]
    intro x hx y hy
    rcases List.mem_append.mp hy with hy | hy
    · exact h.holes_selectors x hx y hy
    · rw [List.mem_singleton.mp hy]
      exact Or.inl (h.hole x hx).2.2

lemma LayoutInv.openBucket (h : LayoutInv l) {index : Nat}
    (hle : l.currentEndOffset ≤ bucketStart index) :
    LayoutInv (l.openBucket index) ∧ (l.openBucket index).currentEndOffset = bucketStart index ∧
      (l.openBucket index).offsets = l.offsets := by
  have hcurrent := h.current
  have hshift : ((index <<< 7 : Nat) : Int) = 128 * index := by
    rw [Nat.shiftLeft_eq]
    push_cast
    ring
  have hstart : bucketStart index = 128 * index ∨ index = 0 ∧ bucketStart index = magicSize := by
    by_cases h0 : index = 0
    · right
      rw [h0]
      exact ⟨rfl, bucketStart_zero⟩
    · exact Or.inl (bucketStart_of_pos h0)
  unfold Layout.openBucket
  dsimp only
  rw [hshift]
  split
  · rename_i hgap
    have heq : bucketStart index = 128 * index := by
      rcases hstart with heq | ⟨h0, -⟩
      · exact heq
      · subst h0
        have hmagic : (0 : Int) ≤ magicSize := by decide
        push_cast at hgap
        omega
    refine ⟨?_, heq.symm, rfl⟩
    constructor
    · dsimp only
      omega
    · intro x hx
      have := h.selector x hx
      dsimp only
      omega
    · exact h.bucket
    · exact h.selectors
    · dsimp only
      intro x hx
      rcases List.mem_append.mp hx with hx | hx
      · have := h.hole x hx
        omega
      · rw [List.mem_singleton.mp hx]
        dsimp only
        omega
    · apply pairwise_append_singleton h.holes
      intro x hx
      exact Or.inl (h.hole x hx).2.2
    · dsimp only
      intro x hx y hy
      rcases List.mem_append.mp hx with hx | hx
      · exact h.holes_selectors x hx y hy
      · rw [List.mem_singleton.mp hx]
        exact Or.inr (h.selector y hy).2
  · rename_i hgap
    refine ⟨h, ?_, rfl⟩
    rcases hstart with heq | ⟨-, heq⟩
    · omega
    · omega

lemma addSelectors_inv (hinv : SpaceInv a placed) {index : Nat} (hindex : index ∈ a.indices)
    (done rest : List Selector) (hsplit : a.methodsByIndex index = done ++ rest)
    (h : LayoutInv l) (hcurrent : l.currentEndOffset = bucketStart index + total done) :
    LayoutInv (rest.foldl (Layout.addSelector index) l) ∧
      (rest.foldl (Layout.addSelector index) l).currentEndOffset =
        bucketStart index + total (a.methodsByIndex index) ∧
      (rest.foldl (Layout.addSelector index) l).offsets.map Prod.fst =
        l.offsets.map Prod.fst ++ rest.map (fun s => (s, index)) := by
  induction rest generalizing done l with
  | nil =>
    rw [List.append_nil] at hsplit
    rw [hsplit]
    exact ⟨h, hcurrent, by simp⟩
  | cons s rest ih =>
    have hstart := le_bucketStart index
    have hdone := total_nonneg done
    have hin := hinv.inside index done s rest hsplit
    have hbound := hinv.bound index hindex
    have hrest := total_nonneg rest
    have htotal : total (a.methodsByIndex index) = total done + s.size + total rest := by
      rw [hsplit]
      simp [total, add_assoc]
    have hmax : 128 * (maximumIndex : Int) < 2 ^ 31 := by decide
    have hmagic : (0 : Int) ≤ magicSize := by decide
    have hadd : LayoutInv (l.addSelector index s) :=
      h.addSelector (by omega) (by omega) (by omega)
    have hend : (l.addSelector index s).currentEndOffset = bucketStart index + total (done ++ [s]) := by
      rw [total_append, ← add_assoc, ← hcurrent]
      exact intOf_eq (by omega) (by omega)
    obtain ⟨h1, h2, h3⟩ := ih (done ++ [s]) (by rw [hsplit]; simp) hadd hend
    refine ⟨h1, h2, ?_⟩
    rw [List.foldl_cons, h3]
    simp [Layout.addSelector]

/-- Going through the buckets in order puts each at its start. -/
lemma addBuckets_inv (hinv : SpaceInv a placed) (indices : List Nat)
    (hsorted : indices.Pairwise (fun i j => i < j)) (hmem : ∀ i ∈ indices, i ∈ a.indices)
    (h : LayoutInv l) (hle : ∀ i ∈ indices, l.currentEndOffset ≤ bucketStart i) :
    LayoutInv (indices.foldl a.addBucket l) ∧
      (indices.foldl a.addBucket l).offsets.map Prod.fst = l.offsets.map Prod.fst ++
        indices.flatMap (fun i => (a.methodsByIndex i).map (fun s => (s, i))) := by
  induction indices generalizing l with
  | nil => exact ⟨h, by simp⟩
  | cons i indices ih =>
    rw [List.pairwise_cons] at hsorted
    have hi := hmem i List.mem_cons_self
    obtain ⟨hopen, hstart, hoffsets⟩ := h.openBucket (hle i List.mem_cons_self)
    obtain ⟨hadd, hend, hmap⟩ : LayoutInv (a.addBucket l i) ∧
        (a.addBucket l i).currentEndOffset = bucketStart i + total (a.methodsByIndex i) ∧
        (a.addBucket l i).offsets.map Prod.fst = (l.openBucket i).offsets.map Prod.fst ++
          (a.methodsByIndex i).map (fun s => (s, i)) :=
      addSelectors_inv hinv hi [] (a.methodsByIndex i) rfl hopen (by rw [hstart]; simp [total])
    have hnext : ∀ j ∈ indices, (a.addBucket l i).currentEndOffset ≤ bucketStart j := by
      intro j hj
      rw [hend]
      have := hinv.apart i j (hsorted.1 j hj) hi (hmem j (List.mem_cons_of_mem _ hj))
      have := le_bucketStart j
      omega
    obtain ⟨h1, h2⟩ := ih hsorted.2 (fun j hj => hmem j (List.mem_cons_of_mem _ hj)) hadd hnext
    refine ⟨h1, ?_⟩
    rw [List.foldl_cons, h2, hmap, hoffsets, List.flatMap_cons, List.append_assoc]

/-- Taking the elements with each key in turn gives all elements. -/
lemma flatMap_filter_perm {α : Type} (key : α → Nat) (keys : List Nat) (hkeys : keys.Nodup)
    (xs : List α) (hall : ∀ x ∈ xs, key x ∈ keys) :
    (keys.flatMap (fun k => xs.filter (fun x => key x == k))).Perm xs := by
  induction keys generalizing xs with
  | nil =>
    cases xs with
    | nil => exact List.Perm.refl _
    | cons x xs => exact absurd (hall x List.mem_cons_self) (List.not_mem_nil)
  | cons k keys ih =>
    rw [List.nodup_cons] at hkeys
    have hrest := ih hkeys.2 (xs.filter (fun x => !(key x == k))) (by
      intro x hx
      rw [List.mem_filter] at hx
      have hne : key x ≠ k := by simpa using hx.2
      exact (List.mem_cons.mp (hall x hx.1)).resolve_left hne)
    have hsame : keys.flatMap (fun k' => (xs.filter (fun x => !(key x == k))).filter
        (fun x => key x == k')) = keys.flatMap (fun k' => xs.filter (fun x => key x == k')) := by
      apply List.flatMap_congr
      intro k' hk'
      rw [List.filter_filter]
      apply List.filter_congr
      intro x _
      by_cases hx : key x = k'
      · have : k' ≠ k := fun heq => hkeys.1 (heq ▸ hk')
        simp [hx, this]
      · simp [hx]
    rw [hsame] at hrest
    rw [List.flatMap_cons]
    exact (hrest.append_left _).trans (List.filter_append_perm _ _)

lemma SpaceInv.laidOut (h : SpaceInv a placed) : LaidOut placed a.computeLowBits := by
  have hperm := List.mergeSort_perm a.indices (fun i j => decide (i ≤ j))
  have hnodup : (a.indices.mergeSort (fun i j => decide (i ≤ j))).Nodup :=
    hperm.nodup_iff.mpr h.nodup
  have hsorted : (a.indices.mergeSort (fun i j => decide (i ≤ j))).Pairwise (fun i j => i < j) := by
    have hle : (a.indices.mergeSort (fun i j => decide (i ≤ j))).Pairwise
        (fun i j => decide (i ≤ j) = true) :=
      List.pairwise_mergeSort (by intro x y z; simp; omega) (by intro x y; simp; omega) a.indices
    exact (hle.and hnodup).imp (fun {i j} hij => by
      have := of_decide_eq_true hij.1
      have := hij.2
      omega)
  obtain ⟨hinv, hoffsets⟩ := addBuckets_inv h _ hsorted (fun i hi => hperm.mem_iff.mp hi)
    layoutInv_start (by
      intro i _
      by_cases h0 : i = 0
      · rw [h0, bucketStart_zero]
      · rw [bucketStart_of_pos h0]
        have : magicSize = 5 := rfl
        dsimp only
        omega)
  have hkeys : ∀ i, (a.methodsByIndex i).map (fun s => (s, i)) =
      placed.filter (fun p => p.2 == i) := by
    intro i
    rw [h.methods, List.map_map]
    conv_rhs => rw [← List.map_id (placed.filter (fun p => p.2 == i))]
    apply List.map_congr_left
    intro p hp
    have hpi : p.2 = i := by simpa using (List.mem_filter.mp hp).2
    rw [← hpi]
    rfl
  constructor
  · rw [AddressSpace.computeLowBits, hoffsets]
    simp only [hkeys, List.map_nil, List.nil_append]
    apply flatMap_filter_perm Prod.snd _ hnodup
    intro p hp
    rw [hperm.mem_iff, h.mem, h.methods]
    intro hnil
    have hmem : p.1 ∈ (placed.filter (fun q => q.2 == p.2)).map Prod.fst :=
      List.mem_map_of_mem (List.mem_filter.mpr ⟨hp, by simp⟩)
    rw [hnil] at hmem
    cases hmem
  · exact hinv.bucket
  · exact hinv.selectors
  · intro x hx
    exact Or.inl (hinv.selector x hx).1
  · exact hinv.holes
  · intro x hx
    exact Or.inl (hinv.hole x hx).1
  · exact hinv.holes_selectors
  · intro x hx
    exact (hinv.hole x hx).2

end Low

/-- In every run of guarded placements whose steps meet the condition, the selectors get offsets in
their buckets, and nothing overlaps. -/
theorem placeAll_laidOut (ps : List (Selector × Nat)) (hidx : ∀ p ∈ ps, p.2 < maximumIndex)
    (hok : StepsOk ps) : LaidOut (placeAll ps).2 (placeAll ps).1.computeLowBits :=
  (placeAll_inv ps hidx hok).laidOut

def selectorOfSize (n : Nat) : Selector := ⟨List.replicate (n - 1) 0x61⟩

lemma stepsOk_nil : StepsOk [] := fun l _ _ h => absurd h.symm (by simp)

lemma StepsOk.concat {ps : List (Selector × Nat)} {p : Selector × Nat} (h : StepsOk ps)
    (hp : StepOk (placeAll ps).1 p) : StepsOk (ps ++ [p]) := by
  intro l q r heq
  rcases List.eq_nil_or_concat r with rfl | ⟨r', last, rfl⟩
  · obtain ⟨rfl, hq⟩ := List.append_inj' heq rfl
    exact List.head_eq_of_cons_eq hq ▸ hp
  · rw [List.concat_eq_append, ← List.cons_append, ← List.append_assoc] at heq
    exact h l q r' (List.append_inj' heq rfl).1

/-- The second bucket runs over into the next one, where a selector is then refused. -/
def sharingRun : List (Selector × Nat) :=
  [(selectorOfSize 10, 7), (selectorOfSize 60, 1), (selectorOfSize 100, 1), (selectorOfSize 3, 2),
    (selectorOfSize 20, 3)]

theorem placeAll_laidOut_sharing :
    StepsOk sharingRun ∧
      (placeAll sharingRun).2 = [(selectorOfSize 10, 7), (selectorOfSize 60, 1),
        (selectorOfSize 100, 1), (selectorOfSize 20, 3)] ∧
      LaidOut (placeAll sharingRun).2 (placeAll sharingRun).1.computeLowBits := by
  have hok : StepsOk sharingRun := by
    refine StepsOk.concat (StepsOk.concat (StepsOk.concat (StepsOk.concat (StepsOk.concat stepsOk_nil
      ?_) ?_) ?_) ?_) ?_
    all_goals exact fun _ => ⟨by decide +kernel, fun _ _ => by decide +kernel⟩
  exact ⟨hok, by decide +kernel, placeAll_laidOut _ (by decide +kernel) hok⟩

lemma le_availableFrom (a : AddressSpace) (n j : Nat) (available : Int) :
    available ≤ a.availableFrom n j available := by
  induction n generalizing j available with
  | zero => exact le_refl _
  | succ n ih =>
    rw [AddressSpace.availableFrom]
    split
    · exact le_refl _
    · have hbag : 0 ≤ bagSizeAtIndex j := by
        unfold bagSizeAtIndex magicSize
        split <;> decide
      have := ih (j + 1) (available + bagSizeAtIndex j)
      omega

lemma canPlace_over_first : emptySpace.canPlaceMethodAtIndex (selectorOfSize 127) 0 = true := by
  have hafter : emptySpace.sizeAvailableAfterIndex 0 > 127 := by
    have hnext := le_availableFrom emptySpace 131069 2 (123 + 128)
    have hfrom : emptySpace.sizeAvailableAfterIndex 0 =
        emptySpace.availableFrom (131069 + 1) 1 123 := rfl
    have hempty : 1 ∉ emptySpace.indices := List.not_mem_nil
    rw [hfrom, AddressSpace.availableFrom, if_neg hempty]
    exact lt_of_lt_of_le (by decide) hnext
  have hsize : intOf (selectorOfSize 127).size = 127 := by decide +kernel
  unfold AddressSpace.canPlaceMethodAtIndex
  dsimp only
  rw [hsize, if_neg (by decide), if_neg (by decide), decide_eq_true_eq]
  exact ⟨by decide, by decide, hafter⟩

/-- The selectors of the first bucket end at offset 132, so the two of the second bucket start
there, and the last of them starts at 256, in the third. -/
theorem overfull_first_bucket :
    ¬ LaidOut (placeAll [(selectorOfSize 127, 0), (selectorOfSize 124, 1), (selectorOfSize 2, 1)]).2
      (placeAll [(selectorOfSize 127, 0), (selectorOfSize 124, 1),
        (selectorOfSize 2, 1)]).1.computeLowBits := by
  have hsecond : (emptySpace.placeMethodAtIndex (selectorOfSize 127) 0).canPlaceMethodAtIndex
      (selectorOfSize 124) 1 = true := by decide +kernel
  have hthird : ((emptySpace.placeMethodAtIndex (selectorOfSize 127) 0).placeMethodAtIndex
      (selectorOfSize 124) 1).canPlaceMethodAtIndex (selectorOfSize 2) 1 = true := by
    decide +kernel
  have hspace : (placeAll [(selectorOfSize 127, 0), (selectorOfSize 124, 1),
      (selectorOfSize 2, 1)]).1 =
      (((emptySpace.placeMethodAtIndex (selectorOfSize 127) 0).placeMethodAtIndex
        (selectorOfSize 124) 1).placeMethodAtIndex (selectorOfSize 2) 1) := by
    simp [placeAll, placeGuarded, canPlace_over_first, hsecond, hthird]
  intro hlaid
  have hsort : [0, 1].mergeSort (fun i j => decide (i ≤ j)) = [0, 1] :=
    List.mergeSort_of_pairwise (by decide)
  have hmem : ((selectorOfSize 2, 1), (256 : Int)) ∈ (placeAll [(selectorOfSize 127, 0),
      (selectorOfSize 124, 1), (selectorOfSize 2, 1)]).1.computeLowBits.offsets := by
    have hindices : (placeAll [(selectorOfSize 127, 0), (selectorOfSize 124, 1),
        (selectorOfSize 2, 1)]).1.indices = [0, 1] := by
      rw [hspace]
      decide +kernel
    rw [AddressSpace.computeLowBits, hindices, hsort, hspace]
    decide +kernel
  exact absurd (hlaid.bucket _ hmem) (by decide)

end Dyld.IMPCaches.Buckets
