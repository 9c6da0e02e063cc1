import Mathlib

/-!
# Placing the selectors of a class

The hash tables of preoptimized method caches: a class looks a selector up by some bits of
its bucket index, so its selectors need different values there. `applyAttempt` fixes those
bits of the selectors for one shift and mask, and `backtrack` undoes a successful attempt.
Selectors are shared between classes. The order that `std::sort` gives to equally constrained
selectors and the permutations of `std::shuffle` are arbitrary.
-/

namespace Dyld.IMPCaches

/-! ### Data -/

structure Selector where
  fixedBitsMask : Nat
  inProgressBucketIndex : Nat
  deriving DecidableEq, Repr

/-- The library calls whose results are not determined by the source: `sort` of selectors by a
key, and `shuffle` of the numbers below a bound, where the states of the random number
generator are the positions in the sequence of its results. -/
structure Choices (ι : Type) where
  sort : (ι → Nat) → List ι → List ι
  sort_perm : ∀ key l, (sort key l).Perm l
  shuffle : Nat → Nat → List Nat
  shuffle_perm : ∀ g n, (shuffle g n).Perm (List.range n)

structure PlacementAttempt where
  numberOfBitsToSet : Nat
  shift : Nat
  neededBits : Nat
  deriving DecidableEq, Repr

namespace PlacementAttempt

def mask (a : PlacementAttempt) : Nat := (1 <<< a.neededBits) - 1

def shiftedMask (a : PlacementAttempt) : Nat := a.mask <<< a.shift

def le (l r : PlacementAttempt) : Bool :=
  decide (l.neededBits < r.neededBits ∨ l.neededBits = r.neededBits ∧
    (l.numberOfBitsToSet < r.numberOfBitsToSet ∨ l.numberOfBitsToSet = r.numberOfBitsToSet ∧
      l.shift ≤ r.shift))

end PlacementAttempt

/-- The fields of a class that the search changes. -/
structure ClassState where
  shift : Nat
  neededBits : Nat
  shouldGenerateImpCache : Bool
  droppedBecauseFlatteningSuperclassWasDropped : Bool
  deriving DecidableEq, Repr

def ClassState.mask (c : ClassState) : Nat := (1 <<< c.neededBits) - 1

/-- The selectors, by identity. -/
abbrev Selectors (ι : Type) := ι → Selector

structure PreviousState (ι : Type) where
  neededBits : Nat
  shift : Nat
  methods : ι → Option Selector

structure Result (ι : Type) where
  success : Bool
  previousState : PreviousState ι

/-- What an attempt returns, and what it leaves behind. -/
structure Outcome (ι : Type) where
  result : Result ι
  selectors : Selectors ι
  classState : ClassState
  randomNumberGenerator : Nat

/-! ### Attempts -/

def popcount (n : Nat) : Nat := ((List.range 32).filter (fun i => n.testBit i)).length

def Selector.numberOfBitsToSet (s : Selector) (shift mask : Nat) : Nat :=
  popcount mask - popcount ((s.fixedBitsMask >>> shift) &&& mask)

section Attempts

variable {ι : Type} [DecidableEq ι] (choices : Choices ι) (methods : List ι) (c : ClassState)
  (selectors : Selectors ι)

def attemptForShift (shiftToTry neededBitsToTry : Nat) : PlacementAttempt :=
  ⟨(methods.map (fun m => (selectors m).numberOfBitsToSet shiftToTry
    ((1 <<< neededBitsToTry) - 1))).sum, shiftToTry, neededBitsToTry⟩

/-- All shifts for the needed bits and for one bit more, where both fit 17 bits. -/
def attempts : List PlacementAttempt :=
  ([c.neededBits, c.neededBits + 1].flatMap (fun i =>
    (List.range (18 - i)).map (fun shiftToTry => attemptForShift methods selectors shiftToTry i)))
    |>.insertionSort (fun l r => PlacementAttempt.le l r)

variable (attempt : PlacementAttempt)

def PlacementAttempt.slot (index : Nat) : Nat := (index >>> attempt.shift) &&& attempt.mask

def PlacementAttempt.fits (s : Selector) (slots : Nat → Bool) (i : Nat) : Bool :=
  let futureAddress := s.inProgressBucketIndex ||| (i <<< attempt.shift)
  futureAddress &&& s.fixedBitsMask == s.inProgressBucketIndex &&& s.fixedBitsMask &&
    !slots (attempt.slot futureAddress)

/-- The addresses of the selectors in order, if each finds a free slot, and the position of the
random number generator. -/
def findAddresses : List ι → (Nat → Bool) → Nat → Option (List Nat) × Nat
  | [], _, g => (some [], g)
  | m :: sortedMethods, slots, g =>
    let s := selectors m
    if s.fixedBitsMask &&& attempt.shiftedMask = attempt.shiftedMask then
      let index := attempt.slot s.inProgressBucketIndex
      if slots index then (none, g)
      else
        let r := findAddresses sortedMethods (Function.update slots index true) g
        (r.1.map (index :: ·), r.2)
    else
      match (choices.shuffle g (1 <<< attempt.neededBits)).find? (attempt.fits s slots) with
      | none => (none, g + 1)
      | some i =>
        let slot := attempt.slot (s.inProgressBucketIndex ||| (i <<< attempt.shift))
        let r := findAddresses sortedMethods (Function.update slots slot true) (g + 1)
        (r.1.map (i :: ·), r.2)

def PlacementAttempt.place (s : Selector) (address : Nat) : Selector :=
  ⟨s.fixedBitsMask ||| attempt.shiftedMask, s.inProgressBucketIndex ||| (address <<< attempt.shift)⟩

/-- Sets the bits of the selectors one after the other and records what they were. -/
def placeAll : List (ι × Nat) → Selectors ι → (ι → Option Selector) →
    Selectors ι × (ι → Option Selector)
  | [], selectors, previousMethods => (selectors, previousMethods)
  | (m, address) :: rest, selectors, previousMethods =>
    placeAll rest (Function.update selectors m (attempt.place (selectors m) address))
      (Function.update previousMethods m (some (selectors m)))

/-- `ClassData::applyAttempt`, from a position of the random number generator. -/
def applyAttempt (g : Nat) : Outcome ι :=
  let sortedMethods := choices.sort
    (fun m => (selectors m).numberOfBitsToSet attempt.shift attempt.mask) methods
  match findAddresses choices selectors attempt sortedMethods (fun _ => false) g with
  | (none, g) => ⟨⟨false, 0, 0, fun _ => none⟩, selectors, c, g⟩
  | (some addresses, g) =>
    let p := placeAll attempt (sortedMethods.zip addresses) selectors (fun _ => none)
    ⟨⟨true, c.neededBits, c.shift, p.2⟩, p.1,
      { c with shift := attempt.shift, neededBits := attempt.neededBits }, g⟩

def backtrack (result : Result ι) : Selectors ι × ClassState :=
  if result.success then
    (fun m => if m ∈ methods then (result.previousState.methods m).getD ⟨0, 0⟩ else selectors m,
      { c with shift := result.previousState.shift, neededBits := result.previousState.neededBits })
  else (selectors, c)

/-- `ClassData::checkConsistency`: no two methods look up the same slot. -/
def checkConsistency (c : ClassState) (selectors : Selectors ι) :
    List ι → (Nat → Bool) → Bool
  | [], _ => true
  | m :: methods, slots =>
    let slotIndex := ((selectors m).inProgressBucketIndex >>> c.shift) &&& c.mask
    if slots slotIndex then false
    else checkConsistency c selectors methods (Function.update slots slotIndex true)

end Attempts

/-! ### Bits of one selector -/

def Selector.Extends (s s' : Selector) : Prop :=
  ∀ i, s.fixedBitsMask.testBit i = true → s'.fixedBitsMask.testBit i = true ∧
    s'.inProgressBucketIndex.testBit i = s.inProgressBucketIndex.testBit i

/-- All bits that a table with this shift and this many bits looks at are fixed. -/
def Selector.Covers (s : Selector) (shift neededBits : Nat) : Prop :=
  (s.fixedBitsMask >>> shift) &&& ((1 <<< neededBits) - 1) = (1 <<< neededBits) - 1

section Bits

variable {s s' s'' : Selector} {attempt : PlacementAttempt} {i address shift neededBits : Nat}

lemma Selector.Extends.refl (s : Selector) : s.Extends s := by
  intro i h
  exact ⟨h, rfl⟩

lemma Selector.Extends.trans (h : s.Extends s') (h' : s'.Extends s'') : s.Extends s'' := by
  intro i hi
  have h₁ := h i hi
  have h₂ := h' i h₁.1
  exact ⟨h₂.1, h₂.2.trans h₁.2⟩

lemma testBit_tableMask (n i : Nat) : ((1 <<< n) - 1).testBit i = decide (i < n) := by
  rw [Nat.one_shiftLeft, Nat.testBit_two_pow_sub_one]

lemma covers_iff : s.Covers shift neededBits ↔
    ∀ i < neededBits, s.fixedBitsMask.testBit (shift + i) = true := by
  unfold Selector.Covers
  constructor
  · intro h i hi
    have := congrArg (fun n => n.testBit i) h
    simpa [testBit_tableMask, hi] using this
  · intro h
    apply Nat.eq_of_testBit_eq
    intro i
    rw [Nat.testBit_and, Nat.testBit_shiftRight, testBit_tableMask]
    by_cases hi : i < neededBits
    · simp [hi, h i hi]
    · simp [hi]

lemma Selector.Extends.covers (h : s.Extends s') (hs : s.Covers shift neededBits) :
    s'.Covers shift neededBits := by
  rw [covers_iff] at hs ⊢
  intro i hi
  exact (h _ (hs i hi)).1

lemma Selector.Extends.slot_eq (h : s.Extends s') (hs : s.Covers shift neededBits) :
    (s'.inProgressBucketIndex >>> shift) &&& ((1 <<< neededBits) - 1) =
      (s.inProgressBucketIndex >>> shift) &&& ((1 <<< neededBits) - 1) := by
  rw [covers_iff] at hs
  apply Nat.eq_of_testBit_eq
  intro i
  rw [Nat.testBit_and, Nat.testBit_and, testBit_tableMask, Nat.testBit_shiftRight,
    Nat.testBit_shiftRight]
  by_cases hi : i < neededBits
  · rw [(h _ (hs i hi)).2]
  · simp [hi]

lemma testBit_shiftedMask : attempt.shiftedMask.testBit i =
    decide (attempt.shift ≤ i ∧ i < attempt.shift + attempt.neededBits) := by
  unfold PlacementAttempt.shiftedMask PlacementAttempt.mask
  rw [Nat.testBit_shiftLeft, testBit_tableMask]
  by_cases h : attempt.shift ≤ i
  · have : i - attempt.shift < attempt.neededBits ↔ i < attempt.shift + attempt.neededBits := by
      omega
    simp [h, this]
  · simp [h]

lemma place_covers : (attempt.place s address).Covers attempt.shift attempt.neededBits := by
  rw [covers_iff]
  intro i hi
  simp [PlacementAttempt.place, testBit_shiftedMask, hi]

/-- Where all bits are fixed, writing the slot again writes what is there. -/
lemma place_slot_eq (h : s.fixedBitsMask &&& attempt.shiftedMask = attempt.shiftedMask) :
    attempt.place s (attempt.slot s.inProgressBucketIndex) = s := by
  unfold PlacementAttempt.place
  have hmask : s.fixedBitsMask ||| attempt.shiftedMask = s.fixedBitsMask := by
    apply Nat.eq_of_testBit_eq
    intro i
    have hi := congrArg (fun n => n.testBit i) h
    simp only [Nat.testBit_and] at hi
    rw [Nat.testBit_or]
    cases hs : s.fixedBitsMask.testBit i <;> simp_all
  have hindex : s.inProgressBucketIndex |||
      attempt.slot s.inProgressBucketIndex <<< attempt.shift = s.inProgressBucketIndex := by
    apply Nat.eq_of_testBit_eq
    intro i
    unfold PlacementAttempt.slot
    rw [Nat.testBit_or, Nat.testBit_shiftLeft, Nat.testBit_and, Nat.testBit_shiftRight]
    by_cases hi : attempt.shift ≤ i
    · rw [Nat.add_sub_cancel' hi]
      cases s.inProgressBucketIndex.testBit i <;> simp
    · simp [hi]
  rw [hmask, hindex]

lemma extends_place (h : (s.inProgressBucketIndex ||| (address <<< attempt.shift)) &&&
    s.fixedBitsMask = s.inProgressBucketIndex &&& s.fixedBitsMask) :
    s.Extends (attempt.place s address) := by
  intro i hi
  have hb := congrArg (fun n => n.testBit i) h
  simp only [Nat.testBit_and, hi, Bool.and_true] at hb
  constructor
  · simp [PlacementAttempt.place, hi]
  · exact hb

end Bits

/-! ### A successful attempt -/

section Success

variable {ι : Type} [DecidableEq ι] {choices : Choices ι} {methods sortedMethods : List ι}
  {c : ClassState} {selectors : Selectors ι} {attempt : PlacementAttempt} {g : Nat}
  {addresses : List Nat} {slots : Nat → Bool} {m : ι}

/-- Addresses that keep the fixed bits of their selectors and lead to different free slots. -/
structure AddressesFit (selectors : Selectors ι) (attempt : PlacementAttempt)
    (slots : Nat → Bool) (sortedMethods : List ι) (addresses : List Nat) : Prop where
  length_eq : addresses.length = sortedMethods.length
  keeps : ∀ x ∈ sortedMethods.zip addresses,
    (selectors x.1).Extends (attempt.place (selectors x.1) x.2)
  nodup : ((sortedMethods.zip addresses).map
    (fun x => attempt.slot (attempt.place (selectors x.1) x.2).inProgressBucketIndex)).Nodup
  free : ∀ x ∈ sortedMethods.zip addresses,
    slots (attempt.slot (attempt.place (selectors x.1) x.2).inProgressBucketIndex) = false

omit [DecidableEq ι] in
lemma AddressesFit.cons {address : Nat}
    (h : AddressesFit selectors attempt (Function.update slots
      (attempt.slot (attempt.place (selectors m) address).inProgressBucketIndex) true)
      sortedMethods addresses)
    (hm : (selectors m).Extends (attempt.place (selectors m) address))
    (hfree : slots (attempt.slot
      (attempt.place (selectors m) address).inProgressBucketIndex) = false) :
    AddressesFit selectors attempt slots (m :: sortedMethods) (address :: addresses) := by
  have hne : ∀ x ∈ sortedMethods.zip addresses,
      attempt.slot (attempt.place (selectors x.1) x.2).inProgressBucketIndex ≠
        attempt.slot (attempt.place (selectors m) address).inProgressBucketIndex := by
    intro x hx heq
    have := h.free x hx
    rw [heq, Function.update_self] at this
    cases this
  constructor
  · simp [h.length_eq]
  · intro x hx
    rw [List.zip_cons_cons, List.mem_cons] at hx
    rcases hx with rfl | hx
    · exact hm
    · exact h.keeps x hx
  · rw [List.zip_cons_cons, List.map_cons, List.nodup_cons]
    constructor
    · intro hmem
      obtain ⟨x, hx, heq⟩ := List.mem_map.mp hmem
      exact hne x hx heq
    · exact h.nodup
  · intro x hx
    rw [List.zip_cons_cons, List.mem_cons] at hx
    rcases hx with rfl | hx
    · exact hfree
    · have := h.free x hx
      rwa [Function.update_of_ne (hne x hx)] at this

omit [DecidableEq ι] in
/-- The generator only advances; when it does not move, every slot was fixed before. -/
lemma findAddresses_spec (choices : Choices ι) (selectors : Selectors ι)
    (attempt : PlacementAttempt) (sortedMethods : List ι) (slots : Nat → Bool) (g : Nat) :
    g ≤ (findAddresses choices selectors attempt sortedMethods slots g).2 ∧
    ∀ addresses, (findAddresses choices selectors attempt sortedMethods slots g).1 =
        some addresses →
      AddressesFit selectors attempt slots sortedMethods addresses ∧
      ((findAddresses choices selectors attempt sortedMethods slots g).2 = g →
        ∀ x ∈ sortedMethods.zip addresses, attempt.place (selectors x.1) x.2 = selectors x.1) := by
  induction sortedMethods generalizing slots g with
  | nil =>
    refine ⟨le_rfl, fun addresses h => ?_⟩
    cases h
    exact ⟨⟨rfl, by simp, by simp, by simp⟩, by simp⟩
  | cons m sortedMethods ih =>
    unfold findAddresses
    by_cases hfix : (selectors m).fixedBitsMask &&& attempt.shiftedMask = attempt.shiftedMask
    · simp only [hfix, if_true]
      have hplace := place_slot_eq hfix
      by_cases hslot : slots (attempt.slot (selectors m).inProgressBucketIndex)
      · simp [hslot]
      · simp only [hslot]
        have hrest := ih (Function.update slots (attempt.slot (selectors m).inProgressBucketIndex) true) g
        refine ⟨hrest.1, fun addresses h => ?_⟩
        obtain ⟨rest, hfound, rfl⟩ := Option.map_eq_some_iff.mp h
        have hspec := hrest.2 rest hfound
        constructor
        · apply AddressesFit.cons
          · rw [hplace]
            exact hspec.1
          · rw [hplace]
            exact Selector.Extends.refl _
          · rw [hplace]
            simpa using hslot
        · intro hg x hx
          rw [List.zip_cons_cons, List.mem_cons] at hx
          rcases hx with rfl | hx
          · exact hplace
          · exact hspec.2 hg x hx
    · simp only [hfix, if_false]
      cases hfind : (choices.shuffle g (1 <<< attempt.neededBits)).find?
          (attempt.fits (selectors m) slots) with
      | none => exact ⟨Nat.le_succ g, by simp⟩
      | some i =>
        have hfits := List.find?_some hfind
        simp only [PlacementAttempt.fits, Bool.and_eq_true, beq_iff_eq, Bool.not_eq_true'] at hfits
        have hrest := ih (Function.update slots (attempt.slot
          ((selectors m).inProgressBucketIndex ||| (i <<< attempt.shift))) true) (g + 1)
        refine ⟨(Nat.le_succ g).trans hrest.1, fun addresses h => ?_⟩
        obtain ⟨rest, hfound, rfl⟩ := Option.map_eq_some_iff.mp h
        have hspec := hrest.2 rest hfound
        constructor
        · exact hspec.1.cons (extends_place hfits.1) hfits.2
        · intro hg
          exact absurd hrest.1 (by dsimp only at hg ⊢; omega)

/-- Setting the bits of different selectors one after the other sets each once. -/
lemma placeAll_spec (attempt : PlacementAttempt) (l : List (ι × Nat)) (selectors : Selectors ι)
    (previousMethods : ι → Option Selector) (hl : (l.map Prod.fst).Nodup) :
    (∀ x ∈ l, (placeAll attempt l selectors previousMethods).1 x.1 =
        attempt.place (selectors x.1) x.2 ∧
      (placeAll attempt l selectors previousMethods).2 x.1 = some (selectors x.1)) ∧
    ∀ m ∉ l.map Prod.fst, (placeAll attempt l selectors previousMethods).1 m = selectors m ∧
      (placeAll attempt l selectors previousMethods).2 m = previousMethods m := by
  induction l generalizing selectors previousMethods with
  | nil => simp [placeAll]
  | cons x l ih =>
    rw [List.map_cons, List.nodup_cons] at hl
    have h := ih (Function.update selectors x.1 (attempt.place (selectors x.1) x.2))
      (Function.update previousMethods x.1 (some (selectors x.1))) hl.2
    constructor
    · intro y hy
      rcases List.mem_cons.mp hy with rfl | hy
      · -- the rest of the list does not touch this selector again
        simpa [placeAll] using h.2 y.1 hl.1
      · have hne : y.1 ≠ x.1 := by
          intro heq
          exact hl.1 (heq ▸ List.mem_map_of_mem hy)
        simpa [placeAll, hne] using h.1 y hy
    · intro m hm
      rw [List.map_cons, List.mem_cons, not_or] at hm
      simpa [placeAll, hm.1] using h.2 m hm.2

structure Success (methods : List ι) (c : ClassState) (selectors : Selectors ι)
    (attempt : PlacementAttempt) (g : Nat) (o : Outcome ι) : Prop where
  classState_eq : o.classState =
    { c with shift := attempt.shift, neededBits := attempt.neededBits }
  other : ∀ m ∉ methods, o.selectors m = selectors m
  keeps : ∀ m, (selectors m).Extends (o.selectors m)
  covers : ∀ m ∈ methods, (o.selectors m).Covers attempt.shift attempt.neededBits
  nodup : (methods.map (fun m => attempt.slot (o.selectors m).inProgressBucketIndex)).Nodup
  previous_neededBits : o.result.previousState.neededBits = c.neededBits
  previous_shift : o.result.previousState.shift = c.shift
  previous : ∀ m ∈ methods, o.result.previousState.methods m = some (selectors m)
  still : o.randomNumberGenerator = g → o.selectors = selectors

lemma le_applyAttempt_generator :
    g ≤ (applyAttempt choices methods c selectors attempt g).randomNumberGenerator := by
  have h := (findAddresses_spec choices selectors attempt (choices.sort (fun m => (selectors m).numberOfBitsToSet attempt.shift
      attempt.mask) methods) (fun _ => false) g).1
  unfold applyAttempt
  dsimp only
  split
  · simp_all
  · simp_all

lemma applyAttempt_failure
    (h : (applyAttempt choices methods c selectors attempt g).result.success = false) :
    (applyAttempt choices methods c selectors attempt g).selectors = selectors ∧
      (applyAttempt choices methods c selectors attempt g).classState = c := by
  unfold applyAttempt at h ⊢
  dsimp only at h ⊢
  split at h
  · simp_all
  · cases h

lemma applyAttempt_success (hm : methods.Nodup)
    (h : (applyAttempt choices methods c selectors attempt g).result.success = true) :
    Success methods c selectors attempt g
      (applyAttempt choices methods c selectors attempt g) := by
  unfold applyAttempt at h ⊢
  dsimp only at h ⊢
  generalize hsorted : choices.sort
    (fun m => (selectors m).numberOfBitsToSet attempt.shift attempt.mask) methods =
      sortedMethods at h ⊢
  have hperm : sortedMethods.Perm methods := hsorted ▸ choices.sort_perm _ _
  have hspec := (findAddresses_spec choices selectors attempt sortedMethods (fun _ => false) g).2
  split at h
  · cases h
  · rename_i addresses g' hfind
    rw [hfind] at hspec
    obtain ⟨hfit, hstill⟩ := hspec addresses rfl
    have hfst : (sortedMethods.zip addresses).map Prod.fst = sortedMethods :=
      List.map_fst_zip hfit.length_eq.ge
    have hplace := placeAll_spec attempt (sortedMethods.zip addresses) selectors
      (fun _ => none) (by rw [hfst]; exact hperm.nodup_iff.mpr hm)
    rw [hfst] at hplace
    have hmem : ∀ m ∈ methods, ∃ a, (m, a) ∈ sortedMethods.zip addresses := by
      intro m hm
      have := hperm.mem_iff.mpr hm
      rw [← hfst] at this
      obtain ⟨⟨m, a⟩, hx, rfl⟩ := List.mem_map.mp this
      exact ⟨a, hx⟩
    have hother : ∀ m ∉ methods, (placeAll attempt (sortedMethods.zip addresses) selectors
        (fun _ => none)).1 m = selectors m := by
      intro m hm
      exact (hplace.2 m (fun h => hm (hperm.mem_iff.mp h))).1
    constructor
    · rfl
    · exact hother
    · intro m
      by_cases hm : m ∈ methods
      · obtain ⟨a, hx⟩ := hmem m hm
        dsimp only
        rw [(hplace.1 _ hx).1]
        exact hfit.keeps _ hx
      · dsimp only
        rw [hother m hm]
        exact Selector.Extends.refl _
    · intro m hm
      obtain ⟨a, hx⟩ := hmem m hm
      dsimp only
      rw [(hplace.1 _ hx).1]
      exact place_covers
    · apply (hperm.map _).nodup_iff.mp
      have hslots : sortedMethods.map (fun m => attempt.slot ((placeAll attempt
          (sortedMethods.zip addresses) selectors (fun _ => none)).1 m).inProgressBucketIndex) =
          (sortedMethods.zip addresses).map (fun x => attempt.slot
            (attempt.place (selectors x.1) x.2).inProgressBucketIndex) := by
        conv_lhs => rw [← hfst, List.map_map, hfst]
        apply List.map_congr_left
        intro x hx
        simp only [Function.comp, (hplace.1 x hx).1]
      rw [hslots]
      exact hfit.nodup
    · rfl
    · rfl
    · intro m hm
      obtain ⟨a, hx⟩ := hmem m hm
      exact (hplace.1 _ hx).2
    · intro hg
      funext m
      by_cases hm : m ∈ methods
      · obtain ⟨a, hx⟩ := hmem m hm
        exact (hplace.1 _ hx).1.trans (hstill hg _ hx)
      · exact hother m hm

lemma applyAttempt_congr (choices : Choices ι) (methods : List ι) (selectors : Selectors ι)
    (attempt : PlacementAttempt) (g : Nat) {c c' : ClassState} (hshift : c'.shift = c.shift)
    (hbits : c'.neededBits = c.neededBits) :
    (applyAttempt choices methods c' selectors attempt g).result =
        (applyAttempt choices methods c selectors attempt g).result ∧
      (applyAttempt choices methods c' selectors attempt g).selectors =
        (applyAttempt choices methods c selectors attempt g).selectors ∧
      (applyAttempt choices methods c' selectors attempt g).randomNumberGenerator =
        (applyAttempt choices methods c selectors attempt g).randomNumberGenerator := by
  unfold applyAttempt
  dsimp only
  rw [hshift, hbits]
  split
  · exact ⟨rfl, rfl, rfl⟩
  · exact ⟨rfl, rfl, rfl⟩

lemma backtrack_success (c' : ClassState) {o : Outcome ι} (hs : o.result.success = true)
    (h : Success methods c selectors attempt g o) :
    backtrack methods c' o.selectors o.result =
      (selectors, { c' with shift := c.shift, neededBits := c.neededBits }) := by
  unfold backtrack
  rw [if_pos hs, h.previous_shift, h.previous_neededBits]
  have : (fun m => if m ∈ methods then (o.result.previousState.methods m).getD ⟨0, 0⟩
      else o.selectors m) = selectors := by
    funext m
    by_cases hm : m ∈ methods
    · rw [if_pos hm, h.previous m hm, Option.getD_some]
    · rw [if_neg hm, h.other m hm]
  rw [this]

omit [DecidableEq ι] in
lemma checkConsistency_iff (c : ClassState) (selectors : Selectors ι) (methods : List ι)
    (slots : Nat → Bool) :
    checkConsistency c selectors methods slots = true ↔
      (methods.map (fun m => ((selectors m).inProgressBucketIndex >>> c.shift) &&& c.mask)).Nodup ∧
      ∀ m ∈ methods,
        slots (((selectors m).inProgressBucketIndex >>> c.shift) &&& c.mask) = false := by
  induction methods generalizing slots with
  | nil => simp [checkConsistency]
  | cons m methods ih =>
    unfold checkConsistency
    dsimp only
    by_cases hslot : slots (((selectors m).inProgressBucketIndex >>> c.shift) &&& c.mask) = true
    · simp [hslot]
    · have hfalse := Bool.eq_false_iff.mpr hslot
      rw [if_neg hslot, ih]
      simp only [List.map_cons, List.nodup_cons, List.mem_map, List.forall_mem_cons,
        Function.update_apply]
      constructor
      · rintro ⟨hnodup, hfree⟩
        refine ⟨⟨?_, hnodup⟩, hfalse, ?_⟩
        · rintro ⟨x, hx, heq⟩
          simpa [heq] using hfree x hx
        · intro x hx
          have := hfree x hx
          split at this
          · cases this
          · exact this
      · rintro ⟨⟨hne, hnodup⟩, -, hfree⟩
        refine ⟨hnodup, ?_⟩
        intro x hx
        rw [if_neg (fun heq => hne ⟨x, hx, heq⟩)]
        exact hfree x hx

end Success

/-! ### Attempts of several classes -/

@[ext]
structure World (ι κ : Type) where
  selectors : Selectors ι
  classes : κ → ClassState

section Worlds

variable {ι κ : Type} [DecidableEq ι] [DecidableEq κ] (choices : Choices ι) (methods : κ → List ι)

def World.applyAttempt (w : World ι κ) (k : κ) (attempt : PlacementAttempt) (g : Nat) :
    World ι κ × Result ι × Nat :=
  let o := IMPCaches.applyAttempt choices (methods k) (w.classes k) w.selectors attempt g
  (⟨o.selectors, Function.update w.classes k o.classState⟩, o.result, o.randomNumberGenerator)

/-- Undoes the attempt of one class. -/
def World.backtrack (w : World ι κ) (k : κ) (result : Result ι) : World ι κ :=
  let b := IMPCaches.backtrack (methods k) (w.classes k) w.selectors result
  ⟨b.1, Function.update w.classes k b.2⟩

def World.applyAll (w : World ι κ) :
    List (κ × PlacementAttempt × Nat) → World ι κ × List (κ × Result ι)
  | [] => (w, [])
  | (k, attempt, g) :: rest =>
    let a := w.applyAttempt choices methods k attempt g
    let r := a.1.applyAll rest
    (r.1, (k, a.2.1) :: r.2)

/-- Undoes attempts, the last one first. -/
def World.backtrackAll (w : World ι κ) (results : List (κ × Result ι)) : World ι κ :=
  results.foldr (fun r w => w.backtrack methods r.1 r.2) w

variable {choices methods} {w : World ι κ} {k : κ} {attempt : PlacementAttempt} {g : Nat}

lemma World.backtrack_applyAttempt (hm : (methods k).Nodup)
    (h : (w.applyAttempt choices methods k attempt g).2.1.success = true) :
    (w.applyAttempt choices methods k attempt g).1.backtrack methods k
      (w.applyAttempt choices methods k attempt g).2.1 = w := by
  have hs := applyAttempt_success hm h
  unfold World.backtrack World.applyAttempt
  dsimp only
  rw [backtrack_success _ h hs]
  apply World.ext
  · rfl
  · funext x
    by_cases hx : x = k
    · subst hx
      simp [hs.classState_eq]
    · simp [hx]

/-- Undoing successful attempts in reverse order leaves nothing behind. -/
lemma World.backtrackAll_applyAll (hm : ∀ k, (methods k).Nodup)
    (l : List (κ × PlacementAttempt × Nat)) (w : World ι κ)
    (h : ∀ r ∈ (w.applyAll choices methods l).2, r.2.success = true) :
    (w.applyAll choices methods l).1.backtrackAll methods (w.applyAll choices methods l).2 = w := by
  induction l generalizing w with
  | nil => rfl
  | cons x l ih =>
    have hrest := ih (w.applyAttempt choices methods x.1 x.2.1 x.2.2).1
      (fun r hr => h r (List.mem_cons_of_mem _ hr))
    have hlast := h (x.1, (w.applyAttempt choices methods x.1 x.2.1 x.2.2).2.1)
      List.mem_cons_self
    unfold World.backtrackAll at hrest ⊢
    unfold World.applyAll
    dsimp only
    rw [List.foldr_cons, hrest]
    exact World.backtrack_applyAttempt (hm x.1) hlast

end Worlds

end Dyld.IMPCaches
