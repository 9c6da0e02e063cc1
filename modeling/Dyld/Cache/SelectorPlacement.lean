import Dyld.Cache.ImpCacheSearch
import Dyld.Cache.SelectorBuckets
import Dyld.Cache.SelectorConstraints

/-!
# The final placement of selectors

`solveGivenShiftsAndMasks` puts the selectors of all classes into the buckets of the address
space. A selector that does not fit where it is moves to an index that all of its classes allow,
and where there is none its classes are dropped with those in their flattening hierarchies.
`removeUninterestingClasses` then takes the dropped classes and their selectors away.
-/

namespace Dyld.IMPCaches.Placement

open Buckets (AddressSpace)

/-- The key of `selectors.map`, which stands for the selector. -/
abbrev Name := Buckets.Selector

def magicSelector : Name := ⟨[0xf0, 0x9f, 0xa4, 0xaf]⟩

/-- What the source leaves open: the result of the random distribution between `i` and the number
of addresses, the order of the elements of an `unordered_set`, and whether the search in one by
hash value meets an equal element. The numbers are those of the selector and of the try or class. -/
structure Choices where
  distribution : Nat → Nat → Nat → Nat
  distribution_mem : ∀ m i n, i < n → i ≤ distribution m i n ∧ distribution m i n < n
  iterate : Nat → Finset Nat → List Nat
  mem_iterate : ∀ m s x, x ∈ iterate m s ↔ x ∈ s
  found : Nat → Nat → Bool

/-- The part of `IMPCachesBuilder` that the placement works on. Classes and selectors are given by
identity; `impCachesClassData` has the classes of all dylibs. -/
structure Builder (κ : Type) where
  map : List Name
  selectors : Selectors Name
  classesOf : Name → List κ
  classData : κ → ClassData Name
  classState : κ → ClassState
  impCachesClassData : List κ
  addressSpace : AddressSpace

/-! ### The constraint of a class -/

section Constraint

variable (slot : Name → Nat) (method : Name)

/-- Fills the slots with all methods except `method`. An assertion fails where one is taken. -/
def fillSlots : List Name → (Nat → Bool) → Option (Nat → Bool)
  | [], slots => some slots
  | s :: methods, slots =>
    if s = method then fillSlots methods slots
    else if slots (slot s) then none
    else fillSlots methods (Function.update slots (slot s) true)

end Constraint

namespace Builder

variable {κ : Type} (b : Builder κ)

def slot (c : κ) (s : Name) : Nat :=
  ((b.selectors s).inProgressBucketIndex >>> (b.classState c).shift) &&& (b.classState c).mask

def constraintForMethod (c : κ) (method : Name) : Option Constraint := do
  let slots ← fillSlots (b.slot c) method (b.classData c).methods (fun _ => false)
  some {
    mask := (b.classState c).mask
    shift := (b.classState c).shift
    allowedValues := (Finset.range (1 <<< (b.classState c).neededBits)).filter
      (fun i => slots i = false) }

/-- `fillAllClasses`. Nothing depends on the order that it sorts the classes in. -/
def fillAllClasses : List κ :=
  b.impCachesClassData.filter (fun c =>
    !(b.classData c).methods.isEmpty && (b.classState c).shouldGenerateImpCache)

def fillAllMethods : List Name := b.map.filter (fun s => !(b.classesOf s).isEmpty)

/-- The comparison of `methodsSortedByNumberOfFixedBits`, with equality. -/
def sortsBefore (a c : Name) : Bool :=
  let bits := fun s => popcount (b.selectors s).fixedBitsMask
  let classes := fun s => (b.classesOf s).length
  decide (bits c < bits a ∨ bits a = bits c ∧ (classes c < classes a ∨ classes a = classes c ∧
    ¬(a.name.map UInt8.toNat < c.name.map UInt8.toNat)))

/-- Adds the constraints of the classes that are not dropped, numbered from `i`, and notes whether
there is one. -/
def addConstraints (found : Nat → Bool) (m : Name) :
    List κ → Nat → ConstraintSet × Bool → Option (ConstraintSet × Bool)
  | [], _, r => some r
  | c :: classes, i, (cs, atLeastOneConstraint) =>
    if (b.classState c).shouldGenerateImpCache then do
      let constraint ← b.constraintForMethod c m
      let (_, cs) ← cs.add constraint (found i)
      addConstraints found m classes (i + 1) (cs, true)
    else addConstraints found m classes (i + 1) (cs, atLeastOneConstraint)

def dropClass [DecidableEq κ] (allClasses : List κ) (c : κ) : Builder κ :=
  { b with
    classState := fun toDrop =>
      if toDrop = c then { b.classState c with shouldGenerateImpCache := false }
      else if toDrop ∈ allClasses ∧
          inFlatteningHierarchy (b.classData c) (b.classData toDrop) = true ∧
          (b.classState toDrop).shouldGenerateImpCache = true then
        { b.classState toDrop with
          shouldGenerateImpCache := false
          droppedBecauseFlatteningSuperclassWasDropped := true }
      else b.classState toDrop }

def dropClassesWithThisMethod [DecidableEq κ] (allClasses : List κ) (m : Name) : Builder κ :=
  (b.classesOf m).foldl (fun b c => b.dropClass allClasses c) b

/-- The index for `m` in the part of the addresses that starts at `baseAddress`. -/
def findBucketIndex (m : Name) (mergedConstraint : Constraint) (allowedValues : List Nat)
    (baseAddress : Nat) : Option Nat :=
  let modulo := mergedConstraint.mask + 1
  let multiplier := 1 <<< mergedConstraint.shift
  (allowedValues.flatMap (fun j => (List.range multiplier).map (fun k =>
    ((baseAddress * modulo + j) <<< mergedConstraint.shift) ||| k))).find? (fun bucketIndex =>
      decide (bucketIndex < Buckets.maximumIndex) &&
        b.addressSpace.canPlaceMethodAtIndex m bucketIndex)

/-- The manual Fisher–Yates shuffle from the `i`-th address on, which stops at the first address
with a result. -/
def shuffleUntil (distribution : Nat → Nat → Nat) (addressesCount : Nat)
    (find : Nat → Option Nat) : Nat → Nat → List Nat → Option Nat
  | 0, _, _ => none
  | n + 1, i, addresses =>
    let rd := distribution i addressesCount
    let baseAddress := (addresses[rd]?).getD 0
    match find baseAddress with
    | some bucketIndex => some bucketIndex
    | none => shuffleUntil distribution addressesCount find n (i + 1)
        ((addresses.set rd ((addresses[i]?).getD 0)).set i baseAddress)

def findValue (choices : Choices) (methodIndex : Nat) (m : Name) (mergedConstraint : Constraint) :
    Option Nat :=
  let modulo := mergedConstraint.mask + 1
  let addressesCount := max (((Buckets.maximumIndex + 1) >>> mergedConstraint.shift) / modulo) 1
  shuffleUntil (choices.distribution methodIndex) addressesCount
    (b.findBucketIndex m mergedConstraint
      (choices.iterate methodIndex mergedConstraint.allowedValues))
    addressesCount 0 (List.range addressesCount)

def placeMethodAtIndex (m : Name) (bucketIndex : Nat) : Builder κ :=
  { b with addressSpace := b.addressSpace.placeMethodAtIndex m bucketIndex }

def moveMethod (m : Name) (bucketIndex : Nat) : Builder κ :=
  { b with
    selectors := Function.update b.selectors m
      ⟨(b.selectors m).fixedBitsMask, bucketIndex⟩ }

/-- One round of the loop of `solveGivenShiftsAndMasks`, with the number of dropped classes. There
is no result where an assertion fails or the hash function of a constraint has no first value. -/
def placeMethod [DecidableEq κ] (choices : Choices) (allClasses : List κ) (methodIndex : Nat) (m : Name)
    (droppedClasses : Nat) : Option (Nat × Builder κ) :=
  let index := (b.selectors m).inProgressBucketIndex
  if b.addressSpace.canPlaceMethodAtIndex m index then
    some (droppedClasses, b.placeMethodAtIndex m index)
  else do
    let (cs, atLeastOneConstraint) ←
      b.addConstraints (choices.found methodIndex) m (b.classesOf m) 0 (ConstraintSet.clear, false)
    if !atLeastOneConstraint then some (droppedClasses, b)
    else do
      let dropped := (droppedClasses + (b.classesOf m).length,
        b.dropClassesWithThisMethod allClasses m)
      let mergedConstraint ← cs.mergedConstraint
      if mergedConstraint.allowedValues.card = 0 then some dropped
      else
        match b.findValue choices methodIndex m mergedConstraint with
        | some bucketIndex =>
          some (droppedClasses, (b.moveMethod m bucketIndex).placeMethodAtIndex m bucketIndex)
        | none => some dropped

def placeMethods [DecidableEq κ] (choices : Choices) (allClasses : List κ) :
    List Name → Nat → Nat × Builder κ → Option (Nat × Builder κ)
  | [], _, r => some r
  | m :: methods, methodIndex, (droppedClasses, b) => do
    let r ← b.placeMethod choices allClasses methodIndex m droppedClasses
    placeMethods choices allClasses methods (methodIndex + 1) r

/-- The sanity checks: the masks of the selectors have those of their classes, and the classes
are consistent. -/
def sane : Bool :=
  b.fillAllClasses.all (fun c => (b.classData c).methods.all (fun m =>
    ((b.selectors m).fixedBitsMask >>> (b.classState c).shift) &&& (b.classState c).mask ==
      (b.classState c).mask)) &&
  b.fillAllClasses.all (fun c =>
    checkConsistency (b.classState c) b.selectors (b.classData c).methods (fun _ => false))

def solveGivenShiftsAndMasks [DecidableEq κ] (choices : Choices) : Option (Nat × Builder κ) :=
  if b.sane then
    placeMethods choices b.fillAllClasses
      (b.fillAllMethods.insertionSort (fun a c => b.sortsBefore a c)) 0 (0, b)
  else none

/-! ### The classes that are left -/

def uninteresting (c : κ) : Bool :=
  ((b.classData c).methods.isEmpty && (b.classData c).flatteningRootSuperclass.isNone) ||
    !(b.classState c).shouldGenerateImpCache

/-- Deletes a class from its selectors. -/
def eraseClass [DecidableEq κ] (classesOf : Name → List κ) (c : κ) : Name → List κ :=
  (b.classData c).methods.foldl (fun classesOf m =>
    Function.update classesOf m ((classesOf m).filter (fun d => d ≠ c))) classesOf

def removeUninterestingClasses [DecidableEq κ] : Builder κ :=
  let classesOf := (b.impCachesClassData.filter b.uninteresting).foldl b.eraseClass b.classesOf
  { b with
    classesOf := classesOf
    impCachesClassData := b.impCachesClassData.filter (fun c => !b.uninteresting c)
    addressSpace := { b.addressSpace with
      methodsByIndex := fun i =>
        (b.addressSpace.methodsByIndex i).filter (fun s => !(classesOf s).isEmpty) }
    map := b.map.filter (fun s => !((classesOf s).isEmpty && s ≠ magicSelector)) }

/-! ### What is claimed of the state -/

/-- The classes and their selectors know each other, and the masks are those of an `int`. -/
structure WellFormed : Prop where
  nodup : b.map.Nodup
  methods : ∀ c ∈ b.impCachesClassData, ∀ s ∈ (b.classData c).methods,
    s ∈ b.map ∧ c ∈ b.classesOf s
  classes : ∀ s ∈ b.map, ∀ c ∈ b.classesOf s,
    c ∈ b.impCachesClassData ∧ s ∈ (b.classData c).methods
  fixedBitsMask : ∀ s ∈ b.map, (b.selectors s).fixedBitsMask < 2 ^ 31

def PlacedOnce (before : AddressSpace) (s : Name) : Prop :=
  ∀ i, (b.addressSpace.methodsByIndex i).count s = (before.methodsByIndex i).count s +
    if i = (b.selectors s).inProgressBucketIndex then 1 else 0

/-! ### The constraint of a class -/

lemma fillSlots_spec {slot : Name → Nat} {method : Name} {methods : List Name} {slots : Nat → Bool}
    (hnodup : (methods.map slot).Nodup) (hfree : ∀ s ∈ methods, slots (slot s) = false) :
    ∃ slots', fillSlots slot method methods slots = some slots' ∧
      ∀ i, slots' i = true ↔ slots i = true ∨ ∃ s ∈ methods, s ≠ method ∧ slot s = i := by
  induction methods generalizing slots with
  | nil => exact ⟨slots, rfl, by simp⟩
  | cons s methods ih =>
    rw [List.map_cons, List.nodup_cons] at hnodup
    rw [fillSlots]
    split_ifs with hs htaken
    · obtain ⟨slots', heq, hspec⟩ := ih hnodup.2 (fun t ht => hfree t (List.mem_cons_of_mem s ht))
      refine ⟨slots', heq, ?_⟩
      intro i
      rw [hspec, List.exists_mem_cons_iff]
      simp [hs]
    · rw [hfree s List.mem_cons_self] at htaken
      cases htaken
    · have hrest : ∀ t ∈ methods, Function.update slots (slot s) true (slot t) = false := by
        intro t ht
        have hne : slot t ≠ slot s := by
          intro heq
          exact hnodup.1 (heq ▸ List.mem_map_of_mem ht)
        rw [Function.update_of_ne hne]
        exact hfree t (List.mem_cons_of_mem s ht)
      obtain ⟨slots', heq, hspec⟩ := ih hnodup.2 hrest
      refine ⟨slots', heq, ?_⟩
      intro i
      rw [hspec, List.exists_mem_cons_iff]
      by_cases hi : i = slot s
      · simp [hi, hs]
      · simp [hi, Ne.symm hi]

lemma fillSlots_free {slot : Name → Nat} {methods : List Name} (hnodup : (methods.map slot).Nodup)
    (method : Name) :
    ∃ slots, fillSlots slot method methods (fun _ => false) = some slots ∧
      ∀ i, slots i = true ↔ ∃ s ∈ methods, s ≠ method ∧ slot s = i := by
  obtain ⟨slots, heq, hspec⟩ :=
    @fillSlots_spec slot method methods (fun _ => false) hnodup (fun _ _ => rfl)
  exact ⟨slots, heq, by simpa using hspec⟩

def DistinctSlots (c : κ) : Prop := ((b.classData c).methods.map (b.slot c)).Nodup

/-- All of the window of the class is in the masks of its methods, as the sanity check says. -/
def Masked (c : κ) : Prop :=
  ∀ m ∈ (b.classData c).methods, (b.selectors m).fixedBitsMask < 2 ^ 31 ∧
    ((b.selectors m).fixedBitsMask >>> (b.classState c).shift) &&& (b.classState c).mask =
      (b.classState c).mask

variable {b}

lemma Masked.fits {c : κ} (h : b.Masked c) {m : Name} (hm : m ∈ (b.classData c).methods) :
    (b.classState c).mask <<< (b.classState c).shift < 2 ^ 31 := by
  obtain ⟨hlt, hmask⟩ := h m hm
  have hle : (b.classState c).mask ≤
      (b.selectors m).fixedBitsMask >>> (b.classState c).shift := by
    rw [← hmask]
    exact Nat.and_le_left
  rw [Nat.shiftRight_eq_div_pow] at hle
  calc (b.classState c).mask <<< (b.classState c).shift
      = (b.classState c).mask * 2 ^ (b.classState c).shift := Nat.shiftLeft_eq _ _
    _ ≤ (b.selectors m).fixedBitsMask / 2 ^ (b.classState c).shift *
        2 ^ (b.classState c).shift := Nat.mul_le_mul_right _ hle
    _ ≤ (b.selectors m).fixedBitsMask := Nat.div_mul_le_self _ _
    _ < 2 ^ 31 := hlt

lemma mask_eq (c : ClassState) : c.mask = 2 ^ c.neededBits - 1 := by
  rw [ClassState.mask, Nat.one_shiftLeft]

lemma constraintForMethod_spec {c : κ} {m : Name} (hdistinct : b.DistinctSlots c)
    (hmasked : b.Masked c) (hm : m ∈ (b.classData c).methods) :
    ∃ constraint, b.constraintForMethod c m = some constraint ∧ constraint.Formed ∧
      constraint.allowedValues.Nonempty ∧
      ∀ x, constraint.Admits x → ∀ s ∈ (b.classData c).methods, s ≠ m →
        b.slot c s ≠ (x >>> (b.classState c).shift) &&& (b.classState c).mask := by
  obtain ⟨slots, hslots, hspec⟩ := fillSlots_free hdistinct m
  rw [constraintForMethod, hslots]
  refine ⟨_, rfl, ⟨(b.classState c).neededBits, mask_eq _, hmasked.fits hm, ?_⟩, ?_, ?_⟩
  · intro i hi
    have hlt := Finset.mem_range.mp (Finset.mem_filter.mp hi).1
    rw [Nat.one_shiftLeft] at hlt
    change i ≤ (b.classState c).mask
    rw [mask_eq]
    omega
  · refine ⟨b.slot c m, Finset.mem_filter.mpr ⟨Finset.mem_range.mpr ?_, ?_⟩⟩
    · rw [Nat.one_shiftLeft]
      have hle : b.slot c m ≤ (b.classState c).mask := Nat.and_le_right
      rw [mask_eq] at hle
      have hpos := Nat.two_pow_pos (b.classState c).neededBits
      omega
    · rw [Bool.eq_false_iff, Ne, hspec]
      rintro ⟨s, hs, hne, heq⟩
      exact hne (List.inj_on_of_nodup_map hdistinct hs hm heq)
  · intro x hx s hs hne heq
    have hfree := (Finset.mem_filter.mp hx).2
    rw [Bool.eq_false_iff, Ne, hspec] at hfree
    exact hfree ⟨s, hs, hne, heq⟩

lemma addConstraints_spec (found : Nat → Bool) {m : Name} {classes : List κ} (i : Nat)
    {cs : ConstraintSet} (atLeastOne : Bool) (hmerged : cs.Merged)
    (hone : atLeastOne = true ↔ cs.constraints.Nonempty)
    (hclasses : ∀ c ∈ classes, (b.classState c).shouldGenerateImpCache = true →
      b.DistinctSlots c ∧ b.Masked c ∧ m ∈ (b.classData c).methods) :
    ∃ cs' atLeastOne', b.addConstraints found m classes i (cs, atLeastOne) =
        some (cs', atLeastOne') ∧ cs'.Merged ∧
      (atLeastOne' = true ↔ cs'.constraints.Nonempty) ∧ cs.constraints ⊆ cs'.constraints ∧
      ∀ c ∈ classes, (b.classState c).shouldGenerateImpCache = true →
        ∃ constraint ∈ cs'.constraints, b.constraintForMethod c m = some constraint := by
  induction classes generalizing i cs atLeastOne with
  | nil => exact ⟨cs, atLeastOne, rfl, hmerged, hone, Finset.Subset.refl _, by simp⟩
  | cons c classes ih =>
    have hrest : ∀ d ∈ classes, (b.classState d).shouldGenerateImpCache = true →
        b.DistinctSlots d ∧ b.Masked d ∧ m ∈ (b.classData d).methods :=
      fun d hd => hclasses d (List.mem_cons_of_mem c hd)
    rw [addConstraints]
    split_ifs with hgen
    · obtain ⟨hdistinct, hmasked, hm⟩ := hclasses c List.mem_cons_self hgen
      obtain ⟨constraint, heq, hformed, hne, -⟩ := constraintForMethod_spec hdistinct hmasked hm
      obtain ⟨r, cs₁, hadd, hmerged₁, hins⟩ := ConstraintSet.add_spec hmerged hformed hne (found i)
      have hone₁ : true = true ↔ cs₁.constraints.Nonempty := by
        simp [hins]
      obtain ⟨cs', one', hrun, hmerged', hone', hsub, hall⟩ :=
        ih (i + 1) true hmerged₁ hone₁ hrest
      have hmem : constraint ∈ cs'.constraints := hsub (by simp [hins])
      refine ⟨cs', one', ?_, hmerged', hone', ?_, ?_⟩
      · rw [heq, Option.bind_eq_bind, Option.bind_some, hadd]
        exact hrun
      · intro d hd
        exact hsub (by rw [hins]; exact Finset.mem_insert_of_mem hd)
      · intro d hd hdgen
        rcases List.mem_cons.mp hd with rfl | hd
        · exact ⟨constraint, hmem, heq⟩
        · exact hall d hd hdgen
    · obtain ⟨cs', one', hrun, hmerged', hone', hsub, hall⟩ := ih (i + 1) atLeastOne hmerged hone hrest
      refine ⟨cs', one', hrun, hmerged', hone', hsub, ?_⟩
      intro d hd hdgen
      rcases List.mem_cons.mp hd with rfl | hd
      · exact absurd hdgen hgen
      · exact hall d hd hdgen

/-! ### The index that is found -/

/-- The bits above the low ones are a multiple of the modulus and an allowed value. -/
lemma admits_index {C : Constraint} (hC : C.Formed) {base j k : Nat} (hj : j ∈ C.allowedValues)
    (hk : k < 1 <<< C.shift) : C.Admits (((base * (C.mask + 1) + j) <<< C.shift) ||| k) := by
  obtain ⟨n, hn⟩ := hC
  have hlow : k >>> C.shift = 0 := by
    rw [Nat.one_shiftLeft] at hk
    rw [Nat.shiftRight_eq_div_pow]
    exact Nat.div_eq_of_lt hk
  have hpos := Nat.two_pow_pos n
  have hmodulo : C.mask + 1 = 2 ^ n := by
    rw [hn.mask_eq]
    omega
  have hlt : j < 2 ^ n := hn.allowed_lt hj
  rw [Constraint.Admits, Nat.shiftRight_or_distrib, hlow, Nat.or_zero, Nat.shiftLeft_shiftRight,
    hmodulo, hn.mask_eq, Nat.and_two_pow_sub_one_eq_mod, Nat.mul_add_mod_of_lt hlt]
  exact hj

lemma findBucketIndex_spec {m : Name} {C : Constraint} (hC : C.Formed) {l : List Nat}
    (hl : ∀ j ∈ l, j ∈ C.allowedValues) {base index : Nat}
    (h : b.findBucketIndex m C l base = some index) : C.Admits index := by
  have hmem := List.mem_of_find?_eq_some h
  obtain ⟨j, hj, hmem⟩ := List.mem_flatMap.mp hmem
  obtain ⟨k, hk, rfl⟩ := List.mem_map.mp hmem
  exact admits_index hC (hl j hj) (List.mem_range.mp hk)

lemma shuffleUntil_spec {distribution : Nat → Nat → Nat} {count : Nat} {find : Nat → Option Nat}
    {n i : Nat} {addresses : List Nat} {index : Nat}
    (h : shuffleUntil distribution count find n i addresses = some index) :
    ∃ base, find base = some index := by
  induction n generalizing i addresses with
  | zero => cases h
  | succ n ih =>
    rw [shuffleUntil] at h
    split at h
    · rename_i found hfound
      cases h
      exact ⟨_, hfound⟩
    · exact ih h

lemma findValue_spec {choices : Choices} {methodIndex : Nat} {m : Name} {C : Constraint}
    (hC : C.Formed) {index : Nat} (h : b.findValue choices methodIndex m C = some index) :
    C.Admits index := by
  obtain ⟨base, hbase⟩ := shuffleUntil_spec h
  exact findBucketIndex_spec hC (fun j hj => (choices.mem_iterate _ _ _).mp hj) hbase

/-! ### What one round keeps -/

/-- All classes of the selector are dropped. -/
def Unneeded (b : Builder κ) (s : Name) : Prop :=
  ∀ c ∈ b.classesOf s, (b.classState c).shouldGenerateImpCache = false

/-- Classes are dropped, and nothing else changes. -/
structure Drops (b b' : Builder κ) : Prop where
  frame : b' = { b with classState := b'.classState }
  shift : ∀ c, (b'.classState c).shift = (b.classState c).shift
  neededBits : ∀ c, (b'.classState c).neededBits = (b.classState c).neededBits
  should : ∀ c, (b'.classState c).shouldGenerateImpCache = true →
    (b.classState c).shouldGenerateImpCache = true

lemma Drops.refl (b : Builder κ) : Drops b b := ⟨rfl, fun _ => rfl, fun _ => rfl, fun _ h => h⟩

lemma Drops.trans {b b' b'' : Builder κ} (h : Drops b b') (h' : Drops b' b'') : Drops b b'' where
  frame := by
    rw [h'.frame, h.frame]
  shift c := (h'.shift c).trans (h.shift c)
  neededBits c := (h'.neededBits c).trans (h.neededBits c)
  should c hc := h.should c (h'.should c hc)

section Drop

variable [DecidableEq κ]

lemma drops_dropClass (b : Builder κ) (allClasses : List κ) (c : κ) :
    Drops b (b.dropClass allClasses c) ∧
      ((b.dropClass allClasses c).classState c).shouldGenerateImpCache = false := by
  refine ⟨⟨rfl, ?_, ?_, ?_⟩, by simp [dropClass]⟩
  · intro d
    simp only [dropClass]
    split_ifs with hdc
    · rw [hdc]
    · rfl
    · rfl
  · intro d
    simp only [dropClass]
    split_ifs with hdc
    · rw [hdc]
    · rfl
    · rfl
  · intro d hd
    simp only [dropClass] at hd
    split_ifs at hd
    exact hd

lemma drops_foldl (allClasses classes : List κ) (b : Builder κ) :
    Drops b (classes.foldl (fun b c => b.dropClass allClasses c) b) ∧ ∀ c ∈ classes,
      ((classes.foldl (fun b c => b.dropClass allClasses c) b).classState c).shouldGenerateImpCache =
        false := by
  induction classes generalizing b with
  | nil => exact ⟨Drops.refl b, by simp⟩
  | cons c classes ih =>
    obtain ⟨hdrop, hc⟩ := drops_dropClass b allClasses c
    obtain ⟨hdrops, hall⟩ := ih (b.dropClass allClasses c)
    refine ⟨hdrop.trans hdrops, ?_⟩
    intro d hd
    rcases List.mem_cons.mp hd with rfl | hd
    · rw [← Bool.not_eq_true]
      intro hgen
      have hfirst := hdrops.should d hgen
      rw [hc] at hfirst
      cases hfirst
    · exact hall d hd

lemma drops_dropClassesWithThisMethod (b : Builder κ) (allClasses : List κ) (m : Name) :
    Drops b (b.dropClassesWithThisMethod allClasses m) ∧
      (b.dropClassesWithThisMethod allClasses m).Unneeded m := by
  obtain ⟨hdrops, hall⟩ := drops_foldl allClasses (b.classesOf m) b
  refine ⟨hdrops, ?_⟩
  intro c hc
  rw [dropClassesWithThisMethod, hdrops.frame] at hc
  exact hall c hc

end Drop

/-- The state of the loop, where `b₀` is the state that it begins with: the slots of each class
that is not dropped are distinct, the selectors that are done are placed once or belong to dropped
classes only, and the others are not placed. -/
structure Inv (b₀ b : Builder κ) (done : List Name) : Prop where
  frame : b = { b₀ with
    selectors := b.selectors, classState := b.classState, addressSpace := b.addressSpace }
  fixed : ∀ s, (b.selectors s).fixedBitsMask = (b₀.selectors s).fixedBitsMask
  shift : ∀ c, (b.classState c).shift = (b₀.classState c).shift
  neededBits : ∀ c, (b.classState c).neededBits = (b₀.classState c).neededBits
  should : ∀ c, (b.classState c).shouldGenerateImpCache = true →
    (b₀.classState c).shouldGenerateImpCache = true
  distinct : ∀ c ∈ b₀.impCachesClassData, (b.classState c).shouldGenerateImpCache = true →
    b.DistinctSlots c
  placed : ∀ s ∈ done, b.PlacedOnce b₀.addressSpace s ∨ b.Unneeded s
  rest : ∀ s, s ∉ done → ∀ i,
    (b.addressSpace.methodsByIndex i).count s = (b₀.addressSpace.methodsByIndex i).count s

section Inv

variable {b₀ : Builder κ} {done : List Name} {m : Name}

lemma Inv.classesOf_eq (h : Inv b₀ b done) : b.classesOf = b₀.classesOf := by
  rw [h.frame]

lemma Inv.classData_eq (h : Inv b₀ b done) : b.classData = b₀.classData := by
  rw [h.frame]

lemma Inv.masked (h : Inv b₀ b done) {c : κ} (hc : b₀.Masked c) : b.Masked c := by
  intro s hs
  rw [h.classData_eq] at hs
  rw [h.fixed, h.shift, mask_eq, h.neededBits, ← mask_eq]
  exact hc s hs

/-- The selector is done without being placed. -/
lemma Inv.skip (h : Inv b₀ b done) (hm : b.Unneeded m) : Inv b₀ b (m :: done) where
  frame := h.frame
  fixed := h.fixed
  shift := h.shift
  neededBits := h.neededBits
  should := h.should
  distinct := h.distinct
  placed s hs := by
    rcases List.mem_cons.mp hs with rfl | hs
    · exact Or.inr hm
    · exact h.placed s hs
  rest s hs := h.rest s (fun hdone => hs (List.mem_cons_of_mem m hdone))

lemma Inv.drop {b' : Builder κ} (h : Inv b₀ b done) (hdrop : Drops b b') : Inv b₀ b' done := by
  have hsel : b'.selectors = b.selectors := by rw [hdrop.frame]
  have hspace : b'.addressSpace = b.addressSpace := by rw [hdrop.frame]
  have hclasses : b'.classesOf = b.classesOf := by rw [hdrop.frame]
  have hdata : b'.classData = b.classData := by rw [hdrop.frame]
  refine ⟨?_, ?_, ?_, ?_, ?_, ?_, ?_, ?_⟩
  · rw [hdrop.frame, h.frame]
  · intro s
    rw [hsel, h.fixed]
  · intro c
    rw [hdrop.shift, h.shift]
  · intro c
    rw [hdrop.neededBits, h.neededBits]
  · intro c hc
    exact h.should c (hdrop.should c hc)
  · intro c hc hgen
    have hslot : b'.slot c = b.slot c := by
      funext s
      rw [slot, slot, hsel, hdrop.shift, mask_eq, mask_eq, hdrop.neededBits]
    rw [DistinctSlots, hslot, hdata]
    exact h.distinct c hc (hdrop.should c hgen)
  · intro s hs
    rcases h.placed s hs with hplaced | hunneeded
    · left
      intro i
      rw [hspace, hsel]
      exact hplaced i
    · right
      intro c hc
      rw [hclasses] at hc
      rw [← Bool.not_eq_true]
      intro hgen
      have hgen' := hdrop.should c hgen
      rw [hunneeded c hc] at hgen'
      cases hgen'
  · intro s hs i
    rw [hspace]
    exact h.rest s hs i

lemma count_placeMethodAtIndex (a : AddressSpace) (m s : Name) (index i : Nat) :
    ((a.placeMethodAtIndex m index).methodsByIndex i).count s =
      (a.methodsByIndex i).count s + if i = index ∧ s = m then 1 else 0 := by
  unfold AddressSpace.placeMethodAtIndex
  by_cases hi : i = index
  · by_cases hs : s = m
    · simp [hi, hs]
    · simp [hi, hs, Ne.symm hs]
  · simp [hi]

lemma Inv.place (h : Inv b₀ b done) (hm : m ∉ done) :
    Inv b₀ (b.placeMethodAtIndex m (b.selectors m).inProgressBucketIndex) (m :: done) := by
  refine ⟨?_, h.fixed, h.shift, h.neededBits, h.should, h.distinct, ?_, ?_⟩
  · rw [placeMethodAtIndex, h.frame]
  · intro s hs
    rcases List.mem_cons.mp hs with rfl | hs
    · left
      intro i
      rw [placeMethodAtIndex, count_placeMethodAtIndex, h.rest s hm]
      simp
    · have hsm : s ≠ m := fun heq => hm (heq ▸ hs)
      rcases h.placed s hs with hplaced | hunneeded
      · left
        intro i
        rw [placeMethodAtIndex, count_placeMethodAtIndex, hplaced i]
        simp [hsm]
      · exact Or.inr hunneeded
  · intro s hs i
    rw [List.mem_cons, not_or] at hs
    rw [placeMethodAtIndex, count_placeMethodAtIndex, h.rest s hs.2]
    simp [hs.1]

lemma slot_moveMethod (b : Builder κ) (m : Name) (index : Nat) (c : κ) (s : Name) :
    (b.moveMethod m index).slot c s =
      if s = m then (index >>> (b.classState c).shift) &&& (b.classState c).mask
      else b.slot c s := by
  by_cases hs : s = m <;> simp [slot, moveMethod, hs]

lemma Inv.move (h : Inv b₀ b done) (hm : m ∉ done) {index : Nat}
    (hfree : ∀ c ∈ b₀.impCachesClassData, (b.classState c).shouldGenerateImpCache = true →
      m ∈ (b.classData c).methods → ∀ s ∈ (b.classData c).methods, s ≠ m →
        b.slot c s ≠ (index >>> (b.classState c).shift) &&& (b.classState c).mask) :
    Inv b₀ (b.moveMethod m index) done := by
  have hindex : ∀ s, s ≠ m → (b.moveMethod m index).selectors s = b.selectors s :=
    fun s hs => Function.update_of_ne hs _ _
  refine ⟨?_, ?_, h.shift, h.neededBits, h.should, ?_, ?_, h.rest⟩
  · rw [moveMethod, h.frame]
  · intro s
    by_cases hs : s = m
    · rw [← h.fixed s, hs]
      simp [moveMethod]
    · rw [hindex s hs, h.fixed]
  · intro c hc hgen
    have hold := h.distinct c hc hgen
    apply (List.nodup_map_iff_inj_on hold.of_map).mpr
    intro s hs t ht heq
    rw [slot_moveMethod, slot_moveMethod] at heq
    split_ifs at heq with hsm htm htm
    · rw [hsm, htm]
    · exact absurd heq.symm (hfree c hc hgen (hsm ▸ hs) t ht htm)
    · exact absurd heq (hfree c hc hgen (htm ▸ ht) s hs hsm)
    · exact List.inj_on_of_nodup_map hold hs ht heq
  · intro s hs
    have hsm : s ≠ m := fun heq => hm (heq ▸ hs)
    rcases h.placed s hs with hplaced | hunneeded
    · left
      intro i
      rw [hindex s hsm]
      exact hplaced i
    · exact Or.inr hunneeded

variable [DecidableEq κ]

/-- One round ends without a failed assertion, and the selector is done. -/
lemma placeMethod_spec (hb : b₀.WellFormed)
    (hmasked : ∀ c ∈ b₀.impCachesClassData, (b₀.classState c).shouldGenerateImpCache = true →
      b₀.Masked c) (h : Inv b₀ b done) (hm : m ∉ done) (hmap : m ∈ b₀.map) (choices : Choices)
    (allClasses : List κ) (methodIndex droppedClasses : Nat) :
    ∃ r, b.placeMethod choices allClasses methodIndex m droppedClasses = some r ∧
      Inv b₀ r.2 (m :: done) := by
  have hclasses : ∀ c ∈ b.classesOf m, (b.classState c).shouldGenerateImpCache = true →
      b.DistinctSlots c ∧ b.Masked c ∧ m ∈ (b.classData c).methods := by
    intro c hc hgen
    rw [h.classesOf_eq] at hc
    obtain ⟨hcache, hmethod⟩ := hb.classes m hmap c hc
    rw [h.classData_eq]
    exact ⟨h.distinct c hcache hgen, h.masked (hmasked c hcache (h.should c hgen)), hmethod⟩
  obtain ⟨cs, atLeastOne, hrun, hmerged, hone, -, hall⟩ :=
    addConstraints_spec (choices.found methodIndex) 0 false ConstraintSet.merged_clear
      (by simp [ConstraintSet.clear]) hclasses
  rw [placeMethod]
  dsimp only
  split_ifs with hcan
  · exact ⟨_, rfl, h.place hm⟩
  · rw [hrun, Option.bind_eq_bind, Option.bind_some]
    cases hatLeast : atLeastOne with
    | false =>
      refine ⟨_, rfl, h.skip ?_⟩
      intro c hc
      rw [← Bool.not_eq_true]
      intro hgen
      obtain ⟨constraint, hmem, -⟩ := hall c hc hgen
      rw [hone.mpr ⟨constraint, hmem⟩] at hatLeast
      cases hatLeast
    | true =>
      have hdropped := drops_dropClassesWithThisMethod b allClasses m
      have hdrop := (h.drop hdropped.1).skip hdropped.2
      cases hC : cs.mergedConstraint with
      | none =>
        have hne := hone.mp hatLeast
        rw [hmerged.none_iff.mp hC] at hne
        exact absurd hne Finset.not_nonempty_empty
      | some C =>
        obtain ⟨hformed, hadmits⟩ := hmerged.admits C hC
        simp only [Bool.not_true, Bool.false_eq_true, if_false, Option.bind_eq_bind,
          Option.bind_some]
        split_ifs with hempty
        · exact ⟨_, rfl, hdrop⟩
        · cases hfind : b.findValue choices methodIndex m C with
          | none => exact ⟨_, rfl, hdrop⟩
          | some index =>
            refine ⟨_, rfl, ?_⟩
            have hmove : Inv b₀ (b.moveMethod m index) done := by
              apply h.move hm
              intro c hc hgen hmethod
              have hcm : c ∈ b.classesOf m := by
                rw [h.classesOf_eq]
                rw [h.classData_eq] at hmethod
                exact (hb.methods c hc m hmethod).2
              obtain ⟨constraint, hmem, heq⟩ := hall c hcm hgen
              obtain ⟨hdistinct, hmask, -⟩ := hclasses c hcm hgen
              obtain ⟨constraint', heq', -, -, hfree⟩ :=
                constraintForMethod_spec hdistinct hmask hmethod
              rw [heq] at heq'
              obtain rfl := Option.some.inj heq'
              exact hfree index ((hadmits index).mp (findValue_spec hformed hfind) constraint hmem)
            have hplace := hmove.place hm
            have hindex : ((b.moveMethod m index).selectors m).inProgressBucketIndex = index := by
              simp [moveMethod]
            rw [hindex] at hplace
            exact hplace

/-- The whole loop. -/
theorem placeMethods_spec (hb : b₀.WellFormed)
    (hmasked : ∀ c ∈ b₀.impCachesClassData, (b₀.classState c).shouldGenerateImpCache = true →
      b₀.Masked c) (choices : Choices) (allClasses : List κ) {methods : List Name}
    (hmap : ∀ m ∈ methods, m ∈ b₀.map) (hnodup : methods.Nodup) (h : Inv b₀ b done)
    (hnew : ∀ m ∈ methods, m ∉ done) (methodIndex droppedClasses : Nat) :
    ∃ r done', placeMethods choices allClasses methods methodIndex (droppedClasses, b) = some r ∧
      Inv b₀ r.2 done' ∧ (∀ m ∈ done, m ∈ done') ∧ ∀ m ∈ methods, m ∈ done' := by
  induction methods generalizing b done methodIndex droppedClasses with
  | nil => exact ⟨_, done, rfl, h, fun _ hs => hs, by simp⟩
  | cons m methods ih =>
    rw [List.nodup_cons] at hnodup
    obtain ⟨⟨dropped, b'⟩, hstep, hinv⟩ := placeMethod_spec hb hmasked h
      (hnew m List.mem_cons_self) (hmap m List.mem_cons_self) choices allClasses methodIndex
      droppedClasses
    have hnew' : ∀ s ∈ methods, s ∉ m :: done := by
      intro s hs hmem
      rcases List.mem_cons.mp hmem with rfl | hdone
      · exact hnodup.1 hs
      · exact hnew s (List.mem_cons_of_mem m hs) hdone
    obtain ⟨r, done', hrun, hinv', hsub, hall⟩ := ih
      (fun s hs => hmap s (List.mem_cons_of_mem m hs)) hnodup.2 hinv hnew' (methodIndex + 1) dropped
    refine ⟨r, done', ?_, hinv', ?_, ?_⟩
    · rw [placeMethods, hstep]
      exact hrun
    · intro s hs
      exact hsub s (List.mem_cons_of_mem m hs)
    · intro s hs
      rcases List.mem_cons.mp hs with rfl | hs
      · exact hsub _ List.mem_cons_self
      · exact hall s hs

end Inv

/-! ### What is left -/

section Left

variable [DecidableEq κ] {b₀ : Builder κ}

lemma mem_eraseClass (classesOf : Name → List κ) (c d : κ) (s : Name) :
    d ∈ b.eraseClass classesOf c s ↔ d ∈ classesOf s ∧ ¬(d = c ∧ s ∈ (b.classData c).methods) := by
  have hfold : ∀ (methods : List Name) (classesOf : Name → List κ),
      d ∈ methods.foldl (fun classesOf m =>
          Function.update classesOf m ((classesOf m).filter (fun d => d ≠ c))) classesOf s ↔
        d ∈ classesOf s ∧ ¬(d = c ∧ s ∈ methods) := by
    intro methods
    induction methods with
    | nil => simp
    | cons m methods ih =>
      intro classesOf
      rw [List.foldl_cons, ih]
      by_cases hs : s = m
      · subst hs
        simp
        tauto
      · simp [hs]
  exact hfold _ classesOf

lemma mem_foldl_eraseClass (removed : List κ) (classesOf : Name → List κ) (d : κ) (s : Name) :
    d ∈ removed.foldl b.eraseClass classesOf s ↔
      d ∈ classesOf s ∧ ¬(d ∈ removed ∧ s ∈ (b.classData d).methods) := by
  induction removed generalizing classesOf with
  | nil => simp
  | cons c removed ih =>
    rw [List.foldl_cons, ih, mem_eraseClass, List.mem_cons]
    by_cases hdc : d = c
    · subst hdc
      tauto
    · tauto

lemma placedOnce_left {s : Name} {c : κ} {before : AddressSpace}
    (hc : c ∈ b.removeUninterestingClasses.classesOf s) (h : b.PlacedOnce before s) :
    b.removeUninterestingClasses.PlacedOnce before s := by
  intro i
  have hne : (b.removeUninterestingClasses.classesOf s).isEmpty = false := by
    rw [List.isEmpty_eq_false_iff]
    exact List.ne_nil_of_mem hc
  have hcount : (b.removeUninterestingClasses.addressSpace.methodsByIndex i).count s =
      (b.addressSpace.methodsByIndex i).count s := by
    apply List.count_filter
    simpa [removeUninterestingClasses] using hne
  rw [hcount]
  exact h i

omit [DecidableEq κ] in
lemma mem_fillAllClasses {c : κ} (hc : c ∈ b.impCachesClassData)
    (hgen : (b.classState c).shouldGenerateImpCache = true)
    (hne : (b.classData c).methods ≠ []) : c ∈ b.fillAllClasses := by
  refine List.mem_filter.mpr ⟨hc, ?_⟩
  simp [hgen, hne]

omit [DecidableEq κ] in
lemma sane_spec (hb : b.WellFormed) (hs : b.sane = true) {c : κ} (hc : c ∈ b.impCachesClassData)
    (hgen : (b.classState c).shouldGenerateImpCache = true) :
    b.DistinctSlots c ∧ b.Masked c := by
  by_cases hempty : (b.classData c).methods = []
  · simp [DistinctSlots, Masked, hempty]
  · have hall := mem_fillAllClasses hc hgen hempty
    rw [sane, Bool.and_eq_true, List.all_eq_true, List.all_eq_true] at hs
    refine ⟨((checkConsistency_iff _ _ _ _).mp (hs.2 c hall)).1, ?_⟩
    intro m hm
    have hmask := List.all_eq_true.mp (hs.1 c hall) m hm
    exact ⟨hb.fixedBitsMask m (hb.methods c hc m hm).1, beq_iff_eq.mp hmask⟩

omit [DecidableEq κ] in
lemma inv_start (hb : b.WellFormed) (hs : b.sane = true) : Inv b b [] where
  frame := rfl
  fixed _ := rfl
  shift _ := rfl
  neededBits _ := rfl
  should _ h := h
  distinct _ hc hgen := (sane_spec hb hs hc hgen).1
  placed _ h := by cases h
  rest _ _ _ := rfl

/-- The run ends without a failed assertion, and each selector with classes is done. -/
lemma solve_spec (hb : b.WellFormed) (hs : b.sane = true) (choices : Choices) :
    ∃ droppedClasses b' done, b.solveGivenShiftsAndMasks choices = some (droppedClasses, b') ∧
      Inv b b' done ∧ ∀ s ∈ b.map, b.classesOf s ≠ [] → s ∈ done := by
  have hperm := List.perm_insertionSort (fun a c => b.sortsBefore a c) b.fillAllMethods
  have hmem : ∀ m ∈ b.fillAllMethods.insertionSort (fun a c => b.sortsBefore a c), m ∈ b.map := by
    intro m hm
    exact (List.mem_filter.mp (hperm.mem_iff.mp hm)).1
  have hnodup : (b.fillAllMethods.insertionSort (fun a c => b.sortsBefore a c)).Nodup :=
    hperm.nodup_iff.mpr (hb.nodup.filter _)
  obtain ⟨⟨droppedClasses, b'⟩, done, hrun, hinv, -, hall⟩ := placeMethods_spec hb
    (fun c hc hgen => (sane_spec hb hs hc hgen).2) choices b.fillAllClasses hmem hnodup
    (inv_start hb hs) (fun _ _ h => by cases h) 0 0
  refine ⟨droppedClasses, b', done, ?_, hinv, ?_⟩
  · rw [solveGivenShiftsAndMasks, if_pos hs]
    exact hrun
  · intro s hmap hne
    apply hall
    rw [hperm.mem_iff, fillAllMethods, List.mem_filter]
    exact ⟨hmap, by simpa using hne⟩

omit [DecidableEq κ] in
lemma not_uninteresting {c : κ} (h : b.uninteresting c = false) :
    (b.classState c).shouldGenerateImpCache = true := by
  rw [uninteresting, Bool.or_eq_false_iff] at h
  simpa using h.2

lemma mem_classesOf_left {c : κ} {s : Name} (hc : c ∈ b.classesOf s)
    (hu : b.uninteresting c = false) : c ∈ b.removeUninterestingClasses.classesOf s := by
  refine (mem_foldl_eraseClass _ _ c s).mpr ⟨hc, ?_⟩
  rintro ⟨hremoved, -⟩
  rw [List.mem_filter, hu] at hremoved
  cases hremoved.2

end Left

end Builder

/-- Whatever the random choices, the run ends without a failed assertion, and for the classes that
are left when the uninteresting ones are removed the slots of the methods are distinct and each
method is placed once, at its index. So is each selector that is left in the map. -/
theorem placement_distinct {κ : Type} [DecidableEq κ] (choices : Choices) (b : Builder κ)
    (hb : b.WellFormed) (hs : b.sane = true) :
    ∃ droppedClasses b', b.solveGivenShiftsAndMasks choices = some (droppedClasses, b') ∧
      (∀ c ∈ b'.removeUninterestingClasses.impCachesClassData,
        (b'.removeUninterestingClasses.classState c).shouldGenerateImpCache = true →
        b'.removeUninterestingClasses.DistinctSlots c ∧
          ∀ s ∈ (b'.removeUninterestingClasses.classData c).methods,
            b'.removeUninterestingClasses.PlacedOnce b.addressSpace s) ∧
      ∀ s ∈ b'.removeUninterestingClasses.map, s ≠ magicSelector →
        b'.removeUninterestingClasses.PlacedOnce b.addressSpace s := by
  obtain ⟨droppedClasses, b', done, hrun, hinv, hall⟩ := Builder.solve_spec hb hs choices
  have hcache : b'.impCachesClassData = b.impCachesClassData := by rw [hinv.frame]
  have hmap : b'.map = b.map := by rw [hinv.frame]
  have hplaced : ∀ s ∈ b.map, ∀ c ∈ b.classesOf s, b'.uninteresting c = false →
      b'.removeUninterestingClasses.PlacedOnce b.addressSpace s := by
    intro s hs c hc hu
    rw [← hinv.classesOf_eq] at hc
    apply Builder.placedOnce_left (Builder.mem_classesOf_left hc hu)
    have hdone := hall s hs (by rw [← hinv.classesOf_eq]; exact List.ne_nil_of_mem hc)
    apply (hinv.placed s hdone).resolve_right
    intro hunneeded
    have hgen := hunneeded c hc
    rw [Builder.not_uninteresting hu] at hgen
    cases hgen
  refine ⟨droppedClasses, b', hrun, ?_, ?_⟩
  · intro c hc hgen
    obtain ⟨hc, hu⟩ := List.mem_filter.mp hc
    rw [hcache] at hc
    refine ⟨hinv.distinct c hc hgen, ?_⟩
    intro s hmethod
    have hmethod' : s ∈ (b.classData c).methods := by
      rw [← hinv.classData_eq]
      exact hmethod
    obtain ⟨hsmap, hcs⟩ := hb.methods c hc s hmethod'
    exact hplaced s hsmap c hcs (by simpa using hu)
  · intro s hs hmagic
    obtain ⟨hsmap, hkept⟩ := List.mem_filter.mp hs
    rw [hmap] at hsmap
    have hne : b'.removeUninterestingClasses.classesOf s ≠ [] := by
      simpa [Builder.removeUninterestingClasses, hmagic] using hkept
    obtain ⟨c, hc⟩ := List.exists_mem_of_ne_nil _ hne
    obtain ⟨hc, hnot⟩ := (Builder.mem_foldl_eraseClass _ _ c s).mp hc
    rw [hinv.classesOf_eq] at hc
    obtain ⟨hcacheMem, hmethod⟩ := hb.classes s hsmap c hc
    apply hplaced s hsmap c hc
    rw [← Bool.not_eq_true]
    intro hu
    apply hnot
    refine ⟨List.mem_filter.mpr ⟨?_, hu⟩, ?_⟩
    · rw [hcache]
      exact hcacheMem
    · rw [hinv.classData_eq]
      exact hmethod

def inOrder : Choices where
  distribution _ i _ := i
  distribution_mem _ i _ h := ⟨Nat.le_refl i, h⟩
  iterate _ s := s.sort (· ≤ ·)
  mem_iterate _ _ _ := Finset.mem_sort _
  found _ _ := false

def longName (c : UInt8) : Name := ⟨List.replicate 100 c⟩

def twoClasses : Builder Bool where
  map := [magicSelector, longName 97, longName 98, longName 99]
  selectors s := if s = longName 98 then ⟨1, 1⟩ else ⟨1, 0⟩
  classesOf s := if s = longName 97 then [false] else if s = longName 98 then [false, true]
    else if s = longName 99 then [true] else []
  classData c :=
    ⟨if c then [longName 98, longName 99] else [longName 97, longName 98], "", false, none, "", []⟩
  classState _ := ⟨0, 1, true, false⟩
  impCachesClassData := [false, true]
  addressSpace := Buckets.emptySpace

theorem placement_distinct_twoClasses :
    ∃ droppedClasses b', twoClasses.solveGivenShiftsAndMasks inOrder = some (droppedClasses, b') ∧
      (∀ c ∈ b'.removeUninterestingClasses.impCachesClassData,
        (b'.removeUninterestingClasses.classState c).shouldGenerateImpCache = true →
        b'.removeUninterestingClasses.DistinctSlots c) ∧
      ∀ s ∈ b'.removeUninterestingClasses.map, s ≠ magicSelector →
        b'.removeUninterestingClasses.PlacedOnce twoClasses.addressSpace s := by
  have hwf : twoClasses.WellFormed := by
    refine ⟨?_, ?_, ?_, ?_⟩ <;> decide +kernel
  obtain ⟨droppedClasses, b', hrun, hclasses, hleft⟩ :=
    placement_distinct inOrder twoClasses hwf (by decide +kernel)
  exact ⟨droppedClasses, b', hrun, fun c hc hgen => (hclasses c hc hgen).1, hleft⟩

end Dyld.IMPCaches.Placement
