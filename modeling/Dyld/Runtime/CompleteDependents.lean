import Dyld.Runtime.GarbageCollection

/-!
# Completing the dependents of a new image

`Loader::completeAllDependents` appends to the new images whatever the images already there depend
on, until nothing is missing. A number of a dyld cache image that has an override is replaced by
the number of the override. The overrides are kept in an array of fixed size.
-/

namespace Dyld.AllImages

open Dyld.Closure.InitOrder (LinkKind kMissingWeakLinkedImage)

/-! ### Sets of image numbers -/

structure ImageNumSet where
  bitmap : Nat → Bool
  overflowArray : List Nat

namespace ImageNumSet

def empty : ImageNumSet := ⟨fun _ => false, []⟩

def add (s : ImageNumSet) (num : Nat) : ImageNumSet :=
  if num < 5120 then { s with bitmap := Function.update s.bitmap num true }
  else { s with overflowArray := s.overflowArray ++ [num] }

def contains (s : ImageNumSet) (num : Nat) : Bool :=
  if num < 5120 then s.bitmap num else s.overflowArray.any (· == num)

lemma contains_empty (num : Nat) : empty.contains num = false := by
  unfold contains empty
  split_ifs <;> rfl

lemma contains_add (s : ImageNumSet) (num n : Nat) :
    (s.add num).contains n = true ↔ n = num ∨ s.contains n = true := by
  unfold add contains
  by_cases hnum : num < 5120
  · rw [if_pos hnum]
    by_cases hn : n < 5120
    · rw [if_pos hn, if_pos hn]
      change Function.update s.bitmap num true n = true ↔ _
      rcases eq_or_ne n num with rfl | hne
      · rw [Function.update_self]
        exact iff_of_true rfl (Or.inl rfl)
      · rw [Function.update_of_ne hne]
        exact (or_iff_right hne).symm
    · have hne : n ≠ num := by omega
      rw [if_neg hn, if_neg hn]
      exact (or_iff_right hne).symm
  · rw [if_neg hnum]
    by_cases hn : n < 5120
    · have hne : n ≠ num := by omega
      rw [if_pos hn, if_pos hn]
      exact (or_iff_right hne).symm
    · rw [if_neg hn, if_neg hn, List.any_append, Bool.or_eq_true, or_comm]
      apply or_congr _ Iff.rfl
      rw [List.any_cons, List.any_nil, Bool.or_false, beq_iff_eq]
      exact eq_comm

lemma contains_foldl_add (nums : List Nat) (s : ImageNumSet) (n : Nat) :
    (nums.foldl add s).contains n = true ↔ n ∈ nums ∨ s.contains n = true := by
  induction nums generalizing s with
  | nil => simp
  | cons num nums ih =>
    rw [List.foldl_cons, ih, contains_add, List.mem_cons]
    tauto

end ImageNumSet

/-! ### Image arrays -/

structure ImageArray where
  firstImageNum : Nat
  hasRoots : Bool
  images : List Image
  consecutive : hasRoots = false → ∀ i image, images[i]? = some image →
    image.imageNum = firstImageNum + i

namespace ImageArray

def imageForNum (ia : ImageArray) (num : Nat) : Option Image :=
  if ia.hasRoots then ia.images.find? (fun image => image.imageNum == num)
  else if num < ia.firstImageNum then none
  else ia.images[num - ia.firstImageNum]?

/-- `ImageArray::findImage`, which goes backwards. -/
def findImage (imagesArrays : List ImageArray) (imageNum : Nat) : Option Image :=
  imagesArrays.reverse.findSome? (fun ia => ia.imageForNum imageNum)

lemma imageNum_of_imageForNum {ia : ImageArray} {num : Nat} {image : Image}
    (h : ia.imageForNum num = some image) : image.imageNum = num := by
  unfold imageForNum at h
  split_ifs at h with hroots hlt
  · simpa using List.find?_some h
  · have hnum := ia.consecutive (by simpa using hroots) _ _ h
    omega

lemma imageNum_of_findImage {imagesArrays : List ImageArray} {num : Nat} {image : Image}
    (h : findImage imagesArrays num = some image) : image.imageNum = num := by
  obtain ⟨ia, -, hia⟩ := List.exists_of_findSome?_eq_some h
  exact imageNum_of_imageForNum hia

end ImageArray

def kFirstLaunchClosureImageNum : Nat := 0x2000

structure ImageOverride where
  inCache : Nat
  replacement : Nat

/-- What `diag.error` was called with. -/
inductive DependentsError
  | tooManyInitialImages
  | unableToLocate (imageNum depIndex : Nat) (image : Image)
  deriving DecidableEq

/-! ### The loader -/

/-- The loader; `maxCount` of an array is the size of its storage. -/
structure Loader where
  existingImages : List Image
  existingMaxCount : Nat
  newMaxCount : Nat
  imagesArrays : List ImageArray
  iOSonMac : Bool

/-- The variables of `completeAllDependents`. -/
structure DependentsState where
  newImages : List Image
  alreadyLoaded : ImageNumSet
  diag : Option DependentsError

namespace Loader

variable (loader : Loader)

def overrides : List ImageOverride :=
  (loader.imagesArrays.filter fun anArray =>
      !(anArray.firstImageNum < kFirstLaunchClosureImageNum && !loader.iOSonMac)).flatMap fun anArray =>
    anArray.images.filterMap fun image =>
      image.overrideImageNum.map fun inCache => ⟨inCache, image.imageNum⟩

/-- The number that is loaded for a dependent. -/
def replaced (depImageNum : Nat) : Nat :=
  (loader.overrides.find? (fun entry => entry.inCache == depImageNum)).elim depImageNum
    (·.replacement)

/-- The callback for the dependents of an image, which stops at an error. -/
def addDependents (image : Image) : List ((LinkKind × Nat) × Nat) → DependentsState → DependentsState
  | [], s => s
  | ((_, num), depIndex) :: deps, s =>
    let depImageNum := loader.replaced num
    if s.alreadyLoaded.contains depImageNum then addDependents image deps s
    else
      match ImageArray.findImage loader.imagesArrays depImageNum with
      | some depImage =>
        if loader.newMaxCount ≤ s.newImages.length then
          { s with diag := some .tooManyInitialImages
                   alreadyLoaded := s.alreadyLoaded.add depImageNum }
        else
          addDependents image deps
            { s with newImages := s.newImages ++ [depImage]
                     alreadyLoaded := s.alreadyLoaded.add depImageNum }
      | none => { s with diag := some (.unableToLocate depImageNum depIndex image) }

/-- The dependents that `forEachDependentImage` passes to its handler, with their indexes. -/
def forEachDependentImage (image : Image) : List ((LinkKind × Nat) × Nat) :=
  image.dependents.zipIdx.filter fun d => !(d.1.2 = kMissingWeakLinkedImage && d.1.1 = .weak)

def completeLoop : Nat → Nat → DependentsState → Option DependentsState
  | 0, _, _ => none
  | rounds + 1, index, s =>
    match s.newImages[index]? with
    | none => some s
    | some image =>
      if s.diag.isSome then some s
      else completeLoop rounds (index + 1) (loader.addDependents image (forEachDependentImage image) s)

/-- `completeAllDependents` for one new image, with no error so far. The assertion of the array of
overrides fails when there are more than it can hold. -/
def completeAllDependents (top : Image) : Option DependentsState :=
  if loader.overrides.length > loader.existingMaxCount + loader.newMaxCount + 512 then none
  else
    loader.completeLoop (loader.newMaxCount + 1) 0
      ⟨[top], ((loader.existingImages.map (·.imageNum)).foldl ImageNumSet.add .empty).add top.imageNum,
        none⟩

/-! ### The closure that is meant -/

/-- The numbers that an image needs. -/
def depImageNums (image : Image) : List Nat := image.dependentImageNums.map loader.replaced

def Existing (num : Nat) : Prop := num ∈ loader.existingImages.map (·.imageNum)

def Needs (top image : Image) (num : Nat) : Prop :=
  num ∈ loader.depImageNums image ∧ ¬loader.Existing num ∧ num ≠ top.imageNum

inductive Needed (top : Image) : Image → Prop
  | top : Needed top top
  | dependent {image depImage : Image} {num : Nat} : Needed top image → loader.Needs top image num →
      ImageArray.findImage loader.imagesArrays num = some depImage → Needed top depImage

structure IsClosure (top : Image) (newImages : List Image) : Prop where
  head : newImages.head? = some top
  nodup : (newImages.map (·.imageNum)).Nodup
  notExisting : ∀ image ∈ newImages, ¬loader.Existing image.imageNum
  closed : ∀ image ∈ newImages, ∀ num ∈ loader.depImageNums image,
    loader.Existing num ∨ num ∈ newImages.map (·.imageNum)
  needed : ∀ image ∈ newImages, loader.Needed top image

def CannotLocate (top : Image) : Prop :=
  ∃ image num, loader.Needed top image ∧ loader.Needs top image num ∧
    ImageArray.findImage loader.imagesArrays num = none

def Exhausts (top : Image) : Prop :=
  ∃ images : List Image, (images.map (·.imageNum)).Nodup ∧
    (∀ image ∈ images, loader.Needed top image) ∧ loader.newMaxCount < images.length

/-! ### The loops -/

section Loops

variable {loader} {top : Image} {s : DependentsState}

/-- What holds as long as nothing was reported. -/
structure Completing (loader : Loader) (top : Image) (s : DependentsState) : Prop where
  noError : s.diag = none
  head : s.newImages.head? = some top
  nodup : (s.newImages.map (·.imageNum)).Nodup
  notExisting : ∀ image ∈ s.newImages, ¬loader.Existing image.imageNum
  needed : ∀ image ∈ s.newImages, loader.Needed top image
  located : ∀ image ∈ s.newImages, image = top ∨
    ImageArray.findImage loader.imagesArrays image.imageNum = some image
  room : s.newImages.length ≤ loader.newMaxCount
  loaded : ∀ num, s.alreadyLoaded.contains num = true ↔
    loader.Existing num ∨ num ∈ s.newImages.map (·.imageNum)

lemma Completing.top_mem (h : Completing loader top s) : top ∈ s.newImages :=
  List.mem_of_head? h.head

lemma Completing.push (h : Completing loader top s) {image depImage : Image} {num : Nat}
    (hlocate : ImageArray.findImage loader.imagesArrays num = some depImage)
    (hnum : s.alreadyLoaded.contains num = false) (himage : image ∈ s.newImages)
    (hdep : num ∈ loader.depImageNums image) :
    ((s.newImages ++ [depImage]).map (·.imageNum)).Nodup ∧ loader.Needed top depImage ∧
      (s.newImages.length < loader.newMaxCount → Completing loader top
        { s with newImages := s.newImages ++ [depImage]
                 alreadyLoaded := s.alreadyLoaded.add num }) := by
  have hnew : ¬(loader.Existing num ∨ num ∈ s.newImages.map (·.imageNum)) := by
    rw [← h.loaded, hnum]
    exact Bool.false_ne_true
  have hdepNum := ImageArray.imageNum_of_findImage hlocate
  have hneeds : loader.Needs top image num := by
    refine ⟨hdep, fun hex => hnew (Or.inl hex), ?_⟩
    rintro rfl
    exact hnew (Or.inr (List.mem_map_of_mem h.top_mem))
  have hneeded : loader.Needed top depImage := (h.needed image himage).dependent hneeds hlocate
  have hnodup : ((s.newImages ++ [depImage]).map (·.imageNum)).Nodup := by
    rw [List.map_append, List.map_singleton, hdepNum, List.nodup_append]
    refine ⟨h.nodup, List.nodup_singleton _, ?_⟩
    intro a ha b hb
    rw [List.mem_singleton.mp hb]
    rintro rfl
    exact hnew (Or.inr ha)
  refine ⟨hnodup, hneeded, fun hroom => ?_⟩
  constructor
  · exact h.noError
  · dsimp only
    rw [List.head?_append, h.head]
    rfl
  · exact hnodup
  · intro i hi
    rw [List.mem_append, List.mem_singleton] at hi
    rcases hi with hi | rfl
    · exact h.notExisting i hi
    · rw [hdepNum]
      exact fun hex => hnew (Or.inl hex)
  · intro i hi
    rw [List.mem_append, List.mem_singleton] at hi
    rcases hi with hi | rfl
    · exact h.needed i hi
    · exact hneeded
  · intro i hi
    rw [List.mem_append, List.mem_singleton] at hi
    rcases hi with hi | rfl
    · exact h.located i hi
    · exact Or.inr (hdepNum ▸ hlocate)
  · dsimp only
    rw [List.length_append, List.length_singleton]
    exact hroom
  · intro n
    dsimp only
    rw [ImageNumSet.contains_add, h.loaded, List.map_append, List.map_singleton, hdepNum,
      List.mem_append, List.mem_singleton]
    tauto

lemma addDependents_spec {image : Image} (deps : List ((LinkKind × Nat) × Nat))
    (hdeps : ∀ d ∈ deps, loader.replaced d.1.2 ∈ loader.depImageNums image)
    (h : Completing loader top s) (himage : image ∈ s.newImages) :
    ((loader.addDependents image deps s).diag = none →
      Completing loader top (loader.addDependents image deps s) ∧
      s.newImages <+: (loader.addDependents image deps s).newImages ∧
      ∀ d ∈ deps, loader.Existing (loader.replaced d.1.2) ∨ loader.replaced d.1.2 ∈
        (loader.addDependents image deps s).newImages.map (·.imageNum)) ∧
    ((loader.addDependents image deps s).diag ≠ none →
      loader.CannotLocate top ∨ loader.Exhausts top) := by
  induction deps generalizing s with
  | nil =>
    refine ⟨fun _ => ⟨h, List.prefix_rfl, by simp⟩, fun herror => absurd h.noError herror⟩
  | cons d deps ih =>
    obtain ⟨⟨kind, num⟩, depIndex⟩ := d
    have hdep := hdeps _ List.mem_cons_self
    have hrest : ∀ d ∈ deps, loader.replaced d.1.2 ∈ loader.depImageNums image := by
      intro d hd
      exact hdeps d (List.mem_cons_of_mem _ hd)
    dsimp only at hdep
    rw [addDependents]
    cases hcontains : s.alreadyLoaded.contains (loader.replaced num) with
    | true =>
      obtain ⟨hok, herror⟩ := ih hrest h himage
      refine ⟨fun hnone => ?_, herror⟩
      obtain ⟨hcomp, hinitial, hall⟩ := hok hnone
      refine ⟨hcomp, hinitial, ?_⟩
      intro d hd
      rw [List.mem_cons] at hd
      rcases hd with rfl | hd
      · apply ((h.loaded _).mp hcontains).imp_right
        exact fun hmem => (hinitial.map _).subset hmem
      · exact hall d hd
    | false =>
      rw [if_neg Bool.false_ne_true]
      cases hlocate : ImageArray.findImage loader.imagesArrays (loader.replaced num) with
      | none =>
        dsimp only
        refine ⟨fun hnone => absurd hnone (by simp), fun _ => Or.inl ?_⟩
        have hnew : ¬(loader.Existing (loader.replaced num) ∨
            loader.replaced num ∈ s.newImages.map (·.imageNum)) := by
          rw [← h.loaded, hcontains]
          exact Bool.false_ne_true
        refine ⟨image, loader.replaced num, h.needed image himage,
          ⟨hdep, fun hex => hnew (Or.inl hex), ?_⟩, hlocate⟩
        intro htop
        rw [htop] at hnew
        exact hnew (Or.inr (List.mem_map_of_mem h.top_mem))
      | some depImage =>
        obtain ⟨hnodup, hneeded, hpush⟩ := h.push hlocate hcontains himage hdep
        dsimp only
        by_cases hfull : loader.newMaxCount ≤ s.newImages.length
        · rw [if_pos hfull]
          refine ⟨fun hnone => absurd hnone (by simp), fun _ => Or.inr ?_⟩
          refine ⟨s.newImages ++ [depImage], hnodup, ?_, ?_⟩
          · intro i hi
            rw [List.mem_append, List.mem_singleton] at hi
            rcases hi with hi | rfl
            · exact h.needed i hi
            · exact hneeded
          · rw [List.length_append, List.length_singleton]
            exact Nat.lt_succ_of_le hfull
        · rw [if_neg hfull]
          obtain ⟨hok, herror⟩ := ih hrest (hpush (not_le.mp hfull)) (List.mem_append_left _ himage)
          refine ⟨fun hnone => ?_, herror⟩
          obtain ⟨hcomp, hinitial, hall⟩ := hok hnone
          refine ⟨hcomp, (List.prefix_append _ _).trans hinitial, ?_⟩
          intro d hd
          rw [List.mem_cons] at hd
          rcases hd with rfl | hd
          · apply Or.inr
            apply (hinitial.map _).subset
            rw [List.map_append, List.mem_append]
            exact Or.inr (List.mem_singleton.mpr (ImageArray.imageNum_of_findImage hlocate).symm)
          · exact hall d hd

lemma completeLoop_error (rounds index : Nat) (h : s.diag ≠ none) :
    loader.completeLoop (rounds + 1) index s = some s := by
  rw [completeLoop]
  cases s.newImages[index]? with
  | none => rfl
  | some image => exact if_pos (Option.isSome_iff_ne_none.mpr h)

lemma replaced_mem_depImageNums {image : Image} {d : (LinkKind × Nat) × Nat}
    (hd : d ∈ forEachDependentImage image) : loader.replaced d.1.2 ∈ loader.depImageNums image := by
  obtain ⟨hmem, hkept⟩ := List.mem_filter.mp hd
  have hd1 : d.1 ∈ image.dependents := (List.mem_zipIdx hmem).2.2 ▸ List.getElem_mem _
  exact List.mem_map_of_mem (List.mem_map_of_mem (List.mem_filter.mpr ⟨hd1, hkept⟩))

lemma exists_of_mem_depImageNums {image : Image} {num : Nat} (h : num ∈ loader.depImageNums image) :
    ∃ d ∈ forEachDependentImage image, loader.replaced d.1.2 = num := by
  obtain ⟨n, hn, rfl⟩ := List.mem_map.mp h
  obtain ⟨d, hd, rfl⟩ := List.mem_map.mp hn
  obtain ⟨hmem, hkept⟩ := List.mem_filter.mp hd
  obtain ⟨i, hi, rfl⟩ := List.getElem_of_mem hmem
  refine ⟨(image.dependents[i], i), List.mem_filter.mpr ⟨?_, hkept⟩, rfl⟩
  rw [List.mk_mem_zipIdx_iff_getElem?]
  exact List.getElem?_eq_getElem hi

lemma completeLoop_spec (rounds index : Nat) (h : Completing loader top s)
    (hindex : index ≤ s.newImages.length) (hrounds : loader.newMaxCount + 1 ≤ rounds + index)
    (hclosed : ∀ i < index, ∀ image, s.newImages[i]? = some image →
      ∀ num ∈ loader.depImageNums image,
        loader.Existing num ∨ num ∈ s.newImages.map (·.imageNum)) :
    ∃ s', loader.completeLoop rounds index s = some s' ∧
      (s'.diag = none → Completing loader top s' ∧ loader.IsClosure top s'.newImages) ∧
      (s'.diag ≠ none → loader.CannotLocate top ∨ loader.Exhausts top) := by
  induction rounds generalizing index s with
  | zero =>
    have hroom := h.room
    omega
  | succ rounds ih =>
    rw [completeLoop]
    cases himage : s.newImages[index]? with
    | none =>
      refine ⟨s, rfl, fun _ => ⟨h, ?_⟩, fun herror => absurd h.noError herror⟩
      have hlength := List.getElem?_eq_none_iff.mp himage
      refine ⟨h.head, h.nodup, h.notExisting, ?_, h.needed⟩
      intro image hmem num hnum
      obtain ⟨i, hi, rfl⟩ := List.getElem_of_mem hmem
      exact hclosed i (by omega) _ (List.getElem?_eq_getElem hi) num hnum
    | some image =>
      dsimp only
      rw [h.noError, if_neg (by simp)]
      have hmem := List.mem_of_getElem? himage
      have hlt := (List.getElem?_eq_some_iff.mp himage).1
      obtain ⟨hok, herror⟩ := addDependents_spec (forEachDependentImage image)
        (fun d hd => replaced_mem_depImageNums hd) h hmem
      by_cases hnone : (loader.addDependents image (forEachDependentImage image) s).diag = none
      · obtain ⟨hcomp, hinitial, hall⟩ := hok hnone
        apply ih (index + 1) hcomp (hlt.trans_le hinitial.length_le) (by omega)
        intro i hi image' himage' num hnum
        have hold : ∀ j < s.newImages.length,
            (loader.addDependents image (forEachDependentImage image) s).newImages[j]? =
              s.newImages[j]? := by
          obtain ⟨added, hadded⟩ := hinitial
          intro j hj
          rw [← hadded, List.getElem?_append_left hj]
        rw [hold i (by omega)] at himage'
        rcases Nat.lt_or_eq_of_le (Nat.le_of_lt_succ hi) with hbelow | rfl
        · apply (hclosed i hbelow image' himage' num hnum).imp_right
          exact fun hmem' => (hinitial.map _).subset hmem'
        · rw [himage, Option.some.injEq] at himage'
          subst himage'
          obtain ⟨d, hd, rfl⟩ := exists_of_mem_depImageNums hnum
          exact hall d hd
      · obtain ⟨rounds, rfl⟩ : ∃ r, rounds = r + 1 := ⟨rounds - 1, by
          have hroom := h.room
          omega⟩
        rw [completeLoop_error _ _ hnone]
        exact ⟨_, rfl, fun hn => absurd hn hnone, herror⟩

lemma IsClosure.nothing_due (h : loader.IsClosure top s.newImages) (hcomp : Completing loader top s) :
    ¬loader.CannotLocate top ∧ ¬loader.Exhausts top := by
  -- the new image with a needed number is the one that is found
  have hfound : ∀ {image num}, image ∈ s.newImages → loader.Needs top image num →
      ∃ depImage ∈ s.newImages, ImageArray.findImage loader.imagesArrays num = some depImage := by
    intro image num himage hneeds
    obtain hex | hmem := h.closed image himage num hneeds.1
    · exact absurd hex hneeds.2.1
    · obtain ⟨depImage, hdep, rfl⟩ := List.mem_map.mp hmem
      rcases hcomp.located depImage hdep with rfl | hlocate
      · exact absurd rfl hneeds.2.2
      · exact ⟨depImage, hdep, hlocate⟩
  have hall : ∀ {image}, loader.Needed top image → image ∈ s.newImages := by
    intro image hneeded
    induction hneeded with
    | top => exact hcomp.top_mem
    | dependent _ hneeds hlocate ih =>
      obtain ⟨depImage, hdep, hlocate'⟩ := hfound ih hneeds
      rw [hlocate, Option.some.injEq] at hlocate'
      exact hlocate' ▸ hdep
  constructor
  · rintro ⟨image, num, hneeded, hneeds, hnone⟩
    obtain ⟨depImage, -, hlocate⟩ := hfound (hall hneeded) hneeds
    rw [hnone] at hlocate
    cases hlocate
  · rintro ⟨images, hnodup, hneeded, hlt⟩
    have hsubset : images.map (·.imageNum) ⊆ s.newImages.map (·.imageNum) := by
      intro num hnum
      obtain ⟨image, himage, rfl⟩ := List.mem_map.mp hnum
      exact List.mem_map_of_mem (hall (hneeded image himage))
    have hle := (List.subperm_of_subset hnodup hsubset).length_le
    have hroom := hcomp.room
    rw [List.length_map, List.length_map] at hle
    omega

end Loops

/-- The assertion on the overrides fails exactly when they are too many. Otherwise the new images
become the closure of the top image, or an error is reported, exactly when an image cannot be
located or the storage is too small. -/
theorem completeAllDependents_closure (loader : Loader) (top : Image)
    (htop : ¬loader.Existing top.imageNum) (hroom : 0 < loader.newMaxCount) :
    (loader.completeAllDependents top = none ↔
      loader.existingMaxCount + loader.newMaxCount + 512 < loader.overrides.length) ∧
    ∀ s, loader.completeAllDependents top = some s →
      (s.diag = none → loader.IsClosure top s.newImages) ∧
      (s.diag ≠ none ↔ loader.CannotLocate top ∨ loader.Exhausts top) := by
  have hinit : Completing loader top ⟨[top],
      ((loader.existingImages.map (·.imageNum)).foldl ImageNumSet.add .empty).add top.imageNum,
        none⟩ := by
    constructor
    · rfl
    · rfl
    · exact List.nodup_singleton _
    · intro image himage
      rw [List.mem_singleton.mp himage]
      exact htop
    · intro image himage
      rw [List.mem_singleton.mp himage]
      exact Needed.top
    · intro image himage
      exact Or.inl (List.mem_singleton.mp himage)
    · exact hroom
    · intro num
      dsimp only
      rw [ImageNumSet.contains_add, ImageNumSet.contains_foldl_add, ImageNumSet.contains_empty,
        List.map_singleton, List.mem_singleton]
      unfold Existing
      tauto
  obtain ⟨s, hloop, hok, herror⟩ := completeLoop_spec (loader.newMaxCount + 1) 0 hinit
    (Nat.zero_le _) le_rfl (fun i hi => absurd hi (Nat.not_lt_zero i))
  unfold completeAllDependents
  by_cases hmany : loader.overrides.length > loader.existingMaxCount + loader.newMaxCount + 512
  · rw [if_pos hmany]
    refine ⟨iff_of_true rfl hmany, ?_⟩
    intro s' hs'
    cases hs'
  · rw [if_neg hmany, hloop]
    refine ⟨iff_of_false (by simp) hmany, ?_⟩
    intro s' hs'
    cases hs'
    refine ⟨fun hnone => (hok hnone).2, herror, ?_⟩
    intro hdue hnone
    obtain ⟨hcomp, hclosure⟩ := hok hnone
    obtain ⟨hlocate, hexhaust⟩ := hclosure.nothing_due hcomp
    exact hdue.elim hlocate hexhaust

def overridesOfOne (count : Nat) : ImageArray where
  firstImageNum := 0x2000
  hasRoots := false
  images := (List.range count).map fun i => ⟨0x2000 + i, true, true, some 1, false, []⟩
  consecutive := by
    intro _ i image himage
    obtain ⟨n, hn, rfl⟩ := Option.map_eq_some_iff.mp ((List.getElem?_map ..).symm.trans himage)
    rw [(List.getElem?_eq_some_iff.mp hn).2.symm, List.getElem_range]

/-- A loader without existing images that has room for one new image. -/
def loaderWith (count : Nat) : Loader := ⟨[], 0, 1, [overridesOfOne count], false⟩

def overridingLoader : Loader where
  existingImages := [⟨1, true, false, none, false, []⟩]
  existingMaxCount := 1
  newMaxCount := 4
  imagesArrays := [
    { firstImageNum := 1
      hasRoots := false
      images := [⟨1, true, false, none, false, []⟩, ⟨2, true, false, none, false, []⟩,
        ⟨3, true, false, none, false, [(.upward, 2), (.regular, 1)]⟩]
      consecutive := by
        intro _ i image himage
        match i, himage with
        | 0, himage | 1, himage | 2, himage => cases himage; rfl },
    { firstImageNum := 0x2000
      hasRoots := true
      images := [⟨0x2001, true, true, some 2, false, [(.regular, 3)]⟩]
      consecutive := by simp }]
  iOSonMac := false

def pluginImage : Image :=
  ⟨0x3000, true, false, none, false,
    [(.regular, 1), (.regular, 2), (.weak, kMissingWeakLinkedImage), (.upward, 0x3000)]⟩

theorem completeAllDependents_closure_override :
    ∃ s, overridingLoader.completeAllDependents pluginImage = some s ∧
      s.newImages.map (·.imageNum) = [0x3000, 0x2001, 3] ∧
      overridingLoader.IsClosure pluginImage s.newImages := by
  have hrun : (overridingLoader.completeAllDependents pluginImage).map
      (fun s => (s.newImages.map (·.imageNum), s.diag)) = some ([0x3000, 0x2001, 3], none) := by
    decide +kernel
  obtain ⟨s, hs, hpair⟩ := Option.map_eq_some_iff.mp hrun
  obtain ⟨hnums, hdiag⟩ := Prod.mk.inj hpair
  have htop : ¬overridingLoader.Existing pluginImage.imageNum := by
    simp [Existing, overridingLoader, pluginImage]
  have hclosure := completeAllDependents_closure overridingLoader pluginImage htop (by decide)
  exact ⟨s, hs, hnums, (hclosure.2 s hs).1 hdiag⟩

theorem completeAllDependents_asserts :
    (∀ o ∈ (loaderWith 514).overrides, ∀ p ∈ (loaderWith 514).overrides, o.replacement ≠ p.inCache) ∧
      (loaderWith 514).completeAllDependents ⟨0x3000, true, false, none, false, []⟩ = none := by
  have hoverrides : (loaderWith 514).overrides =
      (List.range 514).map fun i => ⟨1, 0x2000 + i⟩ := by
    simp [overrides, loaderWith, overridesOfOne, kFirstLaunchClosureImageNum, List.filterMap_map]
  constructor
  · intro o ho p hp
    rw [hoverrides] at ho hp
    obtain ⟨i, -, rfl⟩ := List.mem_map.mp ho
    obtain ⟨j, -, rfl⟩ := List.mem_map.mp hp
    dsimp only
    omega
  · rw [completeAllDependents, hoverrides, List.length_map, List.length_range]
    exact if_pos (by decide)

end Loader

end Dyld.AllImages
