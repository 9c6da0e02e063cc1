import Dyld.Closure.InitOrder
import Dyld.Lib.Marking

/-!
# Unloading images after `dlclose`

One pass of `AllImages::garbageCollectImages` with its `Reaper`: images that may be unloaded
are marked from the directly opened ones along their dependents until nothing changes, and
the unmarked ones are removed from the loaded images.
-/

namespace Dyld.AllImages
open Dyld.Lib
open Dyld.Closure.InitOrder (LinkKind kMissingWeakLinkedImage)

/-- What unloading reads of a `closure::Image`; `overrideImageNum` is its `imageOverride`
attribute. -/
structure Image where
  imageNum : Nat
  isDylib : Bool
  hasOverrideImageNum : Bool
  overrideImageNum : Option Nat
  neverUnload : Bool
  dependents : List (LinkKind × Nat)
  deriving DecidableEq

def Image.representsImageNum (image : Image) (num : Nat) : Bool :=
  if image.imageNum = num then true
  else if !image.isDylib then false
  else if !image.hasOverrideImageNum then false
  else
    match image.overrideImageNum with
    | some cacheImageNum => cacheImageNum = num
    | none => false

/-- The image numbers `Image::forEachDependentImage` passes to its handler. -/
def Image.dependentImageNums (image : Image) : List Nat :=
  (image.dependents.filter fun d => !(d.2 = kMissingWeakLinkedImage && d.1 = .weak)).map (·.2)

structure LoadedImage where
  loadedAddress : Nat
  image : Image
  deriving DecidableEq

structure DlopenCount where
  loadAddress : Nat
  refCount : Nat
  deriving DecidableEq

structure State where
  loadedImages : List LoadedImage
  dlopenRefCounts : List DlopenCount
  addresses_nodup : (loadedImages.map (·.loadedAddress)).Nodup

/-! ### The reaper -/

abbrev ImageAndUse := Marked LoadedImage

def markDirectlyDlopenedImagesAsUsed (dlopenRefCounts : List DlopenCount)
    (unloadables : List ImageAndUse) : List ImageAndUse :=
  dlopenRefCounts.foldl (fun unloadables entry =>
    if entry.refCount ≠ 0 then
      markFirst (fun iu => iu.node.loadedAddress = entry.loadAddress) unloadables
    else unloadables) unloadables

def markDependentsOf (unloadables : List ImageAndUse) (li : LoadedImage) : List ImageAndUse :=
  li.image.dependentImageNums.foldl (fun unloadables depImageNum =>
    markFirst (fun iu => !iu.inUse && iu.node.image.representsImageNum depImageNum) unloadables)
    unloadables

/-- One turn of the loop of `markDependentOfInUseImages`, at entry `i`. -/
def markDependentsAt (unloadables : List ImageAndUse) (i : Nat) : List ImageAndUse :=
  match unloadables[i]? with
  | some iu => if iu.inUse then markDependentsOf unloadables iu.node else unloadables
  | none => unloadables

def markDependentOfInUseImages (unloadables : List ImageAndUse) : List ImageAndUse :=
  (List.range unloadables.length).foldl markDependentsAt unloadables

lemma grows_markDependentsOf (us : List ImageAndUse) (li : LoadedImage) :
    Grows us (markDependentsOf us li) :=
  grows_foldl (fun _ _ => grows_markFirst _ _) _ _

lemma grows_markDependentsAt (us : List ImageAndUse) (i : Nat) : Grows us (markDependentsAt us i) := by
  unfold markDependentsAt
  split
  · split
    · exact grows_markDependentsOf _ _
    · exact Grows.refl us
  · exact Grows.refl us

lemma grows_markDependentOfInUseImages (us : List ImageAndUse) :
    Grows us (markDependentOfInUseImages us) :=
  grows_foldl grows_markDependentsAt _ _

/-- The loop of `Reaper::garbageCollect`; `lastCount` is the count before the pass. -/
def markUntilStable (unloadables : List ImageAndUse) : List ImageAndUse :=
  let marked := markDependentOfInUseImages unloadables
  if inUseCount marked ≠ inUseCount unloadables then markUntilStable marked else marked
termination_by unloadables.length - inUseCount unloadables
decreasing_by
  rename_i hne
  have hgrows := grows_markDependentOfInUseImages unloadables
  have hle := hgrows.inUseCount_le
  have hlen := hgrows.length_eq
  have hbound := inUseCount_le_length (markDependentOfInUseImages unloadables)
  change inUseCount (markDependentOfInUseImages unloadables) ≠ inUseCount unloadables at hne
  change (markDependentOfInUseImages unloadables).length -
    inUseCount (markDependentOfInUseImages unloadables) < _
  omega

def garbageCollect (dlopenRefCounts : List DlopenCount) (unloadables : List ImageAndUse) :
    List ImageAndUse :=
  markUntilStable (markDirectlyDlopenedImagesAsUsed dlopenRefCounts unloadables)

/-! ### One pass -/

def unloadables (loadedImages : List LoadedImage) : List ImageAndUse :=
  (loadedImages.filter fun li => !li.image.neverUnload).map fun li => ⟨li, false⟩

def removeImages (loadedImages unloadImages : List LoadedImage) : List LoadedImage :=
  eraseKeys (·.loadedAddress) loadedImages (unloadImages.map (·.loadedAddress))

/-- One pass of `AllImages::garbageCollectImages`, with terminators that open and close nothing. -/
def garbageCollectImages (st : State) : State where
  loadedImages := removeImages st.loadedImages
    (((garbageCollect st.dlopenRefCounts (unloadables st.loadedImages)).filter fun iu => !iu.inUse).map
      (·.node))
  dlopenRefCounts := st.dlopenRefCounts
  addresses_nodup := st.addresses_nodup.sublist ((eraseKeys_sublist _ _).map _)

def decRefCount (st : State) (loadAddress : Nat) : State :=
  match st.dlopenRefCounts.find? (·.loadAddress = loadAddress) with
  | none => st
  | some entry =>
    if entry.refCount - 1 = 0 then
      garbageCollectImages
        { st with dlopenRefCounts := st.dlopenRefCounts.eraseP (·.loadAddress = loadAddress) }
    else
      { st with
        dlopenRefCounts := st.dlopenRefCounts.modify
          (st.dlopenRefCounts.findIdx (·.loadAddress = loadAddress))
          (fun entry => { entry with refCount := entry.refCount - 1 }) }

/-! ### What should be kept -/

/-- `b` is one of the images `a` is linked against, by any link kind. -/
def DependsOn (a b : LoadedImage) : Prop :=
  ∃ num ∈ a.image.dependentImageNums, b.image.representsImageNum num = true

section Spec

variable (st : State)

def Unloadable (li : LoadedImage) : Prop := li ∈ st.loadedImages ∧ li.image.neverUnload = false

def Dlopened (li : LoadedImage) : Prop :=
  ∃ entry ∈ st.dlopenRefCounts, entry.refCount ≠ 0 ∧ entry.loadAddress = li.loadedAddress

def Reaches : LoadedImage → LoadedImage → Prop :=
  Relation.ReflTransGen fun a b => b ∈ st.loadedImages ∧ DependsOn a b

def Removed (li : LoadedImage) : Prop :=
  li ∈ st.loadedImages ∧ li ∉ (garbageCollectImages st).loadedImages

/-- The pass removes what nothing that stays needs, and all of it. -/
structure CollectsExactly : Prop where
  sublist : (garbageCollectImages st).loadedImages.Sublist st.loadedImages
  removed_only : ∀ li, Removed st li → li.image.neverUnload = false ∧ ¬Dlopened st li ∧
    ∀ s ∈ (garbageCollectImages st).loadedImages, ¬Reaches st s li
  removed_all : ∀ li, Unloadable st li →
    (∀ root ∈ st.loadedImages, root.image.neverUnload = true ∨ Dlopened st root →
      ¬Reaches st root li) → Removed st li
  kept_closed : ∀ s ∈ (garbageCollectImages st).loadedImages, ∀ li, Removed st li → ¬DependsOn s li

/-- `li` is reached from a directly opened unloadable image through unloadable images. -/
def HeldByDlopen (li : LoadedImage) : Prop :=
  ∃ root, Unloadable st root ∧ Dlopened st root ∧
    Relation.ReflTransGen (fun a b => Unloadable st b ∧ DependsOn a b) root li

/-- Whatever unloadable image a never-unload image is linked against is held by `dlopen` too. -/
def NeverUnloadDependentsHeld : Prop :=
  ∀ s ∈ st.loadedImages, s.image.neverUnload = true →
    ∀ li, Unloadable st li → DependsOn s li → HeldByDlopen st li

end Spec

/-! ### The marks -/

lemma markUntilStable_grows (us : List ImageAndUse) : Grows us (markUntilStable us) := by
  fun_induction markUntilStable us with
  | case1 us marked _ ih => exact (grows_markDependentOfInUseImages us).trans ih
  | case2 us marked _ => exact grows_markDependentOfInUseImages us

/-- Where the loop ends, a further pass changes nothing. -/
lemma markDependentOfInUseImages_markUntilStable (us : List ImageAndUse) :
    markDependentOfInUseImages (markUntilStable us) = markUntilStable us := by
  fun_induction markUntilStable us with
  | case1 us marked _ ih => exact ih
  | case2 us marked hcount =>
    have heq := (grows_markDependentOfInUseImages us).eq_of_inUseCount_eq (not_not.mp hcount)
    change markDependentOfInUseImages (markDependentOfInUseImages us) = markDependentOfInUseImages us
    rw [← heq, ← heq]

/-- A list that a pass leaves alone is closed under dependents. -/
lemma mem_of_markDependentOfInUseImages_eq {us : List ImageAndUse}
    (h : markDependentOfInUseImages us = us) {a b : LoadedImage} (ha : ⟨a, true⟩ ∈ us)
    (hb : b ∈ us.map (·.node)) (hab : DependsOn a b) : ⟨b, true⟩ ∈ us := by
  obtain ⟨num, hnum, hrep⟩ := hab
  obtain ⟨i, hi, hget⟩ := List.getElem_of_mem ha
  have hat : markDependentsAt us i = us :=
    step_eq_of_foldl_eq grows_markDependentsAt h i (List.mem_range.mpr hi)
  have hof : markDependentsOf us a = us := by
    rwa [markDependentsAt, List.getElem?_eq_getElem hi, hget] at hat
  have hfirst := step_eq_of_foldl_eq (fun _ _ => grows_markFirst _ _) hof num hnum
  obtain ⟨⟨b', inUse⟩, hm, rfl⟩ := List.mem_map.mp hb
  have hflag := inUse_of_markFirst_eq (q := fun li => li.image.representsImageNum num) hfirst hm hrep
  obtain rfl : inUse = true := hflag
  exact hm

section Pass

variable {st : State}

/-- The marks at the end of the pass. -/
def State.marks (st : State) : List ImageAndUse :=
  garbageCollect st.dlopenRefCounts (unloadables st.loadedImages)

lemma grows_markDirectlyDlopenedImagesAsUsed (entries : List DlopenCount) (us : List ImageAndUse) :
    Grows us (markDirectlyDlopenedImagesAsUsed entries us) := by
  apply grows_foldl
  intro us entry
  split
  · exact grows_markFirst _ _
  · exact Grows.refl us

lemma marks_map_node (st : State) :
    st.marks.map (·.node) = st.loadedImages.filter fun li => !li.image.neverUnload := by
  have hgrows := (grows_markDirectlyDlopenedImagesAsUsed st.dlopenRefCounts
    (unloadables st.loadedImages)).trans (markUntilStable_grows _)
  rw [State.marks, garbageCollect, hgrows.map_node, unloadables, List.map_map]
  simp [Function.comp_def]

lemma mem_marks_iff {li : LoadedImage} : li ∈ st.marks.map (·.node) ↔ Unloadable st li := by
  rw [marks_map_node, List.mem_filter, Unloadable]
  simp

lemma State.nodup (st : State) : st.loadedImages.Nodup := List.Nodup.of_map _ st.addresses_nodup

lemma State.eq_of_address (st : State) {a b : LoadedImage} (ha : a ∈ st.loadedImages)
    (hb : b ∈ st.loadedImages) (h : a.loadedAddress = b.loadedAddress) : a = b :=
  List.inj_on_of_nodup_map st.addresses_nodup ha hb h

lemma heldByDlopen_of_marks {li : LoadedImage} (h : ⟨li, true⟩ ∈ st.marks) : HeldByDlopen st li := by
  have hinit : MarkedBy (Unloadable st) (HeldByDlopen st) (unloadables st.loadedImages) := by
    intro m hm
    obtain ⟨a, ha, rfl⟩ := List.mem_map.mp hm
    have ha := List.mem_filter.mp ha
    exact ⟨⟨ha.1, by simpa using ha.2⟩, fun h => absurd h (by simp)⟩
  have hdirect : MarkedBy (Unloadable st) (HeldByDlopen st)
      (markDirectlyDlopenedImagesAsUsed st.dlopenRefCounts (unloadables st.loadedImages)) := by
    refine List.foldlRecOn (motive := MarkedBy _ _) _ _ hinit (fun us hus entry hentry => ?_)
    split
    · rename_i hcount
      refine hus.markFirst (fun m hm haddr => ⟨m.node, hm, ⟨entry, hentry, hcount, ?_⟩, .refl⟩)
      exact (decide_eq_true_eq.mp haddr).symm
    · exact hus
  have hpass : ∀ us : List ImageAndUse, MarkedBy (Unloadable st) (HeldByDlopen st) us →
      MarkedBy (Unloadable st) (HeldByDlopen st) (markDependentOfInUseImages us) := by
    intro us hus
    refine List.foldlRecOn (motive := MarkedBy _ _) _ _ hus (fun us hus i _ => ?_)
    unfold markDependentsAt
    split
    · rename_i iu hiu
      split
      · rename_i hflag
        obtain ⟨root, hroot, hopen, hpath⟩ := (hus iu (List.mem_of_getElem? hiu)).2 hflag
        refine List.foldlRecOn (motive := MarkedBy _ _) _ _ hus
          (fun us hus num hnum => hus.markFirst (fun m hm hrep => ?_))
        refine ⟨root, hroot, hopen, hpath.tail ⟨hm, num, hnum, ?_⟩⟩
        exact (Bool.and_eq_true_iff.mp hrep).2
      · exact hus
    · exact hus
  have hstable : ∀ us : List ImageAndUse, MarkedBy (Unloadable st) (HeldByDlopen st) us →
      MarkedBy (Unloadable st) (HeldByDlopen st) (markUntilStable us) := by
    intro us hus
    fun_induction markUntilStable us with
    | case1 us marked _ ih => exact ih (hpass us hus)
    | case2 us marked _ => exact hpass us hus
  exact (hstable _ hdirect ⟨li, true⟩ h).2 rfl

lemma mem_markDirectlyDlopenedImagesAsUsed {entries : List DlopenCount} {us : List ImageAndUse}
    {entry : DlopenCount} {li : LoadedImage} (hentry : entry ∈ entries) (hcount : entry.refCount ≠ 0)
    (haddr : entry.loadAddress = li.loadedAddress) (hli : li ∈ us.map (·.node))
    (hnodup : (us.map fun m => m.node.loadedAddress).Nodup) :
    ⟨li, true⟩ ∈ markDirectlyDlopenedImagesAsUsed entries us := by
  induction entries generalizing us with
  | nil => exact absurd hentry (by simp)
  | cons e entries ih =>
    rw [markDirectlyDlopenedImagesAsUsed, List.foldl_cons]
    rcases List.mem_cons.mp hentry with rfl | hentry
    · rw [if_pos hcount]
      refine (grows_markDirectlyDlopenedImagesAsUsed entries _).mem_inUse ?_
      rw [← (grows_markFirst (fun iu => decide (iu.node.loadedAddress = entry.loadAddress))
        us).map_node] at hli
      obtain ⟨⟨a, inUse⟩, hm, rfl⟩ := List.mem_map.mp hli
      have hpair : us.Pairwise fun a b => ¬(decide (a.node.loadedAddress = entry.loadAddress) = true ∧
          decide (b.node.loadedAddress = entry.loadAddress) = true) := by
        refine (List.pairwise_map.mp hnodup).imp (fun hne h => hne ?_)
        rw [decide_eq_true_eq, decide_eq_true_eq] at h
        exact h.1.trans h.2.symm
      have hflag := inUse_markFirst_of_pairwise
        (q := fun n : LoadedImage => decide (n.loadedAddress = entry.loadAddress)) hpair
        ⟨a, inUse⟩ hm (decide_eq_true haddr.symm)
      obtain rfl : inUse = true := hflag
      exact hm
    · have hgrows : Grows us (if e.refCount ≠ 0 then
          markFirst (fun iu => decide (iu.node.loadedAddress = e.loadAddress)) us else us) := by
        split
        · exact grows_markFirst _ _
        · exact Grows.refl us
      have hmap := congrArg (List.map LoadedImage.loadedAddress) hgrows.map_node
      rw [List.map_map, List.map_map] at hmap
      refine ih hentry ?_ ?_
      · rw [hgrows.map_node]
        exact hli
      · exact hmap ▸ hnodup

lemma mem_marks_iff_heldByDlopen {li : LoadedImage} :
    ⟨li, true⟩ ∈ st.marks ↔ HeldByDlopen st li := by
  refine ⟨heldByDlopen_of_marks, ?_⟩
  rintro ⟨root, hroot, ⟨entry, hentry, hcount, haddr⟩, hpath⟩
  have hstable : markDependentOfInUseImages st.marks = st.marks :=
    markDependentOfInUseImages_markUntilStable _
  induction hpath with
  | refl =>
    apply (markUntilStable_grows _).mem_inUse
    refine mem_markDirectlyDlopenedImagesAsUsed hentry hcount haddr ?_ ?_
    · simp only [unloadables, List.map_map, List.mem_map, List.mem_filter]
      exact ⟨root, ⟨hroot.1, by simpa using hroot.2⟩, rfl⟩
    · have hsub : ((st.loadedImages.filter fun li => !li.image.neverUnload).map
          (·.loadedAddress)).Nodup :=
        st.addresses_nodup.sublist (List.filter_sublist.map _)
      simpa [unloadables, Function.comp_def] using hsub
  | tail _ hstep ih =>
    exact mem_of_markDependentOfInUseImages_eq hstable ih (mem_marks_iff.mpr hstep.1) hstep.2

/-! ### The sweep -/

lemma removed_iff {li : LoadedImage} : Removed st li ↔ Unloadable st li ∧ ¬HeldByDlopen st li := by
  have hflag : ∀ a, a ∈ ((st.marks.filter fun iu => !iu.inUse).map (·.node)) ↔ ⟨a, false⟩ ∈ st.marks := by
    intro a
    simp only [List.mem_map, List.mem_filter, Bool.not_eq_true']
    constructor
    · rintro ⟨⟨b, inUse⟩, ⟨hm, rfl⟩, rfl⟩
      exact hm
    · exact fun hm => ⟨⟨a, false⟩, ⟨hm, rfl⟩, rfl⟩
  have hnodup : (st.marks.map (·.node)).Nodup := by
    rw [marks_map_node]
    exact st.nodup.filter _
  have hmem : li ∈ (garbageCollectImages st).loadedImages ↔ li ∈ st.loadedImages ∧
      ∀ u ∈ (st.marks.filter fun iu => !iu.inUse).map (·.node), u.loadedAddress ≠ li.loadedAddress :=
    (mem_eraseKeys_iff st.addresses_nodup).trans (and_congr_right fun _ => List.forall_mem_map)
  rw [Removed]
  constructor
  · rintro ⟨hli, hnot⟩
    rw [hmem] at hnot
    push Not at hnot
    obtain ⟨u, hu, haddr⟩ := hnot hli
    rw [hflag] at hu
    have hunl : Unloadable st u := mem_marks_iff.mp (List.mem_map_of_mem hu)
    obtain rfl := st.eq_of_address hunl.1 hli haddr
    refine ⟨hunl, fun hheld => ?_⟩
    have htrue := mem_marks_iff_heldByDlopen.mpr hheld
    have heq : (⟨u, false⟩ : ImageAndUse) = ⟨u, true⟩ :=
      List.inj_on_of_nodup_map hnodup hu htrue rfl
    exact absurd (congrArg Marked.inUse heq) (by simp)
  · rintro ⟨hunl, hnot⟩
    refine ⟨hunl.1, fun hli => ?_⟩
    obtain ⟨⟨a, inUse⟩, hm, rfl⟩ := List.mem_map.mp (mem_marks_iff.mpr hunl)
    cases inUse with
    | true => exact hnot (mem_marks_iff_heldByDlopen.mp hm)
    | false => exact (hmem.mp hli).2 a ((hflag a).mpr hm) rfl

lemma kept_iff {li : LoadedImage} : li ∈ (garbageCollectImages st).loadedImages ↔
    li ∈ st.loadedImages ∧ (li.image.neverUnload = true ∨ HeldByDlopen st li) := by
  have hremoved : Removed st li ↔ Unloadable st li ∧ ¬HeldByDlopen st li := removed_iff
  have hsub : li ∈ (garbageCollectImages st).loadedImages → li ∈ st.loadedImages :=
    fun h => (eraseKeys_sublist _ _).subset h
  simp only [Removed, Unloadable] at hremoved
  cases hnever : li.image.neverUnload with
  | true =>
    simp only [hnever] at hremoved
    tauto
  | false =>
    simp only [hnever] at hremoved
    tauto

end Pass

/-! ### Exactness -/

section Exact

variable {st : State}

lemma HeldByDlopen.dependsOn {a b : LoadedImage} (h : HeldByDlopen st a) (hb : Unloadable st b)
    (hab : DependsOn a b) : HeldByDlopen st b := by
  obtain ⟨root, hroot, hopen, hpath⟩ := h
  exact ⟨root, hroot, hopen, hpath.tail ⟨hb, hab⟩⟩

lemma kept_of_reaches (hheld : NeverUnloadDependentsHeld st) {a b : LoadedImage}
    (ha : a ∈ (garbageCollectImages st).loadedImages) (hab : Reaches st a b) :
    b ∈ (garbageCollectImages st).loadedImages := by
  induction hab with
  | refl => exact ha
  | @tail x y _ hstep ih =>
    obtain ⟨hx, hxkeep⟩ := kept_iff.mp ih
    refine kept_iff.mpr ⟨hstep.1, ?_⟩
    cases hy : y.image.neverUnload with
    | true => exact .inl rfl
    | false =>
      right
      rcases hxkeep with hnever | hxheld
      · exact hheld x hx hnever y ⟨hstep.1, hy⟩ hstep.2
      · exact hxheld.dependsOn ⟨hstep.1, hy⟩ hstep.2

lemma collectsExactly_of_held (hheld : NeverUnloadDependentsHeld st) : CollectsExactly st := by
  refine ⟨eraseKeys_sublist _ _, ?_, ?_, ?_⟩
  · intro li hli
    obtain ⟨hunl, hnot⟩ := removed_iff.mp hli
    refine ⟨hunl.2, fun hopen => hnot ⟨li, hunl, hopen, .refl⟩, fun s hs hreach => ?_⟩
    exact hli.2 (kept_of_reaches hheld hs hreach)
  · intro li hunl hroots
    refine removed_iff.mpr ⟨hunl, ?_⟩
    rintro ⟨root, hroot, hopen, hpath⟩
    refine hroots root hroot.1 (.inr hopen) ?_
    exact hpath.lift id (fun a b hab => ⟨hab.1.1, hab.2⟩)
  · intro s hs li hli hdep
    exact hli.2 (kept_of_reaches hheld hs (.single ⟨hli.1, hdep⟩))

lemma held_of_collectsExactly (h : CollectsExactly st) : NeverUnloadDependentsHeld st := by
  intro s hs hnever li hunl hdep
  by_contra hnot
  have hkept := kept_iff.mpr ⟨hs, .inl hnever⟩
  exact h.kept_closed s hkept li (removed_iff.mpr ⟨hunl, hnot⟩) hdep

end Exact

/-- For every list of loaded images, dependents and counts: one pass keeps exactly what is still
needed if and only if no never-unload image is linked against an unloadable image that is not
also held, through unloadable images, by a `dlopen`. -/
theorem garbageCollectImages_exact_iff (st : State) :
    CollectsExactly st ↔ NeverUnloadDependentsHeld st :=
  ⟨held_of_collectsExactly, collectsExactly_of_held⟩

/-- A plain dylib, opened first. -/
def plugin : LoadedImage := ⟨0x1000, ⟨0x1001, true, false, none, false, []⟩⟩

/-- A never-unload dylib (say with Objective-C content), opened later and linked against it. -/
def objcDylib : LoadedImage := ⟨0x2000, ⟨0x1002, true, false, none, true, [(.regular, 0x1001)]⟩⟩

def pluginAndObjc : State := ⟨[plugin, objcDylib], [⟨0x1000, 1⟩, ⟨0x2000, 1⟩], by decide⟩

/-- `dlclose` of the plain dylib removes it although the never-unload dylib depends on it. -/
theorem decRefCount_removes_needed :
    decRefCount pluginAndObjc 0x1000 =
      garbageCollectImages { pluginAndObjc with dlopenRefCounts := [⟨0x2000, 1⟩] } ∧
    ¬CollectsExactly { pluginAndObjc with dlopenRefCounts := [⟨0x2000, 1⟩] } := by
  refine ⟨rfl, fun h => ?_⟩
  have hheld := held_of_collectsExactly h objcDylib (by decide) rfl plugin ⟨by decide, rfl⟩
    ⟨0x1001, by decide, by decide⟩
  obtain ⟨root, hroot, ⟨entry, hentry, -, haddr⟩, -⟩ := hheld
  have hmem : root = plugin ∨ root = objcDylib := by simpa [pluginAndObjc] using hroot.1
  obtain rfl : entry = ⟨0x2000, 1⟩ := by simpa using hentry
  rcases hmem with rfl | rfl
  · exact absurd haddr (by decide)
  · exact absurd hroot.2 (by decide)

end Dyld.AllImages
