import Dyld.Closure.InitOrder

/-!
# Initializer roots that need a new closure

`ClosureBuilder::invalidateInitializerRoots` marks the images that have a dependent which must be
built anew, pass after pass over the images that were not initialized before, until a pass changes
nothing.
-/

namespace Dyld.Closure.InitializerRoots

open InitOrder (LinkedImage kMissingWeakLinkedImage findLoadedImage)

/-- A `BuilderLoadedImage` with its flag. -/
structure BuilderLoadedImage extends InitOrder.BuilderLoadedImage where
  mustBuildClosure : Bool

/-- What does not change. -/
def infos (images : List BuilderLoadedImage) : List InitOrder.BuilderLoadedImage :=
  images.map (·.toBuilderLoadedImage)

/-- The members of a `ClosureBuilder`. The images before `alreadyInitedIndex` were loaded earlier,
and what an image depends on is loaded. -/
structure Builder where
  loadedImages : List BuilderLoadedImage
  alreadyInitedIndex : Nat
  foundDyldCacheRoots : Bool
  alreadyInitedIndex_le : alreadyInitedIndex ≤ loadedImages.length
  dependents_loaded : ∀ li ∈ loadedImages, ∀ depIndex ∈ li.dependents,
    depIndex.imageNum ≠ kMissingWeakLinkedImage →
      (findLoadedImage (infos loadedImages) depIndex.imageNum).isSome

def mustBuild (images : List BuilderLoadedImage) (i : Nat) : Bool :=
  (images[i]?).any (·.mustBuildClosure)

def markBad (images : List BuilderLoadedImage) (i : Nat) : List BuilderLoadedImage :=
  images.modify i (fun li => { li with mustBuildClosure := true })

structure Pass where
  images : List BuilderLoadedImage
  madeChange : Bool

def checkDependent (i : Nat) (s : Pass) (depIndex : LinkedImage) : Pass :=
  if depIndex.imageNum = kMissingWeakLinkedImage then s
  else
    match findLoadedImage (infos s.images) depIndex.imageNum with
    -- the assertion of `findLoadedImage`, which a `Builder` never meets
    | none => s
    | some dep =>
      if mustBuild s.images dep then { images := markBad s.images i, madeChange := true } else s

/-- A turn of the loop over the images. -/
def checkImage (s : Pass) (i : Nat) : Pass :=
  match s.images[i]? with
  | none => s
  | some li => if li.mustBuildClosure then s else li.dependents.foldl (checkDependent i) s

def newIndexes (start : Nat) (images : List BuilderLoadedImage) : List Nat :=
  List.range' start (images.length - start)

def invalidatePass (start : Nat) (images : List BuilderLoadedImage) : Pass :=
  (newIndexes start images).foldl checkImage { images := images, madeChange := false }

/-! ### What one step does -/

@[simp] lemma infos_markBad (images : List BuilderLoadedImage) (i : Nat) :
    infos (markBad images i) = infos images := by
  apply List.ext_getElem?
  intro j
  rw [infos, infos, markBad, List.getElem?_map, List.getElem?_map, List.getElem?_modify]
  by_cases h : i = j
  · simp only [h, if_true]
    cases images[j]? <;> rfl
  · simp [h]

lemma length_infos (images : List BuilderLoadedImage) : (infos images).length = images.length :=
  List.length_map _

lemma mustBuild_markBad (images : List BuilderLoadedImage) (i j : Nat) :
    mustBuild (markBad images i) j = (mustBuild images j || decide (i = j ∧ j < images.length)) := by
  rw [mustBuild, mustBuild, markBad, List.getElem?_modify]
  by_cases hlt : j < images.length
  · rw [List.getElem?_eq_getElem hlt]
    by_cases h : i = j
    · simp [h, hlt]
    · simp [h]
  · rw [List.getElem?_eq_none (Nat.le_of_not_lt hlt)]
    simp [hlt]

/-- How many images are not marked. -/
def unmarkedCount (images : List BuilderLoadedImage) : Nat :=
  images.countP (fun li => !li.mustBuildClosure)

lemma markBad_cons_zero (li : BuilderLoadedImage) (images : List BuilderLoadedImage) :
    markBad (li :: images) 0 = { li with mustBuildClosure := true } :: images := rfl

lemma markBad_cons_succ (li : BuilderLoadedImage) (images : List BuilderLoadedImage) (i : Nat) :
    markBad (li :: images) (i + 1) = li :: markBad images i := rfl

lemma unmarkedCount_markBad_le (images : List BuilderLoadedImage) (i : Nat) :
    unmarkedCount (markBad images i) ≤ unmarkedCount images := by
  induction images generalizing i with
  | nil => simp [markBad]
  | cons li images ih =>
    cases i with
    | zero =>
      rw [markBad_cons_zero, unmarkedCount, unmarkedCount, List.countP_cons, List.countP_cons]
      simp
    | succ i =>
      have htail := ih i
      rw [markBad_cons_succ, unmarkedCount, unmarkedCount, List.countP_cons, List.countP_cons]
      rw [unmarkedCount, unmarkedCount] at htail
      omega

lemma unmarkedCount_markBad_lt {images : List BuilderLoadedImage} {i : Nat} {li : BuilderLoadedImage}
    (hli : images[i]? = some li) (hflag : li.mustBuildClosure = false) :
    unmarkedCount (markBad images i) < unmarkedCount images := by
  induction images generalizing i with
  | nil => simp at hli
  | cons a images ih =>
    cases i with
    | zero =>
      rw [List.getElem?_cons_zero, Option.some.injEq] at hli
      subst hli
      rw [markBad_cons_zero, unmarkedCount, unmarkedCount, List.countP_cons, List.countP_cons]
      simp [hflag]
    | succ i =>
      rw [List.getElem?_cons_succ] at hli
      have htail := ih hli
      rw [markBad_cons_succ, unmarkedCount, unmarkedCount, List.countP_cons, List.countP_cons]
      rw [unmarkedCount, unmarkedCount] at htail
      omega

/-- A step either does nothing or marks an image. -/
def Advances (s t : Pass) : Prop :=
  t = s ∨ t.madeChange = true ∧ unmarkedCount t.images < unmarkedCount s.images

lemma Advances.trans {s t u : Pass} (h : Advances s t) (h' : Advances t u) : Advances s u := by
  cases h with
  | inl h => exact h ▸ h'
  | inr h =>
    cases h' with
    | inl h' =>
      rw [h']
      exact Or.inr h
    | inr h' => exact Or.inr ⟨h'.1, h'.2.trans h.2⟩

lemma checkDependent_eq (i : Nat) (s : Pass) (depIndex : LinkedImage) :
    checkDependent i s depIndex = s ∨
      checkDependent i s depIndex = { images := markBad s.images i, madeChange := true } := by
  rw [checkDependent]
  split
  · exact Or.inl rfl
  · split
    · exact Or.inl rfl
    · split
      · exact Or.inr rfl
      · exact Or.inl rfl

lemma advances_checkImage (s : Pass) (i : Nat) : Advances s (checkImage s i) := by
  rw [checkImage]
  cases hli : s.images[i]? with
  | none => exact Or.inl rfl
  | some li =>
    dsimp only
    cases hflag : li.mustBuildClosure with
    | true => exact Or.inl rfl
    | false =>
      -- once the image is marked, marking it again does not unmark another
      rw [if_neg (by simp)]
      refine List.foldlRecOn li.dependents (checkDependent i) (Or.inl rfl) ?_
      intro t ht depIndex _
      cases checkDependent_eq i t depIndex with
      | inl h =>
        rw [h]
        exact ht
      | inr h =>
        rw [h]
        refine Or.inr ⟨rfl, ?_⟩
        cases ht with
        | inl ht =>
          rw [ht]
          exact unmarkedCount_markBad_lt hli hflag
        | inr ht => exact (unmarkedCount_markBad_le _ _).trans_lt ht.2

lemma advances_invalidatePass (start : Nat) (images : List BuilderLoadedImage) :
    Advances { images := images, madeChange := false } (invalidatePass start images) :=
  List.foldlRecOn (newIndexes start images) checkImage (Or.inl rfl)
    (fun t ht i _ => ht.trans (advances_checkImage t i))

/-- The loop, which ends as a pass that makes a change leaves fewer images unmarked. -/
def invalidateLoop (start : Nat) (images : List BuilderLoadedImage) (foundDyldCacheRoots : Bool) :
    List BuilderLoadedImage × Bool :=
  let s := invalidatePass start images
  if s.madeChange then invalidateLoop start s.images true else (s.images, foundDyldCacheRoots)
termination_by unmarkedCount images
decreasing_by
  rename_i hchange
  cases advances_invalidatePass start images with
  | inl h =>
    have hsame : (invalidatePass start images).madeChange = false := by rw [h]
    exact absurd (hchange.symm.trans hsame) (by simp)
  | inr h => exact h.2

/-! ### Reachability -/

def DependsOn (images : List InitOrder.BuilderLoadedImage) (i j : Nat) : Prop :=
  ∃ li, images[i]? = some li ∧ ∃ depIndex ∈ li.dependents,
    depIndex.imageNum ≠ kMissingWeakLinkedImage ∧
      findLoadedImage images depIndex.imageNum = some j

/-- A path of dependencies whose interior images are at `start` or after it. -/
inductive Reaches (images : List InitOrder.BuilderLoadedImage) (start : Nat) : Nat → Nat → Prop
  | edge {i j : Nat} (h : DependsOn images i j) : Reaches images start i j
  | step {i j k : Nat} (h : DependsOn images i j) (hj : start ≤ j) (hjk : Reaches images start j k) :
      Reaches images start i k

/-- Images that were marked on the way from `images₀`, each for a path to one that was marked at
first. -/
structure MarkedFrom (start : Nat) (images₀ images : List BuilderLoadedImage) : Prop where
  infos_eq : infos images = infos images₀
  keeps : ∀ i, mustBuild images₀ i = true → mustBuild images i = true
  reaches : ∀ i, mustBuild images i = true → mustBuild images₀ i = true ∨
    start ≤ i ∧ ∃ j, Reaches (infos images₀) start i j ∧ mustBuild images₀ j = true

section Marked

variable {start : Nat} {images₀ images : List BuilderLoadedImage}

lemma MarkedFrom.refl : MarkedFrom start images images :=
  ⟨rfl, fun _ h => h, fun _ h => Or.inl h⟩

lemma MarkedFrom.markBad (h : MarkedFrom start images₀ images) {i dep : Nat} (hi : start ≤ i)
    (hdep : DependsOn (infos images₀) i dep) (hmust : mustBuild images dep = true) :
    MarkedFrom start images₀ (markBad images i) where
  infos_eq := by rw [infos_markBad, h.infos_eq]
  keeps := by
    intro j hj
    rw [mustBuild_markBad, h.keeps j hj, Bool.true_or]
  reaches := by
    intro j hj
    rw [mustBuild_markBad, Bool.or_eq_true, decide_eq_true_eq] at hj
    cases hj with
    | inl hj => exact h.reaches j hj
    | inr hj =>
      rw [← hj.1]
      refine Or.inr ⟨hi, ?_⟩
      cases h.reaches dep hmust with
      | inl hfirst => exact ⟨dep, Reaches.edge hdep, hfirst⟩
      | inr hlater =>
        obtain ⟨hstart, k, hpath, hk⟩ := hlater
        exact ⟨k, Reaches.step hdep hstart hpath, hk⟩

lemma MarkedFrom.checkImage {s : Pass} (h : MarkedFrom start images₀ s.images) {i : Nat}
    (hi : start ≤ i) : MarkedFrom start images₀ (checkImage s i).images := by
  rw [InitializerRoots.checkImage]
  cases hli : s.images[i]? with
  | none => exact h
  | some li =>
    dsimp only
    split
    · exact h
    · have hinfo : (infos images₀)[i]? = some li.toBuilderLoadedImage := by
        rw [← h.infos_eq, infos, List.getElem?_map, hli]
        rfl
      refine List.foldlRecOn (motive := fun t => MarkedFrom start images₀ t.images) li.dependents
        (checkDependent i) h ?_
      intro t ht depIndex hmem
      rw [checkDependent]
      split
      · exact ht
      · rename_i hmissing
        split
        · exact ht
        · rename_i dep hfound
          split
          · rename_i hmust
            rw [ht.infos_eq] at hfound
            exact ht.markBad hi ⟨_, hinfo, depIndex, hmem, hmissing, hfound⟩ hmust
          · exact ht

lemma mem_newIndexes {i : Nat} : i ∈ newIndexes start images ↔ start ≤ i ∧ i < images.length := by
  rw [newIndexes, List.mem_range'_1]
  omega

lemma MarkedFrom.invalidatePass (h : MarkedFrom start images₀ images) :
    MarkedFrom start images₀ (invalidatePass start images).images :=
  List.foldlRecOn (motive := fun t => MarkedFrom start images₀ t.images) (newIndexes start images)
    InitializerRoots.checkImage h (fun _ ht _ hi => ht.checkImage (mem_newIndexes.mp hi).1)

end Marked

/-! ### A pass without a change -/

/-- Steps that note each change have done nothing when no change is noted. -/
lemma step_eq_of_madeChange {β : Type} {f : Pass → β → Pass}
    (hf : ∀ s x, f s x = s ∨ (f s x).madeChange = true) {xs : List β} {s : Pass}
    (h : (xs.foldl f s).madeChange = false) : ∀ x ∈ xs, f s x = s := by
  have hkeep : ∀ (ys : List β) (t : Pass), t.madeChange = true → (ys.foldl f t).madeChange = true := by
    intro ys t ht
    refine List.foldlRecOn (motive := fun u => u.madeChange = true) ys f ht ?_
    intro u hu y _
    cases hf u y with
    | inl hsame => rw [hsame, hu]
    | inr hchange => exact hchange
  induction xs with
  | nil => simp
  | cons x xs ih =>
    rw [List.foldl_cons] at h
    cases hf s x with
    | inl hsame =>
      rw [hsame] at h
      exact List.forall_mem_cons.mpr ⟨hsame, ih h⟩
    | inr hchange =>
      rw [hkeep xs _ hchange] at h
      exact absurd h (by simp)

lemma checkDependent_madeChange (i : Nat) (s : Pass) (depIndex : LinkedImage) :
    checkDependent i s depIndex = s ∨ (checkDependent i s depIndex).madeChange = true := by
  cases checkDependent_eq i s depIndex with
  | inl h => exact Or.inl h
  | inr h => exact Or.inr (by rw [h])

lemma checkImage_madeChange (s : Pass) (i : Nat) :
    checkImage s i = s ∨ (checkImage s i).madeChange = true := by
  cases advances_checkImage s i with
  | inl h => exact Or.inl h
  | inr h => exact Or.inr h.1

lemma closed_of_madeChange {start : Nat} {images : List BuilderLoadedImage}
    (h : (invalidatePass start images).madeChange = false) {i dep : Nat} (hi : start ≤ i)
    (hdep : DependsOn (infos images) i dep) (hmust : mustBuild images dep = true) :
    mustBuild images i = true := by
  obtain ⟨info, hinfo, depIndex, hmem, hmissing, hfound⟩ := hdep
  rw [infos, List.getElem?_map, Option.map_eq_some_iff] at hinfo
  obtain ⟨li, hli, rfl⟩ := hinfo
  have hlt : i < images.length := (List.getElem?_eq_some_iff.mp hli).1
  have himage := step_eq_of_madeChange checkImage_madeChange h i (mem_newIndexes.mpr ⟨hi, hlt⟩)
  rw [checkImage, hli] at himage
  dsimp only at himage
  cases hflag : li.mustBuildClosure with
  | true => rw [mustBuild, hli, Option.any_some, hflag]
  | false =>
    rw [if_neg (by simp [hflag])] at himage
    have hstep := step_eq_of_madeChange (checkDependent_madeChange i) (by rw [himage]) depIndex hmem
    rw [checkDependent, if_neg hmissing, hfound] at hstep
    dsimp only at hstep
    rw [if_pos hmust] at hstep
    exact absurd (congrArg Pass.madeChange hstep) (by simp)

lemma mustBuild_of_reaches {start : Nat} {images : List BuilderLoadedImage}
    (h : (invalidatePass start images).madeChange = false) {i j : Nat} (hi : start ≤ i)
    (hpath : Reaches (infos images) start i j) (hj : mustBuild images j = true) :
    mustBuild images i = true := by
  induction hpath with
  | edge hdep => exact closed_of_madeChange h hi hdep hj
  | step hdep hstart _ ih => exact closed_of_madeChange h hi hdep (ih hstart hj)

/-! ### The loop -/

lemma unmarkedCount_invalidatePass_le (start : Nat) (images : List BuilderLoadedImage) :
    unmarkedCount (invalidatePass start images).images ≤ unmarkedCount images := by
  cases advances_invalidatePass start images with
  | inl h => rw [h]
  | inr h => exact h.2.le

lemma invalidatePass_images {start : Nat} {images : List BuilderLoadedImage}
    (h : (invalidatePass start images).madeChange = false) :
    (invalidatePass start images).images = images := by
  cases advances_invalidatePass start images with
  | inl hsame => rw [hsame]
  | inr hchange =>
    rw [hchange.1] at h
    exact absurd h (by simp)

section Loop

variable (start : Nat) (images : List BuilderLoadedImage) (found : Bool)

lemma unmarkedCount_invalidateLoop_le :
    unmarkedCount (invalidateLoop start images found).1 ≤ unmarkedCount images := by
  induction images, found using invalidateLoop.induct start with
  | case1 images found s hchange ih =>
    rw [invalidateLoop, if_pos hchange]
    exact ih.trans (unmarkedCount_invalidatePass_le start images)
  | case2 images found s hchange =>
    rw [invalidateLoop, if_neg hchange]
    exact unmarkedCount_invalidatePass_le start images

lemma markedFrom_invalidateLoop {images₀ : List BuilderLoadedImage}
    (h : MarkedFrom start images₀ images) :
    MarkedFrom start images₀ (invalidateLoop start images found).1 := by
  induction images, found using invalidateLoop.induct start with
  | case1 images found s hchange ih =>
    rw [invalidateLoop, if_pos hchange]
    exact ih h.invalidatePass
  | case2 images found s hchange =>
    rw [invalidateLoop, if_neg hchange]
    exact h.invalidatePass

lemma invalidateLoop_madeChange :
    (invalidatePass start (invalidateLoop start images found).1).madeChange = false := by
  induction images, found using invalidateLoop.induct start with
  | case1 images found s hchange ih =>
    rw [invalidateLoop, if_pos hchange]
    exact ih
  | case2 images found s hchange =>
    have hsame : s.madeChange = false := Bool.not_eq_true _ ▸ hchange
    rw [invalidateLoop, if_neg hchange, invalidatePass_images hsame]
    exact hsame

lemma invalidateLoop_found :
    (invalidateLoop start images found).2 = (found || (invalidatePass start images).madeChange) := by
  induction images, found using invalidateLoop.induct start with
  | case1 images found s hchange ih =>
    rw [invalidateLoop, if_pos hchange, ih, Bool.true_or]
    exact (by rw [hchange, Bool.or_true] : (found || s.madeChange) = true).symm
  | case2 images found s hchange =>
    have hsame : s.madeChange = false := Bool.not_eq_true _ ▸ hchange
    rw [invalidateLoop, if_neg hchange]
    exact (by rw [hsame, Bool.or_false] : (found || s.madeChange) = found).symm

end Loop

lemma eq_of_mustBuild {images images' : List BuilderLoadedImage} (hinfos : infos images = infos images')
    (h : ∀ i, mustBuild images i = mustBuild images' i) : images = images' := by
  apply List.ext_getElem?
  intro i
  have hinfo : (infos images)[i]? = (infos images')[i]? := by rw [hinfos]
  have hflag := h i
  rw [infos, infos, List.getElem?_map, List.getElem?_map] at hinfo
  rw [mustBuild, mustBuild] at hflag
  cases hli : images[i]? with
  | none =>
    rw [hli, Option.map_none] at hinfo
    exact (Option.map_eq_none_iff.mp hinfo.symm).symm
  | some li =>
    rw [hli, Option.map_some] at hinfo
    obtain ⟨li', hli', hbase⟩ := Option.map_eq_some_iff.mp hinfo.symm
    rw [hli, hli', Option.any_some, Option.any_some] at hflag
    rw [hli']
    cases li
    cases li'
    simp_all

lemma madeChange_iff (start : Nat) (images : List BuilderLoadedImage) (found : Bool) :
    (invalidatePass start images).madeChange = true ↔
      ∃ i, mustBuild (invalidateLoop start images found).1 i ≠ mustBuild images i := by
  constructor
  · intro hchange
    by_contra hsame
    simp only [ne_eq, not_exists, not_not] at hsame
    have hinfos := (markedFrom_invalidateLoop start images found MarkedFrom.refl).infos_eq
    have hle := unmarkedCount_invalidateLoop_le start (invalidatePass start images).images true
    have hloop : invalidateLoop start images found =
        invalidateLoop start (invalidatePass start images).images true := by
      rw [invalidateLoop, if_pos hchange]
    rw [← hloop, eq_of_mustBuild hinfos hsame] at hle
    cases advances_invalidatePass start images with
    | inl h =>
      rw [h] at hchange
      exact absurd hchange (by simp)
    | inr h => exact absurd h.2 (by simpa using hle)
  · rintro ⟨i, hi⟩
    by_contra hchange
    rw [Bool.not_eq_true] at hchange
    rw [invalidateLoop, if_neg (by simp [hchange]), invalidatePass_images hchange] at hi
    exact hi rfl

namespace Builder

def invalidateInitializerRoots (b : Builder) : Builder where
  loadedImages := (invalidateLoop b.alreadyInitedIndex b.loadedImages b.foundDyldCacheRoots).1
  alreadyInitedIndex := b.alreadyInitedIndex
  foundDyldCacheRoots := (invalidateLoop b.alreadyInitedIndex b.loadedImages b.foundDyldCacheRoots).2
  alreadyInitedIndex_le := by
    have hinfos := (markedFrom_invalidateLoop b.alreadyInitedIndex b.loadedImages
      b.foundDyldCacheRoots MarkedFrom.refl).infos_eq
    rw [← length_infos, hinfos, length_infos]
    exact b.alreadyInitedIndex_le
  dependents_loaded := by
    have hinfos := (markedFrom_invalidateLoop b.alreadyInitedIndex b.loadedImages
      b.foundDyldCacheRoots MarkedFrom.refl).infos_eq
    intro li hli depIndex hdep hmissing
    have hmem : li.toBuilderLoadedImage ∈ infos b.loadedImages :=
      hinfos ▸ List.mem_map.mpr ⟨li, hli, rfl⟩
    obtain ⟨li', hli', hbase⟩ := List.mem_map.mp hmem
    rw [hinfos]
    exact b.dependents_loaded li' hli' depIndex (hbase ▸ hdep) hmissing

theorem invalidateInitializerRoots_marks (b : Builder) :
    infos b.invalidateInitializerRoots.loadedImages = infos b.loadedImages ∧
      (∀ i, b.alreadyInitedIndex ≤ i →
        (mustBuild b.invalidateInitializerRoots.loadedImages i = true ↔
          mustBuild b.loadedImages i = true ∨
            ∃ j, Reaches (infos b.loadedImages) b.alreadyInitedIndex i j ∧
              mustBuild b.loadedImages j = true)) ∧
      (∀ i, i < b.alreadyInitedIndex →
        mustBuild b.invalidateInitializerRoots.loadedImages i = mustBuild b.loadedImages i) ∧
      (b.invalidateInitializerRoots.foundDyldCacheRoots = true ↔
        b.foundDyldCacheRoots = true ∨
          ∃ i, mustBuild b.invalidateInitializerRoots.loadedImages i ≠ mustBuild b.loadedImages i) := by
  have hmarked := markedFrom_invalidateLoop b.alreadyInitedIndex b.loadedImages b.foundDyldCacheRoots
    MarkedFrom.refl
  have hend := invalidateLoop_madeChange b.alreadyInitedIndex b.loadedImages b.foundDyldCacheRoots
  refine ⟨hmarked.infos_eq, ?_, ?_, ?_⟩
  · intro i hi
    constructor
    · intro hmust
      cases hmarked.reaches i hmust with
      | inl hfirst => exact Or.inl hfirst
      | inr hpath => exact Or.inr hpath.2
    · intro h
      cases h with
      | inl hfirst => exact hmarked.keeps i hfirst
      | inr hpath =>
        obtain ⟨j, hpath, hj⟩ := hpath
        rw [← hmarked.infos_eq] at hpath
        exact mustBuild_of_reaches hend hi hpath (hmarked.keeps j hj)
  · intro i hi
    apply Bool.eq_iff_iff.mpr
    constructor
    · intro hmust
      cases hmarked.reaches i hmust with
      | inl hfirst => exact hfirst
      | inr hpath => exact absurd hpath.1 (Nat.not_le.mpr hi)
    · exact hmarked.keeps i
  · change (invalidateLoop _ _ _).2 = true ↔ _
    rw [invalidateLoop_found, Bool.or_eq_true, madeChange_iff _ _ b.foundDyldCacheRoots]
    rfl

/-- Behind an image that was initialized before stand two that link each other, a marked one that the
second of them links, and one that links none of them. -/
def cycle : Builder where
  loadedImages :=
    [⟨⟨[⟨.regular, 4⟩], 1, true, false, 0⟩, false⟩,
      ⟨⟨[⟨.weak, kMissingWeakLinkedImage⟩, ⟨.regular, 3⟩], 2, true, false, 0⟩, false⟩,
      ⟨⟨[⟨.upward, 2⟩, ⟨.regular, 4⟩], 3, true, false, 0⟩, false⟩,
      ⟨⟨[⟨.regular, 1⟩], 4, true, false, 0⟩, true⟩,
      ⟨⟨[⟨.regular, 1⟩], 5, true, false, 0⟩, false⟩]
  alreadyInitedIndex := 1
  foundDyldCacheRoots := false
  alreadyInitedIndex_le := by decide
  dependents_loaded := by decide

theorem invalidateInitializerRoots_cycle :
    mustBuild cycle.invalidateInitializerRoots.loadedImages 1 = true ∧
      mustBuild cycle.invalidateInitializerRoots.loadedImages 2 = true ∧
      mustBuild cycle.invalidateInitializerRoots.loadedImages 0 = false := by
  obtain ⟨-, hnew, hold, -⟩ := invalidateInitializerRoots_marks cycle
  have hlast : Reaches (infos cycle.loadedImages) 1 2 3 :=
    .edge ⟨_, rfl, ⟨.regular, 4⟩, by decide, by decide, rfl⟩
  have hfirst : Reaches (infos cycle.loadedImages) 1 1 3 :=
    .step ⟨_, rfl, ⟨.regular, 3⟩, by decide, by decide, rfl⟩ (by decide) hlast
  exact ⟨(hnew 1 le_rfl).mpr (Or.inr ⟨3, hfirst, rfl⟩), (hnew 2 (by decide)).mpr (Or.inr ⟨3, hlast, rfl⟩),
    hold 0 (by decide)⟩

end Builder

end Dyld.Closure.InitializerRoots
