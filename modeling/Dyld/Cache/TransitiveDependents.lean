import Dyld.Lib.MemoSearch

/-!
# The dependents of the cached dylibs

`computeReverseDependencyMap` turns the dependencies of the images around, upward ones left out,
and `computeTransitiveDependents` collects for each dylib what depends on it. The collecting
memoises its results and passes by the dylibs it is at, so that a result inside a cycle can be
incomplete.
-/

namespace Dyld.Cache.Dependents

open Dyld.Lib MemoSearch

variable {α : Type*}

/-- What `forEachDependentDylib` reports of a load command. -/
structure Dependent (α : Type*) where
  dependencyLoadPath : α
  isUpward : Bool

/-- What `forEachImage` reports, and the dependents of the Mach-O. -/
structure Image (α : Type*) where
  installName : α
  dependents : List (Dependent α)

structure SharedCache (α : Type*) where
  images : List (Image α)
  distinct : (images.map Image.installName).Nodup

/-- `std::unordered_map<std::string, std::set<std::string>>` -/
abbrev SetMap (α : Type*) := α → Option (Finset α)

section Code

variable [LinearOrder α]

namespace SharedCache

def fillMachOAnalyzersMap (cache : SharedCache α) : α → Option (Image α) :=
  cache.images.foldl (fun dylibAnalyzers image =>
    Function.update dylibAnalyzers image.installName (some image)) (fun _ => none)

end SharedCache

def SetMap.insertAt (reverseDependencyMap : SetMap α) (dependencyLoadPath loadPath : α) :
    SetMap α :=
  Function.update reverseDependencyMap dependencyLoadPath
    (some (insert loadPath ((reverseDependencyMap dependencyLoadPath).getD ∅)))

/-- Recursion to a depth. There is no result where `dylibAnalyzers.at` throws. -/
def computeReverseDependencyMapForDylib (dylibAnalyzers : α → Option (Image α)) :
    Nat → SetMap α → α → Option (SetMap α)
  | 0, _, _ => none
  | fuel + 1, reverseDependencyMap, loadPath => do
    let ma ← dylibAnalyzers loadPath
    if (reverseDependencyMap loadPath).isSome then
      some reverseDependencyMap
    else
      ma.dependents.foldlM (fun reverseDependencyMap dependent =>
          if dependent.isUpward then some reverseDependencyMap
          else do
            let reverseDependencyMap ← computeReverseDependencyMapForDylib dylibAnalyzers fuel
              reverseDependencyMap dependent.dependencyLoadPath
            some (reverseDependencyMap.insertAt dependent.dependencyLoadPath loadPath))
        (Function.update reverseDependencyMap loadPath (some ∅))

/-- Recursion to a depth, on the results and the visited set. There is no result where
`reverseDependencyMap.at` throws. -/
def findDependentsRecursively (reverseDependencyMap : SetMap α) :
    Nat → SetMap α × Finset α → α → Option (SetMap α × Finset α)
  | 0, _, _ => none
  | fuel + 1, (transitiveDependents, visited), loadPath =>
    if (transitiveDependents loadPath).isSome then some (transitiveDependents, visited)
    else if loadPath ∈ visited then some (transitiveDependents, visited)
    else do
      let next ← reverseDependencyMap loadPath
      let ((transitiveDependents, visited), dependents) ← (next.sort (· ≤ ·)).foldlM
        (fun (state, dependents) dependent => do
          let (transitiveDependents, visited) ←
            findDependentsRecursively reverseDependencyMap fuel state dependent
          let dependents :=
            match transitiveDependents dependent with
            | some theseTransitiveDependents => dependents ∪ theseTransitiveDependents
            | none => dependents
          some ((transitiveDependents, visited), insert dependent dependents))
        ((transitiveDependents, insert loadPath visited), (∅ : Finset α))
      some (Function.update transitiveDependents loadPath (some dependents), visited)

namespace SharedCache

variable (cache : SharedCache α)

def computeReverseDependencyMap (fuel : Nat) : Option (SetMap α) :=
  cache.images.foldlM (fun reverseDependencyMap image =>
    computeReverseDependencyMapForDylib cache.fillMachOAnalyzersMap fuel reverseDependencyMap
      image.installName) (fun _ => none)

/-- Both recursions go to a depth. -/
def computeTransitiveDependents (fuel : Nat) : Option (SetMap α) := do
  let reverseDependencyMap ← cache.computeReverseDependencyMap fuel
  cache.images.foldlM (fun transitiveDependents image => do
    let (transitiveDependents, _) ← findDependentsRecursively reverseDependencyMap fuel
      (transitiveDependents, ∅) image.installName
    some transitiveDependents) (fun _ => none)

end SharedCache

end Code

/-! ### The dependency graph -/

namespace SharedCache

variable (cache : SharedCache α)

def installNames : List α := cache.images.map Image.installName

def DependsOn (a b : α) : Prop :=
  ∃ image ∈ cache.images, image.installName = a ∧
    ∃ dependent ∈ image.dependents, dependent.isUpward = false ∧
      dependent.dependencyLoadPath = b

instance [DecidableEq α] (a b : α) : Decidable (cache.DependsOn a b) :=
  inferInstanceAs (Decidable (∃ _ ∈ _, _ ∧ ∃ _ ∈ _, _ ∧ _))

def Closed : Prop := ∀ a b, cache.DependsOn a b → b ∈ cache.installNames

variable [LinearOrder α]

def directDependents (n : α) : Option (List α) :=
  if n ∈ cache.installNames then
    some ((cache.installNames.toFinset.filter (fun a => cache.DependsOn a n)).sort (· ≤ ·))
  else none

/-- Whatever the order of the images, there is a result for each dylib, which has the dylibs with a
path of dependencies to it. -/
def DependentsExact : Prop :=
  ∀ cache' : SharedCache α, cache'.images.Perm cache.images →
    ∀ fuel, cache.images.length < fuel →
      ∃ transitiveDependents, cache'.computeTransitiveDependents fuel = some transitiveDependents ∧
        ∀ n, (n ∈ cache.installNames →
            ∃ dependents, transitiveDependents n = some dependents ∧
              ∀ d, d ∈ dependents ↔ Relation.TransGen cache.DependsOn d n) ∧
          (n ∉ cache.installNames → transitiveDependents n = none)

end SharedCache

section Proofs

variable [LinearOrder α] {cache : SharedCache α}

/-! ### The images by name -/

private def setImage (dylibAnalyzers : α → Option (Image α)) (image : Image α) :
    α → Option (Image α) :=
  Function.update dylibAnalyzers image.installName (some image)

private lemma foldl_setImage_notMem {images : List (Image α)} {m : α → Option (Image α)} {p : α}
    (hp : p ∉ images.map Image.installName) : images.foldl setImage m p = m p := by
  induction images generalizing m with
  | nil => rfl
  | cons image images ih =>
    rw [List.map_cons, List.mem_cons, not_or] at hp
    rw [List.foldl_cons, ih hp.2]
    exact Function.update_of_ne hp.1 _ _

private lemma foldl_setImage_mem {images : List (Image α)} {m : α → Option (Image α)}
    (hnodup : (images.map Image.installName).Nodup) {image : Image α} (himage : image ∈ images) :
    images.foldl setImage m image.installName = some image := by
  induction images generalizing m with
  | nil => cases himage
  | cons first images ih =>
    rw [List.map_cons, List.nodup_cons] at hnodup
    rw [List.foldl_cons]
    rcases List.mem_cons.mp himage with rfl | hrest
    · rw [foldl_setImage_notMem hnodup.1]
      exact Function.update_self _ _ _
    · exact ih hnodup.2 hrest

lemma fillMachOAnalyzersMap_eq_some {p : α} {image : Image α} :
    cache.fillMachOAnalyzersMap p = some image ↔
      image ∈ cache.images ∧ image.installName = p := by
  change cache.images.foldl setImage (fun _ => none) p = some image ↔ _
  constructor
  · intro h
    by_cases hp : p ∈ cache.images.map Image.installName
    · obtain ⟨image', himage', rfl⟩ := List.mem_map.mp hp
      rw [foldl_setImage_mem cache.distinct himage'] at h
      obtain rfl := Option.some.inj h
      exact ⟨himage', rfl⟩
    · rw [foldl_setImage_notMem hp] at h
      cases h
  · rintro ⟨himage, rfl⟩
    exact foldl_setImage_mem cache.distinct himage

lemma mem_installNames {p : α} :
    p ∈ cache.installNames ↔ ∃ image, cache.fillMachOAnalyzersMap p = some image := by
  simp [SharedCache.installNames, fillMachOAnalyzersMap_eq_some]

lemma dependsOn_iff {p b : α} {image : Image α}
    (himage : cache.fillMachOAnalyzersMap p = some image) :
    cache.DependsOn p b ↔ ∃ dependent ∈ image.dependents, dependent.isUpward = false ∧
      dependent.dependencyLoadPath = b := by
  constructor
  · rintro ⟨image', himage', hname, h⟩
    rw [fillMachOAnalyzersMap_eq_some.mpr ⟨himage', hname⟩] at himage
    rwa [← Option.some.inj himage]
  · intro h
    obtain ⟨hmem, hname⟩ := fillMachOAnalyzersMap_eq_some.mp himage
    exact ⟨image, hmem, hname, h⟩

/-! ### The reverse dependency map -/

def SetMap.Has (m : SetMap α) (a b : α) : Prop := ∃ t, m b = some t ∧ a ∈ t

/-- Entries are only added, each is a dependency, and a dylib that is new in the map has all of its
dependencies in it. -/
structure Records (cache : SharedCache α) (m m' : SetMap α) : Prop where
  keys : ∀ a, (m a).isSome → (m' a).isSome
  mono : ∀ a b, m.Has a b → m'.Has a b
  sound : ∀ a b, m'.Has a b → m.Has a b ∨ cache.DependsOn a b
  new : ∀ a, (m' a).isSome → (m a).isSome ∨
    a ∈ cache.installNames ∧ ∀ b, cache.DependsOn a b → m'.Has a b

omit [LinearOrder α] in
lemma Records.refl (m : SetMap α) : Records cache m m :=
  ⟨fun _ h => h, fun _ _ h => h, fun _ _ h => Or.inl h, fun _ h => Or.inl h⟩

omit [LinearOrder α] in
lemma Records.trans {m m' m'' : SetMap α} (h : Records cache m m') (h' : Records cache m' m'') :
    Records cache m m'' where
  keys a ha := h'.keys a (h.keys a ha)
  mono a b hab := h'.mono a b (h.mono a b hab)
  sound a b hab := by
    rcases h'.sound a b hab with hab | hdep
    · exact h.sound a b hab
    · exact Or.inr hdep
  new a ha := by
    rcases h'.new a ha with ha | hnew
    · rcases h.new a ha with ha | ⟨hname, hall⟩
      · exact Or.inl ha
      · exact Or.inr ⟨hname, fun b hab => h'.mono a b (hall b hab)⟩
    · exact Or.inr hnew

lemma has_insertAt {m : SetMap α} {a b u v : α} :
    (m.insertAt v u).Has a b ↔ m.Has a b ∨ a = u ∧ b = v := by
  unfold SetMap.Has SetMap.insertAt
  by_cases hbv : b = v
  · subst hbv
    cases hb : m b <;> simp [or_comm]
  · simp [hbv]

lemma Records.insertAt {m : SetMap α} {u v : α} (hv : (m v).isSome) (huv : cache.DependsOn u v) :
    Records cache m (m.insertAt v u) where
  keys a ha := by
    by_cases hav : a = v
    · simp [SetMap.insertAt, hav]
    · simpa [SetMap.insertAt, hav] using ha
  mono a b hab := has_insertAt.mpr (Or.inl hab)
  sound a b hab := by
    rcases has_insertAt.mp hab with hab | ⟨rfl, rfl⟩
    · exact Or.inl hab
    · exact Or.inr huv
  new a ha := by
    by_cases hav : a = v
    · rw [hav]
      exact Or.inl hv
    · exact Or.inl (by simpa [SetMap.insertAt, hav] using ha)

/-- The entry for the dylib itself, with which its call begins. -/
lemma Records.of_entry {m m' : SetMap α} {u : α} (hu : m u = none)
    (h : Records cache (Function.update m u (some ∅)) m') (hname : u ∈ cache.installNames)
    (hall : ∀ b, cache.DependsOn u b → m'.Has u b) : Records cache m m' := by
  have hhas : ∀ a b, SetMap.Has (Function.update m u (some ∅)) a b ↔ m.Has a b := by
    intro a b
    by_cases hbu : b = u <;> simp [SetMap.Has, hbu, hu]
  have hkey : ∀ a, ((Function.update m u (some ∅)) a).isSome ↔ a = u ∨ (m a).isSome := by
    intro a
    by_cases hau : a = u <;> simp [hau]
  refine ⟨?_, ?_, ?_, ?_⟩
  · intro a ha
    exact h.keys a ((hkey a).mpr (Or.inr ha))
  · intro a b hab
    exact h.mono a b ((hhas a b).mpr hab)
  · intro a b hab
    exact (h.sound a b hab).imp_left (hhas a b).mp
  · intro a ha
    rcases h.new a ha with ha | hnew
    · rcases (hkey a).mp ha with rfl | ha
      · exact Or.inr ⟨hname, hall⟩
      · exact Or.inl ha
    · exact Or.inr hnew

/-- One step of the loop over the dependents of `loadPath`. -/
def recordDependent (call : SetMap α → α → Option (SetMap α)) (loadPath : α) (m : SetMap α)
    (dependent : Dependent α) : Option (SetMap α) :=
  if dependent.isUpward then some m
  else do
    let m ← call m dependent.dependencyLoadPath
    some (m.insertAt dependent.dependencyLoadPath loadPath)

lemma foldlM_recordDependent {call : SetMap α → α → Option (SetMap α)}
    (hcall : ∀ m m' v, call m v = some m' → Records cache m m' ∧ (m' v).isSome)
    {u : α} {l : List (Dependent α)}
    (hl : ∀ d ∈ l, d.isUpward = false → cache.DependsOn u d.dependencyLoadPath) {m m' : SetMap α}
    (h : l.foldlM (recordDependent call u) m = some m') :
    Records cache m m' ∧ ∀ d ∈ l, d.isUpward = false → m'.Has u d.dependencyLoadPath := by
  induction l generalizing m with
  | nil =>
    cases h
    exact ⟨Records.refl _, by simp⟩
  | cons d l ih =>
    rw [List.foldlM_cons, Option.bind_eq_bind, Option.bind_eq_some_iff] at h
    obtain ⟨m₁, hm₁, h⟩ := h
    obtain ⟨hrest, hall⟩ := ih (fun e he => hl e (List.mem_cons_of_mem d he)) h
    rw [recordDependent] at hm₁
    split_ifs at hm₁ with hup
    · cases hm₁
      refine ⟨hrest, ?_⟩
      intro e he hdown
      rcases List.mem_cons.mp he with rfl | he
      · rw [hup] at hdown
        cases hdown
      · exact hall e he hdown
    · rw [Option.bind_eq_bind, Option.bind_eq_some_iff] at hm₁
      obtain ⟨m₂, hm₂, hm₁⟩ := hm₁
      obtain rfl := Option.some.inj hm₁
      obtain ⟨hrec, hkey⟩ := hcall m m₂ _ hm₂
      have hdep := hl d List.mem_cons_self (by simpa using hup)
      refine ⟨(hrec.trans (Records.insertAt hkey hdep)).trans hrest, ?_⟩
      intro e he hdown
      rcases List.mem_cons.mp he with rfl | he
      · exact hrest.mono _ _ (has_insertAt.mpr (Or.inr ⟨rfl, rfl⟩))
      · exact hall e he hdown

lemma computeReverseDependencyMapForDylib_records {fuel : Nat} {m m' : SetMap α} {u : α}
    (h : computeReverseDependencyMapForDylib cache.fillMachOAnalyzersMap fuel m u = some m') :
    Records cache m m' ∧ (m' u).isSome := by
  induction fuel generalizing m m' u with
  | zero => cases h
  | succ fuel ih =>
    rw [computeReverseDependencyMapForDylib, Option.bind_eq_bind, Option.bind_eq_some_iff] at h
    obtain ⟨image, himage, h⟩ := h
    split_ifs at h with hu
    · obtain rfl := Option.some.inj h
      exact ⟨Records.refl m, hu⟩
    · obtain ⟨hrec, hall⟩ := foldlM_recordDependent (fun m m' v => ih)
        (fun d hd hdown => (dependsOn_iff himage).mpr ⟨d, hd, hdown, rfl⟩) h
      refine ⟨hrec.of_entry (by simpa using hu) (mem_installNames.mpr ⟨image, himage⟩) ?_, ?_⟩
      · intro b hb
        obtain ⟨d, hd, hdown, rfl⟩ := (dependsOn_iff himage).mp hb
        exact hall d hd hdown
      · exact hrec.keys u (by simp)

def missing (cache : SharedCache α) (m : SetMap α) : Finset α :=
  cache.installNames.toFinset.filter (fun a => m a = none)

lemma Records.missing_subset {m m' : SetMap α} (h : Records cache m m') :
    missing cache m' ⊆ missing cache m := by
  intro a ha
  rw [missing, Finset.mem_filter] at ha ⊢
  refine ⟨ha.1, ?_⟩
  rw [← Option.not_isSome_iff_eq_none]
  intro hm
  have hm' := h.keys a hm
  rw [ha.2] at hm'
  cases hm'

lemma missing_card_entry {m : SetMap α} {u : α} (hname : u ∈ cache.installNames)
    (hu : m u = none) :
    (missing cache (Function.update m u (some ∅))).card < (missing cache m).card := by
  apply Finset.card_lt_card
  rw [Finset.ssubset_iff_of_subset]
  · exact ⟨u, by simp [missing, hname, hu], by simp [missing]⟩
  · intro a ha
    simp only [missing, Finset.mem_filter] at ha ⊢
    refine ⟨ha.1, ?_⟩
    by_cases hau : a = u
    · rw [hau, hu]
    · rw [← ha.2, Function.update_of_ne hau]

lemma foldlM_recordDependent_isSome {call : SetMap α → α → Option (SetMap α)}
    (hcall : ∀ m m' v, call m v = some m' → Records cache m m' ∧ (m' v).isSome) {k : Nat}
    (hsome : ∀ m v, v ∈ cache.installNames → (missing cache m).card < k → (call m v).isSome)
    {u : α} {l : List (Dependent α)}
    (hl : ∀ d ∈ l, d.isUpward = false → cache.DependsOn u d.dependencyLoadPath)
    (hclosed : cache.Closed) {m : SetMap α} (hm : (missing cache m).card < k) :
    (l.foldlM (recordDependent call u) m).isSome := by
  induction l generalizing m with
  | nil => rfl
  | cons d l ih =>
    have hrest : ∀ e ∈ l, e.isUpward = false → cache.DependsOn u e.dependencyLoadPath :=
      fun e he => hl e (List.mem_cons_of_mem d he)
    cases hup : d.isUpward with
    | true =>
      have hstep : recordDependent call u m d = some m := by simp [recordDependent, hup]
      rw [List.foldlM_cons, hstep]
      exact ih hrest hm
    | false =>
      have hdep := hl d List.mem_cons_self hup
      obtain ⟨m₁, hm₁⟩ := Option.isSome_iff_exists.mp (hsome m _ (hclosed _ _ hdep) hm)
      obtain ⟨hrec, hkey⟩ := hcall m m₁ _ hm₁
      have hstep : recordDependent call u m d = some (m₁.insertAt d.dependencyLoadPath u) := by
        simp [recordDependent, hup, hm₁]
      rw [List.foldlM_cons, hstep]
      apply ih hrest
      have hsub := (hrec.trans (Records.insertAt hkey hdep)).missing_subset
      exact lt_of_le_of_lt (Finset.card_le_card hsub) hm

lemma computeReverseDependencyMapForDylib_isSome (hclosed : cache.Closed) {fuel : Nat}
    {m : SetMap α} {u : α} (hu : u ∈ cache.installNames) (hfuel : (missing cache m).card < fuel) :
    (computeReverseDependencyMapForDylib cache.fillMachOAnalyzersMap fuel m u).isSome := by
  induction fuel generalizing m u with
  | zero => omega
  | succ fuel ih =>
    obtain ⟨image, himage⟩ := mem_installNames.mp hu
    rw [computeReverseDependencyMapForDylib, himage, Option.bind_eq_bind, Option.bind_some]
    split_ifs with hkey
    · rfl
    · have hcard := missing_card_entry hu (Option.not_isSome_iff_eq_none.mp hkey)
      exact foldlM_recordDependent_isSome
        (fun m m' v => computeReverseDependencyMapForDylib_records) (fun m v hv hm => ih hv hm)
        (fun d hd hdown => (dependsOn_iff himage).mpr ⟨d, hd, hdown, rfl⟩) hclosed (by omega)

def Reversed (cache : SharedCache α) (m : SetMap α) : Prop :=
  ∀ n, (m n).map (fun dependents => dependents.sort (· ≤ ·)) = cache.directDependents n

lemma reversed_of_records {m : SetMap α} (h : Records cache (fun _ => none) m)
    (hkeys : ∀ n ∈ cache.installNames, (m n).isSome) : Reversed cache m := by
  have hhas : ∀ a b, m.Has a b ↔ cache.DependsOn a b := by
    have hname : ∀ a b, cache.DependsOn a b → a ∈ cache.installNames := by
      rintro a b ⟨image, himage, rfl, -⟩
      exact List.mem_map_of_mem himage
    intro a b
    constructor
    · intro hab
      exact (h.sound a b hab).resolve_left (by simp [SetMap.Has])
    · intro hab
      exact ((h.new a (hkeys a (hname a b hab))).resolve_left (by simp)).2 b hab
  intro n
  rw [SharedCache.directDependents]
  split_ifs with hn
  · obtain ⟨t, ht⟩ := Option.isSome_iff_exists.mp (hkeys n hn)
    have hset : t = cache.installNames.toFinset.filter (fun a => cache.DependsOn a n) := by
      ext a
      have hat : a ∈ t ↔ m.Has a n := by simp [SetMap.Has, ht]
      rw [hat, hhas, Finset.mem_filter, List.mem_toFinset, iff_and_self]
      rintro ⟨image, himage, rfl, -⟩
      exact List.mem_map_of_mem himage
    rw [ht, hset]
    rfl
  · cases hmn : m n with
    | none => rfl
    | some t =>
      rcases h.new n (by simp [hmn]) with hnone | ⟨hname, -⟩
      · cases hnone
      · exact absurd hname hn

lemma foldlM_images_records (hclosed : cache.Closed) {fuel : Nat}
    (hcard : ∀ m, (missing cache m).card < fuel) {l : List (Image α)}
    (hl : ∀ i ∈ l, i.installName ∈ cache.installNames) (m : SetMap α) :
    ∃ m', l.foldlM (fun m image => computeReverseDependencyMapForDylib
        cache.fillMachOAnalyzersMap fuel m image.installName) m = some m' ∧
      Records cache m m' ∧ ∀ i ∈ l, (m' i.installName).isSome := by
  induction l generalizing m with
  | nil => exact ⟨m, rfl, Records.refl m, by simp⟩
  | cons i l ih =>
    obtain ⟨m₁, hm₁⟩ := Option.isSome_iff_exists.mp
      (computeReverseDependencyMapForDylib_isSome hclosed (hl i List.mem_cons_self) (hcard m))
    obtain ⟨hrec, hkey⟩ := computeReverseDependencyMapForDylib_records hm₁
    obtain ⟨m', hm', hrest, hkeys⟩ := ih (fun j hj => hl j (List.mem_cons_of_mem i hj)) m₁
    refine ⟨m', ?_, hrec.trans hrest, ?_⟩
    · rw [List.foldlM_cons, hm₁]
      exact hm'
    · intro j hj
      rcases List.mem_cons.mp hj with rfl | hj
      · exact hrest.keys _ hkey
      · exact hkeys j hj

lemma computeReverseDependencyMap_reversed (hclosed : cache.Closed) {fuel : Nat}
    (hfuel : cache.images.length < fuel) :
    ∃ m, cache.computeReverseDependencyMap fuel = some m ∧ Reversed cache m := by
  have hcard : ∀ m, (missing cache m).card < fuel := by
    intro m
    have hle : (missing cache m).card ≤ cache.images.length := by
      calc (missing cache m).card ≤ cache.installNames.toFinset.card := Finset.card_filter_le _ _
        _ ≤ cache.installNames.length := List.toFinset_card_le _
        _ = cache.images.length := List.length_map _
    omega
  obtain ⟨m, hm, hrec, hkeys⟩ := foldlM_images_records hclosed hcard
    (fun i hi => List.mem_map_of_mem hi) (fun _ => none)
  refine ⟨m, hm, reversed_of_records hrec ?_⟩
  intro n hn
  obtain ⟨i, hi, rfl⟩ := List.mem_map.mp hn
  exact hkeys i hi

/-! ### The collecting is a search with memoised results -/

/-- The direct dependents in a map, in the order of their names. -/
def SetMap.next (m : SetMap α) (n : α) : Option (List α) :=
  (m n).map (fun dependents => dependents.sort (· ≤ ·))

/-- One step of the loop over the dependents of a dylib. -/
def collectDependent (call : SetMap α × Finset α → α → Option (SetMap α × Finset α))
    (p : (SetMap α × Finset α) × Finset α) (dependent : α) :
    Option ((SetMap α × Finset α) × Finset α) := do
  let (transitiveDependents, visited) ← call p.1 dependent
  let dependents :=
    match transitiveDependents dependent with
    | some theseTransitiveDependents => p.2 ∪ theseTransitiveDependents
    | none => p.2
  some ((transitiveDependents, visited), insert dependent dependents)

lemma foldlM_collectDependent {call : SetMap α × Finset α → α → Option (SetMap α × Finset α)}
    {find : α → State α → Option (State α)}
    (hcall : ∀ v s, call (s.memo, s.visited) v = (find v s).map (fun s => (s.memo, s.visited)))
    (l : List α) (s : State α) (found : Finset α) :
    l.foldlM (collectDependent call) ((s.memo, s.visited), found) =
      (collect find l s found).map (fun p => ((p.1.memo, p.1.visited), p.2)) := by
  induction l generalizing s found with
  | nil => rfl
  | cons v l ih =>
    rw [List.foldlM_cons, collect, collectDependent, hcall]
    cases hfind : find v s with
    | none => rfl
    | some s' =>
      have hfound : (match s'.memo v with
          | some these => found ∪ these
          | none => found) = found ∪ (s'.memo v).getD ∅ := by
        cases s'.memo v <;> simp
      simp only [Option.map_some, Option.bind_eq_bind, Option.bind_some]
      rw [hfound]
      exact ih s' _

lemma findDependentsRecursively_eq (m : SetMap α) (fuel : Nat) (s : State α) (v : α) :
    findDependentsRecursively m fuel (s.memo, s.visited) v =
      (search m.next fuel v s).map (fun s => (s.memo, s.visited)) := by
  induction fuel generalizing s v with
  | zero => rfl
  | succ fuel ih =>
    rw [findDependentsRecursively, search]
    by_cases hmemo : (s.memo v).isSome
    · simp [State.Known, hmemo]
    · by_cases hvisited : v ∈ s.visited
      · simp [State.Known, hvisited]
      · have hknown : ¬s.Known v := not_or.mpr ⟨hmemo, hvisited⟩
        rw [if_neg hmemo, if_neg hvisited, if_neg hknown, SetMap.next]
        cases hv : m v with
        | none => rfl
        | some t =>
          have hloop := foldlM_collectDependent (fun v s => ih s v) (t.sort (· ≤ ·)) (s.enter v) ∅
          change (((t.sort (· ≤ ·)).foldlM (collectDependent
            (fun p v => findDependentsRecursively m fuel p v))
            (((s.enter v).memo, (s.enter v).visited), ∅)).bind _) = _
          rw [hloop]
          simp only [Option.bind_eq_bind, Option.bind_some, Option.map_some, Option.bind_map,
            Option.map_bind]
          rfl

lemma foldlM_images_eq_searchAll (m : SetMap α) (fuel : Nat) (l : List (Image α))
    (memo : SetMap α) :
    l.foldlM (fun transitiveDependents image => do
      let (transitiveDependents, _) ← findDependentsRecursively m fuel
        (transitiveDependents, ∅) image.installName
      some transitiveDependents) memo =
      searchAll m.next fuel (l.map Image.installName) memo := by
  induction l generalizing memo with
  | nil => rfl
  | cons i l ih =>
    have hcall := findDependentsRecursively_eq m fuel ⟨memo, ∅⟩ i.installName
    simp only at hcall
    rw [List.foldlM_cons, List.map_cons, searchAll, hcall]
    cases search m.next fuel i.installName ⟨memo, ∅⟩ with
    | none => rfl
    | some s => exact ih s.memo

/-! ### When the dependents are exact -/

lemma edge_iff (hclosed : cache.Closed) {n d : α} :
    Edge cache.directDependents n d ↔ cache.DependsOn d n := by
  rw [Edge, SharedCache.directDependents]
  split_ifs with hn
  · simp only [Option.getD_some, Finset.mem_sort, Finset.mem_filter, List.mem_toFinset,
      and_iff_right_iff_imp]
    rintro ⟨image, himage, rfl, -⟩
    exact List.mem_map_of_mem himage
  · simp only [Option.getD_none, List.not_mem_nil, false_iff]
    exact fun h => hn (hclosed d n h)

lemma reaches_iff (hclosed : cache.Closed) {n d : α} :
    Reaches cache.directDependents n d ↔ Relation.TransGen cache.DependsOn d n := by
  have hedge : Edge cache.directDependents = Function.swap cache.DependsOn := by
    funext n d
    exact propext (edge_iff hclosed)
  rw [Reaches, hedge]
  exact Relation.transGen_swap

lemma perm_graph {cache' : SharedCache α} (hperm : cache'.images.Perm cache.images) :
    cache'.DependsOn = cache.DependsOn ∧ (∀ n, n ∈ cache'.installNames ↔ n ∈ cache.installNames) ∧
      cache'.directDependents = cache.directDependents := by
  have hnames : ∀ n, n ∈ cache'.installNames ↔ n ∈ cache.installNames :=
    fun n => (hperm.map Image.installName).mem_iff
  have hdep : cache'.DependsOn = cache.DependsOn := by
    funext a b
    simp only [SharedCache.DependsOn, hperm.mem_iff]
  refine ⟨hdep, hnames, ?_⟩
  funext n
  have hset : cache'.installNames.toFinset = cache.installNames.toFinset := by
    ext a
    rw [List.mem_toFinset, List.mem_toFinset, hnames]
  simp only [SharedCache.directDependents, hnames, hset, hdep]

lemma computeTransitiveDependents_eq (hclosed : cache.Closed) {fuel : Nat}
    (hfuel : cache.images.length < fuel) :
    cache.computeTransitiveDependents fuel =
      searchAll cache.directDependents fuel cache.installNames (fun _ => none) := by
  obtain ⟨m, hm, hreversed⟩ := computeReverseDependencyMap_reversed hclosed hfuel
  have hnext : m.next = cache.directDependents := funext hreversed
  rw [SharedCache.computeTransitiveDependents, hm, Option.bind_eq_bind, Option.bind_some,
    foldlM_images_eq_searchAll, hnext]
  rfl

lemma closed_of_perm {cache' : SharedCache α} (hperm : cache'.images.Perm cache.images)
    (hclosed : cache.Closed) : cache'.Closed := by
  obtain ⟨hdep, hnames, -⟩ := perm_graph hperm
  intro a b hab
  rw [hdep] at hab
  exact (hnames b).mpr (hclosed a b hab)

/-- What the run has for each dylib, where the results that it has are exact. -/
lemma dependents_of_exact (hclosed : cache.Closed) {fuel : Nat} {memo : SetMap α}
    (h : searchAll cache.directDependents fuel cache.installNames (fun _ => none) = some memo)
    (hexact : Exact cache.directDependents memo) (n : α) :
    (n ∈ cache.installNames → ∃ dependents, memo n = some dependents ∧
        ∀ d, d ∈ dependents ↔ Relation.TransGen cache.DependsOn d n) ∧
      (n ∉ cache.installNames → memo n = none) := by
  have hempty : Sound cache.directDependents ⟨fun _ => none, ∅⟩ := by
    intro a t ha
    cases ha
  obtain ⟨-, hall, hnew⟩ := searchAll_spec h hempty
  constructor
  · intro hn
    obtain ⟨t, ht⟩ := Option.isSome_iff_exists.mp (hall n hn)
    refine ⟨t, ht, ?_⟩
    intro d
    rw [hexact n t ht, reaches_iff hclosed]
  · intro hn
    rw [← Option.not_isSome_iff_eq_none]
    intro hmemo
    obtain ⟨v, hv, hvn⟩ := (hnew n hmemo).resolve_left (by simp)
    rcases Relation.ReflTransGen.cases_tail hvn with rfl | ⟨u, -, hun⟩
    · exact hn hv
    · obtain ⟨image, himage, rfl, -⟩ := (edge_iff hclosed).mp hun
      exact hn (List.mem_map_of_mem himage)

/-- The dependents are exact for every order of the images exactly when the walk from each dylib,
along the first dependents on its cycles, ends at a dylib whose direct dependents, and what depends
on those off its cycles, are all that depends on it. -/
theorem dependents_exact_iff (cache : SharedCache α) (hclosed : cache.Closed) :
    cache.DependentsExact ↔
      ∀ n ∈ cache.installNames, Covers cache.directDependents {n} n := by
  constructor
  · intro h n hn
    obtain ⟨image, himage, rfl⟩ := List.mem_map.mp hn
    obtain ⟨pre, post, hsplit⟩ := List.append_of_mem himage
    have hperm : (image :: (pre ++ post)).Perm cache.images := by
      rw [hsplit]
      exact List.perm_middle.symm
    have hdistinct : ((image :: (pre ++ post)).map Image.installName).Nodup :=
      (hperm.map Image.installName).nodup_iff.mpr cache.distinct
    obtain ⟨memo, hmemo, hall⟩ := h ⟨image :: (pre ++ post), hdistinct⟩ hperm
      (cache.images.length + 1) (by omega)
    rw [computeTransitiveDependents_eq (closed_of_perm hperm hclosed)
      (by rw [hperm.length_eq]; omega), (perm_graph hperm).2.2] at hmemo
    apply covers_of_searchAll hmemo
    intro a t ha b
    by_cases haname : a ∈ cache.installNames
    · obtain ⟨t', ht', hb⟩ := (hall a).1 haname
      rw [ha] at ht'
      obtain rfl := Option.some.inj ht'
      rw [hb, reaches_iff hclosed]
    · rw [(hall a).2 haname] at ha
      cases ha
  · intro h cache' hperm fuel hfuel
    obtain ⟨hdep, hnames, hdirect⟩ := perm_graph hperm
    have hclosed' := closed_of_perm hperm hclosed
    have hcovers : ∀ n, Covers cache'.directDependents {n} n := by
      intro n
      by_cases hn : n ∈ cache.installNames
      · rw [hdirect]
        exact h n hn
      · apply covers_of_acyclic
        intro a hna _
        obtain ⟨b, hnb, -⟩ := Relation.TransGen.head'_iff.mp hna
        have hdepends := (edge_iff hclosed').mp hnb
        exact absurd ((hnames n).mp (hclosed' b n hdepends)) hn
    have hN : ∀ a ∈ cache'.installNames.toFinset, ∃ next,
        cache'.directDependents a = some next ∧ ∀ w ∈ next, w ∈ cache'.installNames.toFinset := by
      intro a ha
      refine ⟨_, if_pos (List.mem_toFinset.mp ha), ?_⟩
      intro w hw
      rw [Finset.mem_sort] at hw
      exact (Finset.mem_filter.mp hw).1
    have hcard : cache'.installNames.toFinset.card < fuel := by
      have hle := List.toFinset_card_le cache'.installNames
      rw [SharedCache.installNames, List.length_map, hperm.length_eq] at hle
      exact lt_of_le_of_lt hle hfuel
    obtain ⟨memo, hmemo⟩ := Option.isSome_iff_exists.mp (searchAll_isSome hN hcard
      (fun v hv => List.mem_toFinset.mpr hv) (fun _ => none))
    have hexact : Exact cache'.directDependents memo :=
      searchAll_exact hcovers hmemo (fun a t ha => by cases ha) (fun a t ha => by cases ha)
    refine ⟨memo, ?_, ?_⟩
    · rw [computeTransitiveDependents_eq hclosed' (by rw [hperm.length_eq]; exact hfuel)]
      exact hmemo
    · intro n
      have hn := dependents_of_exact hclosed' hmemo hexact n
      rwa [hdep, hnames] at hn

lemma covers_of_no_cycle (hclosed : cache.Closed)
    (h : ∀ a b, Relation.TransGen cache.DependsOn a b → Relation.TransGen cache.DependsOn b a →
      a = b) (n : α) : Covers cache.directDependents {n} n := by
  apply covers_of_acyclic
  intro a hna han
  exact h a n ((reaches_iff hclosed).mp hna) ((reaches_iff hclosed).mp han)

end Proofs

/-! ### Two dylibs -/

/-- The second dylib has only an upward dependency on the first. -/
def chain : SharedCache String where
  images := [⟨"/usr/lib/libA.dylib", [⟨"/usr/lib/libB.dylib", false⟩]⟩,
    ⟨"/usr/lib/libB.dylib", [⟨"/usr/lib/libA.dylib", true⟩]⟩]
  distinct := by decide

lemma chain_dependsOn {a b : String} :
    chain.DependsOn a b ↔ a = "/usr/lib/libA.dylib" ∧ b = "/usr/lib/libB.dylib" := by
  simp [SharedCache.DependsOn, chain, eq_comm (a := a), eq_comm (a := b)]

lemma chain_closed : chain.Closed := by
  intro a b hab
  rw [(chain_dependsOn.mp hab).2]
  decide

theorem dependents_exact_chain : chain.DependentsExact := by
  apply (dependents_exact_iff chain chain_closed).mpr
  intro n _
  apply covers_of_no_cycle chain_closed
  intro a b hab hba
  obtain ⟨c, -, hcb⟩ := Relation.TransGen.tail'_iff.mp hab
  obtain ⟨d, hbd, -⟩ := Relation.TransGen.head'_iff.mp hba
  have hb := (chain_dependsOn.mp hcb).2
  have hb' := (chain_dependsOn.mp hbd).1
  rw [hb] at hb'
  exact absurd hb' (by decide)

/-- The two dylibs depend on each other. -/
def cycle : SharedCache String where
  images := [⟨"/usr/lib/libA.dylib", [⟨"/usr/lib/libB.dylib", false⟩]⟩,
    ⟨"/usr/lib/libB.dylib", [⟨"/usr/lib/libA.dylib", false⟩]⟩]
  distinct := by decide

/-- The second dylib is searched from the first and does not get itself as a dependent. -/
theorem not_exact_cycle : cycle.Closed ∧ ¬cycle.DependentsExact := by
  constructor
  · intro a b hab
    have hb : b = "/usr/lib/libB.dylib" ∨ b = "/usr/lib/libA.dylib" := by
      simp only [SharedCache.DependsOn, cycle, List.mem_cons, List.not_mem_nil, or_false] at hab
      aesop
    rcases hb with rfl | rfl <;> decide
  · intro h
    obtain ⟨memo, hmemo, hall⟩ := h cycle (List.Perm.refl _) 3 (by decide)
    obtain ⟨t, ht, hexact⟩ := (hall "/usr/lib/libB.dylib").1 (by decide)
    have hrun : (cycle.computeTransitiveDependents 3).bind (fun m => m "/usr/lib/libB.dylib") =
        some {"/usr/lib/libA.dylib"} := by
      decide +kernel
    rw [hmemo, Option.bind_some, ht] at hrun
    obtain rfl := Option.some.inj hrun
    have hself : Relation.TransGen cycle.DependsOn "/usr/lib/libB.dylib" "/usr/lib/libB.dylib" :=
      Relation.TransGen.head (b := "/usr/lib/libA.dylib") (by decide)
        (Relation.TransGen.single (by decide))
    exact absurd ((hexact _).mpr hself) (by decide)

end Dyld.Cache.Dependents
