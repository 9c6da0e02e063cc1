import Dyld.Closure.ResolvedTarget
import Dyld.Lib.Opcodes

/-!
# Interposing

The tuples of a launch closure are applied to the bind targets of a closure when it is built, one
after the other in place, and to single pointers when a process asks for them, with the first tuple
that matches. `tuples` is what both go through.
-/

namespace Dyld.Closure.Interposing

open Dyld.Lib ResolvedTarget

structure InterposingTuple where
  stockImplementation : ResolvedSymbolTarget
  newImplementation : ResolvedSymbolTarget
  deriving DecidableEq

/-- The payloads of the `interposeTuples` attributes of a `LaunchClosure`. -/
structure LaunchClosure where
  interposeTuples : List (List InterposingTuple)

namespace LaunchClosure

variable (closure : LaunchClosure)

def forEachInterposingTuple {σ : Type} (handler : InterposingTuple → σ → σ × Bool) (s : σ) : σ :=
  (runBody (fun payload s => runBody handler payload s) closure.interposeTuples s).1

def hasInterposings : Bool := closure.forEachInterposingTuple (fun _ _ => (true, true)) false

def tuples : List InterposingTuple := closure.interposeTuples.flatten

lemma forEachInterposingTuple_eq {σ : Type} (handler : InterposingTuple → σ → σ × Bool) (s : σ) :
    closure.forEachInterposingTuple handler s = (runBody handler closure.tuples s).1 := by
  suffices h : ∀ (payloads : List (List InterposingTuple)) (s : σ),
      runBody (fun payload s => runBody handler payload s) payloads s =
        runBody handler payloads.flatten s by
    rw [forEachInterposingTuple, h, tuples]
  intro payloads
  induction payloads with
  | nil => exact fun _ => rfl
  | cons payload payloads ih =>
    intro s
    rw [List.flatten_cons, runBody_append, runBody_cons, ih]
    split
    · rename_i hstop
      exact Prod.ext rfl hstop.symm
    · rfl

lemma hasInterposings_eq_false_iff : closure.hasInterposings = false ↔ closure.tuples = [] := by
  rw [hasInterposings, forEachInterposingTuple_eq]
  cases closure.tuples with
  | nil => simp
  | cons tuple tuples => simp [runBody_cons]

end LaunchClosure

/-! ### At build time -/

/-- What `applyInterposing` reads and writes of an image. -/
structure ClosureImage where
  imageNum : Nat
  bindFixups : List BindPattern
  chainedTargets : List ResolvedSymbolTarget

/-- The test and the assignment that both loops make. The test reads the number of the replacement's
image, whatever kind of target the replacement is. -/
def interposeTarget (imageNum : Nat) (target : ResolvedSymbolTarget) (tuple : InterposingTuple) :
    ResolvedSymbolTarget :=
  if target = tuple.stockImplementation ∧ getField tuple.newImplementation 2 22 ≠ imageNum then
    tuple.newImplementation
  else target

def interposeImage (tuple : InterposingTuple) (image : ClosureImage) : ClosureImage :=
  { image with
    bindFixups := image.bindFixups.map (fun bindPat =>
      { bindPat with target := interposeTarget image.imageNum bindPat.target tuple })
    chainedTargets := image.chainedTargets.map (fun symbolTarget =>
      interposeTarget image.imageNum symbolTarget tuple) }

def applyInterposing (launchClosure : LaunchClosure) (images : List ClosureImage) : List ClosureImage :=
  launchClosure.forEachInterposingTuple (fun tuple images => (images.map (interposeImage tuple), false))
    images

/-! ### At run time -/

/-- The handler of `interposeValue`; `none` is a failed assertion of `resolveTarget`. -/
def checkTuple (p : Process) (value : Nat) (tuple : InterposingTuple) (s : Option (Option Nat)) :
    Option (Option Nat) × Bool :=
  match AllImages.resolveTarget p tuple.stockImplementation with
  | none => (none, true)
  | some stockPointer =>
    if stockPointer = value then ((AllImages.resolveTarget p tuple.newImplementation).map some, true)
    else (s, false)

def interposeValue (p : Process) (mainClosure : LaunchClosure) (value : Nat) : Option Nat :=
  if mainClosure.hasInterposings = false then some value
  else
    (mainClosure.forEachInterposingTuple (checkTuple p value) (some none)).map (fun replacement =>
      replacement.getD value)

/-! ### Targets of an image -/

def interposeAll (imageNum : Nat) (tuples : List InterposingTuple) (target : ResolvedSymbolTarget) :
    ResolvedSymbolTarget :=
  tuples.foldl (interposeTarget imageNum) target

lemma runBody_go {α σ : Type} (f : α → σ → σ) (xs : List α) (s : σ) :
    runBody (fun x s => (f x s, false)) xs s = (xs.foldl (fun s x => f x s) s, false) := by
  induction xs generalizing s with
  | nil => rfl
  | cons x xs ih =>
    rw [runBody_cons, List.foldl_cons, ← ih]
    rfl

lemma interposeImage_foldl (tuples : List InterposingTuple) (image : ClosureImage) :
    tuples.foldl (fun image tuple => interposeImage tuple image) image =
      { image with
        bindFixups := image.bindFixups.map (fun bindPat =>
          { bindPat with target := interposeAll image.imageNum tuples bindPat.target })
        chainedTargets := image.chainedTargets.map (interposeAll image.imageNum tuples) } := by
  induction tuples generalizing image with
  | nil =>
    have hid : interposeAll image.imageNum [] = id := rfl
    simp [hid]
  | cons tuple tuples ih =>
    rw [List.foldl_cons, ih]
    simp [interposeImage, interposeAll, Function.comp_def]

lemma applyInterposing_eq (launchClosure : LaunchClosure) (images : List ClosureImage) :
    applyInterposing launchClosure images = images.map (fun image =>
      launchClosure.tuples.foldl (fun image tuple => interposeImage tuple image) image) := by
  rw [applyInterposing, LaunchClosure.forEachInterposingTuple_eq, runBody_go]
  dsimp only
  induction launchClosure.tuples generalizing images with
  | nil => simp
  | cons tuple tuples ih =>
    rw [List.foldl_cons, ih, List.map_map]
    rfl

def LaunchClosure.targets (closure : LaunchClosure) : List ResolvedSymbolTarget :=
  closure.tuples.flatMap (fun tuple => [tuple.stockImplementation, tuple.newImplementation])

def ClosureImage.targets (image : ClosureImage) : List ResolvedSymbolTarget :=
  image.bindFixups.map (·.target) ++ image.chainedTargets

/-- The targets resolve, different ones to different addresses; a replacee has one tuple, and no
replacement is in the image. -/
structure Admissible (p : Process) (closure : LaunchClosure) (image : ClosureImage) : Prop where
  resolves : ∀ t ∈ closure.targets ++ image.targets, (AllImages.resolveTarget p t).isSome
  distinct : ∀ t ∈ closure.targets ++ image.targets, ∀ t' ∈ closure.targets ++ image.targets,
    AllImages.resolveTarget p t = AllImages.resolveTarget p t' → t = t'
  replacees : (closure.tuples.map (·.stockImplementation)).Nodup
  elsewhere : ∀ tuple ∈ closure.tuples, getField tuple.newImplementation 0 2 = Kinds.kindImage.value →
    getField tuple.newImplementation 2 22 ≠ image.imageNum

inductive LeadsTo (imageNum : Nat) :
    List InterposingTuple → ResolvedSymbolTarget → ResolvedSymbolTarget → Prop
  | done (t : ResolvedSymbolTarget) : LeadsTo imageNum [] t t
  | replace {tuple : InterposingTuple} {later : List InterposingTuple} {t : ResolvedSymbolTarget}
      (hnum : getField tuple.newImplementation 2 22 ≠ imageNum)
      (h : LeadsTo imageNum later tuple.newImplementation t) :
      LeadsTo imageNum (tuple :: later) tuple.stockImplementation t
  | pass {tuple : InterposingTuple} {later : List InterposingTuple} {t t' : ResolvedSymbolTarget}
      (hpass : ¬(t = tuple.stockImplementation ∧ getField tuple.newImplementation 2 22 ≠ imageNum))
      (h : LeadsTo imageNum later t t') : LeadsTo imageNum (tuple :: later) t t'

/-- The tuple of a target replaces it in the image, and the tuples behind it leave the replacement
or lead back to it; or the tuple replaces the target by itself. -/
def Settles (imageNum : Nat) (tuples : List InterposingTuple) (target : ResolvedSymbolTarget) : Prop :=
  ∀ earlier tuple later, tuples = earlier ++ tuple :: later → tuple.stockImplementation = target →
    tuple.newImplementation = target ∨
      getField tuple.newImplementation 2 22 ≠ imageNum ∧
        LeadsTo imageNum later tuple.newImplementation tuple.newImplementation

section InterposeAll

variable {imageNum : Nat} {tuples earlier later : List InterposingTuple} {tuple : InterposingTuple}
  {target : ResolvedSymbolTarget}

lemma interposeAll_cons : interposeAll imageNum (tuple :: later) target =
    interposeAll imageNum later (interposeTarget imageNum target tuple) := rfl

lemma interposeAll_append : interposeAll imageNum (earlier ++ later) target =
    interposeAll imageNum later (interposeAll imageNum earlier target) := by
  rw [interposeAll, interposeAll, interposeAll, List.foldl_append]

lemma interposeAll_of_not_mem (h : target ∉ tuples.map (·.stockImplementation)) :
    interposeAll imageNum tuples target = target := by
  induction tuples with
  | nil => rfl
  | cons tuple tuples ih =>
    rw [List.map_cons, List.mem_cons, not_or] at h
    rw [interposeAll_cons, interposeTarget, if_neg (fun hsame => h.1 hsame.1)]
    exact ih h.2

lemma leadsTo_iff {t : ResolvedSymbolTarget} :
    LeadsTo imageNum tuples target t ↔ interposeAll imageNum tuples target = t := by
  constructor
  · intro h
    induction h with
    | done => rfl
    | replace hnum _ ih => rwa [interposeAll_cons, interposeTarget, if_pos ⟨rfl, hnum⟩]
    | pass hpass _ ih => rwa [interposeAll_cons, interposeTarget, if_neg hpass]
  · intro h
    induction tuples generalizing target with
    | nil =>
      obtain rfl : target = t := h
      exact LeadsTo.done target
    | cons tuple tuples ih =>
      rw [interposeAll_cons, interposeTarget] at h
      split at h
      · rename_i hmatch
        rw [hmatch.1]
        exact LeadsTo.replace hmatch.2 (ih h)
      · rename_i hpass
        exact LeadsTo.pass hpass (ih h)

/-- The replacement that a target gets at run time. -/
def firstMatch (tuples : List InterposingTuple) (target : ResolvedSymbolTarget) : ResolvedSymbolTarget :=
  ((tuples.find? (fun tuple => tuple.stockImplementation = target)).map (·.newImplementation)).getD
    target

lemma firstMatch_of_not_mem (h : target ∉ tuples.map (·.stockImplementation)) :
    firstMatch tuples target = target := by
  have hnone : tuples.find? (fun tuple => tuple.stockImplementation = target) = none := by
    rw [List.find?_eq_none]
    intro tuple htuple hsame
    exact h (List.mem_map.mpr ⟨tuple, htuple, by simpa using hsame⟩)
  rw [firstMatch, hnone]
  rfl

lemma firstMatch_append (h : target ∉ earlier.map (·.stockImplementation)) :
    firstMatch (earlier ++ later) target = firstMatch later target := by
  have hnone : earlier.find? (fun tuple => tuple.stockImplementation = target) = none := by
    rw [List.find?_eq_none]
    intro tuple htuple hsame
    exact h (List.mem_map.mpr ⟨tuple, htuple, by simpa using hsame⟩)
  rw [firstMatch, List.find?_append, hnone, Option.none_or, firstMatch]

lemma firstMatch_cons_self : firstMatch (tuple :: later) tuple.stockImplementation =
    tuple.newImplementation := by
  rw [firstMatch, List.find?_cons_of_pos (by simp)]
  rfl

/-- An item whose key is its own is at one place of the list. -/
lemma eq_of_append_cons_eq {α β : Type} {f : α → β} {xs ys xs' ys' : List α} {x x' : α}
    (hsplit : xs ++ x :: ys = xs' ++ x' :: ys') (hsame : f x' = f x) (hxs : f x ∉ xs.map f)
    (hys : f x ∉ ys.map f) : x' = x ∧ ys' = ys := by
  obtain ⟨k, hk, hk'⟩ | ⟨k, hk, hk'⟩ := List.append_eq_append_iff.mp hsplit
  · cases k with
    | nil =>
      rw [List.nil_append, List.cons.injEq] at hk'
      exact ⟨hk'.1.symm, hk'.2.symm⟩
    | cons a k =>
      -- the other place is behind this one
      rw [List.cons_append, List.cons.injEq] at hk'
      exact absurd (List.mem_map.mpr ⟨x', by rw [hk'.2]; simp, hsame⟩) hys
  · cases k with
    | nil =>
      rw [List.nil_append, List.cons.injEq] at hk'
      exact hk'
    | cons a k =>
      rw [List.cons_append, List.cons.injEq] at hk'
      exact absurd (List.mem_map.mpr ⟨x', by rw [hk, hk'.1]; simp, hsame⟩) hxs

lemma interposeAll_eq_firstMatch_iff (hnodup : (tuples.map (·.stockImplementation)).Nodup) :
    interposeAll imageNum tuples target = firstMatch tuples target ↔ Settles imageNum tuples target := by
  by_cases hmem : target ∈ tuples.map (·.stockImplementation)
  · obtain ⟨tuple, htuple, rfl⟩ := List.mem_map.mp hmem
    obtain ⟨earlier, later, rfl⟩ := List.append_of_mem htuple
    rw [List.map_append, List.map_cons, List.nodup_middle, List.nodup_cons, List.mem_append, not_or]
      at hnodup
    obtain ⟨⟨hearlier, hlater⟩, -⟩ := hnodup
    rw [interposeAll_append, interposeAll_of_not_mem hearlier, firstMatch_append hearlier,
      firstMatch_cons_self, interposeAll_cons]
    have hsettles : Settles imageNum (earlier ++ tuple :: later) tuple.stockImplementation ↔
        tuple.newImplementation = tuple.stockImplementation ∨
          getField tuple.newImplementation 2 22 ≠ imageNum ∧
            LeadsTo imageNum later tuple.newImplementation tuple.newImplementation := by
      constructor
      · intro h
        exact h earlier tuple later rfl rfl
      · intro h earlier' tuple' later' hsplit hsame
        obtain ⟨rfl, rfl⟩ := eq_of_append_cons_eq hsplit hsame hearlier hlater
        exact h
    rw [hsettles, interposeTarget]
    by_cases hnum : getField tuple.newImplementation 2 22 = imageNum
    · rw [if_neg (by simp [hnum]), interposeAll_of_not_mem hlater]
      simp [hnum, eq_comm]
    · rw [if_pos ⟨rfl, hnum⟩, leadsTo_iff]
      constructor
      · exact fun h => Or.inr ⟨hnum, h⟩
      · intro h
        cases h with
        | inl hself => rw [hself, interposeAll_of_not_mem hlater]
        | inr h => exact h.2
  · rw [interposeAll_of_not_mem hmem, firstMatch_of_not_mem hmem]
    refine iff_of_true rfl ?_
    intro earlier tuple later hsplit hsame
    exact absurd (List.mem_map.mpr ⟨tuple, by rw [hsplit]; simp, hsame⟩) hmem

end InterposeAll

/-! ### Both sides -/

section Agreement

variable {p : Process} {closure : LaunchClosure} {image : ClosureImage}

lemma stock_mem_targets {tuple : InterposingTuple} (h : tuple ∈ closure.tuples) :
    tuple.stockImplementation ∈ closure.targets ++ image.targets :=
  List.mem_append_left _ (List.mem_flatMap.mpr ⟨tuple, h, by simp⟩)

lemma new_mem_targets {tuple : InterposingTuple} (h : tuple ∈ closure.tuples) :
    tuple.newImplementation ∈ closure.targets ++ image.targets :=
  List.mem_append_left _ (List.mem_flatMap.mpr ⟨tuple, h, by simp⟩)

lemma runBody_checkTuple (h : Admissible p closure image) {tuples : List InterposingTuple}
    (htuples : ∀ tuple ∈ tuples, tuple ∈ closure.tuples) {target : ResolvedSymbolTarget} {value : Nat}
    (htarget : target ∈ closure.targets ++ image.targets)
    (hvalue : AllImages.resolveTarget p target = some value) :
    (runBody (checkTuple p value) tuples (some none)).1.map (fun replacement =>
        replacement.getD value) = AllImages.resolveTarget p (firstMatch tuples target) := by
  induction tuples with
  | nil => exact hvalue.symm
  | cons tuple tuples ih =>
    obtain ⟨htuple, hrest⟩ := List.forall_mem_cons.mp htuples
    have hstock : tuple.stockImplementation ∈ closure.targets ++ image.targets :=
      stock_mem_targets htuple
    obtain ⟨stockPointer, hpointer⟩ := Option.isSome_iff_exists.mp (h.resolves _ hstock)
    rw [runBody_cons]
    by_cases hsame : stockPointer = value
    · have hbody : checkTuple p value tuple (some none) =
          ((AllImages.resolveTarget p tuple.newImplementation).map some, true) := by
        simp [checkTuple, hpointer, hsame]
      obtain rfl : tuple.stockImplementation = target :=
        h.distinct _ hstock _ htarget (by rw [hpointer, hvalue, hsame])
      simp only [hbody, if_true]
      rw [firstMatch_cons_self, Option.map_map]
      simp [Function.comp_def]
    · have hbody : checkTuple p value tuple (some none) = (some none, false) := by
        simp [checkTuple, hpointer, hsame]
      have hother : target ∉ [tuple].map (·.stockImplementation) := by
        rw [List.map_singleton, List.mem_singleton]
        rintro rfl
        rw [hpointer, Option.some.injEq] at hvalue
        exact hsame hvalue
      simp only [hbody, Bool.false_eq_true, if_false]
      rw [ih hrest]
      exact congrArg _ (firstMatch_append hother).symm

/-- At run time the first match decides. -/
lemma interposeValue_eq (h : Admissible p closure image) {target : ResolvedSymbolTarget} {value : Nat}
    (htarget : target ∈ closure.targets ++ image.targets)
    (hvalue : AllImages.resolveTarget p target = some value) :
    interposeValue p closure value = AllImages.resolveTarget p (firstMatch closure.tuples target) := by
  rw [interposeValue, LaunchClosure.forEachInterposingTuple_eq]
  split
  · rename_i hnone
    rw [(closure.hasInterposings_eq_false_iff).mp hnone, ← hvalue]
    rfl
  · exact runBody_checkTuple h (fun _ htuple => htuple) htarget hvalue

lemma interposeAll_mem (target : ResolvedSymbolTarget) (imageNum : Nat) (tuples : List InterposingTuple)
    (htuples : ∀ tuple ∈ tuples, tuple ∈ closure.tuples)
    (h : target ∈ closure.targets ++ image.targets) :
    interposeAll imageNum tuples target ∈ closure.targets ++ image.targets := by
  induction tuples generalizing target with
  | nil => exact h
  | cons tuple tuples ih =>
    obtain ⟨htuple, hrest⟩ := List.forall_mem_cons.mp htuples
    rw [interposeAll_cons, interposeTarget]
    split
    · exact ih _ hrest (new_mem_targets htuple)
    · exact ih _ hrest h

lemma firstMatch_mem {target : ResolvedSymbolTarget} (h : target ∈ closure.targets ++ image.targets) :
    firstMatch closure.tuples target ∈ closure.targets ++ image.targets := by
  rw [firstMatch]
  cases hfind : closure.tuples.find? (fun tuple => tuple.stockImplementation = target) with
  | none => exact h
  | some tuple => exact new_mem_targets (List.mem_of_find?_eq_some hfind)

/-- A target is interposed at build time as its address is at run time exactly when it settles. -/
lemma resolveTarget_interposeAll_iff (h : Admissible p closure image) {target : ResolvedSymbolTarget}
    (htarget : target ∈ closure.targets ++ image.targets) :
    AllImages.resolveTarget p (interposeAll image.imageNum closure.tuples target) =
        (AllImages.resolveTarget p target).bind (interposeValue p closure) ↔
      Settles image.imageNum closure.tuples target := by
  obtain ⟨value, hvalue⟩ := Option.isSome_iff_exists.mp (h.resolves target htarget)
  rw [hvalue, Option.bind_some, interposeValue_eq h htarget hvalue,
    ← interposeAll_eq_firstMatch_iff h.replacees]
  constructor
  · exact h.distinct _ (interposeAll_mem target _ _ (fun _ htuple => htuple) htarget) _
      (firstMatch_mem htarget)
  · intro hsame
    rw [hsame]

end Agreement

def addresses (p : Process) (image : ClosureImage) : List (Option Nat) :=
  image.targets.map (AllImages.resolveTarget p)

def interposedAddresses (p : Process) (closure : LaunchClosure) (image : ClosureImage) :
    List (Option Nat) :=
  image.targets.map (fun target =>
    (AllImages.resolveTarget p target).bind (interposeValue p closure))

/-- The targets of an image resolve to what `interposeValue` gives exactly when all of them settle. -/
theorem applyInterposing_agrees_iff (p : Process) (closure : LaunchClosure) (images : List ClosureImage)
    (i : Nat) (image : ClosureImage) (himage : images[i]? = some image)
    (h : Admissible p closure image) :
    ((applyInterposing closure images)[i]?).map (addresses p) =
        some (interposedAddresses p closure image) ↔
      ∀ target ∈ image.targets, Settles image.imageNum closure.tuples target := by
  have htargets : (closure.tuples.foldl (fun image tuple => interposeImage tuple image) image).targets =
      image.targets.map (interposeAll image.imageNum closure.tuples) := by
    rw [interposeImage_foldl]
    simp [ClosureImage.targets, Function.comp_def]
  rw [applyInterposing_eq, List.getElem?_map, himage, Option.map_some, Option.map_some,
    Option.some.injEq, addresses, htargets, interposedAddresses, List.map_map, List.map_inj_left]
  constructor
  · intro hsame target htarget
    exact (resolveTarget_interposeAll_iff h (List.mem_append_right _ htarget)).mp (hsame target htarget)
  · intro hsettles target htarget
    exact (resolveTarget_interposeAll_iff h (List.mem_append_right _ htarget)).mpr
      (hsettles target htarget)

/-- A process of 64 bits with a shared cache at 0x10000. -/
def cacheProcess : Process where
  is64 := true
  dyldCacheAddress := some 0x10000
  existingImages := []
  newImages := []

def cacheTarget (offset : Nat) : ResolvedSymbolTarget :=
  BitVec.ofNat 64 (4 * offset + Kinds.kindSharedCache.value)

lemma getField_cacheTarget {n : Nat} (h : n < 2 ^ 32) :
    getField (cacheTarget n) 0 2 = 1 ∧ getField (cacheTarget n) 2 62 = n := by
  rw [getField, getField, cacheTarget, BitVec.toNat_ofNat, Kinds.value]
  omega

lemma resolveTarget_cacheTarget {n : Nat} (h : n < 2 ^ 32) :
    AllImages.resolveTarget cacheProcess (cacheTarget n) = some (0x10000 + n) := by
  obtain ⟨hkind, hoffset⟩ := getField_cacheTarget h
  have hsigned : Int.bmod (n : Int) (2 ^ 62) = n := (bmod_eq_self_iff 61).mpr ⟨by omega, by omega⟩
  rw [AllImages.resolveTarget, resolve, hkind, getSignedField, hoffset, hsigned]
  change some (((0x10000 : Int) + n) % ((2 ^ 64 : Nat) : Int)).toNat = _
  rw [Option.some.injEq]
  omega

lemma admissible_of_cacheTargets {closure : LaunchClosure} {image : ClosureImage}
    (h : ∀ t ∈ closure.targets ++ image.targets, ∃ n < 2 ^ 32, t = cacheTarget n)
    (hnodup : (closure.tuples.map (·.stockImplementation)).Nodup) :
    Admissible cacheProcess closure image where
  resolves := by
    intro t ht
    obtain ⟨n, hn, rfl⟩ := h t ht
    rw [resolveTarget_cacheTarget hn]
    rfl
  distinct := by
    intro t ht t' ht' hsame
    obtain ⟨n, hn, rfl⟩ := h t ht
    obtain ⟨n', hn', rfl⟩ := h t' ht'
    rw [resolveTarget_cacheTarget hn, resolveTarget_cacheTarget hn', Option.some.injEq] at hsame
    rw [Nat.add_left_cancel hsame]
  replacees := hnodup
  elsewhere := by
    intro tuple htuple hkind
    obtain ⟨n, hn, hnew⟩ := h _ (new_mem_targets htuple)
    rw [hnew, (getField_cacheTarget hn).1] at hkind
    exact absurd hkind (by decide)

def boundImage : ClosureImage where
  imageNum := 1
  bindFixups := []
  chainedTargets := [cacheTarget 16]

def cascade : List InterposingTuple :=
  [⟨cacheTarget 16, cacheTarget 32⟩, ⟨cacheTarget 32, cacheTarget 48⟩]

lemma admissible_cascade (n : Nat) : Admissible cacheProcess ⟨[cascade.take n]⟩ boundImage := by
  have hmem : ∀ t ∈ [cacheTarget 16, cacheTarget 32, cacheTarget 32, cacheTarget 48, cacheTarget 16],
      ∃ n < 2 ^ 32, t = cacheTarget n := by
    intro t ht
    simp only [List.mem_cons, List.not_mem_nil, or_false] at ht
    obtain rfl | rfl | rfl | rfl | rfl := ht <;> exact ⟨_, by norm_num, rfl⟩
  have hnodup : (cascade.map (·.stockImplementation)).Nodup := by decide
  apply admissible_of_cacheTargets
  · intro t ht
    refine hmem t ?_
    cases List.mem_append.mp ht with
    | inl ht =>
      obtain ⟨tuple, htuple, ht⟩ := List.mem_flatMap.mp ht
      have hin : tuple ∈ cascade := List.mem_of_mem_take (by simpa [LaunchClosure.tuples] using htuple)
      have hall : t ∈ cascade.flatMap (fun tuple => [tuple.stockImplementation,
          tuple.newImplementation]) := List.mem_flatMap.mpr ⟨tuple, hin, ht⟩
      exact List.mem_append_left [cacheTarget 16] hall
    | inr ht => exact List.mem_append_right (cascade.flatMap (fun tuple =>
        [tuple.stockImplementation, tuple.newImplementation])) ht
  · rw [LaunchClosure.tuples, List.flatten_singleton, List.map_take]
    exact hnodup.sublist (List.take_sublist n _)

theorem settles_one_tuple : Settles 1 (cascade.take 1) (cacheTarget 16) := by
  have hvalue : interposeValue cacheProcess ⟨[cascade.take 1]⟩ 0x10010 = some 0x10020 := by
    have hsome : AllImages.resolveTarget cacheProcess (cacheTarget 16) = some 0x10010 :=
      resolveTarget_cacheTarget (by norm_num)
    rw [interposeValue_eq (admissible_cascade 1) (by decide) hsome]
    exact resolveTarget_cacheTarget (by norm_num)
  have hbuild : applyInterposing ⟨[cascade.take 1]⟩ [boundImage] =
      [{ boundImage with chainedTargets := [cacheTarget 32] }] := rfl
  have hsettle := (applyInterposing_agrees_iff cacheProcess ⟨[cascade.take 1]⟩ [boundImage] 0 boundImage
    rfl (admissible_cascade 1)).mp (by
      rw [hbuild]
      simp [addresses, interposedAddresses, ClosureImage.targets, boundImage,
        resolveTarget_cacheTarget, hvalue])
  exact hsettle (cacheTarget 16) (List.mem_singleton_self _)

/-- A tuple whose replacement the next tuple replaces: the image binds to offset 48 of the cache, and
a pointer to offset 16 is interposed with offset 32. -/
theorem applyInterposing_cascades :
    Admissible cacheProcess ⟨[cascade]⟩ boundImage ∧
      (applyInterposing ⟨[cascade]⟩ [boundImage]).map (addresses cacheProcess) = [[some 0x10030]] ∧
      interposedAddresses cacheProcess ⟨[cascade]⟩ boundImage = [some 0x10020] := by
  have hadmissible : Admissible cacheProcess ⟨[cascade]⟩ boundImage := admissible_cascade 2
  have hvalue : interposeValue cacheProcess ⟨[cascade]⟩ 0x10010 = some 0x10020 := by
    have hsome : AllImages.resolveTarget cacheProcess (cacheTarget 16) = some 0x10010 :=
      resolveTarget_cacheTarget (by norm_num)
    rw [interposeValue_eq hadmissible (by decide) hsome]
    exact resolveTarget_cacheTarget (by norm_num)
  have hbuild : applyInterposing ⟨[cascade]⟩ [boundImage] =
      [{ boundImage with chainedTargets := [cacheTarget 48] }] := rfl
  refine ⟨hadmissible, ?_, ?_⟩
  · rw [hbuild]
    simp [addresses, ClosureImage.targets, boundImage, resolveTarget_cacheTarget]
  · simp [interposedAddresses, ClosureImage.targets, boundImage, resolveTarget_cacheTarget, hvalue]

end Dyld.Closure.Interposing
