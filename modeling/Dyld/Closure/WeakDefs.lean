import Dyld.Closure.ResolvedTarget
import Dyld.MachO.FindSymbol

/-!
# Coalescing weak definitions

`mas_fromImageWeakDefLookup` scans the loaded images for the definition of a symbol that all
images use. On its way it records patches for the dylibs in the dyld cache that have a definition
of their own. `coalesced` is the definition that the scan is meant to give.
`none` as the result of a function stands for a recursion that does not end or a failed assert.
-/

namespace Dyld.Closure.WeakDefs

open Dyld.Lib
open Dyld.Closure.ResolvedTarget (Kinds PatchEntry Process resolve resolve_image)
open Dyld.MachO.BindTargets (AnalyzerSet Import newTarget)
open Dyld.MachO.ReExports (Dependent MachOFile TargetState exportedTarget findSymbolIn searchDylibs
  searchReExported)

/-! ### Images and their symbols -/

structure LoadedImage extends MachOFile where
  mh : UInt64
  imageNum : Nat
  overrideImageNum : Nat
  rtldLocal : Bool
  inDyldCache : Bool
  hasWeakDefs : Bool
  /-- The image numbers of the dependents, with `none` for a missing weak dylib. -/
  dependents : List (Option Nat)
  deriving DecidableEq

abbrev FixupTarget := MachO.ReExports.FixupTarget LoadedImage

def findLoadedImage (images : List LoadedImage) (imageNum : Nat) : Option LoadedImage :=
  (images.find? (fun li => li.imageNum == imageNum)).or
    (images.find? (fun li => li.overrideImageNum == imageNum))

/-- `ClosureBuilder::wmo_dependent`. -/
def dependent (images : List LoadedImage) (image : LoadedImage) (depIndex : UInt32) :
    Dependent LoadedImage :=
  match image.dependents[depIndex.toNat]? with
  | none => .notFound false
  | some none => .missingWeakDylib
  | some (some childNum) =>
    match findLoadedImage images childNum with
    | some child => .child child
    -- `findLoadedImage` asserts that there is one
    | none => .notFound false

/-! ### Patches for the dyld cache -/

structure DyldCache where
  address : UInt64
  mappedAddress : UInt64
  dylibs : List UInt64

def DyldCache.findMachHeaderImageIndex (cache : DyldCache) (mh : UInt64) : Option Nat :=
  let slide := cache.address - cache.mappedAddress
  cache.dylibs.findIdx? (fun a => a == mh - slide)

def replacementFor (uninitialized : ResolvedSymbolTarget) (patchTarget : FixupTarget) : ResolvedSymbolTarget :=
  let replacement := setField uninitialized 0 2 Kinds.kindImage.value
  let replacement := setField replacement 2 22 (patchTarget.foundInImage.elim 0 LoadedImage.imageNum)
  setField replacement 24 40 patchTarget.offsetInImage.toNat

def addWeakDefCachePatch (makeMinimalClosure : Bool) (uninitialized : ResolvedSymbolTarget)
    (overrides : List PatchEntry) (cachedDylibIndex : Nat) (exportCacheOffset : UInt32)
    (patchTarget : FixupTarget) : List PatchEntry :=
  if makeMinimalClosure then overrides
  else if overrides.any (fun aPatch => aPatch.exportCacheOffset == exportCacheOffset) then overrides
  else overrides ++ [⟨cachedDylibIndex + 1, exportCacheOffset, replacementFor uninitialized patchTarget⟩]

/-! ### The scan over the loaded images -/

/-- What a lookup is made with. An image has its own header and number, which closures keep in
16 bits, one in the dyld cache is among the dylibs of the cache, and the dependents of an image are
loaded. -/
structure Lookup where
  images : List LoadedImage
  cache : DyldCache
  makeMinimalClosure : Bool
  uninitialized : ResolvedSymbolTarget
  fromMh : UInt64
  symbolName : String
  addend : UInt64
  fuel : Nat
  nodup_mh : (images.map LoadedImage.mh).Nodup
  nodup_imageNum : (images.map LoadedImage.imageNum).Nodup
  imageNum_lt : ∀ image ∈ images, image.imageNum < 2 ^ 16
  cached : ∀ image ∈ images, image.inDyldCache = true →
    (cache.findMachHeaderImageIndex image.mh).isSome = true
  dependents : ∀ image ∈ images, ∀ childNum ∈ image.dependents.reduceOption,
    (findLoadedImage images childNum).isSome = true

def Lookup.findIn (q : Lookup) (image : LoadedImage) : Option (Bool × TargetState LoadedImage) :=
  findSymbolIn LoadedImage.toMachOFile (dependent q.images) q.addend q.fuel image q.symbolName
    ⟨false, newTarget _⟩

structure Overrides where
  entries : List PatchEntry
  nodup : (entries.map PatchEntry.exportCacheOffset).Nodup

/-- The result so far and the patches so far. -/
structure ScanState where
  target : Option FixupTarget
  overrides : List PatchEntry

def exportCacheOffset (cache : DyldCache) (image : LoadedImage) (target : FixupTarget) : UInt32 :=
  (image.mh + target.offsetInImage - cache.address).toUInt32

def patchCacheUses (q : Lookup) (image : LoadedImage) (tempTarget : FixupTarget) (s : ScanState) :
    List PatchEntry :=
  match s.target with
  | none => s.overrides
  | some target =>
    if image.inDyldCache && (target.foundInImage.map LoadedImage.mh != some image.mh) then
      match q.cache.findMachHeaderImageIndex image.mh with
      | none => s.overrides
      | some cachedDylibIndex =>
        addWeakDefCachePatch q.makeMinimalClosure q.uninitialized s.overrides cachedDylibIndex
          (exportCacheOffset q.cache image tempTarget) target
    else s.overrides

def switchTarget (tempTarget : FixupTarget) : Option FixupTarget → FixupTarget
  | none => tempTarget
  | some target => if target.isWeakDef && !tempTarget.isWeakDef then tempTarget else target

/-- The handler of the loop over the images. -/
def scanImage (q : Lookup) (s : ScanState) (anImage : LoadedImage) : Option ScanState :=
  if !anImage.hasWeakDefs then some s
  else if anImage.rtldLocal && (q.fromMh != anImage.mh) then some s
  else
    match q.findIn anImage with
    | none => none
    | some (false, _) => some s
    | some (true, ⟨_, tempTarget⟩) =>
      if tempTarget.foundInImage.map LoadedImage.mh != some anImage.mh then some s
      else some { target := some (switchTarget tempTarget s.target)
                  overrides := patchCacheUses q anImage tempTarget s }

def fromImageWeakDefLookup (q : Lookup) (overrides : List PatchEntry) : Option ScanState :=
  q.images.foldlM (scanImage q) ⟨none, overrides⟩

/-! ### What the scan is meant to give -/

def definitionIn (q : Lookup) (image : LoadedImage) :
    Option (Option (LoadedImage × FixupTarget)) :=
  if !image.hasWeakDefs then some none
  else if image.rtldLocal && (q.fromMh != image.mh) then some none
  else (q.findIn image).map (fun r =>
    if r.1 && (r.2.target.foundInImage.map LoadedImage.mh == some image.mh) then
      some (image, r.2.target)
    else none)

def definitions (q : Lookup) : Option (List (LoadedImage × FixupTarget)) :=
  (q.images.mapM (definitionIn q)).map (fun l => l.filterMap id)

def coalesced (defs : List (LoadedImage × FixupTarget)) : Option (LoadedImage × FixupTarget) :=
  (defs.find? (fun d => !d.2.isWeakDef)).or defs.head?

def FixupTarget.address (p : Process) (findImage : Nat → Option AllImages.LoadedImage) (target : FixupTarget) :
    Option Nat :=
  match target.kind with
  | .bindToImage =>
    (target.foundInImage.bind (fun image => findImage image.imageNum)).map (fun info =>
      p.uintptr (info.loadedAddress + target.offsetInImage.toNat))
  | .bindAbsolute => some (p.uintptr target.offsetInImage.toNat)
  | .rebase | .bindMissingSymbol => none

def Replaces (replacement : ResolvedSymbolTarget) (target : FixupTarget) : Prop :=
  ∀ (p : Process) (findImage : Nat → Option AllImages.LoadedImage),
    resolve p findImage replacement = target.address p findImage

/-- An entry is for the uses of a cached definition. -/
def isPatchOf (q : Lookup) (d : LoadedImage × FixupTarget) (e : PatchEntry) : Bool :=
  some e.overriddenDylibInCache == (q.cache.findMachHeaderImageIndex d.1.mh).map (· + 1) &&
    e.exportCacheOffset == exportCacheOffset q.cache d.1 d.2

/-- The lookup returns the coalesced definition, and if that is outside the cache, each definition
in the cache has one patch, which replaces it by the one returned. -/
def Coalesces (q : Lookup) (overrides : Overrides) : Prop :=
  ∃ defs s, definitions q = some defs ∧ fromImageWeakDefLookup q overrides.entries = some s ∧
    s.target = (coalesced defs).map Prod.snd ∧
    ∀ w, coalesced defs = some w → w.1.inDyldCache = false →
      ∀ d ∈ defs, d.1.inDyldCache = true →
        ∃ e, s.overrides.filter (isPatchOf q d) = [e] ∧ Replaces e.replacement w.2

section Found

variable {images : List LoadedImage}

def FoundIn (images : List LoadedImage) (target : FixupTarget) : Prop :=
  ∀ i, target.foundInImage = some i → i ∈ images

lemma mem_of_findLoadedImage {n : Nat} {li : LoadedImage} (h : findLoadedImage images n = some li) :
    li ∈ images := by
  unfold findLoadedImage at h
  rcases Option.or_eq_some_iff.mp h with h | ⟨-, h⟩
  · exact List.mem_of_find?_eq_some h
  · exact List.mem_of_find?_eq_some h

lemma mem_of_dependent {image child : LoadedImage} {depIndex : UInt32}
    (h : dependent images image depIndex = .child child) : child ∈ images := by
  unfold dependent at h
  split at h
  · cases h
  · cases h
  · split at h
    · next li hli =>
      cases h
      exact mem_of_findLoadedImage hli
    · cases h

lemma foundIn_searchReExported {image : LoadedImage}
    {find : LoadedImage → TargetState LoadedImage → Option (Bool × TargetState LoadedImage)}
    (hfind : ∀ child ∈ images, ∀ st r, FoundIn images st.target →
      find child st = some r → FoundIn images r.2.target)
    {flags : List Bool} {depIndex : Nat} {st : TargetState LoadedImage}
    {r : Bool × TargetState LoadedImage} (hst : FoundIn images st.target)
    (h : searchReExported (fun depIndex => (dependent images image depIndex.toUInt32).child?) find flags
      depIndex st = some r) : FoundIn images r.2.target := by
  induction flags generalizing depIndex st with
  | nil =>
    cases h
    exact hst
  | cons isReExport flags ih =>
    unfold searchReExported at h
    split_ifs at h
    · cases hdep : dependent images image depIndex.toUInt32 with
      | notFound missing =>
        rw [hdep] at h
        exact ih hst h
      | missingWeakDylib =>
        rw [hdep] at h
        exact ih hst h
      | child dep =>
        rw [hdep] at h
        dsimp only [Dependent.child?] at h
        have hmem := mem_of_dependent hdep
        split at h
        · cases h
        · next hout =>
          cases h
          exact hfind dep hmem _ _ hst hout
        · next hout => exact ih (hfind dep hmem _ _ hst hout) h
    · exact ih hst h

lemma foundInImage_exportedTarget (addend : UInt64) (image : LoadedImage) (symbolName : String)
    (node : MachO.ReExports.ExportNode) (target : FixupTarget) :
    (exportedTarget addend image symbolName node target).foundInImage = some image := by
  unfold exportedTarget
  dsimp only
  split <;> rfl

lemma foundIn_findSymbolIn (fuel : Nat) {image : LoadedImage} {symbolName : String} {addend : UInt64}
    {st : TargetState LoadedImage} {r : Bool × TargetState LoadedImage} (himage : image ∈ images)
    (hst : FoundIn images st.target)
    (h : findSymbolIn LoadedImage.toMachOFile (dependent images) addend fuel image symbolName st = some r) :
    FoundIn images r.2.target := by
  induction fuel generalizing image symbolName st r with
  | zero => cases h
  | succ fuel ih =>
    have hclear : FoundIn images st.clear.target := hst
    have hself : ∀ t : FixupTarget, t.foundInImage = some image → FoundIn images t := by
      intro t heq i hi
      rw [heq] at hi
      cases hi
      exact himage
    -- the symbol is not exported by the image itself
    have hsearch : ∀ r', searchDylibs LoadedImage.toMachOFile (dependent images)
        (fun child st => findSymbolIn LoadedImage.toMachOFile (dependent images) addend fuel child
          symbolName st) image st.clear = some r' → FoundIn images r'.2.target := by
      intro r' hr'
      obtain ⟨out, hout, rfl⟩ := Option.map_eq_some_iff.mp hr'
      change FoundIn images out.2.target
      split_ifs at hout
      · refine foundIn_searchReExported ?_ hclear hout
        intro child hchild st r hst hfind
        exact ih hchild hst hfind
      · cases hout
        exact hclear
    unfold findSymbolIn at h
    dsimp only at h
    split at h
    · split at h
      · exact hsearch r h
      · next node _ =>
        split_ifs at h
        · split at h
          · next depHelper hdep =>
            obtain ⟨out, hout, rfl⟩ := Option.map_eq_some_iff.mp h
            have hfound := ih (mem_of_dependent hdep) hclear hout
            split_ifs
            · exact hfound
            · exact hfound
          · cases h
            exact hclear
          · cases h
            exact hclear
        · cases h
          exact hself _ (foundInImage_exportedTarget _ _ _ _ _)
        · cases h
          exact hself _ (foundInImage_exportedTarget _ _ _ _ _)
    · split at h
      · cases h
        exact hself _ rfl
      · exact hsearch r h

end Found

section Definitions

variable {q : Lookup} {defs : List (LoadedImage × FixupTarget)}

lemma eq_of_mh_eq {a b : LoadedImage} (ha : a ∈ q.images) (hb : b ∈ q.images)
    (h : a.mh = b.mh) : a = b :=
  List.inj_on_of_nodup_map q.nodup_mh ha hb h

def visit (q : Lookup) (s : ScanState) (d : LoadedImage × FixupTarget) : ScanState :=
  { target := some (switchTarget d.2 s.target), overrides := patchCacheUses q d.1 d.2 s }

structure Lookup.In (q : Lookup) (set : AnalyzerSet LoadedImage) (fromWmo : LoadedImage)
    (imp : Import) : Prop where
  files : set.files = LoadedImage.toMachOFile
  dependent : set.dependent = dependent q.images
  hasWeakDefs : set.hasWeakDefs = LoadedImage.hasWeakDefs
  images : set.images = q.images.map (fun image => (image, image.rtldLocal))
  symbolName : set.strings imp.symbolName = q.symbolName
  addend : imp.addend = q.addend
  fromWmo_mem : fromWmo ∈ q.images
  fromWmo_mh : fromWmo.mh = q.fromMh

section Set

variable {set : AnalyzerSet LoadedImage} {fromWmo : LoadedImage} {imp : Import}

lemma mh_bne_iff {a b : LoadedImage} (ha : a ∈ q.images) (hb : b ∈ q.images) :
    (a.mh != b.mh) = decide (a ≠ b) := by
  by_cases hab : a = b
  · subst hab
    simp
  · have hne : a.mh ≠ b.mh := fun hmh => hab (eq_of_mh_eq ha hb hmh)
    simp [hab, hne]

lemma scan_eq_lookup (h : q.In set fromWmo imp) {images : List LoadedImage}
    (himages : ∀ i ∈ images, i ∈ q.images) (s : ScanState) :
    (images.foldlM (scanImage q) s).map ScanState.target =
      set.fromImageWeakDefLookup q.fuel fromWmo imp
        (images.map (fun image => (image, image.rtldLocal))) s.target := by
  induction images generalizing s with
  | nil => rfl
  | cons image images ih =>
    have himage := himages image List.mem_cons_self
    have hrest := ih (fun i hi => himages i (List.mem_cons_of_mem _ hi))
    have hfind : findSymbolIn set.files set.dependent imp.addend q.fuel image
        (set.strings imp.symbolName) ⟨false, newTarget _⟩ = q.findIn image := by
      rw [h.files, h.dependent, h.addend, h.symbolName]
      rfl
    have hfrom : (q.fromMh != image.mh) = decide (fromWmo ≠ image) := by
      rw [← h.fromWmo_mh, mh_bne_iff h.fromWmo_mem himage]
    rw [List.foldlM_cons, List.map_cons, AnalyzerSet.fromImageWeakDefLookup, hfind, h.hasWeakDefs,
      ← hfrom, scanImage]
    by_cases hweak : image.hasWeakDefs = true
    · cases hhidden : image.rtldLocal && (q.fromMh != image.mh) with
      | true =>
        simp only [hweak, Bool.not_true, Bool.false_or, Bool.false_eq_true, if_false, if_true]
        exact hrest s
      | false =>
        simp only [hweak, Bool.not_true, Bool.false_or, Bool.false_eq_true, if_false]
        cases hout : q.findIn image with
        | none => rfl
        | some r =>
          obtain ⟨found, e, t⟩ := r
          cases found with
          | false => exact hrest s
          | true =>
            have hown : (t.foundInImage.map LoadedImage.mh != some image.mh) = true ↔
                t.foundInImage ≠ some image := by
              rw [bne_iff_ne, not_iff_not]
              constructor
              · intro hmh
                obtain ⟨i, hi, hmh⟩ := Option.map_eq_some_iff.mp hmh
                have hmem := foundIn_findSymbolIn q.fuel himage (fun i hi => by cases hi) hout i hi
                rw [hi, eq_of_mh_eq hmem himage hmh]
              · rintro heq
                rw [heq]
                rfl
            by_cases hother : t.foundInImage = some image
            · have hmh : ¬(t.foundInImage.map LoadedImage.mh != some image.mh) = true :=
                fun h => hown.mp h hother
              dsimp only
              rw [if_neg hmh, if_neg (not_not.mpr hother)]
              refine (hrest _).trans ?_
              cases s.target with
              | none => rfl
              | some target =>
                dsimp only [switchTarget]
                split_ifs
                · rfl
                · rfl
            · dsimp only
              rw [if_pos (hown.mpr hother), if_pos hother]
              exact hrest s
    · rw [Bool.not_eq_true] at hweak
      simp only [hweak, Bool.not_false, Bool.true_or, if_true]
      exact hrest s

theorem target_fromImageWeakDefLookup (h : q.In set fromWmo imp) (overrides : List PatchEntry) :
    (fromImageWeakDefLookup q overrides).map ScanState.target =
      set.fromImageWeakDefLookup q.fuel fromWmo imp set.images none := by
  rw [h.images]
  exact scan_eq_lookup h (fun _ hi => hi) ⟨none, overrides⟩

end Set

/-! ### The result and the patches so far -/

section Replacements

variable {t t' : FixupTarget} {image image' : LoadedImage} {u : ResolvedSymbolTarget}

end Replacements

end Definitions

end Dyld.Closure.WeakDefs
