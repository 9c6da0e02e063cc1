import Dyld.Lib.FlatArray

/-!
# The patch table of the dyld cache

`SharedCacheBuilder::addImageArray` writes, for every dylib of the cache, its exports that may
be overridden at run time and for each export the locations that use it. The four arrays lie
behind one another; `DyldSharedCache::forEachPatchableExport` and its siblings read them back.
-/

namespace Dyld.Cache
open Dyld.Lib

structure PointerMetaData where
  diversity : Nat
  high8 : Nat
  authenticated : Bool
  key : Nat
  usesAddrDiversity : Bool
  diversity_lt : diversity < 2 ^ 16
  high8_lt : high8 < 2 ^ 8
  key_lt : key < 2 ^ 2

structure PatchableLocation where
  cacheOffset : Nat
  high7 : Nat
  addend : Nat
  authenticated : Bool
  usesAddressDiversity : Bool
  key : Nat
  discriminator : Nat
  deriving DecidableEq

/-- The arguments of one call of `makePatchLocation`. -/
structure RecordedUse where
  cacheOff : Nat
  pmd : PointerMetaData
  addend : Nat

/-- `makePatchLocation`: the fields cut to their widths, and its asserts. -/
def makePatchLocation (u : RecordedUse) : Option PatchableLocation :=
  let patch : PatchableLocation :=
    { cacheOffset := u.cacheOff % 2 ^ 32
      high7 := u.pmd.high8 / 2 % 2 ^ 7
      addend := u.addend % 2 ^ 5
      authenticated := u.pmd.authenticated
      usesAddressDiversity := u.pmd.usesAddrDiversity
      key := u.pmd.key % 2 ^ 2
      discriminator := u.pmd.diversity % 2 ^ 16 }
  if patch.cacheOffset = u.cacheOff ∧ patch.addend = u.addend ∧ patch.high7 * 2 = u.pmd.high8 then
    some patch
  else none

def Describes (p : PatchableLocation) (u : RecordedUse) : Prop :=
  p.cacheOffset = u.cacheOff ∧ p.high7 * 2 = u.pmd.high8 ∧ p.addend = u.addend ∧
  p.authenticated = u.pmd.authenticated ∧ p.usesAddressDiversity = u.pmd.usesAddrDiversity ∧
  p.key = u.pmd.key ∧ p.discriminator = u.pmd.diversity

lemma describes_of_makePatchLocation {u : RecordedUse} {p : PatchableLocation}
    (h : makePatchLocation u = some p) : Describes p u := by
  unfold makePatchLocation at h
  dsimp only at h
  split at h
  · rename_i hc
    rw [← Option.some.inj h]
    exact ⟨hc.1, hc.2.2, hc.2.1, rfl, rfl, Nat.mod_eq_of_lt u.pmd.key_lt,
      Nat.mod_eq_of_lt u.pmd.diversity_lt⟩
  · exact absurd h (by simp)

/-- A C string without its terminator. -/
structure ExportName where
  bytes : List UInt8
  nul_free : ∀ b ∈ bytes, b ≠ 0

/-- A dylib as `DyldSharedCache::forEachImage` reports it. -/
structure CachedDylib where
  mh : Nat
  overridablePath : Bool

/-- What the builder has collected when `addImageArray` runs. The exports of a dylib are a
`std::set`; offsets are into a cache of at most 4 GB. -/
structure PatchInput where
  images : List CachedDylib
  dylibToItsExports : Nat → List Nat
  dylibWeakExports : List (Nat × Nat)
  exportsToUses : Nat → List RecordedUse
  exportsToName : Nat → ExportName
  alwaysGeneratePatch : List (List UInt8)
  exports_sorted : ∀ mh, (dylibToItsExports mh).Pairwise (· < ·)
  exports_lt : ∀ mh, ∀ off ∈ dylibToItsExports mh, off < 2 ^ 32
  uses_ok : ∀ off, ∀ u ∈ exportsToUses off, (makePatchLocation u).isSome

section Writer

variable (inp : PatchInput)

def needsPatch (dylib : CachedDylib) (offset : Nat) : Bool :=
  dylib.overridablePath || inp.dylibWeakExports.contains (dylib.mh, offset) ||
    inp.alwaysGeneratePatch.contains (inp.exportsToName offset).bytes

def neededExports (dylib : CachedDylib) : List Nat :=
  (inp.dylibToItsExports dylib.mh).filter (needsPatch inp dylib)

def recordedLocations (offset : Nat) : List PatchableLocation :=
  (inp.exportsToUses offset).filterMap makePatchLocation

/-- The uses after `uses.erase(std::unique(...))`: a location equal to the one kept before it
is dropped, where equality compares `cacheOffset`. -/
def uniqueUses (offset : Nat) : List PatchableLocation :=
  (recordedLocations inp offset).destutter fun a b => a.cacheOffset ≠ b.cacheOffset

end Writer

/-- `dyld_cache_image_patches`. -/
structure ImagePatches where
  patchExportsStartIndex : Nat
  patchExportsCount : Nat
  deriving DecidableEq

structure PatchableExport where
  cacheOffsetOfImpl : Nat
  patchLocationsStartIndex : Nat
  patchLocationsCount : Nat
  exportNameOffset : Nat
  deriving DecidableEq

/-- The vectors that are filled, in the order in which they are copied into the cache. -/
structure PatchTables where
  patchImages : List ImagePatches
  patchExports : List PatchableExport
  patchLocations : List PatchableLocation
  patchExportNames : List UInt8

section Writer

variable (inp : PatchInput)

def addExport (t : PatchTables) (exportCacheOffset : Nat) : PatchTables :=
  let uses := uniqueUses inp exportCacheOffset
  { t with
    patchExports := t.patchExports ++
      [{ cacheOffsetOfImpl := exportCacheOffset % 2 ^ 32
         patchLocationsStartIndex := t.patchLocations.length % 2 ^ 32
         patchLocationsCount := uses.length % 2 ^ 32
         exportNameOffset := t.patchExportNames.length % 2 ^ 32 }]
    patchLocations := t.patchLocations ++ uses
    patchExportNames := t.patchExportNames ++ ((inp.exportsToName exportCacheOffset).bytes ++ [0]) }

def addImage (t : PatchTables) (dylib : CachedDylib) : PatchTables :=
  let filled := (neededExports inp dylib).foldl (addExport inp) t
  { filled with
    patchImages := filled.patchImages ++
      [⟨t.patchExports.length % 2 ^ 32, (neededExports inp dylib).length % 2 ^ 32⟩] }

/-- The vectors before the names are padded. -/
def filledTables : PatchTables := inp.images.foldl (addImage inp) ⟨[], [], [], []⟩

def patchTables : PatchTables :=
  let t := filledTables inp
  { t with
    patchExportNames := t.patchExportNames ++
      List.replicate ((4 - t.patchExportNames.length % 4) % 4) 0 }

def patchInfoSize (t : PatchTables) : Nat :=
  64 + 8 * t.patchImages.length + 16 * t.patchExports.length + 8 * t.patchLocations.length +
    t.patchExportNames.length

/-- The patch part of `addImageArray`: nothing is written when it does not fit behind the image
array and the trie, which take `otherSize` bytes. -/
def addImageArray (otherSize freeSpace : Nat) : Option PatchTables :=
  let t := patchTables inp
  if otherSize + patchInfoSize t > freeSpace then none else some t

end Writer

/-! ### Reading -/

/-- The patch info as mapped: the arrays one behind the other, and the eight bytes behind them. -/
structure PatchInfo where
  tables : PatchTables
  following : ImagePatches

section Reader

variable (info : PatchInfo)

/-- `patchArray[imageIndex]`. The entry after the last one is read from what follows: the
first export, or, when there is none, the bytes behind the patch info. -/
def patchArrayAt (imageIndex : Nat) : ImagePatches :=
  match info.tables.patchImages[imageIndex]? with
  | some patch => patch
  | none =>
    match info.tables.patchExports with
    | e :: _ => ⟨e.cacheOffsetOfImpl, e.patchLocationsStartIndex⟩
    | [] => info.following

def patchableExportCount (imageIndex : Nat) : Nat :=
  if imageIndex > info.tables.patchImages.length then 0
  else (patchArrayAt info imageIndex).patchExportsCount

/-- The exports of an image after the range checks, as both loops walk them. The check on the
sum keeps the loops inside the export array unless the 32-bit sum wraps, which only a record
read from behind the patch info can make it do. -/
def imageExports (imageIndex : Nat) : List PatchableExport :=
  if imageIndex > info.tables.patchImages.length then []
  else
    let patch := patchArrayAt info imageIndex
    if (patch.patchExportsStartIndex + patch.patchExportsCount) % 2 ^ 32 >
        info.tables.patchExports.length then []
    else slice info.tables.patchExports patch.patchExportsStartIndex patch.patchExportsCount

def exportNameAt (offset : Nat) : List UInt8 :=
  if offset < info.tables.patchExportNames.length then
    (info.tables.patchExportNames.drop offset).takeWhile (· ≠ 0)
  else []

def forEachPatchableExport (imageIndex : Nat) : List (Nat × List UInt8) :=
  (imageExports info imageIndex).map fun e => (e.cacheOffsetOfImpl, exportNameAt info e.exportNameOffset)

/-- The loop of `forEachPatchableUseOfExport`; a bad range ends it. -/
def usesOfExport (cacheOffsetOfImpl : Nat) : List PatchableExport → List PatchableLocation
  | [] => []
  | e :: exports =>
    if e.cacheOffsetOfImpl ≠ cacheOffsetOfImpl then usesOfExport cacheOffsetOfImpl exports
    else if (e.patchLocationsStartIndex + e.patchLocationsCount) % 2 ^ 32 >
        info.tables.patchLocations.length then []
    else
      slice info.tables.patchLocations e.patchLocationsStartIndex e.patchLocationsCount ++
        usesOfExport cacheOffsetOfImpl exports

def forEachPatchableUseOfExport (imageIndex cacheOffsetOfImpl : Nat) : List PatchableLocation :=
  usesOfExport info cacheOffsetOfImpl (imageExports info imageIndex)

end Reader

/-- The readers report what was collected: in range the needed exports with their names and for
each its recorded locations once, out of range nothing. -/
structure PatchesRoundTrip (inp : PatchInput) (info : PatchInfo) : Prop where
  count : ∀ i dylib, inp.images[i]? = some dylib →
    patchableExportCount info i = (neededExports inp dylib).length
  exports : ∀ i dylib, inp.images[i]? = some dylib →
    forEachPatchableExport info i =
      (neededExports inp dylib).map fun off => (off, (inp.exportsToName off).bytes)
  uses : ∀ i dylib, inp.images[i]? = some dylib → ∀ off ∈ neededExports inp dylib,
    ((forEachPatchableUseOfExport info i off).map (·.cacheOffset)).Nodup ∧
    (∀ x, x ∈ (forEachPatchableUseOfExport info i off).map (·.cacheOffset) ↔
      ∃ u ∈ inp.exportsToUses off, u.cacheOff = x) ∧
    ∀ p ∈ forEachPatchableUseOfExport info i off, ∃ u ∈ inp.exportsToUses off, Describes p u
  outside : ∀ i, inp.images.length ≤ i → patchableExportCount info i = 0 ∧
    forEachPatchableExport info i = [] ∧ ∀ off, forEachPatchableUseOfExport info i off = []

/-! ### What the arrays hold -/

/-- The arrays of `t'` are those of `t` with more behind them. -/
structure Extends (t t' : PatchTables) : Prop where
  exports : t.patchExports <+: t'.patchExports
  locations : t.patchLocations <+: t'.patchLocations
  names : t.patchExportNames <+: t'.patchExportNames

lemma Extends.refl (t : PatchTables) : Extends t t :=
  ⟨List.prefix_rfl, List.prefix_rfl, List.prefix_rfl⟩

lemma Extends.trans {t t' t'' : PatchTables} (h : Extends t t') (h' : Extends t' t'') :
    Extends t t'' :=
  ⟨h.exports.trans h'.exports, h.locations.trans h'.locations, h.names.trans h'.names⟩

/-- The arrays are small enough for 32-bit indexes. -/
structure Small (t : PatchTables) : Prop where
  exports : t.patchExports.length < 2 ^ 32
  locations : t.patchLocations.length < 2 ^ 32
  names : t.patchExportNames.length < 2 ^ 32

lemma Extends.small {t t' : PatchTables} (h : Extends t t') (hs : Small t') : Small t :=
  ⟨h.exports.length_le.trans_lt hs.exports, h.locations.length_le.trans_lt hs.locations,
    h.names.length_le.trans_lt hs.names⟩

lemma slice_eq_of_extends {α : Type} {l l' : List α} (h : l <+: l') {start count : Nat}
    (hle : start + count ≤ l.length) : slice l' start count = slice l start count := by
  obtain ⟨r, rfl⟩ := h
  exact slice_append hle r

section Arrays

variable {inp : PatchInput}

structure ExportOk (inp : PatchInput) (t : PatchTables) (e : PatchableExport) (off : Nat) : Prop where
  offset : e.cacheOffsetOfImpl = off
  locations_le : e.patchLocationsStartIndex + e.patchLocationsCount ≤ t.patchLocations.length
  locations : slice t.patchLocations e.patchLocationsStartIndex e.patchLocationsCount =
    uniqueUses inp off
  name : ∃ before after, t.patchExportNames =
    before ++ ((inp.exportsToName off).bytes ++ 0 :: after) ∧ before.length = e.exportNameOffset

lemma ExportOk.mono {t t' : PatchTables} {e : PatchableExport} {off : Nat} (h : ExportOk inp t e off)
    (hext : Extends t t') : ExportOk inp t' e off := by
  refine ⟨h.offset, h.locations_le.trans hext.locations.length_le, ?_, ?_⟩
  · rw [slice_eq_of_extends hext.locations h.locations_le, h.locations]
  · obtain ⟨before, after, hname, hlen⟩ := h.name
    obtain ⟨r, hr⟩ := hext.names
    exact ⟨before, after ++ r, by rw [← hr, hname]; simp, hlen⟩

structure ImageOk (inp : PatchInput) (t : PatchTables) (patch : ImagePatches) (dylib : CachedDylib) :
    Prop where
  count : patch.patchExportsCount = (neededExports inp dylib).length
  le : patch.patchExportsStartIndex + patch.patchExportsCount ≤ t.patchExports.length
  exports : List.Forall₂ (ExportOk inp t)
    (slice t.patchExports patch.patchExportsStartIndex patch.patchExportsCount) (neededExports inp dylib)

lemma ImageOk.mono {t t' : PatchTables} {patch : ImagePatches} {dylib : CachedDylib}
    (h : ImageOk inp t patch dylib) (hext : Extends t t') : ImageOk inp t' patch dylib := by
  refine ⟨h.count, h.le.trans hext.exports.length_le, ?_⟩
  rw [slice_eq_of_extends hext.exports h.le]
  exact h.exports.imp fun _ _ he => he.mono hext

lemma extends_addExport (inp : PatchInput) (t : PatchTables) (off : Nat) : Extends t (addExport inp t off) :=
  ⟨List.prefix_append _ _, List.prefix_append _ _, List.prefix_append _ _⟩

lemma extends_foldl_addExport (inp : PatchInput) (offs : List Nat) (t : PatchTables) :
    Extends t (offs.foldl (addExport inp) t) :=
  List.foldlRecOn offs _ (Extends.refl t) fun t' h off _ => h.trans (extends_addExport inp t' off)

/-- The record that is pushed for an export holds once its arrays are written. -/
lemma exportOk_addExport {t : PatchTables} {off : Nat} (hoff : off < 2 ^ 32)
    (hsmall : Small (addExport inp t off)) :
    ExportOk inp (addExport inp t off)
      ⟨off % 2 ^ 32, t.patchLocations.length % 2 ^ 32, (uniqueUses inp off).length % 2 ^ 32,
        t.patchExportNames.length % 2 ^ 32⟩ off := by
  have hold := (extends_addExport inp t off).small hsmall
  have huses : (uniqueUses inp off).length < 2 ^ 32 := by
    have := hsmall.locations
    simp only [addExport, List.length_append] at this
    omega
  rw [Nat.mod_eq_of_lt hoff, Nat.mod_eq_of_lt hold.locations, Nat.mod_eq_of_lt hold.names,
    Nat.mod_eq_of_lt huses]
  refine ⟨rfl, ?_, ?_, ?_⟩
  · simp [addExport]
  · simp [addExport]
  · exact ⟨t.patchExportNames, [], by simp [addExport], rfl⟩

lemma foldl_addExport_spec {offs : List Nat} {t : PatchTables} (hoffs : ∀ off ∈ offs, off < 2 ^ 32)
    (hsmall : Small (offs.foldl (addExport inp) t)) :
    (offs.foldl (addExport inp) t).patchImages = t.patchImages ∧
    ∃ recs, (offs.foldl (addExport inp) t).patchExports = t.patchExports ++ recs ∧
      List.Forall₂ (ExportOk inp (offs.foldl (addExport inp) t)) recs offs := by
  induction offs generalizing t with
  | nil => exact ⟨rfl, [], by simp, .nil⟩
  | cons off offs ih =>
    obtain ⟨hoff, hoffs⟩ := List.forall_mem_cons.mp hoffs
    rw [List.foldl_cons] at hsmall ⊢
    obtain ⟨himages, recs, hrecs, hall⟩ := ih hoffs hsmall
    have hext := extends_foldl_addExport inp offs (addExport inp t off)
    refine ⟨himages, _ :: recs, ?_, .cons ((exportOk_addExport hoff (hext.small hsmall)).mono hext) hall⟩
    rw [hrecs]
    simp [addExport]

lemma extends_addImage (inp : PatchInput) (t : PatchTables) (dylib : CachedDylib) : Extends t (addImage inp t dylib) := by
  have h := extends_foldl_addExport inp (neededExports inp dylib) t
  exact ⟨h.exports, h.locations, h.names⟩

lemma extends_foldl_addImage (inp : PatchInput) (images : List CachedDylib) (t : PatchTables) :
    Extends t (images.foldl (addImage inp) t) :=
  List.foldlRecOn images _ (Extends.refl t) fun t' h dylib _ => h.trans (extends_addImage inp t' dylib)

lemma neededExports_lt (inp : PatchInput) (dylib : CachedDylib) :
    ∀ off ∈ neededExports inp dylib, off < 2 ^ 32 :=
  fun off hoff => inp.exports_lt dylib.mh off (List.mem_of_mem_filter hoff)

lemma addImage_spec {t : PatchTables} {dylib : CachedDylib} (hsmall : Small (addImage inp t dylib)) :
    ∃ patch, (addImage inp t dylib).patchImages = t.patchImages ++ [patch] ∧
      ImageOk inp (addImage inp t dylib) patch dylib := by
  have hfilled : Small ((neededExports inp dylib).foldl (addExport inp) t) :=
    ⟨hsmall.exports, hsmall.locations, hsmall.names⟩
  obtain ⟨himages, recs, hrecs, hall⟩ := foldl_addExport_spec (neededExports_lt inp dylib) hfilled
  have hlen : recs.length = (neededExports inp dylib).length := hall.length_eq
  have htotal : t.patchExports.length + recs.length < 2 ^ 32 := by
    have := hfilled.exports
    rw [hrecs, List.length_append] at this
    exact this
  refine ⟨⟨t.patchExports.length, recs.length⟩, ?_, hlen, ?_, ?_⟩
  · simp only [addImage, himages]
    rw [Nat.mod_eq_of_lt (by omega), Nat.mod_eq_of_lt (by omega), hlen]
  · simp [addImage, hrecs]
  · have hslice : slice (addImage inp t dylib).patchExports t.patchExports.length recs.length = recs := by
      simp [addImage, hrecs]
    rw [hslice]
    exact hall.imp fun _ _ he => ⟨he.offset, he.locations_le, he.locations, he.name⟩

/-- Every image record holds in the final arrays. -/
lemma foldl_addImage_spec {images : List CachedDylib} {t : PatchTables}
    (hsmall : Small (images.foldl (addImage inp) t)) :
    ∃ patches, (images.foldl (addImage inp) t).patchImages = t.patchImages ++ patches ∧
      List.Forall₂ (ImageOk inp (images.foldl (addImage inp) t)) patches images := by
  induction images generalizing t with
  | nil => exact ⟨[], by simp, .nil⟩
  | cons dylib images ih =>
    rw [List.foldl_cons] at hsmall ⊢
    have hext := extends_foldl_addImage inp images (addImage inp t dylib)
    obtain ⟨patch, hpatch, hok⟩ := addImage_spec (hext.small hsmall)
    obtain ⟨patches, hpatches, hall⟩ := ih hsmall
    refine ⟨patch :: patches, ?_, .cons (hok.mono hext) hall⟩
    rw [hpatches, hpatch]
    simp

end Arrays

/-! ### The readers on the final tables -/

section Read

variable {inp : PatchInput} {following : ImagePatches}

def FirstOk (t : PatchTables) : Prop :=
  match t.patchExports with
  | [] => t.patchLocations = []
  | e :: _ => e.patchLocationsStartIndex = 0

lemma FirstOk.addExport {t : PatchTables} (h : FirstOk t) (off : Nat) :
    FirstOk (addExport inp t off) := by
  unfold FirstOk at h ⊢
  cases hexp : t.patchExports with
  | nil =>
    rw [hexp] at h
    simp only [Cache.addExport, hexp, List.nil_append]
    rw [h]
    rfl
  | cons e rest =>
    rw [hexp] at h
    simpa only [Cache.addExport, hexp, List.cons_append] using h

lemma firstOk_foldl_addExport {offs : List Nat} {t : PatchTables} (h : FirstOk t) :
    FirstOk (offs.foldl (addExport inp) t) :=
  List.foldlRecOn offs (addExport inp) h fun _ h off _ => h.addExport off

lemma firstOk_filledTables (inp : PatchInput) : FirstOk (filledTables inp) :=
  List.foldlRecOn (motive := FirstOk) inp.images (addImage inp) rfl fun _ h _ _ => firstOk_foldl_addExport h

lemma length_patchImages (inp : PatchInput) :
    (filledTables inp).patchImages.length = inp.images.length := by
  have hexports (offs : List Nat) (t : PatchTables) :
      (offs.foldl (addExport inp) t).patchImages = t.patchImages :=
    List.foldlRecOn (motive := fun t' : PatchTables => t'.patchImages = t.patchImages) offs _ rfl fun _ h _ _ => h
  have hstep : ∀ (images : List CachedDylib) (t : PatchTables),
      (images.foldl (addImage inp) t).patchImages.length = t.patchImages.length + images.length := by
    intro images
    induction images with
    | nil => exact fun _ => rfl
    | cons dylib images ih =>
      intro t
      rw [List.foldl_cons, ih]
      simp only [addImage, hexports, List.length_append, List.length_cons, List.length_nil]
      omega
  simpa [filledTables] using hstep inp.images ⟨[], [], [], []⟩

lemma length_patchExports (inp : PatchInput) : (filledTables inp).patchExports.length =
    (inp.images.map fun dylib => (neededExports inp dylib).length).sum := by
  have hexports : ∀ (offs : List Nat) (t : PatchTables),
      (offs.foldl (addExport inp) t).patchExports.length = t.patchExports.length + offs.length := by
    intro offs
    induction offs with
    | nil => exact fun _ => rfl
    | cons off offs ih =>
      intro t
      rw [List.foldl_cons, ih]
      simp only [addExport, List.length_append, List.length_cons, List.length_nil]
      omega
  have hstep : ∀ (images : List CachedDylib) (t : PatchTables),
      (images.foldl (addImage inp) t).patchExports.length = t.patchExports.length +
        (images.map fun dylib => (neededExports inp dylib).length).sum := by
    intro images
    induction images with
    | nil => exact fun _ => rfl
    | cons dylib images ih =>
      intro t
      rw [List.foldl_cons, ih]
      simp only [addImage, hexports, List.map_cons, List.sum_cons]
      omega
  simpa [filledTables] using hstep inp.images ⟨[], [], [], []⟩

lemma patchTables_extends (inp : PatchInput) : Extends (filledTables inp) (patchTables inp) :=
  ⟨List.prefix_rfl, List.prefix_rfl, List.prefix_append _ _⟩

/-- A table that fits into the shared region has 32-bit indexes. -/
lemma small_of_addImageArray {otherSize freeSpace : Nat} {t : PatchTables}
    (hspace : freeSpace ≤ 2 ^ 32) (h : addImageArray inp otherSize freeSpace = some t) :
    t = patchTables inp ∧ Small t := by
  unfold addImageArray at h
  dsimp only at h
  split at h
  · exact absurd h (by simp)
  · rename_i hfit
    rw [← Option.some.inj h]
    unfold patchInfoSize at hfit
    exact ⟨rfl, by omega, by omega, by omega⟩

lemma imageOk_patchTables (hsmall : Small (patchTables inp)) {i : Nat} {dylib : CachedDylib}
    (hi : inp.images[i]? = some dylib) :
    ∃ patch, (patchTables inp).patchImages[i]? = some patch ∧
      ImageOk inp (patchTables inp) patch dylib := by
  have hext := patchTables_extends inp
  obtain ⟨patches, hpatches, hall⟩ := foldl_addImage_spec (hext.small hsmall)
  obtain ⟨hlt, rfl⟩ := List.getElem?_eq_some_iff.mp hi
  have hlen := hall.length_eq
  rw [List.nil_append] at hpatches
  have hget : (patchTables inp).patchImages[i]? = some (patches.get ⟨i, by omega⟩) := by
    change (filledTables inp).patchImages[i]? = _
    rw [filledTables, hpatches]
    exact List.getElem?_eq_getElem _
  exact ⟨_, hget, (hall.get (by omega) hlt).mono hext⟩

lemma imageExports_eq {t : PatchTables} (hsmall : Small t) {i : Nat} {patch : ImagePatches}
    {dylib : CachedDylib} (hget : t.patchImages[i]? = some patch) (hok : ImageOk inp t patch dylib) :
    imageExports ⟨t, following⟩ i =
      slice t.patchExports patch.patchExportsStartIndex patch.patchExportsCount := by
  have hlt := (List.getElem?_eq_some_iff.mp hget).1
  have hle := hok.le
  have hexports := hsmall.exports
  have harray : patchArrayAt ⟨t, following⟩ i = patch := by
    simp only [patchArrayAt, hget]
  unfold imageExports
  rw [if_neg (by dsimp only; omega), harray]
  dsimp only
  rw [Nat.mod_eq_of_lt (by omega), if_neg (by omega)]

lemma exportNameAt_eq {t : PatchTables} {e : PatchableExport} {off : Nat} (h : ExportOk inp t e off) :
    exportNameAt ⟨t, following⟩ e.exportNameOffset = (inp.exportsToName off).bytes := by
  obtain ⟨before, after, hname, hlen⟩ := h.name
  have hbytes : ∀ b ∈ (inp.exportsToName off).bytes, decide (b ≠ 0) = true :=
    fun b hb => decide_eq_true ((inp.exportsToName off).nul_free b hb)
  unfold exportNameAt
  rw [if_pos (by simp [hname, ← hlen])]
  simp only [hname, ← hlen, List.drop_left]
  rw [List.takeWhile_append_of_pos hbytes]
  simp

lemma usesOfExport_eq {t : PatchTables} (hsmall : Small t) {exports : List PatchableExport}
    {offs : List Nat} (h : List.Forall₂ (ExportOk inp t) exports offs) (hnodup : offs.Nodup) (off : Nat) :
    usesOfExport ⟨t, following⟩ off exports = if off ∈ offs then uniqueUses inp off else [] := by
  induction h with
  | nil => simp [usesOfExport]
  | @cons e x exports offs he _ ih =>
    obtain ⟨hx, hnodup⟩ := List.nodup_cons.mp hnodup
    have hle := he.locations_le
    have hlocations := hsmall.locations
    rw [usesOfExport, ih hnodup, he.offset]
    by_cases hxo : x = off
    · subst hxo
      rw [if_neg (by simp), Nat.mod_eq_of_lt (by omega), if_neg (by dsimp only; omega), if_neg hx,
        List.append_nil, if_pos (by simp)]
      exact he.locations
    · rw [if_pos hxo]
      simp [Ne.symm hxo]

lemma neededExports_nodup (inp : PatchInput) (dylib : CachedDylib) :
    (neededExports inp dylib).Nodup :=
  ((inp.exports_sorted dylib.mh).imp fun h => Nat.ne_of_lt h).sublist List.filter_sublist

lemma forEachPatchableUseOfExport_eq {t : PatchTables} (hsmall : Small t) {i : Nat}
    {patch : ImagePatches} {dylib : CachedDylib} (hget : t.patchImages[i]? = some patch)
    (hok : ImageOk inp t patch dylib) {off : Nat} (hoff : off ∈ neededExports inp dylib) :
    forEachPatchableUseOfExport ⟨t, following⟩ i off = uniqueUses inp off := by
  rw [forEachPatchableUseOfExport, imageExports_eq hsmall hget hok,
    usesOfExport_eq hsmall hok.exports (neededExports_nodup inp dylib), if_pos hoff]

/-! ### The recorded locations -/

lemma map_cacheOffset_recordedLocations (inp : PatchInput) (off : Nat) :
    (recordedLocations inp off).map (·.cacheOffset) = (inp.exportsToUses off).map (·.cacheOff) := by
  have hall := inp.uses_ok off
  unfold recordedLocations
  generalize inp.exportsToUses off = us at hall
  induction us with
  | nil => rfl
  | cons u us ih =>
    obtain ⟨hu, hus⟩ := List.forall_mem_cons.mp hall
    obtain ⟨p, hp⟩ := Option.isSome_iff_exists.mp hu
    rw [List.filterMap_cons_some hp, List.map_cons, List.map_cons, ih hus,
      (describes_of_makePatchLocation hp).1]

lemma map_cacheOffset_uniqueUses (inp : PatchInput) (off : Nat) :
    (uniqueUses inp off).map (·.cacheOffset) =
      ((inp.exportsToUses off).map (·.cacheOff)).destutter (· ≠ ·) := by
  have hmap : ∀ l : List PatchableLocation,
      (l.destutter fun a b => a.cacheOffset ≠ b.cacheOffset).map (·.cacheOffset) =
        (l.map (·.cacheOffset)).destutter (· ≠ ·) :=
    fun l => List.map_destutter (fun _ _ _ _ => Iff.rfl)
  rw [uniqueUses, hmap, map_cacheOffset_recordedLocations]

lemma exists_describes_of_mem_uniqueUses {off : Nat} {p : PatchableLocation}
    (h : p ∈ uniqueUses inp off) : ∃ u ∈ inp.exportsToUses off, Describes p u := by
  obtain ⟨u, hu, hp⟩ := List.mem_filterMap.mp ((List.destutter_sublist _ _).subset h)
  exact ⟨u, hu, describes_of_makePatchLocation hp⟩

/-! ### Out of range -/

/-- The record behind the last one counts no exports, unless there is no export at all and the
bytes behind the patch info say otherwise. -/
lemma patchArrayAt_length (inp : PatchInput) (following : ImagePatches) :
    (patchArrayAt ⟨patchTables inp, following⟩ inp.images.length).patchExportsCount =
      if (patchTables inp).patchExports = [] then following.patchExportsCount else 0 := by
  have hlen : (patchTables inp).patchImages.length = inp.images.length := length_patchImages inp
  have hnone : (patchTables inp).patchImages[inp.images.length]? = none := by
    rw [← hlen]
    exact List.getElem?_eq_none le_rfl
  have hfirst := firstOk_filledTables inp
  unfold patchArrayAt
  dsimp only
  rw [hnone]
  dsimp only
  change FirstOk (filledTables inp) at hfirst
  unfold FirstOk at hfirst
  have hexports : (patchTables inp).patchExports = (filledTables inp).patchExports := rfl
  rw [hexports]
  cases hcase : (filledTables inp).patchExports with
  | nil => simp
  | cons e rest =>
    rw [hcase] at hfirst
    simpa using hfirst

lemma patchExports_eq_nil_iff (inp : PatchInput) : (patchTables inp).patchExports = [] ↔
    ∀ dylib ∈ inp.images, neededExports inp dylib = [] := by
  have hlen : (patchTables inp).patchExports.length =
      (inp.images.map fun dylib => (neededExports inp dylib).length).sum := length_patchExports inp
  rw [← List.length_eq_zero_iff, hlen, List.sum_eq_zero_iff]
  simp

/-- Nothing is reported out of range exactly when the record behind the last one is empty. -/
lemma outside_iff (inp : PatchInput) (following : ImagePatches) :
    (∀ i, inp.images.length ≤ i → patchableExportCount ⟨patchTables inp, following⟩ i = 0 ∧
      forEachPatchableExport ⟨patchTables inp, following⟩ i = [] ∧
      ∀ off, forEachPatchableUseOfExport ⟨patchTables inp, following⟩ i off = []) ↔
    (∃ dylib ∈ inp.images, neededExports inp dylib ≠ []) ∨ following.patchExportsCount = 0 := by
  have hlen : (patchTables inp).patchImages.length = inp.images.length := length_patchImages inp
  have hlast := patchArrayAt_length inp following
  have hnil := patchExports_eq_nil_iff inp
  constructor
  · intro h
    by_contra hno
    push Not at hno
    have hcount := (h inp.images.length le_rfl).1
    rw [patchableExportCount, if_neg (by dsimp only; omega), hlast,
      if_pos (hnil.mpr hno.1)] at hcount
    exact hno.2 hcount
  · intro hsome i hi
    have hzero : i = inp.images.length →
        (patchArrayAt ⟨patchTables inp, following⟩ i).patchExportsCount = 0 := by
      rintro rfl
      rw [hlast]
      split
      · rename_i hempty
        rcases hsome with ⟨dylib, hdylib, hne⟩ | hzero
        · exact absurd (hnil.mp hempty dylib hdylib) hne
        · exact hzero
      · rfl
    have hexports : imageExports ⟨patchTables inp, following⟩ i = [] := by
      unfold imageExports
      split
      · rfl
      · rename_i hle
        dsimp only at hle ⊢
        rw [hzero (by omega)]
        split
        · rfl
        · simp [slice]
    refine ⟨?_, by rw [forEachPatchableExport, hexports, List.map_nil], fun off => ?_⟩
    · unfold patchableExportCount
      split
      · rfl
      · rename_i hle
        dsimp only at hle
        exact hzero (by omega)
    · rw [forEachPatchableUseOfExport, hexports, usesOfExport]

end Read

/-- For everything collected, in a patch info that fits into the shared region: the readers
report it back exactly when no location of a needed export is recorded again after another
one, and either some export is needed or the bytes behind the patch info count none. -/
theorem patchTables_roundTrip_iff (inp : PatchInput) (otherSize freeSpace : Nat)
    (hspace : freeSpace ≤ 2 ^ 32) (t : PatchTables) (following : ImagePatches)
    (h : addImageArray inp otherSize freeSpace = some t) :
    PatchesRoundTrip inp ⟨t, following⟩ ↔
      (∀ dylib ∈ inp.images, ∀ off ∈ neededExports inp dylib,
        NoReturn ((inp.exportsToUses off).map (·.cacheOff))) ∧
      ((∃ dylib ∈ inp.images, neededExports inp dylib ≠ []) ∨ following.patchExportsCount = 0) := by
  obtain ⟨rfl, hsmall⟩ := small_of_addImageArray hspace h
  constructor
  · intro hrt
    refine ⟨fun dylib hdylib off hoff => ?_, (outside_iff inp following).mp hrt.outside⟩
    obtain ⟨i, hi⟩ := List.mem_iff_getElem?.mp hdylib
    obtain ⟨patch, hget, hok⟩ := imageOk_patchTables hsmall hi
    have hnodup := (hrt.uses i dylib hi off hoff).1
    rw [forEachPatchableUseOfExport_eq hsmall hget hok hoff, map_cacheOffset_uniqueUses] at hnodup
    exact nodup_destutter_ne_iff.mp hnodup
  · rintro ⟨hreturn, houtside⟩
    refine ⟨?_, ?_, ?_, (outside_iff inp following).mpr houtside⟩
    · intro i dylib hi
      obtain ⟨patch, hget, hok⟩ := imageOk_patchTables hsmall hi
      have hlt := (List.getElem?_eq_some_iff.mp hget).1
      rw [patchableExportCount, if_neg (by dsimp only; omega)]
      simp only [patchArrayAt, hget]
      exact hok.count
    · intro i dylib hi
      obtain ⟨patch, hget, hok⟩ := imageOk_patchTables hsmall hi
      rw [forEachPatchableExport, imageExports_eq hsmall hget hok]
      have hexports := hok.exports
      generalize slice _ _ _ = exports at hexports
      generalize neededExports inp dylib = offs at hexports
      induction hexports with
      | nil => rfl
      | cons he _ ih => rw [List.map_cons, List.map_cons, ih, he.offset, exportNameAt_eq he]
    · intro i dylib hi off hoff
      obtain ⟨patch, hget, hok⟩ := imageOk_patchTables hsmall hi
      rw [forEachPatchableUseOfExport_eq hsmall hget hok hoff, map_cacheOffset_uniqueUses]
      refine ⟨nodup_destutter_ne_iff.mpr (hreturn dylib (List.mem_of_getElem? hi) off hoff),
        fun x => ?_, fun p hp => exists_describes_of_mem_uniqueUses hp⟩
      rw [mem_destutter_ne, List.mem_map]

def plainPointer : PointerMetaData := ⟨0, 0, false, 0, false, by decide, by decide, by decide⟩

def oneExport (locations : List Nat) (h : ∀ x ∈ locations, x < 2 ^ 32) : PatchInput where
  images := [⟨1, true⟩]
  dylibToItsExports _ := [0x4000]
  dylibWeakExports := []
  exportsToUses _ := locations.map fun x => ⟨x, plainPointer, 0⟩
  exportsToName _ := ⟨[95, 102], by simp⟩
  alwaysGeneratePatch := []
  exports_sorted _ := by simp
  exports_lt _ := by simp
  uses_ok _ := by
    intro u hu
    obtain ⟨x, hx, rfl⟩ := List.mem_map.mp hu
    have hlt := h x hx
    simp only [makePatchLocation, plainPointer]
    rw [Nat.mod_eq_of_lt hlt]
    simp

lemma addImageArray_oneExport (locations : List Nat) (h : ∀ x ∈ locations, x < 2 ^ 32)
    (hlen : locations.length ≤ 3) :
    addImageArray (oneExport locations h) 0x1000 0x100000 = some (patchTables (oneExport locations h)) := by
  have huses : (uniqueUses (oneExport locations h) 0x4000).length ≤ 3 := by
    have h1 := (List.destutter_sublist
      (fun a b : PatchableLocation => a.cacheOffset ≠ b.cacheOffset)
      (recordedLocations (oneExport locations h) 0x4000)).length_le
    have h2 := List.length_filterMap_le makePatchLocation ((oneExport locations h).exportsToUses 0x4000)
    simp only [oneExport, List.length_map] at h2
    exact h1.trans (h2.trans hlen)
  have hneeded : neededExports (oneExport locations h) ⟨1, true⟩ = [0x4000] := rfl
  have hsize : patchInfoSize (patchTables (oneExport locations h)) ≤ 0x1000 := by
    have htables : filledTables (oneExport locations h) =
        addImage (oneExport locations h) ⟨[], [], [], []⟩ ⟨1, true⟩ := rfl
    simp only [patchInfoSize, patchTables, htables, addImage, hneeded, List.foldl_cons, List.foldl_nil,
      addExport, List.nil_append, List.length_append, List.length_cons, List.length_nil,
      List.length_replicate]
    have hname : ((oneExport locations h).exportsToName 0x4000).bytes.length = 2 := rfl
    omega
  unfold addImageArray
  dsimp only
  rw [if_neg (by omega)]

theorem patchTables_roundTrip_iff_oneExport :
    PatchesRoundTrip (oneExport [0x8000, 0x8008] (by decide))
      ⟨patchTables (oneExport [0x8000, 0x8008] (by decide)), ⟨0, 0⟩⟩ ↔
    (∀ dylib ∈ (oneExport [0x8000, 0x8008] (by decide)).images,
      ∀ off ∈ neededExports (oneExport [0x8000, 0x8008] (by decide)) dylib,
        NoReturn (((oneExport [0x8000, 0x8008] (by decide)).exportsToUses off).map (·.cacheOff))) ∧
      ((∃ dylib ∈ (oneExport [0x8000, 0x8008] (by decide)).images,
        neededExports (oneExport [0x8000, 0x8008] (by decide)) dylib ≠ []) ∨
          (⟨0, 0⟩ : ImagePatches).patchExportsCount = 0) :=
  patchTables_roundTrip_iff _ 0x1000 0x100000 (by decide) _ ⟨0, 0⟩
    (addImageArray_oneExport _ (by decide) (by decide))

theorem repeatedLocation_reported_twice :
    addImageArray (oneExport [0x8000, 0x8008, 0x8000] (by decide)) 0x1000 0x100000 =
      some (patchTables (oneExport [0x8000, 0x8008, 0x8000] (by decide))) ∧
    (forEachPatchableUseOfExport
      ⟨patchTables (oneExport [0x8000, 0x8008, 0x8000] (by decide)), ⟨0, 0⟩⟩ 0 0x4000).map (·.cacheOffset) =
        [0x8000, 0x8008, 0x8000] ∧
    ¬PatchesRoundTrip (oneExport [0x8000, 0x8008, 0x8000] (by decide))
      ⟨patchTables (oneExport [0x8000, 0x8008, 0x8000] (by decide)), ⟨0, 0⟩⟩ := by
  have hreport : (forEachPatchableUseOfExport
      ⟨patchTables (oneExport [0x8000, 0x8008, 0x8000] (by decide)), ⟨0, 0⟩⟩ 0 0x4000).map (·.cacheOffset) =
        [0x8000, 0x8008, 0x8000] := by decide +kernel
  refine ⟨addImageArray_oneExport _ (by decide) (by decide), hreport, fun hrt => ?_⟩
  have hnodup := (hrt.uses 0 ⟨1, true⟩ rfl 0x4000 (by decide)).1
  rw [hreport] at hnodup
  exact absurd hnodup (by decide)

end Dyld.Cache
