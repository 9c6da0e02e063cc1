import Dyld.Closure.Segments
import Dyld.Lib.Marking

/-!
# Immutable memory

`AllImages` records the read-only segments of images that are never unloaded in a list of buckets,
and `immutableMemory` answers whether a range of memory lies in one of them. The comparison with the
end of a segment is strict, and the sum of address and length may wrap.
-/

namespace Dyld.ImmutableMemory

open Dyld.Lib Dyld.Closure

/-! ### Buckets -/

/-- An entry of `ImmutableRanges::array`. -/
structure ImmutableRange where
  start : Nat
  endAddr : Nat
  deriving DecidableEq, Repr

/-- `AllImages::ImmutableRanges`. A start of zero ends the entries in use. -/
structure ImmutableRanges where
  array : List ImmutableRange
  deriving DecidableEq, Repr

/-- The first bucket, which has room for two entries. -/
def firstRanges : ImmutableRanges where
  array := List.replicate 2 ⟨0, 0⟩

/-- A new bucket with its first entry. -/
def newRanges (range : ImmutableRange) : ImmutableRanges where
  array := range :: List.replicate 14 ⟨0, 0⟩

/-- The loop over the entries of one bucket. -/
def fillEmptySlot (range : ImmutableRange) : List ImmutableRange → Option (List ImmutableRange)
  | [] => none
  | r :: rs => if r.start = 0 then some (range :: rs) else (fillEmptySlot range rs).map (r :: ·)

def addImmutableRange (range : ImmutableRange) : List ImmutableRanges → List ImmutableRanges
  | [] => [newRanges range]
  | ranges :: next =>
    match fillEmptySlot range ranges.array with
    | some array => ⟨array⟩ :: next
    | none => ranges :: addImmutableRange range next

def ImmutableRanges.entries (ranges : ImmutableRanges) : List ImmutableRange :=
  ranges.array.takeWhile (fun r => r.start ≠ 0)

/-- The entries that a reader walks over. -/
def entries (buckets : List ImmutableRanges) : List ImmutableRange :=
  buckets.flatMap ImmutableRanges.entries

/-- Nothing is in use behind an empty entry. -/
def Packed (array : List ImmutableRange) : Prop :=
  ∀ r ∈ array.dropWhile (fun r => r.start ≠ 0), r.start = 0

section Buckets

variable {range : ImmutableRange} {array array' : List ImmutableRange}

lemma packed_replicate (n : Nat) : Packed (List.replicate n ⟨0, 0⟩) := by
  intro r hr
  have hmem := (List.dropWhile_sublist _).subset hr
  rw [(List.mem_replicate.mp hmem).2]

lemma packed_cons (hrange : range.start ≠ 0) : Packed (range :: array) ↔ Packed array := by
  rw [Packed, Packed, List.dropWhile_cons_of_pos (by simpa using hrange)]

lemma fillEmptySlot_some (hrange : range.start ≠ 0) (hpacked : Packed array)
    (h : fillEmptySlot range array = some array') :
    array'.takeWhile (fun r => r.start ≠ 0) = array.takeWhile (fun r => r.start ≠ 0) ++ [range] ∧
      Packed array' := by
  induction array generalizing array' with
  | nil => exact absurd h (by simp [fillEmptySlot])
  | cons r rs ih =>
    rw [fillEmptySlot] at h
    by_cases hr : r.start = 0
    · rw [if_pos hr, Option.some.injEq] at h
      subst h
      have hall : ∀ x ∈ r :: rs, x.start = 0 := by
        rw [Packed, List.dropWhile_cons_of_neg (by simp [hr])] at hpacked
        exact hpacked
      have hrest : rs.takeWhile (fun r => r.start ≠ 0) = [] := by
        cases rs with
        | nil => rfl
        | cons x xs => exact List.takeWhile_cons_of_neg (by simp [hall x (by simp)])
      rw [List.takeWhile_cons_of_pos (by simpa using hrange), hrest,
        List.takeWhile_cons_of_neg (by simp [hr]), packed_cons hrange]
      refine ⟨rfl, fun x hx => hall x (List.mem_cons_of_mem r ?_)⟩
      exact (List.dropWhile_sublist _).subset hx
    · rw [if_neg hr] at h
      obtain ⟨rs', hrs', rfl⟩ := Option.map_eq_some_iff.mp h
      obtain ⟨htake, hpack⟩ := ih ((packed_cons hr).mp hpacked) hrs'
      rw [List.takeWhile_cons_of_pos (by simpa using hr),
        List.takeWhile_cons_of_pos (by simpa using hr), htake, packed_cons hr]
      exact ⟨rfl, hpack⟩

lemma entries_addImmutableRange (hrange : range.start ≠ 0) {buckets : List ImmutableRanges}
    (hpacked : ∀ b ∈ buckets, Packed b.array) :
    (∀ r, r ∈ entries (addImmutableRange range buckets) ↔ r ∈ entries buckets ∨ r = range) ∧
      ∀ b ∈ addImmutableRange range buckets, Packed b.array := by
  induction buckets with
  | nil =>
    have hnew : (newRanges range).entries = [range] := by
      rw [ImmutableRanges.entries, newRanges, List.takeWhile_cons_of_pos (by simpa using hrange)]
      rfl
    refine ⟨fun r => ?_, fun b hb => ?_⟩
    · simp [addImmutableRange, entries, hnew]
    · rw [addImmutableRange, List.mem_singleton] at hb
      rw [hb, newRanges, packed_cons hrange]
      exact packed_replicate 14
  | cons b bs ih =>
    obtain ⟨hb, hbs⟩ := List.forall_mem_cons.mp hpacked
    rw [addImmutableRange]
    cases hfill : fillEmptySlot range b.array with
    | some array =>
      obtain ⟨htake, hpack⟩ := fillEmptySlot_some hrange hb hfill
      refine ⟨fun r => ?_, List.forall_mem_cons.mpr ⟨hpack, hbs⟩⟩
      have hentries : ImmutableRanges.entries ⟨array⟩ = b.entries ++ [range] := htake
      simp only [entries, List.flatMap_cons, hentries, List.mem_append, List.mem_singleton]
      tauto
    | none =>
      obtain ⟨hmem, hpack⟩ := ih hbs
      refine ⟨fun r => ?_, List.forall_mem_cons.mpr ⟨hb, hpack⟩⟩
      have hrest := hmem r
      simp only [entries, List.flatMap_cons, List.mem_append] at hrest ⊢
      tauto

lemma entries_foldl {ranges : List ImmutableRange} (hranges : ∀ r ∈ ranges, r.start ≠ 0)
    {buckets : List ImmutableRanges} (hpacked : ∀ b ∈ buckets, Packed b.array) :
    (∀ r, r ∈ entries (ranges.foldl (fun b r => addImmutableRange r b) buckets) ↔
        r ∈ entries buckets ∨ r ∈ ranges) ∧
      ∀ b ∈ ranges.foldl (fun b r => addImmutableRange r b) buckets, Packed b.array := by
  induction ranges generalizing buckets with
  | nil => simpa using hpacked
  | cons range ranges ih =>
    obtain ⟨hrange, hrest⟩ := List.forall_mem_cons.mp hranges
    obtain ⟨hmem, hpack⟩ := entries_addImmutableRange hrange hpacked
    obtain ⟨hmem', hpack'⟩ := ih hrest hpack
    refine ⟨fun r => ?_, hpack'⟩
    rw [List.foldl_cons, hmem' r, hmem r, List.mem_cons]
    tauto

end Buckets

/-! ### Images -/

/-- What the ranges and bounds depend on of a `LoadedImage` and its closure `Image`. -/
structure LoadedImage where
  loadedAddress : Nat
  inDyldCache : Bool
  neverUnload : Bool
  has16KBpages : Bool
  diskSegments : List DiskSegment
  mappingInfo : MappingInfo

namespace LoadedImage

variable (w : Nat) (li : LoadedImage)

def vmSizeToMap : Nat := Closure.vmSizeToMap li.has16KBpages li.mappingInfo

/-- The segments whose permissions have `VM_PROT_READ` and not `VM_PROT_WRITE`. -/
def readOnlySegments : List DiskSegmentReport :=
  (forEachDiskSegment li.has16KBpages li.diskSegments).filter (fun seg => seg.permissions % 4 = 1)

def segmentStart (seg : DiskSegmentReport) : Int := li.loadedAddress + seg.vmOffset.toInt

def segmentEnd (seg : DiskSegmentReport) : Int := li.segmentStart seg + seg.vmSize

/-- The arguments of `addImmutableRange`, in the width of `uintptr_t`. -/
def immutableRange (seg : DiskSegmentReport) : ImmutableRange where
  start := (li.loadedAddress + seg.vmOffset.toNat) % 2 ^ w
  endAddr := (li.loadedAddress + seg.vmOffset.toNat + seg.vmSize) % 2 ^ w

/-- An image outside the cache that stays. -/
def Stays : Prop := li.inDyldCache = false ∧ li.neverUnload = true

instance : Decidable li.Stays := inferInstanceAs (Decidable (_ ∧ _))

structure Mapped : Prop where
  pos : 0 < li.loadedAddress
  end_lt : li.loadedAddress + li.vmSizeToMap < 2 ^ w
  segment : ∀ seg ∈ li.readOnlySegments, (li.loadedAddress : Int) ≤ li.segmentStart seg ∧
    li.segmentEnd seg ≤ li.loadedAddress + li.vmSizeToMap

variable {w li}

lemma immutableRange_eq (hw : w ≤ 64) (h : li.Mapped w) {seg : DiskSegmentReport}
    (hseg : seg ∈ li.readOnlySegments) :
    ((li.immutableRange w seg).start : Int) = li.segmentStart seg ∧
      ((li.immutableRange w seg).endAddr : Int) = li.segmentEnd seg ∧
      (li.immutableRange w seg).start ≠ 0 := by
  obtain ⟨hstart, hend⟩ := h.segment seg hseg
  have hpos := h.pos
  have hlt := h.end_lt
  have hdvd : ((2 ^ w : Nat) : Int) ∣ ((2 ^ 64 : Nat) : Int) :=
    Int.natCast_dvd_natCast.mpr (pow_dvd_pow 2 hw)
  have hsigned : seg.vmOffset.toInt ≡ seg.vmOffset.toNat [ZMOD ((2 ^ w : Nat) : Int)] := by
    have hfull : seg.vmOffset.toInt ≡ seg.vmOffset.toNat [ZMOD ((2 ^ 64 : Nat) : Int)] := by
      rw [BitVec.toInt_eq_toNat_bmod]
      exact Int.bmod_emod
    exact hfull.of_dvd hdvd
  have hsize : (0 : Int) ≤ seg.vmSize := Int.natCast_nonneg _
  rw [segmentEnd] at hend
  have hlow : (((li.loadedAddress + seg.vmOffset.toNat) % 2 ^ w : Nat) : Int) = li.segmentStart seg := by
    rw [Int.natCast_mod, Int.natCast_add, ← (hsigned.add_left _).eq]
    exact Int.emod_eq_of_lt (by rw [segmentStart] at hstart; omega) (by rw [segmentStart] at hend; omega)
  have hhigh : (((li.loadedAddress + seg.vmOffset.toNat + seg.vmSize) % 2 ^ w : Nat) : Int) =
      li.segmentEnd seg := by
    rw [Int.natCast_mod, Int.natCast_add, Int.natCast_add,
      ← ((hsigned.add_left _).add_right _).eq]
    exact Int.emod_eq_of_lt (by rw [segmentStart] at hstart; omega) (by rw [segmentStart] at hend; omega)
  refine ⟨hlow, hhigh, fun hzero => ?_⟩
  rw [← hlow] at hstart
  change (li.loadedAddress + seg.vmOffset.toNat) % 2 ^ w = 0 at hzero
  rw [hzero] at hstart
  omega

end LoadedImage

/-! ### The shared cache -/

structure CacheMapping where
  address : Nat
  size : Nat
  initProt : Nat
  deriving DecidableEq, Repr

/-- A `DyldSharedCache` at `loadAddress`. The mappings lie between the first and the last one, the
cache is not slid down, and it fits the address space. -/
structure DyldSharedCache (w : Nat) where
  loadAddress : Nat
  first : CacheMapping
  last : CacheMapping
  mappings : List CacheMapping
  first_eq : mappings.head? = some first
  last_eq : mappings.getLast? = some last
  within : ∀ m ∈ mappings, m.address + m.size ≤ last.address + last.size
  slid : first.address ≤ loadAddress
  fits : loadAddress + (last.address + last.size - first.address) < 2 ^ w

namespace DyldSharedCache

variable {w : Nat} (cache : DyldSharedCache w)

def endAddress : Nat := cache.loadAddress + (cache.last.address + cache.last.size - cache.first.address)

/-- `DyldSharedCache::inCache`; the result is `readOnly` if the range is in the cache. -/
def inCache (addr length : Nat) : Option Bool :=
  if addr < cache.loadAddress then none
  else
    let slide := cache.loadAddress - cache.first.address
    let unslidStart := (addr + 2 ^ w - slide) % 2 ^ w
    if unslidStart > cache.last.address + cache.last.size then none
    else
      let unslidEnd := (unslidStart + length) % 2 ^ w
      (cache.mappings.find? (fun m => unslidStart ≥ m.address ∧ unslidEnd < m.address + m.size)).map
        (fun m => m.initProt / 2 % 2 = 0)

def Outside (addr length : Nat) : Prop :=
  addr < cache.loadAddress ∧ addr + length ≤ cache.loadAddress ∨ cache.endAddress ≤ addr

/-- A range outside the cache is not found in it, unless its end wraps. -/
lemma inCache_eq_none {addr length : Nat} (h : cache.Outside addr length)
    (hend : addr + length < 2 ^ w) : cache.inCache addr length = none := by
  have hslid := cache.slid
  have hfits := cache.fits
  have hfirst := cache.within cache.first (List.mem_of_head? cache.first_eq)
  rw [inCache]
  split
  · rfl
  · rename_i haddr
    have hstart : (addr + 2 ^ w - (cache.loadAddress - cache.first.address)) % 2 ^ w =
        addr - (cache.loadAddress - cache.first.address) := by
      have hsplit : addr + 2 ^ w - (cache.loadAddress - cache.first.address) =
          addr - (cache.loadAddress - cache.first.address) + 2 ^ w := by omega
      rw [hsplit, Nat.add_mod_right, Nat.mod_eq_of_lt (by omega)]
    dsimp only
    rw [hstart]
    split
    · rfl
    · have hlen : (addr - (cache.loadAddress - cache.first.address) + length) % 2 ^ w =
          addr - (cache.loadAddress - cache.first.address) + length := Nat.mod_eq_of_lt (by omega)
      rw [hlen, Option.map_eq_none_iff, List.find?_eq_none]
      intro m hm hfound
      have hwithin := cache.within m hm
      simp only [decide_eq_true_eq] at hfound
      cases h with
      | inl hbefore => omega
      | inr hbehind =>
        rw [endAddress] at hbehind
        omega

end DyldSharedCache

/-! ### The state -/

/-- The members of `AllImages` that matter here. -/
structure AllImages where
  loadedImages : List LoadedImage
  lowestNonCached : Nat
  highestNonCached : Nat
  immutableRanges : List ImmutableRanges

namespace AllImages

variable (w : Nat)

def init : AllImages where
  loadedImages := []
  lowestNonCached := 0
  highestNonCached := 2 ^ w - 1
  immutableRanges := [firstRanges]

/-- A turn of the loop of `recomputeBounds`. -/
def widen (b : Nat × Nat) (li : LoadedImage) : Nat × Nat :=
  if li.inDyldCache then b
  else (min b.1 li.loadedAddress, max b.2 ((li.loadedAddress + li.vmSizeToMap) % 2 ^ w))

/-- The bounds that `recomputeBounds` finds. -/
def bounds (loadedImages : List LoadedImage) : Nat × Nat :=
  loadedImages.foldl (widen w) (2 ^ w - 1, 0)

def recomputeBounds (s : AllImages) : AllImages :=
  { s with
    lowestNonCached := (bounds w s.loadedImages).1
    highestNonCached := (bounds w s.loadedImages).2 }

def addImages (s : AllImages) (newImages : List LoadedImage) : AllImages :=
  { s with loadedImages := s.loadedImages ++ newImages }

def immutableRangesOf (li : LoadedImage) : List ImmutableRange :=
  if li.Stays then li.readOnlySegments.map (li.immutableRange w) else []

/-- `AllImages::runImageNotifiers`, as far as it changes the state. -/
def runImageNotifiers (s : AllImages) (newImages : List LoadedImage) : AllImages :=
  let s := if newImages.any (fun li => !li.inDyldCache) then recomputeBounds w s else s
  { s with
    immutableRanges := (newImages.flatMap (immutableRangesOf w)).foldl
      (fun b r => addImmutableRange r b) s.immutableRanges }

/-- `AllImages::removeImages`, as far as it changes the state. -/
def removeImages (s : AllImages) (unloadImages : List LoadedImage) : AllImages :=
  recomputeBounds w { s with
    loadedImages := eraseKeys (·.loadedAddress) s.loadedImages (unloadImages.map (·.loadedAddress)) }

def immutableMemory (cache : Option (DyldSharedCache w)) (s : AllImages) (addr length : Nat) : Bool :=
  match cache.bind (fun cache => cache.inCache addr length) with
  | some readOnly => readOnly
  | none =>
    if addr < s.lowestNonCached ∨ (addr + length) % 2 ^ w > s.highestNonCached then false
    else
      s.immutableRanges.any (fun ranges => ranges.entries.any (fun r =>
        r.start ≤ addr ∧ r.endAddr > (addr + length) % 2 ^ w))

/-- A load or an unload. Images are mapped at different addresses, and only loaded images that may be
unloaded are. -/
inductive Step : AllImages → AllImages → Prop
  | load (s : AllImages) (newImages : List LoadedImage) (hne : newImages ≠ [])
      (hmapped : ∀ li ∈ newImages, li.inDyldCache = false → li.Mapped w)
      (hnodup : ((s.loadedImages ++ newImages).map (·.loadedAddress)).Nodup) :
      Step s (runImageNotifiers w (addImages s newImages) newImages)
  | unload (s : AllImages) (unloadImages : List LoadedImage)
      (h : ∀ li ∈ unloadImages, li ∈ s.loadedImages ∧ li.neverUnload = false) :
      Step s (removeImages w s unloadImages)

def Reachable (s : AllImages) : Prop := Relation.ReflTransGen (Step w) (init w) s

def IsImmutable (s : AllImages) (li : LoadedImage) (seg : DiskSegmentReport) : Prop :=
  li ∈ s.loadedImages ∧ li.Stays ∧ seg ∈ li.readOnlySegments

/-- The range lies in one such segment. -/
def Contained (s : AllImages) (addr length : Nat) : Prop :=
  ∃ li seg, IsImmutable s li seg ∧ li.segmentStart seg ≤ addr ∧ (addr + length : Int) ≤ li.segmentEnd seg

/-! ### Invariant -/

/-- What holds of every reachable state. -/
structure Inv (s : AllImages) : Prop where
  packed : ∀ b ∈ s.immutableRanges, Packed b.array
  entry : ∀ r, r ∈ entries s.immutableRanges ↔
    ∃ li seg, IsImmutable s li seg ∧ r = li.immutableRange w seg
  mapped : ∀ li ∈ s.loadedImages, li.inDyldCache = false → li.Mapped w
  bounds : ∀ li ∈ s.loadedImages, li.inDyldCache = false →
    s.lowestNonCached ≤ li.loadedAddress ∧ li.loadedAddress + li.vmSizeToMap ≤ s.highestNonCached
  nodup : (s.loadedImages.map (·.loadedAddress)).Nodup

variable {w : Nat}

lemma inv_init : Inv w (init w) where
  packed := by
    intro b hb
    rw [init, List.mem_singleton] at hb
    rw [hb]
    exact packed_replicate 2
  entry := by
    intro r
    simp [init, entries, ImmutableRanges.entries, firstRanges, IsImmutable]
  mapped := by simp [init]
  bounds := by simp [init]
  nodup := by simp [init]

lemma widen_cached (b : Nat × Nat) {li : LoadedImage} (h : li.inDyldCache = true) :
    widen w b li = b := if_pos h

lemma widen_mapped (b : Nat × Nat) {li : LoadedImage} (h : li.inDyldCache = false)
    (hmapped : li.Mapped w) :
    widen w b li = (min b.1 li.loadedAddress, max b.2 (li.loadedAddress + li.vmSizeToMap)) := by
  rw [widen, if_neg (by simp [h]), Nat.mod_eq_of_lt hmapped.end_lt]

lemma foldl_widen {loadedImages : List LoadedImage}
    (hmapped : ∀ li ∈ loadedImages, li.inDyldCache = false → li.Mapped w) (b : Nat × Nat) :
    (loadedImages.foldl (widen w) b).1 ≤ b.1 ∧ b.2 ≤ (loadedImages.foldl (widen w) b).2 ∧
      ∀ li ∈ loadedImages, li.inDyldCache = false →
        (loadedImages.foldl (widen w) b).1 ≤ li.loadedAddress ∧
          li.loadedAddress + li.vmSizeToMap ≤ (loadedImages.foldl (widen w) b).2 := by
  induction loadedImages generalizing b with
  | nil => simp
  | cons a l ih =>
    obtain ⟨ha, hl⟩ := List.forall_mem_cons.mp hmapped
    obtain ⟨hlow, hhigh, hmem⟩ := ih hl (widen w b a)
    rw [List.foldl_cons]
    cases hcached : a.inDyldCache with
    | true =>
      rw [widen_cached b hcached] at hlow hhigh hmem ⊢
      refine ⟨hlow, hhigh, List.forall_mem_cons.mpr ⟨fun hfalse => ?_, hmem⟩⟩
      exact absurd (hcached.symm.trans hfalse) (by simp)
    | false =>
      rw [widen_mapped b hcached (ha hcached)] at hlow hhigh hmem ⊢
      exact ⟨hlow.trans (min_le_left _ _), (le_max_left _ _).trans hhigh,
        List.forall_mem_cons.mpr ⟨fun _ => ⟨hlow.trans (min_le_right _ _),
          (le_max_right _ _).trans hhigh⟩, hmem⟩⟩

lemma bounds_spec {loadedImages : List LoadedImage}
    (hmapped : ∀ li ∈ loadedImages, li.inDyldCache = false → li.Mapped w) :
    ∀ li ∈ loadedImages, li.inDyldCache = false →
      (AllImages.bounds w loadedImages).1 ≤ li.loadedAddress ∧
        li.loadedAddress + li.vmSizeToMap ≤ (AllImages.bounds w loadedImages).2 :=
  (foldl_widen hmapped _).2.2

lemma isImmutable_removeImages {s : AllImages} (hs : Inv w s) {unloadImages : List LoadedImage}
    (h : ∀ li ∈ unloadImages, li ∈ s.loadedImages ∧ li.neverUnload = false) (li : LoadedImage)
    (seg : DiskSegmentReport) :
    IsImmutable (removeImages w s unloadImages) li seg ↔ IsImmutable s li seg := by
  refine and_congr_left (fun hstays => ⟨fun hli => (eraseKeys_sublist _ _).subset hli, fun hli => ?_⟩)
  apply (mem_eraseKeys_iff hs.nodup).mpr ⟨hli, List.forall_mem_map.mpr _⟩
  intro uli huli hsame
  obtain rfl := List.inj_on_of_nodup_map hs.nodup (h uli huli).1 hli hsame
  exact absurd ((h uli huli).2.symm.trans hstays.1.2) (by simp)

lemma Inv.removeImages {s : AllImages} (hs : Inv w s) {unloadImages : List LoadedImage}
    (h : ∀ li ∈ unloadImages, li ∈ s.loadedImages ∧ li.neverUnload = false) :
    Inv w (removeImages w s unloadImages) where
  packed := hs.packed
  entry := by
    intro r
    simp only [isImmutable_removeImages hs h]
    exact hs.entry r
  mapped := fun li hli => hs.mapped li ((eraseKeys_sublist _ _).subset hli)
  bounds := bounds_spec (fun li hli => hs.mapped li ((eraseKeys_sublist _ _).subset hli))
  nodup := hs.nodup.sublist ((eraseKeys_sublist _ _).map _)

lemma mem_immutableRangesOf {li : LoadedImage} {r : ImmutableRange} :
    r ∈ immutableRangesOf w li ↔
      li.Stays ∧ ∃ seg ∈ li.readOnlySegments, r = li.immutableRange w seg := by
  rw [immutableRangesOf]
  split
  · rename_i hstays
    simp [hstays, eq_comm]
  · rename_i hstays
    simp [hstays]

lemma runImageNotifiers_loadedImages (s : AllImages) (newImages : List LoadedImage) :
    (runImageNotifiers w s newImages).loadedImages = s.loadedImages := by
  rw [runImageNotifiers]
  split <;> rfl

lemma runImageNotifiers_immutableRanges (s : AllImages) (newImages : List LoadedImage) :
    (runImageNotifiers w s newImages).immutableRanges =
      (newImages.flatMap (immutableRangesOf w)).foldl (fun b r => addImmutableRange r b)
        s.immutableRanges := by
  rw [runImageNotifiers]
  split <;> rfl

lemma Inv.runImageNotifiers (hw : w ≤ 64) {s : AllImages} (hs : Inv w s)
    {newImages : List LoadedImage}
    (hmapped : ∀ li ∈ newImages, li.inDyldCache = false → li.Mapped w)
    (hnodup : ((s.loadedImages ++ newImages).map (·.loadedAddress)).Nodup) :
    Inv w (runImageNotifiers w (addImages s newImages) newImages) := by
  have hloaded : ∀ li ∈ s.loadedImages ++ newImages, li.inDyldCache = false → li.Mapped w := by
    intro li hli
    cases List.mem_append.mp hli with
    | inl hli => exact hs.mapped li hli
    | inr hli => exact hmapped li hli
  have hstarts : ∀ r ∈ newImages.flatMap (immutableRangesOf w), r.start ≠ 0 := by
    intro r hr
    obtain ⟨li, hli, hr⟩ := List.mem_flatMap.mp hr
    obtain ⟨hstays, seg, hseg, rfl⟩ := mem_immutableRangesOf.mp hr
    exact (LoadedImage.immutableRange_eq hw (hmapped li hli hstays.1) hseg).2.2
  obtain ⟨hentries, hpacked⟩ := entries_foldl hstarts hs.packed
  refine ⟨?_, ?_, ?_, ?_, ?_⟩
  · rw [runImageNotifiers_immutableRanges]
    exact hpacked
  · intro r
    have hadd : (addImages s newImages).immutableRanges = s.immutableRanges := rfl
    rw [runImageNotifiers_immutableRanges, hadd, hentries r, hs.entry r]
    simp only [IsImmutable, runImageNotifiers_loadedImages, addImages, List.mem_append]
    constructor
    · rintro (⟨li, seg, ⟨hli, hstays, hseg⟩, hr⟩ | hr)
      · exact ⟨li, seg, ⟨Or.inl hli, hstays, hseg⟩, hr⟩
      · obtain ⟨li, hli, hr⟩ := List.mem_flatMap.mp hr
        obtain ⟨hstays, seg, hseg, hr⟩ := mem_immutableRangesOf.mp hr
        exact ⟨li, seg, ⟨Or.inr hli, hstays, hseg⟩, hr⟩
    · rintro ⟨li, seg, ⟨hli, hstays, hseg⟩, hr⟩
      cases hli with
      | inl hli => exact Or.inl ⟨li, seg, ⟨hli, hstays, hseg⟩, hr⟩
      | inr hli =>
        exact Or.inr (List.mem_flatMap.mpr
          ⟨li, hli, mem_immutableRangesOf.mpr ⟨hstays, seg, hseg, hr⟩⟩)
  · rw [runImageNotifiers_loadedImages]
    exact hloaded
  · rw [runImageNotifiers_loadedImages, AllImages.runImageNotifiers]
    split
    · exact bounds_spec hloaded
    · rename_i hcached
      intro li hli hout
      cases List.mem_append.mp hli with
      | inl hli => exact hs.bounds li hli hout
      | inr hli => exact absurd (List.any_eq_true.mpr ⟨li, hli, by simp [hout]⟩) hcached
  · rw [runImageNotifiers_loadedImages]
    exact hnodup

theorem inv_of_reachable (hw : w ≤ 64) {s : AllImages} (h : Reachable w s) : Inv w s := by
  induction h with
  | refl => exact inv_init
  | tail _ hstep ih =>
    cases hstep with
    | load newImages hne hmapped hnodup => exact ih.runImageNotifiers hw hmapped hnodup
    | unload unloadImages h => exact ih.removeImages h

/-! ### Queries -/

section Query

variable (cache : Option (DyldSharedCache w)) {s : AllImages} (addr length : Nat)

/-- Outside the cache the answer is yes when a segment starts at or below the address and ends
behind the sum. The bounds exclude nothing. -/
lemma immutableMemory_iff (hw : w ≤ 64) (hs : Inv w s)
    (hcache : cache.bind (fun cache => cache.inCache addr length) = none) :
    immutableMemory w cache s addr length = true ↔
      ∃ li seg, IsImmutable s li seg ∧ li.segmentStart seg ≤ addr ∧
        (((addr + length) % 2 ^ w : Nat) : Int) < li.segmentEnd seg := by
  have hentry : (s.immutableRanges.any (fun ranges => ranges.entries.any (fun r =>
      r.start ≤ addr ∧ r.endAddr > (addr + length) % 2 ^ w))) = true ↔
        ∃ r ∈ entries s.immutableRanges, r.start ≤ addr ∧ r.endAddr > (addr + length) % 2 ^ w := by
    simp only [List.any_eq_true, decide_eq_true_eq, entries, List.mem_flatMap]
    constructor
    · rintro ⟨b, hb, r, hr, h⟩
      exact ⟨r, ⟨b, hb, hr⟩, h⟩
    · rintro ⟨r, ⟨b, hb, hr⟩, h⟩
      exact ⟨b, hb, r, hr, h⟩
  rw [immutableMemory, hcache]
  dsimp only
  constructor
  · intro h
    split at h
    · exact absurd h (by simp)
    · obtain ⟨r, hr, hstart, hend⟩ := hentry.mp h
      obtain ⟨li, seg, himm, rfl⟩ := (hs.entry r).mp hr
      obtain ⟨hlow, hhigh, -⟩ := LoadedImage.immutableRange_eq hw
        (hs.mapped li himm.1 himm.2.1.1) himm.2.2
      exact ⟨li, seg, himm, by omega, by omega⟩
  · rintro ⟨li, seg, himm, hstart, hend⟩
    have hmapped := hs.mapped li himm.1 himm.2.1.1
    obtain ⟨hlow, hhigh, -⟩ := LoadedImage.immutableRange_eq hw hmapped himm.2.2
    obtain ⟨hbase, htop⟩ := hmapped.segment seg himm.2.2
    obtain ⟨hlowest, hhighest⟩ := hs.bounds li himm.1 himm.2.1.1
    rw [if_neg (by omega)]
    exact hentry.mpr ⟨_, (hs.entry _).mpr ⟨li, seg, himm, rfl⟩, by omega, by omega⟩

/-- When the answer is right. A range that ends where its segment ends needs another segment that goes
on; a range whose end wraps must not look as if it were in the cache or in a segment. -/
def AnswersRight (s : AllImages) (addr length : Nat) : Prop :=
  if addr + length < 2 ^ w then
    ∀ li seg, IsImmutable s li seg → li.segmentStart seg ≤ addr →
      li.segmentEnd seg = (addr + length : Int) →
        ∃ li' seg', IsImmutable s li' seg' ∧ li'.segmentStart seg' ≤ addr ∧
          (addr + length : Int) < li'.segmentEnd seg'
  else
    cache.bind (fun cache => cache.inCache addr length) ≠ some true ∧
      (cache.bind (fun cache => cache.inCache addr length) = none →
        ∀ li seg, IsImmutable s li seg → li.segmentStart seg ≤ addr →
          li.segmentEnd seg ≤ ((addr + length - 2 ^ w : Nat) : Int))

/-- In every reachable state, `immutableMemory` answers for a range outside the cache whether it is in
an immutable segment exactly when the range does not reach the end of its segment and does not wrap
into one. -/
theorem immutableMemory_exact_iff (hw : w ≤ 64) (hreach : Reachable w s) (haddr : addr < 2 ^ w)
    (hlength : length < 2 ^ w) (houtside : ∀ c, cache = some c → c.Outside addr length) :
    (immutableMemory w cache s addr length = true ↔ Contained s addr length) ↔
      AnswersRight cache s addr length := by
  have hs := inv_of_reachable hw hreach
  rw [AnswersRight]
  split
  · rename_i hsum
    have hnone : cache.bind (fun cache => cache.inCache addr length) = none := by
      cases hc : cache with
      | none => rfl
      | some c => exact c.inCache_eq_none (houtside c hc) hsum
    rw [immutableMemory_iff cache addr length hw hs hnone, Nat.mod_eq_of_lt hsum, Contained]
    push_cast
    constructor
    · intro h li seg himm hstart hend
      exact h.mpr ⟨li, seg, himm, hstart, hend.ge⟩
    · intro h
      constructor
      · rintro ⟨li, seg, himm, hstart, hend⟩
        exact ⟨li, seg, himm, hstart, hend.le⟩
      · rintro ⟨li, seg, himm, hstart, hend⟩
        cases hend.lt_or_eq with
        | inl hlt => exact ⟨li, seg, himm, hstart, hlt⟩
        | inr heq => exact h li seg himm hstart heq.symm
  · rename_i hsum
    have hwrap : (addr + length) % 2 ^ w = addr + length - 2 ^ w := by
      rw [Nat.mod_eq_sub_mod (by omega), Nat.mod_eq_of_lt (by omega)]
    -- no segment goes up to the end of the address space
    have hnot : ¬Contained s addr length := by
      rintro ⟨li, seg, himm, hstart, hend⟩
      have hmapped := hs.mapped li himm.1 himm.2.1.1
      have htop := (hmapped.segment seg himm.2.2).2
      have hlt := hmapped.end_lt
      omega
    rw [iff_false_right hnot]
    cases hfound : cache.bind (fun cache => cache.inCache addr length) with
    | some readOnly => simp [immutableMemory, hfound]
    | none =>
      rw [immutableMemory_iff cache addr length hw hs hfound, hwrap]
      constructor
      · intro h
        refine ⟨by simp, fun _ li seg himm hstart => ?_⟩
        by_contra hlt
        exact h ⟨li, seg, himm, hstart, not_le.mp hlt⟩
      · rintro h ⟨li, seg, himm, hstart, hend⟩
        exact absurd hend (not_lt.mpr (h.2 rfl li seg himm hstart))

end Query

section OneImage

/-- An image of one page that may be read and executed. -/
def oneImage : LoadedImage where
  loadedAddress := 0x10000
  inDyldCache := false
  neverUnload := true
  has16KBpages := true
  diskSegments := [DiskSegment.ofFields 1 1 5 0]
  mappingInfo := ⟨1, 0⟩

def oneSegment : DiskSegmentReport where
  segIndex := 0
  fileOffset := 0
  fileSize := 0x4000
  vmOffset := 0
  vmSize := 0x4000
  permissions := 5
  laterReadOnly := false

/-- The state after the image is loaded. -/
def afterOneImage : AllImages := runImageNotifiers 64 (addImages (init 64) [oneImage]) [oneImage]

/-- A cache of one page that is not slid. -/
def smallCache : DyldSharedCache 64 where
  loadAddress := 0x180000000
  first := ⟨0x180000000, 0x4000, 5⟩
  last := ⟨0x180000000, 0x4000, 5⟩
  mappings := [⟨0x180000000, 0x4000, 5⟩]
  first_eq := rfl
  last_eq := rfl
  within := by simp
  slid := le_rfl
  fits := by simp

lemma oneImage_readOnlySegments : oneImage.readOnlySegments = [oneSegment] := by
  have hpages : pageSize true = 0x4000 := pageSize_true
  have hreports : forEachDiskSegment oneImage.has16KBpages oneImage.diskSegments = [oneSegment] := by
    simp [oneImage, oneSegment, forEachDiskSegment, walkDiskSegments, leadingVmOffset, hpages,
      DiskSegment.kReadOnlyDataPermissions]
  rw [LoadedImage.readOnlySegments, hreports]
  rfl

lemma oneImage_mapped : oneImage.Mapped 64 where
  pos := by decide
  end_lt := by decide
  segment := by
    rw [oneImage_readOnlySegments]
    simp [LoadedImage.segmentStart, LoadedImage.segmentEnd, oneSegment, LoadedImage.vmSizeToMap,
      Closure.vmSizeToMap, oneImage, pageSize_true]

lemma reachable_afterOneImage : Reachable 64 afterOneImage := by
  apply Relation.ReflTransGen.single
  apply Step.load (init 64) [oneImage] (List.cons_ne_nil _ _)
  · intro li hli _
    rw [List.mem_singleton.mp hli]
    exact oneImage_mapped
  · simp [init]

lemma isImmutable_afterOneImage {li : LoadedImage} {seg : DiskSegmentReport} :
    IsImmutable afterOneImage li seg ↔ li = oneImage ∧ seg = oneSegment := by
  have hloaded : afterOneImage.loadedImages = [oneImage] := rfl
  rw [IsImmutable, hloaded, List.mem_singleton]
  constructor
  · rintro ⟨rfl, -, hseg⟩
    rw [oneImage_readOnlySegments, List.mem_singleton] at hseg
    exact ⟨rfl, hseg⟩
  · rintro ⟨rfl, rfl⟩
    exact ⟨rfl, ⟨rfl, rfl⟩, by simp [oneImage_readOnlySegments]⟩

theorem immutableMemory_exact_inside :
    immutableMemory 64 (some smallCache) afterOneImage 0x10000 0x10 = true ↔
      Contained afterOneImage 0x10000 0x10 := by
  apply (immutableMemory_exact_iff (some smallCache) 0x10000 0x10 le_rfl reachable_afterOneImage
    (by simp) (by simp) ?_).mpr
  · rw [AnswersRight, if_pos (by simp)]
    intro li seg himm hstart hend
    obtain ⟨rfl, rfl⟩ := isImmutable_afterOneImage.mp himm
    simp [LoadedImage.segmentEnd, LoadedImage.segmentStart, oneImage, oneSegment] at hend
  · rintro c ⟨rfl⟩
    exact Or.inl (by simp [smallCache])

theorem immutableMemory_whole_segment :
    ¬∀ (cache : Option (DyldSharedCache 64)) (s : AllImages) (addr length : Nat),
      Reachable 64 s → addr < 2 ^ 64 → length < 2 ^ 64 →
        (∀ c, cache = some c → c.Outside addr length) →
          (immutableMemory 64 cache s addr length = true ↔ Contained s addr length) := by
  intro h
  have hcontained : Contained afterOneImage 0x10000 0x4000 :=
    ⟨oneImage, oneSegment, isImmutable_afterOneImage.mpr ⟨rfl, rfl⟩,
      by simp [LoadedImage.segmentStart, oneImage, oneSegment],
      by simp [LoadedImage.segmentEnd, LoadedImage.segmentStart, oneImage, oneSegment]⟩
  have hanswer := (h none afterOneImage 0x10000 0x4000 reachable_afterOneImage (by simp) (by simp)
    (by simp)).mpr hcontained
  obtain ⟨li, seg, himm, -, hend⟩ := (immutableMemory_iff none 0x10000 0x4000 le_rfl
    (inv_of_reachable le_rfl reachable_afterOneImage) rfl).mp hanswer
  obtain ⟨rfl, rfl⟩ := isImmutable_afterOneImage.mp himm
  simp [LoadedImage.segmentEnd, LoadedImage.segmentStart, oneImage, oneSegment] at hend

end OneImage

end AllImages

end Dyld.ImmutableMemory
