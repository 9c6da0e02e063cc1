import Dyld.Cache.Header

/-!
# The checks of a shared cache file before it is mapped

`preflightCacheFile` reads the header and the mapping table out of the first page of a cache file,
compares the ranges of each mapping with those of the next, and hands the mappings to the kernel.
Every sum that it compares is one of 64 bits, and the end of the last mapping in the file is
compared with nothing.
-/

namespace Dyld.Runtime.Preflight

open Dyld.Cache Dyld.Lib

/-! ### What the first page holds -/

/-- A sum of `uint64_t`. -/
def wrap (n : Nat) : Nat := n % 2 ^ 64

/-- The fields of `dyld_cache_mapping_and_slide_info` that are read. -/
structure MappingAndSlideInfo where
  slideInfoFileOffset : Nat
  slideInfoFileSize : Nat
  flags : Nat
  deriving DecidableEq, Repr

def firstPageSize : Nat := 0x4000

def maxMappings : Nat := 8

section Header

variable (firstPage : Mem)

def mappingOffset : Nat := loadNat firstPage offsetofMappingOffset 4
def mappingCount : Nat := loadNat firstPage offsetofMappingCount 4
def codeSignatureOffset : Nat := loadNat firstPage offsetofCodeSignatureOffset 8
def codeSignatureSize : Nat := loadNat firstPage offsetofCodeSignatureSize 8
def slideInfoOffsetUnused : Nat := loadNat firstPage offsetofSlideInfoOffsetUnused 8
def slideInfoSizeUnused : Nat := loadNat firstPage offsetofSlideInfoSizeUnused 8
def headerPlatform : Nat := loadNat firstPage offsetofPlatform 4
def headerSimulator : Bool := (loadNat firstPage (offsetofPlatform + 4) 4).testBit 9
def sharedRegionStart : Nat := loadNat firstPage offsetofSharedRegionStart 8
def sharedRegionSize : Nat := loadNat firstPage offsetofSharedRegionSize 8
def maxSlide : Nat := loadNat firstPage offsetofMaxSlide 8
def mappingWithSlideOffset : Nat := loadNat firstPage offsetofMappingWithSlideOffset 4

/-- `fileMappings[i]`. -/
def fileMapping (i : Nat) : MappingInfo :=
  mappingInfoAt (loadNat firstPage) 24 (mappingOffset firstPage + sizeofMappingInfo * i)

def slidableMapping (i : Nat) : MappingAndSlideInfo :=
  let a := mappingWithSlideOffset firstPage + sizeofMappingAndSlideInfo * i
  ⟨loadNat firstPage (a + 24) 8, loadNat firstPage (a + 32) 8, loadNat firstPage (a + 40) 8⟩

def linkeditMapping : MappingInfo := fileMapping firstPage (mappingCount firstPage - 1)

def withoutSlidMappings : Bool :=
  decide (mappingOffset firstPage ≤ offsetofMappingWithSlideOffset)

/-- `strcmp` of the magic finds `s`. -/
def magicIs (s : List UInt8) : Bool := (s ++ [0]).zipIdx.all (fun b => firstPage b.2 == b.1)

end Header

/-! ### The checks -/

/-- What the build and the caller fix. The second magic is that of `x86_64h`. -/
structure PreflightOptions where
  archCacheMagic : List UInt8
  archCacheMagicH : Option (List UInt8)
  useHaswell : Bool
  currentPlatform : Nat
  targetOSSimulator : Bool
  enableSharedCacheDataConst : Bool

/-- What the system calls say about the file: `stat`, `pread`, the code signature that `fcntl`
registers, and the page that `mmap` maps. -/
structure CacheFile where
  opened : Bool
  fileLength : Option (BitVec 64)
  firstPage : Option Mem
  codeSignedLength : Option (BitVec 64)
  mappedPage : Option Mem

def VM_PROT_READ : Nat := 1
def VM_PROT_WRITE : Nat := 2
def VM_PROT_EXECUTE : Nat := 4
def VM_PROT_SLIDE : Nat := 0x20
def VM_PROT_NOAUTH : Nat := 0x40

section Checks

variable (options : PreflightOptions) (firstPage : Mem)

def validMagic : Bool :=
  magicIs firstPage options.archCacheMagic ||
    match options.archCacheMagicH with
    | none => false
    | some magic => options.useHaswell && magicIs firstPage magic

def validPlatform : Bool :=
  -- old caches do not have the platform in the header
  if mappingOffset firstPage < 0xE0 then true
  else if headerPlatform firstPage ≠ options.currentPlatform then false
  else headerSimulator firstPage == options.targetOSSimulator

def mappingsInvalid : Bool :=
  mappingCount firstPage < 3 || mappingCount firstPage > maxMappings ||
    mappingOffset firstPage > 0x168

/-- The end of mapping `i` in memory is behind the start of the next. -/
def addressOverlap (i : Nat) : Bool :=
  wrap ((fileMapping firstPage i).address + (fileMapping firstPage i).size) >
    (fileMapping firstPage (i + 1)).address

def fileGap (i : Nat) : Bool :=
  wrap ((fileMapping firstPage i).fileOffset + (fileMapping firstPage i).size) !=
    (fileMapping firstPage (i + 1)).fileOffset

def textLinkeditInvalid (cacheFileLength : Nat) : Bool :=
  (fileMapping firstPage 0).fileOffset != 0 || addressOverlap firstPage 0 || fileGap firstPage 0 ||
    wrap (codeSignatureOffset firstPage + codeSignatureSize firstPage) != cacheFileLength ||
    (fileMapping firstPage 0).maxProt != VM_PROT_READ ||| VM_PROT_EXECUTE ||
    (linkeditMapping firstPage).maxProt != VM_PROT_READ

/-- The loop over the mappings between the first and the last. -/
def dataInvalid : Bool :=
  (List.range' 1 (mappingCount firstPage - 2)).any (fun i =>
    addressOverlap firstPage i || fileGap firstPage i ||
      (fileMapping firstPage i).maxProt != VM_PROT_READ ||| VM_PROT_WRITE)

def addressesInvalid : Bool :=
  (fileMapping firstPage 0).address != sharedRegionStart firstPage ||
    wrap ((linkeditMapping firstPage).address + (linkeditMapping firstPage).size) >
      wrap (sharedRegionStart firstPage + sharedRegionSize firstPage)

/-! ### The mappings for the kernel -/

/-- `shared_file_mapping_slide_np`. -/
structure KernelMapping where
  address : Nat
  size : Nat
  fileOffset : Nat
  slideSize : Nat
  slideStart : Nat
  maxProt : Nat
  initProt : Nat
  deriving DecidableEq, Repr

structure CacheInfo where
  mappings : List KernelMapping
  sharedRegionStart : Nat
  sharedRegionSize : Nat
  maxSlide : Nat

def slideInfoOf (i : Nat) : Nat × Nat × Nat × Nat :=
  let initProt := (fileMapping firstPage i).initProt
  if withoutSlidMappings firstPage then
    if i = 1 then (slideInfoOffsetUnused firstPage, slideInfoSizeUnused firstPage, 0, initProt)
    else (0, 0, 0, initProt)
  else
    let slid := slidableMapping firstPage i
    let authProt := if slid.flags &&& 1 = 0 then VM_PROT_NOAUTH else 0
    -- __DATA_CONST that was built as read-only is made writable again
    let initProt :=
      if slid.flags &&& 4 ≠ 0 ∧ !options.enableSharedCacheDataConst then initProt ||| VM_PROT_WRITE
      else initProt
    (slid.slideInfoFileOffset, slid.slideInfoFileSize, authProt, initProt)

def kernelMapping (i : Nat) : KernelMapping :=
  let mapping := fileMapping firstPage i
  let linkedit := linkeditMapping firstPage
  let (slideInfoFileOffset, slideInfoFileSize, authProt, initProt) := slideInfoOf options firstPage i
  if slideInfoFileSize ≠ 0 then
    let offsetInLinkEditRegion := wrap (slideInfoFileOffset + (2 ^ 64 - linkedit.fileOffset))
    { address := mapping.address
      size := mapping.size
      fileOffset := mapping.fileOffset
      slideSize := slideInfoFileSize
      slideStart := wrap (linkedit.address + offsetInLinkEditRegion)
      maxProt := mapping.maxProt ||| (VM_PROT_SLIDE ||| authProt)
      initProt := initProt ||| (VM_PROT_SLIDE ||| authProt) }
  else
    { address := mapping.address
      size := mapping.size
      fileOffset := mapping.fileOffset
      slideSize := 0
      slideStart := 0
      maxProt := mapping.maxProt
      initProt := initProt }

end Checks

def preflightCacheFile (options : PreflightOptions) (file : CacheFile) : Except String CacheInfo :=
  if !file.opened then .error "shared cache file open() failed"
  else
    match file.fileLength with
    | none => .error "shared cache file stat() failed"
    | some cacheFileLength =>
      match file.firstPage with
      | none => .error "shared cache file pread() failed"
      | some firstPage =>
        if !validMagic options firstPage then .error "shared cache file has wrong magic"
        else if !validPlatform options firstPage then
          .error "shared cache file is for a different platform"
        else if mappingsInvalid firstPage then .error "shared cache file mappings are invalid"
        else if textLinkeditInvalid firstPage cacheFileLength.toNat then
          .error "shared cache text/linkedit mappings are invalid"
        else if dataInvalid firstPage then .error "shared cache data mappings are invalid"
        else if addressesInvalid firstPage then
          .error "shared cache file mapping addressses invalid"
        else
          match file.codeSignedLength with
          | none => .error "code signature registration for shared cache failed"
          | some codeSignedLength =>
            if codeSignedLength.toNat < codeSignatureOffset firstPage then
              .error "code signature does not cover entire shared cache file"
            else
              match file.mappedPage with
              | none => .error "first page of shared cache not mmap()able"
              | some mappedData =>
                if (List.range firstPageSize).any (fun i => mappedData i != firstPage i) then
                  .error "first page of mmap()ed shared cache not valid"
                else
                  .ok
                    { mappings := (List.range (mappingCount firstPage)).map
                        (kernelMapping options firstPage)
                      sharedRegionStart := sharedRegionStart firstPage
                      sharedRegionSize := sharedRegionSize firstPage
                      maxSlide := maxSlide firstPage }

/-! ### Sound mappings -/

section Sound

variable (firstPage : Mem) (cacheFileLength : Nat)

/-- The end of mapping `i` in memory, as a number without bound. -/
def addressEnd (i : Nat) : Nat := (fileMapping firstPage i).address + (fileMapping firstPage i).size

/-- The end of mapping `i` in the file, as a number without bound. -/
def fileEnd (i : Nat) : Nat := (fileMapping firstPage i).fileOffset + (fileMapping firstPage i).size

/-- The mappings are in increasing order inside the shared region, they cover the file from its
start without a gap and end in it, and their records lie in the first page. -/
structure Sound : Prop where
  increasing : ∀ i j, i < j → j < mappingCount firstPage →
    addressEnd firstPage i ≤ (fileMapping firstPage j).address
  inside : ∀ i < mappingCount firstPage,
    sharedRegionStart firstPage ≤ (fileMapping firstPage i).address ∧
      addressEnd firstPage i ≤ sharedRegionStart firstPage + sharedRegionSize firstPage
  file_start : (fileMapping firstPage 0).fileOffset = 0
  contiguous : ∀ i, i + 1 < mappingCount firstPage →
    fileEnd firstPage i = (fileMapping firstPage (i + 1)).fileOffset
  file_end : ∀ i < mappingCount firstPage, fileEnd firstPage i ≤ cacheFileLength
  records : ∀ i < mappingCount firstPage,
    mappingOffset firstPage + sizeofMappingInfo * (i + 1) ≤ firstPageSize
  slid_records : withoutSlidMappings firstPage = false → ∀ i < mappingCount firstPage,
    mappingWithSlideOffset firstPage + sizeofMappingAndSlideInfo * (i + 1) ≤ firstPageSize

structure SumsFit : Prop where
  address : ∀ i, i + 1 < mappingCount firstPage → addressEnd firstPage i < 2 ^ 64
  file : ∀ i, i + 1 < mappingCount firstPage → fileEnd firstPage i < 2 ^ 64
  last : 2 ^ 64 ≤ addressEnd firstPage (mappingCount firstPage - 1) →
    2 ^ 64 ≤ sharedRegionStart firstPage + sharedRegionSize firstPage
  file_end : fileEnd firstPage (mappingCount firstPage - 1) ≤ cacheFileLength
  slid : withoutSlidMappings firstPage = false →
    mappingWithSlideOffset firstPage + sizeofMappingAndSlideInfo * mappingCount firstPage ≤
      firstPageSize

structure Checked : Prop where
  count_ge : 3 ≤ mappingCount firstPage
  count_le : mappingCount firstPage ≤ maxMappings
  offset_le : mappingOffset firstPage ≤ 0x168
  file_start : (fileMapping firstPage 0).fileOffset = 0
  next_address : ∀ i, i + 1 < mappingCount firstPage →
    wrap (addressEnd firstPage i) ≤ (fileMapping firstPage (i + 1)).address
  next_file : ∀ i, i + 1 < mappingCount firstPage →
    wrap (fileEnd firstPage i) = (fileMapping firstPage (i + 1)).fileOffset
  region_start : (fileMapping firstPage 0).address = sharedRegionStart firstPage
  region_end : wrap (addressEnd firstPage (mappingCount firstPage - 1)) ≤
    wrap (sharedRegionStart firstPage + sharedRegionSize firstPage)

end Sound

section Proofs

variable {firstPage : Mem} {cacheFileLength : Nat} {options : PreflightOptions} {file : CacheFile}
  {info : CacheInfo}

lemma checked_of_valid (h : mappingsInvalid firstPage = false)
    (ht : textLinkeditInvalid firstPage cacheFileLength = false)
    (hd : dataInvalid firstPage = false) (ha : addressesInvalid firstPage = false) :
    Checked firstPage := by
  simp only [mappingsInvalid, Bool.or_eq_false_iff, decide_eq_false_iff_not, not_lt] at h
  obtain ⟨⟨hge, hle⟩, hoff⟩ := h
  simp only [textLinkeditInvalid, Bool.or_eq_false_iff, bne_eq_false_iff_eq] at ht
  obtain ⟨⟨⟨⟨⟨hstart, haddr⟩, hfile⟩, -⟩, -⟩, -⟩ := ht
  simp only [dataInvalid, List.any_eq_false, List.mem_range'_1, Bool.or_eq_true, not_or,
    Bool.not_eq_true, bne_eq_false_iff_eq] at hd
  simp only [addressesInvalid, Bool.or_eq_false_iff, bne_eq_false_iff_eq, decide_eq_false_iff_not,
    not_lt] at ha
  have hboth : ∀ i, i + 1 < mappingCount firstPage →
      addressOverlap firstPage i = false ∧ fileGap firstPage i = false := by
    intro i hi
    rcases Nat.eq_zero_or_pos i with rfl | hpos
    · exact ⟨haddr, hfile⟩
    · exact (hd i (by omega)).1
  constructor
  · exact hge
  · exact hle
  · exact hoff
  · exact hstart
  · intro i hi
    have hnext := (hboth i hi).1
    rw [addressOverlap, decide_eq_false_iff_not, not_lt] at hnext
    exact hnext
  · intro i hi
    have hnext := (hboth i hi).2
    rw [fileGap, bne_eq_false_iff_eq] at hnext
    exact hnext
  · exact ha.1
  · exact ha.2

lemma checked_of_preflight (h : preflightCacheFile options file = .ok info) :
    ∃ firstPage cacheFileLength, file.firstPage = some firstPage ∧
      file.fileLength = some cacheFileLength ∧ Checked firstPage ∧
      info.mappings = (List.range (mappingCount firstPage)).map (kernelMapping options firstPage) := by
  unfold preflightCacheFile at h
  split_ifs at h with hopen
  cases hl : file.fileLength with
  | none => simp [hl] at h
  | some cacheFileLength =>
    cases hp : file.firstPage with
    | none => simp [hl, hp] at h
    | some firstPage =>
      simp only [hl, hp] at h
      split_ifs at h with hmagic hplatform hmap htext hdata haddr
      refine ⟨firstPage, cacheFileLength, rfl, rfl, ?_, ?_⟩
      · exact checked_of_valid (Bool.eq_false_of_not_eq_true hmap)
          (Bool.eq_false_of_not_eq_true htext) (Bool.eq_false_of_not_eq_true hdata)
          (Bool.eq_false_of_not_eq_true haddr)
      · cases hs : file.codeSignedLength with
        | none => simp [hs] at h
        | some codeSignedLength =>
          simp only [hs] at h
          split_ifs at h
          cases hm : file.mappedPage with
          | none => simp [hm] at h
          | some mappedData =>
            simp only [hm] at h
            split_ifs at h
            cases h
            rfl

lemma wrap_of_lt {n : Nat} (h : n < 2 ^ 64) : wrap n = n := Nat.mod_eq_of_lt h

lemma address_lt (firstPage : Mem) (i : Nat) : (fileMapping firstPage i).address < 2 ^ 64 :=
  loadNat_lt _ _ 8

lemma fileOffset_lt (firstPage : Mem) (i : Nat) : (fileMapping firstPage i).fileOffset < 2 ^ 64 :=
  loadNat_lt _ _ 8

/-- From each mapping to the next, over any number of them. -/
lemma le_of_adjacent {n : Nat} {lo hi : Nat → Nat} (hle : ∀ i, lo i ≤ hi i)
    (h : ∀ i, i + 1 < n → hi i ≤ lo (i + 1)) {i j : Nat} (hij : i < j) (hj : j < n) :
    hi i ≤ lo j := by
  induction j with
  | zero => omega
  | succ j ih =>
    rcases Nat.lt_succ_iff_lt_or_eq.mp hij with hlt | rfl
    · exact le_trans (ih hlt (by omega)) (le_trans (hle j) (h j hj))
    · exact h i hj

lemma address_le_end (i : Nat) : (fileMapping firstPage i).address ≤ addressEnd firstPage i :=
  Nat.le_add_right _ _

lemma increasing_of_sums (hc : Checked firstPage)
    (hs : ∀ i, i + 1 < mappingCount firstPage → addressEnd firstPage i < 2 ^ 64) {i j : Nat}
    (hij : i < j) (hj : j < mappingCount firstPage) :
    addressEnd firstPage i ≤ (fileMapping firstPage j).address := by
  refine le_of_adjacent (fun i => address_le_end i) (fun i hi => ?_) hij hj
  have hnext := hc.next_address i hi
  rwa [wrap_of_lt (hs i hi)] at hnext

/-- Every mapping ends where the last one does, or before. -/
lemma le_last {lo hi : Nat → Nat} {n : Nat} (hle : ∀ i, lo i ≤ hi i)
    (h : ∀ i, i + 1 < n → hi i ≤ lo (i + 1)) {i : Nat} (hi' : i < n) : hi i ≤ hi (n - 1) := by
  rcases Nat.eq_or_lt_of_le (show i ≤ n - 1 by omega) with heq | hlt
  · rw [heq]
  · exact le_trans (le_of_adjacent hle h hlt (by omega)) (hle _)

lemma sound_of_sumsFit (hc : Checked firstPage) (hs : SumsFit firstPage cacheFileLength) :
    Sound firstPage cacheFileLength := by
  have hcount := hc.count_ge
  have hinc : ∀ i, i + 1 < mappingCount firstPage →
      addressEnd firstPage i ≤ (fileMapping firstPage (i + 1)).address :=
    fun i hi => increasing_of_sums hc hs.address (Nat.lt_succ_self i) hi
  have hcont : ∀ i, i + 1 < mappingCount firstPage →
      fileEnd firstPage i = (fileMapping firstPage (i + 1)).fileOffset := by
    intro i hi
    rw [← hc.next_file i hi, wrap_of_lt (hs.file i hi)]
  have hlast : addressEnd firstPage (mappingCount firstPage - 1) ≤
      sharedRegionStart firstPage + sharedRegionSize firstPage := by
    have hend := hc.region_end
    have hfirst : (fileMapping firstPage 0).address ≤
        addressEnd firstPage (mappingCount firstPage - 1) :=
      le_trans (address_le_end 0)
        (le_last (fun i => address_le_end i) hinc (by omega))
    have hstart := hc.region_start
    have hregion : sharedRegionStart firstPage < 2 ^ 64 := loadNat_lt _ _ 8
    have hsize : sharedRegionSize firstPage < 2 ^ 64 := loadNat_lt _ _ 8
    have haddr := address_lt firstPage (mappingCount firstPage - 1)
    have hlen : (fileMapping firstPage (mappingCount firstPage - 1)).size < 2 ^ 64 :=
      loadNat_lt _ _ 8
    have hcarry := hs.last
    unfold wrap addressEnd at *
    omega
  constructor
  · intro i j hij hj
    exact increasing_of_sums hc hs.address hij hj
  · intro i hi
    constructor
    · rw [← hc.region_start]
      rcases Nat.eq_zero_or_pos i with rfl | hpos
      · exact Nat.le_refl _
      · exact le_trans (address_le_end 0) (increasing_of_sums hc hs.address hpos hi)
    · exact le_trans (le_last (fun i => address_le_end i) hinc hi) hlast
  · exact hc.file_start
  · exact hcont
  · intro i hi
    exact le_trans (le_last (fun i => Nat.le_add_right _ _) (fun i hi => (hcont i hi).le) hi)
      hs.file_end
  · intro i hi
    have hle := hc.count_le
    have hoff := hc.offset_le
    unfold maxMappings at hle
    unfold sizeofMappingInfo firstPageSize
    omega
  · intro hslid i hi
    have hle := hs.slid hslid
    unfold sizeofMappingAndSlideInfo firstPageSize at *
    omega

lemma sumsFit_of_sound (hc : Checked firstPage) (h : Sound firstPage cacheFileLength) :
    SumsFit firstPage cacheFileLength := by
  have hcount := hc.count_ge
  have hlast : mappingCount firstPage - 1 < mappingCount firstPage := by omega
  constructor
  · intro i hi
    exact lt_of_le_of_lt (h.increasing i (i + 1) (Nat.lt_succ_self i) hi) (address_lt _ _)
  · intro i hi
    rw [h.contiguous i hi]
    exact fileOffset_lt _ _
  · intro hwrap
    exact le_trans hwrap (h.inside _ hlast).2
  · exact h.file_end _ hlast
  · intro hslid
    have hrec := h.slid_records hslid _ hlast
    rwa [Nat.sub_add_cancel (by omega)] at hrec

end Proofs

namespace CacheFile

def Sound (file : CacheFile) : Prop :=
  ∃ firstPage cacheFileLength, file.firstPage = some firstPage ∧
    file.fileLength = some cacheFileLength ∧ Preflight.Sound firstPage cacheFileLength.toNat

def SumsFit (file : CacheFile) : Prop :=
  ∃ firstPage cacheFileLength, file.firstPage = some firstPage ∧
    file.fileLength = some cacheFileLength ∧ Preflight.SumsFit firstPage cacheFileLength.toNat

end CacheFile

theorem preflight_sound_iff (options : PreflightOptions) (file : CacheFile) (info : CacheInfo)
    (h : preflightCacheFile options file = .ok info) : file.Sound ↔ file.SumsFit := by
  obtain ⟨firstPage, cacheFileLength, hp, hl, hc, -⟩ := checked_of_preflight h
  constructor
  · rintro ⟨p, len, hp', hl', hs⟩
    rw [hp] at hp'
    cases hp'
    exact ⟨firstPage, len, hp, hl', sumsFit_of_sound hc hs⟩
  · rintro ⟨p, len, hp', hl', hs⟩
    rw [hp] at hp'
    cases hp'
    exact ⟨firstPage, len, hp, hl', sound_of_sumsFit hc hs⟩

/-! ### Two files -/

/-- A file whose first page is mapped as it was read, and whose code signature covers it. -/
def signedFile (cacheFileLength : BitVec 64) (firstPage : Mem) : CacheFile :=
  ⟨true, some cacheFileLength, some firstPage, some cacheFileLength, some firstPage⟩

lemma preflight_signedFile {options : PreflightOptions} {cacheFileLength : BitVec 64}
    {firstPage : Mem} (hmagic : validMagic options firstPage = true)
    (hplatform : validPlatform options firstPage = true) (hmap : mappingsInvalid firstPage = false)
    (htext : textLinkeditInvalid firstPage cacheFileLength.toNat = false)
    (hdata : dataInvalid firstPage = false) (haddr : addressesInvalid firstPage = false)
    (hsigned : codeSignatureOffset firstPage ≤ cacheFileLength.toNat) :
    ∃ info, preflightCacheFile options (signedFile cacheFileLength firstPage) = .ok info := by
  unfold preflightCacheFile signedFile
  simp [hmagic, hplatform, hmap, htext, hdata, haddr, Nat.not_lt.mpr hsigned]

/-- The first page of a cache of three mappings, with the code signature in the last 4096 bytes of
the file and the mapping table at 0x100. -/
def pageOf (cacheFileLength regionStart regionSize : Nat) (mappings : List MappingInfo) : Mem :=
  let magic : Mem := fun a => "dyld_v1  x86_64".toUTF8.toList.getD a 0
  let header := [(0x10, 4, 0x100), (0x14, 4, mappings.length), (0x28, 8, cacheFileLength - 0x1000),
    (0x30, 8, 0x1000), (0xD8, 4, 1), (0xE0, 8, regionStart), (0xE8, 8, regionSize)]
  let table := mappings.zipIdx.flatMap (fun m =>
    let a := 0x100 + 32 * m.2
    [(a, 8, m.1.address), (a + 8, 8, m.1.size), (a + 16, 8, m.1.fileOffset), (a + 24, 4, m.1.maxProt),
      (a + 28, 4, m.1.initProt)])
  (header ++ table).foldl (fun p f => storeNat f.2.1 p f.1 f.2.2) magic

def x86Options : PreflightOptions where
  archCacheMagic := "dyld_v1  x86_64".toUTF8.toList
  archCacheMagicH := none
  useHaswell := false
  currentPlatform := 1
  targetOSSimulator := false
  enableSharedCacheDataConst := true

/-- The first page of a cache of three mappings of one page each. -/
def smallPage : Mem :=
  pageOf 0x4000 0x7FFF20000000 0x100000
    [⟨0x7FFF20000000, 0x1000, 0, 5, 5⟩, ⟨0x7FFF20002000, 0x1000, 0x1000, 3, 3⟩,
      ⟨0x7FFF20004000, 0x1000, 0x2000, 1, 1⟩]

def smallCache : CacheFile := signedFile 0x4000 smallPage

/-- The text of this cache goes all around the address space, and over all other mappings. -/
def wrappingCache : CacheFile :=
  signedFile 0x4000 (pageOf 0x4000 0x7FFF20000000 0x100000
    [⟨0x7FFF20000000, 0xFFFFFFFF00000000, 0, 5, 5⟩,
      ⟨0x7FFF20002000, 0x1000, 0xFFFFFFFF00000000, 3, 3⟩,
      ⟨0x7FFF20004000, 0x1000, 0xFFFFFFFF00001000, 1, 1⟩])

theorem sound_smallCache :
    ∃ info, preflightCacheFile x86Options smallCache = .ok info ∧ smallCache.Sound := by
  have hok : ∃ info, preflightCacheFile x86Options smallCache = .ok info :=
    preflight_signedFile (by decide +kernel) (by decide +kernel) (by decide +kernel)
      (by decide +kernel) (by decide +kernel) (by decide +kernel) (by decide +kernel)
  obtain ⟨info, hinfo⟩ := hok
  have hcount : mappingCount smallPage = 3 := by decide +kernel
  refine ⟨info, hinfo, (preflight_sound_iff x86Options smallCache info hinfo).mpr
    ⟨_, _, rfl, rfl, ?_, ?_, ?_, ?_, ?_⟩⟩
  · intro i hi
    have hlt : i < 2 := by omega
    interval_cases i <;> decide +kernel
  · intro i hi
    have hlt : i < 2 := by omega
    interval_cases i <;> decide +kernel
  · rw [hcount]
    decide +kernel
  · rw [hcount]
    decide +kernel
  · decide +kernel

theorem not_sound_wrappingCache :
    (∃ info, preflightCacheFile x86Options wrappingCache = .ok info) ∧ ¬wrappingCache.Sound := by
  constructor
  · exact preflight_signedFile (by decide +kernel) (by decide +kernel) (by decide +kernel)
      (by decide +kernel) (by decide +kernel) (by decide +kernel) (by decide +kernel)
  · rintro ⟨firstPage, cacheFileLength, hp, hl, hs⟩
    cases hp
    exact absurd (hs.increasing 0 1 (by decide) (by decide +kernel)) (by decide +kernel)

end Dyld.Runtime.Preflight
