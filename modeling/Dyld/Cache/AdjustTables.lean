import Dyld.Cache.RebaseChains
import Dyld.Cache.StringPool
import Dyld.Cache.Tries

/-!
# The tables that name bytes of a moved dylib

After the segments of a dylib are moved into the cache, `adjustSymbolTable`,
`adjustExternalRelocations` and `adjustExportsTrie` change what names their bytes: addresses in the
symbol table, offsets from the mach header in the exports, and in the external relocations offsets
from a base address that depends on the architecture.
-/

namespace Dyld.Cache.Tables

open Dyld.Cache.Tries (ExportInfo)

/-- A segment load command, and where its segment starts in the cache. -/
structure SegCmd where
  vmaddr : BitVec 64
  vmsize : BitVec 64
  initprot : BitVec 32
  dstCacheUnslidAddress : BitVec 64
  deriving DecidableEq, Repr

/-- `LC_DYSYMTAB`, with the symbols that adjusting reads and the tables that the LINKEDIT is rebuilt
from. -/
structure DysymtabCommand where
  ilocalsym : Nat
  nlocalsym : Nat
  iextdefsym : Nat
  nextdefsym : Nat
  indirectsymoff : Nat := 0
  nindirectsyms : Nat := 0
  extreloff : Nat := 0
  nextrel : Nat := 0
  locreloff : Nat := 0
  nlocrel : Nat := 0
  deriving DecidableEq, Repr

abbrev Export := List UInt8 × ExportInfo

/-- A dylib whose segments are moved, with its tables. `r_address` are those of the external
relocations, and `exports` is what `parseTrie` reports of an exports trie that is not empty: `none`
where it is malformed. -/
structure Image (w : Nat) where
  segCmds : List SegCmd
  isX86_64 : Bool
  isKextBundle : Bool
  buildingAppCacheUtil : Bool
  maskPointers : Bool
  dynSymTabCmd : Option DysymtabCommand
  symbolTable : List (Nlist w)
  r_address : List (BitVec 32)
  exports : Option (Option (List Export))

/-- What the three functions leave. -/
structure Adjusted (w : Nat) where
  symbolTable : List (Nlist w)
  r_address : List (BitVec 32)
  newExports : List Export
  deriving DecidableEq

namespace Image

variable {w : Nat} (image : Image w)

/-- The fields of the `Adjustor` of the image that the lookup of a slide reads. -/
def adjustor : Adjustor where
  cacheBaseAddress := 0
  hasChainedFixupsCmd := false
  chainedFixupsFormat := 0
  usesClassicRelocations := true
  maskPointers := image.maskPointers
  segments := image.segCmds.map (fun seg =>
    (seg.vmaddr, seg.vmsize, seg.dstCacheUnslidAddress - seg.vmaddr))

/-- `slideForOrigAddress`, or `none` where it reports an error. -/
def slideForOrigAddress (addr : BitVec 64) : Option (BitVec 64) :=
  image.adjustor.slideForOrigAddress addr

def slideEntry (entry : Nlist w) : Option (Nlist w) := do
  let slide ← image.slideForOrigAddress (entry.n_value.setWidth 64)
  some { entry with n_value := (entry.n_value.setWidth 64 + slide).setWidth w }

def slideRange (adjusts : Nlist w → Bool) (first count : Nat) (symbolTable : List (Nlist w)) :
    Option (List (Nlist w)) :=
  symbolTable.zipIdx.mapM (fun e =>
    if first ≤ e.2 ∧ e.2 < first + count ∧ adjusts e.1 then image.slideEntry e.1 else some e.1)

def isSectionLocal (entry : Nlist w) : Bool :=
  entry.n_sect != 0#8 && entry.n_type &&& 0xe0#8 == 0#8

def adjustSymbolTable : Option (List (Nlist w)) :=
  match image.dynSymTabCmd with
  | none => some image.symbolTable
  | some cmd => do
    let symbolTable ← image.slideRange isSect cmd.iextdefsym cmd.nextdefsym image.symbolTable
    image.slideRange isSectionLocal cmd.ilocalsym cmd.nlocalsym symbolTable

def origTextAddress : BitVec 64 := (image.segCmds.map SegCmd.vmaddr).headD 0

/-- `_mappingInfo[0].dstCacheUnslidAddress` -/
def newTextAddress : BitVec 64 := (image.segCmds.map SegCmd.dstCacheUnslidAddress).headD 0

def externalRelocBaseAddress : BitVec 64 :=
  if image.isX86_64 then
    -- for kext bundles the base is the `__TEXT` segment
    if image.buildingAppCacheUtil ∧ image.isKextBundle then image.origTextAddress
    else
      match image.segCmds.find? (fun seg => seg.initprot &&& 2#32 != 0#32) with
      | some seg => seg.vmaddr
      | none => 0
  else 0

/-- One external relocation, or `none` where the slide is not known or the assertion fails. -/
def adjustRelocation (r_address : BitVec 32) : Option (BitVec 32) := do
  let slide ← image.slideForOrigAddress
    (image.externalRelocBaseAddress + r_address.signExtend 64)
  let newAddress := r_address.signExtend 64 + slide - image.newTextAddress
  if (newAddress.setWidth 32).signExtend 64 = newAddress then some (newAddress.setWidth 32) else none

def adjustExternalRelocations : Option (List (BitVec 32)) :=
  match image.dynSymTabCmd with
  | none => some image.r_address
  | some _ => image.r_address.mapM image.adjustRelocation

/-- The symbols that only the static linker uses. -/
def usedByLinkerOnly (name : List UInt8) : Bool :=
  "$ld$".toUTF8.toList.isPrefixOf name || ".objc_class_name".toUTF8.toList.isPrefixOf name ||
    ".objc_category_name".toUTF8.toList.isPrefixOf name

def isAbsolute (info : ExportInfo) : Bool := info.flags &&& 0x03 == 0x02

def adjustExport (baseAddress baseAddressSlide : BitVec 64) (entry : Export) : Option Export :=
  if isAbsolute entry.2 then some entry
  else do
    let slide ← image.slideForOrigAddress (entry.2.address.toBitVec + baseAddress)
    some (entry.1, { entry.2 with
      address := UInt64.ofBitVec (entry.2.address.toBitVec + (slide - baseAddressSlide)) })

def adjustExportsTrie : Option (List Export) :=
  match image.exports with
  | none => some []
  | some none => none
  | some (some originalExports) => do
    let baseAddressSlide ← image.slideForOrigAddress image.origTextAddress
    (originalExports.filter (fun entry => !usedByLinkerOnly entry.1)).mapM
      (image.adjustExport image.origTextAddress baseAddressSlide)

/-- The three functions, where an error or a failed assertion ends the run. -/
def adjust : Option (Adjusted w) := do
  let symbolTable ← image.adjustSymbolTable
  let r_address ← image.adjustExternalRelocations
  let newExports ← image.adjustExportsTrie
  some ⟨symbolTable, r_address, newExports⟩

/-! ### What is claimed of the tables -/

def slideOf (seg : SegCmd) : BitVec 64 := seg.dstCacheUnslidAddress - seg.vmaddr

def InSegment (seg : SegCmd) (addr : BitVec 64) : Prop :=
  seg ∈ image.segCmds ∧ seg.vmaddr ≤ addr ∧ addr < seg.vmaddr + seg.vmsize

/-- The index lies in a range of the symbol table. -/
def InRange (first count k : Nat) : Prop := first ≤ k ∧ k < first + count

def IsGlobal (k : Nat) (entry : Nlist w) : Prop :=
  ∃ cmd, image.dynSymTabCmd = some cmd ∧ InRange cmd.iextdefsym cmd.nextdefsym k ∧ isSect entry = true

def IsLocal (k : Nat) (entry : Nlist w) : Prop :=
  ∃ cmd, image.dynSymTabCmd = some cmd ∧ InRange cmd.ilocalsym cmd.nlocalsym k ∧
    isSectionLocal entry = true

def SymbolsFollow (symbolTable : List (Nlist w)) : Prop :=
  ∀ k entry, image.symbolTable[k]? = some entry → image.IsGlobal k entry ∨ image.IsLocal k entry →
    ∀ seg, image.InSegment seg (entry.n_value.setWidth 64) →
      ∃ entry', symbolTable[k]? = some entry' ∧
        entry'.n_value = entry.n_value + (slideOf seg).setWidth w

def RelocationsFollow (r_address : List (BitVec 32)) : Prop :=
  image.dynSymTabCmd ≠ none → ∀ (k : Nat) (r : BitVec 32), image.r_address[k]? = some r →
    ∀ seg, image.InSegment seg (image.externalRelocBaseAddress + r.signExtend 64) →
      ∃ r' : BitVec 32, r_address[k]? = some r' ∧ image.newTextAddress + r'.signExtend 64 =
        image.externalRelocBaseAddress + r.signExtend 64 + slideOf seg

def ExportsFollow (newExports : List Export) : Prop :=
  ∀ originalExports, image.exports = some (some originalExports) →
    List.Forall₂ (fun entry entry' => entry'.1 = entry.1 ∧
        (isAbsolute entry.2 = false → ∀ seg,
          image.InSegment seg (image.origTextAddress + entry.2.address.toBitVec) →
          image.newTextAddress + entry'.2.address.toBitVec =
            image.origTextAddress + entry.2.address.toBitVec + slideOf seg))
      (originalExports.filter (fun entry => !usedByLinkerOnly entry.1)) newExports

/-- The tables name the bytes that they named before. -/
def TablesFollow (adjusted : Adjusted w) : Prop :=
  image.SymbolsFollow adjusted.symbolTable ∧ image.RelocationsFollow adjusted.r_address ∧
    image.ExportsFollow adjusted.newExports

/-- An image that can be moved: no address is in two segments, the mach header is in the first one,
and pointers are masked on arm64 only. -/
structure Movable : Prop where
  disjoint : image.adjustor.DisjointSegments
  header : ∀ seg, image.segCmds.head? = some seg → image.InSegment seg seg.vmaddr
  masked : image.maskPointers = true → image.isX86_64 = false

/-- An entry that both loops change does not get a second slide. -/
def SlidOnce : Prop :=
  ∀ k entry, image.symbolTable[k]? = some entry → image.IsGlobal k entry → image.IsLocal k entry →
    ∀ seg, image.InSegment seg (entry.n_value.setWidth 64) → ∀ slide,
      image.slideForOrigAddress ((entry.n_value + (slideOf seg).setWidth w).setWidth 64) =
        some slide → slide.setWidth w = 0

/-! ### Tables -/

lemma forall₂_of_mapM {α β : Type} {f : α → Option β} {l : List α} {l' : List β}
    (h : l.mapM f = some l') : List.Forall₂ (fun a b => f a = some b) l l' := by
  induction l generalizing l' with
  | nil =>
    cases h
    exact List.Forall₂.nil
  | cons a l ih =>
    rw [List.mapM_cons, Option.bind_eq_bind, Option.bind_eq_some_iff] at h
    obtain ⟨b, hb, h⟩ := h
    rw [Option.bind_eq_bind, Option.bind_eq_some_iff] at h
    obtain ⟨bs, hbs, h⟩ := h
    cases h
    exact List.Forall₂.cons hb (ih hbs)

lemma exists_getElem_of_forall₂ {α β : Type} {R : α → β → Prop} {l : List α} {l' : List β}
    (h : List.Forall₂ R l l') {k : Nat} {a : α} (ha : l[k]? = some a) :
    ∃ b, l'[k]? = some b ∧ R a b := by
  induction h generalizing k with
  | nil => simp at ha
  | @cons a' b' l l' hab _ ih =>
    cases k with
    | zero =>
      obtain rfl : a' = a := by simpa using ha
      exact ⟨b', rfl, hab⟩
    | succ k => exact ih (by simpa using ha)

lemma slideRange_spec {adjusts : Nlist w → Bool} {first count : Nat}
    {symbolTable symbolTable' : List (Nlist w)}
    (h : image.slideRange adjusts first count symbolTable = some symbolTable') {k : Nat}
    {entry : Nlist w} (hk : symbolTable[k]? = some entry) :
    ∃ entry', symbolTable'[k]? = some entry' ∧
      (InRange first count k ∧ adjusts entry = true → image.slideEntry entry = some entry') ∧
      (¬(InRange first count k ∧ adjusts entry = true) → entry' = entry) := by
  have hzip : symbolTable.zipIdx[k]? = some (entry, k) := by
    simp [List.getElem?_zipIdx, hk]
  obtain ⟨entry', hget, hentry⟩ := exists_getElem_of_forall₂ (forall₂_of_mapM h) hzip
  refine ⟨entry', hget, ?_, ?_⟩
  · intro hin
    rwa [if_pos ⟨hin.1.1, hin.1.2, hin.2⟩] at hentry
  · intro hout
    rw [if_neg (fun hin => hout ⟨⟨hin.1, hin.2.1⟩, hin.2.2⟩)] at hentry
    exact (Option.some.inj hentry).symm

/-! ### Slides -/

section Slides

variable {image}

lemma slideForOrigAddress_of_inSegment (h : image.Movable) {seg : SegCmd} {addr : BitVec 64}
    (hseg : image.InSegment seg addr) : image.slideForOrigAddress addr = some (slideOf seg) :=
  slideForOrigAddress_eq h.disjoint (List.mem_map_of_mem hseg.1) hseg.2

lemma exists_segment (hmask : image.maskPointers = false) {addr slide : BitVec 64}
    (h : image.slideForOrigAddress addr = some slide) :
    ∃ seg, image.InSegment seg addr ∧ slideOf seg = slide := by
  rw [slideForOrigAddress, Adjustor.slideForOrigAddress] at h
  cases hseg : image.adjustor.segmentSlide addr with
  | none =>
    rw [hseg] at h
    simp [adjustor, hmask] at h
  | some s =>
    rw [hseg] at h
    obtain rfl := Option.some.inj h
    obtain ⟨t, ht, rfl⟩ := Option.map_eq_some_iff.mp hseg
    obtain ⟨seg, hmem, rfl⟩ := List.mem_map.mp (List.mem_of_find?_eq_some ht)
    have hin := List.find?_some ht
    exact ⟨seg, ⟨hmem, (of_decide_eq_true hin : Contains _ addr)⟩, rfl⟩

lemma textSlide (h : image.Movable) {slide : BitVec 64}
    (hslide : image.slideForOrigAddress image.origTextAddress = some slide) :
    slide = image.newTextAddress - image.origTextAddress := by
  cases hsegs : image.segCmds with
  | nil => simp [slideForOrigAddress, Adjustor.slideForOrigAddress, Adjustor.segmentSlide, adjustor,
      hsegs] at hslide
  | cons seg segCmds =>
    have horig : image.origTextAddress = seg.vmaddr := by simp [origTextAddress, hsegs]
    have hnew : image.newTextAddress = seg.dstCacheUnslidAddress := by simp [newTextAddress, hsegs]
    have hin := h.header seg (by simp [hsegs])
    rw [horig, slideForOrigAddress_of_inSegment h hin] at hslide
    rw [horig, hnew, ← Option.some.inj hslide, slideOf]

lemma slideEntry_value (h : image.Movable) {entry entry' : Nlist w} {seg : SegCmd}
    (hseg : image.InSegment seg (entry.n_value.setWidth 64))
    (hslide : image.slideEntry entry = some entry') :
    entry' = { entry with n_value := (entry.n_value.setWidth 64 + slideOf seg).setWidth w } := by
  rw [slideEntry, slideForOrigAddress_of_inSegment h hseg] at hslide
  exact (Option.some.inj hslide).symm

end Slides

/-! ### When the tables follow -/

section Follow

variable {image}

/-- The location of a relocation before and after, which differ by the base address too much. -/
lemma adjustRelocation_spec (h : image.Movable) {r r' : BitVec 32} {seg : SegCmd}
    (hseg : image.InSegment seg (image.externalRelocBaseAddress + r.signExtend 64))
    (hr : image.adjustRelocation r = some r') :
    image.newTextAddress + r'.signExtend 64 = r.signExtend 64 + slideOf seg := by
  rw [adjustRelocation, slideForOrigAddress_of_inSegment h hseg, Option.bind_eq_bind,
    Option.bind_some] at hr
  dsimp only at hr
  split_ifs at hr with hassert
  rw [← Option.some.inj hr, hassert]
  bv_omega

lemma relocation_in_segment (h : image.Movable) (hbase : image.externalRelocBaseAddress ≠ 0)
    {r r' : BitVec 32} (hr : image.adjustRelocation r = some r') :
    ∃ seg, image.InSegment seg (image.externalRelocBaseAddress + r.signExtend 64) := by
  have hx86 : image.isX86_64 = true := by
    by_contra hx
    exact hbase (by simp [externalRelocBaseAddress, hx])
  have hmask : image.maskPointers = false := by
    by_contra hm
    rw [h.masked (by simpa using hm)] at hx86
    cases hx86
  rw [adjustRelocation, Option.bind_eq_bind, Option.bind_eq_some_iff] at hr
  obtain ⟨slide, hslide, -⟩ := hr
  obtain ⟨seg, hseg, -⟩ := exists_segment hmask hslide
  exact ⟨seg, hseg⟩

lemma relocationsFollow_iff (h : image.Movable) {r_address : List (BitVec 32)}
    (hrun : image.adjustExternalRelocations = some r_address) :
    image.RelocationsFollow r_address ↔
      image.dynSymTabCmd = none ∨ image.externalRelocBaseAddress = 0 ∨ image.r_address = [] := by
  rw [adjustExternalRelocations] at hrun
  cases hcmd : image.dynSymTabCmd with
  | none => simp [RelocationsFollow, hcmd]
  | some cmd =>
    rw [hcmd] at hrun
    have hall := forall₂_of_mapM hrun
    simp only [RelocationsFollow, hcmd, reduceCtorEq, not_false_eq_true, ne_eq, forall_const,
      false_or]
    constructor
    · intro hfollow
      by_contra hne
      rw [not_or] at hne
      obtain ⟨hbase, hnil⟩ := hne
      obtain ⟨r, l, hl⟩ := List.exists_cons_of_ne_nil hnil
      have hr : image.r_address[0]? = some r := by simp [hl]
      obtain ⟨r', hr', hadjust⟩ := exists_getElem_of_forall₂ hall hr
      obtain ⟨seg, hseg⟩ := relocation_in_segment h hbase hadjust
      obtain ⟨r'', hr'', hmoved⟩ := hfollow 0 r hr seg hseg
      rw [hr'] at hr''
      obtain rfl := Option.some.inj hr''
      rw [adjustRelocation_spec h hseg hadjust] at hmoved
      apply hbase
      bv_omega
    · intro hbase k r hr seg hseg
      obtain ⟨r', hr', hadjust⟩ := exists_getElem_of_forall₂ hall hr
      refine ⟨r', hr', ?_⟩
      rw [adjustRelocation_spec h hseg hadjust]
      rcases hbase with hbase | hnil
      · rw [hbase]
        bv_omega
      · simp [hnil] at hr

lemma exportsFollow (h : image.Movable) {newExports : List Export}
    (hrun : image.adjustExportsTrie = some newExports) : image.ExportsFollow newExports := by
  intro originalExports hexports
  rw [adjustExportsTrie, hexports] at hrun
  dsimp only at hrun
  rw [Option.bind_eq_bind, Option.bind_eq_some_iff] at hrun
  obtain ⟨baseAddressSlide, hbase, hrun⟩ := hrun
  have hbase' := textSlide h hbase
  refine (forall₂_of_mapM hrun).imp ?_
  intro entry entry' hentry
  rw [adjustExport] at hentry
  split_ifs at hentry with habsolute
  · obtain rfl := Option.some.inj hentry
    exact ⟨rfl, fun hfalse => by rw [habsolute] at hfalse; cases hfalse⟩
  · rw [Option.bind_eq_bind, Option.bind_eq_some_iff] at hentry
    obtain ⟨slide, hslide, hentry⟩ := hentry
    obtain rfl := Option.some.inj hentry
    refine ⟨rfl, ?_⟩
    intro _ seg hseg
    rw [BitVec.add_comm, slideForOrigAddress_of_inSegment h hseg] at hslide
    rw [← Option.some.inj hslide, hbase']
    change image.newTextAddress + (entry.2.address.toBitVec +
      (slideOf seg - (image.newTextAddress - image.origTextAddress))) = _
    ring

lemma setWidth_add_slide (hw : w ≤ 64) (v : BitVec w) (slide : BitVec 64) :
    (v.setWidth 64 + slide).setWidth w = v + slide.setWidth w := by
  rw [BitVec.setWidth_add _ _ hw, BitVec.setWidth_setWidth_of_le _ hw, BitVec.setWidth_eq]

lemma entry_follows_iff (h : image.Movable) (hw : w ≤ 64) {cmd : DysymtabCommand}
    {globals symbolTable : List (Nlist w)}
    (hglobals : image.slideRange isSect cmd.iextdefsym cmd.nextdefsym image.symbolTable = some globals)
    (hlocals : image.slideRange isSectionLocal cmd.ilocalsym cmd.nlocalsym globals =
      some symbolTable) {k : Nat} {entry : Nlist w} (hk : image.symbolTable[k]? = some entry)
    {seg : SegCmd} (hseg : image.InSegment seg (entry.n_value.setWidth 64))
    (hmoves : InRange cmd.iextdefsym cmd.nextdefsym k ∧ isSect entry = true ∨
      InRange cmd.ilocalsym cmd.nlocalsym k ∧ isSectionLocal entry = true) :
    ∃ entry', symbolTable[k]? = some entry' ∧
      (entry'.n_value = entry.n_value + (slideOf seg).setWidth w ↔
        (InRange cmd.iextdefsym cmd.nextdefsym k ∧ isSect entry = true →
          InRange cmd.ilocalsym cmd.nlocalsym k ∧ isSectionLocal entry = true → ∀ slide,
            image.slideForOrigAddress ((entry.n_value + (slideOf seg).setWidth w).setWidth 64) =
              some slide → slide.setWidth w = 0)) := by
  obtain ⟨e₁, he₁, hmoved, hkept⟩ := image.slideRange_spec hglobals hk
  obtain ⟨e₂, he₂, hmoved', hkept'⟩ := image.slideRange_spec hlocals he₁
  refine ⟨e₂, he₂, ?_⟩
  by_cases hG : InRange cmd.iextdefsym cmd.nextdefsym k ∧ isSect entry = true
  · have hvalue := slideEntry_value h hseg (hmoved hG)
    rw [setWidth_add_slide hw] at hvalue
    have hsame : isSectionLocal e₁ = isSectionLocal entry := by rw [hvalue]; rfl
    by_cases hL : InRange cmd.ilocalsym cmd.nlocalsym k ∧ isSectionLocal entry = true
    · -- both loops: the second one adds the slide of the moved address
      have hsecond := hmoved' ⟨hL.1, hsame.trans hL.2⟩
      rw [slideEntry, Option.bind_eq_bind, Option.bind_eq_some_iff] at hsecond
      obtain ⟨slide, hslide, hsecond⟩ := hsecond
      rw [← Option.some.inj hsecond]
      simp only [hvalue] at hslide ⊢
      rw [setWidth_add_slide hw]
      constructor
      · intro heq _ _ slide' hslide'
        rw [hslide] at hslide'
        rw [← Option.some.inj hslide']
        exact left_eq_add.mp heq.symm
      · intro hzero
        rw [hzero hG hL slide hslide, add_zero]
    · have heq := hkept' (fun hin => hL ⟨hin.1, hsame.symm.trans hin.2⟩)
      rw [heq, hvalue]
      exact iff_of_true rfl (fun _ hlocal => absurd hlocal hL)
  · have heq := hkept hG
    subst heq
    have hvalue := slideEntry_value h hseg (hmoved' (hmoves.resolve_left hG))
    rw [setWidth_add_slide hw] at hvalue
    rw [hvalue]
    exact iff_of_true rfl (fun hglobal => absurd hglobal hG)

lemma symbolsFollow_iff (h : image.Movable) (hw : w ≤ 64) {symbolTable : List (Nlist w)}
    (hrun : image.adjustSymbolTable = some symbolTable) :
    image.SymbolsFollow symbolTable ↔ image.SlidOnce := by
  rw [adjustSymbolTable] at hrun
  cases hcmd : image.dynSymTabCmd with
  | none => simp [SymbolsFollow, SlidOnce, IsGlobal, IsLocal, hcmd]
  | some cmd =>
    rw [hcmd] at hrun
    dsimp only at hrun
    rw [Option.bind_eq_bind, Option.bind_eq_some_iff] at hrun
    obtain ⟨globals, hglobals, hlocals⟩ := hrun
    have hglobal : ∀ k entry, image.IsGlobal k entry ↔
        InRange cmd.iextdefsym cmd.nextdefsym k ∧ isSect entry = true := by
      simp [IsGlobal, hcmd]
    have hlocal : ∀ k entry, image.IsLocal k entry ↔
        InRange cmd.ilocalsym cmd.nlocalsym k ∧ isSectionLocal entry = true := by
      simp [IsLocal, hcmd]
    constructor
    · intro hfollow k entry hk hG hL seg hseg
      obtain ⟨e, he, hiff⟩ := entry_follows_iff h hw hglobals hlocals hk hseg
        (Or.inl ((hglobal k entry).mp hG))
      obtain ⟨e', he', hvalue⟩ := hfollow k entry hk (Or.inl hG) seg hseg
      rw [he] at he'
      obtain rfl := Option.some.inj he'
      exact hiff.mp hvalue ((hglobal k entry).mp hG) ((hlocal k entry).mp hL)
    · intro honce k entry hk hmoves seg hseg
      rw [hglobal, hlocal] at hmoves
      obtain ⟨e, he, hiff⟩ := entry_follows_iff h hw hglobals hlocals hk hseg hmoves
      refine ⟨e, he, hiff.mpr ?_⟩
      intro hG hL
      exact honce k entry hk ((hglobal k entry).mpr hG) ((hlocal k entry).mpr hL) seg hseg

end Follow

end Image

/-- Where the three functions end without an error, the tables name the bytes that they named
before exactly if external relocations count from address 0, or there are none, and no entry of the
symbol table is moved twice. -/
theorem tables_follow_iff {w : Nat} (hw : w ≤ 64) (image : Image w) (h : image.Movable)
    (adjusted : Adjusted w) (hrun : image.adjust = some adjusted) :
    image.TablesFollow adjusted ↔
      (image.dynSymTabCmd = none ∨ image.externalRelocBaseAddress = 0 ∨ image.r_address = []) ∧
        image.SlidOnce := by
  rw [Image.adjust, Option.bind_eq_bind, Option.bind_eq_some_iff] at hrun
  obtain ⟨symbolTable, hsymbols, hrun⟩ := hrun
  rw [Option.bind_eq_bind, Option.bind_eq_some_iff] at hrun
  obtain ⟨r_address, hrelocations, hrun⟩ := hrun
  rw [Option.bind_eq_bind, Option.bind_eq_some_iff] at hrun
  obtain ⟨newExports, hexports, hrun⟩ := hrun
  obtain rfl := Option.some.inj hrun
  rw [Image.TablesFollow, Image.symbolsFollow_iff h hw hsymbols,
    Image.relocationsFollow_iff h hrelocations,
    iff_true_intro (Image.exportsFollow h hexports), and_true, and_comm]

/-! ### Two segments -/

/-- A dylib with one symbol, one export and one external relocation, all in its data. -/
def twoSegments (isX86_64 : Bool) (r_address : BitVec 32) : Image 64 where
  segCmds := [⟨0, 0x4000, 5, 0x7fff20000000⟩, ⟨0x4000, 0x4000, 3, 0x7fff40000000⟩]
  isX86_64 := isX86_64
  isKextBundle := false
  buildingAppCacheUtil := false
  maskPointers := !isX86_64
  dynSymTabCmd := some { ilocalsym := 0, nlocalsym := 0, iextdefsym := 0, nextdefsym := 1 }
  symbolTable := [⟨1, 0x0f, 2, 0, 0x4010⟩]
  r_address := [r_address]
  exports := some (some [("_x".toUTF8.toList, ⟨0x4010, 0, 0, []⟩)])

lemma twoSegments_movable (isX86_64 : Bool) (r_address : BitVec 32) :
    (twoSegments isX86_64 r_address).Movable where
  disjoint := by
    simp only [Adjustor.DisjointSegments, Image.adjustor, twoSegments, List.map_cons, List.map_nil,
      List.pairwise_cons, List.mem_singleton, forall_eq, List.not_mem_nil, false_imp_iff,
      implies_true, List.Pairwise.nil, and_true]
    rintro addr ⟨⟨-, h⟩, ⟨h', -⟩⟩
    bv_omega
  header seg hseg := by
    obtain rfl : _ = seg := by simpa [twoSegments] using hseg
    exact ⟨by simp [twoSegments], by decide, by decide⟩
  masked := by simp [twoSegments]

/-- The tables of the dylib for arm64. -/
def movedTables : Adjusted 64 :=
  ⟨[⟨1, 0x0f, 2, 0, 0x7fff40000010⟩], [0x20000010], [("_x".toUTF8.toList, ⟨0x20000010, 0, 0, []⟩)]⟩

theorem tables_follow_twoSegments : (twoSegments false 0x4010).TablesFollow movedTables := by
  have hrun : (twoSegments false 0x4010).adjust = some movedTables := by decide +kernel
  apply (tables_follow_iff (by decide) _ (twoSegments_movable _ _) movedTables hrun).mpr
  refine ⟨Or.inr (Or.inl rfl), ?_⟩
  intro k entry hk _ hlocal
  obtain ⟨cmd, hcmd, hin, -⟩ := hlocal
  obtain rfl : _ = cmd := Option.some.inj hcmd
  exact absurd hin.2 (Nat.not_lt.mpr (Nat.zero_le k))

/-- On x86_64 the relocation counts from the data segment, and the new one names another byte. -/
theorem not_follow_twoSegments :
    ∃ adjusted, (twoSegments true 0x10).Movable ∧
      (twoSegments true 0x10).adjust = some adjusted ∧
      ¬(twoSegments true 0x10).TablesFollow adjusted := by
  refine ⟨⟨[⟨1, 0x0f, 2, 0, 0x7fff40000010⟩], [0x1fffc010],
    [("_x".toUTF8.toList, ⟨0x20000010, 0, 0, []⟩)]⟩, twoSegments_movable _ _, by decide +kernel, ?_⟩
  rintro ⟨-, hrelocations, -⟩
  obtain ⟨r, hr, hmoved⟩ := hrelocations (by decide) 0 0x10 rfl
    ⟨0x4000, 0x4000, 3, 0x7fff40000000⟩ ⟨by decide, by decide, by decide⟩
  obtain rfl : _ = r := Option.some.inj hr
  exact absurd hmoved (by decide)

end Dyld.Cache.Tables
