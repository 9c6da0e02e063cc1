import Dyld.Closure.Interposing
import Dyld.Lib.LastWrite
import Dyld.MachO.BindTargets

/-!
# Collecting the interposing tuples

`ClosureBuilder::addInterposingTuples` goes through the fixups of an image once for each of its
interposing sections and keeps in a slot for each entry what the entry is rebased and bound to. An
entry is a replacement, which is rebased, and behind it a replacee, which is bound.
-/

namespace Dyld.Closure.InterposingTuples

open Dyld.Lib Dyld.Chained ResolvedTarget Interposing
open Dyld.MachO.BindTargets (ChainedPointer)

/-! ### The interposing sections of an image -/

inductive InterposingError
  | badSize (segName sectName : String)
  | beyondSegment (segName sectName : String)
  | notPointerAligned (segName sectName : String)
  | bindOrdinalOutOfRange (bindOrdinal count : Nat)
  deriving DecidableEq, Repr

/-- What `forEachSection` says about a section. -/
structure SectionInfo where
  segName : String
  sectName : String
  sectFlags : UInt32
  sectAddr : UInt64
  sectSize : UInt64
  malformedSectionRange : Bool

/-- A section as `addInterposingTuples` gets it. -/
structure InterposingSection where
  sectVmOffset : UInt64
  sectVmSize : UInt64

/-- What `addInterposingTuples` reads of an image and of its file: `content` is the mapped file, and
`chains` has the pointers that are walked through, of each segment. -/
structure InterposingImage where
  imageNum : Nat
  is64 : Bool
  preferredLoadAddress : BitVec 64
  sections : List SectionInfo
  content : Mem
  rebases : List UInt64
  binds : List (UInt64 × ResolvedSymbolTarget)
  chainedTargets : List ResolvedSymbolTarget
  chains : List (List ChainedPointer)

namespace InterposingImage

variable (image : InterposingImage)

def pointerSize : UInt32 := if image.is64 then 8 else 4

def entrySize : UInt32 := 2 * image.pointerSize

end InterposingImage

/-! ### The slots of a section -/

/-- `isTupleFixup`: the `tupleIndex` when it returns true. -/
def isTupleFixup (tupleSectVmStartOffset tupleSectVmEndOffset imageOffsetOfFixup : UInt64)
    (entrySize : UInt32) : Option UInt32 :=
  if imageOffsetOfFixup < tupleSectVmStartOffset then none
  else if imageOffsetOfFixup > tupleSectVmEndOffset then none
  else
    let offsetIntoSection := imageOffsetOfFixup - tupleSectVmStartOffset
    let tupleIndex := (offsetIntoSection / entrySize.toUInt64).toUInt32
    if (tupleIndex * entrySize).toUInt64 = offsetIntoSection ∨
        (tupleIndex * entrySize + entrySize / 2).toUInt64 = offsetIntoSection then
      some tupleIndex
    else none

def absoluteZero : ResolvedSymbolTarget :=
  setField (setField 0 0 2 Kinds.kindAbsolute.value) 2 62 0

def setImage (target : ResolvedSymbolTarget) (imageNum : Nat) (offset : BitVec 64) :
    ResolvedSymbolTarget :=
  setField (setField (setField target 0 2 Kinds.kindImage.value) 2 22 imageNum) 24 40 offset.toNat

structure Slots where
  resolvedTuples : List InterposingTuple
  written : List Nat
  diag : List InterposingError

namespace Slots

variable (slots : Slots)

def update (tupleIndex : UInt32) (f : InterposingTuple → InterposingTuple) : Slots :=
  { slots with
    resolvedTuples := slots.resolvedTuples.modify tupleIndex.toNat f
    written := slots.written ++ [tupleIndex.toNat] }

def setNew (tupleIndex : UInt32) (imageNum : Nat) (offset : BitVec 64) : Slots :=
  slots.update tupleIndex (fun tuple =>
    { tuple with newImplementation := setImage tuple.newImplementation imageNum offset })

def setStock (tupleIndex : UInt32) (target : ResolvedSymbolTarget) : Slots :=
  slots.update tupleIndex (fun tuple => { tuple with stockImplementation := target })

end Slots

namespace InterposingImage

variable (image : InterposingImage) (sect : InterposingSection)

def tupleCount : UInt32 := (sect.sectVmSize / image.entrySize.toUInt64).toUInt32

def tupleIndex (imageOffsetOfFixup : UInt64) : Option UInt32 :=
  isTupleFixup sect.sectVmOffset (sect.sectVmOffset + sect.sectVmSize) imageOffsetOfFixup
    image.entrySize

/-- What a location of the file holds. -/
def unslidTargetAddress (imageOffset : UInt64) : BitVec 64 :=
  if image.is64 then load 8 image.content imageOffset.toNat
  else (load 4 image.content imageOffset.toNat).setWidth 64

/-- The `rebase` block. -/
def rebase (slots : Slots) (imageOffsetToRebase : UInt64) : Slots :=
  match image.tupleIndex sect imageOffsetToRebase with
  | none => slots
  | some tupleIndex =>
    slots.setNew tupleIndex image.imageNum
      (image.unslidTargetAddress imageOffsetToRebase - image.preferredLoadAddress)

/-- The `bind` block. -/
def bind (slots : Slots) (fixup : UInt64 × ResolvedSymbolTarget) : Slots :=
  match image.tupleIndex sect fixup.1 with
  | none => slots
  | some tupleIndex => slots.setStock tupleIndex fixup.2

def chainedFixup (w : ChainedPointer) (slots : Slots) : Slots × Bool :=
  match image.tupleIndex sect w.fixupOffset with
  | none => (slots, false)
  | some tupleIndex =>
    match w.fixupLoc.isBind w.pointer_format with
    | some (bindOrdinal, _) =>
      match image.chainedTargets[bindOrdinal]? with
      | some target => (slots.setStock tupleIndex target, false)
      | none =>
        ({ slots with diag := slots.diag ++
            [.bindOrdinalOutOfRange bindOrdinal image.chainedTargets.length] }, true)
    | none =>
      match w.fixupLoc.isRebase w.pointer_format image.preferredLoadAddress with
      | some rebaseTargetOffset => (slots.setNew tupleIndex image.imageNum rebaseTargetOffset, false)
      | none => (slots, false)

/-- `forEachFixupInAllChains`: leaving the chains of one segment does not leave those of the next. -/
def forEachFixupInAllChains (slots : Slots) : Slots :=
  image.chains.foldl (fun slots pointers =>
    (runBody (image.chainedFixup sect) pointers slots).1) slots

def resolveTuples : Slots :=
  let slots : Slots :=
    ⟨List.replicate (image.tupleCount sect).toNat ⟨absoluteZero, absoluteZero⟩, [], []⟩
  let slots := image.rebases.foldl (image.rebase sect) slots
  let slots := image.binds.foldl (image.bind sect) slots
  image.forEachFixupInAllChains sect slots

end InterposingImage

/-- Neither side is absolute. -/
def isGood (tuple : InterposingTuple) : Bool :=
  getField tuple.stockImplementation 0 2 ≠ Kinds.kindAbsolute.value &&
    getField tuple.newImplementation 0 2 ≠ Kinds.kindAbsolute.value

def Slots.goodTuples (slots : Slots) (tupleCount : Nat) : List (InterposingTuple × Nat) :=
  filled tupleCount (fun i => slots.resolvedTuples[i]?.filter isGood)

/-! ### Patches for the dyld cache -/

/-- `dyld_cache_image_text_info`. -/
structure ImageText where
  loadAddress : UInt64
  textSegmentSize : UInt32

structure DyldCache where
  address : UInt64
  size : UInt64
  imagesText : List ImageText

def DyldCache.addressInText (cache : DyldCache) (cacheOffset : UInt32) : Option Nat :=
  if cacheOffset.toUInt64 > cache.size then none
  else
    let targetAddr := cache.address + cacheOffset.toUInt64
    cache.imagesText.findIdx? (fun p =>
      p.loadAddress ≤ targetAddr && targetAddr < p.loadAddress + p.textSegmentSize.toUInt64)

/-- `(uint32_t)aTuple.stockImplementation.sharedCache.offset`. -/
def cacheOffset (aTuple : InterposingTuple) : UInt32 :=
  UInt32.ofNat (getField aTuple.stockImplementation 2 62)

def isCachePatch (aTuple : InterposingTuple) : Bool :=
  getField aTuple.stockImplementation 0 2 = Kinds.kindSharedCache.value

/-- The patch for a replacee in the dyld cache; `none` is the failed assertion of `addressInText`. -/
def DyldCache.patch (cache : DyldCache) (aTuple : InterposingTuple) : Option PatchEntry :=
  (cache.addressInText (cacheOffset aTuple)).map (fun imageIndex =>
    ⟨imageIndex + 1, cacheOffset aTuple, aTuple.newImplementation⟩)

def DyldCache.patches (cache : DyldCache) (goodTuples : List InterposingTuple) :
    Option (List PatchEntry) :=
  (goodTuples.filter isCachePatch).mapM cache.patch

/-! ### The builder -/

structure Builder where
  closure : LaunchClosure
  cachePatches : List (List PatchEntry)
  interposingTuplesUsed : Bool
  diag : List InterposingError

/-- A fixup that the blocks are called with. -/
inductive Fixup
  | rebase (imageOffset : UInt64) (targetOffset : BitVec 64)
  | bind (imageOffset : UInt64) (target : ResolvedSymbolTarget)

namespace Fixup

def imageOffset : Fixup → UInt64
  | rebase imageOffset _ => imageOffset
  | bind imageOffset _ => imageOffset

def rebaseAt (locations : UInt64 → Prop) [DecidablePred locations] : Fixup → Option (BitVec 64)
  | rebase imageOffset targetOffset => if locations imageOffset then some targetOffset else none
  | bind _ _ => none

def bindAt (locations : UInt64 → Prop) [DecidablePred locations] :
    Fixup → Option ResolvedSymbolTarget
  | rebase _ _ => none
  | bind imageOffset target => if locations imageOffset then some target else none

end Fixup

namespace InterposingImage

variable (image : InterposingImage) (sect : InterposingSection)

def chainFixups : List ChainedPointer → List Fixup
  | [] => []
  | w :: rest =>
    match image.tupleIndex sect w.fixupOffset with
    | none => chainFixups rest
    | some _ =>
      match w.fixupLoc.isBind w.pointer_format with
      | some (bindOrdinal, _) =>
        match image.chainedTargets[bindOrdinal]? with
        | some target => .bind w.fixupOffset target :: chainFixups rest
        | none => []
      | none =>
        match w.fixupLoc.isRebase w.pointer_format image.preferredLoadAddress with
        | some targetOffset => .rebase w.fixupOffset targetOffset :: chainFixups rest
        | none => chainFixups rest

def fixups : List Fixup :=
  image.rebases.map (fun imageOffset =>
      .rebase imageOffset (image.unslidTargetAddress imageOffset - image.preferredLoadAddress)) ++
    image.binds.map (fun fixup => .bind fixup.1 fixup.2) ++
    image.chains.flatMap (image.chainFixups sect)

/-- The number of whole entries. -/
def entryCount : Nat := sect.sectVmSize.toNat / image.entrySize.toNat

def replacementOffset (i : Nat) : UInt64 :=
  sect.sectVmOffset + UInt64.ofNat (i * image.entrySize.toNat)

def replaceeOffset (i : Nat) : UInt64 := image.replacementOffset sect i + image.pointerSize.toUInt64

def pairOf (rebased bound : UInt64 → Prop) [DecidablePred rebased] [DecidablePred bound] :
    Option InterposingTuple :=
  match lastSome (Fixup.bindAt bound) (image.fixups sect),
    lastSome (Fixup.rebaseAt rebased) (image.fixups sect) with
  | some target, some offset =>
    if getField target 0 2 ≠ Kinds.kindAbsolute.value then
      some ⟨target, setImage 0 image.imageNum offset⟩
    else none
  | _, _ => none

def pair (i : Nat) : Option InterposingTuple :=
  image.pairOf sect (· = image.replacementOffset sect i) (· = image.replaceeOffset sect i)

end InterposingImage

section TupleIndex

variable {image : InterposingImage} {sect : InterposingSection}

lemma isTupleFixup_eq_some_iff {start stop imageOffset : UInt64} {entrySize i : UInt32}
    (h : entrySize = 8 ∨ entrySize = 16) :
    isTupleFixup start stop imageOffset entrySize = some i ↔
      start.toNat ≤ imageOffset.toNat ∧ imageOffset.toNat ≤ stop.toNat ∧
        imageOffset.toNat - start.toNat < 2 ^ 32 ∧
          (imageOffset.toNat - start.toNat = i.toNat * entrySize.toNat ∨
            imageOffset.toNat - start.toNat = i.toNat * entrySize.toNat + entrySize.toNat / 2) := by
  rw [isTupleFixup]
  by_cases hstart : imageOffset < start
  · rw [if_pos hstart]
    rw [UInt64.lt_iff_toNat_lt] at hstart
    simp [Nat.not_le.mpr hstart]
  by_cases hstop : imageOffset > stop
  · rw [if_neg hstart, if_pos hstop]
    rw [gt_iff_lt, UInt64.lt_iff_toNat_lt] at hstop
    simp [Nat.not_le.mpr hstop]
  rw [if_neg hstart, if_neg hstop]
  dsimp only
  rw [UInt64.lt_iff_toNat_lt, Nat.not_lt] at hstart
  rw [gt_iff_lt, UInt64.lt_iff_toNat_lt, Nat.not_lt] at hstop
  have hoff : (imageOffset - start).toNat = imageOffset.toNat - start.toNat :=
    UInt64.toNat_sub_of_le _ _ (UInt64.le_iff_toNat_le.mpr hstart)
  have hlt := (imageOffset - start).toNat_lt
  have hi := i.toNat_lt
  simp only [hstart, hstop, true_and, ← hoff, ← UInt64.toNat_inj, Option.ite_none_right_eq_some,
    Option.some.injEq, ← UInt32.toNat_inj]
  generalize imageOffset - start = d at *
  -- the products are taken in 32 bits
  obtain rfl | rfl := h
  all_goals
    simp only [UInt64.toNat_toUInt32, UInt64.toNat_div, UInt32.toNat_toUInt64, UInt32.toNat_mul,
      UInt32.toNat_add, UInt32.toNat_div, UInt32.reduceToNat]
    omega

lemma entrySize_cases (image : InterposingImage) :
    image.entrySize = 8 ∧ image.pointerSize = 4 ∨ image.entrySize = 16 ∧ image.pointerSize = 8 := by
  rw [InterposingImage.entrySize, InterposingImage.pointerSize]
  cases image.is64 with
  | false => exact Or.inl ⟨rfl, rfl⟩
  | true => exact Or.inr ⟨rfl, rfl⟩

/-- The slot that a fixup is written to. -/
def InterposingImage.slotOf (image : InterposingImage) (sect : InterposingSection)
    (imageOffset : UInt64) : Option Nat :=
  (image.tupleIndex sect imageOffset).map UInt32.toNat

lemma slotOf_eq_some_iff {imageOffset : UInt64} {i : Nat} :
    image.slotOf sect imageOffset = some i ↔
      sect.sectVmOffset.toNat ≤ imageOffset.toNat ∧
        imageOffset.toNat ≤ (sect.sectVmOffset + sect.sectVmSize).toNat ∧
          imageOffset.toNat - sect.sectVmOffset.toNat < 2 ^ 32 ∧
            (imageOffset.toNat - sect.sectVmOffset.toNat = i * image.entrySize.toNat ∨
              imageOffset.toNat - sect.sectVmOffset.toNat =
                i * image.entrySize.toNat + image.entrySize.toNat / 2) := by
  have hsize : image.entrySize = 8 ∨ image.entrySize = 16 := 
    (entrySize_cases image).imp And.left And.left
  rw [InterposingImage.slotOf, Option.map_eq_some_iff]
  constructor
  · rintro ⟨k, hk, rfl⟩
    exact (isTupleFixup_eq_some_iff hsize).mp hk
  · intro h
    have hi : i < 2 ^ 32 := by
      obtain ⟨-, -, hlt, hword⟩ := h
      obtain hsize | hsize := hsize <;> simp only [hsize, UInt32.reduceToNat] at hword <;> omega
    refine ⟨UInt32.ofNat i, (isTupleFixup_eq_some_iff hsize).mpr ?_, UInt32.toNat_ofNat_of_lt' hi⟩
    rw [UInt32.toNat_ofNat_of_lt' hi]
    exact h

section Words

variable {i : Nat} (hi : i < image.entryCount sect)
  (hwrap : sect.sectVmOffset.toNat + sect.sectVmSize.toNat < 2 ^ 64)
include hi hwrap

end Words

end TupleIndex

/-! ### The slots after the fixups -/

section Fixups

variable (image : InterposingImage) (sect : InterposingSection)

def InterposingImage.applyFixup (slots : Slots) (fixup : Fixup) : Slots :=
  match image.tupleIndex sect fixup.imageOffset with
  | none => slots
  | some tupleIndex =>
    match fixup with
    | .rebase _ targetOffset => slots.setNew tupleIndex image.imageNum targetOffset
    | .bind _ target => slots.setStock tupleIndex target

lemma foldl_applyFixup_diag (fixups : List Fixup) (slots : Slots) (diag : List InterposingError) :
    fixups.foldl (image.applyFixup sect) { slots with diag := diag } =
      { fixups.foldl (image.applyFixup sect) slots with diag := diag } := by
  refine List.foldl_hom (fun s : Slots => (⟨s.resolvedTuples, s.written, diag⟩ : Slots)) fun slots fixup => ?_
  rw [InterposingImage.applyFixup, InterposingImage.applyFixup]
  cases image.tupleIndex sect fixup.imageOffset with
  | none => rfl
  | some tupleIndex => cases fixup <;> rfl

lemma runBody_chainedFixup (pointers : List ChainedPointer) (slots : Slots) :
    ∃ diag, (runBody (image.chainedFixup sect) pointers slots).1 =
      { (image.chainFixups sect pointers).foldl (image.applyFixup sect) slots with diag := diag } := by
  induction pointers generalizing slots with
  | nil => exact ⟨slots.diag, rfl⟩
  | cons w rest ih =>
    rw [runBody_cons, InterposingImage.chainFixups, InterposingImage.chainedFixup]
    cases hindex : image.tupleIndex sect w.fixupOffset with
    | none => exact ih slots
    | some tupleIndex =>
      cases w.fixupLoc.isBind w.pointer_format with
      | some bind =>
        obtain ⟨bindOrdinal, addend⟩ := bind
        cases htarget : image.chainedTargets[bindOrdinal]? with
        | none =>
          simp only [htarget]
          exact ⟨_, rfl⟩
        | some target =>
          simp only [htarget]
          obtain ⟨diag, hrest⟩ := ih (slots.setStock tupleIndex target)
          refine ⟨diag, hrest.trans ?_⟩
          rw [List.foldl_cons, InterposingImage.applyFixup, Fixup.imageOffset, hindex]
      | none =>
        dsimp only
        cases w.fixupLoc.isRebase w.pointer_format image.preferredLoadAddress with
        | none => exact ih slots
        | some targetOffset =>
          obtain ⟨diag, hrest⟩ := ih (slots.setNew tupleIndex image.imageNum targetOffset)
          refine ⟨diag, hrest.trans ?_⟩
          dsimp only
          rw [List.foldl_cons, InterposingImage.applyFixup, Fixup.imageOffset, hindex]

lemma forEachFixupInAllChains_eq (slots : Slots) :
    ∃ diag, image.forEachFixupInAllChains sect slots =
      { (image.chains.flatMap (image.chainFixups sect)).foldl (image.applyFixup sect) slots with
        diag := diag } := by
  rw [InterposingImage.forEachFixupInAllChains]
  induction image.chains generalizing slots with
  | nil => exact ⟨slots.diag, rfl⟩
  | cons pointers chains ih =>
    obtain ⟨diag, hchain⟩ := runBody_chainedFixup image sect pointers slots
    obtain ⟨diag', hrest⟩ := ih { (image.chainFixups sect pointers).foldl
      (image.applyFixup sect) slots with diag := diag }
    refine ⟨diag', ?_⟩
    rw [List.foldl_cons, hchain, hrest, List.flatMap_cons, List.foldl_append, foldl_applyFixup_diag]

/-- Slots that have not been written to. -/
def InterposingImage.newSlots : Slots :=
  ⟨List.replicate (image.tupleCount sect).toNat ⟨absoluteZero, absoluteZero⟩, [], []⟩

/-- The blocks write what the fixups do, in order. -/
lemma resolveTuples_eq : ∃ diag, image.resolveTuples sect =
    { (image.fixups sect).foldl (image.applyFixup sect) (image.newSlots sect) with diag := diag } := by
  obtain ⟨diag, hchains⟩ := forEachFixupInAllChains_eq image sect
    (image.binds.foldl (image.bind sect) (image.rebases.foldl (image.rebase sect) (image.newSlots sect)))
  refine ⟨diag, hchains.trans ?_⟩
  rw [InterposingImage.fixups, List.foldl_append, List.foldl_append, List.foldl_map, List.foldl_map]
  rfl

end Fixups

section Targets

end Targets

section Reading

variable (image : InterposingImage) (sect : InterposingSection)

lemma length_applyFixup (slots : Slots) (fixup : Fixup) :
    (image.applyFixup sect slots fixup).resolvedTuples.length = slots.resolvedTuples.length := by
  rw [InterposingImage.applyFixup]
  cases image.tupleIndex sect fixup.imageOffset with
  | none => rfl
  | some tupleIndex => cases fixup <;> exact List.length_modify _ _ _

lemma length_foldl (fixups : List Fixup) (slots : Slots) :
    (fixups.foldl (image.applyFixup sect) slots).resolvedTuples.length =
      slots.resolvedTuples.length :=
  List.foldlRecOn (motive := fun s : Slots => s.resolvedTuples.length = slots.resolvedTuples.length) fixups _ rfl
    fun s h fixup _ => (length_applyFixup image sect s fixup).trans h

lemma written_foldl (fixups : List Fixup) (slots : Slots) :
    (fixups.foldl (image.applyFixup sect) slots).written =
      slots.written ++ fixups.filterMap (fun fixup => image.slotOf sect fixup.imageOffset) := by
  induction fixups generalizing slots with
  | nil => simp
  | cons fixup fixups ih =>
    rw [List.foldl_cons, ih, List.filterMap_cons, InterposingImage.applyFixup,
      InterposingImage.slotOf]
    cases image.tupleIndex sect fixup.imageOffset with
    | none => rfl
    | some tupleIndex => cases fixup <;> simp [Slots.setNew, Slots.setStock, Slots.update]

variable {i : Nat} {slots : Slots} (hi : i < slots.resolvedTuples.length)
include hi

end Reading

/-! ### One section -/

section Sections

variable (image : InterposingImage) (sect : InterposingSection)

lemma length_resolveTuples :
    (image.resolveTuples sect).resolvedTuples.length = (image.tupleCount sect).toNat := by
  obtain ⟨diag, hslots⟩ := resolveTuples_eq image sect
  rw [hslots]
  exact (length_foldl image sect _ _).trans List.length_replicate

lemma mem_written_iff {i : Nat} : i ∈ (image.resolveTuples sect).written ↔
    ∃ fixup ∈ image.fixups sect, image.slotOf sect fixup.imageOffset = some i := by
  obtain ⟨diag, hslots⟩ := resolveTuples_eq image sect
  rw [hslots]
  dsimp only
  rw [written_foldl, InterposingImage.newSlots, List.nil_append, List.mem_filterMap]

variable {image sect}

variable (image sect)

/-- No word of the first 4 GiB of the section is fixed up behind the slots, the word at the end of
the section included. -/
def InterposingImage.NothingBehind : Prop :=
  ∀ fixup ∈ image.fixups sect, sect.sectVmOffset ≤ fixup.imageOffset →
    fixup.imageOffset ≤ sect.sectVmOffset + sect.sectVmSize →
      (fixup.imageOffset - sect.sectVmOffset).toNat < 2 ^ 32 →
        (fixup.imageOffset - sect.sectVmOffset).toNat % image.pointerSize.toNat = 0 →
          (fixup.imageOffset - sect.sectVmOffset).toNat <
            (image.tupleCount sect).toNat * image.entrySize.toNat

lemma tupleCount_le : (image.tupleCount sect).toNat ≤ image.entryCount sect := by
  rw [InterposingImage.tupleCount, InterposingImage.entryCount, UInt64.toNat_toUInt32,
    UInt64.toNat_div, UInt32.toNat_toUInt64]
  exact Nat.mod_le _ _

lemma inside_iff :
    (∀ i ∈ (image.resolveTuples sect).written,
        i < (image.resolveTuples sect).resolvedTuples.length ∧ i < image.entryCount sect) ↔
      image.NothingBehind sect := by
  have hle := tupleCount_le image sect
  have hsub : ∀ x : UInt64, sect.sectVmOffset.toNat ≤ x.toNat →
      (x - sect.sectVmOffset).toNat = x.toNat - sect.sectVmOffset.toNat :=
    fun x hx => UInt64.toNat_sub_of_le _ _ (UInt64.le_iff_toNat_le.mpr hx)
  rw [length_resolveTuples]
  constructor
  · intro h fixup hfixup hstart hstop hlt hmod
    rw [UInt64.le_iff_toNat_le] at hstart hstop
    rw [hsub _ hstart] at hlt hmod ⊢
    set off := fixup.imageOffset.toNat - sect.sectVmOffset.toNat with hoff
    have hslot : image.slotOf sect fixup.imageOffset = some (off / image.entrySize.toNat) := by
      rw [slotOf_eq_some_iff]
      refine ⟨hstart, hstop, hlt, ?_⟩
      rw [← hoff]
      obtain ⟨hentry, hpointer⟩ | ⟨hentry, hpointer⟩ := entrySize_cases image
      all_goals
        simp only [hentry, hpointer, UInt32.reduceToNat] at hmod ⊢
        omega
    have hcount := (h _ ((mem_written_iff image sect).mpr ⟨fixup, hfixup, hslot⟩)).1
    obtain ⟨hentry, -⟩ | ⟨hentry, -⟩ := entrySize_cases image
    all_goals
      simp only [hentry, UInt32.reduceToNat] at hcount ⊢
      omega
  · intro h i hi
    obtain ⟨fixup, hfixup, hslot⟩ := (mem_written_iff image sect).mp hi
    obtain ⟨hstart, hstop, hlt, hword⟩ := slotOf_eq_some_iff.mp hslot
    have hbehind := h fixup hfixup (UInt64.le_iff_toNat_le.mpr hstart)
      (UInt64.le_iff_toNat_le.mpr hstop)
    rw [hsub _ hstart] at hbehind
    obtain ⟨hentry, hpointer⟩ | ⟨hentry, hpointer⟩ := entrySize_cases image
    all_goals
      simp only [hentry, hpointer, UInt32.reduceToNat] at hbehind hword
      have hoff := hbehind hlt (by omega)
      omega

variable {image sect}

end Sections

/-! ### All sections -/

def DyldCache.InText (cache : DyldCache) (tuples : List InterposingTuple) : Prop :=
  ∀ aTuple ∈ tuples, isCachePatch aTuple = true →
    (cache.addressInText (cacheOffset aTuple)).isSome = true

variable (cache : DyldCache)

/-- What the sections with these good tuples leave. -/
structure Records (payloads : List (List InterposingTuple)) (before after : Option Builder) :
    Prop where
  inText : after.isSome = true ↔
    before.isSome = true ∧ ∀ tuples ∈ payloads, cache.InText tuples
  closure : ∀ b b', before = some b → after = some b' →
    b'.closure.interposeTuples = b.closure.interposeTuples ++ payloads
  used : ∀ b b', before = some b → after = some b' → b'.interposingTuplesUsed =
    (payloads.getLast?.map (fun tuples => !tuples.isEmpty)).getD b.interposingTuplesUsed

namespace Records

variable {cache} {payloads payloads' : List (List InterposingTuple)}
  {before middle after : Option Builder}

lemma nil (before : Option Builder) : Records cache [] before before where
  inText := by simp
  closure := by
    rintro b b' rfl hb
    cases hb
    exact (List.append_nil _).symm
  used := by
    rintro b b' rfl hb
    cases hb
    rfl

lemma report (e : InterposingError) (before : Option Builder) :
    Records cache [] before (before.map (fun b => { b with diag := b.diag ++ [e] })) where
  inText := by simp
  closure := by
    rintro b b' rfl hb
    cases hb
    exact (List.append_nil _).symm
  used := by
    rintro b b' rfl hb
    cases hb
    rfl

lemma append (h : Records cache payloads before middle) (h' : Records cache payloads' middle after) :
    Records cache (payloads ++ payloads') before after where
  inText := by rw [h'.inText, h.inText, List.forall_mem_append, and_assoc]
  closure := by
    intro b b' hb hb'
    obtain ⟨m, hm⟩ := Option.isSome_iff_exists.mp (h'.inText.mp (by rw [hb']; rfl)).1
    rw [h'.closure m b' hm hb', h.closure b m hb hm, List.append_assoc]
  used := by
    intro b b' hb hb'
    obtain ⟨m, hm⟩ := Option.isSome_iff_exists.mp (h'.inText.mp (by rw [hb']; rfl)).1
    rw [h'.used m b' hm hb', h.used b m hb hm, List.getLast?_append]
    cases payloads'.getLast? with
    | none => rfl
    | some tuples => rfl

end Records

def InterposingImage.payload (image : InterposingImage) (sect : InterposingSection) :
    List InterposingTuple :=
  ((image.resolveTuples sect).goodTuples (image.tupleCount sect).toNat).map Prod.fst

variable {cache}

/-- A cache with one image, whose text starts at 0x1000. -/
def smallCache : DyldCache := ⟨0x180000000, 0x8000, [⟨0x180001000, 0x4000⟩]⟩

end Dyld.Closure.InterposingTuples
