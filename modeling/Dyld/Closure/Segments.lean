import Dyld.Lib.BitField
import Dyld.MachO.LoadCommands

/-!
# Disk segments of an image closure

`ClosureBuilder::addSegments` records the segments of a Mach-O file that is not in the dyld
cache as page counts, with padding entries for the gaps; `Image::forEachDiskSegment` sums the
counts up again. `ImageWriter::setMappingInfo` records the slice offset and the mapped size.
The segments are what `MachOFile::forEachSegment` passes to its callback.
-/

namespace Dyld.Closure
open Dyld.Lib
open Dyld.MachO (badRange greaterThanAddOrOverflow outOfOrder overlaps)

def pageSize (has16KBpages : Bool) : Nat := if has16KBpages then 0x4000 else 0x1000

lemma pageSize_true : pageSize true = 0x4000 := rfl

lemma pageSize_false : pageSize false = 0x1000 := rfl

/-- `MachOFile::SegmentInfo`, with the `SG_NORELOC` flag of the load command. -/
structure SegmentInfo where
  segName : String
  fileOffset : Nat
  fileSize : Nat
  vmAddr : Nat
  vmSize : Nat
  protections : Nat
  readOnlyData : Bool
  noReloc : Bool
  deriving DecidableEq

/-- The fields fit their types in `LC_SEGMENT_64` or `LC_SEGMENT`. -/
def SegmentInfo.InRange (is64 : Bool) (s : SegmentInfo) : Prop :=
  let limit := if is64 then 2 ^ 64 else 2 ^ 32
  s.fileOffset < limit ∧ s.fileSize < limit ∧ s.vmAddr < limit ∧ s.vmSize < limit

instance (is64 : Bool) (s : SegmentInfo) : Decidable (s.InRange is64) :=
  inferInstanceAs (Decidable (_ ∧ _))

/-! ### Validation -/

/-- The formats that are enforced only for newer files. -/
structure EnforceFormat where
  textPermissions : Bool
  linkeditPermissions : Bool
  segmentOrder : Bool

def validSegmentCommand (is64 : Bool) (fileLen : Nat) (s : SegmentInfo) : Bool :=
  !(is64 && greaterThanAddOrOverflow s.fileOffset s.fileSize fileLen) &&
    !(s.fileSize > s.vmSize && (s.vmSize != 0 || !s.noReloc))

def validSegmentRange (is64 : Bool) (fileLen : Nat) (e : EnforceFormat) (s : SegmentInfo) : Bool :=
  (if s.segName = "__TEXT" then !(s.protections != 5 && e.textPermissions)
    else if s.segName = "__LINKEDIT" then !(s.protections != 1 && e.linkeditPermissions)
    else s.protections &&& 0xFFFFFFF8 == 0) &&
  !badRange is64 fileLen s.fileOffset s.fileSize s.vmAddr s.vmSize

def vmOverlaps (info1 info2 : SegmentInfo) : Bool :=
  overlaps info1.vmAddr info1.vmSize info2.vmAddr info2.vmSize

def fileOverlaps (info1 info2 : SegmentInfo) : Bool :=
  overlaps info1.fileOffset info1.fileSize info2.fileOffset info2.fileSize

/-- What `MachOAnalyzer::validSegments` checks of the segments themselves: its passes but for those on
sections and load command sizes. -/
def validSegmentRanges (is64 : Bool) (fileLen : Nat) (e : EnforceFormat) (segs : List SegmentInfo) : Bool :=
  segs.all (validSegmentCommand is64 fileLen) &&
  segs.all (validSegmentRange is64 fileLen e) &&
  segs.any (fun s => s.segName = "__TEXT") &&
  segs.any (fun s => s.segName = "__LINKEDIT") &&
  decide (segs.Pairwise fun info1 info2 =>
    ¬vmOverlaps info1 info2 ∧ ¬vmOverlaps info2 info1 ∧
    ¬fileOverlaps info1 info2 ∧ ¬fileOverlaps info2 info1 ∧
    ¬(e.segmentOrder &&
      outOfOrder info1.vmAddr info1.fileOffset info2.vmAddr info2.fileOffset))

/-! ### Encoding -/

/-- `Image::DiskSegment`, a 64-bit word with four fields. -/
abbrev DiskSegment := BitVec 64

namespace DiskSegment

def filePageCount (d : DiskSegment) : Nat := getField d 0 30
def vmPageCount (d : DiskSegment) : Nat := getField d 30 30
def permissions (d : DiskSegment) : Nat := getField d 60 3
def paddingNotSeg (d : DiskSegment) : Nat := getField d 63 1

/-- The word after its four fields are assigned. -/
def ofFields (filePageCount vmPageCount permissions paddingNotSeg : Nat) : DiskSegment :=
  setField (setField (setField (setField 0#64 0 30 filePageCount) 30 30 vmPageCount) 60 3 permissions)
    63 1 paddingNotSeg

variable (f v p n : Nat)

@[simp] lemma filePageCount_ofFields : filePageCount (ofFields f v p n) = f % 2 ^ 30 := by
  simp [filePageCount, ofFields, getField_setField_apart, getField_setField_same]

@[simp] lemma vmPageCount_ofFields : vmPageCount (ofFields f v p n) = v % 2 ^ 30 := by
  simp [vmPageCount, ofFields, getField_setField_apart, getField_setField_same]

@[simp] lemma permissions_ofFields : permissions (ofFields f v p n) = p % 2 ^ 3 := by
  simp [permissions, ofFields, getField_setField_apart, getField_setField_same]

@[simp] lemma paddingNotSeg_ofFields : paddingNotSeg (ofFields f v p n) = n % 2 ^ 1 := by
  simp [paddingNotSeg, ofFields, getField_setField_same]

def kReadOnlyDataPermissions : Nat := 2

end DiskSegment

/-- 64-bit subtraction. -/
def wrapSub64 (a b : Nat) : Nat := (a + 2 ^ 64 - b) % 2 ^ 64

def filePadding (pageSize lastFileOffsetEnd : Nat) (info : SegmentInfo) : List DiskSegment :=
  if info.fileOffset ≠ 0 ∧ info.fileOffset ≠ lastFileOffsetEnd then
    [.ofFields (wrapSub64 info.fileOffset lastFileOffsetEnd / pageSize) 0 0 1]
  else []

def vmPadding (pageSize lastVmAddrEnd : Nat) (info : SegmentInfo) : List DiskSegment :=
  if lastVmAddrEnd ≠ 0 ∧ info.vmAddr ≠ lastVmAddrEnd then
    [.ofFields 0 (wrapSub64 info.vmAddr lastVmAddrEnd / pageSize) 0 1]
  else []

def segInfo (pageSize : Nat) (info : SegmentInfo) : DiskSegment :=
  .ofFields ((info.fileSize + pageSize - 1) % 2 ^ 64 / pageSize)
    ((info.vmSize + pageSize - 1) % 2 ^ 64 / pageSize)
    (if info.readOnlyData then DiskSegment.kReadOnlyDataPermissions else info.protections % 8) 0

/-- The block variables of `addSegments`. -/
structure AddSegmentsState where
  dsegs : List DiskSegment
  lastFileOffsetEnd : Nat
  lastVmAddrEnd : Nat

/-- The block that `addSegments` passes to `forEachSegment`. -/
def addSegment (pageSize : Nat) (st : AddSegmentsState) (info : SegmentInfo) : AddSegmentsState where
  dsegs := st.dsegs ++ (filePadding pageSize st.lastFileOffsetEnd info ++
    (vmPadding pageSize st.lastVmAddrEnd info ++ [segInfo pageSize info]))
  lastFileOffsetEnd :=
    if info.fileSize ≠ 0 then (info.fileOffset + info.fileSize) % 2 ^ 32 else st.lastFileOffsetEnd
  lastVmAddrEnd :=
    if info.vmSize ≠ 0 then (info.vmAddr + info.vmSize) % 2 ^ 64 else st.lastVmAddrEnd

/-- `ClosureBuilder::addSegments` for an image outside the dyld cache. -/
def addSegments (uses16KPages : Bool) (segs : List SegmentInfo) : List DiskSegment :=
  (segs.foldl (addSegment (pageSize uses16KPages)) ⟨[], 0, 0⟩).dsegs

structure MappingInfo where
  totalVmPages : Nat
  sliceOffsetIn4K : Nat

def setMappingInfo (has16KBpages : Bool) (sliceOffset vmSize : Nat) : MappingInfo where
  totalVmPages := vmSize / pageSize has16KBpages % 2 ^ 32
  sliceOffsetIn4K := sliceOffset / 0x1000 % 2 ^ 32

/-! ### Decoding -/

/-- The arguments of the handler of `forEachDiskSegment`. -/
structure DiskSegmentReport where
  segIndex : Nat
  fileOffset : Nat
  fileSize : Nat
  vmOffset : BitVec 64
  vmSize : Nat
  permissions : Nat
  laterReadOnly : Bool
  deriving DecidableEq

/-- The first loop of `forEachDiskSegment`: `vmOffset` goes back over the entries before the
first one with file pages. -/
def leadingVmOffset (pageSz : Nat) (vmOffset : BitVec 64) : List DiskSegment → BitVec 64
  | [] => vmOffset
  | seg :: segments =>
    if seg.filePageCount ≠ 0 then vmOffset
    else leadingVmOffset pageSz (vmOffset - BitVec.ofNat 64 (seg.vmPageCount * pageSz)) segments

/-- The second loop, with a handler that never stops. -/
def walkDiskSegments (pageSz : Nat) (segIndex fileOffset : Nat) (vmOffset : BitVec 64) :
    List DiskSegment → List DiskSegmentReport
  | [] => []
  | seg :: segments =>
    let vmSize := seg.vmPageCount * pageSz
    let fileSize := seg.filePageCount * pageSz % 2 ^ 32
    let fileOffset' := (fileOffset + fileSize) % 2 ^ 32
    let vmOffset' := vmOffset + BitVec.ofNat 64 vmSize
    if seg.paddingNotSeg = 0 then
      let laterRO : Bool := seg.permissions = DiskSegment.kReadOnlyDataPermissions
      { segIndex
        fileOffset := if fileSize = 0 then 0 else fileOffset
        fileSize
        vmOffset
        vmSize
        permissions := if laterRO then 3 else seg.permissions
        laterReadOnly := laterRO } ::
          walkDiskSegments pageSz (segIndex + 1) fileOffset' vmOffset' segments
    else walkDiskSegments pageSz segIndex fileOffset' vmOffset' segments

def forEachDiskSegment (has16KBpages : Bool) (segments : List DiskSegment) : List DiskSegmentReport :=
  let pageSz := pageSize has16KBpages
  walkDiskSegments pageSz 0 0 (leadingVmOffset pageSz 0 segments) segments

/-- `Image::vmSizeToMap`, a 32-bit product. -/
def vmSizeToMap (has16KBpages : Bool) (info : MappingInfo) : Nat :=
  info.totalVmPages * pageSize has16KBpages % 2 ^ 32

/-- `Image::sliceOffsetInFile`, a 32-bit product. -/
def sliceOffsetInFile (info : MappingInfo) : Nat := info.sliceOffsetIn4K * 0x1000 % 2 ^ 32

/-! ### The layout and when it is kept -/

def roundUp (pageSize n : Nat) : Nat := (n + pageSize - 1) / pageSize * pageSize

def Reports (pageSize text : Nat) (s : SegmentInfo) (r : DiskSegmentReport) : Prop :=
  r.vmOffset = BitVec.ofNat 64 s.vmAddr - BitVec.ofNat 64 text ∧
  r.vmSize = roundUp pageSize s.vmSize ∧ r.fileSize = roundUp pageSize s.fileSize ∧
  (s.fileSize ≠ 0 → r.fileOffset = s.fileOffset)

structure AcceptedLayout (is64 uses16KPages : Bool) (fileLen : Nat) (e : EnforceFormat)
    (before : List SegmentInfo) (text : SegmentInfo) (after : List SegmentInfo) : Prop where
  inRange : ∀ s ∈ before ++ text :: after, s.InRange is64
  valid : validSegmentRanges is64 fileLen e (before ++ text :: after) = true
  aligned : ∀ s ∈ before ++ text :: after,
    s.vmAddr % pageSize uses16KPages = 0 ∧ s.fileOffset % pageSize uses16KPages = 0
  ordered : (before ++ text :: after).Pairwise fun a b => a.vmAddr ≤ b.vmAddr
  before_empty : ∀ s ∈ before, s.fileSize = 0
  text_content : text.segName = "__TEXT" ∧ text.fileSize ≠ 0 ∧ text.fileOffset = 0

/-- Every segment is reported with its place in the file and in memory, and the slice offset
and the mapped size come back. -/
def LayoutRoundTrips (uses16KPages : Bool) (sliceOffset vmSize : Nat) (before : List SegmentInfo)
    (text : SegmentInfo) (after : List SegmentInfo) : Prop :=
  List.Forall₂ (Reports (pageSize uses16KPages) text.vmAddr) (before ++ text :: after)
    (forEachDiskSegment uses16KPages (addSegments uses16KPages (before ++ text :: after))) ∧
  sliceOffsetInFile (setMappingInfo uses16KPages sliceOffset vmSize) = sliceOffset ∧
  vmSizeToMap uses16KPages (setMappingInfo uses16KPages sliceOffset vmSize) = vmSize

/-- The sizes of a segment fit the page counts: fewer than 2^30 pages of memory, and content
that with its padding ends below 4 GB. -/
def SizesFit (pageSize : Nat) (s : SegmentInfo) : Prop :=
  roundUp pageSize s.vmSize < 2 ^ 30 * pageSize ∧ roundUp pageSize s.fileSize < 2 ^ 32

/-- A segment is placed behind the memory laid out so far, which ends at `cursor`. Here
`vmEnd` is the end of the last segment that occupies memory, or 0: a segment without memory
may move `cursor` away from it, and then no further segment is placed right. -/
def MemoryFollows (pageSize vmEnd cursor : Nat) (s : SegmentInfo) : Prop :=
  if vmEnd = 0 then s.vmAddr = cursor
  else cursor = roundUp pageSize vmEnd ∧ cursor ≤ s.vmAddr ∧ s.vmAddr - cursor < 2 ^ 30 * pageSize

/-- The segments can be recovered from page counts. `fileEnd` is the end of the content before
them, and `drift` how far segments without content but with a file offset have moved the file
position away from it. -/
def LayoutKept (pageSize : Nat) : (vmEnd cursor fileEnd : Nat) → (drift : Int) →
    List SegmentInfo → Prop
  | _, _, _, _, [] => True
  | vmEnd, cursor, fileEnd, drift, s :: segs =>
    SizesFit pageSize s ∧ MemoryFollows pageSize vmEnd cursor s ∧
    (s.fileSize ≠ 0 → s.fileOffset < 2 ^ 32 ∧ (2 ^ 32 : Int) ∣ drift) ∧
    LayoutKept pageSize (if s.vmSize ≠ 0 then s.vmAddr + s.vmSize else vmEnd)
      (s.vmAddr + roundUp pageSize s.vmSize)
      (if s.fileSize ≠ 0 then s.fileOffset + s.fileSize else fileEnd)
      (if s.fileSize = 0 ∧ s.fileOffset ≠ 0 then drift + (s.fileOffset - roundUp pageSize fileEnd)
        else drift) segs

def leadingEnd (pageSize text : Nat) : Nat → List SegmentInfo → Nat
  | _, [] => text
  | cursor, s :: before =>
    if s.fileOffset / pageSize % 2 ^ 30 ≠ 0 then cursor
    else leadingEnd pageSize text (s.vmAddr + roundUp pageSize s.vmSize) before

/-! ### Encoding and decoding in one pass -/

/-- The entries of the segments, from the encoder's block variables on. -/
def encodeFrom (pageSize : Nat) : (lastFileOffsetEnd lastVmAddrEnd : Nat) → List SegmentInfo →
    List DiskSegment
  | _, _, [] => []
  | lastFileOffsetEnd, lastVmAddrEnd, info :: segs =>
    filePadding pageSize lastFileOffsetEnd info ++ (vmPadding pageSize lastVmAddrEnd info ++
      segInfo pageSize info :: encodeFrom pageSize
        (if info.fileSize ≠ 0 then (info.fileOffset + info.fileSize) % 2 ^ 32 else lastFileOffsetEnd)
        (if info.vmSize ≠ 0 then (info.vmAddr + info.vmSize) % 2 ^ 64 else lastVmAddrEnd) segs)

lemma foldl_addSegment (pageSize : Nat) (st : AddSegmentsState) (segs : List SegmentInfo) :
    (segs.foldl (addSegment pageSize) st).dsegs =
      st.dsegs ++ encodeFrom pageSize st.lastFileOffsetEnd st.lastVmAddrEnd segs := by
  induction segs generalizing st with
  | nil => simp [encodeFrom]
  | cons info segs ih =>
    rw [List.foldl_cons, ih]
    simp [addSegment, encodeFrom]

lemma addSegments_eq (uses16KPages : Bool) (segs : List SegmentInfo) :
    addSegments uses16KPages segs = encodeFrom (pageSize uses16KPages) 0 0 segs := by
  rw [addSegments, foldl_addSegment, List.nil_append]

def filePadPages (pageSize lastFileOffsetEnd : Nat) (info : SegmentInfo) : Nat :=
  if info.fileOffset ≠ 0 ∧ info.fileOffset ≠ lastFileOffsetEnd then
    wrapSub64 info.fileOffset lastFileOffsetEnd / pageSize % 2 ^ 30
  else 0

def vmPadPages (pageSize lastVmAddrEnd : Nat) (info : SegmentInfo) : Nat :=
  if lastVmAddrEnd ≠ 0 ∧ info.vmAddr ≠ lastVmAddrEnd then
    wrapSub64 info.vmAddr lastVmAddrEnd / pageSize % 2 ^ 30
  else 0

section Walk

variable {ps idx lf lv F : Nat} {P : BitVec 64} {info : SegmentInfo} {rest : List DiskSegment}

lemma walkDiskSegments_filePadding (hF : F < 2 ^ 32) :
    walkDiskSegments ps idx F P (filePadding ps lf info ++ rest) =
      walkDiskSegments ps idx ((F + filePadPages ps lf info * ps) % 2 ^ 32) P rest := by
  have hmod : F % 4294967296 = F := Nat.mod_eq_of_lt hF
  unfold filePadding filePadPages
  split
  · simp [walkDiskSegments]
  · simp [hmod]

lemma walkDiskSegments_vmPadding (hF : F < 2 ^ 32) :
    walkDiskSegments ps idx F P (vmPadding ps lv info ++ rest) =
      walkDiskSegments ps idx F (P + BitVec.ofNat 64 (vmPadPages ps lv info * ps)) rest := by
  have hmod : F % 4294967296 = F := Nat.mod_eq_of_lt hF
  unfold vmPadding vmPadPages
  split
  · simp [walkDiskSegments, hmod]
  · simp

lemma leadingVmOffset_filePadding_stop (h : filePadPages ps lf info ≠ 0) :
    leadingVmOffset ps P (filePadding ps lf info ++ rest) = P := by
  unfold filePadPages at h
  unfold filePadding
  split
  · rename_i hc
    rw [if_pos hc] at h
    simp only [List.singleton_append, leadingVmOffset, DiskSegment.filePageCount_ofFields]
    rw [if_pos h]
  · rename_i hc
    rw [if_neg hc] at h
    exact absurd rfl h

lemma leadingVmOffset_filePadding (h : filePadPages ps lf info = 0) :
    leadingVmOffset ps P (filePadding ps lf info ++ rest) = leadingVmOffset ps P rest := by
  unfold filePadPages at h
  unfold filePadding
  split
  · rename_i hc
    rw [if_pos hc] at h
    simp only [List.singleton_append, leadingVmOffset, DiskSegment.filePageCount_ofFields,
      DiskSegment.vmPageCount_ofFields, h]
    simp
  · rfl

lemma leadingVmOffset_vmPadding :
    leadingVmOffset ps P (vmPadding ps lv info ++ rest) =
      leadingVmOffset ps (P - BitVec.ofNat 64 (vmPadPages ps lv info * ps)) rest := by
  unfold vmPadding vmPadPages
  split
  · simp [leadingVmOffset]
  · simp

end Walk

/-! ### Page arithmetic -/

section Pages

variable {b : Bool} {s : SegmentInfo}

lemma roundUp_add_of_aligned {a n : Nat} (h : a % pageSize b = 0) :
    roundUp (pageSize b) (a + n) = a + roundUp (pageSize b) n := by
  cases b <;> simp only [pageSize_true, pageSize_false, roundUp] at * <;> omega

lemma roundUp_mod (n : Nat) : roundUp (pageSize b) n % pageSize b = 0 := by
  simp [roundUp]

lemma vmPageCount_eq_iff {n : Nat} (h : n < 2 ^ 64) :
    (n + pageSize b - 1) % 2 ^ 64 / pageSize b % 2 ^ 30 * pageSize b = roundUp (pageSize b) n ↔
      roundUp (pageSize b) n < 2 ^ 30 * pageSize b := by
  cases b <;> simp only [pageSize_true, pageSize_false, roundUp] <;> omega

lemma filePageCount_eq_iff {n : Nat} (h : n < 2 ^ 64) :
    (n + pageSize b - 1) % 2 ^ 64 / pageSize b % 2 ^ 30 * pageSize b % 2 ^ 32 =
      roundUp (pageSize b) n ↔ roundUp (pageSize b) n < 2 ^ 32 := by
  cases b <;> simp only [pageSize_true, pageSize_false, roundUp] <;> omega

lemma ofNat64_eq_iff {a c : Nat} (h1 : c < 2 ^ 64) (h2 : a < c + 2 ^ 64) :
    BitVec.ofNat 64 a = BitVec.ofNat 64 c ↔ a = c := by
  constructor
  · intro h
    have := congrArg BitVec.toNat h
    simp only [BitVec.toNat_ofNat] at this
    omega
  · rintro rfl
    rfl

/-- The padding places a segment right exactly when it follows the memory before it. -/
lemma cursor_add_vmPad_iff {vmEnd cursor : Nat} (hs : s.vmAddr < 2 ^ 64)
    (halign : s.vmAddr % pageSize b = 0) (he : vmEnd < 2 ^ 64)
    (hc : vmEnd ≠ 0 → roundUp (pageSize b) vmEnd ≤ cursor ∧
      cursor < roundUp (pageSize b) vmEnd + 2 ^ 30 * pageSize b)
    (hcalign : cursor % pageSize b = 0) :
    cursor + vmPadPages (pageSize b) vmEnd s * pageSize b = s.vmAddr ↔
      MemoryFollows (pageSize b) vmEnd cursor s := by
  unfold MemoryFollows vmPadPages
  by_cases h0 : vmEnd = 0
  · simp only [h0, ne_eq, not_true_eq_false, false_and, if_false, if_true]
    omega
  · have hc := hc h0
    rw [if_neg h0]
    by_cases heq : s.vmAddr = vmEnd
    · rw [if_neg (by tauto)]
      cases b <;> simp only [pageSize_true, pageSize_false, roundUp] at * <;> omega
    · rw [if_pos ⟨h0, heq⟩]
      cases b <;> simp only [pageSize_true, pageSize_false, roundUp, wrapSub64] at * <;> omega

lemma vmPadPages_mul_lt (vmEnd : Nat) (s : SegmentInfo) :
    vmPadPages (pageSize b) vmEnd s * pageSize b < 2 ^ 44 := by
  have hp : vmPadPages (pageSize b) vmEnd s < 2 ^ 30 := by
    unfold vmPadPages
    split
    · exact Nat.mod_lt _ (by decide)
    · decide
  cases b <;> simp only [pageSize_true, pageSize_false] at * <;> omega

/-- The file padding moves the position to the segment's file offset, modulo 4 GB. -/
lemma filePad_dvd (fileEnd : Nat) (hs : s.fileOffset < 2 ^ 64)
    (halign : s.fileOffset % pageSize b = 0) (hne : s.fileOffset ≠ 0) :
    (2 ^ 32 : Int) ∣ (filePadPages (pageSize b) (fileEnd % 2 ^ 32) s * pageSize b : Nat) -
      (s.fileOffset - roundUp (pageSize b) fileEnd) := by
  unfold filePadPages
  by_cases heq : s.fileOffset = fileEnd % 2 ^ 32
  · rw [if_neg (by tauto)]
    cases b <;> simp only [pageSize_true, pageSize_false, roundUp] at * <;> omega
  · rw [if_pos ⟨hne, heq⟩]
    cases b <;> simp only [pageSize_true, pageSize_false, roundUp, wrapSub64] at * <;> omega

lemma filePadPages_of_zero {fileEnd : Nat} (h : s.fileOffset = 0) :
    filePadPages (pageSize b) fileEnd s = 0 := by
  rw [filePadPages, if_neg (by tauto)]

end Pages

/-! ### The walk against the layout -/

section Reports

variable {b : Bool} {text : Nat} {s : SegmentInfo} {segs : List SegmentInfo}
  {vmEnd cursor fileEnd I F : Nat} {drift : Int} {P : BitVec 64}

/-- What is used of an accepted segment. -/
structure SegmentOk (b : Bool) (s : SegmentInfo) : Prop where
  fileOffset_lt : s.fileOffset < 2 ^ 64
  fileSize_lt : s.fileSize < 2 ^ 64
  vmAddr_aligned : s.vmAddr % pageSize b = 0
  fileOffset_aligned : s.fileOffset % pageSize b = 0
  vmEnd_lt : s.vmAddr + s.vmSize < 2 ^ 64

/-- Where the memory laid out so far ends, compared with the last segment that has memory. -/
structure CursorOk (b : Bool) (vmEnd cursor : Nat) (segs : List SegmentInfo) : Prop where
  vmEnd_lt : vmEnd < 2 ^ 64
  aligned : cursor % pageSize b = 0
  near : vmEnd ≠ 0 → roundUp (pageSize b) vmEnd ≤ cursor ∧
    cursor < roundUp (pageSize b) vmEnd + 2 ^ 30 * pageSize b
  le : ∀ s ∈ segs, cursor ≤ s.vmAddr + 2 ^ 30 * pageSize b

lemma two_pow_mul_pageSize_le (b : Bool) : 2 ^ 30 * pageSize b ≤ 2 ^ 44 := by
  cases b <;> decide

lemma CursorOk.ofNat_eq_iff (h : CursorOk b vmEnd cursor (s :: segs)) (hs : SegmentOk b s) :
    BitVec.ofNat 64 (cursor + vmPadPages (pageSize b) vmEnd s * pageSize b) = BitVec.ofNat 64 s.vmAddr ↔
      MemoryFollows (pageSize b) vmEnd cursor s := by
  have hle := h.le s (by simp)
  have hpad := vmPadPages_mul_lt (b := b) vmEnd s
  have hpage := two_pow_mul_pageSize_le b
  have hlt := hs.vmEnd_lt
  rw [ofNat64_eq_iff (by omega) (by omega),
    cursor_add_vmPad_iff (by omega) hs.vmAddr_aligned h.vmEnd_lt h.near h.aligned]

/-- A segment that is placed right leaves the cursor right for the next. -/
lemma CursorOk.next (h : CursorOk b vmEnd cursor (s :: segs)) (hs : SegmentOk b s)
    (hsize : SizesFit (pageSize b) s) (hfollows : MemoryFollows (pageSize b) vmEnd cursor s)
    (hsorted : ∀ t ∈ segs, s.vmAddr ≤ t.vmAddr) :
    CursorOk b (if s.vmSize ≠ 0 then s.vmAddr + s.vmSize else vmEnd)
      (s.vmAddr + roundUp (pageSize b) s.vmSize) segs := by
  have halign := hs.vmAddr_aligned
  have hround := roundUp_mod (b := b) s.vmSize
  refine ⟨?_, ?_, ?_, ?_⟩
  · split
    · exact hs.vmEnd_lt
    · exact h.vmEnd_lt
  · rw [Nat.add_mod, halign, hround, Nat.zero_add, Nat.zero_mod]
  · intro hne
    by_cases h0 : s.vmSize = 0
    · simp only [h0, ne_eq, not_true_eq_false, if_false] at hne ⊢
      rw [MemoryFollows, if_neg hne] at hfollows
      have hzero : roundUp (pageSize b) 0 = 0 := by cases b <;> rfl
      rw [hzero]
      omega
    · simp only [h0, ne_eq, not_false_eq_true, if_true] at hne ⊢
      rw [roundUp_add_of_aligned halign]
      have : 0 < pageSize b := by cases b <;> decide
      omega
  · intro t ht
    have hle := hsorted t ht
    have hlt := hsize.1
    omega

lemma reports_iff (hs : SegmentOk b s) (hc : CursorOk b vmEnd cursor (s :: segs))
    (hP : P = BitVec.ofNat 64 cursor - BitVec.ofNat 64 text) (hF : F < 2 ^ 32)
    (hfile : s.fileSize ≠ 0 → (2 ^ 32 : Int) ∣ F - (s.fileOffset + drift))
    {r : DiskSegmentReport}
    (hoffset : r.vmOffset = P + BitVec.ofNat 64 (vmPadPages (pageSize b) vmEnd s * pageSize b))
    (hvm : r.vmSize = (segInfo (pageSize b) s).vmPageCount * pageSize b)
    (hsize : r.fileSize = (segInfo (pageSize b) s).filePageCount * pageSize b % 2 ^ 32)
    (hfo : r.fileOffset = if r.fileSize = 0 then 0 else F) :
    Reports (pageSize b) text s r ↔ SizesFit (pageSize b) s ∧
      MemoryFollows (pageSize b) vmEnd cursor s ∧
      (s.fileSize ≠ 0 → s.fileOffset < 2 ^ 32 ∧ (2 ^ 32 : Int) ∣ drift) := by
  have hvmlt := hs.vmEnd_lt
  have h1 : r.vmOffset = BitVec.ofNat 64 s.vmAddr - BitVec.ofNat 64 text ↔
      MemoryFollows (pageSize b) vmEnd cursor s := by
    rw [← hc.ofNat_eq_iff hs, hoffset, hP, BitVec.ofNat_add]
    have hcomm : BitVec.ofNat 64 cursor - BitVec.ofNat 64 text +
        BitVec.ofNat 64 (vmPadPages (pageSize b) vmEnd s * pageSize b) =
        BitVec.ofNat 64 cursor + BitVec.ofNat 64 (vmPadPages (pageSize b) vmEnd s * pageSize b) -
        BitVec.ofNat 64 text := by bv_omega
    rw [hcomm]
    exact sub_left_inj
  have h2 : r.vmSize = roundUp (pageSize b) s.vmSize ↔
      roundUp (pageSize b) s.vmSize < 2 ^ 30 * pageSize b := by
    rw [hvm, segInfo, DiskSegment.vmPageCount_ofFields, vmPageCount_eq_iff (by omega)]
  have h3 : r.fileSize = roundUp (pageSize b) s.fileSize ↔ roundUp (pageSize b) s.fileSize < 2 ^ 32 := by
    rw [hsize, segInfo, DiskSegment.filePageCount_ofFields, filePageCount_eq_iff hs.fileSize_lt]
  have h4 : r.fileSize = roundUp (pageSize b) s.fileSize → s.fileSize ≠ 0 →
      (r.fileOffset = s.fileOffset ↔ s.fileOffset < 2 ^ 32 ∧ (2 ^ 32 : Int) ∣ drift) := by
    intro hr hne
    have hpos : r.fileSize ≠ 0 := by
      rw [hr]
      cases b <;> simp only [roundUp, pageSize_true, pageSize_false] <;> omega
    have hdvd := hfile hne
    rw [hfo, if_neg hpos]
    omega
  unfold Reports SizesFit
  rw [h1, h2]
  constructor
  · rintro ⟨hm, hv, hf, ho⟩
    exact ⟨⟨hv, h3.mp hf⟩, hm, fun hne => (h4 hf hne).mp (ho hne)⟩
  · rintro ⟨⟨hv, hf⟩, hm, ho⟩
    exact ⟨hm, hv, h3.mpr hf, fun hne => (h4 (h3.mpr hf) hne).mpr (ho hne)⟩

lemma filePad_position (hs : SegmentOk b s)
    (hzero : s.fileSize ≠ 0 → s.fileOffset = 0 → fileEnd = 0)
    (hF : (2 ^ 32 : Int) ∣ F - (roundUp (pageSize b) fileEnd + drift)) :
    (2 ^ 32 : Int) ∣
      ((F + filePadPages (pageSize b) (fileEnd % 2 ^ 32) s * pageSize b) % 2 ^ 32 : Nat) -
      (if s.fileSize = 0 ∧ s.fileOffset = 0 then roundUp (pageSize b) fileEnd + drift
        else s.fileOffset + drift) := by
  by_cases h0 : s.fileOffset = 0
  · rw [filePadPages_of_zero h0]
    by_cases hsize : s.fileSize = 0
    · simp only [h0, hsize, and_self, if_true]
      omega
    · have hround : roundUp (pageSize b) 0 = 0 := by cases b <;> rfl
      rw [hzero hsize h0, hround] at hF
      simp only [h0, hsize, false_and, if_false]
      omega
  · have hdvd := filePad_dvd fileEnd hs.fileOffset_lt hs.fileOffset_aligned h0
    simp only [h0, and_false, if_false]
    omega

lemma walkDiskSegments_reports_iff (hok : ∀ s ∈ segs, SegmentOk b s)
    (hsorted : segs.Pairwise fun a c => a.vmAddr ≤ c.vmAddr)
    (hcontent : segs.Pairwise fun a c => a.fileSize ≠ 0 → c.fileSize ≠ 0 → c.fileOffset ≠ 0)
    (hzero : ∀ s ∈ segs, s.fileSize ≠ 0 → s.fileOffset = 0 → fileEnd = 0)
    (hc : CursorOk b vmEnd cursor segs)
    (hP : P = BitVec.ofNat 64 cursor - BitVec.ofNat 64 text) (hlt : F < 2 ^ 32)
    (hF : (2 ^ 32 : Int) ∣ F - (roundUp (pageSize b) fileEnd + drift)) :
    List.Forall₂ (Reports (pageSize b) text) segs (walkDiskSegments (pageSize b) I F P
      (encodeFrom (pageSize b) (fileEnd % 2 ^ 32) vmEnd segs)) ↔
      LayoutKept (pageSize b) vmEnd cursor fileEnd drift segs := by
  induction segs generalizing vmEnd cursor fileEnd drift I F P with
  | nil => simp [encodeFrom, walkDiskSegments, LayoutKept]
  | cons s segs ih =>
    obtain ⟨hs, hoks⟩ := List.forall_mem_cons.mp hok
    obtain ⟨hsle, hsorted⟩ := List.pairwise_cons.mp hsorted
    obtain ⟨hscontent, hcontent⟩ := List.pairwise_cons.mp hcontent
    obtain ⟨hszero, hzeros⟩ := List.forall_mem_cons.mp hzero
    have hpos := filePad_position hs hszero hF
    rw [encodeFrom, walkDiskSegments_filePadding hlt]
    generalize hF1 : (F + filePadPages (pageSize b) (fileEnd % 2 ^ 32) s * pageSize b) % 2 ^ 32 = F1
      at hpos ⊢
    have hlt1 : F1 < 2 ^ 32 := hF1 ▸ Nat.mod_lt _ (by decide)
    have hfile : s.fileSize ≠ 0 → (2 ^ 32 : Int) ∣ F1 - (s.fileOffset + drift) := by
      intro hne
      rwa [if_neg (by tauto)] at hpos
    have hpad : (segInfo (pageSize b) s).paddingNotSeg = 0 := by simp [segInfo]
    rw [walkDiskSegments_vmPadding hlt1, walkDiskSegments, if_pos hpad, List.forall₂_cons, LayoutKept,
      reports_iff hs hc hP hlt1 hfile rfl rfl rfl rfl, and_assoc, and_assoc]
    refine and_congr_right fun hsize => and_congr_right fun hfollows => and_congr_right fun _ => ?_
    have hvm : (segInfo (pageSize b) s).vmPageCount * pageSize b = roundUp (pageSize b) s.vmSize := by
      rw [segInfo, DiskSegment.vmPageCount_ofFields]
      exact (vmPageCount_eq_iff (by have := hs.vmEnd_lt; omega)).mpr hsize.1
    have hfs : (segInfo (pageSize b) s).filePageCount * pageSize b % 2 ^ 32 =
        roundUp (pageSize b) s.fileSize := by
      rw [segInfo, DiskSegment.filePageCount_ofFields]
      exact (filePageCount_eq_iff hs.fileSize_lt).mpr hsize.2
    have hstart := (hc.ofNat_eq_iff hs).mpr hfollows
    rw [hvm, hfs]
    have hend : (if s.fileSize ≠ 0 then (s.fileOffset + s.fileSize) % 2 ^ 32 else fileEnd % 2 ^ 32) =
        (if s.fileSize ≠ 0 then s.fileOffset + s.fileSize else fileEnd) % 2 ^ 32 := by
      split <;> rfl
    rw [hend, Nat.mod_eq_of_lt hs.vmEnd_lt]
    refine ih hoks hsorted hcontent ?_ (hc.next hs hsize hfollows hsle) ?_ (Nat.mod_lt _ (by decide)) ?_
    · intro t ht htsize htoff
      split
      · rename_i hne
        exact absurd htoff (hscontent t ht hne htsize)
      · exact hzeros t ht htsize htoff
    · rw [BitVec.ofNat_add] at hstart
      rw [hP, BitVec.ofNat_add, ← hstart]
      abel
    · by_cases h0 : s.fileSize = 0
      · have hround : roundUp (pageSize b) 0 = 0 := by cases b <;> rfl
        by_cases hoff : s.fileOffset = 0
        · simp only [h0, hoff, hround, and_self, not_true_eq_false, ne_eq, and_false, if_true, if_false]
            at hpos ⊢
          omega
        · simp only [h0, hoff, hround, and_false, not_true_eq_false, ne_eq, not_false_eq_true, and_self,
            if_true, if_false] at hpos ⊢
          omega
      · have hadd := roundUp_add_of_aligned (n := s.fileSize) hs.fileOffset_aligned
        simp only [h0, false_and, not_false_eq_true, ne_eq, if_true, if_false, hadd] at hpos ⊢
        omega

/-- The count of the pages before `__TEXT`. -/
lemma leadingVmOffset_encodeFrom {before after : List SegmentInfo} {t : SegmentInfo}
    (hok : ∀ s ∈ before ++ t :: after, SegmentOk b s)
    (hsorted : (before ++ t :: after).Pairwise fun a c => a.vmAddr ≤ c.vmAddr)
    (hbefore : ∀ s ∈ before, s.fileSize = 0) (htext : t.fileSize ≠ 0 ∧ t.fileOffset = 0)
    (hc : CursorOk b vmEnd cursor (before ++ t :: after))
    (hkept : LayoutKept (pageSize b) vmEnd cursor fileEnd drift (before ++ t :: after)) :
    leadingVmOffset (pageSize b) P (encodeFrom (pageSize b) 0 vmEnd (before ++ t :: after)) =
      P + BitVec.ofNat 64 cursor -
        BitVec.ofNat 64 (leadingEnd (pageSize b) t.vmAddr cursor before) := by
  induction before generalizing vmEnd cursor fileEnd drift P with
  | nil =>
    simp only [List.nil_append] at hok hsorted hc hkept ⊢
    obtain ⟨hsize, hfollows, -⟩ := hkept
    have ht := hok t (by simp)
    have hstart := (hc.ofNat_eq_iff ht).mpr hfollows
    have hpages : (segInfo (pageSize b) t).filePageCount ≠ 0 := by
      intro h0
      have hfs := (filePageCount_eq_iff ht.fileSize_lt).mpr hsize.2
      rw [segInfo, DiskSegment.filePageCount_ofFields] at h0
      rw [h0] at hfs
      have hne := htext.1
      cases b <;> simp only [roundUp, pageSize_true, pageSize_false] at hfs <;> omega
    rw [encodeFrom, leadingVmOffset_filePadding (filePadPages_of_zero htext.2),
      leadingVmOffset_vmPadding, leadingVmOffset, if_pos hpages, leadingEnd, ← hstart, BitVec.ofNat_add]
    abel
  | cons s before ih =>
    rw [List.cons_append] at hok hsorted hc hkept ⊢
    obtain ⟨hsize, hfollows, -, hkept⟩ := hkept
    obtain ⟨hs, hoks⟩ := List.forall_mem_cons.mp hok
    obtain ⟨hsle, hsorted⟩ := List.pairwise_cons.mp hsorted
    obtain ⟨hempty, hbefore⟩ := List.forall_mem_cons.mp hbefore
    have hpadEq : filePadPages (pageSize b) 0 s = s.fileOffset / pageSize b % 2 ^ 30 := by
      have hlt := hs.fileOffset_lt
      unfold filePadPages wrapSub64
      split
      · rw [Nat.sub_zero, Nat.add_mod_right, Nat.mod_eq_of_lt hlt]
      · rename_i h0
        rw [show s.fileOffset = 0 by tauto, Nat.zero_div, Nat.zero_mod]
    rw [encodeFrom, leadingEnd]
    by_cases hstop : s.fileOffset / pageSize b % 2 ^ 30 = 0
    · have hstart := (hc.ofNat_eq_iff hs).mpr hfollows
      have hpages : (segInfo (pageSize b) s).filePageCount = 0 := by
        rw [segInfo, DiskSegment.filePageCount_ofFields, hempty]
        cases b <;> rfl
      have hvm : (segInfo (pageSize b) s).vmPageCount * pageSize b = roundUp (pageSize b) s.vmSize := by
        rw [segInfo, DiskSegment.vmPageCount_ofFields]
        exact (vmPageCount_eq_iff (by have := hs.vmEnd_lt; omega)).mpr hsize.1
      rw [leadingVmOffset_filePadding (hpadEq.trans hstop), leadingVmOffset_vmPadding, leadingVmOffset,
        if_neg (not_not.mpr hpages), hvm, if_neg (not_not.mpr hempty), if_neg (not_not.mpr hstop),
        Nat.mod_eq_of_lt hs.vmEnd_lt, ih hoks hsorted hbefore (hc.next hs hsize hfollows hsle) hkept]
      rw [BitVec.ofNat_add] at hstart ⊢
      rw [← hstart]
      abel
    · rw [leadingVmOffset_filePadding_stop (by rw [hpadEq]; exact hstop), if_pos hstop]
      abel

end Reports

/-! ### Accepted files -/

def startAddr (before : List SegmentInfo) (text : SegmentInfo) : Nat :=
  match before with
  | [] => text.vmAddr
  | s :: _ => s.vmAddr

section Accepted

variable {is64 b : Bool} {fileLen : Nat} {e : EnforceFormat} {before after : List SegmentInfo}
  {text : SegmentInfo}

lemma AcceptedLayout.segmentOk (h : AcceptedLayout is64 b fileLen e before text after) :
    ∀ s ∈ before ++ text :: after, SegmentOk b s := by
  intro s hs
  have hrange := h.inRange s hs
  have halign := h.aligned s hs
  have hvalid := h.valid
  simp only [validSegmentRanges, Bool.and_eq_true, List.all_eq_true] at hvalid
  have hr := hvalid.1.1.1.2 s hs
  simp only [validSegmentRange, badRange, Bool.and_eq_true, Bool.not_eq_true', Bool.or_eq_false_iff] at hr
  have hend := hr.2.2
  unfold SegmentInfo.InRange at hrange
  refine ⟨?_, ?_, halign.1, halign.2, ?_⟩
  · cases is64 <;> simp only [Bool.false_eq_true, if_true, if_false] at hrange <;> omega
  · cases is64 <;> simp only [Bool.false_eq_true, if_true, if_false] at hrange <;> omega
  · cases is64 with
    | false =>
      simp only [Bool.false_eq_true, if_false] at hrange
      omega
    | true =>
      simp only [if_true, decide_eq_false_iff_not] at hrange hend
      omega

lemma AcceptedLayout.fileOffset_ne_zero (h : AcceptedLayout is64 b fileLen e before text after) :
    ∀ s ∈ after, s.fileSize ≠ 0 → s.fileOffset ≠ 0 := by
  intro s hs hsize hoff
  have hvalid := h.valid
  simp only [validSegmentRanges, Bool.and_eq_true, decide_eq_true_eq] at hvalid
  have hpair := (List.pairwise_append.mp hvalid.2).2.1
  obtain ⟨-, -, hfile, -⟩ := (List.pairwise_cons.mp hpair).1 s hs
  obtain ⟨-, htsize, htoff⟩ := h.text_content
  have hend : ∀ a ∈ before ++ text :: after, a.fileSize % 2 ^ 64 = a.fileSize := by
    intro a ha
    have hrange := h.inRange a ha
    unfold SegmentInfo.InRange at hrange
    cases is64 <;> simp only [Bool.false_eq_true, if_true, if_false] at hrange <;>
      exact Nat.mod_eq_of_lt (by omega)
  apply hfile
  rw [fileOverlaps, overlaps, htoff, hoff, Nat.zero_add, Nat.zero_add, hend text (by simp),
    hend s (by simp [hs])]
  simp only [htoff, hoff, Nat.zero_add, le_refl, decide_true, gt_iff_lt, Bool.true_and,
    Bool.or_eq_true, Bool.and_eq_true, decide_eq_true_eq]
  omega

lemma AcceptedLayout.content (h : AcceptedLayout is64 b fileLen e before text after) :
    (before ++ text :: after).Pairwise fun a c =>
      a.fileSize ≠ 0 → c.fileSize ≠ 0 → c.fileOffset ≠ 0 := by
  apply List.pairwise_append.mpr
  refine ⟨?_, ?_, ?_⟩
  · refine List.pairwise_of_forall_mem_list (fun a ha c _ hne => ?_)
    exact absurd (h.before_empty a ha) hne
  · apply List.pairwise_cons.mpr
    constructor
    · exact fun c hc _ => h.fileOffset_ne_zero c hc
    · exact List.pairwise_of_forall_mem_list (fun a _ c hc _ => h.fileOffset_ne_zero c hc)
  · intro a ha c _ hne
    exact absurd (h.before_empty a ha) hne

lemma startAddr_le (hsorted : (before ++ text :: after).Pairwise fun a c => a.vmAddr ≤ c.vmAddr) :
    ∀ s ∈ before ++ text :: after, startAddr before text ≤ s.vmAddr := by
  intro s hs
  cases before with
  | nil =>
    rcases List.mem_cons.mp hs with rfl | hs
    · exact le_rfl
    · exact (List.pairwise_cons.mp hsorted).1 s hs
  | cons a before =>
    rcases List.mem_cons.mp hs with rfl | hs
    · exact le_rfl
    · exact (List.pairwise_cons.mp hsorted).1 s hs

lemma AcceptedLayout.cursorOk (h : AcceptedLayout is64 b fileLen e before text after) :
    CursorOk b 0 (startAddr before text) (before ++ text :: after) := by
  refine ⟨by decide, ?_, fun h0 => absurd rfl h0, fun s hs => ?_⟩
  · cases before with
    | nil => exact (h.aligned text (by simp)).1
    | cons a before => exact (h.aligned a (by simp)).1
  · have := startAddr_le h.ordered s hs
    omega

lemma leadingEnd_le {ps cursor bound : Nat} (hbefore : ∀ s ∈ before, SizesFit ps s)
    (hle : ∀ s ∈ before, s.vmAddr ≤ bound) (hcursor : cursor ≤ bound + 2 ^ 30 * ps) :
    leadingEnd ps bound cursor before ≤ bound + 2 ^ 30 * ps := by
  induction before generalizing cursor with
  | nil => simp [leadingEnd]
  | cons s before ih =>
    obtain ⟨hs, hbefore⟩ := List.forall_mem_cons.mp hbefore
    obtain ⟨hsle, hle⟩ := List.forall_mem_cons.mp hle
    rw [leadingEnd]
    split
    · exact hcursor
    · exact ih hbefore hle (by have := hs.1; omega)

lemma LayoutKept.sizesFit {ps vmEnd cursor fileEnd : Nat} {drift : Int} {segs : List SegmentInfo}
    (h : LayoutKept ps vmEnd cursor fileEnd drift segs) : ∀ s ∈ segs, SizesFit ps s := by
  induction segs generalizing vmEnd cursor fileEnd drift with
  | nil => simp
  | cons s segs ih => exact List.forall_mem_cons.mpr ⟨h.1, ih h.2.2.2⟩

lemma AcceptedLayout.reports_iff (h : AcceptedLayout is64 b fileLen e before text after) :
    List.Forall₂ (Reports (pageSize b) text.vmAddr) (before ++ text :: after)
      (forEachDiskSegment b (addSegments b (before ++ text :: after))) ↔
    LayoutKept (pageSize b) 0 (startAddr before text) 0 0 (before ++ text :: after) ∧
      leadingEnd (pageSize b) text.vmAddr (startAddr before text) before = text.vmAddr := by
  have hok := h.segmentOk
  have hlead (hkept : LayoutKept (pageSize b) 0 (startAddr before text) 0 0 (before ++ text :: after)) :=
    leadingVmOffset_encodeFrom (P := 0) hok h.ordered h.before_empty h.text_content.2 h.cursorOk hkept
  have hiff {P : BitVec 64}
      (hP : P = BitVec.ofNat 64 (startAddr before text) - BitVec.ofNat 64 text.vmAddr) :
      List.Forall₂ (Reports (pageSize b) text.vmAddr) (before ++ text :: after)
        (walkDiskSegments (pageSize b) 0 0 P (encodeFrom (pageSize b) 0 0 (before ++ text :: after))) ↔
      LayoutKept (pageSize b) 0 (startAddr before text) 0 0 (before ++ text :: after) := by
    have hround : roundUp (pageSize b) 0 = 0 := by cases b <;> rfl
    have hF : (2 ^ 32 : Int) ∣ (0 : Nat) - (roundUp (pageSize b) 0 + 0) := by
      rw [hround]
      simp
    have hwalk := walkDiskSegments_reports_iff (I := 0) hok h.ordered h.content (fun _ _ _ _ => rfl) h.cursorOk hP
      (by decide) hF
    rwa [Nat.zero_mod] at hwalk
  rw [forEachDiskSegment, addSegments_eq]
  constructor
  · intro hreports
    -- the report of the first segment says what the first loop has computed
    have hP : leadingVmOffset (pageSize b) 0 (encodeFrom (pageSize b) 0 0 (before ++ text :: after)) =
        BitVec.ofNat 64 (startAddr before text) - BitVec.ofNat 64 text.vmAddr := by
      generalize leadingVmOffset (pageSize b) 0 _ = P at hreports ⊢
      have hfirst : ∀ (s : SegmentInfo) (segs : List SegmentInfo),
          List.Forall₂ (Reports (pageSize b) text.vmAddr) (s :: segs)
            (walkDiskSegments (pageSize b) 0 0 P (encodeFrom (pageSize b) 0 0 (s :: segs))) →
          P = BitVec.ofNat 64 s.vmAddr - BitVec.ofNat 64 text.vmAddr := by
        intro s segs hs
        have hpad : (segInfo (pageSize b) s).paddingNotSeg = 0 := by simp [segInfo]
        rw [encodeFrom, walkDiskSegments_filePadding (by decide),
          walkDiskSegments_vmPadding (Nat.mod_lt _ (by decide)), walkDiskSegments, if_pos hpad,
          List.forall₂_cons] at hs
        have hvm := hs.1.1
        simpa [vmPadPages] using hvm
      cases before with
      | nil => exact hfirst _ _ hreports
      | cons s before => exact hfirst _ _ hreports
    have hkept := (hiff hP).mp hreports
    refine ⟨hkept, ?_⟩
    have hend := leadingEnd_le (fun s hs => hkept.sizesFit s (by simp [hs]))
      (fun s hs => (List.pairwise_append.mp h.ordered).2.2 s hs text (by simp))
      ((startAddr_le h.ordered text (by simp)).trans (Nat.le_add_right _ _))
    have hpage := two_pow_mul_pageSize_le b
    have htext := (hok text (by simp)).vmEnd_lt
    apply (ofNat64_eq_iff (by omega) (by omega)).mp
    rw [hlead hkept, zero_add] at hP
    exact sub_right_injective hP
  · rintro ⟨hkept, hend⟩
    refine (hiff ?_).mpr hkept
    rw [hlead hkept, hend, zero_add]

lemma sliceOffsetInFile_eq_iff {sliceOffset vmSize : Nat} (h : sliceOffset % pageSize b = 0) :
    sliceOffsetInFile (setMappingInfo b sliceOffset vmSize) = sliceOffset ↔ sliceOffset < 2 ^ 32 := by
  simp only [sliceOffsetInFile, setMappingInfo]
  cases b <;> simp only [pageSize_true, pageSize_false] at h <;> omega

lemma vmSizeToMap_eq_iff {sliceOffset vmSize : Nat} (h : vmSize % pageSize b = 0) :
    vmSizeToMap b (setMappingInfo b sliceOffset vmSize) = vmSize ↔ vmSize < 2 ^ 32 := by
  simp only [vmSizeToMap, setMappingInfo]
  cases b <;> simp only [pageSize_true, pageSize_false] at h ⊢ <;> omega

end Accepted

/-- Over every accepted file with page-aligned segments: the recorded layout, slice offset and
mapped size read back as they were exactly when both are below 4 GB, the segments can be
recovered from their page counts, and no segment before `__TEXT` cuts the count short. -/
theorem segmentLayout_roundTrips_iff (is64 uses16KPages : Bool) (fileLen : Nat) (e : EnforceFormat)
    (before : List SegmentInfo) (text : SegmentInfo) (after : List SegmentInfo)
    (h : AcceptedLayout is64 uses16KPages fileLen e before text after) (sliceOffset vmSize : Nat)
    (hslice : sliceOffset % pageSize uses16KPages = 0) (hvm : vmSize % pageSize uses16KPages = 0) :
    LayoutRoundTrips uses16KPages sliceOffset vmSize before text after ↔
      sliceOffset < 2 ^ 32 ∧ vmSize < 2 ^ 32 ∧
      LayoutKept (pageSize uses16KPages) 0 (startAddr before text) 0 0 (before ++ text :: after) ∧
      leadingEnd (pageSize uses16KPages) text.vmAddr (startAddr before text) before = text.vmAddr := by
  rw [LayoutRoundTrips, h.reports_iff, sliceOffsetInFile_eq_iff hslice, vmSizeToMap_eq_iff hvm]
  tauto

def pageZero : SegmentInfo := ⟨"__PAGEZERO", 0, 0, 0, 0x100000000, 0, false, false⟩

def textSegment : SegmentInfo := ⟨"__TEXT", 0, 0x8000, 0x100000000, 0x8000, 5, false, false⟩

def linkedit : SegmentInfo := ⟨"__LINKEDIT", 0x8000, 0x1234, 0x100008000, 0x4000, 1, false, false⟩

def enforceAll : EnforceFormat := ⟨true, true, true⟩

lemma acceptedLayout_linkedit :
    AcceptedLayout true true 0x10000 enforceAll [pageZero] textSegment [linkedit] := by
  refine ⟨?_, ?_, ?_, ?_, ?_, ?_⟩ <;> decide

theorem segmentLayout_roundTrips_iff_linkedit :
    LayoutRoundTrips true 0x4000 0xC000 [pageZero] textSegment [linkedit] ↔
      0x4000 < 2 ^ 32 ∧ 0xC000 < 2 ^ 32 ∧
      LayoutKept (pageSize true) 0 0 0 0 [pageZero, textSegment, linkedit] ∧
      leadingEnd (pageSize true) textSegment.vmAddr 0 [pageZero] = textSegment.vmAddr :=
  segmentLayout_roundTrips_iff true true 0x10000 enforceAll [pageZero] textSegment [linkedit]
    acceptedLayout_linkedit 0x4000 0xC000 (by decide) (by decide)

theorem sliceOffset_lost :
    AcceptedLayout true true 0x10000 enforceAll [pageZero] textSegment [linkedit] ∧
    sliceOffsetInFile (setMappingInfo true 0x100000000 0xC000) = 0 ∧
    ¬LayoutRoundTrips true 0x100000000 0xC000 [pageZero] textSegment [linkedit] := by
  refine ⟨acceptedLayout_linkedit, by decide, ?_⟩
  rintro ⟨-, hslice, -⟩
  exact absurd hslice (by decide)

end Dyld.Closure
