import Dyld.Chained.Pointer

/-!
# Chained fixups of kernel collections

`buildChainedFixups` of the kernel collection builder packs the tracked locations of its segments
into chains, page by page, and writes the starts tables into a buffer of its own. The walker of
`MachOLoaded` finds the locations from the tables alone.
-/

namespace Dyld.Chained

open Dyld.Lib

namespace PointerOnDisk

variable (raw : PointerOnDisk)

-- the other fields of `kernel64`
def kernel64CacheLevel : Nat := getField raw 30 2
def kernel64Diversity : Nat := getField raw 32 16
def kernel64AddrDiv : Nat := getField raw 48 1
def kernel64Key : Nat := getField raw 49 2
def kernel64IsAuth : Nat := getField raw 63 1

end PointerOnDisk

/-! ### The builder -/

/-- `ASLR_Tracker::AuthData`. The key is one of four. -/
structure AuthData where
  diversity : Nat
  addrDiv : Bool
  key : Nat
  diversity_lt : diversity < 2 ^ 16
  key_lt : key < 2 ^ 2

/-- `CacheBuilder::ASLR_Tracker`, where fixups may stand at any byte. A level of `0xFF` is none. -/
structure ASLRTracker where
  bitmap : Nat → Bool
  cacheLevels : Nat → Nat
  high8Map : Nat → Option Nat
  authDataMap : Nat → Option AuthData

structure SegmentFixups where
  segmentBuffer : Nat
  segmentIndex : Nat
  unslidLoadAddress : Nat
  sizeInUse : Nat
  numPagesToFixup : Nat
  deriving DecidableEq, Repr

/-- What `buildChainedFixups` uses of the builder. -/
structure AppCache where
  isX86 : Bool
  currentLevel : Nat
  levelBaseAddresses : Nat → BitVec 64
  aslrTracker : ASLRTracker

/-- The buffer of the fixups, whose start is address zero, and the memory of the segments. -/
structure FixupMem where
  buffer : Mem
  mem : Mem

/-- A page that is being fixed, with its last location. -/
structure PageState extends FixupMem where
  lastLoc : Option Nat

def numFixupLevels : Nat := 4

/-- Where `dyld_chained_starts_in_image` stands in the buffer, behind the header. -/
def startsInImage : Nat := 28

def segInfoAddress (i : Nat) : Nat := startsInImage + 4 + 4 * i

namespace AppCache

variable (c : AppCache)

def fixupsPageSize : Nat := if c.isX86 then 4096 else 16384

def chainedPointerFormat : Nat := if c.isX86 then ptrX8664KernelCache else ptr64KernelCache

def stride : Nat := (strideSize c.chainedPointerFormat).getD 0

/-- `_aslrTracker.has(loc, &fixupLevel)` leaves the current level where none is tracked. -/
def fixupLevel (loc : Nat) : Nat :=
  if c.aslrTracker.cacheLevels loc = 0xFF then c.currentLevel else c.aslrTracker.cacheLevels loc

def targetVMAddr (loc : Nat) (raw : BitVec 64) : BitVec 64 :=
  match c.aslrTracker.high8Map loc with
  | some highByte => raw ||| BitVec.ofNat 64 highByte <<< 56
  | none => raw

def targetVMOffset (loc : Nat) (raw : BitVec 64) : Nat :=
  (c.targetVMAddr loc raw - c.levelBaseAddresses (c.fixupLevel loc)).toNat

def packedLocation (raw : PointerOnDisk) (offset level : Nat) (auth : Option AuthData) :
    PointerOnDisk :=
  let raw := setField raw 0 30 offset
  let raw := setField raw 30 2 level
  match auth with
  | some data =>
    let raw := setField raw 32 16 data.diversity
    let raw := setField raw 48 1 data.addrDiv.toNat
    let raw := setField raw 49 2 data.key
    let raw := setField raw 51 12 0
    setField raw 63 1 1
  | none =>
    let raw := setField raw 32 16 0
    let raw := setField raw 48 1 0
    let raw := setField raw 49 2 0
    let raw := setField raw 51 12 0
    setField raw 63 1 0

def packFixup (mem : Mem) (fixupLoc : Nat) : Option Mem :=
  if ¬c.fixupLevel fixupLoc < numFixupLevels then none
  else
    let offset := c.targetVMOffset fixupLoc (load 8 mem fixupLoc)
    let raw := packedLocation (load 8 mem fixupLoc) offset (c.fixupLevel fixupLoc)
      (c.aslrTracker.authDataMap fixupLoc)
    if raw.kernel64Target ≠ offset then none else some (store 8 mem fixupLoc raw)

/-- Patches the last location to point to this one. -/
def linkLast (mem : Mem) (lastLoc fixupLoc : Nat) : Option Mem :=
  let raw : PointerOnDisk := load 8 mem lastLoc
  if raw.kernel64Next ≠ 0 then none
  else
    let next := (fixupLoc - lastLoc) / c.stride
    let raw : PointerOnDisk := setField raw 51 12 next
    if raw.kernel64Next ≠ next then none else some (store 8 mem lastLoc raw)

section Page

variable (seg : SegmentFixups) (starts pageIndex : Nat)

def fixupLoc (pageOffset : Nat) : Nat :=
  seg.segmentBuffer + pageIndex * c.fixupsPageSize + pageOffset

/-- The body of the loop over the bytes of a page; `none` is a failed assertion. -/
def fixOffset (s : PageState) (pageOffset : Nat) : Option PageState :=
  let loc := c.fixupLoc seg pageIndex pageOffset
  if c.aslrTracker.bitmap loc = false then some s
  else if pageOffset % c.stride ≠ 0 then none
  else
    match s.lastLoc with
    | some lastLoc =>
      (c.linkLast s.mem lastLoc loc).bind (fun mem =>
        (c.packFixup mem loc).map (fun mem => ⟨⟨s.buffer, mem⟩, some loc⟩))
    | none =>
      (c.packFixup s.mem loc).map (fun mem =>
        ⟨⟨storeNat 2 s.buffer (starts + offsetofPageStart pageIndex) pageOffset, mem⟩, some loc⟩)

def fixPage (s : FixupMem) : Option FixupMem :=
  let s := { s with buffer := storeNat 2 s.buffer (starts + offsetofPageStart pageIndex) startNone }
  ((List.range c.fixupsPageSize).foldlM (c.fixOffset seg starts pageIndex) ⟨s, none⟩).map (·.toFixupMem)

end Page

def pageCount (seg : SegmentFixups) : Nat :=
  (seg.sizeInUse + c.fixupsPageSize - 1) / c.fixupsPageSize % 2 ^ 16

def putFields (baseAddress : Nat) (seg : SegmentFixups) (starts : Nat) (m : Mem) : Mem :=
  let m := storeNat 4 m starts (24 + 2 * seg.numPagesToFixup)
  let m := storeNat 2 m (starts + 4) c.fixupsPageSize
  let m := storeNat 2 m (starts + 6) c.chainedPointerFormat
  let m := storeNat 8 m (starts + 8) ((seg.unslidLoadAddress + (2 ^ 64 - baseAddress)) % 2 ^ 64)
  let m := storeNat 4 m (starts + 16) 0
  storeNat 2 m (starts + 20) (c.pageCount seg)

/-- The starts of a segment, and its chains. -/
def fixSegment (baseAddress : Nat) (s : FixupMem) (placed : SegmentFixups × Nat) : Option FixupMem :=
  (List.range (c.pageCount placed.1)).foldlM
    (fun s pageIndex => c.fixPage placed.1 placed.2 pageIndex s)
    { s with buffer := c.putFields baseAddress placed.1 placed.2 s.buffer }

end AppCache

structure ByteBuffer where
  bytes : Mem
  used : Nat

def ByteBuffer.makeSpace (b : ByteBuffer) (capacity bytesNeeded : Nat) : Option ByteBuffer :=
  if b.used + bytesNeeded ≤ capacity then
    some ⟨fun x => if b.used ≤ x ∧ x < b.used + bytesNeeded then 0 else b.bytes x, b.used + bytesNeeded⟩
  else none

def placeStarts (capacity : Nat) : List SegmentFixups → ByteBuffer →
    Option (List (SegmentFixups × Nat) × ByteBuffer)
  | [], b => some ([], b)
  | seg :: segs, b =>
    (b.makeSpace capacity (24 + 2 * seg.numPagesToFixup)).bind (fun b' =>
      (placeStarts capacity segs b').map (fun r => ((seg, b.used) :: r.1, r.2)))

def putSegInfo (segmentCount : Nat) (m : Mem) (placed : SegmentFixups × Nat) : Option Mem :=
  if ¬placed.1.segmentIndex < segmentCount then none
  else if loadNat m (segInfoAddress placed.1.segmentIndex) 4 ≠ 0 then none
  else some (storeNat 4 m (segInfoAddress placed.1.segmentIndex) (placed.2 - startsInImage))

def putStartsInImage (segmentCount : Nat) (m : Mem) : Mem :=
  (List.range segmentCount).foldl (fun m i => storeNat 4 m (segInfoAddress i) 0)
    (storeNat 4 m startsInImage segmentCount)

/-- `dyld_chained_fixups_header`. The imports are none, of format `DYLD_CHAINED_IMPORT`. -/
def putFixupsHeader (importsOffset : Nat) (m : Mem) : Mem :=
  let m := storeNat 4 m 0 0
  let m := storeNat 4 m 4 startsInImage
  let m := storeNat 4 m 8 importsOffset
  let m := storeNat 4 m 12 importsOffset
  let m := storeNat 4 m 16 0
  let m := storeNat 4 m 20 1
  storeNat 4 m 24 0

/-- `buildChainedFixups` of `AppCacheBuilder::writeFixups`; `none` is a failed assertion. -/
def AppCache.buildChainedFixups (c : AppCache) (capacity baseAddress segmentCount : Nat)
    (startsInSegments : List SegmentFixups) (s : FixupMem) : Option FixupMem :=
  (ByteBuffer.makeSpace ⟨s.buffer, 0⟩ capacity startsInImage).bind (fun b =>
    (b.makeSpace capacity (8 + 4 * segmentCount)).bind (fun b =>
      (placeStarts capacity startsInSegments b).bind (fun r =>
        (r.1.foldlM (putSegInfo segmentCount) (putStartsInImage segmentCount r.2.bytes)).bind
          (fun buffer =>
            (r.1.foldlM (c.fixSegment baseAddress) ⟨buffer, s.mem⟩).map (fun s =>
              { s with buffer := putFixupsHeader r.2.used s.buffer })))))

/-! ### The walker -/

/-- Where a page offset is in memory, for a header in memory. Addresses wrap. -/
def kernelLocation (header : Nat) (segInfo : StartsInSegment) (pageIndex offsetInPage : Nat) : Nat :=
  (header + segInfo.segmentOffset + pageIndex * segInfo.pageSize + offsetInPage) % 2 ^ 64

def walkSegment (header fuel : Nat) (s : Patching ChainError) (segInfo : StartsInSegment) :
    Option (Patching ChainError) :=
  (forEachFixupInSegmentChains
    (fun s pageIndex offsetInPage =>
      walkChain segInfo.pointerFormat (ChainedImage.note segInfo) fuel s
        (kernelLocation header segInfo pageIndex offsetInPage))
    segInfo fuel ⟨s, [], []⟩).map (·.1.state)

def walkStarts (header fuel starts : Nat) (buffer : Mem) (s : Patching ChainError) (segIndex : Nat) :
    Option (Patching ChainError) :=
  let segInfoOffset := loadNat buffer (starts + 4 + 4 * segIndex) 4
  if segInfoOffset = 0 then some s
  else walkSegment header fuel s (loadStartsInSegment buffer (starts + segInfoOffset))

/-- `MachOLoaded::forEachFixupInAllChains`, for the starts that the header of the fixups leads to: the
locations it visits. -/
def fixupLocations (header fuel : Nat) (s : FixupMem) : Option (List Nat) :=
  let starts := loadNat s.buffer 4 4
  ((List.range (loadNat s.buffer starts 4)).foldlM (walkStarts header fuel starts s.buffer)
    ⟨s.mem, none, []⟩).map (·.visited)

end Dyld.Chained
