import Dyld.Chained.Starts
import Dyld.Lib.BitField
import Dyld.Lib.Patch

/-!
# Chained pointers

The words of a fixup chain, `ChainedFixupPointerOnDisk`, with the decoders that leave them as
they are, and the walk of `MachOLoaded` over the chains of an image with a handler that may
overwrite them.
-/

namespace Dyld.Chained

open Dyld.Lib

/-! ### Pointers on disk -/

-- the values of `pointer_format`
def ptrArm64e : Nat := 1
def ptr64 : Nat := 2
def ptr32 : Nat := 3
def ptr32Cache : Nat := 4
def ptr32Firmware : Nat := 5
def ptr64Offset : Nat := 6
def ptrArm64eKernel : Nat := 7
def ptr64KernelCache : Nat := 8
def ptrArm64eUserland : Nat := 9
def ptrArm64eFirmware : Nat := 10
def ptrX8664KernelCache : Nat := 11
def ptrArm64eUserland24 : Nat := 12

/-- The formats whose words have the `arm64e` layouts. -/
def arm64eFormats : List Nat :=
  [ptrArm64e, ptrArm64eUserland, ptrArm64eUserland24, ptrArm64eKernel, ptrArm64eFirmware]

/-- `ChainedFixupPointerOnDisk`, a union over its 64 raw bits. -/
abbrev PointerOnDisk := BitVec 64

namespace PointerOnDisk

variable (raw : PointerOnDisk)

-- `arm64e`: the bits shared by its layouts, then `rebase`, `authRebase`, `bind` and `bind24`
def arm64eAuth : Bool := raw.getLsbD 63
def arm64eBind : Bool := raw.getLsbD 62
def arm64eNext : Nat := getField raw 51 11
def arm64eTarget : Nat := getField raw 0 43
def arm64eHigh8 : Nat := getField raw 43 8
def arm64eAuthTarget : Nat := getField raw 0 32
def arm64eDiversity : Nat := getField raw 32 16
def arm64eAddrDiv : Bool := raw.getLsbD 48
def arm64eKey : Nat := getField raw 49 2
def arm64eOrdinal : Nat := getField raw 0 16
def arm64eOrdinal24 : Nat := getField raw 0 24
def arm64eAddend : Nat := getField raw 32 19

-- `generic64`: `rebase` and `bind`
def generic64Bind : Bool := raw.getLsbD 63
def generic64Next : Nat := getField raw 51 12
def generic64Target : Nat := getField raw 0 36
def generic64High8 : Nat := getField raw 36 8
def generic64Ordinal : Nat := getField raw 0 24
def generic64Addend : Nat := getField raw 24 8

/-- `Arm64e::unpackTarget`. -/
def arm64eUnpackTarget : BitVec 64 :=
  (BitVec.ofNat 64 raw.arm64eHigh8 <<< 56) ||| BitVec.ofNat 64 raw.arm64eTarget

/-- `Arm64e::signExtendedAddend`. -/
def arm64eSignExtendedAddend : BitVec 64 :=
  let addend19 := BitVec.ofNat 64 raw.arm64eAddend
  if addend19 &&& 0x40000#64 ≠ 0 then addend19 ||| 0xFFFFFFFFFFFC0000#64 else addend19

def generic64UnpackedTarget : BitVec 64 :=
  (BitVec.ofNat 64 raw.generic64High8 <<< 56) ||| BitVec.ofNat 64 raw.generic64Target

def generic64SignExtendedAddend : BitVec 64 :=
  let addend27 := BitVec.ofNat 64 raw.generic64Addend
  let top8Bits := addend27 &&& 0x00007F80000#64
  let bottom19Bits := addend27 &&& 0x0000007FFFF#64
  (top8Bits <<< 13) ||| (((bottom19Bits <<< 37) >>> 37) &&& 0x00FFFFFFFFFFFFFF#64)

/-- The arm64e ordinal of a bind, with 16 or 24 bits. -/
def arm64eBindOrdinal (format : Nat) : Nat :=
  if format = ptrArm64eUserland24 then raw.arm64eOrdinal24 else raw.arm64eOrdinal

-- `generic32`, `kernel64` and `firmware32`
def generic32Bind : Bool := raw.getLsbD 31
def generic32Target : Nat := getField raw 0 26
def generic32Next : Nat := getField raw 26 5
def generic32Ordinal : Nat := getField raw 0 20
def generic32Addend : Nat := getField raw 20 6
def kernel64Target : Nat := getField raw 0 30
def kernel64Next : Nat := getField raw 51 12
def firmware32Target : Nat := getField raw 0 26
def firmware32Next : Nat := getField raw 26 6

/-- `isRebase`: `targetRuntimeOffset` when it returns true. A format it asserts not to see is
no rebase here. -/
def isRebase (format : Nat) (preferredLoadAddress : BitVec 64) : Option (BitVec 64) :=
  if format ∈ arm64eFormats then
    if raw.arm64eBind then none
    else if raw.arm64eAuth then some (BitVec.ofNat 64 raw.arm64eAuthTarget)
    else if format = ptrArm64e ∨ format = ptrArm64eFirmware then
      some (raw.arm64eUnpackTarget - preferredLoadAddress)
    else some raw.arm64eUnpackTarget
  else if format ∈ [ptr64, ptr64Offset] then
    if raw.generic64Bind then none
    else if format = ptr64 then some (raw.generic64UnpackedTarget - preferredLoadAddress)
    else some raw.generic64UnpackedTarget
  else if format ∈ [ptr64KernelCache, ptrX8664KernelCache] then
    some (BitVec.ofNat 64 raw.kernel64Target)
  else if format = ptr32 then
    if raw.generic32Bind then none
    else some (BitVec.ofNat 64 raw.generic32Target - preferredLoadAddress)
  else if format = ptr32Firmware then
    some (BitVec.ofNat 64 raw.firmware32Target - preferredLoadAddress)
  else none

/-- `isBind`: the ordinal and the addend when it returns true. -/
def isBind (format : Nat) : Option (Nat × BitVec 64) :=
  if format ∈ arm64eFormats then
    if raw.arm64eBind then
      if raw.arm64eAuth then some (raw.arm64eBindOrdinal format, 0)
      else some (raw.arm64eBindOrdinal format, raw.arm64eSignExtendedAddend)
    else none
  else if format ∈ [ptr64, ptr64Offset] then
    if raw.generic64Bind then some (raw.generic64Ordinal, BitVec.ofNat 64 raw.generic64Addend)
    else none
  else if format = ptr32 ∧ raw.generic32Bind then
    some (raw.generic32Ordinal, BitVec.ofNat 64 raw.generic32Addend)
  else none

end PointerOnDisk

/-! ### The walk -/

inductive ChainError
  | bindOrdinalOutOfRange (bindOrdinal count : Nat)
  | unsupportedFormat (format : Nat)
  | unknownFormat (format : Nat)
  deriving DecidableEq, Repr

/-- `ChainedFixupPointerOnDisk::strideSize`; `none` is a failed assertion. -/
def strideSize (format : Nat) : Option Nat :=
  if format ∈ [ptrArm64e, ptrArm64eUserland, ptrArm64eUserland24] then some 8
  else if format ∈ [ptrArm64eKernel, ptrArm64eFirmware, ptr32Firmware, ptr64, ptr64Offset, ptr32,
      ptr32Cache, ptr64KernelCache] then some 4
  else if format = ptrX8664KernelCache then some 1
  else none

/-- The distance in bytes to the next location of a chain, zero at its end; `none` for a format
that `walkChain` does not know. -/
def nextDistance (format stride : Nat) (raw : PointerOnDisk) : Option Nat :=
  if format ∈ arm64eFormats then some (raw.arm64eNext * stride)
  else if format ∈ [ptr64, ptr64Offset] then some (raw.generic64Next * 4)
  else if format = ptr32 then some (raw.generic32Next * 4)
  else if format ∈ [ptr64KernelCache, ptrX8664KernelCache] then some (raw.kernel64Next * stride)
  else if format = ptr32Firmware then some (raw.firmware32Next * 4)
  else none

/-- `MachOLoaded::walkChain` with `notifyNonPointers`; `none` is a failed assertion, or a chain
that is longer than the fuel. -/
def walkChain (format : Nat) (handler : Patching ChainError → Nat → Patching ChainError × Bool)
    (fuel : Nat) (s : Patching ChainError) (chain : Nat) : Option (Patching ChainError × Bool) :=
  (strideSize format).bind (fun stride =>
    if nextDistance format stride 0 = none then
      let r := handler s chain
      if r.2 then some r else some ({ r.1 with diag := some (.unknownFormat format) }, true)
    else
      walk (fun raw => (nextDistance format stride raw).getD 0) (fun s a => load 8 s.mem a) handler
        fuel s chain)

/-- An image in memory: where it is, and what `fixupAllChainedFixups` is given. -/
structure ChainedImage where
  loadAddress : BitVec 64
  preferredLoadAddress : BitVec 64
  slide : BitVec 64
  bindTargets : List (BitVec 64)
  -- the pointer signing of the machine: address, location, address diversity, diversity, key
  signPointer : BitVec 64 → Nat → Bool → Nat → Nat → BitVec 64

namespace ChainedImage

variable (image : ChainedImage)

def chainLocation (segInfo : StartsInSegment) (pageIndex offsetInPage : Nat) : Nat :=
  image.loadAddress.toNat + segInfo.segmentOffset + pageIndex * segInfo.pageSize + offsetInPage

/-- `Arm64e::signPointer`, which does not sign null. -/
def sign (raw : PointerOnDisk) (loc : Nat) (target : BitVec 64) : BitVec 64 :=
  if target = 0 then 0
  else image.signPointer target loc raw.arm64eAddrDiv raw.arm64eDiversity raw.arm64eKey

def bindTarget (ordinal : Nat) : Except ChainError (BitVec 64) :=
  match image.bindTargets[ordinal]? with
  | some target => .ok target
  | none => .error (.bindOrdinalOutOfRange ordinal image.bindTargets.length)

/-- The new value that the handler of `fixupAllChainedFixups` computes on a 64-bit machine with
pointer authentication. -/
def newValue (format loc : Nat) (raw : PointerOnDisk) : Except ChainError (BitVec 64) :=
  if format ∈ [ptrArm64e, ptrArm64eKernel, ptrArm64eUserland, ptrArm64eUserland24] then
    if raw.arm64eAuth then
      if raw.arm64eBind then
        (image.bindTarget (raw.arm64eBindOrdinal format)).map (fun target =>
          if target ≠ 0 then image.sign raw loc target else target)
      else .ok (image.sign raw loc (image.loadAddress + BitVec.ofNat 64 raw.arm64eAuthTarget))
    else if raw.arm64eBind then
      (image.bindTarget (raw.arm64eBindOrdinal format)).map (· + raw.arm64eSignExtendedAddend)
    else if format = ptrArm64e then .ok (raw.arm64eUnpackTarget + image.slide)
    else .ok (image.loadAddress + raw.arm64eUnpackTarget)
  else if format ∈ [ptr64, ptr64Offset] then
    if raw.generic64Bind then
      (image.bindTarget raw.generic64Ordinal).map (· + raw.generic64SignExtendedAddend)
    else if format = ptr64 then .ok (raw.generic64UnpackedTarget + image.slide)
    else .ok (image.loadAddress + raw.generic64UnpackedTarget)
  else .error (.unsupportedFormat format)

/-- A `dyld_chained_starts_in_image`: `none` for a segment without fixups. -/
abbrev StartsInImage := List (Option StartsInSegment)

/-- The handler of `fixupAllChainedFixups`. -/
def fixup (segInfo : StartsInSegment) : Patching ChainError → Nat → Patching ChainError × Bool :=
  patch (n := 8) (image.newValue segInfo.pointerFormat)

/-- A handler that only takes note of the locations. -/
def note (_ : StartsInSegment) (s : Patching ChainError) (a : Nat) : Patching ChainError × Bool :=
  ({ s with visited := s.visited ++ [a] }, false)

lemma feed_note (segInfo : StartsInSegment) (s : Patching ChainError) (l : List Nat) :
    feed (note segInfo) s l = ({ s with visited := s.visited ++ l }, false) := by
  induction l generalizing s with
  | nil => simp
  | cons a l ih =>
    rw [feed_cons, if_neg (by simp [note]), ih]
    simp [note]

/-- `forEachFixupInSegmentChains` with a handler. -/
def inSegment (handler : StartsInSegment → Patching ChainError → Nat → Patching ChainError × Bool)
    (fuel : Nat) (s : Patching ChainError) (segInfo : StartsInSegment) :
    Option (Patching ChainError) :=
  (forEachFixupInSegmentChains
    (fun s pageIndex offsetInPage =>
      walkChain segInfo.pointerFormat (handler segInfo) fuel s
        (image.chainLocation segInfo pageIndex offsetInPage))
    segInfo fuel ⟨s, [], []⟩).map (·.1.state)

/-- `MachOLoaded::forEachFixupInAllChains`. Its `stopped` is never set, so a handler that stops
ends the walk of its segment only. -/
def forEachFixupInAllChains
    (handler : StartsInSegment → Patching ChainError → Nat → Patching ChainError × Bool)
    (fuel : Nat) : StartsInImage → Patching ChainError → Option (Patching ChainError)
  | [], s => some s
  | none :: starts, s => forEachFixupInAllChains handler fuel starts s
  | some segInfo :: starts, s =>
    (image.inSegment handler fuel s segInfo).bind (forEachFixupInAllChains handler fuel starts)

/-- `MachOLoaded::fixupAllChainedFixups` on memory `m`. -/
def fixupAllChainedFixups (fuel : Nat) (starts : StartsInImage) (m : Mem) :
    Option (Patching ChainError) :=
  image.forEachFixupInAllChains image.fixup fuel starts ⟨m, none, []⟩

/-- The locations that a walk of one segment visits when memory does not change. -/
def locations (fuel : Nat) (m : Mem) (segInfo : StartsInSegment) : Option (List Nat) :=
  (image.inSegment note fuel ⟨m, none, []⟩ segInfo).map (·.visited)

end ChainedImage

end Dyld.Chained
