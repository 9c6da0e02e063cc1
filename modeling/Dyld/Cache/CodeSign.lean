import Dyld.Cache.Header
import Dyld.Lib.ByteStrings
import Dyld.MachO.CodeDirectories

/-!
# Signing a cache file

`SharedCacheBuilder::codeSign` lays out a signature behind the regions of a cache, and hashes the pages
of the regions where they are in memory. Then it puts a UUID into the header, which is made from the
hashes, and hashes the first page again. `writeCache` copies the regions and the signature to the file.
Sizes and offsets stay far below 64 bits; what the source keeps in 32 bits is reduced.
-/

namespace Dyld.Cache.CodeSign

open Dyld.Lib
open Dyld.MachO.CodeDirectories (htonl CSMAGIC_CODEDIRECTORY CSMAGIC_EMBEDDED_SIGNATURE CSSLOT_CODEDIRECTORY
  CSSLOT_ALTERNATE_CODEDIRECTORIES)

def CSMAGIC_REQUIREMENTS : Nat := 0xfade0c01
def CSMAGIC_BLOBWRAPPER : Nat := 0xfade0b01

def CS_PAGE_SIZE_4K : Nat := 4096
def CS_PAGE_SIZE_16K : Nat := 16384

def CS_HASHTYPE_SHA1 : Nat := 1
def CS_HASHTYPE_SHA256 : Nat := 2
def CS_HASH_SIZE_SHA1 : Nat := 20
def CS_HASH_SIZE_SHA256 : Nat := 32

def CSSLOT_REQUIREMENTS : Nat := 2
def CSSLOT_CMS_SIGNATURE : Nat := 0x10000
def kSecCodeSignatureAdhoc : Nat := 2

/-- `htonll` on a little-endian host. -/
def htonll (x : Nat) : Nat := htonl (x % 2 ^ 32) * 2 ^ 32 + htonl (x / 2 ^ 32)

inductive DigestFormat
  | kCCDigestSHA1 | kCCDigestSHA256
  deriving DecidableEq, Repr

def DigestFormat.size : DigestFormat → Nat
  | kCCDigestSHA1 => CS_HASH_SIZE_SHA1
  | kCCDigestSHA256 => CS_HASH_SIZE_SHA256

/-- The digest functions. -/
structure CommonCrypto where
  CCDigest : DigestFormat → List UInt8 → List UInt8
  length_CCDigest : ∀ format data, (CCDigest format data).length = format.size

/-! ### The structures of a signature, with fields as they are stored -/

structure CS_CodeDirectory where
  magic : Nat
  length : Nat
  version : Nat
  flags : Nat
  hashOffset : Nat
  identOffset : Nat
  nSpecialSlots : Nat
  nCodeSlots : Nat
  codeLimit : Nat
  hashSize : Nat
  hashType : Nat
  platform : Nat
  pageSize : Nat
  spare2 : Nat
  scatterOffset : Nat
  teamOffset : Nat
  spare3 : Nat
  codeLimit64 : Nat
  execSegBase : Nat
  execSegLimit : Nat
  execSegFlags : Nat
  deriving DecidableEq, Repr

def CS_CodeDirectory.toBytes (cd : CS_CodeDirectory) : List UInt8 :=
  numBytes 4 cd.magic ++ numBytes 4 cd.length ++ numBytes 4 cd.version ++ numBytes 4 cd.flags ++
    numBytes 4 cd.hashOffset ++ numBytes 4 cd.identOffset ++ numBytes 4 cd.nSpecialSlots ++
    numBytes 4 cd.nCodeSlots ++ numBytes 4 cd.codeLimit ++ numBytes 1 cd.hashSize ++
    numBytes 1 cd.hashType ++ numBytes 1 cd.platform ++ numBytes 1 cd.pageSize ++ numBytes 4 cd.spare2 ++
    numBytes 4 cd.scatterOffset ++ numBytes 4 cd.teamOffset ++ numBytes 4 cd.spare3 ++
    numBytes 8 cd.codeLimit64 ++ numBytes 8 cd.execSegBase ++ numBytes 8 cd.execSegLimit ++
    numBytes 8 cd.execSegFlags

structure CS_BlobIndex where
  type : Nat
  offset : Nat
  deriving DecidableEq, Repr

structure CS_SuperBlob where
  magic : Nat
  length : Nat
  count : Nat
  index : List CS_BlobIndex
  deriving DecidableEq, Repr

def CS_SuperBlob.toBytes (sb : CS_SuperBlob) : List UInt8 :=
  numBytes 4 sb.magic ++ numBytes 4 sb.length ++ numBytes 4 sb.count ++
    sb.index.flatMap (fun entry => numBytes 4 entry.type ++ numBytes 4 entry.offset)

/-- `offsetof(CS_CodeDirectory, end_withExecSeg)` -/
def sizeofCodeDirectory : Nat := 88

def sizeofSuperBlob : Nat := 12
def sizeofBlobIndex : Nat := 8
def sizeofRequirementsBlob : Nat := 12
def sizeofBlob : Nat := 8

/-! ### The builder -/

structure Region where
  buffer : Mem
  sizeInUse : Nat
  cacheFileOffset : Nat

structure UnmappedRegion where
  buffer : Mem
  bufferSize : Nat
  sizeInUse : Nat

inductive CodeSigningDigestMode
  | SHA256only | SHA1only | Agile
  deriving DecidableEq, Repr

/-- What `MachOFile::archName` returns. -/
def archNames : List String :=
  ["x86_64", "x86_64h", "i386", "arm64", "arm64e", "arm64_32", "armv7k", "armv7s", "armv7", "unknown"]

/-- The cache header is at the start of the first region. Page sizes are those of `_s_archLayout`. -/
structure SharedCacheBuilder where
  readExecuteRegion : Region
  dataRegions : List Region
  readOnlyRegion : Region
  localSymbolsRegion : UnmappedRegion
  archName : String
  csPageSize : Nat
  codeSigningDigestMode : CodeSigningDigestMode
  dylibsRemovedDuringMastering : Bool
  optimizeStubs : Bool
  archName_mem : archName ∈ archNames
  csPageSize_eq : csPageSize = CS_PAGE_SIZE_4K ∨ csPageSize = CS_PAGE_SIZE_16K
  header_fits : sizeofCacheHeader ≤ readExecuteRegion.sizeInUse

structure Directory where
  offset : Nat
  size : Nat
  hashOffset : Nat
  hashSize : Nat
  hashType : Nat
  format : DigestFormat
  deriving DecidableEq, Repr

def asciiBytes (s : String) : List UInt8 := s.toList.map (fun c => UInt8.ofNat c.toNat)

def align (addr p2 : Nat) : Nat := (addr + (2 ^ p2 - 1)) / 2 ^ p2 * 2 ^ p2

namespace SharedCacheBuilder

variable (b : SharedCacheBuilder)

def agile : Bool := b.codeSigningDigestMode == .Agile

def dscHashType : Nat :=
  match b.codeSigningDigestMode with
  | .Agile | .SHA1only => CS_HASHTYPE_SHA1
  | .SHA256only => CS_HASHTYPE_SHA256

def dscHashSize : Nat :=
  match b.codeSigningDigestMode with
  | .Agile | .SHA1only => CS_HASH_SIZE_SHA1
  | .SHA256only => CS_HASH_SIZE_SHA256

def dscDigestFormat : DigestFormat :=
  match b.codeSigningDigestMode with
  | .Agile | .SHA1only => .kCCDigestSHA1
  | .SHA256only => .kCCDigestSHA256

def cacheIdentifier : List UInt8 :=
  asciiBytes "com.apple.dyld.cache." ++ asciiBytes b.archName ++
    if b.dylibsRemovedDuringMastering then
      if b.optimizeStubs then asciiBytes ".release" else asciiBytes ".development"
    else []

def dataRegionsSizeInUse : Nat := (b.dataRegions.map Region.sizeInUse).sum

def inBbufferSize : Nat :=
  b.readExecuteRegion.sizeInUse + b.dataRegionsSizeInUse + b.readOnlyRegion.sizeInUse +
    b.localSymbolsRegion.sizeInUse

/-! ### Layout of the signature -/

def blobCount : Nat := if b.agile then 4 else 3

def idSize : Nat := b.cacheIdentifier.length + 1

def slotCount : Nat := (b.inBbufferSize + b.csPageSize - 1) / b.csPageSize % 2 ^ 32

def xSlotCount : Nat := CSSLOT_REQUIREMENTS

def idOffset : Nat := sizeofCodeDirectory

def hashOffset : Nat := idOffset + b.idSize + b.dscHashSize * xSlotCount

def hash256Offset : Nat := idOffset + b.idSize + CS_HASH_SIZE_SHA256 * xSlotCount

def cdSize : Nat := b.hashOffset + b.slotCount * b.dscHashSize % 2 ^ 32

def cd256Size : Nat :=
  if b.agile then b.hash256Offset + b.slotCount * CS_HASH_SIZE_SHA256 % 2 ^ 32 else 0

def reqsSize : Nat := 12

def cmsSize : Nat := sizeofBlob

def cdOffset : Nat := sizeofSuperBlob + b.blobCount * sizeofBlobIndex

def cd256Offset : Nat := b.cdOffset + b.cdSize

def reqsOffset : Nat := b.cd256Offset + b.cd256Size

def cmsOffset : Nat := b.reqsOffset + reqsSize

def sbSize : Nat := b.cmsOffset + cmsSize

def sigSize : Nat := align b.sbSize 14

def cd : Directory where
  offset := b.cdOffset
  size := b.cdSize
  hashOffset := b.hashOffset
  hashSize := b.dscHashSize
  hashType := b.dscHashType
  format := b.dscDigestFormat

def cd256 : Directory where
  offset := b.cd256Offset
  size := b.cd256Size
  hashOffset := b.hash256Offset
  hashSize := CS_HASH_SIZE_SHA256
  hashType := CS_HASHTYPE_SHA256
  format := .kCCDigestSHA256

def directories : List Directory := if b.agile then [b.cd, b.cd256] else [b.cd]

def superBlob : CS_SuperBlob where
  magic := htonl CSMAGIC_EMBEDDED_SIGNATURE
  length := htonl b.sbSize
  count := htonl b.blobCount
  index :=
    [⟨htonl CSSLOT_CODEDIRECTORY, htonl b.cdOffset⟩, ⟨htonl CSSLOT_REQUIREMENTS, htonl b.reqsOffset⟩,
      ⟨htonl CSSLOT_CMS_SIGNATURE, htonl b.cmsOffset⟩] ++
    if b.agile then [⟨htonl (CSSLOT_ALTERNATE_CODEDIRECTORIES + 0), htonl b.cd256Offset⟩] else []

def reqs : List UInt8 :=
  numBytes 4 (htonl CSMAGIC_REQUIREMENTS) ++ numBytes 4 (htonl sizeofRequirementsBlob) ++ numBytes 4 0

/-- `cms`, for ad-hoc signing. -/
def cms : List UInt8 := numBytes 4 (htonl CSMAGIC_BLOBWRAPPER) ++ numBytes 4 (htonl sizeofBlob)

def codeDirectory (d : Directory) : CS_CodeDirectory where
  magic := htonl CSMAGIC_CODEDIRECTORY
  length := htonl d.size
  version := htonl 0x20400
  flags := htonl kSecCodeSignatureAdhoc
  hashOffset := htonl d.hashOffset
  identOffset := htonl idOffset
  nSpecialSlots := htonl xSlotCount
  nCodeSlots := htonl b.slotCount
  codeLimit := htonl b.inBbufferSize
  hashSize := d.hashSize
  hashType := d.hashType
  platform := 0
  pageSize := b.csPageSize.log2
  spare2 := 0
  scatterOffset := 0
  teamOffset := 0
  spare3 := 0
  codeLimit64 := 0
  execSegBase := htonll b.readExecuteRegion.cacheFileOffset
  execSegLimit := htonll b.readExecuteRegion.sizeInUse
  execSegFlags := 0

end SharedCacheBuilder

def Directory.hashSlot (d : Directory) (i : Nat) : Nat := d.offset + d.hashOffset + i * d.hashSize

/-- `reqsHashSlot` -/
def Directory.reqsHashSlot (d : Directory) : Nat :=
  d.offset + d.hashOffset - CSSLOT_REQUIREMENTS * d.hashSize

namespace SharedCacheBuilder

variable (b : SharedCacheBuilder) (cc : CommonCrypto)

def directoryWrites (d : Directory) : List (Nat × List UInt8) :=
  [(d.offset, (b.codeDirectory d).toBytes), (d.offset + idOffset, b.cacheIdentifier ++ [0]),
    (d.reqsHashSlot, cc.CCDigest d.format reqs)]

def signatureWrites : List (Nat × List UInt8) :=
  [(0, b.superBlob.toBytes), (b.reqsOffset, reqs)] ++
    b.directories.flatMap (b.directoryWrites cc) ++ [(b.cmsOffset, cms)]

/-- A new buffer is zero. -/
def layoutSignature : Mem := writeAll (fun _ => 0) (b.signatureWrites cc)

/-! ### Hashing pages -/

structure SlotRange where
  start : Nat
  stop : Nat
  buffer : Mem

/-- Each region starts at the page behind the one in front. -/
def slotRanges (pageSize : Nat) : Nat → List Piece → List SlotRange
  | _, [] => []
  | start, p :: ps =>
    ⟨start, start + p.1 / pageSize, p.2⟩ :: slotRanges pageSize (start + p.1 / pageSize) ps

def localSymbolsPieces : List Piece :=
  if b.localSymbolsRegion.sizeInUse ≠ 0 then
    [(b.localSymbolsRegion.sizeInUse, b.localSymbolsRegion.buffer)]
  else []

def pieceOf (region : Region) : Piece := (region.sizeInUse, region.buffer)

/-- The regions in front of the signature. -/
def pieces : List Piece :=
  [pieceOf b.readExecuteRegion] ++ b.dataRegions.map pieceOf ++ [pieceOf b.readOnlyRegion] ++
    b.localSymbolsPieces

/-- The buffers of the ranges are those of the regions, and hold what the regions hold when a page is
hashed. -/
def regionSlots : List SlotRange := slotRanges b.csPageSize 0 b.pieces

/-- Puts the digest of page `i` into its slots. Fails where no region has the page. -/
def codeSignPage (m : Mem) (i : Nat) : Option Mem :=
  (b.regionSlots.find? (fun slotRange => slotRange.start ≤ i && i < slotRange.stop)).map
    fun slotRange =>
      let code := readBytes slotRange.buffer ((i - slotRange.start) * b.csPageSize) b.csPageSize
      writeAll m (b.directories.map (fun d => (d.hashSlot i, cc.CCDigest d.format code)))

/-! ### codeSign -/

def writeHeader (a : Nat) (bs : List UInt8) : SharedCacheBuilder :=
  { b with readExecuteRegion :=
      { b.readExecuteRegion with buffer := writeBytes b.readExecuteRegion.buffer a bs } }

def recordSignature : SharedCacheBuilder :=
  (b.writeHeader offsetofCodeSignatureOffset (numBytes 8 b.inBbufferSize)).writeHeader
    offsetofCodeSignatureSize (numBytes 8 b.sigSize)

/-- The version and variant bits of a UUID. -/
def conform (uuid : List UInt8) : List UInt8 :=
  let version (c : UInt8) : UInt8 := (c &&& 0x0F) ||| 0x30
  let variant (c : UInt8) : UInt8 := (c &&& 0x3F) ||| 0x80
  (uuid.modify 6 version).modify 8 variant

end SharedCacheBuilder

structure SignedCache where
  builder : SharedCacheBuilder
  codeSignatureRegion : UnmappedRegion
  cdHashFirst : List UInt8
  cdHashSecond : List UInt8

/-- The assertions of `codeSign`. -/
inductive Failure
  | outOfRangeSlot
  | uuidIsNotNull
  deriving DecidableEq, Repr

namespace SharedCacheBuilder

variable (b : SharedCacheBuilder) (cc : CommonCrypto)

def uuidIsNull : Prop := readBytes b.readExecuteRegion.buffer offsetofUuid 16 = List.replicate 16 0

instance : Decidable b.uuidIsNull := inferInstanceAs (Decidable (_ = _))

/-- A UUID made from the code directory. -/
def cacheUUID (m : Mem) : List UInt8 :=
  conform ((cc.CCDigest .kCCDigestSHA256 (readBytes m b.cdOffset b.cdSize)).take 16)

def signedCache (m : Mem) : SignedCache where
  builder := b
  codeSignatureRegion := ⟨m, b.sigSize, b.sigSize⟩
  cdHashFirst := (cc.CCDigest b.dscDigestFormat (readBytes m b.cdOffset b.cdSize)).take 20
  cdHashSecond :=
    if b.agile then (cc.CCDigest .kCCDigestSHA256 (readBytes m b.cd256Offset b.cd256Size)).take 20
    else List.replicate 20 0

/-- Sets the UUID, and signs page 0 again. -/
def setUUID (m : Mem) : Except Failure SignedCache :=
  let b := b.writeHeader offsetofUuid (b.cacheUUID cc m)
  match b.codeSignPage cc m 0 with
  | none => .error .outOfRangeSlot
  | some m => .ok (b.signedCache cc m)

/-- `dispatch_apply` hashes the pages in an order of its own. -/
def codeSign (order : List Nat) : Except Failure SignedCache :=
  match order.foldlM (b.recordSignature.codeSignPage cc) (b.layoutSignature cc) with
  | none => .error .outOfRangeSlot
  | some m =>
    if b.recordSignature.uuidIsNull then b.recordSignature.setUUID cc m else .error .uuidIsNotNull

end SharedCacheBuilder

/-! ### writeCache -/

structure CacheFile where
  size : Nat
  bytes : Mem

namespace SharedCacheBuilder

variable (b : SharedCacheBuilder)

/-- A field of `cacheHeader`, or of a table that it points to. -/
def headerField (a n : Nat) : Nat := loadNat b.readExecuteRegion.buffer a n

def mappingOffset : Nat := b.headerField offsetofMappingOffset 4

def mappingCount : Nat := b.headerField offsetofMappingCount 4

def mappingWithSlideOffset : Nat := b.headerField offsetofMappingWithSlideOffset 4

def mapping (i : Nat) : MappingInfo :=
  mappingInfoAt b.headerField 24 (b.mappingOffset + sizeofMappingInfo * i)

def slidableMapping (i : Nat) : MappingInfo :=
  mappingInfoAt b.headerField 48 (b.mappingWithSlideOffset + sizeofMappingAndSlideInfo * i)

def localSymbolsOffset : Nat := b.headerField offsetofLocalSymbolsOffset 8

/-- The index of the mapping of the last region, in 32 bits. -/
def lastMapping : Nat := (b.mappingCount + 2 ^ 32 - 1) % 2 ^ 32

def MatchesMapping (region : Region) (i : Nat) : Prop :=
  region.sizeInUse = (b.mapping i).size ∧ region.cacheFileOffset = (b.mapping i).fileOffset

instance (region : Region) (i : Nat) : Decidable (b.MatchesMapping region i) :=
  inferInstanceAs (Decidable (_ ∧ _))

/-- What `writeCache` asserts of the mappings. -/
def MappingsMatch : Prop :=
  b.MatchesMapping b.readExecuteRegion 0 ∧
    (∀ x ∈ b.dataRegions.zipIdx, b.MatchesMapping x.1 (x.2 + 1)) ∧
    b.MatchesMapping b.readOnlyRegion b.lastMapping ∧
    b.mappingCount = b.headerField offsetofMappingWithSlideCount 4 ∧
    (∀ i ∈ List.range b.mappingCount, b.mapping i = b.slidableMapping i) ∧
    (b.localSymbolsRegion.sizeInUse ≠ 0 →
      b.localSymbolsOffset = (b.mapping b.lastMapping).fileOffset + b.readOnlyRegion.sizeInUse)

instance : Decidable b.MappingsMatch := inferInstanceAs (Decidable (_ ∧ _))

end SharedCacheBuilder

namespace SignedCache

variable (s : SignedCache)

def codeSignatureOffset : Nat := s.builder.headerField offsetofCodeSignatureOffset 8

def codeSignatureSize : Nat := s.builder.headerField offsetofCodeSignatureSize 8

/-- The assertions of `writeCache`. -/
def Consistent : Prop :=
  s.builder.MappingsMatch ∧ s.codeSignatureRegion.sizeInUse = s.codeSignatureSize ∧
    s.codeSignatureOffset = s.builder.readOnlyRegion.cacheFileOffset + s.builder.readOnlyRegion.sizeInUse +
      s.builder.localSymbolsRegion.sizeInUse

instance : Decidable s.Consistent := inferInstanceAs (Decidable (_ ∧ _))

/-- The calls of `copyCallback`. -/
def copies : List (Nat × Piece) :=
  [((s.builder.mapping 0).fileOffset, SharedCacheBuilder.pieceOf s.builder.readExecuteRegion)] ++
    s.builder.dataRegions.zipIdx.map
      (fun x => ((s.builder.mapping (x.2 + 1)).fileOffset, SharedCacheBuilder.pieceOf x.1)) ++
    [((s.builder.mapping s.builder.lastMapping).fileOffset,
      SharedCacheBuilder.pieceOf s.builder.readOnlyRegion)] ++
    s.builder.localSymbolsPieces.map (fun p => (s.builder.localSymbolsOffset, p)) ++
    [(s.codeSignatureOffset, (s.codeSignatureRegion.sizeInUse, s.codeSignatureRegion.buffer))]

/-- A new file has the size that is asked for, and every call writes all of its bytes. -/
def writeCache : Option CacheFile :=
  if s.Consistent then
    some {
      size := s.builder.inBbufferSize + s.codeSignatureRegion.sizeInUse
      bytes := copyPieces (fun _ => 0) s.copies }
  else none

end SignedCache

end Dyld.Cache.CodeSign
