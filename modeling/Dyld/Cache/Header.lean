import Dyld.Lib.Memory

/-!
# The header of a shared cache

Where `dyld_cache_header` has its fields, and the records of the mapping tables that it points to.
-/

namespace Dyld.Cache

def offsetofMappingOffset : Nat := 16
def offsetofMappingCount : Nat := 20
def offsetofCodeSignatureOffset : Nat := 40
def offsetofCodeSignatureSize : Nat := 48
def offsetofSlideInfoOffsetUnused : Nat := 56
def offsetofSlideInfoSizeUnused : Nat := 64
def offsetofLocalSymbolsOffset : Nat := 72
def offsetofUuid : Nat := 88
def offsetofPlatform : Nat := 216
def offsetofSharedRegionStart : Nat := 224
def offsetofSharedRegionSize : Nat := 232
def offsetofMaxSlide : Nat := 240
def offsetofMappingWithSlideOffset : Nat := 312
def offsetofMappingWithSlideCount : Nat := 316
def sizeofCacheHeader : Nat := 320
def sizeofMappingInfo : Nat := 32
def sizeofMappingAndSlideInfo : Nat := 56

/-- `dyld_cache_mapping_info`, or the fields of it that `dyld_cache_mapping_and_slide_info` has too. -/
structure MappingInfo where
  address : Nat
  size : Nat
  fileOffset : Nat
  maxProt : Nat
  initProt : Nat
  deriving DecidableEq, Repr

/-- The record at `a` of a table whose records have their protections `prots` bytes in. `field` reads
a field of some bytes. -/
def mappingInfoAt (field : Nat → Nat → Nat) (prots a : Nat) : MappingInfo where
  address := field a 8
  size := field (a + 8) 8
  fileOffset := field (a + 16) 8
  maxProt := field (a + prots) 4
  initProt := field (a + prots + 4) 4

lemma mappingInfoAt_congr {field field' : Nat → Nat → Nat} {prots a : Nat}
    (h : ∀ c n, a ≤ c → field c n = field' c n) :
    mappingInfoAt field prots a = mappingInfoAt field' prots a := by
  unfold mappingInfoAt
  rw [h _ _ (by omega), h _ _ (by omega), h _ _ (by omega), h _ _ (by omega), h _ _ (by omega)]

end Dyld.Cache
