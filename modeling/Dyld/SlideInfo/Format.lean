import Dyld.SlideInfo.Region
import Dyld.Lib.BitField

/-!
# Chains of rebased pointers

Versions 2 and 4 of the slide info keep the distance to the next rebase location in spare bits
of the pointers, `delta_mask`. Both writers and both readers are the same code but for what a
`ChainFormat` holds. Where two rebase locations of a page are too far apart for the spare bits,
the writer links them through words that are no pointers, or else starts another chain and lists
the starts of all chains of the page in `page_extras`.
-/

namespace Dyld.SlideInfo

open Dyld.Lib

/-- What versions 2 and 4 differ in, for pointers of `n` bytes. -/
structure ChainFormat (n : Nat) where
  deltaMask : BitVec (8 * n)
  valueAdd : BitVec (8 * n)
  /-- The bits added to a pointer that is linked to the location right after it. -/
  tag : Nat → BitVec (8 * n)
  /-- Whether a word that is no pointer may be used as a link, and the value it keeps then. -/
  stealable : BitVec (8 * n) → Bool
  stolenValue : BitVec (8 * n) → BitVec (8 * n)
  /-- The value the loader leaves for the value bits of a word, given the slide. -/
  rebasedValue : BitVec (8 * n) → BitVec (8 * n) → BitVec (8 * n)
  /-- The start of a page without rebase locations. -/
  noRebase : Nat
  indexMask : Nat
  /-- The last index into `page_extras` that a page start may hold. -/
  lastIndex : Nat
  /-- Whether the end bit of the extras is only set when the page has a rebase location. -/
  endNeedsLocation : Bool

/-- `DYLD_CACHE_SLIDE_PAGE_ATTR_EXTRA` and `DYLD_CACHE_SLIDE4_PAGE_USE_EXTRA`. -/
def useExtra : Nat := 0x8000

/-- `DYLD_CACHE_SLIDE_PAGE_ATTR_END` and `DYLD_CACHE_SLIDE4_PAGE_EXTRA_END`. -/
def extraEnd : Nat := 0x8000

/-- The diagnostics of the writers. -/
inductive RebaseError where
  | notWithinCache (lastLocationOffset : Nat)
  | extrasOverflow
  deriving DecidableEq

namespace ChainFormat

variable {n : Nat} (f : ChainFormat n)

def valueMask : BitVec (8 * n) := ~~~f.deltaMask

def deltaShift : Nat := f.deltaMask.ctz.toNat - 2

def maxDelta : Nat := (f.deltaMask >>> f.deltaShift).toNat % 2 ^ 32

/-! ### The writer -/

def pointerValue (value : BitVec (8 * n)) : BitVec (8 * n) := (value - f.valueAdd) &&& f.valueMask

/-- The distance `delta` in its place in a word. -/
def deltaBits (delta : Nat) : BitVec (8 * n) := BitVec.ofNat (8 * n) delta <<< f.deltaShift

/-- The first word with a value to steal, from `maxDelta` bytes after `i` down. -/
def stealLocation (m : Mem) (pageContent i : Nat) : Option Nat :=
  ((List.range ((f.maxDelta + 3) / 4)).map (fun k => i + (f.maxDelta - 4 * k))).find?
    (fun o => f.stealable (load n m (pageContent + o)))

/-- The loop of `makeRebaseChain` over `nonRebaseLocationOffsets`, with no result when one of
them stays 0. The offsets grow, so `offset` rounds are enough. -/
def stealLocations (m : Mem) (pageContent offset : Nat) : Nat → Nat → Option (List Nat)
  | 0, _ => none
  | fuel + 1, i =>
    if i < offset - f.maxDelta then
      match f.stealLocation m pageContent i with
      | none => none
      | some o => (stealLocations m pageContent offset fuel o).map (fun os => o :: os)
    else some []

/-- A word of the chain that links to the word `delta` bytes on. -/
def linked (value : BitVec (8 * n)) (delta : Nat) : BitVec (8 * n) :=
  (if f.stealable value then f.stolenValue value else f.pointerValue value) ||| f.deltaBits delta

def linkChain (m : Mem) (pageContent prevOffset : Nat) : List Nat → Mem
  | [] => m
  | o :: os =>
    let prevLoc := pageContent + prevOffset
    linkChain (store n m prevLoc (f.linked (load n m prevLoc) (o - prevOffset))) pageContent o os

/-- The memory and the diagnostic that `makeRebaseChain` leaves, and what it returns. -/
structure LinkResult where
  mem : Mem
  diag : Option RebaseError
  linked : Bool

/-- `makeRebaseChainV2` and `makeRebaseChainV4`. -/
def makeRebaseChain (m : Mem) (pageContent lastLocationOffset offset : Nat) : LinkResult :=
  let lastLoc := pageContent + lastLocationOffset
  let lastValue := load n m lastLoc
  if (lastValue - f.valueAdd) &&& f.deltaMask ≠ 0 then
    ⟨m, some (.notWithinCache lastLocationOffset), false⟩
  else if offset ≤ lastLocationOffset + f.maxDelta then
    -- previous location in range, make link from it
    let newLastValue := f.pointerValue lastValue ||| f.deltaBits (offset - lastLocationOffset)
    ⟨store n m lastLoc (newLastValue ||| f.tag lastLoc), none, true⟩
  else
    -- distance between rebase locations is too far, try a chain of non-rebase locations
    match f.stealLocations m pageContent offset (offset + 1) lastLocationOffset with
    | none => ⟨store n m lastLoc (f.pointerValue lastValue), none, false⟩
    | some os => ⟨f.linkChain m pageContent lastLocationOffset (os ++ [offset]), none, true⟩

/-- The variables of `addPageStarts`. -/
structure PageState where
  startValue : Nat
  lastLocationOffset : Nat
  pageExtras : List Nat
  mem : Mem
  diag : Option RebaseError

/-- The part of the loop of `addPageStarts` that starts another chain at flag `i`. It returns at
once when the extras overflow. -/
def addExtra (s : PageState) (i : Nat) : Except RebaseError PageState :=
  if s.startValue &&& useExtra = 0 then
    -- switch page_start to "extras" which is a list of chain starts
    let indexInExtras := s.pageExtras.length
    if f.lastIndex < indexInExtras then .error .extrasOverflow
    else .ok { s with
      startValue := indexInExtras ||| useExtra
      pageExtras := s.pageExtras ++ [s.startValue] ++ [i] }
  else .ok { s with pageExtras := s.pageExtras ++ [i] }

/-- One set flag of the loop of `addPageStarts`. -/
def addLocation (pageContent : Nat) (s : PageState) (i : Nat) : Except RebaseError PageState :=
  let offset := i * 4
  if s.startValue = f.noRebase then
    -- found first rebase location in page
    .ok { s with startValue := i, lastLocationOffset := offset }
  else
    let r := f.makeRebaseChain s.mem pageContent s.lastLocationOffset offset
    let s' := { s with mem := r.mem, diag := r.diag.or s.diag }
    if r.linked then .ok { s' with lastLocationOffset := offset }
    else (f.addExtra s' i).map (fun s' => { s' with lastLocationOffset := offset })

def endPage (pageContent : Nat) (s : PageState) : PageState :=
  let hasLocation := s.lastLocationOffset ≠ 0xFFFF
  let lastLoc := pageContent + s.lastLocationOffset
  -- mark end of chain
  let mem := if hasLocation then store n s.mem lastLoc (f.pointerValue (load n s.mem lastLoc)) else s.mem
  let pageExtras :=
    if s.startValue &&& useExtra ≠ 0 ∧ (f.endNeedsLocation = true → hasLocation) then
      s.pageExtras.modifyLast (fun e => e ||| extraEnd)
    else s.pageExtras
  { s with mem := mem, pageExtras := pageExtras }

/-- `addPageStartsV2` and `addPageStartsV4`: the start of the page, the extras and the new
contents, or the diagnostic. -/
def addPageStarts (m : Mem) (pageContent pageSize : Nat) (bitmap : Nat → Bool)
    (pageExtras : List Nat) : Except RebaseError PageState := do
  let s ← (List.range (pageSize / 4)).foldlM
    (fun s i => if bitmap i then f.addLocation pageContent s i else .ok s)
    ⟨f.noRebase, 0xFFFF, pageExtras, m, none⟩
  match s.diag with
  | some e => .error e
  | none => .ok (f.endPage pageContent s)

structure RegionInfo where
  pageStarts : List Nat
  pageExtras : List Nat
  mem : Mem

def writePage (r : DataRegion) (s : RegionInfo) (i : Nat) : Except RebaseError RegionInfo := do
  let p ← f.addPageStarts s.mem (r.page i) r.pageSize (r.pageBitmap i) s.pageExtras
  .ok ⟨s.pageStarts ++ [p.startValue], p.pageExtras, p.mem⟩

def writeSlideInfo (r : DataRegion) (m : Mem) : Except RebaseError RegionInfo :=
  (List.range r.pageCount).foldlM (f.writePage r) ⟨[], [], m⟩

/-! ### The loader -/

/-- The distance to the next location of a chain. -/
def next (rawValue : BitVec (8 * n)) : Nat := ((rawValue &&& f.deltaMask) >>> f.deltaShift).toNat % 2 ^ 32

/-- The new content of a location of a chain. -/
def rebased (slideAmount : BitVec (8 * n)) (_loc : Nat) (rawValue : BitVec (8 * n)) :
    Except Empty (BitVec (8 * n)) :=
  .ok (f.rebasedValue slideAmount (rawValue &&& f.valueMask))

def rebaseChain (slideAmount : BitVec (8 * n)) (fuel : Nat) (s : Patching Empty)
    (pageContent startOffset : Nat) : Option (Patching Empty × Bool) :=
  walk f.next (fun s => load n s.mem) (patch (f.rebased slideAmount)) fuel s (pageContent + startOffset)

/-- The chains of a page from an entry of `page_extras` on. Reading past the extras is a fault. -/
def rebaseExtras (slideAmount : BitVec (8 * n)) (fuel page : Nat) :
    Patching Empty → List Nat → Option (Patching Empty)
  | _, [] => none
  | s, pInfo :: extras =>
    match f.rebaseChain slideAmount fuel s page ((pInfo &&& f.indexMask) * 4) with
    | none => none
    | some r =>
      if pInfo &&& extraEnd ≠ 0 then some r.1 else rebaseExtras slideAmount fuel page r.1 extras

/-- One page of the version 2 and version 4 branches of `rebaseDataPages`. -/
def rebasePage (slideAmount : BitVec (8 * n)) (fuel page : Nat) (pageExtras : List Nat)
    (s : Patching Empty) (pageEntry : Nat) : Option (Patching Empty) :=
  if pageEntry = f.noRebase then some s
  else if pageEntry &&& useExtra ≠ 0 then
    f.rebaseExtras slideAmount fuel page s (pageExtras.drop (pageEntry &&& f.indexMask))
  else (f.rebaseChain slideAmount fuel s page (pageEntry * 4)).map Prod.fst

/-- The loop over the pages in the version 2 and version 4 branches of `rebaseDataPages`, from
page `i` on. -/
def rebaseDataPages (slideAmount : BitVec (8 * n)) (fuel pageSize : Nat) (pageExtras : List Nat) :
    Nat → Patching Empty → List Nat → Option (Patching Empty)
  | _, s, [] => some s
  | i, s, pageEntry :: pageStarts =>
    match f.rebasePage slideAmount fuel (i * pageSize) pageExtras s pageEntry with
    | none => none
    | some s' => rebaseDataPages slideAmount fuel pageSize pageExtras (i + 1) s' pageStarts

end ChainFormat

end Dyld.SlideInfo
