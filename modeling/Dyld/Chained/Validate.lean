import Dyld.Chained.Starts
import Dyld.Lib.BitField
import Dyld.MachO.LoadCommands

/-!
# Validation of chained fixups

`MachOAnalyzer::validChainedFixupsInfo` checks an `LC_DYLD_CHAINED_FIXUPS` payload before the
loops of `MachOLoaded` use it. It tests the `LAST` bit of the entry after the one it has
checked, so the last entry of an overflow list is never checked, and it lets a start equal
the page size. These are the only ways in which an accepted payload leads the loops astray.
-/

namespace Dyld.Chained

open Dyld.Lib

/-! ### The validator -/

/-- What `diag.error` was called with. -/
inductive FixupsError
  | unknownHeaderVersion
  | startsOffsetExceedsSize
  | importsOffsetExceedsSize
  | unknownImportsFormat
  | importsOverlapSymbols
  | unknownSymbolsFormat
  | segCountExceedsSegments
  | segCountMismatch
  | startsOverrunImports (segment : Nat)
  | badPageSize (segment : Nat)
  | unknownPointerFormat (segment : Nat)
  | pointerFormatsDiffer (format formatForAll : Nat)
  | segmentOffsetMismatch (segment : Nat)
  | maxValidPointersDiffer
  | pageStartsOverflowSize
  | pageStartExceedsPageSize (segment pageIndex offsetInPage : Nat)
  | overflowIndexOutOfRange (overflowIndex maxOverflowIndex segment : Nat)
  | overflowStartExceedsPageSize (segment overflowIndex offsetInPage : Nat)
  | overflowStartNotAscending (segment overflowIndex offsetInPage lastOffsetInPage : Nat)
  | importsCountExceedsMax (importsCount maxBindOrdinal : Nat)
  | maxValidPointerTooSmall
  deriving DecidableEq, Repr

/-- The fields of `MachOFile::SegmentInfo` that the validator reads. -/
structure SegmentInfo where
  vmAddr : Nat
  vmSize : Nat
  deriving DecidableEq, Repr

/-- What the validator is given: the payload, with its header at address 0, and what the load
commands of the image say. -/
structure FixupsImage where
  payload : Mem
  datasize : Nat
  segmentsInfo : Nat → SegmentInfo
  linkeditSegIndex : Nat
  lastSegIndex : Nat
  preferredLoadAddress : Nat
  inDyldCache : Bool

namespace FixupsImage

variable (image : FixupsImage)

-- the fields of `dyld_chained_fixups_header`
def fixupsVersion : Nat := loadNat image.payload 0 4
def startsOffset : Nat := loadNat image.payload 4 4
def importsOffset : Nat := loadNat image.payload 8 4
def symbolsOffset : Nat := loadNat image.payload 12 4
def importsCount : Nat := loadNat image.payload 16 4
def importsFormat : Nat := loadNat image.payload 20 4
def symbolsFormat : Nat := loadNat image.payload 24 4

-- the fields of `dyld_chained_starts_in_image`
def segCount : Nat := loadNat image.payload image.startsOffset 4
def segInfoOffset (i : Nat) : Nat := loadNat image.payload (image.startsOffset + 4 + 4 * i) 4

def startsInSegment (i : Nat) : StartsInSegment :=
  loadStartsInSegment image.payload (image.startsOffset + image.segInfoOffset i)

end FixupsImage

/-- A check that reports an error and returns false. -/
def require {ε : Type} (ok : Prop) [Decidable ok] (e : ε) : Except ε Unit :=
  if ok then .ok () else .error e

lemma require_bind_eq_ok {ε α : Type} {ok : Prop} [Decidable ok] {e : ε} {f : Unit → Except ε α}
    {r : α} : (require ok e).bind f = .ok r ↔ ok ∧ f () = .ok r := by
  unfold require
  split_ifs with h <;> simp [Except.bind, h]

lemma bind_eq_ok {ε α β : Type} {x : Except ε α} {f : α → Except ε β} {r : β} :
    x.bind f = .ok r ↔ ∃ a, x = .ok a ∧ f a = .ok r := by
  cases x <;> simp [Except.bind]

lemma require_eq_ok {ε : Type} {ok : Prop} [Decidable ok] {e : ε} :
    require ok e = .ok () ↔ ok := by
  unfold require
  split_ifs with h <;> simp [h]

/-- `formatEntrySize`: the size of `dyld_chained_import` and its variants. -/
def formatEntrySize : Nat → Option Nat
  | 1 => some 4
  | 2 => some 8
  | 3 => some 16
  | _ => none

def maxBindOrdinal : Nat → Nat
  | 3 => 0x0FFFFF
  | 1 | 9 | 7 => 0x00FFFF
  | 2 | 6 | 12 => 0xFFFFFF
  | _ => 0

section Validator

variable (image : FixupsImage)

def validHeader : Except FixupsError Unit :=
  (require (image.fixupsVersion = 0) .unknownHeaderVersion).bind fun _ =>
  (require (image.startsOffset < image.datasize) .startsOffsetExceedsSize).bind fun _ =>
  (require (image.importsOffset ≤ image.datasize) .importsOffsetExceedsSize).bind fun _ =>
  match formatEntrySize image.importsFormat with
  | none => .error .unknownImportsFormat
  | some entrySize =>
    (require (¬MachO.greaterThanAddOrOverflow image.importsOffset
      (entrySize * image.importsCount % 2 ^ 32) image.symbolsOffset) .importsOverlapSymbols).bind fun _ =>
    require (image.symbolsFormat = 0) .unknownSymbolsFormat

def validSegCount : Except FixupsError Unit :=
  if image.segCount = image.linkeditSegIndex + 1 then .ok ()
  else
    (require (image.segCount ≤ image.linkeditSegIndex + 1) .segCountExceedsSegments).bind fun _ =>
    let numExtraSegments := sub32 (image.lastSegIndex + 1) image.segCount
    let numNoRelocSegments := (List.range numExtraSegments).countP (fun i =>
      (image.segmentsInfo (sub32 image.linkeditSegIndex (i + 1))).vmSize == 0)
    require (numNoRelocSegments = numExtraSegments) .segCountMismatch

/-- The loop over an overflow list. Each round raises the index, so `maxOverflowIndex + 2` of
them are enough; without fuel the index is out of range. -/
def validOverflow (segment : Nat) (segInfo : StartsInSegment) (maxOverflowIndex : Nat) :
    Nat → Nat → Nat → Except FixupsError Unit
  | 0, overflowIndex, _ =>
    .error (.overflowIndexOutOfRange overflowIndex maxOverflowIndex segment)
  | fuel + 1, overflowIndex, lastOffsetInPage =>
    (require (overflowIndex ≤ maxOverflowIndex)
      (.overflowIndexOutOfRange overflowIndex maxOverflowIndex segment)).bind fun _ =>
    let offsetInPage := segInfo.overflowOffset overflowIndex
    (require (offsetInPage ≤ segInfo.pageSize)
      (.overflowStartExceedsPageSize segment overflowIndex offsetInPage)).bind fun _ =>
    (require (¬ (offsetInPage ≤ lastOffsetInPage ∧ lastOffsetInPage ≠ 0))
      (.overflowStartNotAscending segment overflowIndex offsetInPage lastOffsetInPage)).bind fun _ =>
    if segInfo.IsLast (overflowIndex + 1) then .ok ()
    else validOverflow segment segInfo maxOverflowIndex fuel (overflowIndex + 1) offsetInPage

/-- One page. The error of a single start that is too large is reported, but does not return;
`diag` is the error reported last. -/
def validPage (segment : Nat) (segInfo : StartsInSegment) (maxOverflowIndex : Nat)
    (diag : Option FixupsError) (pageIndex : Nat) : Except FixupsError (Option FixupsError) :=
  let offsetInPage := segInfo.pageStart pageIndex
  if offsetInPage = startNone then .ok diag
  else if ¬ segInfo.IsMulti pageIndex then
    if offsetInPage > segInfo.pageSize then
      .ok (some (.pageStartExceedsPageSize segment pageIndex offsetInPage))
    else .ok diag
  else
    (validOverflow segment segInfo maxOverflowIndex (maxOverflowIndex + 2)
      (withoutHighBit offsetInPage) 0).bind fun _ => .ok diag

structure SegmentLoop where
  maxValidPointerSeen : Nat
  pointerFormatForAll : Option Nat
  diag : Option FixupsError
  deriving DecidableEq, Repr

def validSegmentFields (s : SegmentLoop) (i : Nat) : Except FixupsError Unit :=
  let segInfo := image.startsInSegment i
  (require (¬ (segInfo.size : Int) > image.importsOffset - (image.startsOffset + image.segInfoOffset i))
    (.startsOverrunImports i)).bind fun _ =>
  (require (segInfo.pageSize = 0x1000 ∨ segInfo.pageSize = 0x4000) (.badPageSize i)).bind fun _ =>
  (require (segInfo.pointerFormat ≤ 12) (.unknownPointerFormat i)).bind fun _ =>
  (require (segInfo.pointerFormat = s.pointerFormatForAll.getD segInfo.pointerFormat)
    (.pointerFormatsDiffer segInfo.pointerFormat
      (s.pointerFormatForAll.getD segInfo.pointerFormat))).bind fun _ =>
  (require (segInfo.segmentOffset =
      ((image.segmentsInfo i).vmAddr + 2 ^ 64 - image.preferredLoadAddress % 2 ^ 64) % 2 ^ 64)
    (.segmentOffsetMismatch i)).bind fun _ =>
  (require (segInfo.maxValidPointer = 0 ∨ s.maxValidPointerSeen = 0 ∨
      s.maxValidPointerSeen = segInfo.maxValidPointer) .maxValidPointersDiffer).bind fun _ =>
  require (offsetofPageStart segInfo.pageCount ≤ segInfo.size) .pageStartsOverflowSize

def validSegment (s : SegmentLoop) (i : Nat) : Except FixupsError SegmentLoop :=
  if image.segInfoOffset i = 0 then .ok s
  else
    let segInfo := image.startsInSegment i
    (validSegmentFields image s i).bind fun _ =>
    let maxOverflowIndex := (segInfo.size - offsetofPageStart segInfo.pageCount) / 2
    ((List.range segInfo.pageCount).foldlM (validPage i segInfo maxOverflowIndex) s.diag).bind fun diag =>
    .ok {
      maxValidPointerSeen :=
        if s.maxValidPointerSeen = 0 then segInfo.maxValidPointer else s.maxValidPointerSeen
      pointerFormatForAll := some (s.pointerFormatForAll.getD segInfo.pointerFormat)
      diag := diag }

def validImports (s : SegmentLoop) : Except FixupsError Unit :=
  let maxOrdinal := maxBindOrdinal (s.pointerFormatForAll.getD 0)
  (require (image.importsCount = 0 ∨ image.importsCount < maxOrdinal)
    (.importsCountExceedsMax image.importsCount maxOrdinal)).bind fun _ =>
  let last := image.segmentsInfo (sub32 image.linkeditSegIndex 1)
  require (s.maxValidPointerSeen = 0 ∨ image.inDyldCache = true ∨
    (last.vmAddr + last.vmSize) % 2 ^ 64 ≤ s.maxValidPointerSeen) .maxValidPointerTooSmall

/-- `MachOAnalyzer::validChainedFixupsInfo` once the load commands were read without error. -/
def validChainedFixupsInfo : Except FixupsError (Option FixupsError) :=
  (validHeader image).bind fun _ =>
  (validSegCount image).bind fun _ =>
  ((List.range image.segCount).foldlM (validSegment image) ⟨0, none, none⟩).bind fun s =>
  (validImports image s).bind fun _ => .ok s.diag

/-- The validator returns true: no error returned early, and none was reported on the way. -/
def Accepted : Prop := validChainedFixupsInfo image = .ok none

instance : Decidable (Accepted image) := inferInstanceAs (Decidable (_ = _))

end Validator

/-! ### What the loops need -/

/-- Rounds that are enough for every overflow list of an accepted segment. -/
def walkFuel (segInfo : StartsInSegment) : Nat := segInfo.size + 2

/-- However the chains of the segment behave, the loops end, every `page_start` entry they read
lies inside the structure, and every chain start they hand on lies inside its page. -/
def StartsUsable (segInfo : StartsInSegment) : Prop :=
  ∀ (σ : Type) (walkChain : σ → Nat → Nat → σ × Bool) (s : σ), ∃ w stopped,
    forEachFixupInSegmentChains (fun s p o => some (walkChain s p o)) segInfo (walkFuel segInfo)
      ⟨s, [], []⟩ = some (w, stopped) ∧
    (∀ i ∈ w.reads, offsetofPageStart (i + 1) ≤ segInfo.size) ∧
    ∀ st ∈ w.starts, st.2 < segInfo.pageSize

/-- A single start does not equal the page size; no start of an overflow list does, and the
entry that ends a list of more than one lies inside the structure and starts inside the page. -/
structure PageInRange (segInfo : StartsInSegment) (p : Nat) : Prop where
  single : segInfo.pageStart p ≠ startNone → ¬ segInfo.IsMulti p →
    segInfo.pageStart p ≠ segInfo.pageSize
  overflow : segInfo.pageStart p ≠ startNone → segInfo.IsMulti p →
    ∀ l, segInfo.EndsAt (withoutHighBit (segInfo.pageStart p)) l →
      (∀ j, withoutHighBit (segInfo.pageStart p) ≤ j → j ≤ l →
        segInfo.overflowOffset j ≠ segInfo.pageSize) ∧
      (withoutHighBit (segInfo.pageStart p) < l →
        offsetofPageStart (l + 1) ≤ segInfo.size ∧ segInfo.overflowOffset l < segInfo.pageSize)

def StartsInRange (segInfo : StartsInSegment) : Prop :=
  ∀ p < segInfo.pageCount, PageInRange segInfo p

def EntryUsable (segInfo : StartsInSegment) (e : StartEntry) : Prop :=
  offsetofPageStart (e.index + 1) ≤ segInfo.size ∧ ∀ o ∈ e.offsetInPage, o < segInfo.pageSize

section Walk

variable {segInfo : StartsInSegment} {σ : Type} {walkChain : σ → Nat → Nat → σ × Bool}

lemma visitEntries_usable {es : List StartEntry} (h : ∀ e ∈ es, EntryUsable segInfo e)
    (w : SegmentWalk σ) (hr : ∀ i ∈ w.reads, offsetofPageStart (i + 1) ≤ segInfo.size)
    (hs : ∀ st ∈ w.starts, st.2 < segInfo.pageSize) :
    ∃ w' stopped, visitEntries (fun s p o => some (walkChain s p o)) es w = some (w', stopped) ∧
      (∀ i ∈ w'.reads, offsetofPageStart (i + 1) ≤ segInfo.size) ∧
      ∀ st ∈ w'.starts, st.2 < segInfo.pageSize := by
  induction es generalizing w with
  | nil => exact ⟨w, false, rfl, hr, hs⟩
  | cons e es ih =>
    obtain ⟨hin, hoff⟩ := h e (by simp)
    have hrest := ih (fun f hf => h f (by simp [hf]))
    have hr' : ∀ i ∈ (w.read e.index).reads, offsetofPageStart (i + 1) ≤ segInfo.size := by
      intro i hi
      rcases List.mem_append.mp hi with hi | hi
      · exact hr i hi
      · rw [List.mem_singleton.mp hi]
        exact hin
    rw [visitEntries_cons]
    unfold visitEntry
    match heo : e.offsetInPage with
    | none => exact hrest _ hr' hs
    | some o =>
      have hs' : ∀ st ∈ w.starts ++ [(e.pageIndex, o)], st.2 < segInfo.pageSize := by
        intro st hst
        rcases List.mem_append.mp hst with hst | hst
        · exact hs st hst
        · rw [List.mem_singleton.mp hst]
          exact hoff o heo
      simp only [visitStart, Option.map_some, Option.bind_some]
      split_ifs with hstop
      · exact ⟨_, _, rfl, hr', hs'⟩
      · exact hrest _ hr' hs'

/-- When no chain stops the loops, everything is read and handed on. -/
lemma visitEntries_all (es : List StartEntry) (w : SegmentWalk Unit) :
    ∃ w', visitEntries (fun s _ _ => some (s, false)) es w = some (w', false) ∧
      w'.reads = w.reads ++ es.map (·.index) ∧
      ∀ e ∈ es, ∀ o ∈ e.offsetInPage, (e.pageIndex, o) ∈ w'.starts := by
  induction es using List.reverseRecOn with
  | nil => exact ⟨w, rfl, by simp, by simp⟩
  | append_singleton es e ih =>
    obtain ⟨w', hw', hreads, hstarts⟩ := ih
    rw [visitEntries_append, hw', Option.bind_some, if_neg (by simp), visitEntries_singleton]
    unfold visitEntry
    match heo : e.offsetInPage with
    | none =>
      refine ⟨_, rfl, by simp [SegmentWalk.read, hreads], ?_⟩
      intro f hf o ho
      rcases List.mem_append.mp hf with hf | hf
      · exact hstarts f hf o ho
      · rw [List.mem_singleton.mp hf, heo] at ho
        simp at ho
    | some o =>
      refine ⟨_, rfl, by simp [SegmentWalk.read, hreads], ?_⟩
      intro f hf o' ho'
      rcases List.mem_append.mp hf with hf | hf
      · exact List.mem_append_left _ (hstarts f hf o' ho')
      · rw [List.mem_singleton.mp hf] at ho' ⊢
        rw [heo, Option.mem_some_iff] at ho'
        rw [ho']
        exact List.mem_append_right _ (List.mem_singleton_self _)

lemma startsUsable_iff {es : List StartEntry} (h : segInfo.entries (walkFuel segInfo) = some es) :
    StartsUsable segInfo ↔ ∀ e ∈ es, EntryUsable segInfo e := by
  constructor
  · intro hu e he
    obtain ⟨w, stopped, hw, hreads, hstarts⟩ := hu Unit (fun s _ _ => (s, false)) ()
    obtain ⟨w', hw', hr', hs'⟩ := visitEntries_all es ⟨(), [], []⟩
    rw [forEachFixupInSegmentChains_eq _ h, hw', Option.some.injEq, Prod.mk.injEq] at hw
    rw [← hw.1] at hreads hstarts
    refine ⟨hreads e.index ?_, fun o ho => hstarts _ (hs' e he o ho)⟩
    rw [hr']
    exact List.mem_append_right _ (List.mem_map_of_mem he)
  · intro hes σ walkChain s
    rw [forEachFixupInSegmentChains_eq _ h]
    exact visitEntries_usable hes _ (by simp) (by simp)

end Walk

/-! ### What acceptance says -/

section Accept

variable {segInfo : StartsInSegment} {segment maxOverflowIndex : Nat}

/-- An accepted overflow list goes on to an entry with the `LAST` bit after the first one, and
everything before that entry was checked. -/
lemma validOverflow_ok {fuel i lastOffset : Nat}
    (h : validOverflow segment segInfo maxOverflowIndex fuel i lastOffset = .ok ()) :
    ∃ n, i < n ∧ segInfo.IsLast n ∧ (∀ j, i < j → j < n → ¬ segInfo.IsLast j) ∧
      ∀ j, i ≤ j → j < n → j ≤ maxOverflowIndex ∧ segInfo.overflowOffset j ≤ segInfo.pageSize := by
  induction fuel generalizing i lastOffset with
  | zero => simp [validOverflow] at h
  | succ fuel ih =>
    rw [validOverflow] at h
    simp only [require_bind_eq_ok] at h
    obtain ⟨hmax, hoff, -, h⟩ := h
    split_ifs at h with hlast
    · refine ⟨i + 1, by omega, hlast, fun j h1 h2 => by omega, fun j h1 h2 => ?_⟩
      obtain rfl : j = i := by omega
      exact ⟨hmax, hoff⟩
    · obtain ⟨n, hn, hnlast, hno, hchecked⟩ := ih h
      refine ⟨n, by omega, hnlast, fun j h1 h2 => ?_, fun j h1 h2 => ?_⟩
      · by_cases hj : j = i + 1
        · rwa [hj]
        · exact hno j (by omega) h2
      · by_cases hj : j = i
        · rw [hj]
          exact ⟨hmax, hoff⟩
        · exact hchecked j (by omega) h2

/-- The list that the loops read ends, and only its last entry may be unchecked. -/
lemma validOverflow_endsAt {fuel i lastOffset : Nat}
    (h : validOverflow segment segInfo maxOverflowIndex fuel i lastOffset = .ok ()) :
    ∃ l, segInfo.EndsAt i l ∧ l ≤ maxOverflowIndex + 1 ∧
      ∀ j, i ≤ j → j ≤ l → (j < l ∨ l = i) →
        j ≤ maxOverflowIndex ∧ segInfo.overflowOffset j ≤ segInfo.pageSize := by
  obtain ⟨n, hn, hnlast, hno, hchecked⟩ := validOverflow_ok h
  by_cases hi : segInfo.IsLast i
  · refine ⟨i, ⟨le_rfl, hi, fun j h1 h2 => by omega⟩, ?_, fun j h1 h2 _ => hchecked j h1 (by omega)⟩
    have := (hchecked i le_rfl hn).1
    omega
  · refine ⟨n, ⟨by omega, hnlast, fun j h1 h2 => ?_⟩, ?_, fun j h1 h2 h3 => hchecked j h1 (by omega)⟩
    · by_cases hj : j = i
      · rwa [hj]
      · exact hno j (by omega) h2
    · have := (hchecked (n - 1) (by omega) (by omega)).1
      omega

/-- A check that only ever sets `diag` and ends without one was passed at every element. -/
lemma foldlM_ok_inv {ε σ α : Type} {f : σ → α → Except ε σ} (P : σ → Prop)
    (hP : ∀ s x s', f s x = .ok s' → P s' → P s) {l : List α} {s s' : σ}
    (h : l.foldlM f s = .ok s') (hs' : P s') :
    P s ∧ ∀ x ∈ l, ∃ s₁ s₂, f s₁ x = .ok s₂ ∧ P s₂ := by
  induction l generalizing s with
  | nil =>
    rw [List.foldlM_nil] at h
    cases h
    exact ⟨hs', by simp⟩
  | cons x l ih =>
    rw [List.foldlM_cons] at h
    match hx : f s x with
    | .error e => rw [hx] at h; cases h
    | .ok s₁ =>
      rw [hx] at h
      obtain ⟨h₁, hl⟩ := ih h
      refine ⟨hP s x s₁ hx h₁, fun y hy => ?_⟩
      rcases List.mem_cons.mp hy with rfl | hy
      · exact ⟨s, s₁, hx, h₁⟩
      · exact hl y hy

lemma validPage_ok_none {diag : Option FixupsError} {p : Nat}
    (h : validPage segment segInfo maxOverflowIndex diag p = .ok none) :
    diag = none ∧ (segInfo.pageStart p ≠ startNone →
      (¬ segInfo.IsMulti p → segInfo.pageStart p ≤ segInfo.pageSize) ∧
      (segInfo.IsMulti p → validOverflow segment segInfo maxOverflowIndex (maxOverflowIndex + 2)
        (withoutHighBit (segInfo.pageStart p)) 0 = .ok ())) := by
  unfold validPage at h
  simp only at h
  split_ifs at h with hnone hmulti hsize
  · rw [Except.ok.injEq] at h
    exact ⟨h, fun hne => absurd hnone hne⟩
  · obtain ⟨⟨⟩, hv, h⟩ := bind_eq_ok.mp h
    rw [Except.ok.injEq] at h
    exact ⟨h, fun _ => ⟨fun hm => absurd hmulti hm, fun _ => hv⟩⟩
  · simp at h
  · rw [Except.ok.injEq] at h
    exact ⟨h, fun _ => ⟨fun _ => by omega, fun hm => absurd hm hmulti⟩⟩

structure PageChecked (segInfo : StartsInSegment) (p : Nat) : Prop where
  inside : offsetofPageStart (p + 1) ≤ segInfo.size
  single : segInfo.pageStart p ≠ startNone → ¬ segInfo.IsMulti p →
    segInfo.pageStart p ≤ segInfo.pageSize
  overflow : segInfo.pageStart p ≠ startNone → segInfo.IsMulti p →
    ∃ l, segInfo.EndsAt (withoutHighBit (segInfo.pageStart p)) l ∧ l < walkFuel segInfo ∧
      ∀ j, withoutHighBit (segInfo.pageStart p) ≤ j → j ≤ l →
        (j < l ∨ l = withoutHighBit (segInfo.pageStart p)) →
        offsetofPageStart (j + 1) ≤ segInfo.size ∧ segInfo.overflowOffset j ≤ segInfo.pageSize

lemma pageChecked_of_validPage {diag : Option FixupsError} {p : Nat} (hp : p < segInfo.pageCount)
    (hfits : offsetofPageStart segInfo.pageCount ≤ segInfo.size)
    (hmax : maxOverflowIndex = (segInfo.size - offsetofPageStart segInfo.pageCount) / 2)
    (h : validPage segment segInfo maxOverflowIndex diag p = .ok none) :
    PageChecked segInfo p := by
  obtain ⟨-, hpage⟩ := validPage_ok_none h
  unfold offsetofPageStart at hfits hmax
  refine ⟨by unfold offsetofPageStart; omega, fun hne => (hpage hne).1, fun hne hm => ?_⟩
  obtain ⟨l, hends, hl, hchecked⟩ := validOverflow_endsAt ((hpage hne).2 hm)
  refine ⟨l, hends, by unfold walkFuel; omega, fun j h1 h2 h3 => ?_⟩
  -- the bound counts the entries behind `page_start`, so it is safe for an index into it
  obtain ⟨hj, hoff⟩ := hchecked j h1 h2 h3
  exact ⟨by unfold offsetofPageStart; omega, hoff⟩

lemma validSegment_ok {image : FixupsImage} {s s' : SegmentLoop} {i : Nat}
    (h : validSegment image s i = .ok s') (hdiag : s'.diag = none) :
    s.diag = none ∧ (image.segInfoOffset i ≠ 0 →
      ∀ p < (image.startsInSegment i).pageCount, PageChecked (image.startsInSegment i) p) := by
  unfold validSegment at h
  by_cases h0 : image.segInfoOffset i = 0
  · rw [if_pos h0] at h
    cases h
    exact ⟨hdiag, fun hne => absurd h0 hne⟩
  · rw [if_neg h0] at h
    obtain ⟨⟨⟩, hf, h⟩ := bind_eq_ok.mp h
    obtain ⟨diag, hp, h⟩ := bind_eq_ok.mp h
    cases h
    have hfits : offsetofPageStart (image.startsInSegment i).pageCount ≤
        (image.startsInSegment i).size := by
      unfold validSegmentFields at hf
      simp only [require_bind_eq_ok, require_eq_ok] at hf
      exact hf.2.2.2.2.2.2
    obtain ⟨hs, hpages⟩ := foldlM_ok_inv (· = none)
      (fun d p d' hd hd' => (validPage_ok_none (hd.trans (by rw [hd']))).1) hp hdiag
    refine ⟨hs, fun _ p hlt => ?_⟩
    obtain ⟨d₁, d₂, hd, hd₂⟩ := hpages p (List.mem_range.mpr hlt)
    rw [hd₂] at hd
    exact pageChecked_of_validPage hlt hfits rfl hd

lemma pageChecked_of_accepted {image : FixupsImage} (h : Accepted image) {i : Nat}
    (hi : i < image.segCount) (h0 : image.segInfoOffset i ≠ 0) {p : Nat}
    (hp : p < (image.startsInSegment i).pageCount) : PageChecked (image.startsInSegment i) p := by
  unfold Accepted validChainedFixupsInfo at h
  obtain ⟨⟨⟩, -, h⟩ := bind_eq_ok.mp h
  obtain ⟨⟨⟩, -, h⟩ := bind_eq_ok.mp h
  obtain ⟨s, hs, h⟩ := bind_eq_ok.mp h
  obtain ⟨⟨⟩, -, h⟩ := bind_eq_ok.mp h
  rw [Except.ok.injEq] at h
  obtain ⟨-, hsegs⟩ := foldlM_ok_inv (fun s : SegmentLoop => s.diag = none)
    (fun s i s' hs hs' => (validSegment_ok hs hs').1) hs h
  obtain ⟨s₁, s₂, hseg, hs₂⟩ := hsegs i (List.mem_range.mpr hi)
  exact (validSegment_ok hseg hs₂).2 h0 p hp

/-! ### The exact condition -/

lemma pageEntries_usable_iff {p : Nat} (hc : PageChecked segInfo p) :
    ∃ es, segInfo.pageEntries (walkFuel segInfo) p = some es ∧
      ((∀ e ∈ es, EntryUsable segInfo e) ↔ PageInRange segInfo p) := by
  unfold StartsInSegment.pageEntries
  simp only
  split_ifs with hnone hmulti
  · refine ⟨_, rfl, iff_of_true ?_ ⟨fun h => absurd hnone h, fun h => absurd hnone h⟩⟩
    intro e he
    rw [List.mem_singleton.mp he]
    exact ⟨hc.inside, by simp⟩
  · obtain ⟨l, hends, hfuel, hchecked⟩ := hc.overflow hnone hmulti
    refine ⟨_, by rw [overflowEntries_of_endsAt hends (by omega)]; rfl, ?_⟩
    have hmem : ∀ j, j ∈ List.range' (withoutHighBit (segInfo.pageStart p))
        (l + 1 - withoutHighBit (segInfo.pageStart p)) ↔
        withoutHighBit (segInfo.pageStart p) ≤ j ∧ j ≤ l := by
      intro j
      have := hends.1
      rw [List.mem_range'_1]
      omega
    constructor
    · intro h
      have hentry : ∀ j, withoutHighBit (segInfo.pageStart p) ≤ j → j ≤ l →
          EntryUsable segInfo (segInfo.overflowEntry p j) := fun j h1 h2 =>
        h _ (List.mem_cons_of_mem _ (List.mem_map_of_mem ((hmem j).mpr ⟨h1, h2⟩)))
      refine ⟨fun _ hm => absurd hmulti hm, fun _ _ l' hl' => ?_⟩
      obtain rfl := hends.unique hl'
      refine ⟨fun j h1 h2 => ((hentry j h1 h2).2 _ rfl).ne, fun hlt => ?_⟩
      exact ⟨(hentry l hlt.le le_rfl).1, (hentry l hlt.le le_rfl).2 _ rfl⟩
    · intro h e he
      obtain ⟨hne, hlast⟩ := h.overflow hnone hmulti l hends
      rcases List.mem_cons.mp he with rfl | he
      · exact ⟨hc.inside, by simp⟩
      obtain ⟨j, hj, rfl⟩ := List.mem_map.mp he
      obtain ⟨h1, h2⟩ := (hmem j).mp hj
      by_cases hjl : j < l ∨ l = withoutHighBit (segInfo.pageStart p)
      · obtain ⟨hin, hoff⟩ := hchecked j h1 h2 hjl
        refine ⟨hin, fun o ho => ?_⟩
        cases ho
        exact lt_of_le_of_ne hoff (hne j h1 h2)
      · obtain rfl : j = l := by omega
        obtain ⟨hin, hoff⟩ := hlast (by omega)
        refine ⟨hin, fun o ho => ?_⟩
        cases ho
        exact hoff
  · refine ⟨_, rfl, ?_⟩
    have hle := hc.single hnone hmulti
    constructor
    · intro h
      refine ⟨fun _ _ => ?_, fun _ hm => absurd hm hmulti⟩
      exact ((h _ (List.mem_singleton_self _)).2 _ rfl).ne
    · intro h e he
      rw [List.mem_singleton.mp he]
      refine ⟨hc.inside, fun o ho => ?_⟩
      cases ho
      exact lt_of_le_of_ne hle (h.single hnone hmulti)

lemma startsUsable_iff_of_checked (hc : ∀ p < segInfo.pageCount, PageChecked segInfo p) :
    StartsUsable segInfo ↔ StartsInRange segInfo := by
  have hfinite : ∀ p ∈ List.range segInfo.pageCount,
      ∃ es, segInfo.pageEntries (walkFuel segInfo) p = some es := by
    intro p hp
    obtain ⟨es, hes, -⟩ := pageEntries_usable_iff (hc p (List.mem_range.mp hp))
    exact ⟨es, hes⟩
  obtain ⟨es, hes⟩ := entriesOf_of_pageEntries hfinite
  rw [startsUsable_iff hes]
  constructor
  · intro h p hp
    obtain ⟨fs, hfs, hiff⟩ := pageEntries_usable_iff (hc p hp)
    refine hiff.mp (fun e he => h e ?_)
    exact (mem_entriesOf_iff hes e).mpr ⟨p, List.mem_range.mpr hp, fs, hfs, he⟩
  · intro h e he
    obtain ⟨p, hp, fs, hfs, he⟩ := (mem_entriesOf_iff hes e).mp he
    rw [List.mem_range] at hp
    obtain ⟨fs', hfs', hiff⟩ := pageEntries_usable_iff (hc p hp)
    rw [hfs, Option.some.injEq] at hfs'
    exact hiff.mpr (h p hp) e (hfs' ▸ he)

end Accept

/-- The segments of a payload that have fixups. -/
def HasFixups (image : FixupsImage) (i : Nat) : Prop :=
  i < image.segCount ∧ image.segInfoOffset i ≠ 0

/-- For an accepted payload the loops read inside every segment's structure and hand on only
starts inside the page, exactly when no start equals the page size and every overflow list of
more than one entry ends with an entry that is itself in range. -/
theorem accepted_starts_usable_iff (image : FixupsImage) (h : Accepted image) :
    (∀ i, HasFixups image i → StartsUsable (image.startsInSegment i)) ↔
      ∀ i, HasFixups image i → StartsInRange (image.startsInSegment i) := by
  refine forall_congr' (fun i => forall_congr' (fun hi => ?_))
  exact startsUsable_iff_of_checked (fun p hp => pageChecked_of_accepted h hi.1 hi.2 hp)

def leBytes (n v : Nat) : List UInt8 := (List.range n).map (fun i => UInt8.ofNat (v / 256 ^ i))

/-- An image with one segment before `__LINKEDIT` and one page of 4KB, whose `page_start` has
the given entries. -/
def onePageImage (pageStart : List Nat) : FixupsImage where
  payload := fun a =>
    ([leBytes 4 0, leBytes 4 28, leBytes 4 100, leBytes 4 100, leBytes 4 0, leBytes 4 1, leBytes 4 0,
      leBytes 4 2, leBytes 4 12, leBytes 4 0,
      leBytes 4 (22 + 2 * pageStart.length), leBytes 2 0x1000, leBytes 2 3, leBytes 8 0x4000,
      leBytes 4 0, leBytes 2 1, pageStart.flatMap (leBytes 2)].flatten).getD a 0
  datasize := 104
  segmentsInfo := fun _ => ⟨0x8000, 0x1000⟩
  linkeditSegIndex := 1
  lastSegIndex := 1
  preferredLoadAddress := 0x4000
  inDyldCache := false

/-- A page with two starts, both inside the page. -/
theorem accepted_starts_usable_iff_twoStarts :
    Accepted (onePageImage [0x8001, 0x0010, 0x8020]) ∧
      ∀ i, HasFixups (onePageImage [0x8001, 0x0010, 0x8020]) i →
        StartsUsable ((onePageImage [0x8001, 0x0010, 0x8020]).startsInSegment i) := by
  have hacc : Accepted (onePageImage [0x8001, 0x0010, 0x8020]) := by decide +kernel
  refine ⟨hacc, (accepted_starts_usable_iff _ hacc).mpr ?_⟩
  rintro i ⟨hi, hoff⟩ p hp
  have hcount : (onePageImage [0x8001, 0x0010, 0x8020]).segCount = 2 := by decide +kernel
  have hlinkedit : (onePageImage [0x8001, 0x0010, 0x8020]).segInfoOffset 1 = 0 := by decide +kernel
  obtain rfl : i = 0 := by
    rw [hcount] at hi
    have : i ≠ 1 := fun h1 => hoff (h1 ▸ hlinkedit)
    omega
  have hpages : ((onePageImage [0x8001, 0x0010, 0x8020]).startsInSegment 0).pageCount = 1 := by
    decide +kernel
  obtain rfl : p = 0 := by omega
  have hidx : withoutHighBit
      (((onePageImage [0x8001, 0x0010, 0x8020]).startsInSegment 0).pageStart 0) = 1 := by
    decide +kernel
  refine ⟨fun _ hm => absurd (by decide +kernel) hm, fun _ _ l hl => ?_⟩
  have hends : ((onePageImage [0x8001, 0x0010, 0x8020]).startsInSegment 0).EndsAt 1 2 := by
    refine ⟨by decide, by decide +kernel, fun j h1 h2 => ?_⟩
    obtain rfl : j = 1 := by omega
    decide +kernel
  rw [hidx] at hl ⊢
  obtain rfl := hends.unique hl
  refine ⟨fun j h1 h2 => ?_, fun _ => ⟨by decide +kernel, by decide +kernel⟩⟩
  obtain rfl | rfl : j = 1 ∨ j = 2 := by omega
  · decide +kernel
  · decide +kernel

theorem accepted_lastStart_outside :
    Accepted (onePageImage [0x8001, 0x0010, 0xF000]) ∧
      HasFixups (onePageImage [0x8001, 0x0010, 0xF000]) 0 ∧
      ¬ StartsUsable ((onePageImage [0x8001, 0x0010, 0xF000]).startsInSegment 0) := by
  have hacc : Accepted (onePageImage [0x8001, 0x0010, 0xF000]) := by decide +kernel
  have hfix : HasFixups (onePageImage [0x8001, 0x0010, 0xF000]) 0 :=
    ⟨by decide +kernel, by decide +kernel⟩
  refine ⟨hacc, hfix, fun hu => ?_⟩
  rw [startsUsable_iff_of_checked (fun p hp => pageChecked_of_accepted hacc hfix.1 hfix.2 hp)] at hu
  have hidx : withoutHighBit
      (((onePageImage [0x8001, 0x0010, 0xF000]).startsInSegment 0).pageStart 0) = 1 := by
    decide +kernel
  have hends : ((onePageImage [0x8001, 0x0010, 0xF000]).startsInSegment 0).EndsAt 1 2 := by
    refine ⟨by decide, by decide +kernel, fun j h1 h2 => ?_⟩
    obtain rfl : j = 1 := by omega
    decide +kernel
  have hrange := (hu 0 (by decide +kernel)).overflow (by decide +kernel) (by decide +kernel) 2
  rw [hidx] at hrange
  exact absurd ((hrange hends).2 (by decide)).2 (by decide +kernel)

end Dyld.Chained
