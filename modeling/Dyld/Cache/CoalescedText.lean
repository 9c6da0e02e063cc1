import Dyld.Lib.Placement
import Dyld.Cache.HoleMap
import Dyld.Cache.StringPool

/-!
# Coalesced strings

The Objective-C names of all dylibs are moved to one section of the cache for each kind of name,
where equal strings share a place. A selector that the IMP caches know goes to the address chosen
for it, the other selectors fill the holes that are left between them, and everything else is
appended.
-/

namespace Dyld.Cache

open Lib

/-! ### Sections -/

inductive SupportedSection where
  | objcClassNames
  | objcMethNames
  | objcMethTypes
  deriving DecidableEq, Repr

def SupportedSection.ofName : String → Option SupportedSection
  | "__objc_classname" => some objcClassNames
  | "__objc_methname" => some objcMethNames
  | "__objc_methtype" => some objcMethTypes
  | _ => none

structure StringSection where
  stringsToOffsets : List UInt8 → Option Nat
  bufferSize : Nat
  savedSpace : Nat

def StringSection.new : StringSection := ⟨fun _ => none, 0, 0⟩

abbrev CacheCoalescedText := SupportedSection → StringSection

/-- From the offsets in a section of a dylib to those in the section of the cache. -/
abbrev SectionOffsets := Nat → Option Nat

abbrev DylibTextCoalescer := SupportedSection → SectionOffsets

/-- The selectors of the IMP caches and their addresses. -/
abbrev SelectorMap := List UInt8 → Option Int

/-- A section as `forEachSection` reports it, with the bytes that are mapped from its start on. -/
structure SectInfo where
  segName : String
  sectName : String
  malformedSectionRange : Bool
  sectSize : Nat
  content : List UInt8

/-- What the coalescer reads of a dylib. `splitSegFormat` is the first byte of its split segment
information. -/
structure SplitDylib where
  splitSegFormat : Option UInt8
  sections : List SectInfo

/-! ### Coalescing -/

def StringSection.addString (isSelectorsSection : Bool) (selectors : SelectorMap) (str : List UInt8)
    (cacheStringSection : StringSection) (selectorsHoleMap : HoleMap) : Int × StringSection × HoleMap :=
  match cacheStringSection.stringsToOffsets str with
  | some offset =>
    (intOf offset,
      { cacheStringSection with
        savedSpace := (cacheStringSection.savedSpace + (str.length + 1)) % 2 ^ 64 }, selectorsHoleMap)
  | none =>
    if isSelectorsSection then
      let placed := match selectors str with
        | some offset => (offset, selectorsHoleMap)
        | none => selectorsHoleMap.addStringOfSize (uint32Of (str.length + 1))
      let sizeAtLeast := uint32Of (placed.1 + (str.length + 1 : Nat))
      (placed.1,
        { cacheStringSection with
          stringsToOffsets :=
            Function.update cacheStringSection.stringsToOffsets str (some (uint32Of placed.1))
          bufferSize := if cacheStringSection.bufferSize < sizeAtLeast then sizeAtLeast
            else cacheStringSection.bufferSize }, placed.2)
    else
      (intOf cacheStringSection.bufferSize,
        { cacheStringSection with
          stringsToOffsets :=
            Function.update cacheStringSection.stringsToOffsets str (some cacheStringSection.bufferSize)
          bufferSize := uint32Of (cacheStringSection.bufferSize + (str.length + 1 : Nat)) },
        selectorsHoleMap)

structure SectionWalk where
  cacheStringSection : StringSection
  selectorsHoleMap : HoleMap
  sectionStringData : SectionOffsets

def SectionWalk.visit (isSelectorsSection : Bool) (selectors : SelectorMap) (str : List UInt8)
    (sourceSectionOffset : Nat) (w : SectionWalk) : SectionWalk :=
  let added := w.cacheStringSection.addString isSelectorsSection selectors str w.selectorsHoleMap
  ⟨added.2.1, added.2.2,
    Function.update w.sectionStringData (uint32Of sourceSectionOffset) (some (uint32Of added.1))⟩

/-- `while ( s < end )` -/
def walkStrings (isSelectorsSection : Bool) (selectors : SelectorMap) (sectInfo : SectInfo) (s : Nat)
    (w : SectionWalk) : SectionWalk :=
  if s < sectInfo.sectSize then
    let str := cString sectInfo.content s
    walkStrings isSelectorsSection selectors sectInfo (s + (str.length + 1))
      (w.visit isSelectorsSection selectors str s)
  else w
termination_by sectInfo.sectSize - s

structure TextState where
  coalescedText : CacheCoalescedText
  selectorsHoleMap : HoleMap
  textCoalescer : DylibTextCoalescer

def TextState.parseSection (selectors : SelectorMap) (name : SupportedSection) (sectInfo : SectInfo)
    (st : TextState) : TextState :=
  let w := walkStrings (name = .objcMethNames) selectors sectInfo 0
    ⟨st.coalescedText name, st.selectorsHoleMap, st.textCoalescer name⟩
  ⟨Function.update st.coalescedText name w.cacheStringSection, w.selectorsHoleMap,
    Function.update st.textCoalescer name w.sectionStringData⟩

def TextState.parseSections (selectors : SelectorMap) : List SectInfo → TextState → TextState
  | [], st => st
  | sectInfo :: rest, st =>
    match SupportedSection.ofName sectInfo.sectName with
    | none => st
    | some name => parseSections selectors rest (st.parseSection selectors name sectInfo)

def SplitDylib.textSectionInfos (ma : SplitDylib) : List SectInfo :=
  ma.sections.filter (·.segName = "__TEXT")

def DYLD_CACHE_ADJ_V2_FORMAT : UInt8 := 0x7F

/-- `none` is the failed assert. -/
def parseCoalescableText (selectors : SelectorMap) (ma : SplitDylib) (st : TextState) :
    Option TextState :=
  match ma.splitSegFormat with
  | none => some st
  | some format =>
    if format ≠ DYLD_CACHE_ADJ_V2_FORMAT then some st
    else if ma.textSectionInfos.any (·.malformedSectionRange) then none
    else some (st.parseSections selectors ma.textSectionInfos.reverse)

/-- The loop of `parseCoalescableSegments` over the sorted dylibs and their coalescers. -/
def parseCoalescableSegments (selectors : SelectorMap) :
    List (SplitDylib × DylibTextCoalescer) → CacheCoalescedText → HoleMap →
      Option (CacheCoalescedText × List DylibTextCoalescer)
  | [], coalescedText, _ => some (coalescedText, [])
  | (ma, textCoalescer) :: dylibs, coalescedText, selectorsHoleMap =>
    (parseCoalescableText selectors ma ⟨coalescedText, selectorsHoleMap, textCoalescer⟩).bind fun st =>
      (parseCoalescableSegments selectors dylibs st.coalescedText st.selectorsHoleMap).map fun r =>
        (r.1, st.textCoalescer :: r.2)

/-! ### One string -/

def fixedOffsets (isSelectorsSection : Bool) (selectors : SelectorMap) (str : List UInt8) : Option Nat :=
  if isSelectorsSection then (selectors str).map uint32Of else none

namespace StringSection

/-- The bytes of a section that no string has yet. -/
def free (isSelectorsSection : Bool) (sec : StringSection) (holes : HoleMap) : Set Nat :=
  if isSelectorsSection then holes.free else Set.Ici sec.bufferSize

def appendAt (isSelectorsSection : Bool) (sec : StringSection) (holes : HoleMap) : Nat :=
  if isSelectorsSection then uint32Of holes.endAddress else sec.bufferSize

/-- What holds of a section of the cache between two strings. -/
structure Sound (isSelectorsSection : Bool) (selectors : SelectorMap) (sec : StringSection)
    (holes : HoleMap) : Prop where
  placement : Placement bytesAt (fixedOffsets isSelectorsSection selectors) sec.stringsToOffsets
    (sec.free isSelectorsSection holes)
  inside : ∀ str offset, sec.stringsToOffsets str = some offset →
    offset + (str.length + 1) ≤ sec.bufferSize
  bufferSize_lt : sec.bufferSize < 2 ^ 32
  valid : isSelectorsSection = true → holes.Valid

structure Added (isSelectorsSection : Bool) (selectors : SelectorMap) (str : List UInt8)
    (sec : StringSection) (holes : HoleMap) (r : Int × StringSection × HoleMap) : Prop where
  sound : r.2.1.Sound isSelectorsSection selectors r.2.2
  found : r.2.1.stringsToOffsets str = some (uint32Of r.1)
  grows : ∀ s offset, sec.stringsToOffsets s = some offset → r.2.1.stringsToOffsets s = some offset
  appendAt_le : r.2.1.appendAt isSelectorsSection r.2.2 ≤
    sec.appendAt isSelectorsSection holes + (str.length + 1)

variable {isSelectorsSection : Bool} {selectors : SelectorMap} {str : List UInt8} {sec : StringSection}
  {holes : HoleMap}

lemma inside_update {offset size : Nat} (hsec : ∀ s p, sec.stringsToOffsets s = some p →
      p + (s.length + 1) ≤ sec.bufferSize) (hle : sec.bufferSize ≤ size)
    (hoffset : offset + (str.length + 1) ≤ size) (s : List UInt8) (p : Nat)
    (hs : Function.update sec.stringsToOffsets str (some offset) s = some p) :
    p + (s.length + 1) ≤ size := by
  by_cases hstr : s = str
  · subst hstr
    rw [Function.update_self] at hs
    cases hs
    exact hoffset
  · rw [Function.update_of_ne hstr] at hs
    exact (hsec s p hs).trans hle

lemma grows_update (hnew : sec.stringsToOffsets str = none) (offset : Nat) (s : List UInt8) (p : Nat)
    (hs : sec.stringsToOffsets s = some p) :
    Function.update sec.stringsToOffsets str (some offset) s = some p := by
  have hne : s ≠ str := by
    rintro rfl
    rw [hnew] at hs
    cases hs
  rw [Function.update_of_ne hne, hs]

/-- The policy of the other sections touches no hole. -/
lemma addString_holes : (sec.addString false selectors str holes).2.2 = holes := by
  unfold addString
  cases sec.stringsToOffsets str <;> rfl

lemma Sound.found (h : sec.Sound isSelectorsSection selectors holes) {offset : Nat}
    (hfound : sec.stringsToOffsets str = some offset) :
    Added isSelectorsSection selectors str sec holes
      (sec.addString isSelectorsSection selectors str holes) := by
  have hlt : offset < 2 ^ 32 := by
    have hinside := h.inside str offset hfound
    have hsize := h.bufferSize_lt
    omega
  have hadd : sec.addString isSelectorsSection selectors str holes = (intOf offset,
      { sec with savedSpace := (sec.savedSpace + (str.length + 1)) % 2 ^ 64 }, holes) := by
    unfold addString
    rw [hfound]
  rw [hadd]
  exact ⟨⟨h.placement, h.inside, h.bufferSize_lt, h.valid⟩,
    by rw [uint32Of_intOf, uint32Of_natCast hlt, hfound], fun s p hs => hs, Nat.le_add_right _ _⟩

lemma Sound.append (h : sec.Sound false selectors holes) (hnew : sec.stringsToOffsets str = none)
    (hroom : sec.bufferSize + (str.length + 1) < 2 ^ 32) :
    Added false selectors str sec holes (sec.addString false selectors str holes) := by
  have hsize : uint32Of (sec.bufferSize + (str.length + 1 : Nat)) = sec.bufferSize + (str.length + 1) := by
    have hlt := h.bufferSize_lt
    rw [uint32Of_add] <;> rw [uint32Of_natCast hlt]
    exact hroom
  unfold addString
  rw [hnew]
  simp only [Bool.false_eq_true, if_false, hsize]
  refine ⟨⟨?_, ?_, hroom, fun hfalse => nomatch hfalse⟩, ?_, grows_update hnew _, le_rfl⟩
  · apply h.placement.allocate rfl
    · exact fun x hx => hx.1
    · exact Set.Ici_subset_Ici.mpr (Nat.le_add_right _ _)
    · rw [Set.disjoint_left]
      exact fun x hx hle => absurd hx.2 (not_lt.mpr hle)
  · exact inside_update h.inside (Nat.le_add_right _ _) le_rfl
  · dsimp only
    rw [Function.update_self, uint32Of_intOf, uint32Of_natCast h.bufferSize_lt]

lemma Sound.place (h : sec.Sound true selectors holes) (hnew : sec.stringsToOffsets str = none)
    {offset : Int} {holes' : HoleMap} (hend : uint32Of offset + (str.length + 1) < 2 ^ 32)
    (hplacement : Placement bytesAt (fixedOffsets true selectors)
      (Function.update sec.stringsToOffsets str (some (uint32Of offset))) holes'.free)
    (hvalid : holes'.Valid) (hless : uint32Of holes'.endAddress ≤ uint32Of holes.endAddress + (str.length + 1))
    (hadd : sec.addString true selectors str holes = (offset,
      { sec with
        stringsToOffsets := Function.update sec.stringsToOffsets str (some (uint32Of offset))
        bufferSize := if sec.bufferSize < uint32Of (offset + (str.length + 1 : Nat))
          then uint32Of (offset + (str.length + 1 : Nat)) else sec.bufferSize }, holes')) :
    Added true selectors str sec holes (sec.addString true selectors str holes) := by
  rw [hadd, uint32Of_add hend]
  have hlt := h.bufferSize_lt
  refine ⟨⟨hplacement, ?_, ?_, fun _ => hvalid⟩, Function.update_self .., grows_update hnew _, hless⟩
  · apply inside_update h.inside <;> dsimp only <;> split_ifs <;> omega
  · dsimp only
    split_ifs
    · exact hend
    · exact hlt

theorem addString_spec (h : sec.Sound isSelectorsSection selectors holes)
    (hselectors : ∀ s offset, selectors s = some offset → uint32Of offset + (s.length + 1) < 2 ^ 32)
    (hroom : sec.appendAt isSelectorsSection holes + (str.length + 1) < 2 ^ 32)
    (hsize : isSelectorsSection = true → str.length + 1 < 2 ^ 31) :
    Added isSelectorsSection selectors str sec holes
      (sec.addString isSelectorsSection selectors str holes) := by
  cases hnew : sec.stringsToOffsets str with
  | some offset => exact h.found hnew
  | none =>
    cases isSelectorsSection with
    | false => exact h.append hnew hroom
    | true =>
      cases hselector : selectors str with
      | some offset =>
        have hfixed : fixedOffsets true selectors str = some (uint32Of offset) := by
          rw [fixedOffsets, if_pos rfl, hselector]
          rfl
        apply h.place hnew (hselectors str offset hselector) (h.placement.takeFixed hfixed) (h.valid rfl)
          (Nat.le_add_right _ _)
        unfold addString
        rw [hnew, hselector]
        rfl
      | none =>
        have hfixed : fixedOffsets true selectors str = none := by
          rw [fixedOffsets, if_pos rfl, hselector]
          rfl
        have hlength : uint32Of (str.length + 1) = str.length + 1 := by
          apply uint32Of_natCast (n := str.length + 1)
          have hlt := hsize rfl
          omega
        have hadded := HoleMap.addStringOfSize_spec (h.valid rfl) (hsize rfl) hroom
        have hroom' : uint32Of holes.endAddress + (str.length + 1) < 2 ^ 32 := hroom
        have hend : uint32Of (holes.addStringOfSize (str.length + 1)).1 + (str.length + 1) < 2 ^ 32 := by
          have hbelow := hadded.below
          have hle := hadded.end_le
          omega
        apply h.place hnew hend (h.placement.allocate hfixed hadded.taken hadded.free_subset hadded.gone)
          hadded.valid hadded.end_le
        unfold addString
        rw [hnew, hselector, hlength]
        rfl

end StringSection

/-! ### One section -/

lemma cString_getElem? {content : List UInt8} {s i : Nat} (hi : i < (cString content s).length) :
    content[s + i]? = (cString content s)[i]? := by
  have hpre : cString content s <+: content.drop s := List.takeWhile_prefix _
  rw [← List.getElem?_drop, List.getElem?_eq_getElem hi, hpre.getElem hi]
  exact List.getElem?_eq_getElem _

/-- A string ends at the first NUL. -/
lemma length_cString_le {content : List UInt8} {s j : Nat} (hj : content[j]? = some 0) (hs : s ≤ j) :
    s + (cString content s).length ≤ j := by
  by_contra hlt
  have hi : j - s < (cString content s).length := by omega
  have hget := cString_getElem? hi
  rw [show s + (j - s) = j by omega, hj] at hget
  exact zero_notMem_cString content s (List.mem_of_getElem? hget.symm)

lemma cString_terminator {content : List UInt8} {s j : Nat} (hj : content[j]? = some 0) (hs : s ≤ j) :
    content[s + (cString content s).length]? = some 0 := by
  have hlen := length_cString_le hj hs
  have hsplit := List.takeWhile_append_dropWhile (p := (· ≠ (0 : UInt8))) (l := content.drop s)
  cases hrest : (content.drop s).dropWhile (· ≠ (0 : UInt8)) with
  | nil =>
    rw [hrest, List.append_nil] at hsplit
    have hlt := (List.getElem?_eq_some_iff.mp hj).1
    have hlength := congrArg List.length hsplit
    rw [List.length_drop] at hlength
    unfold cString at hlen
    omega
  | cons b rest =>
    have hb : ¬(b ≠ 0) := by
      have hhead := List.head?_dropWhile_not (· ≠ (0 : UInt8)) (content.drop s)
      rw [hrest] at hhead
      simpa using hhead
    rw [hrest] at hsplit
    rw [← List.getElem?_drop, ← hsplit, cString, List.getElem?_append_right le_rfl, Nat.sub_self,
      List.getElem?_cons_zero, not_not.mp hb]

namespace SectInfo

/-- A sequence of NUL-terminated strings. -/
def Terminated (sectInfo : SectInfo) : Prop :=
  sectInfo.sectSize = 0 ∨ sectInfo.content[sectInfo.sectSize - 1]? = some 0

def StringStart (sectInfo : SectInfo) (s : Nat) : Prop :=
  s < sectInfo.sectSize ∧ (s = 0 ∨ sectInfo.content[s - 1]? = some 0)

variable {sectInfo : SectInfo} {s : Nat}

lemma Terminated.last (h : sectInfo.Terminated) (hs : s < sectInfo.sectSize) :
    sectInfo.content[sectInfo.sectSize - 1]? = some 0 :=
  h.resolve_left (by omega)

lemma Terminated.next_le (h : sectInfo.Terminated) (hs : s < sectInfo.sectSize) :
    s + ((cString sectInfo.content s).length + 1) ≤ sectInfo.sectSize := by
  have hend : s ≤ sectInfo.sectSize - 1 := by omega
  have hle := length_cString_le (h.last hs) hend
  omega

lemma Terminated.next_start (h : sectInfo.Terminated) (hs : s < sectInfo.sectSize) :
    sectInfo.content[s + ((cString sectInfo.content s).length + 1) - 1]? = some 0 := by
  have hend : s ≤ sectInfo.sectSize - 1 := by omega
  rw [← Nat.add_assoc, Nat.add_sub_cancel]
  exact cString_terminator (h.last hs) hend

end SectInfo

section Walk

variable {isSelectorsSection : Bool} {selectors : SelectorMap} {sectInfo : SectInfo}

/-- The dictionary of a dylib sends the strings of a section to equal strings. -/
def Redirects (sec : StringSection) (offsets : SectionOffsets) (sectInfo : SectInfo) (s : Nat) : Prop :=
  ∃ offset, offsets s = some offset ∧ sec.stringsToOffsets (cString sectInfo.content s) = some offset

structure Walked (isSelectorsSection : Bool) (selectors : SelectorMap) (sectInfo : SectInfo) (s : Nat)
    (w w' : SectionWalk) : Prop where
  sound : w'.cacheStringSection.Sound isSelectorsSection selectors w'.selectorsHoleMap
  grows : ∀ str offset, w.cacheStringSection.stringsToOffsets str = some offset →
    w'.cacheStringSection.stringsToOffsets str = some offset
  appendAt_le : w'.cacheStringSection.appendAt isSelectorsSection w'.selectorsHoleMap ≤
    w.cacheStringSection.appendAt isSelectorsSection w.selectorsHoleMap + (sectInfo.sectSize - s)
  redirects : ∀ o, s ≤ o → sectInfo.StringStart o →
    Redirects w'.cacheStringSection w'.sectionStringData sectInfo o
  kept : ∀ o, o < s → w'.sectionStringData o = w.sectionStringData o

lemma walkStrings_holes (s : Nat) (w : SectionWalk) :
    (walkStrings false selectors sectInfo s w).selectorsHoleMap = w.selectorsHoleMap := by
  induction s, w using walkStrings.induct false selectors sectInfo with
  | case1 s w hs str ih =>
    rw [walkStrings, if_pos hs, ih]
    exact StringSection.addString_holes
  | case2 s w hs => rw [walkStrings, if_neg hs]

variable (hselectors : ∀ s offset, selectors s = some offset → uint32Of offset + (s.length + 1) < 2 ^ 32)
  (hterminated : sectInfo.Terminated) (hsect : sectInfo.sectSize < 2 ^ 32)
  (hshort : isSelectorsSection = true → ∀ o, sectInfo.StringStart o →
    (cString sectInfo.content o).length + 1 < 2 ^ 31)

include hselectors hterminated hsect hshort

theorem walkStrings_spec (s : Nat) (w : SectionWalk)
    (hstart : s = 0 ∨ sectInfo.content[s - 1]? = some 0)
    (hsound : w.cacheStringSection.Sound isSelectorsSection selectors w.selectorsHoleMap)
    (hroom : w.cacheStringSection.appendAt isSelectorsSection w.selectorsHoleMap +
      (sectInfo.sectSize - s) < 2 ^ 32) :
    Walked isSelectorsSection selectors sectInfo s w
      (walkStrings isSelectorsSection selectors sectInfo s w) := by
  induction s, w using walkStrings.induct isSelectorsSection selectors sectInfo with
  | case2 s w hs =>
    rw [walkStrings, if_neg hs]
    exact ⟨hsound, fun str offset h => h, Nat.le_add_right _ _,
      fun o hle ho => absurd (hle.trans_lt ho.1) hs, fun o _ => rfl⟩
  | case1 s w hs str ih =>
    have hnext : s + (str.length + 1) ≤ sectInfo.sectSize := hterminated.next_le hs
    have hroom' : w.cacheStringSection.appendAt isSelectorsSection w.selectorsHoleMap + (str.length + 1) <
        2 ^ 32 := by omega
    have hadded := StringSection.addString_spec hsound hselectors hroom'
      (fun hsel => hshort hsel s ⟨hs, hstart⟩)
    have hle : (w.visit isSelectorsSection selectors str s).cacheStringSection.appendAt isSelectorsSection
          (w.visit isSelectorsSection selectors str s).selectorsHoleMap ≤
        w.cacheStringSection.appendAt isSelectorsSection w.selectorsHoleMap + (str.length + 1) :=
      hadded.appendAt_le
    have hwalked := ih (Or.inr (hterminated.next_start hs)) hadded.sound (by omega)
    have hmore := hwalked.appendAt_le
    have hkey : uint32Of s = s := uint32Of_natCast (hs.trans hsect)
    rw [walkStrings, if_pos hs]
    change Walked isSelectorsSection selectors sectInfo s w (walkStrings isSelectorsSection selectors
      sectInfo (s + (str.length + 1)) (w.visit isSelectorsSection selectors str s))
    refine ⟨hwalked.sound, fun t offset h => hwalked.grows t offset (hadded.grows t offset h), ?_, ?_, ?_⟩
    · omega
    · intro o hso ho
      by_cases heq : o = s
      · -- the entry that this string makes stays
        subst heq
        refine ⟨_, ?_, hwalked.grows _ _ hadded.found⟩
        rw [hwalked.kept o (by omega)]
        dsimp only [SectionWalk.visit]
        rw [hkey, Function.update_self]
      · have hzero := ho.2.resolve_left (by omega)
        have hlen : s + str.length ≤ o - 1 := length_cString_le hzero (by omega)
        exact hwalked.redirects o (by omega) ho
    · intro o hlt
      rw [hwalked.kept o (by omega)]
      dsimp only [SectionWalk.visit]
      rw [hkey, Function.update_of_ne hlt.ne]

end Walk

/-! ### The sections of a dylib -/

def SupportedSection.sectName : SupportedSection → String
  | objcClassNames => "__objc_classname"
  | objcMethNames => "__objc_methname"
  | objcMethTypes => "__objc_methtype"

lemma SupportedSection.eq_sectName {sectName : String} {name : SupportedSection}
    (h : ofName sectName = some name) : sectName = name.sectName := by
  unfold ofName at h
  split at h <;> cases h <;> rfl

def sectionBytes (sections : List SectInfo) (name : SupportedSection) : Nat :=
  (sections.map fun sectInfo =>
    if SupportedSection.ofName sectInfo.sectName = some name then sectInfo.sectSize else 0).sum

/-- The sections that are coalesced: the supported ones at the end of a list that is walked
backwards. -/
def supportedTail (sections : List SectInfo) : List SectInfo :=
  sections.takeWhile fun sectInfo => (SupportedSection.ofName sectInfo.sectName).isSome

def RedirectsAll (coalescedText : CacheCoalescedText) (textCoalescer : DylibTextCoalescer)
    (sections : List SectInfo) : Prop :=
  ∀ sectInfo ∈ sections, ∀ name, SupportedSection.ofName sectInfo.sectName = some name →
    ∀ s, sectInfo.StringStart s → Redirects (coalescedText name) (textCoalescer name) sectInfo s

def Grows (coalescedText coalescedText' : CacheCoalescedText) : Prop :=
  ∀ name str offset, (coalescedText name).stringsToOffsets str = some offset →
    (coalescedText' name).stringsToOffsets str = some offset

lemma Grows.trans {t u v : CacheCoalescedText} (h : Grows t u) (h' : Grows u v) : Grows t v :=
  fun name str offset hs => h' name str offset (h name str offset hs)

lemma RedirectsAll.mono {t u : CacheCoalescedText} {textCoalescer : DylibTextCoalescer}
    {sections : List SectInfo} (h : RedirectsAll t textCoalescer sections) (hgrows : Grows t u) :
    RedirectsAll u textCoalescer sections := by
  intro sectInfo hmem name hname s hs
  obtain ⟨offset, hoffset, hfound⟩ := h sectInfo hmem name hname s hs
  exact ⟨offset, hoffset, hgrows name _ offset hfound⟩

def SoundText (selectors : SelectorMap) (coalescedText : CacheCoalescedText) (holes : HoleMap) : Prop :=
  ∀ name, (coalescedText name).Sound (name = .objcMethNames) selectors holes

/-- The room that a section has left. -/
def appendAt (coalescedText : CacheCoalescedText) (holes : HoleMap) (name : SupportedSection) : Nat :=
  (coalescedText name).appendAt (name = .objcMethNames) holes

/-- The effect of some sections. -/
structure Parsed (selectors : SelectorMap) (sections : List SectInfo) (st st' : TextState) : Prop where
  sound : SoundText selectors st'.coalescedText st'.selectorsHoleMap
  grows : Grows st.coalescedText st'.coalescedText
  appendAt_le : ∀ name, appendAt st'.coalescedText st'.selectorsHoleMap name ≤
    appendAt st.coalescedText st.selectorsHoleMap name + sectionBytes sections name
  redirects : RedirectsAll st'.coalescedText st'.textCoalescer sections
  kept : ∀ name, (∀ sectInfo ∈ sections, sectInfo.sectName ≠ name.sectName) →
    st'.textCoalescer name = st.textCoalescer name

lemma parsed_nil {selectors : SelectorMap} {st : TextState}
    (hsound : SoundText selectors st.coalescedText st.selectorsHoleMap) : Parsed selectors [] st st where
  sound := hsound
  grows := fun _ _ _ h => h
  appendAt_le := fun _ => Nat.le_add_right _ _
  redirects := fun _ hmem => nomatch hmem
  kept := fun _ _ => rfl

/-- What the walk over the sections asks of them. -/
structure WellFormedSections (sections : List SectInfo) : Prop where
  terminated : ∀ sectInfo ∈ sections, sectInfo.Terminated
  short : ∀ sectInfo ∈ sections, sectInfo.sectName = "__objc_methname" → ∀ s, sectInfo.StringStart s →
    (cString sectInfo.content s).length + 1 < 2 ^ 31
  nodup : (sections.map (·.sectName)).Nodup

section Sections

variable {selectors : SelectorMap}
  (hselectors : ∀ s offset, selectors s = some offset → uint32Of offset + (s.length + 1) < 2 ^ 32)

lemma StringSection.Sound.of_holes {sec : StringSection} {holes : HoleMap}
    (h : sec.Sound false selectors holes) (holes' : HoleMap) : sec.Sound false selectors holes' :=
  ⟨h.placement, h.inside, h.bufferSize_lt, fun hfalse => nomatch hfalse⟩

include hselectors

lemma parseSection_spec {name : SupportedSection} {sectInfo : SectInfo} {st : TextState}
    (hname : SupportedSection.ofName sectInfo.sectName = some name) (hsections : WellFormedSections [sectInfo])
    (hsound : SoundText selectors st.coalescedText st.selectorsHoleMap)
    (hroom : appendAt st.coalescedText st.selectorsHoleMap name + sectInfo.sectSize < 2 ^ 32) :
    Parsed selectors [sectInfo] st (st.parseSection selectors name sectInfo) := by
  have hself := SupportedSection.eq_sectName hname
  have hshort : decide (name = .objcMethNames) = true → ∀ o, sectInfo.StringStart o →
      (cString sectInfo.content o).length + 1 < 2 ^ 31 := by
    intro hsel
    apply hsections.short sectInfo (List.mem_singleton_self _)
    rw [hself, of_decide_eq_true hsel]
    rfl
  have hwalked := walkStrings_spec hselectors (hsections.terminated sectInfo (List.mem_singleton_self _))
    (by omega) hshort 0 ⟨st.coalescedText name, st.selectorsHoleMap, st.textCoalescer name⟩ (Or.inl rfl)
    (hsound name) hroom
  -- the other sections of the cache do not look at the holes unless these stay
  have hother : ∀ name', name' ≠ name → name' = .objcMethNames →
      (st.parseSection selectors name sectInfo).selectorsHoleMap = st.selectorsHoleMap := by
    intro name' hne hmeth
    have hfalse : decide (name = .objcMethNames) = false := by
      rw [decide_eq_false_iff_not]
      rintro rfl
      exact hne hmeth
    unfold TextState.parseSection
    simp only [hfalse]
    exact walkStrings_holes 0 _
  refine ⟨?_, ?_, ?_, ?_, ?_⟩
  · intro name'
    by_cases heq : name' = name
    · subst heq
      dsimp only [TextState.parseSection]
      rw [Function.update_self]
      exact hwalked.sound
    · by_cases hmeth : name' = .objcMethNames
      · rw [hother name' heq hmeth]
        dsimp only [TextState.parseSection]
        rw [Function.update_of_ne heq]
        exact hsound name'
      · have hsound' := hsound name'
        dsimp only [TextState.parseSection]
        rw [Function.update_of_ne heq]
        rw [decide_eq_false hmeth] at hsound' ⊢
        exact hsound'.of_holes _
  · intro name' str offset hs
    dsimp only [TextState.parseSection]
    by_cases heq : name' = name
    · subst heq
      rw [Function.update_self]
      exact hwalked.grows str offset hs
    · rwa [Function.update_of_ne heq]
  · intro name'
    have hbytes : sectionBytes [sectInfo] name' = if name' = name then sectInfo.sectSize else 0 := by
      simp only [sectionBytes, List.map_cons, List.map_nil, List.sum_cons, List.sum_nil, hname,
        Option.some.injEq, Nat.add_zero, eq_comm]
    rw [hbytes]
    by_cases heq : name' = name
    · subst heq
      rw [if_pos rfl]
      unfold appendAt
      dsimp only [TextState.parseSection]
      rw [Function.update_self]
      exact hwalked.appendAt_le
    · rw [if_neg heq, Nat.add_zero]
      unfold appendAt
      by_cases hmeth : name' = .objcMethNames
      · rw [hother name' heq hmeth]
        dsimp only [TextState.parseSection]
        rw [Function.update_of_ne heq]
      · dsimp only [TextState.parseSection]
        rw [Function.update_of_ne heq, decide_eq_false hmeth]
        exact le_rfl
  · intro sectInfo' hmem name' hname' s hs
    rw [List.mem_singleton] at hmem
    subst hmem
    rw [hname] at hname'
    cases hname'
    dsimp only [TextState.parseSection]
    rw [Function.update_self, Function.update_self]
    exact hwalked.redirects s (Nat.zero_le s) hs
  · intro name' hne
    have heq : name' ≠ name := by
      rintro rfl
      exact hne sectInfo (List.mem_singleton_self _) hself
    dsimp only [TextState.parseSection]
    rw [Function.update_of_ne heq]

theorem parseSections_spec (sections : List SectInfo) (st : TextState)
    (hsections : WellFormedSections (supportedTail sections))
    (hsound : SoundText selectors st.coalescedText st.selectorsHoleMap)
    (hroom : ∀ name, appendAt st.coalescedText st.selectorsHoleMap name +
      sectionBytes (supportedTail sections) name < 2 ^ 32) :
    Parsed selectors (supportedTail sections) st (st.parseSections selectors sections) := by
  induction sections generalizing st with
  | nil => exact parsed_nil hsound
  | cons sectInfo rest ih =>
    unfold TextState.parseSections
    cases hname : SupportedSection.ofName sectInfo.sectName with
    | none =>
      have htail : supportedTail (sectInfo :: rest) = [] := by
        rw [supportedTail, List.takeWhile_cons_of_neg]
        rw [hname]
        exact Bool.false_ne_true
      rw [htail]
      exact parsed_nil hsound
    | some name =>
      have htail : supportedTail (sectInfo :: rest) = sectInfo :: supportedTail rest := by
        rw [supportedTail, List.takeWhile_cons_of_pos]
        · rfl
        · rw [hname]
          rfl
      rw [htail] at hsections hroom ⊢
      have hnodup := List.nodup_cons.mp hsections.nodup
      have hbytes : ∀ name', sectionBytes (sectInfo :: supportedTail rest) name' =
          sectionBytes [sectInfo] name' + sectionBytes (supportedTail rest) name' := by
        intro name'
        simp only [sectionBytes, List.map_cons, List.map_nil, List.sum_cons, List.sum_nil, Nat.add_zero]
      have hfirst : sectionBytes [sectInfo] name = sectInfo.sectSize := by
        simp only [sectionBytes, List.map_cons, List.map_nil, List.sum_cons, List.sum_nil, Nat.add_zero,
          hname, if_true]
      have hhead : WellFormedSections [sectInfo] := by
        refine ⟨?_, ?_, List.nodup_singleton _⟩
        · intro sectInfo' hmem
          rw [List.mem_singleton.mp hmem]
          exact hsections.terminated sectInfo (List.mem_cons_self ..)
        · intro sectInfo' hmem
          rw [List.mem_singleton.mp hmem]
          exact hsections.short sectInfo (List.mem_cons_self ..)
      have hparsed := parseSection_spec hselectors hname hhead hsound (by
        have hlt := hroom name
        rw [hbytes, hfirst] at hlt
        omega)
      have hrest := ih (st.parseSection selectors name sectInfo)
        ⟨fun x hx => hsections.terminated x (List.mem_cons_of_mem _ hx),
          fun x hx => hsections.short x (List.mem_cons_of_mem _ hx), hnodup.2⟩ hparsed.sound (by
        intro name'
        have hlt := hroom name'
        have hle := hparsed.appendAt_le name'
        rw [hbytes] at hlt
        omega)
      dsimp only
      refine ⟨hrest.sound, hparsed.grows.trans hrest.grows, ?_, ?_, ?_⟩
      · intro name'
        have hle := hparsed.appendAt_le name'
        have hle' := hrest.appendAt_le name'
        rw [hbytes]
        omega
      · intro sectInfo' hmem name' hname' s hs
        rcases List.mem_cons.mp hmem with rfl | hmem'
        · -- no later section has the name of this one, so that its dictionary stays
          have hredirects := hparsed.redirects.mono hrest.grows sectInfo' (List.mem_singleton_self _) name'
            hname' s hs
          rw [hrest.kept name']
          · exact hredirects
          · intro x hx heq
            rw [← SupportedSection.eq_sectName hname'] at heq
            exact hnodup.1 (List.mem_map.mpr ⟨x, hx, heq⟩)
        · exact hrest.redirects sectInfo' hmem' name' hname' s hs
      · intro name' hne
        rw [hrest.kept name' fun x hx => hne x (List.mem_cons_of_mem _ hx)]
        apply hparsed.kept
        intro x hx
        rw [List.mem_singleton.mp hx]
        exact hne sectInfo (List.mem_cons_self ..)

end Sections

/-! ### All dylibs -/

def SplitDylib.coalescedSections (ma : SplitDylib) : List SectInfo :=
  if ma.splitSegFormat = some DYLD_CACHE_ADJ_V2_FORMAT then supportedTail ma.textSectionInfos.reverse
  else []

def SplitDylib.WellFormed (ma : SplitDylib) : Prop :=
  ∀ sectInfo ∈ ma.textSectionInfos, sectInfo.malformedSectionRange = false

def dylibBytes (dylibs : List (SplitDylib × DylibTextCoalescer)) (name : SupportedSection) : Nat :=
  (dylibs.map fun d => sectionBytes d.1.coalescedSections name).sum

section Dylibs

variable {selectors : SelectorMap}
  (hselectors : ∀ s offset, selectors s = some offset → uint32Of offset + (s.length + 1) < 2 ^ 32)
include hselectors

lemma parseCoalescableText_spec {ma : SplitDylib} (st : TextState) (hma : ma.WellFormed)
    (hsections : WellFormedSections ma.coalescedSections)
    (hsound : SoundText selectors st.coalescedText st.selectorsHoleMap)
    (hroom : ∀ name, appendAt st.coalescedText st.selectorsHoleMap name +
      sectionBytes ma.coalescedSections name < 2 ^ 32) :
    ∃ st', parseCoalescableText selectors ma st = some st' ∧
      Parsed selectors ma.coalescedSections st st' := by
  unfold parseCoalescableText
  cases hformat : ma.splitSegFormat with
  | none =>
    have hnone : ma.coalescedSections = [] := by
      rw [SplitDylib.coalescedSections, hformat]
      rfl
    rw [hnone]
    exact ⟨st, rfl, parsed_nil hsound⟩
  | some format =>
    dsimp only
    by_cases hv2 : format = DYLD_CACHE_ADJ_V2_FORMAT
    · have hany : ma.textSectionInfos.any (·.malformedSectionRange) = false := by
        rw [List.any_eq_false]
        intro sectInfo hmem
        rw [hma sectInfo hmem]
        exact Bool.false_ne_true
      have hsome : ma.coalescedSections = supportedTail ma.textSectionInfos.reverse := by
        rw [SplitDylib.coalescedSections, hformat, hv2, if_pos rfl]
      rw [if_neg (not_not.mpr hv2), hany, if_neg Bool.false_ne_true]
      rw [hsome] at hsections hroom ⊢
      exact ⟨_, rfl, parseSections_spec hselectors _ st hsections hsound hroom⟩
    · have hnone : ma.coalescedSections = [] := by
        rw [SplitDylib.coalescedSections, hformat, if_neg]
        exact fun heq => hv2 (Option.some.inj heq)
      rw [if_pos hv2, hnone]
      exact ⟨st, rfl, parsed_nil hsound⟩

theorem parseCoalescableSegments_spec (dylibs : List (SplitDylib × DylibTextCoalescer))
    (coalescedText : CacheCoalescedText) (holes : HoleMap) (hdylibs : ∀ d ∈ dylibs, d.1.WellFormed)
    (hsections : ∀ d ∈ dylibs, WellFormedSections d.1.coalescedSections)
    (hsound : SoundText selectors coalescedText holes)
    (hroom : ∀ name, appendAt coalescedText holes name + dylibBytes dylibs name < 2 ^ 32) :
    ∃ r, parseCoalescableSegments selectors dylibs coalescedText holes = some r ∧
      (∃ holes', SoundText selectors r.1 holes') ∧ Grows coalescedText r.1 ∧
      List.Forall₂ (fun d c => RedirectsAll r.1 c d.1.coalescedSections) dylibs r.2 := by
  induction dylibs generalizing coalescedText holes with
  | nil => exact ⟨_, rfl, ⟨holes, hsound⟩, fun _ _ _ h => h, List.Forall₂.nil⟩
  | cons d rest ih =>
    have hbytes : ∀ name, dylibBytes (d :: rest) name =
        sectionBytes d.1.coalescedSections name + dylibBytes rest name := by
      intro name
      simp only [dylibBytes, List.map_cons, List.sum_cons]
    have hroom₁ : ∀ name, appendAt coalescedText holes name + sectionBytes d.1.coalescedSections name < 2 ^ 32 := by
      intro name
      have hlt := hroom name
      rw [hbytes] at hlt
      omega
    have htext := parseCoalescableText_spec hselectors ⟨coalescedText, holes, d.2⟩
      (hdylibs d (List.mem_cons_self ..)) (hsections d (List.mem_cons_self ..)) hsound hroom₁
    obtain ⟨st, hst, hparsed⟩ := htext
    obtain ⟨r, hr, hsound', hgrows, hredirects⟩ := ih st.coalescedText st.selectorsHoleMap
      (fun x hx => hdylibs x (List.mem_cons_of_mem _ hx)) (fun x hx => hsections x (List.mem_cons_of_mem _ hx))
      hparsed.sound (fun name => by
        have hlt := hroom name
        have hle := hparsed.appendAt_le name
        rw [hbytes] at hlt
        dsimp only at hle
        omega)
    refine ⟨(r.1, st.textCoalescer :: r.2), ?_, hsound', ?_, ?_⟩
    · simp only [parseCoalescableSegments, hst, Option.bind_some, hr, Option.map_some]
    · exact hparsed.grows.trans hgrows
    · exact List.Forall₂.cons (hparsed.redirects.mono hgrows) hredirects

end Dylibs

/-- What is asked of the input: strings that are terminated, selectors and holes that are apart, and
holes below the end. -/
structure Admissible (selectors : SelectorMap) (dylibs : List (SplitDylib × DylibTextCoalescer))
    (holes : HoleMap) : Prop where
  wellFormed : ∀ d ∈ dylibs, d.1.WellFormed
  terminated : ∀ d ∈ dylibs, ∀ sectInfo ∈ d.1.coalescedSections, sectInfo.Terminated
  selectors_apart : ∀ s t a b, s ≠ t → selectors s = some a → selectors t = some b →
    Disjoint (Set.Ico a (a + (s.length + 1))) (Set.Ico b (b + (t.length + 1)))
  holes_apart : ∀ h ∈ holes.holes, ∀ h' ∈ holes.holes, h ≠ h' →
    Disjoint (Set.Ico h.startAddress h.endAddress) (Set.Ico h'.startAddress h'.endAddress)
  holes_selectors : ∀ h ∈ holes.holes, ∀ s a, selectors s = some a →
    Disjoint (Set.Ico h.startAddress h.endAddress) (Set.Ico a (a + (s.length + 1)))
  holes_below : ∀ h ∈ holes.holes, h.endAddress ≤ holes.endAddress

/-- What the code also relies on: all addresses are below the end, the sizes fit their types, and the
sections of a dylib have different names. -/
structure Fits (selectors : SelectorMap) (dylibs : List (SplitDylib × DylibTextCoalescer))
    (holes : HoleMap) : Prop where
  start_nonneg : ∀ h ∈ holes.holes, 0 ≤ h.startAddress
  end_nonneg : 0 ≤ holes.endAddress
  end_lt : holes.endAddress < 2 ^ 31
  selectors_below : ∀ s a, selectors s = some a → 0 ≤ a ∧ a + (s.length + 1) ≤ holes.endAddress
  room : ∀ name,
    (if name = .objcMethNames then holes.endAddress.toNat else 0) + dylibBytes dylibs name < 2 ^ 32
  short : ∀ d ∈ dylibs, ∀ sectInfo ∈ d.1.coalescedSections, sectInfo.sectName = "__objc_methname" →
    ∀ s, sectInfo.StringStart s → (cString sectInfo.content s).length + 1 < 2 ^ 31
  nodup : ∀ d ∈ dylibs, (d.1.coalescedSections.map (·.sectName)).Nodup

/-- Different strings of a section of the cache are apart and inside of it, and every string of a
dylib is sent to an equal one. -/
structure Coalesces (dylibs : List (SplitDylib × DylibTextCoalescer))
    (r : CacheCoalescedText × List DylibTextCoalescer) : Prop where
  apart : ∀ name s t a b, s ≠ t → (r.1 name).stringsToOffsets s = some a →
    (r.1 name).stringsToOffsets t = some b → Disjoint (bytesAt s a) (bytesAt t b)
  inside : ∀ name s a, (r.1 name).stringsToOffsets s = some a →
    bytesAt s a ⊆ Set.Iio (r.1 name).bufferSize
  redirects : List.Forall₂ (fun d c => RedirectsAll r.1 c d.1.coalescedSections) dylibs r.2

section Coalesce

variable {selectors : SelectorMap} {dylibs : List (SplitDylib × DylibTextCoalescer)} {holes : HoleMap}

lemma uint32Of_nonneg {a : Int} (hlow : 0 ≤ a) (hhigh : a < 2 ^ 32) : (uint32Of a : Int) = a := by
  unfold uint32Of
  omega

lemma mem_of_mem_bytesAt {str : List UInt8} {a : Int} {x : Nat} (hlow : 0 ≤ a) (hhigh : a < 2 ^ 32)
    (hx : x ∈ bytesAt str (uint32Of a)) : (x : Int) ∈ Set.Ico a (a + (str.length + 1)) := by
  have hu := uint32Of_nonneg hlow hhigh
  obtain ⟨hle, hlt⟩ := hx
  exact ⟨by omega, by omega⟩

lemma Fits.offset_lt (h : Fits selectors dylibs holes) {s : List UInt8} {a : Int}
    (hs : selectors s = some a) : a < 2 ^ 32 := by
  have hlt := h.end_lt
  have hle := (h.selectors_below s a hs).2
  omega

lemma Fits.uint32Of_offset (h : Fits selectors dylibs holes) {s : List UInt8} {a : Int}
    (hs : selectors s = some a) : uint32Of a + (s.length + 1) < 2 ^ 32 := by
  have hu := uint32Of_nonneg (h.selectors_below s a hs).1 (h.offset_lt hs)
  have hlt := h.end_lt
  have hle := (h.selectors_below s a hs).2
  omega

lemma placement_new (h : Admissible selectors dylibs holes) (hfits : Fits selectors dylibs holes) :
    Placement bytesAt (fixedOffsets true selectors) (fun _ => none) holes.free := by
  have hfixed : ∀ s p, fixedOffsets true selectors s = some p →
      ∃ a, selectors s = some a ∧ uint32Of a = p :=
    fun s p hs => Option.map_eq_some_iff.mp hs
  apply Placement.empty
  · intro s t p q hne hs ht
    obtain ⟨a, ha, rfl⟩ := hfixed s p hs
    obtain ⟨b, hb, rfl⟩ := hfixed t q ht
    rw [Set.disjoint_left]
    intro x hx hx'
    exact Set.disjoint_left.mp (h.selectors_apart s t a b hne ha hb)
      (mem_of_mem_bytesAt (hfits.selectors_below s a ha).1 (hfits.offset_lt ha) hx)
      (mem_of_mem_bytesAt (hfits.selectors_below t b hb).1 (hfits.offset_lt hb) hx')
  · intro s p hs
    obtain ⟨a, ha, rfl⟩ := hfixed s p hs
    have hbelow := hfits.selectors_below s a ha
    rw [Set.disjoint_left]
    intro x hx hfree
    have hmem := mem_of_mem_bytesAt hbelow.1 (hfits.offset_lt ha) hx
    rcases hfree with hend | ⟨hole, hhole, hlow, hhigh⟩
    · have hlt := hfits.end_lt
      have hu := uint32Of_nonneg hfits.end_nonneg (hlt.trans (by norm_num))
      have hx' := hmem.2
      omega
    · exact Set.disjoint_left.mp (h.holes_selectors hole hhole s a ha) ⟨hlow, hhigh⟩ hmem

lemma soundText_new (h : Admissible selectors dylibs holes) (hfits : Fits selectors dylibs holes) :
    SoundText selectors (fun _ => StringSection.new) holes := by
  have hlt := hfits.end_lt
  have hu := uint32Of_nonneg hfits.end_nonneg (hlt.trans (by norm_num))
  intro name
  refine ⟨?_, fun _ _ hs => (nomatch hs), by norm_num [StringSection.new], fun _ => ⟨h.holes_apart,
    hfits.start_nonneg, ?_, ?_⟩⟩
  · by_cases hname : name = .objcMethNames
    · rw [decide_eq_true hname]
      exact placement_new h hfits
    · rw [decide_eq_false hname]
      exact Placement.empty (fun _ _ _ _ _ hs => nomatch hs) (fun _ _ hs => nomatch hs)
  · intro hole hhole
    have hle := h.holes_below hole hhole
    omega
  · intro hole hhole
    exact (h.holes_below hole hhole).trans_lt hlt

/-- Coalescing keeps different strings apart, whichever way their places are chosen, and redirects
every string to an equal one. -/
theorem parseCoalescableSegments_coalesces (h : Admissible selectors dylibs holes)
    (hfits : Fits selectors dylibs holes) :
    ∃ r, parseCoalescableSegments selectors dylibs (fun _ => StringSection.new) holes = some r ∧
      Coalesces dylibs r := by
  have hroom : ∀ name, appendAt (fun _ => StringSection.new) holes name + dylibBytes dylibs name < 2 ^ 32 := by
    intro name
    have hlt := hfits.room name
    unfold appendAt StringSection.appendAt
    by_cases hname : name = .objcMethNames
    · have hend := hfits.end_lt
      have hu := uint32Of_nonneg hfits.end_nonneg (hend.trans (by norm_num))
      rw [if_pos hname] at hlt
      rw [decide_eq_true hname, if_pos rfl]
      omega
    · rw [if_neg hname] at hlt
      rw [decide_eq_false hname, if_neg Bool.false_ne_true]
      exact hlt
  obtain ⟨r, hr, ⟨holes', hsound⟩, _, hredirects⟩ := parseCoalescableSegments_spec
    (fun s a hs => hfits.uint32Of_offset hs) dylibs (fun _ => StringSection.new) holes h.wellFormed
    (fun d hd => ⟨h.terminated d hd, hfits.short d hd, hfits.nodup d hd⟩) (soundText_new h hfits) hroom
  refine ⟨r, hr, ?_, ?_, hredirects⟩
  · intro name s t a b hne hs ht
    exact (hsound name).placement.apart s t a b hne hs ht
  · intro name s a hs x hx
    exact hx.2.trans_le ((hsound name).inside s a hs)

end Coalesce

/-! ### Inputs -/

def textSection (sectName : String) (content : List UInt8) : SectInfo :=
  ⟨"__TEXT", sectName, false, content.length, content⟩

def splitDylib (sections : List SectInfo) : SplitDylib × DylibTextCoalescer :=
  (⟨some DYLD_CACHE_ADJ_V2_FORMAT, sections⟩, fun _ _ => none)

def oneSelector (offset : Int) : SelectorMap := fun str => if str = [98] then some offset else none

def noSelectors : SelectorMap := fun _ => none

/-- A class name, and the selectors `aa` and `b`. -/
def someNames : SplitDylib × DylibTextCoalescer :=
  splitDylib [textSection "__objc_classname" [65, 0], textSection "__objc_methname" [97, 97, 0, 98, 0]]

lemma someNames_coalescedSections : someNames.1.coalescedSections =
    [textSection "__objc_methname" [97, 97, 0, 98, 0], textSection "__objc_classname" [65, 0]] := rfl

lemma splitDylib_wellFormed {sections : List SectInfo}
    (h : ∀ sectInfo ∈ sections, sectInfo.malformedSectionRange = false) :
    (splitDylib sections).1.WellFormed := by
  intro sectInfo hmem
  exact h sectInfo (List.mem_of_mem_filter hmem)

lemma length_cString_le_length (content : List UInt8) (s : Nat) :
    (cString content s).length ≤ content.length :=
  (List.takeWhile_prefix _).length_le.trans (List.length_drop.trans_le (Nat.sub_le _ _))

lemma admissible_someNames (offset : Int) {holes : HoleMap}
    (hholes : holes.holes = ∅ ∨ holes.holes = {⟨0, offset⟩} ∧ offset ≤ holes.endAddress) :
    Admissible (oneSelector offset) [someNames] holes where
  wellFormed := by
    simp only [List.mem_singleton, forall_eq]
    apply splitDylib_wellFormed
    simp [textSection]
  terminated := by
    simp only [List.mem_singleton, forall_eq, someNames_coalescedSections]
    simp [SectInfo.Terminated, textSection]
  selectors_apart := by
    intro s t a b hne hs ht
    simp only [oneSelector] at hs ht
    split_ifs at hs ht with hs' ht'
    exact absurd (hs'.trans ht'.symm) hne
  holes_apart := by
    rcases hholes with h | ⟨h, -⟩ <;> simp [h]
  holes_selectors := by
    intro h hh s a hs
    simp only [oneSelector] at hs
    split_ifs at hs
    cases hs
    rcases hholes with h' | ⟨h', -⟩ <;> simp [h'] at hh
    subst hh
    rw [Set.Ico_disjoint_Ico]
    exact min_le_of_left_le (le_max_right _ _)
  holes_below := by
    rcases hholes with h | ⟨h, hend⟩
    · simp [h]
    · simp [h, hend]

/-- `aa` goes to the hole before the selector, which is at its own address. -/
theorem someNames_coalesces :
    ∃ r, parseCoalescableSegments (oneSelector 3) [someNames] (fun _ => StringSection.new)
      ⟨5, {⟨0, 3⟩}⟩ = some r ∧ Coalesces [someNames] r := by
  apply parseCoalescableSegments_coalesces (admissible_someNames 3 (Or.inr ⟨rfl, by norm_num⟩))
  refine ⟨?_, by norm_num, by norm_num, ?_, ?_, ?_, ?_⟩
  · simp
  · intro s a hs
    simp only [oneSelector] at hs
    split_ifs at hs with hs'
    cases hs
    rw [hs']
    norm_num
  · intro name
    cases name <;> decide +kernel
  · simp only [List.mem_singleton, forall_eq, someNames_coalescedSections]
    intro sectInfo hmem _ s _
    have hle := length_cString_le_length sectInfo.content s
    have hlen : sectInfo.content.length ≤ 5 := by
      rcases List.mem_cons.mp hmem with rfl | hmem
      · exact le_rfl
      · rw [List.mem_singleton.mp hmem]
        decide
    omega
  · simp only [List.mem_singleton, forall_eq, someNames_coalescedSections]
    decide +kernel

/-- Selectors with the same section name. -/
def twoSections : SplitDylib × DylibTextCoalescer :=
  splitDylib [textSection "__objc_methname" [97, 0], textSection "__objc_methname" [98, 0]]

def oneClassName (name : List UInt8) : SplitDylib × DylibTextCoalescer :=
  splitDylib [textSection "__objc_classname" (name ++ [0])]

lemma admissible_noSelectors {dylib : SplitDylib × DylibTextCoalescer} (hwell : dylib.1.WellFormed)
    (hterminated : ∀ sectInfo ∈ dylib.1.coalescedSections, sectInfo.Terminated) :
    Admissible noSelectors [dylib] ⟨0, ∅⟩ where
  wellFormed := by simpa using hwell
  terminated := by simpa using hterminated
  selectors_apart := fun _ _ _ _ _ hs => nomatch hs
  holes_apart := by simp
  holes_selectors := by simp
  holes_below := by simp

lemma aa_overlaps_b {r : CacheCoalescedText × List DylibTextCoalescer}
    (hr : parseCoalescableSegments (oneSelector 1) [someNames] (fun _ => StringSection.new) ⟨0, ∅⟩ = some r) :
    ¬Coalesces [someNames] r := by
  have hadd : HoleMap.addStringOfSize ⟨0, ∅⟩ 3 = (0, ⟨3, ∅⟩) := by decide +kernel
  simp [parseCoalescableSegments, parseCoalescableText, someNames, splitDylib, textSection,
    SplitDylib.textSectionInfos, TextState.parseSections, SupportedSection.ofName, TextState.parseSection,
    walkStrings, SectionWalk.visit, cString, StringSection.new, oneSelector, StringSection.addString,
    uint32Of, hadd] at hr
  subst hr
  intro h
  have hapart := h.apart .objcMethNames [97, 97] [98] 0 1 (by decide) (by simp) (by simp)
  have hleft : 1 ∈ bytesAt [97, 97] 0 := by simp [bytesAt]
  have hright : 1 ∈ bytesAt [98] 1 := by simp [bytesAt]
  exact Set.disjoint_left.mp hapart hleft hright

lemma twoSections_lose {r : CacheCoalescedText × List DylibTextCoalescer}
    (hr : parseCoalescableSegments noSelectors [twoSections] (fun _ => StringSection.new) ⟨0, ∅⟩ = some r) :
    ¬Coalesces [twoSections] r := by
  have hadd : HoleMap.addStringOfSize ⟨0, ∅⟩ 2 = (0, ⟨2, ∅⟩) := by decide +kernel
  have hadd' : HoleMap.addStringOfSize ⟨2, ∅⟩ 2 = (2, ⟨4, ∅⟩) := by decide +kernel
  simp [parseCoalescableSegments, parseCoalescableText, twoSections, splitDylib, textSection,
    SplitDylib.textSectionInfos, TextState.parseSections, SupportedSection.ofName, TextState.parseSection,
    walkStrings, SectionWalk.visit, cString, StringSection.new, noSelectors, StringSection.addString,
    uint32Of, hadd, hadd'] at hr
  subst hr
  intro h
  cases h.redirects with
  | cons hredirects _ =>
    have hb := hredirects (textSection "__objc_methname" [98, 0])
      (List.mem_cons_self ..) .objcMethNames rfl 0 ⟨by decide, Or.inl rfl⟩
    obtain ⟨offset, hoffset, hfound⟩ := hb
    simp [textSection, cString] at hoffset hfound
    omega

lemma admissible_oneClassName (name : List UInt8) :
    Admissible noSelectors [oneClassName name] ⟨0, ∅⟩ := by
  have hsections : (oneClassName name).1.coalescedSections =
    [textSection "__objc_classname" (name ++ [0])] := rfl
  apply admissible_noSelectors
  · apply splitDylib_wellFormed
    simp [textSection]
  · rw [hsections]
    intro sectInfo hmem
    rw [List.mem_singleton.mp hmem]
    right
    simp [textSection]

lemma oneClassName_outside {name : List UInt8} (hzero : 0 ∉ name) (hlen : name.length = 2 ^ 32 - 1)
    {r : CacheCoalescedText × List DylibTextCoalescer}
    (hr : parseCoalescableSegments noSelectors [oneClassName name] (fun _ => StringSection.new)
      ⟨0, ∅⟩ = some r) :
    ¬Coalesces [oneClassName name] r := by
  have hsize : (name ++ [0]).length = 2 ^ 32 := by
    rw [List.length_append, hlen, List.length_singleton]
    norm_num
  have hstring : cString (name ++ [0]) 0 = name := by
    have happend : cString ([] ++ (name ++ [0]) ++ []) ([] : List UInt8).length = name :=
      cString_append hzero
    rw [List.append_nil] at happend
    exact happend
  have hwalk : ∀ w, walkStrings false noSelectors (textSection "__objc_classname" (name ++ [0])) 0 w =
      w.visit false noSelectors name 0 := by
    intro w
    rw [walkStrings, if_pos (by rw [textSection, hsize]; norm_num)]
    simp only [textSection, hstring]
    rw [walkStrings, if_neg (by dsimp only; rw [hsize, hlen]; norm_num)]
  have hrun : (r.1 .objcClassNames).stringsToOffsets name = some 0 ∧
      (r.1 .objcClassNames).bufferSize = 0 := by
    have htext : ∀ st, parseCoalescableText noSelectors (oneClassName name).1 st = some (st.parseSection
        noSelectors .objcClassNames (textSection "__objc_classname" (name ++ [0]))) := fun st => rfl
    have hpair : oneClassName name = ((oneClassName name).1, fun _ _ => none) := rfl
    rw [hpair] at hr
    simp only [parseCoalescableSegments, htext, Option.bind_some, Option.map_some, Option.some.injEq] at hr
    rw [← hr]
    dsimp only [TextState.parseSection]
    have hclass : decide (SupportedSection.objcClassNames = .objcMethNames) = false := rfl
    rw [Function.update_self, hclass, hwalk]
    simp [SectionWalk.visit, StringSection.addString, StringSection.new, hlen, uint32Of]
  intro h
  have hinside := h.inside .objcClassNames name 0 hrun.1
  rw [hrun.2] at hinside
  have hmem : 0 ∈ bytesAt name 0 := ⟨le_rfl, by omega⟩
  exact absurd (hinside hmem) (Nat.lt_irrefl 0)

/-- A selector past the end of the holes, a name that is too long, and two sections with one name. -/
theorem parseCoalescableSegments_not_coalesces :
    (Admissible (oneSelector 1) [someNames] ⟨0, ∅⟩ ∧ ¬∃ r, parseCoalescableSegments (oneSelector 1)
      [someNames] (fun _ => StringSection.new) ⟨0, ∅⟩ = some r ∧ Coalesces [someNames] r) ∧
    (Admissible noSelectors [oneClassName (List.replicate (2 ^ 32 - 1) 65)] ⟨0, ∅⟩ ∧
      ¬∃ r, parseCoalescableSegments noSelectors [oneClassName (List.replicate (2 ^ 32 - 1) 65)]
        (fun _ => StringSection.new) ⟨0, ∅⟩ = some r ∧
          Coalesces [oneClassName (List.replicate (2 ^ 32 - 1) 65)] r) ∧
    (Admissible noSelectors [twoSections] ⟨0, ∅⟩ ∧ ¬∃ r, parseCoalescableSegments noSelectors
      [twoSections] (fun _ => StringSection.new) ⟨0, ∅⟩ = some r ∧ Coalesces [twoSections] r) := by
  have hzero : 0 ∉ List.replicate (2 ^ 32 - 1) (65 : UInt8) := by
    intro h
    exact absurd (List.eq_of_mem_replicate h) (by decide)
  refine ⟨⟨admissible_someNames 1 (Or.inl rfl), ?_⟩, ⟨admissible_oneClassName _, ?_⟩,
    admissible_noSelectors ?_ ?_, ?_⟩
  · rintro ⟨r, hr, h⟩
    exact aa_overlaps_b hr h
  · rintro ⟨r, hr, h⟩
    exact oneClassName_outside hzero List.length_replicate hr h
  · apply splitDylib_wellFormed
    simp [textSection]
  · intro sectInfo hmem
    have hsections : twoSections.1.coalescedSections =
      [textSection "__objc_methname" [98, 0], textSection "__objc_methname" [97, 0]] := rfl
    rw [hsections] at hmem
    simp only [List.mem_cons, List.not_mem_nil, or_false] at hmem
    rcases hmem with rfl | rfl <;> exact Or.inr rfl
  · rintro ⟨r, hr, h⟩
    exact twoSections_lose hr h

end Dyld.Cache
