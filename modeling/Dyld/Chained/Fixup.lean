import Dyld.Chained.Pointer

/-!
# Fixing up chains in place

`MachOLoaded::fixupAllChainedFixups` walks the chains of an image and overwrites each location
with its final pointer. `ChainedFixupPointerOnDisk::isRebase` and `isBind` decode the same
words without changing them. The results say when the two agree on a whole image.
-/

namespace Dyld.Chained

open Dyld.Lib

namespace ChainedImage

variable (image : ChainedImage)

/-! ### What fixing up in place should do -/

def ordinalInRange (format : Nat) (raw : PointerOnDisk) : Bool :=
  match raw.isBind format with
  | some (ordinal, _) => ordinal < image.bindTargets.length
  | none => true

/-- The pointer that `isRebase` and `isBind` say a word stands for. -/
def finalValue (format : Nat) (raw : PointerOnDisk) : BitVec 64 :=
  match raw.isRebase format image.preferredLoadAddress, raw.isBind format with
  | some targetRuntimeOffset, _ => image.loadAddress + targetRuntimeOffset
  | none, some (ordinal, addend) => image.bindTargets.getD ordinal 0 + addend
  | none, none => raw

/-- The locations of one segment, empty if the walk does not end. -/
def segLocations (fuel : Nat) (m : Mem) (segInfo : StartsInSegment) : List Nat :=
  (image.locations fuel m segInfo).getD []

/-- All locations with the format of their segment, in the order of the walk. -/
def sites (fuel : Nat) (m : Mem) : StartsInImage → List (Nat × Nat)
  | [] => []
  | none :: starts => sites fuel m starts
  | some segInfo :: starts =>
    (image.segLocations fuel m segInfo).map (segInfo.pointerFormat, ·) ++ sites fuel m starts

/-- The word of a site has a final pointer. -/
def siteInRange (m : Mem) (x : Nat × Nat) : Bool := image.ordinalInRange x.1 (load 8 m x.2)

def siteError (m : Mem) (x : Nat × Nat) : ChainError :=
  .bindOrdinalOutOfRange (((PointerOnDisk.isBind (load 8 m x.2) x.1).getD (0, 0)).1)
    image.bindTargets.length

/-- The sites before the first out of range ordinal have their final pointers, no other byte
changed, and the walk stopped there with an error. -/
structure FixesUp (m : Mem) (xs : List (Nat × Nat)) (s : Patching ChainError) : Prop where
  visited : s.visited = (xs.takeWhile (image.siteInRange m) ++
    (xs.dropWhile (image.siteInRange m)).take 1).map Prod.snd
  written : ∀ x ∈ xs.takeWhile (image.siteInRange m),
    load 8 s.mem x.2 = image.finalValue x.1 (load 8 m x.2)
  kept : ∀ a, (∀ x ∈ xs.takeWhile (image.siteInRange m), ¬ InWord 8 x.2 a) → s.mem a = m a
  untouched : ∀ x ∈ xs.dropWhile (image.siteInRange m), load 8 s.mem x.2 = load 8 m x.2
  diag : s.diag = ((xs.dropWhile (image.siteInRange m)).head?).map (image.siteError m)

def userlandFormats : List Nat :=
  [ptr64, ptr64Offset, ptrArm64e, ptrArm64eUserland, ptrArm64eUserland24]

structure PlainChains (fuel : Nat) (m : Mem) (starts : StartsInImage) : Prop where
  format : ∀ segInfo, some segInfo ∈ starts → segInfo.pointerFormat ∈ userlandFormats
  finite : ∀ segInfo, some segInfo ∈ starts → (image.locations fuel m segInfo).isSome
  apart : ((image.sites fuel m starts).map Prod.snd).Pairwise (Apart 8)
  noAuth : ∀ x ∈ image.sites fuel m starts, x.1 ∈ arm64eFormats →
    PointerOnDisk.arm64eAuth (load 8 m x.2) = false

def NothingAfterError (fuel : Nat) (m : Mem) (starts : StartsInImage) : Prop :=
  ∀ before segInfo after, starts = before ++ some segInfo :: after →
    (∃ a ∈ image.segLocations fuel m segInfo,
      image.siteInRange m (segInfo.pointerFormat, a) = false) →
    ∀ segInfo', some segInfo' ∈ after → image.segLocations fuel m segInfo' = []

/-! ### The two decoders -/

section Decode

variable {image}

lemma generic64SignExtendedAddend_eq (raw : PointerOnDisk) :
    raw.generic64SignExtendedAddend = BitVec.ofNat 64 raw.generic64Addend := by
  have hall : ∀ a : Fin 256,
      (((BitVec.ofNat 64 a &&& 0x00007F80000#64) <<< 13) |||
        ((((BitVec.ofNat 64 a &&& 0x0000007FFFF#64) <<< 37) >>> 37) &&& 0x00FFFFFFFFFFFFFF#64)) =
      BitVec.ofNat 64 a := by decide +kernel
  have hlt : raw.generic64Addend < 256 := getField_lt raw 24 8
  exact hall ⟨_, hlt⟩

lemma bindTarget_of_lt {ordinal : Nat} (h : ordinal < image.bindTargets.length) :
    image.bindTarget ordinal = .ok (image.bindTargets.getD ordinal 0) := by
  simp [bindTarget, List.getD, h]

lemma bindTarget_of_ge {ordinal : Nat} (h : ¬ ordinal < image.bindTargets.length) :
    image.bindTarget ordinal =
      .error (.bindOrdinalOutOfRange ordinal image.bindTargets.length) := by
  simp [bindTarget, Nat.le_of_not_lt h]

lemma userlandFormats_cases {format : Nat} (h : format ∈ userlandFormats) :
    (format ∈ [ptr64, ptr64Offset] ∧ format ∉ arm64eFormats ∧
      format ∉ [ptrArm64e, ptrArm64eKernel, ptrArm64eUserland, ptrArm64eUserland24]) ∨
    (format ∈ arm64eFormats ∧ format ≠ ptrArm64eFirmware ∧
      format ∈ [ptrArm64e, ptrArm64eKernel, ptrArm64eUserland, ptrArm64eUserland24]) := by
  simp only [userlandFormats, List.mem_cons, List.not_mem_nil, or_false] at h
  rcases h with rfl | rfl | rfl | rfl | rfl <;> decide

/-- Without authentication the handler and the read-only decoders agree on a word. -/
lemma newValue_eq {format : Nat} (loc : Nat) {raw : PointerOnDisk}
    (hslide : image.slide = image.loadAddress - image.preferredLoadAddress)
    (hformat : format ∈ userlandFormats)
    (hauth : format ∈ arm64eFormats → raw.arm64eAuth = false) :
    image.newValue format loc raw =
      if image.ordinalInRange format raw then .ok (image.finalValue format raw)
      else .error (.bindOrdinalOutOfRange ((raw.isBind format).getD (0, 0)).1
        image.bindTargets.length) := by
  have hsub : ∀ t : BitVec 64,
      t + image.slide = image.loadAddress + (t - image.preferredLoadAddress) := by
    intro t
    rw [hslide]
    ring
  unfold newValue ordinalInRange finalValue PointerOnDisk.isRebase PointerOnDisk.isBind
  rcases userlandFormats_cases hformat with ⟨h64, hnot, hnot'⟩ | ⟨harm, hfirm, harm'⟩
  · simp only [if_neg hnot, if_neg hnot', if_pos h64]
    cases hb : raw.generic64Bind
    · -- a rebase
      simp only [Bool.false_eq_true, if_false, if_true]
      split_ifs with hf
      · simp only [hsub]
      · rfl
    · -- a bind
      simp only [if_true, Option.getD_some, decide_eq_true_eq, generic64SignExtendedAddend_eq]
      by_cases hr : raw.generic64Ordinal < image.bindTargets.length
      · rw [bindTarget_of_lt hr, if_pos hr]
        rfl
      · rw [bindTarget_of_ge hr, if_neg hr]
        rfl
  · simp only [if_pos harm, if_pos harm', hauth harm, Bool.false_eq_true, if_false]
    cases hb : raw.arm64eBind
    · simp only [Bool.false_eq_true, if_false, if_true, hfirm, or_false]
      split_ifs with hf
      · simp only [hsub]
      · rfl
    · simp only [if_true, Option.getD_some, decide_eq_true_eq]
      by_cases hr : raw.arm64eBindOrdinal format < image.bindTargets.length
      · rw [bindTarget_of_lt hr, if_pos hr]
        rfl
      · rw [bindTarget_of_ge hr, if_neg hr]
        rfl

end Decode

/-! ### One segment -/

section Segment

variable {image} {segInfo : StartsInSegment}

lemma walkChain_eq (hformat : segInfo.pointerFormat ∈ userlandFormats) :
    ∃ next, ∀ handler fuel s chain, walkChain segInfo.pointerFormat handler fuel s chain =
      walk next (fun s a => load 8 s.mem a) handler fuel s chain := by
  simp only [userlandFormats, List.mem_cons, List.not_mem_nil, or_false] at hformat
  unfold walkChain
  generalize segInfo.pointerFormat = format at hformat
  have hstride : ∃ stride, strideSize format = some stride ∧ nextDistance format stride 0 ≠ none := by
    rcases hformat with rfl | rfl | rfl | rfl | rfl
    · exact ⟨4, by decide, by decide⟩
    · exact ⟨4, by decide, by decide⟩
    · exact ⟨8, by decide, by decide⟩
    · exact ⟨8, by decide, by decide⟩
    · exact ⟨8, by decide, by decide⟩
  obtain ⟨stride, hs, hn⟩ := hstride
  refine ⟨fun raw => (nextDistance format stride raw).getD 0, fun handler fuel s chain => ?_⟩
  rw [hs, Option.bind_some, if_neg hn]

/-- One segment in place: the handler is called on the noted locations until it stops. -/
lemma inSegment_fixup (hformat : segInfo.pointerFormat ∈ userlandFormats) {fuel : Nat} {m : Mem}
    {l : List Nat} (h : image.locations fuel m segInfo = some l) (s : Patching ChainError)
    (hap : l.Pairwise (Apart 8)) (hagree : ∀ b ∈ l, load 8 s.mem b = load 8 m b) :
    image.inSegment image.fixup fuel s segInfo = some (feed (image.fixup segInfo) s l).1 := by
  obtain ⟨s', hs', rfl⟩ := Option.map_eq_some_iff.mp h
  obtain ⟨⟨w', stopped⟩, hw', rfl⟩ := Option.map_eq_some_iff.mp hs'
  obtain ⟨next, hnext⟩ := walkChain_eq hformat
  simp only [hnext] at hw'
  have hstop : ∀ s p o r, walk next (fun s a => load 8 s.mem a) (note segInfo) fuel s
      (image.chainLocation segInfo p o) = some r → r.2 = false := by
    intro s p o r hr
    obtain ⟨l, -, -, rfl⟩ := exists_threaded_of_walk (fun _ _ => rfl) (fun _ _ => rfl) hr
    rw [feed_note]
  obtain ⟨es, hes⟩ := exists_entries_of_walk hstop hw'
  rw [forEachFixupInSegmentChains_eq _ hes] at hw'
  obtain ⟨l, hl, hstate⟩ : ∃ l, EntryChains next (load 8 m) (image.chainLocation segInfo) fuel es l ∧
      w'.state = (feed (note segInfo) ⟨m, none, []⟩ l).1 := by
    refine exists_chainsOf (fun s => s.mem = m) hstop (fun s p o r hs hr => ?_) rfl hw'
    obtain ⟨l, hl, hlen, rfl⟩ := exists_threaded_of_walk (fun _ _ => rfl) (fun _ _ => rfl) hr
    subst hs
    refine ⟨?_, _, ⟨l, rfl, hl, hlen⟩, rfl⟩
    rw [feed_note]
  have hvisited : w'.state.visited = l := by rw [hstate, feed_note, List.nil_append]
  dsimp only at hap hagree ⊢
  rw [hvisited] at hap hagree ⊢
  have hframe : ∀ (s : Patching ChainError) x y, Apart 8 x y →
      load 8 (image.fixup segInfo s x).1.mem y = load 8 s.mem y := fun s x y hxy => load_patch_apart hxy
  obtain ⟨v, hv, hv'⟩ := @visitEntries_walk _ _ next (load 8 m) (image.chainLocation segInfo) fuel
    (fun (s : Patching ChainError) a => load 8 s.mem a) _ hframe _ _ hl hap ⟨s, [], []⟩ hagree
  rw [inSegment, forEachFixupInSegmentChains_eq _ hes]
  simp only [hnext]
  rw [hv, Option.map_some, hv']

end Segment

/-! ### The whole image -/

section Image

variable {image} {fuel : Nat} {m : Mem}

def fixSegments (image : ChainedImage) (fuel : Nat) (m : Mem) :
    StartsInImage → Patching ChainError → Patching ChainError
  | [], s => s
  | none :: starts, s => fixSegments image fuel m starts s
  | some segInfo :: starts, s => fixSegments image fuel m starts
      (feed (image.fixup segInfo) s (image.segLocations fuel m segInfo)).1

lemma sites_append (starts starts' : StartsInImage) :
    image.sites fuel m (starts ++ starts') =
      image.sites fuel m starts ++ image.sites fuel m starts' := by
  induction starts with
  | nil => rfl
  | cons segInfo starts ih =>
    cases segInfo with
    | none => exact ih
    | some segInfo => simp only [List.cons_append, sites, ih, List.append_assoc]

lemma fixSegments_append (starts starts' : StartsInImage) (s : Patching ChainError) :
    fixSegments image fuel m (starts ++ starts') s =
      fixSegments image fuel m starts' (fixSegments image fuel m starts s) := by
  induction starts generalizing s with
  | nil => rfl
  | cons segInfo starts ih =>
    cases segInfo with
    | none => exact ih s
    | some segInfo => exact ih _

lemma mem_sites_of_mem {starts : StartsInImage} {segInfo : StartsInSegment} {a : Nat}
    (hseg : some segInfo ∈ starts) (ha : a ∈ image.segLocations fuel m segInfo) :
    (segInfo.pointerFormat, a) ∈ image.sites fuel m starts := by
  obtain ⟨before, after, rfl⟩ := List.append_of_mem hseg
  rw [sites_append]
  refine List.mem_append_right _ (List.mem_append_left _ ?_)
  exact List.mem_map_of_mem ha

lemma PlainChains.of_append {starts starts' : StartsInImage}
    (h : image.PlainChains fuel m (starts ++ starts')) :
    image.PlainChains fuel m starts ∧ image.PlainChains fuel m starts' := by
  have hap := h.apart
  rw [sites_append, List.map_append, List.pairwise_append] at hap
  have hauth := h.noAuth
  rw [sites_append] at hauth
  constructor
  · exact ⟨fun i hi => h.format i (List.mem_append_left _ hi),
      fun i hi => h.finite i (List.mem_append_left _ hi), hap.1,
      fun x hx => hauth x (List.mem_append_left _ hx)⟩
  · exact ⟨fun i hi => h.format i (List.mem_append_right _ hi),
      fun i hi => h.finite i (List.mem_append_right _ hi), hap.2.1,
      fun x hx => hauth x (List.mem_append_right _ hx)⟩

lemma PlainChains.tail {segInfo : Option StartsInSegment} {starts : StartsInImage}
    (h : image.PlainChains fuel m (segInfo :: starts)) : image.PlainChains fuel m starts :=
  (PlainChains.of_append (show image.PlainChains fuel m ([segInfo] ++ starts) from h)).2

/-- The locations of the first segment share no byte with each other or with later ones. -/
lemma PlainChains.apart_head {segInfo : StartsInSegment} {starts : StartsInImage}
    (h : image.PlainChains fuel m (some segInfo :: starts)) :
    (image.segLocations fuel m segInfo).Pairwise (Apart 8) ∧
      ∀ a ∈ image.segLocations fuel m segInfo, ∀ x ∈ image.sites fuel m starts, Apart 8 a x.2 := by
  have hap := h.apart
  rw [sites, List.map_append, List.map_map, List.pairwise_append] at hap
  have hid : Prod.snd ∘ (fun a : Nat => (segInfo.pointerFormat, a)) = id := rfl
  rw [hid, List.map_id] at hap
  exact ⟨hap.1, fun a ha x hx => hap.2.2 a ha x.2 (List.mem_map_of_mem hx)⟩

lemma forEachFixupInAllChains_eq {starts : StartsInImage} {s : Patching ChainError}
    (h : image.PlainChains fuel m starts)
    (hagree : ∀ x ∈ image.sites fuel m starts, load 8 s.mem x.2 = load 8 m x.2) :
    image.forEachFixupInAllChains image.fixup fuel starts s =
      some (fixSegments image fuel m starts s) := by
  induction starts generalizing s with
  | nil => rfl
  | cons segInfo starts ih =>
    cases segInfo with
    | none => exact ih h.tail hagree
    | some segInfo =>
      obtain ⟨hap, hap'⟩ := h.apart_head
      obtain ⟨l, hl⟩ := Option.isSome_iff_exists.mp (h.finite segInfo (by simp))
      have hseg : image.segLocations fuel m segInfo = l := by rw [segLocations, hl]; rfl
      rw [hseg] at hap hap'
      have hagree_seg : ∀ b ∈ l, load 8 s.mem b = load 8 m b := fun b hb =>
        hagree (segInfo.pointerFormat, b) (mem_sites_of_mem (by simp) (by rw [hseg]; exact hb))
      rw [forEachFixupInAllChains, fixSegments, hseg,
        inSegment_fixup (h.format segInfo (by simp)) hl s hap hagree_seg, Option.bind_some]
      refine ih h.tail (fun x hx => ?_)
      have hx' : load 8 (feed (image.fixup segInfo) s l).1.mem x.2 = load 8 s.mem x.2 :=
        load_feed_patch_apart (fun a ha => hap' a ha x hx)
      exact hx'.trans (hagree x (List.mem_append_right _ hx))

lemma exists_first_false {α : Type} {p : α → Bool} {l : List α} (h : ∃ a ∈ l, p a = false) :
    ∃ l₁ b l₂, l = l₁ ++ b :: l₂ ∧ (∀ a ∈ l₁, p a = true) ∧ p b = false := by
  induction l with
  | nil => simp at h
  | cons a l ih =>
    by_cases ha : p a = true
    · have h' : ∃ a ∈ l, p a = false := by
        obtain ⟨c, hc, hcf⟩ := h
        rcases List.mem_cons.mp hc with rfl | hc
        · rw [ha] at hcf
          simp at hcf
        · exact ⟨c, hc, hcf⟩
      obtain ⟨l₁, b, l₂, rfl, hl₁, hb⟩ := ih h'
      exact ⟨a :: l₁, b, l₂, rfl, by simpa [ha] using hl₁, hb⟩
    · exact ⟨[], a, l, rfl, by simp, by simpa using ha⟩

def siteWrite (image : ChainedImage) (m : Mem) (x : Nat × Nat) : Nat × BitVec (8 * 8) :=
  (x.2, image.finalValue x.1 (load 8 m x.2))

variable (hslide : image.slide = image.loadAddress - image.preferredLoadAddress)

include hslide

lemma newValue_site {starts : StartsInImage} {segInfo : StartsInSegment} {a : Nat}
    (h : image.PlainChains fuel m starts) (hseg : some segInfo ∈ starts)
    (ha : a ∈ image.segLocations fuel m segInfo) :
    image.newValue segInfo.pointerFormat a (load 8 m a) =
      if image.siteInRange m (segInfo.pointerFormat, a) then
        .ok (image.siteWrite m (segInfo.pointerFormat, a)).2
      else .error (image.siteError m (segInfo.pointerFormat, a)) :=
  newValue_eq a hslide (h.format segInfo hseg) (h.noAuth _ (mem_sites_of_mem hseg ha))

lemma fixSegments_inRange {starts : StartsInImage} {s : Patching ChainError}
    (h : image.PlainChains fuel m starts)
    (hagree : ∀ x ∈ image.sites fuel m starts, load 8 s.mem x.2 = load 8 m x.2)
    (hall : ∀ x ∈ image.sites fuel m starts, image.siteInRange m x = true) :
    fixSegments image fuel m starts s =
      ⟨storeAll 8 s.mem ((image.sites fuel m starts).map (image.siteWrite m)), s.diag,
        s.visited ++ (image.sites fuel m starts).map Prod.snd⟩ := by
  induction starts generalizing s with
  | nil => simp [fixSegments, sites, storeAll]
  | cons segInfo starts ih =>
    cases segInfo with
    | none => exact ih h.tail hagree hall
    | some segInfo =>
      obtain ⟨hap, hap'⟩ := h.apart_head
      have hmem : ∀ a ∈ image.segLocations fuel m segInfo,
          (segInfo.pointerFormat, a) ∈ image.sites fuel m (some segInfo :: starts) :=
        fun a ha => mem_sites_of_mem (by simp) ha
      have hval : ∀ a ∈ image.segLocations fuel m segInfo,
          image.newValue segInfo.pointerFormat a (load 8 s.mem a) =
            .ok (image.siteWrite m (segInfo.pointerFormat, a)).2 := by
        intro a ha
        rw [hagree _ (hmem a ha), newValue_site hslide h (by simp) ha, if_pos (hall _ (hmem a ha))]
      rw [fixSegments, fixup, feed_patch_ok hap hval, ih h.tail, sites]
      · simp only [List.map_append, List.map_map, storeAll_append, List.append_assoc,
          Function.comp_def, List.map_id']
        rfl
      · intro x hx
        refine (load_storeAll_apart (fun w hw => ?_)).trans (hagree x (List.mem_append_right _ hx))
        obtain ⟨a, ha, rfl⟩ := List.mem_map.mp hw
        exact hap' a ha x hx
      · exact fun x hx => hall x (List.mem_append_right _ hx)

omit hslide in
lemma exists_first_outOfRange {starts : StartsInImage}
    (h : ∃ x ∈ image.sites fuel m starts, image.siteInRange m x = false) :
    ∃ before segInfo after l b l', starts = before ++ some segInfo :: after ∧
      (∀ x ∈ image.sites fuel m before, image.siteInRange m x = true) ∧
      image.segLocations fuel m segInfo = l ++ b :: l' ∧
      (∀ a ∈ l, image.siteInRange m (segInfo.pointerFormat, a) = true) ∧
      image.siteInRange m (segInfo.pointerFormat, b) = false := by
  induction starts with
  | nil => simp [sites] at h
  | cons segInfo starts ih =>
    cases segInfo with
    | none =>
      obtain ⟨before, seg, after, l, b, l', rfl, hrest⟩ := ih h
      exact ⟨none :: before, seg, after, l, b, l', rfl, hrest⟩
    | some segInfo =>
      by_cases hseg : ∃ a ∈ image.segLocations fuel m segInfo,
          image.siteInRange m (segInfo.pointerFormat, a) = false
      · obtain ⟨l, b, l', hl, hbefore, hb⟩ := exists_first_false hseg
        exact ⟨[], segInfo, starts, l, b, l', rfl, by simp [sites], hl, hbefore, hb⟩
      · have hgood : ∀ a ∈ image.segLocations fuel m segInfo,
            image.siteInRange m (segInfo.pointerFormat, a) = true := by
          intro a ha
          rw [← Bool.not_eq_false]
          exact fun hf => hseg ⟨a, ha, hf⟩
        obtain ⟨x, hx, hxf⟩ := h
        have hrest : ∃ x ∈ image.sites fuel m starts, image.siteInRange m x = false := by
          rcases List.mem_append.mp hx with hx | hx
          · obtain ⟨a, ha, rfl⟩ := List.mem_map.mp hx
            rw [hgood a ha] at hxf
            simp at hxf
          · exact ⟨x, hx, hxf⟩
        obtain ⟨before, seg, after, l, b, l', rfl, hbefore, hrest⟩ := ih hrest
        refine ⟨some segInfo :: before, seg, after, l, b, l', rfl, ?_, hrest⟩
        intro x hx
        rcases List.mem_append.mp hx with hx | hx
        · obtain ⟨a, ha, rfl⟩ := List.mem_map.mp hx
          exact hgood a ha
        · exact hbefore x hx

lemma fixSegments_outOfRange {before : StartsInImage} {segInfo : StartsInSegment}
    {after : StartsInImage} {l l' : List Nat} {b : Nat}
    (h : image.PlainChains fuel m (before ++ some segInfo :: after))
    (hbefore : ∀ x ∈ image.sites fuel m before, image.siteInRange m x = true)
    (hseg : image.segLocations fuel m segInfo = l ++ b :: l')
    (hl : ∀ a ∈ l, image.siteInRange m (segInfo.pointerFormat, a) = true)
    (hb : image.siteInRange m (segInfo.pointerFormat, b) = false) :
    fixSegments image fuel m (before ++ some segInfo :: after) ⟨m, none, []⟩ =
      fixSegments image fuel m after
        ⟨storeAll 8 m ((image.sites fuel m before ++ l.map (segInfo.pointerFormat, ·)).map
            (image.siteWrite m)),
          some (image.siteError m (segInfo.pointerFormat, b)),
          (image.sites fuel m before ++ l.map (segInfo.pointerFormat, ·) ++
            [(segInfo.pointerFormat, b)]).map Prod.snd⟩ := by
  obtain ⟨hap, -⟩ := h.of_append.2.apart_head
  have hcross : ∀ x ∈ image.sites fuel m before, ∀ a ∈ image.segLocations fuel m segInfo,
      Apart 8 x.2 a := by
    intro x hx a ha
    have hap := h.apart
    rw [sites_append, List.map_append, List.pairwise_append] at hap
    exact hap.2.2 x.2 (List.mem_map_of_mem hx) a
      (List.mem_map_of_mem (mem_sites_of_mem (List.mem_cons_self ..) ha))
  have hload : ∀ a ∈ image.segLocations fuel m segInfo,
      load 8 (storeAll 8 m ((image.sites fuel m before).map (image.siteWrite m))) a = load 8 m a := by
    intro a ha
    apply load_storeAll_apart
    intro w hw
    obtain ⟨x, hx, rfl⟩ := List.mem_map.mp hw
    exact hcross x hx a ha
  have hmem : some segInfo ∈ before ++ some segInfo :: after := by simp
  have hval : ∀ a ∈ l, image.newValue segInfo.pointerFormat a
      (load 8 (storeAll 8 m ((image.sites fuel m before).map (image.siteWrite m))) a) =
      .ok (image.siteWrite m (segInfo.pointerFormat, a)).2 := by
    intro a ha
    have ha' : a ∈ image.segLocations fuel m segInfo := by simp [hseg, ha]
    rw [hload a ha', newValue_site hslide h hmem ha', if_pos (hl a ha)]
  have herr : image.newValue segInfo.pointerFormat b
      (load 8 (storeAll 8 m ((image.sites fuel m before).map (image.siteWrite m))) b) =
      .error (image.siteError m (segInfo.pointerFormat, b)) := by
    have hb' : b ∈ image.segLocations fuel m segInfo := by simp [hseg]
    rw [hload b hb', newValue_site hslide h hmem hb', if_neg (by simp [hb])]
  have hap' : (l ++ [b]).Pairwise (Apart 8) := by
    rw [hseg] at hap
    refine hap.sublist (List.Sublist.append_left ?_ l)
    simp
  have hfirst := fixSegments_inRange hslide h.of_append.1
    (s := ⟨m, none, []⟩) (fun _ _ => rfl) hbefore
  have hvisit := feed_patch_error l'
    (s := ⟨storeAll 8 m ((image.sites fuel m before).map (image.siteWrite m)), none,
      (image.sites fuel m before).map Prod.snd⟩) hap' hval herr
  rw [fixSegments_append, hfirst]
  simp only [fixSegments, hseg, List.nil_append]
  rw [fixup, hvisit]
  simp only [List.map_append, List.map_map, storeAll_append, Function.comp_def, List.map_id',
    List.map_cons, List.map_nil, siteWrite]

omit hslide in
lemma fixSegments_of_segLocations_eq_nil {starts : StartsInImage}
    (h : ∀ segInfo, some segInfo ∈ starts → image.segLocations fuel m segInfo = [])
    (s : Patching ChainError) : fixSegments image fuel m starts s = s := by
  induction starts generalizing s with
  | nil => rfl
  | cons segInfo starts ih =>
    have ih' := ih (fun i hi => h i (List.mem_cons_of_mem _ hi))
    cases segInfo with
    | none => exact ih' s
    | some segInfo =>
      rw [fixSegments, h segInfo (by simp), feed_nil]
      exact ih' s

omit hslide in
lemma visited_fixSegments (image : ChainedImage) (fuel : Nat) (m : Mem) (starts : StartsInImage)
    (s : Patching ChainError) :
    ∃ l, (fixSegments image fuel m starts s).visited = s.visited ++ l ∧
      ((∃ segInfo, some segInfo ∈ starts ∧ image.segLocations fuel m segInfo ≠ []) → l ≠ []) := by
  induction starts generalizing s with
  | nil => exact ⟨[], by simp [fixSegments], by simp⟩
  | cons segInfo starts ih =>
    cases segInfo with
    | none =>
      obtain ⟨l, hl, hne⟩ := ih s
      refine ⟨l, hl, fun ⟨i, hi, hi'⟩ => hne ⟨i, by simpa using hi, hi'⟩⟩
    | some segInfo =>
      obtain ⟨l₁, hl₁, hne₁⟩ := visited_feed_patch (n := 8)
        (image.newValue segInfo.pointerFormat) s (image.segLocations fuel m segInfo)
      obtain ⟨l, hl, hne⟩ := ih (feed (image.fixup segInfo) s (image.segLocations fuel m segInfo)).1
      refine ⟨l₁ ++ l, ?_, ?_⟩
      · rw [fixSegments, hl, fixup, hl₁, List.append_assoc]
      · rintro ⟨i, hi, hi'⟩
        rcases List.mem_cons.mp hi with hi | hi
        · cases hi
          simp [hne₁ hi']
        · simp [hne ⟨i, hi, hi'⟩]

omit hslide in
lemma load_storeAll_site {good : List (Nat × Nat)} {x : Nat × Nat}
    (hap : (good.map Prod.snd).Pairwise (Apart 8)) (hx : x ∈ good) :
    load 8 (storeAll 8 m (good.map (image.siteWrite m))) x.2 =
      image.finalValue x.1 (load 8 m x.2) := by
  have hpair : ((good.map (image.siteWrite m)).map Prod.fst).Pairwise (Apart 8) := by
    rw [List.map_map]
    exact hap
  have hw : image.siteWrite m x ∈ good.map (image.siteWrite m) := List.mem_map_of_mem hx
  have hsite : load 8 (storeAll 8 m (good.map (image.siteWrite m))) (image.siteWrite m x).1 =
      (image.siteWrite m x).2 := load_storeAll_mem hpair hw
  exact hsite

omit hslide in
lemma fixesUp_storeAll {good rest : List (Nat × Nat)}
    (hap : ((good ++ rest).map Prod.snd).Pairwise (Apart 8))
    (hgood : ∀ x ∈ good, image.siteInRange m x = true)
    (hrest : ∀ x ∈ rest.head?, image.siteInRange m x = false) :
    image.FixesUp m (good ++ rest) ⟨storeAll 8 m (good.map (image.siteWrite m)),
      rest.head?.map (image.siteError m), (good ++ rest.take 1).map Prod.snd⟩ := by
  have htake : (good ++ rest).takeWhile (image.siteInRange m) = good := by
    rw [List.takeWhile_append_of_pos hgood]
    cases rest with
    | nil => simp
    | cons x rest => simp [hrest x rfl]
  have hdrop : (good ++ rest).dropWhile (image.siteInRange m) = rest := by
    rw [List.dropWhile_append_of_pos hgood]
    cases rest with
    | nil => simp
    | cons x rest => simp [hrest x rfl]
  rw [List.map_append, List.pairwise_append] at hap
  refine ⟨by rw [htake, hdrop], ?_, ?_, ?_, by rw [hdrop]⟩
  · rw [htake]
    intro x hx
    dsimp only
    exact load_storeAll_site hap.1 hx
  · rw [htake]
    intro a ha
    dsimp only
    apply storeAll_apply
    intro w hw
    obtain ⟨x, hx, rfl⟩ := List.mem_map.mp hw
    exact ha x hx
  · rw [hdrop]
    intro x hx
    dsimp only
    apply load_storeAll_apart
    intro w hw
    obtain ⟨y, hy, rfl⟩ := List.mem_map.mp hw
    exact hap.2.2 y.2 (List.mem_map_of_mem hy) x.2 (List.mem_map_of_mem hx)

omit hslide in
lemma nothingAfterError_iff {before : StartsInImage} {segInfo : StartsInSegment}
    {after : StartsInImage} {b : Nat}
    (hbefore : ∀ x ∈ image.sites fuel m before, image.siteInRange m x = true)
    (hb : b ∈ image.segLocations fuel m segInfo)
    (hbad : image.siteInRange m (segInfo.pointerFormat, b) = false) :
    image.NothingAfterError fuel m (before ++ some segInfo :: after) ↔
      ∀ segInfo', some segInfo' ∈ after → image.segLocations fuel m segInfo' = [] := by
  constructor
  · exact fun h => h before segInfo after rfl ⟨b, hb, hbad⟩
  · rintro h before' seg' after' heq ⟨a, ha, habad⟩ i hi
    have hnot : some seg' ∉ before := by
      intro hmem
      rw [hbefore _ (mem_sites_of_mem hmem ha)] at habad
      simp at habad
    rcases List.append_eq_append_iff.mp heq with ⟨c, hc, hc'⟩ | ⟨c, hc, hc'⟩
    · -- the other segment is this one or comes later
      cases c with
      | nil =>
        rw [List.nil_append, List.cons.injEq] at hc'
        exact h i (hc'.2 ▸ hi)
      | cons d c =>
        rw [List.cons_append, List.cons.injEq] at hc'
        have hmem : some seg' ∈ after := by simp [hc'.2]
        rw [h seg' hmem] at ha
        simp at ha
    · cases c with
      | nil =>
        rw [List.nil_append, List.cons.injEq] at hc'
        exact h i (hc'.2 ▸ hi)
      | cons d c =>
        rw [List.cons_append, List.cons.injEq] at hc'
        exact absurd (by simp [hc, hc'.1]) hnot

lemma fixupAllChainedFixups_fixesUp_iff {starts : StartsInImage}
    (h : image.PlainChains fuel m starts) :
    (∃ s, image.fixupAllChainedFixups fuel starts m = some s ∧
      image.FixesUp m (image.sites fuel m starts) s) ↔ image.NothingAfterError fuel m starts := by
  have hrun : image.fixupAllChainedFixups fuel starts m =
      some (fixSegments image fuel m starts ⟨m, none, []⟩) :=
    forEachFixupInAllChains_eq h (fun _ _ => rfl)
  simp only [hrun, Option.some.injEq, exists_eq_left']
  by_cases hall : ∀ x ∈ image.sites fuel m starts, image.siteInRange m x = true
  · have hfix := fixesUp_storeAll (show ((image.sites fuel m starts ++ []).map Prod.snd).Pairwise
      (Apart 8) by simpa using h.apart) hall (by simp)
    rw [fixSegments_inRange hslide h (s := ⟨m, none, []⟩) (fun _ _ => rfl) hall]
    refine iff_of_true (by simpa using hfix) ?_
    rintro before segInfo after rfl ⟨a, ha, hbad⟩
    rw [hall _ (mem_sites_of_mem (by simp) ha)] at hbad
    simp at hbad
  · have hex : ∃ x ∈ image.sites fuel m starts, image.siteInRange m x = false := by
      simpa using hall
    obtain ⟨before, segInfo, after, l, b, l', rfl, hbefore, hseg, hl, hb⟩ :=
      exists_first_outOfRange hex
    have hbmem : b ∈ image.segLocations fuel m segInfo := by simp [hseg]
    rw [fixSegments_outOfRange hslide h hbefore hseg hl hb, nothingAfterError_iff hbefore hbmem hb]
    have hsites : image.sites fuel m (before ++ some segInfo :: after) =
        (image.sites fuel m before ++ l.map (segInfo.pointerFormat, ·)) ++
          (segInfo.pointerFormat, b) ::
            (l'.map (segInfo.pointerFormat, ·) ++ image.sites fuel m after) := by
      simp [sites_append, sites, hseg]
    have hap := h.apart
    rw [hsites] at hap
    have hgood : ∀ x ∈ image.sites fuel m before ++ l.map (segInfo.pointerFormat, ·),
        image.siteInRange m x = true := by
      intro x hx
      rcases List.mem_append.mp hx with hx | hx
      · exact hbefore x hx
      · obtain ⟨a, ha, rfl⟩ := List.mem_map.mp hx
        exact hl a ha
    have hfixed := fixesUp_storeAll hap hgood (by simpa using hb)
    rw [← hsites] at hfixed
    simp only [List.head?_cons, Option.map_some, List.take_succ_cons, List.take_zero] at hfixed
    generalize Patching.mk (storeAll 8 m ((image.sites fuel m before ++
      l.map (segInfo.pointerFormat, ·)).map (image.siteWrite m)))
      (some (image.siteError m (segInfo.pointerFormat, b)))
      ((image.sites fuel m before ++ l.map (segInfo.pointerFormat, ·) ++
        [(segInfo.pointerFormat, b)]).map Prod.snd) = s₁ at hfixed ⊢
    constructor
    · intro hfix
      by_contra hcon
      push Not at hcon
      obtain ⟨l₂, hl₂, hne⟩ := visited_fixSegments image fuel m after s₁
      rw [hfix.visited, ← hfixed.visited] at hl₂
      exact hne hcon (List.self_eq_append_right.mp hl₂)
    · intro hnil
      rw [fixSegments_of_segLocations_eq_nil hnil]
      exact hfixed

end Image

/-- Fixing up in place writes what the read-only decoders say, up to the first out of range
ordinal, and stops there, exactly when no later segment than that of the ordinal has a fixup:
the loop over the segments does not learn that a chain stopped. -/
theorem fixupAllChainedFixups_agrees_iff (image : ChainedImage) (fuel : Nat)
    (starts : StartsInImage) (m : Mem)
    (hslide : image.slide = image.loadAddress - image.preferredLoadAddress)
    (h : image.PlainChains fuel m starts) :
    (∃ s, image.fixupAllChainedFixups fuel starts m = some s ∧
      image.FixesUp m (image.sites fuel m starts) s) ↔ image.NothingAfterError fuel m starts :=
  fixupAllChainedFixups_fixesUp_iff hslide h

def onePage (segmentOffset : Nat) : StartsInSegment where
  size := 24
  pageSize := 0x1000
  pointerFormat := ptr64Offset
  segmentOffset := segmentOffset
  maxValidPointer := 0
  pageCount := 1
  pageStart := fun _ => 0

def smallImage : ChainedImage where
  loadAddress := 0x10000
  preferredLoadAddress := 0
  slide := 0x10000
  bindTargets := [0x5000]
  signPointer := fun target _ _ _ _ => target

/-- A rebase to offset `0x1234`, then 8 bytes on a bind to ordinal 0 with addend 3. -/
def rebaseThenBind : Mem :=
  storeAll 8 (fun _ => 0) [(0x14000, 0x0010000000001234#64), (0x14008, 0x8000000003000000#64)]

/-- One chain with a rebase and a bind is fixed up. -/
theorem fixupAllChainedFixups_agrees_iff_rebaseThenBind :
    smallImage.PlainChains 3 rebaseThenBind [some (onePage 0x4000)] ∧
      ∃ s, smallImage.fixupAllChainedFixups 3 [some (onePage 0x4000)] rebaseThenBind = some s ∧
        smallImage.FixesUp rebaseThenBind
          (smallImage.sites 3 rebaseThenBind [some (onePage 0x4000)]) s := by
  have hlocs : smallImage.locations 3 rebaseThenBind (onePage 0x4000) = some [0x14000, 0x14008] := by
    decide +kernel
  have hseg : smallImage.segLocations 3 rebaseThenBind (onePage 0x4000) = [0x14000, 0x14008] := by
    rw [segLocations, hlocs]
    rfl
  have hsites : smallImage.sites 3 rebaseThenBind [some (onePage 0x4000)] =
      [(ptr64Offset, 0x14000), (ptr64Offset, 0x14008)] := by
    simp only [sites, hseg]
    rfl
  have hplain : smallImage.PlainChains 3 rebaseThenBind [some (onePage 0x4000)] := by
    refine ⟨?_, ?_, ?_, ?_⟩
    · intro segInfo h
      simp only [List.mem_singleton, Option.some.injEq] at h
      rw [h]
      decide
    · intro segInfo h
      simp only [List.mem_singleton, Option.some.injEq] at h
      rw [h, hlocs]
      rfl
    · rw [hsites]
      decide
    · rw [hsites]
      intro x hx harm
      simp only [List.mem_cons, List.not_mem_nil, or_false] at hx
      rcases hx with rfl | rfl <;> exact absurd harm (by decide)
  refine ⟨hplain, (fixupAllChainedFixups_agrees_iff _ _ _ _ (by decide) hplain).mpr ?_⟩
  intro before segInfo after heq hbad segInfo' hmem
  cases before with
  | nil =>
    simp only [List.nil_append, List.cons.injEq] at heq
    simp [← heq.2] at hmem
  | cons x before => simp at heq

/-- A bind to ordinal 7 in one segment, a rebase in the next. -/
def outOfRangeThenRebase : Mem :=
  storeAll 8 (fun _ => 0) [(0x14000, 0x8000000000000007#64), (0x18000, 0x1234#64)]

/-- The error in the first segment does not keep the second from being fixed up. -/
theorem fixupAllChainedFixups_goes_on :
    smallImage.slide = smallImage.loadAddress - smallImage.preferredLoadAddress ∧
      smallImage.PlainChains 3 outOfRangeThenRebase [some (onePage 0x4000), some (onePage 0x8000)] ∧
      ¬ ∃ s, smallImage.fixupAllChainedFixups 3 [some (onePage 0x4000), some (onePage 0x8000)]
          outOfRangeThenRebase = some s ∧
        smallImage.FixesUp outOfRangeThenRebase (smallImage.sites 3 outOfRangeThenRebase
          [some (onePage 0x4000), some (onePage 0x8000)]) s := by
  have hslide : smallImage.slide = smallImage.loadAddress - smallImage.preferredLoadAddress := by
    decide
  have hlocs₁ : smallImage.locations 3 outOfRangeThenRebase (onePage 0x4000) = some [0x14000] := by
    decide +kernel
  have hlocs₂ : smallImage.locations 3 outOfRangeThenRebase (onePage 0x8000) = some [0x18000] := by
    decide +kernel
  have hseg₁ : smallImage.segLocations 3 outOfRangeThenRebase (onePage 0x4000) = [0x14000] := by
    rw [segLocations, hlocs₁]
    rfl
  have hseg₂ : smallImage.segLocations 3 outOfRangeThenRebase (onePage 0x8000) = [0x18000] := by
    rw [segLocations, hlocs₂]
    rfl
  have hsites : smallImage.sites 3 outOfRangeThenRebase [some (onePage 0x4000), some (onePage 0x8000)] =
      [(ptr64Offset, 0x14000), (ptr64Offset, 0x18000)] := by
    simp only [sites, hseg₁, hseg₂]
    rfl
  have hplain : smallImage.PlainChains 3 outOfRangeThenRebase
      [some (onePage 0x4000), some (onePage 0x8000)] := by
    refine ⟨?_, ?_, ?_, ?_⟩
    · intro segInfo h
      simp only [List.mem_cons, Option.some.injEq, List.not_mem_nil, or_false] at h
      rcases h with rfl | rfl <;> decide
    · intro segInfo h
      simp only [List.mem_cons, Option.some.injEq, List.not_mem_nil, or_false] at h
      rcases h with rfl | rfl
      · rw [hlocs₁]
        rfl
      · rw [hlocs₂]
        rfl
    · rw [hsites]
      decide
    · rw [hsites]
      intro x hx harm
      simp only [List.mem_cons, List.not_mem_nil, or_false] at hx
      rcases hx with rfl | rfl <;> exact absurd harm (by decide)
  refine ⟨hslide, hplain, ?_⟩
  rw [fixupAllChainedFixups_fixesUp_iff hslide hplain]
  intro hnothing
  have hnil := hnothing [] (onePage 0x4000) [some (onePage 0x8000)] rfl
    ⟨0x14000, by simp [hseg₁], by decide +kernel⟩ (onePage 0x8000) (by simp)
  rw [hseg₂] at hnil
  simp at hnil

end ChainedImage

end Dyld.Chained
