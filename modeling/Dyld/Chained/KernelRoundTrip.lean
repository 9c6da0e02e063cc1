import Dyld.Chained.KernelTables

/-!
# Walking the fixups of a kernel collection

The walker finds the tracked locations again, each once, as far as the 16 bits of `page_count` go. A
segment of 65536 pages and more has only the remainder of its pages fixed, and nothing checks that.
-/

namespace Dyld.Chained

open Dyld.Lib

/-! ### The locations of a segment -/

section Locations

variable (c : AppCache) (seg : SegmentFixups)

/-- The pages of a segment, of which `page_count` has 16 bits. -/
def segmentPages : Nat := (seg.sizeInUse + c.fixupsPageSize - 1) / c.fixupsPageSize

def pagesEnd (n : Nat) : Nat := seg.segmentBuffer + n * c.fixupsPageSize

variable {c seg}

lemma pageCount_le : c.pageCount seg ≤ segmentPages c seg := Nat.mod_le _ _

lemma pagesEnd_le {n k : Nat} (h : n ≤ k) : pagesEnd c seg n ≤ pagesEnd c seg k :=
  Nat.add_le_add_left (Nat.mul_le_mul_right _ h) _

lemma mem_pageLocs {pageIndex a : Nat} : a ∈ pageLocs c seg pageIndex ↔
    pagesEnd c seg pageIndex ≤ a ∧ a < pagesEnd c seg (pageIndex + 1) ∧
      c.aslrTracker.bitmap a = true := by
  simp only [pageLocs, trackedLocs, trackedOffsets, List.mem_map, List.mem_filter, List.mem_range]
  unfold AppCache.fixupLoc pagesEnd
  rw [Nat.succ_mul]
  constructor
  · rintro ⟨o, ⟨ho, htracked⟩, rfl⟩
    exact ⟨by omega, by omega, htracked⟩
  · rintro ⟨hlow, hhigh, htracked⟩
    have ha : seg.segmentBuffer + pageIndex * c.fixupsPageSize +
        (a - (seg.segmentBuffer + pageIndex * c.fixupsPageSize)) = a := by omega
    exact ⟨a - (seg.segmentBuffer + pageIndex * c.fixupsPageSize), ⟨by omega, by rwa [ha]⟩, ha⟩

lemma mem_locsBelow {n a : Nat} : a ∈ locsBelow c seg n ↔
    seg.segmentBuffer ≤ a ∧ a < pagesEnd c seg n ∧ c.aslrTracker.bitmap a = true := by
  induction n with
  | zero =>
    simp only [locsBelow, pagesEnd, List.range_zero, List.flatMap_nil, List.not_mem_nil, false_iff]
    omega
  | succ n ih =>
    have hstart : seg.segmentBuffer ≤ pagesEnd c seg n := Nat.le_add_right _ _
    have hnext : pagesEnd c seg n ≤ pagesEnd c seg (n + 1) := pagesEnd_le n.le_succ
    rw [locsBelow_succ, List.mem_append, ih, mem_pageLocs]
    constructor
    · rintro (⟨hlow, hhigh, htracked⟩ | ⟨hlow, hhigh, htracked⟩)
      · exact ⟨hlow, by omega, htracked⟩
      · exact ⟨by omega, hhigh, htracked⟩
    · rintro ⟨hlow, hhigh, htracked⟩
      by_cases hlt : a < pagesEnd c seg n
      · exact .inl ⟨hlow, hlt, htracked⟩
      · exact .inr ⟨by omega, hhigh, htracked⟩

lemma nodup_locsBelow (n : Nat) : (locsBelow c seg n).Nodup := by
  have hpage : ∀ p, (pageLocs c seg p).Nodup := by
    intro p
    apply List.Nodup.map
    · intro o o' h
      unfold AppCache.fixupLoc at h
      omega
    · exact List.Nodup.filter _ List.nodup_range
  induction n with
  | zero => exact List.nodup_nil
  | succ n ih =>
    rw [locsBelow_succ, List.nodup_append']
    refine ⟨ih, hpage n, fun a ha ha' => ?_⟩
    have hbelow := (mem_locsBelow.mp ha).2.1
    have habove := (mem_pageLocs.mp ha').1
    omega

end Locations

/-! ### The walk -/

section Walk

variable {c : AppCache} {seg : SegmentFixups} {segInfo : StartsInSegment}

lemma strideSize_chainedPointerFormat : strideSize c.chainedPointerFormat = some c.stride := by
  unfold AppCache.stride AppCache.chainedPointerFormat
  cases c.isX86 <;> rfl

lemma nextDistance_chainedPointerFormat (raw : PointerOnDisk) :
    nextDistance c.chainedPointerFormat c.stride raw = some (c.distance raw) := by
  unfold AppCache.distance AppCache.chainedPointerFormat
  cases c.isX86 <;> rfl

lemma walkChain_chainedPointerFormat
    (handler : Patching ChainError → Nat → Patching ChainError × Bool) (fuel : Nat)
    (s : Patching ChainError) (chain : Nat) :
    walkChain c.chainedPointerFormat handler fuel s chain =
      walk c.distance (fun s a => load 8 s.mem a) handler fuel s chain := by
  rw [walkChain, strideSize_chainedPointerFormat, Option.bind_some, nextDistance_chainedPointerFormat,
    if_neg (by simp)]
  congr 1
  funext raw
  rw [nextDistance_chainedPointerFormat, Option.getD_some]

def pageEntry (c : AppCache) (seg : SegmentFixups) (pageIndex : Nat) : StartEntry :=
  ⟨pageIndex, pageIndex, (trackedOffsets c seg pageIndex c.fixupsPageSize).head?⟩

lemma pageEntries_eq {pageIndex : Nat} (fuel : Nat)
    (hstart : segInfo.pageStart pageIndex = pageStartOf c seg pageIndex) :
    segInfo.pageEntries fuel pageIndex = some [pageEntry c seg pageIndex] := by
  have hlarge : ∀ n, n < 16384 → n &&& startMulti = 0 := by
    intro n hn
    apply Nat.eq_of_testBit_eq
    intro i
    rw [Nat.testBit_and, Nat.zero_testBit, startMulti, show 0x8000 = 2 ^ 15 by norm_num,
      Nat.testBit_two_pow]
    by_cases hi : 15 = i
    · subst hi
      rw [Nat.testBit_lt_two_pow (by omega), Bool.false_and]
    · rw [decide_eq_false hi, Bool.and_false]
  have hsize := fixupsPageSize_le (c := c)
  unfold StartsInSegment.pageEntries pageEntry
  cases hhead : (trackedOffsets c seg pageIndex c.fixupsPageSize).head? with
  | none =>
    have hnone : segInfo.pageStart pageIndex = startNone := by rw [hstart, pageStartOf, hhead]; rfl
    exact if_pos hnone
  | some o =>
    have ho : o < c.fixupsPageSize := lt_of_mem_trackedOffsets (List.mem_of_head? hhead)
    have hsome : segInfo.pageStart pageIndex = o := by rw [hstart, pageStartOf, hhead]; rfl
    have hnone : segInfo.pageStart pageIndex ≠ startNone := by
      rw [hsome]
      unfold startNone
      omega
    have hmulti : ¬segInfo.IsMulti pageIndex := by
      unfold StartsInSegment.IsMulti
      rw [hsome, hlarge o (by omega), not_not]
    dsimp only
    rw [if_neg hnone, if_neg hmulti, hsome]

lemma entriesOf_eq (fuel : Nat) {pages : List Nat}
    (hstart : ∀ p ∈ pages, segInfo.pageStart p = pageStartOf c seg p) :
    segInfo.entriesOf fuel pages = some (pages.map (pageEntry c seg)) := by
  induction pages with
  | nil => rfl
  | cons p pages ih =>
    rw [StartsInSegment.entriesOf, pageEntries_eq fuel (hstart p (by simp)),
      ih (fun q hq => hstart q (List.mem_cons_of_mem p hq))]
    rfl

lemma entryChains_pages {header fuel : Nat} {m : Mem} {pages : List Nat}
    (hfuel : c.fixupsPageSize < fuel)
    (hplace : ∀ p ∈ pages, ∀ o < c.fixupsPageSize,
      kernelLocation header segInfo p o = c.fixupLoc seg p o)
    (hthreaded : ∀ p ∈ pages, ∀ d ∈ chainOf (pageLocs c seg p),
      Threaded c.distance (load 8 m) d.1 d.2) :
    EntryChains c.distance (load 8 m) (kernelLocation header segInfo) fuel (pages.map (pageEntry c seg))
      (pages.flatMap (pageLocs c seg)) := by
  induction pages with
  | nil => exact .nil
  | cons p pages ih =>
    have hrest := ih (fun q hq => hplace q (List.mem_cons_of_mem p hq))
      (fun q hq => hthreaded q (List.mem_cons_of_mem p hq))
    have hlen : (trackedOffsets c seg p c.fixupsPageSize).length ≤ c.fixupsPageSize := by
      have hfilter := List.length_filter_le (fun o => c.aslrTracker.bitmap (c.fixupLoc seg p o))
        (List.range c.fixupsPageSize)
      rwa [List.length_range] at hfilter
    have hchain := hthreaded p (by simp)
    rw [List.map_cons, List.flatMap_cons]
    unfold pageLocs trackedLocs at hchain ⊢
    cases hoffsets : trackedOffsets c seg p c.fixupsPageSize with
    | nil => exact .skip (by rw [pageEntry, hoffsets]; rfl) hrest
    | cons o os =>
      have ho : o < c.fixupsPageSize := lt_of_mem_trackedOffsets (hoffsets ▸ List.mem_cons_self)
      rw [hoffsets] at hchain hlen
      have hloc := hplace p (by simp) o ho
      have hl := hchain (c.fixupLoc seg p o, os.map (c.fixupLoc seg p)) (by simp [chainOf])
      rw [List.map_cons, ← hloc]
      rw [← hloc] at hl
      refine .chain (by rw [pageEntry, hoffsets]; rfl) ⟨_, rfl, hl, ?_⟩ hrest
      rw [List.length_map]
      rw [List.length_cons] at hlen
      omega

lemma walkSegment_spec {baseAddress header fuel starts : Nat} {buffer : Mem} {s : Patching ChainError}
    (htable : TableAt c baseAddress (seg, starts) buffer) (hfuel : c.fixupsPageSize < fuel)
    (hplace : ∀ i < c.pageCount seg, ∀ o < c.fixupsPageSize,
      kernelLocation header (loadStartsInSegment buffer starts) i o = c.fixupLoc seg i o)
    (hthreaded : ∀ d ∈ chainsBelow c seg (c.pageCount seg), Threaded c.distance (load 8 s.mem) d.1 d.2)
    (hap : (segmentLocs c seg).Pairwise (Apart 8)) :
    walkSegment header fuel s (loadStartsInSegment buffer starts) =
      some { s with visited := s.visited ++ segmentLocs c seg } := by
  set segInfo := loadStartsInSegment buffer starts with hsegInfo
  have hcount : segInfo.pageCount = c.pageCount seg := htable.fields.pageCount
  have hformat : segInfo.pointerFormat = c.chainedPointerFormat := htable.fields.pointerFormat
  have hentries : segInfo.entries fuel = some ((List.range (c.pageCount seg)).map (pageEntry c seg)) := by
    rw [StartsInSegment.entries, hcount]
    exact entriesOf_eq fuel (fun i hi => htable.pageStart i (List.mem_range.mp hi))
  have hchains : EntryChains c.distance (load 8 s.mem) (kernelLocation header segInfo) fuel
      ((List.range (c.pageCount seg)).map (pageEntry c seg)) (segmentLocs c seg) := by
    apply entryChains_pages hfuel
    · exact fun i hi => hplace i (List.mem_range.mp hi)
    · exact fun i hi d hd => hthreaded d (List.mem_flatMap.mpr ⟨i, hi, hd⟩)
  have hvisit := @visitEntries_walk _ _ c.distance (load 8 s.mem) (kernelLocation header segInfo) fuel
    (fun (s : Patching ChainError) a => load 8 s.mem a) (ChainedImage.note segInfo)
    (fun _ _ _ _ => rfl) _ _ hchains hap ⟨s, [], []⟩ (fun _ _ => rfl)
  obtain ⟨w, hw, hstate⟩ := hvisit
  rw [walkSegment, hformat]
  simp only [walkChain_chainedPointerFormat]
  rw [forEachFixupInSegmentChains_eq _ hentries, hw, Option.map_some]
  simp only [hstate, ChainedImage.feed_note]

def byIndex (segmentCount : Nat) (ps : List (SegmentFixups × Nat)) : List (SegmentFixups × Nat) :=
  (List.range segmentCount).flatMap (fun i => ps.filter (fun p => p.1.segmentIndex = i))

lemma byIndex_succ (n : Nat) (ps : List (SegmentFixups × Nat)) :
    byIndex (n + 1) ps = byIndex n ps ++ ps.filter (fun p => p.1.segmentIndex = n) := by
  simp [byIndex, List.range_succ]

lemma byIndex_perm {segmentCount : Nat} {ps : List (SegmentFixups × Nat)}
    (hbounded : ∀ p ∈ ps, p.1.segmentIndex < segmentCount) (hnd : ps.Nodup) :
    (byIndex segmentCount ps).Perm ps := by
  apply (List.perm_ext_iff_of_nodup _ hnd).mpr
  · intro p
    simp only [byIndex, List.mem_flatMap, List.mem_range, List.mem_filter, decide_eq_true_eq]
    constructor
    · rintro ⟨i, -, hp, -⟩
      exact hp
    · exact fun hp => ⟨_, hbounded p hp, hp, rfl⟩
  · apply List.nodup_flatMap.mpr
    refine ⟨fun i _ => hnd.filter _, ?_⟩
    apply List.nodup_range.imp
    intro i j hij p hp hp'
    simp only [List.mem_filter, decide_eq_true_eq] at hp hp'
    exact hij (hp.2.symm.trans hp'.2)

lemma filter_segmentIndex {ps : List (SegmentFixups × Nat)} {p : SegmentFixups × Nat}
    (hdistinct : ps.Pairwise (fun p q => p.1.segmentIndex ≠ q.1.segmentIndex)) (hp : p ∈ ps) :
    ps.filter (fun q => q.1.segmentIndex = p.1.segmentIndex) = [p] := by
  induction ps with
  | nil => simp at hp
  | cons q ps ih =>
    rw [List.pairwise_cons] at hdistinct
    rcases List.mem_cons.mp hp with rfl | hp
    · rw [List.filter_cons_of_pos (by simp), List.filter_eq_nil_iff.mpr]
      intro r hr
      simpa using (hdistinct.1 r hr).symm
    · rw [List.filter_cons_of_neg (by simpa using hdistinct.1 p hp), ih hdistinct.2 hp]

lemma fixupLocations_built {capacity baseAddress segmentCount header fuel : Nat}
    {ps : List (SegmentFixups × Nat)} {s s' : FixupMem}
    (hbuilt : KernelBuilt c capacity baseAddress segmentCount ps s s') (hfuel : c.fixupsPageSize < fuel)
    (hplace : ∀ p ∈ ps, ∀ i < c.pageCount p.1, ∀ o < c.fixupsPageSize,
      kernelLocation header (loadStartsInSegment s'.buffer p.2) i o = c.fixupLoc p.1 i o) :
    fixupLocations header fuel s' =
      some ((byIndex segmentCount ps).flatMap (fun p => segmentLocs c p.1)) := by
  have hsegment : ∀ p ∈ ps, ∀ l, walkSegment header fuel ⟨s'.mem, none, l⟩
      (loadStartsInSegment s'.buffer p.2) = some ⟨s'.mem, none, l ++ segmentLocs c p.1⟩ := by
    intro p hp l
    apply walkSegment_spec (hbuilt.tables p hp) hfuel (hplace p hp)
    · exact fun d hd => hbuilt.chains.threaded d (List.mem_flatMap.mpr ⟨p, hp, hd⟩)
    · have hap := hbuilt.chains.apart
      rw [locations_segments, List.flatMap] at hap
      exact hap.sublist (List.sublist_flatten_of_mem (List.mem_map.mpr ⟨p, hp, rfl⟩))
  have hindex : ∀ i < segmentCount, ∀ l,
      walkStarts header fuel startsInImage s'.buffer ⟨s'.mem, none, l⟩ i =
        some ⟨s'.mem, none, l ++ (ps.filter (fun p => p.1.segmentIndex = i)).flatMap
          (fun p => segmentLocs c p.1)⟩ := by
    intro i hi l
    have haddress : startsInImage + 4 + 4 * i = segInfoAddress i := rfl
    rw [walkStarts, haddress]
    by_cases hfree : ∀ p ∈ ps, p.1.segmentIndex ≠ i
    · rw [hbuilt.info.free i hi hfree, if_pos rfl, List.filter_eq_nil_iff.mpr (by simpa using hfree)]
      simp
    · push Not at hfree
      obtain ⟨p, hp, rfl⟩ := hfree
      have hlow := hbuilt.low p hp
      rw [hbuilt.info.info p hp, if_neg (by omega), show startsInImage + (p.2 - startsInImage) = p.2 by omega,
        hsegment p hp, filter_segmentIndex hbuilt.info.distinct hp, List.flatMap_singleton]
  have hrun : ∀ n ≤ segmentCount, (List.range n).foldlM (walkStarts header fuel startsInImage s'.buffer)
      ⟨s'.mem, none, []⟩ =
        some ⟨s'.mem, none, (byIndex n ps).flatMap (fun p => segmentLocs c p.1)⟩ := by
    intro n hn
    induction n with
    | zero => rfl
    | succ n ih =>
      rw [List.range_succ, List.foldlM_append, ih (by omega), Option.bind_eq_bind, Option.bind_some,
        List.foldlM_cons, hindex n (by omega), byIndex_succ, List.flatMap_append]
      rfl
  rw [fixupLocations, hbuilt.startsOffset, hbuilt.info.count, hrun segmentCount le_rfl, Option.map_some]

end Walk

/-! ### The round trip -/

section RoundTrip

variable (c : AppCache) (segs : List SegmentFixups)

def TrackedIn (seg : SegmentFixups) (a : Nat) : Prop :=
  seg.segmentBuffer ≤ a ∧ a < pagesEnd c seg (segmentPages c seg) ∧ c.aslrTracker.bitmap a = true

/-- The locations the fixups are for. -/
def Tracked (a : Nat) : Prop := ∃ seg ∈ segs, TrackedIn c seg a

def SegmentsApart (x y : SegmentFixups) : Prop :=
  pagesEnd c x (segmentPages c x) ≤ y.segmentBuffer ∨
    pagesEnd c y (segmentPages c y) ≤ x.segmentBuffer

/-- The segments stand in memory where the walker looks for them, apart from each other, with an
entry in the table for each page, and the tracked words share no byte. -/
structure WellPlaced (header baseAddress : Nat) : Prop where
  room : ∀ seg ∈ segs, segmentPages c seg ≤ seg.numPagesToFixup
  place : ∀ seg ∈ segs, seg.segmentBuffer =
    (header + (seg.unslidLoadAddress + (2 ^ 64 - baseAddress)) % 2 ^ 64) % 2 ^ 64
  fits : ∀ seg ∈ segs, pagesEnd c seg (segmentPages c seg) ≤ 2 ^ 64
  disjoint : segs.Pairwise (SegmentsApart c)
  apart : ∀ a b, Tracked c segs a → Tracked c segs b → a ≠ b → Apart 8 a b

/-- The walk visits the tracked locations, each once; each of them decodes to what it was; and no
other byte is changed. -/
structure RoundTrip (capacity header : Nat) (s s' : FixupMem) : Prop where
  visits : ∃ l, (∀ fuel, c.fixupsPageSize < fuel → fixupLocations header fuel s' = some l) ∧
    l.Nodup ∧ ∀ a, a ∈ l ↔ Tracked c segs a
  decodes : ∀ a, Tracked c segs a → Decodes c a (load 8 s.mem a) (load 8 s'.mem a)
  frame : ∀ x, (∀ a, Tracked c segs a → ¬InWord 8 a x) → s'.mem x = s.mem x
  buffer : ∀ x, capacity ≤ x → s'.buffer x = s.buffer x

def PagesCounted : Prop :=
  ∀ seg ∈ segs, ∀ a, TrackedIn c seg a → a < pagesEnd c seg (c.pageCount seg)

variable {c segs} {header baseAddress : Nat}

lemma mem_segmentLocs {seg : SegmentFixups} {a : Nat} :
    a ∈ segmentLocs c seg ↔ TrackedIn c seg a ∧ a < pagesEnd c seg (c.pageCount seg) := by
  rw [segmentLocs, mem_locsBelow]
  have hle : pagesEnd c seg (c.pageCount seg) ≤ pagesEnd c seg (segmentPages c seg) :=
    pagesEnd_le pageCount_le
  constructor
  · rintro ⟨hlow, hhigh, htracked⟩
    exact ⟨⟨hlow, by omega, htracked⟩, hhigh⟩
  · rintro ⟨⟨hlow, -, htracked⟩, hhigh⟩
    exact ⟨hlow, hhigh, htracked⟩

lemma tracked_of_mem {a : Nat} (h : a ∈ segs.flatMap (segmentLocs c)) : Tracked c segs a := by
  obtain ⟨seg, hseg, ha⟩ := List.mem_flatMap.mp h
  exact ⟨seg, hseg, (mem_segmentLocs.mp ha).1⟩

lemma WellPlaced.unique (h : WellPlaced c segs header baseAddress) {x y : SegmentFixups} {a : Nat}
    (hx : x ∈ segs) (hy : y ∈ segs) (hax : TrackedIn c x a) (hay : TrackedIn c y a) : x = y := by
  by_contra hne
  have : Std.Symm (SegmentsApart c) := ⟨fun _ _ => Or.symm⟩
  have hxlow := hax.1
  have hxhigh := hax.2.1
  have hylow := hay.1
  have hyhigh := hay.2.1
  rcases h.disjoint.forall hx hy hne with hle | hle <;> omega

lemma WellPlaced.nodup (h : WellPlaced c segs header baseAddress) :
    (segs.flatMap (segmentLocs c)).Nodup := by
  apply List.nodup_flatMap.mpr
  refine ⟨fun seg _ => nodup_locsBelow _, h.disjoint.imp ?_⟩
  intro x y hdisj a hax hay
  obtain ⟨⟨hxlow, hxhigh, -⟩, -⟩ := mem_segmentLocs.mp hax
  obtain ⟨⟨hylow, hyhigh, -⟩, -⟩ := mem_segmentLocs.mp hay
  rcases hdisj with hle | hle <;> omega

lemma WellPlaced.pairwise (h : WellPlaced c segs header baseAddress) :
    (segs.flatMap (segmentLocs c)).Pairwise (Apart 8) :=
  h.nodup.pairwise_of_forall_ne
    (fun a ha b hb => h.apart a b (tracked_of_mem ha) (tracked_of_mem hb))

/-- The walker computes the addresses that the builder used. -/
lemma WellPlaced.kernelLocation_eq (h : WellPlaced c segs header baseAddress) {p : SegmentFixups × Nat}
    {buffer : Mem} (hp : p.1 ∈ segs) (htable : TableAt c baseAddress p buffer) {i o : Nat}
    (hi : i < c.pageCount p.1) (ho : o < c.fixupsPageSize) :
    kernelLocation header (loadStartsInSegment buffer p.2) i o = c.fixupLoc p.1 i o := by
  have hoffset : (loadStartsInSegment buffer p.2).segmentOffset =
      (p.1.unslidLoadAddress + (2 ^ 64 - baseAddress)) % 2 ^ 64 := htable.fields.segmentOffset
  have hsize : (loadStartsInSegment buffer p.2).pageSize = c.fixupsPageSize := htable.fields.pageSize
  have hend : pagesEnd c p.1 (i + 1) ≤ pagesEnd c p.1 (segmentPages c p.1) :=
    pagesEnd_le (Nat.le_trans (Nat.succ_le_of_lt hi) pageCount_le)
  have hfits := h.fits p.1 hp
  have hlt : c.fixupLoc p.1 i o < 2 ^ 64 := by
    unfold pagesEnd at hend hfits
    unfold AppCache.fixupLoc
    rw [Nat.succ_mul] at hend
    omega
  unfold kernelLocation
  rw [hoffset, hsize, Nat.add_assoc, Nat.add_mod, ← h.place p.1 hp]
  unfold AppCache.fixupLoc at hlt ⊢
  rw [← Nat.mod_eq_of_lt hlt]
  simp only [Nat.add_mod, Nat.mod_mod, Nat.add_assoc]

theorem roundTrip_iff {capacity segmentCount : Nat} {s s' : FixupMem}
    (hplaced : WellPlaced c segs header baseAddress) (hcapacity : capacity < 2 ^ 32)
    (h : c.buildChainedFixups capacity baseAddress segmentCount segs s = some s') :
    RoundTrip c segs capacity header s s' ↔ PagesCounted c segs := by
  obtain ⟨ps, rfl, hbuilt⟩ := kernelBuilt hcapacity
    (fun seg hseg => Nat.le_trans pageCount_le (hplaced.room seg hseg)) hplaced.pairwise h
  have hwalk : ∀ fuel, c.fixupsPageSize < fuel → fixupLocations header fuel s' =
      some ((byIndex segmentCount ps).flatMap (fun p => segmentLocs c p.1)) := by
    intro fuel hfuel
    apply fixupLocations_built hbuilt hfuel
    exact fun p hp i hi o ho =>
      hplaced.kernelLocation_eq (List.mem_map_of_mem hp) (hbuilt.tables p hp) hi ho
  have hnd : ps.Nodup := hbuilt.info.distinct.imp (fun hne heq => hne (congrArg (·.1.segmentIndex) heq))
  have hperm : ((byIndex segmentCount ps).flatMap (fun p => segmentLocs c p.1)).Perm
      ((ps.map Prod.fst).flatMap (segmentLocs c)) := by
    rw [List.flatMap_map]
    exact (byIndex_perm hbuilt.info.bounded hnd).flatMap_right _
  have hlocs : locations (ps.flatMap (fun p => chainsBelow c p.1 (c.pageCount p.1))) =
      (ps.map Prod.fst).flatMap (segmentLocs c) := by
    rw [locations_segments, List.flatMap_map]
  constructor
  · rintro ⟨⟨l, hl, -, hmem⟩, -, -, -⟩
    intro seg hseg a ha
    have hl' := hl _ (Nat.lt_succ_self _)
    rw [hwalk _ (Nat.lt_succ_self _), Option.some.injEq] at hl'
    have hal : a ∈ l := (hmem a).mpr ⟨seg, hseg, ha⟩
    rw [← hl', hperm.mem_iff] at hal
    obtain ⟨seg', hseg', ha'⟩ := List.mem_flatMap.mp hal
    obtain ⟨htracked, hlt⟩ := mem_segmentLocs.mp ha'
    rwa [hplaced.unique hseg hseg' ha htracked]
  · intro hcounted
    have hmem : ∀ a, a ∈ (ps.map Prod.fst).flatMap (segmentLocs c) ↔ Tracked c (ps.map Prod.fst) a := by
      intro a
      constructor
      · exact tracked_of_mem
      · rintro ⟨seg, hseg, ha⟩
        exact List.mem_flatMap.mpr ⟨seg, hseg, mem_segmentLocs.mpr ⟨ha, hcounted seg hseg a ha⟩⟩
    constructor
    · refine ⟨_, hwalk, hperm.nodup_iff.mpr hplaced.nodup, fun a => ?_⟩
      rw [hperm.mem_iff, hmem]
    · intro a ha
      apply hbuilt.chains.words
      rwa [hlocs, hmem]
    · intro x hx
      apply hbuilt.chains.frame
      intro a ha
      rw [hlocs, hmem] at ha
      exact hx a ha
    · exact hbuilt.outside

end RoundTrip

/-- Two tracked locations of null pointers, in a collection for x86_64. -/
def twoLocations : AppCache where
  isX86 := true
  currentLevel := 0
  levelBaseAddresses := fun _ => 0
  aslrTracker := ⟨fun a => a = 0x1008 ∨ a = 0x1013, fun _ => 0xFF, fun _ => none, fun _ => none⟩

/-- A segment of `n` pages in a collection whose header is at address zero. -/
def segmentOfPages (n : Nat) : SegmentFixups := ⟨0x1000, 0, 0x1000, n * 4096, n⟩

def zeroed : FixupMem := ⟨fun _ => 0, fun _ => 0⟩

lemma wellPlaced_segmentOfPages {n : Nat} (hn : n ≤ 2 ^ 16) :
    WellPlaced twoLocations [segmentOfPages n] 0 0 := by
  have hpages : segmentPages twoLocations (segmentOfPages n) = n := by
    change (n * 4096 + 4096 - 1) / 4096 = n
    omega
  constructor
  · simp only [List.mem_singleton, forall_eq, hpages]
    exact le_rfl
  · simp only [List.mem_singleton, forall_eq]
    change 0x1000 = (0 + (0x1000 + (2 ^ 64 - 0)) % 2 ^ 64) % 2 ^ 64
    norm_num
  · simp only [List.mem_singleton, forall_eq, hpages]
    change 0x1000 + n * 4096 ≤ 2 ^ 64
    omega
  · exact List.pairwise_singleton _ _
  · rintro a b ⟨-, -, -, -, ha⟩ ⟨-, -, -, -, hb⟩ hab
    have ha : a = 0x1008 ∨ a = 0x1013 := by simpa [twoLocations] using ha
    have hb : b = 0x1008 ∨ b = 0x1013 := by simpa [twoLocations] using hb
    unfold Apart
    omega

theorem onePage_roundTrip : ∃ s', twoLocations.buildChainedFixups 100 0 1 [segmentOfPages 1] zeroed =
      some s' ∧ RoundTrip twoLocations [segmentOfPages 1] 100 0 zeroed s' := by
  have hbuilt : (twoLocations.buildChainedFixups 100 0 1 [segmentOfPages 1] zeroed).isSome := by
    decide +kernel
  obtain ⟨s', hs'⟩ := Option.isSome_iff_exists.mp hbuilt
  refine ⟨s', hs', (roundTrip_iff (wellPlaced_segmentOfPages (by norm_num)) (by norm_num) hs').mpr ?_⟩
  rintro seg hseg a ⟨-, hhigh, -⟩
  have hcount : twoLocations.pageCount (segmentOfPages 1) =
      segmentPages twoLocations (segmentOfPages 1) := by decide +kernel
  rw [List.mem_singleton.mp hseg] at hhigh ⊢
  rwa [hcount]

/-- Of 65536 pages `page_count` counts none, so that nothing is fixed. -/
theorem manyPages_not_roundTrip :
    ∃ s', WellPlaced twoLocations [segmentOfPages 65536] 0 0 ∧
      twoLocations.buildChainedFixups 200000 0 1 [segmentOfPages 65536] zeroed = some s' ∧
      ¬RoundTrip twoLocations [segmentOfPages 65536] 200000 0 zeroed s' := by
  have hwalk : (twoLocations.buildChainedFixups 200000 0 1 [segmentOfPages 65536] zeroed).bind
      (fixupLocations 0 5000) = some [] := by decide +kernel
  obtain ⟨s', hs', hnone⟩ := Option.bind_eq_some_iff.mp hwalk
  refine ⟨s', wellPlaced_segmentOfPages (by norm_num), hs', ?_⟩
  rintro ⟨⟨l, hl, -, hmem⟩, -, -, -⟩
  have htracked : Tracked twoLocations [segmentOfPages 65536] 0x1008 :=
    ⟨_, List.mem_singleton_self _, by decide +kernel, by decide +kernel, by decide +kernel⟩
  have hempty := hl 5000 (by decide)
  rw [hnone, Option.some.injEq] at hempty
  have hin := (hmem 0x1008).mpr htracked
  rw [← hempty] at hin
  exact List.not_mem_nil hin

end Dyld.Chained
