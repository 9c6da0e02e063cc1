import Dyld.Chained.KernelPages

/-!
# The starts tables of a kernel collection

The buffer that `buildChainedFixups` fills: where the starts of each segment stand, what the entries
of the image say about them, and what the loop over the segments writes there.
-/

namespace Dyld.Chained

open Dyld.Lib

/-! ### The layout of the buffer -/

/-- The bytes for the starts of a segment. -/
def tableSize (seg : SegmentFixups) : Nat := 24 + 2 * seg.numPagesToFixup

/-- The starts of the segments stand one behind the other, from `u` to `u'`. -/
def PlacedFrom : Nat → List (SegmentFixups × Nat) → Nat → Prop
  | u, [], u' => u = u'
  | u, p :: ps, u' => p.2 = u ∧ PlacedFrom (u + tableSize p.1) ps u'

section Layout

variable {capacity : Nat} {segs : List SegmentFixups} {ps : List (SegmentFixups × Nat)}
  {b b' : ByteBuffer}

lemma makeSpace_used {n : Nat} (h : b.makeSpace capacity n = some b') :
    b'.used = b.used + n ∧ b'.used ≤ capacity := by
  unfold ByteBuffer.makeSpace at h
  split_ifs at h with hle
  obtain rfl := Option.some.inj h
  exact ⟨rfl, hle⟩

lemma makeSpace_apply {n x : Nat} (h : b.makeSpace capacity n = some b') (hx : capacity ≤ x) :
    b'.bytes x = b.bytes x := by
  unfold ByteBuffer.makeSpace at h
  split_ifs at h with hle
  obtain rfl := Option.some.inj h
  exact if_neg (by omega)

lemma placeStarts_apply {x : Nat} (h : placeStarts capacity segs b = some (ps, b')) (hx : capacity ≤ x) :
    b'.bytes x = b.bytes x := by
  induction segs generalizing b ps with
  | nil =>
    obtain ⟨rfl, rfl⟩ := Prod.mk.inj (Option.some.inj h)
    rfl
  | cons seg segs ih =>
    rw [placeStarts] at h
    obtain ⟨b₁, hspace, h⟩ := Option.bind_eq_some_iff.mp h
    obtain ⟨⟨qs, b₂⟩, hrest, hp⟩ := Option.map_eq_some_iff.mp h
    obtain ⟨rfl, rfl⟩ := Prod.mk.inj hp
    rw [ih hrest, makeSpace_apply hspace hx]

lemma placeStarts_spec (h : placeStarts capacity segs b = some (ps, b')) (hb : b.used ≤ capacity) :
    ps.map Prod.fst = segs ∧ PlacedFrom b.used ps b'.used ∧ b'.used ≤ capacity := by
  induction segs generalizing b ps with
  | nil =>
    obtain ⟨rfl, rfl⟩ := Prod.mk.inj (Option.some.inj h)
    exact ⟨rfl, rfl, hb⟩
  | cons seg segs ih =>
    rw [placeStarts] at h
    obtain ⟨b₁, hspace, h⟩ := Option.bind_eq_some_iff.mp h
    obtain ⟨⟨qs, b₂⟩, hrest, hp⟩ := Option.map_eq_some_iff.mp h
    obtain ⟨rfl, rfl⟩ := Prod.mk.inj hp
    obtain ⟨hused, hle⟩ := makeSpace_used hspace
    obtain ⟨hmap, hplaced, hle'⟩ := ih hrest hle
    rw [hused] at hplaced
    exact ⟨by simp [hmap], ⟨rfl, hplaced⟩, hle'⟩

lemma PlacedFrom.le {u u' : Nat} (h : PlacedFrom u ps u') : u ≤ u' := by
  induction ps generalizing u with
  | nil => exact Nat.le_of_eq h
  | cons p ps ih =>
    have := ih h.2
    omega

lemma PlacedFrom.mem {u u' : Nat} (h : PlacedFrom u ps u') {p : SegmentFixups × Nat} (hp : p ∈ ps) :
    u ≤ p.2 ∧ p.2 + tableSize p.1 ≤ u' := by
  induction ps generalizing u with
  | nil => simp at hp
  | cons q ps ih =>
    obtain ⟨hq, hrest⟩ := h
    rcases List.mem_cons.mp hp with rfl | hp
    · have := hrest.le
      omega
    · have := ih hrest hp
      omega

/-- A table stands behind those before it. -/
lemma PlacedFrom.before {u u' : Nat} {l r : List (SegmentFixups × Nat)} {x p : SegmentFixups × Nat}
    (h : PlacedFrom u (l ++ x :: r) u') (hp : p ∈ l) : p.2 + tableSize p.1 ≤ x.2 := by
  induction l generalizing u with
  | nil => simp at hp
  | cons q l ih =>
    obtain ⟨hq, hrest⟩ := h
    rcases List.mem_cons.mp hp with rfl | hp
    · have := (hrest.mem (p := x) (by simp)).1
      omega
    · exact ih hrest hp

end Layout

/-! ### The starts in the image -/

/-- The entries of `dyld_chained_starts_in_image` for the segments of a list. -/
structure InfoAt (segmentCount : Nat) (l : List (SegmentFixups × Nat)) (m : Mem) : Prop where
  count : loadNat m startsInImage 4 = segmentCount
  info : ∀ p ∈ l, loadNat m (segInfoAddress p.1.segmentIndex) 4 = p.2 - startsInImage
  free : ∀ i < segmentCount, (∀ p ∈ l, p.1.segmentIndex ≠ i) → loadNat m (segInfoAddress i) 4 = 0
  bounded : ∀ p ∈ l, p.1.segmentIndex < segmentCount
  distinct : l.Pairwise (fun p q => p.1.segmentIndex ≠ q.1.segmentIndex)

section Info

variable {segmentCount : Nat} {l : List (SegmentFixups × Nat)} {m m' : Mem}

lemma loadNat_segInfo_of_ne {i j v : Nat} (h : i ≠ j) :
    loadNat (storeNat 4 m (segInfoAddress i) v) (segInfoAddress j) 4 =
      loadNat m (segInfoAddress j) 4 := by
  apply loadNat_storeNat_of_disjoint
  unfold segInfoAddress
  omega

lemma infoAt_putStartsInImage (m : Mem) (hcount : segmentCount < 2 ^ 32) :
    InfoAt segmentCount [] (putStartsInImage segmentCount m) := by
  have hrun : ∀ n, loadNat ((List.range n).foldl (fun m i => storeNat 4 m (segInfoAddress i) 0)
        (storeNat 4 m startsInImage segmentCount)) startsInImage 4 = segmentCount ∧
      ∀ i < n, loadNat ((List.range n).foldl (fun m i => storeNat 4 m (segInfoAddress i) 0)
        (storeNat 4 m startsInImage segmentCount)) (segInfoAddress i) 4 = 0 := by
    intro n
    induction n with
    | zero =>
      refine ⟨?_, by simp⟩
      rw [List.range_zero, List.foldl_nil, loadNat_storeNat_same]
      exact Nat.mod_eq_of_lt hcount
    | succ n ih =>
      rw [List.range_succ, List.foldl_append, List.foldl_cons, List.foldl_nil]
      constructor
      · rw [loadNat_storeNat_of_disjoint, ih.1]
        unfold segInfoAddress
        omega
      · intro i hi
        rcases Nat.lt_or_eq_of_le (Nat.le_of_lt_succ hi) with hlt | rfl
        · rw [loadNat_segInfo_of_ne (by omega), ih.2 i hlt]
        · rw [loadNat_storeNat_same, Nat.zero_mod]
  exact ⟨(hrun segmentCount).1, by simp, fun i hi _ => (hrun segmentCount).2 i hi, by simp, .nil⟩

lemma InfoAt.step (h : InfoAt segmentCount l m) {p : SegmentFixups × Nat}
    (hlow : ∀ q ∈ l, startsInImage < q.2) (hlow' : startsInImage < p.2) (hhigh : p.2 < 2 ^ 32)
    (hput : putSegInfo segmentCount m p = some m') : InfoAt segmentCount (l ++ [p]) m' := by
  unfold putSegInfo at hput
  split_ifs at hput with hindex hzero
  rw [not_not] at hzero
  obtain rfl := Option.some.inj hput
  have hnew : ∀ q ∈ l, q.1.segmentIndex ≠ p.1.segmentIndex := by
    intro q hq heq
    have hinfo := h.info q hq
    rw [heq, hzero] at hinfo
    have := hlow q hq
    omega
  constructor
  · rw [loadNat_storeNat_of_disjoint, h.count]
    unfold segInfoAddress
    omega
  · intro q hq
    rcases List.mem_append.mp hq with hq | hq
    · rw [loadNat_segInfo_of_ne (hnew q hq).symm, h.info q hq]
    · obtain rfl := List.mem_singleton.mp hq
      rw [loadNat_storeNat_same]
      exact Nat.mod_eq_of_lt (by omega)
  · intro i hi hfree
    rw [loadNat_segInfo_of_ne (hfree p (by simp))]
    exact h.free i hi (fun q hq => hfree q (List.mem_append_left _ hq))
  · intro q hq
    rcases List.mem_append.mp hq with hq | hq
    · exact h.bounded q hq
    · obtain rfl := List.mem_singleton.mp hq
      exact hindex
  · rw [List.pairwise_append]
    refine ⟨h.distinct, by simp, fun q hq q' hq' => ?_⟩
    rw [List.mem_singleton.mp hq']
    exact hnew q hq

lemma InfoAt.congr (h : InfoAt segmentCount l m)
    (hm : ∀ x, startsInImage ≤ x → x < segInfoAddress segmentCount → m' x = m x) :
    InfoAt segmentCount l m' := by
  have hload : ∀ i < segmentCount, loadNat m' (segInfoAddress i) 4 = loadNat m (segInfoAddress i) 4 := by
    intro i hi
    apply loadNat_congr
    intro x hx
    unfold InWord segInfoAddress at *
    exact hm x (by omega) (by omega)
  constructor
  · rw [← h.count]
    apply loadNat_congr
    intro x hx
    unfold InWord segInfoAddress at *
    exact hm x (by omega) (by omega)
  · intro p hp
    rw [hload _ (h.bounded p hp), h.info p hp]
  · intro i hi hfree
    rw [hload i hi, h.free i hi hfree]
  · exact h.bounded
  · exact h.distinct

end Info

/-! ### All segments -/

/-- The locations of a segment as far as its `page_count` goes. -/
def segmentLocs (c : AppCache) (seg : SegmentFixups) : List Nat := locsBelow c seg (c.pageCount seg)

structure TableAt (c : AppCache) (baseAddress : Nat) (p : SegmentFixups × Nat) (m : Mem) : Prop where
  fields : FieldsAt c baseAddress p.1 p.2 m
  pageStart : ∀ i < c.pageCount p.1, loadNat m (p.2 + offsetofPageStart i) 2 = pageStartOf c p.1 i

structure SegmentsFixed (c : AppCache) (baseAddress : Nat) (l : List (SegmentFixups × Nat))
    (s s' : FixupMem) : Prop where
  chains : Encoding 8 c.distance (Decodes c) s.mem s'.mem
    (l.flatMap (fun p => chainsBelow c p.1 (c.pageCount p.1)))
  tables : ∀ p ∈ l, TableAt c baseAddress p s'.buffer
  buffer : ∀ x, (∀ p ∈ l, ¬(p.2 ≤ x ∧ x < p.2 + tableSize p.1)) → s'.buffer x = s.buffer x

section Segments

variable {c : AppCache} {baseAddress : Nat} {l : List (SegmentFixups × Nat)}

lemma TableAt.congr {p : SegmentFixups × Nat} {m m' : Mem} (h : TableAt c baseAddress p m)
    (hroom : c.pageCount p.1 ≤ p.1.numPagesToFixup)
    (hm : ∀ x, p.2 ≤ x → x < p.2 + tableSize p.1 → m' x = m x) : TableAt c baseAddress p m' := by
  unfold tableSize at hm
  constructor
  · apply h.fields.congr
    intro x hx hx'
    exact hm x hx (by omega)
  · intro i hi
    rw [← h.pageStart i hi]
    apply loadNat_congr
    intro x hx
    unfold InWord offsetofPageStart at hx
    exact hm x (by omega) (by omega)

lemma locations_segments : locations (l.flatMap (fun p => chainsBelow c p.1 (c.pageCount p.1))) =
    l.flatMap (fun p => segmentLocs c p.1) := by
  induction l with
  | nil => rfl
  | cons p l ih =>
    rw [List.flatMap_cons, List.flatMap_cons, locations_append, ih, locations_chainsBelow]
    rfl

lemma SegmentsFixed.step {s₀ s s' : FixupMem} (h : SegmentsFixed c baseAddress l s₀ s)
    {x : SegmentFixups × Nat} (hbefore : ∀ p ∈ l, p.2 + tableSize p.1 ≤ x.2)
    (hroom : ∀ p ∈ l ++ [x], c.pageCount p.1 ≤ p.1.numPagesToFixup)
    (hap : ((l ++ [x]).flatMap (fun p => segmentLocs c p.1)).Pairwise (Apart 8))
    (hstep : c.fixSegment baseAddress s x = some s') :
    SegmentsFixed c baseAddress (l ++ [x]) s₀ s' := by
  rw [List.flatMap_append, List.flatMap_singleton, List.pairwise_append] at hap
  obtain ⟨-, hseg, hcross⟩ := hap
  have hfixed := fixSegment_spec hseg hstep
  have hroom' := hroom x (by simp)
  constructor
  · rw [List.flatMap_append, List.flatMap_singleton]
    apply h.chains.append hfixed.chains
    rw [locations_segments, locations_chainsBelow]
    exact hcross
  · intro p hp
    rcases List.mem_append.mp hp with hp | hp
    · apply (h.tables p hp).congr (hroom p (by simp [hp]))
      intro y hy hy'
      have := hbefore p hp
      exact hfixed.buffer y (by omega)
    · rw [List.mem_singleton.mp hp]
      exact ⟨hfixed.fields, hfixed.pageStart⟩
  · intro y hy
    have hyx := hy x (by simp)
    rw [hfixed.buffer y, h.buffer y (fun p hp => hy p (List.mem_append_left _ hp))]
    unfold tableSize at hyx
    unfold offsetofPageStart
    omega

lemma fixSegments_spec {ps : List (SegmentFixups × Nat)} {s s' : FixupMem} {u u' : Nat}
    (hplaced : PlacedFrom u ps u') (hroom : ∀ p ∈ ps, c.pageCount p.1 ≤ p.1.numPagesToFixup)
    (hap : (ps.flatMap (fun p => segmentLocs c p.1)).Pairwise (Apart 8))
    (h : ps.foldlM (c.fixSegment baseAddress) s = some s') : SegmentsFixed c baseAddress ps s s' := by
  refine foldlM_inv (I := fun l t => SegmentsFixed c baseAddress l s t) (fun l x r t t' hps hinv ht => ?_)
    ⟨Encoding.nil _, by simp, fun _ _ => rfl⟩ h
  have hsub : (l ++ [x]).Sublist ps := by
    rw [hps]
    exact List.Sublist.append_left (List.singleton_sublist.mpr List.mem_cons_self) l
  apply hinv.step _ (fun p hp => hroom p (hsub.subset hp)) (hap.sublist (hsub.flatMap _)) ht
  rw [hps] at hplaced
  exact fun p hp => hplaced.before hp

end Segments

/-! ### What the builder leaves -/

/-- The buffer and the segments, when `buildChainedFixups` is done. -/
structure KernelBuilt (c : AppCache) (capacity baseAddress segmentCount : Nat)
    (ps : List (SegmentFixups × Nat)) (s s' : FixupMem) : Prop where
  startsOffset : loadNat s'.buffer 4 4 = startsInImage
  info : InfoAt segmentCount ps s'.buffer
  low : ∀ p ∈ ps, startsInImage < p.2
  chains : Encoding 8 c.distance (Decodes c) s.mem s'.mem
    (ps.flatMap (fun p => chainsBelow c p.1 (c.pageCount p.1)))
  tables : ∀ p ∈ ps, TableAt c baseAddress p s'.buffer
  outside : ∀ x, capacity ≤ x → s'.buffer x = s.buffer x

section Build

variable {c : AppCache} {capacity baseAddress segmentCount : Nat} {segs : List SegmentFixups}

lemma putFixupsHeader_apply {importsOffset x : Nat} {m : Mem} (hx : startsInImage ≤ x) :
    putFixupsHeader importsOffset m x = m x := by
  unfold startsInImage at hx
  unfold putFixupsHeader
  simp (disch := (unfold InWord; omega)) only [storeNat_apply_of_not_inWord]

lemma startsOffset_putFixupsHeader (importsOffset : Nat) (m : Mem) :
    loadNat (putFixupsHeader importsOffset m) 4 4 = startsInImage := by
  unfold putFixupsHeader
  simp (disch := omega) only [loadNat_storeNat_of_disjoint, loadNat_storeNat_same]
  rfl

lemma putStartsInImage_apply {x : Nat} {m : Mem} (hx : segInfoAddress segmentCount ≤ x) :
    putStartsInImage segmentCount m x = m x := by
  have hrun : ∀ n ≤ segmentCount, (List.range n).foldl (fun m i => storeNat 4 m (segInfoAddress i) 0)
      (storeNat 4 m startsInImage segmentCount) x = m x := by
    intro n hn
    induction n with
    | zero =>
      apply storeNat_apply_of_not_inWord
      unfold InWord segInfoAddress at *
      omega
    | succ n ih =>
      rw [List.range_succ, List.foldl_append, List.foldl_cons, List.foldl_nil, ← ih (by omega)]
      apply storeNat_apply_of_not_inWord
      unfold InWord segInfoAddress at *
      omega
  exact hrun segmentCount le_rfl

lemma putSegInfo_apply {p : SegmentFixups × Nat} {x : Nat} {m m' : Mem}
    (hx : segInfoAddress segmentCount ≤ x) (h : putSegInfo segmentCount m p = some m') :
    m' x = m x := by
  unfold putSegInfo at h
  split_ifs at h with hindex
  obtain rfl := Option.some.inj h
  apply storeNat_apply_of_not_inWord
  unfold InWord segInfoAddress at *
  omega

lemma infoAt_putSegInfo {ps : List (SegmentFixups × Nat)} {m m' : Mem} (hcount : segmentCount < 2 ^ 32)
    (hlow : ∀ p ∈ ps, startsInImage < p.2) (hhigh : ∀ p ∈ ps, p.2 < 2 ^ 32)
    (h : ps.foldlM (putSegInfo segmentCount) (putStartsInImage segmentCount m) = some m') :
    InfoAt segmentCount ps m' := by
  refine foldlM_inv (I := fun l t => InfoAt segmentCount l t) (fun l x r t t' hps hinv ht => ?_)
    (infoAt_putStartsInImage m hcount) h
  have hmem : ∀ p ∈ l ++ [x], p ∈ ps := by
    intro p hp
    rw [hps]
    simp only [List.mem_append, List.mem_cons, List.not_mem_nil, or_false] at hp ⊢
    tauto
  exact hinv.step (fun q hq => hlow q (hmem q (List.mem_append_left _ hq))) (hlow x (hmem x (by simp)))
    (hhigh x (hmem x (by simp))) ht

theorem kernelBuilt {s s' : FixupMem} (hcapacity : capacity < 2 ^ 32)
    (hroom : ∀ seg ∈ segs, c.pageCount seg ≤ seg.numPagesToFixup)
    (hap : (segs.flatMap (segmentLocs c)).Pairwise (Apart 8))
    (h : c.buildChainedFixups capacity baseAddress segmentCount segs s = some s') :
    ∃ ps, ps.map Prod.fst = segs ∧ KernelBuilt c capacity baseAddress segmentCount ps s s' := by
  unfold AppCache.buildChainedFixups at h
  obtain ⟨b₁, hb₁, h⟩ := Option.bind_eq_some_iff.mp h
  obtain ⟨b₂, hb₂, h⟩ := Option.bind_eq_some_iff.mp h
  obtain ⟨⟨ps, b₃⟩, hstarts, h⟩ := Option.bind_eq_some_iff.mp h
  obtain ⟨buffer, hinfo, h⟩ := Option.bind_eq_some_iff.mp h
  obtain ⟨t, ht, rfl⟩ := Option.map_eq_some_iff.mp h
  obtain ⟨hused₁, hle₁⟩ := makeSpace_used hb₁
  obtain ⟨hused₂, hle₂⟩ := makeSpace_used hb₂
  obtain ⟨hmap, hplaced, hle₃⟩ := placeStarts_spec hstarts hle₂
  have hused : b₂.used = startsInImage + (8 + 4 * segmentCount) := by
    simp only at hused₁
    omega
  rw [hused] at hplaced
  have hwithin : ∀ p ∈ ps, startsInImage + (8 + 4 * segmentCount) ≤ p.2 ∧ p.2 < 2 ^ 32 := by
    intro p hp
    have := hplaced.mem hp
    unfold tableSize at this
    omega
  have hlow : ∀ p ∈ ps, startsInImage < p.2 := fun p hp => by have := hwithin p hp; omega
  have hsegments := fixSegments_spec (c := c) hplaced
    (fun p hp => hroom p.1 (hmap ▸ List.mem_map_of_mem hp))
    (by rw [← hmap, List.flatMap_map] at hap; exact hap) ht
  have hinfo' := infoAt_putSegInfo (by omega) hlow (fun p hp => (hwithin p hp).2) hinfo
  have htables : ∀ x, startsInImage ≤ x → putFixupsHeader b₃.used t.buffer x = t.buffer x :=
    fun x hx => putFixupsHeader_apply hx
  refine ⟨ps, hmap, ?_⟩
  constructor
  · exact startsOffset_putFixupsHeader _ _
  · apply hinfo'.congr
    intro x hx hx'
    refine (htables x hx).trans (hsegments.buffer x (fun p hp => ?_))
    have := hwithin p hp
    unfold segInfoAddress at hx'
    omega
  · exact hlow
  · exact hsegments.chains
  · intro p hp
    apply (hsegments.tables p hp).congr (hroom p.1 (hmap ▸ List.mem_map_of_mem hp))
    intro x hx hx'
    have := hlow p hp
    exact htables x (by omega)
  · intro x hx
    have hstart : segInfoAddress segmentCount ≤ x := by
      unfold segInfoAddress
      omega
    have hx' : startsInImage ≤ x := by
      unfold segInfoAddress at hstart
      omega
    have hsegs : t.buffer x = buffer x := by
      apply hsegments.buffer
      intro p hp
      have := hplaced.mem hp
      omega
    have hentries : buffer x = b₃.bytes x := by
      refine (foldlM_inv (I := fun _ m => m x = b₃.bytes x) (fun l p r m m' _ hm hput => ?_)
        (putStartsInImage_apply hstart) hinfo)
      rw [putSegInfo_apply hstart hput, hm]
    refine (htables x hx').trans ?_
    rw [hsegs, hentries, placeStarts_apply hstarts hx, makeSpace_apply hb₂ hx, makeSpace_apply hb₁ hx]

end Build

end Dyld.Chained
