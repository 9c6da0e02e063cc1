import Dyld.Chained.WalkChain

/-!
# Walks as lists of locations

The handler has no part in which locations a walk comes to, so a walk calls it on a list of locations
for each segment until it stops. The walk that reads its chains from memory as it goes comes to the
same locations.
-/

namespace Dyld.Chained.WalkChain

open Dyld.Lib

def callHandler {σ : Type} (handler : σ → Nat → σ × Bool) (r : ChainRun σ) (chain : Nat) :
    ChainRun σ × Bool :=
  (r.call handler chain, (handler r.state chain).2)

lemma feed_state {σ : Type} (handler : σ → Nat → σ × Bool) (r : ChainRun σ) (l : List Nat) :
    feed handler r.state l = ((feed (callHandler handler) r l).1.state, (feed (callHandler handler) r l).2) :=
  feed_comm (fun _ _ => rfl) r l

section Chain

variable (m : Mem) (format : Nat) (notifyNonPointers : Bool) (maxValidPointer fuel a : Nat)

/-- Every handler is called on the locations of `l` until it stops. -/
def Shows (l : List Nat) : Prop :=
  ∀ (σ : Type) (handler : σ → Nat → σ × Bool) (r : ChainRun σ),
    walkChain m format notifyNonPointers maxValidPointer handler fuel r a =
      some (feed (callHandler handler) r l)

variable {m format notifyNonPointers maxValidPointer fuel a}

lemma exists_shows (hformat : format ∈ supportedFormats) {r : ChainRun (List Nat)}
    {w : ChainRun (List Nat) × Bool}
    (h : walkChain m format notifyNonPointers maxValidPointer goOn fuel r a = some w) :
    ∃ l, Shows m format notifyNonPointers maxValidPointer fuel a l := by
  induction fuel generalizing a r with
  | zero =>
    obtain ⟨stride, hstride, -⟩ := exists_stride hformat
    rw [walkChain, hstride] at h
    cases h
  | succ fuel ih =>
    -- what the walk does after its first location
    have hgo : ∀ b, (∀ (σ : Type) (handler : σ → Nat → σ × Bool) (q : ChainRun σ),
        walkChain m format notifyNonPointers maxValidPointer handler (fuel + 1) q a =
          if (handler q.state a).2 then some (q.call handler a, true)
          else walkChain m format notifyNonPointers maxValidPointer handler fuel (q.call handler a) b) →
        ∃ l, Shows m format notifyNonPointers maxValidPointer (fuel + 1) a l := by
      intro b hb
      rw [hb, goOn, if_neg Bool.false_ne_true] at h
      obtain ⟨l, hl⟩ := ih h
      refine ⟨a :: l, fun σ handler q => ?_⟩
      rw [hb, feed_cons, callHandler]
      by_cases hstop : (handler q.state a).2 = true
      · rw [if_pos hstop, if_pos hstop]
      · rw [if_neg hstop, if_neg hstop]
        exact hl σ handler _
    by_cases hnext : next m format a = 0
    · refine ⟨[a], fun σ handler q => ?_⟩
      rw [walkChain_succ hformat, feed_singleton, callHandler, if_pos hnext]
      by_cases hstop : (handler q.state a).2 = true
      · rw [if_pos hstop, hstop]
      · rw [if_neg hstop, Bool.not_eq_true _ |>.mp hstop]
    · by_cases hskips : format = ptr32 ∧ notifyNonPointers = false
      · cases hskip : skipNonPointers m maxValidPointer fuel (a + next m format a) with
        | none =>
          rw [walkChain_succ hformat, goOn, if_neg Bool.false_ne_true, if_neg hnext, if_pos hskips,
            hskip] at h
          cases h
        | some b =>
          apply hgo b
          intro σ handler q
          rw [walkChain_succ hformat, if_neg hnext, if_pos hskips, hskip, Option.bind_some]
      · apply hgo (a + next m format a)
        intro σ handler q
        rw [walkChain_succ hformat, if_neg hnext, if_neg hskips]

lemma walkChain_inPlace (hformat : format ∈ supportedFormats)
    {handler : Patching ChainError → Nat → Patching ChainError × Bool}
    (hkeeps : ∀ s a, (handler s a).1.mem = s.mem) {r t : ChainRun (Patching ChainError)} {stopped : Bool}
    (hr : r.state.mem = m)
    (h : walkChain m format true maxValidPointer handler fuel r a = some (t, stopped)) :
    Chained.walkChain format handler fuel r.state a = some (t.state, stopped) ∧ t.state.mem = m := by
  obtain ⟨stride, hstride, hnext⟩ := exists_stride hformat
  have hknown : nextDistance format stride 0 ≠ none := (hnext 0).elim fun d hd => by rw [hd]; simp
  rw [Chained.walkChain, hstride, Option.bind_some, if_neg hknown]
  induction fuel generalizing r a with
  | zero =>
    rw [walkChain, hstride] at h
    cases h
  | succ fuel ih =>
    have hdistance : (nextDistance format stride (load 8 r.state.mem a)).getD 0 = next m format a := by
      rw [hr, next, hstride]
      rfl
    have hmem : (handler r.state a).1.mem = m := (hkeeps r.state a).trans hr
    rw [walkChain_succ hformat] at h
    rw [walk, hdistance]
    by_cases hstop : (handler r.state a).2 = true
    · rw [if_pos hstop] at h ⊢
      cases h
      exact ⟨rfl, hmem⟩
    · rw [if_neg hstop] at h ⊢
      by_cases hend : next m format a = 0
      · rw [if_pos hend] at h ⊢
        cases h
        exact ⟨rfl, hmem⟩
      · rw [if_neg hend, if_neg (by simp)] at h
        rw [if_neg hend]
        exact ih (r := r.call handler a) hmem h

end Chain

/-! ### All chains of an image -/

section Image

variable (m : Mem) (loadAddress : Nat) (notifyNonPointers : Bool) (fuel : Nat)

def imageLocations : ChainedImage.StartsInImage → Option (List (StartsInSegment × List Nat))
  | [] => some []
  | none :: starts => imageLocations starts
  | some segInfo :: starts =>
    (inSegment m loadAddress notifyNonPointers (fun _ => goOn) fuel segInfo ⟨[], none, []⟩).bind (fun r =>
      (imageLocations starts).map ((segInfo, r.state) :: ·))

variable {m loadAddress notifyNonPointers fuel}

/-- The chains of a segment, which a walk with any handler goes through. -/
lemma exists_shown {segInfo : StartsInSegment} (hformat : segInfo.pointerFormat ∈ supportedFormats)
    {r : ChainRun (List Nat)}
    (h : inSegment m loadAddress notifyNonPointers (fun _ => goOn) fuel segInfo ⟨[], none, []⟩ = some r) :
    ∃ es, segInfo.entries fuel = some es ∧ ChainsOf (fun p o => Shows m segInfo.pointerFormat
      notifyNonPointers segInfo.maxValidPointer fuel
      (loadAddress + segInfo.segmentOffset + p * segInfo.pageSize + o)) es r.state := by
  obtain ⟨w, hw, rfl⟩ := Option.map_eq_some_iff.mp h
  have hstate (s : ChainRun (List Nat)) (l : List Nat) :
      (s.state ++ l, false) = ((feed (callHandler goOn) s l).1.state, (feed (callHandler goOn) s l).2) := by
    rw [← feed_goOn, feed_state]
  have hlook : ∀ (s : ChainRun (List Nat)) a t, walkChain m segInfo.pointerFormat notifyNonPointers
      segInfo.maxValidPointer goOn fuel s a = some t → ∃ l, Shows m segInfo.pointerFormat notifyNonPointers
        segInfo.maxValidPointer fuel a l ∧ t = feed (callHandler goOn) s l := by
    intro s a t ht
    obtain ⟨l, hl⟩ := exists_shows hformat ht
    exact ⟨l, hl, Option.some.inj (ht.symm.trans (hl _ goOn s))⟩
  have hstop : ∀ (s : ChainRun (List Nat)) p o t, walkChain m segInfo.pointerFormat notifyNonPointers
      segInfo.maxValidPointer goOn fuel s
        (loadAddress + segInfo.segmentOffset + p * segInfo.pageSize + o) = some t → t.2 = false := by
    intro s p o t ht
    obtain ⟨l, -, rfl⟩ := hlook s _ t ht
    exact (Prod.ext_iff.mp (hstate s l)).2.symm
  obtain ⟨es, hes⟩ := exists_entries_of_walk hstop hw
  rw [forEachFixupInSegmentChains_eq _ hes] at hw
  obtain ⟨l, hl, hrun⟩ := exists_chainsOf (fun _ => True) hstop
    (fun s p o t _ ht => ⟨trivial, hlook s _ t ht⟩) trivial hw
  have hnoted : l = w.1.state.state := by
    rw [hrun]
    exact (Prod.ext_iff.mp (hstate ⟨[], none, []⟩ l)).1
  exact ⟨es, hes, hnoted ▸ hl⟩

lemma inSegment_feed {segInfo : StartsInSegment} (hformat : segInfo.pointerFormat ∈ supportedFormats)
    {r : ChainRun (List Nat)}
    (h : inSegment m loadAddress notifyNonPointers (fun _ => goOn) fuel segInfo ⟨[], none, []⟩ = some r)
    {σ : Type} (handler : StartsInSegment → σ → Nat → σ × Bool) (q : ChainRun σ) :
    inSegment m loadAddress notifyNonPointers handler fuel segInfo q =
      some (feed (callHandler (handler segInfo)) q r.state).1 := by
  obtain ⟨es, hes, hl⟩ := exists_shown hformat h
  obtain ⟨v, hv, hv'⟩ := visitEntries_feed (fun _ _ => True)
    (fun t p o l hl _ => hl σ (handler segInfo) t) (fun _ _ _ _ => ⟨trivial, trivial⟩) hl ⟨q, [], []⟩ trivial
  rw [inSegment, forEachFixupInSegmentChains_eq _ hes, hv, Option.map_some, hv']

/-- A walk over all chains calls the handler on the locations of each segment until it stops there. -/
theorem forEachFixupInAllChains_eq {starts : ChainedImage.StartsInImage}
    (hformats : ∀ segInfo, some segInfo ∈ starts → segInfo.pointerFormat ∈ supportedFormats)
    {segments : List (StartsInSegment × List Nat)}
    (h : imageLocations m loadAddress notifyNonPointers fuel starts = some segments)
    {σ : Type} (handler : StartsInSegment → σ → Nat → σ × Bool) (r : ChainRun σ) :
    (forEachFixupInAllChains m loadAddress notifyNonPointers handler fuel starts r).map (·.state) =
      some (segments.foldl (fun s segment => (feed (handler segment.1) s segment.2).1) r.state) := by
  induction starts generalizing segments r with
  | nil =>
    cases h
    rfl
  | cons start starts ih =>
    have hrest := @ih (fun segInfo hmem => hformats segInfo (List.mem_cons_of_mem _ hmem))
    cases start with
    | none => exact hrest h r
    | some segInfo =>
      obtain ⟨l, hl, h⟩ := Option.bind_eq_some_iff.mp h
      obtain ⟨segments, hsegments, rfl⟩ := Option.map_eq_some_iff.mp h
      rw [forEachFixupInAllChains, inSegment_feed (hformats segInfo List.mem_cons_self) hl, Option.bind_some,
        hrest hsegments, List.foldl_cons, feed_state]

end Image

/-! ### The walk in place -/

section InPlace

variable {m : Mem} {fuel : Nat} {image : ChainedImage}
  {handler : StartsInSegment → Patching ChainError → Nat → Patching ChainError × Bool}
  (hkeeps : ∀ segInfo s a, (handler segInfo s a).1.mem = s.mem) {r q : ChainRun (Patching ChainError)}
include hkeeps

lemma inSegment_inPlace {segInfo : StartsInSegment} (hformat : segInfo.pointerFormat ∈ supportedFormats)
    (hr : r.state.mem = m) (h : inSegment m image.loadAddress.toNat true handler fuel segInfo r = some q) :
    image.inSegment handler fuel r.state segInfo = some q.state ∧ q.state.mem = m := by
  obtain ⟨⟨w, stopped⟩, hw, rfl⟩ := Option.map_eq_some_iff.mp h
  have hwalk : ∀ (t : ChainRun (Patching ChainError)) s p o, t.state = s ∧ s.mem = m →
      WalkFollows (fun _ => False) (fun (t : ChainRun (Patching ChainError)) s => t.state = s ∧ s.mem = m) id id
        (walkChain m segInfo.pointerFormat true segInfo.maxValidPointer (handler segInfo) fuel t
          (image.chainLocation segInfo p o))
        (Chained.walkChain segInfo.pointerFormat (handler segInfo) fuel s (image.chainLocation segInfo p o)) := by
    rintro t _ p o ⟨rfl, ht⟩ t' stopped' hrun
    obtain ⟨hinPlace, hmem⟩ := walkChain_inPlace hformat (hkeeps segInfo) ht hrun
    exact Or.inr ⟨t'.state, hinPlace, rfl, hmem⟩
  have hfollows := walkPages_follows ⟨r, [], []⟩ ⟨r.state, [], []⟩ hwalk fuel _ ⟨rfl, hr⟩ w stopped hw
  obtain ⟨hfalse, -⟩ | ⟨v, hv, hstate, hmem⟩ := hfollows
  · exact hfalse.elim
  · rw [ChainedImage.inSegment, forEachFixupInSegmentChains, hv, Option.map_some, hstate]
    exact ⟨rfl, hstate ▸ hmem⟩

/-- When the handler leaves memory as it is, the walk that reads the chains as it goes does the same. -/
theorem forEachFixupInAllChains_inPlace {starts : ChainedImage.StartsInImage}
    (hformats : ∀ segInfo, some segInfo ∈ starts → segInfo.pointerFormat ∈ supportedFormats)
    (hr : r.state.mem = m)
    (h : forEachFixupInAllChains m image.loadAddress.toNat true handler fuel starts r = some q) :
    image.forEachFixupInAllChains handler fuel starts r.state = some q.state := by
  induction starts generalizing r with
  | nil =>
    cases h
    rfl
  | cons start starts ih =>
    have hrest := fun q => @ih q (fun segInfo hmem => hformats segInfo (List.mem_cons_of_mem _ hmem))
    cases start with
    | none => exact hrest r hr h
    | some segInfo =>
      obtain ⟨t, ht, h⟩ := Option.bind_eq_some_iff.mp h
      obtain ⟨hsegment, hmem⟩ := inSegment_inPlace hkeeps (hformats segInfo List.mem_cons_self) hr ht
      rw [ChainedImage.forEachFixupInAllChains, hsegment, Option.bind_some]
      exact hrest t hmem h

end InPlace

end Dyld.Chained.WalkChain
