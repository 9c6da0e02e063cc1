import Dyld.Chained.Pointer
import Dyld.Chained.ThreadedBinds

/-!
# Chain starts made from bind opcodes

`MachOAnalyzer::withChainStarts` has no starts table to hand out for an old arm64e image, so it
builds one on the stack while the bind opcodes are interpreted. The table of a segment grows with
each `APPLY`; the table of the next segment follows behind it. The buffer is sized by the opcodes,
not by the pages that the tables describe.
-/

namespace Dyld.Chained

open Dyld.Lib

/-! ### Building the tables -/

/-- Why the building of the table does not come to an end. -/
inductive BuildStop
  | overflow
  | outOfFuel
  deriving DecidableEq, Repr

/-- A write into a buffer of `size` bytes. -/
def put (size n : Nat) (m : Mem) (a v : Nat) : Except BuildStop Mem :=
  if a + n ≤ size then .ok (storeNat n m a v) else .error .overflow

/-- The buffer, whose start is address zero, and the variables of `withChainStarts`. -/
structure StartsBuilder where
  buffer : Mem
  curSegIndex : Nat
  curSeg : Nat

def offsetofSegInfo (i : Nat) : Nat := 4 + 4 * i

def segInfoOffset (m : Mem) (i : Nat) : Nat := loadNat m (offsetofSegInfo i) 4

def pageCount (m : Mem) (seg : Nat) : Nat := loadNat m (seg + 20) 2

def pageStart (m : Mem) (seg i : Nat) : Nat := loadNat m (seg + offsetofPageStart i) 2

def putHeader (size segCount : Nat) (m : Mem) : Except BuildStop Mem :=
  (put size 4 m 0 segCount).bind (fun m =>
    (List.range segCount).foldlM (fun m i => put size 4 m (offsetofSegInfo i) 0) m)

/-- The start of the callback: go on to the table of another segment. -/
def StartsBuilder.enterSegment (size : Nat) (b : StartsBuilder) (segmentIndex : Nat) :
    Except BuildStop StartsBuilder :=
  if segmentIndex = b.curSegIndex then .ok b
  else if b.curSegIndex = 0 then
    (put size 4 b.buffer (offsetofSegInfo segmentIndex) b.curSeg).bind (fun m =>
      (put size 2 m (b.curSeg + 20) 0).map (fun m => ⟨m, segmentIndex, b.curSeg⟩))
  else
    (put size 4 b.buffer (offsetofSegInfo segmentIndex)
        (b.curSeg + offsetofPageStart (pageCount b.buffer b.curSeg))).bind (fun m =>
      let curSeg := segInfoOffset m segmentIndex
      (put size 2 m (curSeg + 20) 0).map (fun m => ⟨m, segmentIndex, curSeg⟩))

/-- `while ( curSeg->page_count != pageIndex )`. The counter has 16 bits. -/
def skipPages (size curSeg pageIndex : Nat) : Nat → Mem → Except BuildStop Mem
  | 0, _ => .error .outOfFuel
  | fuel + 1, m =>
    if pageCount m curSeg = pageIndex then .ok m
    else
      (put size 2 m (curSeg + offsetofPageStart (pageCount m curSeg)) startNone).bind (fun m' =>
        (put size 2 m' (curSeg + 20) (pageCount m curSeg + 1)).bind (skipPages size curSeg pageIndex fuel))

/-- The end of the callback: the fields of the table and the start of the page. -/
def putStart (size curSeg pageIndex segmentOffset segOffset : Nat) (m : Mem) :
    Except BuildStop Mem :=
  (put size 4 m curSeg (offsetofPageStart pageIndex)).bind (fun m =>
    (put size 2 m (curSeg + 4) 0x1000).bind (fun m =>
      (put size 2 m (curSeg + 6) ptrArm64e).bind (fun m =>
        (put size 8 m (curSeg + 8) segOffset).bind (fun m =>
          (put size 4 m (curSeg + 16) 0).bind (fun m =>
            (put size 2 m (curSeg + 20) (pageIndex + 1)).bind (fun m =>
              put size 2 m (curSeg + offsetofPageStart pageIndex) (segmentOffset % 0x1000)))))))

/-- `(uint32_t)(segmentOffset/0x1000)`. -/
def applyPage (segmentOffset : Nat) : Nat := segmentOffset / 0x1000 % 2 ^ 32

section Build

variable (size : Nat) (segOffset : Nat → Nat) (fuel : Nat)

/-- The `addChainStart` callback of `withChainStarts`. `segOffset` is where a segment starts in
the image. -/
def addChainStart (b : StartsBuilder) (x : Nat × Nat) : Except BuildStop StartsBuilder :=
  (b.enterSegment size x.1).bind (fun b =>
    (skipPages size b.curSeg (applyPage x.2) fuel b.buffer).bind (fun m =>
      (putStart size b.curSeg (applyPage x.2) x.2 (segOffset x.1) m).map (fun m =>
        { b with buffer := m })))

def buildCallback (s : Except BuildStop StartsBuilder) (c : BindCallback) :
    Except BuildStop StartsBuilder × Bool :=
  match c.chainStart? with
  | none => (s, false)
  | some x => (s.bind (fun b => addChainStart size segOffset fuel b x), false)

end Build

namespace OldArm64eImage

variable (image : OldArm64eImage)

def bufferSize : Nat := (image.bindOpcodes.length + 512) % 2 ^ 32

def segOffset (segmentIndex : Nat) : Nat :=
  ((image.segment segmentIndex).vmAddr + (2 ^ 64 - image.preferredLoadAddress % 2 ^ 64)) % 2 ^ 64

/-- What stands before the tables. -/
def headerSize : Nat := offsetofSegInfo image.linkeditSegIndex

/-- `MachOAnalyzer::withChainStarts` on an old arm64e image, up to the call of its callback. The
buffer is on the stack and holds anything at first. -/
def withChainStarts (fuel : Nat) (stack : Mem) : Option (Except BuildStop Mem) :=
  match putHeader image.bufferSize image.linkeditSegIndex stack with
  | .error e => some (.error e)
  | .ok m =>
    (parseOrgArm64eChainedFixups (buildCallback image.bufferSize image.segOffset fuel) image
      (.ok ⟨m, 0, image.headerSize⟩)).map (fun r => r.1.map (·.buffer))

end OldArm64eImage

/-! ### The chains that the tables start -/

structure ChainStart where
  segIndex : Nat
  segmentOffset : Nat
  offset : Nat
  deriving DecidableEq, Repr

def segmentChainStarts (segIndex : Nat) (segInfo : StartsInSegment) (fuel : Nat) :
    Option (List ChainStart) :=
  (forEachFixupInSegmentChains (fun (s : Unit) _ _ => some (s, false)) segInfo fuel ⟨(), [], []⟩).map
    (fun r => r.1.starts.map (fun x => ⟨segIndex, segInfo.segmentOffset, x.1 * segInfo.pageSize + x.2⟩))

def chainStartsOf (m : Mem) (fuel : Nat) : List Nat → Option (List ChainStart)
  | [] => some []
  | i :: is =>
    if segInfoOffset m i = 0 then chainStartsOf m fuel is
    else
      (segmentChainStarts i (loadStartsInSegment m (segInfoOffset m i)) fuel).bind (fun l =>
        (chainStartsOf m fuel is).map (l ++ ·))

def chainStarts (m : Mem) (fuel : Nat) : Option (List ChainStart) :=
  chainStartsOf m fuel (List.range (loadNat m 0 4))

/-- The chain that an `APPLY` asks for. -/
def OldArm64eImage.chainStart (image : OldArm64eImage) (x : Nat × Nat) : ChainStart :=
  ⟨x.1, image.segOffset x.1, x.2⟩

/-- The table is built inside the buffer and starts one chain for each pair of the `APPLY` opcodes,
and no other. -/
def OldArm64eImage.StartsExact (image : OldArm64eImage) (stack : Mem) : Prop :=
  ∃ fuel m l, image.withChainStarts fuel stack = some (.ok m) ∧ chainStarts m fuel = some l ∧
    l.Nodup ∧ ∀ c, c ∈ l ↔ c ∈ image.threadedApplies.map image.chainStart

/-! ### When the tables are right -/

/-- An `APPLY` that the loop over the pages can take after those of a list: it is on a later page of
the segment it is in, or the first one for another segment. The variable `curSegIndex` is zero at
first, so segment zero cannot be the first, and it cannot be left. -/
def Follows (l : List (Nat × Nat)) (x : Nat × Nat) : Prop :=
  x.2 / 0x1000 < 65535 ∧
  match l.getLast? with
  | none => x.1 ≠ 0
  | some y =>
    (y.1 = x.1 ∧ y.2 / 0x1000 < x.2 / 0x1000) ∨ (y.1 ≠ x.1 ∧ y.1 ≠ 0 ∧ ∀ z ∈ l, z.1 ≠ x.1)

/-- Each `APPLY` follows those before it. -/
def Ordered (l : List (Nat × Nat)) : Prop := ∀ pre x post, l = pre ++ x :: post → Follows pre x

def tableBytes : List (Nat × Nat) → Nat
  | [] => 0
  | [x] => offsetofPageStart (x.2 / 0x1000 + 1)
  | x :: y :: l =>
    if x.1 = y.1 then tableBytes (y :: l)
    else offsetofPageStart (x.2 / 0x1000 + 1) + tableBytes (y :: l)

def OldArm64eImage.TablesFit (image : OldArm64eImage) : Prop :=
  Ordered image.threadedApplies ∧
    image.headerSize + tableBytes image.threadedApplies ≤ image.bufferSize

/-! ### Reading a table back -/

/-- The table starts a chain at this offset of its segment. -/
def HasStart (m : Mem) (seg o : Nat) : Prop :=
  o / 0x1000 < pageCount m seg ∧ pageStart m seg (o / 0x1000) = o % 0x1000

/-- The pages have 4K and none of them has more than one chain. -/
structure TableFormed (m : Mem) (seg : Nat) : Prop where
  pageSize : (loadStartsInSegment m seg).pageSize = 0x1000
  starts : ∀ q < pageCount m seg, pageStart m seg q = startNone ∨ pageStart m seg q < 0x1000

def pageChainStart (m : Mem) (seg i q : Nat) : Option ChainStart :=
  if pageStart m seg q = startNone then none
  else some ⟨i, (loadStartsInSegment m seg).segmentOffset, q * 0x1000 + pageStart m seg q⟩

section Table

variable {m : Mem} {seg : Nat}

lemma walkPages_of_single {segInfo : StartsInSegment} {fuel : Nat} {ps : List Nat}
    (h : ∀ q ∈ ps, segInfo.pageStart q = startNone ∨ segInfo.pageStart q < 0x1000)
    (w : SegmentWalk Unit) :
    (walkPages (fun s _ _ => some (s, false)) segInfo fuel ps w).map (fun r => (r.1.starts, r.2)) =
      some (w.starts ++ ps.filterMap (fun q =>
        if segInfo.pageStart q = startNone then none else some (q, segInfo.pageStart q)), false) := by
  induction ps generalizing w with
  | nil => simp [walkPages]
  | cons q ps ih =>
    have htail : ∀ q ∈ ps, segInfo.pageStart q = startNone ∨ segInfo.pageStart q < 0x1000 :=
      fun q' hq' => h q' (List.mem_cons_of_mem q hq')
    rw [walkPages, walkPage]
    rcases h q (by simp) with hnone | hlt
    · simp only [hnone, if_true, Option.bind_some, Bool.false_eq_true, if_false, List.filterMap_cons]
      exact ih htail (w.read q)
    · have hne : segInfo.pageStart q ≠ startNone := by
        unfold startNone
        omega
      have hmulti : ¬segInfo.IsMulti q := by
        unfold StartsInSegment.IsMulti startMulti
        rw [not_not, show (0x8000 : Nat) = 2 ^ 15 by norm_num, Nat.and_two_pow, Nat.testBit_lt_two_pow]
        · rfl
        · omega
      simp only [hne, hmulti, if_false, visitStart, SegmentWalk.read, Option.map_some,
        Option.bind_some, Bool.false_eq_true, List.filterMap_cons]
      rw [ih htail]
      simp

lemma segmentChainStarts_eq (h : TableFormed m seg) (i fuel : Nat) :
    segmentChainStarts i (loadStartsInSegment m seg) fuel =
      some ((List.range (pageCount m seg)).filterMap (pageChainStart m seg i)) := by
  have hsingle : ∀ q ∈ List.range (pageCount m seg),
      (loadStartsInSegment m seg).pageStart q = startNone ∨
        (loadStartsInSegment m seg).pageStart q < 0x1000 :=
    fun q hq => h.starts q (List.mem_range.mp hq)
  have hwalk := @walkPages_of_single (loadStartsInSegment m seg) fuel _ hsingle ⟨(), [], []⟩
  obtain ⟨r, hr, hstarts⟩ := Option.map_eq_some_iff.mp hwalk
  rw [Prod.mk.injEq] at hstarts
  have hrun : forEachFixupInSegmentChains (fun (s : Unit) _ _ => some (s, false))
      (loadStartsInSegment m seg) fuel ⟨(), [], []⟩ = some r := hr
  rw [segmentChainStarts, hrun, Option.map_some, hstarts.1, List.nil_append, List.map_filterMap]
  congr 2
  funext q
  have hload : (loadStartsInSegment m seg).pageStart q = pageStart m seg q := rfl
  rw [pageChainStart, hload, h.pageSize]
  split_ifs <;> rfl

lemma mem_pageChainStarts (h : TableFormed m seg) (i : Nat) (c : ChainStart) :
    c ∈ (List.range (pageCount m seg)).filterMap (pageChainStart m seg i) ↔
      c.segIndex = i ∧ c.segmentOffset = (loadStartsInSegment m seg).segmentOffset ∧
        HasStart m seg c.offset := by
  rw [List.mem_filterMap]
  constructor
  · rintro ⟨q, hq, hc⟩
    rw [List.mem_range] at hq
    unfold pageChainStart at hc
    split_ifs at hc with hnone
    have hlt := (h.starts q hq).resolve_left hnone
    rw [Option.some.injEq] at hc
    subst hc
    refine ⟨rfl, rfl, ?_⟩
    have hdiv : (q * 0x1000 + pageStart m seg q) / 0x1000 = q := by omega
    have hmod : (q * 0x1000 + pageStart m seg q) % 0x1000 = pageStart m seg q := by omega
    unfold HasStart
    rw [hdiv, hmod]
    exact ⟨hq, rfl⟩
  · rintro ⟨hi, hseg, hq, hstart⟩
    refine ⟨c.offset / 0x1000, List.mem_range.mpr hq, ?_⟩
    have hne : pageStart m seg (c.offset / 0x1000) ≠ startNone := by
      unfold startNone
      omega
    rw [pageChainStart, if_neg hne, Option.some.injEq, hstart, ← hi, ← hseg, Nat.div_add_mod' c.offset]

lemma nodup_pageChainStarts (h : TableFormed m seg) (i : Nat) :
    ((List.range (pageCount m seg)).filterMap (pageChainStart m seg i)).Nodup := by
  rw [List.Nodup, List.pairwise_filterMap]
  refine List.nodup_range.imp_of_mem (fun {p q} hp hq hne c hc c' hc' hcc => hne ?_)
  rw [List.mem_range] at hp hq
  subst hcc
  unfold pageChainStart at hc hc'
  split_ifs at hc hc' with hp' hq'
  have hplt := (h.starts p hp).resolve_left hp'
  have hqlt := (h.starts q hq).resolve_left hq'
  rw [Option.some.injEq] at hc hc'
  have hoff : p * 0x1000 + pageStart m seg p = q * 0x1000 + pageStart m seg q := by
    have h1 := congrArg ChainStart.offset hc
    have h2 := congrArg ChainStart.offset hc'
    exact h1.trans h2.symm
  omega

lemma chainStartsOf_formed {is : List Nat} (his : is.Nodup)
    (h : ∀ i ∈ is, segInfoOffset m i ≠ 0 → TableFormed m (segInfoOffset m i)) (fuel : Nat) :
    ∃ l, chainStartsOf m fuel is = some l ∧ l.Nodup ∧ ∀ c, c ∈ l ↔
      c.segIndex ∈ is ∧ segInfoOffset m c.segIndex ≠ 0 ∧
      c.segmentOffset = (loadStartsInSegment m (segInfoOffset m c.segIndex)).segmentOffset ∧
      HasStart m (segInfoOffset m c.segIndex) c.offset := by
  induction is with
  | nil => exact ⟨[], rfl, by simp, by simp⟩
  | cons i is ih =>
    rw [List.nodup_cons] at his
    obtain ⟨l, hl, hnodup, hmem⟩ := ih his.2 (fun j hj => h j (List.mem_cons_of_mem i hj))
    rw [chainStartsOf]
    by_cases hzero : segInfoOffset m i = 0
    · rw [if_pos hzero]
      refine ⟨l, hl, hnodup, fun c => ?_⟩
      rw [hmem, List.mem_cons]
      constructor
      · rintro ⟨hc, hrest⟩
        exact ⟨.inr hc, hrest⟩
      · rintro ⟨hc | hc, hne, hrest⟩
        · exact absurd (hc ▸ hzero) hne
        · exact ⟨hc, hne, hrest⟩
    · have hformed := h i (by simp) hzero
      rw [if_neg hzero, segmentChainStarts_eq hformed, hl]
      refine ⟨_, rfl, ?_, fun c => ?_⟩
      · rw [List.nodup_append]
        refine ⟨nodup_pageChainStarts hformed i, hnodup, fun a ha b hb hab => ?_⟩
        have hai := ((mem_pageChainStarts hformed i a).mp ha).1
        have hbi := ((hmem b).mp hb).1
        rw [← hab, hai] at hbi
        exact his.1 hbi
      · rw [List.mem_append, mem_pageChainStarts hformed, hmem, List.mem_cons]
        constructor
        · rintro (⟨hi, hseg, hstart⟩ | ⟨hi, hrest⟩)
          · rw [hi]
            exact ⟨.inl rfl, hzero, hseg, hstart⟩
          · exact ⟨.inr hi, hrest⟩
        · rintro ⟨hi | hi, hne, hseg, hstart⟩
          · rw [hi] at hseg hstart
            exact .inl ⟨hi, hseg, hstart⟩
          · exact .inr ⟨hi, hne, hseg, hstart⟩

end Table

/-! ### Writes -/

section Writes

variable {size : Nat}

lemma put_of_le {n : Nat} {m : Mem} {a v : Nat} (h : a + n ≤ size) :
    put size n m a v = .ok (storeNat n m a v) := if_pos h

lemma put_bind_of_le {α : Type} {n : Nat} {m : Mem} {a v : Nat} {f : Mem → Except BuildStop α}
    (h : a + n ≤ size) : (put size n m a v).bind f = f (storeNat n m a v) := by
  rw [put_of_le h]
  rfl

lemma of_put {n : Nat} {m m' : Mem} {a v : Nat} (h : put size n m a v = .ok m') :
    a + n ≤ size ∧ m' = storeNat n m a v := by
  unfold put at h
  split_ifs at h with hle
  rw [Except.ok.injEq] at h
  exact ⟨hle, h.symm⟩

lemma of_put_bind {α : Type} {n : Nat} {m : Mem} {a v : Nat} {f : Mem → Except BuildStop α} {r : α}
    (h : (put size n m a v).bind f = .ok r) : a + n ≤ size ∧ f (storeNat n m a v) = .ok r := by
  unfold put at h
  split_ifs at h with hle
  · exact ⟨hle, h⟩
  · simp [Except.bind] at h

lemma exceptBind {α β : Type} {e : Except BuildStop α} {f : α → Except BuildStop β} {r : β}
    (h : e.bind f = .ok r) : ∃ a, e = .ok a ∧ f a = .ok r := by
  cases e with
  | error e => simp [Except.bind] at h
  | ok a => exact ⟨a, rfl, h⟩

lemma exceptMap {α β : Type} {e : Except BuildStop α} {f : α → β} {r : β}
    (h : e.map f = .ok r) : ∃ a, e = .ok a ∧ f a = r := by
  cases e with
  | error e => simp [Except.map] at h
  | ok a => exact ⟨a, rfl, Except.ok.inj h⟩

/-- The loop over the pages up to `p` leaves what stands before the counter alone and marks the
pages it passes. When it starts behind `p`, it passes them all. -/
lemma skipPages_spec {curSeg p fuel : Nat} {m m' : Mem}
    (h : skipPages size curSeg p fuel m = .ok m') :
    p < 65536 ∧ pageCount m' curSeg = p ∧ (∀ a < curSeg + 20, m' a = m a) ∧
    ∀ q < p, pageStart m' curSeg q =
      if pageCount m curSeg ≤ q ∨ p < pageCount m curSeg then startNone
      else pageStart m curSeg q := by
  induction fuel generalizing m with
  | zero => simp [skipPages] at h
  | succ fuel ih =>
    have hlt : pageCount m curSeg < 65536 := loadNat_lt m (curSeg + 20) 2
    rw [skipPages] at h
    split_ifs at h with hp
    · rw [Except.ok.injEq] at h
      subst h
      refine ⟨hp ▸ hlt, hp, fun _ _ => rfl, fun q hq => ?_⟩
      rw [if_neg (by omega)]
    · obtain ⟨-, h⟩ := of_put_bind h
      obtain ⟨-, h⟩ := of_put_bind h
      obtain ⟨hp', hcount, hbelow, hstarts⟩ := ih h
      set c := pageCount m curSeg with hc
      set m₁ := storeNat 2 m (curSeg + offsetofPageStart c) startNone with hm₁
      have hnext : pageCount (storeNat 2 m₁ (curSeg + 20) (c + 1)) curSeg = (c + 1) % 65536 :=
        loadNat_storeNat_same 2 _ _ _
      refine ⟨hp', hcount, fun a ha => ?_, fun q hq => ?_⟩
      · rw [hbelow a ha, storeNat_apply_of_not_inWord (by unfold InWord; omega), hm₁,
          storeNat_apply_of_not_inWord (by unfold InWord offsetofPageStart; omega)]
      · rw [hstarts q hq, hnext]
        have hframe : pageStart (storeNat 2 m₁ (curSeg + 20) (c + 1)) curSeg q = pageStart m₁ curSeg q :=
          loadNat_storeNat_of_disjoint (by unfold offsetofPageStart; omega)
        rw [hframe]
        by_cases hqc : q = c
        · have hnone : pageStart m₁ curSeg q = startNone := by
            rw [hqc]
            exact loadNat_storeNat_same 2 _ _ _
          rw [hnone, if_pos (Or.inl hqc.ge), ite_self]
        · have hother : pageStart m₁ curSeg q = pageStart m curSeg q :=
            loadNat_storeNat_of_disjoint (by unfold offsetofPageStart; omega)
          rw [hother]
          have hiff : (c + 1) % 65536 ≤ q ∨ p < (c + 1) % 65536 ↔ c ≤ q ∨ p < c := by omega
          simp only [hiff]

lemma skipPages_ok {curSeg p fuel : Nat} {m : Mem} (hp : p < 65536)
    (hle : pageCount m curSeg ≤ p) (hfits : curSeg + offsetofPageStart p ≤ size)
    (hfuel : p - pageCount m curSeg < fuel) : ∃ m', skipPages size curSeg p fuel m = .ok m' := by
  induction fuel generalizing m with
  | zero => omega
  | succ fuel ih =>
    rw [skipPages]
    split_ifs with hc
    · exact ⟨m, rfl⟩
    · have hnext : pageCount (storeNat 2 (storeNat 2 m (curSeg + offsetofPageStart (pageCount m curSeg))
          startNone) (curSeg + 20) (pageCount m curSeg + 1)) curSeg = pageCount m curSeg + 1 := by
        have hsame := loadNat_storeNat_same 2 (storeNat 2 m (curSeg + offsetofPageStart
          (pageCount m curSeg)) startNone) (curSeg + 20) (pageCount m curSeg + 1)
        rw [pageCount, hsame]
        apply Nat.mod_eq_of_lt
        norm_num
        omega
      unfold offsetofPageStart at hfits
      rw [put_bind_of_le (by unfold offsetofPageStart; omega), put_bind_of_le (by omega)]
      exact ih (by rw [hnext]; omega) (by rw [hnext]; omega)

/-- The fields that the end of the callback writes. -/
lemma putStart_spec {curSeg p o segOff : Nat} {m m' : Mem} (hp : p < 65536)
    (h : putStart size curSeg p o segOff m = .ok m') :
    curSeg + offsetofPageStart (p + 1) ≤ size ∧ (∀ a < curSeg, m' a = m a) ∧
    (loadStartsInSegment m' curSeg).pageSize = 0x1000 ∧
    (loadStartsInSegment m' curSeg).segmentOffset = segOff % 2 ^ 64 ∧
    pageCount m' curSeg = (p + 1) % 65536 ∧ pageStart m' curSeg p = o % 0x1000 ∧
    ∀ q < p, pageStart m' curSeg q = pageStart m curSeg q := by
  obtain ⟨-, h⟩ := of_put_bind h
  obtain ⟨-, h⟩ := of_put_bind h
  obtain ⟨-, h⟩ := of_put_bind h
  obtain ⟨-, h⟩ := of_put_bind h
  obtain ⟨-, h⟩ := of_put_bind h
  obtain ⟨-, h⟩ := of_put_bind h
  obtain ⟨hfits, rfl⟩ := of_put h
  unfold offsetofPageStart at hfits
  refine ⟨?_, fun a ha => ?_, ?_, ?_, ?_, ?_, fun q hq => ?_⟩
  · unfold offsetofPageStart
    omega
  · simp (disch := simp only [InWord, offsetofPageStart]; omega) only [storeNat_apply_of_not_inWord]
  · simp (disch := first | omega | (unfold offsetofPageStart; omega)) only [loadStartsInSegment,
      loadNat_storeNat_of_disjoint, loadNat_storeNat_same]
    norm_num
  · simp (disch := first | omega | (unfold offsetofPageStart; omega)) only [loadStartsInSegment,
      loadNat_storeNat_of_disjoint, loadNat_storeNat_same]
  · simp (disch := first | omega | (unfold offsetofPageStart; omega)) only [pageCount,
      loadNat_storeNat_of_disjoint, loadNat_storeNat_same]
    norm_num
  · rw [pageStart, loadNat_storeNat_same]
    omega
  · simp (disch := first | omega | (unfold offsetofPageStart; omega)) only [pageStart,
      loadNat_storeNat_of_disjoint]

lemma putStart_ok {curSeg p o segOff : Nat} {m : Mem}
    (hfits : curSeg + offsetofPageStart (p + 1) ≤ size) :
    ∃ m', putStart size curSeg p o segOff m = .ok m' := by
  unfold offsetofPageStart at hfits
  unfold putStart
  rw [put_bind_of_le (by omega), put_bind_of_le (by omega), put_bind_of_le (by omega),
    put_bind_of_le (by omega), put_bind_of_le (by omega), put_bind_of_le (by omega)]
  exact ⟨_, put_of_le (by unfold offsetofPageStart; omega)⟩

end Writes

/-! ### One `APPLY` -/

/-- Where the table stands that an `APPLY` for a segment goes to. -/
def StartsBuilder.nextSeg (b : StartsBuilder) (segmentIndex : Nat) : Nat :=
  if segmentIndex = b.curSegIndex ∨ b.curSegIndex = 0 then b.curSeg
  else b.curSeg + offsetofPageStart (pageCount b.buffer b.curSeg)

/-- The number of pages that this table has so far. -/
def StartsBuilder.startCount (b : StartsBuilder) (segmentIndex : Nat) : Nat :=
  if segmentIndex = b.curSegIndex then pageCount b.buffer b.curSeg else 0

/-- The tables stand behind the header, each behind the end of the one before. Those that the header
names start one chain a page at most. -/
structure Placed (size segCount : Nat) (segOffset : Nat → Nat) (b : StartsBuilder) : Prop where
  header : offsetofSegInfo segCount ≤ b.curSeg
  count : loadNat b.buffer 0 4 = segCount
  room : b.curSegIndex ≠ 0 → b.curSeg + offsetofPageStart (pageCount b.buffer b.curSeg) ≤ size
  formed : ∀ i < segCount, segInfoOffset b.buffer i ≠ 0 →
    TableFormed b.buffer (segInfoOffset b.buffer i)
  placed : ∀ i < segCount, segInfoOffset b.buffer i ≠ 0 →
    (segInfoOffset b.buffer i = b.curSeg ∧
      (loadStartsInSegment b.buffer b.curSeg).segmentOffset = segOffset b.curSegIndex) ∨
    (offsetofSegInfo segCount ≤ segInfoOffset b.buffer i ∧
      segInfoOffset b.buffer i +
        offsetofPageStart (pageCount b.buffer (segInfoOffset b.buffer i)) ≤ b.curSeg)

structure Applied (size segCount : Nat) (segOffset : Nat → Nat) (b b' : StartsBuilder)
    (x : Nat × Nat) : Prop where
  page : applyPage x.2 < 65536
  curSegIndex : b'.curSegIndex = x.1
  curSeg : b'.curSeg = b.nextSeg x.1
  count : loadNat b'.buffer 0 4 = loadNat b.buffer 0 4
  segInfo : ∀ i < segCount, i ≠ x.1 → segInfoOffset b'.buffer i = segInfoOffset b.buffer i
  segInfo_self : segInfoOffset b'.buffer x.1 =
    if x.1 = b.curSegIndex then segInfoOffset b.buffer x.1 else b'.curSeg
  below : ∀ a, offsetofSegInfo segCount ≤ a → a < b'.curSeg → b'.buffer a = b.buffer a
  fits : b'.curSeg + offsetofPageStart (applyPage x.2 + 1) ≤ size
  pageSize : (loadStartsInSegment b'.buffer b'.curSeg).pageSize = 0x1000
  segmentOffset : (loadStartsInSegment b'.buffer b'.curSeg).segmentOffset = segOffset x.1 % 2 ^ 64
  pageCount : pageCount b'.buffer b'.curSeg = (applyPage x.2 + 1) % 65536
  start : pageStart b'.buffer b'.curSeg (applyPage x.2) = x.2 % 0x1000
  starts : ∀ q < applyPage x.2, pageStart b'.buffer b'.curSeg q =
    if b.startCount x.1 ≤ q ∨ applyPage x.2 < b.startCount x.1 then startNone
    else pageStart b.buffer b'.curSeg q

section Apply

variable {size segCount : Nat} {segOffset : Nat → Nat} {b b' : StartsBuilder} {x : Nat × Nat}

lemma nextSeg_lt (h : Placed size segCount segOffset b) (hsize : size < 2 ^ 32) {i : Nat}
    (hne : i ≠ b.curSegIndex) (hcur : b.curSegIndex ≠ 0) : b.nextSeg i < 2 ^ 32 := by
  have hroom := h.room hcur
  rw [StartsBuilder.nextSeg, if_neg (by simp [hne, hcur])]
  omega

lemma le_nextSeg (b : StartsBuilder) (i : Nat) : b.curSeg ≤ b.nextSeg i := by
  unfold StartsBuilder.nextSeg
  split_ifs <;> omega

lemma enterSegment_eq (h : Placed size segCount segOffset b) (hsize : size < 2 ^ 32) {i : Nat}
    (hne : i ≠ b.curSegIndex) :
    b.enterSegment size i =
      (put size 4 b.buffer (offsetofSegInfo i) (b.nextSeg i)).bind (fun m =>
        (put size 2 m (b.nextSeg i + 20) 0).map (fun m => ⟨m, i, b.nextSeg i⟩)) := by
  rw [StartsBuilder.enterSegment, if_neg hne]
  by_cases hcur : b.curSegIndex = 0
  · rw [if_pos hcur, StartsBuilder.nextSeg, if_pos (Or.inr hcur)]
  · have hlt := nextSeg_lt h hsize hne hcur
    have hnext : b.curSeg + offsetofPageStart (Chained.pageCount b.buffer b.curSeg) = b.nextSeg i := by
      rw [StartsBuilder.nextSeg, if_neg (by simp [hne, hcur])]
    rw [if_neg hcur, hnext]
    by_cases hfits : offsetofSegInfo i + 4 ≤ size
    · have hload : segInfoOffset (storeNat 4 b.buffer (offsetofSegInfo i) (b.nextSeg i)) i =
          b.nextSeg i := by
        rw [segInfoOffset, loadNat_storeNat_same]
        exact Nat.mod_eq_of_lt hlt
      rw [put_bind_of_le hfits, put_bind_of_le hfits]
      simp only [hload]
    · unfold put
      rw [if_neg hfits]
      rfl

lemma segInfoOffset_congr {m m' : Mem} {i : Nat} (h : ∀ a < offsetofSegInfo segCount, 4 ≤ a → m' a = m a)
    (hi : i < segCount) : segInfoOffset m' i = segInfoOffset m i := by
  apply loadNat_congr
  intro a ha
  unfold InWord offsetofSegInfo at *
  exact h a (by omega) (by omega)

/-- What going on to another segment does to the buffer. -/
structure Entered (segCount : Nat) (b b₁ : StartsBuilder) (i : Nat) : Prop where
  curSegIndex : b₁.curSegIndex = i
  curSeg : b₁.curSeg = b.nextSeg i
  frame : ∀ a, a < 4 ∨ offsetofSegInfo segCount ≤ a → a < b₁.curSeg + 20 → b₁.buffer a = b.buffer a
  starts : ∀ q, pageStart b₁.buffer b₁.curSeg q = pageStart b.buffer b₁.curSeg q
  segInfo : ∀ j < segCount, j ≠ i → segInfoOffset b₁.buffer j = segInfoOffset b.buffer j
  segInfo_self : segInfoOffset b₁.buffer i =
    if i = b.curSegIndex then segInfoOffset b.buffer i else b₁.curSeg
  pageCount : pageCount b₁.buffer b₁.curSeg = b.startCount i

lemma entered_of_enterSegment (h : Placed size segCount segOffset b) (hsize : size < 2 ^ 32) {i : Nat}
    (hi : i < segCount) {b₁ : StartsBuilder} (hb : b.enterSegment size i = .ok b₁) :
    Entered segCount b b₁ i := by
  have hheader := h.header
  unfold offsetofSegInfo at hheader
  by_cases hne : i = b.curSegIndex
  · rw [StartsBuilder.enterSegment, if_pos hne, Except.ok.injEq] at hb
    subst hb
    exact
      { curSegIndex := hne.symm
        curSeg := by rw [StartsBuilder.nextSeg, if_pos (Or.inl hne)]
        frame := fun _ _ _ => rfl
        starts := fun _ => rfl
        segInfo := fun _ _ _ => rfl
        segInfo_self := by rw [if_pos hne]
        pageCount := by rw [StartsBuilder.startCount, if_pos hne] }
  · rw [enterSegment_eq h hsize hne] at hb
    obtain ⟨hfits, hb⟩ := of_put_bind hb
    obtain ⟨hfits', hb⟩ : b.nextSeg i + 20 + 2 ≤ size ∧
        (⟨storeNat 2 (storeNat 4 b.buffer (offsetofSegInfo i) (b.nextSeg i)) (b.nextSeg i + 20) 0, i,
          b.nextSeg i⟩ : StartsBuilder) = b₁ := by
      unfold put at hb
      split_ifs at hb with hle
      · exact ⟨hle, Except.ok.inj hb⟩
      · simp [Except.map] at hb
    have hle := le_nextSeg b i
    subst hb
    unfold offsetofSegInfo at hfits
    refine
      { curSegIndex := rfl
        curSeg := rfl
        frame := fun a ha ha' => ?_
        starts := fun q => ?_
        segInfo := fun j hj hji => ?_
        segInfo_self := ?_
        pageCount := ?_ }
    · unfold offsetofSegInfo at ha
      dsimp only at ha' ⊢
      rw [storeNat_apply_of_not_inWord (by unfold InWord; omega),
        storeNat_apply_of_not_inWord (by unfold InWord offsetofSegInfo; omega)]
    · unfold pageStart
      dsimp only
      rw [loadNat_storeNat_of_disjoint (by unfold offsetofPageStart; omega),
        loadNat_storeNat_of_disjoint (by unfold offsetofSegInfo offsetofPageStart; omega)]
    · unfold segInfoOffset
      rw [loadNat_storeNat_of_disjoint (by unfold offsetofSegInfo; omega),
        loadNat_storeNat_of_disjoint (by unfold offsetofSegInfo; omega)]
    · rw [if_neg hne, segInfoOffset, loadNat_storeNat_of_disjoint (by unfold offsetofSegInfo; omega),
        loadNat_storeNat_same]
      apply Nat.mod_eq_of_lt
      norm_num
      omega
    · rw [StartsBuilder.startCount, if_neg hne]
      exact loadNat_storeNat_same 2 _ _ _

lemma applied_of_addChainStart (h : Placed size segCount segOffset b) (hsize : size < 2 ^ 32)
    {fuel : Nat} (hx : x.1 < segCount) (hb : addChainStart size segOffset fuel b x = .ok b') :
    Applied size segCount segOffset b b' x := by
  unfold addChainStart at hb
  obtain ⟨b₁, henter, hb⟩ := exceptBind hb
  obtain ⟨m₂, hskip, hb⟩ := exceptBind hb
  obtain ⟨m₃, hput, hb⟩ := exceptMap hb
  have e := entered_of_enterSegment h hsize hx henter
  obtain ⟨hp, hcount, hbelow, hstarts⟩ := skipPages_spec hskip
  obtain ⟨hfits, hbelow', hpageSize, hsegOff, hcount', hstart, hstarts'⟩ := putStart_spec hp hput
  have hheader : offsetofSegInfo segCount ≤ b₁.curSeg := by
    rw [e.curSeg]
    exact h.header.trans (le_nextSeg b x.1)
  have hframe : ∀ a < b₁.curSeg, m₃ a = b₁.buffer a := by
    intro a ha
    rw [hbelow' a ha, hbelow a (by omega)]
  have hinfo : ∀ j < segCount, segInfoOffset m₃ j = segInfoOffset b₁.buffer j := by
    intro j hj
    exact segInfoOffset_congr (fun a ha _ => hframe a (by omega)) hj
  unfold offsetofSegInfo at hheader
  subst hb
  refine
    { page := hp
      curSegIndex := e.curSegIndex
      curSeg := e.curSeg
      count := loadNat_congr (fun a ha => ?_)
      segInfo := fun j hj hji => (hinfo j hj).trans (e.segInfo j hj hji)
      segInfo_self := (hinfo x.1 hx).trans e.segInfo_self
      below := fun a ha ha' => ?_
      fits := hfits
      pageSize := hpageSize
      segmentOffset := hsegOff
      pageCount := hcount'
      start := hstart
      starts := fun q hq => ?_ }
  · unfold InWord at ha
    dsimp only
    rw [hframe a (by omega), e.frame a (.inl (by omega)) (by omega)]
  · dsimp only at ha' ⊢
    rw [hframe a ha', e.frame a (.inr ha) (by omega)]
  · dsimp only
    rw [hstarts' q hq, hstarts q hq, e.pageCount, e.starts q]

/-- A table that ends before the current one is left alone. -/
lemma Applied.table_below (h : Applied size segCount segOffset b b' x) {seg : Nat}
    (hseg : offsetofSegInfo segCount ≤ seg)
    (hend : seg + offsetofPageStart (Chained.pageCount b.buffer seg) ≤ b'.curSeg) :
    Chained.pageCount b'.buffer seg = Chained.pageCount b.buffer seg ∧
    (∀ q < Chained.pageCount b.buffer seg,
      Chained.pageStart b'.buffer seg q = Chained.pageStart b.buffer seg q) ∧
    (loadStartsInSegment b'.buffer seg).pageSize = (loadStartsInSegment b.buffer seg).pageSize ∧
    (loadStartsInSegment b'.buffer seg).segmentOffset =
      (loadStartsInSegment b.buffer seg).segmentOffset := by
  have hbelow := h.below
  unfold offsetofPageStart at hend
  refine ⟨?_, fun q hq => ?_, ?_, ?_⟩
  · apply loadNat_congr
    intro a ha
    unfold InWord at ha
    exact hbelow a (by omega) (by omega)
  · apply loadNat_congr
    intro a ha
    unfold InWord offsetofPageStart at ha
    exact hbelow a (by omega) (by omega)
  · apply loadNat_congr
    intro a ha
    unfold InWord at ha
    exact hbelow a (by omega) (by omega)
  · apply loadNat_congr
    intro a ha
    unfold InWord at ha
    exact hbelow a (by omega) (by omega)

lemma Applied.formed_below (h : Applied size segCount segOffset b b' x) {seg : Nat}
    (hseg : offsetofSegInfo segCount ≤ seg)
    (hend : seg + offsetofPageStart (Chained.pageCount b.buffer seg) ≤ b'.curSeg)
    (hformed : TableFormed b.buffer seg) : TableFormed b'.buffer seg := by
  obtain ⟨hcount, hstarts, hsize, -⟩ := h.table_below hseg hend
  refine ⟨hsize.trans hformed.pageSize, fun q hq => ?_⟩
  rw [hcount] at hq
  rw [hstarts q hq]
  exact hformed.starts q hq

lemma Applied.hasStart_below (h : Applied size segCount segOffset b b' x) {seg : Nat}
    (hseg : offsetofSegInfo segCount ≤ seg)
    (hend : seg + offsetofPageStart (Chained.pageCount b.buffer seg) ≤ b'.curSeg) (o : Nat) :
    HasStart b'.buffer seg o ↔ HasStart b.buffer seg o := by
  obtain ⟨hcount, hstarts, -⟩ := h.table_below hseg hend
  unfold HasStart
  rw [hcount]
  constructor
  · rintro ⟨hq, ho⟩
    exact ⟨hq, (hstarts _ hq).symm.trans ho⟩
  · rintro ⟨hq, ho⟩
    exact ⟨hq, (hstarts _ hq).trans ho⟩

/-- The chains of the current table: the new one, and the old ones when the loop over the pages did
not run around. -/
lemma Applied.hasStart_current (h : Applied size segCount segOffset b b' x) (o : Nat) :
    HasStart b'.buffer b'.curSeg o ↔ applyPage x.2 < 65535 ∧
      ((o / 0x1000 = applyPage x.2 ∧ o % 0x1000 = x.2 % 0x1000) ∨
        (b.startCount x.1 ≤ applyPage x.2 ∧ o / 0x1000 < b.startCount x.1 ∧
          pageStart b.buffer b'.curSeg (o / 0x1000) = o % 0x1000)) := by
  have hp := h.page
  unfold HasStart
  rw [h.pageCount]
  constructor
  · rintro ⟨hq, ho⟩
    have hlt : applyPage x.2 < 65535 := by omega
    refine ⟨hlt, ?_⟩
    by_cases heq : o / 0x1000 = applyPage x.2
    · left
      rw [heq, h.start] at ho
      exact ⟨heq, ho.symm⟩
    · right
      rw [h.starts _ (by omega)] at ho
      split_ifs at ho with hskip
      · unfold startNone at ho
        omega
      · exact ⟨by omega, by omega, ho⟩
  · rintro ⟨hlt, ⟨heq, ho⟩ | ⟨hle, hq, ho⟩⟩
    · rw [heq, h.start]
      exact ⟨by omega, ho.symm⟩
    · rw [h.starts _ (by omega), if_neg (by omega)]
      exact ⟨by omega, ho⟩

lemma Applied.hasStart_entered (h : Applied size segCount segOffset b b' x)
    (hne : x.1 ≠ b.curSegIndex) (o : Nat) :
    HasStart b'.buffer b'.curSeg o ↔ applyPage x.2 < 65535 ∧
      o / 0x1000 = applyPage x.2 ∧ o % 0x1000 = x.2 % 0x1000 := by
  rw [h.hasStart_current, StartsBuilder.startCount, if_neg hne]
  simp

lemma Applied.curSeg_eq (h : Applied size segCount segOffset b b' x)
    (heq : x.1 = b.curSegIndex) : b'.curSeg = b.curSeg := by
  rw [h.curSeg, StartsBuilder.nextSeg, if_pos (Or.inl heq)]

lemma Applied.hasStart_same (h : Applied size segCount segOffset b b' x)
    (heq : x.1 = b.curSegIndex) (o : Nat) :
    HasStart b'.buffer b'.curSeg o ↔ applyPage x.2 < 65535 ∧
      ((o / 0x1000 = applyPage x.2 ∧ o % 0x1000 = x.2 % 0x1000) ∨
        (Chained.pageCount b.buffer b.curSeg ≤ applyPage x.2 ∧ HasStart b.buffer b.curSeg o)) := by
  rw [h.hasStart_current, StartsBuilder.startCount, if_pos heq, h.curSeg_eq heq]
  rfl

lemma Applied.formed_current (h : Applied size segCount segOffset b b' x)
    (hold : x.1 = b.curSegIndex → TableFormed b.buffer b.curSeg) : TableFormed b'.buffer b'.curSeg := by
  refine ⟨h.pageSize, fun q hq => ?_⟩
  have hp := h.page
  rw [h.pageCount] at hq
  by_cases heq : q = applyPage x.2
  · right
    rw [heq, h.start]
    exact Nat.mod_lt _ (by norm_num)
  · rw [h.starts q (by omega)]
    split_ifs with hskip
    · left
      rfl
    · have hsame : x.1 = b.curSegIndex := by
        by_contra hne
        rw [StartsBuilder.startCount, if_neg hne] at hskip
        omega
      rw [StartsBuilder.startCount, if_pos hsame] at hskip
      rw [h.curSeg_eq hsame]
      exact (hold hsame).starts q (by omega)

/-- A segment that is not entered keeps its table, or shares the current one. -/
lemma Applied.segInfo_cases (h : Applied size segCount segOffset b b' x) {i : Nat}
    (hi : i < segCount) :
    segInfoOffset b'.buffer i = segInfoOffset b.buffer i ∨
      (i = x.1 ∧ x.1 ≠ b.curSegIndex ∧ segInfoOffset b'.buffer i = b'.curSeg) := by
  by_cases hix : i = x.1
  · rw [hix, h.segInfo_self]
    split_ifs with heq
    · exact .inl rfl
    · exact .inr ⟨rfl, heq, rfl⟩
  · exact .inl (h.segInfo i hi hix)

/-- Where the table of a segment is after an `APPLY`: it is the current one, or it ended before and
was left alone. -/
lemma Placed.table_cases (hp : Placed size segCount segOffset b)
    (h : Applied size segCount segOffset b b' x) {i : Nat} (hi : i < segCount)
    (hne : segInfoOffset b'.buffer i ≠ 0) :
    segInfoOffset b'.buffer i = b'.curSeg ∨
      (segInfoOffset b'.buffer i = segInfoOffset b.buffer i ∧
        offsetofSegInfo segCount ≤ segInfoOffset b.buffer i ∧
        segInfoOffset b.buffer i +
          offsetofPageStart (Chained.pageCount b.buffer (segInfoOffset b.buffer i)) ≤ b'.curSeg) := by
  rcases h.segInfo_cases hi with hsame | ⟨-, -, hcur⟩
  · rw [hsame] at hne
    rcases hp.placed i hi hne with ⟨hcur, -⟩ | ⟨hle, hend⟩
    · rw [hsame, hcur, h.curSeg, StartsBuilder.nextSeg]
      split_ifs with hstay
      · exact .inl rfl
      · exact .inr ⟨rfl, hp.header, le_rfl⟩
    · refine .inr ⟨hsame, hle, hend.trans ?_⟩
      rw [h.curSeg]
      exact le_nextSeg b x.1
  · exact .inl hcur

theorem Placed.apply (hp : Placed size segCount segOffset b) (hso : ∀ i, segOffset i < 2 ^ 64)
    (h : Applied size segCount segOffset b b' x) : Placed size segCount segOffset b' where
  header := by
    rw [h.curSeg]
    exact hp.header.trans (le_nextSeg b x.1)
  count := h.count.trans hp.count
  room := by
    intro _
    have hfits := h.fits
    have hle : (applyPage x.2 + 1) % 65536 ≤ applyPage x.2 + 1 := Nat.mod_le _ _
    rw [h.pageCount]
    unfold offsetofPageStart at *
    omega
  formed := by
    intro i hi hne
    rcases hp.table_cases h hi hne with hcur | ⟨hsame, hle, hend⟩
    · rw [hcur]
      apply h.formed_current
      intro heq
      rcases h.segInfo_cases hi with hold | ⟨-, hx, -⟩
      · rw [h.curSeg_eq heq] at hcur
        rw [← hcur, hold]
        exact hp.formed i hi (hold ▸ hne)
      · exact absurd heq hx
    · rw [hsame]
      exact h.formed_below hle hend (hp.formed i hi (hsame ▸ hne))
  placed := by
    intro i hi hne
    rcases hp.table_cases h hi hne with hcur | ⟨hsame, hle, hend⟩
    · left
      rw [h.segmentOffset, h.curSegIndex]
      exact ⟨hcur, Nat.mod_eq_of_lt (hso _)⟩
    · right
      rw [hsame, (h.table_below hle hend).1]
      exact ⟨hle, hend⟩

end Apply

end Dyld.Chained
