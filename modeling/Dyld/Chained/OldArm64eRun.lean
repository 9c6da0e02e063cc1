import Dyld.Chained.OldArm64eStarts

/-!
# Runs of `withChainStarts`

An `APPLY` that follows those before it adds its chain to the tables and leaves the others as they
are. Any other loses a chain, its own or an earlier one, and a chain that is lost is not found again
unless the opcodes repeat it.
-/

namespace Dyld.Chained

open Dyld.Lib

def Started (segCount : Nat) (b : StartsBuilder) (c : ChainStart) : Prop :=
  c.segIndex < segCount ∧ segInfoOffset b.buffer c.segIndex ≠ 0 ∧
  c.segmentOffset = (loadStartsInSegment b.buffer (segInfoOffset b.buffer c.segIndex)).segmentOffset ∧
  HasStart b.buffer (segInfoOffset b.buffer c.segIndex) c.offset

/-- The chain that an `APPLY` asks for, when segments start where `segOffset` says. -/
def startOf (segOffset : Nat → Nat) (x : Nat × Nat) : ChainStart := ⟨x.1, segOffset x.1, x.2⟩

section Step

variable {size segCount : Nat} {segOffset : Nat → Nat} {b b' : StartsBuilder} {x y : Nat × Nat}

lemma applyPage_of_lt {o : Nat} (h : o / 0x1000 < 65535) : applyPage o = o / 0x1000 := by
  unfold applyPage
  omega

lemma startOf_injective : Function.Injective (startOf segOffset) := by
  intro x y h
  simp only [startOf, ChainStart.mk.injEq] at h
  exact Prod.ext h.1 h.2.2

lemma eq_of_newStart (hpage : x.2 / 0x1000 < 65535) {o : Nat} :
    (o / 0x1000 = applyPage x.2 ∧ o % 0x1000 = x.2 % 0x1000) ↔ o = x.2 := by
  rw [applyPage_of_lt hpage]
  omega

/-- Another segment, whose table is not the current one, keeps its chains. -/
lemma started_apply_other (hp : Placed size segCount segOffset b)
    (h : Applied size segCount segOffset b b' x) {c : ChainStart} (hne : c.segIndex ≠ x.1)
    (hown : c.segIndex < segCount → segInfoOffset b.buffer c.segIndex ≠ 0 →
      segInfoOffset b.buffer c.segIndex ≠ b'.curSeg) :
    Started segCount b' c ↔ Started segCount b c := by
  unfold Started
  apply and_congr_right
  intro hc
  rw [h.segInfo _ hc hne]
  apply and_congr_right
  intro hzero
  have hinfo := h.segInfo _ hc hne
  rcases hp.table_cases h hc (hinfo ▸ hzero) with hcur | ⟨-, hle, hend⟩
  · exact absurd (hinfo.symm.trans hcur) (hown hc hzero)
  · rw [h.hasStart_below hle hend, (h.table_below hle hend).2.2.2]

lemma started_apply_entered (hp : Placed size segCount segOffset b) (hso : ∀ i, segOffset i < 2 ^ 64)
    (h : Applied size segCount segOffset b b' x) (hx : x.1 < segCount)
    (hpage : x.2 / 0x1000 < 65535) {c : ChainStart} (hc : c.segIndex = x.1)
    (hne : x.1 ≠ b.curSegIndex) : Started segCount b' c ↔ c = startOf segOffset x := by
  have hinfo : segInfoOffset b'.buffer x.1 = b'.curSeg := by rw [h.segInfo_self, if_neg hne]
  have hpos : b'.curSeg ≠ 0 := by
    have hheader := (hp.apply hso h).header
    unfold offsetofSegInfo at hheader
    omega
  have hlt : applyPage x.2 < 65535 := by rwa [applyPage_of_lt hpage]
  unfold Started
  rw [hc, hinfo, h.segmentOffset, Nat.mod_eq_of_lt (hso _), h.hasStart_entered hne,
    eq_of_newStart hpage]
  constructor
  · rintro ⟨-, -, hseg, -, ho⟩
    cases c
    simp_all [startOf]
  · rintro rfl
    exact ⟨hx, hpos, rfl, hlt, rfl⟩

lemma started_apply_same (hso : ∀ i, segOffset i < 2 ^ 64)
    (h : Applied size segCount segOffset b b' x) (hx : x.1 < segCount)
    (hpage : x.2 / 0x1000 < 65535) {c : ChainStart} (hc : c.segIndex = x.1)
    (heq : x.1 = b.curSegIndex) (hcur : segInfoOffset b.buffer x.1 = b.curSeg) (hpos : b.curSeg ≠ 0)
    (hseg : (loadStartsInSegment b.buffer b.curSeg).segmentOffset = segOffset x.1)
    (hle : pageCount b.buffer b.curSeg ≤ x.2 / 0x1000) :
    Started segCount b' c ↔ Started segCount b c ∨ c = startOf segOffset x := by
  have hinfo : segInfoOffset b'.buffer x.1 = b'.curSeg := by
    rw [h.segInfo_self, if_pos heq, hcur, h.curSeg_eq heq]
  have hpage' := applyPage_of_lt hpage
  have hpos' : b'.curSeg ≠ 0 := by rwa [h.curSeg_eq heq]
  unfold Started
  rw [hc, hinfo, h.segmentOffset, Nat.mod_eq_of_lt (hso _), h.hasStart_same heq,
    eq_of_newStart hpage, hcur, hseg, hpage']
  constructor
  · rintro ⟨-, -, hs, -, ho | ⟨-, ho⟩⟩
    · right
      cases c
      simp_all [startOf]
    · exact .inl ⟨hx, hpos, hs, ho⟩
  · rintro (⟨-, -, hs, ho⟩ | rfl)
    · exact ⟨hx, hpos', hs, hpage, .inr ⟨hle, ho⟩⟩
    · exact ⟨hx, hpos', rfl, hpage, .inl rfl⟩

/-- An `APPLY` does not bring back a chain that another one asked for. -/
lemma started_of_apply (hp : Placed size segCount segOffset b) (hso : ∀ i, segOffset i < 2 ^ 64)
    (hinj : ∀ i < segCount, ∀ j < segCount, segOffset i = segOffset j → i = j)
    (h : Applied size segCount segOffset b b' y) (hy : y.1 < segCount)
    (hpage : y.2 / 0x1000 < 65535) (hne : x ≠ y)
    (hs : Started segCount b' (startOf segOffset x)) : Started segCount b (startOf segOffset x) := by
  obtain ⟨hx, hzero, hseg, hstart⟩ := hs
  simp only [startOf] at hx hzero hseg hstart
  rcases hp.table_cases h hx hzero with hcur | ⟨hsame, hle, hend⟩
  · -- the current table belongs to the segment of the `APPLY`
    rw [hcur, h.segmentOffset, Nat.mod_eq_of_lt (hso _)] at hseg
    have hxy : x.1 = y.1 := hinj _ hx _ hy hseg
    rw [hcur] at hstart
    by_cases heq : y.1 = b.curSegIndex
    · rw [h.hasStart_same heq, eq_of_newStart hpage] at hstart
      have hinfo : segInfoOffset b.buffer x.1 = b.curSeg := by
        rw [hxy, h.segInfo_self, if_pos heq, h.curSeg_eq heq] at hcur
        rw [hxy, hcur]
      rcases hstart.2 with ho | ⟨-, ho⟩
      · exact absurd (Prod.ext hxy ho) hne
      · have hpos : b.curSeg ≠ 0 := by
          rw [hcur, h.curSeg_eq heq] at hzero
          exact hzero
        refine ⟨hx, by simpa [startOf, hinfo] using hpos, ?_, by simpa [startOf, hinfo] using ho⟩
        rcases hp.placed x.1 hx (by rw [hinfo]; exact hpos) with ⟨-, hoff⟩ | ⟨-, hend⟩
        · have hcurIndex : x.1 = b.curSegIndex := hxy.trans heq
          simp only [startOf]
          rw [hinfo, hoff, hcurIndex]
        · rw [hinfo] at hend
          unfold offsetofPageStart at hend
          omega
    · rw [h.hasStart_entered heq, eq_of_newStart hpage] at hstart
      exact absurd (Prod.ext hxy hstart.2) hne
  · rw [hsame] at hzero hseg hstart
    rw [h.hasStart_below hle hend] at hstart
    rw [(h.table_below hle hend).2.2.2] at hseg
    exact ⟨hx, hzero, hseg, hstart⟩

end Step

/-! ### Runs in order -/

/-- What the last `APPLY` of a list, if there is one, leaves in the variables. -/
def AtLast (segCount : Nat) (l : List (Nat × Nat)) (b : StartsBuilder) : Prop :=
  match l.getLast? with
  | none => b.curSegIndex = 0 ∧ b.curSeg = offsetofSegInfo segCount
  | some y => b.curSegIndex = y.1 ∧ segInfoOffset b.buffer y.1 = b.curSeg ∧
      pageCount b.buffer b.curSeg = y.2 / 0x1000 + 1 ∧
      b.curSeg + offsetofPageStart (y.2 / 0x1000 + 1) = offsetofSegInfo segCount + tableBytes l

/-- The tables start the chains of a list and the current table belongs to one segment. -/
structure Built (size segCount : Nat) (segOffset : Nat → Nat) (l : List (Nat × Nat))
    (b : StartsBuilder) : Prop where
  placed : Placed size segCount segOffset b
  atLast : AtLast segCount l b
  unused : ∀ i < segCount, (∀ z ∈ l, z.1 ≠ i) → segInfoOffset b.buffer i = 0
  own : ∀ i < segCount, segInfoOffset b.buffer i = b.curSeg → i = b.curSegIndex
  started : ∀ c, Started segCount b c ↔ c ∈ l.map (startOf segOffset)

section Bytes

lemma tableBytes_cons_cons (x y : Nat × Nat) (l : List (Nat × Nat)) :
    tableBytes (x :: y :: l) = if x.1 = y.1 then tableBytes (y :: l)
      else offsetofPageStart (x.2 / 0x1000 + 1) + tableBytes (y :: l) := rfl

lemma tableBytes_append {l : List (Nat × Nat)} {y : Nat × Nat} (hlast : l.getLast? = some y) (x : Nat × Nat) :
    tableBytes (l ++ [x]) + (if y.1 = x.1 then offsetofPageStart (y.2 / 0x1000 + 1) else 0) =
      tableBytes l + offsetofPageStart (x.2 / 0x1000 + 1) := by
  induction l with
  | nil => simp at hlast
  | cons z l ih =>
    cases l with
    | nil =>
      simp only [List.getLast?_singleton, Option.some.injEq] at hlast
      subst hlast
      simp only [List.cons_append, List.nil_append, tableBytes]
      split_ifs <;> omega
    | cons w l =>
      have ih' := ih (by simpa using hlast)
      rw [List.cons_append, List.cons_append, tableBytes_cons_cons, tableBytes_cons_cons]
      rw [List.cons_append] at ih'
      split_ifs at ih' ⊢ <;> omega

lemma tableBytes_le_append {l : List (Nat × Nat)} {x : Nat × Nat} (h : Follows l x) :
    tableBytes l ≤ tableBytes (l ++ [x]) := by
  cases hlast : l.getLast? with
  | none =>
    rw [List.getLast?_eq_none_iff] at hlast
    subst hlast
    simp [tableBytes]
  | some y =>
    have hcases := h.2
    rw [hlast] at hcases
    have happend := tableBytes_append hlast x
    rcases hcases with ⟨hxy, hlt⟩ | ⟨hxy, -⟩
    · rw [if_pos hxy] at happend
      unfold offsetofPageStart at happend
      omega
    · rw [if_neg hxy] at happend
      omega

end Bytes

section Ordered

variable {size segCount : Nat} {segOffset : Nat → Nat} {b b' : StartsBuilder}
  {l : List (Nat × Nat)} {x : Nat × Nat}

lemma mem_startOf_append {c : ChainStart} :
    c ∈ (l ++ [x]).map (startOf segOffset) ↔
      c ∈ l.map (startOf segOffset) ∨ c = startOf segOffset x := by
  simp [eq_comm]

lemma curSeg_ne_zero (hp : Placed size segCount segOffset b) : b.curSeg ≠ 0 := by
  have hheader := hp.header
  unfold offsetofSegInfo at hheader
  omega

/-- A later page of the current segment. -/
lemma Built.apply_same (hb : Built size segCount segOffset l b) (hso : ∀ i, segOffset i < 2 ^ 64)
    (h : Applied size segCount segOffset b b' x) (hx : x.1 < segCount)
    (hpage : x.2 / 0x1000 < 65535) {y : Nat × Nat} (hlast : l.getLast? = some y) (hxy : y.1 = x.1)
    (hlt : y.2 / 0x1000 < x.2 / 0x1000) : Built size segCount segOffset (l ++ [x]) b' := by
  have hat := hb.atLast
  rw [AtLast, hlast] at hat
  obtain ⟨hcurIndex, hinfo, hcount, hbytes⟩ := hat
  have heq : x.1 = b.curSegIndex := by rw [hcurIndex, hxy]
  have hcur := h.curSeg_eq heq
  have hpos := curSeg_ne_zero hb.placed
  have hseg : (loadStartsInSegment b.buffer b.curSeg).segmentOffset = segOffset x.1 := by
    rcases hb.placed.placed x.1 hx (by rw [← hxy, hinfo]; exact hpos) with ⟨-, hseg⟩ | ⟨-, hend⟩
    · rw [hseg, heq]
    · rw [← hxy, hinfo] at hend
      unfold offsetofPageStart at hend
      omega
  have hkeep : ∀ i < segCount, segInfoOffset b'.buffer i = segInfoOffset b.buffer i := by
    intro i hi
    rcases h.segInfo_cases hi with hsame | ⟨-, hne, -⟩
    · exact hsame
    · exact absurd heq hne
  refine
    { placed := hb.placed.apply hso h
      atLast := ?_
      unused := fun i hi hunused => ?_
      own := fun i hi hi' => ?_
      started := fun c => ?_ }
  · have happend := tableBytes_append hlast x
    rw [if_pos hxy] at happend
    rw [AtLast, List.getLast?_concat]
    refine ⟨h.curSegIndex, ?_, ?_, ?_⟩
    · rw [hkeep _ hx, ← hxy, hinfo, hcur]
    · rw [h.pageCount, applyPage_of_lt hpage]
      omega
    · rw [hcur]
      omega
  · rw [hkeep i hi]
    exact hb.unused i hi (fun z hz => hunused z (List.mem_append_left _ hz))
  · rw [hkeep i hi, hcur] at hi'
    rw [h.curSegIndex, heq]
    exact hb.own i hi hi'
  · rw [mem_startOf_append, ← hb.started]
    by_cases hc : c.segIndex = x.1
    · apply started_apply_same hso h hx hpage hc heq (by rw [← hxy, hinfo]) hpos hseg
      rw [hcount]
      omega
    · rw [started_apply_other hb.placed h hc]
      · constructor
        · exact .inl
        · rintro (hs | rfl)
          · exact hs
          · exact absurd rfl hc
      · intro hlt _ hcur'
        exact hc ((hb.own _ hlt (by rw [hcur', hcur])).trans heq.symm)

lemma Built.apply_entered (hb : Built size segCount segOffset l b) (hso : ∀ i, segOffset i < 2 ^ 64)
    (h : Applied size segCount segOffset b b' x) (hx : x.1 < segCount)
    (hpage : x.2 / 0x1000 < 65535) (hne : x.1 ≠ b.curSegIndex) (hnew : ∀ z ∈ l, z.1 ≠ x.1)
    (hapart : ∀ i < segCount, segInfoOffset b.buffer i ≠ 0 → segInfoOffset b.buffer i ≠ b'.curSeg)
    (hcur : b'.curSeg + offsetofPageStart (x.2 / 0x1000 + 1) =
      offsetofSegInfo segCount + tableBytes (l ++ [x])) :
    Built size segCount segOffset (l ++ [x]) b' := by
  have hself : segInfoOffset b'.buffer x.1 = b'.curSeg := by rw [h.segInfo_self, if_neg hne]
  refine
    { placed := hb.placed.apply hso h
      atLast := ?_
      unused := fun i hi hunused => ?_
      own := fun i hi hi' => ?_
      started := fun c => ?_ }
  · rw [AtLast, List.getLast?_concat]
    refine ⟨h.curSegIndex, hself, ?_, hcur⟩
    rw [h.pageCount, applyPage_of_lt hpage]
    omega
  · rw [h.segInfo i hi (hunused x (by simp)).symm]
    exact hb.unused i hi (fun z hz => hunused z (List.mem_append_left _ hz))
  · rw [h.curSegIndex]
    by_contra hix
    rw [h.segInfo i hi hix] at hi'
    have hpos := curSeg_ne_zero (hb.placed.apply hso h)
    exact hapart i hi (by rw [hi']; exact hpos) hi'
  · rw [mem_startOf_append, ← hb.started]
    by_cases hc : c.segIndex = x.1
    · rw [started_apply_entered hb.placed hso h hx hpage hc hne]
      constructor
      · exact .inr
      · rintro (⟨-, hzero, -⟩ | hs)
        · rw [hc, hb.unused x.1 hx hnew] at hzero
          exact absurd rfl hzero
        · exact hs
    · rw [started_apply_other hb.placed h hc (fun hlt hzero => hapart _ hlt hzero)]
      constructor
      · exact .inl
      · rintro (hs | rfl)
        · exact hs
        · exact absurd rfl hc

theorem Built.apply (hb : Built size segCount segOffset l b) (hso : ∀ i, segOffset i < 2 ^ 64)
    (h : Applied size segCount segOffset b b' x) (hx : x.1 < segCount) (hf : Follows l x) :
    Built size segCount segOffset (l ++ [x]) b' := by
  have hat := hb.atLast
  obtain ⟨hpage, hf⟩ := hf
  rw [AtLast] at hat
  cases hlast : l.getLast? with
  | none =>
    rw [hlast] at hat hf
    obtain ⟨hcurIndex, hcurSeg⟩ := hat
    have hnil : l = [] := List.getLast?_eq_none_iff.mp hlast
    subst hnil
    apply hb.apply_entered hso h hx hpage (by rw [hcurIndex]; exact hf) (by simp)
    · intro i hi hzero
      exact absurd (hb.unused i hi (by simp)) hzero
    · rw [h.curSeg, StartsBuilder.nextSeg, if_pos (Or.inr hcurIndex), hcurSeg]
      rfl
  | some y =>
    rw [hlast] at hat hf
    rcases hf with ⟨hxy, hlt⟩ | ⟨hxy, hy, hnew⟩
    · exact hb.apply_same hso h hx hpage hlast hxy hlt
    · obtain ⟨hcurIndex, -, hcount, hbytes⟩ := hat
      have hne : x.1 ≠ b.curSegIndex := by
        rw [hcurIndex]
        exact hxy.symm
      have hcur : b'.curSeg = b.curSeg + offsetofPageStart (y.2 / 0x1000 + 1) := by
        rw [h.curSeg, StartsBuilder.nextSeg, if_neg (by simp [hcurIndex, hy, hxy.symm]), hcount]
      apply hb.apply_entered hso h hx hpage hne hnew
      · intro i hi hzero hi'
        rw [hcur] at hi'
        rcases hb.placed.placed i hi hzero with ⟨hend, -⟩ | ⟨-, hend⟩
        all_goals
          unfold offsetofPageStart at *
          omega
      · have happend := tableBytes_append hlast x
        rw [if_neg hxy] at happend
        omega

/-- The table that an `APPLY` in order goes to has fewer pages so far, and ends with the tables of
the list that the `APPLY` is added to. -/
lemma Built.nextSeg_eq (hb : Built size segCount segOffset l b) (hf : Follows l x) :
    b.startCount x.1 ≤ x.2 / 0x1000 ∧
    b.nextSeg x.1 + offsetofPageStart (x.2 / 0x1000 + 1) =
      offsetofSegInfo segCount + tableBytes (l ++ [x]) := by
  have hat := hb.atLast
  obtain ⟨-, hf⟩ := hf
  rw [AtLast] at hat
  unfold StartsBuilder.startCount StartsBuilder.nextSeg
  cases hlast : l.getLast? with
  | none =>
    rw [hlast] at hat hf
    obtain ⟨hcurIndex, hcurSeg⟩ := hat
    have hnil : l = [] := List.getLast?_eq_none_iff.mp hlast
    subst hnil
    rw [if_neg (by rw [hcurIndex]; exact hf), if_pos (Or.inr hcurIndex), hcurSeg]
    exact ⟨Nat.zero_le _, rfl⟩
  | some y =>
    rw [hlast] at hat hf
    obtain ⟨hcurIndex, -, hcount, hbytes⟩ := hat
    have happend := tableBytes_append hlast x
    rcases hf with ⟨hxy, hlt⟩ | ⟨hxy, hy, -⟩
    · rw [if_pos hxy] at happend
      rw [if_pos (by rw [hcurIndex, hxy]), if_pos (Or.inl (by rw [hcurIndex, hxy])), hcount]
      omega
    · rw [if_neg hxy] at happend
      rw [if_neg (by rw [hcurIndex]; exact hxy.symm), if_neg (by simp [hcurIndex, hy, hxy.symm]), hcount]
      omega

lemma addChainStart_ok (hb : Built size segCount segOffset l b) (hsize : size < 2 ^ 32)
    (hx : x.1 < segCount) (hf : Follows l x)
    (hfits : offsetofSegInfo segCount + tableBytes (l ++ [x]) ≤ size) {fuel : Nat}
    (hfuel : 65536 ≤ fuel) : ∃ b', addChainStart size segOffset fuel b x = .ok b' := by
  obtain ⟨hcount, hnext⟩ := hb.nextSeg_eq hf
  have hpage := applyPage_of_lt hf.1
  have hpage' := hf.1
  have hend : b.nextSeg x.1 + offsetofPageStart (x.2 / 0x1000 + 1) ≤ size := by omega
  unfold offsetofPageStart at hend
  obtain ⟨b₁, hb₁⟩ : ∃ b₁, b.enterSegment size x.1 = .ok b₁ := by
    by_cases hne : x.1 = b.curSegIndex
    · exact ⟨b, by rw [StartsBuilder.enterSegment, if_pos hne]⟩
    · rw [enterSegment_eq hb.placed hsize hne,
        put_bind_of_le (by unfold offsetofSegInfo at *; omega), put_of_le (by omega)]
      exact ⟨_, rfl⟩
  have e := entered_of_enterSegment hb.placed hsize hx hb₁
  obtain ⟨m₂, hm₂⟩ : ∃ m₂, skipPages size b₁.curSeg (applyPage x.2) fuel b₁.buffer = .ok m₂ := by
    apply skipPages_ok
    · omega
    · rw [e.pageCount]
      omega
    · rw [e.curSeg]
      unfold offsetofPageStart
      omega
    · omega
  obtain ⟨m₃, hm₃⟩ : ∃ m₃, putStart size b₁.curSeg (applyPage x.2) x.2 (segOffset x.1) m₂ = .ok m₃ := by
    apply putStart_ok
    rw [e.curSeg]
    unfold offsetofPageStart
    omega
  refine ⟨{ b₁ with buffer := m₃ }, ?_⟩
  rw [addChainStart, hb₁]
  simp only [Except.bind, hm₂, hm₃, Except.map]

/-- The `APPLY` opcodes one after the other. -/
def buildAll (size : Nat) (segOffset : Nat → Nat) (fuel : Nat) (b : StartsBuilder)
    (l : List (Nat × Nat)) : Except BuildStop StartsBuilder :=
  l.foldlM (addChainStart size segOffset fuel) b

lemma buildAll_append {fuel : Nat} (l l' : List (Nat × Nat)) :
    buildAll size segOffset fuel b (l ++ l') =
      (buildAll size segOffset fuel b l).bind (fun b => buildAll size segOffset fuel b l') :=
  List.foldlM_append

lemma buildAll_singleton {fuel : Nat} :
    buildAll size segOffset fuel b [x] = addChainStart size segOffset fuel b x := by
  simp [buildAll]

lemma Ordered.of_append {l' : List (Nat × Nat)} (h : Ordered (l ++ l')) : Ordered l := by
  intro pre x post hl
  exact h pre x (post ++ l') (by rw [hl]; simp)

lemma ordered_nil : Ordered [] := by
  intro pre x post hpost
  simp at hpost

lemma Ordered.concat (h : Ordered l) (hf : Follows l x) : Ordered (l ++ [x]) := by
  intro pre y post hpost
  rcases List.append_eq_append_iff.mp hpost with ⟨as, hpre, has⟩ | ⟨cs, hpre, hcs⟩
  · cases as with
    | nil =>
      simp only [List.nil_append, List.cons.injEq] at has
      rw [hpre, List.append_nil, ← has.1]
      exact hf
    | cons a as => simp at has
  · cases cs with
    | nil =>
      simp only [List.nil_append, List.cons.injEq] at hcs
      rw [List.append_nil] at hpre
      rw [← hpre, hcs.1]
      exact hf
    | cons c cs =>
      simp only [List.cons_append, List.cons.injEq] at hcs
      exact h pre y cs (by rw [hpre, hcs.1])

theorem buildAll_ordered (hsize : size < 2 ^ 32) (hso : ∀ i, segOffset i < 2 ^ 64) {b₀ : StartsBuilder}
    (hb₀ : Built size segCount segOffset [] b₀) {fuel : Nat} (hfuel : 65536 ≤ fuel)
    (hl : ∀ x ∈ l, x.1 < segCount) (hord : Ordered l)
    (hfits : offsetofSegInfo segCount + tableBytes l ≤ size) :
    ∃ b, buildAll size segOffset fuel b₀ l = .ok b ∧ Built size segCount segOffset l b := by
  induction l using List.reverseRecOn with
  | nil => exact ⟨b₀, rfl, hb₀⟩
  | append_singleton l x ih =>
    have hf : Follows l x := hord l x [] rfl
    have hle := tableBytes_le_append hf
    obtain ⟨b, hb, hbuilt⟩ := ih (fun y hy => hl y (by simp [hy])) hord.of_append (by omega)
    have hx := hl x (by simp)
    obtain ⟨b', hb'⟩ := addChainStart_ok hbuilt hsize hx hf hfits hfuel
    refine ⟨b', ?_, hbuilt.apply hso (applied_of_addChainStart hbuilt.placed hsize hx hb') hx hf⟩
    rw [buildAll_append, hb, Except.bind, buildAll_singleton, hb']

/-- In a run that ends, the tables stay placed. -/
lemma placed_of_buildAll (hsize : size < 2 ^ 32) (hso : ∀ i, segOffset i < 2 ^ 64) {fuel : Nat}
    (hb : Placed size segCount segOffset b) (hl : ∀ x ∈ l, x.1 < segCount)
    (hrun : buildAll size segOffset fuel b l = .ok b') : Placed size segCount segOffset b' := by
  induction l generalizing b with
  | nil =>
    have heq : b = b' := by simpa [buildAll, pure, Except.pure] using hrun
    exact heq ▸ hb
  | cons y l ih =>
    obtain ⟨b₁, hb₁, hrest⟩ := exceptBind hrun
    have happ := applied_of_addChainStart hb hsize (hl y (by simp)) hb₁
    exact ih (hb.apply hso happ) (fun z hz => hl z (by simp [hz])) hrest

lemma started_of_buildAll (hsize : size < 2 ^ 32) (hso : ∀ i, segOffset i < 2 ^ 64)
    (hinj : ∀ i < segCount, ∀ j < segCount, segOffset i = segOffset j → i = j) {fuel : Nat}
    (hb : Placed size segCount segOffset b) (hl : ∀ y ∈ l, y.1 < segCount ∧ y.2 / 0x1000 < 65535)
    (hrun : buildAll size segOffset fuel b l = .ok b') (hx : x ∉ l)
    (hs : Started segCount b' (startOf segOffset x)) : Started segCount b (startOf segOffset x) := by
  induction l generalizing b with
  | nil =>
    have heq : b = b' := by simpa [buildAll, pure, Except.pure] using hrun
    exact heq ▸ hs
  | cons y l ih =>
    obtain ⟨b₁, hb₁, hrest⟩ := exceptBind hrun
    obtain ⟨hy, hpage⟩ := hl y (by simp)
    rw [List.mem_cons, not_or] at hx
    have happ := applied_of_addChainStart hb hsize hy hb₁
    exact started_of_apply hb hso hinj happ hy hpage hx.1
      (ih (hb.apply hso happ) (fun z hz => hl z (by simp [hz])) hrest hx.2)

/-- An `APPLY` that does not follow those before it loses a chain. -/
lemma lost_of_not_follows (hb : Built size segCount segOffset l b) (hso : ∀ i, segOffset i < 2 ^ 64)
    (hinj : ∀ i < segCount, ∀ j < segCount, segOffset i = segOffset j → i = j)
    (h : Applied size segCount segOffset b b' x) (hl : ∀ y ∈ l, y.1 < segCount)
    (hx : x.1 < segCount) (hpage : x.2 / 0x1000 < 65535) (hxl : x ∉ l) (hf : ¬Follows l x) :
    ∃ z ∈ l ++ [x], ¬Started segCount b' (startOf segOffset z) := by
  have hat := hb.atLast
  simp only [Follows, hpage, true_and] at hf
  rw [AtLast] at hat
  cases hlast : l.getLast? with
  | none =>
    -- segment zero is not entered, so the header does not name its table
    rw [hlast] at hat hf
    have hnil : l = [] := List.getLast?_eq_none_iff.mp hlast
    subst hnil
    have hzero : x.1 = 0 := not_not.mp hf
    have heq : x.1 = b.curSegIndex := by rw [hat.1, hzero]
    refine ⟨x, by simp, ?_⟩
    rintro ⟨-, hinfo, -⟩
    apply hinfo
    simp only [startOf]
    rw [h.segInfo_self, if_pos heq]
    exact hb.unused x.1 hx (by simp)
  | some y =>
    rw [hlast] at hat hf
    obtain ⟨hcurIndex, hinfo, hcount, -⟩ := hat
    have hyl : y ∈ l := List.mem_of_getLast? hlast
    by_cases hxy : y.1 = x.1
    · -- the loop over the pages runs around and takes the entry of the page before
      have heq : x.1 = b.curSegIndex := by rw [hcurIndex, hxy]
      refine ⟨y, by simp [hyl], ?_⟩
      rintro ⟨-, -, -, hstart⟩
      simp only [startOf] at hstart
      have hle : x.2 / 0x1000 ≤ y.2 / 0x1000 := by
        by_contra hlt
        exact hf (.inl ⟨hxy, by omega⟩)
      rw [hxy, h.segInfo_self, if_pos heq, ← hxy, hinfo, ← h.curSeg_eq heq, h.hasStart_same heq,
        eq_of_newStart hpage, applyPage_of_lt hpage, hcount] at hstart
      rcases hstart.2 with ho | ⟨hle', -⟩
      · exact hxl (Prod.ext hxy ho ▸ hyl)
      · omega
    · have hne : x.1 ≠ b.curSegIndex := by
        rw [hcurIndex]
        exact fun he => hxy he.symm
      by_cases hy : y.1 = 0
      · -- the table of segment zero is taken over
        have hcur : b'.curSeg = b.curSeg := by
          rw [h.curSeg, StartsBuilder.nextSeg, if_pos (Or.inr (hcurIndex.trans hy))]
        refine ⟨y, by simp [hyl], ?_⟩
        rintro ⟨-, -, hseg, -⟩
        simp only [startOf] at hseg
        rw [h.segInfo y.1 (hl y hyl) hxy, hinfo, ← hcur, h.segmentOffset,
          Nat.mod_eq_of_lt (hso _)] at hseg
        exact hxy (hinj _ (hl y hyl) _ hx hseg)
      · -- the table that the segment had is given up
        obtain ⟨z, hz, hzx⟩ : ∃ z ∈ l, z.1 = x.1 := by
          by_contra hnone
          push Not at hnone
          exact hf (.inr ⟨hxy, hy, hnone⟩)
        refine ⟨z, by simp [hz], ?_⟩
        rw [started_apply_entered hb.placed hso h hx hpage (by simpa [startOf] using hzx) hne]
        intro heq
        exact hxl (startOf_injective heq ▸ hz)

/-- A run that starts every chain it is asked for, without repeats, is in order and fits. -/
theorem ordered_of_buildAll (hsize : size < 2 ^ 32) (hso : ∀ i, segOffset i < 2 ^ 64)
    (hinj : ∀ i < segCount, ∀ j < segCount, segOffset i = segOffset j → i = j)
    {b₀ : StartsBuilder} (hb₀ : Built size segCount segOffset [] b₀)
    (hheader : offsetofSegInfo segCount ≤ size) {fuel : Nat}
    (hl : ∀ x ∈ l, x.1 < segCount ∧ x.2 / 0x1000 < 65535) (hnodup : l.Nodup)
    (hrun : buildAll size segOffset fuel b₀ l = .ok b)
    (hall : ∀ x ∈ l, Started segCount b (startOf segOffset x)) :
    Ordered l ∧ offsetofSegInfo segCount + tableBytes l ≤ size := by
  -- along the prefixes, since the tables are known only while the run is in order
  have hprefix : ∀ pre post, l = pre ++ post → Ordered pre ∧
      offsetofSegInfo segCount + tableBytes pre ≤ size ∧
      ∃ b₁, buildAll size segOffset fuel b₀ pre = .ok b₁ ∧ Built size segCount segOffset pre b₁ := by
    intro pre
    induction pre using List.reverseRecOn with
    | nil =>
      intro post _
      exact ⟨ordered_nil, hheader, b₀, rfl, hb₀⟩
    | append_singleton pre x ih =>
      intro post hpost
      have hpost' : l = pre ++ x :: post := by rw [hpost]; simp
      obtain ⟨hord, -, b₁, hrun₁, hbuilt⟩ := ih (x :: post) hpost'
      obtain ⟨hx, hpage⟩ := hl x (by simp [hpost])
      rw [hpost', buildAll_append, hrun₁, Except.bind] at hrun
      obtain ⟨b₂, hb₂, hrest⟩ := exceptBind hrun
      have happ := applied_of_addChainStart hbuilt.placed hsize hx hb₂
      rw [hpost'] at hnodup
      obtain ⟨-, hnd, hdisj⟩ := List.nodup_append.mp hnodup
      have hf : Follows pre x := by
        by_contra hf
        obtain ⟨z, hz, hlost⟩ := lost_of_not_follows hbuilt hso hinj happ
          (fun y hy => (hl y (by simp [hpost, hy])).1) hx hpage
          (fun hmem => hdisj x hmem x (by simp) rfl) hf
        have hzpost : z ∉ post := by
          rcases List.mem_append.mp hz with hz | hz
          · exact fun hmem => hdisj z hz z (by simp [hmem]) rfl
          · rw [List.mem_singleton] at hz
            rw [hz]
            exact (List.nodup_cons.mp hnd).1
        apply hlost
        exact started_of_buildAll hsize hso hinj (hbuilt.placed.apply hso happ)
          (fun y hy => hl y (by simp [hpost, hy])) hrest hzpost
          (hall z (by rw [hpost]; exact List.mem_append_left _ hz))
      have hbuilt' := hbuilt.apply hso happ hx hf
      refine ⟨?_, ?_, b₂, ?_, hbuilt'⟩
      · exact hord.concat hf
      · have hat := hbuilt'.atLast
        rw [AtLast, List.getLast?_concat] at hat
        have hfits := happ.fits
        rw [applyPage_of_lt hpage] at hfits
        omega
      · rw [buildAll_append, hrun₁, Except.bind, buildAll_singleton, hb₂]
  obtain ⟨hord, hfits, -⟩ := hprefix l [] (by simp)
  exact ⟨hord, hfits⟩

end Ordered

/-! ### The header -/

section Header

variable {size : Nat}

lemma putZeros_spec {n : Nat} {m m' : Mem}
    (h : (List.range n).foldlM (fun m i => put size 4 m (offsetofSegInfo i) 0) m = .ok m') :
    (n ≠ 0 → offsetofSegInfo n ≤ size) ∧ (∀ a < 4, m' a = m a) ∧ ∀ i < n, segInfoOffset m' i = 0 := by
  induction n generalizing m' with
  | zero =>
    have heq : m = m' := by simpa [pure, Except.pure] using h
    subst heq
    exact ⟨fun h => absurd rfl h, fun _ _ => rfl, fun i hi => absurd hi (Nat.not_lt_zero i)⟩
  | succ n ih =>
    rw [List.range_succ, List.foldlM_append] at h
    obtain ⟨m₁, hm₁, h⟩ := exceptBind h
    obtain ⟨-, hlow, hzero⟩ := ih hm₁
    obtain ⟨hfits, hm'⟩ := of_put (h := by simpa using h)
    refine ⟨fun _ => by unfold offsetofSegInfo at *; omega, fun a ha => ?_, fun i hi => ?_⟩
    · rw [hm', storeNat_apply_of_not_inWord (by unfold InWord offsetofSegInfo; omega), hlow a ha]
    · rw [hm', segInfoOffset]
      by_cases hin : i = n
      · rw [hin, loadNat_storeNat_same]
        norm_num
      · rw [loadNat_storeNat_of_disjoint (by unfold offsetofSegInfo; omega)]
        exact hzero i (by omega)

lemma putZeros_ok {n : Nat} (m : Mem) (h : offsetofSegInfo n ≤ size) :
    ∃ m', (List.range n).foldlM (fun m i => put size 4 m (offsetofSegInfo i) 0) m = .ok m' := by
  induction n with
  | zero => exact ⟨m, rfl⟩
  | succ n ih =>
    unfold offsetofSegInfo at h
    obtain ⟨m₁, hm₁⟩ := ih (by unfold offsetofSegInfo; omega)
    refine ⟨storeNat 4 m₁ (offsetofSegInfo n) 0, ?_⟩
    rw [List.range_succ, List.foldlM_append, hm₁]
    simp only [bind, Except.bind, List.foldlM_cons, List.foldlM_nil]
    rw [put_of_le (by unfold offsetofSegInfo; omega)]
    rfl

lemma built_of_putHeader {segCount : Nat} (segOffset : Nat → Nat) {stack m : Mem}
    (hsize : size < 2 ^ 32) (h : putHeader size segCount stack = .ok m) :
    offsetofSegInfo segCount ≤ size ∧
      Built size segCount segOffset [] ⟨m, 0, offsetofSegInfo segCount⟩ := by
  obtain ⟨hfits, h⟩ := of_put_bind h
  obtain ⟨hsegs, hlow, hzero⟩ := putZeros_spec h
  have hle : offsetofSegInfo segCount ≤ size := by
    by_cases hsegCount : segCount = 0
    · rw [hsegCount]
      unfold offsetofSegInfo
      omega
    · exact hsegs hsegCount
  have hcount : loadNat m 0 4 = segCount := by
    rw [loadNat_congr (fun a ha => hlow a (by unfold InWord at ha; omega)), loadNat_storeNat_same]
    unfold offsetofSegInfo at hle
    apply Nat.mod_eq_of_lt
    norm_num
    omega
  refine ⟨hle, ?_⟩
  exact
    { placed :=
        { header := le_rfl
          count := hcount
          room := fun hne => absurd rfl hne
          formed := fun i hi hne => absurd (hzero i hi) hne
          placed := fun i hi hne => absurd (hzero i hi) hne }
      atLast := ⟨rfl, rfl⟩
      unused := fun i hi _ => hzero i hi
      own := fun i hi hcur => by
        dsimp only at hcur
        rw [hzero i hi] at hcur
        unfold offsetofSegInfo at hcur
        omega
      started := fun c => by
        constructor
        · rintro ⟨hc, hne, -⟩
          exact absurd (hzero _ hc) hne
        · simp }

lemma putHeader_ok {segCount : Nat} (stack : Mem) (h : offsetofSegInfo segCount ≤ size) :
    ∃ m, putHeader size segCount stack = .ok m := by
  unfold putHeader
  rw [put_bind_of_le (by unfold offsetofSegInfo at h; omega)]
  exact putZeros_ok _ h

end Header

/-! ### The image -/

section Image

variable {image : OldArm64eImage}

/-- Segments before `__LINKEDIT` start at different addresses. -/
def OldArm64eImage.SegmentsApart (image : OldArm64eImage) : Prop :=
  ∀ i < image.linkeditSegIndex, ∀ j < image.linkeditSegIndex,
    image.segOffset i = image.segOffset j → i = j

lemma bufferSize_lt (image : OldArm64eImage) : image.bufferSize < 2 ^ 32 :=
  Nat.mod_lt _ (by norm_num)

lemma segOffset_lt (image : OldArm64eImage) (i : Nat) : image.segOffset i < 2 ^ 64 :=
  Nat.mod_lt _ (by norm_num)

lemma runCallbacks_build (size : Nat) (segOffset : Nat → Nat) (fuel : Nat)
    (s : Except BuildStop StartsBuilder) (l : List BindCallback) :
    runCallbacks (buildCallback size segOffset fuel) s l =
      s.bind (fun b => buildAll size segOffset fuel b (l.filterMap BindCallback.chainStart?)) := by
  induction l generalizing s with
  | nil => cases s <;> rfl
  | cons c l ih =>
    have hstep : runCallbacks (buildCallback size segOffset fuel) s (c :: l) =
        runCallbacks (buildCallback size segOffset fuel) (buildCallback size segOffset fuel s c).1 l :=
      rfl
    rw [hstep, ih, List.filterMap_cons, buildCallback]
    cases hc : c.chainStart? with
    | none => rfl
    | some x => cases s <;> rfl

lemma buildCallback_stop (size : Nat) (segOffset : Nat → Nat) (fuel : Nat)
    (s : Except BuildStop StartsBuilder) (c : BindCallback) :
    (buildCallback size segOffset fuel s c).2 = false := by
  unfold buildCallback
  split <;> rfl

/-- On an accepted stream, `withChainStarts` takes the `APPLY` opcodes one after the other. -/
lemma withChainStarts_eq (h : validChainedFixupsInfoOldArm64e image = true) (fuel : Nat)
    (stack : Mem) :
    image.withChainStarts fuel stack =
      some ((putHeader image.bufferSize image.linkeditSegIndex stack).bind (fun m =>
        (buildAll image.bufferSize image.segOffset fuel ⟨m, 0, image.headerSize⟩
          image.threadedApplies).map (·.buffer))) := by
  obtain ⟨l, htrace, -⟩ := trace_of_valid h
  have happlies : image.threadedApplies = l.filterMap BindCallback.chainStart? := by
    rw [OldArm64eImage.threadedApplies, htrace]
  unfold OldArm64eImage.withChainStarts
  generalize putHeader image.bufferSize image.linkeditSegIndex stack = header
  cases header with
  | error e => rfl
  | ok m =>
    dsimp only
    rw [parseOrgArm64eChainedFixups, parseBindOpcodes_eq_trace (buildCallback_stop _ _ _)]
    have htrace' : bindTrace image.linkeditAfter image.bindOpcodes.length image.bindOpcodes {} =
        some (l, none) := htrace
    rw [htrace', Option.map_some, Option.map_some, runCallbacks_build, happlies]
    exact congrArg some rfl

lemma chainStarts_of_placed {size segCount : Nat} {segOffset : Nat → Nat} {b : StartsBuilder}
    (h : Placed size segCount segOffset b) (fuel : Nat) :
    ∃ l, chainStarts b.buffer fuel = some l ∧ l.Nodup ∧ ∀ c, c ∈ l ↔ Started segCount b c := by
  have hformed : ∀ i ∈ List.range segCount, segInfoOffset b.buffer i ≠ 0 →
      TableFormed b.buffer (segInfoOffset b.buffer i) :=
    fun i hi hne => h.formed i (List.mem_range.mp hi) hne
  obtain ⟨l, hl, hnodup, hmem⟩ := chainStartsOf_formed List.nodup_range hformed fuel
  refine ⟨l, ?_, hnodup, fun c => ?_⟩
  · rw [chainStarts, h.count, hl]
  · rw [hmem, List.mem_range, Started]

theorem startsExact_of_tablesFit (h : validChainedFixupsInfoOldArm64e image = true)
    (hfit : image.TablesFit) (stack : Mem) : image.StartsExact stack := by
  obtain ⟨hord, hfits⟩ := hfit
  have hsize := bufferSize_lt image
  have hheader : offsetofSegInfo image.linkeditSegIndex ≤ image.bufferSize := by
    unfold OldArm64eImage.headerSize at hfits
    omega
  obtain ⟨m, hm⟩ := putHeader_ok stack hheader
  obtain ⟨-, hbuilt⟩ := built_of_putHeader image.segOffset hsize hm
  obtain ⟨b, hrun, hb⟩ := buildAll_ordered hsize (segOffset_lt image) hbuilt (le_refl 65536)
    (segmentIndex_lt_of_valid h) hord hfits
  obtain ⟨l, hl, hnodup, hmem⟩ := chainStarts_of_placed hb.placed 65536
  refine ⟨65536, b.buffer, l, ?_, hl, hnodup, fun c => ?_⟩
  · rw [withChainStarts_eq h, hm, Except.bind, OldArm64eImage.headerSize, hrun]
    rfl
  · rw [hmem, hb.started]
    rfl

theorem tablesFit_of_startsExact (h : validChainedFixupsInfoOldArm64e image = true)
    (hnodup : image.threadedApplies.Nodup) (hapart : image.SegmentsApart) {stack : Mem}
    (hex : image.StartsExact stack) : image.TablesFit := by
  obtain ⟨fuel, m, l, hrun, hl, -, hmem⟩ := hex
  have hsize := bufferSize_lt image
  rw [withChainStarts_eq h, Option.some.injEq] at hrun
  obtain ⟨m₀, hm₀, hrun⟩ := exceptBind hrun
  obtain ⟨b, hbuild, rfl⟩ := exceptMap hrun
  obtain ⟨hheader, hbuilt⟩ := built_of_putHeader image.segOffset hsize hm₀
  have hplaced := placed_of_buildAll hsize (segOffset_lt image) hbuilt.placed
    (segmentIndex_lt_of_valid h) hbuild
  obtain ⟨l', hl', -, hmem'⟩ := chainStarts_of_placed hplaced fuel
  rw [hl, Option.some.injEq] at hl'
  subst hl'
  have hall : ∀ x ∈ image.threadedApplies,
      Started image.linkeditSegIndex b (startOf image.segOffset x) := by
    intro x hx
    exact (hmem' _).mp ((hmem _).mpr (List.mem_map_of_mem hx))
  have hpages : ∀ x ∈ image.threadedApplies,
      x.1 < image.linkeditSegIndex ∧ x.2 / 0x1000 < 65535 := by
    intro x hx
    obtain ⟨hlt, -, -, hstart⟩ := hall x hx
    have hcount : pageCount b.buffer (segInfoOffset b.buffer x.1) < 65536 := loadNat_lt _ _ 2
    have hpage := hstart.1
    simp only [startOf] at hlt hpage
    omega
  exact ordered_of_buildAll hsize (segOffset_lt image) hapart hbuilt hheader hpages hnodup hbuild hall

/-- The tables that `withChainStarts` makes of an accepted stream are right when the opcodes name
segments and pages in order and the tables fit into the buffer. When no pair is repeated and the
segments start at different addresses, they are right only then. -/
theorem withChainStarts_startsExact (h : validChainedFixupsInfoOldArm64e image = true) (stack : Mem) :
    (image.TablesFit → image.StartsExact stack) ∧
    (image.threadedApplies.Nodup → image.SegmentsApart → image.StartsExact stack →
      image.TablesFit) :=
  ⟨fun hfit => startsExact_of_tablesFit h hfit stack,
    fun hnodup hapart hex => tablesFit_of_startsExact h hnodup hapart hex⟩

/-- `__TEXT`, `__DATA` with 4M and `__LINKEDIT`. -/
def threeSegments (bindOpcodes : List UInt8) : OldArm64eImage where
  segments := [⟨0x100000000, 0x4000, false, true⟩, ⟨0x100004000, 0x400000, true, false⟩,
    ⟨0x100404000, 0x4000, false, false⟩]
  linkeditSegIndex := 2
  preferredLoadAddress := 0x100000000
  dependentDylibCount := 1
  bindOpcodes := bindOpcodes
  linkeditAfter := []

/-- `__TEXT`, two writable segments and `__LINKEDIT`, with chains in the first and third page of the one
and in the second page of the other. -/
def fourSegments : OldArm64eImage where
  segments := [⟨0x100000000, 0x4000, false, true⟩, ⟨0x100004000, 0x4000, true, false⟩,
    ⟨0x100008000, 0x4000, true, false⟩, ⟨0x10000C000, 0x4000, false, false⟩]
  linkeditSegIndex := 3
  preferredLoadAddress := 0x100000000
  dependentDylibCount := 1
  bindOpcodes := [0x71, 0x10, 0xD1, 0x71, 0xA0, 0x40, 0xD1, 0x72, 0x88, 0x20, 0xD1]
  linkeditAfter := []

theorem withChainStarts_fourSegments :
    validChainedFixupsInfoOldArm64e fourSegments = true ∧
      fourSegments.threadedApplies = [(1, 0x10), (1, 0x2020), (2, 0x1008)] ∧
      fourSegments.StartsExact (fun _ => 0xAA) := by
  have hvalid : validChainedFixupsInfoOldArm64e fourSegments = true := by decide
  have happlies : fourSegments.threadedApplies = [(1, 0x10), (1, 0x2020), (2, 0x1008)] := by decide
  refine ⟨hvalid, happlies, (withChainStarts_startsExact hvalid (fun _ => 0xAA)).1 ⟨?_, ?_⟩⟩
  · rw [happlies]
    refine ((ordered_nil.concat ?_).concat ?_).concat ?_
    · exact ⟨by norm_num, by norm_num⟩
    · exact ⟨by norm_num, Or.inl ⟨rfl, by decide⟩⟩
    · exact ⟨by norm_num, Or.inr ⟨by decide, by decide, by decide⟩⟩
  · rw [happlies]
    decide

/-- The first chain is 2M into `__DATA`, and the buffer has room for 240 pages. -/
theorem sparsePages_not_startsExact :
    validChainedFixupsInfoOldArm64e (threeSegments [0x71, 0x80, 0x80, 0x80, 0x01, 0xD1]) = true ∧
      ¬(threeSegments [0x71, 0x80, 0x80, 0x80, 0x01, 0xD1]).StartsExact (fun _ => 0) := by
  have hvalid : validChainedFixupsInfoOldArm64e
      (threeSegments [0x71, 0x80, 0x80, 0x80, 0x01, 0xD1]) = true := by decide
  have happlies : (threeSegments [0x71, 0x80, 0x80, 0x80, 0x01, 0xD1]).threadedApplies =
      [(1, 0x200000)] := by decide
  refine ⟨hvalid, fun hex => ?_⟩
  obtain ⟨-, hfits⟩ := tablesFit_of_startsExact hvalid (by rw [happlies]; simp) (by
    unfold OldArm64eImage.SegmentsApart
    decide) hex
  rw [happlies] at hfits
  exact absurd hfits (by decide)

end Image

end Dyld.Chained
