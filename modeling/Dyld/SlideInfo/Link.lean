import Dyld.SlideInfo.Format

/-!
# The chains the writer leaves

For a format whose spare bits are contiguous, the writer leaves chains that start where
`page_starts` and `page_extras` say, go through every rebase location and through stolen words
only besides, and keep the value bits of each word.
-/

namespace Dyld.SlideInfo

open Dyld.Lib

namespace ChainFormat

variable {n : Nat} {f : ChainFormat n} {lo len pageSize : Nat}

/-- The format keeps the distance in `len` bits at bit `lo`, apart from tags and stolen values,
and tells the starts of a page apart from the marks for none and for extras. Only four-byte
pointers are ever too far apart for the distance. -/
structure Lawful (f : ChainFormat n) (lo len pageSize : Nat) : Prop where
  mask : f.deltaMask = BitVec.ofNat (8 * n) ((2 ^ len - 1) <<< lo)
  two_le_lo : 2 ≤ lo
  len_pos : 0 < len
  len_le : len ≤ 30
  fits : lo + len ≤ 8 * n
  tag_free : ∀ a, f.tag a &&& f.deltaMask = 0#(8 * n)
  stolen_free : ∀ v, f.stealable v = true → f.stolenValue v &&& f.deltaMask = 0#(8 * n)
  four_dvd_pageSize : 4 ∣ pageSize
  pageSize_le : pageSize ≤ 0x1000
  size : n = 4 ∨ 0 < n ∧ pageSize ≤ 4 * (2 ^ len - 1)
  start : ∀ i, i < pageSize / 4 → i ≠ f.noRebase ∧ i &&& useExtra = 0 ∧ i &&& f.indexMask = i ∧
    (i ||| extraEnd) &&& f.indexMask = i
  index : ∀ k, k ≤ f.lastIndex → k ||| useExtra ≠ f.noRebase ∧ (k ||| useExtra) &&& f.indexMask = k
  noExtra : f.noRebase &&& useExtra = 0 ∨ f.endNeedsLocation = true

/-! ### Starts and indexes -/

lemma or_extra_and {k e : Nat} (hk : k < 2 ^ e) (he : e ≤ 15) :
    (k ||| 0x8000) &&& (2 ^ e - 1) = k := by
  have hdvd : 0x8000 % 2 ^ e = 0 := Nat.mod_eq_zero_of_dvd (Nat.pow_dvd_pow 2 he)
  rw [Nat.and_two_pow_sub_one_eq_mod, Nat.or_mod_two_pow, Nat.mod_eq_of_lt hk, hdvd, Nat.or_zero]

lemma and_extra {k : Nat} (hk : k < 2 ^ 15) : k &&& 0x8000 = 0 := by
  have h := Nat.and_two_pow k 15
  rw [Nat.testBit_lt_two_pow hk] at h
  simpa using h

lemma or_extra_eq_add {k : Nat} (hk : k < 2 ^ 15) : k ||| 0x8000 = k + 0x8000 := by
  rw [Nat.or_comm, Nat.add_comm]
  exact (Nat.two_pow_add_eq_or_of_lt hk 1).symm

/-! ### Words -/

namespace Lawful

lemma getLsbD_deltaMask (hf : f.Lawful lo len pageSize) (i : Nat) :
    f.deltaMask.getLsbD i = decide (lo ≤ i ∧ i < lo + len) := by
  have hfits := hf.fits
  rw [hf.mask, BitVec.getLsbD_ofNat, Nat.testBit_shiftLeft, Nat.testBit_two_pow_sub_one]
  rw [Bool.eq_iff_iff]
  simp only [Bool.and_eq_true, decide_eq_true_eq]
  omega

lemma and_deltaMask_of_lt (hf : f.Lawful lo len pageSize) {x : BitVec (8 * n)} (hx : x.toNat < 2 ^ lo) :
    x &&& f.deltaMask = 0#(8 * n) := by
  apply BitVec.eq_of_getLsbD_eq
  intro i hi
  rw [BitVec.getLsbD_and, hf.getLsbD_deltaMask, BitVec.getLsbD_zero]
  by_cases hlo : lo ≤ i
  · rw [getLsbD_of_toNat_lt hx hlo, Bool.false_and]
  · simp [hlo]

lemma deltaShift_eq (hf : f.Lawful lo len pageSize) : f.deltaShift = lo - 2 := by
  have hlo : f.deltaMask.getLsbD lo = true := by
    rw [hf.getLsbD_deltaMask]
    have := hf.len_pos
    simp [this]
  have hne : f.deltaMask ≠ 0#(8 * n) := by
    intro h
    rw [h] at hlo
    simp at hlo
  have htrue := BitVec.getLsbD_true_ctz_of_ne_zero hne
  rw [hf.getLsbD_deltaMask, decide_eq_true_eq] at htrue
  have hle : f.deltaMask.ctz.toNat ≤ lo := by
    by_contra hlt
    have hfalse := BitVec.getLsbD_false_of_lt_ctz (x := f.deltaMask) (i := lo) (by omega)
    rw [hlo] at hfalse
    exact Bool.noConfusion hfalse
  rw [deltaShift]
  omega

lemma maxDelta_eq (hf : f.Lawful lo len pageSize) : f.maxDelta = 4 * (2 ^ len - 1) := by
  have hfits : (2 ^ len - 1) <<< lo < 2 ^ (8 * n) := by
    rw [Nat.shiftLeft_eq]
    calc (2 ^ len - 1) * 2 ^ lo < 2 ^ len * 2 ^ lo :=
          Nat.mul_lt_mul_of_pos_right (Nat.sub_lt (Nat.two_pow_pos len) (by omega)) (Nat.two_pow_pos lo)
      _ = 2 ^ (lo + len) := by rw [← Nat.pow_add, Nat.add_comm]
      _ ≤ 2 ^ (8 * n) := Nat.pow_le_pow_right (by omega) hf.fits
  have hshift : (2 ^ len - 1) <<< lo >>> (lo - 2) = 4 * (2 ^ len - 1) := by
    have hlo : lo = 2 + (lo - 2) := by have := hf.two_le_lo; omega
    rw [Nat.shiftLeft_eq, Nat.shiftRight_eq_div_pow]
    conv_lhs => rw [hlo, Nat.pow_add]
    rw [show 2 + (lo - 2) - 2 = lo - 2 by omega, ← Nat.mul_assoc,
      Nat.mul_div_cancel _ (Nat.two_pow_pos _)]
    omega
  have hlt : 4 * (2 ^ len - 1) < 2 ^ 32 := by
    have h30 : 2 ^ len ≤ 2 ^ 30 := Nat.pow_le_pow_right (by omega) hf.len_le
    omega
  rw [maxDelta, hf.deltaShift_eq, hf.mask, BitVec.toNat_ushiftRight, BitVec.toNat_ofNat,
    Nat.mod_eq_of_lt hfits, hshift, Nat.mod_eq_of_lt hlt]

/-- The bits of a distance in its place. -/
lemma getLsbD_deltaBits (hf : f.Lawful lo len pageSize) {d : Nat} (hd : d < 2 ^ len) (i : Nat) :
    (f.deltaBits (4 * d)).getLsbD i = (decide (lo ≤ i) && d.testBit (i - lo)) := by
  have h2 := hf.two_le_lo
  have hfits := hf.fits
  rw [deltaBits, hf.deltaShift_eq, BitVec.getLsbD_shiftLeft, BitVec.getLsbD_ofNat]
  have h4 : 4 * d = d <<< 2 := by rw [Nat.shiftLeft_eq]; omega
  rw [h4, Nat.testBit_shiftLeft]
  by_cases hlo : lo ≤ i
  · have hsub : i - (lo - 2) - 2 = i - lo := by omega
    by_cases hi : i < 8 * n
    · simp [hi, hlo, hsub, show ¬i < lo - 2 by omega, show i - (lo - 2) < 8 * n by omega,
        show 2 ≤ i - (lo - 2) by omega]
    · have hbit : d.testBit (i - lo) = false :=
        Nat.testBit_lt_two_pow (lt_of_lt_of_le hd (Nat.pow_le_pow_right (by omega) (by omega)))
      simp [hi, hbit]
  · by_cases hi : i < lo - 2
    · simp [hlo, hi]
    · simp [hlo, show ¬2 ≤ i - (lo - 2) by omega]

lemma deltaBits_and_mask (hf : f.Lawful lo len pageSize) {d : Nat} (hd : d < 2 ^ len) :
    f.deltaBits (4 * d) &&& f.deltaMask = f.deltaBits (4 * d) := by
  apply BitVec.eq_of_getLsbD_eq
  intro i hi
  rw [BitVec.getLsbD_and, hf.getLsbD_deltaMask, hf.getLsbD_deltaBits hd]
  by_cases hlen : i < lo + len
  · by_cases hlo : lo ≤ i <;> simp [hlo, hlen]
  · have hbit : d.testBit (i - lo) = false :=
      Nat.testBit_lt_two_pow (lt_of_lt_of_le hd (Nat.pow_le_pow_right (by omega) (by omega)))
    simp [hbit]

lemma toNat_deltaBits (hf : f.Lawful lo len pageSize) {d : Nat} (hd : d < 2 ^ len) :
    (f.deltaBits (4 * d)).toNat = 4 * d * 2 ^ (lo - 2) := by
  have h2 := hf.two_le_lo
  have hlt : 4 * d * 2 ^ (lo - 2) < 2 ^ (8 * n) := by
    calc 4 * d * 2 ^ (lo - 2) < 2 ^ (2 + len) * 2 ^ (lo - 2) := by
          apply Nat.mul_lt_mul_of_pos_right _ (Nat.two_pow_pos _)
          rw [Nat.pow_add]
          omega
      _ = 2 ^ (lo + len) := by
          rw [← Nat.pow_add]
          congr 1
          omega
      _ ≤ 2 ^ (8 * n) := Nat.pow_le_pow_right (by omega) hf.fits
  have hsmall : 4 * d < 2 ^ (8 * n) :=
    lt_of_le_of_lt (Nat.le_mul_of_pos_right _ (Nat.two_pow_pos _)) hlt
  rw [deltaBits, hf.deltaShift_eq, BitVec.toNat_shiftLeft, BitVec.toNat_ofNat,
    Nat.mod_eq_of_lt hsmall, Nat.shiftLeft_eq, Nat.mod_eq_of_lt hlt]

/-- A word with value bits `x` that links `delta` bytes on. -/
lemma next_or_deltaBits (hf : f.Lawful lo len pageSize) {x : BitVec (8 * n)} {delta : Nat}
    (hx : x &&& f.deltaMask = 0#(8 * n)) (h4 : 4 ∣ delta) (hd : delta ≤ f.maxDelta) :
    f.next (x ||| f.deltaBits delta) = delta := by
  obtain ⟨d, rfl⟩ := h4
  have hlt : d < 2 ^ len := by
    rw [hf.maxDelta_eq] at hd
    have := Nat.two_pow_pos len
    omega
  have h32 : 4 * d < 2 ^ 32 := by
    have h30 : 2 ^ len ≤ 2 ^ 30 := Nat.pow_le_pow_right (by omega) hf.len_le
    omega
  have hmask : (x ||| f.deltaBits (4 * d)) &&& f.deltaMask = f.deltaBits (4 * d) := by
    rw [BitVec.and_or_distrib_right, hx, hf.deltaBits_and_mask hlt, BitVec.zero_or]
  rw [next, hmask, BitVec.toNat_ushiftRight, hf.toNat_deltaBits hlt, hf.deltaShift_eq,
    Nat.shiftRight_eq_div_pow, Nat.mul_div_cancel _ (Nat.two_pow_pos _), Nat.mod_eq_of_lt h32]

lemma valueMask_or_deltaBits (hf : f.Lawful lo len pageSize) {x : BitVec (8 * n)} {delta : Nat}
    (hx : x &&& f.deltaMask = 0#(8 * n)) (h4 : 4 ∣ delta) (hd : delta ≤ f.maxDelta) :
    (x ||| f.deltaBits delta) &&& f.valueMask = x := by
  obtain ⟨d, rfl⟩ := h4
  have hlt : d < 2 ^ len := by
    rw [hf.maxDelta_eq] at hd
    have := Nat.two_pow_pos len
    omega
  have hdelta : f.deltaBits (4 * d) &&& f.valueMask = 0#(8 * n) := by
    rw [← hf.deltaBits_and_mask hlt, valueMask, BitVec.and_assoc]
    simp
  rw [BitVec.and_or_distrib_right, hdelta, BitVec.or_zero]
  exact and_not_of_and_eq_zero hx

/-- A word without a distance ends its chain. -/
lemma next_of_free {x : BitVec (8 * n)} (hx : x &&& f.deltaMask = 0#(8 * n)) : f.next x = 0 := by
  simp [next, hx]

lemma pointerValue_free (f : ChainFormat n) (v : BitVec (8 * n)) :
    f.pointerValue v &&& f.deltaMask = 0#(8 * n) :=
  and_not_and_self _ _

lemma linked_free (hf : f.Lawful lo len pageSize) (v : BitVec (8 * n)) :
    (if f.stealable v then f.stolenValue v else f.pointerValue v) &&& f.deltaMask = 0#(8 * n) := by
  split_ifs with hv
  · exact hf.stolen_free v hv
  · exact pointerValue_free f v

lemma four_dvd_maxDelta (hf : f.Lawful lo len pageSize) : 4 ∣ f.maxDelta := by
  rw [hf.maxDelta_eq]
  exact Dvd.intro _ rfl

end Lawful

/-! ### Links through stolen words -/

/-- The offsets between `prev` and `offset` are stealable and no further apart than a word can
say. -/
def Path (f : ChainFormat n) (m : Mem) (pageContent : Nat) : Nat → List Nat → Nat → Prop
  | prev, [], offset => prev < offset ∧ offset - prev ≤ f.maxDelta ∧ 4 ∣ offset - prev
  | prev, o :: os, offset =>
    prev < o ∧ o - prev ≤ f.maxDelta ∧ 4 ∣ o - prev ∧
      f.stealable (load n m (pageContent + o)) = true ∧ Path f m pageContent o os offset

variable {m m' : Mem} {pageContent prev offset : Nat} {os : List Nat}

lemma Path.lt (h : f.Path m pageContent prev os offset) : prev < offset := by
  induction os generalizing prev with
  | nil => exact h.1
  | cons o os ih => exact lt_trans h.1 (ih h.2.2.2.2)

lemma Path.mem (h : f.Path m pageContent prev os offset) {o : Nat} (ho : o ∈ os) :
    prev < o ∧ o < offset ∧ 4 ∣ o - prev := by
  induction os generalizing prev with
  | nil => simp at ho
  | cons b os ih =>
    obtain ⟨hlt, -, hdvd, -, hrest⟩ := h
    rcases List.mem_cons.mp ho with rfl | ho
    · exact ⟨hlt, hrest.lt, hdvd⟩
    · have hb := ih hrest ho
      omega

lemma Path.congr (h : f.Path m pageContent prev os offset)
    (heq : ∀ o, prev < o → 4 ∣ o - prev → load n m' (pageContent + o) = load n m (pageContent + o)) :
    f.Path m' pageContent prev os offset := by
  induction os generalizing prev with
  | nil => exact h
  | cons o os ih =>
    obtain ⟨hlt, hle, hdvd, hsteal, hrest⟩ := h
    refine ⟨hlt, hle, hdvd, ?_, ih hrest (fun b hb hdvd' => heq b (by omega) (by omega))⟩
    rw [heq o hlt hdvd]
    exact hsteal

lemma stealLocation_some (hf : f.Lawful lo len pageSize) {i o : Nat}
    (h : f.stealLocation m pageContent i = some o) :
    i < o ∧ o - i ≤ f.maxDelta ∧ 4 ∣ o - i ∧ f.stealable (load n m (pageContent + o)) = true := by
  have hmem := List.mem_of_find?_eq_some h
  have hsteal := List.find?_some h
  obtain ⟨k, hk, rfl⟩ := List.mem_map.mp hmem
  rw [List.mem_range] at hk
  have hdvd := hf.four_dvd_maxDelta
  refine ⟨by omega, by omega, by omega, hsteal⟩

lemma stealLocations_some (hf : f.Lawful lo len pageSize) {fuel i : Nat} (hi : i < offset)
    (hdvd : 4 ∣ offset - i) (h : f.stealLocations m pageContent offset fuel i = some os) :
    f.Path m pageContent i os offset := by
  induction fuel generalizing i os with
  | zero => simp [stealLocations] at h
  | succ fuel ih =>
    simp only [stealLocations] at h
    split_ifs at h with hfar
    · cases hloc : f.stealLocation m pageContent i with
      | none => simp [hloc] at h
      | some o =>
        simp only [hloc] at h
        obtain ⟨os', hos', rfl⟩ := Option.map_eq_some_iff.mp h
        obtain ⟨hlt, hle, hdvd', hsteal⟩ := stealLocation_some hf hloc
        exact ⟨hlt, hle, hdvd', hsteal, ih (by omega) (by omega) hos'⟩
    · rw [Option.some.injEq] at h
      rw [← h]
      exact ⟨hi, by omega, hdvd⟩

/-- Words of four bytes at distances of four share no byte. -/
lemma apart_of_dvd (hn : n = 4) {a b : Nat} (hlt : a < b) (hdvd : 4 ∣ b - a) : Apart n a b :=
  Or.inl (by omega)

end ChainFormat

/-! ### What a word of a chain keeps -/

section Keeps

variable {n : Nat} (f : ChainFormat n) (marked direct : Nat → Prop)

/-- The word `w` keeps the value bits for the word `v` it replaced: those of the pointer at a
rebase location, with its tag where the next location is linked directly, and those of the
stolen word elsewhere. -/
def Keeps (a : Nat) (v w : BitVec (8 * n)) : Prop :=
  (marked a ∧ (direct a → w &&& f.valueMask = f.pointerValue v ||| f.tag a) ∧
      (¬direct a → w &&& f.valueMask = f.pointerValue v)) ∨
    (¬marked a ∧ f.stealable v = true ∧ w &&& f.valueMask = f.stolenValue v)

end Keeps

namespace ChainFormat

variable {n : Nat} {f : ChainFormat n} {lo len pageSize : Nat} {marked direct : Nat → Prop}
  {m m' : Mem} {pageContent prev offset : Nat} {os : List Nat}

lemma load_linkChain (hn : n = 4) (h : f.Path m pageContent prev os offset) {x : Nat}
    (hx : offset ≤ x) (hdvd : 4 ∣ x - prev) :
    load n (f.linkChain m pageContent prev (os ++ [offset])) (pageContent + x) =
      load n m (pageContent + x) := by
  induction os generalizing m prev with
  | nil =>
    have hlt := h.lt
    exact load_store_apart (apart_of_dvd hn (by omega) (by omega))
  | cons o os ih =>
    obtain ⟨hlt, -, hdvd', -, hrest⟩ := h
    have hlt' := hrest.lt
    have hpath : f.Path (store n m (pageContent + prev)
        (f.linked (load n m (pageContent + prev)) (o - prev))) pageContent o os offset :=
      hrest.congr (fun b hb hdvdb => load_store_apart (apart_of_dvd hn (by omega) (by omega)))
    rw [List.cons_append, linkChain, ih hpath (by omega)]
    exact load_store_apart (apart_of_dvd hn (by omega) (by omega))

lemma encoding_linkChain (hf : f.Lawful lo len pageSize) (hn : n = 4) {l : List Nat}
    {cs : List Chain} (h : f.Path m pageContent prev os offset)
    (henc : Encoding n f.next (Keeps f marked direct)
      (f.linkChain m pageContent prev (os ++ [offset])) m' ((pageContent + offset, l) :: cs))
    (hge : ∀ c ∈ locations ((pageContent + offset, l) :: cs),
      pageContent + offset ≤ c ∧ 4 ∣ c - (pageContent + prev))
    (hprev : ∀ delta, 4 ∣ delta → delta ≤ f.maxDelta →
      Keeps f marked direct (pageContent + prev) (load n m (pageContent + prev))
        (f.linked (load n m (pageContent + prev)) delta))
    (hos : ∀ o ∈ os, ¬marked (pageContent + o)) :
    Encoding n f.next (Keeps f marked direct) m m'
      ((pageContent + prev, os.map (fun o => pageContent + o) ++ (pageContent + offset) :: l) :: cs) := by
  induction os generalizing m prev with
  | nil =>
    obtain ⟨hlt, hle, hdvd⟩ := h
    have hnext : f.next (f.linked (load n m (pageContent + prev)) (offset - prev)) = offset - prev :=
      hf.next_or_deltaBits (hf.linked_free _) hdvd hle
    apply Encoding.link henc
    · intro c hc
      have := hge c hc
      exact apart_of_dvd hn (by omega) this.2
    · rw [hnext]
      omega
    · rw [hnext]
      omega
    · exact hprev _ hdvd hle
  | cons o os ih =>
    obtain ⟨hlt, hle, hdvd, hsteal, hrest⟩ := h
    have hlt' := hrest.lt
    have hkeep : ∀ b, prev < b → 4 ∣ b - prev → load n (store n m (pageContent + prev)
        (f.linked (load n m (pageContent + prev)) (o - prev))) (pageContent + b) =
        load n m (pageContent + b) :=
      fun b hb hdvdb => load_store_apart (apart_of_dvd hn (by omega) (by omega))
    have hpath := hrest.congr (fun b hb hdvdb => hkeep b (by omega) (by omega))
    have hnext : f.next (f.linked (load n m (pageContent + prev)) (o - prev)) = o - prev :=
      hf.next_or_deltaBits (hf.linked_free _) hdvd hle
    have henc' := ih hpath henc (fun c hc => ?_) ?_ (fun b hb => hos b (List.mem_cons_of_mem o hb))
    · rw [List.map_cons, List.cons_append]
      apply Encoding.link henc'
      · intro c hc
        have hc' : c = pageContent + o ∨ (∃ b ∈ os, pageContent + b = c) ∨
            c ∈ locations ((pageContent + offset, l) :: cs) := by
          simpa [or_assoc] using hc
        rcases hc' with rfl | ⟨b, hb, rfl⟩ | hc'
        · exact apart_of_dvd hn (by omega) (by omega)
        · have hbo := hrest.mem hb
          exact apart_of_dvd hn (by omega) (by omega)
        · have hco := hge c hc'
          exact apart_of_dvd hn (by omega) hco.2
      · rw [hnext]
        omega
      · rw [hnext]
        omega
      · exact hprev _ hdvd hle
    · have := hge c hc
      omega
    · intro delta hdvd' hle'
      rw [hkeep o hlt hdvd]
      refine Or.inr ⟨hos o (by simp), hsteal, ?_⟩
      have hvalue := hf.valueMask_or_deltaBits (hf.linked_free (load n m (pageContent + o))) hdvd' hle'
      rw [if_pos hsteal] at hvalue
      rw [linked, if_pos hsteal, hvalue]

/-! ### One step of the writer -/

/-- What `makeRebaseChain` does when it gives no diagnostic: a direct link, a link through
stolen words, or the end of a chain. -/
lemma makeRebaseChain_cases (hf : f.Lawful lo len pageSize) {last : Nat} (hlt : last < offset)
    (hdvd : 4 ∣ offset - last) {r : LinkResult} (hr : f.makeRebaseChain m pageContent last offset = r)
    (hdiag : r.diag = none) :
    (offset ≤ last + f.maxDelta ∧ r.linked = true ∧
      r.mem = store n m (pageContent + last) (f.pointerValue (load n m (pageContent + last)) |||
        f.deltaBits (offset - last) ||| f.tag (pageContent + last))) ∨
    (last + f.maxDelta < offset ∧ r.linked = true ∧ ∃ os, f.Path m pageContent last os offset ∧
      r.mem = f.linkChain m pageContent last (os ++ [offset])) ∨
    (last + f.maxDelta < offset ∧ r.linked = false ∧
      r.mem = store n m (pageContent + last) (f.pointerValue (load n m (pageContent + last)))) := by
  subst hr
  unfold makeRebaseChain at hdiag ⊢
  simp only at hdiag ⊢
  split_ifs at hdiag ⊢ with hin hnear
  · exact Or.inl ⟨hnear, rfl, rfl⟩
  · right
    cases hsteal : f.stealLocations m pageContent offset (offset + 1) last with
    | none => exact Or.inr ⟨by omega, rfl, rfl⟩
    | some os => exact Or.inl ⟨by omega, rfl, os, stealLocations_some hf hlt hdvd hsteal, rfl⟩

lemma directLink_spec (hf : f.Lawful lo len pageSize) (v : BitVec (8 * n)) (a : Nat) {delta : Nat}
    (hdvd : 4 ∣ delta) (hle : delta ≤ f.maxDelta) :
    f.next (f.pointerValue v ||| f.deltaBits delta ||| f.tag a) = delta ∧
      (f.pointerValue v ||| f.deltaBits delta ||| f.tag a) &&& f.valueMask =
        f.pointerValue v ||| f.tag a := by
  have hfree : (f.pointerValue v ||| f.tag a) &&& f.deltaMask = 0#(8 * n) := by
    rw [BitVec.and_or_distrib_right, Lawful.pointerValue_free, hf.tag_free, BitVec.or_zero]
  have hswap : f.pointerValue v ||| f.deltaBits delta ||| f.tag a =
      f.pointerValue v ||| f.tag a ||| f.deltaBits delta := by
    rw [BitVec.or_assoc, BitVec.or_comm (f.deltaBits delta), ← BitVec.or_assoc]
  rw [hswap]
  exact ⟨hf.next_or_deltaBits hfree hdvd hle, hf.valueMask_or_deltaBits hfree hdvd hle⟩

/-- The rebase locations from `last` on: `last` itself, then the flags of a list. -/
def Ahead (f : ChainFormat n) (marked direct : Nat → Prop) (pageContent : Nat) : Nat → List Nat → Prop
  | last, [] => marked (pageContent + last) ∧ ¬direct (pageContent + last)
  | last, j :: js =>
    marked (pageContent + last) ∧ last < j * 4 ∧
      (direct (pageContent + last) ↔ j * 4 ≤ last + f.maxDelta) ∧
      (∀ o, last < o → o < j * 4 → ¬marked (pageContent + o)) ∧
      Ahead f marked direct pageContent (j * 4) js

lemma Ahead.marked_last {last : Nat} {js : List Nat} (h : f.Ahead marked direct pageContent last js) :
    marked (pageContent + last) := by
  cases js with
  | nil => exact h.1
  | cons j js => exact h.1

lemma Ahead.lt {last : Nat} {js : List Nat} (h : f.Ahead marked direct pageContent last js) {j : Nat}
    (hj : j ∈ js) : last < j * 4 ∧ marked (pageContent + j * 4) := by
  induction js generalizing last with
  | nil => simp at hj
  | cons i js ih =>
    obtain ⟨-, hlt, -, -, hrest⟩ := h
    rcases List.mem_cons.mp hj with rfl | hj
    · exact ⟨hlt, hrest.marked_last⟩
    · exact ⟨lt_trans hlt (ih hrest hj).1, (ih hrest hj).2⟩

def Starts (f : ChainFormat n) (extras hs : List Nat) (startValue : Nat) (pageExtras : List Nat) :
    Prop :=
  (hs = [startValue] ∧ pageExtras = extras) ∨
    (2 ≤ hs.length ∧ extras.length ≤ f.lastIndex ∧ startValue = extras.length ||| useExtra ∧
      pageExtras = extras ++ hs)

lemma or_useExtra_and (k : Nat) : (k ||| useExtra) &&& useExtra ≠ 0 := by
  have h : (k ||| useExtra) &&& useExtra = useExtra := by
    rw [Nat.and_comm, Nat.or_comm]
    apply Nat.eq_of_testBit_eq
    intro i
    simp only [Nat.testBit_and, Nat.testBit_or]
    cases useExtra.testBit i <;> simp
  rw [h]
  decide

lemma Starts.ne_noRebase (hf : f.Lawful lo len pageSize) {extras hs pageExtras : List Nat}
    {startValue : Nat} (h : f.Starts extras hs startValue pageExtras)
    (hlt : ∀ i ∈ hs, i < pageSize / 4) : startValue ≠ f.noRebase := by
  rcases h with ⟨rfl, -⟩ | ⟨-, hle, rfl, -⟩
  · exact (hf.start _ (hlt _ (by simp))).1
  · exact (hf.index _ hle).1

lemma addExtra_ok {s s' : PageState} {i : Nat} (h : f.addExtra s i = .ok s') :
    s'.mem = s.mem ∧ s'.diag = s.diag := by
  unfold addExtra at h
  simp only at h
  split_ifs at h <;>
  · rw [Except.ok.injEq] at h
    subst h
    exact ⟨rfl, rfl⟩

lemma Starts.addExtra (hf : f.Lawful lo len pageSize) {extras hs : List Nat} {s s' : PageState} {i : Nat}
    (h : f.Starts extras hs s.startValue s.pageExtras) (hlt : ∀ i ∈ hs, i < pageSize / 4)
    (hs' : f.addExtra s i = .ok s') :
    f.Starts extras (hs ++ [i]) s'.startValue s'.pageExtras := by
  unfold ChainFormat.addExtra at hs'
  rcases h with ⟨rfl, hex⟩ | ⟨hlen, hle, hstart, hex⟩
  · have h0 : s.startValue &&& useExtra = 0 := (hf.start _ (hlt _ (by simp))).2.1
    rw [if_pos h0] at hs'
    simp only at hs'
    split_ifs at hs' with hover
    rw [Except.ok.injEq] at hs'
    subst hs'
    refine Or.inr ⟨by simp, ?_, ?_, ?_⟩
    · rw [← hex]
      omega
    · rw [hex]
    · simp [hex]
  · have h1 : ¬s.startValue &&& useExtra = 0 := by
      rw [hstart]
      exact or_useExtra_and _
    rw [if_neg h1, Except.ok.injEq] at hs'
    subst hs'
    refine Or.inr ⟨by simp; omega, hle, hstart, ?_⟩
    simp [hex]

/-- One more flag of `addPageStarts`, when no diagnostic follows. -/
lemma addLocation_cases {s s' : PageState} {j : Nat} (hstart : s.startValue ≠ f.noRebase)
    (h : f.addLocation pageContent s j = .ok s') (hdiag : s'.diag = none) :
    ∃ r, f.makeRebaseChain s.mem pageContent s.lastLocationOffset (j * 4) = r ∧ r.diag = none ∧
      s'.lastLocationOffset = j * 4 ∧ s'.mem = r.mem ∧
      ((r.linked = true ∧ s'.startValue = s.startValue ∧ s'.pageExtras = s.pageExtras) ∨
        (r.linked = false ∧ ∃ t t', f.addExtra t j = .ok t' ∧ t.startValue = s.startValue ∧
          t.pageExtras = s.pageExtras ∧ s'.startValue = t'.startValue ∧
          s'.pageExtras = t'.pageExtras)) := by
  refine ⟨_, rfl, ?_⟩
  unfold addLocation at h
  rw [if_neg hstart] at h
  simp only at h
  split_ifs at h with hlinked
  · rw [Except.ok.injEq] at h
    subst h
    exact ⟨(Option.or_eq_none_iff.mp hdiag).1, rfl, rfl, Or.inl ⟨hlinked, rfl, rfl⟩⟩
  · cases hextra : f.addExtra _ j with
    | error e =>
      rw [hextra] at h
      cases h
    | ok t' =>
      rw [hextra] at h
      simp only [Except.map, Except.ok.injEq] at h
      subst h
      obtain ⟨hmem, hd⟩ := addExtra_ok hextra
      rw [show t'.diag = none from hdiag] at hd
      exact ⟨(Option.or_eq_none_iff.mp hd.symm).1, rfl, hmem, Or.inr ⟨by simpa using hlinked,
        _, t', hextra, rfl, rfl, rfl, rfl⟩⟩

/-- A diagnostic stays. -/
lemma diag_of_foldlM {s s' : PageState} {js : List Nat}
    (h : js.foldlM (f.addLocation pageContent) s = .ok s') (hdiag : s'.diag = none) :
    s.diag = none := by
  induction js generalizing s with
  | nil =>
    simp only [List.foldlM_nil, pure, Except.pure, Except.ok.injEq] at h
    rw [h]
    exact hdiag
  | cons j js ih =>
    rw [List.foldlM_cons] at h
    cases hstep : f.addLocation pageContent s j with
    | error e =>
      rw [hstep] at h
      cases h
    | ok t =>
      rw [hstep] at h
      have ht : t.diag = none := ih h
      unfold addLocation at hstep
      simp only at hstep
      split_ifs at hstep with hfirst hlinked
      · rw [Except.ok.injEq] at hstep
        subst hstep
        exact ht
      · rw [Except.ok.injEq] at hstep
        subst hstep
        exact (Option.or_eq_none_iff.mp ht).2
      · cases hextra : f.addExtra _ j with
        | error e =>
          rw [hextra] at hstep
          cases hstep
        | ok t' =>
          rw [hextra] at hstep
          simp only [Except.map, Except.ok.injEq] at hstep
          subst hstep
          have hd := (addExtra_ok hextra).2
          rw [show t'.diag = none from ht] at hd
          exact (Option.or_eq_none_iff.mp hd.symm).2

/-! ### The chains of a page -/

/-- The chains `cs` lie in a page at or after `first`, through rebase locations and, for words of
four bytes, other words. -/
structure PageChains (f : ChainFormat n) (marked direct : Nat → Prop) (first last : Nat)
    (m m' : Mem) (cs : List Chain) : Prop where
  encoding : Encoding n f.next (Keeps f marked direct) m m' cs
  bounds : ∀ c ∈ locations cs, first ≤ c ∧ c < last ∧ 4 ∣ c ∧ (marked c ∨ n = 4)

/-- The rebase locations share no byte. -/
def MarksApart (n : Nat) (marked : Nat → Prop) : Prop :=
  ∀ a b, marked a → marked b → a ≠ b → Apart n a b

lemma MarksApart.slots (hap : MarksApart n marked) {a b : Nat} (hab : a < b) (ha4 : 4 ∣ a)
    (hb4 : 4 ∣ b) (ha : marked a ∨ n = 4) (hb : marked b ∨ n = 4) : Apart n a b := by
  by_cases hn : n = 4
  · exact apart_of_dvd hn hab (by omega)
  · exact hap a b (ha.resolve_right hn) (hb.resolve_right hn) (by omega)

variable {s s' : PageState} {js : List Nat}

lemma pageChains_end {a last : Nat} (hlast : a < last) (h4 : 4 ∣ a)
    (hmark : marked a) (hdirect : ¬direct a) :
    f.PageChains marked direct a last m (store n m a (f.pointerValue (load n m a))) [(a, [])] := by
  have hfree := Lawful.pointerValue_free f (load n m a)
  constructor
  · apply Encoding.single (Lawful.next_of_free hfree)
    refine Or.inl ⟨hmark, fun h => absurd h hdirect, fun _ => ?_⟩
    exact and_not_of_and_eq_zero hfree
  · intro c hc
    simp only [locations_cons, locations_nil, List.append_nil, List.mem_singleton] at hc
    subst hc
    exact ⟨le_rfl, hlast, h4, Or.inl hmark⟩

lemma pageChains_direct (hf : f.Lawful lo len pageSize) (hap : MarksApart n marked) {a b last : Nat}
    {l : List Nat} {cs : List Chain} (hab : a < b) (hle : b ≤ a + f.maxDelta) (ha4 : 4 ∣ a)
    (hb4 : 4 ∣ b) (hmark : marked a) (hdirect : direct a) (hlast : a < last)
    (h : f.PageChains marked direct b last (store n m a (f.pointerValue (load n m a) |||
      f.deltaBits (b - a) ||| f.tag a)) m' ((b, l) :: cs)) :
    f.PageChains marked direct a last m m' ((a, b :: l) :: cs) := by
  have hdvd : 4 ∣ b - a := by omega
  obtain ⟨hnext, hvalue⟩ := directLink_spec hf (load n m a) a hdvd (by omega)
  constructor
  · apply Encoding.link h.encoding
    · intro c hc
      obtain ⟨h1, h2, h3, h4⟩ := h.bounds c hc
      exact hap.slots (by omega) ha4 h3 (Or.inl hmark) h4
    · rw [hnext]
      omega
    · rw [hnext]
      omega
    · exact Or.inl ⟨hmark, fun _ => hvalue, fun hd => absurd hdirect hd⟩
  · intro c hc
    have hc' : c = a ∨ c ∈ locations ((b, l) :: cs) := by simpa using hc
    rcases hc' with rfl | hc'
    · exact ⟨le_rfl, hlast, ha4, Or.inl hmark⟩
    · have hb := h.bounds c hc'
      exact ⟨by omega, hb.2⟩

lemma pageChains_split (hap : MarksApart n marked) {a b last : Nat} {cs : List Chain} (hab : a < b)
    (ha4 : 4 ∣ a) (hmark : marked a) (hdirect : ¬direct a) (hlast : a < last)
    (h : f.PageChains marked direct b last (store n m a (f.pointerValue (load n m a))) m' cs) :
    f.PageChains marked direct a last m m' ((a, []) :: cs) := by
  have hend : f.PageChains marked direct a last m _ [(a, [])] :=
    pageChains_end hlast ha4 hmark hdirect
  constructor
  · apply hend.encoding.append h.encoding
    intro x hx c hc
    simp only [locations_cons, locations_nil, List.append_nil, List.mem_singleton] at hx
    subst hx
    obtain ⟨h1, h2, h3, h4⟩ := h.bounds c hc
    exact hap.slots (by omega) ha4 h3 (Or.inl hmark) h4
  · intro c hc
    rcases List.mem_append.mp hc with hc | hc
    · exact hend.bounds c (by simpa using hc)
    · have hb := h.bounds c hc
      exact ⟨by omega, hb.2⟩

lemma pageChains_steal (hf : f.Lawful lo len pageSize) (hn : n = 4) {l : List Nat} {cs : List Chain}
    {end_ : Nat} (hpath : f.Path m pageContent prev os offset) (h4 : 4 ∣ pageContent + prev)
    (hmark : marked (pageContent + prev)) (hdirect : ¬direct (pageContent + prev))
    (hns : f.stealable (load n m (pageContent + prev)) = false)
    (hbetween : ∀ o, prev < o → o < offset → ¬marked (pageContent + o))
    (h : f.PageChains marked direct (pageContent + offset) end_
      (f.linkChain m pageContent prev (os ++ [offset])) m' ((pageContent + offset, l) :: cs)) :
    f.PageChains marked direct (pageContent + prev) end_ m m'
      ((pageContent + prev, os.map (fun o => pageContent + o) ++ (pageContent + offset) :: l) :: cs) := by
  have hlt := hpath.lt
  have hoff := h.bounds (pageContent + offset) (by simp)
  constructor
  · apply encoding_linkChain hf hn hpath h.encoding
    · intro c hc
      have hb := h.bounds c hc
      omega
    · intro delta hdvd hle
      have hvalue := hf.valueMask_or_deltaBits (hf.linked_free (load n m (pageContent + prev))) hdvd hle
      rw [hns] at hvalue
      refine Or.inl ⟨hmark, fun hd => absurd hd hdirect, fun _ => ?_⟩
      rw [linked, hns]
      exact hvalue
    · intro o ho
      have := hpath.mem ho
      exact hbetween o this.1 this.2.1
  · intro c hc
    have hc' : c = pageContent + prev ∨ (∃ o ∈ os, pageContent + o = c) ∨
        c ∈ locations ((pageContent + offset, l) :: cs) := by
      simpa [or_assoc] using hc
    rcases hc' with rfl | ⟨o, ho, rfl⟩ | hc'
    · exact ⟨le_rfl, by omega, h4, Or.inl hmark⟩
    · have hmem := hpath.mem ho
      exact ⟨by omega, by omega, by omega, Or.inr hn⟩
    · have hb := h.bounds c hc'
      exact ⟨by omega, hb.2⟩

/-- The chains from the offset `last` on, as the end `s'` of `addPageStarts` leaves them in a page
that held `m` before: they go through `last` and the flags `js`, and their starts follow `hs`. -/
def ChainsFrom (f : ChainFormat n) (marked direct : Nat → Prop) (pageContent pageSize : Nat)
    (extras hs : List Nat) (last : Nat) (m : Mem) (js : List Nat) (s' : PageState) : Prop :=
  ∃ l cs ts,
    f.PageChains marked direct (pageContent + last) (pageContent + pageSize) m
      (store n s'.mem (pageContent + s'.lastLocationOffset)
        (f.pointerValue (load n s'.mem (pageContent + s'.lastLocationOffset))))
      ((pageContent + last, l) :: cs) ∧
    cs.map Prod.fst = ts.map (fun i => pageContent + i * 4) ∧ (∀ i ∈ ts, i < pageSize / 4) ∧
    f.Starts extras (hs ++ ts) s'.startValue s'.pageExtras ∧
    ∀ j ∈ js, pageContent + j * 4 ∈ locations ((pageContent + last, l) :: cs)

lemma ChainsFrom.linkDirect (hf : f.Lawful lo len pageSize) (hap : MarksApart n marked)
    {extras hs : List Nat} {last j : Nat} (hpage : 4 ∣ pageContent) (hlast4 : 4 ∣ last)
    (hlast : last < pageSize) (hlt : last < j * 4) (hnear : j * 4 ≤ last + f.maxDelta)
    (hmark : marked (pageContent + last)) (hdirect : direct (pageContent + last))
    (h : f.ChainsFrom marked direct pageContent pageSize extras hs (j * 4)
      (store n m (pageContent + last) (f.pointerValue (load n m (pageContent + last)) |||
        f.deltaBits (j * 4 - last) ||| f.tag (pageContent + last))) js s') :
    f.ChainsFrom marked direct pageContent pageSize extras hs last m (j :: js) s' := by
  obtain ⟨l, cs, ts, hchains, hfst, hts, hstarts, hall⟩ := h
  refine ⟨(pageContent + j * 4) :: l, cs, ts, ?_, hfst, hts, hstarts, ?_⟩
  · refine pageChains_direct (b := pageContent + j * 4) hf hap (by omega) (by omega) (by omega)
      (by omega) hmark hdirect (by omega) ?_
    rwa [Nat.add_sub_add_left]
  · intro i hi
    rcases List.mem_cons.mp hi with rfl | hi
    · simp
    · exact List.mem_cons_of_mem _ (hall i hi)

lemma ChainsFrom.linkSteal (hf : f.Lawful lo len pageSize) (hn : n = 4) {extras hs : List Nat}
    {last j : Nat} (hpage : 4 ∣ pageContent) (hlast4 : 4 ∣ last)
    (hpath : f.Path m pageContent last os (j * 4)) (hmark : marked (pageContent + last))
    (hdirect : ¬direct (pageContent + last))
    (hns : f.stealable (load n m (pageContent + last)) = false)
    (hbetween : ∀ o, last < o → o < j * 4 → ¬marked (pageContent + o))
    (h : f.ChainsFrom marked direct pageContent pageSize extras hs (j * 4)
      (f.linkChain m pageContent last (os ++ [j * 4])) js s') :
    f.ChainsFrom marked direct pageContent pageSize extras hs last m (j :: js) s' := by
  obtain ⟨l, cs, ts, hchains, hfst, hts, hstarts, hall⟩ := h
  refine ⟨os.map (fun o => pageContent + o) ++ (pageContent + j * 4) :: l, cs, ts, ?_, hfst, hts,
    hstarts, ?_⟩
  · exact pageChains_steal hf hn hpath (by omega) hmark hdirect hns hbetween hchains
  · intro i hi
    have hin : ∀ c, c ∈ locations ((pageContent + j * 4, l) :: cs) → c ∈ locations ((pageContent + last,
        os.map (fun o => pageContent + o) ++ (pageContent + j * 4) :: l) :: cs) := by
      intro c hc
      simp only [locations_cons, List.mem_append, List.mem_cons] at hc ⊢
      tauto
    rcases List.mem_cons.mp hi with rfl | hi
    · exact hin _ (by simp)
    · exact hin _ (hall i hi)

lemma ChainsFrom.startChain (hap : MarksApart n marked) {extras hs : List Nat} {last j : Nat}
    (hpage : 4 ∣ pageContent) (hlast4 : 4 ∣ last) (hlast : last < pageSize) (hlt : last < j * 4)
    (hj : j < pageSize / 4) (hmark : marked (pageContent + last))
    (hdirect : ¬direct (pageContent + last))
    (h : f.ChainsFrom marked direct pageContent pageSize extras (hs ++ [j]) (j * 4)
      (store n m (pageContent + last) (f.pointerValue (load n m (pageContent + last)))) js s') :
    f.ChainsFrom marked direct pageContent pageSize extras hs last m (j :: js) s' := by
  obtain ⟨l, cs, ts, hchains, hfst, hts, hstarts, hall⟩ := h
  refine ⟨[], (pageContent + j * 4, l) :: cs, j :: ts, ?_, ?_, ?_, ?_, ?_⟩
  · exact pageChains_split hap (by omega) (by omega) hmark hdirect (by omega) hchains
  · simp [hfst]
  · intro i hi
    rcases List.mem_cons.mp hi with rfl | hi
    · exact hj
    · exact hts i hi
  · simpa using hstarts
  · intro i hi
    have hin : pageContent + i * 4 ∈ locations ((pageContent + j * 4, l) :: cs) := by
      rcases List.mem_cons.mp hi with rfl | hi
      · simp
      · exact hall i hi
    exact List.mem_append_right _ hin

/-- The chains from the last location of a state on. -/
theorem foldlM_addLocation (hf : f.Lawful lo len pageSize) (hap : MarksApart n marked)
    (hpage : 4 ∣ pageContent) {extras hs : List Nat}
    (h : js.foldlM (f.addLocation pageContent) s = .ok s') (hdiag : s'.diag = none)
    (hahead : f.Ahead marked direct pageContent s.lastLocationOffset js)
    (hlast : s.lastLocationOffset < pageSize) (hlast4 : 4 ∣ s.lastLocationOffset)
    (hjs : ∀ j ∈ js, j < pageSize / 4)
    (hns : ∀ o, o = s.lastLocationOffset ∨ o ∈ js.map (fun j => j * 4) →
      f.stealable (load n s.mem (pageContent + o)) = false)
    (hstarts : f.Starts extras hs s.startValue s.pageExtras) (hhs : ∀ i ∈ hs, i < pageSize / 4) :
    (s'.lastLocationOffset < pageSize ∧ 4 ∣ s'.lastLocationOffset) ∧
      f.ChainsFrom marked direct pageContent pageSize extras hs s.lastLocationOffset s.mem js s' := by
  induction js generalizing s hs with
  | nil =>
    simp only [List.foldlM_nil, pure, Except.pure, Except.ok.injEq] at h
    subst h
    refine ⟨⟨hlast, hlast4⟩, [], [], [], ?_, rfl, by simp, by simpa using hstarts, by simp⟩
    exact pageChains_end (by omega) (by omega) hahead.1 hahead.2
  | cons j js ih =>
    rw [List.foldlM_cons] at h
    cases hstep : f.addLocation pageContent s j with
    | error e =>
      rw [hstep] at h
      cases h
    | ok t =>
      rw [hstep] at h
      have htdiag : t.diag = none := diag_of_foldlM h hdiag
      obtain ⟨r, hr, hrdiag, htlast, htmem, hcases⟩ :=
        addLocation_cases (hstarts.ne_noRebase hf hhs) hstep htdiag
      obtain ⟨hmark, hlt, hdirect, hbetween, hrest⟩ := hahead
      have hj : j < pageSize / 4 := hjs j (by simp)
      have hlater : ∀ o, o = j * 4 ∨ o ∈ js.map (fun j => j * 4) →
          j * 4 ≤ o ∧ 4 ∣ o ∧ marked (pageContent + o) := by
        rintro o (rfl | ho)
        · exact ⟨le_rfl, by omega, hrest.marked_last⟩
        · obtain ⟨i, hi, rfl⟩ := List.mem_map.mp ho
          have hlt' := hrest.lt hi
          exact ⟨by omega, by omega, hlt'.2⟩
      have hstore : ∀ w o, o = j * 4 ∨ o ∈ js.map (fun j => j * 4) →
          load n (store n s.mem (pageContent + s.lastLocationOffset) w) (pageContent + o) =
            load n s.mem (pageContent + o) := by
        intro w o ho
        obtain ⟨hle, -, hmark'⟩ := hlater o ho
        exact load_store_apart (hap _ _ hmark hmark' (by omega))
      -- the rest of the loop, once the later locations are known to be as they were
      have hloop : ∀ hs', f.Starts extras hs' t.startValue t.pageExtras →
          (∀ i ∈ hs', i < pageSize / 4) →
          (∀ o, o = j * 4 ∨ o ∈ js.map (fun j => j * 4) →
            load n r.mem (pageContent + o) = load n s.mem (pageContent + o)) →
          (s'.lastLocationOffset < pageSize ∧ 4 ∣ s'.lastLocationOffset) ∧
            f.ChainsFrom marked direct pageContent pageSize extras hs' (j * 4) r.mem js s' := by
        intro hs' hstarts' hhs' hload
        rw [← htlast, ← htmem]
        refine ih h (by rw [htlast]; exact hrest) (by omega) (by omega)
          (fun i hi => hjs i (List.mem_cons_of_mem j hi)) ?_ hstarts' hhs'
        intro o ho
        rw [htlast] at ho
        rw [htmem, hload o ho]
        apply hns
        right
        simpa using ho
      rcases makeRebaseChain_cases hf hlt (by omega) hr hrdiag with
        ⟨hnear, hlinked, hmem⟩ | ⟨hfar, hlinked, os, hpath, hmem⟩ | ⟨hfar, hlinked, hmem⟩
      · obtain ⟨-, hstart, hextras⟩ | ⟨hnot, -⟩ := hcases
        · rw [← hstart, ← hextras] at hstarts
          rw [hmem] at hloop
          obtain ⟨hl, hrest'⟩ := hloop hs hstarts hhs (hstore _)
          exact ⟨hl, hrest'.linkDirect hf hap hpage hlast4 hlast hlt hnear hmark (hdirect.mpr hnear)⟩
        · exact absurd (hlinked.symm.trans hnot) (by decide)
      · obtain ⟨-, hstart, hextras⟩ | ⟨hnot, -⟩ := hcases
        · rw [← hstart, ← hextras] at hstarts
          rw [hmem] at hloop
          have hn : n = 4 := by
            rcases hf.size with hn | ⟨-, hn⟩
            · exact hn
            · rw [← hf.maxDelta_eq] at hn
              omega
          obtain ⟨hl, hrest'⟩ := hloop hs hstarts hhs (fun o ho =>
            load_linkChain hn hpath (hlater o ho).1 (by have := (hlater o ho).2.1; omega))
          exact ⟨hl, hrest'.linkSteal hf hn hpage hlast4 hpath hmark (fun hd => by have := hdirect.mp hd; omega)
            (hns _ (Or.inl rfl)) hbetween⟩
        · exact absurd (hlinked.symm.trans hnot) (by decide)
      · obtain ⟨hnot, -⟩ | ⟨-, u, u', hextra, hu, huex, hstart, hextras⟩ := hcases
        · exact absurd (hnot.symm.trans hlinked) (by decide)
        · rw [← hu, ← huex] at hstarts
          have hstarts' := hstarts.addExtra hf hhs hextra
          rw [← hstart, ← hextras] at hstarts'
          rw [hmem] at hloop
          have hhs' : ∀ i ∈ hs ++ [j], i < pageSize / 4 := by
            intro i hi
            rcases List.mem_append.mp hi with hi | hi
            · exact hhs i hi
            · rw [List.mem_singleton.mp hi]
              exact hj
          obtain ⟨hl, hrest'⟩ := hloop (hs ++ [j]) hstarts' hhs' (hstore _)
          exact ⟨hl, hrest'.startChain hap hpage hlast4 hlast hlt hj hmark
            (fun hd => by have := hdirect.mp hd; omega)⟩

end ChainFormat

end Dyld.SlideInfo
