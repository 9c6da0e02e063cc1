import Dyld.Chained.KernelFixups
import Dyld.Lib.Chains

/-!
# The pages of a kernel collection

What `buildChainedFixups` does to a page and to a segment: the tracked locations become one chain a
page, each location decodes to what it stood for, and the starts table has the first of each page.
-/

namespace Dyld.Chained

open Dyld.Lib

/-! ### Loops that may fail -/

section Loops

variable {α σ : Type} {f : σ → α → Option σ}

/-- What each turn of a loop preserves, with the items so far. -/
lemma foldlM_inv {I : List α → σ → Prop} {xs : List α} {s s' : σ}
    (hstep : ∀ l x r s s', xs = l ++ x :: r → I l s → f s x = some s' → I (l ++ [x]) s')
    (h0 : I [] s) (h : xs.foldlM f s = some s') : I xs s' := by
  have hrun : ∀ (r l : List α) (s : σ), xs = l ++ r → I l s → r.foldlM f s = some s' → I xs s' := by
    intro r
    induction r with
    | nil =>
      intro l s hl hI h
      obtain rfl := Option.some.inj h
      rwa [hl, List.append_nil]
    | cons x r ih =>
      intro l s hl hI h
      rw [List.foldlM_cons] at h
      obtain ⟨t, ht, h⟩ := Option.bind_eq_some_iff.mp h
      exact ih (l ++ [x]) t (by simp [hl]) (hstep l x r s t hl hI ht) h
  exact hrun xs [] s rfl h0 h

lemma foldlM_range_inv {f : σ → Nat → Option σ} {I : Nat → σ → Prop} {n : Nat} {s s' : σ}
    (hstep : ∀ q s s', q < n → I q s → f s q = some s' → I (q + 1) s') (h0 : I 0 s)
    (h : (List.range n).foldlM f s = some s') : I n s' := by
  induction n generalizing s' with
  | zero =>
    obtain rfl := Option.some.inj h
    exact h0
  | succ n ih =>
    rw [List.range_succ, List.foldlM_append] at h
    obtain ⟨t, ht, h⟩ := Option.bind_eq_some_iff.mp h
    rw [List.foldlM_cons] at h
    obtain ⟨u, hu, h⟩ := Option.bind_eq_some_iff.mp h
    obtain rfl := Option.some.inj h
    exact hstep n t u (Nat.lt_succ_self n) (ih (fun q s s' hq => hstep q s s' (by omega)) ht) hu

end Loops

/-! ### One location -/

structure Decodes (c : AppCache) (loc : Nat) (old new : PointerOnDisk) : Prop where
  target : new.kernel64Target = c.targetVMOffset loc old
  level : new.kernel64CacheLevel = c.fixupLevel loc
  auth : ∀ data, c.aslrTracker.authDataMap loc = some data → new.kernel64IsAuth = 1 ∧
    new.kernel64Diversity = data.diversity ∧ new.kernel64AddrDiv = data.addrDiv.toNat ∧
    new.kernel64Key = data.key
  plain : c.aslrTracker.authDataMap loc = none → new.kernel64IsAuth = 0

section Location

variable {c : AppCache} {mem mem' : Mem} {loc : Nat}

lemma Decodes.link {old new : PointerOnDisk} (h : Decodes c loc old new) (next : Nat) :
    Decodes c loc old (setField new 51 12 next) := by
  have hsame : ∀ {lo len}, lo + len ≤ 51 ∨ 63 ≤ lo →
      getField (setField new 51 12 next) lo len = getField new lo len :=
    fun hlo => getField_setField_apart _ (by omega)
  constructor
  · rw [← h.target]
    exact hsame (.inl (by norm_num))
  · rw [← h.level]
    exact hsame (.inl (by norm_num))
  · intro data hdata
    obtain ⟨hauth, hdiv, haddr, hkey⟩ := h.auth data hdata
    rw [← hauth, ← hdiv, ← haddr, ← hkey]
    exact ⟨hsame (.inr (by norm_num)), hsame (.inl (by norm_num)), hsame (.inl (by norm_num)),
      hsame (.inl (by norm_num))⟩
  · intro hnone
    rw [← h.plain hnone]
    exact hsame (.inr (by norm_num))

section Packed

variable {raw : PointerOnDisk} {offset level : Nat} {auth : Option AuthData}

lemma kernel64CacheLevel_packedLocation :
    (AppCache.packedLocation raw offset level auth).kernel64CacheLevel = level % 2 ^ 2 := by
  cases auth <;>
    simp (disch := omega) only [AppCache.packedLocation, PointerOnDisk.kernel64CacheLevel,
      getField_setField_apart, getField_setField_same]

lemma kernel64Next_packedLocation :
    (AppCache.packedLocation raw offset level auth).kernel64Next = 0 := by
  cases auth <;>
    simp (disch := omega) only [AppCache.packedLocation, PointerOnDisk.kernel64Next,
      getField_setField_apart, getField_setField_same, Nat.zero_mod]

lemma auth_packedLocation (data : AuthData) :
    (AppCache.packedLocation raw offset level (some data)).kernel64IsAuth = 1 ∧
      (AppCache.packedLocation raw offset level (some data)).kernel64Diversity = data.diversity ∧
      (AppCache.packedLocation raw offset level (some data)).kernel64AddrDiv = data.addrDiv.toNat ∧
      (AppCache.packedLocation raw offset level (some data)).kernel64Key = data.key := by
  have hbit : data.addrDiv.toNat % 2 ^ 1 = data.addrDiv.toNat := by cases data.addrDiv <;> rfl
  simp (disch := omega) only [AppCache.packedLocation, PointerOnDisk.kernel64IsAuth,
    PointerOnDisk.kernel64Diversity, PointerOnDisk.kernel64AddrDiv, PointerOnDisk.kernel64Key,
    getField_setField_apart, getField_setField_same, hbit, Nat.mod_eq_of_lt data.diversity_lt,
    Nat.mod_eq_of_lt data.key_lt, and_true]
  rfl

lemma kernel64IsAuth_packedLocation_none :
    (AppCache.packedLocation raw offset level none).kernel64IsAuth = 0 := by
  simp (disch := omega) only [AppCache.packedLocation, PointerOnDisk.kernel64IsAuth,
    getField_setField_same, Nat.zero_mod]

end Packed

lemma of_packFixup (h : c.packFixup mem loc = some mem') :
    ∃ raw : PointerOnDisk, mem' = store 8 mem loc raw ∧ raw.kernel64Next = 0 ∧
      Decodes c loc (load 8 mem loc) raw := by
  unfold AppCache.packFixup at h
  dsimp only at h
  split_ifs at h with hlevel htarget
  rw [not_not] at htarget
  obtain rfl := Option.some.inj h
  refine ⟨_, rfl, kernel64Next_packedLocation, ?_⟩
  constructor
  · exact htarget
  · rw [kernel64CacheLevel_packedLocation]
    exact Nat.mod_eq_of_lt hlevel
  · intro data hdata
    rw [hdata]
    exact auth_packedLocation data
  · intro hnone
    rw [hnone]
    exact kernel64IsAuth_packedLocation_none

/-- The distance to the next location of a chain. -/
def AppCache.distance (c : AppCache) (raw : BitVec (8 * 8)) : Nat :=
  PointerOnDisk.kernel64Next raw * c.stride

/-- A location that is linked leads to the next one. -/
lemma of_linkLast {lastLoc : Nat} (h : c.linkLast mem lastLoc loc = some mem') (hlt : lastLoc < loc)
    (hdvd : c.stride ∣ loc - lastLoc) :
    ∃ next, mem' = store 8 mem lastLoc (setField (load 8 mem lastLoc) 51 12 next) ∧
      c.distance (setField (load 8 mem lastLoc) 51 12 next) ≠ 0 ∧
      lastLoc + c.distance (setField (load 8 mem lastLoc) 51 12 next) = loc := by
  unfold AppCache.linkLast at h
  dsimp only at h
  split_ifs at h with hzero hnext
  rw [not_not] at hnext
  have hdistance : c.distance (setField (load 8 mem lastLoc) 51 12 ((loc - lastLoc) / c.stride)) =
      loc - lastLoc := by
    rw [AppCache.distance, hnext, Nat.div_mul_cancel hdvd]
  exact ⟨_, (Option.some.inj h).symm, by omega, by omega⟩

end Location

/-! ### One page -/

/-- At most one chain, through the locations of a list. -/
def chainOf : List Nat → List Chain
  | [] => []
  | a :: l => [(a, l)]

@[simp] lemma locations_chainOf (l : List Nat) : locations (chainOf l) = l := by
  cases l <;> simp [chainOf]

section Page

variable (c : AppCache) (seg : SegmentFixups) (pageIndex : Nat)

def trackedOffsets (q : Nat) : List Nat :=
  (List.range q).filter (fun o => c.aslrTracker.bitmap (c.fixupLoc seg pageIndex o))

def trackedLocs (q : Nat) : List Nat := (trackedOffsets c seg pageIndex q).map (c.fixupLoc seg pageIndex)

variable {c seg pageIndex} {starts q : Nat}

lemma trackedOffsets_succ : trackedOffsets c seg pageIndex (q + 1) =
    if c.aslrTracker.bitmap (c.fixupLoc seg pageIndex q) then trackedOffsets c seg pageIndex q ++ [q]
    else trackedOffsets c seg pageIndex q := by
  rw [trackedOffsets, List.range_succ, List.filter_append]
  split_ifs with h
  · rw [List.filter_singleton, h]
    rfl
  · rw [Bool.not_eq_true] at h
    rw [List.filter_singleton, h]
    exact List.append_nil _

lemma lt_of_mem_trackedOffsets {o : Nat} (h : o ∈ trackedOffsets c seg pageIndex q) : o < q :=
  List.mem_range.mp (List.mem_filter.mp h).1

/-- What the loop over the bytes of a page has done below the offset `q`. -/
structure PageInv (c : AppCache) (seg : SegmentFixups) (starts pageIndex : Nat) (s₀ : FixupMem)
    (q : Nat) (s : PageState) : Prop where
  last : s.lastLoc = (trackedLocs c seg pageIndex q).getLast?
  aligned : ∀ o ∈ trackedOffsets c seg pageIndex q, o % c.stride = 0
  chains : Encoding 8 c.distance (Decodes c) s₀.mem s.mem (chainOf (trackedLocs c seg pageIndex q))
  buffer : s.buffer = match (trackedOffsets c seg pageIndex q).head? with
    | none => s₀.buffer
    | some o => storeNat 2 s₀.buffer (starts + offsetofPageStart pageIndex) o

lemma pageInv_zero (s : FixupMem) : PageInv c seg starts pageIndex s 0 ⟨s, none⟩ :=
  ⟨rfl, by simp [trackedOffsets], Encoding.nil _, rfl⟩

lemma trackedOffsets_of_tracked (h : c.aslrTracker.bitmap (c.fixupLoc seg pageIndex q) = true) :
    trackedOffsets c seg pageIndex (q + 1) = trackedOffsets c seg pageIndex q ++ [q] := by
  rw [trackedOffsets_succ, if_pos h]

lemma trackedLocs_of_tracked (h : c.aslrTracker.bitmap (c.fixupLoc seg pageIndex q) = true) :
    trackedLocs c seg pageIndex (q + 1) =
      trackedLocs c seg pageIndex q ++ [c.fixupLoc seg pageIndex q] := by
  rw [trackedLocs, trackedOffsets_of_tracked h, List.map_append, trackedLocs]
  rfl

section Step

variable {s₀ : FixupMem} {s s' : PageState}

lemma PageInv.untracked (h : PageInv c seg starts pageIndex s₀ q s)
    (htracked : ¬c.aslrTracker.bitmap (c.fixupLoc seg pageIndex q) = true) :
    PageInv c seg starts pageIndex s₀ (q + 1) s := by
  have hoffsets : trackedOffsets c seg pageIndex (q + 1) = trackedOffsets c seg pageIndex q := by
    rw [trackedOffsets_succ, if_neg htracked]
  have hlocs : trackedLocs c seg pageIndex (q + 1) = trackedLocs c seg pageIndex q := by
    rw [trackedLocs, hoffsets, trackedLocs]
  exact ⟨by rw [hlocs]; exact h.last, by rw [hoffsets]; exact h.aligned,
    by rw [hlocs]; exact h.chains, by rw [hoffsets]; exact h.buffer⟩

lemma PageInv.trackedLocs_eq_nil (h : PageInv c seg starts pageIndex s₀ q s) (hz : s.lastLoc = none) :
    trackedLocs c seg pageIndex q = [] := by
  rw [← List.getLast?_eq_none_iff, ← h.last, hz]

lemma PageInv.chains_first {mem : Mem} (h : PageInv c seg starts pageIndex s₀ q s)
    (htracked : c.aslrTracker.bitmap (c.fixupLoc seg pageIndex q) = true) (hz : s.lastLoc = none)
    (hpack : c.packFixup s.mem (c.fixupLoc seg pageIndex q) = some mem) :
    Encoding 8 c.distance (Decodes c) s₀.mem mem (chainOf (trackedLocs c seg pageIndex (q + 1))) := by
  obtain ⟨raw, rfl, hnext, hdecodes⟩ := of_packFixup hpack
  have hempty := h.trackedLocs_eq_nil hz
  have hchains := h.chains
  rw [hempty] at hchains
  have hmem : s.mem = s₀.mem := funext fun x => hchains.frame x (by simp [chainOf])
  rw [trackedLocs_of_tracked htracked, hempty]
  simp only [hmem] at hdecodes ⊢
  exact Encoding.single (by rw [AppCache.distance, hnext, Nat.zero_mul]) hdecodes

/-- A further location is linked to the last one. -/
lemma PageInv.chains_linked {z : Nat} {mem₁ mem₂ : Mem} (h : PageInv c seg starts pageIndex s₀ q s)
    (htracked : c.aslrTracker.bitmap (c.fixupLoc seg pageIndex q) = true) (halign : q % c.stride = 0)
    (hap : ∀ a ∈ trackedLocs c seg pageIndex q, Apart 8 a (c.fixupLoc seg pageIndex q))
    (hz : s.lastLoc = some z) (hlink : c.linkLast s.mem z (c.fixupLoc seg pageIndex q) = some mem₁)
    (hpack : c.packFixup mem₁ (c.fixupLoc seg pageIndex q) = some mem₂) :
    Encoding 8 c.distance (Decodes c) s₀.mem mem₂ (chainOf (trackedLocs c seg pageIndex (q + 1))) := by
  have hzlast : (trackedLocs c seg pageIndex q).getLast? = some z := by rw [← h.last, hz]
  have hzmem : z ∈ trackedLocs c seg pageIndex q := List.mem_of_getLast? hzlast
  obtain ⟨o, ho, rfl⟩ := List.mem_map.mp hzmem
  have hoq : o < q := lt_of_mem_trackedOffsets ho
  have hsub : c.fixupLoc seg pageIndex q - c.fixupLoc seg pageIndex o = q - o := by
    unfold AppCache.fixupLoc
    omega
  have hdvd : c.stride ∣ c.fixupLoc seg pageIndex q - c.fixupLoc seg pageIndex o := by
    rw [hsub]
    exact Nat.dvd_sub (Nat.dvd_of_mod_eq_zero halign) (Nat.dvd_of_mod_eq_zero (h.aligned o ho))
  have hlt : c.fixupLoc seg pageIndex o < c.fixupLoc seg pageIndex q := by
    unfold AppCache.fixupLoc
    omega
  obtain ⟨next, rfl, hne, hnext⟩ := of_linkLast hlink hlt hdvd
  obtain ⟨raw, rfl, hend, hdecodes⟩ := of_packFixup hpack
  obtain ⟨a, l, hal⟩ : ∃ a l, trackedLocs c seg pageIndex q = a :: l :=
    List.exists_cons_of_ne_nil (List.ne_nil_of_mem hzmem)
  have hchains := h.chains
  rw [hal] at hchains hzlast hzmem hap
  -- the word at the new location is still the one of the start
  have hold : load 8 (store 8 s.mem (c.fixupLoc seg pageIndex o)
      (setField (load 8 s.mem (c.fixupLoc seg pageIndex o)) 51 12 next)) (c.fixupLoc seg pageIndex q) =
        load 8 s₀.mem (c.fixupLoc seg pageIndex q) := by
    rw [load_store_apart (hap _ hzmem)]
    exact hchains.load_eq (by rw [locations_chainOf]; exact hap)
  have hword := hchains.words _ (by rw [locations_chainOf]; exact hzmem)
  rw [trackedLocs_of_tracked htracked, hal, List.cons_append]
  rw [hold] at hdecodes
  exact hchains.concat (by norm_num) hzlast hap hne hnext (hword.link next)
    (by rw [AppCache.distance, hend, Nat.zero_mul]) hdecodes

lemma PageInv.step (h : PageInv c seg starts pageIndex s₀ q s)
    (hap : (trackedLocs c seg pageIndex (q + 1)).Pairwise (Apart 8))
    (hstep : c.fixOffset seg starts pageIndex s q = some s') :
    PageInv c seg starts pageIndex s₀ (q + 1) s' := by
  unfold AppCache.fixOffset at hstep
  dsimp only at hstep
  by_cases htracked : c.aslrTracker.bitmap (c.fixupLoc seg pageIndex q) = true
  · have hoffsets := trackedOffsets_of_tracked htracked
    have hlocs := trackedLocs_of_tracked htracked
    rw [if_neg (by simp [htracked])] at hstep
    split_ifs at hstep with halign
    rw [not_not] at halign
    have haligned : ∀ o ∈ trackedOffsets c seg pageIndex (q + 1), o % c.stride = 0 := by
      rw [hoffsets]
      intro o ho
      rcases List.mem_append.mp ho with ho | ho
      · exact h.aligned o ho
      · rw [List.mem_singleton.mp ho]
        exact halign
    have hlast : (trackedLocs c seg pageIndex (q + 1)).getLast? = some (c.fixupLoc seg pageIndex q) := by
      rw [hlocs, List.getLast?_append]
      rfl
    cases hz : s.lastLoc with
    | none =>
      rw [hz] at hstep
      obtain ⟨mem, hpack, rfl⟩ := Option.map_eq_some_iff.mp hstep
      have hempty : trackedOffsets c seg pageIndex q = [] := List.map_eq_nil_iff.mp (h.trackedLocs_eq_nil hz)
      have hbuffer := h.buffer
      rw [hempty] at hbuffer
      refine ⟨hlast.symm, haligned, h.chains_first htracked hz hpack, ?_⟩
      simp only [hoffsets, hempty, hbuffer]
      rfl
    | some z =>
      rw [hz] at hstep
      obtain ⟨mem₁, hlink, hstep⟩ := Option.bind_eq_some_iff.mp hstep
      obtain ⟨mem₂, hpack, rfl⟩ := Option.map_eq_some_iff.mp hstep
      rw [hlocs, List.pairwise_append] at hap
      have hap' : ∀ a ∈ trackedLocs c seg pageIndex q, Apart 8 a (c.fixupLoc seg pageIndex q) :=
        fun a ha => hap.2.2 a ha _ (by simp)
      have hne : trackedOffsets c seg pageIndex q ≠ [] := by
        intro hnil
        have hlast' := h.last
        rw [hz, trackedLocs, hnil] at hlast'
        cases hlast'
      obtain ⟨first, hfirst⟩ := Option.isSome_iff_exists.mp (List.isSome_head?.mpr hne)
      refine ⟨hlast.symm, haligned, h.chains_linked htracked halign hap' hz hlink hpack, ?_⟩
      have hbuffer := h.buffer
      rw [hfirst] at hbuffer
      rw [hoffsets, List.head?_append, hfirst]
      exact hbuffer
  · rw [if_pos (by simpa using htracked)] at hstep
    obtain rfl := Option.some.inj hstep
    exact h.untracked htracked

end Step

lemma trackedOffsets_sublist {n : Nat} (h : q ≤ n) :
    (trackedOffsets c seg pageIndex q).Sublist (trackedOffsets c seg pageIndex n) :=
  (List.range_sublist.mpr h).filter _

lemma trackedLocs_sublist {n : Nat} (h : q ≤ n) :
    (trackedLocs c seg pageIndex q).Sublist (trackedLocs c seg pageIndex n) :=
  (trackedOffsets_sublist h).map _

variable (c seg pageIndex) in
def pageLocs : List Nat := trackedLocs c seg pageIndex c.fixupsPageSize

variable (c seg pageIndex) in
def pageStartOf : Nat := (trackedOffsets c seg pageIndex c.fixupsPageSize).head?.getD startNone

lemma fixupsPageSize_le : c.fixupsPageSize ≤ 16384 := by
  unfold AppCache.fixupsPageSize
  split_ifs <;> norm_num

variable (c seg pageIndex) in
lemma pageStartOf_cases : pageStartOf c seg pageIndex = startNone ∧ pageLocs c seg pageIndex = [] ∨
    ∃ o l, o < c.fixupsPageSize ∧ pageStartOf c seg pageIndex = o ∧
      pageLocs c seg pageIndex = c.fixupLoc seg pageIndex o :: l := by
  unfold pageStartOf pageLocs trackedLocs
  cases hoffsets : trackedOffsets c seg pageIndex c.fixupsPageSize with
  | nil => exact .inl ⟨rfl, rfl⟩
  | cons o os =>
    have ho : o < c.fixupsPageSize := lt_of_mem_trackedOffsets (hoffsets ▸ List.mem_cons_self)
    exact .inr ⟨o, _, ho, rfl, rfl⟩

variable (c seg pageIndex) in
lemma pageStartOf_lt : pageStartOf c seg pageIndex < 2 ^ 16 := by
  have hsize := fixupsPageSize_le (c := c)
  rcases pageStartOf_cases c seg pageIndex with ⟨h, -⟩ | ⟨o, l, ho, h, -⟩
  · rw [h]
    norm_num [startNone]
  · rw [h]
    omega

/-- A page becomes at most one chain, and its start goes to the table. -/
structure PageFixed (c : AppCache) (seg : SegmentFixups) (starts pageIndex : Nat) (s s' : FixupMem) :
    Prop where
  chains : Encoding 8 c.distance (Decodes c) s.mem s'.mem (chainOf (pageLocs c seg pageIndex))
  pageStart : loadNat s'.buffer (starts + offsetofPageStart pageIndex) 2 = pageStartOf c seg pageIndex
  buffer : ∀ x, ¬InWord 2 (starts + offsetofPageStart pageIndex) x → s'.buffer x = s.buffer x

lemma fixPage_spec {s s' : FixupMem} (hap : (pageLocs c seg pageIndex).Pairwise (Apart 8))
    (h : c.fixPage seg starts pageIndex s = some s') : PageFixed c seg starts pageIndex s s' := by
  unfold AppCache.fixPage at h
  dsimp only at h
  obtain ⟨t, ht, rfl⟩ := Option.map_eq_some_iff.mp h
  set s₀ : FixupMem :=
    { s with buffer := storeNat 2 s.buffer (starts + offsetofPageStart pageIndex) startNone } with hs₀
  have hinv : PageInv c seg starts pageIndex s₀ c.fixupsPageSize t := by
    refine foldlM_range_inv (fun q t t' hq hinv hstep => ?_) (pageInv_zero s₀) ht
    exact hinv.step (hap.sublist (trackedLocs_sublist hq)) hstep
  have hvalue : ∀ {m : Mem} {o : Nat}, o < 2 ^ 16 →
      loadNat (storeNat 2 m (starts + offsetofPageStart pageIndex) o)
        (starts + offsetofPageStart pageIndex) 2 = o := by
    intro m o ho
    rw [loadNat_storeNat_same]
    exact Nat.mod_eq_of_lt ho
  have hlt := pageStartOf_lt c seg pageIndex
  have hbuffer := hinv.buffer
  unfold pageStartOf at hlt
  constructor
  · exact hinv.chains
  · rw [hbuffer, pageStartOf]
    cases hhead : (trackedOffsets c seg pageIndex c.fixupsPageSize).head? with
    | none => exact hvalue (by norm_num [startNone])
    | some o =>
      rw [hhead] at hlt
      exact hvalue hlt
  · intro x hx
    rw [hbuffer]
    cases (trackedOffsets c seg pageIndex c.fixupsPageSize).head? with
    | none => exact storeNat_apply_of_not_inWord hx
    | some o =>
      exact (storeNat_apply_of_not_inWord hx).trans (storeNat_apply_of_not_inWord hx)

end Page

/-! ### One segment -/

section Segment

variable (c : AppCache) (seg : SegmentFixups)

/-- The tracked locations of the first `n` pages of a segment. -/
def locsBelow (n : Nat) : List Nat := (List.range n).flatMap (pageLocs c seg)

def chainsBelow (n : Nat) : List Chain := (List.range n).flatMap (fun p => chainOf (pageLocs c seg p))

variable {c seg} {starts n : Nat}

lemma locsBelow_succ : locsBelow c seg (n + 1) = locsBelow c seg n ++ pageLocs c seg n := by
  simp [locsBelow, List.range_succ]

lemma locations_chainsBelow : locations (chainsBelow c seg n) = locsBelow c seg n := by
  induction n with
  | zero => rfl
  | succ n ih =>
    have hchains : chainsBelow c seg (n + 1) = chainsBelow c seg n ++ chainOf (pageLocs c seg n) := by
      simp [chainsBelow, List.range_succ]
    rw [hchains, locations_append, ih, locations_chainOf, locsBelow_succ]

structure PagesFixed (c : AppCache) (seg : SegmentFixups) (starts n : Nat) (s s' : FixupMem) : Prop where
  chains : Encoding 8 c.distance (Decodes c) s.mem s'.mem (chainsBelow c seg n)
  pageStart : ∀ p < n, loadNat s'.buffer (starts + offsetofPageStart p) 2 = pageStartOf c seg p
  buffer : ∀ x, ¬(starts + 22 ≤ x ∧ x < starts + offsetofPageStart n) → s'.buffer x = s.buffer x

lemma PagesFixed.step {s₀ s s' : FixupMem} (h : PagesFixed c seg starts n s₀ s)
    (hap : (locsBelow c seg (n + 1)).Pairwise (Apart 8)) (hstep : c.fixPage seg starts n s = some s') :
    PagesFixed c seg starts (n + 1) s₀ s' := by
  rw [locsBelow_succ, List.pairwise_append] at hap
  obtain ⟨-, hpage, hcross⟩ := hap
  have hfixed := fixPage_spec hpage hstep
  constructor
  · have hchains : chainsBelow c seg (n + 1) = chainsBelow c seg n ++ chainOf (pageLocs c seg n) := by
      simp [chainsBelow, List.range_succ]
    rw [hchains]
    apply h.chains.append hfixed.chains
    rw [locations_chainsBelow, locations_chainOf]
    exact hcross
  · intro p hp
    rcases Nat.lt_or_eq_of_le (Nat.le_of_lt_succ hp) with hlt | rfl
    · rw [← h.pageStart p hlt]
      apply loadNat_congr
      intro x hx
      apply hfixed.buffer
      unfold InWord offsetofPageStart at *
      omega
    · exact hfixed.pageStart
  · intro x hx
    rw [hfixed.buffer x, h.buffer x]
    · unfold offsetofPageStart at *
      omega
    · unfold InWord offsetofPageStart at *
      omega

structure FieldsAt (c : AppCache) (baseAddress : Nat) (seg : SegmentFixups) (starts : Nat) (m : Mem) :
    Prop where
  pageSize : loadNat m (starts + 4) 2 = c.fixupsPageSize
  pointerFormat : loadNat m (starts + 6) 2 = c.chainedPointerFormat
  segmentOffset : loadNat m (starts + 8) 8 =
    (seg.unslidLoadAddress + (2 ^ 64 - baseAddress)) % 2 ^ 64
  pageCount : loadNat m (starts + 20) 2 = c.pageCount seg

lemma FieldsAt.congr {baseAddress : Nat} {m m' : Mem} (h : FieldsAt c baseAddress seg starts m)
    (hm : ∀ x, starts ≤ x → x < starts + 22 → m' x = m x) : FieldsAt c baseAddress seg starts m' := by
  have hload : ∀ a k, starts ≤ a → a + k ≤ starts + 22 → loadNat m' a k = loadNat m a k := by
    intro a k ha hk
    apply loadNat_congr
    intro x hx
    unfold InWord at hx
    exact hm x (by omega) (by omega)
  constructor
  · rw [hload _ _ (by omega) (by omega), h.pageSize]
  · rw [hload _ _ (by omega) (by omega), h.pointerFormat]
  · rw [hload _ _ (by omega) (by omega), h.segmentOffset]
  · rw [hload _ _ (by omega) (by omega), h.pageCount]

lemma chainedPointerFormat_lt : c.chainedPointerFormat < 2 ^ 16 := by
  unfold AppCache.chainedPointerFormat
  split_ifs <;> norm_num [ptrX8664KernelCache, ptr64KernelCache]

lemma fieldsAt_putFields (baseAddress : Nat) (m : Mem) :
    FieldsAt c baseAddress seg starts (c.putFields baseAddress seg starts m) := by
  have hsize := fixupsPageSize_le (c := c)
  unfold AppCache.putFields
  constructor
  · simp (disch := omega) only [loadNat_storeNat_of_disjoint, loadNat_storeNat_same]
    exact Nat.mod_eq_of_lt (by omega)
  · simp (disch := omega) only [loadNat_storeNat_of_disjoint, loadNat_storeNat_same]
    exact Nat.mod_eq_of_lt chainedPointerFormat_lt
  · simp (disch := omega) only [loadNat_storeNat_of_disjoint, loadNat_storeNat_same]
    exact Nat.mod_mod _ _
  · rw [loadNat_storeNat_same]
    exact Nat.mod_eq_of_lt (Nat.mod_lt _ (by norm_num))

lemma putFields_apply {baseAddress x : Nat} {m : Mem} (hx : ¬(starts ≤ x ∧ x < starts + 22)) :
    c.putFields baseAddress seg starts m x = m x := by
  unfold AppCache.putFields
  simp (disch := (unfold InWord; omega)) only [storeNat_apply_of_not_inWord]

structure SegmentFixed (c : AppCache) (baseAddress : Nat) (seg : SegmentFixups) (starts : Nat)
    (s s' : FixupMem) : Prop where
  chains : Encoding 8 c.distance (Decodes c) s.mem s'.mem (chainsBelow c seg (c.pageCount seg))
  fields : FieldsAt c baseAddress seg starts s'.buffer
  pageStart : ∀ p < c.pageCount seg,
    loadNat s'.buffer (starts + offsetofPageStart p) 2 = pageStartOf c seg p
  buffer : ∀ x, ¬(starts ≤ x ∧ x < starts + offsetofPageStart (c.pageCount seg)) →
    s'.buffer x = s.buffer x

lemma fixSegment_spec {baseAddress : Nat} {s s' : FixupMem}
    (hap : (locsBelow c seg (c.pageCount seg)).Pairwise (Apart 8))
    (h : c.fixSegment baseAddress s (seg, starts) = some s') :
    SegmentFixed c baseAddress seg starts s s' := by
  unfold AppCache.fixSegment at h
  dsimp only at h
  have hzero : PagesFixed c seg starts 0
      { s with buffer := c.putFields baseAddress seg starts s.buffer }
      { s with buffer := c.putFields baseAddress seg starts s.buffer } :=
    ⟨Encoding.nil _, by simp, fun _ _ => rfl⟩
  have hpages := foldlM_range_inv (I := fun n t => PagesFixed c seg starts n
    { s with buffer := c.putFields baseAddress seg starts s.buffer } t) (by
      intro q t t' hq hinv hstep
      have hsub : (locsBelow c seg (q + 1)).Sublist (locsBelow c seg (c.pageCount seg)) :=
        (List.range_sublist.mpr hq).flatMap _
      exact hinv.step (hap.sublist hsub) hstep) hzero h
  constructor
  · exact hpages.chains
  · apply (fieldsAt_putFields baseAddress s.buffer).congr
    intro x hx hx'
    exact hpages.buffer x (by omega)
  · exact hpages.pageStart
  · intro x hx
    rw [hpages.buffer x (by omega)]
    apply putFields_apply
    unfold offsetofPageStart at hx
    omega

end Segment

end Dyld.Chained
