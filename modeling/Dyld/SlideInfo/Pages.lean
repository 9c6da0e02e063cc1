import Dyld.SlideInfo.Link

/-!
# Pages and regions

The starts that `addPageStarts` records lead the loader to exactly the chains of the page, and
the pages of a region, written one after the other with their extras in one table, are walked
one after the other.
-/

namespace Dyld.SlideInfo

open Dyld.Lib

namespace ChainFormat

variable {n : Nat} {f : ChainFormat n} {lo len pageSize : Nat} {marked direct : Nat → Prop}
  {m m' : Mem} {pageContent : Nat}

/-! ### The starts of a page -/

lemma rebased_apply (f : ChainFormat n) (slideAmount : BitVec (8 * n)) (a : Nat)
    (rawValue : BitVec (8 * n)) :
    f.rebased slideAmount a rawValue = .ok (f.rebasedValue slideAmount (rawValue &&& f.valueMask)) :=
  rfl

def walkChains (f : ChainFormat n) (slideAmount : BitVec (8 * n)) (fuel : Nat) (s : Patching Empty)
    (starts : List Nat) : Option (Patching Empty × Bool) :=
  walkAll f.next (fun s => load n s.mem) (patch (f.rebased slideAmount)) fuel s starts

lemma snd_of_rebaseChain {slideAmount : BitVec (8 * n)} {fuel startOffset : Nat} {s : Patching Empty}
    {r : Patching Empty × Bool} (h : f.rebaseChain slideAmount fuel s pageContent startOffset = some r) :
    r.2 = false :=
  snd_of_walk (fun _ _ => rfl) h

lemma snd_of_walkChains {slideAmount : BitVec (8 * n)} {fuel : Nat} {s : Patching Empty}
    {starts : List Nat} {r : Patching Empty × Bool}
    (h : f.walkChains slideAmount fuel s starts = some r) : r.2 = false := by
  induction starts generalizing s with
  | nil =>
    simp only [walkChains, walkAll, Option.some.injEq] at h
    rw [← h]
  | cons a starts ih =>
    simp only [walkChains, walkAll] at h
    cases hw : walk f.next (fun s => load n s.mem) (patch (f.rebased slideAmount)) fuel s a with
    | none => simp [hw] at h
    | some r' =>
      rw [hw] at h
      simp only [snd_of_walk (fun _ _ => rfl) hw, Bool.false_eq_true, if_false] at h
      exact ih h

lemma walkChains_cons (slideAmount : BitVec (8 * n)) (fuel : Nat) (s : Patching Empty)
    (startOffset : Nat) (starts : List Nat) :
    f.walkChains slideAmount fuel s ((pageContent + startOffset) :: starts) =
      (f.rebaseChain slideAmount fuel s pageContent startOffset).bind
        (fun r => f.walkChains slideAmount fuel r.1 starts) := by
  simp only [walkChains, walkAll]
  cases hw : f.rebaseChain slideAmount fuel s pageContent startOffset with
  | none =>
    simp only [rebaseChain] at hw
    rw [hw]
    rfl
  | some r =>
    have hr := snd_of_rebaseChain hw
    simp only [rebaseChain] at hw
    rw [hw]
    simp [hr]

lemma walkChains_append (slideAmount : BitVec (8 * n)) (fuel : Nat) (s : Patching Empty)
    (starts starts' : List Nat) :
    f.walkChains slideAmount fuel s (starts ++ starts') =
      (f.walkChains slideAmount fuel s starts).bind
        (fun r => f.walkChains slideAmount fuel r.1 starts') := by
  rw [walkChains, walkAll_append]
  cases hw : f.walkChains slideAmount fuel s starts with
  | none =>
    rw [walkChains] at hw
    rw [hw]
    rfl
  | some r =>
    have hr := snd_of_walkChains hw
    rw [walkChains] at hw
    rw [hw]
    simp [hr, walkChains]

lemma rebaseExtras_eq (hf : f.Lawful lo len pageSize) {slideAmount : BitVec (8 * n)} {fuel : Nat}
    {s : Patching Empty} {hs rest : List Nat} {e : Nat} (hhs : ∀ i ∈ hs ++ [e], i < pageSize / 4) :
    f.rebaseExtras slideAmount fuel pageContent s (hs ++ (e ||| extraEnd) :: rest) =
      (f.walkChains slideAmount fuel s ((hs ++ [e]).map (fun i => pageContent + i * 4))).map Prod.fst := by
  induction hs generalizing s with
  | nil =>
    have he := hf.start e (hhs e (by simp))
    rw [List.nil_append, List.nil_append, List.map_singleton, walkChains_cons]
    simp only [rebaseExtras, he.2.2.2]
    have hend : (e ||| extraEnd) &&& extraEnd ≠ 0 := or_useExtra_and e
    cases f.rebaseChain slideAmount fuel s pageContent (e * 4) with
    | none => rfl
    | some r =>
      simp only [hend, ne_eq, not_false_eq_true, if_true]
      rfl
  | cons i hs ih =>
    have hi := hf.start i (hhs i (by simp))
    rw [List.cons_append, List.cons_append, List.map_cons, walkChains_cons]
    simp only [rebaseExtras, hi.2.2.1]
    have hend : ¬i &&& extraEnd ≠ 0 := not_not.mpr hi.2.1
    cases f.rebaseChain slideAmount fuel s pageContent (i * 4) with
    | none => rfl
    | some r =>
      simp only [if_neg hend]
      exact ih (fun j hj => hhs j (List.mem_cons_of_mem i hj))

lemma rebasePage_eq (hf : f.Lawful lo len pageSize) {extras hs pageExtras : List Nat} {startValue : Nat}
    (h : f.Starts extras hs startValue pageExtras) (hhs : ∀ i ∈ hs, i < pageSize / 4)
    (slideAmount : BitVec (8 * n)) (fuel : Nat) (s : Patching Empty) (rest : List Nat) :
    f.rebasePage slideAmount fuel pageContent
        ((if startValue &&& useExtra ≠ 0 then pageExtras.modifyLast (fun e => e ||| extraEnd)
          else pageExtras) ++ rest) s startValue =
      (f.walkChains slideAmount fuel s (hs.map (fun i => pageContent + i * 4))).map Prod.fst := by
  unfold rebasePage
  rw [if_neg (h.ne_noRebase hf hhs)]
  rcases h with ⟨rfl, rfl⟩ | ⟨hlen, hle, rfl, rfl⟩
  · have hstart := hf.start startValue (hhs _ (by simp))
    have h0 : ¬startValue &&& useExtra ≠ 0 := not_not.mpr hstart.2.1
    rw [if_neg h0, List.map_singleton, walkChains_cons]
    cases f.rebaseChain slideAmount fuel s pageContent (startValue * 4) <;> rfl
  · have h1 : (extras.length ||| useExtra) &&& useExtra ≠ 0 := or_useExtra_and _
    rw [if_pos h1, if_pos h1, (hf.index _ hle).2]
    obtain ⟨init, e, rfl⟩ : ∃ init e, hs = init ++ [e] := by
      refine ⟨hs.dropLast, hs.getLast ?_, (List.dropLast_concat_getLast _).symm⟩
      rintro rfl
      simp at hlen
    rw [← List.append_assoc, List.modifyLast_concat, List.append_assoc, List.append_assoc,
      List.drop_left]
    exact rebaseExtras_eq hf hhs

/-! ### One page -/

/-- The rebase locations of a page are the ones flagged, and the ones linked directly are those
with another one near enough behind them. -/
structure PageFlags (f : ChainFormat n) (marked direct : Nat → Prop) (pageContent pageSize : Nat)
    (flags : List Nat) : Prop where
  marked_iff : ∀ o < pageSize, marked (pageContent + o) ↔ ∃ j ∈ flags, o = j * 4
  direct_iff : ∀ o < pageSize, direct (pageContent + o) ↔
    ∃ j ∈ flags, o < j * 4 ∧ j * 4 ≤ o + f.maxDelta

lemma mem_of_sorted_of_lt {pre js : List Nat} {k j : Nat}
    (hsorted : (pre ++ k :: js).Pairwise (· < ·)) (hj : j ∈ pre ++ k :: js) (hkj : k < j) : j ∈ js := by
  rcases List.mem_append.mp hj with hj | hj
  · have := (List.pairwise_append.mp hsorted).2.2 j hj k (by simp)
    omega
  · exact (List.mem_cons.mp hj).resolve_left (by omega)

lemma PageFlags.ahead (pre : List Nat) {js : List Nat} {k : Nat}
    (h : f.PageFlags marked direct pageContent pageSize (pre ++ k :: js))
    (hsorted : (pre ++ k :: js).Pairwise (· < ·)) (hlt : ∀ j ∈ pre ++ k :: js, j * 4 < pageSize) :
    f.Ahead marked direct pageContent (k * 4) js := by
  induction js generalizing pre k with
  | nil =>
    have hk : k * 4 < pageSize := hlt k (by simp)
    refine ⟨(h.marked_iff _ hk).mpr ⟨k, by simp, rfl⟩, fun hd => ?_⟩
    obtain ⟨j, hj, hjk, -⟩ := (h.direct_iff _ hk).mp hd
    exact absurd (mem_of_sorted_of_lt hsorted hj (by omega)) (by simp)
  | cons i js ih =>
    have hk : k * 4 < pageSize := hlt k (by simp)
    have hi : i * 4 < pageSize := hlt i (by simp)
    have htail := (List.pairwise_append.mp hsorted).2.1
    rw [List.pairwise_cons, List.pairwise_cons] at htail
    have hki : k < i := htail.1 i (by simp)
    have hle : ∀ j ∈ i :: js, i ≤ j := by
      intro j hj
      rcases List.mem_cons.mp hj with rfl | hj
      · exact le_rfl
      · exact le_of_lt (htail.2.1 j hj)
    refine ⟨(h.marked_iff _ hk).mpr ⟨k, by simp, rfl⟩, by omega, ?_, ?_, ?_⟩
    · rw [h.direct_iff _ hk]
      constructor
      · rintro ⟨j, hj, hjk, hnear⟩
        have := hle j (mem_of_sorted_of_lt hsorted hj (by omega))
        omega
      · intro hnear
        exact ⟨i, by simp, by omega, hnear⟩
    · intro o hko hoi hmarked
      obtain ⟨j, hj, rfl⟩ := (h.marked_iff o (by omega)).mp hmarked
      have := hle j (mem_of_sorted_of_lt hsorted hj (by omega))
      omega
    · have happ : pre ++ k :: i :: js = (pre ++ [k]) ++ i :: js := by simp
      rw [happ] at h hsorted hlt
      exact ih (pre ++ [k]) h hsorted hlt

/-- A page that was written without a diagnostic: its chains, and that the loader walks them. -/
structure PageWritten (f : ChainFormat n) (marked direct : Nat → Prop) (pageContent pageSize : Nat)
    (flags extras : List Nat) (m : Mem) (p : PageState) (chains : List Chain) : Prop where
  laid : f.PageChains marked direct pageContent (pageContent + pageSize) m p.mem chains
  through : ∀ j ∈ flags, pageContent + j * 4 ∈ locations chains
  extends_extras : ∃ rest, p.pageExtras = extras ++ rest
  walked : ∀ rest slideAmount fuel s,
    f.rebasePage slideAmount fuel pageContent (p.pageExtras ++ rest) s p.startValue =
      (f.walkChains slideAmount fuel s (chains.map Prod.fst)).map Prod.fst

lemma addPageStarts_ok {bitmap : Nat → Bool} {extras : List Nat} {p : PageState}
    (h : f.addPageStarts m pageContent pageSize bitmap extras = .ok p) :
    ∃ s, (flags pageSize bitmap).foldlM (f.addLocation pageContent)
        ⟨f.noRebase, 0xFFFF, extras, m, none⟩ = .ok s ∧ s.diag = none ∧
      f.endPage pageContent s = p := by
  unfold addPageStarts at h
  have hfilter : ∀ s, (List.range (pageSize / 4)).foldlM
      (fun s i => if bitmap i then f.addLocation pageContent s i else .ok s) s =
      (flags pageSize bitmap).foldlM (f.addLocation pageContent) s := by
    intro s
    rw [flags, List.foldlM_filter]
    rfl
  rw [hfilter] at h
  cases hfold : (flags pageSize bitmap).foldlM (f.addLocation pageContent)
      ⟨f.noRebase, 0xFFFF, extras, m, none⟩ with
  | error e =>
    rw [hfold] at h
    cases h
  | ok s =>
    rw [hfold] at h
    refine ⟨s, rfl, ?_⟩
    cases hdiag : s.diag with
    | some e =>
      simp only [bind, Except.bind, hdiag] at h
      cases h
    | none =>
      simp only [bind, Except.bind, hdiag, Except.ok.injEq] at h
      exact ⟨rfl, h⟩

lemma pageWritten_nil (hf : f.Lawful lo len pageSize) (extras : List Nat) :
    f.PageWritten marked direct pageContent pageSize [] extras m
      (f.endPage pageContent ⟨f.noRebase, 0xFFFF, extras, m, none⟩) [] := by
  have hextras : (f.endPage pageContent ⟨f.noRebase, 0xFFFF, extras, m, none⟩).pageExtras = extras := by
    rcases hf.noExtra with h | h
    · simp [endPage, h]
    · simp [endPage, h]
  constructor
  · exact ⟨Encoding.nil m, by simp⟩
  · simp
  · exact ⟨[], by simp [hextras]⟩
  · intro rest slideAmount fuel s
    simp [rebasePage, endPage, walkChains, walkAll]

lemma pageWritten_cons (hf : f.Lawful lo len pageSize) (hap : MarksApart n marked)
    (hpage : 4 ∣ pageContent) {i : Nat} {js extras : List Nat} {s : PageState}
    (hflags : f.PageFlags marked direct pageContent pageSize (i :: js))
    (hsorted : (i :: js).Pairwise (· < ·)) (hlt : ∀ j ∈ i :: js, j < pageSize / 4)
    (hns : ∀ j ∈ i :: js, f.stealable (load n m (pageContent + j * 4)) = false)
    (h : js.foldlM (f.addLocation pageContent) ⟨i, i * 4, extras, m, none⟩ = .ok s)
    (hdiag : s.diag = none) :
    ∃ chains, f.PageWritten marked direct pageContent pageSize (i :: js) extras m
      (f.endPage pageContent s) chains := by
  have hsize := hf.pageSize_le
  have hi := hlt i (by simp)
  have hahead : f.Ahead marked direct pageContent (i * 4) js := by
    apply PageFlags.ahead [] hflags hsorted
    intro j hj
    have := hlt j hj
    omega
  have hfirst : f.Starts extras [i] i extras := Or.inl ⟨rfl, rfl⟩
  obtain ⟨⟨hlast, hlast4⟩, l, cs, ts, hchains, hfst, hts, hstarts, hthrough⟩ :=
    foldlM_addLocation hf hap hpage h hdiag hahead
      (by simp only; omega) (by simp only; omega) (fun j hj => hlt j (List.mem_cons_of_mem i hj))
      (by
        rintro o (rfl | ho)
        · exact hns i (by simp)
        · obtain ⟨j, hj, rfl⟩ := List.mem_map.mp ho
          exact hns j (List.mem_cons_of_mem i hj))
      hfirst (by simpa using hi)
  have hloc : s.lastLocationOffset ≠ 0xFFFF := by omega
  have hhs : ∀ k ∈ [i] ++ ts, k < pageSize / 4 := by
    intro k hk
    rcases List.mem_append.mp hk with hk | hk
    · rw [List.mem_singleton.mp hk]
      exact hi
    · exact hts k hk
  have hend : (f.endPage pageContent s).pageExtras =
      if s.startValue &&& useExtra ≠ 0 then s.pageExtras.modifyLast (fun e => e ||| extraEnd)
      else s.pageExtras := by
    simp [endPage, hloc]
  have hmem : (f.endPage pageContent s).mem = store n s.mem (pageContent + s.lastLocationOffset)
      (f.pointerValue (load n s.mem (pageContent + s.lastLocationOffset))) := by
    simp [endPage, hloc]
  refine ⟨(pageContent + i * 4, l) :: cs, ?_, ?_, ?_, ?_⟩
  · rw [hmem]
    refine ⟨hchains.encoding, fun c hc => ?_⟩
    have := hchains.bounds c hc
    simp only at this
    exact ⟨by omega, this.2⟩
  · intro j hj
    rcases List.mem_cons.mp hj with rfl | hj
    · simp
    · exact hthrough j hj
  · rw [hend]
    rcases hstarts with ⟨hone, hex⟩ | ⟨-, -, hstart, hex⟩
    · have hstart : s.startValue < pageSize / 4 := hhs _ (by rw [hone]; simp)
      rw [if_neg (not_not.mpr (hf.start _ hstart).2.1), hex]
      exact ⟨[], by simp⟩
    · have hne : [i] ++ ts ≠ [] := by simp
      rw [hstart, if_pos (or_useExtra_and _), hex, List.modifyLast_append_of_right_ne_nil _ _ _ hne]
      exact ⟨_, rfl⟩
  · intro rest slideAmount fuel t
    rw [hend]
    have hstart : (f.endPage pageContent s).startValue = s.startValue := rfl
    rw [hstart, rebasePage_eq hf hstarts hhs, List.map_cons, hfst]
    rfl

theorem addPageStarts_written (hf : f.Lawful lo len pageSize) (hap : MarksApart n marked)
    (hpage : 4 ∣ pageContent) {bitmap : Nat → Bool} {extras : List Nat} {p : PageState}
    (hflags : f.PageFlags marked direct pageContent pageSize (flags pageSize bitmap))
    (hns : ∀ j ∈ flags pageSize bitmap, f.stealable (load n m (pageContent + j * 4)) = false)
    (h : f.addPageStarts m pageContent pageSize bitmap extras = .ok p) :
    ∃ chains, f.PageWritten marked direct pageContent pageSize (flags pageSize bitmap) extras m p
      chains := by
  obtain ⟨s, hfold, hdiag, rfl⟩ := addPageStarts_ok h
  have hsorted := flags_sorted pageSize bitmap
  have hlt : ∀ j ∈ flags pageSize bitmap, j < pageSize / 4 := fun j hj => (mem_flags.mp hj).1
  cases hlist : flags pageSize bitmap with
  | nil =>
    rw [hlist] at hfold
    simp only [List.foldlM_nil, pure, Except.pure, Except.ok.injEq] at hfold
    rw [← hfold]
    exact ⟨[], pageWritten_nil hf extras⟩
  | cons i js =>
    rw [hlist] at hfold hflags hns hsorted hlt
    rw [List.foldlM_cons] at hfold
    have hfirst : f.addLocation pageContent ⟨f.noRebase, 0xFFFF, extras, m, none⟩ i =
        .ok ⟨i, i * 4, extras, m, none⟩ := by
      simp [addLocation]
    rw [hfirst] at hfold
    exact pageWritten_cons hf hap hpage hflags hsorted hlt hns hfold hdiag

/-! ### A region -/

/-- The next rebase location of the same page is near enough for a direct link. -/
def LinksDirectly (f : ChainFormat n) (r : DataRegion) (a : Nat) : Prop :=
  ∃ b ∈ r.marks, b / r.pageSize = a / r.pageSize ∧ a < b ∧ b ≤ a + f.maxDelta

lemma pageFlags {r : DataRegion} {i : Nat} (hi : i < r.pageCount) :
    f.PageFlags (fun a => a ∈ r.marks) (f.LinksDirectly r) (r.page i) r.pageSize
      (flags r.pageSize (r.pageBitmap i)) := by
  constructor
  · intro o ho
    exact DataRegion.mem_marks_page hi ho
  · intro o ho
    unfold LinksDirectly
    rw [DataRegion.div_page ho]
    constructor
    · rintro ⟨b, hb, hpage, hlt, hle⟩
      have hmod : r.page i + b % r.pageSize = b := by
        rw [← hpage, DataRegion.page, Nat.mul_comm]
        exact Nat.div_add_mod b r.pageSize
      rw [← hmod] at hb hlt hle
      obtain ⟨j, hj, hjb⟩ := (DataRegion.mem_marks_page hi (Nat.mod_lt _ (by omega))).mp hb
      exact ⟨j, hj, by omega, by omega⟩
    · rintro ⟨j, hj, hlt, hle⟩
      have hj' : j * 4 < r.pageSize := by
        have := (mem_flags.mp hj).1
        omega
      exact ⟨r.page i + j * 4, (DataRegion.mem_marks_page hi hj').mpr ⟨j, hj, rfl⟩,
        DataRegion.div_page hj', by omega, by omega⟩

lemma rebaseDataPages_append (slideAmount : BitVec (8 * n)) (fuel : Nat) (pageExtras : List Nat)
    (i : Nat) (s : Patching Empty) (starts : List Nat) (e : Nat) :
    f.rebaseDataPages slideAmount fuel pageSize pageExtras i s (starts ++ [e]) =
      (f.rebaseDataPages slideAmount fuel pageSize pageExtras i s starts).bind (fun s' =>
        f.rebasePage slideAmount fuel ((i + starts.length) * pageSize) pageExtras s' e) := by
  induction starts generalizing i s with
  | nil =>
    simp only [List.nil_append, rebaseDataPages, List.length_nil, Nat.add_zero, Option.bind_some]
    cases f.rebasePage slideAmount fuel (i * pageSize) pageExtras s e <;> rfl
  | cons start starts ih =>
    have hi : i + (start :: starts).length = i + 1 + starts.length := by
      rw [List.length_cons]
      omega
    simp only [List.cons_append, rebaseDataPages, hi]
    cases f.rebasePage slideAmount fuel (i * pageSize) pageExtras s start with
    | none => rfl
    | some s' => exact ih (i + 1) s'

/-- The first `k` pages of a region that was written without a diagnostic. -/
structure PagesWritten (f : ChainFormat n) (r : DataRegion) (k : Nat) (m : Mem) (info : RegionInfo)
    (chains : List Chain) : Prop where
  encoding : Encoding n f.next (Keeps f (fun a => a ∈ r.marks) (f.LinksDirectly r)) m info.mem chains
  bounds : ∀ c ∈ locations chains, c < r.page k ∧ 4 ∣ c ∧ (c ∈ r.marks ∨ n = 4)
  through : ∀ i < k, ∀ a ∈ r.pageMarks i, a ∈ locations chains
  count : info.pageStarts.length = k
  walked : ∀ rest slideAmount fuel s,
    f.rebaseDataPages slideAmount fuel r.pageSize (info.pageExtras ++ rest) 0 s info.pageStarts =
      (f.walkChains slideAmount fuel s (chains.map Prod.fst)).map Prod.fst

lemma PagesWritten.writePage {r : DataRegion} {k : Nat} {info info' : RegionInfo} {chains : List Chain}
    (hf : f.Lawful lo len r.pageSize) (hap : MarksApart n (fun a => a ∈ r.marks))
    (hns : ∀ a ∈ r.marks, f.stealable (load n m a) = false) (hk : k < r.pageCount)
    (h : f.PagesWritten r k m info chains) (hpage : f.writePage r info k = .ok info') :
    ∃ chains', f.PagesWritten r (k + 1) m info' chains' := by
  unfold ChainFormat.writePage at hpage
  cases hp : f.addPageStarts info.mem (r.page k) r.pageSize (r.pageBitmap k) info.pageExtras with
  | error e =>
    rw [hp] at hpage
    cases hpage
  | ok p =>
    rw [hp] at hpage
    simp only [bind, Except.bind, Except.ok.injEq] at hpage
    subst hpage
    have hpage4 : 4 ∣ r.page k := Dvd.dvd.mul_left hf.four_dvd_pageSize k
    have hslot : ∀ c ∈ locations chains, ∀ a, r.page k ≤ a → 4 ∣ a → (a ∈ r.marks ∨ n = 4) →
        Apart n c a := by
      intro c hc a ha ha4 hmark
      obtain ⟨hlt, hc4, hcm⟩ := h.bounds c hc
      exact hap.slots (by omega) hc4 ha4 hcm hmark
    -- the locations of this page still hold what they held in `m`
    have hns' : ∀ j ∈ flags r.pageSize (r.pageBitmap k),
        f.stealable (load n info.mem (r.page k + j * 4)) = false := by
      intro j hj
      have hj' : j * 4 < r.pageSize := by
        have := (mem_flags.mp hj).1
        omega
      have hmark : r.page k + j * 4 ∈ r.marks := (DataRegion.mem_marks_page hk hj').mpr ⟨j, hj, rfl⟩
      rw [h.encoding.load_eq (fun c hc => hslot c hc _ (by omega) (by omega) (Or.inl hmark))]
      exact hns _ hmark
    obtain ⟨chains', hlaid, hthrough, ⟨rest', hrest⟩, hwalked⟩ :=
      addPageStarts_written hf hap hpage4 (pageFlags hk) hns' hp
    refine ⟨chains ++ chains', ?_, ?_, ?_, ?_, ?_⟩
    · apply h.encoding.append hlaid.encoding
      intro c hc a ha
      obtain ⟨h1, -, h3, h4⟩ := hlaid.bounds a ha
      exact hslot c hc a h1 h3 h4
    · intro c hc
      rw [locations_append] at hc
      rw [DataRegion.page_succ]
      rcases List.mem_append.mp hc with hc | hc
      · have := h.bounds c hc
        exact ⟨by omega, this.2⟩
      · have := hlaid.bounds c hc
        exact this.2
    · intro i hi a ha
      rw [locations_append]
      rcases Nat.lt_succ_iff_lt_or_eq.mp hi with hi | rfl
      · exact List.mem_append_left _ (h.through i hi a ha)
      · obtain ⟨j, hj, rfl⟩ := List.mem_map.mp ha
        exact List.mem_append_right _ (hthrough j hj)
    · simp [h.count]
    · intro rest slideAmount fuel s
      have hold := h.walked (rest' ++ rest) slideAmount fuel s
      rw [← List.append_assoc, ← hrest] at hold
      have hnew := hwalked rest slideAmount fuel
      simp only [rebaseDataPages_append, hold, h.count, Nat.zero_add, List.map_append,
        walkChains_append]
      cases f.walkChains slideAmount fuel s (chains.map Prod.fst) with
      | none => rfl
      | some t => exact hnew t.1

/-- A region written without a diagnostic has the chains the loader walks. -/
theorem writeSlideInfo_written {r : DataRegion} {info : RegionInfo} (hf : f.Lawful lo len r.pageSize)
    (hap : MarksApart n (fun a => a ∈ r.marks))
    (hns : ∀ a ∈ r.marks, f.stealable (load n m a) = false)
    (h : f.writeSlideInfo r m = .ok info) :
    ∃ chains, f.PagesWritten r r.pageCount m info chains := by
  have hpages : ∀ k ≤ r.pageCount, ∀ info,
      (List.range k).foldlM (f.writePage r) ⟨[], [], m⟩ = .ok info →
        ∃ chains, f.PagesWritten r k m info chains := by
    intro k
    induction k with
    | zero =>
      intro _ info h0
      simp only [List.range_zero, List.foldlM_nil, pure, Except.pure, Except.ok.injEq] at h0
      subst h0
      refine ⟨[], Encoding.nil m, by simp, by simp, rfl, ?_⟩
      intro rest slideAmount fuel s
      rfl
    | succ k ih =>
      intro hk info hsucc
      rw [List.range_succ, List.foldlM_append] at hsucc
      cases hinit : (List.range k).foldlM (f.writePage r) ⟨[], [], m⟩ with
      | error e =>
        rw [hinit] at hsucc
        cases hsucc
      | ok info₀ =>
        rw [hinit] at hsucc
        obtain ⟨chains, hchains⟩ := ih (by omega) info₀ hinit
        have hlast : [k].foldlM (f.writePage r) info₀ = .ok info := hsucc
        apply hchains.writePage hf hap hns (by omega)
        simpa using hlast
  exact hpages r.pageCount le_rfl info h

/-- What the loader leaves of a region that was written without a diagnostic: the rebased value of
each rebase location, and every byte outside of these as it was before, when it takes a stolen
value back to the word that was stolen. -/
theorem PagesWritten.rebaseDataPages_eq {r : DataRegion} {info : RegionInfo} {chains : List Chain}
    (hn : 0 < n) (h : f.PagesWritten r r.pageCount m info chains) (slideAmount : BitVec (8 * n))
    (hstolen : ∀ v, f.stealable v = true → f.rebasedValue slideAmount (f.stolenValue v) = v)
    {fuel : Nat} (hfuel : r.page r.pageCount ≤ fuel) :
    ∃ s, f.rebaseDataPages slideAmount fuel r.pageSize info.pageExtras 0 ⟨info.mem, none, []⟩
        info.pageStarts = some s ∧
      (∀ a ∈ r.marks,
        (f.LinksDirectly r a → load n s.mem a =
          f.rebasedValue slideAmount (f.pointerValue (load n m a) ||| f.tag a)) ∧
        (¬f.LinksDirectly r a → load n s.mem a =
          f.rebasedValue slideAmount (f.pointerValue (load n m a)))) ∧
      ∀ x, (∀ a ∈ r.marks, ¬InWord n a x) → s.mem x = m x := by
  have hlen : (locations chains).length ≤ fuel :=
    le_trans (h.encoding.length_locations_le hn (fun c hc => (h.bounds c hc).1)) hfuel
  have hwalk := h.encoding.walkAll_patch hn (fun a _ => rebased_apply f slideAmount a _) hlen
  have hrun := h.walked [] slideAmount fuel ⟨info.mem, none, []⟩
  rw [List.append_nil, walkChains, hwalk] at hrun
  refine ⟨_, hrun, ?_, ?_⟩
  · intro a ha
    obtain ⟨i, hi, hai⟩ := DataRegion.mem_marks.mp ha
    have hloc : a ∈ locations chains := h.through i hi a hai
    have hload := h.encoding.load_patched
      (fun a => f.rebasedValue slideAmount (load n info.mem a &&& f.valueMask)) hloc
    obtain ⟨-, hdirect, hnot⟩ | ⟨hnot, -⟩ := h.encoding.words a hloc
    · refine ⟨fun hd => ?_, fun hd => ?_⟩
      · rw [← hdirect hd]
        exact hload
      · rw [← hnot hd]
        exact hload
    · exact absurd ha hnot
  · intro x hx
    by_cases hin : ∃ c ∈ locations chains, InWord n c x
    · -- a stolen word
      obtain ⟨c, hc, hcx⟩ := hin
      apply byte_eq_of_load_eq _ hcx
      obtain ⟨hmark, -⟩ | ⟨-, hsteal, hvalue⟩ := h.encoding.words c hc
      · exact absurd hcx (hx c hmark)
      · have hload := h.encoding.load_patched
          (fun a => f.rebasedValue slideAmount (load n info.mem a &&& f.valueMask)) hc
        rw [hvalue, hstolen _ hsteal] at hload
        exact hload
    · push Not at hin
      exact h.encoding.patched_apply _ hin

end ChainFormat

end Dyld.SlideInfo
