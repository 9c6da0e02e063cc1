import Dyld.Cache.Adjustor
import Dyld.Cache.AslrTracker
import Dyld.Chained.KernelFixups
import Dyld.SlideInfo.Region

/-!
# Views of the tracker

What the parts of the cache builder see of an `ASLR_Tracker`: the writer of chained fixups calls `has`,
and the writers of slide info get its bitmap.
-/

namespace Dyld.Cache

namespace AslrTracker

/-- Two bits of a key are written to a pointer. -/
def chainView (t : AslrTracker) : Chained.ASLRTracker where
  bitmap loc := (t.entry loc).any t.bitmap
  cacheLevels loc := ((t.entry loc).elim noLevel t.cacheLevels).toNat
  high8Map loc := (t.high8Map loc).map UInt8.toNat
  authDataMap loc := (t.authDataMap loc).map fun d =>
    ⟨d.diversity.toNat, d.addrDiv, d.key.toNat % 4, d.diversity.toNat_lt, Nat.mod_lt _ (by decide)⟩

/-- `has` finds what the writer of chained fixups does. -/
theorem has_chainView {t : AslrTracker} {loc i : Nat} (henabled : t.enabled = true)
    (hentry : t.entry loc = some i) {c : Chained.AppCache} (hview : c.aslrTracker = t.chainView)
    {level : UInt8} (hlevel : c.currentLevel = level.toNat) :
    ∃ fixupLevel, t.has loc (some level) = some (c.aslrTracker.bitmap loc, some fixupLevel) ∧
      (c.aslrTracker.bitmap loc = true → c.fixupLevel loc = fixupLevel.toNat) := by
  have hbitmap : c.aslrTracker.bitmap loc = t.bitmap i := by
    simp [hview, chainView, hentry]
  have hlevels : c.aslrTracker.cacheLevels loc = (t.cacheLevels i).toNat := by
    simp [hview, chainView, hentry]
  have hno : t.cacheLevels i = noLevel ↔ (t.cacheLevels i).toNat = 0xFF := by
    rw [← UInt8.toNat_inj]
    rfl
  rw [has_of_entry henabled hentry, hbitmap, Chained.AppCache.fixupLevel, hlevels, hlevel]
  cases t.bitmap i with
  | false => exact ⟨level, rfl, nofun⟩
  | true =>
    refine ⟨if t.cacheLevels i ≠ noLevel then t.cacheLevels i else level, rfl, fun _ => ?_⟩
    by_cases hl : t.cacheLevels i = noLevel
    · rw [if_pos (hno.mp hl), if_neg (not_not.mpr hl)]
    · rw [if_neg (mt hno.mpr hl), if_pos hl]

end AslrTracker

namespace ASLRTracker

/-- Locations are offsets from the start of the region. -/
def slideView (t : ASLRTracker) : SlideInfo.AslrTracker where
  hasHigh8 loc := t.high8Map (t.regionStart + loc)
  hasAuthData loc := (t.authDataMap (t.regionStart + loc)).map fun d =>
    ⟨.ofNat 16 d.diversity, d.addrDiv, d.key % 4, Nat.mod_lt _ (by decide)⟩

def dataRegion (t : ASLRTracker) (pageSize pageCount : Nat) : SlideInfo.DataRegion :=
  ⟨pageSize, pageCount, t.bitmap⟩

variable {t : ASLRTracker} {loc : Nat}

lemma mem_marks_dataRegion {pageSize pageCount a : Nat} (hpage : 4 ∣ pageSize) :
    a ∈ (t.dataRegion pageSize pageCount).marks ↔
      4 ∣ a ∧ a < pageCount * pageSize ∧ t.bitmap (a / 4) = true := by
  obtain ⟨n, rfl⟩ := hpage
  have hn : 4 * n / 4 = n := Nat.mul_div_cancel_left n (by decide)
  simp only [SlideInfo.DataRegion.mem_marks, SlideInfo.DataRegion.mem_pageMarks,
    SlideInfo.DataRegion.pageBitmap, SlideInfo.DataRegion.page, dataRegion, hn]
  constructor
  · rintro ⟨i, hi, j, hj, hbit, rfl⟩
    have hplace : i * (4 * n) + j * 4 = 4 * (i * n + j) := by ring
    have hlt : i * n + j < pageCount * n := by nlinarith
    rw [hplace, Nat.mul_div_cancel_left _ (by decide)]
    exact ⟨⟨_, rfl⟩, by nlinarith, hbit⟩
  · rintro ⟨⟨k, rfl⟩, hlt, hbit⟩
    rw [Nat.mul_div_cancel_left k (by decide)] at hbit
    have hk : k < pageCount * n := by nlinarith
    have hpos : 0 < n := Nat.pos_of_mul_pos_left (Nat.zero_lt_of_lt hk)
    have hsplit := Nat.div_add_mod' k n
    refine ⟨k / n, (Nat.div_lt_iff_lt_mul hpos).mpr hk, k % n, Nat.mod_lt k hpos, ?_, ?_⟩
    · rwa [hsplit]
    · nlinarith

/-- The rebase locations of the region are the locations that were added. -/
theorem mem_marks_add {pageSize pageCount a : Nat} (hpage : 4 ∣ pageSize) (henabled : t.enabled = true)
    (hdvd : 4 ∣ loc - t.regionStart) (hlt : loc - t.regionStart < pageCount * pageSize) :
    a ∈ ((t.add loc).dataRegion pageSize pageCount).marks ↔
      a = loc - t.regionStart ∨ a ∈ (t.dataRegion pageSize pageCount).marks := by
  rw [mem_marks_dataRegion hpage, mem_marks_dataRegion hpage, add, if_pos henabled]
  dsimp only
  rw [Function.update_apply, kMinimumFixupAlignment]
  split_ifs with hslot
  · constructor
    · rintro ⟨ha, -, -⟩
      omega
    · rintro (rfl | ⟨ha, halt, -⟩)
      · exact ⟨hdvd, hlt, rfl⟩
      · exact ⟨ha, halt, rfl⟩
  · refine ⟨Or.inr, ?_⟩
    rintro (rfl | h)
    · exact absurd rfl hslot
    · exact h

/-- The builds with a flag for each location and with one for four bytes agree on aligned locations. -/
structure SameFlags (t : ASLRTracker) (t' : AslrTracker) : Prop where
  regionStart : t.regionStart = t'.regionStart
  enabled : t.enabled = t'.enabled
  flag : ∀ {loc i}, t'.entry loc = some i → 4 ∣ i → t.bitmap (i / 4) = t'.bitmap i

theorem SameFlags.add {t' u' : AslrTracker} (h : SameFlags t t') {level : UInt8}
    (hdvd : 4 ∣ loc - t.regionStart) (hadd : t'.add loc level = some u') : SameFlags (t.add loc) u' := by
  cases henabled : t'.enabled with
  | false =>
    rw [AslrTracker.add, henabled, Bool.not_false, if_pos rfl] at hadd
    cases hadd
    rwa [ASLRTracker.add, h.enabled, henabled, if_neg Bool.false_ne_true]
  | true =>
    cases hentry : t'.entry loc with
    | none =>
      rw [AslrTracker.add, henabled, hentry] at hadd
      cases hadd
    | some k =>
      obtain rfl := Option.some.inj ((AslrTracker.add_of_entry henabled hentry level).symm.trans hadd)
      have hk : k = loc - t.regionStart := by
        unfold AslrTracker.entry at hentry
        dsimp only at hentry
        split_ifs at hentry
        rw [h.regionStart, ← Option.some.inj hentry]
        exact Nat.div_one _
      rw [ASLRTracker.add, h.enabled, henabled, if_pos rfl]
      refine ⟨h.regionStart, rfl, fun {loc' i} hi hdvd' => ?_⟩
      dsimp only
      rw [Function.update_apply, Function.update_apply, ← hk, kMinimumFixupAlignment]
      by_cases hik : i = k
      · rw [if_pos hik, if_pos (hik ▸ rfl)]
      · rw [if_neg hik, if_neg (by omega)]
        exact h.flag hi hdvd'

end ASLRTracker

end Dyld.Cache
