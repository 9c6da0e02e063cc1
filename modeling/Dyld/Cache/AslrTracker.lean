import Dyld.Lib.LastWrite

/-!
# The tracker of fixups

`ASLR_Tracker` records where the fixups of a collection are. Whether there is a fixup and the level of
the collection that it points to are in two arrays, with an entry for each location.
-/

namespace Dyld.Cache

open Dyld.Lib

structure AslrTracker.AuthData where
  diversity : UInt16
  addrDiv : Bool
  key : UInt8
  deriving DecidableEq

/-- `CacheBuilder::ASLR_Tracker`, in the build for kernel collections. -/
structure AslrTracker where
  regionStart : Nat
  regionEnd : Nat
  bitmap : Nat → Bool
  pageCount : Nat
  enabled : Bool
  high8Map : Nat → Option UInt8
  authDataMap : Nat → Option AslrTracker.AuthData
  rebaseTarget32 : Nat → Option UInt32
  rebaseTarget64 : Nat → Option UInt64
  cacheLevels : Nat → UInt8

namespace AslrTracker

def pageSize : Nat := 4096

def kMinimumFixupAlignment : Nat := 1

/-- The level where none is passed. -/
def noLevel : UInt8 := 0xFF

def new : AslrTracker := ⟨0, 0, fun _ => false, 0, true, fun _ => none, fun _ => none, fun _ => none,
  fun _ => none, fun _ => 0⟩

/-- The number of pages is computed from a size that is cut to 32 bits. -/
def setDataRegion (t : AslrTracker) (rwRegionStart rwRegionSize : Nat) : AslrTracker :=
  { t with
    pageCount := (rwRegionSize + pageSize - 1) % 2 ^ 32 / pageSize
    regionStart := rwRegionStart
    regionEnd := rwRegionStart + rwRegionSize
    bitmap := fun _ => false
    cacheLevels := fun _ => noLevel }

/-- The number of entries of `bitmap` and of `cacheLevels`. -/
def entryCount (t : AslrTracker) : Nat := t.pageCount * (pageSize / kMinimumFixupAlignment) % 2 ^ 32

/-- The index for a location, when the assertions hold and it is not behind the arrays. -/
def entry (t : AslrTracker) (loc : Nat) : Option Nat :=
  let i := (loc - t.regionStart) / kMinimumFixupAlignment
  if t.regionStart ≤ loc ∧ loc < t.regionEnd ∧ i < t.entryCount then some i else none

def add (t : AslrTracker) (loc : Nat) (level : UInt8 := noLevel) : Option AslrTracker :=
  if !t.enabled then some t
  else (t.entry loc).map fun i =>
    { t with
      bitmap := Function.update t.bitmap i true
      cacheLevels := if level ≠ noLevel then Function.update t.cacheLevels i level else t.cacheLevels }

def remove (t : AslrTracker) (loc : Nat) : Option AslrTracker :=
  if !t.enabled then some t
  else (t.entry loc).map fun i => { t with bitmap := Function.update t.bitmap i false }

/-- The answer, and what `level` points to after it. -/
def has (t : AslrTracker) (loc : Nat) (level : Option UInt8) : Option (Bool × Option UInt8) :=
  if !t.enabled then some (true, level)
  else (t.entry loc).map fun i =>
    if t.bitmap i then
      let levelValue := t.cacheLevels i
      (true, level.map fun l => if levelValue ≠ noLevel then levelValue else l)
    else (false, level)

end AslrTracker

namespace AslrTracker

variable {t : AslrTracker} {loc i : Nat}

lemma add_of_entry (henabled : t.enabled = true) (hentry : t.entry loc = some i) (level : UInt8) :
    t.add loc level = some { t with
      bitmap := Function.update t.bitmap i true
      cacheLevels := if level ≠ noLevel then Function.update t.cacheLevels i level else t.cacheLevels } := by
  rw [add, henabled, if_neg (by decide), hentry, Option.map_some]

lemma remove_of_entry (henabled : t.enabled = true) (hentry : t.entry loc = some i) :
    t.remove loc = some { t with bitmap := Function.update t.bitmap i false } := by
  rw [remove, henabled, if_neg (by decide), hentry, Option.map_some]

lemma has_of_entry (henabled : t.enabled = true) (hentry : t.entry loc = some i) (level : Option UInt8) :
    t.has loc level = some (if t.bitmap i then
      (true, level.map fun l => if t.cacheLevels i ≠ noLevel then t.cacheLevels i else l)
    else (false, level)) := by
  rw [has, henabled, if_neg (by decide), hentry, Option.map_some]

end AslrTracker

/-! ### Runs -/

inductive TrackerCall
  | add (loc : Nat) (level : UInt8)
  | remove (loc : Nat)
  deriving DecidableEq

namespace TrackerCall

def loc : TrackerCall → Nat
  | add loc _ => loc
  | remove loc => loc

def isAdd : TrackerCall → Bool
  | add _ _ => true
  | remove _ => false

def levelFor (loc : Nat) : TrackerCall → Option UInt8
  | add l level => if l = loc ∧ level ≠ AslrTracker.noLevel then some level else none
  | remove _ => none

end TrackerCall

namespace AslrTracker

def call (t : AslrTracker) : TrackerCall → Option AslrTracker
  | .add loc level => t.add loc level
  | .remove loc => t.remove loc

def run (t : AslrTracker) (calls : List TrackerCall) : Option AslrTracker := calls.foldlM call t

/-! ### The tracker as a map -/

def lastCall (loc : Nat) (calls : List TrackerCall) : Option TrackerCall :=
  lastSome (fun c => if c.loc = loc then some c else none) calls

def answer (last : Option TrackerCall) (level : Option UInt8) : Bool × Option UInt8 :=
  match last with
  | some (.add _ l) => (true, level.map fun old => if l = noLevel then old else l)
  | _ => (false, level)

def AnswersAsMap (start size : Nat) (calls : List TrackerCall) (loc : Nat) : Prop :=
  ∃ t, (new.setDataRegion start size).run calls = some t ∧
    ∀ level, t.has loc level = some (answer (lastCall loc calls) level)

/-- The number of pages does not overflow. -/
def PagesFit (size : Nat) : Prop := size + pageSize - 1 < 2 ^ 32

instance (size : Nat) : Decidable (PagesFit size) := inferInstanceAs (Decidable (_ < _))

def NoOldLevel (calls : List TrackerCall) (loc : Nat) : Prop :=
  lastCall loc calls = some (.add loc noLevel) → ∀ level, TrackerCall.add loc level ∈ calls → level = noLevel

def InRegion (start size loc : Nat) : Prop := start ≤ loc ∧ loc < start + size

/-! ### What a run leaves -/

section Runs

variable {start size : Nat}

lemma le_entryCount_of_fits (t : AslrTracker) (h : PagesFit size) :
    size ≤ (t.setDataRegion start size).entryCount := by
  simp only [PagesFit, pageSize] at h
  simp only [entryCount, setDataRegion, kMinimumFixupAlignment, pageSize, Nat.div_one]
  omega

lemma entryCount_of_not_fits (t : AslrTracker) (hsize : size < 2 ^ 32) (h : ¬PagesFit size) :
    (t.setDataRegion start size).entryCount = 0 := by
  simp only [PagesFit, pageSize] at h
  simp only [entryCount, setDataRegion, kMinimumFixupAlignment, pageSize, Nat.div_one]
  omega

/-- What the calls so far leave in the two arrays, for a region that starts at `start`. -/
structure Holds (start size : Nat) (calls : List TrackerCall) (t : AslrTracker) : Prop where
  enabled : t.enabled = true
  entry : ∀ loc, InRegion start size loc → t.entry loc = some (loc - start)
  bitmap : ∀ loc, start ≤ loc → t.bitmap (loc - start) = (lastCall loc calls).any TrackerCall.isAdd
  cacheLevels : ∀ loc, start ≤ loc →
    t.cacheLevels (loc - start) = (lastSome (TrackerCall.levelFor loc) calls).getD noLevel

lemma holds_setDataRegion (hfits : PagesFit size) :
    Holds start size [] (new.setDataRegion start size) := by
  constructor
  · rfl
  · rintro loc ⟨hstart, hend⟩
    have hcount : size ≤ (new.setDataRegion start size).entryCount := le_entryCount_of_fits new hfits
    have hindex : (loc - start) / kMinimumFixupAlignment = loc - start := Nat.div_one _
    have hin : start ≤ loc ∧ loc < start + size ∧
        (loc - start) / kMinimumFixupAlignment < (new.setDataRegion start size).entryCount :=
      ⟨hstart, hend, by omega⟩
    exact (if_pos hin).trans (congrArg some hindex)
  · intro loc _
    rfl
  · intro loc _
    rfl

lemma lastCall_concat (loc : Nat) (calls : List TrackerCall) (c : TrackerCall) :
    lastCall loc (calls ++ [c]) = if c.loc = loc then some c else lastCall loc calls := by
  rw [lastCall, lastSome_concat]
  split_ifs <;> rfl

/-- A call only changes the entries of its location. -/
lemma Holds.call {calls : List TrackerCall} {t : AslrTracker} (h : Holds start size calls t)
    {c : TrackerCall} (hc : InRegion start size c.loc) :
    ∃ t', t.call c = some t' ∧ Holds start size (calls ++ [c]) t' := by
  have hother : ∀ {loc}, start ≤ loc → c.loc ≠ loc → loc - start ≠ c.loc - start := by
    intro loc hloc hne heq
    have := hc.1
    omega
  have hbitmap : ∀ (b : Bool) {loc}, start ≤ loc → c.isAdd = b →
      Function.update t.bitmap (c.loc - start) b (loc - start) =
        (lastCall loc (calls ++ [c])).any TrackerCall.isAdd := by
    intro b loc hloc hb
    rw [lastCall_concat]
    by_cases hsame : c.loc = loc
    · rw [if_pos hsame, ← hsame, Function.update_self]
      exact hb.symm
    · rw [if_neg hsame, Function.update_of_ne (hother hloc hsame)]
      exact h.bitmap loc hloc
  cases c with
  | add l level =>
    refine ⟨_, add_of_entry h.enabled (h.entry l hc) level, h.enabled, h.entry, ?_, ?_⟩
    · intro loc hloc
      exact hbitmap true hloc rfl
    · intro loc hloc
      change (if level ≠ noLevel then Function.update t.cacheLevels (l - start) level else t.cacheLevels)
        (loc - start) = _
      rw [lastSome_concat, TrackerCall.levelFor]
      by_cases hlevel : level = noLevel
      · rw [if_neg (not_not_intro hlevel), if_neg fun hne => hne.2 hlevel]
        exact h.cacheLevels loc hloc
      · rw [if_pos hlevel]
        by_cases hsame : l = loc
        · rw [if_pos ⟨hsame, hlevel⟩, hsame, Function.update_self]
          rfl
        · have hne : loc - start ≠ l - start := hother hloc hsame
          rw [if_neg fun hadd => hsame hadd.1, Function.update_of_ne hne]
          exact h.cacheLevels loc hloc
  | remove l =>
    refine ⟨_, remove_of_entry h.enabled (h.entry l hc), h.enabled, h.entry, ?_, ?_⟩
    · intro loc hloc
      exact hbitmap false hloc rfl
    · intro loc hloc
      rw [lastSome_concat]
      exact h.cacheLevels loc hloc

lemma Holds.run (hfits : PagesFit size) {calls : List TrackerCall}
    (hcalls : ∀ c ∈ calls, InRegion start size c.loc) :
    ∃ t, (new.setDataRegion start size).run calls = some t ∧ Holds start size calls t := by
  induction calls using List.reverseRecOn with
  | nil => exact ⟨_, rfl, holds_setDataRegion hfits⟩
  | append_singleton calls c ih =>
    obtain ⟨t, ht, hholds⟩ := ih fun c' hc' => hcalls c' (List.mem_append_left _ hc')
    obtain ⟨t', ht', hholds'⟩ := hholds.call (hcalls c (List.mem_append_right _ List.mem_cons_self))
    refine ⟨t', ?_, hholds'⟩
    rw [AslrTracker.run] at ht ⊢
    rw [List.foldlM_append, ht]
    change (List.foldlM AslrTracker.call t [c]) = some t'
    rw [List.foldlM_cons, ht']
    rfl

/-! ### What the tracker answers -/

lemma has_of_holds {calls : List TrackerCall} {t : AslrTracker} (h : Holds start size calls t) {loc : Nat}
    (hloc : InRegion start size loc) (level : Option UInt8) :
    t.has loc level = some (if (lastCall loc calls).any TrackerCall.isAdd then
      (true, level.map fun l => if (lastSome (TrackerCall.levelFor loc) calls).getD noLevel ≠ noLevel then
        (lastSome (TrackerCall.levelFor loc) calls).getD noLevel else l) else (false, level)) := by
  rw [has_of_entry h.enabled (h.entry loc hloc), h.bitmap loc hloc.1, h.cacheLevels loc hloc.1]

lemma mem_of_lastCall {loc : Nat} {calls : List TrackerCall} {c : TrackerCall}
    (h : lastCall loc calls = some c) : c.loc = loc ∧ c ∈ calls := by
  induction calls using List.reverseRecOn with
  | nil => cases h
  | append_singleton calls last ih =>
    rw [lastCall_concat] at h
    split_ifs at h with hsame
    · cases h
      exact ⟨hsame, List.mem_append_right _ List.mem_cons_self⟩
    · exact ⟨(ih h).1, List.mem_append_left _ (ih h).2⟩

lemma lastSome_levelFor_of_lastCall {loc : Nat} {calls : List TrackerCall} {level : UInt8}
    (h : lastCall loc calls = some (.add loc level)) (hlevel : level ≠ noLevel) :
    lastSome (TrackerCall.levelFor loc) calls = some level := by
  induction calls using List.reverseRecOn with
  | nil => cases h
  | append_singleton calls last ih =>
    rw [lastCall_concat] at h
    rw [lastSome_concat]
    split_ifs at h with hsame
    · cases h
      rw [TrackerCall.levelFor, if_pos ⟨rfl, hlevel⟩]
      rfl
    · rw [ih h]
      cases last with
      | add l other =>
        rw [TrackerCall.levelFor, if_neg fun hne => hsame hne.1]
        rfl
      | remove l => rfl

lemma noLevel_iff {loc : Nat} {calls : List TrackerCall} :
    (lastSome (TrackerCall.levelFor loc) calls).getD noLevel = noLevel ↔
      ∀ level, TrackerCall.add loc level ∈ calls → level = noLevel := by
  constructor
  · intro h level hmem
    by_contra hlevel
    cases hlast : lastSome (TrackerCall.levelFor loc) calls with
    | none =>
      have hnone := lastSome_eq_none_iff.mp hlast _ hmem
      rw [TrackerCall.levelFor, if_pos ⟨rfl, hlevel⟩] at hnone
      cases hnone
    | some found =>
      rw [hlast] at h
      obtain ⟨c, -, hc⟩ := List.mem_filterMap.mp (List.mem_of_getLast? hlast)
      cases c with
      | add l other =>
        rw [TrackerCall.levelFor] at hc
        split_ifs at hc with hne
        cases hc
        exact hne.2 h
      | remove l => cases hc
  · intro h
    have hnone : lastSome (TrackerCall.levelFor loc) calls = none := by
      rw [lastSome_eq_none_iff]
      intro c hc
      cases c with
      | add l level =>
        rw [TrackerCall.levelFor, if_neg]
        rintro ⟨rfl, hlevel⟩
        exact hlevel (h level hc)
      | remove l => rfl
    rw [hnone]
    rfl

/-- Two levels are seen alike when they are the same. -/
lemma levels_agree_iff (levelValue level : UInt8) :
    (∀ old : Option UInt8, (old.map fun l => if levelValue ≠ noLevel then levelValue else l) =
      old.map fun l => if level = noLevel then l else level) ↔ levelValue = level := by
  constructor
  · intro h
    have hsame := h (some noLevel)
    simp only [Option.map_some, Option.some.injEq] at hsame
    split_ifs at hsame with hvalue hlevel hlevel
    · rw [hsame, hlevel]
    · exact hsame
    · exact (not_not.mp hvalue).trans hlevel.symm
    · exact (not_not.mp hvalue).trans hsame
  · rintro rfl old
    congr 1
    funext l
    by_cases hvalue : levelValue = noLevel
    · rw [if_neg (not_not_intro hvalue), if_pos hvalue]
    · rw [if_pos hvalue, if_neg hvalue]

end Runs

/-- The tracker answers as a map from locations to levels, unless the number of pages overflows or the
last `add` for the location left an old level. -/
theorem answersAsMap_iff (start size : Nat) (hsize : size < 2 ^ 32) (calls : List TrackerCall)
    (hcalls : ∀ c ∈ calls, InRegion start size c.loc) (loc : Nat) (hloc : InRegion start size loc) :
    AnswersAsMap start size calls loc ↔ PagesFit size ∧ NoOldLevel calls loc := by
  by_cases hfits : PagesFit size
  · obtain ⟨t, ht, hholds⟩ := Holds.run hfits hcalls
    have hanswers : AnswersAsMap start size calls loc ↔
        ∀ level, t.has loc level = some (answer (lastCall loc calls) level) := by
      constructor
      · rintro ⟨t', ht', hhas⟩
        cases ht.symm.trans ht'
        exact hhas
      · intro hhas
        exact ⟨t, ht, hhas⟩
    rw [hanswers, and_iff_right hfits, NoOldLevel]
    simp only [has_of_holds hholds hloc, Option.some.injEq]
    cases hlast : lastCall loc calls with
    | none => exact iff_of_true (fun _ => rfl) nofun
    | some c =>
      have hsame : c.loc = loc := (mem_of_lastCall hlast).1
      cases c with
      | remove l => exact iff_of_true (fun _ => rfl) nofun
      | add l level =>
        obtain rfl : l = loc := hsame
        simp only [Option.any_some, TrackerCall.isAdd, if_true, answer, Prod.mk.injEq, true_and]
        rw [levels_agree_iff]
        by_cases hlevel : level = noLevel
        · subst hlevel
          rw [noLevel_iff]
          exact ⟨fun h _ => h, fun h => h rfl⟩
        · rw [lastSome_levelFor_of_lastCall hlast hlevel]
          apply iff_of_true rfl
          intro h
          cases h
          exact absurd rfl hlevel
  · apply iff_of_false _ fun h => hfits h.1
    rintro ⟨t, ht, hhas⟩
    have hentry : ∀ l, (new.setDataRegion start size).entry l = none := fun l =>
      if_neg fun h => Nat.not_lt_zero _ (entryCount_of_not_fits new hsize hfits ▸ h.2.2)
    cases calls with
    | nil =>
      cases ht
      have hnone := hhas none
      rw [has, hentry] at hnone
      cases hnone
    | cons c rest =>
      have hcall : (new.setDataRegion start size).call c = none := by
        cases c with
        | add l level =>
          rw [call, add, hentry]
          rfl
        | remove l =>
          rw [call, remove, hentry]
          rfl
      rw [run, List.foldlM_cons, hcall] at ht
      cases ht

/-- A fixup is added without a level, removed and added with the level 1, in a region of one page. -/
theorem answersAsMap_onePage :
    AnswersAsMap 0x1000 0x1000 [.add 0x1008 noLevel, .remove 0x1008, .add 0x1008 1, .remove 0x1010] 0x1008 := by
  refine (answersAsMap_iff 0x1000 0x1000 (by decide) _ ?_ 0x1008 ⟨by decide, by decide⟩).mpr ⟨by decide, ?_⟩
  · intro c hc
    simp only [List.mem_cons, List.not_mem_nil, or_false] at hc
    rcases hc with rfl | rfl | rfl | rfl <;> exact ⟨by decide, by decide⟩
  · intro hlast
    revert hlast
    decide

/-- A level stays after `remove`: the next `add` passes none, and the level 1 is answered. -/
theorem not_answersAsMap_oldLevel :
    ∃ t, (new.setDataRegion 0x1000 0x1000).run [.add 0x1008 1, .remove 0x1008, .add 0x1008 noLevel] = some t ∧
      t.has 0x1008 (some 0) = some (true, some 1) ∧
      ¬AnswersAsMap 0x1000 0x1000 [.add 0x1008 1, .remove 0x1008, .add 0x1008 noLevel] 0x1008 := by
  refine ⟨_, rfl, by decide, ?_⟩
  rintro ⟨t, ht, hhas⟩
  cases ht
  have hlevel := hhas (some 0)
  revert hlevel
  decide

end AslrTracker

end Dyld.Cache
