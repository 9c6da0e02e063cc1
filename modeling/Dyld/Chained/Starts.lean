import Dyld.Lib.Threaded

/-!
# Chain starts

The starts tables of `LC_DYLD_CHAINED_FIXUPS` and the loops of `MachOLoaded` over them. What
happens to one chain is a parameter here, so the loops say which `page_start` entries are
read and which chain starts are handed on. A page whose start has the `MULTI` bit goes on in
an overflow list, which ends with the entry that has the `LAST` bit.
-/

namespace Dyld.Chained

open Dyld.Lib

/-- `dyld_chained_starts_in_segment`. The code indexes `page_start` without a bound, so it is
a function of every index; what lies behind the table is whatever memory holds there. -/
structure StartsInSegment where
  size : Nat
  pageSize : Nat
  pointerFormat : Nat
  segmentOffset : Nat
  maxValidPointer : Nat
  pageCount : Nat
  pageStart : Nat → Nat

def offsetofPageStart (i : Nat) : Nat := 22 + 2 * i

/-- The `dyld_chained_starts_in_segment` at address `a`. -/
def loadStartsInSegment (m : Mem) (a : Nat) : StartsInSegment where
  size := loadNat m a 4
  pageSize := loadNat m (a + 4) 2
  pointerFormat := loadNat m (a + 6) 2
  segmentOffset := loadNat m (a + 8) 8
  maxValidPointer := loadNat m (a + 16) 4
  pageCount := loadNat m (a + 20) 2
  pageStart := fun i => loadNat m (a + offsetofPageStart i) 2

/-- `DYLD_CHAINED_PTR_START_NONE`. -/
def startNone : Nat := 0xFFFF

/-- `DYLD_CHAINED_PTR_START_MULTI`. -/
def startMulti : Nat := 0x8000

/-- `DYLD_CHAINED_PTR_START_LAST`. -/
def startLast : Nat := 0x8000

def withoutHighBit (x : Nat) : Nat := x &&& 0x7FFF

namespace StartsInSegment

variable (segInfo : StartsInSegment)

def IsMulti (i : Nat) : Prop := segInfo.pageStart i &&& startMulti ≠ 0

def IsLast (i : Nat) : Prop := segInfo.pageStart i &&& startLast ≠ 0

instance (i : Nat) : Decidable (segInfo.IsMulti i) := inferInstanceAs (Decidable (_ ≠ _))

instance (i : Nat) : Decidable (segInfo.IsLast i) := inferInstanceAs (Decidable (_ ≠ _))

/-- The offset in a page that entry `i` of an overflow list stands for. -/
def overflowOffset (i : Nat) : Nat := withoutHighBit (segInfo.pageStart i)

end StartsInSegment

/-! ### The loops of the source -/

/-- A walk over the chains of a segment: the state that the calls of `walkChain` thread, the
`page_start` entries read, and the chain starts (page and offset) handed to `walkChain`. -/
structure SegmentWalk (σ : Type) where
  state : σ
  reads : List Nat
  starts : List (Nat × Nat)

section Loops

variable {σ : Type} (walkChain : σ → Nat → Nat → Option (σ × Bool)) (segInfo : StartsInSegment)

def SegmentWalk.read (w : SegmentWalk σ) (i : Nat) : SegmentWalk σ :=
  { w with reads := w.reads ++ [i] }

/-- One call of `walkChain`, which says whether to stop. -/
def visitStart (pageIndex offsetInPage : Nat) (w : SegmentWalk σ) :
    Option (SegmentWalk σ × Bool) :=
  (walkChain w.state pageIndex offsetInPage).map (fun r =>
    ({ w with state := r.1, starts := w.starts ++ [(pageIndex, offsetInPage)] }, r.2))

/-- The loop over an overflow list; `none` when the fuel runs out. -/
def walkOverflow (pageIndex : Nat) : Nat → Nat → SegmentWalk σ → Option (SegmentWalk σ × Bool)
  | 0, _, _ => none
  | fuel + 1, i, w =>
    (visitStart walkChain pageIndex (segInfo.overflowOffset i) (w.read i)).bind (fun r =>
      if r.2 = true ∨ segInfo.IsLast i then some r
      else walkOverflow pageIndex fuel (i + 1) r.1)

def walkPage (fuel pageIndex : Nat) (w : SegmentWalk σ) : Option (SegmentWalk σ × Bool) :=
  let offsetInPage := segInfo.pageStart pageIndex
  if offsetInPage = startNone then some (w.read pageIndex, false)
  else if segInfo.IsMulti pageIndex then
    walkOverflow walkChain segInfo pageIndex fuel (withoutHighBit offsetInPage) (w.read pageIndex)
  else visitStart walkChain pageIndex offsetInPage (w.read pageIndex)

def walkPages (fuel : Nat) : List Nat → SegmentWalk σ → Option (SegmentWalk σ × Bool)
  | [], w => some (w, false)
  | p :: ps, w => (walkPage walkChain segInfo fuel p w).bind (fun r =>
      if r.2 = true then some r else walkPages fuel ps r.1)

def forEachFixupInSegmentChains (fuel : Nat) (w : SegmentWalk σ) :
    Option (SegmentWalk σ × Bool) :=
  walkPages walkChain segInfo fuel (List.range segInfo.pageCount) w

end Loops

/-! ### The entries of a segment -/

/-- A `page_start` entry that the loops read: its index, the page it is read for, and the
chain start it stands for, if any. -/
structure StartEntry where
  pageIndex : Nat
  index : Nat
  offsetInPage : Option Nat
  deriving DecidableEq, Repr

namespace StartsInSegment

variable (segInfo : StartsInSegment)

def overflowEntry (pageIndex i : Nat) : StartEntry :=
  ⟨pageIndex, i, some (segInfo.overflowOffset i)⟩

def overflowEntries (pageIndex : Nat) : Nat → Nat → Option (List StartEntry)
  | 0, _ => none
  | fuel + 1, i =>
    if segInfo.IsLast i then some [segInfo.overflowEntry pageIndex i]
    else (overflowEntries pageIndex fuel (i + 1)).map (segInfo.overflowEntry pageIndex i :: ·)

def pageEntries (fuel pageIndex : Nat) : Option (List StartEntry) :=
  let offsetInPage := segInfo.pageStart pageIndex
  if offsetInPage = startNone then some [⟨pageIndex, pageIndex, none⟩]
  else if segInfo.IsMulti pageIndex then
    (segInfo.overflowEntries pageIndex fuel (withoutHighBit offsetInPage)).map
      (⟨pageIndex, pageIndex, none⟩ :: ·)
  else some [⟨pageIndex, pageIndex, some offsetInPage⟩]

def entriesOf (fuel : Nat) : List Nat → Option (List StartEntry)
  | [] => some []
  | p :: ps => (segInfo.pageEntries fuel p).bind (fun es => (entriesOf fuel ps).map (es ++ ·))

/-- The entries that the loops read when no chain stops them, in order. -/
def entries (fuel : Nat) : Option (List StartEntry) :=
  segInfo.entriesOf fuel (List.range segInfo.pageCount)

/-- The overflow list that starts at `i` ends at `l`. -/
def EndsAt (i l : Nat) : Prop :=
  i ≤ l ∧ segInfo.IsLast l ∧ ∀ j, i ≤ j → j < l → ¬ segInfo.IsLast j

end StartsInSegment

section Flat

variable {σ : Type} {walkChain : σ → Nat → Nat → Option (σ × Bool)} {segInfo : StartsInSegment}

def visitEntry (walkChain : σ → Nat → Nat → Option (σ × Bool)) (e : StartEntry)
    (w : SegmentWalk σ) : Option (SegmentWalk σ × Bool) :=
  match e.offsetInPage with
  | none => some (w.read e.index, false)
  | some offsetInPage => visitStart walkChain e.pageIndex offsetInPage (w.read e.index)

/-- One loop over entries, left as soon as a chain says to stop. -/
def visitEntries (walkChain : σ → Nat → Nat → Option (σ × Bool)) :
    List StartEntry → SegmentWalk σ → Option (SegmentWalk σ × Bool)
  | [], w => some (w, false)
  | e :: es, w => (visitEntry walkChain e w).bind (fun r =>
      if r.2 = true then some r else visitEntries walkChain es r.1)

lemma visitEntries_cons (e : StartEntry) (es : List StartEntry) (w : SegmentWalk σ) :
    visitEntries walkChain (e :: es) w = (visitEntry walkChain e w).bind (fun r =>
      if r.2 = true then some r else visitEntries walkChain es r.1) := rfl

lemma visitEntries_singleton (e : StartEntry) (w : SegmentWalk σ) :
    visitEntries walkChain [e] w = visitEntry walkChain e w := by
  rw [visitEntries_cons]
  rcases visitEntry walkChain e w with _ | ⟨w', stopped⟩
  · rfl
  · cases stopped <;> rfl

lemma visitEntries_append (es fs : List StartEntry) (w : SegmentWalk σ) :
    visitEntries walkChain (es ++ fs) w = (visitEntries walkChain es w).bind (fun r =>
      if r.2 = true then some r else visitEntries walkChain fs r.1) := by
  induction es generalizing w with
  | nil => rfl
  | cons e es ih =>
    rw [List.cons_append, visitEntries_cons, visitEntries_cons, Option.bind_assoc]
    congr 1
    funext r
    split_ifs with hstop
    · simp [hstop]
    · exact ih r.1

lemma walkOverflow_eq {pageIndex fuel i : Nat} {es : List StartEntry} (w : SegmentWalk σ)
    (h : segInfo.overflowEntries pageIndex fuel i = some es) :
    walkOverflow walkChain segInfo pageIndex fuel i w = visitEntries walkChain es w := by
  induction fuel generalizing i es w with
  | zero => simp [StartsInSegment.overflowEntries] at h
  | succ fuel ih =>
    rw [StartsInSegment.overflowEntries] at h
    rw [walkOverflow]
    split_ifs at h with hlast
    · rw [Option.some.injEq] at h
      rw [← h, visitEntries_singleton]
      simp only [hlast, or_true, if_true]
      exact Option.bind_fun_some _
    · obtain ⟨fs, hfs, rfl⟩ := Option.map_eq_some_iff.mp h
      rw [visitEntries_cons]
      simp only [hlast, or_false]
      congr 1
      funext r
      split_ifs with hstop
      · rfl
      · exact ih r.1 hfs

lemma walkPage_eq {fuel pageIndex : Nat} {es : List StartEntry} (w : SegmentWalk σ)
    (h : segInfo.pageEntries fuel pageIndex = some es) :
    walkPage walkChain segInfo fuel pageIndex w = visitEntries walkChain es w := by
  unfold StartsInSegment.pageEntries at h
  unfold walkPage
  simp only at h ⊢
  split_ifs at h ⊢ with hnone hmulti
  · rw [Option.some.injEq] at h
    rw [← h, visitEntries_singleton]
    rfl
  · obtain ⟨fs, hfs, rfl⟩ := Option.map_eq_some_iff.mp h
    rw [walkOverflow_eq _ hfs, visitEntries_cons]
    rfl
  · rw [Option.some.injEq] at h
    rw [← h, visitEntries_singleton]
    rfl

lemma walkPages_eq {fuel : Nat} {ps : List Nat} {es : List StartEntry} (w : SegmentWalk σ)
    (h : segInfo.entriesOf fuel ps = some es) :
    walkPages walkChain segInfo fuel ps w = visitEntries walkChain es w := by
  induction ps generalizing es w with
  | nil =>
    rw [StartsInSegment.entriesOf, Option.some.injEq] at h
    rw [← h]
    rfl
  | cons p ps ih =>
    rw [StartsInSegment.entriesOf] at h
    obtain ⟨fs, hfs, h⟩ := Option.bind_eq_some_iff.mp h
    obtain ⟨gs, hgs, rfl⟩ := Option.map_eq_some_iff.mp h
    rw [walkPages, walkPage_eq w hfs, visitEntries_append]
    congr 1
    funext r
    split_ifs with hstop
    · rfl
    · exact ih r.1 hgs

theorem forEachFixupInSegmentChains_eq {fuel : Nat} {es : List StartEntry} (w : SegmentWalk σ)
    (h : segInfo.entries fuel = some es) :
    forEachFixupInSegmentChains walkChain segInfo fuel w = visitEntries walkChain es w :=
  walkPages_eq w h

/-- Loops that no chain stops and that end have read the last entry of every overflow list. -/
lemma exists_entries_of_walk
    (hstop : ∀ s p o r, walkChain s p o = some r → r.2 = false) {fuel : Nat} {w : SegmentWalk σ}
    {r : SegmentWalk σ × Bool}
    (h : forEachFixupInSegmentChains walkChain segInfo fuel w = some r) :
    ∃ es, segInfo.entries fuel = some es := by
  have hvisit : ∀ p o (w : SegmentWalk σ) r, visitStart walkChain p o w = some r → r.2 = false := by
    intro p o w r hr
    obtain ⟨r', hr', rfl⟩ := Option.map_eq_some_iff.mp hr
    exact hstop _ _ _ _ hr'
  have hoverflow : ∀ p fuel i (w : SegmentWalk σ) r,
      walkOverflow walkChain segInfo p fuel i w = some r →
        r.2 = false ∧ ∃ es, segInfo.overflowEntries p fuel i = some es := by
    intro p fuel
    induction fuel with
    | zero => intro i w r hr; simp [walkOverflow] at hr
    | succ fuel ih =>
      intro i w r hr
      rw [walkOverflow] at hr
      obtain ⟨r', hr', hr⟩ := Option.bind_eq_some_iff.mp hr
      have hfalse := hvisit _ _ _ _ hr'
      simp only [hfalse, Bool.false_eq_true, false_or] at hr
      rw [StartsInSegment.overflowEntries]
      split_ifs at hr ⊢ with hlast
      · cases hr
        exact ⟨hfalse, _, rfl⟩
      · obtain ⟨hr2, es, hes⟩ := ih _ _ _ hr
        exact ⟨hr2, _, by rw [hes]; rfl⟩
  have hpage : ∀ p (w : SegmentWalk σ) r, walkPage walkChain segInfo fuel p w = some r →
      r.2 = false ∧ ∃ es, segInfo.pageEntries fuel p = some es := by
    intro p w r hr
    unfold walkPage at hr
    unfold StartsInSegment.pageEntries
    simp only at hr ⊢
    split_ifs at hr ⊢ with hnone hmulti
    · cases hr
      exact ⟨rfl, _, rfl⟩
    · obtain ⟨hr2, es, hes⟩ := hoverflow _ _ _ _ _ hr
      exact ⟨hr2, _, by rw [hes]; rfl⟩
    · exact ⟨hvisit _ _ _ _ hr, _, rfl⟩
  have hpages : ∀ (ps : List Nat) (w : SegmentWalk σ) r, walkPages walkChain segInfo fuel ps w = some r →
      ∃ es, segInfo.entriesOf fuel ps = some es := by
    intro ps
    induction ps with
    | nil => exact fun _ _ _ => ⟨[], rfl⟩
    | cons p ps ih =>
      intro w r hr
      rw [walkPages] at hr
      obtain ⟨r', hr', hr⟩ := Option.bind_eq_some_iff.mp hr
      obtain ⟨hfalse, es, hes⟩ := hpage _ _ _ hr'
      simp only [hfalse, Bool.false_eq_true, if_false] at hr
      obtain ⟨fs, hfs⟩ := ih _ _ hr
      exact ⟨es ++ fs, by rw [StartsInSegment.entriesOf, hes, hfs]; rfl⟩
  exact hpages _ _ _ h

end Flat

/-! ### Two walks side by side -/

section WalkFollows

variable {σ τ : Type} (bad : σ → Prop) (rel : σ → τ → Prop)

/-- A loop is followed by another one, unless it stops where something is bad. -/
def WalkFollows {α β : Type} (state : α → σ) (state' : β → τ) (x : Option (α × Bool)) (y : Option (β × Bool)) :
    Prop :=
  ∀ a stopped, x = some (a, stopped) →
    bad (state a) ∧ stopped = true ∨ ∃ b, y = some (b, stopped) ∧ rel (state a) (state' b)

variable {bad rel} {walk : σ → Nat → Nat → Option (σ × Bool)} {walk' : τ → Nat → Nat → Option (τ × Bool)}
  {segInfo : StartsInSegment} (w : SegmentWalk σ) (w' : SegmentWalk τ)
  (hwalk : ∀ s t p o, rel s t → WalkFollows bad rel id id (walk s p o) (walk' t p o))
include hwalk

lemma visitStart_follows (p o : Nat) (h : rel w.state w'.state) :
    WalkFollows bad rel SegmentWalk.state SegmentWalk.state (visitStart walk p o w) (visitStart walk' p o w') := by
  intro a stopped hrun
  obtain ⟨⟨s, b⟩, hs, heq⟩ := Option.map_eq_some_iff.mp hrun
  cases heq
  refine (hwalk _ _ p o h s b hs).imp_right (fun ⟨t, ht, hrel⟩ => ?_)
  exact ⟨{ w' with state := t, starts := w'.starts ++ [(p, o)] }, by rw [visitStart, ht, Option.map_some], hrel⟩

lemma walkOverflow_follows (p fuel i : Nat) (h : rel w.state w'.state) :
    WalkFollows bad rel SegmentWalk.state SegmentWalk.state (walkOverflow walk segInfo p fuel i w)
      (walkOverflow walk' segInfo p fuel i w') := by
  induction fuel generalizing i w w' with
  | zero => exact fun a stopped hrun => absurd hrun (Option.some_ne_none _).symm
  | succ fuel ih =>
    intro a stopped hrun
    obtain ⟨⟨v, b⟩, hv, hrest⟩ := Option.bind_eq_some_iff.mp hrun
    have hstart := visitStart_follows (w.read i) (w'.read i) hwalk p (segInfo.overflowOffset i) h v b hv
    rw [walkOverflow]
    by_cases hend : b = true ∨ segInfo.IsLast i
    · rw [if_pos hend] at hrest
      cases hrest
      apply hstart.imp_right
      rintro ⟨v', hv', hrel⟩
      exact ⟨v', by rw [hv', Option.bind_some, if_pos hend], hrel⟩
    · rw [if_neg hend] at hrest
      cases hstart with
      | inl hbad => exact absurd (Or.inl hbad.2) hend
      | inr hgo =>
        obtain ⟨v', hv', hrel⟩ := hgo
        rw [hv', Option.bind_some, if_neg hend]
        exact ih v v' (i + 1) hrel a stopped hrest

lemma walkPage_follows (fuel p : Nat) (h : rel w.state w'.state) :
    WalkFollows bad rel SegmentWalk.state SegmentWalk.state (walkPage walk segInfo fuel p w)
      (walkPage walk' segInfo fuel p w') := by
  unfold walkPage
  dsimp only
  split
  · intro a stopped hrun
    cases hrun
    exact Or.inr ⟨_, rfl, h⟩
  · split
    · exact walkOverflow_follows (w.read p) (w'.read p) hwalk p fuel _ h
    · exact visitStart_follows (w.read p) (w'.read p) hwalk p _ h

lemma walkPages_follows (fuel : Nat) (pages : List Nat) (h : rel w.state w'.state) :
    WalkFollows bad rel SegmentWalk.state SegmentWalk.state (walkPages walk segInfo fuel pages w)
      (walkPages walk' segInfo fuel pages w') := by
  induction pages generalizing w w' with
  | nil =>
    intro a stopped hrun
    cases hrun
    exact Or.inr ⟨w', rfl, h⟩
  | cons p pages ih =>
    intro a stopped hrun
    obtain ⟨⟨v, b⟩, hv, hrest⟩ := Option.bind_eq_some_iff.mp hrun
    have hpage := walkPage_follows w w' hwalk fuel p h v b hv
    rw [walkPages]
    by_cases hstop : b = true
    · rw [if_pos hstop] at hrest
      cases hrest
      apply hpage.imp_right
      rintro ⟨v', hv', hrel⟩
      exact ⟨v', by rw [hv', Option.bind_some, if_pos hstop], hrel⟩
    · rw [if_neg hstop] at hrest
      cases hpage with
      | inl hbad => exact absurd hbad.2 hstop
      | inr hgo =>
        obtain ⟨v', hv', hrel⟩ := hgo
        rw [hv', Option.bind_some, if_neg hstop]
        exact ih v v' hrel a stopped hrest

end WalkFollows

/-! ### When the entries are finite -/

section Finite

variable {segInfo : StartsInSegment}

lemma overflowEntries_of_endsAt {pageIndex fuel i l : Nat} (h : segInfo.EndsAt i l)
    (hfuel : l - i < fuel) :
    segInfo.overflowEntries pageIndex fuel i =
      some ((List.range' i (l + 1 - i)).map (segInfo.overflowEntry pageIndex)) := by
  obtain ⟨hil, hlast, hno⟩ := h
  induction fuel generalizing i with
  | zero => omega
  | succ fuel ih =>
    rw [StartsInSegment.overflowEntries]
    by_cases heq : i = l
    · subst heq
      have hlen : i + 1 - i = 1 := by omega
      rw [if_pos hlast, hlen]
      rfl
    · have hlen : l + 1 - i = (l + 1 - (i + 1)) + 1 := by omega
      rw [if_neg (hno i le_rfl (by omega)), ih (by omega) (by omega) (fun j hj => hno j (by omega)),
        hlen, List.range'_succ]
      rfl

lemma StartsInSegment.EndsAt.unique {i l l' : Nat} (h : segInfo.EndsAt i l) (h' : segInfo.EndsAt i l') : l = l' := by
  obtain ⟨hil, hlast, hno⟩ := h
  obtain ⟨hil', hlast', hno'⟩ := h'
  rcases lt_trichotomy l l' with hlt | rfl | hlt
  · exact absurd hlast (hno' l hil hlt)
  · rfl
  · exact absurd hlast' (hno l' hil' hlt)

lemma entriesOf_of_pageEntries {fuel : Nat} {ps : List Nat}
    (h : ∀ p ∈ ps, ∃ es, segInfo.pageEntries fuel p = some es) :
    ∃ es, segInfo.entriesOf fuel ps = some es := by
  induction ps with
  | nil => exact ⟨[], rfl⟩
  | cons p ps ih =>
    obtain ⟨es, hes⟩ := h p (by simp)
    obtain ⟨fs, hfs⟩ := ih (fun q hq => h q (by simp [hq]))
    exact ⟨es ++ fs, by rw [StartsInSegment.entriesOf, hes, hfs]; rfl⟩

lemma mem_entriesOf_iff {fuel : Nat} {ps : List Nat} {es : List StartEntry}
    (h : segInfo.entriesOf fuel ps = some es) (e : StartEntry) :
    e ∈ es ↔ ∃ p ∈ ps, ∃ fs, segInfo.pageEntries fuel p = some fs ∧ e ∈ fs := by
  induction ps generalizing es with
  | nil =>
    rw [StartsInSegment.entriesOf, Option.some.injEq] at h
    simp [← h]
  | cons p ps ih =>
    rw [StartsInSegment.entriesOf] at h
    obtain ⟨fs, hfs, h⟩ := Option.bind_eq_some_iff.mp h
    obtain ⟨gs, hgs, rfl⟩ := Option.map_eq_some_iff.mp h
    rw [List.mem_append, ih hgs]
    simp [hfs]

end Finite

/-! ### Chains in place -/

section Chains

/-- The locations of the chains of some entries, one chain after the other. -/
inductive ChainsOf (chain : Nat → Nat → List Nat → Prop) : List StartEntry → List Nat → Prop
  | nil : ChainsOf chain [] []
  | skip {e : StartEntry} {es : List StartEntry} {l : List Nat} (he : e.offsetInPage = none)
      (h : ChainsOf chain es l) : ChainsOf chain (e :: es) l
  | chain {e : StartEntry} {es : List StartEntry} {offsetInPage : Nat} {l l' : List Nat}
      (he : e.offsetInPage = some offsetInPage) (hl : chain e.pageIndex offsetInPage l)
      (h : ChainsOf chain es l') : ChainsOf chain (e :: es) (l ++ l')

variable {σ : Type} {chain : Nat → Nat → List Nat → Prop} {walkChain : σ → Nat → Nat → Option (σ × Bool)}
  {handler : σ → Nat → σ × Bool}

/-- When every walk calls the handler on the locations of its chain, the loop does so for all chains. -/
theorem visitEntries_feed (ok : σ → List Nat → Prop)
    (hwalk : ∀ s p o l, chain p o l → ok s l → walkChain s p o = some (feed handler s l))
    (hok : ∀ s l l', ok s (l ++ l') → ok s l ∧ ok (feed handler s l).1 l')
    {es : List StartEntry} {l : List Nat} (h : ChainsOf chain es l) (w : SegmentWalk σ)
    (hw : ok w.state l) :
    ∃ w', visitEntries walkChain es w = some (w', (feed handler w.state l).2) ∧
      w'.state = (feed handler w.state l).1 := by
  induction h generalizing w with
  | nil => exact ⟨w, rfl, rfl⟩
  | @skip e es l he h ih =>
    obtain ⟨w', hw', hstate⟩ := ih (w.read e.index) hw
    refine ⟨w', ?_, hstate⟩
    rw [visitEntries_cons, visitEntry, he]
    exact hw'
  | @chain e es o l l' he hl h ih =>
    obtain ⟨hthis, hrest⟩ := hok _ _ _ hw
    have hstart : visitEntry walkChain e w = some ({ w.read e.index with
        state := (feed handler w.state l).1, starts := w.starts ++ [(e.pageIndex, o)] },
        (feed handler w.state l).2) := by
      simp only [visitEntry, he, visitStart, SegmentWalk.read, hwalk _ _ _ _ hl hthis, Option.map_some]
    rw [visitEntries_cons, hstart, Option.bind_some, feed_append]
    split_ifs with hstop
    · exact ⟨_, rfl, rfl⟩
    · exact ih _ hrest

/-- A loop that ends and is never stopped has come through some chains. -/
lemma exists_chainsOf (inv : σ → Prop) (hstop : ∀ s p o r, walkChain s p o = some r → r.2 = false)
    (hwalk : ∀ s p o r, inv s → walkChain s p o = some r →
      inv r.1 ∧ ∃ l, chain p o l ∧ r = feed handler s l)
    {es : List StartEntry} {w : SegmentWalk σ} (hw : inv w.state) {r : SegmentWalk σ × Bool}
    (h : visitEntries walkChain es w = some r) :
    ∃ l, ChainsOf chain es l ∧ r.1.state = (feed handler w.state l).1 := by
  induction es generalizing w with
  | nil =>
    cases h
    exact ⟨[], .nil, rfl⟩
  | cons e es ih =>
    rw [visitEntries_cons] at h
    obtain ⟨r₁, hr₁, h⟩ := Option.bind_eq_some_iff.mp h
    unfold visitEntry at hr₁
    cases he : e.offsetInPage with
    | none =>
      rw [he] at hr₁
      cases hr₁
      rw [if_neg Bool.false_ne_true] at h
      obtain ⟨l, hl, hstate⟩ := ih (w := w.read e.index) hw h
      exact ⟨l, .skip he hl, hstate⟩
    | some o =>
      rw [he] at hr₁
      obtain ⟨t, ht, rfl⟩ := Option.map_eq_some_iff.mp hr₁
      obtain ⟨hinv, l, hl, rfl⟩ := hwalk w.state _ _ _ hw ht
      have hgo : ¬(feed handler w.state l).2 = true := (Bool.not_eq_true _).mpr (hstop _ _ _ _ ht)
      rw [if_neg hgo] at h
      obtain ⟨l', hl', hstate⟩ := ih hinv h
      refine ⟨l ++ l', .chain he hl hl', ?_⟩
      rw [feed_append, if_neg hgo]
      exact hstate

end Chains

section Threads

variable {σ W : Type} (next : W → Nat) (content : Nat → W) (location : Nat → Nat → Nat) (fuel : Nat)

def ThreadAt (pageIndex offsetInPage : Nat) (l : List Nat) : Prop :=
  ∃ l', l = location pageIndex offsetInPage :: l' ∧
    Threaded next content (location pageIndex offsetInPage) l' ∧ l'.length < fuel

abbrev EntryChains : List StartEntry → List Nat → Prop :=
  ChainsOf (ThreadAt next content location fuel)

variable {next content location fuel} {read : σ → Nat → W} {handler : σ → Nat → σ × Bool}

lemma read_feed_apart {l : List Nat} {b : Nat}
    (hframe : ∀ s x y, Apart 8 x y → read (handler s x).1 y = read s y) (h : ∀ a ∈ l, Apart 8 a b)
    (s : σ) : read (feed handler s l).1 b = read s b := by
  induction l generalizing s with
  | nil => rfl
  | cons a l ih =>
    have ha : read (handler s a).1 b = read s b := hframe s a b (h a (by simp))
    rw [feed_cons]
    split
    · exact ha
    · rw [ih (fun c hc => h c (List.mem_cons_of_mem a hc)), ha]

theorem visitEntries_walk (hframe : ∀ s x y, Apart 8 x y → read (handler s x).1 y = read s y)
    {es : List StartEntry} {l : List Nat} (h : EntryChains next content location fuel es l)
    (hap : l.Pairwise (Apart 8)) (w : SegmentWalk σ)
    (hagree : ∀ b ∈ l, read w.state b = content b) :
    ∃ w', visitEntries (fun s p o => walk next read handler fuel s (location p o)) es w =
      some (w', (feed handler w.state l).2) ∧ w'.state = (feed handler w.state l).1 := by
  apply visitEntries_feed (fun s l => l.Pairwise (Apart 8) ∧ ∀ b ∈ l, read s b = content b) _ _ h w
    ⟨hap, hagree⟩
  · rintro s p o l ⟨l', rfl, hl, hlen⟩ ⟨hap, hagree⟩
    apply walk_threaded (nodup_of_pairwise_apart (by decide) hap)
      (fun t x hx y hy hxy => hframe t x y (apart_of_mem hap hx hy hxy)) _ hlen
    exact hl.congr (fun b hb => (hagree b hb).symm)
  · rintro s l l' ⟨hap, hagree⟩
    obtain ⟨hap₁, hap₂, hap₁₂⟩ := List.pairwise_append.mp hap
    refine ⟨⟨hap₁, fun b hb => hagree b (List.mem_append_left _ hb)⟩, hap₂, fun b hb => ?_⟩
    rw [read_feed_apart hframe (fun c hc => hap₁₂ c hc b hb)]
    exact hagree b (List.mem_append_right _ hb)

end Threads

end Dyld.Chained
