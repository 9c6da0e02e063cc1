import Dyld.Chained.Pointer

/-!
# Walking chains with a handler that stops

`MachOLoaded::walkChain` for every pointer format, with and without the non-pointers of the 32-bit
format, and `forEachFixupInAllChains` above it. A handler sees the locations of a chain and may stop.
The loop that passes over non-pointers does not look for the end of the chain, and the stop of a
handler is not handed on from one segment to the next.
-/

namespace Dyld.Chained.WalkChain

open Dyld.Lib

/-- What a walk leaves: the state of the handler, the diagnostics, and the calls of the handler with
whether they stopped. -/
structure ChainRun (σ : Type) where
  state : σ
  diag : Option ChainError
  calls : List (Nat × Bool)

def pointerAt (m : Mem) (chain : Nat) : PointerOnDisk := load 8 m chain

section Walk

variable {σ : Type} (m : Mem) (format : Nat) (notifyNonPointers : Bool) (maxValidPointer : Nat)
  (handler : σ → Nat → σ × Bool)

def ChainRun.call (r : ChainRun σ) (chain : Nat) : ChainRun σ :=
  { r with state := (handler r.state chain).1
           calls := r.calls ++ [(chain, (handler r.state chain).2)] }

def IsNonPointer (chain : Nat) : Prop :=
  (pointerAt m chain).generic32Bind = false ∧ maxValidPointer < (pointerAt m chain).generic32Target

instance (chain : Nat) : Decidable (IsNonPointer m maxValidPointer chain) :=
  inferInstanceAs (Decidable (_ ∧ _))

/-- The loop that passes over non-pointers, for at most `fuel` of its tests. -/
def skipNonPointers : Nat → Nat → Option Nat
  | 0, _ => none
  | fuel + 1, chain =>
    if IsNonPointer m maxValidPointer chain then
      skipNonPointers fuel (chain + (pointerAt m chain).generic32Next * 4)
    else some chain

def walkLoop (stride : Nat) : Nat → ChainRun σ → Nat → Option (ChainRun σ × Bool)
  | 0, _, _ => none
  | fuel + 1, r, chain =>
    let called := r.call handler chain
    if (handler r.state chain).2 then some (called, true)
    else
      match nextDistance format stride (pointerAt m chain) with
      | none => some ({ called with diag := some (.unknownFormat format) }, true)
      | some 0 => some (called, false)
      | some distance =>
        if format = ptr32 ∧ notifyNonPointers = false then
          (skipNonPointers m maxValidPointer fuel (chain + distance)).bind
            (walkLoop stride fuel called)
        else walkLoop stride fuel called (chain + distance)

/-- `MachOLoaded::walkChain`. The memory is what the chain consists of: a handler may overwrite the
location that it is given, which is not looked at again. -/
def walkChain (fuel : Nat) (r : ChainRun σ) (chain : Nat) : Option (ChainRun σ × Bool) :=
  (strideSize format).bind (fun stride =>
    walkLoop m format notifyNonPointers maxValidPointer handler stride fuel r chain)

end Walk

section AllChains

variable {σ : Type} (m : Mem) (loadAddress : Nat) (notifyNonPointers : Bool)
  (handler : StartsInSegment → σ → Nat → σ × Bool) (fuel : Nat)

/-- `MachOLoaded::forEachFixupInSegmentChains`. -/
def inSegment (segInfo : StartsInSegment) (r : ChainRun σ) : Option (ChainRun σ) :=
  (forEachFixupInSegmentChains
    (fun r pageIndex offsetInPage =>
      walkChain m segInfo.pointerFormat notifyNonPointers segInfo.maxValidPointer (handler segInfo) fuel r
        (loadAddress + segInfo.segmentOffset + pageIndex * segInfo.pageSize + offsetInPage))
    segInfo fuel ⟨r, [], []⟩).map (·.1.state)

/-- `MachOLoaded::forEachFixupInAllChains`, whose `stopped` is never set. -/
def forEachFixupInAllChains : ChainedImage.StartsInImage → ChainRun σ → Option (ChainRun σ)
  | [], r => some r
  | none :: starts, r => forEachFixupInAllChains starts r
  | some segInfo :: starts, r =>
    (inSegment m loadAddress notifyNonPointers handler fuel segInfo r).bind
      (forEachFixupInAllChains starts)

end AllChains

/-! ### What a walk is meant to do -/

def supportedFormats : List Nat :=
  arm64eFormats ++ [ptr64, ptr64Offset, ptr32, ptr64KernelCache, ptrX8664KernelCache, ptr32Firmware]

/-- The distance to the next location of a chain, zero at its end. -/
def next (m : Mem) (format chain : Nat) : Nat :=
  ((strideSize format).bind (fun stride => nextDistance format stride (pointerAt m chain))).getD 0

/-- The location `b` comes after `a` in a chain. -/
def Linked (m : Mem) (format a b : Nat) : Prop := next m format a ≠ 0 ∧ b = a + next m format a

/-- A location of the chain that starts at `a`. -/
def Reaches (m : Mem) (format : Nat) : Nat → Nat → Prop := Relation.ReflTransGen (Linked m format)

/-- Following the links never leaves the segment. -/
def StaysIn (m : Mem) (format lo hi start : Nat) : Prop :=
  ∀ a, Reaches m format start a → lo ≤ a ∧ a < hi

/-- With any handler the walk ends, and the handler sees increasing addresses. -/
def WalksUp (m : Mem) (format : Nat) (notifyNonPointers : Bool) (maxValidPointer start : Nat) : Prop :=
  ∀ (σ : Type) (handler : σ → Nat → σ × Bool) (s : σ), ∃ fuel r stopped,
    walkChain m format notifyNonPointers maxValidPointer handler fuel ⟨s, none, []⟩ start =
        some (r, stopped) ∧
      (r.calls.map Prod.fst).Pairwise (· < ·)

def HonorsStop (m : Mem) (loadAddress : Nat) (notifyNonPointers : Bool)
    (starts : ChainedImage.StartsInImage) : Prop :=
  ∀ (σ : Type) (handler : StartsInSegment → σ → Nat → σ × Bool) (s : σ) (fuel : Nat) (r : ChainRun σ),
    forEachFixupInAllChains m loadAddress notifyNonPointers handler fuel starts ⟨s, none, []⟩ = some r →
      ∀ c ∈ r.calls.dropLast, c.2 = false

/-! ### One chain -/

section Chain

variable {m : Mem} {format : Nat} {notifyNonPointers : Bool} {maxValidPointer : Nat}

lemma exists_stride (hformat : format ∈ supportedFormats) :
    ∃ stride, strideSize format = some stride ∧
      ∀ raw, ∃ distance, nextDistance format stride raw = some distance := by
  simp only [supportedFormats, arm64eFormats, List.cons_append, List.nil_append, List.mem_cons,
    List.not_mem_nil, or_false] at hformat
  rcases hformat with rfl | rfl | rfl | rfl | rfl | rfl | rfl | rfl | rfl | rfl | rfl
  all_goals exact ⟨_, rfl, fun raw => ⟨_, rfl⟩⟩

lemma next_ptr32 (chain : Nat) : next m ptr32 chain = (pointerAt m chain).generic32Next * 4 := rfl

lemma Reaches.le {a b : Nat} (h : Reaches m format a b) : a ≤ b := by
  induction h with
  | refl => exact le_rfl
  | tail _ hlink ih => exact ih.trans (hlink.2 ▸ Nat.le_add_right _ _)

lemma walkChain_succ (hformat : format ∈ supportedFormats) {σ : Type} (handler : σ → Nat → σ × Bool)
    (fuel : Nat) (r : ChainRun σ) (chain : Nat) :
    walkChain m format notifyNonPointers maxValidPointer handler (fuel + 1) r chain =
      if (handler r.state chain).2 then some (r.call handler chain, true)
      else if next m format chain = 0 then some (r.call handler chain, false)
      else if format = ptr32 ∧ notifyNonPointers = false then
        (skipNonPointers m maxValidPointer fuel (chain + next m format chain)).bind
          (walkChain m format notifyNonPointers maxValidPointer handler fuel (r.call handler chain))
      else walkChain m format notifyNonPointers maxValidPointer handler fuel (r.call handler chain)
        (chain + next m format chain) := by
  obtain ⟨stride, hstride, hnext⟩ := exists_stride hformat
  obtain ⟨distance, hdistance⟩ := hnext (pointerAt m chain)
  have hsame : next m format chain = distance := by
    rw [next, hstride, Option.bind_some, hdistance, Option.getD_some]
  have hwalk : ∀ fuel r chain,
      walkChain m format notifyNonPointers maxValidPointer handler fuel r chain =
        walkLoop m format notifyNonPointers maxValidPointer handler stride fuel r chain := by
    intro fuel r chain
    rw [walkChain, hstride, Option.bind_some]
  simp only [hwalk, hsame]
  rw [walkLoop, hdistance]
  cases distance with
  | zero => simp
  | succ distance => simp

/-- The loop over non-pointers ends if the chain does not end with one. -/
lemma exists_skip {hi : Nat} (fuel : Nat) {a : Nat} (hin : ∀ b, Reaches m ptr32 a b → b < hi)
    (hend : ∀ b, Reaches m ptr32 a b → next m ptr32 b = 0 → ¬IsNonPointer m maxValidPointer b)
    (hfuel : hi - a < fuel) :
    ∃ c, skipNonPointers m maxValidPointer fuel a = some c ∧ Reaches m ptr32 a c := by
  induction fuel generalizing a with
  | zero => omega
  | succ fuel ih =>
    rw [skipNonPointers]
    by_cases hnon : IsNonPointer m maxValidPointer a
    · have hnext : next m ptr32 a ≠ 0 := fun h => hend a .refl h hnon
      have hlink : Reaches m ptr32 a (a + next m ptr32 a) := .single ⟨hnext, rfl⟩
      have ha := hin _ hlink
      rw [if_pos hnon]
      obtain ⟨c, hskip, hreach⟩ := ih (fun b hb => hin b (hlink.trans hb))
        (fun b hb => hend b (hlink.trans hb)) (by omega)
      exact ⟨c, hskip, hlink.trans hreach⟩
    · rw [if_neg hnon]
      exact ⟨a, rfl, .refl⟩

def EndsWithPointer (m : Mem) (format : Nat) (notifyNonPointers : Bool) (maxValidPointer start : Nat) :
    Prop :=
  format = ptr32 → notifyNonPointers = false →
    ∀ a, Reaches m format start a → a ≠ start → next m format a = 0 → ¬IsNonPointer m maxValidPointer a

lemma EndsWithPointer.tail {a b : Nat}
    (h : EndsWithPointer m format notifyNonPointers maxValidPointer a) (hreach : Reaches m format a b)
    (hlt : a < b) : EndsWithPointer m format notifyNonPointers maxValidPointer b :=
  fun hformat hnotify c hc _ =>
    h hformat hnotify c (hreach.trans hc) (by have hle := Reaches.le hc; omega)

lemma exists_walk (hformat : format ∈ supportedFormats) {σ : Type} (handler : σ → Nat → σ × Bool)
    {hi : Nat} (fuel : Nat) {a : Nat} (r : ChainRun σ) (hin : ∀ b, Reaches m format a b → b < hi)
    (hend : EndsWithPointer m format notifyNonPointers maxValidPointer a) (hfuel : hi - a < fuel) :
    ∃ r' stopped l, walkChain m format notifyNonPointers maxValidPointer handler fuel r a =
        some (r', stopped) ∧ r'.calls = r.calls ++ l ∧
      (l.map Prod.fst).Pairwise (· < ·) ∧ ∀ c ∈ l, a ≤ c.1 := by
  induction fuel generalizing a r with
  | zero => omega
  | succ fuel ih =>
    rw [walkChain_succ hformat]
    by_cases hstop : (handler r.state a).2 = true
    · rw [if_pos hstop]
      exact ⟨_, _, [(a, _)], rfl, rfl, by simp, by simp⟩
    · rw [if_neg hstop]
      by_cases hnext : next m format a = 0
      · rw [if_pos hnext]
        exact ⟨_, _, [(a, _)], rfl, rfl, by simp, by simp⟩
      · rw [if_neg hnext]
        have hlink : Reaches m format a (a + next m format a) := .single ⟨hnext, rfl⟩
        have ha := hin _ hlink
        -- the walk goes on from a location behind this one
        have hgo : ∀ b, Reaches m format a b → a < b → ∃ r' stopped l,
            walkChain m format notifyNonPointers maxValidPointer handler fuel (r.call handler a) b =
              some (r', stopped) ∧ r'.calls = r.calls ++ l ∧
            (l.map Prod.fst).Pairwise (· < ·) ∧ ∀ c ∈ l, a ≤ c.1 := by
          intro b hb hlt
          obtain ⟨r', stopped, l, hwalk, hcalls, hsorted, hle⟩ := ih (r.call handler a)
            (fun c hc => hin c (hb.trans hc)) (hend.tail hb hlt) (by have hlt' := hin b hb; omega)
          refine ⟨r', stopped, (a, (handler r.state a).2) :: l, hwalk, ?_, ?_, ?_⟩
          · rw [hcalls, ChainRun.call, List.append_assoc, List.singleton_append]
          · rw [List.map_cons, List.pairwise_cons]
            refine ⟨fun c hc => ?_, hsorted⟩
            obtain ⟨call, hcall, rfl⟩ := List.mem_map.mp hc
            exact hlt.trans_le (hle call hcall)
          · intro c hc
            cases List.mem_cons.mp hc with
            | inl heq => exact heq ▸ le_rfl
            | inr hc => exact hlt.le.trans (hle c hc)
        by_cases hskips : format = ptr32 ∧ notifyNonPointers = false
        · obtain ⟨rfl, hnotify⟩ := hskips
          rw [if_pos ⟨rfl, hnotify⟩]
          obtain ⟨b, hskip, hb⟩ := exists_skip fuel (fun b hb => hin b (hlink.trans hb))
            (fun b hb => hend rfl hnotify b (hlink.trans hb) (by have hle := Reaches.le hb; omega))
            (show hi - (a + next m ptr32 a) < fuel by omega)
          rw [hskip, Option.bind_some]
          exact hgo b (hlink.trans hb) (by have hle := Reaches.le hb; omega)
        · rw [if_neg hskips]
          exact hgo _ hlink (by omega)

/-- From a non-pointer at the end of a chain the loop does not get on. -/
lemma skip_of_reaches {z : Nat} (hz : next m ptr32 z = 0) (hnon : IsNonPointer m maxValidPointer z)
    {fuel a c : Nat} (ha : Reaches m ptr32 a z) (h : skipNonPointers m maxValidPointer fuel a = some c) :
    Reaches m ptr32 c z ∧ c ≠ z := by
  induction fuel generalizing a with
  | zero => cases h
  | succ fuel ih =>
    rw [skipNonPointers] at h
    by_cases hskip : IsNonPointer m maxValidPointer a
    · rw [if_pos hskip] at h
      refine ih ?_ h
      cases ha.cases_head with
      | inl heq =>
        subst heq
        have hstays : a + (pointerAt m a).generic32Next * 4 = a := by
          rw [← next_ptr32, hz, Nat.add_zero]
        rw [hstays]
        exact .refl
      | inr hstep =>
        obtain ⟨b, hlink, hb⟩ := hstep
        rw [← next_ptr32, ← hlink.2]
        exact hb
    · rw [if_neg hskip, Option.some.injEq] at h
      subst h
      exact ⟨ha, fun heq => hskip (heq ▸ hnon)⟩

lemma walk_none {z : Nat} (hz : next m ptr32 z = 0) (hnon : IsNonPointer m maxValidPointer z) {σ : Type}
    {handler : σ → Nat → σ × Bool} (hhandler : ∀ s a, (handler s a).2 = false) (fuel : Nat) {a : Nat}
    (ha : Reaches m ptr32 a z) (hne : a ≠ z) (r : ChainRun σ) :
    walkChain m ptr32 false maxValidPointer handler fuel r a = none := by
  induction fuel generalizing a r with
  | zero => rfl
  | succ fuel ih =>
    obtain ⟨b, hlink, hb⟩ := ha.cases_head.resolve_left hne
    rw [walkChain_succ (by decide), if_neg (by simp [hhandler]), if_neg hlink.1, if_pos ⟨rfl, rfl⟩,
      ← hlink.2]
    cases hskip : skipNonPointers m maxValidPointer fuel b with
    | none => rfl
    | some c =>
      obtain ⟨hc, hcz⟩ := skip_of_reaches hz hnon hb hskip
      exact ih hc hcz _

lemma walksUp_iff (hformat : format ∈ supportedFormats) {lo hi start : Nat}
    (hin : StaysIn m format lo hi start) :
    WalksUp m format notifyNonPointers maxValidPointer start ↔
      EndsWithPointer m format notifyNonPointers maxValidPointer start := by
  constructor
  · intro h
    rintro rfl rfl z hz hne hnext hnon
    obtain ⟨fuel, r, stopped, hwalk, -⟩ := h Unit (fun s _ => (s, false)) ()
    rw [walk_none hnext hnon (fun _ _ => rfl) fuel hz hne.symm] at hwalk
    cases hwalk
  · intro h σ handler s
    obtain ⟨r, stopped, l, hwalk, hcalls, hsorted, -⟩ := exists_walk hformat handler (hi - start + 1)
      ⟨s, none, []⟩ (fun b hb => (hin b hb).2) h (Nat.lt_succ_self _)
    refine ⟨_, r, stopped, hwalk, ?_⟩
    rw [hcalls, List.nil_append]
    exact hsorted

end Chain

/-! ### All chains of an image -/

def HasChain (segInfo : StartsInSegment) : Prop :=
  ∃ p ∈ List.range segInfo.pageCount, segInfo.pageStart p ≠ startNone

instance (segInfo : StartsInSegment) : Decidable (HasChain segInfo) :=
  inferInstanceAs (Decidable (∃ p ∈ List.range _, _))

def withChains (starts : ChainedImage.StartsInImage) : List StartsInSegment :=
  (starts.filterMap id).filter (fun segInfo => HasChain segInfo)

section Stops

variable {σ : Type} {m : Mem}

/-- No call has stopped. -/
def GoesOn (r : ChainRun σ) : Prop := ∀ c ∈ r.calls, c.2 = false

/-- Only the last call can have stopped, and it has not if the walk says so. -/
structure StopsLast (r : ChainRun σ) (stopped : Bool) : Prop where
  before : ∀ c ∈ r.calls.dropLast, c.2 = false
  last : stopped = false → GoesOn r

lemma GoesOn.stopsLast {r : ChainRun σ} (h : GoesOn r) (stopped : Bool) : StopsLast r stopped where
  before c hc := h c (List.dropLast_subset _ hc)
  last _ := h

lemma stopsLast_call (handler : σ → Nat → σ × Bool) {r : ChainRun σ} (h : GoesOn r) (chain : Nat) :
    StopsLast (r.call handler chain) (handler r.state chain).2 where
  before c hc := by
    rw [ChainRun.call, List.dropLast_concat] at hc
    exact h c hc
  last hstop c hc := by
    rw [ChainRun.call] at hc
    cases List.mem_append.mp hc with
    | inl hc => exact h c hc
    | inr hc =>
      rw [List.mem_singleton.mp hc]
      exact hstop

lemma walkLoop_stopsLast {format : Nat} {notifyNonPointers : Bool} {maxValidPointer : Nat}
    {handler : σ → Nat → σ × Bool} {stride fuel chain : Nat} {r r' : ChainRun σ} {stopped : Bool}
    (h : GoesOn r)
    (hwalk : walkLoop m format notifyNonPointers maxValidPointer handler stride fuel r chain =
      some (r', stopped)) : StopsLast r' stopped := by
  induction fuel generalizing r chain with
  | zero => cases hwalk
  | succ fuel ih =>
    have hcall := stopsLast_call handler h chain
    rw [walkLoop] at hwalk
    by_cases hstop : (handler r.state chain).2 = true
    · rw [if_pos hstop, Option.some.injEq, Prod.mk.injEq] at hwalk
      obtain ⟨rfl, rfl⟩ := hwalk
      exact hstop ▸ hcall
    · have hgoes : GoesOn (r.call handler chain) := hcall.last (Bool.not_eq_true _ |>.mp hstop)
      rw [if_neg hstop] at hwalk
      cases hdistance : nextDistance format stride (pointerAt m chain) with
      | none =>
        simp only [hdistance, Option.some.injEq, Prod.mk.injEq] at hwalk
        obtain ⟨rfl, rfl⟩ := hwalk
        exact ⟨(hgoes.stopsLast true).before, fun h => absurd h (by simp)⟩
      | some distance =>
        cases distance with
        | zero =>
          simp only [hdistance, Option.some.injEq, Prod.mk.injEq] at hwalk
          obtain ⟨rfl, rfl⟩ := hwalk
          exact hgoes.stopsLast false
        | succ distance =>
          simp only [hdistance] at hwalk
          split at hwalk
          · obtain ⟨b, -, hwalk⟩ := Option.bind_eq_some_iff.mp hwalk
            exact ih hgoes hwalk
          · exact ih hgoes hwalk

def HandsOn (walk : ChainRun σ → Nat → Nat → Option (ChainRun σ × Bool)) : Prop :=
  ∀ r p o r' stopped, GoesOn r → walk r p o = some (r', stopped) → StopsLast r' stopped

section Segment

variable {walk : ChainRun σ → Nat → Nat → Option (ChainRun σ × Bool)} {segInfo : StartsInSegment}
  {w : SegmentWalk (ChainRun σ)} {w' : SegmentWalk (ChainRun σ) × Bool}

lemma walkPages_stopsLast (hwalk : HandsOn walk) {fuel : Nat} {pages : List Nat} (h : GoesOn w.state)
    (hrun : walkPages walk segInfo fuel pages w = some w') : StopsLast w'.1.state w'.2 := by
  have hsame : ∀ r r' p o, r = r' ∧ GoesOn r → WalkFollows (fun r => ∀ c ∈ r.calls.dropLast, c.2 = false)
      (fun r r' => r = r' ∧ GoesOn r) id id (walk r p o) (walk r' p o) := by
    rintro r _ p o ⟨rfl, hr⟩ r₁ stopped hr₁
    have hlast := hwalk _ _ _ _ _ hr hr₁
    cases stopped with
    | true => exact Or.inl ⟨hlast.before, rfl⟩
    | false => exact Or.inr ⟨r₁, hr₁, rfl, hlast.last rfl⟩
  rcases walkPages_follows w w hsame fuel pages ⟨rfl, h⟩ w'.1 w'.2 hrun with ⟨hbefore, hstop⟩ | ⟨_, -, -, hgoes⟩
  · exact ⟨hbefore, fun hgo => absurd (hstop.symm.trans hgo) (by decide)⟩
  · exact hgoes.stopsLast w'.2

lemma walkPages_of_none {fuel : Nat} {pages : List Nat} (hnone : ∀ p ∈ pages, segInfo.pageStart p = startNone) :
    ∃ w', walkPages walk segInfo fuel pages w = some (w', false) ∧ w'.state = w.state := by
  induction pages generalizing w with
  | nil => exact ⟨w, rfl, rfl⟩
  | cons p pages ih =>
    obtain ⟨hp, hpages⟩ := List.forall_mem_cons.mp hnone
    have hpage : walkPage walk segInfo fuel p w = some (w.read p, false) := by
      rw [walkPage]
      exact if_pos hp
    obtain ⟨w', hw', hstate⟩ := ih (w := w.read p) hpages
    refine ⟨w', ?_, hstate⟩
    rw [walkPages, hpage, Option.bind_some]
    exact hw'

lemma walkPage_of_stops {step : ChainRun σ → Nat → Nat → ChainRun σ}
    (hwalk : ∀ r p o, walk r p o = some (step r p o, true)) {fuel p : Nat}
    (hp : segInfo.pageStart p ≠ startNone) :
    ∃ w' o, walkPage walk segInfo (fuel + 1) p w = some (w', true) ∧ w'.state = step w.state p o := by
  unfold walkPage
  dsimp only
  rw [if_neg hp]
  by_cases hmulti : segInfo.IsMulti p
  · rw [if_pos hmulti, walkOverflow, visitStart, hwalk, Option.map_some, Option.bind_some,
      if_pos (Or.inl rfl)]
    exact ⟨_, _, rfl, rfl⟩
  · rw [if_neg hmulti, visitStart, hwalk, Option.map_some]
    exact ⟨_, _, rfl, rfl⟩

lemma walkPages_of_stops {step : ChainRun σ → Nat → Nat → ChainRun σ}
    (hwalk : ∀ r p o, walk r p o = some (step r p o, true)) (fuel : Nat) {pages : List Nat}
    (hsome : ∃ p ∈ pages, segInfo.pageStart p ≠ startNone) :
    ∃ w' p o, walkPages walk segInfo (fuel + 1) pages w = some (w', true) ∧
      w'.state = step w.state p o := by
  induction pages generalizing w with
  | nil => simp at hsome
  | cons p pages ih =>
    by_cases hp : segInfo.pageStart p = startNone
    · have hpage : walkPage walk segInfo (fuel + 1) p w = some (w.read p, false) := by
        rw [walkPage]
        exact if_pos hp
      have hrest : ∃ q ∈ pages, segInfo.pageStart q ≠ startNone := by
        obtain ⟨q, hq, hstart⟩ := hsome
        cases List.mem_cons.mp hq with
        | inl heq => exact absurd (heq ▸ hp) hstart
        | inr hq => exact ⟨q, hq, hstart⟩
      obtain ⟨w', q, o, hw', hstate⟩ := ih (w := w.read p) hrest
      refine ⟨w', q, o, ?_, hstate⟩
      rw [walkPages, hpage, Option.bind_some]
      exact hw'
    · obtain ⟨w', o, hpage, hstate⟩ := walkPage_of_stops (w := w) hwalk hp
      refine ⟨w', p, o, ?_, hstate⟩
      rw [walkPages, hpage, Option.bind_some, if_pos rfl]

end Segment

section Image

variable {loadAddress : Nat} {notifyNonPointers : Bool} {handler : StartsInSegment → σ → Nat → σ × Bool}
  {fuel : Nat}

lemma inSegment_of_none {segInfo : StartsInSegment} (hnone : ¬HasChain segInfo) (r : ChainRun σ) :
    inSegment m loadAddress notifyNonPointers handler fuel segInfo r = some r := by
  have hpages : ∀ p ∈ List.range segInfo.pageCount, segInfo.pageStart p = startNone := by
    intro p hp
    by_contra hstart
    exact hnone ⟨p, hp, hstart⟩
  rw [inSegment, forEachFixupInSegmentChains]
  obtain ⟨w', hw', hstate⟩ := walkPages_of_none (w := ⟨r, [], []⟩) hpages
  rw [hw', Option.map_some, hstate]

lemma inSegment_stopsLast {segInfo : StartsInSegment} {r r' : ChainRun σ} (h : GoesOn r)
    (hrun : inSegment m loadAddress notifyNonPointers handler fuel segInfo r = some r') :
    ∀ c ∈ r'.calls.dropLast, c.2 = false := by
  obtain ⟨w', hw', rfl⟩ := Option.map_eq_some_iff.mp hrun
  refine (walkPages_stopsLast (w := ⟨r, [], []⟩) ?_ h hw').before
  intro r p o r' stopped hr hwalk
  obtain ⟨stride, -, hwalk⟩ := Option.bind_eq_some_iff.mp hwalk
  exact walkLoop_stopsLast hr hwalk

lemma withChains_cons (segInfo : StartsInSegment) (starts : ChainedImage.StartsInImage) :
    withChains (some segInfo :: starts) =
      if HasChain segInfo then segInfo :: withChains starts else withChains starts := by
  by_cases hchain : HasChain segInfo
  · simp [withChains, hchain]
  · simp [withChains, hchain]

lemma forEachFixup_of_none {starts : ChainedImage.StartsInImage} (hnone : withChains starts = [])
    (r : ChainRun σ) :
    forEachFixupInAllChains m loadAddress notifyNonPointers handler fuel starts r = some r := by
  induction starts with
  | nil => rfl
  | cons start starts ih =>
    cases start with
    | none => exact ih hnone
    | some segInfo =>
      rw [withChains_cons] at hnone
      by_cases hchain : HasChain segInfo
      · rw [if_pos hchain] at hnone
        cases hnone
      · rw [if_neg hchain] at hnone
        rw [forEachFixupInAllChains, inSegment_of_none hchain, Option.bind_some, ih hnone]

lemma stops_of_one {starts : ChainedImage.StartsInImage} (hone : (withChains starts).length ≤ 1)
    {r r' : ChainRun σ} (h : GoesOn r)
    (hrun : forEachFixupInAllChains m loadAddress notifyNonPointers handler fuel starts r = some r') :
    ∀ c ∈ r'.calls.dropLast, c.2 = false := by
  induction starts with
  | nil =>
    rw [forEachFixupInAllChains, Option.some.injEq] at hrun
    exact hrun ▸ (h.stopsLast false).before
  | cons start starts ih =>
    cases start with
    | none => exact ih hone hrun
    | some segInfo =>
      rw [withChains_cons] at hone
      obtain ⟨r₁, hr₁, hrest⟩ := Option.bind_eq_some_iff.mp hrun
      by_cases hchain : HasChain segInfo
      · rw [if_pos hchain, List.length_cons] at hone
        have hnone : withChains starts = [] := List.length_eq_zero_iff.mp (by omega)
        rw [forEachFixup_of_none hnone, Option.some.injEq] at hrest
        exact hrest ▸ inSegment_stopsLast h hr₁
      · rw [if_neg hchain] at hone
        rw [inSegment_of_none hchain, Option.some.injEq] at hr₁
        subst hr₁
        exact ih hone hrest

lemma calls_of_stops (m : Mem) (loadAddress : Nat) (notifyNonPointers : Bool)
    (handler : StartsInSegment → σ → Nat → σ × Bool) (fuel : Nat) {starts : ChainedImage.StartsInImage}
    (hformats : ∀ segInfo, some segInfo ∈ starts → segInfo.pointerFormat ∈ supportedFormats)
    (hhandler : ∀ segInfo s a, (handler segInfo s a).2 = true) (r : ChainRun σ) :
    ∃ r' l, forEachFixupInAllChains m loadAddress notifyNonPointers handler (fuel + 1) starts r = some r' ∧
      r'.calls = r.calls ++ l ∧ l.length = (withChains starts).length ∧ ∀ c ∈ l, c.2 = true := by
  induction starts generalizing r with
  | nil => exact ⟨r, [], rfl, (List.append_nil _).symm, rfl, by simp⟩
  | cons start starts ih =>
    have hrest := ih (fun segInfo hmem => hformats segInfo (List.mem_cons_of_mem _ hmem))
    cases start with
    | none => exact hrest r
    | some segInfo =>
      rw [withChains_cons, forEachFixupInAllChains]
      by_cases hchain : HasChain segInfo
      · have hwalk : ∀ r pageIndex offsetInPage,
            walkChain m segInfo.pointerFormat notifyNonPointers segInfo.maxValidPointer (handler segInfo)
                (fuel + 1) r
                (loadAddress + segInfo.segmentOffset + pageIndex * segInfo.pageSize + offsetInPage) =
              some (r.call (handler segInfo)
                (loadAddress + segInfo.segmentOffset + pageIndex * segInfo.pageSize + offsetInPage), true) := by
          intro r pageIndex offsetInPage
          rw [walkChain_succ (hformats segInfo List.mem_cons_self), if_pos (hhandler _ _ _)]
        obtain ⟨w', p, o, hw', hstate⟩ := walkPages_of_stops (w := ⟨r, [], []⟩) hwalk fuel hchain
        obtain ⟨r', l, hr', hcalls, hlength, hstops⟩ := hrest w'.state
        rw [if_pos hchain, inSegment, forEachFixupInSegmentChains, hw', Option.map_some, Option.bind_some]
        obtain ⟨a, ha⟩ : ∃ a, w'.state = r.call (handler segInfo) a := ⟨_, hstate⟩
        refine ⟨r', (a, (handler segInfo r.state a).2) :: l, hr', ?_, ?_, ?_⟩
        · rw [hcalls, ha, ChainRun.call, List.append_assoc, List.singleton_append]
        · rw [List.length_cons, List.length_cons, hlength]
        · exact List.forall_mem_cons.mpr ⟨hhandler segInfo r.state a, hstops⟩
      · rw [if_neg hchain, inSegment_of_none hchain, Option.bind_some]
        exact hrest r

end Image

end Stops

lemma honorsStop_iff {m : Mem} {loadAddress : Nat} {notifyNonPointers : Bool}
    {starts : ChainedImage.StartsInImage}
    (hformats : ∀ segInfo, some segInfo ∈ starts → segInfo.pointerFormat ∈ supportedFormats) :
    HonorsStop m loadAddress notifyNonPointers starts ↔ (withChains starts).length ≤ 1 := by
  constructor
  · intro h
    by_contra hmany
    obtain ⟨r, l, hrun, hcalls, hlength, hstops⟩ :=
      calls_of_stops m loadAddress notifyNonPointers (fun _ (s : Unit) _ => (s, true)) 0 hformats
        (fun _ _ _ => rfl) ⟨(), none, []⟩
    have hbefore := h Unit _ () 1 r hrun
    rw [hcalls, List.nil_append] at hbefore
    cases l with
    | nil => rw [List.length_nil] at hlength; omega
    | cons c l =>
      cases l with
      | nil => rw [List.length_singleton] at hlength; omega
      | cons c' l =>
        have hfalse := hbefore c (by rw [List.dropLast_cons_cons]; exact List.mem_cons_self)
        rw [hstops c List.mem_cons_self] at hfalse
        cases hfalse
  · intro hone σ handler s fuel r hrun
    exact stops_of_one hone (fun c hc => absurd hc List.not_mem_nil) hrun

/-- A walk of a chain ends exactly if the chain does not end with a non-pointer that is passed over, and
a stop is the end of all chains exactly if only one segment has any. -/
theorem walks_iff (m : Mem) (format : Nat) (notifyNonPointers : Bool)
    (maxValidPointer lo hi start loadAddress : Nat) (starts : ChainedImage.StartsInImage)
    (hformat : format ∈ supportedFormats) (hin : StaysIn m format lo hi start)
    (hformats : ∀ segInfo, some segInfo ∈ starts → segInfo.pointerFormat ∈ supportedFormats) :
    (WalksUp m format notifyNonPointers maxValidPointer start ↔
        EndsWithPointer m format notifyNonPointers maxValidPointer start) ∧
      (HonorsStop m loadAddress notifyNonPointers starts ↔ (withChains starts).length ≤ 1) :=
  ⟨walksUp_iff hformat hin, honorsStop_iff hformats⟩

/-- A chain of two 32-bit words, the second of which has target 5. -/
def twoWords : Mem := fun a => ([0, 0, 0, 4, 5, 0, 0, 0] : List UInt8)[a]?.getD 0

def oneChain : StartsInSegment := ⟨24, 0x1000, ptr32, 0, 4, 1, fun _ => 0⟩

lemma reaches_twoWords {a : Nat} (h : Reaches twoWords ptr32 0 a) : a = 0 ∨ a = 4 := by
  cases h.cases_head with
  | inl heq => exact Or.inl heq.symm
  | inr hstep =>
    obtain ⟨b, hlink, hb⟩ := hstep
    have hnext : next twoWords ptr32 0 = 4 := by decide +kernel
    have hend : next twoWords ptr32 4 = 0 := by decide +kernel
    obtain rfl : b = 4 := by rw [hlink.2, hnext]
    cases hb.cases_head with
    | inl heq => exact Or.inr heq.symm
    | inr hstep =>
      obtain ⟨c, hlink', -⟩ := hstep
      exact absurd hend hlink'.1

theorem walks_twoWords :
    WalksUp twoWords ptr32 false 5 0 ∧ HonorsStop twoWords 0 false [none, some oneChain] := by
  have hiff := walks_iff twoWords ptr32 false 5 0 8 0 0 [none, some oneChain] (by decide)
    (fun a ha => by cases reaches_twoWords ha with | inl h => omega | inr h => omega)
    (fun segInfo hmem => by simp at hmem; rw [hmem]; decide)
  refine ⟨hiff.1.mpr (fun _ _ a ha hne _ => ?_), hiff.2.mpr (by decide)⟩
  obtain rfl := (reaches_twoWords ha).resolve_left hne
  decide +kernel

theorem not_walks_twoWords :
    ¬WalksUp twoWords ptr32 false 4 0 ∧ ¬HonorsStop twoWords 0 false [some oneChain, some oneChain] := by
  constructor
  · intro h
    have hlink : Linked twoWords ptr32 0 4 := ⟨by decide +kernel, by decide +kernel⟩
    obtain ⟨fuel, r, stopped, hwalk, -⟩ := h Unit (fun s _ => (s, false)) ()
    rw [walk_none (z := 4) (by decide +kernel) (by decide +kernel) (fun _ _ => rfl) fuel
      (.single hlink) (by decide)] at hwalk
    cases hwalk
  · intro h
    have hone := (honorsStop_iff (fun segInfo hmem => ?_)).mp h
    · exact absurd hone (by decide)
    · have hsame : segInfo = oneChain := by simpa using hmem
      rw [hsame]
      decide

end Dyld.Chained.WalkChain
