import Mathlib

/-!
# Bind patterns of a closure

`BindPatternBuilder` compresses the binds of an image into runs to one target, and
`Image::forEachBind` expands them again. Applying the expanded binds in order gives every
location its last target; the results here say when that is the target of the last `add`.
-/

namespace Dyld.Closure

abbrev ResolvedSymbolTarget := BitVec 64

structure BindPattern where
  target : ResolvedSymbolTarget
  startVmOffset : Nat
  skipCount : Nat
  repeatCount : Nat
  deriving DecidableEq, Repr

structure BindPatternBuilder where
  bindEntries : List BindPattern
  ptrSize : Nat
  lastOffset : Nat
  lastTarget : ResolvedSymbolTarget
  deriving DecidableEq, Repr

/-- Subtraction of 64-bit unsigned integers. -/
def sub64 (a b : Nat) : Nat := (a + 2 ^ 64 - b % 2 ^ 64) % 2 ^ 64

namespace BindPatternBuilder

/-- The constructor; `_lastOffset` starts at `-ptrSize`. -/
def init (ptrSize : Nat) : BindPatternBuilder where
  bindEntries := []
  ptrSize := ptrSize
  lastOffset := sub64 0 ptrSize
  lastTarget := 0

def rewritable (runtimeOffset : Nat) (p : BindPattern) : Bool :=
  p.startVmOffset == runtimeOffset && p.repeatCount == 1 && p.skipCount == 0

/-- The weak-coalesced branch of `add`: the first rewritable pattern gets the new target. -/
def rewriteCoalesced (runtimeOffset : Nat) (target : ResolvedSymbolTarget) :
    List BindPattern → Option (List BindPattern)
  | [] => none
  | p :: ps =>
    if rewritable runtimeOffset p then some ({ p with target := target } :: ps)
    else (rewriteCoalesced runtimeOffset target ps).map (p :: ·)

/-- The merge branch of `add`: the last pattern after it takes in `runtimeOffset`, if it
can. The guards make the two overflow assertions of this branch hold. -/
def mergeIntoPrevious (b : BindPatternBuilder) (runtimeOffset : Nat) (target : ResolvedSymbolTarget)
    (back : BindPattern) : Option BindPattern :=
  if target = b.lastTarget ∧ runtimeOffset > b.lastOffset then
    let gap := sub64 (sub64 runtimeOffset b.lastOffset) b.ptrSize
    let skipAmount := gap / b.ptrSize
    if skipAmount * b.ptrSize % 2 ^ 64 ≠ gap then none
    else if back.repeatCount = 1 ∧ back.skipCount = 0 ∧ skipAmount ≤ 255 then
      some { back with repeatCount := 2, skipCount := skipAmount % 2 ^ 8 }
    else if back.skipCount = skipAmount ∧ back.repeatCount < 0xfff then
      some { back with repeatCount := (back.repeatCount + 1) % 2 ^ 16 }
    else none
  else none

/-- The entries after the branches of `add` that do not rewrite: merge into the last
pattern, drop a duplicate of it, or push a new pattern, whose 40-bit offset is asserted. -/
def addEntry (b : BindPatternBuilder) (runtimeOffset : Nat) (target : ResolvedSymbolTarget) :
    Option (List BindPattern) :=
  let pushed :=
    if runtimeOffset % 2 ^ 40 = runtimeOffset then
      some (b.bindEntries ++ [⟨target, runtimeOffset % 2 ^ 40, 0, 1⟩])
    else none
  match b.bindEntries.getLast? with
  | none => pushed
  | some back =>
    match mergeIntoPrevious b runtimeOffset target back with
    | some back' => some (b.bindEntries.dropLast ++ [back'])
    | none =>
      if target = b.lastTarget ∧ runtimeOffset = b.lastOffset then some b.bindEntries
      else pushed

/-- `BindPatternBuilder::add`; `none` is a failed assertion. -/
def add (b : BindPatternBuilder) (runtimeOffset : Nat) (target : ResolvedSymbolTarget)
    (weakBindCoalese : Bool) : Option BindPatternBuilder :=
  match if weakBindCoalese then rewriteCoalesced runtimeOffset target b.bindEntries else none with
  | some entries => some { b with bindEntries := entries }
  | none =>
    (addEntry b runtimeOffset target).map (fun entries =>
      { b with bindEntries := entries, lastOffset := runtimeOffset, lastTarget := target })

end BindPatternBuilder

/-- The locations of one pattern, as the inner loop of `Image::forEachBind` visits them. -/
def BindPattern.offsets (pointerSize : Nat) (p : BindPattern) : List Nat :=
  (List.range p.repeatCount).map (fun i => p.startVmOffset + i * (pointerSize * (1 + p.skipCount)))

/-- `Image::forEachBind`: the (offset, target) pairs it reports, in order. -/
def forEachBind (pointerSize : Nat) (ps : List BindPattern) : List (Nat × ResolvedSymbolTarget) :=
  ps.flatMap (fun p => (p.offsets pointerSize).map (fun o => (o, p.target)))

/-- Where each location ends up when the pairs are applied in order. -/
def bindings (l : List (Nat × ResolvedSymbolTarget)) (o : Nat) : Option ResolvedSymbolTarget :=
  (l.reverse.find? (fun p => p.1 == o)).map (·.2)

structure AddCall where
  runtimeOffset : Nat
  target : ResolvedSymbolTarget
  weakBindCoalese : Bool
  deriving DecidableEq, Repr

/-- The calls of a run in order. -/
def addAll (b : BindPatternBuilder) : List AddCall → Option BindPatternBuilder
  | [] => some b
  | c :: cs => (b.add c.runtimeOffset c.target c.weakBindCoalese).bind (fun b' => addAll b' cs)

def Reflects (b : BindPatternBuilder) (cs : List AddCall) : Prop :=
  ∀ o, bindings (forEachBind b.ptrSize b.bindEntries) o =
    bindings (cs.map (fun c => (c.runtimeOffset, c.target))) o

/-! ### The two branches that go wrong -/

def afterRewritable (runtimeOffset : Nat) : List BindPattern → Option (List BindPattern)
  | [] => none
  | p :: ps =>
    if BindPatternBuilder.rewritable runtimeOffset p then some ps
    else afterRewritable runtimeOffset ps

/-- A coalesced bind that rewrites an earlier pattern although a later one already binds
the same location elsewhere. -/
def ShadowedRewrite (b : BindPatternBuilder) (c : AddCall) : Prop :=
  c.weakBindCoalese = true ∧ ∃ later t, afterRewritable c.runtimeOffset b.bindEntries = some later ∧
    bindings (forEachBind b.ptrSize later) c.runtimeOffset = some t ∧ t ≠ c.target

/-- A bind that is merged into the last pattern, or dropped as its duplicate, because it has
the remembered last target, although that pattern has since been rewritten to another. -/
def StaleMerge (b : BindPatternBuilder) (c : AddCall) : Prop :=
  (c.weakBindCoalese = true → afterRewritable c.runtimeOffset b.bindEntries = none) ∧
    ∃ earlier back, b.bindEntries = earlier ++ [back] ∧ back.target ≠ c.target ∧
      (b.mergeIntoPrevious c.runtimeOffset c.target back ≠ none ∨
        (c.target = b.lastTarget ∧ c.runtimeOffset = b.lastOffset))

/-- No call of the run takes one of those branches. -/
def NoStaleStep (b : BindPatternBuilder) (cs : List AddCall) : Prop :=
  ∀ before c after b', cs = before ++ c :: after → addAll b before = some b' →
    ¬ShadowedRewrite b' c ∧ ¬StaleMerge b' c

/-- What holds of the builder between two calls, whatever the calls were. -/
structure BuilderInv (b : BindPatternBuilder) : Prop where
  ptrSize_eq : b.ptrSize = 4 ∨ b.ptrSize = 8
  entry : ∀ p ∈ b.bindEntries, 1 ≤ p.repeatCount ∧ p.repeatCount ≤ 0xfff ∧
    (p.repeatCount = 1 → p.skipCount = 0)
  last : ∀ earlier back, b.bindEntries = earlier ++ [back] → b.lastOffset < 2 ^ 40 ∧
    b.lastOffset = back.startVmOffset + (back.repeatCount - 1) * (b.ptrSize * (1 + back.skipCount))

/-! ### Bindings of a list of pairs -/

lemma bindings_append (l l' : List (Nat × ResolvedSymbolTarget)) (o : Nat) :
    bindings (l ++ l') o = (bindings l' o).or (bindings l o) := by
  unfold bindings
  rw [List.reverse_append, List.find?_append]
  cases l'.reverse.find? (fun p => p.1 == o) <;> simp

lemma bindings_singleton (a : Nat) (t : ResolvedSymbolTarget) (o : Nat) :
    bindings [(a, t)] o = if a = o then some t else none := by
  by_cases h : a = o <;> simp [bindings, h]

lemma forEachBind_append (n : Nat) (l l' : List BindPattern) :
    forEachBind n (l ++ l') = forEachBind n l ++ forEachBind n l' := by
  simp [forEachBind]

lemma forEachBind_singleton (n : Nat) (p : BindPattern) :
    forEachBind n [p] = (p.offsets n).map (fun o => (o, p.target)) := by
  simp [forEachBind]

lemma offsets_of_rewritable {n o : Nat} {p : BindPattern}
    (h : BindPatternBuilder.rewritable o p = true) : p.offsets n = [o] := by
  simp only [BindPatternBuilder.rewritable, Bool.and_eq_true, beq_iff_eq] at h
  obtain ⟨⟨h1, h2⟩, -⟩ := h
  simp [BindPattern.offsets, h1, h2]

/-- A pattern with at least one location ends at its last one. -/
lemma offsets_eq_append {n : Nat} {p : BindPattern} (h : 1 ≤ p.repeatCount) :
    ∃ l, p.offsets n =
      l ++ [p.startVmOffset + (p.repeatCount - 1) * (n * (1 + p.skipCount))] := by
  obtain ⟨k, hk⟩ : ∃ k, p.repeatCount = k + 1 := ⟨p.repeatCount - 1, by omega⟩
  refine ⟨(List.range k).map (fun i => p.startVmOffset + i * (n * (1 + p.skipCount))), ?_⟩
  rw [BindPattern.offsets, hk, List.range_succ, List.map_append]
  rfl

lemma bindings_pattern_last {n : Nat} {p : BindPattern} (h : 1 ≤ p.repeatCount) :
    bindings (forEachBind n [p]) (p.startVmOffset + (p.repeatCount - 1) * (n * (1 + p.skipCount))) =
      some p.target := by
  obtain ⟨l, hl⟩ := offsets_eq_append (n := n) h
  rw [forEachBind_singleton, hl, List.map_append, bindings_append]
  simp [bindings_singleton]

/-! ### One call -/

section Step

variable {b : BindPatternBuilder}

lemma rewriteCoalesced_none {o : Nat} {t : ResolvedSymbolTarget} {l : List BindPattern}
    (h : BindPatternBuilder.rewriteCoalesced o t l = none) : afterRewritable o l = none := by
  induction l with
  | nil => rfl
  | cons p l ih =>
    rw [BindPatternBuilder.rewriteCoalesced] at h
    split at h
    · exact absurd h (by simp)
    · rename_i hp
      rw [afterRewritable, if_neg hp]
      exact ih (by simpa using h)

lemma rewriteCoalesced_some {o : Nat} {t : ResolvedSymbolTarget} {l l' : List BindPattern}
    (h : BindPatternBuilder.rewriteCoalesced o t l = some l') :
    ∃ earlier p later, l = earlier ++ p :: later ∧ afterRewritable o l = some later ∧
      BindPatternBuilder.rewritable o p = true ∧
      l' = earlier ++ { p with target := t } :: later := by
  induction l generalizing l' with
  | nil => simp [BindPatternBuilder.rewriteCoalesced] at h
  | cons p l ih =>
    rw [BindPatternBuilder.rewriteCoalesced] at h
    rw [afterRewritable]
    split at h
    · rename_i hp
      exact ⟨[], p, l, rfl, by rw [if_pos hp], hp, by simpa using h.symm⟩
    · rename_i hp
      obtain ⟨k, hk, rfl⟩ := Option.map_eq_some_iff.mp h
      obtain ⟨earlier, q, later, rfl, hq, hr, rfl⟩ := ih hk
      exact ⟨p :: earlier, q, later, rfl, by rw [if_neg hp, hq], hr, rfl⟩

/-- A gap that passes the alignment test is a whole number of skipped pointers. -/
lemma offset_of_gap {ptrSize last o : Nat} (hp : ptrSize = 4 ∨ ptrSize = 8) (ho : o < 2 ^ 40)
    (hlast : last < o)
    (h : sub64 (sub64 o last) ptrSize / ptrSize * ptrSize % 2 ^ 64 = sub64 (sub64 o last) ptrSize) :
    o = last + ptrSize * (1 + sub64 (sub64 o last) ptrSize / ptrSize) := by
  unfold sub64 at *
  rcases hp with rfl | rfl
  · omega
  · omega

lemma mergeIntoPrevious_some {o : Nat} {t : ResolvedSymbolTarget} {earlier : List BindPattern}
    {back back' : BindPattern} (hb : BuilderInv b) (he : b.bindEntries = earlier ++ [back])
    (ho : o < 2 ^ 40) (h : b.mergeIntoPrevious o t back = some back') :
    back'.target = back.target ∧ back'.offsets b.ptrSize = back.offsets b.ptrSize ++ [o] ∧
      (1 ≤ back'.repeatCount ∧ back'.repeatCount ≤ 0xfff ∧
        (back'.repeatCount = 1 → back'.skipCount = 0)) ∧
      o = back'.startVmOffset + (back'.repeatCount - 1) * (b.ptrSize * (1 + back'.skipCount)) := by
  obtain ⟨-, hlast⟩ := hb.last earlier back he
  obtain ⟨hr1, hr2, hr3⟩ := hb.entry back (by simp [he])
  unfold BindPatternBuilder.mergeIntoPrevious at h
  split at h
  · rename_i hcond
    dsimp only at h
    split at h
    · exact absurd h (by simp)
    · rename_i hgap
      have hoff := offset_of_gap hb.ptrSize_eq ho hcond.2 (not_not.mp hgap)
      generalize sub64 (sub64 o b.lastOffset) b.ptrSize / b.ptrSize = skipAmount at h hoff
      split at h
      · rename_i h1
        obtain ⟨hrep, hskip, hle⟩ := h1
        obtain rfl := Option.some.inj h
        have hmod : skipAmount % 2 ^ 8 = skipAmount := Nat.mod_eq_of_lt (by omega)
        simp only [hrep, hskip] at hlast
        have hstart : b.lastOffset = back.startVmOffset := by omega
        simp only [BindPattern.offsets, hrep, hmod]
        refine ⟨trivial, ?_, by omega, by omega⟩
        simp [List.range_succ, hoff, hstart]
      · split at h
        · rename_i h2
          obtain ⟨hskip, hlt⟩ := h2
          obtain rfl := Option.some.inj h
          have hmod : (back.repeatCount + 1) % 2 ^ 16 = back.repeatCount + 1 :=
            Nat.mod_eq_of_lt (by omega)
          have hnext : o = back.startVmOffset +
              back.repeatCount * (b.ptrSize * (1 + back.skipCount)) := by
            obtain ⟨k, hk⟩ : ∃ k, back.repeatCount = k + 1 := ⟨back.repeatCount - 1, by omega⟩
            rw [hoff, hlast, hk, ← hskip, Nat.add_sub_cancel, Nat.succ_mul]
            omega
          simp only [BindPattern.offsets, hmod]
          refine ⟨trivial, ?_, by omega, by simpa using hnext⟩
          rw [List.range_succ, List.map_append]
          simp [← hnext]
        · exact absurd h (by simp)
  · exact absurd h (by simp)

lemma bindings_entries (n : Nat) (earlier : List BindPattern) (back : BindPattern) (o : Nat) :
    bindings (forEachBind n (earlier ++ [back])) o =
      (bindings (forEachBind n [back]) o).or (bindings (forEachBind n earlier) o) := by
  rw [forEachBind_append, bindings_append]

lemma bindings_lastOffset {earlier : List BindPattern} {back : BindPattern} (hb : BuilderInv b)
    (he : b.bindEntries = earlier ++ [back]) :
    bindings (forEachBind b.ptrSize b.bindEntries) b.lastOffset = some back.target := by
  obtain ⟨-, hlast⟩ := hb.last earlier back he
  rw [he, bindings_entries, hlast, bindings_pattern_last (hb.entry back (by simp [he])).1]
  rfl

/-- What one call does: the builder keeps its invariant, and the call's offset becomes bound
to the call's target with all other offsets unchanged, unless it takes one of the two
branches above; then the offset stays bound to another target. -/
structure StepSpec (b b' : BindPatternBuilder) (c : AddCall) : Prop where
  inv : BuilderInv b'
  ptrSize : b'.ptrSize = b.ptrSize
  other : ∀ o, o ≠ c.runtimeOffset → bindings (forEachBind b'.ptrSize b'.bindEntries) o =
    bindings (forEachBind b.ptrSize b.bindEntries) o
  bound : bindings (forEachBind b'.ptrSize b'.bindEntries) c.runtimeOffset = some c.target ↔
    ¬ShadowedRewrite b c ∧ ¬StaleMerge b c

lemma builderInv_rewrite {earlier later : List BindPattern} {p : BindPattern}
    (hb : BuilderInv b) (he : b.bindEntries = earlier ++ p :: later) (t : ResolvedSymbolTarget) :
    BuilderInv { b with bindEntries := earlier ++ { p with target := t } :: later } := by
  refine ⟨hb.ptrSize_eq, ?_, ?_⟩
  · intro q hq
    rcases List.mem_append.mp hq with hq | hq
    · exact hb.entry q (by rw [he]; exact List.mem_append_left _ hq)
    · rcases List.mem_cons.mp hq with rfl | hq
      · exact hb.entry p (by simp [he])
      · exact hb.entry q (by rw [he]; exact List.mem_append_right _ (List.mem_cons_of_mem p hq))
  · intro front back hback
    rcases List.eq_nil_or_concat later with rfl | ⟨mid, last, rfl⟩
    · obtain ⟨rfl, hbk⟩ := List.append_inj' hback rfl
      obtain rfl := List.singleton_inj.mp hbk
      exact hb.last earlier p he
    · have hassoc : (earlier ++ { p with target := t } :: mid) ++ [last] = front ++ [back] := by
        rw [← hback]
        simp
      obtain ⟨-, hbk⟩ := List.append_inj' hassoc rfl
      obtain rfl := List.singleton_inj.mp hbk
      exact hb.last (earlier ++ p :: mid) last (by rw [he]; simp)

lemma stepSpec_rewrite {c : AddCall} {l : List BindPattern} (hb : BuilderInv b)
    (hw : c.weakBindCoalese = true)
    (h : BindPatternBuilder.rewriteCoalesced c.runtimeOffset c.target b.bindEntries = some l) :
    StepSpec b { b with bindEntries := l } c := by
  obtain ⟨earlier, p, later, he, hafter, hp, rfl⟩ := rewriteCoalesced_some h
  have hp' : BindPatternBuilder.rewritable c.runtimeOffset { p with target := c.target } = true := hp
  have hnew : ∀ o, bindings (forEachBind b.ptrSize (earlier ++ { p with target := c.target } :: later)) o =
      ((bindings (forEachBind b.ptrSize later) o).or
        (if c.runtimeOffset = o then some c.target else none)).or
          (bindings (forEachBind b.ptrSize earlier) o) := by
    intro o
    rw [← List.singleton_append, forEachBind_append, forEachBind_append, bindings_append,
      bindings_append, forEachBind_singleton, offsets_of_rewritable hp', List.map_singleton,
      bindings_singleton]
  have hold : ∀ o, bindings (forEachBind b.ptrSize b.bindEntries) o =
      ((bindings (forEachBind b.ptrSize later) o).or
        (if c.runtimeOffset = o then some p.target else none)).or
          (bindings (forEachBind b.ptrSize earlier) o) := by
    intro o
    rw [he, ← List.singleton_append, forEachBind_append, forEachBind_append, bindings_append,
      bindings_append, forEachBind_singleton, offsets_of_rewritable hp, List.map_singleton,
      bindings_singleton]
  have hstale : ¬StaleMerge b c := by
    rintro ⟨hnone, -⟩
    rw [hnone hw] at hafter
    exact absurd hafter (by simp)
  refine ⟨builderInv_rewrite hb he c.target, rfl, ?_, ?_⟩
  · intro o ho
    rw [hnew, hold, if_neg (Ne.symm ho), if_neg (Ne.symm ho)]
  · rw [hnew, if_pos rfl]
    simp only [hstale, not_false_eq_true, and_true, ShadowedRewrite, hw, hafter, true_and]
    cases hlater : bindings (forEachBind b.ptrSize later) c.runtimeOffset with
    | none => simp [hlater]
    | some t => simp [hlater]

lemma not_shadowedRewrite {c : AddCall}
    (hno : c.weakBindCoalese = true → afterRewritable c.runtimeOffset b.bindEntries = none) :
    ¬ShadowedRewrite b c := by
  rintro ⟨hw, later, t, hafter, -⟩
  rw [hno hw] at hafter
  exact absurd hafter (by simp)

lemma bindings_concat (n : Nat) (l : List BindPattern) (q : BindPattern) (o : Nat) :
    bindings (forEachBind n (l ++ [q])) o =
      (bindings ((q.offsets n).map (fun x => (x, q.target))) o).or (bindings (forEachBind n l) o) := by
  rw [bindings_entries, forEachBind_singleton]

lemma stepSpec_merge {c : AddCall} {earlier : List BindPattern} {back back' : BindPattern}
    (hb : BuilderInv b) (ho : c.runtimeOffset < 2 ^ 40)
    (hno : c.weakBindCoalese = true → afterRewritable c.runtimeOffset b.bindEntries = none)
    (he : b.bindEntries = earlier ++ [back])
    (h : b.mergeIntoPrevious c.runtimeOffset c.target back = some back') :
    StepSpec b { b with bindEntries := earlier ++ [back'], lastOffset := c.runtimeOffset,
                        lastTarget := c.target } c := by
  obtain ⟨htarget, hoffsets, hentry, hlast⟩ := mergeIntoPrevious_some hb he ho h
  have hnew : ∀ o, bindings (forEachBind b.ptrSize (earlier ++ [back'])) o =
      if c.runtimeOffset = o then some back.target
      else bindings (forEachBind b.ptrSize b.bindEntries) o := by
    intro o
    rw [he, bindings_concat, bindings_concat, hoffsets, htarget, List.map_append, bindings_append,
      List.map_singleton, bindings_singleton]
    split <;> simp
  have hshadow := not_shadowedRewrite hno
  refine ⟨⟨hb.ptrSize_eq, ?_, ?_⟩, rfl, ?_, ?_⟩
  · intro q hq
    rcases List.mem_append.mp hq with hq | hq
    · exact hb.entry q (by rw [he]; exact List.mem_append_left _ hq)
    · rw [List.mem_singleton.mp hq]
      exact hentry
  · intro front last hfront
    obtain ⟨-, hbk⟩ := List.append_inj' hfront rfl
    obtain rfl := List.singleton_inj.mp hbk
    exact ⟨ho, hlast⟩
  · intro o hne
    rw [hnew, if_neg (Ne.symm hne)]
  · rw [hnew, if_pos rfl]
    simp only [hshadow, not_false_eq_true, true_and, Option.some.injEq]
    constructor
    · rintro heq ⟨-, front, back2, he2, hne, -⟩
      obtain ⟨-, hbk⟩ := List.append_inj' (he.symm.trans he2) rfl
      obtain rfl := List.singleton_inj.mp hbk
      exact hne heq
    · intro hstale
      by_contra hne
      exact hstale ⟨hno, earlier, back, he, hne, Or.inl (by simp [h])⟩

lemma stepSpec_duplicate {c : AddCall} {earlier : List BindPattern} {back : BindPattern}
    (hb : BuilderInv b)
    (hno : c.weakBindCoalese = true → afterRewritable c.runtimeOffset b.bindEntries = none)
    (he : b.bindEntries = earlier ++ [back])
    (hdup : c.target = b.lastTarget ∧ c.runtimeOffset = b.lastOffset) :
    StepSpec b { b with lastOffset := c.runtimeOffset, lastTarget := c.target } c := by
  have hsame : { b with lastOffset := c.runtimeOffset, lastTarget := c.target } = b := by
    rw [hdup.1, hdup.2]
  have hshadow := not_shadowedRewrite hno
  rw [hsame]
  refine ⟨hb, rfl, fun _ _ => rfl, ?_⟩
  rw [hdup.2, bindings_lastOffset hb he]
  simp only [hshadow, not_false_eq_true, true_and, Option.some.injEq]
  constructor
  · rintro heq ⟨-, front, back2, he2, hne, -⟩
    obtain ⟨-, hbk⟩ := List.append_inj' (he.symm.trans he2) rfl
    obtain rfl := List.singleton_inj.mp hbk
    exact hne heq
  · intro hstale
    by_contra hne
    exact hstale ⟨hno, earlier, back, he, hne, Or.inr hdup⟩

lemma stepSpec_push {c : AddCall} (hb : BuilderInv b) (ho : c.runtimeOffset < 2 ^ 40)
    (hno : c.weakBindCoalese = true → afterRewritable c.runtimeOffset b.bindEntries = none)
    (hpush : ∀ earlier back, b.bindEntries = earlier ++ [back] →
      b.mergeIntoPrevious c.runtimeOffset c.target back = none ∧
        ¬(c.target = b.lastTarget ∧ c.runtimeOffset = b.lastOffset)) :
    StepSpec b { b with bindEntries := b.bindEntries ++ [⟨c.target, c.runtimeOffset, 0, 1⟩],
                        lastOffset := c.runtimeOffset, lastTarget := c.target } c := by
  have hnew : ∀ o, bindings (forEachBind b.ptrSize
      (b.bindEntries ++ [⟨c.target, c.runtimeOffset, 0, 1⟩])) o =
      if c.runtimeOffset = o then some c.target
      else bindings (forEachBind b.ptrSize b.bindEntries) o := by
    intro o
    rw [bindings_concat]
    simp only [BindPattern.offsets, List.range_one, List.map_singleton, Nat.zero_mul, Nat.add_zero,
      bindings_singleton]
    split <;> simp
  have hshadow := not_shadowedRewrite hno
  have hstale : ¬StaleMerge b c := by
    rintro ⟨-, earlier, back, he, -, hmerge | hdup⟩
    · exact hmerge (hpush earlier back he).1
    · exact (hpush earlier back he).2 hdup
  refine ⟨⟨hb.ptrSize_eq, ?_, ?_⟩, rfl, ?_, ?_⟩
  · intro q hq
    rcases List.mem_append.mp hq with hq | hq
    · exact hb.entry q hq
    · rw [List.mem_singleton.mp hq]
      exact ⟨le_rfl, by norm_num, fun _ => rfl⟩
  · intro front last hfront
    obtain ⟨-, hbk⟩ := List.append_inj' hfront rfl
    obtain rfl := List.singleton_inj.mp hbk
    exact ⟨ho, by simp⟩
  · intro o hne
    rw [hnew, if_neg (Ne.symm hne)]
  · rw [hnew, if_pos rfl]
    simp [hshadow, hstale]

theorem add_spec {c : AddCall} (hb : BuilderInv b) (ho : c.runtimeOffset < 2 ^ 40) :
    ∃ b', b.add c.runtimeOffset c.target c.weakBindCoalese = some b' ∧ StepSpec b b' c := by
  unfold BindPatternBuilder.add
  split
  · rename_i entries hentries
    have hw : c.weakBindCoalese = true := by
      by_contra hw
      rw [if_neg hw] at hentries
      exact absurd hentries (by simp)
    rw [if_pos hw] at hentries
    exact ⟨_, rfl, stepSpec_rewrite hb hw hentries⟩
  · rename_i hnone
    have hno : c.weakBindCoalese = true → afterRewritable c.runtimeOffset b.bindEntries = none := by
      intro hw
      rw [if_pos hw] at hnone
      exact rewriteCoalesced_none hnone
    have hmod : c.runtimeOffset % 2 ^ 40 = c.runtimeOffset := Nat.mod_eq_of_lt ho
    rcases List.eq_nil_or_concat b.bindEntries with hnil | ⟨earlier, back, he⟩
    · have hpush := stepSpec_push hb ho hno (by simp [hnil])
      refine ⟨_, ?_, hpush⟩
      simp only [BindPatternBuilder.addEntry, hnil, List.getLast?_nil, hmod, if_true,
        Option.map_some]
    · rw [List.concat_eq_append] at he
      have hlast : b.bindEntries.getLast? = some back := by simp [he]
      have hdrop : b.bindEntries.dropLast = earlier := by simp [he]
      simp only [BindPatternBuilder.addEntry, hlast, hdrop, hmod, if_true]
      cases hmerge : b.mergeIntoPrevious c.runtimeOffset c.target back with
      | some back' => exact ⟨_, rfl, stepSpec_merge hb ho hno he hmerge⟩
      | none =>
        by_cases hdup : c.target = b.lastTarget ∧ c.runtimeOffset = b.lastOffset
        · refine ⟨_, ?_, stepSpec_duplicate hb hno he hdup⟩
          simp [hdup]
        · refine ⟨_, ?_, stepSpec_push hb ho hno ?_⟩
          · simp [hdup]
          · intro front last hfront
            obtain ⟨-, hbk⟩ := List.append_inj' (he.symm.trans hfront) rfl
            obtain rfl := List.singleton_inj.mp hbk
            exact ⟨hmerge, hdup⟩

end Step

/-! ### Whole runs -/

lemma builderInv_init {ptrSize : Nat} (hp : ptrSize = 4 ∨ ptrSize = 8) :
    BuilderInv (BindPatternBuilder.init ptrSize) := by
  refine ⟨hp, by simp [BindPatternBuilder.init], ?_⟩
  intro earlier back h
  simp [BindPatternBuilder.init] at h

lemma bindings_calls_concat (cs : List AddCall) (c : AddCall) (o : Nat) :
    bindings ((cs ++ [c]).map (fun c => (c.runtimeOffset, c.target))) o =
      if c.runtimeOffset = o then some c.target
      else bindings (cs.map (fun c => (c.runtimeOffset, c.target))) o := by
  rw [List.map_append, bindings_append, List.map_singleton, bindings_singleton]
  split <;> simp

lemma addAll_append (b : BindPatternBuilder) (cs cs' : List AddCall) :
    addAll b (cs ++ cs') = (addAll b cs).bind (fun b' => addAll b' cs') := by
  induction cs generalizing b with
  | nil => rfl
  | cons c cs ih =>
    simp only [List.cons_append, addAll]
    cases b.add c.runtimeOffset c.target c.weakBindCoalese with
    | none => rfl
    | some b' => exact ih b'

/-- Every run of calls with 40-bit offsets passes its assertions. -/
lemma addAll_inv {b : BindPatternBuilder} {cs : List AddCall} (hb : BuilderInv b)
    (ho : ∀ c ∈ cs, c.runtimeOffset < 2 ^ 40) : ∃ b', addAll b cs = some b' ∧ BuilderInv b' := by
  induction cs generalizing b with
  | nil => exact ⟨b, rfl, hb⟩
  | cons c cs ih =>
    obtain ⟨b', hb', hstep⟩ := add_spec (c := c) hb (ho c (by simp))
    obtain ⟨b'', hb'', hinv⟩ := ih hstep.inv (fun d hd => ho d (List.mem_cons_of_mem c hd))
    exact ⟨b'', by rw [addAll, hb']; exact hb'', hinv⟩

/-- One more call keeps the property exactly when it takes neither branch that goes wrong. -/
lemma reflects_concat_iff {b b' : BindPatternBuilder} {cs : List AddCall} {c : AddCall}
    (hr : Reflects b cs) (hs : StepSpec b b' c) :
    Reflects b' (cs ++ [c]) ↔ ¬ShadowedRewrite b c ∧ ¬StaleMerge b c := by
  rw [← hs.bound]
  constructor
  · intro h
    rw [h c.runtimeOffset, bindings_calls_concat, if_pos rfl]
  · intro hbound o
    rw [bindings_calls_concat]
    by_cases ho : c.runtimeOffset = o
    · rw [if_pos ho, ← ho, hbound]
    · rw [if_neg ho, hs.other o (Ne.symm ho), hr o]

/-- The property holds in every state a run reaches. -/
def ReflectsThroughout (b : BindPatternBuilder) (cs : List AddCall) : Prop :=
  ∀ before after, cs = before ++ after → ∃ b', addAll b before = some b' ∧ Reflects b' before

/-- For every sequence of calls with offsets below 2^40: in every state reached, the
patterns bind exactly the offsets passed so far, each to the target of the last call made
for it, if and only if no call rewrites a shadowed pattern and no call is merged into (or
dropped as a duplicate of) a last pattern that was rewritten to another target. -/
theorem bindPatterns_reflect_iff (ptrSize : Nat) (hp : ptrSize = 4 ∨ ptrSize = 8)
    (cs : List AddCall) (ho : ∀ c ∈ cs, c.runtimeOffset < 2 ^ 40) :
    ReflectsThroughout (BindPatternBuilder.init ptrSize) cs ↔
      NoStaleStep (BindPatternBuilder.init ptrSize) cs := by
  have hinit := builderInv_init hp
  have hstate : ∀ before after, cs = before ++ after →
      ∃ b', addAll (BindPatternBuilder.init ptrSize) before = some b' ∧ BuilderInv b' := by
    intro before after hcs
    exact addAll_inv hinit (fun c hc => ho c (by rw [hcs]; exact List.mem_append_left _ hc))
  constructor
  · intro hall before c after b hcs hb
    have hcs' : cs = (before ++ [c]) ++ after := by simp [hcs]
    obtain ⟨b1, hb1, hr1⟩ := hall before (c :: after) hcs
    obtain ⟨b2, hb2, hr2⟩ := hall (before ++ [c]) after hcs'
    obtain ⟨b3, hb3, hinv⟩ := hstate before (c :: after) hcs
    rw [hb] at hb1 hb3
    obtain rfl := Option.some.inj hb1
    obtain rfl := Option.some.inj hb3
    obtain ⟨b4, hb4, hstep⟩ := add_spec (c := c) hinv (ho c (by simp [hcs]))
    have hnext : addAll (BindPatternBuilder.init ptrSize) (before ++ [c]) = some b4 := by
      rw [addAll_append, hb]
      simp [addAll, hb4]
    rw [hb2] at hnext
    obtain rfl := Option.some.inj hnext
    exact (reflects_concat_iff hr1 hstep).mp hr2
  · intro hno before
    induction before using List.reverseRecOn with
    | nil =>
      intro after _
      exact ⟨_, rfl, fun o => by simp [BindPatternBuilder.init, forEachBind]⟩
    | append_singleton before c ih =>
      intro after hcs
      have hcs' : cs = before ++ c :: after := by simp [hcs]
      obtain ⟨b, hb, hr⟩ := ih (c :: after) hcs'
      obtain ⟨b3, hb3, hinv⟩ := hstate before (c :: after) hcs'
      rw [hb] at hb3
      obtain rfl := Option.some.inj hb3
      obtain ⟨b', hb', hstep⟩ := add_spec (c := c) hinv (ho c (by simp [hcs']))
      refine ⟨b', ?_, (reflects_concat_iff hr hstep).mpr (hno before c after b hcs' hb)⟩
      rw [addAll_append, hb]
      simp [addAll, hb']

/-- The hypotheses hold of a run with a coalesced bind of a location bound before. -/
theorem bindPatterns_reflect_iff_coalesced :
    ReflectsThroughout (BindPatternBuilder.init 8) [⟨0x1000, 1, false⟩, ⟨0x1000, 2, true⟩] ↔
      NoStaleStep (BindPatternBuilder.init 8) [⟨0x1000, 1, false⟩, ⟨0x1000, 2, true⟩] :=
  bindPatterns_reflect_iff 8 (Or.inr rfl) _ (by decide)

/-- A location is bound to target 1, coalesced to target 2, and the next pointer is then
bound to target 1: the builder extends the rewritten pattern, and the second location is
bound to target 2 although the only call made for it has target 1. -/
theorem bindPatterns_stale_target :
    ∃ b, addAll (BindPatternBuilder.init 8)
        [⟨0x1000, 1, false⟩, ⟨0x1000, 2, true⟩, ⟨0x1008, 1, false⟩] = some b ∧
      ¬Reflects b [⟨0x1000, 1, false⟩, ⟨0x1000, 2, true⟩, ⟨0x1008, 1, false⟩] := by
  refine ⟨_, rfl, fun h => ?_⟩
  have hstale := h 0x1008
  revert hstale
  decide

end Dyld.Closure
