import Dyld.Closure.BindPattern

/-!
# Rebase patterns of a closure

`RebasePatternBuilder` packs the rebase locations of an image into patterns of repeated
groups of contiguous pointers, and the rebase loop of `Image::forEachFixup` enumerates them
again. The repeat count has 20 bits and the builder bumps it without looking, so the two
are inverse exactly when no group is repeated `2 ^ 20` times in a row.
-/

namespace Dyld.Closure

/-- `Image::RebasePattern`: bit fields of 20, 8 and 4 bits. -/
structure RebasePattern where
  repeatCount : Nat
  contigCount : Nat
  skipCount : Nat
  deriving DecidableEq, Repr

/-- The number of values of the `repeatCount` field. -/
def repeatLimit : Nat := 2 ^ 20

/-- A pattern as an aggregate initialiser stores it, each value cut to its field. -/
def RebasePattern.ofFields (repeatCount contigCount skipCount : Nat) : RebasePattern :=
  ⟨repeatCount % repeatLimit, contigCount % 2 ^ 8, skipCount % 2 ^ 4⟩

structure RebasePatternBuilder where
  rebaseEntries : List RebasePattern
  lastLocation : Nat
  ptrSize : Nat
  deriving DecidableEq, Repr

namespace RebasePatternBuilder

/-- `_s_maxLeapPattern`. -/
def maxLeapPattern : RebasePattern := ⟨0xFFFFF, 0, 0xF⟩

/-- `_s_maxLeapCount`. -/
def maxLeapCount : Nat := maxLeapPattern.repeatCount * maxLeapPattern.skipCount

/-- The constructor; `_lastLocation` starts at `-ptrSize`. -/
def init (ptrSize : Nat) : RebasePatternBuilder := ⟨[], sub64 0 ptrSize, ptrSize⟩

lemma maxLeapCount_eq : maxLeapCount = 15728625 := rfl

def leapNear (advanceCount : Nat) : List RebasePattern :=
  if advanceCount > maxLeapPattern.repeatCount then
    let count := advanceCount / maxLeapPattern.skipCount
    RebasePattern.ofFields (count % 2 ^ 32) 0 maxLeapPattern.skipCount ::
      leapNear (advanceCount - count * maxLeapPattern.skipCount)
  else if advanceCount ≠ 0 then [RebasePattern.ofFields (advanceCount % 2 ^ 32) 0 1]
  else []
termination_by advanceCount
decreasing_by
  simp only [maxLeapPattern] at *
  omega

def leap (advanceCount : Nat) : List RebasePattern :=
  if advanceCount > maxLeapCount then
    maxLeapPattern :: leap (advanceCount - maxLeapCount)
  else leapNear advanceCount
termination_by advanceCount
decreasing_by
  rw [maxLeapCount_eq] at *
  omega

/-- The entry that every branch but the contiguous one ends with. -/
def single : RebasePattern := ⟨1, 1, 0⟩

/-- The skip branch of `add`: the last entry gets its skip count, and is folded into the
entry before it when the two agree. -/
def closeGroup (entries : List RebasePattern) (back : RebasePattern) (skipCount : Nat) :
    List RebasePattern :=
  let back := { back with skipCount := skipCount % 2 ^ 8 % 2 ^ 4 }
  match entries.getLast? with
  | some prev =>
    if entries.length > 1 ∧ back.contigCount = prev.contigCount ∧ back.skipCount = prev.skipCount then
      entries.dropLast ++ [{ prev with repeatCount := (prev.repeatCount + 1) % repeatLimit }]
    else entries ++ [back]
  | none => entries ++ [back]

/-- The last branch of `add`: what is pushed to get to `runtimeOffset`. Going back needs a
reset to the start first. -/
def farEntries (lastLocation ptrSize runtimeOffset delta : Nat) : List RebasePattern :=
  if runtimeOffset < lastLocation ∧ lastLocation ≠ sub64 0 ptrSize then
    ⟨0, 0, 0⟩ :: leap runtimeOffset
  else leap (sub64 delta ptrSize)

/-- `RebasePatternBuilder::add`; `none` is the failed assertion of `back()` on an empty array. -/
def add (b : RebasePatternBuilder) (runtimeOffset : Nat) : Option RebasePatternBuilder :=
  let delta := sub64 runtimeOffset b.lastLocation
  let aligned := delta % b.ptrSize = 0
  let entries :=
    if delta = b.ptrSize then
      b.rebaseEntries.getLast?.map (fun back =>
        if back.contigCount < 255 then
          b.rebaseEntries.dropLast ++ [{ back with contigCount := (back.contigCount + 1) % 2 ^ 8 }]
        else b.rebaseEntries ++ [single])
    else if aligned ∧ delta ≤ b.ptrSize * 15 then
      b.rebaseEntries.getLast?.map (fun back =>
        closeGroup b.rebaseEntries.dropLast back (sub64 delta b.ptrSize / b.ptrSize) ++ [single])
    else
      some (b.rebaseEntries ++ farEntries b.lastLocation b.ptrSize runtimeOffset delta ++ [single])
  entries.map (fun entries => { b with rebaseEntries := entries, lastLocation := runtimeOffset })

/-- The calls of `add` in order. -/
def addAll (b : RebasePatternBuilder) : List Nat → Option RebasePatternBuilder
  | [] => some b
  | x :: xs => (b.add x).bind (fun b' => addAll b' xs)

end RebasePatternBuilder

/-- The rebase loop of `Image::forEachFixup` between two steps: `curRebaseOffset`, and the
locations the handler was called with so far. -/
structure RebaseCursor where
  curRebaseOffset : Nat
  reported : List Nat
  deriving DecidableEq, Repr

namespace RebaseCursor

def advance (n : Nat) (d : RebaseCursor) : RebaseCursor :=
  { d with curRebaseOffset := (d.curRebaseOffset + n) % 2 ^ 64 }

/-- The body of the inner loop: a call of the handler, which does not set `stop`. -/
def rebase (pointerSize : Nat) (d : RebaseCursor) : RebaseCursor :=
  advance pointerSize { d with reported := d.reported ++ [d.curRebaseOffset] }

/-- The body of the loop over the repeats of a pattern. -/
def group (pointerSize contigCount skipCount : Nat) (d : RebaseCursor) : RebaseCursor :=
  advance (pointerSize * skipCount) ((rebase pointerSize)^[contigCount] d)

def runPattern (pointerSize : Nat) (d : RebaseCursor) (p : RebasePattern) : RebaseCursor :=
  if p.contigCount = 0 then
    if p.repeatCount = 0 ∧ p.skipCount = 0 then { d with curRebaseOffset := 0 }
    else advance (p.repeatCount * p.skipCount) d
  else (group pointerSize p.contigCount p.skipCount)^[p.repeatCount] d

end RebaseCursor

/-- The rebase loop of `Image::forEachFixup` over all patterns. -/
def forEachRebase (pointerSize : Nat) (ps : List RebasePattern) : RebaseCursor :=
  ps.foldl (RebaseCursor.runPattern pointerSize) ⟨0, []⟩

/-! ### Groups of the input -/

/-- How a sequence of locations falls into groups: the last location, the size of the group
it is in, and the groups before it, latest first. A group is a stretch of contiguous
pointers, cut at 255, with the gap to the next one in pointers when a skip count can say it. -/
structure Grouping where
  last : Nat
  count : Nat
  closed : List (Nat × Option Nat)
  deriving DecidableEq, Repr

/-- `x` comes after `last` in the same group, or in one that a skip count reaches. -/
def WithinSkip (ptrSize last x : Nat) : Prop :=
  last < x ∧ (x - last) % ptrSize = 0 ∧ x - last ≤ ptrSize * 15

instance (ptrSize last x : Nat) : Decidable (WithinSkip ptrSize last x) := by
  unfold WithinSkip
  infer_instance

def Grouping.add (ptrSize : Nat) (g : Grouping) (x : Nat) : Grouping :=
  if x = g.last + ptrSize then
    if g.count < 255 then { g with last := x, count := g.count + 1 }
    else ⟨x, 1, (g.count, none) :: g.closed⟩
  else if WithinSkip ptrSize g.last x then
    ⟨x, 1, (g.count, some ((x - g.last) / ptrSize - 1)) :: g.closed⟩
  else ⟨x, 1, (g.count, none) :: g.closed⟩

def closedGroups (ptrSize : Nat) : List Nat → List (Nat × Option Nat)
  | [] => []
  | x :: xs => (xs.foldl (Grouping.add ptrSize) ⟨x, 1, []⟩).closed

/-- Somewhere in the list one group with the same gap after it comes `n` times in a row. -/
def RegularRun (n : Nat) (gs : List (Nat × Option Nat)) : Prop :=
  ∃ c k, List.replicate n (c, some k) <:+: gs

/-- How often the latest group came in a row. -/
def streak : List (Nat × Option Nat) → Nat
  | [] => 0
  | g :: gs => (gs.takeWhile (· = g)).length + 1

section Streak

variable {n : Nat} {g a : Nat × Option Nat} {gs : List (Nat × Option Nat)}

lemma takeWhile_eq_replicate (a : Nat × Option Nat) (gs : List (Nat × Option Nat)) :
    gs.takeWhile (· = a) = List.replicate (gs.takeWhile (· = a)).length a := by
  rw [List.eq_replicate_iff]
  exact ⟨rfl, fun b hb => by simpa using List.mem_takeWhile_imp hb⟩

lemma replicate_prefix_cons_iff (hn : 0 < n) :
    List.replicate n a <+: g :: gs ↔ a = g ∧ n ≤ streak (g :: gs) := by
  obtain ⟨m, rfl⟩ : ∃ m, n = m + 1 := ⟨n - 1, by omega⟩
  rw [List.replicate_succ, List.cons_prefix_cons, streak]
  refine and_congr_right (fun hag => ?_)
  subst hag
  rw [Nat.add_le_add_iff_right]
  constructor
  · rintro ⟨t, rfl⟩
    rw [List.takeWhile_append_of_pos (by simp)]
    simp
  · intro hm
    refine (List.prefix_iff_eq_take.mpr ?_).trans (List.takeWhile_prefix (· = a))
    rw [takeWhile_eq_replicate, List.take_replicate]
    simp [hm]

lemma regularRun_nil (hn : 0 < n) : ¬ RegularRun n [] := by
  rintro ⟨c, k, h⟩
  have h0 := List.infix_nil.mp h
  rw [List.replicate_eq_nil_iff] at h0
  omega

lemma regularRun_cons_none (hn : 0 < n) (c : Nat) :
    RegularRun n ((c, none) :: gs) ↔ RegularRun n gs := by
  unfold RegularRun
  simp only [List.infix_cons_iff, replicate_prefix_cons_iff hn]
  simp

lemma regularRun_cons_some (hn : 0 < n) (c k : Nat) :
    RegularRun n ((c, some k) :: gs) ↔ n ≤ streak ((c, some k) :: gs) ∨ RegularRun n gs := by
  unfold RegularRun
  simp only [List.infix_cons_iff, replicate_prefix_cons_iff hn]
  constructor
  · rintro ⟨c', k', ⟨_, h⟩ | h⟩
    · exact Or.inl h
    · exact Or.inr ⟨c', k', h⟩
  · rintro (h | ⟨c', k', h⟩)
    · exact ⟨c, k, Or.inl ⟨rfl, h⟩⟩
    · exact ⟨c', k', Or.inr h⟩

lemma streak_cons_same : streak (g :: g :: gs) = streak (g :: gs) + 1 := by
  simp [streak]

lemma streak_cons_of_head_ne (h : gs.head? ≠ some g) : streak (g :: gs) = 1 := by
  cases gs with
  | nil => rfl
  | cons a gs =>
    have hne : a ≠ g := by simpa using h
    simp [streak, hne]

end Streak

/-! ### What the loop reports -/

open RebasePatternBuilder RebaseCursor

lemma repeatLimit_eq : repeatLimit = 1048576 := rfl

lemma repeatLimit_pos : 0 < repeatLimit := by
  rw [repeatLimit_eq]
  omega

/-- The number of locations a pattern reports. -/
def RebasePattern.weight (p : RebasePattern) : Nat := p.repeatCount * p.contigCount

def totalWeight (ps : List RebasePattern) : Nat := (ps.map RebasePattern.weight).sum

lemma totalWeight_append (ps qs : List RebasePattern) :
    totalWeight (ps ++ qs) = totalWeight ps + totalWeight qs := by
  simp [totalWeight]

lemma totalWeight_singleton (p : RebasePattern) :
    totalWeight [p] = p.repeatCount * p.contigCount := by
  simp [totalWeight, RebasePattern.weight]

section Reported

variable {ptr : Nat}

lemma reported_advance (n : Nat) (d : RebaseCursor) : (advance n d).reported = d.reported := rfl

lemma length_reported_iterate_rebase (n : Nat) (d : RebaseCursor) :
    ((rebase ptr)^[n] d).reported.length = d.reported.length + n := by
  induction n with
  | zero => rfl
  | succ n ih =>
    rw [Function.iterate_succ_apply', rebase, reported_advance, List.length_append, ih]
    rfl

lemma length_reported_iterate_group (c k r : Nat) (d : RebaseCursor) :
    ((group ptr c k)^[r] d).reported.length = d.reported.length + r * c := by
  induction r with
  | zero => simp
  | succ r ih =>
    rw [Function.iterate_succ_apply', group, reported_advance, length_reported_iterate_rebase, ih]
    ring

lemma length_reported_runPattern (d : RebaseCursor) (p : RebasePattern) :
    (runPattern ptr d p).reported.length = d.reported.length + p.weight := by
  unfold runPattern RebasePattern.weight
  split_ifs with hc h0
  · simp [hc]
  · simp [hc, reported_advance]
  · exact length_reported_iterate_group _ _ _ _

lemma length_reported_foldl (ps : List RebasePattern) (d : RebaseCursor) :
    (ps.foldl (runPattern ptr) d).reported.length =
      d.reported.length + totalWeight ps := by
  induction ps generalizing d with
  | nil => rfl
  | cons p ps ih =>
    rw [List.foldl_cons, ih, length_reported_runPattern, totalWeight, totalWeight, List.map_cons,
      List.sum_cons]
    omega

lemma length_forEachRebase (ptr : Nat) (ps : List RebasePattern) :
    (forEachRebase ptr ps).reported.length = totalWeight ps := by
  rw [forEachRebase, length_reported_foldl]
  simp

lemma forEachRebase_append (ps qs : List RebasePattern) :
    forEachRebase ptr (ps ++ qs) = qs.foldl (runPattern ptr) (forEachRebase ptr ps) :=
  List.foldl_append

lemma runPattern_succ (d : RebaseCursor) {c : Nat} (hc : 1 ≤ c) (r k : Nat) :
    runPattern ptr d ⟨r + 1, c, k⟩ = runPattern ptr (runPattern ptr d ⟨r, c, k⟩) ⟨1, c, k⟩ := by
  have hc0 : c ≠ 0 := by omega
  simp only [runPattern, hc0, if_false, Function.iterate_one]
  rw [Function.iterate_succ_apply']

lemma runPattern_contig_succ (d : RebaseCursor) {c : Nat} (hc : 1 ≤ c) {x : Nat}
    (hx : (runPattern ptr d ⟨1, c, 0⟩).curRebaseOffset = x) (hlt : x + ptr < 2 ^ 64) :
    runPattern ptr d ⟨1, c + 1, 0⟩ = ⟨x + ptr, (runPattern ptr d ⟨1, c, 0⟩).reported ++ [x]⟩ := by
  obtain ⟨c, rfl⟩ : ∃ m, c = m + 1 := ⟨c - 1, by omega⟩
  -- the position after at least one report is below `2 ^ 64`
  simp only [runPattern, Nat.add_one_ne_zero, if_false, Function.iterate_succ_apply',
    Function.iterate_zero_apply, group, advance, rebase, Nat.mul_zero, Nat.add_zero, Nat.mod_mod]
    at hx ⊢
  rw [hx, Nat.mod_eq_of_lt hlt]

lemma runPattern_skip (d : RebaseCursor) {c : Nat} (hc : 1 ≤ c) {k x : Nat}
    (hx : (runPattern ptr d ⟨1, c, 0⟩).curRebaseOffset = x) (hlt : x + ptr * k < 2 ^ 64) :
    runPattern ptr d ⟨1, c, k⟩ = ⟨x + ptr * k, (runPattern ptr d ⟨1, c, 0⟩).reported⟩ := by
  have hc0 : c ≠ 0 := by omega
  simp only [runPattern, hc0, if_false, Function.iterate_one, group, advance, Nat.mul_zero,
    Nat.add_zero] at hx ⊢
  rw [← Nat.mod_add_mod, hx, Nat.mod_eq_of_lt hlt]

lemma runPattern_single (d : RebaseCursor) (hlt : d.curRebaseOffset + ptr < 2 ^ 64) :
    runPattern ptr d single = ⟨d.curRebaseOffset + ptr, d.reported ++ [d.curRebaseOffset]⟩ := by
  simp only [runPattern, single, group, advance, rebase, Function.iterate_one, Nat.mul_zero,
    Nat.add_zero, one_ne_zero, if_false, Nat.mod_mod]
  rw [Nat.mod_eq_of_lt hlt]

lemma runPattern_leap (d : RebaseCursor) {r k : Nat} (hr : 1 ≤ r)
    (hlt : d.curRebaseOffset + r * k < 2 ^ 64) :
    runPattern ptr d ⟨r, 0, k⟩ = ⟨d.curRebaseOffset + r * k, d.reported⟩ := by
  have hr0 : ¬ (r = 0 ∧ k = 0) := by omega
  simp only [runPattern, hr0, if_false, if_true, advance]
  rw [Nat.mod_eq_of_lt hlt]

end Reported

/-! ### Leaps -/

section Leap

variable {ptr : Nat}

lemma leapNear_of_le {n : Nat} (h : n ≤ 0xFFFFF) :
    leapNear n = if n ≠ 0 then [⟨n, 0, 1⟩] else [] := by
  unfold leapNear
  have h0 : ¬ n > maxLeapPattern.repeatCount := by
    simp only [maxLeapPattern]
    omega
  have h1 : n % 4294967296 % repeatLimit = n := by
    rw [repeatLimit_eq]
    omega
  simp only [h0, if_false, RebasePattern.ofFields, Nat.zero_mod, Nat.reducePow, Nat.reduceMod, h1]

lemma leapNear_of_gt {n : Nat} (h : 0xFFFFF < n) (hle : n ≤ maxLeapCount) :
    leapNear n = ⟨n / 15, 0, 15⟩ :: leapNear (n % 15) := by
  rw [leapNear, if_pos (by simpa [maxLeapPattern] using h)]
  rw [maxLeapCount_eq] at hle
  have h1 : n / 15 % 2 ^ 32 % repeatLimit = n / 15 := by
    rw [repeatLimit_eq]
    omega
  have h2 : n - n / 15 * 15 = n % 15 := by omega
  simp only [maxLeapPattern, RebasePattern.ofFields, h1, h2]
  rfl

lemma foldl_leapNear_of_le (d : RebaseCursor) {n : Nat} (h : n ≤ 0xFFFFF)
    (hlt : d.curRebaseOffset + n < 2 ^ 64) :
    (leapNear n).foldl (runPattern ptr) d = ⟨d.curRebaseOffset + n, d.reported⟩ := by
  rw [leapNear_of_le h]
  split_ifs with h0
  · rw [List.foldl_cons, List.foldl_nil, runPattern_leap d (by omega) (by omega), Nat.mul_one]
  · obtain rfl : n = 0 := by omega
    rfl

lemma foldl_leapNear (d : RebaseCursor) {n : Nat} (hle : n ≤ maxLeapCount)
    (hlt : d.curRebaseOffset + n < 2 ^ 64) :
    (leapNear n).foldl (runPattern ptr) d = ⟨d.curRebaseOffset + n, d.reported⟩ := by
  by_cases h : n ≤ 0xFFFFF
  · exact foldl_leapNear_of_le d h hlt
  · have hdiv : n / 15 * 15 + n % 15 = n := by omega
    rw [leapNear_of_gt (by omega) hle, List.foldl_cons, runPattern_leap d (by omega) (by omega),
      foldl_leapNear_of_le _ (by omega) (by simp only; omega)]
    simp only [Nat.add_assoc, hdiv]

lemma foldl_leap (d : RebaseCursor) (n : Nat) (hlt : d.curRebaseOffset + n < 2 ^ 64) :
    (leap n).foldl (runPattern ptr) d = ⟨d.curRebaseOffset + n, d.reported⟩ := by
  induction n using leap.induct generalizing d with
  | case1 n hn ih =>
    have hmax : maxLeapPattern = ⟨0xFFFFF, 0, 0xF⟩ := rfl
    rw [leap, if_pos hn, List.foldl_cons, hmax]
    rw [maxLeapCount_eq] at hn ih ⊢
    rw [runPattern_leap d (by omega) (by omega), ih _ (by simp only; omega)]
    simp only [RebaseCursor.mk.injEq, and_true]
    omega
  | case2 n hn =>
    rw [leap, if_neg hn]
    exact foldl_leapNear d (by omega) hlt

lemma contigCount_of_mem_leapNear {n : Nat} {p : RebasePattern} (hp : p ∈ leapNear n) :
    p.contigCount = 0 := by
  induction n using leapNear.induct with
  | case1 n hn count ih =>
    rw [leapNear, if_pos hn] at hp
    rcases List.mem_cons.mp hp with rfl | hp
    · rfl
    · exact ih hp
  | case2 n hn h0 =>
    rw [leapNear, if_neg hn, if_pos h0, List.mem_singleton] at hp
    rw [hp]
    rfl
  | case3 n hn h0 =>
    rw [leapNear, if_neg hn, if_neg h0] at hp
    simp at hp

lemma contigCount_of_mem_leap {n : Nat} {p : RebasePattern} (hp : p ∈ leap n) :
    p.contigCount = 0 := by
  induction n using leap.induct with
  | case1 n hn ih =>
    rw [leap, if_pos hn] at hp
    rcases List.mem_cons.mp hp with rfl | hp
    · rfl
    · exact ih hp
  | case2 n hn =>
    rw [leap, if_neg hn] at hp
    exact contigCount_of_mem_leapNear hp

lemma leap_ne_nil {n : Nat} (hn : n ≠ 0) : leap n ≠ [] := by
  rw [leap]
  split_ifs
  · exact List.cons_ne_nil _ _
  · rw [leapNear]
    split_ifs <;> simp

end Leap

/-! ### One call of `add` -/

section Step

variable {ptr last c x : Nat} {pre : List RebasePattern}

/-- The builder between two calls, once the first one was made: an open group of `c`
contiguous pointers after the entries `pre`. -/
def openGroup (ptr last c : Nat) (pre : List RebasePattern) : RebasePatternBuilder :=
  ⟨pre ++ [⟨1, c, 0⟩], last, ptr⟩

/-- Two locations that do not overlap. -/
def AtLeastApart (ptr a b : Nat) : Prop := a + ptr ≤ b ∨ b + ptr ≤ a

lemma sub64_of_le {a b : Nat} (hab : b ≤ a) (ha : a < 2 ^ 64) : sub64 a b = a - b := by
  unfold sub64
  omega

lemma sub64_of_lt {a b : Nat} (hab : a < b) (hb : b < 2 ^ 64) : sub64 a b = 2 ^ 64 + a - b := by
  unfold sub64
  omega

lemma add_contig (hx : x < 2 ^ 40) (h : x = last + ptr) (hc : c ≤ 255) :
    (openGroup ptr last c pre).add x =
      some (if c < 255 then openGroup ptr x (c + 1) pre
        else openGroup ptr x 1 (pre ++ [⟨1, c, 0⟩])) := by
  have hd : sub64 x last = ptr := by
    rw [sub64_of_le (by omega) (by omega)]
    omega
  unfold add
  simp only [openGroup, hd, if_true, List.getLast?_concat, List.dropLast_concat, Option.map_some]
  split_ifs with h255
  · rw [Nat.mod_eq_of_lt (by omega)]
  · simp [single]

lemma add_withinSkip (hptr : ptr = 4 ∨ ptr = 8) (hx : x < 2 ^ 40) (hne : x ≠ last + ptr)
    (h : WithinSkip ptr last x) :
    (openGroup ptr last c pre).add x =
      some (openGroup ptr x 1 (closeGroup pre ⟨1, c, 0⟩ ((x - last) / ptr - 1))) := by
  obtain ⟨hlt, hal, hle⟩ := h
  have hd : sub64 x last = x - last := sub64_of_le (by omega) (by omega)
  have hdp : sub64 (x - last) ptr = x - last - ptr := by
    have hge : ptr ≤ x - last := Nat.le_of_dvd (by omega) (Nat.dvd_of_mod_eq_zero hal)
    exact sub64_of_le hge (by omega)
  have hk : (x - last - ptr) / ptr = (x - last) / ptr - 1 := by
    rcases hptr with rfl | rfl <;> omega
  have hne' : x - last ≠ ptr := by omega
  unfold add
  simp only [openGroup, hd, hal, hle, hne', hdp, hk, if_false, and_self, if_true,
    List.getLast?_concat, List.dropLast_concat, Option.map_some, single]

lemma add_far (h : sub64 x last ≠ ptr)
    (hskip : ¬ (sub64 x last % ptr = 0 ∧ sub64 x last ≤ ptr * 15)) :
    (openGroup ptr last c pre).add x =
      some (openGroup ptr x 1
        (pre ++ [⟨1, c, 0⟩] ++ farEntries last ptr x (sub64 x last))) := by
  unfold add
  simp only [openGroup, h, hskip, if_false, Option.map_some, single]

lemma add_leap (hx : x < 2 ^ 40) (hne : x ≠ last + ptr)
    (h : ¬ WithinSkip ptr last x) (hlt : last + ptr ≤ x) :
    (openGroup ptr last c pre).add x =
      some (openGroup ptr x 1 (pre ++ [⟨1, c, 0⟩] ++ leap (x - last - ptr))) := by
  have hd : sub64 x last = x - last := sub64_of_le (by omega) (by omega)
  have hdp : sub64 (x - last) ptr = x - last - ptr := sub64_of_le (by omega) (by omega)
  rw [add_far (by omega) (fun hs => h ⟨by omega, by rwa [hd] at hs⟩), farEntries,
    if_neg (by omega), hd, hdp]

lemma add_reset (hptr : ptr = 4 ∨ ptr = 8) (hlast : last < 2 ^ 40) (hlt : x < last) :
    (openGroup ptr last c pre).add x =
      some (openGroup ptr x 1 (pre ++ [⟨1, c, 0⟩] ++ ⟨0, 0, 0⟩ :: leap x)) := by
  have hd := sub64_of_lt hlt (by omega : last < 2 ^ 64)
  have hstart := sub64_of_lt (by omega : 0 < ptr) (by omega : ptr < 2 ^ 64)
  have hback : x < last ∧ last ≠ sub64 0 ptr := by omega
  rw [add_far (by omega) (by omega), farEntries, if_pos hback]

end Step

/-! ### The invariant of the builder -/

section Track

variable {ptr : Nat} {done : List Nat} {g : Grouping} {pre : List RebasePattern}

/-- The last closed entry counts how often the latest group came; entries that no later
group can be folded into have no contiguous pointers or no skip count. -/
def LastClosed (pre : List RebasePattern) : List (Nat × Option Nat) → Prop
  | (c, some k) :: gs => pre.getLast? = some ⟨streak ((c, some k) :: gs), c, k⟩ ∧ 1 ≤ c
  | _ => ∃ p, pre.getLast? = some p ∧ (p.contigCount = 0 ∨ p.skipCount = 0)

/-- The entries `pre`, and an open group after them, stand for the locations `done`, up to
the first time a repeat count overflows. From then on too few locations are reported. -/
structure Tracks (ptr : Nat) (done : List Nat) (g : Grouping) (pre : List RebasePattern) : Prop where
  count_pos : 1 ≤ g.count
  count_le : g.count ≤ 255
  last_lt : g.last < 2 ^ 40
  leap_first : ∃ l pre', pre = l :: pre' ∧ l.contigCount = 0
  weight_le : totalWeight pre + g.count ≤ done.length
  lost : RegularRun repeatLimit g.closed →
    totalWeight pre + g.count < done.length
  reported : ¬ RegularRun repeatLimit g.closed →
    forEachRebase ptr (pre ++ [⟨1, g.count, 0⟩]) = ⟨g.last + ptr, done⟩
  lastClosed : ¬ RegularRun repeatLimit g.closed → LastClosed pre g.closed

lemma forEachRebase_openGroup (c : Nat) :
    forEachRebase ptr (pre ++ [⟨1, c, 0⟩]) = runPattern ptr (forEachRebase ptr pre) ⟨1, c, 0⟩ := by
  rw [forEachRebase_append, List.foldl_cons, List.foldl_nil]

/-- The open group takes in one more contiguous pointer. -/
lemma Tracks.contig (h : Tracks ptr done g pre) {x : Nat} (hptr : ptr ≤ 8) (hx : x < 2 ^ 40)
    (hxl : x = g.last + ptr) (hc : g.count < 255) :
    Tracks ptr (done ++ [x]) ⟨x, g.count + 1, g.closed⟩ pre := by
  refine ⟨by simp, by simp only; omega, hx, h.leap_first, ?_, ?_, ?_, h.lastClosed⟩
  · have := h.weight_le
    simp only [List.length_append, List.length_singleton]
    omega
  · intro hbad
    have := h.lost hbad
    simp only [List.length_append, List.length_singleton]
    omega
  · intro hok
    have hd := h.reported hok
    rw [forEachRebase_openGroup] at hd ⊢
    rw [runPattern_contig_succ _ h.count_pos (x := x) (by rw [hd, hxl]) (by omega), hd]

lemma forEachRebase_single {x : Nat} (hptr : ptr ≤ 8) (hx : x < 2 ^ 40)
    (hd : forEachRebase ptr pre = ⟨x, done⟩) :
    forEachRebase ptr (pre ++ [⟨1, 1, 0⟩]) = ⟨x + ptr, done ++ [x]⟩ := by
  have hs : (⟨1, 1, 0⟩ : RebasePattern) = single := rfl
  rw [forEachRebase_openGroup, hd, hs, runPattern_single _ (by simp only; omega)]

lemma totalWeight_of_contigCount_eq_zero {ps : List RebasePattern}
    (h : ∀ p ∈ ps, p.contigCount = 0) : totalWeight ps = 0 := by
  rw [totalWeight, List.sum_eq_zero_iff_forall_eq_nat]
  intro w hw
  obtain ⟨p, hp, rfl⟩ := List.mem_map.mp hw
  rw [RebasePattern.weight, h p hp, Nat.mul_zero]

/-- The open group is closed for good, and entries that report nothing lead to `x`. -/
lemma Tracks.close (h : Tracks ptr done g pre) {x : Nat} (hptr : ptr ≤ 8) (hx : x < 2 ^ 40)
    {ps : List RebasePattern} (hps : ∀ p ∈ ps, p.contigCount = 0)
    (hfold : ps.foldl (runPattern ptr) ⟨g.last + ptr, done⟩ = ⟨x, done⟩) :
    Tracks ptr (done ++ [x]) ⟨x, 1, (g.count, none) :: g.closed⟩ (pre ++ [⟨1, g.count, 0⟩] ++ ps) := by
  have hw : totalWeight (pre ++ [⟨1, g.count, 0⟩] ++ ps) =
      totalWeight pre + g.count := by
    rw [totalWeight_append, totalWeight_append, totalWeight_singleton,
      totalWeight_of_contigCount_eq_zero hps]
    simp
  have hfirst : ∃ l pre', pre ++ [⟨1, g.count, 0⟩] ++ ps = l :: pre' ∧ l.contigCount = 0 := by
    obtain ⟨l, pre', rfl, hl⟩ := h.leap_first
    exact ⟨l, pre' ++ [⟨1, g.count, 0⟩] ++ ps, by simp, hl⟩
  refine ⟨by simp, by simp, hx, hfirst, ?_, ?_, ?_, ?_⟩
  · have := h.weight_le
    rw [hw, List.length_append, List.length_singleton]
    simp only
    omega
  · rw [regularRun_cons_none repeatLimit_pos]
    intro hbad
    have := h.lost hbad
    rw [hw, List.length_append, List.length_singleton]
    simp only
    omega
  · rw [regularRun_cons_none repeatLimit_pos]
    intro hok
    refine forEachRebase_single hptr hx ?_
    rw [forEachRebase_append, h.reported hok, hfold]
  · intro _
    rcases List.eq_nil_or_concat ps with rfl | ⟨qs, q, rfl⟩
    · exact ⟨⟨1, g.count, 0⟩, by simp, Or.inr rfl⟩
    · refine ⟨q, ?_, Or.inl (hps q (by simp))⟩
      rw [List.concat_eq_append, ← List.append_assoc, List.getLast?_concat]

/-- A group that equals the latest one is folded into the last closed entry. -/
def FoldsInto (init : List RebasePattern) (r c k : Nat) (pre : List RebasePattern) : Prop :=
  init ≠ [] ∧ pre = init ++ [⟨r, c, k⟩]

lemma closeGroup_of_foldsInto {init : List RebasePattern} {r c k : Nat} (hk : k ≤ 14)
    (h : FoldsInto init r c k pre) :
    closeGroup pre ⟨1, c, 0⟩ k = init ++ [⟨(r + 1) % repeatLimit, c, k⟩] := by
  obtain ⟨hinit, rfl⟩ := h
  have hk' : k % 2 ^ 8 % 2 ^ 4 = k := by omega
  have hlen : (init ++ [(⟨r, c, k⟩ : RebasePattern)]).length > 1 := by
    have := List.length_pos_of_ne_nil hinit
    rw [List.length_append, List.length_singleton]
    omega
  unfold closeGroup
  simp only [List.getLast?_concat, hk', hlen, and_self, if_true, List.dropLast_concat]

lemma closeGroup_of_not_foldsInto {c k : Nat} (hk : k ≤ 14)
    (h : ∀ init r, ¬ FoldsInto init r c k pre) :
    closeGroup pre ⟨1, c, 0⟩ k = pre ++ [⟨1, c, k⟩] := by
  have hk' : k % 2 ^ 8 % 2 ^ 4 = k := by omega
  unfold closeGroup
  simp only [hk']
  rcases List.eq_nil_or_concat pre with rfl | ⟨init, ⟨r, c', k'⟩, rfl⟩
  · rfl
  · rw [List.concat_eq_append] at h ⊢
    simp only [List.getLast?_concat]
    rw [if_neg]
    rintro ⟨hlen, rfl, rfl⟩
    refine h init r ⟨?_, rfl⟩
    rintro rfl
    simp at hlen

/-- While nothing overflowed, the entry a group is folded into is that of the latest group. -/
lemma Tracks.closed_of_foldsInto (h : Tracks ptr done g pre) {init : List RebasePattern}
    {r c k : Nat} (hc : 1 ≤ c) (hk : 1 ≤ k) (hf : FoldsInto init r c k pre)
    (hok : ¬ RegularRun repeatLimit g.closed) :
    ∃ gs, g.closed = (c, some k) :: gs ∧ streak g.closed = r := by
  have hl := h.lastClosed hok
  obtain ⟨hinit, rfl⟩ := hf
  match hcl : g.closed with
  | [] =>
    rw [hcl] at hl
    obtain ⟨p, hp, h0⟩ := hl
    rw [List.getLast?_concat, Option.some.injEq] at hp
    subst hp
    simp only at h0
    omega
  | (c', none) :: gs =>
    rw [hcl] at hl
    obtain ⟨p, hp, h0⟩ := hl
    rw [List.getLast?_concat, Option.some.injEq] at hp
    subst hp
    simp only at h0
    omega
  | (c', some k') :: gs =>
    rw [hcl] at hl
    have hp := hl.1
    rw [List.getLast?_concat, Option.some.injEq, RebasePattern.mk.injEq] at hp
    obtain ⟨hr, rfl, rfl⟩ := hp
    exact ⟨gs, rfl, hr.symm⟩

/-- While nothing overflowed, a group that is folded into no entry differs from the latest. -/
lemma Tracks.head_closed_ne (h : Tracks ptr done g pre) {c k : Nat}
    (hf : ∀ init r, ¬ FoldsInto init r c k pre) (hok : ¬ RegularRun repeatLimit g.closed) :
    g.closed.head? ≠ some (c, some k) := by
  intro hhead
  obtain ⟨gs, hcl⟩ : ∃ gs, g.closed = (c, some k) :: gs := by
    rw [List.head?_eq_some_iff] at hhead
    exact hhead
  have hl := h.lastClosed hok
  rw [hcl] at hl
  obtain ⟨hlast, hc⟩ := hl
  obtain ⟨init, rfl⟩ := List.getLast?_eq_some_iff.mp hlast
  refine hf init _ ⟨?_, rfl⟩
  rintro rfl
  -- the only entry would be the leap to the first location
  obtain ⟨l, pre', hpre, hl0⟩ := h.leap_first
  rw [List.nil_append, List.cons.injEq] at hpre
  rw [← hpre.1] at hl0
  simp only at hl0
  omega

lemma Tracks.reported_skip (h : Tracks ptr done g pre) {k x : Nat} (hx : x < 2 ^ 40)
    (hxk : x = g.last + ptr + ptr * k) (hok : ¬ RegularRun repeatLimit g.closed) :
    runPattern ptr (forEachRebase ptr pre) ⟨1, g.count, k⟩ = ⟨x, done⟩ := by
  have hd := h.reported hok
  rw [forEachRebase_openGroup] at hd
  rw [runPattern_skip _ h.count_pos (x := g.last + ptr) (by rw [hd]) (by omega), hd, hxk]

lemma Tracks.skip (h : Tracks ptr done g pre) {k x : Nat} (hptr : ptr ≤ 8) (hx : x < 2 ^ 40)
    (hxk : x = g.last + ptr + ptr * k) (hf : ∀ init r, ¬ FoldsInto init r g.count k pre) :
    Tracks ptr (done ++ [x]) ⟨x, 1, (g.count, some k) :: g.closed⟩ (pre ++ [⟨1, g.count, k⟩]) := by
  have hw : totalWeight (pre ++ [⟨1, g.count, k⟩]) =
      totalWeight pre + g.count := by
    rw [totalWeight_append, totalWeight_singleton, Nat.one_mul]
  have hfirst : ∃ l pre', pre ++ [⟨1, g.count, k⟩] = l :: pre' ∧ l.contigCount = 0 := by
    obtain ⟨l, pre', rfl, hl⟩ := h.leap_first
    exact ⟨l, pre' ++ [⟨1, g.count, k⟩], by simp, hl⟩
  have hstreak : ¬ RegularRun repeatLimit g.closed → streak ((g.count, some k) :: g.closed) = 1 :=
    fun hok => streak_cons_of_head_ne (h.head_closed_ne hf hok)
  refine ⟨by simp, by simp, hx, hfirst, ?_, ?_, ?_, ?_⟩
  · have := h.weight_le
    rw [hw, List.length_append, List.length_singleton]
    simp only
    omega
  · rw [regularRun_cons_some repeatLimit_pos]
    intro hbad
    have := h.lost (by
      by_contra hok
      rw [hstreak hok, repeatLimit_eq] at hbad
      rcases hbad with hbad | hbad
      · omega
      · exact hok hbad)
    rw [hw, List.length_append, List.length_singleton]
    simp only
    omega
  · rw [regularRun_cons_some repeatLimit_pos, not_or]
    intro hok
    refine forEachRebase_single hptr hx ?_
    rw [forEachRebase_append, List.foldl_cons, List.foldl_nil, h.reported_skip hx hxk hok.2]
  · rw [regularRun_cons_some repeatLimit_pos, not_or]
    intro hok
    refine ⟨?_, h.count_pos⟩
    rw [List.getLast?_concat, hstreak hok.2]

/-- The open group is folded into the last closed entry. Its repeat count wraps around
exactly when the group came `2 ^ 20` times in a row. -/
lemma Tracks.fold (h : Tracks ptr done g pre) {init : List RebasePattern} {r k x : Nat}
    (hptr : ptr ≤ 8) (hx : x < 2 ^ 40) (hk : 1 ≤ k) (hxk : x = g.last + ptr + ptr * k)
    (hf : FoldsInto init r g.count k pre) :
    Tracks ptr (done ++ [x]) ⟨x, 1, (g.count, some k) :: g.closed⟩
      (init ++ [⟨(r + 1) % repeatLimit, g.count, k⟩]) := by
  have hclosed := h.closed_of_foldsInto h.count_pos hk hf
  have hstreak : ¬ RegularRun repeatLimit g.closed →
      streak ((g.count, some k) :: g.closed) = r + 1 ∧ r < repeatLimit := by
    intro hok
    obtain ⟨gs, hcl, hr⟩ := hclosed hok
    rw [hcl, regularRun_cons_some repeatLimit_pos, ← hcl, hr] at hok
    rw [← hr, hcl, streak_cons_same, ← hcl, hr]
    exact ⟨rfl, by omega⟩
  have hwpre : totalWeight pre =
      totalWeight init + r * g.count := by
    rw [hf.2, totalWeight_append, totalWeight_singleton]
  have hw : totalWeight (init ++ [⟨(r + 1) % repeatLimit, g.count, k⟩]) =
      totalWeight init + (r + 1) % repeatLimit * g.count := by
    rw [totalWeight_append, totalWeight_singleton]
  have hwle : (r + 1) % repeatLimit * g.count ≤ r * g.count + g.count := by
    calc (r + 1) % repeatLimit * g.count ≤ (r + 1) * g.count :=
          Nat.mul_le_mul_right _ (Nat.mod_le _ _)
      _ = r * g.count + g.count := Nat.succ_mul _ _
  have hcount := h.count_pos
  refine ⟨by simp, by simp, hx, ?_, ?_, ?_, ?_, ?_⟩
  · obtain ⟨hinit, hpre⟩ := hf
    obtain ⟨l, pre', hl, hl0⟩ := h.leap_first
    obtain ⟨a, init', rfl⟩ := List.exists_cons_of_ne_nil hinit
    rw [hpre, List.cons_append, List.cons.injEq] at hl
    exact ⟨a, _, rfl, by rw [hl.1, hl0]⟩
  · have := h.weight_le
    rw [hw, List.length_append, List.length_singleton]
    simp only
    omega
  · rw [regularRun_cons_some repeatLimit_pos, hw, List.length_append, List.length_singleton]
    intro hbad
    simp only
    by_cases hbad' : RegularRun repeatLimit g.closed
    · have := h.lost hbad'
      omega
    · -- this call makes the repeat count wrap around to zero
      obtain ⟨hst, hr⟩ := hstreak hbad'
      have hwrap : r + 1 = repeatLimit := by
        rcases hbad with hbad | hbad
        · omega
        · exact absurd hbad hbad'
      have := h.weight_le
      rw [hwrap, Nat.mod_self, Nat.zero_mul]
      omega
  · rw [regularRun_cons_some repeatLimit_pos, not_or]
    rintro ⟨hlt, hok⟩
    rw [(hstreak hok).1] at hlt
    refine forEachRebase_single hptr hx ?_
    rw [Nat.mod_eq_of_lt (by omega), forEachRebase_append, List.foldl_cons, List.foldl_nil,
      runPattern_succ _ hcount, ← h.reported_skip hx hxk hok, hf.2, forEachRebase_append,
      List.foldl_cons, List.foldl_nil]
  · rw [regularRun_cons_some repeatLimit_pos, not_or]
    rintro ⟨hlt, hok⟩
    refine ⟨?_, hcount⟩
    rw [(hstreak hok).1] at hlt ⊢
    rw [List.getLast?_concat, Nat.mod_eq_of_lt (by omega)]

end Track

/-! ### Whole runs -/

section Run

variable {ptr : Nat} {done : List Nat} {g : Grouping} {pre : List RebasePattern}

lemma Tracks.add (hptr : ptr = 4 ∨ ptr = 8) (h : Tracks ptr done g pre) {x : Nat}
    (hx : x < 2 ^ 40) (hap : AtLeastApart ptr g.last x) :
    ∃ pre', (openGroup ptr g.last g.count pre).add x =
        some (openGroup ptr (g.add ptr x).last (g.add ptr x).count pre') ∧
      Tracks ptr (done ++ [x]) (g.add ptr x) pre' := by
  have hptr8 : ptr ≤ 8 := by omega
  unfold Grouping.add
  by_cases hcontig : x = g.last + ptr
  · rw [add_contig hx hcontig h.count_le, if_pos hcontig]
    split_ifs with hc
    · exact ⟨pre, rfl, h.contig hptr8 hx hcontig hc⟩
    · refine ⟨pre ++ [⟨1, g.count, 0⟩], rfl, ?_⟩
      have := h.close hptr8 hx (List.forall_mem_nil _) (by rw [hcontig]; rfl)
      rwa [List.append_nil] at this
  rw [if_neg hcontig]
  by_cases hskip : WithinSkip ptr g.last x
  · rw [add_withinSkip hptr hx hcontig hskip, if_pos hskip]
    obtain ⟨hlt, hal, hle⟩ := hskip
    have hk : 1 ≤ (x - g.last) / ptr - 1 ∧ (x - g.last) / ptr - 1 ≤ 14 ∧
        x = g.last + ptr + ptr * ((x - g.last) / ptr - 1) := by
      rcases hptr with rfl | rfl <;> omega
    obtain ⟨hk1, hk14, hxk⟩ := hk
    generalize (x - g.last) / ptr - 1 = k at hk1 hk14 hxk
    by_cases hf : ∃ init r, FoldsInto init r g.count k pre
    · obtain ⟨init, r, hf⟩ := hf
      rw [closeGroup_of_foldsInto hk14 hf]
      exact ⟨_, rfl, h.fold hptr8 hx hk1 hxk hf⟩
    · rw [closeGroup_of_not_foldsInto hk14 (fun init r hf' => hf ⟨init, r, hf'⟩)]
      exact ⟨_, rfl, h.skip hptr8 hx hxk (fun init r hf' => hf ⟨init, r, hf'⟩)⟩
  rw [if_neg hskip]
  have hlast := h.last_lt
  rcases hap with hfwd | hback
  · rw [add_leap hx hcontig hskip hfwd]
    refine ⟨_, rfl, h.close hptr8 hx (fun p hp => contigCount_of_mem_leap hp) ?_⟩
    rw [foldl_leap _ _ (by simp only; omega)]
    simp only [RebaseCursor.mk.injEq, and_true]
    omega
  · rw [add_reset hptr hlast (by omega)]
    refine ⟨_, rfl, h.close hptr8 hx ?_ ?_⟩
    · intro p hp
      rcases List.mem_cons.mp hp with rfl | hp
      · rfl
      · exact contigCount_of_mem_leap hp
    · have hreset : ∀ d, runPattern ptr d ⟨0, 0, 0⟩ = ⟨0, d.reported⟩ := fun d => rfl
      rw [List.foldl_cons, hreset, foldl_leap _ _ (by simp only; omega), Nat.zero_add]

/-- The first call: the location is reached by a leap from the start of the image. -/
lemma tracks_first (hptr : ptr = 4 ∨ ptr = 8) {x : Nat} (h0 : 0x1000 ≤ x) (hx : x < 2 ^ 40) :
    (RebasePatternBuilder.init ptr).add x = some (openGroup ptr x 1 (leap x)) ∧
      Tracks ptr [x] ⟨x, 1, []⟩ (leap x) := by
  have hptr8 : ptr ≤ 8 := by omega
  have hstart := sub64_of_lt (by omega : 0 < ptr) (by omega : ptr < 2 ^ 64)
  have hd := sub64_of_lt (a := x) (b := sub64 0 ptr) (by omega) (by omega)
  have hdp : sub64 (sub64 x (sub64 0 ptr)) ptr = x := by
    rw [sub64_of_le (by omega) (by omega)]
    omega
  have hfar : farEntries (sub64 0 ptr) ptr x (sub64 x (sub64 0 ptr)) = leap x := by
    rw [farEntries, if_neg (by simp), hdp]
  have hskip : ¬ (sub64 x (sub64 0 ptr) % ptr = 0 ∧ sub64 x (sub64 0 ptr) ≤ ptr * 15) := by omega
  have hne : sub64 x (sub64 0 ptr) ≠ ptr := by omega
  have hleap : ∀ p ∈ leap x, p.contigCount = 0 := fun p hp => contigCount_of_mem_leap hp
  obtain ⟨l, pre', hl⟩ := List.exists_cons_of_ne_nil (leap_ne_nil (by omega : x ≠ 0))
  constructor
  · unfold RebasePatternBuilder.add
    simp only [RebasePatternBuilder.init, hne, hskip, if_false, hfar, openGroup, single,
      List.nil_append, Option.map_some]
  · refine ⟨le_rfl, by simp, hx, ⟨l, pre', hl, hleap l (by simp [hl])⟩, ?_, ?_, ?_, ?_⟩
    · simp [totalWeight_of_contigCount_eq_zero hleap]
    · intro hbad
      exact absurd hbad (regularRun_nil repeatLimit_pos)
    · intro _
      have hd : forEachRebase ptr (leap x) = ⟨x, []⟩ := by
        rw [forEachRebase, foldl_leap _ _ (by simp only; omega), Nat.zero_add]
      exact forEachRebase_single hptr8 hx hd
    · intro _
      obtain ⟨init, q, hq⟩ := List.eq_nil_or_concat (leap x) |>.resolve_left (by simp [hl])
      refine ⟨q, ?_, Or.inl (hleap q (by simp [hq]))⟩
      rw [hq, List.concat_eq_append, List.getLast?_concat]

/-- A whole run keeps the invariant. -/
lemma Tracks.addAll (hptr : ptr = 4 ∨ ptr = 8) (h : Tracks ptr done g pre) {xs : List Nat}
    (hlt : ∀ x ∈ xs, x < 2 ^ 40) (hap : (g.last :: xs).IsChain (AtLeastApart ptr)) :
    ∃ pre', (openGroup ptr g.last g.count pre).addAll xs =
        some (openGroup ptr (xs.foldl (Grouping.add ptr) g).last
          (xs.foldl (Grouping.add ptr) g).count pre') ∧
      Tracks ptr (done ++ xs) (xs.foldl (Grouping.add ptr) g) pre' := by
  induction xs generalizing done g pre with
  | nil => exact ⟨pre, rfl, by rwa [List.append_nil]⟩
  | cons x xs ih =>
    rw [List.isChain_cons_cons] at hap
    obtain ⟨pre₁, hadd, h₁⟩ := h.add hptr (hlt x (by simp)) hap.1
    have hlast : (g.add ptr x).last = x := by
      unfold Grouping.add
      split_ifs <;> rfl
    obtain ⟨pre', hrun, h'⟩ :=
      ih h₁ (fun y hy => hlt y (by simp [hy])) (by rw [hlast]; exact hap.2)
    refine ⟨pre', ?_, ?_⟩
    · rw [RebasePatternBuilder.addAll, hadd, Option.bind_some, hrun, List.foldl_cons]
    · rw [List.append_assoc] at h'
      exact h'

end Run

def RebasesRoundTrip (ptrSize : Nat) (locations : List Nat) : Prop :=
  ∃ b, (RebasePatternBuilder.init ptrSize).addAll locations = some b ∧
    (forEachRebase ptrSize b.rebaseEntries).reported = locations

/-- What the callers of the builder promise about the rebase locations of an image. -/
structure RebaseLocations (ptrSize : Nat) (locations : List Nat) : Prop where
  ptrSize_eq : ptrSize = 4 ∨ ptrSize = 8
  first_ge : ∀ x ∈ locations.head?, 0x1000 ≤ x
  lt : ∀ x ∈ locations, x < 2 ^ 40
  apart : locations.Pairwise (AtLeastApart ptrSize)

lemma rebasesRoundTrip_iff_of_locations {ptrSize : Nat} {locations : List Nat}
    (h : RebaseLocations ptrSize locations) :
    RebasesRoundTrip ptrSize locations ↔
      ¬ RegularRun repeatLimit (closedGroups ptrSize locations) := by
  cases locations with
  | nil =>
    refine iff_of_true ⟨_, rfl, rfl⟩ (regularRun_nil repeatLimit_pos)
  | cons x xs =>
    obtain ⟨hadd, h₁⟩ := tracks_first h.ptrSize_eq (h.first_ge x rfl) (h.lt x (by simp))
    obtain ⟨pre, hrun, ht⟩ := h₁.addAll h.ptrSize_eq
      (fun y hy => h.lt y (by simp [hy])) h.apart.isChain
    have hall : (RebasePatternBuilder.init ptrSize).addAll (x :: xs) =
        some (openGroup ptrSize (xs.foldl (Grouping.add ptrSize) ⟨x, 1, []⟩).last
          (xs.foldl (Grouping.add ptrSize) ⟨x, 1, []⟩).count pre) := by
      rw [RebasePatternBuilder.addAll, hadd, Option.bind_some, hrun]
    rw [closedGroups]
    constructor
    · rintro ⟨b, hb, hrep⟩ hbad
      rw [hall, Option.some.injEq] at hb
      have hlen := ht.lost hbad
      have hw := length_forEachRebase ptrSize b.rebaseEntries
      rw [hrep, ← hb, openGroup, totalWeight_append, totalWeight_singleton, Nat.one_mul] at hw
      rw [List.singleton_append, hw] at hlen
      exact lt_irrefl _ hlen
    · intro hok
      refine ⟨_, hall, ?_⟩
      rw [openGroup, ht.reported hok]
      rfl

/-- The rebase loop reports exactly the locations that were added, in that order, unless one
group of contiguous pointers with the same gap after it comes `2 ^ 20` times in a row: then
the 20-bit repeat count wraps around and the locations of the whole run are lost. -/
theorem rebasePatterns_roundtrip_iff (ptrSize : Nat) (locations : List Nat)
    (h : RebaseLocations ptrSize locations) :
    RebasesRoundTrip ptrSize locations ↔
      ¬ ∃ c k, List.replicate (2 ^ 20) (c, some k) <:+: closedGroups ptrSize locations :=
  rebasesRoundTrip_iff_of_locations h

/-- Two groups with a gap of one pointer and a group of two: the repeat is folded, and all
five locations come out again. -/
theorem rebasePatterns_roundtrip_iff_folded :
    RebaseLocations 8 [0x1000, 0x1010, 0x1020, 0x1030, 0x1038] ∧
      RebasesRoundTrip 8 [0x1000, 0x1010, 0x1020, 0x1030, 0x1038] := by
  have h : RebaseLocations 8 [0x1000, 0x1010, 0x1020, 0x1030, 0x1038] :=
    ⟨by decide, by decide, by decide, by simp [AtLeastApart]⟩
  refine ⟨h, (rebasePatterns_roundtrip_iff 8 _ h).mpr ?_⟩
  rintro ⟨c, k, hinfix⟩
  have hlen := hinfix.length_le
  rw [List.length_replicate] at hlen
  exact absurd hlen (by decide)

/-- `n + 1` pointers with a gap of one pointer between them. -/
def everyOther (n : Nat) : List Nat := (List.range (n + 1)).map (fun i => 0x1000 + 16 * i)

lemma closedGroups_everyOther (n : Nat) :
    closedGroups 8 (everyOther n) = List.replicate n (1, some 1) := by
  have hfold : ∀ m, ((List.range m).map (fun i => 0x1000 + 16 * (i + 1))).foldl
      (Grouping.add 8) ⟨0x1000, 1, []⟩ = ⟨0x1000 + 16 * m, 1, List.replicate m (1, some 1)⟩ := by
    intro m
    induction m with
    | zero => rfl
    | succ m ih =>
      have hskip : WithinSkip 8 (0x1000 + 16 * m) (0x1000 + 16 * (m + 1)) := by
        unfold WithinSkip
        omega
      have hgap : (0x1000 + 16 * (m + 1) - (0x1000 + 16 * m)) / 8 - 1 = 1 := by omega
      rw [List.range_succ, List.map_append, List.foldl_append, ih, List.map_singleton,
        List.foldl_cons, List.foldl_nil, Grouping.add, if_neg (by simp only; omega),
        if_pos hskip, List.replicate_succ]
      simp only [hgap]
  have hcons : everyOther n =
      0x1000 :: (List.range n).map (fun i => 0x1000 + 16 * (i + 1)) := by
    rw [everyOther, List.range_succ_eq_map, List.map_cons, List.map_map]
    rfl
  rw [hcons, closedGroups, hfold]

lemma rebaseLocations_everyOther {n : Nat} (hn : n < 2 ^ 32) : RebaseLocations 8 (everyOther n) := by
  refine ⟨Or.inr rfl, ?_, ?_, ?_⟩
  · intro x hx
    rw [everyOther, List.range_succ_eq_map, List.map_cons] at hx
    simp only [List.head?_cons, Option.mem_def, Option.some.injEq] at hx
    omega
  · intro x hx
    obtain ⟨i, hi, rfl⟩ := List.mem_map.mp hx
    rw [List.mem_range] at hi
    omega
  · rw [everyOther, List.pairwise_map]
    refine List.pairwise_lt_range.imp (fun hij => Or.inl ?_)
    omega

theorem rebasePatterns_everyOther_lost :
    RebaseLocations 8 (everyOther (2 ^ 20)) ∧ ¬ RebasesRoundTrip 8 (everyOther (2 ^ 20)) := by
  have h := rebaseLocations_everyOther (by norm_num : 2 ^ 20 < 2 ^ 32)
  refine ⟨h, ?_⟩
  rw [rebasesRoundTrip_iff_of_locations h, not_not, closedGroups_everyOther]
  exact ⟨1, 1, List.infix_rfl⟩

end Dyld.Closure
