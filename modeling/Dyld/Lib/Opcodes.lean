import Dyld.Lib.Feed

/-!
# Opcode interpreters

A loop over the bytes of an opcode stream whose turns thread registers and a state, and the counted
loop inside a turn. The counter of the counted loop has 32 bits while the bound may be larger, so
that loop need not end; both loops take fuel.
-/

namespace Dyld.Lib

/-- What a turn leaves: the registers, the bytes behind the opcode and its operands, the state, and
whether the loop is left. -/
structure Turn (ρ σ ε : Type) where
  regs : ρ
  rest : List UInt8
  state : σ
  stop : Bool := false
  error : Option ε := none

section Interpret

variable {ρ σ ε : Type} (turn : ρ → UInt8 → List UInt8 → σ → Option (Turn ρ σ ε))

/-- `while ( !stop && noError && (p < end) )`. -/
def interpret : Nat → List UInt8 → ρ → σ → Option (σ × Option ε)
  | _, [], _, s => some (s, none)
  | 0, _ :: _, _, _ => none
  | fuel + 1, b :: bytes, r, s =>
    (turn r b bytes s).bind (fun t =>
      if t.error.isSome || t.stop then some (t.state, t.error)
      else interpret fuel t.rest t.regs t.state)

end Interpret

def Turn.next {ρ σ ε : Type} (t : Turn ρ σ ε) : Option (ρ × List UInt8 × σ) :=
  if t.error.isSome || t.stop then none else some (t.regs, t.rest, t.state)

/-! ### Programs

A stream is a program of decoded instructions when each opcode decodes up to the one that ends it. -/

section Program

variable {ι : Type} (decode : UInt8 → List UInt8 → Option (ι × List UInt8))
  (done : UInt8 → Bool) (early : List UInt8 → Bool)

/-- The instructions of a stream. An end with `early` bytes behind it is not allowed. -/
def program : Nat → List UInt8 → Option (List ι)
  | _, [] => some []
  | 0, _ :: _ => none
  | n + 1, b :: bytes =>
    if done b then (if early bytes then none else some [])
    else (decode b bytes).bind (fun d => (program n d.2).map (d.1 :: ·))

/-- A property of the opcodes that an interpreter comes to. -/
def Along (Q : UInt8 → List UInt8 → Prop) : Nat → List UInt8 → Prop
  | _, [] => True
  | 0, _ :: _ => True
  | n + 1, b :: bytes =>
    done b = false → Q b bytes ∧ ∀ d, decode b bytes = some d → Along Q n d.2

/-- The instructions one after the other. -/
def execAll {ρ σ : Type} (exec : ρ → ι → σ → Option (ρ × σ)) : List ι → ρ → σ → Option σ
  | [], _, s => some s
  | i :: is, r, s => (exec r i s).bind (fun t => execAll exec is t.1 t.2)

variable {decode done early} {ρ σ ε : Type} {turn : ρ → UInt8 → List UInt8 → σ → Option (Turn ρ σ ε)}

/-- An interpreter that ends well and that only errors and bad states leave early has come through
the whole program. -/
theorem program_of_interpret (ok : σ → Prop)
    (herror : ∀ r b bytes s t, turn r b bytes s = some t → t.error = none →
      if done b then early bytes = false else ∃ d, decode b bytes = some d ∧ t.rest = d.2)
    (hstop : ∀ r b bytes s t, turn r b bytes s = some t → done b = false → t.error = none →
      t.stop = true → ¬ok t.state)
    {n : Nat} {bytes : List UInt8} {r : ρ} {s s' : σ}
    (h : interpret turn n bytes r s = some (s', none)) (hok : ok s') :
    ∃ is, program decode done early n bytes = some is := by
  induction n generalizing bytes r s with
  | zero =>
    cases bytes with
    | nil => exact ⟨[], rfl⟩
    | cons b bytes => simp [interpret] at h
  | succ n ih =>
    cases bytes with
    | nil => exact ⟨[], rfl⟩
    | cons b bytes =>
      rw [interpret] at h
      obtain ⟨t, ht, h⟩ := Option.bind_eq_some_iff.mp h
      rw [program]
      split_ifs at h with hend
      · rw [Option.some.injEq, Prod.mk.injEq] at h
        have herr := herror r b bytes s t ht h.2
        by_cases hdone : done b = true
        · rw [if_pos hdone] at herr
          exact ⟨[], by rw [if_pos hdone, herr]; rfl⟩
        · rw [h.2, Option.isSome_none, Bool.false_or] at hend
          rw [Bool.not_eq_true] at hdone
          exact absurd (h.1 ▸ hok) (hstop r b bytes s t ht hdone h.2 hend)
      · simp only [Bool.or_eq_true, Option.isSome_iff_ne_none, not_or, not_not] at hend
        have herr := herror r b bytes s t ht hend.1
        by_cases hdone : done b = true
        · rw [if_pos hdone] at herr
          exact ⟨[], by rw [if_pos hdone, herr]; rfl⟩
        · rw [if_neg hdone] at herr
          obtain ⟨d, hd, hrest⟩ := herr
          rw [hrest] at h
          obtain ⟨is, his⟩ := ih h
          exact ⟨d.1 :: is, by rw [if_neg hdone, hd, Option.bind_some, his]; rfl⟩

theorem interpret_iff_execAll (ok : σ → Prop) {exec : ρ → ι → σ → Option (ρ × σ)} {Q : UInt8 → List UInt8 → Prop}
    (hdone : ∀ r b bytes s, done b = true → early bytes = false →
      ∃ r' rest, turn r b bytes s = some { regs := r', rest := rest, state := s, stop := true })
    (hstep : ∀ r b bytes s i rest, done b = false → Q b bytes → decode b bytes = some (i, rest) →
      (turn r b bytes s).bind Turn.next = (exec r i s).map (fun t => (t.1, rest, t.2)))
    (hstop : ∀ r b bytes s t, turn r b bytes s = some t → done b = false → t.error = none →
      t.stop = true → ¬ok t.state)
    {n : Nat} {bytes : List UInt8} {is : List ι} (hprogram : program decode done early n bytes = some is)
    (hQ : Along decode done Q n bytes) {r : ρ} {s s' : σ} (hok : ok s') :
    interpret turn n bytes r s = some (s', none) ↔ execAll exec is r s = some s' := by
  induction n generalizing bytes is r s with
  | zero =>
    cases bytes with
    | nil =>
      rw [program, Option.some.injEq] at hprogram
      subst hprogram
      simp [interpret, execAll]
    | cons b bytes => simp [program] at hprogram
  | succ n ih =>
    cases bytes with
    | nil =>
      rw [program, Option.some.injEq] at hprogram
      subst hprogram
      simp [interpret, execAll]
    | cons b bytes =>
      rw [program] at hprogram
      by_cases hend : done b = true
      · rw [if_pos hend] at hprogram
        split_ifs at hprogram with hearly
        rw [Option.some.injEq] at hprogram
        subst hprogram
        obtain ⟨r', rest, hturn⟩ := hdone r b bytes s hend (by simpa using hearly)
        simp [interpret, hturn, execAll]
      · rw [if_neg hend] at hprogram
        obtain ⟨⟨i, rest⟩, hd, hprogram⟩ := Option.bind_eq_some_iff.mp hprogram
        obtain ⟨is', his, rfl⟩ := Option.map_eq_some_iff.mp hprogram
        rw [Bool.not_eq_true] at hend
        obtain ⟨hq, hrest⟩ := hQ hend
        have hturn := hstep r b bytes s i rest hend hq hd
        rw [interpret, execAll]
        -- the turn goes on exactly when the instruction does
        cases hexec : exec r i s with
        | none =>
          rw [hexec, Option.map_none] at hturn
          constructor
          · intro h
            obtain ⟨t, ht, h⟩ := Option.bind_eq_some_iff.mp h
            rw [ht, Option.bind_some, Turn.next] at hturn
            split_ifs at hturn with hleft
            rw [if_pos hleft, Option.some.injEq, Prod.mk.injEq] at h
            rw [h.2, Option.isSome_none, Bool.false_or] at hleft
            exact absurd (h.1 ▸ hok) (hstop r b bytes s t ht hend h.2 hleft)
          · intro h
            simp at h
        | some u =>
          rw [hexec, Option.map_some] at hturn
          obtain ⟨t, ht, hnext⟩ := Option.bind_eq_some_iff.mp hturn
          rw [Turn.next] at hnext
          split_ifs at hnext with hleft
          rw [Option.some.injEq, Prod.mk.injEq, Prod.mk.injEq] at hnext
          rw [ht, Option.bind_some, Option.bind_some, if_neg hleft, hnext.1, hnext.2.1, hnext.2.2]
          exact ih his (hrest _ hd)

theorem along_of_interpret {Q : UInt8 → List UInt8 → Prop}
    (hturn : ∀ r b bytes s t, turn r b bytes s = some t → done b = false → t.error = none → Q b bytes)
    (hrest : ∀ r b bytes s t d, turn r b bytes s = some t → done b = false → t.error = none →
      decode b bytes = some d → t.stop = false ∧ t.rest = d.2)
    {n : Nat} {bytes : List UInt8} {r : ρ} {s s' : σ}
    (h : interpret turn n bytes r s = some (s', none)) : Along decode done Q n bytes := by
  induction n generalizing bytes r s with
  | zero => cases bytes <;> trivial
  | succ n ih =>
    cases bytes with
    | nil => trivial
    | cons b bytes =>
      rw [interpret] at h
      obtain ⟨t, ht, h⟩ := Option.bind_eq_some_iff.mp h
      intro hdone
      have herror : t.error = none := by
        split_ifs at h with hleft
        · rw [Option.some.injEq, Prod.mk.injEq] at h
          exact h.2
        · simp only [Bool.or_eq_true, Option.isSome_iff_ne_none, not_or, not_not] at hleft
          exact hleft.1
      refine ⟨hturn r b bytes s t ht hdone herror, fun d hd => ?_⟩
      obtain ⟨hgo, hd'⟩ := hrest r b bytes s t d ht hdone herror hd
      rw [herror, hgo] at h
      rw [← hd']
      exact ih h

end Program

section Body

variable {α β σ : Type} (body : α → σ → σ × Bool)

/-- A body on the items of a list, until it leaves the loop. -/
def runBody (xs : List α) (s : σ) : σ × Bool := feed (fun s x => body x s) s xs

variable {body}

@[simp] lemma runBody_nil (s : σ) : runBody body [] s = (s, false) := rfl

lemma runBody_cons (x : α) (xs : List α) (s : σ) :
    runBody body (x :: xs) s =
      if (body x s).2 then ((body x s).1, true) else runBody body xs (body x s).1 := rfl

lemma runBody_append (xs ys : List α) (s : σ) :
    runBody body (xs ++ ys) s =
      if (runBody body xs s).2 then runBody body xs s else runBody body ys (runBody body xs s).1 :=
  feed_append s xs ys

lemma runBody_map (f : β → α) (xs : List β) (s : σ) :
    runBody body (xs.map f) s = runBody (fun x => body (f x)) xs s :=
  (feed_map f s xs).symm

/-- A run that is not left has not been left at any item. -/
lemma runBody_append_eq_iff {xs ys : List α} {s s' : σ} :
    runBody body (xs ++ ys) s = (s', false) ↔
      ∃ t, runBody body xs s = (t, false) ∧ runBody body ys t = (s', false) := by
  rw [runBody_append]
  constructor
  · intro h
    split_ifs at h with hstop
    · rw [h] at hstop
      simp at hstop
    · exact ⟨(runBody body xs s).1, Prod.ext rfl (by simpa using hstop), h⟩
  · rintro ⟨t, ht, h⟩
    rw [ht]
    exact h

end Body

section Counted

variable {σ : Type} (body : Nat → σ → σ × Bool) (next : Nat → Nat) (count : Nat)

/-- `for (uint32_t i=0; i < count; ++i)` over a position that each turn moves on. The body says
whether to leave the loop. -/
def repeatFor : Nat → Nat → Nat → σ → Option (Nat × σ × Bool)
  | 0, _, _, _ => none
  | fuel + 1, i, x, s =>
    if i < count then
      let t := body x s
      if t.2 then some (next x, t.1, true)
      else repeatFor fuel ((i + 1) % 2 ^ 32) (next x) t.1
    else some (x, s, false)

/-- The positions that `n` turns come to. -/
def trail : Nat → Nat → List Nat
  | 0, _ => []
  | n + 1, x => x :: trail n (next x)

variable {body next count}

lemma trail_map {g : Nat → Nat} {next' : Nat → Nat} (hcomm : Function.Semiconj g next next')
    (n x : Nat) : trail next' n (g x) = (trail next n x).map g := by
  induction n generalizing x with
  | zero => rfl
  | succ n ih => rw [trail, trail, List.map_cons, ← hcomm.eq, ih]

lemma repeatFor_eq {fuel i : Nat} (hcount : count < 2 ^ 32) (hi : i ≤ count)
    (hfuel : count - i < fuel) (x : Nat) (s : σ)
    (hrun : (runBody body (trail next (count - i) x) s).2 = false) :
    repeatFor body next count fuel i x s =
      some (next^[count - i] x, runBody body (trail next (count - i) x) s) := by
  induction fuel generalizing i x s with
  | zero => omega
  | succ fuel ih =>
    rw [repeatFor]
    by_cases hlt : i < count
    · have hsub : count - i = (count - (i + 1)) + 1 := by omega
      have hmod : (i + 1) % 2 ^ 32 = i + 1 := Nat.mod_eq_of_lt (by omega)
      rw [hsub, trail, runBody_cons] at hrun ⊢
      rw [if_pos hlt, Function.iterate_succ_apply, hmod]
      dsimp only at hrun ⊢
      split_ifs at hrun ⊢ with hstop
      exact ih (by omega) (by omega) _ _ hrun
    · have hsub : count - i = 0 := by omega
      rw [if_neg hlt, hsub]
      rfl

/-- A loop that ends at its bound has a bound that fits the counter. -/
lemma of_repeatFor {fuel i x x' : Nat} {s s' : σ} (hi : i < 2 ^ 32)
    (h : repeatFor body next count fuel i x s = some (x', s', false)) :
    (i < count → count < 2 ^ 32) ∧ count - i < fuel ∧
      (count < 2 ^ 32 → x' = next^[count - i] x ∧
        runBody body (trail next (count - i) x) s = (s', false)) := by
  induction fuel generalizing i x s with
  | zero => simp [repeatFor] at h
  | succ fuel ih =>
    rw [repeatFor] at h
    split_ifs at h with hlt
    · dsimp only at h
      by_cases hstop : (body x s).2 = true
      · simp [hstop] at h
      rw [if_neg hstop] at h
      obtain ⟨hlt', hfuel, hend⟩ := ih (Nat.mod_lt _ (by norm_num)) h
      have hcount : count < 2 ^ 32 := by
        by_contra hge
        exact hge (hlt' ((Nat.mod_lt _ (by norm_num)).trans_le (not_lt.mp hge)))
      have hmod : (i + 1) % 2 ^ 32 = i + 1 := Nat.mod_eq_of_lt (by omega)
      have hsub : count - i = (count - (i + 1)) + 1 := by omega
      rw [hmod] at hfuel hend
      refine ⟨fun _ => hcount, by omega, fun _ => ?_⟩
      obtain ⟨hx, hs⟩ := hend hcount
      rw [hsub, Function.iterate_succ_apply, trail, runBody_cons, if_neg hstop]
      exact ⟨hx, hs⟩
    · rw [Option.some.injEq, Prod.mk.injEq, Prod.mk.injEq] at h
      obtain ⟨rfl, rfl, -⟩ := h
      have hsub : count - i = 0 := by omega
      rw [hsub]
      exact ⟨fun h => absurd h hlt, by omega, fun _ => ⟨rfl, rfl⟩⟩

/-- The loop from zero on. A loop whose bound fits the counter takes at most as many turns as the
counter has values; it is `none` when there are more. -/
def countedLoop (body : Nat → σ → σ × Bool) (next : Nat → Nat) (count x : Nat) (s : σ) :
    Option (Nat × σ × Bool) :=
  repeatFor body next count (2 ^ 32) 0 x s

theorem countedLoop_eq_iff {x x' : Nat} {s s' : σ} :
    countedLoop body next count x s = some (x', s', false) ↔
      count < 2 ^ 32 ∧ x' = next^[count] x ∧ runBody body (trail next count x) s = (s', false) := by
  constructor
  · intro h
    obtain ⟨hcount, -, hend⟩ := of_repeatFor (by norm_num) h
    have hlt : count < 2 ^ 32 := by
      by_cases hzero : 0 < count
      · exact hcount hzero
      · omega
    exact ⟨hlt, hend hlt⟩
  · rintro ⟨hcount, rfl, hrun⟩
    rw [countedLoop, repeatFor_eq hcount (Nat.zero_le _) (by omega) _ _ (by rw [Nat.sub_zero, hrun]),
      Nat.sub_zero, hrun]

lemma countedLoop_zero (x : Nat) (s : σ) : countedLoop body next 0 x s = some (x, s, false) := by
  have hfuel : (2 : Nat) ^ 32 = 4294967295 + 1 := by norm_num
  rw [countedLoop, hfuel, repeatFor, if_neg (by norm_num)]

lemma countedLoop_one (x : Nat) (s : σ) :
    countedLoop body next 1 x s = some (next x, body x s) := by
  have hfuel : (2 : Nat) ^ 32 = 4294967294 + 1 + 1 := by norm_num
  rw [countedLoop, hfuel, repeatFor, if_pos (by norm_num)]
  dsimp only
  split_ifs with hstop
  · rw [← hstop]
  · rw [repeatFor, if_neg (by norm_num)]
    rw [Bool.not_eq_true] at hstop
    rw [← hstop]

/-- A loop that is left early ends in a state of the body that leaves it. -/
lemma stopped_of_repeatFor {ok : σ → Prop}
    (hstop : ∀ x s, (body x s).2 = true → ¬ok (body x s).1) {fuel i x x' : Nat}
    {s s' : σ} (h : repeatFor body next count fuel i x s = some (x', s', true)) : ¬ok s' := by
  induction fuel generalizing i x s with
  | zero => simp [repeatFor] at h
  | succ fuel ih =>
    rw [repeatFor] at h
    split_ifs at h with hlt
    · dsimp only at h
      by_cases hb : (body x s).2 = true
      · rw [if_pos hb] at h
        simp only [Option.some.injEq, Prod.mk.injEq, and_true] at h
        rw [← h.2]
        exact hstop x s hb
      · rw [if_neg hb] at h
        exact ih h
    · simp at h

lemma stopped_of_countedLoop {ok : σ → Prop} (hstop : ∀ x s, (body x s).2 = true → ¬ok (body x s).1)
    {x x' : Nat} {s s' : σ} (h : countedLoop body next count x s = some (x', s', true)) : ¬ok s' :=
  stopped_of_repeatFor hstop h

end Counted

end Dyld.Lib
