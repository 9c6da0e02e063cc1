import Dyld.Lib.Calls

/-!
# Loops of calls that end

The counter of a loop of calls wraps at 32 bits. A run ends, and no opcode makes more calls than it
asks for, exactly when each opcode that asks for 2^32 calls or more has one among them at which the
handler stops.
-/

namespace Dyld.Lib

namespace Opcode

variable {ρ κ ε : Type} (o : Opcode ρ κ ε)

def moved (n : Nat) : Opcode ρ κ ε := { o with regs := o.next^[n] o.regs }

def callsUpTo (n : Nat) : List κ := (List.iterate o.next o.regs n).map o.call

lemma callsUpTo_add (n k : Nat) : o.callsUpTo (n + k) = o.callsUpTo n ++ (o.moved n).callsUpTo k := by
  rw [callsUpTo, List.iterate_add, List.map_append]
  rfl

lemma callsUpTo_succ (n : Nat) : o.callsUpTo (n + 1) = o.callsUpTo n ++ [o.call (o.moved n).regs] :=
  o.callsUpTo_add n 1

lemma length_callsUpTo (n : Nat) : (o.callsUpTo n).length = n := by
  rw [callsUpTo, List.length_map, List.length_iterate]

lemma moved_succ (n : Nat) :
    { o.moved n with regs := o.next (o.moved n).regs } = o.moved (n + 1) := by
  rw [moved, moved, Function.iterate_succ_apply']

end Opcode

lemma exists_of_runBody_stopped {α σ : Type} {body : α → σ → σ × Bool} {l : List α} {s : σ}
    (h : (runBody body l s).2 = true) :
    ∃ l₁ x l₂ s', l = l₁ ++ x :: l₂ ∧ runBody body l₁ s = (s', false) ∧ (body x s').2 = true := by
  induction l generalizing s with
  | nil => simp at h
  | cons x l ih =>
    rw [runBody_cons] at h
    by_cases hstop : (body x s).2 = true
    · exact ⟨[], x, l, s, rfl, rfl, hstop⟩
    · rw [if_neg hstop] at h
      obtain ⟨l₁, y, l₂, s', rfl, hrun, hy⟩ := ih h
      exact ⟨x :: l₁, y, l₂, s', rfl, by rw [runBody_cons, if_neg hstop, hrun], hy⟩

namespace Machine

variable {σ ρ κ ε : Type} {handler : σ → κ → σ × Bool} {diag : σ → Option ε} {m : Machine σ ρ κ ε}
  {o : Opcode ρ κ ε}

variable (handler) in
/-- The bound fits the counter, or the handler stops within the bound. -/
def LoopEnds (o : Opcode ρ κ ε) (s : σ) : Prop :=
  o.count < 2 ^ 32 ∨ (runBody (fun k s => handler s k) (o.callsUpTo o.count) s).2 = true

variable (diag) in
/-- A loop in which the handler has not stopped. -/
lemma run_calls (hmode : m.mode = .calls o 0 0) {n : Nat} {s : σ}
    (hrun : runBody (fun k s => handler s k) (o.callsUpTo n) m.state = (s, false))
    (hn : o.count < 2 ^ 32 → n ≤ o.count) :
    (run handler diag n m).mode = .calls (o.moved n) (n % 2 ^ 32) n ∧
      (run handler diag n m).state = s ∧ (run handler diag n m).stream = m.stream ∧
      (run handler diag n m).later = m.later := by
  induction n generalizing s with
  | zero =>
    have hstate := congrArg Prod.fst hrun
    exact ⟨hmode, hstate, rfl, rfl⟩
  | succ n ih =>
    rw [Opcode.callsUpTo_succ] at hrun
    obtain ⟨t, ht, hcall⟩ := runBody_append_eq_iff.mp hrun
    obtain ⟨hmode', hstate, hstream, hlater⟩ := ih ht (fun h => (Nat.le_succ n).trans (hn h))
    have hi : n % 2 ^ 32 < (o.moved n).count := by
      change n % 2 ^ 32 < o.count
      by_cases hcount : o.count < 2 ^ 32
      · exact (Nat.mod_le _ _).trans_lt (hn hcount)
      · exact (Nat.mod_lt _ (by norm_num)).trans_le (not_lt.mp hcount)
    rw [runBody_cons] at hcall
    have hgo : ¬(handler t (o.call (o.moved n).regs)).2 = true := by
      intro hstop
      simp [hstop] at hcall
    rw [if_neg hgo] at hcall
    rw [run_succ, step_call hmode' hi (by rw [hstate]; exact hgo)]
    refine ⟨?_, ?_, hstream, hlater⟩
    · change Mode.calls { o.moved n with regs := o.next (o.moved n).regs } _ _ = _
      rw [Opcode.moved_succ, Nat.mod_add_mod]
    · change (handler (run handler diag n m).state (o.call (o.moved n).regs)).1 = s
      rw [hstate]
      exact congrArg Prod.fst hcall

variable (m) in
lemma leave_cases (error : Option ε) :
    (∃ e, (m.leave error).mode = .ended e) ∨ ∃ stream later, m.later = stream :: later ∧
      (m.leave error).mode = .opcodes ∧ (m.leave error).stream = stream ∧
      (m.leave error).later = later := by
  cases error with
  | some e => exact Or.inl ⟨some e, rfl⟩
  | none =>
    cases hlater : m.later with
    | nil => exact Or.inl ⟨none, by simp only [leave, hlater]⟩
    | cons stream later => exact Or.inr ⟨stream, later, rfl, by simp only [leave, hlater, and_self]⟩

/-- Where a machine comes to from a loop of calls: to an end, to the next stream, or to the opcode
behind. -/
def Behind (m : Machine σ ρ κ ε) (rest : List UInt8) (m' : Machine σ ρ κ ε) : Prop :=
  (∃ e, m'.mode = .ended e) ∨ m'.mode = .opcodes ∧
    (m.later = m'.stream :: m'.later ∨
      m'.later = m.later ∧ m'.stream.bytes = rest ∧ m'.stream.decode = m.stream.decode)

lemma behind_leave {m' : Machine σ ρ κ ε} (hlater : m'.later = m.later) (rest : List UInt8)
    (error : Option ε) : Behind m rest (m'.leave error) := by
  cases m'.leave_cases error with
  | inl h => exact Or.inl h
  | inr h =>
    obtain ⟨stream, later, hcons, hmode, hstream, hlater'⟩ := h
    rw [hlater] at hcons
    exact Or.inr ⟨hmode, Or.inl (by rw [hcons, hstream, hlater'])⟩

lemma exists_behind (hmode : m.mode = .calls o 0 0) (hends : LoopEnds handler o m.state) :
    ∃ n, Behind m o.rest (run handler diag n m) := by
  by_cases hstopped : (runBody (fun k s => handler s k) (o.callsUpTo o.count) m.state).2 = true
  · obtain ⟨l₁, k, l₂, s, hsplit, hrun, hstop⟩ := exists_of_runBody_stopped hstopped
    have hlength := congrArg List.length hsplit
    rw [Opcode.length_callsUpTo, List.length_append, List.length_cons] at hlength
    obtain ⟨j, hj⟩ : ∃ j, o.count = l₁.length + (j + 1) := ⟨l₂.length, by omega⟩
    rw [hj, Opcode.callsUpTo_add] at hsplit
    obtain ⟨hfirst, hrest⟩ := List.append_inj hsplit (Opcode.length_callsUpTo _ _)
    have hk : o.call (o.moved l₁.length).regs = k := (List.cons.inj hrest).1
    rw [← hfirst] at hrun
    obtain ⟨hmode', hstate, -, hlater⟩ := run_calls diag hmode hrun (fun _ => by omega)
    have hi : l₁.length % 2 ^ 32 < (o.moved l₁.length).count := by
      change l₁.length % 2 ^ 32 < o.count
      exact (Nat.mod_le _ _).trans_lt (by omega)
    refine ⟨l₁.length + 1, ?_⟩
    rw [run_succ, step_stop hmode' hi (by rw [hstate]; exact hk ▸ hstop)]
    apply behind_leave
    exact hlater
  · have hcount := hends.resolve_right hstopped
    rw [Bool.not_eq_true] at hstopped
    obtain ⟨hmode', hstate, hstream, hlater⟩ :=
      run_calls diag hmode (Prod.ext rfl hstopped) (fun _ => le_rfl)
    have hi : ¬o.count % 2 ^ 32 < (o.moved o.count).count := by
      rw [Nat.mod_eq_of_lt hcount]
      exact lt_irrefl _
    refine ⟨o.count + 1, ?_⟩
    rw [run_succ]
    by_cases hend : (((o.moved o.count).error.or (diag (run handler diag o.count m).state)).isSome ||
        (o.moved o.count).done) = true
    · rw [step_leave hmode' hi hend]
      exact behind_leave hlater _ _
    · have hdecode : (run handler diag o.count m).stream.decode = m.stream.decode := by rw [hstream]
      rw [step_next hmode' hi hend]
      exact Or.inr ⟨rfl, Or.inr ⟨hlater, rfl, hdecode⟩⟩

def weight (m : Machine σ ρ κ ε) : Nat :=
  ((m.stream :: m.later).map (fun stream => stream.bytes.length + 1)).sum

/-- No opcode takes back bytes. -/
def Shortens (m : Machine σ ρ κ ε) : Prop :=
  ∀ stream ∈ m.stream :: m.later, ∀ r b bytes, (stream.decode r b bytes).rest.length ≤ bytes.length

lemma Behind.weight_lt {m' : Machine σ ρ κ ε} {b : UInt8} {bytes rest : List UInt8}
    (h : Behind m rest m') (hbytes : m.stream.bytes = b :: bytes) (hrest : rest.length ≤ bytes.length)
    (hshort : m.Shortens) : (∃ e, m'.mode = .ended e) ∨
      m'.mode = .opcodes ∧ m'.weight < m.weight ∧ m'.Shortens := by
  cases h with
  | inl h => exact Or.inl h
  | inr h =>
    refine Or.inr ⟨h.1, ?_⟩
    cases h.2 with
    | inl hlater =>
      rw [weight, weight, Shortens, hlater]
      simp only [List.map_cons, List.sum_cons]
      exact ⟨by omega, fun stream hs => hshort stream (by rw [hlater]; exact List.mem_cons_of_mem _ hs)⟩
    | inr hsame =>
      obtain ⟨hlater, hrest', hdecode⟩ := hsame
      rw [weight, weight, Shortens, hlater]
      simp only [List.map_cons, List.sum_cons, hrest', hbytes, List.length_cons]
      refine ⟨by omega, List.forall_mem_cons.mpr ⟨?_, fun stream hs => ?_⟩⟩
      · rw [hdecode]
        exact hshort m.stream List.mem_cons_self
      · exact hshort stream (List.mem_cons_of_mem _ hs)

lemma exists_ended (hmode : m.mode = .opcodes) (hshort : m.Shortens)
    (hends : ∀ n o, (run handler diag n m).mode = .calls o 0 0 →
      LoopEnds handler o (run handler diag n m).state) :
    ∃ n e, (run handler diag n m).mode = .ended e := by
  induction hw : m.weight using Nat.strong_induction_on generalizing m with
  | _ w ih =>
    -- from any machine that the run comes to with less left
    have hgo : ∀ k, (∃ e, (run handler diag k m).mode = .ended e) ∨
        (run handler diag k m).mode = .opcodes ∧ (run handler diag k m).weight < m.weight ∧
          (run handler diag k m).Shortens → ∃ n e, (run handler diag n m).mode = .ended e := by
      intro k h
      cases h with
      | inl h => exact ⟨k, h⟩
      | inr h =>
        have hlater : ∀ n o, (run handler diag n (run handler diag k m)).mode = .calls o 0 0 →
            LoopEnds handler o (run handler diag n (run handler diag k m)).state := by
          intro n o
          rw [← run_add]
          exact hends (k + n) o
        obtain ⟨n, e, hended⟩ := ih _ (hw ▸ h.2.1) h.1 h.2.2 hlater rfl
        exact ⟨k + n, e, by rw [run_add]; exact hended⟩
    cases hbytes : m.stream.bytes with
    | nil =>
      apply hgo 1
      rw [run_succ, run_zero, step_nil hmode hbytes]
      cases m.leave_cases none with
      | inl h => exact Or.inl h
      | inr h =>
        obtain ⟨stream, later, hcons, hopcodes, hstream, hlater⟩ := h
        refine Or.inr ⟨hopcodes, ?_, ?_⟩
        · rw [weight, weight, hstream, hlater, hcons, List.map_cons, List.map_cons, List.map_cons,
            List.sum_cons, List.sum_cons, List.sum_cons]
          omega
        · rw [Shortens, hstream, hlater, ← hcons]
          exact fun stream hs => hshort stream (List.mem_cons_of_mem _ hs)
    | cons b bytes =>
      have hstep : run handler diag 1 m = _ := step_cons hmode hbytes
      have hcalls : (run handler diag 1 m).mode =
          .calls (m.stream.decode m.stream.regs b bytes) 0 0 := by rw [hstep]
      obtain ⟨n, hbehind⟩ := exists_behind hcalls (hends 1 _ hcalls)
      rw [← run_add, hstep] at hbehind
      apply hgo (1 + n)
      exact Behind.weight_lt (m := m) hbehind hbytes
        (hshort m.stream List.mem_cons_self m.stream.regs b bytes) hshort

/-- A loop of calls has been entered, and the handler has not stopped since. -/
lemma exists_entry (hmode : m.mode = .opcodes) {n : Nat} {i made : Nat}
    (h : (run handler diag n m).mode = .calls o i made) :
    ∃ k o₀, (run handler diag k m).mode = .calls o₀ 0 0 ∧ o = o₀.moved made ∧ i = made % 2 ^ 32 ∧
      (o₀.count < 2 ^ 32 → made ≤ o₀.count) ∧
      runBody (fun k s => handler s k) (o₀.callsUpTo made) (run handler diag k m).state =
        ((run handler diag n m).state, false) := by
  induction n generalizing o i made with
  | zero => rw [run_zero, hmode] at h; simp at h
  | succ n ih =>
    have hleave : ∀ (m' : Machine σ ρ κ ε) error, (m'.leave error).mode ≠ .calls o i made := by
      intro m' error hcalls
      cases m'.leave_mode error with
      | inl h => simp [h] at hcalls
      | inr h => simp [h] at hcalls
    have hentry := h
    have hstep := stepped handler diag (run handler diag n m)
    rw [← run_succ] at hstep
    generalize hm' : run handler diag (n + 1) m = m' at hstep h ⊢
    cases hstep with
    | ended hmode =>
      rw [hmode] at h
      simp at h
    | last hmode hbytes => exact absurd h (hleave _ _)
    | opcode hmode hbytes =>
      injection h with ho hi hmade
      subst hi hmade
      refine ⟨n + 1, o, hentry, rfl, rfl, fun _ => Nat.zero_le _, ?_⟩
      rw [hm']
      rfl
    | stop hmode hi hstop => exact absurd h (hleave _ _)
    | call hmode hi hgo =>
      obtain ⟨k, o₀, hfirst, rfl, rfl, hle, hrun⟩ := ih hmode
      injection h with ho hi' hmade
      subst ho hi' hmade
      refine ⟨k, o₀, hfirst, Opcode.moved_succ o₀ _, Nat.mod_add_mod _ _ _, fun hcount => ?_, ?_⟩
      · rw [Nat.mod_eq_of_lt ((hle hcount).trans_lt hcount)] at hi
        exact hi
      · rw [Opcode.callsUpTo_succ]
        refine runBody_append_eq_iff.mpr ⟨_, hrun, ?_⟩
        exact (runBody_cons _ _ _).trans (if_neg hgo)
    | leave hmode hi hend => exact absurd h (hleave _ _)
    | next hmode hi hend => simp at h

variable (handler diag) in
theorem ends_within_iff (hmode : m.mode = .opcodes) (hshort : m.Shortens) :
    ((∃ n e, (run handler diag n m).mode = .ended e) ∧
        ∀ n o i made, (run handler diag n m).mode = .calls o i made → i < o.count → made < o.count) ↔
      ∀ n o, (run handler diag n m).mode = .calls o 0 0 →
        LoopEnds handler o (run handler diag n m).state := by
  constructor
  · rintro ⟨-, hcalls⟩ n o hentry
    by_contra hnot
    obtain ⟨hcount, hrun⟩ := not_or.mp hnot
    rw [Bool.not_eq_true] at hrun
    obtain ⟨hmode', -⟩ := run_calls diag hentry (Prod.ext rfl hrun) (fun h => absurd h hcount)
    rw [← run_add] at hmode'
    have hi : o.count % 2 ^ 32 < (o.moved o.count).count :=
      (Nat.mod_lt _ (by norm_num)).trans_le (not_lt.mp hcount)
    exact lt_irrefl _ (hcalls _ _ _ _ hmode' hi)
  · intro hends
    refine ⟨exists_ended hmode hshort hends, fun n o i made hcalls hi => ?_⟩
    obtain ⟨k, o₀, hentry, rfl, rfl, hle, hrun⟩ := exists_entry hmode hcalls
    change made % 2 ^ 32 < o₀.count at hi
    change made < o₀.count
    cases hends k o₀ hentry with
    | inl hcount =>
      rw [Nat.mod_eq_of_lt ((hle hcount).trans_lt hcount)] at hi
      exact hi
    | inr hstopped =>
      by_contra hge
      obtain ⟨j, rfl⟩ := Nat.exists_eq_add_of_le (not_lt.mp hge)
      rw [Opcode.callsUpTo_add] at hrun
      obtain ⟨t, ht, -⟩ := runBody_append_eq_iff.mp hrun
      rw [ht] at hstopped
      simp at hstopped

/-- With a handler whose stops depend on the call alone, a loop ends when it comes to a call of that
kind within its bound. -/
lemma loopEnds_iff {bad : κ → Bool} (h : ∀ s k, (handler s k).2 = bad k) {o : Opcode ρ κ ε} {s : σ} :
    LoopEnds handler o s ↔
      o.count < 2 ^ 32 ∨ ∃ n < o.count, bad (o.call (o.next^[n] o.regs)) = true := by
  have hstops : ∀ (l : List κ) s,
      (runBody (fun k s => handler s k) l s).2 = true ↔ ∃ k ∈ l, bad k = true := by
    intro l
    induction l with
    | nil => simp
    | cons k l ih =>
      intro s
      rw [runBody_cons, List.exists_mem_cons_iff, ← h s k]
      by_cases hstop : (handler s k).2 = true
      · simp [hstop]
      · rw [if_neg hstop, ih]
        simp [hstop]
  rw [LoopEnds, hstops]
  simp only [Opcode.callsUpTo, List.mem_map, List.mem_iterate]
  apply or_congr_right
  constructor
  · rintro ⟨k, ⟨r, ⟨n, hn, rfl⟩, rfl⟩, hbad⟩
    exact ⟨n, hn, hbad⟩
  · rintro ⟨n, hn, hbad⟩
    exact ⟨_, ⟨_, ⟨n, hn, rfl⟩, rfl⟩, hbad⟩

end Machine

end Dyld.Lib
