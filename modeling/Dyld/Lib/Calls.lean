import Dyld.Lib.Opcodes

/-!
# Opcode streams that call a handler

A machine that goes through opcode streams, one after the other, and calls a handler for what they
ask for. A step takes up an opcode or makes one turn of its loop of calls. The counter of that loop
has 32 bits while its bound may be larger, so a run need not end.
-/

namespace Dyld.Lib

/-- What an opcode does. It calls the handler in a loop up to `count`, with what `call` makes of the
registers, and `next` moves the registers on after each call. `outside` tells that it reads a byte
that is not in the stream. -/
structure Opcode (ρ κ ε : Type) where
  regs : ρ
  rest : List UInt8
  call : ρ → κ
  count : Nat := 0
  next : ρ → ρ := id
  error : Option ε := none
  done : Bool := false
  outside : Bool := false

/-- A stream with the registers at its start. -/
structure OpcodeStream (ρ κ ε : Type) where
  regs : ρ
  bytes : List UInt8
  decode : ρ → UInt8 → List UInt8 → Opcode ρ κ ε

/-- Between two opcodes, in the loop of calls of an opcode with its counter and the calls `made` so far,
or at the end. -/
inductive Mode (ρ κ ε : Type)
  | opcodes
  | calls (o : Opcode ρ κ ε) (i made : Nat)
  | ended (error : Option ε)

/-- The stream is what is left of the one that is interpreted. The machine keeps a log of its calls. -/
structure Machine (σ ρ κ ε : Type) where
  mode : Mode ρ κ ε
  stream : OpcodeStream ρ κ ε
  later : List (OpcodeStream ρ κ ε)
  state : σ
  log : List κ := []
  outside : Bool := false

namespace Machine

variable {σ τ ρ κ ε : Type}

def start (stream : OpcodeStream ρ κ ε) (later : List (OpcodeStream ρ κ ε)) (s : σ) : Machine σ ρ κ ε where
  mode := .opcodes
  stream := stream
  later := later
  state := s

/-- The loop over the opcodes is left. Without an error the next stream is interpreted. -/
def leave (m : Machine σ ρ κ ε) (error : Option ε) : Machine σ ρ κ ε :=
  match error, m.later with
  | some e, _ => { m with mode := .ended (some e) }
  | none, [] => { m with mode := .ended none }
  | none, stream :: later => { m with mode := .opcodes, stream := stream, later := later }

def callHandler (handler : σ → κ → σ × Bool) (m : Machine σ ρ κ ε) (k : κ) : Machine σ ρ κ ε :=
  { m with state := (handler m.state k).1, log := m.log ++ [k] }

variable (handler : σ → κ → σ × Bool) (diag : σ → Option ε)

/-- A step. `diag` is the error that the handler itself has noted. -/
def step (m : Machine σ ρ κ ε) : Machine σ ρ κ ε :=
  match m.mode with
  | .ended _ => m
  | .opcodes =>
    match m.stream.bytes with
    | [] => m.leave none
    | b :: bytes =>
      let o := m.stream.decode m.stream.regs b bytes
      { m with mode := .calls o 0 0, outside := m.outside || o.outside }
  | .calls o i made =>
    if i < o.count then
      let m' := m.callHandler handler (o.call o.regs)
      if (handler m.state (o.call o.regs)).2 then m'.leave (o.error.or (diag m'.state))
      else { m' with mode := .calls { o with regs := o.next o.regs } ((i + 1) % 2 ^ 32) (made + 1) }
    else if (o.error.or (diag m.state)).isSome || o.done then m.leave (o.error.or (diag m.state))
    else { m with mode := .opcodes, stream := { m.stream with regs := o.regs, bytes := o.rest } }

def run (n : Nat) (m : Machine σ ρ κ ε) : Machine σ ρ κ ε := (step handler diag)^[n] m

/-- The handler that does nothing and never stops. -/
def never : Unit → κ → Unit × Bool := fun _ _ => ((), false)

def silentRun (n : Nat) (m : Machine Unit ρ κ ε) : Machine Unit ρ κ ε := run never (fun _ => none) n m

def forget (m : Machine σ ρ κ ε) : Machine Unit ρ κ ε := { m with state := () }

def Calls (m : Machine σ ρ κ ε) : Prop := ∃ o i made, m.mode = .calls o i made ∧ i < o.count

def Stops (m : Machine σ ρ κ ε) : Prop :=
  ∃ o i made, m.mode = .calls o i made ∧ i < o.count ∧ (handler m.state (o.call o.regs)).2 = true

variable {handler diag} {m : Machine σ ρ κ ε}

/-! ### Steps -/

lemma run_zero : run handler diag 0 m = m := rfl

lemma run_one : run handler diag 1 m = step handler diag m := rfl

lemma run_succ (n : Nat) : run handler diag (n + 1) m = step handler diag (run handler diag n m) :=
  Function.iterate_succ_apply' _ _ _

lemma run_add (n k : Nat) : run handler diag (n + k) m = run handler diag k (run handler diag n m) := by
  rw [run, Nat.add_comm, Function.iterate_add_apply]
  rfl

lemma step_ended {error : Option ε} (h : m.mode = .ended error) : step handler diag m = m := by
  rw [step, h]

lemma run_ended {error : Option ε} (h : m.mode = .ended error) (n : Nat) : run handler diag n m = m := by
  induction n with
  | zero => rfl
  | succ n ih => rw [run_succ, ih, step_ended h]

lemma step_nil (h : m.mode = .opcodes) (hbytes : m.stream.bytes = []) :
    step handler diag m = m.leave none := by
  simp only [step, h, hbytes]

lemma step_cons (h : m.mode = .opcodes) {b : UInt8} {bytes : List UInt8}
    (hbytes : m.stream.bytes = b :: bytes) :
    step handler diag m =
      { m with mode := .calls (m.stream.decode m.stream.regs b bytes) 0 0,
               outside := m.outside || (m.stream.decode m.stream.regs b bytes).outside } := by
  simp only [step, h, hbytes]

section Loop

variable {o : Opcode ρ κ ε} {i made : Nat} (h : m.mode = .calls o i made)
include h

lemma step_stop (hi : i < o.count) (hstop : (handler m.state (o.call o.regs)).2 = true) :
    step handler diag m = (m.callHandler handler (o.call o.regs)).leave
      (o.error.or (diag (m.callHandler handler (o.call o.regs)).state)) := by
  simp only [step, h, if_pos hi, if_pos hstop]

lemma step_call (hi : i < o.count) (hstop : ¬(handler m.state (o.call o.regs)).2 = true) :
    step handler diag m =
      { m.callHandler handler (o.call o.regs) with
        mode := .calls { o with regs := o.next o.regs } ((i + 1) % 2 ^ 32) (made + 1) } := by
  simp only [step, h, if_pos hi, if_neg hstop]

lemma step_leave (hi : ¬i < o.count)
    (hend : ((o.error.or (diag m.state)).isSome || o.done) = true) :
    step handler diag m = m.leave (o.error.or (diag m.state)) := by
  simp only [step, h, if_neg hi, if_pos hend]

lemma step_next (hi : ¬i < o.count)
    (hend : ¬((o.error.or (diag m.state)).isSome || o.done) = true) :
    step handler diag m =
      { m with mode := .opcodes, stream := { m.stream with regs := o.regs, bytes := o.rest } } := by
  simp only [step, h, if_neg hi, if_neg hend]

end Loop

@[simp] lemma leave_log (error : Option ε) : (m.leave error).log = m.log := by
  rw [leave.eq_def]
  split <;> rfl

@[simp] lemma leave_state (error : Option ε) : (m.leave error).state = m.state := by
  rw [leave.eq_def]
  split <;> rfl

@[simp] lemma leave_outside (error : Option ε) : (m.leave error).outside = m.outside := by
  rw [leave.eq_def]
  split <;> rfl

lemma forget_leave (error : Option ε) : (m.leave error).forget = m.forget.leave error := by
  cases error with
  | some e => rfl
  | none =>
    cases hlater : m.later with
    | nil => simp only [leave, forget, hlater]
    | cons stream later => simp only [leave, forget, hlater]

lemma leave_some_mode (e : ε) : (m.leave (some e)).mode = .ended (some e) := rfl

/-- A loop of calls is only entered from the opcodes. -/
lemma leave_mode (error : Option ε) :
    (m.leave error).mode = .opcodes ∨ (m.leave error).mode = .ended error := by
  rw [leave.eq_def]
  split
  · exact Or.inr rfl
  · exact Or.inr rfl
  · exact Or.inl rfl

variable (handler diag) in
inductive Stepped (m : Machine σ ρ κ ε) : Machine σ ρ κ ε → Prop
  | ended {error : Option ε} (hmode : m.mode = .ended error) : Stepped m m
  | last (hmode : m.mode = .opcodes) (hbytes : m.stream.bytes = []) : Stepped m (m.leave none)
  | opcode {b : UInt8} {bytes : List UInt8} (hmode : m.mode = .opcodes)
      (hbytes : m.stream.bytes = b :: bytes) :
      Stepped m { m with mode := .calls (m.stream.decode m.stream.regs b bytes) 0 0,
                         outside := m.outside || (m.stream.decode m.stream.regs b bytes).outside }
  | stop {o : Opcode ρ κ ε} {i made : Nat} (hmode : m.mode = .calls o i made) (hi : i < o.count)
      (hstop : (handler m.state (o.call o.regs)).2 = true) :
      Stepped m ((m.callHandler handler (o.call o.regs)).leave
        (o.error.or (diag (m.callHandler handler (o.call o.regs)).state)))
  | call {o : Opcode ρ κ ε} {i made : Nat} (hmode : m.mode = .calls o i made) (hi : i < o.count)
      (hgo : ¬(handler m.state (o.call o.regs)).2 = true) :
      Stepped m { m.callHandler handler (o.call o.regs) with
        mode := .calls { o with regs := o.next o.regs } ((i + 1) % 2 ^ 32) (made + 1) }
  | leave {o : Opcode ρ κ ε} {i made : Nat} (hmode : m.mode = .calls o i made) (hi : ¬i < o.count)
      (hend : ((o.error.or (diag m.state)).isSome || o.done) = true) :
      Stepped m (m.leave (o.error.or (diag m.state)))
  | next {o : Opcode ρ κ ε} {i made : Nat} (hmode : m.mode = .calls o i made) (hi : ¬i < o.count)
      (hend : ¬((o.error.or (diag m.state)).isSome || o.done) = true) :
      Stepped m { m with mode := .opcodes, stream := { m.stream with regs := o.regs, bytes := o.rest } }

lemma stepped (handler : σ → κ → σ × Bool) (diag : σ → Option ε) (m : Machine σ ρ κ ε) :
    Stepped handler diag m (step handler diag m) := by
  cases hmode : m.mode with
  | ended error =>
    rw [step_ended hmode]
    exact Stepped.ended hmode
  | opcodes =>
    cases hbytes : m.stream.bytes with
    | nil =>
      rw [step_nil hmode hbytes]
      exact Stepped.last hmode hbytes
    | cons b bytes =>
      rw [step_cons hmode hbytes]
      exact Stepped.opcode hmode hbytes
  | calls o i made =>
    by_cases hi : i < o.count
    · by_cases hstop : (handler m.state (o.call o.regs)).2 = true
      · rw [step_stop hmode hi hstop]
        exact Stepped.stop hmode hi hstop
      · rw [step_call hmode hi hstop]
        exact Stepped.call hmode hi hstop
    · by_cases hend : ((o.error.or (diag m.state)).isSome || o.done) = true
      · rw [step_leave hmode hi hend]
        exact Stepped.leave hmode hi hend
      · rw [step_next hmode hi hend]
        exact Stepped.next hmode hi hend

/-! ### Logs -/

lemma step_log_of_calls {o : Opcode ρ κ ε} {i made : Nat} (h : m.mode = .calls o i made)
    (hi : i < o.count) : (step handler diag m).log = m.log ++ [o.call o.regs] := by
  by_cases hstop : (handler m.state (o.call o.regs)).2 = true
  · rw [step_stop h hi hstop, leave_log]
    rfl
  · rw [step_call h hi hstop]
    rfl

lemma Stepped.same_of_not_calls {m' : Machine σ ρ κ ε} (hstep : Stepped handler diag m m')
    (h : ¬m.Calls) : m'.log = m.log ∧ m'.state = m.state := by
  cases hstep with
  | ended hmode => exact ⟨rfl, rfl⟩
  | last hmode hbytes => exact ⟨leave_log none, leave_state none⟩
  | opcode hmode hbytes => exact ⟨rfl, rfl⟩
  | stop hmode hi hstop => exact absurd ⟨_, _, _, hmode, hi⟩ h
  | call hmode hi hgo => exact absurd ⟨_, _, _, hmode, hi⟩ h
  | leave hmode hi hend => exact ⟨leave_log _, leave_state _⟩
  | next hmode hi hend => exact ⟨rfl, rfl⟩

lemma step_log_of_not_calls (h : ¬m.Calls) : (step handler diag m).log = m.log :=
  ((stepped handler diag m).same_of_not_calls h).1

lemma step_state_of_not_calls (h : ¬m.Calls) : (step handler diag m).state = m.state :=
  ((stepped handler diag m).same_of_not_calls h).2

lemma step_log_prefix : m.log <+: (step handler diag m).log := by
  by_cases h : m.Calls
  · obtain ⟨o, i, made, hmode, hi⟩ := h
    rw [step_log_of_calls hmode hi]
    exact List.prefix_append _ _
  · rw [step_log_of_not_calls h]

lemma run_log_prefix (n : Nat) : m.log <+: (run handler diag n m).log := by
  induction n with
  | zero => exact List.prefix_rfl
  | succ n ih =>
    rw [run_succ]
    exact ih.trans step_log_prefix

lemma not_calls_of_log (h : ∀ n, (run handler diag n m).log = m.log) (n : Nat) :
    ¬(run handler diag n m).Calls := by
  rintro ⟨o, i, made, hmode, hi⟩
  have hlog : (run handler diag (n + 1) m).log = (run handler diag n m).log ++ [o.call o.regs] := by
    rw [run_succ]
    exact step_log_of_calls hmode hi
  rw [h, h] at hlog
  simp at hlog

lemma Stops.calls (h : m.Stops handler) : m.Calls := by
  obtain ⟨o, i, made, hmode, hi, -⟩ := h
  exact ⟨o, i, made, hmode, hi⟩

lemma Stepped.outside {m' : Machine σ ρ κ ε} (hstep : Stepped handler diag m m')
    (hm : m.outside = false)
    (hopcode : ∀ b bytes, m.mode = .opcodes → m.stream.bytes = b :: bytes →
      (m.stream.decode m.stream.regs b bytes).outside = false) : m'.outside = false := by
  cases hstep with
  | ended hmode => exact hm
  | last hmode hbytes => rw [leave_outside, hm]
  | opcode hmode hbytes => exact Bool.or_eq_false_iff.mpr ⟨hm, hopcode _ _ hmode hbytes⟩
  | stop hmode hi hstop =>
    rw [leave_outside]
    exact hm
  | call hmode hi hgo => exact hm
  | leave hmode hi hend => rw [leave_outside, hm]
  | next hmode hi hend => exact hm

/-- Nothing outside is read exactly when no opcode that is taken up reads outside. -/
lemma outside_iff (hm : m.outside = false) :
    (∀ n, (run handler diag n m).outside = false) ↔
      ∀ n b bytes, (run handler diag n m).mode = .opcodes →
        (run handler diag n m).stream.bytes = b :: bytes →
          ((run handler diag n m).stream.decode (run handler diag n m).stream.regs b bytes).outside =
            false := by
  constructor
  · intro h n b bytes hmode hbytes
    have hnext := h (n + 1)
    rw [run_succ, step_cons hmode hbytes] at hnext
    exact (Bool.or_eq_false_iff.mp hnext).2
  · intro h n
    induction n with
    | zero => exact hm
    | succ n ih =>
      rw [run_succ]
      exact (stepped handler diag _).outside ih (h n)

/-- Opcodes that read nothing outside keep the registers good, and make only good calls of them. -/
def Keeps (P : ρ → Prop) (Q : κ → Prop) (decode : ρ → UInt8 → List UInt8 → Opcode ρ κ ε) : Prop :=
  ∀ r b bytes, P r → (decode r b bytes).outside = false →
    P (decode r b bytes).regs ∧ (∀ r', P r' → P ((decode r b bytes).next r')) ∧
      ∀ r', P r' → Q ((decode r b bytes).call r')

structure Good (P : ρ → Prop) (Q : κ → Prop) (m : Machine σ ρ κ ε) : Prop where
  log : ∀ k ∈ m.log, Q k
  streams : ∀ stream ∈ m.stream :: m.later, P stream.regs ∧ Keeps P Q stream.decode
  opcode : ∀ o i made, m.mode = .calls o i made →
    P o.regs ∧ (∀ r, P r → P (o.next r)) ∧ ∀ r, P r → Q (o.call r)

section Good

variable {P : ρ → Prop} {Q : κ → Prop}

lemma Good.leave (h : Good P Q m) (error : Option ε) : Good P Q (m.leave error) := by
  have hcalls : ∀ o i made, (m.leave error).mode ≠ .calls o i made := by
    intro o i made hmode
    cases m.leave_mode error with
    | inl h => simp [h] at hmode
    | inr h => simp [h] at hmode
  refine ⟨by rw [leave_log]; exact h.log, ?_, fun o i made hmode => absurd hmode (hcalls o i made)⟩
  cases error with
  | some e => exact h.streams
  | none =>
    cases hlater : m.later with
    | nil =>
      have hsame : m.leave none = { m with mode := .ended none } := by simp only [Machine.leave, hlater]
      rw [hsame]
      exact h.streams
    | cons stream later =>
      have hnext : m.leave none = { m with mode := .opcodes, stream := stream, later := later } := by
        simp only [Machine.leave, hlater]
      rw [hnext]
      exact fun st hst => h.streams st (by rw [hlater]; exact List.mem_cons_of_mem _ hst)

lemma Good.callHandler (h : Good P Q m) {k : κ} (hk : Q k) : Good P Q (m.callHandler handler k) where
  log := by
    intro k' hk'
    cases List.mem_append.mp hk' with
    | inl hk' => exact h.log k' hk'
    | inr hk' => rw [List.mem_singleton.mp hk']; exact hk
  streams := h.streams
  opcode := h.opcode

lemma Good.step {m' : Machine σ ρ κ ε} (h : Good P Q m) (hstep : Stepped handler diag m m')
    (hinside : m'.outside = false) : Good P Q m' := by
  cases hstep with
  | ended hmode => exact h
  | last hmode hbytes => exact h.leave none
  | opcode hmode hbytes =>
    have hstream := h.streams m.stream List.mem_cons_self
    have hopcode := hstream.2 m.stream.regs _ _ hstream.1 (Bool.or_eq_false_iff.mp hinside).2
    refine ⟨h.log, h.streams, fun o i made heq => ?_⟩
    injection heq with ho _ _
    rw [← ho]
    exact hopcode
  | stop hmode hi hstop =>
    obtain ⟨hregs, -, hcall⟩ := h.opcode _ _ _ hmode
    exact (h.callHandler (hcall _ hregs)).leave _
  | call hmode hi hgo =>
    obtain ⟨hregs, hnext, hcall⟩ := h.opcode _ _ _ hmode
    have hlogged : Good P Q (m.callHandler handler _) := h.callHandler (hcall _ hregs)
    refine ⟨hlogged.log, hlogged.streams, fun o' i' made' heq => ?_⟩
    injection heq with ho _ _
    rw [← ho]
    exact ⟨hnext _ hregs, hnext, hcall⟩
  | leave hmode hi hend => exact h.leave _
  | next hmode hi hend =>
    obtain ⟨hregs, -, -⟩ := h.opcode _ _ _ hmode
    refine ⟨h.log, List.forall_mem_cons.mpr ⟨⟨hregs, ?_⟩, ?_⟩, fun o' i' made' heq => ?_⟩
    · exact (h.streams m.stream List.mem_cons_self).2
    · exact fun st hst => h.streams st (List.mem_cons_of_mem _ hst)
    · simp at heq

/-- A run that reads nothing outside makes good calls. -/
lemma Good.run (h : Good P Q m) (hinside : ∀ n, (run handler diag n m).outside = false) (n : Nat) :
    Good P Q (run handler diag n m) := by
  induction n with
  | zero => exact h
  | succ n ih =>
    have hnext := hinside (n + 1)
    rw [run_succ] at hnext ⊢
    exact ih.step (stepped handler diag _) hnext

end Good

lemma leave_later (error : Option ε) : (m.leave error).later <:+ m.later := by
  cases error with
  | some e => exact List.suffix_rfl
  | none =>
    cases hlater : m.later with
    | nil => simp only [leave, hlater, List.suffix_rfl]
    | cons stream later =>
      simp only [leave, hlater]
      exact List.suffix_cons _ _

lemma Stepped.later {m' : Machine σ ρ κ ε} (hstep : Stepped handler diag m m') :
    m'.later <:+ m.later := by
  cases hstep with
  | ended hmode => exact List.suffix_rfl
  | last hmode hbytes => exact leave_later none
  | opcode hmode hbytes => exact List.suffix_rfl
  | stop hmode hi hstop => exact leave_later _
  | call hmode hi hgo => exact List.suffix_rfl
  | leave hmode hi hend => exact leave_later _
  | next hmode hi hend => exact List.suffix_rfl

lemma run_later (n : Nat) : (run handler diag n m).later <:+ m.later := by
  induction n with
  | zero => exact List.suffix_rfl
  | succ n ih =>
    rw [run_succ]
    exact (stepped handler diag _).later.trans ih

lemma mem_log_iff (hempty : m.log = []) {k : κ} :
    (∃ n, k ∈ (run handler diag n m).log) ↔
      ∃ n o i made, (run handler diag n m).mode = .calls o i made ∧ i < o.count ∧ o.call o.regs = k := by
  constructor
  · rintro ⟨n, hk⟩
    induction n with
    | zero => rw [run_zero, hempty] at hk; simp at hk
    | succ n ih =>
      rw [run_succ] at hk
      by_cases hcalls : (run handler diag n m).Calls
      · obtain ⟨o, i, made, hmode, hi⟩ := hcalls
        rw [step_log_of_calls hmode hi, List.mem_append, List.mem_singleton] at hk
        cases hk with
        | inl hk => exact ih hk
        | inr hk => exact ⟨n, o, i, made, hmode, hi, hk.symm⟩
      · rw [step_log_of_not_calls hcalls] at hk
        exact ih hk
  · rintro ⟨n, o, i, made, hmode, hi, rfl⟩
    refine ⟨n + 1, ?_⟩
    rw [run_succ, step_log_of_calls hmode hi]
    exact List.mem_append_right _ (List.mem_singleton.mpr rfl)

lemma run_eq_of_ended {n k : Nat} {e e' : Option ε} (hn : (run handler diag n m).mode = .ended e)
    (hk : (run handler diag k m).mode = .ended e') : run handler diag n m = run handler diag k m := by
  cases Nat.le_total n k with
  | inl hle =>
    obtain ⟨j, rfl⟩ := Nat.exists_eq_add_of_le hle
    rw [run_add, run_ended hn]
  | inr hle =>
    obtain ⟨j, rfl⟩ := Nat.exists_eq_add_of_le hle
    rw [run_add, run_ended hk]

/-! ### Runs with different handlers -/

lemma forget_step (hstop : ¬m.Stops handler) (hdiag : diag m.state = none) :
    (step handler diag m).forget = step never (fun _ => none) m.forget := by
  have hstep := stepped handler diag m
  generalize step handler diag m = m' at hstep ⊢
  cases hstep with
  | ended hmode => exact (step_ended (m := m.forget) hmode).symm
  | last hmode hbytes =>
    rw [step_nil (m := m.forget) hmode hbytes]
    exact forget_leave none
  | opcode hmode hbytes => exact (step_cons (m := m.forget) hmode hbytes).symm
  | stop hmode hi hstopped => exact absurd ⟨_, _, _, hmode, hi, hstopped⟩ hstop
  | call hmode hi hgo => exact (step_call (m := m.forget) hmode hi (by simp [never])).symm
  | leave hmode hi hend =>
    rw [hdiag] at hend ⊢
    rw [step_leave (m := m.forget) hmode hi hend]
    exact forget_leave _
  | next hmode hi hend =>
    rw [hdiag] at hend
    exact (step_next (m := m.forget) hmode hi hend).symm

lemma forget_run {n : Nat} (hstop : ∀ k < n, ¬(run handler diag k m).Stops handler)
    (hdiag : ∀ k < n, diag (run handler diag k m).state = none) :
    (run handler diag n m).forget = silentRun n m.forget := by
  induction n with
  | zero => rfl
  | succ n ih =>
    rw [run_succ, forget_step (hstop n n.lt_succ_self) (hdiag n n.lt_succ_self),
      ih (fun k hk => hstop k (hk.trans n.lt_succ_self)) (fun k hk => hdiag k (hk.trans n.lt_succ_self))]
    exact (run_succ n).symm

/-- A handler that checks the calls and never stops has found them all right, and the run is one of any
handler. -/
lemma run_checked {E : Type} {check : Option E → κ → Option E × Bool} {diag : Option E → Option ε}
    {m : Machine (Option E) ρ κ ε} (hcheck : ∀ k, (check none k).2 = false → (check none k).1 = none)
    (hdiag : diag none = none) (hstate : m.state = none) (hempty : m.log = [])
    (hstop : ∀ n, ¬(run check diag n m).Stops check) (n : Nat) :
    (run check diag n m).forget = silentRun n m.forget ∧
      ∀ k ∈ (run check diag n m).log, (check none k).2 = false := by
  have hall : ∀ n, (run check diag n m).state = none ∧
      ∀ k ∈ (run check diag n m).log, (check none k).2 = false := by
    intro n
    induction n with
    | zero => exact ⟨hstate, fun k hk => absurd hk (by rw [run_zero, hempty]; simp)⟩
    | succ n ih =>
      have hgo := hstop n
      rw [run_succ]
      generalize run check diag n m = m' at ih hgo ⊢
      obtain ⟨hnone, hlog⟩ := ih
      by_cases hcalls : m'.Calls
      · obtain ⟨o, i, made, hmode, hi⟩ := hcalls
        have hfine : (check none (o.call o.regs)).2 = false := by
          rw [← hnone]
          exact Bool.eq_false_iff.mpr (fun h => hgo ⟨o, i, made, hmode, hi, h⟩)
        have hcall : ¬(check m'.state (o.call o.regs)).2 = true := by
          rw [hnone, hfine]
          simp
        rw [step_log_of_calls hmode hi, step_call hmode hi hcall]
        refine ⟨?_, fun k hk => ?_⟩
        · change (check m'.state (o.call o.regs)).1 = none
          rw [hnone]
          exact hcheck _ hfine
        · cases List.mem_append.mp hk with
          | inl hk => exact hlog k hk
          | inr hk => rw [List.mem_singleton.mp hk]; exact hfine
      · rw [step_log_of_not_calls hcalls]
        exact ⟨(step_state_of_not_calls hcalls).trans hnone, hlog⟩
  exact ⟨forget_run (fun k _ => hstop k) (fun k _ => by rw [(hall k).1, hdiag]), (hall n).2⟩

/-- A machine that makes no calls with one handler makes none with another. -/
lemma log_run_of_silentRun (h : ∀ n, (silentRun n m.forget).log = m.log) (n : Nat) :
    (run handler (fun _ => none) n m).log = m.log ∧
      (run handler (fun _ => none) n m).forget = silentRun n m.forget := by
  induction n with
  | zero => exact ⟨rfl, rfl⟩
  | succ n ih =>
    have hcalls : ¬(run handler (fun _ => none) n m).Calls := by
      intro hcalls
      have hsilent : (run handler (fun _ => none) n m).forget.Calls := hcalls
      rw [ih.2] at hsilent
      exact not_calls_of_log h n hsilent
    have hstop : ¬(run handler (fun _ => none) n m).Stops handler := fun hstop => hcalls hstop.calls
    rw [run_succ, step_log_of_not_calls hcalls, forget_step hstop rfl, ih.2]
    exact ⟨ih.1, (run_succ n).symm⟩

lemma log_silentRun_of_run (h : ∀ n, (run handler (fun _ => none) n m).log = m.log) (n : Nat) :
    (silentRun n m.forget).log = m.log := by
  have hforget : (run handler (fun _ => none) n m).forget = silentRun n m.forget :=
    forget_run (fun k _ hstop => not_calls_of_log h k hstop.calls) (fun _ _ => rfl)
  rw [← hforget]
  exact h n

def frame (l : List κ) (outside : Bool) (m : Machine σ ρ κ ε) : Machine σ ρ κ ε :=
  { m with log := l ++ m.log, outside := outside || m.outside }

@[simp] lemma frame_log (l : List κ) (outside : Bool) : (m.frame l outside).log = l ++ m.log := rfl

lemma leave_frame (l : List κ) (outside : Bool) (error : Option ε) :
    (m.frame l outside).leave error = (m.leave error).frame l outside := by
  cases error with
  | some e => rfl
  | none =>
    cases hlater : m.later with
    | nil => simp only [leave, frame, hlater]
    | cons stream later => simp only [leave, frame, hlater]

lemma callHandler_frame (l : List κ) (outside : Bool) (k : κ) :
    (m.frame l outside).callHandler handler k = (m.callHandler handler k).frame l outside := by
  simp [callHandler, frame]

lemma step_frame (l : List κ) (outside : Bool) :
    step handler diag (m.frame l outside) = (step handler diag m).frame l outside := by
  have hstep := stepped handler diag m
  generalize step handler diag m = m' at hstep ⊢
  cases hstep with
  | ended hmode => exact step_ended (m := m.frame l outside) hmode
  | last hmode hbytes => rw [step_nil (m := m.frame l outside) hmode hbytes, leave_frame]
  | opcode hmode hbytes =>
    rw [step_cons (m := m.frame l outside) hmode hbytes]
    simp [frame, Bool.or_assoc]
  | stop hmode hi hstop =>
    rw [step_stop (m := m.frame l outside) hmode hi hstop, callHandler_frame, leave_frame]
    rfl
  | call hmode hi hgo =>
    rw [step_call (m := m.frame l outside) hmode hi hgo, callHandler_frame]
    rfl
  | leave hmode hi hend =>
    rw [step_leave (m := m.frame l outside) hmode hi hend, leave_frame]
    rfl
  | next hmode hi hend =>
    rw [step_next (m := m.frame l outside) hmode hi hend]
    rfl

lemma run_frame (l : List κ) (outside : Bool) (n : Nat) :
    run handler diag n (m.frame l outside) = (run handler diag n m).frame l outside := by
  induction n with
  | zero => rfl
  | succ n ih => rw [run_succ, ih, step_frame, run_succ]

end Machine

/-! ### Stopping -/

def NoCalls {ρ κ ε : Type} : List (OpcodeStream ρ κ ε) → Prop
  | [] => True
  | stream :: later => ∀ n, (Machine.silentRun n (Machine.start stream later ())).log = []

namespace Machine

variable {σ ρ κ ε : Type} (handler : σ → κ → σ × Bool) {m : Machine σ ρ κ ε}

def upToStop : List κ → σ → List κ
  | [], _ => []
  | k :: ks, s => if (handler s k).2 then [k] else k :: upToStop ks (handler s k).1

variable {handler}

lemma upToStop_append {l : List κ} {s s' : σ} (h : runBody (fun k s => handler s k) l s = (s', false))
    (l' : List κ) : upToStop handler (l ++ l') s = l ++ upToStop handler l' s' := by
  induction l generalizing s with
  | nil =>
    rw [runBody_nil, Prod.mk.injEq] at h
    rw [h.1]
    rfl
  | cons k ks ih =>
    rw [runBody_cons] at h
    by_cases hstop : (handler s k).2 = true
    · simp [hstop] at h
    · rw [if_neg hstop] at h
      rw [List.cons_append, upToStop, if_neg hstop, ih h, List.cons_append]

lemma runBody_log {diag : σ → Option ε} {s : σ}
    (hlog : runBody (fun k s => handler s k) m.log s = (m.state, false)) {n : Nat}
    (hstop : ∀ k < n, ¬(run handler diag k m).Stops handler) :
    runBody (fun k s => handler s k) (run handler diag n m).log s = ((run handler diag n m).state, false) := by
  induction n with
  | zero => exact hlog
  | succ n ih =>
    have hn := ih (fun k hk => hstop k (hk.trans n.lt_succ_self))
    have hgo := hstop n n.lt_succ_self
    rw [run_succ]
    have hstep := stepped handler diag (run handler diag n m)
    generalize step handler diag (run handler diag n m) = m' at hstep ⊢
    cases hstep with
    | ended hmode => exact hn
    | last hmode hbytes => rw [leave_log, leave_state, hn]
    | opcode hmode hbytes => exact hn
    | stop hmode hi hstopped => exact absurd ⟨_, _, _, hmode, hi, hstopped⟩ hgo
    | call hmode hi hcall =>
      refine runBody_append_eq_iff.mpr ⟨_, hn, ?_⟩
      rw [runBody_cons, if_neg hcall]
      rfl
    | leave hmode hi hend => rw [leave_log, leave_state, hn]
    | next hmode hi hend => exact hn

variable (handler) in
/-- Whenever the handler stops and the opcode has no error, the streams behind it make no calls. -/
def StopHonoured (m : Machine σ ρ κ ε) : Prop :=
  ∀ n o i made, (run handler (fun _ => none) n m).mode = .calls o i made → i < o.count →
    (handler (run handler (fun _ => none) n m).state (o.call o.regs)).2 = true → o.error = none →
      NoCalls (run handler (fun _ => none) n m).later

lemma noCalls_iff : NoCalls m.later ↔ ∀ n, (silentRun n (m.leave none).forget).log = m.log := by
  rw [forget_leave]
  cases hlater : m.later with
  | nil =>
    have hended : (m.forget.leave none).mode = .ended none := by
      have hnil : m.forget.later = [] := hlater
      simp only [leave, hnil]
    refine iff_of_true trivial (fun n => ?_)
    rw [silentRun, run_ended hended, leave_log]
    rfl
  | cons stream later =>
    have hframe : m.forget.leave none = (start stream later ()).frame m.log m.outside := by
      have hcons : m.forget.later = stream :: later := hlater
      simp only [leave, hcons]
      simp [start, frame, forget]
    rw [hframe]
    simp only [NoCalls, silentRun, run_frame, frame_log, List.append_right_eq_self]

section FirstStop

variable {n : Nat} {o : Opcode ρ κ ε} {i made : Nat}
  (hmode : (run handler (fun _ => none) n m).mode = .calls o i made) (hi : i < o.count)
  (hstop : (handler (run handler (fun _ => none) n m).state (o.call o.regs)).2 = true)
include hmode hi hstop

lemma upToStop_of_first {s : σ} (hlog : runBody (fun k s => handler s k) m.log s = (m.state, false))
    (hfirst : ∀ k < n, ¬(run handler (fun _ => none) k m).Stops handler) (j : Nat) :
    upToStop handler (silentRun (n + 1 + j) m.forget).log s =
      (run handler (fun _ => none) (n + 1) m).log := by
  have hforget : (run handler (fun _ => none) n m).forget = silentRun n m.forget :=
    forget_run hfirst (fun _ _ => rfl)
  have hsilent : (silentRun (n + 1) m.forget).log =
      (run handler (fun _ => none) n m).log ++ [o.call o.regs] := by
    rw [silentRun, run_succ, ← silentRun, ← hforget]
    exact step_log_of_calls hmode hi
  obtain ⟨more, hmore⟩ : (silentRun (n + 1) m.forget).log <+: (silentRun (n + 1 + j) m.forget).log := by
    rw [silentRun, silentRun, run_add (n + 1) j]
    exact run_log_prefix j
  rw [← hmore, hsilent, List.append_assoc, upToStop_append (runBody_log hlog hfirst), List.singleton_append,
    upToStop, if_pos hstop, run_succ, step_log_of_calls hmode hi]

/-- The log stays as it is behind the stop exactly when the opcode has an error or the streams behind it
make no calls. -/
lemma log_behind_stop_iff :
    (∀ j, (run handler (fun _ => none) (n + 1 + j) m).log = (run handler (fun _ => none) (n + 1) m).log) ↔
      (o.error = none → NoCalls (run handler (fun _ => none) n m).later) := by
  have hstep : step handler (fun _ => none) (run handler (fun _ => none) n m) = _ :=
    step_stop hmode hi hstop
  simp only [run_add (n + 1), run_succ n, hstep, Option.or_none]
  cases herror : o.error with
  | some e => simp [run_ended (leave_some_mode e)]
  | none =>
    have hlater : (run handler (fun _ => none) n m).later =
      ((run handler (fun _ => none) n m).callHandler handler (o.call o.regs)).later := rfl
    rw [hlater, noCalls_iff, leave_log]
    constructor
    · intro h _ j
      exact (log_silentRun_of_run (fun k => (h k).trans (leave_log none).symm) j).trans (leave_log none)
    · intro h j
      exact (log_run_of_silentRun (fun k => (h rfl k).trans (leave_log none).symm) j).1.trans (leave_log none)

end FirstStop

/-- The calls are those of a handler that never stops, up to the first stop, exactly when no stop is
followed by a stream with calls. -/
theorem upToStop_iff {s : σ} (hstate : m.state = s) (hempty : m.log = []) :
    (∀ n, (run handler (fun _ => none) n m).log = upToStop handler (silentRun n m.forget).log s) ↔
      StopHonoured handler m := by
  have hlog : runBody (fun k s => handler s k) m.log s = (m.state, false) := by
    rw [hempty, hstate]
    rfl
  constructor
  · intro h n o i made hmode hi hstop
    apply (log_behind_stop_iff hmode hi hstop).mp
    have hexists : ∃ k, (run handler (fun _ => none) k m).Stops handler := ⟨n, o, i, made, hmode, hi, hstop⟩
    classical
    have hfirst := Nat.find_spec hexists
    have hmin : ∀ k < Nat.find hexists, ¬(run handler (fun _ => none) k m).Stops handler :=
      fun k hk => Nat.find_min hexists hk
    have hle : Nat.find hexists ≤ n := Nat.find_min' hexists ⟨o, i, made, hmode, hi, hstop⟩
    generalize Nat.find hexists = k at hfirst hmin hle
    obtain ⟨o', i', made', hmode', hi', hstop'⟩ := hfirst
    have hconst : ∀ j, (run handler (fun _ => none) (k + 1 + j) m).log =
        (run handler (fun _ => none) (k + 1) m).log := by
      intro j
      rw [h, upToStop_of_first hmode' hi' hstop' hlog hmin j]
    -- a call behind the first stop would show in the log
    have hsame : k = n := by
      by_contra hne
      obtain ⟨j, rfl⟩ : ∃ j, n = k + 1 + j := ⟨n - (k + 1), by omega⟩
      have hgrow : (run handler (fun _ => none) (k + 1 + (j + 1)) m).log =
          (run handler (fun _ => none) (k + 1 + j) m).log ++ [o.call o.regs] := by
        rw [← Nat.add_assoc, run_succ]
        exact step_log_of_calls hmode hi
      rw [hconst, hconst] at hgrow
      simp at hgrow
    rw [← hsame]
    exact hconst
  · intro h n
    by_cases hexists : ∃ k < n, (run handler (fun _ => none) k m).Stops handler
    · classical
      have hfirst := Nat.find_spec hexists
      have hmin : ∀ k < Nat.find hexists, ¬(run handler (fun _ => none) k m).Stops handler :=
        fun k hk hk' => Nat.find_min hexists hk ⟨hk.trans hfirst.1, hk'⟩
      generalize Nat.find hexists = k at hfirst hmin
      obtain ⟨hlt, o, i, made, hmode, hi, hstop⟩ := hfirst
      obtain ⟨j, rfl⟩ : ∃ j, n = k + 1 + j := ⟨n - (k + 1), by omega⟩
      rw [upToStop_of_first hmode hi hstop hlog hmin j]
      exact (log_behind_stop_iff hmode hi hstop).mpr (h k o i made hmode hi hstop) j
    · have hnone : ∀ k < n, ¬(run handler (fun _ => none) k m).Stops handler :=
        fun k hk hk' => hexists ⟨k, hk, hk'⟩
      have hforget : (run handler (fun _ => none) n m).forget = silentRun n m.forget :=
        forget_run hnone (fun _ _ => rfl)
      have hall := upToStop_append (runBody_log hlog hnone) []
      rw [List.append_nil, upToStop, List.append_nil] at hall
      rw [← hforget]
      exact hall.symm

end Machine

end Dyld.Lib
