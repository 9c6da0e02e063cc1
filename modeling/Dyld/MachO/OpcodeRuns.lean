import Dyld.MachO.BindOpcodes

/-!
# Runs of the opcode interpreters

The counters of the loops have 32 bits and the counts 64, so the validators need not end.
-/

namespace Dyld.MachO

open Dyld.Lib

/-! ### Every opcode leaves less -/

lemma drop_length_le (n : Nat) (bytes : List UInt8) : (bytes.drop n).length ≤ bytes.length := by
  rw [List.length_drop]
  exact Nat.sub_le _ _

lemma readUleb128_twice_rest_le (bytes : List UInt8) :
    (readUleb128 (readUleb128 bytes).rest).rest.length ≤ bytes.length :=
  (readUleb128_rest_le _).trans (readUleb128_rest_le _)

section Rest

variable (ptrSize : Nat) (b : UInt8) (bytes : List UInt8)

lemma rebaseOpcode_rest_le (r : RebaseRegisters) :
    (rebaseOpcode ptrSize r b bytes).rest.length ≤ bytes.length := by
  have huleb := readUleb128_rest_le bytes
  have htwice := readUleb128_twice_rest_le bytes
  rw [rebaseOpcode]
  dsimp only
  split <;> try exact le_rfl
  all_goals try exact huleb
  split
  · exact huleb
  · exact htwice

lemma regularOpcode_rest_le (r : BindRegisters) :
    (regularOpcode ptrSize r b bytes).rest.length ≤ bytes.length := by
  have huleb := readUleb128_rest_le bytes
  have htwice := readUleb128_twice_rest_le bytes
  rw [regularOpcode]
  dsimp only
  split <;> try exact le_rfl
  all_goals try exact huleb
  · exact drop_length_le _ _
  · exact readSleb128_rest_le bytes
  · exact htwice

lemma lazyOpcode_rest_le (r : BindRegisters) :
    (lazyOpcode ptrSize r b bytes).rest.length ≤ bytes.length := by
  have huleb := readUleb128_rest_le bytes
  rw [lazyOpcode]
  dsimp only
  split <;> try exact le_rfl
  all_goals try exact huleb
  · exact drop_length_le _ _
  · exact readSleb128_rest_le bytes

lemma weakOpcode_rest_le (r : BindRegisters) :
    (weakOpcode ptrSize r b bytes).rest.length ≤ bytes.length := by
  have huleb := readUleb128_rest_le bytes
  have htwice := readUleb128_twice_rest_le bytes
  rw [weakOpcode]
  dsimp only
  split <;> try exact le_rfl
  all_goals try exact huleb
  · exact drop_length_le _ _
  · exact readSleb128_rest_le bytes
  · exact htwice

end Rest

lemma rebaseMachine_shortens {σ : Type} (image : RebaseImage) (s : σ) :
    (rebaseMachine image s).Shortens := by
  intro stream hstream r b bytes
  rw [List.mem_singleton.mp hstream]
  exact rebaseOpcode_rest_le _ _ _ _

lemma forEachBind_shortens {σ : Type} (image : BindImage) (s : σ) : (forEachBind image s).Shortens := by
  intro stream hstream r b bytes
  simp only [forEachBind, Machine.start, List.mem_cons, List.not_mem_nil, or_false] at hstream
  rcases hstream with rfl | rfl | rfl
  · exact regularOpcode_rest_le _ _ _ _
  · exact lazyOpcode_rest_le _ _ _ _
  · exact weakOpcode_rest_le _ _ _ _

/-! ### The machine of the rebases -/

section Rebases

variable {σ : Type} (handler : σ → RebaseRegisters → σ × Bool)

def EndsIn (m : RebaseMachine σ) (s : σ) (error : Option RebaseError) : Prop :=
  ∃ n, (Machine.run handler (fun _ => none) n m).mode = .ended error ∧
    (Machine.run handler (fun _ => none) n m).state = s

def GoesOn (m : RebaseMachine σ) (s : σ) (r : RebaseRegisters) (rest : List UInt8) : Prop :=
  ∃ n, (Machine.run handler (fun _ => none) n m).mode = .opcodes ∧
    (Machine.run handler (fun _ => none) n m).stream = { m.stream with regs := r, bytes := rest } ∧
    (Machine.run handler (fun _ => none) n m).later = [] ∧
    (Machine.run handler (fun _ => none) n m).state = s

variable {handler} {m : RebaseMachine σ} {s : σ}

lemma EndsIn.of_run {n : Nat} {error : Option RebaseError}
    (h : EndsIn handler (Machine.run handler (fun _ => none) n m) s error) : EndsIn handler m s error := by
  obtain ⟨k, hmode, hstate⟩ := h
  rw [← Machine.run_add] at hmode hstate
  exact ⟨n + k, hmode, hstate⟩

lemma leave_single {σ : Type} {m : RebaseMachine σ} (hlater : m.later = []) (error : Option RebaseError) :
    (m.leave error).mode = .ended error := by
  cases error with
  | some e => rfl
  | none => simp only [Machine.leave, hlater]

lemma run_repeatFor {r : RebaseRegisters} {o : RebaseOpcode} {stride fuel i made x x' : Nat} {s' : σ}
    {stop : Bool} (hcall : o.call = id)
    (hnext : 0 < o.count → o.next = fun r => { r with segOffset := addOffset stride r.segOffset })
    (hlater : m.later = [])
    (hmode : m.mode = .calls { o with regs := { r with segOffset := x } } i made)
    (h : repeatFor (callHandler handler r) (addOffset stride) o.count fuel i x m.state = some (x', s', stop)) :
    if o.error.isSome || (o.done || stop) then EndsIn handler m s' o.error
    else GoesOn handler m s' { r with segOffset := x' } o.rest := by
  induction fuel generalizing i made x m with
  | zero => simp [repeatFor] at h
  | succ fuel ih =>
    rw [repeatFor] at h
    by_cases hi : i < o.count
    · rw [if_pos hi] at h
      dsimp only at h
      have hhandler : handler m.state (o.call { r with segOffset := x }) =
          callHandler handler r x m.state := by rw [hcall]; rfl
      by_cases hstop : (callHandler handler r x m.state).2 = true
      · rw [if_pos hstop] at h
        simp only [Option.some.injEq, Prod.mk.injEq] at h
        obtain ⟨-, rfl, rfl⟩ := h
        have hstop' : (handler m.state (o.call { r with segOffset := x })).2 = true := by
          rw [hhandler]
          exact hstop
        rw [if_pos (by simp)]
        refine ⟨1, ?_, ?_⟩
        · rw [Machine.run_one, Machine.step_stop hmode hi hstop', Option.or_none]
          apply leave_single
          exact hlater
        · rw [Machine.run_one, Machine.step_stop hmode hi hstop', Machine.leave_state]
          exact congrArg Prod.fst hhandler
      · rw [if_neg hstop] at h
        have hgo : ¬(handler m.state (o.call { r with segOffset := x })).2 = true := by
          rw [hhandler]
          exact hstop
        have hstep : Machine.run handler (fun _ => none) 1 m =
            { m.callHandler handler (o.call { r with segOffset := x }) with
              mode := .calls { o with regs := o.next { r with segOffset := x } } ((i + 1) % 2 ^ 32)
                (made + 1) } := by
          rw [Machine.run_one, Machine.step_call hmode hi hgo]
        have hmode' : (Machine.run handler (fun _ => none) 1 m).mode =
            .calls { o with regs := { r with segOffset := addOffset stride x } } ((i + 1) % 2 ^ 32) (made + 1) := by
          rw [hstep, hnext (Nat.zero_lt_of_lt hi)]
        have hstate : (Machine.run handler (fun _ => none) 1 m).state =
            (callHandler handler r x m.state).1 := by
          rw [hstep]
          exact congrArg Prod.fst hhandler
        have hlater' : (Machine.run handler (fun _ => none) 1 m).later = [] := by
          rw [hstep]
          exact hlater
        have hrest := ih hlater' hmode' (by rw [hstate]; exact h)
        split at hrest
        · rename_i hend
          rw [if_pos hend]
          exact hrest.of_run
        · rename_i hend
          rw [if_neg hend]
          obtain ⟨n, hn, hstream, hlater'', hstate'⟩ := hrest
          refine ⟨1 + n, ?_⟩
          rw [Machine.run_add]
          refine ⟨hn, ?_, hlater'', hstate'⟩
          rw [hstream, hstep]
          rfl
    · rw [if_neg hi] at h
      simp only [Option.some.injEq, Prod.mk.injEq] at h
      obtain ⟨rfl, rfl, rfl⟩ := h
      by_cases hend : (o.error.isSome || o.done) = true
      · have hleave : ((o.error.or none).isSome || o.done) = true := by rwa [Option.or_none]
        rw [if_pos (by simpa using hend)]
        refine ⟨1, ?_, ?_⟩
        · rw [Machine.run_one, Machine.step_leave hmode hi hleave, Option.or_none]
          exact leave_single hlater _
        · rw [Machine.run_one, Machine.step_leave hmode hi hleave, Machine.leave_state]
      · have hgo : ¬((o.error.or none).isSome || o.done) = true := by rwa [Option.or_none]
        rw [if_neg (by simpa using hend)]
        refine ⟨1, ?_⟩
        rw [Machine.run_one, Machine.step_next hmode hi hgo]
        exact ⟨rfl, rfl, hlater, rfl⟩

variable (handler) in
lemma forEachRebaseTurn_eq (ptrSize : Nat) (r : RebaseRegisters) (b : UInt8) (bytes : List UInt8) (s : σ) :
    let o := rebaseOpcode ptrSize r b bytes
    o.call = id ∧ ∃ stride,
      (0 < o.count → o.next = fun r => { r with segOffset := addOffset stride r.segOffset }) ∧
      forEachRebaseTurn handler ptrSize r b bytes s =
        (countedLoop (callHandler handler o.regs) (addOffset stride) o.count o.regs.segOffset s).map
          (fun t => { regs := { o.regs with segOffset := t.1 }, rest := o.rest, state := t.2.1,
                      stop := o.done || t.2.2, error := o.error }) := by
  rw [rebaseOpcode, forEachRebaseTurn]
  generalize b.toNat / 16 = opcode
  match opcode with
  | 0 | 1 | 2 | 3 | 4 | _ + 9 =>
    refine ⟨rfl, 0, fun h => absurd h (by simp [setRebase]), ?_⟩
    simp only [setRebase, countedLoop_zero]
    rfl
  | 5 | 6 => exact ⟨rfl, ptrSize, fun _ => rfl, rfl⟩
  | 7 =>
    refine ⟨rfl, (readUleb128 bytes).value + ptrSize, fun _ => rfl, ?_⟩
    simp only [doRebase, setRebase, countedLoop_one]
    rfl
  | 8 =>
    dsimp only
    by_cases herror : (readUleb128 bytes).error ≠ none
    · simp only [if_pos herror]
      refine ⟨rfl, 0, fun h => absurd h (by simp [setRebase]), ?_⟩
      simp only [setRebase, countedLoop_zero]
      rfl
    · simp only [if_neg herror]
      exact ⟨rfl, _, fun _ => rfl, rfl⟩

lemma endsIn_nil (hmode : m.mode = .opcodes) (hlater : m.later = []) (hbytes : m.stream.bytes = []) :
    EndsIn handler m m.state none := by
  refine ⟨1, ?_, ?_⟩
  · rw [Machine.run_one, Machine.step_nil hmode hbytes]
    exact leave_single hlater none
  · rw [Machine.run_one, Machine.step_nil hmode hbytes, Machine.leave_state]

theorem endsIn_of_forEachRebase {image : RebaseImage} {s s' : σ} {error : Option RebaseError}
    (h : forEachRebase handler image s = some (s', error)) :
    EndsIn handler (rebaseMachine image s) s' error := by
  have hrun : ∀ (n : Nat) (bytes : List UInt8) (r : RebaseRegisters) (m : RebaseMachine σ),
      m.mode = .opcodes → m.later = [] → m.stream.bytes = bytes → m.stream.regs = r →
      m.stream.decode = rebaseOpcode image.ptrSize →
      interpret (forEachRebaseTurn handler image.ptrSize) n bytes r m.state = some (s', error) →
        EndsIn handler m s' error := by
    intro n
    induction n with
    | zero =>
      intro bytes r m hmode hlater hbytes hregs hdecode h
      cases bytes with
      | nil =>
        simp only [interpret, Option.some.injEq, Prod.mk.injEq] at h
        rw [← h.1, ← h.2]
        exact endsIn_nil hmode hlater hbytes
      | cons b bytes => simp [interpret] at h
    | succ n ih =>
      intro bytes r m hmode hlater hbytes hregs hdecode h
      cases bytes with
      | nil =>
        simp only [interpret, Option.some.injEq, Prod.mk.injEq] at h
        rw [← h.1, ← h.2]
        exact endsIn_nil hmode hlater hbytes
      | cons b bytes =>
        obtain ⟨hcall, stride, hnext, hturn⟩ :=
          forEachRebaseTurn_eq handler image.ptrSize r b bytes m.state
        rw [interpret, hturn] at h
        obtain ⟨t, ht, h⟩ := Option.bind_eq_some_iff.mp h
        obtain ⟨⟨x, u, stop⟩, hloop, rfl⟩ := Option.map_eq_some_iff.mp ht
        have hstep : Machine.run handler (fun _ => none) 1 m =
            { m with mode := .calls (rebaseOpcode image.ptrSize r b bytes) 0 0,
                     outside := m.outside || (rebaseOpcode image.ptrSize r b bytes).outside } := by
          rw [Machine.run_one, Machine.step_cons hmode hbytes, hregs, hdecode]
        have hafter := run_repeatFor (m := Machine.run handler (fun _ => none) 1 m) hcall hnext
          (by rw [hstep]; exact hlater) (by rw [hstep]) (by rw [hstep]; exact hloop)
        dsimp only at h
        split_ifs at h hafter with hend
        · rw [Option.some.injEq, Prod.mk.injEq] at h
          rw [← h.1, ← h.2]
          exact hafter.of_run
        · obtain ⟨k, hk, hstream, hlater', hstate⟩ := hafter
          rw [← Machine.run_add] at hk hstream hlater' hstate
          rw [← hstate] at h
          exact (ih _ _ _ hk hlater' (by rw [hstream]) (by rw [hstream])
            (by rw [hstream, hstep]; exact hdecode) h).of_run
  exact hrun _ _ _ _ rfl rfl rfl rfl rfl h

end Rebases

/-! ### Validators that end -/

def validRebaseRun (image : RebaseImage) (n : Nat) : RebaseMachine (Option RebaseStateError) :=
  Machine.run (checkRebase image) (fun _ => none) n (rebaseMachine image none)

def validBindRun (image : BindImage) (n : Nat) :
    Machine (Option BindStateError) BindRegisters BindEvent BindError :=
  Machine.run (checkBind image) bindDiagnostics n (forEachBind image none)

/-- What the validator of binds makes of a call. -/
def invalidBindEvent (image : BindImage) : BindEvent → Bool
  | .bind _ r => (invalidBindState image r).isSome
  | .strong _ => false

lemma checkRebase_snd (image : RebaseImage) (s : Option RebaseStateError) (r : RebaseRegisters) :
    (checkRebase image s r).2 = (invalidRebaseState image r).isSome := rfl

lemma checkBind_snd (image : BindImage) (s : Option BindStateError) (e : BindEvent) :
    (checkBind image s e).2 = invalidBindEvent image e := by
  cases e <;> rfl

/-- The validators end, and no opcode makes more calls than its count, exactly when every opcode that
they come to and that has a count of 2^32 or more has an invalid location among its first `count`. -/
theorem validators_end_iff (rebases : RebaseImage) (binds : BindImage) :
    (((∃ n e, (validRebaseRun rebases n).mode = .ended e) ∧
        ∀ n o i made, (validRebaseRun rebases n).mode = .calls o i made → i < o.count → made < o.count) ↔
      ∀ n o, (validRebaseRun rebases n).mode = .calls o 0 0 →
        o.count < 2 ^ 32 ∨
          ∃ k < o.count, (invalidRebaseState rebases (o.call (o.next^[k] o.regs))).isSome = true) ∧
    (((∃ n e, (validBindRun binds n).mode = .ended e) ∧
        ∀ n o i made, (validBindRun binds n).mode = .calls o i made → i < o.count → made < o.count) ↔
      ∀ n o, (validBindRun binds n).mode = .calls o 0 0 →
        o.count < 2 ^ 32 ∨ ∃ k < o.count, invalidBindEvent binds (o.call (o.next^[k] o.regs)) = true) := by
  constructor
  · have hiff := Machine.ends_within_iff (checkRebase rebases) (fun _ => none) rfl
      (rebaseMachine_shortens rebases none)
    simp only [Machine.loopEnds_iff (checkRebase_snd rebases)] at hiff
    exact hiff
  · have hiff := Machine.ends_within_iff (checkBind binds) bindDiagnostics rfl
      (forEachBind_shortens binds none)
    simp only [Machine.loopEnds_iff (checkBind_snd binds)] at hiff
    exact hiff

/-- A pointer in `__DATA` that is rebased 2^32 times, each time at the same place. -/
def endlessRebases : RebaseImage where
  segments := [⟨0x4000, 0x4000, true, false, false⟩]
  linkeditSegIndex := 1
  ptrSize := 8
  slide := 0
  enforceWritable := true
  enforceExecutable := true
  opcodes := [0x11, 0x20, 0x00, 0x80, 0x80, 0x80, 0x80, 0x80, 0x10,
    0xF8, 0xFF, 0xFF, 0xFF, 0xFF, 0xFF, 0xFF, 0xFF, 0xFF, 0x01]

/-- The opcode that repeats. -/
def endlessOpcode : RebaseOpcode :=
  rebaseOpcode 8 ⟨.pointer, 0, 0, true⟩ 0x80
    [0x80, 0x80, 0x80, 0x80, 0x10, 0xF8, 0xFF, 0xFF, 0xFF, 0xFF, 0xFF, 0xFF, 0xFF, 0xFF, 0x01]

lemma endlessOpcode_entered : (validRebaseRun endlessRebases 5).mode = .calls endlessOpcode 0 0 := rfl

lemma endlessOpcode_count : endlessOpcode.count = 2 ^ 32 := by decide

lemma endlessOpcode_next : { endlessOpcode with regs := endlessOpcode.next endlessOpcode.regs } =
    endlessOpcode := rfl

lemma endlessOpcode_valid : invalidRebaseState endlessRebases (endlessOpcode.call endlessOpcode.regs) = none := by
  decide

theorem endlessRebases_not_ended : ¬∃ n e, (validRebaseRun endlessRebases n).mode = .ended e := by
  have hloop : ∀ n, ∃ i made, i < 2 ^ 32 ∧
      (validRebaseRun endlessRebases (5 + n)).mode = .calls endlessOpcode i made := by
    intro n
    induction n with
    | zero => exact ⟨0, 0, by norm_num, endlessOpcode_entered⟩
    | succ n ih =>
      obtain ⟨i, made, hi, hmode⟩ := ih
      have hgo : ¬(checkRebase endlessRebases (validRebaseRun endlessRebases (5 + n)).state
          (endlessOpcode.call endlessOpcode.regs)).2 = true := by
        rw [checkRebase_snd, endlessOpcode_valid]
        simp
      refine ⟨(i + 1) % 2 ^ 32, made + 1, Nat.mod_lt _ (by norm_num), ?_⟩
      rw [validRebaseRun] at hmode hgo
      rw [← Nat.add_assoc, validRebaseRun, Machine.run_succ,
        Machine.step_call hmode (by rw [endlessOpcode_count]; exact hi) hgo]
      exact congrArg (fun o => Mode.calls o _ _) endlessOpcode_next
  rintro ⟨n, e, hended⟩
  obtain ⟨i, made, -, hmode⟩ := hloop n
  rw [validRebaseRun] at hended
  rw [Nat.add_comm, validRebaseRun, Machine.run_add, Machine.run_ended hended, hended] at hmode
  simp at hmode

end Dyld.MachO
