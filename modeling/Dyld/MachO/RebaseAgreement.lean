import Dyld.MachO.RebaseOpcodes

/-!
# Where the interpreters of rebase opcodes agree

A stream that `validRebaseInfo` accepts is decoded into a program of four kinds of instructions. Each
interpreter is a run of that program, as long as its own reader accepts the operands; the locations
are then compared instruction by instruction. dyld2 counts only segments that are not empty, and the
cache builder refuses operands that the others cut to 64 bits.
-/

namespace Dyld.MachO

open Dyld.Lib

/-- A decoded rebase opcode. -/
inductive RebaseOp
  | setType (type : Nat)
  | setSegment (segIndex offset : Nat)
  | add (delta : Nat)
  | rebase (count stride : Nat)
  deriving DecidableEq, Repr

/-- An operand and the bytes behind it. -/
def decodeUleb (bytes : List UInt8) : Option (Nat × List UInt8) :=
  match (readUleb128 bytes).error with
  | some _ => none
  | none => some ((readUleb128 bytes).value, (readUleb128 bytes).rest)

/-- The instruction that an opcode other than `REBASE_OPCODE_DONE` stands for. -/
def decodeRebase (ptrSize : Nat) (b : UInt8) (bytes : List UInt8) : Option (RebaseOp × List UInt8) :=
  let immediate := b.toNat % 16
  match b.toNat / 16 with
  | 1 => some (.setType immediate, bytes)
  | 2 => (decodeUleb bytes).map (fun u => (.setSegment immediate u.1, u.2))
  | 3 => (decodeUleb bytes).map (fun u => (.add u.1, u.2))
  | 4 => some (.add (immediate * ptrSize), bytes)
  | 5 => some (.rebase immediate ptrSize, bytes)
  | 6 => (decodeUleb bytes).map (fun u => (.rebase u.1 ptrSize, u.2))
  | 7 => (decodeUleb bytes).map (fun u => (.rebase 1 (u.1 + ptrSize), u.2))
  | 8 => (decodeUleb bytes).bind (fun u =>
      (decodeUleb u.2).map (fun v => (.rebase u.1 (v.1 + ptrSize), v.2)))
  | _ => none

/-- `REBASE_OPCODE_DONE`. -/
def isDone (b : UInt8) : Bool := b.toNat / 16 = 0

/-- More than eight bytes behind the end are an error for dyld3. -/
def terminatedEarly (bytes : List UInt8) : Bool := bytes.length > 8

def rebaseProgram (ptrSize : Nat) : Nat → List UInt8 → Option (List RebaseOp) :=
  program (decodeRebase ptrSize) isDone terminatedEarly

def RebaseImage.program (image : RebaseImage) : List RebaseOp :=
  (rebaseProgram image.ptrSize image.opcodes.length image.opcodes).getD []

/-- No operand of an opcode has a bit above the 64th. -/
def operandsFit (b : UInt8) (bytes : List UInt8) : Prop :=
  match b.toNat / 16 with
  | 2 | 3 | 6 | 7 => UlebFits bytes
  | 8 => UlebFits bytes ∧ UlebFits (readUleb128 bytes).rest
  | _ => True

/-- No operand that the interpreters come to has a bit above the 64th. -/
def RebaseImage.OperandsFit (image : RebaseImage) : Prop :=
  Along (decodeRebase image.ptrSize) isDone operandsFit image.opcodes.length image.opcodes

/-! ### The locations of a program -/

/-- The variables after an instruction. -/
def RebaseRegisters.step (r : RebaseRegisters) : RebaseOp → RebaseRegisters
  | .setType type => { r with kind := rebaseKind type }
  | .setSegment segIndex offset =>
    { r with segIndex := segIndex, segOffset := offset, segIndexSet := true }
  | .add delta => { r with segOffset := addOffset delta r.segOffset }
  | .rebase count stride => { r with segOffset := (addOffset stride)^[count] r.segOffset }

/-- The calls of the handler for an instruction. -/
def RebaseRegisters.calls (r : RebaseRegisters) : RebaseOp → List RebaseRegisters
  | .rebase count stride =>
    (trail (addOffset stride) count r.segOffset).map (fun offset => { r with segOffset := offset })
  | _ => []

def handlerCalls (r : RebaseRegisters) : List RebaseOp → List RebaseRegisters
  | [] => []
  | op :: ops => r.calls op ++ handlerCalls (r.step op) ops

/-! ### Turns and instructions -/

lemma of_decodeUleb {bytes : List UInt8} {u : Nat × List UInt8} (h : decodeUleb bytes = some u) :
    (readUleb128 bytes).error = none ∧ (readUleb128 bytes).value = u.1 ∧
      (readUleb128 bytes).rest = u.2 := by
  unfold decodeUleb at h
  split at h
  · simp at h
  · rename_i herror
    rw [Option.some.injEq] at h
    rw [← h]
    exact ⟨herror, rfl, rfl⟩

lemma decodeUleb_isSome {bytes : List UInt8} (h : (readUleb128 bytes).error = none) :
    decodeUleb bytes = some ((readUleb128 bytes).value, (readUleb128 bytes).rest) := by
  rw [decodeUleb, h]

/-- What a decoded opcode looks like. -/
inductive Decoded (ptrSize : Nat) (b : UInt8) (bytes : List UInt8) : RebaseOp → List UInt8 → Prop
  | setType (hop : b.toNat / 16 = 1) : Decoded ptrSize b bytes (.setType (b.toNat % 16)) bytes
  | setSegment (hop : b.toNat / 16 = 2) {u : Nat × List UInt8} (hu : decodeUleb bytes = some u) :
      Decoded ptrSize b bytes (.setSegment (b.toNat % 16) u.1) u.2
  | addUleb (hop : b.toNat / 16 = 3) {u : Nat × List UInt8} (hu : decodeUleb bytes = some u) :
      Decoded ptrSize b bytes (.add u.1) u.2
  | addScaled (hop : b.toNat / 16 = 4) :
      Decoded ptrSize b bytes (.add (b.toNat % 16 * ptrSize)) bytes
  | immTimes (hop : b.toNat / 16 = 5) :
      Decoded ptrSize b bytes (.rebase (b.toNat % 16) ptrSize) bytes
  | ulebTimes (hop : b.toNat / 16 = 6) {u : Nat × List UInt8} (hu : decodeUleb bytes = some u) :
      Decoded ptrSize b bytes (.rebase u.1 ptrSize) u.2
  | addAddr (hop : b.toNat / 16 = 7) {u : Nat × List UInt8} (hu : decodeUleb bytes = some u) :
      Decoded ptrSize b bytes (.rebase 1 (u.1 + ptrSize)) u.2
  | skipping (hop : b.toNat / 16 = 8) {u v : Nat × List UInt8} (hu : decodeUleb bytes = some u)
      (hv : decodeUleb u.2 = some v) :
      Decoded ptrSize b bytes (.rebase u.1 (v.1 + ptrSize)) v.2

lemma decoded_of_decodeRebase {ptrSize : Nat} {b : UInt8} {bytes rest : List UInt8} {op : RebaseOp}
    (h : decodeRebase ptrSize b bytes = some (op, rest)) : Decoded ptrSize b bytes op rest := by
  unfold decodeRebase at h
  dsimp only at h
  split at h
  case h_1 hop =>
    obtain ⟨rfl, rfl⟩ := Prod.mk.inj (Option.some.inj h)
    exact .setType hop
  case h_2 hop =>
    obtain ⟨u, hu, h⟩ := Option.map_eq_some_iff.mp h
    obtain ⟨rfl, rfl⟩ := Prod.mk.inj h
    exact .setSegment hop hu
  case h_3 hop =>
    obtain ⟨u, hu, h⟩ := Option.map_eq_some_iff.mp h
    obtain ⟨rfl, rfl⟩ := Prod.mk.inj h
    exact .addUleb hop hu
  case h_4 hop =>
    obtain ⟨rfl, rfl⟩ := Prod.mk.inj (Option.some.inj h)
    exact .addScaled hop
  case h_5 hop =>
    obtain ⟨rfl, rfl⟩ := Prod.mk.inj (Option.some.inj h)
    exact .immTimes hop
  case h_6 hop =>
    obtain ⟨u, hu, h⟩ := Option.map_eq_some_iff.mp h
    obtain ⟨rfl, rfl⟩ := Prod.mk.inj h
    exact .ulebTimes hop hu
  case h_7 hop =>
    obtain ⟨u, hu, h⟩ := Option.map_eq_some_iff.mp h
    obtain ⟨rfl, rfl⟩ := Prod.mk.inj h
    exact .addAddr hop hu
  case h_8 hop =>
    obtain ⟨u, hu, h⟩ := Option.bind_eq_some_iff.mp h
    obtain ⟨v, hv, h⟩ := Option.map_eq_some_iff.mp h
    obtain ⟨rfl, rfl⟩ := Prod.mk.inj h
    exact .skipping hop hu hv
  case h_9 => simp at h

section Handler

variable {σ : Type} {handler : σ → RebaseRegisters → σ × Bool} {ptrSize : Nat}

def execHandler (handler : σ → RebaseRegisters → σ × Bool) (r : RebaseRegisters) (op : RebaseOp)
    (s : σ) : Option (RebaseRegisters × σ) :=
  match op with
  | .rebase count stride =>
    (countedLoop (callHandler handler r) (addOffset stride) count r.segOffset s).bind (fun t =>
      if t.2.2 then none else some ({ r with segOffset := t.1 }, t.2.1))
  | op => some (r.step op, s)

lemma rebaseTurn_next (r : RebaseRegisters) (rest : List UInt8) (count stride : Nat) (s : σ) :
    (rebaseTurn handler r rest count stride s none).bind Turn.next =
      (execHandler handler r (.rebase count stride) s).map (fun t => (t.1, rest, t.2)) := by
  rw [rebaseTurn, execHandler, Option.map_bind, Option.bind_map]
  congr 1
  funext t
  simp only [Function.comp_apply, Turn.next, Option.isSome_none, Bool.false_or]
  split_ifs <;> rfl

lemma forEachRebaseTurn_next {r : RebaseRegisters} {b : UInt8} {bytes rest : List UInt8} {s : σ}
    {op : RebaseOp} (hdecode : decodeRebase ptrSize b bytes = some (op, rest)) :
    (forEachRebaseTurn handler ptrSize r b bytes s).bind Turn.next =
      (execHandler handler r op s).map (fun t => (t.1, rest, t.2)) := by
  cases decoded_of_decodeRebase hdecode with
  | setType hop => simp [forEachRebaseTurn, hop, Turn.next, execHandler, RebaseRegisters.step]
  | @setSegment hop u hu =>
    obtain ⟨herror, hvalue, hrest⟩ := of_decodeUleb hu
    simp [forEachRebaseTurn, hop, Turn.next, execHandler, RebaseRegisters.step, herror, hvalue, hrest]
  | @addUleb hop u hu =>
    obtain ⟨herror, hvalue, hrest⟩ := of_decodeUleb hu
    simp [forEachRebaseTurn, hop, Turn.next, execHandler, RebaseRegisters.step, herror, hvalue, hrest]
  | addScaled hop => simp [forEachRebaseTurn, hop, Turn.next, execHandler, RebaseRegisters.step]
  | immTimes hop =>
    simp only [forEachRebaseTurn, hop]
    exact rebaseTurn_next _ _ _ _ _
  | @ulebTimes hop u hu =>
    obtain ⟨herror, hvalue, hrest⟩ := of_decodeUleb hu
    simp only [forEachRebaseTurn, hop, herror, hvalue, hrest, Option.map_none]
    exact rebaseTurn_next _ _ _ _ _
  | @addAddr hop u hu =>
    obtain ⟨herror, hvalue, hrest⟩ := of_decodeUleb hu
    simp only [forEachRebaseTurn, hop, herror, hvalue, hrest, Option.map_none, execHandler,
      countedLoop_one, Option.bind_some, Turn.next, Option.isSome_none, Bool.false_or, callHandler]
    split_ifs <;> rfl
  | @skipping hop u v hu hv =>
    obtain ⟨herror, hvalue, hrest⟩ := of_decodeUleb hu
    obtain ⟨herror', hvalue', hrest'⟩ := of_decodeUleb hv
    simp only [forEachRebaseTurn, hop, herror, hvalue, hrest, herror', hvalue', hrest', ne_eq,
      not_true_eq_false, if_false, Option.map_none]
    exact rebaseTurn_next _ _ _ _ _

lemma of_rebaseTurn {r : RebaseRegisters} {rest : List UInt8} {count stride : Nat} {s : σ}
    {error : Option RebaseError} {t : Turn RebaseRegisters σ RebaseError}
    (h : rebaseTurn handler r rest count stride s error = some t) : t.rest = rest ∧ t.error = error := by
  obtain ⟨u, -, rfl⟩ := Option.map_eq_some_iff.mp h
  exact ⟨rfl, rfl⟩

lemma isDone_iff {b : UInt8} : isDone b = true ↔ b.toNat / 16 = 0 := by simp [isDone]

lemma forEachRebaseTurn_decodes {r : RebaseRegisters} {b : UInt8} {bytes : List UInt8} {s : σ}
    {t : Turn RebaseRegisters σ RebaseError}
    (h : forEachRebaseTurn handler ptrSize r b bytes s = some t) (herror : t.error = none) :
    if isDone b then terminatedEarly bytes = false
    else ∃ d, decodeRebase ptrSize b bytes = some d ∧ t.rest = d.2 := by
  unfold forEachRebaseTurn at h
  dsimp only at h
  split at h
  case h_1 hop =>
    rw [Option.some.injEq] at h
    subst h
    rw [if_pos (isDone_iff.mpr hop)]
    simp only [ite_eq_right_iff, reduceCtorEq, imp_false] at herror
    simpa [terminatedEarly] using herror
  case h_10 =>
    rw [Option.some.injEq] at h
    subst h
    simp at herror
  all_goals
    rename_i hop
    rw [if_neg (by simp [isDone_iff, hop])]
  case h_2 =>
    rw [Option.some.injEq] at h
    subst h
    exact ⟨(.setType (b.toNat % 16), bytes), by simp [decodeRebase, hop], rfl⟩
  case h_3 =>
    rw [Option.some.injEq] at h
    subst h
    simp only [Option.map_eq_none_iff] at herror
    exact ⟨_, by simp [decodeRebase, hop, decodeUleb_isSome herror]; rfl, rfl⟩
  case h_4 =>
    rw [Option.some.injEq] at h
    subst h
    simp only [Option.map_eq_none_iff] at herror
    exact ⟨_, by simp [decodeRebase, hop, decodeUleb_isSome herror]; rfl, rfl⟩
  case h_5 =>
    rw [Option.some.injEq] at h
    subst h
    exact ⟨_, by simp [decodeRebase, hop]; rfl, rfl⟩
  case h_6 =>
    obtain ⟨hrest, -⟩ := of_rebaseTurn h
    exact ⟨_, by simp [decodeRebase, hop]; rfl, hrest⟩
  case h_7 =>
    obtain ⟨hrest, herr⟩ := of_rebaseTurn h
    rw [herr] at herror
    simp only [Option.map_eq_none_iff] at herror
    exact ⟨_, by simp [decodeRebase, hop, decodeUleb_isSome herror]; rfl, hrest⟩
  case h_8 =>
    rw [Option.some.injEq] at h
    subst h
    simp only [Option.map_eq_none_iff] at herror
    exact ⟨_, by simp [decodeRebase, hop, decodeUleb_isSome herror]; rfl, rfl⟩
  case h_9 =>
    split_ifs at h with hread
    · rw [Option.some.injEq] at h
      subst h
      simp only [Option.map_eq_none_iff] at herror
      exact absurd herror hread
    · obtain ⟨hrest, herr⟩ := of_rebaseTurn h
      rw [herr] at herror
      simp only [Option.map_eq_none_iff] at herror
      rw [not_not] at hread
      exact ⟨_, by simp [decodeRebase, hop, decodeUleb_isSome hread, decodeUleb_isSome herror]; rfl,
        hrest⟩

lemma forEachRebaseTurn_stop {ok : σ → Prop}
    (hstop : ∀ s r, (handler s r).2 = true → ¬ok (handler s r).1)
    {r : RebaseRegisters} {b : UInt8} {bytes : List UInt8} {s : σ}
    {t : Turn RebaseRegisters σ RebaseError}
    (h : forEachRebaseTurn handler ptrSize r b bytes s = some t) (hdone : isDone b = false)
    (ht : t.stop = true) : ¬ok t.state := by
  have hloop : ∀ {rest count stride error}, rebaseTurn handler r rest count stride s error = some t →
      ¬ok t.state := by
    intro rest count stride error hturn
    obtain ⟨⟨x, s', stopped⟩, hrun, rfl⟩ := Option.map_eq_some_iff.mp hturn
    simp only at ht
    subst ht
    exact stopped_of_countedLoop (fun x s => hstop s _) hrun
  unfold forEachRebaseTurn at h
  dsimp only at h
  split at h
  case h_1 hop =>
    rw [isDone_iff.mpr hop] at hdone
    exact absurd hdone (by simp)
  case h_6 => exact hloop h
  case h_7 => exact hloop h
  case h_8 =>
    rw [Option.some.injEq] at h
    subst h
    exact hstop s r ht
  case h_9 =>
    split_ifs at h
    · rw [Option.some.injEq] at h
      subst h
      simp at ht
    · exact hloop h
  all_goals
    rw [Option.some.injEq] at h
    subst h
    simp at ht

/-- A run of `forEachRebase` that ends well has a program. -/
lemma program_of_forEachRebase (ok : σ → Prop)
    (hstop : ∀ s r, (handler s r).2 = true → ¬ok (handler s r).1) {image : RebaseImage} {s s' : σ}
    (h : forEachRebase handler image s = some (s', none)) (hok : ok s') :
    rebaseProgram image.ptrSize image.opcodes.length image.opcodes = some image.program := by
  obtain ⟨ops, hops⟩ := program_of_interpret ok
    (fun _ _ _ _ _ h herror => forEachRebaseTurn_decodes h herror)
    (fun _ _ _ _ _ h hdone _ ht => forEachRebaseTurn_stop hstop h hdone ht) h hok
  rw [RebaseImage.program, rebaseProgram, hops]
  rfl

lemma along_true {n : Nat} {bytes : List UInt8} :
    Along (decodeRebase ptrSize) isDone (fun _ _ => True) n bytes := by
  induction n generalizing bytes with
  | zero => cases bytes <;> trivial
  | succ n ih =>
    cases bytes with
    | nil => trivial
    | cons b bytes => exact fun _ => ⟨trivial, fun d _ => ih⟩

lemma forEachRebase_iff (ok : σ → Prop)
    (hstop : ∀ s r, (handler s r).2 = true → ¬ok (handler s r).1) {image : RebaseImage}
    (hprogram : rebaseProgram image.ptrSize image.opcodes.length image.opcodes = some image.program)
    {s s' : σ} (hok : ok s') :
    forEachRebase handler image s = some (s', none) ↔
      execAll (execHandler handler) image.program {} s = some s' := by
  have hdone : ∀ (r : RebaseRegisters) (b : UInt8) (bytes : List UInt8) (s : σ), isDone b = true →
      terminatedEarly bytes = false → ∃ r' rest, forEachRebaseTurn handler image.ptrSize r b bytes s =
        some { regs := r', rest := rest, state := s, stop := true } := by
    intro r b bytes s hdone hearly
    rw [isDone_iff] at hdone
    have hlen : ¬bytes.length > 8 := by simpa [terminatedEarly] using hearly
    exact ⟨r, bytes, by simp only [forEachRebaseTurn, hdone, if_neg hlen]⟩
  exact interpret_iff_execAll ok hdone (fun r b bytes s op rest _ _ hd => forEachRebaseTurn_next hd)
    (fun r b bytes s t h hdone _ ht => forEachRebaseTurn_stop hstop h hdone ht) hprogram along_true hok

def CountFits : RebaseOp → Prop
  | .rebase count _ => count < 2 ^ 32
  | _ => True

lemma execHandler_eq_some_iff {r r' : RebaseRegisters} {op : RebaseOp} {s s' : σ} :
    execHandler handler r op s = some (r', s') ↔
      CountFits op ∧ r' = r.step op ∧
        runBody (fun r s => handler s r) (r.calls op) s = (s', false) := by
  cases op with
  | rebase count stride =>
    rw [RebaseRegisters.calls, runBody_map]
    simp only [execHandler, CountFits, RebaseRegisters.step]
    constructor
    · intro h
      obtain ⟨⟨x, s₁, stopped⟩, hloop, h⟩ := Option.bind_eq_some_iff.mp h
      dsimp only at h
      split_ifs at h with hstop
      rw [Bool.not_eq_true] at hstop
      subst hstop
      obtain ⟨rfl, rfl⟩ := Prod.mk.inj (Option.some.inj h)
      obtain ⟨hcount, hx, hrun⟩ := countedLoop_eq_iff.mp hloop
      exact ⟨hcount, by rw [hx], hrun⟩
    · rintro ⟨hcount, rfl, hrun⟩
      have hloop := countedLoop_eq_iff.mpr ⟨hcount, rfl, hrun⟩
      rw [show (fun x s => handler s { r with segOffset := x }) = callHandler handler r from rfl] at hloop
      rw [hloop]
      rfl
  | setType type => simp [execHandler, CountFits, RebaseRegisters.calls, eq_comm]
  | setSegment k o => simp [execHandler, CountFits, RebaseRegisters.calls, eq_comm]
  | add delta => simp [execHandler, CountFits, RebaseRegisters.calls, eq_comm]

/-- A program that a handler passes calls it on the locations of its instructions. -/
lemma execAll_handler_iff {ops : List RebaseOp} {r : RebaseRegisters} {s s' : σ} :
    execAll (execHandler handler) ops r s = some s' ↔
      (∀ op ∈ ops, CountFits op) ∧
        runBody (fun r s => handler s r) (handlerCalls r ops) s = (s', false) := by
  induction ops generalizing r s with
  | nil => simp [execAll, handlerCalls]
  | cons op ops ih =>
    rw [execAll, handlerCalls, runBody_append_eq_iff, Option.bind_eq_some_iff]
    constructor
    · rintro ⟨⟨r', t⟩, hexec, h⟩
      obtain ⟨hcount, rfl, hrun⟩ := execHandler_eq_some_iff.mp hexec
      obtain ⟨hcounts, hrest⟩ := ih.mp h
      refine ⟨?_, t, hrun, hrest⟩
      intro op' hop'
      rcases List.mem_cons.mp hop' with rfl | hop'
      · exact hcount
      · exact hcounts op' hop'
    · rintro ⟨hcounts, t, hrun, hrest⟩
      refine ⟨(r.step op, t), execHandler_eq_some_iff.mpr ⟨hcounts op (by simp), rfl, hrun⟩, ?_⟩
      exact ih.mpr ⟨fun op' hop' => hcounts op' (by simp [hop']), hrest⟩

end Handler

/-! ### dyld3 -/

def RebaseImage.locations (image : RebaseImage) : List (Nat × Nat) :=
  (handlerCalls {} image.program).map (fun r => (r.segIndex, r.segOffset))

section Dyld3

variable {image : RebaseImage}

lemma runBody_check {l : List RebaseRegisters} {s t : Option RebaseStateError}
    (h : runBody (fun r s => checkRebase image s r) l t = (s, false)) :
    ∀ r ∈ l, invalidRebaseState image r = none := by
  induction l generalizing t with
  | nil => simp
  | cons r l ih =>
    rw [runBody_cons] at h
    by_cases hstop : (checkRebase image t r).2 = true
    · simp [hstop] at h
    · rw [if_neg hstop] at h
      intro r' hr'
      rcases List.mem_cons.mp hr' with rfl | hr'
      · simpa [checkRebase] using hstop
      · exact ih h r' hr'

lemma runBody_note (l : List RebaseRegisters) (acc : List (Nat × Nat)) :
    runBody (fun r s => noteRebase s r) l acc =
      (acc ++ l.map (fun r => (r.segIndex, r.segOffset)), false) := by
  induction l generalizing acc with
  | nil => simp
  | cons r l ih =>
    have hstep : noteRebase acc r = (acc ++ [(r.segIndex, r.segOffset)], false) := rfl
    rw [runBody_cons, hstep, if_neg (by simp), ih]
    simp

lemma program_of_valid (h : ValidRebaseInfo image) :
    rebaseProgram image.ptrSize image.opcodes.length image.opcodes = some image.program ∧
    (∀ op ∈ image.program, CountFits op) ∧
    ∀ r ∈ handlerCalls {} image.program, invalidRebaseState image r = none := by
  have hstop : ∀ (s : Option RebaseStateError) (r : RebaseRegisters),
      (checkRebase image s r).2 = true → ¬(checkRebase image s r).1 = none := by
    intro s r hs
    simpa [checkRebase, Option.isSome_iff_ne_none] using hs
  have hprogram := program_of_forEachRebase (· = none) hstop h rfl
  have hexec := (forEachRebase_iff (· = none) hstop hprogram rfl).mp h
  obtain ⟨hcounts, hrun⟩ := execAll_handler_iff.mp hexec
  exact ⟨hprogram, hcounts, runBody_check hrun⟩

lemma forEachRebase_note
    (hprogram : rebaseProgram image.ptrSize image.opcodes.length image.opcodes = some image.program)
    (hcounts : ∀ op ∈ image.program, CountFits op) :
    forEachRebase noteRebase image [] = some (image.locations, none) := by
  have hstop : ∀ (s : List (Nat × Nat)) (r : RebaseRegisters),
      (noteRebase s r).2 = true → ¬True := by simp [noteRebase]
  rw [forEachRebase_iff (fun _ => True) hstop hprogram trivial, execAll_handler_iff]
  refine ⟨hcounts, ?_⟩
  rw [runBody_note]
  rfl

end Dyld3

/-! ### Operands that throw -/

section Operand

variable {ρ σ : Type} {r : ρ} {s : σ} {operand : Except LebError (Nat × List UInt8)}
  {f : Nat → List UInt8 → Option (Turn ρ σ RebaseThrow)}

lemma withOperand_ok {u : Nat × List UInt8} (h : operand = .ok u) :
    withOperand r s operand f = f u.1 u.2 := by
  rw [h]
  rfl

lemma of_withOperand {t : Turn ρ σ RebaseThrow} (h : withOperand r s operand f = some t)
    (herror : t.error = none) : ∃ u, operand = .ok u ∧ f u.1 u.2 = some t := by
  cases operand with
  | error e =>
    rw [withOperand, Option.some.injEq] at h
    subst h
    simp at herror
  | ok u => exact ⟨u, rfl, h⟩

lemma orThrow_of_decodeUleb {bytes : List UInt8} {u : Nat × List UInt8} (h : decodeUleb bytes = some u) :
    (readUleb128 bytes).orThrow = .ok u := by
  obtain ⟨herror, hvalue, hrest⟩ := of_decodeUleb h
  rw [LebRead.orThrow, herror, hvalue, hrest]

lemma readUleb128Checked_of_decodeUleb {bytes : List UInt8} {u : Nat × List UInt8}
    (h : decodeUleb bytes = some u) (hfits : UlebFits bytes) : readUleb128Checked bytes = .ok u := by
  rw [readUleb128Checked_of_fits hfits, orThrow_of_decodeUleb h]

lemma of_readUleb128Checked {bytes : List UInt8} {u : Nat × List UInt8}
    (h : readUleb128Checked bytes = .ok u) : UlebFits bytes ∧ u.2 = (readUleb128 bytes).rest := by
  by_cases hfits : UlebFits bytes
  · rw [readUleb128Checked_of_fits hfits, LebRead.orThrow] at h
    split at h
    · simp at h
    · rw [Except.ok.injEq] at h
      rw [← h]
      exact ⟨hfits, rfl⟩
  · rw [readUleb128Checked_of_not_fits hfits] at h
    simp at h

lemma readUleb128Pointer_of_decodeUleb {width : Nat} {bytes : List UInt8} {u : Nat × List UInt8}
    (h : decodeUleb bytes = some u) :
    readUleb128Pointer width bytes = .ok (u.1 % 2 ^ width, u.2) := by
  rw [readUleb128Pointer, orThrow_of_decodeUleb h]
  rfl

end Operand

/-! ### The cache builder -/

/-- An instruction, for the `Adjustor`. -/
def execAdjust (r : AdjustRegisters) (op : RebaseOp) (s : AdjustRun) :
    Option (AdjustRegisters × AdjustRun) :=
  match op with
  | .setType type => some ({ r with type := type }, s)
  | .setSegment segIndex offset => some ({ r with segIndex := segIndex, segOffset := offset }, s)
  | .add delta => some ({ r with segOffset := addOffset delta r.segOffset }, s)
  | .rebase count stride =>
    (countedLoop (slidePointer r) (addOffset stride) count r.segOffset s).map (fun t =>
      ({ r with segOffset := t.1 }, t.2.1))

section Adjust

variable {ptrSize : Nat} {r : AdjustRegisters} {b : UInt8} {bytes rest : List UInt8} {s : AdjustRun}

lemma slideTurn_next (r : AdjustRegisters) (rest : List UInt8) (count stride : Nat) (s : AdjustRun) :
    (slideTurn r rest count stride s).bind Turn.next =
      (execAdjust r (.rebase count stride) s).map (fun t => (t.1, rest, t.2)) := by
  rw [slideTurn, execAdjust]
  cases countedLoop (slidePointer r) (addOffset stride) count r.segOffset s <;> rfl

lemma adjustDataPointersTurn_next {op : RebaseOp} (hfits : operandsFit b bytes)
    (hdecode : decodeRebase ptrSize b bytes = some (op, rest)) :
    (adjustDataPointersTurn ptrSize r b bytes s).bind Turn.next =
      (execAdjust r op s).map (fun t => (t.1, rest, t.2)) := by
  cases decoded_of_decodeRebase hdecode with
  | setType hop => simp [adjustDataPointersTurn, hop, Turn.next, execAdjust]
  | @setSegment hop u hu =>
    simp only [operandsFit, hop] at hfits
    simp only [adjustDataPointersTurn, hop, withOperand_ok (readUleb128Checked_of_decodeUleb hu hfits)]
    rfl
  | @addUleb hop u hu =>
    simp only [operandsFit, hop] at hfits
    simp only [adjustDataPointersTurn, hop, withOperand_ok (readUleb128Checked_of_decodeUleb hu hfits)]
    rfl
  | addScaled hop => simp [adjustDataPointersTurn, hop, Turn.next, execAdjust]
  | immTimes hop =>
    simp only [adjustDataPointersTurn, hop]
    exact slideTurn_next _ _ _ _ _
  | @ulebTimes hop u hu =>
    simp only [operandsFit, hop] at hfits
    simp only [adjustDataPointersTurn, hop, withOperand_ok (readUleb128Checked_of_decodeUleb hu hfits)]
    exact slideTurn_next _ _ _ _ _
  | @addAddr hop u hu =>
    simp only [operandsFit, hop] at hfits
    simp only [adjustDataPointersTurn, hop, withOperand_ok (readUleb128Checked_of_decodeUleb hu hfits),
      execAdjust, countedLoop_one]
    rfl
  | @skipping hop u v hu hv =>
    simp only [operandsFit, hop] at hfits
    rw [(of_decodeUleb hu).2.2] at hfits
    simp only [adjustDataPointersTurn, hop,
      withOperand_ok (readUleb128Checked_of_decodeUleb hu hfits.1),
      withOperand_ok (readUleb128Checked_of_decodeUleb hv hfits.2)]
    exact slideTurn_next _ _ _ _ _

lemma of_slideTurn {count stride : Nat} {t : Turn AdjustRegisters AdjustRun RebaseThrow}
    (h : slideTurn r rest count stride s = some t) : t.stop = false := by
  obtain ⟨u, -, rfl⟩ := Option.map_eq_some_iff.mp h
  rfl

lemma adjustDataPointersTurn_fits {t : Turn AdjustRegisters AdjustRun RebaseThrow}
    (h : adjustDataPointersTurn ptrSize r b bytes s = some t) (hdone : isDone b = false)
    (herror : t.error = none) : operandsFit b bytes ∧ t.stop = false := by
  unfold adjustDataPointersTurn at h
  unfold operandsFit
  dsimp only at h
  split at h
  case h_1 hop =>
    rw [isDone_iff.mpr hop] at hdone
    exact absurd hdone (by simp)
  case h_10 =>
    rw [Option.some.injEq] at h
    subst h
    simp at herror
  all_goals
    rename_i hop
    simp only [hop]
  case h_2 =>
    rw [Option.some.injEq] at h
    subst h
    exact ⟨trivial, rfl⟩
  case h_3 =>
    obtain ⟨u, hu, h⟩ := of_withOperand h herror
    rw [Option.some.injEq] at h
    subst h
    exact ⟨(of_readUleb128Checked hu).1, rfl⟩
  case h_4 =>
    obtain ⟨u, hu, h⟩ := of_withOperand h herror
    rw [Option.some.injEq] at h
    subst h
    exact ⟨(of_readUleb128Checked hu).1, rfl⟩
  case h_5 =>
    rw [Option.some.injEq] at h
    subst h
    exact ⟨trivial, rfl⟩
  case h_6 => exact ⟨trivial, of_slideTurn h⟩
  case h_7 =>
    obtain ⟨u, hu, h⟩ := of_withOperand h herror
    exact ⟨(of_readUleb128Checked hu).1, of_slideTurn h⟩
  case h_8 =>
    obtain ⟨u, hu, h⟩ := of_withOperand h herror
    rw [Option.some.injEq] at h
    subst h
    exact ⟨(of_readUleb128Checked hu).1, rfl⟩
  case h_9 =>
    obtain ⟨u, hu, h⟩ := of_withOperand h herror
    obtain ⟨v, hv, h⟩ := of_withOperand h herror
    have hu' := of_readUleb128Checked hu
    rw [hu'.2] at hv
    exact ⟨⟨hu'.1, (of_readUleb128Checked hv).1⟩, of_slideTurn h⟩

lemma operandsFit_of_adjustDataPointers {image : RebaseImage} {s : AdjustRun}
    (h : adjustDataPointers image = some (s, none)) : image.OperandsFit := by
  unfold adjustDataPointers at h
  refine along_of_interpret ?_ ?_ h
  · intro r b bytes s t hturn hdone herror
    exact (adjustDataPointersTurn_fits hturn hdone herror).1
  intro r b bytes s t d hturn hdone herror hd
  obtain ⟨hfits, hstop⟩ := adjustDataPointersTurn_fits hturn hdone herror
  have hnext := adjustDataPointersTurn_next (r := r) (s := s) hfits hd
  rw [hturn, Option.bind_some, Turn.next, herror, hstop] at hnext
  obtain ⟨u, -, hu⟩ := Option.map_eq_some_iff.mp hnext.symm
  exact ⟨hstop, congrArg (·.2.1) hu.symm⟩

lemma adjustDataPointers_iff {image : RebaseImage} (hfits : image.OperandsFit)
    (hprogram : rebaseProgram image.ptrSize image.opcodes.length image.opcodes = some image.program)
    {s' : AdjustRun} :
    adjustDataPointers image = some (s', none) ↔ execAll execAdjust image.program {} {} = some s' := by
  have hdone : ∀ (r : AdjustRegisters) (b : UInt8) (bytes : List UInt8) (s : AdjustRun),
      isDone b = true → terminatedEarly bytes = false →
        ∃ r' rest, adjustDataPointersTurn image.ptrSize r b bytes s =
          some { regs := r', rest := rest, state := s, stop := true } := by
    intro r b bytes s hdone _
    rw [isDone_iff] at hdone
    exact ⟨r, bytes, by simp only [adjustDataPointersTurn, hdone]⟩
  have hstop : ∀ (r : AdjustRegisters) (b : UInt8) (bytes : List UInt8) (s : AdjustRun)
      (t : Turn AdjustRegisters AdjustRun RebaseThrow),
      adjustDataPointersTurn image.ptrSize r b bytes s = some t → isDone b = false → t.error = none →
        t.stop = true → ¬True := by
    intro r b bytes s t hturn hdone herror hstop
    rw [(adjustDataPointersTurn_fits hturn hdone herror).2] at hstop
    exact absurd hstop (by simp)
  exact interpret_iff_execAll (fun _ => True) hdone
    (fun r b bytes s op rest _ hq hd => adjustDataPointersTurn_next hq hd) hstop hprogram hfits trivial

end Adjust

/-! ### Types -/

def PointerType : RebaseOp → Prop
  | .setType type => type = 1
  | _ => True

/-- The type that the other interpreters keep for a kind. -/
def TypeOfKind (kind : RebaseKind) (type : Nat) : Prop :=
  (kind = .pointer ∧ type = 1) ∨ (kind = .unknown ∧ type = 0)

section Types

variable {image : RebaseImage}

lemma kind_of_valid {r : RebaseRegisters} (h : invalidRebaseState image r = none) :
    r.kind ≠ .unknown := by
  intro hkind
  unfold invalidRebaseState at h
  dsimp only at h
  rw [hkind] at h
  split_ifs at h

lemma typeOfKind_of_valid {r : RebaseRegisters} {type : Nat}
    (h : invalidRebaseState image r = none) (htype : TypeOfKind r.kind type) : type = 1 := by
  rcases htype with ⟨-, htype⟩ | ⟨hkind, -⟩
  · exact htype
  · exact absurd hkind (kind_of_valid h)

/-- The variables of the `Adjustor` follow those of dyld3. -/
structure AdjustMatches (r : RebaseRegisters) (a : AdjustRegisters) : Prop where
  segIndex : a.segIndex = r.segIndex
  segOffset : a.segOffset = r.segOffset
  type : TypeOfKind r.kind a.type

lemma runBody_slidePointer {a : AdjustRegisters} {l : List Nat} (htype : l ≠ [] → a.type = 1)
    (s : AdjustRun) :
    runBody (slidePointer a) l s =
      ({ s with visited := s.visited ++ l.map (fun o => (a.segIndex, o)) }, false) := by
  induction l generalizing s with
  | nil => simp
  | cons o l ih =>
    have hstep : slidePointer a o s = ({ s with visited := s.visited ++ [(a.segIndex, o)] }, false) := by
      rw [slidePointer, if_pos (Or.inl (htype (by simp)))]
    rw [runBody_cons, hstep, if_neg (by simp), ih (fun _ => htype (by simp))]
    simp

/-- The loop of an instruction of a program that dyld3 accepts. -/
lemma execAdjust_rebase {r : RebaseRegisters} {a : AdjustRegisters} {count stride : Nat}
    (hcount : count < 2 ^ 32) (hmatch : AdjustMatches r a)
    (hvalid : ∀ r' ∈ r.calls (.rebase count stride), invalidRebaseState image r' = none)
    (s : AdjustRun) :
    execAdjust a (.rebase count stride) s = some
      ({ a with segOffset := (r.step (.rebase count stride)).segOffset },
        { s with visited := s.visited ++
            (r.calls (.rebase count stride)).map (fun r => (r.segIndex, r.segOffset)) }) := by
  have htype : trail (addOffset stride) count r.segOffset ≠ [] → a.type = 1 := by
    intro hne
    obtain ⟨o, ho⟩ := List.exists_mem_of_ne_nil _ hne
    have hcall : { r with segOffset := o } ∈ r.calls (.rebase count stride) :=
      List.mem_map_of_mem ho
    exact typeOfKind_of_valid (hvalid _ hcall) hmatch.type
  have hloop := countedLoop_eq_iff.mpr ⟨hcount, rfl, runBody_slidePointer htype s⟩
  rw [execAdjust, hmatch.segOffset, hloop, Option.map_some, hmatch.segIndex]
  simp only [RebaseRegisters.step, RebaseRegisters.calls, List.map_map]
  rfl

/-- The `Adjustor` slides the locations of a program that dyld3 accepts. -/
lemma execAll_adjust {ops : List RebaseOp} (hcounts : ∀ op ∈ ops, CountFits op)
    (htypes : ∀ op ∈ ops, PointerType op) {r : RebaseRegisters} {a : AdjustRegisters}
    (hmatch : AdjustMatches r a)
    (hvalid : ∀ r' ∈ handlerCalls r ops, invalidRebaseState image r' = none) (s : AdjustRun) :
    execAll execAdjust ops a s = some { s with
      visited := s.visited ++ (handlerCalls r ops).map (fun r => (r.segIndex, r.segOffset)) } := by
  induction ops generalizing r a s with
  | nil => simp [execAll, handlerCalls]
  | cons op ops ih =>
    have hcounts' : ∀ op ∈ ops, CountFits op := fun op' hop' => hcounts op' (by simp [hop'])
    have htypes' : ∀ op ∈ ops, PointerType op := fun op' hop' => htypes op' (by simp [hop'])
    rw [handlerCalls] at hvalid
    have hvalid' : ∀ r' ∈ handlerCalls (r.step op) ops, invalidRebaseState image r' = none :=
      fun r' hr' => hvalid r' (List.mem_append_right _ hr')
    rw [execAll, handlerCalls]
    cases op with
    | setType type =>
      have htype : type = 1 := htypes (.setType type) (by simp)
      subst htype
      have hmatch' : AdjustMatches (r.step (.setType 1)) { a with type := 1 } :=
        ⟨hmatch.segIndex, hmatch.segOffset, .inl ⟨rfl, rfl⟩⟩
      exact ih hcounts' htypes' hmatch' hvalid' s
    | setSegment k o =>
      have hmatch' : AdjustMatches (r.step (.setSegment k o)) { a with segIndex := k, segOffset := o } :=
        ⟨rfl, rfl, hmatch.type⟩
      exact ih hcounts' htypes' hmatch' hvalid' s
    | add delta =>
      have hmatch' : AdjustMatches (r.step (.add delta))
          { a with segOffset := addOffset delta a.segOffset } :=
        ⟨hmatch.segIndex, by simp only [RebaseRegisters.step, hmatch.segOffset], hmatch.type⟩
      exact ih hcounts' htypes' hmatch' hvalid' s
    | rebase count stride =>
      have hmatch' : AdjustMatches (r.step (.rebase count stride))
          { a with segOffset := (r.step (.rebase count stride)).segOffset } :=
        ⟨hmatch.segIndex, rfl, hmatch.type⟩
      rw [execAdjust_rebase (hcounts (.rebase count stride) (by simp)) hmatch
        (fun r' hr' => hvalid r' (List.mem_append_left _ hr')), Option.bind_some,
        ih hcounts' htypes' hmatch' hvalid', List.map_append, List.append_assoc]

end Types

end Dyld.MachO
