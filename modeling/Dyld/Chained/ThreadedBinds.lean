import Dyld.MachO.Leb128

/-!
# The bind opcodes of old arm64e binaries

Before `LC_DYLD_CHAINED_FIXUPS` the chains of an arm64e image were given by bind opcodes:
`BIND_OPCODE_THREADED` with `APPLY` names the start of a chain.
`MachOAnalyzer::parseOrgArm64eChainedFixups` interprets the opcodes and hands what it finds to its
callbacks. The validator and the function that builds the starts table are two such callbacks.
-/

namespace Dyld.Chained

open Dyld.MachO

/-- `SegmentInfo`, as far as the old chains need it. -/
structure OldArm64eSegmentInfo where
  vmAddr : Nat
  vmSize : Nat
  writable : Bool
  executable : Bool
  deriving DecidableEq, Repr

/-- An old arm64e image: its segments, the bind opcodes, the bytes of `__LINKEDIT` behind them, and
what else the validator reads. -/
structure OldArm64eImage where
  segments : List OldArm64eSegmentInfo
  linkeditSegIndex : Nat
  preferredLoadAddress : Nat
  dependentDylibCount : Nat
  bindOpcodes : List UInt8
  linkeditAfter : List UInt8

def OldArm64eImage.segment (image : OldArm64eImage) (i : Nat) : OldArm64eSegmentInfo :=
  image.segments.getD i ⟨0, 0, false, false⟩

/-- The arguments of the `addTarget` callback. -/
structure BindTarget where
  libraryOrdinalSet : Bool
  libOrdinal : Int
  type : Nat
  symbolName : Option (List UInt8)
  addend : Nat
  weakImport : Bool
  deriving DecidableEq, Repr

/-- The arguments of the `addChainStart` callback. -/
structure ThreadedApply where
  segmentIndex : Nat
  segIndexSet : Bool
  segmentOffset : Nat
  deriving DecidableEq, Repr

inductive BindCallback
  | targetCount (totalTargets : Nat)
  | addTarget (target : BindTarget)
  | addChainStart (start : ThreadedApply)
  deriving DecidableEq, Repr

inductive BindError
  | leb (e : LebError)
  | tableSizeTooLarge
  | badThreadedSubOpcode
  | badOpcode
  deriving DecidableEq, Repr

/-- The local variables of the interpreter. -/
structure BindRegisters where
  type : Nat := 0
  segmentOffset : Nat := 0
  segmentIndex : Nat := 0
  symbolName : Option (List UInt8) := none
  libraryOrdinal : Int := 0
  segIndexSet : Bool := false
  libraryOrdinalSet : Bool := false
  addend : Nat := 0
  weakImport : Bool := false
  deriving DecidableEq, Repr

/-- What one opcode does. -/
structure BindStep where
  registers : BindRegisters
  rest : List UInt8
  call : Option BindCallback := none
  stop : Bool := false
  error : Option BindError := none
  deriving DecidableEq, Repr

/-- The C string at the start of `bytes`, which may run on behind their end, and the bytes behind
its terminator. It is `none` when there is no terminator in `__LINKEDIT`. -/
def readSymbolName (after bytes : List UInt8) : Option (List UInt8 × List UInt8) :=
  if 0 ∈ bytes then some (bytes.takeWhile (· ≠ 0), (bytes.dropWhile (· ≠ 0)).tail)
  else if 0 ∈ after then some (bytes ++ after.takeWhile (· ≠ 0), [])
  else none

def BindRegisters.target (r : BindRegisters) : BindTarget where
  libraryOrdinalSet := r.libraryOrdinalSet
  libOrdinal := r.libraryOrdinal
  type := r.type
  symbolName := r.symbolName
  addend := r.addend
  weakImport := r.weakImport

def BindRegisters.chainStart (r : BindRegisters) : ThreadedApply :=
  ⟨r.segmentIndex, r.segIndexSet, r.segmentOffset⟩

def threadedOpcode (r : BindRegisters) (immediate : Nat) (bytes : List UInt8) : BindStep :=
  match immediate with
  | 0 =>
    let size := readUleb128 bytes
    if size.value > 65535 then
      { registers := r, rest := size.rest, stop := true, error := some .tableSizeTooLarge }
    else
      { registers := r, rest := size.rest, call := some (.targetCount size.value),
        error := size.error.map .leb }
  | 1 => { registers := r, rest := bytes, call := some (.addChainStart r.chainStart) }
  | _ => { registers := r, rest := bytes, error := some .badThreadedSubOpcode }

def bindOpcode (after : List UInt8) (r : BindRegisters) (b : UInt8) (bytes : List UInt8) :
    Option BindStep :=
  let immediate := b.toNat % 16
  match b.toNat / 16 with
  | 0x0 => some { registers := r, rest := bytes, stop := true }
  | 0x1 =>
    some { registers := { r with libraryOrdinal := immediate, libraryOrdinalSet := true },
           rest := bytes }
  | 0x2 =>
    let ordinal := readUleb128 bytes
    some { registers := { r with libraryOrdinal := Int.bmod ordinal.value (2 ^ 32),
                                 libraryOrdinalSet := true },
           rest := ordinal.rest, error := ordinal.error.map .leb }
  | 0x3 =>
    -- the special ordinals are negative numbers
    let ordinal : Int := if immediate = 0 then 0 else (immediate : Int) - 16
    some { registers := { r with libraryOrdinal := ordinal, libraryOrdinalSet := true },
           rest := bytes }
  | 0x4 =>
    (readSymbolName after bytes).map (fun name =>
      { registers := { r with weakImport := immediate % 2 = 1, symbolName := some name.1 },
        rest := name.2 })
  | 0x5 => some { registers := { r with type := immediate }, rest := bytes }
  | 0x6 =>
    let addend := readSleb128 bytes
    some { registers := { r with addend := addend.value },
           rest := addend.rest, error := addend.error.map .leb }
  | 0x7 =>
    let offset := readUleb128 bytes
    some { registers := { r with segmentIndex := immediate, segmentOffset := offset.value,
                                 segIndexSet := true },
           rest := offset.rest, error := offset.error.map .leb }
  | 0x9 => some { registers := r, rest := bytes, call := some (.addTarget r.target) }
  | 0xD => some (threadedOpcode r immediate bytes)
  | _ => some { registers := r, rest := bytes, error := some .badOpcode }

section Interpreter

variable {σ : Type} (callback : σ → BindCallback → σ × Bool) (after : List UInt8)

/-- What a turn does to the state of the callbacks, and whether they stop. -/
def BindStep.run (step : BindStep) (s : σ) : σ × Bool :=
  match step.call with
  | none => (s, false)
  | some c => callback s c

/-- The loop of the interpreter. Each turn takes at least one byte, so as much fuel as there are
bytes is enough. -/
def parseBindOpcodes : Nat → List UInt8 → BindRegisters → σ → Option (σ × Option BindError)
  | _, [], _, s => some (s, none)
  | 0, _ :: _, _, _ => none
  | fuel + 1, b :: bytes, r, s =>
    (bindOpcode after r b bytes).bind (fun step =>
      let t := step.run callback s
      if step.error ≠ none then some (t.1, step.error)
      else if step.stop || t.2 then some (t.1, none)
      else parseBindOpcodes fuel step.rest step.registers t.1)

end Interpreter

def parseOrgArm64eChainedFixups {σ : Type} (callback : σ → BindCallback → σ × Bool)
    (image : OldArm64eImage) (s : σ) : Option (σ × Option BindError) :=
  parseBindOpcodes callback image.linkeditAfter image.bindOpcodes.length image.bindOpcodes {} s

/-! ### The validator -/

inductive OldArm64eError
  | missingSymbolName
  | missingDylibOrdinal
  | ordinalTooLarge
  | unknownSpecialOrdinal
  | unknownBindType
  | targetCountExceeded
  | missingSegment
  | segmentIndexTooLarge
  | offsetBeyondSegment
  | notWritable
  | executable
  deriving DecidableEq, Repr

/-- The variables that the callbacks of the validator share. -/
structure OldArm64eCheck where
  maxTargetCount : Nat := 0
  currentTargetCount : Nat := 0
  error : Option OldArm64eError := none
  deriving DecidableEq, Repr

section Validator

variable (image : OldArm64eImage)

def targetError (check : OldArm64eCheck) (t : BindTarget) : Option OldArm64eError :=
  if t.symbolName = none then some .missingSymbolName
  else if t.libraryOrdinalSet = false then some .missingDylibOrdinal
  else if t.libOrdinal > image.dependentDylibCount then some .ordinalTooLarge
  else if t.libOrdinal < -3 then some .unknownSpecialOrdinal
  else if t.type ≠ 1 then some .unknownBindType
  else if check.currentTargetCount > check.maxTargetCount then some .targetCountExceeded
  else none

def chainStartError (start : ThreadedApply) : Option OldArm64eError :=
  let segment := image.segment start.segmentIndex
  if start.segIndexSet = false then some .missingSegment
  else if start.segmentIndex ≥ image.linkeditSegIndex then some .segmentIndexTooLarge
  else if start.segmentOffset > (segment.vmSize + (2 ^ 64 - 8)) % 2 ^ 64 then
    some .offsetBeyondSegment
  else if segment.writable = false then some .notWritable
  else if segment.executable = true then some .executable
  else none

def checkOldArm64e (check : OldArm64eCheck) : BindCallback → OldArm64eCheck × Bool
  | .targetCount totalTargets => ({ check with maxTargetCount := totalTargets }, false)
  | .addTarget target =>
    let error := targetError image check target
    ({ check with currentTargetCount := check.currentTargetCount + 1, error := error },
      error.isSome)
  | .addChainStart start =>
    let error := chainStartError image start
    ({ check with error := error }, error.isSome)

def validChainedFixupsInfoOldArm64e : Bool :=
  match parseOrgArm64eChainedFixups (checkOldArm64e image) image {} with
  | some (check, none) => check.error.isNone
  | _ => false

end Validator

/-! ### What an accepted stream hands to its callbacks -/

def BindStep.calls (step : BindStep) : List BindCallback := step.call.toList

def bindTrace (after : List UInt8) :
    Nat → List UInt8 → BindRegisters → Option (List BindCallback × Option BindError)
  | _, [], _ => some ([], none)
  | 0, _ :: _, _ => none
  | fuel + 1, b :: bytes, r =>
    (bindOpcode after r b bytes).bind (fun step =>
      if step.error ≠ none then some (step.calls, step.error)
      else if step.stop then some (step.calls, none)
      else (bindTrace after fuel step.rest step.registers).map (fun t => (step.calls ++ t.1, t.2)))

def OldArm64eImage.bindTrace (image : OldArm64eImage) :
    Option (List BindCallback × Option BindError) :=
  Chained.bindTrace image.linkeditAfter image.bindOpcodes.length image.bindOpcodes {}

def BindCallback.chainStart? : BindCallback → Option (Nat × Nat)
  | .addChainStart start => some (start.segmentIndex, start.segmentOffset)
  | _ => none

/-- The (segment, offset) pairs of the `APPLY` opcodes. -/
def OldArm64eImage.threadedApplies (image : OldArm64eImage) : List (Nat × Nat) :=
  match image.bindTrace with
  | some (l, _) => l.filterMap BindCallback.chainStart?
  | none => []

def runCallbacks {σ : Type} (callback : σ → BindCallback → σ × Bool) (s : σ)
    (l : List BindCallback) : σ :=
  l.foldl (fun s c => (callback s c).1) s

section Runs

variable {σ : Type} {callback : σ → BindCallback → σ × Bool} {after : List UInt8}

lemma BindStep.run_fst (step : BindStep) (s : σ) :
    (step.run callback s).1 = runCallbacks callback s step.calls := by
  unfold BindStep.run BindStep.calls runCallbacks
  cases step.call <;> rfl

lemma runCallbacks_append (s : σ) (l l' : List BindCallback) :
    runCallbacks callback s (l ++ l') = runCallbacks callback (runCallbacks callback s l) l' := by
  simp [runCallbacks]

lemma parseBindOpcodes_eq_trace (hstop : ∀ s c, (callback s c).2 = false) (fuel : Nat)
    (bytes : List UInt8) (r : BindRegisters) (s : σ) :
    parseBindOpcodes callback after fuel bytes r s =
      (bindTrace after fuel bytes r).map (fun t => (runCallbacks callback s t.1, t.2)) := by
  induction fuel generalizing bytes r s with
  | zero => cases bytes <;> rfl
  | succ fuel ih =>
    cases bytes with
    | nil => rfl
    | cons b bytes =>
      rw [parseBindOpcodes, bindTrace, Option.map_bind]
      congr 1
      funext step
      have hrun : (step.run callback s).2 = false := by
        unfold BindStep.run
        cases step.call with
        | none => rfl
        | some c => exact hstop s c
      simp only [hrun, Bool.or_false, BindStep.run_fst, Function.comp_apply]
      split_ifs with herror hdone
      · rfl
      · rfl
      · rw [ih, Option.map_map]
        congr 1
        funext t
        simp only [Function.comp_apply, runCallbacks_append]

variable {image : OldArm64eImage}

def PassesCheck (image : OldArm64eImage) : BindCallback → Prop
  | .addChainStart start => chainStartError image start = none
  | _ => True

lemma BindStep.run_check_stop (image : OldArm64eImage) (step : BindStep) {check : OldArm64eCheck}
    (hcheck : check.error = none) :
    (step.run (checkOldArm64e image) check).2 =
      (step.run (checkOldArm64e image) check).1.error.isSome := by
  unfold BindStep.run
  cases step.call with
  | none => simp [hcheck]
  | some c => cases c <;> simp [checkOldArm64e, hcheck]

lemma BindStep.passesCheck_of_run {step : BindStep} {check : OldArm64eCheck}
    (h : (step.run (checkOldArm64e image) check).1.error = none) :
    ∀ c ∈ step.calls, PassesCheck image c := by
  unfold BindStep.run at h
  unfold BindStep.calls
  cases hcall : step.call with
  | none => simp
  | some c =>
    rw [hcall] at h
    cases c with
    | targetCount totalTargets => simp [PassesCheck]
    | addTarget target => simp [PassesCheck]
    | addChainStart start => simpa [PassesCheck, checkOldArm64e] using h

lemma parseBindOpcodes_checked {fuel : Nat} {bytes : List UInt8} {r : BindRegisters}
    {check check' : OldArm64eCheck} (hcheck : check.error = none)
    (h : parseBindOpcodes (checkOldArm64e image) after fuel bytes r check = some (check', none))
    (hcheck' : check'.error = none) :
    ∃ l, bindTrace after fuel bytes r = some (l, none) ∧ ∀ c ∈ l, PassesCheck image c := by
  induction fuel generalizing bytes r check with
  | zero =>
    cases bytes with
    | nil => exact ⟨[], rfl, by simp⟩
    | cons b bytes => simp [parseBindOpcodes] at h
  | succ fuel ih =>
    cases bytes with
    | nil => exact ⟨[], rfl, by simp⟩
    | cons b bytes =>
      rw [parseBindOpcodes] at h
      rw [bindTrace]
      obtain ⟨step, hstep, h⟩ := Option.bind_eq_some_iff.mp h
      rw [hstep, Option.bind_some]
      dsimp only at h
      have hrun := step.run_check_stop image hcheck
      split_ifs at h with herror hdone
      · rw [Option.some.injEq, Prod.mk.injEq] at h
        exact absurd h.2 herror
      · simp only [Option.some.injEq, Prod.mk.injEq, and_true] at h
        rw [hrun, h, hcheck', Option.isSome_none, Bool.or_false] at hdone
        exact ⟨step.calls, by rw [if_neg herror, if_pos hdone],
          BindStep.passesCheck_of_run (h ▸ hcheck')⟩
      · simp only [Bool.or_eq_true, not_or, Bool.not_eq_true] at hdone
        have hnone : (step.run (checkOldArm64e image) check).1.error = none := by
          rw [hdone.2] at hrun
          simpa using hrun.symm
        obtain ⟨l, hl, hpass⟩ := ih hnone h
        refine ⟨step.calls ++ l, ?_, ?_⟩
        · rw [if_neg herror, if_neg (by simp [hdone.1]), hl]
          rfl
        · intro c hc
          rcases List.mem_append.mp hc with hc | hc
          · exact BindStep.passesCheck_of_run hnone c hc
          · exact hpass c hc

/-- An accepted stream is interpreted to its end, and each `APPLY` names a segment before
`__LINKEDIT`. -/
lemma trace_of_valid (h : validChainedFixupsInfoOldArm64e image = true) :
    ∃ l, image.bindTrace = some (l, none) ∧ ∀ c ∈ l, PassesCheck image c := by
  unfold validChainedFixupsInfoOldArm64e at h
  split at h
  · rename_i check hparse
    exact parseBindOpcodes_checked rfl hparse (by simpa using h)
  · simp at h

lemma segmentIndex_lt_of_passesCheck {start : ThreadedApply}
    (h : chainStartError image start = none) : start.segmentIndex < image.linkeditSegIndex := by
  by_contra hge
  unfold chainStartError at h
  dsimp only at h
  split_ifs at h with h₁ h₂
  omega

lemma segmentIndex_lt_of_valid (h : validChainedFixupsInfoOldArm64e image = true) :
    ∀ x ∈ image.threadedApplies, x.1 < image.linkeditSegIndex := by
  obtain ⟨l, htrace, hpass⟩ := trace_of_valid h
  intro x hx
  rw [OldArm64eImage.threadedApplies, htrace] at hx
  obtain ⟨c, hc, hcx⟩ := List.mem_filterMap.mp hx
  cases c with
  | targetCount totalTargets => simp [BindCallback.chainStart?] at hcx
  | addTarget target => simp [BindCallback.chainStart?] at hcx
  | addChainStart start =>
    rw [BindCallback.chainStart?, Option.some.injEq] at hcx
    rw [← hcx]
    exact segmentIndex_lt_of_passesCheck (hpass _ hc)

end Runs

end Dyld.Chained
