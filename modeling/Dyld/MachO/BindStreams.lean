import Dyld.MachO.OpcodeRuns

/-!
# What binding reads and calls

The loops of `forEachBind` look for the end of a symbol name without regard to the end of their stream,
show the byte behind a bad opcode, and forget at the end of a stream that the handler wanted to stop.
-/

namespace Dyld.MachO

open Dyld.Lib

/-! ### What an opcode reads -/

/-- There is a NUL behind a symbol opcode, and a byte behind a bad one; the lazy loop does not show it. -/
def OpcodeInside (lazyLoop : Bool) (b : UInt8) (bytes : List UInt8) : Prop :=
  (b.toNat / 16 = 4 → 0 ∈ bytes) ∧ (lazyLoop = false → 13 ≤ b.toNat / 16 → bytes ≠ [])

lemma nameReach_le_iff {bytes : List UInt8} : nameReach bytes ≤ bytes.length ↔ 0 ∈ bytes := by
  induction bytes with
  | nil => simp [nameReach]
  | cons b bytes ih =>
    rw [nameReach, List.takeWhile_cons]
    by_cases hb : b = 0
    · simp [hb]
    · have hne : decide (b ≠ 0) = true := decide_eq_true hb
      rw [if_pos hne, List.length_cons, List.length_cons, List.mem_cons, ← ih, nameReach]
      simp [Ne.symm hb]

section Outside

variable (lazyBind : Bool) (ptrSize : Nat) (r : BindRegisters) (b : UInt8) (immediate : Nat)
  (bytes : List UInt8)

lemma setBind_outside : (setBind lazyBind r bytes).outside = false := rfl

lemma doBind_outside (count stride : Nat) : (doBind lazyBind r bytes count stride).outside = false := rfl

/-- Numbers are read inside the stream. -/
lemma setBindUleb_outside (f : Nat → BindRegisters) : (setBindUleb lazyBind bytes f).outside = false := by
  have hle := ulebReach_le 0 bytes
  simpa [setBindUleb] using hle

lemma setAddend_outside : (setAddend lazyBind r bytes).outside = false := by
  have hle := slebReach_le bytes
  simpa [setAddend] using hle

lemma doBindAddAddr_outside : (doBindAddAddr lazyBind r bytes ptrSize).outside = false := by
  have hle := ulebReach_le 0 bytes
  simpa [doBindAddAddr] using hle

lemma doBindTimes_outside : (doBindTimes lazyBind r bytes ptrSize).outside = false := by
  have hfirst := ulebReach_le 0 bytes
  have hsecond := ulebReach_le 0 (readUleb128 bytes).rest
  simpa [doBindTimes] using And.intro hfirst hsecond

lemma setSymbol_outside : (setSymbol lazyBind r immediate bytes).outside = false ↔ 0 ∈ bytes := by
  rw [← nameReach_le_iff]
  simp [setSymbol]

lemma badBindOpcode_outside : (badBindOpcode lazyBind r bytes).outside = false ↔ bytes ≠ [] := by
  simp [badBindOpcode]

lemma regularOpcode_outside :
    (regularOpcode ptrSize r b bytes).outside = false ↔ OpcodeInside false b bytes := by
  rw [regularOpcode, OpcodeInside]
  generalize b.toNat / 16 = opcode
  dsimp only
  split
  case h_5 => simp [setSymbol_outside]
  case h_14 =>
    have hbig : 13 ≤ opcode := by grind
    have hsymbol : opcode ≠ 4 := by assumption
    simp [badBindOpcode_outside, hbig, hsymbol]
  all_goals
    simp [setBind_outside, doBind_outside, setBindUleb_outside, setAddend_outside, setSegment, addAddr,
      doBindAddAddr_outside, doBindTimes_outside]

lemma lazyOpcode_outside : (lazyOpcode ptrSize r b bytes).outside = false ↔ OpcodeInside true b bytes := by
  rw [lazyOpcode, OpcodeInside]
  generalize b.toNat / 16 = opcode
  dsimp only
  split
  case h_5 => simp [setSymbol_outside]
  case h_9 =>
    have hsymbol : opcode ≠ 4 := by assumption
    simp [setBind_outside, hsymbol]
  all_goals
    simp [setBind_outside, doBind_outside, setBindUleb_outside, setAddend_outside, setSegment]

lemma weakOpcode_outside :
    (weakOpcode ptrSize r b bytes).outside = false ↔ OpcodeInside false b bytes := by
  rw [weakOpcode, OpcodeInside]
  generalize b.toNat / 16 = opcode
  dsimp only
  split
  case h_5 => simp [setWeakSymbol, setSymbol_outside]
  case h_14 =>
    have hbig : 13 ≤ opcode := by grind
    have hsymbol : opcode ≠ 4 := by assumption
    simp [badBindOpcode_outside, hbig, hsymbol]
  all_goals
    simp [setBind_outside, doBind_outside, setBindUleb_outside, setAddend_outside, setSegment, addAddr,
      doBindAddAddr_outside, doBindTimes_outside]

end Outside

/-! ### Symbol names -/

def BindRegisters.NameInside (r : BindRegisters) : Prop := ∀ name ∈ r.symbolName, name.terminated = true

def BindEvent.NameInside : BindEvent → Prop
  | .bind _ r => r.NameInside
  | .strong symbolName => ∀ name ∈ symbolName, name.terminated = true

section Names

variable (ptrSize : Nat)

lemma symbolNameAt_inside {bytes : List UInt8} (h : 0 ∈ bytes) (r : BindRegisters) (weakImport : Bool) :
    BindRegisters.NameInside { r with weakImport := weakImport, symbolName := some (symbolNameAt bytes) } := by
  intro name hname
  rw [← Option.some.inj hname]
  exact List.contains_iff_mem.mpr h

lemma BindRegisters.NameInside.withOrdinal {r : BindRegisters} (h : r.NameInside) (ordinal : Int) :
    BindRegisters.NameInside { r with libraryOrdinal := ordinal, libraryOrdinalSet := true } := h

lemma regularOpcode_keeps :
    Machine.Keeps BindRegisters.NameInside BindEvent.NameInside (regularOpcode ptrSize) := by
  intro r b bytes hr hinside
  rw [regularOpcode_outside, OpcodeInside] at hinside
  rw [regularOpcode]
  generalize b.toNat / 16 = opcode at hinside
  dsimp only
  split
  case h_2 | h_3 | h_4 => exact ⟨hr.withOrdinal _, fun _ h => h, fun _ h => h⟩
  case h_5 => exact ⟨symbolNameAt_inside (hinside.1 rfl) r _, fun _ h => h, fun _ h => h⟩
  all_goals exact ⟨hr, fun _ h => h, fun _ h => h⟩

lemma lazyOpcode_keeps :
    Machine.Keeps BindRegisters.NameInside BindEvent.NameInside (lazyOpcode ptrSize) := by
  intro r b bytes hr hinside
  rw [lazyOpcode_outside, OpcodeInside] at hinside
  rw [lazyOpcode]
  generalize b.toNat / 16 = opcode at hinside
  dsimp only
  split
  case h_2 | h_3 | h_4 => exact ⟨hr.withOrdinal _, fun _ h => h, fun _ h => h⟩
  case h_5 => exact ⟨symbolNameAt_inside (hinside.1 rfl) r _, fun _ h => h, fun _ h => h⟩
  all_goals exact ⟨hr, fun _ h => h, fun _ h => h⟩

lemma weakOpcode_keeps :
    Machine.Keeps BindRegisters.NameInside BindEvent.NameInside (weakOpcode ptrSize) := by
  intro r b bytes hr hinside
  rw [weakOpcode_outside, OpcodeInside] at hinside
  rw [weakOpcode]
  generalize b.toNat / 16 = opcode at hinside
  dsimp only
  split
  case h_5 => exact ⟨symbolNameAt_inside (hinside.1 rfl) r _, fun _ h => h, fun _ h => h⟩
  all_goals exact ⟨hr, fun _ h => h, fun _ h => h⟩

end Names

/-! ### Runs -/

section Runs

variable {σ : Type} (image : BindImage) (handler : σ → Bool → BindRegisters → σ × Bool)
  (strongHandler : σ → Option SymbolName → σ) (s : σ)

/-- `forEachBind` with two handlers, after `n` steps. -/
def bindRun (n : Nat) : Machine σ BindRegisters BindEvent BindError :=
  Machine.run (bindHandler handler strongHandler) (fun _ => none) n (forEachBind image s)

/-- It reads its streams only, hands out names that end there, and the calls are those that are made
for a handler that never stops, up to the first stop. -/
structure BindsSoundly : Prop where
  reads : ∀ n, (bindRun image handler strongHandler s n).outside = false
  names : ∀ n, ∀ e ∈ (bindRun image handler strongHandler s n).log, e.NameInside
  stops : ∀ n, (bindRun image handler strongHandler s n).log =
    Machine.upToStop (bindHandler handler strongHandler) (Machine.silentRun n (forEachBind image ())).log s

/-- Every opcode that is taken up reads inside its stream. While the lazy loop runs one stream is to
come. -/
def OpcodesInside : Prop :=
  ∀ n b bytes, (bindRun image handler strongHandler s n).mode = .opcodes →
    (bindRun image handler strongHandler s n).stream.bytes = b :: bytes →
      OpcodeInside ((bindRun image handler strongHandler s n).later.length == 1) b bytes

variable {image handler strongHandler s}

/-- Which loop runs shows in the streams to come. -/
def InLoop (image : BindImage) (m : Machine σ BindRegisters BindEvent BindError) : Prop :=
  m.later = [image.lazyStream, image.weakStream] ∧ m.stream.decode = regularOpcode image.ptrSize ∨
    m.later = [image.weakStream] ∧ m.stream.decode = lazyOpcode image.ptrSize ∨
    m.later = [] ∧ m.stream.decode = weakOpcode image.ptrSize

lemma InLoop.leave {m : Machine σ BindRegisters BindEvent BindError} (h : InLoop image m)
    (error : Option BindError) : InLoop image (m.leave error) := by
  cases error with
  | some e => exact h
  | none =>
    rcases h with ⟨hlater, -⟩ | ⟨hlater, -⟩ | ⟨hlater, hdecode⟩
    · simp only [Machine.leave, hlater]
      exact Or.inr (Or.inl ⟨rfl, rfl⟩)
    · simp only [Machine.leave, hlater]
      exact Or.inr (Or.inr ⟨rfl, rfl⟩)
    · simp only [Machine.leave, hlater]
      exact Or.inr (Or.inr ⟨rfl, hdecode⟩)

lemma InLoop.step {diag : σ → Option BindError} {m m' : Machine σ BindRegisters BindEvent BindError}
    {eventHandler : σ → BindEvent → σ × Bool} (h : InLoop image m)
    (hstep : Machine.Stepped eventHandler diag m m') : InLoop image m' := by
  cases hstep with
  | ended hmode => exact h
  | last hmode hbytes => exact h.leave none
  | opcode hmode hbytes => exact h
  | stop hmode hi hstop =>
    apply InLoop.leave
    exact h
  | call hmode hi hgo => exact h
  | leave hmode hi hend => exact h.leave _
  | next hmode hi hend => exact h

lemma bindRun_inLoop (n : Nat) : InLoop image (bindRun image handler strongHandler s n) := by
  induction n with
  | zero => exact Or.inl ⟨rfl, rfl⟩
  | succ n ih =>
    rw [bindRun, Machine.run_succ]
    exact ih.step (Machine.stepped _ _ _)

lemma InLoop.outside_iff {m : Machine σ BindRegisters BindEvent BindError} (h : InLoop image m) (b : UInt8)
    (bytes : List UInt8) :
    (m.stream.decode m.stream.regs b bytes).outside = false ↔
      OpcodeInside (m.later.length == 1) b bytes := by
  rcases h with ⟨hlater, hdecode⟩ | ⟨hlater, hdecode⟩ | ⟨hlater, hdecode⟩
  · rw [hlater, hdecode]
    exact regularOpcode_outside _ _ _ _
  · rw [hlater, hdecode]
    exact lazyOpcode_outside _ _ _ _
  · rw [hlater, hdecode]
    exact weakOpcode_outside _ _ _ _

lemma opcodesInside_iff :
    OpcodesInside image handler strongHandler s ↔
      ∀ n, (bindRun image handler strongHandler s n).outside = false := by
  simp only [bindRun]
  rw [Machine.outside_iff rfl]
  apply forall_congr'
  intro n
  exact forall₂_congr (fun b bytes => imp_congr_right (fun _ => imp_congr_right (fun _ =>
    ((bindRun_inLoop n).outside_iff b bytes).symm)))

lemma forEachBind_good (image : BindImage) (s : σ) :
    Machine.Good BindRegisters.NameInside BindEvent.NameInside (forEachBind image s) := by
  have hnone : ∀ r : BindRegisters, r.symbolName = none → r.NameInside := by
    intro r hr name hname
    rw [hr] at hname
    exact absurd hname (by simp)
  refine ⟨fun e he => absurd he (by simp [forEachBind, Machine.start]), ?_, fun o i made h => ?_⟩
  · intro stream hstream
    simp only [forEachBind, Machine.start, List.mem_cons, List.not_mem_nil, or_false] at hstream
    rcases hstream with rfl | rfl | rfl
    · exact ⟨hnone _ rfl, regularOpcode_keeps _⟩
    · exact ⟨hnone _ rfl, lazyOpcode_keeps _⟩
    · exact ⟨hnone _ rfl, weakOpcode_keeps _⟩
  · simp [forEachBind, Machine.start] at h

variable (image handler strongHandler s) in
/-- `forEachBind` is sound exactly when every opcode it takes up reads inside its stream and no stream
with calls comes after the one in which the handler stops. -/
theorem bindsSoundly_iff :
    BindsSoundly image handler strongHandler s ↔
      OpcodesInside image handler strongHandler s ∧
        Machine.StopHonoured (bindHandler handler strongHandler) (forEachBind image s) := by
  constructor
  · intro h
    exact ⟨opcodesInside_iff.mpr h.reads, (Machine.upToStop_iff rfl rfl).mp h.stops⟩
  · rintro ⟨hinside, hhonoured⟩
    have hreads := opcodesInside_iff.mp hinside
    refine ⟨hreads, fun n => ?_, (Machine.upToStop_iff rfl rfl).mpr hhonoured⟩
    exact ((forEachBind_good image s).run hreads n).log

end Runs

def bindStreams (bindOpcodes lazyBindOpcodes weakBindOpcodes : List UInt8) : BindImage where
  segments := []
  linkeditSegIndex := 0
  ptrSize := 8
  dylibCount := 0
  enforceExecutable := true
  forceAllowTextRelocs := false
  bindOpcodes := bindOpcodes
  lazyBindOpcodes := lazyBindOpcodes
  weakBindOpcodes := weakBindOpcodes

/-- A strong definition whose name has no end is handed out, and a handler that stops at the first bind
is called for a lazy one. -/
theorem bindsSoundly_fails :
    ¬BindsSoundly (bindStreams [] [] [0x48, 97]) (fun s _ _ => (s, false)) (fun s _ => s) () ∧
      ¬BindsSoundly (bindStreams [0x90] [0x90] []) (fun s _ _ => (s, true)) (fun s _ => s) () := by
  constructor
  · intro h
    have hname := h.names 4 (.strong (some ⟨[97], false⟩)) (by decide)
    exact absurd (hname ⟨[97], false⟩ rfl) (by decide)
  · intro h
    have hcalls := congrArg List.length (h.stops 5)
    exact absurd hcalls (by decide)

end Dyld.MachO
