import Dyld.MachO.RebaseOpcodes

/-!
# Runtime offsets

`forEachTextRebase`, `forEachRebase` and `forEachBind` hand locations on as offsets from `__TEXT`. They
look for `__TEXT` when they come to a location, among the segments up to the one of the location, and
remember its address once they have found it.
-/

namespace Dyld.MachO

open Dyld.Lib

structure NamedSegment where
  segName : String
  vmAddr : BitVec 64
  deriving DecidableEq, Repr

structure StartVmAddr where
  isSet : Bool := false
  value : BitVec 64 := 0
  deriving DecidableEq, Repr

def StartVmAddr.lookUp (segments : List NamedSegment) (scanned : Nat) (v : StartVmAddr) : StartVmAddr :=
  if v.isSet then v
  else
    match (segments.take scanned).find? (fun s => s.segName = "__TEXT") with
    | some s => { isSet := true, value := s.vmAddr }
    | none => v

section Blocks

variable {σ : Type} (segments : List NamedSegment)

def locationVmAddr (segmentIndex segmentOffset : Nat) : BitVec 64 :=
  (segments.getD segmentIndex ⟨"", 0⟩).vmAddr + BitVec.ofNat 64 segmentOffset

/-- The block of `MachOAnalyzer::forEachTextRebase`. -/
def textRebaseBlock (handler : BitVec 64 → σ → σ × Bool) (r : RebaseRegisters) (s : StartVmAddr × σ) :
    (StartVmAddr × σ) × Bool :=
  if r.kind ≠ .textAbsolute32 then (s, false)
  else
    let start := s.1.lookUp segments (r.segIndex + 1)
    let t := handler (locationVmAddr segments r.segIndex r.segOffset - start.value) s.2
    ((start, t.1), t.2)

/-- The content that `forEachRebase` reads: the sections of lazy pointers and of the stub helper, the
pointers of the image and where there is the code of a regular stub, by offsets from the start. -/
structure LazyPointers where
  lpVmAddr : BitVec 64
  lpEndVmAddr : BitVec 64
  shVmAddr : BitVec 64
  shEndVmAddr : BitVec 64
  pointerAt : BitVec 64 → BitVec 64
  contentIsRegularStub : BitVec 64 → Bool

def LazyPointers.isLazyPointerRebase (lp : LazyPointers) (rebaseVmAddr startVmAddr : BitVec 64) : Bool :=
  if lp.lpVmAddr ≤ rebaseVmAddr ∧ rebaseVmAddr < lp.lpEndVmAddr then
    let lpValue := lp.pointerAt (rebaseVmAddr - startVmAddr)
    if lp.shVmAddr ≤ lpValue ∧ lpValue < lp.shEndVmAddr then
      lp.contentIsRegularStub (lpValue - startVmAddr)
    else false
  else false

/-- The block of `MachOAnalyzer::forEachRebase`, which hands on pointers only. -/
def rebaseBlock (lp : LazyPointers) (callback : BitVec 64 → Bool → σ → σ × Bool) (r : RebaseRegisters)
    (s : StartVmAddr × σ) : (StartVmAddr × σ) × Bool :=
  match r.kind with
  | .unknown | .textAbsolute32 | .textPCrel32 => (s, false)
  | .pointer =>
    let start := s.1.lookUp segments r.segIndex
    let rebaseVmAddr := locationVmAddr segments r.segIndex r.segOffset
    let t := callback (rebaseVmAddr - start.value) (lp.isLazyPointerRebase rebaseVmAddr start.value) s.2
    ((start, t.1), t.2)

/-- What a bind passes on besides its location. -/
structure BindArguments where
  libOrdinal : Int
  type : Nat
  symbolName : List UInt8
  weakImport : Bool
  lazyBind : Bool
  addend : BitVec 64
  deriving DecidableEq, Repr

structure BindLocation where
  segIndex : Nat
  segOffset : Nat
  arguments : BindArguments
  deriving DecidableEq, Repr

/-- The block of `MachOAnalyzer::forEachBind`. -/
def bindBlock (handler : BitVec 64 → BindArguments → σ → σ × Bool) (l : BindLocation)
    (s : StartVmAddr × σ) : (StartVmAddr × σ) × Bool :=
  let start := s.1.lookUp segments (l.segIndex + 1)
  let t := handler (locationVmAddr segments l.segIndex l.segOffset - start.value) l.arguments s.2
  ((start, t.1), t.2)

end Blocks

/-! ### Blocks that look up an address -/

section LookUp

variable {α γ σ : Type} (segments : List NamedSegment) (handled : α → Bool) (scanned : α → Nat)
  (pass : α → BitVec 64 → γ)

def lookUpBlock (handler : γ → σ → σ × Bool) (l : α) (s : StartVmAddr × σ) : (StartVmAddr × σ) × Bool :=
  if handled l then
    let start := s.1.lookUp segments (scanned l)
    let t := handler (pass l start.value) s.2
    ((start, t.1), t.2)
  else (s, false)

def runBlock (block : α → StartVmAddr × σ → (StartVmAddr × σ) × Bool) (locations : List α) (s : σ) :
    σ × Bool :=
  let t := runBody block locations ({}, s)
  (t.1.2, t.2)

def OffsetsRight (text : BitVec 64) (locations : List α) : Prop :=
  ∀ (σ : Type) (handler : γ → σ → σ × Bool) (s : σ),
    runBlock (lookUpBlock segments handled scanned pass handler) locations s =
      runBody (fun l => handler (pass l text)) (locations.filter handled) s

/-- The address is remembered, or looking it up does not matter. -/
def StartVmAddr.Right (text : BitVec 64) (v : StartVmAddr) : Prop :=
  v.value = text ∧ (v.isSet = true ∨ text = 0)

variable {segments handled scanned pass} {before after : List NamedSegment} {text : NamedSegment}

lemma lookUpBlock_of_handled (handler : γ → σ → σ × Bool) {l : α} (hl : handled l = true)
    (v : StartVmAddr) (s : σ) :
    lookUpBlock segments handled scanned pass handler l (v, s) =
      ((v.lookUp segments (scanned l), (handler (pass l (v.lookUp segments (scanned l)).value) s).1),
        (handler (pass l (v.lookUp segments (scanned l)).value) s).2) := if_pos hl

lemma lookUpBlock_of_not_handled (handler : γ → σ → σ × Bool) {l : α} (hl : ¬handled l = true)
    (s : StartVmAddr × σ) : lookUpBlock segments handled scanned pass handler l s = (s, false) := if_neg hl

lemma lookUp_found (htext : text.segName = "__TEXT") (hone : ∀ s ∈ before ++ after, s.segName ≠ "__TEXT")
    {n : Nat} (hn : before.length < n) :
    StartVmAddr.lookUp (before ++ text :: after) n {} = { isSet := true, value := text.vmAddr } := by
  have hbefore : before.find? (fun s => s.segName = "__TEXT") = none := by
    rw [List.find?_eq_none]
    intro s hs
    simpa using hone s (List.mem_append_left _ hs)
  have hsplit : (before ++ text :: after).take n = before ++ text :: after.take (n - before.length - 1) := by
    rw [List.take_append, List.take_of_length_le hn.le]
    obtain ⟨k, hk⟩ : ∃ k, n - before.length = k + 1 := ⟨n - before.length - 1, by omega⟩
    rw [hk, List.take_succ_cons, Nat.add_sub_cancel]
  rw [StartVmAddr.lookUp, hsplit, List.find?_append, hbefore, Option.none_or,
    List.find?_cons_of_pos (by simpa using htext)]
  rfl

lemma lookUp_missed (hone : ∀ s ∈ before ++ after, s.segName ≠ "__TEXT") {n : Nat} (hn : n ≤ before.length) :
    StartVmAddr.lookUp (before ++ text :: after) n {} = {} := by
  have hnone : ((before ++ text :: after).take n).find? (fun s => s.segName = "__TEXT") = none := by
    rw [List.take_append_of_le_length hn, List.find?_eq_none]
    intro s hs
    simpa using hone s (List.mem_append_left _ ((List.take_sublist _ _).subset hs))
  rw [StartVmAddr.lookUp, hnone]
  rfl

lemma StartVmAddr.Right.lookUp (htext : text.segName = "__TEXT")
    (hone : ∀ s ∈ before ++ after, s.segName ≠ "__TEXT") {v : StartVmAddr} (hv : v.Right text.vmAddr)
    (n : Nat) : (v.lookUp (before ++ text :: after) n).Right text.vmAddr := by
  cases hset : v.isSet with
  | true =>
    rw [StartVmAddr.lookUp, if_pos hset]
    exact hv
  | false =>
    have hzero : text.vmAddr = 0 := hv.2.resolve_left (by simp [hset])
    have hempty : v = {} := by
      cases v
      simp_all [StartVmAddr.Right]
    rw [hempty]
    by_cases hn : before.length < n
    · rw [lookUp_found htext hone hn]
      exact ⟨rfl, Or.inl rfl⟩
    · rw [lookUp_missed hone (not_lt.mp hn)]
      exact ⟨hzero.symm, Or.inr hzero⟩

lemma runBody_lookUpBlock (htext : text.segName = "__TEXT")
    (hone : ∀ s ∈ before ++ after, s.segName ≠ "__TEXT") (handler : γ → σ → σ × Bool)
    (locations : List α) {v : StartVmAddr} (hv : v.Right text.vmAddr) (s : σ) :
    let t := runBody (lookUpBlock (before ++ text :: after) handled scanned pass handler) locations (v, s)
    (t.1.2, t.2) = runBody (fun l => handler (pass l text.vmAddr)) (locations.filter handled) s := by
  induction locations generalizing v s with
  | nil => rfl
  | cons l locations ih =>
    dsimp only at ih ⊢
    rw [runBody_cons]
    by_cases hl : handled l = true
    · have hright := hv.lookUp htext hone (scanned l)
      rw [lookUpBlock_of_handled handler hl, List.filter_cons_of_pos hl, runBody_cons, hright.1]
      split
      · rfl
      · exact ih hright _
    · rw [lookUpBlock_of_not_handled handler hl, List.filter_cons_of_neg hl]
      exact ih hv s

variable (handled scanned) in
theorem offsetsRight_iff (htext : text.segName = "__TEXT")
    (hone : ∀ s ∈ before ++ after, s.segName ≠ "__TEXT")
    (hpass : ∀ l, Function.Injective (pass l)) (locations : List α) :
    OffsetsRight (before ++ text :: after) handled scanned pass text.vmAddr locations ↔
      text.vmAddr = 0 ∨ ∀ l ∈ (locations.filter handled).head?, before.length < scanned l := by
  induction locations with
  | nil => simp [OffsetsRight, runBlock]
  | cons l locations ih =>
    by_cases hl : handled l = true
    · rw [List.filter_cons_of_pos hl, List.head?_cons]
      simp only [Option.mem_some_iff, forall_eq']
      constructor
      · intro h
        rw [or_iff_not_imp_right]
        intro hn
        -- a handler that stops at the first call and keeps what it got
        have hfirst := h (Option γ) (fun g _ => (some g, true)) none
        rw [runBlock, List.filter_cons_of_pos hl, runBody_cons, runBody_cons,
          lookUpBlock_of_handled _ hl, lookUp_missed hone (not_lt.mp hn)] at hfirst
        have hsame := congrArg Prod.fst hfirst
        exact (hpass l (Option.some.inj hsame)).symm
      · intro h σ handler s
        have hright : (StartVmAddr.lookUp (before ++ text :: after) (scanned l) {}).Right text.vmAddr := by
          by_cases hn : before.length < scanned l
          · rw [lookUp_found htext hone hn]
            exact ⟨rfl, Or.inl rfl⟩
          · have hzero := h.resolve_right hn
            exact StartVmAddr.Right.lookUp htext hone ⟨hzero.symm, Or.inr hzero⟩ _
        rw [runBlock, List.filter_cons_of_pos hl, runBody_cons, runBody_cons,
          lookUpBlock_of_handled _ hl, hright.1]
        split
        · rfl
        · exact runBody_lookUpBlock htext hone handler locations hright _
    · rw [List.filter_cons_of_neg hl, ← ih]
      simp only [OffsetsRight, runBlock, runBody_cons, lookUpBlock_of_not_handled _ hl,
        List.filter_cons_of_neg hl]
      rfl

end LookUp
/-! ### The three walks -/

section Walks

variable (segments : List NamedSegment) (lp : LazyPointers) (text : BitVec 64)

def TextRebasesRight (locations : List RebaseRegisters) : Prop :=
  ∀ (σ : Type) (handler : BitVec 64 → σ → σ × Bool) (s : σ),
    runBlock (textRebaseBlock segments handler) locations s =
      runBody (fun r => handler (locationVmAddr segments r.segIndex r.segOffset - text))
        (locations.filter (fun r => r.kind = .textAbsolute32)) s

/-- `forEachRebase` does so, and recognises the lazy pointers. -/
def RebasesRight (locations : List RebaseRegisters) : Prop :=
  ∀ (σ : Type) (callback : BitVec 64 → Bool → σ → σ × Bool) (s : σ),
    runBlock (rebaseBlock segments lp callback) locations s =
      runBody (fun r => callback (locationVmAddr segments r.segIndex r.segOffset - text)
          (lp.isLazyPointerRebase (locationVmAddr segments r.segIndex r.segOffset) text))
        (locations.filter (fun r => r.kind = .pointer)) s

/-- `forEachBind` does so. -/
def BindsRight (locations : List BindLocation) : Prop :=
  ∀ (σ : Type) (handler : BitVec 64 → BindArguments → σ → σ × Bool) (s : σ),
    runBlock (bindBlock segments handler) locations s =
      runBody (fun l => handler (locationVmAddr segments l.segIndex l.segOffset - text) l.arguments)
        locations s

variable {σ : Type}

lemma textRebaseBlock_eq (handler : BitVec 64 → σ → σ × Bool) :
    textRebaseBlock segments handler =
      lookUpBlock segments (fun r => r.kind = .textAbsolute32) (fun r => r.segIndex + 1)
        (fun r v => locationVmAddr segments r.segIndex r.segOffset - v) handler := by
  funext r s
  by_cases hkind : r.kind = .textAbsolute32
  · simp [textRebaseBlock, lookUpBlock, hkind]
  · simp [textRebaseBlock, lookUpBlock, hkind]

lemma rebaseBlock_eq (callback : BitVec 64 → Bool → σ → σ × Bool) :
    rebaseBlock segments lp callback =
      lookUpBlock segments (fun r => r.kind = .pointer) (fun r => r.segIndex)
        (fun r v => (locationVmAddr segments r.segIndex r.segOffset - v,
          lp.isLazyPointerRebase (locationVmAddr segments r.segIndex r.segOffset) v))
        (Function.uncurry callback) := by
  funext r s
  cases hkind : r.kind <;> simp [rebaseBlock, lookUpBlock, hkind]

lemma bindBlock_eq (handler : BitVec 64 → BindArguments → σ → σ × Bool) :
    bindBlock segments handler =
      lookUpBlock segments (fun _ => true) (fun l => l.segIndex + 1)
        (fun l v => (locationVmAddr segments l.segIndex l.segOffset - v, l.arguments))
        (Function.uncurry handler) := rfl

lemma offset_injective {δ : Type} (a : BitVec 64) (f : BitVec 64 → δ) :
    Function.Injective (fun v => (a - v, f v)) := by
  intro v v' h
  exact sub_right_injective (congrArg Prod.fst h)

variable {before after : List NamedSegment} {text : NamedSegment}

lemma textRebasesRight_iff (htext : text.segName = "__TEXT")
    (hone : ∀ s ∈ before ++ after, s.segName ≠ "__TEXT") (locations : List RebaseRegisters) :
    TextRebasesRight (before ++ text :: after) text.vmAddr locations ↔
      text.vmAddr = 0 ∨ ∀ r ∈ (locations.filter (fun r => r.kind = .textAbsolute32)).head?,
        before.length ≤ r.segIndex := by
  simp only [TextRebasesRight, textRebaseBlock_eq, ← Nat.lt_succ_iff]
  apply offsetsRight_iff _ _ htext hone
  intro r
  exact sub_right_injective

lemma rebasesRight_iff (htext : text.segName = "__TEXT")
    (hone : ∀ s ∈ before ++ after, s.segName ≠ "__TEXT") (locations : List RebaseRegisters) :
    RebasesRight (before ++ text :: after) lp text.vmAddr locations ↔
      text.vmAddr = 0 ∨ ∀ r ∈ (locations.filter (fun r => r.kind = .pointer)).head?,
        before.length < r.segIndex := by
  have hpairs := offsetsRight_iff (fun r => r.kind = .pointer) (fun r => r.segIndex) htext hone (fun r : RebaseRegisters =>
    offset_injective (locationVmAddr (before ++ text :: after) r.segIndex r.segOffset)
      (lp.isLazyPointerRebase (locationVmAddr (before ++ text :: after) r.segIndex r.segOffset)))
    locations
  rw [← hpairs]
  simp only [RebasesRight, rebaseBlock_eq]
  constructor
  · intro h σ handler
    exact h σ (Function.curry handler)
  · intro h σ callback
    exact h σ (Function.uncurry callback)

lemma bindsRight_iff (htext : text.segName = "__TEXT")
    (hone : ∀ s ∈ before ++ after, s.segName ≠ "__TEXT") (locations : List BindLocation) :
    BindsRight (before ++ text :: after) text.vmAddr locations ↔
      text.vmAddr = 0 ∨ ∀ l ∈ locations.head?, before.length ≤ l.segIndex := by
  have hpairs := offsetsRight_iff (fun _ => true) (fun l => l.segIndex + 1) htext hone (fun l : BindLocation =>
    offset_injective (locationVmAddr (before ++ text :: after) l.segIndex l.segOffset)
      (fun _ => l.arguments))
    locations
  rw [List.filter_true] at hpairs
  simp only [← Nat.lt_succ_iff]
  rw [← hpairs]
  simp only [BindsRight, bindBlock_eq, OffsetsRight, List.filter_true]
  constructor
  · intro h σ handler
    exact h σ (Function.curry handler)
  · intro h σ handler
    exact h σ (Function.uncurry handler)

/-- The offsets are right exactly when `__TEXT` is at address zero, or the first location handed on is
in a segment from which it is found: in `__TEXT` or behind it, for `forEachRebase` behind it. -/
theorem runtimeOffsets_right_iff (htext : text.segName = "__TEXT")
    (hone : ∀ s ∈ before ++ after, s.segName ≠ "__TEXT") (rebases : List RebaseRegisters)
    (binds : List BindLocation) :
    (TextRebasesRight (before ++ text :: after) text.vmAddr rebases ↔
      text.vmAddr = 0 ∨ ∀ r ∈ (rebases.filter (fun r => r.kind = .textAbsolute32)).head?,
        before.length ≤ r.segIndex) ∧
    (RebasesRight (before ++ text :: after) lp text.vmAddr rebases ↔
      text.vmAddr = 0 ∨ ∀ r ∈ (rebases.filter (fun r => r.kind = .pointer)).head?,
        before.length < r.segIndex) ∧
    (BindsRight (before ++ text :: after) text.vmAddr binds ↔
      text.vmAddr = 0 ∨ ∀ l ∈ binds.head?, before.length ≤ l.segIndex) :=
  ⟨textRebasesRight_iff htext hone rebases, rebasesRight_iff lp htext hone rebases,
    bindsRight_iff htext hone binds⟩

def noLazyPointers : LazyPointers where
  lpVmAddr := 0
  lpEndVmAddr := 0
  shVmAddr := 0
  shEndVmAddr := 0
  pointerAt := id
  contentIsRegularStub := fun _ => false

theorem runtimeOffsets_right_from_data :
    let segments : List NamedSegment :=
      [⟨"__PAGEZERO", 0⟩, ⟨"__TEXT", 0x100000000⟩, ⟨"__DATA", 0x100004000⟩]
    let rebases : List RebaseRegisters :=
      [⟨.pointer, 2, 8, true⟩, ⟨.textAbsolute32, 1, 32, true⟩, ⟨.pointer, 1, 16, true⟩]
    TextRebasesRight segments 0x100000000 rebases ∧
      RebasesRight segments noLazyPointers 0x100000000 rebases ∧
      BindsRight segments 0x100000000 [⟨2, 8, ⟨1, 1, [95, 102], false, false, 0⟩⟩] := by
  have hiff := @runtimeOffsets_right_iff noLazyPointers [⟨"__PAGEZERO", 0⟩] [⟨"__DATA", 0x100004000⟩]
    ⟨"__TEXT", 0x100000000⟩ rfl (by simp)
    [⟨.pointer, 2, 8, true⟩, ⟨.textAbsolute32, 1, 32, true⟩, ⟨.pointer, 1, 16, true⟩]
    [⟨2, 8, ⟨1, 1, [95, 102], false, false, 0⟩⟩]
  exact ⟨hiff.1.mpr (Or.inr (by simp)), hiff.2.1.mpr (Or.inr (by simp)), hiff.2.2.mpr (Or.inr (by simp))⟩

/-- The first pointer is in `__TEXT`, and its offset is taken from zero. -/
theorem rebase_in_text_not_right :
    ¬∀ (before after : List NamedSegment) (text : NamedSegment), text.segName = "__TEXT" →
      (∀ s ∈ before ++ after, s.segName ≠ "__TEXT") →
        ∀ (lp : LazyPointers) (rebases : List RebaseRegisters) (binds : List BindLocation),
          TextRebasesRight (before ++ text :: after) text.vmAddr rebases ∧
            RebasesRight (before ++ text :: after) lp text.vmAddr rebases ∧
            BindsRight (before ++ text :: after) text.vmAddr binds := by
  intro h
  have hright := (h [⟨"__PAGEZERO", 0⟩] [] ⟨"__TEXT", 0x100000000⟩ rfl (by simp) noLazyPointers
    [⟨.pointer, 1, 16, true⟩] []).2.1
  have hcall := hright (BitVec 64) (fun offset _ _ => (offset, true)) 0
  simp [runBlock, runBody_cons, rebaseBlock, StartVmAddr.lookUp, locationVmAddr] at hcall

end Walks

end Dyld.MachO
