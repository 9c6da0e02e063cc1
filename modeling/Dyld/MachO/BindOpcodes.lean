import Dyld.Lib.CallBounds
import Dyld.MachO.RebaseOpcodes

/-!
# Bind opcodes

`MachOAnalyzer::forEachBind` interprets three streams of bind opcodes: the regular, the lazy and the
weak one, each in a loop of its own. Here they and `MachOAnalyzer::forEachRebase` are machines that
step from call to call.
-/

namespace Dyld.MachO

open Dyld.Lib

/-- A `const char*` into a stream. The terminating NUL may be missing there. -/
structure SymbolName where
  chars : List UInt8
  terminated : Bool
  deriving DecidableEq, Repr

/-- The local variables of `MachOAnalyzer::forEachBind`. The addend is kept as 64 bits. -/
structure BindRegisters where
  type : Nat := 0
  segmentIndex : Nat := 0
  segmentOffset : Nat := 0
  symbolName : Option SymbolName := none
  libraryOrdinal : Int := 0
  segIndexSet : Bool := false
  libraryOrdinalSet : Bool := false
  addend : Nat := 0
  weakImport : Bool := false
  deriving DecidableEq, Repr

/-- A call of `handler` or of `strongHandler`. -/
inductive BindEvent
  | bind (lazyBind : Bool) (r : BindRegisters)
  | strong (symbolName : Option SymbolName)
  deriving DecidableEq, Repr

inductive BindStateError
  | missingSegment
  | segmentIndexTooLarge
  | offsetBeyondSegment
  | missingSymbol
  | missingOrdinal
  | ordinalTooLarge
  | unknownSpecialOrdinal
  | notWritable
  | executable
  | noTextRelocs
  | textWritable
  | textNotExecutable
  | unknownType
  deriving DecidableEq, Repr

inductive BindError
  | leb (e : LebError)
  | badOpcode (shown : Option UInt8)
  | badLazyOpcode (opcode : Nat)
  | unexpectedOrdinal
  | state (e : BindStateError)
  deriving DecidableEq, Repr

/-- An image with bind opcodes. `forceAllowTextRelocs` is for kernel extensions of the cache builder. -/
structure BindImage where
  segments : List RebaseSegment
  linkeditSegIndex : Nat
  ptrSize : Nat
  dylibCount : Nat
  enforceExecutable : Bool
  forceAllowTextRelocs : Bool
  bindOpcodes : List UInt8
  lazyBindOpcodes : List UInt8
  weakBindOpcodes : List UInt8

def BindImage.segment (image : BindImage) (i : Nat) : RebaseSegment :=
  image.segments.getD i ⟨0, 0, false, false, false⟩

/-! ### Opcodes -/

/-- How many bytes `while (*p != '\0') ++p; ++p;` reads when there is a NUL; without one it reads at
least one byte behind the stream. -/
def nameReach (bytes : List UInt8) : Nat := (bytes.takeWhile (· ≠ 0)).length + 1

def symbolNameAt (bytes : List UInt8) : SymbolName where
  chars := bytes.takeWhile (· ≠ 0)
  terminated := bytes.contains 0

def toInt32 (n : Nat) : Int := Int.bmod n (2 ^ 32)

abbrev BindOpcode := Opcode BindRegisters BindEvent BindError

section Opcodes

variable (lazyBind : Bool) (r : BindRegisters) (immediate : Nat) (bytes : List UInt8)

def setBind (r : BindRegisters) (bytes : List UInt8) : BindOpcode where
  regs := r
  rest := bytes
  call := .bind lazyBind

def setBindUleb (f : Nat → BindRegisters) : BindOpcode :=
  let u := readUleb128 bytes
  { setBind lazyBind (f u.value) u.rest with
    error := u.error.map .leb, outside := bytes.length < ulebReach 0 bytes }

def doBind (count stride : Nat) : BindOpcode :=
  { setBind lazyBind r bytes with
    count := count
    next := fun r => { r with segmentOffset := addOffset stride r.segmentOffset } }

/-- `BIND_OPCODE_SET_DYLIB_SPECIAL_IMM`. -/
def specialOrdinal : Int := if immediate = 0 then 0 else (immediate : Int) - 16

def setSymbol : BindOpcode :=
  { setBind lazyBind
      { r with weakImport := immediate % 2 = 1, symbolName := some (symbolNameAt bytes) }
      (bytes.drop (nameReach bytes)) with
    outside := bytes.length < nameReach bytes }

def setAddend : BindOpcode :=
  let u := readSleb128 bytes
  { setBind lazyBind { r with addend := u.value } u.rest with
    error := u.error.map .leb, outside := bytes.length < slebReach bytes }

def setSegment : BindOpcode :=
  setBindUleb lazyBind bytes (fun u =>
    { r with segmentIndex := immediate, segmentOffset := u, segIndexSet := true })

def addAddr : BindOpcode :=
  setBindUleb lazyBind bytes (fun u => { r with segmentOffset := addOffset u r.segmentOffset })

def doBindAddAddr (ptrSize : Nat) : BindOpcode :=
  let u := readUleb128 bytes
  { doBind lazyBind r u.rest 1 (u.value + ptrSize) with
    error := u.error.map .leb, outside := bytes.length < ulebReach 0 bytes }

def doBindTimes (ptrSize : Nat) : BindOpcode :=
  let u := readUleb128 bytes
  let v := readUleb128 u.rest
  { doBind lazyBind r v.rest u.value (v.value + ptrSize) with
    error := (u.error.or v.error).map .leb
    outside := bytes.length < ulebReach 0 bytes || u.rest.length < ulebReach 0 u.rest }

/-- The default of the regular and of the weak loop. -/
def badBindOpcode : BindOpcode :=
  { setBind lazyBind r bytes with error := some (.badOpcode bytes.head?), outside := bytes.isEmpty }

end Opcodes

section Decode

variable (ptrSize : Nat) (r : BindRegisters) (b : UInt8) (bytes : List UInt8)

def regularOpcode : BindOpcode :=
  let immediate := b.toNat % 16
  match b.toNat / 16 with
  | 0 => { setBind false r bytes with done := true }
  | 1 => setBind false { r with libraryOrdinal := immediate, libraryOrdinalSet := true } bytes
  | 2 =>
    setBindUleb false bytes (fun u => { r with libraryOrdinal := toInt32 u, libraryOrdinalSet := true })
  | 3 =>
    setBind false { r with libraryOrdinal := specialOrdinal immediate, libraryOrdinalSet := true } bytes
  | 4 => setSymbol false r immediate bytes
  | 5 => setBind false { r with type := immediate } bytes
  | 6 => setAddend false r bytes
  | 7 => setSegment false r immediate bytes
  | 8 => addAddr false r bytes
  | 9 => doBind false r bytes 1 ptrSize
  | 10 => doBindAddAddr false r bytes ptrSize
  | 11 => doBind false r bytes 1 (immediate * ptrSize + ptrSize)
  | 12 => doBindTimes false r bytes ptrSize
  | _ => badBindOpcode false r bytes

/-- The switch of the loop over the lazy bind opcodes. Here `BIND_OPCODE_DONE` ends nothing. -/
def lazyOpcode : BindOpcode :=
  let immediate := b.toNat % 16
  match b.toNat / 16 with
  | 0 => setBind true r bytes
  | 1 => setBind true { r with libraryOrdinal := immediate, libraryOrdinalSet := true } bytes
  | 2 =>
    setBindUleb true bytes (fun u => { r with libraryOrdinal := toInt32 u, libraryOrdinalSet := true })
  | 3 =>
    setBind true { r with libraryOrdinal := specialOrdinal immediate, libraryOrdinalSet := true } bytes
  | 4 => setSymbol true r immediate bytes
  | 6 => setAddend true r bytes
  | 7 => setSegment true r immediate bytes
  | 9 => doBind true r bytes 1 ptrSize
  | _ => { setBind true r bytes with error := some (.badLazyOpcode (b.toNat - immediate)) }

def setWeakSymbol (immediate : Nat) : BindOpcode :=
  { setSymbol false r immediate bytes with
    call := fun r => .strong r.symbolName
    count := if immediate / 8 % 2 = 1 then 1 else 0 }

def weakOpcode : BindOpcode :=
  let immediate := b.toNat % 16
  match b.toNat / 16 with
  | 0 => { setBind false r bytes with done := true }
  | 1 | 2 | 3 => { setBind false r bytes with error := some .unexpectedOrdinal }
  | 4 => setWeakSymbol r bytes immediate
  | 5 => setBind false { r with type := immediate } bytes
  | 6 => setAddend false r bytes
  | 7 => setSegment false r immediate bytes
  | 8 => addAddr false r bytes
  | 9 => doBind false r bytes 1 ptrSize
  | 10 => doBindAddAddr false r bytes ptrSize
  | 11 => doBind false r bytes 1 (immediate * ptrSize + ptrSize)
  | 12 => doBindTimes false r bytes ptrSize
  | _ => badBindOpcode false r bytes

end Decode

abbrev BindStream := OpcodeStream BindRegisters BindEvent BindError

namespace BindImage

variable (image : BindImage)

def regularStream : BindStream where
  regs := {}
  bytes := image.bindOpcodes
  decode := regularOpcode image.ptrSize

def lazyStream : BindStream where
  regs := { type := 1 }
  bytes := image.lazyBindOpcodes
  decode := lazyOpcode image.ptrSize

/-- The ordinal starts as `BIND_SPECIAL_DYLIB_WEAK_LOOKUP`. -/
def weakStream : BindStream where
  regs := { type := 1, libraryOrdinal := -3, libraryOrdinalSet := true }
  bytes := image.weakBindOpcodes
  decode := weakOpcode image.ptrSize

end BindImage

/-- `MachOAnalyzer::forEachBind` before its first step. -/
def forEachBind {σ : Type} (image : BindImage) (s : σ) : Machine σ BindRegisters BindEvent BindError :=
  .start image.regularStream [image.lazyStream, image.weakStream] s

/-- The two handlers as one. Only `handler` can stop. -/
def bindHandler {σ : Type} (handler : σ → Bool → BindRegisters → σ × Bool)
    (strongHandler : σ → Option SymbolName → σ) (s : σ) : BindEvent → σ × Bool
  | .bind lazyBind r => handler s lazyBind r
  | .strong symbolName => (strongHandler s symbolName, false)

/-! ### Validation -/

def invalidBindState (image : BindImage) (r : BindRegisters) : Option BindStateError :=
  let segment := image.segment r.segmentIndex
  if r.segIndexSet = false then some .missingSegment
  else if r.segmentIndex ≥ image.linkeditSegIndex then some .segmentIndexTooLarge
  else if r.segmentOffset > (segment.vmSize + (2 ^ 64 - image.ptrSize)) % 2 ^ 64 then
    some .offsetBeyondSegment
  else if r.symbolName = none then some .missingSymbol
  else if r.libraryOrdinalSet = false then some .missingOrdinal
  else if r.libraryOrdinal > toInt32 image.dylibCount then some .ordinalTooLarge
  else if r.libraryOrdinal < -3 then some .unknownSpecialOrdinal
  else
    match r.type with
    | 1 =>
      if segment.writable = false then some .notWritable
      else if segment.executable = true ∧ image.enforceExecutable = true then some .executable
      else none
    | 2 | 3 =>
      if image.forceAllowTextRelocs = false ∧ segment.textRelocs = false then some .noTextRelocs
      else if segment.writable = true then some .textWritable
      else if segment.executable = false then some .textNotExecutable
      else none
    | _ => some .unknownType

def checkBind (image : BindImage) : Option BindStateError → BindEvent → Option BindStateError × Bool :=
  bindHandler (fun _ _ r => (invalidBindState image r, (invalidBindState image r).isSome)) (fun s _ => s)

def bindDiagnostics (s : Option BindStateError) : Option BindError := s.map .state

def ValidBindInfo (image : BindImage) : Prop :=
  ∃ n, (Machine.run (checkBind image) bindDiagnostics n (forEachBind image none)).mode = .ended none

/-! ### Rebases -/

abbrev RebaseOpcode := Opcode RebaseRegisters RebaseRegisters RebaseError

section RebaseDecode

variable (ptrSize : Nat) (r : RebaseRegisters) (b : UInt8) (bytes : List UInt8)

def setRebase (r : RebaseRegisters) (bytes : List UInt8) : RebaseOpcode where
  regs := r
  rest := bytes
  call := id

def doRebase (count stride : Nat) : RebaseOpcode :=
  { setRebase r bytes with
    count := count
    next := fun r => { r with segOffset := addOffset stride r.segOffset } }

/-- The switch of `MachOAnalyzer::forEachRebase`. -/
def rebaseOpcode : RebaseOpcode :=
  let immediate := b.toNat % 16
  let u := readUleb128 bytes
  match b.toNat / 16 with
  | 0 =>
    { setRebase r bytes with
      error := if bytes.length > 8 then some .terminatedEarly else none, done := true }
  | 1 => setRebase { r with kind := rebaseKind immediate } bytes
  | 2 =>
    { setRebase { r with segIndex := immediate, segOffset := u.value, segIndexSet := true } u.rest with
      error := u.error.map .leb }
  | 3 =>
    { setRebase { r with segOffset := addOffset u.value r.segOffset } u.rest with
      error := u.error.map .leb }
  | 4 => setRebase { r with segOffset := addOffset (immediate * ptrSize) r.segOffset } bytes
  | 5 => doRebase r bytes immediate ptrSize
  | 6 => { doRebase r u.rest u.value ptrSize with error := u.error.map .leb }
  | 7 => { doRebase r u.rest 1 (u.value + ptrSize) with error := u.error.map .leb }
  | 8 =>
    let v := readUleb128 u.rest
    if u.error ≠ none then { setRebase r u.rest with error := u.error.map .leb }
    else { doRebase r v.rest u.value (v.value + ptrSize) with error := v.error.map .leb }
  | _ => { setRebase r bytes with error := some .unknownOpcode }

end RebaseDecode

abbrev RebaseMachine (σ : Type) := Machine σ RebaseRegisters RebaseRegisters RebaseError

/-- `MachOAnalyzer::forEachRebase` before its first step. -/
def rebaseMachine {σ : Type} (image : RebaseImage) (s : σ) : RebaseMachine σ :=
  .start { regs := {}, bytes := image.opcodes, decode := rebaseOpcode image.ptrSize } [] s

end Dyld.MachO
