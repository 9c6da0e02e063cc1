import Dyld.Lib.Opcodes
import Dyld.MachO.Leb128

/-!
# Three interpreters of rebase opcodes

The rebase opcodes of `LC_DYLD_INFO` are interpreted in three places: `MachOAnalyzer` of dyld3, which
hands the locations to a handler and validates images with it, `ImageLoaderMachOCompressed` of
dyld2, which works on addresses, and the `Adjustor` of the cache builder, which works on offsets in
copied segments.
-/

namespace Dyld.MachO

open Dyld.Lib

/-- A segment load command. -/
structure RebaseSegment where
  vmAddr : Nat
  vmSize : Nat
  writable : Bool
  executable : Bool
  textRelocs : Bool
  deriving DecidableEq, Repr

/-- An image with rebase opcodes. A pointer has `ptrSize` bytes. The image is slid by `slide`, and
`enforceWritable` and `enforceExecutable` say which formats `enforceFormat` insists on. -/
structure RebaseImage where
  segments : List RebaseSegment
  linkeditSegIndex : Nat
  ptrSize : Nat
  slide : Nat
  enforceWritable : Bool
  enforceExecutable : Bool
  opcodes : List UInt8

namespace RebaseImage

variable (image : RebaseImage)

def segment (i : Nat) : RebaseSegment := image.segments.getD i ⟨0, 0, false, false, false⟩

/-- The width of `uintptr_t`. -/
def width : Nat := 8 * image.ptrSize

/-- Where a segment stands in memory. -/
def loadAddress (segment : RebaseSegment) : Nat :=
  (segment.vmAddr + image.slide) % 2 ^ image.width

/-- Where an offset of a segment stands in memory. -/
def address (location : Nat × Nat) : Nat :=
  (image.loadAddress (image.segment location.1) + location.2) % 2 ^ image.width

end RebaseImage

/-! ### dyld3 -/

inductive RebaseKind
  | unknown
  | pointer
  | textAbsolute32
  | textPCrel32
  deriving DecidableEq, Repr

inductive RebaseError
  | leb (e : LebError)
  | terminatedEarly
  | unknownOpcode
  deriving DecidableEq, Repr

/-- The local variables of `MachOAnalyzer::forEachRebase`. -/
structure RebaseRegisters where
  kind : RebaseKind := .unknown
  segIndex : Nat := 0
  segOffset : Nat := 0
  segIndexSet : Bool := false
  deriving DecidableEq, Repr

/-- `REBASE_OPCODE_SET_TYPE_IMM`. -/
def rebaseKind : Nat → RebaseKind
  | 1 => .pointer
  | 2 => .textAbsolute32
  | 3 => .textPCrel32
  | _ => .unknown

def addOffset (delta offset : Nat) : Nat := (offset + delta) % 2 ^ 64

section ForEachRebase

variable {σ : Type} (handler : σ → RebaseRegisters → σ × Bool) (ptrSize : Nat)

def callHandler (r : RebaseRegisters) (offset : Nat) (s : σ) : σ × Bool :=
  handler s { r with segOffset := offset }

def rebaseTurn (r : RebaseRegisters) (rest : List UInt8) (count stride : Nat) (s : σ)
    (error : Option RebaseError) : Option (Turn RebaseRegisters σ RebaseError) :=
  (countedLoop (callHandler handler r) (addOffset stride) count r.segOffset s).map (fun t =>
    { regs := { r with segOffset := t.1 }, rest := rest, state := t.2.1, stop := t.2.2,
      error := error })

/-- A turn of `MachOAnalyzer::forEachRebase`. -/
def forEachRebaseTurn (r : RebaseRegisters) (b : UInt8) (bytes : List UInt8) (s : σ) :
    Option (Turn RebaseRegisters σ RebaseError) :=
  let immediate := b.toNat % 16
  match b.toNat / 16 with
  | 0 =>
    some { regs := r, rest := bytes, state := s, stop := true,
           error := if bytes.length > 8 then some .terminatedEarly else none }
  | 1 => some { regs := { r with kind := rebaseKind immediate }, rest := bytes, state := s }
  | 2 =>
    let u := readUleb128 bytes
    some { regs := { r with segIndex := immediate, segOffset := u.value, segIndexSet := true },
           rest := u.rest, state := s, error := u.error.map .leb }
  | 3 =>
    let u := readUleb128 bytes
    some { regs := { r with segOffset := addOffset u.value r.segOffset }, rest := u.rest, state := s,
           error := u.error.map .leb }
  | 4 =>
    some { regs := { r with segOffset := addOffset (immediate * ptrSize) r.segOffset },
           rest := bytes, state := s }
  | 5 => rebaseTurn handler r bytes immediate ptrSize s none
  | 6 =>
    let u := readUleb128 bytes
    rebaseTurn handler r u.rest u.value ptrSize s (u.error.map .leb)
  | 7 =>
    let t := handler s r
    let u := readUleb128 bytes
    some { regs := { r with segOffset := addOffset (u.value + ptrSize) r.segOffset }, rest := u.rest,
           state := t.1, stop := t.2, error := u.error.map .leb }
  | 8 =>
    let u := readUleb128 bytes
    if u.error ≠ none then
      some { regs := r, rest := u.rest, state := s, error := u.error.map .leb }
    else
      let v := readUleb128 u.rest
      rebaseTurn handler r v.rest u.value (v.value + ptrSize) s (v.error.map .leb)
  | _ => some { regs := r, rest := bytes, state := s, error := some .unknownOpcode }

def forEachRebase (image : RebaseImage) (s : σ) : Option (σ × Option RebaseError) :=
  interpret (forEachRebaseTurn handler image.ptrSize) image.opcodes.length image.opcodes {} s

end ForEachRebase

inductive RebaseStateError
  | missingSegment
  | segmentIndexTooLarge
  | offsetBeyondSegment
  | notWritable
  | executable
  | noTextRelocs
  | textWritable
  | textNotExecutable
  | unknownType
  deriving DecidableEq, Repr

def invalidRebaseState (image : RebaseImage) (r : RebaseRegisters) : Option RebaseStateError :=
  let segment := image.segment r.segIndex
  if r.segIndexSet = false then some .missingSegment
  else if r.segIndex ≥ image.linkeditSegIndex then some .segmentIndexTooLarge
  else if r.segOffset > (segment.vmSize + (2 ^ 64 - image.ptrSize)) % 2 ^ 64 then
    some .offsetBeyondSegment
  else
    match r.kind with
    | .pointer =>
      if segment.writable = false ∧ image.enforceWritable = true then some .notWritable
      else if segment.executable = true ∧ image.enforceExecutable = true then some .executable
      else none
    | .textAbsolute32 | .textPCrel32 =>
      if segment.textRelocs = false then some .noTextRelocs
      else if segment.writable = true then some .textWritable
      else if segment.executable = false then some .textNotExecutable
      else none
    | .unknown => some .unknownType

/-- The handler of the validator. -/
def checkRebase (image : RebaseImage) (_ : Option RebaseStateError) (r : RebaseRegisters) :
    Option RebaseStateError × Bool :=
  (invalidRebaseState image r, (invalidRebaseState image r).isSome)

def ValidRebaseInfo (image : RebaseImage) : Prop :=
  forEachRebase (checkRebase image) image none = some (none, none)

/-- A handler that takes note of the locations. -/
def noteRebase (l : List (Nat × Nat)) (r : RebaseRegisters) : List (Nat × Nat) × Bool :=
  (l ++ [(r.segIndex, r.segOffset)], false)

/-! ### dyld2 -/

inductive RebaseThrow
  | leb (e : LebError)
  | segmentTooLarge
  | notWritable
  | badAddress
  | badType
  | badOpcode
  deriving DecidableEq, Repr

/-- The local variables of `ImageLoaderMachOCompressed::rebase`. -/
structure AddressRegisters where
  type : Nat
  address : Nat
  segmentStartAddress : Nat
  segmentEndAddress : Nat
  deriving DecidableEq, Repr

abbrev AddressRun := Except RebaseThrow (List Nat)

def AddressRun.thrown : AddressRun → Option RebaseThrow
  | .ok _ => none
  | .error e => some e

section Compressed

variable (image : RebaseImage)

def RebaseImage.loadedSegments : List RebaseSegment := image.segments.filter (fun s => s.vmSize ≠ 0)

def segActualLoadAddress (s : Option RebaseSegment) : Nat :=
  match s with
  | some s => image.loadAddress s
  | none => 0

def segActualEndAddress (s : Option RebaseSegment) : Nat :=
  match s with
  | some s => (image.loadAddress s + s.vmSize) % 2 ^ image.width
  | none => 0

def addAddress (delta address : Nat) : Nat := (address + delta) % 2 ^ image.width

/-- The range check and `rebaseAt`. -/
def rebaseAt (r : AddressRegisters) (address : Nat) (s : AddressRun) : AddressRun × Bool :=
  match s with
  | .error e => (.error e, true)
  | .ok visited =>
    if address < r.segmentStartAddress ∨ address ≥ r.segmentEndAddress then
      (.error .badAddress, true)
    else if r.type = 1 ∨ r.type = 2 then (.ok (visited ++ [address]), false)
    else (.error .badType, true)

def rebaseAtTurn (r : AddressRegisters) (rest : List UInt8) (count stride : Nat) (s : AddressRun) :
    Option (Turn AddressRegisters AddressRun RebaseThrow) :=
  (countedLoop (rebaseAt r) (addAddress image stride) count r.address s).map (fun t =>
    { regs := { r with address := t.1 }, rest := rest, state := t.2.1,
      error := AddressRun.thrown t.2.1 })

def withOperand {ρ σ : Type} (r : ρ) (s : σ) (operand : Except LebError (Nat × List UInt8))
    (turn : Nat → List UInt8 → Option (Turn ρ σ RebaseThrow)) : Option (Turn ρ σ RebaseThrow) :=
  match operand with
  | .error e => some { regs := r, rest := [], state := s, error := some (.leb e) }
  | .ok u => turn u.1 u.2

def compressedRebaseTurn (r : AddressRegisters) (b : UInt8) (bytes : List UInt8) (s : AddressRun) :
    Option (Turn AddressRegisters AddressRun RebaseThrow) :=
  let immediate := b.toNat % 16
  match b.toNat / 16 with
  | 0 => some { regs := r, rest := bytes, state := s, stop := true }
  | 1 => some { regs := { r with type := immediate }, rest := bytes, state := s }
  | 2 =>
    match image.loadedSegments[immediate]? with
    | none => some { regs := r, rest := bytes, state := s, error := some .segmentTooLarge }
    | some segment =>
      if segment.writable = false then
        some { regs := r, rest := bytes, state := s, error := some .notWritable }
      else
        withOperand r s (readUleb128Pointer image.width bytes) (fun offset rest =>
          some { regs := { r with segmentStartAddress := segActualLoadAddress image (some segment),
                                  segmentEndAddress := segActualEndAddress image (some segment),
                                  address := addAddress image offset
                                    (segActualLoadAddress image (some segment)) },
                 rest := rest, state := s })
  | 3 =>
    withOperand r s (readUleb128Pointer image.width bytes) (fun delta rest =>
      some { regs := { r with address := addAddress image delta r.address }, rest := rest, state := s })
  | 4 =>
    some { regs := { r with address := addAddress image (immediate * image.ptrSize) r.address },
           rest := bytes, state := s }
  | 5 => rebaseAtTurn image r bytes immediate image.ptrSize s
  | 6 =>
    withOperand r s (readUleb128Pointer image.width bytes) (fun count rest =>
      rebaseAtTurn image r rest count image.ptrSize s)
  | 7 =>
    let t := rebaseAt r r.address s
    if t.2 then some { regs := r, rest := bytes, state := t.1, error := AddressRun.thrown t.1 }
    else
      withOperand r t.1 (readUleb128Pointer image.width bytes) (fun delta rest =>
        some { regs := { r with address := addAddress image (delta + image.ptrSize) r.address },
               rest := rest, state := t.1 })
  | 8 =>
    withOperand r s (readUleb128Pointer image.width bytes) (fun count rest =>
      withOperand r s (readUleb128Pointer image.width rest) (fun skip rest =>
        rebaseAtTurn image r rest count (skip + image.ptrSize) s))
  | _ => some { regs := r, rest := bytes, state := s, error := some .badOpcode }

def compressedRebase : Option (AddressRun × Option RebaseThrow) :=
  interpret (compressedRebaseTurn image) image.opcodes.length image.opcodes
    ⟨0, segActualLoadAddress image image.loadedSegments[0]?,
      segActualLoadAddress image image.loadedSegments[0]?,
      segActualEndAddress image image.loadedSegments[0]?⟩ (.ok [])

end Compressed

/-! ### The cache builder -/

structure AdjustRegisters where
  type : Nat := 0
  segIndex : Nat := 0
  segOffset : Nat := 0
  deriving DecidableEq, Repr

structure AdjustRun where
  visited : List (Nat × Nat) := []
  unknownType : Bool := false
  deriving DecidableEq, Repr

section Adjust

variable (ptrSize : Nat)

def slidePointer (r : AdjustRegisters) (segOffset : Nat) (s : AdjustRun) : AdjustRun × Bool :=
  if r.type = 1 ∨ r.type = 2 then ({ s with visited := s.visited ++ [(r.segIndex, segOffset)] }, false)
  else ({ s with unknownType := true }, false)

def slideTurn (r : AdjustRegisters) (rest : List UInt8) (count stride : Nat) (s : AdjustRun) :
    Option (Turn AdjustRegisters AdjustRun RebaseThrow) :=
  (countedLoop (slidePointer r) (addOffset stride) count r.segOffset s).map (fun t =>
    { regs := { r with segOffset := t.1 }, rest := rest, state := t.2.1 })

def adjustDataPointersTurn (r : AdjustRegisters) (b : UInt8) (bytes : List UInt8) (s : AdjustRun) :
    Option (Turn AdjustRegisters AdjustRun RebaseThrow) :=
  let immediate := b.toNat % 16
  match b.toNat / 16 with
  | 0 => some { regs := r, rest := bytes, state := s, stop := true }
  | 1 => some { regs := { r with type := immediate }, rest := bytes, state := s }
  | 2 =>
    withOperand r s (readUleb128Checked bytes) (fun offset rest =>
      some { regs := { r with segIndex := immediate, segOffset := offset }, rest := rest, state := s })
  | 3 =>
    withOperand r s (readUleb128Checked bytes) (fun delta rest =>
      some { regs := { r with segOffset := addOffset delta r.segOffset }, rest := rest, state := s })
  | 4 =>
    some { regs := { r with segOffset := addOffset (immediate * ptrSize) r.segOffset },
           rest := bytes, state := s }
  | 5 => slideTurn r bytes immediate ptrSize s
  | 6 =>
    withOperand r s (readUleb128Checked bytes) (fun count rest =>
      slideTurn r rest count ptrSize s)
  | 7 =>
    let t := slidePointer r r.segOffset s
    withOperand r t.1 (readUleb128Checked bytes) (fun delta rest =>
      some { regs := { r with segOffset := addOffset (delta + ptrSize) r.segOffset }, rest := rest,
             state := t.1 })
  | 8 =>
    withOperand r s (readUleb128Checked bytes) (fun count rest =>
      withOperand r s (readUleb128Checked rest) (fun skip rest =>
        slideTurn r rest count (skip + ptrSize) s))
  | _ => some { regs := r, rest := bytes, state := s, error := some .badOpcode }

def adjustDataPointers (image : RebaseImage) : Option (AdjustRun × Option RebaseThrow) :=
  interpret (adjustDataPointersTurn image.ptrSize) image.opcodes.length image.opcodes {} {}

end Adjust

end Dyld.MachO
