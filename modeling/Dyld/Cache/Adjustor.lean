import Dyld.Chained.Pointer

/-!
# Moving the segments of a dylib into the cache

`Adjustor` of the cache builder: one step of the split-seg v2 adjustment, `adjustReference`,
over the mapped bytes of the dylib and the side tables of the cache, and the conversion of
chained rebases to the intermediate form that both ways of adjusting a dylib share. Signed
64-bit arithmetic wraps.
-/

namespace Dyld.Cache

open Dyld.Lib
open Dyld.Chained

/-! ### Side tables -/

structure AuthData where
  diversity : Nat
  addrDiv : Bool
  key : Nat
  deriving DecidableEq, Repr

/-- `CacheBuilder::ASLR_Tracker`, its maps keyed by mapped address and its bitmap by slots of
`kMinimumFixupAlignment` bytes. -/
structure ASLRTracker where
  regionStart : Nat
  enabled : Bool
  bitmap : Nat → Bool
  high8Map : Nat → Option (BitVec 8)
  authDataMap : Nat → Option AuthData
  rebaseTarget32 : Nat → Option (BitVec 32)
  rebaseTarget64 : Nat → Option (BitVec 64)

namespace ASLRTracker

variable (t : ASLRTracker)

def kMinimumFixupAlignment : Nat := 4

def add (loc : Nat) : ASLRTracker :=
  if t.enabled then
    { t with bitmap :=
        Function.update t.bitmap ((loc - t.regionStart) / kMinimumFixupAlignment) true }
  else t

def setHigh8 (p : Nat) (high8 : BitVec 8) : ASLRTracker :=
  { t with high8Map := Function.update t.high8Map p (some high8) }

def setAuthData (p : Nat) (d : AuthData) : ASLRTracker :=
  { t with authDataMap := Function.update t.authDataMap p (some d) }

def setRebaseTarget32 (p : Nat) (targetVMAddr : BitVec 32) : ASLRTracker :=
  { t with rebaseTarget32 := Function.update t.rebaseTarget32 p (some targetVMAddr) }

def setRebaseTarget64 (p : Nat) (targetVMAddr : BitVec 64) : ASLRTracker :=
  { t with rebaseTarget64 := Function.update t.rebaseTarget64 p (some targetVMAddr) }

section Lookup

variable {t} {p : Nat}

@[simp] lemma add_high8Map : (t.add p).high8Map = t.high8Map := by
  unfold add
  split <;> rfl

@[simp] lemma add_authDataMap : (t.add p).authDataMap = t.authDataMap := by
  unfold add
  split <;> rfl

@[simp] lemma add_rebaseTarget64 : (t.add p).rebaseTarget64 = t.rebaseTarget64 := by
  unfold add
  split <;> rfl

@[simp] lemma setHigh8_high8Map (high8 : BitVec 8) :
    (t.setHigh8 p high8).high8Map p = some high8 := Function.update_self ..

@[simp] lemma setHigh8_rebaseTarget64 (high8 : BitVec 8) :
    (t.setHigh8 p high8).rebaseTarget64 = t.rebaseTarget64 := rfl

@[simp] lemma setHigh8_authDataMap (high8 : BitVec 8) :
    (t.setHigh8 p high8).authDataMap = t.authDataMap := rfl

@[simp] lemma setAuthData_authDataMap (d : AuthData) :
    (t.setAuthData p d).authDataMap p = some d := Function.update_self ..

@[simp] lemma setAuthData_high8Map (d : AuthData) :
    (t.setAuthData p d).high8Map = t.high8Map := rfl

@[simp] lemma setAuthData_rebaseTarget64 (d : AuthData) :
    (t.setAuthData p d).rebaseTarget64 = t.rebaseTarget64 := rfl

@[simp] lemma setRebaseTarget64_rebaseTarget64 (v : BitVec 64) :
    (t.setRebaseTarget64 p v).rebaseTarget64 p = some v := Function.update_self ..

@[simp] lemma setRebaseTarget64_high8Map (v : BitVec 64) :
    (t.setRebaseTarget64 p v).high8Map = t.high8Map := rfl

@[simp] lemma setRebaseTarget64_authDataMap (v : BitVec 64) :
    (t.setRebaseTarget64 p v).authDataMap = t.authDataMap := rfl

end Lookup

/-- The tracker of a region in which nothing has been recorded. -/
def empty (regionStart : Nat) : ASLRTracker :=
  ⟨regionStart, true, fun _ => false, fun _ => none, fun _ => none, fun _ => none, fun _ => none⟩

end ASLRTracker

/-! ### References -/

/-- The kinds of split-seg info v2. -/
inductive AdjKind
  | pointer32 | pointer64 | delta32 | delta64 | arm64Adrp | arm64Off12 | arm64Br26
  | armMovwMovt | armBr24 | thumbMovwMovt | thumbBr22 | imageOff32 | threadedPointer64
  | unknown (kind : Nat)
  deriving DecidableEq, Repr

/-- What the builder reports when a dylib cannot be adjusted. -/
inductive AdjustError
  | delta32CantAdjust (adjust : BitVec 64)
  | unknownFormat32 (format : Nat)
  | unknownFormat64 (format : Nat)
  | badPointer32 (fromNewAddress : BitVec 64)
  | badPointer64 (fromNewAddress : BitVec 64)
  | imageOff32CantAdjust (toNewAddress : BitVec 64)
  | adrpTooFar
  | off12Unaligned (scale : Nat) (newPageOffset : BitVec 32)
  | off12OutsidePage (scale : Nat)
  | addOff12UsesShift
  | unknownOff12 (instruction : BitVec 32) (fromNewAddress : BitVec 64)
  | movNotPaired (kind : AdjKind)
  | movTargetsDiffer (kind : AdjKind)
  | br26OutOfRange
  | unknownKind (kind : Nat)
  | tagOnAuthenticated
  | highBitsInUse
  | unknownChainFormat
  | slideNotKnown (addr : BitVec 64)
  | unhandledFormat (format : Nat)
  | unsupportedFormat (format : Nat)
  deriving DecidableEq, Repr

/-- The arguments of one call of `adjustReference`. -/
structure Reference where
  kind : AdjKind
  mappedAddr : Nat
  fromNewAddress : BitVec 64
  toNewAddress : BitVec 64
  adjust : BitVec 64
  targetSlide : BitVec 64
  imageStartAddress : BitVec 64
  imageEndAddress : BitVec 64
  convertRebaseChains : Bool
  -- whether a `lohTracker` is passed
  trackLOH : Bool

/-- What `adjustReference` reads and writes: the mapped bytes, the trackers, the diagnostics
and the three `last...` references of its caller, where kind 0 is `none`. -/
structure AdjustState where
  mem : Mem
  aslrTracker : ASLRTracker
  lohTracker : List (BitVec 64 × Nat)
  diag : Option AdjustError
  lastMappedAddr32 : Nat
  lastKind : Option AdjKind
  lastToNewAddress : BitVec 64

namespace AdjustState

variable (s : AdjustState)

def get32 (a : Nat) : BitVec 32 := load 4 s.mem a
def get64 (a : Nat) : BitVec 64 := load 8 s.mem a
def set32 (a : Nat) (v : BitVec 32) : AdjustState := { s with mem := store 4 s.mem a v }
def set64 (a : Nat) (v : BitVec 64) : AdjustState := { s with mem := store 8 s.mem a v }
def error (e : AdjustError) : AdjustState := { s with diag := some e }
def track (f : ASLRTracker → ASLRTracker) : AdjustState :=
  { s with aslrTracker := f s.aslrTracker }

section Projections

variable {s}

@[simp] lemma get64_set64 (a : Nat) (v : BitVec 64) : (s.set64 a v).get64 a = v :=
  load_store_same 8 _ _ _

@[simp] lemma aslrTracker_set64 (a : Nat) (v : BitVec 64) :
    (s.set64 a v).aslrTracker = s.aslrTracker := rfl

@[simp] lemma diag_set64 (a : Nat) (v : BitVec 64) : (s.set64 a v).diag = s.diag := rfl

@[simp] lemma get64_track (f : ASLRTracker → ASLRTracker) (a : Nat) :
    (s.track f).get64 a = s.get64 a := rfl

@[simp] lemma aslrTracker_track (f : ASLRTracker → ASLRTracker) :
    (s.track f).aslrTracker = f s.aslrTracker := rfl

@[simp] lemma diag_track (f : ASLRTracker → ASLRTracker) : (s.track f).diag = s.diag := rfl

@[simp] lemma diag_error (e : AdjustError) : (s.error e).diag = some e := rfl

end Projections

end AdjustState

/-- The dylib being adjusted. -/
structure Adjustor where
  cacheBaseAddress : BitVec 64
  hasChainedFixupsCmd : Bool
  chainedFixupsFormat : Nat
  usesClassicRelocations : Bool
  maskPointers : Bool
  -- per segment: original start address, size and slide
  segments : List (BitVec 64 × BitVec 64 × BitVec 64)

/-- `_segOrigStartAddresses[0]`. -/
def Adjustor.origBase (A : Adjustor) : BitVec 64 := (A.segments.map Prod.fst).headD 0

/-! ### Conversion of chained rebases -/

section Convert

variable (A : Adjustor) (chainPtr : Nat)

def plainRebase (orgPtr : PointerOnDisk) (target : Nat) : PointerOnDisk :=
  setField (setField (setField (setField orgPtr 0 43 target) 43 8 0) 62 1 0) 63 1 0

def authDataOf (orgPtr : PointerOnDisk) : AuthData :=
  ⟨orgPtr.arm64eDiversity, orgPtr.arm64eAddrDiv, orgPtr.arm64eKey⟩

def convertAuthRebase (targetSlide : BitVec 64) (convertRebaseChains : Bool)
    (s : AdjustState) : AdjustState :=
  let orgPtr : PointerOnDisk := s.get64 chainPtr
  let targetVMAddr := BitVec.ofNat 64 orgPtr.arm64eAuthTarget + A.origBase + targetSlide
  let high8 := targetVMAddr >>> 56
  -- the kernel uses the high bits in the vmAddr
  let badPointer := !(decide (A.chainedFixupsFormat = ptrArm64eKernel) &&
    decide ((targetVMAddr - A.cacheBaseAddress) >>> 56 = 0))
  if high8 ≠ 0 ∧ badPointer then s.error .tagOnAuthenticated
  else if A.chainedFixupsFormat = ptrArm64eUserland then
    (s.track (fun t => (t.setAuthData chainPtr (authDataOf orgPtr)).setRebaseTarget64 chainPtr
      targetVMAddr)).set64 chainPtr (plainRebase orgPtr 0)
  else if convertRebaseChains then
    -- this chain has been broken by merging CF constants
    (s.track (fun t => t.setAuthData chainPtr (authDataOf orgPtr))).set64 chainPtr targetVMAddr
  else if targetVMAddr.toNat % 2 ^ 32 = targetVMAddr.toNat then
    s.set64 chainPtr (setField orgPtr 0 32 targetVMAddr.toNat)
  else if targetVMAddr.toNat % 2 ^ 43 = targetVMAddr.toNat then
    (s.track (fun t => t.setAuthData chainPtr (authDataOf orgPtr))).set64 chainPtr
      (plainRebase orgPtr targetVMAddr.toNat)
  else
    (s.track (fun t => (t.setAuthData chainPtr (authDataOf orgPtr)).setRebaseTarget64 chainPtr
      targetVMAddr)).set64 chainPtr (plainRebase orgPtr 0)

/-- The end of the conversion of a plain rebase, once its new target is known. -/
def storePlainTarget (targetVMAddr : BitVec 64) (convertRebaseChains : Bool)
    (s : AdjustState) : AdjustState :=
  let orgPtr : PointerOnDisk := s.get64 chainPtr
  if convertRebaseChains then s.set64 chainPtr targetVMAddr
  else if targetVMAddr.toNat % 2 ^ 43 = targetVMAddr.toNat then
    s.set64 chainPtr (setField orgPtr 0 43 targetVMAddr.toNat)
  else
    (s.track (fun t => t.setRebaseTarget64 chainPtr targetVMAddr)).set64 chainPtr
      (setField orgPtr 0 43 0)

/-- The tag of the pointer goes to the side table, from the entry or from the new target. -/
def moveHigh8 (targetVMAddr : BitVec 64) (convertRebaseChains : Bool)
    (s : AdjustState) : AdjustState :=
  let orgPtr : PointerOnDisk := s.get64 chainPtr
  let high8 : BitVec 8 := (targetVMAddr >>> 56).setWidth 8
  if orgPtr.arm64eHigh8 ≠ 0 then
    if high8 ≠ 0 then s.error .highBitsInUse
    else
      storePlainTarget chainPtr targetVMAddr convertRebaseChains
        (s.track (fun t => t.setHigh8 chainPtr (BitVec.ofNat 8 orgPtr.arm64eHigh8)))
  else if high8 ≠ 0 then
    storePlainTarget chainPtr (targetVMAddr &&& 0x00FFFFFFFFFFFFFF#64) convertRebaseChains
      (s.track (fun t => t.setHigh8 chainPtr high8))
  else storePlainTarget chainPtr targetVMAddr convertRebaseChains s

def convertPlainRebase (targetSlide : BitVec 64) (convertRebaseChains : Bool)
    (s : AdjustState) : AdjustState :=
  let target := BitVec.ofNat 64 (PointerOnDisk.arm64eTarget (s.get64 chainPtr))
  if A.chainedFixupsFormat = ptrArm64e then
    moveHigh8 chainPtr (target + targetSlide) convertRebaseChains s
  else if A.chainedFixupsFormat = ptrArm64eUserland ∨
      A.chainedFixupsFormat = ptrArm64eUserland24 then
    -- the rebase target is a vmoffset, so the target is tracked out of line
    moveHigh8 chainPtr 0 convertRebaseChains
      (s.track (fun t => t.setRebaseTarget64 chainPtr (target + targetSlide)))
  else if A.chainedFixupsFormat = ptrArm64eKernel then
    moveHigh8 chainPtr (target + A.origBase + targetSlide) convertRebaseChains s
  else s.error .unknownChainFormat

def convertArm64eRebaseToIntermediate (targetSlide : BitVec 64) (convertRebaseChains : Bool)
    (s : AdjustState) : AdjustState :=
  if PointerOnDisk.arm64eAuth (s.get64 chainPtr) then
    convertAuthRebase A chainPtr targetSlide convertRebaseChains s
  else convertPlainRebase A chainPtr targetSlide convertRebaseChains s

def convertGeneric64RebaseToIntermediate (targetSlide : BitVec 64) (s : AdjustState) :
    AdjustState :=
  let orgPtr : PointerOnDisk := s.get64 chainPtr
  let target := BitVec.ofNat 64 orgPtr.generic64Target
  if A.chainedFixupsFormat = ptr64 then
    let targetVMAddr := target + targetSlide
    if targetVMAddr.toNat % 2 ^ 36 = targetVMAddr.toNat then
      s.set64 chainPtr (setField orgPtr 0 36 targetVMAddr.toNat)
    else
      (s.track (fun t => t.setRebaseTarget64 chainPtr targetVMAddr)).set64 chainPtr
        (setField orgPtr 0 36 0)
  else if A.chainedFixupsFormat = ptr64Offset then
    (s.track (fun t => t.setRebaseTarget64 chainPtr (target + A.origBase + targetSlide))).set64
      chainPtr (setField orgPtr 0 36 0)
  else s.error .unknownChainFormat

end Convert

/-! ### Words and instructions -/

/-- The word to write, with an error reported on the way, or the error after which nothing is
written. -/
abbrev Rewrite := Except AdjustError (BitVec 32 × Option AdjustError)

def adjustDelta32 (adjust : BitVec 64) (value32 : BitVec 32) : Rewrite :=
  let delta := value32.signExtend 64 + adjust
  if (0x80000000#64).slt delta ∨ (0x80000000#64).slt (-delta) then
    .error (.delta32CantAdjust adjust)
  else .ok (delta.setWidth 32, none)

def adjustImageOff32 (r : Reference) : Rewrite :=
  let value64 := r.toNewAddress - r.imageStartAddress
  if r.imageEndAddress < value64 then .error (.imageOff32CantAdjust r.toNewAddress)
  else .ok (value64.setWidth 32, none)

def isAdrp (instruction : BitVec 32) : Bool := instruction &&& 0x9F000000#32 == 0x90000000#32

def pageOf (address : BitVec 64) : BitVec 64 := address &&& ~~~0xFFF#64

def adjustAdrp (fromNewAddress toNewAddress : BitVec 64) (instruction : BitVec 32) : Rewrite :=
  if isAdrp instruction then
    let pageDistance := pageOf toNewAddress - pageOf fromNewAddress
    let newPage21 := pageDistance.sshiftRight 12
    if (2097151#64).slt newPage21 ∨ newPage21.slt (-2097151#64) then .error .adrpTooFar
    else
      .ok ((instruction &&& 0x9F00001F#32) ||| ((newPage21 <<< 29).setWidth 32 &&& 0x60000000#32) |||
        ((newPage21 <<< 3).setWidth 32 &&& 0x00FFFFE0#32), none)
  else
    -- sometimes optimized to another instruction after the split-seg info was generated
    .ok (instruction, none)

def isLoadStoreImm12 (instruction : BitVec 32) : Bool :=
  instruction &&& 0x3B000000#32 == 0x39000000#32

def isAddImm12 (instruction : BitVec 32) : Bool := instruction &&& 0xFFC00000#32 == 0x91000000#32

/-- The scale of a load or store, by its two top bits and for the first case its vector bits. -/
def off12Scale (instruction : BitVec 32) : Nat :=
  if instruction &&& 0xC0000000#32 = 0x00000000#32 then
    if instruction &&& 0x04800000#32 = 0x04800000#32 then 16 else 1
  else if instruction &&& 0xC0000000#32 = 0x40000000#32 then 2
  else if instruction &&& 0xC0000000#32 = 0x80000000#32 then 4
  else 8

def putImm12 (instruction newAddend : BitVec 32) : BitVec 32 :=
  (instruction &&& 0xFFC003FF#32) ||| (newAddend <<< 10)

def adjustLoadStore (newPageOffset instruction : BitVec 32) : Rewrite :=
  let encodedAddend := (instruction &&& 0x003FFC00#32) >>> 10
  let scale := off12Scale instruction
  if scale = 1 then .ok (putImm12 instruction newPageOffset, none)
  else if newPageOffset &&& BitVec.ofNat 32 (scale - 1) ≠ 0 then
    .error (.off12Unaligned scale newPageOffset)
  else
    let rewritten := putImm12 instruction (newPageOffset / BitVec.ofNat 32 scale)
    if 4096#32 ≤ encodedAddend * BitVec.ofNat 32 scale then
      -- with scale 16 the error is reported and the instruction rewritten all the same
      if scale = 16 then .ok (rewritten, some (.off12OutsidePage scale))
      else .error (.off12OutsidePage scale)
    else .ok (rewritten, none)

def adjustOff12 (fromNewAddress toNewAddress : BitVec 64) (instruction : BitVec 32) : Rewrite :=
  let newPageOffset := (toNewAddress &&& 0xFFF#64).setWidth 32
  if isLoadStoreImm12 instruction then adjustLoadStore newPageOffset instruction
  else if isAddImm12 instruction then
    if instruction &&& 0x00C00000#32 ≠ 0 then .error .addOff12UsesShift
    else .ok (putImm12 instruction newPageOffset, none)
  else if instruction ≠ 0xD503201F#32 then .error (.unknownOff12 instruction fromNewAddress)
  else .ok (instruction, none)

def adjustBr26 (fromNewAddress toNewAddress : BitVec 64) (instruction : BitVec 32) : Rewrite :=
  let deltaToFinalTarget := toNewAddress - fromNewAddress
  if (-0x07FFFFFF#64).slt deltaToFinalTarget ∧ deltaToFinalTarget.slt 0x07FFFFFF#64 then
    .ok ((instruction &&& 0xFC000000#32) |||
      ((deltaToFinalTarget.sshiftRight 2).setWidth 32 &&& 0x03FFFFFF#32), none)
  else .error .br26OutOfRange

/-! ### Pairs of `movw` and `movt` -/

/-- The two instructions of an instruction set that load the halves of a 32-bit word. -/
structure MovCodec where
  isMovw : BitVec 32 → Bool
  isMovt : BitVec 32 → Bool
  getWord : BitVec 32 → BitVec 16
  setWord : BitVec 32 → BitVec 16 → BitVec 32

def isThumbMovw (instruction : BitVec 32) : Bool := instruction &&& 0x8000FBF0#32 == 0x0000F240#32

def isThumbMovt (instruction : BitVec 32) : Bool := instruction &&& 0x8000FBF0#32 == 0x0000F2C0#32

def getThumbWord (instruction : BitVec 32) : BitVec 16 :=
  let i := (instruction &&& 0x00000400#32) >>> 10
  let imm4 := instruction &&& 0x0000000F#32
  let imm3 := (instruction &&& 0x70000000#32) >>> 28
  let imm8 := (instruction &&& 0x00FF0000#32) >>> 16
  ((imm4 <<< 12) ||| (i <<< 11) ||| (imm3 <<< 8) ||| imm8).setWidth 16

def setThumbWord (instruction : BitVec 32) (word : BitVec 16) : BitVec 32 :=
  let imm4 := ((word &&& 0xF000#16) >>> 12).setWidth 32
  let i := ((word &&& 0x0800#16) >>> 11).setWidth 32
  let imm3 := ((word &&& 0x0700#16) >>> 8).setWidth 32
  let imm8 := (word &&& 0x00FF#16).setWidth 32
  (instruction &&& 0x8F00FBF0#32) ||| imm4 ||| (i <<< 10) ||| (imm3 <<< 28) ||| (imm8 <<< 16)

def isArmMovw (instruction : BitVec 32) : Bool := instruction &&& 0x0FF00000#32 == 0x03000000#32

def isArmMovt (instruction : BitVec 32) : Bool := instruction &&& 0x0FF00000#32 == 0x03400000#32

def getArmWord (instruction : BitVec 32) : BitVec 16 :=
  let imm4 := (instruction &&& 0x000F0000#32) >>> 16
  let imm12 := instruction &&& 0x00000FFF#32
  ((imm4 <<< 12) ||| imm12).setWidth 16

def setArmWord (instruction : BitVec 32) (word : BitVec 16) : BitVec 32 :=
  let imm4 := ((word &&& 0xF000#16) >>> 12).setWidth 32
  let imm12 := (word &&& 0x0FFF#16).setWidth 32
  (instruction &&& 0xFFF0F000#32) ||| (imm4 <<< 16) ||| imm12

def thumbMov : MovCodec := ⟨isThumbMovw, isThumbMovt, getThumbWord, setThumbWord⟩

def armMov : MovCodec := ⟨isArmMovw, isArmMovt, getArmWord, setArmWord⟩

/-- Both instructions after `adjust` is added to the word they make, or `none` when they are
not paired. -/
def adjustMovPair (c : MovCodec) (adjust : BitVec 64) (instruction1 instruction2 : BitVec 32) :
    Option (BitVec 32 × BitVec 32) :=
  if c.isMovw instruction1 && c.isMovt instruction2 then
    let full := (c.getWord instruction2 ++ c.getWord instruction1) + adjust.setWidth 32
    some (c.setWord instruction1 (full.setWidth 16), c.setWord instruction2 (full.extractLsb' 16 16))
  else if c.isMovt instruction1 && c.isMovw instruction2 then
    let full := (c.getWord instruction1 ++ c.getWord instruction2) + adjust.setWidth 32
    some (c.setWord instruction1 (full.extractLsb' 16 16), c.setWord instruction2 (full.setWidth 16))
  else none

/-! ### One reference -/

/-- How the switch over the kinds is left: by `return`, or by `break` with the values of
`kind` and `mappedAddr32`. -/
inductive SwitchEnd
  | returned
  | broke (kind : Option AdjKind) (mappedAddr32 : Nat)

section Switch

variable (A : Adjustor) (r : Reference) (s : AdjustState)

def rewriteAt (f : BitVec 32 → Rewrite) : AdjustState × SwitchEnd :=
  match f (s.get32 r.mappedAddr) with
  | .error e => (s.error e, .returned)
  | .ok (w, e) =>
    let s' := s.set32 r.mappedAddr w
    ({ s' with diag := e.or s'.diag }, .broke (some r.kind) r.mappedAddr)

def noteLOH : AdjustState :=
  if r.trackLOH then { s with lohTracker := s.lohTracker.insert (r.toNewAddress, r.mappedAddr) }
  else s

def adjustMov (c : MovCodec) : AdjustState × SwitchEnd :=
  if s.lastKind = some r.kind then
    if s.lastToNewAddress = r.toNewAddress then
      match adjustMovPair c r.adjust (s.get32 s.lastMappedAddr32) (s.get32 r.mappedAddr) with
      | none => (s.error (.movNotPaired r.kind), .returned)
      | some (instruction1, instruction2) =>
        ((s.set32 s.lastMappedAddr32 instruction1).set32 r.mappedAddr instruction2,
          .broke none r.mappedAddr)
    else (s.error (.movTargetsDiffer r.kind), .returned)
  else (s, .broke (some r.kind) r.mappedAddr)

def adjustPointer32 : AdjustState × SwitchEnd :=
  let p := r.mappedAddr
  if A.hasChainedFixupsCmd then
    if A.chainedFixupsFormat = ptr32 then
      let raw : PointerOnDisk := (s.get32 p).setWidth 64
      if raw.generic32Bind then (s, .broke (some r.kind) p)
      else
        let target := (BitVec.ofNat 64 raw.generic32Target + r.targetSlide).setWidth 32
        ((s.track (fun t => (t.add p).setRebaseTarget32 p target)).set32 p
          (setField (s.get32 p) 0 26 0), .broke (some r.kind) p)
    else (s.error (.unknownFormat32 A.chainedFixupsFormat), .broke (some r.kind) p)
  else if A.usesClassicRelocations then
    if r.toNewAddress.setWidth 32 ≠ ((s.get32 p).setWidth 64 + r.targetSlide).setWidth 32 then
      (s.error (.badPointer32 r.fromNewAddress), .returned)
    else
      ((s.track (fun t => (t.setRebaseTarget32 p (r.toNewAddress.setWidth 32)).add p)).set32 p 0,
        .broke (some r.kind) p)
  else if r.toNewAddress ≠ (s.get32 p).setWidth 64 + r.targetSlide then
    (s.error (.badPointer32 r.fromNewAddress), .returned)
  else
    ((s.track (fun t => t.add p)).set32 p (r.toNewAddress.setWidth 32), .broke (some r.kind) p)

/-- Records the top byte of the new address of a pointer that is in no chain. -/
def trackHigh8 (t : ASLRTracker) : ASLRTracker :=
  let high8 : BitVec 8 := (r.toNewAddress >>> 56).setWidth 8
  if high8 ≠ 0 then t.setHigh8 r.mappedAddr high8 else t

def convertArm64eRebase : AdjustState :=
  if PointerOnDisk.arm64eBind (s.get64 r.mappedAddr) then s
  else
    (convertArm64eRebaseToIntermediate A r.mappedAddr r.targetSlide r.convertRebaseChains s).track
      (fun t => t.add r.mappedAddr)

def convertGeneric64Rebase : AdjustState :=
  if PointerOnDisk.generic64Bind (s.get64 r.mappedAddr) then s
  else
    (convertGeneric64RebaseToIntermediate A r.mappedAddr r.targetSlide s).track
      (fun t => t.add r.mappedAddr)

def adjustPointer64 : AdjustState × SwitchEnd :=
  let p := r.mappedAddr
  if A.hasChainedFixupsCmd then
    if A.chainedFixupsFormat ∈ [ptrArm64e, ptrArm64eUserland, ptrArm64eUserland24, ptrArm64eKernel]
    then (convertArm64eRebase A r s, .broke (some r.kind) 0)
    else if A.chainedFixupsFormat ∈ [ptr64, ptr64Offset] then
      (convertGeneric64Rebase A r s, .broke (some r.kind) 0)
    else (s.error (.unknownFormat64 A.chainedFixupsFormat), .broke (some r.kind) 0)
  else if r.toNewAddress ≠ s.get64 p + r.targetSlide then
    (s.error (.badPointer64 r.fromNewAddress), .returned)
  else if A.usesClassicRelocations then
    ((s.track (fun t => trackHigh8 r ((t.setRebaseTarget64 p r.toNewAddress).add p))).set64 p 0,
      .broke (some r.kind) 0)
  else
    ((s.track (fun t => trackHigh8 r (t.add p))).set64 p r.toNewAddress, .broke (some r.kind) 0)

def adjustKind : AdjustState × SwitchEnd :=
  match r.kind with
  | .delta32 => rewriteAt r s (adjustDelta32 r.adjust)
  | .pointer32 => adjustPointer32 A r s
  | .pointer64 => adjustPointer64 A r s
  | .threadedPointer64 => (convertArm64eRebase A r s, .broke (some r.kind) 0)
  | .delta64 =>
    (s.set64 r.mappedAddr (s.get64 r.mappedAddr + r.adjust), .broke (some r.kind) 0)
  | .imageOff32 =>
    if r.adjust = 0 then (s, .broke (some r.kind) 0) else rewriteAt r s (fun _ => adjustImageOff32 r)
  | .arm64Adrp => rewriteAt r (noteLOH r s) (adjustAdrp r.fromNewAddress r.toNewAddress)
  | .arm64Off12 => rewriteAt r (noteLOH r s) (adjustOff12 r.fromNewAddress r.toNewAddress)
  | .thumbMovwMovt => adjustMov r s thumbMov
  | .armMovwMovt => adjustMov r s armMov
  | .arm64Br26 =>
    if r.adjust = 0 then (s, .broke (some r.kind) 0)
    else rewriteAt r s (adjustBr26 r.fromNewAddress r.toNewAddress)
  -- nothing to do with calls to stubs
  | .thumbBr22 | .armBr24 => (s, .broke (some r.kind) 0)
  | .unknown kind => (s.error (.unknownKind kind), .returned)

def adjustReference : AdjustState :=
  match adjustKind A r s with
  | (s', .returned) => s'
  | (s', .broke kind mappedAddr32) =>
    { s' with
      lastKind := kind
      lastToNewAddress := r.toNewAddress
      lastMappedAddr32 := mappedAddr32 }

end Switch

end Dyld.Cache
