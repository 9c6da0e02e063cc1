import Dyld.Chained.WalkChain
import Dyld.MachO.LoadCommands
import Dyld.MachO.RuntimeOffsets

/-!
# Images for a kernel collection

`MachOAnalyzer::canBePlacedInKernelCollection` looks at the header of an image, and then at every
location of a fixup: those of chains, or those that the rebase and the bind opcodes hand on. The blocks
that look at the locations leave their findings in captured flags, and stop at the first bad one.
-/

namespace Dyld.MachO.KernelCollection

open Dyld.Lib Dyld.Chained

inductive FileType
  | execute | kextBundle | fileSet | other
  deriving DecidableEq, Repr

inductive LoadCommand
  | main | unixThread | loadDylinker | dyldInfoOnly | dyldChainedFixups | other
  deriving DecidableEq, Repr

structure KernelSegment where
  segName : String
  vmAddr : BitVec 64
  vmSize : BitVec 64
  writable : Bool
  executable : Bool
  deriving DecidableEq, Repr

structure KernelSection where
  sectType : Nat
  sectName : String
  segName : String
  deriving DecidableEq, Repr

/-- `loadCommands` are those up to the first malformed one. `splitSegFormat` is the first byte of the
split seg info, `chainStarts` what `withChainStarts` finds, and `rebases` and `binds` are the locations
that the iterators over opcodes and relocations come to. -/
structure KernelImage where
  filetype : FileType
  twoLevel : Bool
  pie : Bool
  archName : String
  loadCommands : List LoadCommand
  commandsMalformed : Bool
  segments : List KernelSegment
  sections : List KernelSection
  splitSegFormat : Option UInt8
  loadAddress : Nat
  memory : Mem
  chainStarts : Option ChainedImage.StartsInImage
  lazyPointers : LazyPointers
  rebases : List RebaseRegisters
  binds : List BindLocation

def S_INTERPOSING : Nat := 0xd
def DYLD_CACHE_ADJ_V2_FORMAT : UInt8 := 0x7F
def BIND_TYPE_TEXT_PCREL32 : Nat := 3

/-- What an image is told: whether it is accepted, and the calls of `failureReason`. -/
structure Verdict where
  accepted : Bool
  reasons : List String
  deriving DecidableEq, Repr

/-- A captured flag, and the calls of `failureReason`. -/
structure Check where
  ok : Bool := true
  reasons : List String := []
  deriving DecidableEq, Repr

def Check.fail (c : Check) (reason : String) : Check := ⟨false, c.reasons ++ [reason]⟩

/-- The flags that the block for binds captures. -/
structure BindCheck where
  rebasesOk : Bool
  bindsOk : Bool
  reasons : List String
  deriving DecidableEq, Repr

namespace KernelImage

variable (image : KernelImage)

def isArch (name : String) : Bool := image.archName == name

def isX86 : Bool := image.isArch "x86_64" || image.isArch "x86_64h"

def hasLoadCommand (cmd : LoadCommand) : Bool := image.loadCommands.contains cmd

def isStaticExecutable : Bool := image.filetype == .execute && !image.hasLoadCommand .loadDylinker

def isKextBundle : Bool := image.filetype == .kextBundle

def isFileSet : Bool := image.filetype == .fileSet

def isSplitSegV2 : Bool := image.splitSegFormat == some DYLD_CACHE_ADJ_V2_FORMAT

def hasChainedFixups : Bool :=
  if image.isArch "arm64e" then
    image.hasLoadCommand .dyldInfoOnly || image.hasLoadCommand .dyldChainedFixups
  else image.hasLoadCommand .dyldChainedFixups

def usesClassicRelocationsInKernelCollection : Bool :=
  if image.isX86 then image.isStaticExecutable || image.isFileSet else false

def hasSegment (name : String) : Bool := image.segments.any (fun info => info.segName == name)

def preferredLoadAddress : BitVec 64 :=
  match image.segments.find? (fun info => info.segName == "__TEXT") with
  | some info => info.vmAddr
  | none => 0

def baseAddress : BitVec 64 :=
  image.segments.foldl (fun base info => if info.vmAddr < base then info.vmAddr else base)
    (BitVec.allOnes 64)

def hasInterposing : Bool :=
  image.sections.any (fun info =>
    info.sectType == S_INTERPOSING || (info.sectName == "__interpose" && info.segName == "__DATA"))

/-! ### The header -/

/-- What `MachOFile::canBePlacedInKernelCollection` asks of the kernel. -/
def kernelFailure : Option String :=
  if image.twoLevel then some "Built with two level namespaces"
  else if image.hasSegment "__PAGEZERO" then some "Has __PAGEZERO"
  else if image.hasLoadCommand .main then some "Found LC_MAIN"
  else if !image.hasLoadCommand .unixThread then some "Expected LC_UNIXTHREAD"
  else if image.commandsMalformed then some "Error parsing load commands"
  else if !image.isStaticExecutable then some "Expected static executable"
  else if !image.pie then some "Expected pie"
  else none

/-- `MachOFile::canBePlacedInKernelCollection`, or the reason why not. -/
def machOFileFailure : Option String :=
  if image.filetype ≠ .execute ∧ image.isKextBundle = false then some "Not MH_KEXT_BUNDLE"
  else
    (if image.filetype = .execute then image.kernelFailure else none).or
    (if image.isArch "arm64e" && image.isKextBundle && !image.hasChainedFixups then
      some "Missing fixup information"
    else if image.hasInterposing then some "Has interposing tuples"
    else if !image.isX86 && image.segments.any (fun info => info.writable && info.executable) then
      some "Segments are not allowed to be both writable and executable"
    else none)

def hibernateFailure : Option String :=
  match (image.segments.filter (fun info => info.segName == "__HIB")).getLast? with
  | some info =>
    if greaterThanAddOrOverflow info.vmAddr.toNat info.vmSize.toNat image.preferredLoadAddress.toNat then
      some "__HIB segment should be mapped before base address"
    else none
  | none => none

def staticExecutableFailure : Option String :=
  if !image.isSplitSegV2 then some "Missing split seg v2"
  else if !image.hasSegment "__TEXT" then some "Expected __TEXT segment"
  else if image.hasSegment "__TEXT_EXEC" && image.hasSegment "__HIB" then
    some "Expected __TEXT_EXEC or __HIB segment, but found both"
  else if !image.hasSegment "__TEXT_EXEC" && !image.hasSegment "__HIB" then
    some "Expected __TEXT_EXEC or __HIB segment, but found neither"
  else image.hibernateFailure

def layoutFailure : Option String :=
  (if image.isKextBundle then
    if !image.isX86 && !image.isSplitSegV2 then some "Missing split seg v2" else none
  else if image.isStaticExecutable then image.staticExecutableFailure
  else none).or
  (if image.isKextBundle && image.preferredLoadAddress != 0 then some "Has load address" else none)

def headerFailure : Option String := image.machOFileFailure.or image.layoutFailure

/-! ### Chained fixups -/

def chainedFailure (pointer_format vmOffset : Nat) : Option String :=
  if pointer_format ∈ [ptrArm64e, ptr64, ptr32, ptr32Cache, ptr32Firmware, ptr64KernelCache,
      ptrX8664KernelCache] then
    some "unsupported chained fixups pointer format"
  else if pointer_format ∉ [ptr64Offset, ptrArm64eKernel] then
    some "unknown chained fixups pointer format"
  else if vmOffset &&& 0x3 ≠ 0 then some "fixup value is not 4-byte aligned"
  else if vmOffset ≥ 2 ^ 30 then some "fixup value does not fit in 30-bits"
  else none

def checkChained (segInfo : StartsInSegment) (c : Check) (fixupLoc : Nat) : Check × Bool :=
  match chainedFailure segInfo.pointerFormat (fixupLoc - image.loadAddress) with
  | some reason => (c.fail reason, true)
  | none => (c, false)

/-- `forEachFixupInAllChains` of the chains that `withChainStarts` finds. -/
def forEachChainedFixup {σ : Type} (handler : StartsInSegment → σ → Nat → σ × Bool) (fuel : Nat) (s : σ) :
    Option σ :=
  match image.chainStarts with
  | none => some s
  | some starts =>
    (WalkChain.forEachFixupInAllChains image.memory image.loadAddress false handler fuel starts
      ⟨s, none, []⟩).map (fun r => r.state)

/-! ### Rebases and binds -/

def namedSegments : List NamedSegment := image.segments.map (fun info => ⟨info.segName, info.vmAddr⟩)

/-- `forEachRebase(diag, false, handler)`, with the lazy pointers. -/
def forEachRebase {σ : Type} (handler : BitVec 64 → σ → σ × Bool) (s : σ) : σ :=
  (runBlock (rebaseBlock image.namedSegments image.lazyPointers (fun runtimeOffset _ => handler runtimeOffset))
    image.rebases s).1

def forEachBind {σ : Type} (handler : BitVec 64 → BindArguments → σ → σ × Bool) (s : σ) : σ :=
  (runBlock (bindBlock image.namedSegments handler) image.binds s).1

def canHaveUnalignedFixups : Bool := image.usesClassicRelocationsInKernelCollection || image.isX86

/-- The location is not aligned, and should be. -/
def misaligned (runtimeOffset : BitVec 64) : Bool :=
  !image.canHaveUnalignedFixups && runtimeOffset &&& 0x3 != 0

def adjustedOffset (runtimeOffset : BitVec 64) : BitVec 64 :=
  if image.isStaticExecutable then image.preferredLoadAddress + runtimeOffset - image.baseAddress
  else runtimeOffset

/-- What is wrong with the location of a rebase. -/
def rebaseFailure (runtimeOffset : BitVec 64) : Option String :=
  if image.misaligned runtimeOffset then some "rebase value is not 4-byte aligned"
  else if image.adjustedOffset runtimeOffset ≥ 1 <<< 30 then some "rebase value does not fit in 30-bits"
  else none

def checkRebase (runtimeOffset : BitVec 64) (c : Check) : Check × Bool :=
  match image.rebaseFailure runtimeOffset with
  | some reason => (c.fail reason, true)
  | none => (c, false)

/-- The block for binds. A location that is too large clears `rebasesOk`. -/
def checkBind (runtimeOffset : BitVec 64) (args : BindArguments) (c : BindCheck) : BindCheck × Bool :=
  if args.type = BIND_TYPE_TEXT_PCREL32 then (c, false)
  else if image.misaligned runtimeOffset then
    ({ c with bindsOk := false, reasons := c.reasons ++ ["bind value is not 4-byte aligned"] }, true)
  else if runtimeOffset ≥ 1 <<< 30 then
    ({ c with rebasesOk := false, reasons := c.reasons ++ ["bind value does not fit in 30-bits"] }, true)
  else (c, false)

def classicVerdict : Verdict :=
  let rebases := image.forEachRebase image.checkRebase {}
  if rebases.ok then
    let binds := image.forEachBind image.checkBind ⟨rebases.ok, true, rebases.reasons⟩
    ⟨binds.bindsOk, binds.reasons⟩
  else ⟨false, rebases.reasons⟩

/-- `MachOAnalyzer::canBePlacedInKernelCollection`. The fuel is for the loops over chains. -/
def canBePlacedInKernelCollection (fuel : Nat) : Option Verdict :=
  match image.headerFailure with
  | some reason => some ⟨false, [reason]⟩
  | none =>
    if image.hasChainedFixups then
      if image.usesClassicRelocationsInKernelCollection then
        some ⟨false, ["Cannot use fixup chains with binary expecting classic relocations"]⟩
      else (image.forEachChainedFixup image.checkChained fuel {}).map (fun c => ⟨c.ok, c.reasons⟩)
    else some image.classicVerdict

/-! ### Locations -/

def chainedFixups (fuel : Nat) : Option (List (Nat × Nat)) :=
  image.forEachChainedFixup
    (fun segInfo l fixupLoc => (l ++ [(segInfo.pointerFormat, fixupLoc - image.loadAddress)], false)) fuel []

def textIndex : Nat := image.segments.findIdx (fun info => info.segName == "__TEXT")

/-- Locations in the order of a walk, each with the address that its offset is taken from: zero, until one
comes for which `__TEXT` is among the segments that are scanned. -/
def measured {α : Type} (scanned : α → Nat) (locations : List α) : List (α × BitVec 64) :=
  (locations.takeWhile (fun l => scanned l ≤ image.textIndex)).map (fun l => (l, 0)) ++
    (locations.dropWhile (fun l => scanned l ≤ image.textIndex)).map (fun l => (l, image.preferredLoadAddress))

def rebasesMeasured : List (RebaseRegisters × BitVec 64) :=
  image.measured (fun r => r.segIndex) (image.rebases.filter (fun r => r.kind = .pointer))

def bindsMeasured : List (BindLocation × BitVec 64) := image.measured (fun l => l.segIndex + 1) image.binds

def rebaseVmAddr (r : RebaseRegisters) : BitVec 64 :=
  locationVmAddr image.namedSegments r.segIndex r.segOffset

def bindVmAddr (l : BindLocation) : BitVec 64 := locationVmAddr image.namedSegments l.segIndex l.segOffset

def rebaseLocation (r : RebaseRegisters) : BitVec 64 :=
  image.rebaseVmAddr r - if image.isStaticExecutable then image.baseAddress else image.preferredLoadAddress

def bindLocation (l : BindLocation) : BitVec 64 := image.bindVmAddr l - image.preferredLoadAddress

/-- A location can be written in 30 bits, and is aligned unless it need not be. -/
def Fits (location : BitVec 64) : Prop :=
  (image.canHaveUnalignedFixups = false → location.toNat % 4 = 0) ∧ location.toNat < 2 ^ 30

end KernelImage

structure Encodable (image : KernelImage) (fuel : Nat) : Prop where
  chained : image.hasChainedFixups = true → ∃ l, image.chainedFixups fuel = some l ∧
    ∀ x ∈ l, x.1 ∈ [ptr64Offset, ptrArm64eKernel] ∧ x.2 % 4 = 0 ∧ x.2 < 2 ^ 30
  rebases : image.hasChainedFixups = false →
    ∀ r ∈ image.rebases, r.kind = .pointer → image.Fits (image.rebaseLocation r)
  binds : image.hasChainedFixups = false →
    ∀ l ∈ image.binds, l.arguments.type ≠ BIND_TYPE_TEXT_PCREL32 → image.Fits (image.bindLocation l)

def AcceptedEncodable (image : KernelImage) (fuel : Nat) : Prop :=
  ∀ verdict, image.canBePlacedInKernelCollection fuel = some verdict → verdict.accepted = true →
    Encodable image fuel

/-! ### Handlers of locations -/

section PassedOn

variable {α γ σ : Type} (segments : List NamedSegment) (handled : α → Bool) (scanned : α → Nat)
  (pass : α → BitVec 64 → γ)

/-- What a block hands on for the locations it comes to. -/
def passedOn : StartVmAddr → List α → List γ
  | _, [] => []
  | v, l :: locations =>
    if handled l then
      pass l (v.lookUp segments (scanned l)).value :: passedOn (v.lookUp segments (scanned l)) locations
    else passedOn v locations

variable {segments handled scanned pass}

/-- A handler sees what is handed on, until it stops. -/
lemma runBody_passedOn (handler : γ → σ → σ × Bool) (locations : List α) (v : StartVmAddr) (s : σ) :
    (runBody (lookUpBlock segments handled scanned pass handler) locations (v, s)).1.2 =
      (runBody handler (passedOn segments handled scanned pass v locations) s).1 := by
  induction locations generalizing v s with
  | nil => rfl
  | cons l locations ih =>
    rw [runBody_cons]
    by_cases hl : handled l = true
    · rw [lookUpBlock_of_handled handler hl, passedOn, if_pos hl, runBody_cons]
      split
      · rfl
      · exact ih _ _
    · rw [lookUpBlock_of_not_handled handler hl, passedOn, if_neg hl]
      exact ih v s

end PassedOn

namespace KernelImage

variable {image : KernelImage}

lemma runBody_checkRebase (l : List (BitVec 64)) {c : Check} (hc : c.ok = true) :
    (runBody image.checkRebase l c).1.ok = true ↔ ∀ o ∈ l, image.rebaseFailure o = none := by
  induction l with
  | nil => exact iff_of_true hc (fun _ ho => absurd ho List.not_mem_nil)
  | cons o l ih =>
    rw [runBody_cons, List.forall_mem_cons, checkRebase]
    cases hfailure : image.rebaseFailure o with
    | some reason =>
      rw [if_pos rfl]
      exact iff_of_false Bool.false_ne_true (fun h => Option.some_ne_none reason h.1)
    | none =>
      rw [if_neg Bool.false_ne_true, ih]
      exact (and_iff_right rfl).symm

/-! ### Binds -/

section Binds

variable (image)

/-- A bind that is looked at and handed on misaligned. -/
def MisalignedBind (x : BindLocation × BitVec 64) : Prop :=
  x.1.arguments.type ≠ BIND_TYPE_TEXT_PCREL32 ∧ image.misaligned (image.bindVmAddr x.1 - x.2) = true

def largeBind (x : BindLocation × BitVec 64) : Bool :=
  x.1.arguments.type != BIND_TYPE_TEXT_PCREL32 && !image.misaligned (image.bindVmAddr x.1 - x.2) &&
    decide (image.bindVmAddr x.1 - x.2 ≥ 1 <<< 30)

def bindsRead : List (BindLocation × BitVec 64) :=
  image.bindsMeasured.takeWhile (fun x => !image.largeBind x)

def bindsUnread : List (BindLocation × BitVec 64) :=
  image.bindsMeasured.dropWhile (fun x => !image.largeBind x)

def bindCall (x : BindLocation × BitVec 64) : BitVec 64 × BindArguments :=
  (image.bindVmAddr x.1 - x.2, x.1.arguments)

end Binds

/-- A bind that needs more than 30 bits ends the walk over the binds, and the flag stays. -/
lemma runBody_checkBind (l : List (BindLocation × BitVec 64)) {c : BindCheck} (hc : c.bindsOk = true) :
    (runBody (Function.uncurry image.checkBind) (l.map image.bindCall) c).1.bindsOk = true ↔
      ∀ x ∈ l.takeWhile (fun x => !image.largeBind x), ¬image.MisalignedBind x := by
  induction l with
  | nil => exact iff_of_true hc (fun _ hx => absurd hx List.not_mem_nil)
  | cons x l ih =>
    rw [List.map_cons, runBody_cons, List.takeWhile_cons]
    by_cases htype : x.1.arguments.type = BIND_TYPE_TEXT_PCREL32
    · have hcall : Function.uncurry image.checkBind (image.bindCall x) c = (c, false) := if_pos htype
      have hmis : ¬image.MisalignedBind x := fun h => h.1 htype
      have hlarge : image.largeBind x = false := by simp [largeBind, htype]
      rw [hcall, if_neg Bool.false_ne_true, hlarge, Bool.not_false, if_pos rfl, List.forall_mem_cons, ih]
      exact (and_iff_right hmis).symm
    · by_cases haligned : image.misaligned (image.bindVmAddr x.1 - x.2) = true
      · have hcall : Function.uncurry image.checkBind (image.bindCall x) c = ({ c with
            bindsOk := false
            reasons := c.reasons ++ ["bind value is not 4-byte aligned"] }, true) :=
          (if_neg htype).trans (if_pos haligned)
        have hlarge : image.largeBind x = false := by simp [largeBind, haligned]
        rw [hcall, if_pos rfl, hlarge, Bool.not_false, if_pos rfl, List.forall_mem_cons]
        exact iff_of_false Bool.false_ne_true (fun h => h.1 ⟨htype, haligned⟩)
      · have hmis : ¬image.MisalignedBind x := fun h => haligned h.2
        by_cases hsize : image.bindVmAddr x.1 - x.2 ≥ 1 <<< 30
        · have hcall : Function.uncurry image.checkBind (image.bindCall x) c = ({ c with
              rebasesOk := false
              reasons := c.reasons ++ ["bind value does not fit in 30-bits"] }, true) :=
            (if_neg htype).trans ((if_neg haligned).trans (if_pos hsize))
          have hlarge : image.largeBind x = true := by
            rw [largeBind, decide_eq_true hsize, Bool.and_true]
            simp [htype, haligned]
          rw [hcall, if_pos rfl, hlarge, Bool.not_true, if_neg Bool.false_ne_true]
          exact iff_of_true hc (fun _ hx => absurd hx List.not_mem_nil)
        · have hcall : Function.uncurry image.checkBind (image.bindCall x) c = (c, false) :=
            (if_neg htype).trans ((if_neg haligned).trans (if_neg hsize))
          have hlarge : image.largeBind x = false := by
            rw [largeBind, decide_eq_false hsize, Bool.and_false]
          rw [hcall, if_neg Bool.false_ne_true, hlarge, Bool.not_false, if_pos rfl, List.forall_mem_cons, ih]
          exact (and_iff_right hmis).symm

/-! ### Offsets that are handed on -/

section Offsets

variable (image)

/-- A rebase whose offset is not taken from `__TEXT`, or is from an odd distance to the lowest segment. -/
def MisreadRebase (x : RebaseRegisters × BitVec 64) : Prop :=
  x.2 ≠ image.preferredLoadAddress ∨
    image.isStaticExecutable = true ∧ (image.preferredLoadAddress - image.baseAddress).toNat % 4 ≠ 0

/-- The locations that the blocks take at a wrong offset, or do not look at, fit all the same. -/
structure MisreadFit : Prop where
  rebases : ∀ x ∈ image.rebasesMeasured, image.MisreadRebase x → image.Fits (image.rebaseLocation x.1)
  binds : ∀ x ∈ image.bindsRead, x.2 ≠ image.preferredLoadAddress →
    x.1.arguments.type ≠ BIND_TYPE_TEXT_PCREL32 → image.Fits (image.bindLocation x.1)
  unread : ∀ x ∈ image.bindsUnread, x.1.arguments.type ≠ BIND_TYPE_TEXT_PCREL32 →
    image.Fits (image.bindLocation x.1)

end Offsets

lemma misaligned_eq_false_iff (o : BitVec 64) :
    image.misaligned o = false ↔ (image.canHaveUnalignedFixups = false → o.toNat % 4 = 0) := by
  have hand : (o &&& 0x3).toNat = o.toNat % 4 := by
    rw [BitVec.toNat_and]
    exact Nat.and_two_pow_sub_one_eq_mod o.toNat 2
  have hzero : o &&& 0x3 = 0 ↔ o.toNat % 4 = 0 := by
    rw [← hand, ← BitVec.toNat_inj]
    rfl
  rw [← hzero]
  unfold misaligned
  cases image.canHaveUnalignedFixups with
  | true => simp
  | false => simp

/-- A check that passes says of the offset as it is handed on that it is aligned, and of the adjusted one
that it is small. -/
lemma rebaseFailure_eq_none {o : BitVec 64} (h : image.rebaseFailure o = none) :
    image.misaligned o = false ∧ (image.adjustedOffset o).toNat < 2 ^ 30 := by
  unfold rebaseFailure at h
  split_ifs at h with haligned hsize
  exact ⟨Bool.not_eq_true _ |>.mp haligned, Nat.lt_of_not_le (fun hlarge => hsize (BitVec.le_def.mpr hlarge))⟩

lemma toNat_add_mod_four {a b : BitVec 64} (ha : a.toNat % 4 = 0) (hb : b.toNat % 4 = 0) :
    (a + b).toNat % 4 = 0 := by
  rw [BitVec.toNat_add]
  omega

lemma fits_rebaseLocation {x : RebaseRegisters × BitVec 64} (hread : ¬image.MisreadRebase x)
    (h : image.rebaseFailure (image.rebaseVmAddr x.1 - x.2) = none) :
    image.Fits (image.rebaseLocation x.1) := by
  obtain ⟨htext, hbase⟩ := not_or.mp hread
  rw [not_not] at htext
  obtain ⟨haligned, hsmall⟩ := rebaseFailure_eq_none h
  rw [misaligned_eq_false_iff] at haligned
  unfold adjustedOffset at hsmall
  unfold Fits rebaseLocation
  rw [htext] at haligned hsmall
  cases hstatic : image.isStaticExecutable with
  | false =>
    rw [hstatic] at hsmall
    exact ⟨haligned, hsmall⟩
  | true =>
    rw [hstatic, if_pos rfl] at hsmall
    have hdistance : (image.preferredLoadAddress - image.baseAddress).toNat % 4 = 0 :=
      Decidable.not_not.mp (fun hodd => hbase ⟨hstatic, hodd⟩)
    rw [if_pos rfl]
    refine ⟨fun hasked => ?_, ?_⟩
    · have hsum : image.rebaseVmAddr x.1 - image.baseAddress =
          image.rebaseVmAddr x.1 - image.preferredLoadAddress +
            (image.preferredLoadAddress - image.baseAddress) := by rw [sub_add_sub_cancel]
      rw [hsum]
      exact toNat_add_mod_four (haligned hasked) hdistance
    · rwa [add_sub_cancel] at hsmall

lemma fits_bindLocation {x : BindLocation × BitVec 64} (htext : x.2 = image.preferredLoadAddress)
    (htype : x.1.arguments.type ≠ BIND_TYPE_TEXT_PCREL32) (hmis : ¬image.MisalignedBind x)
    (hlarge : image.largeBind x = false) : image.Fits (image.bindLocation x.1) := by
  have haligned : image.misaligned (image.bindVmAddr x.1 - x.2) = false := by
    rw [← Bool.not_eq_true]
    exact fun h => hmis ⟨htype, h⟩
  have hsmall : ¬image.bindVmAddr x.1 - x.2 ≥ 1 <<< 30 := by
    simpa [largeBind, htype, haligned] using hlarge
  rw [htext] at haligned hsmall
  exact ⟨(misaligned_eq_false_iff _).mp haligned, Nat.lt_of_not_le (fun h => hsmall (BitVec.le_def.mpr h))⟩

lemma mem_measured {α : Type} {scanned : α → Nat} {locations : List α} {l : α} :
    l ∈ locations ↔ ∃ start, (l, start) ∈ image.measured scanned locations := by
  have hmap : (image.measured scanned locations).map Prod.fst = locations := by
    rw [measured, List.map_append, List.map_map, List.map_map]
    exact (congrArg₂ _ (List.map_id _) (List.map_id _)).trans (List.takeWhile_append_dropWhile)
  conv_lhs => rw [← hmap]
  simp

lemma mem_rebasesMeasured {r : RebaseRegisters} :
    r ∈ image.rebases ∧ r.kind = .pointer ↔ ∃ start, (r, start) ∈ image.rebasesMeasured := by
  rw [rebasesMeasured, ← mem_measured, List.mem_filter, decide_eq_true_iff]

lemma mem_binds {l : BindLocation} : l ∈ image.binds ↔
    ∃ start, (l, start) ∈ image.bindsRead ∨ (l, start) ∈ image.bindsUnread := by
  have hsplit (x : BindLocation × BitVec 64) :
      x ∈ image.bindsRead ∨ x ∈ image.bindsUnread ↔ x ∈ image.bindsMeasured := by
    rw [← List.mem_append, bindsRead, bindsUnread, List.takeWhile_append_dropWhile]
  simp only [hsplit]
  exact mem_measured

/-! ### The walks -/

lemma lookUp_namedSegments (n : Nat) : StartVmAddr.lookUp image.namedSegments n {} =
    if image.textIndex < n then
      match image.segments.find? (fun info => info.segName == "__TEXT") with
      | some info => { isSet := true, value := info.vmAddr }
      | none => {}
    else {} := by
  have hfind : (image.namedSegments.take n).find? (fun s => s.segName = "__TEXT") =
      if image.textIndex < n then
        (image.segments.find? (fun info => info.segName == "__TEXT")).map (fun info => ⟨info.segName, info.vmAddr⟩)
      else none := by
    rw [namedSegments, ← List.map_take, List.find?_map, List.find?_eq_getElem?_findIdx,
      List.find?_eq_getElem?_findIdx, List.findIdx_take, List.getElem?_take]
    change Option.map _ (if min n image.textIndex < n then image.segments[min n image.textIndex]? else none) = _
    by_cases hn : image.textIndex < n
    · rw [min_eq_right hn.le, if_pos hn, if_pos hn]
      rfl
    · rw [if_neg (by omega), if_neg hn, Option.map_none]
  rw [StartVmAddr.lookUp, if_neg Bool.false_ne_true, hfind]
  split_ifs with hn
  · cases image.segments.find? (fun info => info.segName == "__TEXT") with
    | none => rfl
    | some info => rfl
  · rfl

end KernelImage

/-! ### Chains -/

section Chains

open WalkChain

variable {σ τ : Type} {bad : σ → Prop} {rel : σ → τ → Prop} {handler : σ → Nat → σ × Bool}
  {handler' : τ → Nat → τ × Bool} {r : ChainRun σ} {r' : ChainRun τ} {m : Mem} {format maxValidPointer : Nat}

def CallFollows (bad : σ → Prop) (rel : σ → τ → Prop) (handler : σ → Nat → σ × Bool)
    (handler' : τ → Nat → τ × Bool) : Prop :=
  ∀ s t a, rel s t → bad (handler s a).1 ∧ (handler s a).2 = true ∨
    (handler' t a).2 = (handler s a).2 ∧ rel (handler s a).1 (handler' t a).1

lemma walkLoop_follows (hcall : CallFollows bad rel handler handler') (stride fuel chain : Nat)
    (h : rel r.state r'.state) :
    WalkFollows bad rel ChainRun.state ChainRun.state
      (walkLoop m format false maxValidPointer handler stride fuel r chain)
      (walkLoop m format false maxValidPointer handler' stride fuel r' chain) := by
  induction fuel generalizing r r' chain with
  | zero => exact fun a stopped hrun => absurd hrun (Option.some_ne_none _).symm
  | succ fuel ih =>
    intro a stopped hrun
    rw [walkLoop] at hrun ⊢
    cases hcall r.state r'.state chain h with
    | inl hbad =>
      rw [if_pos hbad.2] at hrun
      cases hrun
      exact Or.inl ⟨hbad.1, rfl⟩
    | inr hgo =>
      rw [hgo.1]
      by_cases hstop : (handler r.state chain).2 = true
      · rw [if_pos hstop] at hrun ⊢
        cases hrun
        exact Or.inr ⟨_, rfl, hgo.2⟩
      · rw [if_neg hstop] at hrun ⊢
        have hcalled : rel (r.call handler chain).state (r'.call handler' chain).state := hgo.2
        cases hdistance : nextDistance format stride (pointerAt m chain) with
        | none =>
          simp only [hdistance] at hrun ⊢
          cases hrun
          exact Or.inr ⟨_, rfl, hcalled⟩
        | some distance =>
          cases distance with
          | zero =>
            simp only [hdistance] at hrun ⊢
            cases hrun
            exact Or.inr ⟨_, rfl, hcalled⟩
          | succ distance =>
            simp only [hdistance] at hrun ⊢
            split at hrun
            · rename_i hskips
              obtain ⟨b, hb, hrest⟩ := Option.bind_eq_some_iff.mp hrun
              rw [if_pos hskips, hb, Option.bind_some]
              exact ih b hcalled a stopped hrest
            · rename_i hskips
              rw [if_neg hskips]
              exact ih _ hcalled a stopped hrun

lemma walkChain_follows (hcall : CallFollows bad rel handler handler') (fuel chain : Nat)
    (h : rel r.state r'.state) :
    WalkFollows bad rel ChainRun.state ChainRun.state
      (WalkChain.walkChain m format false maxValidPointer handler fuel r chain)
      (WalkChain.walkChain m format false maxValidPointer handler' fuel r' chain) := by
  unfold WalkChain.walkChain
  cases strideSize format with
  | none => exact fun a stopped hrun => absurd hrun (Option.some_ne_none _).symm
  | some stride => exact walkLoop_follows hcall stride fuel chain h

end Chains

section AllChains

open WalkChain

variable {σ τ : Type} {bad : σ → Prop} {rel : σ → τ → Prop}
  {handler : StartsInSegment → σ → Nat → σ × Bool} {handler' : StartsInSegment → τ → Nat → τ × Bool}
  (r : ChainRun σ) (r' : ChainRun τ) {m : Mem} {loadAddress fuel : Nat}
  (hcall : ∀ segInfo, CallFollows bad rel (handler segInfo) (handler' segInfo))
include hcall

lemma inSegment_follows (segInfo : StartsInSegment) (h : rel r.state r'.state) {a : ChainRun σ}
    (hrun : inSegment m loadAddress false handler fuel segInfo r = some a) :
    bad a.state ∨ ∃ b, inSegment m loadAddress false handler' fuel segInfo r' = some b ∧
      rel a.state b.state := by
  obtain ⟨⟨w, stopped⟩, hw, rfl⟩ := Option.map_eq_some_iff.mp hrun
  have hwalk (s : ChainRun σ) (t : ChainRun τ) (p o : Nat) (hst : rel s.state t.state) :
      WalkFollows (fun r : ChainRun σ => bad r.state)
        (fun (r : ChainRun σ) (r' : ChainRun τ) => rel r.state r'.state) id id
        (WalkChain.walkChain m segInfo.pointerFormat false segInfo.maxValidPointer (handler segInfo) fuel s
          (loadAddress + segInfo.segmentOffset + p * segInfo.pageSize + o))
        (WalkChain.walkChain m segInfo.pointerFormat false segInfo.maxValidPointer (handler' segInfo) fuel t
          (loadAddress + segInfo.segmentOffset + p * segInfo.pageSize + o)) :=
    walkChain_follows (hcall segInfo) fuel _ hst
  have hpages := walkPages_follows ⟨r, [], []⟩ ⟨r', [], []⟩ hwalk fuel (List.range segInfo.pageCount) h w stopped hw
  refine hpages.imp (fun hbad => hbad.1) (fun ⟨w', hw', hrel⟩ => ?_)
  exact ⟨w'.state, by rw [inSegment, forEachFixupInSegmentChains, hw', Option.map_some], hrel⟩

lemma forEachFixupInAllChains_follows (starts : ChainedImage.StartsInImage) (h : rel r.state r'.state)
    (hstays : ∀ (r a : ChainRun σ) starts, bad r.state →
      forEachFixupInAllChains m loadAddress false handler fuel starts r = some a → bad a.state)
    {a : ChainRun σ} (hrun : forEachFixupInAllChains m loadAddress false handler fuel starts r = some a) :
    bad a.state ∨ ∃ b, forEachFixupInAllChains m loadAddress false handler' fuel starts r' = some b ∧
      rel a.state b.state := by
  induction starts generalizing r r' with
  | nil =>
    cases hrun
    exact Or.inr ⟨r', rfl, h⟩
  | cons segInfo starts ih =>
    cases segInfo with
    | none => exact ih r r' h hrun
    | some segInfo =>
      obtain ⟨v, hv, hrest⟩ := Option.bind_eq_some_iff.mp hrun
      cases inSegment_follows r r' hcall segInfo h hv with
      | inl hbad => exact Or.inl (hstays v a starts hbad hrest)
      | inr hgo =>
        obtain ⟨v', hv', hrel⟩ := hgo
        rw [forEachFixupInAllChains, hv', Option.bind_some]
        exact ih v v' hrel hrest

end AllChains

namespace KernelImage

variable {image : KernelImage} {fuel : Nat}

lemma check_stays (r a : WalkChain.ChainRun Check) (starts : ChainedImage.StartsInImage)
    (hr : r.state.ok = false)
    (hrun : WalkChain.forEachFixupInAllChains image.memory image.loadAddress false image.checkChained fuel
      starts r = some a) : a.state.ok = false := by
  have hcall : ∀ segInfo, CallFollows (fun _ => False) (fun (c : Check) (d : Check) => c = d ∧ c.ok = false)
      (image.checkChained segInfo) (image.checkChained segInfo) := by
    rintro segInfo c d fixupLoc ⟨rfl, hc⟩
    refine Or.inr ⟨rfl, rfl, ?_⟩
    unfold checkChained
    split
    · rfl
    · exact hc
  obtain hfalse | ⟨b, -, hrel⟩ := forEachFixupInAllChains_follows r r hcall starts ⟨rfl, hr⟩
    (fun _ _ _ hbad _ => hbad) hrun
  · exact hfalse.elim
  · exact hrel.2

lemma chainedFailure_eq_none {format vmOffset : Nat} (h : chainedFailure format vmOffset = none) :
    format ∈ [ptr64Offset, ptrArm64eKernel] ∧ vmOffset % 4 = 0 ∧ vmOffset < 2 ^ 30 := by
  have hand : vmOffset &&& 0x3 = vmOffset % 4 := Nat.and_two_pow_sub_one_eq_mod vmOffset 2
  unfold chainedFailure at h
  split_ifs at h with _ hformat haligned hsize
  rw [hand, not_not] at haligned
  exact ⟨hformat, haligned, Nat.lt_of_not_le hsize⟩

lemma chained_of_ok {c : Check} (hrun : image.forEachChainedFixup image.checkChained fuel {} = some c)
    (hok : c.ok = true) : ∃ l, image.chainedFixups fuel = some l ∧
      ∀ x ∈ l, x.1 ∈ [ptr64Offset, ptrArm64eKernel] ∧ x.2 % 4 = 0 ∧ x.2 < 2 ^ 30 := by
  have hcall : ∀ segInfo, CallFollows (fun c : Check => c.ok = false)
      (fun _ (l : List (Nat × Nat)) => ∀ x ∈ l, chainedFailure x.1 x.2 = none)
      (image.checkChained segInfo)
      (fun l fixupLoc => (l ++ [(segInfo.pointerFormat, fixupLoc - image.loadAddress)], false)) := by
    intro segInfo c l fixupLoc hl
    unfold checkChained
    cases hfailure : chainedFailure segInfo.pointerFormat (fixupLoc - image.loadAddress) with
    | some reason => exact Or.inl ⟨rfl, rfl⟩
    | none =>
      refine Or.inr ⟨rfl, fun x hx => ?_⟩
      rw [List.mem_append, List.mem_singleton] at hx
      cases hx with
      | inl hx => exact hl x hx
      | inr heq =>
        rw [heq]
        exact hfailure
  unfold chainedFixups forEachChainedFixup at *
  cases hstarts : image.chainStarts with
  | none => exact ⟨[], rfl, fun x hx => absurd hx List.not_mem_nil⟩
  | some starts =>
    simp only [hstarts] at hrun ⊢
    obtain ⟨r, hr, rfl⟩ := Option.map_eq_some_iff.mp hrun
    obtain hbad | ⟨b, hb, hrel⟩ := forEachFixupInAllChains_follows _ ⟨[], none, []⟩ hcall starts
      (fun x hx => absurd hx List.not_mem_nil) (fun r a starts => check_stays r a starts) hr
    · exact absurd (hbad.symm.trans hok) Bool.false_ne_true
    · refine ⟨b.state, by rw [hb, Option.map_some], fun x hx => ?_⟩
      exact chainedFailure_eq_none (hrel x hx)

/-! ### The verdict -/

section Measured

variable {α γ : Type} {handled : α → Bool} {scanned : α → Nat} {pass : α → BitVec 64 → γ}

lemma passedOn_fixed {v : StartVmAddr} (hv : ∀ n, v.lookUp image.namedSegments n = v) (locations : List α) :
    passedOn image.namedSegments handled scanned pass v locations =
      (locations.filter handled).map (fun l => pass l v.value) := by
  induction locations with
  | nil => rfl
  | cons l locations ih =>
    rw [passedOn, hv, ih, List.filter_cons]
    split_ifs with hl
    · rfl
    · rfl

/-- The offsets are taken from zero until `__TEXT` is found. -/
lemma passedOn_eq (locations : List α) :
    passedOn image.namedSegments handled scanned pass {} locations =
      (image.measured scanned (locations.filter handled)).map (fun x => pass x.1 x.2) := by
  induction locations with
  | nil => rfl
  | cons l locations ih =>
    by_cases hl : handled l = true
    · rw [passedOn, if_pos hl, List.filter_cons_of_pos hl, lookUp_namedSegments]
      by_cases hn : image.textIndex < scanned l
      · rw [if_pos hn, measured, List.takeWhile_cons_of_neg (by simpa using hn),
          List.dropWhile_cons_of_neg (by simpa using hn), List.map_nil, List.nil_append, List.map_map]
        unfold preferredLoadAddress
        cases hfind : image.segments.find? (fun info => info.segName == "__TEXT") with
        | some info =>
          dsimp only
          rw [passedOn_fixed (fun _ => rfl), List.map_cons]
          rfl
        | none =>
          dsimp only
          rw [passedOn_fixed, List.map_cons]
          · rfl
          · intro n
            rw [lookUp_namedSegments, hfind]
            exact ite_self _
      · rw [if_neg hn, ih, measured, measured, List.takeWhile_cons_of_pos (by simpa using hn),
          List.dropWhile_cons_of_pos (by simpa using hn), List.map_cons, List.cons_append, List.map_cons]
    · rw [passedOn, if_neg hl, List.filter_cons_of_neg hl, ih]

end Measured

/-- A handler of rebases sees their offsets, until it stops. -/
lemma forEachRebase_eq {σ : Type} (handler : BitVec 64 → σ → σ × Bool) (s : σ) :
    image.forEachRebase handler s =
      (runBody handler (image.rebasesMeasured.map (fun x => image.rebaseVmAddr x.1 - x.2)) s).1 := by
  unfold forEachRebase
  rw [rebaseBlock_eq]
  refine (runBody_passedOn _ image.rebases {} s).trans ?_
  rw [passedOn_eq, runBody_map, rebasesMeasured, runBody_map]
  rfl

/-- A handler of binds sees their offsets and what they pass on, until it stops. -/
lemma forEachBind_eq {σ : Type} (handler : BitVec 64 → BindArguments → σ → σ × Bool) (s : σ) :
    image.forEachBind handler s =
      (runBody (Function.uncurry handler) (image.bindsMeasured.map image.bindCall) s).1 := by
  unfold forEachBind
  rw [bindBlock_eq]
  refine (runBody_passedOn _ image.binds {} s).trans ?_
  rw [passedOn_eq, List.filter_true]
  rfl

/-- What makes an image without chained fixups acceptable. -/
lemma classicVerdict_accepted_iff : image.classicVerdict.accepted = true ↔
    (∀ x ∈ image.rebasesMeasured, image.rebaseFailure (image.rebaseVmAddr x.1 - x.2) = none) ∧
      ∀ x ∈ image.bindsRead, ¬image.MisalignedBind x := by
  have hrebases : (image.forEachRebase image.checkRebase {}).ok = true ↔
      ∀ x ∈ image.rebasesMeasured, image.rebaseFailure (image.rebaseVmAddr x.1 - x.2) = none := by
    rw [forEachRebase_eq, runBody_checkRebase _ rfl, List.forall_mem_map]
  rw [← hrebases]
  unfold classicVerdict
  dsimp only
  split
  · rename_i hok
    rw [forEachBind_eq]
    exact (runBody_checkBind _ rfl).trans (and_iff_right hok).symm
  · rename_i hok
    exact iff_of_false Bool.false_ne_true (fun h => hok h.1)

lemma encodable_of_accepted {fuel : Nat} (hchained : ¬image.hasChainedFixups = true)
    (haccepted : image.classicVerdict.accepted = true) (hmisread : image.MisreadFit) :
    Encodable image fuel := by
  obtain ⟨hrebases, hbinds⟩ := classicVerdict_accepted_iff.mp haccepted
  refine ⟨fun h => absurd h hchained, fun _ r hr hpointer => ?_, fun _ l hl htype => ?_⟩
  · obtain ⟨start, hx⟩ := mem_rebasesMeasured.mp ⟨hr, hpointer⟩
    by_cases hread : image.MisreadRebase (r, start)
    · exact hmisread.rebases (r, start) hx hread
    · exact fits_rebaseLocation (x := (r, start)) hread (hrebases _ hx)
  · obtain ⟨start, hx | hx⟩ := mem_binds.mp hl
    · by_cases htext : start = image.preferredLoadAddress
      · have hlarge := List.mem_takeWhile_imp hx
        rw [Bool.not_eq_true'] at hlarge
        exact fits_bindLocation (x := (l, start)) htext htype (hbinds _ hx) hlarge
      · exact hmisread.binds (l, start) hx htext htype
    · exact hmisread.unread (l, start) hx htype

lemma misreadFit_of_encodable {fuel : Nat} (hchained : image.hasChainedFixups = false)
    (h : Encodable image fuel) : image.MisreadFit where
  rebases x hx _ :=
    have hr := mem_rebasesMeasured.mpr ⟨x.2, hx⟩
    h.rebases hchained x.1 hr.1 hr.2
  binds x hx _ htype := h.binds hchained x.1 (mem_binds.mpr ⟨x.2, Or.inl hx⟩) htype
  unread x hx htype := h.binds hchained x.1 (mem_binds.mpr ⟨x.2, Or.inr hx⟩) htype

end KernelImage

/-- Accepted images can be encoded exactly where the locations are chained, something is found to be wrong,
or the locations fit that are handed on with a wrong offset or come after a bind that is too large. -/
theorem acceptedEncodable_iff (image : KernelImage) (fuel : Nat) : AcceptedEncodable image fuel ↔
    image.hasChainedFixups = true ∨ image.headerFailure ≠ none ∨
      (∃ x ∈ image.rebasesMeasured, image.rebaseFailure (image.rebaseVmAddr x.1 - x.2) ≠ none) ∨
      (∃ x ∈ image.bindsRead, image.MisalignedBind x) ∨ image.MisreadFit := by
  unfold AcceptedEncodable KernelImage.canBePlacedInKernelCollection
  cases hheader : image.headerFailure with
  | some reason =>
    refine iff_of_true (fun verdict hverdict haccepted => ?_) (Or.inr (Or.inl (Option.some_ne_none reason)))
    cases hverdict
    exact absurd haccepted Bool.false_ne_true
  | none =>
    dsimp only
    by_cases hchained : image.hasChainedFixups = true
    · refine iff_of_true (fun verdict hverdict haccepted => ?_) (Or.inl hchained)
      rw [if_pos hchained] at hverdict
      split at hverdict
      · cases hverdict
        exact absurd haccepted Bool.false_ne_true
      · obtain ⟨c, hrun, rfl⟩ := Option.map_eq_some_iff.mp hverdict
        refine ⟨fun _ => KernelImage.chained_of_ok hrun haccepted, fun h => ?_, fun h => ?_⟩
        · exact absurd (h.symm.trans hchained) Bool.false_ne_true
        · exact absurd (h.symm.trans hchained) Bool.false_ne_true
    · have hclassic : image.hasChainedFixups = false := Bool.not_eq_true _ |>.mp hchained
      rw [if_neg hchained]
      simp only [hclassic, Bool.false_eq_true, false_or, ne_eq, not_true, Option.some.injEq, forall_eq']
      constructor
      · intro h
        by_contra hnot
        rw [not_or, not_or] at hnot
        push Not at hnot
        have haccepted := KernelImage.classicVerdict_accepted_iff.mpr ⟨hnot.1, hnot.2.1⟩
        exact hnot.2.2 (KernelImage.misreadFit_of_encodable hclassic (h haccepted))
      · intro h haccepted
        obtain ⟨hrebases, hbinds⟩ := KernelImage.classicVerdict_accepted_iff.mp haccepted
        obtain ⟨x, hx, hfailure⟩ | ⟨x, hx, hmis⟩ | hmisread := h
        · exact absurd (hrebases x hx) hfailure
        · exact absurd hmis (hbinds x hx)
        · exact KernelImage.encodable_of_accepted hchained haccepted hmisread

/-- A kext whose second segment is far away from the first, with a bind at its start. -/
def largeBindKext : KernelImage where
  filetype := .kextBundle
  twoLevel := false
  pie := false
  archName := "arm64"
  loadCommands := [.dyldInfoOnly]
  commandsMalformed := false
  segments := [⟨"__TEXT", 0, 0x4000, false, true⟩, ⟨"__DATA", 0x40000000, 0x4000, true, false⟩]
  sections := []
  splitSegFormat := some DYLD_CACHE_ADJ_V2_FORMAT
  loadAddress := 0
  memory := fun _ => 0
  chainStarts := none
  lazyPointers := noLazyPointers
  rebases := []
  binds := [⟨1, 0, ⟨1, 1, [95, 102], false, false, 0⟩⟩]

theorem largeBindKext_not_encodable : ¬∀ image fuel, AcceptedEncodable image fuel := by
  intro h
  have hverdict : largeBindKext.canBePlacedInKernelCollection 0 =
      some ⟨true, ["bind value does not fit in 30-bits"]⟩ := by decide +kernel
  have hencodable := h largeBindKext 0 _ hverdict rfl
  have hfits := hencodable.binds (by decide +kernel) _ List.mem_cons_self (by decide)
  exact absurd hfits.2 (by decide)

end Dyld.MachO.KernelCollection
