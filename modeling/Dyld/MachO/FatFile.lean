import Dyld.Lib.FirstMax
import Dyld.MachO.ValidLoadCommands
import Dyld.MachO.ValidSegments

/-!
# Universal files

`FatFile::forEachSlice` hands out the slices that the header of a universal file lists, and one more
`arm64` slice behind them. The records of the header are read without a look at the length of the
file, and the extra slice is handed out also after the callback has stopped.
-/

namespace Dyld.MachO

open Dyld.Lib

/-- What `diag.error` is called with. -/
inductive FatError
  | headerTooLarge (entries : Nat)
  | beyondEnd (sliceIndex : Nat)
  | machO (e : ValidationError)
  | cpuMismatch
  | staticLibrary
  | notPageAligned
  | notFat
  deriving DecidableEq, Repr

abbrev FatDiagnostics := Option FatError

def FAT_MAGIC : Nat := 0xcafebabe
def FAT_MAGIC_64 : Nat := 0xcafebabf

def CPU_TYPE_ARM : Nat := 12
def CPU_TYPE_ARM64 : Nat := 0x0100000c
def CPU_TYPE_ARM64_32 : Nat := 0x0200000c
def CPU_SUBTYPE_ARM_V7K : Nat := 12
def CPU_SUBTYPE_ARM64_ALL : Nat := 0
def CPU_SUBTYPE_ARM64_V8 : Nat := 1

def sizeofFatHeader : Nat := 8

def sizeofFatArch : Nat := 20

def sizeofFatArch64 : Nat := 32

/-- `(4096 - sizeof(fat_header)) / sizeof(fat_arch)`, for both kinds of records. -/
def maxArchs : Nat := (4096 - sizeofFatHeader) / sizeofFatArch

/-- The number whose `n` bytes, the greatest first, start at `a`. -/
def bigEndian (m : Mem) (a : Nat) : Nat → Nat
  | 0 => 0
  | n + 1 => bigEndian m a n * 256 + (m (a + n)).toNat

/-- What a record says of its slice. -/
structure FatSlice where
  sliceCpuType : Nat
  sliceCpuSubType : Nat
  sliceOffset : Nat
  sliceLen : Nat
  deriving DecidableEq, Repr

structure FatFile where
  bytes : Mem

namespace MachOBuffer

variable (b : MachOBuffer)

def cputype : Nat := loadNat b.bytes 4 4
def cpusubtype : Nat := loadNat b.bytes 8 4

def uses16KPages : Bool :=
  if b.cputype = CPU_TYPE_ARM64 ∨ b.cputype = CPU_TYPE_ARM64_32 then true
  else if b.cputype = CPU_TYPE_ARM then b.cpusubtype = CPU_SUBTYPE_ARM_V7K
  else false

end MachOBuffer

namespace FatFile

variable (f : FatFile)

def magic : Nat := bigEndian f.bytes 0 4

def nfat_arch : Nat := bigEndian f.bytes 4 4

def fatArch (i : Nat) : FatSlice where
  sliceCpuType := bigEndian f.bytes (sizeofFatHeader + sizeofFatArch * i) 4
  sliceCpuSubType := bigEndian f.bytes (sizeofFatHeader + sizeofFatArch * i + 4) 4
  sliceOffset := bigEndian f.bytes (sizeofFatHeader + sizeofFatArch * i + 8) 4
  sliceLen := bigEndian f.bytes (sizeofFatHeader + sizeofFatArch * i + 12) 4

def fatArch64 (i : Nat) : FatSlice where
  sliceCpuType := bigEndian f.bytes (sizeofFatHeader + sizeofFatArch64 * i) 4
  sliceCpuSubType := bigEndian f.bytes (sizeofFatHeader + sizeofFatArch64 * i + 4) 4
  sliceOffset := bigEndian f.bytes (sizeofFatHeader + sizeofFatArch64 * i + 8) 8
  sliceLen := bigEndian f.bytes (sizeofFatHeader + sizeofFatArch64 * i + 16) 8

def machO (slice : FatSlice) : MachOBuffer := ⟨fun a => f.bytes (slice.sliceOffset + a)⟩

/-- `mf->isMachO(diag, sliceLen)`: an error of its own is reported over an earlier one, which by
itself makes it fail. -/
def isMachO (diag : FatDiagnostics) (slice : FatSlice) : Bool × FatDiagnostics :=
  match (f.machO slice).isMachO none slice.sliceLen with
  | (_, some e) => (false, some (.machO e))
  | (valid, none) => (valid && diag.isNone, diag)

def startsArchive (slice : FatSlice) : Bool :=
  (List.range 7).map (f.machO slice).bytes = [0x21, 0x3c, 0x61, 0x72, 0x63, 0x68, 0x3e]

def isValidSlice (diag : FatDiagnostics) (fileLen sliceIndex : Nat) (slice : FatSlice) :
    Bool × FatDiagnostics :=
  if greaterThanAddOrOverflow slice.sliceOffset slice.sliceLen fileLen then
    (false, some (.beyondEnd sliceIndex))
  else
    let mf := f.machO slice
    match f.isMachO diag slice with
    | (false, diag) => (false, diag)
    | (true, diag) =>
      if mf.cputype ≠ slice.sliceCpuType ∨ mf.cpusubtype ≠ slice.sliceCpuSubType then
        (false, some .cpuMismatch)
      else if slice.sliceOffset % (if mf.uses16KPages then 0x4000 else 0x1000) ≠ 0 then
        if f.startsArchive slice then (false, some .staticLibrary) else (false, some .notPageAligned)
      else (true, diag)

end FatFile

/-- The variables of a walk over the records, with what it has read and handed out so far. -/
structure SliceRun (σ : Type) where
  state : σ
  stop : Bool
  diag : FatDiagnostics
  records : List Nat
  calls : List (FatSlice × Bool)

section Walk

variable {σ : Type} (f : FatFile) (fileLen : Nat) (callback : σ → FatSlice → σ × Bool)
  (record : Nat → FatSlice)

def SliceRun.read (r : SliceRun σ) (i : Nat) : SliceRun σ := { r with records := r.records ++ [i] }

/-- `if (isValidSlice(…)) callback(…)`. -/
def SliceRun.handOut (r : SliceRun σ) (i : Nat) : SliceRun σ :=
  match f.isValidSlice r.diag fileLen i (record i) with
  | (false, diag) => { r with diag := diag }
  | (true, diag) =>
    let called := callback r.state (record i)
    { r with diag := diag, state := called.1, stop := r.stop || called.2
             calls := r.calls ++ [(record i, called.2)] }

/-- The loops over the records. -/
def forEachArch : List Nat → SliceRun σ → SliceRun σ
  | [], r => r
  | i :: archs, r =>
    let r := (r.read i).handOut f fileLen callback record i
    if r.stop then r else forEachArch archs r

/-- The types of the slice that is looked for behind the others. -/
def isExtraSlice (slice : FatSlice) : Bool :=
  slice.sliceCpuType = CPU_TYPE_ARM64 ∧
    (slice.sliceCpuSubType = CPU_SUBTYPE_ARM64_ALL ∨ slice.sliceCpuSubType = CPU_SUBTYPE_ARM64_V8)

def FatFile.forEachSlice (diag : FatDiagnostics) (state : σ) : SliceRun σ :=
  let r : SliceRun σ := ⟨state, false, diag, [], []⟩
  if f.magic = FAT_MAGIC then
    if maxArchs < f.nfat_arch then { r with diag := some (.headerTooLarge f.nfat_arch) }
    else
      let r := forEachArch f fileLen callback f.fatArch (List.range f.nfat_arch) r
      if f.nfat_arch ≠ maxArchs then
        let r := r.read f.nfat_arch
        if isExtraSlice (f.fatArch f.nfat_arch) then
          r.handOut f fileLen callback f.fatArch f.nfat_arch
        else r
      else r
  else if f.magic = FAT_MAGIC_64 then
    if maxArchs < f.nfat_arch then { r with diag := some (.headerTooLarge f.nfat_arch) }
    else forEachArch f fileLen callback f.fatArch64 (List.range f.nfat_arch) r
  else { r with diag := some .notFat }

end Walk

/-! ### Grades -/

structure CpuGrade where
  type : Nat
  subtype : Nat
  osBinary : Bool
  grade : Nat

/-- `_orderedCpuTypes`. -/
abbrev GradedArchs := List CpuGrade

def GradedArchs.grade (cputype cpusubtype : Nat) (isOSBinary : Bool) : GradedArchs → Nat
  | [] => 0
  | p :: archs =>
    if p.type = 0 then 0
    else if p.type = cputype ∧ p.subtype = cpusubtype % 2 ^ 24 then
      if p.osBinary then
        if isOSBinary then p.grade else GradedArchs.grade cputype cpusubtype isOSBinary archs
      else p.grade
    else GradedArchs.grade cputype cpusubtype isOSBinary archs

/-- `sliceOffset` and `sliceLen`, which are written through references, and `bestGrade`. -/
structure BestSlice where
  sliceOffset : Nat
  sliceLen : Nat
  bestGrade : Nat

/-- What `isFatFileWithSlice` returns and writes. -/
structure SliceChoice where
  result : Bool
  diag : FatDiagnostics
  sliceOffset : Nat
  sliceLen : Nat
  missingSlice : Bool

/-- The block of `isFatFileWithSlice`, which never stops. -/
def gradeSlice (archs : GradedArchs) (isOSBinary : Bool) (best : BestSlice) (slice : FatSlice) :
    BestSlice × Bool :=
  let sliceGrade := archs.grade slice.sliceCpuType slice.sliceCpuSubType isOSBinary
  if sliceGrade ≠ 0 then
    if best.bestGrade < sliceGrade then (⟨slice.sliceOffset, slice.sliceLen, sliceGrade⟩, false)
    else (best, false)
  else (best, false)

/-- `FatFile::isFatFileWithSlice`, with what the references hold before. -/
def FatFile.isFatFileWithSlice (f : FatFile) (diag : FatDiagnostics) (fileLen : Nat)
    (archs : GradedArchs) (isOSBinary : Bool) (sliceOffset sliceLen : Nat) : SliceChoice :=
  if f.magic ≠ FAT_MAGIC ∧ f.magic ≠ FAT_MAGIC_64 then
    ⟨false, diag, sliceOffset, sliceLen, false⟩
  else
    let r := f.forEachSlice fileLen (gradeSlice archs isOSBinary) diag ⟨sliceOffset, sliceLen, 0⟩
    let best := r.state
    if r.diag.isSome then ⟨false, r.diag, best.sliceOffset, best.sliceLen, false⟩
    else ⟨best.bestGrade ≠ 0, r.diag, best.sliceOffset, best.sliceLen, best.bestGrade = 0⟩

/-! ### What the walk and the choice are meant to do -/

namespace FatFile

variable (f : FatFile) (fileLen : Nat) (diag : FatDiagnostics)

def record (i : Nat) : FatSlice := if f.magic = FAT_MAGIC then f.fatArch i else f.fatArch64 i

def recordSize : Nat := if f.magic = FAT_MAGIC then sizeofFatArch else sizeofFatArch64

/-- The header lists slices, and not too many. -/
def Lists : Prop := (f.magic = FAT_MAGIC ∨ f.magic = FAT_MAGIC_64) ∧ f.nfat_arch ≤ maxArchs

instance : Decidable f.Lists := inferInstanceAs (Decidable (_ ∧ _))

/-- There is room for an extra record. -/
def ReadsExtra : Prop := f.magic = FAT_MAGIC ∧ f.nfat_arch ≠ maxArchs

instance : Decidable f.ReadsExtra := inferInstanceAs (Decidable (_ ∧ _))

def HasExtra : Prop := f.ReadsExtra ∧ isExtraSlice (f.record f.nfat_arch) = true

instance : Decidable f.HasExtra := inferInstanceAs (Decidable (_ ∧ _))

/-- The records of the slices that are listed, the extra one last. -/
def listed : List Nat := List.range f.nfat_arch ++ if f.HasExtra then [f.nfat_arch] else []

/-- An old slice, which is no mach-o file and no error. -/
def isOld (i : Nat) : Bool := (f.machO (f.record i)).hasMachOBigEndianMagic

def gradeOf (archs : GradedArchs) (isOSBinary : Bool) (i : Nat) : Nat :=
  archs.grade (f.record i).sliceCpuType (f.record i).sliceCpuSubType isOSBinary

/-- Records are read inside the first page and the file, the slices that are handed out are in the file,
none is handed out after a stop, and a choice is the first slice of the best grade. -/
structure ChoosesSlices : Prop where
  reads : ∀ (σ : Type) (callback : σ → FatSlice → σ × Bool) (state : σ),
    ∀ i ∈ (f.forEachSlice fileLen callback diag state).records,
      sizeofFatHeader + f.recordSize * (i + 1) ≤ min 4096 fileLen
  inside : ∀ (σ : Type) (callback : σ → FatSlice → σ × Bool) (state : σ),
    ∀ c ∈ (f.forEachSlice fileLen callback diag state).calls, c.1.sliceOffset + c.1.sliceLen ≤ fileLen
  stops : ∀ (σ : Type) (callback : σ → FatSlice → σ × Bool) (state : σ),
    ∀ c ∈ (f.forEachSlice fileLen callback diag state).calls.dropLast, c.2 = false
  best : ∀ (archs : GradedArchs) (isOSBinary : Bool) (sliceOffset sliceLen : Nat),
    (f.isFatFileWithSlice diag fileLen archs isOSBinary sliceOffset sliceLen).result = true →
      ∃ i, (f.listed.filter (fun i => f.gradeOf archs isOSBinary i ≠ 0 ∧ f.isOld i = false)).argmax
          (f.gradeOf archs isOSBinary) = some i ∧
        (f.isFatFileWithSlice diag fileLen archs isOSBinary sliceOffset sliceLen).sliceOffset =
          (f.record i).sliceOffset ∧
        (f.isFatFileWithSlice diag fileLen archs isOSBinary sliceOffset sliceLen).sliceLen =
          (f.record i).sliceLen

/-! ### Slices one by one -/

/-- The slice of a record is handed out if there was no error before. -/
def IsValid (i : Nat) : Prop := (f.isValidSlice none fileLen i (f.record i)).1 = true

def IsFaulty (i : Nat) : Prop := (f.isValidSlice none fileLen i (f.record i)).2.isSome = true

instance (i : Nat) : Decidable (f.IsValid fileLen i) := inferInstanceAs (Decidable (_ = _))

section Slices

variable {f : FatFile} {fileLen : Nat} {slice : FatSlice}

lemma isMachO_some (f : FatFile) (e : FatError) (slice : FatSlice) :
    (f.isMachO (some e) slice).1 = false ∧ (f.isMachO (some e) slice).2.isSome = true := by
  unfold isMachO
  cases hread : (f.machO slice).isMachO none slice.sliceLen with
  | mk valid error =>
    cases error with
    | none => simp
    | some error => simp

lemma isValidSlice_some (f : FatFile) (fileLen : Nat) (e : FatError) (i : Nat) (slice : FatSlice) :
    (f.isValidSlice (some e) fileLen i slice).1 = false ∧
      (f.isValidSlice (some e) fileLen i slice).2.isSome = true := by
  unfold isValidSlice
  split
  · exact ⟨rfl, rfl⟩
  · obtain ⟨hvalid, hdiag⟩ := isMachO_some f e slice
    cases hread : f.isMachO (some e) slice with
    | mk valid diag =>
      rw [hread] at hvalid hdiag
      cases valid with
      | false => exact ⟨rfl, hdiag⟩
      | true => cases hvalid

lemma isMachO_valid (f : FatFile) (slice : FatSlice) (diag : FatDiagnostics) (h : (f.isMachO diag slice).1 = true) :
    (f.isMachO diag slice).2 = diag := by
  unfold isMachO at h ⊢
  cases hread : (f.machO slice).isMachO none slice.sliceLen with
  | mk valid error =>
    cases error with
    | none => rfl
    | some error => simp [hread] at h

/-- What `isMachO` says of a slice that is not reported. -/
lemma isMachO_none (f : FatFile) (slice : FatSlice) (h : (f.isMachO none slice).2 = none) :
    (f.isMachO none slice).1 = !(f.machO slice).hasMachOBigEndianMagic := by
  have hmagic : (f.machO slice).hasMachOMagic = true →
      (f.machO slice).hasMachOBigEndianMagic = false := by
    unfold MachOBuffer.hasMachOMagic MachOBuffer.hasMachOBigEndianMagic
    simp only [Bool.or_eq_true, beq_iff_eq, Bool.or_eq_false_iff, beq_eq_false_iff_ne]
    omega
  unfold isMachO MachOBuffer.isMachO at h ⊢
  by_cases hlittle : (f.machO slice).hasMachOMagic = true
  · by_cases hsize : (f.machO slice).sizeofcmds + (f.machO slice).machHeaderSize > slice.sliceLen
    · simp [hlittle, hsize] at h
    · cases hread : (f.machO slice).forEachLoadCommand with
      | ok cmds => simp [hlittle, hsize, hmagic hlittle]
      | error e => simp [hlittle, hsize, hread] at h
  · by_cases hbig : (f.machO slice).hasMachOBigEndianMagic = true
    · simp [hlittle, hbig]
    · simp [hlittle, hbig] at h

structure Verdict (f : FatFile) (fileLen : Nat) (slice : FatSlice) (verdict : Bool × FatDiagnostics) :
    Prop where
  noError : verdict.1 = true → verdict.2 = none
  inside : verdict.1 = true → slice.sliceOffset + slice.sliceLen ≤ fileLen
  old : verdict.2 = none → verdict.1 = !(f.machO slice).hasMachOBigEndianMagic

lemma Verdict.error (e : FatError) : Verdict f fileLen slice (false, some e) where
  noError h := absurd h Bool.false_ne_true
  inside h := absurd h Bool.false_ne_true
  old h := absurd h (Option.some_ne_none e)

lemma isValidSlice_none (f : FatFile) (fileLen i : Nat) (slice : FatSlice) :
    Verdict f fileLen slice (f.isValidSlice none fileLen i slice) := by
  unfold isValidSlice
  by_cases hbeyond : greaterThanAddOrOverflow slice.sliceOffset slice.sliceLen fileLen = true
  · rw [if_pos hbeyond]
    exact .error _
  · have hinside : slice.sliceOffset + slice.sliceLen ≤ fileLen :=
      greaterThanAddOrOverflow_eq_false.mp (Bool.eq_false_iff.mpr hbeyond)
    rw [if_neg hbeyond]
    have hnone := isMachO_none f slice
    cases hread : f.isMachO none slice with
    | mk valid diag =>
      rw [hread] at hnone
      cases valid with
      | false =>
        exact ⟨fun h => absurd h Bool.false_ne_true, fun h => absurd h Bool.false_ne_true, hnone⟩
      | true =>
        obtain rfl : diag = none := by
          have hvalid := isMachO_valid f slice none
          rw [hread] at hvalid
          exact hvalid rfl
        dsimp only
        by_cases hcpu : (f.machO slice).cputype ≠ slice.sliceCpuType ∨
            (f.machO slice).cpusubtype ≠ slice.sliceCpuSubType
        · rw [if_pos hcpu]
          exact .error _
        · rw [if_neg hcpu]
          by_cases haligned :
              slice.sliceOffset % (if (f.machO slice).uses16KPages then 0x4000 else 0x1000) ≠ 0
          · rw [if_pos haligned]
            by_cases harchive : f.startsArchive slice = true
            · rw [if_pos harchive]
              exact .error _
            · rw [if_neg harchive]
              exact .error _
          · rw [if_neg haligned]
            exact ⟨fun _ => rfl, fun _ => hinside, fun _ => hnone rfl⟩

end Slices

end FatFile

/-! ### The walk -/

section Run

variable {σ : Type} (f : FatFile) (fileLen : Nat) (callback : σ → FatSlice → σ × Bool)
  (record : Nat → FatSlice)

/-- Either the slice of a record is handed out, before any error, or nothing but the error changes. -/
lemma SliceRun.handOut_cases (r : SliceRun σ) (i : Nat) :
    (r.diag = none ∧ (f.isValidSlice none fileLen i (record i)).1 = true ∧
      r.handOut f fileLen callback record i =
        { r with state := (callback r.state (record i)).1
                 stop := r.stop || (callback r.state (record i)).2
                 calls := r.calls ++ [(record i, (callback r.state (record i)).2)] }) ∨
    (r.diag = none ∧ (f.isValidSlice none fileLen i (record i)).1 = false ∧
      r.handOut f fileLen callback record i =
        { r with diag := (f.isValidSlice none fileLen i (record i)).2 }) ∨
    (r.diag.isSome = true ∧ ∃ e, r.handOut f fileLen callback record i = { r with diag := some e }) := by
  obtain ⟨state, stop, diag, records, calls⟩ := r
  unfold handOut
  cases diag with
  | none =>
    have hverdict := f.isValidSlice_none fileLen i (record i)
    cases hread : f.isValidSlice none fileLen i (record i) with
    | mk valid diag =>
      rw [hread] at hverdict
      cases valid with
      | false => exact Or.inr (Or.inl ⟨rfl, rfl, rfl⟩)
      | true =>
        obtain rfl : diag = none := hverdict.noError rfl
        exact Or.inl ⟨rfl, rfl, rfl⟩
  | some e =>
    obtain ⟨hvalid, hdiag⟩ := f.isValidSlice_some fileLen e i (record i)
    cases hread : f.isValidSlice (some e) fileLen i (record i) with
    | mk valid diag =>
      rw [hread] at hvalid hdiag
      cases valid with
      | true => cases hvalid
      | false =>
        obtain ⟨e', rfl⟩ := Option.isSome_iff_exists.mp hdiag
        exact Or.inr (Or.inr ⟨rfl, e', rfl⟩)

/-- What each step preserves, up to the first stop, the loop preserves. -/
lemma forEachArch_induct {P : SliceRun σ → Prop} {l : List Nat}
    (hstep : ∀ i ∈ l, ∀ r : SliceRun σ, r.stop = false → P r →
      P ((r.read i).handOut f fileLen callback record i)) {r : SliceRun σ} (hstop : r.stop = false)
    (hr : P r) : P (forEachArch f fileLen callback record l r) := by
  induction l generalizing r with
  | nil => exact hr
  | cons i l ih =>
    have hnext := hstep i List.mem_cons_self r hstop hr
    rw [forEachArch]
    by_cases hstop' : ((r.read i).handOut f fileLen callback record i).stop = true
    · rw [if_pos hstop']
      exact hnext
    · rw [if_neg hstop']
      exact ih (fun j hj => hstep j (List.mem_cons_of_mem i hj)) (Bool.not_eq_true _ |>.mp hstop') hnext

lemma SliceRun.handOut_records (r : SliceRun σ) (i : Nat) :
    (r.handOut f fileLen callback record i).records = r.records := by
  obtain ⟨-, -, h⟩ | ⟨-, -, h⟩ | ⟨-, e, h⟩ := handOut_cases f fileLen callback record r i
  · rw [h]
  · rw [h]
  · rw [h]

def SliceRun.Inside (r : SliceRun σ) : Prop :=
  ∀ c ∈ r.calls, c.1.sliceOffset + c.1.sliceLen ≤ fileLen

lemma SliceRun.Inside.handOut {fileLen : Nat} {r : SliceRun σ} (h : r.Inside fileLen) (i : Nat) :
    (r.handOut f fileLen callback record i).Inside fileLen := by
  obtain ⟨-, hvalid, hout⟩ | ⟨-, -, hout⟩ | ⟨-, e, hout⟩ :=
    handOut_cases f fileLen callback record r i
  · rw [hout]
    intro c hc
    cases List.mem_append.mp hc with
    | inl hc => exact h c hc
    | inr hc =>
      rw [List.mem_singleton.mp hc]
      exact (f.isValidSlice_none fileLen i (record i)).inside hvalid
  · rw [hout]
    exact h
  · rw [hout]
    exact h

/-- Only the last call can have stopped the walk, and it has not if the walk goes on. -/
structure SliceRun.StopsLast (r : SliceRun σ) : Prop where
  before : ∀ c ∈ r.calls.dropLast, c.2 = false
  last : r.stop = false → ∀ c ∈ r.calls, c.2 = false

lemma SliceRun.StopsLast.handOut {r : SliceRun σ} (h : r.StopsLast) (hstop : r.stop = false)
    (i : Nat) : (r.handOut f fileLen callback record i).StopsLast := by
  obtain ⟨-, -, hout⟩ | ⟨-, -, hout⟩ | ⟨-, e, hout⟩ :=
    handOut_cases f fileLen callback record r i
  · rw [hout]
    refine ⟨?_, fun hstop' c hc => ?_⟩
    · rw [List.dropLast_concat]
      exact h.last hstop
    · cases List.mem_append.mp hc with
      | inl hc => exact h.last hstop c hc
      | inr hc =>
        rw [List.mem_singleton.mp hc]
        simpa [hstop] using hstop'
  · rw [hout]
    exact ⟨h.before, h.last⟩
  · rw [hout]
    exact ⟨h.before, h.last⟩

/-- If something is handed out, then a slice with no fault before it. -/
lemma exists_valid_of_calls {l : List Nat} {r : SliceRun σ} (hcalls : r.calls = [])
    (hout : (forEachArch f fileLen callback record l r).calls ≠ []) :
    r.diag = none ∧ ∃ pre i post, l = pre ++ i :: post ∧
      (f.isValidSlice none fileLen i (record i)).1 = true ∧
      ∀ j ∈ pre, (f.isValidSlice none fileLen j (record j)).2 = none := by
  induction l generalizing r with
  | nil => exact absurd hcalls hout
  | cons i l ih =>
    rw [forEachArch] at hout
    obtain ⟨hdiag, hvalid, -⟩ | ⟨hdiag, hvalid, hstep⟩ | ⟨-, e, hstep⟩ :=
      (r.read i).handOut_cases f fileLen callback record i
    · exact ⟨hdiag, [], i, l, rfl, hvalid, by simp⟩
    · rw [hstep] at hout
      split at hout
      · exact absurd hcalls hout
      · obtain ⟨hnone, pre, j, post, hl, hj, hpre⟩ := ih (r := { r.read i with diag := _ }) hcalls hout
        exact ⟨hdiag, i :: pre, j, post, by rw [hl, List.cons_append], hj,
          List.forall_mem_cons.mpr ⟨hnone, hpre⟩⟩
    · rw [hstep] at hout
      split at hout
      · exact absurd hcalls hout
      · exact absurd (ih (r := { r.read i with diag := some e }) hcalls hout).1 (Option.some_ne_none e)

lemma calls_of_valid {l : List Nat} {r : SliceRun σ} (hdiag : r.diag = none) (hstop : r.stop = false)
    (hcallback : ∀ s slice, (callback s slice).2 = true) {pre : List Nat} {i : Nat} {post : List Nat}
    (hl : l = pre ++ i :: post) (hvalid : (f.isValidSlice none fileLen i (record i)).1 = true)
    (hpre : ∀ j ∈ pre, (f.isValidSlice none fileLen j (record j)).2 = none) :
    (forEachArch f fileLen callback record l r).diag = none ∧
      ∃ slice, (forEachArch f fileLen callback record l r).calls = r.calls ++ [(slice, true)] := by
  subst hl
  -- the first one that is handed out ends the walk
  have hhead : ∀ (j : Nat) (l : List Nat) (r : SliceRun σ), r.diag = none → r.stop = false →
      (f.isValidSlice none fileLen j (record j)).1 = true →
      (forEachArch f fileLen callback record (j :: l) r).diag = none ∧
        ∃ slice, (forEachArch f fileLen callback record (j :: l) r).calls = r.calls ++ [(slice, true)] := by
    intro j l r hdiag hstop hvalid
    rw [forEachArch]
    obtain ⟨-, -, hstep⟩ | ⟨-, hinvalid, -⟩ | ⟨hsome, -⟩ :=
      (r.read j).handOut_cases f fileLen callback record j
    · rw [hstep]
      simp only [hcallback, Bool.or_true, if_true]
      exact ⟨hdiag, record j, rfl⟩
    · rw [hvalid] at hinvalid
      cases hinvalid
    · simp [SliceRun.read, hdiag] at hsome
  induction pre generalizing r with
  | nil => exact hhead i post r hdiag hstop hvalid
  | cons j pre ih =>
    obtain ⟨hnone, hrest⟩ := List.forall_mem_cons.mp hpre
    by_cases hvalid' : (f.isValidSlice none fileLen j (record j)).1 = true
    · exact hhead j (pre ++ i :: post) r hdiag hstop hvalid'
    · rw [List.cons_append, forEachArch]
      obtain ⟨-, hvalid'', -⟩ | ⟨-, -, hstep⟩ | ⟨hsome, -⟩ :=
        (r.read j).handOut_cases f fileLen callback record j
      · exact absurd hvalid'' hvalid'
      · rw [hstep]
        have hnext := ih (r := { r.read j with diag := (f.isValidSlice none fileLen j (record j)).2 })
          hnone hstop hrest
        simpa [SliceRun.read, hstop] using hnext
      · simp [SliceRun.read, hdiag] at hsome

lemma SliceRun.handOut_goOn (hcallback : ∀ s slice, (callback s slice).2 = false) {r : SliceRun σ}
    (hstop : r.stop = false) (i : Nat) :
    ((r.read i).handOut f fileLen callback record i).stop = false ∧
    (((r.read i).handOut f fileLen callback record i).diag = none →
      r.diag = none ∧ (f.isValidSlice none fileLen i (record i)).2 = none ∧
      ((r.read i).handOut f fileLen callback record i).state =
        if (f.isValidSlice none fileLen i (record i)).1 then (callback r.state (record i)).1 else r.state) := by
  obtain ⟨hdiag, hvalid, hstep⟩ | ⟨hdiag, hvalid, hstep⟩ | ⟨hsome, e, hstep⟩ :=
    (r.read i).handOut_cases f fileLen callback record i
  · rw [hstep, if_pos hvalid]
    refine ⟨by simp [hcallback, SliceRun.read, hstop], fun _ => ⟨hdiag, ?_, rfl⟩⟩
    exact (f.isValidSlice_none fileLen i (record i)).noError hvalid
  · rw [hstep, if_neg (by simp [hvalid])]
    exact ⟨hstop, fun hend => ⟨hdiag, hend, rfl⟩⟩
  · rw [hstep]
    exact ⟨hstop, fun hend => absurd hend (Option.some_ne_none e)⟩

lemma forEachArch_goOn (hcallback : ∀ s slice, (callback s slice).2 = false) (l : List Nat)
    {r : SliceRun σ} (hstop : r.stop = false) :
    (forEachArch f fileLen callback record l r).stop = false ∧
    (forEachArch f fileLen callback record l r).records = r.records ++ l ∧
    ((forEachArch f fileLen callback record l r).diag = none → r.diag = none ∧
      (∀ i ∈ l, (f.isValidSlice none fileLen i (record i)).2 = none) ∧
      (forEachArch f fileLen callback record l r).state =
        (l.filter (fun i => (f.isValidSlice none fileLen i (record i)).1)).foldl
          (fun s i => (callback s (record i)).1) r.state) := by
  induction l generalizing r with
  | nil => exact ⟨hstop, (List.append_nil _).symm, fun hdiag => ⟨hdiag, by simp, rfl⟩⟩
  | cons i l ih =>
    have hrecords : ((r.read i).handOut f fileLen callback record i).records = r.records ++ [i] :=
      (r.read i).handOut_records f fileLen callback record i
    obtain ⟨hgoes, hone⟩ := SliceRun.handOut_goOn f fileLen callback record hcallback hstop i
    obtain ⟨hstop', hread, hend⟩ := ih hgoes
    rw [forEachArch, hgoes, if_neg Bool.false_ne_true]
    refine ⟨hstop', by rw [hread, hrecords, List.append_assoc, List.singleton_append], fun hnone => ?_⟩
    obtain ⟨hnone', hfaults, hfold⟩ := hend hnone
    obtain ⟨hdiag, hfault, hstate⟩ := hone hnone'
    refine ⟨hdiag, List.forall_mem_cons.mpr ⟨hfault, hfaults⟩, ?_⟩
    rw [hfold, hstate, List.filter_cons]
    split_ifs
    · rfl
    · rfl

end Run

/-! ### The choice -/

lemma gradeSlice_stop (archs : GradedArchs) (isOSBinary : Bool) (best : BestSlice) (slice : FatSlice) :
    (gradeSlice archs isOSBinary best slice).2 = false := by
  unfold gradeSlice
  dsimp only
  split
  · split
    · rfl
    · rfl
  · rfl

namespace FatFile

variable (f : FatFile) (fileLen : Nat) (diag : FatDiagnostics)

def bestOf (archs : GradedArchs) (isOSBinary : Bool) (sliceOffset sliceLen : Nat) :
    Option Nat → BestSlice
  | none => ⟨sliceOffset, sliceLen, 0⟩
  | some i => ⟨(f.record i).sliceOffset, (f.record i).sliceLen, f.gradeOf archs isOSBinary i⟩

lemma foldl_gradeSlice (archs : GradedArchs) (isOSBinary : Bool) (sliceOffset sliceLen : Nat)
    (l : List Nat) :
    l.foldl (fun best i => (gradeSlice archs isOSBinary best (f.record i)).1)
        ⟨sliceOffset, sliceLen, 0⟩ =
      f.bestOf archs isOSBinary sliceOffset sliceLen
        ((l.filter (fun i => f.gradeOf archs isOSBinary i ≠ 0)).argmax
          (f.gradeOf archs isOSBinary)) := by
  induction l using List.reverseRecOn with
  | nil => rfl
  | append_singleton l i ih =>
    rw [List.foldl_append, ih, List.foldl_cons, List.foldl_nil, List.filter_append]
    by_cases hgrade : f.gradeOf archs isOSBinary i = 0
    · have hskip : [i].filter (fun i => f.gradeOf archs isOSBinary i ≠ 0) = [] := by simp [hgrade]
      rw [hskip, List.append_nil, gradeSlice]
      simp only [gradeOf] at hgrade
      simp [hgrade]
    · have htake : [i].filter (fun i => f.gradeOf archs isOSBinary i ≠ 0) = [i] := by simp [hgrade]
      rw [htake, ← keepBest_argmax, gradeSlice]
      have hgrade' := hgrade
      simp only [gradeOf] at hgrade'
      simp only [ne_eq, hgrade', not_false_eq_true, if_true]
      cases (l.filter (fun i => f.gradeOf archs isOSBinary i ≠ 0)).argmax
          (f.gradeOf archs isOSBinary) with
      | none =>
        have hpos := Nat.pos_of_ne_zero hgrade'
        simp [keepBest, bestOf, gradeOf, hpos]
      | some best =>
        by_cases hbetter : f.gradeOf archs isOSBinary best < f.gradeOf archs isOSBinary i
        · simp only [keepBest, bestOf, hbetter, if_true]
          simp only [gradeOf] at hbetter ⊢
          simp [hbetter]
        · simp only [keepBest, bestOf, hbetter, if_false]
          simp only [gradeOf] at hbetter ⊢
          simp [hbetter]

/-! ### The records of a file -/

section File

variable {σ : Type} (callback : σ → FatSlice → σ × Bool)

/-- The run before the first record. -/
def start (state : σ) : SliceRun σ := ⟨state, false, diag, [], []⟩

def counted (state : σ) : SliceRun σ :=
  forEachArch f fileLen callback f.record (List.range f.nfat_arch) (start diag state)

def extraRecord (r : SliceRun σ) : SliceRun σ :=
  if f.ReadsExtra then
    if isExtraSlice (f.record f.nfat_arch) then
      (r.read f.nfat_arch).handOut f fileLen callback f.record f.nfat_arch
    else r.read f.nfat_arch
  else r

lemma forEachSlice_of_lists (h : f.Lists) (state : σ) :
    f.forEachSlice fileLen callback diag state =
      f.extraRecord fileLen callback (f.counted fileLen diag callback state) := by
  obtain ⟨hmagic, hcount⟩ := h
  unfold forEachSlice extraRecord counted start
  by_cases hfat : f.magic = FAT_MAGIC
  · have hrecord : f.record = f.fatArch := by
      funext i
      rw [record, if_pos hfat]
    rw [if_pos hfat, if_neg hcount.not_gt, hrecord]
    by_cases hextra : f.nfat_arch ≠ maxArchs
    · have hreads : f.ReadsExtra := ⟨hfat, hextra⟩
      rw [if_pos hextra, if_pos hreads]
    · have hreads : ¬f.ReadsExtra := fun h => hextra h.2
      rw [if_neg hextra, if_neg hreads]
  · have hrecord : f.record = f.fatArch64 := by
      funext i
      rw [record, if_neg hfat]
    have hreads : ¬f.ReadsExtra := fun h => hfat h.1
    rw [if_neg hfat, if_pos (hmagic.resolve_left hfat), if_neg hcount.not_gt, hrecord, if_neg hreads]

lemma forEachSlice_of_not_lists (h : ¬f.Lists) (state : σ) :
    ∃ e, f.forEachSlice fileLen callback diag state = start (some e) state := by
  unfold forEachSlice start
  by_cases hcount : maxArchs < f.nfat_arch
  · by_cases hfat : f.magic = FAT_MAGIC
    · rw [if_pos hfat, if_pos hcount]
      exact ⟨_, rfl⟩
    · by_cases hfat64 : f.magic = FAT_MAGIC_64
      · rw [if_neg hfat, if_pos hfat64, if_pos hcount]
        exact ⟨_, rfl⟩
      · rw [if_neg hfat, if_neg hfat64]
        exact ⟨_, rfl⟩
  · have hmagic : ¬(f.magic = FAT_MAGIC ∨ f.magic = FAT_MAGIC_64) :=
      fun hmagic => h ⟨hmagic, not_lt.mp hcount⟩
    rw [not_or] at hmagic
    rw [if_neg hmagic.1, if_neg hmagic.2]
    exact ⟨_, rfl⟩

/-- The number of records that are read if the callback never stops. -/
def recordsRead : Nat :=
  if f.Lists then if f.ReadsExtra then f.nfat_arch + 1 else f.nfat_arch else 0

lemma counted_stopsLast (state : σ) : (f.counted fileLen diag callback state).StopsLast :=
  forEachArch_induct f fileLen callback f.record
    (fun i _ r hstop h => SliceRun.StopsLast.handOut f fileLen callback f.record
      (r := r.read i) ⟨h.before, h.last⟩ hstop i) rfl ⟨by simp [start], by simp [start]⟩

lemma extraRecord_records (r : SliceRun σ) :
    (f.extraRecord fileLen callback r).records =
      if f.ReadsExtra then r.records ++ [f.nfat_arch] else r.records := by
  unfold extraRecord
  by_cases hreads : f.ReadsExtra
  · rw [if_pos hreads, if_pos hreads]
    by_cases hextra : isExtraSlice (f.record f.nfat_arch) = true
    · rw [if_pos hextra, SliceRun.handOut_records]
      rfl
    · rw [if_neg hextra]
      rfl
  · rw [if_neg hreads, if_neg hreads]

lemma records_lt (state : σ) :
    ∀ i ∈ (f.forEachSlice fileLen callback diag state).records, i < f.recordsRead := by
  by_cases hlists : f.Lists
  · have hcounted : ∀ i ∈ (f.counted fileLen diag callback state).records, i < f.nfat_arch := by
      refine forEachArch_induct f fileLen callback f.record
        (P := fun r => ∀ i ∈ r.records, i < f.nfat_arch) (fun i hi r _ hr j hj => ?_) rfl
        (by simp [start])
      rw [SliceRun.handOut_records] at hj
      cases List.mem_append.mp hj with
      | inl hj => exact hr j hj
      | inr hj =>
        rw [List.mem_singleton.mp hj]
        exact List.mem_range.mp hi
    rw [f.forEachSlice_of_lists fileLen diag callback hlists, extraRecord_records, recordsRead,
      if_pos hlists]
    by_cases hreads : f.ReadsExtra
    · rw [if_pos hreads, if_pos hreads]
      intro i hi
      cases List.mem_append.mp hi with
      | inl hi => exact Nat.lt_succ_of_lt (hcounted i hi)
      | inr hi =>
        rw [List.mem_singleton.mp hi]
        exact Nat.lt_succ_self _
    · rw [if_neg hreads, if_neg hreads]
      exact hcounted
  · obtain ⟨e, hrun⟩ := f.forEachSlice_of_not_lists fileLen diag callback hlists state
    simp [hrun, start]

lemma records_eq (hcallback : ∀ s slice, (callback s slice).2 = false) (state : σ) :
    (f.forEachSlice fileLen callback diag state).records = List.range f.recordsRead := by
  by_cases hlists : f.Lists
  · obtain ⟨-, hcounted, -⟩ := forEachArch_goOn f fileLen callback f.record hcallback
      (List.range f.nfat_arch) (r := start diag state) rfl
    have hrecords : (f.counted fileLen diag callback state).records = List.range f.nfat_arch := hcounted
    rw [f.forEachSlice_of_lists fileLen diag callback hlists, extraRecord_records, hrecords,
      recordsRead, if_pos hlists]
    by_cases hreads : f.ReadsExtra
    · rw [if_pos hreads, if_pos hreads, List.range_succ]
    · rw [if_neg hreads, if_neg hreads]
  · obtain ⟨e, hrun⟩ := f.forEachSlice_of_not_lists fileLen diag callback hlists state
    rw [hrun, recordsRead, if_neg hlists]
    rfl

lemma forEachSlice_inside (state : σ) :
    (f.forEachSlice fileLen callback diag state).Inside fileLen := by
  by_cases hlists : f.Lists
  · have hcounted : (f.counted fileLen diag callback state).Inside fileLen :=
      forEachArch_induct f fileLen callback f.record
        (fun i _ r _ h => SliceRun.Inside.handOut f callback f.record (r := r.read i) h i) rfl
        (by simp [start, SliceRun.Inside])
    rw [f.forEachSlice_of_lists fileLen diag callback hlists, extraRecord]
    split
    · split
      · exact SliceRun.Inside.handOut f callback f.record
          (r := (f.counted fileLen diag callback state).read f.nfat_arch) hcounted f.nfat_arch
      · exact hcounted
    · exact hcounted
  · obtain ⟨e, hrun⟩ := f.forEachSlice_of_not_lists fileLen diag callback hlists state
    rw [hrun]
    simp [start, SliceRun.Inside]

lemma filter_valid {l : List Nat}
    (hnone : ∀ i ∈ l, (f.isValidSlice none fileLen i (f.record i)).2 = none) :
    l.filter (fun i => (f.isValidSlice none fileLen i (f.record i)).1) =
      l.filter (fun i => f.isOld i = false) := by
  refine List.filter_congr fun i hi => ?_
  rw [(f.isValidSlice_none fileLen i (f.record i)).old (hnone i hi), isOld]
  cases (f.machO (f.record i)).hasMachOBigEndianMagic with
  | false => rfl
  | true => rfl

lemma extraRecord_of_not_hasExtra (hextra : ¬f.HasExtra) (r : SliceRun σ) :
    (f.extraRecord fileLen callback r).diag = r.diag ∧
      (f.extraRecord fileLen callback r).state = r.state ∧
      (f.extraRecord fileLen callback r).calls = r.calls := by
  unfold extraRecord
  by_cases hreads : f.ReadsExtra
  · rw [if_pos hreads, if_neg (fun h => hextra ⟨hreads, h⟩)]
    exact ⟨rfl, rfl, rfl⟩
  · rw [if_neg hreads]
    exact ⟨rfl, rfl, rfl⟩

lemma extraRecord_of_hasExtra (hextra : f.HasExtra) (r : SliceRun σ) :
    f.extraRecord fileLen callback r =
      (r.read f.nfat_arch).handOut f fileLen callback f.record f.nfat_arch := by
  rw [extraRecord, if_pos hextra.1, if_pos hextra.2]

/-- What a callback that never stops leaves, if there is no error. -/
lemma state_of_noError (hlists : f.Lists) (hcallback : ∀ s slice, (callback s slice).2 = false)
    (state : σ) (hend : (f.forEachSlice fileLen callback diag state).diag = none) :
    (f.forEachSlice fileLen callback diag state).state =
      (f.listed.filter (fun i => f.isOld i = false)).foldl
        (fun s i => (callback s (f.record i)).1) state := by
  obtain ⟨hstop, -, hcounted⟩ := forEachArch_goOn f fileLen callback f.record hcallback
    (List.range f.nfat_arch) (r := start diag state) rfl
  rw [f.forEachSlice_of_lists fileLen diag callback hlists] at hend ⊢
  by_cases hextra : f.HasExtra
  · obtain ⟨-, -, hlast⟩ := forEachArch_goOn f fileLen callback f.record hcallback [f.nfat_arch] hstop
    have hone : forEachArch f fileLen callback f.record [f.nfat_arch]
          (f.counted fileLen diag callback state) =
        f.extraRecord fileLen callback (f.counted fileLen diag callback state) := by
      rw [extraRecord_of_hasExtra f fileLen callback hextra, forEachArch]
      split
      · rfl
      · rfl
    rw [counted] at hone hend ⊢
    rw [hone] at hlast
    obtain ⟨hdiag, hnone, hstate⟩ := hlast hend
    obtain ⟨-, hnone', hstate'⟩ := hcounted hdiag
    rw [hstate, hstate', filter_valid f fileLen hnone, filter_valid f fileLen hnone', listed,
      if_pos hextra, List.filter_append, List.foldl_append]
    rfl
  · obtain ⟨hdiag, hstate, -⟩ :=
      f.extraRecord_of_not_hasExtra fileLen callback hextra (f.counted fileLen diag callback state)
    rw [hdiag] at hend
    rw [hstate]
    obtain ⟨-, hnone', hstate'⟩ := hcounted hend
    rw [counted, hstate', filter_valid f fileLen hnone', listed, if_neg hextra, List.append_nil]
    rfl

end File

/-! ### When the walk and the choice are right -/

/-- The records that are read are in the first page and in the file, and a file with a valid extra slice
has no valid slice before one with a fault. -/
structure SoundHeader : Prop where
  records : f.recordsRead ≠ 0 → sizeofFatHeader + f.recordSize * f.recordsRead ≤ min 4096 fileLen
  extra : f.Lists → f.HasExtra → diag = none → f.IsValid fileLen f.nfat_arch →
    ∀ i < f.nfat_arch, f.IsValid fileLen i → ∃ j < i, f.IsFaulty fileLen j

section Right

variable {f : FatFile} {fileLen : Nat} {diag : FatDiagnostics}

lemma reads_iff :
    (∀ (σ : Type) (callback : σ → FatSlice → σ × Bool) (state : σ),
      ∀ i ∈ (f.forEachSlice fileLen callback diag state).records,
        sizeofFatHeader + f.recordSize * (i + 1) ≤ min 4096 fileLen) ↔
      (f.recordsRead ≠ 0 → sizeofFatHeader + f.recordSize * f.recordsRead ≤ min 4096 fileLen) := by
  constructor
  · intro h hread
    obtain ⟨n, hn⟩ := Nat.exists_eq_succ_of_ne_zero hread
    have hlast := h Unit (fun s _ => (s, false)) () n
    rw [records_eq f fileLen diag _ (fun _ _ => rfl), hn] at hlast
    rw [hn]
    exact hlast (List.mem_range.mpr (Nat.lt_succ_self n))
  · intro h σ callback state i hi
    have hlt := f.records_lt fileLen diag callback state i hi
    have hmul : f.recordSize * (i + 1) ≤ f.recordSize * f.recordsRead := Nat.mul_le_mul_left _ hlt
    have hbound := h (by omega)
    omega

lemma mem_before_iff {n i : Nat} {before after : List Nat} (hrange : List.range n = before ++ i :: after)
    (j : Nat) : j ∈ before ↔ j < i := by
  have hsorted : (before ++ i :: after).Pairwise (· < ·) := hrange ▸ List.pairwise_lt_range
  obtain ⟨-, hafter, hbefore⟩ := List.pairwise_append.mp hsorted
  constructor
  · exact fun hj => hbefore j hj i List.mem_cons_self
  · intro hj
    have hi : i < n := List.mem_range.mp (hrange ▸ by simp)
    have hmem : j ∈ before ++ i :: after := hrange ▸ List.mem_range.mpr (hj.trans hi)
    refine (List.mem_append.mp hmem).resolve_right (fun hmem => ?_)
    cases List.mem_cons.mp hmem with
    | inl heq => omega
    | inr hmem =>
      have hlt := (List.pairwise_cons.mp hafter).1 j hmem
      omega

lemma stops_of_sound (h : f.SoundHeader fileLen diag) {σ : Type} (callback : σ → FatSlice → σ × Bool)
    (state : σ) : ∀ c ∈ (f.forEachSlice fileLen callback diag state).calls.dropLast, c.2 = false := by
  by_cases hlists : f.Lists
  · have hcounted := f.counted_stopsLast fileLen diag callback state
    rw [f.forEachSlice_of_lists fileLen diag callback hlists]
    by_cases hextra : f.HasExtra
    · rw [extraRecord_of_hasExtra f fileLen callback hextra]
      obtain ⟨-, hvalid, hout⟩ | ⟨-, -, hout⟩ | ⟨-, e, hout⟩ :=
        ((f.counted fileLen diag callback state).read f.nfat_arch).handOut_cases f fileLen callback
          f.record f.nfat_arch
      · rw [hout, List.dropLast_concat]
        by_cases hcalls : (f.counted fileLen diag callback state).calls = []
        · intro c hc
          rw [SliceRun.read, hcalls] at hc
          cases hc
        · obtain ⟨hdiag, before, i, after, hrange, hvalid', hbefore⟩ :=
            exists_valid_of_calls f fileLen callback f.record rfl hcalls
          have hi : i < f.nfat_arch := List.mem_range.mp (hrange ▸ by simp)
          obtain ⟨j, hj, hfaulty⟩ := h.extra hlists hextra hdiag hvalid i hi hvalid'
          rw [IsFaulty, hbefore j ((mem_before_iff hrange j).mpr hj)] at hfaulty
          cases hfaulty
      · rw [hout]
        exact hcounted.before
      · rw [hout]
        exact hcounted.before
    · rw [(f.extraRecord_of_not_hasExtra fileLen callback hextra _).2.2]
      exact hcounted.before
  · obtain ⟨e, hrun⟩ := f.forEachSlice_of_not_lists fileLen diag callback hlists state
    rw [hrun]
    simp [start]

lemma extra_of_stops
    (h : ∀ c ∈ (f.forEachSlice fileLen (fun (s : Unit) _ => (s, true)) diag ()).calls.dropLast,
      c.2 = false)
    (hlists : f.Lists) (hextra : f.HasExtra) (hdiag : diag = none) (hvalid : f.IsValid fileLen f.nfat_arch)
    {i : Nat} (hi : i < f.nfat_arch) (hvalid' : f.IsValid fileLen i) :
    ∃ j < i, f.IsFaulty fileLen j := by
  by_contra hnone
  obtain ⟨before, after, hrange⟩ := List.append_of_mem (List.mem_range.mpr hi)
  have hbefore : ∀ j ∈ before, (f.isValidSlice none fileLen j (f.record j)).2 = none := by
    intro j hj
    by_contra hfaulty
    exact hnone ⟨j, (mem_before_iff hrange j).mp hj, Option.isSome_iff_ne_none.mpr hfaulty⟩
  obtain ⟨hcounted, slice, hcalls⟩ := calls_of_valid f fileLen (fun (s : Unit) _ => (s, true)) f.record
    (r := start diag ()) hdiag rfl (fun _ _ => rfl) hrange hvalid' hbefore
  rw [f.forEachSlice_of_lists fileLen diag _ hlists, extraRecord_of_hasExtra f fileLen _ hextra] at h
  obtain ⟨-, -, hout⟩ | ⟨-, hinvalid, -⟩ | ⟨hsome, -⟩ :=
    ((f.counted fileLen diag (fun (s : Unit) _ => (s, true)) ()).read f.nfat_arch).handOut_cases f fileLen
      (fun (s : Unit) _ => (s, true)) f.record f.nfat_arch
  · rw [hout, List.dropLast_concat] at h
    have hstopped := h (slice, true) (by simp [SliceRun.read, counted, hcalls])
    cases hstopped
  · rw [IsValid, hinvalid] at hvalid
    cases hvalid
  · rw [SliceRun.read, counted, hcounted] at hsome
    cases hsome

lemma best_of_result {archs : GradedArchs} {isOSBinary : Bool} {sliceOffset sliceLen : Nat}
    (h : (f.isFatFileWithSlice diag fileLen archs isOSBinary sliceOffset sliceLen).result = true) :
    ∃ i, (f.listed.filter (fun i => f.gradeOf archs isOSBinary i ≠ 0 ∧ f.isOld i = false)).argmax
        (f.gradeOf archs isOSBinary) = some i ∧
      (f.isFatFileWithSlice diag fileLen archs isOSBinary sliceOffset sliceLen).sliceOffset =
        (f.record i).sliceOffset ∧
      (f.isFatFileWithSlice diag fileLen archs isOSBinary sliceOffset sliceLen).sliceLen =
        (f.record i).sliceLen := by
  unfold isFatFileWithSlice at h ⊢
  by_cases hmagic : f.magic ≠ FAT_MAGIC ∧ f.magic ≠ FAT_MAGIC_64
  · rw [if_pos hmagic] at h
    cases h
  · rw [if_neg hmagic] at h ⊢
    cases hend : (f.forEachSlice fileLen (gradeSlice archs isOSBinary) diag
        ⟨sliceOffset, sliceLen, 0⟩).diag with
    | some e => simp [hend] at h
    | none =>
      have hlists : f.Lists := by
        by_contra hlists
        obtain ⟨e, hrun⟩ := f.forEachSlice_of_not_lists fileLen diag (gradeSlice archs isOSBinary) hlists
          ⟨sliceOffset, sliceLen, 0⟩
        rw [hrun] at hend
        cases hend
      have hstate := f.state_of_noError fileLen diag (gradeSlice archs isOSBinary) hlists
        (gradeSlice_stop archs isOSBinary) _ hend
      have hboth : (f.listed.filter (fun i => f.isOld i = false)).filter
            (fun i => f.gradeOf archs isOSBinary i ≠ 0) =
          f.listed.filter (fun i => f.gradeOf archs isOSBinary i ≠ 0 ∧ f.isOld i = false) := by
        rw [List.filter_filter]
        exact List.filter_congr (fun i _ => (Bool.decide_and _ _).symm)
      rw [foldl_gradeSlice, hboth] at hstate
      cases hbest : (f.listed.filter (fun i =>
          f.gradeOf archs isOSBinary i ≠ 0 ∧ f.isOld i = false)).argmax (f.gradeOf archs isOSBinary) with
      | none =>
        rw [hbest] at hstate
        simp [hend, hstate, bestOf] at h
      | some i =>
        rw [hbest] at hstate
        refine ⟨i, rfl, ?_, ?_⟩
        · simp [hend, hstate, bestOf]
        · simp [hend, hstate, bestOf]

end Right

theorem choosesSlices_iff (f : FatFile) (fileLen : Nat) (diag : FatDiagnostics) :
    f.ChoosesSlices fileLen diag ↔ f.SoundHeader fileLen diag := by
  constructor
  · intro h
    exact ⟨reads_iff.mp h.reads, fun hlists hextra hdiag hvalid i hi hvalid' =>
      extra_of_stops (h.stops Unit (fun s _ => (s, true)) ()) hlists hextra hdiag hvalid hi hvalid'⟩
  · intro h
    exact ⟨reads_iff.mpr h.records, fun σ callback state => f.forEachSlice_inside fileLen diag callback state,
      fun σ callback state => stops_of_sound h callback state, fun _ _ _ _ => best_of_result⟩

/-- A header with no record, in a file that ends with it. -/
def headerOnly : FatFile where
  bytes a := ([0xca, 0xfe, 0xba, 0xbe, 0, 0, 0, 0] : List UInt8)[a]?.getD 0

theorem headerOnly_reads : ¬headerOnly.ChoosesSlices 8 none := by
  intro h
  have hread : 0 ∈ (headerOnly.forEachSlice 8 (fun (s : Unit) _ => (s, false)) none ()).records := by
    decide +kernel
  have hbound := h.reads Unit (fun s _ => (s, false)) () 0 hread
  revert hbound
  decide +kernel

end FatFile

end Dyld.MachO
