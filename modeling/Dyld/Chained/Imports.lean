import Dyld.Chained.Validate

/-!
# The import table of chained fixups

`MachOAnalyzer::forEachChainedFixupTarget` reads the import records of an
`LC_DYLD_CHAINED_FIXUPS` payload and hands out a target for each. The validator bounds the number
of records by what a pointer can name, so the 32-bit product in its size check does not wrap. The
loop lets a name start at the very end of the payload.
-/

namespace Dyld.Chained

open Dyld.Lib

/-- A target that is handed to the callback. The name starts `nameStart` bytes after the header. -/
structure ImportTarget where
  libOrdinal : Int
  nameStart : Nat
  addend : Nat
  weakImport : Bool
  deriving DecidableEq, Repr

inductive TargetsError
  | malformedImportTable
  | stringOverflow
  | unknownImportsFormat
  deriving DecidableEq, Repr

structure ImportRecord where
  libVal : Nat
  weakImport : Bool
  nameOffset : Nat
  addend : Nat
  deriving DecidableEq, Repr

/-- A format of import records: their size, how one is read, and the values of `lib_ordinal`
above which it is negative. -/
structure ImportFormat where
  entrySize : Nat
  read : Mem → Nat → ImportRecord
  ordinalBits : Nat

def chainedImport : ImportFormat where
  entrySize := 4
  read := fun m a =>
    let raw := loadNat m a 4
    ⟨raw % 2 ^ 8, raw.testBit 8, raw / 2 ^ 9, 0⟩
  ordinalBits := 8

def chainedImportAddend : ImportFormat where
  entrySize := 8
  read := fun m a =>
    let raw := loadNat m a 4
    let addend := loadNat m (a + 4) 4
    ⟨raw % 2 ^ 8, raw.testBit 8, raw / 2 ^ 9,
      if addend < 2 ^ 31 then addend else addend + (2 ^ 64 - 2 ^ 32)⟩
  ordinalBits := 8

def chainedImportAddend64 : ImportFormat where
  entrySize := 16
  read := fun m a =>
    let raw := loadNat m a 8
    ⟨raw % 2 ^ 16, raw.testBit 16, raw / 2 ^ 32, loadNat m (a + 8) 8⟩
  ordinalBits := 16

def importFormat : Nat → Option ImportFormat
  | 1 => some chainedImport
  | 2 => some chainedImportAddend
  | 3 => some chainedImportAddend64
  | _ => none

/-- Values close to the largest are negative. -/
def ImportFormat.libOrdinal (format : ImportFormat) (libVal : Nat) : Int :=
  if libVal > 2 ^ format.ordinalBits - 16 then (libVal : Int) - 2 ^ format.ordinalBits else libVal

/-- What the loop read and handed out: the records with their sizes, and the targets. -/
structure TargetsRun where
  reads : List (Nat × Nat) := []
  targets : List ImportTarget := []
  error : Option TargetsError := none
  deriving DecidableEq, Repr

section Targets

variable (image : FixupsImage) (stops : Nat → Bool)

def importAddress (format : ImportFormat) (i : Nat) : Nat :=
  image.importsOffset + format.entrySize * i

def importRecord (format : ImportFormat) (i : Nat) : ImportRecord :=
  format.read image.payload (importAddress image format i)

def maxSymbolOffset : Nat := image.datasize - image.symbolsOffset

def importTarget (format : ImportFormat) (i : Nat) : ImportTarget :=
  let record := importRecord image format i
  ⟨format.libOrdinal record.libVal, image.symbolsOffset + record.nameOffset, record.addend,
    record.weakImport⟩

/-- The loop from record `i` on, with `remaining` records left. `stops` says after which targets
the callback sets `stop`. -/
def importLoop (format : ImportFormat) : Nat → Nat → TargetsRun
  | 0, _ => {}
  | remaining + 1, i =>
    let read := (importAddress image format i, format.entrySize)
    if (importRecord image format i).nameOffset > maxSymbolOffset image then
      { reads := [read], error := some .stringOverflow }
    else
      let rest := if stops i then {} else importLoop format remaining (i + 1)
      { rest with reads := read :: rest.reads, targets := importTarget image format i :: rest.targets }

/-- `MachOAnalyzer::forEachChainedFixupTarget` on a payload of `LC_DYLD_CHAINED_FIXUPS`. -/
def forEachChainedFixupTarget : TargetsRun :=
  if image.importsOffset > image.datasize ∨ image.symbolsOffset > image.datasize then
    { error := some .malformedImportTable }
  else
    match importFormat image.importsFormat with
    | none => { error := some .unknownImportsFormat }
    | some format => importLoop image stops format image.importsCount 0

structure TargetsInside : Prop where
  reads : ∀ x ∈ (forEachChainedFixupTarget image stops).reads,
    x.1 + x.2 ≤ image.datasize ∧ x.1 + x.2 ≤ image.symbolsOffset
  names : ∀ t ∈ (forEachChainedFixupTarget image stops).targets, t.nameStart < image.datasize
  count : (forEachChainedFixupTarget image stops).error = none →
    (forEachChainedFixupTarget image stops).targets.length = image.importsCount ∨
    ∃ i, stops i = true ∧ (forEachChainedFixupTarget image stops).targets.length = i + 1

/-- The loop goes past record `i`. -/
def passes (format : ImportFormat) (i : Nat) : Prop :=
  (importRecord image format i).nameOffset ≤ maxSymbolOffset image ∧ stops i = false

def NoNameAtEnd : Prop :=
  ∀ format, importFormat image.importsFormat = some format →
    image.importsOffset ≤ image.datasize → image.symbolsOffset ≤ image.datasize →
    ∀ i < image.importsCount, (∀ j < i, passes image stops format j) →
      (importRecord image format i).nameOffset ≠ image.datasize - image.symbolsOffset

end Targets

/-! ### The size of the table -/

section Size

variable {image : FixupsImage}

lemma maxBindOrdinal_le (format : Nat) : maxBindOrdinal format ≤ 0xFFFFFF := by
  unfold maxBindOrdinal
  split <;> decide

lemma formatEntrySize_le {format entrySize : Nat} (h : formatEntrySize format = some entrySize) :
    entrySize ≤ 16 := by
  unfold formatEntrySize at h
  split at h <;> simp_all <;> omega

lemma formatEntrySize_of_importFormat {n : Nat} {format : ImportFormat}
    (h : importFormat n = some format) : formatEntrySize n = some format.entrySize := by
  unfold importFormat at h
  split at h
  · cases h
    rfl
  · cases h
    rfl
  · cases h
    rfl
  · cases h

lemma imports_before_symbols (h : Accepted image) {format : ImportFormat}
    (hformat : importFormat image.importsFormat = some format) :
    image.importsOffset + format.entrySize * image.importsCount ≤ image.symbolsOffset := by
  unfold Accepted validChainedFixupsInfo at h
  rw [bind_eq_ok] at h
  obtain ⟨⟨⟩, hheader, h⟩ := h
  rw [bind_eq_ok] at h
  obtain ⟨⟨⟩, -, h⟩ := h
  rw [bind_eq_ok] at h
  obtain ⟨s, -, h⟩ := h
  rw [bind_eq_ok] at h
  obtain ⟨⟨⟩, himports, -⟩ := h
  have hsize := formatEntrySize_of_importFormat hformat
  unfold validHeader at hheader
  rw [require_bind_eq_ok, require_bind_eq_ok, require_bind_eq_ok, hsize] at hheader
  obtain ⟨-, -, -, hheader⟩ := hheader
  dsimp only at hheader
  rw [require_bind_eq_ok] at hheader
  have hfits := hheader.1
  unfold validImports at himports
  rw [require_bind_eq_ok] at himports
  have hcount : image.importsCount ≤ 0xFFFFFF := by
    rcases himports.1 with hzero | hlt
    · omega
    · have := maxBindOrdinal_le (s.pointerFormatForAll.getD 0)
      omega
  -- so the product does not wrap
  have hproduct : format.entrySize * image.importsCount ≤ 16 * 0xFFFFFF :=
    Nat.mul_le_mul (formatEntrySize_le hsize) hcount
  have hsymbols : image.symbolsOffset < 2 ^ 32 := loadNat_lt image.payload 12 4
  rw [Nat.mod_eq_of_lt (by omega : format.entrySize * image.importsCount < 2 ^ 32), Bool.not_eq_true,
    MachO.greaterThanAddOrOverflow_eq_false] at hfits
  omega

end Size

/-! ### What the loop reads and hands out -/

section Loop

variable {image : FixupsImage} {stops : Nat → Bool} {format : ImportFormat}

lemma importLoop_succ_overflow {remaining i : Nat}
    (h : (importRecord image format i).nameOffset > maxSymbolOffset image) :
    importLoop image stops format (remaining + 1) i =
      { reads := [(importAddress image format i, format.entrySize)],
        error := some .stringOverflow } := by
  rw [importLoop, if_pos h]

lemma importLoop_succ_stop {remaining i : Nat}
    (h : (importRecord image format i).nameOffset ≤ maxSymbolOffset image)
    (hstop : stops i = true) :
    importLoop image stops format (remaining + 1) i =
      { reads := [(importAddress image format i, format.entrySize)],
        targets := [importTarget image format i] } := by
  rw [importLoop, if_neg (by omega), hstop]
  rfl

lemma importLoop_succ_pass {remaining i : Nat} (h : passes image stops format i) :
    importLoop image stops format (remaining + 1) i =
      { importLoop image stops format remaining (i + 1) with
          reads := (importAddress image format i, format.entrySize) ::
            (importLoop image stops format remaining (i + 1)).reads
          targets := importTarget image format i ::
            (importLoop image stops format remaining (i + 1)).targets } := by
  rw [importLoop, if_neg (Nat.not_lt.mpr h.1), h.2]
  rfl

/-- The record ends the loop with an error, ends it with its target, or is passed. -/
lemma record_cases (image : FixupsImage) (stops : Nat → Bool) (format : ImportFormat) (i : Nat) :
    (importRecord image format i).nameOffset > maxSymbolOffset image ∨
    ((importRecord image format i).nameOffset ≤ maxSymbolOffset image ∧ stops i = true) ∨
    passes image stops format i := by
  unfold passes
  cases stops i <;> simp <;> omega

lemma mem_reads_importLoop (remaining i : Nat) {x : Nat × Nat}
    (h : x ∈ (importLoop image stops format remaining i).reads) :
    ∃ j < i + remaining, x = (importAddress image format j, format.entrySize) := by
  induction remaining generalizing i with
  | zero => cases h
  | succ remaining ih =>
    rcases record_cases image stops format i with hover | ⟨hname, hstop⟩ | hpass
    · rw [importLoop_succ_overflow hover] at h
      exact ⟨i, by omega, List.mem_singleton.mp h⟩
    · rw [importLoop_succ_stop hname hstop] at h
      exact ⟨i, by omega, List.mem_singleton.mp h⟩
    · rw [importLoop_succ_pass hpass] at h
      rcases List.mem_cons.mp h with heq | hrest
      · exact ⟨i, by omega, heq⟩
      · obtain ⟨j, hj, heq⟩ := ih (i + 1) hrest
        exact ⟨j, by omega, heq⟩

lemma mem_targets_importLoop (remaining i : Nat) (t : ImportTarget) :
    t ∈ (importLoop image stops format remaining i).targets ↔
      ∃ j, i ≤ j ∧ j < i + remaining ∧ (∀ l, i ≤ l → l < j → passes image stops format l) ∧
        (importRecord image format j).nameOffset ≤ maxSymbolOffset image ∧
        t = importTarget image format j := by
  induction remaining generalizing i with
  | zero =>
    constructor
    · intro h
      cases h
    · rintro ⟨j, hij, hj, -⟩
      omega
  | succ remaining ih =>
    rcases record_cases image stops format i with hover | ⟨hname, hstop⟩ | hpass
    · rw [importLoop_succ_overflow hover]
      constructor
      · intro h
        cases h
      · rintro ⟨j, hij, hj, hbefore, hname, -⟩
        rcases Nat.eq_or_lt_of_le hij with rfl | hlt
        · omega
        · have := (hbefore i (Nat.le_refl _) hlt).1
          omega
    · rw [importLoop_succ_stop hname hstop]
      constructor
      · intro h
        exact ⟨i, Nat.le_refl _, by omega, by intro l h1 h2; omega, hname, List.mem_singleton.mp h⟩
      · rintro ⟨j, hij, hj, hbefore, -, rfl⟩
        rcases Nat.eq_or_lt_of_le hij with rfl | hlt
        · exact List.mem_singleton.mpr rfl
        · have := (hbefore i (Nat.le_refl _) hlt).2
          rw [hstop] at this
          cases this
    · rw [importLoop_succ_pass hpass, List.mem_cons, ih (i + 1)]
      constructor
      · rintro (rfl | ⟨j, hij, hj, hbefore, hname, rfl⟩)
        · exact ⟨i, Nat.le_refl _, by omega, by intro l h1 h2; omega, hpass.1, rfl⟩
        · refine ⟨j, by omega, by omega, ?_, hname, rfl⟩
          intro l h1 h2
          rcases Nat.eq_or_lt_of_le h1 with rfl | hlt
          · exact hpass
          · exact hbefore l hlt h2
      · rintro ⟨j, hij, hj, hbefore, hname, rfl⟩
        rcases Nat.eq_or_lt_of_le hij with rfl | hlt
        · exact Or.inl rfl
        · exact Or.inr ⟨j, hlt, by omega, fun l h1 h2 => hbefore l (by omega) h2, hname, rfl⟩

lemma length_targets_importLoop (remaining i : Nat)
    (h : (importLoop image stops format remaining i).error = none) :
    (importLoop image stops format remaining i).targets.length = remaining ∨
    ∃ j, i ≤ j ∧ stops j = true ∧
      (importLoop image stops format remaining i).targets.length = j - i + 1 := by
  induction remaining generalizing i with
  | zero => exact Or.inl rfl
  | succ remaining ih =>
    rcases record_cases image stops format i with hover | ⟨hname, hstop⟩ | hpass
    · rw [importLoop_succ_overflow hover] at h
      cases h
    · right
      rw [importLoop_succ_stop hname hstop]
      exact ⟨i, Nat.le_refl _, hstop, by simp⟩
    · rw [importLoop_succ_pass hpass] at h ⊢
      dsimp only at h ⊢
      rw [List.length_cons]
      rcases ih (i + 1) h with hall | ⟨j, hij, hstop, hlen⟩
      · left
        rw [hall]
      · right
        exact ⟨j, by omega, hstop, by omega⟩

end Loop

/-- In an accepted payload the records that are read lie inside it and before the symbols, and
every name starts inside it exactly when no record that is reached has its name at the end. -/
theorem accepted_targetsInside_iff (image : FixupsImage) (h : Accepted image)
    (stops : Nat → Bool) : TargetsInside image stops ↔ NoNameAtEnd image stops := by
  constructor
  · intro hinside format hformat hoff hsym i hi hbefore hname
    have hrun : forEachChainedFixupTarget image stops =
        importLoop image stops format image.importsCount 0 := by
      unfold forEachChainedFixupTarget
      rw [if_neg (by omega), hformat]
    have hmem : importTarget image format i ∈ (forEachChainedFixupTarget image stops).targets := by
      rw [hrun, mem_targets_importLoop]
      refine ⟨i, Nat.zero_le _, by omega, fun l _ hl => hbefore l hl, ?_, rfl⟩
      rw [hname]
      exact Nat.le_refl _
    have := hinside.names _ hmem
    unfold importTarget at this
    dsimp only at this
    omega
  · intro hend
    by_cases hbad : image.importsOffset > image.datasize ∨ image.symbolsOffset > image.datasize
    · have hrun : forEachChainedFixupTarget image stops =
          { error := some .malformedImportTable } := by
        unfold forEachChainedFixupTarget
        rw [if_pos hbad]
      constructor <;> rw [hrun] <;> simp
    · cases hformat : importFormat image.importsFormat with
      | none =>
        have hrun : forEachChainedFixupTarget image stops =
            { error := some .unknownImportsFormat } := by
          unfold forEachChainedFixupTarget
          rw [if_neg hbad, hformat]
        constructor <;> rw [hrun] <;> simp
      | some format =>
        have hrun : forEachChainedFixupTarget image stops =
            importLoop image stops format image.importsCount 0 := by
          unfold forEachChainedFixupTarget
          rw [if_neg hbad, hformat]
        have hsize := imports_before_symbols h hformat
        constructor
        · rw [hrun]
          intro x hx
          obtain ⟨j, hj, rfl⟩ := mem_reads_importLoop _ _ hx
          have hle : format.entrySize * (j + 1) ≤ format.entrySize * image.importsCount :=
            Nat.mul_le_mul_left _ (by omega)
          rw [Nat.mul_succ] at hle
          unfold importAddress
          omega
        · rw [hrun]
          intro t ht
          obtain ⟨j, -, hj, hbefore, hname, rfl⟩ := (mem_targets_importLoop _ _ t).mp ht
          have hne := hend format hformat (by omega) (by omega) j (by omega)
            (fun l hl => hbefore l (Nat.zero_le _) hl)
          unfold maxSymbolOffset at hname
          unfold importTarget
          dsimp only
          omega
        · rw [hrun]
          intro herr
          rcases length_targets_importLoop _ _ herr with hall | ⟨j, -, hstop, hlen⟩
          · exact Or.inl hall
          · exact Or.inr ⟨j, hstop, by omega⟩

/-- An image with one segment before `__LINKEDIT`, without fixups on its one page, and an import
table of one record whose name starts at the given place behind the symbols' start. -/
def oneImportImage (nameOffset : Nat) : FixupsImage where
  payload := fun a =>
    ([leBytes 4 0, leBytes 4 28, leBytes 4 64, leBytes 4 68, leBytes 4 1, leBytes 4 1, leBytes 4 0,
      leBytes 4 2, leBytes 4 12, leBytes 4 0,
      leBytes 4 24, leBytes 2 0x1000, leBytes 2 2, leBytes 8 0x4000,
      leBytes 4 0, leBytes 2 1, leBytes 2 0xFFFF, leBytes 4 (1 + 512 * nameOffset)].flatten).getD a 0
  datasize := 72
  segmentsInfo := fun _ => ⟨0x8000, 0x1000⟩
  linkeditSegIndex := 1
  lastSegIndex := 1
  preferredLoadAddress := 0x4000
  inDyldCache := false

theorem accepted_targetsInside_iff_oneImport :
    Accepted (oneImportImage 1) ∧ TargetsInside (oneImportImage 1) (fun _ => false) := by
  have hacc : Accepted (oneImportImage 1) := by decide +kernel
  refine ⟨hacc, (accepted_targetsInside_iff _ hacc _).mpr ?_⟩
  intro format hformat _ _ i hi _
  have hcount : (oneImportImage 1).importsCount = 1 := by decide +kernel
  have hone : importFormat (oneImportImage 1).importsFormat = some chainedImport := by
    have : (oneImportImage 1).importsFormat = 1 := by decide +kernel
    rw [this]
    rfl
  rw [hone, Option.some.injEq] at hformat
  obtain rfl : i = 0 := by omega
  rw [← hformat]
  decide +kernel

/-- The name of the only import starts right behind the payload, and is handed out. -/
theorem oneImport_name_at_end :
    Accepted (oneImportImage 4) ∧ ¬ TargetsInside (oneImportImage 4) (fun _ => false) := by
  refine ⟨by decide +kernel, ?_⟩
  intro hinside
  have htargets : (forEachChainedFixupTarget (oneImportImage 4) (fun _ => false)).targets =
      [⟨1, 72, 0, false⟩] := by decide +kernel
  have hname := hinside.names ⟨1, 72, 0, false⟩ (by rw [htargets]; exact List.mem_singleton.mpr rfl)
  exact absurd hname (by decide)

end Dyld.Chained
