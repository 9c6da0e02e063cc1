import Dyld.MachO.MachOBuffer

/-!
# Validation of segments and sections

`MachOAnalyzer::validSegments` goes over the segments of a file four times. Ends of segments are
compared without overflow, but the end of a section is a sum that can wrap around, and the ranges
of a 32-bit file are checked as if all its segment commands were 32-bit commands.
-/

namespace Dyld.MachO

open Dyld.Lib

/-- The malformations that are only errors in newer files. -/
inductive Malformed
  | linkeditOrder
  | linkeditAlignment
  | dyldInfoAndlocalRelocs
  | codeSigAlignment
  | textPermissions
  | linkeditPermissions
  | segmentOrder
  | sectionsAddrRangeWithinSegment
  deriving DecidableEq, Repr

/-! ### Segment commands -/

namespace SegmentCommand

variable (seg : SegmentCommand)

/-- `int32_t sectionsSpace`. -/
def sectionsSpace : Int := Int.bmod (seg.cmdsize - seg.kind.sizeofCommand) (2 ^ 32)

/-- `SG_NORELOC`. -/
def noReloc : Bool := seg.flags &&& 4 != 0

/-- The checks of the first pass. The end of the content is only checked for `LC_SEGMENT_64`. -/
def badSegmentLoadCommand (fileLen : Nat) : Bool :=
  if seg.sectionsSpace < 0 then true
  else if seg.sectionsSpace % seg.kind.sizeofSection ≠ 0 then true
  else if seg.sectionsSpace ≠ seg.nsects * seg.kind.sizeofSection then true
  else if seg.kind = .segment64 ∧ greaterThanAddOrOverflow seg.fileoff seg.filesize fileLen then true
  else seg.filesize > seg.vmsize && (seg.vmsize != 0 || !seg.noReloc)

end SegmentCommand

/-- The place of a section in memory. -/
structure Section where
  addr : Nat
  size : Nat

def SegmentCommand.sections (m : Mem) (seg : SegmentCommand) : List Section :=
  (List.range seg.nsects).map fun i =>
    let sect := seg.cmd + seg.kind.sizeofCommand + i * seg.kind.sizeofSection
    ⟨loadNat m (sect + 32) seg.kind.width, loadNat m (sect + 32 + seg.kind.width) seg.kind.width⟩

/-- One more than the largest address of the command. -/
def SegmentCommand.limit (seg : SegmentCommand) : Nat := 2 ^ (8 * seg.kind.width)

/-- The checks of the last pass, whose sums have the width of the command. -/
def SegmentCommand.badSection (enforceFormat : Malformed → Bool) (seg : SegmentCommand)
    (sect : Section) : Bool :=
  if 2 ^ 63 ≤ sect.size then true
  else if sect.addr < seg.vmaddr then true
  else if (sect.addr + sect.size) % seg.limit > (seg.vmaddr + seg.vmsize) % seg.limit then
    match seg.kind with
    | .segment64 => enforceFormat .sectionsAddrRangeWithinSegment
    | .segment => true
  else false

/-! ### Segments -/

/-- The check of the permissions in the second pass. -/
def badPermissions (enforceFormat : Malformed → Bool) (m : Mem) (info : SegmentInfo) : Bool :=
  if isName m info.segName textName then
    info.protections != 5 && enforceFormat .textPermissions
  else if isName m info.segName linkeditName then
    info.protections != 1 && enforceFormat .linkeditPermissions
  else info.protections &&& 0xFFFFFFF8 != 0

def badSize (is64 : Bool) (fileLen : Nat) (info : SegmentInfo) : Bool :=
  badRange is64 fileLen info.fileOffset info.fileSize info.vmAddr info.vmSize

/-- The test of two segments in the third pass. -/
def badSegments (enforceOrder : Bool) (info1 info2 : SegmentInfo) : Bool :=
  info1.segIndex != info2.segIndex &&
    (overlaps info1.vmAddr info1.vmSize info2.vmAddr info2.vmSize ||
      overlaps info1.fileOffset info1.fileSize info2.fileOffset info2.fileSize ||
      (info1.segIndex < info2.segIndex &&
        outOfOrder info1.vmAddr info1.fileOffset info2.vmAddr info2.fileOffset && enforceOrder))

namespace MachOBuffer

variable (b : MachOBuffer)

def segments : List SegmentCommand :=
  match b.forEachLoadCommand with
  | .ok cmds => segmentCommands b.bytes cmds
  | .error _ => []

def hasLoadCommand (type : Nat) : Bool :=
  match b.forEachLoadCommand with
  | .ok cmds => cmds.any (fun cmd => commandType b.bytes cmd == type)
  | .error _ => false

/-- `isStaticExecutable`: an `MH_EXECUTE` without `LC_LOAD_DYLINKER`. -/
def isStaticExecutable : Bool := b.filetype == 2 && !b.hasLoadCommand 0xE

def enforcesOrder (enforceFormat : Malformed → Bool) : Bool :=
  !b.inDyldCache && enforceFormat .segmentOrder && !b.isStaticExecutable

def validSegments (enforceFormat : Malformed → Bool) (fileLen : Nat) : Option Bool :=
  b.forEachSegment.map fun infos =>
    if b.segments.any (·.badSegmentLoadCommand fileLen) then false
    else if infos.any (badPermissions enforceFormat b.bytes) || infos.any (badSize b.is64 fileLen) then
      false
    else if !infos.any (fun info => isName b.bytes info.segName textName) then false
    else if !infos.any (fun info => isName b.bytes info.segName linkeditName) then false
    else if infos.any (fun info1 => infos.any (badSegments (b.enforcesOrder enforceFormat) info1)) then
      false
    else !b.segments.any (fun seg => (seg.sections b.bytes).any (seg.badSection enforceFormat))

/-! ### What validation is meant to say -/

/-- One more than the largest address of a file. -/
def addressSpace : Nat := if b.is64 then 2 ^ 64 else 2 ^ 32

end MachOBuffer

namespace SegmentCommand

variable (seg : SegmentCommand)

/-- The addresses of the segment. -/
def vmRange : Set Nat := Set.Ico seg.vmaddr (seg.vmaddr + seg.vmsize)

def fileRange : Set Nat := Set.Ico seg.fileoff (seg.fileoff + seg.filesize)

end SegmentCommand

def Section.range (sect : Section) : Set Nat := Set.Ico sect.addr (sect.addr + sect.size)

namespace MachOBuffer

variable (b : MachOBuffer)

structure SoundSegments (fileLen : Nat) : Prop where
  inFile : ∀ seg ∈ b.segments, seg.fileoff + seg.filesize ≤ fileLen
  inAddressSpace : ∀ seg ∈ b.segments, seg.vmaddr + seg.vmsize ≤ b.addressSpace
  vmDisjoint : b.segments.Pairwise fun seg1 seg2 => Disjoint seg1.vmRange seg2.vmRange
  fileDisjoint : b.segments.Pairwise fun seg1 seg2 => Disjoint seg1.fileRange seg2.fileRange
  ordered : b.segments.Pairwise fun seg1 seg2 => seg1.vmaddr ≤ seg2.vmaddr
  sections : ∀ seg ∈ b.segments, ∀ sect ∈ seg.sections b.bytes, sect.range ⊆ seg.vmRange

/-- The sums that are compared are the ends of the sections, a 32-bit file has no segment beyond
its address space, and where the order is not checked it is right. -/
structure ExactSegments (enforceFormat : Malformed → Bool) : Prop where
  noWrap : ∀ seg ∈ b.segments, ∀ sect ∈ seg.sections b.bytes,
    sect.addr + sect.size < seg.limit ∨ seg.limit ≤ seg.vmaddr + seg.vmsize
  wide : b.is64 = false → ∀ seg ∈ b.segments, seg.kind = .segment64 →
    seg.vmaddr + seg.vmsize ≤ 2 ^ 32
  order : b.enforcesOrder enforceFormat = false →
    b.segments.Pairwise fun seg1 seg2 => seg1.vmaddr ≤ seg2.vmaddr

/-! ### What acceptance says -/

variable {b} {enforceFormat : Malformed → Bool} {fileLen : Nat}

structure PassedChecks (b : MachOBuffer) (enforceFormat : Malformed → Bool) (fileLen : Nat) :
    Prop where
  size : ∀ seg ∈ b.segments, badSize b.is64 fileLen (seg.info 0) = false
  pair : ∀ i j (hi : i < b.segments.length) (hj : j < b.segments.length),
    badSegments (b.enforcesOrder enforceFormat) (b.segments[i].info i) (b.segments[j].info j) = false
  sect : ∀ seg ∈ b.segments, ∀ sect ∈ seg.sections b.bytes, seg.badSection enforceFormat sect = false

lemma forEachSegment_eq_some {infos : List SegmentInfo} (h : b.forEachSegment = some infos) :
    infos = b.segments.mapIdx (fun i seg => seg.info i) := by
  unfold forEachSegment at h
  unfold segments
  cases hwalk : b.forEachLoadCommand with
  | error e =>
    rw [hwalk] at h
    cases h
  | ok cmds =>
    rw [hwalk] at h
    cases h
    rfl

lemma passedChecks (h : b.validSegments enforceFormat fileLen = some true) :
    b.PassedChecks enforceFormat fileLen := by
  obtain ⟨infos, hinfos, hvalid⟩ := Option.map_eq_some_iff.mp h
  have heq := forEachSegment_eq_some hinfos
  have hmem : ∀ i (hi : i < b.segments.length), b.segments[i].info i ∈ infos := by
    intro i hi
    rw [heq]
    exact List.mem_mapIdx.mpr ⟨i, hi, rfl⟩
  split_ifs at hvalid with hcommand hsize htext hlinkedit hpair
  constructor
  · intro seg hseg
    obtain ⟨i, hi, rfl⟩ := List.getElem_of_mem hseg
    rw [Bool.or_eq_true, not_or] at hsize
    exact Bool.eq_false_iff.mpr (fun hbad => hsize.2 (List.any_eq_true.mpr ⟨_, hmem i hi, hbad⟩))
  · intro i j hi hj
    apply Bool.eq_false_iff.mpr
    intro hbad
    apply hpair
    exact List.any_eq_true.mpr ⟨_, hmem i hi, List.any_eq_true.mpr ⟨_, hmem j hj, hbad⟩⟩
  · intro seg hseg sect hsect
    apply Bool.eq_false_iff.mpr
    intro hbad
    rw [Bool.not_eq_true', ← Bool.not_eq_true] at hvalid
    apply hvalid
    exact List.any_eq_true.mpr ⟨seg, hseg, List.any_eq_true.mpr ⟨sect, hsect, hbad⟩⟩

lemma lt_limit {seg : SegmentCommand} (h : seg ∈ b.segments) :
    seg.vmaddr < seg.limit ∧ seg.vmsize < seg.limit := by
  unfold segments at h
  split at h
  · obtain ⟨cmd, -, hcmd⟩ := List.mem_filterMap.mp h
    obtain ⟨kind, -, rfl⟩ := Option.map_eq_some_iff.mp hcmd
    exact ⟨loadNat_lt _ _ _, loadNat_lt _ _ _⟩
  · cases h

lemma section_lt_limit {seg : SegmentCommand} {sect : Section} (h : sect ∈ seg.sections b.bytes) :
    sect.addr < seg.limit ∧ sect.size < seg.limit := by
  obtain ⟨i, -, rfl⟩ := List.mem_map.mp h
  exact ⟨loadNat_lt _ _ _, loadNat_lt _ _ _⟩

end MachOBuffer

lemma SegmentCommand.limit_cases (seg : SegmentCommand) :
    (seg.kind = .segment ∧ seg.limit = 2 ^ 32) ∨ (seg.kind = .segment64 ∧ seg.limit = 2 ^ 64) := by
  unfold SegmentCommand.limit
  cases seg.kind <;> simp [SegmentKind.width]

/-- Ranges whose ends are no wrapped sums are disjoint when the test finds no overlap. -/
lemma disjoint_of_overlaps {start1 size1 start2 size2 : Nat} (h1 : start1 + size1 < 2 ^ 64)
    (h2 : start2 + size2 < 2 ^ 64) (h : overlaps start1 size1 start2 size2 = false) :
    Disjoint (Set.Ico start1 (start1 + size1)) (Set.Ico start2 (start2 + size2)) := by
  rw [Set.disjoint_left]
  intro x hx1 hx2
  rw [Set.mem_Ico] at hx1 hx2
  rw [overlaps, Nat.mod_eq_of_lt h1, Nat.mod_eq_of_lt h2] at h
  simp only [Bool.or_eq_false_iff, Bool.and_eq_false_iff, decide_eq_false_iff_not] at h
  omega

lemma badSegments_eq_false {enforceOrder : Bool} {info1 info2 : SegmentInfo}
    (hlt : info1.segIndex < info2.segIndex) (h : badSegments enforceOrder info1 info2 = false) :
    overlaps info1.vmAddr info1.vmSize info2.vmAddr info2.vmSize = false ∧
      overlaps info1.fileOffset info1.fileSize info2.fileOffset info2.fileSize = false ∧
      (enforceOrder = true → info1.vmAddr ≤ info2.vmAddr) := by
  have hne : info1.segIndex ≠ info2.segIndex := by omega
  simp only [badSegments, outOfOrder, bne_iff_ne.mpr hne, decide_eq_true hlt, Bool.true_and,
    Bool.or_eq_false_iff] at h
  refine ⟨h.1.1, h.1.2, ?_⟩
  rintro rfl
  rw [Bool.and_true, Bool.or_eq_false_iff, decide_eq_false_iff_not] at h
  omega

/-- A section that passes its check lies in the segment exactly when its end is no wrapped sum, or
the end of the segment wraps around as well. -/
lemma SegmentCommand.section_subset_iff {seg : SegmentCommand} {sect : Section}
    (hseg : seg.vmaddr < seg.limit ∧ seg.vmsize < seg.limit)
    (hsect : sect.addr < seg.limit ∧ sect.size < seg.limit)
    (h : seg.badSection (fun _ => true) sect = false) :
    sect.range ⊆ seg.vmRange ↔
      sect.addr + sect.size < seg.limit ∨ seg.limit ≤ seg.vmaddr + seg.vmsize := by
  have hcheck : seg.vmaddr ≤ sect.addr ∧
      (sect.addr + sect.size) % seg.limit ≤ (seg.vmaddr + seg.vmsize) % seg.limit := by
    unfold SegmentCommand.badSection at h
    split_ifs at h with h1 h2 h3
    · cases hkind : seg.kind <;> rw [hkind] at h <;> cases h
    · omega
  unfold Section.range SegmentCommand.vmRange
  by_cases hempty : sect.size = 0
  · rw [hempty, Nat.add_zero, Set.Ico_self]
    simp only [Set.empty_subset, true_iff]
    exact Or.inl hsect.1
  · rw [Set.Ico_subset_Ico_iff (by omega)]
    rcases seg.limit_cases with ⟨-, hlimit⟩ | ⟨-, hlimit⟩
    · rw [hlimit] at hseg hsect hcheck ⊢
      omega
    · rw [hlimit] at hseg hsect hcheck ⊢
      omega

namespace MachOBuffer

variable {b : MachOBuffer} {fileLen : Nat}

/-- An accepted segment ends before the end of the file; its range wraps around at most in a
32-bit file with a 64-bit command. -/
lemma PassedChecks.segment {enforceFormat : Malformed → Bool}
    (h : b.PassedChecks enforceFormat fileLen) {seg : SegmentCommand} (hseg : seg ∈ b.segments) :
    seg.fileoff + seg.filesize ≤ fileLen ∧
      (seg.vmaddr + seg.vmsize < b.addressSpace ∨ b.is64 = false ∧ seg.kind = .segment64) := by
  have hsize := h.size seg hseg
  have hlt := lt_limit hseg
  rw [badSize, badRange, Bool.or_eq_false_iff, greaterThanAddOrOverflow_eq_false] at hsize
  refine ⟨hsize.1, ?_⟩
  have hrange := hsize.2
  unfold addressSpace
  cases hfile : b.is64 with
  | true =>
    rw [hfile, if_pos rfl, decide_eq_false_iff_not] at hrange
    change ¬(seg.vmaddr + seg.vmsize) % 2 ^ 64 < seg.vmaddr at hrange
    rw [if_pos rfl]
    rcases seg.limit_cases with ⟨-, hlimit⟩ | ⟨-, hlimit⟩ <;> rw [hlimit] at hlt <;> omega
  | false =>
    rw [hfile, if_neg Bool.false_ne_true, decide_eq_false_iff_not] at hrange
    change ¬(seg.vmaddr + seg.vmsize) % 2 ^ 32 < seg.vmaddr % 2 ^ 32 at hrange
    rw [if_neg Bool.false_ne_true]
    rcases seg.limit_cases with ⟨-, hlimit⟩ | ⟨hkind, -⟩
    · rw [hlimit] at hlt
      omega
    · exact Or.inr ⟨rfl, hkind⟩

theorem validSegments_sound_iff (b : MachOBuffer) (fileLen : Nat) (hlen : fileLen < 2 ^ 64)
    (h : b.validSegments (fun _ => true) fileLen = some true) :
    b.SoundSegments fileLen ↔ b.ExactSegments (fun _ => true) := by
  have hpassed := passedChecks h
  have hsections : ∀ seg ∈ b.segments, ∀ sect ∈ seg.sections b.bytes,
      (sect.range ⊆ seg.vmRange ↔
        sect.addr + sect.size < seg.limit ∨ seg.limit ≤ seg.vmaddr + seg.vmsize) := by
    intro seg hseg sect hsect
    exact SegmentCommand.section_subset_iff (lt_limit hseg) (section_lt_limit hsect)
      (hpassed.sect seg hseg sect hsect)
  constructor
  · intro hsound
    constructor
    · intro seg hseg sect hsect
      exact (hsections seg hseg sect hsect).mp (hsound.sections seg hseg sect hsect)
    · intro h32 seg hseg _
      have := hsound.inAddressSpace seg hseg
      unfold addressSpace at this
      rwa [h32] at this
    · intro _
      exact hsound.ordered
  · intro hexact
    have hspace : ∀ seg ∈ b.segments, seg.vmaddr + seg.vmsize ≤ b.addressSpace := by
      intro seg hseg
      rcases (hpassed.segment hseg).2 with hlt | ⟨h32, hkind⟩
      · exact hlt.le
      · unfold addressSpace
        rw [h32]
        exact hexact.wide h32 seg hseg hkind
    have hend : ∀ seg ∈ b.segments, seg.vmaddr + seg.vmsize < 2 ^ 64 := by
      intro seg hseg
      rcases (hpassed.segment hseg).2 with hlt | ⟨h32, hkind⟩
      · unfold addressSpace at hlt
        split_ifs at hlt <;> omega
      · have := hexact.wide h32 seg hseg hkind
        omega
    constructor
    · intro seg hseg
      exact (hpassed.segment hseg).1
    · exact hspace
    · rw [List.pairwise_iff_getElem]
      intro i j hi hj hij
      have hpair := badSegments_eq_false hij (hpassed.pair i j hi hj)
      exact disjoint_of_overlaps (hend _ (List.getElem_mem hi)) (hend _ (List.getElem_mem hj)) hpair.1
    · rw [List.pairwise_iff_getElem]
      intro i j hi hj hij
      have hpair := badSegments_eq_false hij (hpassed.pair i j hi hj)
      have hfile1 := (hpassed.segment (List.getElem_mem hi)).1
      have hfile2 := (hpassed.segment (List.getElem_mem hj)).1
      exact disjoint_of_overlaps (by omega) (by omega) hpair.2.1
    · cases horder : b.enforcesOrder (fun _ => true) with
      | false => exact hexact.order horder
      | true =>
        rw [List.pairwise_iff_getElem]
        intro i j hi hj hij
        exact (badSegments_eq_false hij (hpassed.pair i j hi hj)).2.2 horder
    · intro seg hseg sect hsect
      exact (hsections seg hseg sect hsect).mpr (hexact.noWrap seg hseg sect hsect)

def oneSection (addr size : Nat) : MachOBuffer where
  bytes := fun x => (natBytes 4 0xfeedfacf ++ natBytes 8 0 ++ natBytes 4 6 ++ natBytes 4 2 ++
    natBytes 4 224 ++ natBytes 8 0 ++
    segment64Bytes 152 textName 0x1000 0x1000 0 0x1000 5 1 ++ List.replicate 32 0 ++
    natBytes 8 addr ++ natBytes 8 size ++ List.replicate 32 0 ++
    segment64Bytes 72 linkeditName 0x2000 0x1000 0x1000 0x1000 1 0).getD x 0

/-- A section at the start of `__TEXT` has no wrapped end. -/
theorem validSegments_sound_iff_oneSection :
    (oneSection 0x1000 0x10).SoundSegments 0x2000 ↔
      (oneSection 0x1000 0x10).ExactSegments (fun _ => true) :=
  validSegments_sound_iff (oneSection 0x1000 0x10) 0x2000 (by norm_num) (by decide +kernel)

/-- The last address of the address space is accepted as a section of `__TEXT`. -/
theorem validSegments_accepts_wrapped_section :
    (oneSection (2 ^ 64 - 1) 1).validSegments (fun _ => true) 0x2000 = some true ∧
      ¬(oneSection (2 ^ 64 - 1) 1).SoundSegments 0x2000 := by
  constructor
  · decide +kernel
  · intro hsound
    have hsection : ∃ seg ∈ (oneSection (2 ^ 64 - 1) 1).segments,
        ∃ sect ∈ seg.sections (oneSection (2 ^ 64 - 1) 1).bytes,
          sect.addr = 2 ^ 64 - 1 ∧ sect.size = 1 ∧ seg.vmaddr + seg.vmsize = 0x2000 := by
      decide +kernel
    obtain ⟨seg, hseg, sect, hsect, haddr, hsize, hend⟩ := hsection
    have hmem : sect.addr ∈ sect.range := Set.mem_Ico.mpr ⟨le_rfl, by omega⟩
    have hlt := (Set.mem_Ico.mp (hsound.sections seg hseg sect hsect hmem)).2
    omega

end MachOBuffer

end Dyld.MachO
