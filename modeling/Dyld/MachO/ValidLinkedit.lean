import Dyld.MachO.ValidSegments

/-!
# Validation of the layout of `__LINKEDIT`

`MachOAnalyzer::validLinkeditLayout` collects the tables that the load commands place in
`__LINKEDIT`, sorts them, and checks that they follow each other inside the segment. The sizes of
relocations and of the symbol table are 32-bit products that can wrap around before they are
checked, and the ranges of symbols are checked for each end alone.
-/

namespace Dyld.MachO

open Dyld.Lib

/-! ### Load commands with content in `__LINKEDIT` -/

inductive LinkEditCommand
  | dyldInfo
  | exportsTrie
  | chainedFixups
  | symTab
  | dynSymTab
  | splitSegInfo
  | functionStarts
  | dataInCode
  | codeSig
  deriving DecidableEq, Repr

namespace LinkEditCommand

def ofType (type : Nat) : Option LinkEditCommand :=
  if type = 0x22 ∨ type = 0x80000022 then some dyldInfo
  else if type = 0x80000033 then some exportsTrie
  else if type = 0x80000034 then some chainedFixups
  else if type = 0x2 then some symTab
  else if type = 0xB then some dynSymTab
  else if type = 0x1E then some splitSegInfo
  else if type = 0x26 then some functionStarts
  else if type = 0x29 then some dataInCode
  else if type = 0x1D then some codeSig
  else none

/-- The size that the command must have. -/
def sizeofCommand : LinkEditCommand → Nat
  | dyldInfo => 48
  | symTab => 24
  | dynSymTab => 80
  | exportsTrie | chainedFixups | splitSegInfo | functionStarts | dataInCode | codeSig => 16

end LinkEditCommand

/-- The contents of `__LINKEDIT`. -/
inductive ChunkName
  | rebaseOpcodes
  | bindOpcodes
  | weakBindOpcodes
  | lazyBindOpcodes
  | exportsTrie
  | chainedFixups
  | localRelocations
  | externalRelocations
  | indirectSymbolTable
  | sharedCacheInfo
  | functionStarts
  | dataInCode
  | symbolTable
  | symbolTableStrings
  | codeSignature
  deriving DecidableEq, Repr

/-- What `diag.error` was called with. -/
inductive LinkEditError
  | walk (e : LoadCommandError)
  | sizeWrong (type : Nat)
  | multiple (type : Nat)
  | encryptionInfoIn64Bit
  | encryptionInfo64In32Bit
  | dynSymTabWithoutSymTab
  | dyldInfoOnlyAndLocalRelocations
  | dyldInfoOnlyAndExternalRelocations
  | missingDyldInfoAndDynSymTab
  | missingLinkedit
  | overlap (prev : Option ChunkName) (name : ChunkName)
  | beyondEnd (name : ChunkName)
  | misaligned (name : ChunkName)
  | symbolTableTooLarge
  | indirectSymbolTableTooLarge
  | localSymbolsExceed
  | localSymbolsWrap
  | externSymbolsExceed
  | externSymbolsWrap
  | undefinedSymbolsExceed
  | undefinedSymbolsWrap
  deriving DecidableEq, Repr

/-- The block variables of `getLinkEditLoadCommands`. -/
structure LinkEditScan where
  command : LinkEditCommand → Option Nat
  hasUUID : Bool
  hasMinVersion : Bool
  hasEncrypt : Bool
  diag : Option LinkEditError

/-- The checks of a command of which a file may have one. -/
def LinkEditScan.oneOf (s : LinkEditScan) (seen sizeOk : Bool) (type : Nat) : Option LinkEditError :=
  if !sizeOk then some (.sizeWrong type) else if seen then some (.multiple type) else s.diag

/-- The callback of `getLinkEditLoadCommands`. -/
def scanCommand (is64 : Bool) (m : Mem) (s : LinkEditScan) (cmd : Nat) : LinkEditScan :=
  let type := commandType m cmd
  let size := cmdsize m cmd
  match LinkEditCommand.ofType type with
  | some c =>
    { s with
      command := Function.update s.command c (some cmd)
      diag := s.oneOf (s.command c).isSome (size == c.sizeofCommand) type }
  | none =>
    if type = 0x1B then
      { s with hasUUID := true, diag := s.oneOf s.hasUUID (size == 24) type }
    else if type = 0x24 ∨ type = 0x25 ∨ type = 0x2F ∨ type = 0x30 then
      { s with hasMinVersion := true, diag := s.oneOf s.hasMinVersion (size == 16) type }
    else if type = 0x32 then
      { s with diag := s.oneOf false (size == 24 + loadNat m (cmd + 20) 4 * 8) type }
    else if type = 0x21 then
      { s with
        hasEncrypt := true
        diag :=
          if is64 && size == 20 && !s.hasEncrypt then some .encryptionInfoIn64Bit
          else s.oneOf s.hasEncrypt (size == 20) type }
    else if type = 0x2C then
      { s with
        hasEncrypt := true
        diag :=
          if !is64 && size == 24 && !s.hasEncrypt then some .encryptionInfo64In32Bit
          else s.oneOf s.hasEncrypt (size == 24) type }
    else s

structure LayoutInfo where
  linkeditFileOffset : UInt32
  linkeditFileSize : UInt32

structure LinkEditInfo where
  command : LinkEditCommand → Option Nat
  layout : LayoutInfo

namespace MachOBuffer

variable (b : MachOBuffer)

def getLinkEditLoadCommands : Except LinkEditError (LinkEditCommand → Option Nat) :=
  match b.forEachLoadCommand with
  | .error e => .error (.walk e)
  | .ok cmds =>
    let s := cmds.foldl (scanCommand b.is64 b.bytes) ⟨fun _ => none, false, false, false, none⟩
    match s.diag with
    | some e => .error e
    | none =>
      if (s.command .dynSymTab).isSome && (s.command .symTab).isNone then
        .error .dynSymTabWithoutSymTab
      else .ok s.command

/-- `getLayoutInfo`. A file without `__LINKEDIT` leaves the fields as they are. -/
def getLayoutInfo (uninit : LayoutInfo) : LayoutInfo :=
  b.segments.foldl (fun layout seg =>
    if isName b.bytes (seg.cmd + 8) textName then layout
    else if isName b.bytes (seg.cmd + 8) linkeditName then
      ⟨UInt32.ofNat seg.fileoff, UInt32.ofNat seg.filesize⟩
    else layout) uninit

def getLinkEditPointers (uninit : LayoutInfo) : Except LinkEditError LinkEditInfo :=
  b.getLinkEditLoadCommands.map (fun command => ⟨command, b.getLayoutInfo uninit⟩)

def pointerSize : Nat := if b.is64 then 8 else 4

def field (cmd offset : Nat) : Nat := loadNat b.bytes (cmd + offset) 4

def sizeofNlist : Nat := if b.pointerSize = 8 then 16 else 12

end MachOBuffer

/-! ### Contents -/

structure LinkEditContentChunk where
  name : ChunkName
  alignment : Nat
  fileOffsetStart : Nat
  size : Nat
  deriving DecidableEq

/-- The entry of a table that is not empty. -/
def chunk (name : ChunkName) (alignment fileOffsetStart count size : Nat) :
    List LinkEditContentChunk :=
  if count ≠ 0 then [⟨name, alignment, fileOffsetStart, size⟩] else []

namespace MachOBuffer

variable (b : MachOBuffer) (command : LinkEditCommand → Option Nat)

def dataChunk (name : ChunkName) (c : LinkEditCommand) : List LinkEditContentChunk :=
  (command c).elim [] fun cmd =>
    chunk name b.pointerSize (b.field cmd 8) (b.field cmd 12) (b.field cmd 12)

def contents (product : Nat → Nat) : List LinkEditContentChunk :=
  ((command .dyldInfo).elim [] fun cmd =>
    chunk .rebaseOpcodes b.pointerSize (b.field cmd 8) (b.field cmd 12) (b.field cmd 12) ++
    chunk .bindOpcodes b.pointerSize (b.field cmd 16) (b.field cmd 20) (b.field cmd 20) ++
    chunk .weakBindOpcodes b.pointerSize (b.field cmd 24) (b.field cmd 28) (b.field cmd 28) ++
    chunk .lazyBindOpcodes b.pointerSize (b.field cmd 32) (b.field cmd 36) (b.field cmd 36) ++
    chunk .exportsTrie b.pointerSize (b.field cmd 40) (b.field cmd 44) (b.field cmd 44)) ++
  b.dataChunk command .exportsTrie .exportsTrie ++
  b.dataChunk command .chainedFixups .chainedFixups ++
  ((command .dynSymTab).elim [] fun cmd =>
    chunk .localRelocations b.pointerSize (b.field cmd 72) (b.field cmd 76)
      (product (b.field cmd 76 * 8)) ++
    chunk .externalRelocations b.pointerSize (b.field cmd 64) (b.field cmd 68)
      (product (b.field cmd 68 * 8)) ++
    chunk .indirectSymbolTable 4 (b.field cmd 56) (b.field cmd 60) (product (b.field cmd 60 * 4))) ++
  b.dataChunk command .sharedCacheInfo .splitSegInfo ++
  b.dataChunk command .functionStarts .functionStarts ++
  b.dataChunk command .dataInCode .dataInCode ++
  ((command .symTab).elim [] fun cmd =>
    chunk .symbolTable b.pointerSize (b.field cmd 8) (b.field cmd 12)
      (product (b.field cmd 12 * b.sizeofNlist)) ++
    chunk .symbolTableStrings 1 (b.field cmd 16) (b.field cmd 20) (b.field cmd 20)) ++
  b.dataChunk command .codeSignature .codeSig

/-- The blobs that the code collects. -/
def blobs : List LinkEditContentChunk := b.contents command (· % 2 ^ 32)

/-! ### Validation -/

def badCombination (enforceFormat : Malformed → Bool) : Option LinkEditError :=
  let dyldInfoOnly := (command .dyldInfo).any (fun cmd => commandType b.bytes cmd == 0x80000022)
  if dyldInfoOnly && (command .dynSymTab).any (fun cmd => b.field cmd 76 != 0) &&
      enforceFormat .dyldInfoAndlocalRelocs then some .dyldInfoOnlyAndLocalRelocations
  else if dyldInfoOnly && (command .dynSymTab).any (fun cmd => b.field cmd 68 != 0) then
    some .dyldInfoOnlyAndExternalRelocations
  else if (command .dyldInfo).isNone && (command .dynSymTab).isNone then
    some .missingDyldInfoAndDynSymTab
  else none

def checkRange (dynSymTab nsyms offset : Nat) (exceed wrap : LinkEditError) : Option LinkEditError :=
  let i := b.field dynSymTab offset
  let n := b.field dynSymTab (offset + 4)
  if n > nsyms ∨ i > nsyms then some exceed
  else if (i + n) % 2 ^ 32 < i then some wrap
  else none

def checkSymbols : Option LinkEditError :=
  match command .symTab with
  | none => none
  | some symTab =>
    let nsyms := b.field symTab 12
    if nsyms > 0x10000000 then some .symbolTableTooLarge
    else
      match command .dynSymTab with
      | none => none
      | some dynSymTab =>
        if b.field dynSymTab 60 > 0x10000000 then some .indirectSymbolTableTooLarge
        else
          (b.checkRange dynSymTab nsyms 8 .localSymbolsExceed .localSymbolsWrap).or
          ((b.checkRange dynSymTab nsyms 16 .externSymbolsExceed .externSymbolsWrap).or
          (b.checkRange dynSymTab nsyms 24 .undefinedSymbolsExceed .undefinedSymbolsWrap))

end MachOBuffer

def LinkEditContentChunk.isMisaligned (enforceFormat : Malformed → Bool)
    (blob : LinkEditContentChunk) : Bool :=
  blob.fileOffsetStart &&& (blob.alignment - 1) != 0 &&
    enforceFormat (if blob.name = .codeSignature then .codeSigAlignment else .linkeditAlignment)

/-- The loop over the sorted blobs. -/
def checkBlobs (enforceFormat : Malformed → Bool) (linkeditFileEnd : Nat) :
    Nat → Option ChunkName → Option LinkEditError → List LinkEditContentChunk →
      Bool × Option LinkEditError
  | _, _, diag, [] => (true, diag)
  | prevEnd, prevName, diag, blob :: blobs =>
    if blob.fileOffsetStart < prevEnd then (false, some (.overlap prevName blob.name))
    else if greaterThanAddOrOverflow blob.fileOffsetStart blob.size linkeditFileEnd then
      (false, some (.beyondEnd blob.name))
    else
      checkBlobs enforceFormat linkeditFileEnd ((blob.fileOffsetStart + blob.size) % 2 ^ 32)
        (some blob.name)
        (if blob.isMisaligned enforceFormat then some (.misaligned blob.name) else diag) blobs

def MachOBuffer.validLinkeditLayout (b : MachOBuffer) (enforceFormat : Malformed → Bool)
    (qsort : List LinkEditContentChunk → List LinkEditContentChunk) (uninit : LayoutInfo) :
    Bool × Option LinkEditError :=
  match b.getLinkEditPointers uninit with
  | .error e => (false, some e)
  | .ok leInfo =>
    match b.badCombination leInfo.command enforceFormat with
    | some e => (false, some e)
    | none =>
      if b.blobs leInfo.command = [] then (false, some .missingLinkedit)
      else
        let linkeditFileEnd := leInfo.layout.linkeditFileOffset + leInfo.layout.linkeditFileSize
        let (ok, diag) := checkBlobs enforceFormat linkeditFileEnd.toNat
          leInfo.layout.linkeditFileOffset.toNat none none (qsort (b.blobs leInfo.command))
        if !ok then (false, diag)
        else
          match b.checkSymbols leInfo.command with
          | some e => (false, some e)
          | none => (true, diag)

/-! ### What validation is meant to say -/

/-- The place of a table in the file. -/
def LinkEditContentChunk.range (t : LinkEditContentChunk) : Set Nat :=
  Set.Ico t.fileOffsetStart (t.fileOffsetStart + t.size)

namespace MachOBuffer

variable (b : MachOBuffer)

/-- The tables with their sizes as natural numbers. -/
def tables (command : LinkEditCommand → Option Nat) : List LinkEditContentChunk := b.contents command id

structure SoundLinkedit (leInfo : LinkEditInfo) : Prop where
  inside : ∀ t ∈ b.tables leInfo.command, leInfo.layout.linkeditFileOffset.toNat ≤ t.fileOffsetStart ∧
    t.fileOffsetStart + t.size ≤
      leInfo.layout.linkeditFileOffset.toNat + leInfo.layout.linkeditFileSize.toNat
  disjoint : (b.tables leInfo.command).Pairwise fun s t => Disjoint s.range t.range
  symbols : ∀ symTab dynSymTab, leInfo.command .symTab = some symTab →
    leInfo.command .dynSymTab = some dynSymTab → ∀ offset ∈ [8, 16, 24],
      Set.Ico (b.field dynSymTab offset) (b.field dynSymTab offset + b.field dynSymTab (offset + 4)) ⊆
        Set.Ico 0 (b.field symTab 12)

/-- The sizes of relocations and of the symbol table have 32 bits, and the ranges of symbols
end before the number of symbols. -/
structure CountsFit (command : LinkEditCommand → Option Nat) : Prop where
  relocations : ∀ dynSymTab, command .dynSymTab = some dynSymTab →
    b.field dynSymTab 76 * 8 < 2 ^ 32 ∧ b.field dynSymTab 68 * 8 < 2 ^ 32
  nlists : ∀ symTab, command .symTab = some symTab → b.field symTab 12 * b.sizeofNlist < 2 ^ 32
  symbols : ∀ symTab dynSymTab, command .symTab = some symTab →
    command .dynSymTab = some dynSymTab → ∀ offset ∈ [8, 16, 24],
      b.field dynSymTab offset + b.field dynSymTab (offset + 4) ≤ b.field symTab 12

end MachOBuffer

/-! ### What acceptance says -/

section Loop

variable {enforceFormat : Malformed → Bool} {linkeditFileEnd : Nat}

lemma checkBlobs_ok (hend : linkeditFileEnd < 2 ^ 32) {prevEnd : Nat} {prevName : Option ChunkName}
    {diag : Option LinkEditError} {blobs : List LinkEditContentChunk}
    (h : (checkBlobs enforceFormat linkeditFileEnd prevEnd prevName diag blobs).1 = true) :
    (∀ t ∈ blobs, prevEnd ≤ t.fileOffsetStart ∧ t.fileOffsetStart + t.size ≤ linkeditFileEnd) ∧
      blobs.Pairwise fun s t => s.fileOffsetStart + s.size ≤ t.fileOffsetStart := by
  induction blobs generalizing prevEnd prevName diag with
  | nil => simp
  | cons blob blobs ih =>
    rw [checkBlobs] at h
    split_ifs at h with hprev hbeyond hmis
    all_goals
      rw [Bool.not_eq_true, greaterThanAddOrOverflow_eq_false] at hbeyond
      obtain ⟨hinside, hpair⟩ := ih h
      rw [Nat.mod_eq_of_lt (by omega)] at hinside
      constructor
      · intro t ht
        rw [List.mem_cons] at ht
        rcases ht with rfl | ht
        · omega
        · have := hinside t ht
          omega
      · rw [List.pairwise_cons]
        exact ⟨fun t ht => (hinside t ht).1, hpair⟩

end Loop

lemma LinkEditContentChunk.disjoint_of_le {s t : LinkEditContentChunk}
    (h : s.fileOffsetStart + s.size ≤ t.fileOffsetStart) : Disjoint s.range t.range := by
  rw [Set.disjoint_left]
  intro x hs ht
  have hlt := (Set.mem_Ico.mp hs).2
  have hle := (Set.mem_Ico.mp ht).1
  omega

namespace MachOBuffer

variable {b : MachOBuffer} {command : LinkEditCommand → Option Nat}

lemma symTab_of_dynSymTab (h : b.getLinkEditLoadCommands = .ok command) {dynSymTab : Nat}
    (hdyn : command .dynSymTab = some dynSymTab) : ∃ symTab, command .symTab = some symTab := by
  unfold getLinkEditLoadCommands at h
  split at h
  · cases h
  · dsimp only at h
    split at h
    · cases h
    · split_ifs at h with hmissing
      cases h
      rw [hdyn, Option.isSome_some, Bool.true_and, Option.isNone_iff_eq_none] at hmissing
      exact Option.ne_none_iff_exists'.mp hmissing

lemma checkRange_eq_none {dynSymTab nsyms offset : Nat} {exceed wrap : LinkEditError}
    (h : b.checkRange dynSymTab nsyms offset exceed wrap = none) :
    b.field dynSymTab offset ≤ nsyms := by
  unfold checkRange at h
  dsimp only at h
  split_ifs at h with hexceed hwrap
  omega

lemma checkSymbols_eq_none (h : b.checkSymbols command = none) {symTab dynSymTab : Nat}
    (hsym : command .symTab = some symTab) (hdyn : command .dynSymTab = some dynSymTab) :
    b.field dynSymTab 60 * 4 < 2 ^ 32 ∧
      ∀ offset ∈ [8, 16, 24], b.field dynSymTab offset ≤ b.field symTab 12 := by
  rw [checkSymbols, hsym, hdyn] at h
  dsimp only at h
  split_ifs at h with hnsyms hindirect
  rw [Option.or_eq_none_iff, Option.or_eq_none_iff] at h
  refine ⟨by omega, ?_⟩
  intro offset hoffset
  simp only [List.mem_cons, List.not_mem_nil, or_false] at hoffset
  rcases hoffset with rfl | rfl | rfl
  · exact checkRange_eq_none h.1
  · exact checkRange_eq_none h.2.1
  · exact checkRange_eq_none h.2.2

lemma blobs_eq_tables (hfit : b.CountsFit command)
    (hindirect : ∀ dynSymTab, command .dynSymTab = some dynSymTab →
      b.field dynSymTab 60 * 4 < 2 ^ 32) : b.blobs command = b.tables command := by
  have hdyn : ∀ cmd, command .dynSymTab = some cmd →
      b.field cmd 76 * 8 % 2 ^ 32 = b.field cmd 76 * 8 ∧
      b.field cmd 68 * 8 % 2 ^ 32 = b.field cmd 68 * 8 ∧
      b.field cmd 60 * 4 % 2 ^ 32 = b.field cmd 60 * 4 := by
    intro cmd hcmd
    have hrel := hfit.relocations cmd hcmd
    exact ⟨Nat.mod_eq_of_lt hrel.1, Nat.mod_eq_of_lt hrel.2, Nat.mod_eq_of_lt (hindirect cmd hcmd)⟩
  have hsym : ∀ cmd, command .symTab = some cmd →
      b.field cmd 12 * b.sizeofNlist % 2 ^ 32 = b.field cmd 12 * b.sizeofNlist := by
    intro cmd hcmd
    exact Nat.mod_eq_of_lt (hfit.nlists cmd hcmd)
  unfold blobs tables contents
  cases hsymTab : command .symTab with
  | none =>
    cases hdynSymTab : command .dynSymTab with
    | none => rfl
    | some cmd =>
      obtain ⟨hlocal, hexternal, hindirect⟩ := hdyn cmd hdynSymTab
      simp only [Option.elim_none, Option.elim_some, hlocal, hexternal, hindirect, id]
  | some symTab =>
    cases hdynSymTab : command .dynSymTab with
    | none => simp only [Option.elim_none, Option.elim_some, hsym symTab hsymTab, id]
    | some cmd =>
      obtain ⟨hlocal, hexternal, hindirect⟩ := hdyn cmd hdynSymTab
      simp only [Option.elim_some, hsym symTab hsymTab, hlocal, hexternal, hindirect, id]

lemma relocations_mem_tables {dynSymTab : Nat} (hdyn : command .dynSymTab = some dynSymTab) :
    (b.field dynSymTab 76 ≠ 0 → ⟨.localRelocations, b.pointerSize, b.field dynSymTab 72,
      b.field dynSymTab 76 * 8⟩ ∈ b.tables command) ∧
    (b.field dynSymTab 68 ≠ 0 → ⟨.externalRelocations, b.pointerSize, b.field dynSymTab 64,
      b.field dynSymTab 68 * 8⟩ ∈ b.tables command) := by
  constructor <;> intro hne <;> simp [tables, contents, hdyn, chunk, hne]

lemma symbols_mem_tables {symTab : Nat} (hsym : command .symTab = some symTab)
    (hne : b.field symTab 12 ≠ 0) : ⟨.symbolTable, b.pointerSize, b.field symTab 8,
      b.field symTab 12 * b.sizeofNlist⟩ ∈ b.tables command := by
  simp [tables, contents, hsym, chunk, hne]

lemma SoundLinkedit.size_lt {leInfo : LinkEditInfo} (h : b.SoundLinkedit leInfo)
    {t : LinkEditContentChunk} (ht : t ∈ b.tables leInfo.command) : t.size < 2 ^ 32 := by
  have hinside := h.inside t ht
  have hsize := leInfo.layout.linkeditFileSize.toNat_lt
  omega

section Accepted

variable {enforceFormat : Malformed → Bool}
  {qsort : List LinkEditContentChunk → List LinkEditContentChunk} {uninit : LayoutInfo}

lemma validLinkeditLayout_ok (h : (b.validLinkeditLayout enforceFormat qsort uninit).1 = true) :
    ∃ leInfo, b.getLinkEditPointers uninit = .ok leInfo ∧
      (∃ prevName diag, (checkBlobs enforceFormat
        (leInfo.layout.linkeditFileOffset + leInfo.layout.linkeditFileSize).toNat
        leInfo.layout.linkeditFileOffset.toNat prevName diag (qsort (b.blobs leInfo.command))).1 =
          true) ∧
      b.checkSymbols leInfo.command = none := by
  unfold validLinkeditLayout at h
  cases hinfo : b.getLinkEditPointers uninit with
  | error e =>
    rw [hinfo] at h
    cases h
  | ok leInfo =>
    rw [hinfo] at h
    dsimp only at h
    split at h
    · cases h
    · split_ifs at h with hnil hok
      · rw [Bool.not_eq_true', Bool.not_eq_false] at hok
        cases hsymbols : b.checkSymbols leInfo.command with
        | some e =>
          rw [hsymbols] at h
          cases h
        | none => exact ⟨leInfo, rfl, ⟨none, none, hok⟩, hsymbols⟩

/-- What `validLinkeditLayout` accepts is sound exactly when the products and the ends of the ranges
of symbols fit. -/
theorem validLinkeditLayout_sound_iff (b : MachOBuffer) (enforceFormat : Malformed → Bool)
    (qsort : List LinkEditContentChunk → List LinkEditContentChunk)
    (hqsort : ∀ l, (qsort l).Perm l) (uninit : LayoutInfo)
    (h : (b.validLinkeditLayout enforceFormat qsort uninit).1 = true) :
    ∃ leInfo, b.getLinkEditPointers uninit = .ok leInfo ∧
      (b.SoundLinkedit leInfo ↔ b.CountsFit leInfo.command) := by
  obtain ⟨leInfo, hinfo, ⟨prevName, diag, hloop⟩, hsymbols⟩ := validLinkeditLayout_ok h
  refine ⟨leInfo, hinfo, ?_⟩
  constructor
  · intro hsound
    constructor
    · intro dynSymTab hdyn
      obtain ⟨hlocal, hext⟩ := relocations_mem_tables (b := b) hdyn
      constructor
      · by_cases hne : b.field dynSymTab 76 = 0
        · rw [hne]
          norm_num
        · exact hsound.size_lt (hlocal hne)
      · by_cases hne : b.field dynSymTab 68 = 0
        · rw [hne]
          norm_num
        · exact hsound.size_lt (hext hne)
    · intro symTab hsym
      by_cases hne : b.field symTab 12 = 0
      · rw [hne]
        norm_num
      · exact hsound.size_lt (symbols_mem_tables hsym hne)
    · intro symTab dynSymTab hsym hdyn offset hoffset
      have hsubset := hsound.symbols symTab dynSymTab hsym hdyn offset hoffset
      have hle := (checkSymbols_eq_none hsymbols hsym hdyn).2 offset hoffset
      by_cases hne : b.field dynSymTab (offset + 4) = 0
      · omega
      · rw [Set.Ico_subset_Ico_iff (by omega)] at hsubset
        exact hsubset.2
  · intro hfit
    have hcommand : b.getLinkEditLoadCommands = .ok leInfo.command := by
      unfold getLinkEditPointers at hinfo
      cases hscan : b.getLinkEditLoadCommands with
      | error e =>
        rw [hscan] at hinfo
        cases hinfo
      | ok command =>
        rw [hscan] at hinfo
        cases hinfo
        rfl
    have htables : b.blobs leInfo.command = b.tables leInfo.command := by
      apply blobs_eq_tables hfit
      intro dynSymTab hdyn
      obtain ⟨symTab, hsym⟩ := symTab_of_dynSymTab hcommand hdyn
      exact (checkSymbols_eq_none hsymbols hsym hdyn).1
    rw [htables] at hloop
    have hend := leInfo.layout.linkeditFileOffset.toNat_add leInfo.layout.linkeditFileSize
    obtain ⟨hinside, hpair⟩ := checkBlobs_ok (UInt32.toNat_lt _) hloop
    constructor
    · intro t ht
      have ht' := hinside t ((hqsort _).mem_iff.mpr ht)
      refine ⟨ht'.1, ht'.2.trans ?_⟩
      rw [hend]
      exact Nat.mod_le _ _
    · apply ((hqsort _).pairwise_iff (fun h => h.symm)).mp
      exact hpair.imp LinkEditContentChunk.disjoint_of_le
    · intro symTab dynSymTab hsym hdyn offset hoffset
      have hle := hfit.symbols symTab dynSymTab hsym hdyn offset hoffset
      exact Set.Ico_subset_Ico (Nat.zero_le _) hle

end Accepted

def sortBlobs (l : List LinkEditContentChunk) : List LinkEditContentChunk :=
  l.insertionSort (fun s t => s.fileOffsetStart ≤ t.fileOffsetStart)

def localRelocations (nlocrel : Nat) : MachOBuffer where
  bytes := fun x => (natBytes 4 0xfeedfacf ++ natBytes 8 0 ++ natBytes 4 6 ++ natBytes 4 3 ++
    natBytes 4 176 ++ natBytes 8 0 ++ segment64Bytes 72 linkeditName 0x2000 0x1000 0x1000 0x1000 1 0 ++
    natBytes 4 2 ++ natBytes 4 24 ++ natBytes 8 0 ++ natBytes 4 0x1800 ++ natBytes 4 16 ++
    natBytes 4 0xB ++ natBytes 4 80 ++ List.replicate 64 0 ++ natBytes 4 0x1000 ++
    natBytes 4 nlocrel).getD x 0

theorem validLinkeditLayout_sound_iff_localRelocations :
    ∃ leInfo, (localRelocations 1).getLinkEditPointers ⟨0, 0⟩ = .ok leInfo ∧
      ((localRelocations 1).SoundLinkedit leInfo ↔ (localRelocations 1).CountsFit leInfo.command) :=
  validLinkeditLayout_sound_iff (localRelocations 1) (fun _ => true) sortBlobs
    (fun l => List.perm_insertionSort _ l) ⟨0, 0⟩ (by decide +kernel)

theorem validLinkeditLayout_accepts_wrapped_size :
    (localRelocations (2 ^ 29 + 1)).validLinkeditLayout (fun _ => true) sortBlobs ⟨0, 0⟩ = (true, none) ∧
      ∀ leInfo, (localRelocations (2 ^ 29 + 1)).getLinkEditPointers ⟨0, 0⟩ = .ok leInfo →
        ¬(localRelocations (2 ^ 29 + 1)).SoundLinkedit leInfo := by
  constructor
  · decide +kernel
  · intro leInfo hinfo hsound
    have hlarge : ((localRelocations (2 ^ 29 + 1)).getLinkEditPointers ⟨0, 0⟩).toOption.any
        (fun leInfo => ((localRelocations (2 ^ 29 + 1)).tables leInfo.command).any
          (fun t => decide (2 ^ 32 ≤ t.size))) = true := by
      decide +kernel
    rw [hinfo] at hlarge
    obtain ⟨t, ht, hsize⟩ := List.any_eq_true.mp hlarge
    have hlt := hsound.size_lt ht
    have hle := of_decide_eq_true hsize
    omega

end MachOBuffer

end Dyld.MachO
