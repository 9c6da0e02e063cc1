import Dyld.Cache.AdjustTables

/-!
# Rebuilding the LINKEDIT of a dylib

When a dylib is moved into the cache, `rebuildLinkEditAndLoadCommands` packs the tables of its
LINKEDIT behind each other, with a new exports trie, and changes the load commands so that they give
the new places. Offsets and sizes are sums of 32 bits.
-/

namespace Dyld.Cache.Rebuild

open Dyld.Cache.Tables (DysymtabCommand Export Image)

/-! ### Load commands -/

structure SymtabCommand where
  symoff : Nat
  nsyms : Nat
  stroff : Nat
  strsize : Nat
  deriving DecidableEq, Repr

structure DyldInfoCommand where
  rebase_off : Nat
  rebase_size : Nat
  bind_off : Nat
  bind_size : Nat
  weak_bind_off : Nat
  weak_bind_size : Nat
  lazy_bind_off : Nat
  lazy_bind_size : Nat
  export_off : Nat
  export_size : Nat
  deriving DecidableEq, Repr

structure LinkeditDataCommand where
  dataoff : Nat
  datasize : Nat
  deriving DecidableEq, Repr

structure SegmentCommand where
  segname : String
  vmaddr : Nat
  vmsize : Nat
  fileoff : Nat
  filesize : Nat
  deriving DecidableEq, Repr

/-- `LC_DYLD_INFO` and `LC_DYLD_INFO_ONLY` are one here, and `other` are the commands that are kept
as they are. -/
inductive LoadCommand
  | idDylib (timestamp : Nat)
  | symtab (cmd : SymtabCommand)
  | dysymtab (cmd : DysymtabCommand)
  | dyldInfo (cmd : DyldInfoCommand)
  | functionStarts (cmd : LinkeditDataCommand)
  | dataInCode (cmd : LinkeditDataCommand)
  | dyldChainedFixups (cmd : LinkeditDataCommand)
  | dyldExportsTrie (cmd : LinkeditDataCommand)
  | segmentSplitInfo (cmd : LinkeditDataCommand)
  | segment (cmd : SegmentCommand)
  | rpath
  | codeSignature
  | dylibCodeSignDrs
  | other (cmd : Nat)
  deriving DecidableEq, Repr

namespace LoadCommand

def symtab? : LoadCommand → Option SymtabCommand
  | symtab cmd => some cmd
  | _ => none

def dysymtab? : LoadCommand → Option DysymtabCommand
  | dysymtab cmd => some cmd
  | _ => none

def dyldInfo? : LoadCommand → Option DyldInfoCommand
  | dyldInfo cmd => some cmd
  | _ => none

def functionStarts? : LoadCommand → Option LinkeditDataCommand
  | functionStarts cmd => some cmd
  | _ => none

def dataInCode? : LoadCommand → Option LinkeditDataCommand
  | dataInCode cmd => some cmd
  | _ => none

def dyldChainedFixups? : LoadCommand → Option LinkeditDataCommand
  | dyldChainedFixups cmd => some cmd
  | _ => none

def dyldExportsTrie? : LoadCommand → Option LinkeditDataCommand
  | dyldExportsTrie cmd => some cmd
  | _ => none

def segmentSplitInfo? : LoadCommand → Option LinkeditDataCommand
  | segmentSplitInfo cmd => some cmd
  | _ => none

def segment? : LoadCommand → Option SegmentCommand
  | segment cmd => some cmd
  | _ => none

end LoadCommand

structure SegmentMappingInfo where
  dstCacheUnslidAddress : Nat
  dstCacheSegmentSize : Nat
  dstCacheFileOffset : Nat
  dstCacheFileSize : Nat
  deriving DecidableEq, Repr

/-- A dylib that is being moved, where a pointer has `w` bits. `linkedit` are the bytes of its LINKEDIT
segment. -/
structure Dylib (w : Nat) where
  loadCommands : List LoadCommand
  maskPointers : Bool
  linkedit : Nat → UInt8

/-- `sizeof(macho_nlist<P>)` -/
def nlistSize (w : Nat) : Nat := w / 8 + 8

/-! ### Tables -/

/-- The tables of LINKEDIT that are kept, in their new order. -/
inductive Table
  | chainedFixups | bind | weakBind | lazyBind | exports | splitSegInfo | funcStarts | dataInCode
  | symbolTable | indirectTable | externalReloc | symbolStrings
  deriving DecidableEq, Repr

namespace Dylib

variable {w : Nat} (mh : Dylib w)

/-- The last command of a kind, as the constructor of `Adjustor` finds it. -/
def lastCommand {β : Type} (kind : LoadCommand → Option β) : Option β :=
  (mh.loadCommands.filterMap kind).getLast?

def segCmds : List SegmentCommand := mh.loadCommands.filterMap LoadCommand.segment?

/-- The last segment that has the name `__LINKEDIT`, with its index. -/
def linkeditSegment : Option (SegmentCommand × Nat) :=
  (mh.segCmds.zipIdx.filter (fun seg => seg.1.segname = "__LINKEDIT")).getLast?

/-- File offset and size of a table, as the load commands give them. -/
def range : Table → Nat × Nat
  | .chainedFixups =>
    ((mh.lastCommand LoadCommand.dyldChainedFixups?).map (fun cmd => (cmd.dataoff, cmd.datasize))).getD
      (0, 0)
  | .bind =>
    ((mh.lastCommand LoadCommand.dyldInfo?).map (fun cmd => (cmd.bind_off, cmd.bind_size))).getD (0, 0)
  | .weakBind =>
    ((mh.lastCommand LoadCommand.dyldInfo?).map
      (fun cmd => (cmd.weak_bind_off, cmd.weak_bind_size))).getD (0, 0)
  | .lazyBind =>
    ((mh.lastCommand LoadCommand.dyldInfo?).map
      (fun cmd => (cmd.lazy_bind_off, cmd.lazy_bind_size))).getD (0, 0)
  | .exports =>
    match mh.lastCommand LoadCommand.dyldInfo? with
    | some cmd => (cmd.export_off, cmd.export_size)
    | none =>
      ((mh.lastCommand LoadCommand.dyldExportsTrie?).map (fun cmd => (cmd.dataoff, cmd.datasize))).getD
        (0, 0)
  | .splitSegInfo =>
    ((mh.lastCommand LoadCommand.segmentSplitInfo?).map (fun cmd => (cmd.dataoff, cmd.datasize))).getD
      (0, 0)
  | .funcStarts =>
    ((mh.lastCommand LoadCommand.functionStarts?).map (fun cmd => (cmd.dataoff, cmd.datasize))).getD
      (0, 0)
  | .dataInCode =>
    ((mh.lastCommand LoadCommand.dataInCode?).map (fun cmd => (cmd.dataoff, cmd.datasize))).getD (0, 0)
  | .symbolTable =>
    ((mh.lastCommand LoadCommand.symtab?).map (fun cmd => (cmd.symoff, cmd.nsyms * nlistSize w))).getD
      (0, 0)
  | .indirectTable =>
    ((mh.lastCommand LoadCommand.dysymtab?).map
      (fun cmd => (cmd.indirectsymoff, cmd.nindirectsyms * 4))).getD (0, 0)
  | .externalReloc =>
    ((mh.lastCommand LoadCommand.dysymtab?).map (fun cmd => (cmd.extreloff, cmd.nextrel * 8))).getD
      (0, 0)
  | .symbolStrings =>
    ((mh.lastCommand LoadCommand.symtab?).map (fun cmd => (cmd.stroff, cmd.strsize))).getD (0, 0)

def linkeditFileOffset : Nat := (mh.linkeditSegment.map (fun seg => seg.1.fileoff)).getD 0

def bytesAt (off size : Nat) : List UInt8 :=
  (List.range size).map (fun i => mh.linkedit (off - mh.linkeditFileOffset + i))

def getLinkEditContent (fileOffset : Nat) : Nat :=
  (fileOffset + (2 ^ 32 - mh.linkeditFileOffset % 2 ^ 32)) % 2 ^ 32

/-- Reads a table through the load commands. -/
def read (t : Table) : List UInt8 :=
  (List.range (mh.range t).2).map (fun i =>
    mh.linkedit (mh.getLinkEditContent (mh.range t).1 + i))

/-! ### The new LINKEDIT -/

section Rebuild

variable (newTrieBytes : List UInt8)

def newSize : Table → Nat
  | .exports => newTrieBytes.length % 2 ^ 32
  | t => (mh.range t).2 % 2 ^ 32

/-! The offsets of the new tables, `uint32_t`. -/

def chainedFixupsOffset : Nat := 0

def bindOffset : Nat :=
  (chainedFixupsOffset + mh.newSize newTrieBytes .chainedFixups) % 2 ^ 32

def weakBindOffset : Nat :=
  (mh.bindOffset newTrieBytes + mh.newSize newTrieBytes .bind) % 2 ^ 32

def lazyBindOffset : Nat :=
  (mh.weakBindOffset newTrieBytes + mh.newSize newTrieBytes .weakBind) % 2 ^ 32

def exportOffset : Nat :=
  (mh.lazyBindOffset newTrieBytes + mh.newSize newTrieBytes .lazyBind) % 2 ^ 32

def splitSegInfoOffset : Nat :=
  (mh.exportOffset newTrieBytes + mh.newSize newTrieBytes .exports) % 2 ^ 32

def funcStartsOffset : Nat :=
  (mh.splitSegInfoOffset newTrieBytes + mh.newSize newTrieBytes .splitSegInfo) % 2 ^ 32

def dataInCodeOffset : Nat :=
  (mh.funcStartsOffset newTrieBytes + mh.newSize newTrieBytes .funcStarts) % 2 ^ 32

def symbolTableOffset : Nat :=
  (mh.dataInCodeOffset newTrieBytes + mh.newSize newTrieBytes .dataInCode) % 2 ^ 32

def indirectTableOffset : Nat :=
  (mh.symbolTableOffset newTrieBytes + mh.newSize newTrieBytes .symbolTable) % 2 ^ 32

def externalRelocOffset : Nat :=
  (mh.indirectTableOffset newTrieBytes + mh.newSize newTrieBytes .indirectTable) % 2 ^ 32

def symbolStringsOffset : Nat :=
  (mh.externalRelocOffset newTrieBytes + mh.newSize newTrieBytes .externalReloc) % 2 ^ 32

def newOffset : Table → Nat
  | .chainedFixups => chainedFixupsOffset
  | .bind => mh.bindOffset newTrieBytes
  | .weakBind => mh.weakBindOffset newTrieBytes
  | .lazyBind => mh.lazyBindOffset newTrieBytes
  | .exports => mh.exportOffset newTrieBytes
  | .splitSegInfo => mh.splitSegInfoOffset newTrieBytes
  | .funcStarts => mh.funcStartsOffset newTrieBytes
  | .dataInCode => mh.dataInCodeOffset newTrieBytes
  | .symbolTable => mh.symbolTableOffset newTrieBytes
  | .indirectTable => mh.indirectTableOffset newTrieBytes
  | .externalReloc => mh.externalRelocOffset newTrieBytes
  | .symbolStrings => mh.symbolStringsOffset newTrieBytes

def newLinkEditSize : Nat :=
  (mh.newOffset newTrieBytes .symbolStrings + mh.newSize newTrieBytes .symbolStrings) % 2 ^ 32

def copied : Table → List UInt8
  | .exports => newTrieBytes.take (mh.newSize newTrieBytes .exports)
  | t => mh.bytesAt (mh.range t).1 (mh.newSize newTrieBytes t)

def copyTo (buffer : Nat → UInt8) (off : Nat) (src : List UInt8) : Nat → UInt8 :=
  fun i => if off ≤ i then (src[i - off]?).getD (buffer i) else buffer i

def copyOrder : List Table :=
  [.chainedFixups, .bind, .lazyBind, .weakBind, .exports, .splitSegInfo, .funcStarts, .dataInCode,
    .symbolTable, .indirectTable, .externalReloc, .symbolStrings]

def newLinkeditBuffer : Nat → UInt8 :=
  copyOrder.foldl (fun buffer t =>
    if mh.newSize newTrieBytes t ≠ 0 then
      copyTo buffer (mh.newOffset newTrieBytes t) (mh.copied newTrieBytes t)
    else buffer) (fun _ => 0)

/-! The changes to the load commands, where `start` is the file offset of the new LINKEDIT. -/

section Update

variable (start : Nat)

def fileOffset (t : Table) : Nat := (start + mh.newOffset newTrieBytes t) % 2 ^ 32

def fileOffset? (t : Table) : Nat :=
  if mh.newSize newTrieBytes t ≠ 0 then mh.fileOffset newTrieBytes start t else 0

def updateSymtab (cmd : SymtabCommand) : SymtabCommand :=
  { cmd with
    symoff := mh.fileOffset newTrieBytes start .symbolTable
    stroff := mh.fileOffset newTrieBytes start .symbolStrings }

/-- The local relocations go: they were tracked when split seg was applied. -/
def updateDysymtab (cmd : DysymtabCommand) : DysymtabCommand :=
  { cmd with
    indirectsymoff := mh.fileOffset newTrieBytes start .indirectTable
    locreloff := 0
    nlocrel := 0
    extreloff := mh.fileOffset newTrieBytes start .externalReloc }

def updateDyldInfo (_ : DyldInfoCommand) : DyldInfoCommand where
  rebase_off := 0
  rebase_size := 0
  bind_off := mh.fileOffset? newTrieBytes start .bind
  bind_size := mh.newSize newTrieBytes .bind
  weak_bind_off := mh.fileOffset? newTrieBytes start .weakBind
  weak_bind_size := mh.newSize newTrieBytes .weakBind
  lazy_bind_off := mh.fileOffset? newTrieBytes start .lazyBind
  lazy_bind_size := mh.newSize newTrieBytes .lazyBind
  export_off := mh.fileOffset? newTrieBytes start .exports
  export_size := mh.newSize newTrieBytes .exports

/-- The change where the size stays. -/
def updateDataoff (t : Table) (cmd : LinkeditDataCommand) : LinkeditDataCommand :=
  { cmd with dataoff := mh.fileOffset newTrieBytes start t }

/-- The change where the size is set again. -/
def updateData (t : Table) (_ : LinkeditDataCommand) : LinkeditDataCommand where
  dataoff := mh.fileOffset? newTrieBytes start t
  datasize := mh.newSize newTrieBytes t

def updateSegment (linkeditBufferSize : Nat) (mapping : SegmentMappingInfo) (cmd : SegmentCommand) :
    SegmentCommand where
  segname := cmd.segname
  vmaddr := mapping.dstCacheUnslidAddress
  vmsize := if cmd.segname = "__LINKEDIT" then linkeditBufferSize else mapping.dstCacheSegmentSize
  fileoff := mapping.dstCacheFileOffset
  filesize := mapping.dstCacheFileSize

end Update

def updateCommand (linkeditStartOffset linkeditBufferSize : Nat) (mapping : SegmentMappingInfo) :
    LoadCommand → LoadCommand
  | .idDylib _ => .idDylib 2
  | .symtab cmd => .symtab (mh.updateSymtab newTrieBytes linkeditStartOffset cmd)
  | .dysymtab cmd => .dysymtab (mh.updateDysymtab newTrieBytes linkeditStartOffset cmd)
  | .dyldInfo cmd => .dyldInfo (mh.updateDyldInfo newTrieBytes linkeditStartOffset cmd)
  | .functionStarts cmd =>
    .functionStarts (mh.updateDataoff newTrieBytes linkeditStartOffset .funcStarts cmd)
  | .dataInCode cmd =>
    .dataInCode (mh.updateDataoff newTrieBytes linkeditStartOffset .dataInCode cmd)
  | .dyldChainedFixups cmd =>
    .dyldChainedFixups (mh.updateData newTrieBytes linkeditStartOffset .chainedFixups cmd)
  | .dyldExportsTrie cmd =>
    .dyldExportsTrie (mh.updateData newTrieBytes linkeditStartOffset .exports cmd)
  | .segmentSplitInfo cmd =>
    .segmentSplitInfo (mh.updateDataoff newTrieBytes linkeditStartOffset .splitSegInfo cmd)
  | .segment cmd => .segment (updateSegment linkeditBufferSize mapping cmd)
  | cmd => cmd

/-- The first pass over the load commands. `none` where a segment has no mapping. -/
def updateCommands (linkeditStartOffset linkeditBufferSize : Nat) :
    List LoadCommand → List SegmentMappingInfo → Option (List LoadCommand)
  | [], _ => some []
  | .segment cmd :: cmds, mapping :: mappingInfo => do
    let rest ← updateCommands linkeditStartOffset linkeditBufferSize cmds mappingInfo
    some (mh.updateCommand newTrieBytes linkeditStartOffset linkeditBufferSize mapping
      (.segment cmd) :: rest)
  | .segment _ :: _, [] => none
  | cmd :: cmds, mappingInfo => do
    let rest ← updateCommands linkeditStartOffset linkeditBufferSize cmds mappingInfo
    some (mh.updateCommand newTrieBytes linkeditStartOffset linkeditBufferSize ⟨0, 0, 0, 0⟩ cmd :: rest)

def removed : LoadCommand → Bool
  | .rpath | .codeSignature | .dylibCodeSignDrs => true
  | _ => false

end Rebuild

/-! ### The exports trie -/

section Exports

variable (parseTrie : List UInt8 → Option (List Export)) (fuel : Nat)
  (mappingInfo : List SegmentMappingInfo)

/-- The dylib as the adjustment of its exports sees it. The fields of the other tables are not read. -/
def exportsImage : Image w where
  segCmds := List.zipWith (fun cmd mapping =>
    ⟨BitVec.ofNat 64 cmd.vmaddr, BitVec.ofNat 64 cmd.vmsize, 0,
      BitVec.ofNat 64 mapping.dstCacheUnslidAddress⟩) mh.segCmds mappingInfo
  isX86_64 := false
  isKextBundle := false
  buildingAppCacheUtil := false
  maskPointers := mh.maskPointers
  dynSymTabCmd := none
  symbolTable := []
  r_address := []
  exports := if (mh.range .exports).2 = 0 then none
    else some (parseTrie (mh.bytesAt (mh.range .exports).1 (mh.range .exports).2))

/-- The trie is filled up to a multiple of the size of a pointer. -/
def alignTrie (w : Nat) (bytes : List UInt8) : List UInt8 :=
  bytes ++ List.replicate ((w / 8 - bytes.length % (w / 8)) % (w / 8)) 0

/-- `adjustExportsTrie`, where `fuel` bounds the passes of `emit`. -/
def adjustExportsTrie : Option (List UInt8) :=
  if (mh.range .exports).2 = 0 then some []
  else do
    let newExports ← (mh.exportsImage parseTrie mappingInfo).adjustExportsTrie
    let bytes ← Tries.emit fuel (Tries.build newExports)
    some (alignTrie w bytes)

/-- `rebuildLinkEditAndLoadCommands`. There is no result where a diagnostic is reported, or where the
dylib has no symbol table. -/
def rebuildLinkEditAndLoadCommands : Option (Dylib w) := do
  let newTrieBytes ← mh.adjustExportsTrie parseTrie fuel mappingInfo
  let _ ← mh.lastCommand LoadCommand.symtab?
  let (linkeditSegCmd, linkeditSegIndex) ← mh.linkeditSegment
  let mapping ← mappingInfo[linkeditSegIndex]?
  let linkeditBufferSize := (linkeditSegCmd.vmsize + 4095) / 4096 * 4096
  if linkeditBufferSize < mh.newLinkEditSize newTrieBytes then none
  else do
    let loadCommands ← mh.updateCommands newTrieBytes (mapping.dstCacheFileOffset % 2 ^ 32)
      linkeditBufferSize mh.loadCommands mappingInfo
    some { mh with
      loadCommands := loadCommands.filter (fun cmd => !removed cmd)
      linkedit := fun i =>
        if i < mh.newLinkEditSize newTrieBytes then mh.newLinkeditBuffer newTrieBytes i
        else if i < linkeditBufferSize then 0 else mh.linkedit i }

end Exports

/-! ### What is claimed of it -/

def fullSize (newTrieBytes : List UInt8) : Table → Nat
  | .exports => newTrieBytes.length
  | t => (mh.range t).2

def order : List Table :=
  [.chainedFixups, .bind, .weakBind, .lazyBind, .exports, .splitSegInfo, .funcStarts, .dataInCode,
    .symbolTable, .indirectTable, .externalReloc, .symbolStrings]

def totalSize (newTrieBytes : List UInt8) : Nat := (order.map (mh.fullSize newTrieBytes)).sum

/-- Every table that is not empty lies inside LINKEDIT. Its file offset has 32 bits. -/
def TablesInside : Prop :=
  ∀ t, (mh.range t).2 ≠ 0 → ∃ seg index, mh.linkeditSegment = some (seg, index) ∧
    seg.fileoff ≤ (mh.range t).1 ∧ (mh.range t).1 + (mh.range t).2 ≤ seg.fileoff + seg.filesize ∧
    (mh.range t).1 < 2 ^ 32

/-- `mh'` has the tables of `mh` and the new trie, each in its own part of LINKEDIT. -/
structure Keeps (mh mh' : Dylib w) (newTrieBytes : List UInt8) : Prop where
  read_eq : ∀ t, t ≠ .exports → mh'.read t = mh.read t
  read_exports : mh'.read .exports = newTrieBytes
  inside : ∀ t, (mh'.range t).2 ≠ 0 → ∃ seg index, mh'.linkeditSegment = some (seg, index) ∧
    mh'.getLinkEditContent (mh'.range t).1 + (mh'.range t).2 ≤ seg.vmsize
  apart : ∀ t t', t ≠ t' → (mh'.range t).2 ≠ 0 → (mh'.range t').2 ≠ 0 →
    mh'.getLinkEditContent (mh'.range t).1 + (mh'.range t).2 ≤
        mh'.getLinkEditContent (mh'.range t').1 ∨
      mh'.getLinkEditContent (mh'.range t').1 + (mh'.range t').2 ≤
        mh'.getLinkEditContent (mh'.range t).1

/-! ### The layout -/

section Layout

variable {mh} {newTrieBytes : List UInt8}

/-- The sizes of the first tables. -/
def position (mh : Dylib w) (newTrieBytes : List UInt8) (n : Nat) : Nat :=
  ((order.map (mh.fullSize newTrieBytes)).take n).sum

lemma position_le {m n : Nat} (h : m ≤ n) :
    position mh newTrieBytes m ≤ position mh newTrieBytes n :=
  List.monotone_sum_take _ h

lemma idxOf_lt (t : Table) : order.idxOf t < order.length := by
  cases t <;> decide

lemma position_succ (t : Table) : position mh newTrieBytes (order.idxOf t + 1) =
    position mh newTrieBytes (order.idxOf t) + mh.fullSize newTrieBytes t := by
  have hlt : order.idxOf t < (order.map (mh.fullSize newTrieBytes)).length := by
    rw [List.length_map]
    exact idxOf_lt t
  rw [position, position, List.sum_take_succ _ _ hlt, List.getElem_map, List.getElem_idxOf]

lemma position_end_le (mh : Dylib w) (newTrieBytes : List UInt8) (t : Table) :
    position mh newTrieBytes (order.idxOf t) + mh.fullSize newTrieBytes t ≤
      mh.totalSize newTrieBytes := by
  rw [← position_succ]
  have hle : order.idxOf t + 1 ≤ 12 := idxOf_lt t
  exact position_le hle

/-- Two tables do not overlap. -/
lemma position_apart {t t' : Table} (h : t ≠ t') :
    position mh newTrieBytes (order.idxOf t) + mh.fullSize newTrieBytes t ≤
        position mh newTrieBytes (order.idxOf t') ∨
      position mh newTrieBytes (order.idxOf t') + mh.fullSize newTrieBytes t' ≤
        position mh newTrieBytes (order.idxOf t) := by
  rw [← position_succ, ← position_succ]
  have hne : order.idxOf t ≠ order.idxOf t' := by
    revert h
    cases t <;> cases t' <;> decide
  rcases Nat.lt_or_gt_of_ne hne with hlt | hlt
  · exact Or.inl (position_le hlt)
  · exact Or.inr (position_le hlt)

variable (htotal : mh.totalSize newTrieBytes < 2 ^ 32)

include htotal

lemma newSize_eq (t : Table) : mh.newSize newTrieBytes t = mh.fullSize newTrieBytes t := by
  have hle := position_end_le mh newTrieBytes t
  have hlt : mh.fullSize newTrieBytes t < 2 ^ 32 := by omega
  cases t <;> exact Nat.mod_eq_of_lt hlt

lemma nextOffset_eq (t : Table) {off : Nat} (h : off = position mh newTrieBytes (order.idxOf t)) :
    (off + mh.newSize newTrieBytes t) % 2 ^ 32 = position mh newTrieBytes (order.idxOf t + 1) := by
  have hle := position_end_le mh newTrieBytes t
  rw [h, newSize_eq htotal, position_succ, Nat.mod_eq_of_lt (by omega)]

lemma newOffset_eq (t : Table) :
    mh.newOffset newTrieBytes t = position mh newTrieBytes (order.idxOf t) := by
  have hchainedFixups : chainedFixupsOffset = position mh newTrieBytes 0 := rfl
  have hbind : mh.bindOffset newTrieBytes = position mh newTrieBytes 1 :=
    nextOffset_eq htotal .chainedFixups hchainedFixups
  have hweakBind : mh.weakBindOffset newTrieBytes = position mh newTrieBytes 2 :=
    nextOffset_eq htotal .bind hbind
  have hlazyBind : mh.lazyBindOffset newTrieBytes = position mh newTrieBytes 3 :=
    nextOffset_eq htotal .weakBind hweakBind
  have hexports : mh.exportOffset newTrieBytes = position mh newTrieBytes 4 :=
    nextOffset_eq htotal .lazyBind hlazyBind
  have hsplitSegInfo : mh.splitSegInfoOffset newTrieBytes = position mh newTrieBytes 5 :=
    nextOffset_eq htotal .exports hexports
  have hfuncStarts : mh.funcStartsOffset newTrieBytes = position mh newTrieBytes 6 :=
    nextOffset_eq htotal .splitSegInfo hsplitSegInfo
  have hdataInCode : mh.dataInCodeOffset newTrieBytes = position mh newTrieBytes 7 :=
    nextOffset_eq htotal .funcStarts hfuncStarts
  have hsymbolTable : mh.symbolTableOffset newTrieBytes = position mh newTrieBytes 8 :=
    nextOffset_eq htotal .dataInCode hdataInCode
  have hindirectTable : mh.indirectTableOffset newTrieBytes = position mh newTrieBytes 9 :=
    nextOffset_eq htotal .symbolTable hsymbolTable
  have hexternalReloc : mh.externalRelocOffset newTrieBytes = position mh newTrieBytes 10 :=
    nextOffset_eq htotal .indirectTable hindirectTable
  have hsymbolStrings : mh.symbolStringsOffset newTrieBytes = position mh newTrieBytes 11 :=
    nextOffset_eq htotal .externalReloc hexternalReloc
  cases t <;> assumption

lemma newLinkEditSize_eq : mh.newLinkEditSize newTrieBytes = mh.totalSize newTrieBytes := by
  rw [newLinkEditSize, nextOffset_eq htotal .symbolStrings (newOffset_eq htotal .symbolStrings)]
  exact congrArg List.sum (List.take_of_length_le (Nat.le_refl 12))

end Layout

/-! ### The new bytes -/

section Bytes

/-- The bytes are in the buffer from an offset on. -/
def Holds (buffer : Nat → UInt8) (off : Nat) (src : List UInt8) : Prop :=
  ∀ i b, src[i]? = some b → buffer (off + i) = b

lemma holds_copyTo (buffer : Nat → UInt8) (off : Nat) (src : List UInt8) :
    Holds (copyTo buffer off src) off src := by
  intro i b hb
  simp [copyTo, hb]

/-- A copy keeps what it does not overlap. -/
lemma Holds.copyTo {buffer : Nat → UInt8} {off off' : Nat} {src src' : List UInt8}
    (h : Holds buffer off src)
    (hapart : off + src.length ≤ off' ∨ off' + src'.length ≤ off) :
    Holds (Dylib.copyTo buffer off' src') off src := by
  intro i b hb
  have hi : i < src.length := by
    by_contra hlt
    rw [List.getElem?_eq_none (by omega)] at hb
    cases hb
  rw [Dylib.copyTo]
  split_ifs with hle
  · have hnone : src'[off + i - off']? = none := List.getElem?_eq_none (by omega)
    rw [hnone, Option.getD_none]
    exact h i b hb
  · exact h i b hb

lemma holds_foldl {size : Table → Nat} {off : Table → Nat} {src : Table → List UInt8}
    (hsrc : ∀ t, (src t).length = size t)
    (hapart : ∀ t t', t ≠ t' → off t + size t ≤ off t' ∨ off t' + size t' ≤ off t)
    {l : List Table} {t : Table} {buffer : Nat → UInt8}
    (h : t ∈ l ∨ Holds buffer (off t) (src t)) :
    Holds (l.foldl (fun buffer t =>
      if size t ≠ 0 then Dylib.copyTo buffer (off t) (src t) else buffer) buffer)
      (off t) (src t) := by
  induction l generalizing buffer with
  | nil => exact h.resolve_left (List.not_mem_nil)
  | cons t' l ih =>
    rw [List.foldl_cons]
    apply ih
    by_cases ht : t = t'
    · right
      subst ht
      split_ifs with hsize
      · exact holds_copyTo _ _ _
      · have hnil : src t = [] := by
          rw [← List.length_eq_zero_iff, hsrc]
          simpa using hsize
        intro i b hb
        simp [hnil] at hb
    · rcases h with hmem | hholds
      · exact Or.inl ((List.mem_cons.mp hmem).resolve_left ht)
      · right
        split_ifs
        · apply hholds.copyTo
          rw [hsrc, hsrc]
          exact hapart t t' ht
        · exact hholds

lemma length_bytesAt (mh : Dylib w) (off size : Nat) : (mh.bytesAt off size).length = size := by
  rw [bytesAt, List.length_map, List.length_range]

lemma length_copied (mh : Dylib w) (newTrieBytes : List UInt8) (t : Table) :
    (mh.copied newTrieBytes t).length = mh.newSize newTrieBytes t := by
  cases t with
  | exports =>
    rw [copied, List.length_take]
    exact Nat.min_eq_left (Nat.mod_le _ _)
  | _ => exact length_bytesAt _ _ _

variable {mh} {newTrieBytes : List UInt8} (htotal : mh.totalSize newTrieBytes < 2 ^ 32)

include htotal

lemma holds_newLinkeditBuffer (t : Table) : Holds (mh.newLinkeditBuffer newTrieBytes)
    (mh.newOffset newTrieBytes t) (mh.copied newTrieBytes t) := by
  have hmem : t ∈ copyOrder := by
    cases t <;> decide
  apply holds_foldl (length_copied mh newTrieBytes) _ (Or.inl hmem)
  intro t t' hne
  rw [newOffset_eq htotal, newOffset_eq htotal, newSize_eq htotal, newSize_eq htotal]
  exact position_apart hne

lemma copied_exports : mh.copied newTrieBytes .exports = newTrieBytes := by
  rw [copied, newSize_eq htotal]
  exact List.take_length

lemma copied_of_ne {t : Table} (h : t ≠ .exports) :
    mh.copied newTrieBytes t = mh.bytesAt (mh.range t).1 (mh.range t).2 := by
  have hsize := newSize_eq htotal t
  cases t with
  | exports => exact absurd rfl h
  | _ => exact congrArg (mh.bytesAt _) hsize

end Bytes

/-! ### The new load commands -/

section Commands

variable {mh} {newTrieBytes : List UInt8} {start bufferSize : Nat}

def KindStays {β : Type} (kind : LoadCommand → Option β) : Prop :=
  kind .rpath = none ∧ kind .codeSignature = none ∧ kind .dylibCodeSignDrs = none

lemma filterMap_filter_removed {β : Type} {kind : LoadCommand → Option β} (hkind : KindStays kind)
    (cmds : List LoadCommand) :
    (cmds.filter (fun cmd => !removed cmd)).filterMap kind = cmds.filterMap kind := by
  rw [List.filterMap_filter]
  congr 1
  funext cmd
  cases cmd with
  | rpath => exact hkind.1.symm
  | codeSignature => exact hkind.2.1.symm
  | dylibCodeSignDrs => exact hkind.2.2.symm
  | _ => rfl

lemma updateCommands_filterMap {β : Type} {kind : LoadCommand → Option β} {f : β → β}
    (hkind : ∀ mapping cmd, kind (mh.updateCommand newTrieBytes start bufferSize mapping cmd) =
      (kind cmd).map f) {cmds cmds' : List LoadCommand} {mappingInfo : List SegmentMappingInfo}
    (h : mh.updateCommands newTrieBytes start bufferSize cmds mappingInfo = some cmds') :
    cmds'.filterMap kind = (cmds.filterMap kind).map f := by
  have hcons : ∀ mapping cmd cmds cmds', cmds'.filterMap kind = (cmds.filterMap kind).map f →
      (mh.updateCommand newTrieBytes start bufferSize mapping cmd :: cmds').filterMap kind =
        ((cmd :: cmds).filterMap kind).map f := by
    intro mapping cmd cmds cmds' hrest
    rw [List.filterMap_cons, List.filterMap_cons, hkind, hrest]
    cases kind cmd <;> rfl
  induction cmds, mappingInfo using updateCommands.induct generalizing cmds' with
  | case1 =>
    cases h
    rfl
  | case2 cmd cmds mapping mappingInfo ih =>
    rw [updateCommands, Option.bind_eq_bind, Option.bind_eq_some_iff] at h
    obtain ⟨rest, hrest, h⟩ := h
    cases h
    exact hcons _ _ _ _ (ih hrest)
  | case3 =>
    rw [updateCommands] at h
    cases h
  | case4 cmd cmds mappingInfo hseg hseg' ih =>
    rw [updateCommands, Option.bind_eq_bind, Option.bind_eq_some_iff] at h
    · obtain ⟨rest, hrest, h⟩ := h
      cases h
      exact hcons _ _ _ _ (ih hrest)
    · exact hseg
    · exact hseg'

/-- What the pass does to the segments: the `n`-th one gets the `n`-th mapping. -/
lemma updateCommands_segments {cmds cmds' : List LoadCommand} {mappingInfo : List SegmentMappingInfo}
    (h : mh.updateCommands newTrieBytes start bufferSize cmds mappingInfo = some cmds') :
    cmds'.filterMap LoadCommand.segment? =
        List.zipWith (fun cmd mapping => updateSegment bufferSize mapping cmd)
          (cmds.filterMap LoadCommand.segment?) mappingInfo ∧
      (cmds.filterMap LoadCommand.segment?).length ≤ mappingInfo.length := by
  induction cmds, mappingInfo using updateCommands.induct generalizing cmds' with
  | case1 =>
    cases h
    simp
  | case2 cmd cmds mapping mappingInfo ih =>
    rw [updateCommands, Option.bind_eq_bind, Option.bind_eq_some_iff] at h
    obtain ⟨rest, hrest, h⟩ := h
    cases h
    obtain ⟨heq, hlen⟩ := ih hrest
    simp [updateCommand, LoadCommand.segment?, heq, hlen]
  | case3 =>
    rw [updateCommands] at h
    cases h
  | case4 cmd cmds mappingInfo hseg hseg' ih =>
    rw [updateCommands, Option.bind_eq_bind, Option.bind_eq_some_iff] at h
    · obtain ⟨rest, hrest, h⟩ := h
      cases h
      obtain ⟨heq, hlen⟩ := ih hrest
      have hnone : LoadCommand.segment? cmd = none := by
        cases cmd with
        | segment c =>
          cases mappingInfo with
          | nil => exact absurd rfl (hseg' c rfl)
          | cons mapping mappingInfo => exact absurd rfl (hseg c mapping mappingInfo rfl)
        | _ => rfl
      have hnone' : ∀ mapping, LoadCommand.segment?
          (mh.updateCommand newTrieBytes start bufferSize mapping cmd) = none := by
        intro mapping
        cases cmd with
        | segment c => cases hnone
        | _ => rfl
      rw [List.filterMap_cons, hnone', List.filterMap_cons, hnone]
      exact ⟨heq, hlen⟩
    · exact hseg
    · exact hseg'

lemma zipIdx_map_zipIdx {α β : Type} (l : List α) (f : α × Nat → β) :
    (l.zipIdx.map f).zipIdx = l.zipIdx.map (fun p => (f p, p.2)) := by
  apply List.ext_getElem?
  intro k
  cases hk : l[k]? <;> simp [List.getElem?_zipIdx, hk]

lemma linkedit_zipWith {segs : List SegmentCommand} {mappingInfo : List SegmentMappingInfo}
    (hlen : segs.length ≤ mappingInfo.length) {seg : SegmentCommand} {index : Nat}
    {mapping : SegmentMappingInfo} (hmapping : mappingInfo[index]? = some mapping)
    (hseg : (segs.zipIdx.filter (fun seg => seg.1.segname = "__LINKEDIT")).getLast? =
      some (seg, index)) :
    ((List.zipWith (fun cmd mapping => updateSegment bufferSize mapping cmd) segs
        mappingInfo).zipIdx.filter (fun seg => seg.1.segname = "__LINKEDIT")).getLast? =
      some (updateSegment bufferSize mapping seg, index) := by
  have hzip : List.zipWith (fun cmd mapping => updateSegment bufferSize mapping cmd) segs
      mappingInfo = segs.zipIdx.map (fun p =>
        updateSegment bufferSize ((mappingInfo[p.2]?).getD ⟨0, 0, 0, 0⟩) p.1) := by
    apply List.ext_getElem?
    intro k
    cases hk : segs[k]? with
    | none => simp [List.getElem?_zipWith, List.getElem?_zipIdx, hk]
    | some s =>
      have hlt : k < mappingInfo.length :=
        lt_of_lt_of_le (List.getElem?_eq_some_iff.mp hk).1 hlen
      simp [List.getElem?_zipWith, List.getElem?_zipIdx, hk, List.getElem?_eq_getElem hlt]
  rw [hzip, zipIdx_map_zipIdx, List.filter_map, List.getLast?_map]
  have hname : ((fun seg : SegmentCommand × Nat => decide (seg.1.segname = "__LINKEDIT")) ∘
      fun p : SegmentCommand × Nat =>
        (updateSegment bufferSize ((mappingInfo[p.2]?).getD ⟨0, 0, 0, 0⟩) p.1, p.2)) =
      fun seg => decide (seg.1.segname = "__LINKEDIT") := rfl
  rw [hname, hseg, Option.map_some, hmapping]
  rfl

lemma lastCommand_new {mh' : Dylib w} {mappingInfo : List SegmentMappingInfo}
    {cmds' : List LoadCommand}
    (hupdate : mh.updateCommands newTrieBytes start bufferSize mh.loadCommands mappingInfo =
      some cmds')
    (hcmds : mh'.loadCommands = cmds'.filter (fun cmd => !removed cmd)) {β : Type}
    {kind : LoadCommand → Option β} {f : β → β}
    (hkind : ∀ mapping cmd, kind (mh.updateCommand newTrieBytes start bufferSize mapping cmd) =
      (kind cmd).map f) (hstays : KindStays kind) :
    mh'.lastCommand kind = (mh.lastCommand kind).map f := by
  rw [lastCommand, lastCommand, hcmds, filterMap_filter_removed hstays,
    updateCommands_filterMap hkind hupdate, List.getLast?_map]

def Placed (mh mh' : Dylib w) (newTrieBytes : List UInt8) (start : Nat) (t : Table) : Prop :=
  (mh'.range t).2 = mh.fullSize newTrieBytes t ∧
    ((mh'.range t).2 ≠ 0 → (mh'.range t).1 = mh.fileOffset newTrieBytes start t)

lemma placed_of_lastCommand {mh' : Dylib w} {t : Table} {β : Type} {kind : LoadCommand → Option β}
    {f : β → β} {data : β → Nat × Nat}
    (hrange : mh.range t = ((mh.lastCommand kind).map data).getD (0, 0))
    (hrange' : mh'.range t = ((mh'.lastCommand kind).map data).getD (0, 0))
    (hlast : mh'.lastCommand kind = (mh.lastCommand kind).map f)
    (ht : mh.fullSize newTrieBytes t = (mh.range t).2)
    (hdata : ∀ cmd, mh.range t = data cmd →
      (data (f cmd)).2 = (data cmd).2 ∧
        ((data (f cmd)).2 ≠ 0 → (data (f cmd)).1 = mh.fileOffset newTrieBytes start t)) :
    Placed mh mh' newTrieBytes start t := by
  rw [hlast] at hrange'
  cases hcmd : mh.lastCommand kind with
  | none =>
    rw [hcmd] at hrange hrange'
    rw [Placed, ht, hrange, hrange']
    exact ⟨rfl, fun h => absurd rfl h⟩
  | some cmd =>
    rw [hcmd] at hrange hrange'
    rw [Placed, ht, hrange, hrange']
    exact hdata cmd hrange

lemma fileOffset?_of_ne {t : Table} (h : mh.newSize newTrieBytes t ≠ 0) :
    mh.fileOffset? newTrieBytes start t = mh.fileOffset newTrieBytes start t :=
  if_pos h

lemma placed {mh' : Dylib w} {mappingInfo : List SegmentMappingInfo} {cmds' : List LoadCommand}
    (hupdate : mh.updateCommands newTrieBytes start bufferSize mh.loadCommands mappingInfo =
      some cmds')
    (hcmds : mh'.loadCommands = cmds'.filter (fun cmd => !removed cmd))
    (htotal : mh.totalSize newTrieBytes < 2 ^ 32)
    (hempty : (mh.range .exports).2 = 0 → newTrieBytes = []) (t : Table) :
    Placed mh mh' newTrieBytes start t := by
  have hsize := newSize_eq htotal
  have hsymtab : mh'.lastCommand LoadCommand.symtab? =
      (mh.lastCommand LoadCommand.symtab?).map (mh.updateSymtab newTrieBytes start) :=
    lastCommand_new hupdate hcmds (fun _ cmd => by cases cmd <;> rfl) ⟨rfl, rfl, rfl⟩
  have hdysymtab : mh'.lastCommand LoadCommand.dysymtab? =
      (mh.lastCommand LoadCommand.dysymtab?).map (mh.updateDysymtab newTrieBytes start) :=
    lastCommand_new hupdate hcmds (fun _ cmd => by cases cmd <;> rfl) ⟨rfl, rfl, rfl⟩
  have hdyldInfo : mh'.lastCommand LoadCommand.dyldInfo? =
      (mh.lastCommand LoadCommand.dyldInfo?).map (mh.updateDyldInfo newTrieBytes start) :=
    lastCommand_new hupdate hcmds (fun _ cmd => by cases cmd <;> rfl) ⟨rfl, rfl, rfl⟩
  have hfunctionStarts : mh'.lastCommand LoadCommand.functionStarts? =
      (mh.lastCommand LoadCommand.functionStarts?).map
        (mh.updateDataoff newTrieBytes start .funcStarts) :=
    lastCommand_new hupdate hcmds (fun _ cmd => by cases cmd <;> rfl) ⟨rfl, rfl, rfl⟩
  have hdataInCode : mh'.lastCommand LoadCommand.dataInCode? =
      (mh.lastCommand LoadCommand.dataInCode?).map
        (mh.updateDataoff newTrieBytes start .dataInCode) :=
    lastCommand_new hupdate hcmds (fun _ cmd => by cases cmd <;> rfl) ⟨rfl, rfl, rfl⟩
  have hsplitSegInfo : mh'.lastCommand LoadCommand.segmentSplitInfo? =
      (mh.lastCommand LoadCommand.segmentSplitInfo?).map
        (mh.updateDataoff newTrieBytes start .splitSegInfo) :=
    lastCommand_new hupdate hcmds (fun _ cmd => by cases cmd <;> rfl) ⟨rfl, rfl, rfl⟩
  have hchainedFixups : mh'.lastCommand LoadCommand.dyldChainedFixups? =
      (mh.lastCommand LoadCommand.dyldChainedFixups?).map
        (mh.updateData newTrieBytes start .chainedFixups) :=
    lastCommand_new hupdate hcmds (fun _ cmd => by cases cmd <;> rfl) ⟨rfl, rfl, rfl⟩
  have hexportsTrie : mh'.lastCommand LoadCommand.dyldExportsTrie? =
      (mh.lastCommand LoadCommand.dyldExportsTrie?).map
        (mh.updateData newTrieBytes start .exports) :=
    lastCommand_new hupdate hcmds (fun _ cmd => by cases cmd <;> rfl) ⟨rfl, rfl, rfl⟩
  cases t with
  | chainedFixups =>
    refine placed_of_lastCommand rfl rfl hchainedFixups rfl (fun cmd hrange => ⟨?_, ?_⟩)
    · exact (hsize .chainedFixups).trans (congrArg Prod.snd hrange)
    · exact fun hne => fileOffset?_of_ne hne
  | bind =>
    refine placed_of_lastCommand rfl rfl hdyldInfo rfl (fun cmd hrange => ⟨?_, ?_⟩)
    · exact (hsize .bind).trans (congrArg Prod.snd hrange)
    · exact fun hne => fileOffset?_of_ne hne
  | weakBind =>
    refine placed_of_lastCommand rfl rfl hdyldInfo rfl (fun cmd hrange => ⟨?_, ?_⟩)
    · exact (hsize .weakBind).trans (congrArg Prod.snd hrange)
    · exact fun hne => fileOffset?_of_ne hne
  | lazyBind =>
    refine placed_of_lastCommand rfl rfl hdyldInfo rfl (fun cmd hrange => ⟨?_, ?_⟩)
    · exact (hsize .lazyBind).trans (congrArg Prod.snd hrange)
    · exact fun hne => fileOffset?_of_ne hne
  | exports =>
    have hexports := hsize .exports
    cases hcmd : mh.lastCommand LoadCommand.dyldInfo? with
    | some cmd =>
      have hrange : mh'.range .exports = (mh.fileOffset? newTrieBytes start .exports,
          mh.newSize newTrieBytes .exports) := by
        rw [range, hdyldInfo, hcmd]
        rfl
      rw [Placed, hrange]
      exact ⟨hexports, fun hne => fileOffset?_of_ne hne⟩
    | none =>
      have hrange' : mh'.range .exports =
          ((mh'.lastCommand LoadCommand.dyldExportsTrie?).map
            (fun cmd => (cmd.dataoff, cmd.datasize))).getD (0, 0) := by
        rw [range, hdyldInfo, hcmd]
        rfl
      rw [hexportsTrie] at hrange'
      cases htrie : mh.lastCommand LoadCommand.dyldExportsTrie? with
      | some cmd =>
        rw [htrie] at hrange'
        rw [Placed, hrange']
        exact ⟨hexports, fun hne => fileOffset?_of_ne hne⟩
      | none =>
        rw [htrie] at hrange'
        have hnil : newTrieBytes = [] := by
          apply hempty
          rw [range, hcmd, htrie]
          rfl
        rw [Placed, hrange', hnil]
        exact ⟨rfl, fun hne => absurd rfl hne⟩
  | splitSegInfo =>
    exact placed_of_lastCommand rfl rfl hsplitSegInfo rfl (fun _ _ => ⟨rfl, fun _ => rfl⟩)
  | funcStarts =>
    exact placed_of_lastCommand rfl rfl hfunctionStarts rfl (fun _ _ => ⟨rfl, fun _ => rfl⟩)
  | dataInCode =>
    exact placed_of_lastCommand rfl rfl hdataInCode rfl (fun _ _ => ⟨rfl, fun _ => rfl⟩)
  | symbolTable =>
    exact placed_of_lastCommand rfl rfl hsymtab rfl (fun _ _ => ⟨rfl, fun _ => rfl⟩)
  | indirectTable =>
    exact placed_of_lastCommand rfl rfl hdysymtab rfl (fun _ _ => ⟨rfl, fun _ => rfl⟩)
  | externalReloc =>
    exact placed_of_lastCommand rfl rfl hdysymtab rfl (fun _ _ => ⟨rfl, fun _ => rfl⟩)
  | symbolStrings =>
    exact placed_of_lastCommand rfl rfl hsymtab rfl (fun _ _ => ⟨rfl, fun _ => rfl⟩)

lemma linkeditSegment_new {mh' : Dylib w} {mappingInfo : List SegmentMappingInfo}
    {cmds' : List LoadCommand}
    (hupdate : mh.updateCommands newTrieBytes start bufferSize mh.loadCommands mappingInfo =
      some cmds')
    (hcmds : mh'.loadCommands = cmds'.filter (fun cmd => !removed cmd)) {seg : SegmentCommand}
    {index : Nat} {mapping : SegmentMappingInfo} (hseg : mh.linkeditSegment = some (seg, index))
    (hmapping : mappingInfo[index]? = some mapping) :
    mh'.linkeditSegment = some (updateSegment bufferSize mapping seg, index) := by
  have hsegments := updateCommands_segments hupdate
  rw [linkeditSegment, segCmds, hcmds, filterMap_filter_removed ⟨rfl, rfl, rfl⟩, hsegments.1]
  exact linkedit_zipWith hsegments.2 hmapping hseg

end Commands

/-! ### The tables are kept -/

section Result

variable {mh mh' : Dylib w} {newTrieBytes : List UInt8}
  {parseTrie : List UInt8 → Option (List Export)} {fuel : Nat}
  {mappingInfo : List SegmentMappingInfo}

/-- What a run without a diagnostic has done. -/
lemma rebuild_cases
    (htrie : mh.adjustExportsTrie parseTrie fuel mappingInfo = some newTrieBytes)
    (h : mh.rebuildLinkEditAndLoadCommands parseTrie fuel mappingInfo = some mh') :
    ∃ seg index mapping bufferSize cmds', mh.linkeditSegment = some (seg, index) ∧
      mappingInfo[index]? = some mapping ∧ mh.newLinkEditSize newTrieBytes ≤ bufferSize ∧
      mh.updateCommands newTrieBytes (mapping.dstCacheFileOffset % 2 ^ 32) bufferSize
        mh.loadCommands mappingInfo = some cmds' ∧
      mh'.loadCommands = cmds'.filter (fun cmd => !removed cmd) ∧
      ∀ i < mh.newLinkEditSize newTrieBytes,
        mh'.linkedit i = mh.newLinkeditBuffer newTrieBytes i := by
  simp only [rebuildLinkEditAndLoadCommands, htrie, Option.bind_eq_bind, Option.bind_some,
    Option.bind_eq_some_iff] at h
  obtain ⟨_, -, ⟨seg, index⟩, hseg, mapping, hmapping, h⟩ := h
  split_ifs at h with hsize
  rw [Option.bind_eq_some_iff] at h
  obtain ⟨cmds', hupdate, h⟩ := h
  cases h
  exact ⟨seg, index, mapping, _, cmds', hseg, hmapping, not_lt.mp hsize, hupdate, rfl,
    fun i hi => if_pos hi⟩

lemma getLinkEditContent_add {start off : Nat} (hstart : mh'.linkeditFileOffset = start)
    (hoff : off < 2 ^ 32) :
    mh'.getLinkEditContent ((start % 2 ^ 32 + off) % 2 ^ 32) = off := by
  rw [getLinkEditContent, hstart]
  omega

lemma read_eq_bytesAt (hinside : mh.TablesInside) (t : Table) :
    mh.read t = mh.bytesAt (mh.range t).1 (mh.range t).2 := by
  by_cases hsize : (mh.range t).2 = 0
  · rw [read, bytesAt, hsize]
    rfl
  · obtain ⟨seg, index, hseg, hle, -, hlt⟩ := hinside t hsize
    have hoff : mh.linkeditFileOffset = seg.fileoff := by
      rw [linkeditFileOffset, hseg]
      rfl
    have hcontent : mh.getLinkEditContent (mh.range t).1 =
        (mh.range t).1 - mh.linkeditFileOffset := by
      rw [getLinkEditContent, hoff]
      omega
    rw [read, bytesAt, hcontent]

theorem rebuildLinkEdit_keeps (hinside : mh.TablesInside)
    (htrie : mh.adjustExportsTrie parseTrie fuel mappingInfo = some newTrieBytes)
    (htotal : mh.totalSize newTrieBytes < 2 ^ 32)
    (h : mh.rebuildLinkEditAndLoadCommands parseTrie fuel mappingInfo = some mh') :
    Keeps mh mh' newTrieBytes := by
  obtain ⟨seg, index, mapping, bufferSize, cmds', hseg, hmapping, hfits, hupdate, hcmds, hlinkedit⟩ :=
    rebuild_cases htrie h
  have hempty : (mh.range .exports).2 = 0 → newTrieBytes = [] := by
    intro hzero
    rw [adjustExportsTrie, if_pos hzero] at htrie
    exact (Option.some.inj htrie).symm
  have hplaced := placed hupdate hcmds htotal hempty
  have hseg' := linkeditSegment_new hupdate hcmds hseg hmapping
  have hstart : mh'.linkeditFileOffset = mapping.dstCacheFileOffset := by
    rw [linkeditFileOffset, hseg']
    rfl
  rw [newLinkEditSize_eq htotal] at hfits hlinkedit
  -- where a table starts in LINKEDIT
  have hcontent : ∀ t, (mh'.range t).2 ≠ 0 → mh'.getLinkEditContent (mh'.range t).1 =
      position mh newTrieBytes (order.idxOf t) := by
    intro t hne
    have hend := position_end_le mh newTrieBytes t
    rw [(hplaced t).2 hne, fileOffset, newOffset_eq htotal]
    exact getLinkEditContent_add hstart (by omega)
  have hread : ∀ t, mh'.read t = mh.copied newTrieBytes t := by
    intro t
    have hlen : (mh.copied newTrieBytes t).length = (mh'.range t).2 := by
      rw [length_copied, newSize_eq htotal, (hplaced t).1]
    apply List.ext_getElem
    · rw [hlen, read, List.length_map, List.length_range]
    · intro i hi hi'
      have hend := position_end_le mh newTrieBytes t
      have hlt : i < mh.fullSize newTrieBytes t := by
        rw [← (hplaced t).1, ← hlen]
        exact hi'
      have hne : (mh'.range t).2 ≠ 0 := by
        rw [(hplaced t).1]
        omega
      have hholds := holds_newLinkeditBuffer htotal t i _ (List.getElem?_eq_getElem hi')
      rw [newOffset_eq htotal] at hholds
      simp only [read, List.getElem_map, List.getElem_range]
      rw [hcontent t hne, hlinkedit _ (by omega), hholds]
  constructor
  case read_eq =>
    intro t ht
    rw [hread, copied_of_ne htotal ht, read_eq_bytesAt hinside]
  case read_exports => rw [hread, copied_exports htotal]
  case inside =>
    intro t hne
    have hend := position_end_le mh newTrieBytes t
    have hname : seg.segname = "__LINKEDIT" := by
      have hmem := List.mem_of_getLast? hseg
      simpa using (List.mem_filter.mp hmem).2
    have hvmsize : (updateSegment bufferSize mapping seg).vmsize = bufferSize := if_pos hname
    refine ⟨_, _, hseg', ?_⟩
    rw [hcontent t hne, (hplaced t).1, hvmsize]
    omega
  case apart =>
    intro t t' hne hsize hsize'
    rw [hcontent t hsize, hcontent t' hsize', (hplaced t).1, (hplaced t').1]
    exact position_apart hne

/-! A dylib that exports `_a` from its text, with a symbol and function starts. -/

def oneExportBytes : List UInt8 :=
  [1, 0, 0, 0, 0x0F, 1, 0, 0, 0x10, 0x40, 0, 0, 0, 0, 0, 0,
    0, 1, 0x5F, 0x61, 0, 6, 2, 0, 0x10, 0, 0, 0, 0, 0, 0, 0,
    0x10, 0, 0, 0, 0, 0, 0, 0, 0x20, 0x5F, 0x61, 0]

def oneExport : Dylib 64 where
  loadCommands := [.segment ⟨"__TEXT", 0x4000, 0x1000, 0, 0x1000⟩,
    .segment ⟨"__LINKEDIT", 0x5000, 0x1000, 0x1000, 44⟩,
    .idDylib 1,
    .dyldExportsTrie ⟨0x1010, 16⟩,
    .functionStarts ⟨0x1020, 8⟩,
    .symtab ⟨0x1000, 1, 0x1028, 4⟩,
    .codeSignature]
  maskPointers := false
  linkedit := fun i => (oneExportBytes[i]?).getD 0

def oneExportMapping : List SegmentMappingInfo :=
  [⟨0x180004000, 0x1000, 0x4000, 0x1000⟩, ⟨0x1C0000000, 0x1000, 0xFFFFF000, 44⟩]

def oneExportParse (trie : List UInt8) : Option (List Export) :=
  if trie.take 10 = [0, 1, 0x5F, 0x61, 0, 6, 2, 0, 0x10, 0] then
    some [("_a".toUTF8.toList, ⟨0x10, 0, 0, []⟩)]
  else none

theorem rebuildLinkEdit_keeps_oneExport :
    ∃ mh', oneExport.rebuildLinkEditAndLoadCommands oneExportParse 4 oneExportMapping = some mh' ∧
      Keeps oneExport mh'
        [0, 1, 0x5F, 0x61, 0, 6, 2, 0, 0x10, 0, 0, 0, 0, 0, 0, 0] := by
  have hinside : oneExport.TablesInside := by
    intro t h
    refine ⟨_, _, rfl, ?_⟩
    revert h
    cases t <;> decide +kernel
  have hsome : (oneExport.rebuildLinkEditAndLoadCommands oneExportParse 4
      oneExportMapping).isSome := by
    decide +kernel
  obtain ⟨mh', h⟩ := Option.isSome_iff_exists.mp hsome
  exact ⟨mh', h, rebuildLinkEdit_keeps hinside (by decide +kernel) (by decide +kernel) h⟩

end Result

end Dylib

end Dyld.Cache.Rebuild
