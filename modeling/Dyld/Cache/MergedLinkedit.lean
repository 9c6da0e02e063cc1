import Dyld.Cache.StringPool
import Dyld.Lib.BitField
import Dyld.Lib.FlatArray

/-!
# Merging LINKEDITs

The cache builder copies the symbols of all dylibs into one table. A dylib refers to its part of the
table by its start, and its indirect symbol table is renumbered relative to that start. The value of
a symbol has 64 bits here, of which one with 32-bit pointers uses half.
-/

namespace Dyld.Cache

open Dyld.Lib

inductive DylibStripMode
  | stripNone
  | stripExports
  | stripLocals
  | stripAll
  deriving DecidableEq, Repr

structure DyldInfoSizes where
  weakBind : Nat
  bind : Nat
  lazyBind : Nat
  exports : Nat
  deriving DecidableEq, Repr

/-- `LC_DYSYMTAB`, with the indirect symbol table. -/
structure Dysymtab where
  ilocalsym : Nat
  nlocalsym : Nat
  iextdefsym : Nat
  nextdefsym : Nat
  iundefsym : Nat
  nundefsym : Nat
  indirect : List Nat
  deriving DecidableEq, Repr

/-- What a `LinkeditOptimizer` reads of its dylib: the symbol table and its strings, and the sizes of
what stands around them. A LINKEDIT has less than 4 GB, so the symbols are fewer than `2 ^ 30`. -/
structure LinkeditInput where
  symbols : List (Nlist 64)
  strings : List UInt8
  dysymtab : Option Dysymtab
  stripMode : DylibStripMode
  dylibOffset : Nat
  hasChainedFixups : Bool
  dyldInfo : Option DyldInfoSizes
  exportTrie : Option Nat
  functionStarts : Option Nat
  dataInCode : Option Nat
  symbols_lt : symbols.length < 2 ^ 30

namespace LinkeditInput

variable (d : LinkeditInput)

def name (entry : Nlist 64) : List UInt8 := cString d.strings entry.n_strx

/-- The indirect symbol table. -/
def indirect : List Nat :=
  match d.dysymtab with
  | none => []
  | some t => t.indirect

end LinkeditInput

structure LocalSymbolInfo where
  dylibOffset : Nat
  nlistStartIndex : Nat
  nlistCount : Nat
  deriving DecidableEq, Repr

/-- The local variables of `mergeLinkedits` while symbols are copied: the shared table with its
strings, and the local symbols that are not mapped. -/
structure SymbolCopy where
  symbols : List (Nlist 64) := []
  symbolIndex : Nat := 0
  stringPool : List PoolEntry := []
  localSymbolInfos : List LocalSymbolInfo := []
  unmappedLocalSymbols : List (Nlist 64) := []
  localSymbolsStringPool : List PoolEntry := []

/-- The fields that a `LinkeditOptimizer` sets. -/
structure LinkeditIndexes where
  newLocalSymbolsStartIndex : Nat := 0
  newLocalSymbolCount : Nat := 0
  newExportedSymbolsStartIndex : Nat := 0
  newExportedSymbolCount : Nat := 0
  newImportedSymbolsStartIndex : Nat := 0
  newImportedSymbolCount : Nat := 0
  oldToNewSymbolIndexes : Nat → Option Nat := fun _ => none

/-- `_oldToNewSymbolIndexes[oldSymbolIndex] = newSymbolIndex`. -/
def LinkeditIndexes.setNew (o : LinkeditIndexes) (oldSymbolIndex newSymbolIndex : Nat) :
    LinkeditIndexes :=
  { o with oldToNewSymbolIndexes := fun i =>
      if i = oldSymbolIndex then some newSymbolIndex else o.oldToNewSymbolIndexes i }

/-- A symbol at the end of the shared table. -/
def SymbolCopy.append (c : SymbolCopy) (entry : Nlist 64) (name : List UInt8) : SymbolCopy :=
  { c with symbols := c.symbols ++ [entry], symbolIndex := (c.symbolIndex + 1) % 2 ^ 32,
           stringPool := poolAdd c.symbolIndex name c.stringPool }

def isUndefined (entry : Nlist 64) : Bool := entry.n_type &&& 0x0e#8 == 0#8

def isStab (entry : Nlist 64) : Bool := entry.n_type &&& 0xe0#8 != 0#8

def redacted : List UInt8 := [0x3c, 0x72, 0x65, 0x64, 0x61, 0x63, 0x74, 0x65, 0x64, 0x3e]

def objcStart : List UInt8 := [0x2e, 0x6f, 0x62, 0x6a, 0x63, 0x5f]

def ldStart : List UInt8 := [0x24, 0x6c, 0x64, 0x24]

section Copy

variable (d : LinkeditInput)

def SymbolCopy.unmap (c : SymbolCopy) (entry : Nlist 64) : SymbolCopy :=
  { c with
      localSymbolsStringPool :=
        poolAdd c.unmappedLocalSymbols.length (d.name entry) c.localSymbolsStringPool
      unmappedLocalSymbols := c.unmappedLocalSymbols ++ [{ entry with n_strx := 0 }] }

/-- The body of the loop in `copyLocalSymbols`. -/
def copyLocalSymbol (redact : Bool) (c : SymbolCopy) (entry : Nlist 64) : SymbolCopy :=
  if isSect entry = false then c
  else if isStab entry = true then c
  else if redact then
    (if entry.n_sect = 1 then c.append entry redacted else c).unmap d entry
  else c.append entry (d.name entry)

def localEntries : Option (List (Nlist 64)) :=
  match d.stripMode with
  | .stripNone | .stripExports => d.dysymtab.map (fun t => slice d.symbols t.ilocalsym t.nlocalsym)
  | .stripLocals | .stripAll => none

def copyLocalSymbols (redact : Bool) (c : SymbolCopy) (o : LinkeditIndexes) :
    SymbolCopy × LinkeditIndexes :=
  let o := { o with newLocalSymbolsStartIndex := c.symbolIndex, newLocalSymbolCount := 0 }
  let start := c.unmappedLocalSymbols.length % 2 ^ 32
  match localEntries d with
  | none => ({ c with localSymbolInfos := c.localSymbolInfos ++ [⟨d.dylibOffset, start, 0⟩] }, o)
  | some entries =>
    let c' := entries.foldl (copyLocalSymbol d redact) c
    ({ c' with localSymbolInfos := c.localSymbolInfos ++
        [⟨d.dylibOffset, start, sub32 c'.unmappedLocalSymbols.length start⟩] },
      { o with newLocalSymbolCount := sub32 c'.symbolIndex o.newLocalSymbolsStartIndex })

/-- The loops of `copyExportedSymbols` and `copyImportedSymbols`, which differ in what they keep. -/
def copyKept (keep : Nlist 64 → Bool) : List (Nlist 64) → Nat → SymbolCopy → LinkeditIndexes →
    SymbolCopy × LinkeditIndexes
  | [], _, c, o => (c, o)
  | entry :: entries, oldSymbolIndex, c, o =>
    if keep entry then
      copyKept keep entries (oldSymbolIndex + 1) (c.append { entry with n_strx := 0 } (d.name entry))
        (o.setNew oldSymbolIndex (sub32 c.symbolIndex o.newLocalSymbolsStartIndex))
    else copyKept keep entries (oldSymbolIndex + 1) c o

def keepExported (entry : Nlist 64) : Bool :=
  isSect entry && !objcStart.isPrefixOf (d.name entry) && !ldStart.isPrefixOf (d.name entry)

def exportedEntries : Option (Nat × List (Nlist 64)) :=
  match d.stripMode with
  | .stripNone | .stripLocals =>
    d.dysymtab.map (fun t => (t.iextdefsym, slice d.symbols t.iextdefsym t.nextdefsym))
  | .stripExports | .stripAll => none

def copyExportedSymbols (c : SymbolCopy) (o : LinkeditIndexes) : SymbolCopy × LinkeditIndexes :=
  let o := { o with newExportedSymbolsStartIndex := c.symbolIndex, newExportedSymbolCount := 0 }
  match exportedEntries d with
  | none => (c, o)
  | some (iextdefsym, entries) =>
    let (c', o') := copyKept d (keepExported d) entries iextdefsym c o
    (c', { o' with newExportedSymbolCount := sub32 c'.symbolIndex o'.newExportedSymbolsStartIndex })

def importedEntries : Option (Nat × List (Nlist 64)) :=
  match d.stripMode with
  | .stripNone => d.dysymtab.map (fun t => (t.iundefsym, slice d.symbols t.iundefsym t.nundefsym))
  | .stripLocals | .stripExports | .stripAll => none

def copyImportedSymbols (c : SymbolCopy) (o : LinkeditIndexes) : SymbolCopy × LinkeditIndexes :=
  let o := { o with newImportedSymbolsStartIndex := c.symbolIndex, newImportedSymbolCount := 0 }
  match importedEntries d with
  | none => (c, o)
  | some (iundefsym, entries) =>
    let (c', o') := copyKept d isUndefined entries iundefsym c o
    (c', { o' with newImportedSymbolCount := sub32 c'.symbolIndex o'.newImportedSymbolsStartIndex })

def copySymbols (redact : Bool) (c : SymbolCopy) : SymbolCopy × LinkeditIndexes :=
  let (c, o) := copyLocalSymbols d redact c {}
  let (c, o) := copyExportedSymbols d c o
  copyImportedSymbols d c o

end Copy

/-- The loop over the dylibs that copies their symbols. -/
def copyAllSymbols (redact : Bool) : List LinkeditInput → SymbolCopy →
    SymbolCopy × List LinkeditIndexes
  | [], c => (c, [])
  | d :: ds, c =>
    let (c, o) := copySymbols d redact c
    let (c, os) := copyAllSymbols redact ds c
    (c, o :: os)

def INDIRECT_SYMBOL_LOCAL : Nat := 0x80000000

def INDIRECT_SYMBOL_ABS : Nat := 0x40000000

/-- An entry in `copyIndirectSymbolTable`. The map has zero for a symbol that was not copied. -/
def newIndirectEntry (o : LinkeditIndexes) (symbolIndex : Nat) : Nat :=
  if symbolIndex = INDIRECT_SYMBOL_ABS ∨ symbolIndex = INDIRECT_SYMBOL_LOCAL then symbolIndex
  else (o.oldToNewSymbolIndexes symbolIndex).getD 0

/-! ### The layout -/

section Layout

structure SymbolCommands where
  symoff : Nat
  nsyms : Nat
  stroff : Nat
  strsize : Nat
  ilocalsym : Nat
  nlocalsym : Nat
  iextdefsym : Nat
  nextdefsym : Nat
  iundefsym : Nat
  nundefsym : Nat
  indirectsymoff : Nat
  nindirectsyms : Nat
  deriving DecidableEq, Repr

/-- The merged LINKEDIT at its offset in the cache file, with the load commands of the dylibs. Its
offsets are 32-bit words. -/
structure MergedLinkedit where
  fileOffset : Nat
  nlistSize : Nat
  symbolsOffset : Nat
  symbols : List (Nlist 64)
  indirectOffset : Nat
  indirect : List Nat
  stringsOffset : Nat
  strings : List UInt8
  commands : List SymbolCommands

/-- The bytes that `copyWeakBindingInfo`, `copyExportInfo`, `copyBindingInfo` and
`copyLazyBindingInfo` put before the symbols. -/
def bytesBeforeSymbols (d : LinkeditInput) : Nat :=
  let info := d.dyldInfo.getD ⟨0, 0, 0, 0⟩
  (if d.hasChainedFixups then 0 else info.weakBind) + d.exportTrie.getD info.exports +
    (if d.hasChainedFixups then 0 else info.bind) + (if d.hasChainedFixups then 0 else info.lazyBind)

/-- The bytes that `copyFunctionStarts` and `copyDataInCode` put behind the symbols. -/
def bytesAfterSymbols (d : LinkeditInput) : Nat := d.functionStarts.getD 0 + d.dataInCode.getD 0

def updateLoadCommands (fileOffset nlistSize symbolsOffset stringsOffset stringsSize indirectOffset : Nat)
    (d : LinkeditInput) (o : LinkeditIndexes) : SymbolCommands where
  symoff := (fileOffset + symbolsOffset + o.newLocalSymbolsStartIndex * nlistSize) % 2 ^ 32
  nsyms := (o.newLocalSymbolCount + o.newExportedSymbolCount + o.newImportedSymbolCount) % 2 ^ 32
  stroff := (fileOffset + stringsOffset) % 2 ^ 32
  strsize := stringsSize
  ilocalsym := 0
  nlocalsym := o.newLocalSymbolCount
  iextdefsym := sub32 o.newExportedSymbolsStartIndex o.newLocalSymbolsStartIndex
  nextdefsym := o.newExportedSymbolCount
  iundefsym := sub32 o.newImportedSymbolsStartIndex o.newLocalSymbolsStartIndex
  nundefsym := o.newImportedSymbolCount
  indirectsymoff := (fileOffset + indirectOffset) % 2 ^ 32
  nindirectsyms := d.indirect.length

/-- The loop over the dylibs that updates their load commands. The indirect symbol tables stand one
behind the other. -/
def updateAllLoadCommands (fileOffset nlistSize symbolsOffset stringsOffset stringsSize : Nat) :
    List (LinkeditInput × LinkeditIndexes) → Nat → List SymbolCommands
  | [], _ => []
  | (d, o) :: rest, indirectOffset =>
    updateLoadCommands fileOffset nlistSize symbolsOffset stringsOffset stringsSize indirectOffset d o ::
      updateAllLoadCommands fileOffset nlistSize symbolsOffset stringsOffset stringsSize rest
        ((indirectOffset + 4 * d.indirect.length) % 2 ^ 32)

/-- `LinkeditOptimizer::mergeLinkedits`, for pointers of `ptrSize` bytes. `redact` says that local
symbols are unmapped. -/
def mergeLinkedits (ptrSize fileOffset : Nat) (redact : Bool) (dylibs : List LinkeditInput) :
    MergedLinkedit :=
  let nlistSize := 8 + ptrSize
  let symbolsOffset := (dylibs.map bytesBeforeSymbols).sum % 2 ^ 32
  let (c, os) := copyAllSymbols redact dylibs {}
  let indirectOffset :=
    (symbolsOffset + c.symbols.length * nlistSize + (dylibs.map bytesAfterSymbols).sum) % 2 ^ 32
  let indirect := (dylibs.zip os).flatMap (fun p => p.1.indirect.map (newIndirectEntry p.2))
  let offset := (indirectOffset + 4 * indirect.length) % 2 ^ 32
  let stringsOffset := (if offset % ptrSize ≠ 0 then offset + 4 else offset) % 2 ^ 32
  let (strings, symbols) := copyPoolAndUpdateOffsets c.stringPool c.symbols
  { fileOffset, nlistSize, symbolsOffset, symbols, indirectOffset, indirect, stringsOffset, strings
    commands := updateAllLoadCommands fileOffset nlistSize symbolsOffset stringsOffset (strings.length % 2 ^ 32)
      (dylibs.zip os) indirectOffset }

end Layout

end Dyld.Cache
