import Dyld.Lib.DepthFirst

/-!
# Looking up symbols through re-exports

`MachOLoaded::findExportedSymbol` and `WrappedMachO::findSymbolIn` look for a symbol in an image
and, when the image does not export it, in the dylibs that it re-exports. An entry of the exports
trie can also name the dylib and the symbol there. Neither function marks the images it was at.
The lookups are compared with depth-first search.
-/

namespace Dyld.MachO.ReExports
open Dyld.Lib

/-! ### Images -/

/-- An entry of the exports trie: the flags and what follows them. For a re-export `value` is the
ordinal of the library. -/
structure ExportNode where
  flags : Nat
  value : UInt64
  resolver : UInt64
  importedName : String
  deriving DecidableEq

namespace ExportNode

def isReExport (node : ExportNode) : Bool := node.flags.testBit 3

def kind (node : ExportNode) : Nat := node.flags % 4

/-- The name to look for in the other library. -/
def importedNameOr (node : ExportNode) (symbolName : String) : String :=
  if node.importedName = "" then symbolName else node.importedName

end ExportNode

/-- What the lookups read of a mach-o file; `reExports` has an entry for each dylib load command. -/
structure MachOFile where
  exportsTrie : Option (List (String × ExportNode))
  globalSymbols : List (String × UInt64)
  reExports : List Bool
  isDylib : Bool
  noReexportedDylibs : Bool
  textUnslidVMAddr : UInt64
  deriving DecidableEq

/-- The loop over the dylib load commands, with the lookup in a dependent. -/
def searchReExported {ι σ : Type*} (dependent : Nat → Option ι) (find : ι → σ → Option (Bool × σ)) :
    List Bool → Nat → σ → Option (Bool × σ)
  | [], _, st => some (false, st)
  | isReExport :: rest, depIndex, st =>
    if isReExport then
      match dependent depIndex with
      | some dep =>
        match find dep st with
        | none => none
        | some (true, st) => some (true, st)
        | some (false, st) => searchReExported dependent find rest (depIndex + 1) st
      | none => searchReExported dependent find rest (depIndex + 1) st
    else searchReExported dependent find rest (depIndex + 1) st

/-! ### `findExportedSymbol` -/

/-- What `diag.error` was called with. -/
inductive FindError
  | ordinalOutOfRange (ordinal : UInt64) (symbolName : String)
  | dependentNotFound (ordinal : UInt64) (symbolName : String)
  | unsupportedKind (flags : Nat)

inductive SymbolKind
  | headerOffset | absolute | resolverOffset

structure FoundSymbol (ι : Type*) where
  kind : SymbolKind
  isThreadLocal : Bool
  isWeakDef : Bool
  foundInDylib : Option ι
  value : UInt64
  resolverFuncOffset : UInt32
  foundSymbolName : Option String

structure FindState (ι : Type*) where
  diag : Option FindError
  foundInfo : FoundSymbol ι

section FindExportedSymbol

variable {ι : Type*} (files : ι → MachOFile) (findDependent : Option (ι → Nat → Option ι))
  (weakImport : Bool)

/-- The symbol for an entry of the trie, if its kind is supported. -/
def exportedSymbol (image : ι) (symbolName : String) (node : ExportNode) (info : FoundSymbol ι) :
    FoundSymbol ι :=
  let info := { info with kind := .headerOffset, isThreadLocal := false, isWeakDef := false
                          foundInDylib := some image, value := node.value
                          resolverFuncOffset := 0, foundSymbolName := some symbolName }
  match node.kind with
  | 0 => { info with resolverFuncOffset := if node.flags.testBit 4 then node.resolver.toUInt32 else 0
                     isWeakDef := node.flags.testBit 2 }
  | 1 => { info with isThreadLocal := true }
  | 2 => { info with kind := .absolute }
  | _ => info

/-- The symbol for an entry of the symbol table of an old binary. -/
def globalSymbol (image : ι) (symbolName : String) (n_value : UInt64) (info : FoundSymbol ι) :
    FoundSymbol ι :=
  { info with kind := .headerOffset, isThreadLocal := false, foundInDylib := some image
              value := n_value - (files image).textUnslidVMAddr, resolverFuncOffset := 0
              foundSymbolName := some symbolName }

/-- `MachOLoaded::findExportedSymbol`, to a depth. -/
def findExportedSymbol : Nat → ι → String → FindState ι → Option (Bool × FindState ι)
  | 0, _, _, _ => none
  | fuel + 1, image, symbolName, st =>
    let searchDylibs := searchReExported (fun depIndex => findDependent.bind (· image depIndex))
      (fun dep st => findExportedSymbol fuel dep symbolName st) (files image).reExports 0
    if st.diag.isSome then some (false, st)
    else
      match (files image).exportsTrie with
      | some trie =>
        match trie.lookup symbolName with
        | none => searchDylibs st
        | some node =>
          if node.isReExport then
            match findDependent with
            | none => some (false, st)
            | some findDependent =>
              if node.value = 0 ∨ (files image).reExports.length < node.value.toNat then
                some (false, { st with diag := some (.ordinalOutOfRange node.value symbolName) })
              else
                match findDependent image (node.value - 1).toNat with
                | some dep => findExportedSymbol fuel dep (node.importedNameOr symbolName) st
                | none =>
                  if weakImport then some (false, st)
                  else some (false, { st with diag := some (.dependentNotFound node.value symbolName) })
          else
            let st := { st with foundInfo := exportedSymbol image symbolName node st.foundInfo }
            if node.kind = 3 then some (false, { st with diag := some (.unsupportedKind node.flags) })
            else some (true, st)
      | none =>
        let st := { st with foundInfo := { st.foundInfo with foundInDylib := none } }
        match (files image).globalSymbols.lookup symbolName with
        | some n_value =>
          some (true, { st with foundInfo := globalSymbol files image symbolName n_value st.foundInfo })
        | none =>
          -- the result of the search is not looked at, only what it leaves
          (searchDylibs st).map fun r => (r.2.foundInfo.foundInDylib.isSome, r.2)

end FindExportedSymbol

/-! ### `findSymbolIn` -/

/-- What `dependent` returns and sets. When it returns false, `missingWeakDylib` has any value. -/
inductive Dependent (ι : Type*)
  | notFound (missingWeakDylib : Bool)
  | missingWeakDylib
  | child (image : ι)

def Dependent.child? {ι : Type*} : Dependent ι → Option ι
  | .child image => some image
  | _ => none

/-- `MachOAnalyzerSet::FixupTarget::Kind`. -/
inductive TargetKind
  | rebase | bindToImage | bindAbsolute | bindMissingSymbol
  deriving DecidableEq, Repr

/-- The part of `FixupTarget` that a lookup in an image sets. -/
structure FixupTarget (ι : Type*) where
  foundInImage : Option ι
  offsetInImage : UInt64
  requestedSymbolName : Option String
  foundSymbolName : Option String
  addend : UInt64
  kind : TargetKind
  isWeakDef : Bool

structure TargetState (ι : Type*) where
  hasError : Bool
  target : FixupTarget ι

def FixupTarget.clear {ι : Type*} (target : FixupTarget ι) : FixupTarget ι :=
  { target with foundSymbolName := none }

def TargetState.clear {ι : Type*} (st : TargetState ι) : TargetState ι :=
  { st with target := st.target.clear }

section FindSymbolIn

variable {ι : Type*} (files : ι → MachOFile) (dependent : ι → UInt32 → Dependent ι) (addend : UInt64)

/-- `trieWalk`. After an error it fails at the first edge of the trie. -/
def trieWalk (hasError : Bool) (trie : List (String × ExportNode)) (symbolName : String) :
    Option ExportNode :=
  if hasError && symbolName ≠ "" then none else trie.lookup symbolName

def exportedTarget (image : ι) (symbolName : String) (node : ExportNode) (target : FixupTarget ι) :
    FixupTarget ι :=
  let target := { target with kind := .bindToImage, requestedSymbolName := some symbolName
                              foundSymbolName := some symbolName, foundInImage := some image
                              isWeakDef := false, addend := addend }
  match node.kind with
  | 0 => { target with offsetInImage := node.value + addend, isWeakDef := node.flags.testBit 2 }
  | 1 => { target with offsetInImage := node.value }
  | 2 => { target with kind := .bindAbsolute, offsetInImage := node.value + addend }
  | _ => target

def globalTarget (image : ι) (symbolName : String) (n_value : UInt64) (target : FixupTarget ι) :
    FixupTarget ι :=
  { target with kind := .bindToImage, foundSymbolName := some symbolName
                requestedSymbolName := some symbolName, foundInImage := some image
                offsetInImage := n_value - (files image).textUnslidVMAddr + addend, addend := addend }

def searchDylibs (find : ι → TargetState ι → Option (Bool × TargetState ι)) (image : ι)
    (st : TargetState ι) : Option (Bool × TargetState ι) :=
  let searched :=
    if (files image).isDylib && !(files image).noReexportedDylibs then
      searchReExported (fun depIndex => (dependent image depIndex.toUInt32).child?) find
        (files image).reExports 0 st
    else some (false, st)
  searched.map fun r => (r.2.target.foundSymbolName.isSome, r.2)

/-- `WrappedMachO::findSymbolIn`, to a depth. -/
def findSymbolIn : Nat → ι → String → TargetState ι → Option (Bool × TargetState ι)
  | 0, _, _, _ => none
  | fuel + 1, image, symbolName, st =>
    let st := st.clear
    let notExported := searchDylibs files dependent
      (fun child st => findSymbolIn fuel child symbolName st) image st
    match (files image).exportsTrie with
    | some trie =>
      match trieWalk st.hasError trie symbolName with
      | none => notExported
      | some node =>
        if node.isReExport then
          match dependent image (node.value - 1).toUInt32 with
          | .child depHelper =>
            (findSymbolIn fuel depHelper (node.importedNameOr symbolName) st).map fun r =>
              if r.1 then
                (true, { r.2 with target := { r.2.target with requestedSymbolName := some symbolName } })
              else (false, { r.2 with hasError := true })
          | .missingWeakDylib => some (false, st)
          | .notFound missingWeakDylib =>
            some (false, { st with hasError := st.hasError || !missingWeakDylib })
        else
          let st := { st with target := exportedTarget addend image symbolName node st.target }
          if node.kind = 3 then some (false, { st with hasError := true }) else some (true, st)
    | none =>
      match if st.hasError then none else (files image).globalSymbols.lookup symbolName with
      | some n_value =>
        some (true, { st with target := globalTarget files addend image symbolName n_value st.target })
      | none => notExported

end FindSymbolIn

/-! ### The graphs that are searched -/

/-- What ends a lookup. -/
inductive Stop (ι : Type*)
  | definition (image : ι) (symbolName : String)
  | error

def reExported {ι : Type*} (dependent : Nat → Option ι) : List Bool → Nat → List ι
  | [], _ => []
  | isReExport :: rest, depIndex =>
    if isReExport then (dependent depIndex).toList ++ reExported dependent rest (depIndex + 1)
    else reExported dependent rest (depIndex + 1)

section Graphs

variable {ι : Type*} (files : ι → MachOFile)

/-- A symbol in an image. An entry that re-exports leads to the symbol there, an image that does
not export the symbol leads to the dylibs that it re-exports. -/
def exportedGraph (findDependent : Option (ι → Nat → Option ι)) (weakImport : Bool) :
    SearchGraph (ι × String) (Stop ι) where
  stop := fun (image, symbolName) =>
    match (files image).exportsTrie with
    | some trie =>
      match trie.lookup symbolName with
      | none => none
      | some node =>
        if node.isReExport then
          match findDependent with
          | none => none
          | some findDependent =>
            if node.value = 0 ∨ (files image).reExports.length < node.value.toNat then some .error
            else if (findDependent image (node.value - 1).toNat).isNone && !weakImport then some .error
            else none
        else if node.kind = 3 then some .error
        else some (.definition image symbolName)
    | none => ((files image).globalSymbols.lookup symbolName).map fun _ => .definition image symbolName
  children := fun (image, symbolName) =>
    match (files image).exportsTrie.bind (·.lookup symbolName) with
    | some node => (findDependent.bind (· image (node.value - 1).toNat)).toList.map
        (·, node.importedNameOr symbolName)
    | none => (reExported (fun depIndex => findDependent.bind (· image depIndex))
        (files image).reExports 0).map (·, symbolName)

/-- For `findSymbolIn` a lookup through an entry that re-exports is an error when it fails. This is
the node `none`, which comes last. Only dylibs lead to the dylibs that they re-export. -/
def symbolInGraph (dependent : ι → UInt32 → Dependent ι) :
    SearchGraph (Option (ι × String)) (Stop ι) where
  stop := fun
    | none => some .error
    | some (image, symbolName) =>
      match (files image).exportsTrie with
      | some trie =>
        match trie.lookup symbolName with
        | none => none
        | some node =>
          if node.isReExport then
            match dependent image (node.value - 1).toUInt32 with
            | .notFound false => some .error
            | _ => none
          else if node.kind = 3 then some .error
          else some (.definition image symbolName)
      | none => ((files image).globalSymbols.lookup symbolName).map fun _ => .definition image symbolName
  children := fun
    | none => []
    | some (image, symbolName) =>
      match (files image).exportsTrie.bind (·.lookup symbolName) with
      | some node =>
        match dependent image (node.value - 1).toUInt32 with
        | .child depHelper => [some (depHelper, node.importedNameOr symbolName), none]
        | _ => []
      | none =>
        if (files image).isDylib && !(files image).noReexportedDylibs then
          (reExported (fun depIndex => (dependent image depIndex.toUInt32).child?)
            (files image).reExports 0).map fun child => some (child, symbolName)
        else []

end Graphs

lemma searchReExported_eq {ι α σ : Type*} (dependent : Nat → Option ι) (g : ι → α)
    (find : α → σ → Option (Bool × σ)) (flags : List Bool) (depIndex : Nat) (st : σ) :
    searchReExported dependent (fun dep st => find (g dep) st) flags depIndex st =
      firstFound find ((reExported dependent flags depIndex).map g) st := by
  induction flags generalizing depIndex st with
  | nil => rfl
  | cons isReExport flags ih =>
    rw [searchReExported, reExported]
    cases isReExport with
    | false => exact ih (depIndex + 1) st
    | true =>
      rw [if_pos rfl, if_pos rfl]
      cases hdep : dependent depIndex with
      | none => exact ih (depIndex + 1) st
      | some dep =>
        rw [Option.toList_some, List.singleton_append, List.map_cons, firstFound]
        dsimp only
        cases hfind : find (g dep) st with
        | none => rfl
        | some r =>
          obtain ⟨found, st'⟩ := r
          cases found with
          | true => rfl
          | false => exact ih (depIndex + 1) st'

lemma firstStop_singleton {α β : Type*} (find : α → Option (Option β)) (c : α) :
    firstStop find [c] = find c := by
  rw [firstStop]
  cases find c with
  | none => rfl
  | some r => cases r <;> rfl

/-! ### `findExportedSymbol` searches its graph -/

section ExportedGraph

variable {ι : Type*} {files : ι → MachOFile} {findDependent : Option (ι → Nat → Option ι)}
  {weakImport : Bool}

def FoundSymbol.reset (info : FoundSymbol ι) : FoundSymbol ι := { info with foundInDylib := none }

variable (files) in
def definedSymbol (image : ι) (symbolName : String) (info : FoundSymbol ι) : FoundSymbol ι :=
  match (files image).exportsTrie with
  | some trie => (trie.lookup symbolName).elim info.reset
      fun node => exportedSymbol image symbolName node info.reset
  | none => ((files image).globalSymbols.lookup symbolName).elim info.reset
      fun n_value => globalSymbol files image symbolName n_value info.reset

/-- A lookup that fails leaves the symbol as it is, or without an image. -/
structure FindState.Same (st st' : FindState ι) : Prop where
  diag : st'.diag = st.diag
  reset : st'.foundInfo.reset = st.foundInfo.reset
  foundInDylib : st.foundInfo.foundInDylib = none → st'.foundInfo.foundInDylib = none

variable (files) in
def FindState.Reports (b : Stop ι) (st : FindState ι) (out : Option (Bool × FindState ι)) : Prop :=
  match b with
  | .definition image symbolName =>
    out = some (true, { st with foundInfo := definedSymbol files image symbolName st.foundInfo }) ∧
      (definedSymbol files image symbolName st.foundInfo).foundInDylib = some image
  | .error => ∃ found st', out = some (found, st') ∧ st'.diag ≠ none

lemma exportedSymbol_reset (image : ι) (symbolName : String) (node : ExportNode)
    (info : FoundSymbol ι) :
    exportedSymbol image symbolName node info.reset = exportedSymbol image symbolName node info := by
  unfold exportedSymbol
  split <;> rfl

lemma foundInDylib_exportedSymbol (image : ι) (symbolName : String) (node : ExportNode)
    (info : FoundSymbol ι) :
    (exportedSymbol image symbolName node info).foundInDylib = some image := by
  unfold exportedSymbol
  split <;> rfl

lemma definedSymbol_congr {info info' : FoundSymbol ι} (h : info'.reset = info.reset) (image : ι)
    (symbolName : String) :
    definedSymbol files image symbolName info' = definedSymbol files image symbolName info := by
  unfold definedSymbol
  rw [h]

lemma findExportedSymbol_of_error (fuel : Nat) (image : ι) (symbolName : String) {st : FindState ι}
    (h : st.diag ≠ none) :
    findExportedSymbol files findDependent weakImport (fuel + 1) image symbolName st =
      some (false, st) := by
  rw [findExportedSymbol]
  exact if_pos (Option.isSome_iff_ne_none.mpr h)

variable (files findDependent weakImport) in
lemma reporting_findExportedSymbol (fuel : Nat) :
    Reporting (fun (c : ι × String) st =>
      findExportedSymbol files findDependent weakImport (fuel + 1) c.1 c.2 st)
      (fun st => st.diag = none) FindState.Same (FindState.Reports files) := by
  constructor
  · intro st st' hst hsame
    exact hsame.diag.trans hst
  · intro st
    exact ⟨rfl, rfl, id⟩
  · intro st st' st'' h h'
    exact ⟨h'.diag.trans h.diag, h'.reset.trans h.reset, fun hnone => h'.foundInDylib (h.foundInDylib hnone)⟩
  · intro b st st' out hsame hreports
    cases b with
    | error => exact hreports
    | definition image symbolName =>
      unfold FindState.Reports at hreports ⊢
      dsimp only at hreports ⊢
      rw [definedSymbol_congr hsame.reset] at hreports
      refine ⟨hreports.1.trans ?_, hreports.2⟩
      rw [hsame.diag]
  · intro b st st' cs hreports
    cases b with
    | definition image symbolName =>
      have hfound := hreports.1
      cases hfound
    | error =>
      obtain ⟨found, st'', hout, herror⟩ := hreports
      cases hout
      refine ⟨false, st', ?_, herror⟩
      induction cs with
      | nil => rfl
      | cons c cs ih =>
        rw [firstFound, findExportedSymbol_of_error fuel c.1 c.2 herror]
        exact ih

variable (files findDependent weakImport) in
/-- What `findExportedSymbol` does to a depth, compared with the search to that depth. -/
def ExportedFollows (fuel : Nat) : Prop :=
  ∀ (image : ι) (symbolName : String) (st : FindState ι), st.diag = none →
    Follows FindState.Same (FindState.Reports files)
      ((exportedGraph files findDependent weakImport).search fuel (image, symbolName)) st
      (findExportedSymbol files findDependent weakImport fuel image symbolName st)

lemma searchDylibs_follows {fuel : Nat} (ih : ExportedFollows files findDependent weakImport fuel)
    (image : ι) (symbolName : String) {st : FindState ι} (hst : st.diag = none) :
    Follows FindState.Same (FindState.Reports files)
      (firstStop ((exportedGraph files findDependent weakImport).search fuel)
        ((reExported (fun depIndex => findDependent.bind (· image depIndex))
          (files image).reExports 0).map (·, symbolName))) st
      (searchReExported (fun depIndex => findDependent.bind (· image depIndex))
        (fun dep st => findExportedSymbol files findDependent weakImport fuel dep symbolName st)
        (files image).reExports 0 st) := by
  rw [searchReExported_eq _ (fun dep => (dep, symbolName))
    (fun c st => findExportedSymbol files findDependent weakImport fuel c.1 c.2 st)]
  generalize (reExported _ (files image).reExports 0).map _ = cs
  cases fuel with
  | zero =>
    cases cs with
    | nil => exact ⟨st, rfl, rfl, rfl, id⟩
    | cons c cs => rfl
  | succ fuel =>
    exact follows_firstStop (reporting_findExportedSymbol files findDependent weakImport fuel) cs hst
      (fun c _ st hst => ih c.1 c.2 st hst)

/-- For an old binary only the image that is left in the symbol is looked at. -/
lemma follows_of_foundInDylib {result : Option (Option (Stop ι))} {st : FindState ι}
    {out : Option (Bool × FindState ι)} (hnone : st.foundInfo.foundInDylib = none)
    (h : Follows FindState.Same (FindState.Reports files) result st out) :
    Follows FindState.Same (FindState.Reports files) result st
      (out.map fun r => (r.2.foundInfo.foundInDylib.isSome, r.2)) := by
  cases result with
  | none =>
    change out = none at h
    rw [h]
    rfl
  | some r =>
    cases r with
    | none =>
      obtain ⟨st', hout, hsame⟩ := h
      refine ⟨st', ?_, hsame⟩
      rw [hout, Option.map_some, hsame.foundInDylib hnone]
      rfl
    | some b =>
      cases b with
      | definition image symbolName =>
        obtain ⟨hout, hfound⟩ := h
        refine ⟨?_, hfound⟩
        rw [hout, Option.map_some]
        dsimp only
        rw [hfound]
        rfl
      | error =>
        obtain ⟨found, st', hout, herror⟩ := h
        exact ⟨_, st', by rw [hout, Option.map_some], herror⟩

lemma symbolTable_follows {fuel : Nat} (ih : ExportedFollows files findDependent weakImport fuel)
    {image : ι} (symbolName : String) {st : FindState ι} (hst : st.diag = none)
    (htrie : (files image).exportsTrie = none) :
    Follows FindState.Same (FindState.Reports files)
      ((exportedGraph files findDependent weakImport).search (fuel + 1) (image, symbolName)) st
      (findExportedSymbol files findDependent weakImport (fuel + 1) image symbolName st) := by
  have hdiag : ¬st.diag.isSome = true := by simp [hst]
  rw [findExportedSymbol, SearchGraph.search, htrie]
  dsimp only
  rw [if_neg hdiag]
  cases hlookup : (files image).globalSymbols.lookup symbolName with
  | some n_value =>
    have hstop : (exportedGraph files findDependent weakImport).stop (image, symbolName) =
        some (.definition image symbolName) := by
      simp only [exportedGraph, htrie, hlookup, Option.map_some]
    rw [hstop]
    dsimp only
    constructor
    · simp only [definedSymbol, htrie, hlookup, Option.elim_some]
      rfl
    · simp only [definedSymbol, htrie, hlookup, Option.elim_some]
      rfl
  | none =>
    have hstop : (exportedGraph files findDependent weakImport).stop (image, symbolName) = none := by
      simp only [exportedGraph, htrie, hlookup, Option.map_none]
    have hchildren : (exportedGraph files findDependent weakImport).children (image, symbolName) =
        (reExported (fun depIndex => findDependent.bind (· image depIndex))
          (files image).reExports 0).map (·, symbolName) := by
      simp only [exportedGraph, htrie, Option.bind_none]
    rw [hstop, hchildren]
    have hreset : FindState.Same st { st with foundInfo := st.foundInfo.reset } :=
      ⟨rfl, rfl, fun _ => rfl⟩
    apply (reporting_findExportedSymbol files findDependent weakImport 0).follows_of_same hreset
    exact follows_of_foundInDylib rfl (searchDylibs_follows ih image symbolName hst)

lemma reExport_follows {fuel : Nat} (ih : ExportedFollows files findDependent weakImport fuel)
    {image : ι} {symbolName : String} {st : FindState ι} (hst : st.diag = none)
    {trie : List (String × ExportNode)} {node : ExportNode} (htrie : (files image).exportsTrie = some trie)
    (hlookup : trie.lookup symbolName = some node) (hreExport : node.isReExport = true) :
    Follows FindState.Same (FindState.Reports files)
      ((exportedGraph files findDependent weakImport).search (fuel + 1) (image, symbolName)) st
      (findExportedSymbol files findDependent weakImport (fuel + 1) image symbolName st) := by
  have hdiag : ¬st.diag.isSome = true := by simp [hst]
  have hchildren : (exportedGraph files findDependent weakImport).children (image, symbolName) =
      (findDependent.bind (· image (node.value - 1).toNat)).toList.map
        (·, node.importedNameOr symbolName) := by
    simp only [exportedGraph, htrie, hlookup, Option.bind_some]
  rw [findExportedSymbol, SearchGraph.search, htrie]
  dsimp only
  rw [if_neg hdiag, hlookup]
  dsimp only
  rw [if_pos hreExport]
  cases findDependent with
  | none =>
    have hstop : (exportedGraph files none weakImport).stop (image, symbolName) = none := by
      simp only [exportedGraph, htrie, hlookup, hreExport, if_true]
    rw [hstop, hchildren]
    exact ⟨st, rfl, rfl, rfl, id⟩
  | some findDependent =>
    dsimp only
    by_cases hordinal : node.value = 0 ∨ (files image).reExports.length < node.value.toNat
    · have hstop : (exportedGraph files (some findDependent) weakImport).stop (image, symbolName) =
          some .error := by
        simp only [exportedGraph, htrie, hlookup, hreExport, if_true, if_pos hordinal]
      rw [hstop, if_pos hordinal]
      exact ⟨false, _, rfl, Option.some_ne_none _⟩
    · rw [if_neg hordinal]
      cases hdep : findDependent image (node.value - 1).toNat with
      | some dep =>
        have hstop : (exportedGraph files (some findDependent) weakImport).stop (image, symbolName) =
            none := by
          simp only [exportedGraph, htrie, hlookup, hreExport, if_true, if_neg hordinal, hdep,
            Option.isNone_some, Bool.false_and, Bool.false_eq_true, if_false]
        rw [hstop, hchildren, Option.bind_some, hdep]
        change Follows _ _ (firstStop _ [(dep, node.importedNameOr symbolName)]) _ _
        rw [firstStop_singleton]
        exact ih dep (node.importedNameOr symbolName) st hst
      | none =>
        cases weakImport with
        | true =>
          have hstop : (exportedGraph files (some findDependent) true).stop (image, symbolName) = none := by
            simp only [exportedGraph, htrie, hlookup, hreExport, if_true, if_neg hordinal,
              Bool.not_true, Bool.and_false, Bool.false_eq_true, if_false]
          rw [hstop, hchildren, Option.bind_some, hdep]
          exact ⟨st, rfl, rfl, rfl, id⟩
        | false =>
          have hstop : (exportedGraph files (some findDependent) false).stop (image, symbolName) =
              some .error := by
            simp only [exportedGraph, htrie, hlookup, hreExport, if_true, if_neg hordinal, hdep,
              Option.isNone_none, Bool.not_false, Bool.and_self]
          rw [hstop]
          exact ⟨false, _, rfl, Option.some_ne_none _⟩

variable (findDependent weakImport) in
lemma definition_follows (fuel : Nat) {image : ι} {symbolName : String} {st : FindState ι}
    (hst : st.diag = none) {trie : List (String × ExportNode)} {node : ExportNode}
    (htrie : (files image).exportsTrie = some trie) (hlookup : trie.lookup symbolName = some node)
    (hreExport : node.isReExport = false) :
    Follows FindState.Same (FindState.Reports files)
      ((exportedGraph files findDependent weakImport).search (fuel + 1) (image, symbolName)) st
      (findExportedSymbol files findDependent weakImport (fuel + 1) image symbolName st) := by
  have hdiag : ¬st.diag.isSome = true := by simp [hst]
  rw [findExportedSymbol, SearchGraph.search, htrie]
  dsimp only
  rw [if_neg hdiag, hlookup]
  dsimp only
  rw [hreExport, if_neg Bool.false_ne_true]
  by_cases hkind : node.kind = 3
  · have hstop : (exportedGraph files findDependent weakImport).stop (image, symbolName) =
        some .error := by
      simp only [exportedGraph, htrie, hlookup, hreExport, Bool.false_eq_true, if_false, hkind, if_true]
    rw [hstop, if_pos hkind]
    exact ⟨false, _, rfl, Option.some_ne_none _⟩
  · have hstop : (exportedGraph files findDependent weakImport).stop (image, symbolName) =
        some (.definition image symbolName) := by
      simp only [exportedGraph, htrie, hlookup, hreExport, Bool.false_eq_true, if_false, if_neg hkind]
    have hdefined : definedSymbol files image symbolName st.foundInfo =
        exportedSymbol image symbolName node st.foundInfo := by
      simp only [definedSymbol, htrie, hlookup, Option.elim_some]
      exact exportedSymbol_reset image symbolName node st.foundInfo
    rw [hstop, if_neg hkind]
    constructor
    · rw [hdefined]
    · rw [hdefined, foundInDylib_exportedSymbol]

variable (files findDependent weakImport) in
lemma findExportedSymbol_follows (fuel : Nat) :
    ExportedFollows files findDependent weakImport fuel := by
  induction fuel with
  | zero =>
    intro image symbolName st _
    rfl
  | succ fuel ih =>
    intro image symbolName st hst
    cases htrie : (files image).exportsTrie with
    | none => exact symbolTable_follows ih symbolName hst htrie
    | some trie =>
      cases hlookup : trie.lookup symbolName with
      | none =>
        have hdiag : ¬st.diag.isSome = true := by simp [hst]
        have hstop : (exportedGraph files findDependent weakImport).stop (image, symbolName) = none := by
          simp only [exportedGraph, htrie, hlookup]
        have hchildren : (exportedGraph files findDependent weakImport).children (image, symbolName) =
            (reExported (fun depIndex => findDependent.bind (· image depIndex))
              (files image).reExports 0).map (·, symbolName) := by
          simp only [exportedGraph, htrie, hlookup, Option.bind_some]
        rw [findExportedSymbol, SearchGraph.search, htrie, hstop, hchildren]
        dsimp only
        rw [if_neg hdiag, hlookup]
        exact searchDylibs_follows ih image symbolName hst
      | some node =>
        cases hreExport : node.isReExport with
        | true => exact reExport_follows ih hst htrie hlookup hreExport
        | false => exact definition_follows findDependent weakImport fuel hst htrie hlookup hreExport

end ExportedGraph

/-! ### `findSymbolIn` searches its graph -/

section SymbolInGraph

variable {ι : Type*} {files : ι → MachOFile} {dependent : ι → UInt32 → Dependent ι} {addend : UInt64}

variable (files addend) in
def definedTarget (image : ι) (symbolName : String) (target : FixupTarget ι) : FixupTarget ι :=
  match (files image).exportsTrie with
  | some trie => (trie.lookup symbolName).elim target.clear
      fun node => exportedTarget addend image symbolName node target.clear
  | none => ((files image).globalSymbols.lookup symbolName).elim target.clear
      fun n_value => globalTarget files addend image symbolName n_value target.clear

/-- A lookup that fails without an error leaves the target as it is, or without a symbol. -/
structure TargetState.Same (st st' : TargetState ι) : Prop where
  hasError : st'.hasError = st.hasError
  clear : st'.target.clear = st.target.clear
  foundSymbolName : st.target.foundSymbolName = none → st'.target.foundSymbolName = none

variable (files addend) in
def TargetState.Reports (requested : String) (b : Stop ι) (st : TargetState ι)
    (out : Option (Bool × TargetState ι)) : Prop :=
  match b with
  | .definition image symbolName =>
    out = some (true, { st with target :=
      { definedTarget files addend image symbolName st.target with requestedSymbolName := some requested } }) ∧
    (definedTarget files addend image symbolName st.target).foundSymbolName = some symbolName
  | .error => ∀ found st', out = some (found, st') → st'.hasError = true

lemma foundSymbolName_exportedTarget (image : ι) (symbolName : String) (node : ExportNode)
    (target : FixupTarget ι) :
    (exportedTarget addend image symbolName node target).foundSymbolName = some symbolName := by
  unfold exportedTarget
  split <;> rfl

lemma requestedSymbolName_exportedTarget (image : ι) (symbolName : String) (node : ExportNode)
    (target : FixupTarget ι) :
    { exportedTarget addend image symbolName node target with requestedSymbolName := some symbolName } =
      exportedTarget addend image symbolName node target := by
  unfold exportedTarget
  split <;> rfl

lemma definedTarget_congr {target target' : FixupTarget ι} (h : target'.clear = target.clear) (image : ι)
    (symbolName : String) :
    definedTarget files addend image symbolName target' =
      definedTarget files addend image symbolName target := by
  unfold definedTarget
  rw [h]

/-- Nothing takes an error back. -/
def KeepsError {α : Type*} (find : α → TargetState ι → Option (Bool × TargetState ι)) : Prop :=
  ∀ c st found st', st.hasError = true → find c st = some (found, st') → st'.hasError = true

lemma KeepsError.searchReExported {dependent : Nat → Option ι}
    {find : ι → TargetState ι → Option (Bool × TargetState ι)} (h : KeepsError find) {flags : List Bool}
    {depIndex : Nat} {st st' : TargetState ι} {found : Bool} (hst : st.hasError = true)
    (hout : searchReExported dependent find flags depIndex st = some (found, st')) :
    st'.hasError = true := by
  induction flags generalizing depIndex st with
  | nil =>
    cases hout
    exact hst
  | cons isReExport flags ih =>
    rw [ReExports.searchReExported] at hout
    cases isReExport with
    | false => exact ih hst hout
    | true =>
      rw [if_pos rfl] at hout
      cases hdep : dependent depIndex with
      | none =>
        rw [hdep] at hout
        exact ih hst hout
      | some dep =>
        rw [hdep] at hout
        dsimp only at hout
        cases hfind : find dep st with
        | none =>
          rw [hfind] at hout
          cases hout
        | some r =>
          obtain ⟨foundHere, st''⟩ := r
          have herror := h dep st foundHere st'' hst hfind
          rw [hfind] at hout
          cases foundHere with
          | true =>
            cases hout
            exact herror
          | false => exact ih herror hout

lemma keepsError_findSymbolIn (fuel : Nat) (symbolName : String) :
    KeepsError fun image st => findSymbolIn files dependent addend fuel image symbolName st := by
  induction fuel generalizing symbolName with
  | zero =>
    intro image st found st' _ hout
    cases hout
  | succ fuel ih =>
    intro image st found st' hst hout
    dsimp only at hout
    rw [findSymbolIn] at hout
    dsimp only at hout
    have hclear : st.clear.hasError = true := hst
    have hnotExported : searchDylibs files dependent
        (fun child st => findSymbolIn files dependent addend fuel child symbolName st) image st.clear =
        some (found, st') → st'.hasError = true := by
      intro h
      obtain ⟨r, hr, hpair⟩ := Option.map_eq_some_iff.mp h
      cases hpair
      split_ifs at hr
      · exact (ih symbolName).searchReExported hclear hr
      · cases hr
        exact hclear
    cases htrie : (files image).exportsTrie with
    | none =>
      rw [htrie, hclear] at hout
      exact hnotExported hout
    | some trie =>
      rw [htrie, hclear] at hout
      dsimp only at hout
      cases hwalk : trieWalk true trie symbolName with
      | none =>
        rw [hwalk] at hout
        exact hnotExported hout
      | some node =>
        rw [hwalk] at hout
        dsimp only at hout
        split_ifs at hout
        · cases hdep : dependent image (node.value - 1).toUInt32 with
          | notFound missing =>
            rw [hdep] at hout
            cases hout
            rfl
          | missingWeakDylib =>
            rw [hdep] at hout
            cases hout
            exact hclear
          | child dep =>
            rw [hdep] at hout
            obtain ⟨r, hr, hpair⟩ := Option.map_eq_some_iff.mp hout
            have herror := ih (node.importedNameOr symbolName) dep st.clear r.1 r.2 hclear hr
            split_ifs at hpair
            · cases hpair
              exact herror
            · cases hpair
              rfl
        · cases hout
          rfl
        · cases hout
          rfl

variable (files dependent addend) in
def lookupNode (fuel : Nat) : Option (ι × String) → TargetState ι → Option (Bool × TargetState ι)
  | none, st => some (false, { st with hasError := true })
  | some (image, symbolName), st => findSymbolIn files dependent addend fuel image symbolName st

lemma keepsError_firstFound (fuel : Nat) (cs : List (Option (ι × String))) {st st' : TargetState ι}
    {found : Bool} (hst : st.hasError = true)
    (hout : firstFound (lookupNode files dependent addend fuel) cs st = some (found, st')) :
    st'.hasError = true := by
  induction cs generalizing st with
  | nil =>
    cases hout
    exact hst
  | cons c cs ih =>
    rw [firstFound] at hout
    cases c with
    | none => exact ih rfl hout
    | some c =>
      obtain ⟨image, symbolName⟩ := c
      have hlookup : lookupNode files dependent addend fuel (some (image, symbolName)) st =
        findSymbolIn files dependent addend fuel image symbolName st := rfl
      rw [hlookup] at hout
      cases hfind : findSymbolIn files dependent addend fuel image symbolName st with
      | none =>
        rw [hfind] at hout
        cases hout
      | some r =>
        obtain ⟨foundHere, st''⟩ := r
        have herror := keepsError_findSymbolIn fuel symbolName image st foundHere st'' hst hfind
        rw [hfind] at hout
        cases foundHere with
        | true =>
          cases hout
          exact herror
        | false => exact ih herror hout

variable (files dependent addend) in
lemma reporting_findSymbolIn (fuel : Nat) (requested : String) :
    Reporting (lookupNode files dependent addend fuel) (fun st => st.hasError = false)
      TargetState.Same (TargetState.Reports files addend requested) := by
  constructor
  · intro st st' hst hsame
    exact hsame.hasError.trans hst
  · intro st
    exact ⟨rfl, rfl, id⟩
  · intro st st' st'' h h'
    exact ⟨h'.hasError.trans h.hasError, h'.clear.trans h.clear,
      fun hnone => h'.foundSymbolName (h.foundSymbolName hnone)⟩
  · intro b st st' out hsame hreports
    cases b with
    | error => exact hreports
    | definition image symbolName =>
      unfold TargetState.Reports at hreports ⊢
      dsimp only at hreports ⊢
      rw [definedTarget_congr hsame.clear, hsame.hasError] at hreports
      exact hreports
  · intro b st st' cs hreports
    cases b with
    | definition image symbolName =>
      have hfound := hreports.1
      cases hfound
    | error =>
      intro found st'' hout
      exact keepsError_firstFound fuel cs (hreports false st' rfl) hout

variable (files dependent addend) in
/-- What `findSymbolIn` does to a depth, compared with the search to that depth. -/
def SymbolInFollows (fuel : Nat) : Prop :=
  ∀ (image : ι) (symbolName : String) (st : TargetState ι), st.hasError = false →
    Follows TargetState.Same (TargetState.Reports files addend symbolName)
      ((symbolInGraph files dependent).search fuel (some (image, symbolName))) st
      (findSymbolIn files dependent addend fuel image symbolName st)

lemma firstFound_follows {fuel : Nat} (ih : SymbolInFollows files dependent addend fuel)
    (symbolName : String) (images : List ι) (rest : List (Option (ι × String)))
    (hrest : rest = [] ∨ images ≠ [] ∧ rest = [none]) {st : TargetState ι} (hst : st.hasError = false) :
    Follows TargetState.Same (TargetState.Reports files addend symbolName)
      (firstStop ((symbolInGraph files dependent).search fuel)
        (images.map (fun image => some (image, symbolName)) ++ rest)) st
      (firstFound (lookupNode files dependent addend fuel)
        (images.map (fun image => some (image, symbolName)) ++ rest) st) := by
  cases fuel with
  | zero =>
    cases images with
    | nil =>
      rw [hrest.resolve_right (fun h => h.1 rfl)]
      exact ⟨st, rfl, rfl, rfl, id⟩
    | cons image images => rfl
  | succ fuel =>
    apply follows_firstStop (reporting_findSymbolIn files dependent addend (fuel + 1) symbolName) _ hst
    intro c hc st hst
    rcases List.mem_append.mp hc with himage | hnone
    · obtain ⟨image, -, rfl⟩ := List.mem_map.mp himage
      exact ih image symbolName st hst
    · have hc' : c = none := by
        rcases hrest with rfl | ⟨-, rfl⟩
        · cases hnone
        · exact List.mem_singleton.mp hnone
      subst hc'
      intro found st' hout
      cases hout
      rfl

lemma searchDylibs_searchesGraph {fuel : Nat} (ih : SymbolInFollows files dependent addend fuel)
    (image : ι) (symbolName : String) {st : TargetState ι} (hst : st.hasError = false)
    (hnone : st.target.foundSymbolName = none) :
    Follows TargetState.Same (TargetState.Reports files addend symbolName)
      (firstStop ((symbolInGraph files dependent).search fuel)
        (if (files image).isDylib && !(files image).noReexportedDylibs then
          (reExported (fun depIndex => (dependent image depIndex.toUInt32).child?)
            (files image).reExports 0).map fun child => some (child, symbolName)
        else [])) st
      (searchDylibs files dependent
        (fun child st => findSymbolIn files dependent addend fuel child symbolName st) image st) := by
  unfold searchDylibs
  dsimp only
  split_ifs with hgate
  · have hfollows := firstFound_follows ih symbolName
      (reExported (fun depIndex => (dependent image depIndex.toUInt32).child?)
        (files image).reExports 0) [] (Or.inl rfl) hst
    rw [List.append_nil, ← searchReExported_eq _ (fun child => some (child, symbolName))] at hfollows
    change Follows _ _ _ _ (searchReExported _
      (fun child st => findSymbolIn files dependent addend fuel child symbolName st) _ _ _) at hfollows
    generalize searchReExported _ _ _ _ st = out at hfollows ⊢
    generalize firstStop _ _ = result at hfollows ⊢
    cases result with
    | none =>
      change out = none at hfollows
      rw [hfollows]
      rfl
    | some r =>
      cases r with
      | none =>
        obtain ⟨st', rfl, hsame⟩ := hfollows
        refine ⟨st', ?_, hsame⟩
        rw [Option.map_some, hsame.foundSymbolName hnone]
        rfl
      | some b =>
        cases b with
        | definition image' symbolName' =>
          obtain ⟨rfl, hfound⟩ := hfollows
          refine ⟨?_, hfound⟩
          rw [Option.map_some]
          dsimp only
          rw [hfound]
          rfl
        | error =>
          intro found st' hout
          obtain ⟨r, rfl, hpair⟩ := Option.map_eq_some_iff.mp hout
          cases hpair
          exact hfollows r.1 r.2 rfl
  · refine ⟨st, ?_, rfl, rfl, id⟩
    rw [Option.map_some, hnone]
    rfl

lemma reExportEntry_follows {fuel : Nat} (ih : SymbolInFollows files dependent addend fuel)
    (dep : ι) (symbolName importedName : String) {st : TargetState ι} (hst : st.hasError = false) :
    Follows TargetState.Same (TargetState.Reports files addend symbolName)
      (firstStop ((symbolInGraph files dependent).search fuel) [some (dep, importedName), none]) st
      ((findSymbolIn files dependent addend fuel dep importedName st).map fun r =>
        if r.1 then
          (true, { r.2 with target := { r.2.target with requestedSymbolName := some symbolName } })
        else (false, { r.2 with hasError := true })) := by
  have hfollows := firstFound_follows ih importedName [dep] [none] (Or.inr ⟨by simp, rfl⟩) hst
  change Follows _ _ (firstStop _ [some (dep, importedName), none]) _
    (firstFound _ [some (dep, importedName), none] _) at hfollows
  generalize firstStop _ [some (dep, importedName), none] = result at hfollows ⊢
  have hdep : lookupNode files dependent addend fuel (some (dep, importedName)) st =
    findSymbolIn files dependent addend fuel dep importedName st := rfl
  have hlast : ∀ st', lookupNode files dependent addend fuel none st' =
    some (false, { st' with hasError := true }) := fun _ => rfl
  rw [firstFound, hdep] at hfollows
  generalize findSymbolIn files dependent addend fuel dep importedName st = out at hfollows ⊢
  -- only what a definition reports depends on the name
  cases result with
  | none =>
    cases out with
    | none => rfl
    | some r =>
      obtain ⟨found, st'⟩ := r
      cases found <;> cases hfollows
  | some r =>
    cases out with
    | none =>
      cases r with
      | none =>
        obtain ⟨_, hout, -⟩ := hfollows
        cases hout
      | some b =>
        cases b with
        | definition image symbolName' => cases hfollows.1
        | error =>
          intro found st' hout
          cases hout
    | some out =>
      obtain ⟨found, st'⟩ := out
      cases found with
      | false =>
        cases r with
        | none => exact hfollows
        | some b =>
          cases b with
          | definition image symbolName' => cases hfollows.1
          | error => exact hfollows
      | true =>
        cases r with
        | none =>
          obtain ⟨_, hout, -⟩ := hfollows
          cases hout
        | some b =>
          cases b with
          | definition image symbolName' =>
            obtain ⟨hout, hfound⟩ := hfollows
            cases hout
            exact ⟨rfl, hfound⟩
          | error =>
            intro found st'' hout
            cases hout
            exact hfollows true st' rfl

lemma clear_same (st : TargetState ι) : TargetState.Same st st.clear := ⟨rfl, rfl, fun _ => rfl⟩

lemma symbolTableIn_follows {fuel : Nat} (ih : SymbolInFollows files dependent addend fuel)
    {image : ι} (symbolName : String) {st : TargetState ι} (hst : st.hasError = false)
    (htrie : (files image).exportsTrie = none) :
    Follows TargetState.Same (TargetState.Reports files addend symbolName)
      ((symbolInGraph files dependent).search (fuel + 1) (some (image, symbolName))) st
      (findSymbolIn files dependent addend (fuel + 1) image symbolName st) := by
  have hclearError : st.clear.hasError = false := hst
  apply (reporting_findSymbolIn files dependent addend 0 symbolName).follows_of_same (clear_same st)
  rw [findSymbolIn, SearchGraph.search, htrie]
  dsimp only
  cases hlookup : (files image).globalSymbols.lookup symbolName with
  | some n_value =>
    have hstop : (symbolInGraph files dependent).stop (some (image, symbolName)) =
        some (.definition image symbolName) := by
      simp only [symbolInGraph, htrie, hlookup, Option.map_some]
    have hdefined : definedTarget files addend image symbolName st.clear.target =
        globalTarget files addend image symbolName n_value st.clear.target := by
      simp only [definedTarget, htrie, hlookup, Option.elim_some]
      rfl
    rw [hstop, hclearError]
    constructor
    · rw [hdefined, hclearError]
      rfl
    · rw [hdefined]
      rfl
  | none =>
    have hstop : (symbolInGraph files dependent).stop (some (image, symbolName)) = none := by
      simp only [symbolInGraph, htrie, hlookup, Option.map_none]
    have hsearch := searchDylibs_searchesGraph ih image symbolName hclearError rfl
    rw [hstop, hclearError]
    simp only [symbolInGraph, htrie, Option.bind_none] at hsearch ⊢
    exact hsearch

lemma reExportIn_follows {fuel : Nat} (ih : SymbolInFollows files dependent addend fuel)
    {image : ι} {symbolName : String} {st : TargetState ι} (hst : st.hasError = false)
    {trie : List (String × ExportNode)} {node : ExportNode} (htrie : (files image).exportsTrie = some trie)
    (hlookup : trie.lookup symbolName = some node) (hreExport : node.isReExport = true) :
    Follows TargetState.Same (TargetState.Reports files addend symbolName)
      ((symbolInGraph files dependent).search (fuel + 1) (some (image, symbolName))) st
      (findSymbolIn files dependent addend (fuel + 1) image symbolName st) := by
  have hclearError : st.clear.hasError = false := hst
  have hwalk : trieWalk false trie symbolName = some node := hlookup
  apply (reporting_findSymbolIn files dependent addend 0 symbolName).follows_of_same (clear_same st)
  rw [findSymbolIn, SearchGraph.search, htrie]
  dsimp only
  rw [hclearError, hwalk]
  dsimp only
  rw [if_pos hreExport]
  cases hdep : dependent image (node.value - 1).toUInt32 with
  | child dep =>
    have hstop : (symbolInGraph files dependent).stop (some (image, symbolName)) = none := by
      simp only [symbolInGraph, htrie, hlookup, hreExport, if_true, hdep]
    have hchildren : (symbolInGraph files dependent).children (some (image, symbolName)) =
        [some (dep, node.importedNameOr symbolName), none] := by
      simp only [symbolInGraph, htrie, hlookup, Option.bind_some, hdep]
    rw [hstop, hchildren]
    exact reExportEntry_follows ih dep symbolName _ hclearError
  | missingWeakDylib =>
    have hstop : (symbolInGraph files dependent).stop (some (image, symbolName)) = none := by
      simp only [symbolInGraph, htrie, hlookup, hreExport, if_true, hdep]
    have hchildren : (symbolInGraph files dependent).children (some (image, symbolName)) = [] := by
      simp only [symbolInGraph, htrie, hlookup, Option.bind_some, hdep]
    rw [hstop, hchildren]
    exact ⟨st.clear, rfl, rfl, rfl, id⟩
  | notFound missing =>
    cases missing with
    | true =>
      have hstop : (symbolInGraph files dependent).stop (some (image, symbolName)) = none := by
        simp only [symbolInGraph, htrie, hlookup, hreExport, if_true, hdep]
      have hchildren : (symbolInGraph files dependent).children (some (image, symbolName)) = [] := by
        simp only [symbolInGraph, htrie, hlookup, Option.bind_some, hdep]
      rw [hstop, hchildren]
      exact ⟨{ st.clear with hasError := false }, rfl, hclearError.symm, rfl, id⟩
    | false =>
      have hstop : (symbolInGraph files dependent).stop (some (image, symbolName)) = some .error := by
        simp only [symbolInGraph, htrie, hlookup, hreExport, if_true, hdep]
      rw [hstop]
      intro found st' hout
      cases hout
      rfl

variable (dependent addend) in
lemma definitionIn_follows (fuel : Nat) {image : ι} {symbolName : String} {st : TargetState ι}
    (hst : st.hasError = false) {trie : List (String × ExportNode)} {node : ExportNode}
    (htrie : (files image).exportsTrie = some trie) (hlookup : trie.lookup symbolName = some node)
    (hreExport : node.isReExport = false) :
    Follows TargetState.Same (TargetState.Reports files addend symbolName)
      ((symbolInGraph files dependent).search (fuel + 1) (some (image, symbolName))) st
      (findSymbolIn files dependent addend (fuel + 1) image symbolName st) := by
  have hclearError : st.clear.hasError = false := hst
  have hwalk : trieWalk false trie symbolName = some node := hlookup
  apply (reporting_findSymbolIn files dependent addend 0 symbolName).follows_of_same (clear_same st)
  rw [findSymbolIn, SearchGraph.search, htrie]
  dsimp only
  rw [hclearError, hwalk]
  dsimp only
  rw [hreExport, if_neg Bool.false_ne_true]
  by_cases hkind : node.kind = 3
  · have hstop : (symbolInGraph files dependent).stop (some (image, symbolName)) = some .error := by
      simp only [symbolInGraph, htrie, hlookup, hreExport, Bool.false_eq_true, if_false, hkind, if_true]
    rw [hstop, if_pos hkind]
    intro found st' hout
    cases hout
    rfl
  · have hstop : (symbolInGraph files dependent).stop (some (image, symbolName)) =
        some (.definition image symbolName) := by
      simp only [symbolInGraph, htrie, hlookup, hreExport, Bool.false_eq_true, if_false, if_neg hkind]
    have hdefined : definedTarget files addend image symbolName st.clear.target =
        exportedTarget addend image symbolName node st.clear.target := by
      simp only [definedTarget, htrie, hlookup, Option.elim_some]
      rfl
    rw [hstop, if_neg hkind]
    constructor
    · rw [hdefined, requestedSymbolName_exportedTarget, hclearError]
    · rw [hdefined, foundSymbolName_exportedTarget]

variable (files dependent addend) in
lemma findSymbolIn_follows (fuel : Nat) : SymbolInFollows files dependent addend fuel := by
  induction fuel with
  | zero =>
    intro image symbolName st _
    rfl
  | succ fuel ih =>
    intro image symbolName st hst
    cases htrie : (files image).exportsTrie with
    | none => exact symbolTableIn_follows ih symbolName hst htrie
    | some trie =>
      cases hlookup : trie.lookup symbolName with
      | none =>
        have hclearError : st.clear.hasError = false := hst
        have hwalk : trieWalk false trie symbolName = none := hlookup
        have hstop : (symbolInGraph files dependent).stop (some (image, symbolName)) = none := by
          simp only [symbolInGraph, htrie, hlookup]
        have hsearch := searchDylibs_searchesGraph ih image symbolName hclearError rfl
        apply (reporting_findSymbolIn files dependent addend 0 symbolName).follows_of_same (clear_same st)
        rw [findSymbolIn, SearchGraph.search, htrie]
        dsimp only
        rw [hclearError, hwalk, hstop]
        simp only [symbolInGraph, htrie, hlookup, Option.bind_some] at hsearch ⊢
        exact hsearch
      | some node =>
        cases hreExport : node.isReExport with
        | true => exact reExportIn_follows ih hst htrie hlookup hreExport
        | false => exact definitionIn_follows dependent addend fuel hst htrie hlookup hreExport

end SymbolInGraph

/-! ### What a lookup finds -/

structure FindsFirst {α ι σ : Type*} (G : SearchGraph α (Stop ι)) (a : α) (noError : σ → Prop)
    (found : ι → String → σ → Prop) (lookup : Nat → Option (Bool × σ)) : Prop where
  returns_iff : (∃ fuel out, lookup fuel = some out ∧ noError out.2) ↔ G.Ends a ∧ ¬G.IsFirst a .error
  first : ∀ fuel st, lookup fuel = some (true, st) → noError st →
    ∃ image symbolName, G.IsFirst a (.definition image symbolName) ∧ found image symbolName st
  noStop : ∀ fuel st, lookup fuel = some (false, st) → noError st → ∀ p b, ¬G.Hit a p b

lemma findsFirst_of_follows {α ι σ : Type*} {G : SearchGraph α (Stop ι)} {a : α} {noError : σ → Prop}
    {found : ι → String → σ → Prop} {lookup : Nat → Option (Bool × σ)} {same : σ → σ → Prop}
    {reports : Stop ι → σ → Option (Bool × σ) → Prop} {st : σ}
    (hfinite : {n | ∃ p, G.At a p n}.Finite)
    (hfollows : ∀ fuel, Follows same reports (G.search fuel a) st (lookup fuel))
    (hsame : ∀ st', same st st' → noError st')
    (hdefinition : ∀ image symbolName out, reports (.definition image symbolName) st out →
      ∃ st', out = some (true, st') ∧ noError st' ∧ found image symbolName st')
    (herror : ∀ out, reports .error st (some out) → ¬noError out.2) :
    FindsFirst G a noError found lookup := by
  have hsearch : ∀ fuel out, lookup fuel = some out → noError out.2 →
      G.search fuel a = some none ∧ out.1 = false ∨ ∃ image symbolName,
        G.search fuel a = some (some (.definition image symbolName)) ∧ out.1 = true ∧
          found image symbolName out.2 := by
    intro fuel out hout hok
    have hfuel := hfollows fuel
    rw [hout] at hfuel
    cases hresult : G.search fuel a with
    | none =>
      rw [hresult] at hfuel
      cases hfuel
    | some r =>
      rw [hresult] at hfuel
      cases r with
      | none =>
        obtain ⟨st', heq, -⟩ := hfuel
        cases heq
        exact Or.inl ⟨rfl, rfl⟩
      | some b =>
        cases b with
        | error => exact absurd hok (herror out hfuel)
        | definition image symbolName =>
          obtain ⟨st', heq, -, hfound⟩ := hdefinition image symbolName _ hfuel
          cases heq
          exact Or.inr ⟨image, symbolName, rfl, rfl, hfound⟩
  constructor
  · constructor
    · rintro ⟨fuel, out, hout, hok⟩
      rcases hsearch fuel out hout hok with ⟨hnone, -⟩ | ⟨image, symbolName, hsome, -⟩
      · refine ⟨(SearchGraph.search_ends_iff hfinite).mp ⟨fuel, by rw [hnone]; simp⟩, ?_⟩
        rintro ⟨p, hp, -⟩
        exact SearchGraph.no_hit_of_search hnone p _ hp
      · refine ⟨(SearchGraph.search_ends_iff hfinite).mp ⟨fuel, by rw [hsome]; simp⟩, fun hfirst => ?_⟩
        cases (SearchGraph.isFirst_of_search hsome).unique hfirst
    · rintro ⟨hends, hfirst⟩
      obtain ⟨fuel, hne⟩ := (SearchGraph.search_ends_iff hfinite).mpr hends
      obtain ⟨r, hr⟩ := Option.ne_none_iff_exists'.mp hne
      have hfuel := hfollows fuel
      rw [hr] at hfuel
      cases r with
      | none =>
        obtain ⟨st', hout, hst'⟩ := hfuel
        exact ⟨fuel, _, hout, hsame st' hst'⟩
      | some b =>
        cases b with
        | error => exact absurd (SearchGraph.isFirst_of_search hr) hfirst
        | definition image symbolName =>
          obtain ⟨st', hout, hok, -⟩ := hdefinition image symbolName _ hfuel
          exact ⟨fuel, _, hout, hok⟩
  · intro fuel st' hout hok
    rcases hsearch fuel _ hout hok with ⟨-, hfalse⟩ | ⟨image, symbolName, hsome, -, hfound⟩
    · cases hfalse
    · exact ⟨image, symbolName, SearchGraph.isFirst_of_search hsome, hfound⟩
  · intro fuel st' hout hok p b
    rcases hsearch fuel _ hout hok with ⟨hnone, -⟩ | ⟨image, symbolName, -, htrue, -⟩
    · exact SearchGraph.no_hit_of_search hnone p b
    · cases htrue

section Finite

variable {ι : Type*} [Fintype ι] (files : ι → MachOFile)

def names (symbolName : String) : Set String :=
  {symbolName} ∪ ⋃ image : ι, {importedName | ∃ entry ∈ ((files image).exportsTrie.getD []),
    importedName = entry.2.importedName}

lemma finite_names (symbolName : String) : (names files symbolName).Finite := by
  apply (Set.finite_singleton symbolName).union
  apply Set.finite_iUnion
  intro image
  apply (((files image).exportsTrie.getD []).map (·.2.importedName)).finite_toSet.subset
  rintro importedName ⟨entry, hentry, rfl⟩
  exact List.mem_map.mpr ⟨entry, hentry, rfl⟩

omit [Fintype ι] in
lemma importedNameOr_mem_names {image : ι} {symbolName name : String} {node : ExportNode}
    (hname : name ∈ names files symbolName)
    (hnode : (files image).exportsTrie.bind (·.lookup name) = some node) :
    node.importedNameOr name ∈ names files symbolName := by
  unfold ExportNode.importedNameOr
  split_ifs
  · exact hname
  · obtain ⟨trie, htrie, hlookup⟩ := Option.bind_eq_some_iff.mp hnode
    apply Or.inr
    have hentry : (name, node) ∈ (files image).exportsTrie.getD [] := by
      obtain ⟨before, after, rfl, -⟩ := List.lookup_eq_some_iff.mp hlookup
      rw [htrie]
      exact List.mem_append_right before List.mem_cons_self
    exact Set.mem_iUnion.mpr ⟨image, (name, node), hentry, rfl⟩

lemma finite_exported (findDependent : Option (ι → Nat → Option ι)) (weakImport : Bool) (image : ι)
    (symbolName : String) :
    {n | ∃ p, (exportedGraph files findDependent weakImport).At (image, symbolName) p n}.Finite := by
  apply SearchGraph.finite_of_closed (Set.finite_univ.prod (finite_names files symbolName))
  · exact ⟨Set.mem_univ _, Or.inl rfl⟩
  · rintro ⟨i, name⟩ ⟨-, hname⟩ c hc
    unfold exportedGraph at hc
    dsimp only at hc
    split at hc
    next node hnode =>
      obtain ⟨dep, -, rfl⟩ := List.mem_map.mp hc
      exact ⟨Set.mem_univ _, importedNameOr_mem_names files hname hnode⟩
    next =>
      obtain ⟨dep, -, rfl⟩ := List.mem_map.mp hc
      exact ⟨Set.mem_univ _, hname⟩

lemma finite_symbolIn (dependent : ι → UInt32 → Dependent ι) (image : ι) (symbolName : String) :
    {n | ∃ p, (symbolInGraph files dependent).At (some (image, symbolName)) p n}.Finite := by
  have hS := (Set.finite_univ.prod (finite_names files symbolName)).image
    (some : ι × String → Option (ι × String))
  apply SearchGraph.finite_of_closed (hS.union (Set.finite_singleton none))
  · exact Or.inl ⟨(image, symbolName), ⟨Set.mem_univ _, Or.inl rfl⟩, rfl⟩
  · intro n hn c hc
    cases n with
    | none => cases hc
    | some n =>
      obtain ⟨i, name⟩ := n
      have hname : name ∈ names files symbolName := by
        rcases hn with ⟨_, hmem, heq⟩ | hnone
        · cases heq
          exact hmem.2
        · cases hnone
      unfold symbolInGraph at hc
      dsimp only at hc
      split at hc
      next node hnode =>
        split at hc
        next dep _ =>
          rcases List.mem_cons.mp hc with rfl | hc
          · exact Or.inl ⟨_, ⟨Set.mem_univ _, importedNameOr_mem_names files hname hnode⟩, rfl⟩
          · exact Or.inr (List.mem_singleton.mp hc)
        next => cases hc
      next =>
        split_ifs at hc
        · obtain ⟨dep, -, rfl⟩ := List.mem_map.mp hc
          exact Or.inl ⟨_, ⟨Set.mem_univ _, hname⟩, rfl⟩
        · cases hc

end Finite

/-- Both lookups find the first definition of the symbol in depth-first order. `findExportedSymbol`
also returns when there is an error. -/
theorem lookup_findsFirst {ι : Type*} [Fintype ι] (files : ι → MachOFile) (image : ι)
    (symbolName : String) :
    (∀ findDependent weakImport (info : FoundSymbol ι),
      FindsFirst (exportedGraph files findDependent weakImport) (image, symbolName)
        (fun st => st.diag = none)
        (fun image symbolName st => st.foundInfo = definedSymbol files image symbolName info)
        (fun fuel => findExportedSymbol files findDependent weakImport fuel image symbolName ⟨none, info⟩) ∧
      ((∃ fuel, findExportedSymbol files findDependent weakImport fuel image symbolName ⟨none, info⟩ ≠
        none) ↔ (exportedGraph files findDependent weakImport).Ends (image, symbolName))) ∧
    ∀ dependent addend (target : FixupTarget ι),
      FindsFirst (symbolInGraph files dependent) (some (image, symbolName))
        (fun st => st.hasError = false)
        (fun foundImage foundName st => st.target =
          { definedTarget files addend foundImage foundName target with
            requestedSymbolName := some symbolName })
        (fun fuel => findSymbolIn files dependent addend fuel image symbolName ⟨false, target⟩) := by
  constructor
  · intro findDependent weakImport info
    have hfinite := finite_exported files findDependent weakImport image symbolName
    have hfollows := fun fuel => findExportedSymbol_follows files findDependent weakImport fuel image
      symbolName ⟨none, info⟩ rfl
    constructor
    · apply findsFirst_of_follows hfinite hfollows
      · intro st' hsame
        exact hsame.diag
      · intro j t out hreports
        exact ⟨_, hreports.1, rfl, rfl⟩
      · rintro out ⟨found, st', hout, herror⟩
        cases hout
        exact herror
    · rw [← SearchGraph.search_ends_iff hfinite]
      apply exists_congr
      intro fuel
      have hfuel := hfollows fuel
      apply not_congr
      cases hresult : (exportedGraph files findDependent weakImport).search fuel (image, symbolName) with
      | none =>
        rw [hresult] at hfuel
        exact iff_of_true hfuel rfl
      | some r =>
        rw [hresult] at hfuel
        apply iff_of_false _ (Option.some_ne_none r)
        cases r with
        | none =>
          obtain ⟨st', hout, -⟩ := hfuel
          rw [hout]
          exact Option.some_ne_none _
        | some b =>
          cases b with
          | definition j t =>
            rw [hfuel.1]
            exact Option.some_ne_none _
          | error =>
            obtain ⟨found, st', hout, -⟩ := hfuel
            rw [hout]
            exact Option.some_ne_none _
  · intro dependent addend target
    have hfollows := fun fuel => findSymbolIn_follows files dependent addend fuel image symbolName
      ⟨false, target⟩ rfl
    apply findsFirst_of_follows (finite_symbolIn files dependent image symbolName) hfollows
    · intro st' hsame
      exact hsame.hasError
    · intro j t out hreports
      exact ⟨_, hreports.1, rfl, rfl⟩
    · intro out hreports hok
      rw [hreports out.1 out.2 rfl] at hok
      cases hok

/-- Two dylibs without symbols that re-export each other. -/
def reExportEachOther (_ : Bool) : MachOFile := ⟨some [], [], [true], true, false, 0⟩

/-- A dylib that re-exports two others. The first has an entry that re-exports from a library with
an ordinal that is too large, the second defines the symbol. -/
def badOrdinalFirst : Fin 3 → MachOFile
  | 0 => ⟨some [], [], [true, true], true, false, 0⟩
  | 1 => ⟨some [("_s", ⟨8, 9, 0, ""⟩)], [], [], true, false, 0⟩
  | 2 => ⟨some [("_s", ⟨0, 0x100, 0, ""⟩)], [], [], true, false, 0⟩

def badOrdinalDependent (image : Fin 3) (depIndex : Nat) : Option (Fin 3) :=
  if image = 0 then if depIndex = 0 then some 1 else some 2 else none

def noSymbol (ι : Type) : FoundSymbol ι := ⟨.headerOffset, false, false, none, 0, 0, none⟩

def noTarget (ι : Type) : FixupTarget ι := ⟨none, 0, none, none, 0, .rebase, false⟩

/-- The lookups do not end when the dylibs re-export each other, and a bad entry hides the
definition in the dylib after it. -/
theorem lookup_failures :
    (∀ fuel, findExportedSymbol reExportEachOther (some fun image _ => some !image) false fuel false "_s"
      ⟨none, noSymbol Bool⟩ = none) ∧
    (∀ fuel, findSymbolIn reExportEachOther (fun image _ => .child !image) 0 fuel false "_s"
      ⟨false, noTarget Bool⟩ = none) ∧
    (findExportedSymbol badOrdinalFirst (some badOrdinalDependent) false 2 0 "_s"
      ⟨none, noSymbol (Fin 3)⟩).map (·.1) = some false ∧
    (findExportedSymbol badOrdinalFirst (some badOrdinalDependent) false 1 2 "_s"
      ⟨none, noSymbol (Fin 3)⟩).map (·.1) = some true ∧
    (findSymbolIn badOrdinalFirst (fun image depIndex =>
      (badOrdinalDependent image depIndex.toNat).elim (.notFound false) .child) 0 2 0 "_s"
      ⟨false, noTarget (Fin 3)⟩).map (·.1) = some false := by
  have hexported : ∀ fuel image st, st.diag = none → findExportedSymbol reExportEachOther
      (some fun image _ => some !image) false fuel image "_s" st = none := by
    intro fuel
    induction fuel with
    | zero =>
      intro image st _
      rfl
    | succ fuel ih =>
      intro image st hst
      rw [findExportedSymbol, if_neg (by simp [hst])]
      simp only [reExportEachOther, List.lookup_nil, searchReExported, Option.bind_some, if_true,
        ih _ st hst]
  have hsymbolIn : ∀ fuel image st, findSymbolIn reExportEachOther (fun image _ => .child !image) 0 fuel
      image "_s" st = none := by
    intro fuel
    induction fuel with
    | zero =>
      intro image st
      rfl
    | succ fuel ih =>
      intro image st
      rw [findSymbolIn]
      have hwalk : ∀ hasError, trieWalk hasError [] "_s" = none := by
        intro hasError
        unfold trieWalk
        split_ifs <;> rfl
      simp only [reExportEachOther, hwalk, searchDylibs, searchReExported, Dependent.child?, ih,
        if_true, Bool.not_false, Bool.and_self, Option.map_none]
  refine ⟨fun fuel => hexported fuel false _ rfl, fun fuel => hsymbolIn fuel false _, ?_, ?_, ?_⟩
  · rfl
  · rfl
  · rfl

end Dyld.MachO.ReExports
