import Dyld.MachO.ReExports

/-!
# Looking up symbols from an image

`MachOAnalyzerSet::wmo_findSymbolFrom` looks the symbol of a bind up: in the flat namespace, among the
weak definitions of all images, or in the image that the library ordinal is for. A lookup writes
some fields of the target and leaves the others, and what it writes does not depend on them.
-/

namespace Dyld.MachO.BindTargets
open Dyld.MachO.ReExports

/-! ### Targets -/

def BIND_SPECIAL_DYLIB_SELF : Int32 := 0
def BIND_SPECIAL_DYLIB_MAIN_EXECUTABLE : Int32 := -1
def BIND_SPECIAL_DYLIB_FLAT_LOOKUP : Int32 := -2
def BIND_SPECIAL_DYLIB_WEAK_LOOKUP : Int32 := -3

/-- `FixupTarget`, with what a lookup from an image sets. -/
structure FixupTarget (ι : Type*) extends ReExports.FixupTarget ι where
  libOrdinal : Int32
  weakCoalesced : Bool
  skippableWeakDef : Bool

/-- A target as its constructor leaves it. -/
def newTarget (ι : Type*) : ReExports.FixupTarget ι := ⟨none, 0, none, none, 0, .rebase, false⟩

def FixupTarget.new (ι : Type*) : FixupTarget ι := ⟨newTarget ι, 0, false, false⟩

/-! ### Lookups from an image -/

/-- Which fields of a target a call writes, and what. -/
structure Writes (ι : Type*) where
  foundInImage : Option (Option ι) := none
  offsetInImage : Option UInt64 := none
  requestedSymbolName : Option (Option String) := none
  foundSymbolName : Option (Option String) := none
  addend : Option UInt64 := none
  kind : Option TargetKind := none
  isWeakDef : Option Bool := none

def Writes.apply {ι : Type*} (w : Writes ι) (target : ReExports.FixupTarget ι) :
    ReExports.FixupTarget ι where
  foundInImage := w.foundInImage.getD target.foundInImage
  offsetInImage := w.offsetInImage.getD target.offsetInImage
  requestedSymbolName := w.requestedSymbolName.getD target.requestedSymbolName
  foundSymbolName := w.foundSymbolName.getD target.foundSymbolName
  addend := w.addend.getD target.addend
  kind := w.kind.getD target.kind
  isWeakDef := w.isWeakDef.getD target.isWeakDef

/-- What a `MachOAnalyzerSet` says about its images. `images` has each image with whether it is
hidden, `missingSymbolResolver` is for an image, a weak import and a lazy bind. `strings` gives the
characters that a pointer points to. -/
structure AnalyzerSet (ι : Type*) where
  files : ι → ReExports.MachOFile
  hasWeakDefs : ι → Bool
  hasChainedFixups : ι → Bool
  preferredLoadAddress : ι → UInt64
  dependent : ι → UInt32 → Dependent ι
  images : List (ι × Bool)
  mainExecutable : ι
  missingSymbolResolver : ι → Bool → Bool → String → Bool × Writes ι
  strings : UInt64 → String

/-- A symbol with the library to look for it in. -/
@[ext]
structure Import where
  libOrdinal : Int32
  symbolName : UInt64
  weakImport : Bool
  lazyBind : Bool
  addend : UInt64

structure LookupState (ι : Type*) where
  hasError : Bool
  target : FixupTarget ι

inductive Lookup (ι : Type*)
  | found
  | skippableWeakDef
  | missing (expectedIn : Option ι)
  | unknownOrdinal

namespace AnalyzerSet

variable {ι : Type*} [DecidableEq ι] (set : AnalyzerSet ι) (fuel : Nat)

omit [DecidableEq ι] in
def searchImage (image : ι) (imp : Import) (st : LookupState ι) : Option (Bool × LookupState ι) :=
  (findSymbolIn set.files set.dependent imp.addend fuel image (set.strings imp.symbolName)
    ⟨st.hasError, st.target.toFixupTarget⟩).map fun r =>
    (r.1, ⟨r.2.hasError, { st.target with toFixupTarget := r.2.target }⟩)

/-- The lookup in the flat namespace. A hidden image can look up symbols in itself. -/
def flatLookup (fromWmo : ι) (imp : Import) :
    List (ι × Bool) → LookupState ι → Option (Bool × LookupState ι)
  | [], st => some (false, st)
  | (anImage, hidden) :: rest, st =>
    if hidden && fromWmo ≠ anImage then flatLookup fromWmo imp rest st
    else
      match set.searchImage fuel anImage imp st with
      | none => none
      | some (true, st) => some (true, st)
      | some (false, st) => flatLookup fromWmo imp rest st

/-- `mas_fromImageWeakDefLookup`, from what was found in the images before. -/
def fromImageWeakDefLookup (fromWmo : ι) (imp : Import) :
    List (ι × Bool) → Option (ReExports.FixupTarget ι) → Option (Option (ReExports.FixupTarget ι))
  | [], found => some found
  | (anImage, hidden) :: rest, found =>
    if !set.hasWeakDefs anImage || hidden && fromWmo ≠ anImage then
      fromImageWeakDefLookup fromWmo imp rest found
    else
      match findSymbolIn set.files set.dependent imp.addend fuel anImage
        (set.strings imp.symbolName) ⟨false, newTarget ι⟩ with
      | none => none
      | some (false, _) => fromImageWeakDefLookup fromWmo imp rest found
      | some (true, tempTarget) =>
        -- a re-export is found later, in the image that defines the symbol
        if tempTarget.target.foundInImage ≠ some anImage then fromImageWeakDefLookup fromWmo imp rest found
        else
          match found with
          | none => fromImageWeakDefLookup fromWmo imp rest (some tempTarget.target)
          | some target =>
            if target.isWeakDef && !tempTarget.target.isWeakDef then
              fromImageWeakDefLookup fromWmo imp rest (some tempTarget.target)
            else fromImageWeakDefLookup fromWmo imp rest (some target)

omit [DecidableEq ι] in
/-- The image for an ordinal of the two-level namespace. -/
def targetImage (fromWmo : ι) (libOrdinal : Int32) : Dependent ι :=
  if libOrdinal = BIND_SPECIAL_DYLIB_SELF then .child fromWmo
  else if libOrdinal = BIND_SPECIAL_DYLIB_MAIN_EXECUTABLE then .child set.mainExecutable
  else set.dependent fromWmo (libOrdinal - 1).toUInt32

/-- The part of `wmo_findSymbolFrom` that looks for the symbol. -/
def lookupSymbol (fromWmo : ι) (imp : Import) (st : LookupState ι) :
    Option (Lookup ι × LookupState ι) :=
  let st := { st with target := { st.target with libOrdinal := imp.libOrdinal } }
  if imp.libOrdinal = BIND_SPECIAL_DYLIB_FLAT_LOOKUP then
    (set.flatLookup fuel fromWmo imp set.images st).map fun r =>
      (if r.1 then .found else .missing none, r.2)
  else if imp.libOrdinal = BIND_SPECIAL_DYLIB_WEAK_LOOKUP then
    (set.fromImageWeakDefLookup fuel fromWmo imp set.images none).map fun
      | some target => (.found, { st with target := ⟨target, 0, true, false⟩ })
      | none =>
        if set.hasChainedFixups fromWmo then (.missing none, st)
        else (.skippableWeakDef, { st with target := { st.target with skippableWeakDef := true } })
  else
    match set.targetImage fromWmo imp.libOrdinal with
    | .notFound _ => some (.unknownOrdinal, st)
    | .missingWeakDylib => some (.missing none, st)
    | .child image => (set.searchImage fuel image imp st).map fun r =>
        (if r.1 then .found else .missing (some image), r.2)

def findSymbolFrom (fromWmo : ι) (imp : Import) (st : LookupState ι) :
    Option (Bool × LookupState ι) :=
  match set.lookupSymbol fuel fromWmo imp st with
  | none => none
  | some (.found, st) => some (true, st)
  | some (.skippableWeakDef, st) => some (true, st)
  | some (.missing expectedIn, st) =>
    let symbolName := set.strings imp.symbolName
    let resolved := set.missingSymbolResolver fromWmo imp.weakImport imp.lazyBind symbolName
    let target := { st.target with toFixupTarget := resolved.2.apply st.target.toFixupTarget }
    if resolved.1 then some (true, { st with target })
    else some (false, ⟨true, { target with kind := .bindMissingSymbol, requestedSymbolName := some symbolName
                                           foundSymbolName := none, foundInImage := expectedIn }⟩)
  | some (.unknownOrdinal, st) => some (false, { st with hasError := true })

end AnalyzerSet

/-! ### Lookups only write the target -/

section Writes

variable {ι : Type*}

def Writes.andThen (w v : Writes ι) : Writes ι where
  foundInImage := v.foundInImage.or w.foundInImage
  offsetInImage := v.offsetInImage.or w.offsetInImage
  requestedSymbolName := v.requestedSymbolName.or w.requestedSymbolName
  foundSymbolName := v.foundSymbolName.or w.foundSymbolName
  addend := v.addend.or w.addend
  kind := v.kind.or w.kind
  isWeakDef := v.isWeakDef.or w.isWeakDef

@[simp] lemma Writes.apply_andThen (w v : Writes ι) (t : ReExports.FixupTarget ι) :
    (w.andThen v).apply t = v.apply (w.apply t) := by
  simp only [Writes.apply, Writes.andThen, Option.getD_or]

/-- What a lookup in an image starts with. -/
def Writes.clear (ι : Type*) : Writes ι := { foundSymbolName := some none }

variable (files : ι → ReExports.MachOFile) (addend : UInt64)

def regularOffset (image : ι) (symbolName : String) : Option UInt64 :=
  match (files image).exportsTrie with
  | some trie => (trie.lookup symbolName).bind fun node =>
      if node.isReExport = false ∧ node.kind = 0 then some node.value else none
  | none => ((files image).globalSymbols.lookup symbolName).map fun n_value =>
      n_value - (files image).textUnslidVMAddr

def Defines (t : ReExports.FixupTarget ι) : Prop :=
  ∀ symbolName, t.foundSymbolName = some symbolName → ∃ image, t.foundInImage = some image ∧
    ∀ offset, regularOffset files image symbolName = some offset →
      t.kind = .bindToImage ∧ t.addend = addend ∧ t.offsetInImage = offset + addend

structure Writes.Defines (w : Writes ι) : Prop where
  clears : w.foundSymbolName.isSome
  defines : ∀ t, BindTargets.Defines files addend (w.apply t)

variable {files addend}

lemma Writes.Defines.andThen {w v : Writes ι} (h : v.Defines files addend) :
    (w.andThen v).Defines files addend := by
  constructor
  · rw [Writes.andThen, Option.isSome_or, h.clears, Bool.true_or]
  · intro t
    rw [Writes.apply_andThen]
    exact h.defines (w.apply t)

/-- The symbol that was asked for can be written after. -/
lemma Writes.Defines.requested {w : Writes ι} (h : w.Defines files addend) (symbolName : String) :
    { w with requestedSymbolName := some (some symbolName) : Writes ι }.Defines files addend :=
  ⟨h.clears, h.defines⟩

lemma defines_clear : (Writes.clear ι).Defines files addend := by
  constructor
  · rfl
  · intro t symbolName hname
    cases hname

variable (files addend) in
/-- The result of a lookup in an image is the same for every target, up to what is written. -/
def Looks (r : ReExports.FixupTarget ι → Option (Bool × TargetState ι)) : Prop :=
  (∀ t, r t = none) ∨ ∃ found hasError w, Writes.Defines files addend w ∧
    ∀ t, r t = some (found, ⟨hasError, w.apply t⟩)

lemma looks_some (found hasError : Bool) {w : Writes ι} (hw : w.Defines files addend) :
    Looks files addend fun t => some (found, ⟨hasError, w.apply t⟩) :=
  Or.inr ⟨found, hasError, w, hw, fun _ => rfl⟩

lemma looks_none : Looks files addend fun _ => none := Or.inl fun _ => rfl

/-- A lookup goes on from what another one wrote. -/
lemma Looks.after {r : ReExports.FixupTarget ι → Option (Bool × TargetState ι)} (h : Looks files addend r)
    (u : Writes ι) : Looks files addend fun t => r (u.apply t) := by
  rcases h with hnone | ⟨found, hasError, w, hw, hsome⟩
  · exact Or.inl fun t => hnone (u.apply t)
  · apply Or.inr
    refine ⟨found, hasError, u.andThen w, hw.andThen, fun t => ?_⟩
    rw [Writes.apply_andThen]
    exact hsome (u.apply t)

lemma Looks.bind {r r' : ReExports.FixupTarget ι → Option (Bool × TargetState ι)} (h : Looks files addend r)
    (next : Bool × TargetState ι → Option (Bool × TargetState ι))
    (hnext : ∀ found hasError w, Writes.Defines files addend w →
      Looks files addend fun t => next (found, ⟨hasError, w.apply t⟩))
    (heq : ∀ t, r' t = (r t).bind next) : Looks files addend r' := by
  have hr' : r' = fun t => (r t).bind next := by
    funext t
    exact heq t
  rw [hr']
  rcases h with hnone | ⟨found, hasError, w, hw, hsome⟩
  · simp only [hnone, Option.bind_none]
    exact looks_none
  · simp only [hsome, Option.bind_some]
    exact hnext found hasError w hw

lemma looks_searchReExported {dependent : Nat → Option ι}
    {find : ι → TargetState ι → Option (Bool × TargetState ι)}
    (hfind : ∀ child hasError, Looks files addend fun t => find child ⟨hasError, t⟩)
    (flags : List Bool) (depIndex : Nat) (hasError : Bool) {u : Writes ι} (hu : u.Defines files addend) :
    Looks files addend fun t => searchReExported dependent find flags depIndex ⟨hasError, u.apply t⟩ := by
  induction flags generalizing depIndex hasError u with
  | nil => exact looks_some false hasError hu
  | cons isReExport flags ih =>
    unfold searchReExported
    cases isReExport with
    | false => exact ih (depIndex + 1) hasError hu
    | true =>
      cases hdep : dependent depIndex with
      | none => exact ih (depIndex + 1) hasError hu
      | some dep =>
        apply ((hfind dep hasError).after u).bind fun r =>
          if r.1 then some r else searchReExported dependent find flags (depIndex + 1) r.2
        · intro found hasError w hw
          cases found with
          | true => exact looks_some true hasError hw
          | false => exact ih (depIndex + 1) hasError hw
        · intro t
          rw [if_pos rfl]
          cases hout : find dep ⟨hasError, u.apply t⟩ with
          | none =>
            dsimp only
            rw [hout]
            rfl
          | some r =>
            obtain ⟨found, st⟩ := r
            dsimp only
            rw [hout]
            cases found <;> rfl

variable (dependent) in
lemma looks_searchDylibs {find : ι → TargetState ι → Option (Bool × TargetState ι)}
    (hfind : ∀ child hasError, Looks files addend fun t => find child ⟨hasError, t⟩)
    (image : ι) (hasError : Bool) :
    Looks files addend fun t => searchDylibs files dependent find image ⟨hasError, t.clear⟩ := by
  have hsearched : Looks files addend fun t =>
      if (files image).isDylib && !(files image).noReexportedDylibs then
        searchReExported (fun depIndex => (dependent image depIndex.toUInt32).child?) find
          (files image).reExports 0 ⟨hasError, t.clear⟩
      else some (false, ⟨hasError, t.clear⟩) := by
    cases (files image).isDylib && !(files image).noReexportedDylibs with
    | false => exact looks_some false hasError defines_clear
    | true => exact looks_searchReExported hfind (files image).reExports 0 hasError defines_clear
  apply hsearched.bind fun r => some (r.2.target.foundSymbolName.isSome, r.2)
  · intro found hasError w hw
    obtain ⟨foundSymbolName, hfound⟩ := Option.isSome_iff_exists.mp hw.clears
    simp only [Writes.apply, hfound, Option.getD_some]
    have hlooks := looks_some foundSymbolName.isSome hasError hw
    simp only [Writes.apply, hfound, Option.getD_some] at hlooks
    exact hlooks
  · intro t
    rw [searchDylibs, Option.map_eq_bind]
    rfl

lemma regularOffset_of_node {image : ι} {symbolName : String} {node : ExportNode} {offset : UInt64}
    (htrie : (files image).exportsTrie.bind (·.lookup symbolName) = some node)
    (hoffset : regularOffset files image symbolName = some offset) :
    node.kind = 0 ∧ offset = node.value := by
  obtain ⟨trie, hsome, hlookup⟩ := Option.bind_eq_some_iff.mp htrie
  rw [regularOffset, hsome] at hoffset
  dsimp only at hoffset
  rw [hlookup, Option.bind_some] at hoffset
  split_ifs at hoffset with hkind
  cases hoffset
  exact ⟨hkind.2, rfl⟩

/-- What the target is written with for an entry of the trie. -/
def exportedWrites (addend : UInt64) (image : ι) (symbolName : String) (node : ExportNode) : Writes ι :=
  let writes : Writes ι := { foundInImage := some (some image), requestedSymbolName := some (some symbolName)
                             foundSymbolName := some (some symbolName), addend := some addend
                             kind := some .bindToImage, isWeakDef := some false }
  match node.kind with
  | 0 => { writes with offsetInImage := some (node.value + addend), isWeakDef := some (node.flags.testBit 2) }
  | 1 => { writes with offsetInImage := some node.value }
  | 2 => { writes with offsetInImage := some (node.value + addend), kind := some .bindAbsolute }
  | _ => writes

lemma exportedTarget_eq (image : ι) (symbolName : String) (node : ExportNode)
    (t : ReExports.FixupTarget ι) :
    exportedTarget addend image symbolName node t.clear =
      (exportedWrites addend image symbolName node).apply t := by
  unfold exportedTarget exportedWrites
  generalize node.kind = kind
  match kind with
  | 0 => rfl
  | 1 => rfl
  | 2 => rfl
  | _ + 3 => rfl

lemma defines_exported {image : ι} {symbolName : String} {node : ExportNode}
    (htrie : (files image).exportsTrie.bind (·.lookup symbolName) = some node) :
    (exportedWrites addend image symbolName node).Defines files addend := by
  have hfound : (exportedWrites addend image symbolName node).foundSymbolName = some (some symbolName) ∧
      (exportedWrites addend image symbolName node).foundInImage = some (some image) := by
    unfold exportedWrites
    split <;> exact ⟨rfl, rfl⟩
  constructor
  · rw [hfound.1]
    rfl
  · intro t name hname
    rw [Writes.apply, hfound.1] at hname
    cases hname
    refine ⟨image, ?_, fun offset hoffset => ?_⟩
    · rw [Writes.apply, hfound.2, Option.getD_some]
    · obtain ⟨hkind, rfl⟩ := regularOffset_of_node htrie hoffset
      unfold exportedWrites
      rw [hkind]
      exact ⟨rfl, rfl, rfl⟩

def globalWrites (files : ι → ReExports.MachOFile) (addend : UInt64) (image : ι) (symbolName : String)
    (n_value : UInt64) : Writes ι :=
  { foundInImage := some (some image), requestedSymbolName := some (some symbolName)
    foundSymbolName := some (some symbolName), addend := some addend, kind := some .bindToImage
    offsetInImage := some (n_value - (files image).textUnslidVMAddr + addend) }

lemma defines_global {image : ι} {symbolName : String} {n_value : UInt64}
    (htrie : (files image).exportsTrie = none)
    (hlookup : (files image).globalSymbols.lookup symbolName = some n_value) :
    (globalWrites files addend image symbolName n_value).Defines files addend := by
  constructor
  · rfl
  · intro t name hname
    cases hname
    refine ⟨image, rfl, fun offset hoffset => ?_⟩
    rw [regularOffset, htrie] at hoffset
    dsimp only at hoffset
    rw [hlookup] at hoffset
    cases hoffset
    exact ⟨rfl, rfl, rfl⟩

variable (files addend dependent) in
lemma looks_findSymbolIn (fuel : Nat) (image : ι) (symbolName : String) (hasError : Bool) :
    Looks files addend fun t => findSymbolIn files dependent addend fuel image symbolName ⟨hasError, t⟩ := by
  induction fuel generalizing image symbolName hasError with
  | zero => exact looks_none
  | succ fuel ih =>
    have hnotExported := looks_searchDylibs dependent
      (fun child hasError => ih child symbolName hasError) image hasError
    unfold findSymbolIn
    simp only [TargetState.clear]
    cases htrie : (files image).exportsTrie with
    | none =>
      dsimp only
      cases hlookup : (files image).globalSymbols.lookup symbolName with
      | none => cases hasError <;> exact hnotExported
      | some n_value =>
        cases hasError with
        | true => exact hnotExported
        | false => exact looks_some true false (defines_global htrie hlookup)
    | some trie =>
      dsimp only
      cases hwalk : trieWalk hasError trie symbolName with
      | none => exact hnotExported
      | some node =>
        have hnode : (files image).exportsTrie.bind (·.lookup symbolName) = some node := by
          rw [htrie, Option.bind_some]
          unfold trieWalk at hwalk
          split_ifs at hwalk
          exact hwalk
        cases hreExport : node.isReExport with
        | true =>
          cases hdep : dependent image (node.value - 1).toUInt32 with
          | child depHelper =>
            simp only [hreExport, hdep, if_true]
            apply ((ih depHelper (node.importedNameOr symbolName) hasError).after (.clear ι)).bind fun r =>
              if r.1 then some (true, { r.2 with target :=
                { r.2.target with requestedSymbolName := some symbolName } })
              else some (false, { r.2 with hasError := true })
            · intro found hasError w hw
              cases found with
              | true => exact looks_some true hasError (hw.requested symbolName)
              | false => exact looks_some false true hw
            · intro t
              rw [Option.map_eq_bind]
              congr 1
              funext r
              dsimp only [Function.comp]
              split_ifs <;> rfl
          | missingWeakDylib =>
            simp only [hreExport, hdep, if_true]
            exact looks_some false hasError defines_clear
          | notFound missingWeakDylib =>
            simp only [hreExport, hdep, if_true]
            exact looks_some false (hasError || !missingWeakDylib) defines_clear
        | false =>
          simp only [hreExport, Bool.false_eq_true, if_false, exportedTarget_eq]
          split_ifs
          · exact looks_some false true (defines_exported hnode)
          · exact looks_some true hasError (defines_exported hnode)

end Writes

/-- What is written with the fields that only a lookup from an image sets. -/
structure TargetWrites (ι : Type*) extends Writes ι where
  libOrdinal : Option Int32 := none
  weakCoalesced : Option Bool := none
  skippableWeakDef : Option Bool := none

section LooksUp

variable {ι : Type*} [DecidableEq ι] {set : AnalyzerSet ι} {fuel : Nat} {fromWmo : ι} {imp : Import}

def TargetWrites.apply (w : TargetWrites ι) (t : FixupTarget ι) : FixupTarget ι where
  toFixupTarget := w.toWrites.apply t.toFixupTarget
  libOrdinal := w.libOrdinal.getD t.libOrdinal
  weakCoalesced := w.weakCoalesced.getD t.weakCoalesced
  skippableWeakDef := w.skippableWeakDef.getD t.skippableWeakDef

/-- The result of a lookup from an image is the same for every target, up to what is written. -/
def LooksUp {β : Type*} (P : β → TargetWrites ι → Prop)
    (r : FixupTarget ι → Option (β × LookupState ι)) : Prop :=
  (∀ t, r t = none) ∨ ∃ out hasError w, P out w ∧ ∀ t, r t = some (out, ⟨hasError, w.apply t⟩)

omit [DecidableEq ι] in
lemma looksUp_some {β : Type*} {P : β → TargetWrites ι → Prop} (out : β) (hasError : Bool)
    (w : TargetWrites ι) (h : P out w) : LooksUp P fun t => some (out, ⟨hasError, w.apply t⟩) :=
  Or.inr ⟨out, hasError, w, h, fun _ => rfl⟩

def FixupTarget.write (w : Writes ι) (t : FixupTarget ι) : FixupTarget ι :=
  { t with toFixupTarget := w.apply t.toFixupTarget }

omit [DecidableEq ι] in
lemma write_write (w v : Writes ι) (t : FixupTarget ι) :
    (t.write w).write v = t.write (w.andThen v) := by
  unfold FixupTarget.write
  rw [Writes.apply_andThen]

variable (set fuel imp) in
omit [DecidableEq ι] in
lemma searchImage_eq (image : ι) (hasError : Bool) :
    (∀ t, set.searchImage fuel image imp ⟨hasError, t⟩ = none) ∨
      ∃ found hasError' w, Writes.Defines set.files imp.addend w ∧
        ∀ t, set.searchImage fuel image imp ⟨hasError, t⟩ = some (found, ⟨hasError', t.write w⟩) := by
  rcases looks_findSymbolIn set.files imp.addend set.dependent fuel image (set.strings imp.symbolName) hasError with hnone | ⟨found, hasError', w, hw, hsome⟩
  · apply Or.inl
    intro t
    exact congrArg (Option.map _) (hnone t.toFixupTarget)
  · apply Or.inr
    refine ⟨found, hasError', w, hw, fun t => ?_⟩
    exact congrArg (Option.map _) (hsome t.toFixupTarget)

variable (set fuel fromWmo imp) in
lemma flatLookup_eq (images : List (ι × Bool)) (hasError : Bool) :
    (∀ t, set.flatLookup fuel fromWmo imp images ⟨hasError, t⟩ = none) ∨
      ∃ found hasError' w, (found = true → Writes.Defines set.files imp.addend w) ∧
        ∀ t, set.flatLookup fuel fromWmo imp images ⟨hasError, t⟩ =
          some (found, ⟨hasError', t.write w⟩) := by
  induction images generalizing hasError with
  | nil =>
    apply Or.inr
    exact ⟨false, hasError, {}, nofun, fun t => rfl⟩
  | cons head rest ih =>
    obtain ⟨anImage, hidden⟩ := head
    unfold AnalyzerSet.flatLookup
    split_ifs with hhidden
    · exact ih hasError
    · rcases searchImage_eq set fuel imp anImage hasError with
        hnone | ⟨found, hasError', w, hw, hsome⟩
      · apply Or.inl
        intro t
        rw [hnone]
      · simp only [hsome]
        cases found with
        | true => exact Or.inr ⟨true, hasError', w, fun _ => hw, fun t => rfl⟩
        | false =>
          rcases ih hasError' with hnone | ⟨found, hasError', v, hv, hrest⟩
          · exact Or.inl fun t => hnone (t.write w)
          · apply Or.inr
            refine ⟨found, hasError', w.andThen v, fun h => (hv h).andThen, fun t => ?_⟩
            rw [← write_write]
            exact hrest (t.write w)

lemma defines_fromImageWeakDefLookup {images : List (ι × Bool)}
    {found : Option (ReExports.FixupTarget ι)} {target : ReExports.FixupTarget ι}
    (hfound : ∀ t, found = some t → Defines set.files imp.addend t)
    (h : set.fromImageWeakDefLookup fuel fromWmo imp images found = some (some target)) :
    Defines set.files imp.addend target := by
  induction images generalizing found with
  | nil =>
    cases h
    exact hfound target rfl
  | cons head rest ih =>
    obtain ⟨anImage, hidden⟩ := head
    unfold AnalyzerSet.fromImageWeakDefLookup at h
    split_ifs at h with hskip
    · exact ih hfound h
    · cases htemp : findSymbolIn set.files set.dependent imp.addend fuel anImage
        (set.strings imp.symbolName) ⟨false, newTarget ι⟩ with
      | none =>
        rw [htemp] at h
        cases h
      | some r =>
        obtain ⟨foundTemp, tempTarget⟩ := r
        rw [htemp] at h
        cases foundTemp with
        | false => exact ih hfound h
        | true =>
          have hdefines : Defines set.files imp.addend tempTarget.target := by
            rcases looks_findSymbolIn set.files imp.addend set.dependent fuel anImage
              (set.strings imp.symbolName) false with hnone | ⟨_, _, w, hw, hsome⟩
            · cases htemp.symm.trans (hnone (newTarget ι))
            · cases htemp.symm.trans (hsome (newTarget ι))
              exact hw.defines (newTarget ι)
          have htempFound : ∀ t, some tempTarget.target = some t → Defines set.files imp.addend t := by
            rintro t ⟨⟩
            exact hdefines
          dsimp only at h
          split_ifs at h
          · exact ih hfound h
          · cases found with
            | none => exact ih htempFound h
            | some target =>
              dsimp only at h
              split_ifs at h
              · exact ih htempFound h
              · exact ih hfound h

structure TargetWrites.Finds (set : AnalyzerSet ι) (imp : Import) (w : TargetWrites ι) : Prop where
  defines : w.toWrites.Defines set.files imp.addend
  weak : imp.libOrdinal = BIND_SPECIAL_DYLIB_WEAK_LOOKUP → w.skippableWeakDef = some false
  notWeak : imp.libOrdinal ≠ BIND_SPECIAL_DYLIB_WEAK_LOOKUP → w.skippableWeakDef = none

def TargetWrites.ofWrites (w : Writes ι) (libOrdinal : Int32) : TargetWrites ι :=
  { w with libOrdinal := some libOrdinal }

def Writes.ofTarget (t : ReExports.FixupTarget ι) : Writes ι :=
  ⟨some t.foundInImage, some t.offsetInImage, some t.requestedSymbolName, some t.foundSymbolName,
    some t.addend, some t.kind, some t.isWeakDef⟩

variable (set fuel fromWmo imp) in
lemma looksUp_lookupSymbol (hasError : Bool) :
    LooksUp (fun out w => out = .found → w.Finds set imp)
      fun t => set.lookupSymbol fuel fromWmo imp ⟨hasError, t⟩ := by
  have hfinds : ∀ w : Writes ι, w.Defines set.files imp.addend →
      imp.libOrdinal ≠ BIND_SPECIAL_DYLIB_WEAK_LOOKUP →
      (TargetWrites.ofWrites w imp.libOrdinal).Finds set imp :=
    fun w hw hweak => ⟨hw, fun h => absurd h hweak, fun _ => rfl⟩
  unfold AnalyzerSet.lookupSymbol
  dsimp only
  by_cases hflat : imp.libOrdinal = BIND_SPECIAL_DYLIB_FLAT_LOOKUP
  · simp only [if_pos hflat]
    rcases flatLookup_eq set fuel fromWmo imp set.images hasError with hnone | ⟨found, hasError', w, hw, hsome⟩
    · exact Or.inl fun t => congrArg (Option.map _) (hnone _)
    · simp only [hsome, Option.map_some]
      apply looksUp_some (if found then Lookup.found else .missing none) hasError'
        (.ofWrites w imp.libOrdinal)
      intro hfound
      cases found with
      | true => exact hfinds w (hw rfl) (by rw [hflat]; decide)
      | false => cases hfound
  · simp only [if_neg hflat]
    by_cases hweak : imp.libOrdinal = BIND_SPECIAL_DYLIB_WEAK_LOOKUP
    · simp only [if_pos hweak]
      cases hlookup : set.fromImageWeakDefLookup fuel fromWmo imp set.images none with
      | none => exact Or.inl fun t => rfl
      | some found =>
        cases found with
        | none =>
          cases hchained : set.hasChainedFixups fromWmo with
          | true =>
            exact looksUp_some (Lookup.missing none) hasError (.ofWrites {} imp.libOrdinal) nofun
          | false =>
            exact looksUp_some Lookup.skippableWeakDef hasError
              { libOrdinal := some imp.libOrdinal, skippableWeakDef := some true } nofun
        | some target =>
          apply looksUp_some Lookup.found hasError
            { Writes.ofTarget target with libOrdinal := some 0, weakCoalesced := some true
                                          skippableWeakDef := some false }
          have htarget := defines_fromImageWeakDefLookup (by simp) hlookup
          exact fun _ => ⟨⟨rfl, fun _ => htarget⟩, fun _ => rfl, fun h => absurd hweak h⟩
    · simp only [if_neg hweak]
      cases set.targetImage fromWmo imp.libOrdinal with
      | notFound missingWeakDylib =>
        exact looksUp_some Lookup.unknownOrdinal hasError (.ofWrites {} imp.libOrdinal) nofun
      | missingWeakDylib =>
        exact looksUp_some (Lookup.missing none) hasError (.ofWrites {} imp.libOrdinal) nofun
      | child image =>
        rcases searchImage_eq set fuel imp image hasError with hnone | ⟨found, hasError', w, hw, hsome⟩
        · exact Or.inl fun t => congrArg (Option.map _) (hnone _)
        · simp only [hsome, Option.map_some]
          exact looksUp_some (if found then Lookup.found else .missing (some image)) hasError'
            (.ofWrites w imp.libOrdinal) fun _ => hfinds w hw hweak

omit [DecidableEq ι] in
lemma looksUp_write {β : Type*} (out : β) (hasError : Bool) (w : TargetWrites ι) (v : Writes ι) :
    LooksUp (fun _ _ => True) fun t => some (out, ⟨hasError, (w.apply t).write v⟩) := by
  have hlooks := looksUp_some (P := fun _ _ => True) out hasError
    { w with toWrites := w.toWrites.andThen v } trivial
  simp only [TargetWrites.apply, Writes.apply_andThen] at hlooks
  exact hlooks

def Writes.missing (symbolName : String) (expectedIn : Option ι) : Writes ι where
  kind := some .bindMissingSymbol
  requestedSymbolName := some (some symbolName)
  foundSymbolName := some none
  foundInImage := some expectedIn

variable (set fuel fromWmo imp) in
lemma looksUp_findSymbolFrom (hasError : Bool) :
    LooksUp (fun _ _ => True) fun t => set.findSymbolFrom fuel fromWmo imp ⟨hasError, t⟩ := by
  unfold AnalyzerSet.findSymbolFrom
  rcases looksUp_lookupSymbol set fuel fromWmo imp hasError with hnone | ⟨out, hasError', w, -, hsome⟩
  · apply Or.inl
    intro t
    dsimp only at hnone ⊢
    rw [hnone]
  · dsimp only at hsome
    simp only [hsome]
    cases out with
    | found => exact looksUp_some true hasError' w trivial
    | skippableWeakDef => exact looksUp_some true hasError' w trivial
    | unknownOrdinal => exact looksUp_some false true w trivial
    | missing expectedIn =>
      dsimp only
      generalize set.missingSymbolResolver fromWmo imp.weakImport imp.lazyBind
        (set.strings imp.symbolName) = resolved
      split_ifs
      · exact looksUp_write true hasError' w resolved.2
      · have hlooks := looksUp_write false true w
          (resolved.2.andThen (.missing (set.strings imp.symbolName) expectedIn))
        simp only [← write_write] at hlooks
        exact hlooks

end LooksUp

/-! ### Binds to regular symbols -/

/-- The target of a regular symbol, before a tag is taken off. -/
structure FixupTarget.IsAddress {ι : Type*} (image : ι) (address tagged : UInt64)
    (target : FixupTarget ι) : Prop where
  kind : target.kind = .bindToImage
  foundInImage : target.foundInImage = some image
  addend : target.addend = tagged
  offsetInImage : target.offsetInImage = address

section BindsTo

variable {ι : Type*} [DecidableEq ι] {set : AnalyzerSet ι} {fuel : Nat} {fromWmo : ι} {imp : Import}
  {image : ι} {symbolName : String} {offset : UInt64}

variable (set fuel fromWmo imp image symbolName offset) in
def BindsTo : Prop :=
  ∃ st, set.lookupSymbol fuel fromWmo imp ⟨false, .new ι⟩ = some (.found, st) ∧
    st.target.foundInImage = some image ∧ st.target.foundSymbolName = some symbolName ∧
    regularOffset set.files image symbolName = some offset

omit [DecidableEq ι] in
lemma TargetWrites.Finds.isAddress {w : TargetWrites ι} (h : w.Finds set imp)
    (himage : (w.apply (.new ι)).foundInImage = some image)
    (hname : (w.apply (.new ι)).foundSymbolName = some symbolName)
    (hoffset : regularOffset set.files image symbolName = some offset) (t : FixupTarget ι) :
    (w.apply t).IsAddress image (offset + imp.addend) imp.addend := by
  have hwritten : ∀ t, (w.toWrites.apply t).foundSymbolName = some symbolName := by
    obtain ⟨name, hclears⟩ := Option.isSome_iff_exists.mp h.defines.clears
    intro t
    rw [← hname]
    simp only [TargetWrites.apply, Writes.apply, hclears, Option.getD_some]
  have hwrittenImage : w.foundInImage = some (some image) := by
    cases hnone : w.foundInImage with
    | none =>
      rw [TargetWrites.apply, Writes.apply, hnone] at himage
      cases himage
    | some foundInImage =>
      rw [TargetWrites.apply, Writes.apply, hnone] at himage
      exact congrArg some himage
  obtain ⟨found, hfound, hregular⟩ := h.defines.defines t.toFixupTarget symbolName (hwritten _)
  have heq : (w.toWrites.apply t.toFixupTarget).foundInImage = some image := by
    rw [Writes.apply, hwrittenImage, Option.getD_some]
  cases hfound.symm.trans heq
  obtain ⟨hkind, haddend, haddress⟩ := hregular offset hoffset
  exact ⟨hkind, heq, haddend, haddress⟩

lemma BindsTo.findSymbolFrom (h : BindsTo set fuel fromWmo imp image symbolName offset) :
    ∃ hasError, ∃ w : TargetWrites ι, w.Finds set imp ∧
      (∀ t, set.findSymbolFrom fuel fromWmo imp ⟨false, t⟩ = some (true, ⟨hasError, w.apply t⟩)) ∧
      ∀ t, (w.apply t).IsAddress image (offset + imp.addend) imp.addend := by
  obtain ⟨st, hst, himage, hname, hoffset⟩ := h
  rcases looksUp_lookupSymbol set fuel fromWmo imp false with hnone | ⟨out, hasError, w, hw, hsome⟩
  · cases hst.symm.trans (hnone _)
  · cases hst.symm.trans (hsome (.new ι))
    refine ⟨hasError, w, hw rfl, fun t => ?_, (hw rfl).isAddress himage hname hoffset⟩
    have hlookup : set.lookupSymbol fuel fromWmo imp ⟨false, t⟩ = some (.found, ⟨hasError, w.apply t⟩) :=
      hsome t
    rw [AnalyzerSet.findSymbolFrom, hlookup]

end BindsTo

/-! ### Errors -/

section Errors

variable {ι : Type*} [DecidableEq ι] {set : AnalyzerSet ι} {fuel : Nat} {fromWmo : ι}

omit [DecidableEq ι] in
lemma searchImage_keepsError {image : ι} {imp : Import} {st : LookupState ι} {r : Bool × LookupState ι}
    (hst : st.hasError = true) (h : set.searchImage fuel image imp st = some r) : r.2.hasError = true := by
  obtain ⟨out, hout, rfl⟩ := Option.map_eq_some_iff.mp h
  exact keepsError_findSymbolIn fuel (set.strings imp.symbolName) image _ out.1 out.2 hst hout

lemma flatLookup_keepsError {imp : Import} {images : List (ι × Bool)} {st : LookupState ι}
    {r : Bool × LookupState ι} (hst : st.hasError = true)
    (h : set.flatLookup fuel fromWmo imp images st = some r) : r.2.hasError = true := by
  induction images generalizing st with
  | nil =>
    cases h
    exact hst
  | cons head rest ih =>
    unfold AnalyzerSet.flatLookup at h
    split_ifs at h
    · exact ih hst h
    · cases hsearch : set.searchImage fuel head.1 imp st with
      | none =>
        rw [hsearch] at h
        cases h
      | some out =>
        obtain ⟨found, st'⟩ := out
        rw [hsearch] at h
        have hst' : st'.hasError = true := searchImage_keepsError hst hsearch
        cases found with
        | true =>
          cases h
          exact hst'
        | false => exact ih hst' h

lemma lookupSymbol_keepsError {imp : Import} {st : LookupState ι} {r : Lookup ι × LookupState ι}
    (hst : st.hasError = true) (h : set.lookupSymbol fuel fromWmo imp st = some r) :
    r.2.hasError = true := by
  unfold AnalyzerSet.lookupSymbol at h
  dsimp only at h
  split_ifs at h
  · obtain ⟨out, hout, rfl⟩ := Option.map_eq_some_iff.mp h
    refine flatLookup_keepsError ?_ hout
    exact hst
  · obtain ⟨found, -, rfl⟩ := Option.map_eq_some_iff.mp h
    cases found <;> exact hst
  · obtain ⟨found, -, rfl⟩ := Option.map_eq_some_iff.mp h
    cases found <;> exact hst
  · cases himage : set.targetImage fromWmo imp.libOrdinal with
    | notFound missingWeakDylib =>
      rw [himage] at h
      cases h
      exact hst
    | missingWeakDylib =>
      rw [himage] at h
      cases h
      exact hst
    | child image =>
      rw [himage] at h
      obtain ⟨out, hout, rfl⟩ := Option.map_eq_some_iff.mp h
      refine searchImage_keepsError ?_ hout
      exact hst

lemma hasError_findSymbolFrom {imp : Import} {st : LookupState ι} {r : Bool × LookupState ι}
    (h : set.findSymbolFrom fuel fromWmo imp st = some r) (hst : st.hasError = true ∨ r.1 = false) :
    r.2.hasError = true := by
  unfold AnalyzerSet.findSymbolFrom at h
  cases hlookup : set.lookupSymbol fuel fromWmo imp st with
  | none =>
    rw [hlookup] at h
    cases h
  | some out =>
    obtain ⟨out, st'⟩ := out
    rw [hlookup] at h
    have hst' : st.hasError = true → st'.hasError = true := fun hst => lookupSymbol_keepsError hst hlookup
    cases out with
    | found =>
      cases h
      exact hst' (hst.resolve_right (by simp))
    | skippableWeakDef =>
      cases h
      exact hst' (hst.resolve_right (by simp))
    | unknownOrdinal =>
      cases h
      rfl
    | missing expectedIn =>
      dsimp only at h
      split_ifs at h
      · cases h
        exact hst' (hst.resolve_right (by simp))
      · cases h
        rfl

end Errors

end Dyld.MachO.BindTargets
