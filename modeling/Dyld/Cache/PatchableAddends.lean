import Dyld.MachO.BindTargets

/-!
# Addends in the patch table of the cache

The patch table of the dyld cache has five bits for the addend of a bind. A dylib is only placed in
the cache when its addends fit: `canBePlacedInDyldCache` looks at the addends of the imports and at
those in the pointers of chains. What `WrappedMachO::forEachFixup` reports is the sum of both.
-/

namespace Dyld.Cache.PatchableAddends

open Dyld.Chained Dyld.MachO Dyld.MachO.BindTargets

/-- What the iterators over an image call their handlers with: for the imports of chained fixups,
for the pointers in the chains of each segment, and for bind opcodes. The other checks of `canBePlacedInDyldCache` do
not depend on addends. -/
structure Image where
  is64 : Bool
  hasChainedFixups : Bool
  imports : List Import
  notLazy : ∀ imp ∈ imports, imp.lazyBind = false
  importsError : Bool
  segments : List (List ChainedPointer)
  binds : List Bind
  checksBefore : Bool
  checksAfter : Bool

namespace Image

variable (image : Image)

/-! ### `canBePlacedInDyldCache` -/

/-- A large addend, where the top byte is ignored on 64-bit images. -/
def tooLarge (addend : UInt64) : Bool :=
  31 < if image.is64 then addend &&& 0x00FFFFFFFFFFFFFF else addend

def pointerAddend (w : ChainedPointer) : Option Nat :=
  if w.pointer_format ∈ [ptrArm64e, ptrArm64eUserland, ptrArm64eUserland24] then
    if w.fixupLoc.arm64eBind && !w.fixupLoc.arm64eAuth then some w.fixupLoc.arm64eAddend else none
  else if w.pointer_format ∈ [ptr64, ptr64Offset] then
    if w.fixupLoc.generic64Bind then some w.fixupLoc.generic64Addend else none
  else if w.pointer_format = ptr32 then
    if w.fixupLoc.generic32Bind then some w.fixupLoc.generic32Addend else none
  else none

def scanAddends : List UInt64 → Bool
  | [] => false
  | addend :: rest => if image.tooLarge addend then true else scanAddends rest

def scanPointers : List ChainedPointer → Bool
  | [] => false
  | w :: rest => if (pointerAddend w).any (31 < ·) then true else scanPointers rest

def addendTooLarge : Bool :=
  if image.hasChainedFixups then
    image.scanAddends (image.imports.map Import.addend) ||
      (!image.importsError && image.segments.any scanPointers)
  else image.scanAddends (image.binds.map (fun b => b.addend))

def canBePlacedInDyldCache : Bool :=
  image.checksBefore && !image.addendTooLarge && image.checksAfter

/-! ### `forEachFixup` -/

/-- What `forEachFixup` reports. The rebases of opcodes, which come before the binds, are left
out. -/
def forEachFixup {ι : Type*} [DecidableEq ι] (set : AnalyzerSet ι) (fuel : Nat) (fromWmo : ι) :
    Option (List (Report ι)) :=
  if image.hasChainedFixups then
    (forEachChainedFixup set fuel fromWmo image.imports image.segments).map (fun fixups =>
      fixups.missing.toList ++ if image.importsError then [] else fixups.reports.flatten.filterMap id)
  else
    (forEachBind set fuel fromWmo image.is64 image.binds (.new ι)).map (fun r => r.1.filterMap id)

end Image

/-! ### `makePatchLocation` -/

structure PatchableLocation where
  cacheOffset : BitVec 32
  high7 : BitVec 7
  addend : BitVec 5
  authenticated : Bool
  usesAddressDiversity : Bool
  key : BitVec 2
  discriminator : BitVec 16

def makePatchLocation (cacheOff : UInt64) (pmd : BindTargets.PointerMetaData) (addend : UInt64) :
    PatchableLocation where
  cacheOffset := cacheOff.toBitVec.setWidth 32
  high7 := (pmd.high8 >>> 1).toBitVec.setWidth 7
  addend := addend.toBitVec.setWidth 5
  authenticated := pmd.authenticated
  usesAddressDiversity := pmd.usesAddrDiversity
  key := BitVec.ofNat 2 pmd.key
  discriminator := BitVec.ofNat 16 pmd.diversity

section Reports

variable {ι : Type*}

/-- Only a bind to an image gets into the patch table. -/
def IsBind (r : Report ι) : Prop := r.target.kind = .bindToImage

/-- Without a tag the addend is at most 31, and `patch.addend == addend` holds. -/
structure Patchable (r : Report ι) : Prop where
  addend_le : r.target.addend &&& 0x00FFFFFFFFFFFFFF ≤ 31
  assert : ∀ cacheOff,
    (makePatchLocation cacheOff r.pmd r.target.addend).addend.setWidth 64 = r.target.addend.toBitVec

end Reports

/-! ### When the addends fit -/

section Condition

variable {ι : Type*} [DecidableEq ι] (set : AnalyzerSet ι) (fuel : Nat) (fromWmo : ι)

omit [DecidableEq ι] in
/-- What the missing symbol resolver does for a symbol that it resolves: the addend stays or is zero,
and a symbol that is not lazy becomes absolute. -/
structure Resolves : Prop where
  addend : ∀ image weakImport lazyBind symbolName addend,
    (set.missingSymbolResolver image weakImport lazyBind symbolName).2.addend = some addend →
    addend = 0
  absolute : ∀ image weakImport symbolName,
    (set.missingSymbolResolver image weakImport false symbolName).1 = true →
    (set.missingSymbolResolver image weakImport false symbolName).2.kind = some .bindAbsolute

def Found (imp : Import) : Prop :=
  ∃ st, set.findSymbolFrom fuel fromWmo imp ⟨false, .new ι⟩ = some (true, st) ∧ st.hasError = false

def FoundInImage (imp : Import) : Prop :=
  ∃ st, set.findSymbolFrom fuel fromWmo imp ⟨false, .new ι⟩ = some (true, st) ∧
    st.target.kind = .bindToImage

/-- `forEachFixup` comes to a pointer in the chains of a segment: there was no error in the imports,
and the ordinals of the binds before it in that segment are in range. -/
structure Reaches (image : Image) (pointers : List ChainedPointer) (k : Nat) : Prop where
  imports : image.importsError = false
  found : ∀ imp ∈ image.imports, Found set fuel fromWmo imp
  inRange : ∀ j < k, ∀ w i embeddedAddend, pointers[j]? = some w →
    w.fixupLoc.isBind w.pointer_format = some (i, embeddedAddend) → i < image.imports.length

def AddendsFit (image : Image) : Prop :=
  ∀ pointers ∈ image.segments, ∀ k w i embeddedAddend imp, pointers[k]? = some w →
    Reaches set fuel fromWmo image pointers k →
    w.fixupLoc.isBind w.pointer_format = some (i, embeddedAddend) → image.imports[i]? = some imp →
    FoundInImage set fuel fromWmo imp → embeddedAddend ≠ 0 →
    imp.addend + UInt64.ofBitVec embeddedAddend ≤ 31

end Condition

/-! ### The addend of a target -/

section Lookups

variable {ι : Type*} {addend addend₀ : UInt64}

structure Wrote (addend addend₀ : UInt64) (t : ReExports.FixupTarget ι) : Prop where
  found : t.foundSymbolName.isSome = true → t.addend = addend
  either : t.addend = addend ∨ t.addend = addend₀

/-- What a lookup leaves. When it finds the symbol the target has it. -/
structure WroteOut (addend addend₀ : UInt64) (r : Bool × ReExports.TargetState ι) : Prop where
  wrote : Wrote addend addend₀ r.2.target
  found : r.1 = true → r.2.target.foundSymbolName.isSome = true

lemma wrote_clear {t : ReExports.FixupTarget ι} (h : t.addend = addend ∨ t.addend = addend₀) :
    Wrote addend addend₀ t.clear := by
  constructor
  · intro hfound
    cases hfound
  · exact h

lemma wroteOut_searchReExported {dependent : Nat → Option ι}
    {find : ι → ReExports.TargetState ι → Option (Bool × ReExports.TargetState ι)}
    (hfind : ∀ child st r, (st.target.addend = addend ∨ st.target.addend = addend₀) →
      find child st = some r → WroteOut addend addend₀ r)
    {flags : List Bool} {depIndex : Nat} {st : ReExports.TargetState ι}
    {r : Bool × ReExports.TargetState ι} (hst : Wrote addend addend₀ st.target)
    (h : ReExports.searchReExported dependent find flags depIndex st = some r) :
    WroteOut addend addend₀ r := by
  induction flags generalizing depIndex st with
  | nil =>
    cases h
    exact ⟨hst, nofun⟩
  | cons isReExport flags ih =>
    unfold ReExports.searchReExported at h
    cases isReExport with
    | false => exact ih hst h
    | true =>
      rw [if_pos rfl] at h
      cases hdep : dependent depIndex with
      | none =>
        rw [hdep] at h
        exact ih hst h
      | some dep =>
        rw [hdep] at h
        dsimp only at h
        cases hout : find dep st with
        | none =>
          rw [hout] at h
          cases h
        | some out =>
          have hwrote := hfind dep st out hst.either hout
          obtain ⟨found, st'⟩ := out
          rw [hout] at h
          cases found with
          | true =>
            cases h
            exact hwrote
          | false => exact ih hwrote.wrote h

lemma wrote_exportedTarget (image : ι) (symbolName : String) (node : ReExports.ExportNode)
    (t : ReExports.FixupTarget ι) :
    Wrote addend addend₀ (ReExports.exportedTarget addend image symbolName node t) := by
  unfold ReExports.exportedTarget
  dsimp only
  split <;> exact ⟨fun _ => rfl, Or.inl rfl⟩

/-- A lookup in an image leaves the addend or sets it. -/
lemma wroteOut_findSymbolIn {files : ι → ReExports.MachOFile}
    {dependent : ι → UInt32 → ReExports.Dependent ι} {fuel : Nat} {image : ι} {symbolName : String}
    {st : ReExports.TargetState ι} {r : Bool × ReExports.TargetState ι}
    (hst : st.target.addend = addend ∨ st.target.addend = addend₀)
    (h : ReExports.findSymbolIn files dependent addend fuel image symbolName st = some r) :
    WroteOut addend addend₀ r := by
  induction fuel generalizing image symbolName st r with
  | zero => cases h
  | succ fuel ih =>
    have hclear : Wrote addend addend₀ st.clear.target := wrote_clear hst
    have hsearch : ∀ r', ReExports.searchDylibs files dependent
        (fun child st => ReExports.findSymbolIn files dependent addend fuel child symbolName st) image
        st.clear = some r' → WroteOut addend addend₀ r' := by
      intro r' hr'
      obtain ⟨out, hout, rfl⟩ := Option.map_eq_some_iff.mp hr'
      have hwrote : WroteOut addend addend₀ out := by
        split_ifs at hout
        · exact wroteOut_searchReExported (fun _ _ _ hst' hfind => ih hst' hfind) hclear hout
        · cases hout
          exact ⟨hclear, by rintro ⟨⟩⟩
      exact ⟨hwrote.wrote, id⟩
    unfold ReExports.findSymbolIn at h
    dsimp only at h
    cases htrie : (files image).exportsTrie with
    | none =>
      rw [htrie] at h
      dsimp only at h
      split at h
      · cases h
        exact ⟨⟨fun _ => rfl, Or.inl rfl⟩, fun _ => rfl⟩
      · exact hsearch r h
    | some trie =>
      rw [htrie] at h
      dsimp only at h
      split at h
      · exact hsearch r h
      · next node _ =>
        split_ifs at h with hreExport hkind
        · split at h
          · next depHelper _ =>
            obtain ⟨out, hout, rfl⟩ := Option.map_eq_some_iff.mp h
            have hwrote := ih hclear.either hout
            split_ifs with hfound
            · exact ⟨⟨hwrote.wrote.found, hwrote.wrote.either⟩, fun _ => hwrote.found hfound⟩
            · exact ⟨hwrote.wrote, by rintro ⟨⟩⟩
          · cases h
            exact ⟨hclear, by rintro ⟨⟩⟩
          · cases h
            exact ⟨hclear, by rintro ⟨⟩⟩
        · cases h
          exact ⟨wrote_exportedTarget image symbolName node _, by rintro ⟨⟩⟩
        · cases h
          refine ⟨wrote_exportedTarget image symbolName node _, fun _ => ?_⟩
          unfold ReExports.exportedTarget
          dsimp only
          split <;> rfl

variable [DecidableEq ι] {set : AnalyzerSet ι} {fuel : Nat} {fromWmo : ι} {imp : Import}

omit [DecidableEq ι] in
lemma addend_searchImage {image : ι} {st : LookupState ι} {r : Bool × LookupState ι}
    (h : set.searchImage fuel image imp st = some r) :
    (r.1 = true → r.2.target.addend = imp.addend) ∧
      (r.2.target.addend = imp.addend ∨ r.2.target.addend = st.target.addend) := by
  obtain ⟨out, hout, rfl⟩ := Option.map_eq_some_iff.mp h
  have hwrote : WroteOut imp.addend st.target.addend out := wroteOut_findSymbolIn (Or.inr rfl) hout
  exact ⟨fun hfound => hwrote.wrote.found (hwrote.found hfound), hwrote.wrote.either⟩

lemma addend_flatLookup {images : List (ι × Bool)} {st : LookupState ι} {r : Bool × LookupState ι}
    (h : set.flatLookup fuel fromWmo imp images st = some r) :
    (r.1 = true → r.2.target.addend = imp.addend) ∧
      (r.2.target.addend = imp.addend ∨ r.2.target.addend = st.target.addend) := by
  induction images generalizing st with
  | nil =>
    cases h
    exact ⟨nofun, Or.inr rfl⟩
  | cons anImage rest ih =>
    unfold AnalyzerSet.flatLookup at h
    split_ifs at h
    · exact ih h
    · cases hout : set.searchImage fuel anImage.1 imp st with
      | none =>
        rw [hout] at h
        cases h
      | some out =>
        have haddend := addend_searchImage hout
        obtain ⟨found, st'⟩ := out
        rw [hout] at h
        cases found with
        | true =>
          cases h
          exact haddend
        | false =>
          have hrest := ih h
          refine ⟨hrest.1, ?_⟩
          rcases hrest.2 with himp | hkept
          · exact Or.inl himp
          · rw [hkept]
            exact haddend.2

lemma addend_fromImageWeakDefLookup {images : List (ι × Bool)}
    {found : Option (ReExports.FixupTarget ι)} {target : ReExports.FixupTarget ι}
    (hfound : ∀ t, found = some t → t.addend = imp.addend)
    (h : set.fromImageWeakDefLookup fuel fromWmo imp images found = some (some target)) :
    target.addend = imp.addend := by
  induction images generalizing found with
  | nil => exact hfound target (Option.some.inj h)
  | cons anImage rest ih =>
    unfold AnalyzerSet.fromImageWeakDefLookup at h
    split_ifs at h
    · exact ih hfound h
    · cases hout : ReExports.findSymbolIn set.files set.dependent imp.addend fuel anImage.1
        (set.strings imp.symbolName) ⟨false, newTarget ι⟩ with
      | none =>
        rw [hout] at h
        cases h
      | some out =>
        have hwrote : WroteOut imp.addend 0 out := wroteOut_findSymbolIn (Or.inr rfl) hout
        obtain ⟨ok, tempTarget⟩ := out
        rw [hout] at h
        cases ok with
        | false => exact ih hfound h
        | true =>
          have htemp : ∀ t, some tempTarget.target = some t → t.addend = imp.addend := by
            intro t ht
            cases ht
            exact hwrote.wrote.found (hwrote.found rfl)
          dsimp only at h
          split_ifs at h
          · exact ih hfound h
          · cases hold : found with
            | none =>
              rw [hold] at h
              exact ih htemp h
            | some t =>
              rw [hold] at h
              dsimp only at h
              split_ifs at h
              · exact ih htemp h
              · exact ih (hold ▸ hfound) h

lemma addend_lookupSymbol {st st' : LookupState ι} {out : Lookup ι}
    (h : set.lookupSymbol fuel fromWmo imp st = some (out, st')) :
    (out = .found → st'.target.addend = imp.addend) ∧
      (st'.target.addend = imp.addend ∨ st'.target.addend = st.target.addend) := by
  unfold AnalyzerSet.lookupSymbol at h
  dsimp only at h
  by_cases hflat : imp.libOrdinal = BIND_SPECIAL_DYLIB_FLAT_LOOKUP
  · rw [if_pos hflat] at h
    obtain ⟨r, hr, heq⟩ := Option.map_eq_some_iff.mp h
    have haddend := addend_flatLookup hr
    cases heq
    refine ⟨fun hfound => haddend.1 ?_, haddend.2⟩
    split_ifs at hfound with hok
    exact hok
  · rw [if_neg hflat] at h
    by_cases hweak : imp.libOrdinal = BIND_SPECIAL_DYLIB_WEAK_LOOKUP
    · rw [if_pos hweak] at h
      obtain ⟨r, hr, heq⟩ := Option.map_eq_some_iff.mp h
      cases r with
      | some target =>
        have hnone : ∀ t, (none : Option (ReExports.FixupTarget ι)) = some t →
            t.addend = imp.addend := by
          intro t ht
          cases ht
        have haddend : target.addend = imp.addend := addend_fromImageWeakDefLookup hnone hr
        cases heq
        exact ⟨fun _ => haddend, Or.inl haddend⟩
      | none =>
        dsimp only at heq
        split_ifs at heq
        · cases heq
          exact ⟨nofun, Or.inr rfl⟩
        · cases heq
          exact ⟨nofun, Or.inr rfl⟩
    · rw [if_neg hweak] at h
      cases htarget : set.targetImage fromWmo imp.libOrdinal with
      | notFound missing =>
        rw [htarget] at h
        cases h
        exact ⟨nofun, Or.inr rfl⟩
      | missingWeakDylib =>
        rw [htarget] at h
        cases h
        exact ⟨nofun, Or.inr rfl⟩
      | child image =>
        rw [htarget] at h
        obtain ⟨r, hr, heq⟩ := Option.map_eq_some_iff.mp h
        have haddend := addend_searchImage hr
        cases heq
        refine ⟨fun hfound => haddend.1 ?_, haddend.2⟩
        split_ifs at hfound with hok
        exact hok

lemma kind_of_skippable {st st' : LookupState ι}
    (h : set.lookupSymbol fuel fromWmo imp st = some (.skippableWeakDef, st')) :
    st'.target.kind = st.target.kind := by
  unfold AnalyzerSet.lookupSymbol at h
  dsimp only at h
  by_cases hflat : imp.libOrdinal = BIND_SPECIAL_DYLIB_FLAT_LOOKUP
  · rw [if_pos hflat] at h
    obtain ⟨r, -, heq⟩ := Option.map_eq_some_iff.mp h
    have hout := congrArg Prod.fst heq
    dsimp only at hout
    split_ifs at hout
  · rw [if_neg hflat] at h
    by_cases hweak : imp.libOrdinal = BIND_SPECIAL_DYLIB_WEAK_LOOKUP
    · rw [if_pos hweak] at h
      obtain ⟨r, -, heq⟩ := Option.map_eq_some_iff.mp h
      cases r with
      | some target => cases heq
      | none =>
        dsimp only at heq
        split_ifs at heq
        · cases heq
        · cases heq
          rfl
    · rw [if_neg hweak] at h
      cases htarget : set.targetImage fromWmo imp.libOrdinal with
      | notFound missing =>
        rw [htarget] at h
        cases h
      | missingWeakDylib =>
        rw [htarget] at h
        cases h
      | child image =>
        rw [htarget] at h
        obtain ⟨r, -, heq⟩ := Option.map_eq_some_iff.mp h
        have hout := congrArg Prod.fst heq
        dsimp only at hout
        split_ifs at hout

lemma addend_findSymbolFrom (hset : Resolves set) {st st' : LookupState ι}
    (h : set.findSymbolFrom fuel fromWmo imp st = some (true, st')) :
    st'.target.addend = imp.addend ∨ st'.target.addend = st.target.addend ∨ st'.target.addend = 0 := by
  unfold AnalyzerSet.findSymbolFrom at h
  cases hlookup : set.lookupSymbol fuel fromWmo imp st with
  | none =>
    rw [hlookup] at h
    cases h
  | some out =>
    obtain ⟨out, st₁⟩ := out
    have heither := (addend_lookupSymbol hlookup).2
    rw [hlookup] at h
    cases out with
    | found =>
      cases h
      exact heither.imp_right Or.inl
    | skippableWeakDef =>
      cases h
      exact heither.imp_right Or.inl
    | unknownOrdinal => cases h
    | missing expectedIn =>
      dsimp only at h
      split_ifs at h
      · cases h
        dsimp only [Writes.apply]
        cases hwritten : (set.missingSymbolResolver fromWmo imp.weakImport imp.lazyBind
          (set.strings imp.symbolName)).2.addend with
        | none => exact heither.imp_right Or.inl
        | some written => exact Or.inr (Or.inr (hset.addend _ _ _ _ _ hwritten))
      · cases h

lemma addend_of_bindToImage (hset : Resolves set) (hlazy : imp.lazyBind = false) {st : LookupState ι}
    (h : set.findSymbolFrom fuel fromWmo imp ⟨false, .new ι⟩ = some (true, st))
    (hkind : st.target.kind = .bindToImage) : st.target.addend = imp.addend := by
  unfold AnalyzerSet.findSymbolFrom at h
  cases hlookup : set.lookupSymbol fuel fromWmo imp ⟨false, .new ι⟩ with
  | none =>
    rw [hlookup] at h
    cases h
  | some out =>
    obtain ⟨out, st₁⟩ := out
    rw [hlookup] at h
    cases out with
    | found =>
      cases h
      exact (addend_lookupSymbol hlookup).1 rfl
    | skippableWeakDef =>
      cases h
      rw [kind_of_skippable hlookup] at hkind
      cases hkind
    | unknownOrdinal => cases h
    | missing expectedIn =>
      dsimp only at h
      rw [hlazy] at h
      split_ifs at h with hresolved
      · cases h
        dsimp only [Writes.apply] at hkind
        rw [hset.absolute _ _ _ hresolved] at hkind
        cases hkind
      · cases h

end Lookups

/-! ### What is accepted -/

section Accepted

/-- The addend without its top byte is small. -/
def Accepted (addend : UInt64) : Prop := addend &&& 0x00FFFFFFFFFFFFFF ≤ 31

lemma toNat_and_mask (addend : UInt64) :
    (addend &&& 0x00FFFFFFFFFFFFFF).toNat = addend.toNat % 2 ^ 56 := by
  rw [UInt64.toNat_and]
  exact Nat.and_two_pow_sub_one_eq_mod addend.toNat 56

lemma accepted_of_le {addend : UInt64} (h : addend ≤ 31) : Accepted addend := by
  rw [Accepted, UInt64.le_iff_toNat_le, toNat_and_mask]
  rw [UInt64.le_iff_toNat_le] at h
  exact (Nat.mod_le _ _).trans h

/-- An accepted addend is small after its tag is taken off. -/
lemma untagged_le {ι : Type*} {target : FixupTarget ι} (h : Accepted target.addend) :
    target.untagged.addend ≤ 31 := by
  unfold FixupTarget.untagged
  split_ifs with htag
  · exact h
  · rw [Accepted, UInt64.le_iff_toNat_le, toNat_and_mask] at h
    unfold hasHigh8 at htag
    split_ifs at htag with hzero
    · rw [← UInt64.toNat_inj, toNat_tag] at hzero
      have hhigh : target.addend.toNat / 2 ^ 56 = 0 := hzero
      rw [UInt64.le_iff_toNat_le]
      omega
    · have hsame : target.addend >>> 48 = 0xFFFF := by simpa using htag
      rw [← UInt64.toNat_inj, UInt64.toNat_shiftRight, Nat.shiftRight_eq_div_pow] at hsame
      have hhigh : target.addend.toNat / 2 ^ 48 = 0xFFFF := hsame
      have hmask : (31 : UInt64).toNat = 31 := rfl
      omega

variable {image : Image}

lemma not_tooLarge (h64 : image.is64 = true) {addends : List UInt64}
    (h : image.scanAddends addends = false) {addend : UInt64} (hmem : addend ∈ addends) :
    Accepted addend := by
  induction addends with
  | nil => cases hmem
  | cons head rest ih =>
    unfold Image.scanAddends at h
    split_ifs at h with hlarge
    rcases List.mem_cons.mp hmem with rfl | hrest
    · unfold Image.tooLarge at hlarge
      rw [if_pos h64, decide_eq_true_eq] at hlarge
      exact UInt64.not_lt.mp hlarge
    · exact ih h hrest

lemma addendTooLarge_of_accepted (h : image.canBePlacedInDyldCache = true) :
    image.addendTooLarge = false := by
  unfold Image.canBePlacedInDyldCache at h
  simp only [Bool.and_eq_true, Bool.not_eq_true'] at h
  exact h.1.2

lemma accepted_import (h64 : image.is64 = true) (h : image.canBePlacedInDyldCache = true)
    (hchained : image.hasChainedFixups = true) {imp : Import} (hmem : imp ∈ image.imports) :
    Accepted imp.addend := by
  have hscan := addendTooLarge_of_accepted h
  rw [Image.addendTooLarge, if_pos hchained, Bool.or_eq_false_iff] at hscan
  exact not_tooLarge h64 hscan.1 (List.mem_map_of_mem hmem)

lemma accepted_bind (h64 : image.is64 = true) (h : image.canBePlacedInDyldCache = true)
    (hchained : image.hasChainedFixups = false) {b : Bind} (hmem : b ∈ image.binds) :
    Accepted b.addend := by
  have hscan := addendTooLarge_of_accepted h
  rw [Image.addendTooLarge, hchained, if_neg Bool.false_ne_true] at hscan
  exact not_tooLarge h64 hscan (List.mem_map_of_mem hmem)

variable {ι : Type*}

lemma patchable_iff (r : Report ι) : Patchable r ↔ r.target.addend ≤ 31 := by
  have hlt := r.target.addend.toNat_lt
  constructor
  · intro h
    have hkept := congrArg BitVec.toNat (h.assert 0)
    simp only [makePatchLocation, BitVec.toNat_setWidth, UInt64.toNat_toBitVec] at hkept
    have h31 : (31 : UInt64).toNat = 31 := rfl
    rw [UInt64.le_iff_toNat_le]
    omega
  · intro h
    constructor
    · exact accepted_of_le h
    · intro cacheOff
      rw [UInt64.le_iff_toNat_le] at h
      have h31 : (31 : UInt64).toNat = 31 := rfl
      apply BitVec.eq_of_toNat_eq
      simp only [makePatchLocation, BitVec.toNat_setWidth, UInt64.toNat_toBitVec]
      omega

end Accepted

/-! ### Chained fixups -/

section Chained

variable {ι : Type*} [DecidableEq ι] {set : AnalyzerSet ι} {fuel : Nat} {fromWmo : ι}

lemma missing_buildTargets {imports : List Import} {hasError : Bool} {table : TargetsTable ι}
    (h : buildTargets set fuel fromWmo imports hasError = some table) {r : Report ι}
    (hr : table.missing = some r) : r.target.kind = .bindMissingSymbol := by
  induction imports generalizing hasError table with
  | nil =>
    cases h
    cases hr
  | cons imp rest ih =>
    obtain ⟨st, tail, -, htail, rfl⟩ | ⟨st, -, -, hmissing⟩ := buildTargets_cons h
    · exact ih htail hr
    · exact hmissing r hr

lemma hasError_buildTargets_of_found {imports : List Import}
    (hfound : ∀ imp ∈ imports, Found set fuel fromWmo imp) {table : TargetsTable ι}
    (h : buildTargets set fuel fromWmo imports false = some table) : table.hasError = false := by
  induction imports generalizing table with
  | nil =>
    cases h
    rfl
  | cons imp rest ih =>
    obtain ⟨st, hfind, hst⟩ := hfound imp List.mem_cons_self
    unfold buildTargets at h
    rw [hfind] at h
    obtain ⟨tail, htail, rfl⟩ := Option.map_eq_some_iff.mp h
    rw [hst] at htail
    have htailOk : tail.hasError = false :=
      ih (fun imp' himp' => hfound imp' (List.mem_cons_of_mem imp himp')) htail
    exact htailOk

def InRange (pointers : List ChainedPointer) (count k : Nat) : Prop :=
  ∀ j < k, ∀ w i embeddedAddend, pointers[j]? = some w →
    w.fixupLoc.isBind w.pointer_format = some (i, embeddedAddend) → i < count

lemma inRange_succ_iff {w : ChainedPointer} {rest : List ChainedPointer} {count k : Nat} :
    InRange (w :: rest) count (k + 1) ↔
      (∀ i embeddedAddend, w.fixupLoc.isBind w.pointer_format = some (i, embeddedAddend) → i < count) ∧
        InRange rest count k := by
  constructor
  · intro h
    exact ⟨fun i embeddedAddend => h 0 (Nat.succ_pos k) w i embeddedAddend rfl,
      fun j hj w' i embeddedAddend hw' => h (j + 1) (Nat.succ_lt_succ hj) w' i embeddedAddend hw'⟩
  · rintro ⟨hhead, hrest⟩ j hj w' i embeddedAddend hw'
    cases j with
    | zero =>
      cases hw'
      exact hhead i embeddedAddend
    | succ j => exact hrest j (Nat.lt_of_succ_lt_succ hj) w' i embeddedAddend hw'

omit [DecidableEq ι] in
lemma mem_forEachFixupInSegmentChains_iff {targets : List (FixupTarget ι)} {pointers : List ChainedPointer}
    {r : Report ι} (hr : r.target.kind ≠ .rebase) :
    some r ∈ (BindTargets.forEachFixupInSegmentChains set fromWmo targets pointers).1 ↔
      ∃ k w i embeddedAddend target, pointers[k]? = some w ∧ InRange pointers targets.length k ∧
        w.fixupLoc.isBind w.pointer_format = some (i, embeddedAddend) ∧ targets[i]? = some target ∧
        r = reportBind w target (UInt64.ofBitVec embeddedAddend) := by
  induction pointers with
  | nil =>
    constructor
    · intro h
      cases h
    · rintro ⟨k, w, i, embeddedAddend, target, hw, -⟩
      cases hw
  | cons head rest ih =>
    unfold BindTargets.forEachFixupInSegmentChains
    dsimp only
    cases hbind : head.fixupLoc.isBind head.pointer_format with
    | none =>
      have hnot : some r ≠ (head.fixupLoc.isRebase head.pointer_format
          (set.preferredLoadAddress fromWmo).toBitVec).map (reportRebase fromWmo head) := by
        intro h
        obtain ⟨offset, -, rfl⟩ := Option.map_eq_some_iff.mp h.symm
        exact hr rfl
      have hhead : ∀ i embeddedAddend,
          head.fixupLoc.isBind head.pointer_format = some (i, embeddedAddend) → i < targets.length := by
        intro i embeddedAddend h
        cases hbind.symm.trans h
      dsimp only
      rw [List.mem_cons, ih]
      constructor
      · intro h
        obtain ⟨k, w, i, embeddedAddend, target, hw, hin, hrest⟩ := h.resolve_left hnot
        exact ⟨k + 1, w, i, embeddedAddend, target, hw, inRange_succ_iff.mpr ⟨hhead, hin⟩, hrest⟩
      · rintro ⟨k, w, i, embeddedAddend, target, hw, hin, hbind', hrest⟩
        cases k with
        | zero =>
          cases hw
          cases hbind.symm.trans hbind'
        | succ k =>
          exact Or.inr ⟨k, w, i, embeddedAddend, target, hw, (inRange_succ_iff.mp hin).2, hbind', hrest⟩
    | some bind =>
      obtain ⟨bindOrdinal, embeddedAddend₀⟩ := bind
      dsimp only
      cases htarget : targets[bindOrdinal]? with
      | none =>
        -- nothing is reported from here on
        have hout := List.getElem?_eq_none_iff.mp htarget
        dsimp only
        constructor
        · intro h
          cases h
        · rintro ⟨k, w, i, embeddedAddend, target, hw, hin, hbind', htarget', -⟩
          cases k with
          | zero =>
            cases hw
            cases hbind.symm.trans hbind'
            cases htarget.symm.trans htarget'
          | succ k =>
            have hlt := (inRange_succ_iff.mp hin).1 bindOrdinal embeddedAddend₀ hbind
            omega
      | some target₀ =>
        have hhead : ∀ i embeddedAddend,
            head.fixupLoc.isBind head.pointer_format = some (i, embeddedAddend) → i < targets.length := by
          intro i embeddedAddend h
          cases hbind.symm.trans h
          exact (List.getElem?_eq_some_iff.mp htarget).1
        dsimp only
        rw [List.mem_cons, ih]
        constructor
        · rintro (h | ⟨k, w, i, embeddedAddend, target, hw, hin, hrest⟩)
          · cases h
            exact ⟨0, head, bindOrdinal, embeddedAddend₀, target₀, rfl, (fun k hk => absurd hk (Nat.not_lt_zero k)), hbind, htarget, rfl⟩
          · exact ⟨k + 1, w, i, embeddedAddend, target, hw, inRange_succ_iff.mpr ⟨hhead, hin⟩, hrest⟩
        · rintro ⟨k, w, i, embeddedAddend, target, hw, hin, hbind', htarget', hrest⟩
          cases k with
          | zero =>
            cases hw
            cases hbind.symm.trans hbind'
            cases htarget.symm.trans htarget'
            exact Or.inl (congrArg some hrest)
          | succ k =>
            exact Or.inr ⟨k, w, i, embeddedAddend, target, hw, (inRange_succ_iff.mp hin).2, hbind',
              htarget', hrest⟩

omit [DecidableEq ι] in
lemma mem_forEachFixupInAllChains_iff {targets : List (FixupTarget ι)}
    {segments : List (List ChainedPointer)} {report : Option (Report ι)} :
    report ∈ (forEachFixupInAllChains set fromWmo targets segments).1.flatten ↔
      ∃ pointers ∈ segments, report ∈ (BindTargets.forEachFixupInSegmentChains set fromWmo targets pointers).1 := by
  simp [forEachFixupInAllChains]

omit [DecidableEq ι] in
lemma kind_reportBind (w : ChainedPointer) (target : FixupTarget ι) (embeddedAddend : UInt64) :
    (reportBind w target embeddedAddend).target.kind = target.kind := by
  unfold reportBind
  dsimp only
  split_ifs <;> rfl

omit [DecidableEq ι] in
/-- An addend in the pointer is added, and else a tag is taken off. -/
lemma addend_reportBind (w : ChainedPointer) (target : FixupTarget ι) (embeddedAddend : UInt64) :
    (reportBind w target embeddedAddend).target.addend =
      if embeddedAddend = 0 then target.untagged.addend else target.addend + embeddedAddend := by
  unfold reportBind FixupTarget.untagged
  dsimp only
  split_ifs <;> rfl

omit [DecidableEq ι] in
lemma patchable_reportBind_iff {target : FixupTarget ι} (h : Accepted target.addend)
    (w : ChainedPointer) (embeddedAddend : BitVec 64) :
    Patchable (reportBind w target (UInt64.ofBitVec embeddedAddend)) ↔
      (embeddedAddend ≠ 0 → target.addend + UInt64.ofBitVec embeddedAddend ≤ 31) := by
  rw [patchable_iff, addend_reportBind]
  have hzero : UInt64.ofBitVec embeddedAddend = 0 ↔ embeddedAddend = 0 := by
    rw [← UInt64.toBitVec_inj]
    rfl
  rw [ite_cond_congr (propext hzero)]
  by_cases hembedded : embeddedAddend = 0
  · rw [if_pos hembedded]
    exact iff_of_true (untagged_le h) (absurd hembedded)
  · rw [if_neg hembedded]
    exact ⟨fun h _ => h, fun h => h hembedded⟩

lemma patchable_chained_iff {image : Image} (hset : Resolves set) (h64 : image.is64 = true)
    (haccepted : image.canBePlacedInDyldCache = true) (hchained : image.hasChainedFixups = true)
    {reports : List (Report ι)} (h : image.forEachFixup set fuel fromWmo = some reports) :
    (∀ r ∈ reports, IsBind r → Patchable r) ↔ AddendsFit set fuel fromWmo image := by
  rw [Image.forEachFixup, if_pos hchained] at h
  obtain ⟨fixups, hfixups, rfl⟩ := Option.map_eq_some_iff.mp h
  obtain ⟨table, htable, rfl⟩ := Option.map_eq_some_iff.mp hfixups
  cases hok : table.hasError with
  | true =>
    simp only [if_true, List.flatten_nil, List.filterMap_nil, ite_self, List.append_nil, Option.mem_toList]
    constructor
    · intro _ pointers hpointers k w i embeddedAddend imp hw hreaches
      cases hok.symm.trans (hasError_buildTargets_of_found hreaches.found htable)
    · intro _ r hr hbind
      cases (missing_buildTargets htable hr).symm.trans hbind
  | false =>
    have htable₂ := forall₂_buildTargets htable hok
    have hlength := htable₂.length_eq
    have htargets : ∀ {i : Nat} {imp target}, image.imports[i]? = some imp →
        table.targets[i]? = some target → ∃ st, set.findSymbolFrom fuel fromWmo imp ⟨false, .new ι⟩ =
          some (true, st) ∧ st.hasError = false ∧ st.target = target := by
      intro i imp target himp htarget
      obtain ⟨hi, rfl⟩ := List.getElem?_eq_some_iff.mp himp
      obtain ⟨hj, rfl⟩ := List.getElem?_eq_some_iff.mp htarget
      exact htable₂.get hi hj
    simp only [Bool.false_eq_true, if_false, Option.toList_none, List.nil_append]
    cases herror : image.importsError with
    | true =>
      rw [if_pos rfl]
      apply iff_of_true fun r hr => absurd hr List.not_mem_nil
      intro pointers hpointers k w i embeddedAddend imp hw hreaches
      cases herror.symm.trans hreaches.imports
    | false =>
      rw [if_neg Bool.false_ne_true]
      have hfits : ∀ (w : ChainedPointer) (embeddedAddend : BitVec 64) {i : Nat} {imp target},
          image.imports[i]? = some imp → table.targets[i]? = some target → target.kind = .bindToImage →
          FoundInImage set fuel fromWmo imp ∧
            (Patchable (reportBind w target (UInt64.ofBitVec embeddedAddend)) ↔
              (embeddedAddend ≠ 0 → imp.addend + UInt64.ofBitVec embeddedAddend ≤ 31)) := by
        intro w embeddedAddend i imp target himp htarget hkind
        have hmem := List.mem_of_getElem? himp
        obtain ⟨st, hfind, -, rfl⟩ := htargets himp htarget
        have haddend := addend_of_bindToImage hset (image.notLazy imp hmem) hfind hkind
        refine ⟨⟨st, hfind, hkind⟩, ?_⟩
        rw [← haddend]
        apply patchable_reportBind_iff
        rw [haddend]
        exact accepted_import h64 haccepted hchained hmem
      constructor
      · intro hpatchable pointers hpointers k w i embeddedAddend imp hw hreaches hbind himp hfound
        have hi : i < table.targets.length := hlength ▸ (List.getElem?_eq_some_iff.mp himp).1
        have htarget := List.getElem?_eq_getElem hi
        obtain ⟨st, hfind, -, hst⟩ := htargets himp htarget
        have hkind : table.targets[i].kind = .bindToImage := by
          obtain ⟨st', hfind', hkind⟩ := hfound
          cases hfind.symm.trans hfind'
          rw [← hst]
          exact hkind
        have hreportKind := (kind_reportBind w table.targets[i] (UInt64.ofBitVec embeddedAddend)).trans hkind
        apply (hfits w embeddedAddend himp htarget hkind).2.mp
        apply hpatchable
        · rw [List.mem_filterMap]
          refine ⟨some _, mem_forEachFixupInAllChains_iff.mpr ⟨pointers, hpointers, ?_⟩, rfl⟩
          rw [mem_forEachFixupInSegmentChains_iff (by rw [hreportKind]; nofun)]
          refine ⟨k, w, i, embeddedAddend, _, hw, ?_, hbind, htarget, rfl⟩
          exact hlength ▸ hreaches.inRange
        · exact hreportKind
      · intro haddends r hr hkind
        obtain ⟨report, hmem, hreport⟩ := List.mem_filterMap.mp hr
        cases hreport
        have hnot : r.target.kind ≠ .rebase := by
          rw [hkind]
          nofun
        obtain ⟨pointers, hpointers, hsegment⟩ := mem_forEachFixupInAllChains_iff.mp hmem
        obtain ⟨k, w, i, embeddedAddend, target, hw, hin, hbind, htarget, rfl⟩ :=
          (mem_forEachFixupInSegmentChains_iff hnot).mp hsegment
        have hi : i < image.imports.length := hlength ▸ (List.getElem?_eq_some_iff.mp htarget).1
        have himp := List.getElem?_eq_getElem hi
        rw [IsBind, kind_reportBind] at hkind
        obtain ⟨hfound, hiff⟩ := hfits w embeddedAddend himp htarget hkind
        apply hiff.mpr
        refine haddends pointers hpointers k w i embeddedAddend _ hw ⟨herror, ?_, ?_⟩ hbind himp hfound
        · intro imp hmem
          obtain ⟨j, hj⟩ := List.mem_iff_getElem?.mp hmem
          have hlt : j < table.targets.length := hlength ▸ (List.getElem?_eq_some_iff.mp hj).1
          obtain ⟨st, hfind, hst, -⟩ := htargets hj (List.getElem?_eq_getElem hlt)
          exact ⟨st, hfind, hst⟩
        · exact hlength ▸ hin

end Chained

/-! ### Bind opcodes -/

section Opcodes

variable {ι : Type*} [DecidableEq ι] {set : AnalyzerSet ι} {fuel : Nat} {fromWmo : ι}

lemma addend_handleBind (hset : Resolves set) {st : BindState ι} (hst : st.target.addend ≤ 31)
    {b : Bind} (hb : Accepted b.addend) {step : BindStep ι}
    (h : handleBind set fuel fromWmo true st b = some step) :
    (∀ r, step.report = some r → IsBind r → r.target.addend ≤ 31) ∧
      (step.stop = false → step.st.target.addend ≤ 31) := by
  unfold handleBind at h
  split_ifs at h
  · cases h
    constructor
    · intro r hr _
      cases hr
      exact hst
    · exact fun _ => hst
  · cases hfind : set.findSymbolFrom fuel fromWmo b.toImport ⟨st.hasError, st.target⟩ with
    | none =>
      rw [lookupBind, hfind] at h
      cases h
    | some out =>
      obtain ⟨out, found⟩ := out
      cases out with
      | false =>
        rw [lookupBind, hfind] at h
        dsimp only at h
        split at h
        · next hkind =>
          cases h
          constructor
          · intro r hr hbind
            cases hr
            cases hkind.symm.trans hbind
          · rintro ⟨⟩
        · cases h
          exact ⟨by rintro _ ⟨⟩, by rintro ⟨⟩⟩
      | true =>
        have hfound : found.target.untagged.addend ≤ 31 := by
          apply untagged_le
          rcases addend_findSymbolFrom hset hfind with himp | hkept | hzero
          · rw [himp]
            exact hb
          · rw [hkept]
            exact accepted_of_le hst
          · rw [hzero]
            exact accepted_of_le (by decide)
        rw [lookupBind_of_found hfind] at h
        dsimp only at h
        split_ifs at h
        · cases h
          exact ⟨by rintro _ ⟨⟩, fun _ => hfound⟩
        · cases h
          constructor
          · intro r hr _
            cases hr
            exact hfound
          · exact fun _ => hfound

lemma addend_forEachBind (hset : Resolves set) {binds : List Bind}
    (hbinds : ∀ b ∈ binds, Accepted b.addend) {st : BindState ι} (hst : st.target.addend ≤ 31)
    {run : List (Option (Report ι)) × BindState ι × Bool}
    (h : forEachBind set fuel fromWmo true binds st = some run) :
    ∀ r, some r ∈ run.1 → IsBind r → r.target.addend ≤ 31 := by
  induction binds generalizing st run with
  | nil =>
    cases h
    exact fun r hr => absurd hr List.not_mem_nil
  | cons b rest ih =>
    unfold forEachBind at h
    cases hstep : handleBind set fuel fromWmo true st b with
    | none =>
      rw [hstep] at h
      cases h
    | some step =>
      have haddend := addend_handleBind hset hst (hbinds b List.mem_cons_self) hstep
      obtain ⟨st₁, report, stop⟩ := step
      rw [hstep] at h
      cases stop with
      | true =>
        cases h
        intro r hr
        exact haddend.1 r (List.mem_singleton.mp hr).symm
      | false =>
        obtain ⟨run', hrun, rfl⟩ := Option.map_eq_some_iff.mp h
        intro r hr
        rcases List.mem_cons.mp hr with hreport | hrest
        · exact haddend.1 r hreport.symm
        · exact ih (fun b' hb' => hbinds b' (List.mem_cons_of_mem b hb')) (haddend.2 rfl) hrun r hrest

end Opcodes

/-- Every bind that is reported for an accepted image is patchable, up to addends in chains which do
not fit together with the ones of their imports. -/
theorem binds_patchable_iff {ι : Type*} [DecidableEq ι] (set : AnalyzerSet ι) (hset : Resolves set)
    (fuel : Nat) (fromWmo : ι) (image : Image) (h64 : image.is64 = true)
    (haccepted : image.canBePlacedInDyldCache = true) (reports : List (Report ι))
    (h : image.forEachFixup set fuel fromWmo = some reports) :
    (∀ r ∈ reports, IsBind r → Patchable r) ↔
      (image.hasChainedFixups = true → AddendsFit set fuel fromWmo image) := by
  cases hchained : image.hasChainedFixups with
  | true =>
    rw [patchable_chained_iff hset h64 haccepted hchained h]
    exact ⟨fun h _ => h, fun h => h rfl⟩
  | false =>
    apply iff_of_true
    · rw [Image.forEachFixup, hchained, if_neg Bool.false_ne_true, h64] at h
      obtain ⟨run, hrun, rfl⟩ := Option.map_eq_some_iff.mp h
      intro r hr hbind
      obtain ⟨report, hmem, hreport⟩ := List.mem_filterMap.mp hr
      cases hreport
      rw [patchable_iff]
      have hnew : (0 : UInt64) ≤ 31 := by decide
      exact addend_forEachBind hset (fun b => accepted_bind h64 haccepted hchained) hnew hrun r hmem hbind
    · nofun

def oneBind (addend : UInt64) (embeddedAddend : BitVec 64) : Image where
  is64 := true
  hasChainedFixups := true
  imports := [⟨0, 1, false, false, addend⟩]
  notLazy := fun _ himp => List.mem_singleton.mp himp ▸ rfl
  importsError := false
  segments := [[bindPointer embeddedAddend]]
  binds := []
  checksBefore := true
  checksAfter := true

/-- A bind to a second import, which is out of range. -/
def outOfRangePointer : ChainedPointer := ⟨8, 0x4000000000000001#64, ptrArm64eUserland⟩

/-- In the first segment nothing is reported, as its first ordinal is out of range. -/
def twoSegments (addend : UInt64) (embeddedAddend : BitVec 64) : Image :=
  { oneBind addend embeddedAddend with
    segments := [[outOfRangePointer, bindPointer 20], [bindPointer embeddedAddend]] }

lemma resolves_oneImage : Resolves oneImage := ⟨nofun, nofun⟩

/-- The addends 20 and 11 in the second segment. -/
theorem binds_patchable_twoSegments : ∃ r, (twoSegments 20 11).forEachFixup oneImage 1 () = some [r] ∧
    IsBind r ∧ Patchable r := by
  refine ⟨_, rfl, rfl, ?_⟩
  refine (binds_patchable_iff oneImage resolves_oneImage 1 () (twoSegments 20 11) rfl (by decide) _
    rfl).mpr ?_ _ List.mem_cons_self rfl
  intro _ pointers hpointers k w i embeddedAddend imp hw hreaches hbind himp _ _
  rcases List.mem_cons.mp hpointers with rfl | hpointers
  · match k, hw with
    | 0, hw =>
      cases hw
      cases hbind
      cases himp
    | 1, _ =>
      have hlt : 1 < 1 := hreaches.inRange 0 Nat.one_pos outOfRangePointer 1 0 rfl rfl
      exact absurd hlt (lt_irrefl 1)
  · rw [List.mem_singleton.mp hpointers] at hw
    match k, hw with
    | 0, hw =>
      cases hw
      cases hbind
      cases himp
      decide

/-- Addends of 20 in the import and in the pointer are accepted, and 40 is reported. -/
theorem bind_not_patchable : (oneBind 20 20).is64 = true ∧ (oneBind 20 20).canBePlacedInDyldCache = true ∧
    ∃ r, (oneBind 20 20).forEachFixup oneImage 1 () = some [r] ∧ IsBind r ∧ r.target.addend = 40 ∧
      ¬Patchable r := by
  refine ⟨rfl, by decide, _, rfl, rfl, rfl, ?_⟩
  rw [patchable_iff]
  decide

end Dyld.Cache.PatchableAddends
