import Dyld.Chained.Pointer
import Dyld.MachO.FindSymbol

/-!
# The targets of binds

`WrappedMachO::forEachFixup` looks the symbol of a bind up and hands the target to its client. The
top byte of an addend can be a tag, which is then given apart from the offset. Chained fixups look
all imports up first. For bind opcodes one target is written by every lookup and used again when
the next bind is for the same symbol.
-/

namespace Dyld.MachO.BindTargets
open Dyld.Chained Dyld.MachO.ReExports

/-! ### What is reported -/

structure PointerMetaData where
  diversity : Nat
  high8 : UInt8
  authenticated : Bool
  key : Nat
  usesAddrDiversity : Bool

namespace PointerMetaData

def new : PointerMetaData := ⟨0, 0, false, 0, false⟩

/-- The constructor for a pointer of a chain. -/
def ofPointer (fixupLoc : PointerOnDisk) (pointer_format : Nat) : PointerMetaData :=
  if pointer_format ∈ arm64eFormats then
    if fixupLoc.arm64eAuth then
      ⟨fixupLoc.arm64eDiversity, 0, true, fixupLoc.arm64eKey, fixupLoc.arm64eAddrDiv⟩
    else if fixupLoc.arm64eBind then new
    else { new with high8 := UInt8.ofNat fixupLoc.arm64eHigh8 }
  else if pointer_format ∈ [ptr64, ptr64Offset] then
    if fixupLoc.generic64Bind then new
    else { new with high8 := UInt8.ofNat fixupLoc.generic64High8 }
  else new

end PointerMetaData

/-- What `fixUpHandler` is called with. -/
structure Report (ι : Type*) where
  fixupLocRuntimeOffset : UInt64
  pmd : PointerMetaData
  target : FixupTarget ι

/-- Distinguishes a tag from a negative addend. -/
def hasHigh8 (addend : UInt64) : Bool :=
  if addend >>> 56 = 0 then false else addend >>> 48 ≠ 0xFFFF

/-- Clears the top bytes of the offset and the addend. -/
def FixupTarget.withoutHigh8 {ι : Type*} (target : FixupTarget ι) : FixupTarget ι :=
  { target with offsetInImage := target.offsetInImage &&& 0x00FFFFFFFFFFFFFF
                addend := target.addend &&& 0x00FFFFFFFFFFFFFF }

/-! ### `forEachFixup`, with chained fixups -/

section ChainedFixups

variable {ι : Type*} [DecidableEq ι] (set : AnalyzerSet ι) (fuel : Nat) (fromWmo : ι)

/-- The targets table, up to the first import that is not found, what is reported for that import
and whether there was an error. -/
structure TargetsTable (ι : Type*) where
  targets : List (FixupTarget ι)
  missing : Option (Report ι)
  hasError : Bool

def buildTargets : List Import → Bool → Option (TargetsTable ι)
  | [], hasError => some ⟨[], none, hasError⟩
  | imp :: rest, hasError =>
    match set.findSymbolFrom fuel fromWmo imp ⟨hasError, .new ι⟩ with
    | none => none
    | some (true, st) => (buildTargets rest st.hasError).map fun table =>
        { table with targets := st.target :: table.targets }
    | some (false, st) =>
      match st.target.kind with
      | .bindMissingSymbol => some ⟨[st.target], some ⟨0, .new, st.target⟩, st.hasError⟩
      | _ => some ⟨[st.target], none, st.hasError⟩

structure ChainedPointer where
  fixupOffset : UInt64
  fixupLoc : PointerOnDisk
  pointer_format : Nat

def reportBind (w : ChainedPointer) (target : FixupTarget ι) (embeddedAddend : UInt64) : Report ι :=
  let pmd := PointerMetaData.ofPointer w.fixupLoc w.pointer_format
  if embeddedAddend = 0 then
    if hasHigh8 target.addend then
      ⟨w.fixupOffset, { pmd with high8 := (target.addend >>> 56).toUInt8 }, target.withoutHigh8⟩
    else ⟨w.fixupOffset, pmd, target⟩
  else
    -- the pointer has an addend of its own
    ⟨w.fixupOffset, pmd, { target with addend := target.addend + embeddedAddend
                                       offsetInImage := target.offsetInImage + embeddedAddend }⟩

def reportRebase (w : ChainedPointer) (targetOffset : BitVec 64) : Report ι :=
  ⟨w.fixupOffset, PointerMetaData.ofPointer w.fixupLoc w.pointer_format,
    { FixupTarget.new ι with foundInImage := some fromWmo
                             offsetInImage := UInt64.ofBitVec targetOffset &&& 0x00FFFFFFFFFFFFFF }⟩

/-- The reports for the pointers in the chains of a segment, and whether a bind ordinal was out of
range, which ends them. -/
def forEachFixupInSegmentChains (targets : List (FixupTarget ι)) :
    List ChainedPointer → List (Option (Report ι)) × Bool
  | [] => ([], false)
  | w :: rest =>
    let reports := forEachFixupInSegmentChains targets rest
    match w.fixupLoc.isBind w.pointer_format with
    | some (bindOrdinal, embeddedAddend) =>
      match targets[bindOrdinal]? with
      | some target => (some (reportBind w target (UInt64.ofBitVec embeddedAddend)) :: reports.1, reports.2)
      | none => ([], true)
    | none =>
      ((w.fixupLoc.isRebase w.pointer_format (set.preferredLoadAddress fromWmo).toBitVec).map
        (reportRebase fromWmo w) :: reports.1, reports.2)

/-- The reports for each segment. `stopped` is never set, so a handler that stops leaves one segment
only. -/
def forEachFixupInAllChains (targets : List (FixupTarget ι)) (segments : List (List ChainedPointer)) :
    List (List (Option (Report ι))) × Bool :=
  let reports := segments.map (forEachFixupInSegmentChains set fromWmo targets)
  (reports.map Prod.fst, reports.any Prod.snd)

structure ChainedFixups (ι : Type*) where
  missing : Option (Report ι)
  reports : List (List (Option (Report ι)))
  hasError : Bool

/-- The branch of `forEachFixup` for an image with chained fixups. -/
def forEachChainedFixup (imports : List Import) (segments : List (List ChainedPointer)) :
    Option (ChainedFixups ι) :=
  (buildTargets set fuel fromWmo imports false).map fun table =>
    if table.hasError then ⟨table.missing, [], true⟩
    else
      let reports := forEachFixupInAllChains set fromWmo table.targets segments
      ⟨none, reports.1, reports.2⟩

end ChainedFixups

/-! ### `forEachBind` -/

structure Bind extends Import where
  runtimeOffset : UInt64

/-- The variables of `forEachBind`. -/
structure BindState (ι : Type*) where
  lastLibOrdinal : Int32
  lastSymbolName : Option UInt64
  lastAddend : UInt64
  target : FixupTarget ι
  pmd : PointerMetaData
  hasError : Bool

def BindState.new (ι : Type*) : BindState ι := ⟨256, none, 0, .new ι, .new, false⟩

/-- Whether the last lookup that was reported was for the same symbol. -/
def BindState.Repeats {ι : Type*} (st : BindState ι) (b : Bind) : Prop :=
  some b.symbolName = st.lastSymbolName ∧ b.libOrdinal = st.lastLibOrdinal ∧ b.addend = st.lastAddend

instance {ι : Type*} (st : BindState ι) (b : Bind) : Decidable (st.Repeats b) :=
  inferInstanceAs (Decidable (_ ∧ _))

structure BindStep (ι : Type*) where
  st : BindState ι
  report : Option (Report ι)
  stop : Bool

section Binds

variable {ι : Type*} [DecidableEq ι] (set : AnalyzerSet ι) (fuel : Nat) (fromWmo : ι) (is64 : Bool)

/-- Gives a tag in the addend apart from the target. -/
def BindState.split (is64 : Bool) (st : BindState ι) : BindState ι :=
  if is64 && st.target.addend ≠ 0 && hasHigh8 st.target.addend then
    { st with pmd := { st.pmd with high8 := (st.target.addend >>> 56).toUInt8 }
              target := st.target.withoutHigh8 }
  else { st with pmd := { st.pmd with high8 := 0 } }

def lookupBind (st : BindState ι) (b : Bind) : Option (BindStep ι) :=
  match set.findSymbolFrom fuel fromWmo b.toImport ⟨st.hasError, st.target⟩ with
  | none => none
  | some (true, found) =>
    let st := BindState.split is64 { st with target := found.target, hasError := found.hasError }
    if st.target.skippableWeakDef then some ⟨st, none, false⟩
    else some ⟨{ st with lastSymbolName := some b.symbolName, lastLibOrdinal := b.libOrdinal
                         lastAddend := b.addend }, some ⟨b.runtimeOffset, st.pmd, st.target⟩, false⟩
  | some (false, found) =>
    let st := { st with target := found.target, hasError := found.hasError }
    match st.target.kind with
    | .bindMissingSymbol => some ⟨st, some ⟨b.runtimeOffset, st.pmd, st.target⟩, true⟩
    | _ => some ⟨st, none, true⟩

def handleBind (st : BindState ι) (b : Bind) : Option (BindStep ι) :=
  if st.Repeats b then some ⟨st, some ⟨b.runtimeOffset, st.pmd, st.target⟩, false⟩
  else lookupBind set fuel fromWmo is64 st b

/-- `WrappedMachO::forEachBind`: the reports, the variables after and whether it stopped. -/
def forEachBind : List Bind → BindState ι → Option (List (Option (Report ι)) × BindState ι × Bool)
  | [], st => some ([], st, false)
  | b :: rest, st =>
    match handleBind set fuel fromWmo is64 st b with
    | none => none
    | some ⟨st, report, true⟩ => some ([report], st, true)
    | some ⟨st, report, false⟩ => (forEachBind rest st).map fun r => (report :: r.1, r.2)

end Binds

/-! ### Tags -/

lemma toNat_tag (x : UInt64) : (x >>> 56).toNat = x.toNat / 2 ^ 56 := by
  rw [UInt64.toNat_shiftRight, Nat.shiftRight_eq_div_pow]
  rfl

/-- The byte taken off can be put back exactly when it was the top byte. -/
lemma and_add_shiftLeft_iff (x : UInt64) (high8 : UInt8) :
    (x &&& (0x00FFFFFFFFFFFFFF : UInt64)) + (high8.toUInt64 <<< 56) = x ↔ x >>> 56 = high8.toUInt64 := by
  have hlow : (x &&& 0x00FFFFFFFFFFFFFF).toNat = x.toNat % 2 ^ 56 := by
    rw [UInt64.toNat_and]
    exact Nat.and_two_pow_sub_one_eq_mod x.toNat 56
  have hhigh : (high8.toUInt64 <<< 56).toNat = high8.toNat * 2 ^ 56 := by
    rw [UInt64.toNat_shiftLeft, UInt8.toNat_toUInt64, Nat.shiftLeft_eq]
    have := high8.toNat_lt
    exact Nat.mod_eq_of_lt (by simp; omega)
  rw [← UInt64.toNat_inj, ← UInt64.toNat_inj, UInt64.toNat_add, hlow, hhigh, toNat_tag,
    UInt8.toNat_toUInt64]
  have := high8.toNat_lt
  have := x.toNat_lt
  omega

lemma toUInt8_tag (x : UInt64) : (x >>> 56).toUInt8.toUInt64 = x >>> 56 := by
  rw [← UInt64.toNat_inj, UInt8.toNat_toUInt64, UInt64.toNat_toUInt8, toNat_tag]
  have := x.toNat_lt
  omega

lemma tag_and (x : UInt64) : (x &&& 0x00FFFFFFFFFFFFFF) >>> 56 = 0 := by
  rw [← UInt64.toNat_inj, toNat_tag, UInt64.toNat_and]
  have h : x.toNat &&& (0x00FFFFFFFFFFFFFF : UInt64).toNat = x.toNat % 2 ^ 56 :=
    Nat.and_two_pow_sub_one_eq_mod x.toNat 56
  rw [h]
  exact Nat.div_eq_of_lt (Nat.mod_lt _ (by positivity))

lemma not_hasHigh8_and (x : UInt64) : hasHigh8 (x &&& 0x00FFFFFFFFFFFFFF) = false := by
  rw [hasHigh8, if_pos (tag_and x)]

structure Report.Exact {ι : Type*} (image : ι) (offset total : UInt64) (r : Report ι) : Prop where
  kind : r.target.kind = .bindToImage
  foundInImage : r.target.foundInImage = some image
  topByte : hasHigh8 total → r.target.offsetInImage >>> 56 = 0
  address : r.target.offsetInImage + r.pmd.high8.toUInt64 <<< 56 = offset + total

/-- The tag of the addend is the top byte of the address. -/
def TagFits (offset addend : UInt64) : Prop :=
  hasHigh8 addend → (offset + addend) >>> 56 = addend >>> 56

section Exact

variable {ι : Type*} {image : ι} {offset addend : UInt64} {target : FixupTarget ι}

lemma exact_withoutHigh8_iff (htarget : target.IsAddress image (offset + addend) addend)
    (htag : hasHigh8 addend = true) (loc : UInt64) (pmd : PointerMetaData) :
    (Report.mk loc { pmd with high8 := (addend >>> 56).toUInt8 } target.withoutHigh8).Exact image offset
      addend ↔ TagFits offset addend := by
  have haddress : ((offset + addend) &&& (0x00FFFFFFFFFFFFFF : UInt64)) +
      ((addend >>> 56).toUInt8.toUInt64 <<< 56) = offset + addend ↔ TagFits offset addend := by
    rw [and_add_shiftLeft_iff, toUInt8_tag, TagFits]
    simp only [htag, forall_const]
  rw [← haddress, ← htarget.offsetInImage]
  constructor
  · intro hexact
    have hsum := hexact.address
    rw [← htarget.offsetInImage] at hsum
    exact hsum
  · intro hsum
    constructor
    · exact htarget.kind
    · exact htarget.foundInImage
    · exact fun _ => tag_and target.offsetInImage
    · rw [← htarget.offsetInImage]
      exact hsum

lemma exact_of_not_hasHigh8 (htarget : target.IsAddress image (offset + addend) addend)
    (htag : hasHigh8 addend = false) (loc : UInt64) {pmd : PointerMetaData} (hpmd : pmd.high8 = 0) :
    (Report.mk loc pmd target).Exact image offset addend := by
  constructor
  · exact htarget.kind
  · exact htarget.foundInImage
  · intro h
    cases htag.symm.trans h
  · dsimp only
    rw [hpmd, htarget.offsetInImage]
    simp

end Exact

/-! ### Chained fixups -/

/-- When the address of a bind in a chain is reported exactly. A pointer with an addend of its own
is not looked at for a tag. -/
def ChainedFits (offset addend embeddedAddend : UInt64) : Prop :=
  if embeddedAddend = 0 then TagFits offset addend
  else hasHigh8 (addend + embeddedAddend) → (offset + (addend + embeddedAddend)) >>> 56 = 0

lemma high8_ofPointer {fixupLoc : PointerOnDisk} {pointer_format : Nat} {bind : Nat × BitVec 64}
    (h : fixupLoc.isBind pointer_format = some bind) :
    (PointerMetaData.ofPointer fixupLoc pointer_format).high8 = 0 := by
  unfold PointerOnDisk.isBind at h
  unfold PointerMetaData.ofPointer
  split_ifs at h ⊢ <;> rfl

lemma exact_reportBind_iff {ι : Type*} {image : ι} {offset addend : UInt64} {target : FixupTarget ι}
    (htarget : target.IsAddress image (offset + addend) addend) {w : ChainedPointer}
    {bind : Nat × BitVec 64} (hbind : w.fixupLoc.isBind w.pointer_format = some bind)
    (embeddedAddend : UInt64) :
    (reportBind w target embeddedAddend).Exact image offset (addend + embeddedAddend) ↔
      ChainedFits offset addend embeddedAddend := by
  have hpmd := high8_ofPointer hbind
  unfold reportBind ChainedFits
  by_cases hembedded : embeddedAddend = 0
  · simp only [hembedded, if_true, UInt64.add_zero]
    rw [htarget.addend]
    cases htag : hasHigh8 addend with
    | true =>
      rw [if_pos rfl]
      exact exact_withoutHigh8_iff htarget htag w.fixupOffset _
    | false =>
      rw [if_neg Bool.false_ne_true]
      apply iff_of_true (exact_of_not_hasHigh8 htarget htag w.fixupOffset hpmd)
      intro h
      cases htag.symm.trans h
  · simp only [if_neg hembedded]
    have haddress : target.offsetInImage + embeddedAddend = offset + (addend + embeddedAddend) := by
      rw [htarget.offsetInImage, UInt64.add_assoc]
    rw [haddress]
    constructor
    · intro hexact
      exact hexact.topByte
    · intro htopByte
      constructor
      · exact htarget.kind
      · exact htarget.foundInImage
      · exact htopByte
      · dsimp only
        rw [hpmd]
        simp

section ChainedBinds

variable {ι : Type*} [DecidableEq ι] {set : AnalyzerSet ι} {fuel : Nat} {fromWmo : ι}

/-- The table is that of the first import alone, or goes on with the other imports if it is found. -/
lemma buildTargets_cons {imp : Import} {rest : List Import} {hasError : Bool} {table : TargetsTable ι}
    (h : buildTargets set fuel fromWmo (imp :: rest) hasError = some table) :
    (∃ st tail, set.findSymbolFrom fuel fromWmo imp ⟨hasError, .new ι⟩ = some (true, st) ∧
      buildTargets set fuel fromWmo rest st.hasError = some tail ∧
      table = { tail with targets := st.target :: tail.targets }) ∨
    ∃ st, set.findSymbolFrom fuel fromWmo imp ⟨hasError, .new ι⟩ = some (false, st) ∧
      table.hasError = st.hasError ∧ ∀ r, table.missing = some r → r.target.kind = .bindMissingSymbol := by
  unfold buildTargets at h
  split at h
  · cases h
  · next st hfind =>
    obtain ⟨tail, htail, rfl⟩ := Option.map_eq_some_iff.mp h
    exact Or.inl ⟨st, tail, hfind, htail, rfl⟩
  · next st hfind =>
    refine Or.inr ⟨st, hfind, ?_⟩
    split at h
    · next hkind =>
      cases h
      refine ⟨rfl, fun r hr => ?_⟩
      cases hr
      exact hkind
    · cases h
      exact ⟨rfl, nofun⟩

lemma buildTargets_keepsError {imports : List Import} {table : TargetsTable ι}
    (h : buildTargets set fuel fromWmo imports true = some table) : table.hasError = true := by
  induction imports generalizing table with
  | nil =>
    cases h
    rfl
  | cons imp rest ih =>
    obtain ⟨st, tail, hfind, htail, rfl⟩ | ⟨st, hfind, herror, -⟩ := buildTargets_cons h
    · have hst : st.hasError = true := hasError_findSymbolFrom hfind (Or.inl rfl)
      rw [hst] at htail
      have htailError : tail.hasError = true := ih htail
      exact htailError
    · exact herror.trans (hasError_findSymbolFrom hfind (Or.inl rfl))

lemma forall₂_buildTargets {imports : List Import} {table : TargetsTable ι}
    (h : buildTargets set fuel fromWmo imports false = some table) (hok : table.hasError = false) :
    List.Forall₂ (fun imp target => ∃ st, set.findSymbolFrom fuel fromWmo imp ⟨false, .new ι⟩ =
      some (true, st) ∧ st.hasError = false ∧ st.target = target) imports table.targets := by
  induction imports generalizing table with
  | nil =>
    cases h
    exact List.Forall₂.nil
  | cons imp rest ih =>
    obtain ⟨st, tail, hfind, htail, rfl⟩ | ⟨st, hfind, herror, -⟩ := buildTargets_cons h
    · cases hst : st.hasError with
      | true =>
        rw [hst] at htail
        have htailError : tail.hasError = true := buildTargets_keepsError htail
        cases hok.symm.trans htailError
      | false =>
        rw [hst] at htail
        exact List.Forall₂.cons ⟨st, hfind, hst, rfl⟩ (ih htail hok)
    · cases (hok.symm.trans herror).trans (hasError_findSymbolFrom hfind (Or.inr rfl))

lemma buildTargets_isAddress {imports : List Import} {table : TargetsTable ι}
    (h : buildTargets set fuel fromWmo imports false = some table) (hok : table.hasError = false)
    {i : Nat} {imp : Import} (hi : imports[i]? = some imp) {image : ι} {symbolName : String}
    {offset : UInt64} (hbinds : BindsTo set fuel fromWmo imp image symbolName offset) :
    ∃ target, table.targets[i]? = some target ∧
      target.IsAddress image (offset + imp.addend) imp.addend := by
  have htargets := forall₂_buildTargets h hok
  obtain ⟨hlt, rfl⟩ := List.getElem?_eq_some_iff.mp hi
  have hltTargets := htargets.length_eq ▸ hlt
  obtain ⟨st, hfind, -, htarget⟩ := htargets.get hlt hltTargets
  obtain ⟨hasError, w, -, hw, haddress⟩ := hbinds.findSymbolFrom
  cases hfind.symm.trans (hw (.new ι))
  have hentry : table.targets[i]? = some (w.apply (.new ι)) :=
    (List.getElem?_eq_getElem hltTargets).trans (congrArg some htarget.symm)
  exact ⟨_, hentry, haddress (.new ι)⟩

omit [DecidableEq ι] in
lemma forEachFixupInSegmentChains_bind {targets : List (FixupTarget ι)} {pointers : List ChainedPointer}
    {k : Nat} {w : ChainedPointer} {report : Option (Report ι)} (hw : pointers[k]? = some w)
    (hreport : (forEachFixupInSegmentChains set fromWmo targets pointers).1[k]? = some report)
    {i : Nat} {embeddedAddend : BitVec 64}
    (hbind : w.fixupLoc.isBind w.pointer_format = some (i, embeddedAddend)) {target : FixupTarget ι}
    (htarget : targets[i]? = some target) :
    report = some (reportBind w target (UInt64.ofBitVec embeddedAddend)) := by
  induction pointers generalizing k with
  | nil => cases hw
  | cons head rest ih =>
    unfold forEachFixupInSegmentChains at hreport
    cases k with
    | zero =>
      cases hw
      rw [hbind] at hreport
      dsimp only at hreport
      rw [htarget] at hreport
      cases hreport
      rfl
    | succ k =>
      dsimp only at hreport
      split at hreport
      · split at hreport
        · exact ih hw hreport
        · cases hreport
      · exact ih hw hreport

lemma exact_forEachChainedFixup_iff {imports : List Import} {segments : List (List ChainedPointer)}
    {fixups : ChainedFixups ι}
    (h : forEachChainedFixup set fuel fromWmo imports segments = some fixups) {j : Nat}
    {pointers : List ChainedPointer} (hpointers : segments[j]? = some pointers)
    {reports : List (Option (Report ι))} (hreports : fixups.reports[j]? = some reports) {k : Nat}
    {w : ChainedPointer} (hw : pointers[k]? = some w) {report : Option (Report ι)}
    (hreport : reports[k]? = some report) {i : Nat} {embeddedAddend : BitVec 64}
    (hbind : w.fixupLoc.isBind w.pointer_format = some (i, embeddedAddend)) {imp : Import}
    (hi : imports[i]? = some imp) {image : ι} {symbolName : String} {offset : UInt64}
    (hbinds : BindsTo set fuel fromWmo imp image symbolName offset) :
    (∃ r, report = some r ∧ r.Exact image offset (imp.addend + UInt64.ofBitVec embeddedAddend)) ↔
      ChainedFits offset imp.addend (UInt64.ofBitVec embeddedAddend) := by
  obtain ⟨table, htable, rfl⟩ := Option.map_eq_some_iff.mp h
  cases hok : table.hasError with
  | true =>
    rw [if_pos hok] at hreports
    cases hreports
  | false =>
    rw [if_neg (by simp [hok])] at hreports
    have hsegment : (forEachFixupInSegmentChains set fromWmo table.targets pointers).1 = reports := by
      simpa [forEachFixupInAllChains, hpointers] using hreports
    subst hsegment
    obtain ⟨target, htarget, haddress⟩ := buildTargets_isAddress htable hok hi hbinds
    rw [forEachFixupInSegmentChains_bind hw hreport hbind htarget]
    simp only [Option.some.injEq, exists_eq_left']
    exact exact_reportBind_iff haddress hbind (UInt64.ofBitVec embeddedAddend)

end ChainedBinds

/-! ### Bind opcodes -/

section Tags

variable {ι : Type*}

def FixupTarget.tag (target : FixupTarget ι) : UInt8 :=
  if hasHigh8 target.addend then (target.addend >>> 56).toUInt8 else 0

def FixupTarget.untagged (target : FixupTarget ι) : FixupTarget ι :=
  if hasHigh8 target.addend then target.withoutHigh8 else target

lemma split_eq (st : BindState ι) :
    st.split true = { st with pmd := { st.pmd with high8 := st.target.tag }, target := st.target.untagged } := by
  unfold BindState.split FixupTarget.tag FixupTarget.untagged
  cases htag : hasHigh8 st.target.addend with
  | true =>
    have hne : st.target.addend ≠ 0 := by
      intro hzero
      rw [hzero] at htag
      cases htag
    simp [hne]
  | false => simp

lemma hasHigh8_untagged (target : FixupTarget ι) : hasHigh8 target.untagged.addend = false := by
  unfold FixupTarget.untagged
  split_ifs with htag
  · exact not_hasHigh8_and target.addend
  · exact Bool.eq_false_of_not_eq_true htag

lemma skippableWeakDef_untagged (target : FixupTarget ι) :
    target.untagged.skippableWeakDef = target.skippableWeakDef := by
  unfold FixupTarget.untagged
  split_ifs <;> rfl

lemma getD_getD {α : Type*} (o : Option α) (a : α) : o.getD (o.getD a) = o.getD a := by
  cases o <;> rfl

lemma TargetWrites.apply_apply (w : TargetWrites ι) (t : FixupTarget ι) :
    w.apply (w.apply t) = w.apply t := by
  simp only [TargetWrites.apply, Writes.apply, getD_getD]

lemma TargetWrites.apply_withoutHigh8 (w : TargetWrites ι) (t : FixupTarget ι) {addend : UInt64}
    (haddend : w.addend = some addend) :
    (w.apply (w.apply t).withoutHigh8).withoutHigh8 = (w.apply t).withoutHigh8 := by
  have hoffset : w.offsetInImage.getD (w.offsetInImage.getD t.offsetInImage &&& 0x00FFFFFFFFFFFFFF) &&&
      0x00FFFFFFFFFFFFFF = w.offsetInImage.getD t.offsetInImage &&& 0x00FFFFFFFFFFFFFF := by
    cases w.offsetInImage with
    | none => rw [Option.getD_none, Option.getD_none, UInt64.and_assoc, UInt64.and_self]
    | some offset => rfl
  simp only [FixupTarget.withoutHigh8, TargetWrites.apply, Writes.apply, getD_getD, haddend, hoffset,
    Option.getD_some]

lemma untagged_apply_again (w : TargetWrites ι) {t : FixupTarget ι} (ht : hasHigh8 t.addend = false) :
    (w.apply (w.apply t).untagged).untagged = (w.apply t).untagged ∧
      (w.apply (w.apply t).untagged).tag = (w.apply t).tag := by
  cases htag : hasHigh8 (w.apply t).addend with
  | false =>
    have hsame : (w.apply t).untagged = w.apply t := by
      rw [FixupTarget.untagged, if_neg (by simp [htag])]
    rw [hsame, w.apply_apply]
    exact ⟨hsame, rfl⟩
  | true =>
    cases haddend : w.addend with
    | none =>
      have hkept : (w.apply t).addend = t.addend := by
        simp only [TargetWrites.apply, Writes.apply, haddend, Option.getD_none]
      rw [hkept, ht] at htag
      cases htag
    | some addend =>
      have hwritten : ∀ t, (w.apply t).addend = addend := by
        intro t
        simp only [TargetWrites.apply, Writes.apply, haddend, Option.getD_some]
      rw [hwritten] at htag
      constructor
      · simp only [FixupTarget.untagged, hwritten, htag, if_true]
        exact w.apply_withoutHigh8 t haddend
      · simp only [FixupTarget.tag, hwritten]

end Tags

section Binds

variable {ι : Type*} [DecidableEq ι] {set : AnalyzerSet ι} {fuel : Nat} {fromWmo : ι}

lemma lookupBind_of_found {st : BindState ι} {b : Bind} {found : LookupState ι}
    (h : set.findSymbolFrom fuel fromWmo b.toImport ⟨st.hasError, st.target⟩ = some (true, found)) :
    lookupBind set fuel fromWmo true st b = some (
      let st := { st with pmd := { st.pmd with high8 := found.target.tag }
                          target := found.target.untagged, hasError := found.hasError }
      if found.target.skippableWeakDef then ⟨st, none, false⟩
      else ⟨{ st with lastSymbolName := some b.symbolName, lastLibOrdinal := b.libOrdinal
                      lastAddend := b.addend }, some ⟨b.runtimeOffset, st.pmd, st.target⟩, false⟩) := by
  rw [lookupBind, h]
  dsimp only
  rw [split_eq]
  dsimp only
  rw [skippableWeakDef_untagged]
  split_ifs <;> rfl

/-- The lookup for an import gives what the last one left. -/
def Reused (set : AnalyzerSet ι) (fuel : Nat) (fromWmo : ι) (imp : Import) (st : BindState ι) : Prop :=
  ∃ target, set.findSymbolFrom fuel fromWmo imp ⟨false, st.target⟩ = some (true, ⟨false, target⟩) ∧
    target.untagged = st.target ∧ target.tag = st.pmd.high8

/-- What holds of the variables of `forEachBind`. The last lookup that was reported would give the
same target, until one was skipped. -/
structure BindState.Inv (set : AnalyzerSet ι) (fuel : Nat) (fromWmo : ι) (binds : List Bind)
    (st : BindState ι) : Prop where
  untagged : hasHigh8 st.target.addend = false
  last : ∀ symbolName, st.lastSymbolName = some symbolName → ∃ b ∈ binds, b.symbolName = symbolName ∧
    b.libOrdinal = st.lastLibOrdinal ∧ b.addend = st.lastAddend ∧
    (st.hasError = false → st.target.skippableWeakDef = false → Reused set fuel fromWmo b.toImport st)

lemma inv_new (binds : List Bind) : (BindState.new ι).Inv set fuel fromWmo binds := by
  have hzero : hasHigh8 0 = false := by decide
  exact ⟨hzero, nofun⟩

lemma reused_lookupBind {st : BindState ι} (huntagged : hasHigh8 st.target.addend = false)
    (hst : st.hasError = false) {imp : Import} {found : LookupState ι}
    (h : set.findSymbolFrom fuel fromWmo imp ⟨st.hasError, st.target⟩ = some (true, found))
    (hfound : found.hasError = false) (st' : BindState ι) (htarget : st'.target = found.target.untagged)
    (hhigh8 : st'.pmd.high8 = found.target.tag) : Reused set fuel fromWmo imp st' := by
  rw [hst] at h
  rcases looksUp_findSymbolFrom set fuel fromWmo imp false with hnone | ⟨out, hasError, w, -, hsome⟩
  · cases h.symm.trans (hnone _)
  · cases h.symm.trans (hsome st.target)
    obtain ⟨hagain, htag⟩ := untagged_apply_again w huntagged
    have hok : hasError = false := hfound
    subst hok
    refine ⟨w.apply st'.target, hsome st'.target, ?_, ?_⟩
    · rw [htarget]
      exact hagain
    · rw [htarget, hhigh8]
      exact htag

/-- Every bind keeps the invariant. -/
lemma BindState.Inv.handleBind {binds : List Bind} {st : BindState ι}
    (h : st.Inv set fuel fromWmo binds) {b : Bind} (hb : b ∈ binds) {step : BindStep ι}
    (hstep : handleBind set fuel fromWmo true st b = some step) (hstop : step.stop = false) :
    step.st.Inv set fuel fromWmo binds := by
  unfold BindTargets.handleBind at hstep
  split_ifs at hstep
  · cases hstep
    exact h
  · cases hfind : set.findSymbolFrom fuel fromWmo b.toImport ⟨st.hasError, st.target⟩ with
    | none =>
      rw [lookupBind, hfind] at hstep
      cases hstep
    | some out =>
      obtain ⟨out, found⟩ := out
      cases out with
      | false =>
        rw [lookupBind, hfind] at hstep
        dsimp only at hstep
        split at hstep
        · cases hstep
          cases hstop
        · cases hstep
          cases hstop
      | true =>
        rw [lookupBind_of_found hfind] at hstep
        dsimp only at hstep
        split_ifs at hstep with hskippable
        · cases hstep
          constructor
          · exact hasHigh8_untagged found.target
          · intro symbolName hname
            obtain ⟨b₀, hb₀, hsymbol, hordinal, haddend, -⟩ := h.last symbolName hname
            refine ⟨b₀, hb₀, hsymbol, hordinal, haddend, fun _ hnot => ?_⟩
            dsimp only at hnot
            rw [skippableWeakDef_untagged, hskippable] at hnot
            cases hnot
        · cases hstep
          constructor
          · exact hasHigh8_untagged found.target
          · rintro symbolName ⟨⟩
            refine ⟨b, hb, rfl, rfl, rfl, fun hfound _ => ?_⟩
            cases hst : st.hasError with
            | true => cases hfound.symm.trans (hasError_findSymbolFrom hfind (Or.inl hst))
            | false => exact reused_lookupBind h.untagged hst hfind hfound _ rfl rfl

/-! ### The state before a bind -/

variable (set fuel fromWmo) in
structure BindState.Reports (st : BindState ι) (b : Bind) : Prop where
  regular : ∀ image symbolName offset, BindsTo set fuel fromWmo b.toImport image symbolName offset →
    ∃ step r, handleBind set fuel fromWmo true st b = some step ∧ step.report = some r ∧
      r.Exact image offset b.addend
  repeated : st.Repeats b → ∃ st' st'' report,
    handleBind set fuel fromWmo true st b = some ⟨st', report, false⟩ ∧
    lookupBind set fuel fromWmo true st b = some ⟨st'', report, false⟩

variable (set fuel fromWmo) in
structure BindState.Fits (st : BindState ι) (b : Bind) : Prop where
  regular : ∀ image symbolName offset, BindsTo set fuel fromWmo b.toImport image symbolName offset →
    TagFits offset b.addend ∧
      (st.target.skippableWeakDef = true → b.libOrdinal = BIND_SPECIAL_DYLIB_WEAK_LOOKUP)
  repeated : st.Repeats b → st.target.skippableWeakDef = false

lemma lookupBind_of_bindsTo {st : BindState ι} {b : Bind} (hst : st.hasError = false) {image : ι}
    {symbolName : String} {offset : UInt64}
    (h : BindsTo set fuel fromWmo b.toImport image symbolName offset) :
    ∃ step, lookupBind set fuel fromWmo true st b = some step ∧
      ((∃ r, step.report = some r ∧ r.Exact image offset b.addend) ↔ TagFits offset b.addend ∧
        (st.target.skippableWeakDef = true → b.libOrdinal = BIND_SPECIAL_DYLIB_WEAK_LOOKUP)) := by
  obtain ⟨hasError, w, hfinds, hw, haddress⟩ := h.findSymbolFrom
  have hfind := hw st.target
  rw [← hst] at hfind
  refine ⟨_, lookupBind_of_found hfind, ?_⟩
  have hskippable : (w.apply st.target).skippableWeakDef = true ↔
      ¬(st.target.skippableWeakDef = true → b.libOrdinal = BIND_SPECIAL_DYLIB_WEAK_LOOKUP) := by
    rw [TargetWrites.apply]
    dsimp only
    by_cases hweak : b.libOrdinal = BIND_SPECIAL_DYLIB_WEAK_LOOKUP
    · rw [hfinds.weak hweak]
      simp [hweak]
    · rw [hfinds.notWeak hweak]
      simp [hweak]
  have htarget := haddress st.target
  dsimp only
  split_ifs with hskip
  · apply iff_of_false
    · rintro ⟨r, hr, -⟩
      cases hr
    · rintro ⟨-, hnot⟩
      exact hskippable.mp hskip hnot
  · have hnot := not_not.mp (mt hskippable.mpr hskip)
    simp only [Option.some.injEq, exists_eq_left', and_iff_left hnot]
    unfold FixupTarget.untagged FixupTarget.tag
    rw [htarget.addend]
    cases htag : hasHigh8 b.addend with
    | true => exact exact_withoutHigh8_iff htarget htag b.runtimeOffset st.pmd
    | false =>
      apply iff_of_true (exact_of_not_hasHigh8 htarget htag b.runtimeOffset rfl)
      intro h
      cases htag.symm.trans h

def SameFlags (binds : List Bind) : Prop :=
  ∀ b ∈ binds, ∀ c ∈ binds, b.symbolName = c.symbolName →
    b.weakImport = c.weakImport ∧ b.lazyBind = c.lazyBind

/-- A bind for the last symbol again gives the last report. -/
lemma handleBind_of_repeats {st : BindState ι} {b : Bind} (h : st.Repeats b) :
    handleBind set fuel fromWmo true st b =
      some ⟨st, some ⟨b.runtimeOffset, st.pmd, st.target⟩, false⟩ := by
  rw [handleBind, if_pos h]

lemma handleBind_of_not_repeats {st : BindState ι} {b : Bind} (h : ¬st.Repeats b) :
    handleBind set fuel fromWmo true st b = lookupBind set fuel fromWmo true st b := by
  rw [handleBind, if_neg h]

lemma BindState.Inv.lookupBind_of_repeats {binds : List Bind} (hflags : SameFlags binds)
    {st : BindState ι} (h : st.Inv set fuel fromWmo binds) (hst : st.hasError = false) {b : Bind}
    (hb : b ∈ binds) (hrepeats : st.Repeats b) (hskippable : st.target.skippableWeakDef = false) :
    lookupBind set fuel fromWmo true st b =
      some ⟨st, some ⟨b.runtimeOffset, st.pmd, st.target⟩, false⟩ := by
  obtain ⟨hname, hordinal, haddend⟩ := hrepeats
  obtain ⟨b₀, hb₀, hname₀, hordinal₀, haddend₀, hreused⟩ := h.last b.symbolName hname.symm
  have himport : b₀.toImport = b.toImport := by
    obtain ⟨hweak, hlazy⟩ := hflags b₀ hb₀ b hb hname₀
    apply Import.ext
    · exact hordinal₀.trans hordinal.symm
    · exact hname₀
    · exact hweak
    · exact hlazy
    · exact haddend₀.trans haddend.symm
  obtain ⟨target, hfind, htarget, htag⟩ := hreused hst hskippable
  rw [himport, ← hst] at hfind
  rw [lookupBind_of_found hfind]
  have hskip : target.skippableWeakDef = false := by
    rw [← skippableWeakDef_untagged, htarget, hskippable]
  dsimp only
  rw [hskip, if_neg Bool.false_ne_true, htarget, htag, hname, hordinal, haddend]

lemma skippableWeakDef_of_lookupBind {st : BindState ι} {b : Bind} {st' : BindState ι} {r : Report ι}
    (h : lookupBind set fuel fromWmo true st b = some ⟨st', some r, false⟩) :
    r.target.skippableWeakDef = false := by
  cases hfind : set.findSymbolFrom fuel fromWmo b.toImport ⟨st.hasError, st.target⟩ with
  | none =>
    rw [lookupBind, hfind] at h
    cases h
  | some out =>
    obtain ⟨out, found⟩ := out
    cases out with
    | false =>
      rw [lookupBind, hfind] at h
      dsimp only at h
      split at h <;> cases h
    | true =>
      rw [lookupBind_of_found hfind] at h
      dsimp only at h
      split_ifs at h with hskip
      · cases h
      · cases h
        dsimp only
        rw [skippableWeakDef_untagged]
        exact Bool.eq_false_of_not_eq_true hskip

lemma BindState.Inv.reports_iff_fits {binds : List Bind} (hflags : SameFlags binds) {st : BindState ι}
    (h : st.Inv set fuel fromWmo binds) (hst : st.hasError = false) {b : Bind} (hb : b ∈ binds) :
    st.Reports set fuel fromWmo b ↔ st.Fits set fuel fromWmo b := by
  constructor
  · intro hreports
    constructor
    · intro image symbolName offset hbinds
      obtain ⟨step, r, hstep, hr, hexact⟩ := hreports.regular image symbolName offset hbinds
      obtain ⟨lookup, hlookup, hiff⟩ := lookupBind_of_bindsTo hst hbinds
      apply hiff.mp
      refine ⟨r, ?_, hexact⟩
      by_cases hrepeats : st.Repeats b
      · obtain ⟨st', st'', report, hhandle, hagain⟩ := hreports.repeated hrepeats
        cases hstep.symm.trans hhandle
        cases hlookup.symm.trans hagain
        exact hr
      · rw [handleBind_of_not_repeats hrepeats] at hstep
        cases hstep.symm.trans hlookup
        exact hr
    · intro hrepeats
      obtain ⟨st', st'', report, hhandle, hagain⟩ := hreports.repeated hrepeats
      cases hhandle.symm.trans (handleBind_of_repeats hrepeats)
      exact skippableWeakDef_of_lookupBind hagain
  · intro hfits
    constructor
    · intro image symbolName offset hbinds
      obtain ⟨lookup, hlookup, hiff⟩ := lookupBind_of_bindsTo hst hbinds
      obtain ⟨r, hr, hexact⟩ := hiff.mpr (hfits.regular image symbolName offset hbinds)
      refine ⟨lookup, r, ?_, hr, hexact⟩
      by_cases hrepeats : st.Repeats b
      · rw [handleBind_of_repeats hrepeats, ← hlookup]
        exact (h.lookupBind_of_repeats hflags hst hb hrepeats (hfits.repeated hrepeats)).symm
      · rw [handleBind_of_not_repeats hrepeats, hlookup]
    · intro hrepeats
      exact ⟨st, st, _, handleBind_of_repeats hrepeats,
        h.lookupBind_of_repeats hflags hst hb hrepeats (hfits.repeated hrepeats)⟩

/-- The states that `forEachBind` gets to keep the invariant. -/
lemma BindState.Inv.forEachBind {binds before : List Bind} (hsub : ∀ b ∈ before, b ∈ binds)
    {st st' : BindState ι} {reports : List (Option (Report ι))} (h : st.Inv set fuel fromWmo binds)
    (hrun : forEachBind set fuel fromWmo true before st = some (reports, st', false)) :
    st'.Inv set fuel fromWmo binds := by
  induction before generalizing st reports with
  | nil =>
    cases hrun
    exact h
  | cons b rest ih =>
    unfold BindTargets.forEachBind at hrun
    cases hstep : BindTargets.handleBind set fuel fromWmo true st b with
    | none =>
      rw [hstep] at hrun
      cases hrun
    | some step =>
      obtain ⟨st₁, report, stop⟩ := step
      rw [hstep] at hrun
      cases stop with
      | true => cases hrun
      | false =>
        obtain ⟨⟨rest', st₂, stop⟩, hr, heq⟩ := Option.map_eq_some_iff.mp hrun
        cases heq
        refine ih (fun c hc => hsub c (List.mem_cons_of_mem b hc)) ?_ hr
        exact h.handleBind (hsub b List.mem_cons_self) hstep rfl

end Binds

theorem bindTargets_exact_iff {ι : Type*} [DecidableEq ι] (set : AnalyzerSet ι) (fuel : Nat) (fromWmo : ι) :
    (∀ imports segments fixups, forEachChainedFixup set fuel fromWmo imports segments = some fixups →
      ∀ (j : Nat) pointers reports, segments[j]? = some pointers → fixups.reports[j]? = some reports →
      ∀ (k : Nat) w report, pointers[k]? = some w → reports[k]? = some report →
      ∀ i embeddedAddend, w.fixupLoc.isBind w.pointer_format = some (i, embeddedAddend) →
      ∀ imp, imports[i]? = some imp → ∀ image symbolName offset,
      BindsTo set fuel fromWmo imp image symbolName offset →
      ((∃ r, report = some r ∧ r.Exact image offset (imp.addend + UInt64.ofBitVec embeddedAddend)) ↔
        ChainedFits offset imp.addend (UInt64.ofBitVec embeddedAddend))) ∧
    ∀ before b after, SameFlags (before ++ b :: after) →
      ∀ reports st, forEachBind set fuel fromWmo true before (.new ι) = some (reports, st, false) →
      st.hasError = false → (st.Reports set fuel fromWmo b ↔ st.Fits set fuel fromWmo b) := by
  constructor
  · intro imports segments fixups hfixups j pointers reports hpointers hreports k w report hw hreport i
      embeddedAddend hbind imp hi image symbolName offset hbinds
    exact exact_forEachChainedFixup_iff hfixups hpointers hreports hw hreport hbind hi hbinds
  · intro before b after hflags reports st hrun hst
    have hinv : st.Inv set fuel fromWmo (before ++ b :: after) :=
      (inv_new _).forEachBind (fun c hc => List.mem_append_left _ hc) hrun
    exact hinv.reports_iff_fits hflags hst (List.mem_append_right _ List.mem_cons_self)

def oneImage : AnalyzerSet Unit where
  files := fun _ => ⟨some [("_s", ⟨0, 0x1000, 0, ""⟩)], [], [], true, false, 0⟩
  hasWeakDefs := fun _ => false
  hasChainedFixups := fun _ => false
  preferredLoadAddress := fun _ => 0
  dependent := fun _ _ => .notFound false
  images := [((), false)]
  mainExecutable := ()
  missingSymbolResolver := fun _ _ _ _ => (false, {})
  strings := fun _ => "_s"

/-- `_s` with the tag `0x80`. -/
def taggedImport (libOrdinal : Int32) : Import := ⟨libOrdinal, 1, false, false, 0x8000000000000000⟩

def taggedBind (libOrdinal : Int32) : Bind := ⟨taggedImport libOrdinal, 0⟩

/-- An `arm64e` bind to the first import with an addend of its own. -/
def bindPointer (embeddedAddend : BitVec 64) : ChainedPointer :=
  ⟨0, 0x4000000000000000#64 ||| (embeddedAddend <<< 32), ptrArm64eUserland⟩

lemma bindsTo_oneImage : BindsTo oneImage 1 () (taggedImport 0) () "_s" 0x1000 :=
  ⟨_, rfl, rfl, rfl, rfl⟩

lemma eq_of_bindsTo_oneImage {image : Unit} {symbolName : String} {offset : UInt64}
    (h : BindsTo oneImage 1 () (taggedImport 0) image symbolName offset) : offset = 0x1000 := by
  obtain ⟨st, hst, himage, hname, hoffset⟩ := h
  cases hst
  cases himage
  cases hname
  cases hoffset
  rfl

theorem bindTargets_exact_oneImage :
    (∃ fixups reports report,
      forEachChainedFixup oneImage 1 () [taggedImport 0] [[bindPointer 0]] = some fixups ∧
      fixups.reports[0]? = some reports ∧ reports[0]? = some report ∧
      ∃ r, report = some r ∧ r.Exact () 0x1000 ((taggedImport 0).addend + UInt64.ofBitVec 0)) ∧
    ∃ reports st, forEachBind oneImage 1 () true [taggedBind 0] (.new Unit) = some (reports, st, false) ∧
      st.Repeats (taggedBind 0) ∧ st.Reports oneImage 1 () (taggedBind 0) := by
  have htag : TagFits 0x1000 (taggedImport 0).addend := by
    unfold TagFits
    decide
  constructor
  · refine ⟨_, _, _, rfl, rfl, rfl, ?_⟩
    apply ((bindTargets_exact_iff oneImage 1 ()).1 [taggedImport 0] [[bindPointer 0]] _ rfl 0 _ _ rfl rfl
      0 _ _ rfl rfl 0 0 rfl _ rfl () "_s" 0x1000 bindsTo_oneImage).mpr
    rw [ChainedFits, if_pos (by decide)]
    exact htag
  · refine ⟨_, _, rfl, ⟨rfl, rfl, rfl⟩, ?_⟩
    apply ((bindTargets_exact_iff oneImage 1 ()).2 [taggedBind 0] (taggedBind 0) [] ?_ _ _ rfl rfl).mpr
    · constructor
      · intro image symbolName offset hbinds
        cases eq_of_bindsTo_oneImage hbinds
        exact ⟨htag, nofun⟩
      · exact fun _ => rfl
    · intro b hb c hc _
      simp only [List.cons_append, List.nil_append, List.mem_cons, List.not_mem_nil, or_false, or_self]
        at hb hc
      rw [hb, hc]
      exact ⟨rfl, rfl⟩

/-- The tag is left in the offset when the pointer has an addend of its own, and it is lost when a
weak definition is skipped before the last target is used again. -/
theorem bindTargets_inexact :
    (∃ fixups reports report,
      forEachChainedFixup oneImage 1 () [taggedImport 0] [[bindPointer 16]] = some fixups ∧
      fixups.reports[0]? = some reports ∧ reports[0]? = some report ∧
      (bindPointer 16).fixupLoc.isBind (bindPointer 16).pointer_format = some (0, 16) ∧
      BindsTo oneImage 1 () (taggedImport 0) () "_s" 0x1000 ∧
      ¬∃ r, report = some r ∧ r.Exact () 0x1000 ((taggedImport 0).addend + 16)) ∧
    ∃ reports st, forEachBind oneImage 1 () true [taggedBind 0, taggedBind (-3)] (.new Unit) =
      some (reports, st, false) ∧ st.hasError = false ∧ st.Repeats (taggedBind 0) ∧
      ¬st.Reports oneImage 1 () (taggedBind 0) := by
  constructor
  · refine ⟨_, _, _, rfl, rfl, rfl, rfl, bindsTo_oneImage, ?_⟩
    rintro ⟨r, hr, hexact⟩
    cases hr
    have htop := hexact.topByte (by decide)
    revert htop
    decide
  · refine ⟨_, _, rfl, rfl, ⟨rfl, rfl, rfl⟩, ?_⟩
    intro hreports
    obtain ⟨step, r, hstep, hr, hexact⟩ := hreports.regular () "_s" 0x1000 bindsTo_oneImage
    cases hstep
    cases hr
    have haddress := hexact.address
    revert haddress
    decide

end Dyld.MachO.BindTargets
