import Mathlib
import Dyld.Lib.Memory
import Dyld.Cache.AslrTracker

/-!
# Patching the vtables of kexts

A class of a kext may be linked against a newer or an older superclass. `VTablePatcher::patchVTables`
goes down the class hierarchy from the vtables that are final, in rounds, and where a slot of a vtable
is bound to a function of another image, the slot gets what the slot of the superclass has by then.
-/

namespace Dyld.Cache

def AslrTracker.setAuthData (t : AslrTracker) (p : Nat) (diversity : UInt16) (hasAddrDiv : Bool)
    (key : UInt8) : AslrTracker :=
  { t with authDataMap := Function.update t.authDataMap p (some ⟨diversity, hasAddrDiv, key⟩) }

namespace VTablePatcher

open Lib

/-- `VTable::Entry`. The level is an `uint32_t` that is only set from `uint8_t`s. -/
structure Entry where
  location : Nat
  targetVMAddr : UInt64
  targetCacheLevel : UInt8
  diversity : UInt16
  hasAddrDiv : Bool
  key : UInt8
  hasPointerAuth : Bool
  deriving DecidableEq

/-- A vtable. Of its dylib, the bind locations that are resolved, with the names of the symbols. -/
structure VTable where
  ma : Nat
  superVTable : Nat
  dylib : Option (Nat → Option String)
  fromParentCollection : Bool
  patched : Bool
  name : String
  entries : List Entry

structure Fixup where
  targetVMAddr : UInt64
  cacheLevel : UInt8
  diversity : UInt16
  hasAddrDiv : Bool
  key : UInt8
  hasPointerAuth : Bool

/-- `existingCollectionFixupLocations`, a finite map. -/
structure FixupLocations where
  find : Nat → Option Fixup
  limit : Nat
  lt_limit : ∀ loc fixup, find loc = some fixup → loc < limit

/-- A dylib with its symbols, the global ones first. -/
structure VTableDylib where
  ma : Nat
  cacheLevel : UInt8
  symbols : List (UInt64 × String)

/-- What the patcher does not change. `vtableLocs` are the keys of `vtables` in their order. -/
structure Patcher where
  vtableLocs : List Nat
  dylibs : List VTableDylib
  existingCollectionFixupLocations : FixupLocations
  baseMetaClassVTableLoc : Option Nat
  currentLevel : UInt8

structure Fixups where
  memory : Mem
  aslrTracker : AslrTracker
  missingBindLocations : Nat → Option String

/-- Errors go to the diagnostics of a dylib, or to the ones passed in. -/
structure State where
  fixups : Fixups
  vtables : Nat → VTable
  numPatchedVTables : Nat
  diags : List (Option Nat × String)

def pointerSize : Nat := 8

def numFixupLevels : Nat := 4

def calculateSymbols (dylibs : List VTableDylib) : UInt8 → UInt64 → Option String :=
  dylibs.foldl (fun names dylib =>
    Function.update names dylib.cacheLevel (dylib.symbols.foldl (fun symbolNames symbol =>
      Function.update symbolNames symbol.1 (some symbol.2)) (names dylib.cacheLevel)))
    (fun _ _ => none)

/-! ### The entries of a vtable -/

def existingEntries (locations : FixupLocations) (relocLoc : Nat) : List Entry :=
  match _hfind : locations.find relocLoc with
  | none => []
  | some fixup =>
    ⟨relocLoc, fixup.targetVMAddr, fixup.cacheLevel, fixup.diversity, fixup.hasAddrDiv, fixup.key,
      fixup.hasPointerAuth⟩ :: existingEntries locations (relocLoc + pointerSize)
termination_by locations.limit - relocLoc
decreasing_by
  have hlt := locations.lt_limit relocLoc fixup _hfind
  unfold pointerSize
  omega

namespace Fixups

/-- The target of a slot, in the tracker or else in memory, with its high byte. -/
def targetVMAddr (f : Fixups) (relocLoc : Nat) : UInt64 :=
  let target := match f.aslrTracker.rebaseTarget32 relocLoc with
    | some vmAddr32 => vmAddr32.toUInt64
    | none => match f.aslrTracker.rebaseTarget64 relocLoc with
      | some vmAddr64 => vmAddr64
      | none => UInt64.ofBitVec (load pointerSize f.memory relocLoc)
  match f.aslrTracker.high8Map relocLoc with
  | some highByte => target ||| (highByte.toUInt64 <<< 56)
  | none => target

def entry (f : Fixups) (currentLevel : UInt8) (relocLoc : Nat) : Option Entry :=
  (f.aslrTracker.has relocLoc (some currentLevel)).map fun found =>
    let authData := if found.1 then f.aslrTracker.authDataMap relocLoc else none
    ⟨relocLoc, f.targetVMAddr relocLoc, found.2.getD currentLevel, (authData.map (·.diversity)).getD 0,
      (authData.map (·.addrDiv)).getD false, (authData.map (·.key)).getD 0, authData.isSome⟩

def isSlot (f : Fixups) (relocLoc : Nat) : Option Bool :=
  (f.aslrTracker.has relocLoc none).map fun found =>
    found.1 || (f.missingBindLocations relocLoc).isSome

/-- The walk over the slots of the collection that is built. It fails an assert past the region. A
tracker that is not enabled has every location, and the walk does not end. -/
def trackedEntries (f : Fixups) (currentLevel : UInt8) (relocLoc : Nat) : Option (List Entry) :=
  if f.aslrTracker.enabled = true ∧ relocLoc < f.aslrTracker.regionEnd then
    (f.isSlot relocLoc).bind fun slot =>
      if slot then
        (f.entry currentLevel relocLoc).bind fun e =>
          (f.trackedEntries currentLevel (relocLoc + pointerSize)).map (e :: ·)
      else some []
  else none
termination_by f.aslrTracker.regionEnd - relocLoc
decreasing_by
  unfold pointerSize
  omega

end Fixups

/-- `calculateVTableEntries`, from the two pointers on that start a vtable. -/
def calculateVTableEntries (p : Patcher) (f : Fixups) (vtableLoc : Nat) (vtable : VTable) :
    Option (List Entry) :=
  let relocLoc := vtableLoc + 2 * pointerSize
  if vtable.fromParentCollection then some (existingEntries p.existingCollectionFixupLocations relocLoc)
  else f.trackedEntries p.currentLevel relocLoc

/-! ### Slots -/

/-- One round of the loop over the slots. `none` is a failed assert of the tracker, or a level that
`collections` does not have. -/
def patchEntry (symbolNames : UInt8 → UInt64 → Option String) (resolvedBindLocations : Nat → Option String)
    (vtableEntry superVTableEntry : Entry) (f : Fixups) : Option (Entry × Fixups) :=
  let patchLoc := vtableEntry.location
  match (resolvedBindLocations patchLoc).or (f.missingBindLocations patchLoc) with
  | none => some (vtableEntry, f)
  | some childSymbolName =>
    if numFixupLevels ≤ superVTableEntry.targetCacheLevel.toNat then none
    else match symbolNames superVTableEntry.targetCacheLevel superVTableEntry.targetVMAddr with
      | none => some (vtableEntry, f)
      | some parentSymbolName =>
        if childSymbolName = "___cxa_pure_virtual" then some (vtableEntry, f)
        else if childSymbolName = parentSymbolName ∧ f.missingBindLocations patchLoc = none then
          some (vtableEntry, f)
        else (f.aslrTracker.add patchLoc superVTableEntry.targetCacheLevel).map fun aslrTracker =>
          ({ superVTableEntry with location := patchLoc },
            { memory := store pointerSize f.memory patchLoc superVTableEntry.targetVMAddr.toBitVec
              aslrTracker :=
                if superVTableEntry.hasPointerAuth then
                  aslrTracker.setAuthData patchLoc superVTableEntry.diversity superVTableEntry.hasAddrDiv
                    superVTableEntry.key
                else aslrTracker
              missingBindLocations := Function.update f.missingBindLocations patchLoc none })

def patchEntries (symbolNames : UInt8 → UInt64 → Option String)
    (resolvedBindLocations : Nat → Option String) :
    List Entry → List Entry → Fixups → Option (List Entry × Fixups)
  | entries, [], f => some (entries, f)
  | [], _ :: _, _ => none
  | e :: entries, s :: superEntries, f =>
    (patchEntry symbolNames resolvedBindLocations e s f).bind fun r =>
      (patchEntries symbolNames resolvedBindLocations entries superEntries r.2).map fun rest =>
        (r.1 :: rest.1, rest.2)

/-! ### Vtables -/

def State.setVTable (st : State) (vtableLoc : Nat) (vtable : VTable) : State :=
  { st with vtables := Function.update st.vtables vtableLoc vtable }

/-- The diagnostics for a file: those of its dylib, if there is one. -/
def Patcher.diagFor (p : Patcher) (ma : Nat) : Option Nat :=
  if p.dylibs.any (·.ma = ma) then some ma else none

def malformedVTable (vtable supervtable : VTable) : String :=
  s!"Malformed vtable.  Super class '{supervtable.name}' has {supervtable.entries.length} entries vs " ++
    s!"subclass '{vtable.name}' with {vtable.entries.length} entries"

def unpatchedVTable (vtable supervtable : VTable) : String :=
  s!"Found unpatched vtable: '{vtable.name}' with unpatched superclass '{supervtable.name}'\n"

/-- The body of the loop over `toBePatched`. The flag is set when the function returns. -/
def processVTable (p : Patcher) (symbolNames : UInt8 → UInt64 → Option String) (vtableLoc : Nat)
    (st : State) : Option (Bool × State) :=
  let vtable := { st.vtables vtableLoc with patched := true }
  (calculateVTableEntries p st.fixups vtableLoc vtable).bind fun entries =>
    let vtable := { vtable with entries := vtable.entries ++ entries }
    let st := { st.setVTable vtableLoc vtable with numPatchedVTables := st.numPatchedVTables + 1 }
    let supervtable := st.vtables vtable.superVTable
    if vtable.entries.length < supervtable.entries.length then
      some (true, { st with diags := st.diags ++ [(p.diagFor vtable.ma, malformedVTable vtable supervtable)] })
    else
      vtable.dylib.bind fun resolvedBindLocations =>
        (patchEntries symbolNames resolvedBindLocations vtable.entries supervtable.entries st.fixups).map
          fun r => (false, { st.setVTable vtableLoc { vtable with entries := r.1 } with fixups := r.2 })

def processVTables (p : Patcher) (symbolNames : UInt8 → UInt64 → Option String) :
    List Nat → State → Option (Bool × State)
  | [], st => some (false, st)
  | vtableLoc :: rest, st =>
    (processVTable p symbolNames vtableLoc st).bind fun r =>
      if r.1 then some r else processVTables p symbolNames rest r.2

def State.isPatched (st : State) (vtableLoc : Nat) : Bool := (st.vtables vtableLoc).patched

def State.superIsPatched (st : State) (vtableLoc : Nat) : Bool :=
  st.isPatched (st.vtables vtableLoc).superVTable

/-- The vtables whose turn it is. The assert is that the superclass is known. -/
def toBePatched (p : Patcher) (st : State) : Option (List Nat) :=
  if ∀ vtableLoc ∈ p.vtableLocs, st.isPatched vtableLoc = false →
      (st.vtables vtableLoc).superVTable ∈ p.vtableLocs then
    some (p.vtableLocs.filter fun vtableLoc => !st.isPatched vtableLoc && st.superIsPatched vtableLoc)
  else none

def unpatchedVTables (p : Patcher) (st : State) : List Nat :=
  p.vtableLocs.filter fun vtableLoc => !st.isPatched vtableLoc

def reportUnpatched (p : Patcher) (st : State) : State :=
  { st with
    diags := st.diags ++ (unpatchedVTables p st).map fun vtableLoc =>
      (none, unpatchedVTable (st.vtables vtableLoc) (st.vtables (st.vtables vtableLoc).superVTable)) }

/-! ### Rounds -/

section Termination

variable {p : Patcher} {symbolNames : UInt8 → UInt64 → Option String} {vtableLoc : Nat} {st : State}
  {r : Bool × State}

lemma isPatched_processVTable (h : processVTable p symbolNames vtableLoc st = some r) (loc : Nat) :
    r.2.isPatched loc = true ↔ loc = vtableLoc ∨ st.isPatched loc = true := by
  have hset : ∀ vtable : VTable, vtable.patched = true → ∀ vtables : Nat → VTable,
      ((Function.update vtables vtableLoc vtable) loc).patched = true ↔
        loc = vtableLoc ∨ (vtables loc).patched = true := by
    intro vtable hpatched vtables
    by_cases heq : loc = vtableLoc
    · subst heq
      rw [Function.update_self]
      exact iff_of_true hpatched (Or.inl rfl)
    · rw [Function.update_of_ne heq, or_iff_right heq]
  unfold processVTable at h
  obtain ⟨entries, -, h⟩ := Option.bind_eq_some_iff.mp h
  dsimp only [State.setVTable] at h
  by_cases hlong : ((st.vtables vtableLoc).entries ++ entries).length <
      (Function.update st.vtables vtableLoc
        { st.vtables vtableLoc with
          patched := true, entries := (st.vtables vtableLoc).entries ++ entries }
        (st.vtables vtableLoc).superVTable).entries.length
  · rw [if_pos hlong] at h
    cases h
    exact hset _ rfl _
  · rw [if_neg hlong] at h
    obtain ⟨resolvedBindLocations, -, h⟩ := Option.bind_eq_some_iff.mp h
    obtain ⟨patched, -, rfl⟩ := Option.map_eq_some_iff.mp h
    dsimp only [State.isPatched]
    rw [hset, hset]
    · tauto
    · rfl
    · rfl

lemma isPatched_processVTables {vtableLocs : List Nat}
    (h : processVTables p symbolNames vtableLocs st = some (false, r.2)) (loc : Nat) :
    r.2.isPatched loc = true ↔ loc ∈ vtableLocs ∨ st.isPatched loc = true := by
  induction vtableLocs generalizing st with
  | nil =>
    cases h
    simp only [List.not_mem_nil, false_or]
  | cons first rest ih =>
    rw [processVTables] at h
    obtain ⟨r', hr', h⟩ := Option.bind_eq_some_iff.mp h
    have hfirst := isPatched_processVTable hr' loc
    by_cases hreturn : r'.1 = true
    · rw [if_pos hreturn] at h
      cases h
      cases hreturn
    · rw [if_neg hreturn] at h
      rw [ih h, hfirst, List.mem_cons]
      tauto

lemma toBePatched_some {vtableLocs : List Nat} (h : toBePatched p st = some vtableLocs) :
    vtableLocs = p.vtableLocs.filter fun loc => !st.isPatched loc && st.superIsPatched loc := by
  unfold toBePatched at h
  split_ifs at h
  exact (Option.some.inj h).symm

/-- A round leaves fewer vtables. -/
lemma unpatchedVTables_lt {vtableLocs : List Nat} {st' : State} (hround : toBePatched p st = some vtableLocs)
    (hne : vtableLocs ≠ []) (h : processVTables p symbolNames vtableLocs st = some (false, st')) :
    (unpatchedVTables p st').length < (unpatchedVTables p st).length := by
  have hpatched : ∀ loc, st'.isPatched loc = true ↔ loc ∈ vtableLocs ∨ st.isPatched loc = true :=
    isPatched_processVTables (r := (false, st')) h
  obtain ⟨loc, hloc⟩ := List.exists_mem_of_ne_nil vtableLocs hne
  have hmem := hloc
  rw [toBePatched_some hround, List.mem_filter, Bool.and_eq_true] at hmem
  have hsub : unpatchedVTables p st' = (unpatchedVTables p st).filter fun loc => !st'.isPatched loc := by
    unfold unpatchedVTables
    rw [List.filter_filter]
    apply List.filter_congr
    intro other _
    cases hother : st'.isPatched other with
    | true => simp
    | false =>
      have hold : st.isPatched other = false := by
        rw [← Bool.not_eq_true] at hother ⊢
        exact fun hp => hother ((hpatched other).mpr (Or.inr hp))
      rw [hold]
      rfl
  rw [hsub, List.length_filter_lt_length_iff_exists]
  refine ⟨loc, List.mem_filter.mpr ⟨hmem.1, hmem.2.1⟩, ?_⟩
  rw [(hpatched loc).mpr (Or.inl hloc)]
  exact Bool.false_ne_true

end Termination

/-- `while ( numPatchedVTables != vtables.size() )` -/
def patchRounds (p : Patcher) (symbolNames : UInt8 → UInt64 → Option String) (st : State) : Option State :=
  if st.numPatchedVTables = p.vtableLocs.length then some st
  else
    match _hround : toBePatched p st with
    | none => none
    | some [] => some (reportUnpatched p st)
    | some (vtableLoc :: rest) =>
      match _hprocess : processVTables p symbolNames (vtableLoc :: rest) st with
      | none => none
      | some (true, st') => some st'
      | some (false, st') => patchRounds p symbolNames st'
termination_by (unpatchedVTables p st).length
decreasing_by exact unpatchedVTables_lt _hround (List.cons_ne_nil _ _) _hprocess

def calculatePatched (p : Patcher) : List Nat → State → Option State
  | [], st => some st
  | vtableLoc :: rest, st =>
    if st.isPatched vtableLoc then
      (calculateVTableEntries p st.fixups vtableLoc (st.vtables vtableLoc)).bind fun entries =>
        let vtable := st.vtables vtableLoc
        calculatePatched p rest
          { st.setVTable vtableLoc { vtable with entries := vtable.entries ++ entries } with
            numPatchedVTables := st.numPatchedVTables + 1 }
    else calculatePatched p rest st

def patchVTables (p : Patcher) (st : State) : Option State :=
  if p.baseMetaClassVTableLoc = none ∧ p.vtableLocs ≠ [] then
    some { st with diags := st.diags ++ [(none, "Could not find OSMetaClass vtable in kernel binary")] }
  else
    let symbolNames := calculateSymbols p.dylibs
    (calculatePatched p p.vtableLocs { st with numPatchedVTables := 0 }).bind (patchRounds p symbolNames)

/-! ### What a slot has -/

structure SameSlot (f f' : Fixups) (loc : Nat) : Prop where
  word : load pointerSize f'.memory loc = load pointerSize f.memory loc
  has : ∀ level, f'.aslrTracker.has loc level = f.aslrTracker.has loc level
  authData : f'.aslrTracker.authDataMap loc = f.aslrTracker.authDataMap loc
  high8 : f'.aslrTracker.high8Map loc = f.aslrTracker.high8Map loc
  rebaseTarget32 : f'.aslrTracker.rebaseTarget32 loc = f.aslrTracker.rebaseTarget32 loc
  rebaseTarget64 : f'.aslrTracker.rebaseTarget64 loc = f.aslrTracker.rebaseTarget64 loc
  missing : f'.missingBindLocations loc = f.missingBindLocations loc

structure Keeps (f f' : Fixups) : Prop where
  enabled : f'.aslrTracker.enabled = f.aslrTracker.enabled
  regionEnd : f'.aslrTracker.regionEnd = f.aslrTracker.regionEnd
  isSlot : ∀ loc, f'.isSlot loc = f.isSlot loc

structure TakesFrom (f f' : Fixups) (loc : Nat) (s : Entry) : Prop where
  word : load pointerSize f'.memory loc = s.targetVMAddr.toBitVec
  has : ∀ level, f'.aslrTracker.has loc level = some (true, level.map fun _ => s.targetCacheLevel)
  authData : f'.aslrTracker.authDataMap loc =
    if s.hasPointerAuth then some ⟨s.diversity, s.hasAddrDiv, s.key⟩ else f.aslrTracker.authDataMap loc
  missing : f'.missingBindLocations loc = none

variable {f f' f'' : Fixups} {loc : Nat}

lemma SameSlot.refl (f : Fixups) (loc : Nat) : SameSlot f f loc := ⟨rfl, fun _ => rfl, rfl, rfl, rfl, rfl, rfl⟩

lemma SameSlot.trans (h : SameSlot f f' loc) (h' : SameSlot f' f'' loc) : SameSlot f f'' loc :=
  ⟨h'.word.trans h.word, fun level => (h'.has level).trans (h.has level), h'.authData.trans h.authData,
    h'.high8.trans h.high8, h'.rebaseTarget32.trans h.rebaseTarget32,
    h'.rebaseTarget64.trans h.rebaseTarget64, h'.missing.trans h.missing⟩

lemma Keeps.refl (f : Fixups) : Keeps f f := ⟨rfl, rfl, fun _ => rfl⟩

lemma Keeps.trans (h : Keeps f f') (h' : Keeps f' f'') : Keeps f f'' :=
  ⟨h'.enabled.trans h.enabled, h'.regionEnd.trans h.regionEnd,
    fun loc => (h'.isSlot loc).trans (h.isSlot loc)⟩

lemma TakesFrom.then_same {s : Entry} (h : TakesFrom f f' loc s) (h' : SameSlot f' f'' loc) :
    TakesFrom f f'' loc s :=
  ⟨h'.word.trans h.word, fun level => (h'.has level).trans (h.has level), h'.authData.trans h.authData,
    h'.missing.trans h.missing⟩

lemma TakesFrom.of_same {s : Entry} (h : SameSlot f f' loc) (h' : TakesFrom f' f'' loc s) :
    TakesFrom f f'' loc s :=
  ⟨h'.word, h'.has, by rw [h'.authData, h.authData], h'.missing⟩

lemma SameSlot.entry (h : SameSlot f f' loc) (currentLevel : UInt8) :
    f'.entry currentLevel loc = f.entry currentLevel loc := by
  have htarget : f'.targetVMAddr loc = f.targetVMAddr loc := by
    unfold Fixups.targetVMAddr
    rw [h.word, h.high8, h.rebaseTarget32, h.rebaseTarget64]
  unfold Fixups.entry
  rw [h.has, h.authData, htarget]

lemma trackedEntries_congr {currentLevel : UInt8} {entries : List Entry} (hkeeps : Keeps f f')
    (hsame : ∀ e ∈ entries, SameSlot f f' e.location)
    (h : f.trackedEntries currentLevel loc = some entries) :
    f'.trackedEntries currentLevel loc = some entries := by
  induction entries generalizing loc with
  | nil =>
    rw [Fixups.trackedEntries] at h ⊢
    rw [hkeeps.enabled, hkeeps.regionEnd, hkeeps.isSlot]
    by_cases hin : f.aslrTracker.enabled = true ∧ loc < f.aslrTracker.regionEnd
    · rw [if_pos hin] at h ⊢
      obtain ⟨slot, hslot, h⟩ := Option.bind_eq_some_iff.mp h
      rw [hslot, Option.bind_some]
      cases slot with
      | false => exact h
      | true =>
        rw [if_pos rfl] at h
        obtain ⟨e, -, h⟩ := Option.bind_eq_some_iff.mp h
        obtain ⟨rest, -, hcons⟩ := Option.map_eq_some_iff.mp h
        cases hcons
    · rw [if_neg hin] at h
      cases h
  | cons first rest ih =>
    rw [Fixups.trackedEntries] at h ⊢
    rw [hkeeps.enabled, hkeeps.regionEnd, hkeeps.isSlot]
    by_cases hin : f.aslrTracker.enabled = true ∧ loc < f.aslrTracker.regionEnd
    · rw [if_pos hin] at h ⊢
      obtain ⟨slot, hslot, h⟩ := Option.bind_eq_some_iff.mp h
      rw [hslot, Option.bind_some]
      cases slot with
      | false => cases h
      | true =>
        rw [if_pos rfl] at h ⊢
        obtain ⟨e, he, h⟩ := Option.bind_eq_some_iff.mp h
        obtain ⟨rest', hrest, hcons⟩ := Option.map_eq_some_iff.mp h
        cases hcons
        have hloc : first.location = loc := by
          unfold Fixups.entry at he
          obtain ⟨found, -, rfl⟩ := Option.map_eq_some_iff.mp he
          rfl
        have hfirst := hsame first (List.mem_cons_self ..)
        rw [hloc] at hfirst
        rw [hfirst.entry, he, Option.bind_some,
          ih (fun e' he' => hsame e' (List.mem_cons_of_mem _ he')) hrest, Option.map_some]
    · rw [if_neg hin] at h
      cases h

lemma trackedEntries_location {currentLevel : UInt8} {entries : List Entry}
    (h : f.trackedEntries currentLevel loc = some entries) {i : Nat} {e : Entry} (he : entries[i]? = some e) :
    e.location = loc + pointerSize * i ∧ f.isSlot e.location = some true := by
  induction entries generalizing loc i with
  | nil => cases he
  | cons first rest ih =>
    rw [Fixups.trackedEntries] at h
    by_cases hin : f.aslrTracker.enabled = true ∧ loc < f.aslrTracker.regionEnd
    · rw [if_pos hin] at h
      obtain ⟨slot, hslot, h⟩ := Option.bind_eq_some_iff.mp h
      cases slot with
      | false => cases h
      | true =>
        rw [if_pos rfl] at h
        obtain ⟨e', he', h⟩ := Option.bind_eq_some_iff.mp h
        obtain ⟨rest', hrest, hcons⟩ := Option.map_eq_some_iff.mp h
        cases hcons
        cases i with
        | zero =>
          cases he
          unfold Fixups.entry at he'
          obtain ⟨found, -, rfl⟩ := Option.map_eq_some_iff.mp he'
          exact ⟨rfl, hslot⟩
        | succ i =>
          obtain ⟨hnext, hslot'⟩ := ih hrest he
          refine ⟨?_, hslot'⟩
          rw [hnext, Nat.mul_add_one]
          omega
    · rw [if_neg hin] at h
      cases h

/-! ### One slot -/

section Slot

variable {t t' : AslrTracker} {level : UInt8}

lemma entry_of_has (henabled : t.enabled = true) {found : Bool × Option UInt8}
    (h : t.has loc none = some found) : t.entry loc = some (loc - t.regionStart) := by
  rw [AslrTracker.has, henabled, if_neg (by decide)] at h
  obtain ⟨i, hi, -⟩ := Option.map_eq_some_iff.mp h
  rw [hi]
  unfold AslrTracker.entry at hi
  dsimp only at hi
  split_ifs at hi
  rw [← Option.some.inj hi, AslrTracker.kMinimumFixupAlignment, Nat.div_one]

lemma entry_some {i : Nat} (h : t.entry loc = some i) : t.regionStart ≤ loc ∧ i = loc - t.regionStart := by
  unfold AslrTracker.entry at h
  dsimp only at h
  split_ifs at h with hin
  rw [← Option.some.inj h, AslrTracker.kMinimumFixupAlignment, Nat.div_one]
  exact ⟨hin.1, rfl⟩

lemma add_eq (henabled : t.enabled = true) (hentry : t.entry loc = some (loc - t.regionStart))
    (hlevel : level ≠ AslrTracker.noLevel) :
    t.add loc level = some { t with
      bitmap := Function.update t.bitmap (loc - t.regionStart) true
      cacheLevels := Function.update t.cacheLevels (loc - t.regionStart) level } := by
  rw [AslrTracker.add_of_entry henabled hentry, if_pos hlevel]

lemma has_add_self (henabled : t.enabled = true) (hentry : t.entry loc = some (loc - t.regionStart))
    (hlevel : level ≠ AslrTracker.noLevel) (hadd : t.add loc level = some t') (l : Option UInt8) :
    t'.has loc l = some (true, l.map fun _ => level) := by
  rw [add_eq henabled hentry hlevel] at hadd
  cases hadd
  apply (AslrTracker.has_of_entry (by exact henabled) (by exact hentry) l).trans
  simp only [Function.update_self, if_true, hlevel, ne_eq, not_false_eq_true]

lemma has_add_of_ne (henabled : t.enabled = true) (hentry : t.entry loc = some (loc - t.regionStart))
    (hlevel : level ≠ AslrTracker.noLevel) (hadd : t.add loc level = some t') {loc' : Nat} (hne : loc' ≠ loc)
    (l : Option UInt8) : t'.has loc' l = t.has loc' l := by
  have hin := (entry_some hentry).1
  rw [add_eq henabled hentry hlevel] at hadd
  cases hadd
  cases hother : t.entry loc' with
  | none =>
    have hnone : ∀ t₁ : AslrTracker, t₁.enabled = true → t₁.entry loc' = none → t₁.has loc' l = none := by
      intro t₁ h₁ h₂
      rw [AslrTracker.has, h₁, h₂]
      rfl
    rw [hnone t henabled hother]
    exact hnone _ henabled hother
  | some i =>
    obtain ⟨hin', rfl⟩ := entry_some hother
    have hindex : loc' - t.regionStart ≠ loc - t.regionStart := by omega
    rw [AslrTracker.has_of_entry henabled hother]
    apply (AslrTracker.has_of_entry (by exact henabled) (by exact hother) l).trans
    simp only [Function.update_of_ne hindex]

end Slot

section PatchEntry

variable {symbolNames : UInt8 → UInt64 → Option String} {resolvedBindLocations : Nat → Option String}

/-- The slot is bound to a symbol, and takes the slot of the superclass over it. -/
def TakesSuper (symbolNames : UInt8 → UInt64 → Option String) (resolvedBindLocations : Nat → Option String)
    (f : Fixups) (loc : Nat) (s : Entry) : Prop :=
  ∃ childSymbolName, (resolvedBindLocations loc).or (f.missingBindLocations loc) = some childSymbolName ∧
    childSymbolName ≠ "___cxa_pure_virtual" ∧
    ∃ parentSymbolName, symbolNames s.targetCacheLevel s.targetVMAddr = some parentSymbolName ∧
      (childSymbolName ≠ parentSymbolName ∨ f.missingBindLocations loc ≠ none)

lemma TakesSuper.of_same {s : Entry} (h : SameSlot f f' loc)
    (htakes : TakesSuper symbolNames resolvedBindLocations f' loc s) :
    TakesSuper symbolNames resolvedBindLocations f loc s := by
  unfold TakesSuper at *
  rwa [h.missing] at htakes

lemma SameSlot.symm (h : SameSlot f f' loc) : SameSlot f' f loc :=
  ⟨h.word.symm, fun level => (h.has level).symm, h.authData.symm, h.high8.symm, h.rebaseTarget32.symm,
    h.rebaseTarget64.symm, h.missing.symm⟩

structure SlotDone (symbolNames : UInt8 → UInt64 → Option String) (resolvedBindLocations : Nat → Option String)
    (f f' : Fixups) (e e' : Entry) (s : Option Entry) : Prop where
  takes : ∀ s', s = some s' → TakesSuper symbolNames resolvedBindLocations f e.location s' →
    e' = { s' with location := e.location } ∧ TakesFrom f f' e.location s'
  stays : (∀ s', s = some s' → ¬TakesSuper symbolNames resolvedBindLocations f e.location s') →
    e' = e ∧ SameSlot f f' e.location

lemma SlotDone.then_same {e e' : Entry} {s : Option Entry}
    (h : SlotDone symbolNames resolvedBindLocations f f' e e' s) (h' : SameSlot f' f'' e.location) :
    SlotDone symbolNames resolvedBindLocations f f'' e e' s where
  takes := by
    intro s' hs htakes
    obtain ⟨he, hslot⟩ := h.takes s' hs htakes
    exact ⟨he, hslot.then_same h'⟩
  stays := by
    intro hstays
    obtain ⟨he, hslot⟩ := h.stays hstays
    exact ⟨he, hslot.trans h'⟩

lemma SlotDone.of_same {e e' : Entry} {s : Option Entry} (h' : SameSlot f f' e.location)
    (h : SlotDone symbolNames resolvedBindLocations f' f'' e e' s) :
    SlotDone symbolNames resolvedBindLocations f f'' e e' s where
  takes := by
    intro s' hs htakes
    obtain ⟨he, hslot⟩ := h.takes s' hs (htakes.of_same h'.symm)
    exact ⟨he, TakesFrom.of_same h' hslot⟩
  stays := by
    intro hstays
    obtain ⟨he, hslot⟩ := h.stays fun s' hs htakes => hstays s' hs (htakes.of_same h')
    exact ⟨he, h'.trans hslot⟩

/-- What a step leaves alone. -/
structure Patched (symbolNames : UInt8 → UInt64 → Option String) (resolvedBindLocations : Nat → Option String)
    (f : Fixups) (e s : Entry) (r : Entry × Fixups) : Prop where
  done : SlotDone symbolNames resolvedBindLocations f r.2 e r.1 (some s)
  keeps : Keeps f r.2
  others : ∀ loc, Apart pointerSize e.location loc → SameSlot f r.2 loc

lemma patched_skip {e s : Entry} (h : ¬TakesSuper symbolNames resolvedBindLocations f e.location s) :
    Patched symbolNames resolvedBindLocations f e s (e, f) := by
  refine ⟨⟨?_, ?_⟩, Keeps.refl f, fun loc _ => SameSlot.refl f loc⟩
  · intro s' hs htakes
    cases hs
    exact absurd htakes h
  · intro _
    exact ⟨rfl, SameSlot.refl f e.location⟩

lemma patched_write {e s : Entry} {aslrTracker : AslrTracker} (henabled : f.aslrTracker.enabled = true)
    (hslot : f.isSlot e.location = some true) (hlevel : s.targetCacheLevel.toNat < numFixupLevels)
    (htakes : TakesSuper symbolNames resolvedBindLocations f e.location s)
    (hadd : f.aslrTracker.add e.location s.targetCacheLevel = some aslrTracker) :
    Patched symbolNames resolvedBindLocations f e s ({ s with location := e.location },
      { memory := store pointerSize f.memory e.location s.targetVMAddr.toBitVec
        aslrTracker :=
          if s.hasPointerAuth then
            aslrTracker.setAuthData e.location s.diversity s.hasAddrDiv s.key
          else aslrTracker
        missingBindLocations := Function.update f.missingBindLocations e.location none }) := by
  have hlevel' : s.targetCacheLevel ≠ AslrTracker.noLevel := by
    intro heq
    rw [heq] at hlevel
    exact absurd hlevel (by decide)
  obtain ⟨found, hfound, -⟩ := Option.map_eq_some_iff.mp hslot
  have hentry := entry_of_has henabled hfound
  have hself := has_add_self henabled hentry hlevel' hadd
  have hne : ∀ loc', loc' ≠ e.location → ∀ l, aslrTracker.has loc' l = f.aslrTracker.has loc' l :=
    fun loc' => has_add_of_ne henabled hentry hlevel' hadd
  rw [add_eq henabled hentry hlevel'] at hadd
  -- the authentication has no part in what `has` answers
  have hhas : ∀ loc' l, (if s.hasPointerAuth then
      aslrTracker.setAuthData e.location s.diversity s.hasAddrDiv s.key else aslrTracker).has loc' l =
      aslrTracker.has loc' l := by
    intro loc' l
    split_ifs <;> rfl
  have hauth : ∀ loc', (if s.hasPointerAuth then
      aslrTracker.setAuthData e.location s.diversity s.hasAddrDiv s.key else aslrTracker).authDataMap loc' =
      if s.hasPointerAuth then Function.update f.aslrTracker.authDataMap e.location
        (some ⟨s.diversity, s.hasAddrDiv, s.key⟩) loc' else f.aslrTracker.authDataMap loc' := by
    intro loc'
    cases hadd
    split_ifs <;> rfl
  refine ⟨⟨?_, ?_⟩, ⟨?_, ?_, ?_⟩, ?_⟩
  · intro s' hs _
    cases hs
    refine ⟨rfl, load_store_same .., fun level => (hhas _ _).trans (hself level), ?_, Function.update_self ..⟩
    rw [hauth, Function.update_self]
  · intro hstays
    exact absurd htakes (hstays s rfl)
  · cases hadd
    dsimp only
    split_ifs <;> exact rfl
  · cases hadd
    dsimp only
    split_ifs <;> exact rfl
  · intro loc'
    unfold Fixups.isSlot
    dsimp only
    rw [hhas]
    by_cases heq : loc' = e.location
    · subst heq
      rw [hself]
      exact hslot.symm
    · rw [hne loc' heq, Function.update_of_ne heq]
  · intro loc' hapart
    have heq : loc' ≠ e.location := by
      rintro rfl
      unfold Apart pointerSize at hapart
      omega
    refine ⟨load_store_apart hapart, fun level => (hhas _ _).trans (hne loc' heq level), ?_, ?_, ?_, ?_,
      Function.update_of_ne heq ..⟩
    · rw [hauth, Function.update_of_ne heq, ite_self]
    all_goals
      cases hadd
      dsimp only
      split_ifs <;> rfl

theorem patchEntry_spec {e s : Entry} (henabled : f.aslrTracker.enabled = true)
    (hslot : f.isSlot e.location = some true) (hlevel : s.targetCacheLevel.toNat < numFixupLevels) :
    ∃ r, patchEntry symbolNames resolvedBindLocations e s f = some r ∧
      Patched symbolNames resolvedBindLocations f e s r := by
  unfold patchEntry
  dsimp only
  cases hchild : (resolvedBindLocations e.location).or (f.missingBindLocations e.location) with
  | none =>
    refine ⟨_, rfl, patched_skip ?_⟩
    rintro ⟨child, hsome, -⟩
    rw [hchild] at hsome
    cases hsome
  | some childSymbolName =>
    dsimp only
    rw [if_neg (not_le.mpr hlevel)]
    cases hparent : symbolNames s.targetCacheLevel s.targetVMAddr with
    | none =>
      refine ⟨_, rfl, patched_skip ?_⟩
      rintro ⟨child, -, -, parent, hsome, -⟩
      rw [hparent] at hsome
      cases hsome
    | some parentSymbolName =>
      dsimp only
      by_cases hpure : childSymbolName = "___cxa_pure_virtual"
      · rw [if_pos hpure]
        refine ⟨_, rfl, patched_skip ?_⟩
        rintro ⟨child, hsome, hne, -⟩
        rw [hchild] at hsome
        cases hsome
        exact hne hpure
      · rw [if_neg hpure]
        by_cases hsame : childSymbolName = parentSymbolName ∧ f.missingBindLocations e.location = none
        · rw [if_pos hsame]
          refine ⟨_, rfl, patched_skip ?_⟩
          rintro ⟨child, hsome, -, parent, hsome', hne⟩
          rw [hchild] at hsome
          rw [hparent] at hsome'
          cases hsome
          cases hsome'
          exact hne.elim (fun h => h hsame.1) fun h => h hsame.2
        · rw [if_neg hsame]
          have htakes : TakesSuper symbolNames resolvedBindLocations f e.location s :=
            ⟨childSymbolName, hchild, hpure, parentSymbolName, hparent, not_and_or.mp hsame⟩
          obtain ⟨found, hfound, -⟩ := Option.map_eq_some_iff.mp hslot
          have hentry := entry_of_has henabled hfound
          have hadd := AslrTracker.add_of_entry henabled hentry s.targetCacheLevel
          rw [hadd]
          exact ⟨_, rfl, patched_write henabled hslot hlevel htakes hadd⟩

/-- What the loop over the slots of a vtable does. -/
structure PatchedAll (symbolNames : UInt8 → UInt64 → Option String)
    (resolvedBindLocations : Nat → Option String) (f : Fixups) (entries superEntries : List Entry)
    (r : List Entry × Fixups) : Prop where
  length : r.1.length = entries.length
  done : ∀ (i : Nat) e e', entries[i]? = some e → r.1[i]? = some e' →
    SlotDone symbolNames resolvedBindLocations f r.2 e e' superEntries[i]?
  keeps : Keeps f r.2
  others : ∀ loc, (∀ e ∈ entries, Apart pointerSize e.location loc) → SameSlot f r.2 loc

theorem patchEntries_spec {entries superEntries : List Entry} (henabled : f.aslrTracker.enabled = true)
    (hslots : ∀ e ∈ entries, f.isSlot e.location = some true)
    (hapart : entries.Pairwise fun e e' => Apart pointerSize e.location e'.location)
    (hlevels : ∀ s ∈ superEntries, s.targetCacheLevel.toNat < numFixupLevels)
    (hlength : superEntries.length ≤ entries.length) :
    ∃ r, patchEntries symbolNames resolvedBindLocations entries superEntries f = some r ∧
      PatchedAll symbolNames resolvedBindLocations f entries superEntries r := by
  induction entries generalizing superEntries f with
  | nil =>
    obtain rfl := List.eq_nil_of_length_eq_zero (Nat.le_zero.mp hlength)
    exact ⟨_, rfl, rfl, fun _ _ _ he => (nomatch he), Keeps.refl f, fun loc _ => SameSlot.refl f loc⟩
  | cons e entries ih =>
    cases superEntries with
    | nil =>
      refine ⟨_, rfl, rfl, ?_, Keeps.refl f, fun loc _ => SameSlot.refl f loc⟩
      intro i e₁ e₂ he₁ he₂
      rw [he₁] at he₂
      cases he₂
      exact ⟨fun _ hs => (nomatch hs), fun _ => ⟨rfl, SameSlot.refl f _⟩⟩
    | cons s superEntries =>
      obtain ⟨r, hr, hpatched⟩ : ∃ r, patchEntry symbolNames resolvedBindLocations e s f = some r ∧
          Patched symbolNames resolvedBindLocations f e s r :=
        patchEntry_spec henabled (hslots e (List.mem_cons_self ..)) (hlevels s (List.mem_cons_self ..))
      have hapart' := List.pairwise_cons.mp hapart
      obtain ⟨rest, hrest, hall⟩ := ih (f := r.2) (hpatched.keeps.enabled.trans henabled)
        (fun e' he' => (hpatched.keeps.isSlot _).trans (hslots e' (List.mem_cons_of_mem _ he'))) hapart'.2
        (fun s' hs' => hlevels s' (List.mem_cons_of_mem _ hs')) (Nat.le_of_succ_le_succ hlength)
      refine ⟨(r.1 :: rest.1, rest.2), ?_, ?_, ?_, hpatched.keeps.trans hall.keeps, ?_⟩
      · rw [patchEntries, hr, Option.bind_some, hrest, Option.map_some]
      · rw [List.length_cons, List.length_cons, hall.length]
      · intro i e₁ e₂ he₁ he₂
        cases i with
        | zero =>
          cases he₁
          cases he₂
          exact hpatched.done.then_same (hall.others e.location fun e' he' => (hapart'.1 e' he').symm)
        | succ i =>
          have hmem := List.mem_of_getElem? (l := entries) he₁
          exact SlotDone.of_same (hpatched.others e₁.location (hapart'.1 e₁ hmem)) (hall.done i e₁ e₂ he₁ he₂)
      · intro loc hloc
        exact (hpatched.others loc (hloc e (List.mem_cons_self ..))).trans
          (hall.others loc fun e' he' => hloc e' (List.mem_cons_of_mem _ he'))

end PatchEntry

/-! ### The hierarchy -/

section Hierarchy

variable (p : Patcher) (st₀ : State)

/-- The entries of a vtable before anything is patched. -/
def firstEntries (vtableLoc : Nat) : List Entry :=
  (calculateVTableEntries p st₀.fixups vtableLoc (st₀.vtables vtableLoc)).getD []

def superOf (vtableLoc : Nat) : Nat := (st₀.vtables vtableLoc).superVTable

def resolvedOf (vtableLoc : Nat) : Nat → Option String :=
  (st₀.vtables vtableLoc).dylib.getD fun _ => none

def Takes (vtableLoc : Nat) (e s : Entry) : Prop :=
  TakesSuper (calculateSymbols p.dylibs) (resolvedOf st₀ vtableLoc) st₀.fixups e.location s

/-- The vtables as `findVTables` leaves them. Only vtables of the collection that is built have to be
patched, and the walks over the entries stay in the region of the tracker. -/
structure WellFormed : Prop where
  nodup : p.vtableLocs.Nodup
  noEntries : ∀ loc, (st₀.vtables loc).entries = []
  noDiags : st₀.diags = []
  enabled : st₀.fixups.aslrTracker.enabled = true
  supers : ∀ loc ∈ p.vtableLocs, st₀.isPatched loc = false → superOf st₀ loc ∈ p.vtableLocs
  dylibs : ∀ loc ∈ p.vtableLocs, st₀.isPatched loc = false → (st₀.vtables loc).dylib ≠ none
  built : ∀ loc ∈ p.vtableLocs, st₀.isPatched loc = false → (st₀.vtables loc).fromParentCollection = false
  entries : ∀ loc ∈ p.vtableLocs, calculateVTableEntries p st₀.fixups loc (st₀.vtables loc) ≠ none
  levels : ∀ loc ∈ p.vtableLocs, ∀ e ∈ firstEntries p st₀ loc, e.targetCacheLevel.toNat < numFixupLevels
  apart : ∀ loc ∈ p.vtableLocs, ∀ loc' ∈ p.vtableLocs, loc ≠ loc' → ∀ e ∈ firstEntries p st₀ loc,
    ∀ e' ∈ firstEntries p st₀ loc', Apart pointerSize e.location e'.location

/-- The entry that a slot has in the end, by the chain of superclasses. -/
inductive Inherits : Nat → Nat → Entry → Prop
  | root {loc i : Nat} {e : Entry} (hroot : st₀.isPatched loc = true)
      (he : (firstEntries p st₀ loc)[i]? = some e) : Inherits loc i e
  | take {loc i : Nat} {e s : Entry} (hloc : st₀.isPatched loc = false)
      (he : (firstEntries p st₀ loc)[i]? = some e) (hs : Inherits (superOf st₀ loc) i s)
      (htakes : Takes p st₀ loc e s) : Inherits loc i { s with location := e.location }
  | keep {loc i : Nat} {e s : Entry} (hloc : st₀.isPatched loc = false)
      (he : (firstEntries p st₀ loc)[i]? = some e) (hs : Inherits (superOf st₀ loc) i s)
      (htakes : ¬Takes p st₀ loc e s) : Inherits loc i e
  | own {loc i : Nat} {e : Entry} (hloc : st₀.isPatched loc = false)
      (he : (firstEntries p st₀ loc)[i]? = some e)
      (hlong : (firstEntries p st₀ (superOf st₀ loc)).length ≤ i) : Inherits loc i e

structure VTableDone (st : State) (loc : Nat) : Prop where
  superPatched : st.isPatched (superOf st₀ loc) = true
  length : (st.vtables loc).entries.length = (firstEntries p st₀ loc).length
  long : (st.vtables (superOf st₀ loc)).entries.length ≤ (firstEntries p st₀ loc).length
  slots : ∀ (i : Nat) e e', (firstEntries p st₀ loc)[i]? = some e → (st.vtables loc).entries[i]? = some e' →
    SlotDone (calculateSymbols p.dylibs) (resolvedOf st₀ loc) st₀.fixups st.fixups e e'
      (st.vtables (superOf st₀ loc)).entries[i]?

/-- The invariant of the rounds. -/
structure Inv (st : State) : Prop where
  super : ∀ loc, (st.vtables loc).superVTable = superOf st₀ loc
  dylib : ∀ loc, (st.vtables loc).dylib = (st₀.vtables loc).dylib
  fromParent : ∀ loc, (st.vtables loc).fromParentCollection = (st₀.vtables loc).fromParentCollection
  keeps : Keeps st₀.fixups st.fixups
  noDiags : st.diags = []
  count : st.numPatchedVTables + (unpatchedVTables p st).length = p.vtableLocs.length
  stillPatched : ∀ loc, st₀.isPatched loc = true → st.isPatched loc = true
  noEntries : ∀ loc, st.isPatched loc = false → (st.vtables loc).entries = []
  untouched : ∀ loc ∈ p.vtableLocs, st.isPatched loc = false → ∀ e ∈ firstEntries p st₀ loc,
    SameSlot st₀.fixups st.fixups e.location
  root : ∀ loc ∈ p.vtableLocs, st₀.isPatched loc = true → (st.vtables loc).entries = firstEntries p st₀ loc
  done : ∀ loc ∈ p.vtableLocs, st₀.isPatched loc = false → st.isPatched loc = true → VTableDone p st₀ st loc
  levels : ∀ loc ∈ p.vtableLocs, ∀ e ∈ (st.vtables loc).entries, e.targetCacheLevel.toNat < numFixupLevels
  rooted : ∀ loc ∈ p.vtableLocs, st.isPatched loc = true → ∃ k, st₀.isPatched ((superOf st₀)^[k] loc) = true
  inherits : ∀ loc ∈ p.vtableLocs, ∀ (i : Nat) s, (st.vtables loc).entries[i]? = some s → Inherits p st₀ loc i s

variable {p st₀} {st : State} {loc : Nat}

lemma WellFormed.calculate (h : WellFormed p st₀) (hloc : loc ∈ p.vtableLocs) :
    calculateVTableEntries p st₀.fixups loc (st₀.vtables loc) = some (firstEntries p st₀ loc) := by
  obtain ⟨entries, hentries⟩ := Option.ne_none_iff_exists'.mp (h.entries loc hloc)
  rw [firstEntries, hentries, Option.getD_some]

lemma WellFormed.tracked (h : WellFormed p st₀) (hloc : loc ∈ p.vtableLocs) (hwait : st₀.isPatched loc = false) :
    st₀.fixups.trackedEntries p.currentLevel (loc + 2 * pointerSize) = some (firstEntries p st₀ loc) := by
  have hcalculate := h.calculate hloc
  rw [calculateVTableEntries, h.built loc hloc hwait, if_neg Bool.false_ne_true] at hcalculate
  exact hcalculate

lemma WellFormed.slots_apart (h : WellFormed p st₀) (hloc : loc ∈ p.vtableLocs)
    (hwait : st₀.isPatched loc = false) :
    (firstEntries p st₀ loc).Pairwise fun e e' => Apart pointerSize e.location e'.location := by
  have htracked := h.tracked hloc hwait
  rw [List.pairwise_iff_getElem]
  intro i j hi hj hij
  have hfirst := (trackedEntries_location htracked (List.getElem?_eq_getElem hi)).1
  have hsecond := (trackedEntries_location htracked (List.getElem?_eq_getElem hj)).1
  rw [hfirst, hsecond]
  left
  unfold pointerSize
  omega

lemma Inv.patched_of_not_waiting (h : Inv p st₀ st) (hwait : st.isPatched loc = false) :
    st₀.isPatched loc = false := by
  cases hold : st₀.isPatched loc with
  | false => rfl
  | true =>
    rw [h.stillPatched loc hold] at hwait
    cases hwait

lemma Inv.calculate (h : Inv p st₀ st) (hwell : WellFormed p st₀) (hloc : loc ∈ p.vtableLocs)
    (hwait : st.isPatched loc = false) {vtable : VTable}
    (hparent : vtable.fromParentCollection = (st.vtables loc).fromParentCollection) :
    calculateVTableEntries p st.fixups loc vtable = some (firstEntries p st₀ loc) := by
  have hold := h.patched_of_not_waiting hwait
  rw [calculateVTableEntries, hparent, h.fromParent, hwell.built loc hloc hold, if_neg Bool.false_ne_true]
  exact trackedEntries_congr h.keeps (h.untouched loc hloc hwait) (hwell.tracked hloc hold)

lemma Inv.length_entries (h : Inv p st₀ st) (hloc : loc ∈ p.vtableLocs) (hpatched : st.isPatched loc = true) :
    (st.vtables loc).entries.length = (firstEntries p st₀ loc).length := by
  cases hroot : st₀.isPatched loc with
  | true => rw [h.root loc hloc hroot]
  | false => exact (h.done loc hloc hroot hpatched).length

def afterTurn (st : State) (loc : Nat) (r : List Entry × Fixups) : State :=
  { st.setVTable loc { st.vtables loc with patched := true, entries := r.1 } with
    fixups := r.2, numPatchedVTables := st.numPatchedVTables + 1 }

section AfterTurn

variable {r : List Entry × Fixups} {loc' : Nat}

lemma afterTurn_self (st : State) (loc : Nat) (r : List Entry × Fixups) :
    (afterTurn st loc r).vtables loc = { st.vtables loc with patched := true, entries := r.1 } :=
  Function.update_self ..

lemma afterTurn_of_ne (hne : loc' ≠ loc) : (afterTurn st loc r).vtables loc' = st.vtables loc' :=
  Function.update_of_ne hne ..

lemma isPatched_afterTurn_self (st : State) (loc : Nat) (r : List Entry × Fixups) :
    (afterTurn st loc r).isPatched loc = true := by
  rw [State.isPatched, afterTurn_self]

lemma isPatched_afterTurn_of_ne (hne : loc' ≠ loc) :
    (afterTurn st loc r).isPatched loc' = st.isPatched loc' := by
  rw [State.isPatched, afterTurn_of_ne hne]
  rfl

lemma isPatched_afterTurn (h : st.isPatched loc' = true) : (afterTurn st loc r).isPatched loc' = true := by
  by_cases hne : loc' = loc
  · subst hne
    exact isPatched_afterTurn_self st loc' r
  · rw [isPatched_afterTurn_of_ne hne, h]

lemma unpatchedVTables_afterTurn (hnodup : p.vtableLocs.Nodup) (hloc : loc ∈ p.vtableLocs)
    (hwait : st.isPatched loc = false) :
    (unpatchedVTables p (afterTurn st loc r)).length + 1 = (unpatchedVTables p st).length := by
  have hmem : loc ∈ unpatchedVTables p st := by
    rw [unpatchedVTables, List.mem_filter, hwait]
    exact ⟨hloc, rfl⟩
  have herase : unpatchedVTables p (afterTurn st loc r) = (unpatchedVTables p st).erase loc := by
    unfold unpatchedVTables
    rw [(hnodup.filter _).erase_eq_filter, List.filter_filter]
    apply List.filter_congr
    intro other _
    by_cases hne : other = loc
    · subst hne
      rw [isPatched_afterTurn_self]
      simp
    · rw [isPatched_afterTurn_of_ne hne]
      simp [hne]
  rw [herase, List.length_erase_of_mem hmem]
  have hpos := List.length_pos_of_mem hmem
  omega

lemma Inv.inherits_of_done (h : Inv p st₀ st) (hwell : WellFormed p st₀) (hloc : loc ∈ p.vtableLocs)
    (hold : st₀.isPatched loc = false) (hsuper : st.isPatched (superOf st₀ loc) = true) {i : Nat} {e e' : Entry}
    {f : Fixups} (he : (firstEntries p st₀ loc)[i]? = some e)
    (hdone : SlotDone (calculateSymbols p.dylibs) (resolvedOf st₀ loc) st₀.fixups f e e'
      (st.vtables (superOf st₀ loc)).entries[i]?) : Inherits p st₀ loc i e' := by
  have hmem := hwell.supers loc hloc hold
  cases hs : (st.vtables (superOf st₀ loc)).entries[i]? with
  | some s =>
    rw [hs] at hdone
    have hinherits := h.inherits _ hmem i s hs
    by_cases htakes : Takes p st₀ loc e s
    · rw [(hdone.takes s rfl htakes).1]
      exact Inherits.take hold he hinherits htakes
    · have hstays := hdone.stays fun s' hs' => by
        cases hs'
        exact htakes
      rw [hstays.1]
      exact Inherits.keep hold he hinherits htakes
  | none =>
    rw [hs] at hdone
    have hstays := hdone.stays fun s' hs' => nomatch hs'
    rw [hstays.1]
    apply Inherits.own hold he
    rw [← h.length_entries hmem hsuper]
    exact List.getElem?_eq_none_iff.mp hs

/-- A turn keeps the invariant. -/
theorem Inv.turn (h : Inv p st₀ st) (hwell : WellFormed p st₀) (hloc : loc ∈ p.vtableLocs)
    (hwait : st.isPatched loc = false) (hsuper : st.isPatched (superOf st₀ loc) = true)
    (hlong : (st.vtables (superOf st₀ loc)).entries.length ≤ (firstEntries p st₀ loc).length)
    (hr : PatchedAll (calculateSymbols p.dylibs) (resolvedOf st₀ loc) st.fixups (firstEntries p st₀ loc)
      (st.vtables (superOf st₀ loc)).entries r) : Inv p st₀ (afterTurn st loc r) := by
  have hold := h.patched_of_not_waiting hwait
  have hne : superOf st₀ loc ≠ loc := by
    intro heq
    rw [heq, hwait] at hsuper
    cases hsuper
  -- the slots of this vtable were as in the beginning
  have hslots : ∀ (i : Nat) e e', (firstEntries p st₀ loc)[i]? = some e → r.1[i]? = some e' →
      SlotDone (calculateSymbols p.dylibs) (resolvedOf st₀ loc) st₀.fixups r.2 e e'
        (st.vtables (superOf st₀ loc)).entries[i]? := by
    intro i e e' he he'
    exact SlotDone.of_same (h.untouched loc hloc hwait e (List.mem_of_getElem? he)) (hr.done i e e' he he')
  -- the slots of the others stay
  have hothers : ∀ loc' ∈ p.vtableLocs, loc' ≠ loc → ∀ e ∈ firstEntries p st₀ loc',
      SameSlot st.fixups r.2 e.location := by
    intro loc' hloc' hne' e he
    exact hr.others e.location fun e₁ he₁ => hwell.apart loc hloc loc' hloc' hne'.symm e₁ he₁ e he
  have hentry : ∀ {i : Nat} {e' : Entry}, r.1[i]? = some e' → ∃ e, (firstEntries p st₀ loc)[i]? = some e := by
    intro i e' he'
    have hlt := (List.getElem?_eq_some_iff.mp he').1
    rw [hr.length] at hlt
    exact ⟨_, List.getElem?_eq_getElem hlt⟩
  have hfield : ∀ {α : Type} (field : VTable → α),
      field { st.vtables loc with patched := true, entries := r.1 } = field (st.vtables loc) →
      ∀ loc', field ((afterTurn st loc r).vtables loc') = field (st.vtables loc') := by
    intro α field hself loc'
    by_cases heq : loc' = loc
    · subst heq
      rw [afterTurn_self, hself]
    · rw [afterTurn_of_ne heq]
  constructor
  · intro loc'
    rw [hfield VTable.superVTable rfl, h.super]
  · intro loc'
    rw [hfield VTable.dylib rfl, h.dylib]
  · intro loc'
    rw [hfield VTable.fromParentCollection rfl, h.fromParent]
  · exact h.keeps.trans hr.keeps
  · exact h.noDiags
  · have hcount := h.count
    have hless := unpatchedVTables_afterTurn (r := r) hwell.nodup hloc hwait
    change st.numPatchedVTables + 1 + _ = _
    omega
  · intro loc' hroot
    exact isPatched_afterTurn (h.stillPatched loc' hroot)
  · intro loc' hwait'
    have hne' : loc' ≠ loc := by
      rintro rfl
      rw [isPatched_afterTurn_self] at hwait'
      cases hwait'
    rw [isPatched_afterTurn_of_ne hne'] at hwait'
    rw [afterTurn_of_ne hne']
    exact h.noEntries loc' hwait'
  · intro loc' hloc' hwait' e he
    have hne' : loc' ≠ loc := by
      rintro rfl
      rw [isPatched_afterTurn_self] at hwait'
      cases hwait'
    rw [isPatched_afterTurn_of_ne hne'] at hwait'
    exact (h.untouched loc' hloc' hwait' e he).trans (hothers loc' hloc' hne' e he)
  · intro loc' hloc' hroot
    have hne' : loc' ≠ loc := by
      rintro rfl
      rw [hold] at hroot
      cases hroot
    rw [afterTurn_of_ne hne', h.root loc' hloc' hroot]
  · intro loc' hloc' hold' hdone
    by_cases heq : loc' = loc
    · subst heq
      refine ⟨isPatched_afterTurn hsuper, ?_, ?_, ?_⟩
      · rw [afterTurn_self]
        exact hr.length
      · rw [afterTurn_of_ne hne]
        exact hlong
      · rw [afterTurn_self, afterTurn_of_ne hne]
        exact hslots
    · rw [isPatched_afterTurn_of_ne heq] at hdone
      obtain ⟨hsuper', hlength, hlong', hslots'⟩ := h.done loc' hloc' hold' hdone
      have hne' : superOf st₀ loc' ≠ loc := by
        intro heq'
        rw [heq', hwait] at hsuper'
        cases hsuper'
      refine ⟨isPatched_afterTurn hsuper', ?_, ?_, ?_⟩
      · rw [afterTurn_of_ne heq, hlength]
      · rw [afterTurn_of_ne hne']
        exact hlong'
      · rw [afterTurn_of_ne heq, afterTurn_of_ne hne']
        intro i e e' he he'
        exact (hslots' i e e' he he').then_same (hothers loc' hloc' heq e (List.mem_of_getElem? he))
  · intro loc' hloc' e' he'
    by_cases heq : loc' = loc
    · subst heq
      rw [afterTurn_self] at he'
      obtain ⟨i, hi⟩ := List.mem_iff_getElem?.mp he'
      obtain ⟨e, he⟩ := hentry hi
      have hdone := hslots i e e' he hi
      cases hs : (st.vtables (superOf st₀ loc')).entries[i]? with
      | none =>
        rw [hs] at hdone
        rw [(hdone.stays fun s' hs' => nomatch hs').1]
        exact hwell.levels loc' hloc' e (List.mem_of_getElem? he)
      | some s =>
        rw [hs] at hdone
        by_cases htakes : Takes p st₀ loc' e s
        · rw [(hdone.takes s rfl htakes).1]
          exact h.levels _ (hwell.supers loc' hloc' hold) s (List.mem_of_getElem? hs)
        · have hstays := hdone.stays fun s' hs' => by
            cases hs'
            exact htakes
          rw [hstays.1]
          exact hwell.levels loc' hloc' e (List.mem_of_getElem? he)
    · rw [afterTurn_of_ne heq] at he'
      exact h.levels loc' hloc' e' he'
  · intro loc' hloc' hdone
    by_cases heq : loc' = loc
    · subst heq
      obtain ⟨k, hk⟩ := h.rooted _ (hwell.supers loc' hloc' hold) hsuper
      exact ⟨k + 1, hk⟩
    · rw [isPatched_afterTurn_of_ne heq] at hdone
      exact h.rooted loc' hloc' hdone
  · intro loc' hloc' i s hs
    by_cases heq : loc' = loc
    · subst heq
      rw [afterTurn_self] at hs
      obtain ⟨e, he⟩ := hentry hs
      exact h.inherits_of_done hwell hloc' hold hsuper he (hslots i e s he hs)
    · rw [afterTurn_of_ne heq] at hs
      exact h.inherits loc' hloc' i s hs

end AfterTurn

/-! ### Rounds keep the invariant -/

def Shrinks (p : Patcher) (st₀ : State) : Prop :=
  ∃ loc ∈ p.vtableLocs, st₀.isPatched loc = false ∧
    (firstEntries p st₀ loc).length < (firstEntries p st₀ (superOf st₀ loc)).length

def Unrooted (p : Patcher) (st₀ : State) : Prop :=
  ∃ loc ∈ p.vtableLocs, ∀ k, st₀.isPatched ((superOf st₀)^[k] loc) = false

/-- What a round returns: with an error, or with the invariant. -/
def Ended (p : Patcher) (st₀ : State) (r : Bool × State) : Prop :=
  (r.1 = true → r.2.diags ≠ [] ∧ Shrinks p st₀) ∧ (r.1 = false → Inv p st₀ r.2)

lemma processVTable_spec (h : Inv p st₀ st) (hwell : WellFormed p st₀) (hloc : loc ∈ p.vtableLocs)
    (hwait : st.isPatched loc = false) (hsuper : st.isPatched (superOf st₀ loc) = true) :
    ∃ r, processVTable p (calculateSymbols p.dylibs) loc st = some r ∧ Ended p st₀ r := by
  have hold := h.patched_of_not_waiting hwait
  have hne : superOf st₀ loc ≠ loc := by
    intro heq
    rw [heq, hwait] at hsuper
    cases hsuper
  have hcalculate : calculateVTableEntries p st.fixups loc { st.vtables loc with patched := true } =
      some (firstEntries p st₀ loc) := h.calculate hwell hloc hwait rfl
  unfold processVTable
  dsimp only
  rw [hcalculate, Option.bind_some, h.noEntries loc hwait, List.nil_append]
  dsimp only [State.setVTable]
  simp only [h.super, Function.update_of_ne hne]
  by_cases hlong : (firstEntries p st₀ loc).length < (st.vtables (superOf st₀ loc)).entries.length
  · rw [if_pos hlong]
    refine ⟨_, rfl, fun _ => ⟨?_, loc, hloc, hold, ?_⟩, fun hfalse => nomatch hfalse⟩
    · dsimp only
      exact List.concat_ne_nil _ _
    · rw [h.length_entries (hwell.supers loc hloc hold) hsuper] at hlong
      exact hlong
  · rw [if_neg hlong, h.dylib]
    obtain ⟨resolved, hresolved⟩ := Option.ne_none_iff_exists'.mp (hwell.dylibs loc hloc hold)
    have hresolvedOf : resolvedOf st₀ loc = resolved := by
      rw [resolvedOf, hresolved, Option.getD_some]
    rw [hresolved, Option.bind_some]
    have hslots : ∀ e ∈ firstEntries p st₀ loc, st.fixups.isSlot e.location = some true := by
      intro e he
      obtain ⟨i, hi⟩ := List.mem_iff_getElem?.mp he
      rw [h.keeps.isSlot]
      exact (trackedEntries_location (hwell.tracked hloc hold) hi).2
    obtain ⟨r, hr, hall⟩ : ∃ r, patchEntries (calculateSymbols p.dylibs) resolved (firstEntries p st₀ loc)
        (st.vtables (superOf st₀ loc)).entries st.fixups = some r ∧
        PatchedAll (calculateSymbols p.dylibs) resolved st.fixups (firstEntries p st₀ loc)
          (st.vtables (superOf st₀ loc)).entries r :=
      patchEntries_spec (h.keeps.enabled.trans hwell.enabled) hslots (hwell.slots_apart hloc hold)
        (h.levels _ (hwell.supers loc hloc hold)) (not_lt.mp hlong)
    rw [hr, Option.map_some]
    refine ⟨_, rfl, fun htrue => (nomatch htrue), fun _ => ?_⟩
    rw [← hresolvedOf] at hall
    have hturn := h.turn hwell hloc hwait hsuper (not_lt.mp hlong) hall
    have hvtable : (⟨(st.vtables loc).ma, superOf st₀ loc, some resolved, (st.vtables loc).fromParentCollection,
        true, (st.vtables loc).name, r.1⟩ : VTable) = { st.vtables loc with patched := true, entries := r.1 } := by
      rw [← h.super loc, ← hresolved, ← h.dylib loc]
    dsimp only
    rw [Function.update_idem, hvtable]
    exact hturn

lemma processVTables_spec {vtableLocs : List Nat} (h : Inv p st₀ st) (hwell : WellFormed p st₀)
    (hnodup : vtableLocs.Nodup) (hlocs : ∀ loc ∈ vtableLocs, loc ∈ p.vtableLocs ∧ st.isPatched loc = false ∧
      st.isPatched (superOf st₀ loc) = true) :
    ∃ r, processVTables p (calculateSymbols p.dylibs) vtableLocs st = some r ∧ Ended p st₀ r := by
  induction vtableLocs generalizing st with
  | nil => exact ⟨_, rfl, fun htrue => (nomatch htrue), fun _ => h⟩
  | cons loc rest ih =>
    obtain ⟨hloc, hwait, hsuper⟩ := hlocs loc (List.mem_cons_self ..)
    obtain ⟨hnotMem, hnodup'⟩ := List.nodup_cons.mp hnodup
    obtain ⟨r, hr, hended⟩ := processVTable_spec h hwell hloc hwait hsuper
    have hmarks := isPatched_processVTable hr
    rw [processVTables, hr, Option.bind_some]
    cases hreturn : r.1 with
    | true =>
      rw [if_pos rfl]
      exact ⟨r, rfl, hended⟩
    | false =>
      rw [if_neg Bool.false_ne_true]
      apply ih (hended.2 hreturn) hnodup'
      intro loc' hloc'
      obtain ⟨hmem, hwait', hsuper'⟩ := hlocs loc' (List.mem_cons_of_mem _ hloc')
      refine ⟨hmem, ?_, (hmarks _).mpr (Or.inr hsuper')⟩
      rw [← Bool.not_eq_true, hmarks, not_or, Bool.not_eq_true]
      exact ⟨fun heq => hnotMem (heq ▸ hloc'), hwait'⟩

def Finished (p : Patcher) (st₀ st : State) : Prop :=
  Inv p st₀ st ∧ ∀ loc ∈ p.vtableLocs, st.isPatched loc = true

lemma Inv.exists_turn (h : Inv p st₀ st) (hwell : WellFormed p st₀) (hloc : loc ∈ p.vtableLocs)
    (hwait : st.isPatched loc = false) {k : Nat} (hk : st.isPatched ((superOf st₀)^[k] loc) = true) :
    ∃ loc' ∈ p.vtableLocs, st.isPatched loc' = false ∧ st.isPatched (superOf st₀ loc') = true := by
  induction k generalizing loc with
  | zero =>
    rw [Function.iterate_zero_apply, hwait] at hk
    cases hk
  | succ k ih =>
    cases hsuper : st.isPatched (superOf st₀ loc) with
    | true => exact ⟨loc, hloc, hwait, hsuper⟩
    | false => exact ih (hwell.supers loc hloc (h.patched_of_not_waiting hwait)) hsuper hk

theorem patchRounds_spec (hwell : WellFormed p st₀) (st : State) (h : Inv p st₀ st) :
    ∃ st', patchRounds p (calculateSymbols p.dylibs) st = some st' ∧
      (st'.diags ≠ [] ∧ (Shrinks p st₀ ∨ Unrooted p st₀) ∨ Finished p st₀ st') := by
  induction hn : (unpatchedVTables p st).length using Nat.strong_induction_on generalizing st with
  | _ n ih =>
    rw [patchRounds]
    by_cases hcount : st.numPatchedVTables = p.vtableLocs.length
    · rw [if_pos hcount]
      refine ⟨st, rfl, Or.inr ⟨h, ?_⟩⟩
      have hnone : unpatchedVTables p st = [] := by
        apply List.eq_nil_of_length_eq_zero
        have hsum := h.count
        omega
      intro loc hloc
      have hall := List.filter_eq_nil_iff.mp hnone loc hloc
      simpa using hall
    · rw [if_neg hcount]
      have hassert : ∀ loc ∈ p.vtableLocs, st.isPatched loc = false →
          (st.vtables loc).superVTable ∈ p.vtableLocs := by
        intro loc hloc hwait
        rw [h.super]
        exact hwell.supers loc hloc (h.patched_of_not_waiting hwait)
      have hround : toBePatched p st =
          some (p.vtableLocs.filter fun loc => !st.isPatched loc && st.superIsPatched loc) := if_pos hassert
      split
      · next hnone =>
        rw [hround] at hnone
        cases hnone
      · next hnil =>
        have hne : unpatchedVTables p st ≠ [] := by
          intro hnone
          have hsum := h.count
          rw [hnone] at hsum
          exact hcount hsum
        refine ⟨_, rfl, Or.inl ⟨?_, Or.inr ?_⟩⟩
        · rw [reportUnpatched, ne_eq, List.append_eq_nil_iff, List.map_eq_nil_iff]
          exact fun hboth => hne hboth.2
        · obtain ⟨loc, hmem⟩ := List.exists_mem_of_ne_nil _ hne
          rw [unpatchedVTables, List.mem_filter, Bool.not_eq_true'] at hmem
          refine ⟨loc, hmem.1, fun k => ?_⟩
          cases hk : st₀.isPatched ((superOf st₀)^[k] loc) with
          | false => rfl
          | true =>
            -- the first patched superclass would make a turn
            obtain ⟨loc', hloc', hwait', hsuper'⟩ :=
              h.exists_turn hwell hmem.1 hmem.2 (h.stillPatched _ hk)
            have hturn : loc' ∈ ([] : List Nat) := by
              rw [toBePatched_some hnil, List.mem_filter, hwait', State.superIsPatched, h.super, hsuper']
              exact ⟨hloc', rfl⟩
            cases hturn
      · next first rest hsome =>
        have hlocs : ∀ loc ∈ first :: rest, loc ∈ p.vtableLocs ∧ st.isPatched loc = false ∧
            st.isPatched (superOf st₀ loc) = true := by
          intro loc hloc
          rw [toBePatched_some hsome, List.mem_filter, Bool.and_eq_true, Bool.not_eq_true',
            State.superIsPatched, h.super] at hloc
          exact hloc
        have hnodup : (first :: rest).Nodup := by
          rw [toBePatched_some hsome]
          exact hwell.nodup.filter _
        obtain ⟨r, hr, hended⟩ := processVTables_spec h hwell hnodup hlocs
        split
        · next hnone =>
          rw [hr] at hnone
          cases hnone
        · next st' hsome' =>
          rw [hr] at hsome'
          cases hsome'
          exact ⟨st', rfl, Or.inl ⟨(hended.1 rfl).1, Or.inl (hended.1 rfl).2⟩⟩
        · next st' hsome' =>
          have hless := unpatchedVTables_lt hsome (List.cons_ne_nil _ _) hsome'
          rw [hr] at hsome'
          cases hsome'
          exact ih _ (hn ▸ hless) st' (hended.2 rfl) rfl

/-! ### The start -/

lemma calculatePatched_spec (hwell : WellFormed p st₀) {vtableLocs : List Nat} (hnodup : vtableLocs.Nodup)
    (hlocs : ∀ loc ∈ vtableLocs, loc ∈ p.vtableLocs) (st : State) (hfixups : st.fixups = st₀.fixups)
    (hsame : ∀ loc ∈ vtableLocs, st.vtables loc = st₀.vtables loc) :
    ∃ st', calculatePatched p vtableLocs st = some st' ∧ st'.fixups = st.fixups ∧ st'.diags = st.diags ∧
      st'.numPatchedVTables = st.numPatchedVTables + vtableLocs.countP (st₀.isPatched ·) ∧
      ∀ loc, st'.vtables loc = if loc ∈ vtableLocs ∧ st₀.isPatched loc = true then
        { st.vtables loc with entries := firstEntries p st₀ loc } else st.vtables loc := by
  induction vtableLocs generalizing st with
  | nil =>
    refine ⟨st, rfl, rfl, rfl, rfl, fun loc => ?_⟩
    rw [if_neg fun hmem => List.not_mem_nil hmem.1]
  | cons first rest ih =>
    obtain ⟨hnotMem, hnodup'⟩ := List.nodup_cons.mp hnodup
    have hfirst := hsame first (List.mem_cons_self ..)
    have hisPatched : st.isPatched first = st₀.isPatched first := by
      rw [State.isPatched, hfirst]
      rfl
    rw [calculatePatched, hisPatched]
    cases hpatched : st₀.isPatched first with
    | true =>
      rw [if_pos rfl, hfixups, hfirst, hwell.calculate (hlocs first (List.mem_cons_self ..)), Option.bind_some]
      dsimp only
      rw [hwell.noEntries, List.nil_append]
      obtain ⟨st', hst', hfixups', hdiags, hnum, hvtables⟩ := ih hnodup'
        (fun loc hloc => hlocs loc (List.mem_cons_of_mem _ hloc))
        { st.setVTable first { st₀.vtables first with entries := firstEntries p st₀ first } with
          numPatchedVTables := st.numPatchedVTables + 1 } hfixups (by
          intro loc hloc
          have hne : loc ≠ first := fun heq => hnotMem (heq ▸ hloc)
          exact (Function.update_of_ne hne ..).trans (hsame loc (List.mem_cons_of_mem _ hloc)))
      refine ⟨st', hst', hfixups'.trans hfixups, hdiags, ?_, fun loc => ?_⟩
      · rw [hnum, List.countP_cons_of_pos hpatched]
        change st.numPatchedVTables + 1 + rest.countP st₀.isPatched = _
        omega
      · rw [hvtables loc]
        dsimp only [State.setVTable]
        by_cases heq : loc = first
        · subst heq
          rw [if_neg fun hmem => hnotMem hmem.1, if_pos ⟨List.mem_cons_self .., hpatched⟩,
            Function.update_self, hfirst]
        · rw [Function.update_of_ne heq]
          simp only [List.mem_cons, heq, false_or]
    | false =>
      rw [if_neg Bool.false_ne_true]
      obtain ⟨st', hst', hfixups', hdiags, hnum, hvtables⟩ := ih hnodup'
        (fun loc hloc => hlocs loc (List.mem_cons_of_mem _ hloc)) st hfixups
        (fun loc hloc => hsame loc (List.mem_cons_of_mem _ hloc))
      refine ⟨st', hst', hfixups', hdiags, ?_, fun loc => ?_⟩
      · rw [hnum, List.countP_cons_of_neg]
        rw [hpatched]
        exact Bool.false_ne_true
      · rw [hvtables loc]
        by_cases heq : loc = first
        · subst heq
          rw [hpatched]
          simp
        · simp only [List.mem_cons, heq, false_or]

/-- The invariant holds before the first round. -/
lemma inv_start (hwell : WellFormed p st₀) {st : State} (hfixups : st.fixups = st₀.fixups)
    (hdiags : st.diags = st₀.diags) (hnum : st.numPatchedVTables = p.vtableLocs.countP (st₀.isPatched ·))
    (hvtables : ∀ loc, st.vtables loc = if loc ∈ p.vtableLocs ∧ st₀.isPatched loc = true then
      { st₀.vtables loc with entries := firstEntries p st₀ loc } else st₀.vtables loc) : Inv p st₀ st := by
  have hfield : ∀ {α : Type} (field : VTable → α), (∀ vtable entries,
      field { vtable with entries := entries } = field vtable) → ∀ loc, field (st.vtables loc) =
        field (st₀.vtables loc) := by
    intro α field hself loc
    rw [hvtables loc]
    split_ifs
    · exact hself _ _
    · rfl
  have hisPatched : ∀ loc, st.isPatched loc = st₀.isPatched loc := hfield VTable.patched fun _ _ => rfl
  have hentries : ∀ loc ∈ p.vtableLocs, ∀ e ∈ (st.vtables loc).entries,
      st₀.isPatched loc = true ∧ (st.vtables loc).entries = firstEntries p st₀ loc := by
    intro loc hloc e he
    rw [hvtables loc] at he ⊢
    by_cases hpatched : st₀.isPatched loc = true
    · rw [if_pos ⟨hloc, hpatched⟩]
      exact ⟨hpatched, rfl⟩
    · rw [if_neg fun hboth => hpatched hboth.2, hwell.noEntries] at he
      cases he
  constructor
  · exact hfield VTable.superVTable fun _ _ => rfl
  · exact hfield VTable.dylib fun _ _ => rfl
  · exact hfield VTable.fromParentCollection fun _ _ => rfl
  · rw [hfixups]
    exact Keeps.refl _
  · exact hdiags.trans hwell.noDiags
  · have hsum := List.length_eq_countP_add_countP (st₀.isPatched ·) (l := p.vtableLocs)
    rw [hnum, unpatchedVTables, ← List.countP_eq_length_filter, hsum]
    congr 1
    apply List.countP_congr
    intro loc _
    rw [hisPatched]
    simp
  · intro loc hpatched
    rw [hisPatched, hpatched]
  · intro loc hwait
    rw [hisPatched] at hwait
    rw [hvtables loc, if_neg, hwell.noEntries]
    rw [hwait]
    exact fun hboth => Bool.false_ne_true hboth.2
  · intro loc _ _ e _
    rw [hfixups]
    exact SameSlot.refl _ _
  · intro loc hloc hpatched
    rw [hvtables loc, if_pos ⟨hloc, hpatched⟩]
  · intro loc _ hold hdone
    rw [hisPatched, hold] at hdone
    cases hdone
  · intro loc hloc e he
    rw [(hentries loc hloc e he).2] at he
    exact hwell.levels loc hloc e he
  · intro loc _ hdone
    exact ⟨0, (hisPatched loc).symm.trans hdone⟩
  · intro loc hloc i s hs
    obtain ⟨hpatched, heq⟩ := hentries loc hloc s (List.mem_of_getElem? hs)
    rw [heq] at hs
    exact Inherits.root hpatched hs

/-- The run ends. Unless there is an error, for one of three reasons, all vtables are patched. -/
theorem patchVTables_finished (hwell : WellFormed p st₀) :
    ∃ st, patchVTables p st₀ = some st ∧
      (st.diags ≠ [] ∧ (p.baseMetaClassVTableLoc = none ∨ Shrinks p st₀ ∨ Unrooted p st₀) ∨
        Finished p st₀ st) := by
  unfold patchVTables
  by_cases hbase : p.baseMetaClassVTableLoc = none ∧ p.vtableLocs ≠ []
  · rw [if_pos hbase]
    exact ⟨_, rfl, Or.inl ⟨List.concat_ne_nil _ _, Or.inl hbase.1⟩⟩
  · rw [if_neg hbase]
    obtain ⟨st, hst, hfixups, hdiags, hnum, hvtables⟩ := calculatePatched_spec hwell hwell.nodup
      (fun _ hloc => hloc) { st₀ with numPatchedVTables := 0 } rfl fun _ _ => rfl
    dsimp only
    rw [hst, Option.bind_some]
    rw [Nat.zero_add] at hnum
    obtain ⟨st', hst', hend⟩ := patchRounds_spec hwell st (inv_start hwell hfixups hdiags hnum hvtables)
    exact ⟨st', hst', hend.imp_left fun herror => ⟨herror.1, Or.inr herror.2⟩⟩

/-! ### What the run leaves -/

/-- The address of a slot, after the two pointers that start a vtable. -/
def slotLoc (vtableLoc i : Nat) : Nat := vtableLoc + 2 * pointerSize + pointerSize * i

/-- A slot has the target of an entry, with its level and exactly its authentication, and is no missing
bind. -/
structure HasTarget (f : Fixups) (loc : Nat) (s : Entry) : Prop where
  word : load pointerSize f.memory loc = s.targetVMAddr.toBitVec
  has : ∀ level, f.aslrTracker.has loc level = some (true, level.map fun _ => s.targetCacheLevel)
  authData : f.aslrTracker.authDataMap loc =
    if s.hasPointerAuth then some ⟨s.diversity, s.hasAddrDiv, s.key⟩ else none
  missing : f.missingBindLocations loc = none

/-- A slot is bound to another function than the one of the superclass. -/
def Overrides (p : Patcher) (st₀ : State) (vtableLoc i : Nat) (s : Entry) : Prop :=
  TakesSuper (calculateSymbols p.dylibs) (resolvedOf st₀ vtableLoc) st₀.fixups (slotLoc vtableLoc i) s

def SlotsInherit (p : Patcher) (st₀ st : State) : Prop :=
  ∀ loc ∈ p.vtableLocs, st₀.isPatched loc = false → ∀ (i : Nat) s,
    (st.vtables (superOf st₀ loc)).entries[i]? = some s →
      (Overrides p st₀ loc i s → HasTarget st.fixups (slotLoc loc i) s) ∧
      (¬Overrides p st₀ loc i s → SameSlot st₀.fixups st.fixups (slotLoc loc i))

/-- A slot that takes a target without authentication has none of its own. -/
def NoOldAuth (p : Patcher) (st₀ : State) : Prop :=
  ∀ loc ∈ p.vtableLocs, st₀.isPatched loc = false → ∀ i s, Inherits p st₀ (superOf st₀ loc) i s →
    Overrides p st₀ loc i s → s.hasPointerAuth = false →
      st₀.fixups.aslrTracker.authDataMap (slotLoc loc i) = none

/-- A class that is among its own superclasses, none of which is patched. -/
def UnpatchedCycle (p : Patcher) (st₀ : State) : Prop :=
  ∃ loc ∈ p.vtableLocs, ∃ n, 0 < n ∧ (superOf st₀)^[n] loc = loc ∧
    ∀ k, st₀.isPatched ((superOf st₀)^[k] loc) = false

lemma Finished.entry (h : Finished p st₀ st) (hwell : WellFormed p st₀) {i : Nat} {s : Entry}
    (hs : Inherits p st₀ loc i s) (hloc : loc ∈ p.vtableLocs) : (st.vtables loc).entries[i]? = some s := by
  have hexists : ∀ {loc i : Nat} {e : Entry}, loc ∈ p.vtableLocs → st₀.isPatched loc = false →
      (firstEntries p st₀ loc)[i]? = some e → ∃ e', (st.vtables loc).entries[i]? = some e' ∧
        SlotDone (calculateSymbols p.dylibs) (resolvedOf st₀ loc) st₀.fixups st.fixups e e'
          (st.vtables (superOf st₀ loc)).entries[i]? := by
    intro loc i e hloc hold he
    have hdone := h.1.done loc hloc hold (h.2 loc hloc)
    have hlt := (List.getElem?_eq_some_iff.mp he).1
    rw [← hdone.length] at hlt
    exact ⟨_, List.getElem?_eq_getElem hlt, hdone.slots i e _ he (List.getElem?_eq_getElem hlt)⟩
  induction hs with
  | root hroot he => rw [h.1.root _ hloc hroot, he]
  | take hold he _ htakes ih =>
    obtain ⟨e', he', hslot⟩ := hexists hloc hold he
    rw [he', (hslot.takes _ (ih (hwell.supers _ hloc hold)) htakes).1]
  | keep hold he _ htakes ih =>
    obtain ⟨e', he', hslot⟩ := hexists hloc hold he
    rw [ih (hwell.supers _ hloc hold)] at hslot
    rw [he', (hslot.stays fun s' hs' => by
      cases hs'
      exact htakes).1]
  | @own loc i e hold he hlong =>
    obtain ⟨e', he', hslot⟩ := hexists hloc hold he
    have hsuper := hwell.supers loc hloc hold
    rw [← h.1.length_entries hsuper (h.2 _ hsuper)] at hlong
    rw [List.getElem?_eq_none hlong] at hslot
    rw [he', (hslot.stays fun s' hs' => nomatch hs').1]

lemma Finished.slot (h : Finished p st₀ st) (hwell : WellFormed p st₀) (hloc : loc ∈ p.vtableLocs)
    (hold : st₀.isPatched loc = false) {i : Nat} {s : Entry}
    (hs : (st.vtables (superOf st₀ loc)).entries[i]? = some s) :
    (Overrides p st₀ loc i s → TakesFrom st₀.fixups st.fixups (slotLoc loc i) s) ∧
      (¬Overrides p st₀ loc i s → SameSlot st₀.fixups st.fixups (slotLoc loc i)) := by
  have hdone := h.1.done loc hloc hold (h.2 loc hloc)
  have hlt := (List.getElem?_eq_some_iff.mp hs).1
  have hfirst := List.getElem?_eq_getElem (hlt.trans_le hdone.long)
  have hentry := List.getElem?_eq_getElem (hlt.trans_le (hdone.long.trans_eq hdone.length.symm))
  have hslot := hdone.slots i _ _ hfirst hentry
  have hlocation := (trackedEntries_location (hwell.tracked hloc hold) hfirst).1
  rw [hs] at hslot
  unfold Overrides slotLoc
  rw [← hlocation]
  constructor
  · intro htakes
    exact (hslot.takes s rfl htakes).2
  · intro hstays
    apply And.right
    apply hslot.stays
    intro s' hs'
    cases hs'
    exact hstays

/-- The run ends. An unpatched cycle is reported; and when nothing is reported, the vtables have what
they inherit unless a slot keeps authentication of its own. -/
theorem patchVTables_inherits_iff (hwell : WellFormed p st₀) :
    ∃ st, patchVTables p st₀ = some st ∧ (UnpatchedCycle p st₀ → st.diags ≠ []) ∧
      (st.diags = [] → (SlotsInherit p st₀ st ↔ NoOldAuth p st₀)) := by
  obtain ⟨st, hst, hend⟩ := patchVTables_finished hwell
  refine ⟨st, hst, ?_, ?_⟩
  · rintro ⟨loc, hloc, _, _, _, hcycle⟩
    refine hend.elim (fun herror => herror.1) fun hfinished => ?_
    obtain ⟨k, hk⟩ := hfinished.1.rooted loc hloc (hfinished.2 loc hloc)
    rw [hcycle k] at hk
    cases hk
  · intro hdiags
    have hfinished := hend.resolve_left fun herror => herror.1 hdiags
    constructor
    · intro hslots loc hloc hold i s hs hover hauth
      have hentry := hfinished.entry hwell hs (hwell.supers loc hloc hold)
      have htarget := (hslots loc hloc hold i s hentry).1 hover
      have htakes := (hfinished.slot hwell hloc hold hentry).1 hover
      have hkept := htakes.authData.symm.trans htarget.authData
      rw [hauth] at hkept
      exact hkept
    · intro hnoAuth loc hloc hold i s hs
      have hslot := hfinished.slot hwell hloc hold hs
      refine ⟨fun hover => ?_, hslot.2⟩
      obtain ⟨hword, hhas, hauth, hmissing⟩ := hslot.1 hover
      refine ⟨hword, hhas, ?_, hmissing⟩
      rw [hauth]
      split_ifs with hpointerAuth
      · rfl
      · exact hnoAuth loc hloc hold i s (hfinished.1.inherits _ (hwell.supers loc hloc hold) i s hs) hover
          (Bool.eq_false_iff.mpr hpointerAuth)

end Hierarchy

/-! ### Two classes -/

/-- A kext with a vtable of one slot below one of the kernel. The slot has authentication or not. -/
def twoFixups (auth : Option AslrTracker.AuthData) : Fixups where
  memory := fun _ => 0
  aslrTracker :=
    { regionStart := 4096
      regionEnd := 12288
      bitmap := fun i => i = 16 ∨ i = 4112
      pageCount := 2
      enabled := true
      high8Map := fun _ => none
      authDataMap := fun loc => if loc = 8208 then auth else none
      rebaseTarget32 := fun _ => none
      rebaseTarget64 := fun _ => none
      cacheLevels := fun _ => AslrTracker.noLevel }
  missingBindLocations := fun _ => none

def kernelVTable : VTable := ⟨1, 0, none, false, true, "__ZTV8OSObject", []⟩

def kextVTable : VTable :=
  ⟨2, 4096, some fun loc => if loc = 8208 then some "_old" else none, false, false, "__ZTV4Kext", []⟩

def twoClasses (auth : Option AslrTracker.AuthData) : State where
  fixups := twoFixups auth
  vtables := fun loc => if loc = 8192 then kextVTable else kernelVTable
  numPatchedVTables := 0
  diags := []

def twoPatcher : Patcher where
  vtableLocs := [4096, 8192]
  dylibs := [⟨1, 0, [(0, "_new")]⟩]
  existingCollectionFixupLocations := ⟨fun _ => none, 0, fun _ _ hfind => nomatch hfind⟩
  baseMetaClassVTableLoc := some 4096
  currentLevel := 0

section TwoClasses

variable (auth : Option AslrTracker.AuthData)

lemma trackedEntries_one {f : Fixups} {currentLevel : UInt8} {loc : Nat} {e : Entry}
    (henabled : f.aslrTracker.enabled = true) (hend : loc + pointerSize < f.aslrTracker.regionEnd)
    (hslot : f.isSlot loc = some true) (he : f.entry currentLevel loc = some e)
    (hlast : f.isSlot (loc + pointerSize) = some false) :
    f.trackedEntries currentLevel loc = some [e] := by
  rw [Fixups.trackedEntries, if_pos ⟨henabled, by omega⟩, hslot, Option.bind_some, if_pos rfl, he,
    Option.bind_some, Fixups.trackedEntries, if_pos ⟨henabled, hend⟩, hlast, Option.bind_some,
    if_neg Bool.false_ne_true, Option.map_some]

def kernelEntry : Entry := ⟨4112, 0, 0, 0, false, 0, false⟩

def kextEntry : Entry :=
  ⟨8208, 0, 0, (auth.map (·.diversity)).getD 0, (auth.map (·.addrDiv)).getD false, (auth.map (·.key)).getD 0,
    auth.isSome⟩

lemma has_two {loc : Nat} (hlow : 4096 ≤ loc) (hhigh : loc < 12288) (level : Option UInt8) :
    (twoFixups auth).aslrTracker.has loc level = some (decide (loc = 4112 ∨ loc = 8208), level) := by
  have hentry : (twoFixups auth).aslrTracker.entry loc = some (loc - 4096) := by
    simp [AslrTracker.entry, AslrTracker.entryCount, AslrTracker.pageSize, AslrTracker.kMinimumFixupAlignment,
      twoFixups]
    omega
  have hslot : (loc - 4096 = 16 ∨ loc - 4096 = 4112) ↔ (loc = 4112 ∨ loc = 8208) := by omega
  rw [AslrTracker.has_of_entry rfl hentry]
  dsimp only [twoFixups]
  simp only [hslot, decide_eq_true_eq, ne_eq, not_true_eq_false, if_false, Option.map_id']
  by_cases h : loc = 4112 ∨ loc = 8208 <;> simp [h]

lemma isSlot_two {loc : Nat} (hlow : 4096 ≤ loc) (hhigh : loc < 12288) :
    (twoFixups auth).isSlot loc = some (decide (loc = 4112 ∨ loc = 8208)) := by
  rw [Fixups.isSlot, has_two auth hlow hhigh]
  simp [twoFixups]

lemma targetVMAddr_two (loc : Nat) : (twoFixups auth).targetVMAddr loc = 0 := by
  have hload : load pointerSize (twoFixups auth).memory loc = 0 := by
    simp [load, loadNat, pointerSize, twoFixups]
  simp only [Fixups.targetVMAddr, hload]
  rfl

lemma calculate_kernel : calculateVTableEntries twoPatcher (twoClasses auth).fixups 4096
    ((twoClasses auth).vtables 4096) = some [kernelEntry] := by
  apply trackedEntries_one rfl (show 4120 < 12288 by decide) (isSlot_two auth (by decide) (by decide)) _
    (isSlot_two auth (by decide) (by decide))
  rw [twoClasses, Fixups.entry, has_two auth (by decide) (by decide), targetVMAddr_two]
  rfl

lemma calculate_kext : calculateVTableEntries twoPatcher (twoClasses auth).fixups 8192
    ((twoClasses auth).vtables 8192) = some [kextEntry auth] := by
  apply trackedEntries_one rfl (show 8216 < 12288 by decide) (isSlot_two auth (by decide) (by decide)) _
    (isSlot_two auth (by decide) (by decide))
  rw [twoClasses, Fixups.entry, has_two auth (by decide) (by decide), targetVMAddr_two]
  rfl

lemma firstEntries_kernel : firstEntries twoPatcher (twoClasses auth) 4096 = [kernelEntry] := by
  rw [firstEntries, calculate_kernel, Option.getD_some]

lemma firstEntries_kext : firstEntries twoPatcher (twoClasses auth) 8192 = [kextEntry auth] := by
  rw [firstEntries, calculate_kext, Option.getD_some]

lemma mem_two {loc : Nat} (h : loc ∈ twoPatcher.vtableLocs) : loc = 4096 ∨ loc = 8192 := by
  simpa [twoPatcher] using h

lemma eq_kext_of_waiting {loc : Nat} (h : loc ∈ twoPatcher.vtableLocs)
    (hwait : (twoClasses auth).isPatched loc = false) : loc = 8192 := by
  apply (mem_two h).resolve_left
  rintro rfl
  cases hwait

lemma wellFormed_two : WellFormed twoPatcher (twoClasses auth) where
  nodup := by decide
  noEntries := by
    intro loc
    dsimp only [twoClasses]
    split_ifs <;> rfl
  noDiags := rfl
  enabled := rfl
  supers := by
    intro loc hloc hwait
    rw [eq_kext_of_waiting auth hloc hwait]
    exact List.mem_cons_self ..
  dylibs := by
    intro loc hloc hwait
    rw [eq_kext_of_waiting auth hloc hwait]
    exact Option.some_ne_none _
  built := by
    intro loc hloc hwait
    rw [eq_kext_of_waiting auth hloc hwait]
    rfl
  entries := by
    intro loc hloc
    rcases mem_two hloc with rfl | rfl
    · rw [calculate_kernel]
      exact Option.some_ne_none _
    · rw [calculate_kext]
      exact Option.some_ne_none _
  levels := by
    intro loc hloc e he
    rcases mem_two hloc with rfl | rfl
    · rw [firstEntries_kernel, List.mem_singleton] at he
      rw [he]
      decide
    · rw [firstEntries_kext, List.mem_singleton] at he
      rw [he]
      exact Nat.zero_lt_succ 3
  apart := by
    intro loc hloc loc' hloc' hne e he e' he'
    rcases mem_two hloc with rfl | rfl <;> rcases mem_two hloc' with rfl | rfl
    · exact absurd rfl hne
    · rw [firstEntries_kernel, List.mem_singleton] at he
      rw [firstEntries_kext, List.mem_singleton] at he'
      rw [he, he']
      exact Or.inl (show 4112 + 8 ≤ 8208 by decide)
    · rw [firstEntries_kext, List.mem_singleton] at he
      rw [firstEntries_kernel, List.mem_singleton] at he'
      rw [he, he']
      exact Or.inr (show 4112 + 8 ≤ 8208 by decide)
    · exact absurd rfl hne

lemma overrides_two : Overrides twoPatcher (twoClasses auth) 8192 0 kernelEntry := by
  refine ⟨"_old", rfl, by decide, "_new", rfl, Or.inl (by decide)⟩

lemma finished_two : ∃ st, patchVTables twoPatcher (twoClasses auth) = some st ∧
    Finished twoPatcher (twoClasses auth) st := by
  obtain ⟨st, hst, hend⟩ := patchVTables_finished (wellFormed_two auth)
  refine ⟨st, hst, hend.resolve_left ?_⟩
  rintro ⟨-, hbase | ⟨loc, hloc, hwait, hless⟩ | ⟨loc, hloc, hnone⟩⟩
  · cases hbase
  · rw [eq_kext_of_waiting auth hloc hwait, firstEntries_kext] at hless
    change 1 < (firstEntries twoPatcher (twoClasses auth) 4096).length at hless
    rw [firstEntries_kernel] at hless
    exact absurd hless (by decide)
  · rw [eq_kext_of_waiting auth hloc (hnone 0)] at hnone
    cases hnone 1

/-- Without authentication the kext inherits the slot of the kernel. -/
theorem patchVTables_inherits_two : ∃ st, patchVTables twoPatcher (twoClasses none) = some st ∧
    st.diags = [] ∧ SlotsInherit twoPatcher (twoClasses none) st := by
  obtain ⟨st, hst, -, hinherits⟩ := patchVTables_inherits_iff (wellFormed_two none)
  obtain ⟨st', hst', hfinished⟩ := finished_two none
  cases hst.symm.trans hst'
  refine ⟨st, hst, hfinished.1.noDiags, (hinherits hfinished.1.noDiags).mpr ?_⟩
  intro loc _ _ i s _ _ _
  exact ite_self _

/-- The slot of the kext has authentication, the one of the kernel has none, and the target of the kernel
is signed with the old authentication in the end. -/
theorem patchVTables_keeps_auth : WellFormed twoPatcher (twoClasses (some ⟨7, true, 0⟩)) ∧
    ∃ st, patchVTables twoPatcher (twoClasses (some ⟨7, true, 0⟩)) = some st ∧ st.diags = [] ∧
      ¬SlotsInherit twoPatcher (twoClasses (some ⟨7, true, 0⟩)) st := by
  refine ⟨wellFormed_two _, ?_⟩
  obtain ⟨st, hst, hfinished⟩ := finished_two (some ⟨7, true, 0⟩)
  refine ⟨st, hst, hfinished.1.noDiags, fun hslots => ?_⟩
  have hwell := wellFormed_two (some ⟨7, true, 0⟩)
  have hkext : 8192 ∈ twoPatcher.vtableLocs := by decide
  have hkernel : (st.vtables 4096).entries[0]? = some kernelEntry := by
    rw [hfinished.1.root 4096 (by decide) rfl, firstEntries_kernel]
    rfl
  have htarget := (hslots 8192 hkext rfl 0 kernelEntry hkernel).1 (overrides_two _)
  have htakes := (hfinished.slot hwell hkext rfl hkernel).1 (overrides_two _)
  have hauth := htakes.authData.symm.trans htarget.authData
  cases hauth

end TwoClasses

end VTablePatcher

end Dyld.Cache
