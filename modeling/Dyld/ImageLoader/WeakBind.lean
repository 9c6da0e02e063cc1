import Dyld.Lib.SortedCursors
import Dyld.ImageLoader.CoalIterator

/-!
# Weak binding at launch

`ImageLoader::weakBind` and `weakBindOld` keep one iterator for each image and only ever increment
the one with the lowest symbol. When the lowest symbol is marked as one that another iterator is at
too, all images that have it get the same definition.
-/

namespace Dyld.ImageLoader

open Dyld.Lib

inductive Effect (n : Nat)
  | bindLocation (image : Fin n) (location : WeakLocation) (value : UInt64)
  | addDynamicReference (image target : Fin n)
  | insertWeakDef (name : List UInt8) (target : Fin n) (value : UInt64)
  deriving DecidableEq

/-- What `strcmp` compares. -/
def nameKey (name : List UInt8) : List Nat := name.map UInt8.toNat

structure WeakBindState (n : Nat) where
  iterators : Fin n → CoalIterator
  sortedIts : List (Fin n)
  doneCount : Nat
  effects : List (Effect n)

section Code

variable {n : Nat} (images : Fin n → WeakImage) (useNewWeakBind : Bool)

def pickTarget (iterators : Fin n → CoalIterator) (name : List UInt8) :
    List (Fin n) → UInt64 × Option (Fin n) → UInt64 × Option (Fin n)
  | [], target => target
  | i :: is, target =>
    if (iterators i).symbolName = name then
      let targetAddr := (images i).exportedAddress (iterators i).symbolName
      if (iterators i).weakSymbol then
        if target.1 = 0 then
          pickTarget iterators name is (targetAddr, if targetAddr ≠ 0 then some i else target.2)
        else pickTarget iterators name is target
      else if targetAddr ≠ 0 then (targetAddr, some i)
      else pickTarget iterators name is (targetAddr, target.2)
    else pickTarget iterators name is target

/-- What one call of `updateUsesCoalIterator` does. -/
def usesEffects (i target : Fin n) (value : UInt64) (locations : List WeakLocation) :
    List (Effect n) :=
  locations.map (fun location => .bindLocation i location value) ++
    if locations ≠ [] ∧ target ≠ i then [.addDynamicReference i target] else []

def setMatches (symbolMatches : Bool) (i : Fin n) (iterators : Fin n → CoalIterator) :
    Fin n → CoalIterator :=
  Function.update iterators i { iterators i with symbolMatches := symbolMatches }

def bindUses (name : List UInt8) (target : Fin n) (value : UInt64) :
    List (Fin n) → WeakBindState n → Except WeakBindError (WeakBindState n)
  | [], s => .ok s
  | i :: is, s =>
    if (s.iterators i).symbolName = name then
      let iterators := setMatches false i s.iterators
      if (images i).weakSymbolsBound then bindUses name target value is { s with iterators := iterators }
      else
        (updateUsesCoalIterator (images i) (s.iterators i)).bind fun locations =>
          bindUses name target value is
            { s with iterators := iterators
                     effects := s.effects ++ usesEffects i target value locations }
    else bindUses name target value is s

/-- Processes all iterators that are at a symbol. -/
def coalesce (name : List UInt8) (s : WeakBindState n) : Except WeakBindError (WeakBindState n) :=
  match pickTarget images s.iterators name (List.finRange n) (0, none) with
  | (_, none) => .ok s
  | (value, some target) =>
    if value ≠ 0 then
      (bindUses images name target value (List.finRange n) s).bind fun s =>
        if useNewWeakBind && (images target).neverUnload then
          .ok { s with effects := s.effects ++ [.insertWeakDef name target value] }
        else .ok s
    else .ok s

def processLowest (s : WeakBindState n) : Except WeakBindError (WeakBindState n) :=
  match s.sortedIts with
  | [] => .ok s
  | x :: _ =>
    if (s.iterators x).symbolMatches && !(s.iterators x).done then
      coalesce images useNewWeakBind (s.iterators x).symbolName s
    else .ok s

def weakBindTurn (s : WeakBindState n) : Except WeakBindError (WeakBindState n) :=
  match s.sortedIts with
  | [] => .ok s
  | x :: rest =>
    (incrementCoalIterator (images x) (s.iterators x)).bind fun r =>
      let iterators := Function.update s.iterators x r.1
      let sorted := resort (fun i => nameKey (iterators i).symbolName) (setMatches true) x rest iterators
      processLowest images useNewWeakBind
        { s with iterators := sorted.2
                 sortedIts := sorted.1
                 doneCount := if r.2 then s.doneCount + 1 else s.doneCount }

/-- `while ( doneCount != count )`. -/
def weakBindLoop : Nat → WeakBindState n → Option (Except WeakBindError (WeakBindState n))
  | fuel, s =>
    if s.doneCount = n then some (.ok s)
    else
      match fuel with
      | 0 => none
      | fuel + 1 =>
        match weakBindTurn images useNewWeakBind s with
        | .error e => some (.error e)
        | .ok s => weakBindLoop fuel s

def initialWeakBind : WeakBindState n where
  iterators := fun i => initializeCoalIterator (images i) i
  sortedIts := List.finRange n
  doneCount := 0
  effects := []

def weakBind (fuel : Nat) : Option (Except WeakBindError (List (Effect n) × (Fin n → WeakImage))) :=
  let countNotYetWeakBound := (List.finRange n).countP fun i => !(images i).weakSymbolsBound
  let countNotInSharedCache := (List.finRange n).countP fun i => !(images i).inSharedCache
  if 0 < countNotInSharedCache ∧ 0 < countNotYetWeakBound then
    (weakBindLoop images useNewWeakBind fuel (initialWeakBind images)).map fun r =>
      r.map fun s => (s.effects, fun i => { images i with weakSymbolsBound := true })
  else some (.ok ([], images))

end Code

/-! ### What weak binding is for -/

section Spec

variable {n : Nat} (images : Fin n → WeakImage) (symbols : Fin n → List WeakSymbol)

/-- The images that have a symbol, in load order. -/
def holders (name : List UInt8) : List (Fin n) :=
  (List.finRange n).filter fun i => (symbols i).any fun s => s.name = name

def symbolNamed (name : List UInt8) (i : Fin n) : Option WeakSymbol :=
  (symbols i).find? fun s => s.name = name

/-- The first image in load order with a definition that is not weak, or else the first one that
exports the symbol. -/
def definition (name : List UInt8) : Option (Fin n) :=
  ((holders symbols name).find? fun i => (symbolNamed symbols name i).any fun s => !s.weakDef).or
    ((holders symbols name).find? fun i => (images i).exportedAddress name ≠ 0)

def coalesced (useNewWeakBind : Bool) (name : List UInt8) : List (Effect n) :=
  match definition images symbols name with
  | none => []
  | some target =>
    let value := (images target).exportedAddress name
    ((holders symbols name).flatMap fun i =>
      if (images i).weakSymbolsBound then []
      else usesEffects i target value
        (if (images i).stateBound then ((symbolNamed symbols name i).map (·.locations)).getD [] else [])) ++
      if useNewWeakBind && (images target).neverUnload then [.insertWeakDef name target value] else []

/-- The names that at least two images have, in order. -/
def sharedNames : List (List UInt8) :=
  ((((List.finRange n).flatMap fun i => (symbols i).map (·.name)).dedup).filter
    fun name => 2 ≤ (holders symbols name).length).mergeSort fun a b => decide (nameKey a ≤ nameKey b)

/-- The weak bind info of each image lists its symbols in order, after the start name of the
iterators, and an image that is listed as having a non-weak definition exports it. -/
structure Listed : Prop where
  hasSymbols : ∀ i, (images i).HasSymbols (symbols i)
  sorted : ∀ i, (symbols i).Pairwise fun a b => nameKey a.name < nameKey b.name
  first : ∀ i, ∀ s ∈ symbols i, nameKey [32] < nameKey s.name
  strong : ∀ i, ∀ s ∈ symbols i, s.weakDef = false → (images i).exportedAddress s.name ≠ 0

end Spec

/-! ### Names -/

lemma nameKey_injective : Function.Injective nameKey :=
  List.map_injective_iff.mpr (fun _ _ h => UInt8.toNat_inj.mp h)

section Symbols

variable {n : Nat} {symbols : Fin n → List WeakSymbol}

lemma mem_holders {name : List UInt8} {i : Fin n} :
    i ∈ holders symbols name ↔ ∃ s ∈ symbols i, s.name = name := by
  simp [holders]

lemma mem_sharedNames {name : List UInt8} :
    name ∈ sharedNames symbols ↔ 2 ≤ (holders symbols name).length := by
  rw [sharedNames, (List.mergeSort_perm _ _).mem_iff, List.mem_filter, List.mem_dedup, List.mem_flatMap]
  simp only [List.mem_finRange, true_and, List.mem_map, decide_eq_true_eq, and_iff_right_iff_imp]
  intro hlen
  obtain ⟨i, hi⟩ := List.exists_mem_of_length_pos (l := holders symbols name) (by omega)
  obtain ⟨s, hs, hname⟩ := mem_holders.mp hi
  exact ⟨i, s, hs, hname⟩

lemma pairwise_sharedNames :
    (sharedNames symbols).Pairwise fun a b => nameKey a < nameKey b := by
  have hle : (sharedNames symbols).Pairwise fun a b => nameKey a ≤ nameKey b := by
    have hsorted := @List.pairwise_mergeSort _ (fun a b => decide (nameKey a ≤ nameKey b))
      (fun a b c hab hbc => decide_eq_true ((of_decide_eq_true hab).trans (of_decide_eq_true hbc)))
      (fun a b => by simpa using le_total (nameKey a) (nameKey b))
      ((((List.finRange n).flatMap fun i => (symbols i).map (·.name)).dedup).filter
        fun name => 2 ≤ (holders symbols name).length)
    exact hsorted.imp (fun h => of_decide_eq_true h)
  have hnodup : (sharedNames symbols).Nodup := by
    rw [sharedNames, (List.mergeSort_perm _ _).nodup_iff]
    exact (List.nodup_dedup _).filter _
  exact (hle.and hnodup).imp (fun h => lt_of_le_of_ne h.1 (fun heq => h.2 (nameKey_injective heq)))

lemma eq_of_nameKey_eq {l : List WeakSymbol} (h : l.Pairwise fun a b => nameKey a.name < nameKey b.name)
    {a b : WeakSymbol} (ha : a ∈ l) (hb : b ∈ l) (hname : a.name = b.name) : a = b := by
  induction l with
  | nil => exact absurd ha List.not_mem_nil
  | cons c l ih =>
    obtain ⟨hc, hl⟩ := List.pairwise_cons.mp h
    rcases List.mem_cons.mp ha with rfl | ha'
    · rcases List.mem_cons.mp hb with rfl | hb'
      · rfl
      · exact absurd (congrArg nameKey hname) (hc b hb').ne
    · rcases List.mem_cons.mp hb with rfl | hb'
      · exact absurd (congrArg nameKey hname) (hc a ha').ne'
      · exact ih hl ha' hb'

lemma symbolNamed_of_mem {i : Fin n} (h : (symbols i).Pairwise fun a b => nameKey a.name < nameKey b.name)
    {s : WeakSymbol} (hs : s ∈ symbols i) : symbolNamed symbols s.name i = some s := by
  unfold symbolNamed
  cases hfind : (symbols i).find? fun t => t.name = s.name with
  | none => exact absurd (List.find?_eq_none.mp hfind s hs) (by simp)
  | some t =>
    have hname : t.name = s.name := by simpa using List.find?_some hfind
    exact congrArg some (eq_of_nameKey_eq h (List.mem_of_find?_eq_some hfind) hs hname)

end Symbols

end Dyld.ImageLoader
