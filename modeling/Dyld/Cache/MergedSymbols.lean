import Dyld.Cache.MergedLinkedit

/-!
# The symbols of a merged LINKEDIT

What a reader of the merged LINKEDIT finds through the load commands of a dylib. The symbols are those
that were kept, in order. An entry of the indirect symbol table is right when its symbol was kept, or
when it is one of the two flags alone.
-/

namespace Dyld.Cache

open Dyld.Lib

structure NamedSymbol where
  type : BitVec 8
  sect : BitVec 8
  desc : BitVec 16
  value : BitVec 64
  name : List UInt8
  deriving DecidableEq, Repr

def Nlist.named (s : Nlist 64) (name : List UInt8) : NamedSymbol :=
  ⟨s.n_type, s.n_sect, s.n_desc, s.n_value, name⟩

/-! ### Kept symbols -/

section Kept

variable (d : LinkeditInput)

def keepLocal (redact : Bool) (entry : Nlist 64) : Option NamedSymbol :=
  if isSect entry = false then none
  else if isStab entry = true then none
  else if redact then (if entry.n_sect = 1 then some (entry.named redacted) else none)
  else some (entry.named (d.name entry))

def LinkeditInput.keptLocals (redact : Bool) : List NamedSymbol :=
  ((localEntries d).getD []).filterMap (keepLocal d redact)

def LinkeditInput.namedBy (keep : Nlist 64 → Bool) (entries : List (Nlist 64)) : List NamedSymbol :=
  (entries.filter keep).map (fun entry => entry.named (d.name entry))

def LinkeditInput.keptExported : List NamedSymbol :=
  d.namedBy (keepExported d) ((exportedEntries d).getD (0, [])).2

def LinkeditInput.keptImported : List NamedSymbol :=
  d.namedBy isUndefined ((importedEntries d).getD (0, [])).2

/-- The symbols of a dylib in the merged LINKEDIT. -/
def LinkeditInput.kept (redact : Bool) : List NamedSymbol :=
  d.keptLocals redact ++ d.keptExported ++ d.keptImported

end Kept

/-! ### What the shared table stands for -/

/-- The shared table and its pool stand for a list of named symbols. The list has less than `2 ^ 32`
symbols, so that the index counts them. -/
structure Represents (c : SymbolCopy) (l : List NamedSymbol) : Prop where
  symbols : List.Forall₂ (fun s v => s.named v.name = v) c.symbols l
  index : c.symbolIndex = l.length
  registered : ∀ n r, Registered c.stringPool n r ↔ r.2 = false ∧ ∃ v, l[r.1]? = some v ∧ v.name = n
  proper : ProperNames c.stringPool
  sorted : SortedNames c.stringPool
  names : ∀ n, n ∈ c.stringPool.map (·.name) ↔ n ∈ l.map (·.name)

section Represents

variable {c : SymbolCopy} {l : List NamedSymbol}

lemma represents_nil : Represents {} [] :=
  ⟨.nil, rfl, by simp [Registered], by simp [ProperNames], .nil, by simp⟩

lemma Represents.append (h : Represents c l) (entry : Nlist 64) {name : List UInt8} (hname : 0 ∉ name)
    (hcount : (l ++ [entry.named name]).length < 2 ^ 32) :
    Represents (c.append entry name) (l ++ [entry.named name]) := by
  rw [List.length_append, List.length_singleton] at hcount
  refine ⟨?_, ?_, ?_, properNames_pushBack hname h.proper, sortedNames_pushBack h.sorted, ?_⟩
  · exact List.rel_append h.symbols (.cons rfl .nil)
  · rw [SymbolCopy.append, List.length_append, List.length_singleton, h.index,
      Nat.mod_eq_of_lt hcount]
  · rintro n ⟨j, b⟩
    simp only [SymbolCopy.append, poolAdd]
    rw [registered_pushBack, h.registered, h.index, List.getElem?_append]
    by_cases hj : j < l.length
    · simp only [hj, if_true, Prod.mk.injEq]
      constructor
      · rintro (⟨-, rfl, -⟩ | h)
        · omega
        · exact h
      · exact .inr
    · have hnone : l[j]? = none := List.getElem?_eq_none (by omega)
      simp only [hj, if_false, hnone, Prod.mk.injEq]
      constructor
      · rintro (⟨rfl, rfl, rfl⟩ | ⟨-, v, hv, -⟩)
        · exact ⟨rfl, entry.named n, by simp, rfl⟩
        · simp at hv
      · rintro ⟨rfl, v, hv, rfl⟩
        obtain ⟨hlt, rfl⟩ := List.getElem?_eq_some_iff.mp hv
        have hlen : j = l.length := by
          simp at hlt
          omega
        subst hlen
        exact .inl ⟨by simp [Nlist.named], rfl, rfl⟩
  · intro n
    rw [List.map_append, List.mem_append, ← h.names, or_comm]
    exact mem_names_pushBack.trans (by simp [Nlist.named])

/-- Only the shared table counts. -/
lemma Represents.congr (h : Represents c l) {c' : SymbolCopy} (hsymbols : c'.symbols = c.symbols)
    (hindex : c'.symbolIndex = c.symbolIndex) (hpool : c'.stringPool = c.stringPool) :
    Represents c' l :=
  ⟨hsymbols ▸ h.symbols, hindex ▸ h.index, hpool ▸ h.registered, hpool ▸ h.proper,
    hpool ▸ h.sorted, hpool ▸ h.names⟩

/-- The bytes of a pool with the names of some symbols. -/
def namesSize (l : List NamedSymbol) : Nat := 1 + ((l.map (·.name)).dedup.map (·.length + 1)).sum

lemma Represents.length_pool (h : Represents c l) :
    (copyPoolAndUpdateOffsets c.stringPool c.symbols).1.length = namesSize l := by
  rw [length_copyPoolAndUpdateOffsets, poolSize_eq h.sorted h.names, namesSize]

/-- The symbols that are written with the pool are the ones the table stands for. -/
theorem Represents.written (h : Represents c l) (hsize : namesSize l < 2 ^ 32) {j : Nat}
    {v : NamedSymbol} (hv : l[j]? = some v) :
    ∃ s, (copyPoolAndUpdateOffsets c.stringPool c.symbols).2[j]? = some s ∧
      s.named (cString (copyPoolAndUpdateOffsets c.stringPool c.symbols).1 s.n_strx) = v := by
  have hj : j < l.length := (List.getElem?_eq_some_iff.mp hv).1
  have hj' : j < c.symbols.length := by rw [h.symbols.length_eq]; exact hj
  have hs : c.symbols[j]? = some c.symbols[j] := List.getElem?_eq_getElem hj'
  have hmatch : c.symbols[j].named v.name = v := by
    have hget := h.symbols.get hj' hj
    rw [← (List.getElem?_eq_some_iff.mp hv).2]
    exact hget
  have hpool : (copyPool c.stringPool [0] c.symbols).1.length < 2 ^ 32 := h.length_pool ▸ hsize
  obtain ⟨x, hx, -, hread⟩ := copyPool_symbol h.proper
    (fun n r hr => ((h.registered n r).mp hr).1) [0] hpool hs
  have hname := hread v.name ((h.registered _ _).mpr ⟨rfl, v, hv, rfl⟩) (by
    intro n hn
    obtain ⟨-, v', hv', rfl⟩ := (h.registered _ _).mp hn
    rw [hv, Option.some.injEq] at hv'
    rw [hv'])
  refine ⟨_, hx, ?_⟩
  simp only [copyPoolAndUpdateOffsets]
  rw [hname]
  exact hmatch

end Represents

/-! ### Copying the symbols of a dylib -/

section Copy

variable {d : LinkeditInput} {redact : Bool} {c : SymbolCopy} {l : List NamedSymbol}

lemma length_lt_of_append {α : Type} {l more : List α} {n : Nat} (h : (l ++ more).length < n) :
    l.length < n := by
  rw [List.length_append] at h
  omega

lemma sub32_append {α : Type} {l more : List α} (h : (l ++ more).length < 2 ^ 32) :
    sub32 (l ++ more).length l.length = more.length := by
  rw [List.length_append] at h ⊢
  rw [sub32_of_le (Nat.le_add_right _ _) h, Nat.add_sub_cancel_left]

lemma zero_notMem_name (entry : Nlist 64) : 0 ∉ d.name entry := zero_notMem_cString _ _

lemma Represents.copyLocalSymbol (h : Represents c l) (d : LinkeditInput) (redact : Bool)
    (entry : Nlist 64) (hcount : (l ++ (keepLocal d redact entry).toList).length < 2 ^ 32) :
    Represents (copyLocalSymbol d redact c entry) (l ++ (keepLocal d redact entry).toList) := by
  revert hcount
  unfold Dyld.Cache.copyLocalSymbol keepLocal
  split_ifs <;> intro hcount
  · simpa using h
  · simpa using h
  · exact (h.append entry (by decide) hcount).congr rfl rfl rfl
  · have hsame : Represents (c.unmap d entry) l := h.congr rfl rfl rfl
    simpa using hsame
  · exact h.append entry (zero_notMem_name entry) hcount

lemma Represents.copyLocals (h : Represents c l) (d : LinkeditInput) (redact : Bool)
    (entries : List (Nlist 64)) (hcount : (l ++ entries.filterMap (keepLocal d redact)).length < 2 ^ 32) :
    Represents (entries.foldl (Dyld.Cache.copyLocalSymbol d redact) c)
      (l ++ entries.filterMap (keepLocal d redact)) := by
  induction entries generalizing c l with
  | nil => simpa using h
  | cons entry entries ih =>
    have hcons : l ++ (entry :: entries).filterMap (keepLocal d redact) =
        l ++ (keepLocal d redact entry).toList ++ entries.filterMap (keepLocal d redact) := by
      rw [List.filterMap_cons]
      cases keepLocal d redact entry with
      | none => simp
      | some v => simp
    rw [hcons] at hcount ⊢
    rw [List.foldl_cons]
    exact ih (h.copyLocalSymbol d redact entry (length_lt_of_append hcount)) hcount

lemma copyLocalSymbols_spec (d : LinkeditInput) (redact : Bool) (h : Represents c l)
    (hcount : (l ++ d.keptLocals redact).length < 2 ^ 32) (o : LinkeditIndexes) :
    Represents (copyLocalSymbols d redact c o).1 (l ++ d.keptLocals redact) ∧
    (copyLocalSymbols d redact c o).2 =
      { o with newLocalSymbolsStartIndex := l.length,
               newLocalSymbolCount := (d.keptLocals redact).length } := by
  revert hcount
  unfold copyLocalSymbols LinkeditInput.keptLocals
  cases localEntries d with
  | none =>
    intro _
    dsimp only
    rw [Option.getD_none, List.filterMap_nil, List.append_nil]
    exact ⟨h.congr rfl rfl rfl, by rw [h.index]; rfl⟩
  | some entries =>
    intro hcount
    rw [Option.getD_some] at hcount
    have hcopy := h.copyLocals d redact entries hcount
    refine ⟨hcopy.congr rfl rfl rfl, ?_⟩
    dsimp only
    rw [hcopy.index, h.index, sub32_append hcount]
    rfl

def NewIndex (d : LinkeditInput) (l : List NamedSymbol) (start : Nat) (entry : Nlist 64)
    (i : Option Nat) : Prop :=
  ∃ j, start ≤ j ∧ l[j]? = some (entry.named (d.name entry)) ∧ i = some (j - start)

lemma NewIndex.append {start : Nat} {entry : Nlist 64} {i : Option Nat} (h : NewIndex d l start entry i)
    (more : List NamedSymbol) : NewIndex d (l ++ more) start entry i := by
  obtain ⟨j, hj, hget, hi⟩ := h
  have hlt : j < l.length := (List.getElem?_eq_some_iff.mp hget).1
  exact ⟨j, hj, by rw [List.getElem?_append_left hlt, hget], hi⟩

section Kept

variable {keep : Nlist 64 → Bool}

lemma namedBy_cons_of_pos {entry : Nlist 64} {entries : List (Nlist 64)} (h : keep entry = true) :
    d.namedBy keep (entry :: entries) = entry.named (d.name entry) :: d.namedBy keep entries := by
  rw [LinkeditInput.namedBy, List.filter_cons_of_pos h]
  rfl

lemma namedBy_cons_of_neg {entry : Nlist 64} {entries : List (Nlist 64)} (h : ¬keep entry = true) :
    d.namedBy keep (entry :: entries) = d.namedBy keep entries := by
  rw [LinkeditInput.namedBy, List.filter_cons_of_neg h]
  rfl

lemma Represents.copyKept (h : Represents c l) (keep : Nlist 64 → Bool) (entries : List (Nlist 64))
    (hcount : (l ++ d.namedBy keep entries).length < 2 ^ 32) (old : Nat) (o : LinkeditIndexes) :
    Represents (copyKept d keep entries old c o).1 (l ++ d.namedBy keep entries) := by
  induction entries generalizing c l old o with
  | nil => simpa [Dyld.Cache.copyKept, LinkeditInput.namedBy] using h
  | cons entry entries ih =>
    rw [Dyld.Cache.copyKept]
    by_cases hkeep : keep entry = true
    · rw [namedBy_cons_of_pos hkeep, List.append_cons] at hcount ⊢
      have happend := h.append { entry with n_strx := 0 } (zero_notMem_name (d := d) entry)
        (length_lt_of_append hcount)
      rw [if_pos hkeep]
      exact ih happend hcount _ _
    · rw [namedBy_cons_of_neg hkeep] at hcount ⊢
      rw [if_neg hkeep]
      exact ih h hcount _ _

variable (d keep) in
/-- Only the map of indexes changes. -/
lemma copyKept_indexes (entries : List (Nlist 64)) (old : Nat) (c : SymbolCopy) (o : LinkeditIndexes) :
    (copyKept d keep entries old c o).2 =
      { o with oldToNewSymbolIndexes :=
          (copyKept d keep entries old c o).2.oldToNewSymbolIndexes } := by
  induction entries generalizing c old o with
  | nil => rfl
  | cons entry entries ih =>
    rw [copyKept]
    split_ifs
    · rw [ih]
      rfl
    · exact ih _ _ _

lemma copyKept_other {entries : List (Nlist 64)} {old : Nat} {o : LinkeditIndexes} {i : Nat}
    (hi : ∀ k entry, i = old + k → entries[k]? = some entry → keep entry = false) :
    (copyKept d keep entries old c o).2.oldToNewSymbolIndexes i = o.oldToNewSymbolIndexes i := by
  induction entries generalizing c old o with
  | nil => rfl
  | cons entry entries ih =>
    have hrest : ∀ k entry, i = old + 1 + k → entries[k]? = some entry → keep entry = false :=
      fun k entry hk hget => hi (k + 1) entry (by omega) (by simpa using hget)
    rw [copyKept]
    split_ifs with hkeep
    · have hne : i ≠ old := by
        intro heq
        have := hi 0 entry (by omega) rfl
        simp [this] at hkeep
      rw [ih hrest]
      simp [LinkeditIndexes.setNew, hne]
    · exact ih hrest

lemma copyKept_newIndex {entries : List (Nlist 64)} {old : Nat} (h : Represents c l) {o : LinkeditIndexes}
    (hstart : o.newLocalSymbolsStartIndex ≤ l.length)
    (hcount : (l ++ d.namedBy keep entries).length < 2 ^ 32) {i : Nat} {entry : Nlist 64}
    (hi : entries[i]? = some entry) (hkeep : keep entry = true) :
    NewIndex d (l ++ d.namedBy keep entries) o.newLocalSymbolsStartIndex entry
      ((copyKept d keep entries old c o).2.oldToNewSymbolIndexes (old + i)) := by
  induction entries generalizing c l old o i with
  | nil => simp at hi
  | cons e entries ih =>
    rw [copyKept]
    by_cases hkeep' : keep e = true
    · rw [namedBy_cons_of_pos hkeep'] at hcount ⊢
      have hcount' := hcount
      rw [List.append_cons] at hcount'
      have happend := h.append { e with n_strx := 0 } (zero_notMem_name (d := d) e)
        (length_lt_of_append hcount')
      rw [if_pos hkeep']
      cases i with
      | zero =>
        obtain rfl := Option.some.inj hi
        refine ⟨l.length, hstart, by simp, ?_⟩
        rw [copyKept_other (fun k _ hk => by omega), h.index,
          sub32_of_le hstart (length_lt_of_append hcount)]
        simp [LinkeditIndexes.setNew]
      | succ i =>
        rw [List.append_cons, show old + (i + 1) = old + 1 + i by omega]
        have hstart' : (o.setNew old
            (sub32 c.symbolIndex o.newLocalSymbolsStartIndex)).newLocalSymbolsStartIndex ≤
              (l ++ [e.named (d.name e)]).length := by
          simp only [List.length_append, LinkeditIndexes.setNew]
          omega
        exact ih happend hstart' hcount' (by simpa using hi)
    · rw [namedBy_cons_of_neg hkeep'] at hcount ⊢
      rw [if_neg hkeep']
      cases i with
      | zero =>
        obtain rfl := Option.some.inj hi
        exact absurd hkeep hkeep'
      | succ i =>
        rw [show old + (i + 1) = old + 1 + i by omega]
        exact ih h hstart hcount (by simpa using hi)

end Kept

/-- A symbol with its old index. -/
def EntryAt (entries : Option (Nat × List (Nlist 64))) (i : Nat) (entry : Nlist 64) : Prop :=
  ∃ start es k, entries = some (start, es) ∧ i = start + k ∧ es[k]? = some entry

structure Numbers (d : LinkeditInput) (l : List NamedSymbol) (start : Nat) (keep : Nlist 64 → Bool)
    (entries : Option (Nat × List (Nlist 64))) (f g : Nat → Option Nat) : Prop where
  kept : ∀ i entry, EntryAt entries i entry → keep entry = true → NewIndex d l start entry (g i)
  other : ∀ i, (∀ entry, EntryAt entries i entry → keep entry = false) → g i = f i

lemma numbers_copyKept (h : Represents c l) (keep : Nlist 64 → Bool)
    (entries : Option (Nat × List (Nlist 64))) {o : LinkeditIndexes}
    (hstart : o.newLocalSymbolsStartIndex ≤ l.length)
    (hcount : (l ++ d.namedBy keep (entries.getD (0, [])).2).length < 2 ^ 32) :
    Numbers d (l ++ d.namedBy keep (entries.getD (0, [])).2) o.newLocalSymbolsStartIndex keep entries
      o.oldToNewSymbolIndexes (copyKept d keep (entries.getD (0, [])).2 (entries.getD (0, [])).1 c
        o).2.oldToNewSymbolIndexes := by
  constructor
  · rintro i entry ⟨a, es, k, rfl, rfl, hget⟩ hkeep
    exact copyKept_newIndex h hstart hcount hget hkeep
  · intro i hi
    apply copyKept_other
    intro k entry hk hget
    cases entries with
    | none => simp at hget
    | some p => exact hi entry ⟨p.1, p.2, k, rfl, hk, hget⟩

lemma length_copyKept (h : Represents c l) (keep : Nlist 64 → Bool) (entries : List (Nlist 64)) (old : Nat)
    (o : LinkeditIndexes) (hcount : (l ++ d.namedBy keep entries).length < 2 ^ 32) :
    sub32 (copyKept d keep entries old c o).1.symbolIndex c.symbolIndex =
      (d.namedBy keep entries).length := by
  rw [(h.copyKept keep entries hcount old o).index, h.index, sub32_append hcount]

lemma copyExportedSymbols_spec (h : Represents c l) {o : LinkeditIndexes}
    (hstart : o.newLocalSymbolsStartIndex ≤ l.length)
    (hcount : (l ++ d.keptExported).length < 2 ^ 32) :
    Represents (copyExportedSymbols d c o).1 (l ++ d.keptExported) ∧
    (copyExportedSymbols d c o).2 =
      { o with newExportedSymbolsStartIndex := l.length,
               newExportedSymbolCount := d.keptExported.length,
               oldToNewSymbolIndexes := (copyExportedSymbols d c o).2.oldToNewSymbolIndexes } ∧
    Numbers d (l ++ d.keptExported) o.newLocalSymbolsStartIndex (keepExported d) (exportedEntries d)
      o.oldToNewSymbolIndexes (copyExportedSymbols d c o).2.oldToNewSymbolIndexes := by
  let start := { o with newExportedSymbolsStartIndex := c.symbolIndex, newExportedSymbolCount := 0 }
  let p := (exportedEntries d).getD (0, [])
  have hrepresents := h.copyKept (keepExported d) p.2 hcount p.1 start
  have hnumbers := numbers_copyKept h (keepExported d) (exportedEntries d) (o := start) hstart hcount
  have hlength := length_copyKept h (keepExported d) p.2 p.1 start hcount
  have hsame := copyKept_indexes d (keepExported d) p.2 p.1 c start
  generalize hr : copyKept d (keepExported d) p.2 p.1 c start = r at hrepresents hlength hsame
  have hrun : copyExportedSymbols d c o = (r.1, { start with
      newExportedSymbolCount := d.keptExported.length, oldToNewSymbolIndexes := r.2.oldToNewSymbolIndexes }) := by
    have hkept : _ = d.keptExported.length := hlength
    rw [← hkept]
    unfold copyExportedSymbols
    cases hp : exportedEntries d with
    | none =>
      subst hr
      have hlt : c.symbolIndex < 2 ^ 32 := by
        rw [List.length_append] at hcount
        rw [h.index]
        omega
      simp only [p, hp, Option.getD_none, copyKept, start, sub32_of_le le_rfl hlt, Nat.sub_self]
    | some q =>
      have hq : p = q := by simp only [p, hp, Option.getD_some]
      rw [hq] at hr
      dsimp only
      rw [hr, hsame]
  rw [hrun]
  refine ⟨hrepresents, ?_, hr ▸ hnumbers⟩
  rw [← h.index]

lemma copyImportedSymbols_spec (h : Represents c l) {o : LinkeditIndexes}
    (hstart : o.newLocalSymbolsStartIndex ≤ l.length)
    (hcount : (l ++ d.keptImported).length < 2 ^ 32) :
    Represents (copyImportedSymbols d c o).1 (l ++ d.keptImported) ∧
    (copyImportedSymbols d c o).2 =
      { o with newImportedSymbolsStartIndex := l.length,
               newImportedSymbolCount := d.keptImported.length,
               oldToNewSymbolIndexes := (copyImportedSymbols d c o).2.oldToNewSymbolIndexes } ∧
    Numbers d (l ++ d.keptImported) o.newLocalSymbolsStartIndex isUndefined (importedEntries d)
      o.oldToNewSymbolIndexes (copyImportedSymbols d c o).2.oldToNewSymbolIndexes := by
  let start := { o with newImportedSymbolsStartIndex := c.symbolIndex, newImportedSymbolCount := 0 }
  let p := (importedEntries d).getD (0, [])
  have hrepresents := h.copyKept isUndefined p.2 hcount p.1 start
  have hnumbers := numbers_copyKept h isUndefined (importedEntries d) (o := start) hstart hcount
  have hlength := length_copyKept h isUndefined p.2 p.1 start hcount
  have hsame := copyKept_indexes d isUndefined p.2 p.1 c start
  generalize hr : copyKept d isUndefined p.2 p.1 c start = r at hrepresents hlength hsame
  have hrun : copyImportedSymbols d c o = (r.1, { start with
      newImportedSymbolCount := d.keptImported.length, oldToNewSymbolIndexes := r.2.oldToNewSymbolIndexes }) := by
    have hkept : _ = d.keptImported.length := hlength
    rw [← hkept]
    unfold copyImportedSymbols
    cases hp : importedEntries d with
    | none =>
      subst hr
      have hlt : c.symbolIndex < 2 ^ 32 := by
        rw [List.length_append] at hcount
        rw [h.index]
        omega
      simp only [p, hp, Option.getD_none, copyKept, start, sub32_of_le le_rfl hlt, Nat.sub_self]
    | some q =>
      have hq : p = q := by simp only [p, hp, Option.getD_some]
      rw [hq] at hr
      dsimp only
      rw [hr, hsame]
  rw [hrun]
  refine ⟨hrepresents, ?_, hr ▸ hnumbers⟩
  rw [← h.index]

/-- The symbol with an old index is one of those that are copied from the table of the dylib. -/
def LinkeditInput.Kept (d : LinkeditInput) (i : Nat) (entry : Nlist 64) : Prop :=
  (EntryAt (exportedEntries d) i entry ∧ keepExported d entry = true) ∨
    (EntryAt (importedEntries d) i entry ∧ isUndefined entry = true)

lemma getElem?_of_slice {α : Type} {l : List α} {start count k : Nat} {x : α}
    (h : (slice l start count)[k]? = some x) : l[start + k]? = some x := by
  rw [slice, List.getElem?_take] at h
  split_ifs at h
  rwa [List.getElem?_drop] at h

lemma getElem?_of_exported {i : Nat} {entry : Nlist 64} (h : EntryAt (exportedEntries d) i entry) :
    d.symbols[i]? = some entry := by
  obtain ⟨a, es, k, hentries, rfl, hget⟩ := h
  unfold exportedEntries at hentries
  split at hentries
  · obtain ⟨t, -, ht⟩ := Option.map_eq_some_iff.mp hentries
    obtain ⟨rfl, rfl⟩ := Prod.mk.inj ht
    exact getElem?_of_slice hget
  · obtain ⟨t, -, ht⟩ := Option.map_eq_some_iff.mp hentries
    obtain ⟨rfl, rfl⟩ := Prod.mk.inj ht
    exact getElem?_of_slice hget
  · simp at hentries
  · simp at hentries

lemma getElem?_of_imported {i : Nat} {entry : Nlist 64} (h : EntryAt (importedEntries d) i entry) :
    d.symbols[i]? = some entry := by
  obtain ⟨a, es, k, hentries, rfl, hget⟩ := h
  unfold importedEntries at hentries
  split at hentries
  · obtain ⟨t, -, ht⟩ := Option.map_eq_some_iff.mp hentries
    obtain ⟨rfl, rfl⟩ := Prod.mk.inj ht
    exact getElem?_of_slice hget
  all_goals simp at hentries

lemma LinkeditInput.Kept.getElem? {i : Nat} {entry : Nlist 64} (h : d.Kept i entry) :
    d.symbols[i]? = some entry := by
  rcases h with ⟨hat, -⟩ | ⟨hat, -⟩
  · exact getElem?_of_exported hat
  · exact getElem?_of_imported hat

/-- A defined symbol is not undefined. -/
lemma isUndefined_of_keepExported {entry : Nlist 64} (h : keepExported d entry = true) :
    isUndefined entry = false := by
  simp only [keepExported, isSect, Bool.and_eq_true, beq_iff_eq] at h
  simp [isUndefined, h.1.1]

/-- What copying the symbols of a dylib does. -/
structure CopiesSymbols (d : LinkeditInput) (redact : Bool) (l : List NamedSymbol)
    (o : LinkeditIndexes) : Prop where
  localStart : o.newLocalSymbolsStartIndex = l.length
  localCount : o.newLocalSymbolCount = (d.keptLocals redact).length
  exportedStart : o.newExportedSymbolsStartIndex = l.length + (d.keptLocals redact).length
  exportedCount : o.newExportedSymbolCount = d.keptExported.length
  importedStart : o.newImportedSymbolsStartIndex =
    l.length + (d.keptLocals redact).length + d.keptExported.length
  importedCount : o.newImportedSymbolCount = d.keptImported.length
  kept : ∀ i entry, d.Kept i entry →
    NewIndex d (l ++ d.kept redact) l.length entry (o.oldToNewSymbolIndexes i)
  dropped : ∀ i, (∀ entry, ¬d.Kept i entry) → o.oldToNewSymbolIndexes i = none

theorem copySymbols_spec (d : LinkeditInput) (redact : Bool) (h : Represents c l)
    (hcount : (l ++ d.kept redact).length < 2 ^ 32) :
    Represents (copySymbols d redact c).1 (l ++ d.kept redact) ∧
      CopiesSymbols d redact l (copySymbols d redact c).2 := by
  have hkept : l ++ d.keptLocals redact ++ d.keptExported ++ d.keptImported = l ++ d.kept redact := by
    simp [LinkeditInput.kept]
  have hcount₃ := hkept ▸ hcount
  have hcount₂ := length_lt_of_append hcount₃
  obtain ⟨hlocal, hlocals⟩ := copyLocalSymbols_spec d redact h (length_lt_of_append hcount₂) {}
  set r₁ := copyLocalSymbols d redact c {} with hr₁
  have hstart₁ : r₁.2.newLocalSymbolsStartIndex ≤ (l ++ d.keptLocals redact).length := by
    rw [hlocals, List.length_append]
    exact Nat.le_add_right _ _
  obtain ⟨hexported, hexports, hnumbers₂⟩ := copyExportedSymbols_spec hlocal hstart₁ hcount₂
  set r₂ := copyExportedSymbols d r₁.1 r₁.2 with hr₂
  have hsame : r₂.2.newLocalSymbolsStartIndex = l.length := by
    rw [hexports, hlocals]
  have hstart₂ : r₂.2.newLocalSymbolsStartIndex ≤
      (l ++ d.keptLocals redact ++ d.keptExported).length := by
    rw [hsame, List.length_append, List.length_append]
    omega
  obtain ⟨himported, himports, hnumbers₃⟩ := copyImportedSymbols_spec hexported hstart₂ hcount₃
  have hresult : copySymbols d redact c = copyImportedSymbols d r₂.1 r₂.2 := rfl
  rw [← hresult] at himported himports hnumbers₃
  rw [hkept] at himported hnumbers₃
  refine ⟨himported, ?_⟩
  constructor
  · rw [himports, hsame]
  · rw [himports, hexports, hlocals]
  · rw [himports, hexports, List.length_append]
  · rw [himports, hexports]
  · rw [himports, List.length_append, List.length_append]
  · rw [himports]
  · rintro i entry (⟨hat, hkeep⟩ | ⟨hat, hkeep⟩)
    · have hnew := hnumbers₂.kept i entry hat hkeep
      have hother := hnumbers₃.other i (by
        intro entry' hat'
        have heq := (getElem?_of_imported hat').symm.trans (getElem?_of_exported hat)
        rw [Option.some.inj heq]
        exact isUndefined_of_keepExported hkeep)
      rw [hother, ← hkept]
      rw [hlocals] at hnew
      exact hnew.append _
    · have hnew := hnumbers₃.kept i entry hat hkeep
      rwa [hsame] at hnew
  · intro i hnone
    rw [hnumbers₃.other i, hnumbers₂.other i, hlocals]
    · intro entry hat
      by_contra hkeep
      exact hnone entry (.inl ⟨hat, by simpa using hkeep⟩)
    · intro entry hat
      by_contra hkeep
      exact hnone entry (.inr ⟨hat, by simpa using hkeep⟩)

/-- The symbols of all dylibs stand one behind the other. -/
theorem copyAllSymbols_spec (redact : Bool) (ds : List LinkeditInput) (h : Represents c l)
    (hcount : (l ++ ds.flatMap (·.kept redact)).length < 2 ^ 32) :
    Represents (copyAllSymbols redact ds c).1 (l ++ ds.flatMap (·.kept redact)) ∧
    (copyAllSymbols redact ds c).2.length = ds.length ∧
    ∀ k d, ds[k]? = some d → ∃ o, (copyAllSymbols redact ds c).2[k]? = some o ∧
      CopiesSymbols d redact (l ++ (ds.take k).flatMap (·.kept redact)) o := by
  induction ds generalizing c l with
  | nil => simpa [copyAllSymbols] using h
  | cons d ds ih =>
    have happend : l ++ d.kept redact ++ ds.flatMap (·.kept redact) =
        l ++ (d :: ds).flatMap (·.kept redact) := by simp
    rw [← happend] at hcount
    obtain ⟨hcopy, hcopies⟩ := copySymbols_spec d redact h (length_lt_of_append hcount)
    obtain ⟨hall, hlen, hget⟩ := ih hcopy hcount
    rw [happend] at hall
    refine ⟨hall, by simpa [copyAllSymbols] using hlen, ?_⟩
    intro k d' hd'
    cases k with
    | zero =>
      obtain rfl := Option.some.inj hd'
      refine ⟨(copySymbols d redact c).2, rfl, ?_⟩
      rwa [List.take_zero, List.flatMap_nil, List.append_nil]
    | succ k =>
      obtain ⟨o, ho, hcopies'⟩ := hget k d' (by simpa using hd')
      exact ⟨o, ho, by simpa using hcopies'⟩

end Copy

/-! ### Reading a merged LINKEDIT -/

namespace MergedLinkedit

variable (m : MergedLinkedit)

def symbolAt (offset : Nat) : Option (Nlist 64) :=
  let start := m.fileOffset + m.symbolsOffset
  if start ≤ offset ∧ (offset - start) % m.nlistSize = 0 then m.symbols[(offset - start) / m.nlistSize]?
  else none

def stringAt (offset : Nat) : List UInt8 := cString m.strings (offset - (m.fileOffset + m.stringsOffset))

/-- The entry of an indirect symbol table at an offset of the file. -/
def indirectAt (offset : Nat) : Option Nat :=
  let start := m.fileOffset + m.indirectOffset
  if start ≤ offset ∧ (offset - start) % 4 = 0 then m.indirect[(offset - start) / 4]? else none

/-- A symbol of a dylib, found through its load commands. -/
def readSymbol (cmd : SymbolCommands) (i : Nat) : Option NamedSymbol :=
  if i < cmd.nsyms then
    (m.symbolAt (cmd.symoff + i * m.nlistSize)).map
      (fun s => s.named (m.stringAt (cmd.stroff + s.n_strx)))
  else none

def readRange (cmd : SymbolCommands) (start count : Nat) : List (Option NamedSymbol) :=
  (List.range count).map (fun i => m.readSymbol cmd (start + i))

def readIndirect (cmd : SymbolCommands) (i : Nat) : Option Nat :=
  if i < cmd.nindirectsyms then m.indirectAt (cmd.indirectsymoff + 4 * i) else none

end MergedLinkedit

structure SymbolsPreserved (m : MergedLinkedit) (d : LinkeditInput) (redact : Bool)
    (cmd : SymbolCommands) : Prop where
  locals : m.readRange cmd cmd.ilocalsym cmd.nlocalsym = (d.keptLocals redact).map some
  exported : m.readRange cmd cmd.iextdefsym cmd.nextdefsym = d.keptExported.map some
  imported : m.readRange cmd cmd.iundefsym cmd.nundefsym = d.keptImported.map some
  all : m.readRange cmd 0 cmd.nsyms = (d.kept redact).map some

def carriesFlag (entry : Nat) : Bool :=
  entry &&& INDIRECT_SYMBOL_LOCAL ≠ 0 || entry &&& INDIRECT_SYMBOL_ABS ≠ 0

/-- The entries of the indirect symbol table of a dylib keep their flags or name a symbol of the same
name. -/
def IndirectPreserved (m : MergedLinkedit) (d : LinkeditInput) (cmd : SymbolCommands) : Prop :=
  ∀ i old, d.indirect[i]? = some old → ∃ new, m.readIndirect cmd i = some new ∧
    if carriesFlag old then new = old
    else ∀ s, d.symbols[old]? = some s → ∃ v, m.readSymbol cmd new = some v ∧ v.name = d.name s

section Merge

variable {ptrSize fileOffset : Nat} {redact : Bool} {dylibs : List LinkeditInput}

lemma getElem?_updateAllLoadCommands (fileOffset nlistSize symbolsOffset stringsOffset stringsSize start : Nat)
    {ps : List (LinkeditInput × LinkeditIndexes)} {k : Nat} {d : LinkeditInput}
    {o : LinkeditIndexes} (h : ps[k]? = some (d, o))
    (hend : start + 4 * (ps.flatMap (fun p => p.1.indirect.map (newIndirectEntry p.2))).length < 2 ^ 32) :
    (updateAllLoadCommands fileOffset nlistSize symbolsOffset stringsOffset stringsSize ps start)[k]? =
      some (updateLoadCommands fileOffset nlistSize symbolsOffset stringsOffset stringsSize
        (start + 4 * ((ps.take k).flatMap (fun p => p.1.indirect.map (newIndirectEntry p.2))).length)
        d o) := by
  induction ps generalizing start k with
  | nil => simp at h
  | cons p ps ih =>
    cases k with
    | zero =>
      obtain rfl := Option.some.inj h
      simp [updateAllLoadCommands]
    | succ k =>
      rw [List.flatMap_cons, List.length_append, List.length_map, Nat.mul_add, ← Nat.add_assoc] at hend
      have hstart : (start + 4 * p.1.indirect.length) % 2 ^ 32 = start + 4 * p.1.indirect.length :=
        Nat.mod_eq_of_lt (by omega)
      have hrest := @ih (start + 4 * p.1.indirect.length) k (by simpa using h) hend
      rw [updateAllLoadCommands, List.getElem?_cons_succ, hstart, hrest, List.take_succ_cons,
        List.flatMap_cons, List.length_append, List.length_map, Nat.mul_add, Nat.add_assoc]

/-- What the load commands of a dylib lead to: its symbols and the new entries of its indirect symbol
table. -/
structure Leads (m : MergedLinkedit) (d : LinkeditInput) (redact : Bool) (cmd : SymbolCommands)
    (o : LinkeditIndexes) : Prop where
  nsyms : cmd.nsyms = (d.kept redact).length
  nindirectsyms : cmd.nindirectsyms = d.indirect.length
  locals : cmd.ilocalsym = 0 ∧ cmd.nlocalsym = (d.keptLocals redact).length
  exported : cmd.iextdefsym = (d.keptLocals redact).length ∧ cmd.nextdefsym = d.keptExported.length
  imported : cmd.iundefsym = (d.keptLocals redact).length + d.keptExported.length ∧
    cmd.nundefsym = d.keptImported.length
  symbol : ∀ i, m.readSymbol cmd i = (d.kept redact)[i]?
  indirect : ∀ i, m.readIndirect cmd i = (d.indirect.map (newIndirectEntry o))[i]?
  kept : ∀ i entry, d.Kept i entry → ∃ j, (d.kept redact)[j]? = some (entry.named (d.name entry)) ∧
    o.oldToNewSymbolIndexes i = some j
  dropped : ∀ i, (∀ entry, ¬d.Kept i entry) → o.oldToNewSymbolIndexes i = none

lemma symbolAt_index (m : MergedLinkedit) (hsize : 0 < m.nlistSize) (a i : Nat) :
    m.symbolAt (m.fileOffset + m.symbolsOffset + a * m.nlistSize + i * m.nlistSize) =
      m.symbols[a + i]? := by
  have hsub : m.fileOffset + m.symbolsOffset + a * m.nlistSize + i * m.nlistSize -
      (m.fileOffset + m.symbolsOffset) = (a + i) * m.nlistSize := by
    rw [Nat.add_mul]
    omega
  unfold MergedLinkedit.symbolAt
  dsimp only
  rw [hsub, Nat.mul_mod_left, Nat.mul_div_cancel _ hsize, if_pos ⟨by omega, rfl⟩]

lemma indirectAt_index (m : MergedLinkedit) (a i : Nat) :
    m.indirectAt (m.fileOffset + (m.indirectOffset + 4 * a) + 4 * i) = m.indirect[a + i]? := by
  have hsub : m.fileOffset + (m.indirectOffset + 4 * a) + 4 * i - (m.fileOffset + m.indirectOffset) =
      (a + i) * 4 := by omega
  unfold MergedLinkedit.indirectAt
  dsimp only
  rw [hsub, Nat.mul_mod_left, Nat.mul_div_cancel _ (by norm_num), if_pos ⟨by omega, rfl⟩]

lemma stringAt_offset (m : MergedLinkedit) (x : Nat) :
    m.stringAt (m.fileOffset + m.stringsOffset + x) = cString m.strings x := by
  rw [MergedLinkedit.stringAt, Nat.add_sub_cancel_left]

/-- A symbol of a dylib, read through load commands that start at its part of the shared table. -/
lemma readSymbol_of_written {m : MergedLinkedit} {cmd : SymbolCommands} {c : SymbolCopy}
    {before kept after : List NamedSymbol} (hall : Represents c (before ++ kept ++ after))
    (hnames : namesSize (before ++ kept ++ after) < 2 ^ 32)
    (hwritten : copyPoolAndUpdateOffsets c.stringPool c.symbols = (m.strings, m.symbols))
    (hsize : 0 < m.nlistSize)
    (hsymoff : cmd.symoff = m.fileOffset + m.symbolsOffset + before.length * m.nlistSize)
    (hstroff : cmd.stroff = m.fileOffset + m.stringsOffset) (hnsyms : cmd.nsyms = kept.length) (i : Nat) :
    m.readSymbol cmd i = kept[i]? := by
  rw [MergedLinkedit.readSymbol, hnsyms]
  split_ifs with hi
  · have hget : (before ++ kept ++ after)[before.length + i]? = some kept[i] := by
      rw [List.append_assoc, List.getElem?_append_right (Nat.le_add_right _ _), Nat.add_sub_cancel_left,
        List.getElem?_append_left hi, List.getElem?_eq_getElem hi]
    obtain ⟨s, hs, hnamed⟩ := hall.written hnames hget
    rw [hwritten] at hs hnamed
    rw [hsymoff, symbolAt_index m hsize, hs, Option.map_some, hstroff, stringAt_offset, hnamed,
      List.getElem?_eq_getElem hi]
  · exact (List.getElem?_eq_none (by omega)).symm

lemma readIndirect_of_append {m : MergedLinkedit} {cmd : SymbolCommands} {before table after : List Nat}
    (hall : m.indirect = before ++ table ++ after)
    (hoff : cmd.indirectsymoff = m.fileOffset + (m.indirectOffset + 4 * before.length))
    (hcount : cmd.nindirectsyms = table.length) (i : Nat) : m.readIndirect cmd i = table[i]? := by
  rw [MergedLinkedit.readIndirect, hcount]
  split_ifs with hi
  · rw [hoff, indirectAt_index, hall, List.append_assoc,
      List.getElem?_append_right (Nat.le_add_right _ _), Nat.add_sub_cancel_left,
      List.getElem?_append_left hi]
  · exact (List.getElem?_eq_none (by omega)).symm

/-- The bytes of a merged LINKEDIT in front of its strings, before they are aligned. -/
def tablesSize (ptrSize : Nat) (redact : Bool) (dylibs : List LinkeditInput) : Nat :=
  (dylibs.map bytesBeforeSymbols).sum +
    (dylibs.flatMap (·.kept redact)).length * (8 + ptrSize) +
    (dylibs.map bytesAfterSymbols).sum + 4 * (dylibs.flatMap (·.indirect)).length

def mergedSize (ptrSize : Nat) (redact : Bool) (dylibs : List LinkeditInput) : Nat :=
  let tables := tablesSize ptrSize redact dylibs
  (if tables % ptrSize ≠ 0 then tables + 4 else tables) +
    namesSize (dylibs.flatMap (·.kept redact))

/-- The merged LINKEDIT ends less than 4 GiB into the cache file. -/
def MergedFits (ptrSize fileOffset : Nat) (redact : Bool) (dylibs : List LinkeditInput) : Prop :=
  fileOffset + mergedSize ptrSize redact dylibs < 2 ^ 32

instance (ptrSize fileOffset : Nat) (redact : Bool) (dylibs : List LinkeditInput) :
    Decidable (MergedFits ptrSize fileOffset redact dylibs) := inferInstanceAs (Decidable (_ < _))

structure LaidOut (ptrSize fileOffset : Nat) (redact : Bool) (dylibs : List LinkeditInput)
    (m : MergedLinkedit) : Prop where
  fileOffset : m.fileOffset = fileOffset
  nlistSize : m.nlistSize = 8 + ptrSize
  written : copyPoolAndUpdateOffsets (copyAllSymbols redact dylibs {}).1.stringPool
    (copyAllSymbols redact dylibs {}).1.symbols = (m.strings, m.symbols)
  indirect : m.indirect = (dylibs.zip (copyAllSymbols redact dylibs {}).2).flatMap
    (fun p => p.1.indirect.map (newIndirectEntry p.2))
  commands : m.commands = updateAllLoadCommands m.fileOffset m.nlistSize m.symbolsOffset
    m.stringsOffset (m.strings.length % 2 ^ 32) (dylibs.zip (copyAllSymbols redact dylibs {}).2)
    m.indirectOffset
  symbols_end : m.symbolsOffset + (dylibs.flatMap (·.kept redact)).length * m.nlistSize ≤
    m.indirectOffset
  indirect_end : m.fileOffset + m.indirectOffset + 4 * m.indirect.length < 2 ^ 32
  strings_end : m.fileOffset + m.stringsOffset + namesSize (dylibs.flatMap (·.kept redact)) < 2 ^ 32

section Layout

variable (h : MergedFits ptrSize fileOffset redact dylibs)
include h

lemma MergedFits.tables_lt : fileOffset + tablesSize ptrSize redact dylibs +
    namesSize (dylibs.flatMap (·.kept redact)) < 2 ^ 32 := by
  have hsize : fileOffset + mergedSize ptrSize redact dylibs < 2 ^ 32 := h
  rw [mergedSize] at hsize
  split_ifs at hsize
  · omega
  · omega

lemma MergedFits.count_lt : (dylibs.flatMap (·.kept redact)).length < 2 ^ 32 := by
  have hsize := h.tables_lt
  have hle : (dylibs.flatMap (·.kept redact)).length ≤
      (dylibs.flatMap (·.kept redact)).length * (8 + ptrSize) := Nat.le_mul_of_pos_right _ (by omega)
  rw [tablesSize] at hsize
  omega

lemma MergedFits.represents :
    Represents (copyAllSymbols redact dylibs {}).1 (dylibs.flatMap (·.kept redact)) := by
  simpa using (copyAllSymbols_spec redact dylibs represents_nil (by simpa using h.count_lt)).1

lemma MergedFits.copied {k : Nat} {d : LinkeditInput} (hd : dylibs[k]? = some d) :
    ∃ o, (copyAllSymbols redact dylibs {}).2[k]? = some o ∧
      CopiesSymbols d redact ((dylibs.take k).flatMap (·.kept redact)) o := by
  simpa using (copyAllSymbols_spec redact dylibs represents_nil (by simpa using h.count_lt)).2.2 k d hd

lemma MergedFits.length_indirect :
    ((dylibs.zip (copyAllSymbols redact dylibs {}).2).flatMap
      (fun p => p.1.indirect.map (newIndirectEntry p.2))).length =
        (dylibs.flatMap (·.indirect)).length := by
  have hlen := (copyAllSymbols_spec redact dylibs represents_nil (by simpa using h.count_lt)).2.1
  have hfst : (dylibs.zip (copyAllSymbols redact dylibs {}).2).map Prod.fst = dylibs :=
    List.map_fst_zip hlen.ge
  conv_rhs => rw [← hfst]
  simp [List.length_flatMap, Function.comp_def]

/-- No 32-bit offset wraps. -/
theorem MergedFits.laidOut :
    LaidOut ptrSize fileOffset redact dylibs (mergeLinkedits ptrSize fileOffset redact dylibs) := by
  have hcount : (copyAllSymbols redact dylibs {}).1.symbols.length =
      (dylibs.flatMap (·.kept redact)).length := h.represents.symbols.length_eq
  have hindirect := h.length_indirect
  have htables := h.tables_lt
  rw [tablesSize] at htables
  have hbefore : (dylibs.map bytesBeforeSymbols).sum % 2 ^ 32 = (dylibs.map bytesBeforeSymbols).sum :=
    Nat.mod_eq_of_lt (by omega)
  have hafter : ((dylibs.map bytesBeforeSymbols).sum +
      (dylibs.flatMap (·.kept redact)).length * (8 + ptrSize) +
      (dylibs.map bytesAfterSymbols).sum) % 2 ^ 32 = (dylibs.map bytesBeforeSymbols).sum +
        (dylibs.flatMap (·.kept redact)).length * (8 + ptrSize) +
        (dylibs.map bytesAfterSymbols).sum := Nat.mod_eq_of_lt (by omega)
  have hend : tablesSize ptrSize redact dylibs % 2 ^ 32 = tablesSize ptrSize redact dylibs :=
    Nat.mod_eq_of_lt (by rw [tablesSize]; omega)
  have hsize : fileOffset + mergedSize ptrSize redact dylibs < 2 ^ 32 := h
  constructor
  · rfl
  · rfl
  · rfl
  · rfl
  · rfl
  · simp only [mergeLinkedits, hbefore, hcount, hafter]
    omega
  · simp only [mergeLinkedits, hbefore, hcount, hafter, hindirect]
    omega
  · simp only [mergeLinkedits, hbefore, hcount, hafter, hindirect]
    change fileOffset + (if tablesSize ptrSize redact dylibs % 2 ^ 32 % ptrSize ≠ 0 then
      tablesSize ptrSize redact dylibs % 2 ^ 32 + 4 else
        tablesSize ptrSize redact dylibs % 2 ^ 32) % 2 ^ 32 + _ < _
    rw [hend, Nat.mod_eq_of_lt]
    · rw [mergedSize] at hsize
      omega
    · rw [mergedSize] at hsize
      omega

end Layout

theorem LaidOut.leads {m : MergedLinkedit} (hm : LaidOut ptrSize fileOffset redact dylibs m)
    (h : MergedFits ptrSize fileOffset redact dylibs) {k : Nat} {d : LinkeditInput}
    (hd : dylibs[k]? = some d) : ∃ cmd o, m.commands[k]? = some cmd ∧ Leads m d redact cmd o := by
  obtain ⟨o, ho, hcopies⟩ := h.copied hd
  have hall := h.represents
  have hindirect := hm.indirect_end
  have hstrings := hm.strings_end
  have hsize : 0 < m.nlistSize := by
    rw [hm.nlistSize]
    omega
  have hpair : (dylibs.zip (copyAllSymbols redact dylibs {}).2)[k]? = some (d, o) := by
    rw [List.getElem?_zip_eq_some]
    exact ⟨hd, ho⟩
  have hpart := flatMap_split (·.kept redact) hd
  rw [hpart] at hall
  have hnames : namesSize ((dylibs.take k).flatMap (·.kept redact) ++ d.kept redact ++
      (dylibs.drop (k + 1)).flatMap (·.kept redact)) < 2 ^ 32 := by
    rw [← hpart]
    omega
  have hcount := h.count_lt
  rw [hpart, List.length_append, List.length_append] at hcount
  have hkept : (d.kept redact).length =
      (d.keptLocals redact).length + d.keptExported.length + d.keptImported.length := by
    simp only [LinkeditInput.kept, List.length_append]
  have hcmd := getElem?_updateAllLoadCommands m.fileOffset m.nlistSize m.symbolsOffset m.stringsOffset
    (m.strings.length % 2 ^ 32) m.indirectOffset hpair (by
      rw [← hm.indirect]
      omega)
  rw [← hm.commands] at hcmd
  have hnsyms : (o.newLocalSymbolCount + o.newExportedSymbolCount + o.newImportedSymbolCount) %
      2 ^ 32 = (d.kept redact).length := by
    rw [hcopies.localCount, hcopies.exportedCount, hcopies.importedCount, ← hkept]
    exact Nat.mod_eq_of_lt (by omega)
  refine ⟨_, o, hcmd, ?_⟩
  constructor
  · exact hnsyms
  · rfl
  · exact ⟨rfl, hcopies.localCount⟩
  · refine ⟨?_, hcopies.exportedCount⟩
    dsimp only [updateLoadCommands]
    rw [hcopies.exportedStart, hcopies.localStart, sub32_of_le (by omega) (by omega),
      Nat.add_sub_cancel_left]
  · refine ⟨?_, hcopies.importedCount⟩
    dsimp only [updateLoadCommands]
    rw [hcopies.importedStart, hcopies.localStart, sub32_of_le (by omega) (by omega), Nat.add_assoc,
      Nat.add_sub_cancel_left]
  · apply readSymbol_of_written hall hnames hm.written hsize ?_ (Nat.mod_eq_of_lt (by omega)) hnsyms
    dsimp only [updateLoadCommands]
    rw [hcopies.localStart]
    have hle := Nat.mul_le_mul_right m.nlistSize (show ((dylibs.take k).flatMap (·.kept redact)).length ≤
      (dylibs.flatMap (·.kept redact)).length by
        rw [hpart, List.length_append, List.length_append]
        omega)
    have hsymbols := hm.symbols_end
    exact Nat.mod_eq_of_lt (by omega)
  · have hsplit := hm.indirect.trans
      (flatMap_split (fun p => p.1.indirect.map (newIndirectEntry p.2)) hpair)
    refine readIndirect_of_append hsplit ?_ (List.length_map _).symm
    have hlen := congrArg List.length hsplit
    rw [List.length_append, List.length_append] at hlen
    exact Nat.mod_eq_of_lt (by omega)
  · intro i entry hentry
    obtain ⟨j, hj, hgetj, hi⟩ := hcopies.kept i entry hentry
    rw [List.getElem?_append_right hj] at hgetj
    exact ⟨_, hgetj, hi⟩
  · exact hcopies.dropped

lemma readRange_eq {m : MergedLinkedit} {cmd : SymbolCommands} (before part after : List NamedSymbol)
    (hread : ∀ i, m.readSymbol cmd i = (before ++ part ++ after)[i]?) :
    m.readRange cmd before.length part.length = part.map some := by
  apply List.ext_getElem
  · simp [MergedLinkedit.readRange]
  · intro i hi hi'
    have hlt : i < part.length := by simpa using hi'
    simp only [MergedLinkedit.readRange, List.getElem_map, List.getElem_range, hread]
    rw [List.append_assoc, List.getElem?_append_right (Nat.le_add_right _ _), Nat.add_sub_cancel_left,
      List.getElem?_append_left hlt, List.getElem?_eq_getElem hlt]

theorem Leads.symbolsPreserved {m : MergedLinkedit} {d : LinkeditInput} {cmd : SymbolCommands}
    {o : LinkeditIndexes} (h : Leads m d redact cmd o) : SymbolsPreserved m d redact cmd := by
  constructor
  · rw [h.locals.1, h.locals.2]
    apply readRange_eq [] _ (d.keptExported ++ d.keptImported)
    intro i
    rw [h.symbol, LinkeditInput.kept, List.nil_append, List.append_assoc]
  · rw [h.exported.1, h.exported.2]
    apply readRange_eq _ _ d.keptImported
    exact h.symbol
  · rw [h.imported.1, h.imported.2, ← List.length_append]
    apply readRange_eq _ _ []
    intro i
    rw [h.symbol, LinkeditInput.kept, List.append_nil]
  · rw [h.nsyms]
    apply readRange_eq [] _ []
    intro i
    rw [h.symbol, List.nil_append, List.append_nil]

lemma le_of_carriesFlag {entry : Nat} (h : carriesFlag entry = true) : 2 ^ 30 ≤ entry := by
  by_contra hlt
  have hlocal : entry &&& INDIRECT_SYMBOL_LOCAL = 0 := by
    rw [INDIRECT_SYMBOL_LOCAL, show 0x80000000 = 2 ^ 31 by norm_num, Nat.and_two_pow,
      Nat.testBit_lt_two_pow (by omega)]
    rfl
  have habs : entry &&& INDIRECT_SYMBOL_ABS = 0 := by
    rw [INDIRECT_SYMBOL_ABS, show 0x40000000 = 2 ^ 30 by norm_num, Nat.and_two_pow,
      Nat.testBit_lt_two_pow (by omega)]
    rfl
  simp [carriesFlag, hlocal, habs] at h

/-- An entry that the copy gets right: one of the two flags alone, or an index whose symbol is kept or
is named like the first symbol that is kept. -/
def LinkeditInput.RightEntry (d : LinkeditInput) (redact : Bool) (old : Nat) : Prop :=
  if carriesFlag old then old = INDIRECT_SYMBOL_LOCAL ∨ old = INDIRECT_SYMBOL_ABS
  else ∀ s, d.symbols[old]? = some s →
    d.Kept old s ∨ ∃ v, (d.kept redact)[0]? = some v ∧ v.name = d.name s

lemma newIndirectEntry_flagged {m : MergedLinkedit} {d : LinkeditInput} {cmd : SymbolCommands}
    {o : LinkeditIndexes} (h : Leads m d redact cmd o) {old : Nat} (hflag : carriesFlag old = true) :
    newIndirectEntry o old = old ↔ old = INDIRECT_SYMBOL_LOCAL ∨ old = INDIRECT_SYMBOL_ABS := by
  have hbig := le_of_carriesFlag hflag
  rw [newIndirectEntry]
  split_ifs with hsame
  · simp [hsame.symm]
  · have hnone : o.oldToNewSymbolIndexes old = none := by
      apply h.dropped
      intro entry hkept
      have hlt := (List.getElem?_eq_some_iff.mp hkept.getElem?).1
      have := d.symbols_lt
      omega
    rw [hnone, Option.getD_none]
    constructor
    · intro hzero
      omega
    · intro hsame'
      exact absurd hsame'.symm hsame

lemma newIndirectEntry_symbol {m : MergedLinkedit} {d : LinkeditInput} {cmd : SymbolCommands}
    {o : LinkeditIndexes} (h : Leads m d redact cmd o) {old : Nat} (hflag : carriesFlag old = false)
    {s : Nlist 64} (hs : d.symbols[old]? = some s) :
    (∃ v, m.readSymbol cmd (newIndirectEntry o old) = some v ∧ v.name = d.name s) ↔
      d.Kept old s ∨ ∃ v, (d.kept redact)[0]? = some v ∧ v.name = d.name s := by
  have hplain : newIndirectEntry o old = (o.oldToNewSymbolIndexes old).getD 0 := by
    rw [newIndirectEntry, if_neg]
    rintro (rfl | rfl) <;> exact absurd hflag (by decide)
  rw [h.symbol, hplain]
  by_cases hkept : d.Kept old s
  · obtain ⟨j, hj, hnew⟩ := h.kept old s hkept
    rw [hnew, Option.getD_some, hj]
    simp [hkept, Nlist.named]
  · have hnone : o.oldToNewSymbolIndexes old = none := by
      apply h.dropped
      intro entry hentry
      have hsame := hentry.getElem?.symm.trans hs
      exact hkept (Option.some.inj hsame ▸ hentry)
    rw [hnone, Option.getD_none]
    simp [hkept]

theorem Leads.indirectPreserved_iff {m : MergedLinkedit} {d : LinkeditInput} {cmd : SymbolCommands}
    {o : LinkeditIndexes} (h : Leads m d redact cmd o) :
    IndirectPreserved m d cmd ↔ ∀ old ∈ d.indirect, d.RightEntry redact old := by
  have hentry : ∀ i old, d.indirect[i]? = some old →
      m.readIndirect cmd i = some (newIndirectEntry o old) := by
    intro i old hold
    rw [h.indirect, List.getElem?_map, hold]
    rfl
  have hright : ∀ old, d.RightEntry redact old ↔
      if carriesFlag old then newIndirectEntry o old = old
      else ∀ s, d.symbols[old]? = some s →
        ∃ v, m.readSymbol cmd (newIndirectEntry o old) = some v ∧ v.name = d.name s := by
    intro old
    rw [LinkeditInput.RightEntry]
    by_cases hflag : carriesFlag old = true
    · rw [if_pos hflag, if_pos hflag, newIndirectEntry_flagged h hflag]
    · rw [if_neg hflag, if_neg hflag]
      rw [Bool.not_eq_true] at hflag
      exact forall₂_congr fun s hs => (newIndirectEntry_symbol h hflag hs).symm
  constructor
  · intro hall old hold
    obtain ⟨i, hi⟩ := List.mem_iff_getElem?.mp hold
    obtain ⟨new, hnew, hcase⟩ := hall i old hi
    rw [hentry i old hi, Option.some.injEq] at hnew
    subst hnew
    exact (hright old).mpr hcase
  · intro hall i old hi
    exact ⟨_, hentry i old hi, (hright old).mp (hall old (List.mem_of_getElem? hi))⟩

end Merge

/-- After merging, the load commands of each dylib lead to its kept symbols in order, and the entries
of its indirect symbol table are preserved. -/
def MergePreserves (ptrSize fileOffset : Nat) (redact : Bool) (dylibs : List LinkeditInput) : Prop :=
  ∀ (k : Nat) (d : LinkeditInput), dylibs[k]? = some d → ∃ cmd,
    (mergeLinkedits ptrSize fileOffset redact dylibs).commands[k]? = some cmd ∧
    SymbolsPreserved (mergeLinkedits ptrSize fileOffset redact dylibs) d redact cmd ∧
    IndirectPreserved (mergeLinkedits ptrSize fileOffset redact dylibs) d cmd

/-- Merging preserves the symbols of all dylibs exactly when all entries of their indirect symbol
tables are of the kinds that the copy gets right. -/
theorem mergePreserves_iff {ptrSize fileOffset : Nat} {redact : Bool} {dylibs : List LinkeditInput}
    (hfits : MergedFits ptrSize fileOffset redact dylibs) :
    MergePreserves ptrSize fileOffset redact dylibs ↔
      ∀ d ∈ dylibs, ∀ old ∈ d.indirect, d.RightEntry redact old := by
  constructor
  · intro h d hd
    obtain ⟨k, hk⟩ := List.mem_iff_getElem?.mp hd
    obtain ⟨cmd, hcmd, -, hindirect⟩ := h k d hk
    obtain ⟨cmd', o, hcmd', hleads⟩ := hfits.laidOut.leads hfits hk
    rw [hcmd', Option.some.injEq] at hcmd
    subst hcmd
    exact hleads.indirectPreserved_iff.mp hindirect
  · intro h k d hk
    obtain ⟨cmd, o, hcmd, hleads⟩ := hfits.laidOut.leads hfits hk
    exact ⟨cmd, hcmd, hleads.symbolsPreserved,
      hleads.indirectPreserved_iff.mpr (h d (List.mem_of_getElem? hk))⟩

/-- Two dylibs that import from each other: one has the local `a`, exports `f` and imports `g`, the
other exports `g` and imports `f`. -/
def twoDylibs : List LinkeditInput :=
  [{ symbols := [⟨1, 0x0e, 1, 0, 4096⟩, ⟨3, 0x0f, 1, 0, 4112⟩, ⟨5, 0x01, 0, 0x100, 0⟩]
     strings := [0, 0x61, 0, 0x66, 0, 0x67, 0]
     dysymtab := some ⟨0, 1, 1, 1, 2, 1, [2, 1, INDIRECT_SYMBOL_LOCAL]⟩
     stripMode := .stripNone, dylibOffset := 0, hasChainedFixups := false
     dyldInfo := some ⟨8, 16, 24, 16⟩, exportTrie := none, functionStarts := some 8, dataInCode := none
     symbols_lt := by decide },
   { symbols := [⟨3, 0x0f, 1, 0, 8192⟩, ⟨1, 0x01, 0, 0x100, 0⟩]
     strings := [0, 0x66, 0, 0x67, 0]
     dysymtab := some ⟨0, 0, 0, 1, 1, 1, [INDIRECT_SYMBOL_ABS, 1]⟩
     stripMode := .stripNone, dylibOffset := 0x4000, hasChainedFixups := true
     dyldInfo := none, exportTrie := some 16, functionStarts := none, dataInCode := some 8
     symbols_lt := by decide }]

theorem mergePreserves_twoDylibs : MergePreserves 8 0x8000 true twoDylibs := by
  refine (mergePreserves_iff (by decide +kernel)).mpr ?_
  intro d hd old hold
  rcases List.mem_pair.mp hd with rfl | rfl
  · fin_cases hold
    · rintro s ⟨⟩
      exact .inl (.inr ⟨⟨2, _, 0, rfl, rfl, rfl⟩, rfl⟩)
    · rintro s ⟨⟩
      exact .inl (.inl ⟨⟨1, _, 0, rfl, rfl, rfl⟩, rfl⟩)
    · exact .inl rfl
  · fin_cases hold
    · exact .inr rfl
    · rintro s ⟨⟩
      exact .inl (.inr ⟨⟨1, _, 0, rfl, rfl, rfl⟩, rfl⟩)

def oneExportedDylib (indirect : List Nat) : LinkeditInput where
  symbols := [⟨1, 0x0f, 1, 0, 4096⟩]
  strings := [0, 0x66, 0]
  dysymtab := some ⟨0, 0, 0, 1, 1, 0, indirect⟩
  stripMode := .stripNone
  dylibOffset := 0
  hasChainedFixups := true
  dyldInfo := none
  exportTrie := some 0
  functionStarts := none
  dataInCode := none
  symbols_lt := by decide

/-- An entry with both flags is looked up in the map, and becomes zero. -/
theorem bothFlags_not_preserved :
    carriesFlag (INDIRECT_SYMBOL_LOCAL ||| INDIRECT_SYMBOL_ABS) = true ∧
    ¬MergePreserves 8 0 false [oneExportedDylib [INDIRECT_SYMBOL_LOCAL ||| INDIRECT_SYMBOL_ABS]] := by
  constructor
  · decide
  · intro h
    obtain ⟨cmd, hcmd, -, hindirect⟩ := h 0 _ rfl
    obtain ⟨new, hnew, hcase⟩ := hindirect 0 (INDIRECT_SYMBOL_LOCAL ||| INDIRECT_SYMBOL_ABS) rfl
    have hcmd' : (mergeLinkedits 8 0 false [oneExportedDylib [INDIRECT_SYMBOL_LOCAL ||| INDIRECT_SYMBOL_ABS]]).commands[0]? =
        some ⟨0, 1, 24, 3, 0, 0, 0, 1, 1, 0, 16, 1⟩ := by decide +kernel
    rw [hcmd', Option.some.injEq] at hcmd
    subst hcmd
    have hnew' : (mergeLinkedits 8 0 false
        [oneExportedDylib [INDIRECT_SYMBOL_LOCAL ||| INDIRECT_SYMBOL_ABS]]).readIndirect
          ⟨0, 1, 24, 3, 0, 0, 0, 1, 1, 0, 16, 1⟩ 0 = some 0 := by decide +kernel
    rw [hnew', Option.some.injEq] at hnew
    subst hnew
    exact absurd hcase (by decide)

end Dyld.Cache
