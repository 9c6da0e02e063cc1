import Mathlib

/-!
# The sorted string pool

The merged LINKEDIT has one string pool for the symbols of all dylibs. The names are gathered in a
sorted map with the symbols that use each, and the offsets of the symbols are set when the pool is
written.
-/

namespace Dyld.Cache

structure Nlist (w : Nat) where
  n_strx : Nat
  n_type : BitVec 8
  n_sect : BitVec 8
  n_desc : BitVec 16
  n_value : BitVec w
  deriving DecidableEq, Repr

variable {w : Nat}

def isSect (entry : Nlist w) : Bool := entry.n_type &&& 0x0e#8 == 0x0e#8

def cString (pool : List UInt8) (offset : Nat) : List UInt8 := (pool.drop offset).takeWhile (· ≠ 0)

/-- A name, and the symbols that use it. The flag is set for the indirect ones, whose value is the
offset of the name. -/
structure PoolEntry where
  name : List UInt8
  refs : List (Nat × Bool)
  deriving DecidableEq, Repr

/-- `_map[symbolName].push_back(ref)`, for the sorted map of a `SortedStringPool`. -/
def pushBack (name : List UInt8) (ref : Nat × Bool) : List PoolEntry → List PoolEntry
  | [] => [⟨name, [ref]⟩]
  | e :: es =>
    if e.name = name then ⟨name, e.refs ++ [ref]⟩ :: es
    else if name < e.name then ⟨name, [ref]⟩ :: e :: es
    else e :: pushBack name ref es

def poolAdd (symbolIndex : Nat) (name : List UInt8) (pool : List PoolEntry) : List PoolEntry :=
  pushBack name (symbolIndex, false) pool

def poolSize (pool : List PoolEntry) : Nat := 1 + (pool.map (fun e => e.name.length + 1)).sum

/-- A symbol gets the offset of its name. -/
def setOffset (poolOffset : Nat) (table : List (Nlist w)) (ref : Nat × Bool) : List (Nlist w) :=
  if ref.2 then table.modify ref.1 (fun s => { s with n_value := BitVec.ofNat w poolOffset })
  else table.modify ref.1 (fun s => { s with n_strx := poolOffset })

/-- The loop of `copyPoolAndUpdateOffsets`. The offset counts the bytes of the pool so far in 32
bits. -/
def copyPool : List PoolEntry → List UInt8 → List (Nlist w) → List UInt8 × List (Nlist w)
  | [], pool, table => (pool, table)
  | e :: es, pool, table =>
    copyPool es (pool ++ (e.name ++ [0])) (e.refs.foldl (setOffset (pool.length % 2 ^ 32)) table)

/-- `SortedStringPool::copyPoolAndUpdateOffsets`: the pool, which starts with an empty string, and
the symbols with their offsets. -/
def copyPoolAndUpdateOffsets (entries : List PoolEntry) (table : List (Nlist w)) :
    List UInt8 × List (Nlist w) :=
  copyPool entries [0] table

/-! ### What is in the map -/

/-- The map has a reference under a name. -/
def Registered (pool : List PoolEntry) (name : List UInt8) (ref : Nat × Bool) : Prop :=
  ∃ e ∈ pool, e.name = name ∧ ref ∈ e.refs

lemma registered_cons {e : PoolEntry} {es : List PoolEntry} {name : List UInt8} {ref : Nat × Bool} :
    Registered (e :: es) name ref ↔ (e.name = name ∧ ref ∈ e.refs) ∨ Registered es name ref := by
  simp [Registered]

lemma registered_pushBack {name n : List UInt8} {ref r : Nat × Bool} {pool : List PoolEntry} :
    Registered (pushBack name ref pool) n r ↔ (n = name ∧ r = ref) ∨ Registered pool n r := by
  induction pool with
  | nil => simp [pushBack, Registered, eq_comm]
  | cons e es ih =>
    rw [pushBack]
    split_ifs with hname hlt
    · rw [registered_cons, registered_cons, List.mem_append, List.mem_singleton, hname]
      grind
    · rw [registered_cons, List.mem_singleton]
      grind
    · rw [registered_cons, registered_cons, ih]
      grind

/-- All names are C strings. -/
def ProperNames (pool : List PoolEntry) : Prop := ∀ e ∈ pool, 0 ∉ e.name

lemma properNames_pushBack {name : List UInt8} (hname : 0 ∉ name) {ref : Nat × Bool}
    {pool : List PoolEntry} (h : ProperNames pool) : ProperNames (pushBack name ref pool) := by
  induction pool with
  | nil => simpa [pushBack, ProperNames] using hname
  | cons e es ih =>
    have hrest : ProperNames es := fun e' he' => h e' (by simp [he'])
    rw [pushBack]
    split_ifs
    · intro e' he'
      rcases List.mem_cons.mp he' with rfl | he'
      · exact hname
      · exact hrest e' he'
    · intro e' he'
      rcases List.mem_cons.mp he' with rfl | he'
      · exact hname
      · exact h e' he'
    · intro e' he'
      rcases List.mem_cons.mp he' with rfl | he'
      · exact h e' (by simp)
      · exact ih hrest e' he'

/-- The names are in strict order. -/
def SortedNames (pool : List PoolEntry) : Prop := (pool.map (·.name)).Pairwise (· < ·)

lemma mem_names_pushBack {name n : List UInt8} {ref : Nat × Bool} {pool : List PoolEntry} :
    n ∈ (pushBack name ref pool).map (·.name) ↔ n = name ∨ n ∈ pool.map (·.name) := by
  induction pool with
  | nil => simp [pushBack]
  | cons e es ih =>
    rw [pushBack]
    split_ifs with hname hlt
    · simp [hname]
    · simp
    · simp only [List.map_cons, List.mem_cons, ih]
      tauto

lemma sortedNames_pushBack {name : List UInt8} {ref : Nat × Bool} {pool : List PoolEntry}
    (h : SortedNames pool) : SortedNames (pushBack name ref pool) := by
  induction pool with
  | nil => simp [pushBack, SortedNames]
  | cons e es ih =>
    have hall := List.pairwise_cons.mp h
    rw [pushBack]
    split_ifs with hname hlt
    · subst hname
      exact h
    · refine List.pairwise_cons.mpr ⟨?_, h⟩
      intro n hn
      rcases List.mem_cons.mp hn with rfl | hn
      · exact hlt
      · exact List.lt_trans hlt (hall.1 n hn)
    · refine List.pairwise_cons.mpr ⟨?_, ih hall.2⟩
      intro n hn
      rcases mem_names_pushBack.mp hn with rfl | hn
      · by_contra hle
        exact hname (List.le_antisymm (List.not_lt.mp hlt) (List.not_lt.mp hle))
      · exact hall.1 n hn

lemma poolSize_eq {pool : List PoolEntry} (h : SortedNames pool) {names : List (List UInt8)}
    (hnames : ∀ n, n ∈ pool.map (·.name) ↔ n ∈ names) :
    poolSize pool = 1 + (names.dedup.map (·.length + 1)).sum := by
  have hnodup : (pool.map (·.name)).Nodup := by
    refine h.imp ?_
    rintro a b hlt rfl
    exact List.lt_irrefl a hlt
  have hperm : (pool.map (·.name)).Perm names.dedup := by
    rw [List.perm_ext_iff_of_nodup hnodup names.nodup_dedup]
    intro n
    rw [hnames, List.mem_dedup]
  have hsum := (hperm.map (·.length + 1)).sum_eq
  rw [List.map_map] at hsum
  exact congrArg (1 + ·) hsum

lemma zero_notMem_cString (pool : List UInt8) (offset : Nat) : 0 ∉ cString pool offset := by
  intro h
  have := List.mem_takeWhile_imp h
  simp at this

/-! ### The pool that is written -/

/-- A string that stands in a pool, terminator included, is read back. -/
lemma cString_append {before name after : List UInt8} (hname : 0 ∉ name) :
    cString (before ++ (name ++ [0]) ++ after) before.length = name := by
  rw [cString, List.append_assoc, List.drop_left, List.append_assoc, List.takeWhile_append_of_pos]
  · simp
  · intro b hb
    have hne : b ≠ 0 := fun h => hname (h ▸ hb)
    simpa using hne

lemma copyPool_fst (es : List PoolEntry) (pool : List UInt8) (table : List (Nlist w)) :
    ∃ more, (copyPool es pool table).1 = pool ++ more ∧
      more.length = (es.map (fun e => e.name.length + 1)).sum := by
  induction es generalizing pool table with
  | nil => exact ⟨[], by simp [copyPool]⟩
  | cons e es ih =>
    obtain ⟨more, hmore, hlen⟩ := ih (pool ++ (e.name ++ [0]))
      (e.refs.foldl (setOffset (pool.length % 2 ^ 32)) table)
    exact ⟨e.name ++ [0] ++ more, by rw [copyPool, hmore, List.append_assoc], by simp [hlen]; omega⟩

theorem length_copyPoolAndUpdateOffsets (es : List PoolEntry) (table : List (Nlist w)) :
    (copyPoolAndUpdateOffsets es table).1.length = poolSize es := by
  obtain ⟨more, hmore, hlen⟩ := copyPool_fst es [0] table
  rw [copyPoolAndUpdateOffsets, hmore, List.length_append, hlen, poolSize]
  rfl

lemma foldl_setOffset {refs : List (Nat × Bool)} (hrefs : ∀ r ∈ refs, r.2 = false) (offset : Nat)
    {table : List (Nlist w)} {j : Nat} {s : Nlist w} (hs : table[j]? = some s) :
    (refs.foldl (setOffset offset) table)[j]? =
      some { s with n_strx := if (j, false) ∈ refs then offset else s.n_strx } := by
  induction refs generalizing table s with
  | nil => simpa using hs
  | cons r refs ih =>
    have hr : r.2 = false := hrefs r (by simp)
    have hrest : ∀ r ∈ refs, r.2 = false := fun r' hr' => hrefs r' (by simp [hr'])
    have hset : (setOffset offset table r)[j]? =
        some { s with n_strx := if (j, false) = r then offset else s.n_strx } := by
      rw [setOffset, hr, if_neg (by simp), List.getElem?_modify, hs]
      by_cases hj : r.1 = j
      · have hjr : (j, false) = r := Prod.ext hj.symm hr.symm
        simp [hj, hjr]
      · have hjr : ¬(j, false) = r := fun h => hj (by rw [← h])
        simp [hj, hjr]
    rw [List.foldl_cons, ih hrest hset]
    by_cases hmem : (j, false) ∈ refs
    · simp [hmem]
    · simp [hmem]

/-- A symbol that is registered under one name only gets the offset of that name, and nothing else of
it changes, while the pool has less than 4 GiB. -/
theorem copyPool_symbol {es : List PoolEntry} (hproper : ProperNames es)
    (hdirect : ∀ n r, Registered es n r → r.2 = false) (pool : List UInt8) {table : List (Nlist w)}
    (hsize : (copyPool es pool table).1.length < 2 ^ 32)
    {j : Nat} {s : Nlist w} (hs : table[j]? = some s) :
    ∃ x, (copyPool es pool table).2[j]? = some { s with n_strx := x } ∧
      ((∀ n, ¬Registered es n (j, false)) → x = s.n_strx) ∧
      ∀ name, Registered es name (j, false) → (∀ n, Registered es n (j, false) → n = name) →
        cString (copyPool es pool table).1 x = name := by
  induction es generalizing pool table s with
  | nil => exact ⟨s.n_strx, hs, fun _ => rfl, fun name h => by simp [Registered] at h⟩
  | cons e es ih =>
    have hproper' : ProperNames es := fun e' he' => hproper e' (by simp [he'])
    have hdirect' : ∀ n r, Registered es n r → r.2 = false :=
      fun n r h => hdirect n r (registered_cons.mpr (.inr h))
    have hrefs : ∀ r ∈ e.refs, r.2 = false :=
      fun r hr => hdirect e.name r (registered_cons.mpr (.inl ⟨rfl, hr⟩))
    obtain ⟨more, hmore, -⟩ := copyPool_fst es (pool ++ (e.name ++ [0]))
      (e.refs.foldl (setOffset (pool.length % 2 ^ 32)) table)
    have hoffset : pool.length % 2 ^ 32 = pool.length := by
      rw [copyPool, hmore, List.length_append, List.length_append] at hsize
      exact Nat.mod_eq_of_lt (by omega)
    obtain ⟨x, hx, hkeep, hread⟩ := ih hproper' hdirect' (pool ++ (e.name ++ [0])) hsize
      (foldl_setOffset hrefs (pool.length % 2 ^ 32) hs)
    refine ⟨x, hx, ?_, ?_⟩
    · intro hnone
      rw [hkeep (fun n h => hnone n (registered_cons.mpr (.inr h))), if_neg]
      exact fun hmem => hnone e.name (registered_cons.mpr (.inl ⟨rfl, hmem⟩))
    · intro name hname honly
      have honly' : ∀ n, Registered es n (j, false) → n = name :=
        fun n h => honly n (registered_cons.mpr (.inr h))
      by_cases hlater : Registered es name (j, false)
      · exact hread name hlater honly'
      -- the entry at hand is the only one with the symbol, so its offset stays
      · rcases registered_cons.mp hname with ⟨rfl, hmem⟩ | hlater'
        · have hnone : ∀ n, ¬Registered es n (j, false) := fun n h => hlater (honly' n h ▸ h)
          rw [hkeep hnone, if_pos hmem, copyPool, hmore, hoffset]
          exact cString_append (hproper e (by simp))
        · exact absurd hlater' hlater

end Dyld.Cache
