import Dyld.Lib.Probing

/-!
# The insertion-ordered map

`dyld3::Map` keeps its nodes in an array and finds them through a hash buffer of indices.
The hash buffer is searched with triangular probing and grows when it is three quarters full.
`none` stands for `SentinelHash` in the hash buffer; as the result of an operation it stands
for a loop that does not end or an array index that is out of bounds.
-/

namespace Dyld.Containers
open Dyld.Lib

structure Map (K V : Type) where
  nextHashBufferGrowth : Nat
  hashBufferUseCount : Nat
  hashBuffer : ProbeTable
  nodeBuffer : List (K × V)

/-- An equality of keys that is an equivalence, and a hash that respects it. -/
structure KeyEquality {K : Type} (hash : K → Nat) (equal : K → K → Bool) : Prop where
  refl : ∀ a, equal a a = true
  symm : ∀ a b, equal a b = true → equal b a = true
  trans : ∀ a b c, equal a b = true → equal b c = true → equal a c = true
  hash_eq : ∀ a b, equal a b = true → hash a = hash b

section Operations

variable {K V : Type} (hash : K → Nat) (equal : K → K → Bool)

def emptyMap : Map K V := ⟨768, 0, List.replicate 1024 none, []⟩

def hashedIndices (nodeBuffer : List (K × V)) : List (Nat × Nat) :=
  nodeBuffer.zipIdx.map (fun n => (hash n.1.1, n.2))

namespace Map

/-- The comparison of a search with the key of a node. -/
def sameKey (m : Map K V) (key : K) (i : Nat) : Option Bool :=
  m.nodeBuffer[i]?.map (fun n => equal n.1 key)

/-- The index of the node with the key; `some none` is `end()`. -/
def find (m : Map K V) (key : K) : Option (Option Nat) :=
  match probe m.hashBuffer (hash key) (m.sameKey equal key) with
  | none => none
  | some (.vacant _) => some none
  | some (.found i) => some (some i)

/-- Doubles a hash buffer that is too full and enters all nodes again. -/
def grow (m : Map K V) : Option (Map K V) :=
  if m.hashBufferUseCount = m.nextHashBufferGrowth then
    (placeAll (List.replicate (m.hashBuffer.length * 2) none)
      (hashedIndices hash m.nodeBuffer)).map
      (fun newHashBuffer => { m with nextHashBufferGrowth := m.nextHashBufferGrowth * 2
                                     hashBuffer := newHashBuffer })
  else some m

/-- The map, the index of the node, and whether it is new. -/
def insert (m : Map K V) (v : K × V) : Option (Map K V × Nat × Bool) :=
  (m.grow hash).bind (fun m =>
    match probe m.hashBuffer (hash v.1) (m.sameKey equal v.1) with
    | none => none
    | some (.vacant p) =>
      some ({ m with hashBuffer := m.hashBuffer.set p (some m.nodeBuffer.length)
                     hashBufferUseCount := m.hashBufferUseCount + 1
                     nodeBuffer := m.nodeBuffer ++ [v] }, m.nodeBuffer.length, true)
    | some (.found i) => some (m, i, false))

/-- `operator[]`, with what the caller does to the value it refers to. -/
def subscript [Inhabited V] (m : Map K V) (idx : K) (f : V → V) : Option (Map K V) :=
  (m.insert hash equal (idx, default)).map (fun r =>
    { r.1 with nodeBuffer := r.1.nodeBuffer.modify r.2.1 (fun n => (n.1, f n.2)) })

end Map

inductive MapCall (K V : Type)
  | insert (v : K × V)
  | subscript (idx : K) (f : V → V)
  | find (key : K)

def MapCall.run [Inhabited V] (m : Map K V) : MapCall K V → Option (Map K V)
  | .insert v => (m.insert hash equal v).map Prod.fst
  | .subscript idx f => m.subscript hash equal idx f
  | .find key => (m.find hash equal key).map (fun _ => m)

def runCalls [Inhabited V] (calls : List (MapCall K V)) : Option (Map K V) :=
  calls.foldlM (MapCall.run hash equal) emptyMap

end Operations

/-! ### The hash buffer -/

/-- A hash buffer with room that holds the indices on the ways of their hashes. -/
structure TableInv (nextHashBufferGrowth hashBufferUseCount : Nat) (hashBuffer : ProbeTable)
    (l : List (Nat × Nat)) : Prop where
  size : ∃ k, hashBuffer.length = 2 ^ (k + 10) ∧ nextHashBufferGrowth = 768 * 2 ^ k
  useCount_eq : hashBufferUseCount = l.length
  useCount_le : hashBufferUseCount ≤ nextHashBufferGrowth
  holds : Holds hashBuffer l

section Table

variable {growth count : Nat} {slots : ProbeTable} {l : List (Nat × Nat)}

lemma tableInv_empty : TableInv 768 0 (List.replicate 1024 none) [] := by
  constructor
  · exact ⟨0, List.length_replicate, rfl⟩
  · rfl
  · exact Nat.zero_le _
  · exact holds_replicate 1024

lemma TableInv.room (h : TableInv growth count slots l) :
    ∃ k, slots.length = 2 ^ k ∧ l.length < slots.length := by
  obtain ⟨k, hlen, hgrow⟩ := h.size
  refine ⟨k + 10, hlen, ?_⟩
  have hle := h.useCount_le
  have hcount := h.useCount_eq
  have hpow : 2 ^ (k + 10) = 2 ^ k * 1024 := pow_add 2 k 10
  have hpos : 0 < 2 ^ k := Nat.two_pow_pos k
  rw [hlen, hpow]
  omega

/-- A full hash buffer is replaced by one of twice the size. -/
lemma TableInv.grow (h : TableInv growth count slots l) (hfull : count = growth) :
    ∃ slots', placeAll (List.replicate (slots.length * 2) none) l = some slots' ∧
      TableInv (growth * 2) count slots' l ∧ count < growth * 2 := by
  obtain ⟨k, hlen, hgrow⟩ := h.size
  have hcount := h.useCount_eq
  have hsize : (List.replicate (slots.length * 2) (none : Option Nat)).length =
      2 ^ (k + 1 + 10) := by
    rw [List.length_replicate, hlen, ← pow_succ]
  have hpow : 2 ^ (k + 1 + 10) = 2 ^ k * 2048 := by
    rw [Nat.add_assoc, pow_add]
    norm_num
  have hpos : 0 < 2 ^ k := Nat.two_pow_pos k
  obtain ⟨slots', hplace, hslots, hholds⟩ := placeAll_spec l [] hsize (holds_replicate _) (by
    rw [hsize, hpow, List.length_nil]
    omega)
  refine ⟨slots', hplace, ⟨⟨k + 1, hslots.trans hsize, ?_⟩, hcount, ?_, ?_⟩, ?_⟩
  · rw [hgrow, pow_succ]
    ring
  · omega
  · simpa using hholds
  · omega

lemma TableInv.fill (h : TableInv growth count slots l) (hlt : count < growth) {hash i : Nat}
    {slots' : ProbeTable} (hfill : FilledBy slots hash i slots') :
    TableInv growth (count + 1) slots' (l ++ [(hash, i)]) := by
  constructor
  · obtain ⟨k, hlen, hg⟩ := h.size
    exact ⟨k, hfill.length_eq.trans hlen, hg⟩
  · simp [h.useCount_eq]
  · exact hlt
  · exact h.holds.fill hfill

end Table

/-! ### The state of a map -/

section Invariant

variable {K V : Type} {hash : K → Nat} {equal : K → K → Bool} {m : Map K V}

/-- The hash buffer holds every node on the way of its key, and the keys are distinct. -/
structure MapInv (hash : K → Nat) (equal : K → K → Bool) (m : Map K V) : Prop where
  table : TableInv m.nextHashBufferGrowth m.hashBufferUseCount m.hashBuffer
    (hashedIndices hash m.nodeBuffer)
  distinct : m.nodeBuffer.Pairwise (fun a b => equal a.1 b.1 = false)

lemma hashedIndices_append (nodes : List (K × V)) (v : K × V) :
    hashedIndices hash (nodes ++ [v]) = hashedIndices hash nodes ++ [(hash v.1, nodes.length)] := by
  simp [hashedIndices, List.zipIdx_append]

lemma mem_hashedIndices {nodes : List (K × V)} {h i : Nat} :
    (h, i) ∈ hashedIndices hash nodes ↔ ∃ n, nodes[i]? = some n ∧ hash n.1 = h := by
  unfold hashedIndices
  constructor
  · intro hmem
    obtain ⟨⟨n, j⟩, hx, heq⟩ := List.mem_map.mp hmem
    cases heq
    rw [List.mem_zipIdx_iff_getElem?] at hx
    exact ⟨n, hx, rfl⟩
  · rintro ⟨n, hn, rfl⟩
    apply List.mem_map.mpr
    exact ⟨(n, i), List.mem_zipIdx_iff_getElem?.mpr hn, rfl⟩

lemma mapInv_empty (hash : K → Nat) (equal : K → K → Bool) :
    MapInv hash equal (emptyMap : Map K V) :=
  ⟨tableInv_empty, List.Pairwise.nil⟩

lemma grow_spec (h : MapInv hash equal m) :
    ∃ m', m.grow hash = some m' ∧ MapInv hash equal m' ∧ m'.nodeBuffer = m.nodeBuffer ∧
      m'.hashBufferUseCount < m'.nextHashBufferGrowth := by
  unfold Map.grow
  split
  · rename_i hfull
    obtain ⟨slots, hplace, htable, hlt⟩ := h.table.grow hfull
    exact ⟨{ m with nextHashBufferGrowth := m.nextHashBufferGrowth * 2, hashBuffer := slots },
      by rw [hplace]; rfl, ⟨htable, h.distinct⟩, rfl, hlt⟩
  · rename_i hroom
    exact ⟨m, rfl, h, rfl, lt_of_le_of_ne h.table.useCount_le hroom⟩

lemma MapInv.probe_cases (he : KeyEquality hash equal) (h : MapInv hash equal m) (key : K) :
    (∃ i n, probe m.hashBuffer (hash key) (m.sameKey equal key) = some (.found i) ∧
      m.nodeBuffer[i]? = some n ∧ equal n.1 key = true) ∨
    ∃ p, probe m.hashBuffer (hash key) (m.sameKey equal key) = some (.vacant p) ∧
      (∀ i, FilledBy m.hashBuffer (hash key) i (m.hashBuffer.set p (some i))) ∧
      ∀ n ∈ m.nodeBuffer, equal n.1 key = false := by
  obtain ⟨k, hlen, hroom⟩ := h.table.room
  have hsome : ∀ x ∈ hashedIndices hash m.nodeBuffer,
      (m.sameKey equal key x.2).isSome = true := by
    intro x hx
    obtain ⟨n, hn, -⟩ := mem_hashedIndices.mp hx
    simp [Map.sameKey, hn]
  have hhash : ∀ x ∈ hashedIndices hash m.nodeBuffer,
      m.sameKey equal key x.2 = some true → x.1 = hash key := by
    intro x hx htrue
    obtain ⟨n, hn, hxn⟩ := mem_hashedIndices.mp hx
    simp only [Map.sameKey, hn, Option.map_some, Option.some.injEq] at htrue
    rw [← hxn]
    exact he.hash_eq _ _ htrue
  rcases h.table.holds.probe_cases hlen hroom hsome hhash with
    ⟨x, hx, hprobe, htrue⟩ | ⟨p, hprobe, hfill, hfalse⟩
  · left
    obtain ⟨n, hn, heq⟩ := Option.map_eq_some_iff.mp htrue
    exact ⟨x.2, n, hprobe, hn, heq⟩
  · right
    refine ⟨p, hprobe, hfill, ?_⟩
    intro n hn
    obtain ⟨i, hi⟩ := List.mem_iff_getElem?.mp hn
    simpa [Map.sameKey, hi] using hfalse (hash n.1, i) (mem_hashedIndices.mpr ⟨n, hi, rfl⟩)

lemma find_spec (he : KeyEquality hash equal) (h : MapInv hash equal m) (key : K) :
    (∃ i n, m.find hash equal key = some (some i) ∧ m.nodeBuffer[i]? = some n ∧
      equal n.1 key = true) ∨
    m.find hash equal key = some none ∧ ∀ n ∈ m.nodeBuffer, equal n.1 key = false := by
  unfold Map.find
  rcases h.probe_cases he key with ⟨i, n, hprobe, hn, heq⟩ | ⟨p, hprobe, -, hnone⟩
  · left
    exact ⟨i, n, by rw [hprobe], hn, heq⟩
  · right
    exact ⟨by rw [hprobe], hnone⟩

lemma insert_spec (he : KeyEquality hash equal) (h : MapInv hash equal m) (v : K × V) :
    (∃ m' i n, m.insert hash equal v = some (m', i, false) ∧ MapInv hash equal m' ∧
      m'.nodeBuffer = m.nodeBuffer ∧ m.nodeBuffer[i]? = some n ∧ equal n.1 v.1 = true) ∨
    ∃ m', m.insert hash equal v = some (m', m.nodeBuffer.length, true) ∧
      MapInv hash equal m' ∧ m'.nodeBuffer = m.nodeBuffer ++ [v] ∧
      ∀ n ∈ m.nodeBuffer, equal n.1 v.1 = false := by
  obtain ⟨g, hgrow, hinv, hnodes, hlt⟩ := grow_spec h
  unfold Map.insert
  rw [hgrow, Option.bind_some]
  rcases hinv.probe_cases he v.1 with ⟨i, n, hprobe, hn, heq⟩ | ⟨p, hprobe, hfill, hnone⟩
  · left
    rw [hprobe]
    exact ⟨g, i, n, rfl, hinv, hnodes, hnodes ▸ hn, heq⟩
  · right
    rw [hprobe]
    refine ⟨_, by rw [← hnodes], ⟨?_, ?_⟩, by dsimp only; rw [hnodes], hnodes ▸ hnone⟩
    · rw [hashedIndices_append]
      exact hinv.table.fill hlt (hfill _)
    · rw [List.pairwise_append]
      refine ⟨hinv.distinct, List.pairwise_singleton _ _, ?_⟩
      intro a ha b hb
      rw [List.mem_singleton.mp hb]
      exact hnone a ha

end Invariant

/-! ### What a sequence of calls means -/

section Meaning

variable {K V : Type} (equal : K → K → Bool)

def addKey (keys : List K) (k : K) : List K :=
  if keys.any (fun x => equal x k) then keys else keys ++ [k]

/-- The distinct keys in the order of their first occurrences. -/
def distinctKeys (keys : List K) : List K := keys.foldl (addKey equal) []

def MapCall.insertedKey : MapCall K V → Option K
  | .insert v => some v.1
  | .subscript idx _ => some idx
  | .find _ => none

/-- The keys that the calls insert, those that are present already included. -/
def insertedKeys (calls : List (MapCall K V)) : List K := calls.filterMap MapCall.insertedKey

def MapCall.update [Inhabited V] (key : K) (value : Option V) : MapCall K V → Option V
  | .insert v => if equal v.1 key then some (value.getD v.2) else value
  | .subscript idx f => if equal idx key then some (f (value.getD default)) else value
  | .find _ => value

/-- The value of the first insertion of the key, with the later changes. -/
def valueOf [Inhabited V] (calls : List (MapCall K V)) (key : K) : Option V :=
  calls.foldl (MapCall.update equal key) none

def lookup (nodes : List (K × V)) (key : K) : Option V :=
  (nodes.find? (fun n => equal n.1 key)).map Prod.snd

end Meaning

section Refinement

variable {K V : Type} {hash : K → Nat} {equal : K → K → Bool} {m : Map K V}

structure Represents [Inhabited V] (equal : K → K → Bool) (calls : List (MapCall K V))
    (nodes : List (K × V)) : Prop where
  keys_eq : nodes.map Prod.fst = distinctKeys equal (insertedKeys calls)
  values_eq : ∀ key, lookup equal nodes key = valueOf equal calls key

lemma any_eq_false_of_forall {nodes : List (K × V)} {k : K}
    (h : ∀ n ∈ nodes, equal n.1 k = false) :
    (nodes.map Prod.fst).any (fun x => equal x k) = false := by
  rw [List.any_eq_false]
  intro x hx
  obtain ⟨n, hn, rfl⟩ := List.mem_map.mp hx
  simp [h n hn]

lemma any_eq_true_of_getElem? {nodes : List (K × V)} {k : K} {i : Nat} {n : K × V}
    (hn : nodes[i]? = some n) (h : equal n.1 k = true) :
    (nodes.map Prod.fst).any (fun x => equal x k) = true := by
  rw [List.any_eq_true]
  exact ⟨n.1, List.mem_map_of_mem (List.mem_of_getElem? hn), h⟩

lemma lookup_eq_none {nodes : List (K × V)} {key : K} :
    lookup equal nodes key = none ↔ ∀ n ∈ nodes, equal n.1 key = false := by
  simp [lookup]

lemma lookup_of_getElem? (he : KeyEquality hash equal) {nodes : List (K × V)}
    (hd : nodes.Pairwise (fun a b => equal a.1 b.1 = false)) {key : K} {i : Nat} {n : K × V}
    (hn : nodes[i]? = some n) (h : equal n.1 key = true) : lookup equal nodes key = some n.2 := by
  induction nodes generalizing i with
  | nil => cases hn
  | cons a nodes ih =>
    rw [List.pairwise_cons] at hd
    unfold lookup
    cases i with
    | zero =>
      cases hn
      simp [h]
    | succ i =>
      rw [List.getElem?_cons_succ] at hn
      have hne : equal a.1 key = false := by
        have hfalse := hd.1 n (List.mem_of_getElem? hn)
        by_contra heq
        rw [Bool.not_eq_false] at heq
        rw [he.trans _ _ _ heq (he.symm _ _ h)] at hfalse
        cases hfalse
      rw [List.find?_cons_of_neg (by simp [hne])]
      exact ih hd.2 hn

lemma index_unique (he : KeyEquality hash equal) {nodes : List (K × V)}
    (hd : nodes.Pairwise (fun a b => equal a.1 b.1 = false)) {key : K} {i j : Nat} {a b : K × V}
    (ha : nodes[i]? = some a) (hb : nodes[j]? = some b) (hak : equal a.1 key = true)
    (hbk : equal b.1 key = true) : i = j := by
  have hab : equal a.1 b.1 = true := he.trans _ _ _ hak (he.symm _ _ hbk)
  have hba : equal b.1 a.1 = true := he.symm _ _ hab
  obtain ⟨hi, rfl⟩ := List.getElem?_eq_some_iff.mp ha
  obtain ⟨hj, rfl⟩ := List.getElem?_eq_some_iff.mp hb
  rw [List.pairwise_iff_getElem] at hd
  rcases Nat.lt_trichotomy i j with hlt | heq | hgt
  · have := hd i j hi hj hlt
    rw [hab] at this
    cases this
  · exact heq
  · have := hd j i hj hi hgt
    rw [hba] at this
    cases this

lemma lookup_append (nodes : List (K × V)) (v : K × V) (key : K) :
    lookup equal (nodes ++ [v]) key =
      if equal v.1 key then some ((lookup equal nodes key).getD v.2)
      else lookup equal nodes key := by
  unfold lookup
  rw [List.find?_append]
  cases hfind : nodes.find? (fun n => equal n.1 key) with
  | some n => simp
  | none =>
    by_cases h : equal v.1 key = true
    · simp [h]
    · simp [h]

lemma distinctKeys_append (keys : List K) (k : K) :
    distinctKeys equal (keys ++ [k]) = addKey equal (distinctKeys equal keys) k := by
  simp [distinctKeys]

lemma valueOf_append [Inhabited V] (calls : List (MapCall K V)) (c : MapCall K V) (key : K) :
    valueOf equal (calls ++ [c]) key = c.update equal key (valueOf equal calls key) := by
  simp [valueOf]

lemma lookup_modify (he : KeyEquality hash equal) {nodes : List (K × V)}
    (hd : nodes.Pairwise (fun a b => equal a.1 b.1 = false)) {idx : K} {i : Nat} {n : K × V}
    (hn : nodes[i]? = some n) (h : equal n.1 idx = true) (f : V → V) (key : K) :
    lookup equal (nodes.modify i (fun n => (n.1, f n.2))) key =
      if equal idx key then (lookup equal nodes key).map f else lookup equal nodes key := by
  have hmap : nodes.modify i (fun n => (n.1, f n.2)) =
      nodes.map (fun x => if equal x.1 idx then (x.1, f x.2) else x) := by
    apply List.ext_getElem?
    intro j
    rw [List.getElem?_modify, List.getElem?_map]
    by_cases hij : i = j
    · subst hij
      simp [hn, h]
    · cases hj : nodes[j]? with
      | none => simp
      | some x =>
        have hne : equal x.1 idx ≠ true := fun hx => hij (index_unique he hd hn hj h hx)
        simp [hij, hne]
  have hsame : ∀ x : K × V, (if equal x.1 idx then (x.1, f x.2) else x).1 = x.1 := by
    intro x
    split <;> rfl
  unfold lookup
  rw [hmap, List.find?_map]
  simp only [Function.comp_def, hsame]
  cases hfind : nodes.find? (fun x => equal x.1 key) with
  | none => simp
  | some x =>
    have hx : equal x.1 key = true := by simpa using List.find?_some hfind
    have hiff : equal x.1 idx = equal idx key := by
      rw [Bool.eq_iff_iff]
      constructor
      · intro hxi
        exact he.trans _ _ _ (he.symm _ _ hxi) hx
      · intro hik
        exact he.trans _ _ _ hx (he.symm _ _ hik)
    by_cases hik : equal idx key = true
    · simp [hiff, hik]
    · simp [hiff, hik]

lemma hashedIndices_congr {a b : List (K × V)} (h : a.map Prod.fst = b.map Prod.fst) :
    hashedIndices hash a = hashedIndices hash b := by
  have hkeys : ∀ l : List (K × V),
      hashedIndices hash l = (l.map Prod.fst).zipIdx.map (fun x => (hash x.1, x.2)) := by
    intro l
    simp [hashedIndices, List.zipIdx_map]
  rw [hkeys a, hkeys b, h]

lemma MapInv.congr (h : MapInv hash equal m) {nodes : List (K × V)}
    (hkeys : nodes.map Prod.fst = m.nodeBuffer.map Prod.fst) :
    MapInv hash equal { m with nodeBuffer := nodes } := by
  constructor
  · rw [hashedIndices_congr hkeys]
    exact h.table
  · have hp : (m.nodeBuffer.map Prod.fst).Pairwise (fun a b => equal a b = false) :=
      List.pairwise_map.mpr h.distinct
    rw [← hkeys] at hp
    exact List.pairwise_map.mp hp

lemma map_fst_modify (nodes : List (K × V)) (i : Nat) (f : V → V) :
    (nodes.modify i (fun n => (n.1, f n.2))).map Prod.fst = nodes.map Prod.fst := by
  apply List.ext_getElem?
  intro j
  rw [List.getElem?_map, List.getElem?_map, List.getElem?_modify]
  cases nodes[j]? with
  | none => rfl
  | some n =>
    by_cases hij : i = j
    · simp [hij]
    · simp [hij]

/-- The node that an insertion ends at, whether it was there or not. -/
lemma insert_represents (he : KeyEquality hash equal) (h : MapInv hash equal m) (v : K × V) :
    ∃ m' i b n, m.insert hash equal v = some (m', i, b) ∧ MapInv hash equal m' ∧
      m'.nodeBuffer[i]? = some n ∧ equal n.1 v.1 = true ∧
      m'.nodeBuffer.map Prod.fst = addKey equal (m.nodeBuffer.map Prod.fst) v.1 ∧
      ∀ key, lookup equal m'.nodeBuffer key =
        if equal v.1 key then some ((lookup equal m.nodeBuffer key).getD v.2)
        else lookup equal m.nodeBuffer key := by
  rcases insert_spec he h v with ⟨m', i, n, hins, hinv, hnodes, hn, heq⟩ | ⟨m', hins, hinv, hnodes, hnone⟩
  · refine ⟨m', i, false, n, hins, hinv, hnodes ▸ hn, heq, ?_, ?_⟩
    · rw [addKey, any_eq_true_of_getElem? hn heq, hnodes]
      rfl
    · intro key
      rw [hnodes]
      split
      · rename_i hkey
        rw [lookup_of_getElem? he h.distinct hn (he.trans _ _ _ heq hkey)]
        rfl
      · rfl
  · refine ⟨m', m.nodeBuffer.length, true, v, hins, hinv, ?_, he.refl _, ?_, ?_⟩
    · rw [hnodes]
      simp
    · rw [addKey, any_eq_false_of_forall hnone, hnodes]
      simp
    · intro key
      rw [hnodes, lookup_append]

lemma run_represents [Inhabited V] (he : KeyEquality hash equal) (h : MapInv hash equal m)
    {calls : List (MapCall K V)} (hr : Represents equal calls m.nodeBuffer) (c : MapCall K V) :
    ∃ m', c.run hash equal m = some m' ∧ MapInv hash equal m' ∧
      Represents equal (calls ++ [c]) m'.nodeBuffer := by
  cases c with
  | insert v =>
    obtain ⟨m', i, b, n, hins, hinv, -, -, hkeys, hvalues⟩ := insert_represents he h v
    refine ⟨m', by simp [MapCall.run, hins], hinv, ?_, ?_⟩
    · rw [hkeys, hr.keys_eq, ← distinctKeys_append]
      simp [insertedKeys, MapCall.insertedKey]
    · intro key
      rw [hvalues, hr.values_eq, valueOf_append]
      rfl
  | subscript idx f =>
    obtain ⟨m', i, b, n, hins, hinv, hn, heq, hkeys, hvalues⟩ :=
      insert_represents he h (idx, default)
    refine ⟨_, by rw [MapCall.run, Map.subscript, hins, Option.map_some],
      hinv.congr (map_fst_modify _ _ _), ?_, ?_⟩
    · dsimp only
      rw [map_fst_modify, hkeys, hr.keys_eq, ← distinctKeys_append]
      simp [insertedKeys, MapCall.insertedKey]
    · intro key
      dsimp only
      rw [lookup_modify he hinv.distinct hn heq, hvalues, hr.values_eq, valueOf_append,
        MapCall.update]
      split <;> simp [*]
  | find key =>
    have hfind : ∃ r, m.find hash equal key = some r := by
      rcases find_spec he h key with ⟨i, n, hfind, -⟩ | ⟨hfind, -⟩
      · exact ⟨_, hfind⟩
      · exact ⟨_, hfind⟩
    obtain ⟨r, hfind⟩ := hfind
    refine ⟨m, by simp [MapCall.run, hfind], h, ?_, ?_⟩
    · rw [hr.keys_eq]
      simp [insertedKeys, List.filterMap_cons, MapCall.insertedKey]
    · intro key'
      rw [hr.values_eq, valueOf_append]
      rfl

lemma runCalls_represents [Inhabited V] (he : KeyEquality hash equal)
    (calls : List (MapCall K V)) :
    ∃ m, runCalls hash equal calls = some m ∧ MapInv hash equal m ∧
      Represents equal calls m.nodeBuffer := by
  induction calls using List.reverseRecOn with
  | nil =>
    refine ⟨emptyMap, rfl, mapInv_empty hash equal, rfl, ?_⟩
    intro key
    rfl
  | append_singleton calls c ih =>
    obtain ⟨m, hrun, hinv, hr⟩ := ih
    obtain ⟨m', hc, hinv', hr'⟩ := run_represents he hinv hr c
    refine ⟨m', ?_, hinv', hr'⟩
    unfold runCalls at hrun ⊢
    rw [List.foldlM_append, hrun]
    simpa using hc

lemma find_eq_none_of_lookup (he : KeyEquality hash equal) (h : MapInv hash equal m) {key : K}
    (hnone : lookup equal m.nodeBuffer key = none) : m.find hash equal key = some none := by
  rcases find_spec he h key with ⟨i, n, -, hn, heq⟩ | ⟨hfind, -⟩
  · rw [lookup_of_getElem? he h.distinct hn heq] at hnone
    cases hnone
  · exact hfind

lemma find_eq_some_of_lookup (he : KeyEquality hash equal) (h : MapInv hash equal m) {key : K}
    {v : V} (hsome : lookup equal m.nodeBuffer key = some v) :
    ∃ i n, m.find hash equal key = some (some i) ∧ m.nodeBuffer[i]? = some n ∧
      equal n.1 key = true ∧ n.2 = v := by
  rcases find_spec he h key with ⟨i, n, hfind, hn, heq⟩ | ⟨-, hnone⟩
  · rw [lookup_of_getElem? he h.distinct hn heq, Option.some.injEq] at hsome
    exact ⟨i, n, hfind, hn, heq, hsome⟩
  · rw [lookup_eq_none.mpr hnone] at hsome
    cases hsome

lemma find_congr (he : KeyEquality hash equal) {m' : Map K V} (h : MapInv hash equal m)
    (h' : MapInv hash equal m') (hnodes : m'.nodeBuffer = m.nodeBuffer) (key : K) :
    m'.find hash equal key = m.find hash equal key := by
  rcases find_spec he h' key with ⟨i, n, hfind, hn, heq⟩ | ⟨hfind, hnone⟩
  · rw [hnodes] at hn
    obtain ⟨j, n', hfind', hn', heq', -⟩ :=
      find_eq_some_of_lookup he h (lookup_of_getElem? he h.distinct hn heq)
    rw [hfind, hfind', index_unique he h.distinct hn hn' heq heq']
  · rw [hnodes] at hnone
    rw [hfind, find_eq_none_of_lookup he h (lookup_eq_none.mpr hnone)]

/-- After any calls the map holds each distinct key once, in the order of the first insertions.
A search gives the value of the first insertion with its later changes. An insertion of a key
that is present changes no node and no search, and says so. -/
theorem map_insertionOrdered [Inhabited V] (he : KeyEquality hash equal)
    (calls : List (MapCall K V)) :
    ∃ m, runCalls hash equal calls = some m ∧
      m.nodeBuffer.map Prod.fst = distinctKeys equal (insertedKeys calls) ∧
      m.nodeBuffer.Pairwise (fun a b => equal a.1 b.1 = false) ∧
      (∀ key, valueOf equal calls key = none → m.find hash equal key = some none) ∧
      (∀ key v, valueOf equal calls key = some v →
        ∃ i n, m.find hash equal key = some (some i) ∧ m.nodeBuffer[i]? = some n ∧
          equal n.1 key = true ∧ n.2 = v) ∧
      (∀ v : K × V, valueOf equal calls v.1 = none →
        ∃ m', m.insert hash equal v = some (m', m.nodeBuffer.length, true) ∧
          m'.nodeBuffer = m.nodeBuffer ++ [v]) ∧
      ∀ (v : K × V) (w : V), valueOf equal calls v.1 = some w →
        ∃ m' i, m.insert hash equal v = some (m', i, false) ∧
          m.find hash equal v.1 = some (some i) ∧ m'.nodeBuffer = m.nodeBuffer ∧
          ∀ key, m'.find hash equal key = m.find hash equal key := by
  obtain ⟨m, hrun, hinv, hr⟩ := runCalls_represents he calls
  refine ⟨m, hrun, hr.keys_eq, hinv.distinct, ?_, ?_, ?_, ?_⟩
  · intro key hnone
    rw [← hr.values_eq] at hnone
    exact find_eq_none_of_lookup he hinv hnone
  · intro key v hsome
    rw [← hr.values_eq] at hsome
    exact find_eq_some_of_lookup he hinv hsome
  · intro v hnone
    rw [← hr.values_eq] at hnone
    rcases insert_spec he hinv v with ⟨m', i, n, -, -, -, hn, heq⟩ | ⟨m', hins, -, hnodes, -⟩
    · rw [lookup_of_getElem? he hinv.distinct hn heq] at hnone
      cases hnone
    · exact ⟨m', hins, hnodes⟩
  · intro v w hsome
    rw [← hr.values_eq] at hsome
    obtain ⟨j, n', hfind, hn', heq', -⟩ := find_eq_some_of_lookup he hinv hsome
    rcases insert_spec he hinv v with ⟨m', i, n, hins, hinv', hnodes, hn, heq⟩ | ⟨m', -, -, -, hnone⟩
    · rw [← index_unique he hinv.distinct hn hn' heq heq'] at hfind
      exact ⟨m', i, hins, hfind, hnodes, find_congr he hinv hinv' hnodes⟩
    · rw [lookup_eq_none.mpr hnone] at hsome
      cases hsome

lemma keyEquality_beq : KeyEquality (fun n : Nat => n) (fun a b => a == b) := by
  constructor
  · simp
  · intro a b h
    simpa using (eq_of_beq h).symm
  · intro a b c hab hbc
    simpa using (eq_of_beq hab).trans (eq_of_beq hbc)
  · intro a b h
    exact eq_of_beq h

theorem map_insertionOrdered_two :
    KeyEquality (fun n : Nat => n) (fun a b => a == b) ∧
    ∃ m : Map Nat Nat, runCalls (fun n => n) (fun a b => a == b)
        [.insert (1025, 2), .subscript 1 (fun _ => 5), .insert (1025, 7),
          .subscript 1025 (fun n => n + 1)] = some m ∧
      m.nodeBuffer.map Prod.fst = [1025, 1] ∧
      ∃ i n, m.find (fun n => n) (fun a b => a == b) 1025 = some (some i) ∧
        m.nodeBuffer[i]? = some n ∧ n.2 = 3 := by
  refine ⟨keyEquality_beq, ?_⟩
  obtain ⟨m, hrun, hkeys, -, -, hfind, -⟩ := map_insertionOrdered keyEquality_beq
    [.insert (1025, 2), .subscript 1 (fun _ => 5), .insert (1025, 7),
      .subscript 1025 (fun n : Nat => n + 1)]
  obtain ⟨i, n, hi, hn, -, hv⟩ := hfind 1025 3 rfl
  exact ⟨m, hrun, hkeys, i, n, hi, hn, hv⟩

end Refinement

end Dyld.Containers
