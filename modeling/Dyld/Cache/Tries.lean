import Dyld.Lib.Layout
import Dyld.Lib.RadixTree

/-!
# Tries of the cache builder

`Trie` stores symbols or paths in a radix tree. `emit` puts its nodes in an order, finds an offset for
each of them and writes them out. The offsets are numbers of variable length, so nodes move when the
offsets of their children get longer, and the assignment is repeated until nothing moves.
-/

namespace Dyld.Cache.Tries

open Dyld.Lib

/-! ### Numbers of variable length -/

/-- The loop of `append_uleb128`, for at most `n` bytes. -/
def appendUlebFrom : Nat → Nat → List UInt8
  | 0, _ => []
  | n + 1, value =>
    if value / 128 = 0 then [UInt8.ofNat (value % 128)]
    else UInt8.ofNat (value % 128 + 128) :: appendUlebFrom n (value / 128)

/-- `append_uleb128`. Ten bytes are enough for 64 bits. -/
def appendUleb128 (value : Nat) : List UInt8 := appendUlebFrom 10 value

/-- The loop of `uleb128_size`, for at most `n` bytes. -/
def ulebSizeFrom : Nat → Nat → Nat
  | 0, _ => 0
  | n + 1, value => if value / 128 = 0 then 1 else ulebSizeFrom n (value / 128) + 1

def uleb128Size (value : Nat) : Nat := ulebSizeFrom 10 value

lemma length_appendUlebFrom (n value : Nat) : (appendUlebFrom n value).length = ulebSizeFrom n value := by
  induction n generalizing value with
  | zero => rfl
  | succ n ih =>
    rw [appendUlebFrom, ulebSizeFrom]
    split
    · rfl
    · rw [List.length_cons, ih]

lemma length_appendUleb128 (value : Nat) : (appendUleb128 value).length = uleb128Size value :=
  length_appendUlebFrom 10 value

lemma appendUleb128_ne_nil (value : Nat) : appendUleb128 value ≠ [] := by
  rw [appendUleb128, appendUlebFrom]
  split <;> exact List.cons_ne_nil _ _

lemma ulebSizeFrom_mono (n : Nat) {a b : Nat} (h : a ≤ b) : ulebSizeFrom n a ≤ ulebSizeFrom n b := by
  induction n generalizing a b with
  | zero => exact le_rfl
  | succ n ih =>
    have hdiv := Nat.div_le_div_right (c := 128) h
    have hrest := ih hdiv
    rw [ulebSizeFrom, ulebSizeFrom]
    split_ifs <;> omega

lemma uleb128Size_mono {a b : Nat} (h : a ≤ b) : uleb128Size a ≤ uleb128Size b := ulebSizeFrom_mono 10 h

/-! ### What is stored -/

/-- What `Trie` asks of the infos it stores. In the stream an info is `payload`, behind its length in
one byte. -/
class TrieInfo (V : Type) where
  encodedSize : V → Nat
  appendToStream : V → List UInt8
  willInsertAs : List UInt8 → V → V
  payload : V → List UInt8
  appendToStream_eq : ∀ v, appendToStream v = UInt8.ofNat (payload v).length :: payload v
  encodedSize_eq : ∀ v, encodedSize v = (payload v).length % 2 ^ 32
  payload_ne_nil : ∀ v, payload v ≠ []

structure ExportInfo where
  address : UInt64
  flags : UInt64
  other : UInt64
  importName : List UInt8
  deriving DecidableEq, Repr

namespace ExportInfo

variable (info : ExportInfo)

/-- `EXPORT_SYMBOL_FLAGS_REEXPORT` is set. -/
def isReexport : Bool := info.flags &&& 0x08 ≠ 0

/-- `EXPORT_SYMBOL_FLAGS_STUB_AND_RESOLVER` is set. -/
def isStubAndResolver : Bool := info.flags &&& 0x10 ≠ 0

def encodedSize : Nat :=
  (if info.isReexport then
      uleb128Size info.flags.toNat + uleb128Size info.other.toNat +
        (if info.importName ≠ [] then info.importName.length else 0) + 1
    else
      uleb128Size info.flags.toNat + uleb128Size info.address.toNat +
        (if info.isStubAndResolver then uleb128Size info.other.toNat else 0)) % 2 ^ 32

/-- `ExportInfo::appendToStream`: the size is pushed as one byte. -/
def appendToStream : List UInt8 :=
  if info.isReexport then
    if info.importName ≠ [] then
      UInt8.ofNat (uleb128Size info.flags.toNat + uleb128Size info.other.toNat +
          info.importName.length + 1) ::
        (appendUleb128 info.flags.toNat ++ appendUleb128 info.other.toNat ++ info.importName ++ [0])
    else
      UInt8.ofNat (uleb128Size info.flags.toNat + uleb128Size info.other.toNat + 1) ::
        (appendUleb128 info.flags.toNat ++ appendUleb128 info.other.toNat ++ [0])
  else if info.isStubAndResolver then
    UInt8.ofNat (uleb128Size info.flags.toNat + uleb128Size info.address.toNat +
        uleb128Size info.other.toNat) ::
      (appendUleb128 info.flags.toNat ++ appendUleb128 info.address.toNat ++
        appendUleb128 info.other.toNat)
  else
    UInt8.ofNat (uleb128Size info.flags.toNat + uleb128Size info.address.toNat) ::
      (appendUleb128 info.flags.toNat ++ appendUleb128 info.address.toNat)

def willInsertAs (name : List UInt8) : ExportInfo :=
  if name = info.importName then { info with importName := [] } else info

/-- What stands for the info in the stream. -/
def payload : List UInt8 :=
  if info.isReexport then
    appendUleb128 info.flags.toNat ++ appendUleb128 info.other.toNat ++ info.importName ++ [0]
  else if info.isStubAndResolver then
    appendUleb128 info.flags.toNat ++ appendUleb128 info.address.toNat ++
      appendUleb128 info.other.toNat
  else appendUleb128 info.flags.toNat ++ appendUleb128 info.address.toNat

end ExportInfo

/-- The info of the tries of paths. -/
structure DylibIndex where
  index : UInt32
  deriving DecidableEq, Repr

namespace DylibIndex

variable (info : DylibIndex)

def encodedSize : Nat := uleb128Size info.index.toNat

def appendToStream : List UInt8 :=
  UInt8.ofNat (uleb128Size info.index.toNat) :: appendUleb128 info.index.toNat

end DylibIndex

instance : TrieInfo ExportInfo where
  encodedSize := ExportInfo.encodedSize
  appendToStream := ExportInfo.appendToStream
  willInsertAs := fun name info => info.willInsertAs name
  payload := ExportInfo.payload
  appendToStream_eq := by
    intro info
    rw [ExportInfo.appendToStream, ExportInfo.payload]
    split_ifs with hreexport hname hstub
    · simp [length_appendUleb128, Nat.add_assoc]
    · rw [not_not] at hname
      simp [length_appendUleb128, hname, Nat.add_assoc]
    · simp [length_appendUleb128, Nat.add_assoc]
    · simp [length_appendUleb128]
  encodedSize_eq := by
    intro info
    rw [ExportInfo.encodedSize, ExportInfo.payload]
    split_ifs with hreexport hname hstub
    · simp [length_appendUleb128, Nat.add_assoc]
    · rw [not_not] at hname
      simp [length_appendUleb128, hname, Nat.add_assoc]
    · simp [length_appendUleb128, Nat.add_assoc]
    · simp [length_appendUleb128]
  payload_ne_nil := by
    intro info
    rw [ExportInfo.payload]
    split_ifs <;> simp [appendUleb128_ne_nil]

instance : TrieInfo DylibIndex where
  encodedSize := DylibIndex.encodedSize
  appendToStream := DylibIndex.appendToStream
  willInsertAs := fun _ info => info
  payload := fun info => appendUleb128 info.index.toNat
  appendToStream_eq := by
    intro info
    rw [DylibIndex.appendToStream, length_appendUleb128]
  encodedSize_eq := by
    intro info
    have hlt : uleb128Size info.index.toNat ≤ uleb128Size (2 ^ 32 - 1) :=
      uleb128Size_mono (Nat.le_pred_of_lt info.index.toNat_lt)
    have hfive : uleb128Size (2 ^ 32 - 1) = 5 := by decide
    rw [length_appendUleb128, DylibIndex.encodedSize, Nat.mod_eq_of_lt (by omega)]
  payload_ne_nil := fun info => appendUleb128_ne_nil _

/-! ### The trie -/

structure Trie (V : Type) where
  info : Option V
  fChildren : Edges UInt8 V

/-- The order of a `std::map` with strings as keys. -/
def stringBefore (s t : List UInt8) : Bool := decide (s < t)

section Emit

variable {V : Type} [TrieInfo V]

def addEntry (trie : Trie V) (entry : List UInt8 × V) : Trie V :=
  let v := TrieInfo.willInsertAs entry.1 entry.2
  match trie.fChildren.add stringBefore entry.1 v with
  | some fChildren => { trie with fChildren := fChildren }
  | none =>
    let root := Edges.place stringBefore trie.info trie.fChildren entry.1 v
    ⟨root.1, root.2⟩

def build (entries : List (List UInt8 × V)) : Trie V := entries.foldl addEntry ⟨none, .nil⟩

structure OrderedNode (V : Type) where
  info : Option V
  fChildren : List (List UInt8 × Nat)

def childPlaces (k : Nat) : Edges UInt8 V → List (List UInt8 × Nat)
  | .nil => []
  | .cons label _ below rest => (label, k) :: childPlaces (k + 1 + below.count) rest

def orderEdges (k : Nat) : Edges UInt8 V → List (OrderedNode V)
  | .nil => []
  | .cons _ info below rest =>
    ⟨info, childPlaces (k + 1) below⟩ :: (orderEdges (k + 1) below ++
      orderEdges (k + 1 + below.count) rest)

def orderTrie (trie : Trie V) : List (OrderedNode V) :=
  ⟨trie.info, childPlaces 1 trie.fChildren⟩ :: orderEdges 1 trie.fChildren

/-- The `nodeSize` of `Node::updateOffset`. -/
def OrderedNode.nodeSize (node : OrderedNode V) (fTrieOffset : Nat → Nat) : Nat :=
  (match node.info with
    | none => 1
    | some v => TrieInfo.encodedSize v + uleb128Size (TrieInfo.encodedSize v)) + 1 +
    (node.fChildren.map (fun edge => edge.1.length + 1 + uleb128Size (fTrieOffset edge.2))).sum

def OrderedNode.appendToStream (node : OrderedNode V) (fTrieOffset : Nat → Nat) : List UInt8 :=
  (match node.info with
    | none => [0]
    | some v => TrieInfo.appendToStream v) ++ UInt8.ofNat node.fChildren.length ::
    node.fChildren.flatMap (fun edge => edge.1 ++ 0 :: appendUleb128 (fTrieOffset edge.2))

def sizeAt (nodes : List (OrderedNode V)) (i : Nat) (fTrieOffset : Nat → Nat) : Nat :=
  (nodes[i]?.map (fun node => node.nodeSize fTrieOffset)).getD 0

def emit (fuel : Nat) (trie : Trie V) : Option (List UInt8) :=
  let orderedNodes := orderTrie trie
  (Layout.settle (2 ^ 32) (sizeAt orderedNodes) orderedNodes.length fuel (fun _ => 0)).map
    (fun fTrieOffset => orderedNodes.flatMap (fun node => node.appendToStream fTrieOffset))

end Emit

/-! ### What a trie stores -/

section Build

variable {V : Type} [TrieInfo V]

def stored (entries : List (List UInt8 × V)) : List (List UInt8 × V) :=
  entries.map (fun e => (e.1, TrieInfo.willInsertAs e.1 e.2))

/-- The symbols of the labels are not `NUL`, and the root has no info. -/
structure Trie.Good (trie : Trie V) : Prop where
  root : trie.info = none
  edges : trie.fChildren.Good (· ≠ 0)

lemma addEntry_good {trie : Trie V} (h : trie.Good) {entry : List UInt8 × V} (hne : entry.1 ≠ [])
    (hnul : ∀ c ∈ entry.1, c ≠ 0) : (addEntry trie entry).Good := by
  rw [addEntry]
  cases hadd : trie.fChildren.add stringBefore entry.1 (TrieInfo.willInsertAs entry.1 entry.2) with
  | some fChildren =>
    have hedges : fChildren.Good (· ≠ 0) := h.edges.add hnul hadd
    dsimp only
    exact ⟨h.root, hedges⟩
  | none =>
    have hhead : ∀ c, entry.1.head? = some c → c ∉ trie.fChildren.heads :=
      fun c hc => Edges.not_mem_heads_of_add_eq_none h.edges hadd hc
    dsimp only
    refine ⟨?_, h.edges.place hnul hhead _ _⟩
    rw [Edges.place, if_neg hne]
    exact h.root

lemma entries_addEntry {trie : Trie V} {entry : List UInt8 × V} (hne : entry.1 ≠ [])
    (hnew : entry.1 ∉ trie.fChildren.entries.map Prod.fst) :
    (addEntry trie entry).fChildren.entries.Perm
      ((entry.1, TrieInfo.willInsertAs entry.1 entry.2) :: trie.fChildren.entries) := by
  rw [addEntry]
  cases hadd : trie.fChildren.add stringBefore entry.1 (TrieInfo.willInsertAs entry.1 entry.2) with
  | some fChildren =>
    dsimp only
    exact Edges.entries_add hadd hnew
  | none =>
    dsimp only
    rw [Edges.place, if_neg hne]
    refine (Edges.entries_insert _ _ _ _).trans ?_
    rw [Edges.entries]
    simp [Edges.entries]

/-- The names are different, not empty and without `NUL`. -/
structure ValidNames (entries : List (List UInt8 × V)) : Prop where
  nodup : (entries.map Prod.fst).Nodup
  nonempty : ∀ e ∈ entries, e.1 ≠ []
  noNul : ∀ e ∈ entries, ∀ c ∈ e.1, c ≠ 0

lemma build_spec {entries : List (List UInt8 × V)} (h : ValidNames entries) :
    (build entries).Good ∧ (build entries).fChildren.entries.Perm (stored entries) := by
  induction entries using List.reverseRecOn with
  | nil => exact ⟨⟨rfl, trivial⟩, List.Perm.refl _⟩
  | append_singleton entries entry ih =>
    have hmem : ∀ e ∈ entries, e ∈ entries ++ [entry] := fun e he => List.mem_append_left _ he
    have hlast : entry ∈ entries ++ [entry] := List.mem_append_right _ (List.mem_singleton_self _)
    have hnodup := h.nodup
    rw [List.map_append, List.nodup_append] at hnodup
    obtain ⟨hgood, hperm⟩ := ih
      ⟨hnodup.1, fun e he => h.nonempty e (hmem e he), fun e he => h.noNul e (hmem e he)⟩
    have hnew : entry.1 ∉ (build entries).fChildren.entries.map Prod.fst := by
      rw [(hperm.map Prod.fst).mem_iff, stored, List.map_map]
      intro hold
      exact hnodup.2.2 entry.1 hold entry.1 (by simp) rfl
    rw [build, List.foldl_concat, ← build]
    refine ⟨addEntry_good hgood (h.nonempty _ hlast) (h.noNul _ hlast), ?_⟩
    refine (entries_addEntry (h.nonempty _ hlast) hnew).trans ?_
    rw [stored, List.map_append]
    exact (hperm.cons _).trans (List.perm_append_singleton _ _).symm

end Build

/-! ### Where the nodes are -/

section Places

variable {V : Type} [TrieInfo V]

omit [TrieInfo V] in
lemma childPlaces_bounds {k : Nat} {f : Edges UInt8 V} {edge : List UInt8 × Nat}
    (h : edge ∈ childPlaces k f) : k ≤ edge.2 ∧ edge.2 < k + f.count := by
  induction f generalizing k with
  | nil => simp [childPlaces] at h
  | cons label info below rest _ ih =>
    rw [childPlaces, List.mem_cons] at h
    rw [Edges.count]
    cases h with
    | inl h =>
      subst h
      exact ⟨le_rfl, by dsimp only; omega⟩
    | inr h =>
      have hrest := ih h
      omega

omit [TrieInfo V] in
lemma length_orderEdges (k : Nat) (f : Edges UInt8 V) : (orderEdges k f).length = f.count := by
  induction f generalizing k with
  | nil => rfl
  | cons label info below rest ihbelow ihrest =>
    rw [orderEdges, Edges.count, List.length_cons, List.length_append, ihbelow, ihrest]
    omega

omit [TrieInfo V] in
/-- Children come behind their parents. -/
lemma lt_of_mem_orderEdges {k i : Nat} {f : Edges UInt8 V} {node : OrderedNode V}
    (h : (orderEdges k f)[i]? = some node) {edge : List UInt8 × Nat} (hedge : edge ∈ node.fChildren) :
    k + i < edge.2 ∧ edge.2 < k + f.count := by
  induction f generalizing k i with
  | nil => simp [orderEdges] at h
  | cons label info below rest ihbelow ihrest =>
    rw [Edges.count]
    cases i with
    | zero =>
      rw [orderEdges, List.getElem?_cons_zero, Option.some.injEq] at h
      subst h
      have hbounds := childPlaces_bounds hedge
      omega
    | succ i =>
      rw [orderEdges, List.getElem?_cons_succ] at h
      by_cases hi : i < below.count
      · rw [List.getElem?_append_left (by rwa [length_orderEdges])] at h
        have hbelow := ihbelow h
        omega
      · rw [List.getElem?_append_right (by rw [length_orderEdges]; omega), length_orderEdges] at h
        have hrest := ihrest h
        omega

variable {trie : Trie V}

omit [TrieInfo V] in
lemma lt_of_mem_orderTrie {i : Nat} {node : OrderedNode V} (h : (orderTrie trie)[i]? = some node)
    {edge : List UInt8 × Nat} (hedge : edge ∈ node.fChildren) :
    i < edge.2 ∧ edge.2 < (orderTrie trie).length := by
  rw [orderTrie, List.length_cons, length_orderEdges]
  cases i with
  | zero =>
    rw [orderTrie, List.getElem?_cons_zero, Option.some.injEq] at h
    subst h
    have hbounds := childPlaces_bounds hedge
    omega
  | succ i =>
    rw [orderTrie, List.getElem?_cons_succ] at h
    have hbounds := lt_of_mem_orderEdges h hedge
    omega

lemma forward_sizeAt : Layout.Forward (sizeAt (orderTrie trie)) := by
  intro i o o' hsame
  rw [sizeAt, sizeAt]
  cases hnode : (orderTrie trie)[i]? with
  | none => rfl
  | some node =>
    rw [Option.map_some, Option.map_some, Option.getD_some, Option.getD_some, OrderedNode.nodeSize,
      OrderedNode.nodeSize]
    congr 2
    apply List.map_congr_left
    intro edge hedge
    rw [hsame edge.2 (lt_of_mem_orderTrie hnode hedge).1]

lemma grows_sizeAt (nodes : List (OrderedNode V)) : Layout.Grows (sizeAt nodes) := by
  intro i o o' hle
  rw [sizeAt, sizeAt]
  cases nodes[i]? with
  | none => exact le_rfl
  | some node =>
    rw [Option.map_some, Option.map_some, Option.getD_some, Option.getD_some, OrderedNode.nodeSize,
      OrderedNode.nodeSize]
    apply Nat.add_le_add_left
    apply List.sum_le_sum
    intro edge _
    exact Nat.add_le_add_left (uleb128Size_mono (hle edge.2)) _

lemma sizeAt_pos {nodes : List (OrderedNode V)} {i : Nat} (hi : i < nodes.length) (o : Nat → Nat) :
    0 < sizeAt nodes i o := by
  rw [sizeAt, List.getElem?_eq_getElem hi, Option.map_some, Option.getD_some, OrderedNode.nodeSize]
  omega

/-- The nodes of the trie can be laid out in less than 4 GiB. -/
def Trie.Fits (trie : Trie V) : Prop :=
  ∃ L, Layout.Consistent (sizeAt (orderTrie trie)) (orderTrie trie).length L ∧
    Layout.position (sizeAt (orderTrie trie)) L (orderTrie trie).length < 2 ^ 32

/-- The size of every info fits the seven bits of a byte. -/
def ShortInfos (nodes : List (OrderedNode V)) : Prop :=
  ∀ node ∈ nodes, ∀ v, node.info = some v → (TrieInfo.payload v).length < 128

omit [TrieInfo V] in
lemma exists_mem_entries {k : Nat} {f : Edges UInt8 V} {node : OrderedNode V} (h : node ∈ orderEdges k f)
    {v : V} (hv : node.info = some v) : ∃ key, (key, v) ∈ f.entries := by
  induction f generalizing k with
  | nil => simp [orderEdges] at h
  | cons label info below rest ihbelow ihrest =>
    rw [orderEdges, List.mem_cons, List.mem_append] at h
    rw [Edges.entries_cons, Edges.nodeEntries]
    rcases h with h | h | h
    · subst h
      obtain rfl : info = some v := hv
      exact ⟨label, by simp⟩
    · obtain ⟨key, hkey⟩ := ihbelow h
      exact ⟨label ++ key, by simp [hkey]⟩
    · obtain ⟨key, hkey⟩ := ihrest h
      exact ⟨key, List.mem_append_right _ hkey⟩

lemma shortInfos_build {entries : List (List UInt8 × V)} (h : ValidNames entries)
    (hshort : ∀ e ∈ stored entries, (TrieInfo.payload e.2).length < 128) :
    ShortInfos (orderTrie (build entries)) := by
  obtain ⟨hgood, hperm⟩ := build_spec h
  intro node hnode v hv
  rw [orderTrie, List.mem_cons] at hnode
  cases hnode with
  | inl hroot =>
    rw [hroot] at hv
    simp [hgood.root] at hv
  | inr hnode =>
    obtain ⟨key, hkey⟩ := exists_mem_entries hnode hv
    exact hshort _ (hperm.mem_iff.mp hkey)

lemma uleb128Size_of_lt {value : Nat} (h : value < 128) : uleb128Size value = 1 := by
  rw [uleb128Size, ulebSizeFrom, if_pos (Nat.div_eq_of_lt h)]

lemma length_appendToStream {node : OrderedNode V}
    (hshort : ∀ v, node.info = some v → (TrieInfo.payload v).length < 128) (o : Nat → Nat) :
    (node.appendToStream o).length = node.nodeSize o := by
  have hedges : (node.fChildren.flatMap (fun edge => edge.1 ++ 0 :: appendUleb128 (o edge.2))).length =
      (node.fChildren.map (fun edge => edge.1.length + 1 + uleb128Size (o edge.2))).sum := by
    rw [List.length_flatMap]
    congr 1
    apply List.map_congr_left
    intro edge _
    rw [List.length_append, List.length_cons, length_appendUleb128]
    omega
  rw [OrderedNode.appendToStream, OrderedNode.nodeSize, List.length_append, List.length_cons, hedges]
  cases hinfo : node.info with
  | none =>
    dsimp only
    rw [List.length_singleton]
    omega
  | some v =>
    have hlt := hshort v hinfo
    dsimp only
    rw [TrieInfo.appendToStream_eq, TrieInfo.encodedSize_eq, Nat.mod_eq_of_lt (by omega),
      uleb128Size_of_lt hlt, List.length_cons]
    omega

lemma position_eq_length {nodes : List (OrderedNode V)} (hshort : ShortInfos nodes) (o : Nat → Nat)
    {i : Nat} (hi : i ≤ nodes.length) :
    Layout.position (sizeAt nodes) o i =
      ((nodes.take i).flatMap (fun node => node.appendToStream o)).length := by
  induction i with
  | zero => simp [Layout.position]
  | succ i ih =>
    have hlt : i < nodes.length := hi
    rw [Layout.position_succ, ih (by omega), ← List.take_concat_get' nodes i hlt, List.flatMap_append,
      List.length_append, List.flatMap_singleton,
      length_appendToStream (fun v hv => hshort _ (List.getElem_mem hlt) v hv), sizeAt,
      List.getElem?_eq_getElem hlt]
    rfl

lemma drop_offset {nodes : List (OrderedNode V)} (hshort : ShortInfos nodes) {o : Nat → Nat}
    (ho : Layout.Consistent (sizeAt nodes) nodes.length o) {i : Nat} {node : OrderedNode V}
    (hnode : nodes[i]? = some node) :
    ∃ more, (nodes.flatMap (fun node => node.appendToStream o)).drop (o i) =
      node.appendToStream o ++ more := by
  obtain ⟨hlt, hget⟩ := List.getElem?_eq_some_iff.mp hnode
  refine ⟨(nodes.drop (i + 1)).flatMap (fun node => node.appendToStream o), ?_⟩
  have hsplit : nodes.take i ++ node :: nodes.drop (i + 1) = nodes := by
    rw [← hget, ← List.drop_eq_getElem_cons hlt, List.take_append_drop]
  rw [ho i hlt, position_eq_length hshort o hlt.le]
  conv_lhs => rw [← hsplit]
  rw [List.flatMap_append, List.flatMap_cons, hsplit, List.drop_left]

lemma emit_of_le {fuel fuel' : Nat} (h : fuel ≤ fuel') {bytes : List UInt8}
    (hemit : emit fuel trie = some bytes) : emit fuel' trie = some bytes := by
  rw [emit, Option.map_eq_some_iff] at hemit ⊢
  obtain ⟨o, ho, hbytes⟩ := hemit
  exact ⟨o, Layout.settle_of_le h ho, hbytes⟩

lemma exists_emit (hfits : trie.Fits) (hshort : ShortInfos (orderTrie trie)) :
    ∃ o bytes, Layout.Consistent (sizeAt (orderTrie trie)) (orderTrie trie).length o ∧
      bytes = (orderTrie trie).flatMap (fun node => node.appendToStream o) ∧ bytes.length < 2 ^ 32 ∧
      ∃ k, ∀ fuel, k ≤ fuel → emit fuel trie = some bytes := by
  obtain ⟨L, hL, hlt⟩ := hfits
  obtain ⟨o, ho, hle, k, hk⟩ := Layout.exists_settle forward_sizeAt (grows_sizeAt _) hL hlt
    (fun j => Nat.zero_le (L j)) (fun i _ => Nat.zero_le _)
  refine ⟨o, _, ho, rfl, ?_, k, fun fuel hfuel => ?_⟩
  · have hlength := position_eq_length hshort o le_rfl
    rw [List.take_length] at hlength
    rw [← hlength]
    exact ((grows_sizeAt _).position_le hle _).trans_lt hlt
  · rw [emit, hk fuel hfuel]
    rfl

end Places

/-! ### The passes of `emit` -/

section Passes

variable {V : Type} [TrieInfo V]

/-- `fTrieOffset` of the nodes after a number of passes. -/
def offsetsAfter (trie : Trie V) (k : Nat) : Nat → Nat :=
  Layout.after (2 ^ 32) (sizeAt (orderTrie trie)) (orderTrie trie).length (fun _ => 0) k

/-- The sum of the sizes that `updateOffset` computes for the nodes in front of a node. -/
def sizeBefore (trie : Trie V) (fTrieOffset : Nat → Nat) (i : Nat) : Nat :=
  (((orderTrie trie).take i).map (fun node => node.nodeSize fTrieOffset)).sum

def StaysBelow4GiB (trie : Trie V) : Prop :=
  ∀ k, sizeBefore trie (offsetsAfter trie k) (orderTrie trie).length < 2 ^ 32

lemma position_eq_sizeBefore (trie : Trie V) (o : Nat → Nat) {i : Nat} (hi : i ≤ (orderTrie trie).length) :
    Layout.position (sizeAt (orderTrie trie)) o i = sizeBefore trie o i := by
  induction i with
  | zero => rfl
  | succ i ih =>
    have hlt : i < (orderTrie trie).length := hi
    rw [Layout.position_succ, ih hlt.le, sizeBefore, sizeBefore, ← List.take_concat_get' _ i hlt,
      List.map_append, List.sum_append, List.map_singleton, List.sum_singleton, sizeAt,
      List.getElem?_eq_getElem hlt]
    rfl

lemma staysBelow_iff (trie : Trie V) : StaysBelow4GiB trie ↔
    Layout.StaysBelow (2 ^ 32) (sizeAt (orderTrie trie)) (orderTrie trie).length (fun _ => 0) := by
  apply forall_congr'
  intro k
  rw [← position_eq_sizeBefore trie _ le_rfl]
  rfl

/-- The passes of `emit` end, offsets do not get less from one pass to the next, and at the end every node
is where the nodes in front of it end. -/
theorem emit_settles (trie : Trie V) (hbelow : StaysBelow4GiB trie) :
    (∀ k i, offsetsAfter trie k i ≤ offsetsAfter trie (k + 1) i) ∧
      ∃ k passes, (∀ fuel ≥ passes, emit fuel trie =
          some ((orderTrie trie).flatMap (fun node => node.appendToStream (offsetsAfter trie k)))) ∧
        ∀ i < (orderTrie trie).length, offsetsAfter trie k i = sizeBefore trie (offsetsAfter trie k) i := by
  have hlayout := (staysBelow_iff trie).mp hbelow
  constructor
  · exact Layout.after_le_succ forward_sizeAt (grows_sizeAt _) (fun i _ => Nat.zero_le _) hlayout
  · obtain ⟨o, passes, hsettle, hconsistent⟩ := Layout.exists_settle_of_staysBelow forward_sizeAt
      (grows_sizeAt _) (fun i _ => Nat.zero_le _) hlayout
    obtain ⟨k, rfl⟩ := Layout.exists_after_of_settle hsettle
    refine ⟨k, passes, ?_, ?_⟩
    · intro fuel hfuel
      rw [emit, Layout.settle_of_le hfuel hsettle]
      rfl
    · intro i hi
      have hoffset := hconsistent i hi
      rw [position_eq_sizeBefore trie _ hi.le] at hoffset
      exact hoffset

lemma staysBelow_of_fits {trie : Trie V} (h : trie.Fits) : StaysBelow4GiB trie := by
  obtain ⟨L, hL, hlt⟩ := h
  rw [staysBelow_iff]
  exact Layout.staysBelow_of_consistent forward_sizeAt (grows_sizeAt _) hL hlt fun j => Nat.zero_le (L j)

end Passes

def twoSymbols : Trie ExportInfo := build [([97, 98], ⟨0x1000, 0, 0, []⟩), ([97, 99], ⟨0x2000, 0, 0, []⟩)]

theorem emit_settles_twoSymbols : ∃ k, ∀ i < (orderTrie twoSymbols).length,
    offsetsAfter twoSymbols k i = sizeBefore twoSymbols (offsetsAfter twoSymbols k) i := by
  have hfits : twoSymbols.Fits := by
    refine ⟨fun i => [0, 5, 13, 18].getD i 0, ?_, by decide +kernel⟩
    unfold Layout.Consistent
    decide +kernel
  obtain ⟨k, -, -, hoffsets⟩ := (emit_settles twoSymbols (staysBelow_of_fits hfits)).2
  exact ⟨k, hoffsets⟩

end Dyld.Cache.Tries
