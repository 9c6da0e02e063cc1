import Dyld.Containers.Map

/-!
# The map with several values for a key

`dyld3::MultiMap` keeps one node for each insertion. The nodes of equal keys form a chain
through the array of nodes: its first node is the head, the last one the tail, and only the
first one is in the hash buffer. `threadedNode` says what each node has to look like, from the
list of the insertions alone.
-/

namespace Dyld.Containers
open Dyld.Lib

structure NextNode where
  isDuplicateHead : Bool
  isDuplicateEntry : Bool
  isDuplicateTail : Bool
  nextIndex : Nat
  deriving DecidableEq, Repr

namespace NextNode

def hasAnyDuplicates (n : NextNode) : Bool :=
  n.isDuplicateHead || n.isDuplicateEntry || n.isDuplicateTail

def hasMoreDuplicates (n : NextNode) : Bool := n.isDuplicateHead || n.isDuplicateEntry

def makeNoDuplicates : NextNode := ⟨false, false, false, 0⟩

def makeDuplicateTailNode : NextNode := ⟨false, false, true, 0⟩

end NextNode

structure MultiMap (K V : Type) where
  nextHashBufferGrowth : Nat
  hashBufferUseCount : Nat
  hashBuffer : ProbeTable
  nodeBuffer : List (K × V × NextNode)

section Operations

variable {K V : Type} (hash : K → Nat) (equal : K → K → Bool)

def emptyMultiMap : MultiMap K V := ⟨768, 0, List.replicate 1024 none, []⟩

def headIndices (nodeBuffer : List (K × V × NextNode)) : List (Nat × Nat) :=
  (nodeBuffer.zipIdx.filter (fun n =>
    !(n.1.2.2.isDuplicateEntry || n.1.2.2.isDuplicateTail))).map (fun n => (hash n.1.1, n.2))

def chainEnd (nodeBuffer : List (K × V × NextNode)) : Nat → Nat → Option Nat
  | 0, _ => none
  | fuel + 1, nodeBufferIndex =>
    match nodeBuffer[nodeBufferIndex]? with
    | none => none
    | some n =>
      if n.2.2.hasMoreDuplicates then chainEnd nodeBuffer fuel n.2.2.nextIndex
      else some nodeBufferIndex

/-- Makes the last node of a chain point to the node at `count`, a 29-bit field. -/
def linkTail (tailNode : NextNode) (count : Nat) : Option NextNode :=
  if !tailNode.hasAnyDuplicates then
    some { tailNode with isDuplicateHead := true, nextIndex := count % 2 ^ 29 }
  else if tailNode.isDuplicateTail then
    some { tailNode with isDuplicateTail := false, isDuplicateEntry := true,
                         nextIndex := count % 2 ^ 29 }
  else none

/-- The number of values after the head of a chain. -/
def countValues (nodeBuffer : List (K × V × NextNode)) : Nat → NextNode → Option Nat
  | 0, _ => none
  | fuel + 1, nextNode =>
    match nodeBuffer[nextNode.nextIndex]? with
    | none => none
    | some n =>
      if n.2.2.hasMoreDuplicates then (countValues nodeBuffer fuel n.2.2).map (· + 1)
      else some 1

/-- The values after the head of a chain. -/
def copyValues (nodeBuffer : List (K × V × NextNode)) : Nat → NextNode → Option (List V)
  | 0, _ => none
  | fuel + 1, nextNode =>
    match nodeBuffer[nextNode.nextIndex]? with
    | none => none
    | some n =>
      if n.2.2.hasMoreDuplicates then (copyValues nodeBuffer fuel n.2.2).map (n.2.1 :: ·)
      else some [n.2.1]

namespace MultiMap

def sameKey (m : MultiMap K V) (key : K) (i : Nat) : Option Bool :=
  m.nodeBuffer[i]?.map (fun n => equal n.1 key)

def grow (m : MultiMap K V) : Option (MultiMap K V) :=
  if m.hashBufferUseCount = m.nextHashBufferGrowth then
    (placeAll (List.replicate (m.hashBuffer.length * 2) none)
      (headIndices hash m.nodeBuffer)).map
      (fun newHashBuffer => { m with nextHashBufferGrowth := m.nextHashBufferGrowth * 2
                                     hashBuffer := newHashBuffer })
  else some m

/-- Puts a node at the end of the chain that starts at the index. -/
def appendToChain (m : MultiMap K V) (v : K × V) (head : Nat) : Option (MultiMap K V) :=
  (chainEnd m.nodeBuffer m.nodeBuffer.length head).bind (fun i =>
    m.nodeBuffer[i]?.bind (fun n =>
      (linkTail n.2.2 m.nodeBuffer.length).map (fun tailNode =>
        { m with nodeBuffer := m.nodeBuffer.set i (n.1, n.2.1, tailNode) ++
                   [(v.1, v.2, NextNode.makeDuplicateTailNode)] })))

def insert (m : MultiMap K V) (v : K × V) : Option (MultiMap K V) :=
  (m.grow hash).bind (fun m =>
    match probe m.hashBuffer (hash v.1) (m.sameKey equal v.1) with
    | none => none
    | some (.vacant p) =>
      some { m with hashBuffer := m.hashBuffer.set p (some m.nodeBuffer.length)
                    hashBufferUseCount := m.hashBufferUseCount + 1
                    nodeBuffer := m.nodeBuffer ++ [(v.1, v.2, NextNode.makeNoDuplicates)] }
    | some (.found i) => m.appendToChain v i)

/-- What the loop over the nodes does with one node: the key and the values for the handler. The
array for the values is as long as the chain was counted to be. -/
def visitNode (m : MultiMap K V) (headNode : K × V × NextNode) : Option (List (K × List V)) :=
  if !headNode.2.2.hasAnyDuplicates then some [(headNode.1, [headNode.2.1])]
  else if !headNode.2.2.isDuplicateHead then some []
  else
    (countValues m.nodeBuffer m.nodeBuffer.length headNode.2.2).bind (fun valuesCount =>
      (copyValues m.nodeBuffer m.nodeBuffer.length headNode.2.2).bind (fun values =>
        if values.length ≤ valuesCount then some [(headNode.1, headNode.2.1 :: values)] else none))

/-- The calls of the handler. -/
def forEachEntry (m : MultiMap K V) : Option (List (K × List V)) :=
  (m.nodeBuffer.mapM m.visitNode).map List.flatten

end MultiMap

def insertAll (vs : List (K × V)) : Option (MultiMap K V) :=
  vs.foldlM (MultiMap.insert hash equal) emptyMultiMap

end Operations

/-! ### The chains that a list of insertions makes -/

section Threads

variable {K V : Type} (equal : K → K → Bool)

def keysBefore (vs : List (K × V)) (i : Nat) (k : K) : Bool :=
  (vs.take i).any (fun v => equal v.1 k)

/-- The next insertion of an equal key. -/
def nextEqual (vs : List (K × V)) (i : Nat) (k : K) : Option Nat :=
  ((vs.drop (i + 1)).findIdx? (fun v => equal v.1 k)).map (· + (i + 1))

def threadedNode (vs : List (K × V)) (i : Nat) (k : K) : NextNode :=
  { isDuplicateHead := !keysBefore equal vs i k && (nextEqual equal vs i k).isSome
    isDuplicateEntry := keysBefore equal vs i k && (nextEqual equal vs i k).isSome
    isDuplicateTail := keysBefore equal vs i k && (nextEqual equal vs i k).isNone
    nextIndex := (nextEqual equal vs i k).getD 0 }

/-- The nodes that the insertions make. -/
def threaded (vs : List (K × V)) : List (K × V × NextNode) :=
  vs.zipIdx.map (fun x => (x.1.1, x.1.2, threadedNode equal vs x.2 x.1.1))

end Threads

section Chains

variable {K V : Type} {hash : K → Nat} {equal : K → K → Bool}

lemma length_threaded (vs : List (K × V)) : (threaded equal vs).length = vs.length := by
  simp [threaded]

lemma getElem?_threaded (vs : List (K × V)) (i : Nat) :
    (threaded equal vs)[i]? =
      vs[i]?.map (fun v => (v.1, v.2, threadedNode equal vs i v.1)) := by
  simp [threaded, List.getElem?_zipIdx, Function.comp_def]

lemma hasMoreDuplicates_threadedNode (vs : List (K × V)) (i : Nat) (k : K) :
    (threadedNode equal vs i k).hasMoreDuplicates = (nextEqual equal vs i k).isSome := by
  unfold NextNode.hasMoreDuplicates threadedNode
  cases keysBefore equal vs i k <;> simp

lemma hasAnyDuplicates_threadedNode (vs : List (K × V)) (i : Nat) (k : K) :
    (threadedNode equal vs i k).hasAnyDuplicates =
      (keysBefore equal vs i k || (nextEqual equal vs i k).isSome) := by
  unfold NextNode.hasAnyDuplicates threadedNode
  cases keysBefore equal vs i k <;> cases nextEqual equal vs i k <;> rfl

lemma nextEqual_eq_some {vs : List (K × V)} {i j : Nat} {k : K}
    (h : nextEqual equal vs i k = some j) :
    i < j ∧ ∃ v, vs[j]? = some v ∧ equal v.1 k = true := by
  obtain ⟨d, hd, rfl⟩ := Option.map_eq_some_iff.mp h
  obtain ⟨hlt, htrue, -⟩ := List.findIdx?_eq_some_iff_getElem.mp hd
  refine ⟨by omega, _, ?_, htrue⟩
  rw [← List.getElem?_eq_getElem hlt, List.getElem?_drop]
  congr 1
  omega

lemma nextEqual_eq_none {vs : List (K × V)} {i : Nat} {k : K} :
    nextEqual equal vs i k = none ↔
      ∀ j v, i < j → vs[j]? = some v → equal v.1 k = false := by
  unfold nextEqual
  rw [Option.map_eq_none_iff, List.findIdx?_eq_none_iff]
  constructor
  · intro h j v hij hv
    apply h v
    apply List.mem_of_getElem? (i := j - (i + 1))
    rw [List.getElem?_drop, ← hv]
    congr 1
    omega
  · intro h v hv
    obtain ⟨d, hd⟩ := List.mem_iff_getElem?.mp hv
    rw [List.getElem?_drop] at hd
    exact h _ v (by omega) hd

lemma KeyEquality.equal_right (he : KeyEquality hash equal) {a b : K} (h : equal a b = true) (x : K) :
    equal x a = equal x b := by
  rw [Bool.eq_iff_iff]
  constructor
  · intro hx
    exact he.trans _ _ _ hx h
  · intro hx
    exact he.trans _ _ _ hx (he.symm _ _ h)

lemma nextEqual_congr (he : KeyEquality hash equal) {a b : K} (h : equal a b = true)
    (vs : List (K × V)) (i : Nat) : nextEqual equal vs i a = nextEqual equal vs i b := by
  unfold nextEqual
  simp only [he.equal_right h]

/-- The insertions of a key after an index are those from the next one on. -/
lemma filter_drop_nextEqual {vs : List (K × V)} {i j : Nat} {k : K}
    (h : nextEqual equal vs i k = some j) :
    (vs.drop (i + 1)).filter (fun v => equal v.1 k) =
      (vs.drop j).filter (fun v => equal v.1 k) := by
  obtain ⟨d, hd, rfl⟩ := Option.map_eq_some_iff.mp h
  obtain ⟨hlt, -, hfalse⟩ := List.findIdx?_eq_some_iff_getElem.mp hd
  have hnone : ((vs.drop (i + 1)).take d).filter (fun v => equal v.1 k) = [] := by
    rw [List.filter_eq_nil_iff]
    intro v hv
    obtain ⟨l, hl, rfl⟩ := List.mem_take_iff_getElem.mp hv
    exact hfalse l (by omega)
  rw [← List.take_append_drop d (vs.drop (i + 1)), List.filter_append, hnone, List.nil_append,
    List.drop_drop, Nat.add_comm (i + 1) d]

lemma filter_drop_eq_nil {vs : List (K × V)} {i : Nat} {k : K}
    (h : nextEqual equal vs i k = none) :
    (vs.drop (i + 1)).filter (fun v => equal v.1 k) = [] := by
  unfold nextEqual at h
  rw [Option.map_eq_none_iff, List.findIdx?_eq_none_iff] at h
  rw [List.filter_eq_nil_iff]
  intro v hv
  simp [h v hv]

/-- A walk along a chain ends at the last insertion of the key. -/
lemma chainEnd_threaded (he : KeyEquality hash equal) {vs : List (K × V)} {k : K} (fuel i : Nat)
    {v : K × V} (hv : vs[i]? = some v) (hk : equal v.1 k = true) (hfuel : vs.length - i ≤ fuel) :
    ∃ t w, chainEnd (threaded equal vs) fuel i = some t ∧ vs[t]? = some w ∧
      equal w.1 k = true ∧ nextEqual equal vs t w.1 = none := by
  induction fuel generalizing i v with
  | zero =>
    have := (List.getElem?_eq_some_iff.mp hv).1
    omega
  | succ fuel ih =>
    rw [chainEnd, getElem?_threaded, hv, Option.map_some]
    dsimp only
    rw [hasMoreDuplicates_threadedNode]
    cases hnext : nextEqual equal vs i v.1 with
    | none => exact ⟨i, v, rfl, hv, hk, hnext⟩
    | some j =>
      obtain ⟨hij, w, hw, hwv⟩ := nextEqual_eq_some hnext
      have hidx : (threadedNode equal vs i v.1).nextIndex = j := by
        simp [threadedNode, hnext]
      rw [hidx]
      exact ih j hw (he.trans _ _ _ hwv hk) (by omega)

/-- The values that are copied are those of the insertions of the key. -/
lemma copyValues_threaded (he : KeyEquality hash equal) {vs : List (K × V)} {k : K} (fuel : Nat)
    {nextNode : NextNode} {v : K × V} (hv : vs[nextNode.nextIndex]? = some v)
    (hk : equal v.1 k = true) (hfuel : vs.length - nextNode.nextIndex ≤ fuel) :
    copyValues (threaded equal vs) fuel nextNode =
      some (((vs.drop nextNode.nextIndex).filter (fun v => equal v.1 k)).map Prod.snd) := by
  induction fuel generalizing nextNode v with
  | zero =>
    have := (List.getElem?_eq_some_iff.mp hv).1
    omega
  | succ fuel ih =>
    obtain ⟨hlt, hget⟩ := List.getElem?_eq_some_iff.mp hv
    have hdrop : (vs.drop nextNode.nextIndex).filter (fun v => equal v.1 k) =
        v :: (vs.drop (nextNode.nextIndex + 1)).filter (fun v => equal v.1 k) := by
      rw [List.drop_eq_getElem_cons hlt, hget]
      simp [hk]
    rw [copyValues, getElem?_threaded, hv, Option.map_some, hdrop, List.map_cons]
    dsimp only
    rw [hasMoreDuplicates_threadedNode]
    cases hnext : nextEqual equal vs nextNode.nextIndex v.1 with
    | none =>
      have hnone := hnext
      rw [nextEqual_congr he hk] at hnone
      rw [filter_drop_eq_nil hnone]
      rfl
    | some j =>
      obtain ⟨hij, w, hw, hwv⟩ := nextEqual_eq_some hnext
      have hidx : (threadedNode equal vs nextNode.nextIndex v.1).nextIndex = j := by
        simp [threadedNode, hnext]
      have hsome := hnext
      rw [nextEqual_congr he hk] at hsome
      rw [filter_drop_nextEqual hsome, Option.isSome_some, if_pos rfl,
        ih (by rw [hidx]; exact hw) (he.trans _ _ _ hwv hk) (by rw [hidx]; omega), hidx]
      rfl

/-- The two loops over a chain take the same steps. -/
lemma countValues_eq (nodes : List (K × V × NextNode)) (fuel : Nat) (nextNode : NextNode) :
    countValues nodes fuel nextNode = (copyValues nodes fuel nextNode).map List.length := by
  induction fuel generalizing nextNode with
  | zero => rfl
  | succ fuel ih =>
    rw [countValues, copyValues]
    cases nodes[nextNode.nextIndex]? with
    | none => rfl
    | some n =>
      dsimp only
      by_cases hmore : n.2.2.hasMoreDuplicates = true
      · rw [if_pos hmore, if_pos hmore, ih, Option.map_map, Option.map_map]
        rfl
      · rw [if_neg hmore, if_neg hmore]
        rfl

/-! ### One more insertion -/

lemma keysBefore_append {vs : List (K × V)} (v : K × V) {i : Nat} (hi : i ≤ vs.length) (k : K) :
    keysBefore equal (vs ++ [v]) i k = keysBefore equal vs i k := by
  unfold keysBefore
  rw [List.take_append_of_le_length hi]

lemma nextEqual_append {vs : List (K × V)} (v : K × V) {i : Nat} (hi : i < vs.length) (k : K) :
    nextEqual equal (vs ++ [v]) i k =
      (nextEqual equal vs i k).or (if equal v.1 k then some vs.length else none) := by
  unfold nextEqual
  rw [List.drop_append_of_le_length hi, List.findIdx?_append]
  cases (vs.drop (i + 1)).findIdx? (fun v => equal v.1 k) with
  | some d => rfl
  | none =>
    by_cases h : equal v.1 k = true
    · simp [h]
      omega
    · simp [h]

lemma nextEqual_last (vs : List (K × V)) (v : K × V) (k : K) :
    nextEqual equal (vs ++ [v]) vs.length k = none := by
  simp [nextEqual]

lemma threadedNode_append {vs : List (K × V)} {v : K × V} {i : Nat} (hi : i < vs.length) {k : K}
    (h : equal v.1 k = false ∨ (nextEqual equal vs i k).isSome = true) :
    threadedNode equal (vs ++ [v]) i k = threadedNode equal vs i k := by
  have hnext : nextEqual equal (vs ++ [v]) i k = nextEqual equal vs i k := by
    rw [nextEqual_append v hi]
    rcases h with hk | hsome
    · simp [hk]
    · obtain ⟨j, hj⟩ := Option.isSome_iff_exists.mp hsome
      rw [hj]
      rfl
  unfold threadedNode
  rw [keysBefore_append v (by omega), hnext]

/-- The insertion of a new key leaves the chains alone. -/
lemma threaded_append_new (he : KeyEquality hash equal) {vs : List (K × V)} {v : K × V}
    (hnew : ∀ w ∈ vs, equal w.1 v.1 = false) :
    threaded equal (vs ++ [v]) = threaded equal vs ++ [(v.1, v.2, NextNode.makeNoDuplicates)] := by
  apply List.ext_getElem?
  intro i
  rw [getElem?_threaded]
  rcases Nat.lt_trichotomy i vs.length with hlt | rfl | hgt
  · rw [List.getElem?_append_left hlt, List.getElem?_append_left (by rwa [length_threaded]),
      getElem?_threaded, List.getElem?_eq_getElem hlt, Option.map_some, Option.map_some]
    have hne : equal v.1 vs[i].1 = false := by
      have hw := hnew _ (List.getElem_mem hlt)
      by_contra heq
      rw [Bool.not_eq_false] at heq
      rw [he.symm _ _ heq] at hw
      cases hw
    rw [threadedNode_append hlt (Or.inl hne)]
  · have hbefore : keysBefore equal (vs ++ [v]) vs.length v.1 = false := by
      rw [keysBefore_append v (Nat.le_refl _), keysBefore, List.take_length, List.any_eq_false]
      intro w hw
      simp [hnew w hw]
    have hnode : threadedNode equal (vs ++ [v]) vs.length v.1 = NextNode.makeNoDuplicates := by
      unfold threadedNode
      rw [hbefore, nextEqual_last]
      rfl
    have hcount : vs.length = (threaded equal vs).length := (length_threaded vs).symm
    rw [List.getElem?_concat_length, Option.map_some, hnode, hcount, List.getElem?_concat_length]
  · rw [List.getElem?_eq_none (by simp; omega), List.getElem?_eq_none (by
      simp [length_threaded]; omega)]
    rfl

/-- The insertion of a key that is present links the last node of its chain to the new one. -/
lemma threaded_append_old (he : KeyEquality hash equal) {vs : List (K × V)} {v w : K × V} {t : Nat}
    (hw : vs[t]? = some w) (hwv : equal w.1 v.1 = true) (hlast : nextEqual equal vs t w.1 = none) :
    threaded equal (vs ++ [v]) =
      (threaded equal vs).set t (w.1, w.2, threadedNode equal (vs ++ [v]) t w.1) ++
        [(v.1, v.2, NextNode.makeDuplicateTailNode)] := by
  obtain ⟨ht, hget⟩ := List.getElem?_eq_some_iff.mp hw
  apply List.ext_getElem?
  intro i
  rw [getElem?_threaded]
  rcases Nat.lt_trichotomy i vs.length with hlt | rfl | hgt
  · rw [List.getElem?_append_left hlt,
      List.getElem?_append_left (by rwa [List.length_set, length_threaded])]
    by_cases hit : t = i
    · subst hit
      rw [List.getElem?_set_self (by rwa [length_threaded]), hw, Option.map_some]
    · rw [List.getElem?_set_ne hit, getElem?_threaded, List.getElem?_eq_getElem hlt,
        Option.map_some, Option.map_some]
      have hor : equal v.1 vs[i].1 = false ∨ (nextEqual equal vs i vs[i].1).isSome = true := by
        by_cases hvi : equal v.1 vs[i].1 = true
        · right
          have hwi : equal w.1 vs[i].1 = true := he.trans _ _ _ hwv hvi
          by_contra hnone
          rw [Bool.not_eq_true, Option.isSome_eq_false_iff, Option.isNone_iff_eq_none] at hnone
          rcases Nat.lt_or_ge i t with hit' | hti
          · rw [nextEqual_eq_none.mp hnone t w hit' hw] at hwi
            cases hwi
          · have := nextEqual_eq_none.mp hlast i vs[i] (by omega) (List.getElem?_eq_getElem hlt)
            rw [he.symm _ _ hwi] at this
            cases this
        · left
          exact Bool.not_eq_true _ ▸ hvi
      rw [threadedNode_append hlt hor]
  · have hbefore : keysBefore equal (vs ++ [v]) vs.length v.1 = true := by
      rw [keysBefore_append v (Nat.le_refl _), keysBefore, List.take_length, List.any_eq_true]
      exact ⟨w, List.mem_of_getElem? hw, hwv⟩
    have hnode : threadedNode equal (vs ++ [v]) vs.length v.1 =
        NextNode.makeDuplicateTailNode := by
      unfold threadedNode
      rw [hbefore, nextEqual_last]
      rfl
    have hcount : vs.length = ((threaded equal vs).set t
        (w.1, w.2, threadedNode equal (vs ++ [v]) t w.1)).length := by
      rw [List.length_set, length_threaded]
    rw [List.getElem?_concat_length, Option.map_some, hnode, hcount, List.getElem?_concat_length]
  · rw [List.getElem?_eq_none (by simp; omega), List.getElem?_eq_none (by
      simp [length_threaded]; omega)]
    rfl

lemma linkTail_threadedNode {vs : List (K × V)} {v w : K × V} {t : Nat}
    (hw : vs[t]? = some w) (hvw : equal v.1 w.1 = true) (hlast : nextEqual equal vs t w.1 = none)
    (hlen : vs.length < 2 ^ 29) :
    linkTail (threadedNode equal vs t w.1) vs.length =
      some (threadedNode equal (vs ++ [v]) t w.1) := by
  have ht := (List.getElem?_eq_some_iff.mp hw).1
  have hnext : nextEqual equal (vs ++ [v]) t w.1 = some vs.length := by
    rw [nextEqual_append v ht, hlast, if_pos hvw]
    rfl
  unfold linkTail threadedNode NextNode.hasAnyDuplicates
  rw [keysBefore_append v (by omega), hnext, hlast, Nat.mod_eq_of_lt hlen]
  cases keysBefore equal vs t w.1 <;> rfl

end Chains

/-! ### The hash buffer holds the heads -/

section Heads

variable {K V : Type} {hash : K → Nat} {equal : K → K → Bool} {m : MultiMap K V}

lemma isHead_threadedNode (vs : List (K × V)) (i : Nat) (k : K) :
    (!((threadedNode equal vs i k).isDuplicateEntry ||
      (threadedNode equal vs i k).isDuplicateTail)) = !keysBefore equal vs i k := by
  unfold threadedNode
  cases keysBefore equal vs i k <;> cases nextEqual equal vs i k <;> rfl

lemma headIndices_threaded (vs : List (K × V)) :
    headIndices hash (threaded equal vs) =
      (vs.zipIdx.filter (fun x => !keysBefore equal vs x.2 x.1.1)).map
        (fun x => (hash x.1.1, x.2)) := by
  have hzip : (threaded equal vs).zipIdx = vs.zipIdx.map
      (fun x => ((x.1.1, x.1.2, threadedNode equal vs x.2 x.1.1), x.2)) := by
    apply List.ext_getElem?
    intro i
    rw [List.getElem?_zipIdx, getElem?_threaded, List.getElem?_map, List.getElem?_zipIdx]
    cases vs[i]? with
    | none => rfl
    | some v => simp
  unfold headIndices
  rw [hzip, List.filter_map, List.map_map]
  simp only [Function.comp_def, isHead_threadedNode]

lemma mem_headIndices {vs : List (K × V)} {h i : Nat} :
    (h, i) ∈ headIndices hash (threaded equal vs) ↔
      ∃ v, vs[i]? = some v ∧ hash v.1 = h ∧ keysBefore equal vs i v.1 = false := by
  rw [headIndices_threaded, List.mem_map]
  constructor
  · rintro ⟨⟨v, j⟩, hmem, heq⟩
    cases heq
    rw [List.mem_filter, List.mem_zipIdx_iff_getElem?] at hmem
    exact ⟨v, hmem.1, rfl, by simpa using hmem.2⟩
  · rintro ⟨v, hv, rfl, hbefore⟩
    refine ⟨(v, i), ?_, rfl⟩
    rw [List.mem_filter, List.mem_zipIdx_iff_getElem?]
    exact ⟨hv, by simp [hbefore]⟩

lemma headIndices_append (vs : List (K × V)) (v : K × V) :
    headIndices hash (threaded equal (vs ++ [v])) = headIndices hash (threaded equal vs) ++
      if vs.any (fun w => equal w.1 v.1) then [] else [(hash v.1, vs.length)] := by
  have hsame : vs.zipIdx.filter (fun x => !keysBefore equal (vs ++ [v]) x.2 x.1.1) =
      vs.zipIdx.filter (fun x => !keysBefore equal vs x.2 x.1.1) := by
    apply List.filter_congr
    intro x hx
    rw [keysBefore_append v (Nat.le_of_lt (List.snd_lt_of_mem_zipIdx hx))]
  have hlast : keysBefore equal (vs ++ [v]) vs.length v.1 = vs.any (fun w => equal w.1 v.1) := by
    rw [keysBefore_append v (Nat.le_refl _), keysBefore, List.take_length]
  rw [headIndices_threaded, headIndices_threaded, List.zipIdx_append, List.filter_append, hsame,
    List.map_append]
  congr 1
  simp only [Nat.zero_add, List.zipIdx_singleton, List.filter_cons, hlast, List.filter_nil]
  cases vs.any (fun w => equal w.1 v.1) <;> rfl

lemma exists_head {vs : List (K × V)} {w : K × V} {k : K} (he : KeyEquality hash equal)
    (hw : w ∈ vs) (hk : equal w.1 k = true) :
    ∃ x ∈ headIndices hash (threaded equal vs), ∃ v, vs[x.2]? = some v ∧ equal v.1 k = true := by
  cases hfirst : vs.findIdx? (fun v => equal v.1 k) with
  | none =>
    rw [List.findIdx?_eq_none_iff] at hfirst
    rw [hfirst w hw] at hk
    cases hk
  | some i =>
    obtain ⟨hlt, htrue, hfalse⟩ := List.findIdx?_eq_some_iff_getElem.mp hfirst
    have hbefore : keysBefore equal vs i vs[i].1 = false := by
      unfold keysBefore
      rw [List.any_eq_false]
      intro v hv hvi
      obtain ⟨l, hl, rfl⟩ := List.mem_take_iff_getElem.mp hv
      have := hfalse l (by omega)
      rw [he.trans _ _ _ hvi htrue] at this
      exact this rfl
    exact ⟨(hash vs[i].1, i), mem_headIndices.mpr
      ⟨vs[i], List.getElem?_eq_getElem hlt, rfl, hbefore⟩, vs[i], List.getElem?_eq_getElem hlt,
      htrue⟩

/-- The map after the insertions. -/
structure MultiMapInv (hash : K → Nat) (equal : K → K → Bool) (vs : List (K × V))
    (m : MultiMap K V) : Prop where
  nodes_eq : m.nodeBuffer = threaded equal vs
  table : TableInv m.nextHashBufferGrowth m.hashBufferUseCount m.hashBuffer
    (headIndices hash (threaded equal vs))

lemma multiMap_grow_spec {vs : List (K × V)} (h : MultiMapInv hash equal vs m) :
    ∃ m', m.grow hash = some m' ∧ MultiMapInv hash equal vs m' ∧
      m'.hashBufferUseCount < m'.nextHashBufferGrowth := by
  unfold MultiMap.grow
  split
  · rename_i hfull
    obtain ⟨slots, hplace, htable, hlt⟩ := h.table.grow hfull
    rw [← h.nodes_eq] at hplace
    rw [hplace]
    exact ⟨{ m with nextHashBufferGrowth := m.nextHashBufferGrowth * 2, hashBuffer := slots },
      rfl, ⟨h.nodes_eq, htable⟩, hlt⟩
  · rename_i hroom
    exact ⟨m, rfl, h, lt_of_le_of_ne h.table.useCount_le hroom⟩

/-- A search finds a node with an equal key, or no insertion had one. -/
lemma MultiMapInv.probe_cases (he : KeyEquality hash equal) {vs : List (K × V)}
    (h : MultiMapInv hash equal vs m) (key : K) :
    (∃ i v, probe m.hashBuffer (hash key) (m.sameKey equal key) = some (.found i) ∧
      vs[i]? = some v ∧ equal v.1 key = true) ∨
    ∃ p, probe m.hashBuffer (hash key) (m.sameKey equal key) = some (.vacant p) ∧
      (∀ i, FilledBy m.hashBuffer (hash key) i (m.hashBuffer.set p (some i))) ∧
      ∀ w ∈ vs, equal w.1 key = false := by
  obtain ⟨k, hlen, hroom⟩ := h.table.room
  have hsame : ∀ i v, vs[i]? = some v → m.sameKey equal key i = some (equal v.1 key) := by
    intro i v hv
    rw [MultiMap.sameKey, h.nodes_eq, getElem?_threaded, hv]
    rfl
  have hsome : ∀ x ∈ headIndices hash (threaded equal vs),
      (m.sameKey equal key x.2).isSome = true := by
    intro x hx
    obtain ⟨v, hv, -, -⟩ := mem_headIndices.mp hx
    rw [hsame _ v hv]
    rfl
  have hhash : ∀ x ∈ headIndices hash (threaded equal vs),
      m.sameKey equal key x.2 = some true → x.1 = hash key := by
    intro x hx htrue
    obtain ⟨v, hv, hxv, -⟩ := mem_headIndices.mp hx
    rw [hsame _ v hv, Option.some.injEq] at htrue
    rw [← hxv]
    exact he.hash_eq _ _ htrue
  rcases h.table.holds.probe_cases hlen hroom hsome hhash with
    ⟨x, hx, hprobe, htrue⟩ | ⟨p, hprobe, hfill, hfalse⟩
  · left
    obtain ⟨v, hv, -, -⟩ := mem_headIndices.mp hx
    rw [hsame _ v hv, Option.some.injEq] at htrue
    exact ⟨x.2, v, hprobe, hv, htrue⟩
  · right
    refine ⟨p, hprobe, hfill, ?_⟩
    intro w hw
    by_contra hne
    rw [Bool.not_eq_false] at hne
    obtain ⟨x, hx, v, hv, hvk⟩ := exists_head he hw hne
    have := hfalse x hx
    rw [hsame _ v hv, hvk] at this
    cases this

lemma multiMap_insert_spec (he : KeyEquality hash equal) {vs : List (K × V)}
    (h : MultiMapInv hash equal vs m) (v : K × V) (hlen : vs.length < 2 ^ 29) :
    ∃ m', m.insert hash equal v = some m' ∧ MultiMapInv hash equal (vs ++ [v]) m' := by
  obtain ⟨g, hgrow, hinv, hlt⟩ := multiMap_grow_spec h
  unfold MultiMap.insert
  rw [hgrow, Option.bind_some]
  have hcount : g.nodeBuffer.length = vs.length := by
    rw [hinv.nodes_eq, length_threaded]
  rcases hinv.probe_cases he v.1 with ⟨i, u, hprobe, hu, huv⟩ | ⟨p, hprobe, hfill, hnone⟩
  · rw [hprobe]
    dsimp only
    obtain ⟨t, w, hend, hw, hwv, hlast⟩ :=
      chainEnd_threaded he vs.length i hu huv (Nat.sub_le _ _)
    have hnode : g.nodeBuffer[t]? = some (w.1, w.2, threadedNode equal vs t w.1) := by
      rw [hinv.nodes_eq, getElem?_threaded, hw, Option.map_some]
    have hlink := linkTail_threadedNode hw (he.symm _ _ hwv) hlast hlen
    have hany : vs.any (fun w => equal w.1 v.1) = true :=
      List.any_eq_true.mpr ⟨w, List.mem_of_getElem? hw, hwv⟩
    refine ⟨_, by
      rw [MultiMap.appendToChain, hcount, hinv.nodes_eq, hend, Option.bind_some,
        ← hinv.nodes_eq, hnode, Option.bind_some, hlink, Option.map_some], ?_, ?_⟩
    · dsimp only
      rw [hinv.nodes_eq, threaded_append_old he hw hwv hlast]
    · rw [headIndices_append, hany, if_pos rfl, List.append_nil]
      exact hinv.table
  · rw [hprobe]
    have hany : vs.any (fun w => equal w.1 v.1) = false := by
      rw [List.any_eq_false]
      intro w hw
      simp [hnone w hw]
    refine ⟨_, rfl, ?_, ?_⟩
    · dsimp only
      rw [hinv.nodes_eq, threaded_append_new he hnone]
    · rw [headIndices_append, hany, hcount]
      exact hinv.table.fill hlt (hfill _)

lemma insertAll_spec (he : KeyEquality hash equal) (vs : List (K × V))
    (hlen : vs.length < 2 ^ 29) :
    ∃ m, insertAll hash equal vs = some m ∧ MultiMapInv hash equal vs m := by
  induction vs using List.reverseRecOn with
  | nil => exact ⟨emptyMultiMap, rfl, rfl, tableInv_empty⟩
  | append_singleton vs v ih =>
    rw [List.length_append, List.length_singleton] at hlen
    obtain ⟨m, hrun, hinv⟩ := ih (by omega)
    obtain ⟨m', hv, hinv'⟩ := multiMap_insert_spec he hinv v (by omega)
    refine ⟨m', ?_, hinv'⟩
    unfold insertAll at hrun ⊢
    rw [List.foldlM_append, hrun]
    simpa using hv

/-! ### The calls of the handler -/

lemma any_distinctKeys (he : KeyEquality hash equal) (keys : List K) (k : K) :
    (distinctKeys equal keys).any (fun x => equal x k) = keys.any (fun x => equal x k) := by
  induction keys using List.reverseRecOn with
  | nil => rfl
  | append_singleton keys x ih =>
    rw [distinctKeys_append, addKey, List.any_append, ← ih]
    split
    · rename_i hany
      rw [List.any_eq_true] at hany
      obtain ⟨y, hy, hyx⟩ := hany
      by_cases hxk : equal x k = true
      · have : (distinctKeys equal keys).any (fun x => equal x k) = true :=
          List.any_eq_true.mpr ⟨y, hy, he.trans _ _ _ hyx hxk⟩
        simp [this]
      · simp [hxk]
    · rw [List.any_append]

lemma flatMap_firsts (he : KeyEquality hash equal) {β : Type} (g : K → β) (vs : List (K × V)) :
    vs.zipIdx.flatMap (fun x => if keysBefore equal vs x.2 x.1.1 then [] else [g x.1.1]) =
      (distinctKeys equal (vs.map Prod.fst)).map g := by
  induction vs using List.reverseRecOn with
  | nil => rfl
  | append_singleton vs v ih =>
    have hsame : vs.zipIdx.flatMap
          (fun x => if keysBefore equal (vs ++ [v]) x.2 x.1.1 then [] else [g x.1.1]) =
        vs.zipIdx.flatMap (fun x => if keysBefore equal vs x.2 x.1.1 then [] else [g x.1.1]) := by
      apply List.flatMap_congr
      intro x hx
      rw [keysBefore_append v (Nat.le_of_lt (List.snd_lt_of_mem_zipIdx hx))]
    have hlast : keysBefore equal (vs ++ [v]) vs.length v.1 =
        (distinctKeys equal (vs.map Prod.fst)).any (fun x => equal x v.1) := by
      rw [keysBefore_append v (Nat.le_refl _), keysBefore, List.take_length, any_distinctKeys he,
        List.any_map]
      rfl
    rw [List.zipIdx_append, List.flatMap_append, hsame, ih, List.map_append, List.map_singleton,
      distinctKeys_append, addKey]
    simp only [Nat.zero_add, List.zipIdx_singleton, List.flatMap_singleton, hlast]
    split <;> simp

/-- The loop hands out the chain of a head and passes over the other nodes. -/
lemma visitNode_threaded (he : KeyEquality hash equal) {vs : List (K × V)}
    (h : MultiMapInv hash equal vs m) {i : Nat} {v : K × V} (hv : vs[i]? = some v) :
    m.visitNode (v.1, v.2, threadedNode equal vs i v.1) =
      some (if keysBefore equal vs i v.1 then []
        else [(v.1, (vs.filter (fun w => equal w.1 v.1)).map Prod.snd)]) := by
  obtain ⟨hlt, hget⟩ := List.getElem?_eq_some_iff.mp hv
  have hcount : m.nodeBuffer.length = vs.length := by
    rw [h.nodes_eq, length_threaded]
  unfold MultiMap.visitNode
  dsimp only
  rw [hasAnyDuplicates_threadedNode]
  cases hbefore : keysBefore equal vs i v.1 with
  | true =>
    have hhead : (threadedNode equal vs i v.1).isDuplicateHead = false := by
      simp [threadedNode, hbefore]
    simp [hhead]
  | false =>
    -- the insertions of the key are this one and those after it
    have hfilter : vs.filter (fun w => equal w.1 v.1) =
        v :: (vs.drop (i + 1)).filter (fun w => equal w.1 v.1) := by
      have hnone : (vs.take i).filter (fun w => equal w.1 v.1) = [] := by
        rw [List.filter_eq_nil_iff]
        exact List.any_eq_false.mp hbefore
      conv_lhs => rw [← List.take_append_drop i vs]
      rw [List.filter_append, hnone, List.nil_append, List.drop_eq_getElem_cons hlt, hget]
      simp [he.refl]
    rw [hfilter]
    cases hnext : nextEqual equal vs i v.1 with
    | none =>
      rw [filter_drop_eq_nil hnext]
      rfl
    | some j =>
      obtain ⟨hij, w, hw, hwv⟩ := nextEqual_eq_some hnext
      have hidx : (threadedNode equal vs i v.1).nextIndex = j := by
        simp [threadedNode, hnext]
      have hhead : (threadedNode equal vs i v.1).isDuplicateHead = true := by
        simp [threadedNode, hbefore, hnext]
      have hcopy := copyValues_threaded (k := v.1) he vs.length
        (by rw [hidx]; exact hw) hwv (Nat.sub_le _ _)
      rw [hidx, ← filter_drop_nextEqual hnext] at hcopy
      rw [countValues_eq, hcount, h.nodes_eq, hcopy, hhead]
      simp

lemma pairwise_distinctKeys (keys : List K) :
    (distinctKeys equal keys).Pairwise (fun a b => equal a b = false) := by
  induction keys using List.reverseRecOn with
  | nil => exact List.Pairwise.nil
  | append_singleton keys k ih =>
    rw [distinctKeys_append, addKey]
    split
    · exact ih
    · rename_i hnone
      rw [Bool.not_eq_true, List.any_eq_false] at hnone
      rw [List.pairwise_append]
      refine ⟨ih, List.pairwise_singleton _ _, ?_⟩
      intro a ha b hb
      rw [List.mem_singleton.mp hb]
      exact Bool.not_eq_true _ ▸ hnone a ha

lemma mapM_eq_some_map {α β : Type} {f : α → Option β} {g : α → β} (l : List α)
    (h : ∀ x ∈ l, f x = some (g x)) : l.mapM f = some (l.map g) := by
  induction l with
  | nil => rfl
  | cons x l ih =>
    rw [List.mapM_cons, h x (List.mem_cons_self), ih (fun y hy => h y (List.mem_cons_of_mem x hy))]
    rfl

/-- For fewer than 2²⁹ insertions, the handler is called once for each distinct key, in the order
of the first insertions, with all values of the key in the order of their insertions. -/
theorem multiMap_forEachEntry (he : KeyEquality hash equal) (vs : List (K × V))
    (hlen : vs.length < 2 ^ 29) :
    ∃ m, insertAll hash equal vs = some m ∧
      m.forEachEntry = some ((distinctKeys equal (vs.map Prod.fst)).map
        (fun k => (k, (vs.filter (fun v => equal v.1 k)).map Prod.snd))) ∧
      (distinctKeys equal (vs.map Prod.fst)).Pairwise (fun a b => equal a b = false) := by
  obtain ⟨m, hrun, hinv⟩ := insertAll_spec he vs hlen
  refine ⟨m, hrun, ?_, pairwise_distinctKeys _⟩
  have hvisit : ∀ x ∈ vs.zipIdx,
      m.visitNode (x.1.1, x.1.2, threadedNode equal vs x.2 x.1.1) =
        some (if keysBefore equal vs x.2 x.1.1 then []
          else [(x.1.1, (vs.filter (fun w => equal w.1 x.1.1)).map Prod.snd)]) := by
    intro x hx
    exact visitNode_threaded he hinv (List.mem_zipIdx_iff_getElem?.mp hx)
  unfold MultiMap.forEachEntry
  rw [hinv.nodes_eq, threaded, List.mapM_map, Function.comp_def]
  rw [mapM_eq_some_map _ hvisit, Option.map_some, ← List.flatMap_def,
    flatMap_firsts he (fun k => (k, (vs.filter (fun w => equal w.1 k)).map Prod.snd))]

theorem multiMap_forEachEntry_three :
    KeyEquality (fun n : Nat => n) (fun a b => a == b) ∧
    ([(1025, 10), (1, 20), (1025, 30), (1025, 40)] : List (Nat × Nat)).length < 2 ^ 29 ∧
    ∃ m : MultiMap Nat Nat, insertAll (fun n => n) (fun a b => a == b)
        [(1025, 10), (1, 20), (1025, 30), (1025, 40)] = some m ∧
      m.forEachEntry = some [(1025, [10, 30, 40]), (1, [20])] := by
  refine ⟨keyEquality_beq, by norm_num, ?_⟩
  obtain ⟨m, hrun, hentries, -⟩ := multiMap_forEachEntry keyEquality_beq
    ([(1025, 10), (1, 20), (1025, 30), (1025, 40)] : List (Nat × Nat)) (by norm_num)
  exact ⟨m, hrun, hentries⟩

end Heads

end Dyld.Containers
