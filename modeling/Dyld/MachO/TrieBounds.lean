import Dyld.MachO.TrieWalk

/-!
# Bounds of the walk of a trie

`MachOLoaded::trieWalk` on any bytes. Positions in the trie are offsets from its start, which is an
address, as the place of the children is computed with 64 bits before it is compared with the end. A byte
behind the end, or one behind the `NUL` of the symbol, can not be read.
-/

namespace Dyld.MachO.TrieBounds

structure TrieBuffer where
  bytes : List UInt8
  start : Nat
  inMemory : start + bytes.length < 2 ^ 64

inductive WalkError
  | leb (e : LebError)
  | childPastEnd
  | nodeOffsetOutOfRange (nodeOffset : Nat)
  | cycle (nodeOffset : Nat)
  deriving DecidableEq, Repr

/-- How a walk ends: with the pointer to a position, with a null pointer and maybe an error, or with a
byte that can not be read. -/
inductive WalkEnd
  | found (p : Nat)
  | null (error : Option WalkError)
  | outside
  | pastSymbol
  deriving DecidableEq, Repr

/-- The character of the symbol at `ss`, with its `NUL`. -/
def symbolAt (symbol : List UInt8) (ss : Nat) : Option UInt8 := (symbol ++ [0])[ss]?

inductive EdgeScan
  | ended (wrongEdge : Bool) (ss p : Nat)
  | outside
  | pastSymbol

def scanEdge (symbol : List UInt8) : List UInt8 → Bool → Nat → Nat → EdgeScan
  | [], _, _, _ => .outside
  | c :: rest, wrongEdge, ss, p =>
    if c = 0 then .ended wrongEdge ss p
    else if wrongEdge then scanEdge symbol rest true ss (p + 1)
    else
      match symbolAt symbol ss with
      | none => .pastSymbol
      | some d => scanEdge symbol rest (c ≠ d) (ss + 1) (p + 1)

/-- The loop that skips the offset of a wrong edge. -/
def skipUleb : List UInt8 → Nat → Option Nat
  | [], _ => none
  | b :: rest, p => if 128 ≤ b.toNat then skipUleb rest (p + 1) else some (p + 1)

/-- How the loop over the children ends. -/
inductive FindChild
  | noChild
  | child (nodeOffset ss : Nat)
  | error (e : WalkError)
  | outside
  | pastSymbol

namespace TrieBuffer

variable (t : TrieBuffer) (symbol : List UInt8)

def size : Nat := t.bytes.length

/-- The address behind the last byte. -/
def endAddress : Nat := t.start + t.size

/-- The loop over the children of a node, of which `childrenRemaining` are left. -/
def findChild (s : Nat) : Nat → Nat → FindChild
  | 0, _ => .noChild
  | childrenRemaining + 1, p =>
    match scanEdge symbol (t.bytes.drop p) false s p with
    | .outside => .outside
    | .pastSymbol => .pastSymbol
    | .ended true _ p =>
      match skipUleb (t.bytes.drop (p + 1)) (p + 1) with
      | none => .outside
      | some p => if t.size < p then .error .childPastEnd else findChild s childrenRemaining p
    | .ended false ss p =>
      let r := readUleb128 (t.bytes.drop (p + 1))
      match r.error with
      | some e => .error (.leb e)
      | none =>
        if r.value = 0 ∨ t.endAddress < (t.start + r.value) % 2 ^ 64 then
          .error (.nodeOffsetOutOfRange r.value)
        else .child r.value ss

def terminal (p : Nat) : LebRead :=
  match t.bytes.drop p with
  | [] => ⟨0, [], none⟩
  | b :: rest => if 127 < b.toNat then readUleb128 (b :: rest) else ⟨b.toNat, rest, none⟩

def infoAt (p : Nat) : Nat := t.size - (t.terminal p).rest.length

def childrenAddress (p : Nat) : Nat := (t.start + t.infoAt p + (t.terminal p).value) % 2 ^ 64

/-- The loop of `trieWalk`, for at most `fuel` nodes. -/
def walkFrom : Nat → List Nat → Nat → Nat → Option WalkEnd
  | 0, _, _, _ => none
  | fuel + 1, visitedNodeOffsets, s, p =>
    if t.size ≤ p then some (.null none)
    else
      match (t.terminal p).error with
      | some e => some (.null (some (.leb e)))
      | none =>
        match symbolAt symbol s with
        | none => some .pastSymbol
        | some d =>
          if d = 0 ∧ (t.terminal p).value ≠ 0 then some (.found (t.infoAt p))
          else if t.endAddress < t.childrenAddress p then some (.null none)
          else if t.childrenAddress p < t.start then some .outside
          else
            match t.bytes[t.childrenAddress p - t.start]? with
            | none => some .outside
            | some childrenRemaining =>
              match t.findChild symbol s childrenRemaining.toNat (t.childrenAddress p - t.start + 1) with
              | .noChild => some (.null none)
              | .error e => some (.null (some e))
              | .outside => some .outside
              | .pastSymbol => some .pastSymbol
              | .child nodeOffset ss =>
                if t.size < nodeOffset then some (.null (some (.nodeOffsetOutOfRange nodeOffset)))
                else if nodeOffset ∈ visitedNodeOffsets then some (.null (some (.cycle nodeOffset)))
                else walkFrom fuel (visitedNodeOffsets ++ [nodeOffset % 2 ^ 32]) ss nodeOffset

def trieWalk (fuel : Nat) : Option WalkEnd := t.walkFrom symbol fuel [0] 0 0

end TrieBuffer

/-- A walk that reads only what it may, and returns null or a pointer inside the trie. -/
def WalkEnd.Safe (t : TrieBuffer) : WalkEnd → Prop
  | .found p => p < t.size
  | .null _ => True
  | .outside => False
  | .pastSymbol => False

def TrieBuffer.Robust (t : TrieBuffer) (symbol : List UInt8) : Prop :=
  ∃ fuel r, t.trieWalk symbol fuel = some r ∧ r.Safe t

/-! ### What is in the bytes -/

def labelOf (bytes : List UInt8) : List UInt8 := bytes.takeWhile (fun c => c ≠ 0)

/-- The bytes of a number that go on. -/
def ulebOf (bytes : List UInt8) : List UInt8 := bytes.takeWhile (fun b => 128 ≤ b.toNat)

namespace TrieBuffer

variable (t : TrieBuffer) (symbol : List UInt8)

def labelAt (p : Nat) : List UInt8 := labelOf (t.bytes.drop p)

def labelEnd (p : Nat) : Nat := p + (t.labelAt p).length

def nextChild (p : Nat) : Nat := t.labelEnd p + 1 + (ulebOf (t.bytes.drop (t.labelEnd p + 1))).length + 1

def Matches (s p : Nat) : Prop := t.labelAt p <+: symbol.drop s

instance (s p : Nat) : Decidable (t.Matches symbol s p) := inferInstanceAs (Decidable (_ <+: _))

/-- The labels up to the first one that matches end inside the trie, and so do the offsets behind those
that do not match. -/
def ChildrenInside (s : Nat) : Nat → Nat → Prop
  | 0, _ => True
  | n + 1, p =>
    t.labelEnd p < t.size ∧
      (t.Matches symbol s p ∨ t.nextChild p ≤ t.size ∧ ChildrenInside s n (t.nextChild p))

def firstChild (s : Nat) : Nat → Nat → Option (Nat × Nat)
  | 0, _ => none
  | n + 1, p =>
    if t.Matches symbol s p then
      let r := readUleb128 (t.bytes.drop (t.labelEnd p + 1))
      if r.error = none ∧ r.value ≠ 0 ∧ r.value ≤ t.size then
        some (r.value, s + (t.labelAt p).length)
      else none
    else firstChild s n (t.nextChild p)

def IsNodeOfSymbol (s p : Nat) : Prop := symbolAt symbol s = some 0 ∧ (t.terminal p).value ≠ 0

def HasChildren (p n q : Nat) : Prop :=
  t.start ≤ t.childrenAddress p ∧ q = t.childrenAddress p - t.start + 1 ∧
    ∃ count, t.bytes[t.childrenAddress p - t.start]? = some count ∧ n = count.toNat

/-- What the walk looks at in a node is inside the trie: the start of the info it returns, or else, if the
children are not behind the end, their number and the children up to the one that matches. -/
def NodeInside (s p : Nat) : Prop :=
  p < t.size → (t.terminal p).error = none →
    (t.IsNodeOfSymbol symbol s p → t.infoAt p < t.size) ∧
    (¬t.IsNodeOfSymbol symbol s p → t.childrenAddress p ≤ t.endAddress →
      ∃ n q, t.HasChildren p n q ∧ t.ChildrenInside symbol s n q)

/-- The walk goes on from the node at `p` to the one at `nodeOffset`. -/
structure Follows (s p s' nodeOffset : Nat) : Prop where
  inside : t.NodeInside symbol s p
  lt : p < t.size
  noError : (t.terminal p).error = none
  inner : ¬t.IsNodeOfSymbol symbol s p
  le : t.childrenAddress p ≤ t.endAddress
  child : ∃ n q, t.HasChildren p n q ∧ t.firstChild symbol s n q = some (nodeOffset, s')

inductive Visits : List Nat → Nat → Nat → Prop
  | root : Visits [0] 0 0
  | step {visited : List Nat} {s p s' nodeOffset : Nat} (h : Visits visited s p)
      (hfollows : t.Follows symbol s p s' nodeOffset) (hnew : nodeOffset ∉ visited) :
      Visits (visited ++ [nodeOffset % 2 ^ 32]) s' nodeOffset

end TrieBuffer

/-! ### Scans -/

section Scans

variable {symbol : List UInt8}

lemma scanEdge_wrong (rest : List UInt8) (ss p : Nat) :
    scanEdge symbol rest true ss p =
      if (labelOf rest).length < rest.length then .ended true ss (p + (labelOf rest).length)
      else .outside := by
  induction rest generalizing p with
  | nil => rfl
  | cons c rest ih =>
    rw [scanEdge, labelOf]
    by_cases hc : c = 0
    · simp [hc]
    · have hlabel : (c :: rest).takeWhile (fun c => c ≠ 0) = c :: labelOf rest := by
        rw [List.takeWhile_cons_of_pos (by simpa using hc), labelOf]
      rw [if_neg hc, if_pos rfl, ih, hlabel, List.length_cons, List.length_cons]
      simp only [Nat.add_lt_add_iff_right]
      split
      · congr 1
        omega
      · rfl

lemma symbolAt_of_lt {s : Nat} (hs : s < symbol.length) :
    ∃ d, symbolAt symbol s = some d ∧ symbol.drop s = d :: symbol.drop (s + 1) := by
  refine ⟨symbol[s], ?_, List.drop_eq_getElem_cons hs⟩
  rw [symbolAt, List.getElem?_append_left hs, List.getElem?_eq_getElem hs]

lemma symbolAt_length : symbolAt symbol symbol.length = some 0 := by
  rw [symbolAt, List.getElem?_append_right le_rfl, Nat.sub_self]
  rfl

/-- How the scan of an edge from `p` on ends: with the symbol behind the label if the label is one of the
symbol, on a wrong edge, or outside if the label does not end. -/
structure Scanned (symbol rest : List UInt8) (s p : Nat) (scan : EdgeScan) : Prop where
  matched : (labelOf rest).length < rest.length → labelOf rest <+: symbol.drop s →
    scan = .ended false (s + (labelOf rest).length) (p + (labelOf rest).length)
  wrong : (labelOf rest).length < rest.length → ¬labelOf rest <+: symbol.drop s →
    ∃ ss, scan = .ended true ss (p + (labelOf rest).length)
  outside : ¬(labelOf rest).length < rest.length → scan = .outside

lemma labelOf_cons {c : UInt8} (hc : c ≠ 0) (rest : List UInt8) :
    labelOf (c :: rest) = c :: labelOf rest := by
  rw [labelOf, List.takeWhile_cons_of_pos (by simpa using hc), labelOf]

lemma scanned_of_wrong {c : UInt8} (hc : c ≠ 0) {rest : List UInt8} {s p : Nat}
    (hnot : ¬labelOf (c :: rest) <+: symbol.drop s) :
    Scanned symbol (c :: rest) s p (scanEdge symbol rest true (s + 1) (p + 1)) := by
  rw [scanEdge_wrong]
  refine ⟨fun _ h => absurd h hnot, fun h _ => ⟨s + 1, ?_⟩, fun h => ?_⟩
  · rw [labelOf_cons hc, List.length_cons, List.length_cons] at h
    rw [if_pos (by omega), labelOf_cons hc, List.length_cons]
    congr 1
    omega
  · rw [labelOf_cons hc, List.length_cons, List.length_cons] at h
    rw [if_neg (by omega)]

lemma Scanned.cons {c : UInt8} (hc : c ≠ 0) {rest : List UInt8} {s p : Nat} {scan : EdgeScan}
    (hdrop : symbol.drop s = c :: symbol.drop (s + 1)) (h : Scanned symbol rest (s + 1) (p + 1) scan) :
    Scanned symbol (c :: rest) s p scan := by
  have hpre : labelOf (c :: rest) <+: symbol.drop s ↔ labelOf rest <+: symbol.drop (s + 1) := by
    rw [labelOf_cons hc, hdrop, List.cons_prefix_cons]
    exact and_iff_right rfl
  constructor
  · intro hlt hmatch
    rw [labelOf_cons hc, List.length_cons, List.length_cons] at hlt
    rw [h.matched (by omega) (hpre.mp hmatch), labelOf_cons hc, List.length_cons]
    congr 1
    · omega
    · omega
  · intro hlt hmatch
    rw [labelOf_cons hc, List.length_cons, List.length_cons] at hlt
    obtain ⟨ss, hss⟩ := h.wrong (by omega) (fun hp => hmatch (hpre.mpr hp))
    refine ⟨ss, ?_⟩
    rw [hss, labelOf_cons hc, List.length_cons]
    congr 1
    omega
  · intro hlt
    rw [labelOf_cons hc, List.length_cons, List.length_cons] at hlt
    exact h.outside (by omega)

/-- The symbol is read up to its `NUL` and no further. -/
lemma scanEdge_right (rest : List UInt8) {s : Nat} (hs : s ≤ symbol.length) (p : Nat) :
    Scanned symbol rest s p (scanEdge symbol rest false s p) := by
  induction rest generalizing s p with
  | nil => exact ⟨fun h => absurd h (Nat.lt_irrefl _), fun h => absurd h (Nat.lt_irrefl _), fun _ => rfl⟩
  | cons c rest ih =>
    rw [scanEdge]
    by_cases hc : c = 0
    · have hlabel : labelOf (c :: rest) = [] := by simp [labelOf, hc]
      rw [if_pos hc]
      constructor
      · intro _ _
        rw [hlabel]
        rfl
      · intro _ h
        rw [hlabel] at h
        exact absurd List.nil_prefix h
      · intro h
        rw [hlabel] at h
        exact absurd (Nat.succ_pos _) h
    · rw [if_neg hc, if_neg Bool.false_ne_true]
      by_cases hlt : s < symbol.length
      · obtain ⟨d, hd, hdrop⟩ := symbolAt_of_lt hlt
        rw [hd]
        by_cases hsame : c = d
        · subst hsame
          simpa using Scanned.cons hc hdrop (ih hlt (p + 1))
        · have hnot : ¬labelOf (c :: rest) <+: symbol.drop s := by
            rw [labelOf_cons hc, hdrop, List.cons_prefix_cons]
            exact fun h => hsame h.1
          simpa [hsame] using scanned_of_wrong (p := p) hc hnot
      · obtain rfl : s = symbol.length := by omega
        have hnot : ¬labelOf (c :: rest) <+: symbol.drop symbol.length := by
          rw [labelOf_cons hc, List.drop_length, List.prefix_nil]
          exact List.cons_ne_nil _ _
        rw [symbolAt_length]
        simpa [hc] using scanned_of_wrong (p := p) hc hnot

lemma skipUleb_eq (rest : List UInt8) (p : Nat) :
    skipUleb rest p =
      if (ulebOf rest).length < rest.length then some (p + (ulebOf rest).length + 1) else none := by
  induction rest generalizing p with
  | nil => rfl
  | cons b rest ih =>
    rw [skipUleb]
    by_cases hb : 128 ≤ b.toNat
    · have huleb : ulebOf (b :: rest) = b :: ulebOf rest := by
        rw [ulebOf, List.takeWhile_cons_of_pos (by simpa using hb), ulebOf]
      rw [if_pos hb, ih, huleb, List.length_cons, List.length_cons]
      simp only [Nat.add_lt_add_iff_right]
      split
      · congr 1
        omega
      · rfl
    · have huleb : ulebOf (b :: rest) = [] := by
        rw [ulebOf, List.takeWhile_cons_of_neg (by simpa using hb)]
      rw [if_neg hb, huleb]
      simp

end Scans

namespace TrieBuffer

variable {t : TrieBuffer} {symbol : List UInt8}

/-! ### The children of a node -/

lemma labelEnd_lt_iff {p : Nat} :
    t.labelEnd p < t.size ↔ (t.labelAt p).length < (t.bytes.drop p).length := by
  have hle : (t.labelAt p).length ≤ (t.bytes.drop p).length := (List.takeWhile_prefix _).length_le
  rw [List.length_drop] at hle ⊢
  unfold labelEnd size
  omega

lemma nextChild_le_iff {p : Nat} :
    t.nextChild p ≤ t.size ↔
      (ulebOf (t.bytes.drop (t.labelEnd p + 1))).length < (t.bytes.drop (t.labelEnd p + 1)).length := by
  have hle : (ulebOf (t.bytes.drop (t.labelEnd p + 1))).length ≤
      (t.bytes.drop (t.labelEnd p + 1)).length := (List.takeWhile_prefix _).length_le
  rw [List.length_drop] at hle ⊢
  unfold nextChild size
  omega

/-- What the loop over the children makes of the first one that matches. -/
structure Found (t : TrieBuffer) (symbol : List UInt8) (s n p : Nat) (found : FindChild) : Prop where
  child : ∀ nodeOffset ss, t.firstChild symbol s n p = some (nodeOffset, ss) →
    found = .child nodeOffset ss ∧ nodeOffset ≤ t.size ∧ ss ≤ symbol.length
  noChild : t.firstChild symbol s n p = none →
    found = .noChild ∨ (∃ e, found = .error e) ∨
      ∃ nodeOffset ss, found = .child nodeOffset ss ∧ t.size < nodeOffset

lemma findChild_wrong {s : Nat} (hs : s ≤ symbol.length) (n : Nat) {p : Nat}
    (hlabel : t.labelEnd p < t.size) (hmatch : ¬t.Matches symbol s p) :
    t.findChild symbol s (n + 1) p =
      if t.nextChild p ≤ t.size then t.findChild symbol s n (t.nextChild p) else .outside := by
  obtain ⟨ss, hscan⟩ := (scanEdge_right (t.bytes.drop p) hs p).wrong (labelEnd_lt_iff.mp hlabel) hmatch
  rw [findChild, hscan]
  change (match skipUleb (t.bytes.drop (t.labelEnd p + 1)) (t.labelEnd p + 1) with
    | none => FindChild.outside
    | some q => if t.size < q then .error .childPastEnd else t.findChild symbol s n q) = _
  rw [skipUleb_eq]
  by_cases hnext : t.nextChild p ≤ t.size
  · rw [if_pos (nextChild_le_iff.mp hnext), if_pos hnext]
    exact if_neg (not_lt.mpr hnext)
  · rw [if_neg (fun h => hnext (nextChild_le_iff.mpr h)), if_neg hnext]

lemma findChild_of_matches {s : Nat} (hs : s ≤ symbol.length) (n : Nat) {p : Nat}
    (hlabel : t.labelEnd p < t.size) (hmatch : t.Matches symbol s p) :
    t.findChild symbol s (n + 1) p =
      match (readUleb128 (t.bytes.drop (t.labelEnd p + 1))).error with
      | some e => .error (.leb e)
      | none =>
        if (readUleb128 (t.bytes.drop (t.labelEnd p + 1))).value = 0 ∨ t.endAddress <
            (t.start + (readUleb128 (t.bytes.drop (t.labelEnd p + 1))).value) % 2 ^ 64 then
          .error (.nodeOffsetOutOfRange (readUleb128 (t.bytes.drop (t.labelEnd p + 1))).value)
        else .child (readUleb128 (t.bytes.drop (t.labelEnd p + 1))).value (s + (t.labelAt p).length) := by
  have hscan := (scanEdge_right (t.bytes.drop p) hs p).matched (labelEnd_lt_iff.mp hlabel) hmatch
  rw [findChild, hscan]
  rfl

lemma le_length_of_matches {s p : Nat} (hs : s ≤ symbol.length) (hmatch : t.Matches symbol s p) :
    s + (t.labelAt p).length ≤ symbol.length := by
  have hle := hmatch.length_le
  rw [List.length_drop] at hle
  omega

lemma findChild_match {s : Nat} (hs : s ≤ symbol.length) (n : Nat) {p : Nat}
    (hlabel : t.labelEnd p < t.size) (hmatch : t.Matches symbol s p) :
    Found t symbol s (n + 1) p (t.findChild symbol s (n + 1) p) := by
  have hss := le_length_of_matches hs hmatch
  have hmemory := t.inMemory
  have hfirst : t.firstChild symbol s (n + 1) p =
      if (readUleb128 (t.bytes.drop (t.labelEnd p + 1))).error = none ∧
          (readUleb128 (t.bytes.drop (t.labelEnd p + 1))).value ≠ 0 ∧
          (readUleb128 (t.bytes.drop (t.labelEnd p + 1))).value ≤ t.size then
        some ((readUleb128 (t.bytes.drop (t.labelEnd p + 1))).value, s + (t.labelAt p).length)
      else none := by
    rw [firstChild, if_pos hmatch]
  have hfound := findChild_of_matches hs n hlabel hmatch
  generalize readUleb128 (t.bytes.drop (t.labelEnd p + 1)) = r at hfirst hfound
  cases herror : r.error with
  | some e =>
    simp only [herror, reduceCtorEq, false_and, if_false] at hfirst hfound
    refine ⟨fun nodeOffset ss h => ?_, fun _ => Or.inr (Or.inl ⟨_, hfound⟩)⟩
    rw [hfirst] at h
    cases h
  | none =>
    simp only [herror, true_and] at hfirst hfound
    by_cases hrange : r.value ≠ 0 ∧ r.value ≤ t.size
    · have haddress : ¬(r.value = 0 ∨ t.endAddress < (t.start + r.value) % 2 ^ 64) := by
        unfold endAddress size at *
        omega
      rw [if_pos hrange] at hfirst
      rw [if_neg haddress] at hfound
      refine ⟨fun nodeOffset ss' h => ?_, fun h => ?_⟩
      · rw [hfirst, Option.some.injEq, Prod.mk.injEq] at h
        obtain ⟨rfl, rfl⟩ := h
        exact ⟨hfound, hrange.2, hss⟩
      · rw [hfirst] at h
        cases h
    · rw [if_neg hrange] at hfirst
      refine ⟨fun nodeOffset ss' h => ?_, fun _ => ?_⟩
      · rw [hfirst] at h
        cases h
      · by_cases haddress : r.value = 0 ∨ t.endAddress < (t.start + r.value) % 2 ^ 64
        · rw [if_pos haddress] at hfound
          exact Or.inr (Or.inl ⟨_, hfound⟩)
        · rw [if_neg haddress] at hfound
          exact Or.inr (Or.inr ⟨_, _, hfound, by omega⟩)

lemma findChild_inside {s : Nat} (hs : s ≤ symbol.length) (n : Nat) {p : Nat}
    (h : t.ChildrenInside symbol s n p) : Found t symbol s n p (t.findChild symbol s n p) := by
  induction n generalizing p with
  | zero => exact ⟨fun _ _ h => absurd h.symm (Option.some_ne_none _), fun _ => Or.inl rfl⟩
  | succ n ih =>
    obtain ⟨hlabel, hrest⟩ := h
    by_cases hmatch : t.Matches symbol s p
    · exact findChild_match hs n hlabel hmatch
    · obtain ⟨hnext, hrest⟩ := hrest.resolve_left hmatch
      have hfirst : t.firstChild symbol s (n + 1) p = t.firstChild symbol s n (t.nextChild p) := by
        rw [firstChild, if_neg hmatch]
      rw [findChild_wrong hs n hlabel hmatch, if_pos hnext]
      exact ⟨fun nodeOffset ss h => (ih hrest).child nodeOffset ss (hfirst ▸ h),
        fun h => (ih hrest).noChild (hfirst ▸ h)⟩

lemma findChild_outside {s : Nat} (hs : s ≤ symbol.length) (n : Nat) {p : Nat}
    (h : ¬t.ChildrenInside symbol s n p) : t.findChild symbol s n p = .outside := by
  induction n generalizing p with
  | zero => exact absurd trivial h
  | succ n ih =>
    by_cases hlabel : t.labelEnd p < t.size
    · have hmatch : ¬t.Matches symbol s p := fun hmatch => h ⟨hlabel, Or.inl hmatch⟩
      rw [findChild_wrong hs n hlabel hmatch]
      by_cases hnext : t.nextChild p ≤ t.size
      · rw [if_pos hnext]
        exact ih (fun hrest => h ⟨hlabel, Or.inr ⟨hnext, hrest⟩⟩)
      · rw [if_neg hnext]
    · have hscan := (scanEdge_right (t.bytes.drop p) hs p).outside
        (fun hlt => hlabel (labelEnd_lt_iff.mpr hlt))
      rw [findChild, hscan]

/-! ### One node -/

lemma exists_symbolAt {s : Nat} (hs : s ≤ symbol.length) : ∃ d, symbolAt symbol s = some d := by
  have hlength : s < (symbol ++ [0]).length := by
    rw [List.length_append, List.length_singleton]
    omega
  exact ⟨_, List.getElem?_eq_getElem hlength⟩

def afterChildren (t : TrieBuffer) (symbol : List UInt8) (fuel : Nat) (visited : List Nat) :
    FindChild → Option WalkEnd
  | .noChild => some (.null none)
  | .error e => some (.null (some e))
  | .outside => some .outside
  | .pastSymbol => some .pastSymbol
  | .child nodeOffset ss =>
    if t.size < nodeOffset then some (.null (some (.nodeOffsetOutOfRange nodeOffset)))
    else if nodeOffset ∈ visited then some (.null (some (.cycle nodeOffset)))
    else t.walkFrom symbol fuel (visited ++ [nodeOffset % 2 ^ 32]) ss nodeOffset

lemma walkFrom_inner (fuel : Nat) (visited : List Nat) {s p : Nat} (hlt : p < t.size)
    (herror : (t.terminal p).error = none) (hs : s ≤ symbol.length)
    (hinner : ¬t.IsNodeOfSymbol symbol s p) :
    t.walkFrom symbol (fuel + 1) visited s p =
      if t.endAddress < t.childrenAddress p then some (.null none)
      else if t.childrenAddress p < t.start then some .outside
      else
        match t.bytes[t.childrenAddress p - t.start]? with
        | none => some .outside
        | some count => t.afterChildren symbol fuel visited
            (t.findChild symbol s count.toNat (t.childrenAddress p - t.start + 1)) := by
  obtain ⟨d, hd⟩ := exists_symbolAt hs
  have hnot : ¬(d = 0 ∧ (t.terminal p).value ≠ 0) := fun h => hinner ⟨h.1 ▸ hd, h.2⟩
  rw [walkFrom, if_neg (not_le.mpr hlt), herror, hd]
  dsimp only
  rw [if_neg hnot]
  cases t.bytes[t.childrenAddress p - t.start]? with
  | none => rfl
  | some count =>
    dsimp only
    cases t.findChild symbol s count.toNat (t.childrenAddress p - t.start + 1) with
    | noChild => rfl
    | child nodeOffset ss => rfl
    | error e => rfl
    | outside => rfl
    | pastSymbol => rfl

lemma walkFrom_children (fuel : Nat) (visited : List Nat) {s p n q : Nat} (hlt : p < t.size)
    (herror : (t.terminal p).error = none) (hs : s ≤ symbol.length)
    (hinner : ¬t.IsNodeOfSymbol symbol s p) (hle : t.childrenAddress p ≤ t.endAddress)
    (hchildren : t.HasChildren p n q) :
    t.walkFrom symbol (fuel + 1) visited s p =
      t.afterChildren symbol fuel visited (t.findChild symbol s n q) := by
  obtain ⟨hstart, rfl, count, hcount, rfl⟩ := hchildren
  rw [walkFrom_inner fuel visited hlt herror hs hinner, if_neg (not_lt.mpr hle),
    if_neg (not_lt.mpr hstart), hcount]

lemma walkFrom_of_follows (fuel : Nat) (visited : List Nat) {s p s' nodeOffset : Nat}
    (hs : s ≤ symbol.length) (h : t.Follows symbol s p s' nodeOffset) :
    s' ≤ symbol.length ∧ nodeOffset ≤ t.size ∧
      t.walkFrom symbol (fuel + 1) visited s p =
        if nodeOffset ∈ visited then some (.null (some (.cycle nodeOffset)))
        else t.walkFrom symbol fuel (visited ++ [nodeOffset % 2 ^ 32]) s' nodeOffset := by
  obtain ⟨n, q, hchildren, hfirst⟩ := h.child
  obtain ⟨n', q', hchildren', hinside⟩ := (h.inside h.lt h.noError).2 h.inner h.le
  obtain ⟨rfl, rfl⟩ : n' = n ∧ q' = q := by
    obtain ⟨-, hq, count, hcount, hn⟩ := hchildren
    obtain ⟨-, hq', count', hcount', hn'⟩ := hchildren'
    rw [hcount, Option.some.injEq] at hcount'
    exact ⟨by rw [hn, hn', hcount'], by rw [hq, hq']⟩
  obtain ⟨hfound, hrange, hss⟩ := (findChild_inside hs n' hinside).child nodeOffset s' hfirst
  rw [walkFrom_children fuel visited h.lt h.noError hs h.inner h.le hchildren, hfound]
  exact ⟨hss, hrange, if_neg (not_lt.mpr hrange)⟩

lemma walkFrom_of_inside {s p : Nat} (hs : s ≤ symbol.length) (h : t.NodeInside symbol s p) :
    (∃ r, WalkEnd.Safe t r ∧ ∀ fuel visited, t.walkFrom symbol (fuel + 1) visited s p = some r) ∨
      ∃ s' nodeOffset, t.Follows symbol s p s' nodeOffset := by
  by_cases hlt : p < t.size
  · cases herror : (t.terminal p).error with
    | some e =>
      refine Or.inl ⟨.null (some (.leb e)), trivial, fun fuel visited => ?_⟩
      rw [walkFrom, if_neg (not_le.mpr hlt), herror]
    | none =>
      obtain ⟨hinfo, hchildren⟩ := h hlt herror
      by_cases hnode : t.IsNodeOfSymbol symbol s p
      · refine Or.inl ⟨.found (t.infoAt p), hinfo hnode, fun fuel visited => ?_⟩
        rw [walkFrom, if_neg (not_le.mpr hlt), herror, hnode.1]
        exact if_pos ⟨rfl, hnode.2⟩
      · by_cases hle : t.childrenAddress p ≤ t.endAddress
        · obtain ⟨n, q, hhas, hinside⟩ := hchildren hnode hle
          have hfound := findChild_inside hs n hinside
          cases hfirst : t.firstChild symbol s n q with
          | some child =>
            exact Or.inr ⟨child.2, child.1, h, hlt, herror, hnode, hle, n, q, hhas, hfirst⟩
          | none =>
            refine Or.inl ?_
            obtain hnone | ⟨e, herr⟩ | ⟨nodeOffset, ss, hchild, hbeyond⟩ := hfound.noChild hfirst
            · refine ⟨.null none, trivial, fun fuel visited => ?_⟩
              rw [walkFrom_children fuel visited hlt herror hs hnode hle hhas, hnone]
              rfl
            · refine ⟨.null (some e), trivial, fun fuel visited => ?_⟩
              rw [walkFrom_children fuel visited hlt herror hs hnode hle hhas, herr]
              rfl
            · refine ⟨.null (some (.nodeOffsetOutOfRange nodeOffset)), trivial, fun fuel visited => ?_⟩
              rw [walkFrom_children fuel visited hlt herror hs hnode hle hhas, hchild]
              exact if_pos hbeyond
        · refine Or.inl ⟨.null none, trivial, fun fuel visited => ?_⟩
          rw [walkFrom_inner fuel visited hlt herror hs hnode, if_pos (not_le.mp hle)]
  · refine Or.inl ⟨.null none, trivial, fun fuel visited => ?_⟩
    rw [walkFrom, if_pos (not_lt.mp hlt)]

lemma walkFrom_of_not_inside {s p : Nat} (hs : s ≤ symbol.length) (h : ¬t.NodeInside symbol s p) :
    ∃ r, ¬WalkEnd.Safe t r ∧ ∀ fuel visited, t.walkFrom symbol (fuel + 1) visited s p = some r := by
  unfold NodeInside at h
  simp only [Classical.not_imp, not_and_or] at h
  obtain ⟨hlt, herror, ⟨hnode, hinfo⟩ | ⟨hnode, hle, hchildren⟩⟩ := h
  · refine ⟨.found (t.infoAt p), hinfo, fun fuel visited => ?_⟩
    rw [walkFrom, if_neg (not_le.mpr hlt), herror, hnode.1]
    exact if_pos ⟨rfl, hnode.2⟩
  · refine ⟨.outside, id, fun fuel visited => ?_⟩
    rw [walkFrom_inner fuel visited hlt herror hs hnode, if_neg (not_lt.mpr hle)]
    by_cases hstart : t.childrenAddress p < t.start
    · rw [if_pos hstart]
    · rw [if_neg hstart]
      cases hcount : t.bytes[t.childrenAddress p - t.start]? with
      | none => rfl
      | some count =>
        have hhas : t.HasChildren p count.toNat (t.childrenAddress p - t.start + 1) :=
          ⟨not_lt.mp hstart, rfl, count, hcount, rfl⟩
        have houtside := findChild_outside hs count.toNat (fun hinside => hchildren ⟨_, _, hhas, hinside⟩)
        dsimp only
        rw [houtside]
        rfl

/-! ### The whole walk -/

lemma walkFrom_of_le {fuel fuel' : Nat} (hle : fuel ≤ fuel') {visited : List Nat} {s p : Nat} {r : WalkEnd}
    (h : t.walkFrom symbol fuel visited s p = some r) :
    t.walkFrom symbol fuel' visited s p = some r := by
  induction fuel generalizing fuel' visited s p with
  | zero => cases h
  | succ fuel ih =>
    obtain ⟨fuel', rfl⟩ : ∃ k, fuel' = k + 1 := ⟨fuel' - 1, by omega⟩
    revert h
    simp only [walkFrom]
    by_cases hp : t.size ≤ p
    · simp only [hp, if_true, imp_self]
    simp only [hp, if_false]
    cases (t.terminal p).error with
    | some e => exact id
    | none =>
      cases symbolAt symbol s with
      | none => exact id
      | some d =>
        -- only the last of the branches walks on
        dsimp only
        split_ifs with hnode hbeyond hstart
        · exact id
        · exact id
        · exact id
        cases t.bytes[t.childrenAddress p - t.start]? with
        | none => exact id
        | some count =>
          dsimp only
          cases t.findChild symbol s count.toNat (t.childrenAddress p - t.start + 1) with
          | noChild => exact id
          | error e => exact id
          | outside => exact id
          | pastSymbol => exact id
          | child nodeOffset ss =>
            dsimp only
            split_ifs with hrange hcycle
            · exact id
            · exact id
            · exact ih (Nat.le_of_succ_le_succ hle)

lemma run_of_visits {visited : List Nat} {s p : Nat} (h : t.Visits symbol visited s p) :
    s ≤ symbol.length ∧ 0 < visited.length ∧
      ∀ fuel, t.trieWalk symbol (fuel + (visited.length - 1)) = t.walkFrom symbol fuel visited s p := by
  induction h with
  | root => exact ⟨Nat.zero_le _, Nat.one_pos, fun fuel => rfl⟩
  | step hvisits hfollows hnew ih =>
    obtain ⟨hs, hpos, hrun⟩ := ih
    rename_i visited s p s' nodeOffset
    refine ⟨(walkFrom_of_follows 0 [] hs hfollows).1, by simp, fun fuel => ?_⟩
    have hstep := (walkFrom_of_follows fuel visited hs hfollows).2.2
    rw [if_neg hnew] at hstep
    rw [← hstep, ← hrun (fuel + 1), List.length_append, List.length_singleton]
    congr 1
    omega

structure Contained (t : TrieBuffer) (symbol : List UInt8) : Prop where
  inside : ∀ visited s p, t.Visits symbol visited s p → t.NodeInside symbol s p
  finite : ∃ k, ∀ visited s p, t.Visits symbol visited s p → visited.length ≤ k

lemma robust_of_contained (h : t.Contained symbol) : t.Robust symbol := by
  obtain ⟨k, hk⟩ := h.finite
  have hgo : ∀ m visited s p, t.Visits symbol visited s p → k < visited.length + m →
      ∃ fuel r, t.walkFrom symbol fuel visited s p = some r ∧ r.Safe t := by
    intro m
    induction m with
    | zero =>
      intro visited s p hvisits hlt
      have hle := hk visited s p hvisits
      omega
    | succ m ih =>
      intro visited s p hvisits hlt
      have hs := (run_of_visits hvisits).1
      obtain ⟨r, hsafe, hrun⟩ | ⟨s', nodeOffset, hfollows⟩ :=
        walkFrom_of_inside hs (h.inside visited s p hvisits)
      · exact ⟨1, r, hrun 0 visited, hsafe⟩
      · by_cases hnew : nodeOffset ∈ visited
        · refine ⟨1, .null (some (.cycle nodeOffset)), ?_, trivial⟩
          rw [(walkFrom_of_follows 0 visited hs hfollows).2.2, if_pos hnew]
        · obtain ⟨fuel, r, hrun, hsafe⟩ := ih _ _ _ (hvisits.step hfollows hnew)
            (by rw [List.length_append, List.length_singleton]; omega)
          refine ⟨fuel + 1, r, ?_, hsafe⟩
          rw [(walkFrom_of_follows fuel visited hs hfollows).2.2, if_neg hnew, hrun]
  exact hgo (k + 1) [0] 0 0 .root (by rw [List.length_singleton]; omega)

lemma contained_of_robust (h : t.Robust symbol) : t.Contained symbol := by
  obtain ⟨fuel, r, hwalk, hsafe⟩ := h
  constructor
  · intro visited s p hvisits
    by_contra hnot
    obtain ⟨hs, -, hrun⟩ := run_of_visits hvisits
    obtain ⟨r', hunsafe, hend⟩ := walkFrom_of_not_inside hs hnot
    have hlong := hrun (fuel + 1)
    rw [hend] at hlong
    have hle : fuel ≤ fuel + 1 + (visited.length - 1) := by omega
    rw [trieWalk, walkFrom_of_le hle hwalk, Option.some.injEq] at hlong
    exact hunsafe (hlong ▸ hsafe)
  · refine ⟨fuel, fun visited s p hvisits => ?_⟩
    by_contra hlong
    obtain ⟨-, hpos, hrun⟩ := run_of_visits hvisits
    have hnone := hrun 0
    rw [trieWalk, walkFrom_of_le (show fuel ≤ 0 + (visited.length - 1) by omega) hwalk] at hnone
    cases hnone

/-- The walk is robust exactly if all it visits is inside and it visits finitely many nodes. -/
theorem robust_iff (t : TrieBuffer) (symbol : List UInt8) : t.Robust symbol ↔ t.Contained symbol :=
  ⟨contained_of_robust, robust_of_contained⟩

/-- Offsets of 32 bits are kept whole, so none is in the list twice. -/
lemma visited_nodup (hsmall : t.size < 2 ^ 32) {visited : List Nat} {s p : Nat}
    (h : t.Visits symbol visited s p) : visited.Nodup ∧ ∀ nodeOffset ∈ visited, nodeOffset ≤ t.size := by
  induction h with
  | root => exact ⟨List.nodup_singleton 0, fun nodeOffset h => List.mem_singleton.mp h ▸ Nat.zero_le _⟩
  | step hvisits hfollows hnew ih =>
    rename_i visited s p s' nodeOffset
    have hrange : nodeOffset ≤ t.size :=
      (walkFrom_of_follows 0 [] (run_of_visits hvisits).1 hfollows).2.1
    rw [Nat.mod_eq_of_lt (hrange.trans_lt hsmall)]
    refine ⟨ih.1.append (List.nodup_singleton _) (List.disjoint_singleton.mpr hnew), fun offset h => ?_⟩
    obtain h | h := List.mem_append.mp h
    · exact ih.2 offset h
    · exact List.mem_singleton.mp h ▸ hrange

/-- A trie below 4 GB ends every walk. -/
lemma visited_length_le (hsmall : t.size < 2 ^ 32) {visited : List Nat} {s p : Nat}
    (h : t.Visits symbol visited s p) : visited.length ≤ t.size + 1 := by
  obtain ⟨hnodup, hrange⟩ := visited_nodup hsmall h
  have hsubset : visited ⊆ List.range (t.size + 1) := fun nodeOffset h =>
    List.mem_range.mpr (Nat.lt_succ_of_le (hrange nodeOffset h))
  have hle := (hnodup.subperm hsubset).length_le
  rwa [List.length_range] at hle

/-- In a trie below 4 GB, only what is outside matters. -/
theorem robust_iff_inside (hsmall : t.size < 2 ^ 32) :
    t.Robust symbol ↔ ∀ visited s p, t.Visits symbol visited s p → t.NodeInside symbol s p :=
  (robust_iff t symbol).trans
    ⟨fun h => h.inside, fun h => ⟨h, t.size + 1, fun _ _ _ => visited_length_le hsmall⟩⟩

end TrieBuffer

/-- Of one byte, which says that the node has no info, the walk reads the number of children behind it. -/
theorem oneByte_reads_end : ¬TrieBuffer.Robust ⟨[0], 4096, by decide⟩ [] := by
  rintro ⟨fuel, r, hwalk, hsafe⟩
  have hone : TrieBuffer.trieWalk ⟨[0], 4096, by decide⟩ [] 1 = some .outside := by decide
  cases fuel with
  | zero => cases hwalk
  | succ fuel =>
    have hlong := TrieBuffer.walkFrom_of_le (Nat.le_add_left 1 fuel) hone
    rw [TrieBuffer.trieWalk, hlong, Option.some.injEq] at hwalk
    subst hwalk
    exact hsafe

/-! ### The walk over the bytes that are left -/

lemma scanEdge_bytes (rest ss : List UInt8) :
    MachO.scanEdge rest ss =
      if (labelOf rest).length < rest.length then
        some (if labelOf rest <+: ss then some (ss.drop (labelOf rest).length) else none,
          rest.drop ((labelOf rest).length + 1))
      else none := by
  have hskip : ∀ rest : List UInt8, skipString rest =
      if (labelOf rest).length < rest.length then some (rest.drop ((labelOf rest).length + 1))
      else none := by
    intro rest
    induction rest with
    | nil => rfl
    | cons c rest ih =>
      rw [skipString]
      by_cases hc : c = 0
      · simp [hc, labelOf]
      · rw [if_neg hc, ih, labelOf_cons hc]
        simp
  induction rest generalizing ss with
  | nil => rfl
  | cons c rest ih =>
    rw [MachO.scanEdge.eq_def]
    dsimp only
    by_cases hc : c = 0
    · simp [hc, labelOf]
    · rw [if_neg hc, labelOf_cons hc]
      cases ss with
      | nil =>
        dsimp only
        rw [hskip]
        split <;> simp_all
      | cons d ss =>
        dsimp only
        by_cases hsame : c = d
        · rw [if_pos hsame, ih, hsame]
          simp
        · rw [if_neg hsame, hskip]
          split <;> simp_all

lemma skipUleb_bytes (rest : List UInt8) :
    MachO.skipUleb rest =
      if (ulebOf rest).length < rest.length then some (rest.drop ((ulebOf rest).length + 1)) else none := by
  induction rest with
  | nil => rfl
  | cons b rest ih =>
    rw [MachO.skipUleb]
    by_cases hb : 128 ≤ b.toNat
    · have huleb : ulebOf (b :: rest) = b :: ulebOf rest := by
        rw [ulebOf, List.takeWhile_cons_of_pos (by simpa using hb), ulebOf]
      rw [if_pos hb, ih, huleb]
      simp
    · have huleb : ulebOf (b :: rest) = [] := by
        rw [ulebOf, List.takeWhile_cons_of_neg (by simpa using hb)]
      rw [if_neg hb, huleb]
      simp

/-- The loops over the children end the same way. An offset behind the end is found out in the one or
behind the other. -/
inductive SameChild (t : TrieBuffer) (symbol : List UInt8) :
    FindChild → MachO.FindChild → Prop
  | noChild : SameChild t symbol .noChild .noChild
  | leb (e : LebError) : SameChild t symbol (.error (.leb e)) (.error (.leb e))
  | outOfRange (nodeOffset : Nat) : SameChild t symbol (.error (.nodeOffsetOutOfRange nodeOffset))
      (.error (.nodeOffsetOutOfRange nodeOffset))
  | outside : SameChild t symbol .outside .outside
  | behind {nodeOffset ss : Nat} (h : t.size < nodeOffset) :
      SameChild t symbol (.child nodeOffset ss) (.error (.nodeOffsetOutOfRange nodeOffset))
  | child {nodeOffset ss : Nat} (h : nodeOffset ≤ t.size) (hs : ss ≤ symbol.length) :
      SameChild t symbol (.child nodeOffset ss) (.child nodeOffset (symbol.drop ss))

inductive SameEnd (t : TrieBuffer) : WalkEnd → TrieWalk → Prop
  | found (p : Nat) : SameEnd t (.found p) (.found (t.bytes.drop p))
  | nothing : SameEnd t (.null none) (.null none)
  | leb (e : LebError) : SameEnd t (.null (some (.leb e))) (.null (some (.leb e)))
  | outOfRange (nodeOffset : Nat) : SameEnd t (.null (some (.nodeOffsetOutOfRange nodeOffset)))
      (.null (some (.nodeOffsetOutOfRange nodeOffset)))
  | cycle (nodeOffset : Nat) :
      SameEnd t (.null (some (.cycle nodeOffset))) (.null (some (.cycle nodeOffset)))
  | outside : SameEnd t .outside .outside

namespace TrieBuffer

variable {t : TrieBuffer} {symbol : List UInt8}

lemma sameChild_findChild {s : Nat} (hs : s ≤ symbol.length) (n p : Nat) :
    SameChild t symbol (t.findChild symbol s n p)
      (MachO.findChild t.size n (t.bytes.drop p) (symbol.drop s)) := by
  induction n generalizing p with
  | zero => exact .noChild
  | succ n ih =>
    rw [MachO.findChild, scanEdge_bytes]
    by_cases hlabel : t.labelEnd p < t.size
    · have hlt : (labelOf (t.bytes.drop p)).length < (t.bytes.drop p).length := labelEnd_lt_iff.mp hlabel
      have hrest : (t.bytes.drop p).drop ((labelOf (t.bytes.drop p)).length + 1) =
          t.bytes.drop (t.labelEnd p + 1) := by rw [List.drop_drop]; rfl
      rw [if_pos hlt, hrest]
      by_cases hmatch : t.Matches symbol s p
      · have hprefix : labelOf (t.bytes.drop p) <+: symbol.drop s := hmatch
        have hsymbol : (symbol.drop s).drop (labelOf (t.bytes.drop p)).length =
            symbol.drop (s + (t.labelAt p).length) := List.drop_drop
        rw [findChild_of_matches hs n hlabel hmatch, if_pos hprefix, hsymbol]
        dsimp only
        cases (readUleb128 (t.bytes.drop (t.labelEnd p + 1))).error with
        | some e => exact .leb e
        | none =>
          dsimp only
          generalize (readUleb128 (t.bytes.drop (t.labelEnd p + 1))).value = v
          have hmemory := t.inMemory
          have hend : t.endAddress = t.start + t.size := rfl
          have hsize : t.size = t.bytes.length := rfl
          by_cases hzero : v = 0
          · rw [if_pos (Or.inl hzero), if_pos (Or.inl hzero)]
            exact .outOfRange v
          by_cases hbehind : t.size < v
          · rw [if_pos (Or.inr hbehind)]
            split
            · exact .outOfRange v
            · exact .behind hbehind
          · rw [if_neg (not_or.mpr ⟨hzero, hbehind⟩), if_neg (not_or.mpr ⟨hzero, by
              rw [Nat.mod_eq_of_lt (by omega)]
              omega⟩)]
            exact .child (by omega) (le_length_of_matches hs hmatch)
      · have hprefix : ¬labelOf (t.bytes.drop p) <+: symbol.drop s := hmatch
        rw [findChild_wrong hs n hlabel hmatch, if_neg hprefix]
        dsimp only
        rw [skipUleb_bytes]
        by_cases hnext : t.nextChild p ≤ t.size
        · have hgo : (t.bytes.drop (t.labelEnd p + 1)).drop
              ((ulebOf (t.bytes.drop (t.labelEnd p + 1))).length + 1) = t.bytes.drop (t.nextChild p) := by
            rw [List.drop_drop]
            rfl
          rw [if_pos (nextChild_le_iff.mp hnext), if_pos hnext, hgo]
          exact ih _
        · rw [if_neg (fun h => hnext (nextChild_le_iff.mpr h)), if_neg hnext]
          exact .outside
    · have hlt : ¬(labelOf (t.bytes.drop p)).length < (t.bytes.drop p).length :=
        fun h => hlabel (labelEnd_lt_iff.mpr h)
      have hscanned : Scanned symbol _ s p _ := scanEdge_right (t.bytes.drop p) hs p
      have hscan := hscanned.outside hlt
      rw [if_neg hlt, findChild, hscan]
      exact .outside

lemma suffix_readUlebFrom (tooBig : Nat → Nat → Bool) (bit result : Nat) (bytes : List UInt8) :
    (readUlebFrom tooBig bit result bytes).rest <:+ bytes := by
  induction bytes generalizing bit result with
  | nil => exact List.suffix_rfl
  | cons b bytes ih =>
    rw [readUlebFrom]
    dsimp only
    split_ifs
    · exact List.suffix_rfl
    · exact (ih _ _).trans (List.suffix_cons b bytes)
    · exact List.suffix_cons b bytes

lemma terminal_rest (p : Nat) : (t.terminal p).rest = t.bytes.drop (t.infoAt p) := by
  have hsuffix : (t.terminal p).rest <:+ t.bytes := by
    refine List.IsSuffix.trans ?_ (List.drop_suffix p t.bytes)
    rw [terminal]
    cases t.bytes.drop p with
    | nil => exact List.suffix_rfl
    | cons b rest =>
      dsimp only
      split
      · exact suffix_readUlebFrom _ _ _ _
      · exact List.suffix_cons b rest
  exact List.suffix_iff_eq_drop.mp hsuffix

/-- The address of the children does not wrap. -/
def NoWrap (t : TrieBuffer) : Prop :=
  ∀ p < t.size, t.start + t.infoAt p + (t.terminal p).value < 2 ^ 64

lemma symbolAt_eq_zero_iff (hzero : (0 : UInt8) ∉ symbol) {s : Nat} (hs : s ≤ symbol.length) {d : UInt8}
    (hd : symbolAt symbol s = some d) : d = 0 ↔ symbol.drop s = [] := by
  rcases Nat.lt_or_eq_of_le hs with hlt | rfl
  · obtain ⟨d', hd', hdrop⟩ := symbolAt_of_lt hlt
    obtain rfl : d = d' := Option.some.inj (hd.symm.trans hd')
    rw [hdrop]
    refine ⟨fun h => absurd ?_ hzero, fun h => absurd h (List.cons_ne_nil _ _)⟩
    exact h ▸ List.mem_of_mem_drop (hdrop ▸ List.mem_cons_self)
  · rw [symbolAt_length, Option.some.injEq] at hd
    exact ⟨fun _ => List.drop_length, fun _ => hd.symm⟩

/-- What follows the loop over the children. -/
lemma sameEnd_children {fuel : Nat} {visited : List Nat}
    (ih : ∀ {visited : List Nat} {s p : Nat}, s ≤ symbol.length → Option.Rel (SameEnd t)
      (t.walkFrom symbol fuel visited s p)
      (trieWalkFrom t.bytes fuel visited (t.bytes.drop p) (symbol.drop s)))
    (child : FindChild) (child' : MachO.FindChild) : SameChild t symbol child child' →
    Option.Rel (SameEnd t) (t.afterChildren symbol fuel visited child)
      (match child' with
        | .noChild => some (.null none)
        | .error e => some (.null (some e))
        | .outside => some .outside
        | .child nodeOffset symbol =>
          if nodeOffset ∈ visited then some (.null (some (.cycle nodeOffset)))
          else trieWalkFrom t.bytes fuel (visited ++ [nodeOffset % 2 ^ 32]) (t.bytes.drop nodeOffset)
            symbol) := by
  intro h
  cases h with
  | noChild => exact .some .nothing
  | leb e => exact .some (.leb e)
  | outOfRange nodeOffset => exact .some (.outOfRange nodeOffset)
  | outside => exact .some .outside
  | behind h =>
    rw [afterChildren, if_pos h]
    exact .some (.outOfRange _)
  | child h hs =>
    rw [afterChildren, if_neg (not_lt.mpr h)]
    dsimp only
    split
    · exact .some (.cycle _)
    · exact ih hs

lemma sameEnd_walkFrom (hzero : (0 : UInt8) ∉ symbol) (hwrap : t.NoWrap) (fuel : Nat)
    {visited : List Nat} {s p : Nat} (hs : s ≤ symbol.length) :
    Option.Rel (SameEnd t) (t.walkFrom symbol fuel visited s p)
      (trieWalkFrom t.bytes fuel visited (t.bytes.drop p) (symbol.drop s)) := by
  induction fuel generalizing visited s p with
  | zero => exact .none
  | succ fuel ih =>
    by_cases hlt : p < t.size
    · obtain ⟨b, rest, hdrop⟩ : ∃ b rest, t.bytes.drop p = b :: rest :=
        ⟨_, _, List.drop_eq_getElem_cons hlt⟩
      have hterminal : t.terminal p =
          if 127 < b.toNat then readUleb128 (b :: rest) else ⟨b.toNat, rest, none⟩ := by
        rw [terminal, hdrop]
      obtain ⟨d, hd⟩ := exists_symbolAt hs
      have hend := symbolAt_eq_zero_iff hzero hs hd
      rw [hdrop, trieWalkFrom, ← hterminal]
      cases herror : (t.terminal p).error with
      | some e =>
        rw [walkFrom, if_neg (not_le.mpr hlt), herror]
        exact .some (.leb e)
      | none =>
        dsimp only
        by_cases hinfo : symbol.drop s = [] ∧ (t.terminal p).value ≠ 0
        · rw [walkFrom, if_neg (not_le.mpr hlt), herror, hd, if_pos hinfo, terminal_rest]
          dsimp only
          rw [if_pos ⟨hend.mpr hinfo.1, hinfo.2⟩]
          exact .some (.found _)
        · have hinner : ¬t.IsNodeOfSymbol symbol s p := fun h =>
            hinfo ⟨hend.mp (Option.some.inj (hd.symm.trans h.1)), h.2⟩
          have haddress : t.childrenAddress p = t.start + t.infoAt p + (t.terminal p).value :=
            Nat.mod_eq_of_lt (hwrap p hlt)
          have hlength : (t.terminal p).rest.length = t.size - t.infoAt p := by
            rw [terminal_rest, List.length_drop, size]
          have hinfoAt : t.infoAt p ≤ t.size := Nat.sub_le _ _
          have hendAddress : t.endAddress = t.start + t.size := rfl
          rw [walkFrom_inner fuel visited hlt herror hs hinner, if_neg hinfo]
          by_cases hbehind : (t.terminal p).rest.length < (t.terminal p).value
          · rw [if_pos hbehind, if_pos (by omega)]
            exact .some .nothing
          · have hplace : t.childrenAddress p - t.start = t.infoAt p + (t.terminal p).value := by omega
            rw [if_neg hbehind, if_neg (by omega), if_neg (by omega), hplace, terminal_rest,
              List.drop_drop]
            cases hchildren : t.bytes.drop (t.infoAt p + (t.terminal p).value) with
            | nil =>
              rw [List.getElem?_eq_none (List.drop_eq_nil_iff.mp hchildren)]
              exact .some .outside
            | cons count children =>
              have hcount : t.bytes[t.infoAt p + (t.terminal p).value]? = some count := by
                rw [← List.head?_drop, hchildren, List.head?_cons]
              have hrest : children = t.bytes.drop (t.infoAt p + (t.terminal p).value + 1) := by
                rw [← List.tail_drop, hchildren, List.tail_cons]
              rw [hcount, hrest]
              exact sameEnd_children ih _ _ (sameChild_findChild hs _ _)
    · rw [walkFrom, if_pos (not_lt.mp hlt), List.drop_eq_nil_of_le (not_lt.mp hlt), trieWalkFrom]
      exact .some .nothing

/-- Where no address wraps, this walk and the one over the bytes that are left end the same way. -/
theorem trieWalk_bytes (hzero : (0 : UInt8) ∉ symbol) (hwrap : t.NoWrap) (fuel : Nat) :
    Option.Rel (SameEnd t) (t.trieWalk symbol fuel) (MachO.trieWalk fuel t.bytes symbol) :=
  sameEnd_walkFrom hzero hwrap fuel (Nat.zero_le _)

end TrieBuffer

end Dyld.MachO.TrieBounds
