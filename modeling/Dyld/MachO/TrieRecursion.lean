import Dyld.Lib.NamedSearch
import Dyld.MachO.TrieBounds

/-!
# Enumerating tries

`MachOAnalyzer::recurseTrie` and `Trie::processExportNode` call themselves for the children of a node.
Neither looks where it has been, and neither stays inside the trie, so the memory around it is part of the
model. Both are compared with a depth-first search that keeps the names on its path.
-/

namespace Dyld.MachO.TrieRecursion

open Dyld.Lib TrieBounds

inductive TrieError
  | leb (e : LebError)
  | nodePastEnd
  | terminalSizePastEnd
  | childPastEnd
  | childNodeOffsetZero
  deriving DecidableEq, Repr

instance : Finite TrieError := by
  have hleb : Finite LebError :=
    Finite.of_surjective (fun tooBig : Bool => if tooBig then LebError.tooBig else .malformed) fun e => by
      cases e with
      | malformed => exact ⟨false, rfl⟩
      | tooBig => exact ⟨true, rfl⟩
  let others := [TrieError.nodePastEnd, .terminalSizePastEnd, .childPastEnd, .childNodeOffsetZero]
  apply Finite.of_surjective (fun x : LebError ⊕ Fin 4 => x.elim .leb fun i => others.get i)
  intro e
  cases e with
  | leb e => exact ⟨.inl e, rfl⟩
  | nodePastEnd => exact ⟨.inr 0, rfl⟩
  | terminalSizePastEnd => exact ⟨.inr 1, rfl⟩
  | childPastEnd => exact ⟨.inr 2, rfl⟩
  | childNodeOffsetZero => exact ⟨.inr 3, rfl⟩

structure TrieMemory where
  byte : UInt64 → UInt8
  trieStart : UInt64
  trieEnd : UInt64
  inMemory : trieEnd.toNat + 1 < 2 ^ 64

structure NumberRead where
  value : UInt64
  p : UInt64
  error : Option LebError

namespace TrieMemory

variable (m : TrieMemory)

/-- The bytes that a reader of numbers can come to: it stops if it meets the end, and it does not take
more than ten of them. -/
def numberAt (p : UInt64) : List UInt8 :=
  (List.range (min (m.trieEnd - p).toNat 11)).map fun i => m.byte (p + UInt64.ofNat i)

def readUleb128At (p : UInt64) : NumberRead :=
  let r := readUleb128 (m.numberAt p)
  ⟨UInt64.ofNat r.value, p + UInt64.ofNat ((m.numberAt p).length - r.rest.length), r.error⟩

def parseUleb128At (p : UInt64) : Option (UInt64 × UInt64) :=
  match readUleb128Checked (m.numberAt p) with
  | .error _ => none
  | .ok (result, rest) =>
    some (UInt64.ofNat result, p + UInt64.ofNat ((m.numberAt p).length - rest.length))

end TrieMemory

/-! ### Names -/

/-- The write of a character into a buffer. -/
def setChar (name : List UInt8) (i : Nat) (c : UInt8) : Option (List UInt8) :=
  if i < name.length then some (name.set i c) else none

/-- `OverflowSafeArray::resize`. The characters it adds are not set. -/
def resize (name : List UInt8) (n : Nat) : List UInt8 :=
  name.take n ++ List.replicate (n - name.length) 0

/-- The write of a character into an array that is made as long as needed. The length is an `int`. -/
def resizeAndSet (name : List UInt8) (i : Nat) (c : UInt8) : Option (List UInt8) :=
  if i + 1 < 2 ^ 31 then setChar (resize name (i + 1)) i c else none

inductive EdgeCopy
  | copied (name : List UInt8) (i : Nat)
  | pastEnd (name : List UInt8)
  | overflow

def copyEdge (write : List UInt8 → Nat → UInt8 → Option (List UInt8)) :
    List UInt8 → List UInt8 → Nat → EdgeCopy
  | [], name, _ => .pastEnd name
  | c :: chars, name, i =>
    match write name i c with
    | none => .overflow
    | some name => if c = 0 then .copied name i else copyEdge write chars name (i + 1)

/-! ### `recurseTrie` -/

/-- What a node says of its symbol. -/
structure ExportInfo where
  imageOffset : UInt64
  flags : UInt64
  other : UInt64
  importName : Option UInt64

def noted (error : Option LebError) (diag : Option TrieError) : Option TrieError :=
  match error with
  | some e => some (.leb e)
  | none => diag

/-- What `recurseTrie` changes, with what the callback keeps. -/
structure Enumeration (σ : Type) where
  diag : Option TrieError
  cummulativeString : List UInt8
  stop : Bool
  state : σ

/-- How a call ends. It overflows if it writes outside its name buffer, or the length of the name is no
`int`. -/
inductive Outcome (ρ : Type)
  | returned (result : ρ)
  | overflow

namespace TrieMemory

variable (m : TrieMemory)

/-- The characters that the loop over a label can come to: it stops behind the end, and looks at the first
one in any case. -/
def edgeChars (s : UInt64) : List UInt8 :=
  (List.range (max 1 (m.trieEnd.toNat + 1 - s.toNat))).map fun i => m.byte (s + UInt64.ofNat i)

def readExportInfo (p : UInt64) (diag : Option TrieError) : ExportInfo × Option TrieError :=
  let flags := m.readUleb128At p
  let diag := noted flags.error diag
  if flags.value &&& 0x08 ≠ 0 then
    let other := m.readUleb128At flags.p
    (⟨0, flags.value, other.value, some other.p⟩, noted other.error diag)
  else
    let imageOffset := m.readUleb128At flags.p
    let diag := noted imageOffset.error diag
    if flags.value &&& 0x10 ≠ 0 then
      let other := m.readUleb128At imageOffset.p
      (⟨imageOffset.value, flags.value, other.value, none⟩, noted other.error diag)
    else (⟨imageOffset.value, flags.value, 0, none⟩, diag)

section Recurse

variable {σ : Type}

/-- The loop over the children of a node. -/
def recurseChildren (recurse : UInt64 → Nat → Enumeration σ → Option (Outcome (Enumeration σ)))
    (curStrOffset : Nat) : Nat → UInt64 → Enumeration σ → Option (Outcome (Enumeration σ))
  | 0, _, e => some (.returned e)
  | n + 1, s, e =>
    match copyEdge resizeAndSet (m.edgeChars s) e.cummulativeString curStrOffset with
    | .overflow => some .overflow
    | .pastEnd name =>
      some (.returned { e with diag := some .childPastEnd, cummulativeString := name })
    | .copied name i =>
      let childNodeOffset := m.readUleb128At (s + UInt64.ofNat (i - curStrOffset) + 1)
      if childNodeOffset.value = 0 then
        some (.returned { e with diag := some .childNodeOffsetZero, cummulativeString := name })
      else
        match recurse (m.trieStart + childNodeOffset.value) i
            { e with diag := noted childNodeOffset.error e.diag, cummulativeString := name } with
        | none => none
        | some .overflow => some .overflow
        | some (.returned e) =>
          if e.diag.isSome || e.stop then some (.returned e)
          else recurseChildren recurse curStrOffset n childNodeOffset.p e

/-- The part of `recurseTrie` behind the symbol. -/
def recurseFrom (recurse : UInt64 → Nat → Enumeration σ → Option (Outcome (Enumeration σ)))
    (curStrOffset : Nat) (children : UInt64) (e : Enumeration σ) : Option (Outcome (Enumeration σ)) :=
  if m.trieEnd < children then some (.returned { e with diag := some .terminalSizePastEnd })
  else m.recurseChildren recurse curStrOffset (m.byte children).toNat (children + 1) e

variable (callback : σ → List UInt8 → ExportInfo → σ × Bool)

/-- `MachOAnalyzer::recurseTrie`, to a depth. -/
def recurseTrie : Nat → UInt64 → Nat → Enumeration σ → Option (Outcome (Enumeration σ))
  | 0, _, _, _ => none
  | fuel + 1, p, curStrOffset, e =>
    if m.trieEnd ≤ p then some (.returned { e with diag := some .nodePastEnd })
    else
      let terminalSize := m.readUleb128At p
      let children := terminalSize.p + terminalSize.value
      let e := { e with diag := noted terminalSize.error e.diag }
      if terminalSize.value = 0 then m.recurseFrom (recurseTrie fuel) curStrOffset children e
      else
        let info := m.readExportInfo terminalSize.p e.diag
        if info.2.isSome then some (.returned { e with diag := info.2 })
        else
          let called := callback e.state e.cummulativeString info.1
          let e := { e with diag := info.2, stop := called.2, state := called.1 }
          if e.stop then some (.returned e)
          else m.recurseFrom (recurseTrie fuel) curStrOffset children e

/-- The part of `forEachExportedSymbol` that is about the trie. -/
def forEachExportedSymbol (fuel : Nat) (s : σ) : Option (Outcome (Enumeration σ)) :=
  let e : Enumeration σ := ⟨none, [], false, s⟩
  if m.trieStart = m.trieEnd then some (.returned e)
  else m.recurseTrie callback fuel m.trieStart 0 e

end Recurse

end TrieMemory

/-! ### `processExportNode` -/

structure EntryWithOffset (V : Type) where
  nodeOffset : UInt64
  name : List UInt8
  info : V

/-- What `processExportNode` changes. -/
structure Parse (V : Type) where
  cummulativeString : List UInt8
  output : List (EntryWithOffset V)

/-- The length of `cummulativeString` in `parseTrie`. -/
@[irreducible] def nameBufferLength : Nat := 32768

namespace TrieMemory

variable (m : TrieMemory)

/-- The characters of a label, up to one more than there is room for. -/
def nameChars (s : UInt64) : List UInt8 :=
  (List.range (nameBufferLength + 1)).map fun i => m.byte (s + UInt64.ofNat i)

section Parse

variable {V : Type}

/-- The loop over the children of a node. -/
def processChildren (process : UInt64 → Nat → Parse V → Option (Outcome (Bool × Parse V)))
    (curStrOffset : Nat) : Nat → UInt64 → Parse V → Option (Outcome (Bool × Parse V))
  | 0, _, e => some (.returned (true, e))
  | n + 1, s, e =>
    match copyEdge setChar (m.nameChars s) e.cummulativeString curStrOffset with
    | .overflow => some .overflow
    -- there are more characters than room for them
    | .pastEnd _ => some .overflow
    | .copied name i =>
      match m.parseUleb128At (s + UInt64.ofNat (i - curStrOffset) + 1) with
      | none => some (.returned (false, { e with cummulativeString := name }))
      | some (childNodeOffet, s) =>
        match process (m.trieStart + childNodeOffet) i { e with cummulativeString := name } with
        | none => none
        | some .overflow => some .overflow
        | some (.returned (false, e)) => some (.returned (false, e))
        | some (.returned (true, e)) => processChildren process curStrOffset n s e

variable (loadData : UInt64 → V)

def processExportNode : Nat → UInt64 → Nat → Parse V → Option (Outcome (Bool × Parse V))
  | 0, _, _, _ => none
  | fuel + 1, p, curStrOffset, e =>
    if m.trieEnd ≤ p then some (.returned (false, e))
    else
      match m.parseUleb128At p with
      | none => some (.returned (false, e))
      | some (terminalSize, p) =>
        let children := p + terminalSize
        if m.trieEnd ≤ children then some (.returned (false, e))
        else
          let entry : EntryWithOffset V := ⟨p - m.trieStart, labelOf e.cummulativeString, loadData p⟩
          let e := if terminalSize ≠ 0 then { e with output := e.output ++ [entry] } else e
          m.processChildren (processExportNode fuel) curStrOffset (m.byte children).toNat (children + 1) e

def parseTrie (fuel : Nat) (cummulativeString : List UInt8) :
    Option (Outcome (Option (List (List UInt8 × V)))) :=
  if m.trieStart = m.trieEnd then some (.returned none)
  else
    match m.processExportNode loadData fuel m.trieStart 0 ⟨cummulativeString, []⟩ with
    | none => none
    | some .overflow => some .overflow
    | some (.returned (false, _)) => some (.returned none)
    | some (.returned (true, e)) =>
      let entries := e.output.mergeSort fun a b => a.nodeOffset ≤ b.nodeOffset
      some (.returned (some (entries.map fun entry => (entry.name, entry.info))))

end Parse

/-! ### Graphs of the calls -/

def nodeDiag (p : UInt64) (diag : Option TrieError) : Option TrieError :=
  let terminalSize := m.readUleb128At p
  let diag := noted terminalSize.error diag
  if terminalSize.value = 0 then diag else (m.readExportInfo terminalSize.p diag).2

/-- Where the number of children of a node is. -/
def childrenAt (p : UInt64) : UInt64 := (m.readUleb128At p).p + (m.readUleb128At p).value

def recurseEdges : Nat → UInt64 → Option TrieError → List (NamedEdge (UInt64 × Option TrieError) TrieError)
  | 0, _, none => []
  | 0, _, some e => [.malformed 0 e]
  | n + 1, s, diag =>
    let label := labelOf (m.edgeChars s)
    if label.length < (m.edgeChars s).length then
      let childNodeOffset := m.readUleb128At (s + UInt64.ofNat label.length + 1)
      if childNodeOffset.value = 0 then [.malformed (label.length + 1) .childNodeOffsetZero]
      else
        match noted childNodeOffset.error diag with
        | some e => [.edge label.length (m.trieStart + childNodeOffset.value, some e), .malformed 0 e]
        | none => .edge label.length (m.trieStart + childNodeOffset.value, none) ::
            recurseEdges n childNodeOffset.p none
    else [.malformed label.length .childPastEnd]

def recurseGraph : NamedGraph (UInt64 × Option TrieError) TrieError where
  malformed x :=
    if m.trieEnd ≤ x.1 then some .nodePastEnd
    else if (m.readUleb128At x.1).value ≠ 0 ∧ (m.nodeDiag x.1 x.2).isSome then m.nodeDiag x.1 x.2
    else if m.trieEnd < m.childrenAt x.1 then some .terminalSizePastEnd
    else none
  edges x :=
    m.recurseEdges (m.byte (m.childrenAt x.1)).toNat (m.childrenAt x.1 + 1) (m.nodeDiag x.1 x.2)

def processEdges : Nat → UInt64 → List (NamedEdge UInt64 Unit)
  | 0, _ => []
  | n + 1, s =>
    let label := labelOf (m.nameChars s)
    if label.length < (m.nameChars s).length then
      match m.parseUleb128At (s + UInt64.ofNat label.length + 1) with
      | none => [.malformed (label.length + 1) ()]
      | some (childNodeOffet, s) => .edge label.length (m.trieStart + childNodeOffet) :: processEdges n s
    else [.malformed label.length ()]

def processGraph : NamedGraph UInt64 Unit where
  malformed p :=
    if m.trieEnd ≤ p then some ()
    else
      match m.parseUleb128At p with
      | none => some ()
      | some (terminalSize, p) => if m.trieEnd ≤ p + terminalSize then some () else none
  edges p :=
    match m.parseUleb128At p with
    | none => []
    | some (terminalSize, p) =>
      m.processEdges (m.byte (p + terminalSize)).toNat (p + terminalSize + 1)

/-- A node that `recurseTrie` calls itself for, when there is no error before. -/
def RecurseChild (p q : UInt64) : Prop :=
  m.recurseGraph.malformed (p, none) = none ∧
    ∃ length diag, NamedEdge.edge length (q, diag) ∈ m.recurseGraph.edges (p, none)

def ProcessChild (p q : UInt64) : Prop :=
  m.processGraph.malformed p = none ∧ ∃ length, NamedEdge.edge length q ∈ m.processGraph.edges p

def Cyclic (Child : UInt64 → UInt64 → Prop) : Prop :=
  ∃ n, Relation.ReflTransGen Child m.trieStart n ∧ Relation.TransGen Child n n

/-- Whatever the callback does, `forEachExportedSymbol` ends and does not write outside its name buffer.
When the child offsets form a cycle there is an error, unless the callback stopped. -/
def RecursesSafely : Prop :=
  ∀ (σ : Type) (callback : σ → List UInt8 → ExportInfo → σ × Bool) (s : σ), ∃ fuel e,
    m.forEachExportedSymbol callback fuel s = some (.returned e) ∧
      (m.Cyclic m.RecurseChild → e.diag.isSome ∨ e.stop = true)

/-- `parseTrie` ends and does not write outside its name buffer. When the child offsets form a cycle, it
fails. -/
def ParsesSafely : Prop :=
  ∀ (V : Type) (loadData : UInt64 → V) (cummulativeString : List UInt8),
    cummulativeString.length = nameBufferLength → ∃ fuel result,
      m.parseTrie loadData fuel cummulativeString = some (.returned result) ∧
        (m.Cyclic m.ProcessChild → result = none)

/-- The longest name for which `int` has its length with the `NUL`. -/
def intCapacity : Nat := 2 ^ 31 - 1

end TrieMemory

/-! ### Labels -/

section Labels

variable {write : List UInt8 → Nat → UInt8 → Option (List UInt8)} {capacity : Nat}
  {Buffer : List UInt8 → Prop}

structure WritesBelow (write : List UInt8 → Nat → UInt8 → Option (List UInt8)) (capacity : Nat)
    (Buffer : List UInt8 → Prop) : Prop where
  fits : ∀ name i c, Buffer name → i < capacity → ∃ name', write name i c = some name' ∧ Buffer name'
  overflows : ∀ name i c, Buffer name → capacity ≤ i → write name i c = none

lemma writesBelow_setChar (n : Nat) : WritesBelow setChar n fun name => name.length = n := by
  constructor
  · rintro name i c rfl hi
    exact ⟨name.set i c, if_pos hi, List.length_set⟩
  · rintro name i c rfl hi
    exact if_neg (not_lt.mpr hi)

lemma length_resize (name : List UInt8) (n : Nat) : (resize name n).length = n := by
  rw [resize, List.length_append, List.length_take, List.length_replicate]
  omega

/-- An array that is made longer never overflows, as long as its length is an `int`. -/
lemma writesBelow_resizeAndSet : WritesBelow resizeAndSet TrieMemory.intCapacity fun _ => True := by
  unfold TrieMemory.intCapacity
  constructor
  · intro name i c _ hi
    rw [resizeAndSet, if_pos (by omega)]
    exact ⟨_, if_pos (by rw [length_resize]; omega), trivial⟩
  · intro name i c _ hi
    exact if_neg (by omega)

structure CopyEnds (capacity : Nat) (Buffer : List UInt8 → Prop) (chars : List UInt8) (i : Nat)
    (copy : EdgeCopy) : Prop where
  copied : (labelOf chars).length < chars.length → i + (labelOf chars).length < capacity →
    ∃ name, Buffer name ∧ copy = .copied name (i + (labelOf chars).length)
  copiedOver : (labelOf chars).length < chars.length → ¬i + (labelOf chars).length < capacity →
    copy = .overflow
  pastEnd : ¬(labelOf chars).length < chars.length → i + (labelOf chars).length ≤ capacity →
    ∃ name, Buffer name ∧ copy = .pastEnd name
  pastEndOver : ¬(labelOf chars).length < chars.length → ¬i + (labelOf chars).length ≤ capacity →
    copy = .overflow

lemma CopyEnds.cons {c : UInt8} (hc : c ≠ 0) {chars : List UInt8} {i : Nat} {copy : EdgeCopy}
    (h : CopyEnds capacity Buffer chars (i + 1) copy) : CopyEnds capacity Buffer (c :: chars) i copy := by
  have hlabel : (labelOf (c :: chars)).length = (labelOf chars).length + 1 := by
    rw [labelOf_cons hc, List.length_cons]
  have hindex : i + ((labelOf chars).length + 1) = i + 1 + (labelOf chars).length := by omega
  constructor
  all_goals
    rw [hlabel, List.length_cons, Nat.add_lt_add_iff_right, hindex]
  · exact h.copied
  · exact h.copiedOver
  · exact h.pastEnd
  · exact h.pastEndOver

lemma copyEdge_ends (hwrite : WritesBelow write capacity Buffer) (chars : List UInt8) (name : List UInt8)
    (hname : Buffer name) {i : Nat} (hi : i ≤ capacity) :
    CopyEnds capacity Buffer chars i (copyEdge write chars name i) := by
  induction chars generalizing name i with
  | nil =>
    refine ⟨fun h => absurd h (Nat.lt_irrefl _), fun h => absurd h (Nat.lt_irrefl _), fun _ _ => ?_, ?_⟩
    · exact ⟨name, hname, rfl⟩
    · exact fun _ h => absurd hi h
  | cons c chars ih =>
    rw [copyEdge]
    by_cases hlt : i < capacity
    · obtain ⟨name', hset, hname'⟩ := hwrite.fits name i c hname hlt
      rw [hset]
      by_cases hc : c = 0
      · have hlabel : labelOf (c :: chars) = [] := by simp [labelOf, hc]
        dsimp only
        rw [if_pos hc]
        constructor
        all_goals
          rw [hlabel, List.length_nil, Nat.add_zero, List.length_cons]
        · exact fun _ _ => ⟨name', hname', rfl⟩
        · exact fun _ h => absurd hlt h
        · exact fun h => absurd (Nat.succ_pos _) h
        · exact fun h => absurd (Nat.succ_pos _) h
      · dsimp only
        rw [if_neg hc]
        exact (ih name' hname' hlt).cons hc
    · rw [hwrite.overflows name i c hname (not_lt.mp hlt)]
      have hlong : (labelOf (c :: chars)).length < (c :: chars).length ∨
          0 < (labelOf (c :: chars)).length := by
        rw [List.length_cons]
        omega
      refine ⟨fun _ h => ?_, fun _ _ => rfl, fun h hle => ?_, fun _ _ => rfl⟩
      · omega
      · omega

end Labels

/-! ### `recurseTrie` as a search -/

section Recurse

variable {m : TrieMemory} {σ : Type} {callback : σ → List UInt8 → ExportInfo → σ × Bool}

/-- How a call ends whose search has the result. -/
def RecursionAgrees (diag : Option TrieError) (o : Option (Outcome (Enumeration σ))) :
    Option (Option (Failure TrieError)) → Prop
  | none => o = none
  | some none => diag = none ∧ ∃ e, o = some (.returned e) ∧ e.diag = none ∧ e.stop = false
  | some (some (.error error)) => ∃ e, o = some (.returned e) ∧ e.diag = some error
  | some (some .overflow) => o = some .overflow

variable (callback) in
def RecursionEnds (diag : Option TrieError) (o : Option (Outcome (Enumeration σ)))
    (r : Option (Option (Failure TrieError))) : Prop :=
  (∃ e s name info, o = some (.returned e) ∧ e.stop = true ∧ (callback s name info).2 = true) ∨
    RecursionAgrees diag o r

lemma RecursionEnds.andThen {diag diag' : Option TrieError} {o : Option (Outcome (Enumeration σ))}
    {r rest : Option (Option (Failure TrieError))}
    {next : Enumeration σ → Option (Outcome (Enumeration σ))} (h : RecursionEnds callback diag' o r)
    (hrest : diag' = none → ∀ e, e.diag = none → e.stop = false →
      RecursionEnds callback diag (next e) rest) :
    RecursionEnds callback diag
      (match o with
        | none => none
        | some .overflow => some .overflow
        | some (.returned e) => if e.diag.isSome || e.stop then some (.returned e) else next e)
      (NamedGraph.goOn r rest) := by
  obtain ⟨e, s, name, info, rfl, hstop, hcall⟩ | hagrees := h
  · refine Or.inl ⟨e, s, name, info, ?_, hstop, hcall⟩
    dsimp only
    rw [hstop, Bool.or_true, if_pos rfl]
  · cases r with
    | none =>
      obtain rfl := hagrees
      exact Or.inr rfl
    | some r =>
      cases r with
      | none =>
        obtain ⟨hnone, e, rfl, hdiag, hstop⟩ := hagrees
        dsimp only
        rw [hdiag, hstop, Option.isSome_none, Bool.or_false, if_neg Bool.false_ne_true]
        exact hrest hnone e hdiag hstop
      | some failure =>
        cases failure with
        | error error =>
          obtain ⟨e, rfl, hdiag⟩ := hagrees
          refine Or.inr ⟨e, ?_, hdiag⟩
          dsimp only
          rw [hdiag, Option.isSome_some, Bool.true_or, if_pos rfl]
        | overflow =>
          obtain rfl := hagrees
          exact Or.inr rfl

lemma noted_eq_none {error : Option LebError} {diag : Option TrieError} (h : noted error diag = none) :
    diag = none := by
  cases error with
  | none => exact h
  | some e => cases h

variable {find : UInt64 × Option TrieError → Nat → Option (Option (Failure TrieError))}
  {recurse : UInt64 → Nat → Enumeration σ → Option (Outcome (Enumeration σ))} {used : Nat}

lemma searchEdges_tooLong {s : UInt64} (hended : (labelOf (m.edgeChars s)).length < (m.edgeChars s).length)
    (hfit : ¬used + (labelOf (m.edgeChars s)).length < TrieMemory.intCapacity) (n : Nat)
    (diag : Option TrieError) :
    NamedGraph.searchEdges TrieMemory.intCapacity find used (m.recurseEdges (n + 1) s diag) =
      some (some .overflow) := by
  have hroom : ¬used + ((labelOf (m.edgeChars s)).length + 1) ≤ TrieMemory.intCapacity := hfit
  rw [TrieMemory.recurseEdges]
  dsimp only
  rw [if_pos hended]
  generalize m.readUleb128At (s + UInt64.ofNat (labelOf (m.edgeChars s)).length + 1) = offset
  by_cases hzero : offset.value = 0
  · rw [if_pos hzero]
    exact if_neg hroom
  · rw [if_neg hzero]
    cases noted offset.error diag with
    | some error => exact if_neg hfit
    | none => exact if_neg hfit

lemma recurseChildren_ends (hused : used ≤ TrieMemory.intCapacity)
    (hfind : ∀ q used' e, used' ≤ TrieMemory.intCapacity → e.stop = false →
      RecursionEnds callback e.diag (recurse q used' e) (find (q, e.diag) used'))
    (n : Nat) (s : UInt64) (e : Enumeration σ) (hstop : e.stop = false) :
    RecursionEnds callback e.diag (m.recurseChildren recurse used n s e)
      (NamedGraph.searchEdges TrieMemory.intCapacity find used (m.recurseEdges n s e.diag)) := by
  induction n generalizing s e with
  | zero =>
    refine Or.inr ?_
    rw [TrieMemory.recurseChildren]
    cases hdiag : e.diag with
    | none => exact ⟨rfl, e, rfl, hdiag, hstop⟩
    | some error =>
      rw [TrieMemory.recurseEdges, NamedGraph.searchEdges, Nat.add_zero, if_pos hused]
      exact ⟨e, rfl, hdiag⟩
  | succ n ih =>
    obtain ⟨hcopied, hcopiedOver, hpastEnd, hpastEndOver⟩ :=
      copyEdge_ends writesBelow_resizeAndSet (m.edgeChars s) e.cummulativeString trivial hused
    by_cases hended : (labelOf (m.edgeChars s)).length < (m.edgeChars s).length
    · by_cases hfit : used + (labelOf (m.edgeChars s)).length < TrieMemory.intCapacity
      · obtain ⟨name, -, hname⟩ := hcopied hended hfit
        rw [TrieMemory.recurseChildren, TrieMemory.recurseEdges, hname]
        dsimp only
        rw [if_pos hended, Nat.add_sub_cancel_left]
        generalize (labelOf (m.edgeChars s)).length = length at hfit ⊢
        generalize m.readUleb128At (s + UInt64.ofNat length + 1) = offset
        by_cases hzero : offset.value = 0
        · have hroom : used + (length + 1) ≤ TrieMemory.intCapacity := hfit
          rw [if_pos hzero, if_pos hzero, NamedGraph.searchEdges, if_pos hroom]
          exact Or.inr ⟨_, rfl, rfl⟩
        · rw [if_neg hzero, if_neg hzero]
          have hchild := hfind (m.trieStart + offset.value) (used + length)
            { e with diag := noted offset.error e.diag, cummulativeString := name } hfit.le hstop
          dsimp only at hchild
          cases hnoted : noted offset.error e.diag with
          | some error =>
            rw [hnoted] at hchild
            dsimp only
            rw [NamedGraph.searchEdges, if_pos hfit]
            exact hchild.andThen fun h => absurd h (Option.some_ne_none error)
          | none =>
            rw [hnoted] at hchild
            dsimp only
            rw [NamedGraph.searchEdges, if_pos hfit]
            apply hchild.andThen
            intro _ e' hdiag' hstop'
            have hrest := ih offset.p e' hstop'
            rw [hdiag'] at hrest
            rw [noted_eq_none hnoted]
            exact hrest
      · rw [searchEdges_tooLong hended hfit, TrieMemory.recurseChildren, hcopiedOver hended hfit]
        exact Or.inr rfl
    · rw [TrieMemory.recurseChildren, TrieMemory.recurseEdges]
      dsimp only
      rw [if_neg hended, NamedGraph.searchEdges]
      by_cases hfit : used + (labelOf (m.edgeChars s)).length ≤ TrieMemory.intCapacity
      · obtain ⟨name, -, hname⟩ := hpastEnd hended hfit
        rw [hname, if_pos hfit]
        exact Or.inr ⟨_, rfl, rfl⟩
      · rw [hpastEndOver hended hfit, if_neg hfit]
        exact Or.inr rfl

lemma recurseFrom_ends (hused : used ≤ TrieMemory.intCapacity)
    (hfind : ∀ q used' e, used' ≤ TrieMemory.intCapacity → e.stop = false →
      RecursionEnds callback e.diag (recurse q used' e) (find (q, e.diag) used'))
    (children : UInt64) (e : Enumeration σ) (hstop : e.stop = false) :
    RecursionEnds callback e.diag (m.recurseFrom recurse used children e)
      (if m.trieEnd < children then some (some (.error .terminalSizePastEnd))
        else NamedGraph.searchEdges TrieMemory.intCapacity find used
          (m.recurseEdges (m.byte children).toNat (children + 1) e.diag)) := by
  rw [TrieMemory.recurseFrom]
  by_cases hpast : m.trieEnd < children
  · rw [if_pos hpast, if_pos hpast]
    exact Or.inr ⟨_, rfl, rfl⟩
  · rw [if_neg hpast, if_neg hpast]
    exact recurseChildren_ends hused hfind (m.byte children).toNat (children + 1) e hstop

lemma readExportInfo_eq_none {p : UInt64} {diag : Option TrieError}
    (h : (m.readExportInfo p diag).2 = none) : diag = none := by
  unfold TrieMemory.readExportInfo at h
  dsimp only at h
  split_ifs at h
  · exact noted_eq_none (noted_eq_none h)
  · exact noted_eq_none (noted_eq_none (noted_eq_none h))
  · exact noted_eq_none (noted_eq_none h)

lemma RecursionEnds.mono {diag diag' : Option TrieError} {o : Option (Outcome (Enumeration σ))}
    {r : Option (Option (Failure TrieError))} (h : RecursionEnds callback diag' o r)
    (hdiag : diag' = none → diag = none) : RecursionEnds callback diag o r := by
  obtain hstopped | hagrees := h
  · exact Or.inl hstopped
  · refine Or.inr ?_
    cases r with
    | none => exact hagrees
    | some r =>
      cases r with
      | none => exact ⟨hdiag hagrees.1, hagrees.2⟩
      | some failure =>
        cases failure with
        | error error => exact hagrees
        | overflow => exact hagrees

lemma malformed_of_pastEnd {p : UInt64} (h : m.trieEnd ≤ p) (diag : Option TrieError) :
    m.recurseGraph.malformed (p, diag) = some .nodePastEnd := if_pos h

lemma search_node {p : UInt64} {diag : Option TrieError} (hpast : ¬m.trieEnd ≤ p)
    (hread : (m.readUleb128At p).value = 0 ∨ m.nodeDiag p diag = none) (fuel : Nat) :
    m.recurseGraph.search TrieMemory.intCapacity (fuel + 1) (p, diag) used =
      if m.trieEnd < m.childrenAt p then some (some (.error .terminalSizePastEnd))
      else NamedGraph.searchEdges TrieMemory.intCapacity
        (m.recurseGraph.search TrieMemory.intCapacity fuel) used
        (m.recurseEdges (m.byte (m.childrenAt p)).toNat (m.childrenAt p + 1) (m.nodeDiag p diag)) := by
  have hno : ¬((m.readUleb128At p).value ≠ 0 ∧ (m.nodeDiag p diag).isSome) := by
    rintro ⟨hne, hsome⟩
    obtain hzero | hnone := hread
    · exact hne hzero
    · rw [hnone] at hsome
      cases hsome
  have hmalformed : m.recurseGraph.malformed (p, diag) =
      if m.trieEnd < m.childrenAt p then some .terminalSizePastEnd else none := by
    refine (if_neg hpast).trans ?_
    exact if_neg hno
  by_cases hbeyond : m.trieEnd < m.childrenAt p
  · rw [if_pos hbeyond] at hmalformed ⊢
    exact NamedGraph.search_of_malformed hmalformed fuel used
  · rw [if_neg hbeyond] at hmalformed ⊢
    exact NamedGraph.search_of_not_malformed hmalformed fuel used

variable (m callback) in
lemma recurseTrie_ends (fuel : Nat) (p : UInt64) (used : Nat) (e : Enumeration σ)
    (hused : used ≤ TrieMemory.intCapacity) (hstop : e.stop = false) :
    RecursionEnds callback e.diag (m.recurseTrie callback fuel p used e)
      (m.recurseGraph.search TrieMemory.intCapacity fuel (p, e.diag) used) := by
  induction fuel generalizing p used e with
  | zero => exact Or.inr rfl
  | succ fuel ih =>
    rw [TrieMemory.recurseTrie]
    by_cases hpast : m.trieEnd ≤ p
    · rw [NamedGraph.search_of_malformed (malformed_of_pastEnd hpast e.diag), if_pos hpast]
      exact Or.inr ⟨_, rfl, rfl⟩
    · rw [if_neg hpast]
      dsimp only
      by_cases hzero : (m.readUleb128At p).value = 0
      · have hdiag : m.nodeDiag p e.diag = noted (m.readUleb128At p).error e.diag := if_pos hzero
        rw [if_pos hzero, search_node hpast (Or.inl hzero), hdiag]
        exact (recurseFrom_ends hused ih (m.childrenAt p)
          { e with diag := noted (m.readUleb128At p).error e.diag } hstop).mono noted_eq_none
      · have hdiag : m.nodeDiag p e.diag = (m.readExportInfo (m.readUleb128At p).p
            (noted (m.readUleb128At p).error e.diag)).2 := if_neg hzero
        rw [if_neg hzero, ← hdiag]
        cases hnode : m.nodeDiag p e.diag with
        | some error =>
          have hmalformed : m.recurseGraph.malformed (p, e.diag) = some error := by
            refine (if_neg hpast).trans ((if_pos ⟨hzero, ?_⟩).trans hnode)
            rw [hnode]
            rfl
          rw [NamedGraph.search_of_malformed hmalformed, Option.isSome_some, if_pos rfl]
          exact Or.inr ⟨_, rfl, rfl⟩
        | none =>
          rw [Option.isSome_none, if_neg Bool.false_ne_true]
          generalize hcalled : callback e.state e.cummulativeString
            (m.readExportInfo (m.readUleb128At p).p (noted (m.readUleb128At p).error e.diag)).1 = called
          cases hstopped : called.2 with
          | true =>
            rw [if_pos rfl]
            exact Or.inl ⟨_, _, _, _, rfl, rfl, (congrArg Prod.snd hcalled).trans hstopped⟩
          | false =>
            rw [if_neg Bool.false_ne_true, search_node hpast (Or.inr hnode), hnode]
            refine (recurseFrom_ends hused ih (m.childrenAt p)
              { e with diag := none, stop := false, state := called.1 } rfl).mono fun _ => ?_
            exact noted_eq_none (readExportInfo_eq_none (hdiag.symm.trans hnode))

/-! ### When the enumeration is safe -/

/-- A number that is malformed ends the loop over the children. -/
lemma malformed_of_edge {n : Nat} {s : UInt64} {diag : Option TrieError} {length : Nat} {q : UInt64}
    {error : TrieError} (h : NamedEdge.edge length (q, some error) ∈ m.recurseEdges n s diag) :
    NamedEdge.malformed 0 error ∈ m.recurseEdges n s diag := by
  induction n generalizing s diag with
  | zero => cases diag <;> simp [TrieMemory.recurseEdges] at h
  | succ n ih =>
    rw [TrieMemory.recurseEdges] at h ⊢
    dsimp only at h ⊢
    split_ifs at h ⊢ with hended hzero
    · simp at h
    · split at h
      · simp at h
        simp [h]
      · simp at h
        exact List.mem_cons_of_mem _ (ih h)
    · simp at h

lemma descends_of_child {fuel : Nat} {p q : UInt64}
    (h : ∃ used, m.recurseGraph.search TrieMemory.intCapacity (fuel + 1) (p, none) used = some none)
    (hchild : m.RecurseChild p q) :
    ∃ used, m.recurseGraph.search TrieMemory.intCapacity fuel (q, none) used = some none := by
  obtain ⟨used, hsearch⟩ := h
  obtain ⟨-, length, diag, hmem⟩ := hchild
  obtain ⟨-, hedges⟩ := NamedGraph.edges_of_search hsearch
  obtain ⟨length', child, heq, hnext⟩ := hedges _ hmem
  cases heq
  cases diag with
  | none => exact ⟨_, hnext⟩
  | some error =>
    obtain ⟨_, _, hne, -⟩ := hedges _ (malformed_of_edge hmem)
    cases hne

lemma not_cyclic_of_search {fuel : Nat}
    (h : m.recurseGraph.search TrieMemory.intCapacity fuel (m.trieStart, none) 0 = some none) :
    ¬m.Cyclic m.RecurseChild :=
  not_cyclic_of_descends
    (fun k p => ∃ used, m.recurseGraph.search TrieMemory.intCapacity k (p, none) used = some none)
    (fun p hp => by obtain ⟨used, hp⟩ := hp; cases hp)
    (fun k p q => descends_of_child) ⟨0, h⟩

lemma exists_child_of_cyclic {Child : UInt64 → UInt64 → Prop} (h : m.Cyclic Child) :
    ∃ q, Child m.trieStart q := by
  obtain ⟨n, hreach, hloop⟩ := h
  obtain rfl | ⟨q, hq, -⟩ := hreach.cases_head
  · obtain ⟨q, hq, -⟩ := Relation.TransGen.head'_iff.mp hloop
    exact ⟨q, hq⟩
  · exact ⟨q, hq⟩

variable (m) in
lemma recursesSafely_iff :
    m.RecursesSafely ↔ m.recurseGraph.Fits TrieMemory.intCapacity (m.trieStart, none) := by
  rw [NamedGraph.fits_iff]
  constructor
  · intro h
    by_cases hempty : m.trieStart = m.trieEnd
    · refine ⟨1, some (.error .nodePastEnd), ?_, by simp⟩
      exact NamedGraph.search_of_malformed (malformed_of_pastEnd (UInt64.le_of_eq hempty.symm) none) 0 0
    · obtain ⟨fuel, e, hrun, -⟩ := h Unit (fun s _ _ => (s, false)) ()
      rw [TrieMemory.forEachExportedSymbol, if_neg hempty] at hrun
      obtain ⟨_, _, _, _, _, _, hcall⟩ | hagrees := recurseTrie_ends m (fun (s : Unit) _ _ => (s, false)) fuel
        m.trieStart 0 ⟨none, [], false, ()⟩ (Nat.zero_le _) rfl
      · cases hcall
      · rw [hrun] at hagrees
        dsimp only at hagrees
        cases hr : m.recurseGraph.search TrieMemory.intCapacity fuel (m.trieStart, none) 0 with
        | none =>
          rw [hr] at hagrees
          cases hagrees
        | some r =>
          refine ⟨fuel, r, hr, ?_⟩
          rintro rfl
          rw [hr] at hagrees
          cases hagrees
  · rintro ⟨fuel, r, hr, hne⟩ σ callback s
    by_cases hempty : m.trieStart = m.trieEnd
    · refine ⟨0, ⟨none, [], false, s⟩, if_pos hempty, fun hcyclic => ?_⟩
      obtain ⟨q, hnot, -⟩ := exists_child_of_cyclic hcyclic
      rw [malformed_of_pastEnd (UInt64.le_of_eq hempty.symm)] at hnot
      cases hnot
    · have hrun : m.forEachExportedSymbol callback fuel s =
          m.recurseTrie callback fuel m.trieStart 0 ⟨none, [], false, s⟩ := if_neg hempty
      have hends := recurseTrie_ends m callback fuel m.trieStart 0 ⟨none, [], false, s⟩ (Nat.zero_le _) rfl
      rw [← hrun] at hends
      dsimp only at hends
      rw [hr] at hends
      obtain ⟨e, _, _, _, he, hstop, -⟩ | hagrees := hends
      · exact ⟨fuel, e, he, fun _ => Or.inr hstop⟩
      · cases r with
        | none =>
          obtain ⟨-, e, he, -, -⟩ := hagrees
          exact ⟨fuel, e, he, fun hcyclic => absurd hcyclic (not_cyclic_of_search hr)⟩
        | some failure =>
          cases failure with
          | overflow => exact absurd rfl hne
          | error error =>
            obtain ⟨e, he, hdiag⟩ := hagrees
            refine ⟨fuel, e, he, fun _ => Or.inl ?_⟩
            rw [hdiag]
            rfl

end Recurse

/-! ### `parseTrie` as a search -/

section Parse

variable {m : TrieMemory} {V : Type}

def ParseAgrees (o : Option (Outcome (Bool × Parse V))) : Option (Option (Failure Unit)) → Prop
  | none => o = none
  | some none => ∃ e, o = some (.returned (true, e)) ∧ e.cummulativeString.length = nameBufferLength
  | some (some (.error _)) => ∃ e, o = some (.returned (false, e))
  | some (some .overflow) => o = some .overflow

lemma ParseAgrees.andThen {o : Option (Outcome (Bool × Parse V))} {r rest : Option (Option (Failure Unit))}
    {next : Parse V → Option (Outcome (Bool × Parse V))} :
    ParseAgrees o r →
    (∀ e, e.cummulativeString.length = nameBufferLength → ParseAgrees (next e) rest) →
    ParseAgrees
      (match o with
        | none => none
        | some .overflow => some .overflow
        | some (.returned (false, e)) => some (.returned (false, e))
        | some (.returned (true, e)) => next e)
      (NamedGraph.goOn r rest) := by
  intro h hrest
  cases r with
  | none =>
    obtain rfl := h
    rfl
  | some r =>
    cases r with
    | none =>
      obtain ⟨e, rfl, hlength⟩ := h
      exact hrest e hlength
    | some failure =>
      cases failure with
      | error error =>
        obtain ⟨e, rfl⟩ := h
        exact ⟨e, rfl⟩
      | overflow =>
        obtain rfl := h
        rfl

variable {find : UInt64 → Nat → Option (Option (Failure Unit))}
  {process : UInt64 → Nat → Parse V → Option (Outcome (Bool × Parse V))} {used : Nat}

/-- There are always more characters than room for them. -/
lemma length_nameChars (s : UInt64) : (m.nameChars s).length = nameBufferLength + 1 := by
  rw [TrieMemory.nameChars, List.length_map, List.length_range]

lemma processChildren_agrees (hused : used ≤ nameBufferLength)
    (hfind : ∀ q used' e, used' ≤ nameBufferLength → e.cummulativeString.length = nameBufferLength →
      ParseAgrees (process q used' e) (find q used'))
    (n : Nat) (s : UInt64) (e : Parse V) (hlength : e.cummulativeString.length = nameBufferLength) :
    ParseAgrees (m.processChildren process used n s e)
      (NamedGraph.searchEdges nameBufferLength find used (m.processEdges n s)) := by
  induction n generalizing s e with
  | zero =>
    rw [TrieMemory.processChildren, TrieMemory.processEdges, NamedGraph.searchEdges]
    exact ⟨e, rfl, hlength⟩
  | succ n ih =>
    obtain ⟨hcopied, hcopiedOver, -, hpastEndOver⟩ :=
      copyEdge_ends (writesBelow_setChar nameBufferLength) (m.nameChars s) e.cummulativeString hlength hused
    rw [TrieMemory.processChildren, TrieMemory.processEdges]
    have hlabel : (labelOf (m.nameChars s)).length ≤ (m.nameChars s).length :=
      (List.takeWhile_prefix _).length_le
    have hchars := length_nameChars (m := m) s
    generalize (labelOf (m.nameChars s)).length = length at hcopied hcopiedOver hpastEndOver hlabel ⊢
    by_cases hended : length < (m.nameChars s).length
    · rw [if_pos hended]
      by_cases hfit : used + length < nameBufferLength
      · obtain ⟨name, hname, hcopy⟩ := hcopied hended hfit
        rw [hcopy]
        dsimp only
        rw [Nat.add_sub_cancel_left]
        cases m.parseUleb128At (s + UInt64.ofNat length + 1) with
        | none =>
          have hroom : used + (length + 1) ≤ nameBufferLength := by omega
          dsimp only
          rw [NamedGraph.searchEdges, if_pos hroom]
          exact ⟨_, rfl⟩
        | some offset =>
          dsimp only
          rw [NamedGraph.searchEdges, if_pos hfit]
          exact (hfind (m.trieStart + offset.1) (used + length) { e with cummulativeString := name }
            hfit.le hname).andThen fun e' => ih offset.2 e'
      · rw [hcopiedOver hended hfit]
        dsimp only
        cases m.parseUleb128At (s + UInt64.ofNat length + 1) with
        | none =>
          have hroom : ¬used + (length + 1) ≤ nameBufferLength := by omega
          dsimp only
          rw [NamedGraph.searchEdges, if_neg hroom]
          rfl
        | some offset =>
          dsimp only
          rw [NamedGraph.searchEdges, if_neg hfit]
          rfl
    · have hroom : ¬used + length ≤ nameBufferLength := by omega
      rw [hpastEndOver hended hroom, if_neg hended, NamedGraph.searchEdges, if_neg hroom]
      rfl

variable (m) in
lemma processExportNode_agrees (loadData : UInt64 → V) (fuel : Nat) (p : UInt64) (used : Nat) (e : Parse V)
    (hused : used ≤ nameBufferLength) (hlength : e.cummulativeString.length = nameBufferLength) :
    ParseAgrees (m.processExportNode loadData fuel p used e)
      (m.processGraph.search nameBufferLength fuel p used) := by
  induction fuel generalizing p used e with
  | zero => rfl
  | succ fuel ih =>
    rw [TrieMemory.processExportNode]
    by_cases hpast : m.trieEnd ≤ p
    · have hmalformed : m.processGraph.malformed p = some () := if_pos hpast
      rw [NamedGraph.search_of_malformed hmalformed, if_pos hpast]
      exact ⟨e, rfl⟩
    · rw [if_neg hpast]
      have hnode : m.processGraph.malformed p = match m.parseUleb128At p with
          | none => some ()
          | some (terminalSize, p) => if m.trieEnd ≤ p + terminalSize then some () else none := if_neg hpast
      have hedges : m.processGraph.edges p = match m.parseUleb128At p with
          | none => []
          | some (terminalSize, p) =>
            m.processEdges (m.byte (p + terminalSize)).toNat (p + terminalSize + 1) := rfl
      cases hread : m.parseUleb128At p with
      | none =>
        rw [hread] at hnode
        rw [NamedGraph.search_of_malformed hnode]
        exact ⟨e, rfl⟩
      | some number =>
        rw [hread] at hnode hedges
        dsimp only at hnode hedges ⊢
        by_cases hbeyond : m.trieEnd ≤ number.2 + number.1
        · rw [if_pos hbeyond] at hnode ⊢
          rw [NamedGraph.search_of_malformed hnode]
          exact ⟨e, rfl⟩
        · rw [if_neg hbeyond] at hnode ⊢
          rw [NamedGraph.search_of_not_malformed hnode, hedges]
          apply processChildren_agrees hused ih
          split_ifs
          · exact hlength
          · exact hlength

lemma descends_of_processChild {fuel : Nat} {p q : UInt64}
    (h : ∃ used, m.processGraph.search nameBufferLength (fuel + 1) p used = some none)
    (hchild : m.ProcessChild p q) :
    ∃ used, m.processGraph.search nameBufferLength fuel q used = some none := by
  obtain ⟨used, hsearch⟩ := h
  obtain ⟨-, length, hmem⟩ := hchild
  obtain ⟨length', child, heq, hnext⟩ := (NamedGraph.edges_of_search hsearch).2 _ hmem
  cases heq
  exact ⟨_, hnext⟩

lemma not_cyclic_of_processSearch {fuel : Nat}
    (h : m.processGraph.search nameBufferLength fuel m.trieStart 0 = some none) :
    ¬m.Cyclic m.ProcessChild :=
  not_cyclic_of_descends (fun k p => ∃ used, m.processGraph.search nameBufferLength k p used = some none)
    (fun p hp => by obtain ⟨used, hp⟩ := hp; cases hp)
    (fun k p q => descends_of_processChild) ⟨0, h⟩

variable (m) in
lemma parsesSafely_iff : m.ParsesSafely ↔ m.processGraph.Fits nameBufferLength m.trieStart := by
  rw [NamedGraph.fits_iff]
  have hroot (hempty : m.trieStart = m.trieEnd) : m.processGraph.malformed m.trieStart = some () :=
    if_pos (UInt64.le_of_eq hempty.symm)
  constructor
  · intro h
    by_cases hempty : m.trieStart = m.trieEnd
    · refine ⟨1, some (.error ()), NamedGraph.search_of_malformed (hroot hempty) 0 0, by simp⟩
    · obtain ⟨fuel, result, hrun, -⟩ := h Unit (fun _ => ()) (List.replicate nameBufferLength 0)
        List.length_replicate
      have hagrees := processExportNode_agrees m (fun _ => ()) fuel m.trieStart 0
        ⟨List.replicate nameBufferLength 0, []⟩ (Nat.zero_le _) List.length_replicate
      rw [TrieMemory.parseTrie, if_neg hempty] at hrun
      cases hr : m.processGraph.search nameBufferLength fuel m.trieStart 0 with
      | none =>
        rw [hr] at hagrees
        rw [show m.processExportNode _ fuel m.trieStart 0 _ = none from hagrees] at hrun
        cases hrun
      | some r =>
        refine ⟨fuel, r, hr, ?_⟩
        rintro rfl
        rw [hr] at hagrees
        rw [show m.processExportNode _ fuel m.trieStart 0 _ = some .overflow from hagrees] at hrun
        cases hrun
  · rintro ⟨fuel, r, hr, hne⟩ V loadData cummulativeString hlength
    by_cases hempty : m.trieStart = m.trieEnd
    · exact ⟨0, none, if_pos hempty, fun _ => rfl⟩
    · have hagrees := processExportNode_agrees m loadData fuel m.trieStart 0 ⟨cummulativeString, []⟩
        (Nat.zero_le _) hlength
      rw [hr] at hagrees
      have hrun : m.parseTrie loadData fuel cummulativeString = _ := if_neg hempty
      cases r with
      | none =>
        obtain ⟨e, he, -⟩ := hagrees
        rw [he] at hrun
        exact ⟨fuel, _, hrun, fun hcyclic => absurd hcyclic (not_cyclic_of_processSearch hr)⟩
      | some failure =>
        cases failure with
        | overflow => exact absurd rfl hne
        | error error =>
          obtain ⟨e, he⟩ := hagrees
          rw [he] at hrun
          exact ⟨fuel, none, hrun, fun _ => rfl⟩

end Parse

/-- The enumerations end within their name buffers exactly if, wherever child offsets come back to a node
with a name of the same length, and wherever a name is too long, they fail before. -/
theorem enumerations_end_iff (m : TrieMemory) :
    (m.RecursesSafely ↔ m.recurseGraph.Fits TrieMemory.intCapacity (m.trieStart, none)) ∧
      (m.ParsesSafely ↔ m.processGraph.Fits nameBufferLength m.trieStart) :=
  ⟨recursesSafely_iff m, parsesSafely_iff m⟩

/-! ### A node that is its own child -/

def ownChild : TrieMemory where
  byte p := ([0, 1, 0, 4, 0, 1, 0, 4] : List UInt8).getD (p - 4096).toNat 0
  trieStart := 4096
  trieEnd := 4104
  inMemory := by decide

lemma recurseSearch_ownChild (fuel : Nat) (p : UInt64) (hp : p = 4096 ∨ p = 4100) :
    ownChild.recurseGraph.search TrieMemory.intCapacity fuel (p, none) 0 = none := by
  induction fuel generalizing p with
  | zero => rfl
  | succ fuel ih =>
    have hnode : ownChild.recurseGraph.malformed (p, none) = none ∧
        ownChild.recurseGraph.edges (p, none) = [.edge 0 (4100, none)] := by
      obtain rfl | rfl := hp
      · constructor <;> rfl
      · constructor <;> rfl
    rw [NamedGraph.search_of_not_malformed hnode.1, hnode.2, NamedGraph.searchEdges,
      if_pos (by decide), ih 4100 (Or.inr rfl)]
    rfl

lemma labelOf_nameChars {m : TrieMemory} {s : UInt64} (h : m.byte s = 0) : labelOf (m.nameChars s) = [] := by
  rw [TrieMemory.nameChars, List.range_succ_eq_map, List.map_cons]
  simp [labelOf, h]

lemma processSearch_ownChild (fuel : Nat) (p : UInt64) (hp : p = 4096 ∨ p = 4100) :
    ownChild.processGraph.search nameBufferLength fuel p 0 = none := by
  induction fuel generalizing p with
  | zero => rfl
  | succ fuel ih =>
    have hread : ownChild.parseUleb128At p = some (0, p + 1) ∧ ¬ownChild.trieEnd ≤ p ∧
        ¬ownChild.trieEnd ≤ p + 1 + 0 ∧ (ownChild.byte (p + 1 + 0)).toNat = 1 ∧ p + 1 + 0 + 1 = p + 2 := by
      obtain rfl | rfl := hp
      · exact ⟨rfl, by decide, by decide, rfl, rfl⟩
      · exact ⟨rfl, by decide, by decide, rfl, rfl⟩
    obtain ⟨hnumber, hpast, hbeyond, hcount, hchildren⟩ := hread
    have hmalformed : ownChild.processGraph.malformed p = none := by
      rw [TrieMemory.processGraph]
      dsimp only
      rw [if_neg hpast, hnumber]
      exact if_neg hbeyond
    have hedges : ownChild.processGraph.edges p = ownChild.processEdges 1 (p + 2) := by
      rw [TrieMemory.processGraph]
      dsimp only
      rw [hnumber]
      dsimp only
      rw [hcount, hchildren]
    have hlabel : labelOf (ownChild.nameChars (p + 2)) = [] := by
      apply labelOf_nameChars
      obtain rfl | rfl := hp
      · rfl
      · rfl
    have hoffset : ∃ s, ownChild.parseUleb128At (p + 2 + UInt64.ofNat 0 + 1) = some (4, s) := by
      obtain rfl | rfl := hp
      · exact ⟨_, rfl⟩
      · exact ⟨_, rfl⟩
    obtain ⟨s, hoffset⟩ := hoffset
    have hedge : ownChild.processEdges 1 (p + 2) = [.edge 0 4100] := by
      rw [TrieMemory.processEdges, hlabel, length_nameChars, List.length_nil, if_pos (Nat.succ_pos _),
        hoffset]
      rfl
    have hpos : 0 + 0 < nameBufferLength := by
      unfold nameBufferLength
      decide
    rw [NamedGraph.search_of_not_malformed hmalformed, hedges, hedge, NamedGraph.searchEdges,
      if_pos hpos, ih 4100 (Or.inr rfl)]
    rfl

/-- Neither enumeration ends. -/
theorem ownChild_not_safe : ¬ownChild.RecursesSafely ∧ ¬ownChild.ParsesSafely := by
  have hstart : ownChild.trieStart = 4096 := rfl
  constructor
  · intro h
    obtain ⟨fuel, r, hr, -⟩ := NamedGraph.fits_iff.mp ((recursesSafely_iff ownChild).mp h)
    rw [hstart, recurseSearch_ownChild fuel 4096 (Or.inl rfl)] at hr
    cases hr
  · intro h
    obtain ⟨fuel, r, hr, -⟩ := NamedGraph.fits_iff.mp ((parsesSafely_iff ownChild).mp h)
    rw [hstart, processSearch_ownChild fuel 4096 (Or.inl rfl)] at hr
    cases hr

end Dyld.MachO.TrieRecursion
