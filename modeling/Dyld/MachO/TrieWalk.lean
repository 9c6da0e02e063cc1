import Dyld.Cache.Tries
import Dyld.MachO.Leb128

/-!
# Walking tries

`MachOLoaded::trieWalk` follows the edges of a trie that spell a symbol and returns where the info of the
symbol is in the stream. The cache builder writes the size of an info as one byte, which is no number of
variable length from 128 on.
-/

namespace Dyld.MachO

open Dyld.Lib Dyld.Cache.Tries

/-! ### The walk -/

inductive TrieWalkError
  | leb (e : LebError)
  | nodeOffsetOutOfRange (nodeOffset : Nat)
  | cycle (nodeOffset : Nat)
  deriving DecidableEq, Repr

/-- How a walk ends: with a pointer, given as the bytes from there on; with a null pointer and maybe an
error; or with a read behind the end of the trie. -/
inductive TrieWalk
  | found (p : List UInt8)
  | null (error : Option TrieWalkError)
  | outside
  deriving DecidableEq, Repr

/-- The bytes behind the next `NUL`. -/
def skipString : List UInt8 → Option (List UInt8)
  | [] => none
  | c :: p => if c = 0 then some p else skipString p

/-- The scan of an edge: what is left of the symbol, unless it is the wrong edge, and the bytes
behind. -/
def scanEdge : List UInt8 → List UInt8 → Option (Option (List UInt8) × List UInt8)
  | [], _ => none
  | c :: p, ss =>
    if c = 0 then some (some ss, p)
    else
      match ss with
      | [] => (skipString p).map (fun p => (none, p))
      | d :: ss => if c = d then scanEdge p ss else (skipString p).map (fun p => (none, p))

/-- The loop that skips the offset of a wrong edge. -/
def skipUleb : List UInt8 → Option (List UInt8)
  | [] => none
  | b :: p => if 128 ≤ b.toNat then skipUleb p else some p

/-- How the loop over the children ends. -/
inductive FindChild
  | noChild
  | child (nodeOffset : Nat) (symbol : List UInt8)
  | error (e : TrieWalkError)
  | outside

/-- The loop over the children of a node, of which `childrenRemaining` are left. -/
def findChild (trieSize : Nat) : Nat → List UInt8 → List UInt8 → FindChild
  | 0, _, _ => .noChild
  | childrenRemaining + 1, p, symbol =>
    match scanEdge p symbol with
    | none => .outside
    | some (none, p) =>
      match skipUleb p with
      | none => .outside
      | some p => findChild trieSize childrenRemaining p symbol
    | some (some ss, p) =>
      let r := readUleb128 p
      match r.error with
      | some e => .error (.leb e)
      | none =>
        if r.value = 0 ∨ trieSize < r.value then .error (.nodeOffsetOutOfRange r.value)
        else .child r.value ss

/-- The loop of `trieWalk`, for at most `fuel` nodes. -/
def trieWalkFrom (start : List UInt8) :
    Nat → List Nat → List UInt8 → List UInt8 → Option TrieWalk
  | 0, _, _, _ => none
  | _ + 1, _, [], _ => some (.null none)
  | fuel + 1, visitedNodeOffsets, b :: p, symbol =>
    let r : LebRead := if 127 < b.toNat then readUleb128 (b :: p) else ⟨b.toNat, p, none⟩
    match r.error with
    | some e => some (.null (some (.leb e)))
    | none =>
      if symbol = [] ∧ r.value ≠ 0 then some (.found r.rest)
      else if r.rest.length < r.value then some (.null none)
      else
        match r.rest.drop r.value with
        | [] => some .outside
        | childrenRemaining :: children =>
          match findChild start.length childrenRemaining.toNat children symbol with
          | .noChild => some (.null none)
          | .error e => some (.null (some e))
          | .outside => some .outside
          | .child nodeOffset symbol =>
            if nodeOffset ∈ visitedNodeOffsets then some (.null (some (.cycle nodeOffset)))
            else
              trieWalkFrom start fuel (visitedNodeOffsets ++ [nodeOffset % 2 ^ 32])
                (start.drop nodeOffset) symbol

def trieWalk (fuel : Nat) (start symbol : List UInt8) : Option TrieWalk :=
  trieWalkFrom start fuel [0] start symbol

/-! ### Numbers that the builder has written -/

lemma or_shiftLeft_split (result v bit : Nat) :
    result ||| (v % 128) <<< bit ||| (v / 128) <<< (bit + 7) = result ||| v <<< bit := by
  apply Nat.eq_of_testBit_eq
  intro i
  simp only [Nat.testBit_or, Nat.testBit_shiftLeft]
  have h128 : (128 : Nat) = 2 ^ 7 := rfl
  rw [h128, Nat.testBit_mod_two_pow, Nat.testBit_div_two_pow]
  by_cases hbit : bit ≤ i
  · by_cases hseven : bit + 7 ≤ i
    · have hsum : i - (bit + 7) + 7 = i - bit := by omega
      simp [hbit, hseven, hsum, show ¬i - bit < 7 by omega]
    · simp [hbit, hseven, show i - bit < 7 by omega]
  · simp [hbit, show ¬bit + 7 ≤ i by omega]

def AcceptsFitting (tooBig : Nat → Nat → Bool) : Prop :=
  ∀ bit slice, bit < 64 → slice < 128 → slice * 2 ^ bit < 2 ^ 64 → tooBig bit slice = false

lemma acceptsFitting_beyond64 : AcceptsFitting beyond64 := by
  intro bit slice hbit _ _
  rw [beyond64, decide_eq_false_iff_not]
  omega

lemma acceptsFitting_losesBits : AcceptsFitting losesBits := by
  intro bit slice hbit _ hfits
  have hback : ((slice <<< bit) % 2 ^ 64) >>> bit = slice := by
    rw [Nat.shiftLeft_eq, Nat.mod_eq_of_lt hfits, Nat.shiftRight_eq_div_pow]
    exact Nat.mul_div_cancel _ (Nat.two_pow_pos bit)
  rw [losesBits, hback]
  simp [hbit]

lemma readUlebFrom_appendUlebFrom {tooBig : Nat → Nat → Bool} (h : AcceptsFitting tooBig)
    (rest : List UInt8) {n bit v : Nat} (result : Nat) (hn : v < 128 ^ n) (hpos : 0 < n)
    (hbit : bit < 64) (hv : v * 2 ^ bit < 2 ^ 64) :
    readUlebFrom tooBig bit result (appendUlebFrom n v ++ rest) = ⟨result ||| v <<< bit, rest, none⟩ := by
  induction n generalizing bit v result with
  | zero => omega
  | succ n ih =>
    have hle : v % 128 * 2 ^ bit < 2 ^ 64 :=
      (Nat.mul_le_mul_right _ (Nat.mod_le v 128)).trans_lt hv
    have hfits : tooBig bit (v % 128) = false := h bit _ hbit (Nat.mod_lt _ (by norm_num)) hle
    have hslice : ((v % 128) <<< bit) % 2 ^ 64 = (v % 128) <<< bit := by
      rw [Nat.shiftLeft_eq]
      exact Nat.mod_eq_of_lt hle
    rw [appendUlebFrom]
    split
    · rename_i hlast
      have hsmall : v % 128 = v := Nat.mod_eq_of_lt (by omega)
      have hbyte : (UInt8.ofNat (v % 128)).toNat = v % 128 :=
        UInt8.toNat_ofNat_of_lt' (by rw [UInt8.size]; omega)
      rw [List.singleton_append, readUlebFrom]
      simp only [hbyte, Nat.mod_mod, hfits, hslice, Bool.false_eq_true, if_false]
      rw [if_neg (by omega), hsmall]
    · rename_i hmore
      have hbyte : (UInt8.ofNat (v % 128 + 128)).toNat = v % 128 + 128 :=
        UInt8.toNat_ofNat_of_lt' (by rw [UInt8.size]; omega)
      have hmod : (v % 128 + 128) % 128 = v % 128 := by omega
      have hdiv : v / 128 * 2 ^ (bit + 7) < 2 ^ 64 := by
        refine lt_of_le_of_lt ?_ hv
        rw [Nat.pow_add, ← Nat.mul_assoc, Nat.mul_right_comm]
        exact Nat.mul_le_mul_right _ (Nat.div_mul_le_self v 128)
      have hbit' : bit + 7 < 64 := by
        by_contra hlarge
        have hpow : 2 ^ 64 ≤ 2 ^ (bit + 7) := Nat.pow_le_pow_right (by norm_num) (by omega)
        have hone : 1 * 2 ^ (bit + 7) ≤ v / 128 * 2 ^ (bit + 7) := Nat.mul_le_mul_right _ (by omega)
        omega
      have hn' : v / 128 < 128 ^ n := by
        rw [Nat.div_lt_iff_lt_mul (by norm_num), ← Nat.pow_succ]
        exact hn
      have hpos' : 0 < n := by
        cases n with
        | zero => simp at hn'; omega
        | succ n => omega
      rw [List.cons_append, readUlebFrom]
      simp only [hbyte, hmod, hfits, hslice, Bool.false_eq_true, if_false]
      rw [if_pos (by omega), ih _ hn' hpos' hbit' hdiv, or_shiftLeft_split]

lemma readUlebFrom_appendUleb128 {tooBig : Nat → Nat → Bool} (h : AcceptsFitting tooBig) {v : Nat}
    (hv : v < 2 ^ 64) (rest : List UInt8) :
    readUlebFrom tooBig 0 0 (appendUleb128 v ++ rest) = ⟨v, rest, none⟩ := by
  have hread := readUlebFrom_appendUlebFrom h rest 0 (n := 10) (hv.trans (by norm_num)) (by norm_num)
    (by norm_num : 0 < 64) (by rwa [Nat.pow_zero, Nat.mul_one])
  rw [appendUleb128, hread]
  simp

/-- The builder reads back what it writes. -/
theorem readUleb128Checked_appendUleb128 {v : Nat} (hv : v < 2 ^ 64) (rest : List UInt8) :
    readUleb128Checked (appendUleb128 v ++ rest) = .ok (v, rest) := by
  rw [readUleb128Checked, readUlebFrom_appendUleb128 acceptsFitting_losesBits hv]
  rfl

lemma skipUleb_appendUlebFrom (rest : List UInt8) {n v : Nat} (hn : v < 128 ^ n) (hpos : 0 < n) :
    skipUleb (appendUlebFrom n v ++ rest) = some rest := by
  induction n generalizing v with
  | zero => omega
  | succ n ih =>
    rw [appendUlebFrom]
    split
    · have hbyte : (UInt8.ofNat (v % 128)).toNat = v % 128 :=
        UInt8.toNat_ofNat_of_lt' (by rw [UInt8.size]; omega)
      rw [List.singleton_append, skipUleb, if_neg (by omega)]
    · rename_i hmore
      have hbyte : (UInt8.ofNat (v % 128 + 128)).toNat = v % 128 + 128 :=
        UInt8.toNat_ofNat_of_lt' (by rw [UInt8.size]; omega)
      have hn' : v / 128 < 128 ^ n := by
        rw [Nat.div_lt_iff_lt_mul (by norm_num), ← Nat.pow_succ]
        exact hn
      have hpos' : 0 < n := by
        cases n with
        | zero => simp at hn'; omega
        | succ n => omega
      rw [List.cons_append, skipUleb, if_pos (by omega), ih hn' hpos']

lemma skipUleb_appendUleb128 {v : Nat} (hv : v < 2 ^ 64) (rest : List UInt8) :
    skipUleb (appendUleb128 v ++ rest) = some rest :=
  skipUleb_appendUlebFrom rest (hv.trans (by norm_num)) (by norm_num)

/-! ### Edges that the builder has written -/

lemma skipString_append {label : List UInt8} (h : ∀ c ∈ label, c ≠ 0) (p : List UInt8) :
    skipString (label ++ 0 :: p) = some p := by
  induction label with
  | nil => rfl
  | cons c label ih =>
    obtain ⟨hc, hlabel⟩ := List.forall_mem_cons.mp h
    rw [List.cons_append, skipString, if_neg hc, ih hlabel]

lemma scanEdge_append {label : List UInt8} (h : ∀ c ∈ label, c ≠ 0) (p symbol : List UInt8) :
    scanEdge (label ++ 0 :: p) symbol =
      some (if label <+: symbol then some (symbol.drop label.length) else none, p) := by
  induction label generalizing symbol with
  | nil => simp [scanEdge]
  | cons c label ih =>
    obtain ⟨hc, hlabel⟩ := List.forall_mem_cons.mp h
    cases symbol with
    | nil => simp [scanEdge, hc, skipString_append hlabel]
    | cons d symbol =>
      by_cases hsame : c = d
      · subst hsame
        simp [scanEdge, hc, ih hlabel, List.cons_prefix_cons]
      · simp [scanEdge, hc, hsame, skipString_append hlabel, List.cons_prefix_cons]

section Walk

variable {V : Type} [TrieInfo V]

def edgeBytes (o : Nat → Nat) (k : Nat) (f : Edges UInt8 V) : List UInt8 :=
  (childPlaces k f).flatMap (fun edge => edge.1 ++ 0 :: appendUleb128 (o edge.2))

structure Stream (nodes : List (OrderedNode V)) (o : Nat → Nat) (start : List UInt8) : Prop where
  node : ∀ i node, nodes[i]? = some node → ∃ more, start.drop (o i) = node.appendToStream o ++ more
  short : ShortInfos nodes
  small : start.length < 2 ^ 32
  rises : ∀ i j, i < j → j < nodes.length → o i < o j

def At (nodes : List (OrderedNode V)) (k : Nat) (f : Edges UInt8 V) : Prop :=
  ∀ i node, (orderEdges k f)[i]? = some node → nodes[k + i]? = some node

section At

variable {nodes : List (OrderedNode V)} {k : Nat} {label : List UInt8} {info : Option V}
  {below rest : Edges UInt8 V}

omit [TrieInfo V]

lemma At.head (h : At nodes k (.cons label info below rest)) :
    nodes[k]? = some ⟨info, childPlaces (k + 1) below⟩ := h 0 _ rfl

lemma At.inner (h : At nodes k (.cons label info below rest)) : At nodes (k + 1) below := by
  intro i node hnode
  have hlt : i < (orderEdges (k + 1) below).length := (List.getElem?_eq_some_iff.mp hnode).1
  have hget := h (i + 1) node (by
    rw [orderEdges, List.getElem?_cons_succ, List.getElem?_append_left hlt, hnode])
  rwa [← Nat.add_assoc, Nat.add_right_comm] at hget

lemma At.next (h : At nodes k (.cons label info below rest)) :
    At nodes (k + 1 + below.count) rest := by
  intro i node hnode
  have hget := h (below.count + i + 1) node (by
    rw [orderEdges, List.getElem?_cons_succ, List.getElem?_append_right (by rw [length_orderEdges]; omega),
      length_orderEdges, Nat.add_sub_cancel_left, hnode])
  rw [← hget]
  congr 1
  omega

end At

/-- The result that a lookup with this answer should have. -/
def Answers (answer : Option V) (walk : Option TrieWalk) : Prop :=
  match answer with
  | none => walk = some (.null none)
  | some v => ∃ more, walk = some (.found (TrieInfo.payload v ++ more))

def follow (start : List UInt8) (fuel : Nat) (visitedNodeOffsets : List Nat) :
    FindChild → Option TrieWalk
  | .noChild => some (.null none)
  | .error e => some (.null (some e))
  | .outside => some .outside
  | .child nodeOffset symbol =>
    if nodeOffset ∈ visitedNodeOffsets then some (.null (some (.cycle nodeOffset)))
    else
      trieWalkFrom start fuel (visitedNodeOffsets ++ [nodeOffset % 2 ^ 32]) (start.drop nodeOffset) symbol

variable {nodes : List (OrderedNode V)} {o : Nat → Nat} {start : List UInt8}

omit [TrieInfo V] in
lemma length_childPlaces (k : Nat) (f : Edges UInt8 V) (h : f.Good (· ≠ 0)) :
    (childPlaces k f).length = f.heads.length := by
  induction f generalizing k with
  | nil => rfl
  | cons label info below rest _ ih =>
    obtain ⟨hne, -, -, -, hrest⟩ := h
    obtain ⟨c, label, rfl⟩ := List.exists_cons_of_ne_nil hne
    rw [childPlaces, List.length_cons, ih _ hrest]
    simp [Edges.heads, Nat.add_comm]

omit [TrieInfo V] in
lemma heads_nodup (f : Edges UInt8 V) (h : f.Good (· ≠ 0)) : (0 :: f.heads).Nodup := by
  induction f with
  | nil => simp [Edges.heads]
  | cons label info below rest _ ih =>
    obtain ⟨hne, hlabel, hhead, -, hrest⟩ := h
    obtain ⟨c, label, rfl⟩ := List.exists_cons_of_ne_nil hne
    have hnodup := List.nodup_cons.mp (ih hrest)
    have hc : c ≠ 0 := hlabel c List.mem_cons_self
    rw [Edges.heads, List.head?_cons, Option.toList_some, List.singleton_append]
    refine List.nodup_cons.mpr ⟨?_, List.nodup_cons.mpr ⟨hhead c rfl, hnodup.2⟩⟩
    rw [List.mem_cons, not_or]
    exact ⟨hc.symm, hnodup.1⟩

omit [TrieInfo V] in
/-- A byte is enough for the number of children. -/
lemma length_childPlaces_lt (k : Nat) (f : Edges UInt8 V) (h : f.Good (· ≠ 0)) :
    (childPlaces k f).length < 256 := by
  have hnodup : ((0 :: f.heads).map UInt8.toNat).Nodup :=
    (heads_nodup f h).map (fun a b hab => UInt8.toNat_inj.mp hab)
  have hsub : (0 :: f.heads).map UInt8.toNat ⊆ List.range 256 := by
    intro x hx
    obtain ⟨c, -, rfl⟩ := List.mem_map.mp hx
    exact List.mem_range.mpr c.toNat_lt
  have hle := (hnodup.subperm hsub).length_le
  rw [List.length_map, List.length_cons, List.length_range] at hle
  rw [length_childPlaces k f h]
  omega

lemma answers_node {info : Option V} {k : Nat} {below : Edges UInt8 V} (hgood : below.Good (· ≠ 0))
    (hshort : ∀ v, info = some v → (TrieInfo.payload v).length < 128) {fuel : Nat} {visited : List Nat}
    {more symbol : List UInt8}
    (hbelow : ∀ more, Answers (below.find symbol) (follow start fuel visited
      (findChild start.length (childPlaces k below).length (edgeBytes o k below ++ more) symbol))) :
    Answers (if symbol = [] then info else below.find symbol)
      (trieWalkFrom start (fuel + 1) visited
        ((⟨info, childPlaces k below⟩ : OrderedNode V).appendToStream o ++ more) symbol) := by
  have hcount : (UInt8.ofNat (childPlaces k below).length).toNat = (childPlaces k below).length :=
    UInt8.toNat_ofNat_of_lt' (length_childPlaces_lt k below hgood)
  have hedges := hbelow more
  rw [← hcount] at hedges
  rw [OrderedNode.appendToStream]
  cases info with
  | none =>
    have hsame : (if symbol = [] then none else below.find symbol) = below.find symbol := by
      split
      · rename_i hnil
        rw [hnil, Edges.find_nil hgood]
      · rfl
    rw [hsame]
    simp only [List.cons_append, List.nil_append, trieWalkFrom]
    simpa [follow, edgeBytes] using hedges
  | some v =>
    have hlt := hshort v rfl
    have hpos : (TrieInfo.payload v).length ≠ 0 := by
      rw [Ne, List.length_eq_zero_iff]
      exact TrieInfo.payload_ne_nil v
    have hsize : (UInt8.ofNat (TrieInfo.payload v).length).toNat = (TrieInfo.payload v).length :=
      UInt8.toNat_ofNat_of_lt' (by rw [UInt8.size]; omega)
    dsimp only
    rw [TrieInfo.appendToStream_eq]
    simp only [List.cons_append, List.append_assoc, trieWalkFrom, hsize]
    by_cases hnil : symbol = []
    · rw [if_pos hnil, if_neg (by omega)]
      simp [hnil, hpos, Answers]
    · rw [if_neg hnil, if_neg (by omega)]
      simpa [hnil, follow, edgeBytes] using hedges

lemma Stream.offset_bounds (h : Stream nodes o start) {i : Nat} (hpos : 0 < i)
    (hi : i < nodes.length) : 0 < o i ∧ o i < start.length := by
  obtain ⟨more, hmore⟩ := h.node i nodes[i] (List.getElem?_eq_getElem hi)
  constructor
  · exact (Nat.zero_le _).trans_lt (h.rises 0 i hpos hi)
  · by_contra hge
    rw [List.drop_eq_nil_of_le (by omega), OrderedNode.appendToStream] at hmore
    simp at hmore

lemma answers_edges (h : Stream nodes o start) {f : Edges UInt8 V} (hgood : f.Good (· ≠ 0)) {k : Nat}
    (hpos : 0 < k) (hat : At nodes k f) {fuel : Nat} {visited : List Nat} {symbol : List UInt8}
    (hfuel : symbol.length < fuel)
    (hvisited : ∀ x ∈ visited, ∀ j, k ≤ j → j < nodes.length → x < o j) (more : List UInt8) :
    Answers (f.find symbol) (follow start fuel visited
      (findChild start.length (childPlaces k f).length (edgeBytes o k f ++ more) symbol)) := by
  induction f generalizing k fuel visited symbol more with
  | nil => rfl
  | cons label info below rest ihbelow ihrest =>
    obtain ⟨hne, hlabel, -, hbelow, hrest⟩ := hgood
    have hnode := hat.head
    have hk : k < nodes.length := (List.getElem?_eq_some_iff.mp hnode).1
    obtain ⟨hzero, hlt⟩ := h.offset_bounds hpos hk
    have hsmall := h.small
    have hbytes : edgeBytes o k (.cons label info below rest) ++ more =
        label ++ 0 :: (appendUleb128 (o k) ++ (edgeBytes o (k + 1 + below.count) rest ++ more)) := by
      simp [edgeBytes, childPlaces]
    rw [hbytes, childPlaces, List.length_cons, findChild, scanEdge_append hlabel, Edges.find]
    by_cases hpre : label <+: symbol
    · obtain ⟨tail, rfl⟩ := hpre
      obtain ⟨behind, hbehind⟩ := h.node k _ hnode
      have hread : readUleb128 (appendUleb128 (o k) ++ (edgeBytes o (k + 1 + below.count) rest ++ more)) =
          ⟨o k, edgeBytes o (k + 1 + below.count) rest ++ more, none⟩ :=
        readUlebFrom_appendUleb128 acceptsFitting_beyond64 (by omega) _
      have hnew : o k ∉ visited := fun hmem => lt_irrefl _ (hvisited _ hmem k le_rfl hk)
      have hlen : tail.length + 1 < fuel := by
        have hlabel_pos := List.length_pos_iff.mpr hne
        rw [List.length_append] at hfuel
        omega
      obtain ⟨fuel, rfl⟩ : ∃ n, fuel = n + 1 := ⟨fuel - 1, by omega⟩
      have hvisited' : ∀ x ∈ visited ++ [o k % 2 ^ 32], ∀ j, k + 1 ≤ j → j < nodes.length → x < o j := by
        intro x hx j hj hjn
        cases List.mem_append.mp hx with
        | inl hx => exact hvisited x hx j (by omega) hjn
        | inr hx =>
          rw [List.mem_singleton.mp hx]
          exact (Nat.mod_le _ _).trans_lt (h.rises k j hj hjn)
      have hin : ¬(o k = 0 ∨ start.length < o k) := by omega
      simp only [List.prefix_append, if_true, List.drop_left, hread, if_neg hin, follow, if_neg hnew, hbehind]
      exact answers_node hbelow (fun v hv => h.short _ (List.mem_of_getElem? hnode) v hv)
        (fun more' => ihbelow hbelow (Nat.succ_pos k) hat.inner (by omega) hvisited' more')
    · simp only [if_neg hpre]
      rw [skipUleb_appendUleb128 (by omega)]
      exact ihrest hrest (by omega) hat.next hfuel
        (fun x hx j hj hjn => hvisited x hx j (by omega) hjn) more

variable {entries : List (List UInt8 × V)}

lemma exists_stream (h : ValidNames entries)
    (hshort : ∀ e ∈ stored entries, (TrieInfo.payload e.2).length < 128) (hfits : (build entries).Fits) :
    ∃ o start, Stream (orderTrie (build entries)) o start ∧ o 0 = 0 ∧
      ∃ fuel, emit fuel (build entries) = some start := by
  have hinfos := shortInfos_build h hshort
  obtain ⟨o, start, ho, hstart, hsmall, k, hk⟩ := exists_emit hfits hinfos
  refine ⟨o, start, ⟨fun i node hnode => ?_, hinfos, hsmall, fun i j hij hj => ?_⟩, ?_, k, hk k le_rfl⟩
  · rw [hstart]
    exact drop_offset hinfos ho hnode
  · exact ho.lt (fun i hi => sizeAt_pos hi o) hij hj
  · exact ho 0 (by simp [orderTrie])

def RoundTrips (entries : List (List UInt8 × V)) : Prop :=
  ∃ builderFuel start, emit builderFuel (build entries) = some start ∧
    ∀ symbol : List UInt8, (∀ c ∈ symbol, c ≠ 0) → ∀ fuel, symbol.length + 1 < fuel →
      (∀ v, (symbol, v) ∈ stored entries →
        ∃ more, trieWalk fuel start symbol = some (.found (TrieInfo.payload v ++ more))) ∧
      (symbol ∉ entries.map Prod.fst → trieWalk fuel start symbol = some (.null none))

theorem roundTrips_of_short (h : ValidNames entries)
    (hshort : ∀ e ∈ stored entries, (TrieInfo.payload e.2).length < 128) (hfits : (build entries).Fits) :
    RoundTrips entries := by
  obtain ⟨o, start, hstream, hroot, builderFuel, hemit⟩ := exists_stream h hshort hfits
  obtain ⟨hgood, hperm⟩ := build_spec h
  refine ⟨builderFuel, start, hemit, fun symbol _ fuel hfuel => ?_⟩
  obtain ⟨fuel, rfl⟩ : ∃ n, fuel = n + 1 := ⟨fuel - 1, by omega⟩
  have hfirst : (orderTrie (build entries))[0]? = some ⟨none, childPlaces 1 (build entries).fChildren⟩ := by
    rw [orderTrie, List.getElem?_cons_zero, hgood.root]
  have hat : At (orderTrie (build entries)) 1 (build entries).fChildren := by
    intro i node hnode
    rw [orderTrie, Nat.add_comm, List.getElem?_cons_succ, hnode]
  have hvisited : ∀ x ∈ [0], ∀ j, 1 ≤ j → j < (orderTrie (build entries)).length → x < o j := by
    intro x hx j hj hjn
    rw [List.mem_singleton.mp hx]
    exact (hstream.offset_bounds hj hjn).1
  obtain ⟨more, hmore⟩ := hstream.node 0 _ hfirst
  rw [hroot, List.drop_zero] at hmore
  have hanswers : Answers (if symbol = [] then none else (build entries).fChildren.find symbol)
      (trieWalkFrom start (fuel + 1) [0] ((⟨none, childPlaces 1 (build entries).fChildren⟩ :
        OrderedNode V).appendToStream o ++ more) symbol) :=
    answers_node hgood.edges (fun v hv => absurd hv.symm (Option.some_ne_none v))
      (answers_edges hstream hgood.edges one_pos hat (by omega) hvisited)
  rw [← hmore, ← trieWalk] at hanswers
  have hfind : ∀ v, (if symbol = [] then none else (build entries).fChildren.find symbol) = some v ↔
      (symbol, v) ∈ stored entries := by
    intro v
    rw [← hperm.mem_iff, ← Edges.find_eq_some_iff hgood.edges]
    split
    · rename_i hnil
      rw [hnil, Edges.find_nil hgood.edges]
    · exact Iff.rfl
  constructor
  · intro v hv
    rwa [(hfind v).mpr hv] at hanswers
  · intro hnone
    have hmiss : (if symbol = [] then none else (build entries).fChildren.find symbol) = none := by
      rw [Option.eq_none_iff_forall_ne_some]
      intro v hv
      apply hnone
      obtain ⟨e, he, hsame⟩ := List.mem_map.mp ((hfind v).mp hv)
      exact List.mem_map.mpr ⟨e, he, (Prod.mk.inj hsame).1⟩
    rwa [hmiss] at hanswers

end Walk

/-- Two names with a common prefix. -/
def sharedPrefix : List (List UInt8 × ExportInfo) :=
  [([97, 98], ⟨0x1000, 0, 0, []⟩), ([97, 99], ⟨0, 8, 1, [97, 99]⟩)]

theorem roundTrips_sharedPrefix : RoundTrips sharedPrefix :=
  roundTrips_of_short ⟨by simp [sharedPrefix], by simp [sharedPrefix], by simp [sharedPrefix]⟩ (by decide +kernel)
    ⟨fun i => [0, 5, 13, 18].getD i 0, by unfold Layout.Consistent; decide +kernel, by decide +kernel⟩

/-- A re-export whose info takes 129 bytes. -/
def longImport : List (List UInt8 × ExportInfo) := [([97], ⟨0, 8, 1, List.replicate 126 98⟩)]

/-- The size of a long info is read as two bytes, and the pointer is one byte too far. -/
theorem roundTrips_fails : ValidNames longImport ∧ ¬RoundTrips longImport := by
  refine ⟨⟨by decide +kernel, by decide +kernel, by decide +kernel⟩, ?_⟩
  rintro ⟨builderFuel, start, hemit, hwalk⟩
  have hstart : emit 4 (build longImport) =
      some ([0, 1, 97, 0, 5, 129, 8, 1] ++ List.replicate 126 98 ++ [0, 0]) := by decide +kernel
  have hsame : emit (max builderFuel 4) (build longImport) = some start :=
    emit_of_le (le_max_left _ _) hemit
  rw [emit_of_le (le_max_right _ _) hstart, Option.some.injEq] at hsame
  obtain ⟨more, hfound⟩ := (hwalk [97] (by simp) 3 (by simp)).1
    ⟨0, 8, 1, List.replicate 126 98⟩ (by decide +kernel)
  have hbehind : trieWalk 3 ([0, 1, 97, 0, 5, 129, 8, 1] ++ List.replicate 126 98 ++ [0, 0]) [97] =
      some (.found (1 :: (List.replicate 126 98 ++ [0, 0]))) := by decide +kernel
  have hpayload : TrieInfo.payload (⟨0, 8, 1, List.replicate 126 98⟩ : ExportInfo) =
      8 :: 1 :: (List.replicate 126 98 ++ [0]) := by decide +kernel
  rw [← hsame, hbehind, hpayload, Option.some.injEq, TrieWalk.found.injEq, List.cons_append,
    List.cons.injEq] at hfound
  exact absurd hfound.1 (by decide)

end Dyld.MachO
