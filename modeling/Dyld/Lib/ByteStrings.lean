import Dyld.Lib.CString

/-!
# Byte strings in memory

Byte strings are written to memory and read back as a whole. Blobs that are laid one behind the other
share no byte, and what is copied piece by piece can be read where the pieces in front of it end.
-/

namespace Dyld.Lib

def readBytes (m : Mem) (a n : Nat) : List UInt8 := (List.range n).map (fun i => m (a + i))

/-- Memory after a byte string is written at `a`. -/
def writeBytes (m : Mem) (a : Nat) (bs : List UInt8) : Mem :=
  fun x => if a ≤ x ∧ x < a + bs.length then bs.getD (x - a) 0 else m x

/-- The `n` little-endian bytes of a number. -/
def numBytes (n v : Nat) : List UInt8 := wordBytes n (BitVec.ofNat (8 * n) v)

section Bytes

variable {m m' : Mem} {a b n k v : Nat} {bs : List UInt8}

@[simp] lemma length_readBytes : (readBytes m a n).length = n := by simp [readBytes]

@[simp] lemma length_numBytes : (numBytes n v).length = n := length_wordBytes n _

lemma readBytes_congr (h : ∀ x, a ≤ x → x < a + n → m x = m' x) :
    readBytes m a n = readBytes m' a n := by
  apply List.map_congr_left
  intro i hi
  rw [List.mem_range] at hi
  exact h (a + i) (by omega) (by omega)

lemma readBytes_shift (h : ∀ i, i < n → m (a + i) = m' (b + i)) :
    readBytes m a n = readBytes m' b n :=
  List.map_congr_left (fun i hi => h i (List.mem_range.mp hi))

lemma writeBytes_outside (h : b < a ∨ a + bs.length ≤ b) : writeBytes m a bs b = m b :=
  if_neg (by omega)

lemma writeBytes_inside {i : Nat} (hi : i < bs.length) : writeBytes m a bs (a + i) = bs.getD i 0 := by
  have hin : a ≤ a + i ∧ a + i < a + bs.length := by omega
  rw [writeBytes, if_pos hin, Nat.add_sub_cancel_left]

@[simp] lemma readBytes_writeBytes_same :
    readBytes (writeBytes m a bs) a bs.length = bs := by
  apply List.ext_getElem
  · simp
  · intro i hi _
    have hlen : i < bs.length := by simpa using hi
    simp only [readBytes, List.getElem_map, List.getElem_range]
    rw [writeBytes_inside hlen, List.getD_eq_getElem _ _ hlen]

lemma readBytes_writeBytes_of_length (h : bs.length = n) : readBytes (writeBytes m a bs) a n = bs := by
  rw [← h, readBytes_writeBytes_same]

/-- A byte string behind or before the one written is left alone. -/
lemma readBytes_writeBytes_apart (h : b + n ≤ a ∨ a + bs.length ≤ b) :
    readBytes (writeBytes m a bs) b n = readBytes m b n :=
  readBytes_congr (fun _ _ _ => writeBytes_outside (by omega))

lemma loadNat_numBytes (h : readBytes m a n = numBytes n v) (hv : v < 2 ^ (8 * n)) :
    loadNat m a n = v := by
  have hpow : (256 : Nat) ^ n = 2 ^ (8 * n) := by norm_num [pow_mul]
  rw [loadNat_of_bytes (v := v), hpow, Nat.mod_eq_of_lt hv]
  intro i hi
  have hbyte := congrArg (fun l : List UInt8 => l[i]?) h
  simp only [readBytes, numBytes, wordBytes, List.getElem?_map, List.getElem?_range hi, Option.map_some,
    Option.some.injEq, BitVec.toNat_ofNat, Nat.mod_eq_of_lt hv] at hbyte
  rw [hbyte, UInt8.toNat_ofNat']

end Bytes

/-! ### Blobs -/

/-- Blobs of the given offsets and sizes stand one behind the other from `lo` on and end at `hi`. -/
def Stacked : Nat → List (Nat × Nat) → Nat → Prop
  | lo, [], hi => lo = hi
  | lo, b :: bs, hi => b.1 = lo ∧ Stacked (lo + b.2) bs hi

/-- Two blobs share no byte. -/
def BlobsApart (b c : Nat × Nat) : Prop := b.1 + b.2 ≤ c.1 ∨ c.1 + c.2 ≤ b.1

section Stacked

variable {lo mid hi : Nat} {bs cs : List (Nat × Nat)}

lemma Stacked.append (h : Stacked lo bs mid) (h' : Stacked mid cs hi) : Stacked lo (bs ++ cs) hi := by
  induction bs generalizing lo with
  | nil =>
    have heq : lo = mid := h
    rw [heq]
    exact h'
  | cons b bs ih => exact ⟨h.1, ih h.2⟩

lemma Stacked.mem (h : Stacked lo bs hi) : lo ≤ hi ∧ ∀ b ∈ bs, lo ≤ b.1 ∧ b.1 + b.2 ≤ hi := by
  induction bs generalizing lo with
  | nil => exact ⟨Nat.le_of_eq h, fun _ hb => absurd hb (List.not_mem_nil)⟩
  | cons b bs ih =>
    have hrest := ih h.2
    have hfirst := h.1
    refine ⟨by omega, fun c hc => ?_⟩
    rw [List.mem_cons] at hc
    cases hc with
    | inl heq =>
      subst heq
      omega
    | inr hc =>
      have hb := hrest.2 c hc
      omega

lemma Stacked.pairwise (h : Stacked lo bs hi) : bs.Pairwise BlobsApart := by
  induction bs generalizing lo with
  | nil => exact List.Pairwise.nil
  | cons b bs ih =>
    rw [List.pairwise_cons]
    refine ⟨fun c hc => ?_, ih h.2⟩
    have hc := (h.2.mem).2 c hc
    have hb := h.1
    unfold BlobsApart
    omega

end Stacked

/-! ### Several byte strings -/

/-- Memory after byte strings are written one after the other. -/
def writeAll (m : Mem) (ws : List (Nat × List UInt8)) : Mem :=
  ws.foldl (fun m w => writeBytes m w.1 w.2) m

/-- The offset and size of a byte string. -/
def span (w : Nat × List UInt8) : Nat × Nat := (w.1, w.2.length)

section WriteAll

variable {m : Mem} {ws : List (Nat × List UInt8)} {a n : Nat}

lemma writeAll_cons (w : Nat × List UInt8) : writeAll m (w :: ws) = writeAll (writeBytes m w.1 w.2) ws :=
  rfl

lemma writeAll_append (ws' : List (Nat × List UInt8)) :
    writeAll m (ws ++ ws') = writeAll (writeAll m ws) ws' := List.foldl_append

lemma readBytes_writeAll_apart (h : ∀ w ∈ ws, BlobsApart (span w) (a, n)) :
    readBytes (writeAll m ws) a n = readBytes m a n := by
  induction ws generalizing m with
  | nil => rfl
  | cons w ws ih =>
    have hw : w.1 + w.2.length ≤ a ∨ a + n ≤ w.1 := h w List.mem_cons_self
    rw [writeAll_cons, ih (fun w' hw' => h w' (List.mem_cons_of_mem w hw')),
      readBytes_writeBytes_apart hw.symm]

lemma readBytes_writeAll_mem (hws : (ws.map span).Pairwise BlobsApart) {w : Nat × List UInt8} (hw : w ∈ ws)
    (hn : w.2.length = n) : readBytes (writeAll m ws) w.1 n = w.2 := by
  induction ws generalizing m with
  | nil => exact absurd hw List.not_mem_nil
  | cons v ws ih =>
    rw [List.map_cons, List.pairwise_cons] at hws
    rw [writeAll_cons]
    rw [List.mem_cons] at hw
    cases hw with
    | inl heq =>
      subst heq
      rw [← hn, readBytes_writeAll_apart (fun w' hw' => ?_), readBytes_writeBytes_same]
      exact (hws.1 (span w') (List.mem_map_of_mem hw')).symm
    | inr hw => exact ih hws.2 hw

end WriteAll

/-! ### Pieces -/

/-- A piece of a file: its size, and the memory that it is copied from. -/
abbrev Piece := Nat × Mem

/-- The byte at a place behind the pieces' common start. -/
def pieceByte : List Piece → Mem
  | [], _ => 0
  | p :: ps, x => if x < p.1 then p.2 x else pieceByte ps (x - p.1)

/-- Copies pieces to their offsets in a file. -/
def copyPieces (file : Mem) (ps : List (Nat × Piece)) : Mem :=
  ps.foldl (fun file p => writeBytes file p.1 (readBytes p.2.2 0 p.2.1)) file

section Pieces

variable {file : Mem} {ps : List (Nat × Piece)} {lo hi x : Nat}

lemma copyPieces_cons (p : Nat × Piece) :
    copyPieces file (p :: ps) = copyPieces (writeBytes file p.1 (readBytes p.2.2 0 p.2.1)) ps := rfl

/-- The offsets and sizes of pieces. -/
def spans (ps : List (Nat × Piece)) : List (Nat × Nat) := ps.map (fun p => (p.1, p.2.1))

lemma copyPieces_before (h : Stacked lo (spans ps) hi) (hx : x < lo) : copyPieces file ps x = file x := by
  induction ps generalizing file lo with
  | nil => rfl
  | cons p ps ih =>
    have hp : p.1 = lo := h.1
    rw [copyPieces_cons, ih h.2 (by omega), writeBytes_outside (by omega)]

lemma copyPieces_apply (h : Stacked lo (spans ps) hi) (hx : lo + x < hi) :
    copyPieces file ps (lo + x) = pieceByte (ps.map Prod.snd) x := by
  induction ps generalizing file lo x with
  | nil =>
    have heq : lo = hi := h
    omega
  | cons p ps ih =>
    have hp : p.1 = lo := h.1
    have hrest : Stacked (lo + p.2.1) (spans ps) hi := h.2
    rw [copyPieces_cons, List.map_cons, pieceByte]
    by_cases hin : x < p.2.1
    · rw [if_pos hin, copyPieces_before hrest (by omega), hp,
        writeBytes_inside (by simpa using hin), List.getD_eq_getElem _ _ (by simpa using hin)]
      simp [readBytes]
    · rw [if_neg hin]
      have hnext : copyPieces (writeBytes file p.1 (readBytes p.2.2 0 p.2.1)) ps
          (lo + p.2.1 + (x - p.2.1)) = pieceByte (ps.map Prod.snd) (x - p.2.1) :=
        ih hrest (by omega)
      rw [← hnext]
      congr 1
      omega

def piecesSize (ps : List Piece) : Nat := (ps.map Prod.fst).sum

lemma pieceByte_append_left {ps qs : List Piece} {x : Nat} (hx : x < piecesSize ps) :
    pieceByte (ps ++ qs) x = pieceByte ps x := by
  induction ps generalizing x with
  | nil => exact absurd hx (Nat.not_lt_zero x)
  | cons p ps ih =>
    have hsum : piecesSize (p :: ps) = p.1 + piecesSize ps := List.sum_cons
    rw [List.cons_append, pieceByte, pieceByte]
    by_cases hin : x < p.1
    · rw [if_pos hin, if_pos hin]
    · rw [if_neg hin, if_neg hin, ih (by omega)]

lemma pieceByte_append_right {ps qs : List Piece} {x : Nat} :
    pieceByte (ps ++ qs) (piecesSize ps + x) = pieceByte qs x := by
  induction ps with
  | nil => rw [List.nil_append, piecesSize, List.map_nil, List.sum_nil, Nat.zero_add]
  | cons p ps ih =>
    have hsum : piecesSize (p :: ps) = p.1 + piecesSize ps := List.sum_cons
    rw [List.cons_append, pieceByte, if_neg (by omega), ← ih]
    congr 1
    omega

lemma stacked_spans_end (h : Stacked lo (spans ps) hi) : hi = lo + piecesSize (ps.map Prod.snd) := by
  induction ps generalizing lo with
  | nil =>
    have heq : lo = hi := h
    rw [← heq]
    rfl
  | cons p ps ih =>
    have hrest : Stacked (lo + p.2.1) (spans ps) hi := h.2
    have hsum : piecesSize ((p :: ps).map Prod.snd) = p.2.1 + piecesSize (ps.map Prod.snd) :=
      List.sum_cons
    rw [ih hrest, hsum]
    omega

end Pieces

end Dyld.Lib
