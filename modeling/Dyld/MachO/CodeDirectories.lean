import Dyld.Lib.FirstMax
import Dyld.Lib.Memory

/-!
# Code directories

`MachOLoaded::forEachCodeDirectoryBlob` walks the index of a code signature and hands out the code
directory of the best hash, or all of them for the main executable of a watch. The types in the index
are big-endian, and they are compared without being swapped.
-/

namespace Dyld.MachO.CodeDirectories

open Dyld.Lib

/-- The bytes from `codeSigStart` on, of which the first `codeSignLen` are the signature. -/
structure Signature where
  bytes : Mem
  codeSignLen : Nat
  inSize : codeSignLen < 2 ^ 64

/-- `htonl` on a little-endian host. -/
def htonl (x : Nat) : Nat :=
  x % 256 * 2 ^ 24 + x / 256 % 256 * 2 ^ 16 + x / 2 ^ 16 % 256 * 256 + x / 2 ^ 24 % 256

def CSMAGIC_CODEDIRECTORY : Nat := 0xfade0c02
def CSMAGIC_EMBEDDED_SIGNATURE : Nat := 0xfade0cc0

def CSSLOT_CODEDIRECTORY : Nat := 0
def CSSLOT_ALTERNATE_CODEDIRECTORIES : Nat := 0x1000
def CSSLOT_ALTERNATE_CODEDIRECTORY_LIMIT : Nat := 0x1005

def sizeofSuperBlob : Nat := 12
def sizeofBlobIndex : Nat := 8
def sizeofCodeDirectory : Nat := 88

/-- `CS_HASHTYPE_SHA1`, `CS_HASHTYPE_SHA256_TRUNCATED`, `CS_HASHTYPE_SHA256` and
`CS_HASHTYPE_SHA384`. -/
def hashPriorities : List Nat := [1, 3, 2, 4]

def hashPriorities_watchOS_dylibs : List Nat := [3, 2, 4, 1]

def sizeSub (a b : Nat) : Nat := (a + 2 ^ 64 - b) % 2 ^ 64

namespace Signature

variable (sig : Signature)

def magic : Nat := loadNat sig.bytes 0 4

def subBlobCount : Nat := htonl (loadNat sig.bytes 8 4)

def indexEntry (i : Nat) : Nat := sizeofSuperBlob + sizeofBlobIndex * i

def indexType (i : Nat) : Nat := loadNat sig.bytes (indexEntry i) 4

def cdOffset (i : Nat) : Nat := htonl (loadNat sig.bytes (indexEntry i + 4) 4)

def cdLength (i : Nat) : Nat := htonl (loadNat sig.bytes (sig.cdOffset i + 4) 4)

def cdMagic (i : Nat) : Nat := loadNat sig.bytes (sig.cdOffset i) 4

def hashType (i : Nat) : Nat := (sig.bytes (sig.cdOffset i + 37)).toNat

def hashRank (priorities : List Nat) (i : Nat) : Nat :=
  match priorities.findIdx? (· = sig.hashType i) with
  | some n => n + 1
  | none => 0

def hashRankFn (isWatchOS : Bool) : Nat → Nat :=
  if isWatchOS then sig.hashRank hashPriorities_watchOS_dylibs else sig.hashRank hashPriorities

end Signature

/-- What a run reads and hands out, slot by slot, and `bestCd`. -/
structure Walk where
  entries : List Nat := []
  inspected : List Nat := []
  handedOut : List Nat := []
  bestCd : Option Nat := none

namespace Signature

variable (sig : Signature)

/-- The test of `index[i].type`. -/
def AcceptedType (type : Nat) : Prop :=
  type = htonl CSSLOT_CODEDIRECTORY ∨
    htonl CSSLOT_ALTERNATE_CODEDIRECTORIES ≤ type ∧ type ≤ htonl CSSLOT_ALTERNATE_CODEDIRECTORY_LIMIT

instance (type : Nat) : Decidable (AcceptedType type) := inferInstanceAs (Decidable (_ ∨ _))

/-- The body of the loop. -/
def visitSlot (isWatchOS isMainExecutable : Bool) (w : Walk) (i : Nat) : Walk :=
  let w := { w with entries := w.entries ++ [i] }
  if ¬AcceptedType (sig.indexType i) then w
  else if sizeSub sig.codeSignLen sizeofCodeDirectory < sig.cdOffset i then w
  else
    let w := { w with inspected := w.inspected ++ [i] }
    if sizeSub sig.codeSignLen (sig.cdOffset i) < sig.cdLength i then w
    else if isWatchOS && isMainExecutable then { w with handedOut := w.handedOut ++ [i] }
    else if sig.cdMagic i = htonl CSMAGIC_CODEDIRECTORY then
      { w with bestCd := keepBest (sig.hashRankFn isWatchOS) w.bestCd i }
    else w

/-- The checks in front of the loop. -/
def IsSuperBlob : Prop :=
  sizeofSuperBlob ≤ sig.codeSignLen ∧ sig.magic = htonl CSMAGIC_EMBEDDED_SIGNATURE ∧
    sig.subBlobCount ≤ (sig.codeSignLen - sizeofSuperBlob) / sizeofBlobIndex

instance : Decidable sig.IsSuperBlob := inferInstanceAs (Decidable (_ ∧ _))

def forEachCodeDirectoryBlob (isWatchOS isMainExecutable : Bool) : Walk :=
  if sig.codeSignLen < sizeofSuperBlob then {}
  else if sig.magic ≠ htonl CSMAGIC_EMBEDDED_SIGNATURE then {}
  else if (sig.codeSignLen - sizeofSuperBlob) / sizeofBlobIndex < sig.subBlobCount then {}
  else
    let w := (List.range sig.subBlobCount).foldl (sig.visitSlot isWatchOS isMainExecutable) {}
    { w with handedOut := w.handedOut ++ w.bestCd.toList }

/-! ### What a run should hand out -/

/-- The type of a slot, as a big-endian integer. -/
def slotType (i : Nat) : Nat := htonl (sig.indexType i)

def IsDirectorySlot (i : Nat) : Prop :=
  sig.slotType i = CSSLOT_CODEDIRECTORY ∨ CSSLOT_ALTERNATE_CODEDIRECTORIES ≤ sig.slotType i ∧
    sig.slotType i ≤ CSSLOT_ALTERNATE_CODEDIRECTORY_LIMIT

instance (i : Nat) : Decidable (sig.IsDirectorySlot i) := inferInstanceAs (Decidable (_ ∨ _))

/-- The fixed part and the full length of the slot's directory are in the buffer. -/
def FitsSlot (i : Nat) : Prop :=
  sig.cdOffset i + sizeofCodeDirectory ≤ sig.codeSignLen ∧
    sig.cdOffset i + sig.cdLength i ≤ sig.codeSignLen

instance (i : Nat) : Decidable (sig.FitsSlot i) := inferInstanceAs (Decidable (_ ∧ _))

def slots : List Nat := if sig.IsSuperBlob then List.range sig.subBlobCount else []

/-- The slots among which the best one is to be chosen. -/
def directories : List Nat :=
  sig.slots.filter (fun i =>
    sig.IsDirectorySlot i ∧ sig.FitsSlot i ∧ sig.cdMagic i = htonl CSMAGIC_CODEDIRECTORY)

/-- A run reads only inside the buffer and hands out only code directories, and no more than the
first of the best ones except on a watch. -/
structure OnlyDirectories (isWatchOS isMainExecutable : Bool) : Prop where
  entries : ∀ i ∈ (sig.forEachCodeDirectoryBlob isWatchOS isMainExecutable).entries,
    indexEntry i + sizeofBlobIndex ≤ sig.codeSignLen
  inspected : ∀ i ∈ (sig.forEachCodeDirectoryBlob isWatchOS isMainExecutable).inspected,
    sig.cdOffset i + sizeofCodeDirectory ≤ sig.codeSignLen
  lengths : ∀ i ∈ (sig.forEachCodeDirectoryBlob isWatchOS isMainExecutable).handedOut,
    sig.cdOffset i + sig.cdLength i ≤ sig.codeSignLen
  types : ∀ i ∈ (sig.forEachCodeDirectoryBlob isWatchOS isMainExecutable).handedOut,
    i ∈ sig.slots ∧ sig.IsDirectorySlot i
  best : isWatchOS = false →
    (sig.forEachCodeDirectoryBlob isWatchOS isMainExecutable).handedOut =
      (sig.directories.argmax (sig.hashRank hashPriorities)).toList

/-! ### What a run does -/

lemma htonl_bytes {a b c d : Nat} (ha : a < 256) (hb : b < 256) (hc : c < 256) (hd : d < 256) :
    htonl (a + 256 * b + 2 ^ 16 * c + 2 ^ 24 * d) = d + 256 * c + 2 ^ 16 * b + 2 ^ 24 * a := by
  have h0 : (a + 256 * b + 2 ^ 16 * c + 2 ^ 24 * d) % 256 = a := by omega
  have h1 : (a + 256 * b + 2 ^ 16 * c + 2 ^ 24 * d) / 256 % 256 = b := by omega
  have h2 : (a + 256 * b + 2 ^ 16 * c + 2 ^ 24 * d) / 2 ^ 16 % 256 = c := by omega
  have h3 : (a + 256 * b + 2 ^ 16 * c + 2 ^ 24 * d) / 2 ^ 24 % 256 = d := by omega
  rw [htonl, h0, h1, h2, h3]
  ring

lemma htonl_htonl {x : Nat} (hx : x < 2 ^ 32) : htonl (htonl x) = x := by
  have hbytes : x = x % 256 + 256 * (x / 256 % 256) + 2 ^ 16 * (x / 2 ^ 16 % 256) +
      2 ^ 24 * (x / 2 ^ 24 % 256) := by omega
  have hlt : ∀ n, n % 256 < 256 := fun n => Nat.mod_lt n (by norm_num)
  rw [hbytes, htonl_bytes (hlt _) (hlt _) (hlt _) (hlt _),
    htonl_bytes (hlt _) (hlt _) (hlt _) (hlt _), ← hbytes]

/-- Swapping keeps the slots of code directories between the two limits. -/
lemma IsDirectorySlot.acceptedType {sig : Signature} {i : Nat} (h : sig.IsDirectorySlot i) :
    AcceptedType (sig.indexType i) := by
  have hraw : sig.indexType i = htonl (sig.slotType i) := (htonl_htonl (loadNat_lt _ _ 4)).symm
  rw [hraw]
  cases h with
  | inl h =>
    rw [h]
    exact Or.inl rfl
  | inr h =>
    obtain ⟨hlow, hhigh⟩ := h
    unfold AcceptedType htonl
    simp only [CSSLOT_CODEDIRECTORY, CSSLOT_ALTERNATE_CODEDIRECTORIES,
      CSSLOT_ALTERNATE_CODEDIRECTORY_LIMIT] at hlow hhigh ⊢
    omega

def Inspects (i : Nat) : Prop :=
  AcceptedType (sig.indexType i) ∧ sig.cdOffset i ≤ sizeSub sig.codeSignLen sizeofCodeDirectory

instance (i : Nat) : Decidable (sig.Inspects i) := inferInstanceAs (Decidable (_ ∧ _))

def Passes (i : Nat) : Prop :=
  sig.Inspects i ∧ sig.cdLength i ≤ sizeSub sig.codeSignLen (sig.cdOffset i)

instance (i : Nat) : Decidable (sig.Passes i) := inferInstanceAs (Decidable (_ ∧ _))

section Run

variable {isWatchOS isMainExecutable : Bool}

/-- What a run over some slots leaves. -/
def walkOf (isWatchOS isMainExecutable : Bool) (l : List Nat) : Walk where
  entries := l
  inspected := l.filter (fun i => sig.Inspects i)
  handedOut := if isWatchOS && isMainExecutable then l.filter (fun i => sig.Passes i) else []
  bestCd :=
    if isWatchOS && isMainExecutable then none
    else (l.filter (fun i => sig.Passes i ∧ sig.cdMagic i = htonl CSMAGIC_CODEDIRECTORY)).argmax
      (sig.hashRankFn isWatchOS)

lemma visitSlot_walkOf (l : List Nat) (i : Nat) :
    sig.visitSlot isWatchOS isMainExecutable (sig.walkOf isWatchOS isMainExecutable l) i =
      sig.walkOf isWatchOS isMainExecutable (l ++ [i]) := by
  unfold visitSlot walkOf
  simp only [List.filter_append]
  by_cases haccepted : AcceptedType (sig.indexType i)
  · by_cases hoffset : sig.cdOffset i ≤ sizeSub sig.codeSignLen sizeofCodeDirectory
    · have hinspects : sig.Inspects i := ⟨haccepted, hoffset⟩
      rw [if_neg (not_not.mpr haccepted), if_neg hoffset.not_gt]
      by_cases hlength : sig.cdLength i ≤ sizeSub sig.codeSignLen (sig.cdOffset i)
      · have hpasses : sig.Passes i := ⟨hinspects, hlength⟩
        rw [if_neg hlength.not_gt]
        by_cases hwatch : (isWatchOS && isMainExecutable) = true
        · simp [hwatch, hinspects, hpasses]
        · by_cases hmagic : sig.cdMagic i = htonl CSMAGIC_CODEDIRECTORY
          · simp [hwatch, hinspects, hpasses, hmagic, keepBest_argmax]
          · simp [hwatch, hinspects, hmagic]
      · have hpasses : ¬sig.Passes i := fun h => hlength h.2
        rw [if_pos (not_le.mp hlength)]
        simp [hinspects, hpasses]
    · have hinspects : ¬sig.Inspects i := fun h => hoffset h.2
      have hpasses : ¬sig.Passes i := fun h => hinspects h.1
      rw [if_neg (not_not.mpr haccepted), if_pos (not_le.mp hoffset)]
      simp [hinspects, hpasses]
  · have hinspects : ¬sig.Inspects i := fun h => haccepted h.1
    have hpasses : ¬sig.Passes i := fun h => hinspects h.1
    rw [if_pos haccepted]
    simp [hinspects, hpasses]

lemma foldl_visitSlot (l : List Nat) :
    l.foldl (sig.visitSlot isWatchOS isMainExecutable) {} = sig.walkOf isWatchOS isMainExecutable l := by
  induction l using List.reverseRecOn with
  | nil => simp [walkOf]
  | append_singleton l i ih =>
    rw [List.foldl_append, ih, List.foldl_cons, List.foldl_nil, visitSlot_walkOf]

/-- A run is one over the slots of the index. -/
lemma forEachCodeDirectoryBlob_eq :
    sig.forEachCodeDirectoryBlob isWatchOS isMainExecutable =
      { sig.walkOf isWatchOS isMainExecutable sig.slots with
        handedOut := (sig.walkOf isWatchOS isMainExecutable sig.slots).handedOut ++
          (sig.walkOf isWatchOS isMainExecutable sig.slots).bestCd.toList } := by
  unfold forEachCodeDirectoryBlob slots
  rw [foldl_visitSlot]
  by_cases hlen : sig.codeSignLen < sizeofSuperBlob
  · have hnot : ¬sig.IsSuperBlob := fun h => h.1.not_gt hlen
    rw [if_pos hlen, if_neg hnot]
    simp [walkOf]
  · by_cases hmagic : sig.magic = htonl CSMAGIC_EMBEDDED_SIGNATURE
    · rw [if_neg hlen, if_neg (not_not.mpr hmagic)]
      by_cases hcount : (sig.codeSignLen - sizeofSuperBlob) / sizeofBlobIndex < sig.subBlobCount
      · have hnot : ¬sig.IsSuperBlob := fun h => h.2.2.not_gt hcount
        rw [if_pos hcount, if_neg hnot]
        simp [walkOf]
      · have hblob : sig.IsSuperBlob := ⟨not_lt.mp hlen, hmagic, not_lt.mp hcount⟩
        rw [if_neg hcount, if_pos hblob]
    · have hnot : ¬sig.IsSuperBlob := fun h => hmagic h.2.1
      rw [if_neg hlen, if_pos hmagic, if_neg hnot]
      simp [walkOf]

lemma slots_sorted : sig.slots.Pairwise (· < ·) := by
  unfold slots
  split
  · exact List.pairwise_lt_range
  · exact List.Pairwise.nil

/-- Behind the check of the count every index entry is in the buffer. -/
lemma entry_inside {i : Nat} (hi : i ∈ sig.slots) :
    indexEntry i + sizeofBlobIndex ≤ sig.codeSignLen := by
  unfold slots at hi
  split at hi
  · rename_i hblob
    obtain ⟨hlen, -, hcount⟩ := hblob
    have hlt := List.mem_range.mp hi
    simp only [sizeofSuperBlob, sizeofBlobIndex, indexEntry] at *
    omega
  · simp at hi

end Run

/-! ### When a run is right -/

lemma htonl_lt (x : Nat) : htonl x < 2 ^ 32 := by
  unfold htonl
  omega

/-- In a buffer with room for a code directory, the checks are those of `FitsSlot`. -/
lemma inspects_iff (hlen : sizeofCodeDirectory ≤ sig.codeSignLen) (i : Nat) :
    sig.Inspects i ↔
      AcceptedType (sig.indexType i) ∧ sig.cdOffset i + sizeofCodeDirectory ≤ sig.codeSignLen := by
  have hsize := sig.inSize
  refine and_congr_right fun _ => ?_
  unfold sizeSub
  omega

lemma passes_iff (hlen : sizeofCodeDirectory ≤ sig.codeSignLen) (i : Nat) :
    sig.Passes i ↔ AcceptedType (sig.indexType i) ∧ sig.FitsSlot i := by
  have hsize := sig.inSize
  unfold Passes FitsSlot
  rw [inspects_iff sig hlen i, and_assoc]
  refine and_congr_right fun _ => and_congr_right fun hoffset => ?_
  unfold sizeSub
  omega

lemma inspects_of_short (hlen : sig.codeSignLen < sizeofCodeDirectory) {i : Nat}
    (haccepted : AcceptedType (sig.indexType i)) : sig.Inspects i := by
  have hoffset := htonl_lt (loadNat sig.bytes (indexEntry i + 4) 4)
  refine ⟨haccepted, ?_⟩
  unfold sizeSub
  simp only [cdOffset, sizeofCodeDirectory] at *
  omega

/-- The slots that the loop takes for those of code directories. -/
def taken : List Nat :=
  sig.slots.filter (fun i => AcceptedType (sig.indexType i) ∧ sig.FitsSlot i ∧
    sig.cdMagic i = htonl CSMAGIC_CODEDIRECTORY)

/-- There is room for a code directory if a slot asks for one, and no slot of another type is handed
out: none is there to be, or each one is beaten by a slot of a code directory. -/
def NoStray (isWatchOS isMainExecutable : Bool) : Prop :=
  (sizeofCodeDirectory ≤ sig.codeSignLen ∨ ∀ i ∈ sig.slots, ¬AcceptedType (sig.indexType i)) ∧
    if isWatchOS && isMainExecutable then
      ∀ i ∈ sig.slots, AcceptedType (sig.indexType i) → sig.FitsSlot i → sig.IsDirectorySlot i
    else
      ∀ i ∈ sig.taken, sig.IsDirectorySlot i ∨ ∃ j ∈ sig.taken, sig.IsDirectorySlot j ∧
        (sig.hashRankFn isWatchOS i < sig.hashRankFn isWatchOS j ∨
          sig.hashRankFn isWatchOS i = sig.hashRankFn isWatchOS j ∧ j < i)

section Exact

variable {isWatchOS isMainExecutable : Bool}

lemma directories_eq : sig.directories = sig.taken.filter (fun i => sig.IsDirectorySlot i) := by
  rw [directories, taken, List.filter_filter]
  refine List.filter_congr fun i _ => ?_
  by_cases hslot : sig.IsDirectorySlot i
  · simp [hslot, hslot.acceptedType]
  · simp [hslot]

lemma handedOut_eq (isWatchOS isMainExecutable : Bool) (hlen : sizeofCodeDirectory ≤ sig.codeSignLen) :
    (sig.forEachCodeDirectoryBlob isWatchOS isMainExecutable).handedOut =
      if isWatchOS && isMainExecutable then
        sig.slots.filter (fun i => AcceptedType (sig.indexType i) ∧ sig.FitsSlot i)
      else (sig.taken.argmax (sig.hashRankFn isWatchOS)).toList := by
  rw [forEachCodeDirectoryBlob_eq, taken]
  simp only [walkOf, passes_iff sig hlen, and_assoc]
  split
  · rw [Option.toList_none, List.append_nil]
  · rw [List.nil_append]

lemma inspected_eq (hlen : sizeofCodeDirectory ≤ sig.codeSignLen) :
    (sig.forEachCodeDirectoryBlob isWatchOS isMainExecutable).inspected =
      sig.slots.filter (fun i => AcceptedType (sig.indexType i) ∧
        sig.cdOffset i + sizeofCodeDirectory ≤ sig.codeSignLen) := by
  rw [forEachCodeDirectoryBlob_eq]
  simp only [walkOf, inspects_iff sig hlen]

lemma taken_sorted : sig.taken.Pairwise (· < ·) := sig.slots_sorted.filter _

/-- If the best of the slots that are taken is one of a code directory, it is the best of these. -/
lemma argmax_directories
    (hbest : ∀ c, sig.taken.argmax (sig.hashRankFn isWatchOS) = some c → sig.IsDirectorySlot c) :
    sig.taken.argmax (sig.hashRankFn isWatchOS) =
      sig.directories.argmax (sig.hashRankFn isWatchOS) := by
  rw [directories_eq]
  cases hc : sig.taken.argmax (sig.hashRankFn isWatchOS) with
  | none => rw [List.argmax_eq_none.mp hc, List.filter_nil, List.argmax_nil]
  | some c => exact (argmax_filter sig.taken_sorted hc (decide_eq_true (hbest c hc))).symm

lemma onlyDirectories_of_room (hlen : sizeofCodeDirectory ≤ sig.codeSignLen)
    (htypes : ∀ i ∈ (sig.forEachCodeDirectoryBlob isWatchOS isMainExecutable).handedOut,
      sig.IsDirectorySlot i) :
    sig.OnlyDirectories isWatchOS isMainExecutable := by
  have hentries : ∀ i ∈ (sig.forEachCodeDirectoryBlob isWatchOS isMainExecutable).entries,
      indexEntry i + sizeofBlobIndex ≤ sig.codeSignLen := by
    intro i hi
    rw [forEachCodeDirectoryBlob_eq] at hi
    exact sig.entry_inside hi
  have hinspected : ∀ i ∈ (sig.forEachCodeDirectoryBlob isWatchOS isMainExecutable).inspected,
      sig.cdOffset i + sizeofCodeDirectory ≤ sig.codeSignLen := by
    intro i hi
    rw [inspected_eq sig hlen] at hi
    exact (of_decide_eq_true (List.mem_filter.mp hi).2).2
  have hhanded : ∀ i ∈ (sig.forEachCodeDirectoryBlob isWatchOS isMainExecutable).handedOut,
      i ∈ sig.slots ∧ sig.FitsSlot i := by
    intro i hi
    rw [handedOut_eq sig isWatchOS isMainExecutable hlen] at hi
    split at hi
    · have hmem := List.mem_filter.mp hi
      exact ⟨hmem.1, (of_decide_eq_true hmem.2).2⟩
    · have hmem := List.mem_filter.mp (List.argmax_mem (Option.mem_toList.mp hi))
      exact ⟨hmem.1, (of_decide_eq_true hmem.2).2.1⟩
  refine ⟨hentries, hinspected, fun i hi => (hhanded i hi).2.2,
    fun i hi => ⟨(hhanded i hi).1, htypes i hi⟩, fun hwatch => ?_⟩
  have hhandedOut := sig.handedOut_eq isWatchOS isMainExecutable hlen
  subst hwatch
  simp only [Bool.false_and, Bool.false_eq_true, if_false] at hhandedOut
  rw [hhandedOut] at htypes ⊢
  rw [argmax_directories sig (fun c hc => htypes c (by simp [hc]))]
  rfl

lemma onlyDirectories_of_none (hnone : ∀ i ∈ sig.slots, ¬AcceptedType (sig.indexType i)) :
    sig.OnlyDirectories isWatchOS isMainExecutable := by
  have hinspects : sig.slots.filter (fun i => sig.Inspects i) = [] :=
    List.filter_eq_nil_iff.mpr (fun i hi h => hnone i hi (of_decide_eq_true h).1)
  have hpasses : sig.slots.filter (fun i => sig.Passes i) = [] :=
    List.filter_eq_nil_iff.mpr (fun i hi h => hnone i hi (of_decide_eq_true h).1.1)
  have hbest : sig.slots.filter
      (fun i => sig.Passes i ∧ sig.cdMagic i = htonl CSMAGIC_CODEDIRECTORY) = [] :=
    List.filter_eq_nil_iff.mpr (fun i hi h => hnone i hi (of_decide_eq_true h).1.1.1)
  have hdirectories : sig.directories = [] :=
    List.filter_eq_nil_iff.mpr (fun i hi h => hnone i hi (of_decide_eq_true h).1.acceptedType)
  have hrun : sig.forEachCodeDirectoryBlob isWatchOS isMainExecutable = ⟨sig.slots, [], [], none⟩ := by
    rw [forEachCodeDirectoryBlob_eq]
    simp only [walkOf, hinspects, hpasses, hbest, List.argmax_nil, ite_self]
    rfl
  refine ⟨?_, ?_, ?_, ?_, ?_⟩
  · rw [hrun]
    exact fun i hi => sig.entry_inside hi
  · simp [hrun]
  · simp [hrun]
  · simp [hrun]
  · simp [hrun, hdirectories]

end Exact

theorem onlyDirectories_iff (sig : Signature) (isWatchOS isMainExecutable : Bool) :
    sig.OnlyDirectories isWatchOS isMainExecutable ↔ sig.NoStray isWatchOS isMainExecutable := by
  by_cases hlen : sizeofCodeDirectory ≤ sig.codeSignLen
  · have hhandedOut := sig.handedOut_eq isWatchOS isMainExecutable hlen
    have htypes : sig.NoStray isWatchOS isMainExecutable ↔
        ∀ i ∈ (sig.forEachCodeDirectoryBlob isWatchOS isMainExecutable).handedOut,
          sig.IsDirectorySlot i := by
      unfold NoStray
      rw [hhandedOut]
      split
      · simp only [List.mem_filter, decide_eq_true_eq, and_imp, hlen, true_or, true_and]
      · simp only [hlen, true_or, true_and, Option.mem_toList]
        exact (forall_argmax_iff sig.taken_sorted).symm
    rw [htypes]
    exact ⟨fun h i hi => (h.types i hi).2, sig.onlyDirectories_of_room hlen⟩
  · constructor
    · intro h
      have hnone : ∀ i ∈ sig.slots, ¬AcceptedType (sig.indexType i) := by
        intro i hi haccepted
        have hinspected : i ∈ (sig.forEachCodeDirectoryBlob isWatchOS isMainExecutable).inspected := by
          rw [forEachCodeDirectoryBlob_eq]
          exact List.mem_filter.mpr ⟨hi, decide_eq_true (sig.inspects_of_short (not_le.mp hlen) haccepted)⟩
        have hfits := h.inspected i hinspected
        omega
      refine ⟨Or.inr hnone, ?_⟩
      split
      · exact fun i hi haccepted => absurd haccepted (hnone i hi)
      · intro i hi
        have hmem := List.mem_filter.mp hi
        exact absurd (of_decide_eq_true hmem.2).1 (hnone i hmem.1)
    · exact fun h => sig.onlyDirectories_of_none (h.1.resolve_left hlen)

def requirementsOnly : Signature where
  bytes a := ([0xfa, 0xde, 0x0c, 0xc0, 0, 0, 0, 108, 0, 0, 0, 1, 0, 0, 0, 2, 0, 0, 0, 20,
    0xfa, 0xde, 0x0c, 0x01, 0, 0, 0, 12] : List UInt8)[a]?.getD 0
  codeSignLen := 108
  inSize := by norm_num

theorem requirementsOnly_handedOut : ¬requirementsOnly.OnlyDirectories true true := by
  intro h
  have hhandedOut : 0 ∈ (requirementsOnly.forEachCodeDirectoryBlob true true).handedOut := by
    decide +kernel
  have hslot := (h.types 0 hhandedOut).2
  revert hslot
  decide +kernel

end Signature

end Dyld.MachO.CodeDirectories
