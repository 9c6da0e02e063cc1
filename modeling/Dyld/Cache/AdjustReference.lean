import Dyld.Cache.Adjustor

/-!
# References of split-seg v2 after their segments moved

What a value or an instruction of each kind points at, and when `adjustReference` keeps it
pointing there: the operand of each kind is read back from the rewritten word and compared
with the new distance.
-/

namespace Dyld.Cache

open Dyld.Lib

/-! ### What a reference points at -/

/-- The distance between two addresses as a signed number. -/
def distance (fromAddress toAddress : BitVec 64) : Int := (toAddress - fromAddress).toInt

/-- The immediate of `ADRP`, its high 19 bits above its low two. -/
def imm21 (instruction : BitVec 32) : Nat :=
  getField instruction 5 19 * 4 + getField instruction 29 2

def isBranch26 (instruction : BitVec 32) : Bool := instruction &&& 0x7C000000#32 == 0x14000000#32

/-- The page offset a load, a store or an add adds to its base. -/
def off12 (instruction : BitVec 32) : Option Nat :=
  if isLoadStoreImm12 instruction then
    some (getField instruction 10 12 * off12Scale instruction)
  else if isAddImm12 instruction then some (getField instruction 10 12)
  else none

/-- A 32-bit value or instruction, evaluated at `fromAddress` in an image that starts at
`imageStart`, points at `toAddress`. -/
def ResolvesWord (imageStart : BitVec 64) (kind : AdjKind) (word : BitVec 32)
    (fromAddress toAddress : BitVec 64) : Prop :=
  match kind with
  | .delta32 => fromAddress + word.signExtend 64 = toAddress
  | .imageOff32 => imageStart + word.setWidth 64 = toAddress
  | .arm64Adrp =>
    isAdrp word ∧
      pageOf fromAddress + BitVec.ofInt 64 (4096 * Int.bmod (imm21 word) (2 ^ 21)) =
        pageOf toAddress
  | .arm64Off12 => off12 word = some (toAddress.toNat % 4096)
  | .arm64Br26 =>
    isBranch26 word ∧
      fromAddress + BitVec.ofInt 64 (4 * Int.bmod (getField word 0 26) (2 ^ 26)) = toAddress
  | _ => False

/-- The value or instruction at `a` points at `toAddress`. -/
def Resolves (imageStart : BitVec 64) (kind : AdjKind) (m : Mem) (a : Nat)
    (fromAddress toAddress : BitVec 64) : Prop :=
  match kind with
  | .delta64 => fromAddress + (load 8 m a : BitVec 64) = toAddress
  | _ => ResolvesWord imageStart kind (load 4 m a) fromAddress toAddress

def operandBits : AdjKind → BitVec 32
  | .arm64Adrp => 0x60FFFFE0#32
  | .arm64Off12 => 0x003FFC00#32
  | .arm64Br26 => 0x03FFFFFF#32
  | .thumbMovwMovt => 0x70FF040F#32
  | .armMovwMovt => 0x000F0FFF#32
  | _ => BitVec.allOnes 32

def byteWidth : AdjKind → Nat
  | .delta64 => 8
  | _ => 4

def otherBits (kind : AdjKind) (m : Mem) (a : Nat) : BitVec 32 :=
  (load 4 m a : BitVec 32) &&& ~~~operandBits kind

/-- The pair of a `movw` and a `movt` at `a₁` and `a₂`, in either order: the word they make is
the distance to the target from a place that lies `anchor` bytes after the pair. -/
def PairResolves (c : MovCodec) (m : Mem) (a₁ a₂ : Nat) (anchor : BitVec 32)
    (fromAddress toAddress : BitVec 64) : Prop :=
  Apart 4 a₁ a₂ ∧ ∃ low high : BitVec 32,
    (load 4 m a₁ = low ∧ load 4 m a₂ = high ∨ load 4 m a₁ = high ∧ load 4 m a₂ = low) ∧
    c.isMovw low ∧ c.isMovt high ∧
    (c.getWord high ++ c.getWord low) + anchor + fromAddress.setWidth 32 = toAddress.setWidth 32

def Moves (r : Reference) (fromOld toOld : BitVec 64) : Prop :=
  r.adjust = (r.toNewAddress - toOld) - (r.fromNewAddress - fromOld)

/-- The new operand of the reference, where the check of its kind passes it, fits its field. -/
def Reaches (r : Reference) (imageStartOld toOld : BitVec 64) : Prop :=
  match r.kind with
  | .delta32 =>
    distance r.fromNewAddress r.toNewAddress ≠ 2 ^ 31 ∧
      distance r.fromNewAddress r.toNewAddress ≠ -2 ^ 63
  | .imageOff32 =>
    if r.adjust = 0 then r.toNewAddress - toOld = r.imageStartAddress - imageStartOld
    else
      (r.toNewAddress - r.imageStartAddress).toNat < 2 ^ 32 ∨
        r.imageEndAddress < r.toNewAddress - r.imageStartAddress
  | .arm64Adrp =>
    let pages := distance (pageOf r.fromNewAddress) (pageOf r.toNewAddress) / 4096
    (-2 ^ 20 ≤ pages ∧ pages < 2 ^ 20) ∨ 2097151 < pages ∨ pages < -2097151
  | .arm64Br26 =>
    let d := distance r.fromNewAddress r.toNewAddress
    r.adjust = 0 ∨ 4 ∣ d ∨ d ≤ -0x07FFFFFF ∨ 0x07FFFFFF ≤ d
  | _ => True

/-- Nothing but the operand of the reference at `a` differs between `m` and `m'`. -/
def Kept (kind : AdjKind) (m m' : Mem) (a : Nat) : Prop :=
  (∀ x, ¬InWord (byteWidth kind) a x → m' x = m x) ∧ otherBits kind m' a = otherBits kind m a

/-- A reference that is adjusted without an error points at the new address of its target. -/
def Preserved (A : Adjustor) (r : Reference) (s : AdjustState) : Prop :=
  (adjustReference A r s).diag = none →
    Resolves r.imageStartAddress r.kind (adjustReference A r s).mem r.mappedAddr r.fromNewAddress
      r.toNewAddress ∧
    Kept r.kind s.mem (adjustReference A r s).mem r.mappedAddr

/-! ### Distances -/

lemma Moves.distance_eq {r : Reference} {fromOld toOld : BitVec 64} (h : Moves r fromOld toOld) :
    (toOld - fromOld) + r.adjust = r.toNewAddress - r.fromNewAddress := by
  rw [h]
  abel

lemma add_eq_iff_eq_sub {x y z : BitVec 64} : x + y = z ↔ y = z - x := by
  rw [eq_sub_iff_add_eq, add_comm]

/-- An operand `z`, small enough not to wrap, reaches from `x` to `y` when it is their
distance. -/
lemma add_ofInt_eq_iff {x y : BitVec 64} {z : Int} (hlo : -2 ^ 63 ≤ z) (hhi : z < 2 ^ 63) :
    x + BitVec.ofInt 64 z = y ↔ z = distance x y := by
  rw [add_eq_iff_eq_sub, ← BitVec.toInt_inj, BitVec.toInt_ofInt, distance]
  have hz : Int.bmod z (2 ^ 64) = z := (bmod_eq_self_iff 63).mpr ⟨hlo, hhi⟩
  rw [hz]

lemma bmod_two_pow_bounds (z : Int) (len : Nat) :
    -2 ^ len ≤ Int.bmod z (2 ^ (len + 1)) ∧ Int.bmod z (2 ^ (len + 1)) < 2 ^ len := by
  rw [← bmod_eq_self_iff, Int.bmod_bmod]

/-! ### One call -/

section Call

variable {A : Adjustor} {r : Reference} {s : AdjustState}

lemma adjustReference_mem : (adjustReference A r s).mem = (adjustKind A r s).1.mem := by
  unfold adjustReference
  split
  all_goals simp_all

lemma adjustReference_diag : (adjustReference A r s).diag = (adjustKind A r s).1.diag := by
  unfold adjustReference
  split
  all_goals simp_all

@[simp] lemma noteLOH_mem : (noteLOH r s).mem = s.mem := by
  unfold noteLOH
  split <;> rfl

@[simp] lemma noteLOH_diag : (noteLOH r s).diag = s.diag := by
  unfold noteLOH
  split <;> rfl

lemma kept_refl (kind : AdjKind) (m : Mem) (a : Nat) : Kept kind m m a := ⟨fun _ _ => rfl, rfl⟩

lemma kept_store {kind : AdjKind} {m : Mem} {a : Nat} {w : BitVec 32} (hw : byteWidth kind = 4) :
    Kept kind m (store 4 m a w) a ↔
      w &&& ~~~operandBits kind = (load 4 m a : BitVec 32) &&& ~~~operandBits kind := by
  have hload : (load 4 (store 4 m a w) a : BitVec 32) = w := load_store_same 4 m a w
  have hframe : ∀ x, ¬InWord (byteWidth kind) a x → store 4 m a w x = m x := by
    intro x hx
    rw [hw] at hx
    exact store_apply_of_not_inWord hx
  unfold Kept otherBits
  rw [hload]
  exact ⟨fun h => h.2, fun h => ⟨hframe, h⟩⟩

lemma resolves_store {imageStart : BitVec 64} {kind : AdjKind} {m : Mem} {a : Nat} {w : BitVec 32}
    {fromAddress toAddress : BitVec 64} (hw : byteWidth kind = 4) :
    Resolves imageStart kind (store 4 m a w) a fromAddress toAddress ↔
      ResolvesWord imageStart kind w fromAddress toAddress := by
  have hload : (load 4 (store 4 m a w) a : BitVec 32) = w := load_store_same 4 m a w
  cases kind
  case delta64 => cases hw
  all_goals simp only [Resolves, hload]

lemma resolves_word {imageStart : BitVec 64} {kind : AdjKind} {s : AdjustState} {a : Nat}
    {fromAddress toAddress : BitVec 64} (hw : byteWidth kind = 4)
    (h : Resolves imageStart kind s.mem a fromAddress toAddress) :
    ResolvesWord imageStart kind (s.get32 a) fromAddress toAddress := by
  cases kind
  case delta64 => cases hw
  all_goals exact h

/-- A rewritten word is right when every word the rewriting lets through is. -/
lemma rewriteAt_iff {f : BitVec 32 → Rewrite} {P : Mem → Prop} (hs : s.diag = none) :
    ((rewriteAt r s f).1.diag = none → P (rewriteAt r s f).1.mem) ↔
      ∀ w, f (s.get32 r.mappedAddr) = .ok (w, none) → P (store 4 s.mem r.mappedAddr w) := by
  unfold rewriteAt
  split
  · rename_i e he
    simp [he, AdjustState.error]
  · rename_i w e hok
    cases e with
    | none =>
      simp only [hok, AdjustState.set32, hs, Option.or_none, Except.ok.injEq, Prod.mk.injEq,
        and_true, forall_eq', forall_const]
    | some e => simp [hok]

end Call

/-! ### The words of each kind -/

lemma signExtend_setWidth_eq_iff {d : BitVec 64} :
    (d.setWidth 32).signExtend 64 = d ↔ -2 ^ 31 ≤ d.toInt ∧ d.toInt < 2 ^ 31 := by
  rw [← BitVec.toInt_inj, BitVec.toInt_signExtend_of_le (by omega), ← bmod_eq_self_iff 31,
    BitVec.toInt_setWidth, ← bmod_toNat_mod d (by omega : 31 + 1 ≤ 64), Int.natCast_mod,
    Int.emod_bmod]

lemma adjustDelta32_eq_ok {adjust : BitVec 64} {value32 w : BitVec 32} {d : BitVec 64}
    (hd : value32.signExtend 64 + adjust = d) :
    adjustDelta32 adjust value32 = .ok (w, none) ↔
      w = d.setWidth 32 ∧ (-2 ^ 31 ≤ d.toInt ∧ d.toInt ≤ 2 ^ 31 ∨ d.toInt = -2 ^ 63) := by
  have hlo : -2 ^ 63 ≤ d.toInt := BitVec.le_toInt d
  have hhi : d.toInt < 2 ^ 63 := BitVec.toInt_lt
  have hneg : d.toInt = -2 ^ 63 ∧ (-d).toInt = -2 ^ 63 ∨
      d.toInt ≠ -2 ^ 63 ∧ (-d).toInt = -d.toInt := by
    rw [BitVec.toInt_neg]
    by_cases hmin : d.toInt = -2 ^ 63
    · refine Or.inl ⟨hmin, ?_⟩
      rw [hmin]
      rfl
    · exact Or.inr ⟨hmin, (bmod_eq_self_iff 63).mpr ⟨by omega, by omega⟩⟩
  have hbound : (0x80000000#64).toInt = 2 ^ 31 := by decide
  unfold adjustDelta32
  simp only [hd, BitVec.slt_iff_toInt_lt, hbound]
  split_ifs with herr
  · simp only [false_iff]
    omega
  · simp only [Except.ok.injEq, Prod.mk.injEq, and_true]
    constructor
    · rintro rfl
      exact ⟨rfl, by omega⟩
    · rintro ⟨rfl, _⟩
      rfl

lemma adjustBr26_eq_ok {fromNew toNew : BitVec 64} {instruction w : BitVec 32} :
    adjustBr26 fromNew toNew instruction = .ok (w, none) ↔
      w = setField instruction 0 26 ((toNew - fromNew).sshiftRight 2).toNat ∧
        -0x07FFFFFF < distance fromNew toNew ∧ distance fromNew toNew < 0x07FFFFFF := by
  have hfield : (instruction &&& 0xFC000000#32) |||
      (((toNew - fromNew).sshiftRight 2).setWidth 32 &&& 0x03FFFFFF#32) =
      setField instruction 0 26 ((toNew - fromNew).sshiftRight 2).toNat := by
    apply mask_or_eq_setField (by decide) (by decide)
    intro i hi
    rw [BitVec.getLsbD_setWidth, BitVec.testBit_toNat, Nat.zero_add]
  have hlo : (-0x07FFFFFF#64).toInt = -0x07FFFFFF := by decide
  have hhi : (0x07FFFFFF#64).toInt = 0x07FFFFFF := by decide
  unfold adjustBr26
  simp only [BitVec.slt_iff_toInt_lt, hlo, hhi, hfield]
  split_ifs with hr
  · simp only [Except.ok.injEq, Prod.mk.injEq, and_true, distance]
    constructor
    · rintro rfl
      exact ⟨rfl, hr⟩
    · rintro ⟨rfl, _⟩
      rfl
  · simp only [false_iff, distance]
    exact fun h => hr h.2

lemma adrp_eq_setField (instruction : BitVec 32) (p : BitVec 64) :
    (instruction &&& 0x9F00001F#32) ||| ((p <<< 29).setWidth 32 &&& 0x60000000#32) |||
        ((p <<< 3).setWidth 32 &&& 0x00FFFFE0#32) =
      setField (setField instruction 29 2 p.toNat) 5 19 (p.toNat / 4) := by
  have hlow : (instruction &&& 0x9FFFFFFF#32) ||| ((p <<< 29).setWidth 32 &&& 0x60000000#32) =
      setField instruction 29 2 p.toNat := by
    apply mask_or_eq_setField (by decide) (by decide)
    intro i hi
    have hin : 29 + i < 64 := by omega
    rw [BitVec.getLsbD_setWidth, BitVec.getLsbD_shiftLeft, BitVec.testBit_toNat,
      Nat.add_sub_cancel_left]
    simp [hin]
  have hhigh : (setField instruction 29 2 p.toNat &&& 0xFF00001F#32) |||
      ((p <<< 3).setWidth 32 &&& 0x00FFFFE0#32) =
      setField (setField instruction 29 2 p.toNat) 5 19 (p.toNat / 4) := by
    apply mask_or_eq_setField (by decide) (by decide)
    intro i hi
    have hsub : 5 + i - 3 = 2 + i := by omega
    have hin : 5 + i < 64 := by omega
    have hlow : ¬5 + i < 3 := by omega
    have hdiv : (p.toNat / 4).testBit i = p.getLsbD (2 + i) := by
      have h4 : (4 : Nat) = 2 ^ 2 := rfl
      rw [h4, Nat.testBit_div_two_pow, BitVec.testBit_toNat, Nat.add_comm]
    rw [BitVec.getLsbD_setWidth, BitVec.getLsbD_shiftLeft, hdiv, hsub]
    simp [hin, hlow]
  rw [← hhigh, ← hlow]
  congr 1
  apply BitVec.eq_of_getLsbD_eq
  intro i hi
  interval_cases i <;> simp

lemma imm21_setField (instruction : BitVec 32) (p : Nat) :
    imm21 (setField (setField instruction 29 2 p) 5 19 (p / 4)) = p % 2 ^ 21 := by
  rw [imm21, getField_setField_same _ (by omega), getField_setField_apart _ (by omega),
    getField_setField_same _ (by omega)]
  omega

lemma adjustAdrp_eq_ok {fromNew toNew : BitVec 64} {instruction w : BitVec 32}
    (h : isAdrp instruction) :
    adjustAdrp fromNew toNew instruction = .ok (w, none) ↔
      w = setField (setField instruction 29 2
          ((pageOf toNew - pageOf fromNew).sshiftRight 12).toNat) 5 19
          (((pageOf toNew - pageOf fromNew).sshiftRight 12).toNat / 4) ∧
        -2097151 ≤ distance (pageOf fromNew) (pageOf toNew) / 4096 ∧
        distance (pageOf fromNew) (pageOf toNew) / 4096 ≤ 2097151 := by
  have hlo : (-2097151#64).toInt = -2097151 := by decide
  have hhi : (2097151#64).toInt = 2097151 := by decide
  have hshift : (pageOf toNew - pageOf fromNew).toInt >>> (12 : Nat) =
      (pageOf toNew - pageOf fromNew).toInt / 4096 := by
    rw [Int.shiftRight_eq_div_pow]
    rfl
  unfold adjustAdrp
  simp only [h, if_true, BitVec.slt_iff_toInt_lt, hlo, hhi, adrp_eq_setField,
    BitVec.toInt_sshiftRight, hshift, distance]
  split_ifs with hr
  · simp only [false_iff]
    omega
  · simp only [Except.ok.injEq, Prod.mk.injEq, and_true]
    constructor
    · rintro rfl
      exact ⟨rfl, by omega⟩
    · rintro ⟨rfl, _⟩
      rfl

lemma putImm12_eq_setField {instruction newAddend : BitVec 32} (h : newAddend.toNat < 4096) :
    putImm12 instruction newAddend = setField instruction 10 12 newAddend.toNat := by
  have hmask : (newAddend <<< 10) &&& 0x003FFC00#32 = newAddend <<< 10 := by
    apply BitVec.eq_of_getLsbD_eq
    intro i hi
    have hput : (0x003FFC00#32).getLsbD i = (decide (10 ≤ i) && decide (i < 22)) := by
      interval_cases i <;> rfl
    rw [BitVec.getLsbD_and, BitVec.getLsbD_shiftLeft, hput]
    by_cases hlo : i < 10
    · simp [hlo]
    · by_cases hin : i < 22
      · simp [hin, Nat.le_of_not_lt hlo]
      · have hpow : newAddend.toNat < 2 ^ 12 := h
        have hge : 12 ≤ i - 10 := by omega
        have hbit : newAddend.getLsbD (i - 10) = false := getLsbD_of_toNat_lt hpow hge
        simp [hbit]
  rw [putImm12, ← hmask]
  apply mask_or_eq_setField (by decide) (by decide)
  intro i hi
  have hlow : ¬10 + i < 10 := by omega
  rw [BitVec.getLsbD_shiftLeft, BitVec.testBit_toNat, Nat.add_sub_cancel_left]
  simp [hlow]

lemma off12Scale_eq_two_pow (instruction : BitVec 32) :
    ∃ k, k ≤ 4 ∧ off12Scale instruction = 2 ^ k := by
  unfold off12Scale
  split_ifs
  · exact ⟨4, by omega, rfl⟩
  · exact ⟨0, by omega, rfl⟩
  · exact ⟨1, by omega, rfl⟩
  · exact ⟨2, by omega, rfl⟩
  · exact ⟨3, by omega, rfl⟩

lemma adjustLoadStore_eq_ok {newPageOffset instruction w : BitVec 32}
    (hpage : newPageOffset.toNat < 4096)
    (h : adjustLoadStore newPageOffset instruction = .ok (w, none)) :
    ∃ v, v < 4096 ∧ w = setField instruction 10 12 v ∧
      v * off12Scale instruction = newPageOffset.toNat := by
  obtain ⟨k, hk, hscale⟩ := off12Scale_eq_two_pow instruction
  simp only [adjustLoadStore, hscale] at h ⊢
  have hpow : (2 : Nat) ^ k ≤ 16 := Nat.pow_le_pow_right (by omega) hk
  have hpos : 0 < 2 ^ k := Nat.two_pow_pos k
  split_ifs at h with hone hlow hout hsixteen
  · simp only [Except.ok.injEq, Prod.mk.injEq, and_true] at h
    refine ⟨newPageOffset.toNat, hpage, ?_, by rw [hone, Nat.mul_one]⟩
    rw [← h, putImm12_eq_setField hpage]
  · simp at h
  · simp only [Except.ok.injEq, Prod.mk.injEq, and_true] at h
    have hdiv : (newPageOffset / BitVec.ofNat 32 (2 ^ k)).toNat = newPageOffset.toNat / 2 ^ k := by
      rw [BitVec.toNat_udiv, BitVec.toNat_ofNat, Nat.mod_eq_of_lt (by omega)]
    have hmod : newPageOffset.toNat % 2 ^ k = 0 := by
      have hand := congrArg BitVec.toNat (not_not.mp hlow)
      rw [BitVec.toNat_and, BitVec.toNat_ofNat, Nat.mod_eq_of_lt (by omega),
        Nat.and_two_pow_sub_one_eq_mod] at hand
      exact hand
    have hlt : newPageOffset.toNat / 2 ^ k < 4096 := lt_of_le_of_lt (Nat.div_le_self _ _) hpage
    refine ⟨newPageOffset.toNat / 2 ^ k, hlt, ?_, Nat.div_mul_cancel (Nat.dvd_of_mod_eq_zero hmod)⟩
    rw [← h, putImm12_eq_setField (by rw [hdiv]; exact hlt), hdiv]

lemma setField_imm12_and {instruction m : BitVec 32} (v : Nat) (hm : 0xFFC003FF#32 &&& m = m) :
    setField instruction 10 12 v &&& m = instruction &&& m :=
  and_eq_and_of_subset (setField_and v (by decide)) hm

lemma off12_setField {instruction : BitVec 32} {v : Nat} (hv : v < 4096) :
    off12 (setField instruction 10 12 v) =
      if isLoadStoreImm12 instruction then some (v * off12Scale instruction)
      else if isAddImm12 instruction then some v else none := by
  have hfield : getField (setField instruction 10 12 v) 10 12 = v := by
    have hpow : v < 2 ^ 12 := hv
    rw [getField_setField_same _ (by omega), Nat.mod_eq_of_lt hpow]
  have hls : isLoadStoreImm12 (setField instruction 10 12 v) = isLoadStoreImm12 instruction := by
    rw [isLoadStoreImm12, isLoadStoreImm12, setField_imm12_and v (by decide)]
  have hadd : isAddImm12 (setField instruction 10 12 v) = isAddImm12 instruction := by
    rw [isAddImm12, isAddImm12, setField_imm12_and v (by decide)]
  have hscale : off12Scale (setField instruction 10 12 v) = off12Scale instruction := by
    have h1 : setField instruction 10 12 v &&& 0xC0000000#32 = instruction &&& 0xC0000000#32 :=
      setField_imm12_and v (by decide)
    have h2 : setField instruction 10 12 v &&& 0x04800000#32 = instruction &&& 0x04800000#32 :=
      setField_imm12_and v (by decide)
    simp only [off12Scale, h1, h2]
  rw [off12, hls, hadd, hscale, hfield]

/-- A page offset that is rewritten at all is the new one. -/
lemma adjustOff12_eq_ok {fromNew toNew : BitVec 64} {instruction w : BitVec 32}
    (hold : (off12 instruction).isSome)
    (h : adjustOff12 fromNew toNew instruction = .ok (w, none)) :
    ∃ v, w = setField instruction 10 12 v ∧ off12 w = some (toNew.toNat % 4096) := by
  have hpage : ((toNew &&& 0xFFF#64).setWidth 32).toNat = toNew.toNat % 4096 := by
    have hmask : toNew.toNat &&& 0xFFF = toNew.toNat % 2 ^ 12 :=
      Nat.and_two_pow_sub_one_eq_mod _ 12
    rw [BitVec.toNat_setWidth, BitVec.toNat_and, BitVec.toNat_ofNat]
    norm_num [hmask]
    omega
  have hlt : toNew.toNat % 4096 < 4096 := Nat.mod_lt _ (by omega)
  unfold adjustOff12 at h
  by_cases hls : isLoadStoreImm12 instruction
  · simp only [hls, if_true] at h
    obtain ⟨v, hv, rfl, hmul⟩ := adjustLoadStore_eq_ok (by rw [hpage]; exact hlt) h
    refine ⟨v, rfl, ?_⟩
    rw [off12_setField hv, if_pos hls, hmul, hpage]
  · by_cases hadd : isAddImm12 instruction
    · simp only [hls, hadd, if_true, Bool.false_eq_true, if_false] at h
      by_cases hshift : instruction &&& 0x00C00000#32 ≠ 0
      · rw [if_pos hshift] at h
        cases h
      · rw [if_neg hshift] at h
        have hw : putImm12 instruction ((toNew &&& 0xFFF#64).setWidth 32) = w :=
          congrArg Prod.fst (Except.ok.inj h)
        rw [putImm12_eq_setField (by rw [hpage]; exact hlt), hpage] at hw
        refine ⟨toNew.toNat % 4096, hw.symm, ?_⟩
        rw [← hw, off12_setField hlt, if_neg hls, if_pos hadd]
    · simp [off12, hls, hadd] at hold

/-! ### Single references -/

section Single

variable {A : Adjustor} {r : Reference} {s : AdjustState} {fromOld toOld imageStartOld : BitVec 64}

lemma preserved_eq : Preserved A r s ↔
    ((adjustKind A r s).1.diag = none →
      Resolves r.imageStartAddress r.kind (adjustKind A r s).1.mem r.mappedAddr r.fromNewAddress
        r.toNewAddress ∧
      Kept r.kind s.mem (adjustKind A r s).1.mem r.mappedAddr) := by
  rw [Preserved, adjustReference_mem, adjustReference_diag]

/-- A rewriting kind: every word that is let through has to reach the target. -/
lemma preserved_of_rewriteAt {f : BitVec 32 → Rewrite} {s' : AdjustState}
    (hkind : adjustKind A r s = rewriteAt r s' f) (hs : s'.diag = none) (hmem : s'.mem = s.mem)
    (hw : byteWidth r.kind = 4) :
    Preserved A r s ↔ ∀ w, f (s.get32 r.mappedAddr) = .ok (w, none) →
      ResolvesWord r.imageStartAddress r.kind w r.fromNewAddress r.toNewAddress ∧
      w &&& ~~~operandBits r.kind = s.get32 r.mappedAddr &&& ~~~operandBits r.kind := by
  have hget : s'.get32 r.mappedAddr = s.get32 r.mappedAddr := by
    rw [AdjustState.get32, AdjustState.get32, hmem]
  have hiff := rewriteAt_iff (r := r) (f := f) (P := fun m =>
    Resolves r.imageStartAddress r.kind m r.mappedAddr r.fromNewAddress r.toNewAddress ∧
      Kept r.kind s'.mem m r.mappedAddr) hs
  simp only [resolves_store hw, kept_store hw, hget, hmem] at hiff
  rw [preserved_eq, hkind]
  exact hiff

lemma delta32_preserved_iff (hk : r.kind = .delta32) (hs : s.diag = none)
    (hmoves : Moves r fromOld toOld)
    (hold : Resolves imageStartOld r.kind s.mem r.mappedAddr fromOld toOld) :
    Preserved A r s ↔ Reaches r imageStartOld toOld := by
  have hwidth : byteWidth r.kind = 4 := by rw [hk]; rfl
  have hword := resolves_word hwidth hold
  rw [hk] at hword
  have hval : (s.get32 r.mappedAddr).signExtend 64 + r.adjust =
      r.toNewAddress - r.fromNewAddress := by
    rw [← hmoves.distance_eq, add_eq_iff_eq_sub.mp hword]
  have hkind : adjustKind A r s = rewriteAt r s (adjustDelta32 r.adjust) := by
    simp only [adjustKind, hk]
  have hfit := @signExtend_setWidth_eq_iff (r.toNewAddress - r.fromNewAddress)
  rw [preserved_of_rewriteAt hkind hs rfl hwidth]
  simp only [adjustDelta32_eq_ok hval, ResolvesWord, hk, Reaches, distance, operandBits,
    add_eq_iff_eq_sub, BitVec.not_allOnes, BitVec.and_zero, and_true]
  constructor
  · intro h
    constructor
    · intro hd
      have := hfit.mp (h _ ⟨rfl, by omega⟩)
      omega
    · intro hd
      have := hfit.mp (h _ ⟨rfl, by omega⟩)
      omega
  · rintro hd w ⟨rfl, hr⟩
    apply hfit.mpr
    omega

lemma delta64_preserved (hk : r.kind = .delta64) (hmoves : Moves r fromOld toOld)
    (hold : Resolves imageStartOld r.kind s.mem r.mappedAddr fromOld toOld) : Preserved A r s := by
  rw [hk] at hold
  have hval : s.get64 r.mappedAddr + r.adjust = r.toNewAddress - r.fromNewAddress := by
    rw [← hmoves.distance_eq, add_left_inj]
    exact add_eq_iff_eq_sub.mp hold
  have hload : (load 8 (store 8 s.mem r.mappedAddr (r.toNewAddress - r.fromNewAddress))
      r.mappedAddr : BitVec 64) = r.toNewAddress - r.fromNewAddress := load_store_same 8 _ _ _
  rw [preserved_eq]
  intro _
  simp only [adjustKind, hk, AdjustState.set64, hval, Resolves]
  refine ⟨?_, ?_, ?_⟩
  · rw [hload]
    abel
  · exact fun x hx => store_apply_of_not_inWord hx
  · simp [otherBits, operandBits]

lemma imageOff32_preserved_iff (hk : r.kind = .imageOff32) (hs : s.diag = none)
    (hold : Resolves imageStartOld r.kind s.mem r.mappedAddr fromOld toOld) :
    Preserved A r s ↔ Reaches r imageStartOld toOld := by
  have hwidth : byteWidth r.kind = 4 := by rw [hk]; rfl
  have hword := resolves_word hwidth hold
  rw [hk] at hword
  by_cases hadj : r.adjust = 0
  · -- the value stays, so the target has to move with the start of the image
    have hstay : adjustKind A r s = (s, .broke (some r.kind) 0) := by
      simp [adjustKind, hk, hadj]
    have hkeep : Kept AdjKind.imageOff32 s.mem s.mem r.mappedAddr := kept_refl _ _ _
    have hnew : Resolves r.imageStartAddress AdjKind.imageOff32 s.mem r.mappedAddr
        r.fromNewAddress r.toNewAddress ↔
        r.toNewAddress - toOld = r.imageStartAddress - imageStartOld := by
      have hload : (s.get32 r.mappedAddr).setWidth 64 = toOld - imageStartOld :=
        add_eq_iff_eq_sub.mp hword
      change r.imageStartAddress + (s.get32 r.mappedAddr).setWidth 64 = r.toNewAddress ↔ _
      rw [hload, ← add_sub_assoc, sub_eq_iff_eq_add, eq_comm, sub_eq_iff_eq_add,
        sub_add_eq_add_sub, eq_sub_iff_add_eq]
    rw [preserved_eq, hstay]
    simp only [Reaches, hk, hadj, if_true, hs, forall_const, hnew, hkeep, and_true]
  · have hkind : adjustKind A r s = rewriteAt r s (fun _ => adjustImageOff32 r) := by
      simp only [adjustKind, hk, hadj, if_false]
    rw [preserved_of_rewriteAt hkind hs rfl hwidth]
    simp only [ResolvesWord, hk, Reaches, hadj, if_false, adjustImageOff32, operandBits,
      add_eq_iff_eq_sub, BitVec.not_allOnes, BitVec.and_zero, and_true]
    by_cases hend : r.imageEndAddress < r.toNewAddress - r.imageStartAddress
    · simp [hend]
    · have hlt := (r.toNewAddress - r.imageStartAddress).isLt
      simp only [hend, if_false, or_false, Except.ok.injEq, Prod.mk.injEq, and_true, forall_eq']
      rw [← BitVec.toNat_inj, BitVec.toNat_setWidth, BitVec.toNat_setWidth]
      omega

lemma bmod_sshiftRight {d : BitVec 64} {k len : Nat} (h : len ≤ 64) :
    Int.bmod (((d.sshiftRight k).toNat % 2 ^ len : Nat) : Int) (2 ^ len) =
      Int.bmod (d.toInt / 2 ^ k) (2 ^ len) := by
  rw [bmod_toNat_mod _ h, BitVec.toInt_sshiftRight, Int.shiftRight_eq_div_pow]
  push_cast
  rfl

lemma br26_preserved_iff (hk : r.kind = .arm64Br26) (hs : s.diag = none)
    (hmoves : Moves r fromOld toOld)
    (hold : Resolves imageStartOld r.kind s.mem r.mappedAddr fromOld toOld) :
    Preserved A r s ↔ Reaches r imageStartOld toOld := by
  have hwidth : byteWidth r.kind = 4 := by rw [hk]; rfl
  have hword := resolves_word hwidth hold
  rw [hk] at hword
  obtain ⟨hbranch, hold26⟩ := hword
  by_cases hadj : r.adjust = 0
  · -- both ends moved by the same amount, and the instruction stays
    have hstay : adjustKind A r s = (s, .broke (some r.kind) 0) := by
      simp only [adjustKind, hk, hadj, if_true]
    have hsame := hmoves.distance_eq
    rw [hadj, add_zero, sub_eq_iff_eq_add] at hsame
    have hnew : ResolvesWord r.imageStartAddress AdjKind.arm64Br26 (s.get32 r.mappedAddr)
        r.fromNewAddress r.toNewAddress := by
      refine ⟨hbranch, ?_⟩
      rw [hsame, add_comm, add_left_inj] at hold26
      rw [hold26]
      abel
    rw [preserved_eq, hstay]
    simp only [Reaches, hk, hadj, true_or, iff_true]
    exact fun _ => ⟨hnew, kept_refl _ _ _⟩
  · have hkind : adjustKind A r s =
        rewriteAt r s (adjustBr26 r.fromNewAddress r.toNewAddress) := by
      simp only [adjustKind, hk, hadj, if_false]
    rw [preserved_of_rewriteAt hkind hs rfl hwidth]
    simp only [adjustBr26_eq_ok, hk, Reaches, hadj, false_or]
    have hother : ∀ v, setField (s.get32 r.mappedAddr) 0 26 v &&& ~~~operandBits .arm64Br26 =
        s.get32 r.mappedAddr &&& ~~~operandBits .arm64Br26 :=
      fun v => setField_and v (by decide)
    have hop : ∀ v, isBranch26 (setField (s.get32 r.mappedAddr) 0 26 v) := by
      intro v
      rw [isBranch26, and_eq_and_of_subset (hother v) (by decide)]
      exact hbranch
    constructor
    · intro h
      by_contra hno
      push Not at hno
      obtain ⟨hdvd, hlo, hhi⟩ := hno
      obtain ⟨⟨-, hnew⟩, -⟩ := h _ ⟨rfl, hlo, hhi⟩
      rw [getField_setField_same _ (by omega), bmod_sshiftRight (by omega)] at hnew
      have hb : -2 ^ 25 ≤ Int.bmod ((r.toNewAddress - r.fromNewAddress).toInt / 2 ^ 2) (2 ^ 26) ∧
          Int.bmod ((r.toNewAddress - r.fromNewAddress).toInt / 2 ^ 2) (2 ^ 26) < 2 ^ 25 :=
        bmod_two_pow_bounds _ 25
      rw [add_ofInt_eq_iff (by omega) (by omega)] at hnew
      exact hdvd ⟨_, hnew.symm⟩
    · rintro hd w ⟨rfl, hlo, hhi⟩
      refine ⟨⟨hop _, ?_⟩, hother _⟩
      have h4 : 4 ∣ distance r.fromNewAddress r.toNewAddress := by omega
      rw [distance] at hlo hhi h4
      rw [getField_setField_same _ (by omega), bmod_sshiftRight (by omega),
        (bmod_eq_self_iff 25).mpr (by omega), add_ofInt_eq_iff (by omega) (by omega), distance]
      omega

lemma page_distance_dvd (x y : BitVec 64) : 4096 ∣ distance (pageOf x) (pageOf y) := by
  have hpage : ∀ z : BitVec 64, (pageOf z).toNat % 4096 = 0 := by
    intro z
    have hlow : (pageOf z).setWidth 12 = 0#12 := by
      apply BitVec.eq_of_getLsbD_eq
      intro i hi
      rw [pageOf, BitVec.getLsbD_setWidth, BitVec.getLsbD_and]
      interval_cases i <;> simp
    have hnat := congrArg BitVec.toNat hlow
    rwa [BitVec.toNat_setWidth] at hnat
  have hx := hpage x
  have hy := hpage y
  have hsub : (pageOf y - pageOf x).toNat % 4096 = 0 := by
    rw [BitVec.toNat_sub]
    omega
  rw [distance, BitVec.toInt_eq_toNat_cond]
  split
  · omega
  · omega

lemma adrp_preserved_iff (hk : r.kind = .arm64Adrp) (hs : s.diag = none)
    (hold : Resolves imageStartOld r.kind s.mem r.mappedAddr fromOld toOld) :
    Preserved A r s ↔ Reaches r imageStartOld toOld := by
  have hwidth : byteWidth r.kind = 4 := by rw [hk]; rfl
  have hword := resolves_word hwidth hold
  rw [hk] at hword
  have hadrp : isAdrp (s.get32 r.mappedAddr) := hword.1
  have hkind : adjustKind A r s =
      rewriteAt r (noteLOH r s) (adjustAdrp r.fromNewAddress r.toNewAddress) := by
    simp only [adjustKind, hk]
  rw [preserved_of_rewriteAt hkind (by simp [hs]) (by simp) hwidth]
  simp only [adjustAdrp_eq_ok hadrp, hk, Reaches]
  have hother : ∀ u v, setField (setField (s.get32 r.mappedAddr) 29 2 u) 5 19 v &&&
      ~~~operandBits .arm64Adrp = s.get32 r.mappedAddr &&& ~~~operandBits .arm64Adrp := by
    intro u v
    rw [setField_and v (by decide), setField_and u (by decide)]
  have hop : ∀ u v, isAdrp (setField (setField (s.get32 r.mappedAddr) 29 2 u) 5 19 v) := by
    intro u v
    rw [isAdrp, and_eq_and_of_subset (hother u v) (by decide)]
    exact hadrp
  have hdvd := page_distance_dvd r.fromNewAddress r.toNewAddress
  have hreach : ResolvesWord r.imageStartAddress .arm64Adrp
      (setField (setField (s.get32 r.mappedAddr) 29 2
        ((pageOf r.toNewAddress - pageOf r.fromNewAddress).sshiftRight 12).toNat) 5 19
        (((pageOf r.toNewAddress - pageOf r.fromNewAddress).sshiftRight 12).toNat / 4))
      r.fromNewAddress r.toNewAddress ↔
      -2 ^ 20 ≤ distance (pageOf r.fromNewAddress) (pageOf r.toNewAddress) / 4096 ∧
        distance (pageOf r.fromNewAddress) (pageOf r.toNewAddress) / 4096 < 2 ^ 20 := by
    have himm : Int.bmod ((((pageOf r.toNewAddress - pageOf r.fromNewAddress).sshiftRight 12).toNat
        % 2 ^ 21 : Nat) : Int) (2 ^ 21) = Int.bmod
          (distance (pageOf r.fromNewAddress) (pageOf r.toNewAddress) / 4096) (2 ^ 21) :=
      bmod_sshiftRight (by omega)
    have hb : -2 ^ 20 ≤ Int.bmod
          (distance (pageOf r.fromNewAddress) (pageOf r.toNewAddress) / 4096) (2 ^ 21) ∧
        Int.bmod (distance (pageOf r.fromNewAddress) (pageOf r.toNewAddress) / 4096) (2 ^ 21) <
          2 ^ 20 := bmod_two_pow_bounds _ 20
    have hself : Int.bmod
          (distance (pageOf r.fromNewAddress) (pageOf r.toNewAddress) / 4096) (2 ^ 21) =
          distance (pageOf r.fromNewAddress) (pageOf r.toNewAddress) / 4096 ↔ _ :=
      bmod_eq_self_iff 20
    simp only [ResolvesWord, hop, true_and]
    rw [imm21_setField, himm, add_ofInt_eq_iff (by omega) (by omega), ← hself]
    omega
  constructor
  · intro h
    by_contra hno
    push Not at hno
    obtain ⟨hout, hhi, hlo⟩ := hno
    have hin := hreach.mp (h _ ⟨rfl, hlo, hhi⟩).1
    omega
  · rintro hd w ⟨rfl, hlo, hhi⟩
    exact ⟨hreach.mpr (by omega), hother _ _⟩

lemma off12_preserved (hk : r.kind = .arm64Off12) (hs : s.diag = none)
    (hold : Resolves imageStartOld r.kind s.mem r.mappedAddr fromOld toOld) : Preserved A r s := by
  have hwidth : byteWidth r.kind = 4 := by rw [hk]; rfl
  have hword := resolves_word hwidth hold
  rw [hk] at hword
  have hsome : (off12 (s.get32 r.mappedAddr)).isSome := by
    simp only [ResolvesWord] at hword
    rw [hword]
    rfl
  have hkind : adjustKind A r s =
      rewriteAt r (noteLOH r s) (adjustOff12 r.fromNewAddress r.toNewAddress) := by
    simp only [adjustKind, hk]
  rw [preserved_of_rewriteAt hkind (by simp [hs]) (by simp) hwidth, hk]
  intro w hw
  obtain ⟨v, rfl, hoff⟩ := adjustOff12_eq_ok hsome hw
  exact ⟨hoff, setField_and v (by decide)⟩

end Single

/-! ### Pairs -/

/-- Setting the immediate of an instruction changes nothing else of it. -/
structure MovCodec.Lawful (c : MovCodec) (kind : AdjKind) : Prop where
  getWord_setWord : ∀ i w, c.getWord (c.setWord i w) = w
  setWord_other : ∀ i w, c.setWord i w &&& ~~~operandBits kind = i &&& ~~~operandBits kind
  isMovw_setWord : ∀ i w, c.isMovw (c.setWord i w) = c.isMovw i
  isMovt_setWord : ∀ i w, c.isMovt (c.setWord i w) = c.isMovt i
  not_isMovt : ∀ i, c.isMovw i → c.isMovt i = false

/-- A mask of the instruction bits sees neither half of the immediate. -/
lemma beq_and_congr {i j keep m p : BitVec 32} (h : i &&& keep = j &&& keep)
    (hm : keep &&& m = m) : (i &&& m == p) = (j &&& m == p) := by
  rw [and_eq_and_of_subset h hm]

lemma not_both_of_ne {i m p q : BitVec 32} (hpq : p ≠ q) (h : (i &&& m == p) = true) :
    (i &&& m == q) = false := by
  rw [beq_iff_eq] at h
  rw [h]
  exact beq_eq_false_iff_ne.mpr hpq

lemma thumbMov_lawful : thumbMov.Lawful .thumbMovwMovt := by
  have hother : ∀ (i : BitVec 32) (w : BitVec 16), setThumbWord i w &&& 0x8F00FBF0#32 =
      i &&& 0x8F00FBF0#32 := by
    intro i w
    apply BitVec.eq_of_getLsbD_eq
    intro j hj
    interval_cases j <;> simp [setThumbWord]
  constructor
  · intro i w
    change getThumbWord (setThumbWord i w) = w
    apply BitVec.eq_of_getLsbD_eq
    intro j hj
    interval_cases j <;> simp [getThumbWord, setThumbWord]
  · exact hother
  · exact fun i w => beq_and_congr (hother i w) (by decide)
  · exact fun i w => beq_and_congr (hother i w) (by decide)
  · exact fun i h => not_both_of_ne (by decide) h

lemma armMov_lawful : armMov.Lawful .armMovwMovt := by
  have hother : ∀ (i : BitVec 32) (w : BitVec 16), setArmWord i w &&& 0xFFF0F000#32 =
      i &&& 0xFFF0F000#32 := by
    intro i w
    apply BitVec.eq_of_getLsbD_eq
    intro j hj
    interval_cases j <;> simp [setArmWord]
  constructor
  · intro i w
    change getArmWord (setArmWord i w) = w
    apply BitVec.eq_of_getLsbD_eq
    intro j hj
    interval_cases j <;> simp [getArmWord, setArmWord]
  · exact hother
  · exact fun i w => beq_and_congr (hother i w) (by decide)
  · exact fun i w => beq_and_congr (hother i w) (by decide)
  · exact fun i h => not_both_of_ne (by decide) h

/-- Two references that the builder sees one after the other as the halves of one word. -/
structure MovPair (c : MovCodec) (r₁ r₂ : Reference) : Prop where
  kind : c = thumbMov ∧ r₁.kind = .thumbMovwMovt ∨ c = armMov ∧ r₁.kind = .armMovwMovt
  sameKind : r₂.kind = r₁.kind
  sameTarget : r₂.toNewAddress = r₁.toNewAddress

/-- A pair that is adjusted without an error makes the new distance to its target. -/
def PairPreserved (A : Adjustor) (c : MovCodec) (r₁ r₂ : Reference) (anchor : BitVec 32)
    (s : AdjustState) : Prop :=
  let s' := adjustReference A r₂ (adjustReference A r₁ s)
  s'.diag = none →
    PairResolves c s'.mem r₁.mappedAddr r₂.mappedAddr anchor r₂.fromNewAddress r₂.toNewAddress ∧
    (∀ x, ¬InWord 4 r₁.mappedAddr x → ¬InWord 4 r₂.mappedAddr x → s'.mem x = s.mem x) ∧
    otherBits r₁.kind s'.mem r₁.mappedAddr = otherBits r₁.kind s.mem r₁.mappedAddr ∧
    otherBits r₂.kind s'.mem r₂.mappedAddr = otherBits r₂.kind s.mem r₂.mappedAddr

lemma MovPair.lawful {c : MovCodec} {r₁ r₂ : Reference} (h : MovPair c r₁ r₂) :
    c.Lawful r₁.kind := by
  rcases h.kind with ⟨rfl, hk⟩ | ⟨rfl, hk⟩
  · rw [hk]
    exact thumbMov_lawful
  · rw [hk]
    exact armMov_lawful

lemma MovPair.adjustKind_eq {c : MovCodec} {r₁ r₂ r : Reference} (h : MovPair c r₁ r₂)
    (hr : r.kind = r₁.kind) (A : Adjustor) (s : AdjustState) :
    adjustKind A r s = adjustMov r s c := by
  rcases h.kind with ⟨rfl, hk⟩ | ⟨rfl, hk⟩
  all_goals simp only [adjustKind, hr, hk]

lemma setWidth_sub (x y : BitVec 64) :
    (x - y).setWidth 32 = x.setWidth 32 - y.setWidth 32 := by
  apply BitVec.eq_of_toNat_eq
  simp only [BitVec.toNat_setWidth, BitVec.toNat_sub]
  omega

lemma append_halves (full : BitVec 32) : full.extractLsb' 16 16 ++ full.setWidth 16 = full := by
  apply BitVec.eq_of_getLsbD_eq
  intro i hi
  rw [BitVec.getLsbD_append]
  by_cases hlow : i < 16
  · simp [hlow]
  · have hsub : i - 16 < 16 := by omega
    have hadd : 16 + (i - 16) = i := by omega
    simp [hlow, hsub, hadd]

/-- The rewritten instructions are a pair again, in the same order, and make the old word
plus the adjustment. -/
lemma adjustMovPair_spec {c : MovCodec} {kind : AdjKind} (hc : c.Lawful kind)
    (adjust : BitVec 64) {i₁ i₂ low high : BitVec 32}
    (hpair : i₁ = low ∧ i₂ = high ∨ i₁ = high ∧ i₂ = low) (hlow : c.isMovw low)
    (hhigh : c.isMovt high) :
    ∃ j₁ j₂ low' high', adjustMovPair c adjust i₁ i₂ = some (j₁, j₂) ∧
      (j₁ = low' ∧ j₂ = high' ∨ j₁ = high' ∧ j₂ = low') ∧ c.isMovw low' ∧ c.isMovt high' ∧
      c.getWord high' ++ c.getWord low' =
        (c.getWord high ++ c.getWord low) + adjust.setWidth 32 ∧
      j₁ &&& ~~~operandBits kind = i₁ &&& ~~~operandBits kind ∧
      j₂ &&& ~~~operandBits kind = i₂ &&& ~~~operandBits kind := by
  have hnot : c.isMovw high = false := by
    by_contra hw
    rw [Bool.not_eq_false] at hw
    rw [hc.not_isMovt high hw] at hhigh
    cases hhigh
  let full := (c.getWord high ++ c.getWord low) + adjust.setWidth 32
  refine Or.elim hpair ?_ ?_
  · rintro ⟨rfl, rfl⟩
    refine ⟨c.setWord i₁ (full.setWidth 16), c.setWord i₂ (full.extractLsb' 16 16), _, _, ?_,
      Or.inl ⟨rfl, rfl⟩, ?_, ?_, ?_, hc.setWord_other _ _, hc.setWord_other _ _⟩
    · simp only [adjustMovPair, hlow, hhigh, Bool.and_self, if_true, full]
    · rw [hc.isMovw_setWord, hlow]
    · rw [hc.isMovt_setWord, hhigh]
    · rw [hc.getWord_setWord, hc.getWord_setWord, append_halves]
  · rintro ⟨rfl, rfl⟩
    refine ⟨c.setWord i₁ (full.extractLsb' 16 16), c.setWord i₂ (full.setWidth 16), _, _, ?_,
      Or.inr ⟨rfl, rfl⟩, ?_, ?_, ?_, hc.setWord_other _ _, hc.setWord_other _ _⟩
    · simp only [adjustMovPair, hlow, hhigh, hnot, Bool.and_self, Bool.false_and,
        Bool.false_eq_true, if_true, if_false, full]
    · rw [hc.isMovw_setWord, hlow]
    · rw [hc.isMovt_setWord, hhigh]
    · rw [hc.getWord_setWord, hc.getWord_setWord, append_halves]

lemma pair_preserved {A : Adjustor} {c : MovCodec} {r₁ r₂ : Reference} {s : AdjustState}
    {anchor : BitVec 32} {fromOld toOld : BitVec 64} (hpair : MovPair c r₁ r₂)
    (hfirst : s.lastKind ≠ some r₁.kind) (hmoves : Moves r₂ fromOld toOld)
    (hold : PairResolves c s.mem r₁.mappedAddr r₂.mappedAddr anchor fromOld toOld) :
    PairPreserved A c r₁ r₂ anchor s := by
  obtain ⟨hapart, low, high, horder, hlow, hhigh, hword⟩ := hold
  have hone : adjustReference A r₁ s =
      { s with
        lastKind := some r₁.kind
        lastToNewAddress := r₁.toNewAddress
        lastMappedAddr32 := r₁.mappedAddr } := by
    unfold adjustReference
    rw [hpair.adjustKind_eq rfl]
    simp only [adjustMov, hfirst, if_false]
  obtain ⟨j₁, j₂, low', high', hrun, horder', hlow', hhigh', hword', hother₁, hother₂⟩ :=
    adjustMovPair_spec hpair.lawful r₂.adjust horder hlow hhigh
  have htwo : (adjustReference A r₂ (adjustReference A r₁ s)).mem =
      store 4 (store 4 s.mem r₁.mappedAddr j₁) r₂.mappedAddr j₂ := by
    rw [adjustReference_mem, hone, hpair.adjustKind_eq hpair.sameKind]
    simp only [adjustMov, hpair.sameKind, hpair.sameTarget, if_true, AdjustState.get32,
      AdjustState.set32]
    rw [hrun]
  have hload₁ : (load 4 (store 4 (store 4 s.mem r₁.mappedAddr j₁) r₂.mappedAddr j₂)
      r₁.mappedAddr : BitVec 32) = j₁ := by
    rw [load_store_apart hapart.symm]
    exact load_store_same 4 _ _ _
  have hload₂ : (load 4 (store 4 (store 4 s.mem r₁.mappedAddr j₁) r₂.mappedAddr j₂)
      r₂.mappedAddr : BitVec 32) = j₂ := load_store_same 4 _ _ _
  intro _
  rw [htwo]
  refine ⟨⟨hapart, low', high', ?_, hlow', hhigh', ?_⟩, ?_, ?_, ?_⟩
  · rw [hload₁, hload₂]
    exact horder'
  · -- both ends of the distance moved with their segments
    have hadj : r₂.adjust.setWidth 32 = (r₂.toNewAddress.setWidth 32 - toOld.setWidth 32) -
        (r₂.fromNewAddress.setWidth 32 - fromOld.setWidth 32) := by
      rw [hmoves, setWidth_sub, setWidth_sub, setWidth_sub]
    rw [hword', hadj, ← hword]
    abel
  · intro x hx₁ hx₂
    rw [store_apply_of_not_inWord hx₂, store_apply_of_not_inWord hx₁]
  · rw [otherBits, otherBits, hload₁, hother₁]
  · rw [otherBits, otherBits, hload₂, hpair.sameKind, hother₂]

/-! ### Every kind -/

/-- A reference keeps pointing at its target exactly when it `Reaches` it; a pair always does. -/
theorem adjustReference_preserves_iff (A : Adjustor) (s : AdjustState) (hdiag : s.diag = none) :
    (∀ (r : Reference) (imageStartOld fromOld toOld : BitVec 64), Moves r fromOld toOld →
      Resolves imageStartOld r.kind s.mem r.mappedAddr fromOld toOld →
      (Preserved A r s ↔ Reaches r imageStartOld toOld)) ∧
    (∀ (c : MovCodec) (r₁ r₂ : Reference) (anchor : BitVec 32) (fromOld toOld : BitVec 64),
      MovPair c r₁ r₂ → s.lastKind ≠ some r₁.kind → Moves r₂ fromOld toOld →
      PairResolves c s.mem r₁.mappedAddr r₂.mappedAddr anchor fromOld toOld →
      PairPreserved A c r₁ r₂ anchor s) := by
  constructor
  · intro r imageStartOld fromOld toOld hmoves hold
    cases hk : r.kind with
    | delta32 => exact delta32_preserved_iff hk hdiag hmoves hold
    | delta64 => simp [Reaches, hk, delta64_preserved hk hmoves hold]
    | imageOff32 => exact imageOff32_preserved_iff hk hdiag hold
    | arm64Adrp => exact adrp_preserved_iff hk hdiag hold
    | arm64Off12 => simp [Reaches, hk, off12_preserved hk hdiag hold]
    | arm64Br26 => exact br26_preserved_iff hk hdiag hmoves hold
    | _ =>
      rw [hk] at hold
      exact absurd hold id
  · intro c r₁ r₂ anchor fromOld toOld hpair hfirst hmoves hold
    exact pair_preserved hpair hfirst hmoves hold

/-- An `adrp` of the next page at 0, and a `movw` and a `movt` at 4 and 8 that make 16. -/
def threeInstructions : AdjustState where
  mem := fun x => if x = 3 then 0xB0 else if x = 4 then 0x10 else if x = 7 then 0xE3
    else if x = 10 then 0x40 else if x = 11 then 0xE3 else 0
  aslrTracker := .empty 0
  lohTracker := []
  diag := none
  lastMappedAddr32 := 0
  lastKind := none
  lastToNewAddress := 0

def cacheAdjustor : Adjustor := ⟨0x180000000, false, 0, false, true, [(0, 0x4000, 0x180000000)]⟩

/-- The `adrp` moved to the start of a cache, its target to `toNewAddress`. -/
def movedAdrp (toNewAddress : BitVec 64) : Reference where
  kind := .arm64Adrp
  mappedAddr := 0
  fromNewAddress := 0x180000000
  toNewAddress := toNewAddress
  adjust := (toNewAddress - 0x1000) - 0x180000000
  targetSlide := toNewAddress - 0x1000
  imageStartAddress := 0x180000000
  imageEndAddress := 0x180004000
  convertRebaseChains := false
  trackLOH := false

/-- One of the two moved instructions that make a distance. -/
def movedMov (mappedAddr : Nat) : Reference where
  kind := .armMovwMovt
  mappedAddr := mappedAddr
  fromNewAddress := 0x30000000 + BitVec.ofNat 64 mappedAddr
  toNewAddress := 0x38000020
  adjust := 0x8000000
  targetSlide := 0x38000000
  imageStartAddress := 0x30000000
  imageEndAddress := 0x30004000
  convertRebaseChains := false
  trackLOH := false

lemma movedAdrp_moves (toNewAddress : BitVec 64) : Moves (movedAdrp toNewAddress) 0 0x1000 := by
  simp [Moves, movedAdrp]

lemma movedAdrp_resolved (toNewAddress : BitVec 64) :
    Resolves 0 (movedAdrp toNewAddress).kind threeInstructions.mem
      (movedAdrp toNewAddress).mappedAddr 0 0x1000 := by
  change ResolvesWord 0 .arm64Adrp (load 4 threeInstructions.mem 0) 0 0x1000
  exact ⟨by decide, by decide⟩

theorem adjustReference_preserves_iff_near :
    threeInstructions.diag = none ∧ Preserved cacheAdjustor (movedAdrp 0x1F0000000) threeInstructions ∧
      PairPreserved cacheAdjustor armMov (movedMov 4) (movedMov 8) 8 threeInstructions := by
  have h := adjustReference_preserves_iff cacheAdjustor threeInstructions rfl
  refine ⟨rfl, ?_, ?_⟩
  · apply (h.1 _ _ _ _ (movedAdrp_moves _) (movedAdrp_resolved _)).mpr
    refine Or.inl ⟨by decide, by decide⟩
  · apply h.2 armMov (movedMov 4) (movedMov 8) 8 8 0x20 ⟨Or.inr ⟨rfl, rfl⟩, rfl, rfl⟩
    · simp [threeInstructions]
    · rw [Moves]
      decide
    · exact ⟨by decide, 0xE3000010#32, 0xE3400000#32, Or.inl ⟨by decide, by decide⟩, by decide,
        by decide, by decide⟩

/-- Moved 2^20 pages away, the `adrp` passes the check of its distance and points backwards. -/
theorem farAdrp_points_elsewhere :
    Moves (movedAdrp 0x280000000) 0 0x1000 ∧
      Resolves 0 (movedAdrp 0x280000000).kind threeInstructions.mem
        (movedAdrp 0x280000000).mappedAddr 0 0x1000 ∧
      ¬Preserved cacheAdjustor (movedAdrp 0x280000000) threeInstructions := by
  refine ⟨movedAdrp_moves _, movedAdrp_resolved _, ?_⟩
  rw [adrp_preserved_iff rfl rfl (movedAdrp_resolved _)]
  simp only [Reaches, movedAdrp]
  decide

end Dyld.Cache
