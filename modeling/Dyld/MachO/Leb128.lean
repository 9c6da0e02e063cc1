import Mathlib

/-!
# LEB128 numbers

The readers of variable-length numbers. There are three copies of `read_uleb128`: the one of
`MachOFile` records an error and returns what it has, the other two throw. The copy of the cache
builder also refuses a number that has bits above the 64th, which the other two drop.
-/

namespace Dyld.MachO

inductive LebError
  | malformed
  | tooBig
  deriving DecidableEq, Repr

structure LebRead where
  value : Nat
  rest : List UInt8
  error : Option LebError := none
  deriving DecidableEq, Repr

def readUlebFrom (tooBig : Nat → Nat → Bool) : Nat → Nat → List UInt8 → LebRead
  | _, result, [] => { value := result, rest := [], error := some .malformed }
  | bit, result, b :: bytes =>
    let slice := b.toNat % 128
    if tooBig bit slice then { value := result, rest := b :: bytes, error := some .tooBig }
    else
      let result := result ||| (slice <<< bit) % 2 ^ 64
      if 128 ≤ b.toNat then readUlebFrom tooBig (bit + 7) result bytes
      else { value := result, rest := bytes }

def beyond64 (bit _slice : Nat) : Bool := 63 < bit

def losesBits (bit slice : Nat) : Bool := 64 ≤ bit || ((slice <<< bit) % 2 ^ 64) >>> bit ≠ slice

def readUleb128 (bytes : List UInt8) : LebRead := readUlebFrom beyond64 0 0 bytes

def LebRead.orThrow (r : LebRead) : Except LebError (Nat × List UInt8) :=
  match r.error with
  | some e => .error e
  | none => .ok (r.value, r.rest)

/-- `ImageLoader::read_uleb128`, which returns a `uintptr_t` of `width` bits. -/
def readUleb128Pointer (width : Nat) (bytes : List UInt8) : Except LebError (Nat × List UInt8) :=
  (readUleb128 bytes).orThrow.map (fun r => (r.1 % 2 ^ width, r.2))

/-- `read_uleb128` of the cache builder. -/
def readUleb128Checked (bytes : List UInt8) : Except LebError (Nat × List UInt8) :=
  (readUlebFrom losesBits 0 0 bytes).orThrow

/-- The loop of `read_sleb128`. A shift by 64 or more is undefined; here it gives nothing. -/
def readSlebFrom : Nat → Nat → Nat → List UInt8 → LebRead
  | bit, result, last, [] =>
    { value := signExtend bit result last, rest := [], error := some .malformed }
  | bit, result, _, b :: bytes =>
    let result := result ||| ((b.toNat % 128) <<< bit) % 2 ^ 64
    if 128 ≤ b.toNat then readSlebFrom (bit + 7) result b.toNat bytes
    else { value := signExtend (bit + 7) result b.toNat, rest := bytes }
where
  /-- `if ( ((byte & 0x40) != 0) && (bit < 64) ) result |= (~0ULL) << bit;` -/
  signExtend (bit result byte : Nat) : Nat :=
    if byte.testBit 6 ∧ bit < 64 then result ||| ((2 ^ 64 - 1) <<< bit) % 2 ^ 64 else result

/-- `MachOFile::read_sleb128`, as the bits of a 64-bit number. -/
def readSleb128 (bytes : List UInt8) : LebRead := readSlebFrom 0 0 0 bytes

/-! ### The two tests -/

/-- The byte after the next `n`, if they all go on, is at most one. -/
def FitsAfter (n : Nat) (bytes : List UInt8) : Prop :=
  (∀ b ∈ bytes.take n, 128 ≤ b.toNat) → ∀ b, bytes[n]? = some b → b.toNat % 128 ≤ 1

/-- The number at the start of the bytes has no bit above the 64th: a tenth byte is at most one. -/
def UlebFits (bytes : List UInt8) : Prop := FitsAfter 9 bytes

instance (n : Nat) (bytes : List UInt8) : Decidable (FitsAfter n bytes) :=
  match h : bytes[n]? with
  | none => .isTrue (fun _ b hb => absurd (h.symm.trans hb) (by simp))
  | some c =>
    decidable_of_iff ((∀ b ∈ bytes.take n, 128 ≤ b.toNat) → c.toNat % 128 ≤ 1)
      ⟨fun hc hall b hb => by rw [h, Option.some.injEq] at hb; exact hb ▸ hc hall,
        fun hf hall => hf hall c h⟩

instance (bytes : List UInt8) : Decidable (UlebFits bytes) := inferInstanceAs (Decidable (FitsAfter _ _))

lemma losesBits_of_lt {bit slice : Nat} (hbit : bit < 57) (hslice : slice < 128) :
    losesBits bit slice = false := by
  have hlt : slice * 2 ^ bit < 2 ^ 64 := by
    calc slice * 2 ^ bit < 128 * 2 ^ bit := Nat.mul_lt_mul_of_pos_right hslice (by positivity)
      _ ≤ 128 * 2 ^ 57 := Nat.mul_le_mul_left _ (Nat.pow_le_pow_right (by norm_num) hbit.le)
      _ = 2 ^ 64 := by norm_num
  have hback : ((slice <<< bit) % 2 ^ 64) >>> bit = slice := by
    rw [Nat.shiftLeft_eq, Nat.mod_eq_of_lt hlt, Nat.shiftRight_eq_div_pow]
    exact Nat.mul_div_cancel _ (by positivity)
  simp only [losesBits, hback]
  simp
  omega

lemma losesBits_63 (slice : Nat) (hslice : slice < 128) : losesBits 63 slice = decide (1 < slice) := by
  interval_cases slice <;> decide

lemma fitsAfter_succ {n : Nat} {b : UInt8} {bytes : List UInt8} (hb : 128 ≤ b.toNat) :
    FitsAfter (n + 1) (b :: bytes) ↔ FitsAfter n bytes := by
  simp [FitsAfter, hb]

lemma fitsAfter_of_last {n : Nat} {b : UInt8} {bytes : List UInt8} (hb : ¬128 ≤ b.toNat) :
    FitsAfter (n + 1) (b :: bytes) := by
  intro hall
  exact absurd (hall b (by simp)) hb

lemma readUlebFrom_beyond (result : Nat) (bytes : List UInt8) :
    readUlebFrom losesBits 70 result bytes = readUlebFrom beyond64 70 result bytes := by
  cases bytes with
  | nil => rfl
  | cons b bytes => simp [readUlebFrom, losesBits, beyond64]

/-- On a number that fits, the two tests agree. -/
lemma readUlebFrom_of_fits {n : Nat} (hn : n ≤ 9) {bytes : List UInt8} (h : FitsAfter n bytes)
    (result : Nat) :
    readUlebFrom losesBits (63 - 7 * n) result bytes =
      readUlebFrom beyond64 (63 - 7 * n) result bytes := by
  induction n generalizing bytes result with
  | zero =>
    cases bytes with
    | nil => rfl
    | cons b bytes =>
      have hle : b.toNat % 128 ≤ 1 := h (by simp) b rfl
      have hloses : losesBits 63 (b.toNat % 128) = false := by
        rw [losesBits_63 _ (Nat.mod_lt _ (by norm_num))]
        simpa using hle
      simp only [Nat.mul_zero, Nat.sub_zero, readUlebFrom, hloses, beyond64]
      simp only [lt_self_iff_false, decide_false, Bool.false_eq_true, if_false]
      split_ifs
      · exact readUlebFrom_beyond _ _
      · rfl
  | succ n ih =>
    cases bytes with
    | nil => rfl
    | cons b bytes =>
      have hloses : losesBits (63 - 7 * (n + 1)) (b.toNat % 128) = false :=
        losesBits_of_lt (by omega) (Nat.mod_lt _ (by norm_num))
      have hbeyond : beyond64 (63 - 7 * (n + 1)) (b.toNat % 128) = false := by
        simp only [beyond64, decide_eq_false_iff_not]
        omega
      have hbit : 63 - 7 * (n + 1) + 7 = 63 - 7 * n := by omega
      simp only [readUlebFrom, hloses, hbeyond, hbit, Bool.false_eq_true, if_false]
      split_ifs with hb
      · exact ih (by omega) ((fitsAfter_succ hb).mp h) _
      · rfl

lemma readUlebFrom_of_not_fits {n : Nat} (hn : n ≤ 9) {bytes : List UInt8} (h : ¬FitsAfter n bytes)
    (result : Nat) : (readUlebFrom losesBits (63 - 7 * n) result bytes).error = some .tooBig := by
  induction n generalizing bytes result with
  | zero =>
    cases bytes with
    | nil => exact absurd (fun _ b hb => absurd hb (by simp)) h
    | cons b bytes =>
      have hlt : 1 < b.toNat % 128 := by
        by_contra hle
        apply h
        intro _ c hc
        rw [List.getElem?_cons_zero, Option.some.injEq] at hc
        rw [← hc]
        omega
      have hloses : losesBits 63 (b.toNat % 128) = true := by
        rw [losesBits_63 _ (Nat.mod_lt _ (by norm_num))]
        simpa using hlt
      simp [readUlebFrom, hloses]
  | succ n ih =>
    cases bytes with
    | nil => exact absurd (fun _ b hb => absurd hb (by simp)) h
    | cons b bytes =>
      have hloses : losesBits (63 - 7 * (n + 1)) (b.toNat % 128) = false :=
        losesBits_of_lt (by omega) (Nat.mod_lt _ (by norm_num))
      have hbit : 63 - 7 * (n + 1) + 7 = 63 - 7 * n := by omega
      have hb : 128 ≤ b.toNat := by
        by_contra hb
        exact h (fitsAfter_of_last hb)
      simp only [readUlebFrom, hloses, hbit, hb, Bool.false_eq_true, if_false, if_true]
      exact ih (by omega) (fun hf => h ((fitsAfter_succ hb).mpr hf)) _

lemma readUleb128Checked_of_fits {bytes : List UInt8} (h : UlebFits bytes) :
    readUleb128Checked bytes = (readUleb128 bytes).orThrow := by
  have hread := readUlebFrom_of_fits (le_refl 9) h 0
  rw [readUleb128Checked, readUleb128]
  exact congrArg LebRead.orThrow hread

lemma readUleb128Checked_of_not_fits {bytes : List UInt8} (h : ¬UlebFits bytes) :
    readUleb128Checked bytes = .error .tooBig := by
  have hread := readUlebFrom_of_not_fits (le_refl 9) h 0
  rw [readUleb128Checked, LebRead.orThrow]
  simp only [Nat.reduceMul, Nat.sub_self] at hread
  rw [hread]

/-! ### What is read -/

/-- How many bytes `read_uleb128` reads. It tests for the end before each. -/
def ulebReach : Nat → List UInt8 → Nat
  | _, [] => 0
  | bit, b :: bytes =>
    if 63 < bit then 1 else if 128 ≤ b.toNat then ulebReach (bit + 7) bytes + 1 else 1

/-- How many bytes `read_sleb128` reads. -/
def slebReach : List UInt8 → Nat
  | [] => 0
  | b :: bytes => if 128 ≤ b.toNat then slebReach bytes + 1 else 1

lemma ulebReach_le (bit : Nat) (bytes : List UInt8) : ulebReach bit bytes ≤ bytes.length := by
  induction bytes generalizing bit with
  | nil => exact le_rfl
  | cons b bytes ih =>
    have hrest := ih (bit + 7)
    rw [ulebReach, List.length_cons]
    split_ifs <;> omega

lemma slebReach_le (bytes : List UInt8) : slebReach bytes ≤ bytes.length := by
  induction bytes with
  | nil => exact le_rfl
  | cons b bytes ih =>
    rw [slebReach, List.length_cons]
    split_ifs <;> omega

lemma readUlebFrom_rest_le (tooBig : Nat → Nat → Bool) (bit result : Nat) (bytes : List UInt8) :
    (readUlebFrom tooBig bit result bytes).rest.length ≤ bytes.length := by
  induction bytes generalizing bit result with
  | nil => exact le_rfl
  | cons b bytes ih =>
    rw [readUlebFrom]
    dsimp only
    split_ifs
    · exact le_rfl
    · exact (ih _ _).trans (Nat.le_succ _)
    · exact Nat.le_succ _

lemma readUleb128_rest_le (bytes : List UInt8) : (readUleb128 bytes).rest.length ≤ bytes.length :=
  readUlebFrom_rest_le _ _ _ _

lemma readSlebFrom_rest_le (bit result last : Nat) (bytes : List UInt8) :
    (readSlebFrom bit result last bytes).rest.length ≤ bytes.length := by
  induction bytes generalizing bit result last with
  | nil => exact le_rfl
  | cons b bytes ih =>
    rw [readSlebFrom]
    split_ifs
    · exact (ih _ _ _).trans (Nat.le_succ _)
    · exact Nat.le_succ _

lemma readSleb128_rest_le (bytes : List UInt8) : (readSleb128 bytes).rest.length ≤ bytes.length :=
  readSlebFrom_rest_le _ _ _ _

end Dyld.MachO
