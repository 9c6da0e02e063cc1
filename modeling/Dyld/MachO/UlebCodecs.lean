import Dyld.MachO.TrieWalk

/-!
# The readers of numbers in tries

`TrieUtils::parse_uleb128` and `MachOFile::read_uleb128` read back what `append_uleb128` writes. On
other bytes they differ in one case: the bits of a tenth byte that a 64-bit number has no room for.
-/

namespace Dyld.MachO

open Dyld.Cache.Tries

/-- The number and where the reader is after it, unless it fails. -/
def LebRead.result (r : LebRead) : Option (UInt64 × List UInt8) :=
  match r.error with
  | some _ => none
  | none => some (UInt64.ofNat r.value, r.rest)

def parseUleb128 (p : List UInt8) : Option (UInt64 × List UInt8) := (readUlebFrom losesBits 0 0 p).result

/-- `MachOFile::read_uleb128` with a diagnostic that has no error before. -/
def readUleb128Result (p : List UInt8) : Option (UInt64 × List UInt8) := (readUleb128 p).result

/-- A number of ten bytes, with the last of them above one. -/
def DropsBits (p : List UInt8) : Prop :=
  (∀ b ∈ p.take 9, 128 ≤ b.toNat) ∧ ∃ b, p[9]? = some b ∧ 1 < b.toNat ∧ b.toNat < 128

/-! ### What fits -/

lemma not_dropsBits_of_fits {p : List UInt8} (h : UlebFits p) : ¬DropsBits p := by
  rintro ⟨hmore, b, hb, hlow, hhigh⟩
  have hle := h hmore b hb
  rw [Nat.mod_eq_of_lt hhigh] at hle
  omega

lemma result_of_fits {p : List UInt8} (h : UlebFits p) : parseUleb128 p = readUleb128Result p :=
  congrArg LebRead.result (readUlebFrom_of_fits (le_refl 9) h 0)

/-! ### What does not fit -/

lemma error_readUlebFrom_beyond (result : Nat) (p : List UInt8) :
    (readUlebFrom beyond64 70 result p).error ≠ none := by
  have hbeyond : ∀ slice, beyond64 70 slice = true := fun _ => rfl
  cases p with
  | nil => exact Option.some_ne_none _
  | cons c p =>
    rw [readUlebFrom]
    dsimp only
    rw [hbeyond, if_pos rfl]
    exact Option.some_ne_none _

lemma error_readUlebFrom_tenth {n : Nat} (hn : n ≤ 9) {p : List UInt8}
    (hmore : ∀ b ∈ p.take n, 128 ≤ b.toNat) {b : UInt8} (hb : p[n]? = some b) (result : Nat) :
    (readUlebFrom beyond64 (63 - 7 * n) result p).error = none ↔ b.toNat < 128 := by
  induction n generalizing p result with
  | zero =>
    cases p with
    | nil => cases hb
    | cons c p =>
      cases hb
      have hlast : ∀ slice, beyond64 (63 - 7 * 0) slice = false := fun _ => rfl
      rw [readUlebFrom]
      dsimp only
      rw [hlast, if_neg Bool.false_ne_true]
      split_ifs with hlarge
      · exact iff_of_false (error_readUlebFrom_beyond _ p) (Nat.not_lt.mpr hlarge)
      · exact iff_of_true rfl (Nat.lt_of_not_le hlarge)
  | succ n ih =>
    cases p with
    | nil => cases hb
    | cons c p =>
      have hc : 128 ≤ c.toNat := hmore c List.mem_cons_self
      have hbeyond : ¬beyond64 (63 - 7 * (n + 1)) (c.toNat % 128) = true := by
        rw [beyond64, decide_eq_true_eq]
        omega
      have hbit : 63 - 7 * (n + 1) + 7 = 63 - 7 * n := by omega
      rw [readUlebFrom]
      dsimp only
      rw [if_neg hbeyond, if_pos hc, hbit]
      exact ih (Nat.le_of_succ_le hn) (fun b hb => hmore b (List.mem_cons_of_mem c hb)) hb _

lemma parse_of_not_fits {p : List UInt8} (h : ¬UlebFits p) : parseUleb128 p = none := by
  have herror := readUlebFrom_of_not_fits (le_refl 9) h 0
  rw [parseUleb128, LebRead.result]
  simp only [Nat.reduceMul, Nat.sub_self] at herror
  rw [herror]

lemma read_of_not_fits {p : List UInt8} (h : ¬UlebFits p) : readUleb128Result p = none ↔ ¬DropsBits p := by
  unfold UlebFits FitsAfter at h
  push Not at h
  obtain ⟨hmore, b, hb, hlow⟩ := h
  have herror := error_readUlebFrom_tenth (le_refl 9) hmore hb 0
  have hdrops : DropsBits p ↔ b.toNat < 128 := by
    constructor
    · rintro ⟨-, c, hc, -, hlt⟩
      cases hb.symm.trans hc
      exact hlt
    · intro hlt
      rw [Nat.mod_eq_of_lt hlt] at hlow
      exact ⟨hmore, b, hb, hlow, hlt⟩
  rw [hdrops, ← herror, readUleb128Result, readUleb128, LebRead.result]
  cases (readUlebFrom beyond64 (63 - 7 * 9) 0 p).error with
  | none => exact iff_of_false (Option.some_ne_none _) (not_not_intro rfl)
  | some e => exact iff_of_true rfl (Option.some_ne_none e)

lemma readers_agree_iff (p : List UInt8) : parseUleb128 p = readUleb128Result p ↔ ¬DropsBits p := by
  by_cases hfits : UlebFits p
  · exact iff_of_true (result_of_fits hfits) (not_dropsBits_of_fits hfits)
  · rw [parse_of_not_fits hfits, ← read_of_not_fits hfits]
    exact eq_comm

/-- Both readers read back a number as it was written, and on any bytes they agree unless a number of
ten bytes loses bits. -/
theorem uleb128_codecs_agree_iff (v : UInt64) (p : List UInt8) :
    (appendUleb128 v.toNat).length = uleb128Size v.toNat ∧
      parseUleb128 (appendUleb128 v.toNat ++ p) = some (v, p) ∧
      readUleb128Result (appendUleb128 v.toNat ++ p) = some (v, p) ∧
      (parseUleb128 p = readUleb128Result p ↔ ¬DropsBits p) := by
  have hv : v.toNat < 2 ^ 64 := v.toNat_lt
  refine ⟨length_appendUleb128 v.toNat, ?_, ?_, readers_agree_iff p⟩
  · rw [parseUleb128, readUlebFrom_appendUleb128 acceptsFitting_losesBits hv, LebRead.result,
      UInt64.ofNat_toNat]
  · rw [readUleb128Result, readUleb128, readUlebFrom_appendUleb128 acceptsFitting_beyond64 hv,
      LebRead.result, UInt64.ofNat_toNat]

/-- Nine bytes that go on, and a tenth byte with the second bit: one reader fails, the other reads zero. -/
theorem uleb128_codecs_disagree :
    parseUleb128 [0x80, 0x80, 0x80, 0x80, 0x80, 0x80, 0x80, 0x80, 0x80, 0x02] = none ∧
      readUleb128Result [0x80, 0x80, 0x80, 0x80, 0x80, 0x80, 0x80, 0x80, 0x80, 0x02] = some (0, []) :=
  ⟨by decide, by decide⟩

end Dyld.MachO
