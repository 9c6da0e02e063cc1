import Dyld.Cache.AdjustReference
import Dyld.MachO.TrieWalk

/-!
# Code of split-seg v1 after its segments moved

`adjustInstruction` adds the distance that the data moved relative to the code to one pointer or
instruction, and `adjustCode` runs it over the locations that the split-seg info lists. A `movw`
and the `movt` that completes it are adjusted in two calls that know nothing of each other. The
immediate of `ADRP` is put together in 32 bits, where its sign bit is shifted out.
-/

namespace Dyld.Cache.SplitSegV1

open Dyld.Lib
open Dyld.MachO
open Dyld.Cache.Tries (appendUleb128 appendUleb128_ne_nil)

/-! ### One instruction -/

inductive CodeError
  | assertionFailed
  | leb (e : LebError)
  deriving DecidableEq, Repr

def adjustPointer32 (codeToDataDelta : BitVec 64) (value32 : BitVec 32) : BitVec 32 :=
  (value32.setWidth 64 + codeToDataDelta).setWidth 32

/-- The slide is always a multiple of 4096, so only the top four bits of the low half ever need
adjusting. -/
def adjustThumbMovw (codeToDataDelta : BitVec 64) (instruction : BitVec 32) : BitVec 32 :=
  let value32 := (instruction &&& 0x0000000F#32) + (codeToDataDelta.setWidth 32 >>> 12)
  (instruction &&& 0xFFFFFFF0#32) ||| (value32 &&& 0x0000000F#32)

def adjustArmMovw (codeToDataDelta : BitVec 64) (instruction : BitVec 32) : BitVec 32 :=
  let value32 := ((instruction &&& 0x000F0000#32) >>> 16) + (codeToDataDelta.setWidth 32 >>> 12)
  (instruction &&& 0xFFF0FFFF#32) ||| ((value32 <<< 16) &&& 0x000F0000#32)

/-- The target of a `movt`, of which the kind gives the high four bits of the paired `movw`,
after it is adjusted. -/
def newTargetValue (kind : BitVec 8) (imm16 : BitVec 32) (codeToDataDelta : BitVec 64) :
    BitVec 32 :=
  let targetValue := (imm16 <<< 16) ||| ((kind &&& 0xF#8).setWidth 32 <<< 12)
  targetValue + codeToDataDelta.setWidth 32

def adjustThumbMovt (kind : BitVec 8) (codeToDataDelta : BitVec 64) (instruction : BitVec 32) :
    BitVec 32 :=
  let i := (instruction &&& 0x00000400#32) >>> 10
  let imm4 := instruction &&& 0x0000000F#32
  let imm3 := (instruction &&& 0x70000000#32) >>> 28
  let imm8 := (instruction &&& 0x00FF0000#32) >>> 16
  let imm16 := (imm4 <<< 12) ||| (i <<< 11) ||| (imm3 <<< 8) ||| imm8
  let newTarget := newTargetValue kind imm16 codeToDataDelta
  let imm4' := (newTarget &&& 0xF0000000#32) >>> 28
  let i' := (newTarget &&& 0x08000000#32) >>> 27
  let imm3' := (newTarget &&& 0x07000000#32) >>> 24
  let imm8' := (newTarget &&& 0x00FF0000#32) >>> 16
  (instruction &&& 0x8F00FBF0#32) ||| imm4' ||| (i' <<< 10) ||| (imm3' <<< 28) ||| (imm8' <<< 16)

def adjustArmMovt (kind : BitVec 8) (codeToDataDelta : BitVec 64) (instruction : BitVec 32) :
    BitVec 32 :=
  let imm4 := (instruction &&& 0x000F0000#32) >>> 16
  let imm12 := instruction &&& 0x00000FFF#32
  let imm16 := (imm4 <<< 12) ||| imm12
  let newTarget := newTargetValue kind imm16 codeToDataDelta
  let imm4' := (newTarget &&& 0xF0000000#32) >>> 28
  let imm12' := (newTarget &&& 0x0FFF0000#32) >>> 16
  (instruction &&& 0xFFF0F000#32) ||| (imm4' <<< 16) ||| imm12'

def adjustAdrp (codeToDataDelta : BitVec 64) (instruction : BitVec 32) : BitVec 32 :=
  -- both shifts are of 32 bits: bit 23 of the instruction leaves the word
  let immediate := ((instruction &&& 0x60000000#32) >>> 17) ||| ((instruction &&& 0x00FFFFE0#32) <<< 9)
  let value64 := immediate.setWidth 64 + codeToDataDelta
  ((instruction &&& 0x9F00001F#32).setWidth 64 ||| ((value64 <<< 17) &&& 0x60000000#64) |||
    ((value64 >>> 9) &&& 0x00FFFFE0#64)).setWidth 32

/-- The word of 32 bits that is written, or `none` for the kinds that write none. -/
def adjustWord (kind : BitVec 8) (codeToDataDelta : BitVec 64) (instruction : BitVec 32) :
    Except CodeError (Option (BitVec 32)) :=
  if kind = 1 then .ok (some (adjustPointer32 codeToDataDelta instruction))
  else if kind = 3 then
    .ok (if isAdrp instruction then some (adjustAdrp codeToDataDelta instruction) else none)
  else if kind = 5 then .ok (some (adjustThumbMovw codeToDataDelta instruction))
  else if kind = 6 then .ok (some (adjustArmMovw codeToDataDelta instruction))
  else if 0x10 ≤ kind ∧ kind ≤ 0x1F then
    if isThumbMovt instruction then .ok (some (adjustThumbMovt kind codeToDataDelta instruction))
    else .error .assertionFailed
  else if 0x20 ≤ kind ∧ kind ≤ 0x2F then .ok (some (adjustArmMovt kind codeToDataDelta instruction))
  -- 4 is a reference to the IMPORT segment of i386
  else .ok none

def adjustInstruction (kind : BitVec 8) (textLoc : Nat) (codeToDataDelta : BitVec 64) (m : Mem) :
    Except CodeError Mem :=
  if kind = 2 then .ok (store 8 m textLoc (load 8 m textLoc + codeToDataDelta : BitVec 64))
  else
    (adjustWord kind codeToDataDelta (load 4 m textLoc)).map (fun w =>
      match w with
      | none => m
      | some w => store 4 m textLoc w)

/-! ### The loop over the split-seg info -/

/-- One call of `adjustInstruction`. -/
structure Entry where
  kind : BitVec 8
  textLoc : Nat
  deriving DecidableEq, Repr

def adjustEach (codeToDataDelta : BitVec 64) (entries : List Entry) (m : Mem) :
    Except CodeError Mem :=
  entries.foldlM (fun m e => adjustInstruction e.kind e.textLoc codeToDataDelta m) m

def adjustLocations (kind : BitVec 8) (codeToDataDelta : BitVec 64) :
    Nat → List UInt8 → Nat → Mem → Except CodeError (List UInt8 × Mem)
  | 0, p, _, m => .ok (p, m)
  | n + 1, p, textLoc, m =>
    match readUleb128Checked p with
    | .error e => .error (.leb e)
    | .ok (delta, p) =>
      if delta = 0 then .ok (p, m)
      else
        match adjustInstruction kind (textLoc + delta) codeToDataDelta m with
        | .error e => .error e
        | .ok m => adjustLocations kind codeToDataDelta n p (textLoc + delta) m

/-- The loop of `adjustCode` over the bytes of the split-seg info, each list of locations starting
over at the first segment. -/
def adjustGroups (dstSegment : Nat) (codeToDataDelta : BitVec 64) :
    Nat → List UInt8 → Mem → Except CodeError Mem
  | 0, _, m => .ok m
  | _, [], m => .ok m
  | n + 1, kind :: p, m =>
    if kind = 0 then .ok m
    else
      match adjustLocations kind.toBitVec codeToDataDelta (p.length + 1) p dstSegment m with
      | .error e => .error e
      | .ok (p, m) => adjustGroups dstSegment codeToDataDelta n p m

def adjustCode (info : List UInt8) (dstSegment : Nat) (slide0 slide1 : BitVec 64) (m : Mem) :
    Except CodeError Mem :=
  adjustGroups dstSegment (slide1 - slide0) info.length info m

/-! ### Locations -/

/-- The bytes that a call reads and writes. -/
def Entry.width (e : Entry) : Nat := if e.kind = 2 then 8 else 4

def Entry.Holds (e : Entry) (x : Nat) : Prop := InWord e.width e.textLoc x

def Entry.Apart (e f : Entry) : Prop := ∀ x, e.Holds x → ¬f.Holds x

def Entry.Adjusted (e : Entry) (codeToDataDelta : BitVec 64) (m m' : Mem) : Prop :=
  if e.kind = 2 then load 8 m' e.textLoc = (load 8 m e.textLoc + codeToDataDelta : BitVec 64)
  else ∃ w, adjustWord e.kind codeToDataDelta (load 4 m e.textLoc) = .ok w ∧
    load 4 m' e.textLoc = w.getD (load 4 m e.textLoc)

section Entries

variable {e : Entry} {entries : List Entry} {codeToDataDelta : BitVec 64} {m m' : Mem}

lemma Entry.Apart.symm {f : Entry} (h : e.Apart f) : f.Apart e := fun x hf he => h x he hf

lemma Entry.Adjusted.congr {m₁ m₁' : Mem} (h : e.Adjusted codeToDataDelta m m')
    (hm : ∀ x, e.Holds x → m x = m₁ x) (hm' : ∀ x, e.Holds x → m' x = m₁' x) :
    e.Adjusted codeToDataDelta m₁ m₁' := by
  unfold Entry.Adjusted at *
  unfold Entry.Holds Entry.width at hm hm'
  split_ifs at * with hk
  · rw [← load_congr hm, ← load_congr hm']
    exact h
  · rw [← load_congr hm, ← load_congr hm']
    exact h

lemma adjustInstruction_spec (h : adjustInstruction e.kind e.textLoc codeToDataDelta m = .ok m') :
    e.Adjusted codeToDataDelta m m' ∧ ∀ x, ¬e.Holds x → m' x = m x := by
  unfold adjustInstruction at h
  unfold Entry.Adjusted Entry.Holds Entry.width
  split_ifs at * with hk
  · cases h
    exact ⟨load_store_same 8 _ _ _, fun x hx => store_apply_of_not_inWord hx⟩
  · cases hw : adjustWord e.kind codeToDataDelta (load 4 m e.textLoc) with
    | error err =>
      rw [hw] at h
      cases h
    | ok w =>
      rw [hw] at h
      cases w with
      | none =>
        cases h
        exact ⟨⟨none, rfl, rfl⟩, fun x _ => rfl⟩
      | some w =>
        cases h
        exact ⟨⟨some w, rfl, load_store_same 4 _ _ _⟩, fun x hx => store_apply_of_not_inWord hx⟩

/-- A call fails only by what its own word says. -/
lemma adjustInstruction_ok
    (h : e.kind ≠ 2 → ∃ w, adjustWord e.kind codeToDataDelta (load 4 m e.textLoc) = .ok w) :
    ∃ m', adjustInstruction e.kind e.textLoc codeToDataDelta m = .ok m' := by
  unfold adjustInstruction
  split_ifs with hk
  · exact ⟨_, rfl⟩
  · obtain ⟨w, hw⟩ := h hk
    rw [hw]
    exact ⟨_, rfl⟩

/-- Calls for words that share no byte: each word is adjusted once, and nothing else changes. -/
lemma adjustEach_spec (hp : entries.Pairwise Entry.Apart)
    (h : adjustEach codeToDataDelta entries m = .ok m') :
    (∀ e ∈ entries, e.Adjusted codeToDataDelta m m') ∧
      ∀ x, (∀ e ∈ entries, ¬e.Holds x) → m' x = m x := by
  induction entries generalizing m with
  | nil =>
    cases h
    exact ⟨fun e he => absurd he (List.not_mem_nil), fun x _ => rfl⟩
  | cons e entries ih =>
    rw [List.pairwise_cons] at hp
    rw [adjustEach, List.foldlM_cons] at h
    cases hm : adjustInstruction e.kind e.textLoc codeToDataDelta m with
    | error err =>
      rw [hm] at h
      cases h
    | ok m₁ =>
      rw [hm] at h
      obtain ⟨hadj, hframe⟩ := adjustInstruction_spec hm
      obtain ⟨hrest, hrestFrame⟩ := ih hp.2 h
      constructor
      · intro f hf
        rcases List.mem_cons.mp hf with rfl | hf
        · refine hadj.congr (fun _ _ => rfl) (fun x hx => ?_)
          exact (hrestFrame x (fun g hg => hp.1 g hg x hx)).symm
        · exact (hrest f hf).congr (fun x hx => hframe x (hp.1 f hf |>.symm x hx)) (fun _ _ => rfl)
      · intro x hx
        rw [hrestFrame x (fun g hg => hx g (List.mem_cons_of_mem e hg)),
          hframe x (hx e List.mem_cons_self)]

/-- Calls for words that share no byte succeed when each would on its own. -/
lemma adjustEach_ok (hp : entries.Pairwise Entry.Apart)
    (h : ∀ e ∈ entries, e.kind ≠ 2 →
      ∃ w, adjustWord e.kind codeToDataDelta (load 4 m e.textLoc) = .ok w) :
    ∃ m', adjustEach codeToDataDelta entries m = .ok m' := by
  induction entries generalizing m with
  | nil => exact ⟨m, rfl⟩
  | cons e entries ih =>
    rw [List.pairwise_cons] at hp
    obtain ⟨m₁, hm⟩ := adjustInstruction_ok (h e List.mem_cons_self)
    have hframe := (adjustInstruction_spec hm).2
    have hrest : ∀ f ∈ entries, f.kind ≠ 2 →
        ∃ w, adjustWord f.kind codeToDataDelta (load 4 m₁ f.textLoc) = .ok w := by
      intro f hf hk
      have hwidth : f.width = 4 := if_neg hk
      have hsame : load 4 m₁ f.textLoc = load 4 m f.textLoc := by
        refine load_congr (fun x hx => hframe x (hp.1 f hf |>.symm x ?_))
        rw [Entry.Holds, hwidth]
        exact hx
      rw [hsame]
      exact h f (List.mem_cons_of_mem e hf) hk
    obtain ⟨m', hm'⟩ := ih hp.2 hrest
    refine ⟨m', ?_⟩
    rw [adjustEach, List.foldlM_cons, hm]
    exact hm'

end Entries

/-! ### Halves of a word -/

section Halves

variable {instruction : BitVec 32} {kind : BitVec 8} {codeToDataDelta : BitVec 64}

/-- The high four bits of the immediate of a `movw`. -/
def topNibble (word : BitVec 16) : BitVec 4 := word.extractLsb' 12 4

lemma add_of_nibble {v v' : BitVec 16} (hd : codeToDataDelta.toNat % 4096 = 0)
    (hlow : v'.setWidth 12 = v.setWidth 12)
    (hnib : topNibble v' = topNibble v + codeToDataDelta.extractLsb' 12 4) :
    v' = v + codeToDataDelta.setWidth 16 := by
  have hlow' := congrArg BitVec.toNat hlow
  have hnib' := congrArg BitVec.toNat hnib
  simp only [topNibble, BitVec.toNat_setWidth, BitVec.toNat_add, BitVec.extractLsb'_toNat,
    Nat.shiftRight_eq_div_pow] at hlow' hnib'
  apply BitVec.eq_of_toNat_eq
  rw [BitVec.toNat_add, BitVec.toNat_setWidth]
  have h1 := v.isLt
  have h2 := v'.isLt
  omega

lemma setWidth_and_shift_delta :
    (codeToDataDelta.setWidth 32 >>> 12).setWidth 4 = codeToDataDelta.extractLsb' 12 4 := by
  apply BitVec.eq_of_getLsbD_eq
  intro j hj
  interval_cases j <;> simp

lemma getThumbWord_movw (hd : codeToDataDelta.toNat % 4096 = 0) :
    getThumbWord (adjustThumbMovw codeToDataDelta instruction) =
      getThumbWord instruction + codeToDataDelta.setWidth 16 := by
  apply add_of_nibble hd
  · apply BitVec.eq_of_getLsbD_eq
    intro j hj
    interval_cases j <;> simp [getThumbWord, adjustThumbMovw]
  · have hnew : topNibble (getThumbWord (adjustThumbMovw codeToDataDelta instruction)) =
        ((instruction &&& 0x0000000F#32) + (codeToDataDelta.setWidth 32 >>> 12)).setWidth 4 := by
      apply BitVec.eq_of_getLsbD_eq
      intro j hj
      interval_cases j <;> simp [topNibble, getThumbWord, adjustThumbMovw]
    have hold : (instruction &&& 0x0000000F#32).setWidth 4 = topNibble (getThumbWord instruction) := by
      apply BitVec.eq_of_getLsbD_eq
      intro j hj
      interval_cases j <;> simp [topNibble, getThumbWord]
    rw [hnew, BitVec.setWidth_add _ _ (by omega), hold, setWidth_and_shift_delta]

lemma getArmWord_movw (hd : codeToDataDelta.toNat % 4096 = 0) :
    getArmWord (adjustArmMovw codeToDataDelta instruction) =
      getArmWord instruction + codeToDataDelta.setWidth 16 := by
  apply add_of_nibble hd
  · apply BitVec.eq_of_getLsbD_eq
    intro j hj
    interval_cases j <;> simp [getArmWord, adjustArmMovw]
  · have hnew : topNibble (getArmWord (adjustArmMovw codeToDataDelta instruction)) =
        (((instruction &&& 0x000F0000#32) >>> 16) +
          (codeToDataDelta.setWidth 32 >>> 12)).setWidth 4 := by
      unfold adjustArmMovw
      generalize ((instruction &&& 0x000F0000#32) >>> 16) +
        (codeToDataDelta.setWidth 32 >>> 12) = value32
      apply BitVec.eq_of_getLsbD_eq
      intro j hj
      interval_cases j <;> simp [topNibble, getArmWord]
    have hold : ((instruction &&& 0x000F0000#32) >>> 16).setWidth 4 =
        topNibble (getArmWord instruction) := by
      apply BitVec.eq_of_getLsbD_eq
      intro j hj
      interval_cases j <;> simp [topNibble, getArmWord]
    rw [hnew, BitVec.setWidth_add _ _ (by omega), hold, setWidth_and_shift_delta]

def newHighHalf (kind : BitVec 8) (word : BitVec 16) (codeToDataDelta : BitVec 64) : BitVec 16 :=
  (newTargetValue kind (word.setWidth 32) codeToDataDelta).extractLsb' 16 16

lemma adjustThumbMovt_eq : adjustThumbMovt kind codeToDataDelta instruction =
    setThumbWord instruction (newHighHalf kind (getThumbWord instruction) codeToDataDelta) := by
  have himm : ((instruction &&& 0x0000000F#32) <<< 12) |||
      (((instruction &&& 0x00000400#32) >>> 10) <<< 11) |||
      (((instruction &&& 0x70000000#32) >>> 28) <<< 8) |||
      ((instruction &&& 0x00FF0000#32) >>> 16) = (getThumbWord instruction).setWidth 32 := by
    apply BitVec.eq_of_getLsbD_eq
    intro j hj
    interval_cases j <;> simp [getThumbWord]
  simp only [adjustThumbMovt, himm, newHighHalf]
  generalize newTargetValue kind ((getThumbWord instruction).setWidth 32) codeToDataDelta = target
  apply BitVec.eq_of_getLsbD_eq
  intro j hj
  interval_cases j <;> simp [setThumbWord]

lemma adjustArmMovt_eq : adjustArmMovt kind codeToDataDelta instruction =
    setArmWord instruction (newHighHalf kind (getArmWord instruction) codeToDataDelta) := by
  have himm : (((instruction &&& 0x000F0000#32) >>> 16) <<< 12) |||
      (instruction &&& 0x00000FFF#32) = (getArmWord instruction).setWidth 32 := by
    apply BitVec.eq_of_getLsbD_eq
    intro j hj
    interval_cases j <;> simp [getArmWord]
  simp only [adjustArmMovt, himm, newHighHalf]
  generalize newTargetValue kind ((getArmWord instruction).setWidth 32) codeToDataDelta = target
  apply BitVec.eq_of_getLsbD_eq
  intro j hj
  interval_cases j <;> simp [setArmWord]

lemma toNat_append_eq {n k : Nat} (x : BitVec n) (y : BitVec k) :
    (x ++ y).toNat = x.toNat * 2 ^ k + y.toNat := by
  rw [BitVec.toNat_append, ← Nat.shiftLeft_add_eq_or_of_lt y.isLt, Nat.shiftLeft_eq]

/-- The two calls for the halves of a word carry into each other when the kind of the `movt`
has the high bits of the `movw`. -/
lemma newHighHalf_append {high low : BitVec 16} (hd : codeToDataDelta.toNat % 4096 = 0)
    (hk : kind.setWidth 4 = topNibble low) :
    newHighHalf kind high codeToDataDelta ++ (low + codeToDataDelta.setWidth 16) =
      (high ++ low) + codeToDataDelta.setWidth 32 := by
  have hor : (high.setWidth 32 <<< 16) ||| ((kind &&& 0xF#8).setWidth 32 <<< 12) =
      (high ++ (topNibble low ++ 0#12) : BitVec 32) := by
    rw [← hk]
    apply BitVec.eq_of_getLsbD_eq
    intro j hj
    change _ = (high ++ (kind.setWidth 4 ++ 0#12)).getLsbD j
    rw [BitVec.getLsbD_append, BitVec.getLsbD_append]
    interval_cases j <;> simp
  apply BitVec.eq_of_toNat_eq
  simp only [newHighHalf, newTargetValue, hor, topNibble, toNat_append_eq,
    BitVec.extractLsb'_toNat, BitVec.toNat_add, BitVec.toNat_setWidth, BitVec.toNat_ofNat,
    Nat.shiftRight_eq_div_pow]
  have h1 := low.isLt
  have h2 := high.isLt
  omega

end Halves

/-! ### Pages -/

section Pages

variable {instruction : BitVec 32} {codeToDataDelta : BitVec 64}

/-- The signed page immediate of an `ADRP`. -/
def pageImmediate (instruction : BitVec 32) : Int := Int.bmod (imm21 instruction) (2 ^ 21)

lemma imm21_lt (instruction : BitVec 32) : imm21 instruction < 2 ^ 21 := by
  have h1 := getField_lt instruction 5 19
  have h2 := getField_lt instruction 29 2
  unfold imm21
  omega

lemma bmod_of_lt {v : Nat} (h : v < 2 ^ 21) :
    Int.bmod v (2 ^ 21) = if v < 2 ^ 20 then (v : Int) else v - 2 ^ 21 := by
  rw [Int.bmod_def]
  split_ifs <;> omega

def newPages (codeToDataDelta : BitVec 64) (instruction : BitVec 32) : BitVec 64 :=
  ((instruction.extractLsb' 5 18 ++ (instruction.extractLsb' 29 2 ++ 0#12)).setWidth 64 +
    codeToDataDelta) >>> 12

lemma toNat_newPages : (newPages codeToDataDelta instruction).toNat =
    (imm21 instruction % 2 ^ 20 * 4096 + codeToDataDelta.toNat) % 2 ^ 64 / 4096 := by
  have himm : (instruction.extractLsb' 5 18 ++ (instruction.extractLsb' 29 2 ++ 0#12)).toNat =
      imm21 instruction % 2 ^ 20 * 4096 := by
    simp only [toNat_append_eq, BitVec.extractLsb'_toNat, BitVec.toNat_ofNat,
      Nat.shiftRight_eq_div_pow, imm21, getField]
    generalize instruction.toNat / 2 ^ 5 = high
    generalize instruction.toNat / 2 ^ 29 = low
    omega
  rw [newPages, BitVec.toNat_ushiftRight, BitVec.toNat_add, BitVec.toNat_setWidth, himm,
    Nat.shiftRight_eq_div_pow, Nat.mod_add_mod]

lemma adjustAdrp_eq : adjustAdrp codeToDataDelta instruction =
    setField (setField instruction 29 2 (newPages codeToDataDelta instruction).toNat) 5 19
      ((newPages codeToDataDelta instruction).toNat / 4) := by
  have himm : ((instruction &&& 0x60000000#32) >>> 17) ||| ((instruction &&& 0x00FFFFE0#32) <<< 9) =
      (instruction.extractLsb' 5 18 ++ (instruction.extractLsb' 29 2 ++ 0#12) : BitVec 32) := by
    apply BitVec.eq_of_getLsbD_eq
    intro j hj
    change _ = (instruction.extractLsb' 5 18 ++ (instruction.extractLsb' 29 2 ++ 0#12)).getLsbD j
    rw [BitVec.getLsbD_append, BitVec.getLsbD_append]
    interval_cases j <;> simp
  rw [← adrp_eq_setField]
  simp only [adjustAdrp, himm, newPages]
  generalize BitVec.setWidth 64 (instruction.extractLsb' 5 18 ++
    (instruction.extractLsb' 29 2 ++ 0#12)) + codeToDataDelta = value64
  apply BitVec.eq_of_getLsbD_eq
  intro j hj
  interval_cases j <;> simp

lemma adjustAdrp_other :
    adjustAdrp codeToDataDelta instruction &&& ~~~0x60FFFFE0#32 = instruction &&& ~~~0x60FFFFE0#32 := by
  apply BitVec.eq_of_getLsbD_eq
  intro j hj
  interval_cases j <;> simp [adjustAdrp]

/-- The sign bit of the immediate is lost, and the carry into it comes out the other way. -/
lemma pageImmediate_adjustAdrp (hd : codeToDataDelta.toNat % 4096 = 0)
    (hlo : -2 ^ 20 ≤ pageImmediate instruction + codeToDataDelta.toInt / 4096)
    (hhi : pageImmediate instruction + codeToDataDelta.toInt / 4096 < 2 ^ 20) :
    4096 * pageImmediate (adjustAdrp codeToDataDelta instruction) =
        4096 * pageImmediate instruction + codeToDataDelta.toInt ↔
      ¬pageImmediate instruction < 0 := by
  have hold := imm21_lt instruction
  have hnew : imm21 (adjustAdrp codeToDataDelta instruction) =
      (imm21 instruction % 2 ^ 20 * 4096 + codeToDataDelta.toNat) % 2 ^ 64 / 4096 % 2 ^ 21 := by
    rw [adjustAdrp_eq, imm21_setField, toNat_newPages]
  have hlt := codeToDataDelta.isLt
  unfold pageImmediate at *
  rw [hnew, bmod_of_lt (Nat.mod_lt _ (by omega))]
  rw [bmod_of_lt hold] at *
  rw [BitVec.toInt_eq_toNat_cond] at *
  split_ifs at * <;> omega

end Pages

/-! ### Places that refer to the data -/

/-- What the split-seg info lists: a pointer, an instruction, or a `movw` and the `movt` that it
is paired with, with the kind of the `movt`. -/
inductive CodeSite
  | pointer32 (loc : Nat)
  | pointer64 (loc : Nat)
  | adrp (loc : Nat)
  | thumbMov (movw movt : Nat) (kind : BitVec 8)
  | armMov (movw movt : Nat) (kind : BitVec 8)

def immediateBits (kind : BitVec 8) : BitVec 32 :=
  if kind = 3 then operandBits .arm64Adrp
  else if kind = 5 ∨ 0x10 ≤ kind ∧ kind ≤ 0x1F then operandBits .thumbMovwMovt
  else if kind = 6 ∨ 0x20 ≤ kind ∧ kind ≤ 0x2F then operandBits .armMovwMovt
  else operandBits .pointer32

namespace CodeSite

def entries : CodeSite → List Entry
  | pointer32 loc => [⟨1, loc⟩]
  | pointer64 loc => [⟨2, loc⟩]
  | adrp loc => [⟨3, loc⟩]
  | thumbMov movw movt kind => [⟨5, movw⟩, ⟨kind, movt⟩]
  | armMov movw movt kind => [⟨6, movw⟩, ⟨kind, movt⟩]

/-- The instruction of an `ADRP` is one and the moved immediate fits it; the two instructions of
a pair are different ones, and the kind of the `movt` has the high bits of the `movw`. -/
def Handled (codeToDataDelta : BitVec 64) (m : Mem) : CodeSite → Prop
  | adrp loc => isAdrp (load 4 m loc) ∧
    -2 ^ 20 ≤ pageImmediate (load 4 m loc) + codeToDataDelta.toInt / 4096 ∧
    pageImmediate (load 4 m loc) + codeToDataDelta.toInt / 4096 < 2 ^ 20
  | thumbMov movw movt kind => Lib.Apart 4 movw movt ∧ isThumbMovt (load 4 m movt) ∧
    0x10 ≤ kind ∧ kind ≤ 0x1F ∧ kind.setWidth 4 = topNibble (getThumbWord (load 4 m movw))
  | armMov movw movt kind => Lib.Apart 4 movw movt ∧
    0x20 ≤ kind ∧ kind ≤ 0x2F ∧ kind.setWidth 4 = topNibble (getArmWord (load 4 m movw))
  | _ => True

def Moved (codeToDataDelta : BitVec 64) (m m' : Mem) : CodeSite → Prop
  | pointer32 loc =>
    (load 4 m' loc : BitVec 32) = load 4 m loc + codeToDataDelta.setWidth 32
  | pointer64 loc => (load 8 m' loc : BitVec 64) = load 8 m loc + codeToDataDelta
  | adrp loc => 4096 * pageImmediate (load 4 m' loc) =
    4096 * pageImmediate (load 4 m loc) + codeToDataDelta.toInt
  | thumbMov movw movt _ =>
    getThumbWord (load 4 m' movt) ++ getThumbWord (load 4 m' movw) =
      (getThumbWord (load 4 m movt) ++ getThumbWord (load 4 m movw)) + codeToDataDelta.setWidth 32
  | armMov movw movt _ =>
    getArmWord (load 4 m' movt) ++ getArmWord (load 4 m' movw) =
      (getArmWord (load 4 m movt) ++ getArmWord (load 4 m movw)) + codeToDataDelta.setWidth 32

variable (site : CodeSite) (codeToDataDelta : BitVec 64) (m : Mem)

/-- Nothing but the immediates of the site differs. -/
def Kept (m' : Mem) : Prop :=
  (∀ x, (∀ e ∈ site.entries, ¬e.Holds x) → m' x = m x) ∧
    ∀ e ∈ site.entries, e.kind ≠ 2 →
      (load 4 m' e.textLoc : BitVec 32) &&& ~~~immediateBits e.kind =
        load 4 m e.textLoc &&& ~~~immediateBits e.kind

/-- The calls for the site, in whichever order, move what it denotes and nothing else. -/
def Preserved : Prop :=
  ∀ calls, calls.Perm site.entries →
    ∃ m', adjustEach codeToDataDelta calls m = .ok m' ∧ site.Moved codeToDataDelta m m' ∧
      site.Kept m m'

def NegativeAdrp : CodeSite → Prop
  | adrp loc => pageImmediate (load 4 m loc) < 0
  | _ => False

end CodeSite

section Sites

variable {site : CodeSite} {kind : BitVec 8} {codeToDataDelta : BitVec 64} {m m' : Mem}
  {instruction : BitVec 32} {w : Option (BitVec 32)} {movw movt : Nat}

lemma adjustThumbMovw_other : adjustThumbMovw codeToDataDelta instruction &&& 0xFFFFFFF0#32 =
    instruction &&& 0xFFFFFFF0#32 := by
  apply BitVec.eq_of_getLsbD_eq
  intro j hj
  interval_cases j <;> simp [adjustThumbMovw]

lemma adjustArmMovw_other : adjustArmMovw codeToDataDelta instruction &&& 0xFFF0FFFF#32 =
    instruction &&& 0xFFF0FFFF#32 := by
  apply BitVec.eq_of_getLsbD_eq
  intro j hj
  interval_cases j <;> simp [adjustArmMovw]

lemma adjustWord_other (h : adjustWord kind codeToDataDelta instruction = .ok w) :
    w.getD instruction &&& ~~~immediateBits kind = instruction &&& ~~~immediateBits kind := by
  unfold adjustWord at h
  split_ifs at h with h1 h3 hadrp h5 h6 ht hthumb ha
  · cases h
    simp [h1, immediateBits, operandBits]
  · cases h
    subst h3
    exact adjustAdrp_other
  · cases h
    rfl
  · cases h
    subst h5
    exact and_eq_and_of_subset adjustThumbMovw_other (by decide)
  · cases h
    subst h6
    exact and_eq_and_of_subset adjustArmMovw_other (by decide)
  · cases h
    have hbits : immediateBits kind = operandBits .thumbMovwMovt := by
      rw [immediateBits, if_neg h3, if_pos (Or.inr ht)]
    rw [hbits, Option.getD_some, adjustThumbMovt_eq]
    exact thumbMov_lawful.setWord_other _ _
  · cases h
    have hbits : immediateBits kind = operandBits .armMovwMovt := by
      rw [immediateBits, if_neg h3, if_neg (not_or.mpr ⟨h5, ht⟩), if_pos (Or.inr ha)]
    rw [hbits, Option.getD_some, adjustArmMovt_eq]
    exact armMov_lawful.setWord_other _ _
  · cases h
    rfl

lemma kept_of_adjusted (hframe : ∀ x, (∀ e ∈ site.entries, ¬e.Holds x) → m' x = m x)
    (h : ∀ e ∈ site.entries, e.Adjusted codeToDataDelta m m') : site.Kept m m' := by
  refine ⟨hframe, fun e he hk => ?_⟩
  have hadj := h e he
  rw [Entry.Adjusted, if_neg hk] at hadj
  obtain ⟨w, hw, hload⟩ := hadj
  rw [hload]
  exact adjustWord_other hw

/-- A kind of a `movt` is none of the kinds with a number of their own. -/
lemma ne_of_le {k : BitVec 8} (h : 0x10 ≤ kind) (hk : k < 0x10) : kind ≠ k := by
  bv_omega

lemma adjustWord_thumbMovt (hlo : 0x10 ≤ kind) (hhi : kind ≤ 0x1F) (h : isThumbMovt instruction) :
    adjustWord kind codeToDataDelta instruction =
      .ok (some (adjustThumbMovt kind codeToDataDelta instruction)) := by
  unfold adjustWord
  rw [if_neg (ne_of_le hlo (by decide)), if_neg (ne_of_le hlo (by decide)),
    if_neg (ne_of_le hlo (by decide)), if_neg (ne_of_le hlo (by decide)), if_pos ⟨hlo, hhi⟩,
    if_pos h]

lemma adjustWord_armMovt (hlo : 0x20 ≤ kind) (hhi : kind ≤ 0x2F) :
    adjustWord kind codeToDataDelta instruction =
      .ok (some (adjustArmMovt kind codeToDataDelta instruction)) := by
  have h10 : 0x10 ≤ kind := by bv_omega
  have hthumb : ¬(0x10 ≤ kind ∧ kind ≤ 0x1F) := by bv_omega
  unfold adjustWord
  rw [if_neg (ne_of_le h10 (by decide)), if_neg (ne_of_le h10 (by decide)),
    if_neg (ne_of_le h10 (by decide)), if_neg (ne_of_le h10 (by decide)), if_neg hthumb,
    if_pos ⟨hlo, hhi⟩]

lemma pair_apart {k : BitVec 8} (hk : k ≠ 2) (hkind : kind ≠ 2) (h : Lib.Apart 4 movw movt) :
    [(⟨k, movw⟩ : Entry), ⟨kind, movt⟩].Pairwise Entry.Apart := by
  rw [List.pairwise_pair]
  intro x hx
  unfold Entry.Holds Entry.width at *
  rw [if_neg hk] at hx
  rw [if_neg hkind]
  exact h.not_inWord hx

lemma entries_apart (h : site.Handled codeToDataDelta m) : site.entries.Pairwise Entry.Apart := by
  cases site with
  | pointer32 loc => exact List.pairwise_singleton _ _
  | pointer64 loc => exact List.pairwise_singleton _ _
  | adrp loc => exact List.pairwise_singleton _ _
  | thumbMov movw movt kind =>
    exact pair_apart (by decide) (ne_of_le h.2.2.1 (by decide)) h.1
  | armMov movw movt kind =>
    have hlo := h.2.1
    exact pair_apart (by decide) (ne_of_le (by bv_omega) (by decide)) h.1

lemma entries_ok (h : site.Handled codeToDataDelta m) :
    ∀ e ∈ site.entries, e.kind ≠ 2 →
      ∃ w, adjustWord e.kind codeToDataDelta (load 4 m e.textLoc) = .ok w := by
  intro e he hk
  cases site with
  | pointer32 loc =>
    rw [List.mem_singleton.mp he]
    exact ⟨_, rfl⟩
  | pointer64 loc => exact absurd (congrArg Entry.kind (List.mem_singleton.mp he)) hk
  | adrp loc =>
    rw [List.mem_singleton.mp he]
    exact ⟨_, rfl⟩
  | thumbMov movw movt kind =>
    rcases List.mem_pair.mp he with rfl | rfl
    · exact ⟨_, rfl⟩
    · exact ⟨_, adjustWord_thumbMovt h.2.2.1 h.2.2.2.1 h.2.1⟩
  | armMov movw movt kind =>
    rcases List.mem_pair.mp he with rfl | rfl
    · exact ⟨_, rfl⟩
    · exact ⟨_, adjustWord_armMovt h.2.1 h.2.2.1⟩

lemma calls_spec (h : site.Handled codeToDataDelta m) {calls : List Entry}
    (hc : calls.Perm site.entries) :
    ∃ m', adjustEach codeToDataDelta calls m = .ok m' ∧
      (∀ e ∈ site.entries, e.Adjusted codeToDataDelta m m') ∧ site.Kept m m' := by
  have hp : calls.Pairwise Entry.Apart :=
    hc.symm.pairwise (entries_apart h) (fun hab => hab.symm)
  obtain ⟨m', hm'⟩ := adjustEach_ok hp (fun e he => entries_ok h e (hc.mem_iff.mp he))
  obtain ⟨hadj, hframe⟩ := adjustEach_spec hp hm'
  have hall : ∀ e ∈ site.entries, e.Adjusted codeToDataDelta m m' :=
    fun e he => hadj e (hc.mem_iff.mpr he)
  refine ⟨m', hm', hall, kept_of_adjusted (fun x hx => ?_) hall⟩
  exact hframe x (fun e he => hx e (hc.mem_iff.mp he))

/-- Where its words are adjusted, a site denotes the new place, unless it is an `ADRP` that
reaches back. -/
lemma moved_iff (hd : codeToDataDelta.toNat % 4096 = 0) (h : site.Handled codeToDataDelta m)
    (hadj : ∀ e ∈ site.entries, e.Adjusted codeToDataDelta m m') :
    site.Moved codeToDataDelta m m' ↔ ¬site.NegativeAdrp m := by
  cases site with
  | pointer32 loc =>
    obtain ⟨w, hw, hload⟩ := hadj _ (List.mem_singleton_self _)
    cases hw
    refine iff_of_true ?_ not_false
    rw [CodeSite.Moved, hload]
    apply BitVec.eq_of_toNat_eq
    simp [adjustPointer32]
  | pointer64 loc =>
    have hload := hadj _ (List.mem_singleton_self _)
    exact iff_of_true hload not_false
  | adrp loc =>
    obtain ⟨hadrp, hlo, hhi⟩ := h
    obtain ⟨w, hw, hload⟩ := hadj _ (List.mem_singleton_self _)
    have hword : adjustWord 3 codeToDataDelta (load 4 m loc) =
        .ok (some (adjustAdrp codeToDataDelta (load 4 m loc))) := by
      change Except.ok (if isAdrp (load 4 m loc) then _ else _) = _
      rw [if_pos hadrp]
    rw [hword] at hw
    cases hw
    rw [CodeSite.Moved, CodeSite.NegativeAdrp, hload]
    exact pageImmediate_adjustAdrp hd hlo hhi
  | thumbMov movw movt kind =>
    obtain ⟨-, hmovt, hlo, hhi, hnib⟩ := h
    obtain ⟨w, hw, hload⟩ := hadj ⟨5, movw⟩ (List.mem_pair.mpr (Or.inl rfl))
    cases hw
    have hadj' := hadj ⟨kind, movt⟩ (List.mem_pair.mpr (Or.inr rfl))
    rw [Entry.Adjusted, if_neg (ne_of_le hlo (by decide)),
      adjustWord_thumbMovt hlo hhi hmovt] at hadj'
    obtain ⟨w, hw, hload'⟩ := hadj'
    cases hw
    refine iff_of_true ?_ not_false
    have hword := thumbMov_lawful.getWord_setWord (load 4 m movt)
      (newHighHalf kind (getThumbWord (load 4 m movt)) codeToDataDelta)
    rw [CodeSite.Moved, hload, hload', Option.getD_some, Option.getD_some, adjustThumbMovt_eq,
      getThumbWord_movw hd, ← newHighHalf_append hd hnib]
    exact congrArg (· ++ _) hword
  | armMov movw movt kind =>
    obtain ⟨-, hlo, hhi, hnib⟩ := h
    obtain ⟨w, hw, hload⟩ := hadj ⟨6, movw⟩ (List.mem_pair.mpr (Or.inl rfl))
    cases hw
    have hadj' := hadj ⟨kind, movt⟩ (List.mem_pair.mpr (Or.inr rfl))
    rw [Entry.Adjusted, if_neg (ne_of_le (by bv_omega) (by decide)),
      adjustWord_armMovt hlo hhi] at hadj'
    obtain ⟨w, hw, hload'⟩ := hadj'
    cases hw
    refine iff_of_true ?_ not_false
    have hword := armMov_lawful.getWord_setWord (load 4 m movt)
      (newHighHalf kind (getArmWord (load 4 m movt)) codeToDataDelta)
    rw [CodeSite.Moved, hload, hload', Option.getD_some, Option.getD_some, adjustArmMovt_eq,
      getArmWord_movw hd, ← newHighHalf_append hd hnib]
    exact congrArg (· ++ _) hword

end Sites

/-- The calls for a place of the code move what it denotes by the delta and change no other bit,
in whichever order they are made, except for an `ADRP` with a negative immediate. -/
theorem preserved_iff (site : CodeSite) (codeToDataDelta : BitVec 64) (m : Mem)
    (hd : codeToDataDelta.toNat % 4096 = 0) (h : site.Handled codeToDataDelta m) :
    site.Preserved codeToDataDelta m ↔ ¬site.NegativeAdrp m := by
  constructor
  · intro hp
    obtain ⟨m', hm', hmoved, -⟩ := hp site.entries (List.Perm.refl _)
    obtain ⟨m'', hm'', hadj, -⟩ := calls_spec h (List.Perm.refl site.entries)
    rw [hm'] at hm''
    cases hm''
    exact (moved_iff hd h hadj).mp hmoved
  · intro hn calls hc
    obtain ⟨m', hm', hadj, hkept⟩ := calls_spec h hc
    exact ⟨m', hm', (moved_iff hd h hadj).mpr hn, hkept⟩

/-- An `ADRP` of the page after its own. -/
def adrpForward : Mem := store 4 (fun _ => 0) 0 (0xB0000000#32 : BitVec 32)

/-- An `ADRP` of the page before its own. -/
def adrpBack : Mem := store 4 (fun _ => 0) 0 (0xF0FFFFE0#32 : BitVec 32)

lemma handled_adrp {word : BitVec 32} {delta : BitVec 64} (hadrp : isAdrp word)
    (hlo : -2 ^ 20 ≤ pageImmediate word + delta.toInt / 4096)
    (hhi : pageImmediate word + delta.toInt / 4096 < 2 ^ 20) :
    (CodeSite.adrp 0).Handled delta (store 4 (fun _ => 0) 0 word) := by
  rw [CodeSite.Handled, load_store_same]
  exact ⟨hadrp, hlo, hhi⟩

lemma negativeAdrp_store {word : BitVec 32} :
    (CodeSite.adrp 0).NegativeAdrp (store 4 (fun _ => 0) 0 word) ↔ pageImmediate word < 0 := by
  rw [CodeSite.NegativeAdrp, load_store_same]

theorem preserved_adrpForward : (CodeSite.adrp 0).Preserved 0x2000 adrpForward := by
  refine (preserved_iff _ _ _ (by decide) (handled_adrp ?_ ?_ ?_)).mpr ?_
  · decide
  · decide
  · decide
  · exact negativeAdrp_store.not.mpr (by decide)

/-- Two pages further, an `ADRP` of the page before its own is that of a page 4 GiB before. -/
theorem not_preserved_adrpBack : (CodeSite.adrp 0).Handled 0x2000 adrpBack ∧
    ¬(CodeSite.adrp 0).Preserved 0x2000 adrpBack := by
  have hh : (CodeSite.adrp 0).Handled 0x2000 adrpBack :=
    handled_adrp (by decide) (by decide) (by decide)
  refine ⟨hh, fun hp => ?_⟩
  obtain ⟨m', hm', hmoved, -⟩ := hp _ (List.Perm.refl _)
  obtain ⟨m'', hm'', hadj, -⟩ := calls_spec hh (List.Perm.refl _)
  rw [hm'] at hm''
  cases hm''
  refine (moved_iff (by decide) hh hadj).mp hmoved ?_
  exact negativeAdrp_store.mpr (by decide)

/-! ### The whole code -/

/-- Split-seg info of format 1 for lists of deltas, each under its kind. -/
def codeInfo (groups : List (UInt8 × List Nat)) : List UInt8 :=
  groups.flatMap (fun g => g.1 :: (g.2.flatMap appendUleb128 ++ [0])) ++ [0]

def entriesFrom (kind : BitVec 8) : Nat → List Nat → List Entry
  | _, [] => []
  | textLoc, delta :: deltas =>
    ⟨kind, textLoc + delta⟩ :: entriesFrom kind (textLoc + delta) deltas

def codeEntries (dstSegment : Nat) (groups : List (UInt8 × List Nat)) : List Entry :=
  groups.flatMap (fun g => entriesFrom g.1.toBitVec dstSegment g.2)

section Run

variable {kind : BitVec 8} {codeToDataDelta : BitVec 64}

lemma adjustEach_append (a b : List Entry) (m : Mem) :
    adjustEach codeToDataDelta (a ++ b) m =
      (adjustEach codeToDataDelta a m).bind (adjustEach codeToDataDelta b) := by
  unfold adjustEach
  rw [List.foldlM_append]
  rfl

lemma length_le_flatMap {α β : Type} {f : α → List β} (hf : ∀ a, f a ≠ []) (l : List α) :
    l.length ≤ (l.flatMap f).length := by
  induction l with
  | nil => exact Nat.le_refl 0
  | cons a l ih =>
    have ha := List.length_pos_iff.mpr (hf a)
    rw [List.flatMap_cons, List.length_append, List.length_cons]
    omega

lemma readUleb128Checked_zero (rest : List UInt8) : readUleb128Checked (0 :: rest) = .ok (0, rest) :=
  readUleb128Checked_appendUleb128 (v := 0) (by decide) rest

lemma adjustLocations_eq {deltas : List Nat} (hd : ∀ d ∈ deltas, d ≠ 0 ∧ d < 2 ^ 64)
    (rest : List UInt8) {n : Nat} (hn : deltas.length < n) (textLoc : Nat) (m : Mem) :
    adjustLocations kind codeToDataDelta n (deltas.flatMap appendUleb128 ++ 0 :: rest) textLoc m =
      (adjustEach codeToDataDelta (entriesFrom kind textLoc deltas) m).map (fun m => (rest, m)) := by
  induction deltas generalizing n textLoc m with
  | nil =>
    obtain ⟨n, rfl⟩ := Nat.exists_eq_succ_of_ne_zero (Nat.ne_of_gt hn)
    rw [adjustLocations, List.flatMap_nil, List.nil_append, readUleb128Checked_zero]
    rfl
  | cons d deltas ih =>
    obtain ⟨n, rfl⟩ := Nat.exists_eq_succ_of_ne_zero (Nat.ne_of_gt (Nat.zero_lt_of_lt hn))
    obtain ⟨hne, hlt⟩ := hd d List.mem_cons_self
    rw [adjustLocations, List.flatMap_cons, List.append_assoc,
      readUleb128Checked_appendUleb128 hlt]
    dsimp only
    rw [if_neg hne, entriesFrom, adjustEach, List.foldlM_cons]
    cases adjustInstruction kind (textLoc + d) codeToDataDelta m with
    | error e => rfl
    | ok m₁ =>
      exact ih (fun d hm => hd d (List.mem_cons_of_mem _ hm)) (Nat.lt_of_succ_lt_succ hn)
        (textLoc + d) m₁

end Run

/-- Over well-formed split-seg info `adjustCode` makes one call for each location listed. -/
theorem adjustCode_codeInfo (groups : List (UInt8 × List Nat))
    (hg : ∀ g ∈ groups, g.1 ≠ 0 ∧ ∀ d ∈ g.2, d ≠ 0 ∧ d < 2 ^ 64) (dstSegment : Nat)
    (slide0 slide1 : BitVec 64) (m : Mem) :
    adjustCode (codeInfo groups) dstSegment slide0 slide1 m =
      adjustEach (slide1 - slide0) (codeEntries dstSegment groups) m := by
  have hloop : ∀ n, groups.length < n →
      adjustGroups dstSegment (slide1 - slide0) n (codeInfo groups) m =
        adjustEach (slide1 - slide0) (codeEntries dstSegment groups) m := by
    induction groups generalizing m with
    | nil =>
      intro n hn
      obtain ⟨n, rfl⟩ := Nat.exists_eq_succ_of_ne_zero (Nat.ne_of_gt hn)
      rfl
    | cons g groups ih =>
      intro n hn
      obtain ⟨n, rfl⟩ := Nat.exists_eq_succ_of_ne_zero (Nat.ne_of_gt (Nat.zero_lt_of_lt hn))
      obtain ⟨hk, hd⟩ := hg g List.mem_cons_self
      have hbytes : codeInfo (g :: groups) =
          g.1 :: (g.2.flatMap appendUleb128 ++ 0 :: codeInfo groups) := by
        simp [codeInfo]
      have hlen : g.2.length < (g.2.flatMap appendUleb128 ++ 0 :: codeInfo groups).length + 1 := by
        have hle := length_le_flatMap appendUleb128_ne_nil g.2
        rw [List.length_append]
        omega
      rw [hbytes, adjustGroups, if_neg hk, adjustLocations_eq hd _ hlen, codeEntries,
        List.flatMap_cons, adjustEach_append]
      cases adjustEach (slide1 - slide0) (entriesFrom g.1.toBitVec dstSegment g.2) m with
      | error e => rfl
      | ok m₁ =>
        exact ih (fun g hm => hg g (List.mem_cons_of_mem _ hm)) m₁ n (Nat.lt_of_succ_lt_succ hn)
  refine hloop _ ?_
  have hle := length_le_flatMap (f := fun g : UInt8 × List Nat =>
    g.1 :: (g.2.flatMap appendUleb128 ++ [0])) (fun _ => List.cons_ne_nil _ _) groups
  rw [codeInfo, List.length_append, List.length_singleton]
  omega

theorem adjustCode_codeInfo_twoKinds :
    adjustCode (codeInfo [(2, [8, 0x100]), (1, [4])]) 0x1000 0x2000 0x6000 (fun _ => 0) =
      adjustEach 0x4000 [⟨2, 0x1008⟩, ⟨2, 0x1108⟩, ⟨1, 0x1004⟩] (fun _ => 0) :=
  adjustCode_codeInfo [(2, [8, 0x100]), (1, [4])] (by decide) 0x1000 0x2000 0x6000 (fun _ => 0)

end Dyld.Cache.SplitSegV1
