import Mathlib

/-!
# The array classes

`Array` has a storage that it is given, `OverflowSafeArray` moves to pages of its own when the storage is
full, and `GrowableArray` moves from a storage inside of it to the heap. A cell of a storage is `none`
when nothing is known about what is in it.
-/

namespace Dyld.Containers

/-- What a call ends with when it does not end well. -/
inductive ArrayFault
  | assertion
  | undefined
  deriving DecidableEq

/-- The fields of the classes, and the cells from `_elements` on. -/
structure ArrayStorage (T : Type*) where
  cells : List (Option T)
  allocCount : Nat
  usedCount : Nat
  overflowBufferSize : Nat

namespace ArrayStorage

variable {T : Type*} (s : ArrayStorage T)

def new (cells : List (Option T)) : ArrayStorage T := ⟨cells, cells.length, 0, 0⟩

/-! ### What the classes share -/

def count : Nat := s.usedCount

/-- The cells from `begin()` to `end()`. -/
def iterate : List (Option T) := s.cells.take s.usedCount

/-- `operator[]` -/
def subscript (idx : Nat) : Except ArrayFault (Option T) :=
  if idx < s.usedCount then
    match s.cells[idx]? with
    | some cell => .ok cell
    | none => .error .undefined
  else .error .assertion

def store (t : T) : Except ArrayFault (ArrayStorage T) :=
  if s.usedCount < s.cells.length then
    .ok { s with cells := s.cells.set s.usedCount (some t), usedCount := s.usedCount + 1 }
  else .error .undefined

def popBack : Except ArrayFault (ArrayStorage T) :=
  if 0 < s.usedCount then .ok { s with usedCount := s.usedCount - 1 } else .error .assertion

/-- The elements are copied to a new buffer. -/
def moveTo (newCount newCells : Nat) : Except ArrayFault (ArrayStorage T) :=
  if s.usedCount ≤ newCells then
    .ok { s with cells := s.cells.take s.usedCount ++ List.replicate (newCells - s.usedCount) none
                 allocCount := newCount }
  else .error .undefined

/-- `memmove(&_elements[idx], &_elements[idx+1], sizeof(T)*moveCount)` -/
def moveDown (idx moveCount : Nat) : Except ArrayFault (ArrayStorage T) :=
  if idx + 1 + moveCount ≤ s.cells.length then
    .ok { s with cells := s.cells.take idx ++ (s.cells.drop (idx + 1)).take moveCount ++
                   s.cells.drop (idx + moveCount) }
  else .error .undefined

def remove (idx : Nat) : Except ArrayFault (ArrayStorage T) :=
  if idx < s.usedCount then s.moveDown idx (s.usedCount - idx - 1) else .error .assertion

def verifySpace (growTo : ArrayStorage T → Nat → Except ArrayFault (ArrayStorage T)) (n : Nat) :
    Except ArrayFault (ArrayStorage T) :=
  if s.allocCount < (s.usedCount + n) % 2 ^ 64 then growTo s ((s.usedCount + n) % 2 ^ 64) else .ok s

end ArrayStorage

/-! ### The classes -/

inductive ArrayCall (T : Type*)
  | pushBack (t : T)
  | popBack
  | append (a : List T)
  | erase (index : Nat)
  | remove (idx : Nat)
  | clear
  | reserve (n : Nat)
  | resize (n : Nat)

/-- A class with its template arguments other than the type. -/
inductive ArrayClass
  | array
  | overflowSafeArray (MAXCOUNT : Nat)
  | growableArray (QUANT : Nat)

/-- What the classes depend on: the sizes of an element and of a page, and whether `memcpy` copies
overlapping regions as `memmove` does. -/
structure ArrayPlatform where
  sizeofT : Nat
  pageSize : Nat
  memcpyMoves : Bool
  sizeofT_pos : 0 < sizeofT
  pageSize_pos : 0 < pageSize

section Classes

variable {T : Type*} (platform : ArrayPlatform)

def ArrayPlatform.roundPage (x : Nat) : Nat :=
  (x + platform.pageSize - 1) % 2 ^ 64 / platform.pageSize * platform.pageSize

def noMaxCount : Nat := 0xFFFFFFFF

def overflowGrowTo (MAXCOUNT : Nat) (s : ArrayStorage T) (n : Nat) : Except ArrayFault (ArrayStorage T) :=
  if MAXCOUNT ≠ noMaxCount ∧ s.overflowBufferSize ≠ 0 then .error .assertion
  else do
    let count := if MAXCOUNT ≠ noMaxCount then max MAXCOUNT n else max (s.allocCount * 2 % 2 ^ 64) n
    let overflowBufferSize := platform.roundPage (count * platform.sizeofT % 2 ^ 64)
    let s ← s.moveTo (overflowBufferSize / platform.sizeofT) (overflowBufferSize / platform.sizeofT)
    return { s with overflowBufferSize }

def growableGrowTo (QUANT : Nat) (s : ArrayStorage T) (n : Nat) : Except ArrayFault (ArrayStorage T) :=
  let newCount := (n + QUANT - 1) % 2 ^ 64 &&& (2 ^ 64 - QUANT)
  s.moveTo newCount (platform.sizeofT * newCount % 2 ^ 64 / platform.sizeofT)

def arrayCall (s : ArrayStorage T) : ArrayCall T → Except ArrayFault (ArrayStorage T)
  | .pushBack t => if s.usedCount < s.allocCount then s.store t else .error .assertion
  | .popBack => s.popBack
  | .remove idx => s.remove idx
  | _ => .ok s

def reserve (MAXCOUNT : Nat) (s : ArrayStorage T) (n : Nat) : Except ArrayFault (ArrayStorage T) :=
  if s.allocCount < n then overflowGrowTo platform MAXCOUNT s n else .ok s

def overflowSafeArrayCall (MAXCOUNT : Nat) (s : ArrayStorage T) :
    ArrayCall T → Except ArrayFault (ArrayStorage T)
  | .pushBack t => do
    let s ← s.verifySpace (overflowGrowTo platform MAXCOUNT) 1
    s.store t
  | .popBack => s.popBack
  | .remove idx => s.remove idx
  | .clear => .ok { s with usedCount := 0 }
  | .reserve n => reserve platform MAXCOUNT s n
  | .resize n =>
    if n = s.usedCount then .ok s
    else if n < s.usedCount then .ok { s with usedCount := n }
    else do
      let s ← reserve platform MAXCOUNT s n
      return { s with usedCount := n }
  | _ => .ok s

def growableArrayCall (QUANT : Nat) (s : ArrayStorage T) :
    ArrayCall T → Except ArrayFault (ArrayStorage T)
  | .pushBack t => do
    let s ← s.verifySpace (growableGrowTo platform QUANT) 1
    s.store t
  | .append a => do
    let s ← s.verifySpace (growableGrowTo platform QUANT) a.length
    if s.usedCount + a.length ≤ s.cells.length then
      return { s with cells := s.cells.take s.usedCount ++ a.map some ++ s.cells.drop (s.usedCount + a.length)
                      usedCount := s.usedCount + a.length }
    else .error .undefined
  | .popBack => s.popBack
  | .erase index =>
    if index < s.usedCount then do
      let moveCount := s.usedCount - index - 1
      -- the regions overlap when more than one element moves
      let s ← if 1 < moveCount ∧ !platform.memcpyMoves then .error .undefined else s.moveDown index moveCount
      return { s with usedCount := s.usedCount - 1 }
    else .error .assertion
  | _ => .ok s

namespace ArrayClass

def call (c : ArrayClass) (s : ArrayStorage T) (call : ArrayCall T) : Except ArrayFault (ArrayStorage T) :=
  match c with
  | array => arrayCall s call
  | overflowSafeArray MAXCOUNT => overflowSafeArrayCall platform MAXCOUNT s call
  | growableArray QUANT => growableArrayCall platform QUANT s call

def run (c : ArrayClass) (s : ArrayStorage T) (calls : List (ArrayCall T)) :
    Except ArrayFault (ArrayStorage T) :=
  calls.foldlM (c.call platform) s

def Offers : ArrayClass → ArrayCall T → Prop
  | array, .pushBack _ | array, .popBack | array, .remove _ => True
  | overflowSafeArray _, .append _ | overflowSafeArray _, .erase _ => False
  | overflowSafeArray _, _ => True
  | growableArray _, .pushBack _ | growableArray _, .append _ => True
  | growableArray _, .popBack | growableArray _, .erase _ => True
  | _, _ => False

/-- `QUANT` is a power of two that an `int` holds. -/
def Valid : ArrayClass → Prop
  | growableArray QUANT => ∃ k < 31, QUANT = 2 ^ k
  | _ => True

end ArrayClass

end Classes

/-! ### Lists -/

/-- The call on a list. What is in new elements of `resize` is not known. -/
def ArrayCall.onList {T : Type*} (l : List (Option T)) : ArrayCall T → List (Option T)
  | .pushBack t => l ++ [some t]
  | .popBack => l.dropLast
  | .append a => l ++ a.map some
  | .erase i | .remove i => l.eraseIdx i
  | .clear => []
  | .reserve _ => l
  | .resize n => l.take n ++ List.replicate (n - l.length) none

structure ArrayStorage.Refines {T : Type*} (s : ArrayStorage T) (l : List (Option T)) : Prop where
  count : s.count = l.length
  subscript : ∀ (idx : Nat) t, l[idx]? = some (some t) → s.subscript idx = .ok (some t)
  iterate : List.Forall₂ (fun expected seen => expected = none ∨ seen = expected) l s.iterate
  capacity : s.count ≤ s.allocCount

section Conditions

variable {T : Type*} (platform : ArrayPlatform)

/-- The bytes that a class allocates for at least `n` elements can be counted in 64 bits. -/
def ArrayClass.BytesFit (c : ArrayClass) (s : ArrayStorage T) (n : Nat) : Prop :=
  match c with
  | array => True
  | overflowSafeArray MAXCOUNT =>
    max (if MAXCOUNT ≠ noMaxCount then MAXCOUNT else s.allocCount * 2) n * platform.sizeofT +
      platform.pageSize ≤ 2 ^ 64
  | growableArray QUANT => (n + QUANT) * platform.sizeofT ≤ 2 ^ 64

instance (c : ArrayClass) (s : ArrayStorage T) (n : Nat) : Decidable (c.BytesFit platform s n) :=
  match c with
  | .array => .isTrue trivial
  | .overflowSafeArray _ => inferInstanceAs (Decidable (_ ≤ _))
  | .growableArray _ => inferInstanceAs (Decidable (_ ≤ _))

/-- When a call does to a class what it does to a list. `remove` never does. -/
def ArrayClass.Fits (c : ArrayClass) (s : ArrayStorage T) : ArrayCall T → Prop
  | .pushBack _ => s.allocCount < s.usedCount + 1 → c.BytesFit platform s (s.usedCount + 1)
  | .append a => s.allocCount < s.usedCount + a.length → c.BytesFit platform s (s.usedCount + a.length)
  | .reserve n | .resize n => s.allocCount < n → c.BytesFit platform s n
  | .erase index => platform.memcpyMoves = true ∨ s.usedCount ≤ index + 2
  | .remove _ => False
  | .popBack | .clear => True

def ArrayClass.AllFit (c : ArrayClass) (s : ArrayStorage T) : List (ArrayCall T) → Prop
  | [] => True
  | call :: rest => c.Fits platform s call ∧
      ∀ s', c.call platform s call = .ok s' → ArrayClass.AllFit c s' rest

end Conditions

/-! ### Results -/

/-- A result with the property, or an assertion that does not hold. -/
def Ends {α : Type*} (P : α → Prop) : Except ArrayFault α → Prop
  | .ok a => P a
  | .error .assertion => True
  | .error .undefined => False

section Ends

universe u

variable {α β : Type u} {P : α → Prop} {x : Except ArrayFault α}

lemma Ends.bind {R : β → Prop} {f : α → Except ArrayFault β} (hx : Ends P x)
    (hf : ∀ a, P a → Ends R (f a)) : Ends R (x >>= f) := by
  cases x with
  | ok a => exact hf a hx
  | error fault =>
    cases fault with
    | assertion => trivial
    | undefined => exact hx.elim

lemma Ends.ne_undefined (hx : Ends P x) : x ≠ .error .undefined := by
  rintro rfl
  exact hx

lemma Ends.of_ok (hx : Ends P x) {a : α} (h : x = .ok a) : P a := by
  subst h
  exact hx

end Ends

namespace ArrayStorage

section Represents

variable {T : Type*}

structure Represents (s : ArrayStorage T) (l : List (Option T)) : Prop where
  count : s.usedCount = l.length
  elements : ∀ (idx : Nat) t, l[idx]? = some (some t) → s.cells[idx]? = some (some t)
  capacity : s.usedCount ≤ s.allocCount
  buffer : s.allocCount ≤ s.cells.length
  alloc_lt : s.allocCount < 2 ^ 64

variable {s : ArrayStorage T} {l : List (Option T)}

lemma lt_of_getElem? {idx : Nat} {cell : Option T} (h : l[idx]? = some cell) : idx < l.length :=
  (List.getElem?_eq_some_iff.mp h).1

lemma Represents.refines (h : s.Represents l) : s.Refines l := by
  have hused : s.usedCount ≤ s.cells.length := h.capacity.trans h.buffer
  constructor
  · exact h.count
  · intro idx t hidx
    rw [subscript, h.count, if_pos (lt_of_getElem? hidx), h.elements idx t hidx]
  · have hlength : s.iterate.length = l.length := by
      rw [iterate, List.length_take, min_eq_left hused, h.count]
    apply List.forall₂_of_length_eq_of_get hlength.symm
    intro i hi hseen
    simp only [List.get_eq_getElem, iterate, List.getElem_take]
    cases hexpected : l[i] with
    | none => exact Or.inl rfl
    | some t =>
      have hcell := h.elements i t (by rw [List.getElem?_eq_getElem hi, hexpected])
      exact Or.inr (List.getElem?_eq_some_iff.mp hcell).2
  · exact h.capacity

lemma represents_new {cells : List (Option T)} (hlt : cells.length < 2 ^ 64) : (new cells).Represents [] :=
  ⟨rfl, nofun, Nat.zero_le _, le_rfl, hlt⟩

/-! ### Parts of calls -/

lemma Represents.store (h : s.Represents l) (hroom : s.usedCount < s.allocCount) (t : T) :
    Ends (fun s' => s'.Represents (l ++ [some t])) (s.store t) := by
  rw [ArrayStorage.store, if_pos (hroom.trans_le h.buffer)]
  constructor
  · rw [List.length_append, ← h.count]
    rfl
  · intro idx t' hidx
    dsimp only
    rcases Nat.lt_or_ge idx l.length with hlt | hge
    · rw [List.getElem?_append_left hlt] at hidx
      rw [List.getElem?_set_ne (by rw [h.count]; omega)]
      exact h.elements idx t' hidx
    · have hlast : idx = s.usedCount := by
        have hlt := lt_of_getElem? hidx
        rw [List.length_append, List.length_singleton] at hlt
        rw [h.count]
        omega
      rw [hlast, List.getElem?_set_self (hroom.trans_le h.buffer)]
      rw [hlast, h.count, List.getElem?_concat_length] at hidx
      exact hidx
  · exact hroom
  · dsimp only
    rw [List.length_set]
    exact h.buffer
  · exact h.alloc_lt

lemma Represents.shrink (h : s.Represents l) {l' : List (Option T)} (hlength : l'.length ≤ l.length)
    (hstart : ∀ (idx : Nat) t, l'[idx]? = some (some t) → l[idx]? = some (some t)) :
    { s with usedCount := l'.length }.Represents l' :=
  ⟨rfl, fun idx t hidx => h.elements idx t (hstart idx t hidx),
    (hlength.trans_eq h.count.symm).trans h.capacity, h.buffer, h.alloc_lt⟩

lemma Represents.popBack (h : s.Represents l) : Ends (fun s' => s'.Represents l.dropLast) s.popBack := by
  unfold ArrayStorage.popBack
  split_ifs
  · have hlength : s.usedCount - 1 = l.dropLast.length := by rw [List.length_dropLast, h.count]
    rw [hlength]
    apply h.shrink
    · rw [List.length_dropLast]
      exact Nat.sub_le _ _
    · intro idx t hidx
      rw [List.getElem?_dropLast] at hidx
      split_ifs at hidx
      exact hidx
  · trivial

/-- A list that grows without new elements being known. -/
lemma Represents.extend (h : s.Represents l) {n : Nat} (hle : l.length ≤ n) (hroom : n ≤ s.allocCount) :
    { s with usedCount := n }.Represents (l ++ List.replicate (n - l.length) none) := by
  constructor
  · rw [List.length_append, List.length_replicate]
    dsimp only
    omega
  · intro idx t hidx
    rcases Nat.lt_or_ge idx l.length with hlt | hge
    · rw [List.getElem?_append_left hlt] at hidx
      exact h.elements idx t hidx
    · rw [List.getElem?_append_right hge] at hidx
      cases List.eq_of_mem_replicate (List.mem_of_getElem? hidx)
  · exact hroom
  · exact h.buffer
  · exact h.alloc_lt

lemma Represents.moveTo (h : s.Represents l) {n newCount newCells : Nat} (hused : s.usedCount ≤ n)
    (hn : n ≤ newCount) (hcells : newCount ≤ newCells) (hlt : newCount < 2 ^ 64) :
    Ends (fun s' => s'.Represents l ∧ n ≤ s'.allocCount) (s.moveTo newCount newCells) := by
  have hfits : s.usedCount ≤ s.cells.length := h.capacity.trans h.buffer
  have htake : (s.cells.take s.usedCount).length = s.usedCount := by
    rw [List.length_take, min_eq_left hfits]
  rw [ArrayStorage.moveTo, if_pos (hused.trans (hn.trans hcells))]
  refine ⟨⟨h.count, ?_, hused.trans hn, ?_, hlt⟩, hn⟩
  · intro idx t hidx
    have hlt : idx < s.usedCount := by
      rw [h.count]
      exact lt_of_getElem? hidx
    dsimp only
    rw [List.getElem?_append_left (htake.symm ▸ hlt), List.getElem?_take_of_lt hlt]
    exact h.elements idx t hidx
  · dsimp only
    rw [List.length_append, htake, List.length_replicate]
    omega

lemma getElem?_moveDown {cells : List (Option T)} {idx moveCount j : Nat}
    (hfits : idx + 1 + moveCount ≤ cells.length) (hj : j < idx + moveCount) :
    (cells.take idx ++ (cells.drop (idx + 1)).take moveCount ++ cells.drop (idx + moveCount))[j]? =
      if j < idx then cells[j]? else cells[j + 1]? := by
  have hfirst : (cells.take idx).length = idx := by
    rw [List.length_take]
    omega
  have hmoved : ((cells.drop (idx + 1)).take moveCount).length = moveCount := by
    rw [List.length_take, List.length_drop]
    omega
  rw [List.getElem?_append_left (by rw [List.length_append, hfirst, hmoved]; exact hj)]
  split_ifs with hlt
  · rw [List.getElem?_append_left (hfirst.symm ▸ hlt), List.getElem?_take_of_lt hlt]
  · rw [List.getElem?_append_right (by omega), hfirst, List.getElem?_take_of_lt (by omega),
      List.getElem?_drop]
    congr 1
    omega

/-- An element is taken out when the count gets less as well. -/
lemma Represents.moveDown (h : s.Represents l) {idx : Nat} (hidx : idx < s.usedCount) :
    Ends (fun s' => { s' with usedCount := s'.usedCount - 1 }.Represents (l.eraseIdx idx))
      (s.moveDown idx (s.usedCount - idx - 1)) := by
  have hused : s.usedCount ≤ s.cells.length := h.capacity.trans h.buffer
  have hfits : idx + 1 + (s.usedCount - idx - 1) ≤ s.cells.length := by omega
  have hcount := h.count
  rw [ArrayStorage.moveDown, if_pos hfits]
  refine ⟨?_, ?_, ?_, ?_, h.alloc_lt⟩
  · rw [List.length_eraseIdx_of_lt (hcount ▸ hidx)]
    dsimp only
    omega
  · intro j t hj
    have hlt := lt_of_getElem? hj
    rw [List.length_eraseIdx_of_lt (hcount ▸ hidx)] at hlt
    dsimp only
    rw [getElem?_moveDown hfits (by omega)]
    rw [List.getElem?_eraseIdx] at hj
    split_ifs at hj ⊢
    · exact h.elements j t hj
    · exact h.elements (j + 1) t hj
  · exact (Nat.sub_le _ _).trans h.capacity
  · dsimp only
    rw [List.length_append, List.length_append, List.length_take, List.length_take, List.length_drop,
      List.length_drop]
    have hbuffer := h.buffer
    omega

lemma Represents.verifySpace (h : s.Represents l)
    {growTo : ArrayStorage T → Nat → Except ArrayFault (ArrayStorage T)} {n : Nat}
    (hsum : s.usedCount + n < 2 ^ 64 ∨ s.usedCount + n ≤ s.allocCount)
    (hgrow : s.allocCount < s.usedCount + n →
      Ends (fun s' => s'.Represents l ∧ s.usedCount + n ≤ s'.allocCount) (growTo s (s.usedCount + n))) :
    Ends (fun s' => s'.Represents l ∧ s.usedCount + n ≤ s'.allocCount) (s.verifySpace growTo n) := by
  have hlt : s.usedCount + n < 2 ^ 64 := hsum.elim id fun hle => hle.trans_lt h.alloc_lt
  rw [ArrayStorage.verifySpace, Nat.mod_eq_of_lt hlt]
  split_ifs with hfull
  · exact hgrow hfull
  · exact ⟨h, Nat.le_of_not_lt hfull⟩

end Represents

end ArrayStorage

/-! ### Growing -/

section Growing

variable {T : Type*} {platform : ArrayPlatform} {s : ArrayStorage T} {l : List (Option T)}

/-- Rounding a number of elements up to a power of two. -/
lemma and_neg_two_pow {k x : Nat} (hk : k ≤ 64) (hx : x < 2 ^ 64) :
    x &&& (2 ^ 64 - 2 ^ k) = x / 2 ^ k * 2 ^ k := by
  have hmask : 2 ^ 64 - 2 ^ k = (2 ^ (64 - k) - 1) * 2 ^ k := by
    rw [Nat.sub_mul, Nat.one_mul, ← Nat.pow_add, Nat.sub_add_cancel hk]
  apply Nat.eq_of_testBit_eq
  intro i
  rw [Nat.testBit_and, hmask, Nat.testBit_mul_two_pow, Nat.testBit_mul_two_pow, Nat.testBit_two_pow_sub_one,
    Nat.testBit_div_two_pow]
  by_cases hki : k ≤ i
  · rw [Nat.sub_add_cancel hki]
    by_cases hi : i < 64
    · have hlt : i - k < 64 - k := by omega
      simp [hki, hlt]
    · have hhigh : x.testBit i = false :=
        Nat.testBit_lt_two_pow (hx.trans_le (Nat.pow_le_pow_right Nat.two_pos (Nat.le_of_not_lt hi)))
      rw [hhigh]
      simp
  · simp [hki]

lemma ArrayPlatform.roundPage_bounds {x : Nat} (hx : x + platform.pageSize ≤ 2 ^ 64) :
    x ≤ platform.roundPage x ∧ platform.roundPage x < 2 ^ 64 := by
  have hpage := platform.pageSize_pos
  have hsum : (x + platform.pageSize - 1) % 2 ^ 64 = x + platform.pageSize - 1 :=
    Nat.mod_eq_of_lt (by omega)
  have hdiv := Nat.div_add_mod (x + platform.pageSize - 1) platform.pageSize
  have hmod := Nat.mod_lt (x + platform.pageSize - 1) hpage
  rw [ArrayPlatform.roundPage, hsum, Nat.mul_comm]
  omega

lemma ArrayStorage.Represents.overflowGrowTo (h : s.Represents l) {MAXCOUNT n : Nat}
    (hn : s.allocCount < n) (hfits : (ArrayClass.overflowSafeArray MAXCOUNT).BytesFit platform s n) :
    Ends (fun s' => s'.Represents l ∧ n ≤ s'.allocCount)
      (Containers.overflowGrowTo platform MAXCOUNT s n) := by
  rw [Containers.overflowGrowTo]
  by_cases honce : MAXCOUNT ≠ noMaxCount ∧ s.overflowBufferSize ≠ 0
  · rw [if_pos honce]
    trivial
  · rw [if_neg honce]
    have hsize := platform.sizeofT_pos
    have hpage := platform.pageSize_pos
    rw [ArrayClass.BytesFit] at hfits
    -- the number of elements does not overflow
    have hcount : (if MAXCOUNT ≠ noMaxCount then max MAXCOUNT n else max (s.allocCount * 2 % 2 ^ 64) n) =
        max (if MAXCOUNT ≠ noMaxCount then MAXCOUNT else s.allocCount * 2) n := by
      split_ifs at hfits ⊢
      · rfl
      · have hmul := Nat.le_mul_of_pos_right (max (s.allocCount * 2) n) hsize
        have hmax := Nat.le_max_left (s.allocCount * 2) n
        rw [Nat.mod_eq_of_lt (by omega)]
    rw [hcount]
    generalize hc : max (if MAXCOUNT ≠ noMaxCount then MAXCOUNT else s.allocCount * 2) n = count at hfits ⊢
    have hle : n ≤ count := hc ▸ Nat.le_max_right _ _
    have hbytes : count * platform.sizeofT < 2 ^ 64 := by omega
    dsimp only
    rw [Nat.mod_eq_of_lt hbytes]
    obtain ⟨hround, hlt⟩ := platform.roundPage_bounds hfits
    generalize platform.roundPage (count * platform.sizeofT) = size at hround hlt ⊢
    have hcells : count ≤ size / platform.sizeofT := (Nat.le_div_iff_mul_le hsize).mpr hround
    have hmoved := h.moveTo (h.capacity.trans hn.le) (hle.trans hcells) le_rfl
      ((Nat.div_le_self _ _).trans_lt hlt)
    apply hmoved.bind
    rintro s' ⟨hs', hroom⟩
    exact ⟨⟨hs'.count, hs'.elements, hs'.capacity, hs'.buffer, hs'.alloc_lt⟩, hroom⟩

lemma ArrayStorage.Represents.growableGrowTo (h : s.Represents l) {QUANT n : Nat}
    (hvalid : (ArrayClass.growableArray QUANT).Valid) (hn : s.allocCount < n)
    (hfits : (ArrayClass.growableArray QUANT).BytesFit platform s n) :
    Ends (fun s' => s'.Represents l ∧ n ≤ s'.allocCount)
      (Containers.growableGrowTo platform QUANT s n) := by
  obtain ⟨k, hk, rfl⟩ := hvalid
  have hsize := platform.sizeofT_pos
  have hpos : 0 < 2 ^ k := Nat.two_pow_pos k
  rw [ArrayClass.BytesFit] at hfits
  have hsum : n + 2 ^ k ≤ 2 ^ 64 := (Nat.le_mul_of_pos_right _ hsize).trans hfits
  have hlt : n + 2 ^ k - 1 < 2 ^ 64 := by omega
  rw [Containers.growableGrowTo, Nat.mod_eq_of_lt hlt, and_neg_two_pow (by omega) hlt]
  have hdiv := Nat.div_add_mod (n + 2 ^ k - 1) (2 ^ k)
  have hmod := Nat.mod_lt (n + 2 ^ k - 1) hpos
  generalize hc : (n + 2 ^ k - 1) / 2 ^ k * 2 ^ k = newCount
  rw [Nat.mul_comm, hc] at hdiv
  have hbytes : platform.sizeofT * newCount < 2 ^ 64 := by
    calc platform.sizeofT * newCount < platform.sizeofT * (n + 2 ^ k) :=
          Nat.mul_lt_mul_of_pos_left (by omega) hsize
      _ = (n + 2 ^ k) * platform.sizeofT := Nat.mul_comm _ _
      _ ≤ 2 ^ 64 := hfits
  rw [Nat.mod_eq_of_lt hbytes, Nat.mul_div_cancel_left _ hsize]
  exact h.moveTo (h.capacity.trans hn.le) (by omega) le_rfl (by omega)

end Growing

/-! ### Calls -/

section Calls

variable {T : Type*} {platform : ArrayPlatform} {s : ArrayStorage T} {l : List (Option T)}

lemma ArrayStorage.Represents.clear (h : s.Represents l) : { s with usedCount := 0 }.Represents [] :=
  ⟨rfl, nofun, Nat.zero_le _, h.buffer, h.alloc_lt⟩

lemma ArrayStorage.Represents.append (h : s.Represents l) {a : List T}
    (hroom : s.usedCount + a.length ≤ s.allocCount) :
    { s with cells := s.cells.take s.usedCount ++ a.map some ++ s.cells.drop (s.usedCount + a.length)
             usedCount := s.usedCount + a.length }.Represents (l ++ a.map some) := by
  have hbuffer := h.buffer
  have htake : (s.cells.take s.usedCount).length = s.usedCount := by
    rw [List.length_take]
    omega
  constructor
  · rw [List.length_append, List.length_map, ← h.count]
  · intro idx t hidx
    have hlt := lt_of_getElem? hidx
    rw [List.length_append, List.length_map, ← h.count] at hlt
    dsimp only
    rw [List.getElem?_append_left (by rw [List.length_append, htake, List.length_map]; exact hlt)]
    rcases Nat.lt_or_ge idx l.length with hold | hnew
    · rw [List.getElem?_append_left hold] at hidx
      have hused : idx < s.usedCount := h.count ▸ hold
      rw [List.getElem?_append_left (htake.symm ▸ hused), List.getElem?_take_of_lt hused]
      exact h.elements idx t hidx
    · rw [List.getElem?_append_right hnew, ← h.count] at hidx
      rw [List.getElem?_append_right (by rw [htake, h.count]; exact hnew), htake]
      exact hidx
  · exact hroom
  · dsimp only
    rw [List.length_append, List.length_append, htake, List.length_map, List.length_drop]
    omega
  · exact h.alloc_lt

lemma ArrayStorage.Represents.arrayCall (h : s.Represents l) {call : ArrayCall T}
    (hoffers : ArrayClass.array.Offers call) (hfits : ArrayClass.array.Fits platform s call) :
    Ends (fun s' => s'.Represents (call.onList l)) (Containers.arrayCall s call) := by
  cases call with
  | pushBack t =>
    unfold Containers.arrayCall
    dsimp only
    split_ifs with hroom
    · exact h.store hroom t
    · trivial
  | popBack => exact h.popBack
  | remove idx => exact hfits.elim
  | append a => exact hoffers.elim
  | erase index => exact hoffers.elim
  | clear => exact hoffers.elim
  | reserve n => exact hoffers.elim
  | resize n => exact hoffers.elim

lemma ArrayStorage.Represents.reserve (h : s.Represents l) {MAXCOUNT n : Nat}
    (hfits : s.allocCount < n → (ArrayClass.overflowSafeArray MAXCOUNT).BytesFit platform s n) :
    Ends (fun s' => s'.Represents l ∧ n ≤ s'.allocCount) (Containers.reserve platform MAXCOUNT s n) := by
  unfold Containers.reserve
  split_ifs with hfull
  · exact h.overflowGrowTo hfull (hfits hfull)
  · exact ⟨h, Nat.le_of_not_lt hfull⟩

lemma ArrayStorage.Represents.overflowSafeArrayCall (h : s.Represents l) {MAXCOUNT : Nat}
    {call : ArrayCall T} (hoffers : (ArrayClass.overflowSafeArray MAXCOUNT).Offers call)
    (hfits : (ArrayClass.overflowSafeArray MAXCOUNT).Fits platform s call) :
    Ends (fun s' => s'.Represents (call.onList l))
      (Containers.overflowSafeArrayCall platform MAXCOUNT s call) := by
  cases call with
  | pushBack t =>
    have hsum : s.usedCount + 1 < 2 ^ 64 ∨ s.usedCount + 1 ≤ s.allocCount := by
      by_contra hnot
      have hbytes := hfits (by omega)
      rw [ArrayClass.BytesFit] at hbytes
      have hmul := Nat.le_mul_of_pos_right (max (if MAXCOUNT ≠ noMaxCount then MAXCOUNT
        else s.allocCount * 2) (s.usedCount + 1)) platform.sizeofT_pos
      have hmax := Nat.le_max_right (if MAXCOUNT ≠ noMaxCount then MAXCOUNT
        else s.allocCount * 2) (s.usedCount + 1)
      have hpage := platform.pageSize_pos
      omega
    have hspace := h.verifySpace hsum fun hfull => h.overflowGrowTo hfull (hfits hfull)
    apply hspace.bind
    rintro s' ⟨hs', hroom⟩
    apply hs'.store
    rw [hs'.count, ← h.count]
    exact hroom
  | popBack => exact h.popBack
  | remove idx => exact hfits.elim
  | append a => exact hoffers.elim
  | erase index => exact hoffers.elim
  | clear => exact h.clear
  | reserve n =>
    have hreserve := h.reserve hfits
    cases hresult : Containers.reserve platform MAXCOUNT s n with
    | ok s' =>
      have hs' := (hreserve.of_ok hresult).1
      unfold Containers.overflowSafeArrayCall
      dsimp only
      rw [hresult]
      exact hs'
    | error fault =>
      cases fault with
      | assertion =>
        unfold Containers.overflowSafeArrayCall
        dsimp only
        rw [hresult]
        trivial
      | undefined => exact (hreserve.ne_undefined hresult).elim
  | resize n =>
    unfold Containers.overflowSafeArrayCall ArrayCall.onList
    dsimp only
    split_ifs with hsame hless
    · rw [hsame, h.count, List.take_length, Nat.sub_self, List.replicate_zero, List.append_nil]
      exact h
    · have hzero : n - l.length = 0 := by
        rw [← h.count]
        omega
      have hlength : (l.take n).length = n := by
        rw [List.length_take, ← h.count]
        omega
      rw [hzero, List.replicate_zero, List.append_nil]
      have hkept : ∀ (idx : Nat) t, (l.take n)[idx]? = some (some t) → l[idx]? = some (some t) := by
        intro idx t hidx
        rw [List.getElem?_take] at hidx
        split_ifs at hidx
        exact hidx
      have hshrunk := h.shrink (by rw [hlength, ← h.count]; omega) hkept
      rw [hlength] at hshrunk
      exact hshrunk
    · have hle : l.length ≤ n := by
        rw [← h.count]
        omega
      apply (h.reserve hfits).bind
      rintro s' ⟨hs', hroom⟩
      rw [List.take_of_length_le hle]
      exact hs'.extend hle hroom

lemma ArrayStorage.Represents.growableArrayCall (h : s.Represents l) {QUANT : Nat}
    (hvalid : (ArrayClass.growableArray QUANT).Valid) {call : ArrayCall T}
    (hoffers : (ArrayClass.growableArray QUANT).Offers call)
    (hfits : (ArrayClass.growableArray QUANT).Fits platform s call) :
    Ends (fun s' => s'.Represents (call.onList l))
      (Containers.growableArrayCall platform QUANT s call) := by
  have hsum : ∀ {n}, (s.allocCount < s.usedCount + n →
      (ArrayClass.growableArray QUANT).BytesFit platform s (s.usedCount + n)) →
      s.usedCount + n < 2 ^ 64 ∨ s.usedCount + n ≤ s.allocCount := by
    intro n hn
    by_contra hnot
    have hbytes := hn (by omega)
    rw [ArrayClass.BytesFit] at hbytes
    have hmul := Nat.le_mul_of_pos_right (s.usedCount + n + QUANT) platform.sizeofT_pos
    obtain ⟨k, -, rfl⟩ := hvalid
    have hpos : 0 < 2 ^ k := Nat.two_pow_pos k
    omega
  cases call with
  | pushBack t =>
    have hspace := h.verifySpace (hsum hfits) fun hfull => h.growableGrowTo hvalid hfull (hfits hfull)
    apply hspace.bind
    rintro s' ⟨hs', hroom⟩
    apply hs'.store
    rw [hs'.count, ← h.count]
    exact hroom
  | popBack => exact h.popBack
  | remove idx => exact hoffers.elim
  | append a =>
    have hspace := h.verifySpace (hsum hfits) fun hfull => h.growableGrowTo hvalid hfull (hfits hfull)
    apply hspace.bind
    rintro s' ⟨hs', hroom⟩
    have hroom' : s'.usedCount + a.length ≤ s'.allocCount := by
      rw [hs'.count, ← h.count]
      exact hroom
    rw [if_pos (hroom'.trans hs'.buffer)]
    exact hs'.append hroom'
  | erase index =>
    unfold Containers.growableArrayCall
    dsimp only
    split_ifs with hindex hoverlap
    · simp only [Bool.not_eq_true'] at hoverlap
      rcases hfits with hmoves | hlast
      · cases hmoves.symm.trans hoverlap.2
      · omega
    · apply (h.moveDown hindex).bind
      intro s' hs'
      exact hs'
    · trivial
  | clear => exact hoffers.elim
  | reserve n => exact hoffers.elim
  | resize n => exact hoffers.elim

lemma ArrayStorage.Represents.call (h : s.Represents l) {c : ArrayClass} (hvalid : c.Valid)
    {call : ArrayCall T} (hoffers : c.Offers call) (hfits : c.Fits platform s call) :
    Ends (fun s' => s'.Represents (call.onList l)) (c.call platform s call) := by
  cases c with
  | array => exact h.arrayCall hoffers hfits
  | overflowSafeArray MAXCOUNT => exact h.overflowSafeArrayCall hoffers hfits
  | growableArray QUANT => exact h.growableArrayCall hvalid hoffers hfits

lemma ArrayStorage.Represents.run (h : s.Represents l) {c : ArrayClass} (hvalid : c.Valid)
    {calls : List (ArrayCall T)} (hoffers : ∀ call ∈ calls, c.Offers call)
    (hfits : c.AllFit platform s calls) :
    Ends (fun s' => s'.Represents (calls.foldl ArrayCall.onList l)) (c.run platform s calls) := by
  induction calls generalizing s l with
  | nil => exact h
  | cons call rest ih =>
    have hcall := h.call hvalid (hoffers call List.mem_cons_self) hfits.1
    rw [ArrayClass.run, List.foldlM_cons]
    cases hresult : c.call platform s call with
    | ok s' =>
      exact ih (hcall.of_ok hresult) (fun call' hcall' => hoffers call' (List.mem_cons_of_mem call hcall'))
        (hfits.2 s' hresult)
    | error fault =>
      cases fault with
      | assertion => trivial
      | undefined => exact (hcall.ne_undefined hresult).elim

/-- `remove` never does what it does to a list: it leaves the count. -/
lemma not_refines_remove (h : s.Represents l) {idx : Nat} {s' : ArrayStorage T}
    (hremove : s.remove idx = .ok s') : ¬s'.Refines (l.eraseIdx idx) := by
  intro hrefines
  unfold ArrayStorage.remove ArrayStorage.moveDown at hremove
  split_ifs at hremove with hidx
  · cases hremove
    have hcount := hrefines.count
    rw [List.length_eraseIdx_of_lt (h.count ▸ hidx)] at hcount
    have hold := h.count
    rw [ArrayStorage.count] at hcount
    dsimp only at hcount
    omega

end Calls

/-- Every class does in every run what a list does, as long as the calls fit. -/
theorem arrays_refine_lists {T : Type*} (platform : ArrayPlatform) (c : ArrayClass) (hvalid : c.Valid)
    (storage : List (Option T)) (hstorage : storage.length < 2 ^ 64) (calls : List (ArrayCall T))
    (hoffers : ∀ call ∈ calls, c.Offers call) (hfits : c.AllFit platform (.new storage) calls) :
    c.run platform (.new storage) calls ≠ .error .undefined ∧
      ∀ s, c.run platform (.new storage) calls = .ok s → s.Refines (calls.foldl ArrayCall.onList []) := by
  have hrun := (ArrayStorage.represents_new hstorage).run hvalid hoffers hfits
  exact ⟨hrun.ne_undefined, fun s hs => (hrun.of_ok hs).refines⟩

def eightBytes : ArrayPlatform := ⟨8, 4096, false, by decide, by decide⟩

/-- Three elements in an array that grows from one to four, and the second is taken out. -/
theorem arrays_refine_lists_growing : ∃ s,
    (ArrayClass.growableArray 4).run eightBytes (.new [none]) [.pushBack 1, .pushBack 2, .pushBack 3, .erase 1] =
      .ok s ∧ s.Refines [some 1, some 3] := by
  refine ⟨_, rfl, ?_⟩
  have hfits : (ArrayClass.growableArray 4).AllFit eightBytes (.new [none])
      [.pushBack 1, .pushBack 2, .pushBack 3, .erase 1] := by
    refine ⟨fun _ => by decide, fun s hs => ?_⟩
    cases hs
    refine ⟨fun _ => by decide, fun s hs => ?_⟩
    cases hs
    refine ⟨fun _ => by decide, fun s hs => ?_⟩
    cases hs
    exact ⟨Or.inr (by decide), fun _ _ => trivial⟩
  refine (arrays_refine_lists eightBytes (.growableArray 4) ⟨2, by decide, rfl⟩ [none] (by decide) _ ?_
    hfits).2 _ rfl
  intro call hcall
  simp only [List.mem_cons, List.not_mem_nil, or_false] at hcall
  rcases hcall with rfl | rfl | rfl | rfl <;> trivial

/-- After `remove` an array of two elements still has two. -/
theorem array_not_refines_remove : ∃ s,
    ArrayClass.array.run eightBytes (.new [none, none]) [.pushBack 1, .pushBack 2, .remove 0] = .ok s ∧
      s.count = 2 ∧ s.iterate = [some 2, some 2] ∧
      ¬s.Refines ([.pushBack 1, .pushBack 2, .remove 0].foldl ArrayCall.onList []) := by
  refine ⟨_, rfl, rfl, rfl, ?_⟩
  intro hrefines
  have hcount := hrefines.count
  revert hcount
  decide

end Dyld.Containers
