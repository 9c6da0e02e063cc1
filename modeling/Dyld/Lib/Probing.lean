import Mathlib

/-!
# Open addressing with triangular probing

A table of slots whose length is a power of two, searched from the slot of a hash in steps of
1, 2, 3 and so on. The steps visit every slot, so a search ends as long as one slot is vacant.
`Placed` says that a search for a hash comes past an index before it comes to a vacant slot.
-/

namespace Dyld.Lib

/-! ### Triangular steps -/

/-- The sum of the first `j` steps. -/
def triangle : Nat → Nat
  | 0 => 0
  | j + 1 => triangle j + (j + 1)

lemma two_mul_triangle (j : Nat) : 2 * triangle j = j * (j + 1) := by
  induction j with
  | zero => rfl
  | succ j ih =>
    rw [triangle, Nat.mul_add, ih]
    ring

lemma two_pow_dvd_of_odd {n a b : Nat} (hodd : (a + b) % 2 = 1) (h : 2 ^ n ∣ a * b) :
    2 ^ n ∣ a ∨ 2 ^ n ∣ b := by
  by_cases ha : a % 2 = 1
  · right
    have hcop : Nat.Coprime (2 ^ n) a := (Nat.coprime_two_left.mpr (Nat.odd_iff.mpr ha)).pow_left n
    exact hcop.dvd_of_dvd_mul_left h
  · left
    have hb : b % 2 = 1 := by omega
    have hcop : Nat.Coprime (2 ^ n) b := (Nat.coprime_two_left.mpr (Nat.odd_iff.mpr hb)).pow_left n
    exact hcop.dvd_of_dvd_mul_right h

lemma triangle_injective {k i j : Nat} (hi : i < 2 ^ k) (hj : j < 2 ^ k)
    (h : triangle i % 2 ^ k = triangle j % 2 ^ k) : i = j := by
  wlog hle : i ≤ j generalizing i j
  · exact (this hj hi h.symm (by omega)).symm
  obtain ⟨d, rfl⟩ := Nat.exists_eq_add_of_le hle
  have hti := two_mul_triangle i
  have htj := two_mul_triangle (i + d)
  have hsum : 2 * triangle (i + d) = 2 * triangle i + d * (2 * i + d + 1) := by
    rw [hti, htj]
    ring
  have hdvd : 2 ^ k ∣ triangle (i + d) - triangle i := (Nat.modEq_iff_dvd' (by
    have : 0 ≤ d * (2 * i + d + 1) := Nat.zero_le _
    omega)).mp h
  have hprod : 2 ^ (k + 1) ∣ d * (2 * i + d + 1) := by
    have heq : d * (2 * i + d + 1) = 2 * (triangle (i + d) - triangle i) := by omega
    rw [heq, pow_succ']
    exact Nat.mul_dvd_mul_left 2 hdvd
  have hpow : 2 ^ (k + 1) = 2 * 2 ^ k := pow_succ' 2 k
  rcases two_pow_dvd_of_odd (by omega) hprod with hd | hd
  · have := Nat.eq_zero_of_dvd_of_lt hd (by omega)
    omega
  · have := Nat.le_of_dvd (by omega) hd
    omega

/-- The slot after `j` steps. -/
def probePosition (size hash j : Nat) : Nat := (hash + triangle j) % size

lemma probePosition_succ (size hash j : Nat) :
    (probePosition size hash j + (j + 1)) % size = probePosition size hash (j + 1) := by
  unfold probePosition
  rw [triangle, Nat.mod_add_mod, Nat.add_assoc]

/-- The steps visit every slot of a table whose size is a power of two. -/
lemma exists_probePosition (k hash : Nat) {p : Nat} (hp : p < 2 ^ k) :
    ∃ j < 2 ^ k, probePosition (2 ^ k) hash j = p := by
  have hpos : 0 < 2 ^ k := Nat.two_pow_pos k
  let f : Fin (2 ^ k) → Fin (2 ^ k) := fun j =>
    ⟨probePosition (2 ^ k) hash j.val, Nat.mod_lt _ hpos⟩
  have hinj : Function.Injective f := by
    intro i j hij
    have hval : (hash + triangle i.val) % 2 ^ k = (hash + triangle j.val) % 2 ^ k :=
      congrArg Fin.val hij
    apply Fin.ext
    apply triangle_injective i.isLt j.isLt
    exact Nat.ModEq.add_left_cancel' hash hval
  obtain ⟨j, hj⟩ := Finite.surjective_of_injective hinj ⟨p, hp⟩
  exact ⟨j.val, j.isLt, congrArg Fin.val hj⟩

/-! ### Searching a table -/

/-- What a search stops at. -/
inductive ProbeOutcome
  | found (index : Nat)
  | vacant (position : Nat)
  deriving DecidableEq, Repr

abbrev ProbeTable := List (Option Nat)

/-- The loop of a search, for at most `fuel` turns. `same` compares the key of an index with the
one searched for, if there is such an index. -/
def probeFrom (slots : ProbeTable) (same : Nat → Option Bool) : Nat → Nat → Nat → Option ProbeOutcome
  | 0, _, _ => none
  | fuel + 1, hashIndex, probeAmount =>
    match slots.getD hashIndex none with
    | none => some (.vacant hashIndex)
    | some index =>
      match same index with
      | none => none
      | some true => some (.found index)
      | some false =>
        probeFrom slots same fuel ((hashIndex + probeAmount) &&& (slots.length - 1))
          (probeAmount + 1)

def probe (slots : ProbeTable) (hash : Nat) (same : Nat → Option Bool) : Option ProbeOutcome :=
  probeFrom slots same slots.length (hash &&& (slots.length - 1)) 1

def occupied (slots : ProbeTable) : Nat := slots.countP Option.isSome

def Placed (slots : ProbeTable) (hash index : Nat) : Prop :=
  ∃ j < slots.length, slots.getD (probePosition slots.length hash j) none = some index ∧
    ∀ l < j, (slots.getD (probePosition slots.length hash l) none).isSome = true

section Search

variable {slots : ProbeTable} {k hash index : Nat} {same : Nat → Option Bool}

lemma exists_vacant (h : occupied slots < slots.length) :
    ∃ p < slots.length, slots.getD p none = none := by
  by_contra hall
  push Not at hall
  have hfull : ∀ s ∈ slots, s.isSome = true := by
    intro s hs
    obtain ⟨p, hp, rfl⟩ := List.mem_iff_getElem.mp hs
    have := hall p hp
    rw [List.getD_eq_getElem _ _ hp] at this
    exact Option.isSome_iff_ne_none.mpr this
  have := List.countP_eq_length.mpr hfull
  unfold occupied at h
  omega

/-- From step `j` on, the loop stops at the first step at which there is a reason to. -/
lemma probeFrom_eq (hash : Nat) (hlen : slots.length = 2 ^ k) (fuel j n : Nat) (hn : j + n < j + fuel)
    (hpass : ∀ l < n, ∃ i, slots.getD (probePosition slots.length hash (j + l)) none = some i ∧
      same i = some false) :
    probeFrom slots same fuel (probePosition slots.length hash j) (j + 1) =
      probeFrom slots same (fuel - n) (probePosition slots.length hash (j + n)) (j + n + 1) := by
  induction n generalizing fuel j with
  | zero => rfl
  | succ n ih =>
    obtain ⟨fuel, rfl⟩ : ∃ f, fuel = f + 1 := ⟨fuel - 1, by omega⟩
    obtain ⟨i, hi, hsame⟩ := hpass 0 (by omega)
    rw [Nat.add_zero] at hi
    rw [probeFrom, hi]
    dsimp only
    rw [hsame]
    dsimp only
    have hmask : ∀ x, x &&& (slots.length - 1) = x % slots.length := by
      intro x
      rw [hlen, Nat.and_two_pow_sub_one_eq_mod]
    rw [hmask, probePosition_succ]
    have hrest := ih fuel (j + 1) (by omega) (fun l hl => by
      have := hpass (l + 1) (by omega)
      rwa [Nat.add_comm l 1, ← Nat.add_assoc] at this)
    rw [hrest]
    have h1 : fuel + 1 - (n + 1) = fuel - n := by omega
    have h2 : j + 1 + n = j + (n + 1) := by omega
    rw [h1, h2]

lemma probe_spec (hash : Nat) (same : Nat → Option Bool) (hlen : slots.length = 2 ^ k) (hfree : occupied slots < slots.length)
    (hsame : ∀ p i, slots.getD p none = some i → (same i).isSome = true) :
    (∃ i p, probe slots hash same = some (.found i) ∧ slots.getD p none = some i ∧
      same i = some true) ∨
    ∃ j < slots.length, probe slots hash same =
        some (.vacant (probePosition slots.length hash j)) ∧
      slots.getD (probePosition slots.length hash j) none = none ∧
      ∀ l < j, ∃ i, slots.getD (probePosition slots.length hash l) none = some i ∧
        same i = some false := by
  classical
  -- the first step at which the loop stops
  obtain ⟨p, hp, hvacant⟩ := exists_vacant hfree
  rw [hlen] at hp
  obtain ⟨j₀, hj₀, hpos⟩ := exists_probePosition k hash hp
  rw [← hlen] at hj₀ hpos
  have hex : ∃ j, ¬ ∃ i, slots.getD (probePosition slots.length hash j) none = some i ∧
      same i = some false := by
    refine ⟨j₀, ?_⟩
    rintro ⟨i, hi, -⟩
    rw [hpos, hvacant] at hi
    cases hi
  let j := Nat.find hex
  have hstop := Nat.find_spec hex
  have hpass : ∀ l < j, ∃ i, slots.getD (probePosition slots.length hash l) none = some i ∧
      same i = some false := by
    intro l hl
    exact not_not.mp (Nat.find_min hex hl)
  have hj : j < slots.length := by
    apply lt_of_le_of_lt _ hj₀
    apply Nat.find_min'
    rintro ⟨i, hi, -⟩
    rw [hpos, hvacant] at hi
    cases hi
  have hstart : probe slots hash same =
      probeFrom slots same (slots.length - j) (probePosition slots.length hash j) (j + 1) := by
    have := probeFrom_eq hash hlen slots.length 0 j (by omega) (by simpa using hpass)
    simp only [Nat.zero_add] at this
    rw [← this, probe, hlen, Nat.and_two_pow_sub_one_eq_mod]
    rfl
  obtain ⟨fuel, hfuel⟩ : ∃ f, slots.length - j = f + 1 := ⟨slots.length - j - 1, by omega⟩
  rw [hfuel, probeFrom] at hstart
  cases hslot : slots.getD (probePosition slots.length hash j) none with
  | none =>
    right
    rw [hslot] at hstart
    exact ⟨j, hj, hstart, hslot, hpass⟩
  | some i =>
    left
    rw [hslot] at hstart
    dsimp only at hstart
    obtain ⟨b, hb⟩ := Option.isSome_iff_exists.mp (hsame _ i hslot)
    cases b with
    | false => exact absurd ⟨i, hslot, hb⟩ hstop
    | true =>
      rw [hb] at hstart
      exact ⟨i, _, hstart, hslot, hb⟩

lemma probe_of_placed (hlen : slots.length = 2 ^ k) (hfree : occupied slots < slots.length)
    (hsame : ∀ p i, slots.getD p none = some i → (same i).isSome = true)
    (hplaced : Placed slots hash index) (hindex : same index = some true) :
    ∃ i p, probe slots hash same = some (.found i) ∧ slots.getD p none = some i ∧
      same i = some true := by
  rcases probe_spec hash same hlen hfree hsame with hfound | ⟨j, hj, -, hvacant, hpass⟩
  · exact hfound
  · obtain ⟨j', hj', hslot, hbefore⟩ := hplaced
    rcases Nat.lt_trichotomy j' j with hlt | rfl | hgt
    · obtain ⟨i, hi, hfalse⟩ := hpass j' hlt
      rw [hslot, Option.some.injEq] at hi
      rw [hi, hfalse] at hindex
      cases hindex
    · rw [hslot] at hvacant
      cases hvacant
    · have := hbefore j hgt
      rw [hvacant] at this
      cases this

/-! ### Filling a slot -/

lemma getD_set_eq {p q : Nat} {v : Option Nat} (hp : p < slots.length) :
    (slots.set p v).getD q none = if q = p then v else slots.getD q none := by
  rw [List.getD_eq_getElem?_getD, List.getD_eq_getElem?_getD, List.getElem?_set]
  by_cases hq : p = q
  · subst hq
    simp [hp]
  · simp [hq, Ne.symm hq]

lemma occupied_set {p i : Nat} (hp : p < slots.length) (hvacant : slots.getD p none = none) :
    occupied (slots.set p (some i)) = occupied slots + 1 := by
  unfold occupied
  rw [List.getD_eq_getElem _ _ hp] at hvacant
  rw [List.countP_set hp, hvacant]
  simp

lemma Placed.set {p i : Nat} (hp : p < slots.length) (hvacant : slots.getD p none = none)
    (h : Placed slots hash index) : Placed (slots.set p (some i)) hash index := by
  obtain ⟨j, hj, hslot, hbefore⟩ := h
  refine ⟨j, by rwa [List.length_set], ?_, ?_⟩
  · rw [List.length_set, getD_set_eq hp, if_neg, hslot]
    intro heq
    rw [heq, hvacant] at hslot
    cases hslot
  · intro l hl
    rw [List.length_set, getD_set_eq hp]
    split
    · rfl
    · exact hbefore l hl

/-- The first vacant slot on the way of a search takes the index. -/
lemma placed_set_self {j i : Nat} (hj : j < slots.length)
    (hbefore : ∀ l < j, (slots.getD (probePosition slots.length hash l) none).isSome = true) :
    Placed (slots.set (probePosition slots.length hash j) (some i)) hash i := by
  have hp : probePosition slots.length hash j < slots.length := Nat.mod_lt _ (by omega)
  refine ⟨j, by rwa [List.length_set], ?_, ?_⟩
  · rw [List.length_set, getD_set_eq hp, if_pos rfl]
  · intro l hl
    rw [List.length_set, getD_set_eq hp]
    split
    · rfl
    · exact hbefore l hl

def placeIndex (slots : ProbeTable) (hash index : Nat) : Option ProbeTable :=
  match probe slots hash (fun _ => some false) with
  | some (.vacant position) => some (slots.set position (some index))
  | _ => none

structure FilledBy (slots : ProbeTable) (hash index : Nat) (slots' : ProbeTable) : Prop where
  length_eq : slots'.length = slots.length
  occupied_eq : occupied slots' = occupied slots + 1
  placed : Placed slots' hash index
  keeps : ∀ h x, Placed slots h x → Placed slots' h x
  mem : ∀ p x, slots'.getD p none = some x → x = index ∨ slots.getD p none = some x

lemma filledBy_set {j : Nat} (hj : j < slots.length)
    (hvacant : slots.getD (probePosition slots.length hash j) none = none)
    (hbefore : ∀ l < j, (slots.getD (probePosition slots.length hash l) none).isSome = true) :
    FilledBy slots hash index (slots.set (probePosition slots.length hash j) (some index)) := by
  have hp : probePosition slots.length hash j < slots.length := Nat.mod_lt _ (by omega)
  constructor
  · exact List.length_set
  · exact occupied_set hp hvacant
  · exact placed_set_self hj hbefore
  · intro h x hx
    exact hx.set hp hvacant
  · intro q x hq
    rw [getD_set_eq hp] at hq
    split at hq
    · left
      exact (Option.some.inj hq).symm
    · right
      exact hq

lemma placeIndex_spec (hash index : Nat) (hlen : slots.length = 2 ^ k) (hfree : occupied slots < slots.length) :
    ∃ slots', placeIndex slots hash index = some slots' ∧ FilledBy slots hash index slots' := by
  rcases probe_spec hash (fun _ => some false) hlen hfree (fun _ _ _ => rfl) with
    ⟨i, p, -, -, hfalse⟩ | ⟨j, hj, hprobe, hvacant, hpass⟩
  · cases hfalse
  · refine ⟨_, by rw [placeIndex, hprobe], filledBy_set hj hvacant ?_⟩
    intro l hl
    obtain ⟨i, hi, -⟩ := hpass l hl
    rw [hi]
    rfl

lemma occupied_replicate (n : Nat) : occupied (List.replicate n none) = 0 := by
  simp [occupied]

/-- Puts indices with their hashes into a table, one after the other. -/
def placeAll (slots : ProbeTable) (l : List (Nat × Nat)) : Option ProbeTable :=
  l.foldlM (fun slots x => placeIndex slots x.1 x.2) slots

/-- A table that holds exactly the given indices, each on the way of its hash. -/
structure Holds (slots : ProbeTable) (l : List (Nat × Nat)) : Prop where
  occupied_eq : occupied slots = l.length
  placed : ∀ x ∈ l, Placed slots x.1 x.2
  mem : ∀ p i, slots.getD p none = some i → ∃ x ∈ l, x.2 = i

lemma Holds.fill {l : List (Nat × Nat)} {slots' : ProbeTable} (h : Holds slots l)
    (hfill : FilledBy slots hash index slots') : Holds slots' (l ++ [(hash, index)]) := by
  constructor
  · rw [hfill.occupied_eq, h.occupied_eq, List.length_append, List.length_singleton]
  · intro x hx
    rcases List.mem_append.mp hx with hx | hx
    · exact hfill.keeps _ _ (h.placed x hx)
    · rw [List.mem_singleton.mp hx]
      exact hfill.placed
  · intro p i hi
    rcases hfill.mem p i hi with rfl | hold
    · exact ⟨(hash, i), List.mem_append_right _ (List.mem_singleton.mpr rfl), rfl⟩
    · obtain ⟨x, hx, hxi⟩ := h.mem p i hold
      exact ⟨x, List.mem_append_left _ hx, hxi⟩

lemma holds_replicate (n : Nat) : Holds (List.replicate n none) [] := by
  refine ⟨occupied_replicate n, by simp, ?_⟩
  intro p i h
  rw [List.getD_eq_getElem?_getD, List.getElem?_replicate] at h
  split at h
  · cases h
  · cases h

lemma placeAll_spec (l done : List (Nat × Nat)) (hlen : slots.length = 2 ^ k)
    (h : Holds slots done) (hroom : done.length + l.length < slots.length) :
    ∃ slots', placeAll slots l = some slots' ∧ slots'.length = slots.length ∧
      Holds slots' (done ++ l) := by
  induction l generalizing slots done with
  | nil => exact ⟨slots, rfl, rfl, by simpa using h⟩
  | cons x l ih =>
    rw [List.length_cons] at hroom
    obtain ⟨slots₁, hplace, hfill⟩ := placeIndex_spec x.1 x.2 hlen (by rw [h.occupied_eq]; omega)
    have hl := hfill.length_eq
    obtain ⟨slots', hall, hlen', hholds⟩ := ih (done ++ [x]) (hl.trans hlen) (h.fill hfill)
      (by rw [List.length_append, List.length_singleton, hl]; omega)
    refine ⟨slots', ?_, hlen'.trans hl, by simpa using hholds⟩
    unfold placeAll at hall ⊢
    rw [List.foldlM_cons, hplace]
    exact hall

/-- In a table that holds the indices, a search finds one whose key is searched for, or it ends
at a slot that is the place for another index, and there is no such key. -/
lemma Holds.probe_cases {l : List (Nat × Nat)} (h : Holds slots l) (hlen : slots.length = 2 ^ k)
    (hroom : l.length < slots.length) (hsome : ∀ x ∈ l, (same x.2).isSome = true)
    (hhash : ∀ x ∈ l, same x.2 = some true → x.1 = hash) :
    (∃ x ∈ l, probe slots hash same = some (.found x.2) ∧ same x.2 = some true) ∨
    ∃ p, probe slots hash same = some (.vacant p) ∧
      (∀ i, FilledBy slots hash i (slots.set p (some i))) ∧ ∀ x ∈ l, same x.2 = some false := by
  have hfree : occupied slots < slots.length := by
    rw [h.occupied_eq]
    exact hroom
  have hsame : ∀ p i, slots.getD p none = some i → (same i).isSome = true := by
    intro p i hi
    obtain ⟨x, hx, rfl⟩ := h.mem p i hi
    exact hsome x hx
  rcases probe_spec hash same hlen hfree hsame with
    ⟨i, p, hprobe, hp, htrue⟩ | ⟨j, hj, hprobe, hvacant, hpass⟩
  · left
    obtain ⟨x, hx, rfl⟩ := h.mem p i hp
    exact ⟨x, hx, hprobe, htrue⟩
  · right
    refine ⟨_, hprobe, ?_, ?_⟩
    · intro i
      apply filledBy_set hj hvacant
      intro l hl
      obtain ⟨i, hi, -⟩ := hpass l hl
      rw [hi]
      rfl
    · intro x hx
      obtain ⟨b, hb⟩ := Option.isSome_iff_exists.mp (hsome x hx)
      cases b with
      | false => exact hb
      | true =>
        -- it would have stopped the search
        have hplaced := h.placed x hx
        rw [hhash x hx hb] at hplaced
        obtain ⟨i, p, hfound, -⟩ := probe_of_placed hlen hfree hsame hplaced hb
        rw [hprobe] at hfound
        cases hfound

end Search

end Dyld.Lib
