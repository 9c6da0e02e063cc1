import Mathlib

/-!
# Marking a list of nodes

Nodes with an in-use flag, and marking loops that only ever set flags. `Grows` is the order
on such lists; a loop that ends where it began has done nothing at any of its steps, which is
what a fixpoint of marking gives.
-/

namespace Dyld.Lib

structure Marked (α : Type) where
  node : α
  inUse : Bool
  deriving DecidableEq

variable {α β : Type}

/-- Sets the flag of the first entry that satisfies `p`. -/
def markFirst (p : Marked α → Bool) : List (Marked α) → List (Marked α)
  | [] => []
  | m :: ms => if p m then { m with inUse := true } :: ms else m :: markFirst p ms

def inUseCount (ms : List (Marked α)) : Nat := ms.countP (·.inUse)

/-- The same nodes in the same order, with at least the same flags set. -/
def Grows (ms ms' : List (Marked α)) : Prop :=
  List.Forall₂ (fun a b => a.node = b.node ∧ (a.inUse = true → b.inUse = true)) ms ms'

lemma Grows.refl (ms : List (Marked α)) : Grows ms ms :=
  List.forall₂_same.mpr (fun _ _ => ⟨rfl, id⟩)

lemma Grows.trans {ms ms' ms'' : List (Marked α)} (h : Grows ms ms') (h' : Grows ms' ms'') :
    Grows ms ms'' := by
  induction h generalizing ms'' with
  | nil =>
    cases h'
    exact .nil
  | cons hab _ ih =>
    cases h' with
    | cons hbc hrest => exact .cons ⟨hab.1.trans hbc.1, fun h => hbc.2 (hab.2 h)⟩ (ih hrest)

lemma Grows.antisymm {ms ms' : List (Marked α)} (h : Grows ms ms') (h' : Grows ms' ms) : ms = ms' := by
  induction h with
  | nil => rfl
  | @cons a b _ _ hab _ ih =>
    cases h' with
    | cons hba hrest =>
      obtain ⟨node, inUse⟩ := a
      obtain ⟨node', inUse'⟩ := b
      have hflag : inUse = inUse' := Bool.eq_iff_iff.mpr ⟨hab.2, hba.2⟩
      rw [ih hrest, hflag, show node = node' from hab.1]

lemma Grows.length_eq {ms ms' : List (Marked α)} (h : Grows ms ms') : ms.length = ms'.length :=
  List.Forall₂.length_eq h

lemma Grows.map_node {ms ms' : List (Marked α)} (h : Grows ms ms') :
    ms'.map (·.node) = ms.map (·.node) := by
  induction h with
  | nil => rfl
  | cons hab _ ih => rw [List.map_cons, List.map_cons, ih, hab.1]

lemma Grows.inUseCount_le {ms ms' : List (Marked α)} (h : Grows ms ms') :
    inUseCount ms ≤ inUseCount ms' := by
  induction h with
  | nil => exact le_rfl
  | @cons a b _ _ hab _ ih =>
    simp only [inUseCount, List.countP_cons] at ih ⊢
    have := hab.2
    split_ifs <;> first | omega | tauto

/-- Flags that were only set and are as many as before are the same flags. -/
lemma Grows.eq_of_inUseCount_eq {ms ms' : List (Marked α)} (h : Grows ms ms')
    (hcount : inUseCount ms' = inUseCount ms) : ms = ms' := by
  induction h with
  | nil => rfl
  | @cons a b l l' hab hrest ih =>
    have hle := Grows.inUseCount_le hrest
    simp only [inUseCount, List.countP_cons] at hcount hle ih
    obtain ⟨node, inUse⟩ := a
    obtain ⟨node', inUse'⟩ := b
    obtain ⟨rfl, himp⟩ := hab
    cases inUse with
    | false =>
      cases inUse' with
      | false => rw [ih (by simpa using hcount)]
      | true =>
        simp only [Bool.false_eq_true, if_true, if_false] at hcount
        omega
    | true =>
      obtain rfl : inUse' = true := himp rfl
      rw [ih (by simpa using hcount)]

lemma inUseCount_le_length (ms : List (Marked α)) : inUseCount ms ≤ ms.length := List.countP_le_length

lemma grows_markFirst (p : Marked α → Bool) (ms : List (Marked α)) : Grows ms (markFirst p ms) := by
  induction ms with
  | nil => exact .nil
  | cons m ms ih =>
    rw [markFirst]
    split
    · exact .cons ⟨rfl, fun _ => rfl⟩ (Grows.refl ms)
    · exact .cons ⟨rfl, id⟩ ih

/-- Every node satisfies `U`, and those in use satisfy `Q`. -/
def MarkedBy (U Q : α → Prop) (ms : List (Marked α)) : Prop :=
  ∀ m ∈ ms, U m.node ∧ (m.inUse = true → Q m.node)

lemma MarkedBy.markFirst {U Q : α → Prop} {p : Marked α → Bool} {ms : List (Marked α)}
    (h : MarkedBy U Q ms) (hp : ∀ m, U m.node → p m = true → Q m.node) :
    MarkedBy U Q (markFirst p ms) := by
  induction ms with
  | nil => exact h
  | cons m ms ih =>
    obtain ⟨hm, hms⟩ := List.forall_mem_cons.mp h
    rw [Lib.markFirst]
    split
    · rename_i hpick
      exact List.forall_mem_cons.mpr ⟨⟨hm.1, fun _ => hp m hm.1 hpick⟩, hms⟩
    · exact List.forall_mem_cons.mpr ⟨hm, ih hms⟩

lemma Grows.mem_inUse {ms ms' : List (Marked α)} (h : Grows ms ms') {a : α}
    (ha : ⟨a, true⟩ ∈ ms) : ⟨a, true⟩ ∈ ms' := by
  induction h with
  | nil => exact absurd ha (by simp)
  | @cons x y _ _ hxy _ ih =>
    rcases List.mem_cons.mp ha with rfl | ha
    · obtain ⟨node, inUse⟩ := y
      obtain rfl : a = node := hxy.1
      obtain rfl : inUse = true := hxy.2 rfl
      exact List.mem_cons_self
    · exact List.mem_cons_of_mem _ (ih ha)

/-- Marking one more unused entry changed nothing, so there is none left. -/
lemma inUse_of_markFirst_eq {q : α → Bool} {ms : List (Marked α)}
    (h : markFirst (fun m => !m.inUse && q m.node) ms = ms) {m : Marked α} (hm : m ∈ ms)
    (hq : q m.node = true) : m.inUse = true := by
  induction ms with
  | nil => exact absurd hm (by simp)
  | cons a ms ih =>
    rw [markFirst] at h
    split at h
    · rename_i hpick
      have ha : a.inUse = true := by rw [← (List.cons.inj h).1]
      simp [ha] at hpick
    · rename_i hpick
      rcases List.mem_cons.mp hm with rfl | hms
      · simpa [hq] using hpick
      · exact ih (List.cons.inj h).2 hms

/-- Where at most one entry has a property, marking the first with it marks all with it. -/
lemma inUse_markFirst_of_pairwise {q : α → Bool} {ms : List (Marked α)}
    (h : ms.Pairwise fun a b => ¬(q a.node = true ∧ q b.node = true)) :
    ∀ m ∈ markFirst (fun m => q m.node) ms, q m.node = true → m.inUse = true := by
  induction ms with
  | nil => simp [markFirst]
  | cons a ms ih =>
    obtain ⟨ha, hms⟩ := List.pairwise_cons.mp h
    rw [markFirst]
    split
    · rename_i hqa
      exact List.forall_mem_cons.mpr
        ⟨fun _ => rfl, fun m hm hqm => absurd ⟨hqa, hqm⟩ (ha m hm)⟩
    · rename_i hqa
      exact List.forall_mem_cons.mpr ⟨fun hq => absurd hq hqa, ih hms⟩

section Fold

variable {f : List (Marked α) → β → List (Marked α)}

lemma grows_foldl (hf : ∀ ms x, Grows ms (f ms x)) (xs : List β) (ms : List (Marked α)) :
    Grows ms (xs.foldl f ms) :=
  List.foldlRecOn xs f (Grows.refl ms) fun ms' h x _ => h.trans (hf ms' x)

lemma step_eq_of_foldl_eq (hf : ∀ ms x, Grows ms (f ms x)) {xs : List β} {ms : List (Marked α)}
    (h : xs.foldl f ms = ms) : ∀ x ∈ xs, f ms x = ms := by
  induction xs with
  | nil => simp
  | cons x xs ih =>
    rw [List.foldl_cons] at h
    have hback : Grows (f ms x) ms := by
      have hrest := grows_foldl hf xs (f ms x)
      rwa [h] at hrest
    have hx : f ms x = ms := ((hf ms x).antisymm hback).symm
    rw [hx] at h
    exact List.forall_mem_cons.mpr ⟨hx, ih h⟩

end Fold

/-! ### Erasing by key -/

section Erase

variable {κ : Type} [DecidableEq κ] (key : α → κ)

/-- Erases the first item with each of the keys. -/
def eraseKeys (l : List α) (keys : List κ) : List α :=
  keys.foldl (fun l k => l.eraseP fun a => k = key a) l

variable {key}

lemma eraseKeys_sublist (l : List α) (keys : List κ) : (eraseKeys key l keys).Sublist l := by
  induction keys generalizing l with
  | nil => exact List.Sublist.refl _
  | cons k keys ih => exact (ih _).trans List.eraseP_sublist

lemma eraseP_key_eq_filter {l : List α} (h : (l.map key).Nodup) (k : κ) :
    (l.eraseP fun a => k = key a) = l.filter fun a => k ≠ key a := by
  induction l with
  | nil => rfl
  | cons a l ih =>
    rw [List.map_cons, List.nodup_cons] at h
    by_cases ha : k = key a
    · rw [List.eraseP_cons_of_pos (by simpa using ha), List.filter_cons_of_neg (by simpa using ha)]
      symm
      rw [List.filter_eq_self]
      intro x hx
      apply decide_eq_true
      rintro rfl
      exact h.1 (ha ▸ List.mem_map_of_mem hx)
    · rw [List.eraseP_cons_of_neg (by simpa using ha), List.filter_cons_of_pos (by simpa using ha), ih h.2]

/-- When no two items share a key, those with one of the keys are gone. -/
lemma mem_eraseKeys_iff {l : List α} {keys : List κ} (h : (l.map key).Nodup) {a : α} :
    a ∈ eraseKeys key l keys ↔ a ∈ l ∧ ∀ k ∈ keys, k ≠ key a := by
  induction keys generalizing l with
  | nil => simp [eraseKeys]
  | cons k keys ih =>
    have hsub : ((l.eraseP fun a => k = key a).map key).Nodup := h.sublist (List.eraseP_sublist.map _)
    rw [eraseKeys, List.foldl_cons, ← eraseKeys, ih hsub, eraseP_key_eq_filter h, List.mem_filter,
      decide_eq_true_eq, List.forall_mem_cons, and_assoc]

end Erase

end Dyld.Lib
