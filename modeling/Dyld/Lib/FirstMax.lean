import Mathlib

/-!
# The first item of maximal grade

A loop that keeps an item, and replaces it only by one of a greater grade, ends with `List.argmax`.
In an increasing list that is the item that every other one is below, or equal to and behind.
-/

namespace Dyld.Lib

variable {α β : Type*} [LinearOrder β] {f : α → β}

/-- One step of such a loop. -/
def keepBest (f : α → β) (best : Option α) (a : α) : Option α :=
  match best with
  | none => some a
  | some b => if f b < f a then some a else some b

lemma keepBest_argmax (l : List α) (a : α) : keepBest f (l.argmax f) a = (l ++ [a]).argmax f := by
  rw [List.argmax_concat]
  cases l.argmax f with
  | none => rfl
  | some b => rfl

section Increasing

variable [LinearOrder α] {l : List α} {m : α}

lemma le_of_idxOf_le (hl : l.Pairwise (· < ·)) {a b : α} (ha : a ∈ l) (hb : b ∈ l)
    (h : l.idxOf a ≤ l.idxOf b) : a ≤ b := by
  have hai := List.idxOf_lt_length_iff.mpr ha
  have hbi := List.idxOf_lt_length_iff.mpr hb
  have hat : l[l.idxOf a] = a := List.getElem_idxOf hai
  have hbt : l[l.idxOf b] = b := List.getElem_idxOf hbi
  cases Nat.lt_or_eq_of_le h with
  | inl hlt =>
    have hrel := List.pairwise_iff_getElem.mp hl _ _ hai hbi hlt
    rw [hat, hbt] at hrel
    exact hrel.le
  | inr heq =>
    have hsame : a = b := by
      rw [← hat, ← hbt]
      simp only [heq]
    exact hsame.le

lemma argmax_eq_some_iff_first (hl : l.Pairwise (· < ·)) :
    l.argmax f = some m ↔ m ∈ l ∧ ∀ a ∈ l, f a < f m ∨ f a = f m ∧ m ≤ a := by
  have first : ∀ {c}, l.argmax f = some c → c ∈ l ∧ ∀ a ∈ l, f a < f c ∨ f a = f c ∧ c ≤ a := by
    intro c hc
    have hmem := List.argmax_mem hc
    refine ⟨hmem, fun a ha => ?_⟩
    cases (List.le_of_mem_argmax ha hc).lt_or_eq with
    | inl hlt => exact Or.inl hlt
    | inr heq => exact Or.inr ⟨heq, le_of_idxOf_le hl hmem ha (List.index_of_argmax hc ha heq.ge)⟩
  refine ⟨first, fun ⟨hm, hfirst⟩ => ?_⟩
  cases hc : l.argmax f with
  | none => simp [List.argmax_eq_none.mp hc] at hm
  | some c =>
    obtain ⟨hcl, hcfirst⟩ := first hc
    have hsame : c = m := by
      cases hcfirst m hm with
      | inl hlt =>
        cases hfirst c hcl with
        | inl hlt' => exact absurd hlt hlt'.not_gt
        | inr heq => exact absurd heq.1 hlt.ne'
      | inr hle =>
        cases hfirst c hcl with
        | inl hlt' => exact absurd hle.1 hlt'.ne'
        | inr heq => exact le_antisymm hle.2 heq.2
    rw [hsame]

/-- Leaving out items other than the best one changes nothing. -/
lemma argmax_filter (hl : l.Pairwise (· < ·)) {p : α → Bool} (hm : l.argmax f = some m)
    (hp : p m = true) : (l.filter p).argmax f = some m := by
  obtain ⟨hml, hfirst⟩ := (argmax_eq_some_iff_first hl).mp hm
  refine (argmax_eq_some_iff_first (hl.filter p)).mpr ⟨List.mem_filter.mpr ⟨hml, hp⟩, ?_⟩
  exact fun a ha => hfirst a (List.mem_filter.mp ha).1

lemma forall_argmax_iff (hl : l.Pairwise (· < ·)) {p : α → Prop} :
    (∀ c, l.argmax f = some c → p c) ↔
      ∀ a ∈ l, p a ∨ ∃ b ∈ l, p b ∧ (f a < f b ∨ f a = f b ∧ b < a) := by
  constructor
  · intro h a ha
    cases hc : l.argmax f with
    | none => simp [List.argmax_eq_none.mp hc] at ha
    | some c =>
      obtain ⟨hcl, hfirst⟩ := (argmax_eq_some_iff_first hl).mp hc
      by_cases hsame : c = a
      · exact Or.inl (hsame ▸ h c hc)
      · refine Or.inr ⟨c, hcl, h c hc, (hfirst a ha).imp_right (fun ⟨heq, hle⟩ => ⟨heq, ?_⟩)⟩
        exact lt_of_le_of_ne hle hsame
  · intro h c hc
    obtain ⟨hcl, hfirst⟩ := (argmax_eq_some_iff_first hl).mp hc
    cases h c hcl with
    | inl hp => exact hp
    | inr hbeaten =>
      obtain ⟨b, hbl, -, hbetter⟩ := hbeaten
      cases hfirst b hbl with
      | inl hlt =>
        cases hbetter with
        | inl hlt' => exact absurd hlt hlt'.not_gt
        | inr heq => exact absurd heq.1 hlt.ne'
      | inr hle =>
        cases hbetter with
        | inl hlt' => exact absurd hle.1 hlt'.ne'
        | inr heq => exact absurd heq.2 hle.2.not_gt

end Increasing

end Dyld.Lib
