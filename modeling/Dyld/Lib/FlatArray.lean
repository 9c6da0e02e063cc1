import Mathlib

/-!
# Flat arrays with start and count

Records that refer to a run of entries of one shared array by its start and its count, while
the array only grows at its end; and what is left of a list when equal neighbours are merged.
-/

namespace Dyld.Lib

variable {α : Type}

def slice (l : List α) (start count : Nat) : List α := (l.drop start).take count

lemma slice_append {l : List α} {start count : Nat} (h : start + count ≤ l.length) (r : List α) :
    slice (l ++ r) start count = slice l start count := by
  unfold slice
  rw [List.drop_append_of_le_length (by omega), List.take_append_of_le_length]
  rw [List.length_drop]
  omega

@[simp] lemma slice_append_self (l r : List α) : slice (l ++ r) l.length r.length = r := by
  simp [slice]

/-- A flattened list around the entries of one item. -/
lemma flatMap_split {β : Type} (f : α → List β) {l : List α} {k : Nat} {x : α} (hx : l[k]? = some x) :
    l.flatMap f = (l.take k).flatMap f ++ f x ++ (l.drop (k + 1)).flatMap f := by
  induction l generalizing k with
  | nil => simp at hx
  | cons y l ih =>
    cases k with
    | zero =>
      obtain rfl := Option.some.inj hx
      simp
    | succ k =>
      rw [List.flatMap_cons, ih (by simpa using hx)]
      simp

/-! ### Merging equal neighbours -/

/-- No entry comes back after a different one. -/
def NoReturn (l : List α) : Prop := ∀ a b, a ≠ b → ¬[a, b, a].Sublist l

lemma noReturn_cons_cons_of_ne {a b : α} {l : List α} (hab : a ≠ b) :
    NoReturn (a :: b :: l) ↔ a ∉ b :: l ∧ NoReturn (b :: l) := by
  constructor
  · intro h
    refine ⟨fun hmem => ?_, fun x y hxy hsub => h x y hxy (hsub.cons a)⟩
    rcases List.mem_cons.mp hmem with rfl | hmem
    · exact hab rfl
    · exact h a b hab ((List.singleton_sublist.mpr hmem).cons_cons b |>.cons_cons a)
  · rintro ⟨hmem, h⟩ x y hxy hsub
    cases hsub with
    | cons _ hsub => exact h x y hxy hsub
    | cons_cons _ hsub => exact hmem (hsub.subset (by simp))

lemma noReturn_cons_self {a : α} {l : List α} : NoReturn (a :: a :: l) ↔ NoReturn (a :: l) := by
  constructor
  · exact fun h x y hxy hsub => h x y hxy (hsub.cons a)
  · intro h x y hxy hsub
    cases hsub with
    | cons _ hsub => exact h x y hxy hsub
    | cons_cons _ hsub =>
      cases hsub with
      | cons _ hsub => exact h a y hxy (hsub.cons_cons a)
      | cons_cons _ _ => exact hxy rfl

variable [DecidableEq α]

lemma mem_destutter'_ne {a b : α} {l : List α} : a ∈ l.destutter' (· ≠ ·) b ↔ a ∈ b :: l := by
  constructor
  · exact fun h => (List.destutter'_sublist _ _ _).subset h
  · intro h
    induction l generalizing b with
    | nil => exact h
    | cons c l ih =>
      by_cases hbc : b ≠ c
      · rw [List.destutter'_cons_pos _ hbc]
        rcases List.mem_cons.mp h with rfl | h
        · exact List.mem_cons_self
        · exact List.mem_cons_of_mem _ (ih h)
      · obtain rfl : b = c := not_not.mp hbc
        rw [List.destutter'_cons_neg _ hbc]
        apply ih
        rcases List.mem_cons.mp h with rfl | h
        · exact List.mem_cons_self
        · exact h

lemma mem_destutter_ne {a : α} {l : List α} : a ∈ l.destutter (· ≠ ·) ↔ a ∈ l := by
  cases l with
  | nil => simp
  | cons b l => exact mem_destutter'_ne

lemma nodup_destutter'_ne_iff {a : α} {l : List α} :
    (l.destutter' (· ≠ ·) a).Nodup ↔ NoReturn (a :: l) := by
  induction l generalizing a with
  | nil =>
    simp only [List.destutter'_nil, List.nodup_singleton, true_iff]
    intro x y _ hsub
    simpa using hsub.length_le
  | cons b l ih =>
    by_cases hab : a ≠ b
    · rw [List.destutter'_cons_pos _ hab, List.nodup_cons, mem_destutter'_ne, ih,
        noReturn_cons_cons_of_ne hab]
    · obtain rfl : a = b := not_not.mp hab
      rw [List.destutter'_cons_neg _ hab, ih, noReturn_cons_self]

/-- Merging equal neighbours leaves every entry once exactly when none comes back later. -/
lemma nodup_destutter_ne_iff {l : List α} : (l.destutter (· ≠ ·)).Nodup ↔ NoReturn l := by
  cases l with
  | nil => simp [NoReturn]
  | cons a l => exact nodup_destutter'_ne_iff

end Dyld.Lib
