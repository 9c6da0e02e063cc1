import Mathlib

/-!
# Last writes

A loop overwrites a field with what some of its items carry: afterwards the field holds what the
last of them carries. `filled` lists the slots of a table that hold something, with their numbers.
-/

namespace Dyld.Lib

section LastSome

variable {α β σ : Type} {f g : α → Option β} {xs : List α}

/-- What the last item that carries something carries. -/
def lastSome (f : α → Option β) (xs : List α) : Option β := (xs.filterMap f).getLast?

lemma lastSome_concat (x : α) : lastSome f (xs ++ [x]) = (f x).or (lastSome f xs) := by
  rw [lastSome, lastSome, List.filterMap_append, List.filterMap_cons]
  cases f x with
  | none => simp
  | some b => simp

lemma lastSome_eq_none_iff : lastSome f xs = none ↔ ∀ x ∈ xs, f x = none := by
  rw [lastSome, List.getLast?_eq_none_iff, List.filterMap_eq_nil_iff]

end LastSome

section Filled

variable {β : Type} {f g : Nat → Option β} {m n i : Nat} {b : β}

/-- The slots below `n` that hold something, with their numbers. -/
def filled (n : Nat) (f : Nat → Option β) : List (β × Nat) :=
  (List.range n).filterMap (fun i => (f i).map (·, i))

end Filled

end Dyld.Lib
