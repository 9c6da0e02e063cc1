import Mathlib

/-!
# Handlers that stop

A handler is called on the items of a list, one after the other, until it stops. Iterators that call
other iterators from their handlers hand on the items of all lists.
-/

namespace Dyld.Lib

section Feed

variable {σ α β : Type} (handler : σ → α → σ × Bool)

/-- Calls the handler on the items until it stops. -/
def feed : σ → List α → σ × Bool
  | s, [] => (s, false)
  | s, a :: l =>
    let r := handler s a
    if r.2 then (r.1, true) else feed r.1 l

/-- The handler with a flag in its state that is set when it stops. -/
def noting (t : σ × Bool) (a : α) : (σ × Bool) × Bool :=
  let r := handler t.1 a
  ((r.1, t.2 || r.2), r.2)

/-- Takes note of its calls and stops at the one with number `k`, counted from zero. -/
def stopAt (k : Nat) (calls : List α) (a : α) : List α × Bool := (calls ++ [a], decide (calls.length = k))

/-- Takes note of its calls and never stops. -/
def goOn (calls : List α) (a : α) : List α × Bool := (calls ++ [a], false)

variable {handler}

@[simp] lemma feed_nil (s : σ) : feed handler s [] = (s, false) := rfl

lemma feed_cons (s : σ) (a : α) (l : List α) :
    feed handler s (a :: l) =
      if (handler s a).2 then ((handler s a).1, true) else feed handler (handler s a).1 l := rfl

lemma feed_append (s : σ) (l l' : List α) :
    feed handler s (l ++ l') =
      if (feed handler s l).2 then feed handler s l else feed handler (feed handler s l).1 l' := by
  induction l generalizing s with
  | nil => rfl
  | cons a l ih =>
    rw [List.cons_append, feed_cons, feed_cons]
    by_cases hstop : (handler s a).2
    · simp [hstop]
    · simp only [hstop, Bool.false_eq_true, if_false]
      exact ih _

lemma feed_singleton (s : σ) (a : α) : feed handler s [a] = handler s a := by
  rw [feed_cons, feed_nil]
  by_cases hstop : (handler s a).2
  · rw [if_pos hstop, ← hstop]
  · rw [if_neg hstop, ← Bool.not_eq_true _ |>.mp hstop]

lemma feed_flatMap (f : β → List α) (s : σ) (l : List β) :
    feed (fun s b => feed handler s (f b)) s l = feed handler s (l.flatMap f) := by
  induction l generalizing s with
  | nil => rfl
  | cons b l ih =>
    rw [List.flatMap_cons, feed_append, feed_cons]
    by_cases hstop : (feed handler s (f b)).2
    · rw [if_pos hstop, if_pos hstop, ← hstop]
    · rw [if_neg hstop, if_neg hstop, ih]

lemma feed_map (f : β → α) (s : σ) (l : List β) :
    feed (fun s b => handler s (f b)) s l = feed handler s (l.map f) := by
  induction l generalizing s with
  | nil => rfl
  | cons b l ih => rw [List.map_cons, feed_cons, feed_cons, ih]

/-- Handlers that do the same to states that belong together. -/
lemma feed_comm {τ : Type} {handler' : τ → α → τ × Bool} {f : σ → τ}
    (h : ∀ s a, handler' (f s) a = (f (handler s a).1, (handler s a).2)) (s : σ) (l : List α) :
    feed handler' (f s) l = (f (feed handler s l).1, (feed handler s l).2) := by
  induction l generalizing s with
  | nil => rfl
  | cons a l ih =>
    rw [feed_cons, feed_cons, h]
    by_cases hstop : (handler s a).2
    · rw [if_pos hstop, if_pos hstop]
    · rw [if_neg hstop, if_neg hstop, ih]

lemma feed_noting (s : σ) (l : List α) :
    feed (noting handler) (s, false) l = (feed handler s l, (feed handler s l).2) := by
  induction l generalizing s with
  | nil => rfl
  | cons a l ih =>
    rw [feed_cons, feed_cons, noting]
    by_cases hstop : (handler s a).2
    · simp [hstop]
    · simp only [hstop, Bool.false_or, Bool.false_eq_true, if_false]
      exact ih _

lemma feed_goOn (calls l : List α) : feed goOn calls l = (calls ++ l, false) := by
  induction l generalizing calls with
  | nil => rw [feed_nil, List.append_nil]
  | cons a l ih =>
    rw [feed_cons, goOn, if_neg Bool.false_ne_true, ih, List.append_assoc, List.singleton_append]

lemma feed_stopAt (k : Nat) (calls l : List α) (hk : calls.length ≤ k) :
    (feed (stopAt k) calls l).1 = calls ++ l.take (k + 1 - calls.length) := by
  induction l generalizing calls with
  | nil => simp
  | cons a l ih =>
    rw [feed_cons, stopAt]
    by_cases hstop : calls.length = k
    · simp [hstop]
    · rw [if_neg (by simpa using hstop), ih _ (by rw [List.length_append, List.length_singleton]; omega)]
      obtain ⟨n, hn⟩ : ∃ n, k + 1 - calls.length = n + 1 := ⟨k - calls.length, by omega⟩
      have hn' : k + 1 - (calls ++ [a]).length = n := by
        rw [List.length_append, List.length_singleton]
        omega
      rw [hn, hn', List.take_succ_cons, List.append_assoc, List.singleton_append]

end Feed

end Dyld.Lib
