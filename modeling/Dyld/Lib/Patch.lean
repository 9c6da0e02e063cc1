import Dyld.Lib.Threaded

/-!
# Patching words in place

A handler that replaces the word at each location by a value computed from it, and stops with
an error at the first location that has no such value. When the locations share no byte, the
words it leaves behind are those of the list of writes up to the first error.
-/

namespace Dyld.Lib

/-- Memory after a list of words is written in order. -/
def storeAll (n : Nat) (m : Mem) (ws : List (Nat × BitVec (8 * n))) : Mem :=
  ws.foldl (fun m w => store n m w.1 w.2) m

section StoreAll

variable {n : Nat} {m : Mem} {ws : List (Nat × BitVec (8 * n))}

lemma storeAll_cons (w : Nat × BitVec (8 * n)) :
    storeAll n m (w :: ws) = storeAll n (store n m w.1 w.2) ws := rfl

lemma storeAll_append (ws' : List (Nat × BitVec (8 * n))) :
    storeAll n m (ws ++ ws') = storeAll n (storeAll n m ws) ws' :=
  List.foldl_append

lemma storeAll_apply {x : Nat} (h : ∀ w ∈ ws, ¬ InWord n w.1 x) : storeAll n m ws x = m x := by
  induction ws generalizing m with
  | nil => rfl
  | cons w ws ih =>
    rw [storeAll_cons, ih (fun w' hw' => h w' (List.mem_cons_of_mem w hw'))]
    exact store_apply_of_not_inWord (h w (by simp))

lemma load_storeAll_apart {a : Nat} (h : ∀ w ∈ ws, Apart n w.1 a) :
    load n (storeAll n m ws) a = load n m a := by
  apply load_congr
  intro x hx
  exact storeAll_apply (fun w hw => (h w hw).symm.not_inWord hx)

lemma load_storeAll_mem (hws : (ws.map Prod.fst).Pairwise (Apart n)) {w : Nat × BitVec (8 * n)}
    (hw : w ∈ ws) : load n (storeAll n m ws) w.1 = w.2 := by
  induction ws generalizing m with
  | nil => simp at hw
  | cons v ws ih =>
    rw [List.map_cons, List.pairwise_cons] at hws
    rw [storeAll_cons]
    rcases List.mem_cons.mp hw with rfl | hw
    · rw [load_storeAll_apart (fun w' hw' => (hws.1 w'.1 (List.mem_map_of_mem hw')).symm),
        load_store_same]
    · exact ih hws.2 hw

end StoreAll

/-- Memory that is being patched, the last error, and the locations visited so far. -/
structure Patching (ε : Type) where
  mem : Mem
  diag : Option ε
  visited : List Nat

section Patch

variable {ε : Type} {n : Nat}

/-- Replaces the word at `a` by its value, or reports the error and stops. -/
def patch (value : Nat → BitVec (8 * n) → Except ε (BitVec (8 * n))) (s : Patching ε) (a : Nat) :
    Patching ε × Bool :=
  match value a (load n s.mem a) with
  | .ok v => (⟨store n s.mem a v, s.diag, s.visited ++ [a]⟩, false)
  | .error e => (⟨s.mem, some e, s.visited ++ [a]⟩, true)

variable {value : Nat → BitVec (8 * n) → Except ε (BitVec (8 * n))} {s : Patching ε} {a : Nat}

lemma patch_ok {v : BitVec (8 * n)} (h : value a (load n s.mem a) = .ok v) :
    patch value s a = (⟨store n s.mem a v, s.diag, s.visited ++ [a]⟩, false) := by
  rw [patch, h]

lemma patch_error {e : ε} (h : value a (load n s.mem a) = .error e) :
    patch value s a = (⟨s.mem, some e, s.visited ++ [a]⟩, true) := by
  rw [patch, h]

lemma visited_patch (value : Nat → BitVec (8 * n) → Except ε (BitVec (8 * n))) (s : Patching ε)
    (a : Nat) : (patch value s a).1.visited = s.visited ++ [a] := by
  unfold patch
  split <;> rfl

lemma load_patch_apart {b : Nat} (h : Apart n a b) :
    load n (patch value s a).1.mem b = load n s.mem b := by
  unfold patch
  split
  · exact load_store_apart h
  · rfl

lemma load_feed_patch_apart {l : List Nat} {b : Nat} (h : ∀ a ∈ l, Apart n a b) :
    load n (feed (patch value) s l).1.mem b = load n s.mem b := by
  induction l generalizing s with
  | nil => rfl
  | cons a l ih =>
    have ha : load n (patch value s a).1.mem b = load n s.mem b := load_patch_apart (h a (by simp))
    rw [feed_cons]
    split
    · exact ha
    · rw [ih (fun c hc => h c (List.mem_cons_of_mem a hc)), ha]

lemma visited_feed_patch (value : Nat → BitVec (8 * n) → Except ε (BitVec (8 * n)))
    (s : Patching ε) (l : List Nat) :
    ∃ l', (feed (patch value) s l).1.visited = s.visited ++ l' ∧ (l ≠ [] → l' ≠ []) := by
  induction l generalizing s with
  | nil => exact ⟨[], by simp, by simp⟩
  | cons a l ih =>
    rw [feed_cons]
    split
    · exact ⟨[a], visited_patch value s a, by simp⟩
    · obtain ⟨l', hl', -⟩ := ih (patch value s a).1
      refine ⟨a :: l', ?_, by simp⟩
      rw [hl', visited_patch, List.append_assoc]
      rfl

lemma feed_patch_ok {l : List Nat} {val : Nat → BitVec (8 * n)} (hl : l.Pairwise (Apart n))
    (hv : ∀ a ∈ l, value a (load n s.mem a) = .ok (val a)) :
    feed (patch value) s l =
      (⟨storeAll n s.mem (l.map (fun a => (a, val a))), s.diag, s.visited ++ l⟩, false) := by
  induction l generalizing s with
  | nil => simp [storeAll]
  | cons a l ih =>
    rw [List.pairwise_cons] at hl
    have hrest : ∀ b ∈ l, value b (load n (store n s.mem a (val a)) b) = .ok (val b) := by
      intro b hb
      rw [load_store_apart (hl.1 b hb)]
      exact hv b (List.mem_cons_of_mem a hb)
    have ih' := ih (s := ⟨store n s.mem a (val a), s.diag, s.visited ++ [a]⟩) hl.2 hrest
    rw [feed_cons, patch_ok (hv a (by simp))]
    simp only [Bool.false_eq_true, if_false]
    rw [ih', List.map_cons, storeAll_cons, List.append_assoc]
    rfl

/-- Patching stops at the first word without a value. -/
lemma feed_patch_error {l : List Nat} (l' : List Nat) {b : Nat} {val : Nat → BitVec (8 * n)} {e : ε}
    (hl : (l ++ [b]).Pairwise (Apart n)) (hv : ∀ a ∈ l, value a (load n s.mem a) = .ok (val a))
    (he : value b (load n s.mem b) = .error e) :
    feed (patch value) s (l ++ b :: l') =
      (⟨storeAll n s.mem (l.map (fun a => (a, val a))), some e, s.visited ++ l ++ [b]⟩, true) := by
  rw [List.pairwise_append] at hl
  have hb : load n (storeAll n s.mem (l.map (fun a => (a, val a)))) b = load n s.mem b := by
    apply load_storeAll_apart
    intro w hw
    obtain ⟨a, ha, rfl⟩ := List.mem_map.mp hw
    exact hl.2.2 a ha b (by simp)
  rw [feed_append, feed_patch_ok hl.1 hv, feed_cons, patch_error (by simpa only [hb] using he)]
  simp

end Patch

end Dyld.Lib
