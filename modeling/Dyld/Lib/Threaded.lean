import Dyld.Lib.Feed
import Dyld.Lib.Memory

/-!
# Chains threaded through memory

A chain is a list of locations linked by the contents of the locations themselves: the
content of each one gives the distance to the next, and distance zero ends the chain.
`walk` follows such a chain while a handler may overwrite the locations it is called on.
The results say that the handler is called on exactly the locations of the chain as it
stood before the walk, and what memory holds afterwards.
-/

namespace Dyld.Lib

section Walk

variable {σ W : Type} (next : W → Nat) (read : σ → Nat → W) (handler : σ → Nat → σ × Bool)

/-- Follows a chain from `loc`. The content is read before the handler runs, so a handler
may overwrite the location it is given. A handler that returns `true` stops the walk. -/
def walk : Nat → σ → Nat → Option (σ × Bool)
  | 0, _, _ => none
  | fuel + 1, s, loc =>
    let raw := read s loc
    let r := handler s loc
    if r.2 then some (r.1, true)
    else if next raw = 0 then some (r.1, false)
    else walk fuel r.1 (loc + next raw)

/-- The chain that starts at `a` and continues through the locations of `l`. -/
def Threaded (content : Nat → W) : Nat → List Nat → Prop
  | a, [] => next (content a) = 0
  | a, b :: l => next (content a) ≠ 0 ∧ a + next (content a) = b ∧ Threaded content b l

variable {next read handler}

lemma Threaded.congr {content content' : Nat → W} {a : Nat} {l : List Nat}
    (h : Threaded next content a l) (hc : ∀ b ∈ a :: l, content b = content' b) :
    Threaded next content' a l := by
  induction l generalizing a with
  | nil =>
    have ha := hc a (by simp)
    simpa [Threaded, ← ha] using h
  | cons b l ih =>
    have ha := hc a (by simp)
    obtain ⟨h0, h1, h2⟩ := h
    rw [ha] at h0 h1
    exact ⟨h0, h1, ih h2 (fun x hx => hc x (List.mem_cons_of_mem a hx))⟩

lemma Threaded.concat {content content' : Nat → W} {a z b : Nat} {l : List Nat}
    (h : Threaded next content a l) (hz : (a :: l).getLast? = some z) (hnd : (a :: l).Nodup)
    (hc : ∀ x ∈ a :: l, x ≠ z → content' x = content x) (h0 : next (content' z) ≠ 0)
    (hb : z + next (content' z) = b) (hend : next (content' b) = 0) :
    Threaded next content' a (l ++ [b]) := by
  induction l generalizing a with
  | nil =>
    obtain rfl : a = z := by simpa using hz
    exact ⟨h0, hb, hend⟩
  | cons y l ih =>
    obtain ⟨ha, hy, hl⟩ := h
    rw [List.getLast?_cons_cons] at hz
    have hnd' := List.nodup_cons.mp hnd
    have hne : a ≠ z := by
      rintro rfl
      exact hnd'.1 (List.mem_of_getLast? hz)
    have hsame := hc a (by simp) hne
    refine ⟨by rwa [hsame], by rwa [hsame], ?_⟩
    exact ih hl hz hnd'.2 (fun x hx hxz => hc x (List.mem_cons_of_mem a hx) hxz)

/-- A walk over a chain calls the handler on exactly the locations of the chain, when no
call changes the content of another location of the chain. -/
theorem walk_threaded {a : Nat} {l : List Nat} {s : σ} {fuel : Nat} (hnd : (a :: l).Nodup)
    (hframe : ∀ s, ∀ x ∈ a :: l, ∀ y ∈ a :: l, x ≠ y → read (handler s x).1 y = read s y)
    (h : Threaded next (read s) a l) (hf : l.length < fuel) :
    walk next read handler fuel s a = some (feed handler s (a :: l)) := by
  induction l generalizing a s fuel with
  | nil =>
    obtain ⟨fuel, rfl⟩ : ∃ k, fuel = k + 1 := ⟨fuel - 1, by omega⟩
    simp only [Threaded] at h
    by_cases hs : (handler s a).2
    · simp [walk, feed_cons, hs]
    · simp [walk, feed_cons, hs, h]
  | cons b l ih =>
    obtain ⟨fuel, rfl⟩ : ∃ k, fuel = k + 1 := ⟨fuel - 1, by omega⟩
    obtain ⟨h0, h1, h2⟩ := h
    rw [feed_cons]
    by_cases hs : (handler s a).2
    · simp [walk, hs]
    · have hab : a ∉ b :: l := (List.nodup_cons.mp hnd).1
      have hrest : Threaded next (read (handler s a).1) b l := by
        refine h2.congr (fun x hx => (hframe s a (by simp) x (List.mem_cons_of_mem a hx) ?_).symm)
        rintro rfl
        exact hab hx
      simp only [walk, hs, Bool.false_eq_true, if_false, h0, h1]
      refine ih (List.nodup_cons.mp hnd).2 (fun t x hx y hy => ?_) hrest
        (by simp only [List.length_cons] at hf; omega)
      exact hframe t x (List.mem_cons_of_mem a hx) y (List.mem_cons_of_mem a hy)

lemma snd_of_walk (hstop : ∀ s a, (handler s a).2 = false) {fuel : Nat} {s : σ} {a : Nat}
    {r : σ × Bool} (h : walk next read handler fuel s a = some r) : r.2 = false := by
  induction fuel generalizing s a with
  | zero => simp [walk] at h
  | succ fuel ih =>
    simp only [walk, hstop, Bool.false_eq_true, if_false] at h
    split_ifs at h
    · rw [Option.some.injEq] at h
      rw [← h]
    · exact ih h

/-- A walk whose handler neither stops nor changes a content follows a chain to its end. -/
theorem exists_threaded_of_walk (hstop : ∀ s a, (handler s a).2 = false)
    (hread : ∀ s a, read (handler s a).1 = read s) {fuel : Nat} {s : σ} {a : Nat} {r : σ × Bool}
    (h : walk next read handler fuel s a = some r) :
    ∃ l, Threaded next (read s) a l ∧ l.length < fuel ∧ r = feed handler s (a :: l) := by
  induction fuel generalizing s a with
  | zero => simp [walk] at h
  | succ fuel ih =>
    simp only [walk, hstop, Bool.false_eq_true, if_false] at h
    split_ifs at h with h0
    · rw [Option.some.injEq] at h
      exact ⟨[], h0, by simp, by rw [← h, feed_cons]; simp [hstop]⟩
    · obtain ⟨l, hl, hlen, hr⟩ := ih h
      rw [hread] at hl
      refine ⟨(a + next (read s a)) :: l, ⟨h0, rfl, hl⟩, by simp; omega, ?_⟩
      rw [hr, feed_cons (s := s)]
      simp [hstop]

end Walk

end Dyld.Lib
