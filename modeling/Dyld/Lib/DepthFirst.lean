import Mathlib

/-!
# Depth-first search without marks

A depth-first search that looks for the first node with a result and does not mark the nodes it was
at. A node is reached along a path of child indexes, and the order of the search is the order of
the paths. The search ends exactly when, wherever a path comes back to a node, there is a result
before.
-/

namespace Dyld.Lib

/-- A graph with ordered children, where some nodes have a result. -/
structure SearchGraph (α β : Type*) where
  children : α → List α
  stop : α → Option β

/-- The first result in a list, where a search can also not end. -/
def firstStop {α β : Type*} (find : α → Option (Option β)) : List α → Option (Option β)
  | [] => some none
  | c :: cs =>
    match find c with
    | none => none
    | some (some b) => some (some b)
    | some none => firstStop find cs

namespace SearchGraph

variable {α β : Type*} (G : SearchGraph α β)

/-- Depth-first search to a depth. -/
def search : Nat → α → Option (Option β)
  | 0, _ => none
  | fuel + 1, a =>
    match G.stop a with
    | some b => some (some b)
    | none => firstStop (search fuel) (G.children a)

/-- The node that a path of child indexes leads to. -/
inductive At : α → List Nat → α → Prop
  | here (a : α) : At a [] a
  | child {a c n : α} {i : Nat} {p : List Nat} : G.stop a = none → (G.children a)[i]? = some c →
      At c p n → At a (i :: p) n

/-- A result at the end of a path. -/
def Hit (a : α) (p : List Nat) (b : β) : Prop := ∃ n, G.At a p n ∧ G.stop n = some b

/-- The first result in depth-first order. -/
def IsFirst (a : α) (b : β) : Prop := ∃ p, G.Hit a p b ∧ ∀ p' b', G.Hit a p' b' → p ≤ p'

/-- No result comes before a path. -/
def Visits (a : α) (p : List Nat) : Prop := ∀ p' b, G.Hit a p' b → p ≤ p'

/-- Wherever a path comes back to a node, a result comes before. -/
def Ends (a : α) : Prop :=
  ∀ p q n, q ≠ [] → G.At a p n → G.At n q n → ∃ p' b, G.Hit a p' b ∧ p' < p ++ q

variable {G}

/-! ### Paths -/

lemma nil_le_path (p : List Nat) : [] ≤ p := not_lt.mp (List.not_lt_nil p)

lemma cons_le_cons_path {i j : Nat} {p q : List Nat} : i :: p ≤ j :: q ↔ i < j ∨ i = j ∧ p ≤ q := by
  rw [← not_lt, List.cons_lt_cons_iff, ← not_lt]
  rcases lt_trichotomy i j with hlt | rfl | hgt
  · simp [hlt, hlt.ne', hlt.le]
  · simp
  · simp [hgt, hgt.ne', hgt.le]

lemma append_le_append_path {p q r : List Nat} : r ++ p ≤ r ++ q ↔ p ≤ q := by
  induction r with
  | nil => exact Iff.rfl
  | cons i r ih =>
    rw [List.cons_append, List.cons_append, cons_le_cons_path]
    simp [ih]

lemma le_append_path (p q : List Nat) : p ≤ p ++ q := by
  have h := append_le_append_path (r := p).mpr (nil_le_path q)
  rwa [List.append_nil] at h

/-- What lies between a path and one that continues it continues it too. -/
lemma exists_append_of_lt {r h s : List Nat} (hle : r ≤ h) (hlt : h < r ++ s) :
    ∃ h', h = r ++ h' ∧ h' < s := by
  induction r generalizing h with
  | nil => exact ⟨h, rfl, hlt⟩
  | cons i r ih =>
    cases h with
    | nil => exact absurd (List.nil_lt_cons i r) hle.not_gt
    | cons j h =>
      rw [List.cons_append, List.cons_lt_cons_iff] at hlt
      rcases cons_le_cons_path.mp hle with hij | ⟨rfl, hle'⟩
      · omega
      · obtain ⟨h', rfl, hs⟩ := ih hle' (hlt.resolve_left (lt_irrefl i)).2
        exact ⟨h', rfl, hs⟩

lemma At.append {a n m : α} {p q : List Nat} (hp : G.At a p n) (hq : G.At n q m) :
    G.At a (p ++ q) m := by
  induction hp with
  | here => exact hq
  | child hstop hc _ ih => exact At.child hstop hc (ih hq)

lemma At.split {a m : α} {p q : List Nat} (h : G.At a (p ++ q) m) :
    ∃ n, G.At a p n ∧ G.At n q m := by
  induction p generalizing a with
  | nil => exact ⟨a, At.here a, h⟩
  | cons i p ih =>
    cases h with
    | child hstop hc hrest =>
      obtain ⟨n, hn, hm⟩ := ih hrest
      exact ⟨n, At.child hstop hc hn, hm⟩

lemma At.unique {a n n' : α} {p : List Nat} (h : G.At a p n) (h' : G.At a p n') : n = n' := by
  induction h with
  | here =>
    cases h'
    rfl
  | child _ hc _ ih =>
    cases h' with
    | child _ hc' hrest' =>
      rw [hc] at hc'
      cases hc'
      exact ih hrest'

lemma hit_nil {a : α} {b : β} : G.Hit a [] b ↔ G.stop a = some b := by
  constructor
  · rintro ⟨n, hn, hb⟩
    cases hn
    exact hb
  · intro hb
    exact ⟨a, At.here a, hb⟩

lemma hit_cons {a c : α} {i : Nat} {p : List Nat} {b : β} (hstop : G.stop a = none)
    (hc : (G.children a)[i]? = some c) : G.Hit a (i :: p) b ↔ G.Hit c p b := by
  constructor
  · rintro ⟨n, hn, hb⟩
    cases hn with
    | child _ hc' hrest =>
      rw [hc] at hc'
      cases hc'
      exact ⟨n, hrest, hb⟩
  · rintro ⟨n, hn, hb⟩
    exact ⟨n, At.child hstop hc hn, hb⟩

/-- A result below a node is below one of its children. -/
lemma Hit.cases {a : α} {p : List Nat} {b : β} (hstop : G.stop a = none) (h : G.Hit a p b) :
    ∃ (i : Nat) (q : List Nat) (c : α), p = i :: q ∧ (G.children a)[i]? = some c ∧ G.Hit c q b := by
  obtain ⟨n, hn, hb⟩ := h
  cases hn with
  | here =>
    rw [hstop] at hb
    cases hb
  | child _ hc hrest => exact ⟨_, _, _, rfl, hc, n, hrest, hb⟩

lemma Hit.append {a n : α} {p q : List Nat} {b : β} (hp : G.At a p n) (h : G.Hit n q b) :
    G.Hit a (p ++ q) b := by
  obtain ⟨m, hm, hb⟩ := h
  exact ⟨m, hp.append hm, hb⟩

/-! ### The search -/

/-- A search that does not pass over everything gives what one item gives. -/
lemma firstStop_ne {find : α → Option (Option β)} {cs : List α} (h : firstStop find cs ≠ some none) :
    ∃ (i : Nat) (c : α), cs[i]? = some c ∧ find c = firstStop find cs ∧
      ∀ j < i, ∀ d, cs[j]? = some d → find d = some none := by
  induction cs with
  | nil => exact absurd rfl h
  | cons c cs ih =>
    rw [firstStop] at h ⊢
    cases hfind : find c with
    | none => exact ⟨0, c, rfl, hfind, fun j hj => absurd hj (Nat.not_lt_zero j)⟩
    | some r =>
      rw [hfind] at h
      cases r with
      | some b => exact ⟨0, c, rfl, hfind, fun j hj => absurd hj (Nat.not_lt_zero j)⟩
      | none =>
        obtain ⟨i, d, hd, hb, hbefore⟩ := ih h
        refine ⟨i + 1, d, hd, hb, ?_⟩
        intro j hj e he
        cases j with
        | zero =>
          cases he
          exact hfind
        | succ j => exact hbefore j (Nat.lt_of_succ_lt_succ hj) e he

lemma firstStop_eq_some_none {find : α → Option (Option β)} {cs : List α}
    (h : firstStop find cs = some none) : ∀ c ∈ cs, find c = some none := by
  induction cs with
  | nil =>
    intro c hc
    cases hc
  | cons c cs ih =>
    rw [firstStop] at h
    cases hfind : find c with
    | none =>
      rw [hfind] at h
      cases h
    | some r =>
      rw [hfind] at h
      cases r with
      | some b => cases h
      | none =>
        intro d hd
        rcases List.mem_cons.mp hd with rfl | hd
        · exact hfind
        · exact ih h d hd

/-- A search that ends and finds nothing before an entry ends for that entry. -/
lemma firstStop_reaches {find : α → Option (Option β)} {cs : List α} {i : Nat} {c : α}
    (h : firstStop find cs ≠ none) (hc : cs[i]? = some c)
    (hbefore : ∀ j < i, ∀ d, cs[j]? = some d → ∀ b, find d ≠ some (some b)) : find c ≠ none := by
  induction cs generalizing i with
  | nil => cases hc
  | cons d cs ih =>
    rw [firstStop] at h
    cases i with
    | zero =>
      cases hc
      intro hnone
      rw [hnone] at h
      exact h rfl
    | succ i =>
      cases hfind : find d with
      | none =>
        rw [hfind] at h
        exact absurd rfl h
      | some r =>
        cases r with
        | some b => exact absurd hfind (hbefore 0 (Nat.succ_pos i) d rfl b)
        | none =>
          rw [hfind] at h
          apply ih h hc
          intro j hj e he
          exact hbefore (j + 1) (Nat.succ_lt_succ hj) e he

lemma search_of_stop {a : α} {b : β} (fuel : Nat) (h : G.stop a = some b) :
    G.search (fuel + 1) a = some (some b) := by
  rw [search, h]

lemma search_of_not_stop {a : α} (fuel : Nat) (h : G.stop a = none) :
    G.search (fuel + 1) a = firstStop (G.search fuel) (G.children a) := by
  rw [search, h]

lemma no_hit_of_search {fuel : Nat} {a : α} (h : G.search fuel a = some none) (p : List Nat) (b : β) :
    ¬G.Hit a p b := by
  induction fuel generalizing a p with
  | zero => cases h
  | succ fuel ih =>
    cases hstop : G.stop a with
    | some b' =>
      rw [search_of_stop fuel hstop] at h
      cases h
    | none =>
      rw [search_of_not_stop fuel hstop] at h
      intro hhit
      obtain ⟨i, q, c, rfl, hc, hq⟩ := hhit.cases hstop
      exact ih (firstStop_eq_some_none h c (List.mem_of_getElem? hc)) q hq

/-- A path stays ahead of all results when it goes to a child and the children before have none. -/
lemma Visits.cons {a c : α} {i : Nat} {p : List Nat} (hstop : G.stop a = none)
    (hc : (G.children a)[i]? = some c) (hp : G.Visits c p)
    (hbefore : ∀ j < i, ∀ d, (G.children a)[j]? = some d → ∀ q b, ¬G.Hit d q b) :
    G.Visits a (i :: p) := by
  intro p' b hhit
  obtain ⟨j, q, d, rfl, hd, hq⟩ := hhit.cases hstop
  rcases lt_trichotomy j i with hlt | rfl | hgt
  · exact absurd hq (hbefore j hlt d hd q b)
  · rw [hc] at hd
    cases hd
    exact cons_le_cons_path.mpr (Or.inr ⟨rfl, hp q b hq⟩)
  · exact cons_le_cons_path.mpr (Or.inl hgt)

lemma isFirst_of_search {fuel : Nat} {a : α} {b : β} (h : G.search fuel a = some (some b)) :
    G.IsFirst a b := by
  induction fuel generalizing a with
  | zero => cases h
  | succ fuel ih =>
    cases hstop : G.stop a with
    | some b' =>
      rw [search_of_stop fuel hstop] at h
      cases h
      exact ⟨[], hit_nil.mpr hstop, fun p' _ _ => nil_le_path p'⟩
    | none =>
      rw [search_of_not_stop fuel hstop] at h
      obtain ⟨i, c, hc, hfind, hbefore⟩ := firstStop_ne (h.trans_ne (by simp))
      obtain ⟨p, hp, hfirst⟩ := ih (hfind.trans h)
      refine ⟨i :: p, (hit_cons hstop hc).mpr hp, ?_⟩
      exact Visits.cons hstop hc hfirst (fun j hj d hd => no_hit_of_search (hbefore j hj d hd))

lemma visits_of_search_eq_none {fuel : Nat} {a : α} (h : G.search fuel a = none) :
    ∃ p n, p.length = fuel ∧ G.At a p n ∧ G.Visits a p := by
  induction fuel generalizing a with
  | zero => exact ⟨[], a, rfl, At.here a, fun p' _ _ => nil_le_path p'⟩
  | succ fuel ih =>
    cases hstop : G.stop a with
    | some b =>
      rw [search_of_stop fuel hstop] at h
      cases h
    | none =>
      rw [search_of_not_stop fuel hstop] at h
      obtain ⟨i, c, hc, hnone, hbefore⟩ := firstStop_ne (h.trans_ne (by simp))
      obtain ⟨p, n, hlen, hn, hvisits⟩ := ih (hnone.trans h)
      refine ⟨i :: p, n, congrArg Nat.succ hlen, At.child hstop hc hn, ?_⟩
      exact hvisits.cons hstop hc (fun j hj d hd => no_hit_of_search (hbefore j hj d hd))

/-- A search that ends goes down all paths that no result comes before. -/
lemma length_lt_of_search {fuel : Nat} {a n : α} {p : List Nat} (h : G.search fuel a ≠ none)
    (hp : G.At a p n) (hvisits : G.Visits a p) : p.length < fuel := by
  induction fuel generalizing a p with
  | zero => exact absurd rfl h
  | succ fuel ih =>
    cases hp with
    | here => exact Nat.succ_pos fuel
    | @child _ c _ i q hstop hc hrest =>
      rw [search_of_not_stop fuel hstop] at h
      apply Nat.succ_lt_succ
      apply ih _ hrest
      · intro p' b hhit
        have hle := hvisits (i :: p') b ((hit_cons hstop hc).mpr hhit)
        rcases cons_le_cons_path.mp hle with hlt | ⟨-, hle⟩
        · exact absurd hlt (lt_irrefl i)
        · exact hle
      · apply firstStop_reaches h hc
        intro j hj d hd b hfind
        obtain ⟨p', hp', -⟩ := isFirst_of_search hfind
        rcases cons_le_cons_path.mp (hvisits (j :: p') b ((hit_cons hstop hd).mpr hp')) with hlt | ⟨rfl, -⟩
        · exact absurd hlt hj.not_gt
        · exact absurd hj (lt_irrefl i)

/-! ### When the search ends -/

/-- Goes `k` times around a loop. -/
def around (q : List Nat) : Nat → List Nat
  | 0 => []
  | k + 1 => q ++ around q k

lemma le_length_around {q : List Nat} (hq : q ≠ []) (k : Nat) : k ≤ (around q k).length := by
  induction k with
  | zero => exact Nat.zero_le _
  | succ k ih =>
    have hpos := List.length_pos_iff.mpr hq
    rw [around, List.length_append]
    omega

lemma At.around {n : α} {q : List Nat} (hq : G.At n q n) (k : Nat) : G.At n (around q k) n := by
  induction k with
  | zero => exact At.here n
  | succ k ih => exact hq.append ih

lemma Visits.mono {a : α} {p q : List Nat} (h : G.Visits a q) (hle : p ≤ q) : G.Visits a p :=
  fun p' b hhit => hle.trans (h p' b hhit)

/-- When no result comes before the first way around a loop, none comes before the others. -/
lemma Visits.around {a n : α} {p q : List Nat} (hp : G.At a p n) (hq : G.At n q n)
    (hvisits : G.Visits a (p ++ q)) (k : Nat) : G.Visits a (p ++ around q k) := by
  induction k with
  | zero => exact hvisits.mono (append_le_append_path.mpr (nil_le_path q))
  | succ k ih =>
    intro h b hhit
    by_contra hlt
    rw [not_le, SearchGraph.around, ← List.append_assoc] at hlt
    obtain ⟨h', rfl, hbefore⟩ := exists_append_of_lt (hvisits h b hhit) hlt
    obtain ⟨m, hm, hb⟩ := hhit
    obtain ⟨n', hn', hrest⟩ := hm.split
    cases (hp.append hq).unique hn'
    -- without the way around, the result comes too early
    have hle := ih (p ++ h') b (Hit.append hp ⟨m, hrest, hb⟩)
    exact hbefore.not_ge (append_le_append_path.mp hle)

lemma not_visits {a : α} {p : List Nat} : ¬G.Visits a p ↔ ∃ p' b, G.Hit a p' b ∧ p' < p := by
  simp only [Visits, not_forall, not_le, exists_prop]

/-- The search ends exactly when, wherever a path comes back to a node, a result comes before. -/
theorem search_ends_iff {a : α} (hfinite : {n | ∃ p, G.At a p n}.Finite) :
    (∃ fuel, G.search fuel a ≠ none) ↔ G.Ends a := by
  constructor
  · rintro ⟨fuel, hends⟩ p q n hq hp hloop
    apply not_visits.mp
    intro hvisits
    have hlt := length_lt_of_search hends (hp.append (hloop.around fuel))
      (hvisits.around hp hloop fuel)
    have hle := le_length_around hq fuel
    rw [List.length_append] at hlt
    omega
  · intro hloops
    by_contra hnever
    rw [not_exists] at hnever
    obtain ⟨w, m, hlen, hm, hvisits⟩ :=
      visits_of_search_eq_none (not_not.mp (hnever hfinite.toFinset.card))
    -- a path that is long enough comes back to a node
    have hnode : ∀ i, ∃ n, G.At a (w.take i) n ∧ G.At n (w.drop i) m := by
      intro i
      apply At.split
      rwa [List.take_append_drop]
    choose node hnode hrest using hnode
    have hmaps : ∀ i ∈ Finset.range (hfinite.toFinset.card + 1), node i ∈ hfinite.toFinset := by
      intro i _
      exact hfinite.mem_toFinset.mpr ⟨w.take i, hnode i⟩
    obtain ⟨i, hi, j, hj, hne, heq⟩ :=
      Finset.exists_ne_map_eq_of_card_lt_of_maps_to (by simp) hmaps
    rw [Finset.mem_range, ← hlen] at hi hj
    have hback : ∀ i j, i < j → j < w.length + 1 → node i = node j → False := by
      intro i j hij hj heq
      have htake : w.take i ++ (w.drop i).take (j - i) = w.take j := by
        rw [← List.take_add, Nat.add_sub_cancel' hij.le]
      have hsplit := hrest i
      rw [← List.take_append_drop (j - i) (w.drop i)] at hsplit
      obtain ⟨n, hn, -⟩ := hsplit.split
      have hback : n = node i := by
        rw [heq]
        apply At.unique (htake ▸ (hnode i).append hn) (hnode j)
      have hloop : (w.drop i).take (j - i) ≠ [] := by
        rw [Ne, ← List.length_eq_zero_iff, List.length_take, List.length_drop]
        omega
      apply not_visits.mpr
        (hloops (w.take i) ((w.drop i).take (j - i)) (node i) hloop (hnode i) (hback ▸ hn))
      rw [htake]
      apply hvisits.mono
      have hle := le_append_path (w.take j) (w.drop j)
      rwa [List.take_append_drop] at hle
    rcases lt_or_gt_of_ne hne with hij | hij
    · exact hback i j hij hj heq
    · exact hback j i hij hi heq.symm

lemma IsFirst.unique {a : α} {b b' : β} (h : G.IsFirst a b) (h' : G.IsFirst a b') : b = b' := by
  obtain ⟨p, hp, hfirst⟩ := h
  obtain ⟨p', hp', hfirst'⟩ := h'
  obtain rfl := le_antisymm (hfirst p' b' hp') (hfirst' p b hp)
  obtain ⟨n, hn, hb⟩ := hp
  obtain ⟨n', hn', hb'⟩ := hp'
  obtain rfl := hn.unique hn'
  exact Option.some.inj (hb.symm.trans hb')

lemma finite_of_closed {a : α} {S : Set α} (hS : S.Finite) (ha : a ∈ S)
    (hclosed : ∀ n ∈ S, ∀ c ∈ G.children n, c ∈ S) : {n | ∃ p, G.At a p n}.Finite := by
  apply hS.subset
  rintro n ⟨p, hp⟩
  induction hp with
  | here => exact ha
  | child _ hc _ ih => exact ih (hclosed _ ha _ (List.mem_of_getElem? hc))

end SearchGraph

/-! ### Searches with a state -/

section State

variable {α β σ : Type*}

def firstFound (find : α → σ → Option (Bool × σ)) : List α → σ → Option (Bool × σ)
  | [], st => some (false, st)
  | c :: cs, st =>
    match find c st with
    | none => none
    | some (true, st) => some (true, st)
    | some (false, st) => firstFound find cs st

/-- What a search with a state does for a result of the search: it does not end either, or it finds
nothing and leaves a state like the one before, or it reports the result. -/
def Follows (same : σ → σ → Prop) (reports : β → σ → Option (Bool × σ) → Prop)
    (result : Option (Option β)) (st : σ) (out : Option (Bool × σ)) : Prop :=
  match result with
  | none => out = none
  | some none => ∃ st', out = some (false, st') ∧ same st st'
  | some (some b) => reports b st out

/-- What lets a search with a state go from one entry to the next. -/
structure Reporting (find : α → σ → Option (Bool × σ)) (ok : σ → Prop) (same : σ → σ → Prop)
    (reports : β → σ → Option (Bool × σ) → Prop) : Prop where
  ok_of_same : ∀ st st', ok st → same st st' → ok st'
  refl : ∀ st, same st st
  trans : ∀ st st' st'', same st st' → same st' st'' → same st st''
  reports_of_same : ∀ b st st' out, same st st' → reports b st' out → reports b st out
  continues : ∀ b st st' cs, reports b st (some (false, st')) → reports b st (firstFound find cs st')

lemma Reporting.follows_of_same {find : α → σ → Option (Bool × σ)} {ok : σ → Prop}
    {same : σ → σ → Prop} {reports : β → σ → Option (Bool × σ) → Prop}
    (h : Reporting find ok same reports) {result : Option (Option β)} {st st' : σ}
    {out : Option (Bool × σ)} (hsame : same st st') (hfollows : Follows same reports result st' out) :
    Follows same reports result st out := by
  cases result with
  | none => exact hfollows
  | some r =>
    cases r with
    | none =>
      obtain ⟨st'', hout, hsame'⟩ := hfollows
      exact ⟨st'', hout, h.trans st st' st'' hsame hsame'⟩
    | some b => exact h.reports_of_same b st st' out hsame hfollows

lemma follows_firstStop {find : α → σ → Option (Bool × σ)} {search : α → Option (Option β)}
    {ok : σ → Prop} {same : σ → σ → Prop} {reports : β → σ → Option (Bool × σ) → Prop}
    (h : Reporting find ok same reports) (cs : List α) {st : σ} (hst : ok st)
    (hfind : ∀ c ∈ cs, ∀ st, ok st → Follows same reports (search c) st (find c st)) :
    Follows same reports (firstStop search cs) st (firstFound find cs st) := by
  induction cs generalizing st with
  | nil => exact ⟨st, rfl, h.refl st⟩
  | cons c cs ih =>
    have hc := hfind c List.mem_cons_self st hst
    have hcs : ∀ d ∈ cs, ∀ st, ok st → Follows same reports (search d) st (find d st) := fun d hd =>
      hfind d (List.mem_cons_of_mem c hd)
    rw [firstStop, firstFound]
    cases hsearch : search c with
    | none =>
      rw [hsearch] at hc
      change find c st = none at hc
      rw [hc]
      rfl
    | some r =>
      rw [hsearch] at hc
      cases r with
      | none =>
        obtain ⟨st', hout, hsame⟩ := hc
        have hrest := ih (h.ok_of_same st st' hst hsame) hcs
        rw [hout]
        dsimp only
        exact h.follows_of_same hsame hrest
      | some b =>
        change reports b st (find c st) at hc
        dsimp only
        change reports b st _
        cases hout : find c st with
        | none =>
          rw [hout] at hc
          exact hc
        | some out =>
          rw [hout] at hc
          obtain ⟨found, st'⟩ := out
          cases found with
          | true => exact hc
          | false => exact h.continues b st st' cs hc

end State

end Dyld.Lib
