import Dyld.Lib.DepthFirst

/-!
# Depth-first search with names

The edges of a graph have labels, and a search without marks keeps the labels of its path in a buffer. It
fails where the graph is malformed, and it overflows where a name does not fit. It ends without an
overflow exactly when, wherever a path comes back to a node with a name of the same length or to a name
that does not fit, it fails before.
-/

namespace Dyld.Lib

/-- An edge with the length of its label, or an edge that is malformed behind the characters that are
`written`. -/
inductive NamedEdge (α β : Type*)
  | edge (length : Nat) (child : α)
  | malformed (written : Nat) (error : β)

structure NamedGraph (α β : Type*) where
  malformed : α → Option β
  edges : α → List (NamedEdge α β)

inductive Failure (β : Type*)
  | error (error : β)
  | overflow

/-- Where a search is: at a node, with a name of some length, or where it fails. -/
inductive Place (α β : Type*)
  | node (a : α) (used : Nat)
  | failed (error : β)
  | overflow

namespace NamedGraph

variable {α β : Type*} (N : NamedGraph α β) (capacity : Nat)

/-- The search goes on if it has not failed. -/
def goOn {β : Type*} (r rest : Option (Option (Failure β))) : Option (Option (Failure β)) :=
  match r with
  | none => none
  | some (some failure) => some (some failure)
  | some none => rest

/-- The search along the edges of a node. A label is written with a terminator. -/
def searchEdges (find : α → Nat → Option (Option (Failure β))) (used : Nat) :
    List (NamedEdge α β) → Option (Option (Failure β))
  | [] => some none
  | .malformed written error :: _ =>
    if used + written ≤ capacity then some (some (.error error)) else some (some .overflow)
  | .edge length child :: rest =>
    if used + length < capacity then goOn (find child (used + length)) (searchEdges find used rest)
    else some (some .overflow)

def search : Nat → α → Nat → Option (Option (Failure β))
  | 0, _, _ => none
  | fuel + 1, a, used =>
    match N.malformed a with
    | some error => some (some (.error error))
    | none => searchEdges capacity (search fuel) used (N.edges a)

def place (used : Nat) : NamedEdge α β → Place α β
  | .edge length child => if used + length < capacity then .node child (used + length) else .overflow
  | .malformed written error => if used + written ≤ capacity then .failed error else .overflow

def places : SearchGraph (Place α β) (Failure β) where
  children
    | .node a used => (N.edges a).map (place capacity used)
    | .failed _ => []
    | .overflow => []
  stop
    | .node a _ => (N.malformed a).map .error
    | .failed error => some (.error error)
    | .overflow => some .overflow

/-- Wherever a path comes back to a place, the search fails before, and so it does wherever a name does
not fit. -/
structure Fits (a : α) : Prop where
  ends : (N.places capacity).Ends (.node a 0)
  before : ∀ p, (N.places capacity).Hit (.node a 0) p .overflow →
    ∃ p' error, (N.places capacity).Hit (.node a 0) p' (.error error) ∧ p' < p

variable {N capacity}

lemma search_of_malformed {a : α} {error : β} (h : N.malformed a = some error) (fuel used : Nat) :
    N.search capacity (fuel + 1) a used = some (some (.error error)) := by
  rw [search, h]

lemma search_of_not_malformed {a : α} (h : N.malformed a = none) (fuel used : Nat) :
    N.search capacity (fuel + 1) a used =
      searchEdges capacity (N.search capacity fuel) used (N.edges a) := by
  rw [search, h]

/-! ### The search as a search of places -/

lemma eq_of_firstStop_cons {find : Place α β → Option (Option (Failure β))} {x : Place α β}
    {rest : List (Place α β)} {failure : Failure β} {r : Option (Failure β)}
    (hfails : ∀ r, find x = some r → r = some failure) (h : firstStop find (x :: rest) = some r) :
    r = some failure := by
  rw [firstStop] at h
  cases hfind : find x with
  | none =>
    rw [hfind] at h
    cases h
  | some r' =>
    rw [hfind, hfails r' hfind] at h
    exact (Option.some.inj h).symm

lemma searchEdges_of_firstStop {find : α → Nat → Option (Option (Failure β))}
    {find' : Place α β → Option (Option (Failure β))} {used : Nat} {r : Option (Failure β)}
    {edges : List (NamedEdge α β)}
    (hnode : ∀ child used r, find' (.node child used) = some r → find child used = some r)
    (hfailed : ∀ error r, find' (.failed error) = some r → r = some (.error error))
    (hoverflow : ∀ r, find' .overflow = some r → r = some .overflow)
    (h : firstStop find' (edges.map (place capacity used)) = some r) :
    searchEdges capacity find used edges = some r := by
  induction edges with
  | nil => exact h
  | cons e edges ih =>
    rw [List.map_cons] at h
    cases e with
    | malformed written error =>
      rw [place] at h
      rw [searchEdges]
      split_ifs at h ⊢ with hfit
      · rw [eq_of_firstStop_cons (hfailed error) h]
      · rw [eq_of_firstStop_cons hoverflow h]
    | edge length child =>
      rw [place] at h
      rw [searchEdges]
      split_ifs at h ⊢ with hfit
      · rw [firstStop] at h
        cases hfind : find' (.node child (used + length)) with
        | none =>
          rw [hfind] at h
          cases h
        | some r' =>
          rw [hfind] at h
          rw [hnode child (used + length) r' hfind]
          cases r' with
          | none => exact ih h
          | some failure => exact h
      · rw [eq_of_firstStop_cons hoverflow h]

lemma firstStop_of_searchEdges {find : α → Nat → Option (Option (Failure β))}
    {find' : Place α β → Option (Option (Failure β))} {used : Nat} {r : Option (Failure β)}
    {edges : List (NamedEdge α β)}
    (hnode : ∀ child used r, find child used = some r → find' (.node child used) = some r)
    (hfailed : ∀ error, find' (.failed error) = some (some (.error error)))
    (hoverflow : find' .overflow = some (some .overflow))
    (h : searchEdges capacity find used edges = some r) :
    firstStop find' (edges.map (place capacity used)) = some r := by
  induction edges with
  | nil => exact h
  | cons e edges ih =>
    cases e with
    | malformed written error =>
      rw [searchEdges] at h
      rw [List.map_cons, firstStop, place]
      split_ifs at h ⊢ with hfit
      · rw [hfailed]
        exact h
      · rw [hoverflow]
        exact h
    | edge length child =>
      rw [searchEdges] at h
      rw [List.map_cons, firstStop, place]
      split_ifs at h ⊢ with hfit
      · cases hfind : find child (used + length) with
        | none =>
          rw [hfind] at h
          cases h
        | some r' =>
          rw [hfind] at h
          rw [hnode child (used + length) r' hfind]
          cases r' with
          | none => exact ih h
          | some failure => exact h
      · rw [hoverflow]
        exact h

lemma places_stop (a : α) (used : Nat) :
    (N.places capacity).stop (.node a used) = (N.malformed a).map .error := rfl

lemma places_children (a : α) (used : Nat) :
    (N.places capacity).children (.node a used) = (N.edges a).map (place capacity used) := rfl

lemma search_of_places {fuel : Nat} {a : α} {used : Nat} {r : Option (Failure β)}
    (h : (N.places capacity).search fuel (.node a used) = some r) :
    N.search capacity fuel a used = some r := by
  induction fuel generalizing a used r with
  | zero => cases h
  | succ fuel ih =>
    rw [search]
    cases hmalformed : N.malformed a with
    | some error =>
      rw [SearchGraph.search_of_stop fuel (by rw [places_stop, hmalformed, Option.map_some])] at h
      exact h
    | none =>
      rw [SearchGraph.search_of_not_stop fuel (by rw [places_stop, hmalformed, Option.map_none]),
        places_children] at h
      apply searchEdges_of_firstStop (fun child used r => ih) _ _ h
      · intro error r hfind
        cases fuel with
        | zero => cases hfind
        | succ fuel => exact (Option.some.inj hfind).symm
      · intro r hfind
        cases fuel with
        | zero => cases hfind
        | succ fuel => exact (Option.some.inj hfind).symm

lemma places_of_search {fuel : Nat} {a : α} {used : Nat} {r : Option (Failure β)}
    (h : N.search capacity fuel a used = some r) :
    (N.places capacity).search (fuel + 1) (.node a used) = some r := by
  induction fuel generalizing a used r with
  | zero => cases h
  | succ fuel ih =>
    rw [search] at h
    cases hmalformed : N.malformed a with
    | some error =>
      rw [hmalformed] at h
      rw [SearchGraph.search_of_stop (fuel + 1) (by rw [places_stop, hmalformed, Option.map_some])]
      exact h
    | none =>
      rw [hmalformed] at h
      rw [SearchGraph.search_of_not_stop (fuel + 1) (by rw [places_stop, hmalformed, Option.map_none]),
        places_children]
      exact firstStop_of_searchEdges (fun child used r => ih) (fun error => rfl) rfl h

/-! ### When it ends within its buffer -/

/-- A place that can be reached: the names on the way fit. -/
def Place.Within (capacity : Nat) : Place α β → Prop
  | .node _ used => used ≤ capacity
  | .failed _ => True
  | .overflow => True

lemma finite_within [Finite α] [Finite β] (capacity : Nat) :
    {x : Place α β | Place.Within capacity x}.Finite := by
  have hnodes : (Set.range fun x : α × Fin (capacity + 1) => (.node x.1 x.2 : Place α β)).Finite :=
    Set.finite_range _
  have hfailed : (Set.range fun error : β => (.failed error : Place α β)).Finite := Set.finite_range _
  apply ((hnodes.union hfailed).insert .overflow).subset
  intro x hx
  cases x with
  | node a used => exact Or.inr (Or.inl ⟨(a, ⟨used, Nat.lt_succ_of_le hx⟩), rfl⟩)
  | failed error => exact Or.inr (Or.inr ⟨error, rfl⟩)
  | overflow => exact Or.inl rfl

variable (N capacity) in
lemma finite_places [Finite α] [Finite β] (a : α) :
    {x | ∃ p, (N.places capacity).At (.node a 0) p x}.Finite := by
  apply SearchGraph.finite_of_closed (finite_within capacity) (Nat.zero_le capacity)
  intro x _ y hy
  cases x with
  | node a used =>
    obtain ⟨e, -, rfl⟩ := List.mem_map.mp hy
    cases e with
    | edge length child =>
      rw [place]
      split_ifs with hfit
      · exact hfit.le
      · trivial
    | malformed written error =>
      rw [place]
      split_ifs
      · trivial
      · trivial
  | failed error => cases hy
  | overflow => cases hy

theorem fits_iff [Finite α] [Finite β] {a : α} :
    N.Fits capacity a ↔ ∃ fuel r, N.search capacity fuel a 0 = some r ∧ r ≠ some .overflow := by
  have hends := SearchGraph.search_ends_iff (finite_places N capacity a)
  constructor
  · intro h
    obtain ⟨fuel, hne⟩ := hends.mpr h.ends
    obtain ⟨r, hr⟩ := Option.ne_none_iff_exists'.mp hne
    refine ⟨fuel, r, search_of_places hr, ?_⟩
    rintro rfl
    obtain ⟨p, hp, hfirst⟩ := SearchGraph.isFirst_of_search hr
    obtain ⟨p', error, hp', hlt⟩ := h.before p hp
    exact (hfirst p' _ hp').not_gt hlt
  · rintro ⟨fuel, r, hr, hne⟩
    have hplaces := places_of_search hr
    refine ⟨hends.mp ⟨fuel + 1, by rw [hplaces]; exact Option.some_ne_none r⟩, fun p hp => ?_⟩
    cases r with
    | none => exact absurd hp (SearchGraph.no_hit_of_search hplaces p _)
    | some failure =>
      cases failure with
      | overflow => exact absurd rfl hne
      | error error =>
        obtain ⟨p', hp', hfirst⟩ := SearchGraph.isFirst_of_search hplaces
        refine ⟨p', error, hp', lt_of_le_of_ne (hfirst p _ hp) ?_⟩
        rintro rfl
        obtain ⟨n, hn, herror⟩ := hp'
        obtain ⟨n', hn', hoverflow⟩ := hp
        cases hn.unique hn'
        rw [herror] at hoverflow
        cases hoverflow

/-! ### Searches that find no failure -/

lemma searchEdges_eq_some_none {find : α → Nat → Option (Option (Failure β))} {used : Nat}
    {edges : List (NamedEdge α β)} (h : searchEdges capacity find used edges = some none) :
    ∀ e ∈ edges, ∃ length child, e = .edge length child ∧ find child (used + length) = some none := by
  induction edges with
  | nil => exact fun e he => absurd he List.not_mem_nil
  | cons e edges ih =>
    cases e with
    | malformed written error =>
      rw [searchEdges] at h
      split_ifs at h <;> cases h
    | edge length child =>
      rw [searchEdges] at h
      split_ifs at h with hfit
      · cases hfind : find child (used + length) with
        | none =>
          rw [hfind] at h
          cases h
        | some r =>
          rw [hfind] at h
          cases r with
          | some failure => cases h
          | none =>
            intro e he
            obtain rfl | he := List.mem_cons.mp he
            · exact ⟨length, child, rfl, hfind⟩
            · exact ih h e he
      · cases h

lemma edges_of_search {fuel : Nat} {a : α} {used : Nat}
    (h : N.search capacity (fuel + 1) a used = some none) :
    N.malformed a = none ∧ ∀ e ∈ N.edges a, ∃ length child, e = .edge length child ∧
      N.search capacity fuel child (used + length) = some none := by
  rw [search] at h
  cases hmalformed : N.malformed a with
  | some error =>
    rw [hmalformed] at h
    cases h
  | none =>
    rw [hmalformed] at h
    exact ⟨rfl, searchEdges_eq_some_none h⟩

end NamedGraph

/-- What holds of a node to a depth, and goes down with every step, allows no path that comes to a node
and back to it. -/
lemma not_cyclic_of_descends {γ : Type*} {R : γ → γ → Prop} (Clean : Nat → γ → Prop)
    (hzero : ∀ x, ¬Clean 0 x) (hstep : ∀ k x y, Clean (k + 1) x → R x y → Clean k y) {k : Nat} {x : γ}
    (h : Clean k x) : ¬∃ n, Relation.ReflTransGen R x n ∧ Relation.TransGen R n n := by
  have hcycle : ∀ k n, Clean k n → ¬Relation.TransGen R n n := by
    intro k
    induction k with
    | zero => exact fun n hn => absurd hn (hzero n)
    | succ k ih =>
      intro n hn hloop
      obtain ⟨m, hedge, hback⟩ := Relation.TransGen.head'_iff.mp hloop
      exact ih m (hstep k n m hn hedge) (.tail' hback hedge)
  rintro ⟨n, hreach, hloop⟩
  have hcome : ∃ k, Clean k n := by
    clear hloop
    induction hreach with
    | refl => exact ⟨k, h⟩
    | tail _ hedge ih =>
      obtain ⟨k, hk⟩ := ih
      cases k with
      | zero => exact absurd hk (hzero _)
      | succ k => exact ⟨k, hstep k _ _ hk hedge⟩
  obtain ⟨k, hk⟩ := hcome
  exact hcycle k n hk hloop

end Dyld.Lib
