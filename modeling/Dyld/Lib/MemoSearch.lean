import Mathlib

/-!
# Depth-first search with memoised results

A depth-first search that collects for each node what is reachable from it. A node whose result is
there is not searched again, and a node that the search is still at is passed by, so that a result
can be memoised before all of a cycle is searched. The results are exact, from whichever node a
search starts, exactly when on every cycle the walk of the search ends at a node that has the rest
of it among its children.
-/

namespace Dyld.Lib.MemoSearch

variable {α : Type*}

/-- The results so far, and the nodes that the search was at. -/
structure State (α : Type*) where
  memo : α → Option (Finset α)
  visited : Finset α

namespace State

/-- There is a result for the node, or the search was at it. -/
def Known (s : State α) (a : α) : Prop := (s.memo a).isSome ∨ a ∈ s.visited

instance [DecidableEq α] (s : State α) (a : α) : Decidable (s.Known a) := inferInstanceAs (Decidable (_ ∨ _))

/-- The search is still at the node. -/
def Open (s : State α) (a : α) : Prop := s.memo a = none ∧ a ∈ s.visited

def enter [DecidableEq α] (s : State α) (v : α) : State α := { s with visited := insert v s.visited }

def finish [DecidableEq α] (s : State α) (v : α) (found : Finset α) : State α :=
  { s with memo := Function.update s.memo v (some found) }

end State

/-- The nodes of a list and their results, where each is searched first. -/
def collect [DecidableEq α] (find : α → State α → Option (State α)) :
    List α → State α → Finset α → Option (State α × Finset α)
  | [], s, found => some (s, found)
  | w :: ws, s, found => do
    let s ← find w s
    collect find ws s (insert w (found ∪ (s.memo w).getD ∅))

variable (children : α → Option (List α))

/-- The search to a depth, where the children of a node can be missing. -/
def search [DecidableEq α] : Nat → α → State α → Option (State α)
  | 0, _, _ => none
  | fuel + 1, v, s =>
    if s.Known v then some s
    else do
      let next ← children v
      let (s, found) ← collect (search fuel) next (s.enter v) ∅
      some (s.finish v found)

/-! ### Reachability -/

def Edge (a b : α) : Prop := b ∈ (children a).getD []

/-- A path of at least one edge. -/
def Reaches : α → α → Prop := Relation.TransGen (Edge children)

open Classical in
/-- The first child on a cycle with the node that is not in `P`. -/
noncomputable def firstBack (P : Set α) (v : α) : Option α :=
  ((children v).getD []).find? (fun w => Reaches children w v ∧ w ∉ P)

/-- The walk goes on to the first child on a cycle with the node that it was not at. Where there is
none, all that the node reaches is a child of it or is reached from a child off its cycles. -/
inductive Covers : Set α → α → Prop
  | stuck {P : Set α} {v : α} : firstBack children P v = none →
      (∀ b, Reaches children v b → Edge children v b ∨
        ∃ c, Edge children v c ∧ ¬Reaches children c v ∧ Reaches children c b) → Covers P v
  | step {P : Set α} {v w : α} : firstBack children P v = some w → Covers (insert w P) w →
      Covers P v

variable {children}

lemma Edge.reaches {a b : α} (h : Edge children a b) : Reaches children a b :=
  Relation.TransGen.single h

lemma Reaches.trans {a b c : α} (hab : Reaches children a b) (hbc : Reaches children b c) :
    Reaches children a c :=
  Relation.TransGen.trans hab hbc

lemma firstBack_eq_none {P : Set α} {v : α} : firstBack children P v = none ↔
    ∀ w, Edge children v w → Reaches children w v → w ∈ P := by
  simp [firstBack, Edge]

lemma firstBack_eq_some {P : Set α} {v w : α} : firstBack children P v = some w ↔
    (Reaches children w v ∧ w ∉ P) ∧ ∃ pre post, (children v).getD [] = pre ++ w :: post ∧
      ∀ c ∈ pre, Reaches children c v → c ∈ P := by
  simp [firstBack, List.find?_eq_some_iff_append]

lemma edge_of_firstBack {P : Set α} {v w : α} (h : firstBack children P v = some w) :
    Edge children v w := by
  obtain ⟨-, pre, post, heq, -⟩ := firstBack_eq_some.mp h
  simp [Edge, heq]

lemma firstBack_congr {P Q : Set α} {v : α}
    (hPQ : ∀ a, Reaches children v a → Reaches children a v → (a ∈ P ↔ a ∈ Q)) :
    firstBack children Q v = firstBack children P v := by
  unfold firstBack
  apply List.find?_congr
  intro w hw
  have hvw : Reaches children v w := Edge.reaches hw
  by_cases hback : Reaches children w v
  · simp [hback, hPQ w hvw hback]
  · simp [hback]

/-- The walk does not look at nodes that are on no cycle with the node. -/
lemma Covers.congr {P Q : Set α} {v : α} (h : Covers children P v)
    (hPQ : ∀ a, Reaches children v a → Reaches children a v → (a ∈ P ↔ a ∈ Q)) :
    Covers children Q v := by
  induction h generalizing Q with
  | stuck hnone hall => exact Covers.stuck ((firstBack_congr hPQ).trans hnone) hall
  | step hw _ ih =>
    apply Covers.step ((firstBack_congr hPQ).trans hw)
    apply ih
    intro a hwa haw
    have hvw := (edge_of_firstBack hw).reaches
    have hwv := (firstBack_eq_some.mp hw).1.1
    rw [Set.mem_insert_iff, Set.mem_insert_iff, hPQ a (hvw.trans hwa) (haw.trans hwv)]

/-- The walk covers a node that is on no cycle with another one. -/
theorem covers_of_acyclic {v : α}
    (h : ∀ a, Reaches children v a → Reaches children a v → a = v) : Covers children {v} v := by
  apply Covers.stuck
  · rw [firstBack_eq_none]
    intro w hw hback
    exact h w hw.reaches hback
  · intro b hb
    induction hb with
    | single hedge => exact Or.inl hedge
    | @tail b c hvb hbc ih =>
      rcases ih with hedge | ⟨d, hd, hoff, hdb⟩
      · by_cases hback : Reaches children b v
        · rw [h b hvb hback] at hbc
          exact Or.inl hbc
        · exact Or.inr ⟨b, hedge, hback, hbc.reaches⟩
      · exact Or.inr ⟨d, hd, hoff, hdb.tail hbc⟩

/-! ### What a search does to the state -/

/-- Results and nodes are only added, the search is at the nodes that it was at before, and each
node that is new has the property. -/
structure Grows (new : α → Prop) (s s' : State α) : Prop where
  memo : ∀ a t, s.memo a = some t → s'.memo a = some t
  known : ∀ a, s.Known a → s'.Known a
  open_iff : ∀ a, s'.Open a ↔ s.Open a
  new : ∀ a, s'.Known a → s.Known a ∨ new a

lemma Grows.refl {new : α → Prop} (s : State α) : Grows new s s :=
  ⟨fun _ _ h => h, fun _ h => h, fun _ => Iff.rfl, fun _ h => Or.inl h⟩

lemma Grows.trans {new new' : α → Prop} {s s' s'' : State α} (h : Grows new s s')
    (h' : Grows new' s' s'') : Grows (fun a => new a ∨ new' a ∧ ¬s.Known a) s s'' where
  memo a t ha := h'.memo a t (h.memo a t ha)
  known a ha := h'.known a (h.known a ha)
  open_iff a := (h'.open_iff a).trans (h.open_iff a)
  new a ha := by
    by_cases hs : s.Known a
    · exact Or.inl hs
    · rcases h'.new a ha with hs' | hnew
      · exact Or.inr (Or.inl ((h.new a hs').resolve_left hs))
      · exact Or.inr (Or.inr ⟨hnew, hs⟩)

lemma Grows.mono {new new' : α → Prop} {s s' : State α} (h : Grows new s s')
    (hnew : ∀ a, new a → new' a) : Grows new' s s' :=
  ⟨h.memo, h.known, h.open_iff, fun a ha => (h.new a ha).imp_right (hnew a)⟩

lemma Grows.memo_eq {new : α → Prop} {s s' : State α} (h : Grows new s s') {a : α}
    (ha : s.Known a) : s'.memo a = s.memo a := by
  cases hmemo : s.memo a with
  | some t => exact h.memo a t hmemo
  | none =>
    have hvisited : a ∈ s.visited := ha.resolve_left (by simp [hmemo])
    exact ((h.open_iff a).mpr ⟨hmemo, hvisited⟩).1

def NewBelow (children : α → Option (List α)) (s : State α) (ws : List α) (a : α) : Prop :=
  ∃ w ∈ ws, ¬s.Known w ∧ Relation.ReflTransGen (Edge children) w a

variable [DecidableEq α]

/-- One call of the search. -/
structure Finds (children : α → Option (List α)) (v : α) (s s' : State α) : Prop where
  grows : Grows (NewBelow children s [v]) s s'
  known : s'.Known v

lemma collect_spec {find : α → State α → Option (State α)}
    (hfind : ∀ w s s', find w s = some s' → Finds children w s s') {ws : List α} {s s' : State α}
    {found found' : Finset α} (h : collect find ws s found = some (s', found')) :
    Grows (NewBelow children s ws) s s' ∧ (∀ w ∈ ws, s'.Known w) ∧
      ∀ b, b ∈ found' ↔ b ∈ found ∨ ∃ w ∈ ws, b = w ∨ ∃ t, s'.memo w = some t ∧ b ∈ t := by
  induction ws generalizing s found with
  | nil =>
    cases h
    exact ⟨Grows.refl _, by simp, by simp⟩
  | cons w ws ih =>
    rw [collect, Option.bind_eq_bind, Option.bind_eq_some_iff] at h
    obtain ⟨s₁, hs₁, h⟩ := h
    have hw := hfind w s s₁ hs₁
    obtain ⟨hgrows, hknown, hfound⟩ := ih h
    refine ⟨(hw.grows.trans hgrows).mono ?_, ?_, ?_⟩
    · rintro a (⟨c, hc, hnew⟩ | ⟨⟨c, hc, hunknown, hca⟩, -⟩)
      · exact ⟨c, List.mem_cons.mpr (Or.inl (List.mem_singleton.mp hc)), hnew⟩
      · exact ⟨c, List.mem_cons_of_mem w hc, fun hk => hunknown (hw.grows.known c hk), hca⟩
    · intro c hc
      rcases List.mem_cons.mp hc with rfl | hc
      · exact hgrows.known c hw.known
      · exact hknown c hc
    · intro b
      rw [hfound, ← hgrows.memo_eq hw.known]
      cases hmemo : s'.memo w <;> simp [hmemo, or_assoc, or_left_comm]

lemma search_cases {fuel : Nat} {v : α} {s s' : State α}
    (h : search children (fuel + 1) v s = some s') (hv : ¬s.Known v) :
    ∃ next s₁ found, children v = some next ∧
      collect (search children fuel) next (s.enter v) ∅ = some (s₁, found) ∧
      s' = s₁.finish v found := by
  rw [search, if_neg hv, Option.bind_eq_bind, Option.bind_eq_some_iff] at h
  obtain ⟨next, hnext, h⟩ := h
  rw [Option.bind_eq_bind, Option.bind_eq_some_iff] at h
  obtain ⟨⟨s₁, found⟩, hcollect, h⟩ := h
  exact ⟨next, s₁, found, hnext, hcollect, (Option.some.inj h).symm⟩

lemma search_known {fuel : Nat} {v : α} {s s' : State α}
    (h : search children fuel v s = some s') (hv : s.Known v) : s' = s := by
  cases fuel with
  | zero => cases h
  | succ fuel =>
    rw [search, if_pos hv] at h
    exact (Option.some.inj h).symm

omit [DecidableEq α] in
lemma State.not_known {s : State α} {v : α} (hv : ¬s.Known v) : s.memo v = none ∧ v ∉ s.visited := by
  simpa [State.Known] using hv

lemma State.known_enter {s : State α} {v a : α} : (s.enter v).Known a ↔ a = v ∨ s.Known a := by
  simp [State.Known, State.enter, or_left_comm]

lemma State.open_enter {s : State α} {v a : α} (hv : ¬s.Known v) :
    (s.enter v).Open a ↔ a = v ∨ s.Open a := by
  have hmemo := (State.not_known hv).1
  by_cases hav : a = v
  · simp [State.Open, State.enter, hav, hmemo]
  · simp [State.Open, State.enter, hav]

lemma State.known_finish {s : State α} {v a : α} {found : Finset α} :
    (s.finish v found).Known a ↔ a = v ∨ s.Known a := by
  by_cases hav : a = v
  · simp [State.Known, State.finish, hav]
  · simp [State.Known, State.finish, hav]

lemma State.open_finish {s : State α} {v a : α} {found : Finset α} :
    (s.finish v found).Open a ↔ a ≠ v ∧ s.Open a := by
  by_cases hav : a = v
  · simp [State.Open, State.finish, hav]
  · simp [State.Open, State.finish, hav]

lemma State.memo_finish {s : State α} {v : α} {found : Finset α} (a : α) :
    (s.finish v found).memo a = if a = v then some found else s.memo a :=
  Function.update_apply s.memo v (some found) a

lemma finds_of_collect {fuel : Nat} {v : α} {s s₁ : State α} {next : List α} {found : Finset α}
    (hfind : ∀ w s s', search children fuel w s = some s' → Finds children w s s')
    (hnext : children v = some next) (hv : ¬s.Known v)
    (h : collect (search children fuel) next (s.enter v) ∅ = some (s₁, found)) :
    Finds children v s (s₁.finish v found) := by
  obtain ⟨hgrows, -, -⟩ := collect_spec hfind h
  refine ⟨⟨?_, ?_, ?_, ?_⟩, State.known_finish.mpr (Or.inl rfl)⟩
  · intro a t ha
    have hav : a ≠ v := by
      rintro rfl
      rw [(State.not_known hv).1] at ha
      cases ha
    rw [State.memo_finish, if_neg hav]
    exact hgrows.memo a t ha
  · intro a ha
    exact State.known_finish.mpr (Or.inr (hgrows.known a (State.known_enter.mpr (Or.inr ha))))
  · intro a
    rw [State.open_finish, hgrows.open_iff, State.open_enter hv]
    constructor
    · rintro ⟨hav, rfl | hopen⟩
      · exact absurd rfl hav
      · exact hopen
    · intro hopen
      refine ⟨?_, Or.inr hopen⟩
      rintro rfl
      exact hv (Or.inr hopen.2)
  · intro a ha
    have hself : ∀ {a}, Relation.ReflTransGen (Edge children) v a → NewBelow children s [v] a :=
      fun hva => ⟨v, List.mem_singleton_self v, hv, hva⟩
    rcases State.known_finish.mp ha with rfl | ha
    · exact Or.inr (hself Relation.ReflTransGen.refl)
    · rcases hgrows.new a ha with ha | ⟨c, hc, -, hca⟩
      · rcases State.known_enter.mp ha with rfl | ha
        · exact Or.inr (hself Relation.ReflTransGen.refl)
        · exact Or.inl ha
      · have hvc : Edge children v c := by simpa [Edge, hnext] using hc
        exact Or.inr (hself (Relation.ReflTransGen.head hvc hca))

theorem search_finds {fuel : Nat} {v : α} {s s' : State α}
    (h : search children fuel v s = some s') : Finds children v s s' := by
  induction fuel generalizing v s s' with
  | zero => cases h
  | succ fuel ih =>
    by_cases hv : s.Known v
    · rw [search_known h hv]
      exact ⟨Grows.refl s, hv⟩
    · obtain ⟨next, s₁, found, hnext, hcollect, rfl⟩ := search_cases h hv
      exact finds_of_collect (fun w s s' => ih) hnext hv hcollect

/-! ### When the results are exact -/

def Sound (children : α → Option (List α)) (s : State α) : Prop :=
  ∀ a t, s.memo a = some t → ∀ b ∈ t, Reaches children a b ∧ s.Known b

def Exact (children : α → Option (List α)) (memo : α → Option (Finset α)) : Prop :=
  ∀ a t, memo a = some t → ∀ b, b ∈ t ↔ Reaches children a b

lemma collect_preserves {find : α → State α → Option (State α)} {p : State α → Prop}
    (hfind : ∀ w s s', find w s = some s' → p s → p s') {ws : List α} {s s' : State α}
    {found found' : Finset α} (h : collect find ws s found = some (s', found')) (hs : p s) :
    p s' := by
  induction ws generalizing s found with
  | nil =>
    cases h
    exact hs
  | cons w ws ih =>
    rw [collect, Option.bind_eq_bind, Option.bind_eq_some_iff] at h
    obtain ⟨s₁, hs₁, h⟩ := h
    exact ih h (hfind w s s₁ hs₁ hs)

theorem search_sound {fuel : Nat} {v : α} {s s' : State α}
    (h : search children fuel v s = some s') (hs : Sound children s) : Sound children s' := by
  induction fuel generalizing v s s' with
  | zero => cases h
  | succ fuel ih =>
    by_cases hv : s.Known v
    · rwa [search_known h hv]
    · obtain ⟨next, s₁, found, hnext, hcollect, rfl⟩ := search_cases h hv
      have henter : Sound children (s.enter v) := by
        intro a t ha b hb
        obtain ⟨hab, hknown⟩ := hs a t ha b hb
        exact ⟨hab, State.known_enter.mpr (Or.inr hknown)⟩
      have hs₁ := collect_preserves (p := Sound children) (fun w s s' => ih) hcollect henter
      obtain ⟨-, hknown, hfound⟩ := collect_spec (fun w s s' => search_finds) hcollect
      intro a t ha b hb
      rw [State.memo_finish] at ha
      split_ifs at ha with hav
      · obtain rfl := Option.some.inj ha
        obtain ⟨w, hw, hbw⟩ := ((hfound b).mp hb).resolve_left (Finset.notMem_empty b)
        have hvw : Edge children v w := by simpa [Edge, hnext] using hw
        rw [hav]
        rcases hbw with rfl | ⟨t, ht, hbt⟩
        · exact ⟨hvw.reaches, State.known_finish.mpr (Or.inr (hknown b hw))⟩
        · obtain ⟨hwb, hb⟩ := hs₁ w t ht b hbt
          exact ⟨hvw.reaches.trans hwb, State.known_finish.mpr (Or.inr hb)⟩
      · obtain ⟨hab, hb⟩ := hs₁ a t ha b hb
        exact ⟨hab, State.known_finish.mpr (Or.inr hb)⟩

omit [DecidableEq α] in
/-- Where a node is not known, no node of a cycle with it has its result. -/
lemma memo_eq_none_of_cycle {s : State α} (hsound : Sound children s)
    (hexact : Exact children s.memo) {a v : α} (hv : ¬s.Known v) (hav : Reaches children a v) :
    s.memo a = none := by
  cases hmemo : s.memo a with
  | none => rfl
  | some t => exact absurd (hsound a t hmemo v ((hexact a t hmemo v).mpr hav)).2 hv

/-- The nodes that the search is at reach the next node, and the walk from there covers it. -/
structure Ready (children : α → Option (List α)) (s : State α) (v : α) : Prop where
  sound : Sound children s
  exact : Exact children s.memo
  back : ∀ a, s.Open a → Reaches children a v
  covers : ¬s.Known v → Covers children (insert v {a | s.Open a}) v

lemma collect_exact {fuel : Nat} (hall : ∀ n, Covers children {n} n)
    (hcall : ∀ w s s', search children fuel w s = some s' → Ready children s w →
      Exact children s'.memo)
    {v : α} {P : Set α} (hP : ∀ a ∈ P, a = v ∨ Reaches children a v)
    (hcovers : Covers children P v) (pre : List α) {ws : List α} (hnext : children v = some (pre ++ ws))
    {s s' : State α} {found found' : Finset α}
    (h : collect (search children fuel) ws s found = some (s', found'))
    (hpre : ∀ w ∈ pre, s.Known w) (hopen : ∀ a, s.Open a ↔ a ∈ P) (hsound : Sound children s)
    (hexact : Exact children s.memo) : Exact children s'.memo := by
  induction ws generalizing pre s found with
  | nil =>
    cases h
    exact hexact
  | cons w ws ih =>
    rw [collect, Option.bind_eq_bind, Option.bind_eq_some_iff] at h
    obtain ⟨s₁, hs₁, h⟩ := h
    have hfinds := search_finds hs₁
    have hvw : Edge children v w := by simp [Edge, hnext]
    have hback : ∀ a, s.Open a → Reaches children a w := by
      intro a ha
      rcases hP a ((hopen a).mp ha) with rfl | hav
      · exact hvw.reaches
      · exact hav.tail hvw
    have hcovers' : ¬s.Known w → Covers children (insert w {a | s.Open a}) w := by
      intro hw
      have hset : {a | s.Open a} = P := Set.ext hopen
      rw [hset]
      by_cases hwv : Reaches children w v
      · -- no node of the cycle has its result, so that the children before are still open
        have hfirst : firstBack children P v = some w := by
          refine firstBack_eq_some.mpr ⟨⟨hwv, ?_⟩, pre, ws, by simp [hnext], ?_⟩
          · intro hwP
            exact hw (Or.inr ((hopen w).mpr hwP).2)
          · intro c hc hcv
            have hmemo := memo_eq_none_of_cycle hsound hexact hw (hcv.tail hvw)
            have hvisited : c ∈ s.visited := (hpre c hc).resolve_left (by simp [hmemo])
            exact (hopen c).mp ⟨hmemo, hvisited⟩
        cases hcovers with
        | stuck hnone _ =>
          rw [hfirst] at hnone
          cases hnone
        | step hw' hrest =>
          rw [hfirst] at hw'
          cases hw'
          exact hrest
      · -- off the cycle the search is at no node of the cycles of the child
        apply (hall w).congr
        intro a hwa haw
        have haP : a ∉ P := by
          intro ha
          rcases hP a ha with rfl | hav
          · exact hwv hwa
          · exact hwv (hwa.trans hav)
        simp [haP]
    have hexact₁ := hcall w s s₁ hs₁ ⟨hsound, hexact, hback, hcovers'⟩
    refine ih (pre ++ [w]) (by simpa using hnext) h ?_ ?_ (search_sound hs₁ hsound) hexact₁
    · intro c hc
      rcases List.mem_append.mp hc with hc | hc
      · exact hfinds.grows.known c (hpre c hc)
      · rw [List.mem_singleton.mp hc]
        exact hfinds.known
    · intro a
      exact (hfinds.grows.open_iff a).trans (hopen a)

omit [DecidableEq α] in
lemma found_exact {v : α} {P : Set α} (hP : ∀ a ∈ P, a = v ∨ Reaches children a v)
    (hcovers : Covers children P v) {s : State α} {found : Finset α} (hsound : Sound children s)
    (hexact : Exact children s.memo) (hopen : ∀ a, s.Open a ↔ a ∈ P)
    (hknown : ∀ w, Edge children v w → s.Known w)
    (hfound : ∀ b, b ∈ found ↔
      ∃ w, Edge children v w ∧ (b = w ∨ ∃ t, s.memo w = some t ∧ b ∈ t)) (b : α) :
    b ∈ found ↔ Reaches children v b := by
  have hmemo : ∀ w, Edge children v w → w ∉ P → ∃ t, s.memo w = some t := by
    intro w hw hwP
    rcases hknown w hw with hsome | hvisited
    · exact Option.isSome_iff_exists.mp hsome
    · rw [← hopen, State.Open] at hwP
      exact Option.ne_none_iff_exists'.mp (fun hnone => hwP ⟨hnone, hvisited⟩)
  rw [hfound]
  constructor
  · rintro ⟨w, hw, rfl | ⟨t, ht, hbt⟩⟩
    · exact hw.reaches
    · exact hw.reaches.trans (hsound w t ht b hbt).1
  · intro hvb
    cases hcovers with
    | stuck hnone hall =>
      rcases hall b hvb with hedge | ⟨c, hc, hoff, hcb⟩
      · exact ⟨b, hedge, Or.inl rfl⟩
      · have hcP : c ∉ P := by
          intro hcP
          rcases hP c hcP with rfl | hcv
          · exact hoff hc.reaches
          · exact hoff hcv
        obtain ⟨t, ht⟩ := hmemo c hc hcP
        exact ⟨c, hc, Or.inr ⟨t, ht, (hexact c t ht b).mpr hcb⟩⟩
    | @step _ _ w hw _ =>
      have hvw := edge_of_firstBack hw
      obtain ⟨⟨hwv, hwP⟩, -⟩ := firstBack_eq_some.mp hw
      obtain ⟨t, ht⟩ := hmemo w hvw hwP
      exact ⟨w, hvw, Or.inr ⟨t, ht, (hexact w t ht b).mpr (hwv.trans hvb)⟩⟩

lemma Exact.finish {s : State α} {v : α} {found : Finset α} (h : Exact children s.memo)
    (hfound : ∀ b, b ∈ found ↔ Reaches children v b) :
    Exact children (s.finish v found).memo := by
  intro a t ha
  rw [State.memo_finish] at ha
  split_ifs at ha with hav
  · obtain rfl := Option.some.inj ha
    rw [hav]
    exact hfound
  · exact h a t ha

/-- The results stay exact where the walks cover all nodes. -/
theorem exact_of_covers (hall : ∀ n, Covers children {n} n) {fuel : Nat} {v : α} {s s' : State α}
    (h : search children fuel v s = some s') (hs : Ready children s v) :
    Exact children s'.memo := by
  induction fuel generalizing v s s' with
  | zero => cases h
  | succ fuel ih =>
    by_cases hv : s.Known v
    · rw [search_known h hv]
      exact hs.exact
    · obtain ⟨next, s₁, found, hnext, hcollect, rfl⟩ := search_cases h hv
      have hP : ∀ a ∈ insert v {a | s.Open a}, a = v ∨ Reaches children a v := by
        rintro a (rfl | ha)
        · exact Or.inl rfl
        · exact Or.inr (hs.back a ha)
      have hopen : ∀ a, (s.enter v).Open a ↔ a ∈ insert v {a | s.Open a} :=
        fun a => State.open_enter hv
      have hsound : Sound children (s.enter v) := by
        intro a t ha b hb
        obtain ⟨hab, hknown⟩ := hs.sound a t ha b hb
        exact ⟨hab, State.known_enter.mpr (Or.inr hknown)⟩
      have hexact := collect_exact hall (fun w s s' => ih) hP (hs.covers hv) []
        hnext hcollect (by simp) hopen hsound hs.exact
      have hsound₁ := collect_preserves (p := Sound children) (fun w s s' => search_sound) hcollect
        hsound
      obtain ⟨hgrows, hknown, hfound⟩ := collect_spec (fun w s s' => search_finds) hcollect
      apply hexact.finish
      apply found_exact hP (hs.covers hv) hsound₁ hexact
      · intro a
        rw [hgrows.open_iff, hopen]
      · intro w hw
        exact hknown w (by simpa [Edge, hnext] using hw)
      · intro b
        simpa [Edge, hnext] using hfound b

lemma collect_append {find : α → State α → Option (State α)} {pre ws : List α} {s s' : State α}
    {found found' : Finset α} (h : collect find (pre ++ ws) s found = some (s', found')) :
    ∃ s₁ found₁, collect find pre s found = some (s₁, found₁) ∧
      collect find ws s₁ found₁ = some (s', found') := by
  induction pre generalizing s found with
  | nil => exact ⟨s, found, rfl, h⟩
  | cons w pre ih =>
    rw [List.cons_append, collect, Option.bind_eq_bind, Option.bind_eq_some_iff] at h
    obtain ⟨s₁, hs₁, h⟩ := h
    obtain ⟨s₂, found₂, hpre, hws⟩ := ih h
    refine ⟨s₂, found₂, ?_, hws⟩
    rw [collect, hs₁]
    exact hpre

lemma call_of_firstBack {fuel : Nat} {v w : α} {P : Set α} {next : List α}
    (hnext : children v = some next) {s s' : State α} {found : Finset α}
    (h : collect (search children fuel) next s ∅ = some (s', found))
    (hopen : ∀ a, s.Open a ↔ a ∈ P) (hcycle : ∀ a, Reaches children v a → Reaches children a v →
      s.memo a = none) (hw : firstBack children P v = some w) :
    ∃ s₁ s₂ found₁ pre, collect (search children fuel) pre s ∅ = some (s₁, found₁) ∧
      search children fuel w s₁ = some s₂ ∧ ¬s₁.Known w ∧
      ∀ a t, s₂.memo a = some t → s'.memo a = some t := by
  obtain ⟨⟨hwv, hwP⟩, pre, post, hsplit, hpre⟩ := firstBack_eq_some.mp hw
  rw [hnext, Option.getD_some] at hsplit
  rw [hsplit] at h
  obtain ⟨s₁, found₁, hbefore, h⟩ := collect_append h
  rw [collect, Option.bind_eq_bind, Option.bind_eq_some_iff] at h
  obtain ⟨s₂, hs₂, h⟩ := h
  have hunknown : ∀ a, Reaches children v a → Reaches children a v → a ∉ P → ¬s.Known a := by
    intro a hva hav haP hknown
    have hmemo := hcycle a hva hav
    exact haP ((hopen a).mp ⟨hmemo, hknown.resolve_left (by simp [hmemo])⟩)
  obtain ⟨hgrows, -, -⟩ := collect_spec (fun w s s' => search_finds) hbefore
  obtain ⟨hafter, -, -⟩ := collect_spec (fun w s s' => search_finds) h
  refine ⟨s₁, s₂, found₁, pre, hbefore, hs₂, ?_, hafter.memo⟩
  intro hknown
  rcases hgrows.new w hknown with hknown | ⟨c, hc, hcs, hcw⟩
  · exact hunknown w (edge_of_firstBack hw).reaches hwv hwP hknown
  · have hcv : Reaches children c v := Relation.TransGen.trans_right hcw hwv
    have hvc : Edge children v c := by simp [Edge, hnext, hsplit, hc]
    have hcP := hpre c hc hcv
    exact hcs (Or.inr ((hopen c).mpr hcP).2)

theorem covers_of_exact {fuel : Nat} {v : α} {s s' : State α}
    (h : search children fuel v s = some s') (hv : ¬s.Known v) (hs : Sound children s)
    (hexact : Exact children s'.memo) : Covers children (insert v {a | s.Open a}) v := by
  induction fuel generalizing v s s' with
  | zero => cases h
  | succ fuel ih =>
    have hgrows := (search_finds h).grows
    obtain ⟨next, s₁, found, hnext, hcollect, rfl⟩ := search_cases h hv
    have hopen : ∀ a, (s.enter v).Open a ↔ a ∈ insert v {a | s.Open a} :=
      fun a => State.open_enter hv
    have hsound : Sound children (s.enter v) := by
      intro a t ha b hb
      obtain ⟨hab, hknown⟩ := hs a t ha b hb
      exact ⟨hab, State.known_enter.mpr (Or.inr hknown)⟩
    have hbefore : Exact children s.memo := fun a t ha => hexact a t (hgrows.memo a t ha)
    obtain ⟨hgrows₁, -, hfound⟩ := collect_spec (fun w s s' => search_finds) hcollect
    have hv₁ : s₁.memo v = none :=
      ((hgrows₁.open_iff v).mpr ((hopen v).mpr (Set.mem_insert v _))).1
    cases hfirst : firstBack children (insert v {a | s.Open a}) v with
    | none =>
      apply Covers.stuck hfirst
      intro b hvb
      have hb := (hexact v found (by simp [State.memo_finish]) b).mpr hvb
      obtain ⟨c, hc, hbc⟩ := ((hfound b).mp hb).resolve_left (Finset.notMem_empty b)
      have hvc : Edge children v c := by simpa [Edge, hnext] using hc
      rcases hbc with rfl | ⟨t, ht, hbt⟩
      · exact Or.inl hvc
      · refine Or.inr ⟨c, hvc, ?_, ?_⟩
        · intro hcv
          have hopen₁ := (hgrows₁.open_iff c).mpr
            ((hopen c).mpr (firstBack_eq_none.mp hfirst c hvc hcv))
          rw [hopen₁.1] at ht
          cases ht
        · exact (collect_preserves (p := Sound children) (fun w s s' => search_sound) hcollect
            hsound c t ht b hbt).1
    | some w =>
      apply Covers.step hfirst
      obtain ⟨s₂, s₃, found₂, pre, hpre, hs₃, hw, hmemo⟩ := call_of_firstBack hnext hcollect hopen
        (fun a _ hav => memo_eq_none_of_cycle hs hbefore hv hav) hfirst
      obtain ⟨hgrows₂, -, -⟩ := collect_spec (fun w s s' => search_finds) hpre
      have hset : {a | s₂.Open a} = insert v {a | s.Open a} := by
        ext a
        exact (hgrows₂.open_iff a).trans (hopen a)
      rw [← hset]
      refine ih hs₃ hw ?_ ?_
      · exact collect_preserves (p := Sound children) (fun w s s' => search_sound) hpre hsound
      · intro a t ha
        have ha₁ := hmemo a t ha
        apply hexact a t
        have hav : a ≠ v := by
          rintro rfl
          rw [hv₁] at ha₁
          cases ha₁
        rw [State.memo_finish, if_neg hav]
        exact ha₁

/-! ### Termination -/

def unknown (N : Finset α) (s : State α) : Finset α := N.filter (fun a => ¬s.Known a)

lemma collect_isSome {find : α → State α → Option (State α)} {N : Finset α} {k : Nat}
    (hfind : ∀ w s s', find w s = some s' → Finds children w s s')
    (hcall : ∀ w s, w ∈ N → (unknown N s).card < k → (find w s).isSome) {ws : List α} {s : State α}
    {found : Finset α} (hws : ∀ w ∈ ws, w ∈ N) (hs : (unknown N s).card < k) :
    (collect find ws s found).isSome := by
  induction ws generalizing s found with
  | nil => rfl
  | cons w ws ih =>
    obtain ⟨s₁, hs₁⟩ := Option.isSome_iff_exists.mp (hcall w s (hws w List.mem_cons_self) hs)
    have hsub : unknown N s₁ ⊆ unknown N s := by
      intro a ha
      rw [unknown, Finset.mem_filter] at ha ⊢
      exact ⟨ha.1, fun hk => ha.2 ((hfind w s s₁ hs₁).grows.known a hk)⟩
    rw [collect, hs₁]
    exact ih (fun c hc => hws c (List.mem_cons_of_mem w hc))
      (lt_of_le_of_lt (Finset.card_le_card hsub) hs)

/-- The search ends in a finite set of nodes that has the children of its nodes. -/
theorem search_isSome {N : Finset α}
    (hN : ∀ a ∈ N, ∃ next, children a = some next ∧ ∀ w ∈ next, w ∈ N) {fuel : Nat} {v : α}
    {s : State α} (hv : v ∈ N) (hfuel : (unknown N s).card < fuel) :
    (search children fuel v s).isSome := by
  induction fuel generalizing v s with
  | zero => omega
  | succ fuel ih =>
    rw [search]
    split_ifs with hknown
    · rfl
    · obtain ⟨next, hnext, hsub⟩ := hN v hv
      have hcard : (unknown N (s.enter v)).card < fuel := by
        have hlt : (unknown N (s.enter v)).card < (unknown N s).card := by
          apply Finset.card_lt_card
          rw [Finset.ssubset_iff_of_subset]
          · exact ⟨v, by simp [unknown, hv, hknown], by simp [unknown, State.known_enter]⟩
          · intro a ha
            simp only [unknown, Finset.mem_filter, State.known_enter, not_or] at ha ⊢
            exact ⟨ha.1, ha.2.2⟩
        omega
      have hcollect : (collect (search children fuel) next (s.enter v) ∅).isSome :=
        collect_isSome (fun w s s' => search_finds) (fun w s hw hs => ih hw hs) hsub hcard
      obtain ⟨⟨s₁, found⟩, hs₁⟩ := Option.isSome_iff_exists.mp hcollect
      simp [hnext, hs₁]

/-! ### Searches from many nodes -/

/-- A search from each node of a list, where the nodes visited are forgotten after each. -/
def searchAll (children : α → Option (List α)) (fuel : Nat) :
    List α → (α → Option (Finset α)) → Option (α → Option (Finset α))
  | [], memo => some memo
  | v :: vs, memo => do
    let s ← search children fuel v ⟨memo, ∅⟩
    searchAll children fuel vs s.memo

omit [DecidableEq α] in
/-- Where the search is at no node, the nodes visited can be forgotten. -/
lemma Sound.forget {s : State α} (hs : Sound children s) (hopen : ∀ a, ¬s.Open a) :
    Sound children ⟨s.memo, ∅⟩ := by
  intro a t ha b hb
  obtain ⟨hab, hknown⟩ := hs a t ha b hb
  refine ⟨hab, Or.inl ?_⟩
  rw [← Option.ne_none_iff_isSome]
  intro hforgotten
  have hnone : s.memo b = none := hforgotten
  exact hopen b ⟨hnone, hknown.resolve_left (by simp [hnone])⟩

omit [DecidableEq α] in
lemma not_open_forgotten (memo : α → Option (Finset α)) (a : α) : ¬(State.mk memo ∅).Open a := by
  simp [State.Open]

/-- A search with no nodes visited before. -/
lemma search_fresh {fuel : Nat} {v : α} {memo : α → Option (Finset α)} {s : State α}
    (h : search children fuel v ⟨memo, ∅⟩ = some s) (hs : Sound children ⟨memo, ∅⟩) :
    Sound children ⟨s.memo, ∅⟩ ∧ (s.memo v).isSome ∧
      (∀ a t, memo a = some t → s.memo a = some t) ∧
      ∀ a, (s.memo a).isSome → (memo a).isSome ∨ Relation.ReflTransGen (Edge children) v a := by
  obtain ⟨hgrows, hknown⟩ := search_finds h
  have hopen : ∀ a, ¬s.Open a := by
    intro a ha
    exact not_open_forgotten memo a ((hgrows.open_iff a).mp ha)
  refine ⟨(search_sound h hs).forget hopen, ?_, hgrows.memo, ?_⟩
  · rw [← Option.ne_none_iff_isSome]
    intro hnone
    exact hopen v ⟨hnone, hknown.resolve_left (by simp [hnone])⟩
  · intro a ha
    rcases hgrows.new a (Or.inl ha) with hbefore | ⟨w, hw, -, hwa⟩
    · exact Or.inl (hbefore.resolve_right (Finset.notMem_empty a))
    · rw [List.mem_singleton.mp hw] at hwa
      exact Or.inr hwa

lemma searchAll_spec {fuel : Nat} {vs : List α} {memo memo' : α → Option (Finset α)}
    (h : searchAll children fuel vs memo = some memo') (hs : Sound children ⟨memo, ∅⟩) :
    (∀ a t, memo a = some t → memo' a = some t) ∧ (∀ v ∈ vs, (memo' v).isSome) ∧
      ∀ a, (memo' a).isSome →
        (memo a).isSome ∨ ∃ v ∈ vs, Relation.ReflTransGen (Edge children) v a := by
  induction vs generalizing memo with
  | nil =>
    cases h
    exact ⟨fun _ _ ha => ha, by simp, fun _ ha => Or.inl ha⟩
  | cons v vs ih =>
    rw [searchAll, Option.bind_eq_bind, Option.bind_eq_some_iff] at h
    obtain ⟨s, hsearch, h⟩ := h
    obtain ⟨hsound, hv, hmemo, hnew⟩ := search_fresh hsearch hs
    obtain ⟨hmemo', hvs, hnew'⟩ := ih h hsound
    refine ⟨fun a t ha => hmemo' a t (hmemo a t ha), ?_, ?_⟩
    · intro w hw
      rcases List.mem_cons.mp hw with rfl | hw
      · obtain ⟨t, ht⟩ := Option.isSome_iff_exists.mp hv
        rw [hmemo' w t ht]
        rfl
      · exact hvs w hw
    · intro a ha
      rcases hnew' a ha with ha | ⟨w, hw, hwa⟩
      · rcases hnew a ha with ha | hva
        · exact Or.inl ha
        · exact Or.inr ⟨v, List.mem_cons_self, hva⟩
      · exact Or.inr ⟨w, List.mem_cons_of_mem v hw, hwa⟩

theorem searchAll_isSome {N : Finset α}
    (hN : ∀ a ∈ N, ∃ next, children a = some next ∧ ∀ w ∈ next, w ∈ N) {fuel : Nat}
    (hfuel : N.card < fuel) {vs : List α} (hvs : ∀ v ∈ vs, v ∈ N)
    (memo : α → Option (Finset α)) : (searchAll children fuel vs memo).isSome := by
  induction vs generalizing memo with
  | nil => rfl
  | cons v vs ih =>
    have hcard : (unknown N ⟨memo, ∅⟩).card < fuel :=
      lt_of_le_of_lt (Finset.card_filter_le _ _) hfuel
    obtain ⟨s, hs⟩ := Option.isSome_iff_exists.mp
      (search_isSome hN (hvs v List.mem_cons_self) hcard)
    rw [searchAll, hs]
    exact ih (fun w hw => hvs w (List.mem_cons_of_mem v hw)) s.memo

theorem searchAll_exact (hall : ∀ n, Covers children {n} n) {fuel : Nat} {vs : List α}
    {memo memo' : α → Option (Finset α)} (h : searchAll children fuel vs memo = some memo')
    (hs : Sound children ⟨memo, ∅⟩) (hexact : Exact children memo) : Exact children memo' := by
  induction vs generalizing memo with
  | nil =>
    cases h
    exact hexact
  | cons v vs ih =>
    rw [searchAll, Option.bind_eq_bind, Option.bind_eq_some_iff] at h
    obtain ⟨s, hsearch, h⟩ := h
    refine ih h (search_fresh hsearch hs).1 (exact_of_covers hall hsearch ⟨hs, hexact, ?_, ?_⟩)
    · intro a ha
      exact absurd ha (not_open_forgotten memo a)
    · intro _
      apply (hall v).congr
      intro a _ _
      simp [State.Open]

theorem covers_of_searchAll {fuel : Nat} {v : α} {vs : List α} {memo : α → Option (Finset α)}
    (h : searchAll children fuel (v :: vs) (fun _ => none) = some memo)
    (hexact : Exact children memo) : Covers children {v} v := by
  have hempty : Sound children ⟨fun _ => none, ∅⟩ := by
    intro a t ha
    cases ha
  rw [searchAll, Option.bind_eq_bind, Option.bind_eq_some_iff] at h
  obtain ⟨s, hsearch, h⟩ := h
  obtain ⟨hmemo, -, -⟩ := searchAll_spec h (search_fresh hsearch hempty).1
  have hcovers := covers_of_exact hsearch (by simp [State.Known]) hempty
    (fun a t ha => hexact a t (hmemo a t ha))
  apply hcovers.congr
  intro a _ _
  simp [State.Open]

end Dyld.Lib.MemoSearch
