import Mathlib

/-!
# Depths of images

`ImageLoader::updateDepth` gives the images depths, so that an image is less deep than those that it
depends on. Upward links wait until the recursion through the downward ones is over.
-/

namespace Dyld.ImageLoader

/-- An entry of the libraries of an image: `libImage` and `libIsUpward`. -/
structure Library (n : Nat) where
  libImage : Option (Fin n)
  libIsUpward : Bool

structure DepthState (n : Nat) where
  fDepth : Fin n → Nat
  danglingUpwards : List (Fin n)

/-- `fDepth` has 15 bits. -/
def DepthState.setDepth {n : Nat} (s : DepthState n) (i : Fin n) (depth : Nat) : DepthState n :=
  { s with fDepth := Function.update s.fDepth i (depth % 2 ^ 15) }

section Code

variable {n : Nat} (libraries : Fin n → List (Library n)) (maxDepth : Nat)

/-- The least depth of the dependents. The array has room for `maxDepth` dangling images. -/
def depthOfDependents (visit : Fin n → DepthState n → Option (DepthState n)) :
    List (Library n) → Nat → DepthState n → Option (DepthState n × Nat)
  | [], minDependentDepth, s => some (s, minDependentDepth)
  | lib :: libs, minDependentDepth, s =>
    match lib.libImage with
    | none => depthOfDependents visit libs minDependentDepth s
    | some i =>
      if lib.libIsUpward then
        if s.fDepth i = 0 ∧ i ∉ s.danglingUpwards then
          if s.danglingUpwards.length < maxDepth then
            depthOfDependents visit libs minDependentDepth
              { s with danglingUpwards := s.danglingUpwards ++ [i] }
          else none
        else depthOfDependents visit libs minDependentDepth s
      else
        match visit i s with
        | none => none
        | some s => depthOfDependents visit libs (min minDependentDepth (s.fDepth i)) s

def recursiveUpdateDepth : Nat → Fin n → DepthState n → Option (DepthState n)
  | 0, _, _ => none
  | fuel + 1, i, s =>
    if s.fDepth i = 0 then
      match depthOfDependents maxDepth (recursiveUpdateDepth fuel) (libraries i) maxDepth
          (s.setDepth i maxDepth) with
      | none => none
      | some (s, minDependentDepth) =>
        some (s.setDepth i ((minDependentDepth + (2 ^ 32 - 1)) % 2 ^ 32))
    else some s

/-- The loop over the images that dangle when it starts. -/
def updateDangling (fuel : Nat) : List (Fin n) → DepthState n → Option (DepthState n)
  | [], s => some s
  | i :: danglingUpwards, s =>
    if s.fDepth i ≠ 0 then updateDangling fuel danglingUpwards s
    else
      match recursiveUpdateDepth libraries maxDepth fuel i s with
      | none => none
      | some s => updateDangling fuel danglingUpwards s

/-- `ImageLoader::updateDepth` after `clearAllDepths`, with the number of images that are loaded. -/
def updateDepth (fuel : Nat) (root : Fin n) : Option (Fin n → Nat) :=
  match recursiveUpdateDepth libraries maxDepth fuel root ⟨fun _ => 0, []⟩ with
  | none => none
  | some s => (updateDangling libraries maxDepth fuel s.danglingUpwards s).map DepthState.fDepth

end Code

variable {n : Nat} {libraries : Fin n → List (Library n)} {maxDepth : Nat}

def Downward (libraries : Fin n → List (Library n)) (i j : Fin n) : Prop :=
  (⟨some j, false⟩ : Library n) ∈ libraries i

def Upward (libraries : Fin n → List (Library n)) (i j : Fin n) : Prop :=
  (⟨some j, true⟩ : Library n) ∈ libraries i

abbrev ReachesDown (libraries : Fin n → List (Library n)) : Fin n → Fin n → Prop :=
  Relation.ReflTransGen (Downward libraries)

/-! ### Counting depths -/

def LoadedClosed (libraries : Fin n → List (Library n)) (loaded : Finset (Fin n)) : Prop :=
  ∀ i ∈ loaded, ∀ lib ∈ libraries i, ∀ j, lib.libImage = some j → j ∈ loaded

structure Loading (n : Nat) where
  libraries : Fin n → List (Library n)
  loaded : Finset (Fin n)
  maxDepth : Nat
  closed : LoadedClosed libraries loaded
  card_le : loaded.card ≤ maxDepth
  pos : 0 < maxDepth
  bits : maxDepth < 2 ^ 15

variable {L : Loading n} {s s₁ s' : DepthState n} {a i j : Fin n} {m m₁ m' : Nat} {starts : Fin n → Prop}

/-- What the depths are between steps. An image in progress has the greatest depth. -/
structure Depths (L : Loading n) (s : DepthState n) : Prop where
  le : ∀ i, s.fDepth i ≤ L.maxDepth
  known : ∀ i, s.fDepth i ≠ 0 → i ∈ L.loaded
  full : ∀ i, 0 < s.fDepth i → s.fDepth i + 1 < L.maxDepth → ∃ j, s.fDepth j = s.fDepth i + 1
  nodup : s.danglingUpwards.Nodup
  knownDangling : ∀ i ∈ s.danglingUpwards, i ∈ L.loaded

def DepthState.inProgress (s : DepthState n) (L : Loading n) : Finset (Fin n) :=
  Finset.univ.filter fun i => s.fDepth i = L.maxDepth

def DepthState.unvisited (s : DepthState n) (L : Loading n) : Finset (Fin n) :=
  L.loaded.filter fun i => s.fDepth i = 0

lemma Depths.inProgress_subset (h : Depths L s) : s.inProgress L ⊆ L.loaded := by
  intro i hi
  rw [DepthState.inProgress, Finset.mem_filter] at hi
  have := L.pos
  exact h.known i (by omega)

lemma Depths.exists_depth (h : Depths L s) (hi : 0 < s.fDepth i) {d : Nat} (hid : s.fDepth i ≤ d)
    (hd : d < L.maxDepth) : ∃ j, s.fDepth j = d := by
  induction d, hid using Nat.le_induction with
  | base => exact ⟨i, rfl⟩
  | succ d hid ih =>
    obtain ⟨j, hj⟩ := ih (by omega)
    obtain ⟨k, hk⟩ := h.full j (by omega) (by omega)
    exact ⟨k, by omega⟩

lemma Depths.inProgress_le (h : Depths L s) (hi : 0 < s.fDepth i) :
    (s.inProgress L).card ≤ s.fDepth i := by
  rcases Nat.lt_or_ge (s.fDepth i) L.maxDepth with hlt | hge
  · have hsub : Finset.Ico (s.fDepth i) L.maxDepth ⊆
        (L.loaded \ s.inProgress L).image s.fDepth := by
      intro d hd
      rw [Finset.mem_Ico] at hd
      obtain ⟨j, hj⟩ := h.exists_depth hi hd.1 hd.2
      rw [Finset.mem_image]
      refine ⟨j, ?_, hj⟩
      rw [Finset.mem_sdiff, DepthState.inProgress, Finset.mem_filter]
      refine ⟨h.known j (by omega), ?_⟩
      rintro ⟨-, hj'⟩
      omega
    have hcard := (Finset.card_le_card hsub).trans Finset.card_image_le
    rw [Nat.card_Ico, Finset.card_sdiff_of_subset h.inProgress_subset] at hcard
    have := Finset.card_le_card h.inProgress_subset
    have := L.card_le
    omega
  · exact (Finset.card_le_card h.inProgress_subset).trans (L.card_le.trans hge)

/-! ### Setting a depth -/

lemma fDepth_setDepth {d : Nat} (hd : d < 2 ^ 15) :
    (s.setDepth a d).fDepth i = if i = a then d else s.fDepth i := by
  rw [DepthState.setDepth, Nat.mod_eq_of_lt hd]
  exact Function.update_apply s.fDepth a d i

lemma fDepth_start : (s.setDepth a L.maxDepth).fDepth i = if i = a then L.maxDepth else s.fDepth i :=
  fDepth_setDepth L.bits

@[simp] lemma danglingUpwards_setDepth (s : DepthState n) (a : Fin n) (d : Nat) :
    (s.setDepth a d).danglingUpwards = s.danglingUpwards := rfl

/-- The depth above that of the least deep dependent. -/
lemma setDepth_pred (hpos : 0 < m) (hm : m < 2 ^ 15) :
    s.setDepth a ((m + (2 ^ 32 - 1)) % 2 ^ 32) = s.setDepth a (m - 1) := by
  have heq : (m + (2 ^ 32 - 1)) % 2 ^ 32 = m - 1 := by omega
  rw [heq]

/-! ### What a visit does to the depths -/

section Visits

variable (L : Loading n)

/-- A link between two images that are done, downward to the deeper one. -/
def Tree (s : DepthState n) (i j : Fin n) : Prop :=
  Downward L.libraries i j ∧ s.fDepth i < s.fDepth j ∧ s.fDepth j < L.maxDepth

abbrev TreePath (s : DepthState n) : Fin n → Fin n → Prop :=
  Relation.ReflTransGen (Tree L s)

/-- Images that are done are less deep than those they depend on, up to cycles. -/
def Sorted (s : DepthState n) : Prop :=
  ∀ i j, 0 < s.fDepth i → s.fDepth i < L.maxDepth → Downward L.libraries i j →
    s.fDepth i < s.fDepth j ∨ ReachesDown L.libraries j i

/-- What images depend on that are done has a depth, or is one of those the recursion starts from. -/
def Followed (starts : Fin n → Prop) (s : DepthState n) : Prop :=
  ∀ i j, 0 < s.fDepth i → s.fDepth i < L.maxDepth → Downward L.libraries i j → s.fDepth j ≠ 0 ∨ starts j

/-- Depths that are given are kept, and others are given below those of the dependents. -/
structure Grown (s s' : DepthState n) : Prop where
  frame : ∀ i, s.fDepth i ≠ 0 → s'.fDepth i = s.fDepth i
  depths : Depths L s'
  done : ∀ i, s.fDepth i = 0 → s'.fDepth i < L.maxDepth
  below : ∀ i j, s.fDepth i = 0 → Downward L.libraries i j → s.fDepth j ≠ 0 → s'.fDepth i < s.fDepth j
  sorted : Sorted L s → Sorted L s'

/-- What `recursiveUpdateDepth` does for an image. -/
structure DepthVisited (a : Fin n) (s s' : DepthState n) : Prop where
  grown : Grown L s s'
  followed : ∀ starts : Fin n → Prop, (starts a ∨ (s.inProgress L).Nonempty) →
    Followed L starts s → Followed L starts s'
  tree : ∀ i, s.fDepth i = 0 → s'.fDepth i ≠ 0 →
    s.fDepth a = 0 ∧ TreePath L s' a i
  dangling : ∀ i ∈ s'.danglingUpwards, i ∈ s.danglingUpwards ∨
    (s.fDepth a = 0 ∧ ∃ j, TreePath L s' a j ∧ Upward L.libraries j i)
  visited : (s.inProgress L).Nonempty → s'.fDepth a ≠ 0
  dependents : s.fDepth a = 0 → ∀ j, Downward L.libraries a j → j ≠ a → s'.fDepth j ≠ 0

/-- What the loop over the libraries of an image does. -/
structure DepthSteps (a : Fin n) (libs : List (Library n)) (m : Nat) (s s' : DepthState n) (m' : Nat) :
    Prop where
  grown : Grown L s s'
  followed : ∀ starts : Fin n → Prop,
    Followed L starts s → Followed L starts s'
  tree : ∀ i, s.fDepth i = 0 → s'.fDepth i ≠ 0 →
    ∃ c, Downward L.libraries a c ∧ s.fDepth c = 0 ∧ TreePath L s' c i
  dangling : ∀ i ∈ s'.danglingUpwards, i ∈ s.danglingUpwards ∨ Upward L.libraries a i ∨
    ∃ c j, Downward L.libraries a c ∧ s.fDepth c = 0 ∧ TreePath L s' c j ∧
      Upward L.libraries j i
  le : m' ≤ m
  attained : m' = m ∨ ∃ j, s'.fDepth j ≠ 0 ∧ s'.fDepth j = m'
  dependents : ∀ j, (⟨some j, false⟩ : Library n) ∈ libs → s'.fDepth j ≠ 0 ∧ m' ≤ s'.fDepth j

end Visits

lemma Grown.refl (h : Depths L s) : Grown L s s where
  frame := fun _ _ => rfl
  depths := h
  done := fun i hi => by rw [hi]; exact L.pos
  below := fun i j hi _ hj => by omega
  sorted := id

lemma Grown.trans (h : Grown L s s₁) (h' : Grown L s₁ s') : Grown L s s' where
  frame := by
    intro i hi
    rw [h'.frame i (by rwa [h.frame i hi]), h.frame i hi]
  depths := h'.depths
  done := by
    intro i hi
    by_cases hi₁ : s₁.fDepth i = 0
    · exact h'.done i hi₁
    · rw [h'.frame i hi₁]
      exact h.done i hi
  below := by
    intro i j hi hij hj
    by_cases hi₁ : s₁.fDepth i = 0
    · rw [← h.frame j hj]
      exact h'.below i j hi₁ hij (by rwa [h.frame j hj])
    · rw [h'.frame i hi₁]
      exact h.below i j hi hij hj
  sorted := h'.sorted ∘ h.sorted

lemma Grown.tree (h : Grown L s s') (hij : Tree L s i j) : Tree L s' i j := by
  obtain ⟨hdown, hlt, hmax⟩ := hij
  have hj := h.frame j (by omega)
  refine ⟨hdown, ?_, by omega⟩
  by_cases hi : s.fDepth i = 0
  · rw [hj]
    exact h.below i j hi hdown (by omega)
  · rw [h.frame i hi, hj]
    exact hlt

lemma Grown.treePath (h : Grown L s s') (hij : TreePath L s i j) : TreePath L s' i j :=
  Relation.ReflTransGen.mono (fun _ _ hxy => h.tree hxy) i j hij

lemma Grown.inProgress (h : Grown L s s') : s'.inProgress L = s.inProgress L := by
  ext i
  rw [DepthState.inProgress, DepthState.inProgress, Finset.mem_filter, Finset.mem_filter]
  by_cases hi : s.fDepth i = 0
  · have := h.done i hi
    simp only [Finset.mem_univ, true_and]
    omega
  · rw [h.frame i hi]

lemma Grown.unvisited_card_le (h : Grown L s s') : (s'.unvisited L).card ≤ (s.unvisited L).card := by
  apply Finset.card_le_card
  intro i hi
  rw [DepthState.unvisited, Finset.mem_filter] at hi ⊢
  refine ⟨hi.1, ?_⟩
  by_contra hne
  rw [h.frame i hne] at hi
  exact hne hi.2

lemma TreePath.reachesDown (h : TreePath L s i j) : ReachesDown L.libraries i j :=
  Relation.ReflTransGen.mono (fun _ _ hxy => hxy.1) i j h

lemma Grown.push (h : Depths L s) (hi : i ∈ L.loaded) (hnew : i ∉ s.danglingUpwards) :
    Grown L s { s with danglingUpwards := s.danglingUpwards ++ [i] } where
  frame := fun _ _ => rfl
  depths :=
    { le := h.le
      known := h.known
      full := h.full
      nodup := by
        refine List.nodup_append.mpr ⟨h.nodup, List.nodup_singleton i, ?_⟩
        rintro j hj k hk rfl
        rw [List.mem_singleton.mp hk] at hj
        exact hnew hj
      knownDangling := by
        intro j hj
        rcases List.mem_append.mp hj with hj | hj
        · exact h.knownDangling j hj
        · rwa [List.mem_singleton.mp hj] }
  done := fun j hj => by dsimp only; rw [hj]; exact L.pos
  below := fun j k hj _ hk => by dsimp only; omega
  sorted := id

lemma Depths.length_lt (h : Depths L s) (hi : i ∈ L.loaded) (hnew : i ∉ s.danglingUpwards) :
    s.danglingUpwards.length < L.maxDepth := by
  refine lt_of_lt_of_le ?_ L.card_le
  rw [← List.toFinset_card_of_nodup h.nodup]
  apply Finset.card_lt_card
  rw [Finset.ssubset_iff_of_subset]
  · exact ⟨i, hi, by rwa [List.mem_toFinset]⟩
  · intro j hj
    exact h.knownDangling j (List.mem_toFinset.mp hj)

lemma DepthSteps.cons {lib : Library n} {libs : List (Library n)} (h : DepthSteps L a [lib] m s s₁ m₁)
    (h' : DepthSteps L a libs m₁ s₁ s' m') : DepthSteps L a (lib :: libs) m s s' m' where
  grown := h.grown.trans h'.grown
  followed := fun starts hs => h'.followed starts (h.followed starts hs)
  tree := by
    intro i hi hi'
    by_cases hi₁ : s₁.fDepth i = 0
    · obtain ⟨c, hac, hc, hpath⟩ := h'.tree i hi₁ hi'
      refine ⟨c, hac, ?_, hpath⟩
      by_contra hne
      rw [h.grown.frame c hne] at hc
      exact hne hc
    · obtain ⟨c, hac, hc, hpath⟩ := h.tree i hi hi₁
      exact ⟨c, hac, hc, h'.grown.treePath hpath⟩
  dangling := by
    intro i hi
    rcases h'.dangling i hi with hi | hi | ⟨c, j, hac, hc, hpath, hup⟩
    · rcases h.dangling i hi with hi | hi | ⟨c, j, hac, hc, hpath, hup⟩
      · exact Or.inl hi
      · exact Or.inr (Or.inl hi)
      · exact Or.inr (Or.inr ⟨c, j, hac, hc, h'.grown.treePath hpath, hup⟩)
    · exact Or.inr (Or.inl hi)
    · refine Or.inr (Or.inr ⟨c, j, hac, ?_, hpath, hup⟩)
      by_contra hne
      rw [h.grown.frame c hne] at hc
      exact hne hc
  le := h'.le.trans h.le
  attained := by
    rcases h'.attained with heq | hj
    · rcases h.attained with heq₁ | ⟨j, hne, hj⟩
      · exact Or.inl (heq.trans heq₁)
      · exact Or.inr ⟨j, by rw [h'.grown.frame j hne]; exact ⟨hne, hj.trans heq.symm⟩⟩
    · exact Or.inr hj
  dependents := by
    intro j hj
    rcases List.mem_cons.mp hj with hj | hj
    · obtain ⟨hne, hle⟩ := h.dependents j (by rw [hj]; exact List.mem_singleton_self lib)
      rw [h'.grown.frame j hne]
      exact ⟨hne, h'.le.trans hle⟩
    · exact h'.dependents j hj

lemma depthOfDependents_spec {visit : Fin n → DepthState n → Option (DepthState n)} {bound : Nat}
    (hvisit : ∀ i ∈ L.loaded, ∀ s, Depths L s → (s.unvisited L).card ≤ bound →
      ∃ s', visit i s = some s' ∧ DepthVisited L i s s')
    {libs : List (Library n)} (hlibs : ∀ lib ∈ libs, lib ∈ L.libraries a)
    (hclosed : ∀ lib ∈ libs, ∀ i, lib.libImage = some i → i ∈ L.loaded) (h : Depths L s)
    (ha : s.fDepth a = L.maxDepth) (hbound : (s.unvisited L).card ≤ bound) :
    ∃ s' m', depthOfDependents L.maxDepth visit libs m s = some (s', m') ∧
      DepthSteps L a libs m s s' m' := by
  have hmax := L.pos
  induction libs generalizing m s with
  | nil =>
    refine ⟨s, m, rfl, Grown.refl h, fun _ => id, fun i hi hi' => absurd hi hi', ?_, le_rfl,
      Or.inl rfl, by simp⟩
    exact fun i hi => Or.inl hi
  | cons lib libs ih =>
    -- one library, and the ones that follow it
    suffices hone : ∃ s₁ m₁, depthOfDependents L.maxDepth visit (lib :: libs) m s =
        depthOfDependents L.maxDepth visit libs m₁ s₁ ∧
        DepthSteps L a [lib] m s s₁ m₁ by
      obtain ⟨s₁, m₁, heq, h₁⟩ := hone
      obtain ⟨s', m', hrest, h'⟩ := ih (fun x hx => hlibs x (List.mem_cons_of_mem lib hx))
        (fun x hx => hclosed x (List.mem_cons_of_mem lib hx)) h₁.grown.depths
        (by rw [h₁.grown.frame a (by omega), ha]) (h₁.grown.unvisited_card_le.trans hbound)
      exact ⟨s', m', heq.trans hrest, h₁.cons h'⟩
    obtain ⟨libImage, libIsUpward⟩ := lib
    have hmem := hlibs _ List.mem_cons_self
    have hknown := hclosed _ List.mem_cons_self
    cases libImage with
    | none =>
      refine ⟨s, m, rfl, Grown.refl h, fun _ => id, fun i hi hi' => absurd hi hi', ?_, le_rfl,
        Or.inl rfl, by simp⟩
      exact fun i hi => Or.inl hi
    | some i =>
      have hi := hknown i rfl
      cases libIsUpward with
      | true =>
        by_cases hpush : s.fDepth i = 0 ∧ i ∉ s.danglingUpwards
        · have hlt := h.length_lt hi hpush.2
          refine ⟨{ s with danglingUpwards := s.danglingUpwards ++ [i] }, m, ?_,
            Grown.push h hi hpush.2, fun _ => id, fun j hj hj' => absurd hj hj', ?_, le_rfl,
            Or.inl rfl, by simp⟩
          · simp [depthOfDependents, hpush, hlt]
          · intro j hj
            rcases List.mem_append.mp hj with hj | hj
            · exact Or.inl hj
            · rw [List.mem_singleton.mp hj]
              exact Or.inr (Or.inl hmem)
        · refine ⟨s, m, ?_, Grown.refl h, fun _ => id, fun i hi hi' => absurd hi hi', ?_, le_rfl,
            Or.inl rfl, by simp⟩
          · simp only [depthOfDependents, if_true, if_neg hpush]
          · exact fun i hi => Or.inl hi
      | false =>
        obtain ⟨s₁, hs₁, hv⟩ := hvisit i hi s h hbound
        have hprogress : (s.inProgress L).Nonempty :=
          ⟨a, Finset.mem_filter.mpr ⟨Finset.mem_univ a, ha⟩⟩
        have hne := hv.visited hprogress
        refine ⟨s₁, min m (s₁.fDepth i), ?_, hv.grown,
          fun starts => hv.followed starts (Or.inr hprogress), ?_, ?_, Nat.min_le_left _ _, ?_, ?_⟩
        · simp [depthOfDependents, hs₁]
        · intro j hj hj'
          obtain ⟨hzero, hpath⟩ := hv.tree j hj hj'
          exact ⟨i, hmem, hzero, hpath⟩
        · intro j hj
          rcases hv.dangling j hj with hj | ⟨hzero, k, hpath, hup⟩
          · exact Or.inl hj
          · exact Or.inr (Or.inr ⟨i, k, hmem, hzero, hpath, hup⟩)
        · rcases Nat.le_total m (s₁.fDepth i) with hle | hle
          · exact Or.inl (Nat.min_eq_left hle)
          · exact Or.inr ⟨i, hne, (Nat.min_eq_right hle).symm⟩
        · intro j hj
          cases List.mem_singleton.mp hj
          exact ⟨hne, Nat.min_le_right _ _⟩

/-! ### An image in progress -/

section InProgress

lemma Depths.start (h : Depths L s) (ha : a ∈ L.loaded)
    (hzero : s.fDepth a = 0) : Depths L (s.setDepth a L.maxDepth) where
  le := by
    intro i
    rw [fDepth_start]
    split_ifs
    · exact le_rfl
    · exact h.le i
  known := by
    intro i hi
    rw [fDepth_start] at hi
    split_ifs at hi with hia
    · rwa [hia]
    · exact h.known i hi
  full := by
    intro i hi hlt
    rw [fDepth_start] at hi hlt ⊢
    split_ifs at hi hlt ⊢ with hia
    · omega
    · obtain ⟨j, hj⟩ := h.full i hi hlt
      have hja : j ≠ a := by
        rintro rfl
        omega
      exact ⟨j, by rw [fDepth_start, if_neg hja, hj]⟩
  nodup := h.nodup
  knownDangling := h.knownDangling

lemma Sorted.start (h : Sorted L s) : Sorted L (s.setDepth a L.maxDepth) := by
  intro i j hi hlt hij
  rw [fDepth_start] at hi hlt ⊢
  rw [fDepth_start]
  split_ifs at hi hlt ⊢ with hia hja
  · omega
  · omega
  · exact Or.inl (by omega)
  · exact h i j hi hlt hij

lemma Followed.start (h : Followed L starts s) : Followed L starts (s.setDepth a L.maxDepth) := by
  intro i j hi hlt hij
  rw [fDepth_start] at hi hlt ⊢
  split_ifs at hi hlt ⊢ with hia hja
  · omega
  · omega
  · exact Or.inl (by omega)
  · exact h i j hi hlt hij

lemma inProgress_start (hzero : s.fDepth a = 0) :
    ((s.setDepth a L.maxDepth).inProgress L).card = (s.inProgress L).card + 1 := by
  have heq : (s.setDepth a L.maxDepth).inProgress L = insert a (s.inProgress L) := by
    ext i
    rw [DepthState.inProgress, DepthState.inProgress, Finset.mem_insert, Finset.mem_filter,
      Finset.mem_filter, fDepth_start]
    split_ifs with hia
    · simp [hia]
    · simp [hia]
  rw [heq, Finset.card_insert_of_notMem]
  rw [DepthState.inProgress, Finset.mem_filter]
  have := L.pos
  omega

lemma unvisited_start (ha : a ∈ L.loaded) (hzero : s.fDepth a = 0) :
    ((s.setDepth a L.maxDepth).unvisited L).card < (s.unvisited L).card := by
  have := L.pos
  apply Finset.card_lt_card
  rw [Finset.ssubset_iff_of_subset]
  · refine ⟨a, Finset.mem_filter.mpr ⟨ha, hzero⟩, ?_⟩
    rw [DepthState.unvisited, Finset.mem_filter, fDepth_start, if_pos rfl]
    omega
  · intro i hi
    rw [DepthState.unvisited, Finset.mem_filter, fDepth_start] at hi
    split_ifs at hi with hia
    · omega
    · exact Finset.mem_filter.mpr hi

/-- The least depth of the dependents leaves room for the images in progress. -/
lemma DepthSteps.inProgress_lt (hzero : s.fDepth a = 0)
    (h : DepthSteps L a (L.libraries a) L.maxDepth (s.setDepth a L.maxDepth) s' m) :
    (s.inProgress L).card < m := by
  have hprogress : _ = (s.inProgress L).card + 1 := inProgress_start hzero
  rw [← h.grown.inProgress] at hprogress
  rcases h.attained with rfl | ⟨j, hj, rfl⟩
  · have := (Finset.card_le_card h.grown.depths.inProgress_subset).trans L.card_le
    omega
  · have := h.grown.depths.inProgress_le (Nat.pos_of_ne_zero hj)
    omega

/-- What is in place when the turn of an image comes to its end. -/
structure Finishing (L : Loading n) (a : Fin n) (s s' : DepthState n) (m : Nat) : Prop where
  zero : s.fDepth a = 0
  steps : DepthSteps L a (L.libraries a) L.maxDepth (s.setDepth a L.maxDepth) s' m
  room : (s.inProgress L).card < m

namespace Finishing

variable (h : Finishing L a s s' m)

include h

lemma apply (i : Fin n) : (s'.setDepth a (m - 1)).fDepth i = if i = a then m - 1 else s'.fDepth i := by
  have := h.steps.le
  have := L.bits
  exact fDepth_setDepth (by omega)

lemma apply_self : s'.fDepth a = L.maxDepth := by
  have hstart : (s.setDepth a L.maxDepth).fDepth a = _ := fDepth_start
  rw [if_pos rfl] at hstart
  have := L.pos
  rw [h.steps.grown.frame a (by omega), hstart]

lemma lt_of_downward {j : Fin n} (hj : Downward L.libraries a j) (hja : j ≠ a) :
    (s'.setDepth a (m - 1)).fDepth a < (s'.setDepth a (m - 1)).fDepth j := by
  obtain ⟨hne, hle⟩ := h.steps.dependents j hj
  rw [h.apply, h.apply, if_pos rfl, if_neg hja]
  have := h.room
  omega

lemma frame (hi : s.fDepth i ≠ 0) : (s'.setDepth a (m - 1)).fDepth i = s.fDepth i := by
  have hia : i ≠ a := by
    rintro rfl
    exact hi h.zero
  have hstart : (s.setDepth a L.maxDepth).fDepth i = _ := fDepth_start
  rw [if_neg hia] at hstart
  rw [h.apply, if_neg hia, h.steps.grown.frame i (by rwa [hstart]), hstart]

lemma depths : Depths L (s'.setDepth a (m - 1)) := by
  have hd := h.steps.grown.depths
  have hm := h.steps.le
  have ha := h.apply_self
  have hroom := h.room
  have hmax := L.pos
  refine ⟨?_, ?_, ?_, hd.nodup, hd.knownDangling⟩
  · intro i
    rw [h.apply]
    split_ifs
    · omega
    · exact hd.le i
  · intro i hi
    rw [h.apply] at hi
    split_ifs at hi with hia
    · rw [hia]
      exact hd.known a (by omega)
    · exact hd.known i hi
  · intro i hi hlt
    rw [h.apply] at hi hlt ⊢
    split_ifs at hi hlt ⊢ with hia
    · -- the least deep dependent is one deeper
      rcases h.steps.attained with heq | ⟨j, hne, hj⟩
      · omega
      · have hja : j ≠ a := by
          rintro rfl
          omega
        exact ⟨j, by rw [h.apply, if_neg hja]; omega⟩
    · obtain ⟨j, hj⟩ := hd.full i hi hlt
      have hja : j ≠ a := by
        rintro rfl
        omega
      exact ⟨j, by rw [h.apply, if_neg hja, hj]⟩

/-- Paths of images that were done before stay. -/
lemma treePath (hij : TreePath L s' i j) : TreePath L (s'.setDepth a (m - 1)) i j := by
  refine Relation.ReflTransGen.mono (fun x y hxy => ?_) i j hij
  obtain ⟨hdown, hlt, hmax⟩ := hxy
  have ha := h.apply_self
  have hx : x ≠ a := by
    rintro rfl
    omega
  have hy : y ≠ a := by
    rintro rfl
    omega
  unfold Tree
  rw [h.apply, h.apply, if_neg hx, if_neg hy]
  exact ⟨hdown, hlt, hmax⟩

/-- A path from a dependent that was not done before goes on to the image itself. -/
lemma treePath_self {c j : Fin n} (hac : Downward L.libraries a c)
    (hc : (s.setDepth a L.maxDepth).fDepth c = 0) (hcj : TreePath L s' c j) :
    TreePath L (s'.setDepth a (m - 1)) a j := by
  have hca : c ≠ a := by
    rintro rfl
    rw [fDepth_start, if_pos rfl] at hc
    have := L.pos
    omega
  refine Relation.ReflTransGen.head ⟨hac, h.lt_of_downward hac hca, ?_⟩ (h.treePath hcj)
  rw [h.apply, if_neg hca]
  exact h.steps.grown.done c hc

lemma tree (hi : s.fDepth i = 0) (hi' : (s'.setDepth a (m - 1)).fDepth i ≠ 0) :
    TreePath L (s'.setDepth a (m - 1)) a i := by
  by_cases hia : i = a
  · rw [hia]
  · rw [h.apply, if_neg hia] at hi'
    obtain ⟨c, hac, hc, hpath⟩ := h.steps.tree i (by rw [fDepth_start, if_neg hia, hi]) hi'
    exact h.treePath_self hac hc hpath

lemma grown : Grown L s (s'.setDepth a (m - 1)) where
  frame := fun i hi => h.frame hi
  depths := h.depths
  done := by
    intro i hi
    rw [h.apply]
    split_ifs with hia
    · have := h.room
      have := h.steps.le
      omega
    · exact h.steps.grown.done i (by rw [fDepth_start, if_neg hia, hi])
  below := by
    intro i j hi hij hj
    have hja : j ≠ a := by
      rintro rfl
      exact hj h.zero
    have hstart : (s.setDepth a L.maxDepth).fDepth j = _ := fDepth_start
    rw [if_neg hja] at hstart
    by_cases hia : i = a
    · rw [← h.frame hj, hia]
      exact h.lt_of_downward (hia ▸ hij) hja
    · rw [h.apply, if_neg hia, ← hstart]
      exact h.steps.grown.below i j (by rw [fDepth_start, if_neg hia, hi]) hij (by rwa [hstart])
  sorted := by
    intro hsorted i j hi hlt hij
    have hsorted' := h.steps.grown.sorted hsorted.start
    by_cases hja : j = a
    · -- an image that depends on the one in progress
      rw [hja] at hij ⊢
      by_cases hi₀ : s.fDepth i = 0
      · exact Or.inr (TreePath.reachesDown (h.tree hi₀ (by omega)))
      · rw [h.frame hi₀] at hi hlt
        rcases hsorted i a hi hlt hij with hcon | hreach
        · rw [h.zero] at hcon
          omega
        · exact Or.inr hreach
    · by_cases hia : i = a
      · rw [hia] at hij ⊢
        exact Or.inl (h.lt_of_downward hij hja)
      · rw [h.apply, if_neg hia] at hi hlt ⊢
        rw [h.apply, if_neg hja]
        exact hsorted' i j hi hlt hij

lemma followed (hstarts : starts a ∨ (s.inProgress L).Nonempty) (hs : Followed L starts s) :
    Followed L starts (s'.setDepth a (m - 1)) := by
  intro i j hi hlt hij
  have hs' := h.steps.followed starts hs.start
  by_cases hja : j = a
  · rw [hja, h.apply, if_pos rfl]
    rcases hstarts with hstart | hprogress
    · exact Or.inr hstart
    · have := Finset.card_pos.mpr hprogress
      have := h.room
      exact Or.inl (by omega)
  · rw [h.apply, if_neg hja]
    by_cases hia : i = a
    · exact Or.inl (h.steps.dependents j (hia ▸ hij)).1
    · rw [h.apply, if_neg hia] at hi hlt
      exact hs' i j hi hlt hij

lemma visited : DepthVisited L a s (s'.setDepth a (m - 1)) where
  grown := h.grown
  followed := fun _ hstarts hs => h.followed hstarts hs
  tree := fun _ hi hi' => ⟨h.zero, h.tree hi hi'⟩
  dangling := by
    intro i hi
    rw [danglingUpwards_setDepth] at hi
    rcases h.steps.dangling i hi with hi | hi | ⟨c, j, hac, hc, hpath, hup⟩
    · exact Or.inl hi
    · exact Or.inr ⟨h.zero, a, Relation.ReflTransGen.refl, hi⟩
    · exact Or.inr ⟨h.zero, j, h.treePath_self hac hc hpath, hup⟩
  visited := by
    intro hprogress
    have := Finset.card_pos.mpr hprogress
    have := h.room
    rw [h.apply, if_pos rfl]
    omega
  dependents := by
    intro _ j hj hja
    rw [h.apply, if_neg hja]
    exact (h.steps.dependents j hj).1

end Finishing

end InProgress

/-- As many turns as there are images without a depth, and one more, are enough. -/
lemma recursiveUpdateDepth_spec {fuel : Nat} (ha : a ∈ L.loaded) (h : Depths L s)
    (hfuel : (s.unvisited L).card < fuel) :
    ∃ s', recursiveUpdateDepth L.libraries L.maxDepth fuel a s = some s' ∧ DepthVisited L a s s' := by
  induction fuel generalizing a s with
  | zero => exact absurd hfuel (Nat.not_lt_zero _)
  | succ fuel ih =>
    rw [recursiveUpdateDepth]
    by_cases hzero : s.fDepth a = 0
    · have hunvisited := unvisited_start ha hzero
      have hvisit : ∀ i ∈ L.loaded, ∀ t, Depths L t → (t.unvisited L).card ≤ fuel - 1 →
          ∃ t', recursiveUpdateDepth L.libraries L.maxDepth fuel i t = some t' ∧ DepthVisited L i t t' :=
        fun i hi t ht htfuel => ih hi ht (by omega)
      obtain ⟨s', m, hrun, hsteps⟩ := depthOfDependents_spec hvisit (fun _ hx => hx) (L.closed a ha)
        (h.start ha hzero) (by rw [fDepth_start, if_pos rfl]) (by omega)
      have hroom := hsteps.inProgress_lt hzero
      have hle := hsteps.le
      have hbits := L.bits
      rw [if_pos hzero, hrun]
      dsimp only
      rw [setDepth_pred (by omega) (by omega)]
      exact ⟨_, rfl, Finishing.visited ⟨hzero, hsteps, hroom⟩⟩
    · rw [if_neg hzero]
      refine ⟨s, rfl, Grown.refl h, fun _ _ => id, fun i hi hi' => absurd hi hi', ?_, fun _ => hzero,
        fun hcon => absurd hcon hzero⟩
      exact fun i hi => Or.inl hi

/-! ### All depths -/

/-- A downward link to a deeper image. -/
def Below (libraries : Fin n → List (Library n)) (fDepth : Fin n → Nat) (i j : Fin n) : Prop :=
  Downward libraries i j ∧ fDepth i < fDepth j

abbrev BelowPath (libraries : Fin n → List (Library n)) (fDepth : Fin n → Nat) : Fin n → Fin n → Prop :=
  Relation.ReflTransGen (Below libraries fDepth)

def Start (libraries : Fin n → List (Library n)) (root : Fin n) (fDepth : Fin n → Nat) (i : Fin n) :
    Prop :=
  i = root ∨ ∃ j, BelowPath libraries fDepth root j ∧ Upward libraries j i

/-- Depths as `updateDepth` leaves them. The root may have depth zero. -/
structure DepthsFrom (libraries : Fin n → List (Library n)) (root : Fin n) (fDepth : Fin n → Nat) :
    Prop where
  sorted : ∀ i j, (fDepth i ≠ 0 ∨ i = root) → Downward libraries i j →
    fDepth i < fDepth j ∨ ReachesDown libraries j i
  followed : ∀ i j, fDepth i ≠ 0 → Downward libraries i j →
    fDepth j ≠ 0 ∨ Start libraries root fDepth j
  covered : ∀ i, fDepth i ≠ 0 → ∃ start, Start libraries root fDepth start ∧
    BelowPath libraries fDepth start i
  reached : ∀ i, ReachesDown libraries root i → fDepth i ≠ 0 ∨ i = root

/-- What holds between the visits that `updateDepth` starts. -/
structure Between (L : Loading n) (starts : Fin n → Prop) (s : DepthState n) : Prop where
  depths : Depths L s
  done : ∀ i, s.fDepth i < L.maxDepth
  sorted : Sorted L s
  followed : Followed L starts s
  covered : ∀ i, s.fDepth i ≠ 0 → ∃ start, starts start ∧ TreePath L s start i

lemma Between.visited (h : Between L starts s) (ha : starts a) (hv : DepthVisited L a s s') :
    Between L starts s' where
  depths := hv.grown.depths
  done := by
    intro i
    by_cases hi : s.fDepth i = 0
    · exact hv.grown.done i hi
    · rw [hv.grown.frame i hi]
      exact h.done i
  sorted := hv.grown.sorted h.sorted
  followed := hv.followed starts (Or.inl ha) h.followed
  covered := by
    intro i hi
    by_cases hi₀ : s.fDepth i = 0
    · exact ⟨a, ha, (hv.tree i hi₀ hi).2⟩
    · obtain ⟨start, hstart, hpath⟩ := h.covered i hi₀
      exact ⟨start, hstart, hv.grown.treePath hpath⟩

lemma unvisited_card_le (s : DepthState n) (L : Loading n) : (s.unvisited L).card ≤ n :=
  (Finset.card_le_univ _).trans_eq (Fintype.card_fin n)

lemma updateDangling_spec {fuel : Nat} (hfuel : n < fuel) {danglingUpwards : List (Fin n)}
    (hdangling : ∀ i ∈ danglingUpwards, i ∈ L.loaded ∧ starts i) (h : Between L starts s) :
    ∃ s', updateDangling L.libraries L.maxDepth fuel danglingUpwards s = some s' ∧
      Grown L s s' ∧ Between L starts s' := by
  induction danglingUpwards generalizing s with
  | nil =>
    refine ⟨s, rfl, ⟨fun _ _ => rfl, h.depths, fun i _ => h.done i, ?_, id⟩, h⟩
    intro i j hi _ hj
    omega
  | cons a danglingUpwards ih =>
    obtain ⟨ha, hstart⟩ := hdangling a List.mem_cons_self
    have hrest : ∀ i ∈ danglingUpwards, i ∈ L.loaded ∧ starts i :=
      fun i hi => hdangling i (List.mem_cons_of_mem a hi)
    rw [updateDangling]
    by_cases hzero : s.fDepth a = 0
    · obtain ⟨s₁, hrun, hv⟩ := recursiveUpdateDepth_spec ha h.depths
        ((unvisited_card_le s L).trans_lt hfuel)
      obtain ⟨s', hrest', hgrown, hbetween⟩ := ih hrest (h.visited hstart hv)
      rw [if_neg (not_not.mpr hzero), hrun]
      exact ⟨s', hrest', hv.grown.trans hgrown, hbetween⟩
    · rw [if_pos hzero]
      exact ih hrest h

lemma Loading.updateDepth_spec (L : Loading n) {fuel : Nat} (hfuel : n < fuel) {root : Fin n}
    (hroot : root ∈ L.loaded) :
    ∃ fDepth, updateDepth L.libraries L.maxDepth fuel root = some fDepth ∧
      (∀ i, fDepth i < L.maxDepth) ∧ DepthsFrom L.libraries root fDepth := by
  have hdepths : Depths L (⟨fun _ => 0, []⟩ : DepthState n) :=
    ⟨by simp, by simp, by simp, List.nodup_nil, by simp⟩
  obtain ⟨s₁, hrun, hv⟩ := recursiveUpdateDepth_spec hroot hdepths
    ((unvisited_card_le _ L).trans_lt hfuel)
  have hbetween : Between L (fun i => i = root ∨ i ∈ s₁.danglingUpwards)
      ⟨fun _ => 0, []⟩ :=
    ⟨hdepths, fun _ => L.pos, fun i j hi => absurd hi (lt_irrefl 0),
      fun i j hi => absurd hi (lt_irrefl 0), by simp⟩
  obtain ⟨s, hrest, hgrown, hs⟩ := updateDangling_spec hfuel
    (fun i hi => ⟨hv.grown.depths.knownDangling i hi, Or.inr hi⟩) (hbetween.visited (Or.inl rfl) hv)
  have hpath : ∀ i j, TreePath L s i j → BelowPath L.libraries s.fDepth i j :=
    Relation.ReflTransGen.mono fun _ _ hxy => ⟨hxy.1, hxy.2.1⟩
  have hstart : ∀ i, (i = root ∨ i ∈ s₁.danglingUpwards) → Start L.libraries root s.fDepth i := by
    intro i hi
    refine hi.imp_right fun hi => ?_
    rcases hv.dangling i hi with hi | ⟨-, j, hj, hup⟩
    · cases hi
    · exact ⟨j, hpath root j (hgrown.treePath hj), hup⟩
  have hroot₁ : ∀ j, Downward L.libraries root j → j ≠ root → s₁.fDepth j ≠ 0 := hv.dependents rfl
  have hfollowed₁ : Followed L (fun i => i = root) s₁ :=
    hv.followed _ (Or.inl rfl) fun i j hi => absurd hi (lt_irrefl 0)
  have hreached : ∀ i, ReachesDown L.libraries root i → s₁.fDepth i ≠ 0 ∨ i = root := by
    intro i hi
    induction hi with
    | refl => exact Or.inr rfl
    | @tail i j _ hij ih =>
      by_cases hzero : s₁.fDepth i = 0
      · rw [ih.resolve_left (not_not.mpr hzero)] at hij
        by_cases hj : j = root
        · exact Or.inr hj
        · exact Or.inl (hroot₁ j hij hj)
      · exact hfollowed₁ i j (Nat.pos_of_ne_zero hzero) (hv.grown.done i rfl) hij
  have hkeep : ∀ i, s₁.fDepth i ≠ 0 → s.fDepth i ≠ 0 := by
    intro i hi
    rwa [hgrown.frame i hi]
  refine ⟨s.fDepth, by rw [updateDepth, hrun]; simp [hrest], hs.done, ?_, ?_, ?_, ?_⟩
  · intro i j hi hij
    by_cases hzero : s.fDepth i = 0
    · have hiroot := hi.resolve_left (not_not.mpr hzero)
      rw [hiroot] at hij ⊢
      by_cases hj : j = root
      · rw [hj]
        exact Or.inr Relation.ReflTransGen.refl
      · rw [← hiroot, hzero]
        exact Or.inl (Nat.pos_of_ne_zero (hkeep j (hroot₁ j hij hj)))
    · exact hs.sorted i j (Nat.pos_of_ne_zero hzero) (hs.done i) hij
  · intro i j hi hij
    exact (hs.followed i j (Nat.pos_of_ne_zero hi) (hs.done i) hij).imp_right (hstart j)
  · intro i hi
    obtain ⟨start, hmem, hi⟩ := hs.covered i hi
    exact ⟨start, hstart start hmem, hpath start i hi⟩
  · intro i hi
    exact (hreached i hi).imp_left (hkeep i)

lemma updateDepth_spec {libraries : Fin n → List (Library n)} {loaded : Finset (Fin n)} {root : Fin n}
    (hroot : root ∈ loaded) (hclosed : LoadedClosed libraries loaded) (hbits : loaded.card < 2 ^ 15) :
    ∃ fDepth, updateDepth libraries loaded.card (n + 1) root = some fDepth ∧
      (∀ i, fDepth i < loaded.card) ∧ DepthsFrom libraries root fDepth :=
  Loading.updateDepth_spec ⟨libraries, loaded, loaded.card, hclosed, le_rfl,
    Finset.card_pos.mpr ⟨root, hroot⟩, hbits⟩ (Nat.lt_succ_self n) hroot

/-- With every image loaded that is linked, and less than 2^15 of them, `updateDepth` makes the images
sortable: each is less deep than those it depends on, unless these depend on it in turn. -/
theorem updateDepth_sorts {loaded : Finset (Fin n)} {root : Fin n} (hroot : root ∈ loaded)
    (hclosed : LoadedClosed libraries loaded) (hbits : loaded.card < 2 ^ 15) :
    ∃ fDepth, updateDepth libraries loaded.card (n + 1) root = some fDepth ∧
      (∀ i, fDepth i < loaded.card) ∧
      (∀ i, ReachesDown libraries root i → fDepth i ≠ 0 ∨ i = root) ∧
      ∀ i j, (fDepth i ≠ 0 ∨ i = root) → Downward libraries i j →
        fDepth i < fDepth j ∨ ReachesDown libraries j i := by
  obtain ⟨fDepth, hrun, hlt, hfrom⟩ := updateDepth_spec hroot hclosed hbits
  exact ⟨fDepth, hrun, hlt, hfrom.reached, hfrom.sorted⟩

/-- An image with an upward link to another one that is linked with it, and a third one below. -/
def upwardLibraries (i : Fin 3) : List (Library 3) :=
  let images := List.finRange 3
  match i.val with
  | 0 => [⟨images[1]?, false⟩, ⟨images[2]?, true⟩, ⟨none, false⟩]
  | 2 => [⟨images[0]?, false⟩]
  | _ => []

theorem updateDepth_sorts_upward :
    ∃ fDepth, updateDepth upwardLibraries (Finset.univ : Finset (Fin 3)).card 4 0 = some fDepth ∧
      (∀ i, fDepth i < (Finset.univ : Finset (Fin 3)).card) ∧
      (∀ i, ReachesDown upwardLibraries 0 i → fDepth i ≠ 0 ∨ i = 0) ∧
      ∀ i j, (fDepth i ≠ 0 ∨ i = 0) → Downward upwardLibraries i j →
        fDepth i < fDepth j ∨ ReachesDown upwardLibraries j i :=
  updateDepth_sorts (Finset.mem_univ 0) (fun _ _ _ _ j _ => Finset.mem_univ j) (by decide)

end Dyld.ImageLoader