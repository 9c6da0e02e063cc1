import Dyld.ImageLoader.WeakBind

/-!
# The walk over the symbols

Before each turn the iterators stand in order, all symbols below the lowest one are dealt with, and
above it an iterator is marked exactly when another one behind it is at the same symbol.
-/

namespace Dyld.ImageLoader

open Dyld.Lib

variable {n : Nat} {images : Fin n → WeakImage} {symbols : Fin n → List WeakSymbol}
  {useNewWeakBind : Bool}

/-! ### One symbol -/

section Coalesce

variable {iterators : Fin n → CoalIterator} {name : List UInt8}

lemma pickTarget_of_zero {L : List (Fin n)}
    (h : ∀ i ∈ L, (iterators i).symbolName = name → (images i).exportedAddress name = 0) :
    pickTarget images iterators name L (0, none) = (0, none) := by
  induction L with
  | nil => rfl
  | cons i L ih =>
    have hrest := ih (fun j hj => h j (List.mem_cons_of_mem i hj))
    rw [pickTarget]
    by_cases hi : (iterators i).symbolName = name
    · rw [if_pos hi, hi, h i List.mem_cons_self hi]
      simp [hrest]
    · rw [if_neg hi, hrest]

/-- A definition that is not weak overrides the choice so far. -/
lemma pickTarget_of_ne_zero {L : List (Fin n)} {value : UInt64} {target : Option (Fin n)}
    (hvalue : value ≠ 0)
    (hstrong : ∀ i ∈ L, (iterators i).symbolName = name → (iterators i).weakSymbol = false →
      (images i).exportedAddress name ≠ 0) :
    pickTarget images iterators name L (value, target) =
      (((L.filter fun i => (iterators i).symbolName = name).find? fun i => !(iterators i).weakSymbol).elim
        (value, target) fun i => ((images i).exportedAddress name, some i)) := by
  induction L with
  | nil => rfl
  | cons i L ih =>
    have hrest := ih (fun j hj => hstrong j (List.mem_cons_of_mem i hj))
    rw [pickTarget, List.filter_cons]
    by_cases hi : (iterators i).symbolName = name
    · rw [if_pos hi, if_pos (decide_eq_true hi), List.find?_cons]
      by_cases hweak : (iterators i).weakSymbol = true
      · simp only [hweak, if_true, hvalue, if_false, Bool.not_true, hrest]
      · rw [Bool.not_eq_true] at hweak
        have haddr := hstrong i List.mem_cons_self hi hweak
        simp [hweak, hi, haddr]
    · rw [if_neg hi, if_neg (by simpa using hi), hrest]

/-- The choice is the first definition that is not weak, or else the first one. -/
lemma pickTarget_eq {L : List (Fin n)}
    (hstrong : ∀ i ∈ L, (iterators i).symbolName = name → (iterators i).weakSymbol = false →
      (images i).exportedAddress name ≠ 0) :
    pickTarget images iterators name L (0, none) =
      ((((L.filter fun i => (iterators i).symbolName = name).find? fun i => !(iterators i).weakSymbol).or
        ((L.filter fun i => (iterators i).symbolName = name).find?
          fun i => (images i).exportedAddress name ≠ 0)).elim
        (0, none) fun i => ((images i).exportedAddress name, some i)) := by
  induction L with
  | nil => rfl
  | cons i L ih =>
    have hstrong' : ∀ j ∈ L, (iterators j).symbolName = name → (iterators j).weakSymbol = false →
        (images j).exportedAddress name ≠ 0 := fun j hj => hstrong j (List.mem_cons_of_mem i hj)
    have hrest := ih hstrong'
    rw [pickTarget, List.filter_cons]
    by_cases hi : (iterators i).symbolName = name
    · rw [if_pos hi, if_pos (decide_eq_true hi), List.find?_cons, List.find?_cons, hi]
      by_cases hweak : (iterators i).weakSymbol = true
      · by_cases haddr : (images i).exportedAddress name = 0
        · simp only [hweak, haddr, if_true, Bool.not_true, ne_eq, not_true_eq_false, if_false,
            decide_false, hrest]
        · have hchosen := @pickTarget_of_ne_zero n images iterators name L _ (some i) haddr hstrong'
          simp only [hweak, haddr, if_true, Bool.not_true, ne_eq, not_false_eq_true, decide_true, hchosen]
          cases (L.filter fun i => (iterators i).symbolName = name).find?
            fun i => !(iterators i).weakSymbol <;> rfl
      · rw [Bool.not_eq_true] at hweak
        have haddr := hstrong i List.mem_cons_self hi hweak
        simp [hweak, haddr]
    · rw [if_neg hi, if_neg (by simpa using hi), hrest]

lemma setMatches_self (symbolMatches : Bool) (i : Fin n) :
    setMatches symbolMatches i iterators i =
      { iterators i with symbolMatches := symbolMatches } :=
  Function.update_self i _ _

lemma setMatches_of_ne (symbolMatches : Bool) {i j : Fin n} (h : j ≠ i) :
    setMatches symbolMatches i iterators j = iterators j :=
  Function.update_of_ne h _ _

/-- The iterators of some images without the marks of those that are at a symbol. -/
def cleared (name : List UInt8) (L : List (Fin n)) (iterators : Fin n → CoalIterator) (i : Fin n) :
    CoalIterator :=
  if L.contains i ∧ (iterators i).symbolName = name then { iterators i with symbolMatches := false }
  else iterators i

lemma cleared_nil : cleared name [] iterators = iterators := by
  funext i
  simp [cleared]

lemma cleared_of_eq {i : Fin n} (hi : (iterators i).symbolName = name) :
    cleared name (List.finRange n) iterators i = { iterators i with symbolMatches := false } :=
  if_pos ⟨List.contains_iff_mem.mpr (List.mem_finRange i), hi⟩

lemma cleared_of_ne {i : Fin n} {L : List (Fin n)} (hi : (iterators i).symbolName ≠ name) :
    cleared name L iterators i = iterators i :=
  if_neg fun h => hi h.2

lemma cleared_cons_of_eq {i : Fin n} {L : List (Fin n)} (hi : (iterators i).symbolName = name) :
    cleared name L (setMatches false i iterators) = cleared name (i :: L) iterators := by
  funext j
  by_cases hji : j = i
  · subst hji
    simp [cleared, hi, setMatches_self]
  · simp [cleared, setMatches_of_ne false hji, hji]

lemma cleared_cons_of_ne {i : Fin n} {L : List (Fin n)} (hi : (iterators i).symbolName ≠ name) :
    cleared name L iterators = cleared name (i :: L) iterators := by
  funext j
  by_cases hji : j = i
  · subst hji
    simp [cleared, hi]
  · simp [cleared, hji]

lemma bindUses_eq {target : Fin n} {value : UInt64} {locations : Fin n → List WeakLocation}
    {L : List (Fin n)} {s : WeakBindState n} (hnodup : L.Nodup)
    (huses : ∀ i ∈ L, (s.iterators i).symbolName = name →
      updateUsesCoalIterator (images i) (s.iterators i) = .ok (locations i)) :
    bindUses images name target value L s = .ok
      { s with
        iterators := cleared name L s.iterators
        effects := s.effects ++ (L.filter fun i => (s.iterators i).symbolName = name).flatMap fun i =>
          if (images i).weakSymbolsBound then [] else usesEffects i target value (locations i) } := by
  induction L generalizing s with
  | nil => simp [bindUses, cleared_nil]
  | cons i L ih =>
    obtain ⟨hi, hnodup⟩ := List.nodup_cons.mp hnodup
    rw [bindUses, List.filter_cons]
    by_cases hname : (s.iterators i).symbolName = name
    · have hkept : ∀ j ∈ L, setMatches false i s.iterators j = s.iterators j := by
        intro j hj
        apply setMatches_of_ne false
        rintro rfl
        exact hi hj
      have huses' : ∀ s' : WeakBindState n, s'.iterators = setMatches false i s.iterators →
          ∀ j ∈ L, (s'.iterators j).symbolName = name →
            updateUsesCoalIterator (images j) (s'.iterators j) = .ok (locations j) := by
        intro s' hs' j hj hjname
        rw [hs', hkept j hj] at hjname ⊢
        exact huses j (List.mem_cons_of_mem i hj) hjname
      have hfilter : (L.filter fun j => decide ((setMatches false i s.iterators j).symbolName = name)) =
          L.filter fun j => decide ((s.iterators j).symbolName = name) :=
        List.filter_congr (fun j hj => by rw [hkept j hj])
      rw [if_pos hname, if_pos (decide_eq_true hname), List.flatMap_cons, ← cleared_cons_of_eq hname]
      dsimp only
      by_cases hbound : (images i).weakSymbolsBound = true
      · rw [if_pos hbound, if_pos hbound, List.nil_append, ih hnodup (huses' _ rfl)]
        dsimp only
        rw [hfilter]
      · rw [if_neg hbound, if_neg hbound, huses i List.mem_cons_self hname]
        change bindUses images name target value L _ = _
        rw [ih hnodup (huses' _ rfl)]
        dsimp only
        rw [hfilter, List.append_assoc]
    · rw [if_neg hname, if_neg (by simpa using hname), ← cleared_cons_of_ne hname,
        ih hnodup (fun j hj => huses j (List.mem_cons_of_mem i hj))]

structure AtSymbol (images : Fin n → WeakImage) (symbols : Fin n → List WeakSymbol)
    (iterators : Fin n → CoalIterator) (name : List UInt8) : Prop where
  holds : ∀ i, (iterators i).symbolName = name ↔ i ∈ holders symbols name
  stands : ∀ i ∈ holders symbols name, ∃ c rest, symbolNamed symbols name i = some c ∧
    (iterators i).weakSymbol = c.weakDef ∧ (iterators i).At (images i) c.locations rest

lemma AtSymbol.filter_eq (h : AtSymbol images symbols iterators name) :
    ((List.finRange n).filter fun i => (iterators i).symbolName = name) = holders symbols name := by
  apply List.filter_congr
  intro i _
  rw [Bool.eq_iff_iff, decide_eq_true_eq, h.holds i, mem_holders]
  simp

lemma AtSymbol.pickTarget_eq (h : AtSymbol images symbols iterators name)
    (hlisted : Listed images symbols) :
    pickTarget images iterators name (List.finRange n) (0, none) =
      (definition images symbols name).elim (0, none)
        fun i => ((images i).exportedAddress name, some i) := by
  have hweak : ∀ i ∈ holders symbols name,
      (!(iterators i).weakSymbol) = (symbolNamed symbols name i).any fun s => !s.weakDef := by
    intro i hi
    obtain ⟨c, rest, hc, hflag, -⟩ := h.stands i hi
    rw [hc, hflag]
    rfl
  have hfind : (holders symbols name).find? (fun i => !(iterators i).weakSymbol) =
      (holders symbols name).find? fun i => (symbolNamed symbols name i).any fun s => !s.weakDef :=
    List.find?_congr hweak
  rw [ImageLoader.pickTarget_eq, h.filter_eq, hfind]
  · rfl
  · intro i _ hi hstrong
    obtain ⟨c, rest, hc, hflag, -⟩ := h.stands i ((h.holds i).mp hi)
    have hname : c.name = name := by simpa using List.find?_some hc
    have haddr := hlisted.strong i c (List.mem_of_find?_eq_some hc) (hflag.symm.trans hstrong)
    rwa [hname] at haddr

lemma exportedAddress_of_definition (hlisted : Listed images symbols) {target : Fin n}
    (h : definition images symbols name = some target) : (images target).exportedAddress name ≠ 0 := by
  unfold definition at h
  rcases Option.or_eq_some_iff.mp h with hfind | ⟨-, hfind⟩
  · have hstrong := List.find?_some hfind
    obtain ⟨c, hc, hweak⟩ := (Option.any_eq_true _ _).mp hstrong
    have hname : c.name = name := by simpa using List.find?_some hc
    have haddr := hlisted.strong target c (List.mem_of_find?_eq_some hc) (by simpa using hweak)
    rwa [hname] at haddr
  · simpa using List.find?_some hfind

/-- Without a definition nothing happens. -/
lemma AtSymbol.coalesce_none {s : WeakBindState n} (h : AtSymbol images symbols s.iterators name)
    (hlisted : Listed images symbols) (hnone : definition images symbols name = none) :
    coalesce images useNewWeakBind name s = .ok s := by
  unfold coalesce
  rw [h.pickTarget_eq hlisted, hnone]
  rfl

/-- With a definition all images that have the symbol are bound to it, and their marks are taken
away. -/
lemma AtSymbol.coalesce_some {s : WeakBindState n} (h : AtSymbol images symbols s.iterators name)
    (hlisted : Listed images symbols) {target : Fin n}
    (hsome : definition images symbols name = some target) :
    coalesce images useNewWeakBind name s = .ok
      { s with
        iterators := cleared name (List.finRange n) s.iterators
        effects := s.effects ++ coalesced images symbols useNewWeakBind name } := by
  have huses : ∀ i ∈ List.finRange n, (s.iterators i).symbolName = name →
      updateUsesCoalIterator (images i) (s.iterators i) = .ok (if (images i).stateBound then
        ((symbolNamed symbols name i).map (·.locations)).getD [] else []) := by
    intro i _ hi
    obtain ⟨c, rest, hc, -, hat⟩ := h.stands i ((h.holds i).mp hi)
    rw [updateUses_of_at hat, hc]
    rfl
  unfold coalesce
  rw [h.pickTarget_eq hlisted, hsome]
  dsimp only [Option.elim]
  rw [if_pos (exportedAddress_of_definition hlisted hsome),
    bindUses_eq (List.nodup_finRange n) huses, h.filter_eq]
  unfold coalesced
  rw [hsome]
  dsimp only [Except.bind]
  by_cases hmap : (useNewWeakBind && (images target).neverUnload) = true
  · rw [if_pos hmap, if_pos hmap, List.append_assoc]
  · rw [if_neg hmap, if_neg hmap, List.append_nil]

end Coalesce

/-! ### One iterator -/

/-- Where an iterator stands among the symbols of its image, with those still to come. What it has
passed is not above the bound. -/
inductive Stands (image : WeakImage) (own : List WeakSymbol) (lo : List Nat) (it : CoalIterator) :
    List WeakSymbol → Prop
  | start {locations : List WeakLocation} (hdone : it.done = false) (hname : it.symbolName = [32])
    (hat : it.At image locations own) : Stands image own lo it own
  | on {before rest : List WeakSymbol} {c : WeakSymbol} (hown : own = before ++ c :: rest)
    (hdone : it.done = false) (hname : it.symbolName = c.name) (hweak : it.weakSymbol = c.weakDef)
    (hat : it.At image c.locations rest) (hpassed : ∀ a ∈ before, nameKey a.name ≤ lo) :
    Stands image own lo it rest
  | ended (hdone : it.done = true) (hname : it.symbolName = endName)
    (hpassed : ∀ a ∈ own, nameKey a.name ≤ lo) : Stands image own lo it []

section Stands

variable {image : WeakImage} {own rest : List WeakSymbol} {lo : List Nat} {it : CoalIterator}

lemma Stands.mono {lo' : List Nat} (h : Stands image own lo it rest) (hle : lo ≤ lo') :
    Stands image own lo' it rest := by
  cases h with
  | start hdone hname hat => exact Stands.start hdone hname hat
  | on hown hdone hname hweak hat hpassed =>
    exact Stands.on hown hdone hname hweak hat (fun a ha => (hpassed a ha).trans hle)
  | ended hdone hname hpassed => exact Stands.ended hdone hname (fun a ha => (hpassed a ha).trans hle)

lemma Stands.mark (h : Stands image own lo it rest) (symbolMatches : Bool) :
    Stands image own lo { it with symbolMatches := symbolMatches } rest := by
  cases h with
  | start hdone hname hat => exact Stands.start hdone hname hat
  | on hown hdone hname hweak hat hpassed => exact Stands.on hown hdone hname hweak hat hpassed
  | ended hdone hname hpassed => exact Stands.ended hdone hname hpassed

/-- How often the iterator is still incremented. -/
def stepsLeft (it : CoalIterator) (rest : List WeakSymbol) : Nat :=
  if it.done then 0 else rest.length + 1

lemma Stands.increment (h : Stands image own lo it rest) (hdone : it.done = false)
    (hlo : nameKey it.symbolName ≤ lo) (hsorted : own.Pairwise fun a b => nameKey a.name < nameKey b.name)
    (hfirst : ∀ s ∈ own, nameKey [32] < nameKey s.name) :
    ∃ it' ended rest', incrementCoalIterator image it = .ok (it', ended) ∧
      Stands image own lo it' rest' ∧ it'.done = ended ∧
      (ended = false → it'.symbolMatches = false ∧ nameKey it.symbolName < nameKey it'.symbolName) ∧
      stepsLeft it' rest' + 1 = stepsLeft it rest := by
  unfold stepsLeft
  rw [hdone, if_neg Bool.false_ne_true]
  cases h with
  | start _ hname hat =>
    cases own with
    | nil =>
      obtain ⟨it', hit', hdone', hname'⟩ := increment_nil hat hdone
      exact ⟨it', true, [], hit', Stands.ended hdone' hname' (by simp), hdone', by simp, by simp [hdone']⟩
    | cons c own =>
      obtain ⟨it', hit', hdone', hname', hweak', hmatches', hat'⟩ := increment_cons hat hdone
      refine ⟨it', false, own, hit', ?_, hdone', ?_, by simp [hdone']⟩
      · exact Stands.on (List.nil_append (c :: own)).symm hdone' hname' hweak' hat' (by simp)
      · intro _
        refine ⟨hmatches', ?_⟩
        rw [hname, hname']
        exact hfirst c List.mem_cons_self
  | @on before rest c hown _ hname _ hat hpassed =>
    rw [hname] at hlo
    have hpassed' : ∀ a ∈ before ++ [c], nameKey a.name ≤ lo := by
      intro a ha
      rcases List.mem_append.mp ha with ha | ha
      · exact hpassed a ha
      · rw [List.mem_singleton.mp ha]
        exact hlo
    cases rest with
    | nil =>
      obtain ⟨it', hit', hdone', hname'⟩ := increment_nil hat hdone
      rw [← hown] at hpassed'
      exact ⟨it', true, [], hit', Stands.ended hdone' hname' hpassed', hdone', by simp, by simp [hdone']⟩
    | cons d rest =>
      obtain ⟨it', hit', hdone', hname', hweak', hmatches', hat'⟩ := increment_cons hat hdone
      refine ⟨it', false, rest, hit', ?_, hdone', ?_, by simp [hdone']⟩
      · exact Stands.on (by rw [hown, List.append_assoc]; rfl) hdone' hname' hweak' hat' hpassed'
      · intro _
        refine ⟨hmatches', ?_⟩
        rw [hname, hname']
        rw [hown] at hsorted
        exact (List.pairwise_cons.mp (List.pairwise_append.mp hsorted).2.1).1 d List.mem_cons_self
  | ended hdone' =>
    rw [hdone'] at hdone
    cases hdone

/-- What is still to come, the iterator is at or has before it. -/
lemma Stands.symbolName_le (h : Stands image own lo it rest)
    (hsorted : own.Pairwise fun a b => nameKey a.name < nameKey b.name)
    (hfirst : nameKey [32] ≤ lo) {a : WeakSymbol} (ha : a ∈ own) (hlo : lo < nameKey a.name) :
    it.done = false ∧ (nameKey it.symbolName ≤ lo ∨
      nameKey it.symbolName < nameKey a.name ∨ it.symbolName = a.name) := by
  cases h with
  | start hdone hname hat =>
    rw [hname]
    exact ⟨hdone, Or.inl hfirst⟩
  | @on before rest c hown hdone hname _ hat hpassed =>
    refine ⟨hdone, ?_⟩
    rw [hname]
    rw [hown] at ha hsorted
    rcases List.mem_append.mp ha with ha | ha
    · exact absurd (hpassed a ha) hlo.not_ge
    · rcases List.mem_cons.mp ha with rfl | ha
      · exact Or.inr (Or.inr rfl)
      · exact Or.inr (Or.inl
          ((List.pairwise_cons.mp (List.pairwise_append.mp hsorted).2.1).1 a ha))
  | ended _ _ hpassed => exact absurd (hpassed a ha) hlo.not_ge

/-- The symbol of an iterator that is on its way. -/
lemma Stands.exists_symbol (h : Stands image own lo it rest) (hdone : it.done = false)
    (hfirst : nameKey [32] < nameKey it.symbolName) :
    ∃ c ∈ own, it.symbolName = c.name ∧ it.weakSymbol = c.weakDef ∧ it.At image c.locations rest := by
  cases h with
  | start _ hname hat =>
    rw [hname] at hfirst
    exact absurd hfirst (lt_irrefl _)
  | @on before rest c hown _ hname hweak hat _ =>
    exact ⟨c, by rw [hown]; simp, hname, hweak, hat⟩
  | ended hdone' =>
    rw [hdone'] at hdone
    cases hdone

end Stands

/-! ### All iterators -/

/-- `strcmp` order of the iterators. -/
def keyOf (iterators : Fin n → CoalIterator) (i : Fin n) : List Nat := nameKey (iterators i).symbolName

/-- A symbol that has not been dealt with, and that is not the end. -/
def Pending (lo k : List Nat) : Prop := lo < k ∧ k < nameKey endName

/-- The iterators are in order, and what they have passed is not above the bound. -/
structure Reading (images : Fin n → WeakImage) (symbols : Fin n → List WeakSymbol) (lo : List Nat)
    (rest : Fin n → List WeakSymbol) (s : WeakBindState n) : Prop where
  stands : ∀ i, Stands (images i) (symbols i) lo (s.iterators i) (rest i)
  perm : s.sortedIts.Perm (List.finRange n)
  sorted : s.sortedIts.Pairwise fun a b => keyOf s.iterators a ≤ keyOf s.iterators b
  doneCount : s.doneCount = ∑ i, if (s.iterators i).done then 1 else 0

/-- No symbol above the bound is dealt with. -/
structure InOrder (images : Fin n → WeakImage) (symbols : Fin n → List WeakSymbol) (lo : List Nat)
    (rest : Fin n → List WeakSymbol) (s : WeakBindState n) : Prop
    extends Reading images symbols lo rest s where
  flagged : Flagged (keyOf s.iterators) (Pending lo) (fun i => (s.iterators i).symbolMatches) s.sortedIts
  start_le : nameKey [32] ≤ lo

/-- Before a turn the bound is the lowest symbol. When iterators there are still marked, the symbol
has no definition. -/
structure Walking (images : Fin n → WeakImage) (symbols : Fin n → List WeakSymbol) (lo : List Nat)
    (rest : Fin n → List WeakSymbol) (s : WeakBindState n) : Prop
    extends InOrder images symbols lo rest s where
  lowest : ∀ x xs, s.sortedIts = x :: xs → keyOf s.iterators x = lo
  idle : ∀ i, keyOf s.iterators i = lo → (s.iterators i).symbolMatches = true →
    (s.iterators i).done = false → ∀ j, (s.iterators j).symbolName = (s.iterators i).symbolName →
      (images j).exportedAddress (s.iterators i).symbolName = 0

variable {lo : List Nat} {rest : Fin n → List WeakSymbol} {s s' : WeakBindState n} {i x y : Fin n}
  {xs ys : List (Fin n)} {it' : CoalIterator} {ended : Bool} {name : List UInt8}

/-- The marks and the effects are all that two states may differ in. -/
structure SameWalk (s s' : WeakBindState n) : Prop where
  order : s'.sortedIts = s.sortedIts
  count : s'.doneCount = s.doneCount
  iterators : ∀ i, ∃ symbolMatches, s'.iterators i = { s.iterators i with symbolMatches := symbolMatches }

lemma SameWalk.refl (s : WeakBindState n) : SameWalk s s :=
  ⟨rfl, rfl, fun i => ⟨(s.iterators i).symbolMatches, rfl⟩⟩

lemma SameWalk.done (h : SameWalk s s') (i : Fin n) : (s'.iterators i).done = (s.iterators i).done := by
  obtain ⟨symbolMatches, heq⟩ := h.iterators i
  rw [heq]

lemma SameWalk.keyOf (h : SameWalk s s') (i : Fin n) : keyOf s'.iterators i = keyOf s.iterators i := by
  obtain ⟨symbolMatches, heq⟩ := h.iterators i
  unfold ImageLoader.keyOf
  rw [heq]

lemma Reading.of_sameWalk (h : Reading images symbols lo rest s) (hsame : SameWalk s s') :
    Reading images symbols lo rest s' where
  stands := by
    intro i
    obtain ⟨symbolMatches, heq⟩ := hsame.iterators i
    rw [heq]
    exact (h.stands i).mark symbolMatches
  perm := hsame.order ▸ h.perm
  sorted := by
    rw [hsame.order]
    apply h.sorted.imp
    intro a b hab
    rw [hsame.keyOf a, hsame.keyOf b]
    exact hab
  doneCount := by
    rw [hsame.count, h.doneCount]
    exact Finset.sum_congr rfl (fun i _ => by rw [hsame.done i])

lemma Reading.front_le (h : Reading images symbols lo rest s) (hcons : s.sortedIts = y :: ys)
    (i : Fin n) : keyOf s.iterators y ≤ keyOf s.iterators i := by
  have hi : i ∈ y :: ys := hcons ▸ h.perm.mem_iff.mpr (List.mem_finRange i)
  rcases List.mem_cons.mp hi with rfl | hi
  · exact le_rfl
  · have hsorted := h.sorted
    rw [hcons] at hsorted
    exact (List.pairwise_cons.mp hsorted).1 i hi

lemma sum_change {f g : Fin n → Nat} (x : Fin n) (h : ∀ i, i ≠ x → f i = g i) :
    (∑ i, f i) + g x = (∑ i, g i) + f x := by
  have hrest : ∑ i ∈ Finset.univ.erase x, f i = ∑ i ∈ Finset.univ.erase x, g i :=
    Finset.sum_congr rfl (fun i hi => h i (Finset.ne_of_mem_erase hi))
  rw [← Finset.add_sum_erase Finset.univ f (Finset.mem_univ x),
    ← Finset.add_sum_erase Finset.univ g (Finset.mem_univ x), hrest]
  omega

lemma foldl_setMatches (L : List (Fin n)) (iterators : Fin n → CoalIterator) (i : Fin n) :
    (L.foldl (fun its a => setMatches true a its) iterators) i =
      { iterators i with symbolMatches := (iterators i).symbolMatches || L.contains i } := by
  induction L generalizing iterators with
  | nil => simp
  | cons a L ih =>
    rw [List.foldl_cons, ih]
    by_cases hia : i = a
    · subst hia
      rw [setMatches_self]
      simp
    · rw [setMatches_of_ne true hia]
      simp [hia]

/-- The lowest iterator goes on and moves to its place. -/
def moved (s : WeakBindState n) (x : Fin n) (xs : List (Fin n)) (it' : CoalIterator) (ended : Bool) :
    WeakBindState n where
  iterators := Function.update s.iterators x it'
  sortedIts := sift (keyOf (Function.update s.iterators x it')) x xs
  doneCount := if ended then s.doneCount + 1 else s.doneCount
  effects := s.effects

/-- What a turn does before it looks at the marks. -/
def advanced (s : WeakBindState n) (x : Fin n) (xs : List (Fin n)) (it' : CoalIterator) (ended : Bool) :
    WeakBindState n :=
  let its := Function.update s.iterators x it'
  { moved s x xs it' ended with
    iterators := fun i =>
      { its i with
        symbolMatches := (its i).symbolMatches || (matched (keyOf its) x xs).contains i } }

lemma sameWalk_advanced (s : WeakBindState n) (x : Fin n) (xs : List (Fin n)) (it' : CoalIterator)
    (ended : Bool) : SameWalk (moved s x xs it' ended) (advanced s x xs it' ended) :=
  ⟨rfl, rfl, fun _ => ⟨_, rfl⟩⟩

lemma keyOf_update_of_ne (hi : i ≠ x) :
    keyOf (Function.update s.iterators x it') i = keyOf s.iterators i := by
  unfold keyOf
  rw [Function.update_of_ne hi]

lemma Reading.ne_of_mem_tail (h : Reading images symbols lo rest s) (hcons : s.sortedIts = x :: xs)
    (hi : i ∈ xs) : i ≠ x := by
  rintro rfl
  have hperm := h.perm
  rw [hcons] at hperm
  exact (List.nodup_cons.mp (hperm.nodup_iff.mpr (List.nodup_finRange n))).1 hi

lemma Reading.pairwise_update (h : Reading images symbols lo rest s) (hcons : s.sortedIts = x :: xs) :
    xs.Pairwise fun a b => keyOf (Function.update s.iterators x it') a ≤
      keyOf (Function.update s.iterators x it') b := by
  have hsorted := h.sorted
  rw [hcons] at hsorted
  apply (List.pairwise_cons.mp hsorted).2.imp_of_mem
  intro a b ha hb hab
  rw [keyOf_update_of_ne (h.ne_of_mem_tail hcons ha), keyOf_update_of_ne (h.ne_of_mem_tail hcons hb)]
  exact hab

lemma Reading.turn_eq (h : Reading images symbols lo rest s) (hcons : s.sortedIts = x :: xs)
    (hit' : incrementCoalIterator (images x) (s.iterators x) = .ok (it', ended)) :
    weakBindTurn images useNewWeakBind s =
      processLowest images useNewWeakBind (advanced s x xs it' ended) := by
  have hresort : resort (fun i => nameKey (Function.update s.iterators x it' i).symbolName)
      (setMatches true) x xs (Function.update s.iterators x it') =
      ((advanced s x xs it' ended).sortedIts, (advanced s x xs it' ended).iterators) := by
    change resort (keyOf (Function.update s.iterators x it')) _ _ _ _ = _
    rw [resort_eq (h.pairwise_update hcons)]
    exact congrArg (Prod.mk _) (funext (foldl_setMatches _ _))
  rw [weakBindTurn, hcons]
  dsimp only
  rw [hit']
  dsimp only [Except.bind]
  rw [hresort]
  rfl

lemma doneCount_moved (hdone : (s.iterators x).done = false) (hdone' : it'.done = ended)
    (hcount : s.doneCount = ∑ i, if (s.iterators i).done then 1 else 0) :
    (moved s x xs it' ended).doneCount =
      ∑ i, if ((moved s x xs it' ended).iterators i).done then 1 else 0 := by
  have hsum := sum_change (f := fun i => if ((moved s x xs it' ended).iterators i).done then 1 else 0)
    (g := fun i => if (s.iterators i).done then 1 else 0) x
    (fun i hi => by simp only [moved, Function.update_of_ne hi])
  have hx : (moved s x xs it' ended).iterators x = it' := Function.update_self _ _ _
  rw [hx, hdone, hdone', if_neg Bool.false_ne_true, ← hcount] at hsum
  change (if ended then s.doneCount + 1 else s.doneCount) = _
  cases ended with
  | false =>
    rw [if_neg Bool.false_ne_true] at hsum ⊢
    exact hsum.symm
  | true =>
    rw [if_pos rfl] at hsum ⊢
    exact hsum.symm

lemma Reading.advance (h : Reading images symbols lo rest s) (hcons : s.sortedIts = x :: xs)
    (hdone : (s.iterators x).done = false) (hdone' : it'.done = ended) {restx : List WeakSymbol}
    (hstands' : Stands (images x) (symbols x) lo it' restx) :
    Reading images symbols lo (Function.update rest x restx) (advanced s x xs it' ended) := by
  have hperm := h.perm
  rw [hcons] at hperm
  refine Reading.of_sameWalk ⟨?_, (sift_perm x xs).trans hperm,
    sift_pairwise x (h.pairwise_update hcons), doneCount_moved hdone hdone' h.doneCount⟩
    (sameWalk_advanced s x xs it' ended)
  intro i
  change Stands _ _ _ (Function.update s.iterators x it' i) _
  by_cases hi : i = x
  · rw [hi, Function.update_self, Function.update_self]
    exact hstands'
  · rw [Function.update_of_ne hi, Function.update_of_ne hi]
    exact h.stands i

lemma Stands.symbolName_of_done {image : WeakImage} {own rest : List WeakSymbol} {it : CoalIterator}
    (h : Stands image own lo it rest) (hdone : it.done = true) : it.symbolName = endName := by
  cases h with
  | start hdone' =>
    rw [hdone'] at hdone
    cases hdone
  | on _ hdone' =>
    rw [hdone'] at hdone
    cases hdone
  | ended _ hname => exact hname

lemma Walking.advance (h : Walking images symbols lo rest s) (hlisted : Listed images symbols)
    (hcons : s.sortedIts = x :: xs) (hdone : (s.iterators x).done = false) :
    ∃ (it' : CoalIterator) (ended : Bool) (rest' : Fin n → List WeakSymbol),
      incrementCoalIterator (images x) (s.iterators x) = .ok (it', ended) ∧
      InOrder images symbols lo rest' (advanced s x xs it' ended) ∧
      (∑ i, stepsLeft ((advanced s x xs it' ended).iterators i) (rest' i)) + 1 =
        ∑ i, stepsLeft (s.iterators i) (rest i) ∧
      (ended = true → it'.symbolName = endName) ∧ (ended = false → lo < nameKey it'.symbolName) := by
  have hlow := h.lowest x xs hcons
  obtain ⟨it', ended, restx, hit', hstands', hdone', hnext, hsteps⟩ :=
    (h.stands x).increment hdone hlow.le (hlisted.sorted x) (hlisted.first x)
  have hended : ended = true → it'.symbolName = endName :=
    fun hended => hstands'.symbolName_of_done (hdone'.trans hended)
  have hflag : Pending lo (keyOf (Function.update s.iterators x it') x) →
      (Function.update s.iterators x it' x).symbolMatches = false := by
    rintro ⟨-, hlt⟩
    unfold keyOf at hlt
    rw [Function.update_self] at hlt ⊢
    cases hend : ended with
    | false => exact (hnext hend).1
    | true =>
      rw [hended hend] at hlt
      exact absurd hlt (lt_irrefl _)
  have hflags := h.flagged
  have hnodup := h.perm.nodup_iff.mpr (List.nodup_finRange n)
  rw [hcons] at hflags hnodup
  have hne := fun a (ha : a ∈ xs) => h.ne_of_mem_tail hcons ha
  have hflagged : Flagged (keyOf (Function.update s.iterators x it')) (Pending lo)
      (fun i => (Function.update s.iterators x it' i).symbolMatches) xs := by
    apply hflags.2.congr (fun a ha => keyOf_update_of_ne (hne a ha))
    intro a ha _
    rw [Function.update_of_ne (hne a ha)]
  have hsifted := hflagged.sift (h.pairwise_update hcons) hnodup hflag
  simp only [← List.contains_eq_mem] at hsifted
  refine ⟨it', ended, Function.update rest x restx, hit',
    ⟨h.toReading.advance hcons hdone hdone' hstands', hsifted, h.start_le⟩, ?_, hended,
    fun hend => hlow.ge.trans_lt (hnext hend).2⟩
  have hsum := sum_change
    (f := fun i => stepsLeft (Function.update s.iterators x it' i) (Function.update rest x restx i))
    (g := fun i => stepsLeft (s.iterators i) (rest i)) x
    (fun i hi => by rw [Function.update_of_ne hi, Function.update_of_ne hi])
  rw [Function.update_self, Function.update_self] at hsum
  change (∑ i, stepsLeft (Function.update s.iterators x it' i) (Function.update rest x restx i)) + 1 = _
  omega

lemma InOrder.raise {lo' : List Nat} (h : InOrder images symbols lo rest s) (hle : lo ≤ lo') :
    InOrder images symbols lo' rest s where
  stands := fun i => (h.stands i).mono hle
  perm := h.perm
  sorted := h.sorted
  doneCount := h.doneCount
  flagged := h.flagged.mono (fun _ _ hk => ⟨hle.trans_lt hk.1, hk.2⟩)
  start_le := h.start_le.trans hle

lemma Stands.lt_end {image : WeakImage} {own rest : List WeakSymbol} {it : CoalIterator}
    (h : Stands image own lo it rest) (hdone : it.done = false)
    (hlast : ∀ c ∈ own, nameKey c.name < nameKey endName) : nameKey it.symbolName < nameKey endName := by
  cases h with
  | start _ hname =>
    rw [hname]
    decide
  | @on before rest c hown _ hname =>
    rw [hname]
    apply hlast
    rw [hown]
    simp
  | ended hdone' =>
    rw [hdone'] at hdone
    cases hdone

lemma doneCount_of_all_done (h : InOrder images symbols lo rest s)
    (hall : ∀ i, (s.iterators i).done = true) : s.doneCount = n := by
  rw [h.doneCount, Finset.sum_congr rfl (fun i _ => if_pos (hall i))]
  simp

lemma all_done_of_front (h : InOrder images symbols lo rest s)
    (hlast : ∀ i, ∀ c ∈ symbols i, nameKey c.name < nameKey endName) (hcons : s.sortedIts = y :: ys)
    (hdone : (s.iterators y).done = true) (i : Fin n) : (s.iterators i).done = true := by
  by_contra hi
  rw [Bool.not_eq_true] at hi
  have hlt := (h.stands i).lt_end hi (hlast i)
  have hle := h.front_le hcons i
  unfold keyOf at hle
  rw [(h.stands y).symbolName_of_done hdone] at hle
  exact hle.not_gt hlt

lemma exists_front (h : InOrder images symbols lo rest s) (hcount : s.doneCount ≠ n) :
    ∃ x xs, s.sortedIts = x :: xs := by
  cases hcons : s.sortedIts with
  | cons x xs => exact ⟨x, xs, rfl⟩
  | nil =>
    exfalso
    apply hcount
    apply doneCount_of_all_done h
    intro i
    have hi := h.perm.mem_iff.mpr (List.mem_finRange i)
    rw [hcons] at hi
    exact absurd hi List.not_mem_nil

lemma exists_holder (h : name ∈ sharedNames symbols) : ∃ i, ∃ a ∈ symbols i, a.name = name := by
  have hlen := mem_sharedNames.mp h
  obtain ⟨i, hi⟩ := List.exists_mem_of_length_pos (l := holders symbols name) (by omega)
  exact ⟨i, mem_holders.mp hi⟩

/-- A symbol of two images that is still to come is not below the lowest iterator. -/
lemma front_le_of_shared (h : InOrder images symbols lo rest s) (hlisted : Listed images symbols)
    (hcons : s.sortedIts = y :: ys) (hlo : lo < keyOf s.iterators y)
    (hname : name ∈ sharedNames symbols) (hpending : lo < nameKey name) :
    keyOf s.iterators y ≤ nameKey name ∧ ∃ i, (s.iterators i).done = false := by
  obtain ⟨i, a, ha, rfl⟩ := exists_holder hname
  obtain ⟨hdone, hle⟩ := (h.stands i).symbolName_le (hlisted.sorted i) h.start_le ha hpending
  have hfront := h.front_le hcons i
  refine ⟨?_, i, hdone⟩
  rcases hle with hle | hle | heq
  · exact absurd hle (hlo.trans_le hfront).not_ge
  · exact hfront.trans hle.le
  · rw [← heq]
    exact hfront

lemma atSymbol_of_front (h : InOrder images symbols lo rest s) (hlisted : Listed images symbols)
    (hlast : ∀ i, ∀ c ∈ symbols i, nameKey c.name < nameKey endName) (hcons : s.sortedIts = y :: ys)
    (hlo : lo < keyOf s.iterators y) (hdone : (s.iterators y).done = false) :
    AtSymbol images symbols s.iterators (s.iterators y).symbolName := by
  have hend := (h.stands y).lt_end hdone (hlast y)
  have hstart : nameKey [32] < keyOf s.iterators y := h.start_le.trans_lt hlo
  have hsymbol : ∀ i, (s.iterators i).symbolName = (s.iterators y).symbolName →
      ∃ c ∈ symbols i, (s.iterators i).symbolName = c.name ∧ (s.iterators i).weakSymbol = c.weakDef ∧
        (s.iterators i).At (images i) c.locations (rest i) := by
    intro i hi
    have hdone' : (s.iterators i).done = false := by
      by_contra hcontra
      rw [Bool.not_eq_false] at hcontra
      rw [← hi, (h.stands i).symbolName_of_done hcontra] at hend
      exact lt_irrefl _ hend
    apply (h.stands i).exists_symbol hdone'
    rw [hi]
    exact hstart
  have hholds : ∀ i, (s.iterators i).symbolName = (s.iterators y).symbolName ↔
      i ∈ holders symbols (s.iterators y).symbolName := by
    intro i
    constructor
    · intro hi
      obtain ⟨c, hc, hname, -⟩ := hsymbol i hi
      exact mem_holders.mpr ⟨c, hc, hname.symm.trans hi⟩
    · intro hi
      obtain ⟨a, ha, hname⟩ := mem_holders.mp hi
      have hlt : lo < nameKey a.name := by
        rw [hname]
        exact hlo
      have hfront := h.front_le hcons i
      rcases ((h.stands i).symbolName_le (hlisted.sorted i) h.start_le ha hlt).2 with hle | hle | heq
      · exact absurd hle (hlo.trans_le hfront).not_ge
      · rw [hname] at hle
        exact absurd hle hfront.not_gt
      · rw [heq, hname]
  refine ⟨hholds, ?_⟩
  intro i hi
  obtain ⟨c, hc, hname, hweak, hat⟩ := hsymbol i ((hholds i).mpr hi)
  refine ⟨c, rest i, ?_, hweak, hat⟩
  rw [← (hholds i).mpr hi, hname]
  exact symbolNamed_of_mem (hlisted.sorted i) hc

/-- The lowest iterator is marked exactly when another image has its symbol too. -/
lemma flagged_iff_shared (h : InOrder images symbols lo rest s) (hcons : s.sortedIts = y :: ys)
    (hpending : Pending lo (keyOf s.iterators y))
    (hat : AtSymbol images symbols s.iterators (s.iterators y).symbolName) :
    (s.iterators y).symbolMatches = true ↔ (s.iterators y).symbolName ∈ sharedNames symbols := by
  have hflagged := h.flagged
  have hperm := h.perm
  rw [hcons] at hflagged hperm
  rw [mem_sharedNames, hflagged.1 hpending, ← hat.filter_eq]
  have hlen := (hperm.filter fun i => (s.iterators i).symbolName = (s.iterators y).symbolName).length_eq
  rw [List.filter_cons, if_pos (decide_eq_true rfl), List.length_cons] at hlen
  rw [← hlen]
  constructor
  · rintro ⟨z, hz, hkey⟩
    have hmem : z ∈ ys.filter fun i => (s.iterators i).symbolName = (s.iterators y).symbolName :=
      List.mem_filter.mpr ⟨hz, decide_eq_true (nameKey_injective hkey)⟩
    have hpos := List.length_pos_of_mem hmem
    omega
  · intro hle
    obtain ⟨z, hz⟩ := List.exists_mem_of_length_pos
      (l := ys.filter fun i => (s.iterators i).symbolName = (s.iterators y).symbolName) (by omega)
    obtain ⟨hz, hname⟩ := List.mem_filter.mp hz
    exact ⟨z, hz, congrArg nameKey (of_decide_eq_true hname)⟩

lemma sameWalk_cleared (s : WeakBindState n) (name : List UInt8) (effects : List (Effect n)) :
    SameWalk s
      { s with
        iterators := cleared name (List.finRange n) s.iterators
        effects := effects } := by
  refine ⟨rfl, rfl, fun i => ?_⟩
  by_cases hi : (s.iterators i).symbolName = name
  · exact ⟨false, cleared_of_eq hi⟩
  · exact ⟨(s.iterators i).symbolMatches, cleared_of_ne hi⟩

/-- Taking marks away at the bound changes nothing above it. -/
lemma InOrder.clear (h : InOrder images symbols lo rest s) (hname : nameKey name ≤ lo)
    (effects : List (Effect n)) :
    InOrder images symbols lo rest
      { s with
        iterators := cleared name (List.finRange n) s.iterators
        effects := effects } := by
  have hsame := sameWalk_cleared s name effects
  refine ⟨h.toReading.of_sameWalk hsame, h.flagged.congr (fun a _ => hsame.keyOf a) ?_, h.start_le⟩
  intro a _ hpending
  have hne : (s.iterators a).symbolName ≠ name := by
    intro heq
    unfold Pending keyOf at hpending
    rw [heq] at hpending
    exact hname.not_gt hpending.1
  exact congrArg CoalIterator.symbolMatches (cleared_of_ne hne)

variable (useNewWeakBind) in
lemma Walking.turn (h : Walking images symbols lo rest s) (hlisted : Listed images symbols)
    (hlast : ∀ i, ∀ c ∈ symbols i, nameKey c.name < nameKey endName) (hcount : s.doneCount ≠ n) :
    ∃ s' lo' rest', weakBindTurn images useNewWeakBind s = .ok s' ∧
      Walking images symbols lo' rest' s' ∧
      (∑ i, stepsLeft (s'.iterators i) (rest' i)) + 1 = ∑ i, stepsLeft (s.iterators i) (rest i) ∧
      s'.effects ++ (above nameKey lo' (sharedNames symbols)).flatMap
          (coalesced images symbols useNewWeakBind) =
        s.effects ++ (above nameKey lo (sharedNames symbols)).flatMap
          (coalesced images symbols useNewWeakBind) := by
  obtain ⟨x, xs, hcons⟩ := exists_front h.toInOrder hcount
  have hdone : (s.iterators x).done = false := by
    by_contra hcontra
    rw [Bool.not_eq_false] at hcontra
    exact hcount (doneCount_of_all_done h.toInOrder (all_done_of_front h.toInOrder hlast hcons hcontra))
  obtain ⟨it', ended, rest', hit', horder, hsteps, hended, habove⟩ := h.advance hlisted hcons hdone
  rw [h.turn_eq hcons hit']
  have hx : (advanced s x xs it' ended).iterators x =
      { it' with symbolMatches := ((advanced s x xs it' ended).iterators x).symbolMatches } := by
    simp only [advanced, Function.update_self]
  have hname : ∀ i, i ≠ x →
      ((advanced s x xs it' ended).iterators i).symbolName = (s.iterators i).symbolName := by
    intro i hi
    simp only [advanced, Function.update_of_ne hi]
  have hsame : ∀ i, i ≠ x → keyOf (advanced s x xs it' ended).iterators i ≠
      keyOf (advanced s x xs it' ended).iterators x →
      (advanced s x xs it' ended).iterators i = s.iterators i := by
    intro i hi hkey
    have hunmarked : i ∉ matched (keyOf (Function.update s.iterators x it')) x xs := fun hmem =>
      hkey (mem_of_mem_matched hmem).2
    simp [advanced, Function.update_of_ne hi, hunmarked]
  have heffects : (advanced s x xs it' ended).effects = s.effects := rfl
  generalize advanced s x xs it' ended = s₁ at *
  -- the iterator that was incremented is above the bound now
  have hlowx : lo < keyOf s₁.iterators x := by
    unfold keyOf
    rw [hx]
    cases hend : ended with
    | false => exact habove hend
    | true =>
      have hlt := (h.stands x).lt_end hdone (hlast x)
      have hlow := h.lowest x xs hcons
      unfold keyOf at hlow
      rw [hlow] at hlt
      dsimp only
      rw [hended hend]
      exact hlt
  have hlow : ∀ i, lo ≤ keyOf s₁.iterators i := by
    intro i
    by_cases hi : i = x
    · rw [hi]
      exact hlowx.le
    · have hfront := h.front_le hcons i
      rw [h.lowest x xs hcons] at hfront
      unfold keyOf
      rw [hname i hi]
      exact hfront
  obtain ⟨y, ys, hcons₁⟩ : ∃ y ys, s₁.sortedIts = y :: ys := by
    cases hcons₁ : s₁.sortedIts with
    | cons y ys => exact ⟨y, ys, rfl⟩
    | nil =>
      have hx := horder.perm.mem_iff.mpr (List.mem_finRange x)
      rw [hcons₁] at hx
      exact absurd hx List.not_mem_nil
  rw [processLowest, hcons₁]
  dsimp only
  have hold : ∀ i, keyOf s₁.iterators i = lo → i ≠ x ∧ s₁.iterators i = s.iterators i := by
    intro i hi
    have hix : i ≠ x := by
      rintro rfl
      exact hlowx.ne' hi
    exact ⟨hix, hsame i hix (by rw [hi]; exact hlowx.ne)⟩
  have hidle : ∀ i, keyOf s₁.iterators i = lo → (s₁.iterators i).symbolMatches = true →
      (s₁.iterators i).done = false → ∀ j, (s₁.iterators j).symbolName = (s₁.iterators i).symbolName →
        (images j).exportedAddress (s₁.iterators i).symbolName = 0 := by
    intro i hi hflag hdonei j hj
    have hjx : j ≠ x := by
      rintro rfl
      apply hlowx.ne'
      rw [← hi]
      exact congrArg nameKey hj
    have hi' : keyOf s.iterators i = lo := by
      unfold keyOf
      rw [← (hold i hi).2]
      exact hi
    rw [hname j hjx] at hj
    rw [(hold i hi).2] at hflag hdonei hj ⊢
    exact h.idle i hi' hflag hdonei j hj
  rcases (hlow y).eq_or_lt with hy | hy
  · -- the next iterator is at the same symbol, which has no definition if it is marked
    have hwalking : Walking images symbols lo rest' s₁ := by
      refine ⟨horder, ?_, hidle⟩
      intro z zs hz
      rw [hcons₁] at hz
      cases hz
      exact hy.symm
    refine ⟨s₁, lo, rest', ?_, hwalking, hsteps, by rw [heffects]⟩
    by_cases hflag : ((s₁.iterators y).symbolMatches && !(s₁.iterators y).done) = true
    · rw [if_pos hflag]
      rw [Bool.and_eq_true, Bool.not_eq_true'] at hflag
      unfold coalesce
      rw [pickTarget_of_zero (fun j _ hj => hidle y hy.symm hflag.1 hflag.2 j hj)]
    · rw [if_neg hflag]
  · have hlowest : ∀ z zs, s₁.sortedIts = z :: zs → keyOf s₁.iterators z = keyOf s₁.iterators y := by
      intro z zs hz
      rw [hcons₁] at hz
      cases hz
      rfl
    cases hdoney : (s₁.iterators y).done with
    | true =>
      have hall := all_done_of_front horder hlast hcons₁ hdoney
      refine ⟨s₁, keyOf s₁.iterators y, rest', by simp, ⟨horder.raise hy.le, hlowest, ?_⟩, hsteps, ?_⟩
      · intro i _ _ hi
        rw [hall i] at hi
        cases hi
      · rw [heffects, above_congr hy.le]
        intro name hshared hpending
        obtain ⟨-, i, hi⟩ := front_le_of_shared horder hlisted hcons₁ hy hshared hpending
        rw [hall i] at hi
        cases hi
    | false =>
      have hat := atSymbol_of_front horder hlisted hlast hcons₁ hy hdoney
      have hpending : Pending lo (keyOf s₁.iterators y) :=
        ⟨hy, (horder.stands y).lt_end hdoney (hlast y)⟩
      have hiff := flagged_iff_shared horder hcons₁ hpending hat
      have hge : ∀ name ∈ sharedNames symbols, lo < nameKey name →
          keyOf s₁.iterators y ≤ nameKey name := fun name hshared hlt =>
        (front_le_of_shared horder hlisted hcons₁ hy hshared hlt).1
      by_cases hflag : (s₁.iterators y).symbolMatches = true
      · have hcons' := above_eq_cons pairwise_sharedNames (hiff.mp hflag) hy hge
        rw [hflag, Bool.not_false, Bool.and_true, if_pos rfl, hcons', List.flatMap_cons]
        cases hdefinition : definition images symbols (s₁.iterators y).symbolName with
        | none =>
          have hnothing : coalesced images symbols useNewWeakBind (s₁.iterators y).symbolName = [] := by
            unfold coalesced
            rw [hdefinition]
          refine ⟨s₁, keyOf s₁.iterators y, rest', hat.coalesce_none hlisted hdefinition,
            ⟨horder.raise hy.le, hlowest, ?_⟩, hsteps, ?_⟩
          · intro i hi _ _ j hj
            have hi' := nameKey_injective hi
            rw [hi'] at hj ⊢
            have hnone := (Option.or_eq_none_iff.mp hdefinition).2
            have hj' := List.find?_eq_none.mp hnone j ((hat.holds j).mp hj)
            simpa using hj'
          · rw [hnothing, heffects]
            rfl
        | some target =>
          have hsame₁ := sameWalk_cleared s₁ (s₁.iterators y).symbolName
            (s₁.effects ++ coalesced images symbols useNewWeakBind (s₁.iterators y).symbolName)
          refine ⟨_, keyOf s₁.iterators y, rest', hat.coalesce_some hlisted hdefinition,
            ⟨(horder.raise hy.le).clear le_rfl _, ?_, ?_⟩, ?_, ?_⟩
          · intro z zs hz
            rw [hsame₁.keyOf, hlowest z zs hz]
          · intro i hi hmatches
            rw [hsame₁.keyOf] at hi
            dsimp only at hmatches
            rw [cleared_of_eq (nameKey_injective hi)] at hmatches
            cases hmatches
          · rw [← hsteps]
            congr 1
            apply Finset.sum_congr rfl
            intro i _
            unfold stepsLeft
            rw [hsame₁.done]
          · rw [heffects]
            change _ ++ _ ++ List.flatMap _ (above nameKey (nameKey (s₁.iterators y).symbolName) _) = _
            rw [List.append_assoc]
      · have hflag' := hflag
        rw [Bool.not_eq_true] at hflag
        refine ⟨s₁, keyOf s₁.iterators y, rest', by simp [hflag], ⟨horder.raise hy.le, hlowest, ?_⟩,
          hsteps, ?_⟩
        · -- no other iterator is at the symbol
          intro i hi hmatches
          exfalso
          have hmem : i ∈ y :: ys := hcons₁ ▸ horder.perm.mem_iff.mpr (List.mem_finRange i)
          rcases List.mem_cons.mp hmem with rfl | hmem
          · exact hflag' hmatches
          · have hflagged := horder.flagged
            rw [hcons₁] at hflagged
            exact hflag' ((hflagged.1 hpending).mpr ⟨i, hmem, hi⟩)
        · rw [heffects, above_congr hy.le]
          intro name hshared hlt
          refine lt_of_le_of_ne (hge name hshared hlt) ?_
          intro heq
          apply hflag'
          rw [hiff, nameKey_injective heq]
          exact hshared

lemma all_done_of_doneCount (h : s.doneCount = ∑ i, if (s.iterators i).done then 1 else 0)
    (hcount : s.doneCount = n) (i : Fin n) : (s.iterators i).done = true := by
  by_contra hi
  have hlt : (∑ i, if (s.iterators i).done then 1 else 0) < ∑ _i : Fin n, 1 := by
    apply Finset.sum_lt_sum
    · intro j _
      split_ifs
      · exact le_rfl
      · exact Nat.zero_le 1
    · exact ⟨i, Finset.mem_univ i, by rw [if_neg hi]; exact Nat.zero_lt_one⟩
  rw [← h, hcount] at hlt
  simp at hlt

lemma nothing_left (h : InOrder images symbols lo rest s) (hlisted : Listed images symbols)
    (hcount : s.doneCount = n) : above nameKey lo (sharedNames symbols) = [] := by
  apply List.eq_nil_iff_forall_not_mem.mpr
  intro name hmem
  obtain ⟨hname, hlo⟩ := mem_above.mp hmem
  obtain ⟨i, a, ha, rfl⟩ := exists_holder hname
  have hdone := ((h.stands i).symbolName_le (hlisted.sorted i) h.start_le ha hlo).1
  rw [all_done_of_doneCount h.doneCount hcount i] at hdone
  cases hdone

variable (useNewWeakBind) in
lemma Walking.run (h : Walking images symbols lo rest s) (hlisted : Listed images symbols)
    (hlast : ∀ i, ∀ c ∈ symbols i, nameKey c.name < nameKey endName) {fuel : Nat}
    (hfuel : ∑ i, stepsLeft (s.iterators i) (rest i) ≤ fuel) :
    ∃ s', weakBindLoop images useNewWeakBind fuel s = some (.ok s') ∧
      s'.effects = s.effects ++ (above nameKey lo (sharedNames symbols)).flatMap
        (coalesced images symbols useNewWeakBind) := by
  induction fuel generalizing s lo rest with
  | zero =>
    by_cases hcount : s.doneCount = n
    · refine ⟨s, by rw [weakBindLoop, if_pos hcount], ?_⟩
      rw [nothing_left h.toInOrder hlisted hcount]
      simp
    · obtain ⟨s', lo', rest', -, -, hsteps, -⟩ :=
        h.turn useNewWeakBind hlisted hlast hcount
      omega
  | succ fuel ih =>
    by_cases hcount : s.doneCount = n
    · refine ⟨s, by rw [weakBindLoop, if_pos hcount], ?_⟩
      rw [nothing_left h.toInOrder hlisted hcount]
      simp
    · obtain ⟨s', lo', rest', hturn, hwalking, hsteps, heffects⟩ :=
        h.turn useNewWeakBind hlisted hlast hcount
      obtain ⟨s'', hloop, heffects'⟩ := ih hwalking (by omega)
      refine ⟨s'', ?_, heffects'.trans heffects⟩
      rw [weakBindLoop, if_neg hcount, hturn]
      exact hloop

def Stuck (i : Fin n) (s : WeakBindState n) : Prop :=
  (s.iterators i).done = false ∨
    (∃ x xs, s.sortedIts = x :: xs ∧ (s.iterators x).done = true) ∧ ∃ j, (s.iterators j).done = false

lemma Stuck.of_sameWalk (h : Stuck i s) (hsame : SameWalk s s') : Stuck i s' := by
  rcases h with h | ⟨⟨x, xs, hcons, hx⟩, j, hj⟩
  · exact Or.inl ((hsame.done i).trans h)
  · exact Or.inr ⟨⟨x, xs, hsame.order.trans hcons, (hsame.done x).trans hx⟩, j, (hsame.done j).trans hj⟩

lemma sameWalk_bindUses {target : Fin n} {value : UInt64} {L : List (Fin n)}
    (h : bindUses images name target value L s = .ok s') : SameWalk s s' := by
  have hset : ∀ (s : WeakBindState n) (i : Fin n) (effects : List (Effect n)) (s' : WeakBindState n),
      SameWalk { s with iterators := setMatches false i s.iterators, effects := effects } s' →
        SameWalk s s' := by
    intro s i effects s' h
    refine ⟨h.order, h.count, ?_⟩
    intro j
    obtain ⟨symbolMatches, heq⟩ := h.iterators j
    dsimp only at heq
    by_cases hji : j = i
    · subst hji
      rw [setMatches_self] at heq
      exact ⟨symbolMatches, heq⟩
    · rw [setMatches_of_ne false hji] at heq
      exact ⟨symbolMatches, heq⟩
  induction L generalizing s with
  | nil =>
    cases h
    exact SameWalk.refl _
  | cons i L ih =>
    rw [bindUses] at h
    split_ifs at h with hname hbound
    · exact hset s i s.effects s' (ih h)
    · obtain ⟨locations, -, h⟩ := bind_eq_ok h
      exact hset s i _ s' (ih h)
    · exact ih h

lemma sameWalk_coalesce
    (h : ∀ i, (s.iterators i).symbolName = name →
      ∃ locations, updateUsesCoalIterator (images i) (s.iterators i) = .ok locations)
    : ∃ s', coalesce images useNewWeakBind name s = .ok s' ∧ SameWalk s s' := by
  unfold coalesce
  split
  · exact ⟨s, rfl, SameWalk.refl s⟩
  · rename_i value target _
    by_cases hvalue : value ≠ 0
    · rw [if_pos hvalue]
      have hlocations : ∀ i, ∃ locations, (s.iterators i).symbolName = name →
          updateUsesCoalIterator (images i) (s.iterators i) = .ok locations := by
        intro i
        by_cases hi : (s.iterators i).symbolName = name
        · obtain ⟨locations, heq⟩ := h i hi
          exact ⟨locations, fun _ => heq⟩
        · exact ⟨[], fun heq => absurd heq hi⟩
      choose locations huses using hlocations
      have hbind := @bindUses_eq n images name target value _ _ s (List.nodup_finRange n)
        (fun i _ => huses i)
      have hsame := sameWalk_bindUses hbind
      rw [hbind]
      dsimp only [Except.bind]
      by_cases hmap : (useNewWeakBind && (images target).neverUnload) = true
      · rw [if_pos hmap]
        exact ⟨_, rfl, hsame.order, hsame.count, hsame.iterators⟩
      · rw [if_neg hmap]
        exact ⟨_, rfl, hsame⟩
    · rw [if_neg hvalue]
      exact ⟨s, rfl, SameWalk.refl s⟩

section Stands

variable {image : WeakImage} {own rest : List WeakSymbol} {hi : List Nat} {it : CoalIterator}

lemma Stands.of_not_done (h : Stands image own hi it rest) (hdone : it.done = false) :
    it.symbolName = [32] ∨ ∃ c ∈ own, it.symbolName = c.name := by
  cases h with
  | start _ hname => exact Or.inl hname
  | @on before rest c hown _ hname =>
    right
    exact ⟨c, by rw [hown]; simp, hname⟩
  | ended hdone' =>
    rw [hdone'] at hdone
    cases hdone

lemma Stands.exists_uses (h : Stands image own hi it rest) (hname : it.symbolName ≠ endName) :
    ∃ locations, updateUsesCoalIterator image it = .ok locations := by
  cases h with
  | start _ _ hat => exact ⟨_, updateUses_of_at hat⟩
  | on _ _ _ _ hat => exact ⟨_, updateUses_of_at hat⟩
  | ended _ hname' => exact absurd hname' hname

lemma Stands.end_lt (h : Stands image own hi it []) (hdone : it.done = false)
    (hsorted : own.Pairwise fun a b => nameKey a.name < nameKey b.name)
    (hlate : ∃ c ∈ own, nameKey endName < nameKey c.name) :
    nameKey endName < nameKey it.symbolName := by
  obtain ⟨c, hc, hclate⟩ := hlate
  cases h with
  | start => exact absurd hc List.not_mem_nil
  | @on before _ d hown _ hname =>
    rw [hown] at hsorted hc
    rw [hname]
    rcases List.mem_append.mp hc with hc | hc
    · exact hclate.trans ((List.pairwise_append.mp hsorted).2.2 c hc d (List.mem_singleton_self d))
    · rw [← List.mem_singleton.mp hc]
      exact hclate
  | ended hdone' =>
    rw [hdone'] at hdone
    cases hdone

end Stands

variable (useNewWeakBind) in
/-- Looking at the marks never fails, and leaves the walk as it is. -/
lemma Reading.processLowest {hi : List Nat} (h : Reading images symbols hi rest s)
    (hnames : ∀ i, ∀ c ∈ symbols i, c.name ≠ endName) :
    ∃ s', processLowest images useNewWeakBind s = .ok s' ∧ SameWalk s s' := by
  unfold ImageLoader.processLowest
  split
  · exact ⟨s, rfl, SameWalk.refl s⟩
  · rename_i x xs _
    split_ifs with hflag
    · rw [Bool.and_eq_true, Bool.not_eq_true'] at hflag
      apply sameWalk_coalesce
      intro i hi
      apply (h.stands i).exists_uses
      rw [hi]
      exact ((h.stands x).of_not_done hflag.2).elim (fun hname => by rw [hname]; decide)
        (fun ⟨c, hc, hname⟩ => by rw [hname]; exact hnames x c hc)
    · exact ⟨s, rfl, SameWalk.refl s⟩

variable (useNewWeakBind) in
/-- An image with a symbol behind the end keeps the walk from ending: its iterator comes to the end
before the others, and a lowest iterator that is done stays where it is. -/
lemma Stuck.turn {hi : List Nat} (h : Stuck i s) (hreading : Reading images symbols hi rest s)
    (hlisted : Listed images symbols) (hn : 2 ≤ n) (hnames : ∀ i, ∀ c ∈ symbols i, c.name ≠ endName)
    (hhi : ∀ i, ∀ c ∈ symbols i, nameKey c.name ≤ hi) (hstart : nameKey [32] ≤ hi)
    (hlate : ∃ c ∈ symbols i, nameKey endName < nameKey c.name) :
    ∃ s' rest', weakBindTurn images useNewWeakBind s = .ok s' ∧
      Reading images symbols hi rest' s' ∧ Stuck i s' := by
  cases hcons : s.sortedIts with
  | nil =>
    refine ⟨s, rest, ?_, hreading, h⟩
    rw [weakBindTurn, hcons]
  | cons x xs =>
    cases hdone : (s.iterators x).done with
    | true =>
      have hit' : incrementCoalIterator (images x) (s.iterators x) = .ok (s.iterators x, false) := by
        rw [incrementCoalIterator, if_pos hdone]
      have hmoved : moved s x xs (s.iterators x) false = s := by
        have hsift : sift (keyOf s.iterators) x xs = s.sortedIts := by
          rw [hcons]
          exact sift_of_le fun y _ => hreading.front_le hcons y
        simp [moved, hsift]
      have hsame : SameWalk s (advanced s x xs (s.iterators x) false) := by
        have hsame := sameWalk_advanced s x xs (s.iterators x) false
        rwa [hmoved] at hsame
      have hreading' := hreading.of_sameWalk hsame
      obtain ⟨s', hs', hsame'⟩ := hreading'.processLowest useNewWeakBind hnames
      exact ⟨s', rest, (hreading.turn_eq hcons hit').trans hs', hreading'.of_sameWalk hsame',
        (h.of_sameWalk hsame).of_sameWalk hsame'⟩
    | false =>
      have hi' : (s.iterators i).done = false := by
        rcases h with h | ⟨⟨y, ys, hcons', hy⟩, -⟩
        · exact h
        · rw [hcons] at hcons'
          cases hcons'
          rw [hdone] at hy
          cases hy
      have hle : nameKey (s.iterators x).symbolName ≤ hi := by
        rcases (hreading.stands x).of_not_done hdone with hname | ⟨c, hc, hname⟩
        · rw [hname]
          exact hstart
        · rw [hname]
          exact hhi x c hc
      obtain ⟨it', ended, restx, hit', hstands', hdone', -, hsteps⟩ :=
        (hreading.stands x).increment hdone hle (hlisted.sorted x) (hlisted.first x)
      have hreading' := hreading.advance hcons hdone hdone' hstands'
      have hother : ∀ j, j ≠ x → ((moved s x xs it' ended).iterators j).done = (s.iterators j).done :=
        fun j hj => congrArg CoalIterator.done (Function.update_of_ne hj _ _)
      have hself : ((moved s x xs it' ended).iterators x).done = ended := by
        simp only [moved, Function.update_self, hdone']
      have hstuck : Stuck i (moved s x xs it' ended) := by
        by_cases hix : i = x
        · subst hix
          cases hend : ended with
          | false =>
            rw [hend] at hself
            exact Or.inl hself
          | true =>
            rw [hend] at hself hother
            right
            -- the last symbol of the image is behind the end, and so are all other iterators
            have hnone : rest i = [] := by
              unfold stepsLeft at hsteps
              rw [hdone, hdone', hend, if_pos rfl, if_neg Bool.false_ne_true] at hsteps
              exact List.length_eq_zero_iff.mp (by omega)
            have hlast : nameKey endName < keyOf s.iterators i := by
              have hstands := hreading.stands i
              rw [hnone] at hstands
              exact hstands.end_lt hdone (hlisted.sorted i) hlate
            have hothers : ∀ j, (s.iterators j).done = false := by
              intro j
              by_contra hj
              rw [Bool.not_eq_false] at hj
              have hlt := hlast.trans_le (hreading.front_le hcons j)
              unfold keyOf at hlt
              rw [(hreading.stands j).symbolName_of_done hj] at hlt
              exact lt_irrefl _ hlt
            have hfront : sift (keyOf (Function.update s.iterators i it')) i xs = i :: xs := by
              apply sift_of_le
              intro y hy
              rw [keyOf_update_of_ne (hreading.ne_of_mem_tail hcons hy)]
              unfold keyOf
              rw [Function.update_self, hstands'.symbolName_of_done (hdone'.trans hend)]
              exact (hlast.trans_le (hreading.front_le hcons y)).le
            obtain ⟨j, hj⟩ : ∃ j : Fin n, j ≠ i := by
              have : Nontrivial (Fin n) := Fin.nontrivial_iff_two_le.mpr hn
              exact exists_ne i
            exact ⟨⟨i, xs, hfront, hself⟩, j, (hother j hj).trans (hothers j)⟩
        · exact Or.inl ((hother i hix).trans hi')
      obtain ⟨s', hs', hsame'⟩ := hreading'.processLowest useNewWeakBind hnames
      exact ⟨s', _, (hreading.turn_eq hcons hit').trans hs', hreading'.of_sameWalk hsame',
        (hstuck.of_sameWalk (sameWalk_advanced s x xs it' ended)).of_sameWalk hsame'⟩

/-- A walk that is stuck is not at its end. -/
lemma Stuck.doneCount_ne (h : Stuck i s)
    (hcount : s.doneCount = ∑ i, if (s.iterators i).done then 1 else 0) : s.doneCount ≠ n := by
  intro hn
  have hall := all_done_of_doneCount hcount hn
  rcases h with h | ⟨-, j, hj⟩
  · rw [hall i] at h
    cases h
  · rw [hall j] at hj
    cases hj

variable (useNewWeakBind) in
lemma Stuck.run {hi : List Nat} (h : Stuck i s) (hreading : Reading images symbols hi rest s)
    (hlisted : Listed images symbols) (hn : 2 ≤ n) (hnames : ∀ i, ∀ c ∈ symbols i, c.name ≠ endName)
    (hhi : ∀ i, ∀ c ∈ symbols i, nameKey c.name ≤ hi) (hstart : nameKey [32] ≤ hi)
    (hlate : ∃ c ∈ symbols i, nameKey endName < nameKey c.name) (fuel : Nat) :
    weakBindLoop images useNewWeakBind fuel s = none := by
  induction fuel generalizing s rest with
  | zero => rw [weakBindLoop, if_neg (h.doneCount_ne hreading.doneCount)]
  | succ fuel ih =>
    obtain ⟨s', rest', hturn, hreading', h'⟩ :=
      h.turn useNewWeakBind hreading hlisted hn hnames hhi hstart hlate
    rw [weakBindLoop, if_neg (h.doneCount_ne hreading.doneCount), hturn]
    exact ih h' hreading'

section TwoImages

end TwoImages

end Dyld.ImageLoader
