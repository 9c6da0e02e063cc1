import Dyld.Cache.ImpCaches

/-!
# The search for shifts and masks

`IMPCachesBuilder::findShiftsAndMasks`: an iterative search over all classes, with
multi-step backtracking, a snapshot of the longest stack seen, and classes that are dropped
together with those that inherit from them in a flattened hierarchy. An assertion that fails
ends the run with `none`.
-/

namespace Dyld.IMPCaches

structure ClassLocator where
  installName : String
  segmentIndex : Nat
  segmentOffset : Nat
  deriving DecidableEq, Repr

/-- The fields of a class that the search only reads. -/
structure ClassData (ι : Type) where
  methods : List ι
  name : String
  isPartOfDuplicateSet : Bool
  flatteningRootSuperclass : Option ClassLocator
  flatteningRootName : String
  flattenedSuperclasses : List String

structure BacktrackingState (ι : Type) where
  currentAttemptIndex : Nat
  attempts : List PlacementAttempt
  result : Option (Result ι)
  randomNumberGenerator : Nat

/-- `operator==` of the states, which does not look at the attempts or the result. -/
def BacktrackingState.same {ι : Type} (s t : BacktrackingState ι) : Bool :=
  s.currentAttemptIndex == t.currentAttemptIndex &&
    s.randomNumberGenerator == t.randomNumberGenerator

/-- The local variables of `findShiftsAndMasks`, with the selectors and classes it changes. -/
structure Search (ι : Type) where
  world : World ι Nat
  backtrackingStack : List (BacktrackingState ι)
  bestSolutionSnapshot : List (BacktrackingState ι)
  currentClassIndex : Nat
  backtrackingLength : Nat
  backtrackingAttempts : Nat
  numberOfDroppedClasses : Int
  randomNumberGenerator : Nat

section Search

variable {ι : Type} [DecidableEq ι] (choices : Choices ι) (allClasses : List (ClassData ι))

def methodsAt (i : Nat) : List ι := (allClasses[i]?.map ClassData.methods).getD []

def isPartOfDuplicateSetAt (i : Nat) : Bool :=
  (allClasses[i]?.map ClassData.isPartOfDuplicateSet).getD false

/-- The test of `forEachClassInFlatteningHierarchy` for two different classes. -/
def inFlatteningHierarchy (parentClass c : ClassData ι) : Bool :=
  parentClass.flatteningRootSuperclass.isSome && c.flatteningRootSuperclass.isSome &&
    c.flatteningRootSuperclass == parentClass.flatteningRootSuperclass &&
    c.flatteningRootName == parentClass.flatteningRootName &&
    c.flattenedSuperclasses.contains parentClass.name

def dropsWith (classes : Nat → ClassState) (k i : Nat) : Bool :=
  i != k && (classes i).shouldGenerateImpCache &&
    match allClasses[k]?, allClasses[i]? with
    | some droppedClass, some c => inFlatteningHierarchy droppedClass c
    | _, _ => false

def dropClasses (classes : Nat → ClassState) (k : Nat) : Nat → ClassState := fun i =>
  if i = k then { classes i with shouldGenerateImpCache := false }
  else if dropsWith allClasses classes k i then
    { classes i with shouldGenerateImpCache := false
                     droppedBecauseFlatteningSuperclassWasDropped := true }
  else classes i

def dropClass (s : Search ι) : Search ι :=
  let k := s.currentClassIndex
  { s with
    world := { s.world with classes := dropClasses allClasses s.world.classes k }
    numberOfDroppedClasses := s.numberOfDroppedClasses +
      ((List.range allClasses.length).filter (dropsWith allClasses s.world.classes k)).length + 1
    currentClassIndex := k + 1
    backtrackingStack := s.backtrackingStack ++ [⟨0, [], none, s.randomNumberGenerator⟩] }

/-- Undoes the last state of the stack. A dropped class has no result: there is nothing to undo. -/
def backtrackLast (s : Search ι) : Option (Search ι) :=
  match s.backtrackingStack.getLast? with
  | none => none
  | some last =>
    let i := s.backtrackingStack.length - 1
    if i = 0 then none
    else some (match last.result with
      | none => { s with numberOfDroppedClasses := s.numberOfDroppedClasses - 1
                         backtrackingStack := s.backtrackingStack.dropLast }
      | some result => { s with world := s.world.backtrack (methodsAt allClasses) i result
                                backtrackingStack := s.backtrackingStack.dropLast })

def backtrackTimes : Nat → Search ι → Option (Search ι)
  | 0, s => some s
  | n + 1, s => (backtrackLast allClasses s).bind (backtrackTimes n)

/-- Applies one state of the snapshot again. -/
def replayState (s : Search ι) (state : BacktrackingState ι) : Option (Search ι) :=
  match state.result with
  | none => some { s with numberOfDroppedClasses := s.numberOfDroppedClasses + 1
                          backtrackingStack := s.backtrackingStack ++ [state] }
  | some _ =>
    match state.attempts[state.currentAttemptIndex]? with
    | none => none
    | some attempt =>
      let i := s.backtrackingStack.length
      let r := s.world.applyAttempt choices (methodsAt allClasses) i attempt
        state.randomNumberGenerator
      if r.2.1.success then
        let c := r.1.classes i
        let c := if c.droppedBecauseFlatteningSuperclassWasDropped then c
          else { c with shouldGenerateImpCache := true }
        some { s with world := { r.1 with classes := Function.update r.1.classes i c }
                      backtrackingStack := s.backtrackingStack ++ [state] }
      else none

def replayStates : List (BacktrackingState ι) → Search ι → Option (Search ι)
  | [], s => some s
  | state :: states, s => (replayState choices allClasses s state).bind (replayStates states)

def firstDifferentStep : List (BacktrackingState ι) → List (BacktrackingState ι) → Nat
  | s :: stack, t :: snapshot => if s.same t then firstDifferentStep stack snapshot + 1 else 0
  | _, _ => 0

def resetToSnapshot (s : Search ι) : Option (Search ι) :=
  let n := firstDifferentStep s.backtrackingStack s.bestSolutionSnapshot
  (backtrackTimes allClasses (s.backtrackingStack.length - n) s).bind
    (replayStates choices allClasses (s.bestSolutionSnapshot.drop n))

/-- Tries the attempts in order, from the one at `operationIndex` on. -/
def tryAttempts (k : Nat) : List PlacementAttempt → Nat → World ι Nat → Nat →
    World ι Nat × Option (Result ι × Nat × Nat) × Nat
  | [], _, world, g => (world, none, g)
  | attempt :: attempts, operationIndex, world, g =>
    let r := world.applyAttempt choices (methodsAt allClasses) k attempt g
    if r.2.1.success then (r.1, some (r.2.1, operationIndex, g), r.2.2)
    else tryAttempts k attempts (operationIndex + 1) r.1 r.2.2

def resetAndDrop (s : Search ι) : Option (Search ι) :=
  (resetToSnapshot choices allClasses s).map (fun s =>
    { dropClass allClasses { s with currentClassIndex := s.backtrackingStack.length } with
      backtrackingAttempts := 0 })

def takeSnapshot (s : Search ι) : Search ι :=
  if s.currentClassIndex > s.bestSolutionSnapshot.length then
    { s with bestSolutionSnapshot := s.backtrackingStack }
  else s

def goBack (s : Search ι) : Option (Search ι) :=
  if s.currentClassIndex = 0 then none
  else (backtrackTimes allClasses s.backtrackingLength s).map (fun t =>
    let currentClassIndex := s.currentClassIndex - s.backtrackingLength
    { t with currentClassIndex := currentClassIndex
             backtrackingLength :=
               max 1 (min (min currentClassIndex (s.backtrackingLength * 2)) 1024) })

def notPlaced (s : Search ι) : Option (Search ι) :=
  let s := { s with backtrackingAttempts := s.backtrackingAttempts + 1 }
  if s.backtrackingAttempts > 10 then resetAndDrop choices allClasses s
  else goBack allClasses (takeSnapshot s)

def pushState (s : Search ι) : List (BacktrackingState ι) :=
  let k := s.currentClassIndex
  if s.backtrackingStack.length ≤ k then
    s.backtrackingStack ++ [⟨0, attempts (methodsAt allClasses k) (s.world.classes k)
      s.world.selectors, none, s.randomNumberGenerator⟩]
  else
    s.backtrackingStack.modify k
      (fun state => { state with currentAttemptIndex := state.currentAttemptIndex + 1 })

/-- One turn of the loop. -/
def step (s : Search ι) : Option (Search ι) :=
  let k := s.currentClassIndex
  if ¬ (k = s.backtrackingStack.length ∨ k + 1 = s.backtrackingStack.length) then none
  else if !(s.world.classes k).shouldGenerateImpCache then some (dropClass allClasses s)
  else if isPartOfDuplicateSetAt allClasses k then some (dropClass allClasses s)
  else
    let stack := pushState allClasses s
    match stack[k]? with
    | none => none
    | some state =>
      let r := tryAttempts choices allClasses k (state.attempts.drop state.currentAttemptIndex)
        state.currentAttemptIndex s.world s.randomNumberGenerator
      match r.2.1 with
      | some (result, operationIndex, maybeSuccessfulRNG) =>
        some { s with
          world := r.1
          randomNumberGenerator := r.2.2
          backtrackingStack := stack.set k
            ⟨operationIndex, state.attempts, some result, maybeSuccessfulRNG⟩
          currentClassIndex := k + 1 }
      | none =>
        notPlaced choices allClasses { s with
          world := r.1
          randomNumberGenerator := r.2.2
          backtrackingStack := stack.dropLast }

/-- The loop, for at most `fuel` turns. -/
def findShiftsAndMasks : Nat → Search ι → Option (Search ι)
  | 0, s => if s.currentClassIndex < allClasses.length then none else some s
  | fuel + 1, s =>
    if s.currentClassIndex < allClasses.length then
      (step choices allClasses s).bind (findShiftsAndMasks fuel)
    else some s

/-- The variables before the loop. -/
def initialSearch (world : World ι Nat) : Search ι := ⟨world, [], [], 0, 1, 0, 0, 0⟩

end Search

/-! ### Dropped classes -/

section Drops

variable {ι : Type} {allClasses : List (ClassData ι)} {classes : Nat → ClassState} {k i : Nat}

lemma dropClasses_shouldGenerate
    (h : (dropClasses allClasses classes k i).shouldGenerateImpCache = true) :
    (classes i).shouldGenerateImpCache = true := by
  unfold dropClasses at h
  split at h
  · cases h
  · split at h
    · cases h
    · exact h

lemma dropClasses_flattened
    (h : (classes i).droppedBecauseFlatteningSuperclassWasDropped = true) :
    (dropClasses allClasses classes k i).droppedBecauseFlatteningSuperclassWasDropped = true := by
  unfold dropClasses
  split
  · exact h
  · split
    · rfl
    · exact h

lemma dropClasses_new (hi : i ≠ k)
    (h : (classes i).shouldGenerateImpCache = true)
    (h' : (dropClasses allClasses classes k i).shouldGenerateImpCache = false) :
    (dropClasses allClasses classes k i).droppedBecauseFlatteningSuperclassWasDropped = true := by
  unfold dropClasses at h' ⊢
  rw [if_neg hi] at h' ⊢
  split
  · rfl
  · rename_i hnot
    rw [if_neg hnot, h] at h'
    cases h'

lemma dropClasses_bits (allClasses : List (ClassData ι)) (classes : Nat → ClassState) (k i : Nat) :
    (dropClasses allClasses classes k i).shift = (classes i).shift ∧
      (dropClasses allClasses classes k i).neededBits = (classes i).neededBits := by
  unfold dropClasses
  split
  · exact ⟨rfl, rfl⟩
  · split
    · exact ⟨rfl, rfl⟩
    · exact ⟨rfl, rfl⟩

end Drops

/-! ### The stack as a history -/

section History

variable {ι : Type} [DecidableEq ι] (choices : Choices ι) (allClasses : List (ClassData ι))
  (initial : Nat → ClassState)

/-- What the stack and the snapshot are read against: how far the generator is, when each
class was dropped, and which classes were dropped with a superclass. -/
structure Log where
  now : Nat
  dropTime : Nat → Option Nat
  flattened : Nat → Bool

structure PlacedAt (i : Nat) (selectors : Selectors ι) (state : BacktrackingState ι)
    (attempt : PlacementAttempt) : Prop where
  attempts_eq : state.attempts = attempts (methodsAt allClasses i) (initial i) selectors
  attempt_eq : state.attempts[state.currentAttemptIndex]? = some attempt
  success : (applyAttempt choices (methodsAt allClasses i) (initial i) selectors attempt
    state.randomNumberGenerator).result.success = true
  result_eq : state.result = some (applyAttempt choices (methodsAt allClasses i) (initial i)
    selectors attempt state.randomNumberGenerator).result

/-- The states, applied from the class at `i` on, lead from one choice of selectors to another.
A class is placed before it is dropped, and a class with a placement is dropped only with a
superclass. -/
inductive Replays (L : Log) : Nat → Selectors ι → List (BacktrackingState ι) → Selectors ι → Prop
  | nil (i : Nat) (selectors : Selectors ι) : Replays L i selectors [] selectors
  | dropped {i d : Nat} {selectors final : Selectors ι} {state : BacktrackingState ι}
      {states : List (BacktrackingState ι)} (hresult : state.result = none)
      (hindex : state.currentAttemptIndex = 0) (hdrop : L.dropTime i = some d)
      (hd : d ≤ state.randomNumberGenerator) (hrest : Replays L (i + 1) selectors states final) :
      Replays L i selectors (state :: states) final
  | placed {i : Nat} {selectors final : Selectors ι} {state : BacktrackingState ι}
      {states : List (BacktrackingState ι)} {attempt : PlacementAttempt}
      (hplaced : PlacedAt choices allClasses initial i selectors state attempt)
      (hdup : isPartOfDuplicateSetAt allClasses i = false)
      (hnow : (applyAttempt choices (methodsAt allClasses i) (initial i) selectors attempt
        state.randomNumberGenerator).randomNumberGenerator ≤ L.now)
      (hdrop : ∀ d, L.dropTime i = some d → L.flattened i = true ∧
        (applyAttempt choices (methodsAt allClasses i) (initial i) selectors attempt
          state.randomNumberGenerator).randomNumberGenerator ≤ d)
      (hrest : Replays L (i + 1) (applyAttempt choices (methodsAt allClasses i) (initial i)
        selectors attempt state.randomNumberGenerator).selectors states final) :
      Replays L i selectors (state :: states) final

variable {choices allClasses initial} {L L' : Log} {i : Nat} {σ τ : Selectors ι}
  {states states' : List (BacktrackingState ι)}

lemma replays_append : Replays choices allClasses initial L i σ (states ++ states') τ ↔
    ∃ ρ, Replays choices allClasses initial L i σ states ρ ∧
      Replays choices allClasses initial L (i + states.length) ρ states' τ := by
  constructor
  · intro h
    induction states generalizing i σ with
    | nil => exact ⟨σ, .nil i σ, by simpa using h⟩
    | cons state states ih =>
      rw [List.cons_append] at h
      have hlen : i + (state :: states).length = i + 1 + states.length := by
        rw [List.length_cons]
        omega
      rw [hlen]
      cases h with
      | dropped hresult hindex hdrop hd hrest =>
        obtain ⟨ρ, hρ, hτ⟩ := ih hrest
        exact ⟨ρ, .dropped hresult hindex hdrop hd hρ, hτ⟩
      | placed hplaced hdup hnow hdrop hrest =>
        obtain ⟨ρ, hρ, hτ⟩ := ih hrest
        exact ⟨ρ, .placed hplaced hdup hnow hdrop hρ, hτ⟩
  · rintro ⟨ρ, hρ, hτ⟩
    induction hρ with
    | nil i σ => simpa using hτ
    | dropped hresult hindex hdrop hd hrest ih =>
      apply Replays.dropped hresult hindex hdrop hd
      apply ih
      rwa [List.length_cons, ← Nat.add_assoc, Nat.add_right_comm] at hτ
    | placed hplaced hdup hnow hdrop hrest ih =>
      apply Replays.placed hplaced hdup hnow hdrop
      apply ih
      rwa [List.length_cons, ← Nat.add_assoc, Nat.add_right_comm] at hτ

/-- How the log grows while the states of a list stay valid: a class placed in it is dropped
only with a superclass, and not before now. -/
structure Log.Grows (allClasses : List (ClassData ι)) (L L' : Log) (bound : Nat) : Prop where
  now_le : L.now ≤ L'.now
  keeps : ∀ i d, L.dropTime i = some d → L'.dropTime i = some d
  flattened : ∀ i, L.flattened i = true → L'.flattened i = true
  new : ∀ i d, L.dropTime i = none → L'.dropTime i = some d → L.now ≤ d ∧
    (i < bound → isPartOfDuplicateSetAt allClasses i = false → L'.flattened i = true)

lemma Replays.mono {bound : Nat} (hL : L.Grows allClasses L' bound)
    (h : Replays choices allClasses initial L i σ states τ) (hb : i + states.length ≤ bound) :
    Replays choices allClasses initial L' i σ states τ := by
  induction h with
  | nil i σ => exact .nil i σ
  | dropped hresult hindex hdrop hd hrest ih =>
    rw [List.length_cons] at hb
    exact .dropped hresult hindex (hL.keeps _ _ hdrop) hd (ih (by omega))
  | placed hplaced hdup hnow hdrop hrest ih =>
    rename_i i selectors final state states attempt
    rw [List.length_cons] at hb
    apply Replays.placed hplaced hdup (hnow.trans hL.now_le) _ (ih (by omega))
    intro d hd
    cases hold : L.dropTime i with
    | some d' =>
      have heq := hL.keeps i d' hold
      rw [hd] at heq
      cases heq
      exact ⟨hL.flattened i (hdrop d hold).1, (hdrop d hold).2⟩
    | none =>
      have hnew := hL.new i d hold hd
      exact ⟨hnew.2 (by omega) hdup, hnow.trans hnew.1⟩

lemma Replays.extends (hm : ∀ i, (methodsAt allClasses i).Nodup)
    (h : Replays choices allClasses initial L i σ states τ) (m : ι) : (σ m).Extends (τ m) := by
  induction h with
  | nil i σ => exact Selector.Extends.refl _
  | dropped hresult hindex hdrop hd hrest ih => exact ih
  | placed hplaced hdup hnow hdrop hrest ih =>
    exact ((applyAttempt_success (hm _) hplaced.success).keeps m).trans ih

/-- A placement that was made no earlier than its class was dropped did not move the generator. -/
lemma PlacedAt.still (hm : ∀ i, (methodsAt allClasses i).Nodup) {state : BacktrackingState ι}
    {attempt : PlacementAttempt} {d : Nat}
    (h : PlacedAt choices allClasses initial i σ state attempt)
    (he : (applyAttempt choices (methodsAt allClasses i) (initial i) σ attempt
      state.randomNumberGenerator).randomNumberGenerator ≤ d)
    (hd : d ≤ state.randomNumberGenerator) :
    (applyAttempt choices (methodsAt allClasses i) (initial i) σ attempt
      state.randomNumberGenerator).selectors = σ := by
  apply (applyAttempt_success (hm i) h.success).still
  exact le_antisymm (he.trans hd) le_applyAttempt_generator

/-- Equal states do the same to the selectors, even if only one of them is a placement. -/
lemma Replays.same_head (hm : ∀ i, (methodsAt allClasses i).Nodup) {τ' : Selectors ι}
    {s t : BacktrackingState ι} (hsame : s.same t = true)
    (h : Replays choices allClasses initial L i σ (s :: states) τ)
    (h' : Replays choices allClasses initial L i σ (t :: states') τ') :
    ∃ ρ, Replays choices allClasses initial L i σ [s] ρ ∧
      Replays choices allClasses initial L (i + 1) ρ states τ ∧
      Replays choices allClasses initial L (i + 1) ρ states' τ' := by
  simp only [BacktrackingState.same, Bool.and_eq_true, beq_iff_eq] at hsame
  cases h with
  | dropped hresult hindex hdrop hd hrest =>
    refine ⟨σ, .dropped hresult hindex hdrop hd (.nil _ _), hrest, ?_⟩
    cases h' with
    | dropped _ _ _ _ hrest' => exact hrest'
    | placed hplaced' _ _ hdrop' hrest' =>
      rwa [hplaced'.still hm (hdrop' _ hdrop).2 (hsame.2 ▸ hd)] at hrest'
  | placed hplaced hdup hnow hdrop hrest =>
    refine ⟨_, .placed hplaced hdup hnow hdrop (.nil _ _), hrest, ?_⟩
    cases h' with
    | dropped _ _ hdrop' hd' hrest' =>
      rwa [hplaced.still hm (hdrop _ hdrop').2 (hsame.2 ▸ hd')]
    | placed hplaced' _ _ _ hrest' =>
      have hattempt := hplaced.attempt_eq
      rw [hplaced.attempts_eq, ← hplaced'.attempts_eq, hsame.1, hplaced'.attempt_eq] at hattempt
      cases hattempt
      rw [hsame.2]
      exact hrest'

lemma Replays.firstDifferentStep (hm : ∀ i, (methodsAt allClasses i).Nodup) {τ' : Selectors ι}
    (h : Replays choices allClasses initial L i σ states τ)
    (h' : Replays choices allClasses initial L i σ states' τ') :
    ∃ ρ, Replays choices allClasses initial L i σ
        (states.take (firstDifferentStep states states')) ρ ∧
      Replays choices allClasses initial L (i + firstDifferentStep states states') ρ
        (states.drop (firstDifferentStep states states')) τ ∧
      Replays choices allClasses initial L (i + firstDifferentStep states states') ρ
        (states'.drop (firstDifferentStep states states')) τ' := by
  induction states generalizing i σ states' with
  | nil => exact ⟨σ, .nil i σ, h, by simpa [IMPCaches.firstDifferentStep] using h'⟩
  | cons s states ih =>
    cases states' with
    | nil => exact ⟨σ, .nil i σ, h, h'⟩
    | cons t states' =>
      unfold IMPCaches.firstDifferentStep
      by_cases hsame : s.same t = true
      · obtain ⟨ρ, hs, hrest, hrest'⟩ := Replays.same_head hm hsame h h'
        obtain ⟨ρ', htake, hdrop, hdrop'⟩ := ih hrest hrest'
        rw [if_pos hsame, List.take_succ_cons, List.drop_succ_cons, List.drop_succ_cons,
          ← Nat.add_assoc, Nat.add_right_comm]
        refine ⟨ρ', ?_, hdrop, hdrop'⟩
        exact replays_append.mpr ⟨ρ, hs, htake⟩
      · rw [if_neg hsame]
        exact ⟨σ, .nil i σ, h, h'⟩

lemma Replays.unique {τ' : Selectors ι}
    (h : Replays choices allClasses initial L i σ states τ)
    (h' : Replays choices allClasses initial L i σ states τ') : τ = τ' := by
  induction h with
  | nil i σ =>
    cases h'
    rfl
  | dropped hresult _ _ _ _ ih =>
    cases h' with
    | dropped _ _ _ _ hrest' => exact ih hrest'
    | placed hplaced' _ _ _ _ => cases hresult.symm.trans hplaced'.result_eq
  | placed hplaced _ _ _ _ ih =>
    cases h' with
    | dropped hresult' _ _ _ _ => cases hresult'.symm.trans hplaced.result_eq
    | placed hplaced' _ _ _ hrest' =>
      cases hplaced.attempt_eq.symm.trans hplaced'.attempt_eq
      exact ih hrest'

/-- The attempt that a state on the stack stands for. -/
def BacktrackingState.attempt (state : BacktrackingState ι) : Option PlacementAttempt :=
  state.result.bind (fun _ => state.attempts[state.currentAttemptIndex]?)

def bitsAfter (c : ClassState) (state : Option (BacktrackingState ι)) : Nat × Nat :=
  ((state.bind BacktrackingState.attempt).map (fun a => (a.shift, a.neededBits))).getD
    (c.shift, c.neededBits)

variable (choices allClasses initial) in
/-- The invariant: selectors and classes are what the stack says, and the snapshot can be
replayed. -/
structure Agrees (σ₀ : Selectors ι) (world : World ι Nat)
    (stack snapshot : List (BacktrackingState ι)) (L : Log) : Prop where
  flattened_eq : ∀ i, L.flattened i =
    (world.classes i).droppedBecauseFlatteningSuperclassWasDropped
  dropTime_iff : ∀ i, (world.classes i).shouldGenerateImpCache = true ↔ L.dropTime i = none
  dropTime_le : ∀ i d, L.dropTime i = some d → d ≤ L.now
  stack_replays : Replays choices allClasses initial L 0 σ₀ stack world.selectors
  snapshot_replays : ∃ τ, Replays choices allClasses initial L 0 σ₀ snapshot τ
  bits : ∀ i, ((world.classes i).shift, (world.classes i).neededBits) =
    bitsAfter (initial i) stack[i]?

variable {σ₀ : Selectors ι} {world : World ι Nat} {stack snapshot : List (BacktrackingState ι)}

lemma Agrees.bits_top (h : Agrees choices allClasses initial σ₀ world stack snapshot L)
    (hi : stack.length ≤ i) : (world.classes i).shift = (initial i).shift ∧
      (world.classes i).neededBits = (initial i).neededBits := by
  have := h.bits i
  rw [List.getElem?_eq_none hi] at this
  simpa [bitsAfter] using this

lemma Agrees.advance (h : Agrees choices allClasses initial σ₀ world stack snapshot L) {g : Nat}
    (hg : L.now ≤ g) :
    Agrees choices allClasses initial σ₀ world stack snapshot { L with now := g } := by
  have hgrows : ∀ bound, L.Grows allClasses { L with now := g } bound := by
    intro bound
    refine ⟨hg, fun _ _ h => h, fun _ h => h, ?_⟩
    intro i d hnone hsome
    cases hnone.symm.trans hsome
  obtain ⟨τ, hτ⟩ := h.snapshot_replays
  exact ⟨h.flattened_eq, h.dropTime_iff, fun i d hd => (h.dropTime_le i d hd).trans hg,
    h.stack_replays.mono (hgrows _) le_rfl, ⟨τ, hτ.mono (hgrows _) le_rfl⟩, h.bits⟩

omit [DecidableEq ι] in
lemma bitsAfter_append_of_ne {state : BacktrackingState ι} (c : ClassState)
    (hi : i ≠ stack.length) :
    bitsAfter c (stack ++ [state])[i]? = bitsAfter c stack[i]? := by
  rcases Nat.lt_or_gt_of_ne hi with hlt | hgt
  · rw [List.getElem?_append_left hlt]
  · rw [List.getElem?_eq_none (by simpa using hgt), List.getElem?_eq_none hgt.le]

lemma Agrees.push (h : Agrees choices allClasses initial σ₀ world stack snapshot L)
    {world' : World ι Nat} {state : BacktrackingState ι}
    (hstate : Replays choices allClasses initial L stack.length world.selectors [state]
      world'.selectors)
    (hother : ∀ i, i ≠ stack.length → world'.classes i = world.classes i)
    (hflag : (world'.classes stack.length).droppedBecauseFlatteningSuperclassWasDropped =
      (world.classes stack.length).droppedBecauseFlatteningSuperclassWasDropped)
    (hgen : (world'.classes stack.length).shouldGenerateImpCache =
      (world.classes stack.length).shouldGenerateImpCache)
    (hbits : ((world'.classes stack.length).shift, (world'.classes stack.length).neededBits) =
      bitsAfter (initial stack.length) (some state)) :
    Agrees choices allClasses initial σ₀ world' (stack ++ [state]) snapshot L := by
  constructor
  · intro i
    by_cases hi : i = stack.length
    · rw [hi, hflag, h.flattened_eq]
    · rw [hother i hi, h.flattened_eq]
  · intro i
    by_cases hi : i = stack.length
    · rw [hi, hgen, h.dropTime_iff]
    · rw [hother i hi, h.dropTime_iff]
  · exact h.dropTime_le
  · apply replays_append.mpr
    exact ⟨_, h.stack_replays, by rwa [Nat.zero_add]⟩
  · exact h.snapshot_replays
  · intro i
    by_cases hi : i = stack.length
    · rw [hi, hbits, List.getElem?_concat_length]
    · rw [hother i hi, h.bits i, bitsAfter_append_of_ne _ hi]

def Log.drop (L : Log) (classes : Nat → ClassState) : Log where
  now := L.now
  dropTime i := if (classes i).shouldGenerateImpCache then none
    else (L.dropTime i).or (some L.now)
  flattened i := (classes i).droppedBecauseFlatteningSuperclassWasDropped

/-- The dropped class itself is no member of the list, was dropped before, or is part of a
duplicate set, which is never placed. -/
lemma Agrees.grows_drop (h : Agrees choices allClasses initial σ₀ world stack snapshot L)
    {k bound : Nat} (hk : bound ≤ k ∨ (world.classes k).shouldGenerateImpCache = false ∨
      isPartOfDuplicateSetAt allClasses k = true) :
    L.Grows allClasses (L.drop (dropClasses allClasses world.classes k)) bound := by
  constructor
  · exact le_rfl
  · intro i d hd
    have hnot : ¬ (dropClasses allClasses world.classes k i).shouldGenerateImpCache = true := by
      intro htrue
      have := (h.dropTime_iff i).mp (dropClasses_shouldGenerate htrue)
      cases this.symm.trans hd
    simp [Log.drop, hnot, hd]
  · intro i hi
    rw [h.flattened_eq] at hi
    exact dropClasses_flattened hi
  · intro i d hnone hsome
    have hgen := (h.dropTime_iff i).mpr hnone
    have hnot : (dropClasses allClasses world.classes k i).shouldGenerateImpCache = false := by
      by_contra htrue
      simp [Log.drop, htrue] at hsome
    have hd : d = L.now := by
      simpa [Log.drop, hnot, hnone] using hsome.symm
    refine ⟨hd.ge, fun hi hdup => ?_⟩
    apply dropClasses_new _ hgen hnot
    rintro rfl
    rcases hk with hk | hk | hk
    · omega
    · cases hk.symm.trans hgen
    · cases hk.symm.trans hdup

lemma Agrees.drop (h : Agrees choices allClasses initial σ₀ world stack snapshot L)
    (hk : snapshot.length ≤ stack.length ∨
      (world.classes stack.length).shouldGenerateImpCache = false ∨
      isPartOfDuplicateSetAt allClasses stack.length = true) :
    Agrees choices allClasses initial σ₀
      { world with classes := dropClasses allClasses world.classes stack.length }
      (stack ++ [⟨0, [], none, L.now⟩]) snapshot
      (L.drop (dropClasses allClasses world.classes stack.length)) := by
  have hstack := h.stack_replays.mono (h.grows_drop (.inl le_rfl)) (by rw [Nat.zero_add])
  obtain ⟨τ, hτ⟩ := h.snapshot_replays
  have hself : (dropClasses allClasses world.classes stack.length
      stack.length).shouldGenerateImpCache = false := by
    simp [dropClasses]
  constructor
  · intro i
    rfl
  · intro i
    simp only [Log.drop]
    by_cases hi : (dropClasses allClasses world.classes stack.length
        i).shouldGenerateImpCache = true
    · simp [hi]
    · simp [hi]
  · intro i d hd
    simp only [Log.drop] at hd ⊢
    split at hd
    · cases hd
    · cases hold : L.dropTime i with
      | none =>
        rw [hold, Option.none_or] at hd
        cases hd
        exact le_rfl
      | some d' =>
        rw [hold, Option.some_or] at hd
        cases hd
        exact h.dropTime_le i d hold
  · apply replays_append.mpr
    refine ⟨_, hstack, ?_⟩
    rw [Nat.zero_add]
    cases hold : L.dropTime stack.length with
    | none =>
      apply Replays.dropped rfl rfl _ le_rfl (.nil _ _)
      simp [Log.drop, hself, hold]
    | some d =>
      apply Replays.dropped rfl rfl _ (h.dropTime_le _ d hold) (.nil _ _)
      simp [Log.drop, hself, hold]
  · exact ⟨τ, hτ.mono (h.grows_drop hk) (by rw [Nat.zero_add])⟩
  · intro i
    have hbits := dropClasses_bits allClasses world.classes stack.length i
    rw [hbits.1, hbits.2]
    by_cases hi : i = stack.length
    · rw [hi, List.getElem?_concat_length, (h.bits_top le_rfl).1, (h.bits_top le_rfl).2]
      rfl
    · rw [bitsAfter_append_of_ne _ hi, h.bits i]

/-! ### Undoing and replaying states -/

omit [DecidableEq ι] in
lemma bitsAfter_none_result {state : BacktrackingState ι} (c : ClassState)
    (h : state.result = none) : bitsAfter c (some state) = (c.shift, c.neededBits) := by
  simp [bitsAfter, BacktrackingState.attempt, h]

lemma PlacedAt.bitsAfter_eq {state : BacktrackingState ι} {attempt : PlacementAttempt}
    (h : PlacedAt choices allClasses initial i σ state attempt) (c : ClassState) :
    bitsAfter c (some state) = (attempt.shift, attempt.neededBits) := by
  simp [bitsAfter, BacktrackingState.attempt, h.result_eq, h.attempt_eq]

lemma Agrees.shrink {state : BacktrackingState ι}
    (h : Agrees choices allClasses initial σ₀ world (stack ++ [state]) snapshot L)
    {world' : World ι Nat}
    (hstack : Replays choices allClasses initial L 0 σ₀ stack world'.selectors)
    (hclasses : world'.classes = Function.update world.classes stack.length
      { world.classes stack.length with
        shift := (initial stack.length).shift, neededBits := (initial stack.length).neededBits }) :
    Agrees choices allClasses initial σ₀ world' stack snapshot L := by
  constructor
  · intro i
    by_cases hi : i = stack.length
    · rw [hclasses, hi, Function.update_self, h.flattened_eq]
    · rw [hclasses, Function.update_of_ne hi, h.flattened_eq]
  · intro i
    by_cases hi : i = stack.length
    · rw [hclasses, hi, Function.update_self, ← h.dropTime_iff]
    · rw [hclasses, Function.update_of_ne hi, h.dropTime_iff]
  · exact h.dropTime_le
  · exact hstack
  · exact h.snapshot_replays
  · intro i
    by_cases hi : i = stack.length
    · rw [hclasses, hi, Function.update_self, List.getElem?_eq_none le_rfl]
      rfl
    · rw [hclasses, Function.update_of_ne hi, h.bits i, bitsAfter_append_of_ne _ hi]

lemma Agrees.pop (hm : ∀ i, (methodsAt allClasses i).Nodup) {state : BacktrackingState ι}
    (h : Agrees choices allClasses initial σ₀ world (stack ++ [state]) snapshot L) :
    Agrees choices allClasses initial σ₀
      (match state.result with
        | none => world
        | some result => world.backtrack (methodsAt allClasses) stack.length result)
      stack snapshot L := by
  obtain ⟨ρ, hstack, hlast⟩ := replays_append.mp h.stack_replays
  rw [Nat.zero_add] at hlast
  generalize hsel : world.selectors = selectors at hlast
  cases hlast with
  | dropped hresult hindex hdrop hd hrest =>
    cases hrest
    rw [hresult]
    apply h.shrink (hsel ▸ hstack)
    have hbits := h.bits stack.length
    rw [List.getElem?_concat_length, bitsAfter_none_result _ hresult, Prod.mk.injEq] at hbits
    rw [← hbits.1, ← hbits.2, Function.update_eq_self]
  | placed hplaced hdup hnow hdrop hrest =>
    cases hrest
    have hs := applyAttempt_success (hm _) hplaced.success
    have hback := backtrack_success (world.classes stack.length) hplaced.success hs
    rw [hplaced.result_eq]
    apply h.shrink
    · dsimp only [World.backtrack]
      rw [hsel, hback]
      exact hstack
    · dsimp only [World.backtrack]
      rw [hsel, hback]

/-- A placement that is recorded for these selectors succeeds again. -/
lemma Agrees.replay (hm : ∀ i, (methodsAt allClasses i).Nodup) {state : BacktrackingState ι}
    {attempt : PlacementAttempt}
    (h : Agrees choices allClasses initial σ₀ world stack snapshot L)
    (hplaced : PlacedAt choices allClasses initial stack.length world.selectors state attempt) :
    let r := world.applyAttempt choices (methodsAt allClasses) stack.length attempt
      state.randomNumberGenerator
    let o := applyAttempt choices (methodsAt allClasses stack.length) (initial stack.length)
      world.selectors attempt state.randomNumberGenerator
    r.1.selectors = o.selectors ∧ r.2.1 = o.result ∧ r.2.2 = o.randomNumberGenerator ∧
      r.1.classes = Function.update world.classes stack.length
        { world.classes stack.length with
          shift := attempt.shift, neededBits := attempt.neededBits } := by
  dsimp only [World.applyAttempt]
  have htop := h.bits_top (i := stack.length) le_rfl
  have hcongr := applyAttempt_congr choices (methodsAt allClasses stack.length) world.selectors
    attempt state.randomNumberGenerator htop.1 htop.2
  have hsuccess := hplaced.success
  rw [← hcongr.1] at hsuccess
  exact ⟨hcongr.2.1, hcongr.1, hcongr.2.2, by
    rw [(applyAttempt_success (hm _) hsuccess).classState_eq]⟩

lemma backtrackLast_spec (hm : ∀ i, (methodsAt allClasses i).Nodup) {s t : Search ι}
    (h : Agrees choices allClasses initial σ₀ s.world s.backtrackingStack
      s.bestSolutionSnapshot L) (ht : backtrackLast allClasses s = some t) :
    Agrees choices allClasses initial σ₀ t.world t.backtrackingStack t.bestSolutionSnapshot L ∧
      t.backtrackingStack = s.backtrackingStack.dropLast ∧
      t.bestSolutionSnapshot = s.bestSolutionSnapshot ∧
      t.randomNumberGenerator = s.randomNumberGenerator := by
  unfold backtrackLast at ht
  split at ht
  · cases ht
  · rename_i last hlast
    have hstack : s.backtrackingStack = s.backtrackingStack.dropLast ++ [last] :=
      (List.dropLast_append_getLast? last hlast).symm
    rw [hstack] at h
    have hpop := h.pop hm
    have hlen : s.backtrackingStack.dropLast.length = s.backtrackingStack.length - 1 :=
      List.length_dropLast
    rw [hlen] at hpop
    dsimp only at ht
    split at ht
    · cases ht
    · rw [Option.some.injEq] at ht
      subst ht
      cases hresult : last.result with
      | none =>
        rw [hresult] at hpop
        exact ⟨hpop, rfl, rfl, rfl⟩
      | some result =>
        rw [hresult] at hpop
        exact ⟨hpop, rfl, rfl, rfl⟩

lemma backtrackTimes_spec (hm : ∀ i, (methodsAt allClasses i).Nodup) (n : Nat) {s t : Search ι}
    (h : Agrees choices allClasses initial σ₀ s.world s.backtrackingStack
      s.bestSolutionSnapshot L) (ht : backtrackTimes allClasses n s = some t) :
    Agrees choices allClasses initial σ₀ t.world t.backtrackingStack t.bestSolutionSnapshot L ∧
      t.backtrackingStack = s.backtrackingStack.take (s.backtrackingStack.length - n) ∧
      t.bestSolutionSnapshot = s.bestSolutionSnapshot ∧
      t.randomNumberGenerator = s.randomNumberGenerator := by
  induction n generalizing s with
  | zero =>
    cases ht
    exact ⟨h, by simp, rfl, rfl⟩
  | succ n ih =>
    obtain ⟨u, hu, ht⟩ := Option.bind_eq_some_iff.mp ht
    have hlast := backtrackLast_spec hm h hu
    have hrest := ih hlast.1 ht
    refine ⟨hrest.1, ?_, hrest.2.2.1.trans hlast.2.2.1, hrest.2.2.2.trans hlast.2.2.2⟩
    rw [hrest.2.1, hlast.2.1, List.length_dropLast, List.dropLast_eq_take, List.take_take]
    congr 1
    omega

lemma replayState_spec (hm : ∀ i, (methodsAt allClasses i).Nodup) {s t : Search ι}
    {state : BacktrackingState ι}
    (h : Agrees choices allClasses initial σ₀ s.world s.backtrackingStack
      s.bestSolutionSnapshot L)
    (hstate : Replays choices allClasses initial L s.backtrackingStack.length s.world.selectors
      [state] τ) (ht : replayState choices allClasses s state = some t) :
    Agrees choices allClasses initial σ₀ t.world t.backtrackingStack t.bestSolutionSnapshot L ∧
      t.backtrackingStack = s.backtrackingStack ++ [state] ∧
      t.bestSolutionSnapshot = s.bestSolutionSnapshot ∧
      t.randomNumberGenerator = s.randomNumberGenerator ∧ t.world.selectors = τ := by
  have hreplays := hstate
  unfold replayState at ht
  cases hstate with
  | dropped hresult hindex hdrop hd hrest =>
    cases hrest
    rw [hresult] at ht
    cases ht
    refine ⟨?_, rfl, rfl, rfl, rfl⟩
    apply h.push hreplays (fun i _ => rfl) rfl rfl
    rw [bitsAfter_none_result _ hresult, (h.bits_top le_rfl).1, (h.bits_top le_rfl).2]
  | placed hplaced hdup hnow hdrop hrest =>
    cases hrest
    have hr := h.replay hm hplaced
    dsimp only at hr
    rw [hplaced.result_eq, hplaced.attempt_eq] at ht
    dsimp only at ht
    rw [hr.2.1, if_pos hplaced.success, Option.some.injEq] at ht
    subst ht
    refine ⟨?_, rfl, rfl, rfl, hr.1⟩
    have hgen : (s.world.classes s.backtrackingStack.length).droppedBecauseFlatteningSuperclassWasDropped
        = false → (s.world.classes s.backtrackingStack.length).shouldGenerateImpCache = true := by
      -- a placed class is dropped only with a superclass, so nothing is flipped here
      intro hflag
      by_contra hnot
      rw [h.dropTime_iff, Option.eq_none_iff_forall_ne_some] at hnot
      push Not at hnot
      obtain ⟨d, hd⟩ := hnot
      have := (hdrop d hd).1
      rw [h.flattened_eq, hflag] at this
      cases this
    apply h.push
    · rw [hr.1]
      exact hreplays
    · intro i hi
      simp [hr.2.2.2, hi]
    · simp only [hr.2.2.2, Function.update_self]
      split
      · rfl
      · rfl
    · simp only [hr.2.2.2, Function.update_self]
      split
      · rfl
      · rename_i hflag
        exact (hgen (by simpa using hflag)).symm
    · rw [hplaced.bitsAfter_eq]
      simp only [hr.2.2.2, Function.update_self]
      split
      · rfl
      · rfl

lemma replayStates_spec (hm : ∀ i, (methodsAt allClasses i).Nodup)
    (states : List (BacktrackingState ι)) {s t : Search ι}
    (h : Agrees choices allClasses initial σ₀ s.world s.backtrackingStack
      s.bestSolutionSnapshot L)
    (hstates : Replays choices allClasses initial L s.backtrackingStack.length s.world.selectors
      states τ) (ht : replayStates choices allClasses states s = some t) :
    Agrees choices allClasses initial σ₀ t.world t.backtrackingStack t.bestSolutionSnapshot L ∧
      t.backtrackingStack = s.backtrackingStack ++ states ∧
      t.bestSolutionSnapshot = s.bestSolutionSnapshot ∧
      t.randomNumberGenerator = s.randomNumberGenerator := by
  induction states generalizing s with
  | nil =>
    cases ht
    exact ⟨h, by simp, rfl, rfl⟩
  | cons state states ih =>
    obtain ⟨u, hu, ht⟩ := Option.bind_eq_some_iff.mp ht
    obtain ⟨ρ, hstate, hrest⟩ := replays_append.mp (List.singleton_append ▸ hstates)
    have hone := replayState_spec hm h hstate hu
    have hmore := ih hone.1 (by
      rw [hone.2.1, List.length_append, hone.2.2.2.2]
      exact hrest) ht
    refine ⟨hmore.1, ?_, hmore.2.2.1.trans hone.2.2.1, hmore.2.2.2.trans hone.2.2.2.1⟩
    rw [hmore.2.1, hone.2.1, List.append_assoc, List.singleton_append]

omit [DecidableEq ι] in
lemma firstDifferentStep_le (states states' : List (BacktrackingState ι)) :
    firstDifferentStep states states' ≤ states.length ∧
      firstDifferentStep states states' ≤ states'.length := by
  induction states generalizing states' with
  | nil => simp [firstDifferentStep]
  | cons s states ih =>
    cases states' with
    | nil => simp [firstDifferentStep]
    | cons t states' =>
      unfold firstDifferentStep
      split
      · have := ih states'
        simp only [List.length_cons]
        omega
      · simp

lemma resetToSnapshot_spec (hm : ∀ i, (methodsAt allClasses i).Nodup) {s t : Search ι}
    (h : Agrees choices allClasses initial σ₀ s.world s.backtrackingStack
      s.bestSolutionSnapshot L) (ht : resetToSnapshot choices allClasses s = some t) :
    Agrees choices allClasses initial σ₀ t.world t.backtrackingStack t.bestSolutionSnapshot L ∧
      t.backtrackingStack.length = t.bestSolutionSnapshot.length ∧
      t.randomNumberGenerator = s.randomNumberGenerator := by
  unfold resetToSnapshot at ht
  obtain ⟨u, hu, ht⟩ := Option.bind_eq_some_iff.mp ht
  have hback := backtrackTimes_spec hm _ h hu
  obtain ⟨τ, hτ⟩ := h.snapshot_replays
  obtain ⟨ρ, htake, -, hdrop⟩ := h.stack_replays.firstDifferentStep hm hτ
  have hle := firstDifferentStep_le s.backtrackingStack s.bestSolutionSnapshot
  have hstack : u.backtrackingStack = s.backtrackingStack.take
      (firstDifferentStep s.backtrackingStack s.bestSolutionSnapshot) := by
    rw [hback.2.1]
    congr 1
    omega
  have hlen : u.backtrackingStack.length =
      firstDifferentStep s.backtrackingStack s.bestSolutionSnapshot := by
    rw [hstack, List.length_take]
    omega
  have hρ : u.world.selectors = ρ := by
    have := hback.1.stack_replays
    rw [hstack] at this
    exact this.unique htake
  have hreplay := replayStates_spec hm _ hback.1 (by
    rw [hlen, hρ]
    rwa [Nat.zero_add] at hdrop) ht
  refine ⟨hreplay.1, ?_, hreplay.2.2.2.trans hback.2.2.2⟩
  rw [hreplay.2.1, hreplay.2.2.1, hback.2.2.1, List.length_append, hlen, List.length_drop]
  omega

/-! ### Runs of the search -/

lemma World.applyAttempt_failure {attempt : PlacementAttempt} {k g : Nat}
    (h : (world.applyAttempt choices (methodsAt allClasses) k attempt g).2.1.success = false) :
    (world.applyAttempt choices (methodsAt allClasses) k attempt g).1 = world := by
  have hfail := IMPCaches.applyAttempt_failure h
  dsimp only [World.applyAttempt]
  rw [hfail.1, hfail.2, Function.update_eq_self]

/-- Attempts that fail change nothing, and the first that succeeds is applied. -/
lemma tryAttempts_spec (choices : Choices ι) (allClasses : List (ClassData ι)) (k : Nat)
    (attempts : List PlacementAttempt) (operationIndex : Nat) (world : World ι Nat) (g : Nat) :
    let r := tryAttempts choices allClasses k attempts operationIndex world g
    g ≤ r.2.2 ∧ (r.2.1 = none → r.1 = world) ∧
      ∀ result index g', r.2.1 = some (result, index, g') → ∃ n attempt,
        index = operationIndex + n ∧ attempts[n]? = some attempt ∧ g ≤ g' ∧
        (world.applyAttempt choices (methodsAt allClasses) k attempt g').2.1.success = true ∧
        (r.1, result, r.2.2) =
          world.applyAttempt choices (methodsAt allClasses) k attempt g' := by
  dsimp only
  induction attempts generalizing operationIndex g with
  | nil => simp [tryAttempts]
  | cons attempt attempts ih =>
    unfold tryAttempts
    have hle : g ≤ (world.applyAttempt choices (methodsAt allClasses) k attempt g).2.2 :=
      le_applyAttempt_generator
    by_cases hs : (world.applyAttempt choices (methodsAt allClasses) k attempt g).2.1.success = true
    · simp only [hs, if_true]
      refine ⟨hle, by simp, ?_⟩
      intro result index g' heq
      cases heq
      exact ⟨0, attempt, rfl, rfl, le_rfl, hs, rfl⟩
    · have hrest := ih (operationIndex + 1)
        (world.applyAttempt choices (methodsAt allClasses) k attempt g).2.2
      simp only [hs, World.applyAttempt_failure (Bool.eq_false_iff.mpr hs)]
      refine ⟨hle.trans hrest.1, hrest.2.1, ?_⟩
      intro result index g' heq
      obtain ⟨n, a, hindex, ha, hg, hsuccess, hr⟩ := hrest.2.2 result index g' heq
      exact ⟨n + 1, a, by omega, ha, hle.trans hg, hsuccess, hr⟩

omit [DecidableEq ι] in
lemma attempts_congr {methods : List ι} {c c' : ClassState} {selectors : Selectors ι}
    (h : c'.neededBits = c.neededBits) :
    attempts methods c' selectors = attempts methods c selectors := by
  unfold attempts
  rw [h]

lemma Agrees.place (hm : ∀ i, (methodsAt allClasses i).Nodup)
    (h : Agrees choices allClasses initial σ₀ world stack snapshot L)
    (hgen : (world.classes stack.length).shouldGenerateImpCache = true)
    (hdup : isPartOfDuplicateSetAt allClasses stack.length = false)
    {n g : Nat} {attempt : PlacementAttempt} (hg : L.now ≤ g)
    (hn : (attempts (methodsAt allClasses stack.length) (world.classes stack.length)
      world.selectors)[n]? = some attempt)
    (hs : (world.applyAttempt choices (methodsAt allClasses) stack.length attempt
      g).2.1.success = true) :
    let r := world.applyAttempt choices (methodsAt allClasses) stack.length attempt g
    Agrees choices allClasses initial σ₀ r.1
      (stack ++ [⟨n, attempts (methodsAt allClasses stack.length) (world.classes stack.length)
        world.selectors, some r.2.1, g⟩]) snapshot { L with now := r.2.2 } := by
  dsimp only
  have htop := h.bits_top (i := stack.length) le_rfl
  have hcongr := applyAttempt_congr choices (methodsAt allClasses stack.length) world.selectors
    attempt g htop.1 htop.2
  have hplaced : PlacedAt choices allClasses initial stack.length world.selectors
      ⟨n, attempts (methodsAt allClasses stack.length) (world.classes stack.length)
        world.selectors, some (world.applyAttempt choices (methodsAt allClasses) stack.length
          attempt g).2.1, g⟩ attempt := by
    constructor
    · exact attempts_congr htop.2
    · exact hn
    · rw [← hcongr.1]
      exact hs
    · rw [← hcongr.1]
      rfl
  have hr := h.replay hm hplaced
  dsimp only at hr
  have hle : L.now ≤ (world.applyAttempt choices (methodsAt allClasses) stack.length
      attempt g).2.2 := hg.trans le_applyAttempt_generator
  apply (h.advance hle).push
  · rw [hr.1]
    apply Replays.placed hplaced hdup hr.2.2.1.ge _ (.nil _ _)
    intro d hd
    cases ((h.dropTime_iff stack.length).mp hgen).symm.trans hd
  · intro i hi
    rw [hr.2.2.2, Function.update_of_ne hi]
  · rw [hr.2.2.2, Function.update_self]
  · rw [hr.2.2.2, Function.update_self]
  · rw [hr.2.2.2, Function.update_self, hplaced.bitsAfter_eq]

variable (choices allClasses initial) in
/-- The invariant of the loop. -/
structure SearchInv (σ₀ : Selectors ι) (s : Search ι) : Prop where
  length_eq : s.backtrackingStack.length = s.currentClassIndex
  agrees : ∃ L : Log, L.now = s.randomNumberGenerator ∧
    Agrees choices allClasses initial σ₀ s.world s.backtrackingStack s.bestSolutionSnapshot L

lemma SearchInv.dropClass {s : Search ι} (h : SearchInv choices allClasses initial σ₀ s)
    (hk : s.bestSolutionSnapshot.length ≤ s.backtrackingStack.length ∨
      (s.world.classes s.currentClassIndex).shouldGenerateImpCache = false ∨
      isPartOfDuplicateSetAt allClasses s.currentClassIndex = true) :
    SearchInv choices allClasses initial σ₀ (dropClass allClasses s) := by
  obtain ⟨L, hnow, hL⟩ := h.agrees
  rw [← h.length_eq] at hk
  have hdrop := hL.drop hk
  rw [hnow, h.length_eq] at hdrop
  constructor
  · simp [IMPCaches.dropClass, h.length_eq]
  · exact ⟨L.drop (dropClasses allClasses s.world.classes s.currentClassIndex), hnow, hdrop⟩

lemma resetAndDrop_inv (hm : ∀ i, (methodsAt allClasses i).Nodup) {s t : Search ι}
    (h : SearchInv choices allClasses initial σ₀ s)
    (ht : resetAndDrop choices allClasses s = some t) :
    SearchInv choices allClasses initial σ₀ t := by
  obtain ⟨L, hnow, hL⟩ := h.agrees
  obtain ⟨u, hu, rfl⟩ := Option.map_eq_some_iff.mp ht
  have hreset := resetToSnapshot_spec hm hL hu
  have hinv : SearchInv choices allClasses initial σ₀
      { u with currentClassIndex := u.backtrackingStack.length } :=
    ⟨rfl, L, hnow.trans hreset.2.2.symm, hreset.1⟩
  have hdrop := hinv.dropClass (.inl hreset.2.1.ge)
  exact ⟨hdrop.length_eq, hdrop.agrees⟩

lemma takeSnapshot_inv {s : Search ι} (h : SearchInv choices allClasses initial σ₀ s) :
    SearchInv choices allClasses initial σ₀ (takeSnapshot s) := by
  unfold takeSnapshot
  split
  · obtain ⟨L, hnow, hL⟩ := h.agrees
    exact ⟨h.length_eq, L, hnow, hL.flattened_eq, hL.dropTime_iff, hL.dropTime_le,
      hL.stack_replays, ⟨_, hL.stack_replays⟩, hL.bits⟩
  · exact h

lemma goBack_inv (hm : ∀ i, (methodsAt allClasses i).Nodup) {s t : Search ι}
    (h : SearchInv choices allClasses initial σ₀ s) (ht : goBack allClasses s = some t) :
    SearchInv choices allClasses initial σ₀ t := by
  obtain ⟨L, hnow, hL⟩ := h.agrees
  unfold goBack at ht
  split at ht
  · cases ht
  · obtain ⟨u, hu, rfl⟩ := Option.map_eq_some_iff.mp ht
    have hback := backtrackTimes_spec hm _ hL hu
    constructor
    · dsimp only
      rw [hback.2.1, List.length_take, h.length_eq]
      omega
    · exact ⟨L, hnow.trans hback.2.2.2.symm, hback.1⟩

lemma notPlaced_inv (hm : ∀ i, (methodsAt allClasses i).Nodup) {s t : Search ι}
    (h : SearchInv choices allClasses initial σ₀ s)
    (ht : notPlaced choices allClasses s = some t) :
    SearchInv choices allClasses initial σ₀ t := by
  have hcount : SearchInv choices allClasses initial σ₀
      { s with backtrackingAttempts := s.backtrackingAttempts + 1 } := ⟨h.length_eq, h.agrees⟩
  unfold notPlaced at ht
  dsimp only at ht
  split at ht
  · exact resetAndDrop_inv hm hcount ht
  · exact goBack_inv hm (takeSnapshot_inv hcount) ht

/-- One turn of the loop keeps the invariant. -/
lemma step_inv (hm : ∀ i, (methodsAt allClasses i).Nodup) {s t : Search ι}
    (h : SearchInv choices allClasses initial σ₀ s) (ht : step choices allClasses s = some t) :
    SearchInv choices allClasses initial σ₀ t := by
  obtain ⟨L, hnow, hL⟩ := h.agrees
  unfold step at ht
  dsimp only at ht
  split at ht
  · cases ht
  split at ht
  · rename_i hgen
    cases ht
    exact h.dropClass (.inr (.inl (by simpa using hgen)))
  split at ht
  · rename_i hdup
    cases ht
    exact h.dropClass (.inr (.inr hdup))
  rename_i hgen hdup
  have hpush : pushState allClasses s = s.backtrackingStack ++ [⟨0,
      attempts (methodsAt allClasses s.currentClassIndex) (s.world.classes s.currentClassIndex)
        s.world.selectors, none, s.randomNumberGenerator⟩] := by
    unfold pushState
    dsimp only
    rw [if_pos h.length_eq.le]
  rw [hpush, ← h.length_eq, List.getElem?_concat_length] at ht
  dsimp only at ht
  rw [List.drop_zero] at ht
  have htry := tryAttempts_spec choices allClasses s.backtrackingStack.length
    (attempts (methodsAt allClasses s.backtrackingStack.length)
      (s.world.classes s.backtrackingStack.length) s.world.selectors) 0 s.world
    s.randomNumberGenerator
  dsimp only at htry
  rw [← h.length_eq] at hgen hdup
  split at ht
  · rename_i result index g hplaced
    cases ht
    obtain ⟨n, attempt, hindex, hn, hg, hs, hr⟩ := htry.2.2 result index g hplaced
    rw [Nat.zero_add] at hindex
    subst hindex
    have hplace := hL.place hm (by simpa using hgen) (by simpa using hdup)
      (hnow.le.trans hg) hn hs
    dsimp only at hplace
    rw [← hr] at hplace
    constructor
    · simp [h.length_eq]
    · refine ⟨{ L with now := _ }, rfl, ?_⟩
      dsimp only
      rw [List.set_append_right _ _ le_rfl, Nat.sub_self, List.set_cons_zero]
      exact hplace
  · rename_i hnone
    apply notPlaced_inv hm _ ht
    constructor
    · simp [h.length_eq]
    · refine ⟨{ L with now := _ }, rfl, ?_⟩
      dsimp only
      rw [List.dropLast_concat, htry.2.1 hnone]
      exact hL.advance (hnow.le.trans htry.1)

lemma findShiftsAndMasks_inv (hm : ∀ i, (methodsAt allClasses i).Nodup) (fuel : Nat)
    {s t : Search ι} (h : SearchInv choices allClasses initial σ₀ s)
    (ht : findShiftsAndMasks choices allClasses fuel s = some t) :
    SearchInv choices allClasses initial σ₀ t ∧ allClasses.length ≤ t.currentClassIndex := by
  induction fuel generalizing s with
  | zero =>
    unfold findShiftsAndMasks at ht
    split at ht
    · cases ht
    · cases ht
      exact ⟨h, by omega⟩
  | succ fuel ih =>
    unfold findShiftsAndMasks at ht
    split at ht
    · obtain ⟨u, hu, ht⟩ := Option.bind_eq_some_iff.mp ht
      exact ih (step_inv hm h hu) ht
    · cases ht
      exact ⟨h, by omega⟩

lemma initialSearch_inv (choices : Choices ι) (allClasses : List (ClassData ι))
    (world : World ι Nat) :
    SearchInv choices allClasses world.classes world.selectors (initialSearch world) := by
  constructor
  · rfl
  · refine ⟨⟨0, fun i => if (world.classes i).shouldGenerateImpCache then none else some 0,
      fun i => (world.classes i).droppedBecauseFlatteningSuperclassWasDropped⟩, rfl, ?_⟩
    constructor
    · intro i
      rfl
    · intro i
      simp [initialSearch]
    · intro i d hd
      dsimp only at hd ⊢
      split at hd
      · cases hd
      · cases hd
        exact le_rfl
    · exact .nil _ _
    · exact ⟨_, .nil _ _⟩
    · intro i
      rfl

/-- A class that is still in when all classes are done was placed, and every later placement
kept its bits. -/
lemma SearchInv.sane (hm : ∀ i, (methodsAt allClasses i).Nodup) {s : Search ι}
    (h : SearchInv choices allClasses initial σ₀ s) (hi : i < s.currentClassIndex)
    (hgen : (s.world.classes i).shouldGenerateImpCache = true) :
    (∀ m ∈ methodsAt allClasses i, (s.world.selectors m).Covers (s.world.classes i).shift
        (s.world.classes i).neededBits) ∧
      checkConsistency (s.world.classes i) s.world.selectors (methodsAt allClasses i)
        (fun _ => false) = true := by
  obtain ⟨L, -, hL⟩ := h.agrees
  rw [← h.length_eq] at hi
  have hsplit : s.backtrackingStack = s.backtrackingStack.take i ++
      s.backtrackingStack[i] :: s.backtrackingStack.drop (i + 1) := by
    rw [List.getElem_cons_drop, List.take_append_drop]
  have hbits := hL.bits i
  rw [List.getElem?_eq_getElem hi] at hbits
  have hreplays := hL.stack_replays
  rw [hsplit] at hreplays
  obtain ⟨ρ, -, hstate⟩ := replays_append.mp hreplays
  rw [Nat.zero_add, List.length_take_of_le hi.le] at hstate
  cases hstate with
  | dropped _ _ hdrop _ _ => cases ((hL.dropTime_iff i).mp hgen).symm.trans hdrop
  | placed hplaced hdup hnow hdrop hrest =>
    rename_i attempt
    rw [hplaced.bitsAfter_eq, Prod.mk.injEq] at hbits
    have hs := applyAttempt_success (hm i) hplaced.success
    rw [hbits.1, hbits.2]
    constructor
    · intro m hmem
      exact (hrest.extends hm m).covers (hs.covers m hmem)
    · rw [checkConsistency_iff]
      refine ⟨?_, fun _ _ => rfl⟩
      rw [List.map_congr_left (g := fun m => attempt.slot ((applyAttempt choices
        (methodsAt allClasses i) (initial i) ρ attempt
        s.backtrackingStack[i].randomNumberGenerator).selectors m).inProgressBucketIndex)]
      · exact hs.nodup
      · intro m hmem
        rw [ClassState.mask, hbits.1, hbits.2]
        exact (hrest.extends hm m).slot_eq (hs.covers m hmem)

end History

/-! ### Soundness -/

section Sound

variable {ι : Type} [DecidableEq ι]

omit [DecidableEq ι] in
lemma methodsAt_nodup {allClasses : List (ClassData ι)} (hm : ∀ c ∈ allClasses, c.methods.Nodup)
    (i : Nat) : (methodsAt allClasses i).Nodup := by
  unfold methodsAt
  cases hc : allClasses[i]? with
  | none => exact List.nodup_nil
  | some c => exact hm c (List.mem_of_getElem? hc)

/-- Placing a class keeps the fixed bits of every selector and gives its selectors different
slots of which all bits are fixed; an attempt that fails changes no selector; undoing
successful attempts in reverse order restores selectors and classes; and after the search the
sanity checks of `solveGivenShiftsAndMasks` hold for every class that is still in. -/
theorem placementSearch_sound (choices : Choices ι) (allClasses : List (ClassData ι))
    (hm : ∀ c ∈ allClasses, c.methods.Nodup) :
    (∀ c ∈ allClasses, ∀ classState selectors attempt g,
      let o := applyAttempt choices c.methods classState selectors attempt g
      (o.result.success = true →
        (∀ m, (selectors m).Extends (o.selectors m)) ∧
        (c.methods.map (fun m => ((o.selectors m).inProgressBucketIndex >>> o.classState.shift) &&&
          o.classState.mask)).Nodup ∧
        ∀ m ∈ c.methods, ((o.selectors m).fixedBitsMask >>> o.classState.shift) &&&
          o.classState.mask = o.classState.mask) ∧
      (o.result.success = false → o.selectors = selectors)) ∧
    (∀ (w : World ι Nat) (l : List (Nat × PlacementAttempt × Nat)),
      (∀ r ∈ (w.applyAll choices (methodsAt allClasses) l).2, r.2.success = true) →
      (w.applyAll choices (methodsAt allClasses) l).1.backtrackAll (methodsAt allClasses)
        (w.applyAll choices (methodsAt allClasses) l).2 = w) ∧
    (∀ (w : World ι Nat) (fuel : Nat) (s : Search ι),
      findShiftsAndMasks choices allClasses fuel (initialSearch w) = some s →
      ∀ i c, allClasses[i]? = some c → (s.world.classes i).shouldGenerateImpCache = true →
        (∀ m ∈ c.methods, ((s.world.selectors m).fixedBitsMask >>> (s.world.classes i).shift) &&&
          (s.world.classes i).mask = (s.world.classes i).mask) ∧
        checkConsistency (s.world.classes i) s.world.selectors c.methods (fun _ => false) =
          true) := by
  have hnodup := methodsAt_nodup hm
  refine ⟨?_, ?_, ?_⟩
  · intro c hc classState selectors attempt g
    refine ⟨fun h => ?_, fun h => (applyAttempt_failure h).1⟩
    have hs := applyAttempt_success (hm c hc) h
    rw [hs.classState_eq]
    exact ⟨hs.keeps, hs.nodup, hs.covers⟩
  · intro w l h
    exact World.backtrackAll_applyAll hnodup l w h
  · intro w fuel s hs i c hc hgen
    have hrun := findShiftsAndMasks_inv hnodup fuel (initialSearch_inv choices allClasses w) hs
    have hi : i < allClasses.length := (List.getElem?_eq_some_iff.mp hc).1
    have hmethods : methodsAt allClasses i = c.methods := by
      simp [methodsAt, hc]
    have hsane := hrun.1.sane hnodup (hi.trans_le hrun.2) hgen
    rw [hmethods] at hsane
    exact hsane

end Sound

/-- Choices for an example: selectors sorted by insertion, addresses in rotated order. -/
def sampleChoices : Choices Nat where
  sort key l := l.insertionSort (fun a b => key a ≤ key b)
  sort_perm _ l := List.perm_insertionSort _ l
  shuffle g n := (List.range n).rotate g
  shuffle_perm g _ := List.rotate_perm _ g

def sampleClasses : List (ClassData Nat) :=
  [⟨[0, 1], "First", false, none, "", []⟩, ⟨[1, 2, 3], "Second", false, none, "", []⟩]

def sampleWorld : World Nat Nat :=
  ⟨fun _ => ⟨0, 0⟩, fun i => ⟨0, if i = 0 then 1 else 2, true, false⟩⟩

theorem placementSearch_sound_two :
    ∃ s, findShiftsAndMasks sampleChoices sampleClasses 2 (initialSearch sampleWorld) = some s ∧
      (s.world.classes 1).shouldGenerateImpCache = true ∧
      checkConsistency (s.world.classes 1) s.world.selectors [1, 2, 3] (fun _ => false) =
        true := by
  have hrun : ((findShiftsAndMasks sampleChoices sampleClasses 2
      (initialSearch sampleWorld)).map (fun s => (s.world.classes 1).shouldGenerateImpCache)) =
        some true := by decide +kernel
  obtain ⟨s, hs, hgen⟩ := Option.map_eq_some_iff.mp hrun
  have hsound := placementSearch_sound sampleChoices sampleClasses (by decide)
  exact ⟨s, hs, hgen, (hsound.2.2 sampleWorld 2 s hs 1 _ rfl hgen).2⟩

end Dyld.IMPCaches
