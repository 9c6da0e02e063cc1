import Dyld.Lib.PostOrder

/-!
# The passes of linking

`ImageLoader::link` rebases and binds an image and all that it is linked with, applies interposing,
and makes the constant data read-only. Each of these is a recursive pass that is over the dependents
first; a throw takes the flags of the images away whose turn has not come to its end. At launch the
passes are called one by one, so that interposing comes before binding. Notifications and timings are
left out.
-/

namespace Dyld.ImageLoader

open Dyld.Lib

/-- What is done to an image: `doRebase`, `doBind`, `doInterpose` and `makeDataReadOnly`. -/
inductive Action
  | rebase | bind | interpose | makeReadOnly
  deriving DecidableEq

/-- The flags of the images, and what was done to them so far. -/
structure LinkState (n : Nat) where
  fState : Fin n → Nat
  fInterposed : Fin n → Bool
  fMadeReadOnly : Fin n → Bool
  log : List (Action × Fin n)

/-- `dyld_image_states`. -/
def stateDependentsMapped : Nat := 20
def stateRebased : Nat := 30
def stateBound : Nat := 40

section Code

variable {n : Nat} {ε : Type} (libImage : Fin n → List (Option (Fin n)))
  (throws : Action → Fin n → List (Action × Fin n) → Option ε)

/-- The shape of the recursive passes. What an action throws may depend on all that was done. -/
def recursivePass (action : Action) (flag : LinkState n → Fin n → Bool)
    (set : Bool → Fin n → LinkState n → LinkState n) : GraphPass (Fin n) (LinkState n) ε where
  steps := fun i => (libImage i).filterMap fun lib => lib.map .visit
  marked := flag
  mark := set true
  unmark := fun i _ s => set false i s
  act := fun i _ s =>
    match throws action i s.log with
    | some e => (set false i s, some e)
    | none => ({ s with log := s.log ++ [(action, i)] }, none)

def recursiveRebase : GraphPass (Fin n) (LinkState n) ε :=
  recursivePass libImage throws .rebase (fun s i => decide (stateRebased ≤ s.fState i)) fun flag i s =>
    { s with fState := Function.update s.fState i (if flag then stateRebased else stateDependentsMapped) }

def recursiveBind : GraphPass (Fin n) (LinkState n) ε :=
  recursivePass libImage throws .bind (fun s i => decide (stateBound ≤ s.fState i)) fun flag i s =>
    { s with fState := Function.update s.fState i (if flag then stateBound else stateRebased) }

def recursiveApplyInterposing : GraphPass (Fin n) (LinkState n) ε :=
  recursivePass libImage throws .interpose (fun s i => s.fInterposed i) fun flag i s =>
    { s with fInterposed := Function.update s.fInterposed i flag }

def recursiveMakeDataReadOnly : GraphPass (Fin n) (LinkState n) ε :=
  recursivePass libImage throws .makeReadOnly (fun s i => s.fMadeReadOnly i) fun flag i s =>
    { s with fMadeReadOnly := Function.update s.fMadeReadOnly i flag }

def passOf : Action → GraphPass (Fin n) (LinkState n) ε
  | .rebase => recursiveRebase libImage throws
  | .bind => recursiveBind libImage throws
  | .interpose => recursiveApplyInterposing libImage throws
  | .makeReadOnly => recursiveMakeDataReadOnly libImage throws

def runPasses (fuel : Nat) :
    List (Action × Fin n) → LinkState n → Option (LinkState n × Option ε)
  | [], s => some (s, none)
  | (action, root) :: passes, s =>
    match (passOf libImage throws action).run fuel root s with
    | none => none
    | some (s, some e) => some (s, some e)
    | some (s, none) => runPasses fuel passes s

/-- The passes of `ImageLoader::link`, once all images are loaded. -/
def link (linkingMainExecutable hasInterposingTuples : Bool) (root : Fin n) : List (Action × Fin n) :=
  (.rebase, root) ::
    if linkingMainExecutable then []
    else (.bind, root) ::
      ((if hasInterposingTuples then [(.interpose, root)] else []) ++ [(.makeReadOnly, root)])

/-- The passes of `dyld::_main`, with the inserted libraries. -/
def launch (hasInterposingTuples : Bool) (mainExecutable : Fin n) (inserted : List (Fin n)) :
    List (Action × Fin n) :=
  link true hasInterposingTuples mainExecutable ++
    inserted.flatMap (link true hasInterposingTuples) ++
    (if hasInterposingTuples then (mainExecutable :: inserted).map fun i => (.interpose, i) else []) ++
    ((mainExecutable :: inserted).map fun i => (.bind, i)) ++ [(.makeReadOnly, mainExecutable)]

/-- Calls of `dlopen` after the launch. What one throws is caught, and the next ones still run. -/
def linkAll (fuel : Nat) :
    List (Bool × Fin n) → LinkState n → Option (LinkState n × List (Option ε))
  | [], s => some (s, [])
  | (hasInterposingTuples, root) :: calls, s =>
    match runPasses libImage throws fuel (link false hasInterposingTuples root) s with
    | none => none
    | some (s, error) => (linkAll fuel calls s).map fun r => (r.1, error :: r.2)

def linkProcess (fuel : Nat) (hasInterposingTuples : Bool) (mainExecutable : Fin n)
    (inserted : List (Fin n)) (calls : List (Bool × Fin n)) (s : LinkState n) :
    Option (LinkState n × List (Option ε)) :=
  match runPasses libImage throws fuel (launch hasInterposingTuples mainExecutable inserted) s with
  | none => none
  | some (s, some e) => some (s, [some e])
  | some (s, none) => (linkAll libImage throws fuel calls s).map fun r => (r.1, none :: r.2)

end Code

variable {n : Nat} {ε : Type} {libImage : Fin n → List (Option (Fin n))}
  {throws : Action → Fin n → List (Action × Fin n) → Option ε} {action action' : Action} {i j root : Fin n}
  {fuel : Nat} {s s' : LinkState n} {error : Option ε} {order : List (Fin n)}

/-! ### One pass -/

def LinkState.doneTo (s : LinkState n) (action : Action) : List (Fin n) :=
  s.log.filterMap fun x => if x.1 = action then some x.2 else none

lemma mem_doneTo : i ∈ s.doneTo action ↔ (action, i) ∈ s.log := by
  rw [LinkState.doneTo, List.mem_filterMap]
  constructor
  · rintro ⟨⟨action', j⟩, hmem, heq⟩
    split_ifs at heq with haction
    cases heq
    dsimp only at haction
    rwa [haction] at hmem
  · intro hmem
    exact ⟨(action, i), hmem, if_pos rfl⟩

lemma doneTo_of_log_eq (h : s'.log = s.log) (action : Action) : s'.doneTo action = s.doneTo action := by
  rw [LinkState.doneTo, h]
  rfl

lemma doneTo_append (h : s'.log = s.log ++ [(action, i)]) :
    s'.doneTo action' = s.doneTo action' ++ if action = action' then [i] else [] := by
  rw [LinkState.doneTo, h, List.filterMap_append]
  by_cases haction : action = action'
  · simp [haction, LinkState.doneTo]
  · simp [haction, LinkState.doneTo]

lemma recursivePass_note {flag : LinkState n → Fin n → Bool}
    {set : Bool → Fin n → LinkState n → LinkState n} {a : Fin n} {f : LinkState n → LinkState n} :
    PassStep.note f ∉ (recursivePass libImage throws action flag set).steps a := by
  intro hf
  obtain ⟨lib, -, hlib⟩ := List.mem_filterMap.mp hf
  obtain ⟨c, -, hc⟩ := Option.map_eq_some_iff.mp hlib
  cases hc

lemma recursivePass_logs {flag : LinkState n → Fin n → Bool}
    {set : Bool → Fin n → LinkState n → LinkState n}
    (hset : ∀ b a s i, flag (set b a s) i = if i = a then b else flag s i)
    (hlog : ∀ b a s, (set b a s).log = s.log)
    (hflag : ∀ s log i, flag { s with log := log } i = flag s i) :
    (recursivePass libImage throws action flag set).Logs fun s => s.doneTo action where
  marked_mark := by
    intro a s b
    change flag (set true a s) b = _
    rw [hset]
    by_cases hb : b = a <;> simp [hb, recursivePass]
  log_mark := fun a s => doneTo_of_log_eq (hlog true a s) action
  marked_unmark := by
    intro a _ s b _
    change flag (set false a s) b = _
    rw [hset]
    by_cases hb : b = a <;> simp [hb, recursivePass]
  log_unmark := fun a _ s => doneTo_of_log_eq (hlog false a s) action
  marked_note := fun _ _ hf => absurd hf recursivePass_note
  log_note := fun _ _ hf => absurd hf recursivePass_note
  marked_act := by
    intro a s s' b hb
    dsimp only [recursivePass]
    split
    · rw [hset, if_neg hb]
    · exact hflag s' _ b
  act := by
    intro a s s' _
    dsimp only [recursivePass]
    split
    · right
      refine ⟨doneTo_of_log_eq (hlog false a s') action, rfl, ?_⟩
      rw [hset, if_pos rfl]
    · left
      refine ⟨?_, fun ha => (hflag s' _ a).trans ha⟩
      rw [doneTo_append rfl, if_pos rfl]

def flagOf : Action → LinkState n → Fin n → Bool
  | .rebase, s, i => decide (stateRebased ≤ s.fState i)
  | .bind, s, i => decide (stateBound ≤ s.fState i)
  | .interpose, s, i => s.fInterposed i
  | .makeReadOnly, s, i => s.fMadeReadOnly i

def setOf : Action → Bool → Fin n → LinkState n → LinkState n
  | .rebase, flag, i, s =>
    { s with fState := Function.update s.fState i (if flag then stateRebased else stateDependentsMapped) }
  | .bind, flag, i, s =>
    { s with fState := Function.update s.fState i (if flag then stateBound else stateRebased) }
  | .interpose, flag, i, s => { s with fInterposed := Function.update s.fInterposed i flag }
  | .makeReadOnly, flag, i, s => { s with fMadeReadOnly := Function.update s.fMadeReadOnly i flag }

lemma passOf_eq (action : Action) :
    passOf libImage throws action = recursivePass libImage throws action (flagOf action) (setOf action) := by
  cases action <;> rfl

@[simp] lemma log_setOf (action : Action) (flag : Bool) (i : Fin n) (s : LinkState n) :
    (setOf action flag i s).log = s.log := by
  cases action <;> rfl

lemma flagOf_log (action : Action) (s : LinkState n) (log : List (Action × Fin n)) (i : Fin n) :
    flagOf action { s with log := log } i = flagOf action s i := by
  cases action <;> rfl

lemma flagOf_setOf (action : Action) (flag : Bool) (a : Fin n) (s : LinkState n) (i : Fin n) :
    flagOf action (setOf action flag a s) i = if i = a then flag else flagOf action s i := by
  by_cases hi : i = a
  · cases action <;> cases flag <;>
      simp [flagOf, setOf, hi, stateBound, stateRebased, stateDependentsMapped]
  · cases action <;> simp [flagOf, setOf, hi]

/-- The passes share `fState`: binding an image counts as rebasing it, and rebasing one takes away
that it is bound. -/
lemma flagOf_setOf_of_ne (h : action ≠ action') (flag : Bool) (a : Fin n) (s : LinkState n)
    (i : Fin n) :
    flagOf action (setOf action' flag a s) i =
      if i = a ∧ action = .rebase ∧ action' = .bind then true
      else if i = a ∧ action = .bind ∧ action' = .rebase then false
      else flagOf action s i := by
  by_cases hi : i = a
  · cases action <;> cases action' <;> first
      | exact absurd rfl h
      | (cases flag <;> simp [flagOf, setOf, hi, stateBound, stateRebased, stateDependentsMapped])
  · cases action <;> cases action' <;> simp [flagOf, setOf, hi]
    all_goals rfl

lemma passOf_logs (action : Action) :
    (passOf libImage throws action).Logs fun s => s.doneTo action := by
  rw [passOf_eq]
  exact recursivePass_logs (flagOf_setOf action) (log_setOf action) (flagOf_log action)

variable (libImage throws) in
lemma passOf_marked (action : Action) (s : LinkState n) (i : Fin n) :
    (passOf libImage throws action).marked s i = flagOf action s i := by
  rw [passOf_eq]
  rfl

def LinkedWith (libImage : Fin n → List (Option (Fin n))) (i j : Fin n) : Prop :=
  some j ∈ libImage i

abbrev Reaches (libImage : Fin n → List (Option (Fin n))) : Fin n → Fin n → Prop :=
  Relation.ReflTransGen (LinkedWith libImage)

lemma dep_iff : (passOf libImage throws action).Dep i j ↔ LinkedWith libImage i j := by
  have hsteps : (passOf libImage throws action).steps i =
      (libImage i).filterMap fun lib => lib.map .visit := by
    cases action <;> rfl
  unfold GraphPass.Dep LinkedWith
  rw [hsteps, List.mem_filterMap]
  constructor
  · rintro ⟨lib, hlib, heq⟩
    obtain ⟨c, rfl, hc⟩ := Option.map_eq_some_iff.mp heq
    cases hc
    exact hlib
  · intro h
    exact ⟨some j, h, rfl⟩

lemma reaches_iff : (passOf libImage throws action).Reaches i j ↔ Reaches libImage i j := by
  have heq : (passOf libImage throws action).Dep = LinkedWith libImage := by
    funext a b
    exact propext dep_iff
  unfold GraphPass.Reaches Reaches
  rw [heq]

lemma flagOf_rebase_of_bind (h : flagOf .bind s i = true) : flagOf .rebase s i = true := by
  change decide (stateBound ≤ s.fState i) = true at h
  change decide (stateRebased ≤ s.fState i) = true
  rw [decide_eq_true_eq] at h ⊢
  exact le_trans (by decide) h

lemma passOf_preserves {I : LinkState n → Prop}
    (hmark : ∀ a s, Reaches libImage root a → flagOf action s a = false → I s → I (setOf action true a s))
    (hunmark : ∀ a s s', Reaches libImage root a → flagOf action s a = false → I s → I s' →
      I (setOf action false a s'))
    (hlog : ∀ a s, I s → I { s with log := s.log ++ [(action, a)] })
    (hrun : (passOf libImage throws action).run fuel root s = some (s', error)) (hs : I s) : I s' := by
  rw [passOf_eq] at hrun
  refine GraphPass.run_preserves ⟨?_, ?_, ?_, ?_⟩ hrun Relation.ReflTransGen.refl hs
  · intro a t ha ht hI
    rw [← passOf_eq] at ha
    exact hmark a t (reaches_iff.mp ha) ht hI
  · intro a t t' ha ht hI hI'
    rw [← passOf_eq] at ha
    exact hunmark a t t' (reaches_iff.mp ha) ht hI hI'
  · exact fun _ _ _ hf => absurd hf recursivePass_note
  · intro a t t' ha ht hI hI'
    rw [← passOf_eq] at ha
    dsimp only [recursivePass]
    split
    · exact hunmark a t t' (reaches_iff.mp ha) ht hI hI'
    · exact hlog a t' hI'

lemma passOf_log (hrun : (passOf libImage throws action).run fuel root s = some (s', error)) :
    ∃ order : List (Fin n), s'.log = s.log ++ order.map fun i => (action, i) := by
  refine passOf_preserves (I := fun t => ∃ order : List (Fin n),
    t.log = s.log ++ order.map fun i => (action, i)) ?_ ?_ ?_ hrun ⟨[], by simp⟩
  · intro a t _ _ h
    rwa [log_setOf]
  · intro a _ t' _ _ _ h
    rwa [log_setOf]
  · rintro a t ⟨order, horder⟩
    exact ⟨order ++ [a], by simp [horder]⟩

lemma doneTo_map (h : s'.log = s.log ++ order.map fun i => (action, i)) :
    s'.doneTo action = s.doneTo action ++ order := by
  rw [LinkState.doneTo, h, List.filterMap_append, List.filterMap_map]
  simp [LinkState.doneTo]

lemma nodup_doneTo (h : s.log.Nodup) (action : Action) : (s.doneTo action).Nodup := by
  apply h.filterMap
  rintro ⟨k, i⟩ ⟨k', i'⟩ j hj hj'
  rw [Option.mem_def, Option.ite_none_right_eq_some] at hj hj'
  exact Prod.ext (hj.1.trans hj'.1.symm) (Option.some.inj (hj.2.trans hj'.2.symm))

lemma nodup_append_map (h : s.log.Nodup) (horder : (s.doneTo action ++ order).Nodup) :
    (s.log ++ order.map fun i => (action, i)).Nodup := by
  rw [List.nodup_append] at horder ⊢
  obtain ⟨-, hnodup, hdisjoint⟩ := horder
  refine ⟨h, hnodup.map fun i j hij => (Prod.mk.inj hij).2, ?_⟩
  rintro x hx y hy rfl
  obtain ⟨i, hi, rfl⟩ := List.mem_map.mp hy
  exact hdisjoint i (mem_doneTo.mpr hx) i hi rfl

/-- What is marked at the start of a pass without being done stays out of it. -/
lemma passOf_spec (hrun : (passOf libImage throws action).run fuel root s = some (s', error))
    (hnodup : s.log.Nodup) (hflags : ∀ i, (action, i) ∈ s.log → flagOf action s i = true) :
    ∃ order, s'.log = s.log ++ order.map (fun i => (action, i)) ∧
      (passOf libImage throws action).Visited (fun t => t.doneTo action)
        (fun i => flagOf action s i = true ∧ (action, i) ∉ s.log) []
        ((passOf libImage throws action).Reaches root) (fun i => i = root) s s' error order := by
  have hinv : (passOf libImage throws action).Inv (fun t => t.doneTo action)
      (fun i => flagOf action s i = true ∧ (action, i) ∉ s.log) [] s := by
    refine ⟨?_, nodup_doneTo hnodup action, ?_⟩
    · intro i
      rw [passOf_marked, mem_doneTo]
      have := hflags i
      simp only [List.not_mem_nil, false_or]
      tauto
    · intro i hi
      rw [mem_doneTo] at hi
      exact ⟨List.not_mem_nil, fun h => h.2 hi⟩
  obtain ⟨order, hv⟩ := GraphPass.run_spec (passOf_logs action) hrun hinv (by simp)
  obtain ⟨order', horder'⟩ := passOf_log hrun
  have heq : s'.doneTo action = s.doneTo action ++ order := hv.log_eq
  rw [doneTo_map horder'] at heq
  rw [List.append_cancel_left heq] at horder'
  exact ⟨order, horder', hv⟩

end Dyld.ImageLoader
