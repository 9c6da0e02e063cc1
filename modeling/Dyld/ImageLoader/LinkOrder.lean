import Dyld.ImageLoader.Link

/-!
# The order of linking

All that linking does in a process, from the launch over each `dlopen`: nothing is done twice, and each
image comes after those that it is linked with.
-/

namespace Dyld.ImageLoader

open Dyld.Lib

variable {n : Nat} {ε : Type} {libImage : Fin n → List (Option (Fin n))}
  {throws : Action → Fin n → List (Action × Fin n) → Option ε} {action : Action} {root : Fin n} {fuel : Nat}
  {s s' : LinkState n} {error : Option ε} {passes done : List (Action × Fin n)}

/-! ### Nothing is done twice -/

/-- Nothing is done twice, and what is done is marked. -/
structure Once (s : LinkState n) : Prop where
  nodup : s.log.Nodup
  flags : ∀ action i, (action, i) ∈ s.log → flagOf action s i = true

lemma Once.pass (h : Once s)
    (hrun : (passOf libImage throws action).run fuel root s = some (s', error)) : Once s' := by
  obtain ⟨order, hlog, hv⟩ := passOf_spec hrun h.nodup (h.flags action)
  have hdone := hv.inv.nodup
  rw [hv.log_eq] at hdone
  refine ⟨by rw [hlog]; exact nodup_append_map h.nodup hdone, ?_⟩
  intro action' i hi
  by_cases haction : action' = action
  · subst haction
    rw [← passOf_marked libImage throws, hv.inv.marked, mem_doneTo]
    exact Or.inl hi
  · -- the other flags are kept where something was done
    suffices hkeep : ∀ i, ((action', i) ∈ s'.log ↔ (action', i) ∈ s.log) ∧
        ((action', i) ∈ s'.log → flagOf action' s' i = true) from (hkeep i).2 hi
    have hset : ∀ flag (a : Fin n) (t t' : LinkState n), flagOf action t a = false →
        (∀ i, (action', i) ∈ t.log → flagOf action' t i = true) →
        (∀ i, (action', i) ∈ t'.log → (action', i) ∈ t.log) →
        (∀ i, (action', i) ∈ t'.log → flagOf action' t' i = true) →
        ∀ i, (action', i) ∈ t'.log → flagOf action' (setOf action flag a t') i = true := by
      intro flag a t t' ht htflag htlog htflag' i hi
      rw [flagOf_setOf_of_ne haction]
      split_ifs with hbind hrebase
      · rfl
      · obtain ⟨rfl, rfl, rfl⟩ := hrebase
        rw [flagOf_rebase_of_bind (htflag i (htlog i hi))] at ht
        cases ht
      · exact htflag' i hi
    refine passOf_preserves (I := fun t => ∀ i, ((action', i) ∈ t.log ↔ (action', i) ∈ s.log) ∧
      ((action', i) ∈ t.log → flagOf action' t i = true)) ?_ ?_ ?_ hrun
      (fun i => ⟨Iff.rfl, h.flags action' i⟩)
    · intro a t _ ht hI i
      rw [log_setOf]
      exact ⟨(hI i).1, hset true a t t ht (fun i => (hI i).2) (fun _ => id) (fun i => (hI i).2) i⟩
    · intro a t t' _ ht hI hI' i
      rw [log_setOf]
      exact ⟨(hI' i).1, hset false a t t' ht (fun i => (hI i).2)
        (fun i hi => (hI i).1.mpr ((hI' i).1.mp hi)) (fun i => (hI' i).2) i⟩
    · intro a t hI i
      have hmem : (action', i) ∈ t.log ++ [(action, a)] ↔ (action', i) ∈ t.log := by
        rw [List.mem_append, List.mem_singleton, Prod.mk.injEq]
        tauto
      dsimp only
      rw [hmem, flagOf_log]
      exact hI i

lemma Once.runPasses (h : Once s) (hrun : runPasses libImage throws fuel passes s = some (s', error)) :
    Once s' := by
  induction passes generalizing s with
  | nil =>
    cases hrun
    exact h
  | cons pass passes ih =>
    obtain ⟨action, root⟩ := pass
    rw [ImageLoader.runPasses] at hrun
    split at hrun
    · cases hrun
    · next heq =>
      cases hrun
      exact h.pass heq
    · next heq => exact ih (h.pass heq) hrun

lemma Once.linkAll {calls : List (Bool × Fin n)} {errors : List (Option ε)} (h : Once s)
    (hrun : linkAll libImage throws fuel calls s = some (s', errors)) : Once s' := by
  induction calls generalizing s errors with
  | nil =>
    cases hrun
    exact h
  | cons call calls ih =>
    obtain ⟨hasInterposingTuples, root⟩ := call
    rw [ImageLoader.linkAll] at hrun
    split at hrun
    · cases hrun
    · next heq =>
      obtain ⟨r, hr, hs'⟩ := Option.map_eq_some_iff.mp hrun
      cases hs'
      exact ih (h.runPasses heq) hr

/-! ### The order of the actions -/

/-- What must have been done to an image before. -/
def needs : Action → Option Action
  | .rebase => none
  | .bind => some .rebase
  | .interpose => some .rebase
  | .makeReadOnly => some .bind

def Acyclic (libImage : Fin n → List (Option (Fin n))) : Prop :=
  ∀ i j, LinkedWith libImage i j → ¬Reaches libImage j i

def LinkInOrder (libImage : Fin n → List (Option (Fin n))) (log : List (Action × Fin n)) : Prop :=
  ∀ pre action i post, log = pre ++ (action, i) :: post →
    (∀ j, LinkedWith libImage i j → (action, j) ∈ pre ∨ Reaches libImage j i) ∧
    ∀ action', needs action = some action' → (action', i) ∈ pre

/-- What holds between passes, as long as a throw never meets a cycle. -/
structure Linked (libImage : Fin n → List (Option (Fin n))) (s : LinkState n) : Prop where
  flags : ∀ action i, flagOf action s i = true ↔ (action, i) ∈ s.log
  nodup : s.log.Nodup
  ordered : LinkInOrder libImage s.log
  closed : ∀ action i j, (action, i) ∈ s.log → LinkedWith libImage i j → (action, j) ∈ s.log

lemma passOf_flagOf {action action' : Action} (hne : action' ≠ action)
    (hneeds : ∀ k, needs action = some k → ∀ i, Reaches libImage root i → flagOf k s i = true)
    (hrun : (passOf libImage throws action).run fuel root s = some (s', error)) (i : Fin n) :
    flagOf action' s' i = flagOf action' s i := by
  have hset : ∀ flag (a : Fin n) (t t' : LinkState n), Reaches libImage root a →
      flagOf action t a = false → (∀ i, flagOf action' t i = flagOf action' s i) →
      (∀ i, flagOf action' t' i = flagOf action' s i) →
      ∀ i, flagOf action' (setOf action flag a t') i = flagOf action' s i := by
    intro flag a t t' ha ht hI hI' i
    rw [flagOf_setOf_of_ne hne]
    split_ifs with hbind hrebase
    · obtain ⟨rfl, rfl, rfl⟩ := hbind
      exact (hneeds .rebase rfl i ha).symm
    · obtain ⟨rfl, rfl, rfl⟩ := hrebase
      rw [← hI i]
      by_contra hbound
      rw [flagOf_rebase_of_bind ((Bool.eq_false_or_eq_true _).resolve_right (Ne.symm hbound))] at ht
      cases ht
    · exact hI' i
  refine passOf_preserves (I := fun t => ∀ i, flagOf action' t i = flagOf action' s i) ?_ ?_ ?_ hrun
    (fun _ => rfl) i
  · exact fun a t ha ht hI => hset true a t t ha ht hI hI
  · exact fun a t t' ha ht hI hI' => hset false a t t' ha ht hI hI'
  · intro a t hI i
    rw [flagOf_log]
    exact hI i

lemma LinkInOrder.append {log : List (Action × Fin n)} {order : List (Fin n)}
    (h : LinkInOrder libImage log)
    (hdep : ∀ pre i post, order = pre ++ i :: post → ∀ j, LinkedWith libImage i j →
      (action, j) ∈ log ∨ j ∈ pre ∨ Reaches libImage j i)
    (hneeds : ∀ i ∈ order, ∀ action', needs action = some action' → (action', i) ∈ log) :
    LinkInOrder libImage (log ++ order.map fun i => (action, i)) := by
  intro pre action₁ i post heq
  rcases split_append heq with ⟨c, rfl, hc⟩ | ⟨c, hc⟩
  · obtain ⟨front, rest, rfl, rfl, hrest⟩ := List.map_eq_append_iff.mp hc
    obtain ⟨i', rest, rfl, hi', rfl⟩ := List.map_eq_cons_iff.mp hrest
    cases hi'
    refine ⟨?_, ?_⟩
    · intro j hj
      rcases hdep front i rest rfl j hj with hmem | hmem | hreach
      · exact Or.inl (List.mem_append_left _ hmem)
      · exact Or.inl (List.mem_append_right _ (List.mem_map.mpr ⟨j, hmem, rfl⟩))
      · exact Or.inr hreach
    · intro action' hneed
      exact List.mem_append_left _ (hneeds i (by simp) action' hneed)
  · exact h pre action₁ i c hc

lemma Linked.pass (h : Linked libImage s)
    (hneeds : ∀ k, needs action = some k → ∀ i, Reaches libImage root i → (k, i) ∈ s.log)
    (hrun : (passOf libImage throws action).run fuel root s = some (s', error))
    (hcycles : error = none ∨ Acyclic libImage) :
    Linked libImage s' ∧
      (∃ order : List (Fin n), s'.log = s.log ++ order.map (fun i => (action, i)) ∧
        ∀ i ∈ order, Reaches libImage root i) ∧
      (error = none → ∀ i, Reaches libImage root i → (action, i) ∈ s'.log) := by
  obtain ⟨order, hlog, hv⟩ := passOf_spec hrun h.nodup fun i => (h.flags action i).mpr
  have hothers : ∀ i, ¬(flagOf action s i = true ∧ (action, i) ∉ s.log) :=
    fun i hi => hi.2 ((h.flags action i).mp hi.1)
  have hflag : ∀ i, flagOf action s' i = true ↔ (action, i) ∈ s'.log := by
    intro i
    rw [← passOf_marked libImage throws, hv.inv.marked, mem_doneTo]
    have := hothers i
    simp only [List.not_mem_nil, false_or]
    tauto
  have hmem : ∀ i, i ∈ order → (action, i) ∈ s'.log := by
    intro i hi
    rw [hlog]
    exact List.mem_append_right _ (List.mem_map.mpr ⟨i, hi, rfl⟩)
  have hdone := hv.inv.nodup
  rw [hv.log_eq] at hdone
  have hreach : ∀ i ∈ order, Reaches libImage root i := fun i hi => reaches_iff.mp (hv.reaches i hi)
  have hordered : ∀ pre i post, order = pre ++ i :: post → ∀ j, LinkedWith libImage i j →
      (action, j) ∈ s.log ∨ j ∈ pre ∨ Reaches libImage j i := by
    intro pre i post heq j hj
    rcases hv.ordered pre i post heq j (dep_iff.mpr hj) with hj' | hj' | hj'
    · rw [List.mem_append, mem_doneTo] at hj'
      rcases hj' with hj' | hj'
      · exact Or.inl hj'
      · exact Or.inr (Or.inl hj')
    · exact absurd hj' (hothers j)
    · exact Or.inr (Or.inr (reaches_iff.mp hj'))
  have hclosed : ∀ i ∈ order, ∀ j, LinkedWith libImage i j → (action, j) ∈ s'.log := by
    intro i hi j hj
    rcases hcycles with rfl | hacyclic
    · rw [← hflag, ← passOf_marked libImage throws]
      exact hv.closed rfl i hi j (dep_iff.mpr hj)
    · obtain ⟨pre, post, heq⟩ := List.append_of_mem hi
      rcases hordered pre i post heq j hj with hj' | hj' | hj'
      · rw [hlog]
        exact List.mem_append_left _ hj'
      · exact hmem j (heq ▸ List.mem_append_left _ hj')
      · exact absurd hj' (hacyclic i j hj)
  refine ⟨⟨?_, ?_, ?_, ?_⟩, ⟨order, hlog, hreach⟩, ?_⟩
  · intro action' i
    by_cases haction : action' = action
    · rw [haction]
      exact hflag i
    · rw [passOf_flagOf haction (fun k hk i hi => (h.flags k i).mpr (hneeds k hk i hi)) hrun i, h.flags,
        hlog, List.mem_append, List.mem_map]
      constructor
      · exact Or.inl
      · rintro (hi | ⟨i', -, heq⟩)
        · exact hi
        · exact absurd (Prod.mk.inj heq).1.symm haction
  · rw [hlog]
    exact nodup_append_map h.nodup hdone
  · rw [hlog]
    exact h.ordered.append hordered fun i hi k hk => hneeds k hk i (hreach i hi)
  · intro action' i j hi hj
    rw [hlog, List.mem_append] at hi
    rcases hi with hi | hi
    · rw [hlog]
      exact List.mem_append_left _ (h.closed action' i j hi hj)
    · obtain ⟨i', hi', heq⟩ := List.mem_map.mp hi
      cases heq
      exact hclosed i hi' j hj
  · rintro rfl i hi
    induction hi with
    | refl =>
      rw [← hflag, ← passOf_marked libImage throws]
      exact hv.marked rfl root rfl
    | @tail i j _ hj ih =>
      rw [hlog, List.mem_append] at ih
      rcases ih with hi | hi
      · rw [hlog]
        exact List.mem_append_left _ (h.closed action i j hi hj)
      · obtain ⟨i', hi', heq⟩ := List.mem_map.mp hi
        cases heq
        exact hclosed i hi' j hj

/-! ### Runs of passes -/

def Staged : List (Action × Fin n) → List (Action × Fin n) → Prop
  | _, [] => True
  | done, (action, root) :: passes =>
    (∀ k, needs action = some k → (k, root) ∈ done) ∧ Staged (done ++ [(action, root)]) passes

lemma Staged.append {done passes passes' : List (Action × Fin n)} (h : Staged done passes)
    (h' : Staged (done ++ passes) passes') : Staged done (passes ++ passes') := by
  induction passes generalizing done with
  | nil => rwa [List.append_nil] at h'
  | cons pass passes ih =>
    refine ⟨h.1, ih h.2 ?_⟩
    rwa [List.append_assoc]

lemma staged_of_forall (h : ∀ pass ∈ passes, ∀ k, needs pass.1 = some k → (k, pass.2) ∈ done) :
    Staged done passes := by
  induction passes generalizing done with
  | nil => trivial
  | cons pass passes ih =>
    refine ⟨h pass List.mem_cons_self, ih ?_⟩
    intro p hp k hk
    exact List.mem_append_left _ (h p (List.mem_cons_of_mem pass hp) k hk)

lemma staged_link (linkingMainExecutable hasInterposingTuples : Bool) (root : Fin n) :
    Staged [] (link linkingMainExecutable hasInterposingTuples root) := by
  cases linkingMainExecutable <;> cases hasInterposingTuples <;> simp [link, Staged, needs]

lemma staged_launch (hasInterposingTuples : Bool) (mainExecutable : Fin n) (inserted : List (Fin n)) :
    Staged [] (launch hasInterposingTuples mainExecutable inserted) := by
  have hrebased : ∀ i ∈ mainExecutable :: inserted, (Action.rebase, i) ∈
      link true hasInterposingTuples mainExecutable ++
        inserted.flatMap (link true hasInterposingTuples) := by
    intro i hi
    rw [← List.flatMap_cons, List.mem_flatMap]
    exact ⟨i, hi, List.mem_cons_self⟩
  refine Staged.append (Staged.append (Staged.append (Staged.append ?_ ?_) ?_) ?_) ?_
  · exact staged_link true hasInterposingTuples mainExecutable
  · apply staged_of_forall
    intro pass hpass k hk
    obtain ⟨i, -, hi⟩ := List.mem_flatMap.mp hpass
    cases List.mem_singleton.mp hi
    cases hk
  · apply staged_of_forall
    intro pass hpass k hk
    split_ifs at hpass
    · obtain ⟨i, hi, rfl⟩ := List.mem_map.mp hpass
      cases hk
      exact hrebased i hi
    · cases hpass
  · apply staged_of_forall
    intro pass hpass k hk
    obtain ⟨i, hi, rfl⟩ := List.mem_map.mp hpass
    cases hk
    rw [List.nil_append]
    exact List.mem_append_left _ (hrebased i hi)
  · apply staged_of_forall
    intro pass hpass k hk
    cases List.mem_singleton.mp hpass
    cases hk
    rw [List.nil_append]
    exact List.mem_append_right _ (List.mem_map.mpr ⟨mainExecutable, List.mem_cons_self, rfl⟩)

def Complete (libImage : Fin n → List (Option (Fin n))) (passes : List (Action × Fin n))
    (log : List (Action × Fin n)) : Prop :=
  ∀ pass ∈ passes, ∀ i, Reaches libImage pass.2 i → (pass.1, i) ∈ log

def Only (libImage : Fin n → List (Option (Fin n))) (passes : List (Action × Fin n))
    (log : List (Action × Fin n)) : Prop :=
  ∀ x ∈ log, ∃ root, (x.1, root) ∈ passes ∧ Reaches libImage root x.2

lemma Only.mono {passes passes' : List (Action × Fin n)} {log : List (Action × Fin n)}
    (h : Only libImage passes log) (hsub : passes ⊆ passes') : Only libImage passes' log := by
  intro x hx
  obtain ⟨root, hroot, hreach⟩ := h x hx
  exact ⟨root, hsub hroot, hreach⟩

structure Ran (libImage : Fin n → List (Option (Fin n))) (passes : List (Action × Fin n))
    (s s' : LinkState n) (error : Option ε) : Prop where
  linked : Linked libImage s'
  grown : ∃ added, s'.log = s.log ++ added ∧ Only libImage passes added
  complete : error = none → Complete libImage passes s'.log

lemma Linked.runPasses (h : Linked libImage s) (hdone : Complete libImage done s.log)
    (hstaged : Staged done passes) (hrun : runPasses libImage throws fuel passes s = some (s', error))
    (hcycles : error = none ∨ Acyclic libImage) : Ran libImage passes s s' error := by
  induction passes generalizing done s with
  | nil =>
    cases hrun
    exact ⟨h, ⟨[], by simp, by simp [Only]⟩, fun _ => by simp [Complete]⟩
  | cons pass passes ih =>
    obtain ⟨action, root⟩ := pass
    obtain ⟨hneeds, hstaged⟩ := hstaged
    have hready : ∀ k, needs action = some k → ∀ i, Reaches libImage root i → (k, i) ∈ s.log :=
      fun k hk i hi => hdone (k, root) (hneeds k hk) i hi
    have honly : ∀ order : List (Fin n), (∀ i ∈ order, Reaches libImage root i) →
        Only libImage ((action, root) :: passes) (order.map fun i => (action, i)) := by
      intro order horder x hx
      obtain ⟨i, hi, rfl⟩ := List.mem_map.mp hx
      exact ⟨root, List.mem_cons_self, horder i hi⟩
    rw [ImageLoader.runPasses] at hrun
    split at hrun
    · cases hrun
    · next s₁ e heq =>
      cases hrun
      obtain ⟨hlinked, ⟨order, hlog, hreach⟩, -⟩ := h.pass hready heq hcycles
      exact ⟨hlinked, ⟨_, hlog, honly order hreach⟩, fun herror => by cases herror⟩
    · next s₁ heq =>
      obtain ⟨hlinked, ⟨order, hlog, hreach⟩, hall⟩ := h.pass hready heq (Or.inl rfl)
      have hdone₁ : Complete libImage (done ++ [(action, root)]) s₁.log := by
        intro pass hpass i hi
        rcases List.mem_append.mp hpass with hpass | hpass
        · rw [hlog]
          exact List.mem_append_left _ (hdone pass hpass i hi)
        · cases List.mem_singleton.mp hpass
          exact hall rfl i hi
      obtain ⟨hlinked', ⟨added, hlog', honly'⟩, hcomplete⟩ := ih hlinked hdone₁ hstaged hrun
      refine ⟨hlinked', ⟨_, by rw [hlog', hlog, List.append_assoc], ?_⟩, ?_⟩
      · intro x hx
        rcases List.mem_append.mp hx with hx | hx
        · exact honly order hreach x hx
        · exact honly'.mono (List.subset_cons_self _ _) x hx
      · intro herror pass hpass i hi
        rcases List.mem_cons.mp hpass with rfl | hpass
        · rw [hlog']
          exact List.mem_append_left _ (hall rfl i hi)
        · exact hcomplete herror pass hpass i hi

/-- The passes of all the calls, each with what it threw. -/
lemma Linked.linkAll {calls : List (Bool × Fin n)} {errors : List (Option ε)} (h : Linked libImage s)
    (hrun : linkAll libImage throws fuel calls s = some (s', errors))
    (hcycles : (∀ e ∈ errors, e = none) ∨ Acyclic libImage) :
    Linked libImage s' ∧
      (∃ added, s'.log = s.log ++ added ∧
        Only libImage (calls.flatMap fun call => link false call.1 call.2) added) ∧
      ∀ call error, (call, error) ∈ calls.zip errors → error = none →
        Complete libImage (link false call.1 call.2) s'.log := by
  induction calls generalizing s errors with
  | nil =>
    cases hrun
    exact ⟨h, ⟨[], by simp, by simp [Only]⟩, by simp⟩
  | cons call calls ih =>
    obtain ⟨hasInterposingTuples, root⟩ := call
    rw [ImageLoader.linkAll] at hrun
    split at hrun
    · cases hrun
    · next s₁ error heq =>
      obtain ⟨⟨s₂, errors⟩, hr, hs'⟩ := Option.map_eq_some_iff.mp hrun
      cases hs'
      have hcycles₁ : error = none ∨ Acyclic libImage :=
        hcycles.imp_left fun he => he error List.mem_cons_self
      obtain ⟨hlinked, ⟨added₁, hlog₁, honly₁⟩, hcomplete₁⟩ :=
        h.runPasses (by simp [Complete] : Complete libImage [] s.log) (staged_link false hasInterposingTuples root) heq
          hcycles₁
      obtain ⟨hlinked', ⟨added, hlog, honly⟩, hcomplete⟩ :=
        ih hlinked hr (hcycles.imp_left fun he e hmem => he e (List.mem_cons_of_mem _ hmem))
      refine ⟨hlinked', ⟨added₁ ++ added, by rw [hlog, hlog₁, List.append_assoc], ?_⟩, ?_⟩
      · intro x hx
        rw [List.flatMap_cons]
        rcases List.mem_append.mp hx with hx | hx
        · exact honly₁.mono (List.subset_append_left _ _) x hx
        · exact honly.mono (List.subset_append_right _ _) x hx
      · intro call error' hmem herror
        rw [List.zip_cons_cons] at hmem
        rcases List.mem_cons.mp hmem with hmem | hmem
        · cases hmem
          intro pass hpass i hi
          rw [hlog]
          exact List.mem_append_left _ (hcomplete₁ herror pass hpass i hi)
        · exact hcomplete call error' hmem herror

/-! ### Linking ends -/

variable (libImage throws) in
lemma exists_runPasses (hfuel : n < fuel) (passes : List (Action × Fin n)) (s : LinkState n) :
    ∃ s' error, runPasses libImage throws fuel passes s = some (s', error) := by
  induction passes generalizing s with
  | nil => exact ⟨s, none, rfl⟩
  | cons pass passes ih =>
    obtain ⟨action, root⟩ := pass
    have hcount : (passOf libImage throws action).unmarkedCount s < fuel := by
      refine lt_of_le_of_lt (Finset.card_le_univ _) ?_
      rwa [Fintype.card_fin]
    obtain ⟨s₁, error, hrun⟩ := GraphPass.exists_run (passOf_logs action) root hcount
    rw [runPasses, hrun]
    cases error with
    | some e => exact ⟨s₁, some e, rfl⟩
    | none => exact ih s₁

variable (libImage throws) in
lemma exists_linkAll (hfuel : n < fuel) (calls : List (Bool × Fin n)) (s : LinkState n) :
    ∃ s' errors, linkAll libImage throws fuel calls s = some (s', errors) := by
  induction calls generalizing s with
  | nil => exact ⟨s, [], rfl⟩
  | cons call calls ih =>
    obtain ⟨hasInterposingTuples, root⟩ := call
    obtain ⟨s₁, error, hrun⟩ :=
      exists_runPasses libImage throws hfuel
        (link false hasInterposingTuples root) s
    obtain ⟨s', errors, hrest⟩ := ih s₁
    exact ⟨s', error :: errors, by rw [linkAll, hrun]; simp [hrest]⟩

variable (libImage throws) in
lemma exists_linkProcess (hfuel : n < fuel) (hasInterposingTuples : Bool) (mainExecutable : Fin n)
    (inserted : List (Fin n)) (calls : List (Bool × Fin n)) (s : LinkState n) :
    ∃ s' errors, linkProcess libImage throws fuel hasInterposingTuples mainExecutable inserted calls s =
      some (s', errors) := by
  obtain ⟨s₁, error, hrun⟩ := exists_runPasses libImage throws hfuel
    (launch hasInterposingTuples mainExecutable inserted) s
  rw [linkProcess, hrun]
  cases error with
  | some e => exact ⟨s₁, [some e], rfl⟩
  | none =>
    obtain ⟨s', errors, hrest⟩ := exists_linkAll libImage throws hfuel calls s₁
    exact ⟨s', none :: errors, by simp [hrest]⟩

/-! ### All linking in a process -/

/-- Whatever throws, and whatever is linked with what, no image is rebased, bound, interposed or made
read-only twice. -/
theorem linkProcess_once (libImage : Fin n → List (Option (Fin n)))
    (throws : Action → Fin n → List (Action × Fin n) → Option ε) (hasInterposingTuples : Bool)
    (mainExecutable : Fin n) (inserted : List (Fin n)) (calls : List (Bool × Fin n))
    {s : LinkState n} (hs : s.log = []) :
    ∃ s' errors, linkProcess libImage throws (n + 1) hasInterposingTuples mainExecutable inserted calls s =
      some (s', errors) ∧ s'.log.Nodup := by
  obtain ⟨s', errors, hrun⟩ := exists_linkProcess libImage throws
    (Nat.lt_succ_self n) hasInterposingTuples mainExecutable inserted calls s
  refine ⟨s', errors, hrun, ?_⟩
  have hstart : Once s := ⟨by simp [hs], by simp [hs]⟩
  suffices h : Once s' from h.nodup
  rw [linkProcess] at hrun
  split at hrun
  · cases hrun
  · next heq =>
    cases hrun
    exact hstart.runPasses heq
  · next heq =>
    obtain ⟨r, hr, hs'⟩ := Option.map_eq_some_iff.mp hrun
    cases hs'
    exact (hstart.runPasses heq).linkAll hr

def LinkState.loaded (n : Nat) : LinkState n where
  fState := fun _ => stateDependentsMapped
  fInterposed := fun _ => false
  fMadeReadOnly := fun _ => false
  log := []

/-- Three images of which the last two are linked with each other, one of which cannot be bound. -/
theorem linkProcess_once_cycle :
    ∃ s' errors, linkProcess (n := 3) (fun i => if i = 0 then [some 1, none] else [some (3 - i)])
      (fun action i _ => if action = .bind ∧ i = 2 then some "Symbol not found" else none) 4 true 0 [2]
      [(true, 1), (false, 2)] (LinkState.loaded 3) = some (s', errors) ∧ s'.log.Nodup :=
  linkProcess_once _ _ true 0 [2] [(true, 1), (false, 2)] rfl

/-- When nothing throws or no images are linked in a cycle, each image is handled after those that it
is linked with and is bound after it is rebased; and every call that does not throw handles all that
its root reaches. -/
theorem linkProcess_inOrder (libImage : Fin n → List (Option (Fin n)))
    (throws : Action → Fin n → List (Action × Fin n) → Option ε) (hasInterposingTuples : Bool)
    (mainExecutable : Fin n) (inserted : List (Fin n)) (calls : List (Bool × Fin n))
    {s : LinkState n} (hs : s.log = []) (hflags : ∀ action i, flagOf action s i = false) :
    ∃ s' errors, linkProcess libImage throws (n + 1) hasInterposingTuples mainExecutable inserted calls s =
      some (s', errors) ∧
      ((∀ e ∈ errors, e = none) ∨ Acyclic libImage →
        LinkInOrder libImage s'.log ∧
        Only libImage (launch hasInterposingTuples mainExecutable inserted ++
          calls.flatMap fun call => link false call.1 call.2) s'.log ∧
        ∀ passes error,
          (passes, error) ∈ (launch hasInterposingTuples mainExecutable inserted ::
            calls.map fun call => link false call.1 call.2).zip errors →
          error = none → Complete libImage passes s'.log) := by
  obtain ⟨s', errors, hrun⟩ := exists_linkProcess libImage throws
    (Nat.lt_succ_self n) hasInterposingTuples mainExecutable inserted calls s
  refine ⟨s', errors, hrun, ?_⟩
  intro hcycles
  have hstart : Linked libImage s := by
    refine ⟨?_, by simp [hs], by simp [hs, LinkInOrder], by simp [hs]⟩
    simp [hs, hflags]
  have hready : Complete libImage [] s.log := by simp [Complete]
  have hstaged := staged_launch hasInterposingTuples mainExecutable inserted
  rw [linkProcess] at hrun
  split at hrun
  · cases hrun
  · next e heq =>
    cases hrun
    obtain ⟨hlinked, ⟨added, hlog, honly⟩, -⟩ := hstart.runPasses hready hstaged heq
      (hcycles.imp_left fun he => he _ List.mem_cons_self)
    rw [hs, List.nil_append] at hlog
    refine ⟨hlinked.ordered, ?_, ?_⟩
    · rw [hlog]
      exact honly.mono (List.subset_append_left _ _)
    · intro passes error hmem herror
      rw [List.zip_cons_cons, List.zip_nil_right, List.mem_singleton] at hmem
      cases hmem
      cases herror
  · next s₁ heq =>
    obtain ⟨⟨s₂, errors⟩, hr, hs'⟩ := Option.map_eq_some_iff.mp hrun
    cases hs'
    obtain ⟨hlinked, ⟨added₁, hlog₁, honly₁⟩, hcomplete₁⟩ :=
      hstart.runPasses hready hstaged heq (Or.inl rfl)
    obtain ⟨hlinked', ⟨added, hlog, honly⟩, hcomplete⟩ := hlinked.linkAll hr
      (hcycles.imp_left fun he e hmem => he e (List.mem_cons_of_mem _ hmem))
    rw [hs, List.nil_append] at hlog₁
    refine ⟨hlinked'.ordered, ?_, ?_⟩
    · rw [hlog, hlog₁]
      intro x hx
      rcases List.mem_append.mp hx with hx | hx
      · exact honly₁.mono (List.subset_append_left _ _) x hx
      · exact honly.mono (List.subset_append_right _ _) x hx
    · intro passes error hmem herror
      rw [List.zip_cons_cons] at hmem
      rcases List.mem_cons.mp hmem with hmem | hmem
      · cases hmem
        intro pass hpass i hi
        rw [hlog]
        exact List.mem_append_left _ (hcomplete₁ rfl pass hpass i hi)
      · rw [List.zip_map_left, List.mem_map] at hmem
        obtain ⟨⟨call, error'⟩, hcall, heq'⟩ := hmem
        cases heq'
        exact hcomplete call error' hcall herror

/-- Three images in a row, of which the last cannot be bound. -/
theorem linkProcess_inOrder_row :
    ∃ s' errors, linkProcess (n := 3) (fun i => if i < 2 then [some (i + 1)] else [])
      (fun action i _ => if action = .bind ∧ i = 2 then some "Symbol not found" else none) 4 true 0 []
      [(true, 1)] (LinkState.loaded 3) = some (s', errors) ∧
      LinkInOrder (fun i : Fin 3 => if i < 2 then [some (i + 1)] else []) s'.log := by
  obtain ⟨s', errors, hrun, h⟩ := linkProcess_inOrder
    (fun i : Fin 3 => if i < 2 then [some (i + 1)] else [])
    (fun action i _ => if action = .bind ∧ i = 2 then some "Symbol not found" else none) true 0 []
    [(true, 1)] (s := LinkState.loaded 3) rfl (by intro action i; cases action <;> rfl)
  refine ⟨s', errors, hrun, (h (Or.inr ?_)).1⟩
  have hlt : ∀ i j : Fin 3, LinkedWith (fun i => if i < 2 then [some (i + 1)] else []) i j → i < j := by
    unfold LinkedWith
    decide
  intro i j hij hreach
  have hle : ∀ k, Reaches (fun i : Fin 3 => if i < 2 then [some (i + 1)] else []) j k → j ≤ k := by
    intro k hk
    induction hk with
    | refl => exact le_rfl
    | tail _ hstep ih => exact ih.trans (hlt _ _ hstep).le
  exact absurd (hlt i j hij) (not_lt.mpr (hle i hreach))

end Dyld.ImageLoader
