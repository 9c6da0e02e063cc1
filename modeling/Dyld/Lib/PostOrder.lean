import Mathlib

/-!
# Passes over a graph

A pass marks a node, goes to the nodes it depends on, and then acts on it. An error stops the pass
and takes the marks of the nodes away whose turn has not come to its end. The log of a pass lists the
nodes that it has acted on.
-/

namespace Dyld.Lib

/-- What a pass does before it acts on a node: it visits another node, or notes something. -/
inductive PassStep (α σ : Type)
  | visit (a : α)
  | note (f : σ → σ)

def PassStep.isNote {α σ : Type} : PassStep α σ → Bool
  | .visit _ => false
  | .note _ => true

/-- `unmark` also gets the state from before the node was marked. -/
structure GraphPass (α σ ε : Type) where
  steps : α → List (PassStep α σ)
  marked : σ → α → Bool
  mark : α → σ → σ
  unmark : α → σ → σ → σ
  act : α → σ → σ → σ × Option ε

variable {α σ ε : Type}

/-- The steps for one node, up to the first error. -/
def runSteps (visit : α → σ → Option (σ × Option ε)) : List (PassStep α σ) → σ → Option (σ × Option ε)
  | [], s => some (s, none)
  | .note f :: steps, s => runSteps visit steps (f s)
  | .visit a :: steps, s =>
    match visit a s with
    | none => none
    | some (s, some e) => some (s, some e)
    | some (s, none) => runSteps visit steps s

lemma runSteps_visit {visit : α → σ → Option (σ × Option ε)} {a : α} {steps : List (PassStep α σ)}
    {s s' : σ} {error : Option ε} (h : runSteps visit (.visit a :: steps) s = some (s', error)) :
    ∃ s₁ error₁, visit a s = some (s₁, error₁) ∧
      ((error₁.isSome = true ∧ s' = s₁ ∧ error = error₁) ∨
        (error₁ = none ∧ runSteps visit steps s₁ = some (s', error))) := by
  rw [runSteps] at h
  split at h
  · cases h
  · next heq =>
    cases h
    exact ⟨_, _, heq, Or.inl ⟨rfl, rfl, rfl⟩⟩
  · next heq => exact ⟨_, _, heq, Or.inr ⟨rfl, h⟩⟩

/-- An entry of two lists is in the second one or in the first one. -/
lemma split_append {l₁ l₂ pre post : List α} {a : α} (h : l₁ ++ l₂ = pre ++ a :: post) :
    (∃ c, pre = l₁ ++ c ∧ l₂ = c ++ a :: post) ∨ ∃ c, l₁ = pre ++ a :: c := by
  rcases List.append_eq_append_iff.mp h with hsecond | ⟨c, hc, hrest⟩
  · exact Or.inl hsecond
  · cases c with
    | nil => exact Or.inl ⟨[], by simpa using hc.symm, by simpa using hrest.symm⟩
    | cons x c =>
      obtain ⟨rfl, -⟩ := List.cons.inj hrest
      exact Or.inr ⟨c, hc⟩

namespace GraphPass

variable (P : GraphPass α σ ε)

/-- Visits a node. -/
def run : Nat → α → σ → Option (σ × Option ε)
  | 0, _, _ => none
  | fuel + 1, a, s =>
    if P.marked s a then some (s, none)
    else
      match runSteps (run fuel) (P.steps a) (P.mark a s) with
      | none => none
      | some (s', some e) => some (P.unmark a s s', some e)
      | some (s', none) => some (P.act a s s')

/-- What a visit can do. -/
lemma run_cases {fuel : Nat} {a : α} {s s' : σ} {error : Option ε}
    (h : P.run (fuel + 1) a s = some (s', error)) :
    (P.marked s a = true ∧ s' = s ∧ error = none) ∨
    (P.marked s a = false ∧ ∃ s₁ error₁,
      runSteps (P.run fuel) (P.steps a) (P.mark a s) = some (s₁, error₁) ∧
      ((error₁.isSome = true ∧ s' = P.unmark a s s₁ ∧ error = error₁) ∨
        (error₁ = none ∧ P.act a s s₁ = (s', error)))) := by
  rw [run] at h
  split_ifs at h with ha
  · cases h
    exact Or.inl ⟨ha, rfl, rfl⟩
  · right
    refine ⟨by rwa [Bool.not_eq_true] at ha, ?_⟩
    split at h
    · cases h
    · next heq =>
      cases h
      exact ⟨_, _, heq, Or.inl ⟨rfl, rfl, rfl⟩⟩
    · next heq => exact ⟨_, _, heq, Or.inr ⟨rfl, Option.some.inj h⟩⟩

/-- What a node depends on. -/
def Dep (a b : α) : Prop := PassStep.visit b ∈ P.steps a

abbrev Reaches : α → α → Prop := Relation.ReflTransGen P.Dep

/-- A node that is acted on is logged and stays marked, or there is an error and it is not. -/
structure Logs [DecidableEq α] (log : σ → List α) : Prop where
  marked_mark : ∀ a s b, P.marked (P.mark a s) b = (decide (b = a) || P.marked s b)
  log_mark : ∀ a s, log (P.mark a s) = log s
  marked_unmark : ∀ a s s' b, P.marked s a = false →
    P.marked (P.unmark a s s') b = (!decide (b = a) && P.marked s' b)
  log_unmark : ∀ a s s', log (P.unmark a s s') = log s'
  marked_note : ∀ a f, PassStep.note f ∈ P.steps a → ∀ s b, P.marked (f s) b = P.marked s b
  log_note : ∀ a f, PassStep.note f ∈ P.steps a → ∀ s, log (f s) = log s
  marked_act : ∀ a s s' b, b ≠ a → P.marked (P.act a s s').1 b = P.marked s' b
  act : ∀ a s s', P.marked s a = false →
    (log (P.act a s s').1 = log s' ++ [a] ∧
      (P.marked s' a = true → P.marked (P.act a s s').1 a = true)) ∨
    (log (P.act a s s').1 = log s' ∧ (P.act a s s').2.isSome = true ∧
      P.marked (P.act a s s').1 a = false)

/-- The marked nodes are those in the log, those whose turn it is, and some others. -/
structure Inv (log : σ → List α) (others : α → Prop) (stack : List α) (s : σ) : Prop where
  marked : ∀ a, P.marked s a = true ↔ a ∈ log s ∨ a ∈ stack ∨ others a
  nodup : (log s).Nodup
  fresh : ∀ a ∈ log s, a ∉ stack ∧ ¬others a

/-- What comes after `start` comes after all it depends on, up to the nodes that depend on it in
turn. -/
def Ordered (others : α → Prop) (start order : List α) : Prop :=
  ∀ pre a post, order = pre ++ a :: post → ∀ b, P.Dep a b → b ∈ start ++ pre ∨ others b ∨ P.Reaches b a

structure Visited (log : σ → List α) (others : α → Prop) (stack : List α) (reached visited : α → Prop)
    (s s' : σ) (error : Option ε) (order : List α) : Prop where
  log_eq : log s' = log s ++ order
  reaches : ∀ b ∈ order, reached b
  ordered : P.Ordered others (log s) order
  inv : P.Inv log others stack s'
  closed : error = none → ∀ b ∈ order, ∀ c, P.Dep b c → P.marked s' c = true
  marked : error = none → ∀ b, visited b → P.marked s' b = true

variable {P} {log : σ → List α} {others reached visited visited' : α → Prop} {fuel : Nat} {a b : α}
  {s s₁ s' : σ} {error : Option ε} {stack order order' start roots but : List α}

lemma Inv.mark [DecidableEq α] (hlogs : P.Logs log) (h : P.Inv log others stack s)
    (ha : P.marked s a = false) : P.Inv log others (a :: stack) (P.mark a s) where
  marked := by
    intro b
    rw [hlogs.marked_mark, hlogs.log_mark, Bool.or_eq_true, decide_eq_true_eq, h.marked, List.mem_cons]
    tauto
  nodup := by
    rw [hlogs.log_mark]
    exact h.nodup
  fresh := by
    intro b hb
    rw [hlogs.log_mark] at hb
    obtain ⟨hstack, hothers⟩ := h.fresh b hb
    refine ⟨?_, hothers⟩
    intro hmem
    rcases List.mem_cons.mp hmem with rfl | hmem
    · rw [(h.marked b).mpr (Or.inl hb)] at ha
      cases ha
    · exact hstack hmem

/-- When a node is not marked any more, the ones below it on the stack still are. -/
lemma Inv.unmark [DecidableEq α] (h : P.Inv log others (a :: stack) s) (hfresh : a ∉ stack ∧ ¬others a)
    (hlog : log s' = log s) (hmarked : ∀ b, P.marked s' b = (!decide (b = a) && P.marked s b)) :
    P.Inv log others stack s' where
  marked := by
    intro b
    rw [hmarked, hlog, Bool.and_eq_true, Bool.not_eq_true', decide_eq_false_iff_not, h.marked,
      List.mem_cons]
    constructor
    · rintro ⟨hne, hb⟩
      tauto
    · intro hb
      refine ⟨?_, by tauto⟩
      rintro rfl
      rcases hb with hb | hb | hb
      · exact (h.fresh b hb).1 List.mem_cons_self
      · exact hfresh.1 hb
      · exact hfresh.2 hb
  nodup := by
    rw [hlog]
    exact h.nodup
  fresh := by
    intro b hb
    rw [hlog] at hb
    obtain ⟨hstack, hothers⟩ := h.fresh b hb
    exact ⟨fun hmem => hstack (List.mem_cons_of_mem a hmem), hothers⟩

lemma Inv.act (h : P.Inv log others (a :: stack) s) (hfresh : a ∉ stack ∧ ¬others a)
    (hlog : log s' = log s ++ [a]) (hmarked : ∀ b, P.marked s' b = P.marked s b) :
    P.Inv log others stack s' where
  marked := by
    intro b
    rw [hmarked, hlog, h.marked, List.mem_append, List.mem_singleton, List.mem_cons]
    tauto
  nodup := by
    rw [hlog, List.nodup_append]
    refine ⟨h.nodup, List.nodup_singleton a, ?_⟩
    intro b hb c hc heq
    rw [List.mem_singleton] at hc
    rw [heq, hc] at hb
    exact (h.fresh a hb).1 List.mem_cons_self
  fresh := by
    intro b hb
    rw [hlog, List.mem_append, List.mem_singleton] at hb
    rcases hb with hb | rfl
    · obtain ⟨hstack, hothers⟩ := h.fresh b hb
      exact ⟨fun hmem => hstack (List.mem_cons_of_mem a hmem), hothers⟩
    · exact hfresh

lemma Ordered.nil : P.Ordered others start [] := by
  intro pre a post heq
  have := congrArg List.length heq
  simp at this

lemma Ordered.append {start l₁ l₂ : List α} (h₁ : P.Ordered others start l₁)
    (h₂ : P.Ordered others (start ++ l₁) l₂) : P.Ordered others start (l₁ ++ l₂) := by
  intro pre a post heq b hb
  rcases split_append heq with ⟨c, rfl, hc⟩ | ⟨c, hc⟩
  · rw [← List.append_assoc]
    exact h₂ c a post hc b hb
  · exact h₁ pre a c hc b hb

lemma Ordered.singleton (ha : ∀ b, P.Dep a b → b ∈ start ∨ others b ∨ P.Reaches b a) :
    P.Ordered others start [a] := by
  intro pre x post heq b hb
  cases pre with
  | nil =>
    obtain ⟨rfl, -⟩ := List.cons.inj heq
    rw [List.append_nil]
    exact ha b hb
  | cons y pre => simp at heq

lemma Inv.congr (h : P.Inv log others stack s) (hlog : log s' = log s)
    (hmarked : ∀ b, P.marked s' b = P.marked s b) : P.Inv log others stack s' where
  marked := by
    intro b
    rw [hmarked, hlog]
    exact h.marked b
  nodup := by
    rw [hlog]
    exact h.nodup
  fresh := by
    rw [hlog]
    exact h.fresh

lemma Inv.marked_mono (h : P.Inv log others stack s) (h' : P.Inv log others stack s')
    (hlog : log s' = log s ++ order) (hb : P.marked s b = true) : P.marked s' b = true := by
  rw [h'.marked, hlog]
  rcases (h.marked b).mp hb with hb | hb
  · exact Or.inl (List.mem_append_left order hb)
  · exact Or.inr hb

lemma Visited.refl (h : P.Inv log others stack s) (hvisited : ∀ b, visited b → P.marked s b = true) :
    P.Visited log others stack reached visited s s error [] :=
  ⟨by simp, by simp, Ordered.nil, h, by simp, fun _ => hvisited⟩

lemma Visited.trans (h : P.Visited log others stack reached visited s s₁ none order)
    (h' : P.Visited log others stack reached visited' s₁ s' error order') :
    P.Visited log others stack reached (fun b => visited b ∨ visited' b) s s' error (order ++ order') where
  log_eq := by rw [h'.log_eq, h.log_eq, List.append_assoc]
  reaches := by
    intro b hb
    exact (List.mem_append.mp hb).elim (h.reaches b) (h'.reaches b)
  ordered := h.ordered.append (h.log_eq ▸ h'.ordered)
  inv := h'.inv
  closed := by
    intro herror b hb c hc
    rcases List.mem_append.mp hb with hb | hb
    · exact h.inv.marked_mono h'.inv h'.log_eq (h.closed rfl b hb c hc)
    · exact h'.closed herror b hb c hc
  marked := by
    rintro herror b (hb | hb)
    · exact h.inv.marked_mono h'.inv h'.log_eq (h.marked rfl b hb)
    · exact h'.marked herror b hb

/-- With an error, nothing is said of the marks. -/
lemma Visited.of_error (h : P.Visited log others stack reached visited s s' error order)
    (herror : error.isSome = true) : P.Visited log others stack reached visited' s s' error order :=
  ⟨h.log_eq, h.reaches, h.ordered, h.inv, h.closed, fun hnone => by simp [hnone] at herror⟩

lemma Visited.imp {reached reached' visited visited' : α → Prop}
    (h : P.Visited log others stack reached visited s s' error order)
    (hreached : ∀ b, reached b → reached' b) (hvisited : ∀ b, visited' b → visited b) :
    P.Visited log others stack reached' visited' s s' error order :=
  ⟨h.log_eq, fun b hb => hreached b (h.reaches b hb), h.ordered, h.inv, h.closed,
    fun hnone b hb => h.marked hnone b (hvisited b hb)⟩

lemma runSteps_spec {visit : α → σ → Option (σ × Option ε)} {steps : List (PassStep α σ)}
    (hvisit : ∀ b, PassStep.visit b ∈ steps → ∀ s s' error, visit b s = some (s', error) →
      P.Inv log others stack s → ∃ order, P.Visited log others stack reached (fun c => c = b) s s' error order)
    (hnote : ∀ f, PassStep.note f ∈ steps → ∀ s, log (f s) = log s ∧ ∀ b, P.marked (f s) b = P.marked s b)
    (hrun : runSteps visit steps s = some (s', error)) (hinv : P.Inv log others stack s) :
    ∃ order, P.Visited log others stack reached (fun b => PassStep.visit b ∈ steps) s s' error order := by
  induction steps generalizing s with
  | nil =>
    cases hrun
    exact ⟨[], Visited.refl hinv (by simp)⟩
  | cons step steps ih =>
    have ih' := fun {t : σ} => @ih t (fun b hb => hvisit b (List.mem_cons_of_mem step hb))
      (fun f hf => hnote f (List.mem_cons_of_mem step hf))
    cases step with
    | note f =>
      obtain ⟨hlog, hmarked⟩ := hnote f List.mem_cons_self s
      obtain ⟨order, h⟩ := ih' hrun (hinv.congr hlog hmarked)
      refine ⟨order, by rw [h.log_eq, hlog], h.reaches, hlog ▸ h.ordered, h.inv, h.closed, ?_⟩
      intro herror b hb
      exact h.marked herror b ((List.mem_cons.mp hb).resolve_left fun heq => by cases heq)
    | visit b =>
      obtain ⟨s₁, error₁, hb, hcases⟩ := runSteps_visit hrun
      obtain ⟨order₁, h₁⟩ := hvisit b List.mem_cons_self s s₁ error₁ hb hinv
      rcases hcases with ⟨herror, rfl, rfl⟩ | ⟨rfl, hrest⟩
      · exact ⟨order₁, h₁.of_error herror⟩
      · obtain ⟨order, h⟩ := ih' hrest h₁.inv
        refine ⟨order₁ ++ order, (h₁.trans h).imp (fun _ => id) ?_⟩
        intro c hc
        exact (List.mem_cons.mp hc).imp_left fun heq => by cases heq; rfl

theorem run_spec [DecidableEq α] (hlogs : P.Logs log) (hrun : P.run fuel a s = some (s', error))
    (hinv : P.Inv log others stack s) (hstack : ∀ b ∈ stack, P.Reaches b a) :
    ∃ order, P.Visited log others stack (P.Reaches a) (fun b => b = a) s s' error order := by
  induction fuel generalizing a stack s s' error with
  | zero => cases hrun
  | succ fuel ih =>
    rcases run_cases P hrun with ⟨ha, rfl, rfl⟩ | ⟨ha, s₁, error₁, hsteps, hcases⟩
    · exact ⟨[], Visited.refl hinv (by rintro b rfl; exact ha)⟩
    have hfresh : a ∉ stack ∧ ¬others a := by
      have hnot : ¬(a ∈ log s ∨ a ∈ stack ∨ others a) := by
        rw [← hinv.marked, ha]
        exact Bool.false_ne_true
      tauto
    have hstack' : ∀ b, P.Dep a b → ∀ c ∈ a :: stack, P.Reaches c b := by
      intro b hb c hc
      rcases List.mem_cons.mp hc with rfl | hc
      · exact Relation.ReflTransGen.single hb
      · exact (hstack c hc).tail hb
    have hvisit : ∀ b, P.Dep a b → ∀ t t' e, P.run fuel b t = some (t', e) →
        P.Inv log others (a :: stack) t →
        ∃ order, P.Visited log others (a :: stack) (P.Reaches a) (fun c => c = b) t t' e order := by
      intro b hb t t' e ht ht'
      obtain ⟨order, h⟩ := ih ht ht' (hstack' b hb)
      exact ⟨order, h.imp (fun c hc => Relation.ReflTransGen.head hb hc) fun _ => id⟩
    obtain ⟨order, h₁⟩ := runSteps_spec hvisit
      (fun f hf t => ⟨hlogs.log_note a f hf t, hlogs.marked_note a f hf t⟩) hsteps (hinv.mark hlogs ha)
    have horder := h₁.log_eq
    have hordered := h₁.ordered
    rw [hlogs.log_mark] at horder hordered
    rcases hcases with ⟨herror, rfl, rfl⟩ | ⟨rfl, hact⟩
    · have hlog := hlogs.log_unmark a s s₁
      exact ⟨order, by rw [hlog, horder], h₁.reaches, hordered,
        h₁.inv.unmark hfresh hlog (fun b => hlogs.marked_unmark a s s₁ b ha),
        fun hnone => (by simp [hnone] at herror), fun hnone => (by simp [hnone] at herror)⟩
    have ha₁ : P.marked s₁ a = true := (h₁.inv.marked a).mpr (Or.inr (Or.inl List.mem_cons_self))
    have hkeep := hlogs.marked_act a s s₁
    have hcase := hlogs.act a s s₁ ha
    rw [hact] at hkeep hcase
    rcases hcase with ⟨hlog, hself⟩ | ⟨hlog, herror, hself⟩
    · have hmarked : ∀ b, P.marked s' b = P.marked s₁ b := by
        intro b
        by_cases hb : b = a
        · rw [hb, hself ha₁, ha₁]
        · exact hkeep b hb
      refine ⟨order ++ [a], by rw [hlog, horder, List.append_assoc], ?_, hordered.append ?_,
        h₁.inv.act hfresh hlog hmarked, ?_, ?_⟩
      · intro b hb
        rcases List.mem_append.mp hb with hb | hb
        · exact h₁.reaches b hb
        · rw [List.mem_singleton.mp hb]
      · apply Ordered.singleton
        intro b hb
        rcases (h₁.inv.marked b).mp (h₁.marked rfl b hb) with hb' | hb' | hb'
        · left
          rwa [← horder]
        · -- a node whose turn it is depends on this one
          right
          right
          rcases List.mem_cons.mp hb' with rfl | hb'
          · exact Relation.ReflTransGen.refl
          · exact hstack b hb'
        · exact Or.inr (Or.inl hb')
      · intro _ x hx b hb
        rw [List.mem_append, List.mem_singleton] at hx
        rw [hmarked]
        rcases hx with hx | rfl
        · exact h₁.closed rfl x hx b hb
        · exact h₁.marked rfl b hb
      · rintro _ b rfl
        rw [hmarked]
        exact ha₁
    · have hne : error ≠ none := by
        rintro rfl
        cases herror
      refine ⟨order, by rw [hlog, horder], h₁.reaches, hordered,
        h₁.inv.unmark hfresh hlog (fun b => ?_), fun h => absurd h hne, fun h => absurd h hne⟩
      by_cases hb : b = a
      · simp [hb, hself]
      · simp [hb, hkeep b hb]

/-! ### What all steps keep -/

lemma runSteps_preserves {I : σ → Prop} {visit : α → σ → Option (σ × Option ε)}
    {steps : List (PassStep α σ)}
    (hvisit : ∀ b, PassStep.visit b ∈ steps → ∀ s s' error, visit b s = some (s', error) → I s → I s')
    (hnote : ∀ f, PassStep.note f ∈ steps → ∀ s, I s → I (f s))
    (hrun : runSteps visit steps s = some (s', error)) (hs : I s) : I s' := by
  induction steps generalizing s with
  | nil =>
    cases hrun
    exact hs
  | cons step steps ih =>
    have ih' := fun {t : σ} => @ih t (fun b hb => hvisit b (List.mem_cons_of_mem step hb))
      (fun f hf => hnote f (List.mem_cons_of_mem step hf))
    cases step with
    | note f => exact ih' hrun (hnote f List.mem_cons_self s hs)
    | visit b =>
      obtain ⟨s₁, error₁, hb, hcases⟩ := runSteps_visit hrun
      have hs₁ := hvisit b List.mem_cons_self s s₁ error₁ hb hs
      rcases hcases with ⟨-, rfl, -⟩ | ⟨-, hrest⟩
      · exact hs₁
      · exact ih' hrest hs₁

/-- What marks, notes and actions on nodes keep. -/
structure Preserves (P : GraphPass α σ ε) (root : α) (I : σ → Prop) : Prop where
  mark : ∀ a s, P.Reaches root a → P.marked s a = false → I s → I (P.mark a s)
  unmark : ∀ a s s', P.Reaches root a → P.marked s a = false → I s → I s' → I (P.unmark a s s')
  note : ∀ a f, P.Reaches root a → PassStep.note f ∈ P.steps a → ∀ s, I s → I (f s)
  act : ∀ a s s', P.Reaches root a → P.marked s a = false → I s → I s' → I (P.act a s s').1

theorem run_preserves {I : σ → Prop} {root : α} (h : P.Preserves root I)
    (hrun : P.run fuel a s = some (s', error)) (ha : P.Reaches root a) (hs : I s) : I s' := by
  induction fuel generalizing a s s' error with
  | zero => cases hrun
  | succ fuel ih =>
    rcases run_cases P hrun with ⟨-, rfl, -⟩ | ⟨hmarked, s₁, error₁, hsteps, hcases⟩
    · exact hs
    have hs₁ : I s₁ := runSteps_preserves (fun b hb t t' e ht => ih ht (ha.tail hb))
      (fun f hf => h.note a f ha hf) hsteps (h.mark a s ha hmarked hs)
    rcases hcases with ⟨-, rfl, -⟩ | ⟨-, hact⟩
    · exact h.unmark a s s₁ ha hmarked hs hs₁
    · have hs' := h.act a s s₁ ha hmarked hs hs₁
      rwa [hact] at hs'

/-! ### Visits from a list -/

/-- Nodes are visited one after the other, up to the first error. -/
def visits (P : GraphPass α σ ε) (fuel : Nat) (roots : List α) (s : σ) : Option (σ × Option ε) :=
  runSteps (P.run fuel) (roots.map .visit) s

lemma visit_mem_map : (PassStep.visit b : PassStep α σ) ∈ roots.map .visit ↔ b ∈ roots := by
  simp

lemma note_notMem_map {f : σ → σ} : (PassStep.note f : PassStep α σ) ∉ roots.map .visit := by
  simp

theorem visits_spec [DecidableEq α] (hlogs : P.Logs log)
    (hrun : P.visits fuel roots s = some (s', error)) (hinv : P.Inv log others [] s) :
    ∃ order, P.Visited log others [] (fun b => ∃ a ∈ roots, P.Reaches a b) (fun b => b ∈ roots) s s' error
      order := by
  have hvisit : ∀ b, PassStep.visit b ∈ roots.map (PassStep.visit (σ := σ)) →
      ∀ t t' e, P.run fuel b t = some (t', e) → P.Inv log others [] t →
      ∃ order, P.Visited log others [] (fun c => ∃ a ∈ roots, P.Reaches a c) (fun c => c = b) t t' e
        order := by
    intro b hb t t' e ht ht'
    obtain ⟨order, h⟩ := run_spec hlogs ht ht' (by simp)
    exact ⟨order, h.imp (fun c hc => ⟨b, visit_mem_map.mp hb, hc⟩) fun _ => id⟩
  obtain ⟨order, h⟩ := runSteps_spec hvisit (fun _ hf => absurd hf note_notMem_map) hrun hinv
  exact ⟨order, h.imp (fun _ => id) fun b => visit_mem_map.mpr⟩

theorem visits_preserves {I : σ → Prop} (h : ∀ root ∈ roots, P.Preserves root I)
    (hrun : P.visits fuel roots s = some (s', error)) (hs : I s) : I s' :=
  runSteps_preserves (fun b hb _ _ _ ht => run_preserves (h b (visit_mem_map.mp hb)) ht
    Relation.ReflTransGen.refl) (fun _ hf => absurd hf note_notMem_map) hrun hs

lemma visits_of_marked (hrun : P.visits fuel roots s = some (s', error))
    (hroots : ∀ a ∈ roots, P.marked s a = true) : s' = s := by
  have hvisit : ∀ b, PassStep.visit b ∈ roots.map (PassStep.visit (σ := σ)) →
      ∀ t t' e, P.run fuel b t = some (t', e) → s = t → s = t' := by
    rintro b hb t t' e ht rfl
    cases fuel with
    | zero => cases ht
    | succ fuel =>
      rcases run_cases P ht with ⟨-, rfl, -⟩ | ⟨hb', -⟩
      · rfl
      · rw [hroots b (visit_mem_map.mp hb)] at hb'
        cases hb'
  exact (runSteps_preserves hvisit (fun _ hf => absurd hf note_notMem_map) hrun rfl).symm

/-! ### Notes -/

section Notes

variable {Kept : σ → σ → Prop}

structure Keeps (P : GraphPass α σ ε) (Kept : σ → σ → Prop) : Prop where
  refl : ∀ s, Kept s s
  trans : ∀ s₁ s₂ s₃, Kept s₁ s₂ → Kept s₂ s₃ → Kept s₁ s₃
  mark : ∀ a s, Kept s (P.mark a s)
  unmark : ∀ a s s', Kept s' (P.unmark a s s')
  note : ∀ a f, PassStep.note f ∈ P.steps a → ∀ s, Kept s (f s)
  act : ∀ a s s', Kept s' (P.act a s s').1

/-- The notes of a node are kept in a state. -/
def Noted (P : GraphPass α σ ε) (Kept : σ → σ → Prop) (s : σ) (a : α) : Prop :=
  ∀ f, PassStep.note f ∈ P.steps a → ∃ t, Kept (f t) s

def AllNoted (P : GraphPass α σ ε) (Kept : σ → σ → Prop) (log : σ → List α) (but : List α) (s : σ) : Prop :=
  ∀ a ∈ log s, a ∈ but ∨ P.Noted Kept s a

lemma AllNoted.kept (hkeeps : P.Keeps Kept) (h : P.AllNoted Kept log but s) (hs : Kept s s')
    (hlog : log s' = log s) : P.AllNoted Kept log but s' := by
  intro a ha
  rw [hlog] at ha
  refine (h a ha).imp_right fun hnoted f hf => ?_
  obtain ⟨t, ht⟩ := hnoted f hf
  exact ⟨t, hkeeps.trans _ _ _ ht hs⟩

lemma runSteps_notes {visit : α → σ → Option (σ × Option ε)} (hkeeps : P.Keeps Kept)
    {steps : List (PassStep α σ)}
    (hvisit : ∀ b s s' error, visit b s = some (s', error) → P.AllNoted Kept log but s → Kept s s' ∧
      P.AllNoted Kept log but s')
    (hnote : ∀ f, PassStep.note f ∈ steps → ∀ s, Kept s (f s) ∧ log (f s) = log s)
    (hrun : runSteps visit steps s = some (s', error)) (hs : P.AllNoted Kept log but s) :
    Kept s s' ∧ P.AllNoted Kept log but s' ∧
      (error = none → ∀ f, PassStep.note f ∈ steps → ∃ t, Kept (f t) s') := by
  induction steps generalizing s with
  | nil =>
    cases hrun
    exact ⟨hkeeps.refl _, hs, by simp⟩
  | cons step steps ih =>
    have ih' := fun {t : σ} => @ih t (fun f hf => hnote f (List.mem_cons_of_mem step hf))
    cases step with
    | note f =>
      obtain ⟨hkept₁, hlog⟩ := hnote f List.mem_cons_self s
      obtain ⟨hkept, hall, hnotes⟩ := ih' hrun (hs.kept hkeeps hkept₁ hlog)
      refine ⟨hkeeps.trans _ _ _ hkept₁ hkept, hall, ?_⟩
      intro herror g hg
      rcases List.mem_cons.mp hg with hg | hg
      · cases hg
        exact ⟨s, hkept⟩
      · exact hnotes herror g hg
    | visit b =>
      obtain ⟨s₁, error₁, hb, hcases⟩ := runSteps_visit hrun
      obtain ⟨hkept₁, hall₁⟩ := hvisit b s s₁ error₁ hb hs
      rcases hcases with ⟨herror, rfl, rfl⟩ | ⟨rfl, hrest⟩
      · exact ⟨hkept₁, hall₁, fun hnone => by simp [hnone] at herror⟩
      · obtain ⟨hkept, hall, hnotes⟩ := ih' hrest hall₁
        refine ⟨hkeeps.trans _ _ _ hkept₁ hkept, hall, fun herror g hg => hnotes herror g ?_⟩
        exact (List.mem_cons.mp hg).resolve_left fun heq => by cases heq

theorem run_notes [DecidableEq α] (hlogs : P.Logs log) (hkeeps : P.Keeps Kept)
    (hrun : P.run fuel a s = some (s', error)) (hs : P.AllNoted Kept log but s) :
    Kept s s' ∧ P.AllNoted Kept log but s' := by
  induction fuel generalizing a s s' error with
  | zero => cases hrun
  | succ fuel ih =>
    rcases run_cases P hrun with ⟨-, rfl, -⟩ | ⟨ha, s₁, error₁, hsteps, hcases⟩
    · exact ⟨hkeeps.refl _, hs⟩
    have hmark := hkeeps.mark a s
    obtain ⟨hkept, hall, hnotes⟩ := runSteps_notes hkeeps (fun b t t' e ht => ih ht)
      (fun f hf t => ⟨hkeeps.note a f hf t, hlogs.log_note a f hf t⟩) hsteps
      (hs.kept hkeeps hmark (hlogs.log_mark a s))
    have hkept₁ := hkeeps.trans _ _ _ hmark hkept
    rcases hcases with ⟨-, rfl, -⟩ | ⟨rfl, hact⟩
    · exact ⟨hkeeps.trans _ _ _ hkept₁ (hkeeps.unmark a s s₁),
        hall.kept hkeeps (hkeeps.unmark a s s₁) (hlogs.log_unmark a s s₁)⟩
    have hkeep := hkeeps.act a s s₁
    have hcase := hlogs.act a s s₁ ha
    rw [hact] at hkeep hcase
    refine ⟨hkeeps.trans _ _ _ hkept₁ hkeep, ?_⟩
    rcases hcase with ⟨hlog, -⟩ | ⟨hlog, -⟩
    · intro b hb
      rw [hlog, List.mem_append, List.mem_singleton] at hb
      rcases hb with hb | rfl
      · refine (hall b hb).imp_right fun hnoted f hf => ?_
        obtain ⟨t, ht⟩ := hnoted f hf
        exact ⟨t, hkeeps.trans _ _ _ ht hkeep⟩
      · refine Or.inr fun f hf => ?_
        obtain ⟨t, ht⟩ := hnotes rfl f hf
        exact ⟨t, hkeeps.trans _ _ _ ht hkeep⟩
    · exact hall.kept hkeeps hkeep hlog

theorem visits_notes [DecidableEq α] (hlogs : P.Logs log) (hkeeps : P.Keeps Kept)
    (hrun : P.visits fuel roots s = some (s', error)) (hs : P.AllNoted Kept log but s) :
    P.AllNoted Kept log but s' :=
  (runSteps_notes hkeeps (fun _ _ _ _ ht => run_notes hlogs hkeeps ht)
    (fun _ hf => absurd hf note_notMem_map) hrun hs).2.1

end Notes

/-! ### Fuel -/

section Fuel

variable [Fintype α] [DecidableEq α]

/-- How many nodes are not marked. -/
def unmarkedCount (P : GraphPass α σ ε) (s : σ) : Nat :=
  (Finset.univ.filter fun a => P.marked s a = false).card

omit [Fintype α] in
/-- A visit never takes away the mark of another node. -/
lemma run_marked (hlogs : P.Logs log) (hrun : P.run fuel a s = some (s', error))
    (hb : P.marked s b = true) : P.marked s' b = true := by
  have hne : ∀ c t, P.marked t c = false → P.marked t b = true → b ≠ c := by
    rintro c t hc htb rfl
    rw [hc] at htb
    cases htb
  have hpreserves : P.Preserves a fun t => P.marked t b = true := by
    refine ⟨?_, ?_, ?_, ?_⟩
    · intro c t _ _ ht
      rw [hlogs.marked_mark, ht, Bool.or_true]
    · intro c t t' _ hc ht ht'
      rw [hlogs.marked_unmark c t t' b hc, ht', Bool.and_true, decide_eq_false (hne c t hc ht)]
      rfl
    · intro c f _ hf t ht
      rw [hlogs.marked_note c f hf, ht]
    · intro c t t' _ hc ht ht'
      rw [hlogs.marked_act c t t' b (hne c t hc ht), ht']
  exact run_preserves (I := fun t => P.marked t b = true) hpreserves hrun Relation.ReflTransGen.refl hb

lemma run_unmarkedCount_le (hlogs : P.Logs log) (hrun : P.run fuel a s = some (s', error)) :
    P.unmarkedCount s' ≤ P.unmarkedCount s := by
  apply Finset.card_le_card
  intro b hb
  rw [Finset.mem_filter] at hb ⊢
  refine ⟨hb.1, ?_⟩
  by_contra hs
  rw [Bool.not_eq_false] at hs
  rw [run_marked hlogs hrun hs] at hb
  cases hb.2

lemma unmarkedCount_mark (hlogs : P.Logs log) (ha : P.marked s a = false) :
    P.unmarkedCount (P.mark a s) < P.unmarkedCount s := by
  apply Finset.card_lt_card
  refine Finset.ssubset_iff_subset_ne.mpr ⟨?_, ?_⟩
  · intro b hb
    rw [Finset.mem_filter] at hb ⊢
    rw [hlogs.marked_mark, Bool.or_eq_false_iff] at hb
    exact ⟨hb.1, hb.2.2⟩
  · intro heq
    have hmem : a ∈ Finset.univ.filter fun b => P.marked (P.mark a s) b = false := by
      rw [heq, Finset.mem_filter]
      exact ⟨Finset.mem_univ a, ha⟩
    rw [Finset.mem_filter, hlogs.marked_mark] at hmem
    simp at hmem

omit [DecidableEq α] in
lemma exists_runSteps {visit : α → σ → Option (σ × Option ε)} {bound : Nat}
    (hvisit : ∀ b s, P.unmarkedCount s ≤ bound → ∃ s' error, visit b s = some (s', error) ∧
      P.unmarkedCount s' ≤ P.unmarkedCount s)
    {steps : List (PassStep α σ)}
    (hnote : ∀ f, PassStep.note f ∈ steps → ∀ s b, P.marked (f s) b = P.marked s b)
    (hs : P.unmarkedCount s ≤ bound) : ∃ s' error, runSteps visit steps s = some (s', error) := by
  induction steps generalizing s with
  | nil => exact ⟨s, none, rfl⟩
  | cons step steps ih =>
    have ih' := fun {t : σ} => @ih t (fun f hf => hnote f (List.mem_cons_of_mem step hf))
    cases step with
    | note f =>
      apply @ih' (f s)
      simpa only [unmarkedCount, hnote f List.mem_cons_self] using hs
    | visit b =>
      obtain ⟨s₁, error₁, hb, hle⟩ := hvisit b s hs
      rw [runSteps, hb]
      cases error₁ with
      | some e => exact ⟨s₁, some e, rfl⟩
      | none => exact ih' (hle.trans hs)

/-- As many turns as there are nodes that are not marked, and one more, are enough. -/
theorem exists_run (hlogs : P.Logs log) (a : α) (hfuel : P.unmarkedCount s < fuel) :
    ∃ s' error, P.run fuel a s = some (s', error) := by
  induction fuel generalizing a s with
  | zero => exact absurd hfuel (Nat.not_lt_zero _)
  | succ fuel ih =>
    rw [run]
    by_cases hmarked : P.marked s a = true
    · rw [if_pos hmarked]
      exact ⟨s, none, rfl⟩
    · rw [if_neg hmarked]
      rw [Bool.not_eq_true] at hmarked
      have hlt := unmarkedCount_mark hlogs hmarked
      have hvisit : ∀ b t, P.unmarkedCount t ≤ fuel - 1 →
          ∃ t' error, P.run fuel b t = some (t', error) ∧ P.unmarkedCount t' ≤ P.unmarkedCount t := by
        intro b t ht
        obtain ⟨t', error, hrun⟩ := @ih t b (by omega)
        exact ⟨t', error, hrun, run_unmarkedCount_le hlogs hrun⟩
      obtain ⟨s₁, error₁, hsteps⟩ := exists_runSteps hvisit (fun f hf => hlogs.marked_note a f hf)
        (show P.unmarkedCount (P.mark a s) ≤ fuel - 1 by omega)
      rw [hsteps]
      cases error₁ with
      | some e => exact ⟨_, _, rfl⟩
      | none => exact ⟨_, _, rfl⟩

theorem exists_visits (hlogs : P.Logs log) (hfuel : Fintype.card α < fuel) (roots : List α) (s : σ) :
    ∃ s' error, P.visits fuel roots s = some (s', error) := by
  have hvisit : ∀ b t, P.unmarkedCount t ≤ Fintype.card α →
      ∃ t' error, P.run fuel b t = some (t', error) ∧ P.unmarkedCount t' ≤ P.unmarkedCount t := by
    intro b t ht
    obtain ⟨t', error, hrun⟩ := exists_run hlogs b (ht.trans_lt hfuel)
    exact ⟨t', error, hrun, run_unmarkedCount_le hlogs hrun⟩
  exact exists_runSteps hvisit (fun _ hf => absurd hf note_notMem_map) (Finset.card_le_univ _)

end Fuel

/-! ### Room for notes -/

section Room

variable [DecidableEq α] {size : σ → Nat} {nodes : Finset α}

/-- How many notes a node makes. -/
def noteCount (P : GraphPass α σ ε) (a : α) : Nat := (P.steps a).countP PassStep.isNote

def unmarkedNotes (P : GraphPass α σ ε) (nodes : Finset α) (s : σ) : Nat :=
  ∑ a ∈ nodes with P.marked s a = false, P.noteCount a

structure TakesRoom (P : GraphPass α σ ε) (size : σ → Nat) : Prop where
  mark : ∀ a s, size (P.mark a s) = size s
  unmark : ∀ a s s', size (P.unmark a s s') = size s'
  note : ∀ a f, PassStep.note f ∈ P.steps a → ∀ s, size (f s) ≤ size s + 1
  act : ∀ a s s', size (P.act a s s').1 = size s'

omit [DecidableEq α] in
lemma unmarkedNotes_le (h : ∀ b, P.marked s b = true → P.marked s' b = true) :
    P.unmarkedNotes nodes s' ≤ P.unmarkedNotes nodes s := by
  apply Finset.sum_le_sum_of_subset
  intro b hb
  rw [Finset.mem_filter] at hb ⊢
  refine ⟨hb.1, ?_⟩
  by_contra hs
  rw [h b (Bool.not_eq_false _ ▸ hs)] at hb
  cases hb.2

lemma unmarkedNotes_mark (hlogs : P.Logs log) (hnode : a ∈ nodes) (ha : P.marked s a = false) :
    P.unmarkedNotes nodes (P.mark a s) + P.noteCount a = P.unmarkedNotes nodes s := by
  have herase : (nodes.filter fun b => P.marked (P.mark a s) b = false) =
      (nodes.filter fun b => P.marked s b = false).erase a := by
    ext b
    rw [Finset.mem_erase, Finset.mem_filter, Finset.mem_filter, hlogs.marked_mark, Bool.or_eq_false_iff,
      decide_eq_false_iff_not]
    tauto
  rw [unmarkedNotes, herase]
  exact Finset.sum_erase_add _ _ (Finset.mem_filter.mpr ⟨hnode, ha⟩)

variable (P size nodes) in
omit [DecidableEq α] in
lemma runSteps_size {visit : α → σ → Option (σ × Option ε)} {steps : List (PassStep α σ)}
    (hvisit : ∀ b, PassStep.visit b ∈ steps → ∀ s s' error, visit b s = some (s', error) →
      size s' ≤ size s + P.unmarkedNotes nodes s ∧
        (error = none → size s' + P.unmarkedNotes nodes s' ≤ size s + P.unmarkedNotes nodes s))
    (hnote : ∀ f, PassStep.note f ∈ steps → ∀ s, size (f s) ≤ size s + 1 ∧ ∀ b, P.marked (f s) b = P.marked s b)
    (hrun : runSteps visit steps s = some (s', error)) :
    size s' ≤ size s + steps.countP PassStep.isNote + P.unmarkedNotes nodes s ∧
      (error = none → size s' + P.unmarkedNotes nodes s' ≤
        size s + steps.countP PassStep.isNote + P.unmarkedNotes nodes s) := by
  induction steps generalizing s with
  | nil =>
    cases hrun
    exact ⟨by omega, fun _ => by omega⟩
  | cons step steps ih =>
    have ih' := fun {t : σ} => @ih t (fun b hb => hvisit b (List.mem_cons_of_mem step hb))
      (fun f hf => hnote f (List.mem_cons_of_mem step hf))
    cases step with
    | note f =>
      obtain ⟨hsize, hmarked⟩ := hnote f List.mem_cons_self s
      have hsame : P.unmarkedNotes nodes (f s) = P.unmarkedNotes nodes s := by
        simp only [unmarkedNotes, hmarked]
      obtain ⟨hle, hdone⟩ := ih' hrun
      rw [List.countP_cons_of_pos rfl]
      rw [hsame] at hle hdone
      exact ⟨by omega, fun herror => by have := hdone herror; omega⟩
    | visit b =>
      rw [List.countP_cons_of_neg Bool.false_ne_true]
      obtain ⟨s₁, error₁, hb, hcases⟩ := runSteps_visit hrun
      obtain ⟨hle₁, hdone₁⟩ := hvisit b List.mem_cons_self s s₁ error₁ hb
      rcases hcases with ⟨herror, rfl, rfl⟩ | ⟨rfl, hrest⟩
      · exact ⟨by omega, fun hnone => by simp [hnone] at herror⟩
      · have hvisited := hdone₁ rfl
        obtain ⟨hle, hdone⟩ := ih' hrest
        exact ⟨by omega, fun herror => by have := hdone herror; omega⟩

theorem run_size (hlogs : P.Logs log) (htakes : P.TakesRoom size)
    (hclosed : ∀ a ∈ nodes, ∀ b, P.Dep a b → b ∈ nodes) (hnode : a ∈ nodes)
    (hrun : P.run fuel a s = some (s', error)) :
    size s' ≤ size s + P.unmarkedNotes nodes s ∧
      (error = none → size s' + P.unmarkedNotes nodes s' ≤ size s + P.unmarkedNotes nodes s) := by
  induction fuel generalizing a s s' error with
  | zero => cases hrun
  | succ fuel ih =>
    rcases run_cases P hrun with ⟨-, rfl, rfl⟩ | ⟨ha, s₁, error₁, hsteps, hcases⟩
    · exact ⟨by omega, fun _ => le_rfl⟩
    obtain ⟨hle, hdone⟩ := runSteps_size P size nodes
      (fun b hb t t' e ht => ih (hclosed a hnode b hb) ht)
      (fun f hf t => ⟨htakes.note a f hf t, hlogs.marked_note a f hf t⟩) hsteps
    have hmark := unmarkedNotes_mark hlogs hnode ha
    rw [htakes.mark] at hle hdone
    change _ ≤ _ + P.noteCount a + _ at hle
    change _ → _ ≤ _ + P.noteCount a + _ at hdone
    rcases hcases with ⟨herror, rfl, rfl⟩ | ⟨rfl, hact⟩
    · rw [htakes.unmark]
      exact ⟨by omega, fun hnone => by simp [hnone] at herror⟩
    have hself : P.marked s₁ a = true := by
      refine runSteps_preserves (I := fun t => P.marked t a = true)
        (fun b _ t t' e ht => run_marked hlogs ht) (fun f hf t ht => ?_) hsteps ?_
      · rw [hlogs.marked_note a f hf, ht]
      · rw [hlogs.marked_mark, decide_eq_true rfl, Bool.true_or]
    have hsize := htakes.act a s s₁
    have hcase := hlogs.act a s s₁ ha
    have hother := hlogs.marked_act a s s₁
    rw [hact] at hsize hcase hother
    dsimp only at hsize
    refine ⟨by omega, fun herror => ?_⟩
    have hmono : P.unmarkedNotes nodes s' ≤ P.unmarkedNotes nodes s₁ := by
      apply unmarkedNotes_le
      intro b hb
      by_cases hba : b = a
      · rcases hcase with ⟨-, hkept⟩ | ⟨-, hsome, -⟩
        · rw [hba]
          exact hkept hself
        · simp [herror] at hsome
      · rw [hother b hba, hb]
    have := hdone rfl
    omega

theorem visits_size (hlogs : P.Logs log) (htakes : P.TakesRoom size)
    (hclosed : ∀ a ∈ nodes, ∀ b, P.Dep a b → b ∈ nodes) (hroots : ∀ a ∈ roots, a ∈ nodes)
    (hrun : P.visits fuel roots s = some (s', error)) : size s' ≤ size s + ∑ a ∈ nodes, P.noteCount a := by
  obtain ⟨hle, -⟩ := runSteps_size P size nodes
    (fun b hb t t' e ht => run_size hlogs htakes hclosed (hroots b (visit_mem_map.mp hb)) ht)
    (fun _ hf => absurd hf note_notMem_map) hrun
  have hnone : (roots.map (PassStep.visit (σ := σ))).countP PassStep.isNote = 0 := by
    rw [List.countP_eq_zero]
    intro step hstep
    obtain ⟨b, -, rfl⟩ := List.mem_map.mp hstep
    exact Bool.false_ne_true
  have hall : P.unmarkedNotes nodes s ≤ ∑ a ∈ nodes, P.noteCount a :=
    Finset.sum_le_sum_of_subset (Finset.filter_subset _ _)
  omega

end Room

end GraphPass

end Dyld.Lib
