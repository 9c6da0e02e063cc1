import Dyld.Lib.PostOrder
import Dyld.ImageLoader.Depths

/-!
# Initializers

`ImageLoader::runInitializers` initializes an image after what it depends on. What is linked upward
waits for the next round, in a buffer that has room for only so many links. Depths say which dependents are
below an image; they come from the image that was linked last. Initializers that load more images and
threads are left out.
-/

namespace Dyld.ImageLoader

open Dyld.Lib

structure InitState (n : Nat) where
  fState : Fin n → Nat
  uninitUps : List (Fin n)
  sImageFilesNeedingTermination : List (Fin n)
  log : List (Fin n)

/-- `dyld_image_states`. -/
def stateDependentsInitialized : Nat := 45
def stateInitialized : Nat := 50

/-- The images of a process. What an initializer throws may depend on those that were called. -/
structure Process (n : Nat) (ε : Type) where
  libraries : Fin n → List (Library n)
  needsTermination : Fin n → Bool
  throws : Fin n → List (Fin n) → Option ε

section Code

variable {n : Nat} {ε : Type} (p : Process n ε) (fDepth : Fin n → Nat)

/-- `ImageLoader::recursiveInitialization`. An image whose initializer throws is not tried again. -/
def recursiveInitialization : GraphPass (Fin n) (InitState n) ε where
  steps := fun i => (p.libraries i).filterMap fun lib =>
    match lib.libImage with
    | none => none
    | some j =>
      if lib.libIsUpward then some (.note fun s => { s with uninitUps := s.uninitUps ++ [j] })
      else if fDepth i ≤ fDepth j then some (.visit j)
      else none
  marked := fun s i => decide (stateDependentsInitialized - 1 ≤ s.fState i)
  mark := fun i s => { s with fState := Function.update s.fState i (stateDependentsInitialized - 1) }
  unmark := fun i old s => { s with fState := Function.update s.fState i (old.fState i) }
  act := fun i _ s =>
    let files := s.sImageFilesNeedingTermination ++ if p.needsTermination i then [i] else []
    match p.throws i s.log with
    | some e =>
      ({ s with
          fState := Function.update s.fState i stateDependentsInitialized
          sImageFilesNeedingTermination := files
          log := s.log ++ [i] }, some e)
    | none =>
      ({ s with
          fState := Function.update s.fState i stateInitialized
          sImageFilesNeedingTermination := files
          log := s.log ++ [i] }, none)

/-- How many upward links `upsBuffer` has room for. Its elements have 24 bytes, of which the first 8 hold the
count, and each link takes 16. -/
def upsRoom (imageCount : Nat) : Nat := (24 * (imageCount + 2) - 8) / 16

/-- `ImageLoader::processInitializers`; `none` when it writes behind its buffer. -/
def processInitializers (imageCount fuel : Nat) :
    Nat → List (Fin n) → InitState n → Option (InitState n × Option ε)
  | 0, _, _ => none
  | rounds + 1, images, s =>
    match (recursiveInitialization p fDepth).visits fuel images { s with uninitUps := [] } with
    | none => none
    | some (s, error) =>
      if upsRoom imageCount < s.uninitUps.length then none
      else
        match error with
        | some e => some (s, some e)
        | none =>
          if s.uninitUps.length > 0 then processInitializers imageCount fuel rounds s.uninitUps s
          else some (s, none)

def runInitializers (imageCount fuel : Nat) :
    List (Fin n) → InitState n → Option (InitState n × Option ε)
  | [], s => some (s, none)
  | root :: roots, s =>
    match processInitializers p fDepth imageCount fuel fuel [root] s with
    | none => none
    | some (s, some e) => some (s, some e)
    | some (s, none) => runInitializers imageCount fuel roots s

end Code

structure Phase (n : Nat) where
  loaded : Finset (Fin n)
  linked : Fin n
  roots : List (Fin n)

def Phase.launch {n : Nat} (loaded : Finset (Fin n)) (mainExecutable : Fin n) (inserted : List (Fin n)) :
    Phase n where
  loaded := loaded
  linked := inserted.getLastD mainExecutable
  roots := inserted ++ [mainExecutable]

def Phase.dlopen {n : Nat} (loaded : Finset (Fin n)) (image : Fin n) : Phase n where
  loaded := loaded
  linked := image
  roots := [image]

section Process

variable {n : Nat} {ε : Type} (p : Process n ε)

def Phase.run (fuel : Nat) (phase : Phase n) (s : InitState n) : Option (InitState n × Option ε) :=
  match updateDepth p.libraries phase.loaded.card fuel phase.linked with
  | none => none
  | some fDepth => runInitializers p fDepth phase.loaded.card fuel phase.roots s

/-- Calls of `dlopen` one after the other. What one throws is caught. -/
def initializeAll (fuel : Nat) : List (Finset (Fin n) × Fin n) → InitState n →
    Option (InitState n × List (Option ε))
  | [], s => some (s, [])
  | (loaded, image) :: calls, s =>
    match (Phase.dlopen loaded image).run p fuel s with
    | none => none
    | some (s, error) => (initializeAll fuel calls s).map fun r => (r.1, error :: r.2)

def initializeProcess (fuel : Nat) (loaded : Finset (Fin n)) (mainExecutable : Fin n)
    (inserted : List (Fin n)) (calls : List (Finset (Fin n) × Fin n)) (s : InitState n) :
    Option (InitState n × List (Option ε)) :=
  match (Phase.launch loaded mainExecutable inserted).run p fuel s with
  | none => none
  | some (s, some e) => some (s, [some e])
  | some (s, none) =>
    (initializeAll p fuel calls s).map fun r => (r.1, none :: r.2)

end Process

variable {n : Nat} {ε : Type} {libraries : Fin n → List (Library n)} {p : Process n ε}
  {fDepth : Fin n → Nat} {i j : Fin n} {fuel : Nat} {images images' next next' order order' : List (Fin n)}
  {s s₁ s' : InitState n} {error : Option ε}

/-! ### The pass over one image -/

lemma note_mem_steps {f : InitState n → InitState n} :
    PassStep.note f ∈ (recursiveInitialization p fDepth).steps i ↔
      ∃ j, Upward p.libraries i j ∧ f = fun s => { s with uninitUps := s.uninitUps ++ [j] } := by
  change PassStep.note f ∈ List.filterMap _ _ ↔ _
  rw [List.mem_filterMap]
  constructor
  · rintro ⟨⟨libImage, libIsUpward⟩, hlib, heq⟩
    cases libImage with
    | none => cases heq
    | some j =>
      cases libIsUpward with
      | true =>
        cases heq
        exact ⟨j, hlib, rfl⟩
      | false =>
        by_cases hdepth : fDepth i ≤ fDepth j
        · simp [hdepth] at heq
        · simp [hdepth] at heq
  · rintro ⟨j, hup, rfl⟩
    exact ⟨⟨some j, true⟩, hup, rfl⟩

lemma initialization_dep_iff :
    (recursiveInitialization p fDepth).Dep i j ↔
      Downward p.libraries i j ∧ fDepth i ≤ fDepth j := by
  change PassStep.visit j ∈ List.filterMap _ _ ↔ _
  rw [List.mem_filterMap]
  constructor
  · rintro ⟨⟨libImage, libIsUpward⟩, hlib, heq⟩
    cases libImage with
    | none => cases heq
    | some k =>
      cases libIsUpward with
      | true => cases heq
      | false =>
        by_cases hdepth : fDepth i ≤ fDepth k
        · simp only [Bool.false_eq_true, if_false, if_pos hdepth] at heq
          cases heq
          exact ⟨hlib, hdepth⟩
        · simp [hdepth] at heq
  · rintro ⟨hdown, hdepth⟩
    exact ⟨⟨some j, false⟩, hdown, by simp [hdepth]⟩

lemma reachesDown_of_reaches (h : (recursiveInitialization p fDepth).Reaches i j) :
    ReachesDown p.libraries i j :=
  Relation.ReflTransGen.mono (fun _ _ hxy => (initialization_dep_iff.mp hxy).1) i j h

variable (p fDepth) in
lemma act_eq (a : Fin n) (s s' : InitState n) :
    let r := (recursiveInitialization p fDepth).act a s s'
    r.1.log = s'.log ++ [a] ∧ r.1.uninitUps = s'.uninitUps ∧
      r.1.sImageFilesNeedingTermination =
        s'.sImageFilesNeedingTermination ++ (if p.needsTermination a then [a] else []) ∧
      ∃ state, stateDependentsInitialized ≤ state ∧
        r.1.fState = Function.update s'.fState a state := by
  dsimp only [recursiveInitialization]
  split
  · exact ⟨rfl, rfl, rfl, stateDependentsInitialized, le_rfl, rfl⟩
  · exact ⟨rfl, rfl, rfl, stateInitialized, by decide, rfl⟩

lemma recursiveInitialization_logs :
    (recursiveInitialization p fDepth).Logs InitState.log where
  marked_mark := by
    intro a s b
    by_cases hb : b = a
    · simp [recursiveInitialization, hb, stateDependentsInitialized]
    · simp [recursiveInitialization, hb]
  log_mark := fun _ _ => rfl
  marked_unmark := by
    intro a s s' b ha
    by_cases hb : b = a
    · simpa [recursiveInitialization, hb] using ha
    · simp [recursiveInitialization, hb]
  log_unmark := fun _ _ _ => rfl
  marked_note := by
    intro a f hf s b
    obtain ⟨j, -, rfl⟩ := note_mem_steps.mp hf
    rfl
  log_note := by
    intro a f hf s
    obtain ⟨j, -, rfl⟩ := note_mem_steps.mp hf
    rfl
  marked_act := by
    intro a s s' b hb
    obtain ⟨-, -, -, state, -, hfState⟩ := act_eq p fDepth a s s'
    change decide (_ ≤ InitState.fState _ b) = decide (_ ≤ s'.fState b)
    rw [hfState, Function.update_of_ne hb]
  act := by
    intro a s s' _
    obtain ⟨hlog, -, -, state, hstate, hfState⟩ := act_eq p fDepth a s s'
    refine Or.inl ⟨hlog, fun _ => ?_⟩
    change decide (_ ≤ InitState.fState _ a) = true
    rw [hfState, Function.update_self, decide_eq_true_eq]
    omega

/-- Upward links that are noted are not forgotten in a round. -/
lemma recursiveInitialization_keeps :
    (recursiveInitialization p fDepth).Keeps
      fun s s' => s.uninitUps ⊆ s'.uninitUps where
  refl := fun _ => List.Subset.refl _
  trans := fun _ _ _ => List.Subset.trans
  mark := fun _ _ => List.Subset.refl _
  unmark := fun _ _ _ => List.Subset.refl _
  note := by
    intro a f hf s
    obtain ⟨j, -, rfl⟩ := note_mem_steps.mp hf
    exact List.subset_append_left _ _
  act := by
    intro a s s'
    rw [(act_eq p fDepth a s s').2.1]
    exact List.Subset.refl _

/-! ### One round -/

def LinksTo (libraries : Fin n → List (Library n)) (i j : Fin n) : Prop :=
  Downward libraries i j ∨ Upward libraries i j

abbrev LinkedTo (libraries : Fin n → List (Library n)) : Fin n → Fin n → Prop :=
  Relation.ReflTransGen (LinksTo libraries)

lemma LinkedTo.of_reachesDown (h : ReachesDown libraries i j) : LinkedTo libraries i j :=
  Relation.ReflTransGen.mono (fun _ _ => Or.inl) i j h

def upwardCount (libraries : Fin n → List (Library n)) (i : Fin n) : Nat :=
  (libraries i).countP (fun lib => lib.libImage.isSome && lib.libIsUpward)

/-- All links lead to images that are loaded, and the upward links of these fit the buffer. -/
structure UpsFit (libraries : Fin n → List (Library n)) (loaded : Finset (Fin n)) : Prop where
  closed : LoadedClosed libraries loaded
  room : ∑ i ∈ loaded, upwardCount libraries i ≤ upsRoom loaded.card

lemma LinksTo.mem_loaded {loaded : Finset (Fin n)} (hclosed : LoadedClosed libraries loaded)
    (hij : LinksTo libraries i j) (hi : i ∈ loaded) : j ∈ loaded := by
  rcases hij with hdown | hup
  · exact hclosed i hi _ hdown j rfl
  · exact hclosed i hi _ hup j rfl

lemma LinkedTo.mem_loaded {loaded : Finset (Fin n)} (hclosed : LoadedClosed libraries loaded)
    (hij : LinkedTo libraries i j) (hi : i ∈ loaded) : j ∈ loaded := by
  induction hij with
  | refl => exact hi
  | tail _ hstep ih => exact hstep.mem_loaded hclosed ih

lemma noteCount_eq (i : Fin n) :
    (recursiveInitialization p fDepth).noteCount i = upwardCount p.libraries i := by
  change (List.filterMap _ _).countP PassStep.isNote = _
  rw [List.countP_filterMap, upwardCount]
  congr 1
  funext lib
  obtain ⟨libImage, libIsUpward⟩ := lib
  cases libImage with
  | none => rfl
  | some j =>
    cases libIsUpward with
    | true => rfl
    | false =>
      dsimp only
      rw [if_neg Bool.false_ne_true]
      split <;> rfl

lemma recursiveInitialization_takesRoom :
    (recursiveInitialization p fDepth).TakesRoom (fun s => s.uninitUps.length) where
  mark := fun _ _ => rfl
  unmark := fun _ _ _ => rfl
  note := by
    intro a f hf s
    obtain ⟨j, -, rfl⟩ := note_mem_steps.mp hf
    exact (List.length_append ..).le
  act := by
    intro a s s'
    rw [(act_eq p fDepth a s s').2.1]

/-- The images that are marked are those in the log. -/
abbrev Process.Inv (p : Process n ε) (fDepth : Fin n → Nat) (s : InitState n) : Prop :=
  (recursiveInitialization p fDepth).Inv InitState.log (fun _ => False) [] s

lemma mem_log_of_marked (h : p.Inv fDepth s)
    (hi : (recursiveInitialization p fDepth).marked s i = true) : i ∈ s.log := by
  simpa using (h.marked i).mp hi

/-- What a part of the initialization adds to the log, from a list of images. It leaves some for the
next round. -/
structure InitRun (p : Process n ε) (fDepth : Fin n → Nat) (images next : List (Fin n))
    (s s' : InitState n) (error : Option ε) (order : List (Fin n)) : Prop where
  log_eq : s'.log = s.log ++ order
  ordered : (recursiveInitialization p fDepth).Ordered (fun _ => False) s.log order
  inv : p.Inv fDepth s'
  reaches : ∀ b, b ∈ order ∨ b ∈ next → ∃ a ∈ images, LinkedTo p.libraries a b
  terminators : s.sImageFilesNeedingTermination = s.log.filter p.needsTermination →
    s'.sImageFilesNeedingTermination = s'.log.filter p.needsTermination
  images_mem : error = none → ∀ a ∈ images, a ∈ s'.log
  closed : error = none → ∀ b ∈ order, ∀ c,
    (recursiveInitialization p fDepth).Dep b c ∨ Upward p.libraries b c → c ∈ s'.log ∨ c ∈ next

/-- What is left for the next round is handled first. -/
lemma InitRun.append (h : InitRun p fDepth images next s s₁ none order)
    (h' : InitRun p fDepth (next ++ images') next' s₁ s' error order') :
    InitRun p fDepth (images ++ images') next' s s' error (order ++ order') where
  log_eq := by rw [h'.log_eq, h.log_eq, List.append_assoc]
  ordered := h.ordered.append (h.log_eq ▸ h'.ordered)
  inv := h'.inv
  reaches := by
    intro b hb
    rw [List.mem_append, or_assoc] at hb
    rcases hb with hb | hb
    · obtain ⟨a, ha, hab⟩ := h.reaches b (Or.inl hb)
      exact ⟨a, List.mem_append_left _ ha, hab⟩
    · obtain ⟨c, hc, hcb⟩ := h'.reaches b hb
      rcases List.mem_append.mp hc with hc | hc
      · obtain ⟨a, ha, hac⟩ := h.reaches c (Or.inr hc)
        exact ⟨a, List.mem_append_left _ ha, hac.trans hcb⟩
      · exact ⟨c, List.mem_append_right _ hc, hcb⟩
  terminators := h'.terminators ∘ h.terminators
  images_mem := by
    intro herror a ha
    rcases List.mem_append.mp ha with ha | ha
    · rw [h'.log_eq]
      exact List.mem_append_left _ (h.images_mem rfl a ha)
    · exact h'.images_mem herror a (List.mem_append_right _ ha)
  closed := by
    intro herror b hb c hc
    rcases List.mem_append.mp hb with hb | hb
    · left
      rcases h.closed rfl b hb c hc with hc | hc
      · rw [h'.log_eq]
        exact List.mem_append_left _ hc
      · exact h'.images_mem herror c (List.mem_append_left _ hc)
    · exact h'.closed herror b hb c hc

/-- A round leaves the upward links for the next one. -/
lemma round_spec (hinv : p.Inv fDepth s)
    (hrun : (recursiveInitialization p fDepth).visits fuel images { s with uninitUps := [] } = some (s', error))
    : ∃ order, InitRun p fDepth images s'.uninitUps s s' error order := by
  obtain ⟨order, hv⟩ := GraphPass.visits_spec recursiveInitialization_logs hrun
    (hinv.congr rfl fun _ => rfl)
  have hnoted : (recursiveInitialization p fDepth).AllNoted
      (fun s s' => s.uninitUps ⊆ s'.uninitUps) InitState.log s.log s' :=
    GraphPass.visits_notes recursiveInitialization_logs recursiveInitialization_keeps hrun
      fun a ha => Or.inl ha
  have hups : ∀ root ∈ images, (recursiveInitialization p fDepth).Preserves root fun t =>
      ∀ c ∈ t.uninitUps, ∃ a ∈ images, LinkedTo p.libraries a c := by
    intro root hroot
    refine ⟨fun _ _ _ _ h => h, fun _ _ _ _ _ _ h => h, ?_, ?_⟩
    · intro a f ha hf t h
      obtain ⟨j, hj, rfl⟩ := note_mem_steps.mp hf
      intro c hc
      rcases List.mem_append.mp hc with hc | hc
      · exact h c hc
      · rw [List.mem_singleton.mp hc]
        exact ⟨root, hroot, (LinkedTo.of_reachesDown (reachesDown_of_reaches ha)).tail (Or.inr hj)⟩
    · intro a t t' _ _ _ h
      rw [(act_eq p fDepth a t t').2.1]
      exact h
  have hterminators : ∀ root ∈ images, (recursiveInitialization p fDepth).Preserves root fun t =>
      t.sImageFilesNeedingTermination = t.log.filter p.needsTermination := by
    intro _ _
    refine ⟨fun _ _ _ _ h => h, fun _ _ _ _ _ _ h => h, ?_, ?_⟩
    · intro a f _ hf t h
      obtain ⟨j, -, rfl⟩ := note_mem_steps.mp hf
      exact h
    · intro a t t' _ _ _ h
      obtain ⟨hlog, -, hfiles, -⟩ := act_eq p fDepth a t t'
      rw [hlog, hfiles, h, List.filter_append]
      congr 1
      by_cases ha : p.needsTermination a = true
      · simp [ha]
      · simp [ha]
  have hkept := GraphPass.visits_preserves hterminators hrun
  refine ⟨order, hv.log_eq, hv.ordered, hv.inv, ?_, hkept, ?_, ?_⟩
  · rintro b (hb | hb)
    · obtain ⟨a, ha, hreach⟩ := hv.reaches b hb
      exact ⟨a, ha, LinkedTo.of_reachesDown (reachesDown_of_reaches hreach)⟩
    · exact GraphPass.visits_preserves hups hrun (by simp) b hb
  · exact fun herror a ha => mem_log_of_marked hv.inv (hv.marked herror a ha)
  · rintro herror b hb c (hc | hc)
    · exact Or.inl (mem_log_of_marked hv.inv (hv.closed herror b hb c hc))
    · have hnodup := hv.inv.nodup
      rw [hv.log_eq, List.nodup_append] at hnodup
      rcases hnoted b (by rw [hv.log_eq]; exact List.mem_append_right _ hb) with hold | hnew
      · exact absurd rfl (hnodup.2.2 b hold b hb)
      · obtain ⟨t, ht⟩ := hnew _ (note_mem_steps.mpr ⟨c, hc, rfl⟩)
        exact Or.inr (ht (by simp))

lemma round_room {loaded : Finset (Fin n)} (hfit : UpsFit p.libraries loaded)
    (himages : ∀ i ∈ images, i ∈ loaded)
    (hrun : (recursiveInitialization p fDepth).visits fuel images { s with uninitUps := [] } = some (s', error)) :
    s'.uninitUps.length ≤ upsRoom loaded.card := by
  have hclosed : ∀ a ∈ loaded, ∀ b, (recursiveInitialization p fDepth).Dep a b → b ∈ loaded :=
    fun a ha b hab => LinksTo.mem_loaded hfit.closed (Or.inl (initialization_dep_iff.mp hab).1) ha
  have hsize := GraphPass.visits_size recursiveInitialization_logs recursiveInitialization_takesRoom
    hclosed himages hrun
  rw [List.length_nil, Nat.zero_add, Finset.sum_congr rfl (fun i _ => noteCount_eq i)] at hsize
  exact hsize.trans hfit.room

/-- With an error, nothing is said of what is left. -/
lemma InitRun.of_error {e : ε} (h : InitRun p fDepth images next s s' (some e) order)
    (himages : images ⊆ images') : InitRun p fDepth images' [] s s' (some e) order where
  log_eq := h.log_eq
  ordered := h.ordered
  inv := h.inv
  reaches := by
    intro b hb
    obtain ⟨a, ha, hab⟩ := h.reaches b (hb.imp_right fun hb => by cases hb)
    exact ⟨a, himages ha, hab⟩
  terminators := h.terminators
  images_mem := fun herror => by cases herror
  closed := fun herror => by cases herror

lemma processInitializers_spec {loaded : Finset (Fin n)} (hfit : UpsFit p.libraries loaded)
    (hfuel : n < fuel) (rounds : Nat) (images : List (Fin n)) (himages : ∀ i ∈ images, i ∈ loaded)
    (hinv : p.Inv fDepth s) (hrounds : n < rounds + s.log.length) :
    ∃ s' error order, processInitializers p fDepth loaded.card fuel rounds images s = some (s', error) ∧
      InitRun p fDepth images [] s s' error order := by
  induction rounds generalizing images s with
  | zero =>
    have hcard := List.Nodup.length_le_card hinv.nodup
    rw [Fintype.card_fin] at hcard
    omega
  | succ rounds ih =>
    have hlogs : (recursiveInitialization p fDepth).Logs InitState.log := recursiveInitialization_logs
    have hcard : Fintype.card (Fin n) < fuel := by rwa [Fintype.card_fin]
    obtain ⟨s₁, error, hrun⟩ := GraphPass.exists_visits hlogs hcard images { s with uninitUps := [] }
    obtain ⟨order, hround⟩ := round_spec hinv hrun
    rw [processInitializers, hrun]
    dsimp only
    rw [if_neg (round_room hfit himages hrun).not_gt]
    cases error with
    | some e => exact ⟨s₁, some e, order, rfl, hround.of_error (List.Subset.refl _)⟩
    | none =>
      by_cases hups : s₁.uninitUps.length > 0
      · have hne : order ≠ [] := by
          -- a round that adds nothing has only visited what was marked
          rintro rfl
          have hmarked : ∀ a ∈ images, a ∈ s.log := by
            intro a ha
            have hmem := hround.images_mem rfl a ha
            rwa [hround.log_eq, List.append_nil] at hmem
          rw [GraphPass.visits_of_marked hrun fun a ha => (hinv.marked a).mpr (Or.inl (hmarked a ha))] at hups
          exact absurd hups (lt_irrefl 0)
        have hpos := List.length_pos_iff.mpr hne
        have hlen : s₁.log.length = s.log.length + order.length := by
          rw [hround.log_eq, List.length_append]
        have hnext : ∀ i ∈ s₁.uninitUps, i ∈ loaded := by
          intro i hi
          obtain ⟨a, ha, hai⟩ := hround.reaches i (Or.inr hi)
          exact hai.mem_loaded hfit.closed (himages a ha)
        obtain ⟨s', error, order', hrest, hinit⟩ := ih s₁.uninitUps hnext hround.inv (by omega)
        rw [← List.append_nil s₁.uninitUps] at hinit
        refine ⟨s', error, order ++ order', by simp only [if_pos hups, hrest], ?_⟩
        simpa only [List.append_nil] using hround.append hinit
      · refine ⟨s₁, none, order, by simp only [if_neg hups], ?_⟩
        rwa [List.length_eq_zero_iff.mp (by omega : s₁.uninitUps.length = 0)] at hround

lemma runInitializers_spec {loaded : Finset (Fin n)} (hfit : UpsFit p.libraries loaded) (hfuel : n < fuel)
    (roots : List (Fin n)) (hroots : ∀ root ∈ roots, root ∈ loaded) (hinv : p.Inv fDepth s) :
    ∃ s' error order, runInitializers p fDepth loaded.card fuel roots s = some (s', error) ∧
      InitRun p fDepth roots [] s s' error order := by
  induction roots generalizing s with
  | nil =>
    exact ⟨s, none, [], rfl, by simp, GraphPass.Ordered.nil, hinv, by simp, id, by simp, by simp⟩
  | cons root roots ih =>
    rw [List.forall_mem_cons] at hroots
    obtain ⟨s₁, error, order, hrun, hinit⟩ := processInitializers_spec hfit hfuel fuel [root]
      (fun i hi => List.mem_singleton.mp hi ▸ hroots.1) hinv (by omega)
    rw [runInitializers, hrun]
    cases error with
    | some e => exact ⟨s₁, some e, order, rfl, hinit.of_error (by simp)⟩
    | none =>
      obtain ⟨s', error, order', hrest, hinit'⟩ := ih hroots.2 hinit.inv
      exact ⟨s', error, order ++ order', hrest, hinit.append hinit'⟩

/-! ### Depths of the image that was linked last -/

/-- Each initializer comes after those of the images that its own is linked with downward, up to
cycles. -/
def InitOrder (libraries : Fin n → List (Library n)) (log : List (Fin n)) : Prop :=
  ∀ pre i post, log = pre ++ i :: post → ∀ j, Downward libraries i j →
    j ∈ pre ∨ ReachesDown libraries j i

lemma InitOrder.append (h : InitOrder libraries log)
    (horder : ∀ pre i post, order = pre ++ i :: post → ∀ j, Downward libraries i j →
      j ∈ log ++ pre ∨ ReachesDown libraries j i)
    : InitOrder libraries (log ++ order) := by
  intro pre i post heq j hj
  rcases split_append heq with ⟨c, rfl, hc⟩ | ⟨c, hc⟩
  · exact horder c i post hc j hj
  · exact h pre i c hc j hj

/-- A dependent that is not below its image depends on it in turn. -/
lemma InitRun.initOrder {linked : Fin n} (hfrom : DepthsFrom p.libraries linked fDepth)
    (h : InitRun p fDepth images [] s s' error order) (hs : InitOrder p.libraries s.log) :
    InitOrder p.libraries s'.log := by
  rw [h.log_eq]
  apply hs.append
  intro pre i post heq j hj
  by_cases hdepth : fDepth i ≤ fDepth j
  · rcases h.ordered pre i post heq j (initialization_dep_iff.mpr ⟨hj, hdepth⟩) with hmem | hcon | hreach
    · exact Or.inl hmem
    · exact absurd hcon id
    · exact Or.inr (reachesDown_of_reaches hreach)
  · rcases hfrom.sorted i j (Or.inl (by omega)) hj with hlt | hreach
    · omega
    · exact Or.inr hreach

def Initialized (libraries : Fin n → List (Library n)) (log : List (Fin n)) : Prop :=
  ∀ i ∈ log, ∀ j, LinksTo libraries i j → j ∈ log

lemma InitRun.initialized {linked : Fin n} (hfrom : DepthsFrom p.libraries linked fDepth)
    (hlinked : linked ∈ images) (h : InitRun p fDepth images [] s s' none order)
    (hs : Initialized p.libraries s.log) : Initialized p.libraries s'.log := by
  have hold : ∀ i ∈ s.log, ∀ j, LinksTo p.libraries i j → j ∈ s'.log := by
    intro i hi j hij
    rw [h.log_eq]
    exact List.mem_append_left _ (hs i hi j hij)
  have hstep : ∀ i ∈ s'.log, ∀ j,
      (Upward p.libraries i j ∨ Downward p.libraries i j ∧ fDepth i ≤ fDepth j) → j ∈ s'.log := by
    intro i hi j hij
    rw [h.log_eq, List.mem_append] at hi
    rcases hi with hi | hi
    · exact hold i hi j (hij.symm.imp_left And.left)
    · exact (h.closed rfl i hi j (hij.symm.imp_left initialization_dep_iff.mpr)).resolve_right
        List.not_mem_nil
  have hpath : ∀ i j, BelowPath p.libraries fDepth i j → i ∈ s'.log → j ∈ s'.log := by
    intro i j hij hi
    induction hij with
    | refl => exact hi
    | tail _ hstep' ih => exact hstep _ ih _ (Or.inr ⟨hstep'.1, hstep'.2.le⟩)
  have hstart : ∀ i, Start p.libraries linked fDepth i → i ∈ s'.log := by
    rintro i (rfl | ⟨j, hj, hup⟩)
    · exact h.images_mem rfl i hlinked
    · exact hstep j (hpath linked j hj (h.images_mem rfl linked hlinked)) i (Or.inl hup)
  intro i hi j hij
  rcases hij with hdown | hup
  · by_cases hdepth : fDepth i ≤ fDepth j
    · exact hstep i hi j (Or.inr ⟨hdown, hdepth⟩)
    · -- the depths lead to the dependent on another path
      rcases hfrom.followed i j (by omega) hdown with hne | hj
      · obtain ⟨start, hmem, hreach⟩ := hfrom.covered j hne
        exact hpath start j hreach (hstart start hmem)
      · exact hstart j hj
  · exact hstep i hi j (Or.inl hup)

lemma Initialized.mem_of_linkedTo {log : List (Fin n)} (h : Initialized libraries log) (hi : i ∈ log)
    (hij : LinkedTo libraries i j) : j ∈ log := by
  induction hij with
  | refl => exact hi
  | tail _ hstep ih => exact h _ ih _ hstep

/-! ### Phases -/

/-- All links lead to images that are loaded; depths have enough bits for these, and the buffer has enough
room for their upward links. -/
structure Phase.Sound (libraries : Fin n → List (Library n)) (phase : Phase n) : Prop where
  roots : ∀ root ∈ phase.roots, root ∈ phase.loaded
  fits : UpsFit libraries phase.loaded
  bits : phase.loaded.card < 2 ^ 15

/-- What holds between phases, whatever is thrown. -/
structure InitBetween (p : Process n ε) (s : InitState n) : Prop where
  marked : ∀ i, stateDependentsInitialized - 1 ≤ s.fState i ↔ i ∈ s.log
  nodup : s.log.Nodup
  order : InitOrder p.libraries s.log
  terminators : s.sImageFilesNeedingTermination = s.log.filter p.needsTermination

/-- What phases add, each with what it threw. -/
structure PhasesRun (libraries : Fin n → List (Library n)) (phases : List (Phase n)) (s s' : InitState n)
    (errors : List (Option ε)) : Prop where
  grown : ∃ order, s'.log = s.log ++ order ∧
    ∀ b ∈ order, ∃ phase ∈ phases, ∃ a ∈ phase.roots, LinkedTo libraries a b
  complete : (∀ e ∈ errors, e = none) → Initialized libraries s.log →
    Initialized libraries s'.log ∧ ∀ phase ∈ phases, ∀ a ∈ phase.roots, a ∈ s'.log

lemma InitBetween.inv (h : InitBetween p s) : p.Inv fDepth s where
  marked := by
    intro i
    simpa [recursiveInitialization] using h.marked i
  nodup := h.nodup
  fresh := by simp

lemma Phase.Sound.run {phase : Phase n} (hphase : phase.Sound p.libraries)
    (hlinked : phase.linked ∈ phase.roots) (h : InitBetween p s) :
    ∃ s' error, phase.run p (n + 1) s = some (s', error) ∧
      InitBetween p s' ∧ PhasesRun p.libraries [phase] s s' [error] := by
  obtain ⟨fDepth, hdepth, -, hfrom⟩ :=
    updateDepth_spec (hphase.roots _ hlinked) hphase.fits.closed hphase.bits
  obtain ⟨s', error, order, hrun, hinit⟩ := runInitializers_spec hphase.fits (Nat.lt_succ_self n)
    phase.roots hphase.roots (h.inv : p.Inv fDepth s)
  have hmarked : ∀ i, stateDependentsInitialized - 1 ≤ s'.fState i ↔ i ∈ s'.log := by
    intro i
    simpa [recursiveInitialization] using hinit.inv.marked i
  refine ⟨s', error, by rw [Phase.run, hdepth]; exact hrun, ⟨hmarked, hinit.inv.nodup,
    hinit.initOrder hfrom h.order, hinit.terminators h.terminators⟩, ⟨order, hinit.log_eq, ?_⟩, ?_⟩
  · exact fun b hb => ⟨phase, List.mem_singleton_self phase, hinit.reaches b (Or.inl hb)⟩
  · intro herror hs
    obtain rfl := herror error (List.mem_singleton_self error)
    refine ⟨hinit.initialized hfrom hlinked hs, ?_⟩
    intro phase' hphase'
    rw [List.mem_singleton.mp hphase']
    exact hinit.images_mem rfl

lemma PhasesRun.append {phases phases' : List (Phase n)} {errors errors' : List (Option ε)}
    (h : PhasesRun libraries phases s s₁ errors) (h' : PhasesRun libraries phases' s₁ s' errors') :
    PhasesRun libraries (phases ++ phases') s s' (errors ++ errors') where
  grown := by
    obtain ⟨order, hlog, hreach⟩ := h.grown
    obtain ⟨order', hlog', hreach'⟩ := h'.grown
    refine ⟨order ++ order', by rw [hlog', hlog, List.append_assoc], ?_⟩
    intro b hb
    rcases List.mem_append.mp hb with hb | hb
    · obtain ⟨phase, hphase, hroot⟩ := hreach b hb
      exact ⟨phase, List.mem_append_left _ hphase, hroot⟩
    · obtain ⟨phase, hphase, hroot⟩ := hreach' b hb
      exact ⟨phase, List.mem_append_right _ hphase, hroot⟩
  complete := by
    intro herrors hs
    obtain ⟨hs₁, hroots⟩ := h.complete (fun e he => herrors e (List.mem_append_left _ he)) hs
    obtain ⟨hs', hrest⟩ := h'.complete (fun e he => herrors e (List.mem_append_right _ he)) hs₁
    refine ⟨hs', ?_⟩
    intro phase hphase a ha
    rcases List.mem_append.mp hphase with hphase | hphase
    · obtain ⟨order', hlog', -⟩ := h'.grown
      rw [hlog']
      exact List.mem_append_left _ (hroots phase hphase a ha)
    · exact hrest phase hphase a ha

lemma PhasesRun.of_error {phase : Phase n} {phases : List (Phase n)} {e : ε}
    (h : PhasesRun libraries [phase] s s' [some e]) :
    PhasesRun libraries (phase :: phases) s s' [some e] where
  grown := by
    obtain ⟨order, hlog, hreach⟩ := h.grown
    refine ⟨order, hlog, fun b hb => ?_⟩
    obtain ⟨phase', hphase', hroot⟩ := hreach b hb
    rw [List.mem_singleton.mp hphase'] at hroot
    exact ⟨phase, List.mem_cons_self, hroot⟩
  complete := fun herrors => by cases herrors (some e) (List.mem_singleton_self _)

/-- The image that was linked last is one of those to be initialized. -/
lemma linked_mem_launch (loaded : Finset (Fin n)) (mainExecutable : Fin n) (inserted : List (Fin n)) :
    (Phase.launch loaded mainExecutable inserted).linked ∈
      (Phase.launch loaded mainExecutable inserted).roots := by
  change inserted.getLastD mainExecutable ∈ inserted ++ [mainExecutable]
  rw [List.getLastD_eq_getLast?]
  cases hlast : inserted.getLast? with
  | none => simp
  | some i => exact List.mem_append_left _ (List.mem_of_getLast? hlast)

lemma initializeAll_spec {calls : List (Finset (Fin n) × Fin n)}
    (hcalls : ∀ call ∈ calls, (Phase.dlopen call.1 call.2).Sound p.libraries) (h : InitBetween p s) :
    ∃ s' errors, initializeAll p (n + 1) calls s = some (s', errors) ∧
      InitBetween p s' ∧
      PhasesRun p.libraries (calls.map fun call => Phase.dlopen call.1 call.2) s s' errors := by
  induction calls generalizing s with
  | nil => exact ⟨s, [], rfl, h, ⟨[], by simp, by simp⟩, fun _ hs => ⟨hs, by simp⟩⟩
  | cons call calls ih =>
    obtain ⟨s₁, error, hrun, h₁, hphase⟩ := (hcalls call List.mem_cons_self).run
      (List.mem_singleton_self call.2) h
    obtain ⟨s', errors, hrest, h', hphases⟩ := ih (fun c hc => hcalls c (List.mem_cons_of_mem call hc)) h₁
    refine ⟨s', error :: errors, ?_, h', hphase.append hphases⟩
    rw [initializeAll, hrun]
    simp [hrest]

def processPhases (loaded : Finset (Fin n)) (mainExecutable : Fin n) (inserted : List (Fin n))
    (calls : List (Finset (Fin n) × Fin n)) : List (Phase n) :=
  Phase.launch loaded mainExecutable inserted :: calls.map fun call => Phase.dlopen call.1 call.2

lemma initializeProcess_spec {loaded : Finset (Fin n)} {mainExecutable : Fin n}
    {inserted : List (Fin n)} {calls : List (Finset (Fin n) × Fin n)}
    (hphases : ∀ phase ∈ processPhases loaded mainExecutable inserted calls, phase.Sound p.libraries)
    (h : InitBetween p s) :
    ∃ s' errors, initializeProcess p (n + 1) loaded mainExecutable inserted calls s =
        some (s', errors) ∧
      InitBetween p s' ∧
      PhasesRun p.libraries (processPhases loaded mainExecutable inserted calls) s s' errors := by
  obtain ⟨s₁, error, hrun, h₁, hphase⟩ := (hphases _ List.mem_cons_self).run
    (linked_mem_launch loaded mainExecutable inserted) h
  rw [initializeProcess, hrun]
  cases error with
  | some e => exact ⟨s₁, [some e], rfl, h₁, hphase.of_error⟩
  | none =>
    obtain ⟨s', errors, hrest, h', hrun'⟩ := initializeAll_spec
      (fun call hcall => hphases _ (List.mem_cons_of_mem _ (List.mem_map.mpr ⟨call, hcall, rfl⟩))) h₁
    exact ⟨s', none :: errors, by simp [hrest], h', hphase.append hrun'⟩

/-! ### All initializers of a process -/

structure InitState.Bound (s : InitState n) : Prop where
  fState : ∀ i, s.fState i < stateDependentsInitialized - 1
  terminators : s.sImageFilesNeedingTermination = []
  log : s.log = []

lemma InitState.Bound.between {s : InitState n} (h : s.Bound) : InitBetween p s where
  marked := by
    intro i
    have := h.fState i
    simp only [h.log, List.not_mem_nil, iff_false]
    omega
  nodup := by simp [h.log]
  order := by simp [h.log, InitOrder]
  terminators := by simp [h.log, h.terminators]

def InitState.bound (n : Nat) : InitState n where
  fState := fun _ => 40
  uninitUps := []
  sImageFilesNeedingTermination := []
  log := []

lemma InitState.bound_bound (n : Nat) : (InitState.bound n).Bound :=
  ⟨fun _ => (by decide : 40 < stateDependentsInitialized - 1), rfl, rfl⟩

lemma sound_univ {libraries : Fin n → List (Library n)} (hbits : n < 2 ^ 15)
    (hroom : ∑ i, upwardCount libraries i ≤ upsRoom n) (linked : Fin n) (roots : List (Fin n)) :
    (⟨Finset.univ, linked, roots⟩ : Phase n).Sound libraries where
  roots := fun root _ => Finset.mem_univ root
  fits :=
    { closed := fun _ _ _ _ j _ => Finset.mem_univ j
      room := by rwa [Finset.card_univ, Fintype.card_fin] }
  bits := by
    rw [Finset.card_univ, Fintype.card_fin]
    exact hbits

/-- Two images that are linked with each other, one way upward, and another that the first depends on. -/
def upwardProcess (throws : Fin 3 → List (Fin 3) → Option String) : Process 3 String where
  libraries := upwardLibraries
  needsTermination := fun i => i.val = 1
  throws := throws

lemma sound_upward : ∀ phase ∈ processPhases Finset.univ 0 [1] [(Finset.univ, 2)],
    phase.Sound upwardLibraries := by
  intro phase hphase
  rcases List.mem_cons.mp hphase with rfl | hphase
  · exact sound_univ (by decide) (by decide) _ _
  · rw [List.mem_singleton.mp hphase]
    exact sound_univ (by decide) (by decide) _ _

/-- As long as no initializer throws, exactly the images that are linked with the main executable, an
inserted library or an opened one are initialized, upward links included. -/
theorem initializeProcess_complete (p : Process n ε) {loaded : Finset (Fin n)}
    {mainExecutable : Fin n} {inserted : List (Fin n)} {calls : List (Finset (Fin n) × Fin n)}
    (hphases : ∀ phase ∈ processPhases loaded mainExecutable inserted calls, phase.Sound p.libraries)
    {s : InitState n} (hs : s.Bound) :
    ∃ s' errors, initializeProcess p (n + 1) loaded mainExecutable inserted calls s =
        some (s', errors) ∧
      ((∀ e ∈ errors, e = none) → ∀ i, i ∈ s'.log ↔
        ∃ phase ∈ processPhases loaded mainExecutable inserted calls, ∃ root ∈ phase.roots,
          LinkedTo p.libraries root i) := by
  obtain ⟨s', errors, hrun, -, hrun'⟩ := initializeProcess_spec hphases hs.between
  refine ⟨s', errors, hrun, fun herrors i => ⟨?_, ?_⟩⟩
  · obtain ⟨order, hlog, hreach⟩ := hrun'.grown
    rw [hlog, hs.log, List.nil_append]
    exact hreach i
  · rintro ⟨phase, hphase, root, hroot, hreach⟩
    obtain ⟨hinit, hroots⟩ := hrun'.complete herrors (by simp [hs.log, Initialized])
    exact hinit.mem_of_linkedTo (hroots phase hphase root hroot) hreach

theorem initializeProcess_complete_upward :
    ∃ s' errors, initializeProcess (upwardProcess fun _ _ => none) 4 Finset.univ 0 [1] [(Finset.univ, 2)]
        (InitState.bound 3) = some (s', errors) ∧
      ((∀ e ∈ errors, e = none) → ∀ i, i ∈ s'.log ↔
        ∃ phase ∈ processPhases Finset.univ 0 [1] [(Finset.univ, 2)], ∃ root ∈ phase.roots,
          LinkedTo upwardLibraries root i) :=
  initializeProcess_complete _ sound_upward (InitState.bound_bound 3)

end Dyld.ImageLoader
