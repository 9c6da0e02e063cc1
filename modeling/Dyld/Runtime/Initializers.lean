import Dyld.Runtime.GarbageCollection

/-!
# Running initializers bottom up

`AllImages::runInitialzersBottomUp` is run by any number of threads, and again from inside an
initializer, while other steps add and remove images. The loaded images are looked up by number
with an index as a hint, once without keeping the lock and again when the state is swapped. The
number tells the images apart only as long as no other loaded image represents it.
-/

namespace Dyld.AllImages.Initializers
open Dyld.Lib

inductive LoadState
  | unmapped | mapped | fixedUp | beingInited | inited
  deriving DecidableEq

structure Instance where
  id : Nat
  li : LoadedImage
  state : LoadState
  deriving DecidableEq

def Instance.representsImageNum (x : Instance) (num : Nat) : Bool := x.li.image.representsImageNum num

def indexForNum (loadedImages : List Instance) (num indexHint : Nat) : Option Nat :=
  if (loadedImages[indexHint]?).any (·.representsImageNum num) then some indexHint
  else loadedImages.findIdx? (·.representsImageNum num)

/-- `AllImages::findImageNum` with a hint. Its assertion fails when no image has the number. -/
def findImageNum (loadedImages : List Instance) (num indexHint : Nat) : Option (Nat × Instance) :=
  (indexForNum loadedImages num indexHint).bind fun i => loadedImages[i]?.map fun copy => (i, copy)

def swapImageState (loadedImages : List Instance) (num indexHint : Nat)
    (expectedCurrentState newState : LoadState) : Option (List Instance × Nat × Bool) :=
  (findImageNum loadedImages num indexHint).map fun (i, x) =>
    if x.state = expectedCurrentState then
      (loadedImages.set i { x with state := newState }, i, true)
    else (loadedImages, i, false)

/-- Where a call is with the number at hand. -/
inductive Phase
  | next
  | copied (num indexHint : Nat) (loadedImageCopy : Instance)
  | running (num indexHint : Nat) (loadedImageCopy : Instance)

/-- A call of `runInitialzersBottomUp`, with the numbers that are left. -/
structure Frame where
  phase : Phase
  rest : List Nat

/-- The numbers that a call still refers to. -/
def Frame.nums (frame : Frame) : List Nat :=
  match frame.phase with
  | .next => frame.rest
  | .copied num _ _ => num :: frame.rest
  | .running num _ _ => num :: frame.rest

/-- A thread is the stack of its calls. -/
structure Process where
  loadedImages : List Instance
  nextId : Nat
  threads : List (List Frame)
  started : List Nat
  asserted : Bool

def addImages (p : Process) (newImages : List (LoadedImage × LoadState)) : Process :=
  { p with
    loadedImages := p.loadedImages ++ newImages.mapIdx fun i new => ⟨p.nextId + i, new.1, new.2⟩
    nextId := p.nextId + newImages.length }

def removeImages (loadedImages : List Instance) (unloadImages : List LoadedImage) : List Instance :=
  eraseKeys (·.li.loadedAddress) loadedImages (unloadImages.map (·.loadedAddress))

/-- One step of the innermost call of a thread. -/
def advance (p : Process) (t : Nat) (frame : Frame) (frames : List Frame) : Process :=
  match frame.phase with
  | .next =>
    match frame.rest with
    | [] => { p with threads := p.threads.set t frames }
    | num :: rest =>
      match findImageNum p.loadedImages num 0 with
      | none => { p with asserted := true }
      | some (indexHint, copy) =>
        { p with threads := p.threads.set t (⟨.copied num indexHint copy, rest⟩ :: frames) }
  | .copied num indexHint copy =>
    if copy.state = .fixedUp then
      match swapImageState p.loadedImages num indexHint .fixedUp .beingInited with
      | none => { p with asserted := true }
      | some (loadedImages, indexHint, true) =>
        -- the initializers of the copy are started
        { p with
          loadedImages := loadedImages
          threads := p.threads.set t (⟨.running num indexHint copy, frame.rest⟩ :: frames)
          started := p.started ++ [copy.id] }
      | some (_, _, false) => { p with threads := p.threads.set t (⟨.next, frame.rest⟩ :: frames) }
    else { p with threads := p.threads.set t (⟨.next, frame.rest⟩ :: frames) }
  | .running num indexHint _ =>
    match swapImageState p.loadedImages num indexHint .beingInited .inited with
    | none => { p with asserted := true }
    | some (loadedImages, _, _) =>
      { p with
        loadedImages := loadedImages
        threads := p.threads.set t (⟨.next, frame.rest⟩ :: frames) }

inductive Event
  | addImages (newImages : List (LoadedImage × LoadState))
  | removeImages (unloadImages : List LoadedImage)
  | newThread
  | runInitialzersBottomUp (t : Nat) (imagesToInit : List Nat)
  | advance (t : Nat)

/-- A running call still refers to the number. -/
def Process.InUse (p : Process) (num : Nat) : Prop :=
  ∃ frames ∈ p.threads, ∃ frame ∈ frames, num ∈ frame.nums

/-- A thread calls from outside, or from inside an initializer. -/
def MayCall : List Frame → Prop
  | [] => True
  | frame :: _ => ∃ num indexHint copy, frame.phase = .running num indexHint copy

def Enabled (p : Process) : Event → Prop
  | .addImages _ => True
  | .removeImages unloadImages => ∀ x ∈ p.loadedImages,
      x ∉ removeImages p.loadedImages unloadImages → ∀ num, p.InUse num → x.representsImageNum num = false
  | .newThread => True
  | .runInitialzersBottomUp t imagesToInit => (∃ frames, p.threads[t]? = some frames ∧ MayCall frames) ∧
      ∀ num ∈ imagesToInit, ∃ x ∈ p.loadedImages, x.representsImageNum num = true
  | .advance t => ∃ frame frames, p.threads[t]? = some (frame :: frames)

def next (p : Process) : Event → Process
  | .addImages newImages => addImages p newImages
  | .removeImages unloadImages => { p with loadedImages := removeImages p.loadedImages unloadImages }
  | .newThread => { p with threads := p.threads ++ [[]] }
  | .runInitialzersBottomUp t imagesToInit =>
    { p with threads := p.threads.modify t fun frames => ⟨.next, imagesToInit⟩ :: frames }
  | .advance t =>
    match p.threads[t]? with
    | some (frame :: frames) => advance p t frame frames
    | _ => p

def Step (p : Process) (e : Event) (q : Process) : Prop := Enabled p e ∧ q = next p e

/-- Nothing has run yet. -/
structure Initial (p : Process) : Prop where
  ids : (p.loadedImages.map (·.id)).Nodup
  ids_lt : ∀ x ∈ p.loadedImages, x.id < p.nextId
  threads : p.threads = []
  started : p.started = []
  noAssertion : p.asserted = false

abbrev Runs (P : Process → Prop) : Process → Process → Prop :=
  Relation.ReflTransGen fun p q => (∃ e, Step p e q) ∧ P q

/-- No two loaded images represent a number that a running call still refers to. -/
def Process.Unambiguous (p : Process) : Prop :=
  ∀ num, p.InUse num → ∀ x ∈ p.loadedImages, ∀ y ∈ p.loadedImages,
    x.representsImageNum num = true → y.representsImageNum num = true → x = y

/-- The initializers of each image are started at most once, by the step that moves its state from
`fixedUp` to `beingInited`, a swap changes no image with another number, and no assertion fails. -/
structure RunsOnce (p : Process) : Prop where
  nodup : p.started.Nodup
  startedBySwap : ∀ e q, Step p e q → q.started = p.started ∨
    ∃ x ∈ p.loadedImages, x.state = .fixedUp ∧ { x with state := .beingInited } ∈ q.loadedImages ∧
      q.started = p.started ++ [x.id]
  swapsRepresent : ∀ num indexHint expected new images i result,
    swapImageState p.loadedImages num indexHint expected new = some (images, i, result) →
      ∀ (j : Nat) (x : Instance), p.loadedImages[j]? = some x → x.representsImageNum num = false →
        images[j]? = some x
  noAssertion : p.asserted = false

/-! ### Looking up and swapping -/

lemma indexForNum_eq_some {images : List Instance} {num indexHint i : Nat}
    (h : indexForNum images num indexHint = some i) :
    ∃ x, images[i]? = some x ∧ x.representsImageNum num = true := by
  unfold indexForNum at h
  split_ifs at h with hhint
  · cases h
    exact (Option.any_eq_true _ _).mp hhint
  · obtain ⟨hlt, hx, -⟩ := List.findIdx?_eq_some_iff_getElem.mp h
    exact ⟨_, List.getElem?_eq_getElem hlt, hx⟩

lemma findImageNum_eq_some {images : List Instance} {num indexHint i : Nat} {copy : Instance}
    (h : findImageNum images num indexHint = some (i, copy)) :
    images[i]? = some copy ∧ copy.representsImageNum num = true := by
  unfold findImageNum at h
  obtain ⟨j, hj, hcopy⟩ := Option.bind_eq_some_iff.mp h
  obtain ⟨x, hx, hpair⟩ := Option.map_eq_some_iff.mp hcopy
  cases hpair
  obtain ⟨y, hy, hnum⟩ := indexForNum_eq_some hj
  rw [hx] at hy
  cases hy
  exact ⟨hx, hnum⟩

lemma findImageNum_ne_none {images : List Instance} {num : Nat} (indexHint : Nat)
    (h : ∃ x ∈ images, x.representsImageNum num = true) : findImageNum images num indexHint ≠ none := by
  have hindex : indexForNum images num indexHint ≠ none := by
    unfold indexForNum
    split_ifs with hhint
    · exact Option.some_ne_none _
    · intro hnone
      obtain ⟨x, hx, hnum⟩ := h
      rw [List.findIdx?_eq_none_iff.mp hnone x hx] at hnum
      cases hnum
  obtain ⟨i, hi⟩ := Option.ne_none_iff_exists'.mp hindex
  obtain ⟨x, hx, -⟩ := indexForNum_eq_some hi
  unfold findImageNum
  rw [hi, Option.bind_some, hx]
  exact Option.some_ne_none _

lemma swapImageState_ne_none {images : List Instance} {num : Nat} (indexHint : Nat)
    (expected new : LoadState) (h : ∃ x ∈ images, x.representsImageNum num = true) :
    swapImageState images num indexHint expected new ≠ none := by
  unfold swapImageState
  rw [Ne, Option.map_eq_none_iff]
  exact findImageNum_ne_none indexHint h

lemma swapImageState_eq_some {images images' : List Instance} {num indexHint i : Nat}
    {expected new : LoadState} {result : Bool}
    (h : swapImageState images num indexHint expected new = some (images', i, result)) :
    ∃ x, images[i]? = some x ∧ x.representsImageNum num = true ∧
      (result = true ∧ x.state = expected ∧ images' = images.set i { x with state := new } ∨
        result = false ∧ images' = images) := by
  unfold swapImageState at h
  obtain ⟨⟨j, x⟩, hfind, heq⟩ := Option.map_eq_some_iff.mp h
  obtain ⟨hx, hnum⟩ := findImageNum_eq_some hfind
  dsimp only at heq
  split_ifs at heq with hstate
  · cases heq
    exact ⟨x, hx, hnum, Or.inl ⟨rfl, hstate, rfl⟩⟩
  · cases heq
    exact ⟨x, hx, hnum, Or.inr ⟨rfl, rfl⟩⟩

lemma swapImageState_represents {images images' : List Instance} {num indexHint i : Nat}
    {expected new : LoadState} {result : Bool}
    (h : swapImageState images num indexHint expected new = some (images', i, result))
    {j : Nat} {x : Instance} (hx : images[j]? = some x) (hnum : x.representsImageNum num = false) :
    images'[j]? = some x := by
  obtain ⟨y, hy, hynum, ⟨-, -, rfl⟩ | ⟨-, rfl⟩⟩ := swapImageState_eq_some h
  · have hne : i ≠ j := by
      rintro rfl
      rw [hy] at hx
      cases hx
      rw [hynum] at hnum
      cases hnum
    rw [List.getElem?_set_ne hne, hx]
  · exact hx

/-! ### The invariant -/

structure Frame.Valid (images : List Instance) (frame : Frame) : Prop where
  loaded : ∀ num ∈ frame.nums, ∃ x ∈ images, x.representsImageNum num = true
  copy : ∀ num indexHint copy, frame.phase = .copied num indexHint copy →
    copy.representsImageNum num = true ∧ ∃ x ∈ images, x.id = copy.id ∧ x.li = copy.li

structure Process.Valid (p : Process) : Prop where
  ids : (p.loadedImages.map (·.id)).Nodup
  ids_lt : ∀ x ∈ p.loadedImages, x.id < p.nextId
  started_lt : ∀ id ∈ p.started, id < p.nextId
  nodup : p.started.Nodup
  fresh : ∀ x ∈ p.loadedImages, x.state = .fixedUp → x.id ∉ p.started
  frames : ∀ frames ∈ p.threads, ∀ frame ∈ frames, frame.Valid p.loadedImages
  noAssertion : p.asserted = false

lemma Frame.Valid.mono {images images' : List Instance} {frame : Frame} (h : frame.Valid images)
    (hkept : ∀ x ∈ images, ∀ num ∈ frame.nums, x.representsImageNum num = true →
      ∃ x' ∈ images', x'.id = x.id ∧ x'.li = x.li) : frame.Valid images' := by
  have hrepresents : ∀ {x y : Instance} {num}, y.li = x.li → x.representsImageNum num = true →
      y.representsImageNum num = true := by
    intro x y num hli hx
    unfold Instance.representsImageNum at hx ⊢
    rw [hli]
    exact hx
  constructor
  · intro num hnum
    obtain ⟨x, hx, hxnum⟩ := h.loaded num hnum
    obtain ⟨x', hx', -, hli⟩ := hkept x hx num hnum hxnum
    exact ⟨x', hx', hrepresents hli hxnum⟩
  · intro num indexHint copy hphase
    obtain ⟨hcopy, x, hx, hid, hli⟩ := h.copy num indexHint copy hphase
    have hnum : num ∈ frame.nums := by
      unfold Frame.nums
      rw [hphase]
      exact List.mem_cons_self
    obtain ⟨x', hx', hid', hli'⟩ := hkept x hx num hnum (hrepresents hli hcopy)
    exact ⟨hcopy, x', hx', hid'.trans hid, hli'.trans hli⟩

/-- What a swap to another state than `fixedUp` keeps. -/
structure Swapped (images images' : List Instance) : Prop where
  ids : images'.map (·.id) = images.map (·.id)
  kept : ∀ x ∈ images, ∃ x' ∈ images', x'.id = x.id ∧ x'.li = x.li
  fixedUp : ∀ x' ∈ images', x'.state = .fixedUp → x' ∈ images

lemma swapped_of_swapImageState {images images' : List Instance} {num indexHint i : Nat}
    {expected new : LoadState} {result : Bool} (hnew : new ≠ .fixedUp)
    (h : swapImageState images num indexHint expected new = some (images', i, result)) :
    Swapped images images' := by
  obtain ⟨x, hx, -, ⟨-, -, rfl⟩ | ⟨-, rfl⟩⟩ := swapImageState_eq_some h
  · obtain ⟨hlt, hxi⟩ := List.getElem?_eq_some_iff.mp hx
    constructor
    · apply List.ext_getElem?
      intro j
      rw [List.getElem?_map, List.getElem?_map, List.getElem?_set]
      by_cases hij : i = j
      · rw [if_pos hij, if_pos hlt, ← hij, hx]
        rfl
      · rw [if_neg hij]
    · intro y hy
      obtain ⟨j, hj, rfl⟩ := List.mem_iff_getElem.mp hy
      by_cases hij : i = j
      · subst hij
        exact ⟨_, List.mem_set hlt _, by rw [hxi], by rw [hxi]⟩
      · apply Exists.intro images[j]
        apply And.intro _ ⟨rfl, rfl⟩
        apply List.mem_of_getElem? (i := j)
        rw [List.getElem?_set_ne hij, List.getElem?_eq_getElem hj]
    · intro y hy hstate
      rcases List.mem_or_eq_of_mem_set hy with hold | rfl
      · exact hold
      · exact absurd hstate hnew
  · exact ⟨rfl, fun y hy => ⟨y, hy, rfl, rfl⟩, fun y hy _ => hy⟩

/-! ### Steps -/

section Steps

variable {p : Process}

lemma Process.Valid.update (h : p.Valid) {images : List Instance} {t : Nat} {frames : List Frame}
    (hswapped : Swapped p.loadedImages images)
    (hframes : ∀ frame ∈ frames, frame.Valid p.loadedImages) :
    { p with loadedImages := images, threads := p.threads.set t frames }.Valid := by
  constructor
  · dsimp only
    rw [hswapped.ids]
    exact h.ids
  · intro x hx
    have hid : x.id ∈ p.loadedImages.map (·.id) := hswapped.ids ▸ List.mem_map_of_mem hx
    obtain ⟨y, hy, hyid⟩ := List.mem_map.mp hid
    exact hyid ▸ h.ids_lt y hy
  · exact h.started_lt
  · exact h.nodup
  · intro x hx hstate
    exact h.fresh x (hswapped.fixedUp x hx hstate) hstate
  · intro frames' hmem frame hframe
    have hvalid : frame.Valid p.loadedImages := by
      rcases List.mem_or_eq_of_mem_set hmem with hold | rfl
      · exact h.frames frames' hold frame hframe
      · exact hframes frame hframe
    apply hvalid.mono
    intro x hx _ _ _
    exact hswapped.kept x hx
  · exact h.noAssertion

lemma Swapped.refl (images : List Instance) : Swapped images images :=
  ⟨rfl, fun x hx => ⟨x, hx, rfl, rfl⟩, fun _ hx _ => hx⟩

lemma Frame.Valid.of_next {images : List Instance} {frame : Frame} (h : frame.Valid images) :
    Frame.Valid images ⟨.next, frame.rest⟩ := by
  constructor
  · intro num hnum
    apply h.loaded
    unfold Frame.nums
    split
    · exact hnum
    all_goals exact List.mem_cons_of_mem _ hnum
  · intro _ _ _ hcopied
    cases hcopied

lemma start_spec (h : p.Valid) (hunambiguous : p.Unambiguous) {t num indexHint i : Nat}
    {copy : Instance} {rest : List Nat} {frames : List Frame} {images : List Instance}
    (hthread : p.threads[t]? = some (⟨.copied num indexHint copy, rest⟩ :: frames))
    (hswap : swapImageState p.loadedImages num indexHint .fixedUp .beingInited =
      some (images, i, true)) :
    { p with
      loadedImages := images
      threads := p.threads.set t (⟨.running num i copy, rest⟩ :: frames)
      started := p.started ++ [copy.id] }.Valid ∧
    ∃ x ∈ p.loadedImages, x.state = .fixedUp ∧ { x with state := .beingInited } ∈ images ∧
      x.id = copy.id := by
  have hmem := List.mem_of_getElem? hthread
  have hframe : Frame.Valid p.loadedImages ⟨.copied num indexHint copy, rest⟩ :=
    h.frames _ hmem _ List.mem_cons_self
  have hswapped : Swapped p.loadedImages images :=
    swapped_of_swapImageState (by decide) hswap
  obtain ⟨hcopy, x, hx, hid, hli⟩ := hframe.copy num indexHint copy rfl
  obtain ⟨y, hy, hynum, ⟨-, hystate, himages⟩ | ⟨hfalse, -⟩⟩ := swapImageState_eq_some hswap
  swap
  · cases hfalse
  have hinUse : p.InUse num := ⟨_, hmem, _, List.mem_cons_self, List.mem_cons_self⟩
  -- no other image represents the number
  have hxy : x = y := by
    apply hunambiguous num hinUse x hx y (List.mem_of_getElem? hy) _ hynum
    unfold Instance.representsImageNum at hcopy ⊢
    rw [hli]
    exact hcopy
  subst hxy
  have hnew : { x with state := .beingInited } ∈ images := by
    rw [himages]
    exact List.mem_set (List.getElem?_eq_some_iff.mp hy).1 _
  have hupdate : Process.Valid { p with
      loadedImages := images
      threads := p.threads.set t (⟨.running num i copy, rest⟩ :: frames) } := by
    apply h.update hswapped
    intro frame hmem'
    rcases List.mem_cons.mp hmem' with rfl | hmem'
    · refine ⟨hframe.loaded, ?_⟩
      intro _ _ _ hcopied
      cases hcopied
    · exact h.frames _ hmem frame (List.mem_cons_of_mem _ hmem')
  refine ⟨?_, x, hx, hystate, hnew, hid⟩
  constructor
  · exact hupdate.ids
  · exact hupdate.ids_lt
  · intro id hmem'
    rcases List.mem_append.mp hmem' with hold | hlast
    · exact h.started_lt id hold
    · rw [List.mem_singleton.mp hlast, ← hid]
      exact h.ids_lt x hx
  · apply List.nodup_append.mpr ⟨h.nodup, List.nodup_singleton _, _⟩
    intro a ha b hb hab
    rw [List.mem_singleton.mp hb, ← hid] at hab
    exact h.fresh x hx hystate (hab ▸ ha)
  · intro z hz hstate hstarted
    rcases List.mem_append.mp hstarted with hold | hlast
    · exact h.fresh z (hswapped.fixedUp z hz hstate) hstate hold
    · -- the image with this id is being initialized
      rw [List.mem_singleton, ← hid] at hlast
      have hz' : z = { x with state := .beingInited } :=
        List.inj_on_of_nodup_map hupdate.ids hz hnew hlast
      rw [hz'] at hstate
      cases hstate
  · exact hupdate.frames
  · exact h.noAssertion

/-- What one step of a call keeps. -/
lemma advance_spec (h : p.Valid) (hunambiguous : p.Unambiguous) {t : Nat} {frame : Frame}
    {frames : List Frame} (hthread : p.threads[t]? = some (frame :: frames)) :
    (advance p t frame frames).Valid ∧ ((advance p t frame frames).started = p.started ∨
      ∃ x ∈ p.loadedImages, x.state = .fixedUp ∧
        { x with state := .beingInited } ∈ (advance p t frame frames).loadedImages ∧
        (advance p t frame frames).started = p.started ++ [x.id]) := by
  have hmem := List.mem_of_getElem? hthread
  have hframe := h.frames _ hmem frame List.mem_cons_self
  have hframes : ∀ f ∈ frames, f.Valid p.loadedImages := fun f hf =>
    h.frames _ hmem f (List.mem_cons_of_mem _ hf)
  have hcons : ∀ {f : Frame}, f.Valid p.loadedImages → ∀ g ∈ f :: frames, g.Valid p.loadedImages := by
    intro f hf g hg
    rcases List.mem_cons.mp hg with rfl | hg
    · exact hf
    · exact hframes g hg
  obtain ⟨phase, rest⟩ := frame
  cases phase with
  | next =>
    cases rest with
    | nil => exact ⟨h.update (Swapped.refl _) hframes, Or.inl rfl⟩
    | cons num rest =>
      have hfind := findImageNum_ne_none 0 (hframe.loaded num List.mem_cons_self)
      obtain ⟨⟨i, copy⟩, hcopy⟩ := Option.ne_none_iff_exists'.mp hfind
      obtain ⟨hget, hnum⟩ := findImageNum_eq_some hcopy
      unfold advance
      dsimp only
      rw [hcopy]
      refine ⟨h.update (Swapped.refl _) (hcons ?_), Or.inl rfl⟩
      refine ⟨hframe.loaded, ?_⟩
      intro num' hint' copy' hphase
      cases hphase
      exact ⟨hnum, copy, List.mem_of_getElem? hget, rfl, rfl⟩
  | copied num indexHint copy =>
    have hnext : Frame.Valid p.loadedImages ⟨.next, rest⟩ := hframe.of_next
    unfold advance
    dsimp only
    by_cases hstate : copy.state = .fixedUp
    · rw [if_pos hstate]
      have hne := swapImageState_ne_none indexHint .fixedUp .beingInited
        (hframe.loaded num List.mem_cons_self)
      obtain ⟨⟨images, i, result⟩, hswap⟩ := Option.ne_none_iff_exists'.mp hne
      rw [hswap]
      cases result with
      | true =>
        obtain ⟨hvalid, x, hx, hxstate, hnew, hid⟩ := start_spec h hunambiguous hthread hswap
        exact ⟨hvalid, Or.inr ⟨x, hx, hxstate, hnew, by rw [hid]⟩⟩
      | false => exact ⟨h.update (Swapped.refl _) (hcons hnext), Or.inl rfl⟩
    · rw [if_neg hstate]
      exact ⟨h.update (Swapped.refl _) (hcons hnext), Or.inl rfl⟩
  | running num indexHint copy =>
    have hne := swapImageState_ne_none indexHint .beingInited .inited
      (hframe.loaded num List.mem_cons_self)
    obtain ⟨⟨images, i, result⟩, hswap⟩ := Option.ne_none_iff_exists'.mp hne
    unfold advance
    dsimp only
    rw [hswap]
    exact ⟨h.update (swapped_of_swapImageState (by decide) hswap)
      (hcons hframe.of_next), Or.inl rfl⟩

lemma addImages_valid (h : p.Valid) (newImages : List (LoadedImage × LoadState)) :
    (addImages p newImages).Valid := by
  have hnew : ∀ x ∈ newImages.mapIdx fun i new => (⟨p.nextId + i, new.1, new.2⟩ : Instance),
      p.nextId ≤ x.id ∧ x.id < p.nextId + newImages.length := by
    intro x hx
    obtain ⟨i, hi, rfl⟩ := List.mem_mapIdx.mp hx
    exact ⟨Nat.le_add_right _ _, Nat.add_lt_add_left hi _⟩
  constructor
  · unfold addImages
    dsimp only
    rw [List.map_append]
    apply List.nodup_append.mpr ⟨h.ids, _, _⟩
    · rw [List.nodup_iff_injective_get]
      intro i j hij
      ext
      simpa using hij
    · intro a ha b hb hab
      obtain ⟨x, hx, rfl⟩ := List.mem_map.mp ha
      obtain ⟨y, hy, rfl⟩ := List.mem_map.mp hb
      have hlt := (h.ids_lt x hx).trans_le (hnew y hy).1
      exact hlt.ne hab
  · intro x hx
    rcases List.mem_append.mp hx with hold | hx
    · exact (h.ids_lt x hold).trans_le (Nat.le_add_right _ _)
    · exact (hnew x hx).2
  · intro id hid
    exact (h.started_lt id hid).trans_le (Nat.le_add_right _ _)
  · exact h.nodup
  · intro x hx hstate
    rcases List.mem_append.mp hx with hold | hx
    · exact h.fresh x hold hstate
    · exact fun hstarted => ((h.started_lt _ hstarted).trans_le (hnew x hx).1).ne rfl
  · intro frames hframes frame hframe
    apply (h.frames frames hframes frame hframe).mono
    intro x hx _ _ _
    exact ⟨x, List.mem_append_left _ hx, rfl, rfl⟩
  · exact h.noAssertion

lemma removeImages_valid (h : p.Valid) {unloadImages : List LoadedImage}
    (henabled : Enabled p (.removeImages unloadImages)) :
    (next p (.removeImages unloadImages)).Valid := by
  constructor
  · exact h.ids.sublist ((eraseKeys_sublist _ _).map _)
  · intro x hx
    exact h.ids_lt x ((eraseKeys_sublist _ _).subset hx)
  · exact h.started_lt
  · exact h.nodup
  · intro x hx hstate
    exact h.fresh x ((eraseKeys_sublist _ _).subset hx) hstate
  · intro frames hframes frame hframe
    apply (h.frames frames hframes frame hframe).mono
    intro x hx num hnum hxnum
    by_cases hkept : x ∈ removeImages p.loadedImages unloadImages
    · exact ⟨x, hkept, rfl, rfl⟩
    · rw [henabled x hx hkept num ⟨frames, hframes, frame, hframe, hnum⟩] at hxnum
      cases hxnum
  · exact h.noAssertion

lemma newThread_valid (h : p.Valid) : (next p .newThread).Valid := by
  refine ⟨h.ids, h.ids_lt, h.started_lt, h.nodup, h.fresh, ?_, h.noAssertion⟩
  intro frames hframes frame hframe
  rcases List.mem_append.mp hframes with hold | hnew
  · exact h.frames frames hold frame hframe
  · rw [List.mem_singleton.mp hnew] at hframe
    cases hframe

lemma runInitialzersBottomUp_valid (h : p.Valid) {t : Nat} {imagesToInit : List Nat}
    (henabled : Enabled p (.runInitialzersBottomUp t imagesToInit)) :
    (next p (.runInitialzersBottomUp t imagesToInit)).Valid := by
  refine ⟨h.ids, h.ids_lt, h.started_lt, h.nodup, h.fresh, ?_, h.noAssertion⟩
  intro frames hframes frame hframe
  obtain ⟨j, hj⟩ := List.mem_iff_getElem?.mp hframes
  change (p.threads.modify t _)[j]? = some frames at hj
  rw [List.getElem?_modify] at hj
  obtain ⟨old, hold, hfun⟩ := Option.map_eq_some_iff.mp hj
  have hmem := List.mem_of_getElem? hold
  split_ifs at hfun
  · rw [← hfun] at hframe
    rcases List.mem_cons.mp hframe with rfl | hframe
    · refine ⟨henabled.2, ?_⟩
      intro _ _ _ hcopied
      cases hcopied
    · exact h.frames old hmem frame hframe
  · exact h.frames old hmem frame (hfun ▸ hframe)

lemma Step.spec {e : Event} {q : Process} (hstep : Step p e q) (h : p.Valid)
    (hunambiguous : p.Unambiguous) :
    q.Valid ∧ (q.started = p.started ∨ ∃ x ∈ p.loadedImages, x.state = .fixedUp ∧
      { x with state := .beingInited } ∈ q.loadedImages ∧ q.started = p.started ++ [x.id]) := by
  obtain ⟨henabled, rfl⟩ := hstep
  cases e with
  | addImages newImages => exact ⟨addImages_valid h newImages, Or.inl rfl⟩
  | removeImages unloadImages => exact ⟨removeImages_valid h henabled, Or.inl rfl⟩
  | newThread => exact ⟨newThread_valid h, Or.inl rfl⟩
  | runInitialzersBottomUp t imagesToInit =>
    exact ⟨runInitialzersBottomUp_valid h henabled, Or.inl rfl⟩
  | advance t =>
    obtain ⟨frame, frames, hthread⟩ := henabled
    have hspec := advance_spec h hunambiguous hthread
    unfold next
    dsimp only
    rw [hthread]
    exact hspec

end Steps

/-! ### Runs -/

lemma Initial.valid {p : Process} (h : Initial p) : p.Valid ∧ p.Unambiguous := by
  constructor
  · refine ⟨h.ids, h.ids_lt, ?_, ?_, ?_, ?_, h.noAssertion⟩
    · simp [h.started]
    · simp [h.started]
    · simp [h.started]
    · simp [h.threads]
  · rintro num ⟨frames, hframes, -⟩
    rw [h.threads] at hframes
    cases hframes

lemma Runs.valid {p q : Process} (h : Runs Process.Unambiguous p q) (hp : Initial p) :
    q.Valid ∧ q.Unambiguous := by
  induction h with
  | refl => exact hp.valid
  | tail _ hlast ih =>
    obtain ⟨⟨e, hstep⟩, hunambiguous⟩ := hlast
    exact ⟨(hstep.spec ih.1 ih.2).1, hunambiguous⟩

/-- In a run in which no two loaded images represent a number that is still referred to, the
initializers of an image run at most once. -/
theorem runInitialzersBottomUp_once {p q : Process} (hp : Initial p)
    (hrun : Runs Process.Unambiguous p q) : RunsOnce q := by
  obtain ⟨hvalid, hunambiguous⟩ := hrun.valid hp
  constructor
  · exact hvalid.nodup
  · intro e q' hstep
    exact (hstep.spec hvalid hunambiguous).2
  · intro num indexHint expected new images i result hswap j x hx hnum
    exact swapImageState_represents hswap hx hnum
  · exact hvalid.noAssertion

/-- A dylib with number 3, an override of it, and another dylib. -/
def cached : LoadedImage := ⟨0x2000, ⟨3, true, false, none, false, []⟩⟩
def override : LoadedImage := ⟨0x3000, ⟨9, true, true, some 3, false, []⟩⟩
def other : LoadedImage := ⟨0x1000, ⟨1, true, false, none, false, []⟩⟩

def withBoth : Process := ⟨[⟨0, other, .fixedUp⟩, ⟨1, cached, .fixedUp⟩], 2, [], [], false⟩

def startTwice : List Event :=
  [.newThread, .runInitialzersBottomUp 0 [3], .advance 0, .addImages [(override, .fixedUp)],
    .removeImages [other], .advance 0, .newThread, .runInitialzersBottomUp 1 [3], .advance 1, .advance 1]

/-- A dylib that is loaded later. -/
def plugin : LoadedImage := ⟨0x4000, ⟨7, true, false, none, false, []⟩⟩

/-- Two threads look up the cached dylib before one of them starts its initializers. These load a
dylib and initialize it in a nested call, while `other` is removed. -/
def startNested : List Event :=
  [.newThread, .newThread, .runInitialzersBottomUp 0 [3], .runInitialzersBottomUp 1 [3], .advance 0,
    .advance 1, .advance 0, .advance 1, .addImages [(plugin, .fixedUp)],
    .runInitialzersBottomUp 0 [3, 7], .advance 0, .advance 0, .removeImages [other], .advance 0,
    .advance 0, .advance 0, .advance 0, .advance 0, .advance 1]

/-- The events can happen one after the other, and each leads to a process with the condition. -/
def Allowed (P : Process → Prop) : Process → List Event → Prop
  | _, [] => True
  | p, e :: events => Enabled p e ∧ P (next p e) ∧ Allowed P (next p e) events

lemma Allowed.runs {P : Process → Prop} {p : Process} {events : List Event}
    (h : Allowed P p events) : Runs P p (events.foldl next p) := by
  induction events generalizing p with
  | nil => exact Relation.ReflTransGen.refl
  | cons e events ih =>
    obtain ⟨henabled, hnext, hrest⟩ := h
    exact Relation.ReflTransGen.head ⟨⟨e, henabled, rfl⟩, hnext⟩ (ih hrest)

lemma unambiguous_of_plain {p : Process}
    (hplain : ∀ x ∈ p.loadedImages, x.li.image.hasOverrideImageNum = false)
    (hnums : ∀ x ∈ p.loadedImages, ∀ y ∈ p.loadedImages,
      x.li.image.imageNum = y.li.image.imageNum → x = y) : p.Unambiguous := by
  intro num _ x hx y hy hxnum hynum
  have hnum : ∀ z ∈ p.loadedImages, z.representsImageNum num = true →
      z.li.image.imageNum = num := by
    intro z hz hznum
    unfold Instance.representsImageNum Image.representsImageNum at hznum
    rw [hplain z hz] at hznum
    by_contra hne
    simp [hne] at hznum
  exact hnums x hx y hy ((hnum x hx hxnum).trans (hnum y hy hynum).symm)

lemma removable_of_nums {p : Process} {unloadImages : List LoadedImage}
    (h : ∀ frames ∈ p.threads, ∀ frame ∈ frames, ∀ num ∈ frame.nums, ∀ x ∈ p.loadedImages,
      x ∉ removeImages p.loadedImages unloadImages → x.representsImageNum num = false) :
    Enabled p (.removeImages unloadImages) := by
  rintro x hx hnot num ⟨frames, hframes, frame, hframe, hnum⟩
  exact h frames hframes frame hframe num hnum x hx hnot

lemma allowed_startNested : Allowed Process.Unambiguous withBoth startNested := by
  have hadvance : ∀ {p : Process} {t : Nat}, (p.threads[t]?.bind List.head?).isSome = true →
      Enabled p (.advance t) := by
    intro p t h
    obtain ⟨frame, hframe⟩ := Option.isSome_iff_exists.mp h
    obtain ⟨frames, hframes, hhead⟩ := Option.bind_eq_some_iff.mp hframe
    obtain ⟨rest, rfl⟩ := List.head?_eq_some_iff.mp hhead
    exact ⟨frame, rest, hframes⟩
  refine ⟨trivial, ?_, trivial, ?_, ⟨⟨_, rfl, trivial⟩, by decide⟩, ?_,
    ⟨⟨_, rfl, trivial⟩, by decide⟩, ?_, hadvance rfl, ?_, hadvance rfl, ?_, hadvance rfl, ?_,
    hadvance rfl, ?_, trivial, ?_, ⟨⟨_, rfl, _, _, _, rfl⟩, by decide⟩, ?_, hadvance rfl, ?_,
    hadvance rfl, ?_, removable_of_nums (by decide), ?_, hadvance rfl, ?_, hadvance rfl, ?_,
    hadvance rfl, ?_, hadvance rfl, ?_, hadvance rfl, ?_, hadvance rfl, ?_, trivial⟩
  all_goals exact unambiguous_of_plain (by decide) (by decide)

/-- The initializers of both dylibs are started once, and the thread that comes second starts none. -/
theorem runInitialzersBottomUp_once_nested :
    RunsOnce (startNested.foldl next withBoth) ∧
      (startNested.foldl next withBoth).started = [1, 2] ∧
      (startNested.foldl next withBoth).loadedImages =
        [⟨1, cached, .inited⟩, ⟨2, plugin, .inited⟩] :=
  ⟨runInitialzersBottomUp_once ⟨by decide, by decide, rfl, rfl, rfl⟩ allowed_startNested.runs, rfl,
    rfl⟩

lemma other_removable :
    Enabled ((startTwice.take 4).foldl next withBoth) (.removeImages [other]) :=
  removable_of_nums (by decide)

/-- The swap finds the override at the index of the cached dylib, whose initializers are started.
Its state stays, and another thread starts them again. -/
theorem runInitialzersBottomUp_twice :
    Initial withBoth ∧ Runs (fun _ => True) withBoth (startTwice.foldl next withBoth) ∧
      (startTwice.foldl next withBoth).started = [1, 1] ∧
      ¬RunsOnce (startTwice.foldl next withBoth) := by
  refine ⟨⟨by decide, by decide, rfl, rfl, rfl⟩, ?_, rfl, fun h => absurd h.nodup (by decide)⟩
  apply Relation.ReflTransGen.head ⟨⟨.newThread, trivial, rfl⟩, trivial⟩
  apply Relation.ReflTransGen.head ⟨⟨.runInitialzersBottomUp 0 [3], ⟨⟨_, rfl, trivial⟩, by decide⟩, rfl⟩,
    trivial⟩
  apply Relation.ReflTransGen.head ⟨⟨.advance 0, ⟨_, _, rfl⟩, rfl⟩, trivial⟩
  apply Relation.ReflTransGen.head ⟨⟨.addImages [(override, .fixedUp)], trivial, rfl⟩, trivial⟩
  apply Relation.ReflTransGen.head ⟨⟨.removeImages [other], other_removable, rfl⟩, trivial⟩
  apply Relation.ReflTransGen.head ⟨⟨.advance 0, ⟨_, _, rfl⟩, rfl⟩, trivial⟩
  apply Relation.ReflTransGen.head ⟨⟨.newThread, trivial, rfl⟩, trivial⟩
  apply Relation.ReflTransGen.head ⟨⟨.runInitialzersBottomUp 1 [3], ⟨⟨_, rfl, trivial⟩, by decide⟩,
    rfl⟩, trivial⟩
  apply Relation.ReflTransGen.head ⟨⟨.advance 1, ⟨_, _, rfl⟩, rfl⟩, trivial⟩
  exact Relation.ReflTransGen.single ⟨⟨.advance 1, ⟨_, _, rfl⟩, rfl⟩, trivial⟩

end Dyld.AllImages.Initializers
