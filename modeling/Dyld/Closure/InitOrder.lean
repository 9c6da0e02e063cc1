import Dyld.Lib.BubbleSort

/-!
# Initializer order

`ClosureBuilder::computeInitOrder` numbers the loaded images from the bottom up, starting at one
image. An upward link only marks its target as dangling. The dangling images are visited in one
pass in the order of the load indexes, so an image that this pass marks at a smaller index stays
without a number, and its initializers are not recorded.
-/

namespace Dyld.Closure.InitOrder

open Dyld.Lib

inductive LinkKind
  | regular
  | weak
  | upward
  | reExport
  deriving DecidableEq, Repr

structure LinkedImage where
  kind : LinkKind
  imageNum : Nat
  deriving DecidableEq

def kMissingWeakLinkedImage : Nat := 0x0FFFFFFF

/-- The fields of a `BuilderLoadedImage` that the order depends on. -/
structure BuilderLoadedImage where
  dependents : List LinkedImage
  imageNum : Nat
  hasInits : Bool
  isBadImage : Bool
  overrideImageNum : Nat

/-- The index that `findLoadedImage` finds; its assertion fails when there is none. -/
def findLoadedImage (images : List BuilderLoadedImage) (imageNum : Nat) : Option Nat :=
  (images.findIdx? (fun li => li.imageNum == imageNum)).or
    (images.findIdx? (fun li => li.overrideImageNum == imageNum))

structure InitInfo where
  initOrder : Nat
  danglingUpward : Bool
  visited : Bool

/-- The array `initInfos`, and what the recursion gets by reference. -/
structure InitState where
  initInfos : Nat → InitInfo
  initOrder : Nat
  hasError : Bool

namespace InitState

variable (s : InitState) (i : Nat)

def enter : InitState where
  initInfos := Function.update s.initInfos i ⟨(s.initInfos i).initOrder, false, true⟩
  initOrder := s.initOrder
  hasError := s.hasError

def dangle : InitState where
  initInfos := Function.update s.initInfos i
    ⟨(s.initInfos i).initOrder, (s.initInfos i).danglingUpward || !(s.initInfos i).visited,
      (s.initInfos i).visited⟩
  initOrder := s.initOrder
  hasError := s.hasError

def finish : InitState where
  initInfos := Function.update s.initInfos i
    ⟨s.initOrder, (s.initInfos i).danglingUpward, (s.initInfos i).visited⟩
  initOrder := s.initOrder + 1
  hasError := s.hasError

end InitState

def visitDependents (images : List BuilderLoadedImage)
    (visit : Nat → InitState → Option InitState) :
    List LinkedImage → InitState → Option InitState
  | [], s => some s
  | dep :: deps, s =>
    if dep.imageNum = kMissingWeakLinkedImage then visitDependents images visit deps s
    else
      (findLoadedImage images dep.imageNum).bind fun depLoadIndex =>
        if dep.kind = .upward then visitDependents images visit deps (s.dangle depLoadIndex)
        else
          (visit depLoadIndex s).bind fun s =>
            if s.hasError then some s else visitDependents images visit deps s

def depthFirstRecurseSetInitInfo (images : List BuilderLoadedImage) :
    Nat → Nat → InitState → Option InitState
  | 0, _, _ => none
  | depth + 1, loadIndex, s =>
    if (s.initInfos loadIndex).visited then some s
    else
      images[loadIndex]?.bind fun li =>
        if li.isBadImage then some { s.enter loadIndex with hasError := true }
        else
          (visitDependents images (depthFirstRecurseSetInitInfo images depth) li.dependents
            (s.enter loadIndex)).map fun s => if s.hasError then s else s.finish loadIndex

/-- The body of the loop over the images that are still dangling. -/
def forceAdd (images : List BuilderLoadedImage) (depth : Nat) (s : InitState) (i : Nat) :
    Option InitState :=
  if !(s.initInfos i).visited && (s.initInfos i).danglingUpward then
    depthFirstRecurseSetInitInfo images depth i s
  else some s

def forceAddDangling (images : List BuilderLoadedImage) (depth : Nat) (s : InitState) :
    Option InitState :=
  (List.range images.length).foldlM (forceAdd images depth) s

/-- What `computeInitOrder` tells the writer. -/
inductive InitsOrder
  | invalid
  | inits (indexes : List Nat)
  deriving DecidableEq, Repr

def sortInits (images : List BuilderLoadedImage) (s : InitState) : List Nat :=
  bubbleSort (fun i => (s.initInfos i).initOrder)
    ((List.range images.length).filter fun i =>
      (s.initInfos i).visited && images[i]?.any (·.hasInits))

/-- `computeInitOrder`. The list has the load indexes of the images whose numbers are recorded. No
path without a repetition is longer than the number of images. -/
def computeInitOrder (images : List BuilderLoadedImage) (loadIndex : Nat) : Option InitsOrder :=
  let depth := images.length + 1
  (depthFirstRecurseSetInitInfo images depth loadIndex ⟨fun _ => ⟨0, false, false⟩, 1, false⟩).bind
    fun s =>
      if s.hasError then some .invalid
      else
        (forceAddDangling images depth s).map fun s =>
          if s.hasError then .invalid else .inits (sortInits images s)

/-! ### Links -/

section Links

variable (images : List BuilderLoadedImage)

def LinksTo (deps : List LinkedImage) (upward : Bool) (x : Nat) : Prop :=
  ∃ dep ∈ deps, dep.imageNum ≠ kMissingWeakLinkedImage ∧ (dep.kind == .upward) = upward ∧
    findLoadedImage images dep.imageNum = some x

def NonUpward (i x : Nat) : Prop := ∃ li, images[i]? = some li ∧ LinksTo images li.dependents false x

def Upward (i x : Nat) : Prop := ∃ li, images[i]? = some li ∧ LinksTo images li.dependents true x

/-- Reachable through links of any kind. -/
def Reaches (i x : Nat) : Prop :=
  Relation.ReflTransGen (fun i x => NonUpward images i x ∨ Upward images i x) i x

/-- Reachable through links that are not upward. -/
abbrev Above (i x : Nat) : Prop := Relation.ReflTransGen (NonUpward images) i x

/-- Loaded images: none is bad, and each dependent is one of them. -/
structure AllLoaded : Prop where
  notBad : ∀ li ∈ images, li.isBadImage = false
  found : ∀ li ∈ images, ∀ dep ∈ li.dependents, dep.imageNum ≠ kMissingWeakLinkedImage →
    ∃ x, findLoadedImage images dep.imageNum = some x

def hasInits (i : Nat) : Bool := images[i]?.any (·.hasInits)

/-- The recorded list has every image with initializers that can be reached, once and nothing else,
and dependents first unless there are cycles. -/
structure InitsInOrder (start : Nat) (order : List Nat) : Prop where
  nodup : order.Nodup
  mem_iff : ∀ i, i ∈ order ↔ Reaches images start i ∧ hasInits images i = true
  dependentsFirst : (∀ i, Reaches images start i → ¬Relation.TransGen (NonUpward images) i i) →
    order.Pairwise fun i j => ¬Relation.TransGen (NonUpward images) i j

/-- Reachable on a path whose upward links lead to greater and greater load indexes, all smaller
than the bound. -/
inductive Ascending (start : Nat) : Nat → Nat → Prop
  | start : Ascending start 0 start
  | nonUpward {bound i x : Nat} : Ascending start bound i → NonUpward images i x →
      Ascending start bound x
  | upward {bound i x : Nat} : Ascending start bound i → Upward images i x → bound ≤ x →
      Ascending start (x + 1) x

end Links

/-! ### One step of the recursion -/

section Steps

variable {s : InitState} {i x : Nat}

@[simp] lemma visited_enter :
    ((s.enter i).initInfos x).visited = (decide (x = i) || (s.initInfos x).visited) := by
  by_cases h : x = i <;> simp [InitState.enter, Function.update, h]

@[simp] lemma initOrder_enter :
    ((s.enter i).initInfos x).initOrder = (s.initInfos x).initOrder := by
  by_cases h : x = i <;> simp [InitState.enter, Function.update, h]

@[simp] lemma danglingUpward_enter :
    ((s.enter i).initInfos x).danglingUpward =
      (!decide (x = i) && (s.initInfos x).danglingUpward) := by
  by_cases h : x = i <;> simp [InitState.enter, Function.update, h]

@[simp] lemma visited_dangle : ((s.dangle i).initInfos x).visited = (s.initInfos x).visited := by
  by_cases h : x = i <;> simp [InitState.dangle, Function.update, h]

@[simp] lemma initOrder_dangle : ((s.dangle i).initInfos x).initOrder = (s.initInfos x).initOrder := by
  by_cases h : x = i <;> simp [InitState.dangle, Function.update, h]

@[simp] lemma danglingUpward_dangle :
    ((s.dangle i).initInfos x).danglingUpward =
      ((s.initInfos x).danglingUpward || (decide (x = i) && !(s.initInfos x).visited)) := by
  by_cases h : x = i <;> simp [InitState.dangle, Function.update, h]

@[simp] lemma visited_finish : ((s.finish i).initInfos x).visited = (s.initInfos x).visited := by
  by_cases h : x = i <;> simp [InitState.finish, Function.update, h]

@[simp] lemma initOrder_finish : ((s.finish i).initInfos x).initOrder =
    if x = i then s.initOrder else (s.initInfos x).initOrder := by
  by_cases h : x = i <;> simp [InitState.finish, Function.update, h]

@[simp] lemma danglingUpward_finish :
    ((s.finish i).initInfos x).danglingUpward = (s.initInfos x).danglingUpward := by
  by_cases h : x = i <;> simp [InitState.finish, Function.update, h]

end Steps

/-- What holds between the steps. A visited image without a number is one whose dependents are
being visited. -/
structure Good (s : InitState) : Prop where
  order_lt : ∀ x, (s.initInfos x).initOrder < s.initOrder
  unvisited : ∀ x, (s.initInfos x).visited = false → (s.initInfos x).initOrder = 0
  dangling : ∀ x, (s.initInfos x).danglingUpward = true → (s.initInfos x).visited = false
  noError : s.hasError = false

def New (s s' : InitState) (x : Nat) : Prop :=
  (s'.initInfos x).visited = true ∧ (s.initInfos x).visited = false

/-- Images have been visited, all above one of the `roots`; the images in `marks` may have been
marked as dangling, and so have the targets of upward links of visited images. A visited image has
a smaller number than one that links to it, unless it was being visited before, or the two are on
a cycle. -/
structure Explores (images : List BuilderLoadedImage) (roots marks : Nat → Prop)
    (s s' : InitState) : Prop where
  visited : ∀ x, (s.initInfos x).visited = true → (s'.initInfos x).visited = true ∧
    (s'.initInfos x).initOrder = (s.initInfos x).initOrder
  counter : s.initOrder ≤ s'.initOrder
  number : ∀ x, New s s' x →
    s.initOrder ≤ (s'.initInfos x).initOrder ∧ 0 < (s'.initInfos x).initOrder
  above : ∀ x, New s s' x → ∃ r, roots r ∧ Above images r x
  nonUpward : ∀ y, New s s' y → ∀ x, NonUpward images y x → (s'.initInfos x).visited = true ∧
    ((0 < (s'.initInfos x).initOrder ∧ (s'.initInfos x).initOrder < (s'.initInfos y).initOrder) ∨
      ((s.initInfos x).visited = true ∧ (s.initInfos x).initOrder = 0) ∨ Above images x y)
  upward : ∀ y, New s s' y → ∀ x, Upward images y x →
    (s'.initInfos x).visited = true ∨ (s'.initInfos x).danglingUpward = true
  dangling_keep : ∀ x, (s.initInfos x).danglingUpward = true →
    (s'.initInfos x).visited = true ∨ (s'.initInfos x).danglingUpward = true
  dangling_new : ∀ x, (s'.initInfos x).danglingUpward = true →
    (s.initInfos x).danglingUpward = true ∨ marks x ∨ ∃ y, New s s' y ∧ Upward images y x

section Explores

variable {images : List BuilderLoadedImage} {roots marks : Nat → Prop} {s s' s'' : InitState}

lemma Explores.refl : Explores images roots marks s s := by
  have hnone : ∀ x, ¬New s s x := by
    intro x hx
    rw [New, hx.1] at hx
    exact Bool.noConfusion hx.2
  constructor
  · intro x hx
    exact ⟨hx, rfl⟩
  · exact le_rfl
  · intro x hx
    exact absurd hx (hnone x)
  · intro x hx
    exact absurd hx (hnone x)
  · intro x hx
    exact absurd hx (hnone x)
  · intro x hx
    exact absurd hx (hnone x)
  · intro x hx
    exact Or.inr hx
  · intro x hx
    exact Or.inl hx

lemma Explores.mono {roots' marks' : Nat → Prop} (h : Explores images roots marks s s')
    (hroots : ∀ x, roots x → roots' x) (hmarks : ∀ x, marks x → marks' x) :
    Explores images roots' marks' s s' where
  visited := h.visited
  counter := h.counter
  number := h.number
  above x hx := by
    obtain ⟨r, hr, habove⟩ := h.above x hx
    exact ⟨r, hroots r hr, habove⟩
  nonUpward := h.nonUpward
  upward := h.upward
  dangling_keep := h.dangling_keep
  dangling_new x hx := (h.dangling_new x hx).imp_right (Or.imp_left (hmarks x))

lemma New.cases (s' : InitState) {x : Nat} (hx : New s s'' x) :
    (New s s' x ∧ (s'.initInfos x).visited = true) ∨ New s' s'' x := by
  cases hv : (s'.initInfos x).visited with
  | true => exact Or.inl ⟨⟨hv, hx.2⟩, rfl⟩
  | false => exact Or.inr ⟨hx.1, hv⟩

lemma New.of_left (h : Explores images roots marks s' s'') {x : Nat} (hx : New s s' x) :
    New s s'' x := ⟨(h.visited x hx.1).1, hx.2⟩

lemma New.of_right (h : Explores images roots marks s s') {x : Nat} (hx : New s' s'' x) :
    New s s'' x := by
  refine ⟨hx.1, ?_⟩
  apply Bool.eq_false_iff.mpr
  intro hv
  have hfalse := hx.2
  rw [(h.visited x hv).1] at hfalse
  cases hfalse

lemma Explores.trans (h : Explores images roots marks s s') (h' : Explores images roots marks s' s'') :
    Explores images roots marks s s'' := by
  constructor
  · intro x hx
    obtain ⟨hv, ho⟩ := h.visited x hx
    obtain ⟨hv', ho'⟩ := h'.visited x hv
    exact ⟨hv', ho'.trans ho⟩
  · exact h.counter.trans h'.counter
  · intro x hx
    rcases hx.cases s' with ⟨hnew, hv⟩ | hnew
    · rw [(h'.visited x hv).2]
      exact h.number x hnew
    · have hnumber := h'.number x hnew
      exact ⟨h.counter.trans hnumber.1, hnumber.2⟩
  · intro x hx
    rcases hx.cases s' with ⟨hnew, -⟩ | hnew
    · exact h.above x hnew
    · exact h'.above x hnew
  · intro y hy x hlink
    rcases hy.cases s' with ⟨hnew, hv⟩ | hnew
    · obtain ⟨hx, hcases⟩ := h.nonUpward y hnew x hlink
      obtain ⟨hx', ho⟩ := h'.visited x hx
      rw [ho, (h'.visited y hv).2]
      exact ⟨hx', hcases⟩
    · obtain ⟨hx, hcases⟩ := h'.nonUpward y hnew x hlink
      refine ⟨hx, ?_⟩
      rcases hcases with hlt | ⟨hopen, hzero⟩ | habove
      · exact Or.inl hlt
      · -- what was visited in the first step has a number
        cases hv : (s.initInfos x).visited with
        | true =>
          rw [(h.visited x hv).2] at hzero
          exact Or.inr (Or.inl ⟨rfl, hzero⟩)
        | false =>
          have hnumber := (h.number x ⟨hopen, hv⟩).2
          omega
      · exact Or.inr (Or.inr habove)
  · intro y hy x hlink
    rcases hy.cases s' with ⟨hnew, -⟩ | hnew
    · rcases h.upward y hnew x hlink with hx | hx
      · exact Or.inl (h'.visited x hx).1
      · exact h'.dangling_keep x hx
    · exact h'.upward y hnew x hlink
  · intro x hx
    rcases h.dangling_keep x hx with hx | hx
    · exact Or.inl (h'.visited x hx).1
    · exact h'.dangling_keep x hx
  · intro x hx
    rcases h'.dangling_new x hx with hx | hx | ⟨y, hy, hlink⟩
    · rcases h.dangling_new x hx with hx | hx | ⟨y, hy, hlink⟩
      · exact Or.inl hx
      · exact Or.inr (Or.inl hx)
      · exact Or.inr (Or.inr ⟨y, hy.of_left h', hlink⟩)
    · exact Or.inr (Or.inl hx)
    · exact Or.inr (Or.inr ⟨y, hy.of_right h, hlink⟩)

lemma Explores.dangle {x : Nat} (hmark : marks x) :
    Explores images roots marks s (s.dangle x) := by
  have hnone : ∀ y, ¬New s (s.dangle x) y := by
    intro y hy
    rw [New, visited_dangle, hy.2] at hy
    exact Bool.noConfusion hy.1
  constructor
  · intro y hy
    rw [visited_dangle, initOrder_dangle]
    exact ⟨hy, rfl⟩
  · exact le_rfl
  · intro y hy
    exact absurd hy (hnone y)
  · intro y hy
    exact absurd hy (hnone y)
  · intro y hy
    exact absurd hy (hnone y)
  · intro y hy
    exact absurd hy (hnone y)
  · intro y hy
    rw [danglingUpward_dangle, hy]
    exact Or.inr rfl
  · intro y hy
    rw [danglingUpward_dangle, Bool.or_eq_true, Bool.and_eq_true, decide_eq_true_iff] at hy
    rcases hy with hy | ⟨rfl, -⟩
    · exact Or.inl hy
    · exact Or.inr (Or.inl hmark)

lemma Good.dangle (h : Good s) (x : Nat) : Good (s.dangle x) := by
  constructor
  · intro y
    rw [initOrder_dangle]
    exact h.order_lt y
  · intro y hy
    rw [visited_dangle] at hy
    rw [initOrder_dangle]
    exact h.unvisited y hy
  · intro y hy
    rw [danglingUpward_dangle, Bool.or_eq_true, Bool.and_eq_true, Bool.not_eq_true'] at hy
    rw [visited_dangle]
    rcases hy with hy | ⟨-, hy⟩
    · exact h.dangling y hy
    · exact hy
  · exact h.noError

lemma Explores.image {i : Nat} (hgood : Good s) (hi : (s.initInfos i).visited = false)
    (h : Explores images (NonUpward images i) (Upward images i) (s.enter i) s') (hgood' : Good s')
    (hlinks : ∀ x, NonUpward images i x → (s'.initInfos x).visited = true)
    (hup : ∀ x, Upward images i x →
      (s'.initInfos x).visited = true ∨ (s'.initInfos x).danglingUpward = true) :
    Explores images (· = i) (fun _ => False) s (s'.finish i) := by
  have hentered := h.visited i (by simp)
  rw [initOrder_enter, hgood.unvisited i hi] at hentered
  -- what is new is the image itself or new in the loop
  have hnew : ∀ x, New s (s'.finish i) x → x = i ∨ x ≠ i ∧ New (s.enter i) s' x := by
    intro x hx
    rcases eq_or_ne x i with rfl | hne
    · exact Or.inl rfl
    · refine Or.inr ⟨hne, by simpa using hx.1, ?_⟩
      rw [visited_enter, decide_eq_false hne, hx.2]
      rfl
  have hnewloop : ∀ x, New (s.enter i) s' x → New s (s'.finish i) x := by
    intro x hx
    have hfalse := hx.2
    rw [visited_enter, Bool.or_eq_false_iff] at hfalse
    exact ⟨by simpa using hx.1, hfalse.2⟩
  have hself : New s (s'.finish i) i := ⟨by simpa using hentered.1, hi⟩
  have habove : ∀ y, New (s.enter i) s' y → Above images i y := by
    intro y hy
    obtain ⟨r, hr, hry⟩ := h.above y hy
    exact Relation.ReflTransGen.head hr hry
  constructor
  · intro x hx
    have hne : x ≠ i := by
      rintro rfl
      rw [hi] at hx
      cases hx
    have hkept := h.visited x (by simp [hx])
    rw [initOrder_enter] at hkept
    rw [visited_finish, initOrder_finish, if_neg hne]
    exact hkept
  · exact h.counter.trans (Nat.le_succ _)
  · intro x hx
    rw [initOrder_finish]
    rcases hnew x hx with rfl | ⟨hne, hloop⟩
    · rw [if_pos rfl]
      have hlt := hgood'.order_lt x
      exact ⟨h.counter, by omega⟩
    · rw [if_neg hne]
      exact h.number x hloop
  · intro x hx
    rcases hnew x hx with rfl | ⟨-, hloop⟩
    · exact ⟨x, rfl, Relation.ReflTransGen.refl⟩
    · exact ⟨i, rfl, habove x hloop⟩
  · intro y hy x hlink
    rw [visited_finish, initOrder_finish, initOrder_finish]
    -- a visited image without a number is `i` or was being visited before
    have hopen : (s'.initInfos x).visited = true → (s'.initInfos x).initOrder = 0 → Above images i y →
        ((s.initInfos x).visited = true ∧ (s.initInfos x).initOrder = 0) ∨ Above images x y := by
      intro hx hzero hiy
      rcases eq_or_ne x i with rfl | hne
      · exact Or.inr hiy
      · cases hv : (s.initInfos x).visited with
        | true =>
          have hkept := (h.visited x (by simp [hv])).2
          rw [initOrder_enter, hzero] at hkept
          exact Or.inl ⟨rfl, hkept.symm⟩
        | false =>
          have hnumber := (h.number x ⟨hx, by simp [hne, hv]⟩).2
          omega
    rcases hnew y hy with rfl | ⟨hne, hloop⟩
    · have hx := hlinks x hlink
      refine ⟨hx, ?_⟩
      rcases Nat.eq_zero_or_pos (s'.initInfos x).initOrder with hzero | hpos
      · exact Or.inr (hopen hx hzero Relation.ReflTransGen.refl)
      · have hxne : x ≠ y := by
          rintro rfl
          omega
        rw [if_pos rfl, if_neg hxne]
        exact Or.inl ⟨hpos, hgood'.order_lt x⟩
    · obtain ⟨hx, hcases⟩ := h.nonUpward y hloop x hlink
      refine ⟨hx, ?_⟩
      rw [if_neg hne]
      rcases hcases with ⟨hpos, hlt⟩ | ⟨hv, hzero⟩ | hcycle
      · have hxne : x ≠ i := by
          rintro rfl
          omega
        rw [if_neg hxne]
        exact Or.inl ⟨hpos, hlt⟩
      · have hkept := (h.visited x hv).2
        exact Or.inr (hopen hx (hkept.trans hzero) (habove y hloop))
      · exact Or.inr (Or.inr hcycle)
  · intro y hy x hlink
    rw [visited_finish, danglingUpward_finish]
    rcases hnew y hy with rfl | ⟨-, hloop⟩
    · exact hup x hlink
    · exact h.upward y hloop x hlink
  · intro x hx
    rw [visited_finish, danglingUpward_finish]
    rcases eq_or_ne x i with rfl | hne
    · exact Or.inl hentered.1
    · exact h.dangling_keep x (by simp [hx, hne])
  · intro x hx
    rw [danglingUpward_finish] at hx
    rcases h.dangling_new x hx with hx | hx | ⟨y, hy, hlink⟩
    · rw [danglingUpward_enter, Bool.and_eq_true] at hx
      exact Or.inl hx.2
    · exact Or.inr (Or.inr ⟨i, hself, hx⟩)
    · exact Or.inr (Or.inr ⟨y, hnewloop y hy, hlink⟩)

lemma Good.enter (h : Good s) (i : Nat) : Good (s.enter i) := by
  constructor
  · intro y
    rw [initOrder_enter]
    exact h.order_lt y
  · intro y hy
    rw [visited_enter, Bool.or_eq_false_iff] at hy
    rw [initOrder_enter]
    exact h.unvisited y hy.2
  · intro y hy
    rw [danglingUpward_enter, Bool.and_eq_true, Bool.not_eq_true'] at hy
    rw [visited_enter, hy.1, h.dangling y hy.2]
    rfl
  · exact h.noError

lemma Good.finish (h : Good s) {i : Nat} (hi : (s.initInfos i).visited = true) :
    Good (s.finish i) := by
  constructor
  · intro y
    rw [initOrder_finish]
    have hlt := h.order_lt y
    split_ifs
    · exact Nat.lt_succ_self _
    · exact Nat.lt_succ_of_lt hlt
  · intro y hy
    rw [visited_finish] at hy
    have hne : y ≠ i := by
      rintro rfl
      rw [hi] at hy
      cases hy
    rw [initOrder_finish, if_neg hne]
    exact h.unvisited y hy
  · intro y hy
    rw [danglingUpward_finish] at hy
    rw [visited_finish]
    exact h.dangling y hy
  · exact h.noError

end Explores

/-! ### The recursion -/

section Recursion

variable {images : List BuilderLoadedImage}

def unvisited (images : List BuilderLoadedImage) (s : InitState) : Finset Nat :=
  (Finset.range images.length).filter (fun x => (s.initInfos x).visited = false)

lemma Explores.unvisited_subset {roots marks : Nat → Prop} {s s' : InitState}
    (h : Explores images roots marks s s') : unvisited images s' ⊆ unvisited images s := by
  intro x hx
  rw [unvisited, Finset.mem_filter] at hx ⊢
  refine ⟨hx.1, ?_⟩
  apply Bool.eq_false_iff.mpr
  intro hv
  rw [(h.visited x hv).1] at hx
  exact Bool.noConfusion hx.2

lemma card_unvisited_enter {s : InitState} {i : Nat} (hi : i < images.length)
    (hv : (s.initInfos i).visited = false) :
    (unvisited images (s.enter i)).card < (unvisited images s).card := by
  apply Finset.card_lt_card
  rw [Finset.ssubset_iff_of_subset]
  · refine ⟨i, by simp [unvisited, hi, hv], by simp [unvisited]⟩
  · intro x hx
    simp only [unvisited, Finset.mem_filter, visited_enter, Bool.or_eq_false_iff] at hx ⊢
    exact ⟨hx.1, hx.2.2⟩

lemma findLoadedImage_lt {num x : Nat} (h : findLoadedImage images num = some x) :
    x < images.length := by
  unfold findLoadedImage at h
  rcases Option.or_eq_some_iff.mp h with h | ⟨-, h⟩
  · exact (List.findIdx?_eq_some_iff_findIdx_eq.mp h).1
  · exact (List.findIdx?_eq_some_iff_findIdx_eq.mp h).1

/-- The loop over the dependents, when each visit does what it should. -/
lemma visitDependents_spec {visit : Nat → InitState → Option InitState} {n : Nat}
    (hvisit : ∀ x s, x < images.length → Good s → (unvisited images s).card < n →
      ∃ s', visit x s = some s' ∧ Good s' ∧ (s'.initInfos x).visited = true ∧
        Explores images (· = x) (fun _ => False) s s')
    (deps : List LinkedImage)
    (hdeps : ∀ dep ∈ deps, dep.imageNum ≠ kMissingWeakLinkedImage →
      ∃ x, findLoadedImage images dep.imageNum = some x)
    (s : InitState) (hgood : Good s) (hcard : (unvisited images s).card < n) :
    ∃ s', visitDependents images visit deps s = some s' ∧ Good s' ∧
      Explores images (LinksTo images deps false) (LinksTo images deps true) s s' ∧
      (∀ x, LinksTo images deps false x → (s'.initInfos x).visited = true) ∧
      ∀ x, LinksTo images deps true x →
        (s'.initInfos x).visited = true ∨ (s'.initInfos x).danglingUpward = true := by
  induction deps generalizing s with
  | nil => 
    refine ⟨s, rfl, hgood, Explores.refl, ?_, ?_⟩
    · rintro x ⟨dep, hdep, -⟩
      cases hdep
    · rintro x ⟨dep, hdep, -⟩
      cases hdep
  | cons dep deps ih =>
    have hrest : ∀ dep ∈ deps, dep.imageNum ≠ kMissingWeakLinkedImage →
        ∃ x, findLoadedImage images dep.imageNum = some x := by
      intro dep hdep
      exact hdeps dep (List.mem_cons_of_mem _ hdep)
    have hmono : ∀ up x, LinksTo images deps up x → LinksTo images (dep :: deps) up x := by
      rintro up x ⟨d, hd, hlink⟩
      exact ⟨d, List.mem_cons_of_mem _ hd, hlink⟩
    rw [visitDependents]
    by_cases hmissing : dep.imageNum = kMissingWeakLinkedImage
    · rw [if_pos hmissing]
      have hsame : ∀ up x, LinksTo images (dep :: deps) up x → LinksTo images deps up x := by
        rintro up x ⟨d, hd, hne, hlink⟩
        rw [List.mem_cons] at hd
        rcases hd with rfl | hd
        · exact absurd hmissing hne
        · exact ⟨d, hd, hne, hlink⟩
      obtain ⟨s', hs', hgood', hexp, hlinks, hup⟩ := ih hrest s hgood hcard
      exact ⟨s', hs', hgood', hexp.mono (hmono false) (hmono true),
        fun x hx => hlinks x (hsame false x hx), fun x hx => hup x (hsame true x hx)⟩
    · obtain ⟨x, hx⟩ := hdeps dep List.mem_cons_self hmissing
      -- a link of the list is the first one or one of the others
      have hcases : ∀ up y, LinksTo images (dep :: deps) up y →
          ((dep.kind == .upward) = up ∧ y = x) ∨ LinksTo images deps up y := by
        rintro up y ⟨d, hd, hne, hkind, hfind⟩
        rw [List.mem_cons] at hd
        rcases hd with rfl | hd
        · rw [hx, Option.some.injEq] at hfind
          exact Or.inl ⟨hkind, hfind.symm⟩
        · exact Or.inr ⟨d, hd, hne, hkind, hfind⟩
      have hfirst : ∀ up, (dep.kind == .upward) = up → LinksTo images (dep :: deps) up x := by
        intro up hkind
        exact ⟨dep, List.mem_cons_self, hmissing, hkind, hx⟩
      rw [if_neg hmissing, hx, Option.bind_some]
      by_cases hkind : dep.kind = .upward
      · rw [if_pos hkind]
        have hfirst := hfirst true (by simp [hkind])
        have hmark := @Explores.dangle images (LinksTo images (dep :: deps) false)
          (LinksTo images (dep :: deps) true) s x hfirst
        obtain ⟨s', hs', hgood', hexp, hlinks, hup⟩ := ih hrest (s.dangle x) (hgood.dangle x)
          ((Finset.card_le_card hmark.unvisited_subset).trans_lt hcard)
        have hexp' := hexp.mono (hmono false) (hmono true)
        refine ⟨s', hs', hgood', hmark.trans hexp', ?_, ?_⟩
        · intro y hy
          rcases hcases false y hy with ⟨hfalse, -⟩ | hy
          · simp [hkind] at hfalse
          · exact hlinks y hy
        · intro y hy
          rcases hcases true y hy with ⟨-, rfl⟩ | hy
          · cases hv : (s.initInfos y).visited with
            | true => exact Or.inl (hexp'.visited y (by simp [hv])).1
            | false => exact hexp'.dangling_keep y (by simp [hv])
          · exact hup y hy
      · rw [if_neg hkind]
        have hfirst := hfirst false (by simp [hkind])
        obtain ⟨s₁, hs₁, hgood₁, hv₁, hexp₁⟩ := hvisit x s (findLoadedImage_lt hx) hgood hcard
        have hexp₁' : Explores images (LinksTo images (dep :: deps) false)
            (LinksTo images (dep :: deps) true) s s₁ := by
          apply hexp₁.mono
          · rintro y rfl
            exact hfirst
          · intro y hy
            exact hy.elim
        obtain ⟨s', hs', hgood', hexp, hlinks, hup⟩ := ih hrest s₁ hgood₁
          ((Finset.card_le_card hexp₁.unvisited_subset).trans_lt hcard)
        have hexp' := hexp.mono (hmono false) (hmono true)
        rw [hs₁, Option.bind_some, hgood₁.noError]
        refine ⟨s', hs', hgood', hexp₁'.trans hexp', ?_, ?_⟩
        · intro y hy
          rcases hcases false y hy with ⟨-, rfl⟩ | hy
          · exact (hexp'.visited y hv₁).1
          · exact hlinks y hy
        · intro y hy
          rcases hcases true y hy with ⟨htrue, -⟩ | hy
          · simp [hkind] at htrue
          · exact hup y hy

lemma depthFirst_spec (h : AllLoaded images) (depth i : Nat) (s : InitState)
    (hi : i < images.length) (hgood : Good s) (hdepth : (unvisited images s).card < depth) :
    ∃ s', depthFirstRecurseSetInitInfo images depth i s = some s' ∧ Good s' ∧
      (s'.initInfos i).visited = true ∧ Explores images (· = i) (fun _ => False) s s' := by
  induction depth generalizing i s with
  | zero => omega
  | succ depth ih =>
    rw [depthFirstRecurseSetInitInfo]
    cases hv : (s.initInfos i).visited with
    | true =>
      rw [if_pos rfl]
      exact ⟨s, rfl, hgood, hv, Explores.refl⟩
    | false =>
      have hli : images[i]? = some images[i] := List.getElem?_eq_getElem hi
      have hmem : images[i] ∈ images := List.getElem_mem hi
      have hlt := card_unvisited_enter hi hv
      obtain ⟨s', hs', hgood', hexp, hlinks, hup⟩ := visitDependents_spec (n := depth)
        (fun x s hx hgood hcard => ih x s hx hgood hcard) images[i].dependents
        (h.found images[i] hmem) (s.enter i) (hgood.enter i) (by omega)
      have hnon : ∀ x, LinksTo images images[i].dependents false x ↔ NonUpward images i x := by
        intro x
        simp [NonUpward, hli]
      have hupw : ∀ x, LinksTo images images[i].dependents true x ↔ Upward images i x := by
        intro x
        simp [Upward, hli]
      have hvisited := (hexp.visited i (by simp)).1
      rw [if_neg Bool.false_ne_true, hli, Option.bind_some, h.notBad _ hmem,
        if_neg Bool.false_ne_true, hs', Option.map_some, hgood'.noError, if_neg Bool.false_ne_true]
      refine ⟨s'.finish i, rfl, hgood'.finish hvisited, by simpa using hvisited, ?_⟩
      apply Explores.image hgood hv _ hgood' (fun x hx => hlinks x ((hnon x).mpr hx))
        (fun x hx => hup x ((hupw x).mpr hx))
      exact hexp.mono (fun x hx => (hnon x).mp hx) (fun x hx => (hupw x).mp hx)

/-- What holds when the images before load index `k` have been added. -/
structure Settled (images : List BuilderLoadedImage) (start k : Nat) (s : InitState) : Prop where
  good : Good s
  numbered : ∀ x, (s.initInfos x).visited = true → 0 < (s.initInfos x).initOrder
  nonUpward : ∀ y, (s.initInfos y).visited = true → ∀ x, NonUpward images y x →
    (s.initInfos x).visited = true ∧
      ((s.initInfos x).initOrder < (s.initInfos y).initOrder ∨ Above images x y)
  upward : ∀ y, (s.initInfos y).visited = true → ∀ x, Upward images y x →
    (s.initInfos x).visited = true ∨ (s.initInfos x).danglingUpward = true
  dangling : ∀ x, (s.initInfos x).danglingUpward = true →
    ∃ y, (s.initInfos y).visited = true ∧ Upward images y x
  visited_iff : ∀ x, (s.initInfos x).visited = true ↔ ∃ bound ≤ k, Ascending images start bound x

section Settled

variable {start k : Nat} {s s' : InitState}

lemma Ascending.of_above {bound i x : Nat} (h : Ascending images start bound i)
    (hx : Above images i x) : Ascending images start bound x := by
  induction hx with
  | refl => exact h
  | tail _ hlink ih => exact ih.nonUpward hlink

lemma Upward.lt {i x : Nat} (h : Upward images i x) : x < images.length := by
  obtain ⟨li, -, dep, -, -, -, hfind⟩ := h
  exact findLoadedImage_lt hfind

lemma Ascending.bound_le {bound x : Nat} (h : Ascending images start bound x) :
    bound ≤ images.length := by
  induction h with
  | start => exact Nat.zero_le _
  | nonUpward _ _ ih => exact ih
  | upward _ hlink _ _ => exact hlink.lt

lemma Ascending.reaches {bound x : Nat} (h : Ascending images start bound x) :
    Reaches images start x := by
  induction h with
  | start => exact Relation.ReflTransGen.refl
  | nonUpward _ hlink ih => exact ih.tail (Or.inl hlink)
  | upward _ hlink _ ih => exact ih.tail (Or.inr hlink)

lemma Settled.links (h : Settled images start k s) {roots : Nat → Prop}
    (hexp : Explores images roots (fun _ => False) s s') :
    (∀ x, (s'.initInfos x).visited = true → 0 < (s'.initInfos x).initOrder) ∧
    (∀ y, (s'.initInfos y).visited = true → ∀ x, NonUpward images y x →
      (s'.initInfos x).visited = true ∧
        ((s'.initInfos x).initOrder < (s'.initInfos y).initOrder ∨ Above images x y)) ∧
    (∀ y, (s'.initInfos y).visited = true → ∀ x, Upward images y x →
      (s'.initInfos x).visited = true ∨ (s'.initInfos x).danglingUpward = true) ∧
    ∀ x, (s'.initInfos x).danglingUpward = true →
      ∃ y, (s'.initInfos y).visited = true ∧ Upward images y x := by
  refine ⟨?_, ?_, ?_, ?_⟩
  · intro x hx
    cases hv : (s.initInfos x).visited with
    | true =>
      rw [(hexp.visited x hv).2]
      exact h.numbered x hv
    | false => exact (hexp.number x ⟨hx, hv⟩).2
  · intro y hy x hlink
    cases hv : (s.initInfos y).visited with
    | true =>
      obtain ⟨hx, hcases⟩ := h.nonUpward y hv x hlink
      obtain ⟨hx', ho⟩ := hexp.visited x hx
      rw [ho, (hexp.visited y hv).2]
      exact ⟨hx', hcases⟩
    | false =>
      obtain ⟨hx, ⟨-, hlt⟩ | ⟨hopen, hzero⟩ | habove⟩ := hexp.nonUpward y ⟨hy, hv⟩ x hlink
      · exact ⟨hx, Or.inl hlt⟩
      · have := h.numbered x hopen
        omega
      · exact ⟨hx, Or.inr habove⟩
  · intro y hy x hlink
    cases hv : (s.initInfos y).visited with
    | true =>
      rcases h.upward y hv x hlink with hx | hx
      · exact Or.inl (hexp.visited x hx).1
      · exact hexp.dangling_keep x hx
    | false => exact hexp.upward y ⟨hy, hv⟩ x hlink
  · intro x hx
    rcases hexp.dangling_new x hx with hx | hx | ⟨y, hy, hlink⟩
    · obtain ⟨y, hy, hlink⟩ := h.dangling x hx
      exact ⟨y, (hexp.visited y hy).1, hlink⟩
    · exact hx.elim
    · exact ⟨y, hy.1, hlink⟩

/-- One more image of the pass. -/
lemma Settled.next (h : Settled images start k s) (hgood : Good s')
    (hexp : Explores images (fun x => x = k ∧ (s.initInfos k).danglingUpward = true)
      (fun _ => False) s s')
    (hk : (s.initInfos k).danglingUpward = true → (s'.initInfos k).visited = true) :
    Settled images start (k + 1) s' := by
  obtain ⟨hnumbered, hnon, hup, hdangling⟩ := h.links hexp
  refine ⟨hgood, hnumbered, hnon, hup, hdangling, ?_⟩
  intro x
  constructor
  · intro hx
    cases hv : (s.initInfos x).visited with
    | true =>
      obtain ⟨bound, hbound, hasc⟩ := (h.visited_iff x).mp hv
      exact ⟨bound, by omega, hasc⟩
    | false =>
      obtain ⟨r, ⟨rfl, hmark⟩, habove⟩ := hexp.above x ⟨hx, hv⟩
      obtain ⟨y, hy, hlink⟩ := h.dangling r hmark
      obtain ⟨bound, hbound, hasc⟩ := (h.visited_iff y).mp hy
      exact ⟨r + 1, le_rfl, (hasc.upward hlink hbound).of_above habove⟩
  · rintro ⟨bound, hbound, hasc⟩
    have hold : ∀ b x, b ≤ k → Ascending images start b x → (s'.initInfos x).visited = true := by
      intro b x hb hb'
      exact (hexp.visited x ((h.visited_iff x).mpr ⟨b, hb, hb'⟩)).1
    induction hasc with
    | start => exact hold 0 start (Nat.zero_le _) .start
    | nonUpward _ hlink ih => exact (hnon _ (ih hbound) _ hlink).1
    | @upward b i x hasc hlink hle ih =>
      rcases Nat.lt_or_eq_of_le (Nat.le_of_succ_le_succ hbound) with hlt | rfl
      · exact hold (x + 1) x hlt (hasc.upward hlink hle)
      · have hi := (h.visited_iff i).mpr ⟨b, hle, hasc⟩
        rcases h.upward i hi x hlink with hx | hx
        · exact (hexp.visited x hx).1
        · exact hk hx

/-- The first recursion. -/
lemma Settled.init (hgood : Good s')
    (hexp : Explores images (· = start) (fun _ => False) ⟨fun _ => ⟨0, false, false⟩, 1, false⟩ s')
    (hstart : (s'.initInfos start).visited = true) : Settled images start 0 s' := by
  have hnew : ∀ x, (s'.initInfos x).visited = true →
      New ⟨fun _ => ⟨0, false, false⟩, 1, false⟩ s' x := fun x hx => ⟨hx, rfl⟩
  have hnon : ∀ y, (s'.initInfos y).visited = true → ∀ x, NonUpward images y x →
      (s'.initInfos x).visited = true ∧
        ((s'.initInfos x).initOrder < (s'.initInfos y).initOrder ∨ Above images x y) := by
    intro y hy x hlink
    obtain ⟨hx, ⟨-, hlt⟩ | ⟨hopen, -⟩ | habove⟩ := hexp.nonUpward y (hnew y hy) x hlink
    · exact ⟨hx, Or.inl hlt⟩
    · cases hopen
    · exact ⟨hx, Or.inr habove⟩
  constructor
  · exact hgood
  · intro x hx
    exact (hexp.number x (hnew x hx)).2
  · exact hnon
  · intro y hy x hlink
    exact hexp.upward y (hnew y hy) x hlink
  · intro x hx
    rcases hexp.dangling_new x hx with hx | hx | ⟨y, hy, hlink⟩
    · cases hx
    · exact hx.elim
    · exact ⟨y, hy.1, hlink⟩
  · intro x
    constructor
    · intro hx
      obtain ⟨r, rfl, habove⟩ := hexp.above x (hnew x hx)
      exact ⟨0, le_rfl, Ascending.start.of_above habove⟩
    · rintro ⟨bound, hbound, hasc⟩
      induction hasc with
      | start => exact hstart
      | nonUpward _ hlink ih => exact (hnon _ (ih hbound) _ hlink).1
      | upward _ _ _ _ => omega

lemma card_unvisited_le (images : List BuilderLoadedImage) (s : InitState) :
    (unvisited images s).card < images.length + 1 := by
  have hle := Finset.card_filter_le (Finset.range images.length)
    (fun x => (s.initInfos x).visited = false)
  rw [Finset.card_range] at hle
  exact Nat.lt_succ_of_le hle

lemma forceAdd_spec (h : AllLoaded images) (hk : k < images.length)
    (hsettled : Settled images start k s) :
    ∃ s', forceAdd images (images.length + 1) s k = some s' ∧ Settled images start (k + 1) s' := by
  unfold forceAdd
  split_ifs with hmark
  · obtain ⟨s', hs', hgood, hv, hexp⟩ := depthFirst_spec h (images.length + 1) k s hk hsettled.good
      (card_unvisited_le images s)
    refine ⟨s', hs', hsettled.next hgood (hexp.mono ?_ (fun x hx => hx)) (fun _ => hv)⟩
    rintro x rfl
    rw [Bool.and_eq_true] at hmark
    exact ⟨rfl, hmark.2⟩
  · refine ⟨s, rfl, hsettled.next hsettled.good Explores.refl ?_⟩
    intro hdangling
    have hfalse := hsettled.good.dangling k hdangling
    rw [hfalse, hdangling] at hmark
    exact absurd rfl hmark

lemma forceAddDangling_spec (h : AllLoaded images) (hs : Settled images start 0 s) :
    ∃ s', forceAddDangling images (images.length + 1) s = some s' ∧
      Settled images start images.length s' := by
  have hrange : ∀ k, k ≤ images.length → ∃ s', (List.range k).foldlM
      (forceAdd images (images.length + 1)) s = some s' ∧ Settled images start k s' := by
    intro k hk
    induction k with
    | zero => exact ⟨s, rfl, hs⟩
    | succ k ih =>
      obtain ⟨s₁, hs₁, hsettled⟩ := ih (by omega)
      obtain ⟨s₂, hs₂, hsettled₂⟩ := forceAdd_spec h hk hsettled
      refine ⟨s₂, ?_, hsettled₂⟩
      rw [List.range_succ, List.foldlM_append, hs₁]
      change (forceAdd images (images.length + 1) s₁ k).bind some = some s₂
      rw [hs₂]
      rfl
  exact hrange images.length le_rfl

/-- On a path without a cycle the numbers go down. -/
lemma Settled.initOrder_lt (h : Settled images start k s)
    (hacyclic : ∀ i, Reaches images start i → ¬Relation.TransGen (NonUpward images) i i) {i j : Nat}
    (hi : (s.initInfos i).visited = true) (hpath : Relation.TransGen (NonUpward images) i j) :
    (s.initInfos j).visited = true ∧ (s.initInfos j).initOrder < (s.initInfos i).initOrder := by
  have hstep : ∀ y x, (s.initInfos y).visited = true → NonUpward images y x →
      (s.initInfos x).visited = true ∧ (s.initInfos x).initOrder < (s.initInfos y).initOrder := by
    intro y x hy hlink
    obtain ⟨hx, hlt | habove⟩ := h.nonUpward y hy x hlink
    · exact ⟨hx, hlt⟩
    · obtain ⟨bound, -, hasc⟩ := (h.visited_iff y).mp hy
      exact absurd (Relation.TransGen.head' hlink habove) (hacyclic y hasc.reaches)
  induction hpath with
  | single hlink => exact hstep _ _ hi hlink
  | tail _ hlink ih =>
    obtain ⟨hx, hlt⟩ := hstep _ _ ih.1 hlink
    exact ⟨hx, hlt.trans ih.2⟩

end Settled

end Recursion

/-! ### The recorded list -/

section Recorded

variable {images : List BuilderLoadedImage} {start : Nat} {s : InitState}

lemma mem_sortInits {i : Nat} : i ∈ sortInits images s ↔
    (s.initInfos i).visited = true ∧ hasInits images i = true := by
  rw [sortInits, (bubbleSort_perm _).mem_iff, List.mem_filter, List.mem_range, Bool.and_eq_true]
  constructor
  · exact And.right
  · intro h
    obtain ⟨li, hli, -⟩ := (Option.any_eq_true _ _).mp h.2
    exact ⟨(List.getElem?_eq_some_iff.mp hli).1, h⟩

lemma Settled.sortInits (h : Settled images start images.length s) :
    (sortInits images s).Nodup ∧
      ((∀ i, Reaches images start i → ¬Relation.TransGen (NonUpward images) i i) →
        (sortInits images s).Pairwise fun i j => ¬Relation.TransGen (NonUpward images) i j) := by
  constructor
  · exact (bubbleSort_perm _).nodup_iff.mpr (List.nodup_range.filter _)
  · intro hacyclic
    have hsorted := @bubbleSort_sorted _ _ _ (fun i => (s.initInfos i).initOrder)
      ((List.range images.length).filter fun i =>
        (s.initInfos i).visited && images[i]?.any (·.hasInits))
    apply List.Pairwise.imp_of_mem _ hsorted
    intro i j hi _ hle hpath
    have hlt := (h.initOrder_lt hacyclic (mem_sortInits.mp hi).1 hpath).2
    omega

end Recorded

/-- The list is recorded; it has every image with initializers that can be reached exactly when
each of them is reached by a path with ascending upward links. -/
theorem computeInitOrder_inOrder_iff (images : List BuilderLoadedImage) (h : AllLoaded images)
    (start : Nat) (hstart : start < images.length) :
    ∃ order, computeInitOrder images start = some (.inits order) ∧
      (InitsInOrder images start order ↔ ∀ i, Reaches images start i → hasInits images i = true →
        ∃ bound, Ascending images start bound i) := by
  have hgood : Good ⟨fun _ => ⟨0, false, false⟩, 1, false⟩ :=
    ⟨fun _ => Nat.one_pos, fun _ _ => rfl, fun _ hx => Bool.noConfusion hx, rfl⟩
  obtain ⟨s₁, hs₁, hgood₁, hv₁, hexp₁⟩ := depthFirst_spec h (images.length + 1) start _ hstart hgood
    (card_unvisited_le images _)
  obtain ⟨s₂, hs₂, hsettled⟩ := forceAddDangling_spec h (Settled.init hgood₁ hexp₁ hv₁)
  refine ⟨sortInits images s₂, ?_, ?_⟩
  · unfold computeInitOrder
    dsimp only
    rw [hs₁, Option.bind_some, hgood₁.noError, if_neg Bool.false_ne_true, hs₂, Option.map_some,
      hsettled.good.noError, if_neg Bool.false_ne_true]
  obtain ⟨hnodup, hfirst⟩ := hsettled.sortInits
  constructor
  · intro horder i hreach hinits
    have hmem := mem_sortInits.mp ((horder.mem_iff i).mpr ⟨hreach, hinits⟩)
    obtain ⟨bound, -, hasc⟩ := (hsettled.visited_iff i).mp hmem.1
    exact ⟨bound, hasc⟩
  · intro hall
    refine ⟨hnodup, ?_, hfirst⟩
    intro i
    rw [mem_sortInits]
    constructor
    · rintro ⟨hv, hinits⟩
      obtain ⟨bound, -, hasc⟩ := (hsettled.visited_iff i).mp hv
      exact ⟨hasc.reaches, hinits⟩
    · rintro ⟨hreach, hinits⟩
      obtain ⟨bound, hasc⟩ := hall i hreach hinits
      exact ⟨(hsettled.visited_iff i).mpr ⟨bound, hasc.bound_le, hasc⟩, hinits⟩

def imageWithUpward (imageNum upward : Nat) : BuilderLoadedImage :=
  ⟨[⟨.upward, upward⟩], imageNum, true, false, 0⟩

def threeImages (third : Nat) : List BuilderLoadedImage :=
  [imageWithUpward 10 12, imageWithUpward 11 kMissingWeakLinkedImage, imageWithUpward 12 third]

lemma allLoaded_threeImages {third : Nat} (h : third ∈ [10, 11, 12]) :
    AllLoaded (threeImages third) := by
  constructor
  · intro li hli
    simp only [threeImages, List.mem_cons, List.not_mem_nil, or_false] at hli
    rcases hli with rfl | rfl | rfl <;> rfl
  · intro li hli dep hdep hne
    simp only [List.mem_cons, List.not_mem_nil, or_false] at h
    simp only [threeImages, List.mem_cons, List.not_mem_nil, or_false] at hli
    rcases hli with rfl | rfl | rfl <;> rw [List.mem_singleton.mp hdep] at hne ⊢
    · exact ⟨2, by rcases h with rfl | rfl | rfl <;> rfl⟩
    · exact absurd rfl hne
    · rcases h with rfl | rfl | rfl
      · exact ⟨0, rfl⟩
      · exact ⟨1, rfl⟩
      · exact ⟨2, rfl⟩

theorem computeInitOrder_inOrder_iff_threeImages :
    ∃ order, computeInitOrder (threeImages 10) 0 = some (.inits order) ∧
      (InitsInOrder (threeImages 10) 0 order ↔
        ∀ i, Reaches (threeImages 10) 0 i → hasInits (threeImages 10) i = true →
          ∃ bound, Ascending (threeImages 10) 0 bound i) :=
  computeInitOrder_inOrder_iff (threeImages 10) (allLoaded_threeImages (by simp)) 0 (by decide)

/-- The second image is found too late for the pass. -/
theorem computeInitOrder_misses_late_image :
    AllLoaded (threeImages 11) ∧ computeInitOrder (threeImages 11) 0 = some (.inits [0, 2]) ∧
      ¬InitsInOrder (threeImages 11) 0 [0, 2] := by
  refine ⟨allLoaded_threeImages (by simp), by decide +kernel, ?_⟩
  intro horder
  have h02 : Upward (threeImages 11) 0 2 := ⟨_, rfl, _, List.mem_singleton.mpr rfl, by decide, rfl, rfl⟩
  have h21 : Upward (threeImages 11) 2 1 := ⟨_, rfl, _, List.mem_singleton.mpr rfl, by decide, rfl, rfl⟩
  have hreach : Reaches (threeImages 11) 0 1 := by
    apply Relation.ReflTransGen.tail (b := 2)
    · exact Relation.ReflTransGen.single (Or.inr h02)
    · exact Or.inr h21
  have hmem := (horder.mem_iff 1).mpr ⟨hreach, rfl⟩
  simp at hmem

end Dyld.Closure.InitOrder
