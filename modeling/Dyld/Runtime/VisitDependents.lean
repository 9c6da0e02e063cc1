import Dyld.Runtime.GarbageCollection

/-!
# Visiting the dependents of a loaded image

`AllImages::visitDependentsTopDown` calls a handler on an image and on what it depends on, level by
level. The visited images are kept as their own numbers, so an image that is named by the number of
the dyld cache image it overrides is passed to the handler each time. A handler that stops the
visit does not stop the images that are still to be recursed into on the levels above.
-/

namespace Dyld.AllImages

open Dyld.Closure.InitOrder (LinkKind kMissingWeakLinkedImage)

def findImageNum (loadedImages : List LoadedImage) (imageNum : Nat) : Option LoadedImage :=
  loadedImages.find? (fun li => li.image.representsImageNum imageNum)

def Image.nonUpwardNums (image : Image) : List Nat :=
  (image.dependents.filter fun d =>
    !(d.2 = kMissingWeakLinkedImage && d.1 = .weak) && d.1 ≠ .upward).map (·.2)

/-- The images that were passed to the handler, and the variables of
`breadthFirstRecurseDependents`. -/
structure VisitState where
  calls : List LoadedImage
  visited : List Nat
  dependentsToRecurse : List LoadedImage
  depStop : Bool
  stopped : Bool
  asserted : Bool

structure VisitRun where
  state : VisitState
  log : List (VisitState × Nat)

section Visit

variable (loadedImages : List LoadedImage) (handler : List LoadedImage → LoadedImage → Bool)

/-- The callback for one dependent that is not linked upward. What the handler sets `stop` to can
depend on the calls before. Arrays that are full assert. -/
def visitDependent (s : VisitState) (depImageNum : Nat) : VisitState :=
  if depImageNum ∈ s.visited then s
  else
    match findImageNum loadedImages depImageNum with
    | none => s
    | some depLi =>
      let depStop := handler s.calls depLi
      let called := { s with calls := s.calls ++ [depLi], depStop }
      if depImageNum ≠ depLi.image.imageNum ∧ depLi.image.imageNum ∈ s.visited then called
      else if loadedImages.length ≤ s.visited.length then { called with asserted := true }
      else
        let marked := { called with visited := s.visited ++ [depLi.image.imageNum] }
        if depStop then { marked with stopped := true }
        else if 256 ≤ s.dependentsToRecurse.length then { marked with asserted := true }
        else { marked with dependentsToRecurse := s.dependentsToRecurse ++ [depLi] }

def VisitRun.look (r : VisitRun) (depImageNum : Nat) : VisitRun :=
  ⟨visitDependent loadedImages handler r.state depImageNum, r.log ++ [(r.state, depImageNum)]⟩

/-- The start of a level. -/
def VisitRun.enter (r : VisitRun) : VisitRun :=
  { r with state := { r.state with dependentsToRecurse := [], depStop := false } }

def visitDependents : List Nat → VisitRun → VisitRun
  | [], r => r
  | depImageNum :: nums, r =>
    let r := r.look loadedImages handler depImageNum
    if r.state.depStop || r.state.asserted then r else visitDependents nums r

/-- A link that is not upward, with overrides followed. -/
def VisitsTo (a b : LoadedImage) : Prop :=
  ∃ num ∈ a.image.nonUpwardNums, findImageNum loadedImages num = some b

def NeverStops (calls : List LoadedImage) : Prop :=
  ∀ pre li post, calls = pre ++ li :: post → handler pre li = false

/-- The images that are reached are linked to by their own numbers, each of them links to at most 256, and
the handler stops the visit only at the start and at what the start links to. -/
structure OrderlyVisit (start : LoadedImage) : Prop where
  ownNumbers : ∀ li num dep, Relation.ReflTransGen (VisitsTo loadedImages) start li →
    num ∈ li.image.nonUpwardNums → findImageNum loadedImages num = some dep → dep.image.imageNum = num
  narrow : ∀ li, Relation.ReflTransGen (VisitsTo loadedImages) start li →
    (li.image.nonUpwardNums.filterMap (findImageNum loadedImages)).dedup.length ≤ 256
  stopsEarly : ∀ calls li, Relation.ReflTransGen (VisitsTo loadedImages) start li →
    handler calls li = true → li = start ∨ VisitsTo loadedImages start li

end Visit

/-! ### Single steps -/

section Steps

variable {loadedImages : List LoadedImage} {handler : List LoadedImage → LoadedImage → Bool}
  {start : LoadedImage}

lemma mem_of_findImageNum {num : Nat} {li : LoadedImage}
    (h : findImageNum loadedImages num = some li) : li ∈ loadedImages :=
  List.mem_of_find?_eq_some h

lemma NeverStops.of_initial {calls calls' : List LoadedImage} (h : NeverStops handler calls')
    (hinitial : calls <+: calls') : NeverStops handler calls := by
  obtain ⟨more, rfl⟩ := hinitial
  intro pre li post hcalls
  apply h pre li (post ++ more)
  rw [hcalls, List.append_assoc, List.cons_append]

lemma not_neverStops {calls : List LoadedImage} {li : LoadedImage} (h : handler calls li = true) :
    ¬NeverStops handler (calls ++ [li]) := by
  intro hnever
  rw [hnever calls li [] rfl] at h
  cases h

lemma NeverStops.append_singleton {calls : List LoadedImage} {li : LoadedImage} (h : NeverStops handler calls)
    (hli : handler calls li = false) : NeverStops handler (calls ++ [li]) := by
  intro pre x post hcalls
  rcases List.eq_nil_or_concat post with rfl | ⟨post', last, rfl⟩
  · obtain ⟨rfl, hlast⟩ := List.append_inj' hcalls rfl
    cases hlast
    exact hli
  · rw [List.concat_eq_append, ← List.cons_append, ← List.append_assoc] at hcalls
    exact h pre x post' (List.append_inj' hcalls rfl).1

/-- What holds of the variables at any time. -/
structure VisitState.Sound (loadedImages : List LoadedImage)
    (handler : List LoadedImage → LoadedImage → Bool) (start : LoadedImage) (s : VisitState) : Prop where
  loaded : ∀ li ∈ s.calls, li ∈ loadedImages
  reachable : ∀ li ∈ s.calls, Relation.ReflTransGen (VisitsTo loadedImages) start li
  visited : ∀ num ∈ s.visited, ∃ li ∈ s.calls, li.image.imageNum = num
  nodup : s.visited.Nodup
  recurse : ∀ li ∈ s.dependentsToRecurse, li ∈ s.calls
  depStop : s.depStop = true → ¬NeverStops handler s.calls
  stopped : s.stopped = true → ¬NeverStops handler s.calls

lemma visitDependent_skip {s : VisitState} {num : Nat}
    (h : num ∈ s.visited ∨ findImageNum loadedImages num = none) :
    visitDependent loadedImages handler s num = s := by
  unfold visitDependent
  by_cases hnum : num ∈ s.visited
  · rw [if_pos hnum]
  · rw [if_neg hnum, h.resolve_left hnum]

namespace VisitState.Sound

variable {s : VisitState}

lemma visited_subset (h : s.Sound loadedImages handler start) :
    s.visited ⊆ loadedImages.map (·.image.imageNum) := by
  intro num hnum
  obtain ⟨li, hli, rfl⟩ := h.visited num hnum
  exact List.mem_map_of_mem (h.loaded li hli)

/-- The array of the visited numbers has room for one more image. -/
lemma length_visited_lt (h : s.Sound loadedImages handler start) {li : LoadedImage}
    (hli : li ∈ loadedImages) (hnum : li.image.imageNum ∉ s.visited) :
    s.visited.length < loadedImages.length := by
  have hsubset : li.image.imageNum :: s.visited ⊆ loadedImages.map (·.image.imageNum) :=
    List.cons_subset.mpr ⟨List.mem_map_of_mem hli, h.visited_subset⟩
  have hle := (List.subperm_of_subset (List.nodup_cons.mpr ⟨hnum, h.nodup⟩) hsubset).length_le
  rwa [List.length_map] at hle

lemma call_eq (h : s.Sound loadedImages handler start) {num : Nat} {li : LoadedImage}
    (hnum : num ∉ s.visited) (hfind : findImageNum loadedImages num = some li) :
    visitDependent loadedImages handler s num =
      let called := { s with calls := s.calls ++ [li], depStop := handler s.calls li }
      let marked := { called with visited := s.visited ++ [li.image.imageNum] }
      if li.image.imageNum ∈ s.visited then called
      else if handler s.calls li then { marked with stopped := true }
      else if 256 ≤ s.dependentsToRecurse.length then { marked with asserted := true }
      else { marked with dependentsToRecurse := s.dependentsToRecurse ++ [li] } := by
  unfold visitDependent
  rw [if_neg hnum, hfind]
  dsimp only
  by_cases hown : li.image.imageNum ∈ s.visited
  · have hne : num ≠ li.image.imageNum := by
      rintro rfl
      exact hnum hown
    rw [if_pos ⟨hne, hown⟩, if_pos hown]
  · rw [if_neg (fun h => hown h.2), if_neg (h.length_visited_lt (mem_of_findImageNum hfind) hown).not_ge, if_neg hown]

end VisitState.Sound

lemma calls_visitDependent {s : VisitState} {num : Nat} {li : LoadedImage} (hnum : num ∉ s.visited)
    (hfind : findImageNum loadedImages num = some li) :
    (visitDependent loadedImages handler s num).calls = s.calls ++ [li] := by
  unfold visitDependent
  rw [if_neg hnum, hfind]
  dsimp only
  split_ifs <;> rfl

lemma calls_le_visitDependent (s : VisitState) (num : Nat) :
    s.calls <+: (visitDependent loadedImages handler s num).calls := by
  by_cases hskip : num ∈ s.visited ∨ findImageNum loadedImages num = none
  · rw [visitDependent_skip hskip]
  · rw [not_or] at hskip
    obtain ⟨li, hfind⟩ := Option.ne_none_iff_exists'.mp hskip.2
    rw [calls_visitDependent hskip.1 hfind]
    exact List.prefix_append _ _

lemma visited_le_visitDependent (s : VisitState) (num : Nat) :
    s.visited <+: (visitDependent loadedImages handler s num).visited := by
  unfold visitDependent
  split
  · exact List.prefix_rfl
  · split
    · exact List.prefix_rfl
    · dsimp only
      split_ifs
      · exact List.prefix_rfl
      · exact List.prefix_rfl
      all_goals exact List.prefix_append _ _

lemma visitDependent_asserted {s : VisitState} {num : Nat} (h : s.asserted = true) :
    (visitDependent loadedImages handler s num).asserted = true := by
  unfold visitDependent
  split
  · exact h
  · split
    · exact h
    · dsimp only
      split_ifs <;> first | exact h | rfl

lemma VisitState.Sound.visitDependent {s : VisitState} (h : s.Sound loadedImages handler start)
    {y : LoadedImage} {num : Nat} (hy : y ∈ s.calls) (hnum : num ∈ y.image.nonUpwardNums) :
    (visitDependent loadedImages handler s num).Sound loadedImages handler start := by
  by_cases hskip : num ∈ s.visited ∨ findImageNum loadedImages num = none
  · rw [visitDependent_skip hskip]
    exact h
  rw [not_or] at hskip
  obtain ⟨li, hfind⟩ := Option.ne_none_iff_exists'.mp hskip.2
  have hloaded : ∀ x ∈ s.calls ++ [li], x ∈ loadedImages := by
    intro x hx
    rw [List.mem_append, List.mem_singleton] at hx
    rcases hx with hx | rfl
    · exact h.loaded x hx
    · exact mem_of_findImageNum hfind
  have hreach : ∀ x ∈ s.calls ++ [li], Relation.ReflTransGen (VisitsTo loadedImages) start x := by
    intro x hx
    rw [List.mem_append, List.mem_singleton] at hx
    rcases hx with hx | rfl
    · exact h.reachable x hx
    · exact (h.reachable y hy).tail ⟨num, hnum, hfind⟩
  have hvisited : ∀ n ∈ s.visited, ∃ x ∈ s.calls ++ [li], x.image.imageNum = n := by
    intro n hn
    obtain ⟨x, hx, hxn⟩ := h.visited n hn
    exact ⟨x, List.mem_append_left _ hx, hxn⟩
  have hmarked : ∀ n ∈ s.visited ++ [li.image.imageNum], ∃ x ∈ s.calls ++ [li], x.image.imageNum = n := by
    intro n hn
    rw [List.mem_append, List.mem_singleton] at hn
    rcases hn with hn | rfl
    · exact hvisited n hn
    · exact ⟨li, List.mem_append_right _ (List.mem_singleton_self li), rfl⟩
  have hrecurse : ∀ x ∈ s.dependentsToRecurse, x ∈ s.calls ++ [li] := by
    intro x hx
    exact List.mem_append_left _ (h.recurse x hx)
  have hstop : handler s.calls li = true → ¬NeverStops handler (s.calls ++ [li]) := not_neverStops
  have hstopped : s.stopped = true → ¬NeverStops handler (s.calls ++ [li]) := by
    intro hs hnever
    exact h.stopped hs (hnever.of_initial (List.prefix_append _ _))
  rw [h.call_eq hskip.1 hfind]
  dsimp only
  by_cases hown : li.image.imageNum ∈ s.visited
  · rw [if_pos hown]
    exact ⟨hloaded, hreach, hvisited, h.nodup, hrecurse, hstop, hstopped⟩
  have hnodup : (s.visited ++ [li.image.imageNum]).Nodup :=
    List.nodup_append.mpr ⟨h.nodup, List.nodup_singleton _, by
      intro a ha b hb hab
      rw [List.mem_singleton.mp hb] at hab
      exact hown (hab ▸ ha)⟩
  rw [if_neg hown]
  by_cases hhandler : handler s.calls li = true
  · rw [if_pos hhandler]
    exact ⟨hloaded, hreach, hmarked, hnodup, hrecurse, hstop, fun _ => hstop hhandler⟩
  rw [if_neg hhandler]
  by_cases hfull : 256 ≤ s.dependentsToRecurse.length
  · rw [if_pos hfull]
    exact ⟨hloaded, hreach, hmarked, hnodup, hrecurse, hstop, hstopped⟩
  · rw [if_neg hfull]
    apply VisitState.Sound.mk hloaded hreach hmarked hnodup _ hstop hstopped
    intro x hx
    rw [List.mem_append, List.mem_singleton] at hx
    rcases hx with hx | rfl
    · exact hrecurse x hx
    · exact List.mem_append_right _ (List.mem_singleton_self x)

end Steps

/-! ### Runs -/

section Runs

variable {loadedImages : List LoadedImage} {handler : List LoadedImage → LoadedImage → Bool}
  {start : LoadedImage}

variable (loadedImages handler) in
/-- The start of a level, or a look at a dependent of the image whose level it is. -/
inductive VisitStep : VisitRun → VisitRun → Prop
  | enter (r : VisitRun) : VisitStep r r.enter
  | look {r : VisitRun} {y : LoadedImage} {num : Nat} : y ∈ r.state.calls →
      num ∈ y.image.nonUpwardNums → (∀ li ∈ r.state.dependentsToRecurse, VisitsTo loadedImages y li) →
        r.state.asserted = false → VisitStep r (r.look loadedImages handler num)

variable (loadedImages handler) in
abbrev VisitSteps : VisitRun → VisitRun → Prop :=
  Relation.ReflTransGen (VisitStep loadedImages handler)

/-- What is only added to. -/
structure VisitRun.Extends (r r' : VisitRun) : Prop where
  calls : r.state.calls <+: r'.state.calls
  visited : r.state.visited <+: r'.state.visited
  log : r.log <+: r'.log
  asserted : r.state.asserted = true → r'.state.asserted = true

lemma VisitStep.extends {r r' : VisitRun} (h : VisitStep loadedImages handler r r') : r.Extends r' := by
  cases h with
  | enter => exact ⟨List.prefix_rfl, List.prefix_rfl, List.prefix_rfl, id⟩
  | look _ _ _ _ =>
    exact ⟨calls_le_visitDependent _ _, visited_le_visitDependent _ _, List.prefix_append _ _,
      visitDependent_asserted⟩

lemma VisitSteps.extends {r r' : VisitRun} (h : VisitSteps loadedImages handler r r') :
    r.Extends r' := by
  induction h with
  | refl => exact ⟨List.prefix_rfl, List.prefix_rfl, List.prefix_rfl, id⟩
  | tail _ hstep ih =>
    have hlast := hstep.extends
    exact ⟨ih.calls.trans hlast.calls, ih.visited.trans hlast.visited, ih.log.trans hlast.log,
      fun h => hlast.asserted (ih.asserted h)⟩

structure VisitRun.Sound (loadedImages : List LoadedImage)
    (handler : List LoadedImage → LoadedImage → Bool) (start : LoadedImage) (r : VisitRun) : Prop where
  state : r.state.Sound loadedImages handler start
  logged : ∀ s num, (s, num) ∈ r.log → s.Sound loadedImages handler start ∧ s.asserted = false ∧
    (visitDependent loadedImages handler s num).calls <+: r.state.calls ∧
    ((visitDependent loadedImages handler s num).asserted = true → r.state.asserted = true)
  linked : ∀ s num, (s, num) ∈ r.log → ∃ y ∈ r.state.calls, num ∈ y.image.nonUpwardNums
  called : ∀ pre li post, r.state.calls = pre ++ li :: post → pre = [] ∧ li = start ∨
    ∃ s num, (s, num) ∈ r.log ∧ s.calls = pre ∧ num ∉ s.visited ∧
      findImageNum loadedImages num = some li
  asserted : r.state.asserted = true → ∃ s num, (s, num) ∈ r.log ∧
    (visitDependent loadedImages handler s num).asserted = true

lemma VisitStep.sound {r r' : VisitRun} (h : VisitStep loadedImages handler r r')
    (hr : r.Sound loadedImages handler start) : r'.Sound loadedImages handler start := by
  cases h with
  | enter =>
    have hs := hr.state
    refine ⟨⟨hs.loaded, hs.reachable, hs.visited, hs.nodup, ?_, ?_, hs.stopped⟩, hr.logged, hr.linked,
      hr.called, hr.asserted⟩
    · intro li hli
      cases hli
    · intro hstop
      cases hstop
  | @look y num hy hnum hkept hasserted =>
    have hextends : r.Extends (r.look loadedImages handler num) :=
      (VisitStep.look hy hnum hkept hasserted).extends
    have hlast : (r.state, num) ∈ (r.look loadedImages handler num).log :=
      List.mem_append_right _ (List.mem_singleton_self _)
    constructor
    · exact hr.state.visitDependent hy hnum
    · intro s n hlog
      rcases List.mem_append.mp hlog with hold | hnew
      · have hlogged := hr.logged s n hold
        exact ⟨hlogged.1, hlogged.2.1, hlogged.2.2.1.trans hextends.calls,
          fun ha => hextends.asserted (hlogged.2.2.2 ha)⟩
      · cases List.mem_singleton.mp hnew
        exact ⟨hr.state, hasserted, List.prefix_rfl, id⟩
    · intro s n hlog
      rcases List.mem_append.mp hlog with hold | hnew
      · obtain ⟨x, hx, hxn⟩ := hr.linked s n hold
        exact ⟨x, hextends.calls.subset hx, hxn⟩
      · cases List.mem_singleton.mp hnew
        exact ⟨y, hextends.calls.subset hy, hnum⟩
    · intro pre li post hcalls
      have hold : ∀ post', r.state.calls = pre ++ li :: post' → pre = [] ∧ li = start ∨
          ∃ s n, (s, n) ∈ (r.look loadedImages handler num).log ∧ s.calls = pre ∧ n ∉ s.visited ∧
            findImageNum loadedImages n = some li := by
        intro post' hpost
        apply (hr.called pre li post' hpost).imp_right
        rintro ⟨s, n, hlog, hrest⟩
        exact ⟨s, n, hextends.log.subset hlog, hrest⟩
      change (visitDependent loadedImages handler r.state num).calls = _ at hcalls
      by_cases hskip : num ∈ r.state.visited ∨ findImageNum loadedImages num = none
      · rw [visitDependent_skip hskip] at hcalls
        exact hold post hcalls
      rw [not_or] at hskip
      obtain ⟨depLi, hfind⟩ := Option.ne_none_iff_exists'.mp hskip.2
      rw [calls_visitDependent hskip.1 hfind] at hcalls
      -- the call is the last one, or an earlier one
      rcases List.eq_nil_or_concat post with rfl | ⟨post', last, rfl⟩
      · obtain ⟨hpre, hli⟩ := List.append_inj' hcalls rfl
        cases hli
        exact Or.inr ⟨r.state, num, hlast, hpre, hskip.1, hfind⟩
      · rw [List.concat_eq_append, ← List.cons_append, ← List.append_assoc] at hcalls
        exact hold post' (List.append_inj' hcalls rfl).1
    · intro ha
      exact ⟨r.state, num, hlast, ha⟩

lemma VisitSteps.sound {r r' : VisitRun} (h : VisitSteps loadedImages handler r r')
    (hr : r.Sound loadedImages handler start) : r'.Sound loadedImages handler start := by
  induction h with
  | refl => exact hr
  | tail _ hstep ih => exact hstep.sound ih

/-! ### What is covered -/

/-- All dependents of an image were looked at. -/
def VisitRun.Done (r : VisitRun) (li : LoadedImage) : Prop :=
  ∀ num ∈ li.image.nonUpwardNums, ∃ s, (s, num) ∈ r.log

/-- No image was found again, and nothing ended the visit. -/
structure VisitRun.Undisturbed (loadedImages : List LoadedImage)
    (handler : List LoadedImage → LoadedImage → Bool) (r : VisitRun) : Prop where
  fresh : ∀ s num li, (s, num) ∈ r.log → num ∉ s.visited →
    findImageNum loadedImages num = some li → li ∉ s.calls
  neverStops : NeverStops handler r.state.calls
  noAssertion : r.state.asserted = false

lemma VisitRun.Done.extends {r r' : VisitRun} {li : LoadedImage} (h : r.Done li)
    (hextends : r.Extends r') : r'.Done li := by
  intro num hnum
  obtain ⟨s, hs⟩ := h num hnum
  exact ⟨s, hextends.log.subset hs⟩

lemma VisitRun.Undisturbed.of_extends {r r' : VisitRun} (h : r'.Undisturbed loadedImages handler)
    (hextends : r.Extends r') : r.Undisturbed loadedImages handler := by
  constructor
  · intro s num li hlog
    exact h.fresh s num li (hextends.log.subset hlog)
  · exact h.neverStops.of_initial hextends.calls
  · rw [Bool.eq_false_iff]
    intro ha
    have hnot := h.noAssertion
    rw [hextends.asserted ha] at hnot
    cases hnot

/-- The visit of some images that were passed to the handler, with all that it leads to. -/
structure VisitRun.Covers (loadedImages : List LoadedImage)
    (handler : List LoadedImage → LoadedImage → Bool) (r : VisitRun) (nodes : List LoadedImage)
    (r' : VisitRun) : Prop where
  steps : VisitSteps loadedImages handler r r'
  done : r'.Undisturbed loadedImages handler →
    (∀ li ∈ nodes, r'.Done li) ∧ ∀ li ∈ r'.state.calls, li ∈ r.state.calls ∨ r'.Done li

lemma VisitRun.Undisturbed.depStop {r : VisitRun} (h : r.Undisturbed loadedImages handler)
    (hr : r.Sound loadedImages handler start) : r.state.depStop = false := by
  rw [Bool.eq_false_iff]
  exact fun hstop => hr.state.depStop hstop h.neverStops

lemma VisitRun.Undisturbed.stopped {r : VisitRun} (h : r.Undisturbed loadedImages handler)
    (hr : r.Sound loadedImages handler start) : r.state.stopped = false := by
  rw [Bool.eq_false_iff]
  exact fun hstop => hr.state.stopped hstop h.neverStops

lemma VisitState.Sound.mem_calls (hnums : (loadedImages.map (·.image.imageNum)).Nodup)
    {s : VisitState} (h : s.Sound loadedImages handler start) {li : LoadedImage}
    (hli : li ∈ loadedImages) (hvisited : li.image.imageNum ∈ s.visited) : li ∈ s.calls := by
  obtain ⟨x, hx, hxn⟩ := h.visited _ hvisited
  have heq : x = li := List.inj_on_of_nodup_map hnums (h.loaded x hx) hli hxn
  exact heq ▸ hx

/-- The array of the level grows only with the visited numbers. -/
lemma length_look_le (loadedImages : List LoadedImage)
    (handler : List LoadedImage → LoadedImage → Bool) (r : VisitRun) (num : Nat) :
    (r.look loadedImages handler num).state.dependentsToRecurse.length + r.state.visited.length ≤
      (r.look loadedImages handler num).state.visited.length +
        r.state.dependentsToRecurse.length := by
  change (visitDependent loadedImages handler r.state num).dependentsToRecurse.length + _ ≤
    (visitDependent loadedImages handler r.state num).visited.length + _
  unfold visitDependent
  split
  · omega
  · split
    · omega
    · dsimp only
      split_ifs <;> simp only [List.length_append, List.length_singleton] <;> omega

lemma look_covers (hnums : (loadedImages.map (·.image.imageNum)).Nodup) {r : VisitRun} {num : Nat}
    (hr : r.Sound loadedImages handler start)
    (h : (r.look loadedImages handler num).Undisturbed loadedImages handler) :
    r.state.dependentsToRecurse ⊆ (r.look loadedImages handler num).state.dependentsToRecurse ∧
      ∀ li ∈ (r.look loadedImages handler num).state.calls,
        li ∈ r.state.calls ∨ li ∈ (r.look loadedImages handler num).state.dependentsToRecurse := by
  have hlast : (r.state, num) ∈ (r.look loadedImages handler num).log :=
    List.mem_append_right _ (List.mem_singleton_self _)
  have hnever := h.neverStops
  have hnot := h.noAssertion
  change NeverStops handler (visitDependent loadedImages handler r.state num).calls at hnever
  change (visitDependent loadedImages handler r.state num).asserted = false at hnot
  change _ ⊆ (visitDependent loadedImages handler r.state num).dependentsToRecurse ∧
    ∀ li ∈ (visitDependent loadedImages handler r.state num).calls, _ ∨
      li ∈ (visitDependent loadedImages handler r.state num).dependentsToRecurse
  by_cases hskip : num ∈ r.state.visited ∨ findImageNum loadedImages num = none
  · rw [visitDependent_skip hskip]
    exact ⟨List.Subset.refl _, fun li hli => Or.inl hli⟩
  rw [not_or] at hskip
  obtain ⟨depLi, hfind⟩ := Option.ne_none_iff_exists'.mp hskip.2
  have hown : depLi.image.imageNum ∉ r.state.visited := by
    intro hown
    exact h.fresh _ _ _ hlast hskip.1 hfind
      (hr.state.mem_calls hnums (mem_of_findImageNum hfind) hown)
  rw [calls_visitDependent hskip.1 hfind] at hnever
  have hhandler : ¬handler r.state.calls depLi = true := fun hstop => not_neverStops hstop hnever
  rw [hr.state.call_eq hskip.1 hfind] at hnot ⊢
  dsimp only at hnot ⊢
  rw [if_neg hown, if_neg hhandler] at hnot ⊢
  by_cases hfull : 256 ≤ r.state.dependentsToRecurse.length
  · rw [if_pos hfull] at hnot
    cases hnot
  · rw [if_neg hfull]
    refine ⟨List.subset_append_left _ _, ?_⟩
    intro li hli
    apply (List.mem_append.mp hli).imp_right
    exact fun hmem => List.mem_append_right _ hmem

lemma kept_look {nodeLi : LoadedImage} {r : VisitRun} {num : Nat}
    (hkept : ∀ li ∈ r.state.dependentsToRecurse, VisitsTo loadedImages nodeLi li)
    (hnum : num ∈ nodeLi.image.nonUpwardNums) :
    ∀ li ∈ (r.look loadedImages handler num).state.dependentsToRecurse, VisitsTo loadedImages nodeLi li := by
  change ∀ li ∈ (visitDependent loadedImages handler r.state num).dependentsToRecurse, _
  unfold visitDependent
  split
  · exact hkept
  · split
    · exact hkept
    · rename_i depLi hfind
      dsimp only
      split_ifs
      · exact hkept
      · exact hkept
      · exact hkept
      · exact hkept
      · intro li hli
        rw [List.mem_append, List.mem_singleton] at hli
        rcases hli with hli | rfl
        · exact hkept li hli
        · exact ⟨num, hnum, hfind⟩

lemma visitDependents_spec (hnums : (loadedImages.map (·.image.imageNum)).Nodup)
    {nodeLi : LoadedImage} (nums : List Nat) {r : VisitRun} (hsubset : nums ⊆ nodeLi.image.nonUpwardNums)
    (hr : r.Sound loadedImages handler start) (hnode : nodeLi ∈ r.state.calls)
    (hkept : ∀ li ∈ r.state.dependentsToRecurse, VisitsTo loadedImages nodeLi li)
    (hasserted : r.state.asserted = false) :
    let r' := visitDependents loadedImages handler nums r
    VisitSteps loadedImages handler r r' ∧
      r'.state.dependentsToRecurse.length + r.state.visited.length ≤
        r'.state.visited.length + r.state.dependentsToRecurse.length ∧
      (r'.Undisturbed loadedImages handler → (∀ num ∈ nums, ∃ s, (s, num) ∈ r'.log) ∧
        r.state.dependentsToRecurse ⊆ r'.state.dependentsToRecurse ∧
        ∀ li ∈ r'.state.calls, li ∈ r.state.calls ∨ li ∈ r'.state.dependentsToRecurse) := by
  induction nums generalizing r with
  | nil =>
    refine ⟨.refl, le_rfl.trans_eq (Nat.add_comm _ _), fun _ => ⟨?_, List.Subset.refl _, ?_⟩⟩
    · intro num hnum
      cases hnum
    · intro li hli
      exact Or.inl hli
  | cons num nums ih =>
    have hstep : VisitStep loadedImages handler r (r.look loadedImages handler num) :=
      VisitStep.look hnode (hsubset List.mem_cons_self) hkept hasserted
    have hsound := hstep.sound hr
    have hlen := length_look_le loadedImages handler r num
    have hlast : (r.state, num) ∈ (r.look loadedImages handler num).log :=
      List.mem_append_right _ (List.mem_singleton_self _)
    dsimp only
    rw [visitDependents]
    by_cases hend : (r.look loadedImages handler num).state.depStop ||
        (r.look loadedImages handler num).state.asserted
    · rw [if_pos hend]
      refine ⟨.single hstep, hlen, fun hundisturbed => ?_⟩
      rw [hundisturbed.depStop hsound, hundisturbed.noAssertion] at hend
      cases hend
    · rw [if_neg hend]
      rw [Bool.or_eq_true, not_or, Bool.not_eq_true, Bool.not_eq_true] at hend
      obtain ⟨hsteps, hlen', hcovers⟩ := ih (List.subset_of_cons_subset hsubset) hsound
        (hstep.extends.calls.subset hnode) (kept_look hkept (hsubset List.mem_cons_self)) hend.2
      refine ⟨Relation.ReflTransGen.head hstep hsteps, by omega, fun hundisturbed => ?_⟩
      obtain ⟨hlooked, hrecurse, hcalls⟩ := hcovers hundisturbed
      have hlook := look_covers hnums hr (hundisturbed.of_extends hsteps.extends)
      refine ⟨?_, List.Subset.trans hlook.1 hrecurse, ?_⟩
      · intro n hn
        rcases List.mem_cons.mp hn with rfl | hn
        · exact ⟨r.state, hsteps.extends.log.subset hlast⟩
        · exact hlooked n hn
      · intro li hli
        rcases hcalls li hli with hold | hnew
        · exact (hlook.2 li hold).imp_right (fun hmem => hrecurse hmem)
        · exact Or.inr hnew

variable {r : VisitRun}

/-- The numbers of all calls are visited, and what is looked at by a number that is not was not called. -/
structure VisitRun.Tidy (loadedImages : List LoadedImage) (r : VisitRun) : Prop where
  marked : ∀ li ∈ r.state.calls, li.image.imageNum ∈ r.state.visited
  nodup : r.state.dependentsToRecurse.Nodup
  fresh : ∀ s num li, (s, num) ∈ r.log → num ∉ s.visited → findImageNum loadedImages num = some li →
    li ∉ s.calls ∧ s.dependentsToRecurse.length < 256

lemma VisitRun.Tidy.fresh_look (ht : r.Tidy loadedImages) (hr : r.Sound loadedImages handler start)
    (ho : OrderlyVisit loadedImages handler start) {y li : LoadedImage} {num : Nat}
    (hy : y ∈ r.state.calls) (hlink : num ∈ y.image.nonUpwardNums)
    (hkept : ∀ li ∈ r.state.dependentsToRecurse, VisitsTo loadedImages y li) (hnum : num ∉ r.state.visited)
    (hfind : findImageNum loadedImages num = some li) :
    li ∉ r.state.calls ∧ r.state.dependentsToRecurse.length < 256 := by
  have hreach := hr.state.reachable y hy
  have hnew : li ∉ r.state.calls := by
    intro hli
    have hvisited := ht.marked li hli
    rw [ho.ownNumbers y num li hreach hlink hfind] at hvisited
    exact hnum hvisited
  refine ⟨hnew, ?_⟩
  have hnodup : (li :: r.state.dependentsToRecurse).Nodup :=
    List.nodup_cons.mpr ⟨fun hli => hnew (hr.state.recurse li hli), ht.nodup⟩
  have hsubset : li :: r.state.dependentsToRecurse ⊆
      (y.image.nonUpwardNums.filterMap (findImageNum loadedImages)).dedup := by
    intro x hx
    rw [List.mem_dedup, List.mem_filterMap]
    rcases List.mem_cons.mp hx with rfl | hx
    · exact ⟨num, hlink, hfind⟩
    · exact hkept x hx
  have hle := (List.subperm_of_subset hnodup hsubset).length_le
  have hnarrow := ho.narrow y hreach
  rw [List.length_cons] at hle
  omega

lemma VisitStep.tidy {r' : VisitRun} (h : VisitStep loadedImages handler r r')
    (hr : r.Sound loadedImages handler start) (ho : OrderlyVisit loadedImages handler start)
    (ht : r.Tidy loadedImages) : r'.Tidy loadedImages := by
  cases h with
  | enter => exact ⟨ht.marked, List.nodup_nil, ht.fresh⟩
  | @look y num hy hlink hkept hasserted =>
    have hfresh : ∀ s n li, (s, n) ∈ (r.look loadedImages handler num).log → n ∉ s.visited →
        findImageNum loadedImages n = some li → li ∉ s.calls ∧ s.dependentsToRecurse.length < 256 := by
      intro s n li hlog hnum hfind
      rcases List.mem_append.mp hlog with hold | hnew
      · exact ht.fresh s n li hold hnum hfind
      · cases List.mem_singleton.mp hnew
        exact ht.fresh_look hr ho hy hlink hkept hnum hfind
    refine ⟨?_, ?_, hfresh⟩
    all_goals
      by_cases hskip : num ∈ r.state.visited ∨ findImageNum loadedImages num = none
      · rw [VisitRun.look, visitDependent_skip hskip]
        first | exact ht.marked | exact ht.nodup
    all_goals
      rw [not_or] at hskip
      obtain ⟨li, hfind⟩ := Option.ne_none_iff_exists'.mp hskip.2
      obtain ⟨hnew, hroom⟩ := ht.fresh_look hr ho hy hlink hkept hskip.1 hfind
      have hown : li.image.imageNum ∉ r.state.visited :=
        (ho.ownNumbers y num li (hr.state.reachable y hy) hlink hfind).symm ▸ hskip.1
      rw [VisitRun.look, hr.state.call_eq hskip.1 hfind]
      dsimp only
      rw [if_neg hown, if_neg hroom.not_ge]
    · have hmarked : ∀ x ∈ r.state.calls ++ [li],
          x.image.imageNum ∈ r.state.visited ++ [li.image.imageNum] := by
        intro x hx
        rw [List.mem_append, List.mem_singleton] at hx ⊢
        exact hx.imp (ht.marked x) (fun heq => by rw [heq])
      split_ifs
      · exact hmarked
      · exact hmarked
    · split_ifs
      · exact ht.nodup
      · refine List.nodup_append.mpr ⟨ht.nodup, List.nodup_singleton li, fun a ha b hb hab => ?_⟩
        rw [List.mem_singleton.mp hb] at hab
        exact hnew (hab ▸ hr.state.recurse a ha)

/-- No look comes after a stop. -/
def VisitRun.LogQuiet (handler : List LoadedImage → LoadedImage → Bool) (r : VisitRun) : Prop :=
  ∀ s num, (s, num) ∈ r.log → NeverStops handler s.calls

lemma VisitRun.LogQuiet.look (h : r.LogQuiet handler) (hnever : NeverStops handler r.state.calls) (num : Nat) :
    (r.look loadedImages handler num).LogQuiet handler := by
  intro s n hlog
  rcases List.mem_append.mp hlog with hold | hnew
  · exact h s n hold
  · cases List.mem_singleton.mp hnew
    exact hnever

structure VisitRun.Below (loadedImages : List LoadedImage)
    (handler : List LoadedImage → LoadedImage → Bool) (start : LoadedImage) (r : VisitRun) : Prop where
  sound : r.Sound loadedImages handler start
  tidy : r.Tidy loadedImages
  quiet : r.LogQuiet handler
  neverStops : NeverStops handler r.state.calls
  started : start ∈ r.state.calls
  first : ∀ li, VisitsTo loadedImages start li → li ∈ r.state.calls

lemma VisitSteps.below (ho : OrderlyVisit loadedImages handler start) {r' : VisitRun}
    (h : VisitSteps loadedImages handler r r') (hr : r.Below loadedImages handler start) :
    r'.Below loadedImages handler start := by
  induction h with
  | refl => exact hr
  | @tail r1 r2 _ hstep ih =>
    have hcalls := hstep.extends.calls.subset
    have hnever : NeverStops handler r2.state.calls ∧ r2.LogQuiet handler := by
      cases hstep with
      | enter => exact ⟨ih.neverStops, ih.quiet⟩
      | @look y num hy hlink hkept hasserted =>
        refine ⟨?_, ih.quiet.look ih.neverStops num⟩
        by_cases hskip : num ∈ r1.state.visited ∨ findImageNum loadedImages num = none
        · rw [VisitRun.look, visitDependent_skip hskip]
          exact ih.neverStops
        · rw [not_or] at hskip
          obtain ⟨li, hfind⟩ := Option.ne_none_iff_exists'.mp hskip.2
          have hnew := (ih.tidy.fresh_look ih.sound ho hy hlink hkept hskip.1 hfind).1
          rw [VisitRun.look, calls_visitDependent hskip.1 hfind]
          apply ih.neverStops.append_singleton
          rw [Bool.eq_false_iff]
          intro hstop
          rcases ho.stopsEarly _ li ((ih.sound.state.reachable y hy).tail ⟨num, hlink, hfind⟩) hstop with
            rfl | hdirect
          · exact hnew ih.started
          · exact hnew (ih.first li hdirect)
    exact ⟨hstep.sound ih.sound, hstep.tidy ih.sound ho ih.tidy, hnever.2, hnever.1, hcalls ih.started,
      fun li hli => hcalls (ih.first li hli)⟩

end Runs

end Dyld.AllImages
