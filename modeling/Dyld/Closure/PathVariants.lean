import Dyld.Closure.EnvVars
import Dyld.Closure.FrameworkPaths
import Dyld.Lib.Feed

/-!
# Variants of a path

`forEachPathVariant` hands on the paths at which a library may be found. Its iterators call each other
from their handlers, and each of them has a stop flag of its own.
-/

namespace Dyld.Closure

open Dyld.Lib

inductive Platform
  | unknown
  | macOS
  | iOS
  | tvOS
  | watchOS
  | bridgeOS
  | iOSMac
  | iOSSimulator
  | tvOSSimulator
  | watchOSSimulator
  | driverKit
  deriving DecidableEq, Repr

inductive FallbackPathMode
  | classic
  | restricted
  | none
  deriving DecidableEq, Repr

/-- The strings of the members of `PathOverrides`, and `_fallbackPathMode`. -/
structure SearchPaths where
  value : PathVar → Option Path
  fallbackPathMode : FallbackPathMode

/-- The loop of `forEachInColonList` over a list, with the characters from `t` to `s`. -/
def forEachInList {τ : Type} (handler : τ → Path → τ × Bool) : Path → Path → τ → τ × Bool
  | piece, [], t => handler t piece
  | piece, c :: s, t =>
    if c = colon then
      let r := handler t piece
      if r.2 then (r.1, true) else forEachInList handler [] s r.1
    else forEachInList handler (piece ++ [c]) s t

def forEachInColonList {τ : Type} (list1 list2 : Option Path) (handler : τ → Path → τ × Bool) (t : τ) : τ :=
  let r := match list1 with
    | none => (t, false)
    | some list => forEachInList handler [] list t
  if r.2 then r.1
  else
    match list2 with
    | none => r.1
    | some list => (forEachInList handler [] list r.1).1

def addSuffix (path suffix : Path) : Path :=
  let start := match strrchr slash path with
    | some i => i + 1
    | none => 0
  match strrchr 46 (path.drop start) with
  | some dot => path.take (start + dot) ++ suffix ++ path.drop (start + dot)
  | none => path ++ suffix

namespace SearchPaths

variable {σ τ : Type} (po : SearchPaths)

def forEachDylibFallback (platform : Platform) (handler : τ → Path → τ × Bool) (t : τ) : τ :=
  if po.value .dylibPathFallbacksEnv ≠ none ∨ po.value .dylibPathFallbacksExeLC ≠ none then
    forEachInColonList (po.value .dylibPathFallbacksEnv) (po.value .dylibPathFallbacksExeLC) handler t
  else
    match platform with
    | .macOS =>
      match po.fallbackPathMode with
      | .classic =>
        let r := handler t (chars "/usr/local/lib")
        if r.2 then r.1 else (handler r.1 (chars "/usr/lib")).1
      | .restricted => (handler t (chars "/usr/lib")).1
      | .none => t
    | .iOS | .watchOS | .tvOS | .bridgeOS | .driverKit | .unknown =>
      if po.fallbackPathMode ≠ .none then
        let r := handler t (chars "/usr/local/lib")
        if r.2 then r.1 else (handler r.1 (chars "/usr/lib")).1
      else t
    | .iOSMac | .iOSSimulator | .watchOSSimulator | .tvOSSimulator =>
      if po.fallbackPathMode ≠ .none then (handler t (chars "/usr/lib")).1 else t

def forEachFrameworkFallback (platform : Platform) (handler : τ → Path → τ × Bool) (t : τ) : τ :=
  if po.value .frameworkPathFallbacksEnv ≠ none ∨ po.value .frameworkPathFallbacksExeLC ≠ none then
    forEachInColonList (po.value .frameworkPathFallbacksEnv) (po.value .frameworkPathFallbacksExeLC) handler t
  else
    match platform with
    | .macOS =>
      match po.fallbackPathMode with
      | .classic =>
        let r := handler t (chars "/Library/Frameworks")
        if r.2 then r.1 else (handler r.1 (chars "/System/Library/Frameworks")).1
      | .restricted => (handler t (chars "/System/Library/Frameworks")).1
      | .none => t
    | .iOS | .watchOS | .tvOS | .bridgeOS | .iOSMac | .iOSSimulator | .watchOSSimulator | .tvOSSimulator
    | .driverKit | .unknown =>
      if po.fallbackPathMode ≠ .none then (handler t (chars "/System/Library/Frameworks")).1 else t

structure Variant where
  possiblePath : Path
  isFallbackPath : Bool
  deriving DecidableEq, Repr

variable (cached : Bool) (handler : σ → Variant → σ × Bool)

def forEachImageSuffix (path : Path) (isFallbackPath stop : Bool) (s : σ) : σ × Bool :=
  if po.value .imageSuffix = none ∨ cached then
    let r := handler s ⟨path, isFallbackPath⟩
    (r.1, stop || r.2)
  else
    let t := forEachInColonList (po.value .imageSuffix) none (fun t suffix =>
      let r := handler t.1 ⟨addSuffix path suffix, isFallbackPath⟩
      ((r.1, t.2 || r.2), r.2)) (s, stop)
    if t.2 then t
    else
      let r := handler t.1 ⟨path, isFallbackPath⟩
      (r.1, t.2 || r.2)

/-- The blocks of `forEachPathVariant`, which look for the end of a path in a directory. -/
def inDirectory (path : Path) (isFallbackPath : Bool) (t : σ × Bool) (dir : Path) : (σ × Bool) × Bool :=
  let r := po.forEachImageSuffix cached handler (dir ++ slash :: path) isFallbackPath false t.1
  ((r.1, t.2 || r.2), r.2)

/-- The part of `forEachPathVariant` that checks for overrides. -/
def forEachOverride (initialPath : Path) (s : σ) : σ × Bool :=
  match getFrameworkPartialPath (po.value .imageSuffix) initialPath with
  | some frameworkPartialPath =>
    if po.value .frameworkPathOverridesEnv ≠ none ∨ po.value .frameworkPathOverridesExeLC ≠ none then
      forEachInColonList (po.value .frameworkPathOverridesEnv) (po.value .frameworkPathOverridesExeLC)
        (po.inDirectory cached handler frameworkPartialPath false) (s, false)
    else (s, false)
  | none =>
    if po.value .dylibPathOverridesEnv ≠ none ∨ po.value .dylibPathOverridesExeLC ≠ none then
      forEachInColonList (po.value .dylibPathOverridesEnv) (po.value .dylibPathOverridesExeLC)
        (po.inDirectory cached handler (getLibraryLeafName initialPath) false) (s, false)
    else (s, false)

def forEachFallback (initialPath : Path) (platform : Platform) (s : σ) : σ × Bool :=
  match getFrameworkPartialPath (po.value .imageSuffix) initialPath with
  | some frameworkPartialPath =>
    let usesDefaultFallbackPaths :=
      po.value .frameworkPathFallbacksEnv = none && po.value .frameworkPathFallbacksExeLC = none
    po.forEachFrameworkFallback platform
      (po.inDirectory cached handler frameworkPartialPath usesDefaultFallbackPaths) (s, false)
  | none =>
    let usesDefaultFallbackPaths :=
      po.value .dylibPathFallbacksEnv = none && po.value .dylibPathFallbacksExeLC = none
    po.forEachDylibFallback platform
      (po.inDirectory cached handler (getLibraryLeafName initialPath) usesDefaultFallbackPaths) (s, false)

/-- The path that is looked for. With `TARGET_OS_OSX && TARGET_CPU_ARM64` old apps find the framework in
its new place. -/
def relocated (osxArm64 : Bool) (platform : Platform) (initialPath : Path) : Path :=
  if osxArm64 ∧ platform = .iOS ∧
      initialPath = chars "/System/Library/PrivateFrameworks/WebKit.framework/WebKit" then
    chars "/System/Library/Frameworks/WebKit.framework/WebKit"
  else initialPath

def searchiOSSupport (osxArm64 : Bool) (platform : Platform) : Bool :=
  platform = .iOSMac || (osxArm64 && platform = .iOS)

def forEachPathVariant (osxArm64 : Bool) (initialPath : Path) (platform : Platform) (s : σ) : σ :=
  let r := if cached then (s, false) else po.forEachOverride cached handler initialPath s
  if r.2 then r.1
  else
    let initialPath := relocated osxArm64 platform initialPath
    let r :=
      if searchiOSSupport osxArm64 platform then
        po.forEachImageSuffix cached handler (chars "/System/iOSSupport" ++ initialPath) false r.2 r.1
      else r
    if r.2 then r.1
    else
      let r := po.forEachImageSuffix cached handler initialPath false r.2 r.1
      if r.2 then r.1 else (po.forEachFallback cached handler initialPath platform r.1).1

/-! ### What should be handed on -/

def listed (list : Option Path) : List Path := list.elim [] (List.splitOn colon)

def withSuffixes (path : Path) (isFallbackPath : Bool) : List Variant :=
  (if cached then [] else listed (po.value .imageSuffix)).map (fun suffix =>
    ⟨addSuffix path suffix, isFallbackPath⟩) ++ [⟨path, isFallbackPath⟩]

def endOf (path : Path) : Path :=
  (getFrameworkPartialPath (po.value .imageSuffix) path).getD (getLibraryLeafName path)

def isFramework (path : Path) : Bool := (getFrameworkPartialPath (po.value .imageSuffix) path).isSome

def overrideDirs (path : Path) : List Path :=
  if po.isFramework path then
    listed (po.value .frameworkPathOverridesEnv) ++ listed (po.value .frameworkPathOverridesExeLC)
  else listed (po.value .dylibPathOverridesEnv) ++ listed (po.value .dylibPathOverridesExeLC)

/-- The directories that are searched when no fallbacks are given. -/
def defaultDylibDirs (platform : Platform) : List Path :=
  if po.fallbackPathMode = .none then []
  else if platform ∈ [.iOSMac, .iOSSimulator, .watchOSSimulator, .tvOSSimulator] ∨
      (platform = .macOS ∧ po.fallbackPathMode = .restricted) then [chars "/usr/lib"]
  else [chars "/usr/local/lib", chars "/usr/lib"]

def defaultFrameworkDirs (platform : Platform) : List Path :=
  if po.fallbackPathMode = .none then []
  else if platform = .macOS ∧ po.fallbackPathMode = .classic then
    [chars "/Library/Frameworks", chars "/System/Library/Frameworks"]
  else [chars "/System/Library/Frameworks"]

/-- Whether the search falls back to default directories. -/
def usesDefaultFallbackPaths (path : Path) : Bool :=
  if po.isFramework path then
    po.value .frameworkPathFallbacksEnv = none && po.value .frameworkPathFallbacksExeLC = none
  else po.value .dylibPathFallbacksEnv = none && po.value .dylibPathFallbacksExeLC = none

def fallbackDirs (path : Path) (platform : Platform) : List Path :=
  if po.usesDefaultFallbackPaths path then
    if po.isFramework path then po.defaultFrameworkDirs platform else po.defaultDylibDirs platform
  else if po.isFramework path then
    listed (po.value .frameworkPathFallbacksEnv) ++ listed (po.value .frameworkPathFallbacksExeLC)
  else listed (po.value .dylibPathFallbacksEnv) ++ listed (po.value .dylibPathFallbacksExeLC)

/-- The end of a path in directories. -/
def inDirs (path : Path) (isFallbackPath : Bool) (dirs : List Path) : List Variant :=
  dirs.flatMap (fun dir => po.withSuffixes cached (dir ++ slash :: path) isFallbackPath)

def pathVariants (osxArm64 : Bool) (initialPath : Path) (platform : Platform) : List Variant :=
  let path := relocated osxArm64 platform initialPath
  (if cached then [] else po.inDirs cached (po.endOf initialPath) false (po.overrideDirs initialPath)) ++
    (if searchiOSSupport osxArm64 platform then
      po.withSuffixes cached (chars "/System/iOSSupport" ++ path) false else []) ++
    po.withSuffixes cached path false ++
    po.inDirs cached (po.endOf path) (po.usesDefaultFallbackPaths path) (po.fallbackDirs path platform)

/-! ### The iterators -/

lemma forEachInList_eq (h : τ → Path → τ × Bool) (piece s : Path) (t : τ) :
    forEachInList h piece s t = feed h t ((s.splitOn colon).modifyHead (piece ++ ·)) := by
  induction s generalizing piece t with
  | nil => simp [forEachInList, feed_singleton]
  | cons c s ih =>
    obtain ⟨first, rest, hsplit⟩ := List.exists_cons_of_ne_nil (List.splitOn_ne_nil colon s)
    rw [forEachInList, List.splitOn_cons_eq_if_modifyHead]
    by_cases hc : c = colon
    · simp [hc, ih, hsplit, feed_cons]
    · simp [hc, ih, hsplit]

lemma forEachInColonList_eq (list1 list2 : Option Path) (h : τ → Path → τ × Bool) (t : τ) :
    forEachInColonList list1 list2 h t = (feed h t (listed list1 ++ listed list2)).1 := by
  have hlist : ∀ list t, forEachInList h [] list t = feed h t (list.splitOn colon) := by
    intro list t
    obtain ⟨first, rest, hsplit⟩ := List.exists_cons_of_ne_nil (List.splitOn_ne_nil colon list)
    rw [forEachInList_eq, hsplit]
    rfl
  rw [feed_append]
  unfold forEachInColonList
  cases list1 with
  | none =>
    cases list2 with
    | none => rfl
    | some list2 => simp [listed, hlist]
  | some list1 =>
    by_cases hstop : (feed h t (list1.splitOn colon)).2
    · simp [listed, hlist, hstop]
    · cases list2 with
      | none => simp [listed, hlist, hstop]
      | some list2 => simp [listed, hlist, hstop]

lemma forEachImageSuffix_eq (path : Path) (isFallbackPath : Bool) (s : σ) :
    po.forEachImageSuffix cached handler path isFallbackPath false s =
      feed handler s (po.withSuffixes cached path isFallbackPath) := by
  rw [forEachImageSuffix, withSuffixes]
  by_cases hplain : po.value .imageSuffix = none ∨ cached
  · have hnone : (if cached then [] else listed (po.value .imageSuffix)) = [] := by
      cases hplain with
      | inl hplain => simp [hplain, listed]
      | inr hplain => simp [hplain]
    rw [if_pos hplain, hnone, List.map_nil, List.nil_append, feed_singleton]
    simp
  · rw [not_or] at hplain
    have hblock : (fun (t : σ × Bool) suffix =>
        let r := handler t.1 ⟨addSuffix path suffix, isFallbackPath⟩
        ((r.1, t.2 || r.2), r.2)) =
          noting (fun s suffix => handler s ⟨addSuffix path suffix, isFallbackPath⟩) := rfl
    rw [if_neg (not_or.mpr hplain), if_neg hplain.2, hblock, forEachInColonList_eq, feed_noting, feed_map,
      feed_append]
    simp only [listed, Option.elim_none, List.append_nil, feed_singleton]
    split
    · rfl
    · rename_i hgo
      simp [hgo]

lemma inDirectory_eq (path : Path) (isFallbackPath : Bool) :
    po.inDirectory cached handler path isFallbackPath = noting (fun s dir =>
      feed handler s (po.withSuffixes cached (dir ++ slash :: path) isFallbackPath)) := by
  funext t dir
  rw [inDirectory, forEachImageSuffix_eq, noting]

lemma feed_inDirectory (path : Path) (isFallbackPath : Bool) (s : σ) (dirs : List Path) :
    (feed (po.inDirectory cached handler path isFallbackPath) (s, false) dirs).1 =
      feed handler s (po.inDirs cached path isFallbackPath dirs) := by
  rw [inDirectory_eq, feed_noting, feed_flatMap, inDirs]

/-- Two directories. -/
lemma feed_pair (h : τ → Path → τ × Bool) (t : τ) (dir dir' : Path) :
    (feed h t [dir, dir']).1 = if (h t dir).2 then (h t dir).1 else (h (h t dir).1 dir').1 := by
  rw [feed_cons, feed_singleton]
  split <;> rfl

lemma forEachDylibFallback_eq (platform : Platform) (h : τ → Path → τ × Bool) (t : τ) :
    po.forEachDylibFallback platform h t = (feed h t
      (if po.value .dylibPathFallbacksEnv = none ∧ po.value .dylibPathFallbacksExeLC = none then
        po.defaultDylibDirs platform
      else listed (po.value .dylibPathFallbacksEnv) ++ listed (po.value .dylibPathFallbacksExeLC))).1 := by
  unfold forEachDylibFallback
  by_cases hdefault : po.value .dylibPathFallbacksEnv = none ∧ po.value .dylibPathFallbacksExeLC = none
  · rw [if_pos hdefault, if_neg (by simpa using hdefault), defaultDylibDirs]
    cases platform <;> cases po.fallbackPathMode <;> simp [feed_pair, feed_singleton]
  · rw [if_neg hdefault, if_pos (by tauto), forEachInColonList_eq]

lemma forEachFrameworkFallback_eq (platform : Platform) (h : τ → Path → τ × Bool) (t : τ) :
    po.forEachFrameworkFallback platform h t = (feed h t
      (if po.value .frameworkPathFallbacksEnv = none ∧ po.value .frameworkPathFallbacksExeLC = none then
        po.defaultFrameworkDirs platform
      else
        listed (po.value .frameworkPathFallbacksEnv) ++ listed (po.value .frameworkPathFallbacksExeLC))).1 := by
  unfold forEachFrameworkFallback
  by_cases hdefault : po.value .frameworkPathFallbacksEnv = none ∧ po.value .frameworkPathFallbacksExeLC = none
  · rw [if_pos hdefault, if_neg (by simpa using hdefault), defaultFrameworkDirs]
    cases platform <;> cases po.fallbackPathMode <;> simp [feed_pair, feed_singleton]
  · rw [if_neg hdefault, if_pos (by tauto), forEachInColonList_eq]

lemma forEachOverride_eq (initialPath : Path) (s : σ) :
    po.forEachOverride cached handler initialPath s =
      feed handler s (po.inDirs cached (po.endOf initialPath) false (po.overrideDirs initialPath)) := by
  have hnone : ∀ path env exe, (if env ≠ none ∨ exe ≠ none then
      forEachInColonList env exe (po.inDirectory cached handler path false) (s, false) else (s, false)) =
        feed handler s (po.inDirs cached path false (listed env ++ listed exe)) := by
    intro path env exe
    rw [← feed_inDirectory, ← forEachInColonList_eq]
    split
    · rfl
    · rename_i hempty
      obtain ⟨rfl, rfl⟩ : env = none ∧ exe = none := by simpa using hempty
      rfl
  rw [forEachOverride, endOf, overrideDirs, isFramework]
  cases getFrameworkPartialPath (po.value .imageSuffix) initialPath with
  | some partialPath => exact hnone _ _ _
  | none => exact hnone _ _ _

lemma forEachFallback_eq (path : Path) (platform : Platform) (s : σ) :
    po.forEachFallback cached handler path platform s = feed handler s
      (po.inDirs cached (po.endOf path) (po.usesDefaultFallbackPaths path) (po.fallbackDirs path platform)) := by
  rw [forEachFallback, endOf, fallbackDirs, usesDefaultFallbackPaths, isFramework]
  cases getFrameworkPartialPath (po.value .imageSuffix) path with
  | some partialPath =>
    dsimp only
    rw [forEachFrameworkFallback_eq, feed_inDirectory]
    simp
  | none =>
    dsimp only
    rw [forEachDylibFallback_eq, feed_inDirectory]
    simp

theorem forEachPathVariant_eq (osxArm64 : Bool) (initialPath : Path) (platform : Platform) (s : σ) :
    po.forEachPathVariant cached handler osxArm64 initialPath platform s =
      (feed handler s (po.pathVariants cached osxArm64 initialPath platform)).1 := by
  have hoverride : (if cached then (s, false) else po.forEachOverride cached handler initialPath s) =
      feed handler s
        (if cached then [] else po.inDirs cached (po.endOf initialPath) false (po.overrideDirs initialPath)) := by
    cases cached with
    | true => rfl
    | false => exact forEachOverride_eq po false handler initialPath s
  have hsupport : ∀ t : σ, (if searchiOSSupport osxArm64 platform then
      po.forEachImageSuffix cached handler (chars "/System/iOSSupport" ++
        relocated osxArm64 platform initialPath) false false t else (t, false)) =
      feed handler t (if searchiOSSupport osxArm64 platform then po.withSuffixes cached
        (chars "/System/iOSSupport" ++ relocated osxArm64 platform initialPath) false else []) := by
    intro t
    split
    · rw [forEachImageSuffix_eq]
    · rfl
  unfold forEachPathVariant
  rw [hoverride, pathVariants, List.append_assoc, List.append_assoc, feed_append]
  generalize (if cached then [] else
    po.inDirs cached (po.endOf initialPath) false (po.overrideDirs initialPath)) = overrides
  generalize hr : feed handler s overrides = r
  obtain ⟨s₁, stop⟩ := r
  cases stop with
  | true => rfl
  | false =>
    dsimp only
    rw [if_neg Bool.false_ne_true, if_neg Bool.false_ne_true, hsupport, feed_append]
    generalize hr₁ : feed handler s₁ _ = r₁
    obtain ⟨s₂, stop₁⟩ := r₁
    cases stop₁ with
    | true => rfl
    | false =>
      dsimp only
      rw [if_neg Bool.false_ne_true, if_neg Bool.false_ne_true, forEachImageSuffix_eq, feed_append]
      generalize hr₂ : feed handler s₂ _ = r₂
      obtain ⟨s₃, stop₂⟩ := r₂
      cases stop₂ with
      | true => rfl
      | false =>
        dsimp only
        rw [if_neg Bool.false_ne_true, if_neg Bool.false_ne_true, forEachFallback_eq]

/-- Without a stop all variants are handed on, a handler that stops at a call gets the variants up to
there, and every handler is fed the variants until it stops. -/
theorem pathVariants_exact (osxArm64 : Bool) (initialPath : Path) (platform : Platform) :
    po.forEachPathVariant cached goOn osxArm64 initialPath platform [] =
        po.pathVariants cached osxArm64 initialPath platform ∧
      (∀ k, po.forEachPathVariant cached (stopAt k) osxArm64 initialPath platform [] =
        (po.pathVariants cached osxArm64 initialPath platform).take (k + 1)) ∧
      ∀ (σ : Type) (handler : σ → Variant → σ × Bool) (s : σ),
        po.forEachPathVariant cached handler osxArm64 initialPath platform s =
          (feed handler s (po.pathVariants cached osxArm64 initialPath platform)).1 := by
  refine ⟨?_, fun k => ?_, fun σ handler s => ?_⟩
  · rw [forEachPathVariant_eq, feed_goOn, List.nil_append]
  · rw [forEachPathVariant_eq, feed_stopAt k [] _ (Nat.zero_le k), List.nil_append]
    rfl
  · exact forEachPathVariant_eq po cached handler osxArm64 initialPath platform s

/-- One directory for libraries. -/
def oneOverride : SearchPaths where
  value := fun v => if v = .dylibPathOverridesEnv then some (chars "/o") else none
  fallbackPathMode := .none

/-- Where the cached library cannot be overridden, no override is handed on; and a build for macOS on
arm64 looks below `/System/iOSSupport` for iOS too. -/
theorem pathVariants_cached :
    oneOverride.forEachPathVariant true goOn false (chars "/usr/lib/a") .macOS [] ≠
        oneOverride.pathVariants false false (chars "/usr/lib/a") .macOS ∧
      oneOverride.forEachPathVariant false goOn true (chars "/usr/lib/a") .iOS [] ≠
        oneOverride.pathVariants false false (chars "/usr/lib/a") .iOS := by
  decide +kernel

end SearchPaths

end Dyld.Closure
