import Dyld.Closure.PathPool

/-!
# Environment variables of the loader

`PathOverrides` keeps the values of the `DYLD_` variables. A variable is recognised by the characters
that its string begins with, and its value starts one character behind them, whatever that one is.
-/

namespace Dyld.Closure

open Dyld.Cache

/-- `=` -/
def equalsSign : UInt8 := 61

/-- `:` -/
def colon : UInt8 := 58

/-- The `const char*` members of `PathOverrides`. -/
inductive PathVar
  | dylibPathOverridesEnv
  | frameworkPathOverridesEnv
  | dylibPathFallbacksEnv
  | frameworkPathFallbacksEnv
  | dylibPathOverridesExeLC
  | frameworkPathOverridesExeLC
  | dylibPathFallbacksExeLC
  | frameworkPathFallbacksExeLC
  | insertedDylibs
  | imageSuffix
  | rootPath
  deriving DecidableEq, Repr

/-- A branch of `addEnvVar`: the member that is set, and the one that is set for the executable. -/
structure EnvKey where
  name : Path
  env : PathVar
  exeLC : PathVar
  deriving DecidableEq, Repr

def envKeys : List EnvKey :=
  [⟨chars "DYLD_LIBRARY_PATH", .dylibPathOverridesEnv, .dylibPathOverridesExeLC⟩,
    ⟨chars "DYLD_FRAMEWORK_PATH", .frameworkPathOverridesEnv, .frameworkPathOverridesExeLC⟩,
    ⟨chars "DYLD_FALLBACK_FRAMEWORK_PATH", .frameworkPathFallbacksEnv, .frameworkPathFallbacksExeLC⟩,
    ⟨chars "DYLD_FALLBACK_LIBRARY_PATH", .dylibPathFallbacksEnv, .dylibPathFallbacksExeLC⟩,
    ⟨chars "DYLD_INSERT_LIBRARIES", .insertedDylibs, .insertedDylibs⟩,
    ⟨chars "DYLD_IMAGE_SUFFIX", .imageSuffix, .imageSuffix⟩,
    ⟨chars "DYLD_ROOT_PATH", .rootPath, .rootPath⟩]

structure PathOverrides where
  pathPool : Option PathPool
  var : PathVar → Option PoolPointer

namespace PathOverrides

def empty : PathOverrides := ⟨none, fun _ => none⟩

def pool (po : PathOverrides) : PathPool := po.pathPool.getD .allocate

/-- The string that a member points to. -/
def value (po : PathOverrides) (v : PathVar) : Option Path := (po.var v).map po.pool.stringAt

def addString (fuel : Nat) (po : PathOverrides) (str : Path) : Option (PathOverrides × PoolPointer) :=
  (po.pool.add fuel str).map (fun r => ({ po with pathPool := some r.1 }, r.2))

/-- What `setString` adds to the pool. -/
def appended (old : Option Path) (value : Path) : Path :=
  match old with
  | none => value
  | some old => old ++ colon :: value

def setString (fuel : Nat) (po : PathOverrides) (v : PathVar) (value : Path) : Option PathOverrides :=
  (po.addString fuel (appended (po.value v) value)).map (fun r =>
    { r.1 with var := Function.update r.1.var v (some r.2) })

def addEnvVar (fuel : Nat) (po : PathOverrides) (keyEqualsValue : Path) (forExecutable : Bool) :
    Option PathOverrides :=
  if equalsSign ∈ keyEqualsValue then
    match envKeys.find? (fun key => key.name <+: keyEqualsValue) with
    | some key =>
      po.setString fuel (if forExecutable then key.exeLC else key.env)
        (keyEqualsValue.drop (key.name.length + 1))
    | none => some po
  else some po

/-- The loop of `setEnvVars`. -/
def addEnvVars (fuel : Nat) (envp : List Path) : Option PathOverrides :=
  envp.foldlM (fun po p => po.addEnvVar fuel p false) empty

def handleEnvVar {σ : Type} (key : Path) (value : Option Path) (handler : σ → Path → σ) (s : σ) : σ :=
  match value with
  | none => s
  | some value => handler s (key ++ equalsSign :: value)

def forEachEnvVar {σ : Type} (po : PathOverrides) (handler : σ → Path → σ) (s : σ) : σ :=
  envKeys.foldl (fun s key => handleEnvVar key.name (po.value key.env) handler s) s

/-- The strings that `forEachEnvVar` hands on. -/
def reports (po : PathOverrides) : List Path := po.forEachEnvVar (fun reports r => reports ++ [r]) []

end PathOverrides

/-! ### What should be reported -/

/-- `v1:v2:...`, if there is a value. -/
def joined : List Path → Option Path
  | [] => none
  | v :: vs => some ([colon].intercalate (v :: vs))

/-- The values of the entries `name=value`. -/
def valuesOf (name : Path) (envp : List Path) : List Path :=
  envp.filterMap (fun e => if name ++ [equalsSign] <+: e then some (e.drop (name.length + 1)) else none)

/-- Every recognised name that has a value is reported once, and nothing else is. -/
structure ReportsExactly (envp reports : List Path) : Prop where
  each : ∀ key ∈ envKeys, reports.filter (fun r => key.name ++ [equalsSign] <+: r) =
    (joined (valuesOf key.name envp)).toList.map (fun value => key.name ++ equalsSign :: value)
  others : ∀ r ∈ reports, ∃ key ∈ envKeys, key.name ++ [equalsSign] <+: r

/-- The environment is taken up, and what is reported is what it says. -/
def KeepsEnv (envp : List Path) : Prop :=
  ∃ fuel po, PathOverrides.addEnvVars fuel envp = some po ∧ ReportsExactly envp po.reports

/-! ### The keys -/

/-- No key is the start of another, and each has a member of its own. -/
lemma envKeys_apart : (∀ key ∈ envKeys, ∀ key' ∈ envKeys, key.name <+: key'.name → key = key') ∧
    (∀ key ∈ envKeys, ∀ key' ∈ envKeys, key.env = key'.env → key = key') ∧ envKeys.Nodup := by
  decide +kernel

/-- The key of the branch that an entry takes. -/
def keyOf (e : Path) : Option EnvKey :=
  if equalsSign ∈ e then envKeys.find? (fun key => key.name <+: e) else none

lemma keyOf_eq_some_iff {e : Path} {key : EnvKey} :
    keyOf e = some key ↔ key ∈ envKeys ∧ equalsSign ∈ e ∧ key.name <+: e := by
  rw [keyOf]
  split
  · rename_i heq
    constructor
    · intro hfind
      exact ⟨List.mem_of_find?_eq_some hfind, heq, by simpa using List.find?_some hfind⟩
    · rintro ⟨hkey, -, hpre⟩
      cases hfind : envKeys.find? (fun key => key.name <+: e) with
      | none =>
        have hnone := List.find?_eq_none.mp hfind key hkey
        simp [hpre] at hnone
      | some key' =>
        have hkey' := List.mem_of_find?_eq_some hfind
        have hpre' : key'.name <+: e := by simpa using List.find?_some hfind
        cases List.prefix_or_prefix_of_prefix hpre' hpre with
        | inl hle => rw [envKeys_apart.1 key' hkey' key hkey hle]
        | inr hle => rw [envKeys_apart.1 key hkey key' hkey' hle]
  · rename_i hne
    simp [hne]

lemma addEnvVar_eq (fuel : Nat) (po : PathOverrides) (e : Path) :
    po.addEnvVar fuel e false = match keyOf e with
      | some key => po.setString fuel key.env (e.drop (key.name.length + 1))
      | none => some po := by
  rw [PathOverrides.addEnvVar, keyOf]
  split <;> rfl

def takenFor (name : Path) (envp : List Path) : List Path :=
  envp.filterMap (fun e =>
    if equalsSign ∈ e ∧ name <+: e then some (e.drop (name.length + 1)) else none)

lemma intercalate_concat {α : Type} (sep : List α) {xs : List (List α)} (hne : xs ≠ []) (x : List α) :
    sep.intercalate (xs ++ [x]) = sep.intercalate xs ++ (sep ++ x) := by
  induction xs with
  | nil => exact absurd rfl hne
  | cons y xs ih =>
    cases xs with
    | nil => simp
    | cons z xs =>
      rw [List.cons_append, List.intercalate_cons_of_ne_nil (by simp), ih (List.cons_ne_nil z xs),
        List.intercalate_cons_of_ne_nil (List.cons_ne_nil z xs)]
      simp only [List.append_assoc]

lemma joined_concat (vs : List Path) (v : Path) :
    joined (vs ++ [v]) = some (PathOverrides.appended (joined vs) v) := by
  cases vs with
  | nil => simp [joined, PathOverrides.appended]
  | cons w vs =>
    rw [List.cons_append, joined, joined, PathOverrides.appended, ← List.cons_append,
      intercalate_concat _ (List.cons_ne_nil w vs), List.singleton_append]

/-! ### Setting the members -/

namespace PathOverrides

variable {po po' : PathOverrides} {strings : PathVar → Option Path}

/-- The members point to strings of the pool. -/
structure Keeps (po : PathOverrides) (strings : PathVar → Option Path) : Prop where
  pool : ∃ contents, po.pool.Holds contents
  var : ∀ v, (po.var v = none ∧ strings v = none) ∨ ∃ p s, po.var v = some p ∧ strings v = some s ∧
    po.pool.StandsAt p s ∧ 0 ∉ s ∧ s.length + 1 < blockCapacity

lemma Keeps.value_eq (h : po.Keeps strings) (v : PathVar) : po.value v = strings v := by
  rw [value]
  rcases h.var v with ⟨hvar, hstring⟩ | ⟨p, s, hvar, hstring, hstands, hnul, -⟩
  · rw [hvar, hstring, Option.map_none]
  · rw [hvar, hstring, Option.map_some, hstands.stringAt_eq hnul]

lemma nul_not_mem_appended {old : Option Path} {value : Path} (hold : ∀ s, old = some s → 0 ∉ s)
    (hvalue : 0 ∉ value) : 0 ∉ appended old value := by
  cases old with
  | none => exact hvalue
  | some s =>
    rw [appended, List.mem_append, List.mem_cons, not_or, not_or]
    exact ⟨hold s rfl, by decide, hvalue⟩

lemma Keeps.nul_not_mem (h : po.Keeps strings) {v : PathVar} {s : Path} (hs : strings v = some s) :
    0 ∉ s := by
  rcases h.var v with ⟨-, hstring⟩ | ⟨p, s', -, hstring, -, hnul, -⟩
  · simp [hstring] at hs
  · obtain rfl : s' = s := by simpa [hstring] using hs
    exact hnul

lemma Keeps.setString (h : po.Keeps strings) {v : PathVar} {value : Path} (hvalue : 0 ∉ value)
    {fuel : Nat} (hset : po.setString fuel v value = some po') :
    po'.Keeps (Function.update strings v (some (appended (strings v) value))) := by
  obtain ⟨contents, hholds⟩ := h.pool
  have hnul : 0 ∉ appended (strings v) value :=
    nul_not_mem_appended (fun s hs => h.nul_not_mem hs) hvalue
  rw [PathOverrides.setString, h.value_eq, addString, Option.map_map, Option.map_eq_some_iff] at hset
  obtain ⟨r, hr, rfl⟩ := hset
  obtain ⟨⟨contents', hholds', -⟩, hstands, hkept⟩ := PathPool.added_of_add hnul hholds hr
  have hfits : (appended (strings v) value).length + 1 < blockCapacity := by
    by_contra hlong
    rw [PathPool.add_eq_none (by omega)] at hr
    exact absurd hr (Option.some_ne_none r).symm
  refine ⟨⟨contents', hholds'⟩, fun v' => ?_⟩
  by_cases hv : v' = v
  · subst hv
    exact Or.inr ⟨r.2, _, by simp, by simp, hstands, hnul, hfits⟩
  · rcases h.var v' with ⟨hvar, hstring⟩ | ⟨p, s, hvar, hstring, hstands', hrest⟩
    · exact Or.inl ⟨by simp [hv, hvar], by simp [hv, hstring]⟩
    · exact Or.inr ⟨p, s, by simp [hv, hvar], by simp [hv, hstring], hstands'.of_extends hkept, hrest⟩

lemma Keeps.exists_setString (h : po.Keeps strings) {v : PathVar} {value : Path} (hvalue : 0 ∉ value)
    (hfits : (appended (strings v) value).length + 1 < blockCapacity) :
    ∃ fuel po', po.setString fuel v value = some po' := by
  have hnul : 0 ∉ appended (strings v) value :=
    nul_not_mem_appended (fun s hs => h.nul_not_mem hs) hvalue
  obtain ⟨fuel, r, hr, -⟩ := PathPool.exists_add po.pool hnul hfits
  refine ⟨fuel, ?_⟩
  rw [PathOverrides.setString, h.value_eq, addString, hr]
  exact ⟨_, rfl⟩

/-! ### A whole environment -/

lemma addEnvVar_of_le {fuel fuel' : Nat} (hle : fuel ≤ fuel') {e : Path}
    (h : po.addEnvVar fuel e false = some po') : po.addEnvVar fuel' e false = some po' := by
  rw [addEnvVar_eq] at h ⊢
  cases hkey : keyOf e with
  | none => rwa [hkey] at h
  | some key =>
    simp only [hkey] at h ⊢
    rw [PathOverrides.setString, addString, Option.map_map, Option.map_eq_some_iff] at h ⊢
    obtain ⟨r, hr, hpo⟩ := h
    exact ⟨r, PathPool.add_of_le hle hr, hpo⟩

lemma addEnvVars_concat (fuel : Nat) (envp : List Path) (e : Path) :
    addEnvVars fuel (envp ++ [e]) = (addEnvVars fuel envp).bind (fun po => po.addEnvVar fuel e false) := by
  rw [addEnvVars, List.foldlM_append]
  simp [addEnvVars]

lemma addEnvVars_of_le {fuel fuel' : Nat} (hle : fuel ≤ fuel') {envp : List Path}
    (h : addEnvVars fuel envp = some po) : addEnvVars fuel' envp = some po := by
  induction envp using List.reverseRecOn generalizing po with
  | nil => exact h
  | append_singleton envp e ih =>
    rw [addEnvVars_concat] at h ⊢
    obtain ⟨po₁, hpo₁, he⟩ := Option.bind_eq_some_iff.mp h
    rw [ih hpo₁, Option.bind_some, addEnvVar_of_le hle he]

def afterEntry (strings : PathVar → Option Path) (e : Path) : PathVar → Option Path :=
  match keyOf e with
  | none => strings
  | some key => Function.update strings key.env
      (some (appended (strings key.env) (e.drop (key.name.length + 1))))

def stringsAfter (envp : List Path) : PathVar → Option Path := envp.foldl afterEntry (fun _ => none)

lemma stringsAfter_concat (envp : List Path) (e : Path) :
    stringsAfter (envp ++ [e]) = afterEntry (stringsAfter envp) e := List.foldl_concat _ _ _ _

lemma stringsAfter_env {key : EnvKey} (hkey : key ∈ envKeys) (envp : List Path) :
    stringsAfter envp key.env = joined (takenFor key.name envp) := by
  induction envp using List.reverseRecOn with
  | nil => rfl
  | append_singleton envp e ih =>
    rw [stringsAfter_concat, afterEntry, takenFor, List.filterMap_append, ← takenFor]
    by_cases htaken : equalsSign ∈ e ∧ key.name <+: e
    · rw [keyOf_eq_some_iff.mpr ⟨hkey, htaken⟩]
      simp [htaken, joined_concat, ih]
    · have hnone : takenFor key.name envp ++ List.filterMap (fun e =>
          if equalsSign ∈ e ∧ key.name <+: e then some (e.drop (key.name.length + 1)) else none) [e] =
          takenFor key.name envp := by
        simp [htaken]
      rw [hnone, ← ih]
      cases hother : keyOf e with
      | none => rfl
      | some key' =>
        obtain ⟨hkey', htaken'⟩ := keyOf_eq_some_iff.mp hother
        have hne : key.env ≠ key'.env := by
          intro hsame
          rw [envKeys_apart.2.1 key hkey key' hkey' hsame] at htaken
          exact htaken htaken'
        simp [hne]

lemma keeps_addEnvVars {envp : List Path} (hnul : ∀ e ∈ envp, 0 ∉ e) {fuel : Nat}
    (h : addEnvVars fuel envp = some po) : po.Keeps (stringsAfter envp) := by
  induction envp using List.reverseRecOn generalizing po with
  | nil =>
    obtain rfl : empty = po := by simpa [addEnvVars] using h
    exact ⟨⟨[[]], rfl, by simp⟩, fun v => Or.inl ⟨rfl, rfl⟩⟩
  | append_singleton envp e ih =>
    rw [addEnvVars_concat] at h
    obtain ⟨po₁, hpo₁, he⟩ := Option.bind_eq_some_iff.mp h
    have hkeeps := ih (fun e' he' => hnul e' (List.mem_append_left _ he')) hpo₁
    rw [stringsAfter_concat, afterEntry]
    rw [addEnvVar_eq] at he
    cases hkey : keyOf e with
    | none =>
      obtain rfl : po₁ = po := by simpa [hkey] using he
      exact hkeeps
    | some key =>
      simp only [hkey] at he ⊢
      have hvalue : 0 ∉ e.drop (key.name.length + 1) := fun hmem =>
        hnul e (List.mem_append_right _ (List.mem_singleton_self e)) (List.mem_of_mem_drop hmem)
      exact hkeeps.setString hvalue he

lemma length_le_appended {old : Option Path} {s : Path} (h : old = some s) (value : Path) :
    s.length ≤ (appended old value).length := by
  rw [h, appended, List.length_append]
  omega

/-- The strings of the members get longer. -/
lemma exists_stringsAfter_concat {envp : List Path} {v : PathVar} {s : Path}
    (h : stringsAfter envp v = some s) (e : Path) :
    ∃ s', stringsAfter (envp ++ [e]) v = some s' ∧ s.length ≤ s'.length := by
  rw [stringsAfter_concat, afterEntry]
  cases keyOf e with
  | none => exact ⟨s, h, le_rfl⟩
  | some key =>
    by_cases hv : v = key.env
    · subst hv
      exact ⟨_, Function.update_self _ _ _, length_le_appended h _⟩
    · exact ⟨s, (Function.update_of_ne hv _ _).trans h, le_rfl⟩

lemma exists_addEnvVars {envp : List Path} (hnul : ∀ e ∈ envp, 0 ∉ e)
    (hfits : ∀ key ∈ envKeys, ∀ s, stringsAfter envp key.env = some s → s.length + 1 < blockCapacity) :
    ∃ fuel po, addEnvVars fuel envp = some po := by
  induction envp using List.reverseRecOn with
  | nil => exact ⟨0, empty, rfl⟩
  | append_singleton envp e ih =>
    have hnul' : ∀ e' ∈ envp, 0 ∉ e' := fun e' he' => hnul e' (List.mem_append_left _ he')
    obtain ⟨fuel, po, hpo⟩ := ih hnul' (fun key hkey s hs => by
      obtain ⟨s', hs', hle⟩ := exists_stringsAfter_concat hs e
      have hlt := hfits key hkey s' hs'
      omega)
    have hkeeps := keeps_addEnvVars hnul' hpo
    have hentry : ∃ fuel' po', po.addEnvVar fuel' e false = some po' := by
      simp only [addEnvVar_eq]
      cases hkey : keyOf e with
      | none => exact ⟨0, po, rfl⟩
      | some key =>
        have hvalue : 0 ∉ e.drop (key.name.length + 1) := fun hmem =>
          hnul e (List.mem_append_right _ (List.mem_singleton_self e)) (List.mem_of_mem_drop hmem)
        apply hkeeps.exists_setString hvalue
        apply hfits key (keyOf_eq_some_iff.mp hkey).1
        rw [stringsAfter_concat, afterEntry, hkey]
        exact Function.update_self _ _ _
    obtain ⟨fuel', po', hpo'⟩ := hentry
    refine ⟨max fuel fuel', po', ?_⟩
    rw [addEnvVars_concat, addEnvVars_of_le (le_max_left _ _) hpo, Option.bind_some,
      addEnvVar_of_le (le_max_right _ _) hpo']

end PathOverrides

/-! ### What is reported -/

section Reports

variable {po : PathOverrides} {envp : List Path}

lemma reports_eq (po : PathOverrides) :
    po.reports = envKeys.flatMap (fun key =>
      ((po.value key.env).map (fun value => key.name ++ equalsSign :: value)).toList) := by
  have hreport : ∀ (s : List Path) (key : EnvKey), PathOverrides.handleEnvVar key.name (po.value key.env)
      (fun reports r => reports ++ [r]) s =
        s ++ ((po.value key.env).map (fun value => key.name ++ equalsSign :: value)).toList := by
    intro s key
    cases hvalue : po.value key.env with
    | none => simp [PathOverrides.handleEnvVar]
    | some value => rfl
  rw [PathOverrides.reports, PathOverrides.forEachEnvVar]
  simp only [hreport]
  rw [List.foldl_append_eq_append, List.nil_append, List.flatMap_def]

lemma prefix_report_iff {key key' : EnvKey} (hkey : key ∈ envKeys) (hkey' : key' ∈ envKeys) (value : Path) :
    key.name ++ [equalsSign] <+: key'.name ++ equalsSign :: value ↔ key' = key := by
  constructor
  · intro h
    have hleft : key.name <+: key'.name ++ equalsSign :: value := (List.prefix_append _ _).trans h
    have hright : key'.name <+: key'.name ++ equalsSign :: value := List.prefix_append _ _
    cases List.prefix_or_prefix_of_prefix hleft hright with
    | inl hle => exact (envKeys_apart.1 key hkey key' hkey' hle).symm
    | inr hle => exact envKeys_apart.1 key' hkey' key hkey hle
  · rintro rfl
    exact ⟨value, by simp⟩

lemma flatMap_eq_of_nodup {α β : Type} {l : List α} (hnodup : l.Nodup) {a : α} (ha : a ∈ l)
    {f : α → List β} (h : ∀ b ∈ l, b ≠ a → f b = []) : l.flatMap f = f a := by
  induction l with
  | nil => exact absurd ha List.not_mem_nil
  | cons b l ih =>
    obtain ⟨hb, hl⟩ := List.nodup_cons.mp hnodup
    obtain ⟨hfirst, hrest⟩ := List.forall_mem_cons.mp h
    rw [List.flatMap_cons]
    by_cases hsame : b = a
    · subst hsame
      have hnil : l.flatMap f = [] := by
        rw [List.flatMap_eq_nil_iff]
        exact fun c hc => hrest c hc (fun hcb => hb (hcb ▸ hc))
      rw [hnil, List.append_nil]
    · rw [hfirst hsame, List.nil_append, ih hl (List.mem_of_ne_of_mem (Ne.symm hsame) ha) hrest]

lemma filter_reports {key : EnvKey} (hkey : key ∈ envKeys) :
    po.reports.filter (fun r => key.name ++ [equalsSign] <+: r) =
      ((po.value key.env).map (fun value => key.name ++ equalsSign :: value)).toList := by
  rw [reports_eq, List.filter_flatMap]
  have hother : ∀ key' ∈ envKeys, key' ≠ key → List.filter (fun r => key.name ++ [equalsSign] <+: r)
      ((po.value key'.env).map (fun value => key'.name ++ equalsSign :: value)).toList = [] := by
    intro key' hkey' hne
    cases po.value key'.env with
    | none => rfl
    | some value => simp [prefix_report_iff hkey hkey', hne]
  rw [flatMap_eq_of_nodup envKeys_apart.2.2 hkey hother]
  cases po.value key.env with
  | none => rfl
  | some value => simp [prefix_report_iff hkey hkey]

lemma reportsExactly_iff :
    ReportsExactly envp po.reports ↔
      ∀ key ∈ envKeys, po.value key.env = joined (valuesOf key.name envp) := by
  constructor
  · intro h key hkey
    have heach := h.each key hkey
    rw [filter_reports hkey, Option.toList_map, List.map_inj_right (fun v w hvw => by simpa using hvw)]
      at heach
    have hhead := congrArg List.head? heach
    rwa [Option.head?_toList, Option.head?_toList] at hhead
  · intro h
    refine ⟨fun key hkey => ?_, fun r hr => ?_⟩
    · rw [filter_reports hkey, h key hkey, Option.toList_map]
    · rw [reports_eq, List.mem_flatMap] at hr
      obtain ⟨key, hkey, hr⟩ := hr
      rw [Option.mem_toList, Option.map_eq_some_iff] at hr
      obtain ⟨value, -, rfl⟩ := hr
      exact ⟨key, hkey, (prefix_report_iff hkey hkey value).mpr rfl⟩

/-- The characters of the values, and one more for each. -/
def weight (vs : List Path) : Nat := (vs.map (fun v => v.length + 1)).sum

lemma weight_joined (vs : List Path) : weight vs = ((joined vs).map (fun s => s.length + 1)).getD 0 := by
  induction vs using List.reverseRecOn with
  | nil => rfl
  | append_singleton vs v ih =>
    have hlast : weight (vs ++ [v]) = weight vs + (v.length + 1) := by simp [weight]
    rw [joined_concat, hlast, ih]
    cases joined vs with
    | none => simp [PathOverrides.appended]
    | some s =>
      simp [PathOverrides.appended]
      omega

/-- An entry is taken for a value of a name that it does not say. -/
def Misread (name : Path) (e : Path) : Prop :=
  equalsSign ∈ e ∧ name <+: e ∧ ¬name ++ [equalsSign] <+: e

instance (name e : Path) : Decidable (Misread name e) := inferInstanceAs (Decidable (_ ∧ _ ∧ ¬_))

lemma weight_append (vs ws : List Path) : weight (vs ++ ws) = weight vs + weight ws := by
  simp [weight]

lemma weight_valuesOf_le (name : Path) (envp : List Path) :
    weight (valuesOf name envp) ≤ weight (takenFor name envp) := by
  induction envp with
  | nil => exact le_rfl
  | cons e envp ih =>
    have hvalues : valuesOf name (e :: envp) = valuesOf name [e] ++ valuesOf name envp :=
      List.filterMap_append (l := [e])
    have htaken : takenFor name (e :: envp) = takenFor name [e] ++ takenFor name envp :=
      List.filterMap_append (l := [e])
    have hone : weight (valuesOf name [e]) ≤ weight (takenFor name [e]) := by
      by_cases hpre : name ++ [equalsSign] <+: e
      · have hread : equalsSign ∈ e ∧ name <+: e :=
          ⟨hpre.subset (by simp), (List.prefix_append _ _).trans hpre⟩
        simp [valuesOf, takenFor, hpre, hread]
      · simp [valuesOf, hpre, weight]
    rw [hvalues, htaken, weight_append, weight_append]
    exact Nat.add_le_add hone ih

lemma takenFor_eq_valuesOf {name : Path} (h : ∀ e ∈ envp, ¬Misread name e) :
    takenFor name envp = valuesOf name envp := by
  rw [takenFor, valuesOf]
  apply List.filterMap_congr
  intro e he
  have hsame : equalsSign ∈ e ∧ name <+: e ↔ name ++ [equalsSign] <+: e := by
    constructor
    · rintro ⟨heq, hpre⟩
      by_contra hnot
      exact h e he ⟨heq, hpre, hnot⟩
    · intro hpre
      exact ⟨hpre.subset (by simp), (List.prefix_append _ _).trans hpre⟩
  rw [if_congr hsame rfl rfl]

lemma not_misread_of_weight {name : Path} 
    (h : weight (takenFor name envp) ≤ weight (valuesOf name envp)) : ∀ e ∈ envp, ¬Misread name e := by
  intro e he hmisread
  obtain ⟨before, after, rfl⟩ := List.append_of_mem he
  have hbefore := weight_valuesOf_le name before
  have hafter := weight_valuesOf_le name after
  have htaken : takenFor name (before ++ e :: after) = 
      takenFor name before ++ e.drop (name.length + 1) :: takenFor name after := by
    rw [takenFor, List.filterMap_append, List.filterMap_cons, if_pos ⟨hmisread.1, hmisread.2.1⟩]
    rfl
  have hvalues : valuesOf name (before ++ e :: after) = valuesOf name before ++ valuesOf name after := by
    rw [valuesOf, List.filterMap_append, List.filterMap_cons, if_neg hmisread.2.2]
    rfl
  rw [htaken, hvalues, weight_append, weight_append] at h
  have hpos : weight (e.drop (name.length + 1) :: takenFor name after) =
      (e.drop (name.length + 1)).length + 1 + weight (takenFor name after) := by
    rw [weight, List.map_cons, List.sum_cons, ← weight]
  omega

lemma KeepsEnv.joined_takenFor (hnul : ∀ e ∈ envp, 0 ∉ e) (h : KeepsEnv envp) {key : EnvKey}
    (hkey : key ∈ envKeys) : joined (takenFor key.name envp) = joined (valuesOf key.name envp) := by
  obtain ⟨fuel, po, hpo, hreports⟩ := h
  rw [← PathOverrides.stringsAfter_env hkey, ← (PathOverrides.keeps_addEnvVars hnul hpo).value_eq]
  exact reportsExactly_iff.mp hreports key hkey

lemma KeepsEnv.not_misread (hnul : ∀ e ∈ envp, 0 ∉ e) (h : KeepsEnv envp) {key : EnvKey}
    (hkey : key ∈ envKeys) : ∀ e ∈ envp, ¬Misread key.name e := by
  apply not_misread_of_weight
  rw [weight_joined, weight_joined, h.joined_takenFor hnul hkey]

lemma KeepsEnv.fits (hnul : ∀ e ∈ envp, 0 ∉ e) (h : KeepsEnv envp) {key : EnvKey} (hkey : key ∈ envKeys)
    {s : Path} (hs : joined (valuesOf key.name envp) = some s) : s.length + 1 < blockCapacity := by
  rw [← h.joined_takenFor hnul hkey, ← PathOverrides.stringsAfter_env hkey] at hs
  obtain ⟨fuel, po, hpo, -⟩ := h
  rcases (PathOverrides.keeps_addEnvVars hnul hpo).var key.env with ⟨-, hnone⟩ | ⟨p, s', -, hsome, -, -, hfits⟩
  · simp [hnone] at hs
  · obtain rfl : s' = s := by simpa [hsome] using hs
    exact hfits

theorem keepsEnv_iff (hnul : ∀ e ∈ envp, 0 ∉ e) :
    KeepsEnv envp ↔ (∀ key ∈ envKeys, ∀ e ∈ envp, ¬Misread key.name e) ∧
      ∀ key ∈ envKeys, ∀ s, joined (valuesOf key.name envp) = some s → s.length + 1 < blockCapacity := by
  constructor
  · intro h
    exact ⟨fun key hkey => h.not_misread hnul hkey, fun key hkey s hs => h.fits hnul hkey hs⟩
  · rintro ⟨hread, hfits⟩
    have hstrings : ∀ key ∈ envKeys,
        PathOverrides.stringsAfter envp key.env = joined (valuesOf key.name envp) := by
      intro key hkey
      rw [PathOverrides.stringsAfter_env hkey, takenFor_eq_valuesOf (hread key hkey)]
    obtain ⟨fuel, po, hpo⟩ := PathOverrides.exists_addEnvVars hnul (fun key hkey s hs =>
      hfits key hkey s ((hstrings key hkey).symm.trans hs))
    refine ⟨fuel, po, hpo, reportsExactly_iff.mpr (fun key hkey => ?_)⟩
    rw [(PathOverrides.keeps_addEnvVars hnul hpo).value_eq, hstrings key hkey]

theorem keepsEnv_two : KeepsEnv [chars "DYLD_ROOT_PATH=/a", chars "DYLD_ROOT_PATH=/b"] := by
  have hfits : ∀ key ∈ envKeys, ((joined (valuesOf key.name
      [chars "DYLD_ROOT_PATH=/a", chars "DYLD_ROOT_PATH=/b"])).getD []).length + 1 < blockCapacity := by
    decide +kernel
  refine (keepsEnv_iff (by decide +kernel)).mpr ⟨by decide +kernel, fun key hkey s hs => ?_⟩
  have hfit := hfits key hkey
  rwa [hs] at hfit

theorem not_keepsEnv_longerName : ¬KeepsEnv [chars "DYLD_ROOT_PATHS=/a"] := by
  intro h
  exact h.not_misread (by decide +kernel) (List.mem_of_getElem? (i := 6) rfl) _
    (List.mem_singleton_self _) (by decide +kernel)

end Reports

end Dyld.Closure
