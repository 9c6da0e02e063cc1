import Dyld.Closure.PathPool

/-!
# Framework paths

`getFrameworkPartialPath` looks backwards for the name of a framework and compares it with the last
component of the path. At the first character of the path the name starts with that character, also
where it is a slash.
-/

namespace Dyld.Closure

/-- `/` -/
def slash : UInt8 := 47

/-! ### Searching backwards -/

def strrstrFrom (str sub : Path) : Nat → Option Nat
  | 0 => none
  | i + 1 => if sub <+: str.drop (i + 1) then some (i + 1) else strrstrFrom str sub i

/-- `strrstr`, which does not look at the first character. -/
def strrstr (str sub : Path) : Option Nat := strrstrFrom str sub str.length

def strrchr (c : UInt8) : Path → Option Nat
  | [] => none
  | d :: str =>
    match strrchr c str with
    | some i => some (i + 1)
    | none => if d = c then some 0 else none

def getLibraryLeafName (path : Path) : Path :=
  match strrchr slash path with
  | some start => path.drop (start + 1)
  | none => path

def dotFramework : Path := chars ".framework/"

/-- What is compared with the last component: the characters from `frameworkStart` to `dirDot`. -/
def isFrameworkName (imageSuffix : Option Path) (framework leaf : Path) : Bool :=
  framework = leaf ||
    match imageSuffix with
    | some suffix => framework <+: leaf && suffix = leaf.drop framework.length
    | none => false

/-- The loop of `getFrameworkPartialPath` from `dirStart` on. -/
def frameworkFrom (imageSuffix : Option Path) (path : Path) (dirDot : Nat) : Nat → Option Path
  | 0 =>
    match strrchr slash path with
    | some leaf =>
      if isFrameworkName imageSuffix (path.take dirDot) (path.drop (leaf + 1)) then some path else none
    | none => none
  | i + 1 =>
    if path[i + 1]? = some slash then
      match strrchr slash path with
      | some leaf =>
        if isFrameworkName imageSuffix ((path.drop (i + 2)).take (dirDot - (i + 2))) (path.drop (leaf + 1))
        then some (path.drop (i + 2))
        else frameworkFrom imageSuffix path dirDot i
      | none => frameworkFrom imageSuffix path dirDot i
    else frameworkFrom imageSuffix path dirDot i

/-- `PathOverrides::getFrameworkPartialPath`: the pointer that is returned, as the string there. -/
def getFrameworkPartialPath (imageSuffix : Option Path) (path : Path) : Option Path :=
  (strrstr path dotFramework).bind (fun dirDot => frameworkFrom imageSuffix path dirDot dirDot)

/-! ### The last component -/

section Leaf

attribute [local simp] strrchr strrstrFrom getLibraryLeafName frameworkFrom

variable {path before after : Path}

lemma strrchr_eq_none_iff {c : UInt8} : strrchr c path = none ↔ c ∉ path := by
  induction path with
  | nil => simp
  | cons d path ih =>
    rw [strrchr, List.mem_cons, not_or, ← ih]
    cases strrchr c path with
    | none => simp [eq_comm]
    | some i => simp

lemma strrchr_append {c : UInt8} (hafter : c ∉ after) : strrchr c (before ++ c :: after) = some before.length := by
  induction before with
  | nil => rw [List.nil_append, strrchr, strrchr_eq_none_iff.mpr hafter]; simp
  | cons d before ih => rw [List.cons_append, strrchr, ih]; rfl

lemma getLibraryLeafName_of_not_mem (h : slash ∉ path) : getLibraryLeafName path = path := by
  rw [getLibraryLeafName, strrchr_eq_none_iff.mpr h]

lemma getLibraryLeafName_append (h : slash ∉ after) : getLibraryLeafName (before ++ slash :: after) = after := by
  rw [getLibraryLeafName, strrchr_append h]
  simp

lemma exists_split (h : slash ∈ path) : ∃ before after, path = before ++ slash :: after ∧ slash ∉ after := by
  induction path using List.reverseRecOn with
  | nil => exact absurd h List.not_mem_nil
  | append_singleton path c ih =>
    by_cases hc : c = slash
    · exact ⟨path, [], by rw [hc], List.not_mem_nil⟩
    · have hmem : slash ∈ path := by
        cases List.mem_append.mp h with
        | inl h => exact h
        | inr h => exact absurd (List.mem_singleton.mp h).symm hc
      obtain ⟨before, after, rfl, hafter⟩ := ih hmem
      refine ⟨before, after ++ [c], by simp, ?_⟩
      simp [hafter, Ne.symm hc]

end Leaf

/-! ### The last `.framework/` -/

lemma strrstrFrom_eq {str sub : Path} {i n : Nat} (hpos : 0 < i) (hi : i ≤ n) (hmatch : sub <+: str.drop i)
    (hlast : ∀ j, i < j → ¬sub <+: str.drop j) : strrstrFrom str sub n = some i := by
  induction n with
  | zero => omega
  | succ n ih =>
    rw [strrstrFrom]
    by_cases hsame : i = n + 1
    · rw [← hsame, if_pos hmatch]
    · rw [if_neg (hlast (n + 1) (by omega)), ih (by omega)]

lemma strrstrFrom_eq_none {str sub : Path} (n : Nat) (h : ∀ j, 0 < j → ¬sub <+: str.drop j) :
    strrstrFrom str sub n = none := by
  induction n with
  | zero => rfl
  | succ n ih => rw [strrstrFrom, if_neg (h (n + 1) (Nat.succ_pos n)), ih]

lemma dotFramework_apart : dotFramework.length = 11 ∧ (∀ k < 10, dotFramework[k + 1]? ≠ some 46) ∧
    dotFramework = chars ".framework" ++ [slash] := by
  decide +kernel

/-- No `.framework/` begins inside of one. -/
lemma not_prefix_drop {pre post : Path} (hpost : ¬dotFramework <:+: post) (j : Nat) (hj : pre.length < j) :
    ¬dotFramework <+: (pre ++ dotFramework ++ post).drop j := by
  obtain ⟨k, rfl⟩ : ∃ k, j = pre.length + (k + 1) := ⟨j - pre.length - 1, by omega⟩
  rw [List.append_assoc, List.drop_append, List.drop_eq_nil_of_le (by omega), List.nil_append,
    Nat.add_sub_cancel_left]
  intro hpre
  by_cases hk : k < 10
  · have hfirst : (dotFramework ++ post)[k + 1]? = some 46 := by
      obtain ⟨more, hmore⟩ := hpre
      have hhead := congrArg (fun l => l[0]?) hmore
      rw [List.getElem?_drop, Nat.add_zero] at hhead
      rw [← hhead]
      rfl
    have hlength := dotFramework_apart.1
    rw [List.getElem?_append_left (by omega)] at hfirst
    exact dotFramework_apart.2.1 k hk hfirst
  · have hlength := dotFramework_apart.1
    rw [List.drop_append, List.drop_eq_nil_of_le (by omega), List.nil_append] at hpre
    exact hpost (hpre.isInfix.trans (List.drop_suffix _ _).isInfix)

lemma strrstr_append {pre post : Path} (hpost : ¬dotFramework <:+: post) (hpre : pre ≠ []) :
    strrstr (pre ++ dotFramework ++ post) dotFramework = some pre.length := by
  refine strrstrFrom_eq (List.length_pos_iff.mpr hpre) ?_ ?_ (not_prefix_drop hpost)
  · rw [List.length_append, List.length_append]
    omega
  · rw [List.append_assoc, List.drop_left]
    exact List.prefix_append _ _

lemma slash_not_mem_leaf (path : Path) : slash ∉ getLibraryLeafName path := by
  by_cases h : slash ∈ path
  · obtain ⟨before, after, rfl, hafter⟩ := exists_split h
    rwa [getLibraryLeafName_append hafter]
  · rwa [getLibraryLeafName_of_not_mem h]

/-! ### The scan for the name -/

section Scan

variable {imageSuffix : Option Path} {path : Path} {dirDot : Nat}

/-- The scan passes over characters that are no slashes. -/
lemma frameworkFrom_skip {i j : Nat} (hij : j ≤ i)
    (h : ∀ k, j < k → k ≤ i → path[k]? ≠ some slash) :
    frameworkFrom imageSuffix path dirDot i = frameworkFrom imageSuffix path dirDot j := by
  induction i with
  | zero => rw [Nat.le_zero.mp hij]
  | succ i ih =>
    by_cases hsame : j = i + 1
    · rw [hsame]
    · rw [frameworkFrom, if_neg (h (i + 1) (by omega) le_rfl)]
      exact ih (by omega) (fun k hjk hki => h k hjk (by omega))

lemma isFrameworkName_none (framework leaf : Path) :
    isFrameworkName none framework leaf = decide (framework = leaf) := by
  simp [isFrameworkName]

/-- The scan at a slash that is not the first character. -/
lemma frameworkFrom_slash {i : Nat} (h : path[i + 1]? = some slash) :
    frameworkFrom none path dirDot (i + 1) =
      if (path.drop (i + 2)).take (dirDot - (i + 2)) = getLibraryLeafName path then some (path.drop (i + 2))
      else frameworkFrom none path dirDot i := by
  have hmem : slash ∈ path := List.mem_of_getElem? h
  rw [frameworkFrom, if_pos h, getLibraryLeafName]
  cases hleaf : strrchr slash path with
  | none => exact absurd hmem (strrchr_eq_none_iff.mp hleaf)
  | some leaf => simp [isFrameworkName_none]

lemma frameworkFrom_zero (h : slash ∈ path) :
    frameworkFrom none path dirDot 0 =
      if path.take dirDot = getLibraryLeafName path then some path else none := by
  rw [frameworkFrom, getLibraryLeafName]
  cases hleaf : strrchr slash path with
  | none => exact absurd h (strrchr_eq_none_iff.mp hleaf)
  | some leaf => simp [isFrameworkName_none]

end Scan

lemma dotFramework_eq : dotFramework = chars ".framework" ++ [slash] := dotFramework_apart.2.2

lemma slash_mem_dotFramework : slash ∈ dotFramework := by
  rw [dotFramework_eq]
  exact List.mem_append_right _ List.mem_cons_self

lemma getFrameworkPartialPath_eq_none {pre post : Path} (hpost : ¬dotFramework <:+: post)
    (hleaf : getLibraryLeafName (pre ++ dotFramework ++ post) ≠ getLibraryLeafName pre) :
    getFrameworkPartialPath none (pre ++ dotFramework ++ post) = none := by
  have hslash : slash ∈ pre ++ dotFramework ++ post :=
    List.mem_append_left _ (List.mem_append_right _ slash_mem_dotFramework)
  have hnoSlash := slash_not_mem_leaf (pre ++ dotFramework ++ post)
  rw [getFrameworkPartialPath]
  by_cases hpre : pre = []
  · subst hpre
    have hnone : strrstr ([] ++ dotFramework ++ post) dotFramework = none :=
      strrstrFrom_eq_none _ (@not_prefix_drop [] post hpost)
    rw [hnone, Option.bind_none]
  rw [strrstr_append hpost hpre, Option.bind_some]
  have hscan : ∀ i ≤ pre.length,
      frameworkFrom none (pre ++ dotFramework ++ post) pre.length i = none := by
    intro i
    induction i with
    | zero =>
      intro _
      have hname : (pre ++ dotFramework ++ post).take pre.length = pre := by
        rw [List.append_assoc, List.take_left]
      rw [frameworkFrom_zero hslash, hname, if_neg]
      intro hsame
      rw [← hsame] at hnoSlash
      exact hleaf (hsame.symm.trans (getLibraryLeafName_of_not_mem hnoSlash).symm)
    | succ i ih =>
      intro hi
      by_cases hat : (pre ++ dotFramework ++ post)[i + 1]? = some slash
      · have hlt : i + 1 < pre.length := by
          by_contra hge
          have hdot : (pre ++ dotFramework ++ post)[pre.length]? = some 46 := by
            rw [List.append_assoc, List.getElem?_append_right le_rfl, Nat.sub_self]
            rfl
          rw [show i + 1 = pre.length by omega, hdot] at hat
          exact absurd hat (by decide)
        have hname : ((pre ++ dotFramework ++ post).drop (i + 2)).take (pre.length - (i + 2)) =
            pre.drop (i + 2) := by
          rw [List.append_assoc, List.drop_append_of_le_length (by omega), ← List.length_drop, List.take_left]
        rw [frameworkFrom_slash hat, hname, if_neg]
        · exact ih (by omega)
        · intro hsame
          apply hleaf
          rw [← hsame] at hnoSlash ⊢
          rw [List.append_assoc, List.getElem?_append_left hlt] at hat
          have hsplit : pre = pre.take (i + 1) ++ slash :: pre.drop (i + 2) := by
            obtain ⟨hlt', hget⟩ := List.getElem?_eq_some_iff.mp hat
            rw [← hget, ← List.drop_eq_getElem_cons hlt', List.take_append_drop]
          conv_rhs => rw [hsplit]
          rw [getLibraryLeafName_append hnoSlash]
      · rw [frameworkFrom, if_neg hat]
        exact ih (by omega)
  exact hscan pre.length le_rfl

structure IsFrameworkPath (name middle : Path) : Prop where
  name_ne_nil : name ≠ []
  noSlash : slash ∉ name
  middle_end : middle = [] ∨ ∃ front, middle = front ++ [slash]
  middle_plain : ¬dotFramework <:+: middle

section Recognised

variable {dir name middle : Path} (h : IsFrameworkPath name middle)
include h

lemma IsFrameworkPath.not_infix : ¬dotFramework <:+: middle ++ name := by
  rintro ⟨s, t, hst⟩
  rcases List.append_eq_append_iff.mp hst with ⟨x, hmiddle, -⟩ | ⟨x, hs, hname⟩
  · exact h.middle_plain ⟨s, x, hmiddle.symm⟩
  · -- the slash at its end would be in the name
    cases x using List.reverseRecOn with
    | nil => exact h.middle_plain ⟨s, [], by rw [hs]; simp⟩
    | append_singleton x c =>
      rw [dotFramework_eq, ← List.append_assoc, ← List.append_assoc] at hs
      obtain ⟨-, hc⟩ := List.append_inj' hs rfl
      apply h.noSlash
      rw [hname, List.singleton_inj.mp hc]
      simp

lemma IsFrameworkPath.leaf (dir : Path) :
    getLibraryLeafName (dir ++ slash :: name ++ dotFramework ++ (middle ++ name)) = name := by
  have hfront : ∃ front, dir ++ slash :: name ++ dotFramework ++ (middle ++ name) = front ++ slash :: name := by
    rcases h.middle_end with hnil | ⟨front, hfront⟩
    · exact ⟨dir ++ slash :: name ++ chars ".framework", by rw [hnil, dotFramework_eq]; simp⟩
    · exact ⟨dir ++ slash :: name ++ dotFramework ++ front, by rw [hfront]; simp⟩
  obtain ⟨front, hfront⟩ := hfront
  rw [hfront, getLibraryLeafName_append h.noSlash]

lemma getFrameworkPartialPath_framework (dir : Path) :
    getFrameworkPartialPath none (dir ++ slash :: name ++ dotFramework ++ (middle ++ name)) =
      if dir = [] then none else some (name ++ dotFramework ++ (middle ++ name)) := by
  have hleaf := h.leaf dir
  have hpre : dir ++ slash :: name ≠ [] := by simp
  have hdirDot := strrstr_append h.not_infix hpre
  generalize hpath : dir ++ slash :: name ++ dotFramework ++ (middle ++ name) = path at *
  have hskip : frameworkFrom none path (dir ++ slash :: name).length (dir ++ slash :: name).length =
      frameworkFrom none path (dir ++ slash :: name).length dir.length := by
    apply frameworkFrom_skip
    · simp
    · intro k hk hle hat
      obtain ⟨m, rfl⟩ : ∃ m, k = dir.length + (m + 1) := ⟨k - dir.length - 1, by omega⟩
      have hat' : (name ++ (dotFramework ++ (middle ++ name)))[m]? = some slash := by
        rw [← hpath, List.append_assoc, List.append_assoc, List.getElem?_append_right (by omega),
          Nat.add_sub_cancel_left, List.cons_append, List.getElem?_cons_succ] at hat
        exact hat
      simp only [List.length_append, List.length_cons] at hle
      by_cases hm : m < name.length
      · rw [List.getElem?_append_left hm] at hat'
        exact h.noSlash (List.mem_of_getElem? hat')
      · obtain rfl : m = name.length := by omega
        have hdot : (dotFramework ++ (middle ++ name))[0]? = some 46 := rfl
        rw [List.getElem?_append_right le_rfl, Nat.sub_self, hdot] at hat'
        exact absurd hat' (by decide)
  rw [getFrameworkPartialPath, hdirDot, Option.bind_some, hskip]
  by_cases hdir : dir = []
  · subst hdir
    rw [List.length_nil, frameworkFrom_zero (by rw [← hpath]; simp), if_pos rfl, if_neg]
    rw [hleaf, ← hpath]
    intro hsame
    have hlength := congrArg List.length hsame
    simp at hlength
  · obtain ⟨d, hd⟩ := Nat.exists_eq_succ_of_ne_zero (List.length_eq_zero_iff.not.mpr hdir)
    have hat : path[d + 1]? = some slash := by
      rw [← hpath, List.append_assoc, List.append_assoc, List.getElem?_append_right (by omega)]
      simp [hd]
    have hdrop : path.drop (d + 2) = name ++ dotFramework ++ (middle ++ name) := by
      have hsplit : path = (dir ++ [slash]) ++ (name ++ dotFramework ++ (middle ++ name)) := by
        rw [← hpath]
        simp
      rw [hsplit, List.drop_append, List.drop_eq_nil_of_le (by simp; omega), List.nil_append]
      simp [hd]
    have htake : (path.drop (d + 2)).take ((dir ++ slash :: name).length - (d + 2)) = name := by
      have hlength : (dir ++ slash :: name).length - (d + 2) = name.length := by
        rw [List.length_append, List.length_cons]
        omega
      rw [hdrop, hlength, List.append_assoc, List.take_left]
    rw [hd, Nat.succ_eq_add_one, frameworkFrom_slash hat, htake, hleaf, if_pos rfl, if_neg hdir, hdrop]

end Recognised

/-- Framework paths are recognised when their framework is not at the root, and other paths are not
recognised. -/
theorem frameworkPaths_iff (dir name middle : Path) (h : IsFrameworkPath name middle) :
    (getFrameworkPartialPath none (dir ++ slash :: name ++ dotFramework ++ (middle ++ name)) =
      some (name ++ dotFramework ++ (middle ++ name)) ↔ dir ≠ []) ∧
    ∀ pre post, ¬dotFramework <:+: post →
      getLibraryLeafName (pre ++ dotFramework ++ post) ≠ getLibraryLeafName pre →
        getFrameworkPartialPath none (pre ++ dotFramework ++ post) = none := by
  refine ⟨?_, fun pre post => getFrameworkPartialPath_eq_none⟩
  rw [getFrameworkPartialPath_framework h]
  by_cases hdir : dir = []
  · simp [hdir]
  · simp [hdir]

/-- `/usr/foo.framework/foo` -/
theorem frameworkPaths_usr :
    getFrameworkPartialPath none (chars "/usr" ++ slash :: chars "foo" ++ dotFramework ++ ([] ++ chars "foo")) =
      some (chars "foo" ++ dotFramework ++ ([] ++ chars "foo")) :=
  (frameworkPaths_iff _ _ _
    ⟨by decide +kernel, by decide +kernel, Or.inl rfl, by decide +kernel⟩).1.mpr (by decide +kernel)

/-- `/foo.framework/foo` -/
theorem frameworkPaths_fails : IsFrameworkPath (chars "foo") [] ∧
    getFrameworkPartialPath none ([] ++ slash :: chars "foo" ++ dotFramework ++ ([] ++ chars "foo")) ≠
      some (chars "foo" ++ dotFramework ++ ([] ++ chars "foo")) :=
  ⟨⟨by decide +kernel, by decide +kernel, Or.inl rfl, by decide +kernel⟩, by decide +kernel⟩

end Dyld.Closure
