import Mathlib

/-!
# Radix trees

A radix tree has labels of several symbols on its edges. A key that leaves an edge in its middle splits
it. `entries` is what a tree stores, in the order of its edges.
-/

namespace Dyld.Lib

/-- The edges out of a node: each has a label, and leads to a node with a value and its own edges. -/
inductive Edges (α V : Type)
  | nil
  | cons (label : List α) (value : Option V) (below rest : Edges α V)

/-- What two keys begin with. -/
def commonPrefix {α : Type} [DecidableEq α] : List α → List α → List α
  | a :: as, b :: bs => if a = b then a :: commonPrefix as bs else []
  | _, _ => []

section CommonPrefix

variable {α : Type} [DecidableEq α] (as bs : List α)

lemma commonPrefix_prefix_left : commonPrefix as bs <+: as := by
  induction as generalizing bs with
  | nil => exact List.nil_prefix
  | cons a as ih =>
    cases bs with
    | nil => exact List.nil_prefix
    | cons b bs =>
      rw [commonPrefix]
      split
      · exact List.cons_prefix_cons.mpr ⟨rfl, ih bs⟩
      · exact List.nil_prefix

lemma commonPrefix_prefix_right : commonPrefix as bs <+: bs := by
  induction as generalizing bs with
  | nil => exact List.nil_prefix
  | cons a as ih =>
    cases bs with
    | nil => exact List.nil_prefix
    | cons b bs =>
      rw [commonPrefix]
      split
      · rename_i hsame
        exact List.cons_prefix_cons.mpr ⟨hsame, ih bs⟩
      · exact List.nil_prefix

variable {as bs}

/-- Behind what they have in common two keys go on differently. -/
lemma head?_drop_commonPrefix_ne {a : α} (h : (as.drop (commonPrefix as bs).length).head? = some a) :
    (bs.drop (commonPrefix as bs).length).head? ≠ some a := by
  induction as generalizing bs with
  | nil => simp at h
  | cons a' as ih =>
    cases bs with
    | nil => simp
    | cons b bs =>
      rw [commonPrefix] at h ⊢
      split at h
      · rename_i hsame
        rw [if_pos hsame]
        exact ih h
      · rename_i hne
        rw [if_neg hne]
        obtain rfl : a' = a := by simpa using h
        simpa [eq_comm] using hne

lemma commonPrefix_eq_nil_iff : commonPrefix as bs = [] ↔ ∀ a, as.head? = some a → bs.head? ≠ some a := by
  cases as with
  | nil => simp [commonPrefix]
  | cons a as =>
    cases bs with
    | nil => simp [commonPrefix]
    | cons b bs =>
      rw [commonPrefix]
      by_cases hsame : a = b
      · simp [hsame]
      · simp [hsame, eq_comm]

end CommonPrefix

namespace Edges

variable {α V : Type}

/-! ### Contents -/

def entries : Edges α V → List (List α × V)
  | nil => []
  | cons label value below rest =>
    value.toList.map (fun v => (label, v)) ++ below.entries.map (fun e => (label ++ e.1, e.2)) ++
      rest.entries

def nodeEntries (value : Option V) (below : Edges α V) : List (List α × V) :=
  value.toList.map (fun v => ([], v)) ++ below.entries

/-- The number of nodes. -/
def count : Edges α V → Nat
  | nil => 0
  | cons _ _ below rest => 1 + below.count + rest.count

def heads : Edges α V → List α
  | nil => []
  | cons label _ _ rest => label.head?.toList ++ rest.heads

/-- No label is empty, the labels out of a node differ in their first symbol, and `P` holds of every
symbol. -/
def Good (P : α → Prop) : Edges α V → Prop
  | nil => True
  | cons label _ below rest =>
    label ≠ [] ∧ (∀ a ∈ label, P a) ∧ (∀ a, label.head? = some a → a ∉ rest.heads) ∧
      below.Good P ∧ rest.Good P

lemma entries_cons (label : List α) (value : Option V) (below rest : Edges α V) :
    (cons label value below rest).entries =
      (nodeEntries value below).map (fun e => (label ++ e.1, e.2)) ++ rest.entries := by
  rw [entries, nodeEntries, List.map_append, List.map_map]
  simp [Function.comp_def]

lemma head?_mem_heads {P : α → Prop} {f : Edges α V} (hgood : f.Good P) {key : List α} {v : V}
    (h : (key, v) ∈ f.entries) : ∃ a ∈ f.heads, key.head? = some a := by
  induction f with
  | nil => simp [entries] at h
  | cons label value below rest _ ih =>
    obtain ⟨hne, -, -, -, hrest⟩ := hgood
    obtain ⟨a, label, rfl⟩ := List.exists_cons_of_ne_nil hne
    rw [entries_cons, List.mem_append] at h
    cases h with
    | inl h =>
      obtain ⟨e, -, heq⟩ := List.mem_map.mp h
      obtain ⟨rfl, -⟩ := Prod.mk.inj heq
      exact ⟨a, by simp [heads], rfl⟩
    | inr h =>
      obtain ⟨b, hb, hkey⟩ := ih hrest h
      exact ⟨b, List.mem_append_right _ hb, hkey⟩

/-! ### Search -/

variable [DecidableEq α]

def find : Edges α V → List α → Option V
  | nil, _ => none
  | cons label value below rest, key =>
    if label <+: key then
      if key.drop label.length = [] then value else below.find (key.drop label.length)
    else rest.find key

/-- The search finds what is stored. -/
lemma find_eq_some_iff {P : α → Prop} {f : Edges α V} (hgood : f.Good P) {key : List α} {v : V} :
    f.find key = some v ↔ (key, v) ∈ f.entries := by
  induction f generalizing key with
  | nil => simp [find, entries]
  | cons label value below rest ihbelow ihrest =>
    obtain ⟨hne, -, hhead, hbelow, hrest⟩ := hgood
    rw [find, entries_cons, List.mem_append, ← ihrest hrest]
    by_cases hpre : label <+: key
    · rw [if_pos hpre]
      obtain ⟨tail, rfl⟩ := hpre
      have hother : rest.find (label ++ tail) ≠ some v := by
        intro hfound
        obtain ⟨a, ha, hkey⟩ := head?_mem_heads hrest ((ihrest hrest).mp hfound)
        rw [List.head?_append_of_ne_nil _ hne] at hkey
        exact hhead a hkey ha
      have hmem : (label ++ tail, v) ∈ (nodeEntries value below).map (fun e => (label ++ e.1, e.2)) ↔
          (tail, v) ∈ nodeEntries value below := by simp
      rw [or_iff_left hother, hmem, List.drop_left, nodeEntries, List.mem_append, ← ihbelow hbelow]
      by_cases htail : tail = []
      · subst htail
        have hnone : ([], v) ∉ below.entries := by
          intro hmem
          obtain ⟨a, -, hkey⟩ := head?_mem_heads hbelow hmem
          simp at hkey
        rw [ihbelow hbelow]
        simp [hnone]
      · simp [htail]
    · rw [if_neg hpre]
      have hother : (key, v) ∉ (nodeEntries value below).map (fun e => (label ++ e.1, e.2)) := by
        intro hmem
        obtain ⟨e, -, heq⟩ := List.mem_map.mp hmem
        exact hpre ⟨e.1, (Prod.mk.inj heq).1⟩
      rw [or_iff_right hother]

lemma find_nil {P : α → Prop} {f : Edges α V} (hgood : f.Good P) : f.find [] = none := by
  rw [Option.eq_none_iff_forall_ne_some]
  intro v hfound
  obtain ⟨a, -, hkey⟩ := head?_mem_heads hgood ((find_eq_some_iff hgood).mp hfound)
  simp at hkey

/-! ### Insertion -/

variable (before : List α → List α → Bool)

/-- A new edge in front of the first one that it is before. -/
def insert : Edges α V → List α → Option V → Edges α V → Edges α V
  | nil, label, value, below => cons label value below nil
  | cons label' value' below' rest, label, value, below =>
    if before label label' then cons label value below (cons label' value' below' rest)
    else cons label' value' below' (insert rest label value below)

/-- A node with a value for a key that no edge shares a symbol with. -/
def place (value : Option V) (below : Edges α V) (key : List α) (v : V) : Option V × Edges α V :=
  if key = [] then (some v, below) else (value, below.insert before key (some v) nil)

def add : Edges α V → List α → V → Option (Edges α V)
  | nil, _, _ => none
  | cons label value below rest, key, v =>
    let common := commonPrefix label key
    if common = label then
      let node :=
        match add below (key.drop common.length) v with
        | some below => (value, below)
        | none => place before value below (key.drop common.length) v
      some (cons label node.1 node.2 rest)
    else if common ≠ [] then
      -- a node in the middle of the edge, whose label starts alike and keeps its place in the order
      let node := place before none (cons (label.drop common.length) value below nil)
        (key.drop common.length) v
      some (cons common node.1 node.2 rest)
    else (add rest key v).map (cons label value below)

variable {before}

omit [DecidableEq α] in
lemma entries_insert (label : List α) (value : Option V) (below f : Edges α V) :
    (f.insert before label value below).entries.Perm (cons label value below f).entries := by
  induction f with
  | nil => exact List.Perm.refl _
  | cons label' value' below' rest _ ih =>
    rw [insert]
    split
    · exact List.Perm.refl _
    · rw [entries_cons, entries_cons, entries_cons]
      refine (List.Perm.append_left _ ih).trans ?_
      rw [entries_cons, ← List.append_assoc, ← List.append_assoc]
      exact List.Perm.append_right _ List.perm_append_comm

omit [DecidableEq α] in
lemma nodeEntries_place {value : Option V} {below : Edges α V} {key : List α} {v : V}
    (hnew : key ∉ (nodeEntries value below).map Prod.fst) :
    (nodeEntries (place before value below key v).1 (place before value below key v).2).Perm
      ((key, v) :: nodeEntries value below) := by
  rw [place]
  split
  · rename_i hkey
    subst hkey
    cases value with
    | none => exact List.Perm.refl _
    | some v' => simp [nodeEntries] at hnew
  · refine (List.Perm.append_left _ (entries_insert _ _ _ _)).trans ?_
    rw [entries_cons, nodeEntries, nodeEntries]
    simp [entries]

lemma entries_add {f f' : Edges α V} {key : List α} {v : V} (h : f.add before key v = some f')
    (hnew : key ∉ f.entries.map Prod.fst) : f'.entries.Perm ((key, v) :: f.entries) := by
  induction f generalizing f' key with
  | nil => simp [add] at h
  | cons label value below rest ihbelow ihrest =>
    rw [add] at h
    rw [entries_cons, List.map_append, List.mem_append, not_or] at hnew
    have hsplit : key = commonPrefix label key ++ key.drop (commonPrefix label key).length :=
      List.prefix_append_drop (commonPrefix_prefix_right label key)
    by_cases hfull : commonPrefix label key = label
    · simp only [hfull, if_true, Option.some.injEq] at h
      subst h
      rw [hfull] at hsplit
      generalize key.drop label.length = tail at hsplit ⊢
      subst hsplit
      have htail : tail ∉ (nodeEntries value below).map Prod.fst := by
        simpa using hnew.1
      have hnode : ∀ node : Option V × Edges α V,
          (nodeEntries node.1 node.2).Perm ((tail, v) :: nodeEntries value below) →
            (cons label node.1 node.2 rest).entries.Perm
              ((label ++ tail, v) :: (cons label value below rest).entries) := by
        intro node hperm
        rw [entries_cons, entries_cons, ← List.cons_append]
        exact List.Perm.append_right _ (hperm.map _)
      apply hnode
      cases hbelow : below.add before tail v with
      | none => exact nodeEntries_place htail
      | some below' =>
        have htail' : tail ∉ below.entries.map Prod.fst := by
          intro hmem
          rw [nodeEntries, List.map_append, List.mem_append, not_or] at htail
          exact htail.2 hmem
        refine (List.Perm.append_left _ (ihbelow hbelow htail')).trans ?_
        exact List.perm_middle
    · rw [if_neg hfull] at h
      by_cases hnil : commonPrefix label key = []
      · rw [if_neg (not_not.mpr hnil)] at h
        obtain ⟨rest', hrest, rfl⟩ := Option.map_eq_some_iff.mp h
        rw [entries_cons, entries_cons]
        refine (List.Perm.append_left _ (ihrest hrest hnew.2)).trans ?_
        exact List.perm_middle
      · rw [if_pos hnil, Option.some.injEq] at h
        subst h
        -- the old label is what is in common and the rest
        have hlabel : label = commonPrefix label key ++ label.drop (commonPrefix label key).length :=
          List.prefix_append_drop (commonPrefix_prefix_left label key)
        generalize commonPrefix label key = common at *
        generalize label.drop common.length = tail at *
        generalize key.drop common.length = keyTail at *
        subst hsplit hlabel
        have hmoved : (nodeEntries none (cons tail value below nil)).map
            (fun e => (common ++ e.1, e.2)) =
              (nodeEntries value below).map (fun e => (common ++ tail ++ e.1, e.2)) := by
          rw [nodeEntries, entries_cons]
          simp [entries, Function.comp_def]
        have hkey : keyTail ∉ (nodeEntries none (cons tail value below nil)).map Prod.fst := by
          intro hmem
          apply hnew.1
          obtain ⟨e, he, hsame⟩ := List.mem_map.mp hmem
          rw [← hmoved]
          exact List.mem_map.mpr ⟨_, List.mem_map.mpr ⟨e, he, rfl⟩, by rw [← hsame]⟩
        rw [entries_cons, entries_cons, ← List.cons_append, ← hmoved]
        exact List.Perm.append_right _ ((nodeEntries_place hkey).map _)

/-! ### Good trees stay good -/

section Good

variable {P : α → Prop}

omit [DecidableEq α] in
lemma mem_heads_insert {f : Edges α V} {label : List α} {value : Option V} {below : Edges α V} {a : α} :
    a ∈ (f.insert before label value below).heads ↔ label.head? = some a ∨ a ∈ f.heads := by
  induction f with
  | nil => simp [insert, heads]
  | cons label' value' below' rest _ ih =>
    rw [insert]
    split
    · simp [heads]
    · rw [heads, heads, List.mem_append, List.mem_append, ih, or_left_comm]

omit [DecidableEq α] in
lemma Good.insert {f : Edges α V} (h : f.Good P) {label : List α} (hne : label ≠ [])
    (hlabel : ∀ a ∈ label, P a) (hhead : ∀ a, label.head? = some a → a ∉ f.heads) (value : Option V)
    {below : Edges α V} (hbelow : below.Good P) : (f.insert before label value below).Good P := by
  induction f with
  | nil => exact ⟨hne, hlabel, hhead, hbelow, trivial⟩
  | cons label' value' below' rest _ ih =>
    rw [Edges.insert]
    split
    · exact ⟨hne, hlabel, hhead, hbelow, h⟩
    · obtain ⟨hne', hlabel', hhead', hbelow', hrest⟩ := h
      refine ⟨hne', hlabel', fun a ha hmem => ?_, hbelow', ih hrest (fun a ha hmem => ?_)⟩
      · cases mem_heads_insert.mp hmem with
        | inl hsame => exact hhead a hsame (List.mem_append_left _ (by simp [ha]))
        | inr hmem => exact hhead' a ha hmem
      · exact hhead a ha (List.mem_append_right _ hmem)

omit [DecidableEq α] in
lemma Good.place {below : Edges α V} (h : below.Good P) {key : List α} (hkey : ∀ a ∈ key, P a)
    (hhead : ∀ a, key.head? = some a → a ∉ below.heads) (value : Option V) (v : V) :
    (Edges.place before value below key v).2.Good P := by
  rw [Edges.place]
  split
  · exact h
  · rename_i hne
    exact h.insert hne hkey hhead (some v) trivial

lemma not_mem_heads_of_add_eq_none {f : Edges α V} (hgood : f.Good P) {key : List α} {v : V}
    (h : f.add before key v = none) {a : α} (ha : key.head? = some a) : a ∉ f.heads := by
  induction f with
  | nil => simp [heads]
  | cons label value below rest _ ih =>
    obtain ⟨hne, -, -, -, hrest⟩ := hgood
    rw [add] at h
    by_cases hfull : commonPrefix label key = label
    · simp [hfull] at h
    · rw [if_neg hfull] at h
      by_cases hnil : commonPrefix label key = []
      · rw [if_neg (not_not.mpr hnil), Option.map_eq_none_iff] at h
        rw [heads, List.mem_append, not_or]
        refine ⟨fun hmem => ?_, ih hrest h⟩
        exact commonPrefix_eq_nil_iff.mp hnil a (by simpa using hmem) ha
      · rw [if_pos hnil] at h
        exact absurd h (Option.some_ne_none _)

lemma heads_add {f f' : Edges α V} {key : List α} {v : V} (h : f.add before key v = some f') :
    f'.heads = f.heads := by
  induction f generalizing f' with
  | nil => simp [add] at h
  | cons label value below rest _ ih =>
    rw [add] at h
    by_cases hfull : commonPrefix label key = label
    · simp only [hfull, if_true, Option.some.injEq] at h
      rw [← h, heads, heads]
    · rw [if_neg hfull] at h
      by_cases hnil : commonPrefix label key = []
      · rw [if_neg (not_not.mpr hnil)] at h
        obtain ⟨rest', hrest, rfl⟩ := Option.map_eq_some_iff.mp h
        rw [heads, heads, ih hrest]
      · rw [if_pos hnil, Option.some.injEq] at h
        obtain ⟨tail, htail⟩ := commonPrefix_prefix_left label key
        rw [← h, heads, heads]
        rw [← htail, List.head?_append_of_ne_nil _ hnil, htail]

/-- Insertion keeps a tree good. -/
lemma Good.add {f f' : Edges α V} (hgood : f.Good P) {key : List α} (hkey : ∀ a ∈ key, P a) {v : V}
    (h : f.add before key v = some f') : f'.Good P := by
  induction f generalizing f' key with
  | nil => simp [Edges.add] at h
  | cons label value below rest ihbelow ihrest =>
    obtain ⟨hne, hlabel, hhead, hbelow, hrest⟩ := hgood
    rw [Edges.add] at h
    have htail : ∀ n, ∀ a ∈ key.drop n, P a := fun n a ha => hkey a (List.mem_of_mem_drop ha)
    by_cases hfull : commonPrefix label key = label
    · simp only [hfull, if_true, Option.some.injEq] at h
      subst h
      refine ⟨hne, hlabel, hhead, ?_, hrest⟩
      cases hadd : below.add before (key.drop label.length) v with
      | none =>
        exact hbelow.place (htail _) (fun a ha => not_mem_heads_of_add_eq_none hbelow hadd ha) value v
      | some below' => exact ihbelow hbelow (htail _) hadd
    · rw [if_neg hfull] at h
      by_cases hnil : commonPrefix label key = []
      · rw [if_neg (not_not.mpr hnil)] at h
        obtain ⟨rest', hrest', rfl⟩ := Option.map_eq_some_iff.mp h
        refine ⟨hne, hlabel, ?_, hbelow, ihrest hrest hkey hrest'⟩
        rw [heads_add hrest']
        exact hhead
      · rw [if_pos hnil, Option.some.injEq] at h
        subst h
        obtain ⟨tail, hsplit⟩ := commonPrefix_prefix_left label key
        have hsame : (commonPrefix label key).head? = label.head? := by
          conv_rhs => rw [← hsplit]
          exact (List.head?_append_of_ne_nil _ hnil).symm
        have hdrop : label.drop (commonPrefix label key).length ≠ [] := by
          intro hdrop
          rw [List.drop_eq_nil_iff] at hdrop
          exact hfull ((commonPrefix_prefix_left label key).eq_of_length_le hdrop)
        refine ⟨hnil, fun a ha => hlabel a ((commonPrefix_prefix_left label key).subset ha),
          by rw [hsame]; exact hhead, ?_, hrest⟩
        have hchild : (cons (label.drop (commonPrefix label key).length) value below nil).Good P :=
          ⟨hdrop, fun a ha => hlabel a (List.mem_of_mem_drop ha), by simp [heads], hbelow, trivial⟩
        refine hchild.place (htail _) (fun a ha hmem => ?_) none v
        have hlast : (label.drop (commonPrefix label key).length).head? = some a := by
          simpa [heads] using hmem
        exact head?_drop_commonPrefix_ne hlast ha

end Good

end Edges

end Dyld.Lib
