import Mathlib

/-!
# Cursors in step

Cursors with keys stand in a list that is sorted by the keys. A merge advances the first one and
moves it to its place. On the way it marks an entry when the entry behind has the same key, so that
later the first entry is marked exactly when it does not stand alone.
-/

namespace Dyld.Lib

variable {ι κ σ : Type} (key : ι → κ)

/-- An entry with a key that matters is marked exactly when the same key comes again behind it. -/
def Flagged (matters : κ → Prop) (flag : ι → Bool) : List ι → Prop
  | [] => True
  | x :: xs => (matters (key x) → (flag x = true ↔ ∃ y ∈ xs, key y = key x)) ∧ Flagged matters flag xs

variable [LinearOrder κ]

/-- Moves an entry behind those with lower keys, up to the first place where the next entry has a
higher key. An entry with the same key as the next is marked. -/
def resort (mark : ι → σ → σ) : ι → List ι → σ → List ι × σ
  | x, [], s => ([x], s)
  | x, y :: ys, s =>
    if key x = key y then
      let r := resort mark y ys (mark x s)
      (x :: r.1, r.2)
    else if key y < key x then
      let r := resort mark x ys s
      (y :: r.1, r.2)
    else (x :: y :: ys, s)

/-- Where the entry goes. -/
def sift : ι → List ι → List ι
  | x, [] => [x]
  | x, y :: ys => if key y < key x then y :: sift x ys else x :: y :: ys

/-- The entries that are marked. -/
def matched : ι → List ι → List ι
  | _, [] => []
  | x, y :: ys =>
    if key x = key y then x :: matched y ys else if key y < key x then matched x ys else []

variable {key} {mark : ι → σ → σ}

lemma sift_perm (x : ι) (L : List ι) : (sift key x L).Perm (x :: L) := by
  induction L with
  | nil => exact List.Perm.refl _
  | cons y ys ih =>
    rw [sift]
    split_ifs
    · exact (ih.cons y).trans (List.Perm.swap x y ys)
    · exact List.Perm.refl _

lemma sift_pairwise (x : ι) {L : List ι} (hL : L.Pairwise fun a b => key a ≤ key b) :
    (sift key x L).Pairwise fun a b => key a ≤ key b := by
  induction L with
  | nil => exact List.pairwise_singleton _ x
  | cons y ys ih =>
    obtain ⟨hy, hys⟩ := List.pairwise_cons.mp hL
    rw [sift]
    split_ifs with hlt
    · refine List.pairwise_cons.mpr ⟨?_, ih hys⟩
      intro a ha
      rcases List.mem_cons.mp ((sift_perm x ys).mem_iff.mp ha) with rfl | ha
      · exact hlt.le
      · exact hy a ha
    · refine List.pairwise_cons.mpr ⟨?_, hL⟩
      intro a ha
      rcases List.mem_cons.mp ha with rfl | ha
      · exact not_lt.mp hlt
      · exact (not_lt.mp hlt).trans (hy a ha)

/-- In a sorted list an entry that is no higher than the first stays in front. -/
lemma sift_of_le {x : ι} {L : List ι} (h : ∀ y ∈ L, key x ≤ key y) : sift key x L = x :: L := by
  cases L with
  | nil => rfl
  | cons y ys => rw [sift, if_neg (h y List.mem_cons_self).not_gt]

lemma resort_eq {x : ι} {L : List ι} (hL : L.Pairwise fun a b => key a ≤ key b) (s : σ) :
    resort key mark x L s = (sift key x L, (matched key x L).foldl (fun s a => mark a s) s) := by
  induction L generalizing x s with
  | nil => rfl
  | cons y ys ih =>
    obtain ⟨hy, hys⟩ := List.pairwise_cons.mp hL
    rw [resort, sift, matched]
    by_cases heq : key x = key y
    · rw [if_pos heq, if_pos heq, if_neg heq.le.not_gt, ih hys, sift_of_le hy]
      rfl
    · rw [if_neg heq, if_neg heq]
      by_cases hlt : key y < key x
      · rw [if_pos hlt, if_pos hlt, if_pos hlt, ih hys]
      · rw [if_neg hlt, if_neg hlt, if_neg hlt]
        rfl

lemma mem_of_mem_matched {x a : ι} {L : List ι} (h : a ∈ matched key x L) :
    a ∈ x :: L ∧ key a = key x := by
  induction L generalizing x with
  | nil => exact absurd h List.not_mem_nil
  | cons y ys ih =>
    rw [matched] at h
    split_ifs at h with heq hlt
    · rcases List.mem_cons.mp h with rfl | h
      · exact ⟨List.mem_cons_self, rfl⟩
      · exact ⟨List.mem_cons_of_mem x (ih h).1, (ih h).2.trans heq.symm⟩
    · refine ⟨?_, (ih h).2⟩
      rcases List.mem_cons.mp (ih h).1 with rfl | hmem
      · exact List.mem_cons_self
      · exact List.mem_cons_of_mem x (List.mem_cons_of_mem y hmem)
    · exact absurd h List.not_mem_nil

/-! ### The marks -/

section Flags

variable {matters : κ → Prop} {flag : ι → Bool}

omit [LinearOrder κ] in
lemma Flagged.congr {key' : ι → κ} {flag' : ι → Bool} {L : List ι} (h : Flagged key matters flag L)
    (hkey : ∀ a ∈ L, key' a = key a) (hflag : ∀ a ∈ L, matters (key a) → flag' a = flag a) :
    Flagged key' matters flag' L := by
  induction L with
  | nil => trivial
  | cons x xs ih =>
    refine ⟨?_, ih h.2 (fun a ha => hkey a (List.mem_cons_of_mem x ha))
      (fun a ha => hflag a (List.mem_cons_of_mem x ha))⟩
    rw [hkey x List.mem_cons_self]
    intro hx
    rw [hflag x List.mem_cons_self hx, h.1 hx]
    constructor
    · rintro ⟨y, hy, hyx⟩
      exact ⟨y, hy, (hkey y (List.mem_cons_of_mem x hy)).trans hyx⟩
    · rintro ⟨y, hy, hyx⟩
      exact ⟨y, hy, (hkey y (List.mem_cons_of_mem x hy)).symm.trans hyx⟩

omit [LinearOrder κ] in
lemma Flagged.mono {matters' : κ → Prop} {L : List ι} (h : Flagged key matters flag L)
    (hle : ∀ a ∈ L, matters' (key a) → matters (key a)) : Flagged key matters' flag L := by
  induction L with
  | nil => trivial
  | cons x xs ih =>
    exact ⟨fun hx => h.1 (hle x List.mem_cons_self hx),
      ih h.2 (fun a ha => hle a (List.mem_cons_of_mem x ha))⟩

/-- What the first entry passes on its way is marked already. -/
lemma flag_of_mem_matched {x a : ι} {L : List ι} (h : Flagged key matters flag (x :: L))
    (ha : a ∈ matched key x L) (hx : matters (key x)) : flag a = true := by
  induction L generalizing x with
  | nil => exact absurd ha List.not_mem_nil
  | cons y ys ih =>
    rw [matched] at ha
    split_ifs at ha with heq hlt
    · rcases List.mem_cons.mp ha with rfl | ha
      · exact (h.1 hx).mpr ⟨y, List.mem_cons_self, heq.symm⟩
      · exact ih h.2 ha (heq ▸ hx)
    · apply ih _ ha hx
      refine ⟨?_, h.2.2⟩
      intro _
      rw [h.1 hx]
      constructor
      · rintro ⟨b, hb, hkey⟩
        rcases List.mem_cons.mp hb with rfl | hb
        · exact absurd hkey hlt.ne
        · exact ⟨b, hb, hkey⟩
      · rintro ⟨b, hb, hkey⟩
        exact ⟨b, List.mem_cons_of_mem y hb, hkey⟩
    · exact absurd ha List.not_mem_nil

/-- Moving an unmarked entry to its place keeps the marks right. -/
lemma Flagged.sift [DecidableEq ι] {x : ι} {L : List ι} (h : Flagged key matters flag L)
    (hL : L.Pairwise fun a b => key a ≤ key b) (hnodup : (x :: L).Nodup)
    (hx : matters (key x) → flag x = false) :
    Flagged key matters (fun a => flag a || decide (a ∈ matched key x L)) (sift key x L) := by
  induction L with
  | nil =>
    refine ⟨?_, trivial⟩
    intro hmatters
    simp [hx hmatters, matched]
  | cons y ys ih =>
    obtain ⟨hy, hys⟩ := List.pairwise_cons.mp hL
    obtain ⟨hxy, hnodup'⟩ := List.nodup_cons.mp hnodup
    have hne : x ≠ y := fun heq => hxy (heq ▸ List.mem_cons_self)
    rw [Lib.sift, matched]
    by_cases heq : key x = key y
    · rw [if_pos heq, if_neg heq.le.not_gt]
      refine ⟨?_, ?_⟩
      · intro _
        simp only [List.mem_cons_self, decide_true, Bool.or_true, true_iff]
        exact ⟨y, List.mem_cons_self, heq.symm⟩
      · apply h.congr (fun _ _ => rfl)
        intro a ha hmatters
        have hax : a ≠ x := fun hax => hxy (hax ▸ ha)
        simp only [List.mem_cons, hax, false_or]
        by_cases hmem : a ∈ matched key y ys
        · have hkey := (mem_of_mem_matched hmem).2
          simp [flag_of_mem_matched h hmem (hkey ▸ hmatters)]
        · simp [hmem]
    · rw [if_neg heq]
      by_cases hlt : key y < key x
      · rw [if_pos hlt, if_pos hlt]
        have hnodup'' : (x :: ys).Nodup :=
          List.nodup_cons.mpr ⟨fun hmem => hxy (List.mem_cons_of_mem y hmem), (List.nodup_cons.mp hnodup').2⟩
        refine ⟨?_, ih h.2 hys hnodup''⟩
        intro hmatters
        have hmem : y ∉ matched key x ys := fun hmem => hlt.ne (mem_of_mem_matched hmem).2
        simp only [hmem, decide_false, Bool.or_false]
        rw [h.1 hmatters]
        constructor
        · rintro ⟨b, hb, hkey⟩
          exact ⟨b, (sift_perm x ys).mem_iff.mpr (List.mem_cons_of_mem x hb), hkey⟩
        · rintro ⟨b, hb, hkey⟩
          rcases List.mem_cons.mp ((sift_perm x ys).mem_iff.mp hb) with rfl | hb
          · exact absurd hkey heq
          · exact ⟨b, hb, hkey⟩
      · rw [if_neg hlt, if_neg hlt]
        have hlt' : key x < key y := lt_of_le_of_ne (not_lt.mp hlt) heq
        refine ⟨?_, ?_⟩
        · intro hmatters
          simp only [List.not_mem_nil, decide_false, Bool.or_false, hx hmatters, Bool.false_eq_true,
            false_iff]
          rintro ⟨b, hb, hkey⟩
          rcases List.mem_cons.mp hb with rfl | hb
          · exact heq hkey.symm
          · exact (hlt'.trans_le (hy b hb)).ne' hkey
        · exact h.congr (fun _ _ => rfl) (fun a _ _ => by simp)

end Flags

/-! ### What is still to come -/

section Above

variable {α : Type} {value : α → κ}

def above (value : α → κ) (lo : κ) (items : List α) : List α :=
  items.filter fun a => decide (lo < value a)

lemma mem_above {lo : κ} {a : α} {items : List α} :
    a ∈ above value lo items ↔ a ∈ items ∧ lo < value a := by
  rw [above, List.mem_filter, decide_eq_true_eq]

lemma above_eq_cons {lo : κ} {a : α} {items : List α}
    (hsorted : items.Pairwise fun a b => value a < value b) (ha : a ∈ items) (hlo : lo < value a)
    (hnone : ∀ b ∈ items, lo < value b → value a ≤ value b) :
    above value lo items = a :: above value (value a) items := by
  induction items with
  | nil => exact absurd ha List.not_mem_nil
  | cons c items ih =>
    obtain ⟨hc, hitems⟩ := List.pairwise_cons.mp hsorted
    have hrest : ∀ b ∈ items, lo < value b → value a ≤ value b := fun b hb =>
      hnone b (List.mem_cons_of_mem c hb)
    rw [above, above, List.filter_cons, List.filter_cons]
    rcases List.mem_cons.mp ha with rfl | hmem
    · have hall : ∀ b ∈ items, decide (lo < value b) = true := fun b hb =>
        decide_eq_true (hlo.trans (hc b hb))
      have hall' : ∀ b ∈ items, decide (value a < value b) = true := fun b hb =>
        decide_eq_true (hc b hb)
      rw [if_pos (decide_eq_true hlo), if_neg (by simp), List.filter_eq_self.mpr hall,
        List.filter_eq_self.mpr hall']
    · have hca : value c < value a := hc a hmem
      have hlo' : ¬lo < value c := fun hlt => hca.not_ge (hnone c List.mem_cons_self hlt)
      rw [if_neg (by simpa using hlo'), if_neg (by simpa using hca.le)]
      exact ih hitems hmem hrest

lemma above_congr {lo lo' : κ} {items : List α} (hle : lo ≤ lo')
    (hnone : ∀ a ∈ items, lo < value a → lo' < value a) :
    above value lo items = above value lo' items := by
  apply List.filter_congr
  intro a ha
  rw [decide_eq_decide]
  exact ⟨hnone a ha, hle.trans_lt⟩

end Above

end Dyld.Lib
