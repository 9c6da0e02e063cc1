import Dyld.Lib.Patch

/-!
# Chains encoded in memory

A memory that holds several chains at once, as an encoder leaves it, and the walk over all of
them. `Encoding` relates the memory before and after an encoder: the chains are threaded
through words that share no byte, each word stands for the one it replaced, and every other
byte is as before.
-/

namespace Dyld.Lib

/-- The first location of a chain and the locations linked after it. -/
abbrev Chain := Nat × List Nat

def locations (chains : List Chain) : List Nat := chains.flatMap (fun c => c.1 :: c.2)

@[simp] lemma locations_nil : locations [] = [] := rfl

@[simp] lemma locations_cons (c : Chain) (chains : List Chain) :
    locations (c :: chains) = (c.1 :: c.2) ++ locations chains := rfl

@[simp] lemma locations_append (chains chains' : List Chain) :
    locations (chains ++ chains') = locations chains ++ locations chains' :=
  List.flatMap_append

lemma mem_locations_of_mem {chains : List Chain} {c : Chain} (hc : c ∈ chains) {a : Nat}
    (ha : a ∈ c.1 :: c.2) : a ∈ locations chains :=
  List.mem_flatMap.mpr ⟨c, hc, ha⟩

section WalkAll

variable {σ W : Type} (next : W → Nat) (read : σ → Nat → W) (handler : σ → Nat → σ × Bool)

def walkAll (fuel : Nat) : σ → List Nat → Option (σ × Bool)
  | s, [] => some (s, false)
  | s, a :: starts =>
    match walk next read handler fuel s a with
    | none => none
    | some r => if r.2 then some r else walkAll fuel r.1 starts

variable {next read handler}

lemma walkAll_append {fuel : Nat} {s : σ} {starts starts' : List Nat} :
    walkAll next read handler fuel s (starts ++ starts') =
      (walkAll next read handler fuel s starts).bind (fun r =>
        if r.2 then some r else walkAll next read handler fuel r.1 starts') := by
  induction starts generalizing s with
  | nil => rfl
  | cons a starts ih =>
    simp only [List.cons_append, walkAll]
    cases hw : walk next read handler fuel s a with
    | none => rfl
    | some r =>
      by_cases hr : r.2 = true
      · simp [hr]
      · simp only [hr, Bool.false_eq_true, if_false]
        exact ih

/-- Visiting some locations leaves the contents of the others as they were. -/
lemma read_feed {all l : List Nat} {s : σ} {y : Nat}
    (hframe : ∀ s, ∀ x ∈ all, ∀ y ∈ all, x ≠ y → read (handler s x).1 y = read s y)
    (hl : ∀ x ∈ l, x ∈ all) (hy : y ∈ all) (hyl : y ∉ l) :
    read (feed handler s l).1 y = read s y := by
  induction l generalizing s with
  | nil => rfl
  | cons a l ih =>
    have hne : a ≠ y := fun h => hyl (h ▸ List.mem_cons_self)
    have ha : read (handler s a).1 y = read s y := hframe s a (hl a (by simp)) y hy hne
    rw [feed_cons]
    split
    · exact ha
    · rw [ih (fun x hx => hl x (List.mem_cons_of_mem a hx))
        (fun h => hyl (List.mem_cons_of_mem a h)), ha]

theorem walkAll_threaded {chains : List Chain} {s : σ} {fuel : Nat} (hnd : (locations chains).Nodup)
    (hframe : ∀ s, ∀ x ∈ locations chains, ∀ y ∈ locations chains, x ≠ y →
      read (handler s x).1 y = read s y)
    (h : ∀ c ∈ chains, Threaded next (read s) c.1 c.2) (hf : (locations chains).length ≤ fuel) :
    walkAll next read handler fuel s (chains.map Prod.fst) =
      some (feed handler s (locations chains)) := by
  induction chains generalizing s with
  | nil => rfl
  | cons c chains ih =>
    rw [locations_cons, List.nodup_append'] at hnd
    obtain ⟨hndc, hndr, hdisj⟩ := hnd
    have hin : ∀ x ∈ c.1 :: c.2, x ∈ locations (c :: chains) :=
      fun x hx => mem_locations_of_mem (by simp) hx
    have hrest : ∀ x ∈ locations chains, x ∈ locations (c :: chains) := by
      intro x hx
      rw [locations_cons]
      exact List.mem_append_right _ hx
    have hlen : (c.1 :: c.2).length + (locations chains).length ≤ fuel := by
      rw [locations_cons, List.length_append] at hf
      exact hf
    have hw : walk next read handler fuel s c.1 = some (feed handler s (c.1 :: c.2)) := by
      apply walk_threaded hndc
      · intro t x hx y hy hxy
        exact hframe t x (hin x hx) y (hin y hy) hxy
      · exact h c (by simp)
      · simp only [List.length_cons] at hlen
        omega
    simp only [List.map_cons, walkAll, hw]
    rw [locations_cons, feed_append]
    split
    · rfl
    · apply ih hndr
      · intro t x hx y hy hxy
        exact hframe t x (hrest x hx) y (hrest y hy) hxy
      · intro d hd
        apply (h d (List.mem_cons_of_mem c hd)).congr
        intro y hy
        have hyr : y ∈ locations chains := mem_locations_of_mem hd hy
        exact (read_feed hframe hin (hrest y hyr) (fun hyc => hdisj hyc hyr)).symm
      · omega

end WalkAll

section Encoding

variable {n : Nat}

/-- Memory `m'` holds the chains, each word of them standing for the word of `m` at the same
place, and is equal to `m` everywhere else. -/
structure Encoding (n : Nat) (next : BitVec (8 * n) → Nat)
    (word : Nat → BitVec (8 * n) → BitVec (8 * n) → Prop) (m m' : Mem) (chains : List Chain) :
    Prop where
  apart : (locations chains).Pairwise (Apart n)
  threaded : ∀ c ∈ chains, Threaded next (load n m') c.1 c.2
  words : ∀ a ∈ locations chains, word a (load n m a) (load n m' a)
  frame : ∀ x, (∀ a ∈ locations chains, ¬InWord n a x) → m' x = m x

namespace Encoding

variable {next : BitVec (8 * n) → Nat} {word : Nat → BitVec (8 * n) → BitVec (8 * n) → Prop}
  {m m₁ m₂ : Mem} {chains chains' : List Chain}

lemma nil (m : Mem) : Encoding n next word m m [] :=
  ⟨List.Pairwise.nil, by simp, by simp, fun _ _ => rfl⟩

lemma load_eq {a : Nat} (h : Encoding n next word m m₁ chains)
    (ha : ∀ b ∈ locations chains, Apart n b a) : load n m₁ a = load n m a := by
  apply load_congr
  intro x hx
  exact h.frame x (fun b hb => (ha b hb).symm.not_inWord hx)

lemma append (h₁ : Encoding n next word m m₁ chains) (h₂ : Encoding n next word m₁ m₂ chains')
    (hap : ∀ a ∈ locations chains, ∀ b ∈ locations chains', Apart n a b) :
    Encoding n next word m m₂ (chains ++ chains') := by
  have hold : ∀ a ∈ locations chains, load n m₂ a = load n m₁ a :=
    fun a ha => h₂.load_eq (fun b hb => (hap a ha b hb).symm)
  have hnew : ∀ b ∈ locations chains', load n m₁ b = load n m b :=
    fun b hb => h₁.load_eq (fun a ha => hap a ha b hb)
  constructor
  · rw [locations_append, List.pairwise_append]
    exact ⟨h₁.apart, h₂.apart, hap⟩
  · intro c hc
    rcases List.mem_append.mp hc with hc | hc
    · apply (h₁.threaded c hc).congr
      intro b hb
      exact (hold b (mem_locations_of_mem hc hb)).symm
    · exact h₂.threaded c hc
  · intro a ha
    rw [locations_append] at ha
    rcases List.mem_append.mp ha with ha | ha
    · rw [hold a ha]
      exact h₁.words a ha
    · rw [← hnew a ha]
      exact h₂.words a ha
  · intro x hx
    rw [locations_append] at hx
    rw [h₂.frame x (fun a ha => hx a (List.mem_append_right _ ha)),
      h₁.frame x (fun a ha => hx a (List.mem_append_left _ ha))]

/-- One word that ends a chain. -/
lemma single {a : Nat} {w : BitVec (8 * n)} (h0 : next w = 0) (hw : word a (load n m a) w) :
    Encoding n next word m (store n m a w) [(a, [])] := by
  constructor
  · simp
  · simpa [Threaded] using h0
  · simpa using hw
  · intro x hx
    exact store_apply_of_not_inWord (hx a (by simp))

lemma link {a b : Nat} {l : List Nat} {w : BitVec (8 * n)}
    (h : Encoding n next word (store n m a w) m₂ ((b, l) :: chains))
    (hap : ∀ c ∈ locations ((b, l) :: chains), Apart n a c) (h0 : next w ≠ 0)
    (hb : a + next w = b) (hw : word a (load n m a) w) :
    Encoding n next word m m₂ ((a, b :: l) :: chains) := by
  have ha : load n m₂ a = w := by
    rw [h.load_eq (fun c hc => (hap c hc).symm), load_store_same]
  have hloc : locations ((a, b :: l) :: chains) = a :: locations ((b, l) :: chains) := by simp
  constructor
  · rw [hloc]
    exact List.Pairwise.cons hap h.apart
  · intro c hc
    rcases List.mem_cons.mp hc with rfl | hc
    · refine ⟨?_, ?_, h.threaded (b, l) (by simp)⟩
      · rw [ha]
        exact h0
      · rw [ha]
        exact hb
    · exact h.threaded c (List.mem_cons_of_mem _ hc)
  · intro c hc
    rw [hloc] at hc
    rcases List.mem_cons.mp hc with rfl | hc
    · rw [ha]
      exact hw
    · rw [← load_store_apart (v := w) (hap c hc)]
      exact h.words c hc
  · intro x hx
    rw [hloc] at hx
    rw [h.frame x (fun c hc => hx c (List.mem_cons_of_mem a hc))]
    exact store_apply_of_not_inWord (hx a (by simp))

/-- A chain is extended: its last location `z` is linked to a word that ends it. -/
lemma concat {a z b : Nat} {l : List Nat} {v w : BitVec (8 * n)} (hn : 0 < n)
    (h : Encoding n next word m m₁ [(a, l)]) (hz : (a :: l).getLast? = some z)
    (hap : ∀ c ∈ a :: l, Apart n c b) (h0 : next v ≠ 0) (hb : z + next v = b)
    (hv : word z (load n m z) v) (hend : next w = 0) (hw : word b (load n m b) w) :
    Encoding n next word m (store n (store n m₁ z v) b w) [(a, l ++ [b])] := by
  have hloc : locations [(a, l)] = a :: l := by simp
  have hloc' : locations [(a, l ++ [b])] = (a :: l) ++ [b] := by simp
  have hapart : (a :: l).Pairwise (Apart n) := by simpa using h.apart
  have hzmem : z ∈ a :: l := List.mem_of_getLast? hz
  have hzload : load n (store n (store n m₁ z v) b w) z = v := by
    rw [load_store_apart (hap z hzmem).symm, load_store_same]
  have hrest : ∀ x ∈ a :: l, x ≠ z → load n (store n (store n m₁ z v) b w) x = load n m₁ x := by
    intro x hx hxz
    rw [load_store_apart (hap x hx).symm, load_store_apart (apart_of_mem hapart hzmem hx hxz.symm)]
  constructor
  · rw [hloc', List.pairwise_append]
    exact ⟨hapart, by simp, fun x hx y hy => by rw [List.mem_singleton.mp hy]; exact hap x hx⟩
  · intro c hc
    obtain rfl := List.mem_singleton.mp hc
    apply (h.threaded (a, l) (by simp)).concat hz (nodup_of_pairwise_apart hn hapart) hrest
    · rwa [hzload]
    · rwa [hzload]
    · rwa [load_store_same]
  · intro x hx
    rw [hloc'] at hx
    rcases List.mem_append.mp hx with hx | hx
    · by_cases hxz : x = z
      · rw [hxz, hzload]
        exact hv
      · rw [hrest x hx hxz]
        exact h.words x (by rwa [hloc])
    · rw [List.mem_singleton.mp hx, load_store_same]
      exact hw
  · intro x hx
    rw [hloc'] at hx
    rw [store_apply_of_not_inWord (hx b (by simp)),
      store_apply_of_not_inWord (hx z (List.mem_append_left _ hzmem))]
    exact h.frame x (fun c hc => hx c (List.mem_append_left _ (by rwa [hloc] at hc)))

theorem walkAll_patch {ε : Type} {value : Nat → BitVec (8 * n) → Except ε (BitVec (8 * n))}
    {val : Nat → BitVec (8 * n)} {fuel : Nat} (hn : 0 < n) (h : Encoding n next word m m₁ chains)
    (hv : ∀ a ∈ locations chains, value a (load n m₁ a) = .ok (val a))
    (hf : (locations chains).length ≤ fuel) :
    walkAll next (fun s => load n s.mem) (patch value) fuel ⟨m₁, none, []⟩ (chains.map Prod.fst) =
      some (⟨storeAll n m₁ ((locations chains).map (fun a => (a, val a))), none, locations chains⟩,
        false) := by
  have hframe : ∀ s : Patching ε, ∀ x ∈ locations chains, ∀ y ∈ locations chains, x ≠ y →
      load n (patch value s x).1.mem y = load n s.mem y := by
    intro s x hx y hy hxy
    exact load_patch_apart (apart_of_mem h.apart hx hy hxy)
  have hw : walkAll next (fun s : Patching ε => load n s.mem) (patch value) fuel ⟨m₁, none, []⟩
      (chains.map Prod.fst) = some (feed (patch value) ⟨m₁, none, []⟩ (locations chains)) :=
    walkAll_threaded (nodup_of_pairwise_apart hn h.apart) hframe h.threaded hf
  rw [hw, feed_patch_ok h.apart hv]
  simp

/-- What the patched memory holds: the new value of each word, and every other byte as it was
before the encoder ran. -/
lemma load_patched (h : Encoding n next word m m₁ chains) (val : Nat → BitVec (8 * n)) {a : Nat}
    (ha : a ∈ locations chains) :
    load n (storeAll n m₁ ((locations chains).map (fun a => (a, val a)))) a = val a := by
  have hmap : ((locations chains).map (fun a => (a, val a))).map Prod.fst = locations chains := by
    simp [Function.comp_def]
  have hmem : (a, val a) ∈ (locations chains).map (fun a => (a, val a)) :=
    List.mem_map.mpr ⟨a, ha, rfl⟩
  exact load_storeAll_mem (by rw [hmap]; exact h.apart) hmem

lemma patched_apply (h : Encoding n next word m m₁ chains) (val : Nat → BitVec (8 * n)) {x : Nat}
    (hx : ∀ a ∈ locations chains, ¬InWord n a x) :
    storeAll n m₁ ((locations chains).map (fun a => (a, val a))) x = m x := by
  rw [storeAll_apply, h.frame x hx]
  intro w hw
  obtain ⟨a, ha, rfl⟩ := List.mem_map.mp hw
  exact hx a ha

lemma length_locations_le (hn : 0 < n) (h : Encoding n next word m m₁ chains) {size : Nat}
    (hlt : ∀ a ∈ locations chains, a < size) : (locations chains).length ≤ size := by
  have hsub : locations chains ⊆ List.range size := fun a ha => List.mem_range.mpr (hlt a ha)
  have hle := ((nodup_of_pairwise_apart hn h.apart).subperm hsub).length_le
  rwa [List.length_range] at hle

end Encoding

end Encoding

end Dyld.Lib
