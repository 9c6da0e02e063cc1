import Dyld.Cache.StringPool

/-!
# Pools of paths

`PathPool` packs strings into blocks of one size, each of which leads to the next one. A string goes
into the first block that has room for it. One that is longer than a block has room nowhere, and the
search for a block never ends.
-/

namespace Dyld.Closure

open Dyld.Cache

abbrev Path := List UInt8

def chars (literal : String) : Path := literal.toList.map (fun c => UInt8.ofNat c.toNat)

/-- `kAllocationSize - sizeof(PathPool)`. -/
def blockCapacity : Nat := 32 * 1024 - 24

structure PoolBlock where
  buffer : List UInt8
  bytesFree : Nat
  full : buffer.length + bytesFree = blockCapacity

namespace PoolBlock

variable (block : PoolBlock)

/-- A block that has just been allocated. -/
def empty : PoolBlock := ⟨[], blockCapacity, Nat.zero_add _⟩

/-- `strcpy` to `_current`. -/
def push (path : Path) (h : path.length + 1 < block.bytesFree) : PoolBlock where
  buffer := block.buffer ++ (path ++ [0])
  bytesFree := block.bytesFree - (path.length + 1)
  full := by
    have hfull := block.full
    rw [List.length_append, List.length_append, List.length_singleton]
    omega

def forEachPathFrom {σ : Type} (handler : σ → Path → σ) (state : σ) : List UInt8 → σ
  | [] => state
  | c :: s =>
    let path := cString (c :: s) 0
    forEachPathFrom handler (handler state path) (s.drop path.length)
termination_by s => s.length

def containsFrom (path : Path) : List UInt8 → Bool
  | [] => false
  | c :: s =>
    let string := cString (c :: s) 0
    if string = path then true else containsFrom path (s.drop string.length)
termination_by s => s.length

end PoolBlock

structure PathPool where
  this : PoolBlock
  next : List PoolBlock

/-- A `char*` into a pool. -/
structure PoolPointer where
  block : Nat
  offset : Nat
  deriving DecidableEq, Repr

namespace PathPool

def allocate : PathPool := ⟨.empty, []⟩

def blocks (pool : PathPool) : List PoolBlock := pool.this :: pool.next

/-- `_next`, which is allocated if it is null. -/
def nextPool (pool : PathPool) : PathPool :=
  match pool.next with
  | [] => allocate
  | block :: blocks => ⟨block, blocks⟩

def add : Nat → PathPool → Path → Option (PathPool × PoolPointer)
  | 0, _, _ => none
  | fuel + 1, pool, path =>
    if h : path.length + 1 < pool.this.bytesFree then
      some (⟨pool.this.push path h, pool.next⟩, ⟨0, pool.this.buffer.length⟩)
    else
      (add fuel pool.nextPool path).map (fun r =>
        (⟨pool.this, r.1.blocks⟩, ⟨r.2.block + 1, r.2.offset⟩))

def forEachPath {σ : Type} (handler : σ → Path → σ) (state : σ) (pool : PathPool) : σ :=
  pool.blocks.foldl (fun state block => PoolBlock.forEachPathFrom handler state block.buffer) state

def contains (pool : PathPool) (path : Path) : Bool :=
  pool.blocks.any (fun block => PoolBlock.containsFrom path block.buffer)

def stringAt (pool : PathPool) (p : PoolPointer) : Path :=
  cString ((pool.blocks[p.block]?.map PoolBlock.buffer).getD []) p.offset

/-- The pool and the result of each call, one after the other. -/
def addAll (fuel : Nat) : PathPool → List Path → Option (List (PathPool × PoolPointer))
  | _, [] => some []
  | pool, path :: paths =>
    (add fuel pool path).bind (fun r => (addAll fuel r.1 paths).map (r :: ·))

end PathPool

/-! ### Strings in a block -/

def terminated (paths : List Path) : List UInt8 := paths.flatMap (· ++ [0])

lemma terminated_cons (path : Path) (paths : List Path) :
    terminated (path :: paths) = path ++ 0 :: terminated paths := by
  simp [terminated]

lemma terminated_append (paths paths' : List Path) :
    terminated (paths ++ paths') = terminated paths ++ terminated paths' := List.flatMap_append

section Strings

variable {path : Path} {paths : List Path}

/-- The loops go from one string to the next. -/
lemma exists_cons_of_path (hpath : 0 ∉ path) (rest : List UInt8) :
    ∃ c s, path ++ 0 :: rest = c :: s ∧ cString (c :: s) 0 = path ∧ s.drop path.length = rest := by
  have hstring : cString (path ++ 0 :: rest) 0 = path := by
    have hread : cString ([] ++ (path ++ [0]) ++ rest) ([] : List UInt8).length = path :=
      cString_append hpath
    simpa using hread
  cases path with
  | nil => exact ⟨0, rest, rfl, hstring, rfl⟩
  | cons c path => exact ⟨c, path ++ 0 :: rest, rfl, hstring, by simp⟩

lemma forEachPathFrom_terminated {σ : Type} (handler : σ → Path → σ) (state : σ)
    (hpaths : ∀ path ∈ paths, 0 ∉ path) :
    PoolBlock.forEachPathFrom handler state (terminated paths) = paths.foldl handler state := by
  induction paths generalizing state with
  | nil => rw [terminated, List.flatMap_nil, PoolBlock.forEachPathFrom, List.foldl_nil]
  | cons path paths ih =>
    obtain ⟨hpath, hrest⟩ := List.forall_mem_cons.mp hpaths
    obtain ⟨c, s, hcons, hstring, hdrop⟩ := exists_cons_of_path hpath (terminated paths)
    rw [terminated_cons, hcons, PoolBlock.forEachPathFrom, hstring, hdrop, ih _ hrest, List.foldl_cons]

lemma containsFrom_terminated (hpaths : ∀ path ∈ paths, 0 ∉ path) :
    PoolBlock.containsFrom path (terminated paths) = decide (path ∈ paths) := by
  induction paths with
  | nil => simp [terminated, PoolBlock.containsFrom]
  | cons path' paths ih =>
    obtain ⟨hpath, hrest⟩ := List.forall_mem_cons.mp hpaths
    obtain ⟨c, s, hcons, hstring, hdrop⟩ := exists_cons_of_path hpath (terminated paths)
    rw [terminated_cons, hcons, PoolBlock.containsFrom, hstring, hdrop, ih hrest]
    by_cases hsame : path' = path
    · simp [hsame]
    · simp [hsame, Ne.symm hsame]

end Strings

/-! ### What a pool holds -/

namespace PathPool

/-- The strings of each block. -/
structure Holds (pool : PathPool) (contents : List (List Path)) : Prop where
  buffers : pool.blocks.map PoolBlock.buffer = contents.map terminated
  noNul : ∀ paths ∈ contents, ∀ path ∈ paths, 0 ∉ path

/-- Blocks keep what is in them. -/
def Extends (pool pool' : PathPool) : Prop :=
  ∀ (k : Nat) (block : PoolBlock), pool.blocks[k]? = some block →
    ∃ block', pool'.blocks[k]? = some block' ∧ block.buffer <+: block'.buffer

def StandsAt (pool : PathPool) (p : PoolPointer) (path : Path) : Prop :=
  ∃ block before after, pool.blocks[p.block]? = some block ∧
    block.buffer = before ++ (path ++ [0]) ++ after ∧ before.length = p.offset

section Add

variable {pool pool' : PathPool} {path : Path} {p : PoolPointer}

lemma StandsAt.stringAt_eq (h : StandsAt pool p path) (hpath : 0 ∉ path) : pool.stringAt p = path := by
  obtain ⟨block, before, after, hblock, hbuffer, hoffset⟩ := h
  rw [stringAt, hblock, Option.map_some, Option.getD_some, hbuffer, ← hoffset]
  exact cString_append hpath

lemma StandsAt.of_extends (h : StandsAt pool p path) (hextends : Extends pool pool') :
    StandsAt pool' p path := by
  obtain ⟨block, before, after, hblock, hbuffer, hoffset⟩ := h
  obtain ⟨block', hblock', more, hmore⟩ := hextends _ _ hblock
  refine ⟨block', before, after ++ more, hblock', ?_, hoffset⟩
  rw [← hmore, hbuffer, List.append_assoc _ after more]

lemma Extends.trans {pool'' : PathPool} (h : Extends pool pool') (h' : Extends pool' pool'') :
    Extends pool pool'' := by
  intro k block hblock
  obtain ⟨block', hblock', hprefix⟩ := h k block hblock
  obtain ⟨block'', hblock'', hprefix'⟩ := h' k block' hblock'
  exact ⟨block'', hblock'', hprefix.trans hprefix'⟩

lemma Holds.forEachPath_eq {contents : List (List Path)} (h : pool.Holds contents) {σ : Type}
    (handler : σ → Path → σ) (state : σ) :
    pool.forEachPath handler state = contents.flatten.foldl handler state := by
  have hblocks : pool.forEachPath handler state =
      (pool.blocks.map PoolBlock.buffer).foldl (PoolBlock.forEachPathFrom handler) state := by
    rw [List.foldl_map, forEachPath]
  have hnoNul := h.noNul
  rw [hblocks, h.buffers]
  clear hblocks h
  induction contents generalizing state with
  | nil => rfl
  | cons paths contents ih =>
    obtain ⟨hpaths, hrest⟩ := List.forall_mem_cons.mp hnoNul
    rw [List.map_cons, List.foldl_cons, forEachPathFrom_terminated handler state hpaths, ih _ hrest,
      List.flatten_cons, List.foldl_append]

lemma Holds.contains_eq {contents : List (List Path)} (h : pool.Holds contents) (path : Path) :
    pool.contains path = decide (path ∈ contents.flatten) := by
  have hblocks : pool.contains path =
      (pool.blocks.map PoolBlock.buffer).any (PoolBlock.containsFrom path) := by
    rw [List.any_map, contains]
    rfl
  have hnoNul := h.noNul
  rw [hblocks, h.buffers]
  clear hblocks h
  induction contents with
  | nil => rfl
  | cons paths contents ih =>
    obtain ⟨hpaths, hrest⟩ := List.forall_mem_cons.mp hnoNul
    rw [List.map_cons, List.any_cons, containsFrom_terminated hpaths, ih hrest, List.flatten_cons]
    simp only [List.mem_append, Bool.decide_or]

/-- A string that is too long for a block goes into none. -/
lemma add_eq_none (hlong : blockCapacity ≤ path.length + 1) (fuel : Nat) : add fuel pool path = none := by
  induction fuel generalizing pool with
  | zero => rfl
  | succ fuel ih =>
    have hfull := pool.this.full
    rw [add, dif_neg (by omega), ih]
    rfl

/-- What a call does to a pool. -/
structure Added (contents : List (List Path)) (pool : PathPool) (path : Path)
    (r : PathPool × PoolPointer) : Prop where
  holds : ∃ contents', r.1.Holds contents' ∧ contents'.flatten.Perm (path :: contents.flatten)
  stands : StandsAt r.1 r.2 path
  kept : Extends pool r.1

lemma added_this {contents : List (List Path)} (h : pool.Holds contents) (hpath : 0 ∉ path)
    (hfits : path.length + 1 < pool.this.bytesFree) :
    Added contents pool path (⟨pool.this.push path hfits, pool.next⟩, ⟨0, pool.this.buffer.length⟩) := by
  obtain ⟨this, next⟩ := pool
  obtain ⟨hbuffers, hnoNul⟩ := h
  cases contents with
  | nil => simp [blocks] at hbuffers
  | cons paths contents =>
    rw [blocks, List.map_cons, List.map_cons, List.cons.injEq] at hbuffers
    obtain ⟨hpaths, hrest⟩ := List.forall_mem_cons.mp hnoNul
    refine ⟨⟨(paths ++ [path]) :: contents, ⟨?_, ?_⟩, ?_⟩, ?_, ?_⟩
    · rw [blocks, List.map_cons, List.map_cons, terminated_append, ← hbuffers.1, hbuffers.2]
      simp [PoolBlock.push, terminated]
    · refine List.forall_mem_cons.mpr ⟨fun path' hmem => ?_, hrest⟩
      cases List.mem_append.mp hmem with
      | inl hmem => exact hpaths path' hmem
      | inr hmem => rwa [List.mem_singleton.mp hmem]
    · rw [List.flatten_cons, List.flatten_cons, List.append_assoc]
      exact List.perm_middle
    · exact ⟨_, this.buffer, [], rfl, by simp [PoolBlock.push], rfl⟩
    · intro k block hblock
      cases k with
      | zero =>
        obtain rfl : this = block := by simpa [blocks] using hblock
        exact ⟨_, rfl, List.prefix_append _ _⟩
      | succ k => exact ⟨block, hblock, List.prefix_refl _⟩

lemma Holds.nextPool {paths : List Path} {contents : List (List Path)}
    (h : pool.Holds (paths :: contents)) :
    ∃ contents', pool.nextPool.Holds contents' ∧ contents'.flatten = contents.flatten := by
  obtain ⟨this, next⟩ := pool
  obtain ⟨hbuffers, hnoNul⟩ := h
  rw [blocks, List.map_cons, List.map_cons, List.cons.injEq] at hbuffers
  obtain ⟨-, hrest⟩ := List.forall_mem_cons.mp hnoNul
  cases next with
  | nil =>
    obtain rfl : contents = [] := by simpa using hbuffers.2
    exact ⟨[[]], ⟨rfl, by simp⟩, rfl⟩
  | cons block next => exact ⟨contents, ⟨hbuffers.2, hrest⟩, rfl⟩

lemma added_next {contents : List (List Path)} (h : pool.Holds contents) {r : PathPool × PoolPointer}
    (hnext : ∀ contents', pool.nextPool.Holds contents' → Added contents' pool.nextPool path r) :
    Added contents pool path (⟨pool.this, r.1.blocks⟩, ⟨r.2.block + 1, r.2.offset⟩) := by
  cases contents with
  | nil =>
    have hbuffers := h.buffers
    simp [blocks] at hbuffers
  | cons paths contents =>
    obtain ⟨contents₁, hholds₁, hflatten⟩ := h.nextPool
    obtain ⟨⟨contents₂, hholds₂, hperm⟩, hstands, hkept⟩ := hnext contents₁ hholds₁
    have hthis := h.buffers
    rw [blocks, List.map_cons, List.map_cons, List.cons.injEq] at hthis
    obtain ⟨hpaths, -⟩ := List.forall_mem_cons.mp h.noNul
    refine ⟨⟨paths :: contents₂, ⟨?_, List.forall_mem_cons.mpr ⟨hpaths, hholds₂.noNul⟩⟩, ?_⟩, ?_, ?_⟩
    · rw [blocks, List.map_cons, List.map_cons, ← hholds₂.buffers, hthis.1]
    · rw [List.flatten_cons, List.flatten_cons, ← hflatten]
      exact (hperm.append_left paths).trans List.perm_middle
    · obtain ⟨block, before, after, hblock, hbuffer, hoffset⟩ := hstands
      exact ⟨block, before, after, hblock, hbuffer, hoffset⟩
    · intro k block hblock
      cases k with
      | zero => exact ⟨block, hblock, List.prefix_refl _⟩
      | succ k =>
        have hnextblock : pool.nextPool.blocks[k]? = some block := by
          obtain ⟨this, next⟩ := pool
          cases next with
          | nil => simp [blocks] at hblock
          | cons block' next => exact hblock
        exact hkept k block hnextblock

lemma exists_add (pool : PathPool) (hpath : 0 ∉ path) (hfits : path.length + 1 < blockCapacity) :
    ∃ fuel r, add fuel pool path = some r ∧ ∀ contents, pool.Holds contents → Added contents pool path r := by
  obtain ⟨this, next⟩ := pool
  induction next generalizing this with
  | nil =>
    by_cases hroom : path.length + 1 < this.bytesFree
    · exact ⟨1, _, dif_pos hroom, fun contents h => added_this h hpath hroom⟩
    · have hnext : add 1 (nextPool ⟨this, []⟩) path = some _ := dif_pos hfits
      refine ⟨2, _, ?_, fun contents h => added_next h (fun contents' h' => added_this h' hpath hfits)⟩
      rw [add, dif_neg hroom, hnext]
      rfl
  | cons block next ih =>
    by_cases hroom : path.length + 1 < this.bytesFree
    · exact ⟨1, _, dif_pos hroom, fun contents h => added_this h hpath hroom⟩
    · obtain ⟨fuel, r, hr, hadded⟩ := ih block
      refine ⟨fuel + 1, _, ?_, fun contents h => added_next h hadded⟩
      rw [add, dif_neg hroom]
      exact congrArg _ hr

lemma add_of_le {fuel fuel' : Nat} (hle : fuel ≤ fuel') {r : PathPool × PoolPointer}
    (h : add fuel pool path = some r) : add fuel' pool path = some r := by
  induction fuel generalizing fuel' pool r with
  | zero => simp [add] at h
  | succ fuel ih =>
    obtain ⟨fuel', rfl⟩ : ∃ k, fuel' = k + 1 := ⟨fuel' - 1, by omega⟩
    rw [add] at h ⊢
    split
    · rename_i hroom
      rwa [dif_pos hroom] at h
    · rename_i hroom
      rw [dif_neg hroom, Option.map_eq_some_iff] at h
      obtain ⟨r', hr', rfl⟩ := h
      rw [ih (by omega) hr', Option.map_some]

end Add

/-! ### Calls one after the other -/

lemma addAll_of_le {fuel fuel' : Nat} (hle : fuel ≤ fuel') {pool : PathPool} {paths : List Path}
    {steps : List (PathPool × PoolPointer)} (h : addAll fuel pool paths = some steps) :
    addAll fuel' pool paths = some steps := by
  induction paths generalizing pool steps with
  | nil => exact h
  | cons path paths ih =>
    rw [addAll] at h ⊢
    obtain ⟨r, hr, hrest⟩ := Option.bind_eq_some_iff.mp h
    obtain ⟨steps', hsteps', rfl⟩ := Option.map_eq_some_iff.mp hrest
    rw [add_of_le hle hr, Option.bind_some, ih hsteps', Option.map_some]

/-- Every path is stored: after each call the strings that were returned so far are the paths, and the
pool contains and reports these and no others. -/
structure Stored (paths : List Path) (steps : List (PathPool × PoolPointer)) : Prop where
  length : steps.length = paths.length
  returned : ∀ (i j : Nat) (r r' : PathPool × PoolPointer) (path : Path), i ≤ j → steps[i]? = some r →
    steps[j]? = some r' → paths[i]? = some path → r'.1.stringAt r.2 = path
  contained : ∀ (j : Nat) (r : PathPool × PoolPointer), steps[j]? = some r →
    ∀ path, r.1.contains path = true ↔ path ∈ paths.take (j + 1)
  reported : ∀ (j : Nat) (r : PathPool × PoolPointer), steps[j]? = some r →
    (r.1.forEachPath (fun reports path => reports ++ [path]) []).Perm (paths.take (j + 1))

def StoresEvery (paths : List Path) : Prop :=
  ∃ fuel steps, addAll fuel allocate paths = some steps ∧ Stored paths steps

lemma exists_addAll {paths : List Path} (hpaths : ∀ path ∈ paths, 0 ∉ path)
    (hfits : ∀ path ∈ paths, path.length + 1 < blockCapacity) (pool : PathPool) :
    ∃ fuel steps, addAll fuel pool paths = some steps := by
  induction paths generalizing pool with
  | nil => exact ⟨0, [], rfl⟩
  | cons path paths ih =>
    obtain ⟨hpath, hrest⟩ := List.forall_mem_cons.mp hpaths
    obtain ⟨hfit, hfitrest⟩ := List.forall_mem_cons.mp hfits
    obtain ⟨fuel, r, hr, -⟩ := exists_add pool hpath hfit
    obtain ⟨fuel', steps, hsteps⟩ := ih hrest hfitrest r.1
    refine ⟨max fuel fuel', r :: steps, ?_⟩
    rw [addAll, add_of_le (le_max_left _ _) hr, Option.bind_some,
      addAll_of_le (le_max_right _ _) hsteps, Option.map_some]

lemma added_of_add {contents : List (List Path)} {pool : PathPool} {path : Path} (hpath : 0 ∉ path)
    (h : pool.Holds contents) {fuel : Nat} {r : PathPool × PoolPointer} (hr : add fuel pool path = some r) :
    Added contents pool path r := by
  have hfits : path.length + 1 < blockCapacity := by
    by_contra hlong
    rw [add_eq_none (by omega)] at hr
    exact absurd hr (Option.some_ne_none r).symm
  obtain ⟨fuel', r', hr', hadded⟩ := exists_add pool hpath hfits
  have hsame := (add_of_le (le_max_left fuel fuel') hr).symm.trans (add_of_le (le_max_right _ _) hr')
  rw [Option.some.inj hsame]
  exact hadded contents h

/-- The invariant of the calls. -/
structure Run (contents : List (List Path)) (pool : PathPool) (paths : List Path)
    (steps : List (PathPool × PoolPointer)) : Prop where
  length : steps.length = paths.length
  kept : ∀ r ∈ steps, Extends pool r.1
  stands : ∀ (i j : Nat) (r r' : PathPool × PoolPointer) (path : Path), i ≤ j → steps[i]? = some r →
    steps[j]? = some r' → paths[i]? = some path → StandsAt r'.1 r.2 path
  holds : ∀ (j : Nat) (r : PathPool × PoolPointer), steps[j]? = some r →
    ∃ contents', r.1.Holds contents' ∧ contents'.flatten.Perm (paths.take (j + 1) ++ contents.flatten)

lemma run_of_addAll {paths : List Path} (hpaths : ∀ path ∈ paths, 0 ∉ path) {fuel : Nat}
    {contents : List (List Path)} {pool : PathPool} (h : pool.Holds contents)
    {steps : List (PathPool × PoolPointer)} (hsteps : addAll fuel pool paths = some steps) :
    Run contents pool paths steps := by
  induction paths generalizing pool contents steps with
  | nil =>
    rw [addAll, Option.some.injEq] at hsteps
    rw [← hsteps]
    exact ⟨rfl, by simp, by simp, by simp⟩
  | cons path paths ih =>
    obtain ⟨hpath, hrest⟩ := List.forall_mem_cons.mp hpaths
    rw [addAll] at hsteps
    obtain ⟨r, hr, hmore⟩ := Option.bind_eq_some_iff.mp hsteps
    obtain ⟨steps', hsteps', rfl⟩ := Option.map_eq_some_iff.mp hmore
    obtain ⟨⟨contents₁, hholds, hperm⟩, hstands, hkept⟩ := added_of_add hpath h hr
    have hrun := ih hrest hholds hsteps'
    refine ⟨by simp [hrun.length], ?_, ?_, ?_⟩
    · refine List.forall_mem_cons.mpr ⟨hkept, fun r' hr' => hkept.trans (hrun.kept r' hr')⟩
    · intro i j r₁ r₂ path' hij hi hj hpath'
      cases i with
      | zero =>
        obtain rfl : r = r₁ := by simpa using hi
        obtain rfl : path = path' := by simpa using hpath'
        cases j with
        | zero =>
          obtain rfl : r = r₂ := by simpa using hj
          exact hstands
        | succ j => exact hstands.of_extends (hrun.kept r₂ (List.mem_of_getElem? hj))
      | succ i =>
        cases j with
        | zero => omega
        | succ j => exact hrun.stands i j r₁ r₂ path' (by omega) hi hj hpath'
    · intro j r' hj
      cases j with
      | zero =>
        obtain rfl : r = r' := by simpa using hj
        exact ⟨contents₁, hholds, hperm⟩
      | succ j =>
        obtain ⟨contents₂, hholds₂, hperm₂⟩ := hrun.holds j r' hj
        refine ⟨contents₂, hholds₂, hperm₂.trans ?_⟩
        rw [List.take_succ_cons]
        exact (hperm.append_left _).trans List.perm_middle

lemma Run.stored {paths : List Path} (hpaths : ∀ path ∈ paths, 0 ∉ path)
    {steps : List (PathPool × PoolPointer)} (h : Run [[]] allocate paths steps) : Stored paths steps := by
  refine ⟨h.length, ?_, ?_, ?_⟩
  · intro i j r r' path hij hi hj hpath
    exact (h.stands i j r r' path hij hi hj hpath).stringAt_eq (hpaths path (List.mem_of_getElem? hpath))
  · intro j r hj path
    obtain ⟨contents, hholds, hperm⟩ := h.holds j r hj
    rw [hholds.contains_eq, decide_eq_true_iff, hperm.mem_iff]
    simp
  · intro j r hj
    obtain ⟨contents, hholds, hperm⟩ := h.holds j r hj
    rw [hholds.forEachPath_eq, List.foldl_append_eq_append, ← List.flatMap_def, List.flatMap_singleton']
    simpa using hperm

theorem storesEvery_iff {paths : List Path} (hpaths : ∀ path ∈ paths, 0 ∉ path) :
    StoresEvery paths ↔ ∀ path ∈ paths, path.length + 1 < blockCapacity := by
  constructor
  · rintro ⟨fuel, steps, hsteps, -⟩ path hpath
    by_contra hlong
    generalize allocate = pool at hsteps
    induction paths generalizing pool steps with
    | nil => exact absurd hpath List.not_mem_nil
    | cons path' paths ih =>
      rw [addAll] at hsteps
      obtain ⟨r, hr, hmore⟩ := Option.bind_eq_some_iff.mp hsteps
      obtain ⟨steps', hsteps', -⟩ := Option.map_eq_some_iff.mp hmore
      cases List.mem_cons.mp hpath with
      | inl hsame =>
        rw [← hsame, add_eq_none (by omega)] at hr
        exact absurd hr (Option.some_ne_none r).symm
      | inr hmem => exact ih (List.forall_mem_cons.mp hpaths).2 steps' hmem r.1 hsteps'
  · intro hfits
    obtain ⟨fuel, steps, hsteps⟩ := exists_addAll hpaths hfits allocate
    have hempty : allocate.Holds [[]] := ⟨rfl, by simp⟩
    exact ⟨fuel, steps, hsteps, (run_of_addAll hpaths hempty hsteps).stored hpaths⟩

theorem storesEvery_short : StoresEvery [[47], [], [47]] :=
  (storesEvery_iff (by simp)).mpr (by simp [blockCapacity])

theorem not_storesEvery_long : ¬StoresEvery [List.replicate 32743 97] := by
  rintro ⟨fuel, steps, hsteps, -⟩
  obtain ⟨r, hr, -⟩ := Option.bind_eq_some_iff.mp hsteps
  rw [add_eq_none (by rw [List.length_replicate, blockCapacity])] at hr
  exact absurd hr (Option.some_ne_none r).symm

end PathPool

end Dyld.Closure
