import Dyld.SlideInfo.Region
import Dyld.Chained.Pointer

/-!
# Slide info, version 3

The builder threads the rebase locations of each page into one chain of `arm64e` pointers,
and `rebaseDataPages` walks these chains when the cache is mapped. The builder stores the
target of a pointer as an address when the start of the cache fits into the target field and
as an offset from that start when it does not, separately for the two layouts; the walk always
adds the start to the one and never to the other.
-/

namespace Dyld.SlideInfo

open Dyld.Lib Dyld.Chained

/-- `DYLD_CACHE_SLIDE_V3_PAGE_ATTR_NO_REBASE`. -/
def v3PageAttrNoRebase : Nat := 0xFFFF

/-! ### The builder -/

structure BuilderV3 where
  unslidLoadAddress : BitVec 64
  readOnlyEnd : BitVec 64
  aslrTracker : AslrTracker

namespace BuilderV3

variable (b : BuilderV3)

def storedTarget (width : Nat) (targetVMAddr : BitVec 64) : BitVec 64 :=
  -- if base cache address cannot fit into target, then use offset
  let tmp := setField (0#64) 0 width b.unslidLoadAddress.toNat
  if getField tmp 0 width ≠ b.unslidLoadAddress.toNat then targetVMAddr - b.unslidLoadAddress
  else targetVMAddr

/-- The `authRebase` layout of `setPointerContentV3`, over the old content of the location. -/
def authRebase (auth : AuthData) (old targetVMAddr : BitVec 64) (next : Nat) : Option (BitVec 64) :=
  let target := b.storedTarget 32 targetVMAddr
  let loc := setField old 0 32 target.toNat
  let loc := setField loc 32 16 auth.diversity.toNat
  let loc := setField loc 48 1 auth.addrDiv.toNat
  let loc := setField loc 49 2 auth.key
  let loc := setField loc 51 11 next
  let loc := setField loc 62 1 0
  let loc := setField loc 63 1 1
  if getField loc 0 32 = target.toNat ∧ getField loc 51 11 = next then some loc else none

/-- The `rebase` layout of `setPointerContentV3`. -/
def rebase (highByte : BitVec 8) (old targetVMAddr : BitVec 64) (next : Nat) : Option (BitVec 64) :=
  let target := b.storedTarget 43 targetVMAddr
  let loc := setField old 0 43 target.toNat
  let loc := setField loc 43 8 highByte.toNat
  let loc := setField loc 51 11 next
  let loc := setField loc 62 1 0
  let loc := setField loc 63 1 0
  if getField loc 0 43 = target.toNat ∧ getField loc 51 11 = next then some loc else none

/-- `setPointerContentV3`, with no result when an assertion fails. -/
def setPointerContentV3 (m : Mem) (loc : Nat) (targetVMAddr : BitVec 64) (next : Nat) : Option Mem :=
  if b.unslidLoadAddress < targetVMAddr ∧ targetVMAddr < b.readOnlyEnd then
    match b.aslrTracker.hasAuthData loc with
    | some auth => (b.authRebase auth (load 8 m loc) targetVMAddr next).map (store 8 m loc)
    | none =>
      let highByte := (b.aslrTracker.hasHigh8 loc).getD 0
      (b.rebase highByte (load 8 m loc) targetVMAddr next).map (store 8 m loc)
  else none

/-- The loop of `pageStartV3`: the start found, the last location and the memory. -/
structure PageState where
  result : Nat
  lastLoc : Option Nat
  mem : Mem

/-- One set flag of the loop of `pageStartV3`. -/
def pageStartStep (pageContent : Nat) (s : PageState) (i : Nat) : Option PageState :=
  let result := if s.result = v3PageAttrNoRebase then i * 4 % 2 ^ 16 else s.result
  let loc := pageContent + i * 4
  match s.lastLoc with
  | none => some ⟨result, some loc, s.mem⟩
  | some lastLoc =>
    (b.setPointerContentV3 s.mem lastLoc (load 8 s.mem lastLoc) ((loc - lastLoc) / 8)).map
      (fun mem => ⟨result, some loc, mem⟩)

/-- The end of `pageStartV3`, which marks the end of the chain. -/
def pageStartEnd (s : PageState) : Option (Nat × Mem) :=
  match s.lastLoc with
  | none => some (s.result, s.mem)
  | some lastLoc =>
    (b.setPointerContentV3 s.mem lastLoc (load 8 s.mem lastLoc) 0).map (fun mem => (s.result, mem))

def pageStartV3 (m : Mem) (pageContent pageSize : Nat) (bitmap : Nat → Bool) : Option (Nat × Mem) :=
  ((List.range (pageSize / 4)).foldlM
    (fun s i => if bitmap i then b.pageStartStep pageContent s i else some s)
    ⟨v3PageAttrNoRebase, none, m⟩).bind b.pageStartEnd

def writePageV3 (r : DataRegion) (s : List Nat × Mem) (i : Nat) : Option (List Nat × Mem) := do
  let p ← b.pageStartV3 s.2 (r.page i) r.pageSize (r.pageBitmap i)
  some (s.1 ++ [p.1], p.2)

/-- The pages of one region in `writeSlideInfoV3`: `page_starts` and the new contents. The
source encodes the pages concurrently, each by itself. -/
def writeSlideInfoV3 (r : DataRegion) (m : Mem) : Option (List Nat × Mem) :=
  (List.range r.pageCount).foldlM (b.writePageV3 r) ([], m)

end BuilderV3

/-! ### The loader -/

-- `dyld_cache_slide_pointer3`
def offsetToNextPointer (raw : BitVec 64) : Nat := getField raw 51 11
def authenticated (raw : BitVec 64) : Bool := raw.getLsbD 63
def offsetFromSharedCacheBase (raw : BitVec 64) : Nat := getField raw 0 32

/-- The distance to the next location of a chain, in bytes. -/
def nextV3 (raw : BitVec 64) : Nat := offsetToNextPointer raw * 8

/-- `signPointer`: address, location, address diversity, diversity and key. A process without
pointer authentication has none. -/
abbrev Signer := BitVec 64 → Nat → Bool → Nat → Nat → BitVec 64

/-- The mapping of a cache that `rebaseDataPages` works on. -/
structure LoaderV3 where
  dataPagesStart : Nat
  sharedRegionStart : BitVec 64
  slide : BitVec 64
  signPointer : Option Signer

namespace LoaderV3

variable (c : LoaderV3)

/-- The new content of a location in the version 3 branch of `rebaseDataPages`. -/
def rebased (loc : Nat) (raw : BitVec 64) : Except String (BitVec 64) :=
  if authenticated raw then
    match c.signPointer with
    | some signPointer =>
      let target := c.sharedRegionStart + BitVec.ofNat 64 (offsetFromSharedCacheBase raw) + c.slide
      .ok (signPointer target (c.dataPagesStart + loc) (PointerOnDisk.arm64eAddrDiv raw)
        (PointerOnDisk.arm64eDiversity raw) (PointerOnDisk.arm64eKey raw))
    | none => .error "invalid pointer kind in cache file"
  else .ok (PointerOnDisk.arm64eUnpackTarget raw + c.slide)

def rebaseDataPagesV3 (fuel pageSize : Nat) :
    Nat → Patching String → List Nat → Option (Patching String × Bool)
  | _, s, [] => some (s, false)
  | i, s, delta :: pageStarts =>
    if delta = v3PageAttrNoRebase then rebaseDataPagesV3 fuel pageSize (i + 1) s pageStarts
    else
      match walk nextV3 (fun s => load 8 s.mem) (patch (n := 8) c.rebased) fuel s
          (i * pageSize + delta / 8 * 8) with
      | none => none
      | some r =>
        if r.2 then some r else rebaseDataPagesV3 fuel pageSize (i + 1) r.1 pageStarts

end LoaderV3

/-! ### The words of a chain -/

namespace BuilderV3

variable {b : BuilderV3}

/-- The word `w` stands for the pointer `v` at `loc`, by the fields the loader reads. -/
def Encodes (b : BuilderV3) (loc : Nat) (v w : BitVec 64) : Prop :=
  match b.aslrTracker.hasAuthData loc with
  | some auth =>
    authenticated w = true ∧ offsetFromSharedCacheBase w = (b.storedTarget 32 v).toNat ∧
      PointerOnDisk.arm64eAddrDiv w = auth.addrDiv ∧
      PointerOnDisk.arm64eDiversity w = auth.diversity.toNat ∧ PointerOnDisk.arm64eKey w = auth.key
  | none =>
    authenticated w = false ∧ PointerOnDisk.arm64eTarget w = (b.storedTarget 43 v).toNat ∧
      PointerOnDisk.arm64eHigh8 w = ((b.aslrTracker.hasHigh8 loc).getD 0).toNat

lemma storedTarget_eq {width : Nat} (hw : width ≤ 64) (v : BitVec 64) :
    b.storedTarget width v =
      if b.unslidLoadAddress.toNat < 2 ^ width then v else v - b.unslidLoadAddress := by
  simp only [storedTarget]
  rw [getField_setField_same _ (by omega)]
  by_cases h : b.unslidLoadAddress.toNat < 2 ^ width
  · rw [if_neg (not_not.mpr (Nat.mod_eq_of_lt h)), if_pos h]
  · have hne : b.unslidLoadAddress.toNat % 2 ^ width ≠ b.unslidLoadAddress.toNat := by
      have := Nat.mod_lt b.unslidLoadAddress.toNat (Nat.two_pow_pos width)
      omega
    rw [if_pos hne, if_neg h]

lemma authRebase_some {auth : AuthData} {old v w : BitVec 64} {next : Nat}
    (h : b.authRebase auth old v next = some w) :
    authenticated w = true ∧ offsetFromSharedCacheBase w = (b.storedTarget 32 v).toNat ∧
      PointerOnDisk.arm64eAddrDiv w = auth.addrDiv ∧
      PointerOnDisk.arm64eDiversity w = auth.diversity.toNat ∧
      PointerOnDisk.arm64eKey w = auth.key ∧ offsetToNextPointer w = next := by
  simp only [authRebase] at h
  split_ifs at h with hw
  obtain ⟨htarget, hnext⟩ := hw
  rw [Option.some.injEq] at h
  rw [h] at htarget hnext
  refine ⟨?_, htarget, ?_, ?_, ?_, hnext⟩
  · rw [← h, authenticated, getLsbD_setField]
    simp
  · rw [← h, PointerOnDisk.arm64eAddrDiv]
    simp only [getLsbD_setField]
    cases auth.addrDiv <;> rfl
  · rw [← h, PointerOnDisk.arm64eDiversity]
    simp (disch := omega) only [getField_setField_apart, getField_setField_same]
    exact Nat.mod_eq_of_lt auth.diversity.isLt
  · rw [← h, PointerOnDisk.arm64eKey]
    simp (disch := omega) only [getField_setField_apart, getField_setField_same]
    exact Nat.mod_eq_of_lt auth.key_lt

lemma rebase_some {highByte : BitVec 8} {old v w : BitVec 64} {next : Nat}
    (h : b.rebase highByte old v next = some w) :
    authenticated w = false ∧ PointerOnDisk.arm64eTarget w = (b.storedTarget 43 v).toNat ∧
      PointerOnDisk.arm64eHigh8 w = highByte.toNat ∧ offsetToNextPointer w = next := by
  simp only [rebase] at h
  split_ifs at h with hw
  obtain ⟨htarget, hnext⟩ := hw
  rw [Option.some.injEq] at h
  rw [h] at htarget hnext
  refine ⟨?_, htarget, ?_, hnext⟩
  · rw [← h, authenticated, getLsbD_setField]
    simp
  · rw [← h, PointerOnDisk.arm64eHigh8]
    simp (disch := omega) only [getField_setField_apart, getField_setField_same]
    exact Nat.mod_eq_of_lt highByte.isLt

lemma setPointerContentV3_some {m m' : Mem} {loc next : Nat} {v : BitVec 64}
    (h : b.setPointerContentV3 m loc v next = some m') :
    ∃ w, m' = store 8 m loc w ∧ b.Encodes loc v w ∧ offsetToNextPointer w = next ∧
      b.unslidLoadAddress < v := by
  unfold setPointerContentV3 at h
  split_ifs at h with hin
  unfold Encodes
  cases hauth : b.aslrTracker.hasAuthData loc with
  | some auth =>
    rw [hauth] at h
    obtain ⟨w, hw, rfl⟩ := Option.map_eq_some_iff.mp h
    obtain ⟨h1, h2, h3, h4, h5, h6⟩ := authRebase_some hw
    exact ⟨w, rfl, ⟨h1, h2, h3, h4, h5⟩, h6, hin.1⟩
  | none =>
    rw [hauth] at h
    obtain ⟨w, hw, rfl⟩ := Option.map_eq_some_iff.mp h
    obtain ⟨h1, h2, h3, h4⟩ := rebase_some hw
    exact ⟨w, rfl, ⟨h1, h2, h3⟩, h4, hin.1⟩

/-! ### The chain of a page -/

/-- Links the location `last` and the ones after it, and ends the chain. -/
def chainFrom (b : BuilderV3) (m : Mem) (last : Nat) : List Nat → Option Mem
  | [] => b.setPointerContentV3 m last (load 8 m last) 0
  | loc :: locs => do
    let m' ← b.setPointerContentV3 m last (load 8 m last) ((loc - last) / 8)
    chainFrom b m' loc locs

lemma foldlM_pageStartStep {pageContent result last : Nat} {m : Mem} {js : List Nat}
    (hresult : result ≠ v3PageAttrNoRebase) :
    (js.foldlM (b.pageStartStep pageContent) ⟨result, some last, m⟩).bind b.pageStartEnd =
      (b.chainFrom m last (js.map (fun j => pageContent + j * 4))).map (fun mem => (result, mem)) := by
  induction js generalizing last m with
  | nil => simp [chainFrom, pageStartEnd]
  | cons j js ih =>
    simp only [List.foldlM_cons, List.map_cons, chainFrom, pageStartStep, if_neg hresult]
    cases hset : b.setPointerContentV3 m last (load 8 m last) ((pageContent + j * 4 - last) / 8) with
    | none => rfl
    | some m' => exact ih

lemma pageStartV3_eq (m : Mem) (pageContent pageSize : Nat) (bitmap : Nat → Bool)
    (hsize : pageSize ≤ 2 ^ 16) :
    b.pageStartV3 m pageContent pageSize bitmap =
      match flags pageSize bitmap with
      | [] => some (v3PageAttrNoRebase, m)
      | i :: js =>
        (b.chainFrom m (pageContent + i * 4) (js.map (fun j => pageContent + j * 4))).map
          (fun mem => (i * 4, mem)) := by
  unfold pageStartV3
  have hfilter : ∀ s, (List.range (pageSize / 4)).foldlM
      (fun s i => if bitmap i then b.pageStartStep pageContent s i else some s) s =
      (flags pageSize bitmap).foldlM (b.pageStartStep pageContent) s := by
    intro s
    rw [flags, List.foldlM_filter]
    rfl
  rw [hfilter]
  cases hflags : flags pageSize bitmap with
  | nil => rfl
  | cons i js =>
    have hi : i < pageSize / 4 := (mem_flags.mp (by rw [hflags]; simp)).1
    have hmod : i * 4 % 2 ^ 16 = i * 4 := Nat.mod_eq_of_lt (by omega)
    have hne : i * 4 ≠ v3PageAttrNoRebase := by
      unfold v3PageAttrNoRebase
      omega
    simp only [List.foldlM_cons, pageStartStep, if_true, hmod, Option.bind_eq_bind, Option.bind_some]
    exact foldlM_pageStartStep hne

lemma chainFrom_some {m m' : Mem} {last : Nat} {locs : List Nat}
    (hap : (last :: locs).Pairwise (fun x y => x + 8 ≤ y ∧ 8 ∣ y - x))
    (h : b.chainFrom m last locs = some m') :
    Encoding 8 nextV3 (fun a v w => b.Encodes a v w ∧ b.unslidLoadAddress < v) m m'
      [(last, locs)] := by
  induction locs generalizing m last with
  | nil =>
    obtain ⟨w, rfl, henc, hnext, hlt⟩ := setPointerContentV3_some h
    exact Encoding.single (by simp [nextV3, hnext]) ⟨henc, hlt⟩
  | cons loc locs ih =>
    simp only [chainFrom, Option.bind_eq_bind, Option.bind_eq_some_iff] at h
    obtain ⟨m₁, hset, hrest⟩ := h
    obtain ⟨w, rfl, henc, hnext, hlt⟩ := setPointerContentV3_some hset
    rw [List.pairwise_cons] at hap
    obtain ⟨hlast, hlocs⟩ := hap
    have hloc := hlast loc (by simp)
    have hdist : nextV3 w = loc - last := by
      rw [nextV3, hnext]
      exact Nat.div_mul_cancel hloc.2
    apply Encoding.link (ih hlocs hrest)
    · intro c hc
      simp only [locations_cons, locations_nil, List.append_nil] at hc
      exact Or.inl (hlast c hc).1
    · omega
    · omega
    · exact ⟨henc, hlt⟩

end BuilderV3

/-! ### The chains of a region -/

/-- A data region whose rebase locations are 8-byte aligned and whose pages are at most what
a `uint16_t` start can reach into. -/
structure RegionV3 extends DataRegion where
  eight_dvd_pageSize : 8 ∣ pageSize
  pageSize_le : pageSize ≤ 2 ^ 16
  aligned : ∀ k, bitmap k = true → 2 ∣ k

namespace RegionV3

variable {r : RegionV3}

lemma eight_dvd {i a : Nat} (ha : a ∈ r.pageMarks i) : 8 ∣ a := by
  obtain ⟨j, -, hj, rfl⟩ := DataRegion.mem_pageMarks.mp ha
  obtain ⟨q, hq⟩ := r.eight_dvd_pageSize
  have h2 : 2 ∣ i * (r.pageSize / 4) + j := r.aligned _ hj
  have hq4 : r.pageSize / 4 = 2 * q := by omega
  have hp : r.page i = 8 * (i * q) := by rw [DataRegion.page, hq]; ring
  have hiq : i * (2 * q) = 2 * (i * q) := by ring
  rw [hq4, hiq] at h2
  omega

lemma pageMarks_pairwise (i : Nat) :
    (r.pageMarks i).Pairwise (fun x y => x + 8 ≤ y ∧ 8 ∣ y - x) := by
  refine (DataRegion.pageMarks_sorted i).imp_of_mem (fun {x y} hx hy hxy => ?_)
  have hx8 := eight_dvd hx
  have hy8 := eight_dvd hy
  omega

lemma pageMarks_end {i a : Nat} (ha : a ∈ r.pageMarks i) : a + 8 ≤ r.page (i + 1) := by
  have h8 := eight_dvd ha
  have hb := (DataRegion.pageMarks_bounds ha).2
  have hp : 8 ∣ r.page (i + 1) := Dvd.dvd.mul_left r.eight_dvd_pageSize _
  omega

def chainStarts (pageSize : Nat) : Nat → List Nat → List Nat
  | _, [] => []
  | i, delta :: pageStarts =>
    if delta = v3PageAttrNoRebase then chainStarts pageSize (i + 1) pageStarts
    else (i * pageSize + delta / 8 * 8) :: chainStarts pageSize (i + 1) pageStarts

lemma chainStarts_append (pageSize i : Nat) (starts starts' : List Nat) :
    chainStarts pageSize i (starts ++ starts') =
      chainStarts pageSize i starts ++ chainStarts pageSize (i + starts.length) starts' := by
  induction starts generalizing i with
  | nil => rfl
  | cons delta starts ih =>
    have hi : i + (delta :: starts).length = i + 1 + starts.length := by
      rw [List.length_cons]
      omega
    rw [List.cons_append, hi]
    simp only [chainStarts, ih]
    split <;> rfl

end RegionV3

open RegionV3 BuilderV3

lemma LoaderV3.rebaseDataPagesV3_eq (c : LoaderV3) (fuel pageSize i : Nat) (s : Patching String)
    (pageStarts : List Nat) :
    c.rebaseDataPagesV3 fuel pageSize i s pageStarts =
      walkAll nextV3 (fun s => load 8 s.mem) (patch (n := 8) c.rebased) fuel s
        (RegionV3.chainStarts pageSize i pageStarts) := by
  induction pageStarts generalizing i s with
  | nil => rfl
  | cons delta pageStarts ih =>
    simp only [rebaseDataPagesV3, RegionV3.chainStarts]
    split_ifs with hno
    · exact ih (i + 1) s
    · simp only [walkAll]
      cases walk nextV3 (fun s => load 8 s.mem) (patch (n := 8) c.rebased) fuel s
          (i * pageSize + delta / 8 * 8) with
      | none => rfl
      | some r => simp only [ih]

namespace BuilderV3

variable {b : BuilderV3} {r : RegionV3}

/-- What the words of the chains stand for. -/
def Word (b : BuilderV3) (a : Nat) (v w : BitVec (8 * 8)) : Prop :=
  b.Encodes a v w ∧ b.unslidLoadAddress < v

lemma pageStartV3_some {m m' : Mem} {i start : Nat}
    (h : b.pageStartV3 m (r.page i) r.pageSize (r.pageBitmap i) = some (start, m')) :
    ∃ chains, Encoding 8 nextV3 b.Word m m' chains ∧ locations chains = r.pageMarks i ∧
      chains.map Prod.fst = RegionV3.chainStarts r.pageSize i [start] := by
  rw [pageStartV3_eq _ _ _ _ r.pageSize_le] at h
  have hpair := r.pageMarks_pairwise i
  have height : ∀ a ∈ r.pageMarks i, 8 ∣ a := fun a ha => eight_dvd ha
  unfold DataRegion.pageMarks at hpair height ⊢
  cases hflags : flags r.pageSize (r.pageBitmap i) with
  | nil =>
    simp only [hflags, Option.some.injEq, Prod.mk.injEq] at h
    obtain ⟨rfl, rfl⟩ := h
    exact ⟨[], Encoding.nil m, rfl, by simp [RegionV3.chainStarts]⟩
  | cons j js =>
    rw [hflags, List.map_cons] at hpair
    simp only [hflags] at h
    obtain ⟨m₁, hchain, heq⟩ := Option.map_eq_some_iff.mp h
    rw [Prod.mk.injEq] at heq
    obtain ⟨rfl, rfl⟩ := heq
    refine ⟨[(r.page i + j * 4, js.map (fun j => r.page i + j * 4))], chainFrom_some hpair hchain,
      by simp, ?_⟩
    have hj8 : 8 ∣ r.page i + j * 4 := height _ (by rw [hflags]; simp)
    have hp8 : 8 ∣ r.page i := Dvd.dvd.mul_left r.eight_dvd_pageSize _
    have hne : j * 4 ≠ v3PageAttrNoRebase := by
      unfold v3PageAttrNoRebase
      omega
    have hdiv : j * 4 / 8 * 8 = j * 4 := Nat.div_mul_cancel (by omega)
    simp [RegionV3.chainStarts, hne, hdiv, DataRegion.page]

lemma writePagesV3_some {m m' : Mem} {pageStarts : List Nat} (k : Nat)
    (h : (List.range k).foldlM (b.writePageV3 r.toDataRegion) ([], m) = some (pageStarts, m')) :
    ∃ chains, Encoding 8 nextV3 b.Word m m' chains ∧
      locations chains = (List.range k).flatMap r.pageMarks ∧
      chains.map Prod.fst = RegionV3.chainStarts r.pageSize 0 pageStarts ∧ pageStarts.length = k := by
  induction k generalizing m' pageStarts with
  | zero =>
    simp only [List.range_zero, List.foldlM_nil, Option.pure_def, Option.some.injEq,
      Prod.mk.injEq] at h
    obtain ⟨rfl, rfl⟩ := h
    exact ⟨[], Encoding.nil m, rfl, rfl, rfl⟩
  | succ k ih =>
    rw [List.range_succ, List.foldlM_append] at h
    obtain ⟨⟨starts, m₁⟩, hpages, hlast⟩ := Option.bind_eq_some_iff.mp h
    simp only [List.foldlM_cons, List.foldlM_nil, bind_pure, writePageV3,
      Option.bind_eq_bind] at hlast
    obtain ⟨⟨start, m₂⟩, hpage, heq⟩ := Option.bind_eq_some_iff.mp hlast
    simp only [Option.some.injEq, Prod.mk.injEq] at heq
    obtain ⟨rfl, rfl⟩ := heq
    obtain ⟨chains, henc, hloc, hstarts, hlen⟩ := ih hpages
    obtain ⟨chain, henc', hloc', hstart⟩ := pageStartV3_some hpage
    refine ⟨chains ++ chain, henc.append henc' ?_, ?_, ?_, ?_⟩
    · -- the words of earlier pages end before this page
      intro x hx y hy
      rw [hloc] at hx
      rw [hloc'] at hy
      obtain ⟨i, hi, hxi⟩ := List.mem_flatMap.mp hx
      have hend : x + 8 ≤ r.page (i + 1) := pageMarks_end hxi
      have hpage : r.page (i + 1) ≤ r.page k := DataRegion.page_mono (List.mem_range.mp hi)
      have hstart : r.page k ≤ y := (DataRegion.pageMarks_bounds hy).1
      exact Or.inl (by omega)
    · rw [locations_append, hloc, hloc', List.range_succ, List.flatMap_append]
      simp
    · rw [List.map_append, hstarts, hstart, chainStarts_append, hlen, Nat.zero_add]
    · simp [hlen]

lemma writeSlideInfoV3_some {m m' : Mem} {pageStarts : List Nat}
    (h : b.writeSlideInfoV3 r.toDataRegion m = some (pageStarts, m')) :
    ∃ chains, Encoding 8 nextV3 b.Word m m' chains ∧ locations chains = r.marks ∧
      chains.map Prod.fst = RegionV3.chainStarts r.pageSize 0 pageStarts := by
  obtain ⟨chains, henc, hloc, hstarts, -⟩ := writePagesV3_some r.pageCount h
  exact ⟨chains, henc, hloc, hstarts⟩

end BuilderV3

/-! ### Encoding and rebasing -/

namespace BuilderV3

variable {b : BuilderV3} {r : RegionV3}

/-- What is to be found at a rebase location that held `v`: the signed pointer, or the pointer
with its tag in the top byte, slid. A tag needs a slide that leaves the top byte free. -/
def SlidTo (b : BuilderV3) (dataPagesStart : Nat) (slide : BitVec 64) (signPointer : Signer)
    (a : Nat) (v got : BitVec 64) : Prop :=
  match b.aslrTracker.hasAuthData a, b.aslrTracker.hasHigh8 a with
  | some auth, _ =>
    got = signPointer (v + slide) (dataPagesStart + a) auth.addrDiv auth.diversity.toNat auth.key
  | none, none => got = v + slide
  | none, some high8 =>
    (v + slide).toNat < 2 ^ 56 → got = setField (v + slide) 56 8 high8.toNat

/-- The start of the cache is stored the way the loader reads it: for a signed pointer as an
offset, for a plain one as an address. -/
def StoredAsRead (b : BuilderV3) (a : Nat) : Prop :=
  if (b.aslrTracker.hasAuthData a).isSome then
    b.unslidLoadAddress = 0 ∨ 2 ^ 32 ≤ b.unslidLoadAddress.toNat
  else b.unslidLoadAddress.toNat < 2 ^ 43

lemma add_storedTarget_iff (v : BitVec 64) :
    b.unslidLoadAddress + b.storedTarget 32 v = v ↔
      b.unslidLoadAddress = 0 ∨ 2 ^ 32 ≤ b.unslidLoadAddress.toNat := by
  rw [storedTarget_eq (by omega)]
  split_ifs with h
  · rw [BitVec.add_left_eq_self]
    exact ⟨Or.inl, fun h' => h'.resolve_right (by omega)⟩
  · refine ⟨fun _ => Or.inr (by omega), fun _ => ?_⟩
    rw [BitVec.add_comm]
    exact BitVec.sub_add_cancel v b.unslidLoadAddress

lemma storedTarget_eq_self_iff (v : BitVec 64) :
    b.storedTarget 43 v = v ↔ b.unslidLoadAddress.toNat < 2 ^ 43 := by
  rw [storedTarget_eq (by omega)]
  split_ifs with h
  · exact ⟨fun _ => h, fun _ => rfl⟩
  · simp only [h, iff_false]
    intro heq
    have hzero : b.unslidLoadAddress = 0 := by
      have hcancel : v - b.unslidLoadAddress + b.unslidLoadAddress = v :=
        BitVec.sub_add_cancel v b.unslidLoadAddress
      rw [heq] at hcancel
      exact BitVec.add_right_eq_self.mp hcancel
    rw [hzero] at h
    exact h (by decide)

/-- The value the loader computes from a word, by the fields of the word. -/
def rebasedValue (c : LoaderV3) (signPointer : Signer) (a : Nat) (w : BitVec 64) : BitVec 64 :=
  if authenticated w then
    signPointer (c.sharedRegionStart + BitVec.ofNat 64 (offsetFromSharedCacheBase w) + c.slide)
      (c.dataPagesStart + a) (PointerOnDisk.arm64eAddrDiv w) (PointerOnDisk.arm64eDiversity w)
      (PointerOnDisk.arm64eKey w)
  else PointerOnDisk.arm64eUnpackTarget w + c.slide

lemma rebased_eq {c : LoaderV3} {signPointer : Signer} (hsign : c.signPointer = some signPointer)
    (a : Nat) (w : BitVec 64) : c.rebased a w = .ok (rebasedValue c signPointer a w) := by
  unfold LoaderV3.rebased rebasedValue
  rw [hsign]
  split_ifs <;> rfl

def loader (b : BuilderV3) (dataPagesStart : Nat) (slide : BitVec 64) (signPointer : Signer) :
    LoaderV3 :=
  ⟨dataPagesStart, b.unslidLoadAddress, slide, some signPointer⟩

lemma unpackTarget_eq {a : Nat} {v w : BitVec 64} (hauth : b.aslrTracker.hasAuthData a = none)
    (h : b.Encodes a v w) :
    PointerOnDisk.arm64eUnpackTarget w =
        (BitVec.ofNat 64 ((b.aslrTracker.hasHigh8 a).getD 0).toNat <<< 56) + b.storedTarget 43 v := by
  simp only [Encodes, hauth] at h
  obtain ⟨-, htarget, hhigh⟩ := h
  have hlt : (b.storedTarget 43 v).toNat < 2 ^ 43 := by
    rw [← htarget]
    exact getField_lt w 0 43
  have hback : BitVec.ofNat 64 (b.storedTarget 43 v).toNat = b.storedTarget 43 v := by simp
  rw [PointerOnDisk.arm64eUnpackTarget, htarget, hhigh, hback,
    shiftLeft_or_eq_add _ (lt_trans hlt (by norm_num))]

lemma slidTo_auth_iff {a : Nat} {v w : BitVec 64} {auth : AuthData}
    (hauth : b.aslrTracker.hasAuthData a = some auth) (h : b.Encodes a v w) :
    (∀ dataPagesStart slide signPointer, b.SlidTo dataPagesStart slide signPointer a v
      (rebasedValue (b.loader dataPagesStart slide signPointer) signPointer a w)) ↔
      b.unslidLoadAddress + b.storedTarget 32 v = v := by
  simp only [Encodes, hauth] at h
  obtain ⟨hbit, htarget, hdiv, hdiversity, hkey⟩ := h
  have hvalue : ∀ dataPagesStart slide signPointer,
      rebasedValue (b.loader dataPagesStart slide signPointer) signPointer a w =
        signPointer (b.unslidLoadAddress + b.storedTarget 32 v + slide) (dataPagesStart + a)
          auth.addrDiv auth.diversity.toNat auth.key := by
    intro dataPagesStart slide signPointer
    simp only [rebasedValue, loader, hbit, if_true, htarget, hdiv, hdiversity, hkey,
      BitVec.ofNat_toNat, BitVec.setWidth_eq]
  simp only [SlidTo, hauth, hvalue]
  constructor
  · intro hall
    -- a signer that returns the address it is given tells the addresses apart
    have h0 := hall 0 0 (fun address _ _ _ _ => address)
    simpa using h0
  · intro heq dataPagesStart slide signPointer
    rw [heq]

lemma slidTo_plain_iff {a : Nat} {v w : BitVec 64} (hauth : b.aslrTracker.hasAuthData a = none)
    (h : b.Encodes a v w) :
    (∀ dataPagesStart slide signPointer, b.SlidTo dataPagesStart slide signPointer a v
      (rebasedValue (b.loader dataPagesStart slide signPointer) signPointer a w)) ↔
      b.storedTarget 43 v = v := by
  have hbit : authenticated w = false := by
    simp only [Encodes, hauth] at h
    exact h.1
  have hunpack := unpackTarget_eq hauth h
  cases hhigh : b.aslrTracker.hasHigh8 a with
  | none =>
    have hvalue : ∀ dataPagesStart slide signPointer,
        rebasedValue (b.loader dataPagesStart slide signPointer) signPointer a w =
          b.storedTarget 43 v + slide := by
      intro dataPagesStart slide signPointer
      simp [rebasedValue, loader, hbit, hunpack, hhigh]
    simp only [SlidTo, hauth, hhigh, hvalue]
    constructor
    · intro hall
      simpa using hall 0 0 (fun address _ _ _ _ => address)
    · intro heq dataPagesStart slide signPointer
      rw [heq]
  | some high8 =>
    have hvalue : ∀ dataPagesStart slide signPointer,
        rebasedValue (b.loader dataPagesStart slide signPointer) signPointer a w =
          (BitVec.ofNat 64 high8.toNat <<< 56) + (b.storedTarget 43 v + slide) := by
      intro dataPagesStart slide signPointer
      simp [rebasedValue, loader, hbit, hunpack, hhigh, BitVec.add_assoc]
    have htag : ∀ x : BitVec 64, x.toNat < 2 ^ 56 →
        setField x 56 8 high8.toNat = (BitVec.ofNat 64 high8.toNat <<< 56) + x := by
      intro x hx
      rw [← shiftLeft_or_eq_add _ hx, shiftLeft_or_eq_setField hx high8.isLt]
    simp only [SlidTo, hauth, hhigh, hvalue]
    constructor
    · intro hall
      -- the slide that takes the pointer to zero leaves the top byte free
      have h0 := hall 0 (-v) (fun address _ _ _ _ => address)
      rw [BitVec.add_right_neg] at h0
      have h1 := h0 (by decide)
      rw [htag 0#64 (by decide), BitVec.add_right_inj] at h1
      have h2 : b.storedTarget 43 v + -v + v = v := by
        rw [h1]
        simp
      rwa [BitVec.add_assoc, BitVec.add_left_neg, BitVec.add_zero] at h2
    · intro heq dataPagesStart slide signPointer hlt
      rw [heq, htag _ hlt]

lemma slidTo_iff {a : Nat} {v w : BitVec 64} (h : b.Encodes a v w) :
    (∀ dataPagesStart slide signPointer, b.SlidTo dataPagesStart slide signPointer a v
      (rebasedValue (b.loader dataPagesStart slide signPointer) signPointer a w)) ↔
      b.StoredAsRead a := by
  unfold StoredAsRead
  cases hauth : b.aslrTracker.hasAuthData a with
  | some auth =>
    rw [slidTo_auth_iff hauth h, add_storedTarget_iff]
    simp
  | none =>
    rw [slidTo_plain_iff hauth h, storedTarget_eq_self_iff]
    simp

/-- The encoded pages `m'` of a region that held `m` round trip: on them the version 3 branch of
`rebaseDataPages` calls on exactly the rebase locations, leaves each one slid and every other
byte as it was before encoding. -/
def RoundTripsV3 (b : BuilderV3) (r : DataRegion) (m m' : Mem) (pageStarts : List Nat) : Prop :=
  ∀ fuel, r.page r.pageCount ≤ fuel → ∀ dataPagesStart slide signPointer,
    ∃ s, (b.loader dataPagesStart slide signPointer).rebaseDataPagesV3 fuel r.pageSize 0
        ⟨m', none, []⟩ pageStarts = some (s, false) ∧
      s.visited = r.marks ∧
      (∀ a ∈ r.marks,
        b.SlidTo dataPagesStart slide signPointer a (load 8 m a) (load 8 s.mem a)) ∧
      ∀ x, (∀ a ∈ r.marks, ¬InWord 8 a x) → s.mem x = m x

/-- Encoding a region and rebasing it round trips exactly when every rebase location is stored
the way it is read. -/
theorem writeSlideInfoV3_roundTrips_iff (b : BuilderV3) (r : RegionV3) (m m' : Mem)
    (pageStarts : List Nat) (h : b.writeSlideInfoV3 r.toDataRegion m = some (pageStarts, m')) :
    b.RoundTripsV3 r.toDataRegion m m' pageStarts ↔ ∀ a ∈ r.marks, b.StoredAsRead a := by
  obtain ⟨chains, henc, hloc, hstarts⟩ := writeSlideInfoV3_some h
  have hlt : ∀ a ∈ locations chains, a < r.page r.pageCount := by
    intro a ha
    rw [hloc] at ha
    obtain ⟨i, hi, hai⟩ := DataRegion.mem_marks.mp ha
    have hend : a + 8 ≤ r.page (i + 1) := pageMarks_end hai
    have hmono : r.page (i + 1) ≤ r.page r.pageCount := DataRegion.page_mono hi
    omega
  have hrun : ∀ fuel, r.page r.pageCount ≤ fuel → ∀ dataPagesStart slide signPointer,
      (b.loader dataPagesStart slide signPointer).rebaseDataPagesV3 fuel r.pageSize 0
        ⟨m', none, []⟩ pageStarts =
      some (⟨storeAll 8 m' ((locations chains).map (fun a => (a,
        rebasedValue (b.loader dataPagesStart slide signPointer) signPointer a (load 8 m' a)))),
        none, locations chains⟩, false) := by
    intro fuel hfuel dataPagesStart slide signPointer
    rw [LoaderV3.rebaseDataPagesV3_eq, ← hstarts]
    apply henc.walkAll_patch (by omega)
    · intro a ha
      exact rebased_eq rfl a _
    · exact le_trans (henc.length_locations_le (by omega) hlt) hfuel
  constructor
  · intro hall a ha
    rw [← hloc] at ha
    rw [← slidTo_iff (henc.words a ha).1]
    intro dataPagesStart slide signPointer
    obtain ⟨s, hs, -, hslid, -⟩ := hall _ le_rfl dataPagesStart slide signPointer
    rw [hrun _ le_rfl, Option.some.injEq, Prod.mk.injEq] at hs
    have ha' := hslid a (by rw [← hloc]; exact ha)
    rw [← hs.1] at ha'
    dsimp only at ha'
    rwa [henc.load_patched _ ha] at ha'
  · intro hall fuel hfuel dataPagesStart slide signPointer
    refine ⟨_, hrun fuel hfuel dataPagesStart slide signPointer, hloc, ?_, ?_⟩
    · intro a ha
      have hslid := (slidTo_iff (henc.words a (by rw [hloc]; exact ha)).1).mpr (hall a ha)
      dsimp only
      rw [henc.load_patched _ (by rw [hloc]; exact ha)]
      exact hslid dataPagesStart slide signPointer
    · intro x hx
      rw [← hloc] at hx
      exact henc.patched_apply _ hx

/-- A page with a signed pointer at offset 8 and a tagged one at offset 24. -/
def twoMarks : RegionV3 where
  pageSize := 4096
  pageCount := 1
  bitmap k := k == 2 || k == 6
  eight_dvd_pageSize := by decide
  pageSize_le := by decide
  aligned k hk := by
    simp only [Bool.or_eq_true, beq_iff_eq] at hk
    omega

def twoKinds (unslidLoadAddress : BitVec 64) : BuilderV3 where
  unslidLoadAddress := unslidLoadAddress
  readOnlyEnd := unslidLoadAddress + 0x20000000
  aslrTracker :=
    { hasHigh8 a := if a = 24 then some 0x5A else none
      hasAuthData a := if a = 8 then some ⟨0xC0DE, true, 2, by decide⟩ else none }

/-- The page with both pointers into the cache. -/
def twoPointers (unslidLoadAddress : BitVec 64) : Mem :=
  storeAll 8 (fun _ => 0) [(8, unslidLoadAddress + 0x4000), (24, unslidLoadAddress + 0x12345678)]

theorem writeSlideInfoV3_roundTrips_iff_default :
    ∃ pageStarts m',
      (twoKinds 0x180000000).writeSlideInfoV3 twoMarks.toDataRegion (twoPointers 0x180000000) =
        some (pageStarts, m') ∧
      (twoKinds 0x180000000).RoundTripsV3 twoMarks.toDataRegion (twoPointers 0x180000000) m'
        pageStarts := by
  have hsome : ((twoKinds 0x180000000).writeSlideInfoV3 twoMarks.toDataRegion
      (twoPointers 0x180000000)).isSome := by decide +kernel
  obtain ⟨⟨pageStarts, m'⟩, h⟩ := Option.isSome_iff_exists.mp hsome
  refine ⟨pageStarts, m', h, (writeSlideInfoV3_roundTrips_iff _ _ _ _ _ h).mpr ?_⟩
  intro a ha
  have hmarks : twoMarks.marks = [8, 24] := by decide +kernel
  rw [hmarks, List.mem_cons, List.mem_singleton] at ha
  rcases ha with rfl | rfl
  · exact Or.inr (by decide)
  · show (0x180000000 : BitVec 64).toNat < 2 ^ 43
    decide

/-- At an address that needs more than 43 bits, the plain pointer is stored as an offset and
comes back without the start of the cache. -/
theorem writeSlideInfoV3_offset_lost :
    ∃ pageStarts m',
      (twoKinds 0x7FFF00000000).writeSlideInfoV3 twoMarks.toDataRegion
        (twoPointers 0x7FFF00000000) = some (pageStarts, m') ∧
      ¬(twoKinds 0x7FFF00000000).RoundTripsV3 twoMarks.toDataRegion (twoPointers 0x7FFF00000000)
        m' pageStarts := by
  have hsome : ((twoKinds 0x7FFF00000000).writeSlideInfoV3 twoMarks.toDataRegion
      (twoPointers 0x7FFF00000000)).isSome := by decide +kernel
  obtain ⟨⟨pageStarts, m'⟩, h⟩ := Option.isSome_iff_exists.mp hsome
  refine ⟨pageStarts, m', h, ?_⟩
  intro hround
  obtain ⟨s, hs, -, hslid, -⟩ := hround 4096 (by decide) 0 0 (fun address _ _ _ _ => address)
  have hread : (((twoKinds 0x7FFF00000000).writeSlideInfoV3 twoMarks.toDataRegion
      (twoPointers 0x7FFF00000000)).bind (fun p =>
        ((twoKinds 0x7FFF00000000).loader 0 0 (fun address _ _ _ _ => address)).rebaseDataPagesV3
          4096 4096 0 ⟨p.2, none, []⟩ p.1)).map (fun p => load 8 p.1.mem 24) =
      some 0x5A00000012345678#64 := by decide +kernel
  have hrun : ((twoKinds 0x7FFF00000000).loader 0 0 (fun address _ _ _ _ => address)).rebaseDataPagesV3
      4096 4096 0 ⟨m', none, []⟩ pageStarts = some (s, false) := hs
  rw [h, Option.bind_some, hrun, Option.map_some, Option.some.injEq] at hread
  have hmarks : twoMarks.marks = [8, 24] := by decide +kernel
  have hwant := hslid 24 (by rw [hmarks]; simp)
  have hheld : load 8 (twoPointers 0x7FFF00000000) 24 = 0x7FFF12345678#64 := by decide +kernel
  rw [hread, hheld] at hwant
  have hfree : (0x7FFF12345678#64 + 0#64).toNat < 2 ^ 56 := by decide
  exact absurd (hwant hfree) (by decide)

end BuilderV3

end Dyld.SlideInfo
