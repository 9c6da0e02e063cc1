import Dyld.Closure.Filling

/-!
# Precomputed Objective-C fixups of an image closure

The last part of `ClosureBuilder::optimizeObjC` compresses four lists of fixups of an image,
`ImageWriter::setObjCFixupInfo` packs them into one attribute, and `Image::forEachFixup`
enumerates what `Image::objcFixups` finds there. Protocols, stable Swift classes and method
lists are runs of equally spaced pointers; selector references are chains of 32-bit words, of
which the first is an offset and the others hold a table index and the distance to the next.
-/

namespace Dyld.Closure
open Dyld.Lib

/-! ### Runs of pointers -/

/-- `ProtocolISAFixup`, `ClassStableSwiftFixup` and `MethodListFixup`: 40, 8 and 16 bits. -/
structure FixupPattern where
  startVmOffset : Nat
  skipCount : Nat
  repeatCount : Nat
  deriving DecidableEq, Repr

def FixupPattern.merge (ptrSize lastOffset runtimeOffset : Nat) (back : FixupPattern) :
    Option FixupPattern :=
  let distance := (runtimeOffset + 2 ^ 64 - lastOffset + 2 ^ 64 - ptrSize) % 2 ^ 64
  let skipAmount := distance / ptrSize
  if skipAmount * ptrSize ≠ distance then none
  else if back.repeatCount = 1 ∧ back.skipCount = 0 ∧ skipAmount ≤ 255 then
    some { back with repeatCount := 2, skipCount := skipAmount }
  else if back.skipCount = skipAmount ∧ back.repeatCount < 0xfff then
    some { back with repeatCount := back.repeatCount + 1 }
  else none

/-- One turn of the loop over the offsets. `none` is the assertion that the offset fits. -/
def addFixup (ptrSize : Nat) (state : List FixupPattern × Nat) (runtimeOffset : Nat) :
    Option (List FixupPattern × Nat) :=
  let patterns := state.1
  let lastOffset := state.2
  let merged := if runtimeOffset > lastOffset then
    patterns.getLast?.bind (FixupPattern.merge ptrSize lastOffset runtimeOffset) else none
  match merged with
  | some back => some (patterns.dropLast ++ [back], runtimeOffset)
  | none =>
    if runtimeOffset % 2 ^ 40 = runtimeOffset then
      some (patterns ++ [⟨runtimeOffset, 0, 1⟩], runtimeOffset)
    else none

/-- The patterns for a list of offsets; `-pointerSize` is a negation in 32 bits. -/
def fixupPatterns (ptrSize : Nat) (offsets : List Nat) : Option (List FixupPattern) :=
  (offsets.foldlM (addFixup ptrSize) ([], 2 ^ 32 - ptrSize)).map Prod.fst

/-- The loop of `forEachFixup` over one pattern. -/
def walkFixupPattern (ptrSize : Nat) (p : FixupPattern) : Nat → Nat → List Nat
  | 0, _ => []
  | n + 1, curOffset => curOffset :: walkFixupPattern ptrSize p n
      ((curOffset + ptrSize * (1 + p.skipCount)) % 2 ^ 64)

def walkFixupPatterns (ptrSize : Nat) (patterns : List FixupPattern) : List Nat :=
  patterns.flatMap (fun p => walkFixupPattern ptrSize p p.repeatCount p.startVmOffset)

/-! ### Chains of selector references -/

/-- `ObjCOptimizerImage::SelectorFixup`: a selector of the shared cache has its index, another
one its string, whose index is looked up in the table of the closure. -/
inductive SelectorTarget
  | sharedCache (selectorTableIndex : Nat)
  | image (selectorString : List UInt8)
  deriving DecidableEq, Repr

structure SelectorFixup where
  fixupVMOffset : Nat
  target : SelectorTarget
  deriving DecidableEq, Repr

/-- `union SelectorReferenceFixup`. -/
abbrev SelectorReferenceFixup := BitVec 32

namespace SelectorReferenceFixup

def chainStartVMOffset (f : SelectorReferenceFixup) : Nat := f.toNat

def index (f : SelectorReferenceFixup) : Nat := getField f 0 24

def next (f : SelectorReferenceFixup) : Nat := getField f 24 7

def inSharedCache (f : SelectorReferenceFixup) : Bool := getField f 31 1 == 1

def setNext (f : SelectorReferenceFixup) (next : Nat) : SelectorReferenceFixup :=
  setField f 24 7 next

/-- A chain entry without successor. -/
def entry (index : Nat) (inSharedCache : Bool) : SelectorReferenceFixup :=
  setField (setField (setField 0 0 24 index) 24 7 0) 31 1 (if inSharedCache then 1 else 0)

end SelectorReferenceFixup

def indexNotFound : Nat := 2 ^ 32 - 1

/-- The entry for a selector; `none` is the assertion that its string is in the table. -/
def SelectorTarget.entry (getIndex : List UInt8 → Nat) : SelectorTarget → Option SelectorReferenceFixup
  | .sharedCache selectorTableIndex => some (.entry selectorTableIndex true)
  | .image selectorString =>
    if getIndex selectorString = indexNotFound then none
    else some (.entry (getIndex selectorString) false)

def maxChainOffset : Nat := 4 * ((1 <<< 7) - 1)

def addSelectorFixup (getIndex : List UInt8 → Nat) (state : List SelectorReferenceFixup × Nat)
    (f : SelectorFixup) : Option (List SelectorReferenceFixup × Nat) :=
  let selRefFixups := state.1
  let prevVMOffset := state.2
  let distance := (f.fixupVMOffset + 2 ^ 64 - prevVMOffset) % 2 ^ 64
  if f.fixupVMOffset % 4 ≠ 0 then none
  else
    (if distance ≤ maxChainOffset then
      -- `back()` of an empty array is an assertion
      selRefFixups.getLast?.map (fun back =>
        selRefFixups.dropLast ++ [back.setNext (distance / 4)])
    else some (selRefFixups ++ [BitVec.ofNat 32 f.fixupVMOffset])).bind (fun selRefFixups =>
      (f.target.entry getIndex).map (fun e => (selRefFixups ++ [e], f.fixupVMOffset)))

def selectorReferences (getIndex : List UInt8 → Nat) (fixups : List SelectorFixup) :
    Option (List SelectorReferenceFixup) :=
  (fixups.foldlM (addSelectorFixup getIndex) ([], 0)).map Prod.fst

/-- What the selector handler of `forEachFixup` is called with. -/
structure SelectorReport where
  imageOffsetToFixup : Nat
  selectorIndex : Nat
  inSharedCache : Bool
  deriving DecidableEq, Repr

/-- The two loops of `forEachFixup` over the words: between chains there is no current offset.
Reading behind the last word is an assertion of `Array`. -/
def walkSelectorReferences : Option Nat → List SelectorReferenceFixup → Option (List SelectorReport)
  | none, [] => some []
  | none, start :: rest => walkSelectorReferences (some start.chainStartVMOffset) rest
  | some _, [] => none
  | some curFixupOffset, e :: rest =>
    (walkSelectorReferences
      (if e.next = 0 then none else some ((curFixupOffset + 4 * e.next) % 2 ^ 64)) rest).map
      (⟨curFixupOffset, e.index, e.inSharedCache⟩ :: ·)

/-! ### The attribute -/

/-- The fixups that `optimizeObjC` has collected for an image. -/
structure ObjCImageFixups where
  protocolISAFixups : List Nat
  selectorFixups : List SelectorFixup
  classStableSwiftFixups : List Nat
  methodListFixups : List Nat

/-- The arrays that `setObjCFixupInfo` is called with, and reads back. -/
structure ObjCFixupArrays where
  protocolISAFixups : List FixupPattern
  selRefFixups : List SelectorReferenceFixup
  classStableSwiftFixups : List FixupPattern
  methodListFixups : List FixupPattern
  deriving DecidableEq

/-- The last loop of `ClosureBuilder::optimizeObjC`, for one image. -/
def optimizeObjC (ptrSize : Nat) (getIndex : List UInt8 → Nat) (image : ObjCImageFixups) :
    Option ObjCFixupArrays :=
  (fixupPatterns ptrSize image.protocolISAFixups).bind fun protocolFixups =>
    (selectorReferences getIndex image.selectorFixups).bind fun selRefFixups =>
      (fixupPatterns ptrSize image.classStableSwiftFixups).bind fun stableSwiftFixups =>
        (fixupPatterns ptrSize image.methodListFixups).map fun methodListFixups =>
          ⟨protocolFixups, selRefFixups, stableSwiftFixups, methodListFixups⟩

/-- A pattern as it lies in memory. -/
def FixupPattern.word (p : FixupPattern) : BitVec (8 * 8) :=
  setField (setField (setField 0 0 40 p.startVmOffset) 40 8 p.skipCount) 48 16 p.repeatCount

def FixupPattern.ofWord (x : BitVec (8 * 8)) : FixupPattern :=
  ⟨getField x 0 40, getField x 40 8, getField x 48 16⟩

def arrayBytes (n : Nat) (words : List (BitVec (8 * n))) : List UInt8 := words.flatMap (wordBytes n)

def count32 {α : Type} (l : List α) : BitVec (8 * 4) := BitVec.ofNat (8 * 4) l.length

def countedBytes (n : Nat) (words : List (BitVec (8 * n))) : List UInt8 :=
  if count32 words = 0 then [] else arrayBytes n words

def objCFixupBytes (objcProtocolClassTarget objcImageInfoVMOffset : BitVec (8 * 8))
    (a : ObjCFixupArrays) : List UInt8 :=
  wordBytes 8 objcProtocolClassTarget ++ (wordBytes 8 objcImageInfoVMOffset ++
    (wordBytes 4 (count32 a.protocolISAFixups) ++ (wordBytes 4 (count32 a.selRefFixups) ++
    (countedBytes 8 (a.protocolISAFixups.map FixupPattern.word) ++
    (countedBytes 4 a.selRefFixups ++
    (wordBytes 4 (count32 a.classStableSwiftFixups) ++ (wordBytes 4 (count32 a.methodListFixups) ++
    (countedBytes 8 (a.classStableSwiftFixups.map FixupPattern.word) ++
    countedBytes 8 (a.methodListFixups.map FixupPattern.word)))))))))

/-- `totalSize` of `setObjCFixupInfo`. -/
def objCFixupSize (a : ObjCFixupArrays) : Nat :=
  let headerSize := 8 + 8 + 4 * 4
  headerSize + 8 * a.protocolISAFixups.length + 4 * a.selRefFixups.length +
    8 * a.classStableSwiftFixups.length + 8 * a.methodListFixups.length

def setObjCFixupInfo (w : ContainerTypedBytesWriter)
    (objcProtocolClassTarget objcImageInfoVMOffset : BitVec (8 * 8)) (a : ObjCFixupArrays) :
    Except WriteFault ContainerTypedBytesWriter :=
  appendAndFill w .objcFixups (objCFixupSize a % 2 ^ 32)
    (objCFixupBytes objcProtocolClassTarget objcImageInfoVMOffset a)

def loadArray (n : Nat) (m : Mem) (p count : Nat) : List (BitVec (8 * n)) :=
  (List.range count).map (fun i => load n m (p + n * i))

/-- What `objcFixups` returns through its parameters. -/
structure ObjCFixupInfo where
  objcProtocolClassTarget : BitVec (8 * 8)
  objcImageInfoVMOffset : BitVec (8 * 8)
  arrays : ObjCFixupArrays

def readObjCFixups (m : Mem) (payload contentSize : Nat) : ObjCFixupInfo :=
  let target := load 8 m payload
  let imageInfo := load 8 m (payload + 8)
  let protocolFixupCount := (load 4 m (payload + 16)).toNat
  let selRefFixupCount := (load 4 m (payload + 20)).toNat
  let fixupsContent := payload + 24
  let protocolISAFixups := (loadArray 8 m fixupsContent protocolFixupCount).map FixupPattern.ofWord
  let fixupsContent := fixupsContent + 8 * protocolFixupCount
  let selRefFixups := loadArray 4 m fixupsContent selRefFixupCount
  let fixupsContent := fixupsContent + 4 * selRefFixupCount
  -- old closures end here
  if fixupsContent = payload + contentSize then
    ⟨target, imageInfo, protocolISAFixups, selRefFixups, [], []⟩
  else
    let stableSwiftFixupCount := (load 4 m fixupsContent).toNat
    let methodListFixupCount := (load 4 m (fixupsContent + 4)).toNat
    let fixupsContent := fixupsContent + 8
    let classStableSwiftFixups :=
      (loadArray 8 m fixupsContent stableSwiftFixupCount).map FixupPattern.ofWord
    let fixupsContent := fixupsContent + 8 * stableSwiftFixupCount
    ⟨target, imageInfo, protocolISAFixups, selRefFixups, classStableSwiftFixups,
      (loadArray 8 m fixupsContent methodListFixupCount).map FixupPattern.ofWord⟩

/-- `none` when there is no attribute to dereference. -/
def objcFixups (m : Mem) : Option ObjCFixupInfo :=
  (findAttributePayload m .objcFixups).bind fun payload =>
    payload.map (fun q => readObjCFixups m q.1 q.2)

/-- What the Objective-C handlers of `forEachFixup` are called with, in order. -/
structure ObjCFixupReport where
  objcImageInfoVMOffset : BitVec (8 * 8)
  protocols : List (Nat × BitVec (8 * 8))
  selectors : List SelectorReport
  stableSwift : List Nat
  methodLists : List Nat
  deriving DecidableEq

/-- The part of `Image::forEachFixup` for images with precomputed Objective-C, with handlers
that never stop. -/
def forEachObjCFixup (ptrSize : Nat) (m : Mem) : Option ObjCFixupReport :=
  (objcFixups m).bind fun info =>
    (walkSelectorReferences none info.arrays.selRefFixups).map fun selectors =>
      ⟨info.objcImageInfoVMOffset,
        (walkFixupPatterns ptrSize info.arrays.protocolISAFixups).map
          (fun offset => (offset, info.objcProtocolClassTarget)),
        selectors,
        walkFixupPatterns ptrSize info.arrays.classStableSwiftFixups,
        walkFixupPatterns ptrSize info.arrays.methodListFixups⟩

def writeImage (before after : List AppendCall)
    (objcProtocolClassTarget objcImageInfoVMOffset : BitVec (8 * 8)) (a : ObjCFixupArrays) :
    Except WriteFault ContainerTypedBytesWriter :=
  match appendAll (setContainerType .image) before with
  | .error e => .error (.assertion e)
  | .ok w =>
    match setObjCFixupInfo w objcProtocolClassTarget objcImageInfoVMOffset a with
    | .error e => .error e
    | .ok w =>
      match appendAll w after with
      | .error e => .error (.assertion e)
      | .ok w => .ok w

/-! ### Runs read back -/

section Patterns

variable {ptrSize : Nat} {p : FixupPattern}

structure FixupPattern.Fits (ptrSize : Nat) (p : FixupPattern) : Prop where
  skip_lt : p.skipCount < 2 ^ 8
  repeat_pos : 0 < p.repeatCount
  repeat_lt : p.repeatCount < 2 ^ 12
  last_lt : p.startVmOffset + (p.repeatCount - 1) * (ptrSize * (1 + p.skipCount)) < 2 ^ 40

lemma walkFixupPattern_succ (n cur : Nat) (h : cur + n * (ptrSize * (1 + p.skipCount)) < 2 ^ 40) :
    walkFixupPattern ptrSize p (n + 1) cur =
      walkFixupPattern ptrSize p n cur ++ [cur + n * (ptrSize * (1 + p.skipCount))] := by
  induction n generalizing cur with
  | zero => simp [walkFixupPattern]
  | succ n ih =>
    have hmul : (n + 1) * (ptrSize * (1 + p.skipCount)) =
        n * (ptrSize * (1 + p.skipCount)) + ptrSize * (1 + p.skipCount) := Nat.succ_mul _ _
    rw [hmul] at h ⊢
    have hcur : (cur + ptrSize * (1 + p.skipCount)) % 2 ^ 64 =
        cur + ptrSize * (1 + p.skipCount) := by
      apply Nat.mod_eq_of_lt
      omega
    have hlast : cur + ptrSize * (1 + p.skipCount) + n * (ptrSize * (1 + p.skipCount)) =
        cur + (n * (ptrSize * (1 + p.skipCount)) + ptrSize * (1 + p.skipCount)) := by
      omega
    rw [walkFixupPattern, hcur, ih _ (by omega), hlast]
    rw [walkFixupPattern, hcur, List.cons_append]

def FixupPattern.lastOffset (ptrSize : Nat) (p : FixupPattern) : Nat :=
  p.startVmOffset + (p.repeatCount - 1) * (ptrSize * (1 + p.skipCount))

def FixupPattern.offsets (ptrSize : Nat) (p : FixupPattern) : List Nat :=
  walkFixupPattern ptrSize p p.repeatCount p.startVmOffset

lemma walkFixupPattern_congr (ptrSize : Nat) {p q : FixupPattern} (h : q.skipCount = p.skipCount)
    (n cur : Nat) : walkFixupPattern ptrSize q n cur = walkFixupPattern ptrSize p n cur := by
  induction n generalizing cur with
  | zero => rfl
  | succ n ih => rw [walkFixupPattern, walkFixupPattern, h, ih]

lemma offsets_longer {n : Nat} (hp : p.repeatCount = n)
    (hlast : p.startVmOffset + n * (ptrSize * (1 + p.skipCount)) < 2 ^ 40) :
    FixupPattern.offsets ptrSize { p with repeatCount := n + 1 } =
      p.offsets ptrSize ++ [p.startVmOffset + n * (ptrSize * (1 + p.skipCount))] := by
  unfold FixupPattern.offsets
  have hsame := walkFixupPattern_congr ptrSize (p := p) (q := { p with repeatCount := n + 1 }) rfl
  dsimp only
  rw [hsame, walkFixupPattern_succ _ _ hlast, hp]

lemma offsets_second {skip : Nat} (hp : p.repeatCount = 1)
    (hlast : p.startVmOffset + ptrSize * (1 + skip) < 2 ^ 40) :
    FixupPattern.offsets ptrSize { p with repeatCount := 2, skipCount := skip } =
      p.offsets ptrSize ++ [p.startVmOffset + ptrSize * (1 + skip)] := by
  unfold FixupPattern.offsets
  rw [hp]
  simp only [walkFixupPattern, List.singleton_append]
  rw [Nat.mod_eq_of_lt (by omega)]

/-- The distance of an aligned later offset, in whole pointers. -/
lemma eq_of_aligned (hptr : ptrSize = 4 ∨ ptrSize = 8) {last x distance : Nat}
    (hx : x < 2 ^ 40) (hlt : last < x)
    (hd : (x + 2 ^ 64 - last + 2 ^ 64 - ptrSize) % 2 ^ 64 = distance)
    (halign : distance / ptrSize * ptrSize = distance) :
    x = last + ptrSize * (1 + distance / ptrSize) := by
  rcases hptr with rfl | rfl
  · omega
  · omega

lemma merge_spec (hptr : ptrSize = 4 ∨ ptrSize = 8) (hp : p.Fits ptrSize) {x : Nat}
    (hx : x < 2 ^ 40) (hlt : p.lastOffset ptrSize < x) {q : FixupPattern}
    (h : p.merge ptrSize (p.lastOffset ptrSize) x = some q) :
    q.Fits ptrSize ∧ q.lastOffset ptrSize = x ∧
      q.offsets ptrSize = p.offsets ptrSize ++ [x] := by
  have hpos := hp.repeat_pos
  unfold FixupPattern.merge at h
  dsimp only at h
  split at h
  · cases h
  rename_i halign
  have hstep := eq_of_aligned hptr hx hlt rfl (not_not.mp halign)
  generalize (x + 2 ^ 64 - p.lastOffset ptrSize + 2 ^ 64 - ptrSize) % 2 ^ 64 / ptrSize = skip
    at h hstep
  split at h
  · rename_i hfirst
    cases h
    have hlast : p.lastOffset ptrSize = p.startVmOffset := by
      simp [FixupPattern.lastOffset, hfirst.1]
    rw [hlast] at hstep
    refine ⟨⟨?_, ?_, ?_, ?_⟩, ?_, ?_⟩
    · dsimp only
      omega
    · exact Nat.two_pos
    · change 2 < 2 ^ 12
      decide
    · dsimp only
      omega
    · simp only [FixupPattern.lastOffset]
      omega
    · rw [offsets_second hfirst.1 (by omega), ← hstep]
  · split at h
    · rename_i hmore
      cases h
      obtain ⟨n, hn⟩ : ∃ n, p.repeatCount = n + 1 := ⟨p.repeatCount - 1, by omega⟩
      have hlast : p.startVmOffset + (n + 1) * (ptrSize * (1 + p.skipCount)) = x := by
        rw [Nat.succ_mul, hstep, ← hmore.1]
        simp only [FixupPattern.lastOffset, hn, Nat.add_sub_cancel]
        omega
      refine ⟨⟨hp.skip_lt, ?_, ?_, ?_⟩, ?_, ?_⟩
      · dsimp only
        omega
      · dsimp only
        omega
      · simp only [hn, Nat.add_sub_cancel]
        omega
      · simp only [FixupPattern.lastOffset, hn, Nat.add_sub_cancel]
        exact hlast
      · rw [hn, offsets_longer hn (by omega), hlast]
    · cases h

structure PatternsFor (ptrSize : Nat) (done : List Nat) (state : List FixupPattern × Nat) :
    Prop where
  walk : walkFixupPatterns ptrSize state.1 = done
  fits : ∀ p ∈ state.1, p.Fits ptrSize
  last : ∀ p, state.1.getLast? = some p → p.lastOffset ptrSize = state.2

lemma walkFixupPatterns_append (patterns : List FixupPattern) (p : FixupPattern) :
    walkFixupPatterns ptrSize (patterns ++ [p]) =
      walkFixupPatterns ptrSize patterns ++ p.offsets ptrSize := by
  simp [walkFixupPatterns, FixupPattern.offsets]

lemma addFixup_spec (hptr : ptrSize = 4 ∨ ptrSize = 8) {done : List Nat}
    {state : List FixupPattern × Nat} (h : PatternsFor ptrSize done state) {x : Nat}
    (hx : x < 2 ^ 40) :
    ∃ state', addFixup ptrSize state x = some state' ∧
      PatternsFor ptrSize (done ++ [x]) state' := by
  unfold addFixup
  dsimp only
  split
  · rename_i back hmerged
    split at hmerged
    · rename_i hgt
      obtain ⟨p, hlast, hmerge⟩ := Option.bind_eq_some_iff.mp hmerged
      have hsplit := List.dropLast_append_getLast? p hlast
      have hp := h.fits p (List.mem_of_getLast? hlast)
      rw [← h.last p hlast] at hmerge hgt
      have hspec := merge_spec hptr hp hx hgt hmerge
      refine ⟨_, rfl, ?_, ?_, ?_⟩
      · have hwalk := h.walk
        rw [← hsplit, walkFixupPatterns_append] at hwalk
        rw [walkFixupPatterns_append, hspec.2.2, ← hwalk, List.append_assoc]
      · intro q hq
        rcases List.mem_append.mp hq with hq | hq
        · exact h.fits q (List.mem_of_mem_dropLast hq)
        · rw [List.mem_singleton.mp hq]
          exact hspec.1
      · intro q hq
        rw [List.getLast?_concat, Option.some.injEq] at hq
        rw [← hq]
        exact hspec.2.1
    · cases hmerged
  · rw [if_pos (Nat.mod_eq_of_lt hx)]
    refine ⟨_, rfl, ?_, ?_, ?_⟩
    · rw [walkFixupPatterns_append, h.walk]
      simp [FixupPattern.offsets, walkFixupPattern]
    · intro q hq
      rcases List.mem_append.mp hq with hq | hq
      · exact h.fits q hq
      · rw [List.mem_singleton.mp hq]
        refine ⟨?_, ?_, ?_, ?_⟩
        · exact Nat.two_pow_pos 8
        · exact Nat.one_pos
        · change 1 < 2 ^ 12
          decide
        · simpa using hx
    · intro q hq
      rw [List.getLast?_concat, Option.some.injEq] at hq
      rw [← hq]
      simp [FixupPattern.lastOffset]

lemma foldlM_addFixup (hptr : ptrSize = 4 ∨ ptrSize = 8) (offsets : List Nat)
    (hoff : ∀ x ∈ offsets, x < 2 ^ 40) {done : List Nat} {state : List FixupPattern × Nat}
    (h : PatternsFor ptrSize done state) :
    ∃ state', offsets.foldlM (addFixup ptrSize) state = some state' ∧
      PatternsFor ptrSize (done ++ offsets) state' := by
  induction offsets generalizing done state with
  | nil => exact ⟨state, rfl, by simpa using h⟩
  | cons x offsets ih =>
    obtain ⟨next, hnext, hinv⟩ := addFixup_spec hptr h (hoff x List.mem_cons_self)
    obtain ⟨state', hfold, hdone⟩ := ih (fun y hy => hoff y (List.mem_cons_of_mem x hy)) hinv
    refine ⟨state', ?_, by simpa using hdone⟩
    rw [List.foldlM_cons, hnext]
    exact hfold

lemma fixupPatterns_spec (hptr : ptrSize = 4 ∨ ptrSize = 8) {offsets : List Nat}
    (hoff : ∀ x ∈ offsets, x < 2 ^ 40) :
    ∃ patterns, fixupPatterns ptrSize offsets = some patterns ∧
      walkFixupPatterns ptrSize patterns = offsets ∧ ∀ p ∈ patterns, p.Fits ptrSize := by
  have hstart : PatternsFor ptrSize [] ([], 2 ^ 32 - ptrSize) :=
    ⟨rfl, by simp, by simp⟩
  obtain ⟨state, hfold, hinv⟩ := foldlM_addFixup hptr offsets hoff hstart
  refine ⟨state.1, ?_, by simpa using hinv.walk, hinv.fits⟩
  rw [fixupPatterns, hfold]
  rfl

end Patterns

/-! ### Chains read back -/

section Chains

def walkWords : Option Nat → List SelectorReferenceFixup → List SelectorReport × Option Nat
  | st, [] => ([], st)
  | none, start :: rest => walkWords (some start.chainStartVMOffset) rest
  | some cur, e :: rest =>
    let r := walkWords (if e.next = 0 then none else some ((cur + 4 * e.next) % 2 ^ 64)) rest
    (⟨cur, e.index, e.inSharedCache⟩ :: r.1, r.2)

lemma walkWords_append (words words' : List SelectorReferenceFixup) (st : Option Nat) :
    walkWords st (words ++ words') =
      ((walkWords st words).1 ++ (walkWords (walkWords st words).2 words').1,
        (walkWords (walkWords st words).2 words').2) := by
  induction words generalizing st with
  | nil => simp [walkWords]
  | cons w words ih =>
    cases st with
    | none => simp only [List.cons_append, walkWords, ih]
    | some cur => simp only [List.cons_append, walkWords, ih]

/-- The walk ends well where the words end between two chains. -/
lemma walkSelectorReferences_eq (words : List SelectorReferenceFixup) (st : Option Nat) :
    walkSelectorReferences st words =
      if (walkWords st words).2 = none then some (walkWords st words).1 else none := by
  induction words generalizing st with
  | nil =>
    cases st with
    | none => rfl
    | some cur => rfl
  | cons w words ih =>
    cases st with
    | none => exact ih _
    | some cur =>
      simp only [walkSelectorReferences, walkWords, ih]
      simp

namespace SelectorReferenceFixup

@[simp] lemma next_setNext (f : SelectorReferenceFixup) (n : Nat) :
    (f.setNext n).next = n % 2 ^ 7 :=
  getField_setField_same _ (by decide)

@[simp] lemma index_setNext (f : SelectorReferenceFixup) (n : Nat) :
    (f.setNext n).index = f.index :=
  getField_setField_apart _ (by decide)

@[simp] lemma inSharedCache_setNext (f : SelectorReferenceFixup) (n : Nat) :
    (f.setNext n).inSharedCache = f.inSharedCache := by
  unfold inSharedCache setNext
  rw [getField_setField_apart _ (by decide)]

@[simp] lemma next_entry (index : Nat) (b : Bool) : (entry index b).next = 0 := by
  unfold next entry
  rw [getField_setField_apart _ (by decide), getField_setField_same _ (by decide), Nat.zero_mod]

lemma index_entry {index : Nat} (h : index < 2 ^ 24) (b : Bool) :
    (entry index b).index = index := by
  unfold SelectorReferenceFixup.index entry
  rw [getField_setField_apart _ (by decide), getField_setField_apart _ (by decide),
    getField_setField_same _ (by decide), Nat.mod_eq_of_lt h]

@[simp] lemma inSharedCache_entry (index : Nat) (b : Bool) :
    (entry index b).inSharedCache = b := by
  unfold inSharedCache entry
  rw [getField_setField_same _ (by decide)]
  cases b
  · rfl
  · rfl

end SelectorReferenceFixup

def SelectorTarget.tableIndex (getIndex : List UInt8 → Nat) : SelectorTarget → Nat
  | .sharedCache selectorTableIndex => selectorTableIndex
  | .image selectorString => getIndex selectorString

def SelectorTarget.isSharedCache : SelectorTarget → Bool
  | .sharedCache _ => true
  | .image _ => false

def SelectorFixup.report (getIndex : List UInt8 → Nat) (f : SelectorFixup) : SelectorReport :=
  ⟨f.fixupVMOffset, f.target.tableIndex getIndex, f.target.isSharedCache⟩

/-- The selector fixups a chain can hold. -/
structure SelectorFixup.Fits (getIndex : List UInt8 → Nat) (f : SelectorFixup) : Prop where
  aligned : f.fixupVMOffset % 4 = 0
  above : 508 < f.fixupVMOffset
  below : f.fixupVMOffset < 2 ^ 32
  index_lt : f.target.tableIndex getIndex < 2 ^ 24

variable {getIndex : List UInt8 → Nat}

lemma SelectorFixup.Fits.entry {f : SelectorFixup} (h : f.Fits getIndex) :
    f.target.entry getIndex =
      some (.entry (f.target.tableIndex getIndex) f.target.isSharedCache) := by
  have hlt := h.index_lt
  cases ht : f.target with
  | sharedCache i => rfl
  | image string =>
    rw [ht] at hlt
    have hne : getIndex string ≠ indexNotFound := by
      unfold SelectorTarget.tableIndex at hlt
      unfold indexNotFound
      dsimp only at hlt
      omega
    simp only [SelectorTarget.entry, if_neg hne, SelectorTarget.tableIndex,
      SelectorTarget.isSharedCache]

/-- The state of the loop after the fixups `done`: the last word ends a chain. -/
inductive ChainsFor : List SelectorReport → List SelectorReferenceFixup × Nat → Prop
  | start : ChainsFor [] ([], 0)
  | chain {words : List SelectorReferenceFixup} {e : SelectorReferenceFixup}
      {reports : List SelectorReport} {prev : Nat} (hnext : e.next = 0) (hprev : prev < 2 ^ 32)
      (halign : prev % 4 = 0) (hwalk : walkWords none words = (reports, some prev)) :
      ChainsFor (reports ++ [⟨prev, e.index, e.inSharedCache⟩]) (words ++ [e], prev)

lemma ChainsFor.walk {reports : List SelectorReport} {state : List SelectorReferenceFixup × Nat}
    (h : ChainsFor reports state) : walkWords none state.1 = (reports, none) := by
  cases h with
  | start => rfl
  | chain hnext hprev halign hwalk =>
    rw [walkWords_append, hwalk]
    simp [walkWords, hnext]

lemma ChainsFor.push {f : SelectorFixup} (hf : f.Fits getIndex)
    {words : List SelectorReferenceFixup} {reports : List SelectorReport}
    (hwalk : walkWords none words = (reports, some f.fixupVMOffset)) :
    ChainsFor (reports ++ [f.report getIndex])
      (words ++ [.entry (f.target.tableIndex getIndex) f.target.isSharedCache],
        f.fixupVMOffset) := by
  have h := ChainsFor.chain (e := .entry (f.target.tableIndex getIndex) f.target.isSharedCache)
    (SelectorReferenceFixup.next_entry _ _) hf.below hf.aligned hwalk
  rw [SelectorReferenceFixup.index_entry hf.index_lt,
    SelectorReferenceFixup.inSharedCache_entry] at h
  exact h

lemma addSelectorFixup_spec {f : SelectorFixup} (hf : f.Fits getIndex)
    {reports : List SelectorReport} {state : List SelectorReferenceFixup × Nat}
    (h : ChainsFor reports state) (hne : f.fixupVMOffset ≠ state.2) :
    ∃ state', addSelectorFixup getIndex state f = some state' ∧
      ChainsFor (reports ++ [f.report getIndex]) state' ∧ state'.2 = f.fixupVMOffset := by
  have habove := hf.above
  have hbelow := hf.below
  unfold addSelectorFixup
  dsimp only
  rw [if_neg (not_not.mpr hf.aligned), hf.entry]
  by_cases hnear : (f.fixupVMOffset + 2 ^ 64 - state.2) % 2 ^ 64 ≤ maxChainOffset
  · rw [if_pos hnear]
    cases h with
    | start =>
      simp only [maxChainOffset] at hnear
      omega
    | chain hnext hprev halign hwalk =>
      rename_i words e reports prev
      simp only [maxChainOffset] at hnear
      dsimp only at hnear hne ⊢
      -- a near fixup lies after the previous one
      have hge : prev < f.fixupVMOffset := by omega
      have hdist : (f.fixupVMOffset + 2 ^ 64 - prev) % 2 ^ 64 = f.fixupVMOffset - prev := by omega
      have haligned := hf.aligned
      have hstep : (f.fixupVMOffset - prev) / 4 % 2 ^ 7 = (f.fixupVMOffset - prev) / 4 := by omega
      have hpos : (f.fixupVMOffset - prev) / 4 ≠ 0 := by omega
      have hto : (prev + 4 * ((f.fixupVMOffset - prev) / 4)) % 2 ^ 64 = f.fixupVMOffset := by omega
      rw [hdist, List.getLast?_concat, List.dropLast_concat]
      refine ⟨_, rfl, ?_, rfl⟩
      apply ChainsFor.push hf
      rw [walkWords_append, hwalk]
      simp only [walkWords, SelectorReferenceFixup.next_setNext, hstep, if_neg hpos, hto,
        SelectorReferenceFixup.index_setNext, SelectorReferenceFixup.inSharedCache_setNext]
  · rw [if_neg hnear]
    refine ⟨_, rfl, ?_, rfl⟩
    apply ChainsFor.push hf
    rw [walkWords_append, h.walk]
    simp only [walkWords, List.append_nil, SelectorReferenceFixup.chainStartVMOffset,
      BitVec.toNat_ofNat, Nat.mod_eq_of_lt hbelow]

lemma foldlM_addSelectorFixup (fixups : List SelectorFixup)
    (hfits : ∀ f ∈ fixups, f.Fits getIndex) {reports : List SelectorReport}
    {state : List SelectorReferenceFixup × Nat} (h : ChainsFor reports state)
    (hne : ∀ f ∈ fixups, f.fixupVMOffset ≠ state.2)
    (hdistinct : fixups.Pairwise (fun f f' => f.fixupVMOffset ≠ f'.fixupVMOffset)) :
    ∃ state', fixups.foldlM (addSelectorFixup getIndex) state = some state' ∧
      ChainsFor (reports ++ fixups.map (SelectorFixup.report getIndex)) state' := by
  induction fixups generalizing reports state with
  | nil => exact ⟨state, rfl, by simpa using h⟩
  | cons f fixups ih =>
    rw [List.pairwise_cons] at hdistinct
    obtain ⟨next, hnext, hinv, hprev⟩ := addSelectorFixup_spec (hfits f List.mem_cons_self) h
      (hne f List.mem_cons_self)
    obtain ⟨state', hfold, hdone⟩ := ih (fun g hg => hfits g (List.mem_cons_of_mem f hg)) hinv
      (fun g hg => by rw [hprev]; exact (hdistinct.1 g hg).symm) hdistinct.2
    refine ⟨state', ?_, by simpa using hdone⟩
    rw [List.foldlM_cons, hnext]
    exact hfold

lemma selectorReferences_spec {fixups : List SelectorFixup}
    (hfits : ∀ f ∈ fixups, f.Fits getIndex)
    (hdistinct : fixups.Pairwise (fun f f' => f.fixupVMOffset ≠ f'.fixupVMOffset)) :
    ∃ words, selectorReferences getIndex fixups = some words ∧
      walkSelectorReferences none words = some (fixups.map (SelectorFixup.report getIndex)) := by
  have hne : ∀ f ∈ fixups, f.fixupVMOffset ≠ 0 := by
    intro f hf
    have := (hfits f hf).above
    omega
  obtain ⟨state, hfold, hchains⟩ := foldlM_addSelectorFixup fixups hfits .start hne hdistinct
  refine ⟨state.1, ?_, ?_⟩
  · rw [selectorReferences, hfold]
    rfl
  · rw [walkSelectorReferences_eq, hchains.walk]
    rfl

end Chains

/-! ### The attribute read back -/

section Attribute

variable {m : Mem} {p : Nat}

lemma FixupPattern.ofWord_word {ptrSize : Nat} {q : FixupPattern} (h : q.Fits ptrSize) :
    FixupPattern.ofWord q.word = q := by
  have hstart : q.startVmOffset < 2 ^ 40 := by
    have := h.last_lt
    omega
  have hskip := h.skip_lt
  have hrepeat := h.repeat_lt
  unfold FixupPattern.ofWord FixupPattern.word
  congr 1
  · rw [getField_setField_apart _ (by decide), getField_setField_apart _ (by decide),
      getField_setField_same _ (by decide), Nat.mod_eq_of_lt hstart]
  · rw [getField_setField_apart _ (by decide), getField_setField_same _ (by decide),
      Nat.mod_eq_of_lt hskip]
  · rw [getField_setField_same _ (by decide), Nat.mod_eq_of_lt (by omega)]

lemma length_arrayBytes (n : Nat) (words : List (BitVec (8 * n))) :
    (arrayBytes n words).length = n * words.length := by
  induction words with
  | nil => rfl
  | cons w words ih =>
    have hcons : arrayBytes n (w :: words) = wordBytes n w ++ arrayBytes n words := rfl
    rw [hcons, List.length_append, length_wordBytes, ih, List.length_cons, Nat.mul_succ]
    omega

lemma loadArray_of_bytesAt {n : Nat} {words : List (BitVec (8 * n))}
    (h : BytesAt m p (arrayBytes n words)) : loadArray n m p words.length = words := by
  induction words generalizing p with
  | nil => rfl
  | cons w words ih =>
    have hcons : arrayBytes n (w :: words) = wordBytes n w ++ arrayBytes n words := rfl
    rw [hcons, bytesAt_append, length_wordBytes] at h
    have hrest := ih h.2
    unfold loadArray at hrest ⊢
    rw [List.length_cons, List.range_succ_eq_map, List.map_cons, List.map_map, Nat.mul_zero,
      Nat.add_zero, load_of_bytesAt h.1]
    congr 1
    conv_rhs => rw [← hrest]
    apply List.map_congr_left
    intro i _
    simp only [Function.comp, Nat.mul_succ]
    congr 1
    omega

lemma toNat_count32 {α : Type} {l : List α} (h : l.length < 2 ^ 24) :
    (count32 l).toNat = l.length := by
  unfold count32
  rw [BitVec.toNat_ofNat, Nat.mod_eq_of_lt]
  omega

lemma countedBytes_eq {n : Nat} {words : List (BitVec (8 * n))} (h : words.length < 2 ^ 24) :
    countedBytes n words = arrayBytes n words := by
  unfold countedBytes
  split
  · rename_i hzero
    have hlen := toNat_count32 h
    rw [hzero] at hlen
    rw [List.length_eq_zero_iff.mp hlen.symm]
    rfl
  · rfl

/-- The arrays as they are built: every pattern fits, and all counts fit their fields. -/
structure ObjCFixupArrays.Fits (ptrSize : Nat) (a : ObjCFixupArrays) : Prop where
  protocols : ∀ q ∈ a.protocolISAFixups, q.Fits ptrSize
  stableSwift : ∀ q ∈ a.classStableSwiftFixups, q.Fits ptrSize
  methodLists : ∀ q ∈ a.methodListFixups, q.Fits ptrSize
  size_lt : objCFixupSize a < 2 ^ 24

lemma map_ofWord_word {ptrSize : Nat} {patterns : List FixupPattern}
    (h : ∀ q ∈ patterns, q.Fits ptrSize) :
    (patterns.map FixupPattern.word).map FixupPattern.ofWord = patterns := by
  rw [List.map_map]
  conv_rhs => rw [← List.map_id patterns]
  apply List.map_congr_left
  intro q hq
  exact FixupPattern.ofWord_word (h q hq)

lemma length_objCFixupBytes {a : ObjCFixupArrays} (target info : BitVec (8 * 8))
    (h : objCFixupSize a < 2 ^ 24) : (objCFixupBytes target info a).length = objCFixupSize a := by
  unfold objCFixupSize at h ⊢
  dsimp only at h ⊢
  unfold objCFixupBytes
  rw [countedBytes_eq (by rw [List.length_map]; omega), countedBytes_eq (by omega),
    countedBytes_eq (by rw [List.length_map]; omega),
    countedBytes_eq (by rw [List.length_map]; omega)]
  simp only [List.length_append, length_wordBytes, length_arrayBytes, List.length_map]
  omega

lemma readObjCFixups_of_bytesAt {ptrSize : Nat} {a : ObjCFixupArrays} (ha : a.Fits ptrSize)
    (target info : BitVec (8 * 8)) (h : BytesAt m p (objCFixupBytes target info a)) :
    readObjCFixups m p (objCFixupSize a) = ⟨target, info, a⟩ := by
  have hsize := ha.size_lt
  unfold objCFixupSize at hsize
  dsimp only at hsize
  unfold objCFixupBytes at h
  rw [countedBytes_eq (by rw [List.length_map]; omega), countedBytes_eq (by omega),
    countedBytes_eq (by rw [List.length_map]; omega),
    countedBytes_eq (by rw [List.length_map]; omega)] at h
  simp only [bytesAt_append, length_wordBytes, length_arrayBytes, List.length_map] at h
  obtain ⟨htarget, hinfo, hpc, hsc, hp, hs, hwc, hmc, hw, hml⟩ := h
  have h16 : p + 8 + 8 = p + 16 := by omega
  have h20 : p + 16 + 4 = p + 20 := by omega
  have h24 : p + 20 + 4 = p + 24 := by omega
  rw [h16] at hpc hsc hp hs hwc hmc hw hml
  rw [h20] at hsc hp hs hwc hmc hw hml
  rw [h24] at hp hs hwc hmc hw hml
  have hpcount : (load 4 m (p + 16)).toNat = a.protocolISAFixups.length := by
    rw [load_of_bytesAt hpc, toNat_count32 (by omega)]
  have hscount : (load 4 m (p + 20)).toNat = a.selRefFixups.length := by
    rw [load_of_bytesAt hsc, toNat_count32 (by omega)]
  have hwcount : (load 4 m (p + 24 + 8 * a.protocolISAFixups.length +
      4 * a.selRefFixups.length)).toNat = a.classStableSwiftFixups.length := by
    rw [load_of_bytesAt hwc, toNat_count32 (by omega)]
  have hmcount : (load 4 m (p + 24 + 8 * a.protocolISAFixups.length +
      4 * a.selRefFixups.length + 4)).toNat = a.methodListFixups.length := by
    rw [load_of_bytesAt hmc, toNat_count32 (by omega)]
  have hprotocols := loadArray_of_bytesAt hp
  have hselectors := loadArray_of_bytesAt hs
  have hstableSwift := loadArray_of_bytesAt hw
  have hmethodLists := loadArray_of_bytesAt hml
  rw [List.length_map] at hprotocols hstableSwift hmethodLists
  unfold readObjCFixups
  dsimp only
  rw [if_neg (by unfold objCFixupSize; dsimp only; omega)]
  have h8 : ∀ x, x + 8 = x + 4 + 4 := fun x => rfl
  rw [load_of_bytesAt htarget, load_of_bytesAt hinfo, hpcount, hscount, hwcount, hmcount]
  rw [hprotocols, hselectors, h8, hstableSwift, hmethodLists, map_ofWord_word ha.protocols,
    map_ofWord_word ha.stableSwift, map_ofWord_word ha.methodLists]

lemma ContainerInv.appendAll {containerType : TypedBytesType} {w w' : ContainerTypedBytesWriter}
    {cs : List AppendCall} (calls : List AppendCall) (h : ContainerInv containerType w cs)
    (hok : appendAll w calls = .ok w') : ContainerInv containerType w' (cs ++ calls) := by
  induction calls generalizing w cs with
  | nil =>
    cases hok
    simpa using h
  | cons c calls ih =>
    unfold Closure.appendAll at hok
    split at hok
    · rename_i v hv
      simpa using ih (h.appendCall hv) hok
    · cases hok

lemma writeImage_inv {before after : List AppendCall} {target info : BitVec (8 * 8)}
    {a : ObjCFixupArrays} {w : ContainerTypedBytesWriter} (hsize : objCFixupSize a < 2 ^ 24)
    (hok : writeImage before after target info a = .ok w) :
    ContainerInv .image w (before ++ ⟨.objcFixups, objCFixupBytes target info a⟩ :: after) := by
  unfold writeImage at hok
  split at hok
  · cases hok
  rename_i w₁ hw₁
  split at hok
  · cases hok
  rename_i w₂ hw₂
  split at hok
  · cases hok
  rename_i w₃ hw₃
  cases hok
  have h₁ := (containerInv_setContainerType .image).appendAll before hw₁
  have hlen := length_objCFixupBytes target info hsize
  unfold setObjCFixupInfo at hw₂
  rw [← hlen, Nat.mod_eq_of_lt (by omega)] at hw₂
  have h₂ := (h₁.appendAndFill (fun _ => le_rfl) hw₂).1
  rw [Nat.sub_self, List.replicate_zero, List.append_nil, List.nil_append] at h₂
  have h₃ := h₂.appendAll after hw₃
  rwa [List.append_assoc, List.singleton_append] at h₃

end Attribute

/-! ### The round trip -/

/-- The fixups of an image that the attribute can hold. -/
structure ObjCImageFixups.Fits (getIndex : List UInt8 → Nat) (image : ObjCImageFixups) : Prop where
  protocols : ∀ x ∈ image.protocolISAFixups, x < 2 ^ 40
  selectors : ∀ f ∈ image.selectorFixups, f.Fits getIndex
  distinct : image.selectorFixups.Pairwise (fun f f' => f.fixupVMOffset ≠ f'.fixupVMOffset)
  stableSwift : ∀ x ∈ image.classStableSwiftFixups, x < 2 ^ 40
  methodLists : ∀ x ∈ image.methodListFixups, x < 2 ^ 40

/-- The calls that the handlers should see. -/
def ObjCImageFixups.report (getIndex : List UInt8 → Nat) (target info : BitVec (8 * 8))
    (image : ObjCImageFixups) : ObjCFixupReport :=
  ⟨info, image.protocolISAFixups.map (fun offset => (offset, target)),
    image.selectorFixups.map (SelectorFixup.report getIndex),
    image.classStableSwiftFixups, image.methodListFixups⟩

/-- The arrays are built without a failed assertion; an attribute that holds them, with any
others around it, gives the four lists back. -/
theorem objcFixups_roundTrip {ptrSize : Nat} (hptr : ptrSize = 4 ∨ ptrSize = 8)
    (getIndex : List UInt8 → Nat) (target info : BitVec (8 * 8)) (image : ObjCImageFixups)
    (himage : image.Fits getIndex) (before after : List AppendCall)
    (hbefore : ∀ c ∈ before, c.type ≠ .objcFixups) :
    ∃ a, optimizeObjC ptrSize getIndex image = some a ∧
      ∀ w, objCFixupSize a < 2 ^ 24 → writeImage before after target info a = .ok w →
        forEachObjCFixup ptrSize w.content = some (image.report getIndex target info) := by
  obtain ⟨protocols, hprotocols, hpwalk, hpfits⟩ := fixupPatterns_spec hptr himage.protocols
  obtain ⟨words, hwords, hswalk⟩ := selectorReferences_spec himage.selectors himage.distinct
  obtain ⟨swift, hswift, hwwalk, hwfits⟩ := fixupPatterns_spec hptr himage.stableSwift
  obtain ⟨lists, hlists, hmwalk, hmfits⟩ := fixupPatterns_spec hptr himage.methodLists
  refine ⟨⟨protocols, words, swift, lists⟩, ?_, ?_⟩
  · simp only [optimizeObjC, hprotocols, hwords, hswift, hlists, Option.bind_some,
      Option.map_some]
  · intro w hsize hw
    have hinv := writeImage_inv hsize hw
    obtain ⟨q, hfind, hbytes, -⟩ := hinv.payload hbefore
    have hread := readObjCFixups_of_bytesAt ⟨hpfits, hwfits, hmfits, hsize⟩ target info hbytes
    dsimp only at hfind
    rw [length_objCFixupBytes target info hsize] at hfind
    simp only [forEachObjCFixup, objcFixups, hfind, Option.bind_some, Option.map_some, hread,
      hswalk, hpwalk, hwwalk, hmwalk, ObjCImageFixups.report]

/-- Three protocols, two of them adjacent, two selectors in one chain, and a Swift class. -/
def smallFixups : ObjCImageFixups :=
  ⟨[16, 24, 64], [⟨1024, .sharedCache 5⟩, ⟨1032, .image [102]⟩], [4096], []⟩

theorem objcFixups_roundTrip_small :
    ∃ a w, optimizeObjC 8 (fun _ => 7) smallFixups = some a ∧
      writeImage [⟨.uuid, [1, 2, 3, 4]⟩] [⟨.cdHash, []⟩] 9 40 a = .ok w ∧
      forEachObjCFixup 8 w.content = some ⟨40, [(16, 9), (24, 9), (64, 9)],
        [⟨1024, 5, true⟩, ⟨1032, 7, false⟩], [4096], []⟩ := by
  have hfits : smallFixups.Fits (fun _ => 7) := by
    refine ⟨by simp [smallFixups], ?_, by decide, by simp [smallFixups], by simp [smallFixups]⟩
    intro f hf
    simp only [smallFixups, List.mem_cons, List.not_mem_nil, or_false] at hf
    rcases hf with rfl | rfl
    · exact ⟨rfl, by norm_num, by norm_num, by norm_num [SelectorTarget.tableIndex]⟩
    · exact ⟨rfl, by norm_num, by norm_num, by norm_num [SelectorTarget.tableIndex]⟩
  obtain ⟨a, ha, hround⟩ := objcFixups_roundTrip (.inr rfl) (fun _ => 7) 9 40 smallFixups hfits
    [⟨.uuid, [1, 2, 3, 4]⟩] [⟨.cdHash, []⟩] (by decide)
  have hsmall : optimizeObjC 8 (fun _ => 7) smallFixups =
      some ⟨[⟨16, 0, 2⟩, ⟨64, 0, 1⟩], [1024, 2181038085, 7], [⟨4096, 0, 1⟩], []⟩ := by
    decide +kernel
  rw [hsmall, Option.some.injEq] at ha
  subst ha
  cases hw : writeImage [⟨.uuid, [1, 2, 3, 4]⟩] [⟨.cdHash, []⟩] 9 40
      ⟨[⟨16, 0, 2⟩, ⟨64, 0, 1⟩], [1024, 2181038085, 7], [⟨4096, 0, 1⟩], []⟩ with
  | error e =>
    have hok : (writeImage [⟨.uuid, [1, 2, 3, 4]⟩] [⟨.cdHash, []⟩] 9 40
      ⟨[⟨16, 0, 2⟩, ⟨64, 0, 1⟩], [1024, 2181038085, 7], [⟨4096, 0, 1⟩], []⟩).isOk = true := by
      decide +kernel
    rw [hw] at hok
    cases hok
  | ok w => exact ⟨_, w, hsmall, hw, hround w (by norm_num [objCFixupSize]) hw⟩

/-! ### More fixups than an attribute holds -/

lemma addFixup_zero (ptrSize last : Nat) (patterns : List FixupPattern) :
    addFixup ptrSize (patterns, last) 0 = some (patterns ++ [⟨0, 0, 1⟩], 0) := by
  simp [addFixup]

lemma foldlM_addFixup_zero (ptrSize n last : Nat) (patterns : List FixupPattern) :
    ∃ last', (List.replicate n 0).foldlM (addFixup ptrSize) (patterns, last) =
      some (patterns ++ List.replicate n ⟨0, 0, 1⟩, last') := by
  induction n generalizing patterns last with
  | zero => exact ⟨last, by simp⟩
  | succ n ih =>
    obtain ⟨last', h⟩ := ih 0 (patterns ++ [⟨0, 0, 1⟩])
    refine ⟨last', ?_⟩
    rw [List.replicate_succ, List.foldlM_cons, addFixup_zero]
    simpa [List.replicate_succ] using h

lemma writeImage_tooLarge {n : Nat} {target info : BitVec (8 * 8)} (hn : n = 2 ^ 21)
    (w : ContainerTypedBytesWriter) :
    writeImage [] [] target info ⟨List.replicate n ⟨0, 0, 1⟩, [], [], []⟩ ≠ .ok w := by
  intro hok
  have hsize : objCFixupSize ⟨List.replicate n ⟨0, 0, 1⟩, [], [], []⟩ = 32 + 8 * n := by
    simp [objCFixupSize]
  unfold writeImage at hok
  simp only [appendAll] at hok
  split at hok
  · cases hok
  rename_i v hv
  unfold setObjCFixupInfo appendAndFill at hv
  rw [hsize, Nat.mod_eq_of_lt (by omega)] at hv
  split at hv
  · cases hv
  rename_i u hu
  have hbounds := (containerInv_setContainerType .image).append_bounds hu
  omega

def manyProtocols (n : Nat) : ObjCImageFixups := ⟨List.replicate n 0, [], [], []⟩

lemma manyProtocols_fits (getIndex : List UInt8 → Nat) (n : Nat) :
    (manyProtocols n).Fits getIndex := by
  constructor
  · intro x hx
    rw [List.eq_of_mem_replicate hx]
    exact Nat.two_pow_pos 40
  · simp [manyProtocols]
  · simp [manyProtocols]
  · simp [manyProtocols]
  · simp [manyProtocols]

lemma optimizeObjC_manyProtocols (getIndex : List UInt8 → Nat) (n : Nat) :
    optimizeObjC 8 getIndex (manyProtocols n) =
      some ⟨List.replicate n ⟨0, 0, 1⟩, [], [], []⟩ := by
  obtain ⟨last, hfold⟩ := foldlM_addFixup_zero 8 n (2 ^ 32 - 8) []
  have hprotocols : fixupPatterns 8 (manyProtocols n).protocolISAFixups =
      some (List.replicate n ⟨0, 0, 1⟩) := by
    unfold fixupPatterns manyProtocols
    rw [hfold, List.nil_append]
    rfl
  unfold optimizeObjC
  rw [hprotocols]
  rfl

/-- An image whose attribute would need 16 MB or more: `append` ends the process. -/
theorem manyProtocols_not_written :
    (manyProtocols (2 ^ 21)).Fits (fun _ => 0) ∧
      ∃ a, optimizeObjC 8 (fun _ => 0) (manyProtocols (2 ^ 21)) = some a ∧
        ∀ w, writeImage [] [] 0 0 a ≠ .ok w :=
  ⟨manyProtocols_fits _ _, _, optimizeObjC_manyProtocols _ _, writeImage_tooLarge rfl⟩

end Dyld.Closure
