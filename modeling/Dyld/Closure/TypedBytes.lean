import Dyld.Lib.ByteStrings
import Dyld.Lib.BitField

/-!
# Typed-bytes containers

The closure writer's growable buffer (`ContainerTypedBytesWriter`) and the reader of the
container it leaves behind (`ContainerTypedBytes`). All offsets are relative to the start of
the container, which `vm_allocate` returns page aligned and zero filled.
-/

namespace Dyld.Closure
open Dyld.Lib

inductive TypedBytesType
  | launchClosure | imageArray | image | dlopenClosure
  | imageFlags | pathWithHash | fileInodeAndTime | cdHash | uuid | mappingInfo | diskSegment
  | cacheSegment | dependents | initOffsets | dofOffsets | codeSignLoc | fairPlayLoc
  | rebaseFixups | bindFixups | cachePatchInfo | textFixups | imageOverride | initBefores
  | initsSection | chainedFixupsTargets | termOffsets | chainedStartsOffset | objcFixups
  | closureFlags | dyldCacheUUID | missingFiles | envVar | topImage | libDyldEntry
  | libSystemNum | mainEntry | startEntry | cacheOverrides | interposeTuples | existingFiles
  | selectorTable | classTable | warning | duplicateClassesTable | progVars
  deriving DecidableEq, Repr

namespace TypedBytesType

/-- The value of the enumerator, as stored in the 8-bit `type` field. -/
def code : TypedBytesType → Nat
  | launchClosure => 1 | imageArray => 2 | image => 3 | dlopenClosure => 4
  | imageFlags => 7 | pathWithHash => 8 | fileInodeAndTime => 9 | cdHash => 10 | uuid => 11
  | mappingInfo => 12 | diskSegment => 13 | cacheSegment => 14 | dependents => 15
  | initOffsets => 16 | dofOffsets => 17 | codeSignLoc => 18 | fairPlayLoc => 19
  | rebaseFixups => 20 | bindFixups => 21 | cachePatchInfo => 22 | textFixups => 23
  | imageOverride => 24 | initBefores => 25 | initsSection => 26 | chainedFixupsTargets => 27
  | termOffsets => 28 | chainedStartsOffset => 29 | objcFixups => 30 | closureFlags => 32
  | dyldCacheUUID => 33 | missingFiles => 34 | envVar => 35 | topImage => 36 | libDyldEntry => 37
  | libSystemNum => 38 | mainEntry => 40 | startEntry => 41 | cacheOverrides => 42
  | interposeTuples => 43 | existingFiles => 44 | selectorTable => 45 | classTable => 46
  | warning => 47 | duplicateClassesTable => 48 | progVars => 49

/-- The enumerators in the order of the source. -/
def all : List TypedBytesType :=
  [launchClosure, imageArray, image, dlopenClosure, imageFlags, pathWithHash, fileInodeAndTime,
    cdHash, uuid, mappingInfo, diskSegment, cacheSegment, dependents, initOffsets, dofOffsets,
    codeSignLoc, fairPlayLoc, rebaseFixups, bindFixups, cachePatchInfo, textFixups, imageOverride,
    initBefores, initsSection, chainedFixupsTargets, termOffsets, chainedStartsOffset, objcFixups,
    closureFlags, dyldCacheUUID, missingFiles, envVar, topImage, libDyldEntry, libSystemNum,
    mainEntry, startEntry, cacheOverrides, interposeTuples, existingFiles, selectorTable,
    classTable, warning, duplicateClassesTable, progVars]

lemma code_lt (t : TypedBytesType) : t.code < 2 ^ 8 := by
  cases t <;> decide

lemma find_code (t : TypedBytesType) : all.find? (fun u => u.code == t.code) = some t := by
  cases t <;> rfl

lemma code_inj {t u : TypedBytesType} (h : t.code = u.code) : t = u := by
  have ht := find_code t
  rw [h, find_code u] at ht
  exact (Option.some.inj ht).symm

end TypedBytesType

abbrev sizeofTypedBytes : Nat := 4

def typeField (m : Mem) (p : Nat) : Nat := getField (load 4 m p) 0 8

def payloadLength (m : Mem) (p : Nat) : Nat := getField (load 4 m p) 8 24

def setType (m : Mem) (p v : Nat) : Mem := store 4 m p (setField (load 4 m p) 0 8 v)

def setPayloadLength (m : Mem) (p v : Nat) : Mem := store 4 m p (setField (load 4 m p) 8 24 v)

/-! ### The writer -/

structure ContainerTypedBytesWriter where
  content : Mem
  vmAllocationSize : Nat
  endOffset : Nat

/-- The assertions of `ContainerTypedBytesWriter::append`, in order. -/
inductive AppendAssertion
  | payloadSizeMultipleOf4
  | payloadInsideAllocation
  | containerBelow16MB
  deriving DecidableEq, Repr

def setContainerType (containerType : TypedBytesType) : ContainerTypedBytesWriter where
  content := setPayloadLength (setType (fun _ => 0) 0 containerType.code) 0 0
  vmAllocationSize := 1024 * 1024
  endOffset := sizeofTypedBytes

/-- The allocation size `append` chooses when the current buffer is too small. -/
def newAllocationSize (vmAllocationSize payloadSize : Nat) : Nat :=
  let growth := if vmAllocationSize < payloadSize then
      vmAllocationSize * (payloadSize / vmAllocationSize + 1) else vmAllocationSize
  vmAllocationSize + growth

/-- The reallocation branch of `append`: the bytes in use move to fresh zeroed memory. -/
def growFor (w : ContainerTypedBytesWriter) (payloadSize : Nat) : ContainerTypedBytesWriter :=
  if w.endOffset + payloadSize ≥ w.vmAllocationSize then
    { content := fun x => if x < w.endOffset then w.content x else 0
      vmAllocationSize := newAllocationSize w.vmAllocationSize payloadSize
      endOffset := w.endOffset }
  else w

/-- The record `append` writes at `tb`; a null payload leaves the bytes as allocated. -/
def writeTypedBytes (m : Mem) (tb : Nat) (t : TypedBytesType) (payload : Option (List UInt8))
    (payloadSize : Nat) : Mem :=
  let m := setPayloadLength (setType m tb t.code) tb payloadSize
  match payload with
  | some bytes => writeBytes m (tb + sizeofTypedBytes) (bytes.take payloadSize)
  | none => m

def append (w : ContainerTypedBytesWriter) (t : TypedBytesType) (payload : Option (List UInt8))
    (payloadSize : Nat) : Except AppendAssertion ContainerTypedBytesWriter :=
  if payloadSize % 4 ≠ 0 then .error .payloadSizeMultipleOf4
  else
    let w := growFor w payloadSize
    if ¬(w.endOffset + payloadSize < w.vmAllocationSize) then .error .payloadInsideAllocation
    else
      let m := writeTypedBytes w.content w.endOffset t payload payloadSize
      let length := payloadLength m 0 + sizeofTypedBytes + payloadSize
      if ¬(length < 16 * 1024 * 1024) then .error .containerBelow16MB
      else .ok
        { content := setPayloadLength m 0 length
          vmAllocationSize := w.vmAllocationSize
          endOffset := w.endOffset + sizeofTypedBytes + payloadSize }

def finalizedSize (w : ContainerTypedBytesWriter) (pageSize : Nat) : Nat :=
  let used := (w.endOffset + pageSize - 1) / pageSize * pageSize
  if used < w.vmAllocationSize then used else w.vmAllocationSize

/-! ### The reader -/

/-- `ContainerTypedBytes::next`, with its assertion. -/
def next (m : Mem) (p : Nat) : Option Nat :=
  if payloadLength m p % 4 = 0 then some (p + sizeofTypedBytes + payloadLength m p) else none

lemma lt_of_next {m : Mem} {p q : Nat} (h : next m p = some q) : p < q := by
  unfold next at h
  split at h
  · simp only [Option.some.injEq, sizeofTypedBytes] at h
    omega
  · simp at h

/-- The loop of `forEachAttribute` from `p` to `stopAt`. -/
def forEachAttributeFrom {σ : Type} (m : Mem) (stopAt : Nat) (handler : σ → Nat → σ × Bool)
    (s : σ) (p : Nat) : Option σ :=
  if p < stopAt then
    match h : next m p with
    | none => none
    | some q =>
      have : p < q := lt_of_next h
      if (handler s p).2 then some (handler s p).1
      else forEachAttributeFrom m stopAt handler (handler s p).1 q
  else some s
termination_by stopAt - p

/-- `ContainerTypedBytes::forEachAttribute` on the container at offset 0. -/
def forEachAttribute {σ : Type} (m : Mem) (handler : σ → Nat → σ × Bool) (s : σ) : Option σ :=
  (next m 0).bind (fun stopAt => forEachAttributeFrom m stopAt handler s sizeofTypedBytes)

/-- The loop of `findAttributePayload`: the payload's offset and size, or null. -/
def findAttributePayloadFrom (m : Mem) (stopAt : Nat) (requestedType : TypedBytesType) (p : Nat) :
    Option (Option (Nat × Nat)) :=
  if p < stopAt then
    if typeField m p = requestedType.code then some (some (p + sizeofTypedBytes, payloadLength m p))
    else
      match h : next m p with
      | none => none
      | some q =>
        have : p < q := lt_of_next h
        findAttributePayloadFrom m stopAt requestedType q
  else some none
termination_by stopAt - p

def findAttributePayload (m : Mem) (requestedType : TypedBytesType) : Option (Option (Nat × Nat)) :=
  (next m 0).bind (fun stopAt => findAttributePayloadFrom m stopAt requestedType sizeofTypedBytes)

/-! ### Runs -/

structure AppendCall where
  type : TypedBytesType
  payload : List UInt8
  deriving DecidableEq, Repr

def appendCall (w : ContainerTypedBytesWriter) (c : AppendCall) :
    Except AppendAssertion ContainerTypedBytesWriter :=
  append w c.type (some c.payload) c.payload.length

/-- The calls of a run in order, up to the first failed assertion. -/
def appendAll (w : ContainerTypedBytesWriter) : List AppendCall →
    Except AppendAssertion ContainerTypedBytesWriter
  | [] => .ok w
  | c :: cs =>
    match appendCall w c with
    | .ok w' => appendAll w' cs
    | .error e => .error e

def totalSize : List AppendCall → Nat
  | [] => 0
  | c :: cs => sizeofTypedBytes + c.payload.length + totalSize cs

def recordAttribute (m : Mem) (seen : List (Nat × List UInt8)) (p : Nat) :
    List (Nat × List UInt8) × Bool :=
  (seen ++ [(typeField m p, readBytes m (p + sizeofTypedBytes) (payloadLength m p))], false)

def Records (m : Mem) : Nat → List AppendCall → Prop
  | _, [] => True
  | p, c :: cs => typeField m p = c.type.code ∧ payloadLength m p = c.payload.length ∧
      readBytes m (p + sizeofTypedBytes) c.payload.length = c.payload ∧
      Records m (p + sizeofTypedBytes + c.payload.length) cs

structure WriterInv (containerType : TypedBytesType) (w : ContainerTypedBytesWriter)
    (cs : List AppendCall) : Prop where
  endOffset_eq : w.endOffset = sizeofTypedBytes + totalSize cs
  endOffset_le : w.endOffset ≤ w.vmAllocationSize
  size_mod : w.vmAllocationSize % 4 = 0
  container_type : typeField w.content 0 = containerType.code
  container_length : payloadLength w.content 0 = totalSize cs
  records : Records w.content sizeofTypedBytes cs
  payload_mod : ∀ c ∈ cs, c.payload.length % 4 = 0

/-! ### Memory lemmas -/

lemma typeField_congr {m m' : Mem} {p : Nat} (h : ∀ x, InWord 4 p x → m x = m' x) :
    typeField m p = typeField m' p := by
  rw [typeField, typeField, load_congr h]

lemma payloadLength_congr {m m' : Mem} {p : Nat} (h : ∀ x, InWord 4 p x → m x = m' x) :
    payloadLength m p = payloadLength m' p := by
  rw [payloadLength, payloadLength, load_congr h]

lemma setType_apply {m : Mem} {p v x : Nat} (h : ¬InWord 4 p x) : setType m p v x = m x :=
  store_apply_of_not_inWord h

lemma setPayloadLength_apply {m : Mem} {p v x : Nat} (h : ¬InWord 4 p x) :
    setPayloadLength m p v x = m x :=
  store_apply_of_not_inWord h

@[simp] lemma typeField_setType (m : Mem) (p v : Nat) : typeField (setType m p v) p = v % 2 ^ 8 := by
  rw [typeField, setType, load_store_same, getField_setField_same _ (by omega)]

@[simp] lemma typeField_setPayloadLength (m : Mem) (p v : Nat) :
    typeField (setPayloadLength m p v) p = typeField m p := by
  rw [typeField, setPayloadLength, load_store_same, getField_setField_apart _ (by omega), typeField]

@[simp] lemma payloadLength_setPayloadLength (m : Mem) (p v : Nat) :
    payloadLength (setPayloadLength m p v) p = v % 2 ^ 24 := by
  rw [payloadLength, setPayloadLength, load_store_same, getField_setField_same _ (by omega)]

lemma totalSize_append (cs cs' : List AppendCall) :
    totalSize (cs ++ cs') = totalSize cs + totalSize cs' := by
  induction cs with
  | nil => simp [totalSize]
  | cons c cs ih => simp only [List.cons_append, totalSize, ih]; omega

lemma totalSize_mod {cs : List AppendCall} (h : ∀ c ∈ cs, c.payload.length % 4 = 0) :
    totalSize cs % 4 = 0 := by
  induction cs with
  | nil => rfl
  | cons c cs ih =>
    have hc := h c (by simp)
    have hr := ih (fun d hd => h d (List.mem_cons_of_mem c hd))
    simp only [totalSize, sizeofTypedBytes]
    omega

lemma Records.congr {m m' : Mem} {p : Nat} {cs : List AppendCall} (h : Records m p cs)
    (hm : ∀ x, p ≤ x → x < p + totalSize cs → m x = m' x) : Records m' p cs := by
  induction cs generalizing p with
  | nil => trivial
  | cons c cs ih =>
    obtain ⟨ht, hl, hb, hr⟩ := h
    simp only [totalSize, sizeofTypedBytes] at hm hb hr ⊢
    have hw : ∀ x, InWord 4 p x → m x = m' x :=
      fun x hx => hm x (by unfold InWord at hx; omega) (by unfold InWord at hx; omega)
    refine ⟨by rw [← typeField_congr hw, ht], by rw [← payloadLength_congr hw, hl], ?_, ?_⟩
    · rw [sizeofTypedBytes, ← readBytes_congr (m := m), hb]
      exact fun x h1 h2 => hm x (by omega) (by omega)
    · exact ih hr (fun x h1 h2 => hm x (by unfold sizeofTypedBytes at h1; omega)
        (by unfold sizeofTypedBytes at h2; omega))

lemma Records.concat {m : Mem} {p : Nat} {cs : List AppendCall} {c : AppendCall}
    (h : Records m p cs) (hc : Records m (p + totalSize cs) [c]) : Records m p (cs ++ [c]) := by
  induction cs generalizing p with
  | nil => simpa [totalSize] using hc
  | cons d cs ih =>
    obtain ⟨ht, hl, hb, hr⟩ := h
    refine ⟨ht, hl, hb, ih hr ?_⟩
    have he : p + sizeofTypedBytes + d.payload.length + totalSize cs = p + totalSize (d :: cs) := by
      simp only [totalSize]; omega
    rw [he]
    exact hc

lemma writeTypedBytes_apply {m : Mem} {tb x payloadSize : Nat} {t : TypedBytesType}
    {payload : Option (List UInt8)} (hx : x < tb) :
    writeTypedBytes m tb t payload payloadSize x = m x := by
  have h4 : ¬InWord 4 tb x := by unfold InWord; omega
  have hm : setPayloadLength (setType m tb t.code) tb payloadSize x = m x := by
    rw [setPayloadLength_apply h4, setType_apply h4]
  unfold writeTypedBytes
  cases payload with
  | none => exact hm
  | some bytes => exact (writeBytes_outside (by omega)).trans hm

lemma writeTypedBytes_records (m : Mem) (tb : Nat) {c : AppendCall} (hc : c.payload.length < 2 ^ 24) :
    Records (writeTypedBytes m tb c.type (some c.payload) c.payload.length) tb [c] := by
  simp only [writeTypedBytes, List.take_length]
  have hword : ∀ (m : Mem) x, InWord 4 tb x →
      writeBytes m (tb + sizeofTypedBytes) c.payload x = m x := by
    intro m x hx
    apply writeBytes_outside
    simp only [InWord, sizeofTypedBytes] at *
    omega
  refine ⟨?_, ?_, ?_, trivial⟩
  · rw [typeField_congr (hword _), typeField_setPayloadLength, typeField_setType,
      Nat.mod_eq_of_lt c.type.code_lt]
  · rw [payloadLength_congr (hword _), payloadLength_setPayloadLength, Nat.mod_eq_of_lt hc]
  · exact readBytes_writeBytes_same

/-! ### One call -/

lemma newAllocationSize_mod {size payloadSize : Nat} (h : size % 4 = 0) :
    newAllocationSize size payloadSize % 4 = 0 := by
  unfold newAllocationSize
  split
  · have hm : size * (payloadSize / size + 1) % 4 = 0 := by
      rw [Nat.mul_mod, h, Nat.zero_mul, Nat.zero_mod]
    dsimp only
    omega
  · dsimp only
    omega

/-- The grown buffer holds the payload unless the old one was exactly full and the payload
is exactly as large as the old allocation. -/
lemma lt_newAllocationSize_iff {size used payloadSize : Nat} (hused : used ≤ size) (hpos : 0 < size) :
    used + payloadSize < newAllocationSize size payloadSize ↔ ¬(used = size ∧ payloadSize = size) := by
  unfold newAllocationSize
  split
  · rename_i hlt
    have hdiv : payloadSize < size * (payloadSize / size + 1) := by
      have := Nat.lt_mul_div_succ payloadSize hpos
      simpa using this
    dsimp only
    omega
  · dsimp only
    omega

section Step

variable {containerType : TypedBytesType} {w : ContainerTypedBytesWriter} {cs : List AppendCall}
  {c : AppendCall}

lemma WriterInv.size_pos (h : WriterInv containerType w cs) : 0 < w.vmAllocationSize := by
  have h1 := h.endOffset_eq
  have h2 := h.endOffset_le
  simp only [sizeofTypedBytes] at h1
  omega

/-- Growing the buffer keeps the invariant. -/
lemma WriterInv.growFor (h : WriterInv containerType w cs) (payloadSize : Nat) :
    WriterInv containerType (growFor w payloadSize) cs := by
  unfold Closure.growFor
  split
  · have he := h.endOffset_eq
    simp only [sizeofTypedBytes] at he
    have hhead : ∀ x, InWord 4 0 x → w.content x =
        (fun x => if x < w.endOffset then w.content x else 0) x := by
      intro x hx
      have : x < w.endOffset := by unfold InWord at hx; omega
      simp [this]
    refine ⟨h.endOffset_eq, ?_, newAllocationSize_mod h.size_mod, ?_, ?_, ?_, h.payload_mod⟩
    · have hle := h.endOffset_le
      exact hle.trans (Nat.le_add_right _ _)
    · rw [← typeField_congr hhead, h.container_type]
    · rw [← payloadLength_congr hhead, h.container_length]
    · refine h.records.congr (fun x _ hx => ?_)
      have : x < w.endOffset := by simp only [sizeofTypedBytes] at hx; omega
      simp [this]
  · exact h

/-- After the growth step the assertion on the allocation fails only for an exactly full
buffer that receives a payload of exactly its size. -/
lemma growFor_fits_iff (h : WriterInv containerType w cs) (payloadSize : Nat) :
    (growFor w payloadSize).endOffset + payloadSize < (growFor w payloadSize).vmAllocationSize ↔
      ¬(w.endOffset = w.vmAllocationSize ∧ payloadSize = w.vmAllocationSize) := by
  have hpos := h.size_pos
  unfold growFor
  split
  · exact lt_newAllocationSize_iff h.endOffset_le hpos
  · rename_i hlt
    omega

lemma appendCall_ok (h : WriterInv containerType w cs) (hc : c.payload.length % 4 = 0)
    (htotal : totalSize (cs ++ [c]) < 16 * 1024 * 1024)
    (hroom : ¬(w.endOffset = w.vmAllocationSize ∧ c.payload.length = w.vmAllocationSize)) :
    ∃ w', appendCall w c = .ok w' ∧ WriterInv containerType w' (cs ++ [c]) := by
  have hg := h.growFor c.payload.length
  have hfit := (growFor_fits_iff h c.payload.length).mpr hroom
  unfold appendCall append
  dsimp only
  generalize growFor w c.payload.length = g at hg hfit
  have he := hg.endOffset_eq
  have hmod := totalSize_mod hg.payload_mod
  have hsize := hg.size_mod
  rw [totalSize_append] at htotal
  simp only [totalSize, sizeofTypedBytes] at he htotal
  have hrec := writeTypedBytes_records g.content g.endOffset (c := c) (by omega)
  have hold : ∀ x, x < g.endOffset →
      writeTypedBytes g.content g.endOffset c.type (some c.payload) c.payload.length x = g.content x :=
    fun x hx => writeTypedBytes_apply hx
  generalize writeTypedBytes g.content g.endOffset c.type (some c.payload) c.payload.length = m
    at hrec hold ⊢
  have hhead : ∀ x, InWord 4 0 x → m x = g.content x :=
    fun x hx => hold x (by unfold InWord at hx; omega)
  have hlen : payloadLength m 0 = totalSize cs := by
    rw [payloadLength_congr hhead, hg.container_length]
  have hkeep : ∀ v x, 4 ≤ x → setPayloadLength m 0 v x = m x :=
    fun v x hx => setPayloadLength_apply (by unfold InWord; omega)
  simp only [hc, hfit, hlen, sizeofTypedBytes, ne_eq, not_true_eq_false, if_false]
  rw [if_neg (by omega)]
  refine ⟨_, rfl, ?_, ?_, hsize, ?_, ?_, ?_, ?_⟩
  · simp only [totalSize_append, totalSize, sizeofTypedBytes]
    omega
  · dsimp only
    omega
  · rw [typeField_setPayloadLength, typeField_congr hhead, hg.container_type]
  · rw [payloadLength_setPayloadLength, totalSize_append]
    simp only [totalSize, sizeofTypedBytes]
    omega
  · refine Records.concat (hg.records.congr (fun x h1 h2 => ?_)) ?_
    · simp only [sizeofTypedBytes] at h1 h2
      exact ((hkeep _ x h1).trans (hold x (by omega))).symm
    · rw [← he]
      exact hrec.congr (fun x hx _ => (hkeep _ x (by omega)).symm)
  · intro d hd
    rcases List.mem_append.mp hd with hd | hd
    · exact hg.payload_mod d hd
    · rw [List.mem_singleton.mp hd]
      exact hc

lemma appendCall_vmAllocationSize {w' : ContainerTypedBytesWriter} (h : appendCall w c = .ok w')
    (hfit : w.endOffset + c.payload.length < w.vmAllocationSize) :
    w'.vmAllocationSize = w.vmAllocationSize := by
  have hg : growFor w c.payload.length = w := by
    unfold growFor
    rw [if_neg (by omega)]
  simp only [appendCall, append, hg] at h
  split at h
  · exact absurd h (by simp)
  · split at h
    · exact absurd h (by simp)
    · rw [← Except.ok.inj h]

/-- An exactly full buffer grows to exactly twice its size for a payload of its own size,
and the assertion after the growth fails. -/
lemma appendCall_full (h : WriterInv containerType w cs) (hc : c.payload.length % 4 = 0)
    (hfull : w.endOffset = w.vmAllocationSize ∧ c.payload.length = w.vmAllocationSize) :
    appendCall w c = .error .payloadInsideAllocation := by
  have hfit := mt (growFor_fits_iff h c.payload.length).mp (not_not.mpr hfull)
  simp [appendCall, append, hc, hfit]

end Step

/-! ### Reading a container -/

section Read

variable {m : Mem} {cs : List AppendCall}

lemma next_of_payloadLength {p len : Nat} (h : payloadLength m p = len) (hm : len % 4 = 0) :
    next m p = some (p + sizeofTypedBytes + len) := by
  simp [next, h, hm]

lemma forEachAttributeFrom_records {p : Nat} (h : Records m p cs)
    (hmod : ∀ c ∈ cs, c.payload.length % 4 = 0) (seen : List (Nat × List UInt8)) :
    forEachAttributeFrom m (p + totalSize cs) (recordAttribute m) seen p =
      some (seen ++ cs.map (fun c => (c.type.code, c.payload))) := by
  induction cs generalizing p seen with
  | nil => rw [forEachAttributeFrom]; simp [totalSize]
  | cons c cs ih =>
    obtain ⟨ht, hl, hb, hr⟩ := h
    have hnext := next_of_payloadLength hl (hmod c (by simp))
    have hstop : p + totalSize (c :: cs) = p + sizeofTypedBytes + c.payload.length + totalSize cs := by
      simp only [totalSize]
      omega
    have hlt : p < p + totalSize (c :: cs) := by
      simp only [totalSize, sizeofTypedBytes]
      omega
    rw [forEachAttributeFrom, if_pos hlt]
    split
    · rename_i hn
      rw [hnext] at hn
      exact absurd hn (by simp)
    · rename_i q hq
      rw [hnext, Option.some.injEq] at hq
      subst hq
      have hrecord : recordAttribute m seen p = (seen ++ [(c.type.code, c.payload)], false) := by
        rw [recordAttribute, ht, hl, hb]
      have hrest := ih hr (fun d hd => hmod d (List.mem_cons_of_mem c hd))
        (seen ++ [(c.type.code, c.payload)])
      rw [hrecord, hstop]
      simpa using hrest

lemma findAttributePayloadFrom_records {p : Nat} (h : Records m p cs)
    (hmod : ∀ c ∈ cs, c.payload.length % 4 = 0) (t : TypedBytesType) :
    ∃ r, findAttributePayloadFrom m (p + totalSize cs) t p = some r ∧
      r.map (fun q => readBytes m q.1 q.2) = (cs.find? (fun c => c.type = t)).map (·.payload) := by
  induction cs generalizing p with
  | nil =>
    refine ⟨none, ?_, rfl⟩
    rw [findAttributePayloadFrom]
    simp [totalSize]
  | cons c cs ih =>
    obtain ⟨ht, hl, hb, hr⟩ := h
    have hnext := next_of_payloadLength hl (hmod c (by simp))
    have hstop : p + totalSize (c :: cs) = p + sizeofTypedBytes + c.payload.length + totalSize cs := by
      simp only [totalSize]
      omega
    have hlt : p < p + totalSize (c :: cs) := by
      simp only [totalSize, sizeofTypedBytes]
      omega
    rw [findAttributePayloadFrom, if_pos hlt]
    by_cases he : c.type = t
    · refine ⟨some (p + sizeofTypedBytes, payloadLength m p), by rw [ht, he, if_pos rfl], ?_⟩
      simp [he, hl, hb]
    · have hcode : typeField m p ≠ t.code := fun h => he (TypedBytesType.code_inj (ht.symm.trans h))
      rw [if_neg hcode]
      split
      · rename_i hn
        rw [hnext] at hn
        exact absurd hn (by simp)
      · rename_i q hq
        rw [hnext, Option.some.injEq] at hq
        subst hq
        rw [hstop]
        obtain ⟨r, hr1, hr2⟩ := ih hr (fun d hd => hmod d (List.mem_cons_of_mem c hd))
        exact ⟨r, hr1, by simpa [List.find?_cons, he] using hr2⟩

def ReadsBack (w : ContainerTypedBytesWriter) (cs : List AppendCall) : Prop :=
  forEachAttribute w.content (recordAttribute w.content) [] =
      some (cs.map (fun c => (c.type.code, c.payload))) ∧
    ∀ t, ∃ r, findAttributePayload w.content t = some r ∧
      r.map (fun q => readBytes w.content q.1 q.2) =
        (cs.find? (fun c => c.type = t)).map (·.payload)

lemma WriterInv.readsBack {containerType : TypedBytesType} {w : ContainerTypedBytesWriter}
    (h : WriterInv containerType w cs) : ReadsBack w cs := by
  have hnext := next_of_payloadLength h.container_length (totalSize_mod h.payload_mod)
  rw [Nat.zero_add] at hnext
  constructor
  · rw [forEachAttribute, hnext]
    simpa using forEachAttributeFrom_records h.records h.payload_mod []
  · intro t
    rw [findAttributePayload, hnext]
    exact findAttributePayloadFrom_records h.records h.payload_mod t

lemma WriterInv.endOffset_le_finalizedSize {containerType : TypedBytesType}
    {w : ContainerTypedBytesWriter} (h : WriterInv containerType w cs) {pageSize : Nat}
    (hp : 0 < pageSize) : w.endOffset ≤ finalizedSize w pageSize := by
  have hround : w.endOffset ≤ (w.endOffset + pageSize - 1) / pageSize * pageSize := by
    have := Nat.lt_div_mul_add (a := w.endOffset + pageSize - 1) hp
    omega
  unfold finalizedSize
  dsimp only
  split
  · exact hround
  · exact h.endOffset_le

end Read

/-! ### Whole runs -/

lemma setContainerType_vmAllocationSize (t : TypedBytesType) :
    (setContainerType t).vmAllocationSize = 1048576 := rfl

lemma setContainerType_endOffset (t : TypedBytesType) : (setContainerType t).endOffset = 4 := rfl

lemma writerInv_setContainerType (t : TypedBytesType) : WriterInv t (setContainerType t) [] := by
  refine ⟨rfl, ?_, ?_, ?_, ?_, trivial, by simp⟩
  · rw [setContainerType_vmAllocationSize, setContainerType_endOffset]
    omega
  · rw [setContainerType_vmAllocationSize]
  · simp only [setContainerType, typeField_setPayloadLength, typeField_setType]
    exact Nat.mod_eq_of_lt t.code_lt
  · simp [setContainerType, totalSize]

/-- The step that goes wrong: an exactly full buffer receives a payload of its own size. -/
def FullBufferCall (w : ContainerTypedBytesWriter) (c : AppendCall) : Prop :=
  w.endOffset = w.vmAllocationSize ∧ c.payload.length = w.vmAllocationSize

/-- No step of the run finds the buffer exactly full and brings a payload of its size. -/
def NoFullBufferCall (w : ContainerTypedBytesWriter) (cs : List AppendCall) : Prop :=
  ∀ before c after w', cs = before ++ c :: after → appendAll w before = .ok w' →
    ¬FullBufferCall w' c

lemma NoFullBufferCall.tail {w w' : ContainerTypedBytesWriter} {c : AppendCall}
    {cs : List AppendCall} (h : NoFullBufferCall w (c :: cs)) (hc : appendCall w c = .ok w') :
    NoFullBufferCall w' cs := by
  intro before d after v hcs hv
  refine h (c :: before) d after v (by rw [hcs, List.cons_append]) ?_
  rw [appendAll, hc]
  exact hv

/-- A run whose steps all avoid the full-buffer case passes every assertion. -/
lemma appendAll_ok {t : TypedBytesType} {w : ContainerTypedBytesWriter} {done cs : List AppendCall}
    (h : WriterInv t w done) (hmod : ∀ c ∈ cs, c.payload.length % 4 = 0)
    (htotal : totalSize (done ++ cs) < 16 * 1024 * 1024) (hno : NoFullBufferCall w cs) :
    ∃ w', appendAll w cs = .ok w' ∧ WriterInv t w' (done ++ cs) := by
  induction cs generalizing w done with
  | nil => exact ⟨w, rfl, by simpa using h⟩
  | cons c cs ih =>
    have hsplit : done ++ c :: cs = (done ++ [c]) ++ cs := by simp
    have hc : totalSize (done ++ [c]) < 16 * 1024 * 1024 := by
      rw [hsplit, totalSize_append] at htotal
      omega
    obtain ⟨w', hw', hinv⟩ := appendCall_ok h (hmod c (by simp)) hc (hno [] c cs w rfl rfl)
    obtain ⟨v, hv, hvinv⟩ := ih hinv (fun d hd => hmod d (List.mem_cons_of_mem c hd))
      (by rw [← hsplit]; exact htotal) (hno.tail hw')
    refine ⟨v, ?_, by rw [hsplit]; exact hvinv⟩
    rw [appendAll, hw']
    exact hv

/-- A run that passes every assertion never meets the full-buffer case. -/
lemma noFullBufferCall_of_appendAll_ok {t : TypedBytesType} {w w' : ContainerTypedBytesWriter}
    {done cs : List AppendCall} (h : WriterInv t w done)
    (hmod : ∀ c ∈ cs, c.payload.length % 4 = 0)
    (htotal : totalSize (done ++ cs) < 16 * 1024 * 1024) (hok : appendAll w cs = .ok w') :
    NoFullBufferCall w cs := by
  induction cs generalizing w done with
  | nil =>
    intro before c after v hcs
    simp at hcs
  | cons c cs ih =>
    have hsplit : done ++ c :: cs = (done ++ [c]) ++ cs := by simp
    have hcmod := hmod c (by simp)
    have hroom : ¬FullBufferCall w c := by
      intro hfull
      rw [appendAll, appendCall_full h hcmod hfull] at hok
      exact absurd hok (by simp)
    have hc : totalSize (done ++ [c]) < 16 * 1024 * 1024 := by
      rw [hsplit, totalSize_append] at htotal
      omega
    obtain ⟨v, hv, hinv⟩ := appendCall_ok h hcmod hc hroom
    rw [appendAll, hv] at hok
    have hrest := ih hinv (fun d hd => hmod d (List.mem_cons_of_mem c hd))
      (by rw [← hsplit]; exact htotal) hok
    intro before d after u hcs hu
    cases before with
    | nil =>
      simp only [List.nil_append, List.cons.injEq] at hcs
      simp only [appendAll, Except.ok.injEq] at hu
      rw [← hcs.1, ← hu]
      exact hroom
    | cons b before =>
      simp only [List.cons_append, List.cons.injEq] at hcs
      rw [← hcs.1, appendAll, hv] at hu
      exact hrest before d after u hcs.2 hu

/-- For every sequence of calls with payload sizes that are multiples of four and a total
below 16 MB: all assertions pass and the container reads back as the calls, exactly when no
call finds the buffer exactly full and brings a payload as large as the allocation. -/
theorem typedBytes_roundtrip_iff (t : TypedBytesType) (cs : List AppendCall)
    (hmod : ∀ c ∈ cs, c.payload.length % 4 = 0) (htotal : totalSize cs < 16 * 1024 * 1024) :
    (∃ w, appendAll (setContainerType t) cs = .ok w ∧ ReadsBack w cs) ↔
      NoFullBufferCall (setContainerType t) cs := by
  have hinit := writerInv_setContainerType t
  constructor
  · rintro ⟨w, hw, -⟩
    exact noFullBufferCall_of_appendAll_ok hinit hmod (by simpa using htotal) hw
  · intro hno
    obtain ⟨w, hw, hinv⟩ := appendAll_ok hinit hmod (by simpa using htotal) hno
    exact ⟨w, hw, by simpa using hinv.readsBack⟩

/-- The hypotheses hold of a run with two small attributes. -/
theorem typedBytes_roundtrip_iff_small :
    (∃ w, appendAll (setContainerType .image) [⟨.uuid, [1, 2, 3, 4]⟩, ⟨.cdHash, []⟩] = .ok w ∧
      ReadsBack w [⟨.uuid, [1, 2, 3, 4]⟩, ⟨.cdHash, []⟩]) ↔
      NoFullBufferCall (setContainerType .image) [⟨.uuid, [1, 2, 3, 4]⟩, ⟨.cdHash, []⟩] :=
  typedBytes_roundtrip_iff .image _ (by decide) (by decide)

/-- Two calls, the first of which fills the initial allocation exactly while the second
brings one megabyte. -/
def fullBufferCalls (first second : List UInt8) : List AppendCall :=
  [⟨.imageArray, first⟩, ⟨.image, second⟩]

lemma appendAll_fullBufferCalls {first second : List UInt8} (h1 : first.length = 1024 * 1024 - 8)
    (h2 : second.length = 1024 * 1024) (w : ContainerTypedBytesWriter) :
    appendAll (setContainerType .launchClosure) (fullBufferCalls first second) ≠ .ok w := by
  intro hw
  have hinit := writerInv_setContainerType .launchClosure
  have hfit : (setContainerType .launchClosure).endOffset + first.length <
      (setContainerType .launchClosure).vmAllocationSize := by
    rw [h1, setContainerType_vmAllocationSize, setContainerType_endOffset]
    omega
  obtain ⟨v, hv, hinv⟩ := appendCall_ok (c := ⟨.imageArray, first⟩) hinit
    (by simp only [h1]) (by simp [totalSize, sizeofTypedBytes, h1])
    (fun hfull => by
      rw [setContainerType_vmAllocationSize, setContainerType_endOffset] at hfull
      omega)
  have hsize := appendCall_vmAllocationSize hv hfit
  have hend := hinv.endOffset_eq
  have hfull : FullBufferCall v ⟨.image, second⟩ := by
    rw [FullBufferCall, hsize, hend, setContainerType_vmAllocationSize]
    simp [totalSize, sizeofTypedBytes, h1, h2]
  rw [fullBufferCalls, appendAll, hv] at hw
  simp only [appendAll, appendCall_full hinv (c := ⟨.image, second⟩) (by simp only [h2]) hfull] at hw
  exact absurd hw (by simp)

lemma fullBufferCalls_not_roundtrip {first second : List UInt8}
    (h1 : first.length = 1024 * 1024 - 8) (h2 : second.length = 1024 * 1024) :
    (∀ c ∈ fullBufferCalls first second, c.payload.length % 4 = 0) ∧
      totalSize (fullBufferCalls first second) < 16 * 1024 * 1024 ∧
      ¬∃ w, appendAll (setContainerType .launchClosure) (fullBufferCalls first second) = .ok w ∧
        ReadsBack w (fullBufferCalls first second) := by
  refine ⟨?_, ?_, ?_⟩
  · simp [fullBufferCalls, h1, h2]
  · simp [fullBufferCalls, totalSize, sizeofTypedBytes, h1, h2]
  · rintro ⟨w, hw, -⟩
    exact appendAll_fullBufferCalls h1 h2 w hw

/-- On 1048568 and then 1048576 zero bytes, sizes that are multiples of four and total 2 MB,
the assertion of `append` that the payload lies inside the grown allocation fails. -/
theorem fullBufferCalls_assertion_fails :
    (∀ c ∈ fullBufferCalls (List.replicate (1024 * 1024 - 8) 0) (List.replicate (1024 * 1024) 0),
      c.payload.length % 4 = 0) ∧
    totalSize (fullBufferCalls (List.replicate (1024 * 1024 - 8) 0)
      (List.replicate (1024 * 1024) 0)) < 16 * 1024 * 1024 ∧
    ¬∃ w, appendAll (setContainerType .launchClosure)
        (fullBufferCalls (List.replicate (1024 * 1024 - 8) 0) (List.replicate (1024 * 1024) 0)) = .ok w ∧
      ReadsBack w
        (fullBufferCalls (List.replicate (1024 * 1024 - 8) 0) (List.replicate (1024 * 1024) 0)) :=
  fullBufferCalls_not_roundtrip List.length_replicate List.length_replicate

end Dyld.Closure
