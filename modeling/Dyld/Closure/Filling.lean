import Dyld.Closure.TypedBytes
import Dyld.Lib.CString

/-!
# Attributes that are filled in after they are appended

Some writers call `append` without a payload and write through the pointer they get back.
Such a fill is one call of `append` with the bytes, if it stays inside the allocation.
-/

namespace Dyld.Closure
open Dyld.Lib

/-- What ends the process while a closure is written. -/
inductive WriteFault
  | assertion (a : AppendAssertion)
  | pastAllocation

/-- `append` with a null payload, then the bytes the caller writes through the pointer it
got back, padded with NULs up to `size`. -/
def appendAndFill (w : ContainerTypedBytesWriter) (t : TypedBytesType) (size : Nat)
    (bytes : List UInt8) : Except WriteFault ContainerTypedBytesWriter :=
  match append w t none size with
  | .error a => .error (.assertion a)
  | .ok w' =>
    let buffer := w'.endOffset - size
    let filled := bytes ++ List.replicate (size - bytes.length) 0
    if buffer + filled.length ≤ w'.vmAllocationSize then
      .ok { w' with content := writeBytes w'.content buffer filled }
    else .error .pastAllocation

/-! ### The container after a run -/

lemma setPayloadLength_writeBytes (m : Mem) {a : Nat} (ha : 4 ≤ a) (bytes : List UInt8) (v : Nat) :
    setPayloadLength (writeBytes m a bytes) 0 v = writeBytes (setPayloadLength m 0 v) a bytes := by
  have hload : load 4 (writeBytes m a bytes) 0 = load 4 m 0 :=
    load_congr (fun x hx => writeBytes_outside (.inl (by unfold InWord at hx; omega)))
  funext x
  by_cases hx : InWord 4 0 x
  · have hlt : x < a := by unfold InWord at hx; omega
    rw [writeBytes_outside (.inl hlt)]
    unfold setPayloadLength
    rw [hload]
    unfold InWord at hx
    simp only [store, if_pos hx]
  · rw [setPayloadLength_apply hx]
    unfold writeBytes
    rw [setPayloadLength_apply hx]

lemma growFor_endOffset (w : ContainerTypedBytesWriter) (payloadSize : Nat) :
    (growFor w payloadSize).endOffset = w.endOffset := by
  unfold growFor
  split <;> rfl

structure ContainerInv (containerType : TypedBytesType) (w : ContainerTypedBytesWriter)
    (cs : List AppendCall) : Prop where
  writer : WriterInv containerType w cs
  total_lt : totalSize cs < 2 ^ 24
  size_le : w.vmAllocationSize ≤ 2 ^ 26
  zero_beyond : ∀ x, w.endOffset ≤ x → w.content x = 0

section Append

variable {w w' : ContainerTypedBytesWriter} {cs : List AppendCall} {containerType t : TypedBytesType}
  {payload : Option (List UInt8)} {size : Nat}

/-- What a successful `append` has checked, and the writer it returns. -/
lemma append_eq_ok_iff : append w t payload size = .ok w' ↔
    size % 4 = 0 ∧
    (growFor w size).endOffset + size < (growFor w size).vmAllocationSize ∧
    payloadLength (writeTypedBytes (growFor w size).content w.endOffset t payload size) 0 +
      sizeofTypedBytes + size < 2 ^ 24 ∧
    w' = { content := setPayloadLength
              (writeTypedBytes (growFor w size).content w.endOffset t payload size) 0
              (payloadLength (writeTypedBytes (growFor w size).content w.endOffset t payload size) 0 +
                sizeofTypedBytes + size)
           vmAllocationSize := (growFor w size).vmAllocationSize
           endOffset := w.endOffset + sizeofTypedBytes + size } := by
  unfold append
  dsimp only
  rw [growFor_endOffset]
  constructor
  · intro h
    split at h
    · exact absurd h (by simp)
    · rename_i hmod
      split at h
      · exact absurd h (by simp)
      · rename_i hfit
        split at h
        · exact absurd h (by simp)
        · rename_i hsize
          exact ⟨not_not.mp hmod, not_not.mp hfit, by simpa using hsize, (Except.ok.inj h).symm⟩
  · rintro ⟨hmod, hfit, hsize, rfl⟩
    rw [if_neg (not_not.mpr hmod), if_neg (not_not.mpr hfit),
      if_neg (not_not.mpr (by omega))]

lemma appendCall_of_fill {bytes : List UInt8} (hw : 4 ≤ w.endOffset)
    (h : append w t none bytes.length = .ok w') :
    appendCall w ⟨t, bytes⟩ = .ok
      { w' with content := writeBytes w'.content (w'.endOffset - bytes.length) bytes } := by
  obtain ⟨hmod, hfit, hsize, rfl⟩ := append_eq_ok_iff.mp h
  have hlen : ∀ m : Mem, payloadLength (writeBytes m (w.endOffset + sizeofTypedBytes) bytes) 0 =
      payloadLength m 0 :=
    fun m => payloadLength_congr (fun x hx => writeBytes_outside (.inl (by unfold InWord at hx; omega)))
  have hback : w.endOffset + sizeofTypedBytes + bytes.length - bytes.length =
      w.endOffset + sizeofTypedBytes := by omega
  apply append_eq_ok_iff.mpr
  simp only [writeTypedBytes, List.take_length, hlen, hback] at hsize ⊢
  refine ⟨hmod, hfit, hsize, ?_⟩
  rw [setPayloadLength_writeBytes _ (by omega)]

lemma payloadLength_writeTypedBytes (h : WriterInv containerType w cs) :
    payloadLength (writeTypedBytes (growFor w size).content w.endOffset t payload size) 0 =
      totalSize cs := by
  have hg := h.growFor size
  have he := h.endOffset_eq
  simp only [sizeofTypedBytes] at he
  have hhead : ∀ x, InWord 4 0 x →
      writeTypedBytes (growFor w size).content w.endOffset t payload size x = (growFor w size).content x :=
    fun x hx => writeTypedBytes_apply (by unfold InWord at hx; omega)
  rw [payloadLength_congr hhead, hg.container_length]

lemma growFor_vmAllocationSize_le (hsize : w.vmAllocationSize ≤ 2 ^ 26)
    (hused : w.endOffset + size ≤ 2 ^ 24) : (growFor w size).vmAllocationSize ≤ 2 ^ 26 := by
  unfold growFor
  split
  · have hdiv := Nat.mul_div_le size w.vmAllocationSize
    simp only [newAllocationSize]
    split
    · rw [Nat.mul_add]
      omega
    · omega
  · exact hsize

/-- A successful `append` stays below 16 MB, and the allocation below 64 MB. -/
lemma ContainerInv.append_bounds (h : ContainerInv containerType w cs) (hok : append w t payload size = .ok w') :
    totalSize cs + 4 + size < 2 ^ 24 ∧ w'.vmAllocationSize ≤ 2 ^ 26 ∧
      w'.endOffset = w.endOffset + 4 + size := by
  obtain ⟨-, -, htotal, rfl⟩ := append_eq_ok_iff.mp hok
  rw [payloadLength_writeTypedBytes h.writer] at htotal
  have he := h.writer.endOffset_eq
  simp only [sizeofTypedBytes] at he htotal
  refine ⟨htotal, ?_, rfl⟩
  exact growFor_vmAllocationSize_le h.size_le (by omega)

lemma growFor_zero_beyond (h : ∀ x, w.endOffset ≤ x → w.content x = 0) {x : Nat}
    (hx : w.endOffset ≤ x) : (growFor w size).content x = 0 := by
  unfold growFor
  split
  · simp only [if_neg (Nat.not_lt.mpr hx)]
  · exact h x hx

lemma ContainerInv.appendCall {c : AppendCall} (h : ContainerInv containerType w cs) (hok : appendCall w c = .ok w') :
    ContainerInv containerType w' (cs ++ [c]) := by
  obtain ⟨htotal, hsize, -⟩ := h.append_bounds hok
  obtain ⟨hmod, hfit, -, hw'⟩ := append_eq_ok_iff.mp hok
  have hcs : totalSize (cs ++ [c]) < 2 ^ 24 := by
    rw [totalSize_append]
    simp only [totalSize, sizeofTypedBytes]
    omega
  obtain ⟨v, hv, hinv⟩ := appendCall_ok h.writer hmod hcs ((growFor_fits_iff h.writer _).mp hfit)
  have hvw : v = w' := Except.ok.inj (hv.symm.trans hok)
  rw [hvw] at hinv
  refine ⟨hinv, hcs, hsize, fun x hx => ?_⟩
  have he := h.writer.endOffset_eq
  rw [hw'] at hx ⊢
  simp only [sizeofTypedBytes] at hx he ⊢
  -- neither the header of the container nor the new record reaches `x`
  rw [setPayloadLength_apply (by unfold InWord; omega)]
  simp only [writeTypedBytes, List.take_length, sizeofTypedBytes]
  rw [writeBytes_outside (by omega), setPayloadLength_apply (by unfold InWord; omega),
    setType_apply (by unfold InWord; omega)]
  exact growFor_zero_beyond h.zero_beyond (by omega)

/-- A fill that stays inside the allocation has not wrapped its size, and amounts to one call
of `append` with the bytes. -/
lemma ContainerInv.appendAndFill {bytes : List UInt8} (h : ContainerInv containerType w cs)
    (hle : bytes.length ≤ 2 ^ 26 → bytes.length ≤ size)
    (hok : appendAndFill w t size bytes = .ok w') :
    ContainerInv containerType w' (cs ++ [⟨t, bytes ++ List.replicate (size - bytes.length) 0⟩]) ∧
      bytes.length ≤ 2 ^ 26 := by
  unfold Closure.appendAndFill at hok
  split at hok
  · exact absurd hok (by simp)
  · rename_i v hv
    obtain ⟨-, hsize, -⟩ := h.append_bounds hv
    dsimp only at hok
    split at hok
    · rename_i hfit
      simp only [List.length_append, List.length_replicate] at hfit
      have hbytes : bytes.length ≤ 2 ^ 26 := by omega
      have hsizele := hle hbytes
      have hlen : (bytes ++ List.replicate (size - bytes.length) 0).length = size := by
        simp only [List.length_append, List.length_replicate]
        omega
      have hend := h.writer.endOffset_eq
      simp only [sizeofTypedBytes] at hend
      rw [← hlen] at hv
      have hcall := appendCall_of_fill (by omega) hv
      rw [hlen, Except.ok.inj hok] at hcall
      exact ⟨h.appendCall hcall, hbytes⟩
    · exact absurd hok (by simp)

end Append

lemma containerInv_setContainerType (containerType : TypedBytesType) :
    ContainerInv containerType (setContainerType containerType) [] := by
  refine ⟨writerInv_setContainerType _, by simp [totalSize], ?_, fun x hx => ?_⟩
  · rw [setContainerType_vmAllocationSize]
    omega
  · rw [setContainerType_endOffset] at hx
    simp only [setContainerType]
    rw [setPayloadLength_apply (by unfold InWord; omega), setType_apply (by unfold InWord; omega)]

/-! ### Finding a payload -/

section Find

variable {m : Mem} {before after : List AppendCall} {c : AppendCall}

lemma Records.of_append {p : Nat} {cs : List AppendCall} (h : Records m p (before ++ cs)) :
    Records m (p + totalSize before) cs := by
  induction before generalizing p with
  | nil => simpa [totalSize] using h
  | cons d before ih =>
    have he : p + totalSize (d :: before) =
        p + sizeofTypedBytes + d.payload.length + totalSize before := by
      simp only [totalSize]
      omega
    rw [he]
    exact ih h.2.2.2

lemma findAttributePayloadFrom_split {p stopAt : Nat} (h : Records m p (before ++ c :: after))
    (hmod : ∀ d ∈ before, d.payload.length % 4 = 0) (hbefore : ∀ d ∈ before, d.type ≠ c.type)
    (hstop : p + totalSize before < stopAt) :
    findAttributePayloadFrom m stopAt c.type p =
      some (some (p + totalSize before + sizeofTypedBytes, c.payload.length)) := by
  induction before generalizing p with
  | nil =>
    simp only [List.nil_append, totalSize, Nat.add_zero] at h hstop ⊢
    rw [findAttributePayloadFrom, if_pos hstop, h.1, if_pos rfl, h.2.1]
  | cons d before ih =>
    obtain ⟨ht, hl, -, hr⟩ := h
    have hnext := next_of_payloadLength hl (hmod d (by simp))
    have hcode : typeField m p ≠ c.type.code :=
      fun he => hbefore d (by simp) (TypedBytesType.code_inj (ht.symm.trans he))
    have he : p + totalSize (d :: before) =
        p + sizeofTypedBytes + d.payload.length + totalSize before := by
      simp only [totalSize]
      omega
    rw [he] at hstop ⊢
    rw [findAttributePayloadFrom, if_pos (by omega), if_neg hcode]
    split
    · rename_i hn
      rw [hnext] at hn
      exact absurd hn (by simp)
    · rename_i q hq
      rw [hnext, Option.some.injEq] at hq
      subst hq
      exact ih hr (fun e he => hmod e (List.mem_cons_of_mem d he))
        (fun e he => hbefore e (List.mem_cons_of_mem d he)) hstop

lemma bytesAt_of_readBytes {a : Nat} {bytes : List UInt8} (h : readBytes m a bytes.length = bytes) :
    BytesAt m a bytes := by
  apply bytesAt_iff.mpr
  intro i hi
  rw [List.getD_eq_getElem?_getD, ← h]
  simp [readBytes, hi]

lemma readBytes_of_bytesAt {a : Nat} {bytes : List UInt8} (h : BytesAt m a bytes) :
    readBytes m a bytes.length = bytes := by
  apply List.ext_getElem
  · simp [readBytes]
  · intro i h1 h2
    simp [readBytes, bytesAt_iff.mp h i h2, h2]

lemma TypedBytesType.code_pos (t : TypedBytesType) : 0 < t.code := by
  cases t <;> decide

lemma byte_ne_zero_of_typeField {p : Nat} {t : TypedBytesType} (h : typeField m p = t.code) :
    m p ≠ 0 := by
  intro hm
  have hpos := t.code_pos
  have hload : (load 4 m p).toNat % 256 = 0 := by
    rw [toNat_load]
    simp only [loadNat, hm, UInt8.toNat_zero]
    omega
  simp only [typeField, getField] at h
  omega

lemma ContainerInv.payload {w : ContainerTypedBytesWriter} {containerType : TypedBytesType}
    (h : ContainerInv containerType w (before ++ c :: after))
    (hbefore : ∀ d ∈ before, d.type ≠ c.type) :
    ∃ p, findAttributePayload w.content c.type = some (some (p, c.payload.length)) ∧
      BytesAt w.content p c.payload ∧ p + c.payload.length ≤ w.endOffset ∧
      (after = [] → p + c.payload.length = w.endOffset) ∧
      (after ≠ [] → w.content (p + c.payload.length) ≠ 0 ∧ p + c.payload.length < w.endOffset) := by
  have hnext := next_of_payloadLength h.writer.container_length (totalSize_mod h.writer.payload_mod)
  have hend := h.writer.endOffset_eq
  have hrec := h.writer.records
  have hsplit : totalSize (before ++ c :: after) =
      totalSize before + (4 + c.payload.length + totalSize after) := by
    rw [totalSize_append]
    rfl
  simp only [Nat.zero_add, sizeofTypedBytes] at hnext hend hrec
  refine ⟨4 + totalSize before + 4, ?_, ?_, by omega, ?_, ?_⟩
  · rw [findAttributePayload, hnext]
    exact findAttributePayloadFrom_split hrec
      (fun d hd => h.writer.payload_mod d (List.mem_append_left _ hd)) hbefore
      (by simp only [sizeofTypedBytes]; omega)
  · exact bytesAt_of_readBytes hrec.of_append.2.2.1
  · rintro rfl
    simp only [totalSize] at hsplit
    omega
  · intro hne
    obtain ⟨d, rest, rfl⟩ := List.exists_cons_of_ne_nil hne
    simp only [totalSize, sizeofTypedBytes] at hsplit
    exact ⟨byte_ne_zero_of_typeField hrec.of_append.2.2.2.1, by omega⟩

end Find

end Dyld.Closure
