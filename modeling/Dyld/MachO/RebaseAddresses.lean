import Dyld.MachO.RebaseAgreement

/-!
# Rebasing at addresses

dyld2 keeps the address of the location instead of a segment and an offset, in the width of a
pointer. It finds the segments in a list without the empty ones, so an index means another segment
when an empty one stands before it.
-/

namespace Dyld.MachO

open Dyld.Lib

/-! ### Instructions -/

/-- An instruction, for dyld2. -/
def execAddress (image : RebaseImage) (a : AddressRegisters) (op : RebaseOp) (s : AddressRun) :
    Option (AddressRegisters × AddressRun) :=
  match op with
  | .setType type => some ({ a with type := type }, s)
  | .setSegment segIndex offset =>
    (image.loadedSegments[segIndex]?).bind (fun segment =>
      if segment.writable = false then none
      else
        some ({ a with segmentStartAddress := segActualLoadAddress image (some segment),
                       segmentEndAddress := segActualEndAddress image (some segment),
                       address := addAddress image offset (segActualLoadAddress image (some segment)) },
          s))
  | .add delta => some ({ a with address := addAddress image delta a.address }, s)
  | .rebase count stride =>
    (countedLoop (rebaseAt a) (addAddress image stride) count a.address s).bind (fun t =>
      if (AddressRun.thrown t.2.1).isSome then none else some ({ a with address := t.1 }, t.2.1))

section Turns

variable {image : RebaseImage} {a : AddressRegisters} {b : UInt8} {bytes rest : List UInt8}
  {s : AddressRun}

lemma rebaseAtTurn_next (a : AddressRegisters) (rest : List UInt8) (count stride : Nat)
    (s : AddressRun) :
    (rebaseAtTurn image a rest count stride s).bind Turn.next =
      (execAddress image a (.rebase count stride) s).map (fun t => (t.1, rest, t.2)) := by
  rw [rebaseAtTurn, execAddress, Option.map_bind, Option.bind_map]
  congr 1
  funext t
  simp only [Function.comp_apply, Turn.next, Bool.or_false]
  split_ifs <;> rfl

lemma addAddress_mod (delta address : Nat) :
    addAddress image (delta % 2 ^ image.width) address = addAddress image delta address := by
  unfold addAddress
  rw [Nat.add_mod_mod]

lemma addAddress_mod_add (delta ptrSize address : Nat) :
    addAddress image (delta % 2 ^ image.width + ptrSize) address =
      addAddress image (delta + ptrSize) address := by
  unfold addAddress
  rw [← Nat.add_mod_mod, Nat.mod_add_mod, Nat.add_mod_mod]

/-- The body of the loop leaves it exactly when it throws. -/
lemma rebaseAt_thrown (a : AddressRegisters) (x : Nat) (s : AddressRun) :
    (AddressRun.thrown (rebaseAt a x s).1).isSome = (rebaseAt a x s).2 := by
  unfold rebaseAt
  cases s with
  | error e => rfl
  | ok visited =>
    dsimp only
    split_ifs <;> rfl

lemma compressedRebaseTurn_next {op : RebaseOp} (hwidth : 32 ≤ image.width) (hcount : CountFits op)
    (hdecode : decodeRebase image.ptrSize b bytes = some (op, rest)) :
    (compressedRebaseTurn image a b bytes s).bind Turn.next =
      (execAddress image a op s).map (fun t => (t.1, rest, t.2)) := by
  have htrunc : ∀ {n}, n < 2 ^ 32 → n % 2 ^ image.width = n := fun hn =>
    Nat.mod_eq_of_lt (hn.trans_le (Nat.pow_le_pow_right (by norm_num) hwidth))
  cases decoded_of_decodeRebase hdecode with
  | setType hop => simp [compressedRebaseTurn, hop, Turn.next, execAddress]
  | @setSegment hop u hu =>
    simp only [compressedRebaseTurn, hop, execAddress,
      withOperand_ok (readUleb128Pointer_of_decodeUleb hu)]
    cases image.loadedSegments[b.toNat % 16]? with
    | none => rfl
    | some segment =>
      simp only [Option.bind_some]
      split_ifs
      · rfl
      · simp only [Option.bind_some, Turn.next, Option.map_some, addAddress_mod]
        rfl
  | @addUleb hop u hu =>
    simp only [compressedRebaseTurn, hop, withOperand_ok (readUleb128Pointer_of_decodeUleb hu),
      addAddress_mod]
    rfl
  | addScaled hop => simp [compressedRebaseTurn, hop, Turn.next, execAddress]
  | immTimes hop =>
    simp only [compressedRebaseTurn, hop]
    exact rebaseAtTurn_next _ _ _ _ _
  | @ulebTimes hop u hu =>
    simp only [compressedRebaseTurn, hop, withOperand_ok (readUleb128Pointer_of_decodeUleb hu),
      htrunc hcount]
    exact rebaseAtTurn_next _ _ _ _ _
  | @addAddr hop u hu =>
    simp only [compressedRebaseTurn, hop, withOperand_ok (readUleb128Pointer_of_decodeUleb hu),
      execAddress, countedLoop_one, Option.bind_some, rebaseAt_thrown, addAddress_mod_add]
    split_ifs with hstop
    · have herror := rebaseAt_thrown a a.address s
      rw [hstop] at herror
      simp [Turn.next, herror]
    · rfl
  | @skipping hop u v hu hv =>
    simp only [compressedRebaseTurn, hop, withOperand_ok (readUleb128Pointer_of_decodeUleb hu),
      withOperand_ok (readUleb128Pointer_of_decodeUleb hv), htrunc hcount]
    rw [rebaseAtTurn_next]
    have hstride : addAddress image (v.1 % 2 ^ image.width + image.ptrSize) =
        addAddress image (v.1 + image.ptrSize) := by
      funext x
      exact addAddress_mod_add _ _ _
    simp only [execAddress, hstride]

end Turns

lemma of_rebaseAtTurn {image : RebaseImage} {a : AddressRegisters} {rest : List UInt8}
    {count stride : Nat} {s : AddressRun} {t : Turn AddressRegisters AddressRun RebaseThrow}
    (h : rebaseAtTurn image a rest count stride s = some t) : t.stop = false := by
  obtain ⟨u, -, rfl⟩ := Option.map_eq_some_iff.mp h
  rfl

/-- Only the end of the stream leaves the loop without an error. -/
lemma compressedRebaseTurn_stop {image : RebaseImage} {a : AddressRegisters} {b : UInt8}
    {bytes : List UInt8} {s : AddressRun} {t : Turn AddressRegisters AddressRun RebaseThrow}
    (h : compressedRebaseTurn image a b bytes s = some t) (hdone : isDone b = false)
    (herror : t.error = none) : t.stop = false := by
  unfold compressedRebaseTurn at h
  dsimp only at h
  split at h
  case h_1 hop =>
    rw [isDone_iff.mpr hop] at hdone
    exact absurd hdone (by simp)
  case h_3 =>
    split at h
    · rw [Option.some.injEq] at h
      subst h
      rfl
    · split_ifs at h
      · rw [Option.some.injEq] at h
        subst h
        rfl
      · obtain ⟨u, -, h⟩ := of_withOperand h herror
        rw [Option.some.injEq] at h
        subst h
        rfl
  case h_4 =>
    obtain ⟨u, -, h⟩ := of_withOperand h herror
    rw [Option.some.injEq] at h
    subst h
    rfl
  case h_6 => exact of_rebaseAtTurn h
  case h_7 =>
    obtain ⟨u, -, h⟩ := of_withOperand h herror
    exact of_rebaseAtTurn h
  case h_8 =>
    split_ifs at h
    · rw [Option.some.injEq] at h
      subst h
      rfl
    · obtain ⟨u, -, h⟩ := of_withOperand h herror
      rw [Option.some.injEq] at h
      subst h
      rfl
  case h_9 =>
    obtain ⟨u, -, h⟩ := of_withOperand h herror
    obtain ⟨v, -, h⟩ := of_withOperand h herror
    exact of_rebaseAtTurn h
  all_goals
    rw [Option.some.injEq] at h
    subst h
    rfl

lemma along_countFits {ptrSize n : Nat} {bytes : List UInt8} {ops : List RebaseOp}
    (hprogram : rebaseProgram ptrSize n bytes = some ops) (hcounts : ∀ op ∈ ops, CountFits op) :
    Along (decodeRebase ptrSize) isDone
      (fun b bytes => ∀ op rest, decodeRebase ptrSize b bytes = some (op, rest) → CountFits op)
      n bytes := by
  unfold rebaseProgram at hprogram
  induction n generalizing bytes ops with
  | zero => cases bytes <;> trivial
  | succ n ih =>
    cases bytes with
    | nil => trivial
    | cons b bytes =>
      intro hdone
      rw [program, hdone, if_neg (by simp)] at hprogram
      obtain ⟨⟨op, rest⟩, hd, hrest⟩ := Option.bind_eq_some_iff.mp hprogram
      obtain ⟨ops', hops', rfl⟩ := Option.map_eq_some_iff.mp hrest
      constructor
      · intro op' rest' h
        rw [hd] at h
        obtain ⟨rfl, -⟩ := Prod.mk.inj (Option.some.inj h)
        exact hcounts op (by simp)
      · intro d h
        rw [hd] at h
        obtain rfl := Option.some.inj h
        exact ih hops' (fun op' hop' => hcounts op' (by simp [hop']))

/-- The first segment, without an offset. -/
def RebaseImage.startRegisters (image : RebaseImage) : AddressRegisters :=
  ⟨0, segActualLoadAddress image image.loadedSegments[0]?,
    segActualLoadAddress image image.loadedSegments[0]?,
    segActualEndAddress image image.loadedSegments[0]?⟩

lemma compressedRebase_iff {image : RebaseImage} (hwidth : 32 ≤ image.width)
    (hprogram : rebaseProgram image.ptrSize image.opcodes.length image.opcodes = some image.program)
    (hcounts : ∀ op ∈ image.program, CountFits op) {s' : AddressRun} :
    compressedRebase image = some (s', none) ↔
      execAll (execAddress image) image.program image.startRegisters (.ok []) = some s' := by
  have hdone : ∀ (a : AddressRegisters) (b : UInt8) (bytes : List UInt8) (s : AddressRun),
      isDone b = true → terminatedEarly bytes = false →
        ∃ a' rest, compressedRebaseTurn image a b bytes s =
          some { regs := a', rest := rest, state := s, stop := true } := by
    intro a b bytes s hdone _
    rw [isDone_iff] at hdone
    exact ⟨a, bytes, by simp only [compressedRebaseTurn, hdone]⟩
  have hstop : ∀ (a : AddressRegisters) (b : UInt8) (bytes : List UInt8) (s : AddressRun)
      (t : Turn AddressRegisters AddressRun RebaseThrow),
      compressedRebaseTurn image a b bytes s = some t → isDone b = false → t.error = none →
        t.stop = true → ¬True := by
    intro a b bytes s t hturn hdone herror hstop
    rw [compressedRebaseTurn_stop hturn hdone herror] at hstop
    exact absurd hstop (by simp)
  exact interpret_iff_execAll (fun _ => True) hdone
    (fun a b bytes s op rest _ hq hd => compressedRebaseTurn_next hwidth (hq op rest hd) hd) hstop
    hprogram (along_countFits hprogram hcounts) trivial

/-! ### Addresses -/

section Addresses

variable (image : RebaseImage)

def RebaseImage.loadedAddress (r : RebaseRegisters) : Nat :=
  (segActualLoadAddress image image.loadedSegments[r.segIndex]? + r.segOffset) % 2 ^ image.width

/-- The check of dyld2 passes. -/
def RebaseImage.InRange (r : RebaseRegisters) : Prop :=
  segActualLoadAddress image image.loadedSegments[r.segIndex]? ≤ image.loadedAddress r ∧
    image.loadedAddress r < segActualEndAddress image image.loadedSegments[r.segIndex]?

def RebaseImage.LoadedWritable : RebaseOp → Prop
  | .setSegment k _ => ∃ s, image.loadedSegments[k]? = some s ∧ s.writable = true
  | _ => True

/-- The variables of dyld2 follow those of dyld3. -/
structure AddressMatches (r : RebaseRegisters) (a : AddressRegisters) : Prop where
  start : a.segmentStartAddress = segActualLoadAddress image image.loadedSegments[r.segIndex]?
  limit : a.segmentEndAddress = segActualEndAddress image image.loadedSegments[r.segIndex]?
  address : a.address = image.loadedAddress r
  type : TypeOfKind r.kind a.type

variable {image}

lemma loadedWritable_setSegment {k o : Nat} : image.LoadedWritable (.setSegment k o) ↔
    ∃ s, image.loadedSegments[k]? = some s ∧ s.writable = true := Iff.rfl

lemma runBody_rebaseAt {a : AddressRegisters} {l : List Nat} (htype : l ≠ [] → a.type = 1)
    {v : List Nat} {t : AddressRun} :
    runBody (rebaseAt a) l (.ok v) = (t, false) ↔
      (∀ x ∈ l, a.segmentStartAddress ≤ x ∧ x < a.segmentEndAddress) ∧ t = .ok (v ++ l) := by
  induction l generalizing v with
  | nil => simp [eq_comm]
  | cons x l ih =>
    rw [runBody_cons, List.forall_mem_cons]
    by_cases hx : a.segmentStartAddress ≤ x ∧ x < a.segmentEndAddress
    · have hstep : rebaseAt a x (.ok v) = (.ok (v ++ [x]), false) := by
        rw [rebaseAt, if_neg (by omega), if_pos (Or.inl (htype (by simp)))]
      rw [hstep, if_neg (by simp), ih (fun _ => htype (by simp))]
      simp [hx]
    · have hstep : rebaseAt a x (.ok v) = (.error .badAddress, true) := by
        rw [rebaseAt, if_pos (by omega)]
      simp [hstep, hx]

lemma loadedAddress_semiconj (hwidth : image.width ≤ 64) (r : RebaseRegisters) (delta : Nat) :
    Function.Semiconj (fun o => image.loadedAddress { r with segOffset := o }) (addOffset delta)
      (addAddress image delta) := by
  intro o
  have hdvd : 2 ^ image.width ∣ 2 ^ 64 := Nat.pow_dvd_pow 2 hwidth
  simp only [RebaseImage.loadedAddress, addOffset, addAddress]
  rw [Nat.add_mod, Nat.mod_mod_of_dvd _ hdvd, ← Nat.add_mod, Nat.mod_add_mod, Nat.add_assoc]

/-- The loop of an instruction, in terms of the calls of dyld3. -/
lemma execAddress_rebase {r : RebaseRegisters} {a a' : AddressRegisters} {count stride : Nat}
    (hwidth : image.width ≤ 64) (hcount : count < 2 ^ 32) (hmatch : AddressMatches image r a)
    (hvalid : ∀ r' ∈ r.calls (.rebase count stride), invalidRebaseState image r' = none)
    {v : List Nat} {s' : AddressRun} :
    execAddress image a (.rebase count stride) (.ok v) = some (a', s') ↔
      (∀ r' ∈ r.calls (.rebase count stride), image.InRange r') ∧
        a' = { a with address := image.loadedAddress (r.step (.rebase count stride)) } ∧
        s' = .ok (v ++ (r.calls (.rebase count stride)).map image.loadedAddress) := by
  have hsemi := loadedAddress_semiconj hwidth r stride
  have htrail : trail (addAddress image stride) count a.address =
      (r.calls (.rebase count stride)).map image.loadedAddress := by
    rw [hmatch.address, RebaseRegisters.calls, List.map_map]
    exact trail_map hsemi count r.segOffset
  have hend : (addAddress image stride)^[count] a.address =
      image.loadedAddress (r.step (.rebase count stride)) := by
    rw [hmatch.address]
    exact ((hsemi.iterate_right count).eq r.segOffset).symm
  have htype : trail (addAddress image stride) count a.address ≠ [] → a.type = 1 := by
    intro hne
    rw [htrail] at hne
    obtain ⟨r', hr'⟩ := List.exists_mem_of_ne_nil _ (by simpa using hne)
    obtain ⟨o, -, rfl⟩ := List.mem_map.mp hr'
    exact typeOfKind_of_valid (hvalid _ hr') hmatch.type
  have hrange : (∀ x ∈ trail (addAddress image stride) count a.address,
      a.segmentStartAddress ≤ x ∧ x < a.segmentEndAddress) ↔
        ∀ r' ∈ r.calls (.rebase count stride), image.InRange r' := by
    rw [htrail, List.forall_mem_map, hmatch.start, hmatch.limit]
    refine forall₂_congr fun r' hr' => ?_
    obtain ⟨o, -, rfl⟩ := List.mem_map.mp hr'
    exact Iff.rfl
  rw [← hrange, ← htrail, ← hend]
  simp only [execAddress]
  constructor
  · intro h
    obtain ⟨⟨x, s₁, stopped⟩, hloop, h⟩ := Option.bind_eq_some_iff.mp h
    dsimp only at h
    split_ifs at h with hthrown
    obtain ⟨rfl, rfl⟩ := Prod.mk.inj (Option.some.inj h)
    have hstopped : stopped = false := by
      by_contra hstopped
      rw [Bool.not_eq_false] at hstopped
      subst hstopped
      have hthrown' : ¬(AddressRun.thrown s₁).isSome = false := by
        apply stopped_of_countedLoop ?_ hloop
        intro x s hbody
        rw [rebaseAt_thrown, hbody]
        simp
      exact hthrown' (by simpa using hthrown)
    subst hstopped
    obtain ⟨-, rfl, hrun⟩ := countedLoop_eq_iff.mp hloop
    obtain ⟨hin, hs⟩ := (runBody_rebaseAt htype).mp hrun
    exact ⟨hin, rfl, hs⟩
  · rintro ⟨hin, rfl, rfl⟩
    have hrun := (runBody_rebaseAt (v := v) htype).mpr ⟨hin, rfl⟩
    rw [countedLoop_eq_iff.mpr ⟨hcount, rfl, hrun⟩]
    rfl

lemma addressMatches_setSegment {r : RebaseRegisters} {a : AddressRegisters} {k o : Nat}
    {s : RebaseSegment} (hmatch : AddressMatches image r a) (hs : image.loadedSegments[k]? = some s) :
    AddressMatches image (r.step (.setSegment k o))
      { a with segmentStartAddress := segActualLoadAddress image (some s),
               segmentEndAddress := segActualEndAddress image (some s),
               address := addAddress image o (segActualLoadAddress image (some s)) } := by
  refine ⟨?_, ?_, ?_, hmatch.type⟩
  · simp only [RebaseRegisters.step, hs]
  · simp only [RebaseRegisters.step, hs]
  · simp only [RebaseRegisters.step, RebaseImage.loadedAddress, addAddress, hs]

/-- dyld2 comes through a program that dyld3 accepts when its own segments are writable and its own
addresses in range, and rebases these addresses. -/
lemma execAll_address_iff {ops : List RebaseOp} (hwidth : image.width ≤ 64)
    (hcounts : ∀ op ∈ ops, CountFits op) (htypes : ∀ op ∈ ops, PointerType op)
    {r : RebaseRegisters} {a : AddressRegisters} (hmatch : AddressMatches image r a)
    (hvalid : ∀ r' ∈ handlerCalls r ops, invalidRebaseState image r' = none) {v v' : List Nat} :
    execAll (execAddress image) ops a (.ok v) = some (.ok v') ↔
      (∀ op ∈ ops, image.LoadedWritable op) ∧ (∀ r' ∈ handlerCalls r ops, image.InRange r') ∧
        v' = v ++ (handlerCalls r ops).map image.loadedAddress := by
  induction ops generalizing r a v with
  | nil => simp [execAll, handlerCalls, eq_comm]
  | cons op ops ih =>
    have hcounts' : ∀ op ∈ ops, CountFits op := fun op' hop' => hcounts op' (by simp [hop'])
    have htypes' : ∀ op ∈ ops, PointerType op := fun op' hop' => htypes op' (by simp [hop'])
    rw [handlerCalls] at hvalid
    have hvalid' : ∀ r' ∈ handlerCalls (r.step op) ops, invalidRebaseState image r' = none :=
      fun r' hr' => hvalid r' (List.mem_append_right _ hr')
    rw [execAll, handlerCalls, List.forall_mem_cons]
    cases op with
    | setType type =>
      have htype : type = 1 := htypes (.setType type) (by simp)
      subst htype
      have hmatch' : AddressMatches image (r.step (.setType 1)) { a with type := 1 } :=
        ⟨hmatch.start, hmatch.limit, hmatch.address, .inl ⟨rfl, rfl⟩⟩
      simp only [execAddress, Option.bind_some]
      rw [ih hcounts' htypes' hmatch' hvalid']
      simp [RebaseImage.LoadedWritable, RebaseRegisters.calls]
    | setSegment k o =>
      rw [loadedWritable_setSegment]
      simp only [execAddress]
      cases hs : image.loadedSegments[k]? with
      | none => simp
      | some s =>
        by_cases hwritable : s.writable = true
        · simp only [Option.bind_some, hwritable, Bool.true_eq_false, if_false]
          rw [ih hcounts' htypes' (addressMatches_setSegment hmatch hs) hvalid']
          simp [RebaseRegisters.calls, hwritable]
        · rw [Bool.not_eq_true] at hwritable
          simp [hwritable]
    | add delta =>
      have haddress : addAddress image delta a.address = image.loadedAddress (r.step (.add delta)) := by
        rw [hmatch.address]
        exact ((loadedAddress_semiconj hwidth r delta).eq r.segOffset).symm
      have hmatch' : AddressMatches image (r.step (.add delta))
          { a with address := addAddress image delta a.address } :=
        ⟨hmatch.start, hmatch.limit, haddress, hmatch.type⟩
      simp only [execAddress, Option.bind_some]
      rw [ih hcounts' htypes' hmatch' hvalid']
      simp [RebaseImage.LoadedWritable, RebaseRegisters.calls]
    | rebase count stride =>
      have hcount : count < 2 ^ 32 := hcounts (.rebase count stride) (by simp)
      have hcalls := fun r' hr' => hvalid r' (List.mem_append_left _ hr')
      have hmatch' : AddressMatches image (r.step (.rebase count stride))
          { a with address := image.loadedAddress (r.step (.rebase count stride)) } :=
        ⟨hmatch.start, hmatch.limit, rfl, hmatch.type⟩
      rw [Option.bind_eq_some_iff, List.forall_mem_append, List.map_append, ← List.append_assoc]
      constructor
      · rintro ⟨⟨a', s'⟩, hstep, h⟩
        obtain ⟨hin, rfl, rfl⟩ := (execAddress_rebase hwidth hcount hmatch hcalls).mp hstep
        obtain ⟨hw, hin', hv⟩ := (ih hcounts' htypes' hmatch' hvalid').mp h
        exact ⟨⟨trivial, hw⟩, ⟨hin, hin'⟩, hv⟩
      · rintro ⟨⟨-, hw⟩, ⟨hin, hin'⟩, hv⟩
        exact ⟨_, (execAddress_rebase hwidth hcount hmatch hcalls).mpr ⟨hin, rfl, rfl⟩,
          (ih hcounts' htypes' hmatch' hvalid').mpr ⟨hw, hin', hv⟩⟩

end Addresses

/-! ### Segments without the empty ones -/

section Filtered

variable {α : Type} {p : α → Bool}

lemma filter_getElem?_of_forall {l : List α} {k : Nat}
    (h : ∀ i ≤ k, ∀ x, l[i]? = some x → p x = true) : (l.filter p)[k]? = l[k]? := by
  induction l generalizing k with
  | nil => rfl
  | cons x l ih =>
    rw [List.filter_cons_of_pos (h 0 (Nat.zero_le k) x rfl)]
    cases k with
    | zero => rfl
    | succ k =>
      rw [List.getElem?_cons_succ, List.getElem?_cons_succ]
      exact ih (fun i hi y hy => h (i + 1) (by omega) y (by simpa using hy))

/-- An item that is kept stands no later in the filtered list, and earlier when an item before it is
left out. -/
lemma exists_filter_getElem? {l : List α} {k : Nat} {x : α} (h : l[k]? = some x) (hx : p x = true) :
    ∃ j ≤ k, (l.filter p)[j]? = some x ∧ ∀ i < k, ∀ y, l[i]? = some y → p y = false → j < k := by
  induction l generalizing k with
  | nil => simp at h
  | cons z l ih =>
    cases k with
    | zero =>
      obtain rfl := Option.some.inj h
      exact ⟨0, le_rfl, by rw [List.filter_cons_of_pos hx]; rfl, fun i hi => by omega⟩
    | succ k =>
      rw [List.getElem?_cons_succ] at h
      obtain ⟨j, hj, hget, hlt⟩ := ih h
      by_cases hz : p z = true
      · refine ⟨j + 1, by omega, by rw [List.filter_cons_of_pos hz]; exact hget, ?_⟩
        intro i hi y hy hpy
        cases i with
        | zero =>
          obtain rfl := Option.some.inj hy
          rw [hz] at hpy
          exact absurd hpy (by simp)
        | succ i =>
          have := hlt i (by omega) y (by simpa using hy) hpy
          omega
      · exact ⟨j, by omega, by rw [List.filter_cons_of_neg hz]; exact hget,
          fun _ _ _ _ _ => by omega⟩

end Filtered

/-! ### Agreement -/

def usedSegments : Nat → List RebaseOp → List Nat
  | _, [] => []
  | _, .setSegment k _ :: ops => usedSegments k ops
  | k, .rebase count _ :: ops => if count = 0 then usedSegments k ops else k :: usedSegments k ops
  | k, _ :: ops => usedSegments k ops

namespace RebaseImage

variable (image : RebaseImage)

/-- An image in memory: it ends below the top of the address space, and segments that are not empty
stand at different addresses. -/
structure Loaded : Prop where
  ptrSize : image.ptrSize = 4 ∨ image.ptrSize = 8
  below : ∀ s ∈ image.segments, image.loadAddress s + s.vmSize < 2 ^ image.width
  distinct : (image.loadedSegments.map image.loadAddress).Nodup

def SetsWritable : RebaseOp → Prop
  | .setSegment k _ => ∃ s, image.segments[k]? = some s ∧ s.writable = true ∧ image.ptrSize ≤ s.vmSize
  | _ => True

def NoEmptyBeforeUsed : Prop :=
  ∀ k ∈ usedSegments 0 image.program, ∀ i < k, ∀ s, image.segments[i]? = some s → s.vmSize ≠ 0

/-- The interpreters visit the same locations in the same order, without an error. -/
def Agree : Prop :=
  ∃ l : List (Nat × Nat),
    forEachRebase noteRebase image [] = some (l, none) ∧
    compressedRebase image = some (.ok (l.map image.address), none) ∧
    adjustDataPointers image = some ({ visited := l, unknownType := false }, none)

end RebaseImage

section Agreement

variable {image : RebaseImage}

lemma mem_usedSegments_iff {r : RebaseRegisters} {ops : List RebaseOp} {k : Nat} :
    k ∈ usedSegments r.segIndex ops ↔ ∃ r' ∈ handlerCalls r ops, r'.segIndex = k := by
  induction ops generalizing r with
  | nil => simp [usedSegments, handlerCalls]
  | cons op ops ih =>
    rw [handlerCalls]
    cases op with
    | setType type => exact ih (r := r.step (.setType type))
    | setSegment k' o => exact ih (r := r.step (.setSegment k' o))
    | add delta => exact ih (r := r.step (.add delta))
    | rebase count stride =>
      have hrest := ih (r := r.step (.rebase count stride))
      have hsame : (r.step (.rebase count stride)).segIndex = r.segIndex := rfl
      rw [hsame] at hrest
      cases count with
      | zero => simpa [usedSegments, RebaseRegisters.calls, trail] using hrest
      | succ count =>
        simp only [usedSegments, RebaseRegisters.calls, trail, Nat.succ_ne_zero, if_false,
          List.map_cons, List.cons_append, List.mem_cons, hrest, List.mem_append, List.mem_map]
        grind

lemma setsWritable_of_call {ops : List RebaseOp} (hsets : ∀ op ∈ ops, image.SetsWritable op)
    {r : RebaseRegisters} (hr : r.segIndexSet = true → image.SetsWritable (.setSegment r.segIndex 0))
    {r' : RebaseRegisters} (hmem : r' ∈ handlerCalls r ops) (hset : r'.segIndexSet = true) :
    image.SetsWritable (.setSegment r'.segIndex 0) := by
  induction ops generalizing r with
  | nil => simp [handlerCalls] at hmem
  | cons op ops ih =>
    have hsets' : ∀ op ∈ ops, image.SetsWritable op := fun op' hop' => hsets op' (by simp [hop'])
    rw [handlerCalls] at hmem
    rcases List.mem_append.mp hmem with hcall | hmem
    · cases op with
      | rebase count stride =>
        obtain ⟨o, -, rfl⟩ := List.mem_map.mp hcall
        exact hr hset
      | setType type => simp [RebaseRegisters.calls] at hcall
      | setSegment k o => simp [RebaseRegisters.calls] at hcall
      | add delta => simp [RebaseRegisters.calls] at hcall
    · refine ih hsets' ?_ hmem
      cases op with
      | setSegment k o => exact fun _ => hsets (.setSegment k o) (by simp)
      | setType type => exact hr
      | add delta => exact hr
      | rebase count stride => exact hr

lemma width_of_loaded (hloaded : image.Loaded) : 32 ≤ image.width ∧ image.width ≤ 64 := by
  unfold RebaseImage.width
  rcases hloaded.ptrSize with h | h <;> omega

/-- An accepted location lies within its segment. -/
lemma offset_lt_of_valid (hloaded : image.Loaded) {r : RebaseRegisters} {s : RebaseSegment}
    (hs : image.segments[r.segIndex]? = some s) (hroom : image.ptrSize ≤ s.vmSize)
    (hvalid : invalidRebaseState image r = none) : r.segOffset < s.vmSize := by
  have hsegment : image.segment r.segIndex = s := by
    rw [RebaseImage.segment, List.getD_eq_getElem?_getD, hs]
    rfl
  have hsize : s.vmSize < 2 ^ 64 :=
    calc s.vmSize ≤ image.loadAddress s + s.vmSize := Nat.le_add_left _ _
      _ < 2 ^ image.width := hloaded.below s (List.mem_of_getElem? hs)
      _ ≤ 2 ^ 64 := Nat.pow_le_pow_right (by norm_num) (width_of_loaded hloaded).2
  have hlast : (s.vmSize + (2 ^ 64 - image.ptrSize)) % 2 ^ 64 = s.vmSize - image.ptrSize := by
    rcases hloaded.ptrSize with h | h <;> rw [h] at hroom ⊢ <;> omega
  unfold invalidRebaseState at hvalid
  dsimp only at hvalid
  rw [hsegment, hlast] at hvalid
  have hoffset : ¬r.segOffset > s.vmSize - image.ptrSize := by
    intro hgt
    split_ifs at hvalid
  rcases hloaded.ptrSize with h | h <;> omega

lemma inRange_of_same (hloaded : image.Loaded) {r : RebaseRegisters} {s : RebaseSegment}
    (hs : image.segments[r.segIndex]? = some s) (hoffset : r.segOffset < s.vmSize)
    (hsame : image.loadedSegments[r.segIndex]? = some s) :
    image.InRange r ∧ image.loadedAddress r = image.address (r.segIndex, r.segOffset) := by
  have hbelow := hloaded.below s (List.mem_of_getElem? hs)
  have haddress : image.loadedAddress r = image.loadAddress s + r.segOffset := by
    rw [RebaseImage.loadedAddress, hsame]
    exact Nat.mod_eq_of_lt (by simp only [segActualLoadAddress]; omega)
  have hend : segActualEndAddress image (some s) = image.loadAddress s + s.vmSize :=
    Nat.mod_eq_of_lt hbelow
  constructor
  · rw [RebaseImage.InRange, haddress, hsame, hend]
    simp only [segActualLoadAddress]
    omega
  · rw [haddress, RebaseImage.address, RebaseImage.segment, List.getD_eq_getElem?_getD, hs]
    have hlt : image.loadAddress s + r.segOffset < 2 ^ image.width := by omega
    exact (Nat.mod_eq_of_lt hlt).symm

lemma loadedAddress_ne (hloaded : image.Loaded) {r : RebaseRegisters} {s t : RebaseSegment}
    (hs : image.segments[r.segIndex]? = some s) (hsize : s.vmSize ≠ 0)
    (ht : image.loadedSegments[r.segIndex]? = some t) {i : Nat} (hi : i < r.segIndex)
    {e : RebaseSegment} (he : image.segments[i]? = some e) (hempty : e.vmSize = 0) :
    image.loadedAddress r ≠ image.address (r.segIndex, r.segOffset) := by
  intro haddress
  rw [RebaseImage.loadedAddress, ht, RebaseImage.address, RebaseImage.segment,
    List.getD_eq_getElem?_getD, hs] at haddress
  have hload : image.loadAddress t % 2 ^ image.width = image.loadAddress s % 2 ^ image.width :=
    Nat.ModEq.add_right_cancel' r.segOffset haddress
  rw [RebaseImage.loadAddress, RebaseImage.loadAddress, Nat.mod_mod, Nat.mod_mod] at hload
  obtain ⟨j, -, hj, hearlier⟩ := exists_filter_getElem? (p := fun s => s.vmSize ≠ 0) hs (by simpa)
  have hlt : j < r.segIndex := hearlier i hi e he (by simp [hempty])
  have hget : ∀ {n : Nat} {x : RebaseSegment}, image.loadedSegments[n]? = some x →
      (image.loadedSegments.map image.loadAddress)[n]? = some (image.loadAddress x) := by
    intro n x hx
    rw [List.getElem?_map, hx]
    rfl
  have hsame : (image.loadedSegments.map image.loadAddress)[j]? =
      (image.loadedSegments.map image.loadAddress)[r.segIndex]? := by
    rw [hget hj, hget ht, RebaseImage.loadAddress, RebaseImage.loadAddress, hload]
  have hjlt : j < (image.loadedSegments.map image.loadAddress).length :=
    (List.getElem?_eq_some_iff.mp (hget hj)).1
  exact absurd ((List.getElem?_inj hjlt hloaded.distinct).mp hsame) (by omega)

lemma agree_iff_addresses (hloaded : image.Loaded) (hvalid : ValidRebaseInfo image)
    (htypes : ∀ op ∈ image.program, PointerType op) :
    image.Agree ↔ image.OperandsFit ∧ (∀ op ∈ image.program, image.LoadedWritable op) ∧
      ∀ r ∈ handlerCalls {} image.program,
        image.InRange r ∧ image.loadedAddress r = image.address (r.segIndex, r.segOffset) := by
  obtain ⟨hprogram, hcounts, hcalls⟩ := program_of_valid hvalid
  obtain ⟨hlow, hhigh⟩ := width_of_loaded hloaded
  have hnote := forEachRebase_note hprogram hcounts
  have hstart : AddressMatches image {} image.startRegisters := by
    refine ⟨rfl, rfl, ?_, .inr ⟨rfl, rfl⟩⟩
    unfold RebaseImage.startRegisters RebaseImage.loadedAddress
    cases image.loadedSegments[0]? with
    | none => rfl
    | some s => exact (Nat.mod_mod _ _).symm
  have hmap : image.locations.map image.address = [] ++ (handlerCalls {} image.program).map
      image.loadedAddress ↔ ∀ r ∈ handlerCalls {} image.program,
        image.loadedAddress r = image.address (r.segIndex, r.segOffset) := by
    rw [RebaseImage.locations, List.map_map, List.nil_append, List.map_inj_left]
    exact forall₂_congr fun r _ => eq_comm
  have hdyld2 : compressedRebase image = some (.ok (image.locations.map image.address), none) ↔
      (∀ op ∈ image.program, image.LoadedWritable op) ∧ ∀ r ∈ handlerCalls {} image.program,
        image.InRange r ∧ image.loadedAddress r = image.address (r.segIndex, r.segOffset) := by
    rw [compressedRebase_iff hlow hprogram hcounts,
      execAll_address_iff hhigh hcounts htypes hstart hcalls, hmap, ← forall₂_and]
  constructor
  · rintro ⟨l, hdyld3, hcompressed, hadjust⟩
    rw [hnote] at hdyld3
    obtain ⟨rfl, -⟩ := Prod.mk.inj (Option.some.inj hdyld3)
    exact ⟨operandsFit_of_adjustDataPointers hadjust, hdyld2.mp hcompressed⟩
  · rintro ⟨hfits, hrest⟩
    refine ⟨image.locations, hnote, hdyld2.mpr hrest, ?_⟩
    have hmatch : AdjustMatches {} {} := ⟨rfl, rfl, .inr ⟨rfl, rfl⟩⟩
    rw [adjustDataPointers_iff hfits hprogram, execAll_adjust hcounts htypes hmatch hcalls]
    rfl

/-- The three interpreters agree on an accepted image exactly when no operand has a bit above the
64th, dyld2 finds a writable segment for every index that is set, and no empty segment stands before a
segment in which a pointer is rebased. -/
theorem agree_iff (hloaded : image.Loaded) (hvalid : ValidRebaseInfo image)
    (htypes : ∀ op ∈ image.program, PointerType op)
    (hsets : ∀ op ∈ image.program, image.SetsWritable op) :
    image.Agree ↔ image.OperandsFit ∧ (∀ op ∈ image.program, image.LoadedWritable op) ∧
      image.NoEmptyBeforeUsed := by
  have hsegment : ∀ r ∈ handlerCalls {} image.program, ∃ s, image.segments[r.segIndex]? = some s ∧
      s.vmSize ≠ 0 ∧ r.segOffset < s.vmSize := by
    intro r hr
    have hpass := (program_of_valid hvalid).2.2 r hr
    have hset : r.segIndexSet = true := by
      by_contra hset
      rw [Bool.not_eq_true] at hset
      simp [invalidRebaseState, hset] at hpass
    obtain ⟨s, hs, -, hroom⟩ := setsWritable_of_call hsets (by simp) hr hset
    have hoffset := offset_lt_of_valid hloaded hs hroom hpass
    exact ⟨s, hs, by omega, hoffset⟩
  rw [agree_iff_addresses hloaded hvalid htypes]
  refine and_congr_right fun _ => and_congr_right fun hwritable => ?_
  constructor
  · intro h k hk i hi e he hempty
    obtain ⟨r, hr, rfl⟩ := (mem_usedSegments_iff (r := {})).mp hk
    obtain ⟨s, hs, hsize, -⟩ := hsegment r hr
    obtain ⟨hrange, haddress⟩ := h r hr
    cases ht : image.loadedSegments[r.segIndex]? with
    | none =>
      rw [RebaseImage.InRange, ht] at hrange
      exact absurd hrange.2 (Nat.not_lt_zero _)
    | some t => exact loadedAddress_ne hloaded hs hsize ht hi he hempty haddress
  · intro hnone r hr
    obtain ⟨s, hs, hsize, hoffset⟩ := hsegment r hr
    have hsame : image.loadedSegments[r.segIndex]? = some s := by
      rw [← hs]
      apply filter_getElem?_of_forall
      intro i hi x hx
      rcases Nat.lt_or_eq_of_le hi with hlt | rfl
      · have hused : r.segIndex ∈ usedSegments 0 image.program :=
          (mem_usedSegments_iff (r := {})).mpr ⟨r, hr, rfl⟩
        simpa using hnone r.segIndex hused i hlt x hx
      · rw [hs, Option.some.injEq] at hx
        simpa [← hx] using hsize
    exact inRange_of_same hloaded hs hoffset hsame

end Agreement

def smallImage (others : List RebaseSegment) (opcodes : List UInt8) : RebaseImage where
  segments := ⟨0, 4096, false, true, false⟩ :: others ++
    [⟨4096, 4096, true, false, false⟩, ⟨8192, 4096, false, false, false⟩]
  linkeditSegIndex := others.length + 2
  ptrSize := 8
  slide := 65536
  enforceWritable := true
  enforceExecutable := true
  opcodes := opcodes

def twoDataSegments : RebaseImage :=
  smallImage [⟨0x10000, 4096, true, false, false⟩]
    [0x11, 0x21, 0x08, 0x53, 0x42, 0x60, 0x02, 0x30, 0x80, 0x01, 0x80, 0x03, 0x10, 0x22, 0x10, 0x70, 0x20,
      0x51, 0x00]

theorem twoDataSegments_agree :
    twoDataSegments.locations = [(1, 8), (1, 16), (1, 24), (1, 48), (1, 56), (1, 192), (1, 216), (1, 240),
      (2, 16), (2, 56)] ∧ twoDataSegments.Agree := by
  have hloaded : twoDataSegments.Loaded := ⟨.inr rfl, by decide, by decide⟩
  have hprogram : twoDataSegments.program =
      [.setType 1, .setSegment 1 8, .rebase 3 8, .add 16, .rebase 2 8, .add 128, .rebase 3 24,
        .setSegment 2 16, .rebase 1 40, .rebase 1 8] := by decide +kernel
  have hvalid : ValidRebaseInfo twoDataSegments := by
    unfold ValidRebaseInfo
    decide +kernel
  refine ⟨by decide +kernel, (agree_iff hloaded hvalid ?_ ?_).mpr ⟨?_, ?_, ?_⟩⟩
  · rw [hprogram]
    simp [PointerType]
  · rw [hprogram]
    simp [RebaseImage.SetsWritable, twoDataSegments, smallImage]
  · simp [RebaseImage.OperandsFit, twoDataSegments, smallImage, Along, isDone, operandsFit, decodeRebase,
      decodeUleb, readUleb128, readUlebFrom, beyond64, UlebFits, FitsAfter]
  · rw [hprogram]
    simp [RebaseImage.LoadedWritable, RebaseImage.loadedSegments, twoDataSegments, smallImage]
  · have hsizes : ∀ s ∈ twoDataSegments.segments, s.vmSize ≠ 0 := by decide
    exact fun _ _ _ _ s hs => hsizes s (List.mem_of_getElem? hs)

/-- With an empty segment before the data segment, the index of the data segment means the linkedit
segment to dyld2, which throws. -/
theorem emptySegment_not_agree :
    let image := smallImage [⟨4096, 0, true, false, false⟩] [0x11, 0x22, 0x00, 0x51, 0x00]
    image.Loaded ∧ ValidRebaseInfo image ∧ (∀ op ∈ image.program, PointerType op) ∧
      (∀ op ∈ image.program, image.SetsWritable op) ∧ (∀ op ∈ image.program, CountFits op) ∧
      compressedRebase image = some (.ok [], some .notWritable) ∧ ¬image.Agree := by
  have hprogram : (smallImage [⟨4096, 0, true, false, false⟩]
      [0x11, 0x22, 0x00, 0x51, 0x00]).program = [.setType 1, .setSegment 2 0, .rebase 1 8] := by decide
  have hvalid : ValidRebaseInfo (smallImage [⟨4096, 0, true, false, false⟩]
      [0x11, 0x22, 0x00, 0x51, 0x00]) := by
    unfold ValidRebaseInfo
    decide +kernel
  have hthrows : compressedRebase (smallImage [⟨4096, 0, true, false, false⟩]
      [0x11, 0x22, 0x00, 0x51, 0x00]) = some (.ok [], some .notWritable) := rfl
  refine ⟨⟨.inr rfl, by decide, by decide⟩, hvalid, ?_, ?_, ?_, hthrows, ?_⟩
  · rw [hprogram]
    simp [PointerType]
  · rw [hprogram]
    simp [RebaseImage.SetsWritable, smallImage]
  · rw [hprogram]
    simp [CountFits]
  · rintro ⟨l, -, hcompressed, -⟩
    rw [hthrows] at hcompressed
    simp at hcompressed

end Dyld.MachO
