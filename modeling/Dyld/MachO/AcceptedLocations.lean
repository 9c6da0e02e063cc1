import Dyld.MachO.OpcodeRuns
import Dyld.MachO.ValidSegments

/-!
# Locations that validation accepts

`invalidRebaseState` and `invalidBindState` compare an offset with the size of its segment less the size
of a pointer. In a segment that is smaller than a pointer the difference wraps.
-/

namespace Dyld.MachO

open Dyld.Lib

/-- A segment of the file as the interpreters see it. Its `textRelocs` depends on its sections. -/
def SegmentInfo.IsSegment (info : SegmentInfo) (segment : RebaseSegment) : Prop :=
  segment.vmAddr = info.vmAddr ∧ segment.vmSize = info.vmSize ∧
    segment.writable = decide (info.protections / 2 % 2 = 1) ∧
    segment.executable = decide (info.protections / 4 % 2 = 1)

/-- The interpreters are given the segments of the file, the last `__LINKEDIT` and its pointer size. -/
structure MachOBuffer.Gives (b : MachOBuffer) (segments : List RebaseSegment)
    (linkeditSegIndex ptrSize : Nat) : Prop where
  segments : ∀ infos, b.forEachSegment = some infos → List.Forall₂ SegmentInfo.IsSegment infos segments ∧
    (infos.filter (fun info => isName b.bytes info.segName linkeditName)).getLast?.map (·.segIndex) =
      some linkeditSegIndex
  ptrSize : ptrSize = if b.is64 then 8 else 4

def LocationInside (segments : List RebaseSegment) (linkeditSegIndex ptrSize segIndex segOffset : Nat) :
    Prop :=
  segIndex < linkeditSegIndex ∧
    segOffset + ptrSize ≤ (segments.getD segIndex ⟨0, 0, false, false, false⟩).vmSize

section Gives

variable {b : MachOBuffer} {segments : List RebaseSegment} {linkeditSegIndex ptrSize : Nat}
  {infos : List SegmentInfo}

lemma MachOBuffer.Gives.vmSize_lt (h : b.Gives segments linkeditSegIndex ptrSize)
    (hinfos : b.forEachSegment = some infos) (i : Nat) :
    (segments.getD i ⟨0, 0, false, false, false⟩).vmSize < 2 ^ 64 := by
  have hsegments := (h.segments infos hinfos).1
  by_cases hi : i < segments.length
  · rw [List.getD_eq_getElem _ _ hi]
    have hlength := hsegments.length_eq
    have hinfo := (List.forall₂_iff_get.mp hsegments).2 i (by omega) hi
    have heq := MachOBuffer.forEachSegment_eq_some hinfos
    have hget : i < b.segments.length := by
      rw [heq, List.length_mapIdx] at hlength
      omega
    have hsize : infos[i].vmSize = b.segments[i].vmsize := by
      simp only [heq, List.getElem_mapIdx]
      rfl
    have hlimit := (MachOBuffer.lt_limit (List.getElem_mem hget)).2
    have hle : b.segments[i].limit ≤ 2 ^ 64 := by
      cases (b.segments[i]).limit_cases with
      | inl h => rw [h.2]; norm_num
      | inr h => rw [h.2]
    have hsame : segments[i].vmSize = infos[i].vmSize := hinfo.2.1
    rw [hsame, hsize]
    exact hlimit.trans_le hle
  · rw [List.getD_eq_default _ _ (not_lt.mp hi)]
    norm_num

lemma MachOBuffer.Gives.inside_iff (h : b.Gives segments linkeditSegIndex ptrSize)
    (hinfos : b.forEachSegment = some infos) {i offset : Nat}
    (hi : i < linkeditSegIndex)
    (hoffset : ¬offset > ((segments.getD i ⟨0, 0, false, false, false⟩).vmSize + (2 ^ 64 - ptrSize)) % 2 ^ 64) :
    LocationInside segments linkeditSegIndex ptrSize i offset ↔
      ptrSize ≤ (segments.getD i ⟨0, 0, false, false, false⟩).vmSize := by
  have hlt := h.vmSize_lt hinfos i
  have hptr : ptrSize ≤ 8 := by
    rw [h.ptrSize]
    split <;> norm_num
  rw [LocationInside]
  generalize (segments.getD i ⟨0, 0, false, false, false⟩).vmSize = vmSize at hlt hoffset ⊢
  constructor
  · rintro ⟨-, hinside⟩
    omega
  · intro hroom
    have hsum : vmSize + (2 ^ 64 - ptrSize) = vmSize - ptrSize + 2 ^ 64 := by omega
    rw [hsum, Nat.add_mod_right, Nat.mod_eq_of_lt (by omega)] at hoffset
    exact ⟨hi, by omega⟩

end Gives

/-! ### Accepted runs -/

lemma of_ite_some_eq_none {α : Type} {p : Prop} [Decidable p] {e : α} {x : Option α}
    (h : (if p then some e else x) = none) : ¬p ∧ x = none := by
  by_cases hp : p
  · rw [if_pos hp] at h
    exact absurd h (Option.some_ne_none e)
  · rw [if_neg hp] at h
    exact ⟨hp, h⟩

section Rebases

variable {image : RebaseImage}

lemma invalidRebaseState_none {r : RebaseRegisters} (h : invalidRebaseState image r = none) :
    r.segIndex < image.linkeditSegIndex ∧
      ¬r.segOffset > ((image.segment r.segIndex).vmSize + (2 ^ 64 - image.ptrSize)) % 2 ^ 64 := by
  rw [invalidRebaseState] at h
  obtain ⟨-, h⟩ := of_ite_some_eq_none h
  obtain ⟨hindex, h⟩ := of_ite_some_eq_none h
  obtain ⟨hoffset, -⟩ := of_ite_some_eq_none h
  exact ⟨not_le.mp hindex, hoffset⟩

lemma validRebaseRun_not_stops (h : ValidRebaseInfo image) (n : Nat) :
    ¬(validRebaseRun image n).Stops (checkRebase image) := by
  rintro ⟨o, i, made, hmode, hi, hstop⟩
  obtain ⟨k, hended, hstate⟩ := endsIn_of_forEachRebase h
  have hlater : (validRebaseRun image n).later = [] := List.suffix_nil.mp (Machine.run_later n)
  have hstep : validRebaseRun image (n + 1) = _ := (Machine.run_succ n).trans (Machine.step_stop hmode hi hstop)
  have hended' : (validRebaseRun image (n + 1)).mode = .ended o.error := by
    rw [hstep, Option.or_none]
    apply leave_single
    exact hlater
  have hsame : Machine.run (checkRebase image) (fun _ => none) k (rebaseMachine image none) =
    validRebaseRun image (n + 1) := Machine.run_eq_of_ended hended hended'
  rw [hsame, hstep, Machine.leave_state] at hstate
  have hinvalid : invalidRebaseState image (o.call o.regs) = none := hstate
  rw [checkRebase_snd, hinvalid] at hstop
  simp at hstop

lemma rebases_valid (h : ValidRebaseInfo image) {n : Nat} {r : RebaseRegisters}
    (hr : r ∈ (Machine.silentRun n (rebaseMachine image ())).log) : invalidRebaseState image r = none := by
  have hcheck : ∀ r, (checkRebase image none r).2 = false → (checkRebase image none r).1 = none :=
    fun r hr => Option.not_isSome_iff_eq_none.mp (Bool.eq_false_iff.mp hr)
  have hchecked : (validRebaseRun image n).forget = Machine.silentRun n (rebaseMachine image ()) ∧
      ∀ r ∈ (validRebaseRun image n).log, (checkRebase image none r).2 = false :=
    Machine.run_checked hcheck rfl rfl rfl (validRebaseRun_not_stops h) n
  have hlog : r ∈ (validRebaseRun image n).log := congrArg Machine.log hchecked.1 ▸ hr
  exact hcheck r (hchecked.2 r hlog)

end Rebases

section Binds

variable {image : BindImage}

lemma invalidBindState_none {r : BindRegisters} (h : invalidBindState image r = none) :
    r.segmentIndex < image.linkeditSegIndex ∧
      ¬r.segmentOffset > ((image.segment r.segmentIndex).vmSize + (2 ^ 64 - image.ptrSize)) % 2 ^ 64 := by
  rw [invalidBindState] at h
  obtain ⟨-, h⟩ := of_ite_some_eq_none h
  obtain ⟨hindex, h⟩ := of_ite_some_eq_none h
  obtain ⟨hoffset, -⟩ := of_ite_some_eq_none h
  exact ⟨not_le.mp hindex, hoffset⟩

lemma validBindRun_not_stops (h : ValidBindInfo image) (n : Nat) :
    ¬(validBindRun image n).Stops (checkBind image) := by
  rintro ⟨o, i, made, hmode, hi, hstop⟩
  obtain ⟨k, hended⟩ := h
  have hstep : validBindRun image (n + 1) =
      ((validBindRun image n).callHandler (checkBind image) (o.call o.regs)).leave (o.error.or
        (bindDiagnostics ((validBindRun image n).callHandler (checkBind image) (o.call o.regs)).state)) :=
    (Machine.run_succ n).trans (Machine.step_stop hmode hi hstop)
  have hstate : ∃ e, bindDiagnostics
      ((validBindRun image n).callHandler (checkBind image) (o.call o.regs)).state = some e := by
    cases hcall : o.call o.regs with
    | strong name => rw [hcall] at hstop; simp [checkBind, bindHandler] at hstop
    | bind lazyBind r =>
      rw [hcall] at hstop
      obtain ⟨e, he⟩ := Option.isSome_iff_exists.mp hstop
      exact ⟨.state e, congrArg bindDiagnostics he⟩
  obtain ⟨e, he⟩ := hstate
  obtain ⟨e', he'⟩ : ∃ e', o.error.or (some e) = some e' := by cases o.error <;> simp
  have hended' : (validBindRun image (n + 1)).mode = .ended (some e') := by
    rw [hstep, he, he']
    rfl
  have hsame : Machine.run (checkBind image) bindDiagnostics k (forEachBind image none) =
    validBindRun image (n + 1) := Machine.run_eq_of_ended hended hended'
  rw [hsame, hended'] at hended
  simp at hended

lemma binds_valid (h : ValidBindInfo image) {n : Nat} {lazyBind : Bool} {r : BindRegisters}
    (hr : .bind lazyBind r ∈ (Machine.silentRun n (forEachBind image ())).log) :
    invalidBindState image r = none := by
  have hcheck : ∀ e, (checkBind image none e).2 = false → (checkBind image none e).1 = none := by
    intro e he
    cases e with
    | strong name => rfl
    | bind lazyBind r => exact Option.not_isSome_iff_eq_none.mp (Bool.eq_false_iff.mp he)
  have hchecked : (validBindRun image n).forget = Machine.silentRun n (forEachBind image ()) ∧
      ∀ e ∈ (validBindRun image n).log, (checkBind image none e).2 = false :=
    Machine.run_checked hcheck rfl rfl rfl (validBindRun_not_stops h) n
  have hlog : .bind lazyBind r ∈ (validBindRun image n).log := congrArg Machine.log hchecked.1 ▸ hr
  exact hcheck _ (hchecked.2 _ hlog)

end Binds

/-! ### Where the locations lie -/

def RebasesInside (image : RebaseImage) : Prop :=
  ∀ n, ∀ r ∈ (Machine.silentRun n (rebaseMachine image ())).log,
    LocationInside image.segments image.linkeditSegIndex image.ptrSize r.segIndex r.segOffset

/-- Every location that `forEachBind` reports does. -/
def BindsInside (image : BindImage) : Prop :=
  ∀ n lazyBind r, .bind lazyBind r ∈ (Machine.silentRun n (forEachBind image ())).log →
    LocationInside image.segments image.linkeditSegIndex image.ptrSize r.segmentIndex r.segmentOffset

def RebaseSegmentsHaveRoom (image : RebaseImage) : Prop :=
  ∀ n o i made, (Machine.silentRun n (rebaseMachine image ())).mode = .calls o i made → i < o.count →
    ∀ r, o.call o.regs = r → image.ptrSize ≤ (image.segment r.segIndex).vmSize

def BindSegmentsHaveRoom (image : BindImage) : Prop :=
  ∀ n o i made, (Machine.silentRun n (forEachBind image ())).mode = .calls o i made → i < o.count →
    ∀ lazyBind r, o.call o.regs = .bind lazyBind r → image.ptrSize ≤ (image.segment r.segmentIndex).vmSize

section Inside

variable {b : MachOBuffer} {infos : List SegmentInfo} (hinfos : b.forEachSegment = some infos)
include hinfos

lemma rebasesInside_iff {image : RebaseImage}
    (hgives : b.Gives image.segments image.linkeditSegIndex image.ptrSize) (hvalid : ValidRebaseInfo image) :
    RebasesInside image ↔ RebaseSegmentsHaveRoom image := by
  have hinside : ∀ n, ∀ r ∈ (Machine.silentRun n (rebaseMachine image ())).log,
      (LocationInside image.segments image.linkeditSegIndex image.ptrSize r.segIndex r.segOffset ↔
        image.ptrSize ≤ (image.segment r.segIndex).vmSize) := by
    intro n r hr
    obtain ⟨hindex, hoffset⟩ := invalidRebaseState_none (rebases_valid hvalid hr)
    exact hgives.inside_iff hinfos hindex hoffset
  constructor
  · intro h n o i made hmode hi r hcall
    obtain ⟨k, hk⟩ := (Machine.mem_log_iff rfl).mpr ⟨n, o, i, made, hmode, hi, hcall⟩
    exact (hinside k r hk).mp (h k r hk)
  · intro h n r hr
    obtain ⟨k, o, i, made, hmode, hi, hcall⟩ := (Machine.mem_log_iff rfl).mp ⟨n, hr⟩
    exact (hinside n r hr).mpr (h k o i made hmode hi r hcall)

lemma bindsInside_iff {image : BindImage}
    (hgives : b.Gives image.segments image.linkeditSegIndex image.ptrSize) (hvalid : ValidBindInfo image) :
    BindsInside image ↔ BindSegmentsHaveRoom image := by
  have hinside : ∀ n lazyBind r, .bind lazyBind r ∈ (Machine.silentRun n (forEachBind image ())).log →
      (LocationInside image.segments image.linkeditSegIndex image.ptrSize r.segmentIndex r.segmentOffset ↔
        image.ptrSize ≤ (image.segment r.segmentIndex).vmSize) := by
    intro n lazyBind r hr
    obtain ⟨hindex, hoffset⟩ := invalidBindState_none (binds_valid hvalid hr)
    exact hgives.inside_iff hinfos hindex hoffset
  constructor
  · intro h n o i made hmode hi lazyBind r hcall
    obtain ⟨k, hk⟩ := (Machine.mem_log_iff rfl).mpr ⟨n, o, i, made, hmode, hi, hcall⟩
    exact (hinside k lazyBind r hk).mp (h k lazyBind r hk)
  · intro h n lazyBind r hr
    obtain ⟨k, o, i, made, hmode, hi, hcall⟩ := (Machine.mem_log_iff rfl).mp ⟨n, hr⟩
    exact (hinside n lazyBind r hr).mpr (h k o i made hmode hi lazyBind r hcall)

omit hinfos in
/-- In an accepted image the locations of accepted opcodes lie inside their segments exactly when no
segment that is too small for a pointer is set for them. -/
theorem acceptedLocations_inside_iff {enforceFormat : Malformed → Bool} {fileLen : Nat}
    (hsegments : b.validSegments enforceFormat fileLen = some true) :
    (∀ image : RebaseImage, b.Gives image.segments image.linkeditSegIndex image.ptrSize →
      ValidRebaseInfo image → (RebasesInside image ↔ RebaseSegmentsHaveRoom image)) ∧
    (∀ image : BindImage, b.Gives image.segments image.linkeditSegIndex image.ptrSize →
      ValidBindInfo image → (BindsInside image ↔ BindSegmentsHaveRoom image)) := by
  obtain ⟨infos, hinfos, -⟩ := Option.map_eq_some_iff.mp hsegments
  constructor
  · intro image hgives hvalid
    exact rebasesInside_iff hinfos hgives hvalid
  · intro image hgives hvalid
    exact bindsInside_iff hinfos hgives hvalid

end Inside

def MachOBuffer.dataOfSize (size : Nat) : MachOBuffer where
  bytes := fun x => (natBytes 4 0xfeedfacf ++ natBytes 8 0 ++ natBytes 4 6 ++ natBytes 4 3 ++
    natBytes 4 216 ++ natBytes 8 0 ++
    segment64Bytes 72 textName 0x1000 0x1000 0 0x1000 5 0 ++
    segment64Bytes 72 [0x5F, 0x5F, 0x44, 0x41, 0x54, 0x41] 0x2000 size 0x1000 0 3 0 ++
    segment64Bytes 72 linkeditName 0x3000 0x1000 0x1000 0x1000 1 0).getD x 0

def bindAtData (size : Nat) : BindImage where
  segments := [⟨0x1000, 0x1000, false, true, false⟩, ⟨0x2000, size, true, false, false⟩,
    ⟨0x3000, 0x1000, false, false, false⟩]
  linkeditSegIndex := 2
  ptrSize := 8
  dylibCount := 1
  enforceExecutable := true
  forceAllowTextRelocs := false
  bindOpcodes := [0x11, 0x40, 97, 0, 0x51, 0x71, 0, 0x90, 0]
  lazyBindOpcodes := []
  weakBindOpcodes := []

def dataInfos (size : Nat) : List SegmentInfo :=
  [⟨40, 0, 0x1000, 0x1000, 0x1000, 5, 0⟩, ⟨112, 0x1000, 0, 0x2000, size, 3, 1⟩,
    ⟨184, 0x1000, 0x1000, 0x3000, 0x1000, 1, 2⟩]

open MachOBuffer in
lemma gives_bindAtData (size : Nat) (hinfos : (dataOfSize size).forEachSegment = some (dataInfos size))
    (hlast : ((dataInfos size).filter
      (fun info => isName (dataOfSize size).bytes info.segName linkeditName)).getLast?.map (·.segIndex) =
        some 2)
    (h64 : (dataOfSize size).is64 = true) :
    (dataOfSize size).Gives (bindAtData size).segments (bindAtData size).linkeditSegIndex
      (bindAtData size).ptrSize where
  segments := by
    intro infos hsome
    rw [hinfos, Option.some.injEq] at hsome
    subst hsome
    exact ⟨by simp [SegmentInfo.IsSegment, dataInfos, bindAtData], hlast⟩
  ptrSize := by
    rw [h64]
    rfl

theorem bindsInside_iff_bindAtData :
    BindsInside (bindAtData 0x1000) ↔ BindSegmentsHaveRoom (bindAtData 0x1000) := by
  have hvalid : (MachOBuffer.dataOfSize 0x1000).validSegments (fun _ => true) 0x2000 = some true := by
    decide +kernel
  apply (acceptedLocations_inside_iff hvalid).2
  · exact gives_bindAtData 0x1000 (by decide +kernel) (by decide +kernel) (by decide +kernel)
  · exact ⟨20, rfl⟩

theorem bind_in_empty_segment_accepted :
    (MachOBuffer.dataOfSize 0).validSegments (fun _ => true) 0x2000 = some true ∧
      (MachOBuffer.dataOfSize 0).Gives (bindAtData 0).segments (bindAtData 0).linkeditSegIndex
        (bindAtData 0).ptrSize ∧
      ValidBindInfo (bindAtData 0) ∧ ¬BindsInside (bindAtData 0) := by
  refine ⟨by decide +kernel,
    gives_bindAtData 0 (by decide +kernel) (by decide +kernel) (by decide +kernel), ⟨20, rfl⟩, ?_⟩
  intro h
  have hreported : .bind false ⟨1, 1, 0, some ⟨[97], true⟩, 1, true, true, 0, false⟩ ∈
      (Machine.silentRun 20 (forEachBind (bindAtData 0) ())).log := by decide
  have hinside := (h 20 false _ hreported).2
  simp [bindAtData] at hinside

end Dyld.MachO
