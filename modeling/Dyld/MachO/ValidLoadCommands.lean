import Dyld.MachO.MachOBuffer

/-!
# Validation of the load commands

`MachOFile::isMachO` and `MachOAnalyzer::validLoadCommands` check that the load commands can be
walked, and that `__TEXT` starts the file and covers them. The outcome of the checks on `__TEXT`
only goes to the diagnostics: a file that fails them, or has no `__TEXT`, is accepted all the same.
-/

namespace Dyld.MachO

open Dyld.Lib

/-- What `diag.error` was called with. -/
inductive ValidationError
  | notMachO
  | exceedsFirstSegment
  | walk (e : LoadCommandError)
  | exceedsFile
  | exceedsTEXT
  | textNotAtStart
  | textNotFound
  deriving DecidableEq, Repr

abbrev Diagnostics := Option ValidationError

namespace MachOBuffer

variable (b : MachOBuffer)

def isMachO (diag : Diagnostics) (fileSize : Nat) : Bool × Diagnostics :=
  if !b.hasMachOMagic then
    if !b.hasMachOBigEndianMagic then (false, some .notMachO) else (false, diag)
  else if b.sizeofcmds + b.machHeaderSize > fileSize then (false, some .exceedsFirstSegment)
  else
    match b.forEachLoadCommand with
    | .ok _ => (diag.isNone, diag)
    | .error e => (false, some (.walk e))

def checkTEXT (diag : Diagnostics) (info : SegmentInfo) : Diagnostics :=
  if info.fileOffset ≠ 0 then some .textNotAtStart
  else if b.sizeofcmds + b.machHeaderSize > info.fileSize then some .exceedsTEXT
  else diag

def isTEXT (info : SegmentInfo) : Bool := isName b.bytes info.segName textName

def validLoadCommands (diag : Diagnostics) (fileLen : Nat) : Option (Bool × Diagnostics) :=
  if b.sizeofcmds + b.machHeaderSize > fileLen then some (false, some .exceedsFile)
  else
    match b.forEachLoadCommand with
    | .error e => some (false, some (.walk e))
    | .ok _ =>
      b.forEachSegment.map fun segs =>
        let text := segs.find? b.isTEXT
        let diag := text.elim diag (b.checkTEXT diag)
        if diag.isSome && text.isNone then (false, some .textNotFound) else (true, diag)

/-! ### What acceptance is meant to say -/

/-- The load commands lie in the buffer, one after the other, and can be walked without a look
at what is behind it; `__TEXT` starts the file and covers them; nothing was reported. -/
structure SoundLoadCommands (fileSize : Nat) (diag : Diagnostics) : Prop where
  fits : b.machHeaderSize + b.sizeofcmds ≤ fileSize
  walk : ∃ cmds, b.forEachLoadCommand = .ok cmds ∧
    b.forEachLoadCommandIn ⟨0, fileSize⟩ = some (.ok cmds) ∧ cmds.length = b.ncmds ∧
      ∀ cmd ∈ cmds, b.machHeaderSize ≤ cmd ∧ 8 ≤ cmdsize b.bytes cmd ∧
        cmd + cmdsize b.bytes cmd ≤ b.machHeaderSize + b.sizeofcmds
  text : ∃ segs, b.forEachSegment = some segs ∧ ∃ info ∈ segs, b.isTEXT info = true ∧
    info.fileOffset = 0 ∧ b.machHeaderSize + b.sizeofcmds ≤ info.fileSize
  noError : diag = none

def firstTEXT : Option SegmentInfo := b.forEachSegment.bind (List.find? b.isTEXT)

/-- There is a `__TEXT` segment, and the first one starts the file and covers the load commands. -/
def TextCovers : Prop := ∃ info, b.firstTEXT = some info ∧ info.fileOffset = 0 ∧
  b.machHeaderSize + b.sizeofcmds ≤ info.fileSize

/-! ### What acceptance says -/

section Accepted

variable {b} {diag diag₁ : Diagnostics} {fileSize : Nat}

/-- What `isMachO` has checked. -/
lemma isMachO_eq_true (h : b.isMachO diag fileSize = (true, diag₁)) :
    b.hasMachOMagic = true ∧ b.machHeaderSize + b.sizeofcmds ≤ fileSize ∧ diag₁ = none ∧
      ∃ cmds, b.forEachLoadCommand = .ok cmds := by
  unfold isMachO at h
  split_ifs at h with hmagic hbig hfits
  · cases h
  · cases h
  · cases h
  · cases hwalk : b.forEachLoadCommand with
    | error e =>
      rw [hwalk] at h
      cases h
    | ok cmds =>
      rw [hwalk] at h
      dsimp only at h
      rw [Prod.mk.injEq, Option.isNone_iff_eq_none] at h
      refine ⟨by simpa using hmagic, by omega, h.2 ▸ h.1, cmds, rfl⟩

lemma forEachLoadCommand_inside {cmds : List Nat} (hmagic : b.hasMachOMagic = true)
    (hfits : b.machHeaderSize + b.sizeofcmds ≤ fileSize) (h : b.forEachLoadCommand = .ok cmds) :
    b.forEachLoadCommandIn ⟨0, fileSize⟩ = some (.ok cmds) ∧ cmds.length = b.ncmds ∧
      ∀ cmd ∈ cmds, b.machHeaderSize ≤ cmd ∧ 8 ≤ cmdsize b.bytes cmd ∧
        cmd + cmdsize b.bytes cmd ≤ b.machHeaderSize + b.sizeofcmds := by
  have hheader : 28 ≤ b.machHeaderSize := by
    unfold machHeaderSize
    split_ifs <;> omega
  rw [forEachLoadCommand, if_pos hmagic] at h
  refine ⟨?_, visitCommands_inside h⟩
  have hread : ∀ a, a + 4 ≤ 28 →
      readWord 4 b.bytes ⟨0, fileSize⟩ a = some (load 4 b.bytes a) := by
    intro a ha
    exact readWord_eq ⟨Nat.zero_le a, by dsimp only; omega⟩
  rw [forEachLoadCommandIn, hread 0 (by omega), Option.bind_some, if_pos hmagic,
    hread 16 (by omega), Option.bind_some, hread 20 (by omega), Option.bind_some,
    toNat_load, toNat_load]
  exact visitCommandsIn_eq h (Nat.zero_le _) hfits

/-- An accepted file is accepted again: the checks of `__TEXT` cannot make
`validLoadCommands` return false. -/
lemma validLoadCommands_of_isMachO (h : b.isMachO diag fileSize = (true, diag₁)) :
    b.validLoadCommands diag₁ fileSize = some (true, b.firstTEXT.elim none (b.checkTEXT none)) := by
  obtain ⟨-, hfits, rfl, cmds, hwalk⟩ := isMachO_eq_true h
  rw [validLoadCommands, if_neg (by omega), firstTEXT, forEachSegment, hwalk]
  dsimp only [Option.map_some, Option.bind_some]
  cases List.find? b.isTEXT _ with
  | none => rfl
  | some info => simp

lemma checkTEXT_eq_none {info : SegmentInfo} : b.checkTEXT none info = none ↔
    info.fileOffset = 0 ∧ b.machHeaderSize + b.sizeofcmds ≤ info.fileSize := by
  unfold checkTEXT
  split_ifs <;> simp <;> omega

end Accepted

/-- What `validLoadCommands` accepts is sound exactly when the first `__TEXT` segment is there and
passes its checks. -/
theorem validLoadCommands_sound_iff {diag diag₁ diag₂ : Diagnostics} {fileSize : Nat}
    (hmacho : b.isMachO diag fileSize = (true, diag₁))
    (hvalid : b.validLoadCommands diag₁ fileSize = some (true, diag₂)) :
    b.SoundLoadCommands fileSize diag₂ ↔ b.TextCovers := by
  have heq := validLoadCommands_of_isMachO hmacho
  rw [hvalid, Option.some.injEq, Prod.mk.injEq] at heq
  have hdiag : diag₂ = b.firstTEXT.elim none (b.checkTEXT none) := heq.2
  obtain ⟨hmagic, hfits, -, cmds, hwalk⟩ := isMachO_eq_true hmacho
  constructor
  · intro h
    obtain ⟨segs, hsegs, info, hinfo, htext, -⟩ := h.text
    cases hfirst : b.firstTEXT with
    | none =>
      rw [firstTEXT, hsegs, Option.bind_some, List.find?_eq_none] at hfirst
      exact absurd htext (hfirst info hinfo)
    | some first =>
      rw [hfirst, Option.elim_some, h.noError] at hdiag
      exact ⟨first, hfirst, checkTEXT_eq_none.mp hdiag.symm⟩
  · rintro ⟨first, hfirst, hcovers⟩
    constructor
    · exact hfits
    · exact ⟨cmds, hwalk, forEachLoadCommand_inside hmagic hfits hwalk⟩
    · obtain ⟨segs, hsegs, hfind⟩ := Option.bind_eq_some_iff.mp hfirst
      exact ⟨segs, hsegs, first, List.mem_of_find?_eq_some hfind, List.find?_some hfind, hcovers⟩
    · rw [hdiag, hfirst]
      exact checkTEXT_eq_none.mpr hcovers

/-- A 64-bit file with one `LC_SEGMENT_64`, named `__TEXT`, with 104 bytes of content. -/
def textOnly (fileoff : UInt8) : MachOBuffer where
  bytes := fun x => ([0xcf, 0xfa, 0xed, 0xfe] ++ List.replicate 12 0 ++ [1, 0, 0, 0, 72, 0, 0, 0] ++
    List.replicate 8 0 ++ [0x19, 0, 0, 0, 72, 0, 0, 0] ++ textName ++ List.replicate 26 0 ++
    [fileoff, 0, 0, 0, 0, 0, 0, 0, 104] : List UInt8).getD x 0

/-- A file whose `__TEXT` starts at 0 passes every check. -/
theorem validLoadCommands_sound_iff_textOnly :
    (textOnly 0).SoundLoadCommands 104 none ↔ (textOnly 0).TextCovers :=
  @validLoadCommands_sound_iff (textOnly 0) none none none 104 (by decide +kernel)
    (by decide +kernel)

theorem validLoadCommands_ignores_error :
    (textOnly 1).isMachO none 104 = (true, none) ∧
      (textOnly 1).validLoadCommands none 104 = some (true, some .textNotAtStart) ∧
      ¬(textOnly 1).SoundLoadCommands 104 (some .textNotAtStart) := by
  refine ⟨by decide +kernel, by decide +kernel, ?_⟩
  intro h
  exact absurd h.noError (by decide)

end MachOBuffer

end Dyld.MachO
