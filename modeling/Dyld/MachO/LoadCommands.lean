import Dyld.Lib.CString

/-!
# Removing load commands

`MachOFile::removeLoadCommand` and the constructor of `LinkeditOptimizer` take load commands out
of a mach-o file in place. Both move everything after a removed command down, together with bytes
from behind the load commands, and clear what is left at the end. When the callback of
`removeLoadCommand` stops, the commands it has not seen are cleared too.
-/

namespace Dyld.MachO
open Dyld.Lib

def greaterThanAddOrOverflow (addLHS addRHS b : Nat) : Bool := addLHS > b || addRHS > b - addLHS

lemma greaterThanAddOrOverflow_eq_false {addLHS addRHS b : Nat} :
    greaterThanAddOrOverflow addLHS addRHS b = false ↔ addLHS + addRHS ≤ b := by
  simp only [greaterThanAddOrOverflow, Bool.or_eq_false_iff, decide_eq_false_iff_not]
  omega

/-! ### Ranges of segments -/

/-- The checks of the ranges in the second pass of `validSegments`. -/
def badRange (is64 : Bool) (fileLen fileOffset fileSize vmAddr vmSize : Nat) : Bool :=
  greaterThanAddOrOverflow fileOffset fileSize fileLen ||
    if is64 then (vmAddr + vmSize) % 2 ^ 64 < vmAddr else (vmAddr + vmSize) % 2 ^ 32 < vmAddr % 2 ^ 32

/-- The overlap test of the third pass, for addresses and for file offsets. -/
def overlaps (start1 size1 start2 size2 : Nat) : Bool :=
  let end1 := (start1 + size1) % 2 ^ 64
  let end2 := (start2 + size2) % 2 ^ 64
  (start2 ≤ start1 && end2 > start1 && end1 > start1) ||
    (start2 ≥ start1 && start2 < end1 && end2 > start2)

/-- The order test of the third pass, for a segment and one that is listed behind it. -/
def outOfOrder (vmAddr1 fileOffset1 vmAddr2 fileOffset2 : Nat) : Bool :=
  vmAddr1 > vmAddr2 || (fileOffset1 > fileOffset2 && fileOffset1 != 0 && fileOffset2 != 0)

/-! ### Moving and clearing memory -/

def memmove (m : Mem) (dst src n : Nat) : Mem :=
  fun x => if dst ≤ x ∧ x < dst + n then m (src + (x - dst)) else m x

def bzero (m : Mem) (a n : Nat) : Mem := fun x => if a ≤ x ∧ x < a + n then 0 else m x

/-! ### Load commands -/

/-- The fields of `mach_header` that are used, and the memory from the first load command on. -/
structure MachOFile where
  magic : UInt32
  ncmds : UInt32
  sizeofcmds : UInt32
  cmds : Mem

inductive LoadCommandError
  | notMachO
  | tooSmall (i : Nat)
  | tooLarge (i : Nat)
  deriving DecidableEq, Repr

/-- Whether load commands can be read, for a little-endian file or a big-endian one. -/
def MachOFile.hasMachOMagic (f : MachOFile) : Bool := f.magic == 0xfeedfacf || f.magic == 0xfeedface

def MachOFile.hasMachOBigEndianMagic (f : MachOFile) : Bool :=
  f.magic == 0xcefaedfe || f.magic == 0xcffaedfe

def commandType (m : Mem) (cmd : Nat) : Nat := loadNat m cmd 4

def cmdsize (m : Mem) (cmd : Nat) : Nat := loadNat m (cmd + 4) 4

def checkCommand (m : Mem) (cmdsEnd i cmd : Nat) : Option LoadCommandError :=
  if cmdsize m cmd < 8 then some (.tooSmall i)
  else if cmd + cmdsize m cmd > cmdsEnd then some (.tooLarge i)
  else none

def visitCommands (m : Mem) (cmdsEnd : Nat) : Nat → Nat → Nat → Except LoadCommandError (List Nat)
  | 0, _, _ => .ok []
  | remaining + 1, i, cmd =>
    match checkCommand m cmdsEnd i cmd with
    | some e => .error e
    | none => (visitCommands m cmdsEnd remaining (i + 1) (cmd + cmdsize m cmd)).map (cmd :: ·)

/-- `MachOFile::forEachLoadCommand` with a callback that does not stop. -/
def forEachLoadCommand (f : MachOFile) : Except LoadCommandError (List Nat) :=
  if f.hasMachOMagic then visitCommands f.cmds f.sizeofcmds.toNat f.ncmds.toNat 0 0
  else if f.hasMachOBigEndianMagic then .ok []
  else .error .notMachO

/-! ### The two loops -/

/-- The state of a loop: the file, the current command, and what is left of the commands. -/
structure Removal where
  file : MachOFile
  cmd : Nat
  bytesRemaining : UInt32

/-- Moves the commands after the current one over it. -/
def Removal.moveDown (s : Removal) : Removal :=
  { s with file := { s.file with
      cmds := memmove s.file.cmds s.cmd (s.cmd + cmdsize s.file.cmds s.cmd)
        s.bytesRemaining.toNat } }

def Removal.skip (s : Removal) : Removal :=
  { s with bytesRemaining := s.bytesRemaining - UInt32.ofNat (cmdsize s.file.cmds s.cmd)
           cmd := s.cmd + cmdsize s.file.cmds s.cmd }

/-- Clears what is left at the end. -/
def Removal.clear (s : Removal) : MachOFile :=
  { s.file with cmds := bzero s.file.cmds s.cmd s.bytesRemaining.toNat }

/-- What `removeLoadCommand` does with one command, with `remove` set by the callback. -/
def removeOrSkip (s : Removal) (remove : Bool) : Removal :=
  if remove then
    let size := UInt32.ofNat (cmdsize s.file.cmds s.cmd)
    let s := s.moveDown
    { s with file := { s.file with sizeofcmds := s.file.sizeofcmds - size
                                   ncmds := s.file.ncmds - 1 } }
  else s.skip

/-- The loop of `removeLoadCommand`. The callback answers for command `i` whether to remove it
and whether to stop. -/
def removeLoop (choice : Nat → Bool × Bool) (cmdsEnd : Nat) :
    Nat → Nat → Removal → Option LoadCommandError × Removal
  | 0, _, s => (none, s)
  | remaining + 1, i, s =>
    match checkCommand s.file.cmds cmdsEnd i s.cmd with
    | some e => (some e, s)
    | none =>
      let s := removeOrSkip s (choice i).1
      if (choice i).2 then (none, s) else removeLoop choice cmdsEnd remaining (i + 1) s

def removeLoadCommand (f : MachOFile) (choice : Nat → Bool × Bool) :
    Option LoadCommandError × MachOFile :=
  if f.hasMachOMagic then
    match removeLoop choice f.sizeofcmds.toNat f.ncmds.toNat 0 ⟨f, 0, f.sizeofcmds⟩ with
    | (some e, s) => (some e, s.file)
    | (none, s) => (none, s.clear)
  else if f.hasMachOBigEndianMagic then (none, f)
  else (some .notMachO, f)

/-- `LC_DYLD_CHAINED_FIXUPS` and `LC_SEGMENT_SPLIT_INFO`. -/
def isRemovedType (type : Nat) : Bool := type == 0x80000034 || type == 0x1E

def optimizerLoop : Nat → Removal × UInt32 → Removal × UInt32
  | 0, r => r
  | remaining + 1, (s, removedCount) =>
    if isRemovedType (commandType s.file.cmds s.cmd) then
      optimizerLoop remaining (s.moveDown, removedCount + 1)
    else optimizerLoop remaining (s.skip, removedCount)

/-- What the constructor of `LinkeditOptimizer` makes of the load commands. -/
def linkeditOptimizer (f : MachOFile) : MachOFile :=
  let r := optimizerLoop f.ncmds.toNat (⟨f, 0, f.sizeofcmds⟩, 0)
  { r.1.clear with ncmds := f.ncmds - r.2, sizeofcmds := f.sizeofcmds - r.1.bytesRemaining }

/-! ### The filter that the loops are meant to be -/

def bytesFrom (m : Mem) (a n : Nat) : List UInt8 := (List.range n).map (fun i => m (a + i))

def commands (f : MachOFile) : List (List UInt8) :=
  match forEachLoadCommand f with
  | .ok l => l.map (fun cmd => bytesFrom f.cmds cmd (cmdsize f.cmds cmd))
  | .error _ => []

/-- A file whose load commands can be read and fill the space that the header gives them. -/
structure Accepted (f : MachOFile) : Prop where
  magic : f.hasMachOMagic = true
  noError : ∃ l, forEachLoadCommand f = .ok l
  size : (commands f).flatten.length = f.sizeofcmds.toNat

def keptCommands (f : MachOFile) (chosen : Nat → Bool) : List (List UInt8) :=
  ((commands f).zipIdx.filter (fun c => !chosen c.2)).map Prod.fst

structure Filters (f f' : MachOFile) (chosen : Nat → Bool) : Prop where
  magic : f'.magic = f.magic
  ncmds : f'.ncmds.toNat = (keptCommands f chosen).length
  sizeofcmds : f'.sizeofcmds.toNat = (keptCommands f chosen).flatten.length
  commands : BytesAt f'.cmds 0 (keptCommands f chosen).flatten
  zeros : ∀ a, (keptCommands f chosen).flatten.length ≤ a → a < f.sizeofcmds.toNat → f'.cmds a = 0
  above : ∀ a, f.sizeofcmds.toNat ≤ a → f'.cmds a = f.cmds a

/-- The callback sees the command and wants it removed. -/
def chosenBy (choice : Nat → Bool × Bool) (i : Nat) : Bool :=
  (List.range i).all (fun j => !(choice j).2) && (choice i).1

def chosenByType (f : MachOFile) (i : Nat) : Bool :=
  ((commands f)[i]?.map (fun c => isRemovedType (loadNat (fun x => c.getD x 0) 0 4))).getD false

/-! ### Commands in memory -/

section Layout

lemma loadNat_shift (m : Mem) (a k n : Nat) :
    loadNat m (a + k) n = loadNat (fun x => m (a + x)) k n := by
  induction n generalizing k with
  | zero => rfl
  | succ n ih => rw [loadNat, loadNat, Nat.add_assoc, ih (k + 1)]

/-- A field of a command is read from its bytes. -/
lemma loadNat_of_bytesAt {m : Mem} {a k n : Nat} {c : List UInt8} (h : BytesAt m a c)
    (hk : k + n ≤ c.length) : loadNat m (a + k) n = loadNat (fun x => c.getD x 0) k n := by
  rw [loadNat_shift]
  apply loadNat_congr
  intro x hx
  unfold InWord at hx
  exact bytesAt_iff.mp h x (by omega)

structure IsCommand (c : List UInt8) : Prop where
  size_eq : loadNat (fun x => c.getD x 0) 4 4 = c.length
  large : 8 ≤ c.length

lemma IsCommand.cmdsize_eq {c : List UInt8} (hc : IsCommand c) {m : Mem} {a : Nat}
    (h : BytesAt m a c) : cmdsize m a = c.length := by
  have hlarge := hc.large
  unfold cmdsize
  rw [loadNat_of_bytesAt h (by omega), hc.size_eq]

lemma bytesAt_bytesFrom (m : Mem) (a n : Nat) : BytesAt m a (bytesFrom m a n) := by
  rw [bytesAt_iff]
  intro i hi
  simp only [bytesFrom, List.length_map, List.length_range] at hi
  simp [bytesFrom, List.getD_eq_getElem?_getD, hi]

lemma length_bytesFrom (m : Mem) (a n : Nat) : (bytesFrom m a n).length = n := by
  simp [bytesFrom]

lemma visitCommands_layout {m : Mem} {cmdsEnd : Nat} (remaining i cmd : Nat) {l : List Nat}
    (h : visitCommands m cmdsEnd remaining i cmd = .ok l) :
    l.length = remaining ∧
      BytesAt m cmd (l.map (fun a => bytesFrom m a (cmdsize m a))).flatten ∧
      ∀ c ∈ l.map (fun a => bytesFrom m a (cmdsize m a)), IsCommand c := by
  induction remaining generalizing i cmd l with
  | zero =>
    cases h
    simp [BytesAt]
  | succ remaining ih =>
    rw [visitCommands] at h
    split at h
    · cases h
    · rename_i hcheck
      cases hrest : visitCommands m cmdsEnd remaining (i + 1) (cmd + cmdsize m cmd) with
      | error e =>
        rw [hrest] at h
        cases h
      | ok l' =>
        rw [hrest] at h
        cases h
        obtain ⟨hlen, hbytes, hcommands⟩ := ih _ _ hrest
        have hlarge : 8 ≤ cmdsize m cmd := by
          unfold checkCommand at hcheck
          split at hcheck
          · cases hcheck
          · omega
        have hat := bytesAt_bytesFrom m cmd (cmdsize m cmd)
        have hlength := length_bytesFrom m cmd (cmdsize m cmd)
        refine ⟨by rw [List.length_cons, hlen], ?_, ?_⟩
        · rw [List.map_cons, List.flatten_cons, bytesAt_append, hlength]
          exact ⟨hat, hbytes⟩
        · intro c hc
          rw [List.map_cons, List.mem_cons] at hc
          rcases hc with rfl | hc
          · constructor
            · rw [← loadNat_of_bytesAt hat (by omega), hlength]
              rfl
            · omega
          · exact hcommands c hc

lemma Accepted.layout {f : MachOFile} (h : Accepted f) :
    (commands f).length = f.ncmds.toNat ∧ BytesAt f.cmds 0 (commands f).flatten ∧
      ∀ c ∈ commands f, IsCommand c := by
  obtain ⟨l, hl⟩ := h.noError
  have hvisit : visitCommands f.cmds f.sizeofcmds.toNat f.ncmds.toNat 0 0 = .ok l := by
    rw [forEachLoadCommand, if_pos h.magic] at hl
    exact hl
  unfold commands
  rw [hl]
  dsimp only
  obtain ⟨hlen, hbytes, hcommands⟩ := visitCommands_layout _ _ _ hvisit
  exact ⟨by rw [List.length_map, hlen], hbytes, hcommands⟩

end Layout

/-! ### Compaction -/

section Compaction

variable {f : MachOFile} {kept cs : List (List UInt8)} {c : List UInt8} {s : Removal}

/-- The kept commands stand at the start, those to come at the current one, and nothing behind the
old end has changed. -/
structure Compacted (f : MachOFile) (kept cs : List (List UInt8)) (s : Removal) : Prop where
  kept_at : BytesAt s.file.cmds 0 kept.flatten
  cmd_eq : s.cmd = kept.flatten.length
  rest_at : BytesAt s.file.cmds s.cmd cs.flatten
  end_eq : s.cmd + s.bytesRemaining.toNat = f.sizeofcmds.toNat
  fits : cs.flatten.length ≤ s.bytesRemaining.toNat
  above : ∀ a, f.sizeofcmds.toNat ≤ a → s.file.cmds a = f.cmds a
  magic : s.file.magic = f.magic

lemma memmove_inside {m : Mem} {dst src n x : Nat} (h1 : dst ≤ x) (h2 : x < dst + n) :
    memmove m dst src n x = m (src + (x - dst)) := by
  rw [memmove, if_pos ⟨h1, h2⟩]

lemma memmove_outside {m : Mem} {dst src n x : Nat} (h : x < dst ∨ dst + n ≤ x) :
    memmove m dst src n x = m x := by
  rw [memmove, if_neg (by omega)]

lemma bytesAt_congr {m m' : Mem} {a : Nat} {bs : List UInt8}
    (h : ∀ x, a ≤ x → x < a + bs.length → m' x = m x) (hb : BytesAt m a bs) : BytesAt m' a bs := by
  rw [bytesAt_iff] at hb ⊢
  intro i hi
  rw [h _ (by omega) (by omega), hb i hi]

lemma Compacted.rest_cons (h : Compacted f kept (c :: cs) s) :
    BytesAt s.file.cmds s.cmd c ∧ BytesAt s.file.cmds (s.cmd + c.length) cs.flatten := by
  have hrest := h.rest_at
  rw [List.flatten_cons, bytesAt_append] at hrest
  exact hrest

lemma Compacted.length_le (h : Compacted f kept (c :: cs) s) :
    c.length + cs.flatten.length ≤ s.bytesRemaining.toNat := by
  have hfits := h.fits
  rw [List.flatten_cons, List.length_append] at hfits
  exact hfits

lemma Compacted.moveDown (h : Compacted f kept (c :: cs) s) (hc : IsCommand c) :
    Compacted f kept cs s.moveDown := by
  obtain ⟨hat, hrest⟩ := h.rest_cons
  have hsize := hc.cmdsize_eq hat
  have hle := h.length_le
  have hcmd := h.cmd_eq
  constructor
  · apply bytesAt_congr _ h.kept_at
    intro x _ hx
    exact memmove_outside (Or.inl (by omega))
  · exact hcmd
  · rw [bytesAt_iff] at hrest ⊢
    intro i hi
    unfold Removal.moveDown
    dsimp only
    rw [hsize, memmove_inside (by omega) (by omega), Nat.add_sub_cancel_left]
    exact hrest i hi
  · exact h.end_eq
  · have := h.fits
    unfold Removal.moveDown
    dsimp only
    omega
  · intro a ha
    have hend := h.end_eq
    rw [← h.above a ha]
    exact memmove_outside (Or.inr (by omega))
  · exact h.magic

lemma Compacted.skip (h : Compacted f kept (c :: cs) s) (hc : IsCommand c) :
    Compacted f (kept ++ [c]) cs s.skip := by
  obtain ⟨hat, hrest⟩ := h.rest_cons
  have hsize := hc.cmdsize_eq hat
  have hle := h.length_le
  have hcmd := h.cmd_eq
  have hlt : c.length < 2 ^ 32 := by
    have := s.bytesRemaining.toNat_lt
    omega
  have hremaining : s.skip.bytesRemaining.toNat = s.bytesRemaining.toNat - c.length := by
    unfold Removal.skip
    dsimp only
    rw [hsize, UInt32.toNat_sub_of_le]
    · rw [UInt32.toNat_ofNat_of_lt' hlt]
    · rw [UInt32.le_iff_toNat_le, UInt32.toNat_ofNat_of_lt' hlt]
      omega
  have hskip : s.skip.cmd = s.cmd + c.length := by
    unfold Removal.skip
    dsimp only
    rw [hsize]
  have hflat : (kept ++ [c]).flatten = kept.flatten ++ c := by simp
  constructor
  · rw [hflat, bytesAt_append, Nat.zero_add, ← hcmd]
    exact ⟨h.kept_at, hat⟩
  · rw [hskip, hcmd, hflat, List.length_append]
  · rw [hskip]
    exact hrest
  · have := h.end_eq
    rw [hskip, hremaining]
    omega
  · rw [hremaining]
    omega
  · exact h.above
  · exact h.magic

lemma Compacted.clear (h : Compacted f kept cs s) :
    BytesAt s.clear.cmds 0 kept.flatten ∧
      (∀ a, kept.flatten.length ≤ a → a < f.sizeofcmds.toNat → s.clear.cmds a = 0) ∧
      ∀ a, f.sizeofcmds.toNat ≤ a → s.clear.cmds a = f.cmds a := by
  have hcmd := h.cmd_eq
  have hend := h.end_eq
  unfold Removal.clear bzero
  dsimp only
  refine ⟨?_, ?_, ?_⟩
  · apply bytesAt_congr _ h.kept_at
    intro x _ hx
    rw [if_neg (by omega)]
  · intro a ha1 ha2
    rw [if_pos (by omega)]
  · intro a ha
    rw [if_neg (by omega)]
    exact h.above a ha

lemma Accepted.compacted (h : Accepted f) : Compacted f [] (commands f) ⟨f, 0, f.sizeofcmds⟩ := by
  obtain ⟨-, hbytes, -⟩ := h.layout
  constructor
  · trivial
  · rfl
  · exact hbytes
  · exact Nat.zero_add _
  · exact h.size.le
  · intro a _
    rfl
  · rfl

end Compaction

/-! ### The loop of `removeLoadCommand` -/

section Remove

variable {f : MachOFile} {kept cs : List (List UInt8)} {s : Removal} {choice : Nat → Bool × Bool}

/-- Of the commands from `i` on, those that are kept, and those that the callback does not see. -/
def survivors (choice : Nat → Bool × Bool) :
    Nat → List (List UInt8) → List (List UInt8) × List (List UInt8)
  | _, [] => ([], [])
  | i, c :: cs =>
    let kept := if (choice i).1 then [] else [c]
    if (choice i).2 then (kept, cs)
    else (kept ++ (survivors choice (i + 1) cs).1, (survivors choice (i + 1) cs).2)

/-- The header counts the commands that are left. -/
structure Counted (f : MachOFile) (kept cs : List (List UInt8)) (s : Removal) : Prop where
  compacted : Compacted f kept cs s
  ncmds : s.file.ncmds.toNat = kept.length + cs.length
  sizeofcmds : s.file.sizeofcmds.toNat = kept.flatten.length + cs.flatten.length

lemma checkCommand_eq_none {c : List UInt8} (h : Compacted f kept (c :: cs) s) (hc : IsCommand c)
    (i : Nat) : checkCommand s.file.cmds f.sizeofcmds.toNat i s.cmd = none := by
  have hsize := hc.cmdsize_eq h.rest_cons.1
  have hlarge := hc.large
  have hle := h.length_le
  have hend := h.end_eq
  unfold checkCommand
  rw [hsize, if_neg (by omega), if_neg (by omega)]

lemma Counted.removeOrSkip {c : List UInt8} (h : Counted f kept (c :: cs) s) (hc : IsCommand c)
    (remove : Bool) :
    Counted f (kept ++ if remove then [] else [c]) cs (removeOrSkip s remove) := by
  have hcount := h.ncmds
  have hbytes := h.sizeofcmds
  rw [List.flatten_cons, List.length_append] at hbytes
  rw [List.length_cons] at hcount
  unfold MachO.removeOrSkip
  cases remove with
  | false =>
    refine ⟨h.compacted.skip hc, ?_, ?_⟩
    · have : s.skip.file = s.file := rfl
      simp only [if_false, Bool.false_eq_true]
      rw [this, hcount, List.length_append, List.length_singleton]
      omega
    · have : s.skip.file = s.file := rfl
      simp only [if_false, Bool.false_eq_true]
      rw [this, hbytes, List.flatten_append, List.length_append, List.flatten_singleton]
      omega
  | true =>
    have hmoved := h.compacted.moveDown hc
    have hsize := hc.cmdsize_eq h.compacted.rest_cons.1
    have hlt : c.length < 2 ^ 32 := by
      have := s.file.sizeofcmds.toNat_lt
      omega
    simp only [if_true, List.append_nil]
    refine ⟨⟨hmoved.kept_at, hmoved.cmd_eq, hmoved.rest_at, hmoved.end_eq, hmoved.fits,
      hmoved.above, hmoved.magic⟩, ?_, ?_⟩
    · have hone : (1 : UInt32) ≤ s.file.ncmds := by
        rw [UInt32.le_iff_toNat_le, hcount]
        simp only [UInt32.toNat_one]
        omega
      have hfile : s.moveDown.file.ncmds = s.file.ncmds := rfl
      dsimp only
      rw [hfile, UInt32.toNat_sub_of_le _ _ hone, hcount, UInt32.toNat_one]
      omega
    · have hle : UInt32.ofNat c.length ≤ s.file.sizeofcmds := by
        rw [UInt32.le_iff_toNat_le, UInt32.toNat_ofNat_of_lt' hlt, hbytes]
        omega
      have hfile : s.moveDown.file.sizeofcmds = s.file.sizeofcmds := rfl
      dsimp only
      rw [hsize, hfile, UInt32.toNat_sub_of_le _ _ hle, hbytes, UInt32.toNat_ofNat_of_lt' hlt]
      omega

lemma removeLoop_spec (choice : Nat → Bool × Bool) (cs : List (List UInt8)) (hcs : ∀ c ∈ cs, IsCommand c) (i : Nat)
    {kept : List (List UInt8)} {s : Removal} (h : Counted f kept cs s) :
    ∃ s', removeLoop choice f.sizeofcmds.toNat cs.length i s = (none, s') ∧
      Counted f (kept ++ (survivors choice i cs).1) (survivors choice i cs).2 s' := by
  induction cs generalizing i kept s with
  | nil =>
    refine ⟨s, rfl, ?_⟩
    rw [survivors, List.append_nil]
    exact h
  | cons c cs ih =>
    have hc := hcs c List.mem_cons_self
    have hstep := h.removeOrSkip hc (choice i).1
    rw [List.length_cons, removeLoop, checkCommand_eq_none h.compacted hc]
    dsimp only
    rw [survivors]
    by_cases hstop : (choice i).2 = true
    · rw [if_pos hstop, if_pos hstop]
      exact ⟨_, rfl, hstep⟩
    · rw [if_neg hstop, if_neg hstop]
      obtain ⟨s', hloop, hend⟩ := ih (fun c hc => hcs c (List.mem_cons_of_mem _ hc)) (i + 1) hstep
      refine ⟨s', hloop, ?_⟩
      rw [List.append_assoc] at hend
      exact hend

/-- The callback sees all commands unless it stops before the last. -/
lemma survivors_snd_eq_nil (choice : Nat → Bool × Bool) (cs : List (List UInt8)) (i : Nat) :
    (survivors choice i cs).2 = [] ↔ ∀ k, k + 1 < cs.length → (choice (i + k)).2 = false := by
  induction cs generalizing i with
  | nil => simp [survivors]
  | cons c cs ih =>
    rw [survivors]
    by_cases hstop : (choice i).2 = true
    · rw [if_pos hstop]
      constructor
      · intro hnil k hk
        have hcs : cs = [] := hnil
        rw [hcs] at hk
        simp at hk
      · intro hall
        dsimp only
        cases cs with
        | nil => rfl
        | cons c' cs' =>
          have := hall 0 (by simp)
          rw [Nat.add_zero, hstop] at this
          cases this
    · rw [if_neg hstop]
      dsimp only
      rw [ih (i + 1)]
      constructor
      · intro hall k hk
        cases k with
        | zero => simpa using hstop
        | succ k =>
          have := hall k (by simpa using hk)
          rwa [Nat.add_assoc, Nat.add_comm 1 k] at this
      · intro hall k hk
        have := hall (k + 1) (by simpa using hk)
        rwa [Nat.add_comm k 1, ← Nat.add_assoc] at this

/-- The commands that are not chosen are those kept and those not seen. -/
lemma filter_chosenBy (cs : List (List UInt8)) (i : Nat)
    (hseen : ∀ j < i, (choice j).2 = false) :
    ((cs.zipIdx i).filter (fun c => !chosenBy choice c.2)).map Prod.fst =
      (survivors choice i cs).1 ++ (survivors choice i cs).2 := by
  have hvisited : (List.range i).all (fun j => !(choice j).2) = true := by
    rw [List.all_eq_true]
    intro j hj
    simp [hseen j (List.mem_range.mp hj)]
  induction cs generalizing i with
  | nil => rfl
  | cons c cs ih =>
    have hchosen : chosenBy choice i = (choice i).1 := by
      rw [chosenBy, hvisited, Bool.true_and]
    rw [List.zipIdx_cons, List.filter_cons, survivors]
    dsimp only
    rw [hchosen]
    by_cases hstop : (choice i).2 = true
    · rw [if_pos hstop]
      -- none of the commands after a stop is chosen
      have hrest : (cs.zipIdx (i + 1)).filter (fun c => !chosenBy choice c.2) =
          cs.zipIdx (i + 1) := by
        rw [List.filter_eq_self]
        intro x hx
        have hx1 := List.le_snd_of_mem_zipIdx hx
        have hnot : (List.range x.2).all (fun j => !(choice j).2) = false := by
          rw [List.all_eq_false]
          exact ⟨i, List.mem_range.mpr hx1, by simp [hstop]⟩
        rw [chosenBy, hnot]
        rfl
      rw [hrest]
      cases (choice i).1 <;> simp [List.zipIdx_map_fst]
    · rw [if_neg hstop]
      have hseen' : ∀ j < i + 1, (choice j).2 = false := by
        intro j hj
        rcases Nat.lt_succ_iff_lt_or_eq.mp hj with hj | rfl
        · exact hseen j hj
        · simpa using hstop
      have hvisited' : (List.range (i + 1)).all (fun j => !(choice j).2) = true := by
        rw [List.all_eq_true]
        intro j hj
        simp [hseen' j (List.mem_range.mp hj)]
      have hrest := ih (i + 1) hseen' hvisited'
      cases (choice i).1 <;> simp [hrest]

/-- The commands that `removeLoadCommand` has kept, and what is left of those it has not seen. -/
lemma removeLoadCommand_spec (h : Accepted f) (choice : Nat → Bool × Bool) :
    ∃ s, removeLoadCommand f choice = (none, s.clear) ∧
      Counted f (survivors choice 0 (commands f)).1 (survivors choice 0 (commands f)).2 s := by
  obtain ⟨hlen, -, hcommands⟩ := h.layout
  have hstart : Counted f [] (commands f) ⟨f, 0, f.sizeofcmds⟩ := by
    refine ⟨h.compacted, ?_, ?_⟩
    · rw [hlen, List.length_nil, Nat.zero_add]
    · rw [h.size, List.flatten_nil, List.length_nil, Nat.zero_add]
  obtain ⟨s, hloop, hend⟩ := removeLoop_spec choice (commands f) hcommands 0 hstart
  rw [List.nil_append] at hend
  refine ⟨s, ?_, hend⟩
  rw [removeLoadCommand, if_pos h.magic, ← hlen, hloop]

lemma keptCommands_chosenBy (f : MachOFile) (choice : Nat → Bool × Bool) :
    keptCommands f (chosenBy choice) =
      (survivors choice 0 (commands f)).1 ++ (survivors choice 0 (commands f)).2 :=
  filter_chosenBy (commands f) 0 (fun j hj => absurd hj (Nat.not_lt_zero j))

/-- With commands that the callback has not seen, their place is cleared. -/
lemma not_filters_of_unseen (h : Accepted f) {c : List UInt8} {unseen : List (List UInt8)}
    (hsnd : (survivors choice 0 (commands f)).2 = c :: unseen) :
    ¬ Filters f (removeLoadCommand f choice).2 (chosenBy choice) := by
  intro hfilters
  obtain ⟨s, hremove, hend⟩ := removeLoadCommand_spec h choice
  obtain ⟨-, -, hcommands⟩ := h.layout
  have hkept := keptCommands_chosenBy f choice
  rw [hsnd] at hkept hend
  have hc : IsCommand c := by
    have hmem : c ∈ keptCommands f (chosenBy choice) := by simp [hkept]
    obtain ⟨x, hx, rfl⟩ := List.mem_map.mp hmem
    exact hcommands _ (List.fst_mem_of_mem_zipIdx (List.mem_of_mem_filter hx))
  -- the size field of the first unseen command is zero
  have hat := hfilters.commands
  rw [hkept, List.flatten_append, List.flatten_cons, bytesAt_append, bytesAt_append] at hat
  have hsize := hc.cmdsize_eq hat.2.1
  obtain ⟨-, hzeros, -⟩ := hend.compacted.clear
  have hlarge := hc.large
  have hfits := hend.compacted.length_le
  have hcmd := hend.compacted.cmd_eq
  have hendeq := hend.compacted.end_eq
  have hzero : cmdsize (removeLoadCommand f choice).2.cmds
      (0 + (survivors choice 0 (commands f)).1.flatten.length) = 0 := by
    rw [hremove]
    unfold cmdsize
    have hload : loadNat s.clear.cmds
        (0 + (survivors choice 0 (commands f)).1.flatten.length + 4) 4 =
        loadNat (fun _ => 0) (0 + (survivors choice 0 (commands f)).1.flatten.length + 4) 4 := by
      apply loadNat_congr
      intro x hx
      unfold InWord at hx
      exact hzeros x (by omega) (by omega)
    rw [hload]
    rfl
  omega

lemma filters_of_seen (h : Accepted f) (hsnd : (survivors choice 0 (commands f)).2 = []) :
    Filters f (removeLoadCommand f choice).2 (chosenBy choice) := by
  obtain ⟨s, hremove, hend⟩ := removeLoadCommand_spec h choice
  have hkept := keptCommands_chosenBy f choice
  rw [hsnd, List.append_nil] at hkept
  rw [hsnd] at hend
  obtain ⟨hat, hzeros, habove⟩ := hend.compacted.clear
  have hncmds := hend.ncmds
  have hsize := hend.sizeofcmds
  rw [List.length_nil, Nat.add_zero] at hncmds
  rw [List.flatten_nil, List.length_nil, Nat.add_zero] at hsize
  rw [hremove]
  constructor
  · exact hend.compacted.magic
  · rw [hkept]
    exact hncmds
  · rw [hkept]
    exact hsize
  · rw [hkept]
    exact hat
  · rw [hkept]
    exact hzeros
  · exact habove

end Remove

/-! ### The loop of `LinkeditOptimizer` -/

section Optimizer

variable {f : MachOFile}

def hasRemovedType (c : List UInt8) : Bool := isRemovedType (loadNat (fun x => c.getD x 0) 0 4)

lemma commandType_eq {m : Mem} {a : Nat} {c : List UInt8} (hc : IsCommand c) (h : BytesAt m a c) :
    isRemovedType (commandType m a) = hasRemovedType c := by
  have hlarge := hc.large
  have hload := loadNat_of_bytesAt (k := 0) (n := 4) h (by omega)
  rw [Nat.add_zero] at hload
  rw [commandType, hload]
  rfl

lemma optimizerLoop_spec (cs : List (List UInt8)) (hcs : ∀ c ∈ cs, IsCommand c)
    {kept : List (List UInt8)} {s : Removal} (removedCount : UInt32) (h : Compacted f kept cs s) :
    ∃ s', optimizerLoop cs.length (s, removedCount) =
        (s', removedCount + UInt32.ofNat (cs.countP hasRemovedType)) ∧
      Compacted f (kept ++ cs.filter (fun c => !hasRemovedType c)) [] s' := by
  induction cs generalizing kept s removedCount with
  | nil =>
    refine ⟨s, ?_, ?_⟩
    · simp [optimizerLoop]
    · rw [List.filter_nil, List.append_nil]
      exact h
  | cons c cs ih =>
    have hc := hcs c List.mem_cons_self
    have hcs' : ∀ c ∈ cs, IsCommand c := fun c hc => hcs c (List.mem_cons_of_mem _ hc)
    rw [List.length_cons, optimizerLoop, commandType_eq hc h.rest_cons.1]
    cases hremove : hasRemovedType c with
    | true =>
      obtain ⟨s', hloop, hend⟩ := ih hcs' (removedCount + 1) (h.moveDown hc)
      refine ⟨s', ?_, ?_⟩
      · rw [if_pos rfl, hloop, List.countP_cons_of_pos hremove, UInt32.ofNat_add, UInt32.add_assoc]
        congr 2
        exact UInt32.add_comm _ _
      · rw [List.filter_cons_of_neg (by simp [hremove])]
        exact hend
    | false =>
      obtain ⟨s', hloop, hend⟩ := ih hcs' removedCount (h.skip hc)
      refine ⟨s', ?_, ?_⟩
      · rw [if_neg (by simp), hloop, List.countP_cons_of_neg (by simp [hremove])]
      · rw [List.filter_cons_of_pos (by simp [hremove])]
        rw [List.append_assoc] at hend
        exact hend

lemma keptCommands_chosenByType (f : MachOFile) :
    keptCommands f (chosenByType f) = (commands f).filter (fun c => !hasRemovedType c) := by
  have hcongr : (commands f).zipIdx.filter (fun c => !chosenByType f c.2) =
      (commands f).zipIdx.filter (fun c => !hasRemovedType c.1) := by
    apply List.filter_congr
    intro x hx
    rw [chosenByType, List.mem_zipIdx_iff_getElem?.mp hx]
    rfl
  unfold keptCommands
  rw [hcongr]
  have hmap := List.filter_map (f := Prod.fst) (p := fun c => !hasRemovedType c)
    (l := (commands f).zipIdx)
  rw [List.zipIdx_map_fst] at hmap
  exact hmap.symm

lemma filters_linkeditOptimizer (h : Accepted f) :
    Filters f (linkeditOptimizer f) (chosenByType f) := by
  obtain ⟨hlen, -, hcommands⟩ := h.layout
  obtain ⟨s, hloop, hend⟩ := optimizerLoop_spec (commands f) hcommands 0 h.compacted
  rw [List.nil_append] at hend
  rw [hlen] at hloop
  have hkept := keptCommands_chosenByType f
  obtain ⟨hat, hzeros, habove⟩ := hend.clear
  have hcount : (commands f).countP hasRemovedType +
      ((commands f).filter (fun c => !hasRemovedType c)).length = f.ncmds.toNat := by
    have hall := List.length_eq_countP_add_countP hasRemovedType (l := commands f)
    rw [← List.countP_eq_length_filter, ← hlen, hall]
    simp
  have hlt : (commands f).countP hasRemovedType < 2 ^ 32 := by
    have := f.ncmds.toNat_lt
    omega
  have hcmd := hend.cmd_eq
  have hendeq := hend.end_eq
  unfold linkeditOptimizer
  rw [hloop]
  dsimp only
  constructor
  · exact hend.magic
  · dsimp only
    rw [hkept, UInt32.zero_add, UInt32.toNat_sub_of_le, UInt32.toNat_ofNat_of_lt' hlt]
    · omega
    · rw [UInt32.le_iff_toNat_le, UInt32.toNat_ofNat_of_lt' hlt]
      omega
  · dsimp only
    rw [hkept, UInt32.toNat_sub_of_le]
    · omega
    · rw [UInt32.le_iff_toNat_le]
      omega
  · rw [hkept]
    exact hat
  · rw [hkept]
    exact hzeros
  · exact habove

end Optimizer

/-- Both loops are filters of the load commands of an accepted file exactly when the callback of
`removeLoadCommand` does not stop before the last command. -/
theorem removal_filters_iff (f : MachOFile) (h : Accepted f) (choice : Nat → Bool × Bool) :
    ((removeLoadCommand f choice).1 = none ∧
      Filters f (removeLoadCommand f choice).2 (chosenBy choice) ∧
      Filters f (linkeditOptimizer f) (chosenByType f)) ↔
    ∀ i, i + 1 < f.ncmds.toNat → (choice i).2 = false := by
  obtain ⟨hlen, -, -⟩ := h.layout
  have hseen := survivors_snd_eq_nil choice (commands f) 0
  simp only [Nat.zero_add, hlen] at hseen
  rw [← hseen]
  constructor
  · rintro ⟨-, hfilters, -⟩
    cases hsnd : (survivors choice 0 (commands f)).2 with
    | nil => rfl
    | cons c unseen => exact absurd hfilters (not_filters_of_unseen h hsnd)
  · intro hsnd
    obtain ⟨s, hremove, -⟩ := removeLoadCommand_spec h choice
    exact ⟨by rw [hremove], filters_of_seen h hsnd, filters_linkeditOptimizer h⟩

/-- A file with load commands of eight bytes and the given types. -/
def plainFile (types : List UInt8) : MachOFile where
  magic := 0xfeedfacf
  ncmds := UInt32.ofNat types.length
  sizeofcmds := UInt32.ofNat (8 * types.length)
  cmds := fun a => (types.flatMap (fun t => [t, 0, 0, 0, 8, 0, 0, 0])).getD a 0

lemma plainFile_accepted : Accepted (plainFile [0x1E, 0x1B]) := by
  have hl : forEachLoadCommand (plainFile [0x1E, 0x1B]) = .ok [0, 8] := by decide +kernel
  refine ⟨by decide, ⟨_, hl⟩, ?_⟩
  unfold commands
  rw [hl]
  decide +kernel

theorem removal_filters_iff_two :
    Accepted (plainFile [0x1E, 0x1B]) ∧
      Filters (plainFile [0x1E, 0x1B])
        (removeLoadCommand (plainFile [0x1E, 0x1B]) (fun i => (i == 0, false))).2
        (chosenBy (fun i => (i == 0, false))) := by
  refine ⟨plainFile_accepted, ?_⟩
  exact ((removal_filters_iff _ plainFile_accepted _).mpr (fun i _ => rfl)).2.1

/-- The callback takes out `LC_SEGMENT_SPLIT_INFO`, the first of two commands, and stops. -/
theorem removal_with_stop_clears_rest :
    Accepted (plainFile [0x1E, 0x1B]) ∧
      ¬ Filters (plainFile [0x1E, 0x1B])
        (removeLoadCommand (plainFile [0x1E, 0x1B]) (fun i => (i == 0, i == 0))).2
        (chosenBy (fun i => (i == 0, i == 0))) := by
  refine ⟨plainFile_accepted, ?_⟩
  intro hfilters
  have hl : forEachLoadCommand (plainFile [0x1E, 0x1B]) = .ok [0, 8] := by decide +kernel
  have hkept : (keptCommands (plainFile [0x1E, 0x1B]) (chosenBy (fun i => (i == 0, i == 0)))) =
      [[0x1B, 0, 0, 0, 8, 0, 0, 0]] := by
    unfold keptCommands commands
    rw [hl]
    decide +kernel
  have hat := hfilters.commands
  rw [hkept] at hat
  have hzero : (removeLoadCommand (plainFile [0x1E, 0x1B])
      (fun i => (i == 0, i == 0))).2.cmds 0 = 0 := by decide +kernel
  exact absurd (hzero.symm.trans hat.1) (by decide)

end Dyld.MachO
