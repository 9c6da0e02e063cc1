import Dyld.MachO.LoadCommands

/-!
# Load commands and segments of a file in memory

`MachOFile` is a view of the bytes of a file from its header on. `forEachLoadCommand` walks the
load commands behind the header, `forEachSegment` hands out the segments among them. The host is
LP64: `size_t` and pointers have 64 bits, and a pointer is taken as the distance from the header.
-/

namespace Dyld.MachO

open Dyld.Lib

/-- The bytes of a file, from its `mach_header` on. -/
structure MachOBuffer where
  bytes : Mem

namespace MachOBuffer

variable (b : MachOBuffer)

def magic : Nat := loadNat b.bytes 0 4
def filetype : Nat := loadNat b.bytes 12 4
def ncmds : Nat := loadNat b.bytes 16 4
def sizeofcmds : Nat := loadNat b.bytes 20 4
def flags : Nat := loadNat b.bytes 24 4

def is64 : Bool := b.magic == 0xfeedfacf

def machHeaderSize : Nat := if b.is64 then 32 else 28

def hasMachOMagic : Bool := b.magic == 0xfeedface || b.magic == 0xfeedfacf

def hasMachOBigEndianMagic : Bool := b.magic == 0xcefaedfe || b.magic == 0xcffaedfe

def inDyldCache : Bool := b.flags &&& 0x80000000 != 0

def cmdsEnd : Nat := b.machHeaderSize + b.sizeofcmds

/-- `MachOFile::forEachLoadCommand` with a callback that does not stop: the places of the
commands. -/
def forEachLoadCommand : Except LoadCommandError (List Nat) :=
  if b.hasMachOMagic then visitCommands b.bytes b.cmdsEnd b.ncmds 0 b.machHeaderSize
  else if b.hasMachOBigEndianMagic then .ok []
  else .error .notMachO

/-- The loop of `forEachLoadCommand`, where the sizes are read in a window of memory. -/
def visitCommandsIn (m : Mem) (W : Window) (cmdsEnd : Nat) :
    Nat → Nat → Nat → Option (Except LoadCommandError (List Nat))
  | 0, _, _ => some (.ok [])
  | remaining + 1, i, cmd =>
    (readWord 4 m W (cmd + 4)).bind fun size =>
      if size.toNat < 8 then some (.error (.tooSmall i))
      else if cmd + size.toNat > cmdsEnd then some (.error (.tooLarge i))
      else (visitCommandsIn m W cmdsEnd remaining (i + 1) (cmd + size.toNat)).map
        (Except.map (cmd :: ·))

/-- `forEachLoadCommand` when only the bytes of the window can be read. -/
def forEachLoadCommandIn (W : Window) : Option (Except LoadCommandError (List Nat)) :=
  (readWord 4 b.bytes W 0).bind fun _ =>
    if b.hasMachOMagic then
      (readWord 4 b.bytes W 16).bind fun ncmds => (readWord 4 b.bytes W 20).bind fun sizeofcmds =>
        visitCommandsIn b.bytes W (b.machHeaderSize + sizeofcmds.toNat) ncmds.toNat 0
          b.machHeaderSize
    else if b.hasMachOBigEndianMagic then some (.ok [])
    else (readWord 4 b.bytes W 4).map fun _ => .error .notMachO

end MachOBuffer

/-! ### Segment commands -/

/-- `LC_SEGMENT` or `LC_SEGMENT_64`. -/
inductive SegmentKind
  | segment
  | segment64
  deriving DecidableEq, Repr

namespace SegmentKind

/-- The bytes of an address in the command. -/
def width : SegmentKind → Nat
  | segment => 4
  | segment64 => 8

def sizeofCommand : SegmentKind → Nat
  | segment => 56
  | segment64 => 72

def sizeofSection : SegmentKind → Nat
  | segment => 68
  | segment64 => 80

def ofCommand (m : Mem) (cmd : Nat) : Option SegmentKind :=
  if commandType m cmd = 0x19 then some segment64
  else if commandType m cmd = 0x1 then some segment
  else none

end SegmentKind

/-- The fields of a segment command that are used, and its place. -/
structure SegmentCommand where
  kind : SegmentKind
  cmd : Nat
  cmdsize : Nat
  vmaddr : Nat
  vmsize : Nat
  fileoff : Nat
  filesize : Nat
  initprot : Nat
  nsects : Nat
  flags : Nat

def segmentCommand (m : Mem) (cmd : Nat) (kind : SegmentKind) : SegmentCommand where
  kind := kind
  cmd := cmd
  cmdsize := cmdsize m cmd
  vmaddr := loadNat m (cmd + 24) kind.width
  vmsize := loadNat m (cmd + 24 + kind.width) kind.width
  fileoff := loadNat m (cmd + 24 + 2 * kind.width) kind.width
  filesize := loadNat m (cmd + 24 + 3 * kind.width) kind.width
  initprot := loadNat m (cmd + 28 + 4 * kind.width) 4
  nsects := loadNat m (cmd + 32 + 4 * kind.width) 4
  flags := loadNat m (cmd + 36 + 4 * kind.width) 4

structure SegmentInfo where
  segName : Nat
  fileOffset : Nat
  fileSize : Nat
  vmAddr : Nat
  vmSize : Nat
  protections : Nat
  segIndex : Nat
  deriving DecidableEq

def SegmentCommand.info (seg : SegmentCommand) (segIndex : Nat) : SegmentInfo where
  segName := seg.cmd + 8
  fileOffset := seg.fileoff
  fileSize := seg.filesize
  vmAddr := seg.vmaddr
  vmSize := seg.vmsize
  protections := seg.initprot
  segIndex := segIndex

def segmentCommands (m : Mem) (cmds : List Nat) : List SegmentCommand :=
  cmds.filterMap (fun cmd => (SegmentKind.ofCommand m cmd).map (segmentCommand m cmd))

def isName (m : Mem) (s : Nat) (name : List UInt8) : Bool :=
  bytesFrom m s (name.length + 1) == name ++ [0]

def textName : List UInt8 := [0x5F, 0x5F, 0x54, 0x45, 0x58, 0x54]

def linkeditName : List UInt8 := [0x5F, 0x5F, 0x4C, 0x49, 0x4E, 0x4B, 0x45, 0x44, 0x49, 0x54]

/-- `MachOFile::forEachSegment` with a callback that does not stop. It aborts when the load
commands cannot be walked. -/
def MachOBuffer.forEachSegment (b : MachOBuffer) : Option (List SegmentInfo) :=
  match b.forEachLoadCommand with
  | .ok cmds => some ((segmentCommands b.bytes cmds).mapIdx (fun i seg => seg.info i))
  | .error _ => none

/-! ### What the walk visits -/

section Walk

variable {m : Mem} {cmdsEnd : Nat}

lemma checkCommand_accepts_iff {i cmd : Nat} :
    checkCommand m cmdsEnd i cmd = none ↔ 8 ≤ cmdsize m cmd ∧ cmd + cmdsize m cmd ≤ cmdsEnd := by
  unfold checkCommand
  split_ifs with h1 h2
  · simp only [false_iff]
    omega
  · simp only [false_iff]
    omega
  · simp only [true_iff]
    omega

lemma visitCommands_succ {remaining i cmd : Nat} {l : List Nat}
    (h : visitCommands m cmdsEnd (remaining + 1) i cmd = .ok l) :
    checkCommand m cmdsEnd i cmd = none ∧ ∃ l', l = cmd :: l' ∧
      visitCommands m cmdsEnd remaining (i + 1) (cmd + cmdsize m cmd) = .ok l' := by
  rw [visitCommands] at h
  cases hcheck : checkCommand m cmdsEnd i cmd with
  | some e =>
    rw [hcheck] at h
    cases h
  | none =>
    rw [hcheck] at h
    dsimp only at h
    cases hrest : visitCommands m cmdsEnd remaining (i + 1) (cmd + cmdsize m cmd) with
    | error e =>
      rw [hrest] at h
      cases h
    | ok l' =>
      rw [hrest] at h
      cases h
      exact ⟨rfl, l', rfl, rfl⟩

lemma visitCommands_inside {remaining i cmd : Nat} {l : List Nat}
    (h : visitCommands m cmdsEnd remaining i cmd = .ok l) :
    l.length = remaining ∧
      ∀ c ∈ l, cmd ≤ c ∧ 8 ≤ cmdsize m c ∧ c + cmdsize m c ≤ cmdsEnd := by
  induction remaining generalizing i cmd l with
  | zero =>
    cases h
    simp
  | succ remaining ih =>
    obtain ⟨hcheck, l', rfl, hrest⟩ := visitCommands_succ h
    have hsize := checkCommand_accepts_iff.mp hcheck
    obtain ⟨hlength, hinside⟩ := ih hrest
    constructor
    · rw [List.length_cons, hlength]
    · intro c hc
      rw [List.mem_cons] at hc
      rcases hc with rfl | hc
      · exact ⟨le_rfl, hsize⟩
      · have := hinside c hc
        omega

lemma readWord_eq {n : Nat} {W : Window} {a : Nat} (h : W.Covers a n) :
    readWord n m W a = some (load n m a) := if_pos h

/-- A walk that finds nothing wrong reads nothing behind the end of the commands. -/
lemma visitCommandsIn_eq {W : Window} {remaining i cmd : Nat} {l : List Nat}
    (h : visitCommands m cmdsEnd remaining i cmd = .ok l) (hlo : W.lo ≤ cmd) (hhi : cmdsEnd ≤ W.hi) :
    MachOBuffer.visitCommandsIn m W cmdsEnd remaining i cmd = some (.ok l) := by
  induction remaining generalizing i cmd l with
  | zero =>
    cases h
    rfl
  | succ remaining ih =>
    obtain ⟨hcheck, l', rfl, hrest⟩ := visitCommands_succ h
    have hsize := checkCommand_accepts_iff.mp hcheck
    have hcovers : W.Covers (cmd + 4) 4 := ⟨by omega, by omega⟩
    have hload : (load 4 m (cmd + 4)).toNat = cmdsize m cmd := toNat_load 4 m (cmd + 4)
    rw [MachOBuffer.visitCommandsIn, readWord_eq hcovers, Option.bind_some, hload,
      if_neg (by omega), if_neg (by omega), ih hrest (by omega)]
    rfl

end Walk

/-! ### Files as bytes -/

namespace MachOBuffer

/-- The bytes of a little-endian word. -/
def natBytes (n v : Nat) : List UInt8 := wordBytes n (BitVec.ofNat (8 * n) v)

def segment64Bytes (cmdsize : Nat) (name : List UInt8) (vmaddr vmsize fileoff filesize prot nsects : Nat) :
    List UInt8 :=
  natBytes 4 0x19 ++ natBytes 4 cmdsize ++ name ++ List.replicate (16 - name.length) 0 ++
    natBytes 8 vmaddr ++ natBytes 8 vmsize ++ natBytes 8 fileoff ++ natBytes 8 filesize ++
    natBytes 4 prot ++ natBytes 4 prot ++ natBytes 4 nsects ++ natBytes 4 0

end MachOBuffer

end Dyld.MachO
