import Dyld.Closure.Filling

/-!
# The file lists of a launch closure

`LaunchClosureWriter::setMustBeMissingFiles` and `setMustExistFiles`, and the loops of
`LaunchClosure` that read the two attributes back. The loop over the files that must exist
takes its end from the size of the whole payload although it starts behind the array of
inodes and modification times.
-/

namespace Dyld.Closure
open Dyld.Lib

/-- A path as a C string holds it: no NUL inside, and at least one character. -/
structure CPath where
  bytes : List UInt8
  ne_nil : bytes ≠ []
  nul_free : ∀ b ∈ bytes, b ≠ 0

structure SkippedFile where
  path : CPath
  inode : BitVec 64
  mtime : BitVec 64

/-- What a handler sees of a `SkippedFile`. -/
structure SkippedFileReport where
  path : List UInt8
  inode : BitVec 64
  mtime : BitVec 64
  deriving DecidableEq

def SkippedFile.report (f : SkippedFile) : SkippedFileReport := ⟨f.path.bytes, f.inode, f.mtime⟩

/-! ### Writing -/

def alignedSize (totalSize : Nat) : Nat := (totalSize % 2 ^ 32 + 3) % 2 ^ 32 / 4 * 4

/-- The paths one after the other, each with its NUL. -/
def packedPaths (paths : List CPath) : List UInt8 := paths.flatMap (fun p => p.bytes ++ [0])

def missingFilesSize (paths : List CPath) : Nat :=
  alignedSize ((paths.map (fun p => p.bytes.length + 1)).sum)

def setMustBeMissingFiles (w : ContainerTypedBytesWriter) (paths : List CPath) :
    Except WriteFault ContainerTypedBytesWriter :=
  appendAndFill w .missingFiles (missingFilesSize paths) (packedPaths paths)

def existingFilesSize (files : List SkippedFile) : Nat :=
  alignedSize (8 + files.length * 8 * 2 + (files.map (fun f => f.path.bytes.length + 1)).sum)

/-- The count, then inode and modification time of every file. -/
def fileRecords (files : List SkippedFile) : List UInt8 :=
  wordBytes 8 (BitVec.ofNat 64 files.length) ++
    files.flatMap (fun f => wordBytes 8 f.inode ++ wordBytes 8 f.mtime)

def setMustExistFiles (w : ContainerTypedBytesWriter) (files : List SkippedFile) :
    Except WriteFault ContainerTypedBytesWriter :=
  appendAndFill w .existingFiles (existingFilesSize files)
    (fileRecords files ++ packedPaths (files.map (·.path)))

/-- One call on the `LaunchClosureWriter`. Every other attribute is an `append` of its bytes. -/
inductive LaunchClosureStep
  | other (c : AppendCall)
  | mustBeMissing (paths : List CPath)
  | mustExist (files : List SkippedFile)

def LaunchClosureStep.run (w : ContainerTypedBytesWriter) :
    LaunchClosureStep → Except WriteFault ContainerTypedBytesWriter
  | .other c =>
    match appendCall w c with
    | .error a => .error (.assertion a)
    | .ok w' => .ok w'
  | .mustBeMissing paths => setMustBeMissingFiles w paths
  | .mustExist files => setMustExistFiles w files

def runSteps (w : ContainerTypedBytesWriter) : List LaunchClosureStep →
    Except WriteFault ContainerTypedBytesWriter
  | [] => .ok w
  | s :: steps =>
    match s.run w with
    | .error e => .error e
    | .ok w' => runSteps w' steps

/-! ### Reading -/

def cString (m : Mem) (W : Window) (s : Nat) : Option (List UInt8) :=
  (strlen m W s).map (readBytes m s)

/-- `LaunchClosure::forEachMustBeMissingFile` with a handler that records and never stops. A
null payload has size 0, so the loop does not run. -/
def forEachMustBeMissingFile (m : Mem) (W : Window) : Option (List (List UInt8)) :=
  (findAttributePayload m .missingFiles).bind fun
    | none => some []
    | some (paths, size) =>
      forEachString m W (paths + size)
        (fun seen s => (cString m W s).map (fun p => seen ++ [p])) [] paths

/-- The body of the loop of `forEachSkipIfExistsFile`: the state is `files` and what the
handler has seen. -/
def visitSkipIfExists (m : Mem) (W : Window) (st : Nat × List SkippedFileReport) (s : Nat) :
    Option (Nat × List SkippedFileReport) :=
  (readWord 8 m W st.1).bind fun inode =>
    (readWord 8 m W (st.1 + 8)).bind fun mtime =>
      (cString m W s).map (fun path => (st.1 + 16, st.2 ++ [⟨path, inode, mtime⟩]))

def forEachSkipIfExistsFile (m : Mem) (W : Window) : Option (List SkippedFileReport) :=
  (findAttributePayload m .existingFiles).bind fun
    | none => some []
    | some (payload, size) =>
      (readWord 8 m W payload).bind fun fileCount =>
        let files := payload + 8
        let paths := files + 8 * (2 * fileCount.toNat)
        (forEachString m W (paths + size) (visitSkipIfExists m W) (files, []) paths).map (·.2)

/-- What stays mapped of the closure. -/
def mappedWindow (w : ContainerTypedBytesWriter) (pageSize : Nat) : Window :=
  ⟨0, finalizedSize w pageSize⟩

def payloadWindow (m : Mem) (t : TypedBytesType) : Window :=
  match findAttributePayload m t with
  | some (some (payload, size)) => ⟨payload, payload + size⟩
  | _ => ⟨0, 0⟩

/-- The steps set each of the two lists once, and no other attribute has their type. -/
structure SetsFileLists (steps : List LaunchClosureStep) (files : List SkippedFile)
    (paths : List CPath) : Prop where
  missing : steps.filterMap (fun | .mustBeMissing ps => some ps | _ => none) = [paths]
  exist : steps.filterMap (fun | .mustExist fs => some fs | _ => none) = [files]
  others : ∀ c, .other c ∈ steps → c.type ≠ .missingFiles ∧ c.type ≠ .existingFiles

/-- Both lists are read back as they were set, and from their own payloads alone. -/
def FilesRoundTrip (pageSize : Nat) (steps : List LaunchClosureStep) (files : List SkippedFile)
    (paths : List CPath) : Prop :=
  ∃ w, runSteps (setContainerType .launchClosure) steps = .ok w ∧
    forEachSkipIfExistsFile w.content (mappedWindow w pageSize) = some (files.map (·.report)) ∧
    forEachMustBeMissingFile w.content (mappedWindow w pageSize) = some (paths.map (·.bytes)) ∧
    (forEachSkipIfExistsFile w.content (payloadWindow w.content .existingFiles)).isSome ∧
    (forEachMustBeMissingFile w.content (payloadWindow w.content .missingFiles)).isSome

/-! ### The calls of a run -/

def missingFilesPayload (paths : List CPath) : List UInt8 :=
  packedPaths paths ++ List.replicate (missingFilesSize paths - (packedPaths paths).length) 0

def existingFilesPayload (files : List SkippedFile) : List UInt8 :=
  let bytes := fileRecords files ++ packedPaths (files.map (·.path))
  bytes ++ List.replicate (existingFilesSize files - bytes.length) 0

def LaunchClosureStep.call : LaunchClosureStep → AppendCall
  | .other c => c
  | .mustBeMissing paths => ⟨.missingFiles, missingFilesPayload paths⟩
  | .mustExist files => ⟨.existingFiles, existingFilesPayload files⟩

@[simp] lemma length_packedPaths (paths : List CPath) :
    (packedPaths paths).length = (paths.map (fun p => p.bytes.length + 1)).sum := by
  simp [packedPaths, List.length_flatMap]

@[simp] lemma length_fileRecords (files : List SkippedFile) :
    (fileRecords files).length = 8 + files.length * 8 * 2 := by
  simp [fileRecords, List.length_flatMap]
  omega

lemma le_alignedSize {n : Nat} (h : n ≤ 2 ^ 26) : n ≤ alignedSize n := by
  unfold alignedSize
  omega

section Step

variable {w w' : ContainerTypedBytesWriter} {cs : List AppendCall}

lemma existingFilesSize_eq (files : List SkippedFile) : existingFilesSize files =
    alignedSize (fileRecords files ++ packedPaths (files.map (·.path))).length := by
  simp [existingFilesSize, Function.comp_def]

lemma missingFilesSize_eq (paths : List CPath) :
    missingFilesSize paths = alignedSize (packedPaths paths).length := by
  simp [missingFilesSize]

lemma ContainerInv.step {s : LaunchClosureStep} (h : ContainerInv .launchClosure w cs) (hok : s.run w = .ok w') :
    ContainerInv .launchClosure w' (cs ++ [s.call]) := by
  cases s with
  | other c =>
    simp only [LaunchClosureStep.run] at hok
    split at hok
    · exact absurd hok (by simp)
    · rename_i v hv
      rw [← Except.ok.inj hok]
      exact h.appendCall hv
  | mustBeMissing paths =>
    simp only [LaunchClosureStep.run, setMustBeMissingFiles, missingFilesSize_eq] at hok
    have := (h.appendAndFill le_alignedSize hok).1
    rw [← missingFilesSize_eq] at this
    exact this
  | mustExist files =>
    simp only [LaunchClosureStep.run, setMustExistFiles, existingFilesSize_eq] at hok
    have := (h.appendAndFill le_alignedSize hok).1
    rw [← existingFilesSize_eq] at this
    exact this

lemma ContainerInv.runSteps {steps : List LaunchClosureStep} (h : ContainerInv .launchClosure w cs)
    (hok : runSteps w steps = .ok w') : ContainerInv .launchClosure w' (cs ++ steps.map (·.call)) := by
  induction steps generalizing w cs with
  | nil =>
    rw [Closure.runSteps] at hok
    rw [← Except.ok.inj hok]
    simpa using h
  | cons s steps ih =>
    rw [Closure.runSteps] at hok
    split at hok
    · exact absurd hok (by simp)
    · rename_i v hv
      simpa using ih (h.step hv) hok

end Step

/-! ### The loops on their payloads -/

section Loops

variable {m : Mem} {W : Window} {s stop : Nat}

lemma cString_of_bytesAt (p : CPath) (h : BytesAt m s (p.bytes ++ [0]))
    (hW : W.Covers s (p.bytes.length + 1)) : cString m W s = some p.bytes := by
  rw [cString, strlen_of_bytesAt p.nul_free h hW, Option.map_some,
    readBytes_of_bytesAt (bytesAt_append.mp h).1]

lemma packedPaths_cons (p : CPath) (paths : List CPath) :
    packedPaths (p :: paths) = (p.bytes ++ [0]) ++ packedPaths paths := rfl

lemma packedPaths_map_cons (f : SkippedFile) (files : List SkippedFile) :
    packedPaths ((f :: files).map (·.path)) =
      (f.path.bytes ++ [0]) ++ packedPaths (files.map (·.path)) := rfl

/-- The missing files are visited in order. -/
lemma forEachString_missing {paths : List CPath} (h : BytesAt m s (packedPaths paths))
    (hW : W.Covers s (packedPaths paths).length) (hstop : s + (packedPaths paths).length ≤ stop)
    (seen : List (List UInt8)) :
    forEachString m W stop (fun seen s => (cString m W s).map (fun p => seen ++ [p])) seen s =
      forEachString m W stop (fun seen s => (cString m W s).map (fun p => seen ++ [p]))
        (seen ++ paths.map (·.bytes)) (s + (packedPaths paths).length) := by
  induction paths generalizing s seen with
  | nil => simp [packedPaths]
  | cons p paths ih =>
    rw [packedPaths_cons] at h hW hstop ⊢
    obtain ⟨hp, hrest⟩ := bytesAt_append.mp h
    rw [List.length_append] at hW hstop ⊢
    have hlen : (p.bytes ++ [0]).length = p.bytes.length + 1 := by simp
    rw [hlen] at hrest hW hstop ⊢
    simp only [Window.Covers] at hW
    have hWp : W.Covers s (p.bytes.length + 1) := by simp only [Window.Covers]; omega
    rw [forEachString_string p.ne_nil p.nul_free hp hWp (by omega), cString_of_bytesAt p hp hWp]
    simp only [Option.map_some, Option.bind_some]
    rw [ih hrest (by simp only [Window.Covers]; omega) (by omega)]
    simp [Nat.add_assoc]

lemma forEachString_exist {files : List SkippedFile} {r : Nat}
    (hr : BytesAt m r (files.flatMap (fun f => wordBytes 8 f.inode ++ wordBytes 8 f.mtime)))
    (hWr : W.Covers r (16 * files.length))
    (h : BytesAt m s (packedPaths (files.map (·.path))))
    (hW : W.Covers s (packedPaths (files.map (·.path))).length)
    (hstop : s + (packedPaths (files.map (·.path))).length ≤ stop) (seen : List SkippedFileReport) :
    forEachString m W stop (visitSkipIfExists m W) (r, seen) s =
      forEachString m W stop (visitSkipIfExists m W) (r + 16 * files.length, seen ++ files.map (·.report))
        (s + (packedPaths (files.map (·.path))).length) := by
  induction files generalizing s r seen with
  | nil => simp [packedPaths]
  | cons f files ih =>
    rw [packedPaths_map_cons] at h hW hstop ⊢
    rw [List.flatMap_cons] at hr
    obtain ⟨hp, hrest⟩ := bytesAt_append.mp h
    obtain ⟨hf, hfiles⟩ := bytesAt_append.mp hr
    obtain ⟨hinode, hmtime⟩ := bytesAt_append.mp hf
    rw [List.length_append] at hW hstop ⊢
    have hlen : (f.path.bytes ++ [0]).length = f.path.bytes.length + 1 := by simp
    rw [hlen] at hrest hW hstop ⊢
    simp only [Window.Covers, List.length_cons] at hW hWr
    have hWp : W.Covers s (f.path.bytes.length + 1) := by simp only [Window.Covers]; omega
    have hvisit : visitSkipIfExists m W (r, seen) s = some (r + 16, seen ++ [f.report]) := by
      simp only [visitSkipIfExists]
      rw [readWord_of_covers (by simp only [Window.Covers]; omega),
        readWord_of_covers (by simp only [Window.Covers]; omega), cString_of_bytesAt f.path hp hWp,
        load_of_bytesAt hinode]
      rw [length_wordBytes] at hmtime
      rw [load_of_bytesAt hmtime]
      rfl
    rw [forEachString_string f.path.ne_nil f.path.nul_free hp hWp (by omega), hvisit,
      Option.bind_some]
    simp only [List.length_append, length_wordBytes] at hfiles
    rw [ih hfiles (by simp only [Window.Covers]; omega) hrest (by simp only [Window.Covers]; omega)
      (by omega)]
    have he : r + 16 + 16 * files.length = r + 16 * (f :: files).length := by
      simp only [List.length_cons]
      omega
    simp [he, Nat.add_assoc]

lemma eq_zero_of_bytesAt_replicate {a k : Nat} (h : BytesAt m a (List.replicate k 0)) {x : Nat}
    (h1 : a ≤ x) (h2 : x < a + k) : m x = 0 := by
  obtain ⟨i, rfl⟩ : ∃ i, x = a + i := ⟨x - a, by omega⟩
  have hi : i < k := by omega
  rw [bytesAt_iff.mp h i (by simpa using hi)]
  simp [List.getD_eq_getElem?_getD, hi]

lemma forEachMustBeMissingFile_payload {p : Nat} {paths : List CPath}
    (hfind : findAttributePayload m .missingFiles =
      some (some (p, (missingFilesPayload paths).length)))
    (hbytes : BytesAt m p (missingFilesPayload paths))
    (hW : W.Covers p (missingFilesPayload paths).length) :
    forEachMustBeMissingFile m W = some (paths.map (·.bytes)) := by
  obtain ⟨hpaths, hpad⟩ := bytesAt_append.mp hbytes
  have hlen : (missingFilesPayload paths).length = (packedPaths paths).length +
      (missingFilesSize paths - (packedPaths paths).length) := by
    rw [missingFilesPayload, List.length_append, List.length_replicate]
  rw [hlen] at hW hfind
  simp only [Window.Covers] at hW
  rw [forEachMustBeMissingFile, hfind, Option.bind_some]
  dsimp only
  rw [forEachString_missing hpaths (by simp only [Window.Covers]; omega) (by omega),
    forEachString_nuls _ (fun x h1 h2 => eq_zero_of_bytesAt_replicate hpad h1 h2)
      (by simp only [Window.Covers]; omega) (by omega),
    forEachString_done (by omega)]
  simp

/-- The files that must exist are read back from their payload, but the loop goes on behind it. -/
lemma forEachSkipIfExistsFile_payload {p size : Nat} {files : List SkippedFile}
    (hsize : size = (existingFilesPayload files).length)
    (hfind : findAttributePayload m .existingFiles = some (some (p, size)))
    (hbytes : BytesAt m p (existingFilesPayload files)) (hcount : files.length < 2 ^ 64)
    (hW : W.Covers p size) :
    forEachSkipIfExistsFile m W =
      (forEachString m W (p + size + (8 + 16 * files.length)) (visitSkipIfExists m W)
        (p + 8 + 16 * files.length, files.map (·.report)) (p + size)).map (·.2) := by
  simp only [existingFilesPayload] at hsize hbytes
  obtain ⟨hbytes, hpad⟩ := bytesAt_append.mp hbytes
  obtain ⟨hrecords, hpaths⟩ := bytesAt_append.mp hbytes
  obtain ⟨hn, hrecords⟩ := bytesAt_append.mp hrecords
  rw [length_fileRecords] at hpaths
  rw [length_wordBytes] at hrecords
  rw [List.length_append, List.length_append, List.length_replicate] at hsize
  rw [List.length_append] at hpad
  rw [length_fileRecords] at hsize hpad
  simp only [Window.Covers] at hW
  rw [forEachSkipIfExistsFile, hfind, Option.bind_some]
  dsimp only
  rw [readWord_of_covers (by simp only [Window.Covers]; omega), load_of_bytesAt hn, Option.bind_some,
    BitVec.toNat_ofNat, Nat.mod_eq_of_lt hcount]
  have hstart : p + 8 + 8 * (2 * files.length) = p + (8 + files.length * 8 * 2) := by omega
  rw [hstart, forEachString_exist hrecords (by simp only [Window.Covers]; omega) hpaths
      (by simp only [Window.Covers]; omega) (by omega),
    forEachString_nuls (size - (8 + files.length * 8 * 2 + (packedPaths (files.map (·.path))).length))
      (fun x h1 h2 => eq_zero_of_bytesAt_replicate hpad (by omega) (by omega))
      (by simp only [Window.Covers]; omega) (by omega)]
  simp only [List.nil_append]
  congr 2 <;> omega

end Loops

/-! ### Both lists after a run -/

section Run

variable {steps : List LaunchClosureStep} {files : List SkippedFile} {paths : List CPath}
  {w : ContainerTypedBytesWriter} {pageSize : Nat}

lemma SetsFileLists.split_missing (h : SetsFileLists steps files paths) :
    ∃ before after, steps = before ++ .mustBeMissing paths :: after ∧
      ∀ s ∈ before, s.call.type ≠ .missingFiles := by
  obtain ⟨before, s, after, rfl, hbefore, hs, -⟩ := List.filterMap_eq_cons_iff.mp h.missing
  cases s with
  | mustBeMissing ps =>
    rw [Option.some.inj hs]
    refine ⟨before, after, rfl, fun s hs => ?_⟩
    cases s with
    | other c => exact (h.others c (by simp [hs])).1
    | mustBeMissing qs => exact absurd (hbefore _ hs) (by simp)
    | mustExist fs => simp [LaunchClosureStep.call]
  | other c => exact absurd hs (by simp)
  | mustExist fs => exact absurd hs (by simp)

lemma SetsFileLists.split_exist (h : SetsFileLists steps files paths) :
    ∃ before after, steps = before ++ .mustExist files :: after ∧
      (∀ s ∈ before, s.call.type ≠ .existingFiles) ∧
      (after = [] ↔ ∃ before, steps = before ++ [.mustExist files]) := by
  obtain ⟨before, s, after, rfl, hbefore, hs, hafter⟩ := List.filterMap_eq_cons_iff.mp h.exist
  cases s with
  | mustExist fs =>
    rw [Option.some.inj hs]
    refine ⟨before, after, rfl, fun s hs => ?_, ?_⟩
    · cases s with
      | other c => exact (h.others c (by simp [hs])).2
      | mustBeMissing ps => simp [LaunchClosureStep.call]
      | mustExist gs => exact absurd (hbefore _ hs) (by simp)
    · constructor
      · rintro rfl
        exact ⟨before, rfl⟩
      · rintro ⟨before', he⟩
        -- a step behind this one would be a second `mustExist`
        by_contra hne
        have hlast : .mustExist files ∈ after := by
          have hl := congrArg List.getLast? he
          rw [List.getLast?_append_of_ne_nil _ (by simp), List.getLast?_cons_of_ne_nil hne,
            List.getLast?_concat] at hl
          exact List.mem_of_getLast? hl
        exact absurd (List.filterMap_eq_nil_iff.mp hafter _ hlast) (by simp)
  | other c => exact absurd hs (by simp)
  | mustBeMissing ps => exact absurd hs (by simp)

lemma payloadWindow_of_find {m : Mem} {t : TypedBytesType} {p size : Nat}
    (h : findAttributePayload m t = some (some (p, size))) :
    payloadWindow m t = ⟨p, p + size⟩ := by
  rw [payloadWindow, h]

lemma missingFiles_roundTrip (hsteps : SetsFileLists steps files paths)
    (hinv : ContainerInv .launchClosure w (steps.map (·.call))) (hpage : 0 < pageSize) :
    forEachMustBeMissingFile w.content (mappedWindow w pageSize) = some (paths.map (·.bytes)) ∧
      forEachMustBeMissingFile w.content (payloadWindow w.content .missingFiles) =
        some (paths.map (·.bytes)) := by
  obtain ⟨before, after, rfl, hbefore⟩ := hsteps.split_missing
  rw [List.map_append, List.map_cons] at hinv
  obtain ⟨p, hfind, hbytes, hle, -, -⟩ := hinv.payload (by simpa [LaunchClosureStep.call] using hbefore)
  have hmapped := hinv.writer.endOffset_le_finalizedSize hpage
  simp only [LaunchClosureStep.call] at hfind hbytes hle
  constructor
  · exact forEachMustBeMissingFile_payload hfind hbytes
      ⟨Nat.zero_le _, by simp only [mappedWindow]; omega⟩
  · rw [payloadWindow_of_find hfind]
    exact forEachMustBeMissingFile_payload hfind hbytes ⟨le_rfl, le_rfl⟩

lemma length_le_existingFilesPayload (files : List SkippedFile) :
    files.length ≤ (existingFilesPayload files).length := by
  simp only [existingFilesPayload, List.length_append, length_fileRecords]
  omega

lemma existingFiles_leaves_payload (hsteps : SetsFileLists steps files paths)
    (hinv : ContainerInv .launchClosure w (steps.map (·.call))) :
    forEachSkipIfExistsFile w.content (payloadWindow w.content .existingFiles) = none := by
  obtain ⟨before, after, rfl, hbefore, -⟩ := hsteps.split_exist
  rw [List.map_append, List.map_cons] at hinv
  obtain ⟨p, hfind, hbytes, hle, -, -⟩ := hinv.payload (by simpa [LaunchClosureStep.call] using hbefore)
  simp only [LaunchClosureStep.call] at hfind hbytes hle
  have hend := hinv.writer.endOffset_eq
  have htotal := hinv.total_lt
  have hcount := length_le_existingFilesPayload files
  simp only [sizeofTypedBytes] at hend
  rw [payloadWindow_of_find hfind, forEachSkipIfExistsFile_payload rfl hfind hbytes (by omega)
      ⟨le_rfl, le_rfl⟩,
    forEachString_unreadable (by omega) (by simp only [Window.Covers]; omega)]
  rfl

lemma length_lt_of_visitSkipIfExists {m : Mem} {W : Window} {st st' : Nat × List SkippedFileReport}
    {s : Nat} (h : visitSkipIfExists m W st s = some st') : st.2.length < st'.2.length := by
  unfold visitSkipIfExists at h
  obtain ⟨inode, -, h⟩ := Option.bind_eq_some_iff.mp h
  obtain ⟨mtime, -, h⟩ := Option.bind_eq_some_iff.mp h
  obtain ⟨path, -, rfl⟩ := Option.map_eq_some_iff.mp h
  simp

/-- The files that must exist are reported exactly when their attribute is the last one and the
bytes the loop reads behind it are still mapped. -/
lemma existingFiles_reported_iff (hsteps : SetsFileLists steps files paths)
    (hinv : ContainerInv .launchClosure w (steps.map (·.call))) (hpage : 0 < pageSize) :
    forEachSkipIfExistsFile w.content (mappedWindow w pageSize) = some (files.map (·.report)) ↔
      (∃ before, steps = before ++ [.mustExist files]) ∧
        w.endOffset + (8 + 16 * files.length) ≤ finalizedSize w pageSize := by
  obtain ⟨before, after, rfl, hbefore, hlast⟩ := hsteps.split_exist
  rw [← hlast]
  rw [List.map_append, List.map_cons] at hinv
  obtain ⟨p, hfind, hbytes, hle, hnil, hcons⟩ := hinv.payload (by simpa [LaunchClosureStep.call] using hbefore)
  have hmapped := hinv.writer.endOffset_le_finalizedSize hpage
  simp only [LaunchClosureStep.call, List.map_eq_nil_iff, ne_eq] at hfind hbytes hle hnil hcons
  have hend := hinv.writer.endOffset_eq
  have htotal := hinv.total_lt
  have hcount := length_le_existingFilesPayload files
  simp only [sizeofTypedBytes] at hend
  rw [forEachSkipIfExistsFile_payload rfl hfind hbytes (by omega)
    ⟨Nat.zero_le _, by simp only [mappedWindow]; omega⟩]
  by_cases hafter : after = []
  · have hzero := hinv.zero_beyond
    rw [← hnil hafter] at hzero hmapped ⊢
    by_cases hroom : p + (existingFilesPayload files).length + (8 + 16 * files.length) ≤
        finalizedSize w pageSize
    · rw [forEachString_nuls (8 + 16 * files.length) (fun x h1 _ => hzero x h1)
          ⟨Nat.zero_le _, hroom⟩ le_rfl, forEachString_done le_rfl]
      simp [hafter, hroom]
    · -- the NULs end with the mapping
      rw [forEachString_nuls (finalizedSize w pageSize - (p + (existingFilesPayload files).length))
          (fun x h1 _ => hzero x h1) ⟨Nat.zero_le _, by simp only [mappedWindow]; omega⟩ (by omega),
        forEachString_unreadable (by omega) (by simp only [Window.Covers, mappedWindow]; omega)]
      simp [hroom]
  · -- the header of the next attribute is reported as one more path
    constructor
    · intro h
      obtain ⟨st, hst, heq⟩ := Option.map_eq_some_iff.mp h
      have hlt := lt_of_forEachString (μ := fun st => st.2.length)
        (fun _ _ _ h => length_lt_of_visitSkipIfExists h) (by omega) (hcons hafter).1 hst
      rw [heq] at hlt
      exact absurd hlt (lt_irrefl _)
    · exact fun h => absurd h.1 hafter

lemma launchInv_of_runSteps (h : runSteps (setContainerType .launchClosure) steps = .ok w) :
    ContainerInv .launchClosure w (steps.map (·.call)) := by
  simpa using (containerInv_setContainerType .launchClosure).runSteps h

lemma not_filesRoundTrip (hsteps : SetsFileLists steps files paths) :
    ¬FilesRoundTrip pageSize steps files paths := by
  rintro ⟨w, hw, -, -, hpayload, -⟩
  rw [existingFiles_leaves_payload hsteps (launchInv_of_runSteps hw)] at hpayload
  exact absurd hpayload (by simp)

end Run

/-- Whatever else is appended, the two lists never round trip from their payloads alone: the
loop over the files that must exist reads behind its payload on every closure. The missing
files are read back exactly and from their payload; the files that must exist are reported
exactly when nothing is appended behind them and the mapping goes on far enough. -/
theorem fileLists_never_roundTrip (pageSize : Nat) (hpage : 0 < pageSize)
    (steps : List LaunchClosureStep) (files : List SkippedFile) (paths : List CPath)
    (hsteps : SetsFileLists steps files paths) :
    ¬FilesRoundTrip pageSize steps files paths ∧
    ∀ w, runSteps (setContainerType .launchClosure) steps = .ok w →
      forEachMustBeMissingFile w.content (mappedWindow w pageSize) = some (paths.map (·.bytes)) ∧
      forEachMustBeMissingFile w.content (payloadWindow w.content .missingFiles) =
        some (paths.map (·.bytes)) ∧
      forEachSkipIfExistsFile w.content (payloadWindow w.content .existingFiles) = none ∧
      (forEachSkipIfExistsFile w.content (mappedWindow w pageSize) = some (files.map (·.report)) ↔
        (∃ before, steps = before ++ [.mustExist files]) ∧
          w.endOffset + (8 + 16 * files.length) ≤ finalizedSize w pageSize) := by
  refine ⟨not_filesRoundTrip hsteps, fun w hw => ?_⟩
  have hinv := launchInv_of_runSteps hw
  obtain ⟨hmapped, hpayload⟩ := missingFiles_roundTrip hsteps hinv hpage
  exact ⟨hmapped, hpayload, existingFiles_leaves_payload hsteps hinv,
    existingFiles_reported_iff hsteps hinv hpage⟩

def fileA : SkippedFile := ⟨⟨[47, 97], by simp, by simp⟩, 7, 9⟩

/-- The file `/a`, then an environment variable behind it. -/
def aThenEnvVar : List LaunchClosureStep :=
  [.mustBeMissing [],
    .mustExist [fileA],
    .other ⟨.envVar, [65, 61, 49, 0]⟩]

lemma setsFileLists_aThenEnvVar :
    SetsFileLists aThenEnvVar [fileA] [] := by
  refine ⟨rfl, rfl, fun c hc => ?_⟩
  simp only [aThenEnvVar, List.mem_cons, reduceCtorEq, LaunchClosureStep.other.injEq, List.not_mem_nil,
    or_false, false_or] at hc
  rw [hc]
  decide

lemma runSteps_aThenEnvVar :
    (runSteps (setContainerType .launchClosure) aThenEnvVar).toOption.isSome = true := by
  decide +kernel

theorem fileLists_never_roundTrip_envVar :
    SetsFileLists aThenEnvVar [fileA] [] ∧
      ¬FilesRoundTrip 0x4000 aThenEnvVar [fileA] [] :=
  ⟨setsFileLists_aThenEnvVar,
    (fileLists_never_roundTrip 0x4000 (by decide) _ _ _ setsFileLists_aThenEnvVar).1⟩

/-- The header of the environment variable is reported as one more file to skip. -/
theorem aThenEnvVar_misreported :
    (runSteps (setContainerType .launchClosure) aThenEnvVar).toOption.isSome = true ∧
    (∀ w, runSteps (setContainerType .launchClosure) aThenEnvVar = .ok w →
      forEachSkipIfExistsFile w.content (mappedWindow w 0x4000) ≠ some [fileA.report]) ∧
    ¬FilesRoundTrip 0x4000 aThenEnvVar [fileA] [] := by
  refine ⟨runSteps_aThenEnvVar, fun w hw h => ?_, not_filesRoundTrip setsFileLists_aThenEnvVar⟩
  obtain ⟨⟨before, hlast⟩, -⟩ :=
    (existingFiles_reported_iff setsFileLists_aThenEnvVar (launchInv_of_runSteps hw) (by decide)).mp h
  have hl := congrArg List.getLast? hlast
  rw [List.getLast?_concat] at hl
  simp [aThenEnvVar] at hl

end Dyld.Closure
