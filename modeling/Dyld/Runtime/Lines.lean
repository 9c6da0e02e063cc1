import Mathlib.Data.List.TakeWhile

/-!
# The lines of a file

`forEachLineInFile` copies each line into a buffer on the stack and calls a handler with it. A line
that fills the buffer is terminated one byte behind it.
-/

namespace Dyld.Runtime.Lines

def MAXPATHLEN : Nat := 1024

def newline : UInt8 := 10

/-! ### The loops -/

/-- The inner loop, with the room that is left in the line buffer: the bytes that it copies, and the
buffer from `s` on after it. -/
def copyLine : Nat → List UInt8 → List UInt8 × List UInt8
  | 0, s => ([], s)
  | _ + 1, [] => ([], [])
  | room + 1, c :: s =>
    if c = newline then ([], c :: s)
    else
      let line := copyLine room s
      (c :: line.1, line.2)

/-- A call of the handler. The terminating zero is written behind the bytes copied. -/
structure Call where
  copied : List UInt8

namespace Call

/-- The C string that the handler gets. -/
def line (call : Call) : List UInt8 := call.copied.takeWhile (· ≠ 0)

/-- All writes are to the line buffer. -/
def InBounds (call : Call) : Prop := call.copied.length < MAXPATHLEN

end Call

lemma length_copyLine (room : Nat) (s : List UInt8) : (copyLine room s).2.length ≤ s.length := by
  induction room generalizing s with
  | zero => exact le_rfl
  | succ room ih =>
    cases s with
    | nil => exact le_rfl
    | cons c s =>
      unfold copyLine
      split_ifs
      · exact le_rfl
      · exact (ih s).trans (Nat.le_succ _)

def forEachLineInFile (lineHandler : List (List UInt8) → Bool) (reported : List (List UInt8)) :
    List UInt8 → List Call
  | [] => []
  | c :: s =>
    let copied := copyLine MAXPATHLEN (c :: s)
    let call : Call := ⟨copied.1⟩
    call :: if lineHandler (reported ++ [call.line]) then []
      else forEachLineInFile lineHandler (reported ++ [call.line]) copied.2.tail
termination_by s => s.length
decreasing_by
  have hle := length_copyLine MAXPATHLEN (c :: s)
  rw [List.length_tail]
  simp only [List.length_cons] at hle ⊢
  omega

/-! ### The lines of a buffer -/

def lines (buffer : List UInt8) : List (List UInt8) :=
  let parts := buffer.splitOn newline
  if parts.getLast? = some [] then parts.dropLast else parts

lemma lines_nil : lines [] = [] := rfl

lemma lines_of_not_mem {line : List UInt8} (hline : newline ∉ line) (hne : line ≠ []) :
    lines line = [line] := by
  rw [lines, List.splitOn_eq_singleton hline]
  exact if_neg fun h => hne (Option.some.inj h)

lemma lines_append {line : List UInt8} (hline : newline ∉ line) (rest : List UInt8) :
    lines (line ++ newline :: rest) = line :: lines rest := by
  have hne : rest.splitOn newline ≠ [] := List.splitOn_ne_nil newline rest
  simp only [lines, List.splitOn_append_cons_self_of_not_mem hline]
  rw [List.getLast?_cons_of_ne_nil hne, List.dropLast_cons_of_ne_nil hne]
  split_ifs <;> rfl

def callsUntilStop (lineHandler : List (List UInt8) → Bool) (reported : List (List UInt8)) :
    List (List UInt8) → List (List UInt8)
  | [] => []
  | line :: rest =>
    line :: if lineHandler (reported ++ [line]) then []
      else callsUntilStop lineHandler (reported ++ [line]) rest

/-- The calls are for these lines, and no byte behind the line buffer is written. -/
structure Exact (calls : List Call) (expected : List (List UInt8)) : Prop where
  lines : calls.map Call.line = expected
  inBounds : ∀ call ∈ calls, call.InBounds

lemma exact_cons_iff {call : Call} {line : List UInt8} (hline : call.line = line) {calls : List Call}
    {expected : List (List UInt8)} :
    Exact (call :: calls) (line :: expected) ↔ call.InBounds ∧ Exact calls expected := by
  subst hline
  constructor
  · intro h
    have htail : calls.map Call.line = expected := (List.cons.inj h.lines).2
    exact ⟨h.inBounds call List.mem_cons_self, htail,
      fun c hc => h.inBounds c (List.mem_cons_of_mem call hc)⟩
  · rintro ⟨hcall, hcalls⟩
    constructor
    · rw [List.map_cons, hcalls.lines]
    · intro c hc
      cases hc with
      | head => exact hcall
      | tail _ hc => exact hcalls.inBounds c hc

/-! ### One line -/

lemma exists_line (s : List UInt8) : ∃ line rest, newline ∉ line ∧ s = line ++ rest ∧
    (rest = [] ∨ ∃ rest', rest = newline :: rest') := by
  induction s with
  | nil => exact ⟨[], [], List.not_mem_nil, rfl, Or.inl rfl⟩
  | cons c s ih =>
    by_cases hc : c = newline
    · exact ⟨[], c :: s, List.not_mem_nil, rfl, Or.inr ⟨s, by rw [hc]⟩⟩
    · obtain ⟨line, rest, hline, hs, hrest⟩ := ih
      refine ⟨c :: line, rest, ?_, by rw [hs]; rfl, hrest⟩
      intro hmem
      rcases List.mem_cons.mp hmem with heq | hmem
      · exact hc heq.symm
      · exact hline hmem

lemma copyLine_of_lt {line rest : List UInt8} (hline : newline ∉ line)
    (hrest : rest = [] ∨ ∃ rest', rest = newline :: rest') {room : Nat} (hroom : line.length < room) :
    copyLine room (line ++ rest) = (line, rest) := by
  induction line generalizing room with
  | nil =>
    obtain ⟨room, rfl⟩ : ∃ r, room = r + 1 := ⟨room - 1, by simp at hroom; omega⟩
    rcases hrest with rfl | ⟨rest', rfl⟩
    · rfl
    · rw [List.nil_append, copyLine, if_pos rfl]
  | cons c line ih =>
    obtain ⟨room, rfl⟩ : ∃ r, room = r + 1 := ⟨room - 1, by simp at hroom; omega⟩
    have hc : c ≠ newline := fun h => hline (h ▸ List.mem_cons_self)
    have hcopied := ih (fun h => hline (List.mem_cons_of_mem c h)) (Nat.lt_of_succ_lt_succ hroom)
    rw [List.cons_append, copyLine, if_neg hc, hcopied]

/-- A long line fills the buffer. -/
lemma length_copyLine_of_le {line : List UInt8} (hline : newline ∉ line) (rest : List UInt8) {room : Nat}
    (hroom : room ≤ line.length) : (copyLine room (line ++ rest)).1.length = room := by
  induction line generalizing room with
  | nil =>
    cases Nat.le_zero.mp hroom
    rfl
  | cons c line ih =>
    cases room with
    | zero => rfl
    | succ room =>
      have hc : c ≠ newline := fun h => hline (h ▸ List.mem_cons_self)
      have hlength := ih (fun h => hline (List.mem_cons_of_mem c h)) (Nat.le_of_succ_le_succ hroom)
      rw [List.cons_append, copyLine, if_neg hc, List.length_cons, hlength]

lemma line_of_not_mem {copied : List UInt8} (h : 0 ∉ copied) : (Call.mk copied).line = copied := by
  rw [Call.line, List.takeWhile_eq_self_iff]
  intro c hc
  rw [decide_eq_true_eq]
  exact fun hzero => h (hzero ▸ hc)

/-! ### All lines -/

lemma exact_turn_iff (lineHandler : List (List UInt8) → Bool) (reported : List (List UInt8))
    {line rest : List UInt8} (hnul : 0 ∉ line) (hline : newline ∉ line)
    (hrest : rest = [] ∨ ∃ rest', rest = newline :: rest') (hne : line ++ rest ≠ [])
    {expected : List (List UInt8)} :
    Exact (forEachLineInFile lineHandler reported (line ++ rest)) (line :: expected) ↔
      line.length < MAXPATHLEN ∧
        Exact (if lineHandler (reported ++ [line]) then []
          else forEachLineInFile lineHandler (reported ++ [line]) rest.tail) expected := by
  obtain ⟨c, s, hs⟩ := List.exists_cons_of_ne_nil hne
  rw [hs, forEachLineInFile, ← hs]
  by_cases hlength : line.length < MAXPATHLEN
  · rw [copyLine_of_lt hline hrest hlength]
    have hcall := line_of_not_mem hnul
    simp only [hcall]
    exact exact_cons_iff hcall
  · constructor
    · intro h
      have hfull := length_copyLine_of_le hline rest (Nat.le_of_not_lt hlength)
      have hin : (copyLine MAXPATHLEN (line ++ rest)).1.length < MAXPATHLEN :=
        h.inBounds _ List.mem_cons_self
      omega
    · intro h
      exact absurd h.1 hlength

lemma exact_callsUntilStop_iff (lineHandler : List (List UInt8) → Bool) {buffer : List UInt8}
    (hnul : 0 ∉ buffer) (reported : List (List UInt8)) :
    Exact (forEachLineInFile lineHandler reported buffer)
        (callsUntilStop lineHandler reported (lines buffer)) ↔
      ∀ line ∈ callsUntilStop lineHandler reported (lines buffer), line.length < MAXPATHLEN := by
  induction hn : buffer.length using Nat.strong_induction_on generalizing buffer reported with
  | _ n ih =>
    obtain ⟨line, rest, hline, rfl, hrest⟩ := exists_line buffer
    by_cases hnil : line ++ rest = []
    · rw [hnil, lines_nil, forEachLineInFile]
      exact iff_of_true ⟨rfl, nofun⟩ nofun
    · have hlines : lines (line ++ rest) = line :: lines rest.tail := by
        rcases hrest with rfl | ⟨rest', rfl⟩
        · rw [List.append_nil] at hnil ⊢
          exact lines_of_not_mem hline hnil
        · exact lines_append hline rest'
      have hlt : rest.tail.length < n := by
        rw [← hn, List.length_append, List.length_tail]
        have hpos := List.length_pos_iff.mpr hnil
        rw [List.length_append] at hpos
        omega
      have hnulTail : 0 ∉ rest.tail := fun h =>
        hnul (List.mem_append_right line (List.mem_of_mem_tail h))
      have htail := ih _ hlt hnulTail (reported ++ [line]) rfl
      rw [hlines, callsUntilStop,
        exact_turn_iff lineHandler reported (fun h => hnul (List.mem_append_left rest h)) hline hrest hnil,
        List.forall_mem_cons]
      cases lineHandler (reported ++ [line]) with
      | true =>
        simp only [if_true]
        exact and_congr_right' (iff_of_true ⟨rfl, nofun⟩ nofun)
      | false =>
        simp only [Bool.false_eq_true, if_false]
        exact and_congr_right' htail

/-! ### When the handler stops -/

structure StopsAtCall (lineHandler : List (List UInt8) → Bool) (k : Nat) : Prop where
  before : ∀ reported, reported.length < k → lineHandler reported = false
  stops : ∀ reported, reported.length = k → lineHandler reported = true

lemma callsUntilStop_of_never {lineHandler : List (List UInt8) → Bool}
    (h : ∀ reported, lineHandler reported = false) (reported ls : List (List UInt8)) :
    callsUntilStop lineHandler reported ls = ls := by
  induction ls generalizing reported with
  | nil => rfl
  | cons line rest ih => rw [callsUntilStop, h, if_neg Bool.false_ne_true, ih]

lemma callsUntilStop_of_stopsAtCall {lineHandler : List (List UInt8) → Bool} {k : Nat}
    (h : StopsAtCall lineHandler k) {reported : List (List UInt8)} (hreported : reported.length < k)
    (ls : List (List UInt8)) :
    callsUntilStop lineHandler reported ls = ls.take (k - reported.length) := by
  induction ls generalizing reported with
  | nil => rw [callsUntilStop, List.take_nil]
  | cons line rest ih =>
    have hlength : (reported ++ [line]).length = reported.length + 1 := List.length_append
    obtain ⟨left, hleft⟩ : ∃ left, k - reported.length = left + 1 := ⟨k - reported.length - 1, by omega⟩
    rw [callsUntilStop, hleft, List.take_succ_cons]
    congr 1
    by_cases hlast : reported.length + 1 = k
    · rw [h.stops _ (hlength.trans hlast), if_pos rfl]
      have hzero : left = 0 := by omega
      rw [hzero, List.take_zero]
    · have hlt : (reported ++ [line]).length < k := by omega
      rw [h.before _ hlt, if_neg Bool.false_ne_true, ih hlt, hlength]
      congr 1
      omega

/-- The lines of a buffer are reported exactly, all or up to the call at which the handler stops,
unless one of these lines fills the line buffer. -/
theorem lines_exact_iff (buffer : List UInt8) (hnul : 0 ∉ buffer)
    (lineHandler : List (List UInt8) → Bool) :
    ((∀ reported, lineHandler reported = false) →
      (Exact (forEachLineInFile lineHandler [] buffer) (lines buffer) ↔
        ∀ line ∈ lines buffer, line.length < MAXPATHLEN)) ∧
    ∀ k > 0, StopsAtCall lineHandler k →
      (Exact (forEachLineInFile lineHandler [] buffer) ((lines buffer).take k) ↔
        ∀ line ∈ (lines buffer).take k, line.length < MAXPATHLEN) := by
  have hexact := exact_callsUntilStop_iff lineHandler hnul []
  constructor
  · intro hnever
    rw [callsUntilStop_of_never hnever] at hexact
    exact hexact
  · intro k hk hstops
    have hreported : ([] : List (List UInt8)).length < k := hk
    rw [callsUntilStop_of_stopsAtCall hstops hreported] at hexact
    exact hexact

/-- `a`, an empty line and `bc`, with a final newline. -/
def threeLines : List UInt8 := [97, 10, 10, 98, 99, 10]

theorem lines_exact_threeLines :
    Exact (forEachLineInFile (fun _ => false) [] threeLines) [[97], [], [98, 99]] ∧
      Exact (forEachLineInFile (fun reported => reported.length == 2) [] threeLines) [[97], []] := by
  have hnul : 0 ∉ threeLines := by decide
  constructor
  · refine ((lines_exact_iff threeLines hnul (fun _ => false)).1 fun _ => rfl).mpr ?_
    decide
  · refine ((lines_exact_iff threeLines hnul (fun reported => reported.length == 2)).2 2 (by decide)
      ⟨?_, ?_⟩).mpr ?_
    · intro reported hlt
      exact beq_eq_false_iff_ne.mpr hlt.ne
    · intro reported heq
      exact beq_iff_eq.mpr heq
    · decide

/-- Of a line with one byte more than the buffer has the last byte is lost, and the zero is written
behind the buffer. -/
theorem longLine_inexact : 0 ∉ List.replicate (MAXPATHLEN + 1) (97 : UInt8) ∧
    lines (List.replicate (MAXPATHLEN + 1) 97) = [List.replicate (MAXPATHLEN + 1) 97] ∧
    ¬Exact (forEachLineInFile (fun _ => false) [] (List.replicate (MAXPATHLEN + 1) 97))
      (lines (List.replicate (MAXPATHLEN + 1) 97)) := by
  have hnul : 0 ∉ List.replicate (MAXPATHLEN + 1) (97 : UInt8) := by
    intro h
    cases List.eq_of_mem_replicate h
  have hline : newline ∉ List.replicate (MAXPATHLEN + 1) (97 : UInt8) := by
    intro h
    cases List.eq_of_mem_replicate h
  have hlines := lines_of_not_mem hline (List.ne_nil_of_length_eq_add_one List.length_replicate)
  refine ⟨hnul, hlines, ?_⟩
  have hexact := exact_callsUntilStop_iff (fun _ => false) hnul []
  rw [callsUntilStop_of_never (fun _ => rfl), hlines] at hexact
  rw [hlines, hexact]
  intro h
  have hlength := h _ List.mem_cons_self
  rw [List.length_replicate] at hlength
  omega

end Dyld.Runtime.Lines
