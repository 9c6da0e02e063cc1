import Dyld.Closure.BindPattern

/-!
# Text rebase patterns

The text relocations of an i386 image are merged into runs of equal gaps in
`ClosureBuilder::addFixupInfo`, and `Image::forEachTextReloc` expands the runs again. The gap and the
count of a run have 16 bits, and nothing checks that they fit.
-/

namespace Dyld.Closure.TextFixups

structure TextFixupPattern where
  target : ResolvedSymbolTarget
  startVmOffset : Nat
  repeatCount : Nat
  skipCount : Nat
  deriving DecidableEq, Repr

/-! ### Building -/

/-- The locals of the handler. `tooMany` is the error that also stops the enumeration. -/
structure TextRebases where
  textRebases : List TextFixupPattern
  lastOffset : Nat
  tooMany : Bool
  deriving DecidableEq, Repr

/-- `textRebases` has room for 512 patterns. -/
def maxCount : Nat := 512

def TextRebases.init : TextRebases where
  textRebases := []
  lastOffset := 2 ^ 64 - 4
  tooMany := false

def TextFixupPattern.startRun (back : TextFixupPattern) (skipAmount : Nat) : TextFixupPattern :=
  { back with repeatCount := 2, skipCount := skipAmount % 2 ^ 16 }

/-- A run goes on. -/
def TextFixupPattern.goOn (back : TextFixupPattern) : TextFixupPattern :=
  { back with repeatCount := (back.repeatCount + 1) % 2 ^ 16 }

def mergeIntoPrevious (lastOffset runtimeOffset : Nat) (back : TextFixupPattern) :
    Option TextFixupPattern :=
  if runtimeOffset > lastOffset then
    let skipAmount := (runtimeOffset - lastOffset) % 2 ^ 32
    if back.repeatCount = 1 ∧ back.skipCount = 0 then
      some (back.startRun skipAmount)
    else if back.skipCount = skipAmount then some back.goOn
    else none
  else none

def newPattern (runtimeOffset : Nat) : TextFixupPattern where
  target := 0
  startVmOffset := runtimeOffset % 2 ^ 32
  repeatCount := 1
  skipCount := 0

def addOffset (textRebases : List TextFixupPattern) (lastOffset runtimeOffset : Nat) :
    List TextFixupPattern :=
  match textRebases.getLast? with
  | none => textRebases ++ [newPattern runtimeOffset]
  | some back =>
    match mergeIntoPrevious lastOffset runtimeOffset back with
    | some back' => textRebases.dropLast ++ [back']
    | none => textRebases ++ [newPattern runtimeOffset]

/-- The handler that `addFixupInfo` passes to `forEachTextRebase`. -/
def addTextRebase (s : TextRebases) (runtimeOffset : Nat) : TextRebases where
  textRebases := addOffset s.textRebases s.lastOffset runtimeOffset
  lastOffset := runtimeOffset
  tooMany := decide (maxCount - s.textRebases.length < 2)

/-- `forEachTextRebase` with this handler. -/
def addTextRebases (s : TextRebases) : List Nat → TextRebases
  | [] => s
  | runtimeOffset :: rest =>
    let s' := addTextRebase s runtimeOffset
    if s'.tooMany then s' else addTextRebases s' rest

/-! ### Enumerating -/

/-- What `Image::forEachTextReloc` reports. -/
inductive TextReloc
  | rebase (imageOffsetToRebase : Nat)
  | bind (imageOffsetToBind : Nat) (bindTarget : ResolvedSymbolTarget)
  deriving DecidableEq, Repr

/-- A turn of the inner loop. -/
def TextFixupPattern.reloc (pat : TextFixupPattern) (i : Nat) : TextReloc :=
  let curOffset := (pat.startVmOffset + i * pat.skipCount) % 2 ^ 32
  if pat.target = 0 then .rebase curOffset else .bind curOffset pat.target

def TextFixupPattern.relocs (pat : TextFixupPattern) : List TextReloc :=
  (List.range pat.repeatCount).map pat.reloc

def forEachTextReloc (textFixups : List TextFixupPattern) : List TextReloc :=
  textFixups.flatMap TextFixupPattern.relocs

/-- The patterns are built, and they stand for the offsets. -/
def RoundTrips (offsets : List Nat) : Prop :=
  (addTextRebases TextRebases.init offsets).tooMany = false ∧
    forEachTextReloc (addTextRebases TextRebases.init offsets).textRebases = offsets.map .rebase

/-! ### When nothing is cut off -/

/-- The gap that starts a run has 16 bits, and so has the count of a run that goes on. -/
def FitsLast (lastOffset runtimeOffset : Nat) (back : TextFixupPattern) : Prop :=
  lastOffset < runtimeOffset →
    if back.repeatCount = 1 ∧ back.skipCount = 0 then runtimeOffset - lastOffset < 2 ^ 16
    else back.skipCount = runtimeOffset - lastOffset → back.repeatCount + 1 < 2 ^ 16

def Fits (s : TextRebases) (runtimeOffset : Nat) : Prop :=
  s.textRebases.length + 2 ≤ maxCount ∧
    ∀ back, s.textRebases.getLast? = some back → FitsLast s.lastOffset runtimeOffset back

def FitsAll (s : TextRebases) : List Nat → Prop
  | [] => True
  | runtimeOffset :: rest => Fits s runtimeOffset ∧ FitsAll (addTextRebase s runtimeOffset) rest

/-! ### One offset -/

lemma forEachTextReloc_append (ps qs : List TextFixupPattern) :
    forEachTextReloc (ps ++ qs) = forEachTextReloc ps ++ forEachTextReloc qs := by
  rw [forEachTextReloc, forEachTextReloc, forEachTextReloc, List.flatMap_append]

lemma forEachTextReloc_singleton (p : TextFixupPattern) : forEachTextReloc [p] = p.relocs := by
  rw [forEachTextReloc, List.flatMap_singleton]

lemma length_relocs (p : TextFixupPattern) : p.relocs.length = p.repeatCount := by
  rw [TextFixupPattern.relocs, List.length_map, List.length_range]

lemma relocs_newPattern {offset : Nat} (h : offset < 2 ^ 32) :
    (newPattern offset).relocs = [.rebase offset] := by
  simpa [TextFixupPattern.relocs, TextFixupPattern.reloc, newPattern] using h

/-- A pattern that goes on once more. -/
lemma relocs_succ {p p' : TextFixupPattern} (htarget : p'.target = p.target)
    (hstart : p'.startVmOffset = p.startVmOffset) (hcount : p'.repeatCount = p.repeatCount + 1)
    (hskip : p.repeatCount = 1 ∨ p'.skipCount = p.skipCount) :
    p'.relocs = p.relocs ++ [p'.reloc p.repeatCount] := by
  rw [TextFixupPattern.relocs, TextFixupPattern.relocs, hcount, List.range_succ, List.map_append,
    List.map_singleton]
  congr 1
  apply List.map_congr_left
  intro i hi
  rw [List.mem_range] at hi
  have hoffset : i * p'.skipCount = i * p.skipCount := by
    cases hskip with
    | inl hone =>
      have hzero : i = 0 := by omega
      rw [hzero, Nat.zero_mul, Nat.zero_mul]
    | inr hsame => rw [hsame]
  rw [TextFixupPattern.reloc, TextFixupPattern.reloc, htarget, hstart, hoffset]

lemma relocs_startRun {back : TextFixupPattern} (h : back.repeatCount = 1) (skipAmount : Nat) :
    (back.startRun skipAmount).relocs = back.relocs ++ [(back.startRun skipAmount).reloc 1] := by
  have hmore : (back.startRun skipAmount).relocs =
      back.relocs ++ [(back.startRun skipAmount).reloc back.repeatCount] :=
    relocs_succ rfl rfl (by rw [h]; rfl) (Or.inl h)
  rwa [h] at hmore

lemma relocs_goOn {back : TextFixupPattern} (h : back.repeatCount + 1 < 2 ^ 16) :
    back.goOn.relocs = back.relocs ++ [back.goOn.reloc back.repeatCount] :=
  relocs_succ rfl rfl (Nat.mod_eq_of_lt h) (Or.inr rfl)

/-- A count that does not fit starts again from zero. -/
lemma length_relocs_goOn {back : TextFixupPattern} (h : ¬back.repeatCount + 1 < 2 ^ 16) :
    back.goOn.relocs.length ≤ back.relocs.length := by
  rw [length_relocs, length_relocs, TextFixupPattern.goOn]
  dsimp only
  omega

/-- A list that another one goes on from by one entry, or that loses entries. -/
def OneMore (l l' : List TextReloc) : Prop := (∃ r, l' = l ++ [r]) ∨ l'.length ≤ l.length

lemma OneMore.append_left {l l' : List TextReloc} (h : OneMore l l') (k : List TextReloc) :
    OneMore (k ++ l) (k ++ l') := by
  cases h with
  | inl h =>
    obtain ⟨r, hr⟩ := h
    exact Or.inl ⟨r, by rw [hr, List.append_assoc]⟩
  | inr h => exact Or.inr (by simpa using h)

lemma oneMore_mergeIntoPrevious {lastOffset runtimeOffset : Nat} {back back' : TextFixupPattern}
    (h : mergeIntoPrevious lastOffset runtimeOffset back = some back') :
    OneMore back.relocs back'.relocs := by
  rw [mergeIntoPrevious] at h
  split at h
  · dsimp only at h
    split at h
    · rename_i hfirst
      obtain rfl := Option.some.inj h
      exact Or.inl ⟨_, relocs_startRun hfirst.1 _⟩
    · split at h
      · obtain rfl := Option.some.inj h
        by_cases hcount : back.repeatCount + 1 < 2 ^ 16
        · exact Or.inl ⟨_, relocs_goOn hcount⟩
        · exact Or.inr (length_relocs_goOn hcount)
      · exact absurd h (by simp)
  · exact absurd h (by simp)

lemma relocs_newPattern_length (offset : Nat) : ∃ r, (newPattern offset).relocs = [r] := ⟨_, rfl⟩

lemma oneMore_addOffset (ps : List TextFixupPattern) (lastOffset runtimeOffset : Nat) :
    OneMore (forEachTextReloc ps) (forEachTextReloc (addOffset ps lastOffset runtimeOffset)) := by
  have hpush : OneMore (forEachTextReloc ps) (forEachTextReloc (ps ++ [newPattern runtimeOffset])) := by
    rw [forEachTextReloc_append, forEachTextReloc_singleton]
    exact Or.inl (relocs_newPattern_length runtimeOffset |>.imp (fun r hr => by rw [hr]))
  rw [addOffset]
  split
  · exact hpush
  · rename_i back hback
    split
    · rename_i back' hmerge
      obtain ⟨earlier, rfl⟩ := List.getLast?_eq_some_iff.mp hback
      rw [List.dropLast_concat, forEachTextReloc_append, forEachTextReloc_append,
        forEachTextReloc_singleton, forEachTextReloc_singleton]
      exact (oneMore_mergeIntoPrevious hmerge).append_left _
    · exact hpush

/-- What has been reported stays, or entries are lost for good. -/
lemma addTextRebases_cases (s : TextRebases) (offsets : List Nat) :
    forEachTextReloc s.textRebases <+: forEachTextReloc (addTextRebases s offsets).textRebases ∧
        (forEachTextReloc (addTextRebases s offsets).textRebases).length ≤
          (forEachTextReloc s.textRebases).length + offsets.length ∨
      (forEachTextReloc (addTextRebases s offsets).textRebases).length <
        (forEachTextReloc s.textRebases).length + offsets.length := by
  induction offsets generalizing s with
  | nil => exact Or.inl ⟨List.prefix_rfl, le_rfl⟩
  | cons offset rest ih =>
    have hone := oneMore_addOffset s.textRebases s.lastOffset offset
    have htail := ih (addTextRebase s offset)
    rw [addTextRebases, List.length_cons]
    change OneMore _ (forEachTextReloc (addTextRebase s offset).textRebases) at hone
    cases hone with
    | inl hone =>
      obtain ⟨r, hr⟩ := hone
      have hpre : forEachTextReloc s.textRebases <+:
          forEachTextReloc (addTextRebase s offset).textRebases := ⟨[r], hr.symm⟩
      have hlength : (forEachTextReloc (addTextRebase s offset).textRebases).length =
          (forEachTextReloc s.textRebases).length + 1 := by rw [hr, List.length_append]; rfl
      split
      · exact Or.inl ⟨hpre, by omega⟩
      · cases htail with
        | inl htail => exact Or.inl ⟨hpre.trans htail.1, by omega⟩
        | inr htail => exact Or.inr (by omega)
    | inr hlost =>
      right
      split
      · omega
      · cases htail with
        | inl htail => omega
        | inr htail => omega

/-! ### Runs that are not cut off -/

/-- The last pattern ends at the last offset, and nothing of it has been cut off. -/
structure Intact (back : TextFixupPattern) (lastOffset : Nat) : Prop where
  target_eq : back.target = 0
  pos : 0 < back.repeatCount
  last : back.startVmOffset + (back.repeatCount - 1) * back.skipCount = lastOffset
  lt : lastOffset < 2 ^ 32
  first : back.repeatCount = 1 → back.skipCount = 0

def TextRebases.Sound (s : TextRebases) : Prop :=
  ∀ back, s.textRebases.getLast? = some back → Intact back s.lastOffset

lemma intact_newPattern {offset : Nat} (h : offset < 2 ^ 32) : Intact (newPattern offset) offset where
  target_eq := rfl
  pos := Nat.one_pos
  last := by
    change offset % 2 ^ 32 + 0 = offset
    rw [Nat.mod_eq_of_lt h, Nat.add_zero]
  lt := h
  first := fun _ => rfl

section Merge

variable {lastOffset offset : Nat} {back back' : TextFixupPattern}

def MergeSpec (lastOffset offset : Nat) (back back' : TextFixupPattern) : Prop :=
  FitsLast lastOffset offset back ∧ back'.relocs = back.relocs ++ [.rebase offset] ∧
      Intact back' offset ∨
    ¬FitsLast lastOffset offset back ∧
      ((∃ r, r ≠ .rebase offset ∧ back'.relocs = back.relocs ++ [r]) ∨
        back'.relocs.length ≤ back.relocs.length)

lemma mergeSpec_startRun (hback : Intact back lastOffset) (hoffset : offset < 2 ^ 32)
    (hlt : lastOffset < offset) (hfirst : back.repeatCount = 1 ∧ back.skipCount = 0) :
    MergeSpec lastOffset offset back (back.startRun (offset - lastOffset)) := by
  have hrelocs := relocs_startRun hfirst.1 (offset - lastOffset)
  have hlast := hback.last
  rw [hfirst.1, Nat.sub_self, Nat.zero_mul, Nat.add_zero] at hlast
  have hreloc : (back.startRun (offset - lastOffset)).reloc 1 =
      .rebase ((lastOffset + (offset - lastOffset) % 2 ^ 16) % 2 ^ 32) := by
    change (if back.target = 0 then _ else _) = _
    rw [if_pos hback.target_eq, Nat.one_mul, ← hlast]
    rfl
  rw [hreloc] at hrelocs
  by_cases hfits : offset - lastOffset < 2 ^ 16
  · have hskip : (offset - lastOffset) % 2 ^ 16 = offset - lastOffset := Nat.mod_eq_of_lt hfits
    have hsum : (lastOffset + (offset - lastOffset)) % 2 ^ 32 = offset := by omega
    rw [hskip, hsum] at hrelocs
    refine Or.inl ⟨fun _ => by rwa [if_pos hfirst], hrelocs, hback.target_eq, Nat.two_pos, ?_,
      hoffset, fun htwo => absurd htwo (by simp [TextFixupPattern.startRun])⟩
    rw [TextFixupPattern.startRun]
    dsimp only
    omega
  · have hne : (lastOffset + (offset - lastOffset) % 2 ^ 16) % 2 ^ 32 ≠ offset := by omega
    refine Or.inr ⟨fun hfit => hfits ?_, Or.inl ⟨_, ?_, hrelocs⟩⟩
    · have hshort := hfit hlt
      rwa [if_pos hfirst] at hshort
    · rw [Ne, TextReloc.rebase.injEq]
      exact hne

lemma mergeSpec_goOn (hback : Intact back lastOffset) (hoffset : offset < 2 ^ 32)
    (hlt : lastOffset < offset) (hfirst : ¬(back.repeatCount = 1 ∧ back.skipCount = 0))
    (hskip : back.skipCount = offset - lastOffset) :
    MergeSpec lastOffset offset back back.goOn := by
  by_cases hfits : back.repeatCount + 1 < 2 ^ 16
  · have hcount : (back.repeatCount + 1) % 2 ^ 16 = back.repeatCount + 1 := Nat.mod_eq_of_lt hfits
    have hlast := hback.last
    have hend : back.startVmOffset + back.repeatCount * back.skipCount = offset := by
      obtain ⟨k, hk⟩ : ∃ k, back.repeatCount = k + 1 := ⟨back.repeatCount - 1, by have := hback.pos; omega⟩
      rw [hk, Nat.add_sub_cancel] at hlast
      rw [hk, Nat.succ_mul]
      omega
    have hreloc : back.goOn.reloc back.repeatCount = .rebase offset := by
      change (if back.target = 0 then TextReloc.rebase
        ((back.startVmOffset + back.repeatCount * back.skipCount) % 2 ^ 32) else _) = _
      rw [if_pos hback.target_eq, hend, Nat.mod_eq_of_lt hoffset]
    have hrelocs := relocs_goOn hfits
    rw [hreloc] at hrelocs
    refine Or.inl ⟨fun _ => by rw [if_neg hfirst]; exact fun _ => hfits, hrelocs, hback.target_eq, ?_,
      ?_, hoffset, ?_⟩
    · change 0 < (back.repeatCount + 1) % 2 ^ 16
      omega
    · change back.startVmOffset + ((back.repeatCount + 1) % 2 ^ 16 - 1) * back.skipCount = offset
      rw [hcount, Nat.add_sub_cancel, hend]
    · change (back.repeatCount + 1) % 2 ^ 16 = 1 → back.skipCount = 0
      have hpos := hback.pos
      omega
  · refine Or.inr ⟨fun hfit => ?_, Or.inr (length_relocs_goOn hfits)⟩
    have hshort := hfit hlt
    rw [if_neg hfirst] at hshort
    exact hfits (hshort hskip)

lemma mergeIntoPrevious_intact (hback : Intact back lastOffset) (hoffset : offset < 2 ^ 32)
    (h : mergeIntoPrevious lastOffset offset back = some back') :
    MergeSpec lastOffset offset back back' := by
  rw [mergeIntoPrevious] at h
  split at h
  · rename_i hlt
    have hgap : (offset - lastOffset) % 2 ^ 32 = offset - lastOffset := Nat.mod_eq_of_lt (by omega)
    dsimp only at h
    rw [hgap] at h
    split at h
    · rename_i hfirst
      exact Option.some.inj h ▸ mergeSpec_startRun hback hoffset hlt hfirst
    · rename_i hfirst
      split at h
      · rename_i hskip
        exact Option.some.inj h ▸ mergeSpec_goOn hback hoffset hlt hfirst hskip
      · exact absurd h (by simp)
  · exact absurd h (by simp)

lemma fitsLast_of_mergeIntoPrevious (hoffset : offset < 2 ^ 32)
    (h : mergeIntoPrevious lastOffset offset back = none) : FitsLast lastOffset offset back := by
  intro hlt
  have hgap : (offset - lastOffset) % 2 ^ 32 = offset - lastOffset := Nat.mod_eq_of_lt (by omega)
  rw [mergeIntoPrevious, if_pos hlt] at h
  dsimp only at h
  rw [hgap] at h
  split at h
  · exact absurd h (by simp)
  · rename_i hfirst
    rw [if_neg hfirst]
    intro hskip
    rw [if_pos hskip] at h
    exact absurd h (by simp)

end Merge

/-! ### All offsets -/

/-- What one offset does to patterns of which nothing was cut off. -/
lemma addTextRebase_cases {s : TextRebases} (hs : s.Sound) {offset : Nat} (hoffset : offset < 2 ^ 32) :
    (∀ back, s.textRebases.getLast? = some back → FitsLast s.lastOffset offset back) ∧
        forEachTextReloc (addTextRebase s offset).textRebases =
          forEachTextReloc s.textRebases ++ [.rebase offset] ∧ (addTextRebase s offset).Sound ∨
      (∃ back, s.textRebases.getLast? = some back ∧ ¬FitsLast s.lastOffset offset back) ∧
        ((∃ r, r ≠ .rebase offset ∧ forEachTextReloc (addTextRebase s offset).textRebases =
            forEachTextReloc s.textRebases ++ [r]) ∨
          (forEachTextReloc (addTextRebase s offset).textRebases).length ≤
            (forEachTextReloc s.textRebases).length) := by
  have hpush : forEachTextReloc (s.textRebases ++ [newPattern offset]) =
      forEachTextReloc s.textRebases ++ [.rebase offset] := by
    rw [forEachTextReloc_append, forEachTextReloc_singleton, relocs_newPattern hoffset]
  have hsound : ∀ {ps : List TextFixupPattern} {back : TextFixupPattern}, ps.getLast? = some back →
      Intact back offset → ∀ back', ps.getLast? = some back' → Intact back' offset := by
    intro ps back hlast hback back' hlast'
    rw [hlast, Option.some.injEq] at hlast'
    exact hlast' ▸ hback
  cases hlast : s.textRebases.getLast? with
  | none =>
    have hadd : (addTextRebase s offset).textRebases = s.textRebases ++ [newPattern offset] := by
      rw [addTextRebase, addOffset, hlast]
    rw [hadd, TextRebases.Sound, hadd]
    exact Or.inl ⟨by simp, hpush, hsound List.getLast?_concat (intact_newPattern hoffset)⟩
  | some back =>
    cases hmerge : mergeIntoPrevious s.lastOffset offset back with
    | none =>
      have hadd : (addTextRebase s offset).textRebases = s.textRebases ++ [newPattern offset] := by
        rw [addTextRebase, addOffset, hlast]
        dsimp only
        rw [hmerge]
      rw [hadd, TextRebases.Sound, hadd]
      refine Or.inl ⟨?_, hpush, hsound List.getLast?_concat (intact_newPattern hoffset)⟩
      rintro _ ⟨rfl⟩
      exact fitsLast_of_mergeIntoPrevious hoffset hmerge
    | some back' =>
      obtain ⟨earlier, hearlier⟩ := List.getLast?_eq_some_iff.mp hlast
      have hadd : (addTextRebase s offset).textRebases = earlier ++ [back'] := by
        rw [addTextRebase, addOffset, hlast]
        dsimp only
        rw [hmerge, hearlier]
        dsimp only
        rw [List.dropLast_concat]
      rw [hadd, TextRebases.Sound, hadd, hearlier, forEachTextReloc_append, forEachTextReloc_append,
        forEachTextReloc_singleton, forEachTextReloc_singleton]
      cases mergeIntoPrevious_intact (hs back hlast) hoffset hmerge with
      | inl hfits =>
        refine Or.inl ⟨?_, ?_, hsound List.getLast?_concat hfits.2.2⟩
        · rintro _ ⟨rfl⟩
          exact hfits.1
        · rw [hfits.2.1, List.append_assoc]
      | inr hcut =>
        refine Or.inr ⟨⟨back, rfl, hcut.1⟩, ?_⟩
        cases hcut.2 with
        | inl hwrong =>
          obtain ⟨r, hr, hrelocs⟩ := hwrong
          exact Or.inl ⟨r, hr, by rw [hrelocs, List.append_assoc]⟩
        | inr hlost => exact Or.inr (by simpa using hlost)

lemma addTextRebases_iff {s : TextRebases} (hs : s.Sound) (hroom : s.tooMany = false)
    {offsets : List Nat} (hoffsets : ∀ offset ∈ offsets, offset < 2 ^ 32) :
    (addTextRebases s offsets).tooMany = false ∧
        forEachTextReloc (addTextRebases s offsets).textRebases =
          forEachTextReloc s.textRebases ++ offsets.map .rebase ↔
      FitsAll s offsets := by
  induction offsets generalizing s with
  | nil => simp [addTextRebases, FitsAll, hroom]
  | cons offset rest ih =>
    obtain ⟨hoffset, hrest⟩ := List.forall_mem_cons.mp hoffsets
    have hmany : (addTextRebase s offset).tooMany = decide (maxCount - s.textRebases.length < 2) := rfl
    have hmax : maxCount = 512 := rfl
    rw [addTextRebases, FitsAll, Fits]
    by_cases hfull : s.textRebases.length + 2 ≤ maxCount
    · have hnext : (addTextRebase s offset).tooMany = false := by
        rw [hmany, decide_eq_false_iff_not]
        omega
      rw [if_neg (by simp [hnext])]
      cases addTextRebase_cases hs hoffset with
      | inl hfits =>
        obtain ⟨hlast, hreport, hsound⟩ := hfits
        rw [← ih hsound hnext hrest, hreport, List.append_assoc, List.map_cons]
        simp only [hfull, true_and]
        exact (and_iff_right hlast).symm
      | inr hcut =>
        obtain ⟨⟨back, hback, hnot⟩, hreport⟩ := hcut
        refine iff_of_false (fun h => ?_) (fun h => hnot (h.1.2 back hback))
        have hlength := congrArg List.length h.2
        rw [List.length_append, List.length_map, List.length_cons] at hlength
        have hfinal := addTextRebases_cases (addTextRebase s offset) rest
        cases hreport with
        | inl hwrong =>
          obtain ⟨r, hr, hreport⟩ := hwrong
          rw [hreport, List.length_append, List.length_singleton] at hfinal
          cases hfinal with
          | inl hpre =>
            -- the wrong entry stays where the offset is expected
            have hpre := hpre.1
            rw [h.2, List.prefix_append_right_inj, List.map_cons, List.cons_prefix_cons] at hpre
            exact hr hpre.1
          | inr hshort => omega
        | inr hlost =>
          cases hfinal with
          | inl hpre => omega
          | inr hshort => omega
    · have hnext : (addTextRebase s offset).tooMany = true := by
        rw [hmany, decide_eq_true_iff]
        omega
      rw [if_pos hnext]
      exact iff_of_false (fun h => absurd (hnext.symm.trans h.1) (by simp)) (fun h => hfull h.1.1)

theorem roundTrips_iff_fitsAll (offsets : List Nat) (hoffsets : ∀ offset ∈ offsets, offset < 2 ^ 32) :
    RoundTrips offsets ↔ FitsAll TextRebases.init offsets := by
  have hsound : TextRebases.init.Sound := by
    intro back hback
    exact absurd hback (by simp [TextRebases.init])
  exact addTextRebases_iff hsound rfl hoffsets

theorem roundTrips_three_offsets : RoundTrips [8, 4, 0x4000] :=
  (roundTrips_iff_fitsAll [8, 4, 0x4000] (by decide)).mpr (by
    refine ⟨⟨by decide, by simp [TextRebases.init]⟩, ⟨by decide, ?_⟩, ⟨by decide, ?_⟩, trivial⟩
    · rintro _ ⟨rfl⟩
      exact fun hlt => absurd hlt (by decide)
    · rintro _ ⟨rfl⟩
      exact fun _ => by decide)

/-- The gap of 65536 is stored as 0, so the first offset is reported twice. -/
theorem not_roundTrips_wide_gap :
    forEachTextReloc (addTextRebases TextRebases.init [0, 0x10000]).textRebases =
      [.rebase 0, .rebase 0] ∧ ¬RoundTrips [0, 0x10000] := by
  refine ⟨by decide, fun h => ?_⟩
  have hreport := h.2
  revert hreport
  decide

end Dyld.Closure.TextFixups
