import Dyld.Lib.FirstMax

/-!
# The symbol closest to an address

`MachOLoaded::findClosestSymbol` counts the sections up to the one that the address is in, and takes
the greatest symbol of that section which is not above the address. The count goes on to the last
section when there is none, and then the symbols of the last section are looked at.
-/

namespace Dyld.MachO.ClosestSymbol

open Dyld.Lib

/-- An `nlist_64`, or an `nlist` with its value extended. -/
structure NList where
  n_strx : UInt32
  n_type : UInt8
  n_sect : UInt8
  n_desc : UInt16
  n_value : UInt64

def N_STAB : UInt8 := 0xe0
def N_TYPE : UInt8 := 0x0e
def N_SECT : UInt8 := 0x0e
def N_ARM_THUMB_DEF : UInt16 := 0x0008

structure SectionInfo where
  sectAddr : UInt64
  sectSize : UInt64

/-- `leInfo.symTab` and `leInfo.dynSymTab`, with the symbols that `symoff` leads to. -/
structure SymbolTables where
  strsize : UInt32
  symbols : Nat → NList
  iextdefsym : UInt32
  nextdefsym : UInt32
  ilocalsym : UInt32
  nlocalsym : UInt32

/-- What the lookup sees of an image. `tables` is missing if the link-edit information is bad or one
of the tables is not there, `isArm` is `__arm__` of the build. -/
structure Image where
  is64 : Bool
  isArm : Bool
  slide : UInt64
  sections : List SectionInfo
  tables : Option SymbolTables

/-- What is written to `*symbolAddr` and `*symbolName` (as the offset in the string pool), and the
symbol that it is from. -/
structure FoundSymbol where
  symbol : NList
  symbolAddr : UInt64
  symbolName : Option UInt32

namespace SymbolTables

variable (tables : SymbolTables)

def globals : List NList :=
  (List.range tables.nextdefsym.toNat).map (fun i => tables.symbols (tables.iextdefsym.toNat + i))

def locals : List NList :=
  (List.range tables.nlocalsym.toNat).map (fun i => tables.symbols (tables.ilocalsym.toNat + i))

end SymbolTables

/-- The block of `forEachSection`: the sections up to the first one with the address are counted. -/
def sectionIndexForTargetAddress (targetUnslidAddress : UInt64) : List SectionInfo → Nat
  | [] => 0
  | sectInfo :: sections =>
    if sectInfo.sectAddr ≤ targetUnslidAddress ∧
        targetUnslidAddress < sectInfo.sectAddr + sectInfo.sectSize then 1
    else sectionIndexForTargetAddress targetUnslidAddress sections + 1

/-- The body of a loop over symbols, of which those with `scans` are looked at. -/
def visitSymbol (scans : NList → Bool) (targetUnslidAddress : UInt64) (sectionIndex : Nat)
    (bestSymbol : Option NList) (s : NList) : Option NList :=
  if scans s then
    match bestSymbol with
    | none =>
      if s.n_value ≤ targetUnslidAddress ∧ s.n_sect.toNat = sectionIndex then some s else none
    | some best =>
      if s.n_value ≤ targetUnslidAddress ∧ best.n_value < s.n_value ∧ s.n_sect.toNat = sectionIndex
      then some s else some best
  else bestSymbol

/-- The test of the loop over the global symbols. -/
def scansGlobal (s : NList) : Bool := s.n_type &&& N_TYPE = N_SECT

/-- The test of the loop over the local symbols. -/
def scansLocal (s : NList) : Bool := s.n_type &&& N_TYPE = N_SECT ∧ s.n_type &&& N_STAB = 0

namespace Image

variable (image : Image)

def foundSymbol (tables : SymbolTables) (bestSymbol : NList) : FoundSymbol where
  symbol := bestSymbol
  symbolAddr :=
    if !image.is64 && image.isArm && bestSymbol.n_desc &&& N_ARM_THUMB_DEF ≠ 0 then
      (bestSymbol.n_value ||| 1) + image.slide
    else bestSymbol.n_value + image.slide
  symbolName := if bestSymbol.n_strx < tables.strsize then some bestSymbol.n_strx else none

def findClosestSymbol (address : UInt64) : Option FoundSymbol :=
  match image.tables with
  | none => none
  | some tables =>
    let targetUnslidAddress := address - image.slide
    let sectionIndex := sectionIndexForTargetAddress targetUnslidAddress image.sections
    let bestSymbol := tables.globals.foldl (visitSymbol scansGlobal targetUnslidAddress sectionIndex) none
    let bestSymbol :=
      tables.locals.foldl (visitSymbol scansLocal targetUnslidAddress sectionIndex) bestSymbol
    bestSymbol.map (image.foundSymbol tables)

/-! ### What a lookup should find -/

end Image

def SectionInfo.Contains (sectInfo : SectionInfo) (targetUnslidAddress : UInt64) : Prop :=
  sectInfo.sectAddr.toNat ≤ targetUnslidAddress.toNat ∧
    targetUnslidAddress.toNat < sectInfo.sectAddr.toNat + sectInfo.sectSize.toNat

instance (sectInfo : SectionInfo) (targetUnslidAddress : UInt64) :
    Decidable (sectInfo.Contains targetUnslidAddress) := inferInstanceAs (Decidable (_ ∧ _))

def SectionInfo.Ends (sectInfo : SectionInfo) : Prop :=
  sectInfo.sectAddr.toNat + sectInfo.sectSize.toNat < 2 ^ 64

instance (sectInfo : SectionInfo) : Decidable sectInfo.Ends := inferInstanceAs (Decidable (_ < _))

namespace Image

variable (image : Image) (address : UInt64)

def InSection (index : Nat) : Prop :=
  ∃ k sectInfo, index = k + 1 ∧ image.sections[k]? = some sectInfo ∧
    sectInfo.Contains (address - image.slide)

def IsSymbol (s : NList) : Prop :=
  ∃ tables, image.tables = some tables ∧ s ∈ tables.globals ++ tables.locals

def Below (s : NList) : Prop :=
  image.IsSymbol s ∧ scansLocal s = true ∧ s.n_value ≤ address - image.slide

def Eligible (s : NList) : Prop :=
  image.Below address s ∧ image.InSection address s.n_sect.toNat

structure FindsClosest : Prop where
  found : (image.findClosestSymbol address).isSome = true ↔ ∃ s, image.Eligible address s
  value : ∀ r, image.findClosestSymbol address = some r →
    (∃ s, image.Eligible address s ∧ s.n_value = r.symbol.n_value) ∧
      ∀ s, image.Eligible address s → s.n_value ≤ r.symbol.n_value

end Image

/-! ### What a lookup finds -/

/-- The symbol is one that a loop takes, if it is the best so far. -/
def takes (scans : NList → Bool) (targetUnslidAddress : UInt64) (sectionIndex : Nat) (s : NList) :
    Bool :=
  scans s ∧ s.n_value ≤ targetUnslidAddress ∧ s.n_sect.toNat = sectionIndex

def value (s : NList) : Nat := s.n_value.toNat

lemma visitSymbol_eq (scans : NList → Bool) (targetUnslidAddress : UInt64) (sectionIndex : Nat)
    (bestSymbol : Option NList) (s : NList) :
    visitSymbol scans targetUnslidAddress sectionIndex bestSymbol s =
      if takes scans targetUnslidAddress sectionIndex s then keepBest value bestSymbol s
      else bestSymbol := by
  unfold visitSymbol takes
  by_cases hscans : scans s = true
  · by_cases hbelow : s.n_value ≤ targetUnslidAddress
    · by_cases hindex : s.n_sect.toNat = sectionIndex
      · cases bestSymbol with
        | none => simp [hscans, hbelow, hindex, keepBest]
        | some best =>
          by_cases hbetter : best.n_value < s.n_value
          · have hgreater : value best < value s := UInt64.lt_iff_toNat_lt.mp hbetter
            simp [hscans, hbelow, hindex, keepBest, hbetter, hgreater]
          · have hgreater : ¬value best < value s := fun h => hbetter (UInt64.lt_iff_toNat_lt.mpr h)
            simp [hscans, hbelow, hindex, keepBest, hbetter, hgreater]
      · cases bestSymbol with
        | none => simp [hscans, hindex]
        | some best => simp [hscans, hindex]
    · cases bestSymbol with
      | none => simp [hscans, hbelow]
      | some best => simp [hscans, hbelow]
  · simp [hscans]

/-- A loop goes on from the best of the symbols before it. -/
lemma foldl_visitSymbol (scans : NList → Bool) (targetUnslidAddress : UInt64) (sectionIndex : Nat)
    (before symbols : List NList) :
    symbols.foldl (visitSymbol scans targetUnslidAddress sectionIndex) (before.argmax value) =
      (before ++ symbols.filter (takes scans targetUnslidAddress sectionIndex)).argmax value := by
  induction symbols generalizing before with
  | nil => rw [List.filter_nil, List.append_nil, List.foldl_nil]
  | cons s symbols ih =>
    rw [List.foldl_cons, visitSymbol_eq]
    by_cases htakes : takes scans targetUnslidAddress sectionIndex s = true
    · rw [if_pos htakes, keepBest_argmax, ih, List.filter_cons_of_pos htakes, List.append_assoc,
        List.singleton_append]
    · rw [if_neg htakes, ih, List.filter_cons_of_neg htakes]

lemma SectionInfo.contains_iff (sectInfo : SectionInfo) (targetUnslidAddress : UInt64) :
    sectInfo.sectAddr ≤ targetUnslidAddress ∧
        targetUnslidAddress < sectInfo.sectAddr + sectInfo.sectSize ↔
      sectInfo.Contains targetUnslidAddress ∧ sectInfo.Ends := by
  have haddr := sectInfo.sectAddr.toNat_lt
  have hsize := sectInfo.sectSize.toNat_lt
  unfold Contains Ends
  rw [UInt64.le_iff_toNat_le, UInt64.lt_iff_toNat_lt, UInt64.toNat_add]
  omega

lemma sectionIndexForTargetAddress_eq (targetUnslidAddress : UInt64) (sections : List SectionInfo) :
    sectionIndexForTargetAddress targetUnslidAddress sections =
      match sections.findIdx? (fun s => s.Contains targetUnslidAddress ∧ s.Ends) with
      | some k => k + 1
      | none => sections.length := by
  induction sections with
  | nil => rfl
  | cons sectInfo sections ih =>
    rw [sectionIndexForTargetAddress, ih, List.findIdx?_cons]
    simp only [SectionInfo.contains_iff]
    by_cases hhas : sectInfo.Contains targetUnslidAddress ∧ sectInfo.Ends
    · simp [hhas]
    · rw [if_neg hhas, decide_eq_false hhas]
      cases sections.findIdx? (fun s => s.Contains targetUnslidAddress ∧ s.Ends) with
      | none => rfl
      | some k => rfl

namespace Image

variable (image : Image) (address : UInt64)

def sectionIndex : Nat :=
  match image.sections.findIdx? (fun s => s.Contains (address - image.slide) ∧ s.Ends) with
  | some k => k + 1
  | none => image.sections.length

def taken (tables : SymbolTables) : List NList :=
  tables.globals.filter (takes scansGlobal (address - image.slide) (image.sectionIndex address)) ++
    tables.locals.filter (takes scansLocal (address - image.slide) (image.sectionIndex address))

/-- The loops together keep the first one of the greatest value. -/
lemma findClosestSymbol_eq {tables : SymbolTables} (htables : image.tables = some tables) :
    image.findClosestSymbol address =
      ((image.taken address tables).argmax value).map (image.foundSymbol tables) := by
  unfold findClosestSymbol taken sectionIndex
  rw [htables, ← sectionIndexForTargetAddress_eq]
  have hglobals := foldl_visitSymbol scansGlobal (address - image.slide)
    (sectionIndexForTargetAddress (address - image.slide) image.sections) [] tables.globals
  rw [List.argmax_nil, List.nil_append] at hglobals
  simp only [hglobals, foldl_visitSymbol]

/-! ### When a lookup is right -/

/-- A symbol of the ranges that the loops look at: in the global one also a stab. -/
def Scanned (s : NList) : Prop :=
  ∃ tables, image.tables = some tables ∧
    (s ∈ tables.globals ∧ scansGlobal s = true ∨ s ∈ tables.locals ∧ scansLocal s = true)

/-- One that a loop takes, if it is the best so far. -/
def Taken (s : NList) : Prop :=
  image.Scanned s ∧ s.n_value ≤ address - image.slide ∧ s.n_sect.toNat = image.sectionIndex address

/-- The stabs of the section, its symbols if the address is not in it, and those of other sections
with the address change nothing: each is matched by one that is not below it. -/
structure Undisturbed : Prop where
  stabs : ∀ s, image.Taken address s → scansLocal s = false →
    ∃ t, image.Eligible address t ∧ s.n_value ≤ t.n_value
  counted : ¬image.InSection address (image.sectionIndex address) →
    ∀ s, image.Below address s → s.n_sect.toNat = image.sectionIndex address →
      ∃ t, image.Eligible address t ∧ s.n_value ≤ t.n_value
  others : ∀ s, image.Eligible address s → s.n_sect.toNat ≠ image.sectionIndex address →
    ∃ t, image.Taken address t ∧ s.n_value ≤ t.n_value

variable {image : Image} {address : UInt64}

lemma scansGlobal_of_scansLocal {s : NList} (h : scansLocal s = true) : scansGlobal s = true :=
  decide_eq_true (of_decide_eq_true h).1

lemma Scanned.of_isSymbol {s : NList} (h : image.IsSymbol s) (hscans : scansLocal s = true) :
    image.Scanned s := by
  obtain ⟨tables, htables, hmem⟩ := h
  cases List.mem_append.mp hmem with
  | inl hmem => exact ⟨tables, htables, Or.inl ⟨hmem, scansGlobal_of_scansLocal hscans⟩⟩
  | inr hmem => exact ⟨tables, htables, Or.inr ⟨hmem, hscans⟩⟩

lemma Scanned.isSymbol {s : NList} (h : image.Scanned s) : image.IsSymbol s := by
  obtain ⟨tables, htables, hmem⟩ := h
  exact ⟨tables, htables, List.mem_append.mpr (hmem.imp And.left And.left)⟩

lemma mem_taken {tables : SymbolTables} (htables : image.tables = some tables) (s : NList) :
    s ∈ image.taken address tables ↔ image.Taken address s := by
  unfold taken Taken Scanned
  simp only [htables, Option.some.injEq, exists_eq_left', List.mem_append, List.mem_filter, takes,
    decide_eq_true_eq]
  tauto

/-- The symbols that a lookup takes and the eligible ones are not above each other. -/
def Matched (image : Image) (address : UInt64) : Prop :=
  (∀ s, image.Taken address s → ∃ t, image.Eligible address t ∧ s.n_value ≤ t.n_value) ∧
    ∀ s, image.Eligible address s → ∃ t, image.Taken address t ∧ s.n_value ≤ t.n_value

lemma findClosestSymbol_of_taken {s : NList} (hs : image.Taken address s) :
    ∃ r, image.findClosestSymbol address = some r := by
  obtain ⟨tables, htables, -⟩ := hs.1
  have hmem := (mem_taken htables s).mpr hs
  obtain ⟨m, hm⟩ : ∃ m, (image.taken address tables).argmax value = some m := by
    refine Option.ne_none_iff_exists'.mp (fun hnone => ?_)
    rw [List.argmax_eq_none.mp hnone] at hmem
    cases hmem
  refine ⟨image.foundSymbol tables m, ?_⟩
  rw [findClosestSymbol_eq image address htables, hm, Option.map_some]

lemma taken_of_findClosestSymbol {r : FoundSymbol} (hr : image.findClosestSymbol address = some r) :
    image.Taken address r.symbol ∧
      ∀ s, image.Taken address s → s.n_value ≤ r.symbol.n_value := by
  cases htables : image.tables with
  | none => simp [findClosestSymbol, htables] at hr
  | some tables =>
    rw [findClosestSymbol_eq image address htables, Option.map_eq_some_iff] at hr
    obtain ⟨m, hm, rfl⟩ := hr
    refine ⟨(mem_taken htables m).mp (List.argmax_mem hm), fun s hs => ?_⟩
    have hle : value s ≤ value m := List.le_of_mem_argmax ((mem_taken htables s).mpr hs) hm
    exact UInt64.le_iff_toNat_le.mpr hle

lemma findsClosest_iff_matched : image.FindsClosest address ↔ Matched image address := by
  constructor
  · intro h
    constructor
    · intro s hs
      obtain ⟨r, hr⟩ := findClosestSymbol_of_taken hs
      obtain ⟨⟨t, ht, hvalue⟩, -⟩ := h.value r hr
      exact ⟨t, ht, hvalue ▸ (taken_of_findClosestSymbol hr).2 s hs⟩
    · intro s hs
      obtain ⟨r, hr⟩ := Option.isSome_iff_exists.mp (h.found.mpr ⟨s, hs⟩)
      exact ⟨r.symbol, (taken_of_findClosestSymbol hr).1, (h.value r hr).2 s hs⟩
  · intro ⟨htaken, heligible⟩
    constructor
    · rw [Option.isSome_iff_exists]
      constructor
      · intro ⟨r, hr⟩
        obtain ⟨t, ht, -⟩ := htaken r.symbol (taken_of_findClosestSymbol hr).1
        exact ⟨t, ht⟩
      · intro ⟨s, hs⟩
        obtain ⟨t, ht, -⟩ := heligible s hs
        exact findClosestSymbol_of_taken ht
    · intro r hr
      obtain ⟨hsymbol, hgreatest⟩ := taken_of_findClosestSymbol hr
      have hle : ∀ s, image.Eligible address s → s.n_value ≤ r.symbol.n_value := by
        intro s hs
        obtain ⟨t, ht, hst⟩ := heligible s hs
        exact UInt64.le_trans hst (hgreatest t ht)
      obtain ⟨t, ht, hrt⟩ := htaken r.symbol hsymbol
      exact ⟨⟨t, ht, UInt64.le_antisymm (hle t ht) hrt⟩, hle⟩

theorem findsClosest_iff (image : Image) (address : UInt64) :
    image.FindsClosest address ↔ image.Undisturbed address := by
  rw [findsClosest_iff_matched]
  constructor
  · intro ⟨htaken, heligible⟩
    refine ⟨fun s hs _ => htaken s hs, fun _ s hs hindex => ?_, fun s hs _ => heligible s hs⟩
    exact htaken s ⟨Scanned.of_isSymbol hs.1 hs.2.1, hs.2.2, hindex⟩
  · intro h
    constructor
    · intro s hs
      obtain ⟨hscanned, hle, hindex⟩ := hs
      cases hscans : scansLocal s with
      | false => exact h.stabs s ⟨hscanned, hle, hindex⟩ hscans
      | true =>
        have hbelow : image.Below address s := ⟨hscanned.isSymbol, hscans, hle⟩
        by_cases hin : image.InSection address (image.sectionIndex address)
        · exact ⟨s, ⟨hbelow, hindex ▸ hin⟩, UInt64.le_refl _⟩
        · exact h.counted hin s hbelow hindex
    · intro s hs
      by_cases hindex : s.n_sect.toNat = image.sectionIndex address
      · exact ⟨s, ⟨Scanned.of_isSymbol hs.1.1 hs.1.2.1, hs.1.2.2, hindex⟩, UInt64.le_refl _⟩
      · exact h.others s hs hindex

end Image

/-- One section with one symbol, and an address behind it. -/
def oneSection : Image where
  is64 := true
  isArm := false
  slide := 0
  sections := [⟨0x1000, 0x10⟩]
  tables := some ⟨8, fun _ => ⟨1, 0x0f, 1, 0, 0x1000⟩, 0, 1, 1, 0⟩

theorem oneSection_found : ¬oneSection.FindsClosest 0x2000 := by
  intro h
  have hsome : (oneSection.findClosestSymbol 0x2000).isSome = true := by decide
  obtain ⟨s, -, k, sectInfo, -, hsect, hcontains⟩ := h.found.mp hsome
  cases k with
  | zero =>
    obtain rfl : ⟨0x1000, 0x10⟩ = sectInfo := Option.some.inj hsect
    exact absurd hcontains.2 (by decide)
  | succ k => cases hsect

end Dyld.MachO.ClosestSymbol
