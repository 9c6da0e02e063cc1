import Dyld.MachO.Leb128

/-!
# Iterators over weak bind info

`ImageLoaderMachOCompressed` has no table of the symbols an image may coalesce. An iterator reads the
weak bind opcodes up to the next symbol, and the opcodes behind the symbol are read a second time
when its uses are bound. Pointers have 64 bits. What is bound before an error is not kept here.
-/

namespace Dyld.ImageLoader

open Dyld.MachO

inductive WeakBindError
  | leb (e : LebError)
  | segmentTooLarge
  | notWriteable
  | offsetBeyondSegment
  | badOpcode
  /-- A name that does not end in the stream. -/
  | outside
  /-- A loop with a counter of 32 bits and a bound that it never reaches. -/
  | endless
  deriving DecidableEq, Repr

/-- `segWriteable`, `segSize` and `segActualLoadAddress`. -/
structure Segment where
  writeable : Bool
  size : UInt64
  loadAddress : UInt64

structure WeakRegisters where
  address : UInt64 := 0
  type : Nat := 0
  addend : UInt64 := 0
  deriving DecidableEq, Repr

/-- What `bindLocation` is called with for each use. -/
structure WeakLocation where
  address : UInt64
  type : Nat
  addend : UInt64
  deriving DecidableEq, Repr

/-- `ImageLoader::CoalIterator`, with the bytes from `curIndex` on. -/
structure CoalIterator where
  symbolName : List UInt8
  loadOrder : Nat
  weakSymbol : Bool
  symbolMatches : Bool
  done : Bool
  rest : List UInt8
  regs : WeakRegisters
  deriving DecidableEq, Repr

/-- The image of an iterator. `exportedAddress` is what `findShallowExportedSymbol` and
`getExportedSymbolAddress` give for a name, or zero. -/
structure WeakImage where
  dyldInfo : Option (List UInt8)
  segments : List Segment
  exportedAddress : List UInt8 → UInt64
  stateBound : Bool
  weakSymbolsBound : Bool
  inSharedCache : Bool
  neverUnload : Bool

/-! ### Opcodes -/

def uleb (bytes : List UInt8) : Except WeakBindError (UInt64 × List UInt8) :=
  match readUleb128Pointer 64 bytes with
  | .error e => .error (.leb e)
  | .ok r => .ok (UInt64.ofNat r.1, r.2)

def sleb (bytes : List UInt8) : Except WeakBindError (UInt64 × List UInt8) :=
  match (readSleb128 bytes).orThrow with
  | .error e => .error (.leb e)
  | .ok r => .ok (UInt64.ofNat r.1, r.2)

/-- What an opcode binds, and what it leaves. -/
structure WeakTurn where
  locations : List WeakLocation
  regs : WeakRegisters
  rest : List UInt8

def WeakRegisters.location (r : WeakRegisters) : WeakLocation := ⟨r.address, r.type, r.addend⟩

def WeakRegisters.advance (r : WeakRegisters) (n : UInt64) : WeakRegisters :=
  { r with address := r.address + n }

/-- The opcodes that both loops treat alike. Only one of them binds the locations. -/
def weakTurn (segments : List Segment) (r : WeakRegisters) (opcode immediate : Nat)
    (bytes : List UInt8) : Except WeakBindError WeakTurn :=
  match opcode with
  | 5 => .ok ⟨[], { r with type := immediate }, bytes⟩
  | 6 => (sleb bytes).bind fun u => .ok ⟨[], { r with addend := u.1 }, u.2⟩
  | 7 =>
    match segments[immediate]? with
    | none => .error .segmentTooLarge
    | some seg =>
      if !seg.writeable then .error .notWriteable
      else (uleb bytes).bind fun u =>
        if seg.size < u.1 then .error .offsetBeyondSegment
        else .ok ⟨[], { r with address := seg.loadAddress + u.1 }, u.2⟩
  | 8 => (uleb bytes).bind fun u => .ok ⟨[], r.advance u.1, u.2⟩
  | 9 => .ok ⟨[r.location], r.advance 8, bytes⟩
  | 10 => (uleb bytes).bind fun u => .ok ⟨[r.location], r.advance (u.1 + 8), u.2⟩
  | 11 => .ok ⟨[r.location], r.advance (UInt64.ofNat immediate * 8 + 8), bytes⟩
  | 12 =>
    (uleb bytes).bind fun count =>
      (uleb count.2).bind fun skip =>
        if 2 ^ 32 ≤ count.1.toNat then .error .endless
        else .ok
          ⟨(List.range count.1.toNat).map
              fun i => (r.advance (UInt64.ofNat i * (skip.1 + 8))).location,
            r.advance (count.1 * (skip.1 + 8)), skip.2⟩
  | _ => .error .badOpcode

/-- `"~~~"`, which sorts to the end. -/
def endName : List UInt8 := [126, 126, 126]

def initializeCoalIterator (image : WeakImage) (loadOrder : Nat) : CoalIterator where
  symbolName := [32]
  loadOrder := loadOrder
  weakSymbol := false
  symbolMatches := false
  done := false
  rest := image.dyldInfo.getD []
  regs := {}

/-- The loop of `incrementCoalIterator` from `p` on. -/
def nextSymbol (segments : List Segment) :
    Nat → CoalIterator → List UInt8 → Except WeakBindError (CoalIterator × Bool)
  | fuel + 1, it, b :: bytes =>
    let immediate := b.toNat % 16
    match b.toNat / 16 with
    | 0 => .ok ({ it with done := true, rest := bytes, symbolName := endName }, true)
    | 4 =>
      if bytes.contains 0 then
        .ok ({ it with symbolName := bytes.takeWhile (· ≠ 0)
                       weakSymbol := !immediate.testBit 3
                       symbolMatches := false
                       rest := bytes.drop ((bytes.takeWhile (· ≠ 0)).length + 1) }, false)
      else .error .outside
    | opcode =>
      (weakTurn segments it.regs opcode immediate bytes).bind fun t =>
        nextSymbol segments fuel { it with regs := t.regs } t.rest
  -- BIND_OPCODE_DONE is missing
  | _, it, _ => .ok ({ it with done := true, symbolName := endName }, true)

/-- `ImageLoaderMachOCompressed::incrementCoalIterator`. It says whether the iterator has just come to
its end. -/
def incrementCoalIterator (image : WeakImage) (it : CoalIterator) :
    Except WeakBindError (CoalIterator × Bool) :=
  if it.done then .ok (it, false)
  else
    match image.dyldInfo with
    | none | some [] => .ok ({ it with done := true, symbolName := endName }, true)
    | some _ => nextSymbol image.segments it.rest.length it it.rest

/-- The loop of `updateUsesCoalIterator` from `p` on. -/
def usesOf (segments : List Segment) :
    Nat → WeakRegisters → List UInt8 → Except WeakBindError (List WeakLocation)
  | fuel + 1, r, b :: bytes =>
    match b.toNat / 16 with
    | 0 => .ok []
    | 4 => .ok []
    | opcode =>
      (weakTurn segments r opcode (b.toNat % 16) bytes).bind fun t =>
        (usesOf segments fuel t.regs t.rest).map (t.locations ++ ·)
  | _, _, _ => .ok []

def updateUsesCoalIterator (image : WeakImage) (it : CoalIterator) :
    Except WeakBindError (List WeakLocation) :=
  if !image.stateBound then .ok []
  else
    match image.dyldInfo with
    | none => .ok []
    | some _ => usesOf image.segments it.rest.length it.regs it.rest

/-! ### What the stream says -/

structure WeakSymbol where
  name : List UInt8
  weakDef : Bool
  locations : List WeakLocation

/-- The weak bind opcodes give these locations and then these symbols. -/
inductive Decodes (segments : List Segment) :
    WeakRegisters → List UInt8 → List WeakLocation → List WeakSymbol → Prop
  | ended (r : WeakRegisters) : Decodes segments r [] [] []
  | done {r : WeakRegisters} {b : UInt8} {bytes : List UInt8} (hdone : b.toNat / 16 = 0) :
    Decodes segments r (b :: bytes) [] []
  | symbol {r : WeakRegisters} {b : UInt8} {bytes : List UInt8} {locations : List WeakLocation}
    {symbols : List WeakSymbol} (hsymbol : b.toNat / 16 = 4) (hterminated : bytes.contains 0 = true)
    (hrest : Decodes segments r (bytes.drop ((bytes.takeWhile (· ≠ 0)).length + 1)) locations symbols) :
    Decodes segments r (b :: bytes) []
      (⟨bytes.takeWhile (· ≠ 0), !(b.toNat % 16).testBit 3, locations⟩ :: symbols)
  | opcode {r : WeakRegisters} {b : UInt8} {bytes : List UInt8} {t : WeakTurn}
    {locations : List WeakLocation} {symbols : List WeakSymbol} (hdone : b.toNat / 16 ≠ 0)
    (hsymbol : b.toNat / 16 ≠ 4)
    (hturn : weakTurn segments r (b.toNat / 16) (b.toNat % 16) bytes = .ok t)
    (hrest : Decodes segments t.regs t.rest locations symbols) :
    Decodes segments r (b :: bytes) (t.locations ++ locations) symbols

lemma uleb_rest_le {bytes : List UInt8} {u : UInt64 × List UInt8} (h : uleb bytes = .ok u) :
    u.2.length ≤ bytes.length := by
  have hle := readUleb128_rest_le bytes
  unfold uleb readUleb128Pointer LebRead.orThrow at h
  cases herror : (readUleb128 bytes).error with
  | some e =>
    simp only [herror] at h
    cases h
  | none =>
    simp only [herror] at h
    cases h
    exact hle

lemma sleb_rest_le {bytes : List UInt8} {u : UInt64 × List UInt8} (h : sleb bytes = .ok u) :
    u.2.length ≤ bytes.length := by
  have hle := readSleb128_rest_le bytes
  unfold sleb LebRead.orThrow at h
  cases herror : (readSleb128 bytes).error with
  | some e =>
    simp only [herror] at h
    cases h
  | none =>
    simp only [herror] at h
    cases h
    exact hle

lemma bind_eq_ok {ε α β : Type} {x : Except ε α} {f : α → Except ε β} {b : β}
    (h : x.bind f = .ok b) : ∃ a, x = .ok a ∧ f a = .ok b := by
  cases x with
  | error e => cases h
  | ok a => exact ⟨a, rfl, h⟩

lemma weakTurn_rest_le {segments : List Segment} {r : WeakRegisters} {opcode immediate : Nat}
    {bytes : List UInt8} {t : WeakTurn} (h : weakTurn segments r opcode immediate bytes = .ok t) :
    t.rest.length ≤ bytes.length := by
  unfold weakTurn at h
  split at h
  · cases h
    exact le_rfl
  · obtain ⟨u, hu, h⟩ := bind_eq_ok h
    cases h
    exact sleb_rest_le hu
  · split at h
    · cases h
    · split_ifs at h with hwriteable
      obtain ⟨u, hu, h⟩ := bind_eq_ok h
      split_ifs at h with hsize
      cases h
      exact uleb_rest_le hu
  · obtain ⟨u, hu, h⟩ := bind_eq_ok h
    cases h
    exact uleb_rest_le hu
  · cases h
    exact le_rfl
  · obtain ⟨u, hu, h⟩ := bind_eq_ok h
    cases h
    exact uleb_rest_le hu
  · cases h
    exact le_rfl
  · obtain ⟨count, hcount, h⟩ := bind_eq_ok h
    obtain ⟨skip, hskip, h⟩ := bind_eq_ok h
    split_ifs at h with hendless
    cases h
    exact (uleb_rest_le hskip).trans (uleb_rest_le hcount)
  · cases h

variable {segments : List Segment}

lemma exists_fuel {b : UInt8} {bytes : List UInt8} {fuel : Nat} (h : (b :: bytes).length ≤ fuel) :
    ∃ n, fuel = n + 1 ∧ bytes.length ≤ n :=
  ⟨fuel - 1, by rw [List.length_cons] at h; omega, by rw [List.length_cons] at h; omega⟩

lemma usesOf_of_decodes {r : WeakRegisters} {bytes : List UInt8} {locations : List WeakLocation}
    {symbols : List WeakSymbol} (h : Decodes segments r bytes locations symbols) {fuel : Nat}
    (hfuel : bytes.length ≤ fuel) : usesOf segments fuel r bytes = .ok locations := by
  induction h generalizing fuel with
  | ended r =>
    cases fuel <;> rfl
  | @done r b bytes hdone =>
    obtain ⟨fuel, rfl, -⟩ := exists_fuel hfuel
    rw [usesOf, hdone]
    rfl
  | @symbol r b bytes locations symbols hsymbol _ _ _ =>
    obtain ⟨fuel, rfl, -⟩ := exists_fuel hfuel
    rw [usesOf, hsymbol]
    rfl
  | @opcode r b bytes t locations symbols hdone hsymbol hturn _ ih =>
    obtain ⟨fuel, rfl, hle⟩ := exists_fuel hfuel
    have hrest := @ih fuel ((weakTurn_rest_le hturn).trans hle)
    rw [usesOf]
    split
    · exact absurd ‹_› hdone
    · exact absurd ‹_› hsymbol
    · rw [hturn]
      change Except.map _ (usesOf segments fuel t.regs t.rest) = _
      rw [hrest]
      rfl

lemma nextSymbol_of_decodes {r : WeakRegisters} {bytes : List UInt8} {locations : List WeakLocation}
    {symbols : List WeakSymbol} (h : Decodes segments r bytes locations symbols) {fuel : Nat}
    (hfuel : bytes.length ≤ fuel) {it : CoalIterator} (hregs : it.regs = r) :
    (symbols = [] → ∃ it', nextSymbol segments fuel it bytes = .ok (it', true) ∧ it'.done = true ∧
      it'.symbolName = endName) ∧
    ∀ symbol rest, symbols = symbol :: rest →
      ∃ it', nextSymbol segments fuel it bytes = .ok (it', false) ∧ it'.done = it.done ∧
        it'.symbolName = symbol.name ∧ it'.weakSymbol = symbol.weakDef ∧ it'.symbolMatches = false ∧
        Decodes segments it'.regs it'.rest symbol.locations rest := by
  induction h generalizing fuel it with
  | ended r =>
    refine ⟨fun _ => ?_, by simp⟩
    cases fuel <;> exact ⟨_, rfl, rfl, rfl⟩
  | @done r b bytes hdone =>
    obtain ⟨fuel, rfl, -⟩ := exists_fuel hfuel
    rw [nextSymbol, hdone]
    exact ⟨fun _ => ⟨_, rfl, rfl, rfl⟩, by simp⟩
  | @symbol r b bytes locations symbols hsymbol hterminated hrest _ =>
    obtain ⟨fuel, rfl, -⟩ := exists_fuel hfuel
    rw [nextSymbol, hsymbol, if_pos hterminated]
    refine ⟨by simp, ?_⟩
    rintro symbol rest ⟨rfl, rfl⟩
    exact ⟨_, rfl, rfl, rfl, rfl, rfl, hregs ▸ hrest⟩
  | @opcode r b bytes t locations symbols hdone hsymbol hturn _ ih =>
    obtain ⟨fuel, rfl, hle⟩ := exists_fuel hfuel
    have hrest := @ih fuel ((weakTurn_rest_le hturn).trans hle) { it with regs := t.regs } rfl
    rw [nextSymbol]
    split
    · exact absurd ‹_› hdone
    · exact absurd ‹_› hsymbol
    · rw [hregs, hturn]
      exact hrest

/-! ### Where an iterator stands -/

def WeakImage.HasSymbols (image : WeakImage) (symbols : List WeakSymbol) : Prop :=
  ∃ locations, Decodes image.segments {} (image.dyldInfo.getD []) locations symbols

def CoalIterator.At (image : WeakImage) (it : CoalIterator) (locations : List WeakLocation)
    (symbols : List WeakSymbol) : Prop :=
  Decodes image.segments it.regs it.rest locations symbols ∧
    (image.dyldInfo.getD [] = [] → it.rest = [] ∧ symbols = [])

lemma incrementCoalIterator_of_nonempty {image : WeakImage} {it : CoalIterator}
    (hdone : it.done = false) (h : image.dyldInfo.getD [] ≠ []) :
    incrementCoalIterator image it = nextSymbol image.segments it.rest.length it it.rest := by
  unfold incrementCoalIterator
  rw [if_neg (by rw [hdone]; exact Bool.false_ne_true)]
  split
  · rename_i hinfo
    exact absurd (by rw [hinfo]; rfl) h
  · rename_i hinfo
    exact absurd (by rw [hinfo]; rfl) h
  · rfl

lemma increment_nil {image : WeakImage} {it : CoalIterator} {locations : List WeakLocation}
    (h : it.At image locations []) (hdone : it.done = false) :
    ∃ it', incrementCoalIterator image it = .ok (it', true) ∧ it'.done = true ∧
      it'.symbolName = endName := by
  by_cases hempty : image.dyldInfo.getD [] = []
  · refine ⟨{ it with done := true, symbolName := endName }, ?_, rfl, rfl⟩
    unfold incrementCoalIterator
    rw [if_neg (by rw [hdone]; exact Bool.false_ne_true)]
    split
    · rfl
    · rfl
    · rename_i hnone hinfo
      rw [hinfo] at hempty
      exact absurd hempty hnone
  · rw [incrementCoalIterator_of_nonempty hdone hempty]
    exact (nextSymbol_of_decodes h.1 le_rfl rfl).1 rfl

lemma increment_cons {image : WeakImage} {it : CoalIterator} {locations : List WeakLocation}
    {symbol : WeakSymbol} {symbols : List WeakSymbol} (h : it.At image locations (symbol :: symbols))
    (hdone : it.done = false) :
    ∃ it', incrementCoalIterator image it = .ok (it', false) ∧ it'.done = false ∧
      it'.symbolName = symbol.name ∧ it'.weakSymbol = symbol.weakDef ∧ it'.symbolMatches = false ∧
      it'.At image symbol.locations symbols := by
  have hempty : image.dyldInfo.getD [] ≠ [] := by
    intro hempty
    cases (h.2 hempty).2
  obtain ⟨it', hit', hdone', hname, hweak, hmatches, hrest⟩ :=
    (nextSymbol_of_decodes h.1 (le_refl it.rest.length) rfl).2 symbol symbols rfl
  refine ⟨it', ?_, hdone'.trans hdone, hname, hweak, hmatches, hrest, fun heq => absurd heq hempty⟩
  rw [incrementCoalIterator_of_nonempty hdone hempty]
  exact hit'

lemma updateUses_of_at {image : WeakImage} {it : CoalIterator} {locations : List WeakLocation}
    {symbols : List WeakSymbol} (h : it.At image locations symbols) :
    updateUsesCoalIterator image it =
      .ok (if image.stateBound then locations else []) := by
  unfold updateUsesCoalIterator
  by_cases hbound : image.stateBound = true
  · rw [if_neg (by simp [hbound]), if_pos hbound]
    split
    · rename_i hinfo
      have hrest := (h.2 (by rw [hinfo]; rfl)).1
      have hdecodes := h.1
      rw [hrest] at hdecodes
      cases hdecodes
      rfl
    · exact usesOf_of_decodes h.1 le_rfl
  · rw [if_pos (by simpa using hbound), if_neg hbound]

end Dyld.ImageLoader
