import Dyld.Cache.CodeSign

/-!
# A cache file matches its signature

The blobs of a signature stand one behind the other, so what is written to one of them stays there.
Every page of the file finds its range, and its digests their slots, in whatever order the pages are
hashed; only the first page changes afterwards, and it is hashed again.
-/

namespace Dyld.Cache.CodeSign

open Dyld.Lib

namespace SharedCacheBuilder

variable (b : SharedCacheBuilder)

/-! ### The blobs -/

/-- The header, the identifier, the special slots and the page slots of a code directory. -/
def directoryBlobs (d : Directory) : List (Nat × Nat) :=
  [(d.offset, idOffset), (d.offset + idOffset, b.idSize), (d.reqsHashSlot, d.hashSize),
    (d.reqsHashSlot + d.hashSize, d.hashSize), (d.offset + d.hashOffset, b.slotCount * d.hashSize)]

def blobs : List (Nat × Nat) :=
  [(0, b.cdOffset)] ++ b.directories.flatMap b.directoryBlobs ++
    [(b.reqsOffset, reqsSize), (b.cmsOffset, cmsSize)]

/-- The hashes of a code directory end where it ends. -/
structure WellFormed (d : Directory) : Prop where
  hashOffset : d.hashOffset = idOffset + b.idSize + d.hashSize * xSlotCount
  size : d.size = d.hashOffset + b.slotCount * d.hashSize
  hashSize : d.hashSize = d.format.size

variable {b} {d e : Directory}

lemma WellFormed.reqsHashSlot (hd : b.WellFormed d) :
    d.reqsHashSlot = d.offset + idOffset + b.idSize := by
  have hoffset := hd.hashOffset
  unfold Directory.reqsHashSlot CSSLOT_REQUIREMENTS
  unfold xSlotCount CSSLOT_REQUIREMENTS at hoffset
  omega

lemma WellFormed.stacked (hd : b.WellFormed d) :
    Stacked d.offset (b.directoryBlobs d) (d.offset + d.size) := by
  have hslot := hd.reqsHashSlot
  have hoffset := hd.hashOffset
  have hsize := hd.size
  unfold xSlotCount CSSLOT_REQUIREMENTS at hoffset
  refine ⟨rfl, rfl, hslot, ?_, ?_, ?_⟩
  · change d.reqsHashSlot + d.hashSize = d.offset + idOffset + b.idSize + d.hashSize
    rw [hslot]
  · change d.offset + d.hashOffset = d.offset + idOffset + b.idSize + d.hashSize + d.hashSize
    omega
  · change d.offset + idOffset + b.idSize + d.hashSize + d.hashSize + b.slotCount * d.hashSize = _
    omega

section Layout

variable (htotal : b.inBbufferSize < 2 ^ 32)
include htotal

lemma slotCount_le : b.slotCount ≤ 2 ^ 20 := by
  refine (Nat.mod_le _ _).trans (Nat.lt_succ_iff.mp (Nat.div_lt_of_lt_mul ?_))
  cases b.csPageSize_eq with
  | inl h =>
    rw [h, CS_PAGE_SIZE_4K]
    omega
  | inr h =>
    rw [h, CS_PAGE_SIZE_16K]
    omega

lemma wellFormed_cd : b.WellFormed b.cd := by
  have hslots := slotCount_le htotal
  have hsize : b.dscHashSize = b.dscDigestFormat.size ∧ b.dscHashSize ≤ 32 := by
    unfold dscHashSize dscDigestFormat
    split
    all_goals exact ⟨rfl, by decide⟩
  have hprod : b.slotCount * b.dscHashSize ≤ 2 ^ 20 * 32 := Nat.mul_le_mul hslots hsize.2
  refine ⟨rfl, ?_, hsize.1⟩
  change b.hashOffset + b.slotCount * b.dscHashSize % 2 ^ 32 = _
  rw [Nat.mod_eq_of_lt (by omega)]
  rfl

lemma wellFormed_cd256 (hagile : b.agile = true) : b.WellFormed b.cd256 := by
  have hslots := slotCount_le htotal
  refine ⟨rfl, ?_, rfl⟩
  change b.cd256Size = b.hash256Offset + b.slotCount * CS_HASH_SIZE_SHA256
  rw [cd256Size, if_pos hagile, CS_HASH_SIZE_SHA256, Nat.mod_eq_of_lt (by omega)]

lemma wellFormed_of_mem (hd : d ∈ b.directories) : b.WellFormed d := by
  unfold directories at hd
  split at hd
  · rename_i hagile
    simp only [List.mem_cons, List.not_mem_nil, or_false] at hd
    cases hd with
    | inl heq =>
      rw [heq]
      exact wellFormed_cd htotal
    | inr heq =>
      rw [heq]
      exact wellFormed_cd256 htotal hagile
  · rw [List.mem_singleton] at hd
    rw [hd]
    exact wellFormed_cd htotal

lemma stacked_directories :
    Stacked b.cdOffset (b.directories.flatMap b.directoryBlobs) b.reqsOffset := by
  have hcd := (wellFormed_cd htotal).stacked
  unfold directories reqsOffset cd256Size
  split
  · rename_i hagile
    have hcd256 := (wellFormed_cd256 htotal hagile).stacked
    have hsize : b.cd256.size = b.hash256Offset + b.slotCount * CS_HASH_SIZE_SHA256 % 2 ^ 32 := by
      change b.cd256Size = _
      rw [cd256Size, if_pos hagile]
    rw [hsize] at hcd256
    rw [List.flatMap_cons, List.flatMap_cons, List.flatMap_nil, List.append_nil]
    exact hcd.append hcd256
  · rw [List.flatMap_cons, List.flatMap_nil, List.append_nil]
    exact hcd

/-- The blobs of the signature stand one behind the other. -/
lemma stacked_blobs : Stacked 0 b.blobs b.sbSize := by
  refine Stacked.append (Stacked.append ?_ (stacked_directories htotal)) ?_
  · exact ⟨rfl, Nat.zero_add _⟩
  · exact ⟨rfl, rfl, rfl⟩

end Layout

lemma sbSize_le_sigSize : b.sbSize ≤ b.sigSize := by
  unfold sigSize align
  omega

/-! ### What is written before pages are hashed -/

variable {cc : CommonCrypto}

lemma length_toBytes (cd : CS_CodeDirectory) : cd.toBytes.length = sizeofCodeDirectory := by
  unfold CS_CodeDirectory.toBytes sizeofCodeDirectory
  simp only [List.length_append, length_numBytes]

lemma length_superBlob : b.superBlob.toBytes.length = b.cdOffset := by
  unfold cdOffset blobCount superBlob CS_SuperBlob.toBytes
  split
  all_goals simp [sizeofSuperBlob, sizeofBlobIndex]

lemma span_directoryWrites (hd : b.WellFormed d) :
    (b.directoryWrites cc d).map span = (b.directoryBlobs d).take 3 := by
  simp only [directoryWrites, directoryBlobs, span, List.map_cons, List.map_nil, List.take_succ_cons,
    List.take_zero, length_toBytes, cc.length_CCDigest, hd.hashSize, List.length_append,
    List.length_singleton]
  rfl

lemma span_flatMap_sublist {ds : List Directory} (h : ∀ d ∈ ds, b.WellFormed d) :
    List.Sublist ((ds.flatMap (b.directoryWrites cc)).map span) (ds.flatMap b.directoryBlobs) := by
  induction ds with
  | nil => exact List.Sublist.refl _
  | cons d ds ih =>
    rw [List.flatMap_cons, List.flatMap_cons, List.map_append,
      span_directoryWrites (h d List.mem_cons_self)]
    exact (List.take_sublist 3 _).append (ih (fun e he => h e (List.mem_cons_of_mem d he)))

lemma pairwise_signatureWrites (htotal : b.inBbufferSize < 2 ^ 32) :
    ((b.signatureWrites cc).map span).Pairwise BlobsApart := by
  have hblobs : ([(0, b.cdOffset), (b.reqsOffset, reqsSize)] ++
      b.directories.flatMap b.directoryBlobs ++ [(b.cmsOffset, cmsSize)]).Pairwise BlobsApart := by
    have hperm : b.blobs.Perm ([(0, b.cdOffset), (b.reqsOffset, reqsSize)] ++
        b.directories.flatMap b.directoryBlobs ++ [(b.cmsOffset, cmsSize)]) :=
      List.Perm.cons _ List.perm_middle
    exact hperm.pairwise (stacked_blobs htotal).pairwise (fun hab => hab.symm)
  refine hblobs.sublist ?_
  have hdirs : List.Sublist ((b.directories.flatMap (b.directoryWrites cc)).map span)
      (b.directories.flatMap b.directoryBlobs) :=
    span_flatMap_sublist (fun d hd => wellFormed_of_mem htotal hd)
  rw [signatureWrites, List.map_append, List.map_append]
  refine (List.Sublist.append ?_ hdirs).append ?_
  · rw [List.map_cons, List.map_cons, List.map_nil, span, length_superBlob]
    exact List.Sublist.refl _
  · exact List.Sublist.refl _

/-! ### Slots of pages -/

lemma directories_bounds (hd : d ∈ b.directories) :
    b.cdOffset ≤ d.offset ∧ d.offset + d.size ≤ b.reqsOffset := by
  unfold directories at hd
  unfold reqsOffset
  split at hd
  · simp only [List.mem_cons, List.not_mem_nil, or_false] at hd
    cases hd with
    | inl heq =>
      subst heq
      exact ⟨Nat.le_refl _, Nat.le_add_right _ _⟩
    | inr heq =>
      subst heq
      exact ⟨Nat.le_add_right _ _, Nat.le_refl _⟩
  · rw [List.mem_singleton] at hd
    subst hd
    exact ⟨Nat.le_refl _, Nat.le_add_right _ _⟩

lemma pairwise_directories : b.directories.Pairwise (fun d e => d.offset + d.size ≤ e.offset) := by
  unfold directories
  split
  · rw [List.pairwise_pair]
    exact Nat.le_refl _
  · exact List.pairwise_singleton _ _

lemma WellFormed.slot (hd : b.WellFormed d) {i : Nat} (hi : i < b.slotCount) :
    d.offset + d.hashOffset ≤ d.hashSlot i ∧ d.hashSlot i + d.hashSize ≤ d.offset + d.size := by
  have hnext : (i + 1) * d.hashSize ≤ b.slotCount * d.hashSize := Nat.mul_le_mul_right _ hi
  have hsize := hd.size
  rw [Nat.add_mul, Nat.one_mul] at hnext
  unfold Directory.hashSlot
  omega

lemma eq_or_apart (hd : d ∈ b.directories) (he : e ∈ b.directories) :
    d = e ∨ BlobsApart (d.offset, d.size) (e.offset, e.size) := by
  have hpairs : b.directories.Pairwise (fun d e => BlobsApart (d.offset, d.size) (e.offset, e.size)) :=
    pairwise_directories.imp (fun hde => Or.inl hde)
  have : Std.Symm (fun d e : Directory => BlobsApart (d.offset, d.size) (e.offset, e.size)) :=
    ⟨fun _ _ hde => hde.symm⟩
  by_cases heq : d = e
  · exact Or.inl heq
  · exact Or.inr (hpairs.forall hd he heq)

/-- Slots of different pages or of different code directories share no byte. -/
lemma slots_apart (htotal : b.inBbufferSize < 2 ^ 32) (hd : d ∈ b.directories) (he : e ∈ b.directories)
    {i j : Nat} (hi : i < b.slotCount) (hj : j < b.slotCount) (hne : i ≠ j ∨ d ≠ e) :
    BlobsApart (d.hashSlot i, d.hashSize) (e.hashSlot j, e.hashSize) := by
  have hdslot := (wellFormed_of_mem htotal hd).slot hi
  have heslot := (wellFormed_of_mem htotal he).slot hj
  cases eq_or_apart hd he with
  | inl heq =>
    subst heq
    have hij : i ≠ j := hne.resolve_right (fun h => h rfl)
    unfold BlobsApart Directory.hashSlot
    cases Nat.lt_or_gt_of_ne hij with
    | inl hlt =>
      have hnext : (i + 1) * d.hashSize ≤ j * d.hashSize := Nat.mul_le_mul_right _ hlt
      rw [Nat.add_mul, Nat.one_mul] at hnext
      left
      change d.offset + d.hashOffset + i * d.hashSize + d.hashSize ≤ _
      omega
    | inr hgt =>
      have hnext : (j + 1) * d.hashSize ≤ i * d.hashSize := Nat.mul_le_mul_right _ hgt
      rw [Nat.add_mul, Nat.one_mul] at hnext
      right
      change d.offset + d.hashOffset + j * d.hashSize + d.hashSize ≤ _
      omega
  | inr hapart =>
    unfold BlobsApart at *
    simp only at *
    omega

lemma directoryWrites_bounds (hd : b.WellFormed d) {w : Nat × List UInt8} (hw : w ∈ b.directoryWrites cc d) :
    d.offset ≤ w.1 ∧ w.1 + w.2.length ≤ d.offset + d.hashOffset := by
  have hmem : span w ∈ (b.directoryBlobs d).take 3 := by
    rw [← @span_directoryWrites b d cc hd]
    exact List.mem_map_of_mem hw
  have hslot := hd.reqsHashSlot
  have hoffset := hd.hashOffset
  unfold xSlotCount CSSLOT_REQUIREMENTS at hoffset
  simp only [directoryBlobs, List.take_succ_cons, List.take_zero, List.mem_cons, List.not_mem_nil,
    or_false, span, Prod.mk.injEq, hslot] at hmem
  omega

lemma signatureWrites_apart (htotal : b.inBbufferSize < 2 ^ 32) {w : Nat × List UInt8}
    (hw : w ∈ b.signatureWrites cc) (hd : d ∈ b.directories) {i : Nat} (hi : i < b.slotCount) :
    BlobsApart (span w) (d.hashSlot i, d.hashSize) := by
  have hslot := (wellFormed_of_mem htotal hd).slot hi
  have hbounds := directories_bounds hd
  have hcms : b.cmsOffset = b.reqsOffset + reqsSize := rfl
  simp only [signatureWrites, List.mem_append, List.mem_cons, List.not_mem_nil, or_false,
    List.mem_flatMap] at hw
  unfold BlobsApart span
  simp only
  rcases hw with ((hw | hw) | ⟨e, he, hw⟩) | hw
  · rw [hw, length_superBlob]
    omega
  · rw [hw]
    omega
  · have hwrite := directoryWrites_bounds (wellFormed_of_mem htotal he) hw
    have hesize := (wellFormed_of_mem htotal he).size
    cases eq_or_apart hd he with
    | inl heq =>
      subst heq
      omega
    | inr hapart =>
      unfold BlobsApart at hapart
      simp only at hapart
      omega
  · rw [hw]
    omega

/-! ### Pages -/

/-- Every region consists of whole pages. -/
def PageMultiples (b : SharedCacheBuilder) : Prop := ∀ p ∈ b.pieces, b.csPageSize ∣ p.1

def page (b : SharedCacheBuilder) (i : Nat) : List UInt8 :=
  readBytes (pieceByte b.pieces) (i * b.csPageSize) b.csPageSize

def pageWrites (b : SharedCacheBuilder) (cc : CommonCrypto) (i : Nat) : List (Nat × List UInt8) :=
  b.directories.map (fun d => (d.hashSlot i, cc.CCDigest d.format (b.page i)))

lemma csPageSize_ge (b : SharedCacheBuilder) : 4096 ≤ b.csPageSize := by
  have hsize := b.csPageSize_eq
  unfold CS_PAGE_SIZE_4K CS_PAGE_SIZE_16K at hsize
  omega

lemma piecesSize_append (ps qs : List Piece) : piecesSize (ps ++ qs) = piecesSize ps + piecesSize qs := by
  rw [piecesSize, List.map_append, List.sum_append]
  rfl

lemma piecesSize_dataRegions (b : SharedCacheBuilder) :
    piecesSize (b.dataRegions.map pieceOf) = b.dataRegionsSizeInUse := by
  rw [piecesSize, List.map_map]
  rfl

lemma piecesSize_pieces (b : SharedCacheBuilder) : piecesSize b.pieces = b.inBbufferSize := by
  have hlocal : piecesSize b.localSymbolsPieces = b.localSymbolsRegion.sizeInUse := by
    unfold localSymbolsPieces
    split
    · exact List.sum_singleton
    · rename_i hzero
      exact (Decidable.not_not.mp hzero).symm
  unfold pieces inBbufferSize
  rw [piecesSize_append, piecesSize_append, piecesSize_append, piecesSize_dataRegions, hlocal]
  rfl

lemma find_slotRanges {pageSize i start : Nat} {ps : List Piece} (hps : ∀ p ∈ ps, pageSize ∣ p.1)
    (hstart : start ≤ i) (hi : (i - start) * pageSize < piecesSize ps) (hpos : 0 < pageSize) :
    ∃ r, (slotRanges pageSize start ps).find? (fun r => r.start ≤ i && i < r.stop) = some r ∧
      readBytes r.buffer ((i - r.start) * pageSize) pageSize =
        readBytes (pieceByte ps) ((i - start) * pageSize) pageSize := by
  induction ps generalizing start with
  | nil => exact absurd hi (Nat.not_lt_zero _)
  | cons p ps ih =>
    obtain ⟨n, hn⟩ := hps p List.mem_cons_self
    have hdiv : p.1 / pageSize = n := by rw [hn, Nat.mul_div_cancel_left n hpos]
    have hsum : piecesSize (p :: ps) = p.1 + piecesSize ps := List.sum_cons
    rw [slotRanges, hdiv]
    by_cases hin : i < start + n
    · refine ⟨⟨start, start + n, p.2⟩, List.find?_cons_of_pos (by simp [hstart, hin]), ?_⟩
      have hend : (i - start + 1) * pageSize ≤ n * pageSize :=
        Nat.mul_le_mul_right _ (by omega)
      rw [Nat.add_mul, Nat.one_mul, Nat.mul_comm n, ← hn] at hend
      apply readBytes_congr
      intro x _ hx
      have hx : x < (i - start) * pageSize + pageSize := hx
      change p.2 x = _
      rw [pieceByte, if_pos (by omega)]
    · obtain ⟨k, rfl⟩ : ∃ k, i = start + n + k := ⟨i - (start + n), by omega⟩
      have hk : (start + n + k - start) * pageSize = p.1 + k * pageSize := by
        rw [hn, Nat.mul_comm pageSize, ← Nat.add_mul]
        congr 1
        omega
      have hrest : start + n + k - (start + n) = k := Nat.add_sub_cancel_left _ _
      rw [hk, hsum] at hi
      obtain ⟨r, hfind, hread⟩ := ih (fun q hq => hps q (List.mem_cons_of_mem p hq))
        (Nat.le_add_right (start + n) k) (by rw [hrest]; omega)
      refine ⟨r, ?_, ?_⟩
      · rw [List.find?_cons_of_neg (by simp), hfind]
      · rw [hread, hrest, hk]
        apply readBytes_shift
        intro x _
        rw [pieceByte, if_neg (by omega)]
        congr 1
        omega

lemma page_lt (htotal : b.inBbufferSize < 2 ^ 32) (hpages : b.PageMultiples) :
    b.slotCount * b.csPageSize = b.inBbufferSize := by
  have hge := b.csPageSize_ge
  have hdvd : b.csPageSize ∣ b.inBbufferSize := by
    rw [← piecesSize_pieces]
    apply List.dvd_sum
    intro n hn
    obtain ⟨p, hp, rfl⟩ := List.mem_map.mp hn
    exact hpages p hp
  obtain ⟨n, hn⟩ := hdvd
  have hdiv : (b.inBbufferSize + b.csPageSize - 1) / b.csPageSize = n := by
    rw [hn, Nat.add_sub_assoc (by omega), Nat.mul_add_div (by omega), Nat.div_eq_of_lt (by omega),
      Nat.add_zero]
  have hle : n ≤ b.inBbufferSize := by
    rw [hn]
    exact Nat.le_mul_of_pos_left n (by omega)
  rw [slotCount, hdiv, Nat.mod_eq_of_lt (by omega), hn, Nat.mul_comm]

lemma codeSignPage_eq (htotal : b.inBbufferSize < 2 ^ 32) (hpages : b.PageMultiples) {i : Nat}
    (hi : i < b.slotCount) (m : Mem) : b.codeSignPage cc m i = some (writeAll m (b.pageWrites cc i)) := by
  have hge := b.csPageSize_ge
  have hend : (i + 1) * b.csPageSize ≤ b.inBbufferSize := by
    rw [← page_lt htotal hpages]
    exact Nat.mul_le_mul_right _ hi
  rw [Nat.add_mul, Nat.one_mul, ← piecesSize_pieces] at hend
  obtain ⟨r, hfind, hread⟩ := find_slotRanges hpages (Nat.zero_le i)
    (by rw [Nat.sub_zero]; omega) (by omega)
  rw [Nat.sub_zero] at hread
  unfold codeSignPage regionSlots pageWrites page
  rw [hfind, Option.map_some, ← hread]

lemma foldlM_codeSignPage (htotal : b.inBbufferSize < 2 ^ 32) (hpages : b.PageMultiples) {order : List Nat}
    (horder : ∀ i ∈ order, i < b.slotCount) (m : Mem) :
    order.foldlM (b.codeSignPage cc) m = some (writeAll m (order.flatMap (b.pageWrites cc))) := by
  induction order generalizing m with
  | nil => rfl
  | cons i order ih =>
    rw [List.foldlM_cons, codeSignPage_eq htotal hpages (horder i List.mem_cons_self), List.flatMap_cons,
      writeAll_append]
    exact ih (fun j hj => horder j (List.mem_cons_of_mem i hj)) _

lemma span_mem_pageWrites {i : Nat} {x : Nat × Nat} (htotal : b.inBbufferSize < 2 ^ 32)
    (hx : x ∈ (b.pageWrites cc i).map span) : ∃ d ∈ b.directories, x = (d.hashSlot i, d.hashSize) := by
  rw [pageWrites, List.map_map, List.mem_map] at hx
  obtain ⟨d, hd, rfl⟩ := hx
  refine ⟨d, hd, ?_⟩
  simp only [Function.comp_apply, span, cc.length_CCDigest, (wellFormed_of_mem htotal hd).hashSize]

/-- Whatever the order of the pages is, no two digests share a byte. -/
lemma pairwise_pageWrites (htotal : b.inBbufferSize < 2 ^ 32) {order : List Nat} (hnodup : order.Nodup)
    (horder : ∀ i ∈ order, i < b.slotCount) :
    ((order.flatMap (b.pageWrites cc)).map span).Pairwise BlobsApart := by
  rw [List.map_flatMap, List.pairwise_flatMap]
  constructor
  · intro i hi
    rw [pageWrites, List.map_map, List.pairwise_map]
    refine pairwise_directories.imp_of_mem (fun {d e} hd he hde => ?_)
    have hdslot := (wellFormed_of_mem htotal hd).slot (horder i hi)
    have heslot := (wellFormed_of_mem htotal he).slot (horder i hi)
    simp only [Function.comp_apply, span, cc.length_CCDigest, BlobsApart,
      ← (wellFormed_of_mem htotal hd).hashSize]
    omega
  · refine List.Pairwise.imp_of_mem (fun {i j} hi hj hij x hx y hy => ?_) hnodup
    obtain ⟨d, hd, rfl⟩ := span_mem_pageWrites htotal hx
    obtain ⟨e, he, rfl⟩ := span_mem_pageWrites htotal hy
    exact slots_apart htotal hd he (horder i hi) (horder j hj) (Or.inl hij)

/-! ### The header changes nothing but its bytes -/

section WriteHeader

variable (b) (a : Nat) (bs : List UInt8)

lemma writeHeader_pieces : (b.writeHeader a bs).pieces =
    (b.readExecuteRegion.sizeInUse, writeBytes b.readExecuteRegion.buffer a bs) :: b.pieces.tail := rfl

lemma pageMultiples_writeHeader (hpages : PageMultiples b) : PageMultiples (b.writeHeader a bs) := by
  intro p hp
  rw [writeHeader_pieces, List.mem_cons] at hp
  cases hp with
  | inl heq =>
    rw [heq]
    exact hpages (pieceOf b.readExecuteRegion) List.mem_cons_self
  | inr hp => exact hpages p (List.mem_of_mem_tail hp)

lemma writeHeader_page {i : Nat} (hi : i ≠ 0) (hend : a + bs.length ≤ 4096) :
    (b.writeHeader a bs).page i = b.page i := by
  have hge := b.csPageSize_ge
  have hstart : 1 * b.csPageSize ≤ i * b.csPageSize := Nat.mul_le_mul_right _ (Nat.pos_of_ne_zero hi)
  apply readBytes_congr
  intro x hx _
  have hx : i * b.csPageSize ≤ x := hx
  change (if x < b.readExecuteRegion.sizeInUse then
      writeBytes b.readExecuteRegion.buffer a bs x else _) =
    if x < b.readExecuteRegion.sizeInUse then b.readExecuteRegion.buffer x else _
  rw [writeBytes_outside (by omega)]
  rfl

end WriteHeader

/-! ### The signature -/

def finished (b : SharedCacheBuilder) (uuid : List UInt8) : SharedCacheBuilder :=
  b.recordSignature.writeHeader offsetofUuid uuid

/-- The signature after all pages are hashed, the first of them twice. -/
def finishedSignature (b : SharedCacheBuilder) (cc : CommonCrypto) (order : List Nat) (uuid : List UInt8) :
    Mem :=
  writeAll (writeAll (b.layoutSignature cc) (order.flatMap (b.recordSignature.pageWrites cc)))
    ((b.finished uuid).pageWrites cc 0)

lemma length_conform (uuid : List UInt8) : (conform uuid).length = uuid.length := by
  unfold conform
  simp only [List.length_modify]

lemma setUUID_eq {m m' : Mem}
    (h : (b.writeHeader offsetofUuid (b.cacheUUID cc m)).codeSignPage cc m 0 = some m') :
    b.setUUID cc m = .ok ((b.writeHeader offsetofUuid (b.cacheUUID cc m)).signedCache cc m') := by
  unfold setUUID
  simp only [h]

section Signing

variable (htotal : b.inBbufferSize < 2 ^ 32) (hpages : b.PageMultiples)
include htotal hpages

lemma slotCount_pos : 0 < b.slotCount := by
  have hsize := page_lt htotal hpages
  have hheader : sizeofCacheHeader ≤ b.inBbufferSize := by
    have hfits := b.header_fits
    unfold inBbufferSize
    omega
  unfold sizeofCacheHeader at hheader
  apply Nat.pos_of_ne_zero
  intro hzero
  rw [hzero, Nat.zero_mul] at hsize
  omega

/-- No page is out of range, and the UUID is set once. -/
lemma codeSign_ok (cc : CommonCrypto) (huuid : b.uuidIsNull) {order : List Nat} (horder : ∀ i ∈ order, i < b.slotCount) :
    ∃ s uuid, b.codeSign cc order = .ok s ∧ uuid.length = 16 ∧ s.builder = b.finished uuid ∧
      s.codeSignatureRegion = ⟨b.finishedSignature cc order uuid, b.sigSize, b.sigSize⟩ := by
  have hnull : b.recordSignature.uuidIsNull := by
    unfold uuidIsNull recordSignature writeHeader
    simp only
    rw [readBytes_writeBytes_apart, readBytes_writeBytes_apart]
    · exact huuid
    · right
      rw [length_numBytes]
      decide
    · right
      rw [length_numBytes]
      decide
  have hrecord : b.recordSignature.PageMultiples :=
    pageMultiples_writeHeader _ _ _ (pageMultiples_writeHeader b _ _ hpages)
  have hrun : order.foldlM (b.recordSignature.codeSignPage cc) (b.layoutSignature cc) =
      some (writeAll (b.layoutSignature cc) (order.flatMap (b.recordSignature.pageWrites cc))) :=
    foldlM_codeSignPage (b := b.recordSignature) htotal hrecord horder _
  have hfirst (uuid m) : (b.finished uuid).codeSignPage cc m 0 =
      some (writeAll m ((b.finished uuid).pageWrites cc 0)) :=
    codeSignPage_eq (b := b.finished uuid) htotal (pageMultiples_writeHeader _ _ _ hrecord)
      (slotCount_pos (b := b) htotal hpages) m
  let m := writeAll (b.layoutSignature cc) (order.flatMap (b.recordSignature.pageWrites cc))
  let uuid := b.recordSignature.cacheUUID cc m
  refine ⟨(b.finished uuid).signedCache cc (b.finishedSignature cc order uuid), uuid, ?_, ?_, rfl, rfl⟩
  · rw [codeSign, hrun]
    simp only [if_pos hnull]
    exact setUUID_eq (hfirst uuid m)
  · change (b.recordSignature.cacheUUID cc m).length = 16
    rw [cacheUUID, length_conform, List.length_take, cc.length_CCDigest]
    rfl

lemma readBytes_hashSlot {order : List Nat} (horder : order.Perm (List.range b.slotCount)) {uuid : List UInt8}
    (hlen : uuid.length = 16) (hd : d ∈ b.directories) {i : Nat} (hi : i < b.slotCount) :
    readBytes (b.finishedSignature cc order uuid) (d.hashSlot i) d.hashSize =
      cc.CCDigest d.format ((b.finished uuid).page i) := by
  have hsize : ∀ data, (cc.CCDigest d.format data).length = d.hashSize := fun data => by
    rw [cc.length_CCDigest, (wellFormed_of_mem htotal hd).hashSize]
  have hfirst : ((b.finished uuid).pageWrites cc 0).map span =
      (([0] : List Nat).flatMap ((b.finished uuid).pageWrites cc)).map span := by
    rw [List.flatMap_singleton]
  by_cases hzero : i = 0
  · subst hzero
    refine readBytes_writeAll_mem (w := (d.hashSlot 0, _)) ?_ ?_ (hsize _)
    · rw [hfirst]
      refine pairwise_pageWrites (b := b.finished uuid) htotal (List.nodup_singleton 0) ?_
      intro i hi
      rw [List.mem_singleton] at hi
      subst hi
      assumption
    · exact List.mem_map_of_mem hd
  · have hlt : ∀ j ∈ order, j < b.slotCount := fun j hj => List.mem_range.mp (horder.mem_iff.mp hj)
    have hmem : i ∈ order := horder.mem_iff.mpr (List.mem_range.mpr hi)
    have hpage : (b.finished uuid).page i = b.recordSignature.page i :=
      writeHeader_page _ _ _ hzero (by rw [hlen]; decide)
    rw [finishedSignature, readBytes_writeAll_apart, hpage]
    · refine readBytes_writeAll_mem (w := (d.hashSlot i, _)) ?_ ?_ (hsize _)
      · exact pairwise_pageWrites (b := b.recordSignature) htotal
          (horder.nodup_iff.mpr List.nodup_range) hlt
      · exact List.mem_flatMap.mpr ⟨i, hmem, List.mem_map_of_mem hd⟩
    · intro w hw
      obtain ⟨e, he, heq⟩ := span_mem_pageWrites (b := b.finished uuid) htotal (List.mem_map_of_mem hw)
      rw [heq]
      exact slots_apart htotal he hd (slotCount_pos htotal hpages) hi (Or.inl (Ne.symm hzero))

lemma readBytes_signatureWrites {order : List Nat} (horder : ∀ i ∈ order, i < b.slotCount)
    {uuid : List UInt8} {w : Nat × List UInt8} (hw : w ∈ b.signatureWrites cc) {n : Nat}
    (hn : w.2.length = n) : readBytes (b.finishedSignature cc order uuid) w.1 n = w.2 := by
  have hslot {e : Directory} (he : e ∈ b.directories) {i : Nat} (hi : i < b.slotCount) :
      BlobsApart (e.hashSlot i, e.hashSize) (w.1, n) := by
    rw [← hn]
    exact (signatureWrites_apart htotal hw he hi).symm
  rw [finishedSignature, readBytes_writeAll_apart, readBytes_writeAll_apart, layoutSignature]
  · exact readBytes_writeAll_mem (pairwise_signatureWrites htotal) hw hn
  · intro v hv
    obtain ⟨i, hi, hv⟩ := List.mem_flatMap.mp hv
    obtain ⟨e, he, heq⟩ :=
      span_mem_pageWrites (b := b.recordSignature) htotal (List.mem_map_of_mem hv)
    rw [heq]
    exact hslot he (horder i hi)
  · intro v hv
    obtain ⟨e, he, heq⟩ := span_mem_pageWrites (b := b.finished uuid) htotal (List.mem_map_of_mem hv)
    rw [heq]
    exact hslot he (slotCount_pos htotal hpages)

end Signing

/-! ### The file -/

def regions (b : SharedCacheBuilder) : List Region :=
  [b.readExecuteRegion] ++ b.dataRegions ++ [b.readOnlyRegion]

def Contiguous (b : SharedCacheBuilder) : Prop :=
  Stacked 0 (b.regions.map (fun region => (region.cacheFileOffset, region.sizeInUse)))
    (b.readOnlyRegion.cacheFileOffset + b.readOnlyRegion.sizeInUse)

end SharedCacheBuilder

namespace SignedCache

open SharedCacheBuilder (pieceOf piecesSize_append piecesSize_pieces)

variable {s : SignedCache}

lemma copies_eq (hs : s.Consistent) : s.copies =
    s.builder.regions.map (fun region => (region.cacheFileOffset, pieceOf region)) ++
      s.builder.localSymbolsPieces.map
        (fun p => (s.builder.readOnlyRegion.cacheFileOffset + s.builder.readOnlyRegion.sizeInUse, p)) ++
      [(s.codeSignatureOffset, (s.codeSignatureRegion.sizeInUse, s.codeSignatureRegion.buffer))] := by
  obtain ⟨⟨hexec, hdata, hreadOnly, -, -, hlocal⟩, -, -⟩ := hs
  have hregions : s.builder.dataRegions.zipIdx.map
      (fun x => ((s.builder.mapping (x.2 + 1)).fileOffset, pieceOf x.1)) =
      s.builder.dataRegions.map (fun region => (region.cacheFileOffset, pieceOf region)) := by
    conv_rhs => rw [← List.zipIdx_map_fst 0 s.builder.dataRegions, List.map_map]
    apply List.map_congr_left
    intro x hx
    rw [Function.comp_apply, (hdata x hx).2]
  have hsymbols : s.builder.localSymbolsPieces.map (fun p => (s.builder.localSymbolsOffset, p)) =
      s.builder.localSymbolsPieces.map
        (fun p => (s.builder.readOnlyRegion.cacheFileOffset + s.builder.readOnlyRegion.sizeInUse, p)) := by
    unfold SharedCacheBuilder.localSymbolsPieces
    split
    · rename_i hne
      rw [List.map_singleton, List.map_singleton, hlocal hne, hreadOnly.2]
    · rfl
  unfold copies SharedCacheBuilder.regions
  rw [hregions, hsymbols, ← hexec.2, ← hreadOnly.2, List.map_append, List.map_append]
  rfl

lemma stacked_copies (hs : s.Consistent) (hcontig : s.builder.Contiguous) :
    Stacked 0 (spans s.copies) (s.codeSignatureOffset + s.codeSignatureRegion.sizeInUse) := by
  have hregions : Stacked 0
      (spans (s.builder.regions.map (fun region => (region.cacheFileOffset, pieceOf region))))
      (s.builder.readOnlyRegion.cacheFileOffset + s.builder.readOnlyRegion.sizeInUse) := by
    rw [spans, List.map_map]
    exact hcontig
  have hlocal : Stacked (s.builder.readOnlyRegion.cacheFileOffset + s.builder.readOnlyRegion.sizeInUse)
      (spans (s.builder.localSymbolsPieces.map
        (fun p => (s.builder.readOnlyRegion.cacheFileOffset + s.builder.readOnlyRegion.sizeInUse, p))))
      s.codeSignatureOffset := by
    rw [hs.2.2]
    unfold SharedCacheBuilder.localSymbolsPieces
    split
    · exact ⟨rfl, rfl⟩
    · rename_i hzero
      rw [Decidable.not_not.mp hzero]
      rfl
  rw [copies_eq hs, spans, List.map_append, List.map_append]
  exact (hregions.append hlocal).append ⟨rfl, rfl⟩

lemma map_snd_copies (hs : s.Consistent) : s.copies.map Prod.snd =
    s.builder.pieces ++ [(s.codeSignatureRegion.sizeInUse, s.codeSignatureRegion.buffer)] := by
  rw [copies_eq hs, List.map_append, List.map_append, List.map_map, List.map_map]
  have hlocal : s.builder.localSymbolsPieces.map (Prod.snd ∘
      fun p => (s.builder.readOnlyRegion.cacheFileOffset + s.builder.readOnlyRegion.sizeInUse, p)) =
      s.builder.localSymbolsPieces := List.map_id _
  rw [hlocal]
  unfold SharedCacheBuilder.regions SharedCacheBuilder.pieces
  rw [List.map_append, List.map_append]
  rfl

lemma codeSignatureOffset_eq (hs : s.Consistent) (hcontig : s.builder.Contiguous) :
    s.codeSignatureOffset = s.builder.inBbufferSize := by
  have hend := stacked_spans_end (stacked_copies hs hcontig)
  rw [map_snd_copies hs, piecesSize_append, piecesSize_pieces] at hend
  have hlast : piecesSize [(s.codeSignatureRegion.sizeInUse, s.codeSignatureRegion.buffer)] =
      s.codeSignatureRegion.sizeInUse := List.sum_singleton
  omega

variable {file : CacheFile}

lemma writeCache_bytes (hcontig : s.builder.Contiguous) (hfile : s.writeCache = some file) :
    (∀ x < s.builder.inBbufferSize, file.bytes x = pieceByte s.builder.pieces x) ∧
      ∀ x < s.codeSignatureRegion.sizeInUse,
        file.bytes (s.builder.inBbufferSize + x) = s.codeSignatureRegion.buffer x := by
  unfold writeCache at hfile
  split at hfile
  · rename_i hs
    have hbytes : file.bytes = copyPieces (fun _ => 0) s.copies := by
      rw [← Option.some.inj hfile]
    have hcopy (x : Nat) (hx : x < s.builder.inBbufferSize + s.codeSignatureRegion.sizeInUse) :
        file.bytes x = pieceByte (s.builder.pieces ++
          [(s.codeSignatureRegion.sizeInUse, s.codeSignatureRegion.buffer)]) x := by
      rw [hbytes, ← map_snd_copies hs, ← copyPieces_apply (stacked_copies hs hcontig)
        (by rw [codeSignatureOffset_eq hs hcontig]; omega), Nat.zero_add]
    constructor
    · intro x hx
      rw [hcopy x (by omega), pieceByte_append_left (by rw [piecesSize_pieces]; exact hx)]
    · intro x hx
      rw [hcopy _ (by omega), ← piecesSize_pieces, pieceByte_append_right, pieceByte, if_pos hx]
  · exact absurd hfile (Option.some_ne_none file).symm

end SignedCache

/-- What a reader of the file finds: where the signature is, its index, its code directories, and in
slot `i` of each the digest of page `i`. -/
structure CacheFile.Signed (cc : CommonCrypto) (b : SharedCacheBuilder) (file : CacheFile) : Prop where
  codeSignatureOffset : loadNat file.bytes offsetofCodeSignatureOffset 8 = b.inBbufferSize
  codeSignatureSize : loadNat file.bytes offsetofCodeSignatureSize 8 = b.sigSize
  size : file.size = b.inBbufferSize + b.sigSize
  superBlob : readBytes file.bytes b.inBbufferSize b.cdOffset = b.superBlob.toBytes
  codeDirectory : ∀ d ∈ b.directories,
    readBytes file.bytes (b.inBbufferSize + d.offset) sizeofCodeDirectory = (b.codeDirectory d).toBytes
  pages : ∀ d ∈ b.directories, ∀ i, i * b.csPageSize < b.inBbufferSize →
    readBytes file.bytes (b.inBbufferSize + d.hashSlot i) d.hashSize =
      cc.CCDigest d.format (readBytes file.bytes (i * b.csPageSize) b.csPageSize)

namespace SharedCacheBuilder

variable {b : SharedCacheBuilder} {cc : CommonCrypto}

def TablesBehindHeader (b : SharedCacheBuilder) : Prop :=
  sizeofCacheHeader ≤ b.mappingOffset ∧ sizeofCacheHeader ≤ b.mappingWithSlideOffset

lemma headerField_writeHeader {a c n : Nat} {bs : List UInt8} (h : c + n ≤ a ∨ a + bs.length ≤ c) :
    (b.writeHeader a bs).headerField c n = b.headerField c n := by
  apply loadNat_congr
  intro x hx
  unfold InWord at hx
  exact writeBytes_outside (by omega)

/-- The fields that `codeSign` changes are the place of the signature and the UUID. -/
lemma headerField_finished {uuid : List UInt8} (hlen : uuid.length = 16) {c n : Nat}
    (h : c + n ≤ 40 ∨ 56 ≤ c ∧ c + n ≤ 88 ∨ 104 ≤ c) :
    (b.finished uuid).headerField c n = b.headerField c n := by
  unfold finished recordSignature
  rw [headerField_writeHeader, headerField_writeHeader, headerField_writeHeader]
  · rw [length_numBytes, offsetofCodeSignatureOffset]
    omega
  · rw [length_numBytes, offsetofCodeSignatureSize]
    omega
  · rw [hlen, offsetofUuid]
    omega


lemma mapping_finished (htables : b.TablesBehindHeader) {uuid : List UInt8} (hlen : uuid.length = 16)
    (i : Nat) : (b.finished uuid).mapping i = b.mapping i ∧
      (b.finished uuid).slidableMapping i = b.slidableMapping i := by
  have hoffset : (b.finished uuid).mappingOffset = b.mappingOffset :=
    headerField_finished hlen (Or.inl (by decide))
  have hslide : (b.finished uuid).mappingWithSlideOffset = b.mappingWithSlideOffset :=
    headerField_finished hlen (Or.inr (Or.inr (by decide)))
  unfold TablesBehindHeader sizeofCacheHeader at htables
  have hfield {c n : Nat} (hc : 320 ≤ c) : (b.finished uuid).headerField c n = b.headerField c n :=
    headerField_finished hlen (by omega)
  unfold mapping slidableMapping
  simp only [hoffset, hslide]
  constructor
  · exact mappingInfoAt_congr fun c n hc => hfield (by omega)
  · exact mappingInfoAt_congr fun c n hc => hfield (by omega)

lemma mappingsMatch_finished (htables : b.TablesBehindHeader) {uuid : List UInt8} (hlen : uuid.length = 16)
    (h : b.MappingsMatch) : (b.finished uuid).MappingsMatch := by
  have hmapping (i : Nat) := (mapping_finished htables hlen i).1
  have hslidable (i : Nat) := (mapping_finished htables hlen i).2
  have hcount : (b.finished uuid).mappingCount = b.mappingCount :=
    headerField_finished hlen (Or.inl (by decide))
  have hslideCount : (b.finished uuid).headerField offsetofMappingWithSlideCount 4 =
      b.headerField offsetofMappingWithSlideCount 4 :=
    headerField_finished hlen (Or.inr (Or.inr (by decide)))
  have hlocal : (b.finished uuid).localSymbolsOffset = b.localSymbolsOffset :=
    headerField_finished hlen (Or.inr (Or.inl (by decide)))
  have hlast : (b.finished uuid).lastMapping = b.lastMapping := by rw [lastMapping, hcount, lastMapping]
  unfold MappingsMatch MatchesMapping
  simp only [hmapping, hslidable, hcount, hslideCount, hlocal, hlast]
  exact h

lemma length_cacheIdentifier (b : SharedCacheBuilder) : b.cacheIdentifier.length ≤ 64 := by
  have harch : ∀ name ∈ archNames, (asciiBytes name).length ≤ 8 := by decide +kernel
  have hname := harch b.archName b.archName_mem
  have hdyld : (asciiBytes "com.apple.dyld.cache.").length = 21 := by decide +kernel
  unfold cacheIdentifier
  rw [List.length_append, List.length_append, hdyld]
  split
  · split
    · have hrelease : (asciiBytes ".release").length = 8 := by decide +kernel
      omega
    · have hdevelopment : (asciiBytes ".development").length = 12 := by decide +kernel
      omega
  · rw [List.length_nil]
    omega

lemma sigSize_lt (htotal : b.inBbufferSize < 2 ^ 32) : b.sigSize < 2 ^ 32 := by
  have hid := b.length_cacheIdentifier
  have hslots := slotCount_le htotal
  have hcd : b.cdSize ≤ 2 ^ 25 + 300 := by
    have hd := wellFormed_cd htotal
    have hhash : b.dscHashSize ≤ 32 := by
      unfold dscHashSize
      split
      all_goals decide
    have hprod : b.slotCount * b.dscHashSize ≤ 2 ^ 20 * 32 := Nat.mul_le_mul hslots hhash
    have hmod := Nat.mod_le (b.slotCount * b.dscHashSize) (2 ^ 32)
    unfold cdSize hashOffset idOffset sizeofCodeDirectory idSize xSlotCount CSSLOT_REQUIREMENTS
    omega
  have hcd256 : b.cd256Size ≤ 2 ^ 25 + 300 := by
    have hmod := Nat.mod_le (b.slotCount * CS_HASH_SIZE_SHA256) (2 ^ 32)
    unfold CS_HASH_SIZE_SHA256 at hmod
    unfold cd256Size hash256Offset idOffset sizeofCodeDirectory idSize xSlotCount CSSLOT_REQUIREMENTS
      CS_HASH_SIZE_SHA256
    split
    · omega
    · omega
  have hcount : b.blobCount ≤ 4 := by
    unfold blobCount
    split
    all_goals decide
  unfold sigSize align sbSize cmsOffset reqsOffset cd256Offset cdOffset cmsSize reqsSize sizeofSuperBlob
    sizeofBlobIndex sizeofBlob
  omega

section Finished

variable (htotal : b.inBbufferSize < 2 ^ 32) {uuid : List UInt8}
include htotal

lemma codeSignatureOffset_finished (hlen : uuid.length = 16) :
    (b.finished uuid).headerField offsetofCodeSignatureOffset 8 = b.inBbufferSize := by
  unfold finished recordSignature
  rw [headerField_writeHeader, headerField_writeHeader]
  · exact loadNat_numBytes (readBytes_writeBytes_of_length length_numBytes) (by omega)
  · rw [length_numBytes]
    decide
  · rw [hlen]
    decide

lemma codeSignatureSize_finished (hlen : uuid.length = 16) :
    (b.finished uuid).headerField offsetofCodeSignatureSize 8 = b.sigSize := by
  have hsize := sigSize_lt htotal
  unfold finished recordSignature
  rw [headerField_writeHeader]
  · exact loadNat_numBytes (readBytes_writeBytes_of_length length_numBytes) (by omega)
  · rw [hlen]
    decide

end Finished

lemma codeSignatureOffset_of_contiguous (hcontig : b.Contiguous) :
    b.inBbufferSize = b.readOnlyRegion.cacheFileOffset + b.readOnlyRegion.sizeInUse +
      b.localSymbolsRegion.sizeInUse := by
  have hregions : Stacked 0
      (spans (b.regions.map (fun region => (region.cacheFileOffset, pieceOf region))))
      (b.readOnlyRegion.cacheFileOffset + b.readOnlyRegion.sizeInUse) := by
    rw [spans, List.map_map]
    exact hcontig
  have hend := stacked_spans_end hregions
  have hsum : piecesSize ((b.regions.map (fun region => (region.cacheFileOffset, pieceOf region))).map
      Prod.snd) = b.readExecuteRegion.sizeInUse + b.dataRegionsSizeInUse + b.readOnlyRegion.sizeInUse := by
    have hmap : (b.regions.map (fun region => (region.cacheFileOffset, pieceOf region))).map Prod.snd =
        [pieceOf b.readExecuteRegion] ++ b.dataRegions.map pieceOf ++ [pieceOf b.readOnlyRegion] := by
      rw [List.map_map]
      unfold regions
      rw [List.map_append, List.map_append]
      rfl
    rw [hmap, piecesSize_append, piecesSize_append, piecesSize_dataRegions]
    rfl
  unfold inBbufferSize
  omega

lemma headerField_of_bytes {file : CacheFile} {a n : Nat}
    (hbytes : ∀ x < b.inBbufferSize, file.bytes x = pieceByte b.pieces x) (hend : a + n ≤ sizeofCacheHeader) :
    loadNat file.bytes a n = b.headerField a n := by
  apply loadNat_congr
  intro x hx
  unfold InWord at hx
  have hfits := b.header_fits
  have hsize : b.readExecuteRegion.sizeInUse ≤ b.inBbufferSize := by
    unfold inBbufferSize
    omega
  rw [hbytes x (by omega)]
  have hinside : x < b.readExecuteRegion.sizeInUse := by omega
  exact if_pos hinside

lemma signed_of_writeCache (htotal : b.inBbufferSize < 2 ^ 32) (hpages : b.PageMultiples)
    (hcontig : b.Contiguous) {order : List Nat} (horder : order.Perm (List.range b.slotCount))
    {uuid : List UInt8} (hlen : uuid.length = 16) {s : SignedCache} (hbuilder : s.builder = b.finished uuid)
    (hregion : s.codeSignatureRegion = ⟨b.finishedSignature cc order uuid, b.sigSize, b.sigSize⟩)
    {file : CacheFile} (hfile : s.writeCache = some file) : file.Signed cc b := by
  have hlt : ∀ i ∈ order, i < b.slotCount := fun i hi => List.mem_range.mp (horder.mem_iff.mp hi)
  have hsum : b.slotCount * b.csPageSize = b.inBbufferSize := page_lt htotal hpages
  have hbytes := SignedCache.writeCache_bytes (by rw [hbuilder]; exact hcontig) hfile
  rw [hbuilder, hregion] at hbytes
  have htext : ∀ x < b.inBbufferSize, file.bytes x = pieceByte (b.finished uuid).pieces x := hbytes.1
  have hsig : ∀ x < b.sigSize,
      file.bytes (b.inBbufferSize + x) = b.finishedSignature cc order uuid x := hbytes.2
  have hread {a n : Nat} (hend : a + n ≤ b.sbSize) : readBytes file.bytes (b.inBbufferSize + a) n =
      readBytes (b.finishedSignature cc order uuid) a n := by
    have hle := b.sbSize_le_sigSize
    apply readBytes_shift
    intro x hx
    rw [Nat.add_assoc, hsig _ (by omega)]
  have hblobs := (stacked_blobs htotal).mem.2
  have hcms : b.sbSize = b.reqsOffset + reqsSize + cmsSize := rfl
  constructor
  · rw [headerField_of_bytes (b := b.finished uuid) htext (by decide), codeSignatureOffset_finished htotal hlen]
  · rw [headerField_of_bytes (b := b.finished uuid) htext (by decide), codeSignatureSize_finished htotal hlen]
  · unfold SignedCache.writeCache at hfile
    split at hfile
    · rw [← Option.some.inj hfile, hbuilder, hregion]
      rfl
    · exact absurd hfile (Option.some_ne_none file).symm
  · have hmem : (0, b.superBlob.toBytes) ∈ b.signatureWrites cc := List.mem_cons_self
    have hend := (hblobs (0, b.cdOffset) List.mem_cons_self).2
    have hindex := hread (a := 0) hend
    rw [Nat.add_zero] at hindex
    rw [hindex]
    exact readBytes_signatureWrites htotal hpages hlt hmem length_superBlob
  · intro d hd
    have hbounds := directories_bounds hd
    have hwell := wellFormed_of_mem htotal hd
    have hmem : (d.offset, (b.codeDirectory d).toBytes) ∈ b.signatureWrites cc :=
      List.mem_append_left _ (List.mem_append_right _ (List.mem_flatMap.mpr ⟨d, hd, List.mem_cons_self⟩))
    have hsize := hwell.size
    have hoffset := hwell.hashOffset
    unfold idOffset at hoffset
    rw [hread (by omega)]
    exact readBytes_signatureWrites htotal hpages hlt hmem (length_toBytes _)
  · intro d hd i hi
    rw [← hsum] at hi
    have hslot : i < b.slotCount := Nat.lt_of_mul_lt_mul_right hi
    have hbounds := directories_bounds hd
    have hinside := (wellFormed_of_mem htotal hd).slot hslot
    have hend : (i + 1) * b.csPageSize ≤ b.inBbufferSize := by
      rw [← hsum]
      exact Nat.mul_le_mul_right _ hslot
    rw [Nat.add_mul, Nat.one_mul] at hend
    rw [hread (by omega), readBytes_hashSlot htotal hpages horder hlen hd hslot]
    congr 1
    apply readBytes_congr
    intro x _ hx
    exact (htext x (by change x < i * b.csPageSize + b.csPageSize at hx; omega)).symm

/-- `codeSign` ends without a failed assertion, its blobs share no byte, and a file that `writeCache`
makes of the regions and the signature has the digest of each of its pages in the page's slots. It makes
one where the tables of mappings describe the regions. -/
theorem codeSign_signs_file (b : SharedCacheBuilder) (cc : CommonCrypto) (hpages : b.PageMultiples)
    (hcontig : b.Contiguous) (htotal : b.inBbufferSize < 2 ^ 32) (huuid : b.uuidIsNull) (order : List Nat)
    (horder : order.Perm (List.range b.slotCount)) :
    b.blobs.Pairwise BlobsApart ∧ (∀ blob ∈ b.blobs, blob.1 + blob.2 ≤ b.sigSize) ∧
      ∃ s, b.codeSign cc order = .ok s ∧ (∀ file, s.writeCache = some file → file.Signed cc b) ∧
        (b.TablesBehindHeader → b.MappingsMatch → ∃ file, s.writeCache = some file) := by
  have hstacked := stacked_blobs htotal
  have hlt : ∀ i ∈ order, i < b.slotCount := fun i hi => List.mem_range.mp (horder.mem_iff.mp hi)
  refine ⟨hstacked.pairwise, fun blob hblob => ?_, ?_⟩
  · exact (hstacked.mem.2 blob hblob).2.trans b.sbSize_le_sigSize
  · obtain ⟨s, uuid, hok, hlen, hbuilder, hregion⟩ := codeSign_ok htotal hpages cc huuid hlt
    refine ⟨s, hok, fun file hfile => ?_, fun htables hmatch => ?_⟩
    · exact signed_of_writeCache htotal hpages hcontig horder hlen hbuilder hregion hfile
    · have hconsistent : s.Consistent := by
        unfold SignedCache.Consistent SignedCache.codeSignatureSize SignedCache.codeSignatureOffset
        rw [hbuilder, hregion, codeSignatureOffset_finished htotal hlen,
          codeSignatureSize_finished htotal hlen]
        exact ⟨mappingsMatch_finished htables hlen hmatch, rfl, codeSignatureOffset_of_contiguous hcontig⟩
      exact ⟨_, if_pos hconsistent⟩

def startDigests : CommonCrypto where
  CCDigest format data := (data ++ List.replicate format.size 0).take format.size
  length_CCDigest format data := by simp

/-- A cache header with a table of two mappings of one page, and the table with slide information. -/
def twoPagesHeader : Mem :=
  writeAll (fun _ => 0) [(offsetofMappingOffset, numBytes 4 320), (offsetofMappingCount, numBytes 4 2),
    (offsetofMappingWithSlideOffset, numBytes 4 384), (offsetofMappingWithSlideCount, numBytes 4 2),
    (328, numBytes 8 4096), (360, numBytes 8 4096), (368, numBytes 8 4096), (392, numBytes 8 4096),
    (448, numBytes 8 4096), (456, numBytes 8 4096)]

def twoPages : SharedCacheBuilder where
  readExecuteRegion := ⟨twoPagesHeader, 4096, 0⟩
  dataRegions := []
  readOnlyRegion := ⟨fun x => UInt8.ofNat x, 4096, 4096⟩
  localSymbolsRegion := ⟨fun _ => 0, 0, 0⟩
  archName := "x86_64"
  csPageSize := 4096
  codeSigningDigestMode := .Agile
  dylibsRemovedDuringMastering := true
  optimizeStubs := false
  archName_mem := by decide +kernel
  csPageSize_eq := Or.inl rfl
  header_fits := by decide

theorem codeSign_signs_twoPages : ∃ s, twoPages.codeSign startDigests [1, 0] = .ok s ∧
    ∃ file, s.writeCache = some file ∧ file.Signed startDigests twoPages := by
  have hpages : twoPages.PageMultiples := by
    intro p hp
    have hsize : p.1 = 4096 := by
      simp only [pieces, pieceOf, localSymbolsPieces, twoPages, List.map_nil, ne_eq, not_true, if_false,
        List.append_nil, List.mem_append, List.mem_singleton] at hp
      cases hp with
      | inl heq => rw [heq]
      | inr heq => rw [heq]
    rw [hsize]
    exact dvd_refl 4096
  have hnull : twoPages.uuidIsNull := by decide +kernel
  have horder : [1, 0].Perm (List.range twoPages.slotCount) := by decide +kernel
  obtain ⟨-, -, s, hok, hsigned, hwrite⟩ := codeSign_signs_file twoPages startDigests hpages
    ⟨rfl, rfl, rfl⟩ (by decide) hnull [1, 0] horder
  obtain ⟨file, hfile⟩ := hwrite ⟨by decide +kernel, by decide +kernel⟩ (by decide +kernel)
  exact ⟨s, hok, file, hfile, hsigned file hfile⟩

end SharedCacheBuilder

end Dyld.Cache.CodeSign
