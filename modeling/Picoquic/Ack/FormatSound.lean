import Picoquic.Ack.Format
import Picoquic.Sack.Canonical

/-!
# Acknowledgement frames that are written are read back

A frame that the formatter writes is laid out as `ackFrameBytes`, the concatenation of its encoded
values. The header parser, the loop over the blocks and the skip function read this layout back
(`parseAckHeader_ackHeaderBytes`, `ackRanges_blockBytes`, `skipAckFrameMaybeEcn_ackFrameBytes`),
and the ranges are items of the list, the highest one first.

The exception is the last repair of the formatter: when the ECN counters do not fit, the first
byte becomes the plain type. For the plain types, one byte long, this is the type of the frame
without counters; the multipath types take four bytes, and the frame is not one of its kind any
more.

* **`formatAckFrameInContext_sound_iff`** — the frame is sound if and only if this does not
  happen;
* **`formatAckFrameInContext_mangled`** — a frame to which it happens.
-/

namespace Picoquic

open RangeList

/-! ### Recognising a frame -/

/-- How frames are told apart by their first bytes, as far as acknowledgements are concerned: the
plain types by the first byte, the multipath types by the encoded type. The components are
`is_ecn` and `has_path_id`. -/
def ackFrameKind (bytes : List UInt8) : Option (Bool × Bool) :=
  if (bytes.headD 0).toNat = frameTypeAck then some (false, false)
  else if (bytes.headD 0).toNat = frameTypeAckEcn then some (true, false)
  else
    match framesVarintDecode bytes with
    | none => none
    | some (frameId, _) =>
      if frameId = frameTypeAckMp then some (false, true)
      else if frameId = frameTypeAckMpEcn then some (true, true)
      else none

/-- `picoquic_skip_frame`, for acknowledgement frames: what follows the frame. -/
def skipAckFrame (bytes : List UInt8) : Option (List UInt8) :=
  (ackFrameKind bytes).bind fun kind => skipAckFrameMaybeEcn bytes kind.1 kind.2

/-- **A sound frame** for a list of received numbers, in the number space of the path if there is
one: it is recognised, its header and its blocks decode, with ECN its counters as well, nothing is
left over, it is skipped as a whole, it acknowledges received numbers only, and all numbers of
the highest item. -/
structure SoundAckFrame (l : List SackItem) (ackDelayExponent : ℕ)
    (multipathSequence : Option (Fin (2 ^ 62))) (bytes : List UInt8) : Prop where
  skip : skipAckFrame bytes = some []
  decode : ∃ isEcn header ranges rest,
    ackFrameKind bytes = some (isEcn, multipathSequence.isSome) ∧
    parseAckHeader bytes multipathSequence.isSome ackDelayExponent = some header ∧
    (∀ sequence ∈ multipathSequence, header.pathId = sequence) ∧
    ackRanges header.numBlock header.largest (bytes.drop header.consumed) = some (ranges, rest) ∧
    (if isEcn then ∃ counts, decodeEcnCounts rest = some (counts, []) else rest = []) ∧
    (∀ r ∈ ranges, ∀ n, r.Acks n → SackCovers l n) ∧
    ∀ last ∈ l.getLast?, ∀ n, last.startOfSackRange ≤ n → n ≤ last.endOfSackRange →
      ∃ r ∈ ranges, r.Acks n

/-! ### The layout -/

/-- The bytes of the path identifier. -/
def pathIdBytes (multipathSequence : Option (Fin (2 ^ 62))) : List UInt8 :=
  multipathSequence.elim [] fun sequence => varintBytes sequence

/-- The blocks of the items below `lowest`, given from the highest on. -/
def blockBytes : ℕ → List SackItem → List UInt8
  | _, [] => []
  | lowest, item :: items =>
    varintBytes (lowest - item.endOfSackRange - 2) ++
      (varintBytes (item.endOfSackRange - item.startOfSackRange) ++
        blockBytes item.startOfSackRange items)

/-- The header of a frame with the number of blocks. -/
def ackHeaderBytes (ackType : ℕ) (multipathSequence : Option (Fin (2 ^ 62)))
    (largest ackDelay numBlock : ℕ) : List UInt8 :=
  varintBytes ackType ++ (pathIdBytes multipathSequence ++
    (varintBytes largest ++ (varintBytes ackDelay ++ varintBytes numBlock)))

private theorem headerField_of_append {bytes pre rest : List UInt8} {n64 index : ℕ}
    (h : bytes = pre ++ (varintBytes n64 ++ rest)) (hindex : index = pre.length) :
    headerField bytes index = (encodeVarintLength n64, n64 % 2 ^ 62) := by
  have hpos := encodeVarintLength_pos n64
  rw [h, hindex, headerField, if_pos (by simp; omega), List.drop_left, varintDecode_varintBytes]

/-- **The header is read back.** -/
theorem parseAckHeader_ackHeaderBytes {ackType largest ackDelay numBlock : ℕ}
    {multipathSequence : Option (Fin (2 ^ 62))} {ackDelayExponent : ℕ} (body : List UInt8)
    (hlargest : largest < 2 ^ 62) (hblock : numBlock < 2 ^ 62) :
    parseAckHeader (ackHeaderBytes ackType multipathSequence largest ackDelay numBlock ++ body)
        multipathSequence.isSome ackDelayExponent =
      some ⟨multipathSequence.elim 0 (fun sequence => sequence), largest,
        u64 ((ackDelay % 2 ^ 62) <<< ackDelayExponent), numBlock,
        (ackHeaderBytes ackType multipathSequence largest ackDelay numBlock).length⟩ := by
  set bytes := ackHeaderBytes ackType multipathSequence largest ackDelay numBlock ++ body
    with hbytes
  have hhead : decodeVarintLength (bytes.headD 0) = encodeVarintLength ackType := by
    rw [hbytes, ackHeaderBytes, List.append_assoc]
    exact decodeVarintLength_varintBytes _ _
  -- the values one after the other, each with what precedes it
  have hpath : (if multipathSequence.isSome then headerField bytes (encodeVarintLength ackType)
      else (0, 0)) =
      ((pathIdBytes multipathSequence).length,
        multipathSequence.elim 0 fun sequence => (sequence : ℕ)) := by
    cases hseq : multipathSequence with
    | none => rfl
    | some sequence =>
      have hsplit : bytes = varintBytes ackType ++ (varintBytes sequence ++ (varintBytes largest ++
          (varintBytes ackDelay ++ varintBytes numBlock) ++ body)) := by
        simp [hbytes, ackHeaderBytes, pathIdBytes, hseq]
      have h := headerField_of_append hsplit (varintBytes_length ackType).symm
      rw [Nat.mod_eq_of_lt sequence.isLt] at h
      simp [h, pathIdBytes]
  have hlargest' : headerField bytes (encodeVarintLength ackType +
      (pathIdBytes multipathSequence).length) = (encodeVarintLength largest, largest % 2 ^ 62) := by
    have hsplit : bytes = varintBytes ackType ++ pathIdBytes multipathSequence ++
        (varintBytes largest ++ (varintBytes ackDelay ++ varintBytes numBlock ++ body)) := by
      simp [hbytes, ackHeaderBytes]
    exact headerField_of_append hsplit (by simp)
  have hdelay : headerField bytes (encodeVarintLength ackType +
      (pathIdBytes multipathSequence).length + encodeVarintLength largest) =
        (encodeVarintLength ackDelay, ackDelay % 2 ^ 62) := by
    have hsplit : bytes = varintBytes ackType ++ pathIdBytes multipathSequence ++
        varintBytes largest ++ (varintBytes ackDelay ++ (varintBytes numBlock ++ body)) := by
      simp [hbytes, ackHeaderBytes]
    exact headerField_of_append hsplit (by simp [Nat.add_assoc])
  have hblocks : headerField bytes (encodeVarintLength ackType +
      (pathIdBytes multipathSequence).length + encodeVarintLength largest +
        encodeVarintLength ackDelay) = (encodeVarintLength numBlock, numBlock % 2 ^ 62) := by
    have hsplit : bytes = varintBytes ackType ++ pathIdBytes multipathSequence ++
        varintBytes largest ++ varintBytes ackDelay ++ (varintBytes numBlock ++ body) := by
      simp [hbytes, ackHeaderBytes]
    exact headerField_of_append hsplit (by simp [Nat.add_assoc])
  have hlen : bytes.length = encodeVarintLength ackType + (pathIdBytes multipathSequence).length +
      encodeVarintLength largest + encodeVarintLength ackDelay + encodeVarintLength numBlock +
      body.length := by
    simp [hbytes, ackHeaderBytes]
    omega
  have hpathpos : multipathSequence.isSome = true → (pathIdBytes multipathSequence).length ≠ 0 := by
    cases multipathSequence with
    | none => simp
    | some sequence =>
      have := encodeVarintLength_pos sequence
      simp only [pathIdBytes, Option.elim_some, varintBytes_length]
      omega
  have := encodeVarintLength_pos largest
  have := encodeVarintLength_pos ackDelay
  have := encodeVarintLength_pos numBlock
  simp only [parseAckHeader, hhead, hpath, hlargest', hdelay, hblocks]
  rw [if_neg]
  · rw [Nat.mod_eq_of_lt hlargest, Nat.mod_eq_of_lt hblock]
    simp [ackHeaderBytes]
    omega
  · rintro (h | h | h | h | ⟨h, h'⟩)
    · omega
    · omega
    · omega
    · omega
    · exact hpathpos h h'

/-! ### The blocks -/

/-- The items below a highest one, given from the highest on, under a number: they descend, with a
number missing in between, and their numbers are 62-bit numbers. -/
structure ItemsBelow (lowest : ℕ) (items : List SackItem) : Prop where
  lt : lowest < 2 ^ 62
  bounds : ∀ item ∈ items, item.startOfSackRange ≤ item.endOfSackRange ∧
    item.endOfSackRange + 1 < lowest
  gap : items.Pairwise fun a b => b.endOfSackRange + 1 < a.startOfSackRange

variable {lowest : ℕ} {item : SackItem} {items : List SackItem} {last : SackItem} {ctx : AckContext}

theorem ItemsBelow.tail (h : ItemsBelow lowest (item :: items)) :
    ItemsBelow item.startOfSackRange items := by
  have hitem := h.bounds item List.mem_cons_self
  have hlt := h.lt
  obtain ⟨hgap, hgap'⟩ := List.pairwise_cons.mp h.gap
  exact ⟨by omega, fun b hb => ⟨(h.bounds b (List.mem_cons_of_mem _ hb)).1, hgap b hb⟩, hgap'⟩

theorem ItemsBelow.sublist {items items' : List SackItem} (h : ItemsBelow lowest items)
    (hs : items'.Sublist items) : ItemsBelow lowest items' :=
  ⟨h.lt, fun item hi => h.bounds item (hs.subset hi), h.gap.sublist hs⟩

/-- The range an item is announced as. -/
def SackItem.toAckRange (item : SackItem) : AckRange :=
  ⟨item.endOfSackRange, item.endOfSackRange - item.startOfSackRange + 1⟩

theorem SackItem.toAckRange_acks (h : item.startOfSackRange ≤ item.endOfSackRange) {n : ℕ} :
    item.toAckRange.Acks n ↔ item.startOfSackRange ≤ n ∧ n ≤ item.endOfSackRange := by
  rw [toAckRange, AckRange.acks_mk]
  omega

/-- **The blocks are read back** as the ranges of the items. -/
theorem ackRanges_blockBytes (tail : List UInt8)
    (hlast : last.startOfSackRange ≤ last.endOfSackRange) (hlt : last.endOfSackRange < 2 ^ 62)
    (h : ItemsBelow last.startOfSackRange items) :
    ackRanges items.length last.endOfSackRange
        (varintBytes (last.endOfSackRange - last.startOfSackRange) ++
          (blockBytes last.startOfSackRange items ++ tail)) =
      some ((last :: items).map SackItem.toAckRange, tail) := by
  induction items generalizing last with
  | nil =>
    rw [List.length_nil, ackRanges, framesVarintDecode_varintBytes, Nat.mod_eq_of_lt (by omega)]
    simp [blockBytes, SackItem.toAckRange]
  | cons item items ih =>
    have hitem := h.bounds item List.mem_cons_self
    rw [List.length_cons, ackRanges, framesVarintDecode_varintBytes, Nat.mod_eq_of_lt (by omega)]
    simp only [blockBytes, List.append_assoc, framesVarintDecode_varintBytes]
    rw [Nat.mod_eq_of_lt (by omega), if_neg (by omega), if_neg (by omega),
      show last.endOfSackRange - (last.startOfSackRange - item.endOfSackRange - 2 + 1 +
        (last.endOfSackRange - last.startOfSackRange + 1)) = item.endOfSackRange by omega,
      ih hitem.1 (by omega) h.tail]
    rfl

/-- The blocks are skipped as a whole. -/
theorem skipAckBlocks_blockBytes (lowest : ℕ) (items : List SackItem) (tail : List UInt8) :
    skipAckBlocks items.length (blockBytes lowest items ++ tail) = some tail := by
  induction items generalizing lowest with
  | nil => rfl
  | cons item items ih =>
    simp only [List.length_cons, skipAckBlocks, blockBytes, List.append_assoc,
      framesVarintSkip_varintBytes, ih]

/-- One block, below a number. -/
theorem formatAckBlock_eq (out : List UInt8) (space : ℕ) (hlt : lowest < 2 ^ 62)
    (hitem : item.startOfSackRange ≤ item.endOfSackRange ∧
      item.endOfSackRange + 1 < lowest) :
    formatAckBlock out space lowest item =
      appendWithin space out (varintBytes (lowest - item.endOfSackRange - 2) ++
        varintBytes (item.endOfSackRange - item.startOfSackRange)) := by
  have hgap : sub64 (sub64 lowest item.endOfSackRange) 2 = lowest - item.endOfSackRange - 2 := by
    rw [sub64_of_le (a := lowest) (b := item.endOfSackRange) (by omega) (by omega)]
    exact sub64_of_le (by omega) (by omega)
  have hrange : sub64 item.endOfSackRange item.startOfSackRange =
      item.endOfSackRange - item.startOfSackRange := sub64_of_le hitem.1 (by omega)
  simp only [formatAckBlock, hgap, hrange, framesVarintEncode_eq, appendWithin_bind]

/-! ### What is written -/

/-- The number of bytes of the blocks that are written into a given room, read off the items:
items that were sent too often are left out, and the first block that does not fit ends the
frame. -/
def ackBlocksSize (isOpportunistic : Fin 2) (nbSentMaxAcked : ℕ) :
    ℕ → List SackItem → ℤ → ℕ → ℕ → ℕ
  | _, [], _, _, _ => 0
  | room, item :: items, nbSentMaxSkip, lowest, numBlock =>
    if maxAckBlocks ≤ numBlock then 0
    else if nbSentMaxAcked < item.nbTimesSent isOpportunistic then
      ackBlocksSize isOpportunistic nbSentMaxAcked room items nbSentMaxSkip lowest numBlock
    else if item.nbTimesSent isOpportunistic = nbSentMaxAcked ∧ 0 < nbSentMaxSkip then
      ackBlocksSize isOpportunistic nbSentMaxAcked room items (nbSentMaxSkip - 1) lowest numBlock
    else
      let size := encodeVarintLength (lowest - item.endOfSackRange - 2) +
        encodeVarintLength (item.endOfSackRange - item.startOfSackRange)
      if room < size then 0
      else size + ackBlocksSize isOpportunistic nbSentMaxAcked (room - size) items nbSentMaxSkip
        item.startOfSackRange (numBlock + 1)

/-- **The loop over the ranges** writes the blocks of some of the items, at most 32 of them, and
their size is read off the items. -/
theorem formatAckBlocks_spec (space : ℕ) (isOpportunistic : Fin 2) (nbSentMaxAcked : ℕ)
    (nbSentMaxSkip : ℤ) {s : AckBlocksState} (h : ItemsBelow lowest items)
    (hblock : s.numBlock ≤ maxAckBlocks) :
    ∃ sel, sel.Sublist items ∧
      (formatAckBlocks space isOpportunistic nbSentMaxAcked items nbSentMaxSkip lowest s).out =
        s.out ++ blockBytes lowest sel ∧
      (formatAckBlocks space isOpportunistic nbSentMaxAcked items nbSentMaxSkip lowest s).numBlock =
        s.numBlock + sel.length ∧
      s.numBlock + sel.length ≤ maxAckBlocks ∧
      (blockBytes lowest sel).length = ackBlocksSize isOpportunistic nbSentMaxAcked
        (space - s.out.length) items nbSentMaxSkip lowest s.numBlock := by
  induction items generalizing nbSentMaxSkip lowest s with
  | nil => exact ⟨[], List.Sublist.refl _, by simp [formatAckBlocks, blockBytes], rfl, hblock, rfl⟩
  | cons item items ih =>
    have hnone : ∃ sel, sel.Sublist (item :: items) ∧ s.out = s.out ++ blockBytes lowest sel ∧
        s.numBlock = s.numBlock + sel.length ∧ s.numBlock + sel.length ≤ maxAckBlocks ∧
        (blockBytes lowest sel).length = 0 :=
      ⟨[], List.nil_sublist _, by simp [blockBytes], rfl, hblock, rfl⟩
    have hskip : ∀ skip : ℤ, ∃ sel, sel.Sublist (item :: items) ∧
        (formatAckBlocks space isOpportunistic nbSentMaxAcked items skip lowest s).out =
          s.out ++ blockBytes lowest sel ∧
        (formatAckBlocks space isOpportunistic nbSentMaxAcked items skip lowest s).numBlock =
          s.numBlock + sel.length ∧ s.numBlock + sel.length ≤ maxAckBlocks ∧
        (blockBytes lowest sel).length = ackBlocksSize isOpportunistic nbSentMaxAcked
          (space - s.out.length) items skip lowest s.numBlock := fun skip => by
      obtain ⟨sel, hsel, hrest⟩ :=
        ih skip (h.sublist (List.sublist_cons_self _ _)) hblock
      exact ⟨sel, hsel.trans (List.sublist_cons_self _ _), hrest⟩
    have hitem := h.bounds item List.mem_cons_self
    have hlt := h.lt
    have hwrite := formatAckBlock_eq s.out space hlt hitem
    rw [formatAckBlocks, ackBlocksSize, hwrite]
    by_cases h32 : maxAckBlocks ≤ s.numBlock
    · -- no block is left
      simp only [if_pos h32]
      exact hnone
    simp only [if_neg h32]
    by_cases hoften : nbSentMaxAcked < item.nbTimesSent isOpportunistic
    · -- the item was sent often enough
      simp only [if_pos hoften]
      exact hskip _
    simp only [if_neg hoften]
    by_cases hpart : item.nbTimesSent isOpportunistic = nbSentMaxAcked ∧ 0 < nbSentMaxSkip
    · simp only [if_pos hpart]
      exact hskip _
    simp only [if_neg hpart]
    simp only [appendWithin, List.length_append, varintBytes_length]
    by_cases hfit : s.out.length + (encodeVarintLength (lowest - item.endOfSackRange - 2) +
        encodeVarintLength (item.endOfSackRange - item.startOfSackRange)) ≤ space
    · -- the block is written, and the loop goes on below its item
      simp only [if_pos hfit, Option.elim_some]
      rw [if_neg (by omega)]
      obtain ⟨sel, hsel, hout, hnum, hle, hsize⟩ := ih nbSentMaxSkip
        (s := ⟨s.out ++ (varintBytes (lowest - item.endOfSackRange - 2) ++
            varintBytes (item.endOfSackRange - item.startOfSackRange)),
          recordSent s.sackList items.length isOpportunistic, s.numBlock + 1, s.moreData⟩)
        h.tail (by simp only; omega)
      dsimp only at hout hnum hle hsize
      refine ⟨item :: sel, hsel.cons_cons item, ?_, ?_, ?_, ?_⟩
      · rw [hout]
        simp [blockBytes]
      · rw [hnum, List.length_cons]
        omega
      · rw [List.length_cons]
        omega
      · have hroom' : space - s.out.length -
            (encodeVarintLength (lowest - item.endOfSackRange - 2) +
            encodeVarintLength (item.endOfSackRange - item.startOfSackRange)) =
            space - (s.out ++ (varintBytes (lowest - item.endOfSackRange - 2) ++
              varintBytes (item.endOfSackRange - item.startOfSackRange))).length := by
          simp only [List.length_append, varintBytes_length]
          omega
        rw [hroom', ← hsize]
        simp [blockBytes]
        omega
    · -- the block does not fit, and the loop ends
      have := encodeVarintLength_pos (lowest - item.endOfSackRange - 2)
      simp only [if_neg hfit, Option.elim_none]
      rw [if_pos (by omega)]
      exact hnone

/-- The header is written when it fits. -/
theorem formatAckHeader_eq (space ackType : ℕ) (multipathSequence : Option (Fin (2 ^ 62)))
    (largest ackDelay : ℕ) :
    formatAckHeader space ackType multipathSequence largest ackDelay =
      appendWithin space [] (varintBytes ackType ++ (pathIdBytes multipathSequence ++
        (varintBytes largest ++ varintBytes ackDelay))) := by
  cases multipathSequence with
  | none =>
    simp only [formatAckHeader, bind, framesVarintEncode_eq, Option.bind_some,
      appendWithin_bind, pathIdBytes, Option.elim_none, List.nil_append]
  | some sequence =>
    simp only [formatAckHeader, bind, framesVarintEncode_eq, appendWithin_bind, pathIdBytes,
      Option.elim_some]

theorem formatEcnCounts_eq (out : List UInt8) (space : ℕ) (ctx : AckContext) :
    formatEcnCounts out space ctx = appendWithin space out (varintBytes ctx.ecnEct0TotalLocal ++
      (varintBytes ctx.ecnEct1TotalLocal ++ varintBytes ctx.ecnCeTotalLocal)) := by
  simp only [formatEcnCounts, bind, framesVarintEncode_eq, appendWithin_bind]

/-- The frame of a list of items, the highest one first. -/
def ackFrameBytes (ackType : ℕ) (multipathSequence : Option (Fin (2 ^ 62))) (ackDelay : ℕ)
    (last : SackItem) (items : List SackItem) : List UInt8 :=
  ackHeaderBytes ackType multipathSequence last.endOfSackRange ackDelay items.length ++
    (varintBytes (last.endOfSackRange - last.startOfSackRange) ++
      blockBytes last.startOfSackRange items)

/-- The size of the frame without counters that fits in a space, read off the settings and the
items: `0` when not even the header and the highest range fit. -/
def ackFrameSize (params : AckFormatParameters) (space currentTime : ℕ) (ctx : AckContext)
    (last : SackItem) (multipathSequence : Option (Fin (2 ^ 62))) (isOpportunistic : Fin 2) : ℕ :=
  let items := ctx.sackList.ackTree.dropLast.reverse
  let sackList := recordSent ctx.sackList items.length isOpportunistic
  let select := selectAckRanges sackList sackList.ackTree.getLast? maxAckBlocks isOpportunistic
  let header := (ackFrameBytes (ackTypeByte ctx.sendingEcnAck multipathSequence.isSome)
    multipathSequence (ackDelayOf params ctx currentTime) last []).length
  if space < header then 0
  else header + ackBlocksSize isOpportunistic select.1 (space - header) items select.2
    last.startOfSackRange 0

variable {l : List SackItem}

/-- The items of a list from the one below the highest on. -/
theorem itemsBelow_dropLast (hl : SackCanonical l) (hlast : l.getLast? = some last) :
    last.startOfSackRange ≤ last.endOfSackRange ∧ last.endOfSackRange < 2 ^ 62 ∧
      ItemsBelow last.startOfSackRange l.dropLast.reverse := by
  obtain ⟨init, rfl⟩ := List.getLast?_eq_some_iff.mp hlast
  have hmem : last ∈ init ++ [last] := by simp
  have hlt := hl.end_lt hmem
  have hle := hl.start_le hmem
  obtain ⟨hinit, -, hcross⟩ := separated_append.mp hl.separated
  rw [List.dropLast_concat]
  refine ⟨hle, hlt, by omega, fun item hi => ?_, ?_⟩
  · rw [List.mem_reverse] at hi
    exact ⟨hinit.le item hi, hcross item hi last (by simp)⟩
  · rw [List.pairwise_reverse]
    exact hinit.gap

theorem varintBytes_numBlock {numBlock : ℕ} (h : numBlock ≤ maxAckBlocks) :
    varintBytes numBlock = [UInt8.ofNat numBlock] := by
  have : numBlock < 64 := lt_of_le_of_lt h (by decide)
  rw [varintBytes, if_pos (by omega), if_pos this]

private theorem set_length_append (header tail blocks : List UInt8) (a b : UInt8) :
    (header ++ [a] ++ tail ++ blocks).set header.length b =
      header ++ ([b] ++ (tail ++ blocks)) := by
  rw [List.append_assoc, List.append_assoc, List.set_append_right _ _ le_rfl, Nat.sub_self]
  rfl

variable (params : AckFormatParameters) (space currentTime : ℕ)

/-- **Header and ranges.** Nothing is written when the header and the highest range do not fit;
otherwise the frame of some of the items is, and its size is read off the items. -/
theorem formatAckRanges_spec (multipathSequence : Option (Fin (2 ^ 62))) (isOpportunistic : Fin 2)
    (hl : SackCanonical ctx.sackList.ackTree) (hlast : ctx.sackList.ackTree.getLast? = some last) :
    let r := formatAckRanges params space currentTime ctx last multipathSequence isOpportunistic
    let size := ackFrameSize params space currentTime ctx last multipathSequence isOpportunistic
    r.ctx.sendingEcnAck = ctx.sendingEcnAck ∧ r.ctx.ecnEct0TotalLocal = ctx.ecnEct0TotalLocal ∧
      r.ctx.ecnEct1TotalLocal = ctx.ecnEct1TotalLocal ∧
      r.ctx.ecnCeTotalLocal = ctx.ecnCeTotalLocal ∧ r.bytes.length = size ∧
      (r.bytes = [] ∨ ∃ sel, sel.Sublist ctx.sackList.ackTree.dropLast.reverse ∧
        sel.length ≤ maxAckBlocks ∧
        r.bytes = ackFrameBytes (ackTypeByte ctx.sendingEcnAck multipathSequence.isSome)
          multipathSequence (ackDelayOf params ctx currentTime) last sel) := by
  obtain ⟨hle, hlt, hitems⟩ := itemsBelow_dropLast hl hlast
  -- the header up to the reserved byte, and the size with the byte and the highest range
  set header := varintBytes (ackTypeByte ctx.sendingEcnAck multipathSequence.isSome) ++
    (pathIdBytes multipathSequence ++ (varintBytes last.endOfSackRange ++
      varintBytes (ackDelayOf params ctx currentTime))) with hheader
  have hframe : ∀ sel : List SackItem, sel.length ≤ maxAckBlocks →
      ackFrameBytes (ackTypeByte ctx.sendingEcnAck multipathSequence.isSome) multipathSequence
        (ackDelayOf params ctx currentTime) last sel =
      header ++ ([UInt8.ofNat sel.length] ++
        (varintBytes (last.endOfSackRange - last.startOfSackRange) ++
          blockBytes last.startOfSackRange sel)) := fun sel hsel => by
    rw [ackFrameBytes, ackHeaderBytes, varintBytes_numBlock hsel, hheader]
    simp only [List.append_assoc]
  have hsize : (ackFrameBytes (ackTypeByte ctx.sendingEcnAck multipathSequence.isSome)
      multipathSequence (ackDelayOf params ctx currentTime) last []).length =
      header.length + 1 + encodeVarintLength (last.endOfSackRange - last.startOfSackRange) := by
    rw [hframe [] (Nat.zero_le _)]
    simp [blockBytes]
    omega
  have hwrite : (formatAckHeader space (ackTypeByte ctx.sendingEcnAck multipathSequence.isSome)
      multipathSequence last.endOfSackRange (ackDelayOf params ctx currentTime)).bind
        (fun out => framesVarintEncode (out ++ [0]) space
          (sub64 last.endOfSackRange last.startOfSackRange)) =
      if header.length + 1 + encodeVarintLength (last.endOfSackRange - last.startOfSackRange) ≤
          space then
        some (header ++ [0] ++ varintBytes (last.endOfSackRange - last.startOfSackRange))
      else none := by
    rw [formatAckHeader_eq, sub64_of_le hle (by omega), ← hheader, appendWithin]
    simp only [framesVarintEncode, List.length_append, List.length_singleton]
    split_ifs with h1 h2 h2
    · rw [List.nil_append, Option.bind_some, if_pos h2]
    · rw [List.nil_append, Option.bind_some, if_neg h2]
    · simp only [List.length_nil] at h1
      omega
    · rfl
  simp only [formatAckRanges, ackFrameSize, hwrite, hsize]
  by_cases hfit : header.length + 1 +
      encodeVarintLength (last.endOfSackRange - last.startOfSackRange) ≤ space
  · have hgetD : ((formatAckHeader space
        (ackTypeByte ctx.sendingEcnAck multipathSequence.isSome) multipathSequence
        last.endOfSackRange (ackDelayOf params ctx currentTime)).getD []).length =
        header.length := by
      rw [formatAckHeader_eq, ← hheader, appendWithin,
        if_pos (by simp only [List.length_nil]; omega)]
      rfl
    simp only [if_pos hfit, hgetD]
    set select := selectAckRanges (recordSent ctx.sackList
      ctx.sackList.ackTree.dropLast.reverse.length isOpportunistic)
      (recordSent ctx.sackList ctx.sackList.ackTree.dropLast.reverse.length
        isOpportunistic).ackTree.getLast? maxAckBlocks isOpportunistic
    obtain ⟨sel, hsel, hout, hnum, hmax, hblocks⟩ := formatAckBlocks_spec space
      isOpportunistic select.1 select.2 (s := ⟨header ++ [0] ++
        varintBytes (last.endOfSackRange - last.startOfSackRange),
        recordSent ctx.sackList ctx.sackList.ackTree.dropLast.reverse.length isOpportunistic, 0,
        false⟩) hitems (Nat.zero_le _)
    dsimp only at hout hnum hmax hblocks
    have hlen : (header ++ [0] ++ varintBytes (last.endOfSackRange -
        last.startOfSackRange)).length =
        header.length + 1 + encodeVarintLength (last.endOfSackRange - last.startOfSackRange) := by
      simp only [List.length_append, List.length_singleton, varintBytes_length]
    rw [Nat.zero_add] at hnum hmax
    -- the reserved byte gets the number of blocks
    have hset : (header ++ [0] ++ varintBytes (last.endOfSackRange - last.startOfSackRange) ++
        blockBytes last.startOfSackRange sel).set header.length (UInt8.ofNat sel.length) =
        ackFrameBytes (ackTypeByte ctx.sendingEcnAck multipathSequence.isSome) multipathSequence
          (ackDelayOf params ctx currentTime) last sel := by
      rw [hframe sel hmax, set_length_append]
    refine ⟨trivial, trivial, trivial, trivial, ?_, Or.inr ⟨sel, hsel, hmax, ?_⟩⟩
    · rw [if_neg (by omega), hout, List.length_set, List.length_append, hblocks, hlen]
    · rw [hout, hnum, hset]
  · simp only [if_neg hfit]
    rw [if_pos (by omega)]
    simp

/-! ### Soundness -/

/-- The four types are told apart. -/
theorem ackFrameKind_ackTypeByte (isEcn isMultipath : Bool) (rest : List UInt8) :
    ackFrameKind (varintBytes (ackTypeByte isEcn isMultipath) ++ rest) =
      some (isEcn, isMultipath) := by
  have hmp : ∀ v : ℕ, 64 ≤ v → v % 2 ^ 62 = v → ((varintBytes v).headD 0).toNat ≠ frameTypeAck →
      ((varintBytes v).headD 0).toNat ≠ frameTypeAckEcn →
      ackFrameKind (varintBytes v ++ rest) =
        if v = frameTypeAckMp then some (false, true)
        else if v = frameTypeAckMpEcn then some (true, true) else none := by
    intro v _ hv hne hne'
    have hhead : (varintBytes v ++ rest).headD 0 = (varintBytes v).headD 0 := by
      have hpos := encodeVarintLength_pos v
      cases hb : varintBytes v with
      | nil => simp [← varintBytes_length, hb] at hpos
      | cons byte tail => rfl
    rw [ackFrameKind, hhead, if_neg hne, if_neg hne', framesVarintDecode_varintBytes, hv]
  cases isMultipath with
  | false => cases isEcn <;> rfl
  | true =>
    cases isEcn with
    | false => exact hmp frameTypeAckMp (by decide) (by decide) (by decide) (by decide)
    | true => exact hmp frameTypeAckMpEcn (by decide) (by decide) (by decide) (by decide)

/-- The counters are read back, and skipped as a whole. -/
theorem ecnCounts_varintBytes (a b c : ℕ) :
    (∃ counts, decodeEcnCounts (varintBytes a ++ (varintBytes b ++ varintBytes c)) =
        some (counts, [])) ∧
      skipEcnCounts (varintBytes a ++ (varintBytes b ++ varintBytes c)) = some [] := by
  have hc := framesVarintDecode_varintBytes c []
  have hs := framesVarintSkip_varintBytes c []
  rw [List.append_nil] at hc hs
  constructor
  · refine ⟨(a % 2 ^ 62, b % 2 ^ 62, c % 2 ^ 62), ?_⟩
    simp only [decodeEcnCounts, bind, framesVarintDecode_varintBytes, Option.bind_some, hc]
  · simp only [skipEcnCounts, framesVarintSkip_varintBytes, Option.bind_some, hs]

/-- A frame is skipped up to what follows its blocks. -/
theorem skipAckFrameMaybeEcn_ackFrameBytes (ackType ackDelay : ℕ)
    (multipathSequence : Option (Fin (2 ^ 62))) (isEcn : Bool) (last : SackItem)
    (items : List SackItem) (hitems : items.length ≤ maxAckBlocks) (tail : List UInt8) :
    skipAckFrameMaybeEcn (ackFrameBytes ackType multipathSequence ackDelay last items ++ tail) isEcn
        multipathSequence.isSome =
      if isEcn then skipEcnCounts tail else some tail := by
  have hnum : items.length % 2 ^ 62 = items.length :=
    Nat.mod_eq_of_lt (lt_of_le_of_lt hitems (by decide))
  cases multipathSequence with
  | none =>
    simp only [skipAckFrameMaybeEcn, ackFrameBytes, ackHeaderBytes, pathIdBytes, Option.elim_none,
      Option.isSome_none, List.append_assoc, List.nil_append, framesVarintSkip_varintBytes, bind,
      Option.bind_some, framesVarintDecode_varintBytes, hnum, skipAckBlocks_blockBytes,
      Bool.false_eq_true, if_false]
  | some sequence =>
    simp only [skipAckFrameMaybeEcn, ackFrameBytes, ackHeaderBytes, pathIdBytes, Option.elim_some,
      Option.isSome_some, List.append_assoc, framesVarintSkip_varintBytes, bind,
      Option.bind_some, framesVarintDecode_varintBytes, hnum, skipAckBlocks_blockBytes, if_true]

/-- **A frame of items of a list is sound for the list**, with its counters if it has the type with
counters. -/
theorem soundAckFrame_ackFrameBytes (hl : SackCanonical l) (hlast : l.getLast? = some last)
    {sel : List SackItem} (hsel : sel.Sublist l.dropLast.reverse) (hmax : sel.length ≤ maxAckBlocks)
    (isEcn : Bool) (multipathSequence : Option (Fin (2 ^ 62))) (ackDelay ackDelayExponent : ℕ)
    (tail : List UInt8)
    (htail : if isEcn then (∃ counts, decodeEcnCounts tail = some (counts, [])) ∧
      skipEcnCounts tail = some [] else tail = []) :
    SoundAckFrame l ackDelayExponent multipathSequence
      (ackFrameBytes (ackTypeByte isEcn multipathSequence.isSome) multipathSequence ackDelay last
        sel ++ tail) := by
  obtain ⟨hle, hlt, hitems⟩ := itemsBelow_dropLast hl hlast
  have hkind : ackFrameKind (ackFrameBytes (ackTypeByte isEcn multipathSequence.isSome)
      multipathSequence ackDelay last sel ++ tail) = some (isEcn, multipathSequence.isSome) := by
    rw [ackFrameBytes, ackHeaderBytes, List.append_assoc, List.append_assoc]
    exact ackFrameKind_ackTypeByte _ _ _
  have hlastmem : last ∈ l := List.mem_of_getLast? hlast
  have hselmem : ∀ item ∈ sel, item ∈ l := fun item hi =>
    List.dropLast_subset _ (List.mem_reverse.mp (hsel.subset hi))
  have hmem : ∀ item ∈ last :: sel, item ∈ l := fun item hi => by
    rcases List.mem_cons.mp hi with rfl | hi
    · exact hlastmem
    · exact hselmem item hi
  refine ⟨?_, isEcn, _, (last :: sel).map SackItem.toAckRange, tail, hkind,
    by rw [ackFrameBytes, List.append_assoc]; exact parseAckHeader_ackHeaderBytes _ hlt
        (lt_of_le_of_lt hmax (by decide)), ?_, ?_, ?_, ?_, ?_⟩
  · rw [skipAckFrame, hkind, Option.bind_some, skipAckFrameMaybeEcn_ackFrameBytes _ _ _ _ _ _ hmax]
    cases isEcn with
    | false => simpa using htail
    | true => simpa using htail.2
  · rintro sequence hsequence
    rw [Option.mem_def.mp hsequence]
    rfl
  · rw [ackFrameBytes, List.append_assoc, List.drop_left, List.append_assoc]
    exact ackRanges_blockBytes tail hle hlt (hitems.sublist hsel)
  · cases isEcn with
    | false => simpa using htail
    | true => simpa using htail.1
  · intro r hr n hn
    obtain ⟨item, hi, rfl⟩ := List.mem_map.mp hr
    exact ⟨item, hmem item hi, (SackItem.toAckRange_acks (hl.start_le (hmem item hi))).mp hn⟩
  · intro last' hlast' n hn hn'
    obtain rfl : last = last' := by simpa [hlast] using hlast'
    exact ⟨last.toAckRange, by simp, (SackItem.toAckRange_acks hle).mpr ⟨hn, hn'⟩⟩

/-- The space that is left for the acknowledgement frame after the time stamp. -/
def ackSpace (params : AckFormatParameters) (space currentTime : ℕ) (needTimeStamp : Bool) : ℕ :=
  space - (if needTimeStamp then (formatTimeStampFrame params space currentTime).1 else []).length

/-- The size of the ECN counters. -/
def ecnCountsSize (ctx : AckContext) : ℕ :=
  encodeVarintLength ctx.ecnEct0TotalLocal +
    (encodeVarintLength ctx.ecnEct1TotalLocal + encodeVarintLength ctx.ecnCeTotalLocal)

/-- **The failing inputs**: multipath is on, counters are to be sent, and the space takes the frame
without the counters but not with them. -/
def EcnCountsCutOff (params : AckFormatParameters) (space currentTime : ℕ) (ctx : AckContext)
    (multipathSequence : Option (Fin (2 ^ 62))) (isOpportunistic : Fin 2) : Prop :=
  ∃ last ∈ ctx.sackList.ackTree.getLast?,
    multipathSequence.isSome = true ∧ ctx.sendingEcnAck = true ∧
      0 < ackFrameSize params space currentTime ctx last multipathSequence isOpportunistic ∧
      space < ackFrameSize params space currentTime ctx last multipathSequence isOpportunistic +
        ecnCountsSize ctx

theorem ackFrameBytes_set_zero (ackDelay : ℕ) (last : SackItem) (items : List SackItem) :
    (ackFrameBytes (ackTypeByte true false) none ackDelay last items).set 0
        (UInt8.ofNat frameTypeAck) =
      ackFrameBytes (ackTypeByte false false) none ackDelay last items := rfl

theorem ackFrameKind_set_zero {bytes : List UInt8} (h : bytes ≠ []) :
    ackFrameKind (bytes.set 0 (UInt8.ofNat frameTypeAck)) = some (false, false) := by
  cases bytes with
  | nil => exact absurd rfl h
  | cons byte tail => rfl

theorem ackFrameBytes_ne_nil (ackType : ℕ) (multipathSequence : Option (Fin (2 ^ 62)))
    (ackDelay : ℕ) (last : SackItem) (items : List SackItem) :
    ackFrameBytes ackType multipathSequence ackDelay last items ≠ [] := by
  have hpos := encodeVarintLength_pos ackType
  intro h
  have hlen := congrArg List.length h
  simp only [ackFrameBytes, ackHeaderBytes, List.length_append, varintBytes_length,
    List.length_nil] at hlen
  omega

/-- The bytes are those of the ranges and the counters, in the space after the time stamp. -/
theorem formatAckFrameInContext_bytes (needTimeStamp : Bool)
    (multipathSequence : Option (Fin (2 ^ 62))) (isOpportunistic : Fin 2)
    (hlast : ctx.sackList.ackTree.getLast? = some last) :
    (formatAckFrameInContext params space currentTime ctx needTimeStamp multipathSequence
        isOpportunistic).2.1.bytes =
      (appendEcnCounts (ackSpace params space currentTime needTimeStamp)
        (formatAckRanges params (ackSpace params space currentTime needTimeStamp) currentTime ctx
          last multipathSequence isOpportunistic)).bytes := by
  simp only [formatAckFrameInContext, hlast, ackSpace]
  cases needTimeStamp <;> simp only [Bool.false_eq_true, if_false, if_true] <;>
    split_ifs <;> rfl

theorem ecnCountsCutOff_iff {params : AckFormatParameters} {space currentTime : ℕ}
    {multipathSequence : Option (Fin (2 ^ 62))} {isOpportunistic : Fin 2}
    (hlast : ctx.sackList.ackTree.getLast? = some last) :
    EcnCountsCutOff params space currentTime ctx multipathSequence isOpportunistic ↔
      multipathSequence.isSome = true ∧ ctx.sendingEcnAck = true ∧
        0 < ackFrameSize params space currentTime ctx last multipathSequence isOpportunistic ∧
        space < ackFrameSize params space currentTime ctx last multipathSequence isOpportunistic +
          ecnCountsSize ctx := by
  constructor
  · rintro ⟨last', hmem, h⟩
    obtain rfl : last = last' := by simpa [hlast] using hmem
    exact h
  · exact fun h => ⟨last, by simp [hlast], h⟩

/-- The bytes are empty or a sound frame, unless the counters are cut off: then they are those of a
frame whose first byte was overwritten. -/
theorem formatAckFrameInContext_cases (needTimeStamp : Bool)
    (multipathSequence : Option (Fin (2 ^ 62))) (isOpportunistic : Fin 2) (ackDelayExponent : ℕ)
    (hl : SackCanonical ctx.sackList.ackTree) :
    let bytes := (formatAckFrameInContext params space currentTime ctx needTimeStamp
      multipathSequence isOpportunistic).2.1.bytes
    let cutOff := EcnCountsCutOff params (ackSpace params space currentTime needTimeStamp)
      currentTime ctx multipathSequence isOpportunistic
    (¬ cutOff ∧ (bytes = [] ∨
      SoundAckFrame ctx.sackList.ackTree ackDelayExponent multipathSequence bytes)) ∨
      (cutOff ∧ ∃ frame ≠ [], bytes = frame.set 0 (UInt8.ofNat frameTypeAck)) := by
  intro bytes cutOff
  cases hlast : ctx.sackList.ackTree.getLast? with
  | none =>
    refine Or.inl ⟨?_, Or.inl ?_⟩
    · rintro ⟨last, hmem, -⟩
      simp [hlast] at hmem
    · simp only [bytes, formatAckFrameInContext, hlast]
  | some last =>
    dsimp only [bytes, cutOff]
    rw [formatAckFrameInContext_bytes params space currentTime needTimeStamp multipathSequence
      isOpportunistic hlast]
    generalize ackSpace params space currentTime needTimeStamp = space
    obtain ⟨hecn, h0, h1, hce, hsize, hranges⟩ := formatAckRanges_spec params space
      currentTime multipathSequence isOpportunistic hl hlast
    generalize hr : formatAckRanges params space currentTime ctx last multipathSequence
      isOpportunistic = r at *
    rw [ecnCountsCutOff_iff hlast, ← hsize, appendEcnCounts, formatEcnCounts_eq, hecn, h0, h1, hce]
    rcases hranges with hnil | ⟨sel, hsel, hmax, hframe⟩
    · rw [if_neg (by simp [hnil])]
      exact Or.inl ⟨by simp [hnil], Or.inl hnil⟩
    have hne : r.bytes ≠ [] := hframe ▸ ackFrameBytes_ne_nil _ _ _ _ _
    have hpos : 0 < r.bytes.length := List.length_pos_iff.mpr hne
    cases hsend : ctx.sendingEcnAck with
    | false =>
      rw [if_neg (by simp)]
      refine Or.inl ⟨by simp, Or.inr ?_⟩
      rw [hframe, hsend]
      simpa using soundAckFrame_ackFrameBytes hl hlast hsel hmax false multipathSequence
        (ackDelayOf params ctx currentTime) ackDelayExponent [] (by simp)
    | true =>
      rw [if_pos ⟨rfl, hne⟩, appendWithin]
      have hlen : (varintBytes ctx.ecnEct0TotalLocal ++ (varintBytes ctx.ecnEct1TotalLocal ++
          varintBytes ctx.ecnCeTotalLocal)).length = ecnCountsSize ctx := by
        simp [ecnCountsSize]
      rw [hlen]
      by_cases hfit : r.bytes.length + ecnCountsSize ctx ≤ space
      · -- the counters fit
        simp only [if_pos hfit]
        refine Or.inl ⟨by omega, Or.inr ?_⟩
        rw [hframe, hsend]
        exact soundAckFrame_ackFrameBytes hl hlast hsel hmax true multipathSequence
          (ackDelayOf params ctx currentTime) ackDelayExponent _
          (by simpa using ecnCounts_varintBytes _ _ _)
      · simp only [if_neg hfit]
        cases hmp : multipathSequence with
        | none =>
          -- a plain frame without the counters
          refine Or.inl ⟨by simp, Or.inr ?_⟩
          rw [hframe, hsend, hmp, Option.isSome_none, ackFrameBytes_set_zero]
          simpa using soundAckFrame_ackFrameBytes hl hlast hsel hmax false none
            (ackDelayOf params ctx currentTime) ackDelayExponent [] (by simp)
        | some sequence => exact Or.inr ⟨by simp; omega, r.bytes, hne, rfl⟩

/-- **When acknowledgement frames are sound.** The bytes of the formatter are empty or a sound
frame, if and only if it is not the case that multipath is on, counters are to be sent, and the
space takes the frame without the counters but not with them. -/
theorem formatAckFrameInContext_sound_iff (params : AckFormatParameters)
    (space currentTime : ℕ) (ctx : AckContext) (needTimeStamp : Bool)
    (multipathSequence : Option (Fin (2 ^ 62))) (isOpportunistic : Fin 2) (ackDelayExponent : ℕ)
    (hl : SackCanonical ctx.sackList.ackTree) :
    ((formatAckFrameInContext params space currentTime ctx needTimeStamp multipathSequence
          isOpportunistic).2.1.bytes = [] ∨
        SoundAckFrame ctx.sackList.ackTree ackDelayExponent multipathSequence
          (formatAckFrameInContext params space currentTime ctx needTimeStamp multipathSequence
            isOpportunistic).2.1.bytes) ↔
      ¬ EcnCountsCutOff params (ackSpace params space currentTime needTimeStamp) currentTime ctx
        multipathSequence isOpportunistic := by
  obtain ⟨hcut, h⟩ | ⟨hcut, frame, hne, hframe⟩ := formatAckFrameInContext_cases params space
    currentTime needTimeStamp multipathSequence isOpportunistic ackDelayExponent hl
  · exact iff_of_true h hcut
  · refine iff_of_false ?_ (not_not.mpr hcut)
    obtain ⟨-, -, hmp, -⟩ := hcut
    rw [hframe]
    rintro (h | h)
    · exact hne (by simpa using congrArg List.length h)
    · -- the first byte of a multipath type is overwritten
      obtain ⟨isEcn, header, ranges, rest, hkind, -⟩ := h.decode
      rw [ackFrameKind_set_zero hne] at hkind
      simp [hmp] at hkind

/-! ### A frame whose counters are cut off -/

/-- A context that received the packets `0` to `5` and sends counters. -/
def sampleAckContext : AckContext :=
  ⟨⟨[⟨0, 5, fun _ => 0, 0⟩], 0, 0, fun _ k => if k.val = 0 then 1 else 0⟩, 0,
    fun _ => ⟨0, 0, true, false, false⟩, 6, 0, 0, true⟩

theorem sampleAckContext_canonical : SackCanonical sampleAckContext.sackList.ackTree := by
  refine ⟨⟨by simp [sampleAckContext], List.pairwise_singleton _ _⟩, fun n hn => ?_⟩
  have : n ≤ 5 := by simpa [sampleAckContext, Covers] using hn
  omega

/-- With room for the counters the frame is sound. -/
theorem formatAckFrameInContext_sound_sample :
    ((formatAckFrameInContext ⟨3, 0⟩ 100 0 sampleAckContext false (some 1) 0).2.1.bytes = [] ∨
        SoundAckFrame sampleAckContext.sackList.ackTree 3 (some 1)
          (formatAckFrameInContext ⟨3, 0⟩ 100 0 sampleAckContext false (some 1) 0).2.1.bytes) ↔
      ¬ EcnCountsCutOff ⟨3, 0⟩ (ackSpace ⟨3, 0⟩ 100 0 false) 0 sampleAckContext (some 1) 0 :=
  formatAckFrameInContext_sound_iff ⟨3, 0⟩ 100 0 sampleAckContext false (some 1) 0 3
    sampleAckContext_canonical

/-- **Counters that are cut off.** In a space of ten bytes the multipath frame fits without its
counters only; its first byte becomes that of a plain frame, which acknowledges a packet number
that was never received. -/
theorem formatAckFrameInContext_mangled :
    (formatAckFrameInContext ⟨3, 0⟩ 10 0 sampleAckContext false (some 1) 0).2.1.bytes =
        [0x02, 0xba, 0xba, 0x01, 0x01, 0x05, 0x00, 0x00, 0x05] ∧
      ¬ SoundAckFrame sampleAckContext.sackList.ackTree 3 (some 1)
        [0x02, 0xba, 0xba, 0x01, 0x01, 0x05, 0x00, 0x00, 0x05] ∧
      parseAckHeader [0x02, 0xba, 0xba, 0x01, 0x01, 0x05, 0x00, 0x00, 0x05] false 3 =
        some ⟨0, 0x3aba0101, 40, 0, 7⟩ := by
  refine ⟨by decide +kernel, fun h => ?_, by decide +kernel⟩
  obtain ⟨isEcn, header, ranges, rest, hkind, -⟩ := h.decode
  have hplain : ackFrameKind [0x02, 0xba, 0xba, 0x01, 0x01, 0x05, 0x00, 0x00, 0x05] =
      some (false, false) := rfl
  rw [hplain] at hkind
  simp at hkind

end Picoquic
