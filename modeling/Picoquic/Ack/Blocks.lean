import Picoquic.Wire.Varint

/-!
# Acknowledgement frames: header and blocks

An acknowledgement frame is a type, with multipath a path identifier, the largest acknowledged
number, a delay, a number of blocks, and then alternately the size of a range and the gap to the
next one. With ECN three counters follow.

The loop over the blocks interleaves decoding with the processing of each range, so it is one
definition with the processing as a parameter. `ackRanges` is the list of ranges the blocks
stand for; `ackBlockLoop_ok_iff` says that the processing is applied to exactly these ranges, in
their order, and `ackRanges_descending` that each of them lies below the one before.
-/

namespace Picoquic

/-- The reason a frame is refused: a transport error that closes the connection, with its code
and the frame type it names, or a frame that is only reported as malformed. -/
inductive FrameError
  | connection (code frameType : ℕ)
  | malformed
  deriving DecidableEq

/-- `PICOQUIC_TRANSPORT_FRAME_FORMAT_ERROR`. -/
def transportFrameFormatError : ℕ := 0x7

/-- `PICOQUIC_TRANSPORT_PROTOCOL_VIOLATION`. -/
def transportProtocolViolation : ℕ := 0xA

/-- `picoquic_frame_type_ack`. -/
@[match_pattern] def frameTypeAck : ℕ := 2

/-- `picoquic_frame_type_ack_ecn`. -/
@[match_pattern] def frameTypeAckEcn : ℕ := 3

/-- `picoquic_frame_type_ack_mp`. -/
@[match_pattern] def frameTypeAckMp : ℕ := 0xbaba00

/-- `picoquic_frame_type_ack_mp_ecn`. -/
@[match_pattern] def frameTypeAckMpEcn : ℕ := 0xbaba01

/-- The values of an acknowledgement header and the number of bytes it takes. -/
structure AckHeader where
  pathId : ℕ
  largest : ℕ
  ackDelay : ℕ
  numBlock : ℕ
  consumed : ℕ
  deriving DecidableEq

/-- Read a value at `index` unless the bytes are used up: its length, `0` if there is none, and
the value. -/
def headerField (bytes : List UInt8) (index : ℕ) : ℕ × ℕ :=
  if index < bytes.length then varintDecode (bytes.drop index) else (0, 0)

/-- `picoquic_parse_ack_header`, the first byte being the first of the frame type. -/
def parseAckHeader (bytes : List UInt8) (hasPathId : Bool) (ackDelayExponent : ℕ) :
    Option AckHeader :=
  let index := decodeVarintLength (bytes.headD 0)
  let path := if hasPathId then headerField bytes index else (0, 0)
  let largest := headerField bytes (index + path.1)
  let delay := headerField bytes (index + path.1 + largest.1)
  let blocks := headerField bytes (index + path.1 + largest.1 + delay.1)
  let consumed := index + path.1 + largest.1 + delay.1 + blocks.1
  if largest.1 = 0 ∨ delay.1 = 0 ∨ blocks.1 = 0 ∨ bytes.length < consumed ∨
      (hasPathId = true ∧ path.1 = 0) then none
  else some ⟨path.2, largest.2, u64 (delay.2 <<< ackDelayExponent), blocks.2, consumed⟩

/-- A range of acknowledged numbers, by its highest number and its size. -/
structure AckRange where
  highest : ℕ
  range : ℕ

/-- The numbers of a range. -/
def AckRange.Acks (r : AckRange) (n : ℕ) : Prop := r.highest < n + r.range ∧ n ≤ r.highest

theorem AckRange.acks_mk {highest range n : ℕ} :
    (⟨highest, range⟩ : AckRange).Acks n ↔ highest < n + range ∧ n ≤ highest := Iff.rfl

instance (r : AckRange) (n : ℕ) : Decidable (r.Acks n) := inferInstanceAs (Decidable (_ ∧ _))

/-- The loop of `picoquic_decode_ack_frame` over the blocks, with what is done with each range
as a parameter. `frameType` is the first byte of the frame, named in the errors. -/
def ackBlockLoop {σ : Type} (frameType : ℕ) (onRange : σ → AckRange → Except FrameError σ) :
    ℕ → ℕ → List UInt8 → σ → Except FrameError (σ × List UInt8)
  | numBlock, largest, bytes, s =>
    match framesVarintDecode bytes with
    | none => .error (.connection transportFrameFormatError frameType)
    | some (range, bytes) =>
      if largest + 1 < range + 1 then .error (.connection transportFrameFormatError frameType)
      else
        match onRange s ⟨largest, range + 1⟩ with
        | .error e => .error e
        | .ok s =>
          match numBlock with
          | 0 => .ok (s, bytes)
          | numBlock + 1 =>
            match framesVarintDecode bytes with
            | none => .error (.connection transportFrameFormatError frameType)
            | some (gap, bytes) =>
              let blockToBlock := gap + 1 + (range + 1)
              if largest < blockToBlock then
                .error (.connection transportFrameFormatError frameType)
              else ackBlockLoop frameType onRange numBlock (largest - blockToBlock) bytes s

/-- The ranges that the blocks of a frame stand for, from the highest on, and the bytes after
the blocks. -/
def ackRanges : ℕ → ℕ → List UInt8 → Option (List AckRange × List UInt8)
  | numBlock, largest, bytes =>
    match framesVarintDecode bytes with
    | none => none
    | some (range, bytes) =>
      if largest + 1 < range + 1 then none
      else
        match numBlock with
        | 0 => some ([⟨largest, range + 1⟩], bytes)
        | numBlock + 1 =>
          match framesVarintDecode bytes with
          | none => none
          | some (gap, bytes) =>
            if largest < gap + 1 + (range + 1) then none
            else (ackRanges numBlock (largest - (gap + 1 + (range + 1))) bytes).map fun p =>
              (⟨largest, range + 1⟩ :: p.1, p.2)

/-- The ECN counters at the end of a frame. -/
def decodeEcnCounts (bytes : List UInt8) : Option ((ℕ × ℕ × ℕ) × List UInt8) := do
  let (ect0, bytes) ← framesVarintDecode bytes
  let (ect1, bytes) ← framesVarintDecode bytes
  let (ce, bytes) ← framesVarintDecode bytes
  some ((ect0, ect1, ce), bytes)

/-- The blocks of a frame, skipped: for each block a gap and a size. -/
def skipAckBlocks : ℕ → List UInt8 → Option (List UInt8)
  | 0, bytes => some bytes
  | nbBlocks + 1, bytes =>
    match framesVarintSkip bytes with
    | none => none
    | some bytes =>
      match framesVarintSkip bytes with
      | none => none
      | some bytes => skipAckBlocks nbBlocks bytes

/-- Three counters, skipped. -/
def skipEcnCounts (bytes : List UInt8) : Option (List UInt8) :=
  ((framesVarintSkip bytes).bind framesVarintSkip).bind framesVarintSkip

/-- `picoquic_skip_ack_frame_maybe_ecn`: what follows an acknowledgement frame. -/
def skipAckFrameMaybeEcn (bytes : List UInt8) (isEcn hasPath : Bool) : Option (List UInt8) := do
  let bytes ← framesVarintSkip bytes
  let bytes ← framesVarintSkip bytes
  let bytes ← if hasPath then framesVarintSkip bytes else some bytes
  let bytes ← framesVarintSkip bytes
  let (nbBlocks, bytes) ← framesVarintDecode bytes
  let bytes ← framesVarintSkip bytes
  let bytes ← skipAckBlocks nbBlocks bytes
  if isEcn then skipEcnCounts bytes else some bytes

/-- Ranges below or at `largest`, each within the natural numbers, and each below the one before
with a number missing in between. -/
structure Descending (largest : ℕ) (ranges : List AckRange) : Prop where
  bounds : ∀ r ∈ ranges, 0 < r.range ∧ r.range ≤ r.highest + 1 ∧ r.highest ≤ largest
  gap : ranges.Pairwise fun r r' => r'.highest + r.range < r.highest

variable {numBlock largest : ℕ} {bytes rest : List UInt8}

/-- **Fusion.** The loop accepts exactly when the ranges decode and their processing, one after
the other, accepts each of them. -/
theorem ackBlockLoop_ok_iff {σ : Type} {frameType : ℕ}
    {onRange : σ → AckRange → Except FrameError σ} {s s' : σ} :
    ackBlockLoop frameType onRange numBlock largest bytes s = .ok (s', rest) ↔
      ∃ ranges, ackRanges numBlock largest bytes = some (ranges, rest) ∧
        ranges.foldlM onRange s = .ok s' := by
  induction numBlock generalizing largest bytes s with
  | zero =>
    rw [ackBlockLoop, ackRanges]
    cases framesVarintDecode bytes with
    | none => simp
    | some p =>
      by_cases hr : largest + 1 < p.1 + 1
      · simp [hr]
      · simp only [if_neg hr]
        cases hs : onRange s ⟨largest, p.1 + 1⟩ <;>
          simp [hs, bind, Except.bind, pure, Except.pure]
        tauto
  | succ numBlock ih =>
    rw [ackBlockLoop, ackRanges]
    cases framesVarintDecode bytes with
    | none => simp
    | some p =>
      by_cases hr : largest + 1 < p.1 + 1
      · simp [hr]
      · simp only [if_neg hr]
        cases framesVarintDecode p.2 with
        | none => cases onRange s ⟨largest, p.1 + 1⟩ <;> simp
        | some q =>
          by_cases hb : largest < q.1 + 1 + (p.1 + 1)
          · cases onRange s ⟨largest, p.1 + 1⟩ <;> simp [hb]
          · cases hs : onRange s ⟨largest, p.1 + 1⟩ with
            | error e => simp [hb, hs, bind, Except.bind]
            | ok s₁ => simp [hb, hs, ih, bind, Except.bind]

/-- Decoded ranges descend from the largest acknowledged number. -/
theorem ackRanges_descending {ranges : List AckRange}
    (h : ackRanges numBlock largest bytes = some (ranges, rest)) : Descending largest ranges := by
  induction numBlock generalizing largest bytes ranges with
  | zero =>
    rw [ackRanges] at h
    cases hd : framesVarintDecode bytes with
    | none => simp [hd] at h
    | some p =>
      rw [hd] at h
      simp only [Option.ite_none_left_eq_some, Option.some.injEq, Prod.mk.injEq] at h
      obtain ⟨hr, rfl, -⟩ := h
      refine ⟨fun r hmem => ?_, List.pairwise_singleton _ _⟩
      rw [List.mem_singleton.mp hmem]
      exact ⟨Nat.succ_pos _, not_lt.mp hr, le_rfl⟩
  | succ numBlock ih =>
    rw [ackRanges] at h
    cases hd : framesVarintDecode bytes with
    | none => simp [hd] at h
    | some p =>
      cases hg : framesVarintDecode p.2 with
      | none => simp [hd, hg] at h
      | some q =>
        simp only [hd, hg, Option.ite_none_left_eq_some, Option.map_eq_some_iff, Prod.mk.injEq] at h
        obtain ⟨hr, hb, ⟨tail, rest'⟩, htail, rfl, rfl⟩ := h
        have htl := ih htail
        refine ⟨fun r hmem => ?_, List.pairwise_cons.mpr ⟨fun r hmem => ?_, htl.gap⟩⟩
        · rcases List.mem_cons.mp hmem with rfl | hmem
          · exact ⟨Nat.succ_pos _, not_lt.mp hr, le_rfl⟩
          · have := htl.bounds r hmem
            omega
        · have := htl.bounds r hmem
          simp only
          omega

end Picoquic
