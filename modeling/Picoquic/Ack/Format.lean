import Picoquic.Ack.Blocks
import Picoquic.Sack.Context

/-!
# Writing acknowledgement frames

A frame is written into the space that is left in a packet. The header comes first, one byte
being reserved for the number of blocks; then one block after the other as long as they fit, from
the highest range down, where ranges that were sent often are left out; then, with ECN, three
counters. The byte of the number of blocks is filled in afterwards, and when the counters do not
fit the first byte of the frame is overwritten.

Bytes are given relative to the position the writer starts from, and `space` is what is left of
the buffer at that position.
-/

namespace Picoquic

/-- `picoquic_frame_type_time_stamp`. -/
@[match_pattern] def frameTypeTimeStamp : ℕ := 757

/-- The parameters of the connection that the frames depend on. -/
structure AckFormatParameters where
  ackDelayExponent : ℕ
  startTime : ℕ

/-- `picoquic_format_time_stamp_frame`: the bytes, none when they do not fit, and whether there is
more data to send. -/
def formatTimeStampFrame (params : AckFormatParameters) (space currentTime : ℕ) :
    List UInt8 × Bool :=
  let timeStamp := sub64 currentTime params.startTime >>> params.ackDelayExponent
  match (framesVarintEncode [] space frameTypeTimeStamp).bind fun out =>
      framesVarintEncode out space timeStamp with
  | some out => (out, false)
  | none => ([], true)

/-- The frame type, by the settings of ECN and multipath. -/
def ackTypeByte (isEcn isMultipath : Bool) : ℕ :=
  if isMultipath then if isEcn then frameTypeAckMpEcn else frameTypeAckMp
  else if isEcn then frameTypeAckEcn else frameTypeAck

/-- The header of a frame, up to the number of blocks. The multipath sequence is absent where the
code passes `UINT64_MAX`. -/
def formatAckHeader (space ackType : ℕ) (multipathSequence : Option (Fin (2 ^ 62)))
    (largest ackDelay : ℕ) : Option (List UInt8) := do
  let out ← framesVarintEncode [] space ackType
  let out ← match multipathSequence with
    | none => some out
    | some sequence => framesVarintEncode out space sequence
  let out ← framesVarintEncode out space largest
  framesVarintEncode out space ackDelay

/-- What the loop over the ranges keeps: the bytes written, the list with its send counts, the
number of blocks and whether something did not fit. -/
structure AckBlocksState where
  out : List UInt8
  sackList : SackList
  numBlock : ℕ
  moreData : Bool

/-- The largest number of blocks of a frame. -/
def maxAckBlocks : ℕ := 32

/-- One block: the gap below `lowestAcknowledged` and the size of the range. -/
def formatAckBlock (out : List UInt8) (space lowestAcknowledged : ℕ) (item : SackItem) :
    Option (List UInt8) :=
  let ackGap := sub64 (sub64 lowestAcknowledged item.endOfSackRange) 2
  let ackRange := sub64 item.endOfSackRange item.startOfSackRange
  (framesVarintEncode out space ackGap).bind fun out => framesVarintEncode out space ackRange

/-- The loop of `picoquic_format_ack_frame_in_context` over the items below the highest one,
given from the highest on; the position of an item in the list is the number of items below
it. -/
def formatAckBlocks (space : ℕ) (isOpportunistic : Fin 2) (nbSentMaxAcked : ℕ) :
    List SackItem → ℤ → ℕ → AckBlocksState → AckBlocksState
  | [], _, _, s => s
  | next :: items, nbSentMaxSkip, lowestAcknowledged, s =>
    if maxAckBlocks ≤ s.numBlock then s
    else if nbSentMaxAcked < next.nbTimesSent isOpportunistic then
      formatAckBlocks space isOpportunistic nbSentMaxAcked items nbSentMaxSkip lowestAcknowledged s
    else if next.nbTimesSent isOpportunistic = nbSentMaxAcked ∧ 0 < nbSentMaxSkip then
      formatAckBlocks space isOpportunistic nbSentMaxAcked items (nbSentMaxSkip - 1)
        lowestAcknowledged s
    else
      (formatAckBlock s.out space lowestAcknowledged next).elim { s with moreData := true }
        fun out =>
        formatAckBlocks space isOpportunistic nbSentMaxAcked items nbSentMaxSkip
          next.startOfSackRange
          { s with
            out := out
            sackList := recordSent s.sackList items.length isOpportunistic
            numBlock := s.numBlock + 1 }

/-- The ECN counters of a frame. -/
def formatEcnCounts (out : List UInt8) (space : ℕ) (ctx : AckContext) : Option (List UInt8) := do
  let out ← framesVarintEncode out space ctx.ecnEct0TotalLocal
  let out ← framesVarintEncode out space ctx.ecnEct1TotalLocal
  framesVarintEncode out space ctx.ecnCeTotalLocal

/-- What writing a frame leaves. -/
structure AckFormatResult where
  bytes : List UInt8
  moreData : Bool
  ctx : AckContext

/-- The end of `picoquic_format_ack_frame_in_context`: the counters if they are sent. When they do
not fit, the first byte of the frame becomes `picoquic_frame_type_ack`. -/
def appendEcnCounts (space : ℕ) (r : AckFormatResult) : AckFormatResult :=
  if r.ctx.sendingEcnAck = true ∧ r.bytes ≠ [] then
    match formatEcnCounts r.bytes space r.ctx with
    | some out => { r with bytes := out }
    | none => { r with bytes := r.bytes.set 0 (UInt8.ofNat frameTypeAck), moreData := true }
  else r

/-- A frame was written: nothing is needed any more. -/
def clearAckNeeded (ctx : AckContext) (isOpportunistic : Fin 2) : AckContext :=
  { ctx with
    act := Function.update ctx.act isOpportunistic
      { ctx.act isOpportunistic with
        ackNeeded := false, ackAfterFin := false, outOfOrderReceived := false } }

/-- The delay of a frame, in the units of the connection. -/
def ackDelayOf (params : AckFormatParameters) (ctx : AckContext) (currentTime : ℕ) : ℕ :=
  if ctx.timeStampLargestReceived < currentTime then
    (currentTime - ctx.timeStampLargestReceived) >>> params.ackDelayExponent
  else 0

/-- The part of `picoquic_format_ack_frame_in_context` from the frame type to the blocks, for a
list whose highest item is `last`; nothing is written when the header does not fit. -/
def formatAckRanges (params : AckFormatParameters) (space currentTime : ℕ) (ctx : AckContext)
    (last : SackItem) (multipathSequence : Option (Fin (2 ^ 62))) (isOpportunistic : Fin 2) :
    AckFormatResult :=
  let ackType := ackTypeByte ctx.sendingEcnAck multipathSequence.isSome
  let header := formatAckHeader space ackType multipathSequence last.endOfSackRange
    (ackDelayOf params ctx currentTime)
  -- one byte is reserved for the number of blocks
  match header.bind fun out => framesVarintEncode (out ++ [0]) space
      (sub64 last.endOfSackRange last.startOfSackRange) with
  | none => ⟨[], true, ctx⟩
  | some out =>
    let items := ctx.sackList.ackTree.dropLast.reverse
    let sackList := recordSent ctx.sackList items.length isOpportunistic
    let select := selectAckRanges sackList sackList.ackTree.getLast? maxAckBlocks isOpportunistic
    let blocks := formatAckBlocks space isOpportunistic select.1 items select.2
      last.startOfSackRange ⟨out, sackList, 0, false⟩
    let track := ctx.act isOpportunistic
    ⟨blocks.out.set (header.getD []).length (UInt8.ofNat blocks.numBlock), blocks.moreData,
      { ctx with
        sackList := blocks.sackList
        act := Function.update ctx.act isOpportunistic
          { track with
            highestAckSent := sackListLast blocks.sackList
            highestAckSentTime := currentTime } }⟩

/-- `picoquic_format_ack_frame_in_context`: a time stamp frame if one is still needed, and after
it the acknowledgement frame. The components are the bytes of the time stamp, what writing the
acknowledgement left, and whether a time stamp is needed after the call. -/
def formatAckFrameInContext (params : AckFormatParameters) (space currentTime : ℕ)
    (ctx : AckContext) (needTimeStamp : Bool) (multipathSequence : Option (Fin (2 ^ 62)))
    (isOpportunistic : Fin 2) : List UInt8 × AckFormatResult × Bool :=
  match ctx.sackList.ackTree.getLast? with
  | none => ([], ⟨[], false, ctx⟩, needTimeStamp)
  | some last =>
    let stamp :=
      if needTimeStamp then formatTimeStampFrame params space currentTime else ([], false)
    let space := space - stamp.1.length
    let r := appendEcnCounts space
      (formatAckRanges params space currentTime ctx last multipathSequence isOpportunistic)
    let r := { r with moreData := r.moreData || stamp.2 }
    (stamp.1, if r.bytes ≠ [] then { r with ctx := clearAckNeeded r.ctx isOpportunistic } else r,
      false)

end Picoquic
