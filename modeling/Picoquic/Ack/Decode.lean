import Mathlib.Data.List.DropRight
import Picoquic.Ack.Blocks
import Picoquic.Packet.Context

/-!
# Acknowledgement processing

An acknowledgement frame names ranges of packet numbers of one packet context. Processing it
finds a starting point in the retransmit queue, and from there walks towards the older packets
while the ranges descend: a packet whose number comes up is removed. The same ranges are compared
with the packets that were declared lost, which are then spurious retransmissions.

A walk is a list split at the cursor: `newer` are the packets passed so far, nearest first, and
`cursor` the packet under the cursor with the older ones. What the walk reports to other parts of
the connection (frames to be taken as acknowledged, notifications to congestion control) is a
list of effects.
-/

namespace Picoquic

variable {φ : Type}

/-- What acknowledgement processing hands over. -/
inductive AckEffect (φ : Type)
  /-- `picoquic_process_ack_of_frames`. -/
  | ackOfFrames (p : Packet φ) (isSpurious : Bool)
  /-- `picoquic_congestion_notification_acknowledgement`, for a path and a number of bytes. -/
  | congestionAcknowledgement (path nbBytes : ℕ)
  /-- `picoquic_congestion_notification_spurious_repeat`, for a path and a packet number. -/
  | congestionSpuriousRepeat (path sequenceNumber : ℕ)
  /-- `picoquic_congestion_notification_ecn_ec`. -/
  | congestionEcn

/-- The connection, as far as acknowledgement frames are concerned. -/
structure AckCnx (φ : Type) where
  contexts : ContextKey → PacketContext φ
  remoteCnxids : List ℕ
  paths : Paths
  latestProgressTime : ℕ
  nbSpurious : ℕ
  ackDelayExponent : ℕ

/-- A walk over a list of packets, with the paths and the effects of the walk. -/
structure AckWalk (φ : Type) where
  newer : List (Packet φ)
  cursor : List (Packet φ)
  paths : Paths
  effects : List (AckEffect φ)

/-- The packets of the list, newest first. -/
def AckWalk.packets (w : AckWalk φ) : List (Packet φ) := w.newer.reverse ++ w.cursor

/-! ### The starting point -/

/-- The walk of `picoquic_find_acked_packet` from the oldest packet towards the newest, up to the
first packet that is not below `largest`. -/
def towardsNewer (largest : ℕ) : List (Packet φ) → Packet φ → List (Packet φ) →
    List (Packet φ) × List (Packet φ)
  | [], p, older => ([], p :: older)
  | previous :: newer, p, older =>
    if p.sequenceNumber < largest then towardsNewer largest newer previous (p :: older)
    else (previous :: newer, p :: older)

/-- Whether `picoquic_find_acked_packet` takes `largest` for a new acknowledgement. -/
def isNewAck (ctx : PacketContext φ) (largest : ℕ) : Bool :=
  ctx.highestAcknowledged < largest || ctx.highestAcknowledged = 2 ^ 64 - 1

/-- `picoquic_find_acked_packet`: the queue split at the packet it returns. When the largest
number was acknowledged before, that is the oldest packet. -/
def findAckedPacket (ctx : PacketContext φ) (largest : ℕ) : List (Packet φ) × List (Packet φ) :=
  match ctx.retransmitQueue.reverse with
  | [] => ([], [])
  | oldest :: newer =>
    if isNewAck ctx largest then towardsNewer largest newer oldest [] else (newer, [oldest])

/-- The packet context after `picoquic_find_acked_packet`. -/
def recordHighest (ctx : PacketContext φ) (largest currentTime : ℕ) : PacketContext φ :=
  if isNewAck ctx largest then
    { ctx with
      highestAcknowledged := largest
      highestAcknowledgedTime := currentTime
      ackOfAckRequested := false }
  else ctx

/-! ### Acknowledged packets -/

/-- The timer of a path, tracked for the latest acknowledged packet. -/
def PathX.trackAckedPacket (path : PathX) (p : Packet φ) (currentTime : ℕ) : PathX :=
  if path.pathPacketAckedNumber < p.pathPacketNumber then
    { path with
      pathPacketAckedNumber := p.pathPacketNumber
      pathPacketAckedTimeSent := p.sendTime
      pathPacketAckedReceived := currentTime
      nbRetransmit := 0 }
  else path

/-- The path's side of an acknowledged packet in `picoquic_process_ack_range`. -/
def PathX.recordAck (path : PathX) (p : Packet φ) (currentTime : ℕ) : PathX :=
  let path :=
    { path with delivered := path.delivered + p.length, isAckLost := false, isAckExpected := false }
  let path := path.trackAckedPacket p currentTime
  if p.length + p.checksumOverhead = path.sendMtu then { path with nbMtuLosses := 0 }
  else if path.sendMtu < p.length + p.checksumOverhead then
    { path with sendMtu := p.length + p.checksumOverhead, mtuProbeSent := false }
  else path

/-- What an acknowledged packet is reported as. -/
def ackEffects (p : Packet φ) : List (AckEffect φ) :=
  match p.sendPath with
  | none => [.ackOfFrames p false]
  | some path => [.congestionAcknowledgement path p.length, .ackOfFrames p false]

/-- `picoquic_process_ack_range`: compare the numbers from `highest` down with the packets from
the cursor on. The loop ends with the range or with the queue; when `highest` is `0` the range
is used up. -/
def processAckRange (currentTime : ℕ) (newer cursor : List (Packet φ)) (paths : Paths)
    (effects : List (AckEffect φ)) (highest range : ℕ) : Except FrameError (AckWalk φ) :=
  match cursor, range with
  | [], _ => .ok ⟨newer, [], paths, effects⟩
  | p :: older, 0 => .ok ⟨newer, p :: older, paths, effects⟩
  | p :: older, range + 1 =>
    if highest < p.sequenceNumber then
      processAckRange currentTime (p :: newer) older paths effects highest (range + 1)
    else if p.sequenceNumber = highest then
      if p.isAckTrap then .error (.connection transportProtocolViolation frameTypeAck)
      else
        processAckRange currentTime newer older
          (p.leavePath (p.onSendPath (·.recordAck p currentTime) paths))
          (effects ++ ackEffects p) (highest - 1) range
    else processAckRange currentTime newer (p :: older) paths effects (highest - 1) range
  termination_by cursor.length + range

/-! ### Spurious retransmissions -/

/-- The path's side of a spurious retransmission. -/
def PathX.recordSpurious (path : PathX) (ctx : PacketContext φ) (p : Packet φ)
    (currentTime : ℕ) : PathX :=
  let path := { path with nbSpurious := path.nbSpurious + 1 }
  let path := path.trackAckedPacket p currentTime
  let mtu := p.length + p.checksumOverhead
  let path :=
    if path.sendMtu < mtu then
      { path with
        sendMtu := mtu
        sendMtuMaxTried := max path.sendMtuMaxTried mtu
        mtuProbeSent := false }
    else path
  { path with
    maxSpuriousRtt := max path.maxSpuriousRtt (sub64 currentTime p.sendTime)
    maxReorderDelay := max path.maxReorderDelay (sub64 ctx.latestTimeAcknowledged p.sendTime)
    maxReorderGap := max path.maxReorderGap (sub64 ctx.highestAcknowledged p.sequenceNumber)
    nbLossesFound := path.nbLossesFound - 1
    totalBytesLost := path.totalBytesLost - p.length }

/-- What a spurious retransmission is reported as. -/
def spuriousEffects (p : Packet φ) : List (AckEffect φ) :=
  match p.sendPath with
  | none => [.ackOfFrames p true]
  | some path => [.ackOfFrames p true, .congestionSpuriousRepeat path p.sequenceNumber]

/-- `picoquic_check_spurious_retransmission`: from the cursor on, while the numbers are not below
the range, the packets with a number in the range leave the list. -/
def checkSpuriousRetransmission (ctx : PacketContext φ) (startOfRange endOfRange currentTime : ℕ)
    (newer : List (Packet φ)) :
    List (Packet φ) → Paths → List (AckEffect φ) → AckWalk φ
  | [], paths, effects => ⟨newer, [], paths, effects⟩
  | p :: older, paths, effects =>
    if p.sequenceNumber < startOfRange then ⟨newer, p :: older, paths, effects⟩
    else if p.sequenceNumber ≤ endOfRange then
      checkSpuriousRetransmission ctx startOfRange endOfRange currentTime newer older
        (p.onSendPath (·.recordSpurious ctx p currentTime) paths) (effects ++ spuriousEffects p)
    else
      checkSpuriousRetransmission ctx startOfRange endOfRange currentTime (p :: newer) older paths
        effects

/-- `PICOQUIC_SPURIOUS_RETRANSMIT_DELAY_MAX`. -/
def spuriousRetransmitDelayMax : ℕ := 1000000

/-- `picoquic_dequeue_old_retransmitted_packets`: the oldest packets leave the list when they
were sent long before the latest acknowledged time. -/
def dequeueOldRetransmittedPackets (ctx : PacketContext φ) : PacketContext φ :=
  if spuriousRetransmitDelayMax < ctx.latestTimeAcknowledged then
    { ctx with
      retransmitted := ctx.retransmitted.rdropWhile fun p =>
        p.sendTime < ctx.latestTimeAcknowledged - spuriousRetransmitDelayMax }
  else ctx

/-! ### The frame -/

/-- The two walks of a frame, over the retransmit queue and over the retransmitted list. -/
structure AckWalks (φ : Type) where
  queue : AckWalk φ
  retransmitted : AckWalk φ

/-- What is done with one range. -/
def onAckRange (ctx : PacketContext φ) (currentTime : ℕ) (w : AckWalks φ) (r : AckRange) :
    Except FrameError (AckWalks φ) :=
  match processAckRange currentTime w.queue.newer w.queue.cursor w.queue.paths w.queue.effects
      r.highest r.range with
  | .error e => .error e
  | .ok queue =>
    let spurious := checkSpuriousRetransmission ctx (r.highest + 1 - r.range) r.highest currentTime
      w.retransmitted.newer w.retransmitted.cursor queue.paths queue.effects
    .ok ⟨{ queue with paths := spurious.paths, effects := spurious.effects }, spurious⟩

/-- The ECN part of `picoquic_decode_ack_frame`: the counters of the context of the epoch only
grow, and congestion control hears of new congestion marks. -/
def recordEcnCounts (ctx : PacketContext φ) (counts : ℕ × ℕ × ℕ) :
    PacketContext φ × List (AckEffect φ) :=
  ({ ctx with
      ecnEct0TotalRemote := max ctx.ecnEct0TotalRemote counts.1
      ecnEct1TotalRemote := max ctx.ecnEct1TotalRemote counts.2.1
      ecnCeTotalRemote := max ctx.ecnCeTotalRemote counts.2.2 },
    if ctx.ecnCeTotalRemote < counts.2.2 then [.congestionEcn] else [])

/-- The walks over a context, from the points where `picoquic_decode_ack_frame` starts them. -/
def startWalks (ctx : PacketContext φ) (paths : Paths) (largest : ℕ) : AckWalks φ :=
  let start := findAckedPacket ctx largest
  ⟨⟨start.1, start.2, paths, []⟩, ⟨[], ctx.retransmitted, paths, []⟩⟩

/-- The context after `picoquic_find_acked_packet` and the update of the progress that follows it
when the frame is new and there is a packet under the cursor. -/
def recordTopPacket (ctx : PacketContext φ) (largest currentTime : ℕ) : PacketContext φ :=
  let ctx' := recordHighest ctx largest currentTime
  match (findAckedPacket ctx largest).2 with
  | top :: _ =>
    if isNewAck ctx largest then
      { ctx' with latestTimeAcknowledged := max ctx'.latestTimeAcknowledged top.sendTime }
    else ctx'
  | [] => ctx'

/-- The context that a frame is about, if the connection knows it. -/
def AckCnx.contextOf (cnx : AckCnx φ) (header : AckHeader) (pc : Fin 3) (hasPathId : Bool) :
    Option ContextKey :=
  if hasPathId then
    if header.pathId ∈ cnx.remoteCnxids then some (.remoteCnxid header.pathId) else none
  else some (.epoch pc)

/-- The part of `picoquic_decode_ack_frame` that works on the context of the frame: the blocks are
processed, and then the old packets leave the retransmitted list. -/
def processAckBlocks (cnx : AckCnx φ) (key : ContextKey) (header : AckHeader)
    (bytes : List UInt8) (currentTime frameType : ℕ) :
    Except FrameError (AckCnx φ × List UInt8 × List (AckEffect φ)) :=
  let ctx := cnx.contexts key
  if ctx.sendSequence ≤ header.largest then
    .error (.connection transportProtocolViolation frameType)
  else
    let top := recordTopPacket ctx header.largest currentTime
    match ackBlockLoop frameType (onAckRange top currentTime) header.numBlock header.largest bytes
        (startWalks ctx cnx.paths header.largest) with
    | .error e => .error e
    | .ok (w, bytes) =>
      let ctx' := dequeueOldRetransmittedPackets
        { top with retransmitQueue := w.queue.packets, retransmitted := w.retransmitted.packets }
      .ok ({ cnx with
          contexts := Function.update cnx.contexts key ctx'
          paths := w.queue.paths
          latestProgressTime :=
            if isNewAck ctx header.largest && !(findAckedPacket ctx header.largest).2.isEmpty then
              currentTime
            else cnx.latestProgressTime
          nbSpurious :=
            cnx.nbSpurious + (ctx.retransmitted.length - w.retransmitted.packets.length) },
        bytes, w.queue.effects)

/-- `picoquic_decode_ack_frame`: the connection after the frame, the bytes after the frame, and
what the frame was reported as. A frame for an unknown path is skipped. -/
def decodeAckFrame (cnx : AckCnx φ) (bytes : List UInt8) (currentTime : ℕ) (pc : Fin 3)
    (isEcn hasPathId : Bool) : Except FrameError (AckCnx φ × List UInt8 × List (AckEffect φ)) :=
  let frameType := (bytes.headD 0).toNat
  match parseAckHeader bytes hasPathId cnx.ackDelayExponent with
  | none => .error (.connection transportFrameFormatError frameType)
  | some header =>
    match cnx.contextOf header pc hasPathId with
    | none =>
      match skipAckFrameMaybeEcn bytes isEcn hasPathId with
      | none => .error .malformed
      | some bytes => .ok (cnx, bytes, [])
    | some key =>
      match processAckBlocks cnx key header (bytes.drop header.consumed) currentTime frameType with
      | .error e => .error e
      | .ok (cnx, bytes, effects) =>
        if isEcn then
          match decodeEcnCounts bytes with
          | none => .error .malformed
          | some (counts, bytes) =>
            let r := recordEcnCounts (cnx.contexts (.epoch pc)) counts
            .ok ({ cnx with contexts := Function.update cnx.contexts (.epoch pc) r.1 }, bytes,
              effects ++ r.2)
        else .ok (cnx, bytes, effects)

end Picoquic
