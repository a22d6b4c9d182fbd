import Picoquic.Packet.Sooner
import Picoquic.Stream.Receive

/-!
# Repeating frames

What a connection does with the frames of a packet that is lost, and with those of a packet that
it repeats before it is lost.

* **`SendCnx.noNeedToRepeat`** — the rule that decides frame by frame;
* **`SendCnx.copyBeforeRetransmit`** — a packet is lost;
* **`SendCnx.preemptiveRetransmitPacket`** — a packet is repeated early.
A packet is the list of its frames as `picoquic_skip_frame` cuts it. The retransmit queues of all
packet contexts are one list, and so are the lists of retransmitted packets; events name packets
by their position. Memory is always available. A DATAGRAM frame comes with what the application's
callback returns when the frame is reported as lost, which happens at most once.
`finOffsets`, `sentControl` and `ackedControl` are history: where a FIN was sent, and which
RESET_STREAM and STOP_SENDING frames were sent and acknowledged.
-/

namespace Picoquic

/-! ### Frames -/

/-- A STREAM frame. The length field is present if the bit `2` of its first byte is set. -/
structure StreamFrame where
  streamId : ℕ
  offset : ℕ
  data : List UInt8
  fin : Bool
  hasLength : Bool
  deriving DecidableEq

/-- The other frames, with what decides whether they are repeated. -/
inductive ControlFrame
  | padding
  | ack
  | ackMp
  | timeStamp
  | pathChallenge
  | pathResponse
  | ping
  | connectionClose
  | applicationClose
  | pathAbandon
  | bdp
  | maxData (maxdata : ℕ)
  | maxStreamData (streamId maxdata : ℕ)
  | maxStreams (isUnidir : Bool) (rank : ℕ)
  | dataBlocked (maxdata : ℕ)
  | streamsBlocked (isUnidir : Bool) (rank : ℕ)
  | streamDataBlocked (streamId maxdata : ℕ)
  /-- `lostResult` is what the callback returns for the event `datagram_lost`, and zero if there is
  no callback. -/
  | datagram (lostResult : ℤ)
  | handshakeDone
  | newToken
  | cryptoHs (offset length : ℕ)
  | newConnectionId (sequence : ℕ)
  | retireConnectionId (sequence : ℕ)
  | ackFrequency (sequence : ℕ)
  deriving DecidableEq

/-- A frame. Frames that are only copied come with their bytes. -/
inductive Frame
  | stream (f : StreamFrame)
  | resetStream (streamId errorCode finalSize : ℕ)
  | stopSending (streamId errorCode : ℕ)
  | control (c : ControlFrame) (bytes : List UInt8)
  deriving DecidableEq

/-- What `picoquic_format_stream_frame_header` writes: type, stream and, unless it is zero,
offset. -/
def streamHeaderLength (streamId offset : ℕ) : ℕ :=
  1 + encodeVarintLength streamId + if offset = 0 then 0 else encodeVarintLength offset

/-- What `picoquic_parse_stream_header` consumes. -/
def StreamFrame.consumed (f : StreamFrame) : ℕ :=
  streamHeaderLength f.streamId f.offset +
    if f.hasLength then encodeVarintLength f.data.length else 0

/-- The length of a STREAM frame. -/
def StreamFrame.length (f : StreamFrame) : ℕ := f.consumed + f.data.length

/-- The last position that a STREAM frame acknowledges. Its FIN counts as one position. -/
def StreamFrame.last (f : StreamFrame) : ℕ :=
  sub64 (u64 (f.offset + f.data.length)) (if f.fin then 0 else 1)

/-- The length of a frame. -/
def Frame.length : Frame → ℕ
  | .stream f => f.length
  | .resetStream streamId errorCode finalSize =>
    1 + encodeVarintLength streamId + encodeVarintLength errorCode + encodeVarintLength finalSize
  | .stopSending streamId errorCode =>
    1 + encodeVarintLength streamId + encodeVarintLength errorCode
  | .control _ bytes => bytes.length

/-- The length of a list of frames. -/
def framesLength (frames : List Frame) : ℕ := (frames.map Frame.length).sum

/-- Zero bytes between frames are PADDING frames. -/
def padding (n : ℕ) : List Frame :=
  if n = 0 then [] else [.control .padding (List.replicate n 0)]

/-- `pure_ack` of `picoquic_skip_frame`. -/
def Frame.isPureAck : Frame → Bool
  | .control .padding _ | .control .ack _ | .control .ackMp _ | .control .timeStamp _
  | .control .pathChallenge _ | .control .pathResponse _ => true
  | _ => false

/-! ### Connections -/

/-- `picoquic_stream_head_t`, the part that sending touches. The nodes of the send queue are
given by the bytes that are left in them. -/
structure SendStream where
  sendQueue : List (List UInt8)
  sentOffset : ℕ
  /-- Limit granted by the peer. -/
  maxdataRemote : ℕ
  isActive : Bool
  isOutputStream : Bool
  isClosed : Bool
  finRequested : Bool
  finSent : Bool
  resetRequested : Bool
  resetSent : Bool
  stopSendingRequested : Bool
  stopSendingSent : Bool
  stopSendingReceived : Bool
  streamDataBlockedSent : Bool
  localError : ℕ
  localStopError : ℕ
  sackList : SackList
  finReceived : Bool
  finSignalled : Bool
  resetReceived : Bool
  resetSignalled : Bool
  /-- Limit granted to the peer, and the highest one that the peer acknowledged. -/
  maxdataLocal : ℕ
  maxdataLocalAcked : ℕ
  finOffsets : List ℕ

/-- `picoquic_packet_t`, the part that decides what is repeated. `offset` is the length of the
header. -/
structure SentPacket where
  ptype : PacketType
  offset : ℕ
  isMtuProbe : Bool
  isAckTrap : Bool
  isMultipathProbe : Bool
  wasPreemptivelyRepeated : Bool
  frames : List Frame

/-- A packet that is not special in any way. -/
def SentPacket.plain (ptype : PacketType) (offset : ℕ) (frames : List Frame) : SentPacket :=
  ⟨ptype, offset, false, false, false, false, frames⟩

/-- Neither a probe, nor an acknowledgement trap, nor repeated already. -/
def SentPacket.willRepeat (p : SentPacket) : Bool :=
  !p.isMtuProbe && !p.isAckTrap && !p.isMultipathProbe && !p.wasPreemptivelyRepeated

/-- The length of a packet. -/
def SentPacket.length (p : SentPacket) : ℕ := p.offset + framesLength p.frames

/-- The fields of `picoquic_cnx_t` that decide whether control frames are repeated. Those that
exist for bidirectional and for unidirectional streams are indexed by `is_unidir`, and a
connection ID is its sequence number with the flag that stops the repetition. -/
structure ControlState where
  maxdataLocal : ℕ
  maxdataLocalAcked : ℕ
  maxStreamIdLocal : Bool → ℕ
  maxStreamIdRankAcked : Bool → ℕ
  maxStreamIdRemote : Bool → ℕ
  streamBlockedSent : Bool → Bool
  sentBlockedFrame : Bool
  isHandshakeDoneAcked : Bool
  isNewTokenAcked : Bool
  ackFrequencySequenceLocal : ℕ
  /-- The acknowledged bytes of the TLS streams, by the type of the packets that carry them. -/
  tlsSackList : PacketType → Option SackList
  localCnxids : List (ℕ × Bool)
  stashedCnxids : List (ℕ × Bool)

/-- `picoquic_cnx_t`, the part that sending touches. -/
structure SendCnx where
  clientMode : Bool
  isPreemptiveRepeatEnabled : Bool
  /-- `cnx_state < picoquic_state_client_ready_start`. -/
  beforeClientReady : Bool
  maxdataRemote : ℕ
  dataSent : ℕ
  streams : ℕ → Option SendStream
  controlState : ControlState
  miscFrames : List Frame
  streamFrameRetransmitQueue : List StreamFrame
  retransmitQueue : List SentPacket
  retransmitted : List SentPacket
  sentControl : List Frame
  ackedControl : List Frame

/-- A new connection. -/
def SendCnx.initial (clientMode isPreemptiveRepeatEnabled : Bool) (maxdataRemote : ℕ)
    (controlState : ControlState) : SendCnx :=
  { clientMode := clientMode
    isPreemptiveRepeatEnabled := isPreemptiveRepeatEnabled
    beforeClientReady := true
    maxdataRemote := maxdataRemote
    dataSent := 0
    streams := fun _ => none
    controlState := controlState
    miscFrames := []
    streamFrameRetransmitQueue := []
    retransmitQueue := []
    retransmitted := []
    sentControl := []
    ackedControl := [] }

/-- Stores a changed stream. -/
def SendCnx.putStream (c : SendCnx) (streamId : ℕ) (s : SendStream) : SendCnx :=
  { c with streams := Function.update c.streams streamId (some s) }

/-- Changes a stream, if it exists. -/
def SendCnx.modifyStream (c : SendCnx) (streamId : ℕ) (f : SendStream → SendStream) : SendCnx :=
  match c.streams streamId with
  | none => c
  | some s => c.putStream streamId (f s)

/-! ### Which frames are repeated -/

/-- `STREAM_ID_FROM_RANK`. -/
def streamIdFromRank (rank : ℕ) (clientMode isUnidir : Bool) : ℕ :=
  u64 (4 * sub64 rank 1) + 2 * isUnidir.toNat + (!clientMode).toNat

/-- The list walk of `picoquic_check_new_cid_needs_repeat` and of
`picoquic_check_retire_connection_id_needs_repeat`: no need to repeat if the connection ID is not
there. -/
def cnxidNoNeed (l : List (ℕ × Bool)) (sequence : ℕ) : Bool :=
  match l.find? fun cnxid => cnxid.1 = sequence with
  | none => true
  | some cnxid => cnxid.2

/-- `picoquic_check_frame_needs_repeat`, the branches for other frames than STREAM. -/
def SendCnx.controlNoNeed (c : SendCnx) (ptype : PacketType) (isPreemptive : Bool) :
    ControlFrame → Bool
  | .maxData maxdata =>
    decide (maxdata < c.controlState.maxdataLocal ∨ maxdata ≤ c.controlState.maxdataLocalAcked)
  | .maxStreamData streamId maxdata =>
    match c.streams streamId with
    | none => true
    | some s =>
      s.finReceived || s.resetReceived || s.stopSendingSent ||
        decide (maxdata < s.maxdataLocal ∨ maxdata ≤ s.maxdataLocalAcked)
  | .maxStreams isUnidir rank =>
    decide (rank ≤ c.controlState.maxStreamIdRankAcked isUnidir ∨
      streamIdFromRank rank c.clientMode isUnidir < c.controlState.maxStreamIdLocal isUnidir)
  | .dataBlocked maxdata =>
    decide (maxdata < c.maxdataRemote) || !c.controlState.sentBlockedFrame
  | .streamsBlocked isUnidir rank =>
    decide (streamIdFromRank rank c.clientMode isUnidir < c.controlState.maxStreamIdRemote isUnidir)
      || !c.controlState.streamBlockedSent isUnidir
  | .streamDataBlocked streamId maxdata =>
    match c.streams streamId with
    | none => true
    | some s =>
      s.finRequested || s.resetRequested || s.finSent || s.resetSent ||
        decide (maxdata < s.maxdataRemote) || !s.streamDataBlockedSent
  | .handshakeDone => c.controlState.isHandshakeDoneAcked
  | .newToken => c.controlState.isNewTokenAcked
  | .cryptoHs offset length =>
    match c.controlState.tlsSackList ptype with
    | none => true
    | some sackList => checkSackList sackList offset (offset + length)
  | .newConnectionId sequence => cnxidNoNeed c.controlState.localCnxids sequence
  | .retireConnectionId sequence => cnxidNoNeed c.controlState.stashedCnxids sequence
  | .ackFrequency sequence => decide (sequence = c.controlState.ackFrequencySequenceLocal)
  | .pathChallenge | .datagram _ | .ackMp | .timeStamp => true
  -- a preemptive repeat takes only frames that are explicitly required
  | .padding | .ack | .pathResponse | .ping | .connectionClose | .applicationClose
  | .pathAbandon | .bdp => isPreemptive

/-- `no_need_to_repeat` of `picoquic_check_frame_needs_repeat`. -/
def SendCnx.noNeedToRepeat (c : SendCnx) (ptype : PacketType) (isPreemptive : Bool) :
    Frame → Bool
  | .stream f =>
    match c.streams f.streamId with
    | none => true
    | some s =>
      s.resetSent || (isPreemptive && !s.finSent) || checkSackList s.sackList f.offset f.last
  | .resetStream .. | .stopSending .. => isPreemptive
  | .control frame _ => c.controlNoNeed ptype isPreemptive frame

/-- The frame has to be repeated: it asks for an acknowledgement, and there is need. -/
def SendCnx.needsRepeat (c : SendCnx) (ptype : PacketType) (isPreemptive : Bool) (f : Frame) :
    Bool :=
  !f.isPureAck && !c.noNeedToRepeat ptype isPreemptive f

/-! ### Lost packets -/

/-- `picoquic_packet_0rtt_protected` or `picoquic_packet_1rtt_protected`. -/
def PacketType.isApplication : PacketType → Bool
  | .zeroRttProtected | .oneRttProtected => true
  | _ => false

/-- The output arguments of `picoquic_copy_before_retransmit`, with the frames that it writes to
the new packet. -/
structure Repair where
  copied : List Frame
  length : ℕ
  packetIsPureAck : Bool
  doNotDetectSpurious : Bool

/-- A datagram frame, which turns `do_not_detect_spurious` off. -/
def Frame.isDatagram : Frame → Bool
  | .control (.datagram _) _ => true
  | _ => false

/-- What the application's callback returns when a frame is reported as lost. -/
def Frame.lostResult : Frame → ℤ
  | .control (.datagram lostResult) _ => lostResult
  | _ => 0

/-- The frames that the loop of `picoquic_copy_before_retransmit` comes to. An error of the
callback ends the loop, and the callers only print it. -/
def reachedFrames : List Frame → List Frame
  | [] => []
  | f :: frames => f :: if f.lostResult = 0 then reachedFrames frames else []

/-- One round of the loop of `picoquic_copy_before_retransmit`. -/
def SendCnx.copyFrame (ptype : PacketType) (limit : ℕ) (forceQueue : Bool) (r : SendCnx × Repair)
    (f : Frame) : SendCnx × Repair :=
  let (c, repair) := r
  let doNotDetectSpurious := repair.doNotDetectSpurious && !f.isDatagram
  if c.needsRepeat ptype false f then
    match f with
    | .stream g =>
      ({ c with streamFrameRetransmitQueue := c.streamFrameRetransmitQueue ++ [g] },
        ⟨repair.copied, repair.length, false, doNotDetectSpurious⟩)
    | f =>
      if (forceQueue || decide (sub64 limit repair.length < f.length)) && ptype.isApplication then
        ({ c with miscFrames := c.miscFrames ++ [f] },
          ⟨repair.copied, repair.length, false, doNotDetectSpurious⟩)
      else
        (c, ⟨repair.copied ++ [f], repair.length + f.length, false, doNotDetectSpurious⟩)
  else (c, { repair with doNotDetectSpurious := doNotDetectSpurious })

/-- `picoquic_copy_before_retransmit`: special packets are dropped, and of a plain one every frame
that is reached and has to be repeated is queued or copied to the new packet. -/
def SendCnx.copyBeforeRetransmit (c : SendCnx) (oldP : SentPacket) (limit : ℕ) (forceQueue : Bool)
    (repair : Repair) : SendCnx × Repair :=
  if oldP.isMtuProbe then
    (c, { repair with packetIsPureAck := true, doNotDetectSpurious := false })
  else if oldP.isAckTrap then
    (c, { repair with packetIsPureAck := true, doNotDetectSpurious := true })
  else if oldP.isMultipathProbe then
    (c, { repair with packetIsPureAck := false, doNotDetectSpurious := true })
  else if oldP.wasPreemptivelyRepeated then
    (c, { repair with packetIsPureAck := true, doNotDetectSpurious := true })
  else (reachedFrames oldP.frames).foldl (copyFrame oldP.ptype limit forceQueue) (c, repair)

/-- The buffer for a retransmission: the length of the predicted header of the new packet, the
size of the buffer and the length of the checksum. -/
structure RetransmitBuffer where
  headerLength : ℕ
  sendBufferMax : Uint64
  checksumLength : ℕ

/-- `send_buffer_max - checksum_length`. -/
def RetransmitBuffer.limit (b : RetransmitBuffer) : ℕ := sub64 b.sendBufferMax b.checksumLength

/-- The type of the packet that repeats a packet. -/
def PacketType.repeatedAs : PacketType → PacketType
  | .zeroRttProtected => .oneRttProtected
  | ptype => ptype

/-- `picoquic_retransmit_needed_packet` gives up on a lost packet for now: 0-RTT packets wait
until the client is ready, and handshake packets for a large enough buffer. -/
def SendCnx.delaysRetransmit (c : SendCnx) (oldP : SentPacket) (b : RetransmitBuffer) : Bool :=
  match oldP.ptype with
  | .zeroRttProtected => c.beforeClientReady
  | .initial | .handshake => decide (b.sendBufferMax < oldP.length)
  | _ => false

/-- The call of `picoquic_copy_before_retransmit` in `picoquic_retransmit_needed_packet`. -/
def SendCnx.repairPacket (c : SendCnx) (oldP : SentPacket) (b : RetransmitBuffer) :
    SendCnx × Repair :=
  c.copyBeforeRetransmit oldP b.limit false ⟨[], b.headerLength, true, true⟩

/-- `picoquic_queue_for_retransmit`. -/
def SendCnx.queueForRetransmit (c : SendCnx) (p : SentPacket) : SendCnx :=
  { c with retransmitQueue := p :: c.retransmitQueue }

/-- A packet is sent, unless there is nothing in it. -/
def SendCnx.sendFrames (c : SendCnx) (ptype : PacketType) (offset : ℕ) (frames : List Frame) :
    SendCnx :=
  if frames = [] then c else c.queueForRetransmit (.plain ptype offset frames)

/-- `picoquic_dequeue_retransmit_packet` for the packet at position `i`. -/
def SendCnx.dequeueRetransmitPacket (c : SendCnx) (i : ℕ) (p : SentPacket) (shouldFree : Bool) :
    SendCnx :=
  { c with
    retransmitQueue := c.retransmitQueue.eraseIdx i
    retransmitted :=
      if shouldFree || p.isAckTrap then c.retransmitted else c.retransmitted ++ [p] }

/-- `picoquic_retransmit_needed_packet` for a packet that is declared lost, and the sending of
the packet it prepares, to which an ACK frame may be added. The Initial packets of a client are
padded. -/
def SendCnx.retransmitNeededPacket (c : SendCnx) (i : ℕ) (oldP : SentPacket) (b : RetransmitBuffer)
    (ackFrame : List UInt8) : SendCnx :=
  if oldP.isAckTrap then c.dequeueRetransmitPacket i oldP true
  else if c.delaysRetransmit oldP b then c
  else
    let (c, repair) := c.repairPacket oldP b
    let c := c.dequeueRetransmitPacket i oldP (repair.packetIsPureAck && repair.doNotDetectSpurious)
    if repair.packetIsPureAck then c
    else
      let pad :=
        if oldP.ptype = .initial ∧ c.clientMode = true then padding (b.limit - repair.length)
        else []
      if repair.length + framesLength pad ≤ b.headerLength then c
      else
        c.sendFrames oldP.ptype.repeatedAs b.headerLength
          (repair.copied ++ pad ++ if ackFrame = [] then [] else [.control .ack ackFrame])

/-- The treatment of a packet in `picoquic_remove_stashed_cnxid`, with `recycle_packets`: the
frames are saved in the queues, and the packet is freed. Only 1-RTT packets are sent in the
context of a connection ID. -/
def SendCnx.recyclePacket (c : SendCnx) (i : ℕ) (p : SentPacket) : SendCnx :=
  if p.ptype = .oneRttProtected then
    (c.copyBeforeRetransmit p 0 true ⟨[], 0, false, false⟩).1.dequeueRetransmitPacket i p true
  else c

/-! ### Preemptive repeats -/

/-- What `picoquic_preemptive_retransmit_packet` has written, and its flags. -/
structure PreemptiveRepeat where
  written : List Frame
  hasData : Bool
  isRepeated : Bool

/-- `picoquic_is_stream_frame_unlimited`. -/
def Frame.isUnlimited : Frame → Bool
  | .stream f => !f.hasLength
  | _ => false

/-- One round of the loop of `picoquic_preemptive_retransmit_packet`. A frame without a length
field is moved to the end of the packet. -/
def SendCnx.preemptiveFrame (c : SendCnx) (ptype : PacketType) (room : ℕ) (r : PreemptiveRepeat)
    (f : Frame) : PreemptiveRepeat :=
  if c.needsRepeat ptype true f then
    let pad := if f.isUnlimited then padding (room - framesLength r.written - f.length) else []
    let written := r.written ++ pad
    if framesLength written + f.length ≤ room then
      { r with written := written ++ [f], hasData := true }
    else { r with written := written, isRepeated := false }
  else r

/-- `picoquic_preemptive_retransmit_packet`. -/
def SendCnx.preemptiveRetransmitPacket (c : SendCnx) (oldP : SentPacket) (room : ℕ) :
    PreemptiveRepeat :=
  if oldP.isMtuProbe || oldP.isAckTrap || oldP.isMultipathProbe then ⟨[], false, true⟩
  else oldP.frames.foldl (c.preemptiveFrame oldP.ptype room) ⟨[], false, true⟩

/-- `picoquic_preemptive_retransmit_in_context` for the packet it has come to, and the sending of
the packet it prepares. -/
def SendCnx.preemptiveRetransmit (c : SendCnx) (i : ℕ) (oldP : SentPacket) (offset room : ℕ) :
    SendCnx :=
  if !c.isPreemptiveRepeatEnabled || oldP.wasPreemptivelyRepeated then c
  else
    let r := c.preemptiveRetransmitPacket oldP room
    let c :=
      if r.hasData && r.isRepeated then
        { c with
          retransmitQueue :=
            c.retransmitQueue.set i { oldP with wasPreemptivelyRepeated := true } }
      else c
    if r.hasData then c.sendFrames .oneRttProtected offset r.written else c

end Picoquic
