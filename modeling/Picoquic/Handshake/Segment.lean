import Picoquic.Handshake.Server
import Picoquic.Packet.Sooner

/-!
# Packets of a server during the handshake

`picoquic_prepare_packet` fills a datagram with segments, each of which is prepared according to the
state of the connection. Segments are followed here by their lengths. A frame is written whole, or
not at all if it does not fit into the buffer; and what is to be written at any time is open.

* **`ServerCnx.preparePacketServerInit`**, **`ServerCnx.preparePacketAlmostReady`** — the segments
  that are checked against the limit, and charged;
* **`ServerCnx.preparePacketClosing`** — the segments that tell the end of the connection;
* **`ServerCnx.step`** — one packet received, one segment prepared, or an action of the
  application.
-/

namespace Picoquic

/-- The checksum of a packet, `picoquic_get_checksum_length`. -/
def checksumLength : ℕ := 16

/-- `PICOQUIC_MIN_SEGMENT_SIZE`. -/
def minSegmentSize : ℕ := 256

/-- A packet that was sent, in the queue of packets to repeat. -/
structure OldPacket where
  /-- The length without the checksum. -/
  length : ℕ
  /-- `picoquic_retransmit_needed_by_packet`, or `initial_repeat_needed`. -/
  shouldRetransmit : Bool
  isAckTrap : Bool
  /-- No frame needs to be repeated. -/
  isPureAck : Bool
  /-- The header of the packet that repeats it. -/
  headerLength : ℕ
  /-- The frames that are repeated. -/
  framesLength : ℕ
  length_le : headerLength + framesLength ≤ length

/-- The length of the packet that repeats it, without the checksum. -/
def OldPacket.repeatedLength (p : OldPacket) : ℕ := p.headerLength + p.framesLength

/-- `picoquic_retransmit_needed`: the packet that is repeated. It is delayed if it was longer than
the buffer. -/
def retransmitNeeded (sendBufferMax : ℕ) : List OldPacket → Option OldPacket
  | [] => none
  | p :: queue =>
    if p.shouldRetransmit then
      if p.isAckTrap then retransmitNeeded sendBufferMax queue
      else if sendBufferMax < p.length then none
      else if p.isPureAck then retransmitNeeded sendBufferMax queue
      else some p
    else none

/-- A frame is added to a packet of this length if it fits. -/
def addFrame (bytesMax length frame : ℕ) : ℕ :=
  if length + frame ≤ bytesMax then length + frame else length

/-- Frames are added as they fit. -/
def addFrames (bytesMax length : ℕ) (frames : List ℕ) : ℕ := frames.foldl (addFrame bytesMax) length

/-- `picoquic_pad_to_target_length`. -/
def padToTargetLength (length target : ℕ) : ℕ := if length < target then target else length

/-- `picoquic_finalize_and_protect_packet`, the length of the segment. -/
def finalizeAndProtect (length headerLength : ℕ) : ℕ :=
  if length = 0 ∨ length < headerLength then 0 else length + checksumLength

/-- What a segment is prepared with. -/
structure SegmentArgs where
  sendBufferMax : ℕ
  sendMtu : ℕ
  /-- A datagram gets another segment only if there is enough room. -/
  minSegmentSize_le : minSegmentSize ≤ sendBufferMax ∧ minSegmentSize ≤ sendMtu
  /-- The datagram has an Initial packet already that must be acknowledged. -/
  isInitialSent : Bool
  /-- The predicted length of the header. -/
  headerLength : Fin 55
  /-- `cnx->tls_stream[0].send_queue == NULL`. -/
  isInitialDataSent : Bool
  /-- The packets that may be repeated, and whether acknowledgements are due. -/
  initialQueue : List OldPacket
  isInitialAckNeeded : Bool
  handshakeQueue : List OldPacket
  isHandshakeAckNeeded : Bool
  ackLength : ℕ
  /-- There is TLS data for the segment. -/
  tlsReady : Bool
  /-- `picoquic_is_tls_stream_ready`, for all epochs. -/
  isTlsStreamReady : Bool
  isCwinOpen : Bool
  cryptoLength : ℕ
  /-- No TLS data is left after this segment. -/
  isAllDataSent : Bool
  isClientAuthenticationActivated : Bool
  newTokenFails : Bool
  /-- The application returns an error when it learns that the connection is almost ready. -/
  almostReadyFails : Bool
  dontCoalesceInit : Bool
  /-- The frames of a 1-RTT packet. -/
  frames : List ℕ
  /-- The path has failed, and the connection ends. -/
  disconnects : Bool
  /-- The length that is probed, if an MTU probe is due. -/
  mtuProbe : Option ℕ
  isKeepAliveDue : Bool
  isChallengePaddingNeeded : Bool
  /-- The length that `picoquic_pad_to_policy` aims at. -/
  policyTarget : ℕ
  /-- The client has sent Handshake packets. -/
  hasHandshakeSack : Bool
  isExitTimeReached : Bool
  isCloseTimeReached : Bool
  isCloseNeeded : Bool
  closeLength : ℕ
  /-- The segment of a connection that is ready. -/
  readyLength : ℕ

namespace ServerCnx

variable (c : ServerCnx) (a : SegmentArgs)

/-- The buffer of a segment, at most what the path can carry. -/
def bufferMax : ℕ := if a.sendMtu < a.sendBufferMax then a.sendMtu else a.sendBufferMax

/-- Sending more data now would break the amplification limit. -/
def ExceedsLimit : Prop :=
  c.initialValidated = false ∧ 3 * c.initialDataReceived < c.initialDataSent + bufferMax a

instance : Decidable (c.ExceedsLimit a) := inferInstanceAs (Decidable (_ ∧ _))

/-- Account for data sent during the handshake. -/
def charge (n : ℕ) : ServerCnx :=
  if c.initialValidated then c else { c with initialDataSent := c.initialDataSent + n }

/-- A segment of this length is produced. -/
def produce (n : ℕ) : ServerCnx := { c with bytesProduced := c.bytesProduced + n }

/-- The lengths of a packet and of its header, without the checksum. -/
structure Lengths where
  length : ℕ
  headerLength : ℕ

/-- No packet. -/
def Lengths.none : Lengths := ⟨0, 0⟩

/-- A packet that repeats an old one, and has an acknowledgement if it fits. -/
def repeatPacket (bytesMax : ℕ) (p : OldPacket) : Lengths :=
  ⟨addFrame bytesMax p.repeatedLength a.ackLength, p.headerLength⟩

/-- `picoquic_prepare_packet_old_context`. -/
def preparePacketOldContext (queue : List OldPacket) (isAckNeeded : Bool) : Lengths :=
  let bytesMax := bufferMax a - checksumLength
  match retransmitNeeded (bufferMax a) queue with
  | some p => repeatPacket a bytesMax p
  | none =>
    if isAckNeeded then ⟨addFrame bytesMax a.headerLength a.ackLength, a.headerLength⟩
    else .none

/-! ### The initial states -/

/-- The epoch of `picoquic_prepare_packet_server_init` is Handshake. -/
def isHandshakeEpoch : Bool := c.hasHandshakeKeys && a.isInitialDataSent

/-- The Initial packets are repeated and acknowledged before Handshake packets are sent. -/
def oldInitial : Lengths :=
  if c.isHandshakeEpoch a then preparePacketOldContext a a.initialQueue a.isInitialAckNeeded
  else .none

/-- New TLS data or an acknowledgement is to be sent. -/
def hasFrames : Bool :=
  a.tlsReady && a.isCwinOpen ||
    if c.isHandshakeEpoch a then a.isHandshakeAckNeeded else a.isInitialAckNeeded

/-- The length of the CRYPTO frame, if there is TLS data. -/
def cryptoFrame : ℕ := if a.tlsReady then a.cryptoLength else 0

/-- A CRYPTO frame is written into a new packet. -/
def isCryptoWritten : Bool :=
  let bytesMax := bufferMax a - checksumLength
  c.hasFrames a && decide (0 < cryptoFrame a ∧
    addFrame bytesMax a.headerLength a.ackLength + cryptoFrame a ≤ bytesMax)

/-- A new packet of `picoquic_prepare_packet_server_init`. -/
def newServerInit : Lengths :=
  let bytesMax := bufferMax a - checksumLength
  if c.hasFrames a then
    ⟨addFrames bytesMax a.headerLength [a.ackLength, cryptoFrame a], a.headerLength⟩
  else
    match retransmitNeeded (bufferMax a)
        (if c.isHandshakeEpoch a then a.handshakeQueue else a.initialQueue) with
    | some p => repeatPacket a bytesMax p
    | none => ⟨0, a.headerLength⟩

/-- Progress the state if the data of the epoch is all sent. -/
def progress : ServerCnx :=
  if c.hasFrames a && a.tlsReady && a.isAllDataSent then
    if c.isHandshakeEpoch a && !a.isClientAuthenticationActivated then
      let c := c.falseStartTransition a.newTokenFails
      if a.almostReadyFails then c.connectionError else c
    else { c with cnxState := .serverHandshake }
  else c

/-- The padding of a datagram with an Initial packet. -/
def padServerInit (isInitialSent : Bool) (ptype : PacketType) (checksumOverhead length : ℕ) : ℕ :=
  let target := bufferMax a - checksumOverhead
  if isInitialSent then
    if ptype = .initial then
      if 0 < length ∧ (c.hasHandshakeKeys = false ∨
          bufferMax a < length + checksumOverhead + minSegmentSize ∨
          a.isTlsStreamReady = false ∨ a.dontCoalesceInit = true) then
        padToTargetLength length target
      else length
    else if length + checksumOverhead < bufferMax a ∧ (c.hasOneRttKeys = false ∨
        bufferMax a < length + checksumOverhead + minSegmentSize) then
      padToTargetLength length target
    else length
  else length

/-- The segment of `picoquic_prepare_packet_server_init`. The overhead of an Initial packet that is
repeated first stays at its initial value. -/
def serverInitLength : ℕ :=
  let old := c.oldInitial a
  if 0 < old.length then
    finalizeAndProtect (c.padServerInit a a.isInitialSent .initial 8 old.length) old.headerLength
  else
    let new := c.newServerInit a
    let isHandshake := c.isHandshakeEpoch a
    let isInitialSent := a.isInitialSent || (!isHandshake && c.isCryptoWritten a)
    finalizeAndProtect
      (c.padServerInit a isInitialSent (if isHandshake then .handshake else .initial)
        checksumLength new.length) new.headerLength

/-- `picoquic_prepare_packet_server_init`. -/
def preparePacketServerInit : ServerCnx :=
  if c.ExceedsLimit a then c
  else
    let n := c.serverInitLength a
    let c := if 0 < (c.oldInitial a).length then c else c.progress a
    (c.charge n).produce n

/-! ### False start -/

/-- The Initial packets and then the Handshake packets are repeated and acknowledged first. The flag
tells whether it is an Initial packet. -/
def oldAlmostReady : Lengths × Bool :=
  let initial :=
    if c.hasInitialKeys then preparePacketOldContext a a.initialQueue a.isInitialAckNeeded
    else .none
  if 0 < initial.length then (initial, true)
  else (preparePacketOldContext a a.handshakeQueue a.isHandshakeAckNeeded, false)

/-- There is nothing else to send, so an MTU probe may be sent. -/
def Probes (length : ℕ) : Prop :=
  length ≤ a.headerLength.val ∧ a.sendMtu < a.sendBufferMax ∧ a.disconnects = false

instance (length : ℕ) : Decidable (Probes a length) := inferInstanceAs (Decidable (_ ∧ _ ∧ _))

/-- `picoquic_prepare_mtu_probe`, the length with the checksum. -/
def prepareMtuProbe (probe : ℕ) : ℕ := if a.sendBufferMax < probe then a.sendBufferMax else probe

/-- The frames of a new packet. -/
def newFrames : ℕ := addFrames (bufferMax a - checksumLength) a.headerLength a.frames

/-- A new packet of `picoquic_prepare_packet_almost_ready`, before the keep alive packets. -/
def framesOrProbe : ℕ :=
  match a.mtuProbe with
  | some probe =>
    if Probes a (newFrames a) then prepareMtuProbe a probe - checksumLength else newFrames a
  | none => newFrames a

/-- A new packet of `picoquic_prepare_packet_almost_ready`. -/
def newAlmostReady : ℕ :=
  if a.headerLength.val < framesOrProbe a then framesOrProbe a
  else if a.isKeepAliveDue && !a.disconnects then a.headerLength.val + 2
  else 0

/-- The padding of `picoquic_prepare_packet_almost_ready`. -/
def padAlmostReady (isInitialSent : Bool) (l : Lengths) : ℕ :=
  let target := bufferMax a - checksumLength
  if l.headerLength < l.length then
    if isInitialSent || a.isChallengePaddingNeeded then padToTargetLength l.length target
    else padToTargetLength l.length (min a.policyTarget target)
  else l.length

/-- The segment of `picoquic_prepare_packet_almost_ready`. -/
def almostReadyLength : ℕ :=
  let old := c.oldAlmostReady a
  let l := if 0 < old.1.length then old.1 else ⟨newAlmostReady a, a.headerLength⟩
  finalizeAndProtect (padAlmostReady a (a.isInitialSent || old.2) l) l.headerLength

/-- `picoquic_prepare_packet_almost_ready`. -/
def preparePacketAlmostReady : ServerCnx :=
  if c.ExceedsLimit a then c
  else
    let n := c.almostReadyLength a
    let c := if a.disconnects then c.connectionDisconnect else c
    (c.charge n).produce n

/-! ### The closing states -/

/-- The segment of `picoquic_prepare_packet_closing`. -/
def closingLength : ℕ :=
  let bytesMax := bufferMax a - checksumLength
  match c.cnxState with
  | .closingReceived =>
    finalizeAndProtect (addFrame bytesMax a.headerLength a.closeLength) a.headerLength
  | .closing =>
    if a.isExitTimeReached then 0
    else if a.isCloseTimeReached && a.isCloseNeeded then
      finalizeAndProtect (addFrame bytesMax a.headerLength a.closeLength) a.headerLength
    else 0
  | .disconnecting | .handshakeFailure | .handshakeFailureResend =>
    finalizeAndProtect (addFrames bytesMax a.headerLength [a.ackLength, a.closeLength])
      a.headerLength
  | _ => 0

/-- The closing packet goes out as a Handshake packet. -/
def isClosingInHandshake : Bool := c.hasHandshakeKeys && a.hasHandshakeSack

/-- The state after `picoquic_prepare_packet_closing`. -/
def closingState : CnxState :=
  match c.cnxState with
  | .closingReceived => .draining
  | .closing | .draining => if a.isExitTimeReached then .disconnected else c.cnxState
  | .handshakeFailure =>
    if !c.isClosingInHandshake a && c.hasHandshakeKeys then .handshakeFailureResend
    else .disconnected
  | .handshakeFailureResend => .disconnected
  | .disconnecting => .closing
  | s => s

/-- `picoquic_prepare_packet_closing`. -/
def preparePacketClosing : ServerCnx :=
  { c with cnxState := c.closingState a }.produce (c.closingLength a)

/-! ### Runs -/

/-- `picoquic_prepare_packet_ready`, which has no limit. -/
def preparePacketReady : ServerCnx := c.produce a.readyLength

/-- `picoquic_prepare_segment`. -/
def prepareSegment : ServerCnx :=
  match c.cnxState with
  | .serverAlmostReady | .serverInit | .serverHandshake => c.preparePacketServerInit a
  | .serverFalseStart =>
    if c.hasOneRttReadKeys then { c with cnxState := .ready }.preparePacketReady a
    else c.preparePacketAlmostReady a
  | .ready => c.preparePacketReady a
  | .handshakeFailure | .handshakeFailureResend | .disconnecting | .closingReceived | .closing
  | .draining => c.preparePacketClosing a
  | .disconnected => c

/-- What happens to a server connection. -/
inductive Event
  | initial (s : Segment) (load : ServerLoad)
  | zeroRtt (s : Segment)
  | handshake (s : Segment)
  | oneRtt (frames : FramesResult)
  /-- A segment is prepared, when a timer runs out or there is something to send. -/
  | segment (a : SegmentArgs)
  /-- `picoquic_close`. -/
  | close
  /-- `picoquic_close_immediate`. -/
  | closeImmediate
  /-- `picoquic_connection_error`, for an error that the packets do not show. -/
  | connectionError
  /-- `picoquic_connection_disconnect`, after a timeout or a stateless reset. -/
  | disconnect

/-- One event. -/
def step (c : ServerCnx) : Event → ServerCnx
  | .initial s load => c.incomingInitial s load
  | .zeroRtt s => c.incomingZeroRtt s
  | .handshake s => c.incomingHandshake s
  | .oneRtt frames => c.incomingOneRtt frames
  | .segment a => c.prepareSegment a
  | .close => c.close
  | .closeImmediate => c.closeImmediate
  | .connectionError => c.connectionError
  | .disconnect => c.connectionDisconnect

end ServerCnx

end Picoquic
