import Picoquic.Sender.Repeat

/-!
# Sending frames

How STREAM, RESET_STREAM and STOP_SENDING frames get into packets, what acknowledgements record,
and all that happens to the sending side of a connection.

* **`SendCnx.formatStreamFrame`** — new data of a stream;
* **`SendCnx.formatStreamFramesQueuedForRetransmit`** — saved STREAM frames are sent again, and
  split when they do not fit;
* **`SendCnx.processAckOfFrames`** — a packet is acknowledged;
* **`SendCnx.step`** — one event.

An error of the callback that is asked for stream data, or an acknowledged trap packet, ends the
connection, and so does a peer that stays silent for too long; these are no events here.
-/

namespace Picoquic

/-! ### Closed streams -/

/-- `picoquic_is_stream_closed`. -/
def SendStream.isStreamClosed (s : SendStream) (streamId : ℕ) (clientMode : Bool) : Bool :=
  let sendDone := (s.finRequested && s.finSent) || (s.resetRequested && s.resetSent)
  let receiveDone := (s.finReceived && s.finSignalled) || (s.resetReceived && s.resetSignalled)
  !s.isOutputStream &&
    if isBidirStreamId streamId then sendDone && receiveDone
    else if isLocalStreamId streamId clientMode then sendDone
    else receiveDone

/-- `picoquic_is_stream_acked`. -/
def SendStream.isStreamAcked (s : SendStream) : Bool :=
  s.isClosed && (s.resetSent || checkSackList s.sackList 0 s.sentOffset)

/-- `picoquic_delete_stream_if_closed`, with its return value. -/
def SendCnx.deleteStreamIfClosed (c : SendCnx) (streamId : ℕ) (s : SendStream) : SendCnx × Bool :=
  let closes := !s.isClosed && s.isStreamClosed streamId c.clientMode
  let s := if closes then { s with isClosed := true } else s
  if s.isStreamAcked then
    ({ c with streams := Function.update c.streams streamId none }, closes)
  else (c.putStream streamId s, closes)

/-! ### New data -/

/-- `picoquic_format_stream_reset_frame`. -/
def SendCnx.formatStreamResetFrame (c : SendCnx) (streamId : ℕ) (s : SendStream) (room : ℕ) :
    SendCnx × List Frame :=
  let frame := Frame.resetStream streamId s.localError s.sentOffset
  if frame.length ≤ room then
    let c := { c with sentControl := c.sentControl ++ [frame] }
    let s := { s with resetSent := true, finSent := true, sendQueue := [] }
    ((c.deleteStreamIfClosed streamId s).1, [frame])
  else (c, [])

/-- `picoquic_format_stop_sending_frame`. -/
def SendCnx.formatStopSendingFrame (c : SendCnx) (streamId : ℕ) (s : SendStream) (room : ℕ) :
    SendCnx × List Frame :=
  if s.finReceived || s.resetReceived then
    (c.putStream streamId { s with stopSendingSent := true }, [])
  else
    let frame := Frame.stopSending streamId s.localStopError
    if frame.length ≤ room then
      let c := { c with sentControl := c.sentControl ++ [frame] }
      (c.putStream streamId { s with stopSendingSent := true }, [frame])
    else (c, [])

/-- `picoquic_encode_length_of_stream_frame`: where the data do not fill the space the length is
present, unless there is one byte left, which is put in front of the frame. -/
def encodeLengthOfStreamFrame (byteSpace : ℕ) (f : StreamFrame) : List Frame :=
  if f.data.length < byteSpace then
    if f.data.length = byteSpace - 1 then padding 1 ++ [.stream { f with hasLength := false }]
    else [.stream { f with hasLength := true }]
  else [.stream { f with hasLength := false }]

/-- What the application provides when it is polled for the data of a stream. -/
structure Polled where
  data : List UInt8
  isFin : Bool
  isStillActive : Bool

/-- The stream after some of its data, and possibly the FIN, went into a frame. -/
def SendStream.advance (s : SendStream) (length : ℕ) (fin : Bool) : SendStream :=
  { s with
    sentOffset := s.sentOffset + length
    finSent := s.finSent || fin
    finOffsets := if fin then s.finOffsets ++ [s.sentOffset + length] else s.finOffsets }

/-- The end of `picoquic_format_stream_frame`: the stream is deleted if that was its last frame,
and otherwise not marked as blocked any more. -/
def SendCnx.unblock (c : SendCnx) (streamId : ℕ) (s : SendStream) (mayClose : Bool) : SendCnx :=
  let r := if mayClose then c.deleteStreamIfClosed streamId s else (c.putStream streamId s, false)
  if r.2 then r.1
  else
    let c := r.1.modifyStream streamId fun s => { s with streamDataBlockedSent := false }
    { c with controlState := { c.controlState with sentBlockedFrame := false } }

/-- The data that the send queue has for a frame of at most `allowed` bytes, and what is left of
the queue. -/
def takeFromQueue (allowed : ℕ) : List (List UInt8) → List UInt8 × List (List UInt8)
  | [] => ([], [])
  | node :: next =>
    (node.take allowed, if node.length ≤ allowed then next else node.drop allowed :: next)

theorem takeFromQueue_length_le (allowed : ℕ) (queue : List (List UInt8)) :
    (takeFromQueue allowed queue).1.length ≤ allowed := by
  cases queue with
  | nil => exact Nat.zero_le _
  | cons node next => exact List.length_take_le allowed node

/-- No data are lost between a frame and the queue. -/
theorem takeFromQueue_flatten (allowed : ℕ) (queue : List (List UInt8)) :
    (takeFromQueue allowed queue).1 ++ (takeFromQueue allowed queue).2.flatten =
      queue.flatten := by
  cases queue with
  | nil => rfl
  | cons node next =>
    rw [takeFromQueue]
    split_ifs with hle
    · rw [List.take_of_length_le hle, List.flatten_cons]
    · rw [List.flatten_cons, ← List.append_assoc, List.take_append_drop, List.flatten_cons]

/-- The part of `picoquic_format_stream_frame` that asks the application for data. -/
def SendCnx.formatPolledFrame (c : SendCnx) (streamId : ℕ) (s : SendStream)
    (byteSpace allowed : ℕ) (polled : Option Polled) : SendCnx × List Frame :=
  match polled.filter fun d => decide (d.data.length ≤ allowed) with
  | none => (c.unblock streamId s false, [])
  | some d =>
    if d.data.length = 0 ∧ d.isFin = false then (c.unblock streamId s false, [])
    else
      let s' := s.advance d.data.length d.isFin
      let s' :=
        if d.isFin then { s' with isActive := false, finRequested := true }
        else { s' with isActive := d.isStillActive }
      (SendCnx.unblock { c with dataSent := c.dataSent + d.data.length } streamId s' d.isFin,
        encodeLengthOfStreamFrame byteSpace ⟨streamId, s.sentOffset, d.data, d.isFin, false⟩)

/-- The part of `picoquic_format_stream_frame` that takes queued data. -/
def SendCnx.formatQueuedFrame (c : SendCnx) (streamId : ℕ) (s : SendStream)
    (byteSpace allowed : ℕ) : SendCnx × List Frame :=
  let (data, sendQueue) := takeFromQueue allowed s.sendQueue
  let fin := sendQueue.isEmpty && s.finRequested
  let s' := { s.advance data.length fin with sendQueue := sendQueue }
  (SendCnx.unblock { c with dataSent := c.dataSent + data.length } streamId s' fin,
    if sendQueue ≠ [] ∧ data.length = 0 then []
    else
      encodeLengthOfStreamFrame byteSpace ⟨streamId, s.sentOffset, data, fin, false⟩)

/-- `picoquic_format_stream_frame`, in a packet that has `room` bytes left. -/
def SendCnx.formatStreamFrame (c : SendCnx) (streamId : ℕ) (polled : Option Polled) (room : ℕ) :
    SendCnx × List Frame :=
  match c.streams streamId with
  | none => (c, [])
  | some s =>
    if isLocalStreamId streamId c.clientMode = true ∧
        c.controlState.maxStreamIdRemote (!isBidirStreamId streamId) < streamId then (c, [])
    else if s.resetRequested && !s.resetSent then c.formatStreamResetFrame streamId s room
    else if s.stopSendingRequested && !s.stopSendingSent then
      c.formatStopSendingFrame streamId s room
    else if !s.isActive && s.sendQueue.isEmpty && (!s.finRequested || s.finSent) then (c, [])
    else if room < streamHeaderLength streamId s.sentOffset then
      (c.unblock streamId s false, [])
    else
      let byteSpace := room - streamHeaderLength streamId s.sentOffset
      let allowed :=
        min byteSpace (min (sub64 s.maxdataRemote s.sentOffset) (sub64 c.maxdataRemote c.dataSent))
      if s.isActive && s.sendQueue.isEmpty && !s.finRequested then
        c.formatPolledFrame streamId s byteSpace allowed polled
      else c.formatQueuedFrame streamId s byteSpace allowed

/-! ### Saved frames -/

/-- What `picoquic_format_stream_frame_for_retransmit` does with the first frame of the queue. -/
inductive Resent
  /-- The frame leaves the queue: `all_sent`. -/
  | all (written : List Frame)
  /-- A frame stays first in the queue. -/
  | rest (written : List Frame) (f : StreamFrame)

/-- The frame that is written when a frame is split after `available` bytes. -/
def StreamFrame.front (f : StreamFrame) (available : ℕ) : StreamFrame :=
  ⟨f.streamId, f.offset, f.data.take available, false, true⟩

/-- The frame that is left when a frame is split after `available` bytes. -/
def StreamFrame.back (f : StreamFrame) (available : ℕ) : StreamFrame :=
  ⟨f.streamId, f.offset + available, f.data.drop available, f.fin, true⟩

/-- The branch of `picoquic_format_stream_frame_for_retransmit` for a frame that fits. -/
def StreamFrame.resend (f : StreamFrame) (room : ℕ) : List Frame :=
  if f.hasLength then [.stream f]
  else if room - f.length ≤ 2 then padding (room - f.length) ++ [.stream f]
  else if f.consumed + encodeVarintLength f.data.length ≤ room then
    [.stream { f with hasLength := true }]
  else []

/-- The data bytes that fit into `room` bytes behind a header with a length field, in the branch
of `picoquic_format_stream_frame_for_retransmit` for a frame that does not fit. -/
def StreamFrame.available (f : StreamFrame) (room : ℕ) : ℕ :=
  room - (streamHeaderLength f.streamId f.offset + encodeVarintLength (room - 2))

/-- A frame that does not fit into `room` bytes can be split. -/
def StreamFrame.splits (f : StreamFrame) (room : ℕ) : Bool :=
  decide (f.consumed < room) &&
    decide (streamHeaderLength f.streamId f.offset + encodeVarintLength (room - 2) < room) &&
      decide (streamHeaderLength f.streamId (f.offset + f.available room) +
          encodeVarintLength (sub64 f.data.length (f.available room)) ≤
        min 32 (f.consumed + f.available room))

/-- `picoquic_format_stream_frame_for_retransmit`, where `f` is the first frame of the queue. -/
def SendCnx.formatStreamFrameForRetransmit (c : SendCnx) (room : ℕ) (f : StreamFrame) : Resent :=
  let needed :=
    match c.streams f.streamId with
    | none => false
    | some s => !s.resetSent && !checkSackList s.sackList f.offset (f.offset + f.data.length)
  if !needed then .all []
  else if f.length ≤ room then .all (f.resend room)
  else if f.splits room then
    .rest [.stream (f.front (f.available room))] (f.back (f.available room))
  else .rest [] f

/-- The loop of `picoquic_format_stream_frames_queued_for_retransmit` over the queue: the frames
written, and the queue that is left. -/
def SendCnx.queuedForRetransmit (c : SendCnx) : ℕ → List StreamFrame →
    List Frame × List StreamFrame
  | _, [] => ([], [])
  | room, f :: queue =>
    if room = 0 then ([], f :: queue)
    else
      match c.formatStreamFrameForRetransmit room f with
      | .rest written f' => (written, f' :: queue)
      | .all written =>
        let r := c.queuedForRetransmit (room - framesLength written) queue
        (written ++ r.1, r.2)

/-- `picoquic_format_stream_frames_queued_for_retransmit`. -/
def SendCnx.formatStreamFramesQueuedForRetransmit (c : SendCnx) (room : ℕ) :
    SendCnx × List Frame :=
  let r := c.queuedForRetransmit room c.streamFrameRetransmitQueue
  ({ c with streamFrameRetransmitQueue := r.2 }, r.1)

/-- `picoquic_format_first_misc_frame`. -/
def SendCnx.formatFirstMiscFrame (c : SendCnx) (room : ℕ) : SendCnx × List Frame :=
  match c.miscFrames with
  | [] => (c, [])
  | f :: rest => if f.length ≤ room then ({ c with miscFrames := rest }, [f]) else (c, [])

/-! ### Packets -/

/-- What goes into a packet. -/
inductive Fill
  /-- The first of the misc frames. -/
  | misc
  /-- STREAM frames that wait to be sent again. -/
  | retransmit
  /-- A frame of a stream. -/
  | stream (streamId : ℕ) (polled : Option Polled)
  /-- Some other frame. -/
  | control (frame : ControlFrame) (bytes : List UInt8)

/-- One formatting function of a packet builder. -/
def SendCnx.format (c : SendCnx) (room : ℕ) : Fill → SendCnx × List Frame
  | .misc => c.formatFirstMiscFrame room
  | .retransmit => c.formatStreamFramesQueuedForRetransmit room
  | .stream streamId polled => c.formatStreamFrame streamId polled room
  | .control frame bytes => (c, if bytes.length ≤ room then [.control frame bytes] else [])

/-- The formatting functions are called one after the other. -/
def SendCnx.fill (capacity : ℕ) (r : SendCnx × List Frame) (f : Fill) : SendCnx × List Frame :=
  let (c, written) := r.1.format (capacity - framesLength r.2) f
  (c, r.2 ++ written)

/-- A packet is prepared and sent. -/
def SendCnx.preparePacket (c : SendCnx) (ptype : PacketType) (offset capacity : ℕ)
    (fills : List Fill) : SendCnx :=
  let (c, frames) := fills.foldl (fill capacity) (c, [])
  c.sendFrames ptype offset frames

/-! ### Acknowledgements -/

/-- `picoquic_process_ack_of_stream_frame`, and what other frames leave in the history. -/
def SendCnx.processAckOfFrame (c : SendCnx) : Frame → SendCnx
  | .stream f =>
    match c.streams f.streamId with
    | none => c
    | some s =>
      (c.deleteStreamIfClosed f.streamId
        { s with sackList := (updateSackList s.sackList f.offset f.last 0).1 }).1
  | .control .. => c
  | f => { c with ackedControl := c.ackedControl ++ [f] }

/-- `picoquic_process_ack_of_frames`. -/
def SendCnx.processAckOfFrames (c : SendCnx) (p : SentPacket) : SendCnx :=
  p.frames.foldl processAckOfFrame c

/-! ### Events -/

/-- What happens to the sending side of a connection. -/
inductive SendEvent
  /-- A stream is created, with the limit that the peer's parameters give it. -/
  | createStream (streamId : ℕ) (maxdataRemote : Fin (2 ^ 62)) (isOutputStream : Bool)
  /-- `picoquic_add_to_stream`. -/
  | addToStream (streamId : ℕ) (data : List UInt8) (setFin : Bool)
  /-- `picoquic_mark_active_stream`. -/
  | markActiveStream (streamId : ℕ) (isActive : Bool)
  /-- `picoquic_reset_stream`. -/
  | resetStream (streamId localError : ℕ)
  /-- `picoquic_stop_sending`. -/
  | stopSending (streamId localError : ℕ)
  /-- The peer asks to stop sending. -/
  | stopSendingReceived (streamId : ℕ)
  /-- The receiving half of a stream, or its place among the output streams, changes. -/
  | receiving (streamId : ℕ) (finReceived finSignalled resetReceived resetSignalled : Bool)
      (maxdataLocal maxdataLocalAcked : ℕ) (isOutputStream streamDataBlockedSent : Bool)
  /-- The peer raises the limit of a stream. -/
  | maxStreamData (streamId : ℕ) (maxdata : Fin (2 ^ 62))
  /-- The peer raises the limit of the connection. -/
  | maxData (maxdata : ℕ)
  /-- What decides on control frames changes. -/
  | controlState (beforeClientReady : Bool) (controlState : ControlState)
  /-- `picoquic_queue_misc_frame`. -/
  | queueMiscFrame (frame : ControlFrame) (bytes : List UInt8)
  /-- A packet is sent. -/
  | preparePacket (ptype : PacketType) (offset capacity : ℕ) (fills : List Fill)
  /-- A probe, or an acknowledgement trap, is sent. -/
  | sendProbe (isMtuProbe isAckTrap isMultipathProbe : Bool)
      (frames : List (ControlFrame × List UInt8))
  /-- The packet at position `i` is declared lost. -/
  | lost (i : ℕ) (buffer : RetransmitBuffer) (ackFrame : List UInt8)
  /-- The connection ID is removed in whose context the packet at position `i` was sent. -/
  | recycled (i : ℕ)
  /-- A preemptive repeat has come to the packet at position `i`. -/
  | preemptiveRepeat (i offset room : ℕ)
  /-- The packet at position `i` is acknowledged. -/
  | acknowledged (i : ℕ)
  /-- The packet at position `i` was declared lost, and is acknowledged. -/
  | spuriousLoss (i : ℕ)
  /-- The packet at position `i` was declared lost, and nothing is expected any more. -/
  | forgotten (i : ℕ)

/-- The stream that `picoquic_create_missing_streams` sets up. One of the peer's one-way streams
is marked as finished in our direction. -/
def SendCnx.newStream (c : SendCnx) (streamId maxdataRemote : ℕ) (isOutputStream : Bool) :
    SendStream :=
  let isPeers := !isBidirStreamId streamId && !isLocalStreamId streamId c.clientMode
  { sendQueue := []
    sentOffset := 0
    maxdataRemote := maxdataRemote
    isActive := false
    isOutputStream := isOutputStream
    isClosed := false
    finRequested := isPeers
    finSent := isPeers
    resetRequested := false
    resetSent := false
    stopSendingRequested := false
    stopSendingSent := false
    stopSendingReceived := false
    streamDataBlockedSent := false
    localError := 0
    localStopError := 0
    sackList := sackListInit
    finReceived := false
    finSignalled := false
    resetReceived := false
    resetSignalled := false
    maxdataLocal := 0
    maxdataLocalAcked := 0
    finOffsets := [] }

/-- `picoquic_add_to_stream` on an existing stream. A second FIN with data is refused, and so are
data after a reset and data that the peer does not want. -/
def SendStream.add (s : SendStream) (data : List UInt8) (setFin : Bool) : SendStream :=
  if setFin && s.finRequested && !data.isEmpty then s
  else
    let s := { s with finRequested := s.finRequested || setFin }
    if s.resetSent || s.stopSendingReceived then s
    else
      { s with
        sendQueue := if data.isEmpty then s.sendQueue else s.sendQueue ++ [data]
        isActive := false }

/-- One event. -/
def SendCnx.step (c : SendCnx) : SendEvent → SendCnx
  | .createStream streamId maxdataRemote isOutputStream =>
    if (c.streams streamId).isSome then c
    else c.putStream streamId (c.newStream streamId maxdataRemote isOutputStream)
  | .addToStream streamId data setFin => c.modifyStream streamId (·.add data setFin)
  | .markActiveStream streamId isActive =>
    c.modifyStream streamId fun s =>
      if isActive && (s.finRequested || s.resetRequested) then s
      else { s with isActive := isActive }
  | .resetStream streamId localError =>
    c.modifyStream streamId fun s =>
      if s.finSent || s.resetRequested then s
      else { s with localError := localError, resetRequested := true }
  | .stopSending streamId localError =>
    c.modifyStream streamId fun s =>
      if s.resetReceived || s.stopSendingRequested then s
      else
        { s with
          localStopError := localError
          stopSendingRequested := true
          isOutputStream := true }
  | .stopSendingReceived streamId =>
    c.modifyStream streamId fun s =>
      if s.resetRequested || s.finSent then s else { s with stopSendingReceived := true }
  | .receiving streamId finReceived finSignalled resetReceived resetSignalled maxdataLocal
      maxdataLocalAcked isOutputStream streamDataBlockedSent =>
    match c.streams streamId with
    | none => c
    | some s =>
      (c.deleteStreamIfClosed streamId
        { s with
          finReceived := finReceived
          finSignalled := finSignalled
          resetReceived := resetReceived
          resetSignalled := resetSignalled
          maxdataLocal := maxdataLocal
          maxdataLocalAcked := maxdataLocalAcked
          isOutputStream := isOutputStream
          streamDataBlockedSent := streamDataBlockedSent }).1
  | .maxStreamData streamId maxdata =>
    c.modifyStream streamId fun s => { s with maxdataRemote := max s.maxdataRemote maxdata }
  | .maxData maxdata => { c with maxdataRemote := max c.maxdataRemote maxdata }
  | .controlState beforeClientReady controlState =>
    { c with beforeClientReady := beforeClientReady, controlState := controlState }
  | .queueMiscFrame frame bytes => { c with miscFrames := c.miscFrames ++ [.control frame bytes] }
  | .preparePacket ptype offset capacity fills => c.preparePacket ptype offset capacity fills
  | .sendProbe isMtuProbe isAckTrap isMultipathProbe frames =>
    c.queueForRetransmit
      ⟨.oneRttProtected, 0, isMtuProbe, isAckTrap, isMultipathProbe, false,
        frames.map fun f => .control f.1 f.2⟩
  | .lost i buffer ackFrame =>
    match c.retransmitQueue[i]? with
    | none => c
    | some p => c.retransmitNeededPacket i p buffer ackFrame
  | .recycled i =>
    match c.retransmitQueue[i]? with
    | none => c
    | some p => c.recyclePacket i p
  | .preemptiveRepeat i offset room =>
    match c.retransmitQueue[i]? with
    | none => c
    | some p => c.preemptiveRetransmit i p offset room
  | .acknowledged i =>
    match c.retransmitQueue[i]? with
    | none => c
    | some p =>
      if p.isAckTrap then c else (c.processAckOfFrames p).dequeueRetransmitPacket i p true
  | .spuriousLoss i =>
    match c.retransmitted[i]? with
    | none => c
    | some p =>
      let c := c.processAckOfFrames p
      { c with retransmitted := c.retransmitted.eraseIdx i }
  | .forgotten i => { c with retransmitted := c.retransmitted.eraseIdx i }

end Picoquic
