import Picoquic.Stream.Unblocking

/-!
# The list of output streams

The streams that may send are in a list. A stream enters it when it is created, when the peer
raises its limit, or when the application asks the peer to stop sending; it leaves the list when it
has nothing more to send, and is deleted when both sides are done and all data are acknowledged.

* **`OutputCnx.createMissingStreams`** — streams are created, and linked if they may send;
* **`OutputCnx.findReadyStream`** — the walk along the list, which unlinks what has been sent;
* **`OutputCnx.formatStreamFrame`** — what is sent of the stream that was found;
* **`OutputCnx.deleteStreamIfClosed`** — a stream is deleted, without a look at the list;
* **`OutputStreams.WellLinked`** — the list consists of the streams that count as linked.

Memory is always available. The space in a packet and the answers of the application are part of an
event. What a connection does after an error is not part of it: the streams stay as they are.
-/

namespace Picoquic

open LinkedList

/-! ### Data -/

/-- The fields of a stream that belong to its receiving half and decide when it is closed. -/
structure ReceiveHalf where
  finReceived : Bool
  finSignalled : Bool
  resetReceived : Bool
  resetSignalled : Bool

/-- `picoquic_stream_head_t`, the part that decides whether a stream is sent, closed and deleted. -/
structure OutputHead where
  isActive : Bool
  /-- Bytes in the queue. -/
  queued : ℕ
  sentOffset : ℕ
  maxdataRemote : ℕ
  finRequested : Bool
  finSent : Bool
  resetRequested : Bool
  resetSent : Bool
  stopSendingRequested : Bool
  stopSendingSent : Bool
  stopSendingReceived : Bool
  receiveHalf : ReceiveHalf
  isClosed : Bool
  sackList : SackList

/-- `picoquic_cnx_t`, the part that the output streams are about. -/
structure OutputCnx where
  /-- The streams that exist, the list, and the limits of the peer. -/
  output : OutputStreams
  heads : ℕ → OutputHead
  /-- First identifier not used yet, for the four types of streams. -/
  nextStreamId : ℕ → ℕ
  remoteParameters : TransportParameters
  maxStreamIdBidirLocal : ℕ
  maxStreamIdUnidirLocal : ℕ
  maxdataRemote : ℕ
  dataSent : ℕ

/-- A test of `picoquic_find_ready_stream`: nothing will be sent any more. -/
def OutputHead.isExhausted (s : OutputHead) : Bool :=
  ((s.finRequested && s.finSent) || (s.resetRequested && s.resetSent)) &&
    (!s.stopSendingRequested || s.stopSendingSent)

/-- The space in a packet, and what the application offers if it is asked. -/
structure SendAnswer where
  /-- The header of the frame, or the frame without data, fits. -/
  fits : Bool
  /-- Bytes that fit, or that the application offers. -/
  length : ℕ
  isFin : Bool
  isStillActive : Bool

/-! ### Linking and unlinking -/

/-- `picoquic_remove_output_stream`, the pointers. Those of the stream stay. -/
def unlink (L : LinkedList ℕ) (x : ℕ) : LinkedList ℕ :=
  let L :=
    match L.previous x with
    | none => { L with first := L.next x }
    | some y => L.setNext (some y) (L.next x)
  match L.next x with
  | none => { L with last := L.previous x }
  | some y => L.setPrevious (some y) (L.previous x)

namespace OutputStreams

/-- `picoquic_remove_output_stream`. -/
def removeOutputStream (s : OutputStreams) (streamId : ℕ) : OutputStreams :=
  if s.isOutputStream streamId then
    { s with
      outputStreams := unlink s.outputStreams streamId
      isOutputStream := Function.update s.isOutputStream streamId false }
  else s

/-- A stream is put into the tree. It is not linked. -/
def addStream (s : OutputStreams) (streamId : ℕ) : OutputStreams :=
  if hmem : streamId ∈ s.streams then s
  else
    { s with
      streams := s.streams.orderedInsert (· ≤ ·) streamId
      sorted := by
        have hnodup : (s.streams.orderedInsert (· ≤ ·) streamId).Nodup :=
          (s.streams.perm_orderedInsert (· ≤ ·) streamId).nodup_iff.mpr
            (List.nodup_cons.mpr ⟨hmem, s.sorted.imp Nat.ne_of_lt⟩)
        exact ((s.sorted.imp Nat.le_of_lt).orderedInsert streamId _).imp₂
          (fun _ _ hle hne => Nat.lt_of_le_of_ne hle hne) hnodup
      isOutputStream := Function.update s.isOutputStream streamId false }

/-- `picoquic_delete_stream`: the stream leaves the tree. -/
def deleteStream (s : OutputStreams) (streamId : ℕ) : OutputStreams :=
  { s with
    streams := s.streams.filter (· ≠ streamId)
    sorted := s.sorted.sublist List.filter_sublist }

/-- **The list is sound**: its pointers are those of a list without duplicates, which consists of
the streams that count as linked. -/
def WellLinked (s : OutputStreams) : Prop :=
  ∃ l, s.outputStreams.Is l ∧ ∀ id, id ∈ l ↔ id ∈ s.streams ∧ s.isOutputStream id = true

end OutputStreams

namespace OutputCnx

/-! ### Creating streams -/

/-- A stream that is created is one that may send. -/
def isOutputAtFirst (c : OutputCnx) (streamId : ℕ) : Bool :=
  if isLocalStreamId streamId c.output.clientMode then
    decide (streamId ≤ c.output.maxStreamIdRemote (isBidirStreamId streamId))
  else isBidirStreamId streamId

/-- The stream that `picoquic_create_stream` sets up. One of the peer's one-way streams is marked
as finished in our direction. -/
def newHead (c : OutputCnx) (streamId : ℕ) : OutputHead :=
  let isLocal := isLocalStreamId streamId c.output.clientMode
  let bidir := isBidirStreamId streamId
  { isActive := false
    queued := 0
    sentOffset := 0
    maxdataRemote :=
      if isLocal then
        if bidir then c.remoteParameters.initialMaxStreamDataBidiRemote
        else c.remoteParameters.initialMaxStreamDataUni
      else if bidir then c.remoteParameters.initialMaxStreamDataBidiLocal else 0
    finRequested := !isLocal && !bidir
    finSent := !isLocal && !bidir
    resetRequested := false
    resetSent := false
    stopSendingRequested := false
    stopSendingSent := false
    stopSendingReceived := false
    receiveHalf := ⟨false, false, false, false⟩
    isClosed := false
    sackList := sackListInit }

/-- `picoquic_create_stream`. A new stream that may not send is not linked yet, nor closed, so that
it is neither unlinked nor deleted. -/
def createStream (c : OutputCnx) (streamId : ℕ) : OutputCnx :=
  let output := c.output.addStream streamId
  { c with
    output :=
      if c.isOutputAtFirst streamId then output.insertOutputStream streamId else output
    heads := Function.update c.heads streamId (c.newHead streamId)
    nextStreamId :=
      if c.nextStreamId (streamTypeFromId streamId) ≤ streamId then
        Function.update c.nextStreamId (streamTypeFromId streamId) (streamId + 4)
      else c.nextStreamId }

/-- The loop of `picoquic_create_missing_streams`, which creates the streams of a type one after
the other. -/
def createStreams (c : OutputCnx) (type : ℕ) : ℕ → OutputCnx
  | 0 => c
  | n + 1 => (c.createStream (c.nextStreamId type)).createStreams type n

/-- How many streams `picoquic_create_missing_streams` creates. None is created for an old stream,
for a stream of the other side, and beyond the limit of the peer. -/
def missingStreams (c : OutputCnx) (streamId : ℕ) (isRemote : Bool) : ℕ :=
  let next := c.nextStreamId (streamTypeFromId streamId)
  if isRemote && decide (streamId < next) then 0
  else if isClientStreamId streamId ≠ (c.output.clientMode ^^ isRemote) then 0
  else if isRemote && decide ((if isBidirStreamId streamId then c.maxStreamIdBidirLocal
      else c.maxStreamIdUnidirLocal) < streamId) then 0
  else if streamId < next then 0
  else (streamId - next) / 4 + 1

/-- `picoquic_create_missing_streams`. -/
def createMissingStreams (c : OutputCnx) (streamId : ℕ) (isRemote : Bool) : OutputCnx :=
  c.createStreams (streamTypeFromId streamId) (c.missingStreams streamId isRemote)

/-- `picoquic_find_or_create_stream`; also `picoquic_find_stream_for_writing`, for the streams that
this side opens. -/
def findOrCreateStream (c : OutputCnx) (streamId : ℕ) (isRemote : Bool) : OutputCnx :=
  if streamId ∈ c.output.streams then c else c.createMissingStreams streamId isRemote

/-! ### Closing streams -/

/-- `picoquic_is_stream_closed`. -/
def isStreamClosed (c : OutputCnx) (streamId : ℕ) : Bool :=
  let s := c.heads streamId
  let h := s.receiveHalf
  let sendDone := (s.finRequested && s.finSent) || (s.resetRequested && s.resetSent)
  let receiveDone := (h.finReceived && h.finSignalled) || (h.resetReceived && h.resetSignalled)
  !c.output.isOutputStream streamId &&
    if isBidirStreamId streamId then sendDone && receiveDone
    else if isLocalStreamId streamId c.output.clientMode then sendDone
    else receiveDone

/-- `picoquic_is_stream_acked`. -/
def isStreamAcked (c : OutputCnx) (streamId : ℕ) : Bool :=
  let s := c.heads streamId
  s.isClosed && (s.resetSent || checkSackList s.sackList 0 s.sentOffset)

/-- A stream is changed. -/
def setHead (c : OutputCnx) (streamId : ℕ) (s : OutputHead) : OutputCnx :=
  { c with heads := Function.update c.heads streamId s }

/-- `picoquic_delete_stream_if_closed`. -/
def deleteStreamIfClosed (c : OutputCnx) (streamId : ℕ) : OutputCnx :=
  let s := c.heads streamId
  let c :=
    if !s.isClosed && c.isStreamClosed streamId then c.setHead streamId { s with isClosed := true }
    else c
  if c.isStreamAcked streamId then { c with output := c.output.deleteStream streamId } else c

/-! ### Sending -/

/-- The other test of `picoquic_find_ready_stream`: something can be sent. -/
def isReady (c : OutputCnx) (s : OutputHead) : Bool :=
  (decide (c.dataSent < c.maxdataRemote) && decide (s.sentOffset < s.maxdataRemote) &&
      (s.isActive || decide (0 < s.queued) || (s.finRequested && !s.finSent))) ||
    (s.resetRequested && !s.resetSent) || (s.stopSendingRequested && !s.stopSendingSent)

/-- The loop of `picoquic_find_ready_stream`, at most `n` rounds. The next stream is read before
the stream is unlinked. -/
def findReadyLoop : ℕ → OutputCnx → Option ℕ → OutputCnx × Option ℕ
  | 0, c, _ => (c, none)
  | _ + 1, c, none => (c, none)
  | n + 1, c, some streamId =>
    let next := c.output.outputStreams.next streamId
    if c.isReady (c.heads streamId) then (c, some streamId)
    else if (c.heads streamId).isExhausted then
      findReadyLoop n
        ({ c with output := c.output.removeOutputStream streamId }.deleteStreamIfClosed streamId)
        next
    else findReadyLoop n c next

/-- `picoquic_find_ready_stream`. There are as many rounds as there are streams. -/
def findReadyStream (c : OutputCnx) : OutputCnx × Option ℕ :=
  findReadyLoop c.output.streams.length c c.output.outputStreams.first

/-- `picoquic_format_stream_reset_frame`. -/
def formatStreamResetFrame (c : OutputCnx) (streamId : ℕ) (fits : Bool) : OutputCnx :=
  let s := c.heads streamId
  if s.resetRequested && !s.resetSent then
    if fits then
      (c.setHead streamId { s with resetSent := true, finSent := true, queued := 0 })
        |>.deleteStreamIfClosed streamId
    else c
  else c

/-- `picoquic_format_stop_sending_frame`. A frame that is not needed any more counts as sent. -/
def formatStopSendingFrame (c : OutputCnx) (streamId : ℕ) (fits : Bool) : OutputCnx :=
  let s := c.heads streamId
  if !s.stopSendingRequested || s.stopSendingSent || s.receiveHalf.finReceived ||
      s.receiveHalf.resetReceived then
    c.setHead streamId { s with stopSendingSent := true }
  else if fits then c.setHead streamId { s with stopSendingSent := true }
  else c

/-- Data of a stream are sent, with the FIN if it is due; the stream is deleted if that closes
it. -/
def sendData (c : OutputCnx) (streamId : ℕ) (s : OutputHead) (length : ℕ) (fin : Bool) :
    OutputCnx :=
  let c := { c with dataSent := c.dataSent + length }
  let s := { s with sentOffset := s.sentOffset + length, finSent := s.finSent || fin }
  if fin then (c.setHead streamId s).deleteStreamIfClosed streamId else c.setHead streamId s

/-- `picoquic_format_stream_frame`. -/
def formatStreamFrame (c : OutputCnx) (streamId : ℕ) (answer : SendAnswer) : OutputCnx :=
  let s := c.heads streamId
  if isLocalStreamId streamId c.output.clientMode ∧
      c.output.maxStreamIdRemote (isBidirStreamId streamId) < streamId then c
  else if s.resetRequested && !s.resetSent then c.formatStreamResetFrame streamId answer.fits
  else if s.stopSendingRequested && !s.stopSendingSent then
    c.formatStopSendingFrame streamId answer.fits
  else if !s.isActive && decide (s.queued = 0) && (!s.finRequested || s.finSent) then c
  else if !answer.fits then c
  else
    let allowed := min (s.maxdataRemote - s.sentOffset) (c.maxdataRemote - c.dataSent)
    if s.isActive && decide (s.queued = 0) && !s.finRequested then
      -- the application is asked; what it offers beyond the limits is not taken
      if allowed < answer.length ∨ answer.length = 0 ∧ !answer.isFin then c
      else if answer.isFin then
        c.sendData streamId { s with isActive := false, finRequested := true } answer.length true
      else c.sendData streamId { s with isActive := answer.isStillActive } answer.length false
    else
      let length := min (min s.queued allowed) answer.length
      c.sendData streamId { s with queued := s.queued - length } length
        (decide (s.queued - length = 0) && s.finRequested)

end OutputCnx

/-! ### Events -/

/-- What happens to the output streams. -/
inductive OutputEvent
  /-- A STREAM frame arrives, with the end of the data, after which all data are consumed. -/
  | streamFrame (streamId : ℕ) (fin consumed : Bool)
  /-- A RESET_STREAM frame arrives. -/
  | resetFrame (streamId : ℕ)
  /-- A STOP_SENDING frame arrives. -/
  | stopSendingFrame (streamId : ℕ)
  /-- A MAX_STREAM_DATA frame arrives. -/
  | maxStreamDataFrame (streamId maxdata : ℕ)
  /-- A MAX_DATA frame arrives. -/
  | maxDataFrame (maxdata : ℕ)
  /-- A MAX_STREAMS frame arrives. -/
  | maxStreamsFrame (isBidir : Bool) (maxStreamId : ℕ)
  /-- The limit for streams of one direction is set by the transport parameters of the peer. -/
  | transportLimit (isBidir : Bool) (maxStreamId : ℕ)
  /-- The limits are set to those that were remembered, or to those of this side. -/
  | limits (bidirRemote unidirRemote bidirLocal unidirLocal : ℕ)
  /-- STREAM frames of a packet are acknowledged. -/
  | acked (streamId offset length : ℕ) (fin : Bool)
  /-- The application opens a stream. -/
  | openStream (streamId : ℕ)
  /-- `picoquic_mark_active_stream`. -/
  | markActive (streamId : ℕ) (isActive : Bool)
  /-- `picoquic_mark_high_priority_stream`. -/
  | markHighPriority (streamId : ℕ) (isHighPriority : Bool)
  /-- `picoquic_add_to_stream_with_ctx`. -/
  | addToStream (streamId length : ℕ) (setFin : Bool)
  /-- `picoquic_reset_stream`. -/
  | resetStream (streamId : ℕ)
  /-- `picoquic_stop_sending`. -/
  | stopSending (streamId : ℕ)
  /-- A packet is prepared: a stream that is ready is looked for, and sent. -/
  | send (answer : SendAnswer)

namespace OutputCnx

/-- The end of `picoquic_stream_network_input`. -/
def receiveStream (c : OutputCnx) (streamId : ℕ) (fin consumed : Bool) : OutputCnx :=
  let s := c.heads streamId
  let finReceived := s.receiveHalf.finReceived || fin
  let finSignalled := s.receiveHalf.finSignalled || (finReceived && consumed)
  let c := c.setHead streamId
    { s with
      receiveHalf :=
        { s.receiveHalf with finReceived := finReceived, finSignalled := finSignalled } }
  if finSignalled then c.deleteStreamIfClosed streamId else c

/-- The end of `picoquic_decode_stream_reset_frame`. -/
def receiveReset (c : OutputCnx) (streamId : ℕ) : OutputCnx :=
  let s := c.heads streamId
  if s.receiveHalf.resetReceived then c
  else if s.receiveHalf.resetSignalled then
    c.setHead streamId { s with receiveHalf := { s.receiveHalf with resetReceived := true } }
  else
    (c.setHead streamId
      { s with
        receiveHalf := { s.receiveHalf with resetReceived := true, resetSignalled := true } })
      |>.deleteStreamIfClosed streamId

/-- The end of `picoquic_decode_stop_sending_frame`. -/
def receiveStopSending (c : OutputCnx) (streamId : ℕ) : OutputCnx :=
  let s := c.heads streamId
  if !isBidirStreamId streamId && !isLocalStreamId streamId c.output.clientMode then c
  else if !s.stopSendingReceived && !s.resetRequested && !s.finSent then
    c.setHead streamId { s with stopSendingReceived := true }
  else c

/-- The end of `picoquic_decode_max_stream_data_frame`. -/
def receiveMaxStreamData (c : OutputCnx) (streamId maxdata : ℕ) : OutputCnx :=
  let s := c.heads streamId
  if s.maxdataRemote < maxdata then c.setHead streamId { s with maxdataRemote := maxdata } else c

/-- The end of `picoquic_mark_active_stream`. -/
def markActiveStream (c : OutputCnx) (streamId : ℕ) (isActive : Bool) : OutputCnx :=
  let s := c.heads streamId
  if isActive then
    if !s.finRequested && !s.resetRequested then c.setHead streamId { s with isActive := true }
    else c
  else c.setHead streamId { s with isActive := false }

/-- The end of `picoquic_add_to_stream_with_ctx`. -/
def addToStream (c : OutputCnx) (streamId length : ℕ) (setFin : Bool) : OutputCnx :=
  let s := c.heads streamId
  if setFin ∧ s.finRequested ∧ 0 < length then c
  else
    let s := { s with finRequested := s.finRequested || setFin }
    if s.resetSent || s.stopSendingReceived then c.setHead streamId s
    else c.setHead streamId { s with queued := s.queued + length, isActive := false }

/-- `picoquic_mark_high_priority_stream`. -/
def markHighPriorityStream (c : OutputCnx) (streamId : ℕ) (isHighPriority : Bool) : OutputCnx :=
  if isHighPriority then
    { c with output := { c.output with highPriorityStreamId := streamId } }
  else if c.output.highPriorityStreamId = streamId then
    { c with output := { c.output with highPriorityStreamId := 2 ^ 64 - 1 } }
  else c

/-- `picoquic_reset_stream`, for a stream that exists. -/
def resetStream (c : OutputCnx) (streamId : ℕ) : OutputCnx :=
  let s := c.heads streamId
  if s.finSent then c else c.setHead streamId { s with resetRequested := true }

/-- `picoquic_stop_sending`, for a stream that exists. -/
def stopSending (c : OutputCnx) (streamId : ℕ) : OutputCnx :=
  let s := c.heads streamId
  if s.receiveHalf.resetReceived then c
  else if s.stopSendingRequested then c
  else
    { c.setHead streamId { s with stopSendingRequested := true } with
      output := c.output.insertOutputStream streamId }

/-- `picoquic_process_ack_of_stream_frame`, for a stream that exists. -/
def processAck (c : OutputCnx) (streamId offset length : ℕ) (fin : Bool) : OutputCnx :=
  let s := c.heads streamId
  (c.setHead streamId
    { s with
      sackList := (updateSackList s.sackList offset
        (sub64 (u64 (offset + length)) (if fin then 0 else 1)) 0).1 })
    |>.deleteStreamIfClosed streamId

/-- A limit of the transport parameters: streams are linked that were created before. -/
def setTransportLimit (c : OutputCnx) (isBidir : Bool) (maxStreamId : ℕ) : OutputCnx :=
  let oldLimit := c.output.maxStreamIdRemote isBidir
  let output :=
    if isBidir then { c.output with maxStreamIdBidirRemote := maxStreamId }
    else { c.output with maxStreamIdUnidirRemote := maxStreamId }
  { c with output := output.addOutputStreams oldLimit maxStreamId isBidir }

/-- What is done with a stream, if it exists. -/
def onStream (c : OutputCnx) (streamId : ℕ) (f : OutputCnx → OutputCnx) : OutputCnx :=
  if streamId ∈ c.output.streams then f c else c

/-- One event. -/
def step (c : OutputCnx) : OutputEvent → OutputCnx
  | .streamFrame id fin consumed =>
    (c.findOrCreateStream id true).onStream id fun c => c.receiveStream id fin consumed
  | .resetFrame id => (c.findOrCreateStream id true).onStream id fun c => c.receiveReset id
  | .stopSendingFrame id =>
    (c.findOrCreateStream id true).onStream id fun c => c.receiveStopSending id
  | .maxStreamDataFrame id maxdata =>
    (c.findOrCreateStream id true).onStream id fun c => c.receiveMaxStreamData id maxdata
  | .maxDataFrame maxdata => { c with maxdataRemote := max c.maxdataRemote maxdata }
  | .maxStreamsFrame isBidir maxStreamId =>
    { c with output := c.output.raiseMaxStreams isBidir maxStreamId }
  | .transportLimit isBidir maxStreamId => c.setTransportLimit isBidir maxStreamId
  | .limits bidirRemote unidirRemote bidirLocal unidirLocal =>
    { c with
      output :=
        { c.output with
          maxStreamIdBidirRemote := bidirRemote
          maxStreamIdUnidirRemote := unidirRemote }
      maxStreamIdBidirLocal := bidirLocal
      maxStreamIdUnidirLocal := unidirLocal }
  | .acked id offset length fin => c.onStream id fun c => c.processAck id offset length fin
  | .openStream id => c.findOrCreateStream id false
  | .markActive id isActive =>
    (c.findOrCreateStream id false).onStream id fun c => c.markActiveStream id isActive
  | .markHighPriority id isHighPriority => c.markHighPriorityStream id isHighPriority
  | .addToStream id length setFin =>
    (c.findOrCreateStream id false).onStream id fun c => c.addToStream id length setFin
  | .resetStream id => c.onStream id fun c => c.resetStream id
  | .stopSending id => c.onStream id fun c => c.stopSending id
  | .send answer =>
    match c.findReadyStream with
    | (c, none) => c
    | (c, some id) => c.formatStreamFrame id answer

/-- A new connection. No stream has priority. -/
def initial (clientMode : Bool) (params : TransportParameters) (maxdataRemote : ℕ) : OutputCnx where
  output :=
    { clientMode := clientMode
      streams := []
      sorted := List.Pairwise.nil
      isOutputStream := fun _ => false
      outputStreams := .empty
      highPriorityStreamId := 2 ^ 64 - 1
      maxStreamIdBidirRemote := 0
      maxStreamIdUnidirRemote := 0
      streamBlockedBidirSent := false
      streamBlockedUnidirSent := false }
  heads := fun _ =>
    ⟨false, 0, 0, 0, false, false, false, false, false, false, false, ⟨false, false, false, false⟩,
      false, sackListInit⟩
  nextStreamId := fun type => type
  remoteParameters := params
  maxStreamIdBidirLocal := 0
  maxStreamIdUnidirLocal := 0
  maxdataRemote := maxdataRemote
  dataSent := 0

/-! ### When the list is kept -/

/-- The streams that a frame or the application creates and links. -/
def createdOutputs (c : OutputCnx) (streamId : ℕ) (isRemote : Bool) : List ℕ :=
  if streamId ∈ c.output.streams then []
  else
    (List.range' (c.nextStreamId (streamTypeFromId streamId)) (c.missingStreams streamId isRemote)
      4).filter c.isOutputAtFirst

/-- The streams that an event links, one after another. -/
def newlyLinked (c : OutputCnx) : OutputEvent → List ℕ
  | .streamFrame id _ _ | .resetFrame id | .stopSendingFrame id | .maxStreamDataFrame id _ =>
    c.createdOutputs id true
  | .openStream id | .markActive id _ | .addToStream id _ _ => c.createdOutputs id false
  | .maxStreamsFrame isBidir maxStreamId =>
    if c.output.maxStreamIdRemote isBidir < maxStreamId then
      c.output.newStreams (c.output.maxStreamIdRemote isBidir) maxStreamId isBidir
    else []
  | .transportLimit isBidir maxStreamId =>
    c.output.newStreams (c.output.maxStreamIdRemote isBidir) maxStreamId isBidir
  | .stopSending id =>
    if id ∈ c.output.streams ∧ c.output.isOutputStream id = false ∧
        (c.heads id).receiveHalf.resetReceived = false ∧ (c.heads id).stopSendingRequested = false
    then [id]
    else []
  | _ => []

/-- The first stream of the list is not the one with priority. -/
def StartsList (c : OutputCnx) (e : OutputEvent) : Prop :=
  c.output.outputStreams.first = none →
    (c.newlyLinked e).head? ≠ some c.output.highPriorityStreamId

instance (c : OutputCnx) (e : OutputEvent) : Decidable (c.StartsList e) :=
  inferInstanceAs (Decidable (_ = none → _ ≠ _))

/-- No stream is linked again that was closed. -/
def LinksOpen (c : OutputCnx) (e : OutputEvent) : Prop :=
  ∀ id ∈ c.newlyLinked e, id ∈ c.output.streams → (c.heads id).isClosed = false

instance (c : OutputCnx) (e : OutputEvent) : Decidable (c.LinksOpen e) :=
  inferInstanceAs (Decidable (∀ id ∈ c.newlyLinked e, _ → _))

end OutputCnx

end Picoquic
