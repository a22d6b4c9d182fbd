import Mathlib.Data.List.Sort
import Picoquic.Congestion.Common
import Picoquic.Sack.List
import Picoquic.Wire.Varint

/-!
# Receiving streams

What a connection does with the STREAM and RESET_STREAM frames it receives, and how it raises the
limits it grants to its peer.

* **`StreamHead`** — a stream: data that arrives out of order waits in a tree, the rest is handed
  to the application at once;
* **`Cnx.streamNetworkInput`** and **`Cnx.decodeStreamResetFrame`** — the two frames;
* **`Cnx.flowControlCheck`** — the check that both make against the limits;
* **`Cnx.step`** — all that happens to the receiving side of a connection.

The tree of a stream and the tree of streams are lists in the order of their keys. Memory is
always available. The application has set a callback, which returns zero, and no direct receive
function. An error ends the processing of frames. The sending half of a stream matters only for
the moment when the stream is closed and deleted, so any change of it is an event of its own.
`calls`, `arrived` and `gone` are history: what the application was told, which frames a stream
took in, and the streams that were deleted.
-/

namespace Picoquic

/-! ### Data -/

/-- `picoquic_stream_data_node_t`: data waiting for what comes before it. -/
structure Chunk where
  offset : ℕ
  bytes : List UInt8
  deriving DecidableEq

/-- What the application is told about a stream. -/
inductive CallbackEvent
  /-- `picoquic_callback_stream_data`. -/
  | streamData (bytes : List UInt8)
  /-- `picoquic_callback_stream_fin`. -/
  | streamFin (bytes : List UInt8)
  /-- `picoquic_callback_stream_reset`. -/
  | streamReset

/-- A frame that a stream takes in. -/
inductive ReceivedFrame
  | stream (offset : ℕ) (bytes : List UInt8) (fin : Bool)
  | reset (finalOffset : ℕ)

/-- The fields of a stream that belong to its sending half and decide when it is closed. -/
structure SendHalf where
  isOutputStream : Bool
  finRequested : Bool
  finSent : Bool
  resetRequested : Bool
  resetSent : Bool
  sentOffset : ℕ
  sackList : SackList

/-- `picoquic_stream_head_t`, the part that receiving touches. -/
structure StreamHead where
  streamId : ℕ
  consumedOffset : ℕ
  /-- Highest offset received; the final size once that is known. -/
  finOffset : ℕ
  /-- Limit granted to the peer. -/
  maxdataLocal : ℕ
  finReceived : Bool
  finSignalled : Bool
  resetReceived : Bool
  resetSignalled : Bool
  stopSendingRequested : Bool
  isDiscarded : Bool
  isClosed : Bool
  remoteError : ℕ
  streamDataTree : List Chunk
  sendHalf : SendHalf
  calls : List CallbackEvent
  arrived : List ReceivedFrame

/-- Errors that end a connection. -/
inductive TransportError
  | flowControl
  | finalOffset
  | streamLimit
  | streamState
  deriving DecidableEq

/-- The parameters announced to the peer, and the identifiers the peer allows us. -/
structure TransportParameters where
  initialMaxData : Uint64
  initialMaxStreamDataBidiLocal : Uint64
  initialMaxStreamDataBidiRemote : Uint64
  initialMaxStreamDataUni : Uint64

/-- `picoquic_cnx_t`, the part that receiving streams touches. -/
structure Cnx where
  clientMode : Bool
  localParameters : TransportParameters
  streams : List StreamHead
  /-- First identifier not used yet, for the four types of streams. -/
  nextStreamId : ℕ → ℕ
  maxStreamIdBidirLocal : ℕ
  maxStreamIdUnidirLocal : ℕ
  maxStreamIdBidirRemote : ℕ
  maxStreamIdUnidirRemote : ℕ
  dataReceived : ℕ
  maxdataLocal : ℕ
  isReady : Bool
  isFlowControlLimited : Bool
  maxStreamDataNeeded : Bool
  error : Option TransportError
  gone : List StreamHead

/-- `IS_CLIENT_STREAM_ID`. -/
def isClientStreamId (id : ℕ) : Bool := decide (id % 2 = 0)

/-- `IS_BIDIR_STREAM_ID`. -/
def isBidirStreamId (id : ℕ) : Bool := decide (id / 2 % 2 = 0)

/-- `IS_LOCAL_STREAM_ID`. -/
def isLocalStreamId (id : ℕ) (clientMode : Bool) : Bool := isClientStreamId id == clientMode

/-- `STREAM_TYPE_FROM_ID`. -/
def streamTypeFromId (id : ℕ) : ℕ := id % 4

/-! ### The data of a stream -/

/-- The part of an arriving frame from `start` to `stop`, as a chunk. -/
def frameChunk (inputBegin : ℕ) (bytes : List UInt8) (start stop : ℕ) : Chunk :=
  ⟨start, (bytes.drop (start - inputBegin)).take (stop - start)⟩

/-- The loop of `picoquic_queue_network_input` over the chunks beyond the begin of a frame: fills
the gaps between them, and says whether there were any. -/
def fillGaps (inputBegin : ℕ) (bytes : List UInt8) (frameDataOffset : ℕ) :
    List Chunk → List Chunk × Bool
  | [] =>
    if frameDataOffset < inputBegin + bytes.length then
      ([frameChunk inputBegin bytes frameDataOffset (inputBegin + bytes.length)], true)
    else ([], false)
  | next :: rest =>
    if frameDataOffset < inputBegin + bytes.length then
      if next.offset < inputBegin + bytes.length then
        let (l, added) := fillGaps inputBegin bytes (next.offset + next.bytes.length) rest
        if frameDataOffset < next.offset then
          (frameChunk inputBegin bytes frameDataOffset next.offset :: next :: l, true)
        else (next :: l, added)
      else
        (frameChunk inputBegin bytes frameDataOffset (inputBegin + bytes.length) :: next :: rest,
          true)
    else (next :: rest, false)

/-- The begin of a frame is skipped as far as the previous chunk holds it. -/
def skipPrevious (start : ℕ) (before : List Chunk) : ℕ :=
  before.getLast?.elim start fun prev => max start (prev.offset + prev.bytes.length)

/-- `picoquic_queue_network_input`: the new tree, and whether new data are in it. -/
def queueNetworkInput (tree : List Chunk) (consumedOffset frameDataOffset : ℕ)
    (bytes : List UInt8) : List Chunk × Bool :=
  let start := max frameDataOffset consumedOffset
  if start < frameDataOffset + bytes.length then
    let before := tree.takeWhile fun c => c.offset ≤ start
    let after := tree.dropWhile fun c => c.offset ≤ start
    let (l, added) := fillGaps frameDataOffset bytes (skipPrevious start before) after
    (before ++ l, added)
  else (tree, false)

/-- These are the last data of the stream, and the application does not know yet. -/
def StreamHead.finNow (s : StreamHead) (consumedOffset : ℕ) : Bool :=
  decide (s.finOffset ≤ consumedOffset) && s.finReceived && !s.finSignalled

/-- `picoquic_stream_data_chunk_callback`: hands data to the application, with the end of the
stream if these are the last ones. -/
def StreamHead.dataChunkCallback (s : StreamHead) (bytes : List UInt8) : StreamHead :=
  let consumedOffset := s.consumedOffset + bytes.length
  let finNow := s.finNow consumedOffset
  let callBackNeeded :=
    (decide (0 < bytes.length) || finNow) && !s.stopSendingRequested && !s.isDiscarded
  { s with
    consumedOffset := consumedOffset
    finSignalled := s.finSignalled || finNow
    calls :=
      if callBackNeeded then
        s.calls ++ [if finNow then .streamFin bytes else .streamData bytes]
      else s.calls }

/-- The loop of `picoquic_stream_data_callback`: hands over the chunks that continue what was
consumed, and removes them. -/
def StreamHead.popChunks (s : StreamHead) : List Chunk → StreamHead
  | [] => { s with streamDataTree := [] }
  | data :: rest =>
    if data.offset ≤ s.consumedOffset then
      if s.consumedOffset - data.offset ≤ data.bytes.length then
        (s.dataChunkCallback (data.bytes.drop (s.consumedOffset - data.offset))).popChunks rest
      else s.popChunks rest
    else { s with streamDataTree := data :: rest }

/-- `picoquic_stream_data_callback`. -/
def StreamHead.streamDataCallback (s : StreamHead) : StreamHead :=
  (s.popChunks s.streamDataTree).dataChunkCallback []

/-- What `picoquic_stream_network_input` does with the data of a frame once it is accepted. -/
def StreamHead.takeIn (s : StreamHead) (offset : ℕ) (bytes : List UInt8) (shouldNotify : Bool) :
    StreamHead :=
  if offset ≤ s.consumedOffset then
    if s.consumedOffset ≤ offset + bytes.length then
      (s.dataChunkCallback (bytes.drop (s.consumedOffset - offset))).streamDataCallback
    else s
  else
    let (tree, newDataAvailable) :=
      queueNetworkInput s.streamDataTree s.consumedOffset offset bytes
    let s := { s with streamDataTree := tree }
    if shouldNotify || newDataAvailable then s.streamDataCallback else s

/-! ### Streams of a connection -/

/-- `picoquic_connection_error`: the first error counts. -/
def Cnx.connectionError (c : Cnx) (e : TransportError) : Cnx :=
  { c with error := some (c.error.getD e) }

/-- `picoquic_find_stream`. -/
def Cnx.findStream (c : Cnx) (streamId : ℕ) : Option StreamHead :=
  c.streams.find? fun s => s.streamId = streamId

/-- Stores a changed stream. -/
def Cnx.putStream (c : Cnx) (s : StreamHead) : Cnx :=
  { c with streams := c.streams.map fun r => if r.streamId = s.streamId then s else r }

/-- The stream that `picoquic_create_stream` sets up. One of the peer's one-way streams is marked
as finished in our direction. -/
def Cnx.newStream (c : Cnx) (streamId : ℕ) : StreamHead :=
  let isLocal := isLocalStreamId streamId c.clientMode
  let bidir := isBidirStreamId streamId
  { streamId := streamId
    consumedOffset := 0
    finOffset := 0
    maxdataLocal :=
      if isLocal then if bidir then c.localParameters.initialMaxStreamDataBidiLocal else 0
      else if bidir then c.localParameters.initialMaxStreamDataBidiRemote
      else c.localParameters.initialMaxStreamDataUni
    finReceived := false
    finSignalled := false
    resetReceived := false
    resetSignalled := false
    stopSendingRequested := false
    isDiscarded := false
    isClosed := false
    remoteError := 0
    streamDataTree := []
    sendHalf :=
      { isOutputStream :=
          if isLocal then
            decide (streamId ≤
              if bidir then c.maxStreamIdBidirRemote else c.maxStreamIdUnidirRemote)
          else bidir
        finRequested := !isLocal && !bidir
        finSent := !isLocal && !bidir
        resetRequested := false
        resetSent := false
        sentOffset := 0
        sackList := sackListInit }
    calls := []
    arrived := [] }

/-- `picoquic_create_stream`. -/
def Cnx.createStream (c : Cnx) (streamId : ℕ) : Cnx :=
  { c with
    streams := c.streams.orderedInsert (fun s r => s.streamId ≤ r.streamId) (c.newStream streamId)
    nextStreamId :=
      if c.nextStreamId (streamTypeFromId streamId) ≤ streamId then
        Function.update c.nextStreamId (streamTypeFromId streamId) (streamId + 4)
      else c.nextStreamId }

/-- The loop of `picoquic_create_missing_streams`, which creates the streams of a type one after
the other. -/
def Cnx.createStreams (c : Cnx) (type : ℕ) : ℕ → Cnx
  | 0 => c
  | n + 1 => (c.createStream (c.nextStreamId type)).createStreams type n

/-- `picoquic_create_missing_streams`. The loop runs until the next identifier is beyond
`streamId`; an old identifier of the peer is no error. -/
def Cnx.createMissingStreams (c : Cnx) (streamId : ℕ) (isRemote : Bool) : Cnx :=
  let next := c.nextStreamId (streamTypeFromId streamId)
  if isRemote && decide (streamId < next) then c
  else if isClientStreamId streamId ≠ (c.clientMode ^^ isRemote) then c.connectionError .streamLimit
  else if isRemote && decide ((if isBidirStreamId streamId then c.maxStreamIdBidirLocal
      else c.maxStreamIdUnidirLocal) < streamId) then c.connectionError .streamLimit
  else if streamId < next then c.connectionError .streamState
  else c.createStreams (streamTypeFromId streamId) ((streamId - next) / 4 + 1)

/-- `picoquic_find_or_create_stream`. -/
def Cnx.findOrCreateStream (c : Cnx) (streamId : ℕ) (isRemote : Bool) :
    Cnx × Option StreamHead :=
  match c.findStream streamId with
  | some s => (c, some s)
  | none =>
    let c := c.createMissingStreams streamId isRemote
    (c, c.findStream streamId)

/-- `picoquic_is_stream_closed`. -/
def StreamHead.isStreamClosed (s : StreamHead) (clientMode : Bool) : Bool :=
  let h := s.sendHalf
  let sendDone := (h.finRequested && h.finSent) || (h.resetRequested && h.resetSent)
  let receiveDone := (s.finReceived && s.finSignalled) || (s.resetReceived && s.resetSignalled)
  !h.isOutputStream &&
    if isBidirStreamId s.streamId then sendDone && receiveDone
    else if isLocalStreamId s.streamId clientMode then sendDone
    else receiveDone

/-- `picoquic_is_stream_acked`. -/
def StreamHead.isStreamAcked (s : StreamHead) : Bool :=
  s.isClosed && (s.sendHalf.resetSent || checkSackList s.sendHalf.sackList 0 s.sendHalf.sentOffset)

/-- `picoquic_delete_stream_if_closed`. -/
def Cnx.deleteStreamIfClosed (c : Cnx) (s : StreamHead) : Cnx :=
  let s := if !s.isClosed && s.isStreamClosed c.clientMode then { s with isClosed := true } else s
  if s.isStreamAcked then
    { c with
      streams := c.streams.filter fun r => r.streamId ≠ s.streamId
      gone := c.gone ++ [s] }
  else c.putStream s

/-! ### Frames -/

/-- `picoquic_flow_control_check_stream_offset`, or nothing on a flow control error. -/
def Cnx.flowControlCheck (c : Cnx) (s : StreamHead) (newFinOffset : ℕ) :
    Option (Cnx × StreamHead) :=
  if s.maxdataLocal < newFinOffset then none
  else if s.finOffset < newFinOffset then
    let newBytes := newFinOffset - s.finOffset
    if c.maxdataLocal < newBytes ∨ c.maxdataLocal - newBytes < c.dataReceived then none
    else
      some ({ c with dataReceived := c.dataReceived + newBytes },
        { s with finOffset := newFinOffset })
  else some (c, s)

/-- The end of `picoquic_stream_network_input`: the data are taken in, and the stream is deleted
if it is closed. -/
def Cnx.deliver (c : Cnx) (s : StreamHead) (offset : ℕ) (bytes : List UInt8)
    (fin shouldNotify : Bool) : Cnx :=
  let s := s.takeIn offset bytes shouldNotify
  let s := { s with arrived := s.arrived ++ [.stream offset bytes fin] }
  if s.finSignalled then c.deleteStreamIfClosed s
  else
    let needed := !s.finReceived && !s.resetReceived &&
      decide (s.maxdataLocal < u64 (2 * s.consumedOffset))
    { c.putStream s with maxStreamDataNeeded := c.maxStreamDataNeeded || needed }

/-- `picoquic_stream_network_input`. A frame of a deleted stream is ignored. -/
def Cnx.streamNetworkInput (c : Cnx) (streamId offset : ℕ) (fin : Bool) (bytes : List UInt8) :
    Cnx :=
  let newFinOffset := offset + bytes.length
  match c.findOrCreateStream streamId true with
  | (c, none) => c
  | (c, some s) =>
    if s.finReceived then
      if (if fin then s.finOffset ≠ newFinOffset else s.finOffset < newFinOffset) then
        c.connectionError .finalOffset
      else c.deliver s offset bytes fin false
    else
      let s := { s with finReceived := fin }
      if s.finOffset < newFinOffset then
        match c.flowControlCheck s newFinOffset with
        | none => (c.putStream s).connectionError .flowControl
        | some (c, s) => c.deliver s offset bytes fin fin
      else c.deliver s offset bytes fin fin

/-- `picoquic_decode_stream_frame`, once the header is parsed. -/
def Cnx.decodeStreamFrame (c : Cnx) (streamId offset : ℕ) (fin : Bool) (bytes : List UInt8) :
    Cnx :=
  if 2 ^ 62 ≤ offset + bytes.length then c.connectionError .finalOffset
  else c.streamNetworkInput streamId offset fin bytes

/-- `picoquic_decode_stream_reset_frame`, once the fields are parsed. -/
def Cnx.decodeStreamResetFrame (c : Cnx) (streamId errorCode finalOffset : ℕ) : Cnx :=
  match c.findOrCreateStream streamId true with
  | (c, none) => c
  | (c, some s) =>
    if (s.finReceived || s.resetReceived) && decide (finalOffset ≠ s.finOffset) then
      c.connectionError .finalOffset
    else
      match c.flowControlCheck s finalOffset with
      | none => c.connectionError .flowControl
      | some (c, s) =>
        let s := { s with arrived := s.arrived ++ [ReceivedFrame.reset finalOffset] }
        if s.resetReceived then c.putStream s
        else
          let s := { s with resetReceived := true, remoteError := errorCode }
          if s.resetSignalled then c.putStream s
          else
            c.deleteStreamIfClosed
              { s with
                resetSignalled := true
                calls := if s.isDiscarded then s.calls else s.calls ++ [CallbackEvent.streamReset] }

/-! ### Raising the limits -/

/-- The increase that packet preparation puts into a MAX_DATA frame, if one is due. -/
def Cnx.maxDataIncrease (c : Cnx) (rttMin : ℕ) : Option ℕ :=
  if c.isFlowControlLimited then
    if c.maxdataLocal < u64 (c.dataReceived + c.localParameters.initialMaxData / 2) then
      some c.localParameters.initialMaxData
    else none
  else if c.maxdataLocal < u64 (2 * c.dataReceived) then
    some (increasedWindow rttMin c.maxdataLocal)
  else none

/-- `picoquic_format_max_data_frame` in a space of `room` bytes. -/
def Cnx.formatMaxDataFrame (c : Cnx) (room maxdataIncrease : ℕ) : Cnx :=
  let maxdata := u64 (c.maxdataLocal + maxdataIncrease)
  if 1 + encodeVarintLength maxdata ≤ room then { c with maxdataLocal := maxdata } else c

/-- The size of the frame of `picoquic_format_max_stream_data_frame`. -/
def maxStreamDataFrameSize (streamId newMaxData : ℕ) : ℕ :=
  1 + encodeVarintLength streamId + encodeVarintLength newMaxData

/-- The increase that `picoquic_format_required_max_stream_data_frames` grants a stream. -/
def StreamHead.requiredIncrease (s : StreamHead) (rttMin : ℕ) : Option ℕ :=
  if !s.finReceived && !s.resetReceived && decide (s.maxdataLocal < u64 (2 * s.consumedOffset)) then
    some (increasedWindow rttMin s.maxdataLocal)
  else none

/-- The loop of `picoquic_format_required_max_stream_data_frames`: the streams, and whether all
of them were considered. -/
def requiredMaxStreamData (rttMin : ℕ) : ℕ → List StreamHead → List StreamHead × Bool
  | _, [] => ([], true)
  | room, s :: rest =>
    match s.requiredIncrease rttMin with
    | none =>
      let (l, done) := requiredMaxStreamData rttMin room rest
      (s :: l, done)
    | some increase =>
      let maxdata := u64 (s.maxdataLocal + increase)
      let size := maxStreamDataFrameSize s.streamId maxdata
      if size ≤ room then
        let (l, done) := requiredMaxStreamData rttMin (room - size) rest
        ({ s with maxdataLocal := maxdata } :: l, done)
      else (s :: rest, false)

/-- `picoquic_format_required_max_stream_data_frames`. -/
def Cnx.formatRequiredMaxStreamDataFrames (c : Cnx) (rttMin room : ℕ) : Cnx :=
  let (l, done) := requiredMaxStreamData rttMin room c.streams
  { c with streams := l, maxStreamDataNeeded := c.maxStreamDataNeeded && !done }

/-- `picoquic_open_flow_control`; its buffer has room for both frames. -/
def Cnx.openFlowControl (c : Cnx) (streamId expectedDataSize : ℕ) : Cnx :=
  match c.findStream streamId with
  | none => c
  | some s =>
    let maxRequired := u64 (s.consumedOffset + expectedDataSize)
    if c.isReady ∧ !c.isFlowControlLimited ∧ s.maxdataLocal < maxRequired then
      let c := c.putStream { s with maxdataLocal := maxRequired }
      { c with maxdataLocal := u64 (c.maxdataLocal + expectedDataSize) }
    else c

/-! ### Events -/

/-- What happens to the receiving side of a connection. -/
inductive StreamEvent
  /-- A STREAM frame arrives. -/
  | streamFrame (streamId offset : ℕ) (fin : Bool) (bytes : List UInt8)
  /-- A RESET_STREAM frame arrives. -/
  | resetFrame (streamId errorCode finalOffset : ℕ)
  /-- The application opens a stream of its own. -/
  | openStream (streamId : ℕ)
  /-- The application asks the peer to stop sending. -/
  | stopSending (streamId : ℕ)
  /-- The application is no longer interested in a stream. -/
  | discard (streamId : ℕ)
  /-- The sending half of a stream changes, and the stream is deleted if that closes it. -/
  | sending (streamId : ℕ) (sendHalf : SendHalf)
  /-- The numbers of streams that each side may open change. -/
  | maxStreams (bidirLocal unidirLocal bidirRemote unidirRemote : ℕ)
  /-- The connection gets ready, or its flow control limited. -/
  | mode (isReady isFlowControlLimited : Bool)
  /-- A packet is prepared: a MAX_DATA frame, if one is due. -/
  | maxData (rttMin room : ℕ)
  /-- A packet is prepared: MAX_STREAM_DATA frames, if they are due. -/
  | maxStreamData (rttMin room : ℕ)
  /-- The application opens flow control. -/
  | openFlowControl (streamId : ℕ) (expectedDataSize : Uint64)

/-- Changes a stream, if it exists. -/
def Cnx.modifyStream (c : Cnx) (streamId : ℕ) (f : StreamHead → StreamHead) : Cnx :=
  (c.findStream streamId).elim c fun s => c.putStream (f s)

/-- One event. -/
def Cnx.step (c : Cnx) (e : StreamEvent) : Cnx :=
  if c.error.isSome then c
  else
    match e with
    | .streamFrame streamId offset fin bytes => c.decodeStreamFrame streamId offset fin bytes
    | .resetFrame streamId errorCode finalOffset =>
      c.decodeStreamResetFrame streamId errorCode finalOffset
    | .openStream streamId => c.createMissingStreams streamId false
    | .stopSending streamId =>
      c.modifyStream streamId fun s =>
        if s.resetReceived then s else { s with stopSendingRequested := true }
    | .discard streamId => c.modifyStream streamId fun s => { s with isDiscarded := true }
    | .sending streamId sendHalf =>
      (c.findStream streamId).elim c fun s => c.deleteStreamIfClosed { s with sendHalf := sendHalf }
    | .maxStreams bidirLocal unidirLocal bidirRemote unidirRemote =>
      { c with
        maxStreamIdBidirLocal := bidirLocal
        maxStreamIdUnidirLocal := unidirLocal
        maxStreamIdBidirRemote := bidirRemote
        maxStreamIdUnidirRemote := unidirRemote }
    | .mode isReady isFlowControlLimited =>
      { c with isReady := isReady, isFlowControlLimited := isFlowControlLimited }
    | .maxData rttMin room => (c.maxDataIncrease rttMin).elim c (c.formatMaxDataFrame room)
    | .maxStreamData rttMin room =>
      if c.maxStreamDataNeeded then c.formatRequiredMaxStreamDataFrames rttMin room else c
    | .openFlowControl streamId expectedDataSize => c.openFlowControl streamId expectedDataSize

/-- A new connection. -/
def Cnx.initial (clientMode : Bool) (params : TransportParameters) : Cnx :=
  { clientMode := clientMode
    localParameters := params
    streams := []
    nextStreamId := fun type => type
    maxStreamIdBidirLocal := 0
    maxStreamIdUnidirLocal := 0
    maxStreamIdBidirRemote := 0
    maxStreamIdUnidirRemote := 0
    dataReceived := 0
    maxdataLocal := params.initialMaxData
    isReady := false
    isFlowControlLimited := false
    maxStreamDataNeeded := false
    error := none
    gone := [] }

end Picoquic
