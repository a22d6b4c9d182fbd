import Picoquic.Stream.Reassembly

/-!
# Direct receive

An application may ask for the data of a stream as they arrive, in any order. What waits for
missing data at that moment is handed over at once, and the tree of the stream is emptied.

* **`DirectStream.markDirectReceive`** — the call that asks for it. The application may make it
  between two packets, or from inside its data callback, which is then in the middle of a loop
  over the same tree;
* **`DirectStream.networkInput`** — a STREAM frame, with both ways of delivery;
* **`DirectStream.step`** — all that happens to such a stream.

`marks k` says that the application asks for direct receive in the course of its `k`-th callback.
`directCalls`, `queued` and `removed` are history: what the direct receive function was told, and
which chunks were put into the tree and taken out of it.
-/

namespace Picoquic

/-- A call of the direct receive function. -/
structure DirectCall where
  fin : Bool
  offset : ℕ
  bytes : List UInt8
  deriving DecidableEq

/-- A stream whose application may ask for direct receive. -/
structure DirectStream extends StreamHead where
  /-- `direct_receive_fn` is set. -/
  directReceive : Bool
  /-- The connection failed. -/
  failed : Bool
  isDeleted : Bool
  /-- A chunk was removed that was not in the tree any more. What the tree holds then are nodes
  that have been freed, and nothing is said about what happens next. -/
  isCorrupted : Bool
  directCalls : List DirectCall
  queued : List Chunk
  removed : List Chunk

namespace DirectStream

/-! ### The call -/

/-- What a chunk contributes beyond the consumed offset. The bytes are those from the begin of the
chunk on, also when the offset is moved forward. -/
def pendingCall (consumedOffset : ℕ) (data : Chunk) : Option DirectCall :=
  if data.offset < consumedOffset then
    if data.offset + data.bytes.length < consumedOffset then none
    else
      let length := data.bytes.length - (consumedOffset - data.offset)
      if 0 < length then some ⟨false, consumedOffset, data.bytes.take length⟩ else none
  else if 0 < data.bytes.length then some ⟨false, data.offset, data.bytes⟩
  else none

/-- The loop of `picoquic_mark_direct_receive_stream`: hands over what waits, and empties the
tree. -/
def drainTree (s : DirectStream) : DirectStream :=
  { s with
    directCalls := s.directCalls ++ s.streamDataTree.filterMap (pendingCall s.consumedOffset)
    removed := s.removed ++ s.streamDataTree
    streamDataTree := [] }

/-- `picoquic_mark_direct_receive_stream`, with a function that returns zero. -/
def markDirectReceive (clientMode : Bool) (s : DirectStream) : DirectStream :=
  if s.isDeleted then s
  else if !isBidirStreamId s.streamId && isLocalStreamId s.streamId clientMode then s
  else
    let s := { s with directReceive := true }.drainTree
    if s.finReceived && !s.finSignalled then
      { s with directCalls := s.directCalls ++ [⟨true, s.finOffset, []⟩] }
    else s

/-! ### The data callback -/

variable (clientMode : Bool) (marks : ℕ → Bool)

/-- `picoquic_stream_data_chunk_callback`, with an application that may ask for direct receive. -/
def chunkCallback (s : DirectStream) (bytes : List UInt8) : DirectStream :=
  let t := s.toStreamHead.dataChunkCallback bytes
  if s.calls.length < t.calls.length ∧ marks s.calls.length then
    { s with toStreamHead := t }.markDirectReceive clientMode
  else { s with toStreamHead := t }

/-- The loop of `picoquic_stream_data_callback` over the tree. A chunk is removed after the
callback for it; by then the tree may be empty. -/
def popChunks (s : DirectStream) : List Chunk → DirectStream
  | [] => s
  | data :: rest =>
    if data.offset ≤ s.consumedOffset then
      let s :=
        if s.consumedOffset - data.offset ≤ data.bytes.length then
          s.chunkCallback clientMode marks (data.bytes.drop (s.consumedOffset - data.offset))
        else s
      let s := { s with removed := s.removed ++ [data] }
      if s.streamDataTree = [] then { s with isCorrupted := true }
      else { s with streamDataTree := rest }.popChunks rest
    else s

/-- `picoquic_stream_data_callback`. -/
def streamDataCallback (s : DirectStream) : DirectStream :=
  (s.popChunks clientMode marks s.streamDataTree).chunkCallback clientMode marks []

/-! ### Frames -/

/-- `picoquic_delete_stream_if_closed`. What is left in the tree is removed with the stream. -/
def deleteIfClosed (s : DirectStream) : DirectStream :=
  let s := if !s.isClosed && s.isStreamClosed clientMode then { s with isClosed := true } else s
  if s.isStreamAcked then
    { s with isDeleted := true, removed := s.removed ++ s.streamDataTree, streamDataTree := [] }
  else s

/-- The direct receive function gets a frame. It returns `PICOQUIC_STREAM_RECEIVE_COMPLETE` if
`complete`, which is an error unless the end of the stream is known. -/
def directInput (s : DirectStream) (offset : ℕ) (bytes : List UInt8) (fin complete : Bool) :
    DirectStream :=
  let s := { s with directCalls := s.directCalls ++ [⟨fin, offset, bytes⟩] }
  if complete then
    if s.finReceived then { s with finSignalled := true } else { s with failed := true }
  else s

/-- A frame that does not continue what was consumed waits in the tree. -/
def queueInput (s : DirectStream) (offset : ℕ) (bytes : List UInt8) (shouldNotify : Bool) :
    DirectStream :=
  let (tree, newDataAvailable) := queueNetworkInput s.streamDataTree s.consumedOffset offset bytes
  let s :=
    { s with streamDataTree := tree, queued := s.queued ++ tree.diff s.streamDataTree }
  if shouldNotify || newDataAvailable then s.streamDataCallback clientMode marks else s

/-- What `picoquic_stream_network_input` does with the data of a frame once it is accepted. -/
def takeIn (s : DirectStream) (offset : ℕ) (bytes : List UInt8)
    (fin shouldNotify complete : Bool) : DirectStream :=
  if s.directReceive then s.directInput offset bytes fin complete
  else if offset ≤ s.consumedOffset then
    if s.consumedOffset ≤ offset + bytes.length then
      (s.chunkCallback clientMode marks (bytes.drop (s.consumedOffset - offset))).streamDataCallback
        clientMode marks
    else s
  else s.queueInput clientMode marks offset bytes shouldNotify

/-- The end of `picoquic_stream_network_input`. -/
def deliver (s : DirectStream) (offset : ℕ) (bytes : List UInt8)
    (fin shouldNotify complete : Bool) : DirectStream :=
  let s := s.takeIn clientMode marks offset bytes fin shouldNotify complete
  let s := { s with arrived := s.arrived ++ [.stream offset bytes fin] }
  if s.finSignalled && !s.failed then s.deleteIfClosed clientMode else s

/-- `picoquic_stream_network_input` for a stream that exists or is deleted. The limit of the
connection leaves `connectionRoom` for new data. -/
def networkInput (s : DirectStream) (offset : ℕ) (bytes : List UInt8) (fin complete : Bool)
    (connectionRoom : ℕ) : DirectStream :=
  let newFinOffset := offset + bytes.length
  if s.isDeleted then s
  else if s.finReceived then
    if (if fin then s.finOffset ≠ newFinOffset else s.finOffset < newFinOffset) then
      { s with failed := true }
    else s.deliver clientMode marks offset bytes fin false complete
  else
    let s := { s with finReceived := fin }
    if s.finOffset < newFinOffset then
      if s.maxdataLocal < newFinOffset ∨ connectionRoom < newFinOffset - s.finOffset then
        { s with failed := true }
      else
        { s with finOffset := newFinOffset }.deliver clientMode marks offset bytes fin fin complete
    else s.deliver clientMode marks offset bytes fin fin complete

/-! ### Events -/

/-- What happens to a stream. -/
inductive Event
  /-- A STREAM frame arrives. -/
  | frame (offset : ℕ) (bytes : List UInt8) (fin complete : Bool) (connectionRoom : ℕ)
  /-- Between two packets, the application asks for direct receive. -/
  | mark
  /-- The limit granted to the peer changes. -/
  | limit (maxdataLocal : ℕ)
  /-- The sending half changes, and the stream is deleted if that closes it. -/
  | sending (sendHalf : SendHalf)

/-- One event. -/
def step (s : DirectStream) (e : Event) : DirectStream :=
  if s.failed || s.isCorrupted then s
  else
    match e with
    | .frame offset bytes fin complete connectionRoom =>
      if 2 ^ 62 ≤ offset + bytes.length then { s with failed := true }
      else s.networkInput clientMode marks offset bytes fin complete connectionRoom
    | .mark => s.markDirectReceive clientMode
    | .limit maxdataLocal => { s with maxdataLocal := maxdataLocal }
    | .sending sendHalf =>
      if s.isDeleted then s else { s with sendHalf := sendHalf }.deleteIfClosed clientMode

/-- A new stream. -/
def initial (c : Cnx) (streamId : ℕ) : DirectStream :=
  { c.newStream streamId with
    directReceive := false
    failed := false
    isDeleted := false
    isCorrupted := false
    directCalls := []
    queued := []
    removed := [] }

end DirectStream

end Picoquic
