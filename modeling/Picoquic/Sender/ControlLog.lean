import Picoquic.Sender.Send
import Picoquic.Wire.Control

/-!
# The life of control frames

What happens to the state by which `picoquic_check_frame_needs_repeat` decides whether a lost
control frame is sent again.

* **`ControlEvent`** — a frame is formatted, a frame of the peer arrives, streams and connection
  IDs come and go;
* **`LoggedCnx`** — a connection with a log of all that ends the need for a frame;
* **`Superseded`** — after a frame was sent it was acknowledged or superseded, or its object is
  gone;
* **`SendCnx.IsMoot`**, **`ControlFrame.IsNeverRepeated`** — the frames that the code does not
  repeat for other reasons.

Repeating a frame sends the same frame again, so it leaves no trace in the log. The limits are
raised by any amount; what the code adds is in `Wire/Control.lean`. Acknowledging a
RETIRE_CONNECTION_ID frame removes the connection ID from the stash.
-/

namespace Picoquic

/-! ### The log -/

/-- What may end the need for a frame. -/
inductive LogEntry
  | sent (f : ControlFrame)
  | acked (f : ControlFrame)
  | streamDeleted (streamId : ℕ)
  /-- One of our connection IDs was removed. -/
  | localCnxidRemoved (sequence : ℕ)
  /-- A connection ID of the peer was removed from the stash. -/
  | stashedCnxidRemoved (sequence : ℕ)
  /-- The peer raised the limit of the connection, or data were sent. -/
  | unblocked
  /-- The peer raised the limit of a stream, or its data were sent. -/
  | streamUnblocked (streamId : ℕ)
  /-- The peer allowed more streams. -/
  | streamsUnblocked (isUnidir : Bool)
  deriving DecidableEq

/-- An entry ends the need for a frame: that frame is acknowledged, a later frame of the same kind
carries a value at least as large, or what it is about is gone or over. -/
def LogEntry.Supersedes : LogEntry → ControlFrame → Prop
  | .acked f, g => f = g
  | .sent (.maxData m), .maxData maxdata => maxdata ≤ m
  | .sent (.maxStreamData id m), .maxStreamData streamId maxdata => id = streamId ∧ maxdata ≤ m
  | .sent (.maxStreams u r), .maxStreams isUnidir rank => u = isUnidir ∧ rank ≤ r
  | .streamDeleted id, .maxStreamData streamId _ => id = streamId
  | .streamDeleted id, .streamDataBlocked streamId _ => id = streamId
  | .localCnxidRemoved n, .newConnectionId sequence => n = sequence
  | .stashedCnxidRemoved n, .retireConnectionId sequence => n = sequence
  | .unblocked, .dataBlocked _ => True
  | .streamUnblocked id, .streamDataBlocked streamId _ => id = streamId
  | .streamsUnblocked u, .streamsBlocked isUnidir _ => u = isUnidir
  | _, _ => False

/-- A frame was sent, and an entry behind that ends the need for it. -/
def Superseded (log : List LogEntry) (f : ControlFrame) : Prop :=
  ∃ before after, log = before ++ after ∧ .sent f ∈ before ∧ ∃ e ∈ after, e.Supersedes f

/-! ### Connections -/

/-- A connection, with all identifiers of streams that were used, and a log. -/
structure LoggedCnx where
  cnx : SendCnx
  created : List ℕ
  log : List LogEntry

/-- A new connection, with the limits that the transport parameters give. -/
def LoggedCnx.initial (clientMode : Bool) (maxdataLocal maxdataRemote : ℕ)
    (maxStreamIdLocal maxStreamIdRemote : Bool → ℕ) : LoggedCnx :=
  { cnx :=
      SendCnx.initial clientMode false maxdataRemote
        { maxdataLocal := maxdataLocal
          maxdataLocalAcked := 0
          maxStreamIdLocal := maxStreamIdLocal
          maxStreamIdRankAcked := fun _ => 0
          maxStreamIdRemote := maxStreamIdRemote
          streamBlockedSent := fun _ => false
          sentBlockedFrame := false
          isHandshakeDoneAcked := false
          isNewTokenAcked := false
          ackFrequencySequenceLocal := 2 ^ 64 - 1
          tlsSackList := fun _ => none
          localCnxids := []
          stashedCnxids := [] }
    created := []
    log := [] }

/-- Changes the state that decides on control frames. -/
def SendCnx.setControl (c : SendCnx) (s : ControlState) : SendCnx := { c with controlState := s }

/-! ### Events -/

/-- A frame whose sending changes nothing. -/
def ControlFrame.isPlain : ControlFrame → Bool
  | .handshakeDone | .newToken | .pathChallenge | .pathResponse | .ping | .datagram _ | .padding
  | .ack | .ackMp | .timeStamp | .connectionClose | .applicationClose | .pathAbandon | .bdp => true
  | _ => false

/-- What happens to a connection. -/
inductive ControlEvent
  /-- `picoquic_format_max_data_frame`. -/
  | maxData (increase : ℕ)
  /-- `picoquic_format_max_stream_data_frame`. -/
  | maxStreamData (streamId newMaxData : ℕ)
  /-- `picoquic_format_max_streams_frame_if_needed`. -/
  | maxStreams (isUnidir : Bool) (increase : ℕ)
  /-- A connection ID is created and announced. -/
  | newConnectionId (sequence : ℕ)
  /-- `picoquic_queue_retire_connection_id_frame`. -/
  | retireConnectionId (sequence : ℕ)
  /-- `picoquic_format_ack_frequency_frame`. -/
  | ackFrequency
  /-- `picoquic_format_data_blocked_frame`. -/
  | dataBlocked
  /-- `picoquic_format_stream_data_blocked_frame`. -/
  | streamDataBlocked (streamId : ℕ)
  /-- `picoquic_format_stream_blocked_frame`. -/
  | streamsBlocked (streamId : Fin (2 ^ 62))
  /-- Some other frame is sent. -/
  | plain (f : ControlFrame)
  /-- A frame is acknowledged. -/
  | acknowledged (f : ControlFrame)
  /-- A MAX_DATA frame arrives. -/
  | maxDataReceived (maxdata : ℕ)
  /-- A MAX_STREAM_DATA frame arrives. -/
  | maxStreamDataReceived (streamId maxdata : ℕ)
  /-- A MAX_STREAMS frame arrives. -/
  | maxStreamsReceived (isUnidir : Bool) (rank : ℕ)
  /-- A STREAM frame is formatted. -/
  | streamFrame (streamId : ℕ)
  /-- A stream is created. -/
  | createStream (streamId maxdataLocal maxdataRemote : ℕ)
  /-- The receiving half of a stream changes, or STOP_SENDING is sent. -/
  | receiving (streamId : ℕ) (finReceived resetReceived stopSendingSent : Bool)
  /-- The sending half of a stream changes. -/
  | sending (streamId : ℕ) (finRequested resetRequested finSent resetSent : Bool)
  /-- A stream is deleted. -/
  | deleteStream (streamId : ℕ)
  /-- One of our connection IDs is removed. -/
  | removeLocalCnxid (sequence : ℕ)
  /-- A connection ID of the peer is stashed. -/
  | stashCnxid (sequence : ℕ)
  /-- A connection ID of the peer is removed from the stash. -/
  | removeStashedCnxid (sequence : ℕ)

/-- The loop of `picoquic_process_ack_of_new_cid_frame`. -/
def markAcked (sequence : ℕ) : List (ℕ × Bool) → List (ℕ × Bool)
  | [] => []
  | cnxid :: rest =>
    if cnxid.1 = sequence then (cnxid.1, true) :: rest else cnxid :: markAcked sequence rest

/-- Removes a connection ID from a list. -/
def removeCnxid (sequence : ℕ) (l : List (ℕ × Bool)) : List (ℕ × Bool) :=
  l.eraseP fun cnxid => cnxid.1 = sequence

/-- The branches of `picoquic_process_ack_of_frames` for control frames. -/
def SendCnx.processAckOfControlFrame (c : SendCnx) (f : ControlFrame) : SendCnx :=
  let s := c.controlState
  match f with
  | .maxData maxdata => c.setControl { s with maxdataLocalAcked := max s.maxdataLocalAcked maxdata }
  | .maxStreamData streamId maxdata =>
    c.modifyStream streamId fun s =>
      { s with maxdataLocalAcked := max s.maxdataLocalAcked maxdata }
  | .maxStreams isUnidir rank =>
    c.setControl
      { s with
        maxStreamIdRankAcked :=
          Function.update s.maxStreamIdRankAcked isUnidir
            (max (s.maxStreamIdRankAcked isUnidir) rank) }
  | .handshakeDone => c.setControl { s with isHandshakeDoneAcked := true }
  | .newToken => c.setControl { s with isNewTokenAcked := true }
  | .newConnectionId sequence =>
    c.setControl { s with localCnxids := markAcked sequence s.localCnxids }
  | .retireConnectionId sequence =>
    c.setControl { s with stashedCnxids := removeCnxid sequence s.stashedCnxids }
  | _ => c

/-- The connection after an event, and what the log says about it. -/
def SendCnx.control (c : SendCnx) : ControlEvent → SendCnx × List LogEntry
  | .maxData increase =>
    let maxdata := u64 (c.controlState.maxdataLocal + increase)
    (c.setControl { c.controlState with maxdataLocal := maxdata }, [.sent (.maxData maxdata)])
  | .maxStreamData streamId newMaxData =>
    match c.streams streamId with
    | none => (c, [])
    | some s =>
      (c.putStream streamId { s with maxdataLocal := newMaxData },
        [.sent (.maxStreamData streamId newMaxData)])
  | .maxStreams isUnidir increase =>
    let limit := u64 (c.controlState.maxStreamIdLocal isUnidir + increase)
    (c.setControl
        { c.controlState with
          maxStreamIdLocal := Function.update c.controlState.maxStreamIdLocal isUnidir limit },
      [.sent (.maxStreams isUnidir (streamRankFromId limit))])
  | .newConnectionId sequence =>
    if sequence ∈ c.controlState.localCnxids.map Prod.fst then (c, [])
    else
      (c.setControl
          { c.controlState with localCnxids := c.controlState.localCnxids ++ [(sequence, false)] },
        [.sent (.newConnectionId sequence)])
  | .retireConnectionId sequence =>
    if sequence ∈ c.controlState.stashedCnxids.map Prod.fst then
      (c, [.sent (.retireConnectionId sequence)])
    else (c, [])
  | .ackFrequency =>
    let seq := u64 (c.controlState.ackFrequencySequenceLocal + 1)
    (c.setControl { c.controlState with ackFrequencySequenceLocal := seq },
      [.sent (.ackFrequency seq)])
  | .dataBlocked =>
    (c.setControl { c.controlState with sentBlockedFrame := true },
      [.sent (.dataBlocked c.maxdataRemote)])
  | .streamDataBlocked streamId =>
    match c.streams streamId with
    | none => (c, [])
    | some s =>
      (c.putStream streamId { s with streamDataBlockedSent := true },
        [.sent (.streamDataBlocked streamId s.maxdataRemote)])
  | .streamsBlocked streamId =>
    let isUnidir := !isBidirStreamId streamId
    -- the code asks this about the streams of the peer
    if isLocalStreamId streamId c.clientMode = false ∧
        c.controlState.maxStreamIdRemote isUnidir < streamId ∧
          c.controlState.streamBlockedSent isUnidir = false then
      (c.setControl
          { c.controlState with
            streamBlockedSent := Function.update c.controlState.streamBlockedSent isUnidir true },
        [.sent (.streamsBlocked isUnidir (streamRankFromId streamId))])
    else (c, [])
  | .plain f => if f.isPlain then (c, [.sent f]) else (c, [])
  | .acknowledged f => (c.processAckOfControlFrame f, [.acked f])
  | .maxDataReceived maxdata =>
    if c.maxdataRemote < maxdata then
      ({ c.setControl { c.controlState with sentBlockedFrame := false } with
          maxdataRemote := maxdata }, [.unblocked])
    else (c, [])
  | .maxStreamDataReceived streamId maxdata =>
    match c.streams streamId with
    | none => (c, [])
    | some s =>
      if s.maxdataRemote < maxdata then
        (c.putStream streamId { s with maxdataRemote := maxdata }, [.streamUnblocked streamId])
      else (c, [])
  | .maxStreamsReceived isUnidir rank =>
    let maxStreamId := streamIdFromRank rank c.clientMode isUnidir
    if c.controlState.maxStreamIdRemote isUnidir < maxStreamId then
      (c.setControl
          { c.controlState with
            maxStreamIdRemote :=
              Function.update c.controlState.maxStreamIdRemote isUnidir maxStreamId
            streamBlockedSent := Function.update c.controlState.streamBlockedSent isUnidir false },
        [.streamsUnblocked isUnidir])
    else (c, [])
  | .streamFrame streamId =>
    ((c.modifyStream streamId fun s => { s with streamDataBlockedSent := false }).setControl
        { c.controlState with sentBlockedFrame := false }, [.unblocked, .streamUnblocked streamId])
  | .createStream streamId maxdataLocal maxdataRemote =>
    (c.putStream streamId
      { c.newStream streamId maxdataRemote true with maxdataLocal := maxdataLocal }, [])
  | .receiving streamId finReceived resetReceived stopSendingSent =>
    (c.modifyStream streamId fun s =>
      { s with
        finReceived := finReceived
        resetReceived := resetReceived
        stopSendingSent := stopSendingSent }, [])
  | .sending streamId finRequested resetRequested finSent resetSent =>
    (c.modifyStream streamId fun s =>
      { s with
        finRequested := finRequested
        resetRequested := resetRequested
        finSent := finSent
        resetSent := resetSent }, [])
  | .deleteStream streamId =>
    ({ c with streams := Function.update c.streams streamId none }, [.streamDeleted streamId])
  | .removeLocalCnxid sequence =>
    (c.setControl
        { c.controlState with localCnxids := removeCnxid sequence c.controlState.localCnxids },
      [.localCnxidRemoved sequence])
  | .stashCnxid sequence =>
    if sequence ∈ c.controlState.stashedCnxids.map Prod.fst then (c, [])
    else
      (c.setControl
        { c.controlState with
          stashedCnxids := c.controlState.stashedCnxids ++ [(sequence, false)] }, [])
  | .removeStashedCnxid sequence =>
    (c.setControl
        { c.controlState with stashedCnxids := removeCnxid sequence c.controlState.stashedCnxids },
      [.stashedCnxidRemoved sequence])

/-- An event can happen: identifiers of streams are used once, and only what was sent is
acknowledged. -/
def ControlEvent.isPossible (a : LoggedCnx) : ControlEvent → Bool
  | .createStream streamId _ _ => decide (streamId ∉ a.created)
  | .acknowledged f => decide (.sent f ∈ a.log)
  | _ => true

/-- The identifier that an event uses up. -/
def ControlEvent.creates : ControlEvent → List ℕ
  | .createStream streamId _ _ => [streamId]
  | _ => []

/-- One event. -/
def LoggedCnx.step (a : LoggedCnx) (e : ControlEvent) : LoggedCnx :=
  if e.isPossible a then
    { cnx := (a.cnx.control e).1
      created := e.creates ++ a.created
      log := a.log ++ (a.cnx.control e).2 }
  else a

/-! ### Frames that are not repeated by design -/

/-- The stream that a frame is about has ended in that direction: limits are of no use to a peer
that has finished, and nobody waits for the limit of a stream that is finished here. -/
def SendCnx.IsMoot (c : SendCnx) : ControlFrame → Prop
  | .maxStreamData streamId _ =>
    ∃ s, c.streams streamId = some s ∧
      (s.finReceived || s.resetReceived || s.stopSendingSent) = true
  | .streamDataBlocked streamId _ =>
    ∃ s, c.streams streamId = some s ∧
      (s.finRequested || s.resetRequested || s.finSent || s.resetSent) = true
  | _ => False

/-- The kinds of frames that are never repeated, or not by a preemptive repeat. -/
def ControlFrame.IsNeverRepeated (isPreemptive : Bool) : ControlFrame → Prop
  | .pathChallenge | .datagram _ | .ackMp | .timeStamp => True
  | .padding | .ack | .pathResponse | .ping | .connectionClose | .applicationClose | .pathAbandon
  | .bdp => isPreemptive = true
  | _ => False

/-- The check compares what it should: not for ACK_FREQUENCY frames, and for MAX_STREAMS frames
only while the limit, as an identifier of the peer's streams, has type bits that are not above
those of our own streams. CRYPTO frames are no control frames. -/
def SendCnx.ComparesRightly (c : SendCnx) : ControlFrame → Prop
  | .maxStreams isUnidir _ =>
    c.controlState.maxStreamIdLocal isUnidir % 4 ≤ 2 * isUnidir.toNat + (!c.clientMode).toNat
  | .ackFrequency _ | .cryptoHs .. => False
  | _ => True

/-- A limit is raised by an event, to a number that a frame can carry. -/
def ControlEvent.Raises (c : SendCnx) : ControlEvent → Prop
  | .maxData increase =>
    0 < c.controlState.maxdataLocal + increase ∧ c.controlState.maxdataLocal + increase < 2 ^ 62
  | .maxStreamData streamId newMaxData =>
    ((c.streams streamId).elim true fun s => decide (s.maxdataLocal < newMaxData)) = true ∧
      newMaxData < 2 ^ 62
  | .maxStreams isUnidir increase => c.controlState.maxStreamIdLocal isUnidir + increase < 2 ^ 62
  | _ => True

instance (c : SendCnx) (e : ControlEvent) : Decidable (e.Raises c) := by
  unfold ControlEvent.Raises
  split <;> infer_instance

end Picoquic
