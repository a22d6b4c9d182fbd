import Picoquic.Ack.Decode
import Picoquic.Path.Abandon
import Picoquic.Quic.TokenReuse
import Picoquic.Sender.StreamBytes

/-!
# Decoding frames

The payload of a packet is a sequence of frames. Each round of the loop of
`picoquic_decode_frames` looks at the first byte, checks that the frame is allowed in the epoch of
the packet, and calls the decoder of the frame, which returns the bytes that follow.

* **`DecodeCnx`** — what the decoders read and write themselves;
* **`FrameCalls`** — the functions of the connection they call;
* **`DecodeCnx.decodeFrame`** — one round of the loop.

Most decoders first read their fields and then use them, so they are `readFields` with the reader
of the frame. A frame that is refused gives the error; there are frames that signal an error to
the connection and are read to their end all the same.
-/

namespace Picoquic

/-! ### Errors -/

/-- `PICOQUIC_TRANSPORT_STREAM_LIMIT_ERROR`. -/
def transportStreamLimitError : ℕ := 0x4

/-- `PICOQUIC_TRANSPORT_FINAL_OFFSET_ERROR`. -/
def transportFinalOffsetError : ℕ := 0x6

/-- A frame that cannot be read. -/
def formatError (frameType : ℕ) : FrameError := .connection transportFrameFormatError frameType

/-- A frame that is not allowed. -/
def protocolViolation (frameType : ℕ) : FrameError :=
  .connection transportProtocolViolation frameType

/-! ### Fields -/

/-- `n` integers, one after the other. -/
def framesVarintsDecode : (n : ℕ) → List UInt8 → Option ((Fin n → ℕ) × List UInt8)
  | 0, bytes => some (Fin.elim0, bytes)
  | n + 1, bytes => do
    let (v, bytes) ← framesVarintDecode bytes
    let (vs, bytes) ← framesVarintsDecode n bytes
    some (Fin.cons v vs, bytes)

/-- As many bytes as asked for. -/
def framesFixedDecode (bytes : List UInt8) (size : ℕ) : Option (List UInt8 × List UInt8) :=
  (framesFixedSkip bytes size).map fun rest => (bytes.take size, rest)

/-- A length and as many bytes. -/
def framesLengthDataDecode (bytes : List UInt8) : Option (List UInt8 × List UInt8) := do
  let (length, bytes) ← framesVarintDecode bytes
  framesFixedDecode bytes length

/-- `picoquic_frames_uint64_decode`. -/
def framesUint64Decode (bytes : List UInt8) : Option (ℕ × List UInt8) :=
  if bytes.length < 8 then none else some (parse64 bytes, bytes.drop 8)

/-- The fields of a NEW_CONNECTION_ID frame. -/
structure NewConnectionId where
  sequence : ℕ
  retireBefore : ℕ
  cnxId : List UInt8
  resetSecret : List UInt8

/-- `picoquic_parse_new_connection_id_frame`, after the type. -/
def parseNewConnectionIdFrame (bytes : List UInt8) : Option (NewConnectionId × List UInt8) := do
  let (vs, bytes) ← framesVarintsDecode 2 bytes
  let (cidLength, bytes) ← framesUint8Decode bytes
  let (data, bytes) ← framesFixedDecode bytes (cidLength.toNat + resetSecretSize)
  some (⟨vs 0, vs 1, data.take cidLength.toNat, data.drop cidLength.toNat⟩, bytes)

/-- `picoquic_parse_crypto_hs_frame`, after the type. -/
def parseCryptoHsFrame (bytes : List UInt8) : Option ((ℕ × List UInt8) × List UInt8) := do
  let (offset, bytes) ← framesVarintDecode bytes
  let (data, bytes) ← framesLengthDataDecode bytes
  some ((offset, data), bytes)

/-- The fields of `picoquic_decode_connection_close_frame`: the error. -/
def parseConnectionCloseFrame (bytes : List UInt8) : Option (ℕ × List UInt8) := do
  let (error, bytes) ← framesVarintDecode bytes
  let bytes ← framesVarintSkip bytes
  let bytes ← framesLengthDataSkip bytes
  some (error, bytes)

/-- The fields of `picoquic_decode_application_close_frame`: the error. -/
def parseApplicationCloseFrame (bytes : List UInt8) : Option (ℕ × List UInt8) := do
  let (error, bytes) ← framesVarintDecode bytes
  let bytes ← framesLengthDataSkip bytes
  some (error, bytes)

/-- The fields of an ACK_FREQUENCY frame. -/
structure AckFrequency where
  seq : ℕ
  packets : ℕ
  microsec : ℕ
  ignoreOrder : UInt8

/-- `picoquic_parse_ack_frequency_frame`. -/
def parseAckFrequencyFrame (bytes : List UInt8) : Option (AckFrequency × List UInt8) := do
  let (vs, bytes) ← framesVarintsDecode 3 bytes
  let (ignoreOrder, bytes) ← framesUint8Decode bytes
  some (⟨vs 0, vs 1, vs 2, ignoreOrder⟩, bytes)

/-- The fields of a BDP frame. -/
structure BdpFields where
  lifetime : ℕ
  reconBytesInFlight : ℕ
  reconMinRtt : ℕ
  savedIp : List UInt8

/-- `picoquic_parse_bdp_frame`. An address has 4 or 16 bytes. -/
def parseBdpFrame (bytes : List UInt8) : Option (BdpFields × List UInt8) := do
  let (vs, bytes) ← framesVarintsDecode 3 bytes
  let (savedIpLength, bytes) ← framesVarintDecode bytes
  if savedIpLength ≠ 4 ∧ savedIpLength ≠ 16 then none
  else
    let (savedIp, bytes) ← framesFixedDecode bytes savedIpLength
    some (⟨vs 0, vs 1, vs 2, savedIp⟩, bytes)

/-! ### The connection -/

/-- The connection, with what the decoders use directly. The rest of it is `other`. -/
structure DecodeCnx (φ σ : Type) where
  ack : AckCnx φ
  clientMode : Bool
  /-- Where `cnx_state` stands to `picoquic_state_client_ready_start`. -/
  readyOrder : Ordering
  remoteError : ℕ
  remoteApplicationError : ℕ
  maxdataRemote : ℕ
  sentBlockedFrame : Bool
  maxStreamIdBidirRemote : ℕ
  maxStreamIdUnidirRemote : ℕ
  streamBlockedBidirSent : Bool
  streamBlockedUnidirSent : Bool
  localMaxDatagramFrameSize : ℕ
  localMinAckDelay : ℕ
  localEnableBdpFrame : Bool
  isAckFrequencyNegotiated : Bool
  ackFrequencySequenceRemote : ℕ
  ackGapRemote : ℕ
  ackDelayRemote : ℕ
  ackIgnoreOrderRemote : Bool
  maxAckGapRemote : ℕ
  maxAckDelayRemote : ℕ
  minAckDelayRemote : ℕ
  isTimeStampEnabled : Bool
  lastTimeStampReceived : ℕ
  isMultipathEnabled : Bool
  isSimpleMultipathEnabled : Bool
  sendReceiveBdpFrame : Bool
  /-- The errors signalled for frames that are read to their end. -/
  signalled : List FrameError
  other : σ

/-- What the decoders call. A call that refuses the frame returns the error. -/
structure FrameCalls (φ σ : Type) where
  /-- `picoquic_stream_network_input`: stream, offset, FIN and data. -/
  streamNetworkInput : DecodeCnx φ σ → ℕ → ℕ → Bool → List UInt8 →
    Except FrameError (DecodeCnx φ σ)
  /-- What an acknowledgement hands over to other parts of the connection. -/
  ackEffects : DecodeCnx φ σ → List (AckEffect φ) → DecodeCnx φ σ
  /-- `picoquic_decode_stream_reset_frame` for a stream, an error code and a final offset. -/
  streamReset : DecodeCnx φ σ → ℕ → ℕ → ℕ → Except FrameError (DecodeCnx φ σ)
  /-- `picoquic_decode_stop_sending_frame` for a stream and an error code. -/
  stopSending : DecodeCnx φ σ → ℕ → ℕ → Except FrameError (DecodeCnx φ σ)
  /-- `picoquic_decode_max_stream_data_frame` for a stream and its limit. -/
  maxStreamData : DecodeCnx φ σ → ℕ → ℕ → DecodeCnx φ σ
  /-- `picoquic_add_output_streams`: the limits before and after, and whether they are those of
  bidirectional streams. -/
  addOutputStreams : DecodeCnx φ σ → ℕ → ℕ → Bool → DecodeCnx φ σ
  /-- `picoquic_enqueue_cnxid_stash` and `picoquic_remove_not_before_cid`. -/
  stashCnxid : DecodeCnx φ σ → NewConnectionId → Except FrameError (DecodeCnx φ σ)
  /-- The checks of `picoquic_decode_retire_connection_id_frame` and
  `picoquic_retire_local_cnxid`. -/
  retireLocalCnxid : DecodeCnx φ σ → ℕ → Except FrameError (DecodeCnx φ σ)
  /-- The response to a challenge, if the addresses are those of the path. -/
  pathChallenge : DecodeCnx φ σ → ℕ → DecodeCnx φ σ
  /-- A response, compared with the challenges of the path. -/
  pathResponse : DecodeCnx φ σ → ℕ → DecodeCnx φ σ
  /-- `picoquic_queue_network_input` for the TLS stream of an epoch. -/
  queueNetworkInput : DecodeCnx φ σ → PacketEpoch → ℕ → List UInt8 →
    Except FrameError (DecodeCnx φ σ)
  /-- `picoquic_store_token`. -/
  storeToken : DecodeCnx φ σ → List UInt8 → DecodeCnx φ σ
  /-- `picoquic_ready_state_transition`. -/
  readyStateTransition : DecodeCnx φ σ → DecodeCnx φ σ
  /-- The state of a connection that the peer closes, and the callback. -/
  closed : DecodeCnx φ σ → DecodeCnx φ σ
  /-- The callback with a datagram. -/
  datagram : DecodeCnx φ σ → List UInt8 → Except FrameError (DecodeCnx φ σ)
  /-- `picoquic_find_path_by_id` and `picoquic_demote_path`. -/
  abandonPath : DecodeCnx φ σ → ℕ → ℕ → DecodeCnx φ σ
  /-- `picoquic_seed_ticket` for a client, `picoquic_seed_bandwidth` for a server. -/
  seedBdp : DecodeCnx φ σ → BdpFields → DecodeCnx φ σ

/-- The packet context of an epoch, `picoquic_context_from_epoch`. -/
def PacketEpoch.context : PacketEpoch → Fin 3
  | .initial => 2
  | .zeroRtt => 0
  | .handshake => 1
  | .oneRtt => 0

/-- Read the fields of a frame and use them. The frame is refused with `error` where they are not
complete. -/
def readFields {α β : Type} (error : FrameError) (fields : Option (α × List UInt8))
    (use : α → Except FrameError β) : Except FrameError (β × List UInt8) :=
  match fields with
  | none => .error error
  | some (a, rest) => (use a).map fun b => (b, rest)

namespace DecodeCnx

variable {φ σ : Type}

/-! ### Decoders -/

/-- `picoquic_decode_stream_frame`. -/
def decodeStreamFrame (calls : FrameCalls φ σ) (c : DecodeCnx φ σ) (bytes : List UInt8) :
    Except FrameError (DecodeCnx φ σ × List UInt8) :=
  match parseStreamHeader bytes with
  | none => .error .malformed
  | some header =>
    if 2 ^ 62 ≤ header.offset + header.dataLength then
      .error (.connection transportFinalOffsetError 0)
    else
      let bytes := bytes.drop header.consumed
      (calls.streamNetworkInput c header.streamId header.offset header.fin
        (bytes.take header.dataLength)).map fun c => (c, bytes.drop header.dataLength)

/-- `picoquic_decode_ack_frame`, for the whole connection. -/
def decodeAckFrameOf (calls : FrameCalls φ σ) (c : DecodeCnx φ σ) (bytes : List UInt8)
    (currentTime : ℕ) (epoch : PacketEpoch) (isEcn hasPathId : Bool) :
    Except FrameError (DecodeCnx φ σ × List UInt8) :=
  (decodeAckFrame c.ack bytes currentTime epoch.context isEcn hasPathId).map fun r =>
    (calls.ackEffects { c with ack := r.1 } r.2.2, r.2.1)

/-- `picoquic_decode_stream_reset_frame`. -/
def decodeStreamResetFrame (calls : FrameCalls φ σ) (c : DecodeCnx φ σ) (rest : List UInt8) :
    Except FrameError (DecodeCnx φ σ × List UInt8) :=
  readFields (formatError frameTypeResetStream) (framesVarintsDecode 3 rest) fun vs =>
    calls.streamReset c (vs 0) (vs 1) (vs 2)

/-- `picoquic_decode_connection_close_frame`. -/
def decodeConnectionCloseFrame (calls : FrameCalls φ σ) (c : DecodeCnx φ σ) (rest : List UInt8) :
    Except FrameError (DecodeCnx φ σ × List UInt8) :=
  readFields (formatError frameTypeConnectionClose) (parseConnectionCloseFrame rest) fun error =>
    .ok (calls.closed { c with remoteError := error })

/-- `picoquic_decode_application_close_frame`. -/
def decodeApplicationCloseFrame (calls : FrameCalls φ σ) (c : DecodeCnx φ σ)
    (rest : List UInt8) : Except FrameError (DecodeCnx φ σ × List UInt8) :=
  readFields (formatError frameTypeApplicationClose) (parseApplicationCloseFrame rest) fun error =>
    .ok (calls.closed { c with remoteApplicationError := error })

/-- `picoquic_decode_max_data_frame`. -/
def decodeMaxDataFrame (c : DecodeCnx φ σ) (rest : List UInt8) :
    Except FrameError (DecodeCnx φ σ × List UInt8) :=
  readFields (formatError frameTypeMaxData) (framesVarintDecode rest) fun maxdata =>
    .ok (if c.maxdataRemote < maxdata then
      { c with maxdataRemote := maxdata, sentBlockedFrame := false } else c)

/-- `picoquic_decode_max_stream_data_frame`. -/
def decodeMaxStreamDataFrame (calls : FrameCalls φ σ) (c : DecodeCnx φ σ) (rest : List UInt8) :
    Except FrameError (DecodeCnx φ σ × List UInt8) :=
  readFields (formatError frameTypeMaxStreamData) (framesVarintsDecode 2 rest) fun vs =>
    .ok (calls.maxStreamData c (vs 0) (vs 1))

/-- What `picoquic_decode_max_streams_frame` does with a limit. -/
def raiseMaxStreams (calls : FrameCalls φ σ) (c : DecodeCnx φ σ) (isBidir : Bool)
    (maxStreamId : ℕ) : DecodeCnx φ σ :=
  if isBidir then
    if c.maxStreamIdBidirRemote < maxStreamId then
      { calls.addOutputStreams c c.maxStreamIdBidirRemote maxStreamId true with
        maxStreamIdBidirRemote := maxStreamId
        streamBlockedBidirSent := false }
    else c
  else if c.maxStreamIdUnidirRemote < maxStreamId then
    { calls.addOutputStreams c c.maxStreamIdUnidirRemote maxStreamId false with
      maxStreamIdUnidirRemote := maxStreamId
      streamBlockedUnidirSent := false }
  else c

/-- `picoquic_decode_max_streams_frame`. -/
def decodeMaxStreamsFrame (calls : FrameCalls φ σ) (c : DecodeCnx φ σ) (rest : List UInt8)
    (maxStreamsFrameType : ℕ) : Except FrameError (DecodeCnx φ σ × List UInt8) :=
  readFields (formatError maxStreamsFrameType) (framesVarintDecode rest) fun maxStreamRank =>
    let isBidir := decide (maxStreamsFrameType = frameTypeMaxStreamsBidir)
    let maxStreamId := streamIdFromRank maxStreamRank c.clientMode (!isBidir)
    if 2 ^ 62 ≤ maxStreamId then
      .error (.connection transportStreamLimitError maxStreamsFrameType)
    else .ok (c.raiseMaxStreams calls isBidir maxStreamId)

/-- `picoquic_decode_blocked_frame` and `picoquic_decode_streams_blocked_frame`, which read nothing
but check that the field is there. -/
def decodeBlockedFrame (c : DecodeCnx φ σ) (rest : List UInt8) (frameType : ℕ) :
    Except FrameError (DecodeCnx φ σ × List UInt8) :=
  match framesVarintSkip rest with
  | none => .error (formatError frameType)
  | some bytes => .ok (c, bytes)

/-- `picoquic_decode_stream_blocked_frame`. -/
def decodeStreamBlockedFrame (c : DecodeCnx φ σ) (rest : List UInt8) :
    Except FrameError (DecodeCnx φ σ × List UInt8) :=
  match (framesVarintSkip rest).bind framesVarintSkip with
  | none => .error (formatError frameTypeStreamDataBlocked)
  | some bytes => .ok (c, bytes)

/-- `PICOQUIC_CONNECTION_ID_MAX_SIZE`. -/
def cnxIdMaxSize : ℕ := 20

/-- `picoquic_decode_new_connection_id_frame`. -/
def decodeNewConnectionIdFrame (calls : FrameCalls φ σ) (c : DecodeCnx φ σ)
    (rest : List UInt8) : Except FrameError (DecodeCnx φ σ × List UInt8) :=
  readFields (formatError frameTypeNewConnectionId) (parseNewConnectionIdFrame rest) fun cid =>
    if cnxIdMaxSize < cid.cnxId.length ∨ cid.sequence < cid.retireBefore then
      .error (protocolViolation frameTypeNewConnectionId)
    else calls.stashCnxid c cid

/-- `picoquic_decode_stop_sending_frame`. -/
def decodeStopSendingFrame (calls : FrameCalls φ σ) (c : DecodeCnx φ σ) (rest : List UInt8) :
    Except FrameError (DecodeCnx φ σ × List UInt8) :=
  readFields (formatError frameTypeStopSending) (framesVarintsDecode 2 rest) fun vs =>
    calls.stopSending c (vs 0) (vs 1)

/-- `picoquic_decode_path_challenge_frame`. The length is compared with the type still there. -/
def decodePathChallengeFrame (calls : FrameCalls φ σ) (c : DecodeCnx φ σ) (bytes : List UInt8) :
    Except FrameError (DecodeCnx φ σ × List UInt8) :=
  if bytes.length ≤ challengeLength then .error (formatError frameTypePathChallenge)
  else
    let bytes := bytes.drop 1
    .ok (calls.pathChallenge c (parse64 bytes), bytes.drop challengeLength)

/-- `picoquic_decode_path_response_frame`. -/
def decodePathResponseFrame (calls : FrameCalls φ σ) (c : DecodeCnx φ σ) (rest : List UInt8) :
    Except FrameError (DecodeCnx φ σ × List UInt8) :=
  readFields (formatError frameTypePathResponse) (framesUint64Decode rest) fun response =>
    .ok (calls.pathResponse c response)

/-- `picoquic_decode_crypto_hs_frame`. -/
def decodeCryptoHsFrame (calls : FrameCalls φ σ) (c : DecodeCnx φ σ) (rest : List UInt8)
    (epoch : PacketEpoch) : Except FrameError (DecodeCnx φ σ × List UInt8) :=
  readFields (formatError frameTypeCryptoHs) (parseCryptoHsFrame rest) fun f =>
    calls.queueNetworkInput c epoch f.1 f.2

/-- `picoquic_decode_new_token_frame`. -/
def decodeNewTokenFrame (calls : FrameCalls φ σ) (c : DecodeCnx φ σ) (rest : List UInt8) :
    Except FrameError (DecodeCnx φ σ × List UInt8) :=
  readFields (formatError frameTypeNewToken) (framesLengthDataDecode rest) fun token =>
    .ok (if c.clientMode then calls.storeToken c token else c)

/-- `picoquic_decode_retire_connection_id_frame`. -/
def decodeRetireConnectionIdFrame (calls : FrameCalls φ σ) (c : DecodeCnx φ σ)
    (rest : List UInt8) : Except FrameError (DecodeCnx φ σ × List UInt8) :=
  readFields (formatError frameTypeRetireConnectionId) (framesVarintDecode rest) fun sequence =>
    calls.retireLocalCnxid c sequence

/-- `picoquic_decode_handshake_done_frame`, which has no fields. -/
def decodeHandshakeDoneFrame (calls : FrameCalls φ σ) (c : DecodeCnx φ σ) (rest : List UInt8) :
    Except FrameError (DecodeCnx φ σ × List UInt8) :=
  if c.clientMode then
    match c.readyOrder with
    | .lt => .error (protocolViolation frameTypeHandshakeDone)
    | .eq => .ok (calls.readyStateTransition c, rest)
    | .gt => .ok (c, rest)
  else .error (protocolViolation frameTypeHandshakeDone)

/-- `picoquic_decode_datagram_frame`. Without a length the datagram ends with the packet. -/
def decodeDatagramFrame (calls : FrameCalls φ σ) (c : DecodeCnx φ σ) (frameId : UInt8)
    (rest : List UInt8) : Except FrameError (DecodeCnx φ σ × List UInt8) :=
  let data := if frameId &&& 1 = 0 then some (rest, []) else framesLengthDataDecode rest
  readFields (formatError frameId.toNat) data fun data =>
    if c.localMaxDatagramFrameSize < data.length then .error (formatError frameId.toNat)
    else calls.datagram c data

/-- The update of `picoquic_decode_ack_frequency_frame`, unless the frame is an old one. -/
def updateAckFrequency (c : DecodeCnx φ σ) (f : AckFrequency) : DecodeCnx φ σ :=
  if 0 < int64 (sub64 f.seq c.ackFrequencySequenceRemote) then
    { c with
      ackFrequencySequenceRemote := f.seq
      ackGapRemote := f.packets
      ackDelayRemote := f.microsec
      ackIgnoreOrderRemote := f.ignoreOrder != 0
      maxAckGapRemote := max c.maxAckGapRemote f.packets
      maxAckDelayRemote := max c.maxAckDelayRemote f.microsec
      minAckDelayRemote :=
        if c.maxAckDelayRemote < f.microsec then c.minAckDelayRemote
        else min c.minAckDelayRemote f.microsec }
  else c

/-- `picoquic_decode_ack_frequency_frame`, after the type. -/
def decodeAckFrequencyFrame (c : DecodeCnx φ σ) (bytes : List UInt8) :
    Except FrameError (DecodeCnx φ σ × List UInt8) :=
  readFields .malformed (parseAckFrequencyFrame bytes) fun f =>
    if !c.isAckFrequencyNegotiated ∨ f.microsec < c.localMinAckDelay ∨ f.packets = 0 ∨
        1 < f.ignoreOrder then
      .error (formatError frameTypeAckFrequency)
    else .ok (c.updateAckFrequency f)

/-- `picoquic_decode_time_stamp_frame`, after the type. -/
def decodeTimeStampFrame (c : DecodeCnx φ σ) (bytes : List UInt8) :
    Except FrameError (DecodeCnx φ σ × List UInt8) :=
  readFields .malformed (framesVarintDecode bytes) fun timeStamp =>
    if c.isTimeStampEnabled then
      let timeStamp := u64 (timeStamp <<< c.ack.ackDelayExponent)
      .ok { c with lastTimeStampReceived := max c.lastTimeStampReceived timeStamp }
    else .error (protocolViolation frameTypeTimeStamp)

/-- `picoquic_decode_path_abandon_frame`, after the type. Where multipath is not negotiated the
error is signalled, and the bytes that follow are returned. -/
def decodePathAbandonFrame (calls : FrameCalls φ σ) (c : DecodeCnx φ σ) (bytes : List UInt8) :
    Except FrameError (DecodeCnx φ σ × List UInt8) :=
  match parsePathAbandonFrame bytes with
  | none => .error .malformed
  | some (pathIdType, pathIdValue, _, rest) =>
    if !c.isMultipathEnabled && !c.isSimpleMultipathEnabled then
      .ok ({ c with signalled := c.signalled ++ [formatError frameTypePathAbandon] }, rest)
    else .ok (calls.abandonPath c pathIdType pathIdValue, rest)

/-- `picoquic_decode_bdp_frame`, after the type. -/
def decodeBdpFrame (calls : FrameCalls φ σ) (c : DecodeCnx φ σ) (bytes : List UInt8) :
    Except FrameError (DecodeCnx φ σ × List UInt8) :=
  readFields (formatError frameTypeBdp) (parseBdpFrame bytes) fun f =>
    .ok (if c.sendReceiveBdpFrame then calls.seedBdp c f else c)

/-! ### The loop -/

/-- What `picoquic_decode_frames` checks before it decodes a BDP frame. -/
def bdpFrameError (c : DecodeCnx φ σ) (epoch : PacketEpoch) (firstByte : ℕ) : Option FrameError :=
  if c.clientMode then
    if epoch ≠ .oneRtt then some (protocolViolation firstByte)
    else if c.localEnableBdpFrame then none
    else some (protocolViolation 0)
  else if epoch ≠ .zeroRtt ∧ epoch ≠ .oneRtt then some (protocolViolation firstByte)
  else none

/-- The frames of `picoquic_decode_frames` whose type is longer than a byte, or is not a byte of
its own. -/
def decodeExtendedFrame (calls : FrameCalls φ σ) (c : DecodeCnx φ σ) (epoch : PacketEpoch)
    (currentTime : ℕ) (bytes0 : List UInt8) : Except FrameError (DecodeCnx φ σ × List UInt8) :=
  let firstByte := (bytes0.headD 0).toNat
  match framesVarintDecode bytes0 with
  | none => .error .malformed
  | some (frameId, bytes) =>
    match frameId with
    | frameTypeAckFrequency => c.decodeAckFrequencyFrame bytes
    | frameTypeTimeStamp => c.decodeTimeStampFrame bytes
    | frameTypeAckMp =>
      if epoch = .zeroRtt then .error (protocolViolation firstByte)
      else c.decodeAckFrameOf calls bytes0 currentTime epoch false true
    | frameTypeAckMpEcn =>
      if epoch = .zeroRtt then .error (protocolViolation firstByte)
      else c.decodeAckFrameOf calls bytes0 currentTime epoch true true
    | frameTypePathAbandon => c.decodePathAbandonFrame calls bytes
    | frameTypeBdp =>
      match c.bdpFrameError epoch firstByte with
      | some e => .error e
      | none => c.decodeBdpFrame calls bytes
    | _ => .error (formatError frameId)

/-- The frames that `picoquic_decode_frames` takes outside 0-RTT and 1-RTT packets, besides those
with acknowledgements. -/
def handshakeFrameTypes : List ℕ :=
  [frameTypePadding, frameTypePing, frameTypeConnectionClose, frameTypeCryptoHs]

/-- The frames that `picoquic_decode_frames` refuses in 0-RTT packets, besides those with
acknowledgements. -/
def notInZeroRttFrameTypes : List ℕ :=
  [frameTypeCryptoHs, frameTypeHandshakeDone, frameTypeNewToken, frameTypePathResponse,
    frameTypeRetireConnectionId]

/-- The switch of `picoquic_decode_frames` over the first byte. -/
def decodeByType (calls : FrameCalls φ σ) (c : DecodeCnx φ σ) (epoch : PacketEpoch)
    (currentTime : ℕ) (first : UInt8) (rest : List UInt8) :
    Except FrameError (DecodeCnx φ σ × List UInt8) :=
  match first.toNat with
  | frameTypePadding => .ok (c, skip0LenFrame first rest)
  | frameTypeResetStream => c.decodeStreamResetFrame calls rest
  | frameTypeConnectionClose => c.decodeConnectionCloseFrame calls rest
  | frameTypeApplicationClose => c.decodeApplicationCloseFrame calls rest
  | frameTypeMaxData => c.decodeMaxDataFrame rest
  | frameTypeMaxStreamData => c.decodeMaxStreamDataFrame calls rest
  | frameTypeMaxStreamsBidir => c.decodeMaxStreamsFrame calls rest frameTypeMaxStreamsBidir
  | frameTypeMaxStreamsUnidir => c.decodeMaxStreamsFrame calls rest frameTypeMaxStreamsUnidir
  | frameTypePing => .ok (c, skip0LenFrame first rest)
  | frameTypeDataBlocked => c.decodeBlockedFrame rest frameTypeDataBlocked
  | frameTypeStreamDataBlocked => c.decodeStreamBlockedFrame rest
  | frameTypeStreamsBlockedUnidir => c.decodeBlockedFrame rest frameTypeStreamsBlockedUnidir
  | frameTypeStreamsBlockedBidir => c.decodeBlockedFrame rest frameTypeStreamsBlockedBidir
  | frameTypeNewConnectionId => c.decodeNewConnectionIdFrame calls rest
  | frameTypeStopSending => c.decodeStopSendingFrame calls rest
  | frameTypePathChallenge => c.decodePathChallengeFrame calls (first :: rest)
  | frameTypePathResponse => c.decodePathResponseFrame calls rest
  | frameTypeCryptoHs => c.decodeCryptoHsFrame calls rest epoch
  | frameTypeNewToken => c.decodeNewTokenFrame calls rest
  | frameTypeRetireConnectionId => c.decodeRetireConnectionIdFrame calls rest
  | frameTypeHandshakeDone => c.decodeHandshakeDoneFrame calls rest
  | frameTypeDatagram => c.decodeDatagramFrame calls first rest
  | frameTypeDatagramL => c.decodeDatagramFrame calls first rest
  | _ => c.decodeExtendedFrame calls epoch currentTime (first :: rest)

/-- One round of the loop of `picoquic_decode_frames`: the connection, and the bytes that follow
the frame. The loop ends where there are no bytes. The flags of the loop, which only matter after
the last frame, are left out. -/
def decodeFrame (calls : FrameCalls φ σ) (epoch : PacketEpoch) (currentTime : ℕ)
    (c : DecodeCnx φ σ) : List UInt8 → Except FrameError (DecodeCnx φ σ × List UInt8)
  | [] => .error .malformed
  | first :: rest =>
    let firstByte := first.toNat
    let isData := decide (epoch = .zeroRtt) || decide (epoch = .oneRtt)
    if frameTypeStreamRangeMin ≤ firstByte ∧ firstByte ≤ frameTypeStreamRangeMax then
      if isData then c.decodeStreamFrame calls (first :: rest)
      else .error (protocolViolation firstByte)
    else if firstByte = frameTypeAck then
      if epoch = .zeroRtt then .error (protocolViolation firstByte)
      else c.decodeAckFrameOf calls (first :: rest) currentTime epoch false false
    else if firstByte = frameTypeAckEcn then
      if epoch = .zeroRtt then .error (protocolViolation firstByte)
      else c.decodeAckFrameOf calls (first :: rest) currentTime epoch true false
    else if !isData && decide (firstByte ∉ handshakeFrameTypes) then
      .error (protocolViolation firstByte)
    else if epoch = .zeroRtt ∧ firstByte ∈ notInZeroRttFrameTypes then
      .error (protocolViolation firstByte)
    else c.decodeByType calls epoch currentTime first rest

end DecodeCnx

end Picoquic
