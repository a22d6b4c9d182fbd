import Mathlib.Data.Vector.Defs
import Picoquic.Congestion.Common
import Picoquic.Wire.Skip

/-!
# Writing control frames

Each formatter writes a frame at the current position of a packet, if it fits into what is left.
Positions are relative to the one the formatter starts from, so the bytes written tell the new
position, and `space` is what is left of the packet.

* **`Formatted`** — what a formatter returns, with the connection as it leaves it;
* **`attempt`** — the common end of the formatters: a frame that does not fit takes the position
  back and asks for another packet;
* **`ControlRequest.format`** — all of them.
-/

namespace Picoquic

/-! ### Data -/

/-- `picoquic_local_cnxid_t`. -/
structure LocalCnxid where
  sequence : ℕ
  cnxId : List UInt8
  createTime : ℕ
  /-- `PICOQUIC_CONNECTION_ID_MAX_SIZE`. -/
  length_le : cnxId.length ≤ 20

/-- The fields of a stream that decide about its MAX_STREAM_DATA frames. -/
structure StreamWindow where
  streamId : ℕ
  consumedOffset : ℕ
  maxdataLocal : ℕ
  finReceived : Bool
  resetReceived : Bool

/-- What a ticket remembers of the last connection. -/
structure BdpTicket where
  cwin : ℕ
  rtt : ℕ
  ipAddr : List UInt8

/-- `picoquic_frames_uint8_encode`. -/
def framesUint8Encode (out : List UInt8) (space n : ℕ) : Option (List UInt8) :=
  appendWithin space out [UInt8.ofNat n]

/-- The eight bytes that `picoquic_frames_uint64_encode` writes. -/
def uint64Bytes (n : ℕ) : List UInt8 :=
  [UInt8.ofNat (n >>> 56), UInt8.ofNat (n >>> 48), UInt8.ofNat (n >>> 40), UInt8.ofNat (n >>> 32),
    UInt8.ofNat (n >>> 24), UInt8.ofNat (n >>> 16), UInt8.ofNat (n >>> 8), UInt8.ofNat n]

/-- `picoquic_frames_uint64_encode`. -/
def framesUint64Encode (out : List UInt8) (space n : ℕ) : Option (List UInt8) :=
  appendWithin space out (uint64Bytes n)

/-- `picoquic_frames_length_data_encode`, and `picoquic_frames_cid_encode`. -/
def framesLengthDataEncode (out : List UInt8) (space : ℕ) (v : List UInt8) :
    Option (List UInt8) :=
  (framesVarintEncode out space v.length).bind fun out => appendWithin space out v

/-- `picoquic_frames_charz_encode`. -/
def framesCharzEncode (out : List UInt8) (space : ℕ) (s : Option (List UInt8)) :
    Option (List UInt8) :=
  s.elim (framesVarintEncode out space 0) (framesLengthDataEncode out space)

/-- What is left of a buffer. A packet has at most `maxPacketSize` bytes. -/
abbrev Space : Type := Fin (2 ^ 62)

/-- The bytes of a datagram frame, if they fit. -/
def datagramFrame (space : ℕ) (src : List UInt8) : Option (List UInt8) := do
  let out ← framesUint8Encode [] space frameTypeDatagramL
  let out ← framesVarintEncode out space src.length
  appendWithin space out src

/-- A frame in the queue of datagrams, where `picoquic_queue_datagram_frame` puts its frames and
`picoquic_queue_handshake_done_frame` puts a HANDSHAKE_DONE frame. -/
structure QueuedDatagram where
  bytes : List UInt8
  isFrame : bytes = [UInt8.ofNat frameTypeHandshakeDone] ∨
    ∃ src, datagramFrame maxPacketSize src = some bytes

/-- `picoquic_cnx_t`, the part that the control frames are about. -/
structure ControlCnx where
  localCnxidRetireBefore : ℕ
  maxdataLocal : ℕ
  maxMaxStreamDataLocal : ℕ
  streams : List StreamWindow
  maxStreamDataNeeded : Bool
  rttMin : ℕ
  maxStreamIdBidirLocal : ℕ
  maxStreamIdBidirLocalComputed : ℕ
  initialMaxStreamIdBidir : ℕ
  maxStreamIdUnidirLocal : ℕ
  maxStreamIdUnidirLocalComputed : ℕ
  initialMaxStreamIdUnidir : ℕ
  ackFrequencySequenceLocal : ℕ
  ackGapLocal : ℕ
  ackFrequencyDelayLocal : ℕ
  maxAckGapLocal : ℕ
  minAckDelayLocal : ℕ
  maxAckDelayLocal : ℕ
  ackIgnoreOrderLocal : Bool
  isAckFrequencyUpdated : Bool
  ackFormat : AckFormatParameters
  maxDatagramFrameSize : ℕ
  datagrams : List QueuedDatagram
  clientMode : Bool
  isTicketSeeded : Bool
  isBdpSent : Bool
  /-- The ticket that a server issued for this connection. -/
  issuedTicket : Option BdpTicket
  /-- The ticket that a client has stored for the server. -/
  storedTicket : Option BdpTicket

/-- `more_data` and `is_pure_ack`, which the formatters of a packet share. -/
structure PacketFlags where
  moreData : Bool
  isPureAck : Bool

/-- What a formatter returns. -/
structure Formatted where
  /-- The bytes up to the new position, or nothing where it is `NULL`. -/
  bytes : Option (List UInt8)
  flags : PacketFlags
  cnx : ControlCnx

/-- The end of a formatter that has written `out` before. A frame that is complete counts as sent,
and makes the packet more than an acknowledgement if `needsAck`. -/
def attempt (c : ControlCnx) (flags : PacketFlags) (out : List UInt8)
    (frame : Option (List UInt8)) (sent : ControlCnx) (needsAck : Bool) : Formatted :=
  match frame with
  | some bytes => ⟨some bytes, { flags with isPureAck := flags.isPureAck && !needsAck }, sent⟩
  | none => ⟨some out, { flags with moreData := true }, c⟩

variable (c : ControlCnx) (space : Space) (flags : PacketFlags)

/-! ### Paths and connection identifiers -/

/-- The frame of a path challenge or response. -/
def challengeFrame (space frameType challenge : ℕ) : Option (List UInt8) :=
  (framesUint8Encode [] space frameType).bind fun out => framesUint64Encode out space challenge

/-- `picoquic_format_path_challenge_frame`. The position it goes back to is `NULL`. -/
def formatPathChallengeFrame (challenge : ℕ) : Formatted :=
  match challengeFrame space frameTypePathChallenge challenge with
  | some bytes => ⟨some bytes, { flags with isPureAck := false }, c⟩
  | none => ⟨none, { flags with moreData := true }, c⟩

/-- `picoquic_format_path_response_frame`. The position it goes back to is `NULL`. -/
def formatPathResponseFrame (challenge : ℕ) : Formatted :=
  match challengeFrame space frameTypePathResponse challenge with
  | some bytes => ⟨some bytes, { flags with isPureAck := false }, c⟩
  | none => ⟨none, { flags with moreData := true }, c⟩

/-- The bytes of a NEW_CONNECTION_ID frame. -/
def newConnectionIdFrame (space retireBefore : ℕ) (resetSecret : List UInt8) (cid : LocalCnxid) :
    Option (List UInt8) := do
  let out ← framesUint8Encode [] space frameTypeNewConnectionId
  let out ← framesVarintEncode out space cid.sequence
  let out ← framesVarintEncode out space retireBefore
  let out ← framesLengthDataEncode out space cid.cnxId
  appendWithin space out resetSecret

/-- `picoquic_format_new_connection_id_frame`. `createResetSecret` is
`picoquic_create_cnxid_reset_secret`. -/
def formatNewConnectionIdFrame (createResetSecret : List UInt8 → List.Vector UInt8 resetSecretSize)
    (cid : Option LocalCnxid) : Formatted :=
  match cid with
  | none => ⟨some [], flags, c⟩
  | some cid =>
    if cid.sequence ≠ 0 ∧ 0 < cid.cnxId.length then
      attempt c flags []
        (newConnectionIdFrame space c.localCnxidRetireBefore
          (createResetSecret cid.cnxId).toList cid) c true
    else ⟨some [], flags, c⟩

/-- `picoquic_format_retire_connection_id_frame`. -/
def formatRetireConnectionIdFrame (sequence : ℕ) : Formatted :=
  attempt c flags []
    ((framesUint8Encode [] space frameTypeRetireConnectionId).bind fun out =>
      framesVarintEncode out space sequence) c true

/-- `picoquic_encode_path_identifier`. -/
def encodePathIdentifier (out : List UInt8) (space pathIdType pathIdValue : ℕ) :
    Option (List UInt8) := do
  let out ← framesVarintEncode out space pathIdType
  match pathIdType with
  | 0 | 1 => framesVarintEncode out space pathIdValue
  | 2 => some out
  | _ => none

/-- The bytes of a PATH_ABANDON frame. -/
def pathAbandonFrame (space pathIdType pathIdValue reason : ℕ) (phrase : Option (List UInt8)) :
    Option (List UInt8) := do
  let out ← framesVarintEncode [] space frameTypePathAbandon
  let out ← encodePathIdentifier out space pathIdType pathIdValue
  let out ← framesVarintEncode out space reason
  framesCharzEncode out space phrase

/-- `picoquic_format_path_abandon_frame`. -/
def formatPathAbandonFrame (pathIdType pathIdValue reason : ℕ) (phrase : Option (List UInt8)) :
    Formatted :=
  attempt c flags [] (pathAbandonFrame space pathIdType pathIdValue reason phrase) c false

/-- `picoquic_format_new_token_frame`. -/
def formatNewTokenFrame (token : List UInt8) : Formatted :=
  attempt c flags []
    ((framesUint8Encode [] space frameTypeNewToken).bind fun out =>
      framesLengthDataEncode out space token) c true

/-! ### Limits -/

/-- The bytes of a frame with a one byte type and one integer. -/
def limitFrame (out : List UInt8) (space frameType limit : ℕ) : Option (List UInt8) :=
  (framesUint8Encode out space frameType).bind fun out => framesVarintEncode out space limit

/-- `picoquic_format_max_data_frame`. -/
def ControlCnx.formatMaxDataFrame (maxdataIncrease : ℕ) : Formatted :=
  let maxdata := u64 (c.maxdataLocal + maxdataIncrease)
  attempt c flags [] (limitFrame [] space frameTypeMaxData maxdata)
    { c with maxdataLocal := maxdata } true

/-- The bytes of a MAX_STREAM_DATA frame. -/
def maxStreamDataFrame (out : List UInt8) (space streamId newMaxData : ℕ) :
    Option (List UInt8) := do
  let out ← framesUint8Encode out space frameTypeMaxStreamData
  let out ← framesVarintEncode out space streamId
  framesVarintEncode out space newMaxData

/-- What a MAX_STREAM_DATA frame changes when it is sent. -/
def ControlCnx.sentMaxStreamData (c : ControlCnx) (streamId newMaxData : ℕ) : ControlCnx :=
  { c with
    streams := c.streams.map fun s =>
      if s.streamId = streamId then { s with maxdataLocal := newMaxData } else s
    maxMaxStreamDataLocal := max c.maxMaxStreamDataLocal newMaxData }

/-- `picoquic_format_max_stream_data_frame`, after `out`. -/
def formatMaxStreamDataFrame (out : List UInt8) (streamId newMaxData : ℕ) : Formatted :=
  attempt c flags out (maxStreamDataFrame out space streamId newMaxData)
    (c.sentMaxStreamData streamId newMaxData) true

/-- The limit that a stream needs, if it needs a new one. -/
def StreamWindow.required (rttMin : ℕ) (s : StreamWindow) : Option ℕ :=
  if !s.finReceived && !s.resetReceived && decide (s.maxdataLocal < u64 (2 * s.consumedOffset)) then
    some (u64 (s.maxdataLocal + increasedWindow rttMin s.maxdataLocal))
  else none

/-- The loop of `picoquic_format_required_max_stream_data_frames` over the streams: what was
formatted, and whether all streams were considered. -/
def formatRequiredFrames (rttMin : ℕ) :
    List StreamWindow → List UInt8 → Formatted → Formatted × Bool
  | [], _, r => (r, true)
  | s :: rest, out, r =>
    match s.required rttMin with
    | none => formatRequiredFrames rttMin rest out r
    | some newMaxData =>
      match maxStreamDataFrame out space s.streamId newMaxData with
      | none => (formatMaxStreamDataFrame r.cnx space r.flags out s.streamId newMaxData, false)
      | some bytes =>
        formatRequiredFrames rttMin rest bytes
          (formatMaxStreamDataFrame r.cnx space r.flags out s.streamId newMaxData)

/-- `picoquic_format_required_max_stream_data_frames`. -/
def formatRequiredMaxStreamDataFrames : Formatted :=
  let (r, done) := formatRequiredFrames space c.rttMin c.streams [] ⟨some [], flags, c⟩
  if done then { r with cnx := { r.cnx with maxStreamDataNeeded := false } } else r

/-- `STREAM_RANK_FROM_ID`. -/
def streamRankFromId (id : ℕ) : ℕ := u64 (id + 4) >>> 2

theorem streamRankFromId_eq {id : ℕ} (hid : id + 4 < 2 ^ 64) :
    streamRankFromId id = id / 4 + 1 := by
  rw [streamRankFromId, u64_of_lt hid, Nat.shiftRight_eq_div_pow]
  omega

/-- More two-way streams should be allowed. -/
def ControlCnx.needsBidir (c : ControlCnx) : Prop :=
  c.maxStreamIdBidirLocal < u64 (c.maxStreamIdBidirLocalComputed + c.initialMaxStreamIdBidir >>> 1)

/-- More one-way streams should be allowed. -/
def ControlCnx.needsUnidir (c : ControlCnx) : Prop :=
  c.maxStreamIdUnidirLocal <
    u64 (c.maxStreamIdUnidirLocalComputed + c.initialMaxStreamIdUnidir >>> 1)

instance : Decidable c.needsBidir := inferInstanceAs (Decidable (_ < _))

instance : Decidable c.needsUnidir := inferInstanceAs (Decidable (_ < _))

/-- The first half of `picoquic_format_max_streams_frame_if_needed`. -/
def formatMaxStreamsBidir : Formatted :=
  if c.needsBidir then
    let newBidirLocal :=
      u64 (c.maxStreamIdBidirLocal + 4 * streamRankFromId c.initialMaxStreamIdBidir + 4)
    attempt c flags []
      (limitFrame [] space frameTypeMaxStreamsBidir (streamRankFromId newBidirLocal))
      { c with maxStreamIdBidirLocal := newBidirLocal } true
  else ⟨some [], flags, c⟩

/-- The second half, after `out`. -/
def formatMaxStreamsUnidir (out : List UInt8) : Formatted :=
  if c.needsUnidir then
    let newUnidirLocal := u64 (c.maxStreamIdUnidirLocal + c.initialMaxStreamIdUnidir + 4)
    attempt c flags out
      (limitFrame out space frameTypeMaxStreamsUnidir (streamRankFromId newUnidirLocal))
      { c with maxStreamIdUnidirLocal := newUnidirLocal } true
  else ⟨some out, flags, c⟩

/-- `picoquic_format_max_streams_frame_if_needed`. -/
def formatMaxStreamsFrameIfNeeded : Formatted :=
  let r := formatMaxStreamsBidir c space flags
  formatMaxStreamsUnidir r.cnx space r.flags (r.bytes.getD [])

/-! ### Acknowledgements and time -/

/-- The bytes of an ACK_FREQUENCY frame. -/
def ackFrequencyFrame (space seq ackGap ackDelayMax : ℕ) (ackIgnoreOrder : Bool) :
    Option (List UInt8) := do
  let out ← framesVarintEncode [] space frameTypeAckFrequency
  let out ← framesVarintEncode out space seq
  let out ← framesVarintEncode out space ackGap
  let out ← framesVarintEncode out space ackDelayMax
  framesUint8Encode out space ackIgnoreOrder.toNat

/-- What an ACK_FREQUENCY frame changes when it is sent. -/
def ControlCnx.sentAckFrequency (c : ControlCnx) (seq ackGap ackDelayMax : ℕ) : ControlCnx :=
  { c with
    ackFrequencySequenceLocal := seq
    ackGapLocal := ackGap
    ackFrequencyDelayLocal := ackDelayMax
    isAckFrequencyUpdated := false
    maxAckGapLocal := max c.maxAckGapLocal ackGap
    minAckDelayLocal := min c.minAckDelayLocal ackDelayMax
    maxAckDelayLocal := max c.maxAckDelayLocal ackDelayMax }

/-- `picoquic_format_ack_frequency_frame`, for the gap and the delay that
`picoquic_compute_ack_gap_and_delay` finds. -/
def formatAckFrequencyFrame (ackGap ackDelayMax : ℕ) : Formatted :=
  if ackGap ≤ c.ackGapLocal ∧ ackDelayMax = c.ackFrequencyDelayLocal then
    ⟨some [], flags, { c with isAckFrequencyUpdated := false }⟩
  else
    let seq := u64 (c.ackFrequencySequenceLocal + 1)
    let ackGap := max ackGap c.ackGapLocal
    attempt c flags [] (ackFrequencyFrame space seq ackGap ackDelayMax c.ackIgnoreOrderLocal)
      (c.sentAckFrequency seq ackGap ackDelayMax) false

/-- `picoquic_format_time_stamp_frame`. -/
def ControlCnx.formatTimeStampFrame (currentTime : ℕ) : Formatted :=
  let (bytes, more) := Picoquic.formatTimeStampFrame c.ackFormat space currentTime
  ⟨some bytes, { flags with moreData := flags.moreData || more }, c⟩

/-! ### Datagrams -/

/-- `picoquic_format_datagram_frame`. -/
def formatDatagramFrame (src : List UInt8) : Formatted :=
  attempt c flags [] (datagramFrame space src) c true

/-- `picoquic_format_first_datagram_frame`, when the queue is not empty. -/
def formatFirstDatagramFrame : Formatted :=
  match c.datagrams with
  | [] => ⟨some [], flags, c⟩
  | first :: rest =>
    attempt c flags [] (appendWithin space [] first.bytes) { c with datagrams := rest } true

/-- What the application does when it is asked for a datagram. -/
inductive DatagramAnswer
  /-- It has none. -/
  | nothing
  /-- It calls `picoquic_provide_datagram_buffer`, and fills the buffer. -/
  | provide (data : List UInt8)
  /-- It returns an error, which ends the connection. -/
  | fail

/-- `picoquic_provide_datagram_buffer`: the frame, if the length is allowed. Without room for a
length the frame ends with the packet, and padding goes before it. -/
def provideDatagramBuffer (space allowedSpace : ℕ) (data : List UInt8) : List UInt8 :=
  if data.length ≤ allowedSpace then
    match (framesVarintEncode [UInt8.ofNat frameTypeDatagramL] space data.length).bind fun out =>
        appendWithin space out data with
    | some bytes => bytes
    | none =>
      List.replicate (space - (1 + data.length)) (UInt8.ofNat frameTypePadding) ++
        UInt8.ofNat frameTypeDatagram :: data
  else []

/-- The space that is offered to the application. -/
def ControlCnx.allowedSpace (c : ControlCnx) (space : ℕ) : ℕ :=
  min (space - 1) c.maxDatagramFrameSize

/-- `picoquic_format_ready_datagram_frame`. -/
def formatReadyDatagramFrame (answer : DatagramAnswer) : Formatted :=
  if (space : ℕ) < 17 then ⟨some [], { flags with moreData := true }, c⟩
  else
    match answer with
    | .nothing | .fail => ⟨some [], flags, c⟩
    | .provide data => ⟨some (provideDatagramBuffer space (c.allowedSpace space) data), flags, c⟩

/-! ### Bandwidth and delay -/

/-- What `picoquic_format_bdp_frame` reports: nothing when the bytes in flight are zero. -/
def ControlCnx.bdpTicket (c : ControlCnx) : BdpTicket :=
  if c.clientMode then c.storedTicket.getD ⟨0, 0, []⟩
  else
    match c.issuedTicket with
    | some ticket =>
      if c.isTicketSeeded && !c.isBdpSent && decide (0 < ticket.cwin) then ticket else ⟨0, 0, []⟩
    | none => ⟨0, 0, []⟩

/-- The bytes of a BDP frame. The lifetime is a day, in microseconds. -/
def bdpFrame (space : ℕ) (ticket : BdpTicket) : Option (List UInt8) := do
  let out ← framesVarintEncode [] space frameTypeBdp
  let out ← framesVarintEncode out space (24 * 3600 * 1000000)
  let out ← framesVarintEncode out space ticket.cwin
  let out ← framesVarintEncode out space ticket.rtt
  framesLengthDataEncode out space ticket.ipAddr

/-- `picoquic_format_bdp_frame`. It does not ask for another packet. -/
def formatBdpFrame : Formatted :=
  if c.bdpTicket.cwin = 0 then ⟨some [], flags, c⟩
  else
    match bdpFrame space c.bdpTicket with
    | some bytes => ⟨some bytes, { flags with isPureAck := false }, { c with isBdpSent := true }⟩
    | none => ⟨some [], flags, c⟩

/-! ### All formatters -/

/-- A control frame that is to be written. -/
inductive ControlRequest
  | pathChallenge (challenge : ℕ)
  | pathResponse (challenge : ℕ)
  | newConnectionId (cid : Option LocalCnxid)
  | retireConnectionId (sequence : ℕ)
  | newToken (token : List UInt8)
  | maxData (maxdataIncrease : ℕ)
  | maxStreamData (streamId newMaxData : ℕ)
  | requiredMaxStreamData
  | maxStreams
  | ackFrequency (ackGap ackDelayMax : ℕ)
  | timeStamp (currentTime : ℕ)
  | pathAbandon (pathIdType pathIdValue reason : ℕ) (phrase : Option (List UInt8))
  | datagram (src : List UInt8)
  | firstDatagram
  | readyDatagram (answer : DatagramAnswer)
  | bdp

/-- The formatter of a request. -/
def ControlRequest.format (createResetSecret : List UInt8 → List.Vector UInt8 resetSecretSize) :
    ControlRequest → Formatted
  | .pathChallenge challenge => formatPathChallengeFrame c space flags challenge
  | .pathResponse challenge => formatPathResponseFrame c space flags challenge
  | .newConnectionId cid => formatNewConnectionIdFrame c space flags createResetSecret cid
  | .retireConnectionId sequence => formatRetireConnectionIdFrame c space flags sequence
  | .newToken token => formatNewTokenFrame c space flags token
  | .maxData maxdataIncrease => c.formatMaxDataFrame space flags maxdataIncrease
  | .maxStreamData streamId newMaxData =>
    formatMaxStreamDataFrame c space flags [] streamId newMaxData
  | .requiredMaxStreamData => formatRequiredMaxStreamDataFrames c space flags
  | .maxStreams => formatMaxStreamsFrameIfNeeded c space flags
  | .ackFrequency ackGap ackDelayMax => formatAckFrequencyFrame c space flags ackGap ackDelayMax
  | .timeStamp currentTime => c.formatTimeStampFrame space flags currentTime
  | .pathAbandon pathIdType pathIdValue reason phrase =>
    formatPathAbandonFrame c space flags pathIdType pathIdValue reason phrase
  | .datagram src => formatDatagramFrame c space flags src
  | .firstDatagram => formatFirstDatagramFrame c space flags
  | .readyDatagram answer => formatReadyDatagramFrame c space flags answer
  | .bdp => formatBdpFrame c space flags

end Picoquic
