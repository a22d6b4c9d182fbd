import Picoquic.Packet.Number
import Picoquic.Wire.Control

/-!
# Transport parameters: writing

During the handshake each side tells the other its transport parameters, in an extension of the
TLS messages: a sequence of parameters, each with a type, a length and a value.

* **`Tp`** — the parameters of one side;
* **`TpParam`** — one parameter on the wire, and `TpParam.encode` for the functions that write it;
* **`TpCnx.transportParams`** — which parameters are written, in their order;
* **`TpCnx.prepareTransportExtensions`** — the whole extension.

The server that was offered datagrams by the client announces them as well, so the local
parameters may change while they are written.
-/

namespace Picoquic

/-! ### Types -/

/-- `picoquic_tp_original_connection_id`. -/
@[match_pattern] def tpOriginalConnectionId : ℕ := 0

/-- `picoquic_tp_idle_timeout`. -/
@[match_pattern] def tpIdleTimeout : ℕ := 1

/-- `picoquic_tp_stateless_reset_token`. -/
@[match_pattern] def tpStatelessResetToken : ℕ := 2

/-- `picoquic_tp_max_packet_size`. -/
@[match_pattern] def tpMaxPacketSize : ℕ := 3

/-- `picoquic_tp_initial_max_data`. -/
@[match_pattern] def tpInitialMaxData : ℕ := 4

/-- `picoquic_tp_initial_max_stream_data_bidi_local`. -/
@[match_pattern] def tpInitialMaxStreamDataBidiLocal : ℕ := 5

/-- `picoquic_tp_initial_max_stream_data_bidi_remote`. -/
@[match_pattern] def tpInitialMaxStreamDataBidiRemote : ℕ := 6

/-- `picoquic_tp_initial_max_stream_data_uni`. -/
@[match_pattern] def tpInitialMaxStreamDataUni : ℕ := 7

/-- `picoquic_tp_initial_max_streams_bidi`. -/
@[match_pattern] def tpInitialMaxStreamsBidi : ℕ := 8

/-- `picoquic_tp_initial_max_streams_uni`. -/
@[match_pattern] def tpInitialMaxStreamsUni : ℕ := 9

/-- `picoquic_tp_ack_delay_exponent`. -/
@[match_pattern] def tpAckDelayExponent : ℕ := 10

/-- `picoquic_tp_max_ack_delay`. -/
@[match_pattern] def tpMaxAckDelay : ℕ := 11

/-- `picoquic_tp_disable_migration`. -/
@[match_pattern] def tpDisableMigration : ℕ := 12

/-- `picoquic_tp_server_preferred_address`. -/
@[match_pattern] def tpServerPreferredAddress : ℕ := 13

/-- `picoquic_tp_active_connection_id_limit`. -/
@[match_pattern] def tpActiveConnectionIdLimit : ℕ := 14

/-- `picoquic_tp_handshake_connection_id`. -/
@[match_pattern] def tpHandshakeConnectionId : ℕ := 15

/-- `picoquic_tp_retry_connection_id`. -/
@[match_pattern] def tpRetryConnectionId : ℕ := 16

/-- `picoquic_tp_max_datagram_frame_size`. -/
@[match_pattern] def tpMaxDatagramFrameSize : ℕ := 32

/-- `picoquic_tp_test_large_chello`. -/
@[match_pattern] def tpTestLargeChello : ℕ := 3127

/-- `picoquic_tp_enable_loss_bit_old`. -/
@[match_pattern] def tpEnableLossBitOld : ℕ := 0x1055

/-- `picoquic_tp_enable_loss_bit`. -/
@[match_pattern] def tpEnableLossBit : ℕ := 0x1057

/-- `picoquic_tp_min_ack_delay`. -/
@[match_pattern] def tpMinAckDelay : ℕ := 0xff02de1a

/-- `picoquic_tp_enable_time_stamp`. -/
@[match_pattern] def tpEnableTimeStamp : ℕ := 0x7158

/-- `picoquic_tp_grease_quic_bit`. -/
@[match_pattern] def tpGreaseQuicBit : ℕ := 0x2ab2

/-- `picoquic_tp_enable_multipath`. -/
@[match_pattern] def tpEnableMultipath : ℕ := 0xbabf

/-- `picoquic_tp_version_negotiation`. -/
@[match_pattern] def tpVersionNegotiation : ℕ := 0xff73db

/-- `picoquic_tp_enable_bdp_frame`. -/
@[match_pattern] def tpEnableBdpFrame : ℕ := 0xebd9

/-! ### Data -/

/-- A UDP port. -/
abbrev Port : Type := Fin (2 ^ 16)

/-- `picoquic_tp_prefered_address_t`, where it is defined. -/
@[ext]
structure PreferedAddress where
  ipv4Address : List.Vector UInt8 4
  ipv4Port : Port
  ipv6Address : List.Vector UInt8 16
  ipv6Port : Port
  connectionId : RemoteCnxid
  statelessResetToken : List.Vector UInt8 16
  deriving DecidableEq

/-- `picoquic_tp_t`. The acknowledgement delay is in microseconds; the streams are limited by an
identifier. -/
structure Tp where
  initialMaxStreamDataBidiLocal : ℕ
  initialMaxStreamDataBidiRemote : ℕ
  initialMaxStreamDataUni : ℕ
  initialMaxData : ℕ
  initialMaxStreamIdBidir : ℕ
  initialMaxStreamIdUnidir : ℕ
  idleTimeout : ℕ
  maxPacketSize : ℕ
  maxAckDelay : ℕ
  activeConnectionIdLimit : ℕ
  ackDelayExponent : ℕ
  migrationDisabled : Bool
  preferedAddress : Option PreferedAddress
  maxDatagramFrameSize : ℕ
  enableLossBit : ℕ
  enableTimeStamp : ℕ
  minAckDelay : ℕ
  doGreaseQuicBit : Bool
  enableMultipath : ℕ
  enableBdpFrame : ℕ
  deriving DecidableEq

/-- The versions of `picoquic_supported_versions`. -/
def supportedVersions : List ℕ :=
  [0x00000001, 0x709a50c4, 0xFF000022, 0xFF000021, 0xFF000020, 0xFF00001F, 0xFF00001D, 0xFF00001E,
    0xFF00001C, 0xFF00001B, 0x50435131, 0x50435130]

/-- `PICOQUIC_V1_VERSION`. -/
def v1Version : ℕ := 0x00000001

/-- `PICOQUIC_V2_VERSION`. -/
def v2Version : ℕ := 0x709a50c4

/-- `PICOQUIC_SEVENTEENTH_INTEROP_VERSION`. -/
def seventeenthInteropVersion : ℕ := 0xFF00001B

/-- The connection, as far as its transport parameters are concerned. The identifiers are those
of the default path; the bytes of an identifier behind its length read as zero. -/
structure TpCnx where
  clientMode : Bool
  localParameters : Tp
  remoteParameters : Tp
  remoteParametersReceived : Bool
  localCnxid : RemoteCnxid
  remoteCnxid : RemoteCnxid
  /-- `picoquic_create_cnxid_reset_secret` for the local identifier. -/
  localResetSecret : List.Vector UInt8 16
  remoteResetSecret : List UInt8
  initialCnxid : RemoteCnxid
  originalCnxid : RemoteCnxid
  isHcidVerified : Bool
  versionIndex : Fin supportedVersions.length
  desiredVersion : ℕ
  doVersionNegotiation : Bool
  greaseTransportParameters : Bool
  testLargeChello : Bool
  /-- `quic->test_large_server_flight`. -/
  testLargeServerFlight : Bool
  /-- `quic->one_way_grease_quic_bit`. -/
  oneWayGreaseQuicBit : Bool
  maxdataRemote : ℕ
  maxStreamIdBidirRemote : ℕ
  maxStreamIdUnidirRemote : ℕ
  maxMaxStreamDataRemote : ℕ
  idleTimeout : ℕ
  keepAliveInterval : ℕ
  isAckFrequencyNegotiated : Bool
  isSimpleMultipathEnabled : Bool
  isMultipathEnabled : Bool
  isLossBitEnabledOutgoing : Bool
  isLossBitEnabledIncoming : Bool
  sendReceiveBdpFrame : Bool
  isTimeStampEnabled : Bool
  isTimeStampSent : Bool
  doGreaseQuicBit : Bool

/-- The version of a connection. -/
def TpCnx.version (c : TpCnx) : ℕ := supportedVersions.get c.versionIndex

/-! ### One parameter -/

/-- The two bytes of `picoformat_16`. -/
def uint16Bytes (n : ℕ) : List UInt8 := [UInt8.ofNat (n >>> 8), UInt8.ofNat n]

/-- The four bytes that `picoquic_frames_uint32_encode` writes. -/
def uint32Bytes (n : ℕ) : List UInt8 :=
  [UInt8.ofNat (n >>> 24), UInt8.ofNat (n >>> 16), UInt8.ofNat (n >>> 8), UInt8.ofNat n]

/-- `picoquic_frames_uint32_encode`. -/
def framesUint32Encode (out : List UInt8) (space n : ℕ) : Option (List UInt8) :=
  appendWithin space out (uint32Bytes n)

/-- The value that `picoquic_encode_transport_param_prefered_address` writes. The port of the
second address is taken from the first. -/
def PreferedAddress.bytes (a : PreferedAddress) : List UInt8 :=
  a.ipv4Address.toList ++ uint16Bytes a.ipv4Port ++ a.ipv6Address.toList ++
    uint16Bytes a.ipv4Port ++ [UInt8.ofNat a.connectionId.val.length] ++ a.connectionId.val ++
    a.statelessResetToken.toList

/-- A transport parameter, by the function that writes it. -/
inductive TpParam
  /-- `picoquic_transport_param_type_varint_encode`. -/
  | varint (tpType n64 : ℕ)
  /-- `picoquic_transport_param_type_flag_encode`. -/
  | flag (tpType : ℕ)
  /-- `picoquic_transport_param_cid_encode`. -/
  | cid (tpType : ℕ) (id : RemoteCnxid)
  /-- `picoquic_encode_transport_param_prefered_address`. -/
  | preferedAddress (a : PreferedAddress)
  /-- The reset token of the server. -/
  | statelessResetToken (secret : List.Vector UInt8 16)
  /-- `picoquic_encode_transport_param_version_negotiation`: the version, and the others. -/
  | versionNegotiation (version : ℕ) (others : List ℕ)
  /-- A number of bytes `'Q'`, for tests of large messages. -/
  | testLargeChello (length : ℕ)

/-- The length of a version negotiation parameter, in two bytes. -/
def vnLengthBytes (len : ℕ) : List UInt8 :=
  [UInt8.ofNat ((len >>> 8) &&& 0x3f) ||| 0x40, UInt8.ofNat (len &&& 0xff)]

/-- A parameter, appended to `out` in a buffer of `space` bytes. -/
def TpParam.encode (space : ℕ) (out : List UInt8) : TpParam → Option (List UInt8)
  | .varint tpType n64 => do
    let out ← framesVarintEncode out space tpType
    -- one byte for the length, which is filled in behind the value
    if space < out.length + 1 then none
    else framesVarintEncode (out ++ [UInt8.ofNat (encodeVarintLength n64)]) space n64
  | .flag tpType => do
    let out ← framesVarintEncode out space tpType
    framesVarintEncode out space 0
  | .cid tpType id => do
    let out ← framesVarintEncode out space tpType
    framesLengthDataEncode out space id.val
  | .preferedAddress a => do
    let codedLength := 4 + 2 + 16 + 2 + 1 + a.connectionId.val.length + 16
    let out ← framesVarintEncode out space tpServerPreferredAddress
    let out ← framesVarintEncode out space codedLength
    if space < out.length + codedLength then none else some (out ++ a.bytes)
  | .statelessResetToken secret => do
    let out ← framesVarintEncode out space tpStatelessResetToken
    let out ← framesVarintEncode out space resetSecretSize
    if out.length + resetSecretSize < space then some (out ++ secret.toList) else none
  | .versionNegotiation version others => do
    let out ← framesVarintEncode out space tpVersionNegotiation
    if space < out.length + 2 then none
    else
      -- two bytes for the length, which are filled in behind the versions
      let value ← (version :: others).foldlM (framesUint32Encode · (space - (out.length + 2)) ·) []
      if 0x3FFF < value.length then none
      else some (out ++ vnLengthBytes value.length ++ value)
  | .testLargeChello length => do
    let out ← framesVarintEncode out space tpTestLargeChello
    let out ← framesVarintEncode out space length
    appendWithin space out (List.replicate length 0x51)

/-! ### The extension -/

/-- `PICOQUIC_ACK_DELAY_MAX_DEFAULT`. -/
def ackDelayMaxDefault : ℕ := 25000

/-- `picoquic_prepare_transport_param_stream_id`. -/
def prepareTransportParamStreamId (streamId : ℕ) : ℕ :=
  if streamId ≠ 2 ^ 64 - 1 then 1 + streamId / 4 else 0

/-- The type of the parameter that `grease_transport_parameters` adds. The loop of the code goes
on until the type is free, which takes one step at most. -/
def greaseType (c : TpCnx) : ℕ :=
  let n := 31 * ((c.initialCnxid.val.getD 0 0).toNat + c.clientMode.toNat) + 27
  if n = tpTestLargeChello ∨ n = tpEnableLossBitOld then n + 31 else n

/-- The value of that parameter. -/
def greaseValue (c : TpCnx) : ℕ :=
  ((c.initialCnxid.val.getD 1 0).toNat <<< 8) + (c.initialCnxid.val.getD 2 0).toNat

/-- The versions behind the current one in `picoquic_encode_transport_param_version_negotiation`:
what a client would like, or everything a server supports. -/
def TpCnx.otherVersions (c : TpCnx) (extensionMode : Bool) : List ℕ :=
  if extensionMode then supportedVersions
  else (if c.desiredVersion ≠ 0 ∧ c.desiredVersion ≠ c.version then [c.desiredVersion] else []) ++
    [c.version]

/-- The identifiers that a server repeats, with and without a Retry packet before. -/
def TpCnx.repeatedCnxids (c : TpCnx) : List TpParam :=
  if 0 < c.originalCnxid.val.length then
    [.cid tpOriginalConnectionId c.originalCnxid, .cid tpRetryConnectionId c.initialCnxid]
  else if c.isHcidVerified then [.cid tpOriginalConnectionId c.initialCnxid]
  else []

/-- One parameter, on a condition. -/
def paramIf (b : Bool) (p : TpParam) : List TpParam := if b then [p] else []

/-- The parameters that `picoquic_prepare_transport_extensions` writes, but for the last one, which
is for tests. `extensionMode` is set for a server. -/
def TpCnx.transportParams (c : TpCnx) (extensionMode : Bool) : List TpParam :=
  let l := c.localParameters
  [.varint tpInitialMaxStreamDataBidiLocal l.initialMaxStreamDataBidiLocal] ++
  [.varint tpInitialMaxData l.initialMaxData] ++
  paramIf (0 < l.initialMaxStreamIdBidir)
    (.varint tpInitialMaxStreamsBidi (prepareTransportParamStreamId l.initialMaxStreamIdBidir)) ++
  paramIf (0 < l.idleTimeout) (.varint tpIdleTimeout l.idleTimeout) ++
  [.varint tpMaxPacketSize l.maxPacketSize] ++
  paramIf (l.ackDelayExponent ≠ 3) (.varint tpAckDelayExponent l.ackDelayExponent) ++
  paramIf (0 < l.initialMaxStreamIdUnidir)
    (.varint tpInitialMaxStreamsUni (prepareTransportParamStreamId l.initialMaxStreamIdUnidir)) ++
  (l.preferedAddress.elim [] fun a => [.preferedAddress a]) ++
  paramIf l.migrationDisabled (.flag tpDisableMigration) ++
  paramIf (0 < l.initialMaxStreamDataBidiRemote)
    (.varint tpInitialMaxStreamDataBidiRemote l.initialMaxStreamDataBidiRemote) ++
  paramIf (0 < l.initialMaxStreamDataUni)
    (.varint tpInitialMaxStreamDataUni l.initialMaxStreamDataUni) ++
  paramIf (0 < l.activeConnectionIdLimit)
    (.varint tpActiveConnectionIdLimit l.activeConnectionIdLimit) ++
  paramIf (l.maxAckDelay ≠ ackDelayMaxDefault)
    (.varint tpMaxAckDelay ((l.maxAckDelay + 999) % 2 ^ 32 / 1000)) ++
  [.cid tpHandshakeConnectionId c.localCnxid] ++
  (if extensionMode then c.repeatedCnxids else []) ++
  paramIf extensionMode (.statelessResetToken c.localResetSecret) ++
  paramIf (0 < l.maxDatagramFrameSize)
    (.varint tpMaxDatagramFrameSize l.maxDatagramFrameSize) ++
  paramIf c.greaseTransportParameters (.varint (greaseType c) (greaseValue c)) ++
  paramIf c.testLargeChello (.testLargeChello 1200) ++
  paramIf (0 < l.enableLossBit)
    (.varint tpEnableLossBit (if 1 < l.enableLossBit then 1 else 0)) ++
  paramIf (0 < l.minAckDelay) (.varint tpMinAckDelay l.minAckDelay) ++
  paramIf (0 < l.enableTimeStamp) (.varint tpEnableTimeStamp l.enableTimeStamp) ++
  paramIf l.doGreaseQuicBit (.flag tpGreaseQuicBit) ++
  paramIf (0 < l.enableMultipath) (.varint tpEnableMultipath l.enableMultipath) ++
  paramIf c.doVersionNegotiation
    (.versionNegotiation c.version (c.otherVersions extensionMode)) ++
  paramIf (0 < l.enableBdpFrame) (.varint tpEnableBdpFrame l.enableBdpFrame)

/-- A server announces datagrams to a client that announced them. -/
def TpCnx.announceDatagrams (c : TpCnx) : TpCnx :=
  if !c.clientMode ∧ c.localParameters.maxDatagramFrameSize = 0 ∧
      0 < c.remoteParameters.maxDatagramFrameSize then
    { c with localParameters := { c.localParameters with maxDatagramFrameSize := maxPacketSize } }
  else c

/-- The last parameter, which fills what is left of the buffer, for tests. -/
def TpCnx.fillFlight (c : TpCnx) (extensionMode : Bool) (space : ℕ) (out : List UInt8) :
    List TpParam :=
  let available := space - out.length
  paramIf (extensionMode && !c.testLargeChello && c.testLargeServerFlight)
    (.testLargeChello (if 24 < available then available - 24 else 1))

/-- `picoquic_prepare_transport_extensions`, in a buffer of `space` bytes: the connection, and the
bytes if there is enough space. -/
def TpCnx.prepareTransportExtensions (c : TpCnx) (extensionMode : Bool) (space : ℕ) :
    TpCnx × Option (List UInt8) :=
  let c := c.announceDatagrams
  (c, do
    let out ← (c.transportParams extensionMode).foldlM (TpParam.encode space) []
    (c.fillFlight extensionMode space out).foldlM (TpParam.encode space) out)

/-- `PICOQUIC_TRANSPORT_PARAMETERS_MAX_SIZE`. -/
def transportParametersMaxSize : ℕ := 2048

/-- The size of the buffer for the extension, `ext_data_size`. -/
def TpCnx.extDataSize (c : TpCnx) : ℕ :=
  transportParametersMaxSize + if !c.clientMode && c.testLargeServerFlight then 4096 else 0

end Picoquic
