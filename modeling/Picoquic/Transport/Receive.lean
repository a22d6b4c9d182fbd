import Picoquic.Path.RemoteStash
import Picoquic.Transport.Parameters

/-!
# Transport parameters: reading

The extension of the peer is read parameter by parameter. A parameter that is not there leaves
the default; a parameter that is there twice, or has a value it must not have, ends the
connection, except that an identifier may be there twice. After the last parameter the
identifiers of the handshake are verified, and both sets of parameters decide what the connection
may use.

* **`setTransportParam`** — what a parameter does to the parameters of the peer;
* **`TpReceive.noteParam`** — what it does to the rest of the connection;
* **`TpReceive.finish`** — the checks after the last parameter;
* **`TpCnx.receiveTransportExtensions`** — the whole extension.

The streams that are already open are left out: their limits follow the parameters.
-/

namespace Picoquic

/-! ### Errors -/

/-- `PICOQUIC_TRANSPORT_PARAMETER_ERROR`. -/
def transportParameterError : ℕ := 0x8

/-- `PICOQUIC_TRANSPORT_VERSION_NEGOTIATION_ERROR`. -/
def transportVersionNegotiationError : ℕ := 0x53F8

/-- Why an extension is refused. -/
inductive TpError
  /-- `picoquic_connection_error_ex`, with its code and its text. -/
  | connection (code : ℕ) (reason : Option String)
  /-- `picoquic_process_version_upgrade` does not know the upgrade. -/
  | versionUpgrade

/-- An error of the parameters themselves. -/
def parameterError (reason : Option String) : TpError :=
  .connection transportParameterError reason

/-! ### Values -/

/-- `picoquic_transport_param_varint_decode`, and what is done with the value. The integer has to
take up the whole value. -/
def tpVarint {α : Type} (value : List UInt8) (use : ℕ → Except TpError α) : Except TpError α :=
  match framesVarintDecode value with
  | some (n64, []) => use n64
  | _ => .error (parameterError none)

/-- `picoquic_transport_param_cid_decode`. The length is cut to a byte. -/
def tpCid (value : List UInt8) : Except TpError (List UInt8) :=
  let len := value.length % 2 ^ 8
  let id := if len ≤ 20 then value.take len else []
  if id.length ≠ value.length then .error (parameterError none) else .ok id

/-- `picoquic_decode_transport_param_stream_id`. -/
def decodeTransportParamStreamId (rank : ℕ) (extensionMode : Bool) (streamType : ℕ) : ℕ :=
  if 0 < rank then u64 (streamType + (!extensionMode).toNat + 4 * (rank - 1)) else 2 ^ 64 - 1

/-- `PICOPARSE_16`. -/
def parse16 (bytes : List UInt8) : Port :=
  Fin.ofNat (2 ^ 16) ((bytes.getD 0 0).toNat * 256 + (bytes.getD 1 0).toNat)

/-- `PICOPARSE_32`. -/
def parse32 (b0 b1 b2 b3 : UInt8) : ℕ :=
  ((b0.toNat * 256 + b1.toNat) * 256 + b2.toNat) * 256 + b3.toNat

/-- `picoquic_decode_transport_param_prefered_address`: the length, `0` on error, and the
address. -/
def decodePreferedAddress (bytes : List UInt8) : ℕ × Option PreferedAddress :=
  let cidLength := (bytes.getD 24 0).toNat
  if h : 41 ≤ bytes.length ∧ 0 < cidLength ∧ cidLength ≤ 20 ∧
      25 + cidLength + 16 ≤ bytes.length then
    (25 + cidLength + 16,
      some
        { ipv4Address := ⟨bytes.take 4, by rw [List.length_take]; omega⟩
          ipv4Port := parse16 (bytes.drop 4)
          ipv6Address := ⟨(bytes.drop 6).take 16, by rw [List.length_take, List.length_drop]; omega⟩
          ipv6Port := parse16 (bytes.drop 22)
          connectionId := ⟨(bytes.drop 25).take cidLength, by rw [List.length_take]; omega⟩
          statelessResetToken :=
            ⟨(bytes.drop (25 + cidLength)).take 16, by
              rw [List.length_take, List.length_drop]; omega⟩ })
  else (0, none)

/-! ### The parameters of the peer -/

/-- `PICOQUIC_MAX_ACK_DELAY_MAX_MS`. -/
def maxAckDelayMaxMs : ℕ := 0x4000

/-- `PICOQUIC_ACK_DELAY_MIN_MAX_VALUE`. -/
def ackDelayMinMaxValue : ℕ := 0xFFFFFF

/-- `PICOQUIC_STREAM_ID_BIDIR`. -/
def streamIdBidir : ℕ := 0

/-- `PICOQUIC_STREAM_ID_UNIDIR`. -/
def streamIdUnidir : ℕ := 2

/-- The switch of `picoquic_receive_transport_extensions`, for the parameters of the peer. -/
def setTransportParam (extensionMode : Bool) (r : Tp) (tpType : ℕ) (value : List UInt8) :
    Except TpError Tp :=
  match tpType with
  | tpInitialMaxStreamDataBidiLocal =>
    tpVarint value fun n => .ok { r with initialMaxStreamDataBidiLocal := n }
  | tpInitialMaxStreamDataBidiRemote =>
    tpVarint value fun n => .ok { r with initialMaxStreamDataBidiRemote := n }
  | tpInitialMaxStreamDataUni =>
    tpVarint value fun n => .ok { r with initialMaxStreamDataUni := n }
  | tpInitialMaxData => tpVarint value fun n => .ok { r with initialMaxData := n }
  | tpInitialMaxStreamsBidi =>
    tpVarint value fun rank =>
      .ok { r with
        initialMaxStreamIdBidir := decodeTransportParamStreamId rank extensionMode streamIdBidir }
  | tpIdleTimeout => tpVarint value fun n => .ok { r with idleTimeout := n % 2 ^ 32 }
  | tpMaxPacketSize =>
    tpVarint value fun n =>
      if n < 1200 ∨ 65527 < n then .error (parameterError "Max packet size TP")
      else .ok { r with maxPacketSize := n }
  | tpAckDelayExponent => tpVarint value fun n => .ok { r with ackDelayExponent := n % 2 ^ 8 }
  | tpInitialMaxStreamsUni =>
    tpVarint value fun rank =>
      .ok { r with
        initialMaxStreamIdUnidir :=
          decodeTransportParamStreamId rank extensionMode streamIdUnidir }
  | tpServerPreferredAddress =>
    let (codedLength, address) := decodePreferedAddress value
    if codedLength ≠ value.length then .error (parameterError "Preferred address TP")
    else .ok { r with preferedAddress := address.or r.preferedAddress }
  | tpDisableMigration =>
    if value.length ≠ 0 then .error (parameterError "Disable migration TP")
    else .ok { r with migrationDisabled := true }
  | tpMaxAckDelay =>
    tpVarint value fun n =>
      let delay := n % 2 ^ 32 * 1000 % 2 ^ 32
      if maxAckDelayMaxMs * 1000 < delay then .error (parameterError "Max ack delay TP")
      else .ok { r with maxAckDelay := delay }
  | tpActiveConnectionIdLimit =>
    tpVarint value fun n => .ok { r with activeConnectionIdLimit := n % 2 ^ 32 }
  | tpMaxDatagramFrameSize =>
    tpVarint value fun n => .ok { r with maxDatagramFrameSize := n % 2 ^ 32 }
  | tpEnableLossBit =>
    tpVarint value fun enabled =>
      if enabled = 0 then .ok { r with enableLossBit := 1 }
      else if enabled = 1 then .ok { r with enableLossBit := 2 }
      else .error (parameterError "Loss bit TP")
  | tpMinAckDelay =>
    tpVarint value fun n =>
      if n = 0 ∨ ackDelayMinMaxValue < n then
        .error (.connection transportProtocolViolation "Min ack delay TP")
      else .ok { r with minAckDelay := n }
  | tpEnableTimeStamp =>
    tpVarint value fun n =>
      if n < 1 ∨ 3 < n then .error (parameterError none) else .ok { r with enableTimeStamp := n }
  | tpGreaseQuicBit =>
    if value.length ≠ 0 then .error (parameterError "Grease TP")
    else .ok { r with doGreaseQuicBit := true }
  | tpEnableMultipath =>
    tpVarint value fun n =>
      if 3 < n then .error (parameterError "Multipath TP")
      else .ok { r with enableMultipath := n }
  | tpEnableBdpFrame =>
    tpVarint value fun n =>
      if 1 < n then .error (parameterError "BDP parameter")
      else .ok { r with enableBdpFrame := n }
  | _ => .ok r

/-! ### Version negotiation -/

/-- `picoquic_get_version_index`. -/
def getVersionIndex (proposed : ℕ) : Option (Fin supportedVersions.length) :=
  supportedVersions.findFinIdx? (· == proposed)

/-- The loop over the versions of a client: the first that is supported. -/
def selectVersion : List UInt8 → Except TpError (Option (Fin supportedVersions.length))
  | [] => .ok none
  | b0 :: b1 :: b2 :: b3 :: rest =>
    match getVersionIndex (parse32 b0 b1 b2 b3) with
    | some index => .ok (some index)
    | none => selectVersion rest
  | _ => .error (parameterError "V. Negotiation TP")

/-- The loop over the versions of a server, which are only read. -/
def checkVersions : List UInt8 → Except TpError (Option (Fin supportedVersions.length))
  | [] => .ok none
  | _ :: _ :: _ :: _ :: rest => checkVersions rest
  | _ => .error (parameterError "V. Negotiation TP")

/-- `picoquic_process_tp_version_negotiation`: the negotiated version, if there is one. -/
def processTpVersionNegotiation (bytes : List UInt8) (extensionMode : Bool) (envelopVn : ℕ) :
    Except TpError (Option (Fin supportedVersions.length)) :=
  match bytes with
  | b0 :: b1 :: b2 :: b3 :: rest =>
    if parse32 b0 b1 b2 b3 ≠ envelopVn then
      .error (.connection transportVersionNegotiationError "V. Negotiation TP")
    else if extensionMode then checkVersions rest
    else selectVersion rest
  | _ => .error (parameterError "V. Negotiation TP")

/-- `picoquic_process_version_upgrade`: whether the upgrade is supported. The new keys can be
set up. -/
def versionUpgradeSupported (old new : Fin supportedVersions.length) : Bool :=
  if new = old then true
  else supportedVersions.get new = v2Version && supportedVersions.get old = v1Version

/-! ### The loop -/

/-- The state of `picoquic_receive_transport_extensions`. -/
structure TpReceive where
  cnx : TpCnx
  /-- `present_flag`: the types below 64 that were found. -/
  present : List ℕ
  originalConnectionId : List UInt8
  retryConnectionId : List UInt8

namespace TpReceive

/-- The switch of `picoquic_receive_transport_extensions`, for the rest of the connection. -/
def noteParam (extensionMode : Bool) (s : TpReceive) (tpType : ℕ) (value : List UInt8) :
    Except TpError TpReceive :=
  let c := s.cnx
  match tpType with
  | tpInitialMaxData =>
    .ok { s with cnx := { c with maxdataRemote := c.remoteParameters.initialMaxData } }
  | tpInitialMaxStreamsBidi =>
    let streamId := c.remoteParameters.initialMaxStreamIdBidir
    let limit := if streamId = 0xFFFFFFFF then 0 else streamId
    .ok { s with
      cnx := { c with maxStreamIdBidirRemote := limit, maxMaxStreamDataRemote := limit } }
  | tpInitialMaxStreamsUni =>
    let streamId := c.remoteParameters.initialMaxStreamIdUnidir
    .ok { s with
      cnx := { c with
        maxStreamIdUnidirRemote := if streamId = 0xFFFFFFFF then 0 else streamId } }
  | tpStatelessResetToken =>
    if !extensionMode then .error (parameterError "Reset token from client")
    else if value.length ≠ resetSecretSize then .error (parameterError "Reset token TP")
    else .ok { s with cnx := { c with remoteResetSecret := value } }
  | tpOriginalConnectionId =>
    (tpCid value).map fun id => { s with originalConnectionId := id }
  | tpRetryConnectionId =>
    (tpCid value).map fun id => { s with retryConnectionId := id }
  | tpHandshakeConnectionId =>
    (tpCid value).bind fun id =>
      if c.remoteCnxid.val ≠ id then .error (parameterError "HCID check")
      else .ok { s with cnx := { c with isHcidVerified := true } }
  | tpMinAckDelay =>
    if 0 < c.localParameters.minAckDelay then
      .ok { s with cnx := { c with isAckFrequencyNegotiated := true } }
    else .ok s
  | tpVersionNegotiation =>
    (processTpVersionNegotiation value extensionMode c.version).bind fun negotiated =>
      let index := negotiated.getD c.versionIndex
      if versionUpgradeSupported c.versionIndex index then
        .ok { s with cnx := { c with doVersionNegotiation := true, versionIndex := index } }
      else .error .versionUpgrade
  | _ => .ok s

/-- The types whose value is the identifier of a connection. -/
def cidTypes : List ℕ :=
  [tpOriginalConnectionId, tpRetryConnectionId, tpHandshakeConnectionId]

/-- A parameter in the loop of `picoquic_receive_transport_extensions`. -/
def receiveParam (extensionMode : Bool) (s : TpReceive) (tpType : ℕ) (value : List UInt8) :
    Except TpError TpReceive :=
  -- reading an identifier replaces the error of a parameter that is there twice
  if tpType < 64 ∧ tpType ∈ s.present ∧ tpType ∉ cidTypes then
    .error (parameterError "Malformed TP")
  else
    (setTransportParam extensionMode s.cnx.remoteParameters tpType value).bind fun remote =>
      noteParam extensionMode
        { s with
          cnx := { s.cnx with remoteParameters := remote }
          present := if tpType < 64 then tpType :: s.present else s.present }
        tpType value

/-- The type and the value of the next parameter, and what follows it. -/
def nextParam (bytes : List UInt8) : Option (ℕ × List UInt8 × List UInt8) := do
  let (tpType, bytes) ← framesVarintDecode bytes
  let (length, bytes) ← framesVarintDecode bytes
  if bytes.length < length then none else some (tpType, bytes.take length, bytes.drop length)

theorem length_of_nextParam {bytes value rest : List UInt8} {tpType : ℕ}
    (h : nextParam bytes = some (tpType, value, rest)) : rest.length < bytes.length := by
  obtain ⟨⟨t, bytes₁⟩, h₁, h⟩ := Option.bind_eq_some_iff.mp h
  obtain ⟨⟨length, bytes₂⟩, h₂, h⟩ := Option.bind_eq_some_iff.mp h
  obtain ⟨-, h⟩ := Option.ite_none_left_eq_some.mp h
  have hrest : bytes₂.drop length = rest := (Prod.mk.inj (Prod.mk.inj (Option.some.inj h)).2).2
  have hlen₁ := (varintDecode_eq h₁).2.2
  have hlen₂ := (varintDecode_eq h₂).2.2
  rw [← hrest, List.length_drop]
  omega

/-- The loop of `picoquic_receive_transport_extensions`. -/
def receiveParams (extensionMode : Bool) (s : TpReceive) (bytes : List UInt8) :
    Except TpError TpReceive :=
  if bytes = [] then .ok s
  else if bytes.length < 2 then .error (parameterError "TP length")
  else
    match _h : nextParam bytes with
    | none => .error (parameterError none)
    | some (tpType, value, rest) =>
      (receiveParam extensionMode s tpType value).bind fun s => receiveParams extensionMode s rest
  termination_by bytes.length
  decreasing_by exact length_of_nextParam _h

end TpReceive

/-! ### After the last parameter -/

/-- `picoquic_negotiate_multipath_option`. -/
def TpCnx.negotiateMultipath (c : TpCnx) : Except TpError TpCnx :=
  match c.remoteParameters.enableMultipath &&& c.localParameters.enableMultipath with
  | 0 => .ok c
  | 1 => .ok { c with isSimpleMultipathEnabled := true }
  | 2 => .ok { c with isMultipathEnabled := true }
  | 3 =>
    if !c.clientMode ∧ c.remoteCnxid.val.length = 0 then
      .ok { c with
        isSimpleMultipathEnabled := true
        localParameters := { c.localParameters with enableMultipath := 1 } }
    else .ok { c with isMultipathEnabled := true }
  | _ => .error (.connection 0 none)

/-- The idle timeout in microseconds, the smaller of both that is set, and a keep-alive interval
that fits. -/
def TpCnx.negotiateIdleTimeout (c : TpCnx) : TpCnx :=
  let l := c.localParameters.idleTimeout
  let r := c.remoteParameters.idleTimeout
  let timeout := if l = 0 ∨ (0 < r ∧ r < l) then r * 1000 else l * 1000
  if timeout = 0 then { c with idleTimeout := 2 ^ 64 - 1 }
  else
    { c with
      idleTimeout := timeout
      keepAliveInterval :=
        if c.keepAliveInterval ≠ 0 ∧ timeout / 2 < c.keepAliveInterval then timeout / 2
        else c.keepAliveInterval }

/-- The options at the end of `picoquic_receive_transport_extensions`. -/
def TpCnx.negotiateOptions (c : TpCnx) : TpCnx :=
  let l := c.localParameters
  let r := c.remoteParameters
  let c :=
    { c with
      isLossBitEnabledOutgoing := decide (1 < l.enableLossBit) && decide (0 < r.enableLossBit)
      isLossBitEnabledIncoming := decide (0 < l.enableLossBit) && decide (1 < r.enableLossBit)
      sendReceiveBdpFrame := decide (0 < l.enableBdpFrame) && decide (0 < r.enableBdpFrame) }
  if c.clientMode then
    { c with
      isTimeStampEnabled := l.enableTimeStamp.testBit 0 && r.enableTimeStamp.testBit 1
      isTimeStampSent := l.enableTimeStamp.testBit 1 && r.enableTimeStamp.testBit 0
      doGreaseQuicBit := l.doGreaseQuicBit && r.doGreaseQuicBit }
  else
    { c with
      isTimeStampSent := c.isTimeStampSent || r.enableTimeStamp.testBit 0
      isTimeStampEnabled := c.isTimeStampEnabled || r.enableTimeStamp.testBit 1
      doGreaseQuicBit := r.doGreaseQuicBit
      localParameters :=
        { l with
          enableTimeStamp :=
            if r.enableTimeStamp = 0 then l.enableTimeStamp
            else 2 * (r.enableTimeStamp.testBit 0).toNat + (r.enableTimeStamp.testBit 1).toNat
          doGreaseQuicBit := r.doGreaseQuicBit && !c.oneWayGreaseQuicBit
          minAckDelay := if c.isAckFrequencyNegotiated then l.minAckDelay else 0 } }

namespace TpReceive

/-- The defaults that depend on a parameter not being there. -/
def setDefaults (s : TpReceive) : TpCnx :=
  let r := s.cnx.remoteParameters
  { s.cnx with
    remoteParameters :=
      { r with
        maxAckDelay := if tpMaxAckDelay ∈ s.present then r.maxAckDelay else ackDelayMaxDefault
        activeConnectionIdLimit :=
          if tpActiveConnectionIdLimit ∈ s.present then r.activeConnectionIdLimit
          else if s.cnx.localCnxid.val.length = 0 then 0
          else nbPathDefault } }

/-- The verification of the identifiers that a server repeats. -/
def verifyCnxids (s : TpReceive) : Except TpError Unit :=
  let c := s.cnx
  if tpHandshakeConnectionId ∈ s.present then
    if c.originalCnxid.val.length ≠ 0 then
      if tpRetryConnectionId ∉ s.present ∨ tpOriginalConnectionId ∉ s.present ∨
          c.originalCnxid.val ≠ s.originalConnectionId ∨
          c.initialCnxid.val ≠ s.retryConnectionId then
        .error (parameterError "OCID verification")
      else .ok ()
    else if tpRetryConnectionId ∈ s.present ∨ tpOriginalConnectionId ∉ s.present ∨
        c.initialCnxid.val ≠ s.originalConnectionId then
      .error (parameterError "HCID or no OCID")
    else .ok ()
  else if c.version = seventeenthInteropVersion then
    if c.originalCnxid.val.length ≠ 0 ∧ (tpOriginalConnectionId ∉ s.present ∨
        c.originalCnxid.val ≠ s.originalConnectionId) then
      .error (parameterError "old draft version")
    else .ok ()
  else .ok ()

/-- The types that a client must not send. -/
def serverOnly : List ℕ :=
  [tpStatelessResetToken, tpServerPreferredAddress, tpOriginalConnectionId, tpRetryConnectionId]

/-- The checks of `picoquic_receive_transport_extensions` after the loop. -/
def finish (extensionMode : Bool) (s : TpReceive) : Except TpError TpCnx :=
  if extensionMode = false ∧ ∃ t ∈ serverOnly, t ∈ s.present then
    .error (parameterError "T. Param. unexpected on client")
  else if s.cnx.version ≠ seventeenthInteropVersion ∧ tpHandshakeConnectionId ∉ s.present then
    .error (parameterError "HCID missing")
  else
    (if extensionMode then s.verifyCnxids else .ok ()).bind fun _ =>
      (s.setDefaults.negotiateIdleTimeout.negotiateMultipath).map TpCnx.negotiateOptions

end TpReceive

/-- The parameters before anything is received: zero, but for the exponent. -/
def Tp.unset : Tp where
  initialMaxStreamDataBidiLocal := 0
  initialMaxStreamDataBidiRemote := 0
  initialMaxStreamDataUni := 0
  initialMaxData := 0
  initialMaxStreamIdBidir := 0
  initialMaxStreamIdUnidir := 0
  idleTimeout := 0
  maxPacketSize := 0
  maxAckDelay := 0
  activeConnectionIdLimit := 0
  ackDelayExponent := 3
  migrationDisabled := false
  preferedAddress := none
  maxDatagramFrameSize := 0
  enableLossBit := 0
  enableTimeStamp := 0
  minAckDelay := 0
  doGreaseQuicBit := false
  enableMultipath := 0
  enableBdpFrame := 0

/-- The start of `picoquic_receive_transport_extensions`, with
`picoquic_clear_transport_extensions`. -/
def TpCnx.clearTransportExtensions (c : TpCnx) : TpCnx :=
  { c with
    remoteParametersReceived := true
    remoteParameters := Tp.unset
    maxdataRemote := 0
    maxStreamIdBidirRemote := 0
    maxStreamIdUnidirRemote := 0 }

/-- `picoquic_receive_transport_extensions`, or the reason why it does not return zero. -/
def TpCnx.receiveTransportExtensions (c : TpCnx) (extensionMode : Bool) (bytes : List UInt8) :
    Except TpError TpCnx :=
  (TpReceive.receiveParams extensionMode ⟨c.clearTransportExtensions, [], [], []⟩ bytes).bind
    (TpReceive.finish extensionMode)

end Picoquic
