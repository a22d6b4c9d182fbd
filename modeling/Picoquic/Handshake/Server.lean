import Mathlib
import Picoquic.ForMathlib.Runs

/-!
# A server during the handshake

Until the address of the client is validated, a server counts the bytes it received, and must not
send more than three times as many. The bytes are counted in the datagrams that start with an
Initial packet or a 0-RTT packet of the client.

* **`ServerCnx.incomingInitial`**, **`ServerCnx.incomingZeroRtt`**,
  **`ServerCnx.incomingHandshake`** — the packets of the client, and how they validate its address;
* **`ServerCnx.connectionError`**, **`ServerCnx.close`** — errors, and the application.

What TLS does with the data, and what the frames contain, is left open.
-/

namespace Picoquic

/-- `picoquic_state_enum`, the states of a server in their order. -/
inductive CnxState
  | serverInit
  | serverHandshake
  | handshakeFailure
  | handshakeFailureResend
  | serverFalseStart
  | serverAlmostReady
  | ready
  | disconnecting
  | closingReceived
  | closing
  | draining
  | disconnected
  deriving DecidableEq

/-- The number of a state. -/
def CnxState.toNat : CnxState → ℕ
  | serverInit => 5
  | serverHandshake => 6
  | handshakeFailure => 8
  | handshakeFailureResend => 9
  | serverFalseStart => 11
  | serverAlmostReady => 12
  | ready => 14
  | disconnecting => 15
  | closingReceived => 16
  | closing => 17
  | draining => 18
  | disconnected => 19

/-- `picoquic_cnx_t`, the part that decides what a server sends during the handshake. -/
structure ServerCnx where
  cnxState : CnxState
  initialValidated : Bool
  initialDataReceived : ℕ
  initialDataSent : ℕ
  /-- `crypto_context[picoquic_epoch_initial].aead_encrypt`. -/
  hasInitialKeys : Bool
  /-- `crypto_context[picoquic_epoch_handshake].aead_encrypt`. -/
  hasHandshakeKeys : Bool
  /-- `crypto_context[picoquic_epoch_1rtt].aead_encrypt`. -/
  hasOneRttKeys : Bool
  /-- `crypto_context[picoquic_epoch_1rtt].aead_decrypt`. -/
  hasOneRttReadKeys : Bool
  /-- The bytes of all packets that were produced. -/
  bytesProduced : ℕ

namespace ServerCnx

/-- A server connection, as it is created when the first Initial packet arrives. -/
def init : ServerCnx where
  cnxState := .serverInit
  initialValidated := false
  initialDataReceived := 0
  initialDataSent := 0
  hasInitialKeys := true
  hasHandshakeKeys := false
  hasOneRttKeys := false
  hasOneRttReadKeys := false
  bytesProduced := 0

/-! ### Errors and the application -/

/-- `picoquic_connection_error`. -/
def connectionError (c : ServerCnx) : ServerCnx :=
  if c.cnxState = .ready ∨ c.cnxState = .serverFalseStart then { c with cnxState := .disconnecting }
  else if c.cnxState.toNat < CnxState.serverFalseStart.toNat then
    if c.cnxState ≠ .handshakeFailure ∧ c.cnxState ≠ .handshakeFailureResend then
      { c with cnxState := .handshakeFailure }
    else c
  else c

/-- `picoquic_connection_disconnect`. -/
def connectionDisconnect (c : ServerCnx) : ServerCnx := { c with cnxState := .disconnected }

/-- `picoquic_close`. The state after `picoquic_state_server_almost_ready` is
`picoquic_state_client_ready_start`. -/
def close (c : ServerCnx) : ServerCnx :=
  if c.cnxState = .ready ∨ c.cnxState = .serverFalseStart then { c with cnxState := .disconnecting }
  else if c.cnxState.toNat ≤ CnxState.serverAlmostReady.toNat then
    { c with cnxState := .handshakeFailure }
  else c

/-- `picoquic_close_immediate`. -/
def closeImmediate (c : ServerCnx) : ServerCnx :=
  if c.cnxState.toNat < CnxState.draining.toNat then { c with cnxState := .draining } else c

/-- `picoquic_false_start_transition`, where the NEW_TOKEN frame may fail to be queued. -/
def falseStartTransition (c : ServerCnx) (newTokenFails : Bool) : ServerCnx :=
  let c := { c with cnxState := .serverFalseStart }
  if newTokenFails then c.connectionError else c

/-! ### TLS and frames -/

/-- What `picoquic_tls_stream_process` gets from TLS. -/
inductive TlsReturn
  | ok
  | inProgress
  | error

/-- What TLS does with new data. -/
structure TlsResult where
  ret : TlsReturn
  isDataPushed : Bool
  /-- Keys are installed to send Handshake packets. -/
  handshakeKeys : Bool
  /-- Keys are installed to send 1-RTT packets. -/
  oneRttKeys : Bool
  isHandshakeComplete : Bool
  requireClientAuthentication : Bool
  newTokenFails : Bool

/-- The end of `picoquic_tls_stream_process`, if data was processed. -/
def tlsStreamProcess (c : ServerCnx) : Option TlsResult → ServerCnx
  | none => c
  | some t =>
    let c := { c with
      hasHandshakeKeys := c.hasHandshakeKeys || t.handshakeKeys
      hasOneRttKeys := c.hasOneRttKeys || t.oneRttKeys }
    match t.ret with
    | .ok =>
      if c.cnxState = .serverInit ∨ c.cnxState = .serverHandshake then
        if !t.isDataPushed && t.requireClientAuthentication then
          c.falseStartTransition t.newTokenFails
        else if c.hasOneRttKeys then { c with cnxState := .serverAlmostReady }
        else c
      else c
    | .inProgress =>
      if (c.cnxState = .serverInit ∨ c.cnxState = .serverHandshake) ∧
          t.isHandshakeComplete = true then
        { c with cnxState := .serverAlmostReady }
      else c
    | .error => c.connectionError

/-- What the frames of a packet amount to. -/
inductive FramesResult
  | ok
  | connectionError
  /-- There is a CONNECTION_CLOSE frame. -/
  | connectionClose
  deriving DecidableEq

/-- `picoquic_decode_frames`, and whether it succeeds. -/
def decodeFrames (c : ServerCnx) : FramesResult → ServerCnx × Bool
  | .ok => (c, true)
  | .connectionError => (c.connectionError, false)
  | .connectionClose =>
    ({ c with
      cnxState :=
        if c.cnxState.toNat ≤ CnxState.serverAlmostReady.toNat ∨ c.hasOneRttReadKeys = false then
          .disconnected
        else .closingReceived }, true)

/-- Frames, and what TLS does with the data in them. -/
def decodeAndProcess (c : ServerCnx) (frames : FramesResult) (tls : Option TlsResult) : ServerCnx :=
  let (c, isOk) := c.decodeFrames frames
  if isOk then c.tlsStreamProcess tls else c

/-! ### Packets of the client -/

/-- The token of an Initial packet. -/
inductive TokenCheck
  | absent
  | valid
  /-- A wrong token, of a NEW_TOKEN frame. -/
  | wrongNew
  /-- A wrong token, of a Retry packet. -/
  | wrongRetry
  deriving DecidableEq

/-- A packet of a datagram, when its header is parsed and it is decrypted. -/
structure Segment where
  /-- The length of the whole datagram. -/
  packetLength : ℕ
  isFirstSegment : Bool
  hasReservedBitSet : Bool
  /-- The destination is the connection ID that the client made up. -/
  isForInitialCnxid : Bool
  /-- The destination is the connection ID that the server issued. -/
  isForLocalCnxid : Bool
  /-- The source is the expected connection ID. -/
  isFromRemoteCnxid : Bool
  isPayloadEmpty : Bool
  isVersionExpected : Bool
  token : TokenCheck
  frames : FramesResult
  tls : Option TlsResult

/-- What the server reads of its own context when an Initial packet arrives. -/
structure ServerLoad where
  serverBusy : Bool
  checkToken : Bool
  hasTooManyConnections : Bool
  /-- The connection ID that the client made up is too short. -/
  isInitialCnxidShort : Bool

/-- The test of the token at the start of `picoquic_incoming_client_initial`, and whether the packet
is processed further. -/
def checkToken (c : ServerCnx) (token : TokenCheck) (load : ServerLoad) : ServerCnx × Bool :=
  if c.cnxState = .serverInit ∧ load.serverBusy = false then
    let c := { c with initialValidated := c.initialValidated || decide (token = .valid) }
    if token = .wrongRetry then (c.connectionError, false)
    else (c, !load.checkToken || decide (token = .valid))
  else (c, true)

/-- `picoquic_incoming_client_initial`. -/
def incomingClientInitial (c : ServerCnx) (s : Segment) (load : ServerLoad) : ServerCnx :=
  let (c, isOk) := c.checkToken s.token load
  if isOk then
    let c := { c with initialValidated := c.initialValidated || s.isForLocalCnxid }
    if c.cnxState = .serverInit ∧
        (load.serverBusy || load.hasTooManyConnections || load.isInitialCnxidShort) = true then
      { c with cnxState := .handshakeFailure }
    else if c.cnxState.toNat < CnxState.serverAlmostReady.toNat then
      c.decodeAndProcess s.frames s.tls
    else c
  else c

/-- The bytes of a datagram are counted with its first packet. -/
def accountFor (c : ServerCnx) (s : Segment) : ServerCnx :=
  if s.isFirstSegment then
    { c with initialDataReceived := c.initialDataReceived + s.packetLength }
  else c

/-- The case of an Initial packet in `picoquic_incoming_segment`. -/
def incomingInitial (c : ServerCnx) (s : Segment) (load : ServerLoad) : ServerCnx :=
  if s.hasReservedBitSet then c
  else if s.isForInitialCnxid || s.isForLocalCnxid then
    if s.isFromRemoteCnxid then (c.accountFor s).incomingClientInitial s load else c
  else c

/-- The case of a 0-RTT packet in `picoquic_incoming_segment`, with `picoquic_incoming_0rtt`. -/
def incomingZeroRtt (c : ServerCnx) (s : Segment) : ServerCnx :=
  if s.hasReservedBitSet then c.connectionError
  else
    let c := c.accountFor s
    if (s.isForInitialCnxid || s.isForLocalCnxid) && s.isFromRemoteCnxid then
      if c.cnxState = .serverAlmostReady ∨ c.cnxState = .serverFalseStart ∨ c.cnxState = .ready then
        if !s.isVersionExpected || s.isPayloadEmpty then c.connectionError
        else c.decodeAndProcess s.frames s.tls
      else c
    else c

/-- The TLS data of a Handshake packet. Only it can complete the handshake, and give the keys to
read 1-RTT packets. -/
def handshakeProcess (c : ServerCnx) (tls : Option TlsResult) : ServerCnx :=
  let isComplete := tls.elim false TlsResult.isHandshakeComplete
  let c := { c with
    hasInitialKeys := false
    hasOneRttReadKeys := c.hasOneRttReadKeys || isComplete }
  let c := c.tlsStreamProcess tls
  if c.cnxState.toNat < CnxState.ready.toNat ∧ c.hasOneRttReadKeys = true then
    { c with cnxState := .ready, hasHandshakeKeys := false }
  else c

/-- `picoquic_incoming_client_handshake`. -/
def incomingClientHandshake (c : ServerCnx) (s : Segment) : ServerCnx :=
  let c := { c with initialValidated := true }
  if c.cnxState.toNat < CnxState.serverAlmostReady.toNat then
    if !s.isFromRemoteCnxid then c
    else if s.isPayloadEmpty then c.connectionError
    else
      let (c, isOk) := c.decodeFrames s.frames
      if isOk then c.handshakeProcess s.tls else c
  else c

/-- The case of a Handshake packet in `picoquic_incoming_segment`. -/
def incomingHandshake (c : ServerCnx) (s : Segment) : ServerCnx :=
  if s.hasReservedBitSet then c.connectionError else c.incomingClientHandshake s

/-- The case of a 1-RTT packet, which is not decrypted without the keys to read it. -/
def incomingOneRtt (c : ServerCnx) (frames : FramesResult) : ServerCnx :=
  if c.hasOneRttReadKeys then
    if c.cnxState.toNat < CnxState.disconnecting.toNat then (c.decodeFrames frames).1
    else if (c.cnxState = .closing ∨ c.cnxState = .disconnecting) ∧ frames = .connectionClose then
      { c with cnxState := .draining }
    else c
  else c

end ServerCnx

end Picoquic
