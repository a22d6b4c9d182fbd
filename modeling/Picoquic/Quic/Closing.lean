import Picoquic.Basic
import Picoquic.ForMathlib.Runs

/-!
# How a connection is closed

The application closes a connection, an error does, or the peer. The endpoint sends a close frame,
and waits for three times its retransmission timer before it forgets the connection. While it
waits, it sends the frame again if packets still arrive, unless it was the peer that closed the
connection: then it has sent its own close frame, and nothing more.

* **`ClosingCnx.connectionError`**, **`ClosingCnx.close`**, **`ClosingCnx.closeImmediate`** — how an
  endpoint begins to close;
* **`ClosingCnx.incoming`** — what packets do, before and after;
* **`ClosingCnx.prepare`** — timers, and what is sent.

Keys for 1-RTT packets exist. Of a connection that is not being closed, only progress is modelled.
The text behind the error of a close frame is left out.
-/

namespace Picoquic

/-! ### Data -/

/-- `picoquic_state_enum`, the states in which packets are sent with 1-RTT keys, in their order. -/
inductive ClosingState
  | serverFalseStart
  | clientReadyStart
  | ready
  | disconnecting
  | closingReceived
  | closing
  | draining
  | disconnected
  deriving DecidableEq

/-- The number of a state. -/
def ClosingState.toNat : ClosingState → ℕ
  | serverFalseStart => 11
  | clientReadyStart => 13
  | ready => 14
  | disconnecting => 15
  | closingReceived => 16
  | closing => 17
  | draining => 18
  | disconnected => 19

/-- A connection that is not being closed. -/
def ClosingState.IsOpen (s : ClosingState) : Prop := s.toNat ≤ ready.toNat

instance (s : ClosingState) : Decidable s.IsOpen := inferInstanceAs (Decidable (_ ≤ _))

/-- The state when the peer has closed the connection. -/
def ClosingState.closedByPeer (s : ClosingState) : ClosingState :=
  if s.toNat < clientReadyStart.toNat then .disconnected else .closingReceived

/-- A frame, as far as closing is concerned. -/
inductive CloseFrame
  | connectionClose (error frameType : ℕ)
  | applicationClose (error : ℕ)
  /-- A close frame with an error that may be read, and with something missing behind. -/
  | malformedClose (isApplication : Bool) (error : Option ℕ)
  /-- A frame with an error, which may be passed over without noticing. What the frame brings before
  the error may be progress. -/
  | refused (error frameType : ℕ) (isSkipped isProgress : Bool)
  /-- Any other frame. It is progress if it acknowledges a packet or brings data of a stream. -/
  | other (isAckNeeded isProgress : Bool)

/-- What happens to a connection. -/
inductive CloseAction
  /-- The application closes it. -/
  | closed (reason : ℕ)
  /-- It is closed because of an error. -/
  | failed (error : ℕ)
  | sent (frames : List CloseFrame)
  | received (frames : List CloseFrame)
  /-- `picoquic_callback_close`. -/
  | callbackClose
  /-- `picoquic_callback_application_close`. The application can look at the error. -/
  | callbackApplicationClose (error : ℕ)
  /-- `picoquic_callback_stateless_reset`. -/
  | callbackStatelessReset

/-- `picoquic_cnx_t`, the part that closes the connection. -/
structure ClosingCnx where
  clientMode : Bool
  cnxState : ClosingState
  localError : ℕ
  applicationError : ℕ
  offendingFrameType : ℕ
  remoteError : ℕ
  remoteApplicationError : ℕ
  startTime : ℕ
  idleTimeout : ℕ
  latestProgressTime : ℕ
  lastCloseSent : ℕ
  /-- `ack_ctx[picoquic_packet_context_application].act[0].ack_needed`. -/
  ackNeeded : Bool
  nextWakeTime : ℕ

/-- `picoquic_path_t`, the timers. -/
structure PathTimers where
  retransmitTimer : ℕ
  smoothedRtt : ℕ
  rttMin : ℕ

/-- `PICOQUIC_ERROR_CLASS`. -/
def errorClass : ℕ := 0x400

/-- `PICOQUIC_ERROR_STATELESS_RESET`. -/
def errorStatelessReset : ℕ := errorClass + 30

/-- `PICOQUIC_ERROR_IDLE_TIMEOUT`. -/
def errorIdleTimeout : ℕ := errorClass + 51

/-- `PICOQUIC_ERROR_REPEAT_TIMEOUT`. -/
def errorRepeatTimeout : ℕ := errorClass + 52

/-- `PICOQUIC_TRANSPORT_INTERNAL_ERROR`. -/
def closeInternalError : ℕ := 0x1

/-- `PICOQUIC_TRANSPORT_FRAME_FORMAT_ERROR`. -/
def closeFormatError : ℕ := 0x7

/-- `PICOQUIC_MICROSEC_SILENCE_MAX`. -/
def microsecSilenceMax : ℕ := 120000000

/-- `PICOQUIC_MICROSEC_HANDSHAKE_MAX`. -/
def microsecHandshakeMax : ℕ := 30000000

/-- When a connection that is being closed is forgotten. -/
def exitTime (latestProgressTime : ℕ) (path : PathTimers) : ℕ :=
  u64 (latestProgressTime + u64 (3 * path.retransmitTimer))

namespace ClosingCnx

/-- Sets the wake time. -/
def wakeAt (c : ClosingCnx) (t : ℕ) : ClosingCnx := { c with nextWakeTime := t }

@[simp]
theorem wakeAt_cnxState (c : ClosingCnx) (t : ℕ) : (c.wakeAt t).cnxState = c.cnxState := rfl

@[simp]
theorem wakeAt_ackNeeded (c : ClosingCnx) (t : ℕ) : (c.wakeAt t).ackNeeded = c.ackNeeded := rfl

/-! ### Errors and the application -/

/-- `picoquic_connection_error`. -/
def connectionError (c : ClosingCnx) (error frameType : ℕ) : ClosingCnx × List CloseAction :=
  let error := if errorClass < error then closeInternalError else error
  if c.cnxState.IsOpen then
    ({ c with
        localError := error
        cnxState := .disconnecting
        offendingFrameType := frameType }, [.failed error])
  else ({ c with offendingFrameType := frameType }, [])

/-- `picoquic_connection_disconnect`. -/
def connectionDisconnect (c : ClosingCnx) : ClosingCnx × List CloseAction :=
  if c.cnxState = .disconnected then (c, [])
  else ({ c with cnxState := .disconnected }, [.callbackClose])

/-- `picoquic_close`. The return value says whether the connection could be closed. -/
def close (c : ClosingCnx) (reason currentTime : ℕ) : ClosingCnx × List CloseAction × Bool :=
  if c.cnxState.IsOpen then
    ({ c with
        cnxState := .disconnecting
        applicationError := reason
        offendingFrameType := 0
        nextWakeTime := currentTime }, [.closed reason], true)
  else ({ c with offendingFrameType := 0, nextWakeTime := currentTime }, [], false)

/-- `picoquic_close_immediate`. -/
def closeImmediate (c : ClosingCnx) (currentTime : ℕ) (path : PathTimers) : ClosingCnx :=
  if c.cnxState.toNat < ClosingState.draining.toNat then
    { c with
      cnxState := .draining
      localError := 2 ^ 64 - 1
      latestProgressTime := currentTime
      lastCloseSent := currentTime
      nextWakeTime := exitTime currentTime path }
  else c

/-- `picoquic_incoming_stateless_reset`. -/
def incomingStatelessReset (c : ClosingCnx) (currentTime : ℕ) : ClosingCnx × List CloseAction :=
  let c := if c.cnxState.IsOpen then { c with remoteError := errorStatelessReset } else c
  let r := (c.wakeAt currentTime).connectionDisconnect
  (r.1, r.2 ++ [.callbackStatelessReset])

/-! ### Receiving -/

/-- `picoquic_decode_connection_close_frame`, with all that it needs. -/
def decodeConnectionClose (c : ClosingCnx) (error : ℕ) : ClosingCnx × List CloseAction :=
  ({ c with remoteError := error, cnxState := c.cnxState.closedByPeer },
    if c.cnxState.closedByPeer ≠ c.cnxState ∧ c.cnxState.closedByPeer = .disconnected then
      [.callbackClose]
    else [])

/-- `picoquic_decode_application_close_frame`, with all that it needs. -/
def decodeApplicationClose (c : ClosingCnx) (error : ℕ) : ClosingCnx × List CloseAction :=
  ({ c with remoteApplicationError := error, cnxState := c.cnxState.closedByPeer },
    [.callbackApplicationClose error])

/-- What is read of a close frame that is too short, and the error. -/
def decodeMalformedClose (c : ClosingCnx) (isApplication : Bool) (error : Option ℕ) :
    ClosingCnx × List CloseAction :=
  let c := if isApplication then
      { c with remoteApplicationError := error.getD c.remoteApplicationError }
    else { c with remoteError := error.getD c.remoteError }
  c.connectionError closeFormatError (if isApplication then 0x1d else 0x1c)

/-- What a frame that is progress changes. -/
def progress (c : ClosingCnx) (currentTime : ℕ) (isProgress : Bool) : ClosingCnx :=
  if isProgress then { c with latestProgressTime := currentTime } else c

/-- The frames of a packet that are decoded, with what happens and whether there is something to
acknowledge. There is no such answer after an error. -/
def decodeFrames (c : ClosingCnx) (currentTime : ℕ) (ackNeeded : Bool) :
    List CloseFrame → ClosingCnx × List CloseAction × Option Bool
  | [] => (c, [], some ackNeeded)
  | .other isAckNeeded isProgress :: frames =>
    (c.progress currentTime isProgress).decodeFrames currentTime (ackNeeded || isAckNeeded) frames
  | .connectionClose error _ :: frames =>
    let r := c.decodeConnectionClose error
    let r' := r.1.decodeFrames currentTime true frames
    (r'.1, r'.2.1 ++ r.2, r'.2.2)
  | .applicationClose error :: frames =>
    let r := c.decodeApplicationClose error
    let r' := r.1.decodeFrames currentTime true frames
    (r'.1, r'.2.1 ++ r.2, r'.2.2)
  | .malformedClose isApplication error :: _ =>
    let r := c.decodeMalformedClose isApplication error
    (r.1, r.2, none)
  | .refused error frameType _ isProgress :: _ =>
    let r := (c.progress currentTime isProgress).connectionError error frameType
    (r.1, r.2, none)

/-- A close frame in `picoquic_decode_closing_frames`. -/
def decodeClosingFrame (c : ClosingCnx) : CloseFrame → ClosingCnx × List CloseAction
  | .connectionClose error _ => c.decodeConnectionClose error
  | .applicationClose error => c.decodeApplicationClose error
  | .malformedClose isApplication error => c.decodeMalformedClose isApplication error
  | .refused _ _ _ _ | .other _ _ => (c, [])

/-- `picoquic_decode_closing_frames`: the first close frame is decoded, unless this connection has
sent one. The answer is whether there is one; there is none after an error. -/
def decodeClosingFrames (c : ClosingCnx) :
    List CloseFrame → ClosingCnx × List CloseAction × Option Bool
  | [] => (c, [], some false)
  | .other _ _ :: frames => c.decodeClosingFrames frames
  | .refused _ _ isSkipped _ :: frames =>
    if isSkipped then c.decodeClosingFrames frames else (c, [], none)
  | frame :: _ =>
    if c.cnxState.toNat ≤ ClosingState.disconnecting.toNat then
      let r := c.decodeClosingFrame frame
      (r.1, r.2, some true)
    else (c, [], some true)

/-- The part of `picoquic_incoming_1rtt` for a connection that is being closed by this endpoint.
The wake time stays as it is after an error. -/
def incomingClosing (c : ClosingCnx) (frames : List CloseFrame) (currentTime : ℕ) :
    ClosingCnx × List CloseAction :=
  match c.decodeClosingFrames frames with
  | (c, actions, some true) =>
    if c.clientMode then
      let r := c.connectionDisconnect
      (r.1.wakeAt currentTime, r.2 ++ actions)
    else (wakeAt { c with cnxState := .draining } currentTime, actions)
  | (c, actions, some false) => (wakeAt { c with ackNeeded := true } currentTime, actions)
  | (c, actions, none) => (c, actions)

/-- The part of `picoquic_incoming_1rtt` for a connection that is not being closed. -/
def incomingOpen (c : ClosingCnx) (frames : List CloseFrame) (currentTime : ℕ) :
    ClosingCnx × List CloseAction :=
  match c.decodeFrames currentTime false frames with
  | (c, actions, some true) =>
    (wakeAt { c with latestProgressTime := currentTime, ackNeeded := true } currentTime, actions)
  | (c, actions, _) => (c.wakeAt currentTime, actions)

/-- `picoquic_incoming_1rtt`, and the wake time after it. -/
def incoming (c : ClosingCnx) (frames : List CloseFrame) (currentTime : ℕ) :
    ClosingCnx × List CloseAction :=
  let r :=
    if c.cnxState = .closing ∨ c.cnxState = .disconnecting then
      c.incomingClosing frames currentTime
    else if c.cnxState.IsOpen then c.incomingOpen frames currentTime
    else (c.wakeAt currentTime, [])
  (r.1, r.2 ++ [.received frames])

/-! ### Sending -/

/-- What `picoquic_prepare_packet_ex` finds. -/
structure PrepareClosing where
  currentTime : ℕ
  /-- `picoquic_current_retransmit_timer` of the default path. -/
  currentRetransmitTimer : ℕ
  /-- The path that is selected. -/
  path : PathTimers
  /-- There is an ACK frame in front of the first close frame. -/
  isAckSent : Bool
  /-- The close frame fits into the packet. -/
  fits : Bool
  /-- Packets are sent too often without success, while the connection is open. -/
  isRepeatTimeout : Bool
  /-- Otherwise there is progress. -/
  isProgress : Bool
  /-- The state and the time after that, while the connection is open. -/
  isReady : Bool
  openWakeTime : ℕ

/-- The end of the idle time. -/
def idleTimer (c : ClosingCnx) (currentRetransmitTimer : ℕ) : ℕ :=
  if ClosingState.ready.toNat ≤ c.cnxState.toNat then
    let rto := u64 (3 * currentRetransmitTimer)
    let idle := u64 ((if c.idleTimeout < rto then rto else c.idleTimeout) + c.latestProgressTime)
    if idle < c.idleTimeout then 2 ^ 64 - 1 else idle
  else u64 (c.startTime + microsecHandshakeMax)

/-- The close frame of this endpoint. -/
def closeFrame (c : ClosingCnx) : CloseFrame :=
  if c.localError = 0 then .applicationClose c.applicationError
  else .connectionClose c.localError c.offendingFrameType

end ClosingCnx

/-- How long to wait before the close frame is sent again. -/
def PathTimers.deltaT (path : PathTimers) : ℕ :=
  if u64 (2 * path.rttMin) < path.retransmitTimer then path.retransmitTimer / 2 else path.rttMin

namespace ClosingCnx

/-- A packet with a close frame, if it fits. -/
def packet (a : PrepareClosing) (isAckSent : Bool) (frame : CloseFrame) : CloseAction :=
  .sent ((if isAckSent then [.other false false] else []) ++ if a.fits then [frame] else [])

/-- `picoquic_prepare_packet_closing`. -/
def preparePacketClosing (c : ClosingCnx) (a : PrepareClosing) : ClosingCnx × List CloseAction :=
  let exit := exitTime c.latestProgressTime a.path
  match c.cnxState with
  | .closingReceived =>
    ({ c with lastCloseSent := a.currentTime, cnxState := .draining, nextWakeTime := exit },
      [packet a false (.connectionClose c.localError c.offendingFrameType)])
  | .closing =>
    if exit ≤ a.currentTime then
      let r := c.connectionDisconnect
      (r.1.wakeAt a.currentTime, r.2)
    else if u64 (c.lastCloseSent + a.path.smoothedRtt) ≤ a.currentTime then
      let next := min (u64 (a.currentTime + a.path.deltaT)) exit
      if c.ackNeeded then
        ({ c with ackNeeded := false, lastCloseSent := a.currentTime, nextWakeTime := next },
          [packet a false c.closeFrame])
      else (c.wakeAt next, [])
    else (c.wakeAt (min c.nextWakeTime exit), [])
  | .draining =>
    if exit ≤ a.currentTime then
      let r := c.connectionDisconnect
      (r.1.wakeAt a.currentTime, r.2)
    else (c.wakeAt exit, [])
  | .disconnecting =>
    ({ c with
        cnxState := .closing
        latestProgressTime := a.currentTime
        lastCloseSent := a.currentTime
        nextWakeTime := u64 (a.currentTime + a.path.deltaT)
        ackNeeded := false },
      [packet a a.isAckSent c.closeFrame])
  | _ => (c, [])

/-- What is prepared while the connection is open. -/
def prepareOpen (c : ClosingCnx) (a : PrepareClosing) : ClosingCnx × List CloseAction :=
  if a.isRepeatTimeout then
    let r := connectionDisconnect { c with localError := errorRepeatTimeout }
    (r.1, r.2)
  else
    ({ c with
        cnxState := if a.isReady then .ready else c.cnxState
        latestProgressTime := if a.isProgress then a.currentTime else c.latestProgressTime
        nextWakeTime := a.openWakeTime },
      if a.isProgress then [.sent [.other true true]] else [])

/-- `picoquic_prepare_segment`. -/
def prepareSegment (c : ClosingCnx) (a : PrepareClosing) : ClosingCnx × List CloseAction :=
  if c.cnxState.IsOpen then c.prepareOpen a
  else if c.cnxState = .disconnected then (c, [])
  else c.preparePacketClosing a

/-- Something is sent. -/
def isSending (actions : List CloseAction) : Bool :=
  actions.any fun x => match x with
    | .sent _ => true
    | _ => false

/-- `picoquic_prepare_packet_ex`, where the buffer is large enough. -/
def prepare (c : ClosingCnx) (a : PrepareClosing) : ClosingCnx × List CloseAction :=
  let wake := u64 (c.latestProgressTime + 2 * microsecSilenceMax)
  let idle := c.idleTimer a.currentRetransmitTimer
  if idle ≤ a.currentTime then
    connectionDisconnect { c with localError := errorIdleTimeout, nextWakeTime := wake }
  else
    let r := (c.wakeAt (min wake idle)).prepareSegment a
    (r.1.wakeAt
      (if isSending r.2 ∨ r.1.cnxState = .disconnected then a.currentTime else r.1.nextWakeTime),
      r.2)

end ClosingCnx

/-! ### Events -/

/-- What happens to an endpoint. -/
inductive ClosingEvent
  | prepare (a : ClosingCnx.PrepareClosing)
  | incoming (frames : List CloseFrame) (currentTime : ℕ)
  /-- An error that is found elsewhere. -/
  | connectionError (error frameType : ℕ)
  | close (reason currentTime : ℕ)
  | closeImmediate (currentTime : ℕ) (path : PathTimers)
  | statelessReset (currentTime : ℕ)
  /-- `picoquic_delete_cnx`. -/
  | delete

namespace ClosingCnx

/-- What an event makes of an endpoint, and what happens, newest first. -/
def outcome (c : ClosingCnx) : ClosingEvent → ClosingCnx × List CloseAction
  | .prepare a => c.prepare a
  | .incoming frames currentTime => c.incoming frames currentTime
  | .connectionError error frameType => c.connectionError error frameType
  | .close reason currentTime =>
    let r := c.close reason currentTime
    (r.1, r.2.1)
  | .closeImmediate currentTime path => (c.closeImmediate currentTime path, [])
  | .statelessReset currentTime => c.incomingStatelessReset currentTime
  | .delete => c.connectionDisconnect

/-- One event. -/
def step (c : ClosingCnx) (e : ClosingEvent) : ClosingCnx := (c.outcome e).1

/-- An endpoint whose handshake is done. -/
def newCnx (clientMode : Bool) (startTime idleTimeout currentTime : ℕ) : ClosingCnx where
  clientMode := clientMode
  cnxState := if clientMode then .clientReadyStart else .serverFalseStart
  localError := 0
  applicationError := 0
  offendingFrameType := 0
  remoteError := 0
  remoteApplicationError := 0
  startTime := startTime
  idleTimeout := idleTimeout
  latestProgressTime := currentTime
  lastCloseSent := 0
  ackNeeded := false
  nextWakeTime := currentTime

end ClosingCnx

end Picoquic
