import Picoquic.ForMathlib.Runs
import Picoquic.Quicperf.Stream

/-!
# A connection of the performance test

The client opens the streams of a scenario, those that wait for no other first, and the rest when
the stream they name is complete; it closes the connection when no stream is open.

* **`openStream`** to **`initStreamsFromScenario`** — `quicperf_init_streams_from_scenario`;
* **`processResponse`** — the client's branch of `quicperf_process_stream_data`;
* **`CanTake`**, **`step`** — the callbacks, in any order that the transport allows.

Nothing is modelled behind the end of the connection.
-/

namespace Picoquic

/-- `quicperf_ctx_t` of the client, with the streams of the connection. -/
structure QuicperfConnection where
  scenarios : List QuicperfStreamDesc
  /-- `nb_open_streams`. -/
  nbOpenStreams : ℕ := 0
  /-- The streams that have a context in `quicperf_stream_tree`. -/
  tree : List ℕ := []
  streams : ℕ → PerfStream := fun _ => {}
  /-- The streams that the client has opened, in order. -/
  opened : List ℕ := []
  closed : Option Fault := none

namespace QuicperfConnection

/-- The connection ends, if it has not before. -/
def fault (s : QuicperfConnection) (f : Fault) : QuicperfConnection :=
  if s.closed = none then { s with closed := some f } else s

/-- `picoquic_close`, where there is an error. -/
def closeFor (s : QuicperfConnection) : Option ℕ → QuicperfConnection
  | none => s
  | some code => s.fault (.close code)

def setStream (s : QuicperfConnection) (streamId : ℕ) (stream : PerfStream) : QuicperfConnection :=
  { s with streams := Function.update s.streams streamId stream }

/-- The body of the loop of `quicperf_init_streams_from_scenario`: a context is created, and the
stream made active. That fails for a stream of the server, and for one that was finished. -/
def openStream (s : QuicperfConnection) (d : QuicperfStreamDesc) (streamId : ℕ) :
    QuicperfConnection × Bool :=
  let s := { s with tree := streamId :: s.tree, nbOpenStreams := s.nbOpenStreams + 1 }
  if streamId % 2 = 1 then (s, false)
  else
    match (s.streams streamId).post.markActive with
    | none => (s, false)
    | some post =>
      let stream :=
        { s.streams streamId with client := some (initStreamCtx d streamId), post := post }
      ({ s.setStream streamId stream with opened := s.opened ++ [streamId] }, true)

/-- The inner loop of `quicperf_init_streams_from_scenario`. -/
def initStreamLoop (d : QuicperfStreamDesc) : ℕ → ℕ → QuicperfConnection → QuicperfConnection × Bool
  | 0, _, s => (s, true)
  | n + 1, streamX, s =>
    let (s, isOk) := s.openStream d streamX
    if isOk then initStreamLoop d n (u64 (streamX + 4)) s else (s, false)

/-- The outer loop of `quicperf_init_streams_from_scenario`. The inner one runs at least once. -/
def initScenarioLoop (streamId : ℕ) :
    List QuicperfStreamDesc → QuicperfConnection → QuicperfConnection × Bool
  | [], s => (s, true)
  | d :: scenarios, s =>
    if d.previousStreamId = streamId then
      let (s, isOk) := initStreamLoop d (max 1 d.repeatCount) d.streamId s
      if isOk then initScenarioLoop streamId scenarios s else (s, false)
    else initScenarioLoop streamId scenarios s

/-- `quicperf_init_streams_from_scenario`. -/
def initStreamsFromScenario (s : QuicperfConnection) (streamId : ℕ) : QuicperfConnection × Bool :=
  initScenarioLoop streamId s.scenarios s

/-- `quicperf_callback` for `picoquic_callback_ready` and `picoquic_callback_almost_ready`. -/
def ready (s : QuicperfConnection) : QuicperfConnection :=
  if s.tree = [] then
    let (s, isOk) := s.initStreamsFromScenario quicperfStreamIdInitial
    if !isOk || s.nbOpenStreams = 0 then s.fault (.close quicperfErrorInternalError) else s
  else s

/-- The client's branch of `quicperf_process_stream_data`. -/
def processResponse (s : QuicperfConnection) (streamId n : ℕ) (isFin : Bool) : QuicperfConnection :=
  match (s.streams streamId).client with
  | none => s.fault .callback
  | some c =>
    if c.isClosed then s.fault (.close quicperfErrorTooMuchDataSent)
    else
      let r := receiveResponse c n isFin
      let s := (s.setStream streamId ((s.streams streamId).receive n isFin r)).closeFor r.close
      if r.ctx.isClosed then
        let s := { s with nbOpenStreams := s.nbOpenStreams - 1 }
        let (s, isOk) := s.initStreamsFromScenario c.streamId
        if s.nbOpenStreams = 0 then s.fault (.close quicperfNoError)
        else if isOk then { s with tree := s.tree.erase streamId }
        else s.fault .callback
      else s

end QuicperfConnection

/-- A callback, at the client or at the server. -/
inductive QuicperfEvent
  | ready
  | pollPost (streamId length : ℕ)
  | deliverPost (streamId n : ℕ) (isFin : Bool)
  | pollResponse (streamId length : ℕ)
  | deliverResponse (streamId n : ℕ) (isFin : Bool)
  | deliverStop (streamId : ℕ)

namespace QuicperfConnection

/-- The transport may make the callback. It hands over no data behind `picoquic_stop_sending`. -/
def CanTake (s : QuicperfConnection) : QuicperfEvent → Prop
  | .ready => True
  | .pollPost i length => (s.streams i).post.CanPoll length
  | .deliverPost i n isFin => (s.streams i).post.CanDeliver n isFin
  | .pollResponse i length => (s.streams i).response.CanPoll length
  | .deliverResponse i n isFin =>
    (s.streams i).isStopRequested = false ∧ (s.streams i).response.CanDeliver n isFin
  | .deliverStop i => (s.streams i).isStopRequested = true

instance (s : QuicperfConnection) : (e : QuicperfEvent) → Decidable (s.CanTake e)
  | .ready => inferInstanceAs (Decidable True)
  | .pollPost _ _ => inferInstanceAs (Decidable (Flow.CanPoll _ _))
  | .deliverPost _ _ _ => inferInstanceAs (Decidable (Flow.CanDeliver _ _ _))
  | .pollResponse _ _ => inferInstanceAs (Decidable (Flow.CanPoll _ _))
  | .deliverResponse _ _ _ => inferInstanceAs (Decidable (_ ∧ Flow.CanDeliver _ _ _))
  | .deliverStop _ => inferInstanceAs (Decidable (_ = _))

/-- A callback that concerns one stream only has returned. -/
def setResult (s : QuicperfConnection) (streamId : ℕ) : Except Fault PerfStream → QuicperfConnection
  | .error f => s.fault f
  | .ok stream => s.setStream streamId stream

/-- `quicperf_callback` at either end. -/
def callback (s : QuicperfConnection) : QuicperfEvent → QuicperfConnection
  | .ready => s.ready
  | .pollPost i length => s.setResult i ((s.streams i).preparePost length)
  | .deliverPost i n isFin => s.setResult i ((s.streams i).processPost i n isFin)
  | .pollResponse i length => s.setResult i ((s.streams i).prepareResponse length)
  | .deliverResponse i n isFin => s.processResponse i n isFin
  | .deliverStop i => s.setResult i (.ok (s.streams i).processStopSending)

/-- A step of the connection, until it ends. -/
def step (s : QuicperfConnection) (e : QuicperfEvent) : QuicperfConnection :=
  if s.closed = none ∧ s.CanTake e then s.callback e else s

/-- A connection before its first callback. -/
def start (scenarios : List QuicperfStreamDesc) : QuicperfConnection where
  scenarios := scenarios

end QuicperfConnection

end Picoquic
