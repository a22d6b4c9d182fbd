import Picoquic.Quicperf.Scenario

/-!
# A stream of the performance test

The client writes a post, which starts with the number of bytes of the response in eight bytes; the
server waits for its end, and writes the response. A response may be infinite: then the client asks
the server to stop when it has enough.

* **`quicperfPrepareToSend`** — either side is asked for data;
* **`receivePost`**, **`receiveResponse`** — the two branches of `quicperf_process_stream_data`;
* **`Flow`** — what the transport keeps of one direction, **`PerfStream`** of both;
* **`Flow.CanPoll`**, **`Flow.CanDeliver`** — what the transport may do: it polls streams that are
  active, and hands over what was written, once, in order, and in pieces of any size.

Statistics and times are left out.
-/

namespace Picoquic

/-! ### Contexts -/

/-- `quicperf_stream_ctx_t`. -/
structure QuicperfStreamCtx where
  streamId : ℕ
  lengthHeader : List ℕ := List.replicate 8 0
  postSize : ℕ := 0
  nbPostBytes : ℕ := 0
  responseSize : ℕ := 0
  nbResponseBytes : ℕ := 0
  stopForFin : Bool := false
  isStopped : Bool := false
  isClosed : Bool := false

/-- The bytes that announce the response. -/
def QuicperfStreamDesc.lengthHeader (d : QuicperfStreamDesc) : List ℕ :=
  (List.range 8).map fun x =>
    if d.isInfinite then 0xFF else d.responseSize / 2 ^ ((7 - x) * 8) % 2 ^ 8

/-- The context that `quicperf_init_streams_from_scenario` creates for a stream. -/
def initStreamCtx (d : QuicperfStreamDesc) (streamId : ℕ) : QuicperfStreamCtx where
  streamId := streamId
  lengthHeader := d.lengthHeader
  postSize := d.postSize
  responseSize := d.responseSize
  stopForFin := d.isInfinite

/-- `QUICPERF_NO_ERROR`. -/
def quicperfNoError : ℕ := 0

/-- `QUICPERF_ERROR_INTERNAL_ERROR`. -/
def quicperfErrorInternalError : ℕ := 2

/-- `QUICPERF_ERROR_NOT_ENOUGH_DATA_SENT`. -/
def quicperfErrorNotEnoughDataSent : ℕ := 3

/-- `QUICPERF_ERROR_TOO_MUCH_DATA_SENT`. -/
def quicperfErrorTooMuchDataSent : ℕ := 4

/-- Why a connection ends: the application closes it, or a callback returns an error. -/
inductive Fault
  | close (code : ℕ)
  | callback

/-! ### Sending -/

/-- The loop of `quicperf_prepare_to_send` that copies the header: what is in the buffer, the number
of bytes that are posted, and the space that is left. -/
def writeLengthHeader (header : List ℕ) : ℕ → ℕ → List ℕ → List ℕ × ℕ × ℕ
  | 0, nbPostBytes, buffer => (buffer, nbPostBytes, 0)
  | available + 1, nbPostBytes, buffer =>
    if nbPostBytes < 8 then
      writeLengthHeader header available (nbPostBytes + 1) (buffer ++ [header.getD nbPostBytes 0])
    else (buffer, nbPostBytes, available + 1)

/-- What `quicperf_prepare_to_send` leaves: the context, the bytes that are written, and whether
they are the last. -/
structure PreparedData where
  ctx : QuicperfStreamCtx
  bytes : List ℕ
  isFin : Bool

/-- The number of bytes to send, and whether they are the last. -/
def availableData (isClient : Bool) (c : QuicperfStreamCtx) (length : ℕ) : ℕ × Bool :=
  let sendLimit := if isClient then c.postSize else c.responseSize
  let sentAlready := if isClient then c.nbPostBytes else c.nbResponseBytes
  if !isClient && c.isStopped then (0, true)
  else if sendLimit < u64 (sentAlready + length) then (sub64 sendLimit sentAlready, true)
  else (length, false)

/-- `quicperf_prepare_to_send`; there is no buffer for more than `length` bytes. -/
def quicperfPrepareToSend (isClient : Bool) (c : QuicperfStreamCtx) (length : ℕ) :
    Option PreparedData :=
  let (available, isFin) := availableData isClient c length
  if length < available then none
  else if isClient then
    let (buffer, nbPostBytes, available) :=
      writeLengthHeader c.lengthHeader available c.nbPostBytes []
    some ⟨{ c with nbPostBytes := u64 (nbPostBytes + available) },
      buffer ++ List.replicate available 0x30, isFin⟩
  else
    some ⟨{ c with nbResponseBytes := u64 (c.nbResponseBytes + available) },
      List.replicate available 0x30, isFin⟩

/-! ### Receiving -/

/-- The loop of `quicperf_process_stream_data` that reads the header: the number that is announced,
the number of bytes that were posted, and the bytes that are left. -/
def accumulateHeader : List ℕ → ℕ → ℕ → ℕ × ℕ × List ℕ
  | [], responseSize, nbPostBytes => (responseSize, nbPostBytes, [])
  | byte :: bytes, responseSize, nbPostBytes =>
    if nbPostBytes < 8 then
      accumulateHeader bytes (u64 (u64 (responseSize * 2 ^ 8) + byte)) (nbPostBytes + 1)
    else (responseSize, nbPostBytes, byte :: bytes)

/-- The server's branch of `quicperf_process_stream_data`, as far as the context is concerned. -/
def receivePost (c : QuicperfStreamCtx) (bytes : List ℕ) (isFin : Bool) : QuicperfStreamCtx :=
  let (responseSize, nbPostBytes, rest) := accumulateHeader bytes c.responseSize c.nbPostBytes
  let nbPostBytes := u64 (nbPostBytes + rest.length)
  { c with
    nbPostBytes := nbPostBytes
    responseSize := if isFin && nbPostBytes < 8 then 0 else responseSize }

/-- What the client's branch does before it looks at `is_closed`: the context, the error it closes
with, and whether it asks the server to stop. -/
structure ReceivedResponse where
  ctx : QuicperfStreamCtx
  close : Option ℕ
  isStop : Bool

/-- The client's branch of `quicperf_process_stream_data`, as far as the context is concerned. -/
def receiveResponse (c : QuicperfStreamCtx) (length : ℕ) (isFin : Bool) : ReceivedResponse :=
  let c := { c with nbResponseBytes := u64 (c.nbResponseBytes + length) }
  if c.stopForFin then
    if c.responseSize ≤ c.nbResponseBytes then
      if c.isStopped then ⟨c, none, false⟩
      else ⟨{ c with isStopped := true, isClosed := true }, none, true⟩
    else if isFin then ⟨c, some quicperfErrorNotEnoughDataSent, false⟩
    else ⟨c, none, false⟩
  else if isFin then
    ⟨{ c with isClosed := true },
      if c.nbResponseBytes = c.responseSize then none else some quicperfErrorNotEnoughDataSent,
      false⟩
  else
    ⟨c, if c.responseSize < c.nbResponseBytes then some quicperfErrorTooMuchDataSent else none,
      false⟩

/-! ### The transport -/

/-- One direction of a stream: `is_active` and `fin_requested` of the side that writes, the bytes
it has written, and `consumed_offset` and `fin_signalled` of the side that reads. -/
structure Flow where
  isActive : Bool := false
  bytes : List ℕ := []
  isFin : Bool := false
  read : ℕ := 0
  isFinRead : Bool := false

namespace Flow

/-- `picoquic_mark_active_stream`. -/
def markActive (f : Flow) : Option Flow :=
  if f.isFin then none else some { f with isActive := true }

/-- The bytes of a callback are sent. -/
def write (f : Flow) (bytes : List ℕ) (isFin : Bool) : Flow :=
  { f with isActive := !isFin, bytes := f.bytes ++ bytes, isFin := isFin }

/-- The next bytes to hand over. -/
def chunk (f : Flow) (n : ℕ) : List ℕ := (f.bytes.drop f.read).take n

/-- The next bytes are handed over. -/
def deliver (f : Flow) (n : ℕ) (isFin : Bool) : Flow :=
  { f with read := f.read + n, isFinRead := isFin }

/-- A stream is polled while it is active, for bytes that its flow control allows. -/
def CanPoll (f : Flow) (length : ℕ) : Prop :=
  f.isActive = true ∧ f.isFin = false ∧ f.bytes.length + length < 2 ^ 62

instance (f : Flow) (length : ℕ) : Decidable (f.CanPoll length) :=
  inferInstanceAs (Decidable (_ ∧ _))

/-- A piece is handed over if it was written; the end goes with the last bytes, or alone. -/
def CanDeliver (f : Flow) (n : ℕ) (isFin : Bool) : Prop :=
  f.isFinRead = false ∧ f.read + n ≤ f.bytes.length ∧
    (isFin = true → f.isFin = true ∧ f.read + n = f.bytes.length) ∧ (isFin = false → 0 < n)

instance (f : Flow) (n : ℕ) (isFin : Bool) : Decidable (f.CanDeliver n isFin) :=
  inferInstanceAs (Decidable (_ ∧ _ ∧ (_ → _) ∧ (_ → _)))

end Flow

/-- A stream at both ends. The contexts are those that the callbacks find: on the client
`app_stream_ctx`, on the server the one in the tree. -/
structure PerfStream where
  client : Option QuicperfStreamCtx := none
  server : Option QuicperfStreamCtx := none
  post : Flow := {}
  response : Flow := {}
  isStopRequested : Bool := false

namespace PerfStream

variable (s : PerfStream)

/-- The client is asked for data. -/
def preparePost (length : ℕ) : Except Fault PerfStream :=
  match s.client with
  | none => .error .callback
  | some c =>
    match quicperfPrepareToSend true c length with
    | none => .error (.close quicperfErrorInternalError)
    | some p => .ok { s with client := some p.ctx, post := s.post.write p.bytes p.isFin }

/-- Data of the post arrives at the server. -/
def processPost (streamId n : ℕ) (isFin : Bool) : Except Fault PerfStream :=
  let c := s.server.getD { streamId := streamId }
  if c.isClosed then .error (.close quicperfErrorTooMuchDataSent)
  else
    let c := receivePost c (s.post.chunk n) isFin
    let s := { s with server := some c, post := s.post.deliver n isFin }
    if isFin then
      match s.response.markActive with
      | none => .error .callback
      | some response => .ok { s with response := response }
    else .ok s

/-- The server is asked for data; it deletes the context with the last bytes. -/
def prepareResponse (length : ℕ) : Except Fault PerfStream :=
  match s.server with
  | none => .error .callback
  | some c =>
    match quicperfPrepareToSend false c length with
    | none => .error (.close quicperfErrorInternalError)
    | some p => .ok { s with
        server := if p.isFin then none else some p.ctx
        response := s.response.write p.bytes p.isFin }

/-- `picoquic_callback_stop_sending` at the server. -/
def processStopSending : PerfStream :=
  { s with server := s.server.map fun c => { c with isStopped := true } }

/-- Data of the response is handed to the client, which holds the context `r.ctx` behind it;
`picoquic_stop_sending` takes the context off the stream. -/
def receive (n : ℕ) (isFin : Bool) (r : ReceivedResponse) : PerfStream :=
  { s with
    client := if r.isStop then none else some r.ctx
    response := s.response.deliver n isFin
    isStopRequested := s.isStopRequested || r.isStop }

/-- The client is done with the stream: it has read the end of the response, or asked for it. -/
def isComplete : Bool := s.response.isFinRead || s.isStopRequested

end PerfStream

end Picoquic
