import Picoquic.Sender.Forgotten

/-!
# Sending and acknowledging data

Runs of sends and acknowledgements of STREAM and CRYPTO frames.

* **`AckedCnx`** — a connection with the frames it sent, and those that were acknowledged;
* **`AckedCnx.step`** — a frame is sent, sent again, or acknowledged, or the streams change in
  some other way;
* **`AckedCnx.SoundRepeat`** — what the repeat check drops as acknowledged was acknowledged;
* **`AckedEvent.FitsRanges`** — the events that the bounds of the recorded ranges are made for.

Acknowledged ranges of data are lists of positions, both ends included. A STREAM frame records its
bytes, and one more position for its FIN; a CRYPTO frame always records one position more than it
has bytes. The TLS stack hands out less than `2 ^ 62` bytes. A CRYPTO frame is always repeated as
a whole, so a repetition is the same frame; a STREAM frame may be split.
-/

namespace Picoquic

open Runs SendCnx

/-! ### Data -/

/-- A CRYPTO frame: a range of the data of a TLS stream. -/
structure CryptoFrame where
  offset : ℕ
  length : ℕ
  deriving DecidableEq

/-- The end of the range. -/
def CryptoFrame.stop (f : CryptoFrame) : ℕ := f.offset + f.length

/-- `picoquic_crypto_stream_from_ptype` finds a stream. -/
def PacketType.hasTlsStream : PacketType → Bool
  | .initial | .zeroRttProtected | .handshake | .oneRttProtected => true
  | _ => false

/-- A connection with the history of its data. The TLS streams are named by the type of the
packets that carry them. -/
structure AckedCnx where
  cnx : SendCnx
  /-- `sent_offset` of a TLS stream. -/
  tlsSentOffset : PacketType → ℕ
  /-- The identifiers of all streams that were created. -/
  created : List ℕ
  sent : List Frame
  acked : List Frame
  sentCrypto : PacketType → List CryptoFrame
  ackedCrypto : PacketType → List CryptoFrame

/-- A new connection. -/
def AckedCnx.initial (clientMode isPreemptiveRepeatEnabled : Bool) (maxdataRemote : ℕ)
    (controlState : ControlState) : AckedCnx :=
  { cnx :=
      SendCnx.initial clientMode isPreemptiveRepeatEnabled maxdataRemote
        { controlState with
          tlsSackList := fun ptype => if ptype.hasTlsStream then some sackListInit else none }
    tlsSentOffset := fun _ => 0
    created := []
    sent := []
    acked := []
    sentCrypto := fun _ => []
    ackedCrypto := fun _ => [] }

/-- A STREAM frame is a part of another one: a repeated frame, perhaps after a split. -/
def StreamFrame.IsPartOf (f g : StreamFrame) : Prop :=
  f.streamId = g.streamId ∧ g.offset ≤ f.offset ∧
    f.offset + f.data.length ≤ g.offset + g.data.length ∧ (f.data ≠ [] ∨ f.fin = true) ∧
      (f.fin = true → g.fin = true ∧ f.offset + f.data.length = g.offset + g.data.length)

instance (f g : StreamFrame) : Decidable (f.IsPartOf g) := by
  unfold StreamFrame.IsPartOf
  infer_instance

/-- `f` is a part of one of the frames. -/
def IsPartOfSome (f : StreamFrame) : List Frame → Bool
  | [] => false
  | .stream g :: frames => decide (f.IsPartOf g) || IsPartOfSome f frames
  | _ :: frames => IsPartOfSome f frames

/-! ### Events -/

/-- `picoquic_process_ack_of_crypto_frame`. -/
def SendCnx.processAckOfCryptoFrame (c : SendCnx) (ptype : PacketType) (f : CryptoFrame) :
    SendCnx :=
  match c.controlState.tlsSackList ptype with
  | none => c
  | some s =>
    { c with
      controlState :=
        { c.controlState with
          tlsSackList :=
            Function.update c.controlState.tlsSackList ptype
              (some (updateSackList s f.offset (u64 (f.offset + f.length)) 0).1) } }

/-- What the application and the peer do to the streams. -/
inductive StreamChange
  /-- `picoquic_add_to_stream`. -/
  | addToStream (streamId : ℕ) (data : List UInt8) (setFin : Bool)
  /-- `picoquic_mark_active_stream`. -/
  | markActiveStream (streamId : ℕ) (isActive : Bool)
  /-- `picoquic_reset_stream`. -/
  | resetStream (streamId localError : ℕ)
  /-- `picoquic_stop_sending`. -/
  | stopSending (streamId localError : ℕ)
  /-- The peer asks to stop sending. -/
  | stopSendingReceived (streamId : ℕ)
  /-- The receiving half of a stream, or its place among the output streams, changes. -/
  | receiving (streamId : ℕ) (finReceived finSignalled resetReceived resetSignalled : Bool)
      (maxdataLocal maxdataLocalAcked : ℕ) (isOutputStream streamDataBlockedSent : Bool)
  /-- The peer raises the limit of a stream. -/
  | maxStreamData (streamId : ℕ) (maxdata : Fin (2 ^ 62))
  /-- The peer raises the limit of the connection. -/
  | maxData (maxdata : ℕ)
  /-- What decides on control frames changes. -/
  | controlState (beforeClientReady : Bool) (controlState : ControlState)

/-- The event of the sending side. Sack lists of the TLS streams are no part of it. -/
def StreamChange.event (c : SendCnx) : StreamChange → SendEvent
  | .addToStream streamId data setFin => .addToStream streamId data setFin
  | .markActiveStream streamId isActive => .markActiveStream streamId isActive
  | .resetStream streamId localError => .resetStream streamId localError
  | .stopSending streamId localError => .stopSending streamId localError
  | .stopSendingReceived streamId => .stopSendingReceived streamId
  | .receiving streamId finReceived finSignalled resetReceived resetSignalled maxdataLocal
      maxdataLocalAcked isOutputStream streamDataBlockedSent =>
    .receiving streamId finReceived finSignalled resetReceived resetSignalled maxdataLocal
      maxdataLocalAcked isOutputStream streamDataBlockedSent
  | .maxStreamData streamId maxdata => .maxStreamData streamId maxdata
  | .maxData maxdata => .maxData maxdata
  | .controlState beforeClientReady state =>
    .controlState beforeClientReady { state with tlsSackList := c.controlState.tlsSackList }

/-- One event of a run. -/
inductive AckedEvent
  /-- A stream is created. -/
  | createStream (streamId : ℕ) (maxdataRemote : Fin (2 ^ 62)) (isOutputStream : Bool)
  /-- The streams change. -/
  | change (e : StreamChange)
  /-- `picoquic_format_stream_frame`. -/
  | formatStreamFrame (streamId : ℕ) (polled : Option Polled) (room : ℕ)
  /-- `picoquic_format_crypto_hs_frame`: there is room for `length` bytes of what TLS queued. -/
  | formatCryptoHsFrame (ptype : PacketType) (length : ℕ)
  /-- A STREAM frame, or a part of it, is sent again. -/
  | repeatStreamFrame (f : StreamFrame)
  /-- The packet is acknowledged that carried a frame. -/
  | acknowledged (i : ℕ)
  /-- The packet is acknowledged that carried a CRYPTO frame. -/
  | cryptoAcknowledged (ptype : PacketType) (i : ℕ)

/-- One event. Identifiers of streams are used once, and only what was sent is sent again or
acknowledged. -/
def AckedCnx.step (a : AckedCnx) : AckedEvent → AckedCnx
  | .createStream streamId maxdataRemote isOutputStream =>
    if streamId ∈ a.created then a
    else
      { a with
        cnx := a.cnx.step (.createStream streamId maxdataRemote isOutputStream)
        created := streamId :: a.created }
  | .change e => { a with cnx := a.cnx.step (e.event a.cnx) }
  | .formatStreamFrame streamId polled room =>
    let r := a.cnx.formatStreamFrame streamId polled room
    { a with cnx := r.1, sent := a.sent ++ r.2 }
  | .formatCryptoHsFrame ptype length =>
    if ptype.hasTlsStream = true ∧ a.tlsSentOffset ptype + length < 2 ^ 62 then
      { a with
        tlsSentOffset :=
          Function.update a.tlsSentOffset ptype (a.tlsSentOffset ptype + length)
        sentCrypto :=
          Function.update a.sentCrypto ptype
            (a.sentCrypto ptype ++ [⟨a.tlsSentOffset ptype, length⟩]) }
    else a
  | .repeatStreamFrame f =>
    if IsPartOfSome f a.sent then { a with sent := a.sent ++ [.stream f] } else a
  | .acknowledged i =>
    match a.sent[i]? with
    | none => a
    | some f => { a with cnx := a.cnx.processAckOfFrame f, acked := a.acked ++ [f] }
  | .cryptoAcknowledged ptype i =>
    match (a.sentCrypto ptype)[i]? with
    | none => a
    | some f =>
      { a with
        cnx := a.cnx.processAckOfCryptoFrame ptype f
        ackedCrypto := Function.update a.ackedCrypto ptype (a.ackedCrypto ptype ++ [f]) }

/-! ### Soundness of the repeat check -/

/-- A RESET_STREAM frame of the stream was sent. -/
def WasReset (sent : List Frame) (streamId : ℕ) : Prop :=
  ∃ localError finalSize, Frame.resetStream streamId localError finalSize ∈ sent

/-- A byte of a TLS stream is carried by one of the frames. -/
def CryptoCarried (frames : List CryptoFrame) (n : ℕ) : Prop :=
  ∃ f ∈ frames, f.offset ≤ n ∧ n < f.stop

/-- **Suppression is sound.** A frame that was sent is not dropped by the repeat check unless all
it contains was carried by acknowledged packets. The check has two more reasons to drop a STREAM
frame: the stream was reset, and a preemptive repeat leaves out streams without FIN. -/
structure AckedCnx.SoundRepeat (a : AckedCnx) : Prop where
  stream : ∀ ptype isPreemptive f, Frame.stream f ∈ a.sent →
    a.cnx.noNeedToRepeat ptype isPreemptive (.stream f) = true →
      WasReset a.sent f.streamId ∨
        (isPreemptive = true ∧ ∃ s, a.cnx.streams f.streamId = some s ∧ s.finSent = false) ∨
        ∀ item, f.Has item → Carried a.acked f.streamId item
  crypto : ∀ ptype isPreemptive bytes, ∀ f ∈ a.sentCrypto ptype,
    a.cnx.noNeedToRepeat ptype isPreemptive (.control (.cryptoHs f.offset f.length) bytes) = true →
      ∀ n, f.offset ≤ n → n < f.stop → CryptoCarried (a.ackedCrypto ptype) n

/-! ### Gaps and late data -/

/-- No frame of one byte is missing between two acknowledged ones. -/
def NoByteMissing (sent acked : List CryptoFrame) : Prop :=
  ∀ g ∈ sent, g.length = 1 → g ∉ acked → (∃ f ∈ acked, f.stop = g.offset) →
    ∀ f ∈ acked, f.offset ≠ g.stop

instance (sent acked : List CryptoFrame) : Decidable (NoByteMissing sent acked) := by
  unfold NoByteMissing
  infer_instance

/-- No data are added to a stream behind its FIN. -/
def StreamChange.KeepsFin (c : SendCnx) : StreamChange → Prop
  | .addToStream streamId data _ =>
    ((c.streams streamId).elim false fun s => s.finSent) = false ∨ data = []
  | _ => True

instance (c : SendCnx) (e : StreamChange) : Decidable (e.KeepsFin c) := by
  unfold StreamChange.KeepsFin
  split <;> infer_instance

/-- The events for which the bounds of the recorded ranges are right: no data are added behind a
FIN, and no acknowledgement leaves a CRYPTO frame of one byte as the only missing one between two
acknowledged ones. -/
def AckedEvent.FitsRanges (a : AckedCnx) : AckedEvent → Prop
  | .change e => e.KeepsFin a.cnx
  | .cryptoAcknowledged ptype i =>
    NoByteMissing (a.sentCrypto ptype) (a.ackedCrypto ptype ++ (a.sentCrypto ptype)[i]?.toList)
  | _ => True

instance (a : AckedCnx) (e : AckedEvent) : Decidable (e.FitsRanges a) := by
  unfold AckedEvent.FitsRanges
  split <;> infer_instance

end Picoquic
