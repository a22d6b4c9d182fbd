import Picoquic.Sender.StreamText
import Picoquic.Stream.Reassembly

/-!
# A stream from one application to the other

The sending side and the receiving side of a stream, with a network between them that loses,
repeats and reorders frames. The sender splits, repeats and forgets as it does; the receiver queues
what comes early.

* **`Transfer`** — both sides;
* **`Transfer.Sound`** — what arrived at the receiver was produced by the sender, whose book is
  kept;
* **`transferred`** — the receiver's application is handed a prefix of what the sender's application
  wrote, and is told of the end only behind all of it.
-/

namespace Picoquic

open Runs

/-! ### Both sides -/

/-- The two ends of a stream. -/
structure Transfer where
  sender : TextHistory
  receiver : Cnx

/-- What happens. -/
inductive TransferEvent
  /-- Something happens to the sender. -/
  | send (e : SendEvent)
  /-- A frame arrives. -/
  | deliver (f : StreamFrame)
  /-- Something else happens to the receiver. -/
  | receive (e : StreamEvent)

/-- The receiver reads a frame. -/
def StreamFrame.arrives (f : StreamFrame) : StreamEvent :=
  .streamFrame f.streamId f.offset f.fin f.data

/-- One event. A frame arrives if it was produced, as often and as late as the network likes. -/
def Transfer.step (id : ℕ) (x : Transfer) : TransferEvent → Transfer
  | .send e => { x with sender := x.sender.step id e }
  | .deliver f =>
    if f ∈ x.sender.history.produced then { x with receiver := x.receiver.step f.arrives } else x
  | .receive e => { x with receiver := x.receiver.step e }

/-- An event of the receiver that has nothing to do with the stream `id`. -/
def StreamEvent.Ignores (id : ℕ) : StreamEvent → Prop
  | .streamFrame streamId .. | .resetFrame streamId .. | .stopSending streamId
  | .discard streamId => streamId ≠ id
  | _ => True

/-- The applications do not give up the stream, nothing is written behind a FIN, and what the
receiver gets on the stream are the frames of the network. -/
def TransferEvent.Admissible (id : ℕ) (x : Transfer) : TransferEvent → Prop
  | .send e => e.EndsAtFin x.sender.history.cnx ∧ ¬ e.Resets id
  | .deliver _ => True
  | .receive e => e.Ignores id

instance (id : ℕ) (e : StreamEvent) : Decidable (e.Ignores id) := by
  unfold StreamEvent.Ignores
  split <;> infer_instance

instance (id : ℕ) (x : Transfer) (e : TransferEvent) : Decidable (e.Admissible id x) := by
  unfold TransferEvent.Admissible
  split <;> infer_instance

/-! ### What arrived -/

/-- **The invariant.** The book of the sender is kept, and what the receiver read was produced. -/
structure Transfer.Sound (id : ℕ) (start : Cnx) (x : Transfer) : Prop where
  sender : x.sender.Kept id
  receiver : ∃ evs, x.receiver = run Cnx.step start evs ∧
    ∀ e ∈ evs, e.Ignores id ∨ ∃ f ∈ x.sender.history.produced, e = f.arrives

variable {e : StreamEvent}

section Sound

variable {id : ℕ} {start : Cnx} {x : Transfer}

/-- The receiver reads one more thing. -/
theorem Transfer.Sound.read (h : x.Sound id start)
    (he : e.Ignores id ∨ ∃ f ∈ x.sender.history.produced, e = f.arrives) :
    Transfer.Sound id start { x with receiver := x.receiver.step e } := by
  obtain ⟨evs, hrun, hevs⟩ := h.receiver
  refine ⟨h.sender, evs ++ [e], ?_, fun e' he' => ?_⟩
  · rw [run_append, ← hrun]
    rfl
  · rcases List.mem_append.mp he' with he' | he'
    exacts [hevs e' he', List.mem_singleton.mp he' ▸ he]

theorem Transfer.Sound.step (h : x.Sound id start) {e : TransferEvent} (he : e.Admissible id x) :
    (x.step id e).Sound id start := by
  cases e with
  | send e =>
    obtain ⟨evs, hrun, hevs⟩ := h.receiver
    refine ⟨h.sender.step he.1 he.2, evs, hrun, fun e' he' => (hevs e' he').imp_right ?_⟩
    rintro ⟨f, hf, heq⟩
    exact ⟨f, x.sender.produced_step id e hf, heq⟩
  | deliver f =>
    rw [Transfer.step]
    split_ifs with hf
    · exact h.read (.inr ⟨f, hf, rfl⟩)
    · exact h
  | receive e => exact h.read (.inl he)

theorem StreamEvent.Ignores.slices (he : e.Ignores id) (B : List UInt8) : e.Slices B id := by
  cases e with
  | streamFrame => exact fun hid => absurd hid he
  | resetFrame | stopSending | discard => exact he
  | _ => trivial

/-- What was sent, and perhaps something behind it, is what the receiver reads slices of. -/
theorem Transfer.Sound.slices (h : x.Sound id start) (rest : List UInt8)
    (hrest : rest = [] ∨ ∀ f ∈ x.sender.history.produced, f.streamId = id → f.fin = false)
    (he : e.Ignores id ∨ ∃ f ∈ x.sender.history.produced, e = f.arrives) :
    e.Slices (x.sender.text.sent ++ rest) id := by
  rcases he with he | ⟨f, hf, rfl⟩
  · exact he.slices _
  intro hid
  refine ⟨(h.sender.slice f (.inl hf) hid).extend rest, fun hfin => ?_⟩
  rcases hrest with rfl | hno
  · rw [List.append_nil, h.sender.length_sent, ← hid]
    exact (h.sender.placed f (.inl hf)).fin hfin
  · rw [hno f hf hid] at hfin
    cases hfin

end Sound

/-- A stream that received slices of a text reassembles it. -/
theorem Cnx.reassembles_of_slices {id : ℕ} {B : List UInt8} {clientMode : Bool}
    {params : TransportParameters} {evs : List StreamEvent} (hevs : ∀ e ∈ evs, e.Slices B id)
    {s : StreamHead} (hs : s ∈ (run Cnx.step (Cnx.initial clientMode params) evs).everyStream)
    (hid : s.streamId = id) : s.Reassembles B := by
  have hall := Cnx.run_allStreams (P := fun failed s =>
    s.streamId = id → if failed then s.Reassembles B else s.Live B)
    (along_of_forall (fun e he => reassembles_invariant (hevs e he)) _) s hs hid
  split_ifs at hall
  exacts [hall, hall.reassembles]

theorem StreamHead.Reassembles.consumed_eq {B : List UInt8} {s : StreamHead}
    (h : s.Reassembles B) (hall : ∀ p < B.length, s.Received p) :
    s.consumedOffset = B.length := by
  refine le_antisymm h.consumed_le (Nat.le_of_not_lt fun hlt => ?_)
  rcases (h.received_iff _).mp (hall _ hlt) with hhas | ⟨c, hc, hlo, -⟩
  · exact absurd hhas (lt_irrefl _)
  · have := h.pending.le_offset c hc
    omega

/-! ### Runs -/

/-- Two new connections. -/
def Transfer.initial (senderIsClient isPreemptiveRepeatEnabled : Bool) (maxdataRemote : ℕ)
    (controlState : ControlState) (params : TransportParameters) : Transfer :=
  ⟨.initial senderIsClient isPreemptiveRepeatEnabled maxdataRemote controlState,
    Cnx.initial (!senderIsClient) params⟩

/-- **Transfer of a stream.** In every run in which the applications do not give up the stream, and
nothing is written behind a FIN: what the receiver's application was handed is a prefix of what the
sender's application wrote, and all of it once the end is signalled, at most once. What was written
is what was sent, followed by what still waits in the stream; and if all of what was sent arrived,
all of it was handed over, with the end if that arrived. -/
theorem transferred (id : ℕ) (senderIsClient isPreemptiveRepeatEnabled : Bool)
    (maxdataRemote : ℕ) (controlState : ControlState) (params : TransportParameters)
    (evs : List TransferEvent)
    (h : Along (Transfer.step id) (fun x e => e.Admissible id x)
      (.initial senderIsClient isPreemptiveRepeatEnabled maxdataRemote controlState params) evs) :
    let x := run (Transfer.step id)
      (.initial senderIsClient isPreemptiveRepeatEnabled maxdataRemote controlState params) evs
    (∀ s ∈ x.receiver.everyStream, s.streamId = id →
      s.delivered <+: x.sender.text.written ∧ s.finCount ≤ 1 ∧
        (s.finCount = 1 → s.delivered = x.sender.text.written) ∧
        ((∀ p < x.sender.text.sent.length, s.Received p) →
          s.delivered = x.sender.text.sent ∧ (s.FinArrived → s.finCount = 1))) ∧
      ∀ s, x.sender.history.cnx.streams id = some s →
        x.sender.text.written = x.sender.text.sent ++ s.sendQueue.flatten := by
  intro x
  have hsound : x.Sound id (Cnx.initial (!senderIsClient) params) := by
    refine run_invariant_of_along (I := Transfer.Sound id _)
      (P := fun x e => e.Admissible id x) (fun _ _ hs he => hs.step he) ?_ h
    exact ⟨.initial id senderIsClient isPreemptiveRepeatEnabled maxdataRemote controlState,
      [], rfl, fun _ he => absurd he List.not_mem_nil⟩
  refine ⟨fun s hs hid => ?_, fun s hs => (hsound.sender.present s hs).2⟩
  obtain ⟨revs, hrun, hrevs⟩ := hsound.receiver
  rw [hrun] at hs
  have hreads : ∀ rest, rest = [] ∨ (∀ f ∈ x.sender.history.produced, f.streamId = id →
      f.fin = false) → s.Reassembles (x.sender.text.sent ++ rest) := fun rest hrest =>
    Cnx.reassembles_of_slices (fun e he => hsound.slices rest hrest (hrevs e he)) hs hid
  have hall := hreads [] (.inl rfl)
  rw [List.append_nil] at hall
  have hprefix := hsound.sender.isPrefix
  refine ⟨?_, hall.finCount_le, fun hone => ?_, fun hreceived => ?_⟩
  · rw [hall.delivered_eq]
    exact (List.take_prefix _ _).trans hprefix
  · obtain ⟨-, hend⟩ := hall.finCount_iff.mp hone
    obtain ⟨f, hf, hfid, hfin⟩ : ∃ f ∈ x.sender.history.produced, f.streamId = id ∧
        f.fin = true := by
      by_contra hno
      push Not at hno
      -- without a FIN the text could be longer
      have hlonger := hreads [0] (.inr fun f hf hfid => by simpa using hno f hf hfid)
      have hlen := (hlonger.finCount_iff.mp hone).2
      rw [List.length_append, List.length_singleton] at hlen
      omega
    rw [hall.delivered_eq, hend, List.take_length]
    exact (hsound.sender.written_eq (.inl hf) hfid hfin).symm
  · have hend := hall.consumed_eq hreceived
    refine ⟨?_, fun hfin => hall.finCount_iff.mpr ⟨hfin, hend⟩⟩
    rw [hall.delivered_eq, hend, List.take_length]

/-- Five bytes are written in two pieces. The first packet is lost, and its frame is repeated; the
second frame arrives first, and twice. -/
def lossyTransfer : List TransferEvent :=
  [.send (.createStream 0 100 true), .send (.addToStream 0 [1, 2, 3] false),
    .send (.addToStream 0 [4, 5] true),
    .send (.preparePacket .oneRttProtected 20 60 [.stream 0 none]),
    .send (.lost 0 ⟨20, 200, 16⟩ []),
    .send (.preparePacket .oneRttProtected 20 60 [.stream 0 none]),
    .deliver ⟨0, 3, [4, 5], true, true⟩, .deliver ⟨0, 3, [4, 5], true, true⟩,
    .deliver ⟨0, 0, [1, 2, 3], false, true⟩]

theorem transferred_lossyTransfer :
    let x := run (Transfer.step 0)
      (.initial true true 1000 freshControlState ⟨100, 100, 100, 100⟩) lossyTransfer
    ∃ s ∈ x.receiver.everyStream, s.streamId = 0 ∧ s.finCount = 1 ∧
      s.delivered = [1, 2, 3, 4, 5] := by
  intro x
  obtain ⟨hlen, hid, hfin⟩ : ∃ h : 0 < x.receiver.everyStream.length,
      x.receiver.everyStream[0].streamId = 0 ∧ x.receiver.everyStream[0].finCount = 1 := by
    decide +kernel
  obtain ⟨hstream, -⟩ := transferred 0 true true 1000 freshControlState ⟨100, 100, 100, 100⟩
    lossyTransfer (by decide +kernel)
  obtain ⟨-, -, hall, -⟩ := hstream _ (List.getElem_mem hlen) hid
  refine ⟨_, List.getElem_mem hlen, hid, hfin, (hall hfin).trans ?_⟩
  decide +kernel

end Picoquic
