import Picoquic.Sender.Forgotten
import Picoquic.Sender.Limits

/-!
# Streams stay within their limits, and end at the FIN unless more is written

Behind a FIN the send queue is empty. But `picoquic_add_to_stream` refuses a second write only if
it comes with a FIN of its own: other data are queued, and sent.

* **`SendHistory`** — a connection, with the streams it opened and the STREAM frames it produced;
* **`SendHistory.Sound.step`** — an event that writes nothing behind a FIN keeps the ledger;
* **`flow_control_law`** — in a run of such events the limits are respected, the bytes that were
  counted are those that were sent, and no frame goes beyond a FIN;
* **`sent_beyond_fin`** — a stream is written to after its FIN was sent.
-/

namespace Picoquic

open Runs SendCnx

variable {f : StreamFrame}

variable {resend : List StreamFrame}

section Events

variable {opened : List ℕ} {log : List StreamFrame} {c : SendCnx} {i : ℕ} {p : SentPacket}

/-! ### Packets leave the queue -/

section

variable (hp : c.retransmitQueue[i]? = some p)

include hp

theorem hasFrame_of_packet {f : Frame} (hf : f ∈ p.frames) :
    c.HasFrame f :=
  .inl ⟨p, List.mem_of_getElem? hp, hf⟩

/-- Frames of a packet are queued, and the packet leaves its queue. -/
theorem SendCnx.reuses_save {misc : List Frame}
    (hresend : ∀ f ∈ resend, Frame.stream f ∈ p.frames) (hmisc : ∀ f ∈ misc, f ∈ p.frames)
    (shouldFree : Bool) :
    c.Reuses ((c.queueFrames resend misc).dequeueRetransmitPacket i p shouldFree) := by
  refine ⟨rfl, rfl, le_rfl, ?_⟩
  rintro f (⟨q, hq, hf⟩ | ⟨q, hq, hf⟩ | ⟨g, hg, hf⟩ | hf)
  · exact .inl ⟨q, List.mem_of_mem_eraseIdx hq, hf⟩
  · change q ∈ (if shouldFree || p.isAckTrap then c.retransmitted else c.retransmitted ++ [p]) at hq
    split_ifs at hq
    · exact .inr (.inl ⟨q, hq, hf⟩)
    · rcases List.mem_append.mp hq with hq | hq
      · exact .inr (.inl ⟨q, hq, hf⟩)
      · exact hasFrame_of_packet hp (List.mem_singleton.mp hq ▸ hf)
  · rcases List.mem_append.mp hg with hg | hg
    · exact .inr (.inr (.inl ⟨g, hg, hf⟩))
    · exact hasFrame_of_packet hp (hf ▸ hresend g hg)
  · rcases List.mem_append.mp hf with hf | hf
    · exact .inr (.inr (.inr hf))
    · exact hasFrame_of_packet hp (hmisc _ hf)

theorem SendCnx.reuses_dequeue (shouldFree : Bool) :
    c.Reuses (c.dequeueRetransmitPacket i p shouldFree) := by
  have hsave : c.Reuses ((c.queueFrames [] []).dequeueRetransmitPacket i p shouldFree) :=
    reuses_save hp (by simp) (by simp) shouldFree
  rwa [queueFrames_nil] at hsave

end

theorem SendCnx.reuses_forget (c : SendCnx) (i : ℕ) :
    c.Reuses { c with retransmitted := c.retransmitted.eraseIdx i } := by
  refine ⟨rfl, rfl, le_rfl, ?_⟩
  rintro f (hf | ⟨p, hp, hf⟩ | hf)
  · exact .inl hf
  · exact .inr (.inl ⟨p, List.mem_of_mem_eraseIdx hp, hf⟩)
  · exact .inr (.inr hf)

/-- What was saved of a packet was in it. -/
theorem SendCnx.mem_frames_of_saved {copied misc : List Frame} (hall : if p.willRepeat then
      (copied ++ resend.map Frame.stream ++ misc).Perm (c.reachedNeeded p)
      else copied = [] ∧ resend = [] ∧ misc = []) {f : Frame}
    (hf : f ∈ copied ++ resend.map Frame.stream ++ misc) : f ∈ p.frames := by
  split_ifs at hall
  · exact mem_of_mem_reachedNeeded (hall.subset hf)
  · obtain ⟨rfl, rfl, rfl⟩ := hall
    cases hf

theorem SendCnx.Reuses.sendFrames {c' : SendCnx} (h : c.Reuses c') {frames : List Frame}
    (hframes : ∀ f, Frame.stream f ∈ frames → c.HasFrame (.stream f)) (ptype : PacketType)
    (offset : ℕ) : c.Reuses (c'.sendFrames ptype offset frames) := by
  obtain ⟨hstreams, hdata, hmax⟩ := sendFrames_streams c' ptype offset frames
  refine ⟨hstreams.trans h.streams, hdata.trans h.dataSent, h.maxdataRemote.trans hmax.ge, ?_⟩
  intro f hf
  rcases hasFrame_sendFrames hf with hf | hf
  exacts [h.frames f hf, hframes f hf]

theorem stream_not_mem_padding {n : ℕ} : Frame.stream f ∉ padding n := by
  rw [← mem_streamFrames, streamFrames_padding]
  exact List.not_mem_nil

/-- The frames that were copied are sent, with padding and possibly an ACK frame. -/
theorem SendCnx.Reuses.sendRepair {c' : SendCnx} (h : c.Reuses c') {copied pad : List Frame}
    (hcopied : ∀ f, Frame.stream f ∈ copied → c.HasFrame (.stream f))
    (hpad : streamFrames pad = []) {length headerLength : ℕ} (ptype : PacketType)
    (ackFrame : List UInt8) :
    c.Reuses (if length + framesLength pad ≤ headerLength then c'
      else c'.sendFrames ptype.repeatedAs headerLength
        (copied ++ pad ++ if ackFrame = [] then [] else [.control .ack ackFrame])) := by
  have hack : streamFrames (if ackFrame = [] then [] else [.control .ack ackFrame]) = [] := by
    split_ifs <;> rfl
  split_ifs at hack ⊢
  any_goals exact h
  all_goals
    refine h.sendFrames (fun f hf => hcopied f ?_) _ _
    rw [← mem_streamFrames, streamFrames_append, streamFrames_append, hpad, hack,
      List.append_nil, List.append_nil] at hf
    exact mem_streamFrames.mp hf

/-- A packet is declared lost. -/
theorem SendCnx.retransmitNeededPacket_reuses (hp : c.retransmitQueue[i]? = some p)
    (b : RetransmitBuffer) (ackFrame : List UInt8) :
    c.Reuses (c.retransmitNeededPacket i p b ackFrame) := by
  obtain ⟨resend, misc, hcnx, hall, -, -⟩ := c.repairPacket_spec p b
  rw [retransmitNeededPacket]
  rcases Decidable.em (p.isAckTrap = true) with htrap | htrap
  · rw [if_pos htrap]
    exact reuses_dequeue hp true
  rcases Decidable.em (c.delaysRetransmit p b = true) with hdelay | hdelay
  · rw [if_neg htrap, if_pos hdelay]
    exact .refl c
  rw [if_neg htrap, if_neg hdelay]
  generalize c.repairPacket p b = r at hcnx hall ⊢
  obtain ⟨c', repair⟩ := r
  dsimp only at hcnx hall ⊢
  subst hcnx
  have hsaved := fun f => mem_frames_of_saved hall (f := f)
  have hresend : ∀ f ∈ resend, Frame.stream f ∈ p.frames := fun f hf => hsaved _ (by simp [hf])
  have hmisc : ∀ f ∈ misc, f ∈ p.frames := fun f hf => hsaved f (by simp [hf])
  have hsave := reuses_save hp hresend hmisc
    (repair.packetIsPureAck && repair.doNotDetectSpurious)
  rcases Decidable.em (repair.packetIsPureAck = true) with hpure | hpure
  · rw [if_pos hpure]
    exact hsave
  rw [if_neg hpure]
  refine hsave.sendRepair (fun f hf => hasFrame_of_packet hp (hsaved _ (by simp [hf]))) ?_ p.ptype
    ackFrame
  split_ifs
  exacts [streamFrames_padding _, rfl]

/-- A packet is recycled. -/
theorem SendCnx.recyclePacket_reuses (hp : c.retransmitQueue[i]? = some p) :
    c.Reuses (c.recyclePacket i p) := by
  rw [recyclePacket]
  split_ifs with ht
  · rcases hrep : p.willRepeat with _ | _
    · rw [(copyBeforeRetransmit_of_not_willRepeat c hrep 0 true ⟨[], 0, false, false⟩).1]
      exact reuses_dequeue hp true
    · obtain ⟨resend, misc, hcnx, hall⟩ := c.recycled_saves hrep ht 0 ⟨[], 0, false, false⟩
      have hsaved : ∀ f ∈ ([] : List Frame) ++ resend.map Frame.stream ++ misc, f ∈ p.frames :=
        fun f hf => mem_of_mem_reachedNeeded (hall.subset hf)
      rw [hcnx]
      exact reuses_save hp (fun f hf => hsaved _ (by simp [hf]))
        (fun f hf => hsaved f (by simp [hf])) true
  · exact .refl c

/-- A preemptive repeat writes frames of the packet, and padding. -/
theorem SendCnx.mem_preemptiveFrame {ptype : PacketType} {room : ℕ} {r : PreemptiveRepeat}
    {k : Frame} (hf : Frame.stream f ∈ (c.preemptiveFrame ptype room r k).written) :
    Frame.stream f ∈ r.written ∨ Frame.stream f = k := by
  rw [preemptiveFrame] at hf
  dsimp only at hf
  split_ifs at hf
  any_goals
    simp only [List.mem_append, stream_not_mem_padding, List.not_mem_nil, or_false,
      List.mem_singleton] at hf
  exacts [hf, .inl hf, hf, .inl hf, .inl hf]

theorem SendCnx.mem_frames_of_preemptive (c : SendCnx) (p : SentPacket) (room : ℕ)
    (hf : Frame.stream f ∈ (c.preemptiveRetransmitPacket p room).written) :
    Frame.stream f ∈ p.frames := by
  have hloop : ∀ (frames : List Frame) (r : PreemptiveRepeat),
      Frame.stream f ∈ (frames.foldl (c.preemptiveFrame p.ptype room) r).written →
        Frame.stream f ∈ r.written ∨ Frame.stream f ∈ frames := by
    intro frames
    induction frames with
    | nil => exact fun r hr => .inl hr
    | cons k frames ih =>
      intro r hr
      rcases ih _ hr with hr | hr
      · rcases mem_preemptiveFrame hr with hr | rfl
        exacts [.inl hr, .inr List.mem_cons_self]
      · exact .inr (List.mem_cons_of_mem k hr)
  rw [preemptiveRetransmitPacket] at hf
  split_ifs at hf
  · cases hf
  · exact (hloop p.frames _ hf).resolve_left List.not_mem_nil

/-- A packet is repeated early. -/
theorem SendCnx.preemptiveRetransmit_reuses (hp : c.retransmitQueue[i]? = some p)
    (offset room : ℕ) : c.Reuses (c.preemptiveRetransmit i p offset room) := by
  have hwritten := fun f => c.mem_frames_of_preemptive p room (f := f)
  rw [preemptiveRetransmit]
  split_ifs with hoff
  · exact .refl c
  generalize c.preemptiveRetransmitPacket p room = r at hwritten ⊢
  have hmark : c.Reuses (if r.hasData && r.isRepeated then
      { c with
        retransmitQueue := c.retransmitQueue.set i { p with wasPreemptivelyRepeated := true } }
      else c) := by
    split_ifs
    · refine ⟨rfl, rfl, le_rfl, ?_⟩
      rintro f (⟨q, hq, hf⟩ | hf)
      · rcases List.mem_or_eq_of_mem_set hq with hq | rfl
        exacts [.inl ⟨q, hq, hf⟩, hasFrame_of_packet hp hf]
      · exact .inr hf
    · exact .refl c
  dsimp only
  generalize (if r.hasData && r.isRepeated then
    { c with
      retransmitQueue := c.retransmitQueue.set i { p with wasPreemptivelyRepeated := true } }
    else c) = c' at hmark ⊢
  split_ifs
  · exact hmark.sendFrames (fun f hf => hasFrame_of_packet hp (hwritten f hf)) _ _
  · exact hmark

/-! ### Acknowledgements -/

section

variable (h : c.Ledger opened log)

include h

theorem SendCnx.Ledger.processAckOfFrame (f : Frame) :
    (c.processAckOfFrame f).Ledger opened log ∧ (c.processAckOfFrame f).queues = c.queues := by
  have hacked : ∀ k, c.Reuses { c with ackedControl := c.ackedControl ++ [k] } := fun _ =>
    ⟨rfl, rfl, le_rfl, fun _ => id⟩
  rcases f with f | _ | _ | _
  · rw [SendCnx.processAckOfFrame]
    split
    · exact ⟨h, rfl⟩
    next s hs =>
    have ht := c.touches_deleteStreamIfClosed f.streamId
      { s with sackList := (updateSackList s.sackList f.offset f.last 0).1 }
    exact ⟨h.rest (ht.rests hs (.of_account rfl)), ht.queues⟩
  · exact ⟨h.rest (hacked _).rests, rfl⟩
  · exact ⟨h.rest (hacked _).rests, rfl⟩
  · exact ⟨h, rfl⟩

theorem SendCnx.Ledger.processAckOfFrames (p : SentPacket) :
    (c.processAckOfFrames p).Ledger opened log ∧ (c.processAckOfFrames p).queues = c.queues := by
  rw [SendCnx.processAckOfFrames]
  generalize p.frames = frames
  induction frames generalizing c with
  | nil => exact ⟨h, rfl⟩
  | cons f frames ih =>
    obtain ⟨hf, hqueues⟩ := h.processAckOfFrame f
    obtain ⟨hrest, hqueues'⟩ := ih hf
    exact ⟨hrest, hqueues'.trans hqueues⟩

/-! ### The application and the peer -/

theorem SendCnx.Ledger.modifyStream (streamId : ℕ)
    {f : SendStream → SendStream} (hf : ∀ s, c.streams streamId = some s → s.Rests (f s)) :
    (c.modifyStream streamId f).Ledger opened log := by
  rw [SendCnx.modifyStream]
  split
  · exact h
  next s hs => exact h.rest ((c.touches_putStream streamId rfl).rests hs (hf s hs))

/-- A stream is created. -/
theorem SendCnx.Ledger.createStream {streamId : ℕ}
    (hnew : streamId ∉ opened) (maxdataRemote : ℕ) (isOutputStream : Bool) :
    (c.putStream streamId (c.newStream streamId maxdataRemote isOutputStream)).Ledger
      (streamId :: opened) log := by
  have hzero : reach log streamId = 0 := by
    refine Nat.le_zero.mp (reach_le fun f hf hid => ?_)
    exact absurd (hid ▸ (h.placed f (.inl hf)).opened) hnew
  have hstreams : ∀ id s, (c.putStream streamId
      (c.newStream streamId maxdataRemote isOutputStream)).streams id = some s →
      id = streamId ∧ s = c.newStream streamId maxdataRemote isOutputStream ∨
        id ≠ streamId ∧ c.streams id = some s := by
    intro id s hs
    rcases Decidable.em (id = streamId) with rfl | hid
    · simp only [putStream, Function.update_self, Option.some.injEq] at hs
      exact .inl ⟨rfl, hs.symm⟩
    · simp only [putStream, Function.update_of_ne hid] at hs
      exact .inr ⟨hid, hs⟩
  refine ⟨List.nodup_cons.mpr ⟨hnew, h.nodup⟩, ?_, h.dataSent_le, ?_, ?_, ?_, ?_, ?_⟩
  · rw [List.map_cons, List.sum_cons, hzero, Nat.zero_add]
    exact h.dataSent_eq
  · intro id s hs
    rcases hstreams id s hs with ⟨rfl, rfl⟩ | ⟨-, hs⟩
    · exact ⟨List.mem_cons_self, hzero.symm⟩
    · exact (h.sentOffset_eq id s hs).imp_left (List.mem_cons_of_mem streamId)
  · intro id s hs
    rcases hstreams id s hs with ⟨rfl, rfl⟩ | ⟨-, hs⟩
    exacts [Nat.zero_le _, h.sentOffset_le id s hs]
  · intro f hf
    obtain ⟨hopened, hle, hfin⟩ := h.placed f hf
    exact ⟨List.mem_cons_of_mem streamId hopened, hle, hfin⟩
  · intro id s hs hne
    rcases hstreams id s hs with ⟨rfl, rfl⟩ | ⟨-, hs⟩
    exacts [absurd rfl hne, h.finished id s hs hne]
  · intro f hf hfin s hs
    rcases hstreams f.streamId s hs with ⟨hid, -⟩ | ⟨-, hs⟩
    exacts [absurd (hid ▸ (h.placed f hf).opened) hnew, h.recorded f hf hfin s hs]

end

/-- Behind a FIN that was sent, the application writes no data without a FIN, unless they are
refused anyway. -/
def SendEvent.EndsAtFin (c : SendCnx) : SendEvent → Prop
  | .addToStream streamId data setFin =>
    match c.streams streamId with
    | none => True
    | some s =>
      s.finOffsets ≠ [] → data ≠ [] → setFin = false →
        s.resetSent = true ∨ s.stopSendingReceived = true
  | _ => True

instance (c : SendCnx) (e : SendEvent) : Decidable (e.EndsAtFin c) := by
  unfold SendEvent.EndsAtFin
  split
  · split <;> infer_instance
  · infer_instance

/-- A write that is accepted behind a FIN adds nothing. -/
theorem SendStream.add_rests {s : SendStream} {data : List UInt8} {setFin : Bool}
    (h : s.finOffsets ≠ [] → data ≠ [] → setFin = false →
      s.resetSent = true ∨ s.stopSendingReceived = true) : s.Rests (s.add data setFin) := by
  rw [add]
  rcases Decidable.em ((setFin && s.finRequested && !data.isEmpty) = true) with htwice | htwice
  · rw [if_pos htwice]
    exact .of_account rfl
  rw [if_neg htwice]
  have hrequested : s.finRequested = true → (s.finRequested || setFin) = true := fun hfin => by
    rw [hfin, Bool.true_or]
  dsimp only
  rcases Decidable.em ((s.resetSent || s.stopSendingReceived) = true) with hrefused | hrefused
  · rw [if_pos hrefused]
    exact ⟨rfl, le_rfl, rfl, fun _ hdone => ⟨hdone.1, hrequested hdone.2⟩⟩
  rw [if_neg hrefused]
  rcases data with _ | ⟨b, data⟩
  · exact ⟨rfl, le_rfl, rfl, fun _ hdone => ⟨hdone.1, hrequested hdone.2⟩⟩
  · refine ⟨rfl, le_rfl, rfl, fun hne hdone => ?_⟩
    -- a FIN would have been the second one
    have hfin : setFin = false := by
      by_contra hset
      exact htwice (by simp [hset, hdone.2])
    exact absurd (Bool.or_eq_true_iff.mpr (h hne (List.cons_ne_nil b data) hfin)) hrefused

/-- The events that change no stream, and send nothing but frames that were sent before. -/
def SendEvent.IsReuse : SendEvent → Prop
  | .maxData _ | .controlState .. | .queueMiscFrame .. | .sendProbe .. | .lost .. | .recycled _
  | .preemptiveRepeat .. | .forgotten _ => True
  | _ => False

theorem SendCnx.reuses_step (c : SendCnx) {e : SendEvent} (he : e.IsReuse) :
    c.Reuses (c.step e) := by
  cases e with
  | maxData maxdata => exact ⟨rfl, rfl, le_max_left _ _, fun _ => id⟩
  | controlState => exact ⟨rfl, rfl, le_rfl, fun _ => id⟩
  | queueMiscFrame frame bytes =>
    refine ⟨rfl, rfl, le_rfl, ?_⟩
    rintro f (hf | hf | hf | hf)
    · exact .inl hf
    · exact .inr (.inl hf)
    · exact .inr (.inr (.inl hf))
    · rcases List.mem_append.mp hf with hf | hf
      exacts [.inr (.inr (.inr hf)), absurd (List.mem_singleton.mp hf) (by simp)]
  | sendProbe isMtuProbe isAckTrap isMultipathProbe frames =>
    refine ⟨rfl, rfl, le_rfl, ?_⟩
    rintro f (⟨p, hp, hf⟩ | hf)
    · rcases List.mem_cons.mp hp with rfl | hp
      · -- a probe carries no STREAM frames
        obtain ⟨g, -, hg⟩ := List.mem_map.mp hf
        cases hg
      · exact .inl ⟨p, hp, hf⟩
    · exact .inr hf
  | lost i buffer ackFrame =>
    rw [SendCnx.step]
    split
    · exact .refl c
    next p hp => exact retransmitNeededPacket_reuses hp buffer ackFrame
  | recycled i =>
    rw [SendCnx.step]
    split
    · exact .refl c
    next p hp => exact recyclePacket_reuses hp
  | preemptiveRepeat i offset room =>
    rw [SendCnx.step]
    split
    · exact .refl c
    next p hp => exact preemptiveRetransmit_reuses hp offset room
  | forgotten i => exact reuses_forget c i
  | _ => exact he.elim

/-- **One event** keeps the ledger, and the frames that enter the log are in a packet. -/
theorem SendCnx.Ledger.step (h : c.Ledger opened log) (e : SendEvent) (he : e.EndsAtFin c)
    (hnew : ∀ streamId maxdataRemote isOutputStream,
      e ≠ .createStream streamId maxdataRemote isOutputStream) :
    ∃ frames : List StreamFrame,
      (c.step e).Ledger opened (log ++ frames) ∧ ∀ f ∈ frames, (c.step e).Sent f := by
  -- most events send nothing
  have hquiet : (c.step e).Ledger opened log → ∃ frames : List StreamFrame,
      (c.step e).Ledger opened (log ++ frames) ∧ ∀ f ∈ frames, (c.step e).Sent f := fun hstep =>
    ⟨[], by rwa [List.append_nil], fun f hf => absurd hf List.not_mem_nil⟩
  cases e with
  | createStream streamId maxdataRemote isOutputStream => exact absurd rfl (hnew _ _ _)
  | addToStream streamId data setFin =>
    refine hquiet (h.modifyStream streamId fun s hs => SendStream.add_rests ?_)
    rw [SendEvent.EndsAtFin, hs] at he
    exact he
  | markActiveStream streamId isActive =>
    refine hquiet (h.modifyStream streamId fun s _ => ?_)
    split_ifs <;> exact .of_account rfl
  | resetStream streamId localError =>
    refine hquiet (h.modifyStream streamId fun s _ => ?_)
    split_ifs <;> exact .of_account rfl
  | stopSending streamId localError =>
    refine hquiet (h.modifyStream streamId fun s _ => ?_)
    split_ifs <;> exact .of_account rfl
  | stopSendingReceived streamId =>
    refine hquiet (h.modifyStream streamId fun s _ => ?_)
    split_ifs <;> exact .of_account rfl
  | receiving streamId =>
    refine hquiet ?_
    rw [SendCnx.step]
    split
    · exact h
    next s hs =>
    exact h.rest ((c.touches_deleteStreamIfClosed streamId _).rests hs (.of_account rfl))
  | maxStreamData streamId maxdata =>
    exact hquiet (h.modifyStream streamId fun s _ => ⟨rfl, le_max_left _ _, rfl, fun _ => id⟩)
  | maxData | controlState | queueMiscFrame | sendProbe | lost | recycled | preemptiveRepeat
  | forgotten =>
    refine hquiet (h.rest (SendCnx.Reuses.rests ?_))
    exact c.reuses_step trivial
  | preparePacket ptype offset capacity fills =>
    exact h.preparePacket ptype offset capacity fills
  | acknowledged i =>
    refine hquiet ?_
    rw [SendCnx.step]
    split
    · exact h
    next p hp =>
    split_ifs
    · exact h
    · -- the frames are processed before the packet leaves the queue
      obtain ⟨hack, hqueues⟩ := h.processAckOfFrames p
      have hp' : (c.processAckOfFrames p).retransmitQueue[i]? = some p :=
        (Prod.mk.inj hqueues).1 ▸ hp
      exact hack.rest (reuses_dequeue hp' true).rests
  | spuriousLoss i =>
    refine hquiet ?_
    rw [SendCnx.step]
    split
    · exact h
    next p hp => exact (h.processAckOfFrames p).1.rest (reuses_forget _ i).rests

end Events

/-! ### Runs -/

/-- The STREAM frames of the packets in flight. -/
def SendCnx.inFlight (c : SendCnx) : List StreamFrame :=
  c.retransmitQueue.flatMap fun p => streamFrames p.frames

theorem mem_inFlight {c : SendCnx} : f ∈ c.inFlight ↔ c.Sent f := by
  rw [inFlight, List.mem_flatMap]
  exact exists_congr fun p => and_congr_right fun _ => mem_streamFrames

/-- A connection with its history: the streams that were opened, and the STREAM frames that were
produced. Every packet enters the queue in the event that produces it. -/
structure SendHistory where
  cnx : SendCnx
  opened : List ℕ
  produced : List StreamFrame

/-- A new connection. -/
def SendHistory.initial (clientMode isPreemptiveRepeatEnabled : Bool) (maxdataRemote : ℕ)
    (controlState : ControlState) : SendHistory :=
  ⟨SendCnx.initial clientMode isPreemptiveRepeatEnabled maxdataRemote controlState, [], []⟩

/-- The stream that an event creates. -/
def SendEvent.opens : SendEvent → Option ℕ
  | .createStream streamId _ _ => some streamId
  | _ => none

/-- One event. `picoquic_create_missing_streams` creates every stream once. -/
def SendHistory.step (h : SendHistory) (e : SendEvent) : SendHistory :=
  if ∃ streamId ∈ e.opens, streamId ∈ h.opened then h
  else
    let c := h.cnx.step e
    ⟨c, e.opens.toList ++ h.opened, h.produced ++ c.inFlight⟩

/-- How far a stream was sent. A stream that was deleted was sent as far as its frames reach. -/
def SendHistory.sentOffset (h : SendHistory) (streamId : ℕ) : ℕ :=
  match h.cnx.streams streamId with
  | some s => s.sentOffset
  | none => reach h.produced streamId

/-- The history agrees with the connection. -/
def SendHistory.Sound (h : SendHistory) : Prop := h.cnx.Ledger h.opened h.produced

theorem SendHistory.Sound.initial (clientMode isPreemptiveRepeatEnabled : Bool) (maxdataRemote : ℕ)
    (controlState : ControlState) :
    (SendHistory.initial clientMode isPreemptiveRepeatEnabled maxdataRemote
      controlState).Sound := by
  refine ⟨List.nodup_nil, rfl, Nat.zero_le _, ?_, ?_, ?_, ?_, ?_⟩
  · intro _ _ hs
    cases hs
  · intro _ _ hs
    cases hs
  · intro f hf
    simp [SendCnx.Knows, SendCnx.HasFrame, SendHistory.initial, SendCnx.initial] at hf
  · intro _ _ hs
    cases hs
  · intro _ _ _ _ hs
    cases hs

theorem SendCnx.Ledger.relog {opened : List ℕ} {log log' : List StreamFrame} {c : SendCnx}
    (h : c.Ledger opened log) (hsub : ∀ f ∈ log, f ∈ log') (hknown : ∀ f ∈ log', c.Knows log f) :
    c.Ledger opened log' := by
  refine h.rests (.refl log c) (fun streamId => le_antisymm ?_ ?_) fun f hf =>
    ⟨f, hknown f hf, .refl f⟩
  · exact reach_le fun f hf hid => hid ▸ (h.placed f (hknown f hf)).finish_le
  · exact reach_le fun f hf hid => hid ▸ le_reach (hsub f hf)

theorem SendCnx.Ledger.record {opened : List ℕ} {log frames : List StreamFrame} {c : SendCnx}
    (h : c.Ledger opened (log ++ frames)) (hsent : ∀ f ∈ frames, c.Sent f) :
    c.Ledger opened (log ++ c.inFlight) := by
  refine h.relog (fun f hf => ?_) fun f hf => ?_
  · rcases List.mem_append.mp hf with hf | hf
    exacts [List.mem_append_left _ hf, List.mem_append_right _ (mem_inFlight.mpr (hsent f hf))]
  · rcases List.mem_append.mp hf with hf | hf
    exacts [.inl (List.mem_append_left _ hf), .inr (.inl (mem_inFlight.mp hf))]

/-- **The invariant of a run.** -/
theorem SendHistory.Sound.step {h : SendHistory} (hsound : h.Sound) {e : SendEvent}
    (he : e.EndsAtFin h.cnx) : (h.step e).Sound := by
  rw [SendHistory.step]
  split_ifs with hopened
  · exact hsound
  rcases hopens : e.opens with _ | streamId
  · obtain ⟨frames, hledger, hsent⟩ := SendCnx.Ledger.step hsound e he fun _ _ _ heq => by
      rw [heq] at hopens
      cases hopens
    exact hledger.record hsent
  · have hnew : streamId ∉ h.opened := fun hmem => hopened ⟨streamId, hopens, hmem⟩
    obtain ⟨maxdataRemote, isOutputStream, rfl⟩ : ∃ maxdataRemote isOutputStream,
        e = .createStream streamId maxdataRemote isOutputStream := by
      cases e with
      | createStream streamId' maxdataRemote isOutputStream =>
        obtain rfl := Option.some.inj hopens
        exact ⟨maxdataRemote, isOutputStream, rfl⟩
      | _ => cases hopens
    have hnone : h.cnx.streams streamId = none :=
      Option.eq_none_iff_forall_not_mem.mpr fun s hs =>
        hnew (hsound.sentOffset_eq streamId s hs).1
    have hstep : h.cnx.step (.createStream streamId maxdataRemote isOutputStream) =
        h.cnx.putStream streamId (h.cnx.newStream streamId maxdataRemote isOutputStream) := by
      rw [SendCnx.step, hnone]
      rfl
    have hledger := SendCnx.Ledger.createStream hsound hnew maxdataRemote isOutputStream
    rw [← List.append_nil h.produced, ← hstep] at hledger
    exact hledger.record fun f hf => absurd hf List.not_mem_nil

/-- **Flow control and final size**, in a run in which the application writes nothing behind a
FIN. Every stream and the connection stay within their limits, the connection counts what its
streams sent, and no frame goes beyond the end of a frame with FIN. -/
theorem flow_control_law (clientMode isPreemptiveRepeatEnabled : Bool) (maxdataRemote : ℕ)
    (controlState : ControlState) (evs : List SendEvent)
    (h : Along SendHistory.step (fun h e => e.EndsAtFin h.cnx)
      (.initial clientMode isPreemptiveRepeatEnabled maxdataRemote controlState) evs) :
    let h := run SendHistory.step
      (.initial clientMode isPreemptiveRepeatEnabled maxdataRemote controlState) evs
    (∀ streamId s, h.cnx.streams streamId = some s →
      streamId ∈ h.opened ∧ s.sentOffset ≤ s.maxdataRemote ∧
        s.sentOffset = reach h.produced streamId) ∧
      h.opened.Nodup ∧ h.cnx.dataSent = (h.opened.map h.sentOffset).sum ∧
      h.cnx.dataSent ≤ h.cnx.maxdataRemote ∧
      ∀ f ∈ h.produced, f.fin = true → ∀ g ∈ h.produced, g.streamId = f.streamId →
        g.finish ≤ f.finish := by
  intro h'
  have hsound : h'.Sound := run_invariant_of_along (I := SendHistory.Sound)
    (P := fun h e => e.EndsAtFin h.cnx) (fun _ _ hs he => hs.step he)
    (SendHistory.Sound.initial clientMode isPreemptiveRepeatEnabled maxdataRemote controlState) h
  have hoffset : h'.sentOffset = reach h'.produced := by
    funext streamId
    rw [SendHistory.sentOffset]
    split
    · next s hs => exact (hsound.sentOffset_eq streamId s hs).2
    · rfl
  refine ⟨fun streamId s hs => ?_, hsound.nodup, ?_, hsound.dataSent_le, ?_⟩
  · obtain ⟨hopened, heq⟩ := hsound.sentOffset_eq streamId s hs
    exact ⟨hopened, hsound.sentOffset_le streamId s hs, heq⟩
  · rw [hoffset]
    exact hsound.dataSent_eq
  · intro f hf hfin g hg hid
    rw [(hsound.placed f (.inl hf)).fin hfin, ← hid]
    exact (hsound.placed g (.inl hg)).finish_le

/-- Stream 0 is written to and finished, and its frame leaves at most 17 bytes in the packet, so
that the stream stays among the output streams. Then more is written, with or without a FIN. -/
def lateWriteRun (setFin : Bool) : List SendEvent :=
  [.createStream 0 100 true, .addToStream 0 [1, 2, 3] true,
    .preparePacket .oneRttProtected 20 20 [.stream 0 none], .addToStream 0 [4] setFin,
    .preparePacket .oneRttProtected 20 20 [.stream 0 none]]

theorem flow_control_law_sample :
    let h := SendHistory.initial true true 1000 freshControlState
    Along SendHistory.step (fun h e => e.EndsAtFin h.cnx) h (lateWriteRun true) ∧
      ∀ f ∈ (run SendHistory.step h (lateWriteRun true)).produced, f.fin = true →
        ∀ g ∈ (run SendHistory.step h (lateWriteRun true)).produced, g.streamId = f.streamId →
          g.finish ≤ f.finish := by
  intro h
  have halong : Along SendHistory.step (fun h e => e.EndsAtFin h.cnx) h (lateWriteRun true) := by
    decide +kernel
  exact ⟨halong, (flow_control_law true true 1000 freshControlState (lateWriteRun true)
    halong).2.2.2.2⟩

/-- A write without FIN is accepted behind the FIN, and a frame goes beyond it. -/
theorem sent_beyond_fin :
    let h := run SendHistory.step (SendHistory.initial true true 1000 freshControlState)
      (lateWriteRun false)
    h.produced.dedup = [⟨0, 3, [4], true, true⟩, ⟨0, 0, [1, 2, 3], true, true⟩] ∧
      ¬ ∀ f ∈ h.produced, f.fin = true → ∀ g ∈ h.produced, g.streamId = f.streamId →
        g.finish ≤ f.finish := by
  decide +kernel

end Picoquic
