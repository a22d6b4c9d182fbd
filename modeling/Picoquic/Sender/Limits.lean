import Picoquic.Sender.Offsets

/-!
# Packets keep the ledger

A frame with new data is never larger than what the peer allows for the stream and for the
connection, and a saved frame is sent again in pieces.

* **`Ledger.formatStreamFrame`** — new data, the FIN, or a request;
* **`Ledger.queuedForRetransmit`** — saved frames;
* **`Ledger.preparePacket`** — a whole packet.
-/

namespace Picoquic

open SendCnx

/-! ### New data -/

@[simp]
theorem streamFrames_nil : streamFrames [] = [] := rfl

theorem streamFrames_padding (n : ℕ) : streamFrames (padding n) = [] := by
  rw [padding]
  split_ifs <;> rfl

theorem streamFrames_encodeLength (byteSpace : ℕ) (f : StreamFrame) :
    ∃ b, streamFrames (encodeLengthOfStreamFrame byteSpace f) = [{ f with hasLength := b }] := by
  rw [encodeLengthOfStreamFrame]
  split_ifs
  · exact ⟨false, by rw [streamFrames_append, streamFrames_padding]; rfl⟩
  · exact ⟨true, rfl⟩
  · exact ⟨false, rfl⟩

variable {frames : List Frame}

variable {f g : StreamFrame}

section Formatting

variable {opened : List ℕ} {log : List StreamFrame} {c c' : SendCnx} {streamId : ℕ}
  {s s' : SendStream}

section

variable (h : c.Ledger opened log)

include h

theorem SendCnx.Ledger.idle (hc : c.Rests log c') {written : List Frame}
    (hw : streamFrames written = []) : c'.Ledger opened (log ++ streamFrames written) :=
  h.append_pieces hc (by simp [hw])

/-- A frame with new data is written. -/
theorem SendCnx.Ledger.write {f : StreamFrame}
    (hs : c.streams f.streamId = some s) (hsends : s.Sends f s')
    (hstream : f.data.length ≤ s.maxdataRemote - s.sentOffset)
    (hcnx : f.data.length ≤ c.maxdataRemote - c.dataSent)
    (hdone : s.finOffsets ≠ [] → f.data.length = 0) (byteSpace : ℕ) (mayClose : Bool) :
    (SendCnx.unblock { c with dataSent := c.dataSent + f.data.length } f.streamId s'
      mayClose).Ledger opened (log ++ streamFrames (encodeLengthOfStreamFrame byteSpace f)) := by
  obtain ⟨b, hb⟩ := streamFrames_encodeLength byteSpace f
  have hsends' : s.Sends { f with hasLength := b } s' :=
    ⟨hsends.offset, hsends.sentOffset, hsends.maxdataRemote, hsends.finOffsets, hsends.finished⟩
  rw [hb]
  exact h.advance (f := { f with hasLength := b }) hs hsends' hstream hcnx hdone
    (touches_unblock _ f.streamId s' mayClose)

/-- `picoquic_format_stream_frame` when the application is asked. -/
theorem SendCnx.Ledger.formatPolledFrame
    (hs : c.streams streamId = some s) (hqueue : s.sendQueue = []) (hopen : s.finOffsets = [])
    (byteSpace : ℕ) {allowed : ℕ} (hstream : allowed ≤ s.maxdataRemote - s.sentOffset)
    (hcnx : allowed ≤ c.maxdataRemote - c.dataSent) (polled : Option Polled) :
    (c.formatPolledFrame streamId s byteSpace allowed polled).1.Ledger opened
      (log ++ streamFrames (c.formatPolledFrame streamId s byteSpace allowed polled).2) := by
  have hrest : c.Rests log (c.unblock streamId s false) :=
    (c.touches_unblock streamId s false).rests hs (.of_account rfl)
  rw [SendCnx.formatPolledFrame]
  split
  · exact h.idle hrest rfl
  next d hd =>
  have hle : d.data.length ≤ allowed := of_decide_eq_true (Option.filter_eq_some_iff.mp hd).2
  split_ifs with hempty hfin
  · exact h.idle hrest rfl
  · refine h.write (f := ⟨streamId, s.sentOffset, d.data, d.isFin, false⟩) hs ?_
      (hle.trans hstream) (hle.trans hcnx) (absurd hopen) byteSpace d.isFin
    exact ⟨rfl, rfl, rfl, by simp [SendStream.advance, hfin], fun _ => ⟨hqueue, rfl⟩⟩
  · refine h.write (f := ⟨streamId, s.sentOffset, d.data, d.isFin, false⟩) hs ?_
      (hle.trans hstream) (hle.trans hcnx) (absurd hopen) byteSpace d.isFin
    have hnone : (s.advance d.data.length d.isFin).finOffsets = [] := by
      rw [SendStream.advance, if_neg hfin, hopen]
    exact ⟨rfl, rfl, rfl, ⟨absurd hnone, fun hor => hor.elim (absurd · hfin) (absurd hopen)⟩,
      absurd hnone⟩

/-- `picoquic_format_stream_frame` when data are queued, or the FIN is due. -/
theorem SendCnx.Ledger.formatQueuedFrame
    (hs : c.streams streamId = some s) (byteSpace : ℕ) {allowed : ℕ}
    (hstream : allowed ≤ s.maxdataRemote - s.sentOffset)
    (hcnx : allowed ≤ c.maxdataRemote - c.dataSent) :
    (c.formatQueuedFrame streamId s byteSpace allowed).1.Ledger opened
      (log ++ streamFrames (c.formatQueuedFrame streamId s byteSpace allowed).2) := by
  have hle := takeFromQueue_length_le allowed s.sendQueue
  have hdone : s.finOffsets ≠ [] →
      takeFromQueue allowed s.sendQueue = ([], []) ∧ s.finRequested = true := by
    intro hne
    obtain ⟨hqueue, hfin⟩ := h.finished streamId s hs hne
    rw [hqueue]
    exact ⟨rfl, hfin⟩
  rw [SendCnx.formatQueuedFrame]
  generalize takeFromQueue allowed s.sendQueue = taken at hle hdone ⊢
  obtain ⟨data, sendQueue⟩ := taken
  dsimp only at hle hdone ⊢
  have hfinished : s.finOffsets ≠ [] → (data = [] ∧ sendQueue = []) ∧ s.finRequested = true :=
    fun hne => (hdone hne).imp_left Prod.mk.inj
  split_ifs with hnothing
  · -- the stream is blocked, and did not end before
    have hopen : s.finOffsets = [] := by
      by_contra hne
      exact hnothing.1 (hfinished hne).1.2
    have hfin : (sendQueue.isEmpty && s.finRequested) = false := by simp [hnothing.1]
    have hrest : s.Rests { s.advance data.length (sendQueue.isEmpty && s.finRequested) with
        sendQueue := sendQueue } := by
      rw [hfin, hnothing.2]
      exact ⟨rfl, le_rfl, rfl, absurd hopen⟩
    rw [hnothing.2] at hrest ⊢
    exact h.idle ((touches_unblock _ streamId _ _).rests hs hrest) rfl
  · have hsends : s.Sends
        ⟨streamId, s.sentOffset, data, sendQueue.isEmpty && s.finRequested, false⟩
        { s.advance data.length (sendQueue.isEmpty && s.finRequested) with
          sendQueue := sendQueue } := by
      refine ⟨rfl, rfl, rfl, ?_, fun hne => ?_⟩
      · dsimp only [SendStream.advance]
        split_ifs with hfin <;> simp [hfin]
      · rcases Decidable.em ((sendQueue.isEmpty && s.finRequested) = true) with hfin | hfin
        · rw [Bool.and_eq_true, List.isEmpty_iff] at hfin
          exact hfin
        · dsimp only [SendStream.advance] at hne
          rw [if_neg hfin] at hne
          exact ⟨(hfinished hne).1.2, (hfinished hne).2⟩
    exact h.write hs hsends (hle.trans hstream) (hle.trans hcnx)
      (fun hne => List.length_eq_zero_iff.mpr (hfinished hne).1.1) byteSpace _

end

theorem SendCnx.Rests.of_sentControl {sentControl : List Frame}
    (h : SendCnx.Rests log { c with sentControl := sentControl } c') : c.Rests log c' :=
  ⟨h.dataSent, h.maxdataRemote, h.streams, h.frames⟩

theorem SendCnx.Rests.refl (log : List StreamFrame) (c : SendCnx) : c.Rests log c :=
  ⟨rfl, le_rfl, fun _ s hs => ⟨s, hs, .of_account rfl⟩, fun f hf => ⟨f, .inr hf, .refl f⟩⟩

theorem SendCnx.Ledger.formatStreamResetFrame (h : c.Ledger opened log)
    (hs : c.streams streamId = some s) (room : ℕ) :
    (c.formatStreamResetFrame streamId s room).1.Ledger opened
      (log ++ streamFrames (c.formatStreamResetFrame streamId s room).2) := by
  have hrest : s.Rests { s with resetSent := true, finSent := true, sendQueue := [] } :=
    ⟨rfl, le_rfl, rfl, fun _ hdone => ⟨rfl, hdone.2⟩⟩
  rw [SendCnx.formatStreamResetFrame]
  dsimp only
  split_ifs
  · have ht := touches_deleteStreamIfClosed
      { c with
        sentControl := c.sentControl ++ [.resetStream streamId s.localError s.sentOffset] }
      streamId { s with resetSent := true, finSent := true, sendQueue := [] }
    exact h.idle (.of_sentControl (ht.rests hs hrest)) rfl
  · exact h.idle (.refl log c) rfl

theorem SendCnx.Ledger.formatStopSendingFrame (h : c.Ledger opened log)
    (hs : c.streams streamId = some s) (room : ℕ) :
    (c.formatStopSendingFrame streamId s room).1.Ledger opened
      (log ++ streamFrames (c.formatStopSendingFrame streamId s room).2) := by
  have haccount : SendStream.account { s with stopSendingSent := true } = s.account := rfl
  rw [SendCnx.formatStopSendingFrame]
  dsimp only
  split_ifs
  · exact h.idle ((c.touches_putStream streamId haccount).rests hs (.of_account rfl)) rfl
  · have ht := touches_putStream
      { c with sentControl := c.sentControl ++ [.stopSending streamId s.localStopError] }
      streamId haccount
    exact h.idle (.of_sentControl (ht.rests hs (.of_account rfl))) rfl
  · exact h.idle (.refl log c) rfl

/-- **A frame of a stream respects the limits**, and does not go beyond a FIN. -/
theorem SendCnx.Ledger.formatStreamFrame (h : c.Ledger opened log) (streamId : ℕ)
    (polled : Option Polled) (room : ℕ) :
    (c.formatStreamFrame streamId polled room).1.Ledger opened
      (log ++ streamFrames (c.formatStreamFrame streamId polled room).2) := by
  rw [SendCnx.formatStreamFrame]
  split
  · exact h.idle (.refl log c) rfl
  next s hs =>
  have hstream := sub64_le_sub (h.sentOffset_le streamId s hs)
  have hcnx := sub64_le_sub h.dataSent_le
  dsimp only
  split_ifs with hid hreset hstop hnothing hroom hpoll
  · exact h.idle (.refl log c) rfl
  · exact h.formatStreamResetFrame hs room
  · exact h.formatStopSendingFrame hs room
  · exact h.idle (.refl log c) rfl
  · exact h.idle ((c.touches_unblock streamId s false).rests hs (.of_account rfl)) rfl
  · -- a stream that is polled did not end
    simp only [Bool.and_eq_true, List.isEmpty_iff, Bool.not_eq_true'] at hpoll
    obtain ⟨⟨-, hqueue⟩, hfin⟩ := hpoll
    have hopen : s.finOffsets = [] := by
      by_contra hne
      rw [(h.finished streamId s hs hne).2] at hfin
      cases hfin
    exact h.formatPolledFrame hs hqueue hopen _ (by omega) (by omega) polled
  · exact h.formatQueuedFrame hs _ (by omega) (by omega)

/-! ### Saved frames -/

theorem StreamFrame.resend_piece {room : ℕ} (hg : Frame.stream g ∈ f.resend room) :
    g.PieceOf f := by
  rw [← mem_streamFrames, resend] at hg
  split_ifs at hg
  · obtain rfl := List.mem_singleton.mp hg
    exact .refl g
  · rw [streamFrames_append, streamFrames_padding, List.nil_append] at hg
    obtain rfl := List.mem_singleton.mp hg
    exact .refl g
  · obtain rfl := List.mem_singleton.mp hg
    exact ⟨rfl, le_rfl, fun hfin => ⟨hfin, rfl⟩⟩
  · cases hg

/-- Both parts of a split frame, of which the second ends where the frame ends. -/
theorem StreamFrame.split_piece (f : StreamFrame) {n : ℕ} (hn : n ≤ f.data.length) :
    (f.front n).PieceOf f ∧ (f.back n).PieceOf f := by
  have hback : (f.back n).finish = f.finish := by
    simp only [finish, back, List.length_drop]
    omega
  refine ⟨⟨rfl, ?_, fun hfin => ?_⟩, rfl, hback.le, fun hfin => ⟨hfin, hback⟩⟩
  · simp only [finish, front, List.length_take]
    omega
  · cases hfin

/-- What is formatted in place of a frame: the frame is sent again, split in two, or kept. -/
theorem SendCnx.formatStreamFrameForRetransmit_of {P : StreamFrame → Prop} (c : SendCnx) {room : ℕ}
    (hresend : ∀ {room g}, Frame.stream g ∈ f.resend room → P g)
    (hsplit : ∀ {n}, n ≤ f.data.length → P (f.front n) ∧ P (f.back n)) (hself : P f)
    (hg : Frame.stream g ∈ (c.formatStreamFrameForRetransmit room f).frames) : P g := by
  rw [formatStreamFrameForRetransmit] at hg
  split_ifs at hg with hneeded hroom hsplits
  · cases hg
  · exact hresend hg
  · obtain ⟨hfront, hback⟩ := hsplit (StreamFrame.available_lt hroom hsplits).le
    rcases List.mem_pair.mp hg with hg | hg
    · exact Frame.stream.inj hg ▸ hfront
    · exact Frame.stream.inj hg ▸ hback
  · obtain rfl := Frame.stream.inj (List.mem_singleton.mp hg)
    exact hself

/-- What is written from the queue, and what stays in it, comes from a frame of the queue. -/
theorem SendCnx.queuedForRetransmit_of {R : StreamFrame → StreamFrame → Prop} (c : SendCnx)
    (hR : ∀ {f g room}, Frame.stream g ∈ (c.formatStreamFrameForRetransmit room f).frames → R g f)
    (hrefl : ∀ f, R f f) (room : ℕ) (queue : List StreamFrame)
    (hg : Frame.stream g ∈ (c.queuedForRetransmit room queue).1 ∨
      g ∈ (c.queuedForRetransmit room queue).2) : ∃ f ∈ queue, R g f := by
  induction queue generalizing room with
  | nil => simp [queuedForRetransmit] at hg
  | cons f queue ih =>
    have hhead := @hR f g room
    have hstays : g ∈ queue → ∃ f' ∈ f :: queue, R g f' := fun hk =>
      ⟨g, List.mem_cons_of_mem f hk, hrefl g⟩
    rw [queuedForRetransmit] at hg
    split_ifs at hg
    · exact hg.elim (fun hg => absurd hg List.not_mem_nil) fun hg => ⟨g, hg, hrefl g⟩
    split at hg
    · next written f' hsent =>
      rw [hsent, Resent.frames, List.mem_append, List.mem_singleton] at hhead
      rcases hg with hg | hg
      · exact ⟨f, List.mem_cons_self, hhead (.inl hg)⟩
      · rcases List.mem_cons.mp hg with rfl | hg
        exacts [⟨f, List.mem_cons_self, hhead (.inr rfl)⟩, hstays hg]
    · next written hsent =>
      rw [hsent] at hhead
      have hrest := ih (room - framesLength written)
      rcases hg with hg | hg
      · rcases List.mem_append.mp hg with hg | hg
        · exact ⟨f, List.mem_cons_self, hhead hg⟩
        · obtain ⟨f', hf', hfrom⟩ := hrest (.inl hg)
          exact ⟨f', List.mem_cons_of_mem f hf', hfrom⟩
      · obtain ⟨f', hf', hfrom⟩ := hrest (.inr hg)
        exact ⟨f', List.mem_cons_of_mem f hf', hfrom⟩

theorem SendCnx.formatStreamFrameForRetransmit_piece (c : SendCnx) {room : ℕ}
    (hg : Frame.stream g ∈ (c.formatStreamFrameForRetransmit room f).frames) : g.PieceOf f :=
  c.formatStreamFrameForRetransmit_of (P := (·.PieceOf f)) StreamFrame.resend_piece f.split_piece
    (.refl f) hg

/-! ### Packets -/

/-- Streams and counters stay, and the STREAM frames were there before. -/
structure SendCnx.Reuses (c c' : SendCnx) : Prop where
  streams : c'.streams = c.streams
  dataSent : c'.dataSent = c.dataSent
  maxdataRemote : c.maxdataRemote ≤ c'.maxdataRemote
  frames : ∀ f, c'.HasFrame (.stream f) → c.HasFrame (.stream f)

theorem SendCnx.Reuses.refl (c : SendCnx) : c.Reuses c := ⟨rfl, rfl, le_rfl, fun _ => id⟩

theorem SendCnx.Reuses.rests (h : c.Reuses c') : c.Rests log c' where
  dataSent := h.dataSent
  maxdataRemote := h.maxdataRemote
  streams _ s hs := ⟨s, h.streams ▸ hs, .of_account rfl⟩
  frames f hf := ⟨f, .inr (h.frames f hf), .refl f⟩

/-- The queue of STREAM frames goes into a packet. -/
theorem SendCnx.Ledger.queuedForRetransmit (h : c.Ledger opened log) (room : ℕ) :
    (c.formatStreamFramesQueuedForRetransmit room).1.Ledger opened
      (log ++ streamFrames (c.formatStreamFramesQueuedForRetransmit room).2) := by
  have hpiece : ∀ g, Frame.stream g ∈
      (c.queuedForRetransmit room c.streamFrameRetransmitQueue).1 ∨
        g ∈ (c.queuedForRetransmit room c.streamFrameRetransmitQueue).2 →
      ∃ f, c.Knows log f ∧ g.PieceOf f := by
    intro g hg
    obtain ⟨f, hf, hpiece⟩ := c.queuedForRetransmit_of c.formatStreamFrameForRetransmit_piece .refl
      room c.streamFrameRetransmitQueue hg
    exact ⟨f, .inr (.inr (.inr (.inl ⟨f, hf, rfl⟩))), hpiece⟩
  have hrest : c.Rests log (c.formatStreamFramesQueuedForRetransmit room).1 := by
    refine ⟨rfl, le_rfl, (SendCnx.Rests.refl log c).streams, ?_⟩
    rintro f (hf | hf | ⟨g, hg, hf⟩ | hf)
    · exact ⟨f, .inr (.inl hf), .refl f⟩
    · exact ⟨f, .inr (.inr (.inl hf)), .refl f⟩
    · exact hpiece f (.inr (Frame.stream.inj hf ▸ hg))
    · exact ⟨f, .inr (.inr (.inr (.inr hf))), .refl f⟩
  exact h.append_pieces hrest fun f hf => hpiece f (.inl (mem_streamFrames.mp hf))

/-- The first misc frame goes into a packet. -/
theorem SendCnx.Ledger.firstMiscFrame (h : c.Ledger opened log) (room : ℕ) :
    (c.formatFirstMiscFrame room).1.Ledger opened
      (log ++ streamFrames (c.formatFirstMiscFrame room).2) := by
  rw [formatFirstMiscFrame]
  split
  · exact h.idle (.refl log c) rfl
  next f rest hmisc =>
  split_ifs
  · have hreuses : c.Reuses { c with miscFrames := rest } := by
      refine ⟨rfl, rfl, le_rfl, ?_⟩
      rintro g (hg | hg | hg | hg)
      · exact .inl hg
      · exact .inr (.inl hg)
      · exact .inr (.inr (.inl hg))
      · exact .inr (.inr (.inr (hmisc ▸ List.mem_cons_of_mem f hg)))
    refine h.append_pieces hreuses.rests fun g hg => ⟨g, .inr ?_, .refl g⟩
    rw [mem_streamFrames, List.mem_singleton] at hg
    exact .inr (.inr (.inr (hmisc ▸ hg ▸ List.mem_cons_self)))
  · exact h.idle (.refl log c) rfl

theorem SendCnx.Ledger.format (h : c.Ledger opened log) (room : ℕ) (f : Fill) :
    (c.format room f).1.Ledger opened (log ++ streamFrames (c.format room f).2) := by
  rcases f with _ | _ | ⟨streamId, polled⟩ | ⟨frame, bytes⟩
  · exact h.firstMiscFrame room
  · exact h.queuedForRetransmit room
  · exact h.formatStreamFrame streamId polled room
  · refine h.idle (.refl log c) ?_
    dsimp only [SendCnx.format]
    split_ifs <;> rfl

/-- What is sent was there before, or is in the packet. -/
theorem hasFrame_sendFrames {ptype : PacketType} {offset : ℕ} {f : Frame}
    (hf : (c.sendFrames ptype offset frames).HasFrame f) : c.HasFrame f ∨ f ∈ frames := by
  rw [sendFrames] at hf
  split_ifs at hf
  · exact .inl hf
  rcases hf with ⟨p, hp, hf⟩ | hf
  · rcases List.mem_cons.mp hp with rfl | hp
    exacts [.inr hf, .inl (.inl ⟨p, hp, hf⟩)]
  · exact .inl (.inr hf)

theorem sendFrames_streams (c : SendCnx) (ptype : PacketType) (offset : ℕ) (frames : List Frame) :
    (c.sendFrames ptype offset frames).streams = c.streams ∧
      (c.sendFrames ptype offset frames).dataSent = c.dataSent ∧
      (c.sendFrames ptype offset frames).maxdataRemote = c.maxdataRemote := by
  rw [sendFrames]
  split_ifs
  exacts [⟨rfl, rfl, rfl⟩, ⟨rfl, rfl, rfl⟩]

theorem SendCnx.Ledger.sendFrames (h : c.Ledger opened log)
    (hframes : ∀ f ∈ streamFrames frames, f ∈ log) (ptype : PacketType) (offset : ℕ) :
    (c.sendFrames ptype offset frames).Ledger opened log := by
  obtain ⟨hstreams, hdata, hmax⟩ := sendFrames_streams c ptype offset frames
  refine h.rest ⟨hdata, hmax.ge, fun _ s hs => ⟨s, hstreams ▸ hs, .of_account rfl⟩, fun f hf => ?_⟩
  rcases hasFrame_sendFrames hf with hf | hf
  exacts [⟨f, .inr hf, .refl f⟩, ⟨f, .inl (hframes f (mem_streamFrames.mpr hf)), .refl f⟩]

/-- A STREAM frame is in a packet. -/
def SendCnx.Sent (c : SendCnx) (f : StreamFrame) : Prop :=
  ∃ p ∈ c.retransmitQueue, Frame.stream f ∈ p.frames

theorem sent_sendFrames (c : SendCnx) {f : StreamFrame} (hf : f ∈ streamFrames frames)
    (ptype : PacketType) (offset : ℕ) : (c.sendFrames ptype offset frames).Sent f := by
  rw [mem_streamFrames] at hf
  rw [sendFrames, if_neg (List.ne_nil_of_mem hf)]
  exact ⟨_, List.mem_cons_self, hf⟩

/-- **A whole packet**: the frames that enter the log are in it. -/
theorem SendCnx.Ledger.preparePacket (h : c.Ledger opened log) (ptype : PacketType)
    (offset capacity : ℕ) (fills : List Fill) :
    ∃ frames : List StreamFrame,
      (c.preparePacket ptype offset capacity fills).Ledger opened (log ++ frames) ∧
        ∀ f ∈ frames, (c.preparePacket ptype offset capacity fills).Sent f := by
  have hfill : ∀ (fills : List Fill) (r : SendCnx × List Frame),
      r.1.Ledger opened (log ++ streamFrames r.2) →
        (fills.foldl (fill capacity) r).1.Ledger opened
          (log ++ streamFrames (fills.foldl (fill capacity) r).2) := by
    intro fills
    induction fills with
    | nil => exact fun r hr => hr
    | cons f fills ih =>
      intro r hr
      have hf := hr.format (capacity - framesLength r.2) f
      rw [List.append_assoc, ← streamFrames_append] at hf
      exact ih _ hf
  have hstart : c.Ledger opened (log ++ streamFrames ([] : List Frame)) := by
    rwa [streamFrames_nil, List.append_nil]
  have hend := hfill fills (c, []) hstart
  exact ⟨_, hend.sendFrames (fun f hf => List.mem_append_right log hf) ptype offset,
    fun f hf => sent_sendFrames _ hf ptype offset⟩

end Formatting

end Picoquic
