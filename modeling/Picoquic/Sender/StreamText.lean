import Picoquic.ForMathlib.Slice
import Picoquic.Sender.FlowControl

/-!
# The text of a stream

The application writes one text into a stream, by `picoquic_add_to_stream` and when it is asked for
data. New frames take the text up piece by piece, and what is sent again is cut out of frames that
were sent before.

* **`StreamText`** — what was written into a stream, and what went into frames with new data;
* **`SendCnx.Writes`** — what one call of `picoquic_format_stream_frame` takes out of the queue;
* **`SendCnx.Book`** — the ledger with the text: every frame of the stream is a slice of what was
  sent, and what was sent and not queued is what was written;
* **`TextHistory.Kept.step`** — every event keeps it, unless the application resets the stream.
-/

namespace Picoquic

open Runs SendCnx

/-! ### The text -/

/-- What happened to the data of one stream. -/
structure StreamText where
  /-- What the application wrote, and what it provided when it was asked. -/
  written : List UInt8
  /-- What went into frames with new data, one after the other. -/
  sent : List UInt8

/-- `picoquic_add_to_stream` takes the data. -/
def SendStream.takes (s : SendStream) (data : List UInt8) (setFin : Bool) : Bool :=
  !(setFin && s.finRequested && !data.isEmpty) && !(s.resetSent || s.stopSendingReceived)

/-- The data of a list of frames. -/
def dataOf (frames : List StreamFrame) : List UInt8 := frames.flatMap (·.data)

/-- A formatting function is called. While nothing is queued the application provides the data. -/
def StreamText.format (id : ℕ) (t : StreamText) (c : SendCnx) (room : ℕ) : Fill → StreamText
  | .stream streamId polled =>
    if streamId = id then
      let data := dataOf (streamFrames (c.formatStreamFrame id polled room).2)
      { written :=
          if (c.streams id).any (·.sendQueue.isEmpty) then t.written ++ data else t.written
        sent := t.sent ++ data }
    else t
  | _ => t

/-- One formatting function of a packet, with the text. -/
def StreamText.fill (id capacity : ℕ) (r : (SendCnx × List Frame) × StreamText) (f : Fill) :
    (SendCnx × List Frame) × StreamText :=
  (SendCnx.fill capacity r.1 f, r.2.format id r.1.1 (capacity - framesLength r.1.2) f)

/-- One event. -/
def StreamText.step (id : ℕ) (t : StreamText) (c : SendCnx) : SendEvent → StreamText
  | .addToStream streamId data setFin =>
    if streamId = id ∧ (c.streams id).any (·.takes data setFin) then
      { t with written := t.written ++ data }
    else t
  | .preparePacket _ _ capacity fills => (fills.foldl (fill id capacity) ((c, []), t)).2
  | _ => t

/-! ### What waits in a stream -/

/-- What a stream is going to send. -/
def SendStream.pending (s : SendStream) : List UInt8 × Bool :=
  (s.sendQueue.flatten, s.resetRequested)

/-- A stream up to what closing and unblocking change. -/
def SendStream.Like (s u : SendStream) : Prop :=
  ∃ isClosed streamDataBlockedSent,
    u = { s with isClosed := isClosed, streamDataBlockedSent := streamDataBlockedSent }

theorem SendStream.Like.refl (s : SendStream) : s.Like s := ⟨_, _, rfl⟩

theorem SendStream.Like.pending_eq {s u : SendStream} (h : s.Like u) : u.pending = s.pending := by
  obtain ⟨_, _, rfl⟩ := h
  rfl

/-- A stream is stored, or deleted because it is closed. -/
def SendCnx.Stores (streamId : ℕ) (s : SendStream) (c c' : SendCnx) : Prop :=
  ∀ id u, c'.streams id = some u →
    id = streamId ∧ s.Like u ∨ id ≠ streamId ∧ c.streams id = some u

section Stores

variable {c c' : SendCnx} {streamId id : ℕ} {s s' : SendStream}

theorem SendCnx.stores_putStream (c : SendCnx) (streamId : ℕ) {s t : SendStream} (h : s.Like t) :
    c.Stores streamId s (c.putStream streamId t) := by
  intro id u hu
  rcases Decidable.em (id = streamId) with rfl | hid
  · simp only [putStream, Function.update_self, Option.some.injEq] at hu
    exact .inl ⟨rfl, hu ▸ h⟩
  · simp only [putStream, Function.update_of_ne hid] at hu
    exact .inr ⟨hid, hu⟩

theorem SendCnx.stores_deleteStreamIfClosed (c : SendCnx) (streamId : ℕ) (s : SendStream) :
    c.Stores streamId s (c.deleteStreamIfClosed streamId s).1 := by
  have hlike : s.Like (if !s.isClosed && s.isStreamClosed streamId c.clientMode then
      { s with isClosed := true } else s) := by
    split_ifs
    exacts [⟨_, _, rfl⟩, .refl s]
  simp only [deleteStreamIfClosed]
  generalize (if !s.isClosed && s.isStreamClosed streamId c.clientMode then
    { s with isClosed := true } else s) = t at hlike ⊢
  split_ifs
  · intro id u hu
    rcases (c.touches_delete streamId s).streams id u hu with ⟨rfl, -⟩ | hother
    · simp only [Function.update_self, reduceCtorEq] at hu
    · exact .inr hother
  · exact c.stores_putStream streamId hlike

/-- The stream is not marked as blocked any more. -/
theorem SendCnx.stores_unblock (c : SendCnx) (streamId : ℕ) (s : SendStream) (mayClose : Bool) :
    c.Stores streamId s (c.unblock streamId s mayClose) := by
  have hput : c.Stores streamId s (if mayClose then c.deleteStreamIfClosed streamId s
      else (c.putStream streamId s, false)).1 := by
    split_ifs
    exacts [c.stores_deleteStreamIfClosed streamId s, c.stores_putStream streamId (.refl s)]
  simp only [unblock]
  generalize (if mayClose then c.deleteStreamIfClosed streamId s
    else (c.putStream streamId s, false)) = r at hput ⊢
  split_ifs
  · exact hput
  · intro id u hu
    simp only [modifyStream_streams] at hu
    rcases Decidable.em (id = streamId) with rfl | hid
    · rw [Function.update_self] at hu
      obtain ⟨t, ht, rfl⟩ := Option.map_eq_some_iff.mp hu
      obtain ⟨-, _, _, rfl⟩ := (hput id t ht).resolve_right fun hne => hne.1 rfl
      exact .inl ⟨rfl, _, _, rfl⟩
    · rw [Function.update_of_ne hid] at hu
      exact hput id u hu

/-- What waits in the stream `id` stays. -/
def SendCnx.Waits (id : ℕ) (c c' : SendCnx) : Prop :=
  ∀ s', c'.streams id = some s' → ∃ s, c.streams id = some s ∧ s'.pending = s.pending

theorem SendCnx.Waits.of_streams (h : c'.streams = c.streams) : c.Waits id c' :=
  fun s hs => ⟨s, h ▸ hs, rfl⟩

theorem SendCnx.Waits.trans {c'' : SendCnx} (h : c.Waits id c') (h' : c'.Waits id c'') :
    c.Waits id c'' := by
  intro s'' hs''
  obtain ⟨s', hs', heq'⟩ := h' s'' hs''
  obtain ⟨s, hs, heq⟩ := h s' hs'
  exact ⟨s, hs, heq'.trans heq⟩

theorem SendCnx.Stores.waits (h : c.Stores streamId s' c') (hs : c.streams streamId = some s)
    (hsame : streamId = id → s'.pending = s.pending) : c.Waits id c' := by
  intro u hu
  rcases h id u hu with ⟨rfl, hlike⟩ | ⟨-, hu⟩
  · exact ⟨s, hs, hlike.pending_eq.trans (hsame rfl)⟩
  · exact ⟨u, hu, rfl⟩

theorem SendCnx.waits_modifyStream (c : SendCnx) (streamId : ℕ) {f : SendStream → SendStream}
    (hf : ∀ s, streamId = id → (f s).pending = s.pending) :
    c.Waits id (c.modifyStream streamId f) := by
  rw [modifyStream]
  split
  · exact .of_streams rfl
  next s hs => exact (c.stores_putStream streamId (.refl _)).waits hs (hf s)

end Stores

/-! ### What is sent again -/

/-- A frame that is cut out of another one: the texts that have the other frame have it too. -/
structure StreamFrame.CutOf (f g : StreamFrame) : Prop extends f.PieceOf g where
  slice : ∀ B, IsSliceAt B g.offset g.data → IsSliceAt B f.offset f.data

theorem StreamFrame.CutOf.refl (f : StreamFrame) : f.CutOf f := ⟨.refl f, fun _ => id⟩

variable {f g : StreamFrame} {frames : List StreamFrame}

theorem StreamFrame.resend_cut {room : ℕ} (hg : Frame.stream g ∈ f.resend room) : g.CutOf f := by
  refine ⟨resend_piece hg, ?_⟩
  rw [← mem_streamFrames, resend] at hg
  split_ifs at hg
  · obtain rfl := List.mem_singleton.mp hg
    exact fun _ => id
  · rw [streamFrames_append, streamFrames_padding, List.nil_append] at hg
    obtain rfl := List.mem_singleton.mp hg
    exact fun _ => id
  · obtain rfl := List.mem_singleton.mp hg
    exact fun _ => id
  · cases hg

theorem StreamFrame.split_cut (f : StreamFrame) {n : ℕ} (hn : n ≤ f.data.length) :
    (f.front n).CutOf f ∧ (f.back n).CutOf f := by
  obtain ⟨hfront, hback⟩ := f.split_piece hn
  exact ⟨⟨hfront, fun _ h => h.take n⟩, hback, fun _ h => h.drop hn⟩

theorem SendCnx.formatStreamFrameForRetransmit_cut (c : SendCnx) {room : ℕ}
    (hg : Frame.stream g ∈ (c.formatStreamFrameForRetransmit room f).frames) : g.CutOf f :=
  c.formatStreamFrameForRetransmit_of (P := (·.CutOf f)) StreamFrame.resend_cut f.split_cut
    (.refl f) hg

/-- Frames that were there before are written, whole or cut. -/
structure SendCnx.Recuts (c c' : SendCnx) (written : List Frame) : Prop where
  streams : c'.streams = c.streams
  sentControl : c'.sentControl = c.sentControl
  written : ∀ g ∈ streamFrames written, ∃ k, c.HasFrame (.stream k) ∧ g.CutOf k
  frames : ∀ g, c'.HasFrame (.stream g) → ∃ k, c.HasFrame (.stream k) ∧ g.CutOf k

theorem SendCnx.recuts_nothing (c : SendCnx) {written : List Frame}
    (hw : streamFrames written = []) : c.Recuts c written :=
  ⟨rfl, rfl, fun _ hg => absurd (hw ▸ hg) List.not_mem_nil, fun g hg => ⟨g, hg, .refl g⟩⟩

/-- Only a frame of a stream is new. -/
theorem SendCnx.recuts_format (c : SendCnx) (room : ℕ) {f : Fill}
    (hf : ∀ streamId polled, f ≠ .stream streamId polled) :
    c.Recuts (c.format room f).1 (c.format room f).2 := by
  cases f with
  | stream streamId polled => exact absurd rfl (hf streamId polled)
  | misc =>
    rw [format, formatFirstMiscFrame]
    split
    · exact c.recuts_nothing rfl
    next k rest hmisc =>
    split_ifs
    · refine ⟨rfl, rfl, fun g hg => ⟨g, ?_, .refl g⟩, fun g hg => ⟨g, ?_, .refl g⟩⟩
      · rw [mem_streamFrames, List.mem_singleton] at hg
        exact .inr (.inr (.inr (hmisc ▸ hg ▸ List.mem_cons_self)))
      · rcases hg with hg | hg | hg | hg
        exacts [.inl hg, .inr (.inl hg), .inr (.inr (.inl hg)),
          .inr (.inr (.inr (hmisc ▸ List.mem_cons_of_mem k hg)))]
    · exact c.recuts_nothing rfl
  | retransmit =>
    have hcut : ∀ g, Frame.stream g ∈
        (c.queuedForRetransmit room c.streamFrameRetransmitQueue).1 ∨
          g ∈ (c.queuedForRetransmit room c.streamFrameRetransmitQueue).2 →
        ∃ k, c.HasFrame (.stream k) ∧ g.CutOf k := by
      intro g hg
      obtain ⟨k, hk, hcut⟩ := c.queuedForRetransmit_of c.formatStreamFrameForRetransmit_cut .refl
        room c.streamFrameRetransmitQueue hg
      exact ⟨k, .inr (.inr (.inl ⟨k, hk, rfl⟩)), hcut⟩
    refine ⟨rfl, rfl, fun g hg => hcut g (.inl (mem_streamFrames.mp hg)), ?_⟩
    rintro g (hg | hg | ⟨k, hk, hg⟩ | hg)
    · exact ⟨g, .inl hg, .refl g⟩
    · exact ⟨g, .inr (.inl hg), .refl g⟩
    · exact hcut g (.inr (Frame.stream.inj hg ▸ hk))
    · exact ⟨g, .inr (.inr (.inr hg)), .refl g⟩
  | control frame bytes =>
    refine c.recuts_nothing ?_
    dsimp only [format]
    split_ifs <;> rfl

/-! ### New data -/

/-- **One call of `picoquic_format_stream_frame`** for the stream `id`, that was `s`: at most one
frame, where the stream is. Its data are taken out of the queue, unless the queue was empty, and
with the FIN nothing is left. -/
structure SendCnx.Writes (id : ℕ) (s : SendStream) (c' : SendCnx) (frames : List StreamFrame)
    (rest : List UInt8) : Prop where
  single : frames = [] ∨ ∃ f, frames = [f] ∧ f.streamId = id ∧ f.offset = s.sentOffset
  text : dataOf frames ++ rest =
    (if s.sendQueue.isEmpty then dataOf frames else []) ++ s.sendQueue.flatten
  fin : ∀ f ∈ frames, f.fin = true → rest = []
  pending : ∀ u, c'.streams id = some u → u.pending = (rest, s.resetRequested)

section Writes

variable {c c' : SendCnx} {id : ℕ} {s s' : SendStream}

theorem SendCnx.writes_nothing (h : ∀ u, c'.streams id = some u → u.pending = s.pending) :
    SendCnx.Writes id s c' [] s.sendQueue.flatten :=
  ⟨.inl rfl, by split_ifs <;> rfl, fun _ hf => absurd hf List.not_mem_nil, h⟩

theorem SendCnx.Stores.writes_nothing (h : c.Stores id s' c') (hsame : s'.pending = s.pending) :
    SendCnx.Writes id s c' [] s.sendQueue.flatten := by
  refine SendCnx.writes_nothing fun u hu => ?_
  obtain ⟨-, hlike⟩ := (h id u hu).resolve_right fun hne => hne.1 rfl
  exact hlike.pending_eq.trans hsame

/-- A frame with new data is written. -/
theorem SendCnx.Stores.writes (h : c.Stores id s' c') {f : StreamFrame} (hid : f.streamId = id)
    (hoffset : f.offset = s.sentOffset)
    (htext : f.data ++ s'.sendQueue.flatten =
      (if s.sendQueue.isEmpty then f.data else []) ++ s.sendQueue.flatten)
    (hfin : f.fin = true → s'.sendQueue.flatten = [])
    (hreset : s'.resetRequested = s.resetRequested) (byteSpace : ℕ) :
    SendCnx.Writes id s c' (streamFrames (encodeLengthOfStreamFrame byteSpace f))
      s'.sendQueue.flatten := by
  obtain ⟨b, hb⟩ := streamFrames_encodeLength byteSpace f
  rw [hb]
  refine ⟨.inr ⟨{ f with hasLength := b }, rfl, hid, hoffset⟩, ?_, ?_, ?_⟩
  · rw [dataOf, List.flatMap_singleton]
    exact htext
  · intro g hg
    obtain rfl := List.mem_singleton.mp hg
    exact hfin
  · intro u hu
    obtain ⟨-, hlike⟩ := (h id u hu).resolve_right fun hne => hne.1 rfl
    rw [hlike.pending_eq, SendStream.pending, hreset]

theorem SendCnx.writes_formatPolledFrame (c : SendCnx) (id : ℕ) (hqueue : s.sendQueue = [])
    (byteSpace allowed : ℕ) (polled : Option Polled) :
    ∃ rest, SendCnx.Writes id s (c.formatPolledFrame id s byteSpace allowed polled).1
      (streamFrames (c.formatPolledFrame id s byteSpace allowed polled).2) rest := by
  have hidle := (c.stores_unblock id s false).writes_nothing (s := s) rfl
  rw [formatPolledFrame]
  split
  · exact ⟨_, hidle⟩
  next d hd =>
  have hstores := fun s' => stores_unblock
    { c with dataSent := c.dataSent + d.data.length } id s' d.isFin
  split_ifs with hempty hfin
  · exact ⟨_, hidle⟩
  all_goals
    dsimp only
    refine ⟨_, (hstores _).writes (f := ⟨id, s.sentOffset, d.data, d.isFin, false⟩) rfl rfl ?_ ?_
      ?_ byteSpace⟩
    · simp [SendStream.advance, hqueue]
    · simp [SendStream.advance, hqueue]
    · rfl

theorem SendCnx.writes_formatQueuedFrame (c : SendCnx) (id : ℕ) (s : SendStream)
    (byteSpace allowed : ℕ) :
    ∃ rest, SendCnx.Writes id s (c.formatQueuedFrame id s byteSpace allowed).1
      (streamFrames (c.formatQueuedFrame id s byteSpace allowed).2) rest := by
  have hflat := takeFromQueue_flatten allowed s.sendQueue
  have hempty : s.sendQueue = [] → takeFromQueue allowed s.sendQueue = ([], []) := fun hq => by
    rw [hq, takeFromQueue]
  rw [formatQueuedFrame]
  generalize takeFromQueue allowed s.sendQueue = taken at hflat hempty ⊢
  obtain ⟨data, sendQueue⟩ := taken
  dsimp only at hflat hempty ⊢
  have hstores := fun s' => stores_unblock
    { c with dataSent := c.dataSent + data.length } id s' (sendQueue.isEmpty && s.finRequested)
  split_ifs with hnothing
  · refine ⟨_, (hstores _).writes_nothing ?_⟩
    rw [List.length_eq_zero_iff.mp hnothing.2, List.nil_append] at hflat
    rw [SendStream.pending, SendStream.pending, ← hflat]
    rfl
  · refine ⟨_, (hstores _).writes
      (f := ⟨id, s.sentOffset, data, sendQueue.isEmpty && s.finRequested, false⟩) rfl rfl ?_ ?_
      ?_ byteSpace⟩
    · dsimp only
      rw [hflat]
      split_ifs with hq
      · rw [(Prod.mk.inj (hempty (List.isEmpty_iff.mp hq))).1, List.nil_append]
      · rfl
    · intro hfin
      rw [Bool.and_eq_true, List.isEmpty_iff] at hfin
      exact hfin.1 ▸ rfl
    · rfl

/-- **A stream that is not reset gives away what it holds.** -/
theorem SendCnx.writes_formatStreamFrame (hs : c.streams id = some s)
    (hreset : s.resetRequested = false) (polled : Option Polled) (room : ℕ) :
    ∃ rest, SendCnx.Writes id s (c.formatStreamFrame id polled room).1
      (streamFrames (c.formatStreamFrame id polled room).2) rest := by
  have hstay : SendCnx.Writes id s c [] s.sendQueue.flatten :=
    writes_nothing fun u hu => by rw [Option.some.inj (hs.symm.trans hu)]
  rw [formatStreamFrame, hs]
  dsimp only
  split_ifs with hid hresetting hstop hnothing hroom hpoll
  · exact ⟨_, hstay⟩
  · rw [hreset] at hresetting
    cases hresetting
  · rw [formatStopSendingFrame]
    dsimp only
    split_ifs
    · exact ⟨_, (c.stores_putStream id (.refl _)).writes_nothing rfl⟩
    · exact ⟨_, (stores_putStream _ id (.refl _)).writes_nothing rfl⟩
    · exact ⟨_, hstay⟩
  · exact ⟨_, hstay⟩
  · exact ⟨_, (c.stores_unblock id s false).writes_nothing rfl⟩
  · simp only [Bool.and_eq_true, List.isEmpty_iff] at hpoll
    exact c.writes_formatPolledFrame id hpoll.1.2 _ _ polled
  · exact c.writes_formatQueuedFrame id s _ _

end Writes

/-- What a call about one stream leaves alone: the queues of frames, and the other streams. -/
structure SendCnx.TouchesOnly (streamId : ℕ) (c c' : SendCnx) (frames : List StreamFrame) :
    Prop where
  queues : c'.queues = c.queues
  streams : ∀ id ≠ streamId, ∀ u, c'.streams id = some u → c.streams id = some u
  frames : ∀ f ∈ frames, f.streamId = streamId

section TouchesOnly

variable {c c' : SendCnx} {streamId : ℕ} {s : SendStream}

theorem SendCnx.TouchesOnly.refl (streamId : ℕ) (c : SendCnx) : c.TouchesOnly streamId c [] :=
  ⟨rfl, fun _ _ _ => id, by simp⟩

theorem SendCnx.Stores.touchesOnly {c₀ : SendCnx} (h : c₀.Stores streamId s c')
    (hs : c₀.streams = c.streams) (hq : c'.queues = c.queues)
    (hf : ∀ f ∈ frames, f.streamId = streamId) : c.TouchesOnly streamId c' frames :=
  ⟨hq, fun id hid u hu => hs ▸ ((h id u hu).resolve_left fun heq => hid heq.1).2, hf⟩

theorem streamId_of_mem_encodeLength {byteSpace : ℕ}
    (hg : g ∈ streamFrames (encodeLengthOfStreamFrame byteSpace f)) : g.streamId = f.streamId := by
  obtain ⟨b, hb⟩ := streamFrames_encodeLength byteSpace f
  rw [hb, List.mem_singleton] at hg
  rw [hg]

theorem SendCnx.touchesOnly_unblock (c : SendCnx) (streamId : ℕ) (s : SendStream) (dataSent : ℕ)
    (mayClose : Bool) (hf : ∀ f ∈ frames, f.streamId = streamId) :
    c.TouchesOnly streamId (SendCnx.unblock { c with dataSent := dataSent } streamId s mayClose)
      frames := by
  refine (stores_unblock _ streamId s mayClose).touchesOnly ?_ ?_ hf
  · rfl
  · exact queues_unblock { c with dataSent := dataSent } streamId s mayClose

theorem SendCnx.touchesOnly_formatStreamFrame (c : SendCnx) (streamId : ℕ) (polled : Option Polled)
    (room : ℕ) :
    c.TouchesOnly streamId (c.formatStreamFrame streamId polled room).1
      (streamFrames (c.formatStreamFrame streamId polled room).2) := by
  have hstay := SendCnx.TouchesOnly.refl streamId c
  have hidle : ∀ s, c.TouchesOnly streamId (c.unblock streamId s false) [] := fun s =>
    c.touchesOnly_unblock streamId s c.dataSent false (by simp)
  rw [formatStreamFrame]
  split
  · exact hstay
  next s hs =>
  dsimp only
  split_ifs
  · exact hstay
  · rw [formatStreamResetFrame]
    dsimp only
    split_ifs
    · refine (stores_deleteStreamIfClosed _ streamId _).touchesOnly (c := c) ?_ ?_ ?_
      · rfl
      · exact queues_deleteStreamIfClosed _ streamId _
      · exact fun f hf => absurd hf List.not_mem_nil
    · exact hstay
  · rw [formatStopSendingFrame]
    dsimp only
    have hput := fun c₀ : SendCnx =>
      c₀.stores_putStream streamId (.refl { s with stopSendingSent := true })
    split_ifs
    · exact (hput c).touchesOnly rfl rfl (by simp)
    · refine (hput _).touchesOnly (c := c) ?_ ?_ ?_
      · rfl
      · rfl
      · exact fun f hf => absurd hf List.not_mem_nil
    · exact hstay
  · exact hstay
  · exact hidle s
  · rw [formatPolledFrame]
    split
    · exact hidle s
    split_ifs
    · exact hidle s
    all_goals
      exact c.touchesOnly_unblock streamId _ _ _ fun f hf => streamId_of_mem_encodeLength hf
  · rw [formatQueuedFrame]
    dsimp only
    refine c.touchesOnly_unblock streamId _ _ _ fun f hf => ?_
    split_ifs at hf
    · cases hf
    · exact streamId_of_mem_encodeLength hf

end TouchesOnly

/-! ### The book -/

/-- **The book of the stream `id`**: the ledger, and the text of the stream. Every frame of the
stream is a slice of what was sent; what was written is what was sent and what waits. A stream that
is gone, and that ended with a FIN, was sent as it was written. -/
structure SendCnx.Book (id : ℕ) (opened : List ℕ) (log : List StreamFrame) (t : StreamText)
    (c : SendCnx) : Prop extends c.Ledger opened log where
  length_sent : t.sent.length = reach log id
  slice : ∀ f, c.Knows log f → f.streamId = id → IsSliceAt t.sent f.offset f.data
  unopened : id ∉ opened → t.written = []
  present : ∀ s, c.streams id = some s →
    s.resetRequested = false ∧ t.written = t.sent ++ s.sendQueue.flatten
  absent : c.streams id = none → t.sent <+: t.written ∧
    ∀ f, c.Knows log f → f.streamId = id → f.fin = true → t.written = t.sent

section Book

variable {id : ℕ} {opened : List ℕ} {log log' : List StreamFrame} {t : StreamText}
  {c c' : SendCnx} {s : SendStream}

section

variable (h : c.Book id opened log t)

include h

theorem SendCnx.Book.isPrefix : t.sent <+: t.written := by
  cases hs : c.streams id with
  | none => exact (h.absent hs).1
  | some s =>
    rw [(h.present s hs).2]
    exact List.prefix_append _ _

theorem SendCnx.Book.written_eq {f : StreamFrame}
    (hf : c.Knows log f) (hid : f.streamId = id) (hfin : f.fin = true) : t.written = t.sent := by
  cases hs : c.streams id with
  | none => exact (h.absent hs).2 f hf hid hfin
  | some s =>
    subst hid
    have hqueue := (h.finished _ s hs (h.recorded f hf hfin s hs)).1
    rw [(h.present s hs).2, hqueue, List.flatten_nil, List.append_nil]

theorem SendCnx.Book.present_of_waits (hwaits : c.Waits id c') :
    ∀ s, c'.streams id = some s →
      s.resetRequested = false ∧ t.written = t.sent ++ s.sendQueue.flatten := by
  intro s' hs'
  obtain ⟨s, hs, hpending⟩ := hwaits s' hs'
  obtain ⟨hqueue, hreset⟩ := Prod.mk.inj hpending
  rw [hqueue, hreset]
  exact h.present s hs

/-- **What leaves the text alone.** -/
theorem SendCnx.Book.calm {opened' : List ℕ}
    (hledger : c'.Ledger opened' log') (hopened : id ∈ opened → id ∈ opened')
    (hreach : reach log' id = reach log id)
    (hpresent : ∀ s, c'.streams id = some s →
      s.resetRequested = false ∧ t.written = t.sent ++ s.sendQueue.flatten)
    (hcut : ∀ f, c'.Knows log' f → f.streamId = id → ∃ g, c.Knows log g ∧ f.CutOf g) :
    c'.Book id opened' log' t where
  toLedger := hledger
  length_sent := h.length_sent.trans hreach.symm
  slice f hf hid := by
    obtain ⟨g, hg, hcut⟩ := hcut f hf hid
    exact hcut.slice _ (h.slice g hg (hcut.streamId.symm.trans hid))
  unopened hnot := h.unopened (hnot ∘ hopened)
  present := hpresent
  absent _ := by
    refine ⟨h.isPrefix, fun f hf hid hfin => ?_⟩
    obtain ⟨g, hg, hcut⟩ := hcut f hf hid
    exact h.written_eq hg (hcut.streamId.symm.trans hid) (hcut.fin hfin).1

/-- Cuts of known frames are written. -/
theorem SendCnx.Book.append_cuts {pieces : List StreamFrame}
    (hledger : c'.Ledger opened (log ++ pieces)) (hwaits : c.Waits id c')
    (hpieces : ∀ f ∈ pieces, ∃ g, c.Knows log g ∧ f.CutOf g)
    (hframes : ∀ f, c'.HasFrame (.stream f) → ∃ g, c.Knows log g ∧ f.CutOf g) :
    c'.Book id opened (log ++ pieces) t := by
  refine h.calm hledger (fun hid => hid) (h.reach_append (fun f hf => ?_) id)
    (h.present_of_waits hwaits) fun f hf _ => ?_
  · obtain ⟨g, hg, hcut⟩ := hpieces f hf
    exact ⟨g, hg, hcut.toPieceOf⟩
  · rcases hf with hf | hf
    · rcases List.mem_append.mp hf with hf | hf
      exacts [⟨f, .inl hf, .refl f⟩, hpieces f hf]
    · exact hframes f hf

/-- A frame of another stream is written. -/
theorem SendCnx.Book.other {streamId : ℕ} (hid : streamId ≠ id)
    (hledger : c'.Ledger opened (log ++ frames)) (ht : c.TouchesOnly streamId c' frames) :
    c'.Book id opened (log ++ frames) t := by
  have hnot : ∀ f ∈ frames, f.streamId ≠ id := fun f hf heq => hid ((ht.frames f hf).symm.trans heq)
  have hwaits : c.Waits id c' := fun u hu => ⟨u, ht.streams id hid.symm u hu, rfl⟩
  refine h.calm hledger (fun hid => hid) ?_ (h.present_of_waits hwaits) fun f hf heq => ?_
  · rw [Picoquic.reach_append]
    refine max_eq_left (reach_le fun f hf heq => absurd heq (hnot f hf))
  · rcases hf with hf | hf
    · rcases List.mem_append.mp hf with hf | hf
      exacts [⟨f, .inl hf, .refl f⟩, absurd heq (hnot f hf)]
    · exact ⟨f, .inr ((hasFrame_congr ht.queues _).mp hf), .refl f⟩

/-- **A frame of the stream is written**, and the text goes on with its data. -/
theorem SendCnx.Book.write (hs : c.streams id = some s)
    {rest : List UInt8} (hledger : c'.Ledger opened (log ++ frames))
    (ht : c.TouchesOnly id c' frames) (hw : SendCnx.Writes id s c' frames rest) :
    c'.Book id opened (log ++ frames)
      ⟨if s.sendQueue.isEmpty then t.written ++ dataOf frames else t.written,
        t.sent ++ dataOf frames⟩ := by
  obtain ⟨hopened, hoffset⟩ := h.sentOffset_eq id s hs
  obtain ⟨hreset, hwritten⟩ := h.present s hs
  -- what was written is what is sent now, and the rest of the queue
  have htext : (if s.sendQueue.isEmpty then t.written ++ dataOf frames else t.written) =
      t.sent ++ dataOf frames ++ rest := by
    rw [List.append_assoc, hw.text, hwritten]
    split_ifs with hq
    · rw [List.isEmpty_iff.mp hq, List.flatten_nil, List.append_nil, List.append_nil]
    · rw [List.nil_append]
  have hknown : ∀ g, c'.Knows (log ++ frames) g → c.Knows log g ∨ g ∈ frames := by
    rintro g (hg | hg)
    · exact (List.mem_append.mp hg).imp_left .inl
    · exact .inl (.inr ((hasFrame_congr ht.queues _).mp hg))
  refine ⟨hledger, ?_, fun g hg hid => ?_, fun hnot => absurd hopened hnot, fun u hu => ?_,
    fun _ => ?_⟩
  · dsimp only
    rcases hw.single with rfl | ⟨f, rfl, hid, hf⟩
    · rw [List.append_nil, dataOf, List.flatMap_nil, List.append_nil]
      exact h.length_sent
    · rw [reach_append_singleton, if_pos hid, StreamFrame.finish, hf, hoffset, dataOf,
        List.flatMap_singleton, List.length_append, h.length_sent]
      exact (max_eq_right (Nat.le_add_right _ _)).symm
  · rcases hknown g hg with hg | hg
    · exact (h.slice g hg hid).extend _
    · rcases hw.single with rfl | ⟨f, rfl, -, hf⟩
      · cases hg
      · obtain rfl := List.mem_singleton.mp hg
        rw [hf, hoffset, ← h.length_sent, dataOf, List.flatMap_singleton]
        exact .last _ _
  · obtain ⟨hrest, hkeep⟩ := Prod.mk.inj (hw.pending u hu)
    rw [hkeep, hreset, hrest]
    exact ⟨rfl, htext⟩
  · dsimp only
    rw [htext]
    refine ⟨List.prefix_append _ _, fun g hg hid hfin => ?_⟩
    -- behind a FIN that was sent before the queue is empty
    have hrest : rest = [] := by
      rcases hknown g hg with hg | hg
      · subst hid
        have hqueue := (h.finished _ s hs (h.recorded g hg hfin s hs)).1
        have htake := hw.text
        rw [hqueue, List.isEmpty_nil, if_pos rfl, List.flatten_nil] at htake
        exact List.append_cancel_left htake
      · exact hw.fin g hg hfin
    rw [hrest, List.append_nil]

/-- **One formatting function.** -/
theorem SendCnx.Book.format (room : ℕ) (f : Fill) :
    (c.format room f).1.Book id opened (log ++ streamFrames (c.format room f).2)
      (t.format id c room f) := by
  have hledger := h.toLedger.format room f
  have hcuts := c.recuts_format room (f := f)
  have hold : ∀ {g : StreamFrame}, (∃ k, c.HasFrame (.stream k) ∧ g.CutOf k) →
      ∃ k, c.Knows log k ∧ g.CutOf k := fun ⟨k, hk, hcut⟩ => ⟨k, .inr hk, hcut⟩
  cases f with
  | stream streamId polled =>
    have htouches := c.touchesOnly_formatStreamFrame streamId polled room
    rw [StreamText.format]
    rcases Decidable.em (streamId = id) with rfl | hid
    · rw [if_pos rfl]
      cases hs : c.streams streamId with
      | none =>
        have hnone : c.formatStreamFrame streamId polled room = (c, []) := by
          rw [formatStreamFrame, hs]
        rw [SendCnx.format, hnone, streamFrames_nil, List.append_nil]
        simpa [dataOf] using h
      | some s =>
        obtain ⟨rest, hw⟩ := writes_formatStreamFrame hs (h.present s hs).1 polled room
        rw [Option.any_some]
        exact h.write hs hledger htouches hw
    · rw [if_neg hid]
      exact h.other hid hledger htouches
  | misc | retransmit | control =>
    have hcuts := hcuts (by simp)
    exact h.append_cuts hledger (.of_streams hcuts.streams) (fun g hg => hold (hcuts.written g hg))
      fun g hg => hold (hcuts.frames g hg)

/-- A packet is sent with frames that are in the log. -/
theorem SendCnx.Book.sendFrames {frames : List Frame}
    (hframes : ∀ f ∈ streamFrames frames, f ∈ log) (ptype : PacketType) (offset : ℕ) :
    (c.sendFrames ptype offset frames).Book id opened log t := by
  have hstreams := (sendFrames_streams c ptype offset frames).1
  refine h.calm (h.toLedger.sendFrames hframes ptype offset) (fun hid => hid) rfl
    (h.present_of_waits (.of_streams hstreams)) fun f hf _ => ⟨f, ?_, .refl f⟩
  rcases hf with hf | hf
  · exact .inl hf
  · exact (hasFrame_sendFrames hf).elim .inr fun hf => .inl (hframes f (mem_streamFrames.mpr hf))

/-- **A whole packet.** -/
theorem SendCnx.Book.preparePacket (ptype : PacketType)
    (offset capacity : ℕ) (fills : List Fill) :
    ∃ frames : List StreamFrame,
      (c.preparePacket ptype offset capacity fills).Book id opened (log ++ frames)
        (t.step id c (.preparePacket ptype offset capacity fills)) ∧
      ∀ f ∈ frames, (c.preparePacket ptype offset capacity fills).Sent f := by
  have hfill : ∀ (fills : List Fill) (r : (SendCnx × List Frame) × StreamText),
      r.1.1.Book id opened (log ++ streamFrames r.1.2) r.2 →
        (fills.foldl (fill capacity) r.1).1.Book id opened
          (log ++ streamFrames (fills.foldl (fill capacity) r.1).2)
          (fills.foldl (StreamText.fill id capacity) r).2 := by
    intro fills
    induction fills with
    | nil => exact fun r hr => hr
    | cons f fills ih =>
      intro r hr
      have hf := hr.format (capacity - framesLength r.1.2) f
      rw [List.append_assoc, ← streamFrames_append] at hf
      exact ih (StreamText.fill id capacity r f) hf
  have hend := hfill fills ((c, []), t) (by rwa [streamFrames_nil, List.append_nil])
  exact ⟨_, hend.sendFrames (fun f hf => List.mem_append_right log hf) ptype offset,
    fun f hf => sent_sendFrames _ hf ptype offset⟩

end

/-- What is in flight is recorded. -/
theorem SendCnx.Book.record (h : c.Book id opened (log ++ frames) t)
    (hsent : ∀ f ∈ frames, c.Sent f) : c.Book id opened (log ++ c.inFlight) t := by
  have hsub : ∀ f ∈ log ++ frames, f ∈ log ++ c.inFlight := fun f hf =>
    List.mem_append.mpr ((List.mem_append.mp hf).imp_right fun hf => mem_inFlight.mpr (hsent f hf))
  have hknown : ∀ f ∈ log ++ c.inFlight, c.Knows (log ++ frames) f := fun f hf =>
    (List.mem_append.mp hf).imp (List.mem_append_left frames) fun hf => .inl (mem_inFlight.mp hf)
  refine h.calm (h.toLedger.record hsent) (fun hid => hid) (le_antisymm ?_ ?_) h.present
    fun f hf _ => ⟨f, hf.elim (hknown f) .inr, .refl f⟩
  · exact reach_le fun f hf hid => hid ▸ (h.placed f (hknown f hf)).finish_le
  · exact reach_le fun f hf hid => hid ▸ le_reach (hsub f hf)

end Book

/-! ### Events -/

section Events

variable {id : ℕ} {c c' : SendCnx} {i : ℕ} {p : SentPacket}

/-- No data are written, and no new frames. -/
structure SendCnx.Calm (id : ℕ) (c c' : SendCnx) : Prop where
  waits : c.Waits id c'
  frames : ∀ f, c'.HasFrame (.stream f) → c.HasFrame (.stream f)

theorem SendCnx.Calm.refl (id : ℕ) (c : SendCnx) : c.Calm id c := ⟨.of_streams rfl, fun _ hf => hf⟩

theorem SendCnx.Calm.trans {c'' : SendCnx} (h : c.Calm id c') (h' : c'.Calm id c'') :
    c.Calm id c'' :=
  ⟨h.waits.trans h'.waits, fun f hf => h.frames f (h'.frames f hf)⟩

theorem SendCnx.Reuses.calm (h : c.Reuses c') : c.Calm id c' := ⟨.of_streams h.streams, h.frames⟩

theorem SendCnx.calm_modifyStream (c : SendCnx) (streamId : ℕ) {f : SendStream → SendStream}
    (hf : ∀ s, streamId = id → (f s).pending = s.pending) :
    c.Calm id (c.modifyStream streamId f) :=
  ⟨c.waits_modifyStream streamId hf, fun _ hf =>
    (hasFrame_congr (queues_modifyStream c streamId _) _).mp hf⟩

theorem SendCnx.calm_deleteStreamIfClosed {streamId : ℕ} {s s' : SendStream}
    (hs : c.streams streamId = some s) (hsame : s'.pending = s.pending) :
    c.Calm id (c.deleteStreamIfClosed streamId s').1 :=
  ⟨(c.stores_deleteStreamIfClosed streamId s').waits hs fun _ => hsame, fun _ hf =>
    (hasFrame_congr (queues_deleteStreamIfClosed c streamId s') _).mp hf⟩

theorem SendCnx.calm_processAckOfFrame (c : SendCnx) (f : Frame) :
    c.Calm id (c.processAckOfFrame f) := by
  rcases f with f | _ | _ | _
  · rw [processAckOfFrame]
    split
    · exact .refl id c
    next s hs => exact calm_deleteStreamIfClosed hs rfl
  all_goals exact ⟨.of_streams rfl, fun _ hf => hf⟩

theorem SendCnx.calm_processAckOfFrames (c : SendCnx) (p : SentPacket) :
    c.Calm id (c.processAckOfFrames p) := by
  rw [processAckOfFrames]
  generalize p.frames = frames
  induction frames generalizing c with
  | nil => exact .refl id c
  | cons f frames ih => exact (c.calm_processAckOfFrame f).trans (ih _)

/-- The application gives up the stream `id`. -/
def SendEvent.Resets (id : ℕ) : SendEvent → Prop
  | .resetStream streamId _ => streamId = id
  | _ => False

instance (e : SendEvent) : Decidable (e.Resets id) := by
  unfold SendEvent.Resets
  split <;> infer_instance

/-- An event that leaves the text of the stream `id` alone. -/
def SendEvent.Leaves (id : ℕ) : SendEvent → Prop
  | .createStream .. | .preparePacket .. => False
  | .addToStream streamId .. | .resetStream streamId _ => streamId ≠ id
  | _ => True

theorem SendCnx.calm_step (c : SendCnx) {e : SendEvent} (he : e.Leaves id) :
    c.Calm id (c.step e) := by
  cases e with
  | createStream | preparePacket => exact he.elim
  | addToStream streamId data setFin =>
    exact c.calm_modifyStream streamId fun _ hid => absurd hid he
  | resetStream streamId localError =>
    exact c.calm_modifyStream streamId fun _ hid => absurd hid he
  | markActiveStream streamId isActive =>
    refine c.calm_modifyStream streamId fun s _ => ?_
    split_ifs <;> rfl
  | stopSending streamId localError =>
    refine c.calm_modifyStream streamId fun s _ => ?_
    split_ifs <;> rfl
  | stopSendingReceived streamId =>
    refine c.calm_modifyStream streamId fun s _ => ?_
    split_ifs <;> rfl
  | maxStreamData streamId maxdata => exact c.calm_modifyStream streamId fun _ _ => rfl
  | receiving streamId =>
    rw [step]
    split
    · exact .refl id c
    next s hs => exact calm_deleteStreamIfClosed hs rfl
  | maxData | controlState | queueMiscFrame | sendProbe | lost | recycled | preemptiveRepeat
  | forgotten =>
    refine Reuses.calm ?_
    exact c.reuses_step trivial
  | acknowledged i =>
    rw [step]
    split
    · exact .refl id c
    next p hp =>
    split_ifs
    · exact .refl id c
    · have hack : c.Calm id (c.processAckOfFrames p) := c.calm_processAckOfFrames p
      refine hack.trans ⟨.of_streams rfl, ?_⟩
      rintro f (⟨q, hq, hf⟩ | hf)
      · exact .inl ⟨q, List.mem_of_mem_eraseIdx hq, hf⟩
      · exact .inr hf
  | spuriousLoss i =>
    rw [step]
    split
    · exact .refl id c
    next p hp =>
    exact (c.calm_processAckOfFrames p).trans (reuses_forget _ i).calm

theorem SendStream.pending_add (s : SendStream) (data : List UInt8) (setFin : Bool) :
    (s.add data setFin).pending =
      (s.sendQueue.flatten ++ if s.takes data setFin then data else [], s.resetRequested) := by
  rw [add, takes]
  generalize (setFin && s.finRequested && !data.isEmpty) = twice
  dsimp only
  generalize (s.resetSent || s.stopSendingReceived) = refused
  cases twice with
  | true => exact Prod.ext (List.append_nil _).symm rfl
  | false =>
    cases refused with
    | true => exact Prod.ext (List.append_nil _).symm rfl
    | false =>
      refine Prod.ext ?_ rfl
      cases data with
      | nil => exact (List.append_nil _).symm
      | cons b data => exact List.flatten_append.trans (by simp)

end Events

/-! ### Runs -/

/-- A connection with its history, and the text of one stream. -/
structure TextHistory where
  history : SendHistory
  text : StreamText

def TextHistory.initial (clientMode isPreemptiveRepeatEnabled : Bool) (maxdataRemote : ℕ)
    (controlState : ControlState) : TextHistory :=
  ⟨.initial clientMode isPreemptiveRepeatEnabled maxdataRemote controlState, ⟨[], []⟩⟩

/-- One event. -/
def TextHistory.step (id : ℕ) (h : TextHistory) (e : SendEvent) : TextHistory :=
  ⟨h.history.step e, h.text.step id h.history.cnx e⟩

/-- The history agrees with the connection and with the text. -/
def TextHistory.Kept (id : ℕ) (h : TextHistory) : Prop :=
  h.history.cnx.Book id h.history.opened h.history.produced h.text

theorem TextHistory.Kept.initial (id : ℕ) (clientMode isPreemptiveRepeatEnabled : Bool)
    (maxdataRemote : ℕ) (controlState : ControlState) :
    (TextHistory.initial clientMode isPreemptiveRepeatEnabled maxdataRemote
      controlState).Kept id := by
  have hnone : ∀ f, ¬ (SendCnx.initial clientMode isPreemptiveRepeatEnabled maxdataRemote
      controlState).Knows [] f := by
    intro f hf
    simp [SendCnx.Knows, SendCnx.HasFrame, SendCnx.initial] at hf
  refine ⟨SendHistory.Sound.initial clientMode isPreemptiveRepeatEnabled maxdataRemote
    controlState, rfl, fun f hf => absurd hf (hnone f), fun _ => rfl, ?_,
    fun _ => ⟨List.prefix_rfl, fun f hf => absurd hf (hnone f)⟩⟩
  intro s hs
  cases hs

theorem TextHistory.produced_step (id : ℕ) (h : TextHistory) (e : SendEvent) :
    h.history.produced ⊆ (h.step id e).history.produced := by
  intro f hf
  rw [step, SendHistory.step]
  split_ifs
  exacts [hf, List.mem_append_left _ hf]

section Step

variable {id : ℕ} {h : TextHistory} {e : SendEvent}

/-- An event that leaves the stream alone. -/
theorem TextHistory.Kept.leaves (hk : h.Kept id) (he : e.EndsAtFin h.history.cnx)
    (hleaves : e.Leaves id) (htext : h.text.step id h.history.cnx e = h.text) :
    (h.step id e).Kept id := by
  have hsound := SendHistory.Sound.step (h := h.history) hk.toLedger he
  have hcalm := h.history.cnx.calm_step hleaves
  have hopens : e.opens = none := by
    cases e with
    | createStream => exact hleaves.elim
    | _ => rfl
  have hstep : h.history.step e = ⟨h.history.cnx.step e, h.history.opened,
      h.history.produced ++ (h.history.cnx.step e).inFlight⟩ := by
    rw [SendHistory.step, if_neg (by simp [hopens]), hopens]
    rfl
  have hold : ∀ f ∈ (h.history.cnx.step e).inFlight, h.history.cnx.Knows h.history.produced f :=
    fun f hf => .inr (hcalm.frames f (.inl (mem_inFlight.mp hf)))
  rw [TextHistory.Kept, TextHistory.step, htext, hstep]
  rw [hstep] at hsound
  refine SendCnx.Book.append_cuts hk hsound hcalm.waits (fun f hf => ⟨f, hold f hf, .refl f⟩)
    fun f hf => ⟨f, .inr (hcalm.frames f hf), .refl f⟩

/-- The stream is written to. -/
theorem TextHistory.Kept.addToStream (hk : h.Kept id) {data : List UInt8} {setFin : Bool}
    (he : (SendEvent.addToStream id data setFin).EndsAtFin h.history.cnx) :
    (h.step id (.addToStream id data setFin)).Kept id := by
  have hsound := SendHistory.Sound.step (h := h.history) hk.toLedger he
  set c := h.history.cnx
  have hstep : h.history.step (.addToStream id data setFin) =
      ⟨c.modifyStream id (·.add data setFin), h.history.opened,
        h.history.produced ++ (c.modifyStream id (·.add data setFin)).inFlight⟩ := by
    rw [SendHistory.step, if_neg (by simp [SendEvent.opens])]
    rfl
  have hframes : ∀ f, (c.modifyStream id (·.add data setFin)).HasFrame (.stream f) →
      c.HasFrame (.stream f) := fun f hf =>
    (hasFrame_congr (queues_modifyStream c id _) _).mp hf
  have hknown : ∀ f, (c.modifyStream id (·.add data setFin)).Knows
      (h.history.produced ++ (c.modifyStream id (·.add data setFin)).inFlight) f →
      c.Knows h.history.produced f := by
    rintro f (hf | hf)
    · exact (List.mem_append.mp hf).imp_right fun hf => hframes f (.inl (mem_inFlight.mp hf))
    · exact .inr (hframes f hf)
  have hreach : reach (h.history.produced ++ (c.modifyStream id (·.add data setFin)).inFlight) id =
      reach h.history.produced id :=
    hk.reach_append (fun f hf => ⟨f, hknown f (.inl (List.mem_append_right _ hf)), .refl f⟩) id
  rw [TextHistory.Kept, TextHistory.step, hstep, StreamText.step]
  rw [hstep] at hsound
  rw [SendHistory.Sound] at hsound
  cases hs : c.streams id with
  | none =>
    have hsame : c.modifyStream id (·.add data setFin) = c := by rw [modifyStream, hs]
    rw [hsame] at hsound hknown hreach ⊢
    rw [if_neg (by simp)]
    exact SendCnx.Book.calm hk hsound (fun hid => hid) hreach hk.present
      fun f hf _ => ⟨f, hknown f hf, .refl f⟩
  | some s =>
    have hs' : (c.modifyStream id (·.add data setFin)).streams id = some (s.add data setFin) := by
      rw [modifyStream_streams, Function.update_self, hs, Option.map_some]
    obtain ⟨hqueue, hreset⟩ := Prod.mk.inj (s.pending_add data setFin)
    obtain ⟨hnot, hwritten⟩ := hk.present s hs
    have htext : (if id = id ∧ (some s).any (·.takes data setFin) then
        { h.text with written := h.text.written ++ data } else h.text) =
        ⟨h.text.written ++ if s.takes data setFin then data else [], h.text.sent⟩ := by
      rw [Option.any_some]
      cases s.takes data setFin <;> simp
    rw [htext]
    refine ⟨hsound, hk.length_sent.trans hreach.symm, fun f hf => hk.slice f (hknown f hf),
      fun hnot => absurd (hk.sentOffset_eq id s hs).1 hnot, fun u hu => ?_, fun hnone => ?_⟩
    · obtain rfl := Option.some.inj (hs'.symm.trans hu)
      rw [hreset, hqueue, hwritten, List.append_assoc]
      exact ⟨hnot, rfl⟩
    · rw [hs'] at hnone
      cases hnone

/-- A stream is created. -/
theorem TextHistory.Kept.createStream (hk : h.Kept id) (streamId : ℕ)
    (maxdataRemote : Fin (2 ^ 62)) (isOutputStream : Bool) :
    (h.step id (.createStream streamId maxdataRemote isOutputStream)).Kept id := by
  have hsound := SendHistory.Sound.step (h := h.history)
    (e := .createStream streamId maxdataRemote isOutputStream) hk.toLedger trivial
  have htext : h.text.step id h.history.cnx
      (.createStream streamId maxdataRemote isOutputStream) = h.text := rfl
  rw [TextHistory.Kept, TextHistory.step, htext]
  rw [SendHistory.step] at hsound ⊢
  split_ifs at hsound ⊢ with hopened
  · exact hk
  have hnew : streamId ∉ h.history.opened := fun hmem => hopened ⟨streamId, rfl, hmem⟩
  have hnone : h.history.cnx.streams streamId = none :=
    Option.eq_none_iff_forall_not_mem.mpr fun s hs => hnew (hk.sentOffset_eq streamId s hs).1
  set c := h.history.cnx
  have hstep : c.step (.createStream streamId maxdataRemote isOutputStream) =
      c.putStream streamId (c.newStream streamId maxdataRemote isOutputStream) := by
    rw [SendCnx.step, hnone]
    rfl
  rw [hstep] at hsound ⊢
  dsimp only at hsound ⊢
  refine SendCnx.Book.calm hk hsound (List.mem_cons_of_mem streamId)
    (hk.reach_append (fun f hf => ⟨f, .inr (.inl (mem_inFlight.mp hf)), .refl f⟩) id) ?_ ?_
  · intro s hs
    rcases Decidable.em (id = streamId) with rfl | hid
    · -- nothing was written into a stream that did not exist
      simp only [putStream, Function.update_self, Option.some.injEq] at hs
      subst hs
      have hwritten := hk.unopened hnew
      have hsent := List.prefix_nil.mp (hwritten ▸ hk.isPrefix)
      rw [hwritten, hsent]
      exact ⟨rfl, rfl⟩
    · simp only [putStream, Function.update_of_ne hid] at hs
      exact hk.present s hs
  · intro f hf _
    refine ⟨f, ?_, .refl f⟩
    rcases hf with hf | hf
    · exact (List.mem_append.mp hf).imp_right fun hf => .inl (mem_inFlight.mp hf)
    · exact .inr hf

theorem TextHistory.Kept.preparePacket (hk : h.Kept id) (ptype : PacketType)
    (offset capacity : ℕ) (fills : List Fill) :
    (h.step id (.preparePacket ptype offset capacity fills)).Kept id := by
  obtain ⟨frames, hbook, hsent⟩ := SendCnx.Book.preparePacket hk ptype offset capacity fills
  rw [TextHistory.Kept, TextHistory.step, SendHistory.step, if_neg (by simp [SendEvent.opens])]
  exact hbook.record hsent

/-- **Every event keeps the book of a stream** that the application does not reset, and into which
it writes nothing behind a FIN. -/
theorem TextHistory.Kept.step (hk : h.Kept id) (he : e.EndsAtFin h.history.cnx)
    (hreset : ¬ e.Resets id) : (h.step id e).Kept id := by
  cases e with
  | createStream streamId maxdataRemote isOutputStream => exact hk.createStream ..
  | preparePacket ptype offset capacity fills => exact hk.preparePacket ..
  | addToStream streamId data setFin =>
    rcases Decidable.em (streamId = id) with rfl | hid
    · exact hk.addToStream he
    · exact hk.leaves he hid (by rw [StreamText.step, if_neg fun h => hid h.1])
  | resetStream streamId localError => exact hk.leaves he hreset rfl
  | _ => exact hk.leaves he trivial rfl

end Step

end Picoquic
