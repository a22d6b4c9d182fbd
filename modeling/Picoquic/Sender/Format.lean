import Picoquic.Sender.Retained

/-!
# Formatting keeps what was sent

One lemma for each function that writes frames into a packet.

* **`SendCnx.formatStreamFrame_formats`** — a stream advances with the frame that is written;
* **`SendCnx.queuedForRetransmit_kept`** — a saved frame is written, split, or left in the queue
  unless it is not needed any more;
* **`Safe.preparePacket`** — a whole packet.
-/

namespace Picoquic

open SendCnx

/-! ### Streams -/

theorem modifyStream_streams (c : SendCnx) (streamId : ℕ) (f : SendStream → SendStream) :
    (c.modifyStream streamId f).streams =
      Function.update c.streams streamId ((c.streams streamId).map f) := by
  rw [modifyStream]
  cases hs : c.streams streamId with
  | none => rw [Option.map_none, ← hs, Function.update_eq_self, hs]
  | some s => rfl

/-! ### The queues of a connection -/

/-- Where frames are. -/
def SendCnx.queues (c : SendCnx) :
    List SentPacket × List SentPacket × List StreamFrame × List Frame :=
  (c.retransmitQueue, c.retransmitted, c.streamFrameRetransmitQueue, c.miscFrames)

theorem held_congr {c c' : SendCnx} (h : c'.queues = c.queues) : c'.held = c.held := by
  simp only [queues, Prod.mk.injEq] at h
  obtain ⟨h1, -, h2, h3⟩ := h
  rw [held, held, h1, h2, h3]

theorem hasFrame_congr {c c' : SendCnx} (h : c'.queues = c.queues) (f : Frame) :
    c'.HasFrame f ↔ c.HasFrame f := by
  simp only [queues, Prod.mk.injEq] at h
  obtain ⟨h1, h2, h3, h4⟩ := h
  rw [SendCnx.HasFrame, SendCnx.HasFrame, h1, h2, h3, h4]

@[simp]
theorem queues_putStream (c : SendCnx) (streamId : ℕ) (s : SendStream) :
    (c.putStream streamId s).queues = c.queues := rfl

@[simp]
theorem queues_modifyStream (c : SendCnx) (streamId : ℕ) (f : SendStream → SendStream) :
    (c.modifyStream streamId f).queues = c.queues := by
  rw [modifyStream]
  cases c.streams streamId <;> rfl

@[simp]
theorem queues_deleteStreamIfClosed (c : SendCnx) (streamId : ℕ) (s : SendStream) :
    (c.deleteStreamIfClosed streamId s).1.queues = c.queues := by
  rw [deleteStreamIfClosed]
  split_ifs <;> rfl

@[simp]
theorem queues_unblock (c : SendCnx) (streamId : ℕ) (s : SendStream) (mayClose : Bool) :
    (c.unblock streamId s mayClose).queues = c.queues := by
  have h : ∀ r : SendCnx × Bool, r.1.queues = c.queues →
      (if r.2 then r.1
      else
        { r.1.modifyStream streamId fun s => { s with streamDataBlockedSent := false } with
          controlState :=
            { (r.1.modifyStream streamId fun s =>
                { s with streamDataBlockedSent := false }).controlState with
              sentBlockedFrame := false } }).queues = c.queues := by
    intro r hr
    split_ifs
    · exact hr
    · exact (queues_modifyStream r.1 streamId _).trans hr
  rw [unblock]
  refine h _ ?_
  split_ifs <;> simp

/-! ### Formatting functions -/

/-- A formatting function: streams advance with the frames that are written. -/
structure SendCnx.Formats (c c' : SendCnx) (written : List Frame) : Prop where
  follows : c.Follows written c'
  queues_eq : c'.queues = c.queues
  proper : ∀ f ∈ written, f.Proper

theorem SendCnx.Formats.nil (c : SendCnx) : c.Formats c [] :=
  ⟨SendCnx.Follows.refl [] c, rfl, by simp⟩

theorem SendCnx.Safe.formats {c c' : SendCnx} {draft written : List Frame} (h : c.Safe draft)
    (hf : c.Formats c' written) : c'.Safe (draft ++ written) := by
  have hheld := held_congr hf.queues_eq
  refine h.of_follows hf.follows (fun f hc => h.frames f ((hasFrame_congr hf.queues_eq f).mp hc))
    ?_ ?_ ?_
  · intro f hmem
    exact (List.mem_append.mp hmem).elim (h.drafted f) (hf.proper f)
  · intro f hmem
    simp [hmem]
  · intro f hmem
    refine Frame.kept_of_mem ?_
    rw [hheld, ← List.append_assoc]
    exact List.mem_append_left _ hmem

theorem padding_isControl {n : ℕ} {f : Frame} (h : f ∈ padding n) : f.Proper := by
  rw [padding] at h
  split_ifs at h
  · cases h
  · rw [List.mem_singleton.mp h]
    trivial

variable {f : StreamFrame} {s : SendStream} {c : SendCnx} {streamId : ℕ} {draft : List Frame}

/-- A STREAM frame is written with all it contains. -/
theorem carried_encodeLength (byteSpace : ℕ) {item : Item} (h : f.Has item) :
    Carried (encodeLengthOfStreamFrame byteSpace f) f.streamId item := by
  have hitem : ∀ b, ({ f with hasLength := b } : StreamFrame).Has item := by
    intro b
    cases item <;> exact h
  rw [encodeLengthOfStreamFrame]
  split_ifs
  · exact ⟨{ f with hasLength := false }, by simp, rfl, hitem false⟩
  · exact ⟨{ f with hasLength := true }, by simp, rfl, hitem true⟩
  · exact ⟨{ f with hasLength := false }, by simp, rfl, hitem false⟩

theorem proper_encodeLength {byteSpace : ℕ} (h : f.Proper) {g : Frame}
    (hg : g ∈ encodeLengthOfStreamFrame byteSpace f) : g.Proper := by
  rw [encodeLengthOfStreamFrame] at hg
  split_ifs at hg
  · rcases List.mem_append.mp hg with hg | hg
    · exact padding_isControl hg
    · rw [List.mem_singleton.mp hg]
      exact ⟨h.nonempty, h.lt⟩
  · rw [List.mem_singleton.mp hg]
    exact ⟨h.nonempty, h.lt⟩
  · rw [List.mem_singleton.mp hg]
    exact ⟨h.nonempty, h.lt⟩

/-! ### New data -/

variable {written : List Frame} {room : ℕ}

/-- A stream advances with a frame that starts where the stream is. -/
theorem SendStream.advance_follows (hoffset : f.offset = s.sentOffset)
    (hlen : s.sentOffset + f.data.length ≤ s.maxdataRemote)
    (hw : ∀ item, f.Has item → Carried written f.streamId item) :
    s.Follows written f.streamId (s.advance f.data.length f.fin) where
  good hs := ⟨hs.canonical, hs.horizonDelay, hlen, hs.maxdataRemote_lt, hs.nodes⟩
  live := id
  covers _ := id
  data n hn := by
    by_cases h : n < s.sentOffset
    · exact Or.inl h
    · refine Or.inr (hw (.byte n) ?_)
      change n < s.sentOffset + f.data.length at hn
      rw [StreamFrame.Has, hoffset]
      omega
  fins n hn := by
    cases hfin : f.fin with
    | false =>
      rw [hfin] at hn
      exact Or.inl hn
    | true =>
      rw [hfin] at hn
      rcases List.mem_append.mp hn with hn | hn
      · exact Or.inl hn
      · refine Or.inr (hw (.fin n) ⟨hfin, ?_⟩)
        rw [List.mem_singleton.mp hn, hoffset]

/-- The send queue gives at most what is allowed; it gives something unless it is empty or keeps
its first node. -/
theorem takeFromQueue_spec (allowed : ℕ) {queue : List (List UInt8)}
    (hq : ∀ node ∈ queue, node ≠ []) :
    (takeFromQueue allowed queue).1.length ≤ allowed ∧
      (∀ node ∈ (takeFromQueue allowed queue).2, node ≠ []) ∧
      ((takeFromQueue allowed queue).1 = [] →
        queue = [] ∨ (takeFromQueue allowed queue).2 ≠ []) := by
  cases queue with
  | nil => simp [takeFromQueue]
  | cons node next =>
    have hnode := hq node List.mem_cons_self
    rw [takeFromQueue]
    refine ⟨by simp, ?_, ?_⟩
    · intro n hn
      by_cases hle : node.length ≤ allowed
      · rw [if_pos hle] at hn
        exact hq n (List.mem_cons_of_mem _ hn)
      · rw [if_neg hle] at hn
        rcases List.mem_cons.mp hn with rfl | hn
        · intro hnil
          rw [List.drop_eq_nil_iff] at hnil
          exact hle hnil
        · exact hq n (List.mem_cons_of_mem _ hn)
    · intro htake
      by_cases hle : node.length ≤ allowed
      · rw [List.take_of_length_le hle] at htake
        exact absurd htake hnode
      · simp [if_neg hle]

theorem SendCnx.formats_unblock {s s' : SendStream} (hs : c.streams streamId = some s)
    (h : s.Follows written streamId s') (hp : ∀ f ∈ written, f.Proper) (dataSent : ℕ)
    (mayClose : Bool) :
    c.Formats (SendCnx.unblock { c with dataSent := dataSent } streamId s' mayClose) written := by
  have hf := SendCnx.Follows.unblock (c := { c with dataSent := dataSent }) hs h mayClose
  exact ⟨⟨hf.streams, hf.control, hf.acked⟩, by rw [queues_unblock]; rfl, hp⟩

theorem SendCnx.formats_idle (hs : c.streams streamId = some s) :
    c.Formats (c.unblock streamId s false) [] :=
  ⟨SendCnx.Follows.unblock hs (SendStream.Follows.refl [] streamId s) false, by simp, by simp⟩

/-- A frame with new data is written. -/
theorem SendCnx.formats_advance {s s' : SendStream} (hs : c.streams f.streamId = some s)
    (hgood : s.Good) (hoffset : f.offset = s.sentOffset)
    (hlen : f.data.length ≤ s.maxdataRemote - s.sentOffset) (hne : f.data ≠ [] ∨ f.fin = true)
    (hs' : ∀ new, (s.advance f.data.length f.fin).Follows new f.streamId s')
    (byteSpace dataSent : ℕ) (mayClose : Bool) :
    c.Formats (SendCnx.unblock { c with dataSent := dataSent } f.streamId s' mayClose)
      (encodeLengthOfStreamFrame byteSpace f) := by
  have hle := hgood.sentOffset_le
  have hlt := hgood.maxdataRemote_lt
  have hproper : f.Proper := ⟨hne, by omega⟩
  have hadv := SendStream.advance_follows hoffset (by omega)
    fun item hitem => carried_encodeLength byteSpace hitem
  exact formats_unblock hs (hadv.trans (hs' _))
    (fun g hg => proper_encodeLength hproper hg) dataSent mayClose

/-- `picoquic_format_stream_frame` when the application is asked. -/
theorem SendCnx.formatPolledFrame_formats (hs : c.streams streamId = some s) (hgood : s.Good)
    (byteSpace : ℕ) {allowed : ℕ} (hallowed : allowed ≤ s.maxdataRemote - s.sentOffset)
    (polled : Option Polled) :
    c.Formats (c.formatPolledFrame streamId s byteSpace allowed polled).1
      (c.formatPolledFrame streamId s byteSpace allowed polled).2 := by
  rw [formatPolledFrame]
  cases hd : polled.filter fun d => decide (d.data.length ≤ allowed) with
  | none => exact formats_idle hs
  | some d =>
    have hle : d.data.length ≤ allowed := by
      simpa using (Option.filter_eq_some_iff.mp hd).2
    dsimp only
    by_cases hempty : d.data.length = 0 ∧ d.isFin = false
    · rw [if_pos hempty]
      exact formats_idle hs
    rw [if_neg hempty]
    refine formats_advance (f := ⟨streamId, s.sentOffset, d.data, d.isFin, false⟩) hs hgood
      rfl (hle.trans hallowed) ?_ ?_ byteSpace _ _
    · by_cases hfin : d.isFin = true
      · exact Or.inr hfin
      · left
        intro hnil
        exact hempty ⟨by simp [show d.data = [] from hnil], by simpa using hfin⟩
    · intro new
      split_ifs
      · exact SendStream.follows_of_eq rfl rfl ⟨le_rfl, id⟩ (fun _ => Or.inl) id rfl
      · exact SendStream.follows_of_eq rfl rfl ⟨le_rfl, id⟩ (fun _ => Or.inl) id rfl

/-- `picoquic_format_stream_frame` when data are queued, or the FIN is due. -/
theorem SendCnx.formatQueuedFrame_formats (hs : c.streams streamId = some s) (hgood : s.Good)
    (byteSpace : ℕ) {allowed : ℕ} (hallowed : allowed ≤ s.maxdataRemote - s.sentOffset)
    (hdue : s.sendQueue = [] → s.finRequested = true) :
    c.Formats (c.formatQueuedFrame streamId s byteSpace allowed).1
      (c.formatQueuedFrame streamId s byteSpace allowed).2 := by
  obtain ⟨hle, hnodes, hempty⟩ := takeFromQueue_spec allowed hgood.nodes
  rw [formatQueuedFrame]
  generalize takeFromQueue allowed s.sendQueue = taken at hle hnodes hempty ⊢
  obtain ⟨data, sendQueue⟩ := taken
  dsimp only at hle hnodes hempty ⊢
  have hqueue : ∀ new, (s.advance data.length (sendQueue.isEmpty && s.finRequested)).Follows new
      streamId { s.advance data.length (sendQueue.isEmpty && s.finRequested) with
        sendQueue := sendQueue } := fun new =>
    SendStream.follows_of_eq rfl rfl ⟨le_rfl, id⟩ (fun node hnode => Or.inr (hnodes node hnode)) id
      rfl
  by_cases hnothing : sendQueue ≠ [] ∧ data.length = 0
  · rw [if_pos hnothing]
    have hfin : (sendQueue.isEmpty && s.finRequested) = false := by simp [hnothing.1]
    have hstay :
        s.Follows [] streamId (s.advance data.length (sendQueue.isEmpty && s.finRequested)) := by
      rw [hfin, hnothing.2]
      exact SendStream.follows_of_eq rfl rfl ⟨le_rfl, id⟩ (fun _ => Or.inl) id rfl
    exact formats_unblock hs (hstay.trans (hqueue [])) (by simp) _ _
  · rw [if_neg hnothing]
    refine formats_advance
      (f := ⟨streamId, s.sentOffset, data, sendQueue.isEmpty && s.finRequested, false⟩) hs hgood rfl
      (hle.trans hallowed) ?_ hqueue byteSpace _ _
    by_cases hdata : data = []
    · right
      -- without data the send queue was empty, so the FIN is due
      have hq : sendQueue = [] := by
        by_contra hne
        exact hnothing ⟨hne, by simp [hdata]⟩
      have hfin := hdue ((hempty hdata).resolve_right (by simp [hq]))
      simp [hq, hfin]
    · exact Or.inl hdata

/-- A RESET_STREAM or STOP_SENDING frame enters the history when it is written. -/
theorem SendCnx.formats_request {c c' : SendCnx} {frame : Frame} (hr : frame.isRequest = true)
    (h : SendCnx.Follows [frame] { c with sentControl := c.sentControl ++ [frame] } c')
    (hq : c'.queues = c.queues) : c.Formats c' [frame] where
  follows :=
    { streams := h.streams
      control := by
        intro f hf
        rcases h.control f hf with hf | hf
        · rcases List.mem_append.mp hf with hf | hf
          · exact Or.inl hf
          · exact Or.inr ⟨hf, List.mem_singleton.mp hf ▸ hr⟩
        · exact Or.inr hf
      acked := h.acked }
  queues_eq := hq
  proper := by
    intro f hf
    rw [List.mem_singleton.mp hf]
    cases frame with
    | stream => cases hr
    | _ => trivial

theorem SendCnx.formatStreamResetFrame_formats (hs : c.streams streamId = some s) (room : ℕ) :
    c.Formats (c.formatStreamResetFrame streamId s room).1
      (c.formatStreamResetFrame streamId s room).2 := by
  rw [formatStreamResetFrame]
  split_ifs
  · have hr : (Frame.resetStream streamId s.localError s.sentOffset).isRequest = true := rfl
    refine formats_request hr (SendCnx.Follows.deleteStreamIfClosed hs ?_)
      (queues_deleteStreamIfClosed _ streamId _)
    exact SendStream.follows_of_eq rfl rfl ⟨le_rfl, id⟩ (by simp) (by simp) rfl
  · exact SendCnx.Formats.nil c

theorem SendCnx.formatStopSendingFrame_formats (hs : c.streams streamId = some s) (room : ℕ) :
    c.Formats (c.formatStopSendingFrame streamId s room).1
      (c.formatStopSendingFrame streamId s room).2 := by
  have hput : ∀ new, s.Follows new streamId { s with stopSendingSent := true } := fun new =>
    SendStream.follows_of_eq rfl rfl ⟨le_rfl, id⟩ (fun _ => Or.inl) id rfl
  rw [formatStopSendingFrame]
  split_ifs
  · exact ⟨SendCnx.Follows.putStream hs (hput []), rfl, by simp⟩
  · have hr : (Frame.stopSending streamId s.localStopError).isRequest = true := rfl
    dsimp only
    split_ifs
    · exact formats_request hr (SendCnx.Follows.putStream hs (hput _)) rfl
    · exact SendCnx.Formats.nil c

/-- **A stream advances with the frame that is written.** -/
theorem SendCnx.formatStreamFrame_formats
    (hgood : ∀ streamId s, c.streams streamId = some s → s.Good) (streamId : ℕ)
    (polled : Option Polled) (room : ℕ) :
    c.Formats (c.formatStreamFrame streamId polled room).1
      (c.formatStreamFrame streamId polled room).2 := by
  rw [formatStreamFrame]
  cases hs : c.streams streamId with
  | none => exact SendCnx.Formats.nil c
  | some s =>
    have hs' := hgood streamId s hs
    have hsub : sub64 s.maxdataRemote s.sentOffset = s.maxdataRemote - s.sentOffset :=
      sub64_of_le hs'.sentOffset_le (by have := hs'.maxdataRemote_lt; omega)
    dsimp only
    split_ifs with hid hreset hstop hidle hroom hpoll
    · exact SendCnx.Formats.nil c
    · exact formatStreamResetFrame_formats hs room
    · exact formatStopSendingFrame_formats hs room
    · exact SendCnx.Formats.nil c
    · exact formats_idle hs
    · exact formatPolledFrame_formats hs hs' _ (by rw [hsub]; omega) polled
    · refine formatQueuedFrame_formats hs hs' _ (by rw [hsub]; omega) fun hq => ?_
      cases ha : s.isActive <;> simp_all

/-! ### Saved frames -/

/-- What fits is written as a whole. -/
theorem StreamFrame.resend_spec (hf : f.Proper) (hroom : f.length ≤ room) :
    (∀ item, f.Has item → Carried (f.resend room) f.streamId item) ∧
      ∀ g ∈ f.resend room, g.Proper := by
  have hitem : ∀ item, f.Has item → ({ f with hasLength := true } : StreamFrame).Has item := by
    intro item h
    cases item <;> exact h
  have hproper : (Frame.stream f).Proper := hf
  rw [resend]
  split_ifs with hlength hpad hheader
  · exact ⟨fun item h => ⟨f, by simp, rfl, h⟩, by simpa using hproper⟩
  · refine ⟨fun item h => ⟨f, by simp, rfl, h⟩, fun g hg => ?_⟩
    rcases List.mem_append.mp hg with hg | hg
    · exact padding_isControl hg
    · rw [List.mem_singleton.mp hg]
      exact hproper
  · refine ⟨fun item h => ⟨{ f with hasLength := true }, by simp, rfl, hitem item h⟩,
      fun g hg => ?_⟩
    rw [List.mem_singleton.mp hg]
    exact ⟨hf.nonempty, hf.lt⟩
  · -- there are three bytes more than the frame without its length needs
    have hvarint : encodeVarintLength f.data.length ≤ f.data.length + 3 := by
      rw [encodeVarintLength]
      split_ifs <;> omega
    rw [length] at hroom hpad
    omega

/-- What does not fit has more data than there is space for. -/
theorem StreamFrame.available_lt_of_space (hroom : ¬ f.length ≤ room)
    (hconsumed : f.consumed < room)
    (hspace : streamHeaderLength f.streamId f.offset + encodeVarintLength (room - 2) < room) :
    f.available room < f.data.length := by
  have hmono : f.data.length ≤ room - 2 →
      encodeVarintLength f.data.length ≤ encodeVarintLength (room - 2) := encodeVarintLength_mono
  have hpos := encodeVarintLength_pos (room - 2)
  have hheader' : 2 ≤ streamHeaderLength f.streamId f.offset := by
    have := encodeVarintLength_pos f.streamId
    rw [streamHeaderLength]
    omega
  rw [length, consumed] at hroom
  rw [consumed] at hconsumed
  rw [available]
  cases hl : f.hasLength with
  | false =>
    simp only [hl, Bool.false_eq_true, if_false] at hroom
    omega
  | true =>
    simp only [hl, if_true] at hroom
    by_cases hle : f.data.length ≤ room - 2
    · have := hmono hle
      omega
    · omega

theorem StreamFrame.available_lt (hroom : ¬ f.length ≤ room) (hs : f.splits room = true) :
    f.available room < f.data.length := by
  simp only [splits, Bool.and_eq_true, decide_eq_true_eq] at hs
  exact available_lt_of_space hroom hs.1.1 hs.1.2

/-- What a split frame contains is in one of its two parts. -/
theorem StreamFrame.split_spec (hf : f.Proper) {n : ℕ} (hn : n < f.data.length) (hpos : 0 < n) :
    (∀ item, f.Has item → (f.front n).Has item ∨ (f.back n).Has item) ∧
      (f.front n).Proper ∧ (f.back n).Proper := by
  have hlt := hf.lt
  have htake : (f.data.take n).length = n := by simp; omega
  have hdrop : (f.data.drop n).length = f.data.length - n := by simp
  refine ⟨fun item h => ?_, ⟨Or.inl ?_, ?_⟩, ⟨Or.inl ?_, ?_⟩⟩
  · cases item with
    | byte k =>
      obtain ⟨h1, h2⟩ := h
      simp only [StreamFrame.Has, front, back, htake, hdrop]
      omega
    | fin k =>
      obtain ⟨h1, h2⟩ := h
      right
      refine ⟨h1, ?_⟩
      simp only [back, hdrop]
      omega
  · exact List.ne_nil_of_length_pos (by rw [front, htake]; exact hpos)
  · simp only [front, htake]
    omega
  · exact List.ne_nil_of_length_pos (by rw [back, hdrop]; omega)
  · simp only [back, hdrop]
    omega

/-- What the first frame of the queue turns into. -/
def Resent.frames : Resent → List Frame
  | .all written => written
  | .rest written f => written ++ [.stream f]

/-- **A saved frame is kept**: written, split, left in the queue, or not needed any more. -/
theorem SendCnx.formatStreamFrameForRetransmit_spec
    (hgood : ∀ streamId s, c.streams streamId = some s → s.Good) (room : ℕ) (hf : f.Proper) :
    (Frame.stream f).Kept c (c.formatStreamFrameForRetransmit room f).frames ∧
      ∀ g ∈ (c.formatStreamFrameForRetransmit room f).frames, g.Proper := by
  rw [formatStreamFrameForRetransmit]
  split_ifs with hneeded hroom hsplit
  · refine ⟨fun s hs hreset item hitem => Or.inl ?_, by simp [Resent.frames]⟩
    rw [hs] at hneeded
    simp only [hreset, Bool.not_false, Bool.true_and, Bool.not_not] at hneeded
    obtain ⟨hmin, -⟩ := hitem.position_mem hf
    refine covers_of_checkSackList (hgood _ s hs).canonical hf.offset_lt hneeded hmin ?_
    cases item with
    | byte n => exact le_of_lt hitem.2
    | fin n => exact le_of_eq hitem.2
  · obtain ⟨hcarried, hproper⟩ := StreamFrame.resend_spec hf hroom
    exact ⟨fun s _ _ item hitem => Or.inr (hcarried item hitem), hproper⟩
  · have hlt := StreamFrame.available_lt hroom hsplit
    have hpos : 0 < f.available room := by
      simp only [StreamFrame.splits, Bool.and_eq_true, decide_eq_true_eq] at hsplit
      rw [StreamFrame.available]
      omega
    obtain ⟨hparts, hfront, hback⟩ := StreamFrame.split_spec hf hlt hpos
    refine ⟨fun s _ _ item hitem => Or.inr ?_, ?_⟩
    · rcases hparts item hitem with h | h
      · exact ⟨f.front (f.available room), by simp [Resent.frames], rfl, h⟩
      · exact ⟨f.back (f.available room), by simp [Resent.frames], rfl, h⟩
    · intro g hg
      rcases List.mem_pair.mp hg with rfl | rfl
      · exact hfront
      · exact hback
  · refine ⟨Frame.kept_of_mem (by simp [Resent.frames]), fun g hg => ?_⟩
    rw [List.mem_singleton.mp hg]
    exact hf

/-- The whole queue. -/
theorem SendCnx.queuedForRetransmit_kept
    (hgood : ∀ streamId s, c.streams streamId = some s → s.Good) (room : ℕ)
    {queue : List StreamFrame} (hq : ∀ f ∈ queue, f.Proper) :
    (∀ f ∈ queue, (Frame.stream f).Kept c ((c.queuedForRetransmit room queue).1 ++
      (c.queuedForRetransmit room queue).2.map Frame.stream)) ∧
      (∀ g ∈ (c.queuedForRetransmit room queue).1, g.Proper) ∧
      ∀ g ∈ (c.queuedForRetransmit room queue).2, g.Proper := by
  induction queue generalizing room with
  | nil => simp [queuedForRetransmit]
  | cons f queue ih =>
    have hrest : ∀ g ∈ queue, g.Proper := fun g hg => hq g (List.mem_cons_of_mem _ hg)
    obtain ⟨hkept, hproper⟩ :=
      formatStreamFrameForRetransmit_spec hgood room (hq f List.mem_cons_self)
    rw [queuedForRetransmit]
    by_cases hroom : room = 0
    · rw [if_pos hroom]
      refine ⟨fun g hg => Frame.kept_of_mem ?_, by simp, hq⟩
      simpa using hg
    rw [if_neg hroom]
    cases hsent : c.formatStreamFrameForRetransmit room f with
    | rest written f' =>
      rw [hsent] at hkept hproper
      simp only [Resent.frames] at hkept hproper ⊢
      refine ⟨fun g hg => ?_, fun g hg => hproper g (by simp [hg]), fun g hg => ?_⟩
      · rcases List.mem_cons.mp hg with rfl | hg
        · refine hkept.mono (SendCnx.Follows.refl [] c) fun k hk => ?_
          simp only [List.mem_append, List.map_cons, List.mem_cons] at hk ⊢
          simp at hk
          tauto
        · exact Frame.kept_of_mem (by simp [hg])
      · rcases List.mem_cons.mp hg with rfl | hg
        · exact hproper (.stream g) (by simp)
        · exact hrest g hg
    | all written =>
      rw [hsent] at hkept hproper
      simp only [Resent.frames] at hkept hproper ⊢
      obtain ⟨ihkept, ihwritten, ihqueue⟩ := ih (room - framesLength written) hrest
      refine ⟨fun g hg => ?_, fun g hg => ?_, ihqueue⟩
      · rcases List.mem_cons.mp hg with rfl | hg
        · exact hkept.mono (SendCnx.Follows.refl [] c) fun k hk => by simp [hk]
        · refine (ihkept g hg).mono (SendCnx.Follows.refl [] c) fun k hk => ?_
          rw [List.append_assoc]
          exact List.mem_append_right _ hk
      · exact (List.mem_append.mp hg).elim (hproper g) (ihwritten g)

/-! ### Packets -/

/-- The queue of STREAM frames goes into a packet. -/
theorem SendCnx.Safe.queuedForRetransmit (h : c.Safe draft) (room : ℕ) :
    (c.formatStreamFramesQueuedForRetransmit room).1.Safe
      (draft ++ (c.formatStreamFramesQueuedForRetransmit room).2) := by
  obtain ⟨hkept, hwritten, hqueue⟩ := queuedForRetransmit_kept h.streams room
    fun f hf => h.frames (.stream f) (Or.inr (Or.inr (Or.inl ⟨f, hf, rfl⟩)))
  rw [formatStreamFramesQueuedForRetransmit]
  generalize c.queuedForRetransmit room c.streamFrameRetransmitQueue = r at hkept hwritten hqueue ⊢
  have hc : c.Follows [] { c with streamFrameRetransmitQueue := r.2 } := follows_of_eq rfl rfl rfl
  refine h.of_follows hc
    (fun f hf => h.frames_of_queues hf (fun _ => Or.inl) (fun _ => Or.inl)
      (fun g hg => Or.inr (hqueue g hg)) (fun _ => Or.inl))
    ?_ (by simp)
    fun f hf => kept_of_queues hf (fun _ hp _ => Or.inl hp) ?_ (fun _ => Or.inl)
      (fun f hf => List.mem_append_left _ hf)
  · intro f hf
    exact (List.mem_append.mp hf).elim (h.drafted f) (hwritten f)
  · -- what is not written stays in the queue
    refine fun g hg => Or.inr ((hkept g hg).mono hc fun k hk => ?_)
    rcases List.mem_append.mp hk with hk | hk
    · simp [hk]
    · obtain ⟨k', hk', rfl⟩ := List.mem_map.mp hk
      exact List.mem_append_left _ (mem_held.mpr (Or.inr (Or.inl ⟨k', hk', rfl⟩)))

/-- The first misc frame goes into a packet. -/
theorem SendCnx.Safe.firstMiscFrame (h : c.Safe draft) (room : ℕ) :
    (c.formatFirstMiscFrame room).1.Safe (draft ++ (c.formatFirstMiscFrame room).2) := by
  rw [formatFirstMiscFrame]
  cases hm : c.miscFrames with
  | nil => simpa using h
  | cons f rest =>
    dsimp only
    split_ifs
    swap
    · simpa using h
    have hmem : ∀ g ∈ f :: rest, g.Proper := fun g hg =>
      h.frames g (Or.inr (Or.inr (Or.inr (hm ▸ hg))))
    have hfollows : c.Follows [] { c with miscFrames := rest } := follows_of_eq rfl rfl rfl
    refine h.of_follows hfollows
      (fun g hg => h.frames_of_queues hg (fun _ => Or.inl) (fun _ => Or.inl) (fun _ => Or.inl) ?_)
      ?_ (by simp)
      fun g hg => kept_of_queues hg (fun _ hp _ => Or.inl hp) (fun _ => Or.inl) ?_
        (fun g hg => List.mem_append_left _ hg)
    · exact fun g hg => Or.inr (hmem g (List.mem_cons_of_mem _ hg))
    · intro g hg
      rcases List.mem_append.mp hg with hg | hg
      · exact h.drafted g hg
      · rw [List.mem_singleton.mp hg]
        exact hmem f List.mem_cons_self
    · intro g hg
      rw [hm] at hg
      rcases List.mem_cons.mp hg with rfl | hg
      · exact Or.inr (Frame.kept_of_mem (by simp))
      · exact Or.inl hg

theorem SendCnx.Safe.format (h : c.Safe draft) (room : ℕ) (f : Fill) :
    (c.format room f).1.Safe (draft ++ (c.format room f).2) := by
  cases f with
  | misc => exact h.firstMiscFrame room
  | retransmit => exact h.queuedForRetransmit room
  | stream streamId polled =>
    exact h.formats (formatStreamFrame_formats h.streams streamId polled room)
  | control frame bytes =>
    refine h.formats ⟨SendCnx.Follows.refl _ c, rfl, fun g hg => ?_⟩
    rw [SendCnx.format] at hg
    split_ifs at hg
    · rw [List.mem_singleton.mp hg]
      trivial
    · cases hg

/-- A packet is sent with everything that was collected. -/
theorem SendCnx.Safe.sendFrames {draft frames : List Frame} (h : c.Safe draft)
    (hdraft : ∀ f ∈ draft, f ∈ frames) (hproper : ∀ f ∈ frames, f.Proper) (ptype : PacketType)
    (offset : ℕ) : (c.sendFrames ptype offset frames).Safe [] := by
  rw [SendCnx.sendFrames]
  split_ifs with hnil
  · subst hnil
    rw [List.eq_nil_iff_forall_not_mem.mpr fun f hf => List.not_mem_nil (hdraft f hf)] at h
    exact h
  have hfollows : c.Follows [] (c.queueForRetransmit (.plain ptype offset frames)) :=
    follows_of_eq rfl rfl rfl
  refine h.of_follows hfollows
    (fun f hf => h.frames_of_queues hf ?_ (fun _ => Or.inl) (fun _ => Or.inl) (fun _ => Or.inl))
    (by simp) (by simp) ?_
  · intro p hp
    rcases List.mem_cons.mp hp with rfl | hp
    · exact Or.inr hproper
    · exact Or.inl hp
  · intro f hf
    rcases List.mem_append.mp hf with hf | hf
    · have hheld : f ∈ c.held ++ ([] : List Frame) := List.mem_append_left _ hf
      exact kept_of_queues hheld (fun _ hp _ => Or.inl (List.mem_cons_of_mem _ hp))
        (fun _ => Or.inl) (fun _ => Or.inl) (by simp)
    · refine Frame.kept_of_mem (List.mem_append_left _ ?_)
      exact mem_held.mpr (Or.inl ⟨_, List.mem_cons_self, rfl, hdraft f hf⟩)

/-- **A whole packet.** -/
theorem SendCnx.Safe.preparePacket (h : c.Safe []) (ptype : PacketType) (offset capacity : ℕ)
    (fills : List Fill) : (c.preparePacket ptype offset capacity fills).Safe [] := by
  have hfill : ∀ (fills : List Fill) (r : SendCnx × List Frame), r.1.Safe r.2 →
      (fills.foldl (fill capacity) r).1.Safe (fills.foldl (fill capacity) r).2 := by
    intro fills
    induction fills with
    | nil => exact fun r hr => hr
    | cons f fills ih => exact fun r hr => ih _ (hr.format _ f)
  have hend := hfill fills (c, []) h
  exact hend.sendFrames (fun _ hf => hf) hend.drafted ptype offset

end Picoquic
