import Picoquic.Sack.Canonical
import Picoquic.Sender.Repair
import Picoquic.Sender.Send

/-!
# What a connection holds on to

A byte of a stream, or its FIN, is *retained* while it is recorded as acknowledged or carried by a
frame that is *held*: in a packet that will be repeated if it is lost, or in one of the queues.

* **`SendCnx.Remembers`** — everything that was sent is retained;
* **`SendCnx.Safe`** — the invariant, while the frames `draft` of a packet are collected;
* **`Safe.of_follows`** — the rule for one step: the streams may only advance with the frames
  that are added, and every frame that was held is kept.
-/

namespace Picoquic

open SendCnx

/-! ### Items -/

/-- A byte of a stream, or a FIN. -/
inductive Item
  | byte (n : ℕ)
  | fin (n : ℕ)

/-- The position under which an item is recorded when it is acknowledged. -/
def Item.position : Item → ℕ
  | .byte n | .fin n => n

/-- A frame contains an item. -/
def StreamFrame.Has (f : StreamFrame) : Item → Prop
  | .byte n => f.offset ≤ n ∧ n < f.offset + f.data.length
  | .fin n => f.fin = true ∧ n = f.offset + f.data.length

/-- One of the frames contains an item of a stream. -/
def Carried (frames : List Frame) (streamId : ℕ) (item : Item) : Prop :=
  ∃ f, Frame.stream f ∈ frames ∧ f.streamId = streamId ∧ f.Has item

/-- An item of a stream is acknowledged, or one of the frames contains it. -/
def Retained (held : List Frame) (streamId : ℕ) (s : SendStream) (item : Item) : Prop :=
  SackCovers s.sackList.ackTree item.position ∨ Carried held streamId item

/-- The frames of the packets that will be repeated if they are lost, and those of the queues. -/
def SendCnx.held (c : SendCnx) : List Frame :=
  (c.retransmitQueue.filter (·.willRepeat)).flatMap (·.frames) ++
    c.streamFrameRetransmitQueue.map Frame.stream ++ c.miscFrames

/-- Everything that was sent is retained: the data and the FIN of the streams that exist and were
not reset, and the RESET_STREAM and STOP_SENDING frames. -/
structure SendCnx.Remembers (c : SendCnx) (held : List Frame) : Prop where
  data : ∀ streamId s, c.streams streamId = some s → s.resetSent = false →
    ∀ n < s.sentOffset, Retained held streamId s (.byte n)
  fin : ∀ streamId s, c.streams streamId = some s → s.resetSent = false →
    ∀ n ∈ s.finOffsets, Retained held streamId s (.fin n)
  control : ∀ f ∈ c.sentControl, f ∈ c.ackedControl ∨ f ∈ held

variable {c : SendCnx} {f : Frame} {streamId : ℕ} {new : List Frame} {s s' : SendStream}

theorem mem_held :
    f ∈ c.held ↔ (∃ p ∈ c.retransmitQueue, p.willRepeat = true ∧ f ∈ p.frames) ∨
      (∃ g ∈ c.streamFrameRetransmitQueue, Frame.stream g = f) ∨ f ∈ c.miscFrames := by
  simp only [held, List.mem_append, List.mem_flatMap, List.mem_filter, List.mem_map,
    or_assoc, and_assoc]

theorem Carried.mono {l l' : List Frame} (h : ∀ f ∈ l, f ∈ l') {item : Item}
    (hc : Carried l streamId item) : Carried l' streamId item := by
  obtain ⟨f, hf, hid, hitem⟩ := hc
  exact ⟨f, h _ hf, hid, hitem⟩

/-! ### Well-formed frames and streams -/

/-- A STREAM frame as the code builds it: it contains something, and its end is a 62-bit
number. -/
structure StreamFrame.Proper (f : StreamFrame) : Prop where
  nonempty : f.data ≠ [] ∨ f.fin = true
  lt : f.offset + f.data.length < 2 ^ 62

/-- A well-formed frame. -/
def Frame.Proper : Frame → Prop
  | .stream f => f.Proper
  | _ => True

/-- The limits of a stream are 62-bit numbers that are respected, its acknowledgements are in
canonical form, and there are no empty nodes in its send queue. -/
structure SendStream.Good (s : SendStream) : Prop where
  canonical : SackCanonical s.sackList.ackTree
  horizonDelay : s.sackList.horizonDelay = 0
  sentOffset_le : s.sentOffset ≤ s.maxdataRemote
  maxdataRemote_lt : s.maxdataRemote < 2 ^ 62
  nodes : ∀ node ∈ s.sendQueue, node ≠ []

/-- What a frame acknowledges is what it contains. -/
theorem StreamFrame.Proper.last_eq {f : StreamFrame} (h : f.Proper) :
    f.last + (if f.fin then 0 else 1) = f.offset + f.data.length ∧ f.offset ≤ f.last := by
  have hlt := h.lt
  rw [last, u64_of_lt (by omega)]
  cases hfin : f.fin with
  | true => simp [sub64_of_le (Nat.zero_le _) (show f.offset + f.data.length < 2 ^ 64 by omega)]
  | false =>
    have hlen : 0 < f.data.length :=
      List.length_pos_of_ne_nil (h.nonempty.resolve_right (by simp [hfin]))
    simp only [Bool.false_eq_true, if_false]
    rw [sub64_of_le (by omega) (by omega)]
    omega

theorem StreamFrame.Proper.offset_lt {f : StreamFrame} (h : f.Proper) : f.offset < 2 ^ 63 := by
  have hlt := h.lt
  omega

theorem StreamFrame.Has.position_mem {f : StreamFrame} (hf : f.Proper) {item : Item}
    (h : f.Has item) : f.offset ≤ item.position ∧ item.position ≤ f.last := by
  obtain ⟨hlast, hle⟩ := hf.last_eq
  cases item with
  | byte n =>
    obtain ⟨h1, h2⟩ := h
    refine ⟨h1, ?_⟩
    change n ≤ f.last
    split_ifs at hlast <;> omega
  | fin n =>
    obtain ⟨h1, h2⟩ := h
    rw [if_pos h1] at hlast
    change f.offset ≤ n ∧ n ≤ f.last
    omega

/-! ### Streams that advance -/

/-- A stream that goes on: nothing that was acknowledged is forgotten, and data and FIN are only
sent with the frames `new`. -/
structure SendStream.Follows (new : List Frame) (streamId : ℕ) (s s' : SendStream) : Prop where
  good : s.Good → s'.Good
  live : s'.resetSent = false → s.resetSent = false
  covers : ∀ n, SackCovers s.sackList.ackTree n → SackCovers s'.sackList.ackTree n
  data : ∀ n < s'.sentOffset, n < s.sentOffset ∨ Carried new streamId (.byte n)
  fins : ∀ n ∈ s'.finOffsets, n ∈ s.finOffsets ∨ Carried new streamId (.fin n)

theorem SendStream.Follows.refl (new : List Frame) (streamId : ℕ) (s : SendStream) :
    s.Follows new streamId s :=
  ⟨id, id, fun _ => id, fun _ => Or.inl, fun _ => Or.inl⟩

theorem SendStream.Follows.trans {s s' s'' : SendStream} (h : s.Follows new streamId s')
    (h' : s'.Follows new streamId s'') : s.Follows new streamId s'' where
  good hs := h'.good (h.good hs)
  live hs := h.live (h'.live hs)
  covers n hn := h'.covers n (h.covers n hn)
  data n hn := (h'.data n hn).elim (h.data n) Or.inr
  fins n hn := (h'.fins n hn).elim (h.fins n) Or.inr

/-- Changes of the fields that play no role here. -/
theorem SendStream.follows_of_eq (hsack : s'.sackList = s.sackList)
    (hoffset : s'.sentOffset = s.sentOffset) (hmax : s.maxdataRemote ≤ s'.maxdataRemote ∧
      (s.maxdataRemote < 2 ^ 62 → s'.maxdataRemote < 2 ^ 62))
    (hqueue : ∀ node ∈ s'.sendQueue, node ∈ s.sendQueue ∨ node ≠ [])
    (hreset : s'.resetSent = false → s.resetSent = false) (hfins : s'.finOffsets = s.finOffsets) :
    s.Follows new streamId s' where
  good hs :=
    { canonical := hsack ▸ hs.canonical
      horizonDelay := hsack ▸ hs.horizonDelay
      sentOffset_le := hoffset ▸ hs.sentOffset_le.trans hmax.1
      maxdataRemote_lt := hmax.2 hs.maxdataRemote_lt
      nodes := fun node hnode => (hqueue node hnode).elim (hs.nodes node) id }
  live := hreset
  covers _ hn := hsack ▸ hn
  data _ hn := Or.inl (hoffset ▸ hn)
  fins _ hn := Or.inl (hfins ▸ hn)

/-- A RESET_STREAM or STOP_SENDING frame. -/
def Frame.isRequest : Frame → Bool
  | .resetStream .. | .stopSending .. => true
  | _ => false

/-- A connection whose streams go on, while the queues stay as they are. -/
structure SendCnx.Follows (new : List Frame) (c c' : SendCnx) : Prop where
  streams : ∀ streamId s', c'.streams streamId = some s' →
    ∃ s, c.streams streamId = some s ∧ s.Follows new streamId s'
  control : ∀ f ∈ c'.sentControl, f ∈ c.sentControl ∨ f ∈ new ∧ f.isRequest = true
  acked : ∀ f ∈ c.ackedControl, f ∈ c'.ackedControl

theorem SendCnx.Follows.refl (new : List Frame) (c : SendCnx) : c.Follows new c :=
  ⟨fun streamId s h => ⟨s, h, SendStream.Follows.refl new streamId s⟩, fun _ => Or.inl, fun _ => id⟩

theorem SendCnx.follows_of_eq {c c' : SendCnx} (hstreams : c'.streams = c.streams)
    (hsent : c'.sentControl = c.sentControl) (hacked : c'.ackedControl = c.ackedControl) :
    c.Follows new c' where
  streams streamId s h := ⟨s, hstreams ▸ h, SendStream.Follows.refl new streamId s⟩
  control _ hf := Or.inl (hsent ▸ hf)
  acked _ hf := hacked ▸ hf

theorem SendCnx.Follows.trans {c c' c'' : SendCnx} (h : c.Follows new c')
    (h' : c'.Follows new c'') : c.Follows new c'' where
  streams streamId s'' hs'' := by
    obtain ⟨s', hs', hf'⟩ := h'.streams streamId s'' hs''
    obtain ⟨s, hs, hf⟩ := h.streams streamId s' hs'
    exact ⟨s, hs, hf.trans hf'⟩
  control f hf := (h'.control f hf).elim (h.control f) Or.inr
  acked f hf := h'.acked f (h.acked f hf)

theorem SendCnx.Follows.putStream (hs : c.streams streamId = some s)
    (h : s.Follows new streamId s') : c.Follows new (c.putStream streamId s') where
  streams id r hr := by
    by_cases hid : id = streamId
    · subst hid
      simp only [SendCnx.putStream, Function.update_self, Option.some.injEq] at hr
      exact ⟨s, hs, hr ▸ h⟩
    · simp only [SendCnx.putStream, Function.update_of_ne hid] at hr
      exact ⟨r, hr, SendStream.Follows.refl new id r⟩
  control _ := Or.inl
  acked _ := id

theorem SendCnx.Follows.deleteStreamIfClosed (hs : c.streams streamId = some s)
    (h : s.Follows new streamId s') : c.Follows new (c.deleteStreamIfClosed streamId s').1 := by
  have hclosed : s.Follows new streamId
      (if !s'.isClosed && s'.isStreamClosed streamId c.clientMode then { s' with isClosed := true }
        else s') := by
    split_ifs
    · exact h.trans (SendStream.follows_of_eq rfl rfl ⟨le_rfl, id⟩ (fun _ => Or.inl) id rfl)
    · exact h
  simp only [SendCnx.deleteStreamIfClosed]
  generalize (if !s'.isClosed && s'.isStreamClosed streamId c.clientMode then
    { s' with isClosed := true } else s') = t at hclosed ⊢
  split_ifs
  · refine ⟨fun id r hr => ?_, fun _ => Or.inl, fun _ => id⟩
    by_cases hid : id = streamId
    · subst hid
      simp at hr
    · simp only [Function.update_of_ne hid] at hr
      exact ⟨r, hr, SendStream.Follows.refl new id r⟩
  · exact putStream hs hclosed

theorem SendCnx.Follows.modifyStream (c : SendCnx) (streamId : ℕ) {f : SendStream → SendStream}
    (h : ∀ s : SendStream, s.Follows new streamId (f s)) :
    c.Follows new (c.modifyStream streamId f) := by
  rw [SendCnx.modifyStream]
  cases hs : c.streams streamId with
  | none => exact refl new c
  | some s => exact putStream hs (h s)

theorem SendCnx.Follows.unblock (hs : c.streams streamId = some s) (h : s.Follows new streamId s')
    (mayClose : Bool) : c.Follows new (c.unblock streamId s' mayClose) := by
  have hput : c.Follows new (if mayClose then c.deleteStreamIfClosed streamId s'
      else (c.putStream streamId s', false)).1 := by
    split_ifs
    · exact deleteStreamIfClosed hs h
    · exact putStream hs h
  simp only [SendCnx.unblock]
  generalize (if mayClose then c.deleteStreamIfClosed streamId s'
    else (c.putStream streamId s', false)) = r at hput ⊢
  split_ifs
  · exact hput
  · have hmod : r.1.Follows new
        (r.1.modifyStream streamId fun s => { s with streamDataBlockedSent := false }) :=
      modifyStream r.1 streamId fun s =>
        SendStream.follows_of_eq rfl rfl ⟨le_rfl, id⟩ (fun _ => Or.inl) id rfl
    have h' := hput.trans hmod
    exact ⟨h'.streams, h'.control, h'.acked⟩

/-! ### Frames that are kept -/

/-- A frame is not lost: what it contains is retained, or not needed any more. -/
def Frame.Kept (c : SendCnx) (held : List Frame) : Frame → Prop
  | .stream f => ∀ s, c.streams f.streamId = some s → s.resetSent = false → ∀ item, f.Has item →
    Retained held f.streamId s item
  | .control .. => True
  | f => f ∈ c.ackedControl ∨ f ∈ held

variable {held : List Frame}

theorem Frame.kept_of_mem (h : f ∈ held) : f.Kept c held := by
  cases f with
  | stream f => exact fun s _ _ item hitem => Or.inr ⟨f, h, rfl, hitem⟩
  | control => trivial
  | resetStream => exact Or.inr h
  | stopSending => exact Or.inr h

theorem Frame.Kept.mono {c c' : SendCnx} {held held' : List Frame} (h : f.Kept c held)
    (hc : c.Follows new c') (hheld : ∀ g ∈ held, g ∈ held') : f.Kept c' held' := by
  cases f with
  | stream f =>
    intro s' hs' hreset item hitem
    obtain ⟨s, hs, hf⟩ := hc.streams f.streamId s' hs'
    exact (h s hs (hf.live hreset) item hitem).imp (hf.covers _) fun hcar => hcar.mono hheld
  | control => trivial
  | resetStream => exact h.imp (hc.acked _) (hheld _)
  | stopSending => exact h.imp (hc.acked _) (hheld _)

theorem Frame.Kept.of_isRequest (h : f.Kept c held) (hf : f.isRequest = true) :
    f ∈ c.ackedControl ∨ f ∈ held := by
  cases f with
  | stream => cases hf
  | control => cases hf
  | resetStream => exact h
  | stopSending => exact h

/-- A frame that needs no repeat is kept without being held. -/
theorem Frame.kept_of_not_needed (hgood : ∀ streamId s, c.streams streamId = some s → s.Good)
    {ptype : PacketType} (hf : f.Proper) (hn : c.needsRepeat ptype false f = false)
    (held : List Frame) : f.Kept c held := by
  cases f with
  | stream f =>
    intro s hs hreset item hitem
    simp [needsRepeat, noNeedToRepeat, isPureAck, hs, hreset] at hn
    obtain ⟨hmin, hmax⟩ := hitem.position_mem hf
    exact Or.inl
      (covers_of_checkSackList (hgood _ s hs).canonical (StreamFrame.Proper.offset_lt hf) hn hmin
        hmax)
  | control => trivial
  | resetStream => simp [needsRepeat, noNeedToRepeat, isPureAck] at hn
  | stopSending => simp [needsRepeat, noNeedToRepeat, isPureAck] at hn

/-! ### The invariant -/

/-- All frames of a connection. -/
def SendCnx.HasFrame (c : SendCnx) (f : Frame) : Prop :=
  (∃ p ∈ c.retransmitQueue, f ∈ p.frames) ∨ (∃ p ∈ c.retransmitted, f ∈ p.frames) ∨
    (∃ g ∈ c.streamFrameRetransmitQueue, Frame.stream g = f) ∨ f ∈ c.miscFrames

/-- **The invariant**, while the frames `draft` are collected for a packet. -/
structure SendCnx.Safe (c : SendCnx) (draft : List Frame) : Prop where
  streams : ∀ streamId s, c.streams streamId = some s → s.Good
  frames : ∀ f, c.HasFrame f → f.Proper
  drafted : ∀ f ∈ draft, f.Proper
  history : ∀ f ∈ c.sentControl, f.isRequest = true
  remembers : c.Remembers (c.held ++ draft)

/-- **The rule for one step.** -/
theorem SendCnx.Safe.of_follows {c c' : SendCnx} {draft draft' new : List Frame}
    (h : c.Safe draft) (hc : c.Follows new c') (hframes : ∀ f, c'.HasFrame f → f.Proper)
    (hdraft : ∀ f ∈ draft', f.Proper) (hnew : ∀ f ∈ new, f ∈ c'.held ++ draft')
    (hkept : ∀ f ∈ c.held ++ draft, f.Kept c' (c'.held ++ draft')) : c'.Safe draft' where
  streams streamId s' hs' := by
    obtain ⟨s, hs, hf⟩ := hc.streams streamId s' hs'
    exact hf.good (h.streams streamId s hs)
  frames := hframes
  drafted := hdraft
  history f hf := (hc.control f hf).elim (h.history f) And.right
  remembers :=
    { data := fun streamId s' hs' hreset n hn => by
        obtain ⟨s, hs, hf⟩ := hc.streams streamId s' hs'
        rcases hf.data n hn with hn | hcar
        · rcases h.remembers.data streamId s hs (hf.live hreset) n hn with
            hcov | ⟨f, hmem, hid, hitem⟩
          · exact Or.inl (hf.covers n hcov)
          · subst hid
            exact hkept _ hmem s' hs' hreset _ hitem
        · exact Or.inr (hcar.mono hnew)
      fin := fun streamId s' hs' hreset n hn => by
        obtain ⟨s, hs, hf⟩ := hc.streams streamId s' hs'
        rcases hf.fins n hn with hn | hcar
        · rcases h.remembers.fin streamId s hs (hf.live hreset) n hn with
            hcov | ⟨f, hmem, hid, hitem⟩
          · exact Or.inl (hf.covers n hcov)
          · subst hid
            exact hkept _ hmem s' hs' hreset _ hitem
        · exact Or.inr (hcar.mono hnew)
      control := fun f hf => by
        rcases hc.control f hf with hf | hf
        · rcases h.remembers.control f hf with hacked | hmem
          · exact Or.inl (hc.acked f hacked)
          · exact (hkept f hmem).of_isRequest (h.history f hf)
        · exact Or.inr (hnew f hf.1) }

/-- What enters a queue must be well-formed. -/
theorem SendCnx.Safe.frames_of_queues {c c' : SendCnx} {draft : List Frame} (h : c.Safe draft)
    (hf : c'.HasFrame f)
    (hqueue : ∀ p ∈ c'.retransmitQueue, p ∈ c.retransmitQueue ∨ ∀ f ∈ p.frames, f.Proper)
    (hlost : ∀ p ∈ c'.retransmitted, p ∈ c.retransmitted ∨ ∀ f ∈ p.frames, f.Proper)
    (hresend : ∀ g ∈ c'.streamFrameRetransmitQueue,
      g ∈ c.streamFrameRetransmitQueue ∨ (Frame.stream g).Proper)
    (hmisc : ∀ f ∈ c'.miscFrames, f ∈ c.miscFrames ∨ f.Proper) : f.Proper := by
  rcases hf with ⟨p, hp, hf⟩ | ⟨p, hp, hf⟩ | ⟨g, hg, rfl⟩ | hf
  · exact (hqueue p hp).elim (fun hp => h.frames f (Or.inl ⟨p, hp, hf⟩)) fun hp => hp f hf
  · exact (hlost p hp).elim (fun hp => h.frames f (Or.inr (Or.inl ⟨p, hp, hf⟩))) fun hp => hp f hf
  · exact (hresend g hg).elim (fun hg => h.frames _ (Or.inr (Or.inr (Or.inl ⟨g, hg, rfl⟩)))) id
  · exact (hmisc f hf).elim (fun hf => h.frames f (Or.inr (Or.inr (Or.inr hf)))) id

/-- What leaves a queue must be kept in another way. -/
theorem SendCnx.kept_of_queues {c c' : SendCnx} {draft draft' : List Frame}
    (hf : f ∈ c.held ++ draft) (hqueue : ∀ p ∈ c.retransmitQueue, p.willRepeat = true →
      p ∈ c'.retransmitQueue ∨ ∀ f ∈ p.frames, f.Kept c' (c'.held ++ draft'))
    (hresend : ∀ g ∈ c.streamFrameRetransmitQueue,
      g ∈ c'.streamFrameRetransmitQueue ∨ (Frame.stream g).Kept c' (c'.held ++ draft'))
    (hmisc : ∀ f ∈ c.miscFrames, f ∈ c'.miscFrames ∨ f.Kept c' (c'.held ++ draft'))
    (hdraft : ∀ f ∈ draft, f ∈ draft') : f.Kept c' (c'.held ++ draft') := by
  have hheld : ∀ {g : Frame}, g ∈ c'.held → g.Kept c' (c'.held ++ draft') := fun hg =>
    Frame.kept_of_mem (List.mem_append_left _ hg)
  rcases List.mem_append.mp hf with hf | hf
  · rcases mem_held.mp hf with ⟨p, hp, hrep, hf⟩ | ⟨g, hg, rfl⟩ | hf
    · exact (hqueue p hp hrep).elim (fun hp => hheld (mem_held.mpr (Or.inl ⟨p, hp, hrep, hf⟩)))
        fun hp => hp f hf
    · exact (hresend g hg).elim (fun hg => hheld (mem_held.mpr (Or.inr (Or.inl ⟨g, hg, rfl⟩)))) id
    · exact (hmisc f hf).elim (fun hf => hheld (mem_held.mpr (Or.inr (Or.inr hf)))) id
  · exact Frame.kept_of_mem (List.mem_append_right _ (hdraft f hf))

end Picoquic
