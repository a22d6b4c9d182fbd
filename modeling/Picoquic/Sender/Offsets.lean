import Picoquic.Sender.Format

/-!
# How far streams have been sent

The sender counts the bytes of a stream in `sent_offset` and those of the connection in
`data_sent`. The frames it produced tell the same: a stream was sent as far as its frames reach.

* **`reach`** — how far the frames of a list reach in a stream;
* **`SendCnx.Ledger`** — the invariant: the counters agree with the frames, they respect the limits
  of the peer, and no frame goes beyond a FIN;
* **`Ledger.rests`** — what leaves the counters alone;
* **`Ledger.advance`** — a stream advances with a frame.
-/

namespace Picoquic

open SendCnx

/-! ### Reach -/

/-- Where the data of a frame end. -/
def StreamFrame.finish (f : StreamFrame) : ℕ := f.offset + f.data.length

/-- How far the frames reach in a stream. -/
def reach (log : List StreamFrame) (streamId : ℕ) : ℕ :=
  log.foldr (fun f n => if f.streamId = streamId then max f.finish n else n) 0

@[simp]
theorem reach_nil (streamId : ℕ) : reach [] streamId = 0 := rfl

theorem reach_cons (f : StreamFrame) (log : List StreamFrame) (streamId : ℕ) :
    reach (f :: log) streamId =
      if f.streamId = streamId then max f.finish (reach log streamId) else reach log streamId :=
  rfl

theorem reach_append (log log' : List StreamFrame) (streamId : ℕ) :
    reach (log ++ log') streamId = max (reach log streamId) (reach log' streamId) := by
  induction log with
  | nil => exact (Nat.zero_max _).symm
  | cons f log ih =>
    rw [List.cons_append, reach_cons, reach_cons, ih]
    split_ifs
    · rw [max_assoc]
    · rfl

variable {f : StreamFrame}

theorem le_reach {log : List StreamFrame} (hf : f ∈ log) : f.finish ≤ reach log f.streamId := by
  induction log with
  | nil => cases hf
  | cons g log ih =>
    rw [reach_cons]
    rcases List.mem_cons.mp hf with rfl | hf
    · rw [if_pos rfl]
      exact le_max_left _ _
    · split_ifs
      · exact (ih hf).trans (le_max_right _ _)
      · exact ih hf

theorem reach_le {log : List StreamFrame} {streamId n : ℕ}
    (h : ∀ f ∈ log, f.streamId = streamId → f.finish ≤ n) : reach log streamId ≤ n := by
  induction log with
  | nil => exact Nat.zero_le n
  | cons f log ih =>
    have hrest := ih fun g hg => h g (List.mem_cons_of_mem f hg)
    rw [reach_cons]
    split_ifs with hid
    · exact max_le (h f List.mem_cons_self hid) hrest
    · exact hrest

/-- The STREAM frames of a list. -/
def streamFrames (frames : List Frame) : List StreamFrame :=
  frames.filterMap fun
    | .stream f => some f
    | _ => none

theorem mem_streamFrames {frames : List Frame} :
    f ∈ streamFrames frames ↔ Frame.stream f ∈ frames := by
  rw [streamFrames, List.mem_filterMap]
  constructor
  · rintro ⟨g, hg, hf⟩
    cases g with
    | stream g =>
      obtain rfl := Option.some.inj hf
      exact hg
    | resetStream | stopSending | control => cases hf
  · intro hf
    exact ⟨.stream f, hf, rfl⟩

@[simp]
theorem streamFrames_append (frames frames' : List Frame) :
    streamFrames (frames ++ frames') = streamFrames frames ++ streamFrames frames' :=
  List.filterMap_append

/-- The part of another frame that a repeated frame carries: it does not go further, and has a FIN
only where the other frame has it. -/
structure StreamFrame.PieceOf (f g : StreamFrame) : Prop where
  streamId : f.streamId = g.streamId
  finish_le : f.finish ≤ g.finish
  fin : f.fin = true → g.fin = true ∧ f.finish = g.finish

theorem StreamFrame.PieceOf.refl (f : StreamFrame) : f.PieceOf f := ⟨rfl, le_rfl, fun h => ⟨h, rfl⟩⟩

/-! ### The ledger -/

/-- What a stream accounts for. -/
def SendStream.account (s : SendStream) : ℕ × ℕ × List ℕ × List (List UInt8) × Bool :=
  (s.sentOffset, s.maxdataRemote, s.finOffsets, s.sendQueue, s.finRequested)

/-- A frame in its place: its stream was opened, it ends within what was sent, and with a FIN at the
end of it. -/
structure StreamFrame.InPlace (opened : List ℕ) (log : List StreamFrame) (f : StreamFrame) :
    Prop where
  opened : f.streamId ∈ opened
  finish_le : f.finish ≤ reach log f.streamId
  fin : f.fin = true → f.finish = reach log f.streamId

/-- A frame of the log, or of the connection. -/
def SendCnx.Knows (c : SendCnx) (log : List StreamFrame) (f : StreamFrame) : Prop :=
  f ∈ log ∨ c.HasFrame (.stream f)

/-- **The ledger** of a connection that opened the streams `opened` and produced the frames
`log`. -/
structure SendCnx.Ledger (opened : List ℕ) (log : List StreamFrame) (c : SendCnx) : Prop where
  nodup : opened.Nodup
  dataSent_eq : c.dataSent = (opened.map (reach log)).sum
  dataSent_le : c.dataSent ≤ c.maxdataRemote
  sentOffset_eq : ∀ streamId s, c.streams streamId = some s →
    streamId ∈ opened ∧ s.sentOffset = reach log streamId
  sentOffset_le : ∀ streamId s, c.streams streamId = some s → s.sentOffset ≤ s.maxdataRemote
  placed : ∀ f, c.Knows log f → f.InPlace opened log
  /-- Behind a FIN there is nothing to send. -/
  finished : ∀ streamId s, c.streams streamId = some s → s.finOffsets ≠ [] →
    s.sendQueue = [] ∧ s.finRequested = true
  recorded : ∀ f, c.Knows log f → f.fin = true → ∀ s, c.streams f.streamId = some s →
    s.finOffsets ≠ []

/-! ### What leaves the counters alone -/

/-- A stream that neither sends nor forgets anything. Behind a FIN its queue stays empty. -/
structure SendStream.Rests (s s' : SendStream) : Prop where
  sentOffset : s'.sentOffset = s.sentOffset
  maxdataRemote : s.maxdataRemote ≤ s'.maxdataRemote
  finOffsets : s'.finOffsets = s.finOffsets
  finished : s.finOffsets ≠ [] → s.sendQueue = [] ∧ s.finRequested = true →
    s'.sendQueue = [] ∧ s'.finRequested = true

theorem SendStream.Rests.of_account {s s' : SendStream} (h : s'.account = s.account) :
    s.Rests s' := by
  simp only [account, Prod.mk.injEq] at h
  obtain ⟨hoffset, hmax, hfins, hqueue, hfin⟩ := h
  exact ⟨hoffset, hmax.ge, hfins, fun _ hdone => hqueue ▸ hfin ▸ hdone⟩

theorem SendStream.Rests.trans {s s' s'' : SendStream} (h : s.Rests s') (h' : s'.Rests s'') :
    s.Rests s'' where
  sentOffset := h'.sentOffset.trans h.sentOffset
  maxdataRemote := h.maxdataRemote.trans h'.maxdataRemote
  finOffsets := h'.finOffsets.trans h.finOffsets
  finished hne hdone := h'.finished (h.finOffsets ▸ hne) (h.finished hne hdone)

/-- A connection whose streams rest; the frames in it are known. -/
structure SendCnx.Rests (log : List StreamFrame) (c c' : SendCnx) : Prop where
  dataSent : c'.dataSent = c.dataSent
  maxdataRemote : c.maxdataRemote ≤ c'.maxdataRemote
  streams : ∀ streamId s', c'.streams streamId = some s' →
    ∃ s, c.streams streamId = some s ∧ s.Rests s'
  frames : ∀ f, c'.HasFrame (.stream f) → ∃ g, c.Knows log g ∧ f.PieceOf g

variable {pieces : List StreamFrame}

section Rest

variable {opened : List ℕ} {log log' : List StreamFrame} {c c' : SendCnx}

theorem StreamFrame.InPlace.piece {f g : StreamFrame} (h : g.InPlace opened log)
    (hf : f.PieceOf g) : f.InPlace opened log where
  opened := hf.streamId ▸ h.opened
  finish_le := hf.streamId ▸ hf.finish_le.trans h.finish_le
  fin hfin := by
    obtain ⟨hg, heq⟩ := hf.fin hfin
    rw [heq, h.fin hg, hf.streamId]

theorem Knows.piece (hlog : ∀ f ∈ log', ∃ g, c.Knows log g ∧ f.PieceOf g)
    (hframes : ∀ f, c'.HasFrame (.stream f) → ∃ g, c.Knows log g ∧ f.PieceOf g)
    (hf : c'.Knows log' f) : ∃ g, c.Knows log g ∧ f.PieceOf g := by
  rcases hf with hf | hf
  exacts [hlog f hf, hframes f hf]

section

variable (h : c.Ledger opened log)

include h

/-- **What rests keeps the ledger**, and pieces of known frames can be added to the log. -/
theorem SendCnx.Ledger.rests (hc : c.Rests log c')
    (hreach : ∀ streamId, reach log' streamId = reach log streamId)
    (hlog : ∀ f ∈ log', ∃ g, c.Knows log g ∧ f.PieceOf g) : c'.Ledger opened log' where
  nodup := h.nodup
  dataSent_eq := by
    rw [hc.dataSent, h.dataSent_eq, funext hreach]
  dataSent_le := hc.dataSent ▸ h.dataSent_le.trans hc.maxdataRemote
  sentOffset_eq streamId s' hs' := by
    obtain ⟨s, hs, hrest⟩ := hc.streams streamId s' hs'
    obtain ⟨hopened, heq⟩ := h.sentOffset_eq streamId s hs
    exact ⟨hopened, by rw [hrest.sentOffset, heq, hreach]⟩
  sentOffset_le streamId s' hs' := by
    obtain ⟨s, hs, hrest⟩ := hc.streams streamId s' hs'
    exact hrest.sentOffset ▸ (h.sentOffset_le streamId s hs).trans hrest.maxdataRemote
  placed f hf := by
    obtain ⟨g, hg, hpiece⟩ := Knows.piece hlog hc.frames hf
    obtain ⟨hopened, hle, hfin⟩ := (h.placed g hg).piece hpiece
    exact ⟨hopened, hreach f.streamId ▸ hle, fun hf => hreach f.streamId ▸ hfin hf⟩
  finished streamId s' hs' hne := by
    obtain ⟨s, hs, hrest⟩ := hc.streams streamId s' hs'
    rw [hrest.finOffsets] at hne
    exact hrest.finished hne (h.finished streamId s hs hne)
  recorded f hf hfin s' hs' := by
    obtain ⟨g, hg, hpiece⟩ := Knows.piece hlog hc.frames hf
    obtain ⟨s, hs, hrest⟩ := hc.streams f.streamId s' hs'
    rw [hrest.finOffsets]
    exact h.recorded g hg (hpiece.fin hfin).1 s (hpiece.streamId ▸ hs)

/-- The same with the log as it is. -/
theorem SendCnx.Ledger.rest (hc : c.Rests log c') :
    c'.Ledger opened log :=
  h.rests hc (fun _ => rfl) fun f hf => ⟨f, .inl hf, .refl f⟩

theorem SendCnx.Ledger.reach_append
    (hpieces : ∀ f ∈ pieces, ∃ g, c.Knows log g ∧ f.PieceOf g) (streamId : ℕ) :
    reach (log ++ pieces) streamId = reach log streamId := by
  rw [Picoquic.reach_append]
  refine max_eq_left (reach_le fun f hf hid => ?_)
  obtain ⟨g, hg, hpiece⟩ := hpieces f hf
  have hle := ((h.placed g hg).piece hpiece).finish_le
  exact hid ▸ hle

theorem SendCnx.Ledger.append_pieces (hc : c.Rests log c')
    (hpieces : ∀ f ∈ pieces, ∃ g, c.Knows log g ∧ f.PieceOf g) :
    c'.Ledger opened (log ++ pieces) := by
  refine h.rests hc (h.reach_append hpieces) fun f hf => ?_
  rcases List.mem_append.mp hf with hf | hf
  exacts [⟨f, .inl hf, .refl f⟩, hpieces f hf]

end

end Rest

/-! ### One stream -/

/-- A stream is stored, or deleted because it is closed. The other streams stay, and so do the
counters and the queues of the connection. -/
structure SendCnx.Touches (streamId : ℕ) (s : SendStream) (c c' : SendCnx) : Prop where
  streams : ∀ id t, c'.streams id = some t →
    id = streamId ∧ t.account = s.account ∨ id ≠ streamId ∧ c.streams id = some t
  dataSent : c'.dataSent = c.dataSent
  maxdataRemote : c'.maxdataRemote = c.maxdataRemote
  queues : c'.queues = c.queues

theorem SendCnx.touches_putStream (c : SendCnx) (streamId : ℕ) {s t : SendStream}
    (h : t.account = s.account) : c.Touches streamId s (c.putStream streamId t) where
  streams id u hu := by
    rcases Decidable.em (id = streamId) with rfl | hid
    · simp only [putStream, Function.update_self, Option.some.injEq] at hu
      exact .inl ⟨rfl, hu ▸ h⟩
    · simp only [putStream, Function.update_of_ne hid] at hu
      exact .inr ⟨hid, hu⟩
  dataSent := rfl
  maxdataRemote := rfl
  queues := rfl

theorem SendCnx.touches_delete (c : SendCnx) (streamId : ℕ) (s : SendStream) :
    c.Touches streamId s { c with streams := Function.update c.streams streamId none } where
  streams id u hu := by
    rcases Decidable.em (id = streamId) with rfl | hid
    · simp only [Function.update_self, reduceCtorEq] at hu
    · simp only [Function.update_of_ne hid] at hu
      exact .inr ⟨hid, hu⟩
  dataSent := rfl
  maxdataRemote := rfl
  queues := rfl

theorem SendCnx.touches_deleteStreamIfClosed (c : SendCnx) (streamId : ℕ) (s : SendStream) :
    c.Touches streamId s (c.deleteStreamIfClosed streamId s).1 := by
  have haccount : (if !s.isClosed && s.isStreamClosed streamId c.clientMode then
      { s with isClosed := true } else s).account = s.account := by
    split_ifs <;> rfl
  simp only [deleteStreamIfClosed]
  generalize (if !s.isClosed && s.isStreamClosed streamId c.clientMode then
    { s with isClosed := true } else s) = t at haccount ⊢
  split_ifs
  · exact c.touches_delete streamId s
  · exact c.touches_putStream streamId haccount

/-- A second change of the stream that leaves its account alone. -/
theorem SendCnx.Touches.modifyStream {c c' : SendCnx} {streamId : ℕ} {s : SendStream}
    (h : c.Touches streamId s c') {f : SendStream → SendStream}
    (hf : ∀ t, (f t).account = t.account) : c.Touches streamId s (c'.modifyStream streamId f) where
  streams id u hu := by
    rw [modifyStream_streams] at hu
    rcases Decidable.em (id = streamId) with rfl | hid
    · rw [Function.update_self] at hu
      obtain ⟨t, ht, rfl⟩ := Option.map_eq_some_iff.mp hu
      refine (h.streams id t ht).imp_right (fun hne => absurd rfl hne.1) |>.imp_left fun heq => ?_
      exact ⟨rfl, (hf t).trans heq.2⟩
    · rw [Function.update_of_ne hid] at hu
      exact h.streams id u hu
  dataSent := by
    rw [SendCnx.modifyStream]
    split
    exacts [h.dataSent, h.dataSent]
  maxdataRemote := by
    rw [SendCnx.modifyStream]
    split
    exacts [h.maxdataRemote, h.maxdataRemote]
  queues := (queues_modifyStream c' streamId f).trans h.queues

theorem SendCnx.touches_unblock (c : SendCnx) (streamId : ℕ) (s : SendStream) (mayClose : Bool) :
    c.Touches streamId s (c.unblock streamId s mayClose) := by
  have hput : c.Touches streamId s (if mayClose then c.deleteStreamIfClosed streamId s
      else (c.putStream streamId s, false)).1 := by
    split_ifs
    exacts [c.touches_deleteStreamIfClosed streamId s, c.touches_putStream streamId rfl]
  simp only [unblock]
  generalize (if mayClose then c.deleteStreamIfClosed streamId s
    else (c.putStream streamId s, false)) = r at hput ⊢
  split_ifs
  · exact hput
  · have hmod := hput.modifyStream (f := fun s => { s with streamDataBlockedSent := false })
      fun _ => rfl
    exact ⟨hmod.streams, hmod.dataSent, hmod.maxdataRemote, hmod.queues⟩

section Touch

variable {opened : List ℕ} {log : List StreamFrame} {c c' : SendCnx} {streamId : ℕ}
  {s s' : SendStream}

/-- A stream that rests is stored. -/
theorem SendCnx.Touches.rests (h : c.Touches streamId s' c') (hs : c.streams streamId = some s)
    (hrest : s.Rests s') : c.Rests log c' where
  dataSent := h.dataSent
  maxdataRemote := h.maxdataRemote.ge
  streams id t ht := by
    rcases h.streams id t ht with ⟨rfl, haccount⟩ | ⟨-, ht⟩
    · have hsame := SendStream.Rests.of_account haccount
      exact ⟨s, hs, hrest.trans hsame⟩
    · exact ⟨t, ht, .of_account rfl⟩
  frames f hf := ⟨f, .inr ((hasFrame_congr h.queues _).mp hf), .refl f⟩

/-- What a stream accounts for after the frame `f`. -/
structure SendStream.Sends (f : StreamFrame) (s s' : SendStream) : Prop where
  offset : f.offset = s.sentOffset
  sentOffset : s'.sentOffset = s.sentOffset + f.data.length
  maxdataRemote : s'.maxdataRemote = s.maxdataRemote
  finOffsets : s'.finOffsets ≠ [] ↔ f.fin = true ∨ s.finOffsets ≠ []
  finished : s'.finOffsets ≠ [] → s'.sendQueue = [] ∧ s'.finRequested = true

theorem reach_append_singleton (log : List StreamFrame) (f : StreamFrame) (streamId : ℕ) :
    reach (log ++ [f]) streamId =
      if f.streamId = streamId then max (reach log streamId) f.finish else reach log streamId := by
  rw [Picoquic.reach_append, reach_cons, reach_nil]
  split_ifs
  · rw [Nat.max_zero]
  · exact Nat.max_zero _

/-- **A stream advances with a frame** that respects both limits, and has no data behind a FIN. -/
theorem SendCnx.Ledger.advance (h : c.Ledger opened log) (hs : c.streams f.streamId = some s)
    (hsends : s.Sends f s') (hstream : f.data.length ≤ s.maxdataRemote - s.sentOffset)
    (hcnx : f.data.length ≤ c.maxdataRemote - c.dataSent)
    (hdone : s.finOffsets ≠ [] → f.data.length = 0)
    (ht : SendCnx.Touches f.streamId s' { c with dataSent := c.dataSent + f.data.length } c') :
    c'.Ledger opened (log ++ [f]) := by
  obtain ⟨hopened, hoffset⟩ := h.sentOffset_eq f.streamId s hs
  have hfinish : f.finish = reach log f.streamId + f.data.length := by
    rw [StreamFrame.finish, hsends.offset, hoffset]
  have hself : reach (log ++ [f]) f.streamId = reach log f.streamId + f.data.length := by
    rw [reach_append_singleton, if_pos rfl, hfinish]
    exact max_eq_right (Nat.le_add_right _ _)
  have hother : ∀ id, id ≠ f.streamId → reach (log ++ [f]) id = reach log id := fun id hid => by
    rw [reach_append_singleton, if_neg hid.symm]
  have hmono : ∀ id, reach log id ≤ reach (log ++ [f]) id := fun id => by
    rw [Picoquic.reach_append]
    exact le_max_left _ _
  -- the frames that are known now: the new one, and those that were known before
  have hknown : ∀ g, c'.Knows (log ++ [f]) g → c.Knows log g ∨ g = f := by
    intro g hg
    rcases hg with hg | hg
    · rcases List.mem_append.mp hg with hg | hg
      exacts [.inl (.inl hg), .inr (List.mem_singleton.mp hg)]
    · exact .inl (.inr ((hasFrame_congr ht.queues _).mp hg))
  refine ⟨h.nodup, ?_, ?_, ?_, ?_, ?_, ?_, ?_⟩
  · have hsum : ((opened.erase f.streamId).map (reach (log ++ [f]))).sum =
        ((opened.erase f.streamId).map (reach log)).sum := by
      refine congrArg List.sum (List.map_congr_left fun id hid => hother id ?_)
      exact (h.nodup.mem_erase_iff.mp hid).1
    rw [ht.dataSent, ← List.sum_map_erase _ hopened, hself, hsum, h.dataSent_eq,
      ← List.sum_map_erase _ hopened]
    dsimp only
    omega
  · have hle := h.dataSent_le
    rw [ht.dataSent, ht.maxdataRemote]
    dsimp only
    omega
  · intro id t hu
    rcases ht.streams id t hu with ⟨rfl, haccount⟩ | ⟨hid, hu⟩
    · refine ⟨hopened, ?_⟩
      rw [(SendStream.Rests.of_account haccount).sentOffset, hsends.sentOffset, hself, hoffset]
    · rw [hother id hid]
      exact h.sentOffset_eq id t hu
  · intro id t hu
    rcases ht.streams id t hu with ⟨rfl, haccount⟩ | ⟨-, hu⟩
    · have hsame := SendStream.Rests.of_account haccount
      have hle := h.sentOffset_le f.streamId s hs
      have hmax := hsame.maxdataRemote
      rw [hsends.maxdataRemote] at hmax
      rw [hsame.sentOffset, hsends.sentOffset]
      omega
    · exact h.sentOffset_le id t hu
  · intro g hg
    rcases hknown g hg with hg | rfl
    · obtain ⟨hgopened, hle, hfin⟩ := h.placed g hg
      refine ⟨hgopened, hle.trans (hmono _), fun hgfin => ?_⟩
      rcases Decidable.em (g.streamId = f.streamId) with hid | hid
      · -- behind a FIN the new frame has no data
        have hzero := hdone (h.recorded g hg hgfin s (hid ▸ hs))
        rw [hfin hgfin, hid, hself, hzero, Nat.add_zero]
      · rw [hother _ hid, hfin hgfin]
    · exact ⟨hopened, (hfinish.trans hself.symm).le, fun _ => hfinish.trans hself.symm⟩
  · intro id t hu hne
    rcases ht.streams id t hu with ⟨rfl, haccount⟩ | ⟨-, hu⟩
    · have hsame := SendStream.Rests.of_account haccount
      rw [hsame.finOffsets] at hne
      exact hsame.finished hne (hsends.finished hne)
    · exact h.finished id t hu hne
  · intro g hg hgfin t hu
    rcases ht.streams g.streamId t hu with ⟨hid, haccount⟩ | ⟨hid, hu⟩
    · rw [(SendStream.Rests.of_account haccount).finOffsets, hsends.finOffsets]
      rcases hknown g hg with hg | rfl
      exacts [.inr (h.recorded g hg hgfin s (hid ▸ hs)), .inl hgfin]
    · rcases hknown g hg with hg | rfl
      exacts [h.recorded g hg hgfin t hu, absurd rfl hid]

end Touch

end Picoquic
