import Picoquic.Sender.AckedData

/-!
# Acknowledged streams

* **`SendStream.Accounts`** — what the sack list of a stream knows about the frames of the stream;
* **`SendStream.Keeps`** — a change of a stream by which nothing is sent or acknowledged;
* **`Accounted`** — the invariant of all streams, with one lemma for each function that sends or
  acknowledges. A stream that is gone was reset, or all its data were acknowledged.
-/

namespace Picoquic

open SendCnx SendStream Frame

/-! ### One stream -/

/-- A stream and the frames of it: positions that are recorded were acknowledged, no frame goes
beyond what was sent, and nothing was sent behind a FIN. -/
structure SendStream.Accounts (s : SendStream) (streamId : ℕ) (sent acked : List Frame) :
    Prop where
  covers : ∀ n, SackCovers s.sackList.ackTree n →
    ∃ f, Frame.stream f ∈ acked ∧ f.streamId = streamId ∧ f.offset ≤ n ∧ n ≤ f.last
  stop_le : ∀ f, Frame.stream f ∈ sent → f.streamId = streamId →
    f.offset + f.data.length ≤ s.sentOffset
  fin_mem : ∀ f, Frame.stream f ∈ sent → f.streamId = streamId → f.fin = true →
    f.offset + f.data.length ∈ s.finOffsets
  fin_eq : ∀ n ∈ s.finOffsets, n = s.sentOffset
  done : s.finOffsets ≠ [] → s.sendQueue = [] ∧ s.finRequested = true ∧ s.finSent = true

variable {sent acked : List Frame} {streamId : ℕ} {s : SendStream} {f : StreamFrame}
  {created : List ℕ} {c : SendCnx}

/-- Where a frame is recorded, what it contains was acknowledged. -/
theorem SendStream.Accounts.carried (h : s.Accounts streamId sent acked)
    (hacked : ∀ f ∈ acked, f ∈ sent) (hproper : ∀ f ∈ sent, f.Proper) (hf : Frame.stream f ∈ sent)
    (hid : f.streamId = streamId) {item : Item} (hitem : f.Has item)
    (hcov : SackCovers s.sackList.ackTree item.position) : Carried acked streamId item := by
  obtain ⟨g, hg, hgid, hmin, hmax⟩ := h.covers _ hcov
  have hgsent := hacked _ hg
  have hgproper : g.Proper := hproper _ hgsent
  obtain ⟨hlast, -⟩ := hgproper.last_eq
  have hgstop := h.stop_le g hgsent hgid
  have hfstop := h.stop_le f hf hid
  refine ⟨g, hg, hgid, ?_⟩
  cases item with
  | byte n =>
    obtain ⟨h1, h2⟩ := hitem
    change g.offset ≤ n at hmin
    change n ≤ g.last at hmax
    refine ⟨hmin, ?_⟩
    by_contra hstop
    -- the position is that of the FIN, but the stream goes on behind it
    cases hfin : g.fin with
    | false =>
      rw [hfin] at hlast
      simp only [Bool.false_eq_true, if_false] at hlast
      omega
    | true =>
      have heq := h.fin_eq _ (h.fin_mem g hgsent hgid hfin)
      omega
  | fin n =>
    obtain ⟨h1, h2⟩ := hitem
    change g.offset ≤ n at hmin
    change n ≤ g.last at hmax
    have heq := h.fin_eq _ (h.fin_mem f hf hid h1)
    cases hfin : g.fin with
    | false =>
      rw [hfin] at hlast
      simp only [Bool.false_eq_true, if_false] at hlast
      omega
    | true =>
      rw [hfin] at hlast
      simp only [if_true] at hlast
      exact ⟨hfin, by omega⟩

/-- A change of a stream by which nothing is sent or acknowledged. -/
structure SendStream.Keeps (s s' : SendStream) : Prop where
  follows : ∀ streamId, s.Follows [] streamId s'
  sackList : s'.sackList = s.sackList
  sentOffset : s'.sentOffset = s.sentOffset
  finOffsets : s'.finOffsets = s.finOffsets
  finSent : s'.finSent = s.finSent
  finRequested : s.finRequested = true → s'.finRequested = true
  resetSent : s'.resetSent = s.resetSent
  sendQueue : s.finSent = true → s.sendQueue = [] → s'.sendQueue = []

theorem SendStream.Keeps.refl (s : SendStream) : s.Keeps s :=
  ⟨fun streamId => SendStream.Follows.refl [] streamId s, rfl, rfl, rfl, rfl, id, rfl, fun _ => id⟩

/-- Changes of fields that play no role here. -/
theorem SendStream.keeps_of_eq {s s' : SendStream} (hsack : s'.sackList = s.sackList)
    (hoffset : s'.sentOffset = s.sentOffset)
    (hmax : s.maxdataRemote ≤ s'.maxdataRemote ∧
      (s.maxdataRemote < 2 ^ 62 → s'.maxdataRemote < 2 ^ 62))
    (hqueue : s'.sendQueue = s.sendQueue) (hreset : s'.resetSent = s.resetSent)
    (hfins : s'.finOffsets = s.finOffsets) (hsent : s'.finSent = s.finSent)
    (hrequested : s'.finRequested = s.finRequested) : s.Keeps s' where
  follows _ := follows_of_eq hsack hoffset hmax (fun _ hnode => Or.inl (hqueue ▸ hnode))
    (fun h => hreset ▸ h) hfins
  sackList := hsack
  sentOffset := hoffset
  finOffsets := hfins
  finSent := hsent
  finRequested h := hrequested.trans h
  resetSent := hreset
  sendQueue _ h := hqueue.trans h

theorem SendStream.Accounts.keeps {s s' : SendStream} (h : s.Accounts streamId sent acked)
    (hs : s.Keeps s') : s'.Accounts streamId sent acked where
  covers n hn := h.covers n (hs.sackList ▸ hn)
  stop_le f hf hid := hs.sentOffset ▸ h.stop_le f hf hid
  fin_mem f hf hid hfin := hs.finOffsets ▸ h.fin_mem f hf hid hfin
  fin_eq n hn := hs.sentOffset ▸ h.fin_eq n (hs.finOffsets ▸ hn)
  done hne := by
    obtain ⟨hqueue, hrequested, hsent⟩ := h.done (hs.finOffsets ▸ hne)
    exact ⟨hs.sendQueue hsent hqueue, hs.finRequested hrequested, hs.finSent.trans hsent⟩

/-- More frames are sent and acknowledged; those that are new on the stream add nothing to it. -/
theorem SendStream.Accounts.mono {sent acked sent' acked' : List Frame}
    (h : s.Accounts streamId sent acked) (hacked : ∀ f ∈ acked, f ∈ acked')
    (hsent : ∀ f, Frame.stream f ∈ sent' → f.streamId = streamId →
      ∃ g, Frame.stream g ∈ sent ∧ g.streamId = streamId ∧
      f.offset + f.data.length ≤ g.offset + g.data.length ∧
      (f.fin = true → g.fin = true ∧ f.offset + f.data.length = g.offset + g.data.length)) :
    s.Accounts streamId sent' acked' where
  covers n hn := by
    obtain ⟨f, hf, hfid⟩ := h.covers n hn
    exact ⟨f, hacked _ hf, hfid⟩
  stop_le f hf hid := by
    obtain ⟨g, hg, hgid, hle, -⟩ := hsent f hf hid
    exact hle.trans (h.stop_le g hg hgid)
  fin_mem f hf hid hfin := by
    obtain ⟨g, hg, hgid, -, hpart⟩ := hsent f hf hid
    rw [(hpart hfin).2]
    exact h.fin_mem g hg hgid (hpart hfin).1
  fin_eq := h.fin_eq
  done := h.done

/-- A frame is sent at the end of a stream. After a FIN there is nothing but another FIN. -/
theorem SendStream.Accounts.advance {s s' : SendStream} {sent acked written : List Frame}
    (h : s.Accounts f.streamId sent acked) (hoffset : f.offset = s.sentOffset)
    (hafter : s.finOffsets ≠ [] → f.data = [])
    (hw : ∀ g, Frame.stream g ∈ written → g.offset = f.offset ∧ g.data = f.data ∧ g.fin = f.fin)
    (hsack : s'.sackList = s.sackList)
    (hsent : s'.sentOffset = (s.advance f.data.length f.fin).sentOffset)
    (hfins : s'.finOffsets = (s.advance f.data.length f.fin).finOffsets)
    (hfinSent : s'.finSent = (s.advance f.data.length f.fin).finSent)
    (hdone : s'.finOffsets ≠ [] → s'.sendQueue = [] ∧ s'.finRequested = true) :
    s'.Accounts f.streamId (sent ++ written) acked := by
  have hold : ∀ n ∈ s.finOffsets, n = s.sentOffset + f.data.length := by
    intro n hn
    rw [hafter (List.ne_nil_of_mem hn), List.length_nil, Nat.add_zero]
    exact h.fin_eq n hn
  have hmem : ∀ n, n ∈ s'.finOffsets ↔
      n ∈ s.finOffsets ∨ (f.fin = true ∧ n = s.sentOffset + f.data.length) := by
    intro n
    rw [hfins, SendStream.advance]
    cases f.fin <;> simp
  refine ⟨fun n hn => h.covers n (hsack ▸ hn), ?_, ?_, ?_, ?_⟩
  · intro g hg hid
    rw [hsent, SendStream.advance]
    rcases List.mem_append.mp hg with hg | hg
    · have := h.stop_le g hg hid
      dsimp only
      omega
    · obtain ⟨hgo, hgd, -⟩ := hw g hg
      rw [hgo, hgd, hoffset]
  · intro g hg hid hfin
    rw [hmem]
    rcases List.mem_append.mp hg with hg | hg
    · exact Or.inl (h.fin_mem g hg hid hfin)
    · obtain ⟨hgo, hgd, hgf⟩ := hw g hg
      exact Or.inr ⟨hgf ▸ hfin, by rw [hgo, hgd, hoffset]⟩
  · intro n hn
    rw [hsent, SendStream.advance]
    rcases (hmem n).mp hn with hn | ⟨-, hn⟩
    · exact hold n hn
    · exact hn
  · intro hne
    refine ⟨(hdone hne).1, (hdone hne).2, ?_⟩
    obtain ⟨n, hn⟩ := List.exists_mem_of_ne_nil _ hne
    rw [hfinSent, SendStream.advance]
    rcases (hmem n).mp hn with hn | ⟨hfin, -⟩
    · simp [(h.done (List.ne_nil_of_mem hn)).2.2]
    · simp [hfin]

/-! ### All streams -/

/-- **The invariant of the streams.** The data of a stream that is gone were acknowledged, unless
the stream was reset. -/
structure Accounted (c : SendCnx) (created : List ℕ) (sent acked : List Frame) : Prop where
  good : ∀ streamId s, c.streams streamId = some s → s.Good
  accounts : ∀ streamId s, c.streams streamId = some s → s.Accounts streamId sent acked
  proper : ∀ f ∈ sent, f.Proper
  acked_sent : ∀ f ∈ acked, f ∈ sent
  mem_created : ∀ streamId s, c.streams streamId = some s → streamId ∈ created
  sent_created : ∀ f, Frame.stream f ∈ sent → f.streamId ∈ created
  reset : ∀ streamId s, c.streams streamId = some s → s.resetSent = true → WasReset sent streamId
  gone : ∀ f, Frame.stream f ∈ sent → c.streams f.streamId = none →
    WasReset sent f.streamId ∨ ∀ item, f.Has item → Carried acked f.streamId item

theorem WasReset.append {sent : List Frame} (h : WasReset sent streamId) (written : List Frame) :
    WasReset (sent ++ written) streamId := by
  obtain ⟨localError, finalSize, hf⟩ := h
  exact ⟨localError, finalSize, List.mem_append_left _ hf⟩

/-- What becomes of a stream after the frames `written` were sent on it: it is there and accounts
for them, or it is gone and all its frames were acknowledged. -/
def Settled (o : Option SendStream) (streamId : ℕ) (sent acked : List Frame) : Prop :=
  match o with
  | some s =>
    s.Good ∧ s.Accounts streamId sent acked ∧ (s.resetSent = true → WasReset sent streamId)
  | none =>
    ∀ f, Frame.stream f ∈ sent → f.streamId = streamId →
      WasReset sent streamId ∨ ∀ item, f.Has item → Carried acked streamId item

/-- **The rule for one stream**: all others are left alone. -/
theorem Accounted.update {c c' : SendCnx} {sent acked written : List Frame} {o : Option SendStream}
    (h : Accounted c created sent acked) (hs : c.streams streamId = some s)
    (hc' : c'.streams = Function.update c.streams streamId o)
    (ho : Settled o streamId (sent ++ written) acked) (hproper : ∀ f ∈ written, f.Proper)
    (hids : ∀ f, Frame.stream f ∈ written → f.streamId = streamId) :
    Accounted c' created (sent ++ written) acked := by
  have hself : c'.streams streamId = o := by
    rw [hc', Function.update_self]
  have hother : ∀ id, id ≠ streamId → c'.streams id = c.streams id := by
    intro id hid
    rw [hc', Function.update_of_ne hid]
  have hfresh : ∀ f, stream f ∈ sent ++ written → f.streamId ≠ streamId →
      stream f ∈ sent := by
    intro f hf hid
    exact (List.mem_append.mp hf).resolve_right fun hf => hid (hids f hf)
  refine ⟨?_, ?_, ?_, ?_, ?_, ?_, ?_, ?_⟩
  · intro id r hr
    rcases eq_or_ne id streamId with rfl | hid
    · rw [← hself, hr] at ho
      exact ho.1
    · exact h.good id r (hother id hid ▸ hr)
  · intro id r hr
    rcases eq_or_ne id streamId with rfl | hid
    · rw [← hself, hr] at ho
      exact ho.2.1
    · refine (h.accounts id r (hother id hid ▸ hr)).mono (fun _ hf => hf) ?_
      intro f hf hfid
      exact ⟨f, hfresh f hf (hfid ▸ hid), hfid, le_rfl, fun hfin => ⟨hfin, rfl⟩⟩
  · intro f hf
    exact (List.mem_append.mp hf).elim (h.proper f) (hproper f)
  · intro f hf
    exact List.mem_append_left _ (h.acked_sent f hf)
  · intro id r hr
    rcases eq_or_ne id streamId with rfl | hid
    · exact h.mem_created id s hs
    · exact h.mem_created id r (hother id hid ▸ hr)
  · intro f hf
    rcases List.mem_append.mp hf with hf | hf
    · exact h.sent_created f hf
    · exact hids f hf ▸ h.mem_created streamId s hs
  · intro id r hr hreset
    rcases eq_or_ne id streamId with rfl | hid
    · rw [← hself, hr] at ho
      exact ho.2.2 hreset
    · exact (h.reset id r (hother id hid ▸ hr) hreset).append written
  · intro f hf hnone
    rcases eq_or_ne f.streamId streamId with hid | hid
    · rw [← hself, ← hid, hnone] at ho
      exact ho f hf rfl
    · have hf' := hfresh f hf hid
      rw [hother _ hid] at hnone
      exact (h.gone f hf' hnone).imp (fun hreset => hreset.append written) id

/-- A stream that is acknowledged as a whole is settled without being there. -/
theorem Settled.delete (h : Settled (some s) streamId sent acked) (hacked : ∀ f ∈ acked, f ∈ sent)
    (hproper : ∀ f ∈ sent, f.Proper) (hs : s.isStreamAcked = true) :
    Settled none streamId sent acked := by
  obtain ⟨hgood, haccounts, hreset⟩ := h
  simp only [isStreamAcked, Bool.and_eq_true, Bool.or_eq_true] at hs
  intro f hf hid
  rcases hs.2 with hs | hs
  · exact Or.inl (hreset hs)
  -- all positions up to the end of the stream are recorded
  · refine Or.inr fun item hitem => ?_
    have hle := (hitem.position_mem (hproper _ hf))
    have hstop := haccounts.stop_le f hf hid
    refine haccounts.carried hacked hproper hf hid hitem ?_
    refine covers_of_checkSackList hgood.canonical (by omega) hs (Nat.zero_le _) ?_
    cases item with
    | byte n => exact (le_of_lt hitem.2).trans hstop
    | fin n => exact (le_of_eq hitem.2).trans hstop

theorem Settled.keeps {s s' : SendStream} (h : Settled (some s) streamId sent acked)
    (hs : s.Keeps s') : Settled (some s') streamId sent acked :=
  ⟨(hs.follows streamId).good h.1, h.2.1.keeps hs, fun hreset => h.2.2 (hs.resetSent ▸ hreset)⟩

/-- `picoquic_delete_stream_if_closed` touches its stream only. -/
theorem settled_deleteStreamIfClosed (c : SendCnx) (h : Settled (some s) streamId sent acked)
    (hacked : ∀ f ∈ acked, f ∈ sent) (hproper : ∀ f ∈ sent, f.Proper) :
    ∃ o, (c.deleteStreamIfClosed streamId s).1.streams = Function.update c.streams streamId o ∧
      Settled o streamId sent acked := by
  have hclosed : s.Keeps
      (if !s.isClosed && s.isStreamClosed streamId c.clientMode then { s with isClosed := true }
        else s) := by
    split_ifs
    · exact keeps_of_eq rfl rfl ⟨le_rfl, id⟩ rfl rfl rfl rfl rfl
    · exact SendStream.Keeps.refl s
  rw [deleteStreamIfClosed]
  generalize (if !s.isClosed && s.isStreamClosed streamId c.clientMode then
    { s with isClosed := true } else s) = t at hclosed ⊢
  have ht := h.keeps hclosed
  split_ifs with hdelete
  · exact ⟨none, rfl, ht.delete hacked hproper hdelete⟩
  · exact ⟨some t, rfl, ht⟩

/-- So does the end of `picoquic_format_stream_frame`. -/
theorem settled_unblock (c : SendCnx) (h : Settled (some s) streamId sent acked)
    (hacked : ∀ f ∈ acked, f ∈ sent) (hproper : ∀ f ∈ sent, f.Proper) (mayClose : Bool) :
    ∃ o, (c.unblock streamId s mayClose).streams = Function.update c.streams streamId o ∧
      Settled o streamId sent acked := by
  have hput : ∃ o, (if mayClose then c.deleteStreamIfClosed streamId s
      else (c.putStream streamId s, false)).1.streams = Function.update c.streams streamId o ∧
        Settled o streamId sent acked := by
    split_ifs
    · exact settled_deleteStreamIfClosed c h hacked hproper
    · exact ⟨some s, rfl, h⟩
  rw [unblock]
  dsimp only
  generalize (if mayClose then c.deleteStreamIfClosed streamId s
    else (c.putStream streamId s, false)) = r at hput ⊢
  obtain ⟨o, hr, ho⟩ := hput
  split_ifs
  · exact ⟨o, hr, ho⟩
  refine ⟨o.map fun s => { s with streamDataBlockedSent := false }, ?_, ?_⟩
  · rw [modifyStream_streams, hr, Function.update_self, Function.update_idem]
  · cases o with
    | none => exact ho
    | some t => exact ho.keeps (keeps_of_eq rfl rfl ⟨le_rfl, id⟩ rfl rfl rfl rfl rfl)

/-! ### STREAM frames -/

theorem stream_mem_padding {n : ℕ} : Frame.stream f ∉ padding n := by
  intro h
  rw [padding] at h
  split_ifs at h
  · cases h
  · cases List.mem_singleton.mp h

/-- The STREAM frame that is written has the range it was made for. -/
theorem stream_mem_encodeLength {byteSpace : ℕ} {f g : StreamFrame}
    (h : Frame.stream g ∈ encodeLengthOfStreamFrame byteSpace f) :
    g.streamId = f.streamId ∧ g.offset = f.offset ∧ g.data = f.data ∧ g.fin = f.fin := by
  rw [encodeLengthOfStreamFrame] at h
  split_ifs at h
  · rcases List.mem_append.mp h with h | h
    · exact absurd h stream_mem_padding
    · cases List.mem_singleton.mp h
      exact ⟨rfl, rfl, rfl, rfl⟩
  · cases List.mem_singleton.mp h
    exact ⟨rfl, rfl, rfl, rfl⟩
  · cases List.mem_singleton.mp h
    exact ⟨rfl, rfl, rfl, rfl⟩

/-- A stream that advances with a frame accounts for it. -/
theorem Accounted.sendFrame (h : Accounted c created sent acked)
    (hs : c.streams f.streamId = some s) (hoffset : f.offset = s.sentOffset)
    (hlen : f.data.length ≤ s.maxdataRemote - s.sentOffset) (hne : f.data ≠ [] ∨ f.fin = true)
    (hafter : s.finOffsets ≠ [] → f.data = []) (byteSpace dataSent : ℕ) (mayClose : Bool)
    {queue : List (List UInt8)} {active requested : Bool} (hnodes : ∀ node ∈ queue, node ≠ [])
    (hdone : (s.advance f.data.length f.fin).finOffsets ≠ [] → queue = [] ∧ requested = true) :
    Accounted
      (SendCnx.unblock { c with dataSent := dataSent } f.streamId
        { s.advance f.data.length f.fin with
          sendQueue := queue, isActive := active, finRequested := requested } mayClose)
      created (sent ++ encodeLengthOfStreamFrame byteSpace f) acked := by
  have hgood := h.good _ s hs
  have hle := hgood.sentOffset_le
  have hlt := hgood.maxdataRemote_lt
  have hproper : ∀ g ∈ encodeLengthOfStreamFrame byteSpace f, g.Proper := by
    intro g hg
    exact proper_encodeLength ⟨hne, by omega⟩ hg
  have haccounts : SendStream.Accounts
      { s.advance f.data.length f.fin with
        sendQueue := queue, isActive := active, finRequested := requested }
      f.streamId (sent ++ encodeLengthOfStreamFrame byteSpace f) acked := by
    refine (h.accounts _ s hs).advance hoffset hafter ?_ rfl rfl rfl rfl hdone
    intro g hg
    exact (stream_mem_encodeLength hg).2
  have hsettled : Settled
      (some { s.advance f.data.length f.fin with
        sendQueue := queue, isActive := active, finRequested := requested })
      f.streamId (sent ++ encodeLengthOfStreamFrame byteSpace f) acked := by
    refine ⟨⟨hgood.canonical, hgood.horizonDelay, ?_, hlt, hnodes⟩, haccounts, ?_⟩
    · change s.sentOffset + f.data.length ≤ s.maxdataRemote
      omega
    · intro hreset
      exact (h.reset _ s hs hreset).append _
  obtain ⟨o, hstreams, ho⟩ := settled_unblock { c with dataSent := dataSent } hsettled
    (fun g hg => List.mem_append_left _ (h.acked_sent g hg))
    (fun g hg => (List.mem_append.mp hg).elim (h.proper g) (hproper g)) mayClose
  exact h.update hs hstreams ho hproper fun g hg => (stream_mem_encodeLength hg).1

/-- Nothing is written, and nothing changes but the mark of a blocked stream. -/
theorem Accounted.idle {s s' : SendStream} (h : Accounted c created sent acked)
    (hs : c.streams streamId = some s) (hk : s.Keeps s') (dataSent : ℕ) :
    Accounted (SendCnx.unblock { c with dataSent := dataSent } streamId s' false) created
      (sent ++ []) acked := by
  have hsettled : Settled (some s) streamId sent acked :=
    ⟨h.good _ s hs, h.accounts _ s hs, h.reset _ s hs⟩
  obtain ⟨o, hstreams, ho⟩ := settled_unblock { c with dataSent := dataSent } (hsettled.keeps hk)
    h.acked_sent h.proper false
  rw [← List.append_nil sent] at ho
  exact h.update hs hstreams ho (by simp) (by simp)

theorem Accounted.formatPolledFrame (h : Accounted c created sent acked)
    (hs : c.streams streamId = some s) (hqueue : s.sendQueue = [])
    (hrequested : s.finRequested = false) (byteSpace : ℕ) {allowed : ℕ}
    (hallowed : allowed ≤ s.maxdataRemote - s.sentOffset) (polled : Option Polled) :
    Accounted (c.formatPolledFrame streamId s byteSpace allowed polled).1 created
      (sent ++ (c.formatPolledFrame streamId s byteSpace allowed polled).2) acked := by
  -- the application is not asked any more once a FIN was sent
  have hopen : s.finOffsets = [] := by
    by_contra hne
    simp [((h.accounts _ s hs).done hne).2.1] at hrequested
  rw [SendCnx.formatPolledFrame]
  cases hd : polled.filter fun d => decide (d.data.length ≤ allowed) with
  | none => exact h.idle hs (SendStream.Keeps.refl s) c.dataSent
  | some d =>
    have hle : d.data.length ≤ allowed := by
      simpa using (Option.filter_eq_some_iff.mp hd).2
    dsimp only
    by_cases hempty : d.data.length = 0 ∧ d.isFin = false
    · rw [if_pos hempty]
      exact h.idle hs (SendStream.Keeps.refl s) c.dataSent
    rw [if_neg hempty]
    have hne : d.data ≠ [] ∨ d.isFin = true := by
      cases hfin : d.isFin with
      | true => exact Or.inr rfl
      | false => exact Or.inl fun hnil => hempty ⟨by rw [hnil, List.length_nil], hfin⟩
    have hnodes : ∀ node ∈ s.sendQueue, node ≠ [] := (h.good _ s hs).nodes
    cases hfin : d.isFin with
    | true =>
      exact h.sendFrame (f := ⟨streamId, s.sentOffset, d.data, true, false⟩) hs rfl
        (hle.trans hallowed) (Or.inr rfl) (fun hne => absurd hopen hne) byteSpace _ true hnodes
        fun _ => ⟨hqueue, rfl⟩
    | false =>
      refine h.sendFrame (f := ⟨streamId, s.sentOffset, d.data, false, false⟩) hs rfl
        (hle.trans hallowed) (hfin ▸ hne) (fun hne => absurd hopen hne) byteSpace _ false hnodes ?_
      intro hne
      exact absurd hopen hne

theorem SendStream.advance_zero (s : SendStream) : s.advance 0 false = s := by
  simp [advance]

theorem Accounted.formatQueuedFrame (h : Accounted c created sent acked)
    (hs : c.streams streamId = some s) (hdue : s.sendQueue = [] → s.finRequested = true)
    (byteSpace : ℕ) {allowed : ℕ} (hallowed : allowed ≤ s.maxdataRemote - s.sentOffset) :
    Accounted (c.formatQueuedFrame streamId s byteSpace allowed).1 created
      (sent ++ (c.formatQueuedFrame streamId s byteSpace allowed).2) acked := by
  have hafter : s.finOffsets ≠ [] → s.sendQueue = [] ∧ s.finRequested = true :=
    fun hne => ⟨((h.accounts _ s hs).done hne).1, ((h.accounts _ s hs).done hne).2.1⟩
  have hnil : s.sendQueue = [] → (takeFromQueue allowed s.sendQueue).1 = [] ∧
      (takeFromQueue allowed s.sendQueue).2 = [] := by
    intro hq
    rw [hq]
    exact ⟨rfl, rfl⟩
  obtain ⟨hle, hnodes, hempty⟩ := takeFromQueue_spec allowed (h.good _ s hs).nodes
  rw [SendCnx.formatQueuedFrame]
  generalize takeFromQueue allowed s.sendQueue = taken at hle hnodes hempty hnil ⊢
  obtain ⟨data, sendQueue⟩ := taken
  dsimp only at hle hnodes hempty hnil ⊢
  by_cases hnothing : sendQueue ≠ [] ∧ data.length = 0
  · have hfin : (sendQueue.isEmpty && s.finRequested) = false := by simp [hnothing.1]
    rw [if_pos hnothing, hfin, hnothing.2, advance_zero]
    have hkeeps : s.Keeps { s with sendQueue := sendQueue } :=
      { SendStream.Keeps.refl s with
        follows := fun streamId => SendStream.follows_of_eq rfl rfl ⟨le_rfl, id⟩
          (fun node hnode => Or.inr (hnodes node hnode)) id rfl
        sendQueue := fun _ hq => absurd (hnil hq).2 hnothing.1 }
    exact h.idle hs hkeeps _
  · rw [if_neg hnothing]
    have hne : data ≠ [] ∨ (sendQueue.isEmpty && s.finRequested) = true := by
      by_cases hdata : data = []
      · have hq : s.sendQueue = [] := by
          refine (hempty hdata).resolve_right fun hrest => hnothing ⟨hrest, ?_⟩
          rw [hdata, List.length_nil]
        simp [(hnil hq).2, hdue hq]
      · exact Or.inl hdata
    refine h.sendFrame
      (f := ⟨streamId, s.sentOffset, data, sendQueue.isEmpty && s.finRequested, false⟩) hs rfl
      (hle.trans hallowed) hne (fun hfin => (hnil (hafter hfin).1).1) byteSpace _ _ hnodes ?_
    intro hfins
    cases hfin : sendQueue.isEmpty && s.finRequested with
    | true => simpa [advance] using hfin
    | false =>
      rw [hfin] at hfins
      exact ⟨(hnil (hafter hfins).1).2, (hafter hfins).2⟩

/-- A RESET_STREAM frame is sent. -/
theorem Accounted.formatStreamResetFrame (h : Accounted c created sent acked)
    (hs : c.streams streamId = some s) (room : ℕ) :
    Accounted (c.formatStreamResetFrame streamId s room).1 created
      (sent ++ (c.formatStreamResetFrame streamId s room).2) acked := by
  rw [SendCnx.formatStreamResetFrame]
  dsimp only
  split_ifs
  · have haccounts := h.accounts _ s hs
    have hkeeps : s.Accounts streamId
        (sent ++ [resetStream streamId s.localError s.sentOffset]) acked := by
      refine haccounts.mono (fun _ hf => hf) fun f hf hid => ⟨f, ?_, hid, le_rfl, ?_⟩
      · simpa using hf
      · exact fun hfin => ⟨hfin, rfl⟩
    have hsettled : Settled (some { s with resetSent := true, finSent := true, sendQueue := [] })
        streamId (sent ++ [resetStream streamId s.localError s.sentOffset]) acked := by
      have hgood := h.good _ s hs
      refine ⟨⟨hgood.canonical, hgood.horizonDelay, hgood.sentOffset_le, hgood.maxdataRemote_lt,
        by simp⟩, ⟨hkeeps.covers, hkeeps.stop_le, hkeeps.fin_mem, hkeeps.fin_eq, ?_⟩, ?_⟩
      · exact fun hne => ⟨rfl, (hkeeps.done hne).2.1, rfl⟩
      · exact fun _ => ⟨s.localError, s.sentOffset, by simp⟩
    obtain ⟨o, hstreams, ho⟩ := settled_deleteStreamIfClosed
      { c with
        sentControl := c.sentControl ++ [resetStream streamId s.localError s.sentOffset] }
      hsettled (fun g hg => List.mem_append_left _ (h.acked_sent g hg)) (by
        intro g hg
        rcases List.mem_append.mp hg with hg | hg
        · exact h.proper g hg
        · rw [List.mem_singleton.mp hg]
          trivial)
    refine h.update hs hstreams ho ?_ (by simp)
    intro g hg
    rw [List.mem_singleton.mp hg]
    trivial
  · simpa using h

/-- A stream changes, and frames of other kinds are written. -/
theorem Accounted.change {c c' : SendCnx} {sent acked written : List Frame} {s s' : SendStream}
    (h : Accounted c created sent acked) (hs : c.streams streamId = some s) (hk : s.Keeps s')
    (hc' : c'.streams = Function.update c.streams streamId (some s'))
    (hw : ∀ f ∈ written, ∃ streamId localError, f = .stopSending streamId localError) :
    Accounted c' created (sent ++ written) acked := by
  have hold : ∀ f, stream f ∈ sent ++ written → stream f ∈ sent := by
    intro f hf
    refine (List.mem_append.mp hf).resolve_right fun hf => ?_
    obtain ⟨_, _, heq⟩ := hw _ hf
    cases heq
  have hsettled : Settled (some s) streamId (sent ++ written) acked := by
    refine ⟨h.good _ s hs, ?_, fun hreset => (h.reset _ s hs hreset).append written⟩
    refine (h.accounts _ s hs).mono (fun _ hf => hf) fun f hf hid => ?_
    exact ⟨f, hold f hf, hid, le_rfl, fun hfin => ⟨hfin, rfl⟩⟩
  refine h.update hs hc' (hsettled.keeps hk) ?_ ?_
  · intro f hf
    obtain ⟨_, _, rfl⟩ := hw f hf
    trivial
  · intro f hf
    obtain ⟨_, _, heq⟩ := hw _ hf
    cases heq

theorem Accounted.formatStopSendingFrame (h : Accounted c created sent acked)
    (hs : c.streams streamId = some s) (room : ℕ) :
    Accounted (c.formatStopSendingFrame streamId s room).1 created
      (sent ++ (c.formatStopSendingFrame streamId s room).2) acked := by
  have hk : s.Keeps { s with stopSendingSent := true } :=
    keeps_of_eq rfl rfl ⟨le_rfl, id⟩ rfl rfl rfl rfl rfl
  rw [SendCnx.formatStopSendingFrame]
  dsimp only
  split_ifs
  · exact h.change hs hk rfl (by simp)
  · exact h.change hs hk rfl fun f hf => ⟨_, _, List.mem_singleton.mp hf⟩
  · simpa using h

/-- **New data are accounted for.** -/
theorem Accounted.formatStreamFrame (h : Accounted c created sent acked) (streamId : ℕ)
    (polled : Option Polled) (room : ℕ) :
    Accounted (c.formatStreamFrame streamId polled room).1 created
      (sent ++ (c.formatStreamFrame streamId polled room).2) acked := by
  rw [SendCnx.formatStreamFrame]
  cases hs : c.streams streamId with
  | none => simpa using h
  | some s =>
    have hgood := h.good _ s hs
    have hsub : sub64 s.maxdataRemote s.sentOffset = s.maxdataRemote - s.sentOffset :=
      sub64_of_le hgood.sentOffset_le (by have := hgood.maxdataRemote_lt; omega)
    dsimp only
    split_ifs with hid hreset hstop hidle hroom hpoll
    · simpa using h
    · exact h.formatStreamResetFrame hs room
    · exact h.formatStopSendingFrame hs room
    · simpa using h
    · exact h.idle hs (SendStream.Keeps.refl s) c.dataSent
    · simp only [Bool.and_eq_true, List.isEmpty_iff, Bool.not_eq_true'] at hpoll
      exact h.formatPolledFrame hs hpoll.1.2 hpoll.2 _ (by rw [hsub]; omega) polled
    · refine h.formatQueuedFrame hs (fun hq => ?_) _ (by rw [hsub]; omega)
      cases ha : s.isActive <;> simp_all

/-! ### Other events -/

/-- A stream is changed by which nothing is sent or acknowledged. -/
theorem Accounted.modifyStream (h : Accounted c created sent acked) {f : SendStream → SendStream}
    (hf : ∀ s, c.streams streamId = some s → s.Keeps (f s)) :
    Accounted (c.modifyStream streamId f) created sent acked := by
  rw [SendCnx.modifyStream]
  cases hs : c.streams streamId with
  | none => exact h
  | some s =>
    rw [← List.append_nil sent]
    exact h.change hs (hf s hs) rfl (by simp)

/-- A stream is changed in this way, and deleted if it is closed. -/
theorem Accounted.deleteStreamIfClosed (h : Accounted c created sent acked) {s s' : SendStream}
    (hs : c.streams streamId = some s) (hk : s.Keeps s') :
    Accounted (c.deleteStreamIfClosed streamId s').1 created sent acked := by
  have hsettled : Settled (some s) streamId sent acked :=
    ⟨h.good _ s hs, h.accounts _ s hs, h.reset _ s hs⟩
  obtain ⟨o, hstreams, ho⟩ := settled_deleteStreamIfClosed c (hsettled.keeps hk) h.acked_sent
    h.proper
  rw [← List.append_nil sent] at ho ⊢
  exact h.update hs hstreams ho (by simp) (by simp)

/-- What `picoquic_add_to_stream` changes: nothing, the request of a FIN, or the queue as well. -/
theorem SendStream.add_cases (s : SendStream) (data : List UInt8) (setFin : Bool) :
    s.add data setFin = s ∨
      s.add data setFin = { s with finRequested := s.finRequested || setFin } ∨
      s.add data setFin =
        { s with
          finRequested := s.finRequested || setFin
          sendQueue := if data.isEmpty then s.sendQueue else s.sendQueue ++ [data]
          isActive := false } := by
  rw [add]
  by_cases hrefused : (setFin && s.finRequested && !data.isEmpty) = true
  · exact Or.inl (if_pos hrefused)
  rw [if_neg hrefused]
  by_cases hunwanted : (s.resetSent || s.stopSendingReceived) = true
  · exact Or.inr (Or.inl (if_pos hunwanted))
  · exact Or.inr (Or.inr (if_neg hunwanted))

/-- Data may be added to a stream as long as its FIN is not sent. -/
theorem SendStream.keeps_add {data : List UInt8} (hfin : s.finSent = false ∨ data = [])
    (setFin : Bool) : s.Keeps (s.add data setFin) := by
  have hfollows := fun streamId => s.add_follows streamId data setFin
  have hrequested : s.finRequested = true → (s.finRequested || setFin) = true := by
    intro hr
    rw [hr, Bool.true_or]
  rcases s.add_cases data setFin with heq | heq | heq
  all_goals rw [heq] at hfollows ⊢
  · exact SendStream.Keeps.refl s
  · exact ⟨hfollows, rfl, rfl, rfl, rfl, hrequested, rfl, fun _ hq => hq⟩
  · refine ⟨hfollows, rfl, rfl, rfl, rfl, hrequested, rfl, fun hsent hq => ?_⟩
    simp [hfin.resolve_left (by simp [hsent]), hq]

section

variable (h : Accounted c created sent acked)

include h

/-- What the application and the peer do sends nothing. -/
theorem Accounted.streamChange {e : StreamChange}
    (he : e.KeepsFin c) : Accounted (c.step (e.event c)) created sent acked := by
  cases e with
  | addToStream streamId data setFin =>
    refine h.modifyStream fun s hs => keeps_add ?_ setFin
    simpa [StreamChange.KeepsFin, hs] using he
  | markActiveStream streamId isActive =>
    refine h.modifyStream fun s _ => ?_
    split_ifs
    · exact SendStream.Keeps.refl s
    · exact keeps_of_eq rfl rfl ⟨le_rfl, id⟩ rfl rfl rfl rfl rfl
  | resetStream streamId localError =>
    refine h.modifyStream fun s _ => ?_
    split_ifs
    · exact SendStream.Keeps.refl s
    · exact keeps_of_eq rfl rfl ⟨le_rfl, id⟩ rfl rfl rfl rfl rfl
  | stopSending streamId localError =>
    refine h.modifyStream fun s _ => ?_
    split_ifs
    · exact SendStream.Keeps.refl s
    · exact keeps_of_eq rfl rfl ⟨le_rfl, id⟩ rfl rfl rfl rfl rfl
  | stopSendingReceived streamId =>
    refine h.modifyStream fun s _ => ?_
    split_ifs
    · exact SendStream.Keeps.refl s
    · exact keeps_of_eq rfl rfl ⟨le_rfl, id⟩ rfl rfl rfl rfl rfl
  | receiving streamId =>
    rw [StreamChange.event, SendCnx.step]
    cases hs : c.streams streamId with
    | none => exact h
    | some s =>
      exact h.deleteStreamIfClosed hs
        (keeps_of_eq rfl rfl ⟨le_rfl, id⟩ rfl rfl rfl rfl rfl)
  | maxStreamData streamId maxdata =>
    refine h.modifyStream fun s _ => ?_
    exact keeps_of_eq rfl rfl ⟨le_max_left _ _, fun hs => max_lt hs maxdata.isLt⟩ rfl rfl
      rfl rfl rfl
  | maxData maxdata => exact ⟨h.good, h.accounts, h.proper, h.acked_sent, h.mem_created,
      h.sent_created, h.reset, h.gone⟩
  | controlState => exact ⟨h.good, h.accounts, h.proper, h.acked_sent, h.mem_created,
      h.sent_created, h.reset, h.gone⟩

/-- A stream is created under an identifier that was never used. -/
theorem Accounted.createStream (hnew : streamId ∉ created)
    (maxdataRemote : Fin (2 ^ 62)) (isOutputStream : Bool) :
    Accounted (c.step (.createStream streamId maxdataRemote isOutputStream)) (streamId :: created)
      sent acked := by
  have hnone : c.streams streamId = none := by
    cases hs : c.streams streamId with
    | none => rfl
    | some s => exact absurd (h.mem_created streamId s hs) hnew
  have hfresh : ∀ f, stream f ∈ sent → f.streamId ≠ streamId := by
    rintro f hf rfl
    exact hnew (h.sent_created f hf)
  have hstep : c.step (.createStream streamId maxdataRemote isOutputStream) =
      c.putStream streamId (c.newStream streamId maxdataRemote isOutputStream) := by
    rw [SendCnx.step, hnone]
    rfl
  have hcase : ∀ id r, (c.putStream streamId
      (c.newStream streamId maxdataRemote isOutputStream)).streams id = some r →
      (id = streamId ∧ r = c.newStream streamId maxdataRemote isOutputStream) ∨
        c.streams id = some r := by
    intro id r hr
    rcases eq_or_ne id streamId with rfl | hid
    · simp only [putStream, Function.update_self, Option.some.injEq] at hr
      exact Or.inl ⟨rfl, hr.symm⟩
    · simp only [putStream, Function.update_of_ne hid] at hr
      exact Or.inr hr
  rw [hstep]
  refine ⟨?_, ?_, h.proper, h.acked_sent, ?_, ?_, ?_, ?_⟩
  · intro id r hr
    rcases hcase id r hr with ⟨rfl, rfl⟩ | hr
    · exact ⟨sackCanonical_nil, rfl, Nat.zero_le _, maxdataRemote.isLt, by simp [newStream]⟩
    · exact h.good id r hr
  · intro id r hr
    rcases hcase id r hr with ⟨rfl, rfl⟩ | hr
    · refine ⟨fun n hn => absurd hn RangeList.covers_nil, ?_, ?_, ?_, ?_⟩
      · exact fun f hf hid => absurd hid (hfresh f hf)
      · exact fun f hf hid => absurd hid (hfresh f hf)
      · simp [newStream]
      · simp [newStream]
    · exact h.accounts id r hr
  · intro id r hr
    rcases hcase id r hr with ⟨rfl, -⟩ | hr
    · exact List.mem_cons_self
    · exact List.mem_cons_of_mem _ (h.mem_created id r hr)
  · exact fun f hf => List.mem_cons_of_mem _ (h.sent_created f hf)
  · intro id r hr hreset
    rcases hcase id r hr with ⟨rfl, rfl⟩ | hr
    · cases hreset
    · exact h.reset id r hr hreset
  · intro f hf hgone
    rw [putStream] at hgone
    dsimp only at hgone
    rw [Function.update_of_ne (hfresh f hf)] at hgone
    exact h.gone f hf hgone

/-- A part of a frame is sent again. -/
theorem Accounted.repeatFrame {f g : StreamFrame}
    (hg : Frame.stream g ∈ sent) (hf : f.IsPartOf g) :
    Accounted c created (sent ++ [.stream f]) acked := by
  obtain ⟨hid, hoffset, hstop, hne, hfin⟩ := hf
  have hcase : ∀ k, stream k ∈ sent ++ [.stream f] → stream k ∈ sent ∨ k = f := by
    intro k hk
    rcases List.mem_append.mp hk with hk | hk
    · exact Or.inl hk
    · cases List.mem_singleton.mp hk
      exact Or.inr rfl
  have hgproper : g.Proper := h.proper _ hg
  refine ⟨h.good, ?_, ?_, ?_, h.mem_created, ?_, ?_, ?_⟩
  · intro id r hr
    refine (h.accounts id r hr).mono (fun _ hk => hk) fun k hk hkid => ?_
    rcases hcase k hk with hk | rfl
    · exact ⟨k, hk, hkid, le_rfl, fun hkfin => ⟨hkfin, rfl⟩⟩
    · exact ⟨g, hg, hid ▸ hkid, hstop, hfin⟩
  · intro k hk
    rcases List.mem_append.mp hk with hk | hk
    · exact h.proper k hk
    · rw [List.mem_singleton.mp hk]
      exact ⟨hne, lt_of_le_of_lt hstop hgproper.lt⟩
  · exact fun k hk => List.mem_append_left _ (h.acked_sent k hk)
  · intro k hk
    rcases hcase k hk with hk | rfl
    · exact h.sent_created k hk
    · exact hid ▸ h.sent_created g hg
  · exact fun id r hr hreset => (h.reset id r hr hreset).append _
  · intro k hk hnone
    rcases hcase k hk with hk | rfl
    · exact (h.gone k hk hnone).imp (fun hreset => hreset.append _) fun hcar => hcar
    · rw [hid] at hnone ⊢
      refine (h.gone g hg hnone).imp (fun hreset => hreset.append _) fun hcar item hitem => ?_
      refine hcar item ?_
      cases item with
      | byte n => exact ⟨hoffset.trans hitem.1, lt_of_lt_of_le hitem.2 hstop⟩
      | fin n => exact ⟨(hfin hitem.1).1, hitem.2.trans (hfin hitem.1).2⟩

/-- **A frame is acknowledged.** -/
theorem Accounted.processAckOfFrame {f : Frame}
    (hf : f ∈ sent) : Accounted (c.processAckOfFrame f) created sent (acked ++ [f]) := by
  -- what was acknowledged before still is
  have hmore : Accounted c created sent (acked ++ [f]) := by
    refine ⟨h.good, ?_, h.proper, ?_, h.mem_created, h.sent_created, h.reset, ?_⟩
    · intro id r hr
      refine (h.accounts id r hr).mono (fun _ => List.mem_append_left _) fun k hk hkid => ?_
      exact ⟨k, hk, hkid, le_rfl, fun hkfin => ⟨hkfin, rfl⟩⟩
    · intro k hk
      rcases List.mem_append.mp hk with hk | hk
      · exact h.acked_sent k hk
      · rw [List.mem_singleton.mp hk]
        exact hf
    · intro k hk hnone
      exact (h.gone k hk hnone).imp id fun hcar item hitem =>
        (hcar item hitem).mono fun _ => List.mem_append_left _
  cases f with
  | control => exact hmore
  | resetStream => exact ⟨hmore.good, hmore.accounts, hmore.proper, hmore.acked_sent,
      hmore.mem_created, hmore.sent_created, hmore.reset, hmore.gone⟩
  | stopSending => exact ⟨hmore.good, hmore.accounts, hmore.proper, hmore.acked_sent,
      hmore.mem_created, hmore.sent_created, hmore.reset, hmore.gone⟩
  | stream f =>
    rw [SendCnx.processAckOfFrame]
    cases hs : c.streams f.streamId with
    | none => exact hmore
    | some s =>
      have hproper : f.Proper := h.proper _ hf
      have hgood := h.good _ s hs
      have haccounts := hmore.accounts _ s hs
      obtain ⟨-, -, hcov⟩ :=
        updateSackList_spec hgood.canonical hgood.horizonDelay hproper.offset_lt hproper.last_eq.2 0
      have hsettled : Settled
          (some { s with sackList := (updateSackList s.sackList f.offset f.last 0).1 }) f.streamId
          sent (acked ++ [.stream f]) := by
        refine ⟨(acked_follows hgood hproper).1.good hgood, ?_, h.reset _ s hs⟩
        refine ⟨fun n hn => ?_, haccounts.stop_le, haccounts.fin_mem, haccounts.fin_eq,
          haccounts.done⟩
        rcases (hcov n).mp hn with hn | hn
        · exact haccounts.covers n hn
        · exact ⟨f, by simp, rfl, hn⟩
      obtain ⟨o, hstreams, ho⟩ := settled_deleteStreamIfClosed c hsettled hmore.acked_sent
        hmore.proper
      rw [← List.append_nil sent] at ho ⊢
      exact hmore.update hs hstreams ho (by simp) (by simp)

end

end Picoquic
