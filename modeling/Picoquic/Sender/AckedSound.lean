import Picoquic.Sender.AckedStreams

/-!
# Acknowledged data are not sent again

* **`CryptoAccounts`** — the invariant of a TLS stream, whose frames lie one behind the other;
* **`acked_data_sound`** — in a run that stays within the condition, a frame that is dropped as
  acknowledged was acknowledged;
* **`crypto_byte_lost`** — a CRYPTO frame of one byte between two acknowledged ones is dropped.
-/

namespace Picoquic

open Runs SendCnx

/-! ### TLS streams -/

/-- The acknowledged ranges of the TLS streams. -/
def SendCnx.tlsSackList (c : SendCnx) : PacketType → Option SackList := c.controlState.tlsSackList

variable (c : SendCnx) (streamId : ℕ)

@[simp]
theorem tlsSackList_putStream (s : SendStream) :
    (c.putStream streamId s).tlsSackList = c.tlsSackList := rfl

@[simp]
theorem tlsSackList_modifyStream (f : SendStream → SendStream) :
    (c.modifyStream streamId f).tlsSackList = c.tlsSackList := by
  rw [modifyStream]
  cases c.streams streamId <;> rfl

@[simp]
theorem tlsSackList_deleteStreamIfClosed (s : SendStream) :
    (c.deleteStreamIfClosed streamId s).1.tlsSackList = c.tlsSackList := by
  rw [deleteStreamIfClosed]
  split_ifs <;> rfl

@[simp]
theorem tlsSackList_unblock (s : SendStream) (mayClose : Bool) :
    (c.unblock streamId s mayClose).tlsSackList = c.tlsSackList := by
  have hput : (if mayClose then c.deleteStreamIfClosed streamId s
      else (c.putStream streamId s, false)).1.tlsSackList = c.tlsSackList := by
    split_ifs <;> simp
  rw [unblock]
  generalize (if mayClose then c.deleteStreamIfClosed streamId s
    else (c.putStream streamId s, false)) = r at hput ⊢
  dsimp only
  split_ifs
  · exact hput
  · exact (tlsSackList_modifyStream r.1 streamId _).trans hput

theorem tlsSackList_formatStreamFrame (polled : Option Polled) (room : ℕ) :
    (c.formatStreamFrame streamId polled room).1.tlsSackList = c.tlsSackList := by
  have hcount : ∀ n, tlsSackList { c with dataSent := n } = c.tlsSackList := fun _ => rfl
  have hcontrol : ∀ l, tlsSackList { c with sentControl := l } = c.tlsSackList := fun _ => rfl
  rw [formatStreamFrame]
  cases c.streams streamId with
  | none => rfl
  | some s =>
    dsimp only
    split_ifs
    · rfl
    · rw [formatStreamResetFrame]
      split_ifs <;> simp [hcontrol]
    · rw [formatStopSendingFrame]
      dsimp only
      split_ifs <;> simp [hcontrol]
    · rfl
    · simp
    · rw [formatPolledFrame]
      split
      · simp
      · split_ifs <;> simp [hcount]
    · rw [formatQueuedFrame]
      simp [hcount]

theorem tlsSackList_streamChange (e : StreamChange) :
    (c.step (e.event c)).tlsSackList = c.tlsSackList := by
  cases e with
  | receiving streamId =>
    rw [StreamChange.event, step]
    cases c.streams streamId with
    | none => rfl
    | some s => simp
  | maxData => rfl
  | controlState => rfl
  | _ => exact tlsSackList_modifyStream c _ _

theorem tlsSackList_processAckOfFrame (f : Frame) :
    (c.processAckOfFrame f).tlsSackList = c.tlsSackList := by
  cases f with
  | stream f =>
    rw [processAckOfFrame]
    cases c.streams f.streamId with
    | none => rfl
    | some s => simp
  | _ => rfl

/-- A TLS stream and the CRYPTO frames of it, which lie one behind the other. -/
structure CryptoAccounts (s : SackList) (sentOffset : ℕ) (sent acked : List CryptoFrame) :
    Prop where
  canonical : SackCanonical s.ackTree
  horizonDelay : s.horizonDelay = 0
  covers : ∀ n, SackCovers s.ackTree n → ∃ f ∈ acked, f.offset ≤ n ∧ n ≤ f.stop
  pairwise : sent.Pairwise fun f g => f.stop ≤ g.offset
  stop_le : ∀ f ∈ sent, f.stop ≤ sentOffset
  sentOffset_lt : sentOffset < 2 ^ 62
  acked_sent : ∀ f ∈ acked, f ∈ sent
  missing : NoByteMissing sent acked

variable {s : SackList} {sentOffset : ℕ} {sent acked : List CryptoFrame} {a : AckedCnx}

section

variable (h : CryptoAccounts s sentOffset sent acked)

include h

/-- A frame that is found in the list was acknowledged. -/
theorem CryptoAccounts.carried {f : CryptoFrame}
    (hf : f ∈ sent) (hcheck : checkSackList s f.offset (f.offset + f.length) = true) {n : ℕ}
    (hmin : f.offset ≤ n) (hmax : n < f.stop) : CryptoCarried acked n := by
  by_contra hcon
  have hunacked : f ∉ acked := fun hmem => hcon ⟨f, hmem, hmin, hmax⟩
  have hapart : ∀ g ∈ acked, g.stop ≤ f.offset ∨ f.stop ≤ g.offset := by
    intro g hg
    have hne : g ≠ f := fun heq => hunacked (heq ▸ hg)
    have hsymm : Std.Symm fun f g : CryptoFrame => f.stop ≤ g.offset ∨ g.stop ≤ f.offset :=
      ⟨fun _ _ => Or.symm⟩
    have hpairwise : sent.Pairwise fun f g => f.stop ≤ g.offset ∨ g.stop ≤ f.offset :=
      h.pairwise.imp Or.inl
    exact hpairwise.forall (h.acked_sent g hg) hf hne
  have hstop : f.stop = f.offset + f.length := rfl
  have hlt : f.offset < 2 ^ 63 := by
    have := h.stop_le f hf
    have := h.sentOffset_lt
    omega
  have hcover : ∀ k, f.offset ≤ k → k ≤ f.stop → ∃ g ∈ acked, g.offset ≤ k ∧ k ≤ g.stop :=
    fun k h1 h2 => h.covers k (covers_of_checkSackList h.canonical hlt hcheck h1 h2)
  -- both ends are covered by neighbours, and nothing reaches between them
  obtain ⟨before, hbefore, hb1, hb2⟩ := hcover f.offset le_rfl (by omega)
  obtain ⟨behind, hbehind, ha1, ha2⟩ := hcover f.stop (by omega) le_rfl
  obtain ⟨between, hbetween, hi1, hi2⟩ := hcover (f.offset + 1) (by omega) (by omega)
  have hleft : before.stop = f.offset := by
    rcases hapart before hbefore with hle | hle <;> omega
  have hright : behind.offset = f.stop := by
    rcases hapart behind hbehind with hle | hle <;> omega
  have hone : f.length = 1 := by
    rcases hapart between hbetween with hle | hle <;> omega
  exact h.missing f hf hone hunacked ⟨before, hbefore, hleft⟩ behind hbehind hright

/-- A CRYPTO frame is sent. -/
theorem CryptoAccounts.send {length : ℕ}
    (hlt : sentOffset + length < 2 ^ 62) :
    CryptoAccounts s (sentOffset + length) (sent ++ [⟨sentOffset, length⟩]) acked := by
  refine ⟨h.canonical, h.horizonDelay, h.covers, ?_, ?_, hlt, ?_, ?_⟩
  · rw [List.pairwise_append]
    refine ⟨h.pairwise, List.pairwise_singleton _ _, fun f hf g hg => ?_⟩
    rw [List.mem_singleton.mp hg]
    exact h.stop_le f hf
  · intro f hf
    rcases List.mem_append.mp hf with hf | hf
    · exact (h.stop_le f hf).trans (Nat.le_add_right _ _)
    · rw [List.mem_singleton.mp hf]
      exact le_rfl
  · exact fun f hf => List.mem_append_left _ (h.acked_sent f hf)
  · intro g hg hone hunacked hbefore f hf heq
    rcases List.mem_append.mp hg with hg | hg
    · exact h.missing g hg hone hunacked hbefore f hf heq
    -- nothing behind the new frame was sent yet
    · have hstop := h.stop_le f (h.acked_sent f hf)
      rw [List.mem_singleton.mp hg] at hone heq
      simp only [CryptoFrame.stop] at hstop heq hone
      omega

/-- A CRYPTO frame is acknowledged. -/
theorem CryptoAccounts.acknowledge {f : CryptoFrame}
    (hf : f ∈ sent) (hmissing : NoByteMissing sent (acked ++ [f])) :
    CryptoAccounts (updateSackList s f.offset (u64 (f.offset + f.length)) 0).1 sentOffset sent
      (acked ++ [f]) := by
  have hstop : f.offset + f.length ≤ sentOffset := h.stop_le f hf
  have hlt := h.sentOffset_lt
  rw [u64_of_lt (by omega)]
  obtain ⟨hdelay, hsep, hcov⟩ :=
    updateSackList_spec h.canonical h.horizonDelay (by omega)
      (Nat.le_add_right f.offset f.length) 0
  refine ⟨⟨hsep, fun n hn => ?_⟩, hdelay, fun n hn => ?_, h.pairwise, h.stop_le, hlt, ?_, hmissing⟩
  · rcases (hcov n).mp hn with hn | hn
    · exact h.canonical.lt n hn
    · omega
  · rcases (hcov n).mp hn with hn | hn
    · obtain ⟨g, hg, hgn⟩ := h.covers n hn
      exact ⟨g, List.mem_append_left _ hg, hgn⟩
    · exact ⟨f, by simp, hn⟩
  · intro g hg
    rcases List.mem_append.mp hg with hg | hg
    · exact h.acked_sent g hg
    · rw [List.mem_singleton.mp hg]
      exact hf

end

/-! ### Runs -/

/-- **The invariant.** -/
structure AckedCnx.Inv (a : AckedCnx) : Prop where
  accounted : Accounted a.cnx a.created a.sent a.acked
  crypto : ∀ ptype, ptype.hasTlsStream = true → ∃ s, a.cnx.tlsSackList ptype = some s ∧
    CryptoAccounts s (a.tlsSentOffset ptype) (a.sentCrypto ptype) (a.ackedCrypto ptype)
  noCrypto : ∀ ptype, ptype.hasTlsStream = false → a.sentCrypto ptype = []

theorem AckedCnx.Inv.initial (clientMode isPreemptiveRepeatEnabled : Bool) (maxdataRemote : ℕ)
    (controlState : ControlState) :
    (AckedCnx.initial clientMode isPreemptiveRepeatEnabled maxdataRemote controlState).Inv := by
  refine ⟨⟨?_, ?_, ?_, ?_, ?_, ?_, ?_, ?_⟩, ?_, fun _ _ => rfl⟩
  · exact fun _ s hs => nomatch hs
  · exact fun _ s hs => nomatch hs
  · exact fun f hf => absurd hf List.not_mem_nil
  · exact fun f hf => absurd hf List.not_mem_nil
  · exact fun _ s hs => nomatch hs
  · exact fun f hf => absurd hf List.not_mem_nil
  · exact fun _ s hs => nomatch hs
  · exact fun f hf => absurd hf List.not_mem_nil
  · intro ptype hptype
    refine ⟨sackListInit, if_pos hptype, sackCanonical_nil, rfl, ?_, List.Pairwise.nil, ?_, ?_, ?_,
      ?_⟩
    · exact fun n hn => absurd hn RangeList.covers_nil
    · exact fun f hf => absurd hf List.not_mem_nil
    · exact Nat.two_pow_pos 62
    · exact fun f hf => absurd hf List.not_mem_nil
    · exact fun f hf => absurd hf List.not_mem_nil

/-- Only the streams change. -/
theorem AckedCnx.Inv.streams (h : a.Inv) {c : SendCnx} {created : List ℕ} {sent acked : List Frame}
    (hc : Accounted c created sent acked) (htls : c.tlsSackList = a.cnx.tlsSackList) :
    AckedCnx.Inv { a with cnx := c, created := created, sent := sent, acked := acked } where
  accounted := hc
  crypto ptype hptype := by
    rw [htls]
    exact h.crypto ptype hptype
  noCrypto := h.noCrypto

theorem isPartOfSome_iff {f : StreamFrame} {frames : List Frame} :
    IsPartOfSome f frames = true ↔ ∃ g, Frame.stream g ∈ frames ∧ f.IsPartOf g := by
  induction frames with
  | nil => simp [IsPartOfSome]
  | cons k frames ih => cases k <;> simp [IsPartOfSome, ih, or_and_right, exists_or]

/-- **One event.** -/
theorem AckedCnx.Inv.step (h : a.Inv) {e : AckedEvent} (he : e.FitsRanges a) : (a.step e).Inv := by
  cases e with
  | createStream streamId maxdataRemote isOutputStream =>
    rw [AckedCnx.step]
    split_ifs with hused
    · exact h
    · refine h.streams (h.accounted.createStream hused maxdataRemote isOutputStream) ?_
      rw [SendCnx.step]
      split_ifs <;> rfl
  | change e => exact h.streams (h.accounted.streamChange he) (tlsSackList_streamChange a.cnx e)
  | formatStreamFrame streamId polled room =>
    exact h.streams (h.accounted.formatStreamFrame streamId polled room)
      (tlsSackList_formatStreamFrame a.cnx streamId polled room)
  | formatCryptoHsFrame ptype length =>
    rw [AckedCnx.step]
    split_ifs with hlt
    swap
    · exact h
    refine ⟨h.accounted, fun p hp => ?_, fun p hp => ?_⟩
    · obtain ⟨s, hs, haccounts⟩ := h.crypto p hp
      refine ⟨s, hs, ?_⟩
      rcases eq_or_ne p ptype with rfl | hne
      · simpa using haccounts.send hlt.2
      · simpa [hne] using haccounts
    · -- nothing is sent without a crypto stream
      have hne : p ≠ ptype := by
        rintro rfl
        rw [hlt.1] at hp
        cases hp
      simpa [hne] using h.noCrypto p hp
  | repeatStreamFrame f =>
    rw [AckedCnx.step]
    split_ifs with hpart
    · obtain ⟨g, hg, hfg⟩ := isPartOfSome_iff.mp hpart
      exact h.streams (h.accounted.repeatFrame hg hfg) rfl
    · exact h
  | acknowledged i =>
    rw [AckedCnx.step]
    cases hf : a.sent[i]? with
    | none => exact h
    | some f =>
      exact h.streams (h.accounted.processAckOfFrame (List.mem_of_getElem? hf))
        (tlsSackList_processAckOfFrame a.cnx f)
  | cryptoAcknowledged ptype i =>
    rw [AckedEvent.FitsRanges] at he
    rw [AckedCnx.step]
    cases hf : (a.sentCrypto ptype)[i]? with
    | none => exact h
    | some f =>
      have hmem := List.mem_of_getElem? hf
      have hptype : ptype.hasTlsStream = true := by
        by_contra hno
        rw [h.noCrypto ptype (by simpa using hno)] at hmem
        cases hmem
      obtain ⟨s, hs, haccounts⟩ := h.crypto ptype hptype
      -- only the list of this epoch changes
      have hack : a.cnx.processAckOfCryptoFrame ptype f =
          { a.cnx with
            controlState :=
              { a.cnx.controlState with
                tlsSackList :=
                  Function.update a.cnx.tlsSackList ptype
                    (some (updateSackList s f.offset (u64 (f.offset + f.length)) 0).1) } } := by
        rw [processAckOfCryptoFrame,
          show a.cnx.controlState.tlsSackList ptype = some s from hs]
        rfl
      rw [hf] at he
      dsimp only
      refine ⟨?_, fun p hp => ?_, h.noCrypto⟩
      · rw [hack]
        exact ⟨h.accounted.good, h.accounted.accounts, h.accounted.proper, h.accounted.acked_sent,
          h.accounted.mem_created, h.accounted.sent_created, h.accounted.reset, h.accounted.gone⟩
      · rw [hack]
        rcases eq_or_ne p ptype with rfl | hne
        · refine ⟨_, Function.update_self .., ?_⟩
          simpa using haccounts.acknowledge hmem he
        · obtain ⟨r, hr, hraccounts⟩ := h.crypto p hp
          refine ⟨r, (Function.update_of_ne hne _ _).trans hr, ?_⟩
          simpa [hne] using hraccounts

/-- The invariant is enough. -/
theorem AckedCnx.Inv.sound (h : a.Inv) : a.SoundRepeat where
  stream ptype isPreemptive f hf hno := by
    have hproper : f.Proper := h.accounted.proper _ hf
    rw [noNeedToRepeat] at hno
    cases hs : a.cnx.streams f.streamId with
    | none => exact (h.accounted.gone f hf hs).imp id Or.inr
    | some s =>
      rw [hs] at hno
      simp only [Bool.or_eq_true, Bool.and_eq_true, Bool.not_eq_true'] at hno
      rcases hno with (hreset | hpreemptive) | hcheck
      · exact Or.inl (h.accounted.reset _ s hs hreset)
      · exact Or.inr (Or.inl ⟨hpreemptive.1, s, rfl, hpreemptive.2⟩)
      · refine Or.inr (Or.inr fun item hitem => ?_)
        obtain ⟨hmin, hmax⟩ := hitem.position_mem hproper
        exact (h.accounted.accounts _ s hs).carried h.accounted.acked_sent h.accounted.proper hf
          rfl hitem (covers_of_checkSackList (h.accounted.good _ s hs).canonical hproper.offset_lt
            hcheck hmin hmax)
  crypto ptype isPreemptive bytes f hf hno n hmin hmax := by
    have hptype : ptype.hasTlsStream = true := by
      by_contra hcon
      rw [h.noCrypto ptype (by simpa using hcon)] at hf
      cases hf
    obtain ⟨s, hs, haccounts⟩ := h.crypto ptype hptype
    rw [noNeedToRepeat, controlNoNeed,
      show a.cnx.controlState.tlsSackList ptype = some s from hs] at hno
    exact haccounts.carried hf hno hmin hmax

/-- **Suppression is sound** in a run in which no data are added behind a FIN, and no
acknowledgement leaves a CRYPTO frame of one byte as the only missing one between two. -/
theorem acked_data_sound (clientMode isPreemptiveRepeatEnabled : Bool) (maxdataRemote : ℕ)
    (controlState : ControlState) (evs : List AckedEvent)
    (h : Along AckedCnx.step (fun a (e : AckedEvent) => e.FitsRanges a)
      (AckedCnx.initial clientMode isPreemptiveRepeatEnabled maxdataRemote controlState) evs) :
    (run AckedCnx.step (AckedCnx.initial clientMode isPreemptiveRepeatEnabled maxdataRemote
      controlState) evs).SoundRepeat := by
  have hinv := run_invariant_of_along (I := fun a : AckedCnx => a.Inv)
    (P := fun a (e : AckedEvent) => e.FitsRanges a) (fun _ _ ha he => ha.step he)
    (AckedCnx.Inv.initial clientMode isPreemptiveRepeatEnabled maxdataRemote controlState) h
  exact hinv.sound

/-- Handshake data of ten, one and nine bytes, of which all or all but the second are
acknowledged, and a stream whose data and FIN are. -/
def ackedRun (all : Bool) : List AckedEvent :=
  [.createStream 0 100 true, .change (.addToStream 0 [1, 2, 3] true),
    .formatStreamFrame 0 none 100, .acknowledged 0,
    .formatCryptoHsFrame .handshake 10, .formatCryptoHsFrame .handshake 1,
    .formatCryptoHsFrame .handshake 9, .cryptoAcknowledged .handshake 0,
    .cryptoAcknowledged .handshake (if all then 1 else 0), .cryptoAcknowledged .handshake 2]

theorem acked_data_sound_all :
    Along AckedCnx.step (fun a (e : AckedEvent) => e.FitsRanges a)
      (AckedCnx.initial true false 1000 freshControlState) (ackedRun true) ∧
    (run AckedCnx.step (AckedCnx.initial true false 1000 freshControlState)
      (ackedRun true)).SoundRepeat := by
  have h : Along AckedCnx.step (fun a (e : AckedEvent) => e.FitsRanges a)
      (AckedCnx.initial true false 1000 freshControlState) (ackedRun true) := by decide +kernel
  exact ⟨h, acked_data_sound true false 1000 freshControlState (ackedRun true) h⟩

/-- Without the acknowledgement of the second frame, its byte is lost. -/
theorem crypto_byte_lost :
    let a := run AckedCnx.step (AckedCnx.initial true false 1000 freshControlState)
      (ackedRun false)
    a.sentCrypto .handshake = [⟨0, 10⟩, ⟨10, 1⟩, ⟨11, 9⟩] ∧
      a.ackedCrypto .handshake = [⟨0, 10⟩, ⟨0, 10⟩, ⟨11, 9⟩] ∧
      a.cnx.noNeedToRepeat .handshake false (.control (.cryptoHs 10 1) []) = true ∧
      ¬ a.SoundRepeat := by
  intro a
  have hsent : a.sentCrypto .handshake = [⟨0, 10⟩, ⟨10, 1⟩, ⟨11, 9⟩] := by decide +kernel
  have hacked : a.ackedCrypto .handshake = [⟨0, 10⟩, ⟨0, 10⟩, ⟨11, 9⟩] := by decide +kernel
  have hno : a.cnx.noNeedToRepeat .handshake false (.control (.cryptoHs 10 1) []) = true := by
    decide +kernel
  refine ⟨hsent, hacked, hno, fun hsound => ?_⟩
  obtain ⟨f, hf, hmin, hmax⟩ :=
    hsound.crypto .handshake false [] ⟨10, 1⟩ (by rw [hsent]; simp) hno 10 le_rfl (by decide)
  rw [hacked] at hf
  simp only [List.mem_cons, List.not_mem_nil, or_false] at hf
  rcases hf with rfl | rfl | rfl
  all_goals simp [CryptoFrame.stop] at hmin hmax

end Picoquic
