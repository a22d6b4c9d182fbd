import Picoquic.Handshake.Segment

/-!
# The amplification limit

* **`Within.hasRoom`** — the check of the builders that charge leaves room for a full buffer;
* **`amplification_limited`** — in a run in which closing packets are only sent when there is room
  for a full packet below the limit, and the other segments do not exceed their buffers, a server
  that has not validated the address of the client has sent at most three times what it received;
* **`amplification_exceeded_by_close`** — a server that has used up its limit is closed by the
  application, and sends a closing packet.
-/

namespace Picoquic

open Runs

namespace ServerCnx

/-! ### The lengths of segments -/

variable {bytesMax length : ℕ} {isInitialSent : Bool} {n : ℕ} {s : CnxState}

section Lengths

variable (c : ServerCnx) (a : SegmentArgs)

/-- By how much the repetition of an old packet exceeds the buffer. A packet is delayed only if it
was longer than the buffer without its checksum. -/
def repeatOverrun (queue : List OldPacket) : ℕ :=
  match retransmitNeeded (bufferMax a) queue with
  | some p => p.repeatedLength + checksumLength - bufferMax a
  | none => 0

/-- By how much a segment of `picoquic_prepare_packet_server_init` exceeds the buffer. An Initial
packet that is repeated first is padded with a wrong overhead. -/
def serverInitOverrun : ℕ :=
  if 0 < (c.oldInitial a).length then
    max (repeatOverrun a a.initialQueue) (if a.isInitialSent then checksumLength - 8 else 0)
  else if c.hasFrames a then 0
  else repeatOverrun a (if c.isHandshakeEpoch a then a.handshakeQueue else a.initialQueue)

/-- By how much an MTU probe exceeds what the path can carry. -/
def probeOverrun : ℕ :=
  match a.mtuProbe with
  | some probe => if Probes a (newFrames a) then prepareMtuProbe a probe - bufferMax a else 0
  | none => 0

/-- By how much a segment of `picoquic_prepare_packet_almost_ready` exceeds the buffer. -/
def almostReadyOverrun : ℕ :=
  if 0 < (c.oldAlmostReady a).1.length then
    repeatOverrun a (if (c.oldAlmostReady a).2 then a.initialQueue else a.handshakeQueue)
  else probeOverrun a

private theorem minSegmentSize_le_bufferMax : minSegmentSize ≤ bufferMax a := by
  have hle := a.minSegmentSize_le
  rw [bufferMax]
  split_ifs <;> omega

private theorem headerLength_le : a.headerLength.val + 2 + checksumLength ≤ bufferMax a := by
  have hle := minSegmentSize_le_bufferMax a
  have hlt := a.headerLength.isLt
  rw [minSegmentSize] at hle
  rw [checksumLength]
  omega

private theorem addFrame_le (h : length ≤ bytesMax) (frame : ℕ) :
    addFrame bytesMax length frame ≤ bytesMax := by
  rw [addFrame]
  split_ifs <;> omega

private theorem addFrame_le_max (bytesMax length frame : ℕ) :
    addFrame bytesMax length frame ≤ max bytesMax length := by
  rw [addFrame]
  split_ifs <;> omega

private theorem addFrames_le (h : length ≤ bytesMax) (frames : List ℕ) :
    addFrames bytesMax length frames ≤ bytesMax := by
  induction frames generalizing length with
  | nil => exact h
  | cons frame frames ih => exact ih (addFrame_le h frame)

private theorem finalizeAndProtect_le {length n : ℕ} (h : length + checksumLength ≤ n)
    (headerLength : ℕ) :
    finalizeAndProtect length headerLength ≤ n := by
  rw [finalizeAndProtect]
  split_ifs <;> omega

private theorem repeatPacket_le {queue : List OldPacket} {p : OldPacket}
    (h : retransmitNeeded (bufferMax a) queue = some p) :
    (repeatPacket a (bufferMax a - checksumLength) p).length + checksumLength ≤
      bufferMax a + repeatOverrun a queue := by
  have hle := addFrame_le_max (bufferMax a - checksumLength) p.repeatedLength a.ackLength
  have hheader := headerLength_le a
  rw [repeatOverrun, h]
  dsimp only [repeatPacket]
  omega

private theorem preparePacketOldContext_le (queue : List OldPacket) (isAckNeeded : Bool) :
    (preparePacketOldContext a queue isAckNeeded).length + checksumLength ≤
      bufferMax a + repeatOverrun a queue := by
  have hheader := headerLength_le a
  rw [preparePacketOldContext]
  cases hp : retransmitNeeded (bufferMax a) queue with
  | some p => exact repeatPacket_le a hp
  | none =>
    dsimp only
    split_ifs
    · have hle := addFrame_le (show a.headerLength.val ≤ bufferMax a - checksumLength by omega)
        a.ackLength
      dsimp only
      omega
    · dsimp only [Lengths.none]
      omega

private theorem oldInitial_le (h : 0 < (c.oldInitial a).length) :
    (c.oldInitial a).length + checksumLength ≤ bufferMax a + repeatOverrun a a.initialQueue := by
  rw [oldInitial] at h ⊢
  split_ifs at h ⊢ with hepoch
  · exact preparePacketOldContext_le a a.initialQueue a.isInitialAckNeeded
  · exact absurd h (lt_irrefl 0)

private theorem newServerInit_le : (c.newServerInit a).length + checksumLength ≤ bufferMax a +
    if c.hasFrames a then 0
    else repeatOverrun a (if c.isHandshakeEpoch a then a.handshakeQueue else a.initialQueue) := by
  have hheader := headerLength_le a
  rw [newServerInit]
  by_cases hframes : c.hasFrames a = true
  · rw [if_pos hframes, if_pos hframes]
    have hle := addFrames_le (show a.headerLength.val ≤ bufferMax a - checksumLength by omega)
      [a.ackLength, cryptoFrame a]
    dsimp only
    omega
  · rw [if_neg hframes, if_neg hframes]
    generalize (if c.isHandshakeEpoch a = true then a.handshakeQueue else a.initialQueue) = queue
    cases hp : retransmitNeeded (bufferMax a) queue with
    | some p => exact repeatPacket_le a hp
    | none =>
      dsimp only
      omega

/-- Padding fills the buffer, up to the overhead. -/
theorem padServerInit_le {ptype : PacketType} {checksumOverhead length n : ℕ}
    (hlength : length + checksumLength ≤ n)
    (htarget : isInitialSent = true → bufferMax a - checksumOverhead + checksumLength ≤ n) :
    c.padServerInit a isInitialSent ptype checksumOverhead length + checksumLength ≤ n := by
  have hpad (hsent : isInitialSent = true) :
      padToTargetLength length (bufferMax a - checksumOverhead) + checksumLength ≤ n := by
    have hle := htarget hsent
    rw [padToTargetLength]
    split_ifs <;> omega
  rw [padServerInit]
  split_ifs with hsent hinitial hif hif
  · exact hpad hsent
  · exact hlength
  · exact hpad hsent
  · exact hlength
  · exact hlength

private theorem serverInitLength_le :
    c.serverInitLength a ≤ bufferMax a + c.serverInitOverrun a := by
  have hheader := headerLength_le a
  rw [serverInitLength, serverInitOverrun]
  by_cases hold : 0 < (c.oldInitial a).length
  · have hle := c.oldInitial_le a hold
    rw [if_pos hold, if_pos hold]
    refine finalizeAndProtect_le (c.padServerInit_le a ?_ fun hsent => ?_) _
    · omega
    · rw [if_pos hsent]
      rw [checksumLength] at hheader ⊢
      omega
  · have hle := c.newServerInit_le a
    rw [if_neg hold, if_neg hold]
    exact finalizeAndProtect_le (c.padServerInit_le a hle fun _ => by omega) _

private theorem oldAlmostReady_le :
    (c.oldAlmostReady a).1.length + checksumLength ≤ bufferMax a +
      repeatOverrun a (if (c.oldAlmostReady a).2 then a.initialQueue else a.handshakeQueue) := by
  have hhandshake := preparePacketOldContext_le a a.handshakeQueue a.isHandshakeAckNeeded
  rw [oldAlmostReady]
  by_cases hkeys : c.hasInitialKeys = true
  · rw [if_pos hkeys]
    by_cases hlength : 0 < (preparePacketOldContext a a.initialQueue a.isInitialAckNeeded).length
    · rw [if_pos hlength]
      exact preparePacketOldContext_le a a.initialQueue a.isInitialAckNeeded
    · rw [if_neg hlength]
      exact hhandshake
  · rw [if_neg hkeys]
    exact hhandshake

private theorem framesOrProbe_le :
    framesOrProbe a + checksumLength ≤ bufferMax a + probeOverrun a := by
  have hheader := headerLength_le a
  have hframes : newFrames a ≤ bufferMax a - checksumLength := addFrames_le (by omega) a.frames
  rw [framesOrProbe, probeOverrun]
  cases hprobe : a.mtuProbe with
  | none =>
    dsimp only
    omega
  | some probe =>
    dsimp only
    split_ifs <;> omega

private theorem newAlmostReady_le :
    newAlmostReady a + checksumLength ≤ bufferMax a + probeOverrun a := by
  have hheader := headerLength_le a
  rw [newAlmostReady]
  split_ifs
  · exact framesOrProbe_le a
  · omega
  · omega

private theorem padAlmostReady_le {l : Lengths} (h : l.length + checksumLength ≤ n)
    (hn : bufferMax a ≤ n) :
    padAlmostReady a isInitialSent l + checksumLength ≤ n := by
  have hheader := headerLength_le a
  have hpad {target : ℕ} (htarget : target ≤ bufferMax a - checksumLength) :
      padToTargetLength l.length target + checksumLength ≤ n := by
    rw [padToTargetLength]
    split_ifs <;> omega
  rw [padAlmostReady]
  split_ifs
  · exact hpad le_rfl
  · exact hpad (min_le_right _ _)
  · exact h

private theorem almostReadyLength_le :
    c.almostReadyLength a ≤ bufferMax a + c.almostReadyOverrun a := by
  rw [almostReadyLength, almostReadyOverrun]
  by_cases hold : 0 < (c.oldAlmostReady a).1.length
  · have hle := c.oldAlmostReady_le a
    rw [if_pos hold, if_pos hold]
    exact finalizeAndProtect_le (padAlmostReady_le a hle (Nat.le_add_right _ _)) _
  · have hle := newAlmostReady_le a
    rw [if_neg hold, if_neg hold]
    exact finalizeAndProtect_le (padAlmostReady_le a hle (Nat.le_add_right _ _)) _

private theorem closingLength_le : c.closingLength a ≤ bufferMax a := by
  have hheader := headerLength_le a
  have hle : a.headerLength.val ≤ bufferMax a - checksumLength := by omega
  have hframes (frames : List ℕ) : finalizeAndProtect
      (addFrames (bufferMax a - checksumLength) a.headerLength frames) a.headerLength ≤
        bufferMax a := by
    have hlength := addFrames_le hle frames
    exact finalizeAndProtect_le (by omega) _
  rw [closingLength]
  split
  · exact hframes [a.closeLength]
  · split_ifs
    · exact Nat.zero_le _
    · exact hframes [a.closeLength]
    · exact Nat.zero_le _
  · exact hframes _
  · exact hframes _
  · exact hframes _
  · exact Nat.zero_le _

end Lengths

/-! ### What happens without sending -/

/-- The states in which segments are charged. -/
def Charged (c : ServerCnx) : Prop :=
  c.cnxState = .serverInit ∨ c.cnxState = .serverHandshake ∨ c.cnxState = .serverFalseStart ∨
    c.cnxState = .serverAlmostReady

/-- Nothing is sent, and a connection that is closing is not opened again. Only a client with a
validated address gets to the end of the handshake. -/
structure Quiet (c c' : ServerCnx) : Prop where
  produced : c'.bytesProduced = c.bytesProduced
  sent : c'.initialDataSent = c.initialDataSent
  received : c.initialDataReceived ≤ c'.initialDataReceived
  validated : c'.initialValidated = false → c.initialValidated = false
  charged : c'.Charged → c.Charged
  ready : c'.cnxState = .ready → c.cnxState = .ready ∨ c'.initialValidated = true
  keys : c'.hasOneRttReadKeys = true → c.hasOneRttReadKeys = true ∨ c'.initialValidated = true

private theorem Quiet.refl (c : ServerCnx) : c.Quiet c :=
  ⟨rfl, rfl, le_rfl, id, id, Or.inl, Or.inl⟩

private theorem Quiet.isValidated {c c' : ServerCnx} (h : c.Quiet c')
    (hc : c.initialValidated = true) :
    c'.initialValidated = true :=
  eq_true_of_ne_false fun hnot => Bool.false_ne_true ((h.validated hnot).symm.trans hc)

private theorem Quiet.trans {c₁ c₂ c₃ : ServerCnx} (h : c₁.Quiet c₂) (h' : c₂.Quiet c₃) :
    c₁.Quiet c₃ where
  produced := h'.produced.trans h.produced
  sent := h'.sent.trans h.sent
  received := Nat.le_trans h.received h'.received
  validated hnot := h.validated (h'.validated hnot)
  charged hcharged := h.charged (h'.charged hcharged)
  ready hready := by
    rcases h'.ready hready with hready | hvalidated
    · exact (h.ready hready).imp_right h'.isValidated
    · exact Or.inr hvalidated
  keys hkeys := by
    rcases h'.keys hkeys with hkeys | hvalidated
    · exact (h.keys hkeys).imp_right h'.isValidated
    · exact Or.inr hvalidated

private theorem quiet_state {c : ServerCnx}
    (hcharged : { c with cnxState := s }.Charged → c.Charged)
    (hready : s ≠ .ready) : c.Quiet { c with cnxState := s } :=
  ⟨rfl, rfl, le_rfl, id, hcharged, fun h => absurd h hready, Or.inl⟩

private theorem not_charged_of_closing {c : ServerCnx}
    (h : s.toNat = 8 ∨ s.toNat = 9 ∨ 15 ≤ s.toNat) :
    ¬ ({ c with cnxState := s } : ServerCnx).Charged := by
  rintro (hs | hs | hs | hs)
  all_goals
    change s = _ at hs
    subst hs
    exact absurd h (by decide)

private theorem quiet_closing {c : ServerCnx} (h : s.toNat = 8 ∨ s.toNat = 9 ∨ 15 ≤ s.toNat) :
    c.Quiet { c with cnxState := s } := by
  refine quiet_state (fun hcharged => absurd hcharged (not_charged_of_closing h)) fun hready => ?_
  subst hready
  exact absurd h (by decide)

private theorem quiet_connectionError (c : ServerCnx) : c.Quiet c.connectionError := by
  rw [connectionError]
  split_ifs
  · exact quiet_closing (by decide)
  · exact quiet_closing (by decide)
  · exact Quiet.refl c
  · exact Quiet.refl c

private theorem quiet_close (c : ServerCnx) : c.Quiet c.close := by
  rw [close]
  split_ifs
  · exact quiet_closing (by decide)
  · exact quiet_closing (by decide)
  · exact Quiet.refl c

private theorem quiet_closeImmediate (c : ServerCnx) : c.Quiet c.closeImmediate := by
  rw [closeImmediate]
  split_ifs
  · exact quiet_closing (by decide)
  · exact Quiet.refl c

private theorem quiet_connectionDisconnect (c : ServerCnx) : c.Quiet c.connectionDisconnect :=
  quiet_closing (by decide)

private theorem quiet_falseStartTransition {c : ServerCnx} (h : c.Charged) (newTokenFails : Bool) :
    c.Quiet (c.falseStartTransition newTokenFails) := by
  have hstart : c.Quiet { c with cnxState := .serverFalseStart } :=
    quiet_state (fun _ => h) (by decide)
  rw [falseStartTransition]
  split_ifs
  · exact hstart.trans (quiet_connectionError _)
  · exact hstart

private theorem quiet_tlsStreamProcess (c : ServerCnx) (tls : Option TlsResult) :
    c.Quiet (c.tlsStreamProcess tls) := by
  cases tls with
  | none => exact Quiet.refl c
  | some t =>
    have hkeys : c.Quiet { c with
        hasHandshakeKeys := c.hasHandshakeKeys || t.handshakeKeys
        hasOneRttKeys := c.hasOneRttKeys || t.oneRttKeys } :=
      ⟨rfl, rfl, le_rfl, id, id, Or.inl, Or.inl⟩
    refine hkeys.trans ?_
    rw [tlsStreamProcess]
    generalize ({ c with
        hasHandshakeKeys := c.hasHandshakeKeys || t.handshakeKeys
        hasOneRttKeys := c.hasOneRttKeys || t.oneRttKeys } : ServerCnx) = d
    have hcharged (h : d.cnxState = .serverInit ∨ d.cnxState = .serverHandshake) : d.Charged :=
      h.imp_right Or.inl
    cases t.ret with
    | ok =>
      dsimp only
      split_ifs with hstate
      · exact quiet_falseStartTransition (hcharged hstate) _
      · exact quiet_state (fun _ => hcharged hstate) (by decide)
      · exact Quiet.refl d
      · exact Quiet.refl d
    | inProgress =>
      dsimp only
      split_ifs with hstate
      · exact quiet_state (fun _ => hcharged hstate.1) (by decide)
      · exact Quiet.refl d
    | error => exact quiet_connectionError d

private theorem quiet_decodeFrames (c : ServerCnx) (frames : FramesResult) :
    c.Quiet (c.decodeFrames frames).1 := by
  cases frames with
  | ok => exact Quiet.refl c
  | connectionError => exact quiet_connectionError c
  | connectionClose =>
    rw [decodeFrames]
    split_ifs
    · exact quiet_closing (by decide)
    · exact quiet_closing (by decide)

private theorem quiet_decodeAndProcess (c : ServerCnx) (frames : FramesResult)
    (tls : Option TlsResult) :
    c.Quiet (c.decodeAndProcess frames tls) := by
  have hframes := c.quiet_decodeFrames frames
  rw [decodeAndProcess]
  generalize c.decodeFrames frames = r at hframes ⊢
  dsimp only
  split_ifs
  · exact hframes.trans (quiet_tlsStreamProcess _ _)
  · exact hframes

private theorem quiet_accountFor (c : ServerCnx) (s : Segment) : c.Quiet (c.accountFor s) := by
  rw [accountFor]
  split_ifs
  · exact ⟨rfl, rfl, Nat.le_add_right _ _, id, id, Or.inl, Or.inl⟩
  · exact Quiet.refl c

private theorem quiet_validate (c : ServerCnx) (b : Bool) :
    c.Quiet { c with initialValidated := c.initialValidated || b } := by
  refine ⟨rfl, rfl, le_rfl, fun hnot => ?_, id, Or.inl, Or.inl⟩
  exact (Bool.or_eq_false_iff.mp hnot).1

private theorem quiet_checkToken (c : ServerCnx) (token : TokenCheck) (load : ServerLoad) :
    c.Quiet (c.checkToken token load).1 := by
  rw [checkToken]
  split_ifs
  · exact (quiet_validate c _).trans (quiet_connectionError _)
  · exact quiet_validate c _
  · exact Quiet.refl c

private theorem quiet_incomingClientInitial (c : ServerCnx) (s : Segment) (load : ServerLoad) :
    c.Quiet (c.incomingClientInitial s load) := by
  have htoken := c.quiet_checkToken s.token load
  rw [incomingClientInitial]
  generalize c.checkToken s.token load = r at htoken ⊢
  dsimp only
  split_ifs
  · exact (htoken.trans (quiet_validate _ _)).trans (quiet_closing (by decide))
  · exact (htoken.trans (quiet_validate _ _)).trans (quiet_decodeAndProcess _ _ _)
  · exact htoken.trans (quiet_validate _ _)
  · exact htoken

private theorem quiet_incomingInitial (c : ServerCnx) (s : Segment) (load : ServerLoad) :
    c.Quiet (c.incomingInitial s load) := by
  rw [incomingInitial]
  split_ifs
  · exact Quiet.refl c
  · exact (c.quiet_accountFor s).trans (quiet_incomingClientInitial _ s load)
  · exact Quiet.refl c
  · exact Quiet.refl c

private theorem quiet_incomingZeroRtt (c : ServerCnx) (s : Segment) :
    c.Quiet (c.incomingZeroRtt s) := by
  have haccount := c.quiet_accountFor s
  rw [incomingZeroRtt]
  generalize c.accountFor s = d at haccount ⊢
  dsimp only
  split_ifs
  · exact quiet_connectionError c
  · exact haccount.trans (quiet_connectionError _)
  · exact haccount.trans (quiet_decodeAndProcess _ _ _)
  · exact haccount
  · exact haccount

private theorem quiet_handshakeProcess {c : ServerCnx} (h : c.initialValidated = true)
    (tls : Option TlsResult) : c.Quiet (c.handshakeProcess tls) := by
  have hkeys (b : Bool) : c.Quiet { c with
      hasInitialKeys := false
      hasOneRttReadKeys := c.hasOneRttReadKeys || b } :=
    ⟨rfl, rfl, le_rfl, id, id, Or.inl, fun _ => Or.inr h⟩
  have htls := (hkeys _).trans (quiet_tlsStreamProcess
    { c with
      hasInitialKeys := false
      hasOneRttReadKeys := c.hasOneRttReadKeys || tls.elim false TlsResult.isHandshakeComplete }
    tls)
  rw [handshakeProcess]
  generalize tlsStreamProcess _ tls = d at htls ⊢
  split_ifs
  · refine htls.trans ⟨rfl, rfl, le_rfl, id, fun hcharged => ?_, fun _ => ?_, Or.inl⟩
    · rcases hcharged with hs | hs | hs | hs <;> cases hs
    · exact Or.inr (htls.isValidated h)
  · exact htls

/-- A Handshake packet validates the address. -/
theorem quiet_incomingClientHandshake (c : ServerCnx) (s : Segment) :
    c.Quiet (c.incomingClientHandshake s) := by
  have hvalidate : c.Quiet { c with initialValidated := true } :=
    ⟨rfl, rfl, le_rfl, fun hnot => (Bool.false_ne_true hnot.symm).elim, id, Or.inl, Or.inl⟩
  have hframes := hvalidate.trans (quiet_decodeFrames { c with initialValidated := true } s.frames)
  have hvalidated :=
    (quiet_decodeFrames { c with initialValidated := true } s.frames).isValidated rfl
  rw [incomingClientHandshake]
  dsimp only
  split_ifs
  · exact hvalidate
  · exact hvalidate.trans (quiet_connectionError _)
  · exact hframes.trans (quiet_handshakeProcess hvalidated s.tls)
  · exact hframes
  · exact hvalidate

private theorem quiet_incomingHandshake (c : ServerCnx) (s : Segment) :
    c.Quiet (c.incomingHandshake s) := by
  rw [incomingHandshake]
  split_ifs
  · exact quiet_connectionError c
  · exact quiet_incomingClientHandshake c s

private theorem quiet_incomingOneRtt (c : ServerCnx) (frames : FramesResult) :
    c.Quiet (c.incomingOneRtt frames) := by
  rw [incomingOneRtt]
  split_ifs
  · exact quiet_decodeFrames c frames
  · exact quiet_closing (by decide)
  · exact Quiet.refl c
  · exact Quiet.refl c

/-! ### When the limit holds -/

/-- The limit holds with this many bytes more than were sent. -/
def HasRoom (c : ServerCnx) (n : ℕ) : Prop :=
  c.initialValidated = true ∨ c.bytesProduced + n ≤ 3 * c.initialDataReceived

instance (c : ServerCnx) (n : ℕ) : Decidable (c.HasRoom n) := inferInstanceAs (Decidable (_ ∨ _))

/-- The segment is not checked any more, or not sent, or it does not exceed its buffer. -/
def KeepsBuffer (c : ServerCnx) (a : SegmentArgs) (overrun : ℕ) : Prop :=
  c.initialValidated = true ∨ c.ExceedsLimit a ∨ overrun = 0

instance (c : ServerCnx) (a : SegmentArgs) (overrun : ℕ) : Decidable (c.KeepsBuffer a overrun) :=
  inferInstanceAs (Decidable (_ ∨ _ ∨ _))

/-- The condition on a segment in this state. -/
def FitsInState (c : ServerCnx) (a : SegmentArgs) : CnxState → Prop
  | .serverAlmostReady | .serverInit | .serverHandshake => c.KeepsBuffer a (c.serverInitOverrun a)
  | .serverFalseStart => c.KeepsBuffer a (c.almostReadyOverrun a)
  | .handshakeFailure | .handshakeFailureResend | .disconnecting | .closingReceived | .closing =>
    c.HasRoom (bufferMax a)
  | .ready | .draining | .disconnected => True

instance (c : ServerCnx) (a : SegmentArgs) : ∀ s, Decidable (c.FitsInState a s)
  | .serverAlmostReady | .serverInit | .serverHandshake | .serverFalseStart =>
    inferInstanceAs (Decidable (c.KeepsBuffer a _))
  | .handshakeFailure | .handshakeFailureResend | .disconnecting | .closingReceived | .closing =>
    inferInstanceAs (Decidable (c.HasRoom _))
  | .ready | .draining | .disconnected => inferInstanceAs (Decidable True)

/-- A segment that is checked does not exceed its buffer. A closing segment, which is not, has room
for a full buffer. -/
def SegmentFits (c : ServerCnx) (a : SegmentArgs) : Prop := c.FitsInState a c.cnxState

instance (c : ServerCnx) (a : SegmentArgs) : Decidable (c.SegmentFits a) :=
  inferInstanceAs (Decidable (c.FitsInState a c.cnxState))

/-- The condition on one event. -/
def Fits (c : ServerCnx) : Event → Prop
  | .segment a => c.SegmentFits a
  | .initial _ _ | .zeroRtt _ | .handshake _ | .oneRtt _ | .close | .closeImmediate
  | .connectionError | .disconnect => True

instance : ∀ (c : ServerCnx) (e : Event), Decidable (c.Fits e)
  | c, .segment a => inferInstanceAs (Decidable (c.SegmentFits a))
  | _, .initial _ _ | _, .zeroRtt _ | _, .handshake _ | _, .oneRtt _ | _, .close
  | _, .closeImmediate | _, .connectionError | _, .disconnect => inferInstanceAs (Decidable True)

/-! ### The invariant -/

/-- What was sent is charged as long as segments are checked, and it is below the limit. -/
structure Within (c : ServerCnx) : Prop where
  charged : c.initialValidated = false → c.Charged → c.bytesProduced = c.initialDataSent
  limited : c.initialValidated = false → c.bytesProduced ≤ 3 * c.initialDataReceived
  ready : c.cnxState = .ready → c.initialValidated = true
  keys : c.hasOneRttReadKeys = true → c.initialValidated = true

private theorem Within.init : ServerCnx.init.Within :=
  ⟨fun _ _ => rfl, fun _ => le_rfl, fun h => absurd h (by decide), fun h => absurd h (by decide)⟩

private theorem Within.quiet {c c' : ServerCnx} (h : c.Within) (hq : c.Quiet c') : c'.Within where
  charged hnot hcharged := by
    rw [hq.produced, hq.sent]
    exact h.charged (hq.validated hnot) (hq.charged hcharged)
  limited hnot := by
    rw [hq.produced]
    exact Nat.le_trans (h.limited (hq.validated hnot)) (Nat.mul_le_mul_left 3 hq.received)
  ready hready := (hq.ready hready).elim (fun hready => hq.isValidated (h.ready hready)) id
  keys hkeys := (hq.keys hkeys).elim (fun hkeys => hq.isValidated (h.keys hkeys)) id

/-- A segment for which there is room is produced, and charged if it is checked. -/
theorem Within.produce {c : ServerCnx} (h : c.Within) (hroom : c.HasRoom n) :
    ((c.charge n).produce n).Within ∧ (¬ c.Charged → (c.produce n).Within) := by
  have hlimited (hnot : c.initialValidated = false) :
      c.bytesProduced + n ≤ 3 * c.initialDataReceived :=
    hroom.resolve_left fun hvalidated => Bool.false_ne_true (hnot.symm.trans hvalidated)
  refine ⟨?_, fun hclosing => ?_⟩
  · rw [charge]
    split_ifs with hvalidated
    · exact ⟨fun hnot => absurd (hnot.symm.trans hvalidated) Bool.false_ne_true, hlimited, h.ready,
        h.keys⟩
    · refine ⟨fun hnot hcharged => ?_, hlimited, h.ready, h.keys⟩
      have heq := h.charged hnot hcharged
      change c.bytesProduced + n = c.initialDataSent + n
      rw [heq]
  · exact ⟨fun _ hcharged => absurd hcharged hclosing, hlimited, h.ready, h.keys⟩

private theorem HasRoom.mono {c : ServerCnx} {m n : ℕ} (h : c.HasRoom n) (hle : m ≤ n) :
    c.HasRoom m :=
  h.imp_right fun hroom => Nat.le_trans (Nat.add_le_add_left hle _) hroom

private theorem HasRoom.quiet {c c' : ServerCnx} (h : c.HasRoom n) (hq : c.Quiet c') :
    c'.HasRoom n := by
  rcases h with hvalidated | hroom
  · exact Or.inl (hq.isValidated hvalidated)
  · refine Or.inr ?_
    rw [hq.produced]
    exact Nat.le_trans hroom (Nat.mul_le_mul_left 3 hq.received)

/-- The check that is made before a segment leaves room for its buffer, as all that was produced is
charged. -/
theorem Within.hasRoom {c : ServerCnx} (h : c.Within) (hcharged : c.Charged) {a : SegmentArgs}
    (hexceeds : ¬ c.ExceedsLimit a) : c.HasRoom (bufferMax a) := by
  by_cases hvalidated : c.initialValidated = true
  · exact Or.inl hvalidated
  · have hnot := eq_false_of_ne_true hvalidated
    have hsent : ¬ 3 * c.initialDataReceived < c.initialDataSent + bufferMax a := fun hlt =>
      hexceeds ⟨hnot, hlt⟩
    refine Or.inr ?_
    rw [h.charged hnot hcharged]
    exact not_lt.mp hsent

/-- A segment that is sent stays below the limit if it does not exceed its buffer. -/
theorem Within.hasRoom_of_keepsBuffer {c : ServerCnx} (h : c.Within) (hcharged : c.Charged)
    {a : SegmentArgs} (hexceeds : ¬ c.ExceedsLimit a) {overrun n : ℕ}
    (hkeeps : c.KeepsBuffer a overrun) (hn : n ≤ bufferMax a + overrun) : c.HasRoom n := by
  obtain hvalidated | hsent | rfl := hkeeps
  · exact Or.inl hvalidated
  · exact absurd hsent hexceeds
  · exact (h.hasRoom hcharged hexceeds).mono hn

private theorem Within.of_validated {c : ServerCnx} (h : c.initialValidated = true) : c.Within :=
  ⟨fun hnot => absurd (hnot.symm.trans h) Bool.false_ne_true,
    fun hnot => absurd (hnot.symm.trans h) Bool.false_ne_true, fun _ => h, fun _ => h⟩

/-! ### Segments -/

private theorem quiet_progress {c : ServerCnx} (h : c.Charged) (a : SegmentArgs) :
    c.Quiet (c.progress a) := by
  rw [progress]
  split_ifs
  · exact (quiet_falseStartTransition h _).trans (quiet_connectionError _)
  · exact quiet_falseStartTransition h _
  · exact quiet_state (fun _ => h) (by decide)
  · exact Quiet.refl c

private theorem Within.serverInit {c : ServerCnx} (h : c.Within) (hcharged : c.Charged)
    {a : SegmentArgs}
    (hkeeps : c.KeepsBuffer a (c.serverInitOverrun a)) : (c.preparePacketServerInit a).Within := by
  rw [preparePacketServerInit]
  by_cases hexceeds : c.ExceedsLimit a
  · rw [if_pos hexceeds]
    exact h
  · rw [if_neg hexceeds]
    have hroom := h.hasRoom_of_keepsBuffer hcharged hexceeds hkeeps (c.serverInitLength_le a)
    dsimp only
    split_ifs
    · exact (h.produce hroom).1
    · have hq := quiet_progress hcharged a
      exact ((h.quiet hq).produce (hroom.quiet hq)).1

private theorem Within.almostReady {c : ServerCnx} (h : c.Within) (hcharged : c.Charged)
    {a : SegmentArgs} (hkeeps : c.KeepsBuffer a (c.almostReadyOverrun a)) :
    (c.preparePacketAlmostReady a).Within := by
  rw [preparePacketAlmostReady]
  by_cases hexceeds : c.ExceedsLimit a
  · rw [if_pos hexceeds]
    exact h
  · rw [if_neg hexceeds]
    have hroom := h.hasRoom_of_keepsBuffer hcharged hexceeds hkeeps (c.almostReadyLength_le a)
    dsimp only
    split_ifs
    · have hq := quiet_connectionDisconnect c
      exact ((h.quiet hq).produce (hroom.quiet hq)).1
    · exact (h.produce hroom).1

/-- A closing connection stays one. -/
theorem closingState_toNat {c : ServerCnx}
    (h : c.cnxState.toNat = 8 ∨ c.cnxState.toNat = 9 ∨ 15 ≤ c.cnxState.toNat) (a : SegmentArgs) :
    (c.closingState a).toNat = 9 ∨ 15 ≤ (c.closingState a).toNat := by
  rw [closingState]
  generalize c.cnxState = s at h ⊢
  cases s with
  | handshakeFailure | closing | draining =>
    dsimp only
    split_ifs <;> decide
  | handshakeFailureResend | disconnecting | closingReceived | disconnected =>
    dsimp only
    decide
  | serverInit | serverHandshake | serverFalseStart | serverAlmostReady | ready =>
    exact absurd h (by decide)

private theorem Within.closing {c : ServerCnx} (h : c.Within)
    (hstate : c.cnxState.toNat = 8 ∨ c.cnxState.toNat = 9 ∨ 15 ≤ c.cnxState.toNat) {a : SegmentArgs}
    (hroom : c.HasRoom (c.closingLength a)) : (c.preparePacketClosing a).Within := by
  have hnext := closingState_toNat hstate a
  have hq : c.Quiet { c with cnxState := c.closingState a } := quiet_closing (Or.inr hnext)
  exact ((h.quiet hq).produce (hroom.quiet hq)).2 (not_charged_of_closing (Or.inr hnext))

/-- One segment. -/
theorem Within.segment {c : ServerCnx} (h : c.Within) {a : SegmentArgs} (hfits : c.SegmentFits a) :
    (c.prepareSegment a).Within := by
  rw [SegmentFits] at hfits
  have hle := c.closingLength_le a
  rw [prepareSegment]
  cases hs : c.cnxState with
  | serverInit | serverHandshake | serverAlmostReady =>
    rw [hs] at hfits
    exact h.serverInit (by simp [Charged, hs]) hfits
  | serverFalseStart =>
    rw [hs] at hfits
    dsimp only
    split_ifs with hkeys
    · exact Within.of_validated (h.keys hkeys)
    · exact h.almostReady (by simp [Charged, hs]) hfits
  | ready => exact Within.of_validated (h.ready hs)
  | handshakeFailure | handshakeFailureResend | disconnecting | closingReceived | closing =>
    rw [hs] at hfits
    exact h.closing (hs ▸ by decide) (hfits.mono hle)
  | draining =>
    refine h.closing (hs ▸ by decide) ?_
    -- Nothing is ever sent in this state.
    rw [closingLength, hs, HasRoom]
    by_cases hvalidated : c.initialValidated = true
    · exact Or.inl hvalidated
    · exact Or.inr (h.limited (eq_false_of_ne_true hvalidated))
  | disconnected => exact h

/-- One event. -/
theorem Within.step {c : ServerCnx} (h : c.Within) {e : Event} (hfits : c.Fits e) :
    (c.step e).Within := by
  cases e with
  | initial s load => exact h.quiet (c.quiet_incomingInitial s load)
  | zeroRtt s => exact h.quiet (c.quiet_incomingZeroRtt s)
  | handshake s => exact h.quiet (c.quiet_incomingHandshake s)
  | oneRtt frames => exact h.quiet (c.quiet_incomingOneRtt frames)
  | segment a => exact h.segment hfits
  | close => exact h.quiet c.quiet_close
  | closeImmediate => exact h.quiet c.quiet_closeImmediate
  | connectionError => exact h.quiet c.quiet_connectionError
  | disconnect => exact h.quiet c.quiet_connectionDisconnect

end ServerCnx

/-- **The amplification limit**, in every run in which there is room for the closing packets, and no
other segment exceeds its buffer. -/
theorem amplification_limited {evs : List ServerCnx.Event}
    (h : Along ServerCnx.step ServerCnx.Fits ServerCnx.init evs) :
    let c := run ServerCnx.step ServerCnx.init evs
    c.initialValidated = false → c.bytesProduced ≤ 3 * c.initialDataReceived :=
  (run_invariant_of_along (I := ServerCnx.Within) (fun _ _ hc he => hc.step he)
    ServerCnx.Within.init h).limited

/-- The datagram with the ClientHello. The server gets all keys but those to read 1-RTT packets. -/
def clientHello : ServerCnx.Segment where
  packetLength := 1252
  isFirstSegment := true
  hasReservedBitSet := false
  isForInitialCnxid := true
  isForLocalCnxid := false
  isFromRemoteCnxid := true
  isPayloadEmpty := false
  isVersionExpected := true
  token := .absent
  frames := .ok
  tls := some ⟨.inProgress, true, true, true, false, false, false⟩

/-- A segment with nothing to send. -/
def emptySegment : SegmentArgs where
  sendBufferMax := 1536
  sendMtu := 1252
  minSegmentSize_le := by decide
  isInitialSent := false
  headerLength := 29
  isInitialDataSent := true
  initialQueue := []
  isInitialAckNeeded := false
  handshakeQueue := []
  isHandshakeAckNeeded := false
  ackLength := 0
  tlsReady := false
  isTlsStreamReady := false
  isCwinOpen := true
  cryptoLength := 0
  isAllDataSent := false
  isClientAuthenticationActivated := false
  newTokenFails := false
  almostReadyFails := false
  dontCoalesceInit := false
  frames := []
  disconnects := false
  mtuProbe := none
  isKeepAliveDue := false
  isChallengePaddingNeeded := false
  policyTarget := 0
  hasHandshakeSack := false
  isExitTimeReached := false
  isCloseTimeReached := false
  isCloseNeeded := false
  closeLength := 0
  readyLength := 0

/-- The Initial packet with the ServerHello. -/
def serverHello : SegmentArgs :=
  { emptySegment with
    headerLength := 30
    isInitialDataSent := false
    isInitialAckNeeded := true
    ackLength := 10
    tlsReady := true
    isTlsStreamReady := true
    cryptoLength := 100
    isAllDataSent := true }

/-- A Handshake packet with a part of the certificates. -/
def certificates (cryptoLength : ℕ) : SegmentArgs :=
  { emptySegment with
    tlsReady := true
    isTlsStreamReady := true
    cryptoLength := cryptoLength }

/-- The rest of the datagram with the ServerHello. -/
def firstCertificates : SegmentArgs :=
  { certificates 1051 with
    sendBufferMax := 1096
    minSegmentSize_le := by decide
    isInitialSent := true }

/-- A CONNECTION_CLOSE frame. -/
def closingSegment : SegmentArgs := { emptySegment with closeLength := 7 }

/-- What a new connection meets at a server with few connections. -/
def noLoad : ServerCnx.ServerLoad := ⟨false, false, false, false⟩

/-- A connection that is closed with a part of the certificates sent. -/
theorem amplification_limited_when_closed :
    (run ServerCnx.step ServerCnx.init
      [.initial clientHello noLoad, .segment serverHello, .segment firstCertificates, .close,
        .segment closingSegment]).bytesProduced ≤
    3 * (run ServerCnx.step ServerCnx.init
      [.initial clientHello noLoad, .segment serverHello, .segment firstCertificates, .close,
        .segment closingSegment]).initialDataReceived :=
  amplification_limited (by decide +kernel) (by decide +kernel)

/-- Three full datagrams use up the limit. Then the application closes the connection, and a closing
packet is sent without a check, and without being charged. -/
theorem amplification_exceeded_by_close :
    let c := run ServerCnx.step ServerCnx.init
      [.initial clientHello noLoad, .segment serverHello, .segment firstCertificates,
        .segment (certificates 1207), .segment (certificates 1207), .close, .segment closingSegment]
    c.initialValidated = false ∧ c.initialDataReceived = 1252 ∧ c.initialDataSent = 3756 ∧
      c.bytesProduced = 3808 ∧ 3 * c.initialDataReceived < c.bytesProduced := by
  decide +kernel

end Picoquic
