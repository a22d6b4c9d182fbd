import Picoquic.Ack.Exact
import Picoquic.Frames.SkipFields

/-!
# Skipping agrees with decoding

`picoquic_skip_frame` and the decoders of `picoquic_decode_frames` are two parsers for the same
frames. The decoder may refuse a frame that is skipped, since it knows the connection; what it
accepts, it ends where skipping ends.

* **`DecodeCnx.skipFrame_of_decodeFrame`** — one frame;
* **`DecodeCnx.skipsTo_of_decodes`** — any number of frames of a packet;
* **`trims_skipFrame`** — a frame is the front of the bytes, so that it has a length;
* **`skip_agrees_with_decode`** — the length is the same for both.
-/

namespace Picoquic

open Readers

/-! ### Frames -/

private theorem exists_of_map_ok {ε α β : Type} {x : Except ε α} {f : α → β} {b : β}
    (h : x.map f = .ok b) : ∃ a, x = .ok a ∧ f a = b := by
  cases x with
  | error e => cases h
  | ok a => exact ⟨a, rfl, Except.ok.inj h⟩

/-- The fields of a frame that is accepted were read, and are skipped. -/
theorem skip_of_readFields {α β : Type} {s : List UInt8 → Option (List UInt8)}
    {p : List UInt8 → Option (α × List UInt8)} (hs : Covers s p) {error : FrameError}
    {use : α → Except FrameError β} {bytes rest : List UInt8} {b : β}
    (h : readFields error (p bytes) use = .ok (b, rest)) : s bytes = some rest := by
  unfold readFields at h
  split at h
  · cases h
  next a rest₁ hp =>
    obtain ⟨b₁, -, heq⟩ := exists_of_map_ok h
    rw [hs hp, (Prod.mk.inj heq).2]

namespace DecodeCnx

variable {φ σ : Type} {calls : FrameCalls φ σ} {c c' : DecodeCnx φ σ} {epoch : PacketEpoch}
  {currentTime : ℕ} {first : UInt8} {bytes rest rest' : List UInt8}

theorem skipStreamFrame_of_decodeStreamFrame
    (h : c.decodeStreamFrame calls (first :: rest) = .ok (c', rest')) :
    skipStreamFrame first rest = some rest' := by
  rw [decodeStreamFrame] at h
  split at h
  · cases h
  next header hheader =>
    split at h
    · cases h
    obtain ⟨c₁, -, heq⟩ := exists_of_map_ok h
    rw [skipStreamFrame_of_parseStreamHeader hheader, (Prod.mk.inj heq).2]

theorem skipAckFrameMaybeEcn_of_decodeAckFrameOf {isEcn hasPath : Bool} (hne : bytes ≠ [])
    (h : c.decodeAckFrameOf calls bytes currentTime epoch isEcn hasPath = .ok (c', rest)) :
    skipAckFrameMaybeEcn bytes isEcn hasPath = some rest := by
  obtain ⟨⟨ack, rest₁, effects⟩, hdecode, heq⟩ := exists_of_map_ok h
  obtain rfl : rest₁ = rest := (Prod.mk.inj heq).2
  exact skipAckFrameMaybeEcn_of_decodeAckFrame hne hdecode

/-- The frames whose type is not a byte. -/
theorem skipExtendedFrame_of_decodeExtendedFrame (hne : bytes ≠ [])
    (h : c.decodeExtendedFrame calls epoch currentTime bytes = .ok (c', rest)) :
    (skipExtendedFrame bytes).1 = some rest := by
  rw [decodeExtendedFrame] at h
  split at h
  · cases h
  next frameId rest₁ htype =>
    rw [skipExtendedFrame, htype]
    simp only
    split at h
    · exact skip_of_readFields covers_parseAckFrequencyFrame h
    · exact skip_of_readFields covers_framesVarintDecode h
    · split at h
      · cases h
      · exact skipAckFrameMaybeEcn_of_decodeAckFrameOf hne h
    · split at h
      · cases h
      · exact skipAckFrameMaybeEcn_of_decodeAckFrameOf hne h
    · rw [decodePathAbandonFrame] at h
      split at h
      · cases h
      next hparse =>
        split at h
        · rw [← (Prod.mk.inj (Except.ok.inj h)).2]
          exact skipPathAbandonFrame_of_parse hparse
        · rw [← (Prod.mk.inj (Except.ok.inj h)).2]
          exact skipPathAbandonFrame_of_parse hparse
    · split at h
      · cases h
      · exact skip_of_readFields covers_parseBdpFrame h
    · cases h

theorem covers_datagram (frameId : UInt8) : Covers (skipDatagramFrame frameId) fun rest =>
    if frameId &&& 1 = 0 then some (rest, []) else framesLengthDataDecode rest := by
  intro bytes data rest h
  rw [skipDatagramFrame]
  simp only at h
  by_cases hlength : frameId &&& 1 = 0
  · rw [if_pos hlength] at h ⊢
    rw [(Prod.mk.inj (Option.some.inj h)).2]
  · rw [if_neg hlength] at h ⊢
    exact covers_framesLengthDataDecode h

theorem skip_of_decodePathChallengeFrame
    (h : c.decodePathChallengeFrame calls (first :: rest) = .ok (c', rest')) :
    framesFixedSkip rest challengeLength = some rest' := by
  rw [decodePathChallengeFrame] at h
  split at h
  · cases h
  next hlength =>
    rw [← (Prod.mk.inj (Except.ok.inj h)).2]
    exact if_pos (by rw [List.length_cons] at hlength; omega)

theorem eq_of_decodeHandshakeDoneFrame
    (h : c.decodeHandshakeDoneFrame calls rest = .ok (c', rest')) : rest = rest' := by
  rw [decodeHandshakeDoneFrame] at h
  split at h
  · split at h
    · cases h
    · exact (Prod.mk.inj (Except.ok.inj h)).2
    · exact (Prod.mk.inj (Except.ok.inj h)).2
  · cases h

theorem skip_of_decodeBlockedFrame {frameType : ℕ}
    (h : c.decodeBlockedFrame rest frameType = .ok (c', rest')) :
    framesVarintSkip rest = some rest' := by
  rw [decodeBlockedFrame] at h
  split at h
  · cases h
  next hskip => rw [hskip, (Prod.mk.inj (Except.ok.inj h)).2]

theorem skip_of_decodeStreamBlockedFrame
    (h : c.decodeStreamBlockedFrame rest = .ok (c', rest')) :
    framesVarintsSkip 2 rest = some rest' := by
  rw [decodeStreamBlockedFrame] at h
  split at h
  · cases h
  next hskip =>
    obtain ⟨bytes₁, h₁, h₂⟩ := Option.bind_eq_some_iff.mp hskip
    rw [framesVarintsSkip, h₁, Option.bind_some, framesVarintsSkip, h₂,
      (Prod.mk.inj (Except.ok.inj h)).2]
    rfl

/-- The frames that are told apart by their first byte. -/
theorem skipFrame_of_decodeByType
    (hstream : ¬(frameTypeStreamRangeMin ≤ first.toNat ∧ first.toNat ≤ frameTypeStreamRangeMax))
    (hack : first.toNat ≠ frameTypeAck) (hecn : first.toNat ≠ frameTypeAckEcn)
    (h : c.decodeByType calls epoch currentTime first rest = .ok (c', rest')) :
    (skipFrame (first :: rest)).1 = some rest' := by
  rw [skipFrame, if_neg hstream]
  rw [decodeByType] at h
  -- one case for each frame type, in the order of the switch
  split at h
  next heq => rw [heq]; exact congrArg some (Prod.mk.inj (Except.ok.inj h)).2
  next heq => rw [heq]; exact skip_of_readFields (covers_framesVarintsDecode 3) h
  next heq => rw [heq]; exact skip_of_readFields covers_parseConnectionCloseFrame h
  next heq => rw [heq]; exact skip_of_readFields covers_parseApplicationCloseFrame h
  next heq => rw [heq]; exact skip_of_readFields covers_framesVarintDecode h
  next heq => rw [heq]; exact skip_of_readFields (covers_framesVarintsDecode 2) h
  next heq => rw [heq]; exact skip_of_readFields covers_framesVarintDecode h
  next heq => rw [heq]; exact skip_of_readFields covers_framesVarintDecode h
  next heq => rw [heq]; exact congrArg some (Prod.mk.inj (Except.ok.inj h)).2
  next heq => rw [heq]; exact skip_of_decodeBlockedFrame h
  next heq => rw [heq]; exact skip_of_decodeStreamBlockedFrame h
  next heq => rw [heq]; exact skip_of_decodeBlockedFrame h
  next heq => rw [heq]; exact skip_of_decodeBlockedFrame h
  next heq =>
    rw [heq]
    exact skip_of_readFields (skipNewConnectionIdFrame_cons (by rw [heq]; decide)) h
  next heq => rw [heq]; exact skip_of_readFields (covers_framesVarintsDecode 2) h
  next heq => rw [heq]; exact skip_of_decodePathChallengeFrame h
  next heq => rw [heq]; exact skip_of_readFields covers_framesUint64Decode h
  next heq => rw [heq]; exact skip_of_readFields covers_parseCryptoHsFrame h
  next heq => rw [heq]; exact skip_of_readFields covers_framesLengthDataDecode h
  next heq => rw [heq]; exact skip_of_readFields covers_framesVarintDecode h
  next heq => rw [heq]; exact congrArg some (eq_of_decodeHandshakeDoneFrame h)
  next heq => rw [heq]; exact skip_of_readFields (covers_datagram first) h
  next heq => rw [heq]; exact skip_of_readFields (covers_datagram first) h
  · split
    all_goals first
      | contradiction
      | exact skipExtendedFrame_of_decodeExtendedFrame (List.cons_ne_nil _ _) h

/-- **One frame.** -/
theorem skipFrame_of_decodeFrame
    (h : decodeFrame calls epoch currentTime c bytes = .ok (c', rest')) :
    (skipFrame bytes).1 = some rest' := by
  match bytes with
  | [] => cases h
  | first :: rest =>
    rw [decodeFrame] at h
    by_cases hstream : frameTypeStreamRangeMin ≤ first.toNat ∧ first.toNat ≤ frameTypeStreamRangeMax
    · rw [if_pos hstream] at h
      rw [skipFrame, if_pos hstream]
      split at h
      · exact skipStreamFrame_of_decodeStreamFrame h
      · cases h
    rw [if_neg hstream] at h
    by_cases hack : first.toNat = frameTypeAck
    · rw [if_pos hack] at h
      rw [skipFrame, if_neg hstream, hack]
      split at h
      · cases h
      · exact skipAckFrameMaybeEcn_of_decodeAckFrameOf (List.cons_ne_nil _ _) h
    rw [if_neg hack] at h
    by_cases hecn : first.toNat = frameTypeAckEcn
    · rw [if_pos hecn] at h
      rw [skipFrame, if_neg hstream, hecn]
      split at h
      · cases h
      · exact skipAckFrameMaybeEcn_of_decodeAckFrameOf (List.cons_ne_nil _ _) h
    rw [if_neg hecn] at h
    split at h
    · cases h
    split at h
    · cases h
    exact skipFrame_of_decodeByType hstream hack hecn h

/-- **A packet.** The frames that are decoded one after the other are skipped one after the
other. -/
theorem skipsTo_of_decodes {x y : DecodeCnx φ σ × List UInt8}
    (h : Relation.ReflTransGen
      (fun x y => decodeFrame calls epoch currentTime x.1 x.2 = .ok y) x y) :
    SkipsTo x.2 y.2 :=
  Covers.reach (decodeFrame calls epoch currentTime)
    (fun _ _ _ _ hstep => skipFrame_of_decodeFrame hstep) h

end DecodeCnx

/-! ### The length -/

theorem trims_framesFixedSkip (size : ℕ) : Trims (framesFixedSkip · size) := by
  intro bytes rest h
  obtain ⟨-, h⟩ := Option.ite_none_right_eq_some.mp h
  exact Option.some.inj h ▸ List.drop_suffix size bytes

theorem trims_framesVarintSkip : Trims framesVarintSkip := by
  intro bytes rest h
  match bytes with
  | [] => cases h
  | byte :: tail => exact trims_framesFixedSkip _ h

theorem trims_framesVarintDecode {q : ℕ → List UInt8 → Option (List UInt8)}
    (hq : ∀ v, Trims (q v)) :
    Trims fun bytes => (framesVarintDecode bytes).bind fun x => q x.1 x.2 :=
  (trims_framesVarintSkip.of_covers covers_framesVarintDecode).bindRead hq

theorem trims_framesVarintsSkip : ∀ n : ℕ, Trims (framesVarintsSkip n)
  | 0 => fun _ _ h => Option.some.inj h ▸ List.suffix_rfl
  | n + 1 => trims_framesVarintSkip.bind (trims_framesVarintsSkip n)

theorem trims_framesLengthDataSkip : Trims framesLengthDataSkip :=
  trims_framesVarintDecode fun length => trims_framesFixedSkip length

theorem trims_skipAckBlocks : ∀ n : ℕ, Trims (skipAckBlocks n)
  | 0 => fun _ _ h => Option.some.inj h ▸ List.suffix_rfl
  | n + 1 => by
    intro bytes rest h
    rw [skipAckBlocks] at h
    split at h
    · cases h
    next h₁ =>
      split at h
      · cases h
      next h₂ =>
        exact ((trims_skipAckBlocks n h).trans (trims_framesVarintSkip h₂)).trans
          (trims_framesVarintSkip h₁)

theorem trims_skipEcnCounts : Trims skipEcnCounts :=
  (trims_framesVarintSkip.bind trims_framesVarintSkip).bind trims_framesVarintSkip

theorem trims_skipAckFrameMaybeEcn (isEcn hasPath : Bool) :
    Trims (skipAckFrameMaybeEcn · isEcn hasPath) := by
  have hend : Trims fun bytes => if isEcn then skipEcnCounts bytes else some bytes := by
    intro bytes rest h
    cases isEcn with
    | false => exact Option.some.inj h ▸ List.suffix_rfl
    | true => exact trims_skipEcnCounts h
  have hblocks := trims_framesVarintSkip.bind (trims_framesVarintDecode fun nbBlocks =>
    trims_framesVarintSkip.bind ((trims_skipAckBlocks nbBlocks).bind hend))
  refine trims_framesVarintSkip.bind (trims_framesVarintSkip.bind ?_)
  intro bytes rest h
  cases hasPath with
  | false => exact hblocks h
  | true => exact trims_framesVarintSkip.bind hblocks h

theorem trims_skipStreamFrame (first : UInt8) : Trims (skipStreamFrame first) := by
  have hend : Trims fun bytes =>
      if first &&& 2 = 0 then some [] else framesLengthDataSkip bytes := by
    intro bytes rest h
    simp only at h
    split at h
    · exact Option.some.inj h ▸ List.nil_suffix
    · exact trims_framesLengthDataSkip h
  refine trims_framesVarintSkip.bind ?_
  intro bytes rest h
  simp only at h
  split at h
  · exact hend h
  · exact trims_framesVarintSkip.bind hend h

theorem trims_skipPathAbandonFrame : Trims skipPathAbandonFrame := by
  have hend := trims_framesVarintSkip.bind trims_framesLengthDataSkip
  intro bytes rest h
  obtain ⟨⟨pathIdType, pathIdValue, bytes₁⟩, hid, h⟩ := Option.bind_eq_some_iff.mp h
  refine (hend h).trans ?_
  obtain ⟨⟨idType, bytes₂⟩, htype, hid⟩ := Option.bind_eq_some_iff.mp hid
  refine List.IsSuffix.trans ?_ (trims_framesVarintSkip (varintSkip_eq htype))
  have hvalue : ∀ {t v : ℕ} {rest : List UInt8},
      ((framesVarintDecode bytes₂).bind fun x => some (t, x.1, x.2)) = some (pathIdType, v, rest) →
        rest <:+ bytes₂ := by
    intro t v rest hv
    obtain ⟨x, hx, heq⟩ := Option.bind_eq_some_iff.mp hv
    have hrest : x.2 = rest := (Prod.mk.inj (Prod.mk.inj (Option.some.inj heq)).2).2
    exact hrest ▸ trims_framesVarintSkip (varintSkip_eq hx)
  simp only at hid
  split at hid
  · exact hvalue hid
  · exact hvalue hid
  · rw [(Prod.mk.inj (Prod.mk.inj (Option.some.inj hid)).2).2]
  · cases hid

theorem trims_skipExtendedFrame : Trims fun bytes => (skipExtendedFrame bytes).1 := by
  intro bytes rest h
  simp only [skipExtendedFrame] at h
  split at h
  · cases h
  next frameId rest₁ htype =>
    have hrest : rest₁ <:+ bytes := trims_framesVarintSkip (varintSkip_eq htype)
    split at h
    · exact ((trims_framesVarintsSkip 3).bind (trims_framesFixedSkip 1) h).trans hrest
    · exact (trims_framesVarintSkip h).trans hrest
    · exact trims_skipAckFrameMaybeEcn false true h
    · exact trims_skipAckFrameMaybeEcn true true h
    · exact (trims_skipPathAbandonFrame h).trans hrest
    · exact ((trims_framesVarintsSkip 3).bind trims_framesLengthDataSkip h).trans hrest
    · cases h

theorem trims_skipNewConnectionIdFrame : Trims skipNewConnectionIdFrame := by
  refine (trims_framesVarintsSkip 3).bind ?_
  intro bytes rest h
  obtain ⟨⟨cidLength, bytes₁⟩, hlength, h⟩ := Option.bind_eq_some_iff.mp h
  exact (trims_framesFixedSkip _ h).trans
    (trims_framesFixedSkip 1 (covers_framesUint8Decode hlength))

theorem trims_skipDatagramFrame (first : UInt8) : Trims (skipDatagramFrame first) := by
  intro bytes rest h
  rw [skipDatagramFrame] at h
  split at h
  · exact Option.some.inj h ▸ List.nil_suffix
  · exact trims_framesLengthDataSkip h

/-- What follows a frame that is skipped is the end of the bytes. -/
theorem trims_skipFrame : Trims fun bytes => (skipFrame bytes).1 := by
  intro bytes rest h
  match bytes with
  | [] => cases h
  | first :: tail =>
    have htail : tail <:+ first :: tail := List.suffix_cons first tail
    have hdrop : skip0LenFrame first tail <:+ tail := List.dropWhile_suffix _
    have hclose : Trims skipApplicationCloseFrame :=
      trims_framesVarintSkip.bind trims_framesLengthDataSkip
    simp only [skipFrame] at h
    split at h
    · exact (trims_skipStreamFrame first h).trans htail
    split at h
    · exact trims_skipAckFrameMaybeEcn false false h
    · exact trims_skipAckFrameMaybeEcn true false h
    · exact Option.some.inj h ▸ hdrop.trans htail
    · exact (trims_framesVarintsSkip 3 h).trans htail
    · exact ((trims_framesVarintsSkip 2).bind trims_framesLengthDataSkip h).trans htail
    · exact (hclose h).trans htail
    · exact (trims_framesVarintSkip h).trans htail
    · exact (trims_framesVarintsSkip 2 h).trans htail
    · exact (trims_framesVarintSkip h).trans htail
    · exact (trims_framesVarintSkip h).trans htail
    · exact Option.some.inj h ▸ hdrop.trans htail
    · exact (trims_framesVarintSkip h).trans htail
    · exact (trims_framesVarintsSkip 2 h).trans htail
    · exact (trims_framesVarintSkip h).trans htail
    · exact (trims_framesVarintSkip h).trans htail
    · exact trims_skipNewConnectionIdFrame h
    · exact (trims_framesVarintsSkip 2 h).trans htail
    · exact (trims_framesFixedSkip challengeLength h).trans htail
    · exact (trims_framesFixedSkip challengeLength h).trans htail
    · exact (hclose h).trans htail
    · exact (trims_framesLengthDataSkip h).trans htail
    · exact (trims_framesVarintSkip h).trans htail
    · exact Option.some.inj h ▸ htail
    · exact (trims_skipDatagramFrame first h).trans htail
    · exact (trims_skipDatagramFrame first h).trans htail
    · exact trims_skipExtendedFrame h

/-- The output `consumed` of `picoquic_skip_frame`: the length of the frame, and everything where
it fails. -/
def skipFrameConsumed (bytes : List UInt8) : ℕ :=
  match (skipFrame bytes).1 with
  | some rest => bytes.length - rest.length
  | none => bytes.length

/-- **Skipping agrees with decoding.** A frame that the decoder accepts, in any state of the
connection and in a packet of any epoch, ends for `picoquic_skip_frame` where it ends for the
decoder: what follows is the same, and so is the number of bytes. -/
theorem skip_agrees_with_decode {φ σ : Type} (calls : FrameCalls φ σ) (epoch : PacketEpoch)
    (currentTime : ℕ) (c c' : DecodeCnx φ σ) (bytes rest : List UInt8)
    (h : DecodeCnx.decodeFrame calls epoch currentTime c bytes = .ok (c', rest)) :
    (skipFrame bytes).1 = some rest ∧ skipFrameConsumed bytes = bytes.length - rest.length ∧
      rest = bytes.drop (skipFrameConsumed bytes) := by
  have hskip := DecodeCnx.skipFrame_of_decodeFrame h
  have hconsumed : skipFrameConsumed bytes = bytes.length - rest.length := by
    rw [skipFrameConsumed, hskip]
  refine ⟨hskip, hconsumed, ?_⟩
  rw [hconsumed]
  exact trims_skipFrame.eq_drop hskip

/-- Calls that accept everything and change nothing. -/
def acceptingCalls : FrameCalls Unit Unit where
  streamNetworkInput := fun c _ _ _ _ => .ok c
  ackEffects := fun c _ => c
  streamReset := fun c _ _ _ => .ok c
  stopSending := fun c _ _ => .ok c
  maxStreamData := fun c _ _ => c
  addOutputStreams := fun c _ _ _ => c
  stashCnxid := fun c _ => .ok c
  retireLocalCnxid := fun c _ => .ok c
  pathChallenge := fun c _ => c
  pathResponse := fun c _ => c
  queueNetworkInput := fun c _ _ _ => .ok c
  storeToken := fun c _ => c
  readyStateTransition := fun c => c
  closed := fun c => c
  datagram := fun c _ => .ok c
  abandonPath := fun c _ _ => c
  seedBdp := fun c _ => c

/-- A client whose handshake is complete. -/
def readyClient : DecodeCnx Unit Unit where
  ack := sampleAckCnx
  clientMode := true
  readyOrder := .gt
  remoteError := 0
  remoteApplicationError := 0
  maxdataRemote := 65535
  sentBlockedFrame := true
  maxStreamIdBidirRemote := 0
  maxStreamIdUnidirRemote := 0
  streamBlockedBidirSent := false
  streamBlockedUnidirSent := false
  localMaxDatagramFrameSize := 0
  localMinAckDelay := 0
  localEnableBdpFrame := false
  isAckFrequencyNegotiated := false
  ackFrequencySequenceRemote := 0
  ackGapRemote := 0
  ackDelayRemote := 0
  ackIgnoreOrderRemote := false
  maxAckGapRemote := 0
  maxAckDelayRemote := 0
  minAckDelayRemote := 0
  isTimeStampEnabled := false
  lastTimeStampReceived := 0
  isMultipathEnabled := false
  isSimpleMultipathEnabled := false
  sendReceiveBdpFrame := false
  signalled := []
  other := ()

/-- A MAX_DATA frame with a limit of 70000 bytes, in front of a PING frame. -/
def maxDataAndPing : List UInt8 := [0x10, 0x80, 0x01, 0x11, 0x70, 0x01]

theorem skip_agrees_with_decode_max_data :
    (skipFrame maxDataAndPing).1 = some [0x01] ∧
      skipFrameConsumed maxDataAndPing = maxDataAndPing.length - 1 ∧
      [0x01] = maxDataAndPing.drop (skipFrameConsumed maxDataAndPing) :=
  skip_agrees_with_decode acceptingCalls .oneRtt 0 readyClient
    { readyClient with maxdataRemote := 70000, sentBlockedFrame := false } maxDataAndPing [0x01] rfl

end Picoquic
