import Picoquic.Stream.OutputStreams
import Picoquic.Transport.RoundTrip

/-!
# Numbers in the transport parameters

A parameter of the peer that carries a number is to be rejected exactly if the number is out of its
range, and otherwise the connection is to know the number. Numbers are narrowed, multiplied or
turned into identifiers of streams before they are checked, if they are checked at all.

* **`NumericParam.InRange`** — the numbers that the protocol allows;
* **`NumericParam.Denotes`** — what the connection is to know afterwards;
* **`validates_iff`** — the numbers that are treated as they should be.

Negotiating the idle timeout is right whenever the number that was stored is: see
`idleTimeout_negotiateIdleTimeout`.
-/

namespace Picoquic

/-! ### The parameters -/

/-- The parameters that carry a number with a range. -/
inductive NumericParam
  | maxAckDelay
  | ackDelayExponent
  /-- `initial_max_streams_bidi` and `initial_max_streams_uni`. -/
  | initialMaxStreams (isBidir : Bool)
  | idleTimeout
  | activeConnectionIdLimit

namespace NumericParam

/-- The type of the parameter. -/
def tpType : NumericParam → ℕ
  | maxAckDelay => tpMaxAckDelay
  | ackDelayExponent => tpAckDelayExponent
  | initialMaxStreams true => tpInitialMaxStreamsBidi
  | initialMaxStreams false => tpInitialMaxStreamsUni
  | idleTimeout => tpIdleTimeout
  | activeConnectionIdLimit => tpActiveConnectionIdLimit

/-- The range of the protocol. -/
def InRange : NumericParam → ℕ → Prop
  | maxAckDelay, v => v < 2 ^ 14
  | ackDelayExponent, v => v ≤ 20
  | initialMaxStreams _, v => v ≤ 2 ^ 60
  | idleTimeout, _ => True
  | activeConnectionIdLimit, _ => True

end NumericParam

/-- The smaller of two timeouts, where `0` is none. -/
def smallerTimeout (l r : ℕ) : ℕ := if l = 0 then r else if r = 0 then l else min l r

/-- What is negotiated: no timeout is the largest one. -/
theorem TpCnx.idleTimeout_negotiateIdleTimeout (c : TpCnx) :
    c.negotiateIdleTimeout.idleTimeout =
      if smallerTimeout c.localParameters.idleTimeout c.remoteParameters.idleTimeout = 0 then
        2 ^ 64 - 1
      else
        smallerTimeout c.localParameters.idleTimeout c.remoteParameters.idleTimeout * 1000 := by
  have hsmaller : (if c.localParameters.idleTimeout = 0 ∨ (0 < c.remoteParameters.idleTimeout ∧
      c.remoteParameters.idleTimeout < c.localParameters.idleTimeout) then
        c.remoteParameters.idleTimeout * 1000
      else c.localParameters.idleTimeout * 1000) =
      smallerTimeout c.localParameters.idleTimeout c.remoteParameters.idleTimeout * 1000 := by
    rw [smallerTimeout]
    split_ifs <;> omega
  simp only [negotiateIdleTimeout, hsmaller]
  split_ifs <;> first | rfl | omega

namespace NumericParam

/-- The connection knows the number `v`: a delay in microseconds, a limit that allows `v` streams.
A number that is not limited by the protocol may be replaced by the largest one of its type; the
timeout that is negotiated is the smaller one. -/
def Denotes (extensionMode : Bool) (c : TpCnx) (v : ℕ) : NumericParam → Prop
  | maxAckDelay => c.remoteParameters.maxAckDelay = v * 1000
  | ackDelayExponent => c.remoteParameters.ackDelayExponent = v
  | initialMaxStreams isBidir =>
    streamsAllowed extensionMode isBidir
      (if isBidir then c.maxStreamIdBidirRemote else c.maxStreamIdUnidirRemote) = v
  | idleTimeout =>
    c.remoteParameters.idleTimeout = min v (2 ^ 32 - 1) ∧
      c.negotiateIdleTimeout.idleTimeout =
        if smallerTimeout c.localParameters.idleTimeout (min v (2 ^ 32 - 1)) = 0 then 2 ^ 64 - 1
        else smallerTimeout c.localParameters.idleTimeout (min v (2 ^ 32 - 1)) * 1000
  | activeConnectionIdLimit =>
    c.remoteParameters.activeConnectionIdLimit = min v (2 ^ 32 - 1)

/-- What receiving a parameter with the number `v` is to do. -/
structure Validates (p : NumericParam) (extensionMode : Bool) (v : ℕ)
    (r : Except TpError TpReceive) : Prop where
  rejected_iff : (∃ e, r = .error e) ↔ ¬ p.InRange v
  denotes : ∀ s, r = .ok s → p.Denotes extensionMode s.cnx v

/-- The numbers that are treated so. -/
def Sound (extensionMode : Bool) (v : ℕ) : NumericParam → Prop
  | maxAckDelay => v < 2 ^ 14 ∨ 2 ^ 14 * 1000 < v * 1000 % 2 ^ 32
  | ackDelayExponent => v ≤ 20
  | initialMaxStreams isBidir =>
    1 ≤ v ∧ v ≤ 2 ^ 60 ∧ ¬ (v = 2 ^ 30 ∧ extensionMode = false ∧ isBidir = false)
  | idleTimeout => v < 2 ^ 32 ∨ v % 2 ^ 32 = 2 ^ 32 - 1
  | activeConnectionIdLimit => v < 2 ^ 32 ∨ v % 2 ^ 32 = 2 ^ 32 - 1

/-! ### What is received -/

variable {extensionMode : Bool} {s : TpReceive} {v : ℕ}

theorem validates_ok {p : NumericParam} :
    p.Validates extensionMode v (.ok s) ↔ p.InRange v ∧ p.Denotes extensionMode s.cnx v := by
  constructor
  · intro h
    refine ⟨Classical.byContradiction fun hout => ?_, h.denotes s rfl⟩
    obtain ⟨e, he⟩ := h.rejected_iff.mpr hout
    exact absurd he (by simp)
  · rintro ⟨hin, hdenotes⟩
    exact ⟨iff_of_false (by simp) (not_not.mpr hin), fun s' hs' => Except.ok.inj hs' ▸ hdenotes⟩

theorem validates_error {p : NumericParam} {e : TpError} :
    p.Validates extensionMode v (.error e) ↔ ¬ p.InRange v :=
  ⟨fun h => h.rejected_iff.mp ⟨e, rfl⟩, fun h => ⟨iff_of_true ⟨e, rfl⟩ h, by simp⟩⟩

theorem mod_eq_saturated_iff :
    v % 2 ^ 32 = min v (2 ^ 32 - 1) ↔ v < 2 ^ 32 ∨ v % 2 ^ 32 = 2 ^ 32 - 1 := by
  omega

/-- The limit of the streams, with its special values. -/
theorem streamsAllowed_decode_iff (hv : v < 2 ^ 62) (isBidir : Bool) :
    v ≤ 2 ^ 60 ∧ streamsAllowed extensionMode isBidir
        (if decodeTransportParamStreamId v extensionMode
            (if isBidir then streamIdBidir else streamIdUnidir) = 0xFFFFFFFF then 0
          else decodeTransportParamStreamId v extensionMode
            (if isBidir then streamIdBidir else streamIdUnidir)) = v ↔
      (initialMaxStreams isBidir).Sound extensionMode v := by
  have htype : (if isBidir then streamIdBidir else streamIdUnidir) + (!extensionMode).toNat =
      localStreamType extensionMode isBidir := by
    cases isBidir <;> rfl
  have hlt := localStreamType_lt extensionMode isBidir
  have hthree : localStreamType extensionMode isBidir = 3 ↔
      extensionMode = false ∧ isBidir = false := by
    cases extensionMode <;> cases isBidir <;> decide
  rw [Sound, decodeTransportParamStreamId, htype, streamsAllowed, ← hthree]
  rcases Nat.eq_zero_or_pos v with rfl | hpos
  · rw [if_neg (Nat.lt_irrefl 0), if_neg (by omega)]
    omega
  · rw [if_pos hpos, u64_of_lt (by omega)]
    split_ifs <;> omega

/-- **The numbers of the transport parameters.** For every parameter, every number that the peer can
send, and every state in which the parameter was not there before. -/
theorem validates_iff (p : NumericParam) (extensionMode : Bool) {s : TpReceive} {value : List UInt8}
    {v : ℕ} (hvalue : framesVarintDecode value = some (v, [])) (hnew : p.tpType ∉ s.present) :
    p.Validates extensionMode v (s.receiveParam extensionMode p.tpType value) ↔
      p.Sound extensionMode v := by
  have hread : ∀ use : ℕ → Except TpError Tp, tpVarint value use = use v := by
    intro use
    rw [tpVarint, hvalue]
  have hv := framesVarintDecode_lt hvalue
  -- the parameter is not repeated
  have honce : ¬ (p.tpType < 64 ∧ p.tpType ∈ s.present ∧ p.tpType ∉ TpReceive.cidTypes) :=
    fun h => hnew h.2.1
  rw [TpReceive.receiveParam, if_neg honce]
  cases p with
  | maxAckDelay =>
    have hset : ∀ r, setTransportParam extensionMode r tpMaxAckDelay value =
        if 2 ^ 14 * 1000 < v % 2 ^ 32 * 1000 % 2 ^ 32 then
          .error (parameterError "Max ack delay TP")
        else .ok { r with maxAckDelay := v % 2 ^ 32 * 1000 % 2 ^ 32 } :=
      fun r => hread _
    have hmod : v % 2 ^ 32 * 1000 % 2 ^ 32 = v * 1000 % 2 ^ 32 := Nat.mod_mul_mod v 1000 _
    rw [tpType, hset, hmod, Sound]
    have hsmall : v < 2 ^ 14 → v * 1000 % 2 ^ 32 = v * 1000 := fun h => Nat.mod_eq_of_lt (by omega)
    by_cases hreject : 2 ^ 14 * 1000 < v * 1000 % 2 ^ 32
    · rw [if_pos hreject]
      refine validates_error.trans (iff_of_true (fun h : v < 2 ^ 14 => ?_) (.inr hreject))
      rw [hsmall h] at hreject
      omega
    · rw [if_neg hreject]
      refine validates_ok.trans ⟨fun h => .inl h.1, fun h => ?_⟩
      have hv := h.resolve_right hreject
      exact ⟨hv, hsmall hv⟩
  | ackDelayExponent =>
    have hset : ∀ r, setTransportParam extensionMode r tpAckDelayExponent value =
        .ok { r with ackDelayExponent := v % 2 ^ 8 } := fun r => hread _
    rw [tpType, hset]
    refine validates_ok.trans ?_
    show v ≤ 20 ∧ v % 2 ^ 8 = v ↔ v ≤ 20
    omega
  | initialMaxStreams isBidir =>
    rw [← streamsAllowed_decode_iff hv isBidir]
    cases isBidir with
    | true =>
      have hset : ∀ r, setTransportParam extensionMode r tpInitialMaxStreamsBidi value =
          .ok { r with
            initialMaxStreamIdBidir :=
              decodeTransportParamStreamId v extensionMode streamIdBidir } :=
        fun r => hread _
      rw [tpType, hset]
      exact validates_ok
    | false =>
      have hset : ∀ r, setTransportParam extensionMode r tpInitialMaxStreamsUni value =
          .ok { r with
            initialMaxStreamIdUnidir :=
              decodeTransportParamStreamId v extensionMode streamIdUnidir } :=
        fun r => hread _
      rw [tpType, hset]
      exact validates_ok
  | idleTimeout =>
    have hset : ∀ r, setTransportParam extensionMode r tpIdleTimeout value =
        .ok { r with idleTimeout := v % 2 ^ 32 } := fun r => hread _
    rw [tpType, hset]
    refine validates_ok.trans ?_
    rw [Sound, ← mod_eq_saturated_iff]
    refine ⟨fun h => h.2.1, fun h => ⟨trivial, h, ?_⟩⟩
    rw [TpCnx.idleTimeout_negotiateIdleTimeout, ← h]
  | activeConnectionIdLimit =>
    have hset : ∀ r, setTransportParam extensionMode r tpActiveConnectionIdLimit value =
        .ok { r with activeConnectionIdLimit := v % 2 ^ 32 } := fun r => hread _
    rw [tpType, hset]
    refine validates_ok.trans ?_
    rw [Sound, ← mod_eq_saturated_iff]
    exact ⟨fun h => h.2, fun h => ⟨trivial, h⟩⟩

/-- A server that has received no parameter. -/
def awaitingParams : TpReceive := startReceive (handshakeCnx false (initTransportParameters false))

/-- A delay of 25 milliseconds. -/
theorem validates_maxAckDelay_25 :
    maxAckDelay.Validates false 25 (awaitingParams.receiveParam false tpMaxAckDelay [25]) :=
  (validates_iff maxAckDelay false (by decide) (by decide)).mpr (.inl (by decide))

/-- The exponent `21` is accepted, no stream at all allows all streams, and a timeout of `2 ^ 32`
milliseconds is none. -/
theorem numbers_escape :
    ¬ ackDelayExponent.Validates false 21
        (awaitingParams.receiveParam false tpAckDelayExponent [21]) ∧
      ¬ (initialMaxStreams true).Validates false 0
        (awaitingParams.receiveParam false tpInitialMaxStreamsBidi [0]) ∧
      ¬ idleTimeout.Validates false (2 ^ 32)
        (awaitingParams.receiveParam false tpIdleTimeout [0xC0, 0, 0, 1, 0, 0, 0, 0]) := by
  refine ⟨fun h => ?_, fun h => ?_, fun h => ?_⟩
  · obtain ⟨e, he⟩ := h.rejected_iff.mpr (by show ¬ 21 ≤ 20; decide)
    cases he
  · have hlimit : streamsAllowed false true (2 ^ 64 - 1) = 0 := h.denotes _ rfl
    exact absurd hlimit (by decide)
  · have hstored : 0 = min (2 ^ 32) (2 ^ 32 - 1) := (h.denotes _ rfl).1
    exact absurd hstored (by decide)

end NumericParam

end Picoquic
