import Picoquic.Path.Mtu

/-!
# Limits of path MTU discovery

What a path sends or tries stays within the limits of the peer, of the configuration and of the
packet buffer, and a probe is longer than `send_mtu` and shorter than what failed.

The code keeps this on a condition. A path starts with an MTU of 1440 bytes whatever the limits
are, so they must leave that much room. Where `mtu_max` is below the peer's limit it is applied in
place of the size of the packet buffer, so one of the two buffers must be small enough.

* **`MtuPath.Safe`** — the condition on an event;
* **`Bounded`** — everything that was sent or tried is within a limit, and `Bounded.step`;
* **`Searching`** — what the variables remember of the probes that failed;
* **`ProbeFits`** — a probe as it should be.
-/

namespace Picoquic

/-! ### The limits -/

/-- What a limit of `0` stands for is no limit but that of the packet buffer. -/
def limitOr (limit : ℕ) : ℕ := if limit = 0 then maxPacketSize else limit

/-- The limit of the configuration. -/
def MtuSetting.configured (c : MtuSetting) : ℕ :=
  if c.mtuMax = 0 then maxPacketSize else c.mtuMax - c.peerFamily.mtuOverhead

/-- The configuration leaves room for the MTU of a new path. -/
def MtuSetting.Roomy (c : MtuSetting) : Prop :=
  c.mtuMax = 0 ∨ 1440 + c.peerFamily.mtuOverhead ≤ c.mtuMax

instance (c : MtuSetting) : Decidable c.Roomy := inferInstanceAs (Decidable (_ ∨ _))

theorem AddressFamily.le_initialMtu (f : AddressFamily) :
    1232 ≤ f.initialMtu ∧ f.initialMtu ≤ 1252 := by
  cases f <;> decide

theorem MtuSetting.Roomy.mtuLimit_eq {c : MtuSetting} (h : c.Roomy) (hmax : 0 < c.mtuMax) :
    c.mtuLimit = c.mtuMax - c.peerFamily.mtuOverhead := by
  have hlt := c.mtuMax_lt
  have hroom : 1440 + c.peerFamily.mtuOverhead ≤ c.mtuMax := h.resolve_left hmax.ne'
  unfold mtuLimit
  omega

/-- The MTU, and what was tried, are at most `b` bytes. -/
def PathMtu.Within (m : PathMtu) (b : ℕ) : Prop := m.sendMtu ≤ b ∧ m.sendMtuMaxTried ≤ b

variable {p : MtuPacket}

section Within

variable {b : ℕ} {m : PathMtu}

theorem PathMtu.Within.recordAck (h : m.Within b) {size : ℕ} (hsize : size ≤ b) :
    (m.recordAck size).Within b := by
  unfold PathMtu.recordAck
  split_ifs
  exacts [h, ⟨hsize, h.2⟩, h]

theorem PathMtu.Within.recordSpurious (h : m.Within b) {size : ℕ} (hsize : size ≤ b) :
    (m.recordSpurious size).Within b := by
  unfold PathMtu.recordSpurious
  split_ifs
  exacts [⟨hsize, max_le h.2 hsize⟩, h]

theorem PathMtu.Within.copyBeforeRetransmit (h : m.Within b) (hp : p.size ≤ b) (forceQueue : Bool) :
    (m.copyBeforeRetransmit p forceQueue).Within b := by
  unfold PathMtu.copyBeforeRetransmit
  split_ifs
  exacts [⟨h.1, h.2⟩, ⟨h.1, hp⟩, h]

theorem PathMtu.Within.countLoss (h : m.Within b) (hreset : 1252 ≤ b)
    (c : MtuSetting) (size : ℕ) : (m.countLoss c size).Within b := by
  unfold PathMtu.countLoss PathMtu.resetPathMtu
  dsimp only
  split_ifs
  exacts [⟨c.peerFamily.le_initialMtu.2.trans hreset, Nat.zero_le b⟩, h, h]

end Within

namespace MtuPath

/-- The largest length that all limits allow. -/
def limit (c : MtuSetting) (s : MtuPath) : ℕ :=
  min maxPacketSize (min (limitOr s.remoteMaxPacketSize) c.configured)

/-- Until the handshake is over no probe is sent, and the MTU of a new path is the limit. -/
def limitNow (c : MtuSetting) (s : MtuPath) : ℕ := if s.isReady then s.limit c else 1440

/-- **The lengths of a path**: everything that was sent or tried is at most `m` bytes long. -/
structure Bounded (m : ℕ) (s : MtuPath) : Prop where
  mtu : s.mtu.Within m
  sendBufferMinMax_le : s.sendBufferMinMax ≤ m
  inFlight_le : ∀ p ∈ s.inFlight, p.size ≤ m
  lost_le : ∀ p ∈ s.lost, p.size ≤ m

/-- What the variables remember of the search. -/
structure Searching (s : MtuPath) : Prop where
  sendMtu_ge : 1232 ≤ s.mtu.sendMtu
  /-- Where the last failure is not remembered as it was, there is nothing left to try. -/
  lastFailed : ∀ l, s.lastFailed = some l →
    s.mtu.sendMtuMaxTried ≠ 0 ∧
      (s.mtu.sendMtuMaxTried ≤ l ∨ s.mtu.sendMtuMaxTried ≤ s.mtu.sendMtu)
  probe_pos : ∀ p ∈ s.inFlight, p.isMtuProbe = true → 0 < p.size

/-- What a run relies on. -/
def Safe (c : MtuSetting) (s : MtuPath) : MtuEvent → Prop
  | .receiveTransportParameters n => n = 0 ∨ 1440 ≤ n
  | .prepare sendBufferMax =>
    sendBufferMax ≤ maxPacketSize ∨ c.mtuMax ≤ maxPacketSize + c.peerFamily.mtuOverhead
  | .lose p packetIsPureAck =>
    s.Resets p packetIsPureAck → ∀ q ∈ s.inFlight, q.isMtuProbe = false
  | _ => True

instance (c : MtuSetting) (s : MtuPath) : ∀ e, Decidable (s.Safe c e)
  | .receiveTransportParameters _ => inferInstanceAs (Decidable (_ ∨ _))
  | .prepare _ => inferInstanceAs (Decidable (_ ∨ _))
  | .lose _ _ => inferInstanceAs (Decidable (_ → _))
  | .becomeReady | .send _ | .probe _ | .ack _ | .spurious _ | .requeue _ | .drop _ =>
    inferInstanceAs (Decidable True)

/-! ### The next length -/

section NextProbe

variable {c : MtuSetting} {s : MtuPath}

theorem nextProbe_lt (hfailed : 1400 < s.mtu.sendMtuMaxTried) :
    s.nextProbe c < s.mtu.sendMtuMaxTried ∧
      s.nextProbe c = if 1500 < s.mtu.sendMtuMaxTried then 1500 else 1400 := by
  unfold nextProbe nextMtuProbeLength
  rw [if_neg (by omega)]
  split_ifs <;> omega

/-- As long as nothing failed, the next length respects the peer and the configuration, and the
size of the packet buffer unless the configuration comes first. -/
theorem nextProbe_le (hroomy : c.Roomy) (htried : s.mtu.sendMtuMaxTried = 0)
    (hlonger : s.mtu.sendMtu < s.nextProbe c) :
    s.nextProbe c ≤ max maxPacketSize c.configured ∧
      (0 < s.remoteMaxPacketSize → s.nextProbe c ≤ s.remoteMaxPacketSize) ∧
      (0 < c.mtuMax → s.nextProbe c ≤ c.configured) := by
  have hlimit := hroomy.mtuLimit_eq
  unfold nextProbe nextMtuProbeLength at hlonger ⊢
  unfold MtuSetting.configured practicalMaxMtu maxPacketSize at *
  rw [if_pos htried] at hlonger ⊢
  rcases Nat.eq_zero_or_pos c.mtuMax with hmax | hmax
  · simp only [hmax, lt_self_iff_false, false_and, if_false, if_true] at *
    split_ifs at * <;> omega
  · rw [hlimit hmax] at hlonger ⊢
    simp only [hmax, hmax.ne', true_and, if_true, if_false] at *
    split_ifs at * <;> omega

/-- What leads to a probe, apart from the policy. -/
theorem Probes.needed {o : ProbeChance} (h : s.Probes c o) :
    s.isReady = true ∧ s.mtu.mtuProbeSent = false ∧
      (s.mtu.sendMtuMaxTried = 0 ∨ 1400 < s.mtu.sendMtuMaxTried) ∧
      s.mtu.sendMtu < s.nextProbe c ∧ s.mtu.sendMtu < s.sendBufferMax := by
  obtain ⟨hneeded, hbuffer⟩ := h
  have hconditions : s.isReady = true ∧ s.mtu.mtuProbeSent = false ∧ o.pmtudPolicy ≠ .blocked ∧
      (s.mtu.sendMtuMaxTried = 0 ∨ 1400 < s.mtu.sendMtuMaxTried) ∧
      s.mtu.sendMtu < s.nextProbe c := by
    by_contra hnot
    exact hneeded (if_neg hnot)
  obtain ⟨hready, hsent, -, htried, hnext⟩ := hconditions
  exact ⟨hready, hsent, htried, hnext, hbuffer⟩

/-- The shape of a probe, when the packet holds the header and the checksum. -/
theorem probeSize_eq {o : ProbeChance} (hlong : 1232 ≤ min (s.nextProbe c) s.sendBufferMax)
    (hnext : s.nextProbe c < 2 ^ 33) :
    s.probeSize c o = min (s.nextProbe c) s.sendBufferMax ∧
      (s.mtuProbe c o).length + o.checksumOverhead = s.probeSize c o ∧
      o.headerLength + 1 + (s.mtuProbe c o).paddingLength + o.checksumOverhead =
        s.probeSize c o := by
  have hchecksum := o.checksumOverhead_le
  have hheader : o.headerLength ≤ 25 := by
    have hcnxid := o.cnxidLength_le
    have hpn := o.pnLength_le
    unfold ProbeChance.headerLength
    omega
  have hlt : min (s.nextProbe c) s.sendBufferMax < 2 ^ 33 := (min_le_left _ _).trans_lt hnext
  have hlength : (s.mtuProbe c o).length =
      min (s.nextProbe c) s.sendBufferMax - o.checksumOverhead := by
    show sub64 (min (s.nextProbe c) s.sendBufferMax) o.checksumOverhead = _
    exact sub64_of_le (by omega) (by omega)
  have hpadding : (s.mtuProbe c o).paddingLength =
      min (s.nextProbe c) s.sendBufferMax - o.checksumOverhead - (o.headerLength + 1) := by
    show sub64 (s.mtuProbe c o).length (o.headerLength + 1) = _
    rw [hlength]
    exact sub64_of_le (by omega) (by omega)
  have hsize : s.probeSize c o = min (s.nextProbe c) s.sendBufferMax := by
    unfold probeSize
    rw [hlength, u64_of_lt (by omega)]
    omega
  refine ⟨hsize, ?_, ?_⟩ <;> omega

/-- **A probe that is as it should be**: longer than `send_mtu`, shorter than the last length that
failed, and within the packet with its header, padding and checksum. -/
structure ProbeFits (c : MtuSetting) (s : MtuPath) (o : ProbeChance) : Prop where
  longer : s.mtu.sendMtu < s.probeSize c o
  shorter : ∀ l, s.lastFailed = some l → s.probeSize c o < l
  fits : s.probeSize c o ≤ maxPacketSize ∧ s.probeSize c o ≤ s.sendBufferMax
  whole : (s.mtuProbe c o).length + o.checksumOverhead = s.probeSize c o ∧
    o.headerLength + 1 + (s.mtuProbe c o).paddingLength + o.checksumOverhead = s.probeSize c o

end NextProbe

/-! ### The lengths -/

section Lengths

variable {b : ℕ} {c : MtuSetting} {s : MtuPath}

theorem Bounded.mono {m n : ℕ} (h : s.Bounded m) (hmn : m ≤ n) : s.Bounded n where
  mtu := ⟨h.mtu.1.trans hmn, h.mtu.2.trans hmn⟩
  sendBufferMinMax_le := h.sendBufferMinMax_le.trans hmn
  inFlight_le p hp := (h.inFlight_le p hp).trans hmn
  lost_le p hp := (h.lost_le p hp).trans hmn

theorem Bounded.leave (h : s.Bounded b) {mtu : PathMtu} (hmtu : mtu.Within b) :
    Bounded b { s with mtu := mtu, inFlight := s.inFlight.erase p } where
  mtu := hmtu
  sendBufferMinMax_le := h.sendBufferMinMax_le
  inFlight_le q hq := h.inFlight_le q (List.mem_of_mem_erase hq)
  lost_le := h.lost_le

/-- A packet is sent. -/
theorem Bounded.sendPacket (h : s.Bounded b) {mtu : PathMtu} (hmtu : mtu.Within b)
    (hp : p.size ≤ b) : Bounded b { s with mtu := mtu, inFlight := p :: s.inFlight } where
  mtu := hmtu
  sendBufferMinMax_le := h.sendBufferMinMax_le
  inFlight_le q hq := by
    rcases List.mem_cons.mp hq with rfl | hq
    · exact hp
    · exact h.inFlight_le q hq
  lost_le := h.lost_le

theorem Bounded.lose (h : s.Bounded b) (hreset : 1252 ≤ b) (hp : p ∈ s.inFlight)
    (packetIsPureAck : Bool) : (s.lose c p packetIsPureAck).Bounded b := by
  have hsize := h.inFlight_le p hp
  have hcopy := h.mtu.copyBeforeRetransmit hsize false
  have hleft := h.leave hcopy (p := p)
  have hlost : ∀ q ∈ p :: s.lost, q.size ≤ b := by
    intro q hq
    rcases List.mem_cons.mp hq with rfl | hq
    · exact hsize
    · exact h.lost_le q hq
  unfold MtuPath.lose
  split_ifs
  · exact ⟨hcopy, hleft.2, hleft.3, hlost⟩
  · exact ⟨hcopy, hleft.2, hleft.3, hlost⟩
  · exact ⟨hcopy.countLoss hreset c p.size, hleft.2, hleft.3, hlost⟩
  · exact ⟨hcopy.countLoss hreset c p.size, hleft.2, hleft.3, hlost⟩

/-- **Lengths stay bounded**, if those of the probes and of the reset are. -/
theorem Bounded.step (h : s.Bounded b) (hreset : 1252 ≤ b) (e : MtuEvent)
    (hprobe : ∀ o, s.Probes c o → s.probeSize c o ≤ b) : (s.step c e).Bounded b := by
  rcases e with n | _ | n | size | o | p | p | ⟨p, packetIsPureAck⟩ | p | p
  · show (if _ then _ else _ : MtuPath).Bounded b
    split_ifs
    exacts [⟨h.1, h.2, h.3, h.4⟩, h]
  · exact ⟨h.1, h.2, h.3, h.4⟩
  · exact ⟨h.1, (min_le_right _ _).trans h.mtu.1, h.3, h.4⟩
  · show (if _ then _ else _ : MtuPath).Bounded b
    split_ifs with hsize
    exacts [h.sendPacket h.mtu (hsize.trans h.sendBufferMinMax_le), h]
  · show (if _ then _ else _ : MtuPath).Bounded b
    split_ifs with hgoes
    exacts [h.sendPacket h.mtu (hprobe o hgoes), h]
  · show (if _ then _ else _ : MtuPath).Bounded b
    split_ifs with hp
    exacts [h.leave (h.mtu.recordAck (h.inFlight_le p hp)), h]
  · show (if _ then _ else _ : MtuPath).Bounded b
    split_ifs with hp
    · exact ⟨h.mtu.recordSpurious (h.lost_le p hp), h.2, h.3,
        fun q hq => h.lost_le q (List.mem_of_mem_erase hq)⟩
    · exact h
  · show (if _ then _ else _ : MtuPath).Bounded b
    split_ifs with hp
    exacts [h.lose hreset hp packetIsPureAck, h]
  · show (if _ then _ else _ : MtuPath).Bounded b
    split_ifs with hp
    exacts [h.leave (h.mtu.copyBeforeRetransmit (h.inFlight_le p hp) true), h]
  · exact h.leave h.mtu

end Lengths

end MtuPath

end Picoquic
