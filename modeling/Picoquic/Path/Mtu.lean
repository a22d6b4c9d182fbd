import Picoquic.Ack.Decode
import Picoquic.ForMathlib.Runs

/-!
# Path MTU discovery

A path sends packets of at most `send_mtu` bytes. To find out whether longer ones get through it
sends one *probe* at a time, a padded `PING`. The next length to try follows from the limits of the
peer and of the configuration while nothing has failed, and from the last length that failed after
that. The acknowledgement of any packet longer than `send_mtu` raises it; the loss of a probe is
remembered; after many losses of packets of exactly `send_mtu` bytes the search starts over.

* **`nextMtuProbeLength`**, **`isMtuProbeNeeded`**, **`prepareMtuProbe`** — the sender's side;
* **`PathMtu.recordAck`**, **`PathMtu.recordSpurious`** — the receiver's side;
* **`PathX.mtu_recordAck`**, **`PathX.mtu_recordSpurious`** — it is the one of `Ack.Decode`, seen
  through the MTU variables;
* **`PathMtu.copyBeforeRetransmit`**, **`PathMtu.countLoss`** — the loss of a packet;
* **`MtuPath.step`** — a path with the packets that were sent on it, event by event.

Lengths are those on the wire, with the checksum.
-/

namespace Picoquic

/-- `ss_family` of the address of the peer. -/
inductive AddressFamily
  | unspecified
  | inet
  | inet6
  deriving DecidableEq

/-- `PICOQUIC_MTU_OVERHEAD`. -/
def AddressFamily.mtuOverhead : AddressFamily → ℕ
  | .inet6 => 48
  | _ => 28

/-- `PICOQUIC_INITIAL_MTU_IPV4` and `PICOQUIC_INITIAL_MTU_IPV6`. -/
def AddressFamily.initialMtu : AddressFamily → ℕ
  | .inet6 => 1232
  | _ => 1252

/-- `PICOQUIC_PRACTICAL_MAX_MTU`. -/
def practicalMaxMtu : ℕ := 1440

/-- `PICOQUIC_MTU_LOSS_THRESHOLD`. -/
def mtuLossThreshold : ℕ := 10

/-- What does not change on a path: `quic->mtu_max`, where `0` is not set, and the family of the
peer's address. -/
structure MtuSetting where
  mtuMax : ℕ
  peerFamily : AddressFamily
  /-- `mtu_max` is a `uint32_t`. -/
  mtuMax_lt : mtuMax < 2 ^ 32

/-- `mtu_max - PICOQUIC_MTU_OVERHEAD(peer_addr)`, in 32 bits. -/
def MtuSetting.mtuLimit (c : MtuSetting) : ℕ :=
  (c.mtuMax + 2 ^ 32 - c.peerFamily.mtuOverhead) % 2 ^ 32

/-- The variables of a path that MTU discovery works with. -/
structure PathMtu where
  sendMtu : ℕ
  sendMtuMaxTried : ℕ
  nbMtuLosses : ℕ
  mtuProbeSent : Bool
  deriving DecidableEq

/-- The MTU variables of a path. -/
def PathX.mtu (path : PathX) : PathMtu :=
  ⟨path.sendMtu, path.sendMtuMaxTried, path.nbMtuLosses, path.mtuProbeSent⟩

/-- The MTU in `picoquic_create_path`: it is set by the family of the address, and then to 1440 in
every case. -/
def MtuSetting.createPath (c : MtuSetting) : PathMtu :=
  let path : PathMtu := ⟨c.peerFamily.initialMtu, 0, 0, false⟩
  { path with sendMtu := 1440 }

/-- `picoquic_reset_path_mtu`. The count of losses stays. -/
def PathMtu.resetPathMtu (m : PathMtu) (c : MtuSetting) : PathMtu :=
  { m with sendMtu := c.peerFamily.initialMtu, sendMtuMaxTried := 0, mtuProbeSent := false }

/-! ### The probe -/

/-- `picoquic_next_mtu_probe_length`. A `max_packet_size` of `0` is one that the peer did not
send. -/
def nextMtuProbeLength (c : MtuSetting) (m : PathMtu) (remoteMaxPacketSize : ℕ) : ℕ :=
  if m.sendMtuMaxTried = 0 then
    if 0 < remoteMaxPacketSize then
      -- the comparison is unsigned, and only one of the two bounds is applied
      let probeLength :=
        if 0 < c.mtuMax ∧ c.mtuLimit < remoteMaxPacketSize then c.mtuLimit
        else if maxPacketSize < remoteMaxPacketSize then maxPacketSize
        else remoteMaxPacketSize
      if probeLength < m.sendMtu then m.sendMtu else probeLength
    else if 0 < c.mtuMax then c.mtuLimit
    else practicalMaxMtu
  else if 1500 < m.sendMtuMaxTried then 1500
  else if 1400 < m.sendMtuMaxTried then 1400
  else (m.sendMtu + m.sendMtuMaxTried) / 2

/-- `picoquic_pmtud_policy_enum`. -/
inductive PmtudPolicy
  | basic
  | required
  | delayed
  | blocked
  deriving DecidableEq, Repr

/-- `picoquic_pmtu_discovery_status_enum`. -/
inductive PmtuDiscoveryStatus
  | notNeeded
  | optional
  | required
  deriving DecidableEq, Repr

/-- `picoquic_is_mtu_probe_needed`, where `isReady` says that the connection is in one of the three
states with 1-RTT keys. -/
def isMtuProbeNeeded (c : MtuSetting) (m : PathMtu) (remoteMaxPacketSize : ℕ) (isReady : Bool)
    (pmtudPolicy : PmtudPolicy) (nbBytesQueued : ℕ) : PmtuDiscoveryStatus :=
  let nextProbe := nextMtuProbeLength c m remoteMaxPacketSize
  if isReady = true ∧ m.mtuProbeSent = false ∧ pmtudPolicy ≠ .blocked ∧
      (m.sendMtuMaxTried = 0 ∨ 1400 < m.sendMtuMaxTried) ∧ m.sendMtu < nextProbe then
    if pmtudPolicy = .required then .required
    else
      let delta := u64 ((nbBytesQueued / m.sendMtu - nbBytesQueued / nextProbe) * 60)
      if nextProbe < delta then .required
      else if pmtudPolicy = .basic then .optional
      else .notNeeded
  else .notNeeded

/-- What `picoquic_prepare_mtu_probe` makes: the length without the checksum, and the number of
zero bytes after the `PING`. -/
structure MtuProbe where
  length : ℕ
  paddingLength : ℕ

/-- `picoquic_prepare_mtu_probe`. The lengths are of type `size_t`, and differences wrap. -/
def prepareMtuProbe (c : MtuSetting) (m : PathMtu) (remoteMaxPacketSize headerLength checksumLength
    bytesMax : ℕ) : MtuProbe :=
  let probeLength := min (nextMtuProbeLength c m remoteMaxPacketSize) bytesMax
  { length := sub64 probeLength checksumLength
    paddingLength := sub64 (sub64 probeLength checksumLength) (headerLength + 1) }

/-! ### Acknowledgement and loss -/

/-- What MTU discovery knows of a packet. -/
structure MtuPacket where
  /-- `length + checksum_overhead`. -/
  size : ℕ
  isMtuProbe : Bool
  deriving DecidableEq, Repr

/-- The MTU variables after `picoquic_process_ack_range`. -/
def PathMtu.recordAck (m : PathMtu) (size : ℕ) : PathMtu :=
  if size = m.sendMtu then { m with nbMtuLosses := 0 }
  else if m.sendMtu < size then { m with sendMtu := size, mtuProbeSent := false }
  else m

/-- The MTU variables after `picoquic_check_spurious_retransmission`. -/
def PathMtu.recordSpurious (m : PathMtu) (size : ℕ) : PathMtu :=
  if m.sendMtu < size then
    { m with
      sendMtu := size
      sendMtuMaxTried := max m.sendMtuMaxTried size
      mtuProbeSent := false }
  else m

/-- The MTU variables after `picoquic_copy_before_retransmit`. -/
def PathMtu.copyBeforeRetransmit (m : PathMtu) (p : MtuPacket) (forceQueue : Bool) : PathMtu :=
  if p.isMtuProbe then
    { m with
      mtuProbeSent := false
      sendMtuMaxTried := if forceQueue then m.sendMtuMaxTried else p.size }
  else m

/-- The MTU variables after `picoquic_retransmit_needed_packet` counted the loss. -/
def PathMtu.countLoss (m : PathMtu) (c : MtuSetting) (size : ℕ) : PathMtu :=
  if size = m.sendMtu then
    let m := { m with nbMtuLosses := m.nbMtuLosses + 1 }
    if mtuLossThreshold < m.nbMtuLosses then m.resetPathMtu c else m
  else m

/-- An acknowledged packet changes the MTU variables of its path as `recordAck` says. -/
theorem PathX.mtu_recordAck {φ : Type} (path : PathX) (p : Packet φ) (currentTime : ℕ) :
    (path.recordAck p currentTime).mtu = path.mtu.recordAck (p.length + p.checksumOverhead) := by
  unfold recordAck trackAckedPacket PathMtu.recordAck
  -- the timer of the path is tracked or not, whatever the length of the packet
  rcases lt_trichotomy (p.length + p.checksumOverhead) path.sendMtu with h | h | h
  · have hle := h.not_gt
    rcases Decidable.em (path.pathPacketAckedNumber < p.pathPacketNumber) with htime | htime <;>
      simp [mtu, htime, hle, h.ne]
  · rcases Decidable.em (path.pathPacketAckedNumber < p.pathPacketNumber) with htime | htime <;>
      simp [mtu, htime, h]
  · rcases Decidable.em (path.pathPacketAckedNumber < p.pathPacketNumber) with htime | htime <;>
      simp [mtu, htime, h, h.ne']

/-- So does one that is acknowledged after it was declared lost, as `recordSpurious` says. -/
theorem PathX.mtu_recordSpurious {φ : Type} (path : PathX) (ctx : PacketContext φ) (p : Packet φ)
    (currentTime : ℕ) :
    (path.recordSpurious ctx p currentTime).mtu =
      path.mtu.recordSpurious (p.length + p.checksumOverhead) := by
  unfold recordSpurious trackAckedPacket PathMtu.recordSpurious
  rcases Decidable.em (path.pathPacketAckedNumber < p.pathPacketNumber) with htime | htime <;>
    rcases Decidable.em (path.sendMtu < p.length + p.checksumOverhead) with h | h <;>
    simp [mtu, htime, h]

/-! ### A path with its packets -/

/-- A path, the packets that were sent on it, and the search so far. -/
structure MtuPath where
  mtu : PathMtu
  /-- `remote_parameters.max_packet_size`. -/
  remoteMaxPacketSize : ℕ
  isReady : Bool
  /-- The buffer of the call that prepares a packet. -/
  sendBufferMax : ℕ
  /-- The part of it that a packet other than a probe may fill, fixed when the call starts. -/
  sendBufferMinMax : ℕ
  /-- The packets that are neither acknowledged nor lost. -/
  inFlight : List MtuPacket
  /-- The packets that were declared lost, and can still prove spurious. -/
  lost : List MtuPacket
  /-- The length of the last probe that was declared lost since the search started. -/
  lastFailed : Option ℕ
  /-- The number of probes that were declared lost since the search started. -/
  probesLost : ℕ
  deriving DecidableEq

/-- An occasion for a probe: the connection has nothing else to send. -/
structure ProbeChance where
  pmtudPolicy : PmtudPolicy
  nbBytesQueued : ℕ
  cnxidLength : ℕ
  pnLength : ℕ
  checksumOverhead : ℕ
  /-- `PICOQUIC_CONNECTION_ID_MAX_SIZE`. -/
  cnxidLength_le : cnxidLength ≤ 20
  pnLength_le : pnLength ≤ 4
  /-- The tag of an AEAD algorithm. -/
  checksumOverhead_le : checksumOverhead ≤ 16

/-- `picoquic_predict_packet_header_length` for a packet with a short header. -/
def ProbeChance.headerLength (o : ProbeChance) : ℕ := 1 + o.cnxidLength + o.pnLength

/-- What happens to a path. -/
inductive MtuEvent
  /-- The transport parameters arrive during the handshake; without a maximal packet size they
  leave it at `0`. -/
  | receiveTransportParameters (remoteMaxPacketSize : ℕ)
  /-- The handshake is over. -/
  | becomeReady
  /-- A call that prepares a packet starts, with a buffer of that size. -/
  | prepare (sendBufferMax : ℕ)
  /-- The call sends a packet that is not a probe. -/
  | send (size : ℕ)
  /-- The call has nothing to send but a probe. -/
  | probe (chance : ProbeChance)
  /-- A packet in flight is acknowledged. -/
  | ack (p : MtuPacket)
  /-- A lost packet is acknowledged. -/
  | spurious (p : MtuPacket)
  /-- A packet in flight is declared lost. -/
  | lose (p : MtuPacket) (packetIsPureAck : Bool)
  /-- A packet in flight is taken back, since its connection ID goes away. -/
  | requeue (p : MtuPacket)
  /-- A packet in flight is forgotten, with its number space. -/
  | drop (p : MtuPacket)

namespace MtuPath

/-- A new path. -/
def create (c : MtuSetting) : MtuPath := ⟨c.createPath, 0, false, 0, 0, [], [], none, 0⟩

/-- The length the next probe asks for. -/
def nextProbe (c : MtuSetting) (s : MtuPath) : ℕ := nextMtuProbeLength c s.mtu s.remoteMaxPacketSize

/-- The occasion leads to a probe, in `picoquic_prepare_packet_ready`. -/
def Probes (c : MtuSetting) (s : MtuPath) (o : ProbeChance) : Prop :=
  isMtuProbeNeeded c s.mtu s.remoteMaxPacketSize s.isReady o.pmtudPolicy o.nbBytesQueued
      ≠ .notNeeded ∧
    s.mtu.sendMtu < s.sendBufferMax

instance (c : MtuSetting) (s : MtuPath) (o : ProbeChance) : Decidable (s.Probes c o) :=
  inferInstanceAs (Decidable (_ ∧ _))

/-- The probe of the occasion. -/
def mtuProbe (c : MtuSetting) (s : MtuPath) (o : ProbeChance) : MtuProbe :=
  prepareMtuProbe c s.mtu s.remoteMaxPacketSize o.headerLength o.checksumOverhead s.sendBufferMax

/-- The probe on the wire. -/
def probeSize (c : MtuSetting) (s : MtuPath) (o : ProbeChance) : ℕ :=
  u64 ((s.mtuProbe c o).length + o.checksumOverhead)

/-- The loss of the packet is one too many, and the search starts over. -/
def Resets (s : MtuPath) (p : MtuPacket) (packetIsPureAck : Bool) : Prop :=
  p ∈ s.inFlight ∧ p.isMtuProbe = false ∧ packetIsPureAck = false ∧ p.size = s.mtu.sendMtu ∧
    mtuLossThreshold ≤ s.mtu.nbMtuLosses

instance (s : MtuPath) (p : MtuPacket) (packetIsPureAck : Bool) :
    Decidable (s.Resets p packetIsPureAck) :=
  inferInstanceAs (Decidable (_ ∧ _))

/-- `picoquic_retransmit_needed_packet` for a packet that is lost. A probe is never repeated, and
counts as a packet with acknowledgements only. -/
def lose (c : MtuSetting) (s : MtuPath) (p : MtuPacket) (packetIsPureAck : Bool) : MtuPath :=
  let s' :=
    { s with
      mtu := s.mtu.copyBeforeRetransmit p false
      inFlight := s.inFlight.erase p
      lost := p :: s.lost }
  if p.isMtuProbe then { s' with lastFailed := some p.size, probesLost := s.probesLost + 1 }
  else if packetIsPureAck then s'
  else
    { s' with
      mtu := s'.mtu.countLoss c p.size
      lastFailed := if s.Resets p packetIsPureAck then none else s.lastFailed
      probesLost := if s.Resets p packetIsPureAck then 0 else s.probesLost }

/-- One event. What cannot happen in a state leaves it alone. -/
def step (c : MtuSetting) (s : MtuPath) : MtuEvent → MtuPath
  | .receiveTransportParameters n =>
    -- the decoder takes lengths from 1200 to 65527 only
    if s.isReady = false ∧ (n = 0 ∨ 1200 ≤ n ∧ n ≤ 65527) then { s with remoteMaxPacketSize := n }
    else s
  | .becomeReady => { s with isReady := true }
  | .prepare sendBufferMax =>
    { s with
      sendBufferMax := sendBufferMax
      sendBufferMinMax := min sendBufferMax s.mtu.sendMtu }
  | .send size =>
    if size ≤ s.sendBufferMinMax then { s with inFlight := ⟨size, false⟩ :: s.inFlight } else s
  | .probe o =>
    if s.Probes c o then
      { s with
        mtu := { s.mtu with mtuProbeSent := true }
        inFlight := ⟨s.probeSize c o, true⟩ :: s.inFlight }
    else s
  | .ack p =>
    if p ∈ s.inFlight then
      { s with mtu := s.mtu.recordAck p.size, inFlight := s.inFlight.erase p }
    else s
  | .spurious p =>
    if p ∈ s.lost then { s with mtu := s.mtu.recordSpurious p.size, lost := s.lost.erase p } else s
  | .lose p packetIsPureAck => if p ∈ s.inFlight then s.lose c p packetIsPureAck else s
  | .requeue p =>
    if p ∈ s.inFlight then
      { s with mtu := s.mtu.copyBeforeRetransmit p true, inFlight := s.inFlight.erase p }
    else s
  | .drop p => { s with inFlight := s.inFlight.erase p }

end MtuPath

end Picoquic
