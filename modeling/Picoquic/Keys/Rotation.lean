import Picoquic.ForMathlib.Runs
import Picoquic.Packet.Sooner
import Picoquic.Sack.List

/-!
# Key rotation

The keys of the 1-RTT packets change when an endpoint starts a rotation, and when a packet that
the peer protected with the next keys arrives. An endpoint starts a rotation when the application
asks for it, or by itself when many packets were sent since the last one.

* `startKeyRotation` — the guard, the computation of the new keys and their use for sending;
* `insertHoleInSendSequenceIfNeeded` — numbers that are skipped to trap optimistic
  acknowledgements;
* `preparePacketReady` — the hole, the rotation that is due, and the packet;
* `removePacketProtection` — the choice of the keys for a received 1-RTT packet.

Every number space has a context; the one of the connection has index `0`, and with multipath
every connection identifier has its own. Beside the state of the code a connection carries what
its peer has acknowledged, how often the send keys have changed, how many packets were sent since,
and what keeps the numbers of the connection's space apart from the count of datagrams.
-/

namespace Picoquic

open Runs

/-- `picoquic_crypto_context_t`: which keys are present. -/
structure CryptoContext where
  aeadEncrypt : Bool
  aeadDecrypt : Bool

/-- `picoquic_packet_context_t`, the numbers. -/
structure SendContext where
  sendSequence : ℕ
  nextSequenceHole : ℕ

/-- `picoquic_ack_context_t`, the received numbers and the lowest one with the current keys. -/
structure ReceiveContext where
  sackList : SackList
  cryptoRotationSequence : ℕ

/-- A 1-RTT packet that was sent: its number space, its number, and how often the send keys had
changed before. -/
structure ProtectedPacket where
  space : ℕ
  sequence : ℕ
  keys : ℕ
deriving DecidableEq

/-- How far the derivation of the next keys gets. -/
inductive KeyDerivation
  | nothing
  | encryptOnly
  | both
deriving DecidableEq

/-- `picoquic_cnx_t`, the part that rotates keys. Of the state only `picoquic_state_ready` is told
apart. -/
structure KeyCnx where
  isReady : Bool
  isMultipathEnabled : Bool
  pktCtx : ℕ → SendContext
  ackCtx : ℕ → ReceiveContext
  nbPacketsSent : ℕ
  cryptoEpochLengthMax : ℕ
  cryptoEpochSequence : ℕ
  cryptoRotationTimeGuard : ℕ
  keyPhaseEnc : Bool
  keyPhaseDec : Bool
  cryptoContext : CryptoContext
  cryptoContextNew : CryptoContext
  cryptoContextOld : CryptoContext
  nbCryptoKeyRotations : ℕ
  /-- The packets in the datagram that is being prepared. -/
  packetsInDatagram : ℕ
  /-- Those of them that are in the first space. -/
  numbersInDatagram : ℕ
  /-- The numbers of the first space without a datagram of their own: those below the initial one,
  holes, and those of packets that follow another one in their datagram. -/
  extraNumbers : ℕ
  /-- The datagrams without a packet of the first space. -/
  otherDatagrams : ℕ
  sent : List ProtectedPacket
  acknowledged : List ProtectedPacket
  /-- How often the send keys have changed. -/
  sendKeys : ℕ
  /-- The packets since then. -/
  sinceRotation : ℕ
  /-- How far the count of datagrams was ahead of `crypto_epoch_sequence` then. -/
  lead : ℕ

namespace KeyCnx

/-- The context of a path: its connection identifier has one only with multipath. -/
def space (c : KeyCnx) (cid : ℕ) : ℕ := if c.isMultipathEnabled = true then cid + 1 else 0

/-! ### Keys -/

/-- `picoquic_compute_new_rotated_keys`, with whether it succeeds. -/
def computeNewRotatedKeys (c : KeyCnx) (keys : KeyDerivation) : KeyCnx × Bool :=
  if c.cryptoContextNew.aeadDecrypt = true ∨ c.cryptoContextNew.aeadEncrypt = true then
    -- the previous transition is not complete, or the keys are already computed
    (c, c.cryptoContextNew.aeadDecrypt && c.cryptoContextNew.aeadEncrypt)
  else
    match keys with
    | .nothing => (c, false)
    | .encryptOnly => ({ c with cryptoContextNew := ⟨true, false⟩ }, false)
    | .both => ({ c with cryptoContextNew := ⟨true, true⟩ }, true)

/-- `picoquic_apply_rotated_keys` for sending. -/
def applyRotatedEncrypt (c : KeyCnx) : KeyCnx :=
  { c with
    cryptoContext := { c.cryptoContext with aeadEncrypt := c.cryptoContextNew.aeadEncrypt }
    cryptoContextNew := { c.cryptoContextNew with aeadEncrypt := false }
    keyPhaseEnc := !c.keyPhaseEnc }

/-- `picoquic_apply_rotated_keys` for receiving. -/
def applyRotatedDecrypt (c : KeyCnx) : KeyCnx :=
  { c with
    cryptoContextOld := { c.cryptoContextOld with aeadDecrypt := c.cryptoContext.aeadDecrypt }
    cryptoContext := { c.cryptoContext with aeadDecrypt := c.cryptoContextNew.aeadDecrypt }
    cryptoContextNew := { c.cryptoContextNew with aeadDecrypt := false }
    keyPhaseDec := !c.keyPhaseDec }

/-- `nb_packets_sent`, once the datagram that is being prepared is sent. -/
def datagrams (c : KeyCnx) : ℕ := c.nbPacketsSent + min c.packetsInDatagram 1

/-- The send keys have changed: the history starts anew. -/
def recordRotation (c : KeyCnx) : KeyCnx :=
  { c with
    sendKeys := c.sendKeys + 1
    sinceRotation := 0
    lead := c.datagrams - c.cryptoEpochSequence }

/-- The test of `picoquic_start_key_rotation`. The list is the one of the received numbers. -/
def MayRotate (c : KeyCnx) : Prop :=
  c.isReady = true ∧ c.cryptoEpochSequence ≤ sackListLast (c.ackCtx 0).sackList

instance (c : KeyCnx) : Decidable c.MayRotate := inferInstanceAs (Decidable (_ ∧ _))

/-- `picoquic_start_key_rotation`, with whether it succeeds. -/
def startKeyRotation (c : KeyCnx) (keys : KeyDerivation) : KeyCnx × Bool :=
  if c.MayRotate then
    let r := c.computeNewRotatedKeys keys
    if r.2 = true then
      ({ r.1.applyRotatedEncrypt with
          cryptoContextOld := ⟨false, false⟩
          cryptoEpochSequence := (r.1.pktCtx 0).sendSequence }.recordRotation, true)
    else (r.1, false)
  else (c, false)

/-! ### Sending -/

/-- What `picoquic_prepare_packet_ready` is called with, and what it finds. -/
structure PrepareInput where
  /-- `path_x->p_remote_cnxid`. -/
  cid : ℕ
  currentTime : ℕ
  sequenceHolePseudoPeriod : ℕ
  holeRandom : ℕ
  /-- Whether the newest packet in the retransmission queue is a trap. -/
  newestIsAckTrap : Option Bool
  keys : KeyDerivation
  /-- Whether there is something to send. -/
  isSent : Bool

/-- Another state of a number space. -/
def setPktCtx (c : KeyCnx) (i : ℕ) (ctx : SendContext) : KeyCnx :=
  { c with pktCtx := Function.update c.pktCtx i ctx }

/-- `picoquic_insert_hole_in_send_sequence_if_needed`. -/
def insertHoleInSendSequenceIfNeeded (c : KeyCnx) (x : PrepareInput) : KeyCnx :=
  let i := c.space x.cid
  let ctx := c.pktCtx i
  if x.sequenceHolePseudoPeriod = 0 then
    c.setPktCtx i { ctx with nextSequenceHole := 2 ^ 64 - 1 }
  else if c.isReady = true ∧ x.newestIsAckTrap.isSome = true ∧
      (c.pktCtx 0).nextSequenceHole ≤ ctx.sendSequence then
    let hole := if ctx.nextSequenceHole ≠ 0 ∧ x.newestIsAckTrap = some false then 1 else 0
    let sequence := ctx.sendSequence + hole
    { c.setPktCtx i ⟨sequence, sequence + 3 + x.holeRandom % x.sequenceHolePseudoPeriod⟩ with
      extraNumbers := if i = 0 then c.extraNumbers + hole else c.extraNumbers }
  else c

/-- The first step of `picoquic_prepare_packet_ready`. -/
def checkHole (c : KeyCnx) (x : PrepareInput) : KeyCnx :=
  if (c.pktCtx (c.space x.cid)).nextSequenceHole ≤ (c.pktCtx (c.space x.cid)).sendSequence then
    c.insertHoleInSendSequenceIfNeeded x
  else c

/-- A rotation is due: the count of datagrams is compared with a packet number. -/
def RotationDue (c : KeyCnx) (currentTime : ℕ) : Prop :=
  c.cryptoEpochLengthMax < sub64 c.nbPacketsSent c.cryptoEpochSequence ∧
    c.cryptoRotationTimeGuard < currentTime

instance (c : KeyCnx) (currentTime : ℕ) : Decidable (c.RotationDue currentTime) :=
  inferInstanceAs (Decidable (_ ∧ _))

/-- The rotation that `picoquic_prepare_packet_ready` starts. -/
def rotateIfDue (c : KeyCnx) (x : PrepareInput) : KeyCnx :=
  if c.RotationDue x.currentTime then (c.startKeyRotation x.keys).1 else c

/-- A packet is in the datagram. -/
def addPacket (c : KeyCnx) : KeyCnx :=
  { c with packetsInDatagram := c.packetsInDatagram + 1, sinceRotation := c.sinceRotation + 1 }

/-- The next number of a space is taken. -/
def takeNumber (c : KeyCnx) (i : ℕ) : KeyCnx :=
  { c.setPktCtx i { c.pktCtx i with sendSequence := (c.pktCtx i).sendSequence + 1 } with
    numbersInDatagram := if i = 0 then c.numbersInDatagram + 1 else c.numbersInDatagram }

/-- `picoquic_finalize_and_protect_packet`. 0-RTT packets are protected with other keys, and what
is neither 0-RTT nor 1-RTT has other number spaces. -/
def finalizeAndProtectPacket (c : KeyCnx) (cid : ℕ) : PacketType → KeyCnx
  | .oneRttProtected =>
    let i := c.space cid
    { (c.takeNumber i).addPacket with
      sent := ⟨i, (c.pktCtx i).sendSequence, c.sendKeys⟩ :: c.sent }
  | .zeroRttProtected => (c.takeNumber 0).addPacket
  | .error | .versionNegotiation | .initial | .retry | .handshake => c.addPacket

/-- `picoquic_prepare_packet_ready`. -/
def preparePacketReady (c : KeyCnx) (x : PrepareInput) : KeyCnx :=
  let c' := (c.checkHole x).rotateIfDue x
  if x.isSent = true then c'.finalizeAndProtectPacket x.cid .oneRttProtected else c'

/-- The end of a datagram in `picoquic_prepare_packet_ex`. -/
def endDatagram (c : KeyCnx) : KeyCnx :=
  { c with
    nbPacketsSent := c.datagrams
    packetsInDatagram := 0
    numbersInDatagram := 0
    extraNumbers := c.extraNumbers + (c.numbersInDatagram - 1)
    otherDatagrams :=
      if c.numbersInDatagram = 0 then c.otherDatagrams + min c.packetsInDatagram 1
      else c.otherDatagrams }

/-! ### Receiving -/

/-- A received 1-RTT packet: what its header says, when it arrives, and whether the keys that are
tried decrypt it. -/
structure ReceivedPacket where
  cid : ℕ
  keyPhase : Bool
  pn64 : ℕ
  currentTime : ℕ
  retransmitTimer : ℕ
  keys : KeyDerivation
  decrypts : Bool

/-- A packet that was decrypted with the new keys completes a rotation, or makes one. -/
def acceptNewKeys (c : KeyCnx) (x : ReceivedPacket) : KeyCnx :=
  let i := c.space x.cid
  let c' := applyRotatedDecrypt
    { c with
      cryptoRotationTimeGuard := u64 (x.currentTime + x.retransmitTimer)
      ackCtx := fun j =>
        if j = i then { c.ackCtx j with cryptoRotationSequence := x.pn64 }
        else if c.isMultipathEnabled = true ∧ j ≠ 0 then
          { c.ackCtx j with cryptoRotationSequence := 2 ^ 64 - 1 }
        else c.ackCtx j
      nbCryptoKeyRotations := c.nbCryptoKeyRotations + 1 }
  if c.cryptoContextNew.aeadEncrypt = true then c'.applyRotatedEncrypt.recordRotation else c'

/-- The new keys, computed unless a part of them is there. -/
def prepareNewKeys (c : KeyCnx) (x : ReceivedPacket) : KeyCnx × Bool :=
  if c.cryptoContextNew.aeadDecrypt = false ∧ c.cryptoContextNew.aeadEncrypt = false then
    c.computeNewRotatedKeys x.keys
  else (c, true)

/-- `picoquic_remove_packet_protection` for a 1-RTT packet, the part that manages keys. -/
def removePacketProtection (c : KeyCnx) (x : ReceivedPacket) : KeyCnx :=
  let i := c.space x.cid
  let ctx := c.ackCtx i
  if x.keyPhase = c.keyPhaseDec then
    if x.decrypts = true ∧ x.pn64 < ctx.cryptoRotationSequence then
      { c with
        ackCtx := Function.update c.ackCtx i { ctx with cryptoRotationSequence := x.pn64 } }
    else c
  else if (ctx.cryptoRotationSequence = 2 ^ 64 - 1 ∧ x.currentTime ≤ c.cryptoRotationTimeGuard) ∨
      x.pn64 < ctx.cryptoRotationSequence then
    -- the packet claims to use the old keys
    c
  else
    let r := c.prepareNewKeys x
    if r.2 = true ∧ r.1.cryptoContextNew.aeadDecrypt = true ∧ x.decrypts = true then
      r.1.acceptNewKeys x
    else r.1

/-! ### Events -/

/-- What happens to a connection. -/
inductive Event
  /-- `picoquic_set_crypto_epoch_length`. -/
  | setCryptoEpochLength (cryptoEpochLengthMax : ℕ)
  /-- The transport parameters decide about multipath. -/
  | setMultipath (isEnabled : Bool)
  /-- `picoquic_ready_state_transition`. -/
  | readyTransition (confidentialityLimit : ℕ) (isSimpleMultipath : Bool)
  /-- The connection is closed. -/
  | leaveReady
  | preparePacketReady (x : PrepareInput)
  /-- A packet that is prepared in another state. -/
  | preparePacket (cid : ℕ) (ptype : PacketType)
  /-- The datagram is sent. -/
  | endDatagram
  /-- The application asks for a rotation. -/
  | startKeyRotation (keys : KeyDerivation)
  | removePacketProtection (x : ReceivedPacket)
  /-- `picoquic_record_pn_received`. -/
  | recordPnReceived (cid pn64 currentTime : ℕ)
  /-- `picoquic_process_ack_of_ack_range`. -/
  | processAckOfAckRange (cid startOfRange endOfRange : ℕ)
  /-- The peer acknowledges a packet. -/
  | acknowledge (p : ProtectedPacket)

/-- Another list of received numbers. -/
def setSackList (c : KeyCnx) (i : ℕ) (s : SackList) : KeyCnx :=
  { c with ackCtx := Function.update c.ackCtx i { c.ackCtx i with sackList := s } }

/-- `picoquic_ready_state_transition`. -/
def readyStateTransition (c : KeyCnx) (confidentialityLimit : ℕ) (isSimpleMultipath : Bool) :
    KeyCnx :=
  let c' : KeyCnx :=
    { c with
      isReady := true
      cryptoEpochLengthMax :=
        if c.cryptoEpochLengthMax = 0 then confidentialityLimit else c.cryptoEpochLengthMax }
  if isSimpleMultipath = true then
    c'.setSackList 0 { (c.ackCtx 0).sackList with horizonDelay := 1000000 }
  else c'

/-- One event. -/
def step (c : KeyCnx) : Event → KeyCnx
  | .setCryptoEpochLength n => { c with cryptoEpochLengthMax := if n = 0 then 2 ^ 22 else n }
  | .setMultipath isEnabled => { c with isMultipathEnabled := isEnabled }
  | .readyTransition confidentialityLimit isSimpleMultipath =>
    c.readyStateTransition confidentialityLimit isSimpleMultipath
  | .leaveReady => { c with isReady := false }
  | .preparePacketReady x => if c.isReady = true then c.preparePacketReady x else c
  | .preparePacket cid ptype =>
    if c.isReady = true then c else c.finalizeAndProtectPacket cid ptype
  | .endDatagram => c.endDatagram
  | .startKeyRotation keys => (c.startKeyRotation keys).1
  | .removePacketProtection x => c.removePacketProtection x
  | .recordPnReceived cid pn64 currentTime =>
    c.setSackList (c.space cid)
      (updateSackList (c.ackCtx (c.space cid)).sackList pn64 pn64 currentTime).1
  | .processAckOfAckRange cid startOfRange endOfRange =>
    c.setSackList (c.space cid)
      (processAckOfAckRange (c.ackCtx (c.space cid)).sackList startOfRange endOfRange)
  | .acknowledge p => if p ∈ c.sent then { c with acknowledged := p :: c.acknowledged } else c

/-- A new connection. `first` gives the initial number of each space, which may be random. -/
def init (first : ℕ → ℕ) (cryptoEpochLengthMax : ℕ) : KeyCnx where
  isReady := false
  isMultipathEnabled := false
  pktCtx := fun i => ⟨first i, 0⟩
  ackCtx := fun _ => ⟨sackListInit, 0⟩
  nbPacketsSent := 0
  cryptoEpochLengthMax := cryptoEpochLengthMax
  cryptoEpochSequence := 0
  cryptoRotationTimeGuard := 0
  keyPhaseEnc := false
  keyPhaseDec := false
  cryptoContext := ⟨true, true⟩
  cryptoContextNew := ⟨false, false⟩
  cryptoContextOld := ⟨false, false⟩
  nbCryptoKeyRotations := 0
  packetsInDatagram := 0
  numbersInDatagram := 0
  extraNumbers := first 0
  otherDatagrams := 0
  sent := []
  acknowledged := []
  sendKeys := 0
  sinceRotation := 0
  lead := 0

/-! ### Runs -/

/-- A run from a new connection. -/
def run (first : ℕ → ℕ) (cryptoEpochLengthMax : ℕ) (evs : List Event) : KeyCnx :=
  Runs.run step (init first cryptoEpochLengthMax) evs

/-- The state in which an event calls `picoquic_start_key_rotation`, and the keys it gets. -/
def request (c : KeyCnx) : Event → Option (KeyCnx × KeyDerivation)
  | .startKeyRotation keys => some (c, keys)
  | .preparePacketReady x =>
    if c.isReady = true ∧ (c.checkHole x).RotationDue x.currentTime then
      some (c.checkHole x, x.keys)
    else none
  | _ => none

end KeyCnx

end Picoquic
