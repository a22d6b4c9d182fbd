import Picoquic.Keys.Rotation

/-!
# The key phase of a received packet

A 1-RTT packet says in one bit which keys protect it. `picoquic_remove_packet_protection` takes the
current keys if the bit is that of the current phase; else it decides from the lowest packet number
that was received with the current keys, and from a time guard, between the old keys and the new
ones.

* `KeyCnx.keysTried` — the keys that are tried, if any;
* `Generations` — how often the secret of each key was rotated. The keys of one generation decrypt
  exactly the packets that were protected with them;
* `PhaseCnx` — a connection and its peer. The peer numbers its packets in each space upwards, and
  updates its keys only after a packet with the present ones was received; packets arrive in any
  order, any number of times, or never.
-/

namespace Picoquic

open Runs

/-- Which keys are tried on a packet. -/
inductive KeyUse
  | current
  | old
  | new

namespace KeyCnx

/-- The lowest number received with the current keys, for the identifier of a packet. -/
def rotationSequence (c : KeyCnx) (cid : ℕ) : ℕ := (c.ackCtx (c.space cid)).cryptoRotationSequence

/-- "This packet claims to be encoded with the old key". -/
def ClaimsOldKeys (c : KeyCnx) (x : ReceivedPacket) : Prop :=
  (c.rotationSequence x.cid = 2 ^ 64 - 1 ∧ x.currentTime ≤ c.cryptoRotationTimeGuard) ∨
    x.pn64 < c.rotationSequence x.cid

instance (c : KeyCnx) (x : ReceivedPacket) : Decidable (c.ClaimsOldKeys x) :=
  inferInstanceAs (Decidable (_ ∨ _))

/-- The keys that `picoquic_remove_packet_protection` calls the decryption with. -/
def keysTried (c : KeyCnx) (x : ReceivedPacket) : Option KeyUse :=
  if x.keyPhase = c.keyPhaseDec then some .current
  else if c.ClaimsOldKeys x then
    if c.cryptoRotationTimeGuard < x.currentTime then none
    else if c.cryptoContextOld.aeadDecrypt = true then some .old
    else none
  else if (c.prepareNewKeys x).2 = true ∧
      (c.prepareNewKeys x).1.cryptoContextNew.aeadDecrypt = true then some .new
  else none

/-- What `picoquic_remove_packet_protection` returns is within the payload. -/
def isDecrypted (c : KeyCnx) (x : ReceivedPacket) : Bool := (c.keysTried x).isSome && x.decrypts

/-- What a rotation of the keys changes. -/
def rotations (c : KeyCnx) : ℕ × Bool × Bool × CryptoContext × CryptoContext × ℕ :=
  (c.nbCryptoKeyRotations, c.keyPhaseDec, c.keyPhaseEnc, c.cryptoContext, c.cryptoContextOld,
    c.sendKeys)

/-- The two new keys are computed. -/
def Derives (c : KeyCnx) (keys : KeyDerivation) : Prop :=
  c.cryptoContextNew.aeadDecrypt = false ∧ c.cryptoContextNew.aeadEncrypt = false ∧ keys = .both

instance (c : KeyCnx) (keys : KeyDerivation) : Decidable (c.Derives keys) :=
  inferInstanceAs (Decidable (_ ∧ _ ∧ _))

/-- The events that the peer does not cause. Whether multipath is in use is known before. -/
def Event.isLocal : Event → Bool
  | .setMultipath _ | .removePacketProtection _ => false
  | _ => true

end KeyCnx

open KeyCnx (ReceivedPacket)

/-! ### Generations -/

/-- How often the secret of the peer was rotated, and how often it had been when the keys were made
from it. -/
structure Generations where
  secret : ℕ
  current : ℕ
  new : ℕ
  old : ℕ

namespace Generations

/-- The generation of the keys that are tried. -/
def of (g : Generations) : KeyUse → ℕ
  | .current => g.current
  | .old => g.old
  | .new => g.new

/-- The generations after `picoquic_compute_new_rotated_keys`. -/
def compute (g : Generations) (c : KeyCnx) (keys : KeyDerivation) : Generations :=
  if c.Derives keys then { g with secret := g.secret + 1, new := g.secret + 1 } else g

/-- The generations after `picoquic_apply_rotated_keys` for receiving. -/
def rotate (g : Generations) : Generations := { g with old := g.current, current := g.new }

end Generations

/-! ### A connection and its peer -/

/-- A 1-RTT packet of the peer. -/
structure PeerPacket where
  cid : ℕ
  pn64 : ℕ
  generation : ℕ
deriving DecidableEq

/-- A connection and its peer. -/
structure PhaseCnx where
  cnx : KeyCnx
  gens : Generations
  /-- The local connection identifiers. -/
  created : List ℕ
  /-- The packets that were decrypted. -/
  received : List PeerPacket
  /-- How often the peer has updated its keys. -/
  peerGeneration : ℕ
  /-- The peer knows that a packet with its keys was received. -/
  peerConfirmed : Bool
  /-- The next packet number of the peer in each space. -/
  peerNext : ℕ → ℕ
  sent : List PeerPacket

namespace PhaseCnx

/-- When a packet arrives, and what the code finds then. -/
structure Arrival where
  currentTime : ℕ
  retransmitTimer : ℕ
  keys : KeyDerivation

/-- What the header of a packet says. The bit is the parity of the generation. -/
def header (p : PeerPacket) (a : Arrival) : ReceivedPacket where
  cid := p.cid
  keyPhase := decide (p.generation % 2 = 1)
  pn64 := p.pn64
  currentTime := a.currentTime
  retransmitTimer := a.retransmitTimer
  keys := a.keys
  decrypts := false

/-- Ideal protection: keys decrypt exactly what was protected with the same keys. -/
def opens (r : PhaseCnx) (p : PeerPacket) (a : Arrival) : Bool :=
  match r.cnx.keysTried (header p a) with
  | none => false
  | some use => decide ((r.gens.compute r.cnx a.keys).of use = p.generation)

/-- An authentic packet arrives. -/
def arriving (r : PhaseCnx) (p : PeerPacket) (a : Arrival) : ReceivedPacket :=
  { header p a with decrypts := r.opens p a }

/-- The generations after `picoquic_remove_packet_protection`. -/
def gensAfter (r : PhaseCnx) (x : ReceivedPacket) : Generations :=
  if x.keyPhase = r.cnx.keyPhaseDec ∨ r.cnx.ClaimsOldKeys x then r.gens
  else if r.cnx.isDecrypted x = true then (r.gens.compute r.cnx x.keys).rotate
  else r.gens.compute r.cnx x.keys

/-- `picoquic_remove_packet_protection`. -/
def removePacketProtection (r : PhaseCnx) (x : ReceivedPacket) : PhaseCnx :=
  { r with cnx := r.cnx.removePacketProtection x, gens := r.gensAfter x }

/-- The packet is decrypted. -/
def recordReceived (r : PhaseCnx) (p : PeerPacket) : PhaseCnx :=
  { r with received := p :: r.received }

/-- The generations after an event that the peer does not cause. -/
def gensAfterLocal (r : PhaseCnx) (e : KeyCnx.Event) : Generations :=
  match r.cnx.request e with
  | none => r.gens
  | some (c, keys) => if c.MayRotate then r.gens.compute c keys else r.gens

/-- What happens to a connection and its peer. -/
inductive Event
  /-- `picoquic_create_local_cnxid`. -/
  | createCnxid (cid : ℕ)
  /-- The peer sends a packet, and may leave numbers out. -/
  | peerSend (cid skip : ℕ)
  /-- A packet is acknowledged that was protected with the keys of the peer. -/
  | peerConfirm
  /-- The peer updates its keys. -/
  | peerUpdate
  /-- A packet of the peer arrives. -/
  | receive (p : PeerPacket) (a : Arrival)
  /-- A packet arrives that is not authentic. -/
  | forged (x : ReceivedPacket)
  | localEvent (e : KeyCnx.Event)

/-- A new identifier: its context is blank. -/
def createCnxid (r : PhaseCnx) (cid : ℕ) : PhaseCnx :=
  if cid ∈ r.created then r
  else
    { r with
      created := cid :: r.created
      cnx :=
        if r.cnx.isMultipathEnabled = true then
          { r.cnx with
            ackCtx := Function.update r.cnx.ackCtx (r.cnx.space cid) ⟨sackListInit, 0⟩ }
        else r.cnx }

/-- The peer sends a packet, if the space has a number for it. -/
def peerSend (r : PhaseCnx) (cid skip : ℕ) : PhaseCnx :=
  let i := r.cnx.space cid
  if cid ∈ r.created ∧ r.peerNext i + skip < 2 ^ 62 then
    { r with
      sent := ⟨cid, r.peerNext i + skip, r.peerGeneration⟩ :: r.sent
      peerNext := Function.update r.peerNext i (r.peerNext i + skip + 1) }
  else r

/-- One event. -/
def step (r : PhaseCnx) : Event → PhaseCnx
  | .createCnxid cid => r.createCnxid cid
  | .peerSend cid skip => r.peerSend cid skip
  | .peerConfirm =>
    if ∃ p ∈ r.received, p.generation = r.peerGeneration then { r with peerConfirmed := true }
    else r
  | .peerUpdate =>
    if r.peerConfirmed = true then
      { r with peerGeneration := r.peerGeneration + 1, peerConfirmed := false }
    else r
  | .receive p a =>
    if p ∈ r.sent then
      let x := r.arriving p a
      if r.cnx.isDecrypted x = true then (r.removePacketProtection x).recordReceived p
      else r.removePacketProtection x
    else r
  | .forged x => r.removePacketProtection { x with decrypts := false }
  | .localEvent e =>
    if e.isLocal = true then { r with cnx := r.cnx.step e, gens := r.gensAfterLocal e } else r

/-- A new connection, with or without multipath. -/
def init (isMultipathEnabled : Bool) (first : ℕ → ℕ) (cryptoEpochLengthMax : ℕ) : PhaseCnx where
  cnx :=
    { KeyCnx.init first cryptoEpochLengthMax with isMultipathEnabled := isMultipathEnabled }
  gens := ⟨0, 0, 0, 0⟩
  created := []
  received := []
  peerGeneration := 0
  peerConfirmed := false
  peerNext := fun _ => 0
  sent := []

/-- A run from a new connection. -/
def run (isMultipathEnabled : Bool) (first : ℕ → ℕ) (cryptoEpochLengthMax : ℕ)
    (evs : List Event) : PhaseCnx :=
  Runs.run step (init isMultipathEnabled first cryptoEpochLengthMax) evs

/-! ### Timely packets are decrypted -/

/-- The generation of the packet is current or next, or it is the previous one and the packet
arrives within the time guard. -/
def Timely (r : PhaseCnx) (p : PeerPacket) (a : Arrival) : Prop :=
  p.generation = r.gens.current ∨
    (p.generation + 1 = r.gens.current ∧ a.currentTime ≤ r.cnx.cryptoRotationTimeGuard) ∨
    p.generation = r.gens.current + 1

/-- The packet that arrives is decrypted. -/
def Decrypts (r : PhaseCnx) (p : PeerPacket) (a : Arrival) : Prop :=
  r.cnx.isDecrypted (r.arriving p a) = true

instance (r : PhaseCnx) (p : PeerPacket) (a : Arrival) : Decidable (r.Decrypts p a) :=
  inferInstanceAs (Decidable (_ = _))

/-- Every authentic packet is decrypted, and only a packet that is decrypted rotates keys. -/
structure Selects (r : PhaseCnx) : Prop where
  decrypts : ∀ p ∈ r.sent, ∀ a, r.Timely p a → r.Decrypts p a
  keeps_keys : ∀ x, r.cnx.isDecrypted x = false →
    (r.cnx.removePacketProtection x).rotations = r.cnx.rotations

/-! ### The packets whose keys can be told apart -/

/-- The old keys are still there if the packet needs them; and if it needs the new keys, they are
there or can be derived, and a packet with the current keys was received in its space. -/
structure Selectable (r : PhaseCnx) (p : PeerPacket) (a : Arrival) : Prop where
  old : p.generation + 1 = r.gens.current → r.cnx.cryptoContextOld.aeadDecrypt = true
  derivable : p.generation = r.gens.current + 1 →
    r.cnx.cryptoContextNew.aeadDecrypt = true ∨ r.cnx.Derives a.keys
  seen : p.generation = r.gens.current + 1 → r.cnx.rotationSequence p.cid ≠ 2 ^ 64 - 1

/-- The packets that are decrypted are exactly those whose keys can be told apart, and only a packet
that is decrypted rotates keys. -/
structure SelectsExactly (r : PhaseCnx) : Prop where
  decrypts_iff : ∀ p ∈ r.sent, ∀ a, r.Timely p a → (r.Decrypts p a ↔ r.Selectable p a)
  keeps_keys : ∀ x, r.cnx.isDecrypted x = false →
    (r.cnx.removePacketProtection x).rotations = r.cnx.rotations

end PhaseCnx

end Picoquic
