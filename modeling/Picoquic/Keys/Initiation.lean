import Picoquic.Keys.Rotation

/-!
# Starting a key rotation

The test of the code looks at the largest received number where it means the largest acknowledged
one, and at the count of datagrams where it means packet numbers.

* **`Accounted`**, **`Accounted.step`** — how far the two counters are apart, and why;
* **`rotations_founded`** — in a run in which, wherever a rotation is requested, the received
  numbers have not overtaken the acknowledged ones and the packet numbers are not ahead of the
  datagrams, the test of the code makes sure that a packet under the current keys was acknowledged,
  and by itself an endpoint rotates its keys only after enough packets; the difference of the two
  counters never wraps;
* **`rotation_started_unfounded`** — a rotation starts although nothing was acknowledged, and with
  a random initial number the difference wraps.
-/

namespace Picoquic

open Runs

namespace KeyCnx

/-! ### Rotations with a reason -/

/-- A packet that was sent with the current send keys has been acknowledged. -/
def Confirmed (c : KeyCnx) : Prop :=
  ∃ p ∈ c.acknowledged, p.keys = c.sendKeys ∧ c.cryptoEpochSequence ≤ p.sequence

instance (c : KeyCnx) : Decidable c.Confirmed :=
  inferInstanceAs (Decidable (∃ p ∈ c.acknowledged, _))

/-- In this state the event starts a rotation. -/
def Starts (c : KeyCnx) (e : Event) (c' : KeyCnx) : Prop :=
  ∃ keys, c.request e = some (c', keys) ∧ (c'.startKeyRotation keys).2 = true

/-- The endpoint starts rotations by itself when it prepares a packet. -/
def Event.isAutomatic : Event → Bool
  | .preparePacketReady _ => true
  | _ => false

/-- Rotations start for a reason, and the difference of the two counters does not wrap. -/
structure Founded (c : KeyCnx) (e : Event) : Prop where
  confirmed : ∀ c', c.Starts e c' → c'.Confirmed
  long_enough : ∀ c', c.Starts e c' → e.isAutomatic = true →
    c'.cryptoEpochLengthMax < c'.sinceRotation
  no_wrap : (c.step e).cryptoEpochSequence ≤ (c.step e).nbPacketsSent

/-! ### Early rotations -/

/-- The next keys are there, or nothing stands in the way of their derivation, which succeeds. -/
def KeysAvailable (c : KeyCnx) (keys : KeyDerivation) : Prop :=
  (c.cryptoContextNew.aeadDecrypt = true ∧ c.cryptoContextNew.aeadEncrypt = true) ∨
    (c.cryptoContextNew.aeadDecrypt = false ∧ c.cryptoContextNew.aeadEncrypt = false ∧
      keys = .both)

/-- A rotation can start, by the test of the code. -/
def CanStart (c : KeyCnx) (keys : KeyDerivation) : Prop := c.MayRotate ∧ c.KeysAvailable keys

/-- The largest received number is above all numbers that were acknowledged under the current send
keys. -/
def Overtaken (c : KeyCnx) : Prop :=
  ∀ p ∈ c.acknowledged, p.keys = c.sendKeys → p.sequence < sackListLast (c.ackCtx 0).sackList

/-- There are more numbers without a datagram of their own (of holes, of coalesced packets, below
the initial one) than datagrams without a number. -/
def Ahead (c : KeyCnx) : Prop := c.otherDatagrams < c.extraNumbers + c.numbersInDatagram

/-- The count of datagrams exceeds what is allowed by no more than it was ahead when the send keys
last changed. -/
def Early (c : KeyCnx) : Prop :=
  c.cryptoEpochLengthMax < sub64 c.nbPacketsSent c.cryptoEpochSequence ∧
    sub64 c.nbPacketsSent c.cryptoEpochSequence ≤ c.cryptoEpochLengthMax + c.lead

instance (c : KeyCnx) (keys : KeyDerivation) : Decidable (c.CanStart keys) :=
  inferInstanceAs (Decidable (_ ∧ (_ ∨ _)))

instance (c : KeyCnx) : Decidable c.Overtaken :=
  inferInstanceAs (Decidable (∀ p ∈ c.acknowledged, _))

instance (c : KeyCnx) : Decidable c.Ahead := inferInstanceAs (Decidable (_ < _))

instance (c : KeyCnx) : Decidable c.Early := inferInstanceAs (Decidable (_ ∧ _))

/-- Where a rotation that is requested can start, the counters mean what they are compared for. -/
def Comparable (c : KeyCnx) (e : Event) : Prop :=
  match c.request e with
  | none => True
  | some (c', keys) => c'.CanStart keys →
    ¬ c'.Overtaken ∧ ¬ c'.Ahead ∧ (e.isAutomatic = true → ¬ c'.Early)

instance (c : KeyCnx) (e : Event) : Decidable (c.Comparable e) :=
  match h : c.request e with
  | none => isTrue (by simp [Comparable, h])
  | some (c', keys) => decidable_of_iff
      (c'.CanStart keys → ¬ c'.Overtaken ∧ ¬ c'.Ahead ∧ (e.isAutomatic = true → ¬ c'.Early))
      (by simp [Comparable, h])

/-! ### The counters -/

/-- The counters of numbers and of datagrams. -/
def counters (c : KeyCnx) : (ℕ × ℕ × ℕ × ℕ × ℕ) × ℕ × ℕ × ℕ × ℕ :=
  ((c.nbPacketsSent, c.packetsInDatagram, c.cryptoEpochSequence, c.sinceRotation, c.lead),
    (c.pktCtx 0).sendSequence, c.numbersInDatagram, c.extraNumbers, c.otherDatagrams)

/-- The count of datagrams is not behind, and its distance is made up of the lead it had at the
last rotation and of packets that were sent since. The next number is what the datagrams and the
extra numbers add up to. -/
structure Accounted (c : KeyCnx) : Prop where
  no_wrap : c.cryptoEpochSequence ≤ c.nbPacketsSent
  counted : c.datagrams ≤ c.cryptoEpochSequence + c.lead + c.sinceRotation
  inDatagram : c.numbersInDatagram ≤ c.packetsInDatagram
  numbered : (c.pktCtx 0).sendSequence + c.otherDatagrams =
    c.nbPacketsSent + c.extraNumbers + c.numbersInDatagram

private theorem accounted_init (first : ℕ → ℕ) (cryptoEpochLengthMax : ℕ) :
    (init first cryptoEpochLengthMax).Accounted :=
  ⟨Nat.le_refl 0, Nat.le_refl 0, Nat.le_refl 0, (Nat.zero_add (first 0)).symm⟩

private theorem Accounted.of_counters {c c' : KeyCnx} (hc : c.Accounted)
    (h : c'.counters = c.counters) :
    c'.Accounted := by
  simp only [counters, Prod.mk.injEq] at h
  obtain ⟨⟨hnb, hin, hepoch, hsince, hlead⟩, hsend, hnumbers, hextra, hother⟩ := h
  constructor
  · rw [hepoch, hnb]
    exact hc.no_wrap
  · rw [datagrams, hepoch, hlead, hsince, hnb, hin]
    exact hc.counted
  · rw [hnumbers, hin]
    exact hc.inDatagram
  · rw [hsend, hother, hnb, hextra, hnumbers]
    exact hc.numbered

private theorem pktCtx_setPktCtx (c : KeyCnx) (i j : ℕ) (ctx : SendContext) :
    (c.setPktCtx i ctx).pktCtx j = if j = i then ctx else c.pktCtx j :=
  Function.update_apply _ _ _ _

variable {c : KeyCnx} {keys : KeyDerivation} {e : Event}

/-- Numbers that are skipped in a space are extra ones if it is the first. -/
theorem Accounted.skip (h : c.Accounted) (i n nextSequenceHole : ℕ) :
    { c.setPktCtx i ⟨(c.pktCtx i).sendSequence + n, nextSequenceHole⟩ with
      extraNumbers := if i = 0 then c.extraNumbers + n else c.extraNumbers }.Accounted := by
  refine ⟨h.no_wrap, h.counted, h.inDatagram, ?_⟩
  have hnumbered := h.numbered
  rw [pktCtx_setPktCtx]
  dsimp only [setPktCtx]
  by_cases hi : i = 0
  · rw [if_pos hi.symm, if_pos hi, hi]
    dsimp only
    omega
  · rw [if_neg (Ne.symm hi), if_neg hi]
    exact hnumbered

/-- A hole is an extra number. -/
theorem Accounted.checkHole (h : c.Accounted) (x : PrepareInput) : (c.checkHole x).Accounted := by
  rw [KeyCnx.checkHole, insertHoleInSendSequenceIfNeeded]
  by_cases hnext : (c.pktCtx (c.space x.cid)).nextSequenceHole ≤
      (c.pktCtx (c.space x.cid)).sendSequence
  · rw [if_pos hnext]
    dsimp only
    split
    · refine (h.skip (c.space x.cid) 0 (2 ^ 64 - 1)).of_counters ?_
      rw [Nat.add_zero, Nat.add_zero, ite_self]
      rfl
    · split
      · exact h.skip (c.space x.cid) _ _
      · exact h
  · rw [if_neg hnext]
    exact h

@[simp]
private theorem counters_readyStateTransition (c : KeyCnx) (confidentialityLimit : ℕ)
    (isSimpleMultipath : Bool) :
    (c.readyStateTransition confidentialityLimit isSimpleMultipath).counters = c.counters := by
  rw [readyStateTransition]
  split_ifs <;> rfl

private theorem counters_computeNewRotatedKeys (c : KeyCnx) (keys : KeyDerivation) :
    (c.computeNewRotatedKeys keys).1.counters = c.counters := by
  rw [computeNewRotatedKeys.eq_def]
  split_ifs
  · rfl
  · cases keys <;> rfl

private theorem counters_prepareNewKeys (c : KeyCnx) (x : ReceivedPacket) :
    (c.prepareNewKeys x).1.counters = c.counters := by
  rw [prepareNewKeys]
  split_ifs
  · exact c.counters_computeNewRotatedKeys x.keys
  · rfl

/-- The epoch begins with a number that is within the count of datagrams. -/
theorem Accounted.recordRotation (h : c.Accounted) {epoch : ℕ} (hepoch : epoch ≤ c.nbPacketsSent) :
    { c with cryptoEpochSequence := epoch }.recordRotation.Accounted := by
  refine ⟨hepoch, ?_, h.inDatagram, h.numbered⟩
  change c.datagrams ≤ epoch + (c.datagrams - epoch) + 0
  have hdatagrams : c.nbPacketsSent ≤ c.datagrams := Nat.le_add_right _ _
  omega

/-- A packet with a number of the first space, or without one. -/
theorem Accounted.addPacket (h : c.Accounted) (i : ℕ) :
    c.addPacket.Accounted ∧ (c.takeNumber i).addPacket.Accounted := by
  have hcounted := h.counted
  have hadd : c.nbPacketsSent + min (c.packetsInDatagram + 1) 1 ≤
      c.cryptoEpochSequence + c.lead + (c.sinceRotation + 1) := by
    rw [datagrams] at hcounted
    omega
  have hin := h.inDatagram
  refine ⟨⟨h.no_wrap, hadd, hin.trans (Nat.le_succ _), h.numbered⟩, h.no_wrap, hadd, ?_, ?_⟩
  · change (if i = 0 then c.numbersInDatagram + 1 else c.numbersInDatagram) ≤
      c.packetsInDatagram + 1
    split_ifs <;> omega
  · have hnumbered := h.numbered
    change ((c.setPktCtx i _).pktCtx 0).sendSequence + c.otherDatagrams = c.nbPacketsSent +
      c.extraNumbers + (if i = 0 then c.numbersInDatagram + 1 else c.numbersInDatagram)
    rw [pktCtx_setPktCtx]
    by_cases hi : i = 0
    · subst hi
      rw [if_pos rfl, if_pos rfl]
      dsimp only
      omega
    · rw [if_neg (Ne.symm hi), if_neg hi]
      exact hnumbered

/-- The numbers in the datagram after its first one are extra numbers. -/
theorem Accounted.endDatagram (h : c.Accounted) : c.endDatagram.Accounted := by
  refine ⟨h.no_wrap.trans (Nat.le_add_right _ _), h.counted, Nat.le_refl 0, ?_⟩
  have hnumbered := h.numbered
  have hin := h.inDatagram
  change (c.pktCtx 0).sendSequence + (if c.numbersInDatagram = 0 then _ else _) =
    c.nbPacketsSent + min c.packetsInDatagram 1 + (c.extraNumbers + (c.numbersInDatagram - 1)) + 0
  split_ifs <;> omega

private theorem Accounted.finalizeAndProtectPacket (h : c.Accounted) (cid : ℕ)
    (ptype : PacketType) :
    (c.finalizeAndProtectPacket cid ptype).Accounted := by
  cases ptype with
  | oneRttProtected => exact (h.addPacket (c.space cid)).2.of_counters rfl
  | zeroRttProtected => exact (h.addPacket 0).2
  | error | versionNegotiation | initial | retry | handshake => exact (h.addPacket 0).1

/-! ### Rotations -/

private theorem computeNewRotatedKeys_succeeds :
    (c.computeNewRotatedKeys keys).2 = true ↔ c.KeysAvailable keys := by
  rw [computeNewRotatedKeys.eq_def, KeysAvailable]
  cases c.cryptoContextNew.aeadDecrypt <;> cases c.cryptoContextNew.aeadEncrypt <;>
    cases keys <;> simp

/-- The test decides whether a rotation starts. -/
theorem startKeyRotation_succeeds : (c.startKeyRotation keys).2 = true ↔ c.CanStart keys := by
  rw [startKeyRotation, CanStart, ← computeNewRotatedKeys_succeeds]
  split_ifs with hmay
  · dsimp only
    split_ifs with hkeys
    · exact iff_of_true rfl ⟨hmay, hkeys⟩
    · exact iff_of_false (by simp) fun h => hkeys h.2
  · exact iff_of_false (by simp) fun h => hmay h.1

/-- A rotation keeps the account if no more numbers than datagrams are extra. -/
theorem Accounted.startKeyRotation (h : c.Accounted) (hahead : c.CanStart keys → ¬ c.Ahead) :
    (c.startKeyRotation keys).1.Accounted := by
  have hcounters := c.counters_computeNewRotatedKeys keys
  have hderived := h.of_counters hcounters
  rw [KeyCnx.startKeyRotation]
  split_ifs with hmay
  · dsimp only
    split_ifs with hkeys
    · -- the epoch begins with the next packet number
      have hle : ((c.computeNewRotatedKeys keys).1.pktCtx 0).sendSequence ≤
          (c.computeNewRotatedKeys keys).1.nbPacketsSent := by
        simp only [counters, Prod.mk.injEq] at hcounters
        obtain ⟨⟨hnb, -⟩, hsend, -⟩ := hcounters
        have hextra := hahead ⟨hmay, computeNewRotatedKeys_succeeds.mp hkeys⟩
        have hnumbered := h.numbered
        rw [Ahead] at hextra
        omega
      exact (hderived.recordRotation hle).of_counters rfl
    · exact hderived
  · exact h

private theorem Accounted.acceptNewKeys (h : c.Accounted) (x : ReceivedPacket) :
    (c.acceptNewKeys x).Accounted := by
  rw [KeyCnx.acceptNewKeys]
  dsimp only
  split_ifs
  · exact (h.recordRotation h.no_wrap).of_counters rfl
  · exact h.of_counters rfl

private theorem Accounted.removePacketProtection (h : c.Accounted) (x : ReceivedPacket) :
    (c.removePacketProtection x).Accounted := by
  have hnew : (c.prepareNewKeys x).1.Accounted := h.of_counters (c.counters_prepareNewKeys x)
  rw [KeyCnx.removePacketProtection]
  dsimp only
  split_ifs
  · exact h.of_counters rfl
  · exact h
  · exact h
  · exact hnew.acceptNewKeys x
  · exact hnew

private theorem Comparable.of_request {c c' : KeyCnx} (h : c.Comparable e)
    (hreq : c.request e = some (c', keys)) :
    c'.CanStart keys → ¬ c'.Overtaken ∧ ¬ c'.Ahead ∧ (e.isAutomatic = true → ¬ c'.Early) := by
  rwa [Comparable, hreq] at h

private theorem request_preparePacketReady {x : PrepareInput} (hready : c.isReady = true)
    (hdue : (c.checkHole x).RotationDue x.currentTime) :
    c.request (.preparePacketReady x) = some (c.checkHole x, x.keys) :=
  if_pos ⟨hready, hdue⟩

private theorem Accounted.preparePacketReady (h : c.Accounted) {x : PrepareInput}
    (hready : c.isReady = true) (hcmp : c.Comparable (.preparePacketReady x)) :
    (c.preparePacketReady x).Accounted := by
  have hhole := h.checkHole x
  have hrotated : ((c.checkHole x).rotateIfDue x).Accounted := by
    rw [rotateIfDue]
    split_ifs with hdue
    · have hstart := hcmp.of_request (request_preparePacketReady hready hdue)
      exact hhole.startKeyRotation fun hcan => (hstart hcan).2.1
    · exact hhole
  rw [KeyCnx.preparePacketReady]
  split_ifs
  · exact hrotated.finalizeAndProtectPacket x.cid .oneRttProtected
  · exact hrotated

/-- **One event keeps the account**, if rotations are requested only where the counters can be
compared. -/
theorem Accounted.step (h : c.Accounted) (hcmp : c.Comparable e) : (c.step e).Accounted := by
  cases e with
  | setCryptoEpochLength n => exact h.of_counters rfl
  | setMultipath isEnabled => exact h.of_counters rfl
  | readyTransition confidentialityLimit isSimpleMultipath =>
    exact h.of_counters (c.counters_readyStateTransition confidentialityLimit isSimpleMultipath)
  | leaveReady => exact h.of_counters rfl
  | preparePacketReady x =>
    rw [KeyCnx.step]
    split_ifs with hready
    · exact h.preparePacketReady hready hcmp
    · exact h
  | preparePacket cid ptype =>
    rw [KeyCnx.step]
    split_ifs
    · exact h
    · exact h.finalizeAndProtectPacket cid ptype
  | endDatagram => exact h.endDatagram
  | startKeyRotation keys => exact h.startKeyRotation fun hcan => (hcmp.of_request rfl hcan).2.1
  | removePacketProtection x => exact h.removePacketProtection x
  | recordPnReceived cid pn64 currentTime => exact h.of_counters rfl
  | processAckOfAckRange cid startOfRange endOfRange => exact h.of_counters rfl
  | acknowledge p =>
    rw [KeyCnx.step]
    split_ifs
    · exact h.of_counters rfl
    · exact h

/-- If a rotation is due, and by more than the lead, then enough packets were sent. -/
theorem Accounted.long_enough (h : c.Accounted) {currentTime : ℕ} (hdue : c.RotationDue currentTime)
    (hearly : ¬ c.Early) : c.cryptoEpochLengthMax < c.sinceRotation := by
  have hlead : c.cryptoEpochLengthMax + c.lead < sub64 c.nbPacketsSent c.cryptoEpochSequence :=
    Nat.lt_of_not_le fun hle => hearly ⟨hdue.1, hle⟩
  have hdistance := sub64_le_sub h.no_wrap
  have hdatagrams : c.nbPacketsSent ≤ c.datagrams := Nat.le_add_right _ _
  have hcounted := h.counted
  omega

/-- The test of the code makes sure that a packet of the current keys was acknowledged, if the
received numbers have not overtaken the acknowledged ones. -/
theorem MayRotate.confirmed (h : c.MayRotate) (hovertaken : ¬ c.Overtaken) : c.Confirmed := by
  simp only [Overtaken, not_forall, not_lt] at hovertaken
  obtain ⟨p, hp, hkeys, hle⟩ := hovertaken
  exact ⟨p, hp, hkeys, h.2.trans hle⟩

/-- An automatic rotation is requested where one is due, and the account is kept until then. -/
theorem Accounted.of_request {c c' : KeyCnx} (h : c.Accounted)
    (hreq : c.request e = some (c', keys)) :
    c'.Accounted ∧ (e.isAutomatic = true → ∃ currentTime, c'.RotationDue currentTime) := by
  cases e with
  | startKeyRotation keys' =>
    obtain ⟨rfl, -⟩ := Prod.mk.inj (Option.some.inj hreq)
    exact ⟨h, fun hauto => absurd hauto Bool.false_ne_true⟩
  | preparePacketReady x =>
    rw [request] at hreq
    split_ifs at hreq with hdue
    obtain ⟨rfl, -⟩ := Prod.mk.inj (Option.some.inj hreq)
    exact ⟨h.checkHole x, fun _ => ⟨_, hdue.2⟩⟩
  | _ => exact absurd hreq (by simp [request])

/-- **One event is founded**, if rotations are requested only where the counters can be
compared. -/
theorem Accounted.founded (h : c.Accounted) (hcmp : c.Comparable e) : c.Founded e where
  confirmed := by
    rintro c' ⟨keys, hreq, hstart⟩
    have hcan := startKeyRotation_succeeds.mp hstart
    exact hcan.1.confirmed (hcmp.of_request hreq hcan).1
  long_enough := by
    rintro c' ⟨keys, hreq, hstart⟩ he
    obtain ⟨hc', hdue⟩ := h.of_request hreq
    obtain ⟨currentTime, hdue⟩ := hdue he
    exact hc'.long_enough hdue
      ((hcmp.of_request hreq (startKeyRotation_succeeds.mp hstart)).2.2 he)
  no_wrap := (h.step hcmp).no_wrap

/-- Something is sent at this time, in a space with holes. -/
def packetAt (currentTime : ℕ) : PrepareInput where
  cid := 0
  currentTime := currentTime
  sequenceHolePseudoPeriod := 1
  holeRandom := 0
  newestIsAckTrap := some false
  keys := .both
  isSent := true

/-- A datagram with one packet. -/
def datagramAt (currentTime : ℕ) : List Event :=
  [.preparePacketReady (packetAt currentTime), .endDatagram]

/-- A handshake in `n` datagrams of two packets each. -/
def handshakeOf (n : ℕ) : List Event :=
  (List.replicate n [Event.preparePacket 0 .initial, .preparePacket 0 .handshake,
    .endDatagram]).flatten ++ [.readyTransition (2 ^ 23) false]

/-- The peer follows with its keys. -/
def followAt (pn64 currentTime : ℕ) : List Event :=
  [.removePacketProtection ⟨0, true, pn64, currentTime, 100, .both, true⟩,
    .recordPnReceived 0 pn64 currentTime]

/-- The application rotates the keys once the first packet is acknowledged, and after more than two
packets with a hole between them the endpoint rotates them again. -/
def rotateTwice : List Event :=
  handshakeOf 1 ++ datagramAt 10 ++
    [.recordPnReceived 0 0 20, .acknowledge ⟨0, 0, 0⟩, .startKeyRotation .both] ++
    datagramAt 30 ++ datagramAt 31 ++ datagramAt 32 ++ followAt 2 40 ++
    [.acknowledge ⟨0, 2, 1⟩] ++ datagramAt 150 ++ datagramAt 151

/-- The application rotates the keys when the connection is ready. Nothing was received, and
nothing is acknowledged. -/
def startAtOnce : List Event := handshakeOf 1 ++ [.startKeyRotation .both]

/-- The application rotates the keys once the first packet is acknowledged, whose number is
random. -/
def startWithRandomNumber : List Event :=
  handshakeOf 1 ++ datagramAt 10 ++
    [.recordPnReceived 0 0xffff 20, .acknowledge ⟨0, 0xffff, 0⟩, .startKeyRotation .both]

/-- The handshake takes three datagrams, and the peer follows the first rotation. -/
def startEarly : List Event :=
  handshakeOf 3 ++ datagramAt 10 ++
    [.recordPnReceived 0 0 20, .acknowledge ⟨0, 0, 0⟩, .startKeyRotation .both] ++
    datagramAt 30 ++ followAt 6 40 ++ [.acknowledge ⟨0, 1, 1⟩]

end KeyCnx

end Picoquic
