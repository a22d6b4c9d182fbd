import Picoquic.Keys.Phase

/-!
# Which packets are decrypted after a rotation

* **`packets_selected_exactly`** — in every run, a packet of the peer whose generation is current,
  next, or within the time guard previous is decrypted if and only if, where it needs the old keys,
  no rotation has freed them, and where it needs the new keys, a packet with the current keys was
  received for its identifier since they are in use; and only a packet that is decrypted rotates
  keys;
* **`packets_not_selected`** — after a rotation the packets for an idle identifier are never
  decrypted once the peer updates its keys again, and a rotation that the application starts frees
  the old keys within the time guard.
-/

namespace Picoquic

open Runs

open KeyCnx (ReceivedPacket)

namespace KeyCnx

/-! ### Removing the protection of a packet -/

variable {x : ReceivedPacket} {p : PeerPacket} {a : Arrival}

private theorem removePacketProtection_of_current {c : KeyCnx} (h : x.keyPhase = c.keyPhaseDec) :
    c.removePacketProtection x =
      if x.decrypts = true ∧ x.pn64 < c.rotationSequence x.cid then
        { c with
          ackCtx := Function.update c.ackCtx (c.space x.cid)
            { c.ackCtx (c.space x.cid) with cryptoRotationSequence := x.pn64 } }
      else c :=
  if_pos h

private theorem removePacketProtection_of_old {c : KeyCnx} (h : x.keyPhase ≠ c.keyPhaseDec)
    (hold : c.ClaimsOldKeys x) : c.removePacketProtection x = c :=
  (if_neg h).trans (if_pos hold)

private theorem keysTried_of_new {c : KeyCnx} (h : x.keyPhase ≠ c.keyPhaseDec)
    (hold : ¬ c.ClaimsOldKeys x) :
    c.keysTried x =
      if (c.prepareNewKeys x).2 = true ∧
          (c.prepareNewKeys x).1.cryptoContextNew.aeadDecrypt = true then some .new
      else none :=
  (if_neg h).trans (if_neg hold)

/-- What is known about a packet on which these keys are tried. -/
theorem keysTried_eq_some {c : KeyCnx} {use : KeyUse} (h : c.keysTried x = some use) :
    match use with
    | .current => x.keyPhase = c.keyPhaseDec
    | .old => x.keyPhase ≠ c.keyPhaseDec ∧ c.ClaimsOldKeys x ∧
        c.cryptoContextOld.aeadDecrypt = true
    | .new => x.keyPhase ≠ c.keyPhaseDec ∧ ¬ c.ClaimsOldKeys x := by
  rw [keysTried] at h
  split_ifs at h with hphase hold htime hthere hready
  · obtain rfl := Option.some.inj h
    exact hphase
  · obtain rfl := Option.some.inj h
    exact ⟨hphase, hold, hthere⟩
  · obtain rfl := Option.some.inj h
    exact ⟨hphase, hold⟩

/-- Neither the current keys nor the old ones: the keys change if the new ones decrypt the
packet. -/
theorem removePacketProtection_of_new {c : KeyCnx} (h : x.keyPhase ≠ c.keyPhaseDec)
    (hold : ¬ c.ClaimsOldKeys x) :
    c.removePacketProtection x =
      if c.isDecrypted x = true then (c.prepareNewKeys x).1.acceptNewKeys x
      else (c.prepareNewKeys x).1 := by
  have hcode : c.removePacketProtection x =
      if (c.prepareNewKeys x).2 = true ∧
          (c.prepareNewKeys x).1.cryptoContextNew.aeadDecrypt = true ∧ x.decrypts = true then
        (c.prepareNewKeys x).1.acceptNewKeys x
      else (c.prepareNewKeys x).1 :=
    (if_neg h).trans (if_neg hold)
  have hiff : c.isDecrypted x = true ↔ (c.prepareNewKeys x).2 = true ∧
      (c.prepareNewKeys x).1.cryptoContextNew.aeadDecrypt = true ∧ x.decrypts = true := by
    rw [isDecrypted, keysTried_of_new h hold]
    split_ifs with htried
    · simp [htried.1, htried.2]
    · simp only [Option.isSome_none, Bool.false_and, Bool.false_eq_true, false_iff]
      exact fun hand => htried ⟨hand.1, hand.2.1⟩
  rw [hcode]
  simp only [hiff]

private theorem ready_of_isDecrypted {c : KeyCnx} (h : x.keyPhase ≠ c.keyPhaseDec)
    (hold : ¬ c.ClaimsOldKeys x) (hdecrypted : c.isDecrypted x = true) :
    (c.prepareNewKeys x).2 = true ∧
      (c.prepareNewKeys x).1.cryptoContextNew.aeadDecrypt = true := by
  rw [isDecrypted, keysTried_of_new h hold] at hdecrypted
  by_contra hnot
  rw [if_neg hnot] at hdecrypted
  exact absurd hdecrypted Bool.false_ne_true

private theorem computeNewRotatedKeys_eq (c : KeyCnx) (keys : KeyDerivation) :
    (c.computeNewRotatedKeys keys).1 =
      { c with cryptoContextNew := (c.computeNewRotatedKeys keys).1.cryptoContextNew } := by
  rw [computeNewRotatedKeys.eq_def]
  split_ifs
  · rfl
  · cases keys <;> rfl

private theorem computeNewRotatedKeys_decrypt {c : KeyCnx} {keys : KeyDerivation} :
    (c.computeNewRotatedKeys keys).1.cryptoContextNew.aeadDecrypt = true ↔
      c.cryptoContextNew.aeadDecrypt = true ∨ c.Derives keys := by
  rw [computeNewRotatedKeys.eq_def, Derives]
  cases hd : c.cryptoContextNew.aeadDecrypt <;> cases he : c.cryptoContextNew.aeadEncrypt <;>
    cases keys <;> simp [hd]

private theorem prepareNewKeys_eq (c : KeyCnx) (x : ReceivedPacket) :
    (c.prepareNewKeys x).1 = (c.computeNewRotatedKeys x.keys).1 := by
  rw [prepareNewKeys]
  split_ifs with h
  · rfl
  · have hthere :
        c.cryptoContextNew.aeadDecrypt = true ∨ c.cryptoContextNew.aeadEncrypt = true := by
      simpa [or_iff_not_imp_left] using h
    rw [computeNewRotatedKeys.eq_def, if_pos hthere]

/-- The new keys are tried if they are there, or can be derived. -/
theorem prepareNewKeys_ready {c : KeyCnx} :
    ((c.prepareNewKeys x).2 = true ∧
        (c.prepareNewKeys x).1.cryptoContextNew.aeadDecrypt = true) ↔
      c.cryptoContextNew.aeadDecrypt = true ∨ c.Derives x.keys := by
  rw [prepareNewKeys_eq, computeNewRotatedKeys_decrypt, prepareNewKeys]
  split_ifs with h
  · rw [computeNewRotatedKeys.eq_def, if_neg (by simp [h.1, h.2])]
    cases x.keys <;> simp [Derives, h.1, h.2]
  · simp

/-- **No rotation without decryption.** -/
theorem rotations_removePacketProtection {c : KeyCnx} (h : c.isDecrypted x = false) :
    (c.removePacketProtection x).rotations = c.rotations := by
  by_cases hphase : x.keyPhase = c.keyPhaseDec
  · rw [removePacketProtection_of_current hphase]
    split_ifs <;> rfl
  by_cases hold : c.ClaimsOldKeys x
  · rw [removePacketProtection_of_old hphase hold]
  · rw [removePacketProtection_of_new hphase hold, if_neg (by simp [h]), prepareNewKeys_eq,
      computeNewRotatedKeys_eq]
    rfl

/-! ### Local events -/

/-- What a local event leaves alone. -/
structure SameReception (c c' : KeyCnx) : Prop where
  multipath : c'.isMultipathEnabled = c.isMultipathEnabled
  phase : c'.keyPhaseDec = c.keyPhaseDec
  sequence : ∀ i, (c'.ackCtx i).cryptoRotationSequence = (c.ackCtx i).cryptoRotationSequence

private theorem SameReception.of_eq {c c' : KeyCnx}
    (hm : c'.isMultipathEnabled = c.isMultipathEnabled)
    (hp : c'.keyPhaseDec = c.keyPhaseDec) (ha : c'.ackCtx = c.ackCtx) : c.SameReception c' :=
  ⟨hm, hp, fun i => by rw [ha]⟩

private theorem SameReception.trans {c c' c'' : KeyCnx} (h : c.SameReception c')
    (h' : c'.SameReception c'') : c.SameReception c'' :=
  ⟨h'.multipath.trans h.multipath, h'.phase.trans h.phase,
    fun i => (h'.sequence i).trans (h.sequence i)⟩

private theorem SameReception.rotationSequence {c c' : KeyCnx} (h : c.SameReception c') (cid : ℕ) :
    c'.rotationSequence cid = c.rotationSequence cid := by
  rw [KeyCnx.rotationSequence, KeyCnx.rotationSequence, space, space, h.multipath, h.sequence]

private theorem sameReception_setSackList (c : KeyCnx) (i : ℕ) (s : SackList) :
    c.SameReception (c.setSackList i s) := by
  refine ⟨rfl, rfl, fun j => ?_⟩
  change (Function.update c.ackCtx i { c.ackCtx i with sackList := s } j).cryptoRotationSequence =
    (c.ackCtx j).cryptoRotationSequence
  by_cases hj : j = i
  · subst hj
    rw [Function.update_self]
  · rw [Function.update_of_ne hj]

private theorem sameReception_computeNewRotatedKeys (c : KeyCnx) (keys : KeyDerivation) :
    c.SameReception (c.computeNewRotatedKeys keys).1 := by
  rw [computeNewRotatedKeys_eq]
  exact .of_eq rfl rfl rfl

private theorem sameReception_startKeyRotation (c : KeyCnx) (keys : KeyDerivation) :
    c.SameReception (c.startKeyRotation keys).1 := by
  have hcompute := c.sameReception_computeNewRotatedKeys keys
  rw [startKeyRotation]
  split_ifs
  · dsimp only
    split_ifs
    · exact hcompute.trans (.of_eq rfl rfl rfl)
    · exact hcompute
  · exact .of_eq rfl rfl rfl

private theorem sameReception_checkHole (c : KeyCnx) (x : PrepareInput) :
    c.SameReception (c.checkHole x) := by
  rw [checkHole, insertHoleInSendSequenceIfNeeded]
  split_ifs <;> exact .of_eq rfl rfl rfl

private theorem sameReception_finalizeAndProtectPacket (c : KeyCnx) (cid : ℕ) (ptype : PacketType) :
    c.SameReception (c.finalizeAndProtectPacket cid ptype) := by
  cases ptype <;> exact .of_eq rfl rfl rfl

private theorem sameReception_preparePacketReady (c : KeyCnx) (x : PrepareInput) :
    c.SameReception (c.preparePacketReady x) := by
  have hhole := c.sameReception_checkHole x
  have hrotated : c.SameReception ((c.checkHole x).rotateIfDue x) := by
    rw [rotateIfDue]
    split_ifs
    · exact hhole.trans (sameReception_startKeyRotation _ _)
    · exact hhole
  rw [preparePacketReady]
  split_ifs
  · exact hrotated.trans (sameReception_finalizeAndProtectPacket _ _ _)
  · exact hrotated

private theorem sameReception_readyStateTransition (c : KeyCnx) (confidentialityLimit : ℕ)
    (isSimpleMultipath : Bool) :
    c.SameReception (c.readyStateTransition confidentialityLimit isSimpleMultipath) := by
  cases isSimpleMultipath with
  | false => exact .of_eq rfl rfl rfl
  | true =>
    refine SameReception.trans ?_ (sameReception_setSackList _ _ _)
    exact .of_eq rfl rfl rfl

/-- A local event does not change how packets are received, but for the keys. -/
theorem sameReception_step (c : KeyCnx) {e : Event} (he : e.isLocal = true) :
    c.SameReception (c.step e) := by
  cases e with
  | setMultipath _ | removePacketProtection _ => exact absurd he (by simp [Event.isLocal])
  | setCryptoEpochLength _ | leaveReady | endDatagram => exact .of_eq rfl rfl rfl
  | readyTransition limit isSimple => exact c.sameReception_readyStateTransition limit isSimple
  | preparePacketReady x =>
    rw [step]
    split_ifs
    · exact c.sameReception_preparePacketReady x
    · exact .of_eq rfl rfl rfl
  | preparePacket cid ptype =>
    rw [step]
    split_ifs
    · exact .of_eq rfl rfl rfl
    · exact c.sameReception_finalizeAndProtectPacket cid ptype
  | startKeyRotation keys => exact c.sameReception_startKeyRotation keys
  | recordPnReceived _ _ _ | processAckOfAckRange _ _ _ => exact c.sameReception_setSackList _ _
  | acknowledge p =>
    rw [step]
    split_ifs <;> exact .of_eq rfl rfl rfl

end KeyCnx

/-! ### Keys and their generations -/

private theorem Generations.compute_current (g : Generations) (c : KeyCnx) (keys : KeyDerivation) :
    (g.compute c keys).current = g.current := by
  rw [compute]
  split_ifs <;> rfl

/-- The keys that are present are of the generations before, at and after the current one. -/
structure KeysMatch (c : KeyCnx) (g : Generations) : Prop where
  phase : c.keyPhaseDec = decide (g.current % 2 = 1)
  new_absent : c.cryptoContextNew.aeadDecrypt = false → g.secret = g.current
  new_present : c.cryptoContextNew.aeadDecrypt = true →
    g.new = g.current + 1 ∧ g.secret = g.current + 1
  old_present : c.cryptoContextOld.aeadDecrypt = true → g.old + 1 = g.current

namespace KeysMatch

variable {c c' : KeyCnx} {g : Generations}

section

variable (h : KeysMatch c g)

include h

private theorem of_keys (hp : c'.keyPhaseDec = c.keyPhaseDec)
    (hn : c'.cryptoContextNew.aeadDecrypt = c.cryptoContextNew.aeadDecrypt)
    (ho : c'.cryptoContextOld.aeadDecrypt = true → c.cryptoContextOld.aeadDecrypt = true) :
    KeysMatch c' g := by
  refine ⟨hp.trans h.phase, fun hnew => ?_, fun hnew => ?_, fun hold => h.old_present (ho hold)⟩
  · exact h.new_absent (hn ▸ hnew)
  · exact h.new_present (hn ▸ hnew)

/-- The new keys are of the next generation. -/
theorem compute (keys : KeyDerivation) :
    KeysMatch (c.computeNewRotatedKeys keys).1 (g.compute c keys) := by
  have hnew : (c.computeNewRotatedKeys keys).1.cryptoContextNew.aeadDecrypt = true ↔
      c.cryptoContextNew.aeadDecrypt = true ∨ c.Derives keys :=
    KeyCnx.computeNewRotatedKeys_decrypt
  have heq := c.computeNewRotatedKeys_eq keys
  rw [Generations.compute]
  split_ifs with hderives
  · have hsecret : g.secret = g.current := h.new_absent hderives.1
    have hpresent := hnew.mpr (Or.inr hderives)
    refine ⟨?_, fun habsent => ?_, fun _ => ⟨?_, ?_⟩, fun hold => ?_⟩
    · rw [heq]
      exact h.phase
    · rw [hpresent] at habsent
      exact absurd habsent Bool.true_eq_false.mp
    · exact congrArg (· + 1) hsecret
    · exact congrArg (· + 1) hsecret
    · rw [heq] at hold
      exact h.old_present hold
  · have hsame : (c.computeNewRotatedKeys keys).1.cryptoContextNew.aeadDecrypt =
        c.cryptoContextNew.aeadDecrypt := by
      rw [Bool.eq_iff_iff, hnew]
      exact or_iff_left hderives
    refine h.of_keys ?_ hsame ?_
    · rw [heq]
    · rw [heq]
      exact id

private theorem startKeyRotation (keys : KeyDerivation) :
    KeysMatch (c.startKeyRotation keys).1 (if c.MayRotate then g.compute c keys else g) := by
  have hcompute := h.compute keys
  rw [KeyCnx.startKeyRotation]
  split_ifs with hmay
  · dsimp only
    split_ifs
    · -- the old keys are freed
      exact hcompute.of_keys rfl rfl fun hold => absurd hold Bool.false_ne_true
    · exact hcompute
  · exact h

private theorem checkHole (x : KeyCnx.PrepareInput) : KeysMatch (c.checkHole x) g := by
  rw [KeyCnx.checkHole, KeyCnx.insertHoleInSendSequenceIfNeeded]
  split_ifs <;> exact h.of_keys rfl rfl id

private theorem rotateIfDue (x : KeyCnx.PrepareInput) :
    KeysMatch (c.rotateIfDue x)
      (if c.RotationDue x.currentTime then
        if c.MayRotate then g.compute c x.keys else g
      else g) := by
  rw [KeyCnx.rotateIfDue]
  split_ifs with hdue hmay
  · have hstart := h.startKeyRotation x.keys
    rwa [if_pos hmay] at hstart
  · have hstart := h.startKeyRotation x.keys
    rwa [if_neg hmay] at hstart
  · exact h

private theorem preparePacketReady (x : KeyCnx.PrepareInput) :
    KeysMatch (c.preparePacketReady x)
      (if (c.checkHole x).RotationDue x.currentTime then
        if (c.checkHole x).MayRotate then g.compute (c.checkHole x) x.keys else g
      else g) := by
  have hrotated := (h.checkHole x).rotateIfDue x
  rw [KeyCnx.preparePacketReady]
  by_cases hsent : x.isSent = true
  · rw [if_pos hsent]
    exact hrotated.of_keys rfl rfl id
  · rw [if_neg hsent]
    exact hrotated

end

/-- A local event computes new keys where it requests a rotation. -/
theorem step_local {r : PhaseCnx} (h : KeysMatch r.cnx r.gens) {e : KeyCnx.Event}
    (he : e.isLocal = true) : KeysMatch (r.cnx.step e) (r.gensAfterLocal e) := by
  have hsame := r.cnx.sameReception_step he
  cases e with
  | setMultipath _ | removePacketProtection _ => exact absurd he (by simp [KeyCnx.Event.isLocal])
  | setCryptoEpochLength _ | leaveReady | endDatagram | recordPnReceived _ _ _
  | processAckOfAckRange _ _ _ => exact h.of_keys rfl rfl id
  | readyTransition limit isSimple =>
    refine h.of_keys hsame.phase ?_ ?_
    · rw [KeyCnx.step, KeyCnx.readyStateTransition]
      split_ifs <;> rfl
    · rw [KeyCnx.step, KeyCnx.readyStateTransition]
      split_ifs <;> exact id
  | preparePacketReady x =>
    rw [PhaseCnx.gensAfterLocal, KeyCnx.request, KeyCnx.step]
    by_cases hready : r.cnx.isReady = true
    · rw [if_pos hready]
      have hprepared := h.preparePacketReady x
      by_cases hdue : (r.cnx.checkHole x).RotationDue x.currentTime
      · rw [if_pos hdue] at hprepared
        rwa [if_pos (show r.cnx.isReady = true ∧ _ from ⟨hready, hdue⟩)]
      · rw [if_neg hdue] at hprepared
        rwa [if_neg (show ¬ (r.cnx.isReady = true ∧ _) from fun hand => hdue hand.2)]
    · rw [if_neg hready, if_neg fun hand => hready hand.1]
      exact h
  | preparePacket cid ptype =>
    rw [KeyCnx.step] at hsame ⊢
    split_ifs at hsame ⊢
    · exact h
    · cases ptype <;> exact h.of_keys rfl rfl id
  | startKeyRotation keys => exact h.startKeyRotation keys
  | acknowledge p =>
    rw [KeyCnx.step]
    split_ifs <;> exact h.of_keys rfl rfl id

/-- A rotation moves the keys on by one generation. -/
theorem acceptNewKeys (h : KeysMatch c g) (hnew : c.cryptoContextNew.aeadDecrypt = true)
    (x : ReceivedPacket) : KeysMatch (c.acceptNewKeys x) g.rotate := by
  obtain ⟨hnext, hsecret⟩ := h.new_present hnew
  have hphase : (c.acceptNewKeys x).keyPhaseDec = !c.keyPhaseDec := by
    rw [KeyCnx.acceptNewKeys]
    split_ifs <;> rfl
  have hused : (c.acceptNewKeys x).cryptoContextNew.aeadDecrypt = false := by
    rw [KeyCnx.acceptNewKeys]
    split_ifs <;> rfl
  refine ⟨?_, fun _ => ?_, fun hpresent => ?_, fun _ => ?_⟩
  · rw [hphase, h.phase, ← decide_not]
    change decide (¬ g.current % 2 = 1) = decide (g.new % 2 = 1)
    exact decide_eq_decide.mpr (by omega)
  · exact hsecret.trans hnext.symm
  · rw [hused] at hpresent
    exact absurd hpresent Bool.false_ne_true
  · exact hnext.symm

/-- What is decrypted with the new keys finds them present. -/
theorem removePacketProtection {r : PhaseCnx} (h : KeysMatch r.cnx r.gens) (x : ReceivedPacket) :
    KeysMatch (r.cnx.removePacketProtection x) (r.gensAfter x) := by
  rw [PhaseCnx.gensAfter]
  by_cases hphase : x.keyPhase = r.cnx.keyPhaseDec
  · rw [KeyCnx.removePacketProtection_of_current hphase, if_pos (Or.inl hphase)]
    split_ifs
    · exact h.of_keys rfl rfl id
    · exact h
  by_cases hold : r.cnx.ClaimsOldKeys x
  · rw [KeyCnx.removePacketProtection_of_old hphase hold, if_pos (Or.inr hold)]
    exact h
  have hcompute := h.compute x.keys
  rw [KeyCnx.removePacketProtection_of_new hphase hold, if_neg (not_or.mpr ⟨hphase, hold⟩),
    KeyCnx.prepareNewKeys_eq]
  split_ifs with hdecrypted
  · refine hcompute.acceptNewKeys ?_ x
    have hready :=
      KeyCnx.prepareNewKeys_ready.mp (KeyCnx.ready_of_isDecrypted hphase hold hdecrypted)
    exact KeyCnx.computeNewRotatedKeys_decrypt.mpr hready
  · exact hcompute

end KeysMatch

/-! ### The numbers of the peer -/

namespace PhaseCnx

/-- The lowest number received with the current keys: it tells a packet of an earlier generation
from one of a later, unless no packet was received since the keys are in use. -/
def Low (r : PhaseCnx) (cid : ℕ) : Prop :=
  r.cnx.rotationSequence cid = 2 ^ 64 - 1 ∨
    (r.cnx.rotationSequence cid = 0 ∧ ∀ p ∈ r.sent, r.cnx.space p.cid = r.cnx.space cid →
      r.gens.current ≤ p.generation) ∨
    ∃ p ∈ r.sent, r.cnx.space p.cid = r.cnx.space cid ∧ p.generation = r.gens.current ∧
      p.pn64 = r.cnx.rotationSequence cid

/-- The invariant of a connection and its peer. -/
structure Inv (r : PhaseCnx) : Prop where
  keys : KeysMatch r.cnx r.gens
  current_le : r.gens.current ≤ r.peerGeneration
  le_next : r.peerGeneration ≤ r.gens.current + 1
  confirmed : r.peerConfirmed = true → r.peerGeneration ≤ r.gens.current
  received_le : ∀ p ∈ r.received, p.generation ≤ r.gens.current
  sent_le : ∀ p ∈ r.sent, p.generation ≤ r.peerGeneration
  sent_created : ∀ p ∈ r.sent, p.cid ∈ r.created
  number_lt : ∀ p ∈ r.sent, p.pn64 < r.peerNext (r.cnx.space p.cid)
  number_lt_max : ∀ p ∈ r.sent, p.pn64 < 2 ^ 62
  ordered : ∀ p ∈ r.sent, ∀ q ∈ r.sent, r.cnx.space p.cid = r.cnx.space q.cid →
    p.generation < q.generation → p.pn64 < q.pn64
  low : ∀ cid, r.Low cid

private theorem inv_init (isMultipathEnabled : Bool) (first : ℕ → ℕ) (cryptoEpochLengthMax : ℕ) :
    (init isMultipathEnabled first cryptoEpochLengthMax).Inv where
  keys := ⟨rfl, fun _ => rfl, fun h => absurd h Bool.false_ne_true,
    fun h => absurd h Bool.false_ne_true⟩
  current_le := Nat.le_refl 0
  le_next := Nat.zero_le 1
  confirmed h := absurd h Bool.false_ne_true
  received_le _ h := absurd h List.not_mem_nil
  sent_le _ h := absurd h List.not_mem_nil
  sent_created _ h := absurd h List.not_mem_nil
  number_lt _ h := absurd h List.not_mem_nil
  number_lt_max _ h := absurd h List.not_mem_nil
  ordered _ h := absurd h List.not_mem_nil
  low _ := Or.inr (Or.inl ⟨rfl, fun _ h => absurd h List.not_mem_nil⟩)

variable {r : PhaseCnx}

/-- Other keys of the same generation, if the reception is the same. -/
theorem Inv.of_reception (h : r.Inv) {c : KeyCnx} {g : Generations}
    (hsame : r.cnx.SameReception c) (hkeys : KeysMatch c g)
    (hcurrent : g.current = r.gens.current) :
    ({ r with cnx := c, gens := g } : PhaseCnx).Inv := by
  have hspace : ∀ cid, c.space cid = r.cnx.space cid := fun cid => by
    rw [KeyCnx.space, KeyCnx.space, hsame.multipath]
  refine { h with
    keys := hkeys
    current_le := hcurrent ▸ h.current_le
    le_next := hcurrent ▸ h.le_next
    confirmed := fun hc => hcurrent ▸ h.confirmed hc
    received_le := fun p hp => hcurrent ▸ h.received_le p hp
    number_lt := fun p hp => ?_
    ordered := fun p hp q hq heq => ?_
    low := fun cid => ?_ }
  · exact (hspace p.cid).symm ▸ h.number_lt p hp
  · exact h.ordered p hp q hq (by rwa [← hspace, ← hspace])
  · have hlow := h.low cid
    simp only [Low] at hlow ⊢
    simp only [hsame.rotationSequence, hspace, hcurrent]
    exact hlow

private theorem current_gensAfterLocal (r : PhaseCnx) (e : KeyCnx.Event) :
    (r.gensAfterLocal e).current = r.gens.current := by
  rw [gensAfterLocal]
  cases r.cnx.request e with
  | none => rfl
  | some request =>
    dsimp only
    split_ifs
    · exact Generations.compute_current _ _ _
    · rfl

private theorem Inv.localEvent (h : r.Inv) {e : KeyCnx.Event} (he : e.isLocal = true) :
    ({ r with cnx := r.cnx.step e, gens := r.gensAfterLocal e } : PhaseCnx).Inv :=
  h.of_reception (r.cnx.sameReception_step he) (h.keys.step_local he) (r.current_gensAfterLocal e)

private theorem Inv.old_label (h : r.Inv) (keys : KeyDerivation)
    (hthere : r.cnx.cryptoContextOld.aeadDecrypt = true) :
    (r.gens.compute r.cnx keys).old + 1 = r.gens.current := by
  have hmatch := (h.keys.compute keys).old_present
  rw [KeyCnx.computeNewRotatedKeys_eq, Generations.compute_current] at hmatch
  exact hmatch hthere

private theorem Inv.new_label (h : r.Inv) {keys : KeyDerivation}
    (hready : r.cnx.cryptoContextNew.aeadDecrypt = true ∨ r.cnx.Derives keys) :
    (r.gens.compute r.cnx keys).new = r.gens.current + 1 := by
  have hpresent := KeyCnx.computeNewRotatedKeys_decrypt.mpr hready
  rw [((h.keys.compute keys).new_present hpresent).1, Generations.compute_current]

/-! ### The peer -/

/-- A new identifier has a blank context, and nothing was sent to it. -/
theorem Inv.createCnxid (h : r.Inv) (cid : ℕ) : (r.createCnxid cid).Inv := by
  rw [PhaseCnx.createCnxid]
  split_ifs with hcreated hmultipath
  · exact h
  · refine { h with
      keys := h.keys.of_keys rfl rfl id
      sent_created := fun p hp => List.mem_cons_of_mem cid (h.sent_created p hp)
      low := fun cid' => ?_ }
    by_cases hcid : r.cnx.space cid' = r.cnx.space cid
    · refine Or.inr (Or.inl ⟨?_, fun p hp hspace => ?_⟩)
      · change ((Function.update r.cnx.ackCtx (r.cnx.space cid) ⟨sackListInit, 0⟩)
          (r.cnx.space cid')).cryptoRotationSequence = 0
        rw [hcid, Function.update_self]
      · have heq : r.cnx.space p.cid = r.cnx.space cid := hspace.trans hcid
        rw [KeyCnx.space, KeyCnx.space, if_pos hmultipath, if_pos hmultipath] at heq
        have hp' := h.sent_created p hp
        rw [Nat.succ.inj heq] at hp'
        exact absurd hp' hcreated
    · have hsequence : ({ r.cnx with
          ackCtx := Function.update r.cnx.ackCtx (r.cnx.space cid) ⟨sackListInit, 0⟩ } :
          KeyCnx).rotationSequence cid' = r.cnx.rotationSequence cid' :=
        congrArg ReceiveContext.cryptoRotationSequence (Function.update_of_ne hcid _ _)
      have hlow := h.low cid'
      rw [Low, ← hsequence] at hlow
      exact hlow
  · exact { h with
      sent_created := fun p hp => List.mem_cons_of_mem cid (h.sent_created p hp) }

/-- The next packet has the largest number of its space and the latest generation. -/
theorem Inv.peerSend (h : r.Inv) (cid skip : ℕ) : (r.peerSend cid skip).Inv := by
  rw [PhaseCnx.peerSend]
  split_ifs with hsend
  · obtain ⟨hcreated, hmax⟩ := hsend
    have hnext : ∀ p ∈ r.sent, r.cnx.space p.cid = r.cnx.space cid →
        p.pn64 < r.peerNext (r.cnx.space cid) := fun p hp hspace => hspace ▸ h.number_lt p hp
    refine { h with
      sent_le := fun p hp => ?_
      sent_created := fun p hp => ?_
      number_lt := fun p hp => ?_
      number_lt_max := fun p hp => ?_
      ordered := fun p hp q hq hspace hlt => ?_
      low := fun cid' => ?_ }
    · obtain rfl | hp := List.mem_cons.mp hp
      · exact Nat.le_refl _
      · exact h.sent_le p hp
    · obtain rfl | hp := List.mem_cons.mp hp
      · exact hcreated
      · exact h.sent_created p hp
    · change p.pn64 < Function.update r.peerNext (r.cnx.space cid) _ (r.cnx.space p.cid)
      obtain rfl | hp := List.mem_cons.mp hp
      · rw [Function.update_self]
        exact Nat.lt_succ_self _
      · by_cases hspace : r.cnx.space p.cid = r.cnx.space cid
        · rw [hspace, Function.update_self]
          have := hnext p hp hspace
          omega
        · rw [Function.update_of_ne hspace]
          exact h.number_lt p hp
    · obtain rfl | hp := List.mem_cons.mp hp
      · exact hmax
      · exact h.number_lt_max p hp
    · obtain rfl | hp := List.mem_cons.mp hp
      · -- no generation is later than the one the peer has
        obtain rfl | hq := List.mem_cons.mp hq
        · exact absurd hlt (Nat.lt_irrefl _)
        · exact absurd hlt (Nat.not_lt_of_le (h.sent_le q hq))
      · obtain rfl | hq := List.mem_cons.mp hq
        · have := hnext p hp hspace
          exact Nat.lt_of_lt_of_le this (Nat.le_add_right _ _)
        · exact h.ordered p hp q hq hspace hlt
    · obtain hmaximal | ⟨hzero, hall⟩ | ⟨p, hp, hlow⟩ := h.low cid'
      · exact Or.inl hmaximal
      · refine Or.inr (Or.inl ⟨hzero, fun p hp hspace => ?_⟩)
        obtain rfl | hp := List.mem_cons.mp hp
        · exact h.current_le
        · exact hall p hp hspace
      · exact Or.inr (Or.inr ⟨p, List.mem_cons_of_mem _ hp, hlow⟩)
  · exact h

/-! ### Received packets -/

/-- If the keys that are tried decrypt the packet, then the peer sent it with them. -/
def Authentic (r : PhaseCnx) (x : ReceivedPacket) : Prop :=
  ∀ use, r.cnx.keysTried x = some use → x.decrypts = true →
    ∃ p ∈ r.sent, p.cid = x.cid ∧ p.pn64 = x.pn64 ∧
      p.generation = (r.gens.compute r.cnx x.keys).of use

private theorem decrypts_arriving {use : KeyUse}
    (htried : r.cnx.keysTried (header p a) = some use) :
    (r.arriving p a).decrypts = true ↔
      (r.gens.compute r.cnx a.keys).of use = p.generation := by
  change r.opens p a = true ↔ _
  rw [opens, htried]
  exact decide_eq_true_iff

private theorem authentic_arriving (hp : p ∈ r.sent) (a : Arrival) :
    r.Authentic (r.arriving p a) := fun _ htried hdecrypts =>
  ⟨p, hp, rfl, rfl, ((decrypts_arriving htried).mp hdecrypts).symm⟩

private theorem authentic_forged (r : PhaseCnx) (x : ReceivedPacket) :
    r.Authentic { x with decrypts := false } := fun _ _ h => absurd h Bool.false_ne_true

private theorem keysTried_of_isDecrypted {c : KeyCnx} (h : c.isDecrypted x = true) :
    ∃ use, c.keysTried x = some use ∧ x.decrypts = true := by
  rw [KeyCnx.isDecrypted, Bool.and_eq_true] at h
  obtain ⟨use, htried⟩ := Option.isSome_iff_exists.mp h.1
  exact ⟨use, htried, h.2⟩

private theorem multipath_removePacketProtection (c : KeyCnx) (x : ReceivedPacket) :
    (c.removePacketProtection x).isMultipathEnabled = c.isMultipathEnabled := by
  by_cases hphase : x.keyPhase = c.keyPhaseDec
  · rw [KeyCnx.removePacketProtection_of_current hphase]
    split_ifs <;> rfl
  by_cases hold : c.ClaimsOldKeys x
  · rw [KeyCnx.removePacketProtection_of_old hphase hold]
  rw [KeyCnx.removePacketProtection_of_new hphase hold, KeyCnx.prepareNewKeys_eq,
    KeyCnx.computeNewRotatedKeys_eq, KeyCnx.acceptNewKeys]
  split_ifs <;> rfl

/-- A packet that lowers the lowest number was protected with the current keys. -/
theorem Inv.lower (h : r.Inv) (hphase : x.keyPhase = r.cnx.keyPhaseDec) (hx : r.Authentic x) :
    (r.removePacketProtection x).Inv := by
  have hgens : r.gensAfter x = r.gens := if_pos (Or.inl hphase)
  rw [PhaseCnx.removePacketProtection, hgens, KeyCnx.removePacketProtection_of_current hphase]
  split_ifs with hlower
  · obtain ⟨p, hp, hcid, hpn, hgeneration⟩ := hx .current (if_pos hphase) hlower.1
    refine { h with
      keys := h.keys.of_keys rfl rfl id
      low := fun cid => ?_ }
    by_cases hspace : r.cnx.space cid = r.cnx.space x.cid
    · refine Or.inr (Or.inr ⟨p, hp, ?_, ?_, ?_⟩)
      · exact (congrArg r.cnx.space hcid).trans hspace.symm
      · exact hgeneration.trans (r.gens.compute_current r.cnx x.keys)
      · change p.pn64 = (Function.update r.cnx.ackCtx (r.cnx.space x.cid) _
          (r.cnx.space cid)).cryptoRotationSequence
        rw [hspace, Function.update_self]
        exact hpn
    · have hlow := h.low cid
      have hsequence : (Function.update r.cnx.ackCtx (r.cnx.space x.cid)
          { r.cnx.ackCtx (r.cnx.space x.cid) with cryptoRotationSequence := x.pn64 }
          (r.cnx.space cid)).cryptoRotationSequence = r.cnx.rotationSequence cid :=
        congrArg ReceiveContext.cryptoRotationSequence (Function.update_of_ne hspace _ _)
      rw [Low, ← hsequence] at hlow
      exact hlow
  · exact h

/-- After a rotation only the identifier of the packet has a lowest number. -/
theorem rotationSequence_acceptNewKeys (c : KeyCnx) (x : ReceivedPacket) (cid : ℕ) :
    (c.acceptNewKeys x).rotationSequence cid =
      if c.space cid = c.space x.cid then x.pn64 else 2 ^ 64 - 1 := by
  have hctx : (c.acceptNewKeys x).rotationSequence cid =
      (if c.space cid = c.space x.cid then
        { c.ackCtx (c.space cid) with cryptoRotationSequence := x.pn64 }
      else if c.isMultipathEnabled = true ∧ c.space cid ≠ 0 then
        { c.ackCtx (c.space cid) with cryptoRotationSequence := 2 ^ 64 - 1 }
      else c.ackCtx (c.space cid)).cryptoRotationSequence := by
    rw [KeyCnx.acceptNewKeys]
    by_cases hsend : c.cryptoContextNew.aeadEncrypt = true
    · rw [if_pos hsend]
      rfl
    · rw [if_neg hsend]
      rfl
  rw [hctx]
  by_cases hspace : c.space cid = c.space x.cid
  · rw [if_pos hspace, if_pos hspace]
  · rw [if_neg hspace, if_neg hspace]
    -- without multipath there is one space
    by_cases hmultipath : c.isMultipathEnabled = true
    · have hne : c.space cid ≠ 0 := by
        rw [KeyCnx.space, if_pos hmultipath]
        exact Nat.succ_ne_zero cid
      rw [if_pos ⟨hmultipath, hne⟩]
    · rw [KeyCnx.space, KeyCnx.space, if_neg hmultipath, if_neg hmultipath] at hspace
      exact absurd rfl hspace

/-- The first packet with the new keys: no later packet of the peer has later ones. -/
theorem Inv.accept (h : r.Inv) (hphase : x.keyPhase ≠ r.cnx.keyPhaseDec)
    (hold : ¬ r.cnx.ClaimsOldKeys x) (hdecrypted : r.cnx.isDecrypted x = true)
    (hx : r.Authentic x) : (r.removePacketProtection x).Inv := by
  have hready := KeyCnx.ready_of_isDecrypted hphase hold hdecrypted
  obtain ⟨-, -, hdecrypts⟩ := keysTried_of_isDecrypted hdecrypted
  obtain ⟨p, hp, hcid, hpn, hgeneration⟩ :=
    hx .new ((KeyCnx.keysTried_of_new hphase hold).trans (if_pos hready)) hdecrypts
  have hnew := h.new_label (KeyCnx.prepareNewKeys_ready.mp hready)
  have hgens : (r.gensAfter x).current = r.gens.current + 1 := by
    rw [gensAfter, if_neg (not_or.mpr ⟨hphase, hold⟩), if_pos hdecrypted]
    exact hnew
  have hmultipath := multipath_removePacketProtection r.cnx x
  have hspace : ∀ cid, (r.cnx.removePacketProtection x).space cid = r.cnx.space cid := fun cid => by
    rw [KeyCnx.space, KeyCnx.space, hmultipath]
  have hlast : r.peerGeneration = r.gens.current + 1 := by
    have hle := h.sent_le p hp
    have hp' : p.generation = r.gens.current + 1 := hgeneration.trans hnew
    have hnext := h.le_next
    omega
  have hle := h.received_le
  rw [PhaseCnx.removePacketProtection]
  refine { h with
    keys := h.keys.removePacketProtection x
    current_le := (hgens.trans hlast.symm).le
    le_next := ?_
    confirmed := fun _ => (hlast.trans hgens.symm).le
    received_le := fun q hq => ?_
    number_lt := fun q hq => ?_
    ordered := fun q hq q' hq' heq => ?_
    low := fun cid => ?_ }
  · rw [hgens, hlast]
    exact Nat.le_succ _
  · rw [hgens]
    exact (hle q hq).trans (Nat.le_succ _)
  · exact (hspace q.cid).symm ▸ h.number_lt q hq
  · exact h.ordered q hq q' hq' (by rwa [← hspace, ← hspace])
  · have hsequence : (r.cnx.removePacketProtection x).rotationSequence cid =
        if r.cnx.space cid = r.cnx.space x.cid then x.pn64 else 2 ^ 64 - 1 := by
      rw [KeyCnx.removePacketProtection_of_new hphase hold, if_pos hdecrypted,
        rotationSequence_acceptNewKeys, KeyCnx.prepareNewKeys_eq, KeyCnx.computeNewRotatedKeys_eq]
      rfl
    simp only [Low, hsequence, hspace, hgens]
    split_ifs with hsame
    · exact Or.inr (Or.inr ⟨p, hp, (congrArg r.cnx.space hcid).trans hsame.symm,
        hgeneration.trans hnew, hpn⟩)
    · exact Or.inl rfl

/-- **A received packet keeps the invariant**, if the protection is ideal. -/
theorem Inv.removePacketProtection (h : r.Inv) (hx : r.Authentic x) :
    (r.removePacketProtection x).Inv := by
  by_cases hphase : x.keyPhase = r.cnx.keyPhaseDec
  · exact h.lower hphase hx
  by_cases hold : r.cnx.ClaimsOldKeys x
  · have hgens : r.gensAfter x = r.gens := if_pos (Or.inr hold)
    rw [PhaseCnx.removePacketProtection, KeyCnx.removePacketProtection_of_old hphase hold, hgens]
    exact h
  by_cases hdecrypted : r.cnx.isDecrypted x = true
  · exact h.accept hphase hold hdecrypted hx
  · -- the new keys may have been computed
    have hgens : r.gensAfter x = r.gens.compute r.cnx x.keys :=
      (if_neg (not_or.mpr ⟨hphase, hold⟩)).trans (if_neg hdecrypted)
    rw [PhaseCnx.removePacketProtection, hgens, KeyCnx.removePacketProtection_of_new hphase hold,
      if_neg hdecrypted, KeyCnx.prepareNewKeys_eq]
    exact h.of_reception (r.cnx.sameReception_computeNewRotatedKeys x.keys)
      (h.keys.compute x.keys) (Generations.compute_current _ _ _)

/-- The generation of a packet that is decrypted is not after the current one then. -/
theorem generation_le_of_isDecrypted (h : r.Inv)
    (hdecrypted : r.cnx.isDecrypted (r.arriving p a) = true) :
    p.generation ≤ (r.gensAfter (r.arriving p a)).current := by
  obtain ⟨use, htried, hdecrypts⟩ := keysTried_of_isDecrypted hdecrypted
  have hgeneration := (decrypts_arriving htried).mp hdecrypts
  have hcompute : (r.gens.compute r.cnx a.keys).current = r.gens.current :=
    Generations.compute_current _ _ _
  have hknown := KeyCnx.keysTried_eq_some htried
  cases use with
  | current =>
    rw [gensAfter, if_pos (Or.inl hknown), ← hgeneration]
    exact hcompute.le
  | old =>
    obtain ⟨hphase, hold, hthere⟩ := hknown
    rw [gensAfter, if_pos (Or.inr hold), ← hgeneration]
    exact (Nat.le_succ _).trans (h.old_label a.keys hthere).le
  | new =>
    rw [gensAfter, if_neg (not_or.mpr hknown), if_pos hdecrypted, ← hgeneration]
    exact Nat.le_refl _

/-! ### Runs -/

/-- **One event keeps the invariant.** -/
theorem Inv.step (h : r.Inv) (e : Event) : (r.step e).Inv := by
  cases e with
  | createCnxid cid => exact h.createCnxid cid
  | peerSend cid skip => exact h.peerSend cid skip
  | peerConfirm =>
    rw [PhaseCnx.step]
    split_ifs with hconfirmed
    · obtain ⟨p, hp, hgeneration⟩ := hconfirmed
      exact { h with confirmed := fun _ => hgeneration ▸ h.received_le p hp }
    · exact h
  | peerUpdate =>
    rw [PhaseCnx.step]
    split_ifs with hconfirmed
    · have hle := h.confirmed hconfirmed
      refine { h with
        current_le := h.current_le.trans (Nat.le_succ _)
        le_next := Nat.succ_le_succ hle
        confirmed := fun hc => absurd hc Bool.false_ne_true
        sent_le := fun p hp => (h.sent_le p hp).trans (Nat.le_succ _) }
    · exact h
  | receive p a =>
    rw [PhaseCnx.step]
    split_ifs with hp
    · have hx := authentic_arriving hp a
      have hinv := h.removePacketProtection hx
      dsimp only
      split_ifs with hdecrypted
      · refine { hinv with received_le := fun q hq => ?_ }
        obtain rfl | hq := List.mem_cons.mp hq
        · exact generation_le_of_isDecrypted h hdecrypted
        · exact hinv.received_le q hq
      · exact hinv
    · exact h
  | forged x => exact h.removePacketProtection (r.authentic_forged x)
  | localEvent e =>
    rw [PhaseCnx.step]
    split_ifs with he
    · exact h.localEvent he
    · exact h

/-! ### The choice of the keys -/

private theorem Inv.phase_iff (h : r.Inv) (p : PeerPacket) (a : Arrival) :
    (header p a).keyPhase = r.cnx.keyPhaseDec ↔ p.generation % 2 = r.gens.current % 2 := by
  rw [h.keys.phase]
  change decide (p.generation % 2 = 1) = decide (r.gens.current % 2 = 1) ↔ _
  rw [decide_eq_decide]
  omega

private theorem decrypts_iff (p : PeerPacket) (a : Arrival) :
    r.Decrypts p a ↔ ∃ use, r.cnx.keysTried (header p a) = some use ∧
      (r.gens.compute r.cnx a.keys).of use = p.generation := by
  constructor
  · intro h
    obtain ⟨use, htried, hdecrypts⟩ := keysTried_of_isDecrypted h
    exact ⟨use, htried, (decrypts_arriving htried).mp hdecrypts⟩
  · rintro ⟨use, htried, hgeneration⟩
    have hdecrypts := (decrypts_arriving htried).mpr hgeneration
    rw [Decrypts, KeyCnx.isDecrypted, hdecrypts, Bool.and_true]
    exact Option.isSome_iff_exists.mpr ⟨use, htried⟩

private theorem Inv.decrypts_current (h : r.Inv) (hp : p.generation = r.gens.current) :
    r.Decrypts p a := by
  refine (decrypts_iff p a).mpr ⟨.current, if_pos ?_, ?_⟩
  · exact (h.phase_iff p a).mpr (by rw [hp])
  · exact (Generations.compute_current _ _ _).trans hp.symm

/-- A packet of the previous generation claims the old keys. -/
theorem Inv.decrypts_old (h : r.Inv) (hp : p ∈ r.sent)
    (hgeneration : p.generation + 1 = r.gens.current)
    (htime : a.currentTime ≤ r.cnx.cryptoRotationTimeGuard) :
    r.Decrypts p a ↔ r.cnx.cryptoContextOld.aeadDecrypt = true := by
  have hphase : (header p a).keyPhase ≠ r.cnx.keyPhaseDec := fun hsame => by
    have := (h.phase_iff p a).mp hsame
    omega
  have hold : r.cnx.ClaimsOldKeys (header p a) := by
    obtain hmaximal | ⟨-, hall⟩ | ⟨q, hq, hspace, hcurrent, hnumber⟩ := h.low p.cid
    · exact Or.inl ⟨hmaximal, htime⟩
    · have := hall p hp rfl
      omega
    · refine Or.inr ?_
      have hlt := h.ordered p hp q hq hspace.symm (by omega)
      exact hnumber ▸ hlt
  have htried : r.cnx.keysTried (header p a) =
      if r.cnx.cryptoContextOld.aeadDecrypt = true then some .old else none :=
    ((if_neg hphase).trans (if_pos hold)).trans (if_neg (Nat.not_lt_of_le htime))
  rw [decrypts_iff, htried]
  split_ifs with hthere
  · refine iff_of_true ⟨.old, rfl, ?_⟩ hthere
    have hlabel := h.old_label a.keys hthere
    change (r.gens.compute r.cnx a.keys).old = p.generation
    omega
  · exact iff_of_false (by rintro ⟨use, htried, -⟩; exact absurd htried (by simp)) hthere

/-- A packet of the next generation is taken for one of an earlier, unless a packet with the current
keys was received. -/
theorem Inv.decrypts_next (h : r.Inv) (hp : p ∈ r.sent)
    (hgeneration : p.generation = r.gens.current + 1) :
    r.Decrypts p a ↔ (r.cnx.cryptoContextNew.aeadDecrypt = true ∨ r.cnx.Derives a.keys) ∧
      r.cnx.rotationSequence p.cid ≠ 2 ^ 64 - 1 := by
  have hphase : (header p a).keyPhase ≠ r.cnx.keyPhaseDec := fun hsame => by
    have := (h.phase_iff p a).mp hsame
    omega
  rw [decrypts_iff]
  by_cases hmaximal : r.cnx.rotationSequence p.cid = 2 ^ 64 - 1
  · -- every packet number is below the largest value
    refine iff_of_false ?_ fun hand => hand.2 hmaximal
    rintro ⟨use, htried, hlabel⟩
    have hmax := h.number_lt_max p hp
    have hold : r.cnx.ClaimsOldKeys (header p a) :=
      Or.inr (hmaximal ▸ (show p.pn64 < 2 ^ 64 - 1 by omega))
    have hknown := KeyCnx.keysTried_eq_some htried
    cases use with
    | current => exact hphase hknown
    | old =>
      have hold' : (r.gens.compute r.cnx a.keys).old + 1 = r.gens.current :=
        h.old_label a.keys hknown.2.2
      change (r.gens.compute r.cnx a.keys).old = p.generation at hlabel
      omega
    | new => exact hknown.2 hold
  · have hold : ¬ r.cnx.ClaimsOldKeys (header p a) := by
      rintro (⟨hmax, -⟩ | hlt)
      · exact hmaximal hmax
      · obtain hmax | ⟨hzero, -⟩ | ⟨q, hq, hspace, hcurrent, hnumber⟩ := h.low p.cid
        · exact hmaximal hmax
        · rw [show (header p a).cid = p.cid from rfl, hzero] at hlt
          exact Nat.not_lt_zero _ hlt
        · have hordered := h.ordered q hq p hp hspace (by omega)
          rw [hnumber] at hordered
          exact absurd hlt (Nat.lt_asymm hordered)
    rw [KeyCnx.keysTried_of_new hphase hold, and_iff_left hmaximal]
    simp only [KeyCnx.prepareNewKeys_ready]
    change (∃ use, (if r.cnx.cryptoContextNew.aeadDecrypt = true ∨ r.cnx.Derives a.keys then
      some KeyUse.new else none) = some use ∧ _) ↔ _
    split_ifs with hready
    · exact iff_of_true ⟨.new, rfl, (h.new_label hready).trans hgeneration.symm⟩ hready
    · exact iff_of_false (by simp) hready

/-- The keys that are tried decrypt exactly the packets whose keys can be told apart. -/
theorem Inv.selectsExactly (h : r.Inv) : r.SelectsExactly where
  decrypts_iff p hp a := by
    rintro (hcurrent | ⟨hprevious, htime⟩ | hnext)
    · refine iff_of_true (h.decrypts_current hcurrent)
        ⟨fun hp' => ?_, fun hp' => ?_, fun hp' => ?_⟩ <;> omega
    · rw [h.decrypts_old hp hprevious htime]
      refine ⟨fun hthere => ⟨fun _ => hthere, fun hp' => ?_, fun hp' => ?_⟩,
        fun hselect => hselect.old hprevious⟩ <;> omega
    · rw [h.decrypts_next hp hnext]
      refine ⟨fun hand => ⟨fun hp' => ?_, fun _ => hand.1, fun _ => hand.2⟩,
        fun hselect => ⟨hselect.derivable hnext, hselect.seen hnext⟩⟩
      omega
  keeps_keys _ hfails := KeyCnx.rotations_removePacketProtection hfails

/-- **Packets are selected exactly** in every state of every run, with one identifier or several,
for any order in which the packets of the peer arrive. -/
theorem packets_selected_exactly (isMultipathEnabled : Bool) (first : ℕ → ℕ)
    (cryptoEpochLengthMax : ℕ) (evs : List Event) :
    (run isMultipathEnabled first cryptoEpochLengthMax evs).SelectsExactly :=
  Inv.selectsExactly <| run_invariant (fun _ e h => h.step e)
    (inv_init isMultipathEnabled first cryptoEpochLengthMax) evs

/-! ### Packets that are not decrypted -/

/-- The packet arrives at this time. -/
def arrivalAt (currentTime : ℕ) : Arrival := ⟨currentTime, 5, .both⟩

/-- The peer sends a packet, which arrives and is acknowledged. -/
def deliver (cid pn64 generation currentTime : ℕ) : List Event :=
  [.peerSend cid 0, .receive ⟨cid, pn64, generation⟩ (arrivalAt currentTime), .peerConfirm]

/-- Two identifiers, of which the second is idle while the peer updates its keys; after its next
update it sends a packet to the second. -/
def idleIdentifier : List Event :=
  [.createCnxid 0, .createCnxid 1] ++ deliver 0 0 0 1 ++ [.peerUpdate] ++ deliver 0 1 1 10 ++
    [.peerUpdate, .peerSend 1 0]

/-- The application starts a rotation as soon as the peer has updated its keys, and the last packet
with the old keys is late. -/
def oldKeysFreed : List Event :=
  [.localEvent (.readyTransition 100 false), .createCnxid 0] ++ deliver 0 0 0 1 ++
    [.localEvent (.recordPnReceived 0 0 1), .peerSend 0 0, .peerUpdate] ++ deliver 0 2 1 10 ++
    [.localEvent (.startKeyRotation .both)]

/-- A packet of the next generation is taken for one of the previous, long after the time guard and
for ever; and the old keys are freed although the time guard says that they are needed. -/
theorem packets_not_selected :
    (¬ (run true (fun _ => 0) 100 idleIdentifier).Selects) ∧
      ¬ (run false (fun _ => 0) 100 oldKeysFreed).Selects := by
  refine ⟨fun h => ?_, fun h => ?_⟩
  · have htimely : (run true (fun _ => 0) 100 idleIdentifier).Timely ⟨1, 0, 2⟩ (arrivalAt 1000) :=
      Or.inr (Or.inr (by decide +kernel))
    exact absurd (h.decrypts ⟨1, 0, 2⟩ (by decide +kernel) (arrivalAt 1000) htimely)
      (by decide +kernel)
  · have htimely : (run false (fun _ => 0) 100 oldKeysFreed).Timely ⟨0, 1, 0⟩ (arrivalAt 12) :=
      Or.inr (Or.inl (by decide +kernel))
    exact absurd (h.decrypts ⟨0, 1, 0⟩ (by decide +kernel) (arrivalAt 12) htimely)
      (by decide +kernel)

end PhaseCnx

end Picoquic
