import Mathlib.Tactic.NormNum
import Picoquic.Path.MtuLimits

/-!
# The law of path MTU discovery

The MTU stays within its limits, probes are as they should be, and the search loses a bounded number
of probes before it starts over.

Every loss of a probe narrows the lengths that are left to try, but the path may have forgotten
other probes that are in flight: it forgets one whenever the MTU is raised. The MTU can be raised
by a few hundred bytes only, so the probes in flight are few, and of each class of lengths only so
many can be lost. A reset forgets a probe as well, and there is no bound on resets: the law needs
that no reset finds a probe in flight.

* **`room`**, **`potential`** — the probes that can still be lost, by three classes of lengths;
* **`step_cases`** — the four kinds of events;
* **`mtu_discovery_law`** — the law, along a run;
* **`mtu_above_peer_limit`**, **`stale_probes_lost`** — what happens without the conditions.
-/

namespace Picoquic

open Runs PathMtu

namespace MtuPath

/-! ### The probes that can still be lost -/

/-- Lengths fall into three classes, and a failure in one of them leaves those below. -/
def probeClass (size : ℕ) : ℕ := if 1500 < size then 2 else if 1400 < size then 1 else 0

theorem probeClass_lt (size : ℕ) : probeClass size < 3 := by
  unfold probeClass
  split_ifs <;> norm_num

/-- The largest number of probes in flight: one that is remembered, and one for each byte that the
MTU was raised by. -/
def probesMax : ℕ := maxPacketSize - 1232 + 1

/-- The largest number of probes that are lost before the search starts over. -/
def lostProbesMax : ℕ := (probesMax + 1) ^ 3 - 1

/-- The number of probes in flight. -/
def probesInFlight (s : MtuPath) : ℕ := s.inFlight.countP (·.isMtuProbe)

/-- The number of probes in flight of a class. -/
def probesOfClass (s : MtuPath) (k : ℕ) : ℕ :=
  s.inFlight.countP fun p => p.isMtuProbe && probeClass p.size == k

/-- A probe of the class can still be sent. -/
def MayProbe (s : MtuPath) (k : ℕ) : Prop :=
  s.mtu.sendMtuMaxTried = 0 ∨
    s.mtu.sendMtu < s.mtu.sendMtuMaxTried ∧ k < probeClass s.mtu.sendMtuMaxTried

instance (s : MtuPath) (k : ℕ) : Decidable (s.MayProbe k) := inferInstanceAs (Decidable (_ ∨ _))

/-- How many probes of the class may be in flight, now or later. -/
def room (s : MtuPath) (k : ℕ) : ℕ := if s.MayProbe k then probesMax else s.probesOfClass k

/-- A bound on the probes that will still be lost: a loss in one class can at worst fill the classes
below it. -/
def potential (s : MtuPath) : ℕ :=
  (probesMax + 1) ^ 2 * s.room 2 + (probesMax + 1) * s.room 1 + s.room 0

/-- **The probes in flight and the lost ones are counted.** Each probe in flight but the last was
forgotten because the MTU was raised. -/
structure Counted (s : MtuPath) : Prop where
  probesInFlight_le :
    s.probesInFlight + maxPacketSize ≤ s.mtu.sendMtu + (maxPacketSize - 1232) +
      s.mtu.mtuProbeSent.toNat
  probesLost_le : s.probesLost + s.potential ≤ lostProbesMax

/-- What an event does that neither sends nor loses a probe and does not start over. -/
structure Calm (s s' : MtuPath) : Prop where
  countP_le : ∀ q : MtuPacket → Bool, (∀ p, q p = true → p.isMtuProbe = true) →
    s'.inFlight.countP q ≤ s.inFlight.countP q
  sendMtu_le : s.mtu.sendMtu ≤ s'.mtu.sendMtu
  maxTried : s'.mtu.sendMtuMaxTried = s.mtu.sendMtuMaxTried ∨
    s'.mtu.sendMtuMaxTried = max s.mtu.sendMtuMaxTried s'.mtu.sendMtu
  /-- The flag is cleared with the probe, or when the MTU is raised. -/
  mtuProbeSent :
    s'.probesInFlight + s.mtu.sendMtu + s.mtu.mtuProbeSent.toNat ≤
      s.probesInFlight + s'.mtu.sendMtu + s'.mtu.mtuProbeSent.toNat
  probe_mem : ∀ p ∈ s'.inFlight, p.isMtuProbe = true → p ∈ s.inFlight
  lastFailed : s'.lastFailed = s.lastFailed
  probesLost : s'.probesLost = s.probesLost

variable {p : MtuPacket} {packetIsPureAck : Bool} {o : ProbeChance}

section Counting

variable {s s' : MtuPath}

theorem probesOfClass_le (s : MtuPath) (k : ℕ) : s.probesOfClass k ≤ s.probesInFlight :=
  List.countP_mono_left fun _ _ h => (Bool.and_eq_true_iff.mp h).1

theorem Counted.probesInFlight_le_max (h : s.Counted) (hmtu : s.mtu.sendMtu ≤ maxPacketSize) :
    s.probesInFlight ≤ probesMax := by
  have hle := h.probesInFlight_le
  have hflag := Bool.toNat_le s.mtu.mtuProbeSent
  unfold probesMax
  omega

section

variable (hle : s.probesInFlight ≤ probesMax)

include hle

theorem room_le (k : ℕ) : s.room k ≤ probesMax := by
  unfold room
  split_ifs
  exacts [le_rfl, (s.probesOfClass_le k).trans hle]

theorem probesOfClass_le_room (k : ℕ) :
    s.probesOfClass k ≤ s.room k := by
  unfold room
  split_ifs
  exacts [(s.probesOfClass_le k).trans hle, le_rfl]

theorem room_mono {k : ℕ} (hmay : s'.MayProbe k → s.MayProbe k)
    (hcount : s'.probesOfClass k ≤ s.probesOfClass k) : s'.room k ≤ s.room k := by
  rcases Decidable.em (s'.MayProbe k) with h | h
  · rw [room, room, if_pos h, if_pos (hmay h)]
  · calc
      s'.room k = s'.probesOfClass k := if_neg h
      _ ≤ s.probesOfClass k := hcount
      _ ≤ s.room k := probesOfClass_le_room hle k

end

theorem potential_mono (h : ∀ k, s'.room k ≤ s.room k) : s'.potential ≤ s.potential :=
  Nat.add_le_add (Nat.add_le_add (Nat.mul_le_mul_left _ (h 2)) (Nat.mul_le_mul_left _ (h 1))) (h 0)

/-- What a class loses outweighs all that can come into the classes below it. -/
theorem potential_lt {k : ℕ} (hk : k < 3) (hmax : ∀ j, s'.room j ≤ probesMax)
    (hlt : s'.room k < s.room k) (hle : ∀ j, k < j → s'.room j ≤ s.room j) :
    s'.potential < s.potential := by
  have heq : ∀ t : MtuPath, t.potential = 93636 * t.room 2 + 306 * t.room 1 + t.room 0 :=
    fun _ => rfl
  have h0 : s'.room 0 ≤ 305 := hmax 0
  have h1 : s'.room 1 ≤ 305 := hmax 1
  rw [heq, heq]
  obtain rfl | rfl | rfl : k = 0 ∨ k = 1 ∨ k = 2 := by omega
  · have hle1 := hle 1 one_pos
    have hle2 := hle 2 two_pos
    omega
  · have hle2 := hle 2 one_lt_two
    omega
  · omega

theorem potential_le (hmax : ∀ j, s.room j ≤ probesMax) : s.potential ≤ lostProbesMax := by
  have heq : s.potential = 93636 * s.room 2 + 306 * s.room 1 + s.room 0 := rfl
  have h0 : s.room 0 ≤ 305 := hmax 0
  have h1 : s.room 1 ≤ 305 := hmax 1
  have h2 : s.room 2 ≤ 305 := hmax 2
  have hlost : lostProbesMax = 28652615 := rfl
  omega

/-- Nothing to try stays nothing to try. -/
theorem Calm.mayProbe (h : s.Calm s') {k : ℕ} (hmay : s'.MayProbe k) : s.MayProbe k := by
  have hle := h.sendMtu_le
  unfold MayProbe at hmay ⊢
  rcases h.maxTried with hmax | hmax
  · rw [hmax] at hmay
    exact hmay.imp_right fun hlt => ⟨hle.trans_lt hlt.1, hlt.2⟩
  · rcases le_total s.mtu.sendMtuMaxTried s'.mtu.sendMtu with hmtu | hmtu
    · rw [max_eq_right hmtu] at hmax
      rcases hmay with hzero | hlt <;> omega
    · rw [max_eq_left hmtu] at hmax
      rw [hmax] at hmay
      exact hmay.imp_right fun hlt => ⟨hle.trans_lt hlt.1, hlt.2⟩

theorem Counted.calm (h : s.Counted) (hmtu : s.mtu.sendMtu ≤ maxPacketSize) (hcalm : s.Calm s') :
    s'.Counted := by
  have hflight := h.probesInFlight_le
  have hsent := hcalm.mtuProbeSent
  refine ⟨by omega, ?_⟩
  rw [hcalm.probesLost]
  have hpotential : s'.potential ≤ s.potential := by
    refine potential_mono fun k => room_mono (h.probesInFlight_le_max hmtu) hcalm.mayProbe ?_
    exact hcalm.countP_le _ fun p hp => (Bool.and_eq_true_iff.mp hp).1
  exact (Nat.add_le_add_left hpotential _).trans h.probesLost_le

theorem Searching.calm (h : s.Searching) (hcalm : s.Calm s') : s'.Searching where
  sendMtu_ge := h.sendMtu_ge.trans hcalm.sendMtu_le
  lastFailed l hl := by
    have hlast := h.lastFailed l (hcalm.lastFailed ▸ hl)
    have hle := hcalm.sendMtu_le
    rcases hcalm.maxTried with hmax | hmax <;> omega
  probe_pos p hp hprobe := h.probe_pos p (hcalm.probe_mem p hp hprobe) hprobe

/-- Nothing happens to the flight and to the search. -/
theorem Calm.of_eq (hmtu : s'.mtu = s.mtu) (hinFlight : s'.inFlight = s.inFlight)
    (hfailed : s'.lastFailed = s.lastFailed) (hlost : s'.probesLost = s.probesLost) :
    s.Calm s' where
  countP_le q _ := by rw [hinFlight]
  sendMtu_le := by rw [hmtu]
  maxTried := by rw [hmtu]; exact .inl rfl
  mtuProbeSent := by rw [probesInFlight, probesInFlight, hmtu, hinFlight]
  probe_mem p hp _ := hinFlight ▸ hp
  lastFailed := hfailed
  probesLost := hlost

/-- A packet leaves the flight; when the flag is cleared the packet is a probe, or the MTU is
raised. -/
theorem Calm.of_erase (hinFlight : s'.inFlight = s.inFlight.erase p)
    (hle : s.mtu.sendMtu ≤ s'.mtu.sendMtu) (htried : s'.mtu.sendMtuMaxTried = s.mtu.sendMtuMaxTried)
    (hsent : s.mtu.sendMtu + s.mtu.mtuProbeSent.toNat ≤
      s'.mtu.sendMtu + s'.mtu.mtuProbeSent.toNat ∨ p ∈ s.inFlight ∧ p.isMtuProbe = true)
    (hfailed : s'.lastFailed = s.lastFailed) (hlost : s'.probesLost = s.probesLost) :
    s.Calm s' where
  countP_le q _ := hinFlight ▸ List.Sublist.countP_le List.erase_sublist
  sendMtu_le := hle
  maxTried := .inl htried
  mtuProbeSent := by
    have hcount : s'.probesInFlight ≤ s.probesInFlight := by
      rw [probesInFlight, hinFlight]
      exact List.Sublist.countP_le List.erase_sublist
    rcases hsent with hsent | ⟨hp, hprobe⟩
    · omega
    · have hone : s'.probesInFlight + 1 = s.probesInFlight := by
        have hpos : 0 < s.inFlight.countP (·.isMtuProbe) := List.countP_pos_iff.mpr ⟨p, hp, hprobe⟩
        rw [probesInFlight, probesInFlight, hinFlight, List.countP_erase, if_pos ⟨hp, hprobe⟩]
        omega
      have hflag := Bool.toNat_le s.mtu.mtuProbeSent
      omega
  probe_mem q hq _ := List.mem_of_mem_erase (hinFlight ▸ hq)
  lastFailed := hfailed
  probesLost := hlost

end Counting

/-! ### The events -/

section Events

variable {c : MtuSetting} {s : MtuPath}

theorem calm_ack (hp : p ∈ s.inFlight) : s.Calm (s.step c (.ack p)) := by
  have hstep : s.step c (.ack p) =
      { s with mtu := s.mtu.recordAck p.size, inFlight := s.inFlight.erase p } := if_pos hp
  rw [hstep]
  rcases lt_trichotomy p.size s.mtu.sendMtu with hlt | heq | hlt
  · have hmtu : s.mtu.recordAck p.size = s.mtu := by simp [recordAck, hlt.ne, hlt.not_gt]
    rw [hmtu]
    exact .of_erase rfl le_rfl rfl (.inl le_rfl) rfl rfl
  · have hmtu : s.mtu.recordAck p.size = { s.mtu with nbMtuLosses := 0 } := if_pos heq
    rw [hmtu]
    exact .of_erase rfl le_rfl rfl (.inl le_rfl) rfl rfl
  · have hmtu : s.mtu.recordAck p.size =
        { s.mtu with sendMtu := p.size, mtuProbeSent := false } := by
      simp [recordAck, hlt, hlt.ne']
    rw [hmtu]
    have hflag := Bool.toNat_le s.mtu.mtuProbeSent
    exact .of_erase rfl hlt.le rfl
      (.inl (show s.mtu.sendMtu + s.mtu.mtuProbeSent.toNat ≤ p.size + 0 by omega)) rfl rfl

theorem calm_spurious (p : MtuPacket) : s.Calm (s.step c (.spurious p)) := by
  rcases Decidable.em (p ∈ s.lost) with hp | hp
  · have hstep : s.step c (.spurious p) =
        { s with mtu := s.mtu.recordSpurious p.size, lost := s.lost.erase p } := if_pos hp
    rw [hstep]
    rcases Decidable.em (s.mtu.sendMtu < p.size) with hlt | hlt
    · have hmtu : s.mtu.recordSpurious p.size =
          { s.mtu with
            sendMtu := p.size
            sendMtuMaxTried := max s.mtu.sendMtuMaxTried p.size
            mtuProbeSent := false } := if_pos hlt
      rw [hmtu]
      have hflag := Bool.toNat_le s.mtu.mtuProbeSent
      refine ⟨fun _ _ => le_rfl, hlt.le, .inr rfl, ?_, fun _ hq _ => hq, rfl, rfl⟩
      show s.probesInFlight + s.mtu.sendMtu + s.mtu.mtuProbeSent.toNat ≤
        s.probesInFlight + p.size + 0
      omega
    · rw [show s.mtu.recordSpurious p.size = s.mtu from if_neg hlt]
      exact .of_eq rfl rfl rfl rfl
  · rw [show s.step c (.spurious p) = s from if_neg hp]
    exact .of_eq rfl rfl rfl rfl

theorem calm_requeue (hp : p ∈ s.inFlight) : s.Calm (s.step c (.requeue p)) := by
  have hstep : s.step c (.requeue p) =
      { s with mtu := s.mtu.copyBeforeRetransmit p true, inFlight := s.inFlight.erase p } :=
    if_pos hp
  rw [hstep]
  rcases Bool.eq_false_or_eq_true p.isMtuProbe with hprobe | hprobe
  · have hmtu : s.mtu.copyBeforeRetransmit p true = { s.mtu with mtuProbeSent := false } :=
      if_pos hprobe
    rw [hmtu]
    exact .of_erase rfl le_rfl rfl (.inr ⟨hp, hprobe⟩) rfl rfl
  · have hmtu : s.mtu.copyBeforeRetransmit p true = s.mtu := by
      simp [copyBeforeRetransmit, hprobe]
    rw [hmtu]
    exact .of_erase rfl le_rfl rfl (.inl le_rfl) rfl rfl

/-- The loss of a packet that is not a probe and does not start the search over. -/
theorem calm_lose (hp : p ∈ s.inFlight) (hprobe : p.isMtuProbe = false)
    (hresets : ¬ s.Resets p packetIsPureAck) : s.Calm (s.lose c p packetIsPureAck) := by
  have hcopy : s.mtu.copyBeforeRetransmit p false = s.mtu := by
    simp [copyBeforeRetransmit, hprobe]
  have hmtu : (s.lose c p packetIsPureAck).mtu = s.mtu ∨
      (s.lose c p packetIsPureAck).mtu = { s.mtu with nbMtuLosses := s.mtu.nbMtuLosses + 1 } := by
    rcases Bool.eq_false_or_eq_true packetIsPureAck with hack | hack
    · left
      simp [lose, hprobe, hack, hcopy]
    · rcases Decidable.em (p.size = s.mtu.sendMtu) with hsize | hsize
      · have hfew : ¬ mtuLossThreshold < s.mtu.nbMtuLosses + 1 := fun hmany =>
          hresets ⟨hp, hprobe, hack, hsize, Nat.lt_succ_iff.mp hmany⟩
        right
        simp [lose, hprobe, hack, hcopy, countLoss, hsize, hfew]
      · left
        simp [lose, hprobe, hack, hcopy, countLoss, hsize]
  have hrest : (s.lose c p packetIsPureAck).inFlight = s.inFlight.erase p ∧
      (s.lose c p packetIsPureAck).lastFailed = s.lastFailed ∧
      (s.lose c p packetIsPureAck).probesLost = s.probesLost := by
    rcases Bool.eq_false_or_eq_true packetIsPureAck with hack | hack
    · simp [lose, hprobe, hack]
    · rw [hack] at hresets ⊢
      simp [lose, hprobe, hresets]
  refine .of_erase hrest.1 ?_ ?_ (.inl ?_) hrest.2.1 hrest.2.2 <;>
    rcases hmtu with hmtu | hmtu <;> rw [hmtu]

/-- **What an event does**: it leaves the search alone, sends a probe, loses one, or starts the
search over. -/
theorem step_cases (c : MtuSetting) (s : MtuPath) (e : MtuEvent) :
    s.Calm (s.step c e) ∨
      (∃ o, s.Probes c o ∧ s.step c e =
        { s with
          mtu := { s.mtu with mtuProbeSent := true }
          inFlight := ⟨s.probeSize c o, true⟩ :: s.inFlight }) ∨
      (∃ p packetIsPureAck, p ∈ s.inFlight ∧ p.isMtuProbe = true ∧
        s.step c e = s.lose c p packetIsPureAck) ∨
      ∃ p packetIsPureAck, e = .lose p packetIsPureAck ∧ s.Resets p packetIsPureAck := by
  have hsame : s.Calm s := .of_eq rfl rfl rfl rfl
  rcases e with n | _ | n | size | o | p | p | ⟨p, packetIsPureAck⟩ | p | p
  · left
    show s.Calm (if _ then _ else _)
    split_ifs
    exacts [.of_eq rfl rfl rfl rfl, hsame]
  · exact .inl (.of_eq rfl rfl rfl rfl)
  · exact .inl (.of_eq rfl rfl rfl rfl)
  · left
    show s.Calm (if _ then _ else _)
    split_ifs
    · refine ⟨fun q hq => ?_, le_rfl, .inl rfl, ?_, fun p hp hprobe => ?_, rfl, rfl⟩
      · have hnot : ¬ q ⟨size, false⟩ = true := fun h => by simpa using hq _ h
        exact (List.countP_cons_of_neg hnot).le
      · exact le_rfl
      · rcases List.mem_cons.mp hp with rfl | hp
        exacts [absurd hprobe (by simp), hp]
    · exact hsame
  · rcases Decidable.em (s.Probes c o) with hgoes | hgoes
    · exact .inr (.inl ⟨o, hgoes, if_pos hgoes⟩)
    · left
      rw [show s.step c (.probe o) = s from if_neg hgoes]
      exact hsame
  · left
    rcases Decidable.em (p ∈ s.inFlight) with hp | hp
    · exact calm_ack hp
    · rw [show s.step c (.ack p) = s from if_neg hp]
      exact hsame
  · exact .inl (calm_spurious p)
  · rcases Decidable.em (p ∈ s.inFlight) with hp | hp
    · have hstep : s.step c (.lose p packetIsPureAck) = s.lose c p packetIsPureAck := if_pos hp
      rcases Bool.eq_false_or_eq_true p.isMtuProbe with hprobe | hprobe
      · exact .inr (.inr (.inl ⟨p, packetIsPureAck, hp, hprobe, hstep⟩))
      · rcases Decidable.em (s.Resets p packetIsPureAck) with hresets | hresets
        · exact .inr (.inr (.inr ⟨p, packetIsPureAck, rfl, hresets⟩))
        · exact .inl (hstep ▸ calm_lose hp hprobe hresets)
    · left
      rw [show s.step c (.lose p packetIsPureAck) = s from if_neg hp]
      exact hsame
  · left
    rcases Decidable.em (p ∈ s.inFlight) with hp | hp
    · exact calm_requeue hp
    · rw [show s.step c (.requeue p) = s from if_neg hp]
      exact hsame
  · exact .inl (.of_erase rfl le_rfl rfl (.inl le_rfl) rfl rfl)

end Events

/-! ### The invariant -/

/-- **The invariant of a path.** -/
structure Inv (c : MtuSetting) (s : MtuPath) : Prop where
  room : 1440 ≤ s.limit c
  buffer : s.sendBufferMax ≤ maxPacketSize ∨
    c.mtuMax ≤ maxPacketSize + c.peerFamily.mtuOverhead
  bounded : s.Bounded (s.limitNow c)
  searching : s.Searching
  counted : s.Counted

section Law

variable {c : MtuSetting} {s : MtuPath}

theorem limit_le (c : MtuSetting) (s : MtuPath) :
    s.limit c ≤ maxPacketSize ∧ (0 < s.remoteMaxPacketSize → s.limit c ≤ s.remoteMaxPacketSize) ∧
      s.limit c ≤ c.configured := by
  refine ⟨min_le_left _ _, fun hpos => ?_, (min_le_right _ _).trans (min_le_right _ _)⟩
  have hor : limitOr s.remoteMaxPacketSize = s.remoteMaxPacketSize := if_neg hpos.ne'
  exact hor ▸ (min_le_right _ _).trans (min_le_left _ _)

section

variable (h : s.Inv c)

include h

theorem Inv.limitNow_le : s.limitNow c ≤ s.limit c := by
  unfold limitNow
  split_ifs
  exacts [le_rfl, h.room]

theorem Inv.le_limitNow : 1440 ≤ s.limitNow c := by
  unfold limitNow
  split_ifs
  exacts [h.room, le_rfl]

theorem Inv.sendMtu_le : s.mtu.sendMtu ≤ maxPacketSize :=
  h.bounded.mtu.1.trans (h.limitNow_le.trans (s.limit_le c).1)

/-- The length of a probe in a state with the invariant. -/
theorem Inv.probeSize_eq (hroomy : c.Roomy) (hgoes : s.Probes c o) :
    s.probeSize c o = min (s.nextProbe c) s.sendBufferMax ∧
      (s.mtuProbe c o).length + o.checksumOverhead = s.probeSize c o ∧
      o.headerLength + 1 + (s.mtuProbe c o).paddingLength + o.checksumOverhead =
        s.probeSize c o := by
  obtain ⟨-, -, htried, hnext, hbuffer⟩ := hgoes.needed
  have hge := h.searching.sendMtu_ge
  refine MtuPath.probeSize_eq (hge.trans (le_min hnext.le hbuffer.le)) ?_
  rcases htried with htried | htried
  · have hle := (nextProbe_le hroomy htried hnext).1
    have hconfigured : max maxPacketSize c.configured < 2 ^ 33 := by
      have hlt := c.mtuMax_lt
      unfold MtuSetting.configured maxPacketSize
      split_ifs <;> omega
    exact hle.trans_lt hconfigured
  · have heq := (nextProbe_lt (c := c) htried).2
    rw [heq]
    split_ifs <;> norm_num

/-- A probe stays within the limits. -/
theorem Inv.probeSize_le (hroomy : c.Roomy) (hgoes : s.Probes c o) :
    s.probeSize c o ≤ s.limit c := by
  obtain ⟨hready, -, htried, hnext, -⟩ := hgoes.needed
  rw [(h.probeSize_eq hroomy hgoes).1]
  rcases htried with htried | htried
  · obtain ⟨hle, hpeer, hconf⟩ := nextProbe_le hroomy htried hnext
    have hbuffer := h.buffer
    -- the packet buffer is respected by the caller, or by the configuration
    have hmin : min (s.nextProbe c) s.sendBufferMax ≤ maxPacketSize := by
      rcases hbuffer with hbuffer | hbuffer
      · exact (min_le_right _ _).trans hbuffer
      · refine (min_le_left _ _).trans (hle.trans (max_le le_rfl ?_))
        unfold MtuSetting.configured
        split_ifs <;> omega
    unfold limit limitOr
    refine le_min hmin (le_min ?_ ?_)
    · split_ifs with hzero
      exacts [hmin, (min_le_left _ _).trans (hpeer (Nat.pos_of_ne_zero hzero))]
    · rcases Nat.eq_zero_or_pos c.mtuMax with hzero | hpos
      · have hconfigured : c.configured = maxPacketSize := if_pos hzero
        exact hconfigured ▸ hmin
      · exact (min_le_left _ _).trans (hconf hpos)
  · have hlt := (nextProbe_lt (c := c) htried).1
    have hlimit := h.bounded.mtu.2.trans h.limitNow_le
    exact (min_le_left _ _).trans (hlt.le.trans hlimit)

/-- A probe is of a class that can still be sent. -/
theorem Inv.mayProbe (hroomy : c.Roomy) (hgoes : s.Probes c o) :
    s.MayProbe (probeClass (s.probeSize c o)) := by
  obtain ⟨-, -, htried, hnext, -⟩ := hgoes.needed
  rcases htried with htried | htried
  · exact .inl htried
  · obtain ⟨hlt, heq⟩ := nextProbe_lt (c := c) htried
    have hsize : s.probeSize c o ≤ s.nextProbe c :=
      (h.probeSize_eq hroomy hgoes).1 ▸ min_le_left _ _
    refine .inr ⟨hnext.trans hlt, ?_⟩
    rw [heq] at hsize
    unfold probeClass
    split_ifs at hsize ⊢ <;> omega

/-- **Probes are as they should be.** -/
theorem Inv.probeFits (hroomy : c.Roomy) (hgoes : s.Probes c o) :
    s.ProbeFits c o := by
  obtain ⟨-, -, htried, hnext, hbuffer⟩ := hgoes.needed
  obtain ⟨hsize, hwhole⟩ := h.probeSize_eq hroomy hgoes
  refine ⟨hsize ▸ lt_min hnext hbuffer, fun l hl => ?_,
    ⟨(h.probeSize_le hroomy hgoes).trans (s.limit_le c).1, hsize ▸ min_le_right _ _⟩, hwhole⟩
  obtain ⟨hne, hlast⟩ := h.searching.lastFailed l hl
  have hlt := (nextProbe_lt (c := c) (htried.resolve_left hne)).1
  have hle : s.probeSize c o ≤ s.nextProbe c := hsize ▸ min_le_left _ _
  rcases hlast with hlast | hlast <;> omega

end

/-! ### One step -/

/-- A probe is sent: its class had room. -/
theorem Counted.probe (h : s.Counted) {size : ℕ}
    (hsent : s.mtu.mtuProbeSent = false) (hmay : s.MayProbe (probeClass size)) :
    Counted { s with
      mtu := { s.mtu with mtuProbeSent := true }
      inFlight := ⟨size, true⟩ :: s.inFlight } where
  probesInFlight_le := by
    have hflight := h.probesInFlight_le
    have hcons : (⟨size, true⟩ :: s.inFlight).countP (·.isMtuProbe) = s.probesInFlight + 1 :=
      List.countP_cons_of_pos rfl
    rw [hsent] at hflight
    show (⟨size, true⟩ :: s.inFlight).countP (·.isMtuProbe) + maxPacketSize ≤
      s.mtu.sendMtu + (maxPacketSize - 1232) + 1
    rw [hcons]
    change s.probesInFlight + maxPacketSize ≤ s.mtu.sendMtu + (maxPacketSize - 1232) + 0 at hflight
    omega
  probesLost_le := by
    refine (Nat.add_le_add_left (potential_mono fun k => ?_) _).trans h.probesLost_le
    rcases Decidable.em (s.MayProbe k) with hk | hk
    · rw [room, room, if_pos hk]
      exact (if_pos hk).le
    · have hclass : ¬ (probeClass size == k) = true := fun heq => hk (beq_iff_eq.mp heq ▸ hmay)
      rw [room, room, if_neg hk]
      refine (if_neg hk).le.trans ?_
      exact (List.countP_cons_of_neg (by simpa using hclass)).le

/-- A probe is lost: its class loses one, and the classes above it are closed. -/
theorem Counted.lose (h : s.Counted) (hle : s.probesInFlight ≤ probesMax) (hp : p ∈ s.inFlight)
    (hprobe : p.isMtuProbe = true) (hpos : 0 < p.size) (packetIsPureAck : Bool) :
    (s.lose c p packetIsPureAck).Counted := by
  have hlose : s.lose c p packetIsPureAck =
      { s with
        mtu := { s.mtu with mtuProbeSent := false, sendMtuMaxTried := p.size }
        inFlight := s.inFlight.erase p
        lost := p :: s.lost
        lastFailed := some p.size
        probesLost := s.probesLost + 1 } := by
    simp [MtuPath.lose, copyBeforeRetransmit, hprobe]
  have hclass : ∀ k, (s.lose c p packetIsPureAck).probesOfClass k =
      s.probesOfClass k - if probeClass p.size = k then 1 else 0 := by
    intro k
    rw [hlose]
    show (s.inFlight.erase p).countP _ = _
    rw [List.countP_erase]
    simp [probesOfClass, hp, hprobe]
  have hmay : ∀ k, (s.lose c p packetIsPureAck).MayProbe k → k < probeClass p.size := by
    intro k hk
    rw [hlose] at hk
    exact (hk.resolve_left hpos.ne').2
  have hinFlight : (s.lose c p packetIsPureAck).probesInFlight + 1 = s.probesInFlight := by
    have hcount : 0 < s.inFlight.countP (·.isMtuProbe) := List.countP_pos_iff.mpr ⟨p, hp, hprobe⟩
    rw [hlose]
    show (s.inFlight.erase p).countP _ + 1 = s.inFlight.countP _
    rw [List.countP_erase, if_pos ⟨hp, hprobe⟩]
    omega
  -- the rooms of the three classes
  have hself : 0 < s.probesOfClass (probeClass p.size) :=
    List.countP_pos_iff.mpr ⟨p, hp, by simp [hprobe]⟩
  have hbelow : ∀ k, (s.lose c p packetIsPureAck).room k ≤ probesMax := room_le (by omega)
  have hroom : ∀ k, probeClass p.size ≤ k → (s.lose c p packetIsPureAck).room k =
      s.probesOfClass k - if probeClass p.size = k then 1 else 0 := by
    intro k hk
    rw [room, if_neg fun hmay' => (hmay k hmay').not_ge hk, hclass]
  have hlt : (s.lose c p packetIsPureAck).room (probeClass p.size) <
      s.room (probeClass p.size) := by
    have hle' := probesOfClass_le_room hle (probeClass p.size)
    rw [hroom _ le_rfl, if_pos rfl]
    omega
  have habove : ∀ k, probeClass p.size < k →
      (s.lose c p packetIsPureAck).room k ≤ s.room k := by
    intro k hk
    rw [hroom k hk.le, if_neg hk.ne]
    exact probesOfClass_le_room hle k
  refine ⟨?_, ?_⟩
  · have hflight := h.probesInFlight_le
    have hflag := Bool.toNat_le s.mtu.mtuProbeSent
    rw [hlose] at hinFlight ⊢
    show _ + maxPacketSize ≤ s.mtu.sendMtu + (maxPacketSize - 1232) + 0
    omega
  · have hlost : (s.lose c p packetIsPureAck).probesLost = s.probesLost + 1 := by rw [hlose]
    have hpotential := potential_lt (probeClass_lt p.size) hbelow hlt habove
    have hbound := h.probesLost_le
    omega

/-- What a reset makes of a path. -/
theorem Resets.step_eq (h : s.Resets p packetIsPureAck) :
    s.step c (.lose p packetIsPureAck) =
      { s with
        mtu := ⟨c.peerFamily.initialMtu, 0, s.mtu.nbMtuLosses + 1, false⟩
        inFlight := s.inFlight.erase p
        lost := p :: s.lost
        lastFailed := none
        probesLost := 0 } := by
  have hresets := h
  obtain ⟨hp, hprobe, hack, hsize, hmany⟩ := h
  rw [hack] at hresets ⊢
  simp [step, hp, MtuPath.lose, copyBeforeRetransmit, hprobe, hresets, countLoss,
    hsize, Nat.lt_succ_iff.mpr hmany, resetPathMtu]

/-- A reset with no probe in flight starts the count over. -/
theorem Resets.start_over (h : s.Resets p packetIsPureAck)
    (hnone : ∀ q ∈ s.inFlight, q.isMtuProbe = false) :
    (s.step c (.lose p packetIsPureAck)).Searching ∧
      (s.step c (.lose p packetIsPureAck)).Counted := by
  have hinitial := c.peerFamily.le_initialMtu
  rw [h.step_eq]
  have hleft : ∀ q ∈ s.inFlight.erase p, q.isMtuProbe = false :=
    fun q hq => hnone q (List.mem_of_mem_erase hq)
  have hzero : (s.inFlight.erase p).countP (·.isMtuProbe) = 0 := by
    refine List.countP_eq_zero.mpr fun q hq => ?_
    simp [hleft q hq]
  refine ⟨⟨hinitial.1, fun l hl => (nomatch hl), fun q hq hq' => ?_⟩, ⟨?_, ?_⟩⟩
  · rw [hleft q hq] at hq'
    cases hq'
  · show (s.inFlight.erase p).countP _ + 1536 ≤ c.peerFamily.initialMtu + (1536 - 1232) + 0
    omega
  · refine (Nat.zero_add _).le.trans (potential_le (room_le ?_))
    exact hzero.le.trans (Nat.zero_le _)

theorem lose_frame (c : MtuSetting) (s : MtuPath) (p : MtuPacket) (packetIsPureAck : Bool) :
    (s.lose c p packetIsPureAck).remoteMaxPacketSize = s.remoteMaxPacketSize ∧
      (s.lose c p packetIsPureAck).isReady = s.isReady ∧
      (s.lose c p packetIsPureAck).sendBufferMax = s.sendBufferMax := by
  unfold lose
  split_ifs <;> exact ⟨rfl, rfl, rfl⟩

/-- Only three events are about the connection. -/
theorem step_frame (c : MtuSetting) (s : MtuPath) (e : MtuEvent) :
    ((s.step c e).remoteMaxPacketSize = s.remoteMaxPacketSize ∧
      (s.step c e).isReady = s.isReady ∧ (s.step c e).sendBufferMax = s.sendBufferMax) ∨
    (∃ n, e = .receiveTransportParameters n) ∨ e = .becomeReady ∨ ∃ n, e = .prepare n := by
  have hite : ∀ {q : Prop} [Decidable q] {t : MtuPath},
      (t.remoteMaxPacketSize = s.remoteMaxPacketSize ∧ t.isReady = s.isReady ∧
        t.sendBufferMax = s.sendBufferMax) →
      (if q then t else s).remoteMaxPacketSize = s.remoteMaxPacketSize ∧
        (if q then t else s).isReady = s.isReady ∧
        (if q then t else s).sendBufferMax = s.sendBufferMax := by
    intro q _ t ht
    split_ifs
    exacts [ht, ⟨rfl, rfl, rfl⟩]
  rcases e with n | _ | n | size | o | p | p | ⟨p, packetIsPureAck⟩ | p | p
  · exact .inr (.inl ⟨n, rfl⟩)
  · exact .inr (.inr (.inl rfl))
  · exact .inr (.inr (.inr ⟨n, rfl⟩))
  · exact .inl (hite ⟨rfl, rfl, rfl⟩)
  · exact .inl (hite ⟨rfl, rfl, rfl⟩)
  · exact .inl (hite ⟨rfl, rfl, rfl⟩)
  · exact .inl (hite ⟨rfl, rfl, rfl⟩)
  · exact .inl (hite (lose_frame c s p packetIsPureAck))
  · exact .inl (hite ⟨rfl, rfl, rfl⟩)
  · exact .inl ⟨rfl, rfl, rfl⟩

/-- The limits only change during the handshake, and leave room for the MTU of a new path. -/
theorem Inv.step_limit (h : s.Inv c) {e : MtuEvent} (hsafe : s.Safe c e) :
    1440 ≤ (s.step c e).limit c ∧ s.limitNow c ≤ (s.step c e).limitNow c := by
  rcases step_frame c s e with ⟨hremote, hready, -⟩ | ⟨n, rfl⟩ | rfl | ⟨n, rfl⟩
  · have hlimit : (s.step c e).limit c = s.limit c := by rw [limit, limit, hremote]
    have hnow : (s.step c e).limitNow c = s.limitNow c := by
      rw [limitNow, limitNow, hlimit, hready]
    exact ⟨hlimit ▸ h.room, hnow.ge⟩
  · show 1440 ≤ (if _ then _ else _ : MtuPath).limit c ∧
      s.limitNow c ≤ (if _ then _ else _ : MtuPath).limitNow c
    split_ifs with hn
    · have hconfigured := h.room.trans (s.limit_le c).2.2
      have hor : 1440 ≤ limitOr n := by
        unfold limitOr
        split_ifs with hzero
        exacts [by decide, (show n = 0 ∨ 1440 ≤ n from hsafe).resolve_left hzero]
      refine ⟨le_min (by decide) (le_min hor hconfigured), ?_⟩
      unfold limitNow
      simp [hn.1]
    · exact ⟨h.room, le_rfl⟩
  · exact ⟨h.room, h.limitNow_le⟩
  · exact ⟨h.room, le_rfl⟩

/-- **Step.** An event that meets the condition keeps the invariant. -/
theorem Inv.step (hroomy : c.Roomy) {e : MtuEvent} (h : s.Inv c) (hsafe : s.Safe c e) :
    (s.step c e).Inv c := by
  obtain ⟨hroom, hnow⟩ := h.step_limit hsafe
  have hbuffer : (s.step c e).sendBufferMax ≤ maxPacketSize ∨
      c.mtuMax ≤ maxPacketSize + c.peerFamily.mtuOverhead := by
    rcases step_frame c s e with ⟨-, -, hsame⟩ | ⟨n, rfl⟩ | rfl | ⟨n, rfl⟩
    · exact hsame ▸ h.buffer
    · show (if _ then _ else _ : MtuPath).sendBufferMax ≤ maxPacketSize ∨ _
      split_ifs
      exacts [h.buffer, h.buffer]
    · exact h.buffer
    · exact hsafe
  have hbounded : (s.step c e).Bounded ((s.step c e).limitNow c) := by
    refine (h.bounded.step ((by norm_num : 1252 ≤ 1440).trans h.le_limitNow) e ?_).mono hnow
    intro o hgoes
    have hready : s.limitNow c = s.limit c := if_pos hgoes.needed.1
    exact hready ▸ h.probeSize_le hroomy hgoes
  have hflight := h.counted.probesInFlight_le_max h.sendMtu_le
  have hsearch : (s.step c e).Searching ∧ (s.step c e).Counted := by
    rcases step_cases c s e with hcalm | ⟨o, hgoes, hstep⟩ |
      ⟨p, packetIsPureAck, hp, hprobe, hstep⟩ | ⟨p, packetIsPureAck, rfl, hresets⟩
    · exact ⟨h.searching.calm hcalm, h.counted.calm h.sendMtu_le hcalm⟩
    · have hlonger := (h.probeFits hroomy hgoes).longer
      rw [hstep]
      refine ⟨⟨h.searching.sendMtu_ge, h.searching.lastFailed, fun q hq hprobe => ?_⟩,
        h.counted.probe hgoes.needed.2.1 (h.mayProbe hroomy hgoes)⟩
      rcases List.mem_cons.mp hq with rfl | hq
      · exact (Nat.zero_le _).trans_lt hlonger
      · exact h.searching.probe_pos q hq hprobe
    · have hpos := h.searching.probe_pos p hp hprobe
      rw [hstep]
      refine ⟨⟨?_, fun l hl => ?_, fun q hq hq' => ?_⟩,
        h.counted.lose hflight hp hprobe hpos packetIsPureAck⟩
      all_goals simp only [lose, copyBeforeRetransmit, hprobe, if_true] at *
      · exact h.searching.sendMtu_ge
      · obtain rfl := Option.some.inj hl
        exact ⟨hpos.ne', .inl le_rfl⟩
      · exact h.searching.probe_pos q (List.mem_of_mem_erase hq) hq'
    · exact hresets.start_over (hsafe hresets)
  exact ⟨hroom, hbuffer, hbounded, hsearch.1, hsearch.2⟩

theorem inv_create (hroomy : c.Roomy) : (create c).Inv c where
  room := by
    have hconfigured : 1440 ≤ c.configured := by
      unfold MtuSetting.configured
      unfold MtuSetting.Roomy at hroomy
      split_ifs
      · decide
      · omega
    exact le_min (by decide) (le_min (show 1440 ≤ maxPacketSize by decide) hconfigured)
  buffer := .inl (Nat.zero_le _)
  bounded := ⟨⟨le_rfl, Nat.zero_le _⟩, Nat.zero_le _, by simp [create], by simp [create]⟩
  searching := ⟨show 1232 ≤ 1440 by decide, fun _ hl => (nomatch hl), by simp [create]⟩
  counted := by
    have hzero : (create c).probesInFlight = 0 := rfl
    refine ⟨?_, ?_⟩
    · rw [hzero]
      show 0 + 1536 ≤ 1440 + (1536 - 1232) + 0
      omega
    · show 0 + (create c).potential ≤ lostProbesMax
      rw [Nat.zero_add]
      exact potential_le (room_le (hzero ▸ Nat.zero_le _))

/-- **The law**: the MTU is within the limits, probes are as they should be, and few are lost
before the search starts over. -/
structure Lawful (c : MtuSetting) (s : MtuPath) : Prop where
  peer : 0 < s.remoteMaxPacketSize → s.mtu.sendMtu ≤ s.remoteMaxPacketSize
  configuration : 0 < c.mtuMax → s.mtu.sendMtu + c.peerFamily.mtuOverhead ≤ c.mtuMax
  packetBuffer : s.mtu.sendMtu ≤ maxPacketSize
  probes : ∀ o, s.Probes c o → s.ProbeFits c o
  probesLost_le : s.probesLost ≤ lostProbesMax

theorem Inv.lawful (h : s.Inv c) (hroomy : c.Roomy) : s.Lawful c := by
  have hle := h.bounded.mtu.1.trans h.limitNow_le
  obtain ⟨hbuffer, hpeer, hconfigured⟩ := s.limit_le c
  refine ⟨fun hpos => hle.trans (hpeer hpos), fun hpos => ?_, hle.trans hbuffer,
    fun o hgoes => h.probeFits hroomy hgoes, (Nat.le_add_right _ _).trans h.counted.probesLost_le⟩
  have hroom : 1440 + c.peerFamily.mtuOverhead ≤ c.mtuMax := hroomy.resolve_left hpos.ne'
  have heq : c.configured = c.mtuMax - c.peerFamily.mtuOverhead := if_neg hpos.ne'
  omega

end Law

/-- **Path MTU discovery.** When the limits leave room for 1440 bytes, the packet buffer is
respected by the caller or by the configuration, and no reset finds a probe in flight, every state
of a path is lawful. -/
theorem mtu_discovery_law (c : MtuSetting) (hroomy : c.Roomy) (evs : List MtuEvent)
    (hevs : Along (step c) (Safe c) (create c) evs) :
    (run (step c) (create c) evs).Lawful c := by
  have hinv : (run (step c) (create c) evs).Inv c :=
    run_invariant_of_along (fun s _ h hsafe => h.step hroomy hsafe) (inv_create hroomy) hevs
  exact hinv.lawful hroomy

/-- An occasion for a probe that is wanted at once. -/
def wanted : ProbeChance := ⟨.required, 0, 8, 2, 16, by decide, by decide, by decide⟩

/-- A path that nothing is configured for. -/
def plain : MtuSetting := ⟨0, .inet, by decide⟩

/-- The probe of the peer's limit of 1500 bytes is lost. -/
theorem mtu_discovery_law_sample :
    let evs : List MtuEvent := [.receiveTransportParameters 1500, .becomeReady, .prepare 1536,
      .probe wanted, .lose ⟨1500, true⟩ true]
    (run (step plain) (create plain) evs).probesLost = 1 ∧
      (run (step plain) (create plain) evs).Lawful plain := by
  intro evs
  exact ⟨by decide, mtu_discovery_law plain (by decide) evs (by decide)⟩

/-- The peer takes packets of 1200 bytes, and the path starts with an MTU of 1440. -/
theorem mtu_above_peer_limit :
    ¬ (run (step plain) (create plain) [.receiveTransportParameters 1200]).Lawful plain := by
  intro h
  have hle : (1440 : ℕ) ≤ 1200 := h.peer (by decide)
  omega

/-! ### Resets that forget a probe -/

section Stale

/-- A packet of the MTU after a reset, and the probe that follows it. -/
def small : MtuPacket := ⟨1252, false⟩
def large : MtuPacket := ⟨1440, true⟩

/-- After many losses: `k` forgotten probes and `m` small packets are in flight, and the next loss
of a small packet resets the MTU. -/
structure Stale (k m : ℕ) (s : MtuPath) : Prop where
  sendMtu : s.mtu.sendMtu = 1252
  maxTried : s.mtu.sendMtuMaxTried = 0
  nbMtuLosses : mtuLossThreshold ≤ s.mtu.nbMtuLosses
  mtuProbeSent : s.mtu.mtuProbeSent = false
  connection : s.remoteMaxPacketSize = 0 ∧ s.isReady = true ∧ s.sendBufferMax = 1536
  inFlight : s.inFlight = List.replicate k large ++ List.replicate m small
  probesLost : s.probesLost = 0

variable {s : MtuPath} {k m : ℕ}

/-- A probe is sent, and the loss of a small packet makes the path forget it. -/
theorem Stale.forget (h : s.Stale k (m + 1)) :
    (run (step plain) s [.probe wanted, .lose small false]).Stale (k + 1) m := by
  obtain ⟨hremote, hready, hbuffer⟩ := h.connection
  have hnext : nextMtuProbeLength plain s.mtu s.remoteMaxPacketSize = 1440 := by
    rw [nextMtuProbeLength, if_pos h.maxTried, hremote]
    rfl
  have hgoes : s.Probes plain wanted := by
    refine ⟨?_, by rw [h.sendMtu, hbuffer]; decide⟩
    rw [isMtuProbeNeeded, hnext, if_pos ⟨hready, h.mtuProbeSent, by decide, .inl h.maxTried,
      by rw [h.sendMtu]; decide⟩, if_pos (show wanted.pmtudPolicy = .required from rfl)]
    decide
  have hsize : s.probeSize plain wanted = 1440 := by
    rw [probeSize, mtuProbe, prepareMtuProbe, hnext, hbuffer]
    decide
  have hprobe : step plain s (.probe wanted) =
      { s with mtu := { s.mtu with mtuProbeSent := true }, inFlight := large :: s.inFlight } := by
    rw [large, ← hsize]
    exact if_pos hgoes
  have hnot : small ∉ large :: List.replicate k large := fun hin =>
    absurd (List.eq_of_mem_replicate (n := k + 1) hin) (by decide)
  have herase : (large :: s.inFlight).erase small =
      List.replicate (k + 1) large ++ List.replicate m small := by
    rw [h.inFlight, ← List.cons_append, List.erase_append_right _ hnot,
      List.replicate_succ (n := m), List.erase_cons_head]
    rfl
  have hresets : Resets { s with
      mtu := { s.mtu with mtuProbeSent := true }, inFlight := large :: s.inFlight } small false :=
    ⟨by rw [h.inFlight]; simp [List.replicate_succ], rfl, rfl, h.sendMtu.symm, h.nbMtuLosses⟩
  rw [run_cons, run_cons, run_nil, hprobe, hresets.step_eq]
  exact ⟨rfl, rfl, h.nbMtuLosses.trans (Nat.le_succ _), rfl, h.connection, herase, rfl⟩

/-- Every forgotten probe can still be lost. -/
theorem Stale.lose (h : s.Stale k 0) :
    (run (step plain) s (List.replicate k (.lose large true))).probesLost = k := by
  have hlost : ∀ (n : ℕ) (t : MtuPath), t.inFlight = List.replicate n large →
      (run (step plain) t (List.replicate n (.lose large true))).probesLost = t.probesLost + n := by
    intro n
    induction n with
    | zero => intro t _; rfl
    | succ n ih =>
      intro t ht
      have hmem : large ∈ t.inFlight := by rw [ht]; simp
      have hstep : step plain t (.lose large true) = t.lose plain large true := if_pos hmem
      have herase : (t.lose plain large true).inFlight = List.replicate n large := by
        show t.inFlight.erase large = _
        rw [ht, List.replicate_succ, List.erase_cons_head]
      rw [List.replicate_succ, run_cons, hstep, ih _ herase]
      show t.probesLost + 1 + n = _
      omega
  have hinFlight : s.inFlight = List.replicate k large := by rw [h.inFlight]; simp
  rw [hlost k s hinFlight, h.probesLost, Nat.zero_add]

/-- The resets one after the other. -/
theorem Stale.forget_all (h : s.Stale k m) : ∃ evs, (run (step plain) s evs).Stale (k + m) 0 := by
  induction m generalizing s k with
  | zero => exact ⟨[], h⟩
  | succ m ih =>
    obtain ⟨evs, hevs⟩ := ih h.forget
    refine ⟨[.probe wanted, .lose small false] ++ evs, ?_⟩
    rw [run_append]
    exact (by omega : k + 1 + m = k + (m + 1)) ▸ hevs

/-- Before the first reset: `j` packets of the MTU were lost, and small packets are in flight. -/
structure Losing (j n : ℕ) (s : MtuPath) : Prop where
  sendMtu : s.mtu.sendMtu = 1440
  maxTried : s.mtu.sendMtuMaxTried = 0
  nbMtuLosses : s.mtu.nbMtuLosses = j
  mtuProbeSent : s.mtu.mtuProbeSent = false
  connection : s.remoteMaxPacketSize = 0 ∧ s.isReady = true ∧ s.sendBufferMax = 1536
  sendBufferMinMax : s.sendBufferMinMax = 1440
  inFlight : s.inFlight = List.replicate n small
  lastFailed : s.lastFailed = none
  probesLost : s.probesLost = 0

/-- A packet of the MTU that is sent and lost. -/
def medium : MtuPacket := ⟨1440, false⟩

theorem Losing.send {j n size : ℕ} (h : s.Losing j n) (hsize : size ≤ 1440) :
    step plain s (.send size) = { s with inFlight := ⟨size, false⟩ :: s.inFlight } :=
  if_pos (hsize.trans h.sendBufferMinMax.ge)

theorem Losing.next {j n : ℕ} (h : s.Losing j n) (hj : j < mtuLossThreshold) :
    (run (step plain) s [.send 1440, .lose medium false]).Losing (j + 1) n := by
  have hresets : ¬ Resets { s with inFlight := medium :: s.inFlight } medium false :=
    fun hresets => (h.nbMtuLosses ▸ hresets.2.2.2.2 : mtuLossThreshold ≤ j).not_gt hj
  have hfew : ¬ mtuLossThreshold < j + 1 := by omega
  have hlose : step plain { s with inFlight := medium :: s.inFlight } (.lose medium false) =
      { s with
        mtu := { s.mtu with nbMtuLosses := j + 1 }
        lost := medium :: s.lost } := by
    have hsize : medium.size = s.mtu.sendMtu := h.sendMtu.symm
    have hprobe : medium.isMtuProbe = false := rfl
    simp [step, MtuPath.lose, copyBeforeRetransmit, hprobe, hresets, countLoss,
      hsize, h.nbMtuLosses, hfew]
  rw [run_cons, run_cons, run_nil, h.send le_rfl]
  refine (congrArg (Losing (j + 1) n) hlose).mpr ?_
  exact ⟨h.sendMtu, h.maxTried, rfl, h.mtuProbeSent, h.connection, h.sendBufferMinMax, h.inFlight,
    h.lastFailed, h.probesLost⟩

theorem Losing.reset {n : ℕ} (h : s.Losing mtuLossThreshold n) :
    (run (step plain) s [.send 1440, .lose medium false]).Stale 0 n := by
  have hresets : Resets { s with inFlight := medium :: s.inFlight } medium false :=
    ⟨List.mem_cons_self, rfl, rfl, h.sendMtu.symm, h.nbMtuLosses.ge⟩
  rw [run_cons, run_cons, run_nil, h.send le_rfl]
  refine (congrArg (Stale 0 n) hresets.step_eq).mpr ?_
  refine ⟨rfl, rfl, h.nbMtuLosses.ge.trans (Nat.le_succ _), rfl, h.connection, ?_, rfl⟩
  show (medium :: s.inFlight).erase medium = _
  rw [List.erase_cons_head, h.inFlight]
  rfl

theorem losing_start (n : ℕ) : ∃ evs, (run (step plain) (create plain) evs).Losing 0 n := by
  refine ⟨[.becomeReady, .prepare 1536] ++ List.replicate n (.send 1252), ?_⟩
  induction n with
  | zero => exact ⟨rfl, rfl, rfl, rfl, ⟨rfl, rfl, rfl⟩, rfl, rfl, rfl, rfl⟩
  | succ n ih =>
    rw [List.replicate_succ', ← List.append_assoc, run_append, run_cons, run_nil,
      ih.send (by norm_num)]
    exact ⟨ih.sendMtu, ih.maxTried, ih.nbMtuLosses, ih.mtuProbeSent, ih.connection,
      ih.sendBufferMinMax, by rw [ih.inFlight]; rfl, ih.lastFailed, ih.probesLost⟩

/-- A path where many packets were lost: the first reset comes with `n` small packets in flight. -/
theorem stale_start (n : ℕ) : ∃ evs, (run (step plain) (create plain) evs).Stale 0 n := by
  have hlosing : ∀ j ≤ mtuLossThreshold,
      ∃ evs, (run (step plain) (create plain) evs).Losing j n := by
    intro j
    induction j with
    | zero => exact fun _ => losing_start n
    | succ j ih =>
      intro hj
      obtain ⟨evs, hevs⟩ := ih (Nat.le_of_succ_le hj)
      exact ⟨evs ++ [.send 1440, .lose medium false], run_append _ evs _ ▸ hevs.next hj⟩
  obtain ⟨evs, hevs⟩ := hlosing mtuLossThreshold le_rfl
  exact ⟨evs ++ [.send 1440, .lose medium false], run_append _ evs _ ▸ hevs.reset⟩

/-- **Without the condition on resets no number is enough**: after `n` resets that each find a probe
in flight, `n` probes are lost with no reset in between. -/
theorem stale_probes_lost (n : ℕ) :
    ∃ evs, (run (step plain) (create plain) evs).probesLost = n := by
  obtain ⟨evs, hevs⟩ := stale_start n
  obtain ⟨evs', hevs'⟩ := hevs.forget_all
  rw [Nat.zero_add] at hevs'
  refine ⟨evs ++ evs' ++ List.replicate n (.lose large true), ?_⟩
  rw [run_append, run_append]
  exact hevs'.lose

end Stale

end MtuPath

end Picoquic
