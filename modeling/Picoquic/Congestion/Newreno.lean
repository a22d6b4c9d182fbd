import Picoquic.Congestion.Tonopah
import Picoquic.ForMathlib.Runs

/-!
# The simulated New Reno

The window of New Reno: it grows by the bytes acknowledged in slow start, and by one packet for
each window that is acknowledged in congestion avoidance, where a residue keeps what is not
enough for another byte. A loss halves it, and then further losses are ignored while the recovery
lasts: until a round trip time is over, or a packet that was sent after the loss is acknowledged.

* **`newrenoSimNotify`** — the reaction to a notification;
* **`SimState.WindowLaw`** — the window has its minimum, and the residue is less than the window;
* **`SimState.KeepsRange`** — an acknowledgement does not exceed 64 bits;
* **`newreno_law`** — the law of the window, in every run in which that holds;
* **`recovery_before_loss`** — a packet that was sent before the recovery is lost after it.
-/

namespace Picoquic

open Runs

/-! ### The simulator -/

/-- A call of `picoquic_newreno_sim_notify`, with what it reads of the path. The number of the lost
packet is an argument of `picoquic_newreno_notify` that the simulator is not given. -/
structure RenoNotification where
  notification : CongestionNotification
  nbBytesAcknowledged : Uint64
  lostPacketNumber : Uint64
  currentTime : Uint64
  isMultipathEnabled : Bool
  pathX : PathView

/-- `picoquic_newreno_sim_reset`. -/
def newrenoSimReset : SimState := ⟨.slowStart, cwinInitial, 0, uint64Max, 0, 0⟩

/-- `picoquic_newreno_sim_enter_recovery`. -/
def newrenoSimEnterRecovery (nrState : SimState) (n : RenoNotification) : SimState :=
  let ssthresh := if nrState.cwin / 2 < cwinMinimum then cwinMinimum else nrState.cwin / 2
  { ssthresh := ssthresh
    cwin := if n.notification = .timeout then cwinMinimum else ssthresh
    algState := if n.notification = .timeout then .slowStart else .congestionAvoidance
    recoveryStart := n.currentTime
    recoverySequence := n.pathX.pathPacketNumber
    residualAck := 0 }

/-- `picoquic_newreno_sim_seed_cwin`. -/
def newrenoSimSeedCwin (nrState : SimState) (bytesInFlight : ℕ) : SimState :=
  if nrState.algState = .slowStart ∧ nrState.ssthresh = uint64Max ∧
      nrState.cwin < bytesInFlight then
    { nrState with
      cwin := bytesInFlight, ssthresh := bytesInFlight, algState := .congestionAvoidance }
  else nrState

/-- The test before recovery is entered. -/
def SimState.mayEnterRecovery (nrState : SimState) (n : RenoNotification) : Bool :=
  decide (n.pathX.smoothedRtt < sub64 n.currentTime nrState.recoveryStart) ||
    if n.isMultipathEnabled then
      decide (nrState.recoveryStart ≤ n.pathX.pathPacketAckedTimeSent)
    else decide (nrState.recoverySequence ≤ n.pathX.pathPacketAckedNumber)

/-- The test before recovery is undone. -/
def SimState.mayUndoRecovery (nrState : SimState) (n : RenoNotification) : Bool :=
  decide (sub64 n.currentTime nrState.recoveryStart < n.pathX.smoothedRtt) &&
    if n.isMultipathEnabled then
      decide (n.pathX.pathPacketAckedTimeSent < nrState.recoveryStart)
    else decide (n.pathX.pathPacketAckedNumber < nrState.recoverySequence)

/-- The reaction to an acknowledgement. -/
def newrenoSimAcknowledgement (nrState : SimState) (n : RenoNotification) : SimState :=
  match nrState.algState with
  | .slowStart =>
    let cwin := u64 (nrState.cwin + n.nbBytesAcknowledged)
    { nrState with
      cwin := cwin
      algState := if nrState.ssthresh ≤ cwin then .congestionAvoidance else .slowStart }
  | .congestionAvoidance =>
    let completeDelta := u64 (n.nbBytesAcknowledged * n.pathX.sendMtu + nrState.residualAck)
    { nrState with
      residualAck := completeDelta % nrState.cwin
      cwin := u64 (nrState.cwin + completeDelta / nrState.cwin) }

/-- The reaction to a spurious loss. -/
def newrenoSimSpuriousRepeat (nrState : SimState) (n : RenoNotification) : SimState :=
  if nrState.mayUndoRecovery n ∧ nrState.ssthresh ≠ uint64Max ∧
      nrState.cwin < u64 (2 * nrState.ssthresh) then
    { nrState with cwin := u64 (2 * nrState.ssthresh), algState := .congestionAvoidance }
  else nrState

/-- `picoquic_newreno_sim_notify`. -/
def newrenoSimNotify (nrState : SimState) (n : RenoNotification) : SimState :=
  match n.notification with
  | .acknowledgement => newrenoSimAcknowledgement nrState n
  | .ecnEc | .repeated | .timeout =>
    if nrState.mayEnterRecovery n then newrenoSimEnterRecovery nrState n else nrState
  | .spuriousRepeat => newrenoSimSpuriousRepeat nrState n
  | .bwMeasurement => nrState
  | .reset => newrenoSimReset
  | .seedCwin => newrenoSimSeedCwin nrState n.nbBytesAcknowledged
  | .rttMeasurement | .cwinBlocked => nrState

/-! ### The law of a step -/

/-- The notification of a loss, or of a mark that counts as one. -/
def RenoNotification.IsLoss (n : RenoNotification) : Prop :=
  n.notification = .ecnEc ∨ n.notification = .repeated ∨ n.notification = .timeout

instance (n : RenoNotification) : Decidable n.IsLoss := inferInstanceAs (Decidable (_ ∨ _))

namespace SimState

/-- An acknowledgement keeps the sums and products of its branch below `2 ^ 64`. -/
def KeepsRange (nrState : SimState) (n : RenoNotification) : Prop :=
  n.notification = .acknowledgement →
    match nrState.algState with
    | .slowStart => nrState.cwin + n.nbBytesAcknowledged < 2 ^ 64
    | .congestionAvoidance =>
      n.nbBytesAcknowledged * n.pathX.sendMtu + nrState.residualAck < 2 ^ 64 ∧
        nrState.cwin + (n.nbBytesAcknowledged * n.pathX.sendMtu + nrState.residualAck) /
          nrState.cwin < 2 ^ 64

/-- The law of the window. -/
structure WindowLaw (nrState : SimState) : Prop where
  cwinMinimum_le : cwinMinimum ≤ nrState.cwin
  cwin_lt : nrState.cwin < 2 ^ 64
  residualAck_lt : nrState.residualAck < nrState.cwin
  residualAck_eq : nrState.algState = .slowStart → nrState.residualAck = 0

theorem WindowLaw.reset : newrenoSimReset.WindowLaw :=
  ⟨by decide, by decide, by decide, fun _ => rfl⟩

variable {s : SimState} {n : RenoNotification}

section

variable (h : s.WindowLaw)

include h

theorem WindowLaw.enterRecovery_cwin (n : RenoNotification) :
    cwinMinimum ≤ (newrenoSimEnterRecovery s n).cwin ∧
      (newrenoSimEnterRecovery s n).cwin ≤ s.cwin := by
  have hle := h.cwinMinimum_le
  rw [newrenoSimEnterRecovery]
  dsimp only
  split_ifs <;> omega

/-- **Recovery** leaves no residue. -/
theorem WindowLaw.enterRecovery (n : RenoNotification) :
    (newrenoSimEnterRecovery s n).WindowLaw := by
  obtain ⟨hmin, hle⟩ := h.enterRecovery_cwin n
  refine ⟨hmin, hle.trans_lt h.cwin_lt, ?_, fun _ => rfl⟩
  exact lt_of_lt_of_le (by decide : 0 < cwinMinimum) hmin

/-- **Acknowledgements in slow start.** -/
theorem WindowLaw.slowStart (hstate : s.algState = .slowStart)
    (hn : s.cwin + n.nbBytesAcknowledged < 2 ^ 64) :
    (newrenoSimAcknowledgement s n).WindowLaw ∧
      (newrenoSimAcknowledgement s n).cwin = s.cwin + n.nbBytesAcknowledged ∧
      (newrenoSimAcknowledgement s n).residualAck = s.residualAck := by
  have hcwin := u64_of_lt hn
  have hle := h.cwinMinimum_le
  have hres := h.residualAck_lt
  have hzero := h.residualAck_eq hstate
  rw [newrenoSimAcknowledgement, hstate]
  dsimp only
  rw [hcwin]
  refine ⟨⟨?_, hn, ?_, fun _ => hzero⟩, rfl, rfl⟩
  · exact hle.trans (Nat.le_add_right _ _)
  · exact hres.trans_le (Nat.le_add_right _ _)

/-- **Acknowledgements in congestion avoidance**: no credit is lost. -/
theorem WindowLaw.congestionAvoidance (hstate : s.algState = .congestionAvoidance)
    (hdelta : n.nbBytesAcknowledged * n.pathX.sendMtu + s.residualAck < 2 ^ 64)
    (hn : s.cwin + (n.nbBytesAcknowledged * n.pathX.sendMtu + s.residualAck) / s.cwin < 2 ^ 64) :
    (newrenoSimAcknowledgement s n).WindowLaw ∧ s.cwin ≤ (newrenoSimAcknowledgement s n).cwin ∧
      s.residualAck + n.nbBytesAcknowledged * n.pathX.sendMtu =
        (newrenoSimAcknowledgement s n).residualAck +
          s.cwin * ((newrenoSimAcknowledgement s n).cwin - s.cwin) := by
  have hpos : 0 < s.cwin := lt_of_lt_of_le (by decide) h.cwinMinimum_le
  have hmod := Nat.mod_lt (n.nbBytesAcknowledged * n.pathX.sendMtu + s.residualAck) hpos
  rw [newrenoSimAcknowledgement, hstate]
  simp only [u64_of_lt hdelta, u64_of_lt hn]
  refine ⟨⟨?_, hn, ?_, fun hslow => ?_⟩, Nat.le_add_right _ _, ?_⟩
  · exact h.cwinMinimum_le.trans (Nat.le_add_right _ _)
  · exact hmod.trans_le (Nat.le_add_right _ _)
  · cases hslow
  · rw [Nat.add_sub_cancel_left, Nat.add_comm s.residualAck, Nat.mod_add_div]

/-- **Undoing a recovery** raises the window. -/
theorem WindowLaw.spuriousRepeat (n : RenoNotification) :
    (newrenoSimSpuriousRepeat s n).WindowLaw ∧ s.cwin ≤ (newrenoSimSpuriousRepeat s n).cwin ∧
      (newrenoSimSpuriousRepeat s n).residualAck = s.residualAck := by
  rw [newrenoSimSpuriousRepeat]
  split_ifs with hundo
  · obtain ⟨-, -, hlt⟩ := hundo
    refine ⟨⟨h.cwinMinimum_le.trans hlt.le, u64_lt _, h.residualAck_lt.trans hlt, ?_⟩, hlt.le, rfl⟩
    intro hslow
    cases hslow
  · exact ⟨h, le_rfl, rfl⟩

/-- **Seeding** raises the window. -/
theorem WindowLaw.seedCwin {bytesInFlight : ℕ} (hbytes : bytesInFlight < 2 ^ 64) :
    (newrenoSimSeedCwin s bytesInFlight).WindowLaw ∧
      s.cwin ≤ (newrenoSimSeedCwin s bytesInFlight).cwin ∧
      (newrenoSimSeedCwin s bytesInFlight).residualAck = s.residualAck := by
  rw [newrenoSimSeedCwin]
  split_ifs with hseed
  · obtain ⟨-, -, hlt⟩ := hseed
    refine ⟨⟨h.cwinMinimum_le.trans hlt.le, hbytes, h.residualAck_lt.trans hlt, ?_⟩, hlt.le, rfl⟩
    intro hslow
    cases hslow
  · exact ⟨h, le_rfl, rfl⟩

end

/-! ### Credit -/

/-- The credit that an acknowledgement earns towards the growth of the window. -/
def earned (s : SimState) (n : RenoNotification) : ℕ :=
  if n.notification = .acknowledgement ∧ s.algState = .congestionAvoidance then
    n.nbBytesAcknowledged * n.pathX.sendMtu
  else 0

/-- What an acknowledgement spends: a whole window for each byte by which the window grows. -/
def spent (s : SimState) (n : RenoNotification) : ℕ :=
  if n.notification = .acknowledgement ∧ s.algState = .congestionAvoidance then
    s.cwin * ((newrenoSimNotify s n).cwin - s.cwin)
  else 0

/-- The residue is given up when a recovery or the connection begins. -/
def givenUp (s : SimState) (n : RenoNotification) : ℕ :=
  if n.notification = .reset ∨ (n.IsLoss ∧ s.mayEnterRecovery n = true) then s.residualAck else 0

/-- What one notification does. -/
structure StepLaw (s : SimState) (n : RenoNotification) : Prop where
  law : (newrenoSimNotify s n).WindowLaw
  decrease : (newrenoSimNotify s n).cwin < s.cwin →
    n.notification = .reset ∨ (n.IsLoss ∧ s.mayEnterRecovery n = true)
  credit : s.residualAck + s.earned n =
    (newrenoSimNotify s n).residualAck + (s.spent n + s.givenUp n)

theorem StepLaw.of_le {s' : SimState} (hstep : newrenoSimNotify s n = s') (hlaw : s'.WindowLaw)
    (hle : s.cwin ≤ s'.cwin) (hres : s'.residualAck = s.residualAck)
    (hack : ¬ (n.notification = .acknowledgement ∧ s.algState = .congestionAvoidance))
    (hkept : ¬ (n.notification = .reset ∨ (n.IsLoss ∧ s.mayEnterRecovery n = true))) :
    s.StepLaw n := by
  subst hstep
  refine ⟨hlaw, fun hlt => absurd hlt (Nat.not_lt.mpr hle), ?_⟩
  rw [earned, spent, givenUp, if_neg hack, if_neg hack, if_neg hkept, hres]

theorem newrenoSimNotify_loss (hloss : n.IsLoss) :
    newrenoSimNotify s n = if s.mayEnterRecovery n then newrenoSimEnterRecovery s n else s := by
  obtain h | h | h := hloss
  · rw [newrenoSimNotify, h]
  · rw [newrenoSimNotify, h]
  · rw [newrenoSimNotify, h]

theorem WindowLaw.stepLaw_loss (h : s.WindowLaw) (hloss : n.IsLoss) : s.StepLaw n := by
  have hne : n.notification ≠ .acknowledgement ∧ n.notification ≠ .reset := by
    obtain h | h | h := hloss
    all_goals
      rw [h]
      decide
  by_cases hmay : s.mayEnterRecovery n = true
  · have hstep : newrenoSimNotify s n = newrenoSimEnterRecovery s n := by
      rw [newrenoSimNotify_loss hloss, if_pos hmay]
    refine ⟨hstep ▸ h.enterRecovery n, fun _ => Or.inr ⟨hloss, hmay⟩, ?_⟩
    rw [earned, spent, givenUp, if_neg fun hack => hne.1 hack.1, if_neg fun hack => hne.1 hack.1,
      if_pos (Or.inr ⟨hloss, hmay⟩), hstep, newrenoSimEnterRecovery, Nat.zero_add, Nat.zero_add,
      Nat.add_zero]
  · refine .of_le ((newrenoSimNotify_loss hloss).trans (if_neg hmay)) h le_rfl rfl
      (fun hack => hne.1 hack.1) ?_
    rintro (hreset | ⟨-, hmay'⟩)
    · exact hne.2 hreset
    · exact hmay hmay'

theorem WindowLaw.stepLaw_acknowledgement (h : s.WindowLaw)
    (hack : n.notification = .acknowledgement) (hrange : s.KeepsRange n) : s.StepLaw n := by
  have hstep : newrenoSimNotify s n = newrenoSimAcknowledgement s n := by
    rw [newrenoSimNotify, hack]
  have hkept : ¬ (n.notification = .reset ∨ (n.IsLoss ∧ s.mayEnterRecovery n = true)) := by
    simp [RenoNotification.IsLoss, hack]
  have hrange := hrange hack
  cases hstate : s.algState with
  | slowStart =>
    rw [hstate] at hrange
    obtain ⟨hlaw, hcwin, hres⟩ := h.slowStart hstate hrange
    refine .of_le hstep hlaw (hcwin ▸ Nat.le_add_right _ _) hres ?_ hkept
    rintro ⟨-, hca⟩
    rw [hstate] at hca
    cases hca
  | congestionAvoidance =>
    rw [hstate] at hrange
    obtain ⟨hlaw, hle, hcredit⟩ := h.congestionAvoidance hstate hrange.1 hrange.2
    refine ⟨hstep ▸ hlaw, fun hlt => absurd hlt (Nat.not_lt.mpr (hstep ▸ hle)), ?_⟩
    rw [earned, spent, givenUp, if_pos ⟨hack, hstate⟩, if_pos ⟨hack, hstate⟩, if_neg hkept, hstep,
      Nat.add_zero]
    exact hcredit

/-- **One notification** keeps the law, lowers the window only where it may, and balances the
credit. -/
theorem WindowLaw.stepLaw (h : s.WindowLaw) (hrange : s.KeepsRange n) : s.StepLaw n := by
  cases hn : n.notification with
  | acknowledgement => exact h.stepLaw_acknowledgement hn hrange
  | ecnEc => exact h.stepLaw_loss (Or.inl hn)
  | repeated => exact h.stepLaw_loss (Or.inr (Or.inl hn))
  | timeout => exact h.stepLaw_loss (Or.inr (Or.inr hn))
  | spuriousRepeat =>
    obtain ⟨hlaw, hle, hres⟩ := h.spuriousRepeat n
    refine .of_le (by rw [newrenoSimNotify, hn]) hlaw hle hres ?_ ?_
    · simp [hn]
    · simp [RenoNotification.IsLoss, hn]
  | seedCwin =>
    obtain ⟨hlaw, hle, hres⟩ := h.seedCwin n.nbBytesAcknowledged.isLt
    refine .of_le (by rw [newrenoSimNotify, hn]) hlaw hle hres ?_ ?_
    · simp [hn]
    · simp [RenoNotification.IsLoss, hn]
  | reset =>
    have hstep : newrenoSimNotify s n = newrenoSimReset := by rw [newrenoSimNotify, hn]
    refine ⟨hstep ▸ .reset, fun _ => Or.inl hn, ?_⟩
    rw [earned, spent, givenUp, if_neg (by simp [hn]), if_neg (by simp [hn]), if_pos (Or.inl hn),
      hstep, newrenoSimReset, Nat.zero_add, Nat.zero_add, Nat.add_zero]
  | rttMeasurement | bwMeasurement | cwinBlocked =>
    refine .of_le (by rw [newrenoSimNotify, hn]) h le_rfl rfl ?_ ?_
    · simp [hn]
    · simp [RenoNotification.IsLoss, hn]

/-! ### Recovery -/

/-- The recovery that `n₀` began is the last one. -/
def Began (s : SimState) (n₀ : RenoNotification) : Prop :=
  s.recoveryStart = n₀.currentTime ∧ s.recoverySequence = n₀.pathX.pathPacketNumber

end SimState

/-- The notification comes while the recovery lasts that `n₀` began: no round trip time is over
since then, and no packet that was sent since then is acknowledged. -/
def RenoNotification.Within (n n₀ : RenoNotification) : Prop :=
  ¬ n.pathX.smoothedRtt < sub64 n.currentTime n₀.currentTime ∧
    if n.isMultipathEnabled then n.pathX.pathPacketAckedTimeSent < n₀.currentTime
    else n.pathX.pathPacketAckedNumber < n₀.pathX.pathPacketNumber

namespace SimState

/-- The notification keeps the range, is no reset, and comes while the recovery lasts if it is
that of a loss. -/
def StaysWithin (n₀ : RenoNotification) (s : SimState) (n : RenoNotification) : Prop :=
  s.KeepsRange n ∧ n.notification ≠ .reset ∧ (n.IsLoss → n.Within n₀)

variable {s : SimState} {n n₀ : RenoNotification}

theorem Began.mayEnterRecovery (h : s.Began n₀) (hn : n.Within n₀) :
    s.mayEnterRecovery n = false := by
  obtain ⟨htime, hacked⟩ := hn
  rw [SimState.mayEnterRecovery, h.1, h.2, Bool.or_eq_false_iff]
  refine ⟨decide_eq_false htime, ?_⟩
  split_ifs at hacked ⊢
  · exact decide_eq_false (not_le.mpr hacked)
  · exact decide_eq_false (not_le.mpr hacked)

/-- **While a recovery lasts**, it stays the last one, and losses change nothing. -/
theorem Began.step (h : s.Began n₀) (hreset : n.notification ≠ .reset)
    (hn : n.IsLoss → n.Within n₀) : (newrenoSimNotify s n).Began n₀ := by
  have hkeep : ∀ s' : SimState, s'.recoveryStart = s.recoveryStart →
      s'.recoverySequence = s.recoverySequence → s'.Began n₀ :=
    fun s' hstart hsequence => ⟨hstart.trans h.1, hsequence.trans h.2⟩
  have hloss (hloss : n.IsLoss) : (newrenoSimNotify s n).Began n₀ := by
    rw [newrenoSimNotify_loss hloss, h.mayEnterRecovery (hn hloss)]
    exact h
  cases hcase : n.notification with
  | ecnEc => exact hloss (Or.inl hcase)
  | repeated => exact hloss (Or.inr (Or.inl hcase))
  | timeout => exact hloss (Or.inr (Or.inr hcase))
  | reset => exact absurd hcase hreset
  | rttMeasurement | bwMeasurement | cwinBlocked =>
    rw [newrenoSimNotify, hcase]
    exact h
  | acknowledgement =>
    rw [newrenoSimNotify, hcase]
    dsimp only
    rw [newrenoSimAcknowledgement]
    split
    · exact hkeep _ rfl rfl
    · exact hkeep _ rfl rfl
  | spuriousRepeat =>
    rw [newrenoSimNotify, hcase]
    dsimp only
    rw [newrenoSimSpuriousRepeat]
    split_ifs
    · exact hkeep _ rfl rfl
    · exact h
  | seedCwin =>
    rw [newrenoSimNotify, hcase]
    dsimp only
    rw [newrenoSimSeedCwin]
    split_ifs
    · exact hkeep _ rfl rfl
    · exact h

theorem Began.enterRecovery (hloss : n₀.IsLoss) (hmay : s.mayEnterRecovery n₀ = true) :
    (newrenoSimNotify s n₀).Began n₀ := by
  rw [newrenoSimNotify_loss hloss, if_pos hmay]
  exact ⟨rfl, rfl⟩

/-- **The window does not decrease while a recovery lasts.** -/
theorem Began.cwin_le_run (h : s.Began n₀) (hs : s.WindowLaw) {evs : List RenoNotification}
    (hevs : Along newrenoSimNotify (StaysWithin n₀) s evs) :
    s.cwin ≤ (run newrenoSimNotify s evs).cwin := by
  have hstep : ∀ s' n, (s'.WindowLaw ∧ s'.Began n₀ ∧ s.cwin ≤ s'.cwin) → StaysWithin n₀ s' n →
      (newrenoSimNotify s' n).WindowLaw ∧ (newrenoSimNotify s' n).Began n₀ ∧
        s.cwin ≤ (newrenoSimNotify s' n).cwin := by
    rintro s' n ⟨hlaw, hbegan, hle⟩ ⟨hrange, hreset, hwithin⟩
    have hn := hlaw.stepLaw hrange
    refine ⟨hn.law, hbegan.step hreset hwithin, hle.trans (Nat.le_of_not_lt fun hlt => ?_)⟩
    obtain hreset' | ⟨hloss, hmay⟩ := hn.decrease hlt
    · exact hreset hreset'
    · rw [hbegan.mayEnterRecovery (hwithin hloss)] at hmay
      cases hmay
  exact (run_invariant_of_along hstep ⟨hs, h, le_rfl⟩ hevs).2.2

end SimState

/-! ### The law of a run -/

/-- The state after some notifications. -/
def newrenoRun (evs : List RenoNotification) : SimState := run newrenoSimNotify newrenoSimReset evs

instance (s : SimState) (n : RenoNotification) : Decidable (s.KeepsRange n) := by
  unfold SimState.KeepsRange
  cases s.algState <;> infer_instance

/-- **The law of the window**, after every run from the reset state in which no acknowledgement
exceeds 64 bits. The window has its minimum, and the residue is less than the window. All credit
that acknowledgements earned in congestion avoidance was spent on the growth of the window, is in
the residue, or was given up when a recovery or the connection began. The window decreases only by
a reset, and by a loss that begins a recovery; while that recovery lasts, losses change nothing and
the window does not decrease again. -/
theorem newreno_law {evs : List RenoNotification}
    (hevs : Along newrenoSimNotify SimState.KeepsRange newrenoSimReset evs) :
    cwinMinimum ≤ (newrenoRun evs).cwin ∧
      (newrenoRun evs).residualAck < (newrenoRun evs).cwin ∧
      total newrenoSimNotify SimState.earned newrenoSimReset evs =
        (newrenoRun evs).residualAck +
          total newrenoSimNotify (fun s n => s.spent n + s.givenUp n) newrenoSimReset evs ∧
      (∀ n, (newrenoRun evs).KeepsRange n →
        (newrenoSimNotify (newrenoRun evs) n).cwin < (newrenoRun evs).cwin →
        n.notification = .reset ∨ (n.IsLoss ∧ (newrenoRun evs).mayEnterRecovery n = true)) ∧
      (∀ n, n.IsLoss → (newrenoRun evs).mayEnterRecovery n = false →
        newrenoSimNotify (newrenoRun evs) n = newrenoRun evs) ∧
      ∀ n₀ evs', n₀.IsLoss → (newrenoRun evs).mayEnterRecovery n₀ = true →
        Along newrenoSimNotify (SimState.StaysWithin n₀)
          (newrenoSimNotify (newrenoRun evs) n₀) evs' →
        (newrenoRun (evs ++ [n₀])).cwin ≤ (newrenoRun (evs ++ n₀ :: evs')).cwin := by
  have hlaw : (newrenoRun evs).WindowLaw :=
    run_invariant_of_along (fun s n hs hn => (hs.stepLaw hn).law) SimState.WindowLaw.reset hevs
  have hcredit := total_balance (fun s n (hs : s.WindowLaw) hn => (hs.stepLaw hn).law)
    (fun s n hs hn => (hs.stepLaw hn).credit) SimState.WindowLaw.reset hevs
  refine ⟨hlaw.cwinMinimum_le, hlaw.residualAck_lt, ?_, fun n hn => (hlaw.stepLaw hn).decrease,
    fun n hloss hmay => ?_, fun n₀ evs' hloss hmay hevs' => ?_⟩
  · have hzero : newrenoSimReset.residualAck = 0 := rfl
    rw [hzero, Nat.zero_add] at hcredit
    exact hcredit
  · rw [SimState.newrenoSimNotify_loss hloss, hmay]
    rfl
  · have hrange : (newrenoRun evs).KeepsRange n₀ := by
      intro hack
      rw [RenoNotification.IsLoss, hack] at hloss
      exact absurd hloss (by decide)
    have hle :=
      (SimState.Began.enterRecovery hloss hmay).cwin_le_run (hlaw.stepLaw hrange).law hevs'
    simpa only [newrenoRun, run_append, run_cons, run_nil] using hle

/-- A path with a smoothed round trip time of a tenth of a second, whose next packet has the
number 10, and on which the packets up to 5 are acknowledged. -/
def renoPath : PathView where
  smoothedRtt := 100000
  rttMin := 100000
  sendMtu := 1440
  maxBandwidthEstimate := 0
  pathPacketNumber := 10
  pathPacketAckedNumber := 5
  pathPacketAckedTimeSent := 900000
  lastTimeAckedDataFrameSent := 0
  lastSenderLimitedTime := 0

/-- The loss of packet 6 between two acknowledgements, and then that of packet 7 while the recovery
lasts. -/
def renoSample : List RenoNotification :=
  [⟨.acknowledgement, 1000, 0, 1000000, false, renoPath⟩,
    ⟨.repeated, 0, 6, 1000000, false, renoPath⟩,
    ⟨.acknowledgement, 1000, 0, 1050000, false, renoPath⟩,
    ⟨.repeated, 0, 7, 1050000, false, renoPath⟩]

/-- The window after these notifications, and its minimum. -/
theorem newreno_law_sample :
    cwinMinimum ≤ (newrenoRun renoSample).cwin ∧
      (newrenoRun renoSample).residualAck < (newrenoRun renoSample).cwin :=
  ⟨(newreno_law (by decide)).1, (newreno_law (by decide)).2.1⟩

/-- Packet 7 was sent before the recovery that the loss of packet 6 began, and is lost more than a
round trip time later: the window is halved again. Also, an acknowledgement of too many bytes
leaves a window below the minimum. -/
theorem recovery_before_loss :
    (∃ evs n, n.IsLoss ∧ (n.lostPacketNumber : ℕ) < (newrenoRun evs).recoverySequence ∧
      (newrenoSimNotify (newrenoRun evs) n).cwin < (newrenoRun evs).cwin) ∧
    ∃ evs, (newrenoRun evs).cwin < cwinMinimum := by
  refine ⟨⟨[⟨.repeated, 0, 6, 1000000, false, renoPath⟩],
    ⟨.repeated, 0, 7, 1200000, false, renoPath⟩, ?_⟩,
    [⟨.acknowledgement, 18446744073709536256, 0, 1000000, false, renoPath⟩], ?_⟩
  · decide
  · decide

end Picoquic
