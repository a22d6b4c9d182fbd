import Picoquic.Congestion.Tonopah
import Picoquic.ForMathlib.Runs

/-!
# The window floor of Tonopah

Every branch that lowers the window applies the floor `PICOQUIC_CWIN_MINIMUM`, except the
reduction that follows the detection of fair queuing, which keeps seven eighths of the window
whatever is left. The floor holds in every run in which

* **the reduction** starts from 3511 bytes at least, the exact bound (`fqReducedWindow_ge_iff`);
* **an acknowledgement** does not carry the window over the range of `uint64_t`.

Under these conditions the window never gets below the floor, so the divisions of the
congestion avoidance are defined (`cwinMinimum_le_run`). Without the first one the window
leaves the floor after a few acknowledgements (`window_below_floor`).
-/

namespace Picoquic

open Binary64 Runs

/-! ### Which steps are safe -/

/-- Fair queuing is detected in congestion avoidance when `new_tonopah_set_path` is entered. -/
def Tonopah.detectsFq (s : Tonopah) (n : Notification) (currentTime : ℕ) : Bool :=
  decide (n.nbPaths = 2) && s.path1.isSome && s.path2.isSome && s.intervalElapsed n currentTime &&
    aggregateIntervals s.intervals && decide (s.nrss.algState = .congestionAvoidance)

/-- The smallest window whose reduction is not below the floor. -/
def smallestReducibleWindow : ℕ := 3511

/-- When fair queuing is detected, the window is large enough to be reduced. -/
def Tonopah.ReductionSafe (s : Tonopah) (n : Notification) (currentTime : ℕ) : Prop :=
  s.detectsFq n currentTime = true → smallestReducibleWindow ≤ s.nrss.cwin

/-- An acknowledgement keeps the window in the range of `uint64_t`: the sum of slow start does
not wrap around to a value below the floor, and the double of congestion avoidance can be
converted. -/
def SimState.AckSafe (nrss : SimState) (n : Notification) : Prop :=
  (nrss.algState = .slowStart →
      nrss.cwin + n.nbBytesAcknowledged < 2 ^ 64 ∨
        2 ^ 64 + cwinMinimum ≤ nrss.cwin + n.nbBytesAcknowledged) ∧
    (nrss.algState = .congestionAvoidance → n.increasedWindow nrss < 2 ^ 64)

/-- The condition on a notification, once the paths are known. -/
def Tonopah.NotifySafe (s : Tonopah) (n : Notification) : Prop :=
  match n.notification with
  | .acknowledgement =>
    n.isCwinLimited = true →
      s.nrss.AckSafe n ∧ ((s.simNotify n).recordAck n).ReductionSafe n (n.clock 1)
  | .ecnEc => s.dominantPath ≠ some n.path → (s.simNotify n).ReductionSafe n (n.clock 1)
  | .seedCwin | .repeated | .timeout | .spuriousRepeat =>
    (s.simNotify n).ReductionSafe n (n.clock 1)
  | .rttMeasurement =>
    s.nrss.inInitialSlowStart = true →
      ((s.raiseForLongDelay n).hystart n).1.ReductionSafe n (n.clock 2)
  | .bwMeasurement | .reset | .cwinBlocked => True

/-- The condition on an event. -/
def Tonopah.WindowSafe (s : Tonopah) : TonopahEvent → Prop
  | .init _ => True
  | .notify n => (s.registerPaths n).NotifySafe n

instance (s : Tonopah) (n : Notification) (t : ℕ) : Decidable (s.ReductionSafe n t) :=
  inferInstanceAs (Decidable (_ → _))

instance (nrss : SimState) (n : Notification) : Decidable (nrss.AckSafe n) :=
  inferInstanceAs (Decidable ((_ → _ ∨ _) ∧ (_ → _)))

instance (s : Tonopah) (n : Notification) : Decidable (s.NotifySafe n) := by
  unfold Tonopah.NotifySafe
  split <;> infer_instance

instance (s : Tonopah) (e : TonopahEvent) : Decidable (s.WindowSafe e) :=
  match e with
  | .init _ => isTrue trivial
  | .notify n => inferInstanceAs (Decidable ((s.registerPaths n).NotifySafe n))

/-! ### The reduction -/

/-- The reduction keeps the floor exactly from 3511 bytes on. -/
theorem fqReducedWindow_ge_iff {cwin : ℕ} (hc : cwin < 2 ^ 64) :
    cwinMinimum ≤ fqReducedWindow cwin ↔ smallestReducibleWindow ≤ cwin := by
  have hcq : (cwin : ℚ) < 2 ^ 64 := by exact_mod_cast hc
  have h0 : (0 : ℚ) ≤ rnd cwin := rnd_nonneg (Nat.cast_nonneg _)
  constructor
  · intro h
    by_contra hlt
    have hle : cwin ≤ 3510 := by
      rw [smallestReducibleWindow] at hlt
      omega
    have hexact : rnd (cwin : ℚ) = cwin := rnd_natCast (by omega)
    have hle' : (cwin : ℚ) ≤ 3510 := by exact_mod_cast hle
    have hr : rnd (rnd cwin * (7 / 8)) ≤ 12285 / 4 := by
      have h1 : rnd (12285 / 4) = 12285 / 4 := by decide +kernel
      rw [← h1, hexact]
      exact rnd_mono (by positivity) (by linarith)
    have hfl : fqReducedWindow cwin ≤ 3071 := by
      rw [fqReducedWindow, toUint64_of_lt (by linarith)]
      exact Nat.le_of_lt_succ ((Nat.floor_lt' (by norm_num)).mpr (by norm_num; linarith))
    rw [cwinMinimum, maxPacketSize] at h
    omega
  · intro h
    have hge : (3511 : ℚ) ≤ cwin := by exact_mod_cast h
    have h1 : (3511 : ℚ) ≤ rnd cwin := by
      have hexact : rnd ((3511 : ℕ) : ℚ) = (3511 : ℕ) := rnd_natCast (by norm_num)
      rw [Nat.cast_ofNat] at hexact
      rw [← hexact]
      exact rnd_mono (by norm_num) hge
    have h2 : ((cwinMinimum : ℕ) : ℚ) ≤ rnd (rnd cwin * (7 / 8)) := by
      rw [← rnd_natCast (n := cwinMinimum) (by decide)]
      refine rnd_mono (Nat.cast_nonneg _) ?_
      rw [cwinMinimum, maxPacketSize]
      push_cast
      linarith
    refine le_toUint64 ?_ h2
    have h3 := rnd_le (x := (cwin : ℚ)) (Nat.cast_nonneg _)
    have h4 := rnd_le (x := rnd cwin * (7 / 8)) (by positivity)
    calc rnd (rnd cwin * (7 / 8)) ≤ rnd cwin * (7 / 8) * (1 + 1 / 2 ^ 53) := h4
      _ ≤ cwin * (1 + 1 / 2 ^ 53) * (7 / 8) * (1 + 1 / 2 ^ 53) := by gcongr
      _ < 2 ^ 64 * (1 + 1 / 2 ^ 53) * (7 / 8) * (1 + 1 / 2 ^ 53) := by gcongr
      _ < 2 ^ 64 := by norm_num

/-! ### What the functions do to the window -/

/-- The window is at least the floor and a `uint64_t`. -/
structure SimState.AboveFloor (nrss : SimState) : Prop where
  floor_le : cwinMinimum ≤ nrss.cwin
  lt : nrss.cwin < 2 ^ 64

theorem simReset_aboveFloor : simReset.AboveFloor := ⟨by decide, by decide⟩

variable {nrss : SimState} {n : Notification} {s : Tonopah}

/-- The window of congestion avoidance, as a double, keeps the floor. -/
theorem cwinMinimum_le_increasedWindow (h : cwinMinimum ≤ nrss.cwin) (n : Notification) :
    (cwinMinimum : ℚ) ≤ n.increasedWindow nrss := by
  have hexact : rnd (cwinMinimum : ℚ) = cwinMinimum := rnd_natCast (by decide)
  have hcwin : (cwinMinimum : ℚ) ≤ rnd nrss.cwin := by
    rw [← hexact]
    exact rnd_mono (Nat.cast_nonneg _) (by exact_mod_cast h)
  have hratio : 0 ≤ min (rnd (rnd n.meanSmoothedRtt / minimumCongestionAvoidanceInterval)) 1 :=
    le_min (rnd_nonneg (div_nonneg (rnd_nonneg (Nat.cast_nonneg _)) (Nat.cast_nonneg _)))
      zero_le_one
  have hquot : 0 ≤ rnd (rnd (n.completeDelta nrss) / rnd nrss.cwin) :=
    rnd_nonneg (div_nonneg (rnd_nonneg (Nat.cast_nonneg _)) (rnd_nonneg (Nat.cast_nonneg _)))
  have hinc := rnd_nonneg (mul_nonneg hratio hquot)
  rw [← hexact]
  exact rnd_mono (Nat.cast_nonneg _) (le_add_of_le_of_nonneg hcwin hinc)

/-- A safe acknowledgement keeps the floor. -/
theorem simAcknowledgement_aboveFloor (h : nrss.AboveFloor) (hsafe : nrss.AckSafe n) :
    (simAcknowledgement nrss n).AboveFloor := by
  have hmin := h.floor_le
  rw [simAcknowledgement]
  cases hst : nrss.algState with
  | slowStart =>
    refine ⟨?_, u64_lt _⟩
    dsimp only
    rcases hsafe.1 hst with hlt | hge
    · rw [u64_of_lt hlt]
      omega
    · have hcwin := h.lt
      have hnb := n.nbBytesAcknowledged.isLt
      rw [u64]
      omega
  | congestionAvoidance =>
    exact ⟨le_toUint64 (hsafe.2 hst) (cwinMinimum_le_increasedWindow hmin n), toUint64_lt _⟩

/-- The state after a loss is above the floor. -/
theorem enterRecovery_aboveFloor (h : nrss.AboveFloor) (n : Notification) :
    (nrss.enterRecovery n).AboveFloor := by
  have hlt := h.lt
  have hmin : cwinMinimum < 2 ^ 64 := by decide
  constructor
  · dsimp only [SimState.enterRecovery]
    split_ifs
    · exact le_refl _
    · exact le_max_right _ _
  · dsimp only [SimState.enterRecovery]
    split_ifs
    · exact hmin
    · omega

theorem simEnterRecovery_aboveFloor (h : s.nrss.AboveFloor) (n : Notification) :
    (s.simEnterRecovery n).nrss.AboveFloor := by
  rw [Tonopah.simEnterRecovery]
  split_ifs
  · exact h
  · exact enterRecovery_aboveFloor h n
  · exact enterRecovery_aboveFloor h n

/-- Without an acknowledgement, the simulated New Reno keeps the floor. -/
theorem simNotify_aboveFloor (h : s.nrss.AboveFloor) (hn : n.notification ≠ .acknowledgement) :
    (s.simNotify n).nrss.AboveFloor := by
  have hmin := h.floor_le
  rw [Tonopah.simNotify]
  cases hkind : n.notification with
  | acknowledgement => exact absurd hkind hn
  | ecnEc | repeated | timeout =>
    dsimp only
    split_ifs
    · exact simEnterRecovery_aboveFloor h n
    · exact h
  | spuriousRepeat =>
    dsimp only [simSpuriousRepeat]
    split_ifs with hsp
    · exact ⟨hmin.trans hsp.2.2.le, u64_lt _⟩
    · exact h
  | seedCwin =>
    dsimp only [simSeedCwin]
    split_ifs with hseed
    · exact ⟨hmin.trans hseed.2.2.le, n.nbBytesAcknowledged.isLt⟩
    · exact h
  | reset => exact simReset_aboveFloor
  | bwMeasurement | rttMeasurement | cwinBlocked => exact h

@[simp]
theorem Tonopah.recordAck_nrss (s : Tonopah) (n : Notification) :
    (s.recordAck n).nrss = s.nrss := rfl

@[simp]
theorem Tonopah.appendInterval_nrss (s : Tonopah) (n : Notification) (t : ℕ) :
    (s.appendInterval n t).nrss = s.nrss := rfl

@[simp]
theorem Tonopah.splitWindow_nrss (s : Tonopah) (cwin : ℕ) : (s.splitWindow cwin).nrss = s.nrss := by
  rw [splitWindow]
  split_ifs <;> rfl

@[simp]
theorem Tonopah.registerPaths_nrss (s : Tonopah) (n : Notification) :
    (s.registerPaths n).nrss = s.nrss := by
  rw [registerPaths, learnPath]
  split_ifs <;> rfl

/-- Setting the paths changes the simulated state only when fair queuing is detected. -/
theorem Tonopah.setPath_nrss (s : Tonopah) (n : Notification) (cwin t : ℕ) :
    (s.setPath n cwin t).nrss =
      if s.detectsFq n t then
        { s.nrss with
          ssthresh := fqReducedWindow s.nrss.cwin, cwin := fqReducedWindow s.nrss.cwin }
      else s.nrss := by
  have hchange : (s.changeInterval n t).nrss = s.reactToFq.nrss := by
    rw [changeInterval, appendInterval_nrss]
    split_ifs <;> rfl
  rw [setPath, detectsFq]
  by_cases hpaths : n.nbPaths = 2 ∧ s.path1.isSome ∧ s.path2.isSome
  · obtain ⟨h2, h1', h2'⟩ := hpaths
    by_cases hel : s.intervalElapsed n t
    · simp only [h2, h1', h2', hel, and_self, if_true, splitWindow_nrss, hchange, decide_true,
        Bool.true_and, Bool.and_eq_true, decide_eq_true_eq, reactToFq]
      split_ifs <;> rfl
    · simp [h2, h1', h2', hel]
  · rw [if_neg hpaths]
    by_cases h2 : n.nbPaths = 2 <;> simp_all

theorem Tonopah.setPath_aboveFloor {t : ℕ} (h : s.nrss.AboveFloor) (hsafe : s.ReductionSafe n t)
    (cwin : ℕ) : (s.setPath n cwin t).nrss.AboveFloor := by
  rw [setPath_nrss]
  split_ifs with hfq
  · exact ⟨(fqReducedWindow_ge_iff h.lt).mpr (hsafe hfq), toUint64_lt _⟩
  · exact h

theorem Tonopah.reductionSafe_of_slowStart (h : s.nrss.algState = .slowStart) (n : Notification)
    (t : ℕ) : s.ReductionSafe n t := by
  intro hfq
  simp [detectsFq, h] at hfq

/-- A long round trip time only raises the window, and leaves the algorithm in slow start. -/
theorem Tonopah.raiseForLongDelay_aboveFloor (h : s.nrss.AboveFloor)
    (hss : s.nrss.algState = .slowStart) (n : Notification) :
    (s.raiseForLongDelay n).nrss.AboveFloor := by
  rw [raiseForLongDelay]
  dsimp only
  split_ifs with hraise
  · refine setPath_aboveFloor ⟨h.floor_le.trans hraise.2.le, toUint64_lt _⟩ ?_ _
    apply reductionSafe_of_slowStart
    exact hss
  · exact h

theorem Tonopah.hystart_cwin (s : Tonopah) (n : Notification) :
    (s.hystart n).1.nrss.cwin = s.nrss.cwin := by
  rw [hystart]
  dsimp only
  split_ifs <;> rfl

theorem Tonopah.hystart_aboveFloor (h : s.nrss.AboveFloor) (n : Notification) :
    (s.hystart n).1.nrss.AboveFloor := by
  constructor
  · rw [hystart_cwin]
    exact h.floor_le
  · rw [hystart_cwin]
    exact h.lt

theorem Notification.bandwidthWindow_lt (n : Notification) : n.bandwidthWindow < 2 ^ 64 := by
  have := u64_lt ((n.cnxPath 0).maxBandwidthEstimate * n.smoothedRtt)
  rw [bandwidthWindow]
  omega

/-- **Step lemma.** A safe notification keeps the floor. -/
theorem Tonopah.notify_aboveFloor (h : s.nrss.AboveFloor)
    (hsafe : (s.registerPaths n).NotifySafe n) : (s.notify n).nrss.AboveFloor := by
  have hr : (s.registerPaths n).nrss.AboveFloor := by rwa [registerPaths_nrss]
  revert hsafe hr
  rw [notify]
  generalize s.registerPaths n = r
  intro hsafe hr
  dsimp only
  cases hkind : n.notification with
  | acknowledgement =>
    rw [NotifySafe, hkind] at hsafe
    dsimp only at hsafe ⊢
    split_ifs with hlim
    · obtain ⟨hack, hred⟩ := hsafe hlim
      refine setPath_aboveFloor ?_ hred _
      rw [recordAck_nrss, simNotify, hkind]
      exact simAcknowledgement_aboveFloor hr hack
    · exact hr
  | ecnEc =>
    rw [NotifySafe, hkind] at hsafe
    dsimp only at hsafe ⊢
    split_ifs with hdom
    · exact hr
    · exact setPath_aboveFloor (simNotify_aboveFloor hr (by simp [hkind])) (hsafe hdom) _
  | seedCwin | repeated | timeout | spuriousRepeat =>
    rw [NotifySafe, hkind] at hsafe
    exact setPath_aboveFloor (simNotify_aboveFloor hr (by simp [hkind])) hsafe _
  | rttMeasurement =>
    rw [NotifySafe, hkind] at hsafe
    dsimp only at hsafe ⊢
    split_ifs with hss hexit
    · have hslow : r.nrss.algState = .slowStart := (of_decide_eq_true hss).1
      exact setPath_aboveFloor
        (hystart_aboveFloor (raiseForLongDelay_aboveFloor hr hslow n) n) (hsafe hss) _
    · have hslow : r.nrss.algState = .slowStart := (of_decide_eq_true hss).1
      exact hystart_aboveFloor (raiseForLongDelay_aboveFloor hr hslow n) n
    · exact hr
  | bwMeasurement =>
    dsimp only
    split_ifs with hbw
    · have hslow : r.nrss.algState = .slowStart := (of_decide_eq_true hbw.1).1
      refine setPath_aboveFloor ⟨hr.floor_le.trans hbw.2.le, n.bandwidthWindow_lt⟩ ?_ _
      apply reductionSafe_of_slowStart
      exact hslow
    · exact hr
  | reset => exact simReset_aboveFloor
  | cwinBlocked => exact hr

/-- A safe event keeps the floor. -/
theorem Tonopah.step_aboveFloor {e : TonopahEvent} (h : s.nrss.AboveFloor)
    (hsafe : s.WindowSafe e) : (s.step e).nrss.AboveFloor := by
  cases e with
  | init path =>
    dsimp only [step]
    split_ifs
    · exact simReset_aboveFloor
    · exact h
  | notify n => exact notify_aboveFloor h hsafe

/-! ### Runs -/

/-- **The floor over whole runs.** In a run of safe events the window never gets below
`PICOQUIC_CWIN_MINIMUM`, and the divisors of the congestion avoidance, the window and its value
as a double, are not zero. -/
theorem cwinMinimum_le_run {evs : List TonopahEvent}
    (hevs : Along Tonopah.step Tonopah.WindowSafe Tonopah.initial evs) :
    cwinMinimum ≤ (run Tonopah.step Tonopah.initial evs).nrss.cwin ∧
      (run Tonopah.step Tonopah.initial evs).nrss.cwin ≠ 0 ∧
      rnd (run Tonopah.step Tonopah.initial evs).nrss.cwin ≠ 0 := by
  have h := run_invariant_of_along (I := fun s => s.nrss.AboveFloor)
    (fun _ _ => Tonopah.step_aboveFloor) simReset_aboveFloor hevs
  have hmin := h.floor_le
  have hpos : (0 : ℚ) < cwinMinimum := by norm_num [cwinMinimum, maxPacketSize]
  have hrnd : (cwinMinimum : ℚ) ≤ rnd (run Tonopah.step Tonopah.initial evs).nrss.cwin := by
    rw [← rnd_natCast (n := cwinMinimum) (by decide)]
    exact rnd_mono (Nat.cast_nonneg _) (by exact_mod_cast hmin)
  refine ⟨hmin, ?_, (hpos.trans_le hrnd).ne'⟩
  rw [cwinMinimum, maxPacketSize] at hmin
  omega

/-- A notification on a connection of two paths with round trip times of 20 and 10 ms, where
every path is about to send packet `next` and has packet `acked` acknowledged. -/
def twoPathNotification (path : PathIndex) (notification : CongestionNotification)
    (bytes next acked time : Uint64) : Notification :=
  { path, notification
    rttMeasurement := 0
    oneWayDelay := 0
    nbBytesAcknowledged := bytes
    currentTime := time
    nbPaths := 2
    nbPaths_eq := Or.inr rfl
    isMultipathEnabled := false
    isTimeStampEnabled := false
    cnxPath := fun i => ⟨if i = 0 then 20000 else 10000, 10000, 1500, 0, next, acked, 0, 1, 0⟩
    clock := fun _ => time }

/-- Two timeouts bring the window to the floor, an acknowledgement ends slow start, and the
acknowledgements that follow fill one interval for both paths. -/
def timeoutsThenAcks : List TonopahEvent :=
  [.init 1,
    .notify (twoPathNotification 0 .timeout 0 1 0 100000),
    .notify (twoPathNotification 1 .timeout 0 2 0 200000),
    .notify (twoPathNotification 0 .acknowledgement 100 4 2 205000),
    .notify (twoPathNotification 1 .acknowledgement 100 4 2 210000),
    .notify (twoPathNotification 0 .acknowledgement 100 4 3 300000),
    .notify (twoPathNotification 0 .acknowledgement 100 6 4 305000),
    .notify (twoPathNotification 1 .acknowledgement 100 6 4 306000)]

/-- The first acknowledgements of the run are safe. -/
theorem cwinMinimum_le_run_sample :
    cwinMinimum ≤ (run Tonopah.step Tonopah.initial timeoutsThenAcks).nrss.cwin ∧
      (run Tonopah.step Tonopah.initial timeoutsThenAcks).nrss.cwin ≠ 0 ∧
      rnd (run Tonopah.step Tonopah.initial timeoutsThenAcks).nrss.cwin ≠ 0 :=
  cwinMinimum_le_run (by decide +kernel)

/-- One acknowledgement more draws the verdict: fair queuing is detected in a window of 3242
bytes, and seven eighths of it are below the floor. -/
theorem window_below_floor :
    (run Tonopah.step Tonopah.initial timeoutsThenAcks).nrss.cwin = 3228 ∧
      (run Tonopah.step Tonopah.initial (timeoutsThenAcks ++
        [.notify (twoPathNotification 1 .acknowledgement 100 7 5 400000)])).nrss.cwin = 2836 ∧
      2836 < cwinMinimum := by
  decide +kernel

end Picoquic
