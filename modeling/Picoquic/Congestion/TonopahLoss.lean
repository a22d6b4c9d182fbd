import Picoquic.Congestion.TonopahWindow

/-!
# The reaction of Tonopah to a loss

A loss that passes the recovery gate halves the window, or takes it to the minimum after a
timeout, provided there is a measurement interval; the windows of two paths then sum to the new
window, give or take one minimum for each of them (`notify_loss`). The rest of the state is
described by an invariant of all runs, `Tonopah.Good`:

* **the paths** — the dominant path is the first one, and it is known with the first path;
* **the intervals** — there are four at most, and none before both paths are known.

Without an interval, a loss in congestion avoidance is ignored; a connection of one path never
gets an interval, and its enforced window never changes (`loss_ignored`).
-/

namespace Picoquic

open Binary64 Runs Tonopah

/-! ### The split of the window -/

theorem toUint64_le {x : ℚ} (hx : 0 ≤ x) : (toUint64 x : ℚ) ≤ x :=
  (Nat.cast_le.mpr (u64_le _)).trans (Nat.floor_le hx)

theorem tonopahRatio_add : tonopahRatio + rnd (1 - tonopahRatio) = 1 := by decide +kernel

theorem tonopahRatio_mem : 1 / 2 ≤ tonopahRatio ∧ tonopahRatio ≤ 3 / 4 := by decide +kernel

/-- Two shares of a whole, each raised to a minimum. -/
private theorem max_add_max_le {a b c m w r : ℚ} (hm : 0 ≤ m) (hw : 0 ≤ w) (hr : 1 / 2 ≤ r)
    (hr' : r ≤ 3 / 4) (ha : a ≤ w * r) (hb : b ≤ w * (1 - r)) (hwc : w ≤ c + 2 * m)
    (hwc' : w * (3 / 4) ≤ c) : max a m + max b m ≤ c + 2 * m := by
  have ha' : a ≤ c := (ha.trans (mul_le_mul_of_nonneg_left hr' hw)).trans hwc'
  have hb' : b ≤ c :=
    (hb.trans (mul_le_mul_of_nonneg_left (show 1 - r ≤ 3 / 4 by linarith) hw)).trans hwc'
  have hab : a + b ≤ w := by linarith
  rcases le_total a m with h | h <;> rcases le_total b m with h' | h'
  · rw [max_eq_right h, max_eq_right h']
    linarith
  · rw [max_eq_right h, max_eq_left h']
    linarith
  · rw [max_eq_left h, max_eq_right h']
    linarith
  · rw [max_eq_left h, max_eq_left h']
    linarith

/-- The shares sum to the window, give or take one minimum for each path. -/
theorem dominantCwin_add_submissiveCwin_le {cwin : ℕ} (hc : cwin < 2 ^ 64) :
    dominantCwin cwin + submissiveCwin cwin ≤ cwin + 2 * cwinMinimum := by
  obtain ⟨hlo, hhi⟩ := tonopahRatio_mem
  have hsub : rnd (1 - tonopahRatio) = 1 - tonopahRatio := by
    have := tonopahRatio_add
    linarith
  have hc' : (cwin : ℚ) < 2 ^ 64 := by exact_mod_cast hc
  have h0 : (0 : ℚ) ≤ cwin := Nat.cast_nonneg _
  have hr := rnd_le h0
  have hr0 := rnd_nonneg h0
  have hmin : (cwinMinimum : ℚ) = 3072 := by norm_num [cwinMinimum, maxPacketSize]
  -- each share is off by two roundings
  have hshare : ∀ r : ℚ, 0 ≤ r → rnd (rnd cwin * r) ≤ cwin * (1 + 1 / 2 ^ 53) ^ 2 * r := by
    intro r hr'
    calc rnd (rnd cwin * r) ≤ rnd cwin * r * (1 + 1 / 2 ^ 53) := rnd_le (by positivity)
      _ ≤ cwin * (1 + 1 / 2 ^ 53) * r * (1 + 1 / 2 ^ 53) := by gcongr
      _ = cwin * (1 + 1 / 2 ^ 53) ^ 2 * r := by ring
  have hwhole : (cwin : ℚ) * (1 + 1 / 2 ^ 53) ^ 2 ≤ cwin + 2 * cwinMinimum := by
    calc (cwin : ℚ) * (1 + 1 / 2 ^ 53) ^ 2
        = (cwin : ℚ) + (cwin : ℚ) * (2 / 2 ^ 53 + 1 / 2 ^ 106) := by ring
      _ ≤ (cwin : ℚ) + 2 ^ 64 * (2 / 2 ^ 53 + 1 / 2 ^ 106) := by gcongr
      _ ≤ (cwin : ℚ) + 2 * cwinMinimum := by
        rw [hmin]
        norm_num
  have hgoal : (dominantCwin cwin : ℚ) + submissiveCwin cwin ≤ cwin + 2 * cwinMinimum := by
    calc (dominantCwin cwin : ℚ) + submissiveCwin cwin
        ≤ max (rnd (rnd cwin * tonopahRatio)) cwinMinimum +
          max (rnd (rnd cwin * rnd (1 - tonopahRatio))) cwinMinimum :=
          add_le_add (toUint64_le (le_max_of_le_right (Nat.cast_nonneg _)))
            (toUint64_le (le_max_of_le_right (Nat.cast_nonneg _)))
      _ ≤ cwin + 2 * cwinMinimum := by
        rw [hsub]
        refine max_add_max_le (Nat.cast_nonneg _) (by positivity) hlo hhi
          (hshare _ (by linarith)) (hshare _ (by linarith)) hwhole ?_
        calc (cwin : ℚ) * (1 + 1 / 2 ^ 53) ^ 2 * (3 / 4)
            = (cwin : ℚ) * ((1 + 1 / 2 ^ 53) ^ 2 * (3 / 4)) := by ring
          _ ≤ (cwin : ℚ) * 1 := by
            gcongr
            norm_num
          _ = (cwin : ℚ) := mul_one _
  exact_mod_cast hgoal

/-! ### What holds in every run -/

/-- **Invariant of Tonopah.** -/
structure Tonopah.Good (s : Tonopah) : Prop where
  cwin_lt : s.nrss.cwin < 2 ^ 64
  /-- The assertion on the length of the interval list holds. -/
  length_le : s.intervals.length ≤ 4 * intervalsRequired
  /-- Intervals begin when both paths are known. -/
  known : s.intervals ≠ [] → s.path1.isSome ∧ s.path2.isSome
  /-- The second path is known after the first, and is another one. -/
  path_ne : s.path2.isSome → s.path1.isSome ∧ s.path1 ≠ s.path2
  /-- The first path is dominant from the first notification on. -/
  dominant : s.dominantPath = some 0 ∨ s.dominantPath = none ∧ s.path1 = none

/-- The invariant depends on the paths only through what they are. -/
theorem Tonopah.Good.of_paths_eq {s t : Tonopah} (hs : s.Good) (h1 : t.path1 = s.path1)
    (h2 : t.path2 = s.path2) (hd : t.dominantPath = s.dominantPath)
    (hcwin : t.nrss.cwin < 2 ^ 64) (hlen : t.intervals.length ≤ 4 * intervalsRequired)
    (hknown : t.intervals ≠ [] → s.path1.isSome ∧ s.path2.isSome) : t.Good := by
  refine ⟨hcwin, hlen, ?_, ?_, ?_⟩
  · rwa [h1, h2]
  · rw [h1, h2]
    exact hs.path_ne
  · rw [h1, hd]
    exact hs.dominant

/-! ### The invariant is preserved -/

theorem simAcknowledgement_cwin_lt {nrss : SimState} (n : Notification) :
    (simAcknowledgement nrss n).cwin < 2 ^ 64 := by
  rw [simAcknowledgement]
  cases nrss.algState with
  | slowStart => exact u64_lt _
  | congestionAvoidance => exact toUint64_lt _

theorem enterRecovery_cwin_lt {nrss : SimState} (h : nrss.cwin < 2 ^ 64) (n : Notification) :
    (nrss.enterRecovery n).cwin < 2 ^ 64 := by
  have hmin : cwinMinimum < 2 ^ 64 := by decide
  dsimp only [SimState.enterRecovery]
  split_ifs
  · exact hmin
  · omega

variable {s : Tonopah}

/-- The simulated New Reno deletes intervals at most. -/
theorem Tonopah.Good.simNotify (hs : s.Good) (n : Notification) : (s.simNotify n).Good := by
  -- everything but a loss leaves the intervals as they are
  have hsame : ∀ nrss : SimState, nrss.cwin < 2 ^ 64 → Tonopah.Good { s with nrss := nrss } :=
    fun nrss h => hs.of_paths_eq rfl rfl rfl h hs.length_le hs.known
  rw [Tonopah.simNotify]
  cases n.notification with
  | acknowledgement => exact hsame _ (simAcknowledgement_cwin_lt n)
  | ecnEc | repeated | timeout =>
    dsimp only
    split_ifs
    · have hcwin := enterRecovery_cwin_lt hs.cwin_lt n
      rw [simEnterRecovery]
      split_ifs
      · exact hs
      · exact hs.of_paths_eq rfl rfl rfl hcwin (Nat.zero_le _) (fun h => absurd rfl h)
      · exact hsame _ hcwin
    · exact hs
  | spuriousRepeat =>
    refine hsame _ ?_
    rw [simSpuriousRepeat]
    split_ifs
    · exact u64_lt _
    · exact hs.cwin_lt
  | seedCwin =>
    refine hsame _ ?_
    rw [simSeedCwin]
    split_ifs
    · exact n.nbBytesAcknowledged.isLt
    · exact hs.cwin_lt
  | reset => exact hsame _ (by decide)
  | bwMeasurement | rttMeasurement | cwinBlocked => exact hs

theorem findRightInterval_length (l : List IntervalInfo) (id : IntervalPathId) (ackNum : ℕ) :
    (findRightInterval l id ackNum).1.length = l.length := by
  rw [findRightInterval]
  split
  · rfl
  · exact List.length_modify _ _ _

theorem Tonopah.recordAck_intervals_length (s : Tonopah) (n : Notification) :
    (s.recordAck n).intervals.length = s.intervals.length := by
  rw [recordAck]
  dsimp only
  rw [← findRightInterval_length s.intervals]
  cases (findRightInterval s.intervals _ _).2 with
  | none => rfl
  | some i => exact List.length_modify _ _ _

theorem Tonopah.Good.recordAck (hs : s.Good) (n : Notification) : (s.recordAck n).Good := by
  have hlen := s.recordAck_intervals_length n
  refine hs.of_paths_eq rfl rfl rfl hs.cwin_lt (hlen ▸ hs.length_le) fun hne => hs.known ?_
  rw [← List.length_pos_iff] at hne ⊢
  omega

/-- A new interval drops the oldest of four. -/
theorem Tonopah.appendInterval_intervals_length (s : Tonopah) (n : Notification) (t : ℕ)
    (h : s.intervals.length ≤ 4 * intervalsRequired) :
    (s.appendInterval n t).intervals.length ≤ 4 * intervalsRequired := by
  rw [appendInterval]
  dsimp only
  split_ifs with hlen
  · rw [List.length_dropLast, List.length_cons]
    omega
  · exact not_lt.mp hlen

theorem Tonopah.Good.reactToFq (hs : s.Good) : s.reactToFq.Good := by
  rw [Tonopah.reactToFq]
  split_ifs
  · exact hs.of_paths_eq rfl rfl rfl (toUint64_lt _) (Nat.zero_le _) (fun h => absurd rfl h)
  · exact hs

theorem Tonopah.Good.deleteInfoList (hs : s.Good) : s.deleteInfoList.Good :=
  hs.of_paths_eq rfl rfl rfl hs.cwin_lt (Nat.zero_le _) (fun h => absurd rfl h)

theorem Tonopah.Good.splitWindow (hs : s.Good) (cwin : ℕ) : (s.splitWindow cwin).Good := by
  rw [Tonopah.splitWindow]
  split_ifs
  · exact hs.of_paths_eq rfl rfl rfl hs.cwin_lt hs.length_le hs.known
  · exact hs.of_paths_eq rfl rfl rfl hs.cwin_lt hs.length_le hs.known
  · exact hs

@[simp]
theorem Tonopah.reactToFq_paths (s : Tonopah) : s.reactToFq.path1 = s.path1 ∧
    s.reactToFq.path2 = s.path2 ∧ s.reactToFq.dominantPath = s.dominantPath := by
  rw [reactToFq]
  split_ifs <;> exact ⟨rfl, rfl, rfl⟩

theorem Tonopah.Good.changeInterval (hs : s.Good) (hknown : s.path1.isSome ∧ s.path2.isSome)
    (n : Notification) (t : ℕ) : (s.changeInterval n t).Good := by
  obtain ⟨h1, h2, -⟩ := s.reactToFq_paths
  have hr := hs.reactToFq
  rw [← h1, ← h2] at hknown
  rw [Tonopah.changeInterval]
  split_ifs
  · exact hr.of_paths_eq rfl rfl rfl hr.cwin_lt
      (appendInterval_intervals_length _ n t hr.length_le) fun _ => hknown
  · exact hr.of_paths_eq rfl rfl rfl hr.cwin_lt
      (appendInterval_intervals_length _ n t hr.deleteInfoList.length_le) fun _ => hknown

theorem Tonopah.Good.setPath (hs : s.Good) (n : Notification) (cwin t : ℕ) :
    (s.setPath n cwin t).Good := by
  rw [Tonopah.setPath]
  split_ifs with hpaths
  · exact (hs.changeInterval hpaths.2 n t).splitWindow cwin
  · exact hs.splitWindow cwin
  · exact hs

/-- After learning the notified path, the first path is known, and the second is another one. -/
theorem Tonopah.Good.learnPath (hs : s.Good) (path : PathIndex) :
    (s.learnPath path).path1.isSome ∧
      ((s.learnPath path).path2.isSome → (s.learnPath path).path1 ≠ (s.learnPath path).path2) ∧
      ((s.learnPath path).intervals ≠ [] → (s.learnPath path).path2.isSome) := by
  rw [Tonopah.learnPath]
  split_ifs with h1 h2
  · refine ⟨rfl, fun h => ?_, fun h => (hs.known h).2⟩
    have := (hs.path_ne h).1
    rw [h1] at this
    simp at this
  · exact ⟨Option.isSome_iff_ne_none.mpr h1, fun _ => h2.1.symm, fun _ => rfl⟩
  · exact ⟨Option.isSome_iff_ne_none.mpr h1, fun h => (hs.path_ne h).2, fun h => (hs.known h).2⟩

@[simp]
theorem Tonopah.learnPath_frame (s : Tonopah) (path : PathIndex) :
    (s.learnPath path).nrss = s.nrss ∧ (s.learnPath path).intervals = s.intervals ∧
      (s.learnPath path).dominantPath = s.dominantPath := by
  rw [learnPath]
  split_ifs <;> exact ⟨rfl, rfl, rfl⟩

/-- After the registration of the paths, the first path is dominant. -/
theorem Tonopah.Good.registerPaths (hs : s.Good) (n : Notification) :
    (s.registerPaths n).Good ∧ (s.registerPaths n).dominantPath = some 0 := by
  obtain ⟨h1, hne, hknown⟩ := hs.learnPath n.path
  obtain ⟨hnrss, hint, hdom⟩ := s.learnPath_frame n.path
  have hcwin := hs.cwin_lt
  have hlen := hs.length_le
  rw [← hnrss] at hcwin
  rw [← hint] at hlen
  rw [Tonopah.registerPaths]
  split_ifs with hd
  · exact ⟨⟨hcwin, hlen, fun h => ⟨h1, hknown h⟩, fun h => ⟨h1, hne h⟩, Or.inl rfl⟩, rfl⟩
  · rw [hdom] at hd
    have hd0 : (s.learnPath n.path).dominantPath = some 0 := by
      rw [hdom]
      exact hs.dominant.resolve_right fun h => hd h.1
    exact ⟨⟨hcwin, hlen, fun h => ⟨h1, hknown h⟩, fun h => ⟨h1, hne h⟩, Or.inl hd0⟩, hd0⟩

@[simp]
theorem Tonopah.registerPaths_intervals (s : Tonopah) (n : Notification) :
    (s.registerPaths n).intervals = s.intervals := by
  rw [registerPaths, learnPath]
  split_ifs <;> rfl

theorem Tonopah.Good.raiseForLongDelay (hs : s.Good) (n : Notification) :
    (s.raiseForLongDelay n).Good := by
  rw [Tonopah.raiseForLongDelay]
  dsimp only
  split_ifs
  · apply Good.setPath
    exact hs.of_paths_eq rfl rfl rfl (toUint64_lt _) hs.length_le hs.known
  · exact hs

theorem Tonopah.Good.hystart (hs : s.Good) (n : Notification) : (s.hystart n).1.Good := by
  refine hs.of_paths_eq rfl rfl rfl ?_ hs.length_le hs.known
  rw [hystart_cwin]
  exact hs.cwin_lt

/-- **Step lemma.** Every notification keeps the invariant. -/
theorem Tonopah.Good.notify (hs : s.Good) (n : Notification) : (s.notify n).Good := by
  have hr := (hs.registerPaths n).1
  revert hr
  rw [Tonopah.notify]
  generalize s.registerPaths n = r
  intro hr
  dsimp only
  cases n.notification with
  | acknowledgement =>
    dsimp only
    split_ifs
    · exact ((hr.simNotify n).recordAck n).setPath n _ _
    · exact hr
  | ecnEc =>
    dsimp only
    split_ifs
    · exact hr
    · exact (hr.simNotify n).setPath n _ _
  | seedCwin | repeated | timeout | spuriousRepeat => exact (hr.simNotify n).setPath n _ _
  | rttMeasurement =>
    dsimp only
    split_ifs
    · exact ((hr.raiseForLongDelay n).hystart n).setPath n _ _
    · exact (hr.raiseForLongDelay n).hystart n
    · exact hr
  | bwMeasurement =>
    dsimp only
    split_ifs
    · apply Good.setPath
      exact hr.of_paths_eq rfl rfl rfl n.bandwidthWindow_lt hr.length_le hr.known
    · exact hr
  | reset => exact hr.of_paths_eq rfl rfl rfl simReset_aboveFloor.lt hr.length_le hr.known
  | cwinBlocked => exact hr

/-- Every event keeps the invariant. -/
theorem Tonopah.Good.step (hs : s.Good) (e : TonopahEvent) : (s.step e).Good := by
  cases e with
  | init path =>
    refine hs.of_paths_eq rfl rfl rfl ?_ hs.length_le hs.known
    dsimp only [Tonopah.step]
    split_ifs
    · exact simReset_aboveFloor.lt
    · exact hs.cwin_lt
  | notify n => exact hs.notify n

theorem Tonopah.initial_good : Tonopah.initial.Good :=
  ⟨simReset_aboveFloor.lt, by decide, fun h => absurd rfl h, fun h => absurd h (by decide),
    Or.inr ⟨rfl, rfl⟩⟩

/-- **Run lemma.** The invariant holds in every reachable state. -/
theorem Tonopah.run_good (evs : List TonopahEvent) : (run Tonopah.step Tonopah.initial evs).Good :=
  run_invariant (fun _ e hs => hs.step e) Tonopah.initial_good evs

/-! ### A loss -/

theorem Tonopah.detectsFq_of_intervals_eq_nil (h : s.intervals = []) (n : Notification) (t : ℕ) :
    s.detectsFq n t = false := by
  simp [detectsFq, h, aggregateIntervals, aggregateLoop]

theorem Tonopah.changeInterval_paths (s : Tonopah) (n : Notification) (t : ℕ) :
    (s.changeInterval n t).path1 = s.path1 ∧ (s.changeInterval n t).path2 = s.path2 ∧
      (s.changeInterval n t).dominantPath = s.dominantPath := by
  rw [changeInterval]
  split_ifs <;> exact s.reactToFq_paths

/-- The shares of the two paths. -/
theorem Tonopah.splitWindow_pathCwin (h : s.dominantPath = s.path1 ∨ s.dominantPath = s.path2)
    (cwin : ℕ) :
    (s.splitWindow cwin).pathCwin 0 + (s.splitWindow cwin).pathCwin 1 =
      dominantCwin cwin + submissiveCwin cwin := by
  rw [splitWindow]
  split_ifs with h1 h2
  · rfl
  · exact Nat.add_comm _ _
  · exact absurd h (not_or.mpr ⟨h1, h2⟩)

/-- Setting two known paths splits the window between them. -/
theorem Tonopah.Good.setPath_pathCwin (hs : s.Good) (hd : s.dominantPath = some 0)
    (h1 : s.path1.isSome) (h2 : s.path2.isSome) {n : Notification} (hn : n.nbPaths = 2) {cwin : ℕ}
    (hcwin : cwin < 2 ^ 64) (t : ℕ) :
    (s.setPath n cwin t).pathCwin 0 + (s.setPath n cwin t).pathCwin 1 ≤
      cwin + 2 * cwinMinimum := by
  -- one of the two paths is the dominant one
  have hmem : s.dominantPath = s.path1 ∨ s.dominantPath = s.path2 := by
    obtain ⟨p, hp⟩ := Option.isSome_iff_exists.mp h1
    obtain ⟨q, hq⟩ := Option.isSome_iff_exists.mp h2
    have hne := (hs.path_ne h2).2
    rw [hp, hq, ne_eq, Option.some.injEq] at hne
    rw [hd, hp, hq, Option.some.injEq, Option.some.injEq]
    exact (by decide : ∀ p q : PathIndex, p ≠ q → 0 = p ∨ 0 = q) p q hne
  rw [Tonopah.setPath, if_pos ⟨hn, h1, h2⟩]
  dsimp only
  rw [splitWindow_pathCwin]
  · exact dominantCwin_add_submissiveCwin_le hcwin
  · split_ifs
    · obtain ⟨e1, e2, ed⟩ := s.changeInterval_paths n t
      rwa [e1, e2, ed]
    · exact hmem

/-- A loss that counts, when there is an interval: the list is emptied. -/
theorem Tonopah.Good.simNotify_loss (hs : s.Good) {n : Notification}
    (hkind : n.notification = .repeated ∨ n.notification = .timeout)
    (hgate : n.passesRecoveryGate s.nrss = true) (hint : s.intervals ≠ []) :
    s.simNotify n = { s with intervals := [], nrss := s.nrss.enterRecovery n } := by
  have hlen : ¬ (s.nrss.algState = .congestionAvoidance ∧ s.intervals.length = 0) :=
    fun h => hint (List.length_eq_zero_iff.mp h.2)
  rw [Tonopah.simNotify]
  rcases hkind with hk | hk
  · rw [hk]
    dsimp only
    rw [if_pos hgate, simEnterRecovery, if_neg hlen, if_pos (hs.known hint)]
    rfl
  · rw [hk]
    dsimp only
    rw [if_pos hgate, simEnterRecovery, if_neg hlen, if_pos (hs.known hint)]
    rfl

/-- **The reaction to a loss.** In every reachable state with a measurement interval, a repeat
or timeout that passes the recovery gate halves the window, down to the minimum, or takes it to
the minimum after a timeout; recovery starts now; and on a connection of two paths the enforced
windows sum to no more than the new window and a minimum for each path. -/
theorem notify_loss (evs : List TonopahEvent) {n : Notification}
    (hkind : n.notification = .repeated ∨ n.notification = .timeout)
    (hgate : n.passesRecoveryGate (run Tonopah.step Tonopah.initial evs).nrss = true)
    (hint : (run Tonopah.step Tonopah.initial evs).intervals ≠ []) :
    let s := run step initial evs
    let s' := s.step (.notify n)
    s'.nrss.cwin =
        (if n.notification = .timeout then cwinMinimum else max (s.nrss.cwin / 2) cwinMinimum) ∧
      s'.nrss.recoveryStart = n.currentTime ∧
      (n.nbPaths = 2 → s'.pathCwin 0 + s'.pathCwin 1 ≤ s'.nrss.cwin + 2 * cwinMinimum) := by
  intro s s'
  have hs : s.Good := run_good evs
  obtain ⟨hr, hd⟩ := hs.registerPaths n
  set r := s.registerPaths n with hrdef
  have hnrss : r.nrss = s.nrss := s.registerPaths_nrss n
  have hint' : r.intervals ≠ [] := by
    rw [hrdef, registerPaths_intervals]
    exact hint
  have hsim : r.simNotify n = { r with intervals := [], nrss := s.nrss.enterRecovery n } := by
    rw [← hnrss]
    exact hr.simNotify_loss hkind (by rwa [hnrss]) hint'
  have hs' : s' = (r.simNotify n).setPath n (r.simNotify n).nrss.cwin (n.clock 1) := by
    change s.notify n = _
    rw [notify, ← hrdef]
    rcases hkind with hk | hk <;> rw [hk]
  have hnrss' : s'.nrss = s.nrss.enterRecovery n := by
    rw [hs', setPath_nrss, detectsFq_of_intervals_eq_nil (by rw [hsim]), hsim]
    rfl
  refine ⟨?_, ?_, ?_⟩
  · rw [hnrss']
    rfl
  · rw [hnrss']
    rfl
  · intro hn
    have hgood := hr.simNotify n
    have hcwin : (r.simNotify n).nrss.cwin = s'.nrss.cwin := by rw [hnrss', hsim]
    obtain ⟨h1, h2⟩ := hr.known hint'
    rw [← hcwin, hs']
    refine hgood.setPath_pathCwin ?_ ?_ ?_ hn hgood.cwin_lt _
    · rw [hsim]
      exact hd
    · rw [hsim]
      exact h1
    · rw [hsim]
      exact h2

/-- A loss after the acknowledgements of `timeoutsThenAcks`, which left two intervals. -/
theorem notify_loss_sample :
    let s := run step initial timeoutsThenAcks
    let n := twoPathNotification 0 .repeated 0 7 5 310000
    let s' := s.step (.notify n)
    s'.nrss.cwin =
        (if n.notification = .timeout then cwinMinimum else max (s.nrss.cwin / 2) cwinMinimum) ∧
      s'.nrss.recoveryStart = n.currentTime ∧
      (n.nbPaths = 2 → s'.pathCwin 0 + s'.pathCwin 1 ≤ s'.nrss.cwin + 2 * cwinMinimum) :=
  notify_loss timeoutsThenAcks (Or.inl rfl) (by decide +kernel) (by
    rw [← List.length_pos_iff]
    decide +kernel)

/-- The same notification when the connection has one path. -/
def Notification.onePath (n : Notification) : Notification :=
  { n with nbPaths := 1, nbPaths_eq := Or.inl rfl }

/-- A loss on a connection of one path, in slow start. -/
def firstLoss : List TonopahEvent :=
  [.notify (twoPathNotification 0 .repeated 0 1 0 100000).onePath]

/-- Two paths in slow start with a large window, and a loss. -/
def firstLossOnTwoPaths : List TonopahEvent :=
  [.init 1,
    .notify (twoPathNotification 0 .acknowledgement 60000 2 1 100000),
    .notify (twoPathNotification 1 .acknowledgement 1000 3 2 200000),
    .notify (twoPathNotification 0 .repeated 0 4 3 300000)]

/-- A loss that passes the gate in congestion avoidance need not do anything. On a connection of
one path the second loss is ignored: the window stays, and so does the recovery. When the second
path is gone, the window is halved but the window enforced on the first path stays. -/
theorem loss_ignored :
    (let s := run step initial firstLoss
      let n := (twoPathNotification 0 .repeated 0 2 1 200000).onePath
      s.nrss.algState = .congestionAvoidance ∧ n.passesRecoveryGate s.nrss = true ∧
        (s.step (.notify n)).nrss.cwin = 7680 ∧ s.nrss.cwin = 7680 ∧
        (s.step (.notify n)).nrss.recoveryStart = 100000) ∧
      let s := run step initial firstLossOnTwoPaths
      let n := (twoPathNotification 0 .repeated 0 5 4 400000).onePath
      s.nrss.algState = .congestionAvoidance ∧ n.passesRecoveryGate s.nrss = true ∧
        (s.step (.notify n)).nrss.cwin + cwinMinimum < (s.step (.notify n)).pathCwin 0 := by
  decide +kernel

end Picoquic
