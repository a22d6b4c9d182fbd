import Picoquic.Congestion.TonopahMemory

/-!
# The first Tonopah

`tonopah.c`, from which `new_tonopah.c` was made. The window is that of New Reno, as there, but the
dominant path alternates with every interval, and the verdict compares rates: the share of the
dominant path in what was acknowledged with its share in what was sent, over four intervals.

* **`BandwidthInterval`** — what an interval records: acknowledgement times and bytes;
* **`aggregateBandwidth`** — the sums of a verdict, **`BandwidthSums.detectedFq`** — the verdict;
* **`AlternatingTonopah.notify`** — the reaction to a notification;
* **`AlternatingTonopah.run_verdicts_measured`** — when the sums can be divided by.

What the two algorithms have in common is read from a `Tonopah`, whose own intervals are not used.
The verdicts are logged. Should one follow `next` beyond the newest interval, the log says so, and
the run goes on as without a verdict.
-/

namespace Picoquic

open Binary64 Runs Tonopah

/-! ### Doubles -/

/-- A nonnegative double, or what a division by zero gives. -/
inductive Quotient64
  | finite (q : ℚ)
  | infinity
  | nan

namespace Quotient64

/-- Division of nonnegative doubles. -/
def divide (x y : ℚ) : Quotient64 :=
  if y ≠ 0 then finite (rnd (x / y)) else if x = 0 then nan else infinity

/-- `x * 1000000. / 1000000`. -/
def scale : Quotient64 → Quotient64
  | finite q => finite (rnd (rnd (q * 1000000) / 1000000))
  | infinity => infinity
  | nan => nan

/-- `x + y`. -/
def add : Quotient64 → Quotient64 → Quotient64
  | finite x, finite y => finite (rnd (x + y))
  | nan, _ => nan
  | _, nan => nan
  | infinity, _ => infinity
  | _, infinity => infinity

/-- `x / y`. -/
def div : Quotient64 → Quotient64 → Quotient64
  | finite x, finite y => divide x y
  | finite _, infinity => finite 0
  | infinity, finite _ => infinity
  | _, _ => nan

/-- `x < q`. -/
def ltFinite : Quotient64 → ℚ → Bool
  | finite x, q => decide (x < q)
  | _, _ => false

end Quotient64

/-! ### Data -/

/-- What an interval of `tonopah.c` records of one path. -/
structure BandwidthSide where
  firstSeqNum : ℕ
  firstAckTime : ℕ
  lastAckTime : ℕ
  bytesReceived : ℕ
  finished : Bool

/-- `picoquic_tonopah_interval_info_t`. -/
structure BandwidthInterval where
  side : IntervalPathId → BandwidthSide
  dominantPathId : IntervalPathId

/-- The sums of `aggregate_intervals`. -/
structure BandwidthSums where
  len : ℕ
  accTimeDiffsDominant : ℕ
  accTimeDiffsSubmissive : ℕ
  accBytesDominant : ℕ
  accBytesSubmissive : ℕ
  sentBytesDominant : ℕ
  sentBytesSubmissive : ℕ
  deriving DecidableEq

/-- What `aggregate_intervals` computes a verdict from. -/
inductive BandwidthVerdict
  | sums (a : BandwidthSums)
  /-- The newest interval is finished, and its `next` is `NULL`. -/
  | nullRead
  deriving DecidableEq

/-- The state of `tonopah.c`. -/
structure AlternatingTonopah where
  core : Tonopah
  /-- The interval list, from `interval_list_last` along `prev`. -/
  intervals : List BandwidthInterval
  /-- The verdicts so far, the last one first. -/
  verdicts : List BandwidthVerdict

/-- `INTERVALS_REQUIRED` of `tonopah.c`. -/
def bandwidthIntervalsRequired : ℕ := 4

/-- `minimum_interval`, which `maximum_interval` equals. -/
def bandwidthInterval : ℕ := 50000

/-- `ratio`, the double nearest to three fifths. -/
def bandwidthRatio : ℚ := rnd (3 / 5)

/-! ### The intervals -/

/-- Changes what an interval records of one path. -/
def BandwidthInterval.modifySide (e : BandwidthInterval) (id : IntervalPathId)
    (f : BandwidthSide → BandwidthSide) : BandwidthInterval :=
  { e with side := Function.update e.side id (f (e.side id)) }

/-- An interval is finished for a path, provided something was acknowledged. -/
def BandwidthSide.finish (d : BandwidthSide) : BandwidthSide :=
  if d.finished then d
  else { d with
    finished := decide (d.firstAckTime ≠ 0 ∧ d.lastAckTime ≠ 0 ∧ d.bytesReceived ≠ 0 ∧
      d.firstSeqNum ≠ 0) }

/-- What an acknowledgement of `bytes` at time `t` adds to its interval. -/
def BandwidthSide.count (t bytes : ℕ) (d : BandwidthSide) : BandwidthSide :=
  { d with
    bytesReceived := u64 (d.bytesReceived + bytes)
    firstAckTime := if d.firstAckTime = 0 then t else d.firstAckTime
    lastAckTime := t }

/-- `find_right_interval`, and what an acknowledgement adds to the interval that is found. -/
def recordBandwidth (id : IntervalPathId) (ackNum t bytes : ℕ) :
    List BandwidthInterval → List BandwidthInterval
  | [] => []
  | e :: older =>
    if (e.side id).firstSeqNum ≤ ackNum then
      e.modifySide id (.count t bytes) :: older.modifyHead (·.modifySide id .finish)
    else e :: recordBandwidth id ackNum t bytes older

/-- The other path. -/
def IntervalPathId.other : IntervalPathId → IntervalPathId
  | path1 => path2
  | path2 => path1

/-- Adds a finished interval to the sums. -/
def BandwidthSums.add (a : BandwidthSums) (newer e : BandwidthInterval) : BandwidthSums :=
  let timeDiff (id : IntervalPathId) := sub64 (e.side id).lastAckTime (e.side id).firstAckTime
  let sent (id : IntervalPathId) := sub64 (newer.side id).firstSeqNum (e.side id).firstSeqNum
  let d := e.dominantPathId
  { len := a.len + 1
    accTimeDiffsDominant := u64 (a.accTimeDiffsDominant + timeDiff d)
    accTimeDiffsSubmissive := u64 (a.accTimeDiffsSubmissive + timeDiff d.other)
    accBytesDominant := u64 (a.accBytesDominant + (e.side d).bytesReceived)
    accBytesSubmissive := u64 (a.accBytesSubmissive + (e.side d.other).bytesReceived)
    sentBytesDominant := u64 (a.sentBytesDominant + sent d)
    sentBytesSubmissive := u64 (a.sentBytesSubmissive + sent d.other) }

/-- The sums before the first interval. -/
def BandwidthSums.zero : BandwidthSums := ⟨0, 0, 0, 0, 0, 0, 0⟩

/-- The interval is finished for both paths. -/
def BandwidthInterval.isFinished (e : BandwidthInterval) : Bool :=
  (e.side .path1).finished && (e.side .path2).finished

/-- The walk of `aggregate_intervals`, where `newer` is what `next` of the interval points to. -/
def aggregateBandwidth :
    Option BandwidthInterval → List BandwidthInterval → BandwidthSums → Option BandwidthVerdict
  | _, [], _ => none
  | newer, e :: older, a =>
    match if e.isFinished then newer.map (a.add · e) else some .zero with
    | none => some .nullRead
    | some a =>
      if a.len = bandwidthIntervalsRequired then some (.sums a)
      else aggregateBandwidth (some e) older a

/-- `bw_dominant`. -/
def BandwidthSums.bwDominant (a : BandwidthSums) : Quotient64 :=
  (Quotient64.divide (rnd (u64 (a.accBytesDominant * 8))) (rnd a.accTimeDiffsDominant)).scale

/-- `bw_submissive`. -/
def BandwidthSums.bwSubmissive (a : BandwidthSums) : Quotient64 :=
  (Quotient64.divide (rnd (u64 (a.accBytesSubmissive * 8))) (rnd a.accTimeDiffsSubmissive)).scale

/-- `observed_ratio`. -/
def BandwidthSums.observedRatio (a : BandwidthSums) : Quotient64 :=
  a.bwDominant.div (a.bwDominant.add a.bwSubmissive)

/-- `bw_sent_ratio`. -/
def BandwidthSums.bwSentRatio (a : BandwidthSums) : Quotient64 :=
  .divide (rnd a.sentBytesDominant) (rnd (rnd a.sentBytesSubmissive + rnd a.sentBytesDominant))

/-- The verdict: the dominant path sent the larger share, and it was acknowledged less of it. -/
def BandwidthSums.detectedFq (a : BandwidthSums) : Bool :=
  match a.bwSentRatio with
  | .finite r =>
    a.observedRatio.ltFinite (rnd (1 / 2 + rnd (1 / 2 * rnd (r - 1 / 2)))) &&
      decide (rnd (1 / 2 + rnd (3 / 4 * rnd (bandwidthRatio - 1 / 2))) < r)
  | _ => false

/-- The verdict of a log entry. -/
def BandwidthVerdict.detectedFq : BandwidthVerdict → Bool
  | sums a => a.detectedFq
  | nullRead => false

/-! ### The window -/

/-- The window that congestion avoidance computes from an acknowledgement. -/
def Notification.increasedBandwidthWindow (n : Notification) (nrss : SimState) : ℚ :=
  let ratio := min (rnd (rnd n.smoothedRtt / bandwidthInterval)) 1
  rnd (rnd nrss.cwin + rnd (ratio * rnd (rnd (n.completeDelta nrss) / rnd nrss.cwin)))

/-- The reaction of `picoquic_tonopah_sim_notify` to an acknowledgement. -/
def bandwidthSimAcknowledgement (nrss : SimState) (n : Notification) : SimState :=
  match nrss.algState with
  | .slowStart => simAcknowledgement nrss n
  | .congestionAvoidance =>
    { nrss with
      residualAck := n.completeDelta nrss % nrss.cwin
      cwin := toUint64 (n.increasedBandwidthWindow nrss) }

namespace AlternatingTonopah

/-- Another simulated New Reno. -/
def setNrss (s : AlternatingTonopah) (nrss : SimState) : AlternatingTonopah :=
  { s with core := { s.core with nrss := nrss } }

/-- `delete_info_list`. -/
def deleteInfoList (s : AlternatingTonopah) : AlternatingTonopah := { s with intervals := [] }

/-- `picoquic_tonopah_sim_enter_recovery`. -/
def simEnterRecovery (s : AlternatingTonopah) (n : Notification) : AlternatingTonopah :=
  if s.core.nrss.algState = .congestionAvoidance ∧ s.intervals.length = 0 then s
  else
    let s := if s.core.path1.isSome ∧ s.core.path2.isSome then s.deleteInfoList else s
    s.setNrss (s.core.nrss.enterRecovery n)

/-- `picoquic_tonopah_sim_notify`. -/
def simNotify (s : AlternatingTonopah) (n : Notification) : AlternatingTonopah :=
  match n.notification with
  | .acknowledgement => s.setNrss (bandwidthSimAcknowledgement s.core.nrss n)
  | .ecnEc | .repeated | .timeout =>
    if n.passesRecoveryGate s.core.nrss then s.simEnterRecovery n else s
  | .spuriousRepeat => s.setNrss (simSpuriousRepeat s.core.nrss n)
  | .seedCwin => s.setNrss (simSeedCwin s.core.nrss n.nbBytesAcknowledged)
  | .reset => s.setNrss simReset
  | .bwMeasurement | .rttMeasurement | .cwinBlocked => s

/-- The bookkeeping of an acknowledgement. -/
def recordAck (s : AlternatingTonopah) (n : Notification) : AlternatingTonopah :=
  { s with
    intervals := recordBandwidth (s.core.ackedSide n)
      (n.cnxPath n.path).pathPacketAckedNumber (n.clock 0) n.nbBytesAcknowledged s.intervals }

/-- The dominant path alternates. -/
def alternate (s : AlternatingTonopah) : AlternatingTonopah :=
  { s with
    core := { s.core with
      dominantPath := if s.core.dominantPath = s.core.path1 then s.core.path2 else s.core.path1 } }

/-- The end of an interval: the verdict is drawn. -/
def reactToFq (s : AlternatingTonopah) : AlternatingTonopah :=
  let verdict := aggregateBandwidth none s.intervals .zero
  let s := { s with verdicts := verdict.toList ++ s.verdicts }
  if verdict.elim false BandwidthVerdict.detectedFq ∧
      s.core.nrss.algState = .congestionAvoidance then
    let cwin := fqReducedWindow s.core.nrss.cwin
    (s.setNrss { s.core.nrss with ssthresh := cwin, cwin := cwin }).deleteInfoList
  else s

/-- A fresh interval. -/
def newInterval (s : AlternatingTonopah) (n : Notification) : BandwidthInterval :=
  { side := fun id => ⟨s.core.sideNumbers n.packetNumbers id, 0, 0, 0, false⟩
    dominantPathId := if s.core.dominantPath = s.core.path1 then .path1 else .path2 }

/-- The begin of an interval. The list keeps eight intervals. -/
def appendInterval (s : AlternatingTonopah) (n : Notification) (currentTime : ℕ) :
    AlternatingTonopah :=
  let l := s.newInterval n :: s.intervals
  { s with
    intervals := if 2 * bandwidthIntervalsRequired < l.length then l.dropLast else l
    core := { s.core with lastChange := currentTime } }

/-- The change of intervals in `set_path`. -/
def changeInterval (s : AlternatingTonopah) (n : Notification) (currentTime : ℕ) :
    AlternatingTonopah :=
  let s := s.alternate.reactToFq
  let s := if s.core.nrss.algState = .congestionAvoidance then s else s.deleteInfoList
  s.appendInterval n currentTime

/-- An interval is over. -/
def intervalElapsed (s : AlternatingTonopah) (n : Notification) (currentTime : ℕ) : Bool :=
  decide (u64 (s.core.lastChange +
    min (max bandwidthInterval n.meanSmoothedRtt) bandwidthInterval) < currentTime)

/-- The split of the window in `set_path`. -/
def splitWindow (s : AlternatingTonopah) (cwin : ℕ) : AlternatingTonopah :=
  let dominant := toUint64 (max (rnd (rnd cwin * bandwidthRatio)) cwinMinimum)
  let submissive := toUint64 (max (rnd (rnd cwin * rnd (1 - bandwidthRatio))) cwinMinimum)
  if s.core.dominantPath = s.core.path1 then
    { s with core := { s.core with pathCwin := fun i => if i = 0 then dominant else submissive } }
  else if s.core.dominantPath = s.core.path2 then
    { s with core := { s.core with pathCwin := fun i => if i = 0 then submissive else dominant } }
  else s

/-- `set_path`. -/
def setPath (s : AlternatingTonopah) (n : Notification) (cwin currentTime : ℕ) :
    AlternatingTonopah :=
  if n.nbPaths = 2 ∧ s.core.path1.isSome ∧ s.core.path2.isSome then
    let s := if s.intervalElapsed n currentTime then s.changeInterval n currentTime else s
    s.splitWindow cwin
  else s

/-- A long round trip time raises the window. -/
def raiseForLongDelay (s : AlternatingTonopah) (n : Notification) : AlternatingTonopah :=
  let rttMin := (n.cnxPath 0).rttMin
  if targetRenoRtt < (rttMin : ℕ) ∧ s.core.nrss.cwin < longDelayWindow rttMin then
    (s.setNrss { s.core.nrss with cwin := longDelayWindow rttMin }).setPath n
      (longDelayWindow rttMin) (n.clock 1)
  else s

/-- `picoquic_tonopah_notify`. -/
def notify (s : AlternatingTonopah) (n : Notification) : AlternatingTonopah :=
  let s := { s with core := s.core.registerPaths n }
  match n.notification with
  | .acknowledgement =>
    if n.isCwinLimited then
      let s := (s.simNotify n).recordAck n
      s.setPath n s.core.nrss.cwin (n.clock 1)
    else s
  | .seedCwin | .ecnEc | .repeated | .timeout | .spuriousRepeat =>
    let s := s.simNotify n
    s.setPath n s.core.nrss.cwin (n.clock 1)
  | .rttMeasurement =>
    if s.core.nrss.inInitialSlowStart then
      let s := s.raiseForLongDelay n
      let (core, exit) := s.core.hystart n
      let s := { s with core := core }
      if exit then s.setPath n s.core.nrss.cwin (n.clock 2) else s
    else s
  | .bwMeasurement =>
    if s.core.nrss.inInitialSlowStart ∧ s.core.nrss.cwin < n.bandwidthWindow then
      (s.setNrss { s.core.nrss with cwin := n.bandwidthWindow }).setPath n n.bandwidthWindow
        (n.clock 1)
    else s
  | .reset =>
    { s with core := { s.core with
      nrss := simReset
      rttFilter := .zero
      pathCwin := Function.update s.core.pathCwin n.path simReset.cwin } }
  | .cwinBlocked => s

/-- One event. -/
def step (s : AlternatingTonopah) : TonopahEvent → AlternatingTonopah
  | .init path => { s with core := s.core.step (.init path) }
  | .notify n => s.notify n

/-- The state of a new connection. -/
def initial : AlternatingTonopah := ⟨Tonopah.initial, [], []⟩

end AlternatingTonopah

/-! ### What a verdict needs -/

/-- The sums of a verdict can be divided by: both paths were acknowledged over some time and sent
packets, and neither the rates nor the packets sum to zero as doubles. -/
def BandwidthSums.Measured (a : BandwidthSums) : Prop :=
  a.accTimeDiffsDominant ≠ 0 ∧ a.accTimeDiffsSubmissive ≠ 0 ∧
    a.sentBytesDominant ≠ 0 ∧ a.sentBytesSubmissive ≠ 0 ∧
    (∃ q, 0 < q ∧ a.bwDominant.add a.bwSubmissive = .finite q) ∧
    rnd (rnd a.sentBytesSubmissive + rnd a.sentBytesDominant) ≠ 0

/-- A verdict is drawn from sums that can be divided by. -/
def BandwidthVerdict.Measured : BandwidthVerdict → Prop
  | sums a => a.Measured
  | nullRead => False

/-- An interval measured a path: its acknowledgements span some time, and neither times nor bytes
are so large that four of them overflow. -/
def BandwidthSide.Measured (d : BandwidthSide) : Prop :=
  (0 < sub64 d.lastAckTime d.firstAckTime ∧ sub64 d.lastAckTime d.firstAckTime < 2 ^ 62) ∧
    0 < d.bytesReceived ∧ d.bytesReceived < 2 ^ 59

instance (d : BandwidthSide) : Decidable d.Measured :=
  inferInstanceAs (Decidable ((_ ∧ _) ∧ _ ∧ _))

/-- What an acknowledgement needs: the interval that it finishes has measured the path, and so has
its own interval, if it is finished already. -/
def MeasuredAck (id : IntervalPathId) (ackNum t bytes : ℕ) : List BandwidthInterval → Prop
  | [] => True
  | e :: older =>
    if (e.side id).firstSeqNum ≤ ackNum then
      ((e.side id).finished = true → ((e.side id).count t bytes).Measured) ∧
        ∀ e' ∈ older.head?, (e'.side id).finished = false →
          (e'.side id).finish.finished = true → (e'.side id).Measured
    else MeasuredAck id ackNum t bytes older

/-- The condition is decided by the walk of `find_right_interval`. -/
instance MeasuredAck.decidable (id : IntervalPathId) (ackNum t bytes : ℕ) :
    ∀ l : List BandwidthInterval, Decidable (MeasuredAck id ackNum t bytes l)
  | [] => inferInstanceAs (Decidable True)
  | _ :: older =>
    have := MeasuredAck.decidable id ackNum t bytes older
    inferInstanceAs (Decidable (ite _ (_ ∧ ∀ e' ∈ older.head?, _) _))

/-- A sum of `k` terms between one and `m`. -/
def Between (k m x : ℕ) : Prop := k ≤ x ∧ x ≤ k * m

theorem Between.add {k m x y : ℕ} (h : Between k m x) (hy : 0 < y) (hym : y ≤ m)
    (hk : (k + 1) * m < 2 ^ 64) : Between (k + 1) m (u64 (x + y)) := by
  obtain ⟨hlo, hhi⟩ := h
  have hle : x + y ≤ (k + 1) * m := by
    rw [Nat.succ_mul]
    omega
  rw [Between, u64_of_lt (hle.trans_lt hk)]
  exact ⟨by omega, hle⟩

/-- Sums of terms that neither vanish nor overflow. -/
structure BandwidthSums.Within (a : BandwidthSums) : Prop where
  timeDominant : Between a.len (2 ^ 62 - 1) a.accTimeDiffsDominant
  timeSubmissive : Between a.len (2 ^ 62 - 1) a.accTimeDiffsSubmissive
  bytesDominant : Between a.len (2 ^ 59 - 1) a.accBytesDominant
  bytesSubmissive : Between a.len (2 ^ 59 - 1) a.accBytesSubmissive
  sentDominant : Between a.len (2 ^ 62 - 1) a.sentBytesDominant
  sentSubmissive : Between a.len (2 ^ 62 - 1) a.sentBytesSubmissive

theorem BandwidthSums.zero_within : BandwidthSums.zero.Within := by
  constructor <;> exact ⟨le_rfl, Nat.zero_le _⟩

theorem divide_scale_pos {x y : ℚ} (hx : 0 < x) (hy : 0 < y) :
    ∃ q, 0 < q ∧ (Quotient64.divide x y).scale = .finite q := by
  refine ⟨_, ?_, by rw [Quotient64.divide, if_pos hy.ne', Quotient64.scale]⟩
  have h1 := rnd_pos (div_pos hx hy)
  exact rnd_pos (div_pos (rnd_pos (by positivity)) (by norm_num))

variable {a : BandwidthSums}

/-- The sums of four intervals can be divided by. -/
theorem BandwidthSums.Within.measured (h : a.Within) (hlen : a.len = bandwidthIntervalsRequired) :
    a.Measured := by
  obtain ⟨⟨htd, -⟩, ⟨hts, -⟩, ⟨hbd, hbd'⟩, ⟨hbs, hbs'⟩, ⟨hsd, -⟩, ⟨hss, -⟩⟩ := h
  rw [hlen, bandwidthIntervalsRequired] at htd hts hbd hbd' hbs hbs' hsd hss
  have hrnd : ∀ n : ℕ, 4 ≤ n → 0 < rnd (n : ℚ) := fun n hn =>
    rnd_pos (Nat.cast_pos.mpr (by omega))
  obtain ⟨d, hd, hd'⟩ : ∃ q, 0 < q ∧ a.bwDominant = .finite q :=
    divide_scale_pos (hrnd _ (by rw [u64_of_lt (by omega)]; omega)) (hrnd _ htd)
  obtain ⟨s, hs, hs'⟩ : ∃ q, 0 < q ∧ a.bwSubmissive = .finite q :=
    divide_scale_pos (hrnd _ (by rw [u64_of_lt (by omega)]; omega)) (hrnd _ hts)
  refine ⟨by omega, by omega, by omega, by omega, ⟨_, rnd_pos (add_pos hd hs), ?_⟩, ?_⟩
  · rw [hd', hs', Quotient64.add]
  · exact (rnd_pos (add_pos (hrnd _ hss) (hrnd _ hsd))).ne'

/-! ### The interval list -/

/-- The numbers that an interval begins with. -/
def BandwidthInterval.firstSeqNums (e : BandwidthInterval) (id : IntervalPathId) : ℕ :=
  (e.side id).firstSeqNum

theorem BandwidthInterval.firstSeqNums_modifySide (e : BandwidthInterval) (id : IntervalPathId)
    {f : BandwidthSide → BandwidthSide} (hf : ∀ d, (f d).firstSeqNum = d.firstSeqNum) :
    (e.modifySide id f).firstSeqNums = e.firstSeqNums := by
  funext id'
  rcases eq_or_ne id' id with rfl | hne
  · simp [firstSeqNums, modifySide, hf]
  · simp [firstSeqNums, modifySide, hne]

theorem BandwidthSide.finish_frame (d : BandwidthSide) :
    d.finish = { d with finished := d.finish.finished } := by
  rw [finish]
  split_ifs <;> rfl

/-- Each interval began before the next newer one, strictly so where it was acknowledged, and has
measured what it is finished for; the newest began before `b`. -/
def BandwidthSound : (IntervalPathId → ℕ) → List BandwidthInterval → Prop
  | _, [] => True
  | b, e :: older =>
    (∀ id, (e.side id).firstSeqNum ≤ b id ∧
      ((e.side id).firstAckTime ≠ 0 → (e.side id).firstSeqNum < b id) ∧
      ((e.side id).finished = true → (e.side id).firstAckTime ≠ 0 ∧ (e.side id).Measured)) ∧
    BandwidthSound e.firstSeqNums older

namespace BandwidthSound

variable {b b' : IntervalPathId → ℕ} {l : List BandwidthInterval}

theorem mono (h : BandwidthSound b l) (hb : b ≤ b') : BandwidthSound b' l := by
  rcases l with _ | ⟨e, older⟩
  · trivial
  · refine ⟨fun id => ?_, h.2⟩
    obtain ⟨hle, hlt, hfin⟩ := h.1 id
    exact ⟨hle.trans (hb id), fun hack => (hlt hack).trans_le (hb id), hfin⟩

theorem dropLast (h : BandwidthSound b l) : BandwidthSound b l.dropLast := by
  induction l generalizing b with
  | nil => exact h
  | cons e older ih =>
    rcases older with _ | ⟨e', older⟩
    · trivial
    · exact ⟨h.1, ih h.2⟩

variable {id : IntervalPathId} {evs : List TonopahEvent}

/-- An interval that has measured a path is finished for it. -/
theorem finishHead (h : BandwidthSound b l) (hm : ∀ e ∈ l.head?, (e.side id).finished = false →
      (e.side id).finish.finished = true → (e.side id).Measured) :
    BandwidthSound b (l.modifyHead (·.modifySide id .finish)) := by
  rcases l with _ | ⟨e, older⟩
  · trivial
  · have hfirsts : (e.modifySide id .finish).firstSeqNums = e.firstSeqNums :=
      e.firstSeqNums_modifySide id fun d => by rw [d.finish_frame]
    rw [List.modifyHead_cons, BandwidthSound, hfirsts]
    refine ⟨fun id' => ?_, h.2⟩
    obtain ⟨hle, hlt, hfin⟩ := h.1 id'
    rcases eq_or_ne id' id with rfl | hne
    · simp only [BandwidthInterval.modifySide, Function.update_self]
      rcases hold : (e.side id').finished with _ | _
      · rw [(e.side id').finish_frame]
        refine ⟨hle, hlt, fun hnew => ⟨?_, hm e rfl hold hnew⟩⟩
        -- the check is what makes the first acknowledgement known
        have hcheck : (e.side id').finish.finished = true := hnew
        rw [BandwidthSide.finish, hold] at hcheck
        exact (of_decide_eq_true hcheck).1
      · rw [BandwidthSide.finish, if_pos hold]
        exact ⟨hle, hlt, hfin⟩
    · simp only [BandwidthInterval.modifySide, Function.update_of_ne hne]
      exact ⟨hle, hlt, hfin⟩

/-- An acknowledgement of a packet that was sent keeps the list sound when it meets
`MeasuredAck`. -/
theorem record (h : BandwidthSound b l) {ackNum t bytes : ℕ} (hack : ackNum < b id)
    (hm : MeasuredAck id ackNum t bytes l) :
    BandwidthSound b (recordBandwidth id ackNum t bytes l) := by
  induction l generalizing b with
  | nil => trivial
  | cons e older ih =>
    rw [recordBandwidth]
    rw [MeasuredAck] at hm
    split_ifs at hm ⊢ with hfound
    · obtain ⟨hcount, hfinish⟩ := hm
      rw [BandwidthSound, e.firstSeqNums_modifySide id (f := .count t bytes) fun _ => rfl]
      refine ⟨fun id' => ?_, h.2.finishHead hfinish⟩
      obtain ⟨hle, hlt, hfin⟩ := h.1 id'
      rcases eq_or_ne id' id with rfl | hne
      · simp only [BandwidthInterval.modifySide, Function.update_self]
        refine ⟨hle, fun _ => hfound.trans_lt hack, fun hf => ⟨?_, hcount hf⟩⟩
        have hfirst := (hfin hf).1
        simpa only [BandwidthSide.count, if_neg hfirst] using hfirst
      · simp only [BandwidthInterval.modifySide, Function.update_of_ne hne]
        exact ⟨hle, hlt, hfin⟩
    · exact ⟨h.1, ih h.2 (not_le.mp hfound) hm⟩

/-- A finished interval adds terms to the sums that neither vanish nor overflow. -/
theorem add_within {newer e : BandwidthInterval} {older : List BandwidthInterval}
    (h : BandwidthSound newer.firstSeqNums (e :: older))
    (hnewer : ∀ id, newer.firstSeqNums id < 2 ^ 62) (hfin : ∀ id, (e.side id).finished = true)
    (ha : a.Within) (hlen : a.len < bandwidthIntervalsRequired) : (a.add newer e).Within := by
  rw [bandwidthIntervalsRequired] at hlen
  have hterm : ∀ id, (e.side id).Measured ∧
      0 < sub64 (newer.side id).firstSeqNum (e.side id).firstSeqNum ∧
      sub64 (newer.side id).firstSeqNum (e.side id).firstSeqNum < 2 ^ 62 := by
    intro id
    obtain ⟨hle, hlt, hf⟩ := h.1 id
    obtain ⟨hfirst, hmeasured⟩ := hf (hfin id)
    have hlt' : (e.side id).firstSeqNum < (newer.side id).firstSeqNum := hlt hfirst
    have hbound : (newer.side id).firstSeqNum < 2 ^ 62 := hnewer id
    rw [sub64_of_le hlt'.le (by omega)]
    exact ⟨hmeasured, by omega, by omega⟩
  obtain ⟨⟨⟨ht, ht'⟩, hb, hb'⟩, hs, hs'⟩ := hterm e.dominantPathId
  obtain ⟨⟨⟨ot, ot'⟩, ob, ob'⟩, os, os'⟩ := hterm e.dominantPathId.other
  obtain ⟨h1, h2, h3, h4, h5, h6⟩ := ha
  constructor
  · exact h1.add ht (Nat.le_sub_one_of_lt ht') (by omega)
  · exact h2.add ot (Nat.le_sub_one_of_lt ot') (by omega)
  · exact h3.add hb (Nat.le_sub_one_of_lt hb') (by omega)
  · exact h4.add ob (Nat.le_sub_one_of_lt ob') (by omega)
  · exact h5.add hs (Nat.le_sub_one_of_lt hs') (by omega)
  · exact h6.add os (Nat.le_sub_one_of_lt os') (by omega)

/-- **Verdicts.** The walk ends with sums that can be divided by, if it ends with sums. -/
theorem aggregateBandwidth_measured (h : BandwidthSound b l) (hb : ∀ id, b id < 2 ^ 62)
    (newer : Option BandwidthInterval) (hnewer : ∀ x ∈ newer, x.firstSeqNums = b)
    (hnewest : newer = none → ∀ e ∈ l.head?, e.isFinished = false) (ha : a.Within)
    (hlen : a.len < bandwidthIntervalsRequired) :
    ∀ v ∈ aggregateBandwidth newer l a, v.Measured := by
  induction l generalizing b newer a with
  | nil => simp [aggregateBandwidth]
  | cons e older ih =>
    have hrest : ∀ a' : BandwidthSums, a'.Within → a'.len ≤ bandwidthIntervalsRequired →
        ∀ v ∈ (if a'.len = bandwidthIntervalsRequired then some (BandwidthVerdict.sums a')
          else aggregateBandwidth (some e) older a'), v.Measured := by
      intro a' ha' hlen' v hv
      split_ifs at hv with hdone
      · obtain rfl : BandwidthVerdict.sums a' = v := by simpa using hv
        exact ha'.measured hdone
      · refine ih h.2 (fun id => (h.1 id).1.trans_lt (hb id)) (some e) (by simp) (by simp) ha'
          (lt_of_le_of_ne hlen' hdone) v hv
    rw [aggregateBandwidth]
    rcases hfin : e.isFinished with _ | _
    · simpa using hrest _ BandwidthSums.zero_within (Nat.zero_le _)
    · rcases newer with _ | x
      · simp [hnewest rfl e rfl] at hfin
      · obtain rfl := hnewer x rfl
        have hboth : ∀ id, (e.side id).finished = true := by
          rw [BandwidthInterval.isFinished, Bool.and_eq_true] at hfin
          rintro (_ | _)
          · exact hfin.1
          · exact hfin.2
        simpa using hrest _ (add_within h hb hboth ha hlen) hlen

end BandwidthSound

/-! ### What holds in every run -/

/-- The condition on an event: an acknowledgement finishes only what has measured its path. -/
def AlternatingTonopah.MeasuredStep (s : AlternatingTonopah) : TonopahEvent → Prop
  | .init _ => True
  | .notify n =>
    n.notification = .acknowledgement → n.isCwinLimited = true →
      MeasuredAck ((s.core.registerPaths n).ackedSide n) (n.cnxPath n.path).pathPacketAckedNumber
        (n.clock 0) n.nbBytesAcknowledged s.intervals

instance (s : AlternatingTonopah) (ev : TonopahEvent) : Decidable (s.MeasuredStep ev) :=
  match ev with
  | .init _ => inferInstanceAs (Decidable True)
  | .notify _ => inferInstanceAs (Decidable (_ → _ → _))

/-- **Invariant.** The intervals began before `b`, the newest one is not finished, and verdicts
were drawn from sums that can be divided by. The paths are those of `r`. -/
structure AlternatingTonopah.Sound (r : Tonopah) (b : IntervalPathId → ℕ)
    (s : AlternatingTonopah) : Prop where
  path1_eq : s.core.path1 = r.path1
  path2_eq : s.core.path2 = r.path2
  behind : BandwidthSound b s.intervals
  newest : ∀ e ∈ s.intervals.head?, e.isFinished = false
  verdicts : ∀ v ∈ s.verdicts, v.Measured

/-- An acknowledgement does not finish the newest interval. -/
theorem recordBandwidth_newest {l : List BandwidthInterval}
    (h : ∀ e ∈ l.head?, e.isFinished = false) (id : IntervalPathId) (ackNum t bytes : ℕ) :
    ∀ e ∈ (recordBandwidth id ackNum t bytes l).head?, e.isFinished = false := by
  rcases l with _ | ⟨e, older⟩
  · exact h
  · intro e' he'
    have hold := h e rfl
    rw [recordBandwidth] at he'
    split_ifs at he'
    · obtain rfl : e.modifySide id (.count t bytes) = e' := by simpa using he'
      rcases id <;>
        simpa [BandwidthInterval.isFinished, BandwidthInterval.modifySide, BandwidthSide.count]
          using hold
    · obtain rfl : e = e' := by simpa using he'
      exact hold

namespace AlternatingTonopah

namespace Sound

variable {r : Tonopah} {b : IntervalPathId → ℕ} {s : AlternatingTonopah} {n : Notification}

section

variable (h : s.Sound r b)

include h

theorem setCore (core : Tonopah) (h1 : core.path1 = s.core.path1)
    (h2 : core.path2 = s.core.path2) : AlternatingTonopah.Sound r b { s with core := core } :=
  ⟨h1.trans h.path1_eq, h2.trans h.path2_eq, h.behind, h.newest, h.verdicts⟩

theorem setNrss (nrss : SimState) : (s.setNrss nrss).Sound r b :=
  h.setCore _ rfl rfl

theorem deleteInfoList : s.deleteInfoList.Sound r b :=
  ⟨h.path1_eq, h.path2_eq, trivial, by simp [AlternatingTonopah.deleteInfoList], h.verdicts⟩

theorem simEnterRecovery (n : Notification) :
    (s.simEnterRecovery n).Sound r b := by
  rw [AlternatingTonopah.simEnterRecovery]
  split_ifs
  · exact h
  · exact h.deleteInfoList.setNrss _
  · exact h.setNrss _

theorem simNotify (n : Notification) : (s.simNotify n).Sound r b := by
  rw [AlternatingTonopah.simNotify]
  rcases n.notification <;> simp only
  case ecnEc | repeated | timeout =>
    split_ifs
    · exact h.simEnterRecovery n
    · exact h
  case bwMeasurement | rttMeasurement | cwinBlocked => exact h
  all_goals exact h.setNrss _

/-- An acknowledgement of a packet that was sent. -/
theorem recordAck
    (hack : (n.cnxPath n.path).pathPacketAckedNumber < b (r.ackedSide n))
    (hm : MeasuredAck (r.ackedSide n) (n.cnxPath n.path).pathPacketAckedNumber (n.clock 0)
      n.nbBytesAcknowledged s.intervals) : (s.recordAck n).Sound r b := by
  have hside : s.core.ackedSide n = r.ackedSide n := by
    rw [ackedSide, h.path1_eq, ackedSide]
  refine ⟨h.path1_eq, h.path2_eq, ?_, ?_, h.verdicts⟩
  · rw [AlternatingTonopah.recordAck, hside]
    exact h.behind.record hack hm
  · exact recordBandwidth_newest h.newest _ _ _ _

theorem reactToFq (hb : ∀ id, b id < 2 ^ 62) : s.reactToFq.Sound r b := by
  have hverdict := h.behind.aggregateBandwidth_measured hb none (by simp)
    (fun _ => h.newest) BandwidthSums.zero_within (Nat.zero_lt_succ 3)
  have hlog : AlternatingTonopah.Sound r b
      { s with verdicts := (aggregateBandwidth none s.intervals .zero).toList ++ s.verdicts } := by
    refine ⟨h.path1_eq, h.path2_eq, h.behind, h.newest, ?_⟩
    intro v hv
    rcases List.mem_append.mp hv with hv | hv
    · exact hverdict v (by simpa using hv)
    · exact h.verdicts v hv
  rw [AlternatingTonopah.reactToFq]
  dsimp only
  split_ifs
  · exact (hlog.setNrss _).deleteInfoList
  · exact hlog

/-- The begin of an interval with the latest packet numbers. -/
theorem appendInterval (hn : r.sideNumbers n.packetNumbers = b)
    (currentTime : ℕ) : (s.appendInterval n currentTime).Sound r b := by
  have hnumbers : s.core.sideNumbers n.packetNumbers = b := by
    rw [← hn]
    funext id
    rcases id
    · rw [sideNumbers, h.path1_eq, sideNumbers]
    · rw [sideNumbers, h.path2_eq, sideNumbers]
  have hcons : BandwidthSound b (s.newInterval n :: s.intervals) := by
    refine ⟨fun id => ⟨(congrFun hnumbers id).le, fun hack => absurd rfl hack, fun hfin => ?_⟩, ?_⟩
    · simp [AlternatingTonopah.newInterval] at hfin
    · rw [show (s.newInterval n).firstSeqNums = b from hnumbers]
      exact h.behind
  refine ⟨h.path1_eq, h.path2_eq, ?_, ?_, h.verdicts⟩
  · rw [AlternatingTonopah.appendInterval]
    dsimp only
    split_ifs
    · exact hcons.dropLast
    · exact hcons
  · have hhead : (s.appendInterval n currentTime).intervals.head? = some (s.newInterval n) := by
      rw [AlternatingTonopah.appendInterval]
      dsimp only
      split_ifs with hfull
      · rcases hl : s.intervals with _ | ⟨e, older⟩
        · rw [hl, List.length_singleton] at hfull
          exact absurd hfull (by decide)
        · rfl
      · rfl
    intro e he
    obtain rfl : s.newInterval n = e := by simpa [hhead] using he
    rfl

theorem splitWindow (cwin : ℕ) : (s.splitWindow cwin).Sound r b := by
  rw [AlternatingTonopah.splitWindow]
  dsimp only
  split_ifs
  · exact h.setCore _ rfl rfl
  · exact h.setCore _ rfl rfl
  · exact h

/-- The split of the window, and a new interval before it. -/
theorem setPath (hb : ∀ id, b id < 2 ^ 62)
    (hn : n.nbPaths = 2 → r.sideNumbers n.packetNumbers = b) (cwin currentTime : ℕ) :
    (s.setPath n cwin currentTime).Sound r b := by
  rw [AlternatingTonopah.setPath]
  split_ifs with hknown helapsed
  · have hfq : s.alternate.reactToFq.Sound r b :=
      Sound.reactToFq (s := s.alternate) (h.setCore _ rfl rfl) hb
    rw [changeInterval]
    dsimp only
    split_ifs
    · exact (hfq.appendInterval (hn hknown.1) _).splitWindow _
    · exact (hfq.deleteInfoList.appendInterval (hn hknown.1) _).splitWindow _
  · exact h.splitWindow _
  · exact h

theorem raiseForLongDelay (hb : ∀ id, b id < 2 ^ 62)
    (hn : n.nbPaths = 2 → r.sideNumbers n.packetNumbers = b) :
    (s.raiseForLongDelay n).Sound r b := by
  rw [AlternatingTonopah.raiseForLongDelay]
  dsimp only
  split_ifs
  · exact (h.setNrss _).setPath hb hn _ _
  · exact h

end

/-- **Step lemma.** A notification keeps the invariant, up to the packet numbers it comes with, when
its acknowledgement is of a packet that was sent and finishes only what has measured its path. -/
theorem notify (h : AlternatingTonopah.Sound r b { s with core := s.core.registerPaths n })
    (hr : r = s.core.registerPaths n) (hb : ∀ id, b id < 2 ^ 62)
    (hn : n.nbPaths = 2 → r.sideNumbers n.packetNumbers = b)
    (hack : n.notification = .acknowledgement →
      (n.cnxPath n.path).pathPacketAckedNumber < b (r.ackedSide n))
    (hm : s.MeasuredStep (.notify n)) : (s.notify n).Sound r b := by
  have hsim := h.simNotify n
  have hset := fun cwin currentTime => hsim.setPath hb hn cwin currentTime
  rw [AlternatingTonopah.notify]
  dsimp only
  split
  case h_1 hnot =>
    split_ifs with hlim
    · refine (hsim.recordAck (hack hnot) ?_).setPath hb hn _ _
      have hsame : (AlternatingTonopah.simNotify
          { s with core := s.core.registerPaths n } n).intervals = s.intervals := by
        rw [AlternatingTonopah.simNotify, hnot]
        rfl
      rw [hsame, hr]
      exact hm hnot hlim
    · exact h
  case h_7 =>
    have hraise := h.raiseForLongDelay hb hn
    generalize AlternatingTonopah.raiseForLongDelay _ n = s' at hraise ⊢
    have hexit := hraise.setCore (s'.core.hystart n).1 rfl rfl
    split_ifs
    · exact hexit.setPath hb hn _ _
    · exact hexit
    · exact h
  case h_8 =>
    split_ifs
    · exact (h.setNrss _).setPath hb hn _ _
    · exact h
  case h_9 => exact h.setCore _ rfl rfl
  case h_10 => exact h
  all_goals exact hset _ _

end Sound

end AlternatingTonopah

/-! ### Runs -/

/-- The packet numbers that a notification shows: those of its path, and of both when there are
two. -/
def Notification.seenNumbers (n : Notification) (c : PathIndex → ℕ) (path : PathIndex) : ℕ :=
  if n.nbPaths = 2 ∨ n.path = path then n.packetNumbers path else c path

/-- What the sender promises, from the packet numbers `c` on: packet numbers never go back and stay
below 2^62, and only what was sent is acknowledged. -/
def PacketNumbersValid : (PathIndex → ℕ) → List TonopahEvent → Prop
  | _, [] => True
  | c, .init _ :: evs => PacketNumbersValid c evs
  | c, .notify n :: evs =>
    (∀ path, c path ≤ n.seenNumbers c path ∧ n.seenNumbers c path < 2 ^ 62) ∧
      (n.notification = .acknowledgement →
        (n.cnxPath n.path).pathPacketAckedNumber < n.packetNumbers n.path) ∧
      PacketNumbersValid (n.seenNumbers c) evs

instance PacketNumbersValid.decidable :
    ∀ (c : PathIndex → ℕ) (evs : List TonopahEvent), Decidable (PacketNumbersValid c evs)
  | _, [] => inferInstanceAs (Decidable True)
  | c, .init _ :: evs => PacketNumbersValid.decidable c evs
  | c, .notify n :: evs =>
    have := PacketNumbersValid.decidable (n.seenNumbers c) evs
    inferInstanceAs (Decidable (_ ∧ (_ → _) ∧ _))

/-- The two paths are different ones. -/
def Tonopah.PathsDiffer (s : Tonopah) : Prop := ∀ path, s.path1 = some path → s.path2 ≠ some path

/-- The path of a notification is known once it is registered. -/
theorem Tonopah.PathsDiffer.registerPaths {s : Tonopah} (h : s.PathsDiffer)
    (hone : s.path1 = none → s.path2 = none) (n : Notification) :
    (s.registerPaths n).PathsDiffer ∧ (s.registerPaths n).path1.isSome ∧
      ((s.registerPaths n).path1 ≠ some n.path → (s.registerPaths n).path2 = some n.path) := by
  have hlearn : (s.learnPath n.path).PathsDiffer ∧ (s.learnPath n.path).path1.isSome ∧
      ((s.learnPath n.path).path1 ≠ some n.path → (s.learnPath n.path).path2 = some n.path) := by
    rw [Tonopah.learnPath]
    rcases hp : s.path1 with _ | path
    · rw [if_pos rfl]
      exact ⟨by simp [PathsDiffer, hone hp], rfl, fun hne => absurd rfl hne⟩
    · rw [if_neg (by simp)]
      split_ifs with hnew
      · refine ⟨fun path' hpath' hpath'' => hnew.1 ?_, rfl, fun _ => rfl⟩
        exact hpath''.trans hpath'.symm
      · refine ⟨h, by simp [hp], fun hne => ?_⟩
        rcases hq : s.path2 with _ | q
        · exact absurd ⟨fun heq => hne (hp.trans heq.symm), hq⟩ hnew
        · -- there are two paths only
          have htwo : ∀ a b c : PathIndex, a ≠ c → b ≠ c → a = b := by decide
          have hqp : q ≠ path := fun heq => h path hp (heq ▸ hq)
          have hnp : n.path ≠ path := fun heq => hne (heq ▸ hp)
          rw [htwo q n.path path hqp hnp]
  rw [Tonopah.registerPaths]
  split_ifs
  · exact hlearn
  · exact hlearn

namespace AlternatingTonopah

/-- **Run lemma.** In a run that finishes intervals only after they have measured their path, every
verdict is drawn from sums that can be divided by. -/
theorem Sound.run {s : AlternatingTonopah} {c : PathIndex → ℕ}
    (h : s.Sound s.core (s.core.sideNumbers c)) (hpaths : s.core.PathsDiffer)
    (hone : s.core.path1 = none → s.core.path2 = none) (hvalid : PacketNumbersValid c evs)
    (hevs : Along step MeasuredStep s evs) : ∀ v ∈ (Runs.run step s evs).verdicts, v.Measured := by
  induction evs generalizing s c with
  | nil => exact h.verdicts
  | cons ev evs ih =>
    rcases ev with path | n
    · exact ih (s := s.step (.init path))
        ⟨rfl, rfl, h.behind, h.newest, h.verdicts⟩ hpaths hone hvalid hevs.2
    · obtain ⟨hnumbers, hacked, hvalid⟩ := hvalid
      obtain ⟨hpaths', hsome, hother⟩ := hpaths.registerPaths hone n
      generalize hr : s.core.registerPaths n = r at hpaths' hsome hother
      have hmono : s.core.sideNumbers c ≤ r.sideNumbers (n.seenNumbers c) := by
        refine (hr ▸ s.core.sideNumbers_registerPaths n c).trans ?_
        rintro (_ | _) <;> simp only [sideNumbers]
        · rcases r.path1 with _ | path
          · exact le_rfl
          · exact (hnumbers path).1
        · rcases r.path2 with _ | path
          · exact le_rfl
          · exact (hnumbers path).1
      have hbound : ∀ id, r.sideNumbers (n.seenNumbers c) id < 2 ^ 62 := by
        rintro (_ | _) <;> simp only [sideNumbers]
        · rcases r.path1 with _ | path
          · exact Nat.two_pow_pos 62
          · exact (hnumbers path).2
        · rcases r.path2 with _ | path
          · exact Nat.two_pow_pos 62
          · exact (hnumbers path).2
      have hseen : n.nbPaths = 2 → n.packetNumbers = n.seenNumbers c := by
        intro hnb
        funext path
        rw [Notification.seenNumbers, if_pos (Or.inl hnb)]
      have hside : r.sideNumbers (n.seenNumbers c) (r.ackedSide n) = n.packetNumbers n.path := by
        have hown : n.seenNumbers c n.path = n.packetNumbers n.path := if_pos (Or.inr rfl)
        rw [ackedSide]
        split_ifs with hpath1
        · rw [sideNumbers, ← hpath1, ← hown]
          rfl
        · rw [sideNumbers, hother fun heq => hpath1 heq.symm, ← hown]
          rfl
      have hnotify : (s.notify n).Sound r (r.sideNumbers (n.seenNumbers c)) := by
        refine Sound.notify ⟨by rw [hr], by rw [hr], h.behind.mono hmono, h.newest, h.verdicts⟩
          hr.symm hbound (fun hnb => by rw [hseen hnb]) (fun hack => ?_) hevs.1
        rw [hside]
        exact hacked hack
      refine ih (s := s.notify n) (c := n.seenNumbers c)
        ⟨rfl, rfl, ?_, hnotify.newest, hnotify.verdicts⟩ ?_ ?_ hvalid hevs.2
      · have heq : (s.notify n).core.sideNumbers (n.seenNumbers c) =
            r.sideNumbers (n.seenNumbers c) := by
          funext id
          rcases id <;> simp only [sideNumbers, hnotify.path1_eq, hnotify.path2_eq]
        rw [heq]
        exact hnotify.behind
      · rw [Tonopah.PathsDiffer, hnotify.path1_eq, hnotify.path2_eq]
        exact hpaths'
      · intro hnone
        rw [hnotify.path1_eq] at hnone
        simp [hnone] at hsome

/-- **Verdicts of the first Tonopah.** -/
theorem run_verdicts_measured (hvalid : PacketNumbersValid (fun _ => 0) evs)
    (hevs : Along step MeasuredStep initial evs) :
    ∀ v ∈ (Runs.run step initial evs).verdicts, v.Measured := by
  have hinit : initial.Sound initial.core (initial.core.sideNumbers fun _ => 0) :=
    ⟨rfl, rfl, trivial, by simp [initial], by simp [initial]⟩
  exact hinit.run (fun _ h => by simp [initial, Tonopah.initial] at h) (fun _ => rfl) hvalid hevs

end AlternatingTonopah

end Picoquic
