import Picoquic.Congestion.Common

/-!
# The Tonopah congestion control

Tonopah runs one window for a connection of one or two paths and splits it over the paths: the
dominant path gets two thirds, the other one the rest. It keeps a short list of measurement
intervals; a longer round trip time on the dominant path means that the bottleneck queues the
paths separately, and Tonopah then gives up an eighth of the window.

* **`simNotify`** — the window update, which is that of New Reno with a damped increase;
* **`setPath`** — the detection of fair queuing and the split of the window;
* **`notify`** — the reaction to a notification.

The global variables of the code, the state that hangs on the first path and the windows
enforced on the paths are one record, `Tonopah`. What the connection and the clock say is read
through a `Notification`. The intervals also record acknowledgement times and byte counts, from
which nothing is ever decided; they are left out, as are pacing and the debug output.
-/

namespace Picoquic

open Binary64

/-! ### Data -/

/-- A path of the connection: its index in `cnx->path`. -/
abbrev PathIndex : Type := Fin 2

/-- How the intervals name the two paths: 1 for `new_tonopah_path1`, 2 for the other. -/
inductive IntervalPathId
  | path1
  | path2
  deriving DecidableEq, Repr

/-- What an interval records of one path. -/
structure IntervalSide where
  /-- Number of the first packet of the interval. -/
  firstSeqNum : ℕ
  /-- Sum of the round trip times at the acknowledgements, a double. -/
  rttSum : ℚ
  numAcks : ℕ
  /-- A packet of a later interval is acknowledged. -/
  finished : Bool

/-- `picoquic_new_tonopah_interval_info_t`. -/
structure IntervalInfo where
  side : IntervalPathId → IntervalSide
  dominantPathId : IntervalPathId

/-- `picoquic_new_tonopah_alg_state_t`. -/
inductive AlgState
  | slowStart
  | congestionAvoidance
  deriving DecidableEq, Repr

/-- `picoquic_new_tonopah_sim_state_t`. -/
structure SimState where
  algState : AlgState
  cwin : ℕ
  residualAck : ℕ
  ssthresh : ℕ
  recoveryStart : ℕ
  recoverySequence : ℕ
  deriving DecidableEq

/-- The state of the algorithm. -/
structure Tonopah where
  /-- The interval list, from `new_tonopah_interval_list_last` along `prev`. -/
  intervals : List IntervalInfo
  lastChange : ℕ
  path1 : Option PathIndex
  path2 : Option PathIndex
  dominantPath : Option PathIndex
  /-- The simulated New Reno state of the first path. -/
  nrss : SimState
  rttFilter : MinMaxRtt
  /-- The windows enforced on the paths. -/
  pathCwin : PathIndex → ℕ

/-- A call of the algorithm, with what it reads of the connection and of the clock. -/
structure Notification where
  /-- The path the call is about. -/
  path : PathIndex
  notification : CongestionNotification
  rttMeasurement : Uint64
  oneWayDelay : Uint64
  nbBytesAcknowledged : Uint64
  currentTime : Uint64
  nbPaths : ℕ
  nbPaths_eq : nbPaths = 1 ∨ nbPaths = 2
  isMultipathEnabled : Bool
  isTimeStampEnabled : Bool
  /-- The paths. With one path only, the second entry is whatever the memory behind it holds. -/
  cnxPath : PathIndex → PathView
  /-- The successive readings of `picoquic_current_time`. -/
  clock : ℕ → Uint64

/-- `INTERVALS_REQUIRED`. -/
def intervalsRequired : ℕ := 1

/-- `new_tonopah_minimum_interval`. -/
def minimumInterval : ℕ := 0

/-- `new_tonopah_minimum_congestion_avoidance_interval`. -/
def minimumCongestionAvoidanceInterval : ℕ := 50000

/-- `new_tonopah_maximum_interval`. -/
def maximumInterval : ℕ := 1000000

/-- `new_tonopah_ratio`, the double nearest to two thirds. -/
def tonopahRatio : ℚ := rnd (2 / 3)

/-- Mean of the smoothed round trip times of the two paths. -/
def Notification.meanSmoothedRtt (n : Notification) : ℕ :=
  u64 ((n.cnxPath 0).smoothedRtt + (n.cnxPath 1).smoothedRtt) / 2

/-- The round trip time of the connection: the mean over its paths. -/
def Notification.smoothedRtt (n : Notification) : ℕ :=
  if 1 < n.nbPaths then n.meanSmoothedRtt else (n.cnxPath 0).smoothedRtt

/-! ### The simulated New Reno -/

/-- `picoquic_new_tonopah_sim_reset`. -/
def simReset : SimState := ⟨.slowStart, cwinInitial, 0, uint64Max, 0, 0⟩

/-- `new_tonopah_delete_info_list`. -/
def Tonopah.deleteInfoList (s : Tonopah) : Tonopah := { s with intervals := [] }

/-- The state after a loss: half the window, or the minimum and slow start after a timeout. -/
def SimState.enterRecovery (nrss : SimState) (n : Notification) : SimState :=
  let ssthresh := max (nrss.cwin / 2) cwinMinimum
  let timeout := n.notification = .timeout
  { algState := if timeout then .slowStart else .congestionAvoidance
    cwin := if timeout then cwinMinimum else ssthresh
    residualAck := 0
    ssthresh := ssthresh
    recoveryStart := n.currentTime
    recoverySequence := (n.cnxPath 0).pathPacketNumber }

/-- `picoquic_new_tonopah_sim_enter_recovery`. In congestion avoidance a loss is ignored as long
as there is no interval. -/
def Tonopah.simEnterRecovery (s : Tonopah) (n : Notification) : Tonopah :=
  if s.nrss.algState = .congestionAvoidance ∧ s.intervals.length = 0 then s
  else
    let s := if s.path1.isSome ∧ s.path2.isSome then s.deleteInfoList else s
    { s with nrss := s.nrss.enterRecovery n }

/-- The test under which a loss counts: a round trip time since the last recovery, or a packet
sent after it is acknowledged. -/
def Notification.passesRecoveryGate (n : Notification) (nrss : SimState) : Bool :=
  decide (n.smoothedRtt < sub64 n.currentTime nrss.recoveryStart) ||
    if n.isMultipathEnabled then
      decide (nrss.recoveryStart ≤ (n.cnxPath 0).pathPacketAckedTimeSent)
    else decide (nrss.recoverySequence ≤ (n.cnxPath 0).pathPacketAckedNumber)

/-- The test under which a spurious loss counts: the recovery it caused is not over. -/
def Notification.stillInRecovery (n : Notification) (nrss : SimState) : Bool :=
  decide (sub64 n.currentTime nrss.recoveryStart < n.smoothedRtt) &&
    if n.isMultipathEnabled then
      decide ((n.cnxPath 0).pathPacketAckedTimeSent < nrss.recoveryStart)
    else decide ((n.cnxPath 0).pathPacketAckedNumber < nrss.recoverySequence)

/-- The bytes that count towards the next increase of the window. -/
def Notification.completeDelta (n : Notification) (nrss : SimState) : ℕ :=
  u64 (n.nbBytesAcknowledged * (n.cnxPath 0).sendMtu + nrss.residualAck)

/-- The window that congestion avoidance computes from an acknowledgement, as a double. -/
def Notification.increasedWindow (n : Notification) (nrss : SimState) : ℚ :=
  let ratio := min (rnd (rnd n.meanSmoothedRtt / minimumCongestionAvoidanceInterval)) 1
  rnd (rnd nrss.cwin + rnd (ratio * rnd (rnd (n.completeDelta nrss) / rnd nrss.cwin)))

/-- The reaction of `picoquic_new_tonopah_sim_notify` to an acknowledgement. -/
def simAcknowledgement (nrss : SimState) (n : Notification) : SimState :=
  match nrss.algState with
  | .slowStart =>
    let cwin := u64 (nrss.cwin + n.nbBytesAcknowledged)
    { nrss with
      cwin := cwin
      algState := if nrss.ssthresh ≤ cwin then .congestionAvoidance else .slowStart }
  | .congestionAvoidance =>
    { nrss with
      residualAck := n.completeDelta nrss % nrss.cwin
      cwin := toUint64 (n.increasedWindow nrss) }

/-- The reaction of `picoquic_new_tonopah_sim_notify` to a spurious loss: back to the window
before the recovery. -/
def simSpuriousRepeat (nrss : SimState) (n : Notification) : SimState :=
  if n.stillInRecovery nrss ∧ nrss.ssthresh ≠ uint64Max ∧
      nrss.cwin < u64 (2 * nrss.ssthresh) then
    { nrss with cwin := u64 (2 * nrss.ssthresh), algState := .congestionAvoidance }
  else nrss

/-- `picoquic_new_tonopah_sim_seed_cwin`. -/
def simSeedCwin (nrss : SimState) (bytesInFlight : ℕ) : SimState :=
  if nrss.algState = .slowStart ∧ nrss.ssthresh = uint64Max ∧ nrss.cwin < bytesInFlight then
    { nrss with
      cwin := bytesInFlight, ssthresh := bytesInFlight, algState := .congestionAvoidance }
  else nrss

/-- `picoquic_new_tonopah_sim_notify`. -/
def Tonopah.simNotify (s : Tonopah) (n : Notification) : Tonopah :=
  match n.notification with
  | .acknowledgement => { s with nrss := simAcknowledgement s.nrss n }
  | .ecnEc | .repeated | .timeout =>
    if n.passesRecoveryGate s.nrss then s.simEnterRecovery n else s
  | .spuriousRepeat => { s with nrss := simSpuriousRepeat s.nrss n }
  | .seedCwin => { s with nrss := simSeedCwin s.nrss n.nbBytesAcknowledged }
  | .reset => { s with nrss := simReset }
  | .bwMeasurement | .rttMeasurement | .cwinBlocked => s

/-! ### The intervals -/

/-- Changes what an interval records of one path. -/
def IntervalInfo.modifySide (e : IntervalInfo) (id : IntervalPathId)
    (f : IntervalSide → IntervalSide) : IntervalInfo :=
  { e with side := Function.update e.side id (f (e.side id)) }

/-- `new_tonopah_find_right_interval`: the newest interval that began at or before the highest
acknowledged packet. The interval before it is finished for the path. -/
def findRightInterval (l : List IntervalInfo) (id : IntervalPathId) (ackNum : ℕ) :
    List IntervalInfo × Option ℕ :=
  match l.findIdx? fun e => decide ((e.side id).firstSeqNum ≤ ackNum) with
  | none => (l, none)
  | some i => (l.modify (i + 1) (·.modifySide id fun d => { d with finished := true }), some i)

/-- The bookkeeping of an acknowledgement in the interval of its packet. -/
def Tonopah.recordAck (s : Tonopah) (n : Notification) : Tonopah :=
  let id : IntervalPathId := if some n.path = s.path1 then .path1 else .path2
  let ackNum := (n.cnxPath n.path).pathPacketAckedNumber
  let (l, i) := findRightInterval s.intervals id ackNum
  let count (d : IntervalSide) : IntervalSide :=
    { d with
      rttSum := rnd (d.rttSum + rnd ((n.cnxPath n.path).smoothedRtt : ℕ))
      numAcks := u64 (d.numAcks + 1) }
  { s with intervals := i.elim l fun i => l.modify i (·.modifySide id count) }

/-- The sums that `new_tonopah_aggregate_intervals` accumulates over finished intervals. -/
structure RttSums where
  len : ℕ
  rttSumDominant : ℚ
  rttSumSubmissive : ℚ
  numAcksDominant : ℕ
  numAcksSubmissive : ℕ

/-- Mean round trip time. Without an acknowledgement the sum is zero and the quotient is not a
number. -/
def meanRtt (rttSum : ℚ) (numAcks : ℕ) : Option ℚ :=
  if numAcks = 0 then none else some (rnd (rttSum / rnd numAcks))

/-- The verdict: the dominant path is slower by more than 5 ms. -/
def RttSums.detectedFq (a : RttSums) : Bool :=
  match meanRtt a.rttSumDominant a.numAcksDominant,
    meanRtt a.rttSumSubmissive a.numAcksSubmissive with
  | some d, some r => decide (5000 < rnd (d - r))
  | _, _ => false

/-- Adds a finished interval to the sums. -/
def RttSums.add (a : RttSums) (e : IntervalInfo) : RttSums :=
  let dominant := e.side e.dominantPathId
  let submissive := e.side (if e.dominantPathId = .path1 then .path2 else .path1)
  ⟨a.len + 1, rnd (a.rttSumDominant + dominant.rttSum),
    rnd (a.rttSumSubmissive + submissive.rttSum), u64 (a.numAcksDominant + dominant.numAcks),
    u64 (a.numAcksSubmissive + submissive.numAcks)⟩

/-- The walk of `new_tonopah_aggregate_intervals` from the newest interval: an unfinished
interval restarts the sums. -/
def aggregateLoop : List IntervalInfo → RttSums → Bool
  | [], _ => false
  | e :: older, a =>
    let a := if (e.side .path1).finished && (e.side .path2).finished then a.add e
      else ⟨0, 0, 0, 0, 0⟩
    if a.len = intervalsRequired then a.detectedFq else aggregateLoop older a

/-- `new_tonopah_aggregate_intervals`. -/
def aggregateIntervals (l : List IntervalInfo) : Bool := aggregateLoop l ⟨0, 0, 0, 0, 0⟩

/-! ### Setting the windows of the paths -/

/-- The window left after fair queuing is detected. -/
def fqReducedWindow (cwin : ℕ) : ℕ := toUint64 (rnd (rnd cwin * (7 / 8)))

/-- The end of an interval: the verdict is drawn. -/
def Tonopah.reactToFq (s : Tonopah) : Tonopah :=
  if aggregateIntervals s.intervals ∧ s.nrss.algState = .congestionAvoidance then
    { s with
      nrss :=
        { s.nrss with ssthresh := fqReducedWindow s.nrss.cwin, cwin := fqReducedWindow s.nrss.cwin }
      intervals := [] }
  else s

/-- A fresh interval: it begins with the next packets of the two paths. -/
def Tonopah.newInterval (s : Tonopah) (n : Notification) : IntervalInfo :=
  let firstSeqNum (p : Option PathIndex) : ℕ := p.elim 0 fun p => (n.cnxPath p).pathPacketNumber
  { side := fun
      | .path1 => ⟨firstSeqNum s.path1, 0, 0, false⟩
      | .path2 => ⟨firstSeqNum s.path2, 0, 0, false⟩
    dominantPathId := if s.dominantPath = s.path1 then .path1 else .path2 }

/-- The begin of an interval. The list keeps four intervals. -/
def Tonopah.appendInterval (s : Tonopah) (n : Notification) (currentTime : ℕ) : Tonopah :=
  let l := s.newInterval n :: s.intervals
  { s with
    intervals := if 4 * intervalsRequired < l.length then l.dropLast else l
    lastChange := currentTime }

/-- An interval is over. -/
def Tonopah.intervalElapsed (s : Tonopah) (n : Notification) (currentTime : ℕ) : Bool :=
  decide (u64 (s.lastChange + min (max minimumInterval n.meanSmoothedRtt) maximumInterval)
    < currentTime)

/-- The change of intervals in `new_tonopah_set_path`. -/
def Tonopah.changeInterval (s : Tonopah) (n : Notification) (currentTime : ℕ) : Tonopah :=
  let s := s.reactToFq
  let s := if s.nrss.algState = .congestionAvoidance then s else s.deleteInfoList
  s.appendInterval n currentTime

/-- The share of the dominant path. -/
def dominantCwin (cwin : ℕ) : ℕ := toUint64 (max (rnd (rnd cwin * tonopahRatio)) cwinMinimum)

/-- The share of the other path. -/
def submissiveCwin (cwin : ℕ) : ℕ :=
  toUint64 (max (rnd (rnd cwin * rnd (1 - tonopahRatio))) cwinMinimum)

/-- The split of the window in `new_tonopah_set_path`. -/
def Tonopah.splitWindow (s : Tonopah) (cwin : ℕ) : Tonopah :=
  if s.dominantPath = s.path1 then
    { s with pathCwin := fun i => if i = 0 then dominantCwin cwin else submissiveCwin cwin }
  else if s.dominantPath = s.path2 then
    { s with pathCwin := fun i => if i = 0 then submissiveCwin cwin else dominantCwin cwin }
  else s

/-- `new_tonopah_set_path`. The window is passed by value, as it was before fair queuing was
detected. -/
def Tonopah.setPath (s : Tonopah) (n : Notification) (cwin currentTime : ℕ) : Tonopah :=
  if n.nbPaths = 2 ∧ s.path1.isSome ∧ s.path2.isSome then
    let s := if s.intervalElapsed n currentTime then s.changeInterval n currentTime else s
    s.splitWindow cwin
  else s

/-! ### Notifications -/

/-- A path gets known at its first notification. -/
def Tonopah.learnPath (s : Tonopah) (path : PathIndex) : Tonopah :=
  if s.path1 = none then { s with path1 := some path }
  else if some path ≠ s.path1 ∧ s.path2 = none then { s with path2 := some path }
  else s

/-- What every notification begins with. The first of all makes the first path dominant. -/
def Tonopah.registerPaths (s : Tonopah) (n : Notification) : Tonopah :=
  let s := s.learnPath n.path
  if s.dominantPath = none then { s with dominantPath := some 0, lastChange := n.clock 0 } else s

/-- The initial slow start, without any loss yet. -/
def SimState.inInitialSlowStart (nrss : SimState) : Bool :=
  decide (nrss.algState = .slowStart ∧ nrss.ssthresh = uint64Max)

/-- Acknowledgements raise the window only if the sender was not limited by the application. -/
def Notification.isCwinLimited (n : Notification) : Bool :=
  decide ((n.cnxPath n.path).lastSenderLimitedTime < (n.cnxPath n.path).lastTimeAckedDataFrameSent)

/-- The initial window for a long round trip time. -/
def longDelayWindow (rttMin : ℕ) : ℕ :=
  toUint64 (rnd (rnd (cwinInitial * min rttMin targetSatelliteRtt) / targetRenoRtt))

/-- A long round trip time raises the window. -/
def Tonopah.raiseForLongDelay (s : Tonopah) (n : Notification) : Tonopah :=
  let rttMin := (n.cnxPath 0).rttMin
  if targetRenoRtt < (rttMin : ℕ) ∧ s.nrss.cwin < longDelayWindow rttMin then
    let s := { s with nrss := { s.nrss with cwin := longDelayWindow rttMin } }
    s.setPath n (longDelayWindow rttMin) (n.clock 1)
  else s

/-- The state with the sample filter brought up to date, and out of slow start when the filter
says so. -/
def Tonopah.hystart (s : Tonopah) (n : Notification) : Tonopah × Bool :=
  let rtt := if n.isTimeStampEnabled then n.oneWayDelay else n.rttMeasurement
  let (rttFilter, exit) := hystartTest s.rttFilter rtt n.currentTime
  let nrss := if exit then
      { s.nrss with ssthresh := s.nrss.cwin, algState := .congestionAvoidance }
    else s.nrss
  ({ s with rttFilter := rttFilter, nrss := nrss }, exit)

/-- Half of the window that the estimated bandwidth allows. -/
def Notification.bandwidthWindow (n : Notification) : ℕ :=
  u64 ((n.cnxPath 0).maxBandwidthEstimate * n.smoothedRtt) / 1000000 / 2

/-- `picoquic_new_tonopah_notify`. -/
def Tonopah.notify (s : Tonopah) (n : Notification) : Tonopah :=
  let s := s.registerPaths n
  match n.notification with
  | .acknowledgement =>
    if n.isCwinLimited then
      let s := (s.simNotify n).recordAck n
      s.setPath n s.nrss.cwin (n.clock 1)
    else s
  | .ecnEc =>
    if s.dominantPath = some n.path then s
    else
      let s := s.simNotify n
      s.setPath n s.nrss.cwin (n.clock 1)
  | .seedCwin | .repeated | .timeout | .spuriousRepeat =>
    let s := s.simNotify n
    s.setPath n s.nrss.cwin (n.clock 1)
  | .rttMeasurement =>
    if s.nrss.inInitialSlowStart then
      let (s, exit) := (s.raiseForLongDelay n).hystart n
      if exit then s.setPath n s.nrss.cwin (n.clock 2) else s
    else s
  | .bwMeasurement =>
    if s.nrss.inInitialSlowStart ∧ s.nrss.cwin < n.bandwidthWindow then
      let s := { s with nrss := { s.nrss with cwin := n.bandwidthWindow } }
      s.setPath n n.bandwidthWindow (n.clock 1)
    else s
  | .reset =>
    { s with
      nrss := simReset
      rttFilter := .zero
      pathCwin := Function.update s.pathCwin n.path simReset.cwin }
  | .cwinBlocked => s

/-- What happens to the algorithm. -/
inductive TonopahEvent
  /-- `picoquic_new_tonopah_init` for a path. The state that counts hangs on the first one. -/
  | init (path : PathIndex)
  /-- `picoquic_new_tonopah_notify`. -/
  | notify (n : Notification)

/-- One event. -/
def Tonopah.step (s : Tonopah) : TonopahEvent → Tonopah
  | .init path =>
    { s with
      nrss := if path = 0 then simReset else s.nrss
      rttFilter := if path = 0 then .zero else s.rttFilter
      pathCwin := Function.update s.pathCwin path simReset.cwin }
  | .notify n => s.notify n

/-- The state of a new connection, right after the algorithm is set up for its first path. -/
def Tonopah.initial : Tonopah :=
  ⟨[], 0, none, none, none, simReset, .zero, fun _ => simReset.cwin⟩

end Picoquic
