import Picoquic.Congestion.Alternating

/-!
# Tonopah in a process

`new_tonopah.c` and `tonopah.c` keep the paths they compare, and their intervals, in global
variables that all connections of a process share. A path is known by its address from its first
notification on, and stays known when its connection moves it to another place in `cnx->path`, or
deletes it.

* **`TonopahVariant`** — what the two algorithms do differently, **`newTonopah`** and
  **`tonopah`** — each of them;
* **`TonopahGlobals`** — the global variables, and the steps that change them;
* **`TonopahProcess.step`** — a path is created, promoted, deleted, or notified;
* **`TonopahGlobals.Kept`** — a property of the global variables that the steps of a notification
  keep, **`TonopahProcess.notify_kept`** — that a notification keeps it.

The window computation is that of `Tonopah` and `AlternatingTonopah`, which are about one connection
that never moves its paths. Every path has a place of its own in memory; a place is used again after
its path is deleted. A connection has at most two paths.
-/

namespace Picoquic

open Runs

/-! ### The two algorithms -/

/-- What an algorithm does with the intervals and the windows. -/
structure TonopahVariant (ι : Type) where
  /-- The number of intervals that the list keeps. -/
  kept : ℕ
  /-- The dominant path changes with every interval. -/
  alternates : Bool
  /-- A congestion mark on the dominant path is ignored. -/
  ignoresDominantEcn : Bool
  /-- How long an interval lasts, by the mean round trip time. -/
  duration : ℕ → ℕ
  /-- The window after an acknowledgement. -/
  acknowledgement : SimState → Notification → SimState
  /-- A new interval, by the packet numbers it begins with and its dominant path. -/
  fresh : (IntervalPathId → ℕ) → IntervalPathId → ι
  firstSeqNum : ι → IntervalPathId → ℕ
  finished : ι → IntervalPathId → Bool
  dominantPathId : ι → IntervalPathId
  /-- An acknowledgement is counted. -/
  count : Notification → IntervalPathId → ι → ι
  /-- The interval is over for a path. -/
  finish : IntervalPathId → ι → ι
  detectedFq : List ι → Bool
  dominantCwin : ℕ → ℕ
  submissiveCwin : ℕ → ℕ

/-- `new_tonopah.c`. -/
def newTonopah : TonopahVariant IntervalInfo where
  kept := 4 * intervalsRequired
  alternates := false
  ignoresDominantEcn := true
  duration rtt := min (max minimumInterval rtt) maximumInterval
  acknowledgement := simAcknowledgement
  fresh first dominant := ⟨fun id => ⟨first id, 0, 0, false⟩, dominant⟩
  firstSeqNum e id := (e.side id).firstSeqNum
  finished e id := (e.side id).finished
  dominantPathId := IntervalInfo.dominantPathId
  count n id e := e.modifySide id n.count
  finish id e := e.finish id
  detectedFq := aggregateIntervals
  dominantCwin := Picoquic.dominantCwin
  submissiveCwin := Picoquic.submissiveCwin

/-- `tonopah.c`. -/
def tonopah : TonopahVariant BandwidthInterval where
  kept := 2 * bandwidthIntervalsRequired
  alternates := true
  ignoresDominantEcn := false
  duration rtt := min (max bandwidthInterval rtt) bandwidthInterval
  acknowledgement := bandwidthSimAcknowledgement
  fresh first dominant := ⟨fun id => ⟨first id, 0, 0, 0, false⟩, dominant⟩
  firstSeqNum e id := (e.side id).firstSeqNum
  finished e id := (e.side id).finished
  dominantPathId := BandwidthInterval.dominantPathId
  count n id e := e.modifySide id (.count (n.clock 0) n.nbBytesAcknowledged)
  finish id e := e.modifySide id .finish
  detectedFq l := (aggregateBandwidth none l .zero).elim false BandwidthVerdict.detectedFq
  dominantCwin cwin :=
    toUint64 (max (Binary64.rnd (Binary64.rnd cwin * bandwidthRatio)) cwinMinimum)
  submissiveCwin cwin :=
    toUint64 (max (Binary64.rnd (Binary64.rnd cwin * Binary64.rnd (1 - bandwidthRatio)))
      cwinMinimum)

/-! ### Data -/

/-- An interval, with its history: whether an acknowledgement of a path belonged to it. -/
structure TrackedInterval (ι : Type) where
  info : ι
  acknowledged : IntervalPathId → Bool

/-- A call of the algorithm for a path of a connection. -/
structure TonopahCall where
  cnx : ℕ
  /-- The place of the path in `cnx->path`. -/
  position : PathIndex
  notification : CongestionNotification
  rttMeasurement : Uint64
  oneWayDelay : Uint64
  nbBytesAcknowledged : Uint64
  currentTime : Uint64
  isMultipathEnabled : Bool
  isTimeStampEnabled : Bool
  /-- What is found at the address of a path. -/
  view : ℕ → PathView
  /-- What the memory behind the last entry of `cnx->path` holds. -/
  behind : ℕ
  /-- The successive readings of `picoquic_current_time`. -/
  clock : ℕ → Uint64

/-- What the call reads when the connection has these paths. -/
def TonopahCall.toNotification (call : TonopahCall) (paths : List ℕ) : Notification where
  path := call.position
  notification := call.notification
  rttMeasurement := call.rttMeasurement
  oneWayDelay := call.oneWayDelay
  nbBytesAcknowledged := call.nbBytesAcknowledged
  currentTime := call.currentTime
  nbPaths := if paths.length = 1 then 1 else 2
  nbPaths_eq := by split_ifs <;> simp
  isMultipathEnabled := call.isMultipathEnabled
  isTimeStampEnabled := call.isTimeStampEnabled
  cnxPath i := call.view (paths.getD i call.behind)
  clock := call.clock

/-- How a process ends. -/
inductive TonopahFault
  /-- `abort()`: the path is not one of those that are known. -/
  | unknownPath
  /-- A failed assertion. -/
  | assertion
  deriving DecidableEq

/-- The global variables. -/
structure TonopahGlobals (ι : Type) where
  path1 : Option ℕ
  path2 : Option ℕ
  dominantPath : Option ℕ
  lastChange : ℕ
  /-- The interval list, from the newest interval on. -/
  intervals : List (TrackedInterval ι)
  /-- History: the lists from which verdicts were drawn, the last one first. -/
  judged : List (List ι)
  /-- History: the dominant path, and the path that got its share of the window, whenever the
  window was split; the last time first. -/
  splits : List (Option ℕ × Option ℕ)
  /-- History: the paths that were notified, the last one first. -/
  notified : List ℕ
  fault : Option TonopahFault

/-- A process, with the paths of its connections. -/
structure TonopahProcess (ι : Type) where
  globals : TonopahGlobals ι
  /-- `cnx->path` of each connection. -/
  paths : ℕ → List ℕ
  /-- The connection that has a path at this address. -/
  owner : ℕ → Option ℕ
  /-- `congestion_alg_state` of a path. -/
  algState : ℕ → Option (SimState × MinMaxRtt)
  /-- The window enforced on a path. -/
  pathCwin : ℕ → ℕ

/-! ### The global variables -/

namespace TonopahGlobals

variable {ι : Type}

/-- An assertion. -/
def check (g : TonopahGlobals ι) (holds : Bool) : TonopahGlobals ι :=
  if holds then g else { g with fault := g.fault.or (some .assertion) }

/-- `delete_info_list`. -/
def deleteInfoList (g : TonopahGlobals ι) : TonopahGlobals ι := { g with intervals := [] }

/-- A path is notified. -/
def logPath (g : TonopahGlobals ι) (path : ℕ) : TonopahGlobals ι :=
  { g with notified := path :: g.notified }

/-- A path gets known at its first notification. -/
def learnPath (g : TonopahGlobals ι) (path : ℕ) : TonopahGlobals ι :=
  if g.path1 = none then { g with path1 := some path }
  else if g.path1 ≠ some path ∧ g.path2 = none then { g with path2 := some path }
  else g

/-- The path is one of the two that are known. -/
def isKnown (g : TonopahGlobals ι) (path : ℕ) : Bool :=
  decide (g.path1 = some path ∨ g.path2 = some path)

/-- The first notification makes the default path dominant. -/
def makeDominant (g : TonopahGlobals ι) (path0 now : ℕ) : TonopahGlobals ι :=
  if g.dominantPath = none then { g with dominantPath := some path0, lastChange := now } else g

/-- `find_right_interval`, and what an acknowledgement adds to the interval that is found. -/
def recordIn (v : TonopahVariant ι) (n : Notification) (id : IntervalPathId) (ackNum : ℕ) :
    List (TrackedInterval ι) → List (TrackedInterval ι)
  | [] => []
  | e :: older =>
    if v.firstSeqNum e.info id ≤ ackNum then
      ⟨v.count n id e.info, Function.update e.acknowledged id true⟩ ::
        older.modifyHead fun e => { e with info := v.finish id e.info }
    else e :: recordIn v n id ackNum older

/-- How the intervals name a path. -/
def idOf (g : TonopahGlobals ι) (path : ℕ) : IntervalPathId :=
  if g.path1 = some path then .path1 else .path2

/-- The bookkeeping of an acknowledgement. -/
def recordAck (g : TonopahGlobals ι) (v : TonopahVariant ι) (n : Notification) (path : ℕ) :
    TonopahGlobals ι :=
  let g := g.check (g.isKnown path)
  { g with
    intervals := recordIn v n (g.idOf path) (n.cnxPath n.path).pathPacketAckedNumber g.intervals }

/-- The dominant path of the next interval. -/
def alternate (g : TonopahGlobals ι) (v : TonopahVariant ι) : TonopahGlobals ι :=
  if v.alternates then
    { g with dominantPath := if g.dominantPath = g.path1 then g.path2 else g.path1 }
  else g

/-- The intervals as the code sees them. -/
def infos (g : TonopahGlobals ι) : List ι := g.intervals.map TrackedInterval.info

/-- A verdict is drawn. -/
def judge (g : TonopahGlobals ι) : TonopahGlobals ι := { g with judged := g.infos :: g.judged }

/-- A fresh interval, by the next packet number of each path. -/
def newInterval (g : TonopahGlobals ι) (v : TonopahVariant ι) (numbers : ℕ → ℕ) :
    TrackedInterval ι where
  info :=
    v.fresh
      (fun
        | .path1 => g.path1.elim 0 numbers
        | .path2 => g.path2.elim 0 numbers)
      (if g.dominantPath = g.path1 then .path1 else .path2)
  acknowledged _ := false

/-- The begin of an interval. The list may be too long by one, and is then shortened. -/
def append (g : TonopahGlobals ι) (v : TonopahVariant ι) (numbers : ℕ → ℕ) (now : ℕ) :
    TonopahGlobals ι :=
  let l := g.newInterval v numbers :: g.intervals
  let g := g.check (decide (l.length ≤ v.kept + 1))
  { g with intervals := if v.kept < l.length then l.dropLast else l, lastChange := now }

/-- The window was split: the dominant path, and the path that got its share. -/
def logSplit (g : TonopahGlobals ι) (share : Option ℕ) : TonopahGlobals ι :=
  { g with splits := (g.dominantPath, share) :: g.splits }

/-- The path that gets the share of the dominant path, when `path0` and `path1` are the paths of
the connection. -/
def share (g : TonopahGlobals ι) (path0 path1 : ℕ) : Option ℕ :=
  if g.dominantPath = g.path1 then some path0
  else if g.dominantPath = g.path2 then some path1
  else none

/-- The change of intervals, with or without the old ones. -/
def change (g : TonopahGlobals ι) (v : TonopahVariant ι) (reset : Bool) (numbers : ℕ → ℕ)
    (now : ℕ) : TonopahGlobals ι :=
  let g := (g.alternate v).judge
  (if reset then g.deleteInfoList else g).append v numbers now

end TonopahGlobals

/-! ### A notification -/

/-- A process that reacts to a notification: the state of the default path is at hand, and the
windows of its connection. -/
structure ActiveTonopah (ι : Type) where
  globals : TonopahGlobals ι
  nrss : SimState
  rttFilter : MinMaxRtt
  pathCwin : ℕ → ℕ

namespace ActiveTonopah

variable {ι : Type}

/-- The intervals are deleted. -/
def deleteInfoList (a : ActiveTonopah ι) : ActiveTonopah ι :=
  { a with globals := a.globals.deleteInfoList }

/-- `sim_enter_recovery`. -/
def simEnterRecovery (a : ActiveTonopah ι) (n : Notification) : ActiveTonopah ι :=
  if a.nrss.algState = .congestionAvoidance ∧ a.globals.intervals.length = 0 then a
  else
    let a := if a.globals.path1.isSome ∧ a.globals.path2.isSome then a.deleteInfoList else a
    { a with nrss := a.nrss.enterRecovery n }

/-- `sim_notify`. -/
def simNotify (a : ActiveTonopah ι) (v : TonopahVariant ι) (n : Notification) : ActiveTonopah ι :=
  match n.notification with
  | .acknowledgement => { a with nrss := v.acknowledgement a.nrss n }
  | .ecnEc | .repeated | .timeout =>
    if n.passesRecoveryGate a.nrss then a.simEnterRecovery n else a
  | .spuriousRepeat => { a with nrss := simSpuriousRepeat a.nrss n }
  | .seedCwin => { a with nrss := simSeedCwin a.nrss n.nbBytesAcknowledged }
  | .reset => { a with nrss := simReset }
  | .bwMeasurement | .rttMeasurement | .cwinBlocked => a

/-- The end of an interval: the verdict is drawn. -/
def reactToFq (a : ActiveTonopah ι) (v : TonopahVariant ι) : ActiveTonopah ι :=
  let detected := v.detectedFq a.globals.infos
  let a := { a with globals := a.globals.judge }
  if detected ∧ a.nrss.algState = .congestionAvoidance then
    let cwin := fqReducedWindow a.nrss.cwin
    deleteInfoList { a with nrss := { a.nrss with ssthresh := cwin, cwin := cwin } }
  else a

/-- The change of intervals in `set_path`. -/
def changeInterval (a : ActiveTonopah ι) (v : TonopahVariant ι) (numbers : ℕ → ℕ) (now : ℕ) :
    ActiveTonopah ι :=
  let a := { a with globals := a.globals.alternate v }.reactToFq v
  let a := if a.nrss.algState = .congestionAvoidance then a else a.deleteInfoList
  { a with globals := a.globals.append v numbers now }

/-- The split of the window in `set_path`, by the places of the paths. -/
def splitWindow (a : ActiveTonopah ι) (v : TonopahVariant ι) (path0 path1 cwin : ℕ) :
    ActiveTonopah ι :=
  let dominant := v.dominantCwin cwin
  let submissive := v.submissiveCwin cwin
  if a.globals.dominantPath = a.globals.path1 then
    { a with
      globals := a.globals.logSplit (some path0)
      pathCwin := Function.update (Function.update a.pathCwin path0 dominant) path1 submissive }
  else if a.globals.dominantPath = a.globals.path2 then
    { a with
      globals := a.globals.logSplit (some path1)
      pathCwin := Function.update (Function.update a.pathCwin path1 dominant) path0 submissive }
  else { a with globals := a.globals.logSplit none }

/-- An interval is over. -/
def intervalElapsed (a : ActiveTonopah ι) (v : TonopahVariant ι) (n : Notification) (now : ℕ) :
    Bool :=
  decide (u64 (a.globals.lastChange + v.duration n.meanSmoothedRtt) < now)

/-- `set_path`. -/
def setPath (a : ActiveTonopah ι) (v : TonopahVariant ι) (call : TonopahCall) (paths : List ℕ)
    (cwin now : ℕ) : ActiveTonopah ι :=
  let n := call.toNotification paths
  if n.nbPaths = 2 ∧ a.globals.path1.isSome ∧ a.globals.path2.isSome then
    let a :=
      if a.intervalElapsed v n now then
        a.changeInterval v (fun path => (call.view path).pathPacketNumber) now
      else a
    a.splitWindow v (paths.getD 0 call.behind) (paths.getD 1 call.behind) cwin
  else a

/-- A long round trip time raises the window. -/
def raiseForLongDelay (a : ActiveTonopah ι) (v : TonopahVariant ι) (call : TonopahCall)
    (paths : List ℕ) : ActiveTonopah ι :=
  let rttMin := ((call.toNotification paths).cnxPath 0).rttMin
  if targetRenoRtt < (rttMin : ℕ) ∧ a.nrss.cwin < longDelayWindow rttMin then
    setPath { a with nrss := { a.nrss with cwin := longDelayWindow rttMin } } v call paths
      (longDelayWindow rttMin) (call.clock 1)
  else a

/-- The sample filter is brought up to date, and may end slow start. -/
def hystart (a : ActiveTonopah ι) (n : Notification) : ActiveTonopah ι × Bool :=
  let rtt := if n.isTimeStampEnabled then n.oneWayDelay else n.rttMeasurement
  let (rttFilter, exit) := hystartTest a.rttFilter rtt n.currentTime
  let nrss := if exit then
      { a.nrss with ssthresh := a.nrss.cwin, algState := .congestionAvoidance }
    else a.nrss
  ({ a with rttFilter := rttFilter, nrss := nrss }, exit)

/-- The switch of `notify`, for the path `path` of a connection with paths `paths`. -/
def react (a : ActiveTonopah ι) (v : TonopahVariant ι) (call : TonopahCall) (paths : List ℕ)
    (path : ℕ) : ActiveTonopah ι :=
  let n := call.toNotification paths
  match call.notification with
  | .acknowledgement =>
    if n.isCwinLimited then
      let a := a.simNotify v n
      let a := { a with globals := a.globals.recordAck v n path }
      a.setPath v call paths a.nrss.cwin (call.clock 1)
    else a
  | .ecnEc =>
    if v.ignoresDominantEcn ∧ a.globals.dominantPath = some path then a
    else
      let a := a.simNotify v n
      a.setPath v call paths a.nrss.cwin (call.clock 1)
  | .seedCwin | .repeated | .timeout | .spuriousRepeat =>
    let a := a.simNotify v n
    a.setPath v call paths a.nrss.cwin (call.clock 1)
  | .rttMeasurement =>
    if a.nrss.inInitialSlowStart then
      let (a, exit) := (a.raiseForLongDelay v call paths).hystart n
      if exit then a.setPath v call paths a.nrss.cwin (call.clock 2) else a
    else a
  | .bwMeasurement =>
    if a.nrss.inInitialSlowStart ∧ a.nrss.cwin < n.bandwidthWindow then
      setPath { a with nrss := { a.nrss with cwin := n.bandwidthWindow } } v call paths
        n.bandwidthWindow (call.clock 1)
    else a
  | .reset =>
    { a with
      nrss := simReset
      rttFilter := .zero
      pathCwin := Function.update a.pathCwin path simReset.cwin }
  | .cwinBlocked => a

end ActiveTonopah

/-! ### What a notification keeps -/

/-- A property `I` of the global variables that holds of `g₀` and is kept by the steps of a
notification for the path `path` of a connection with paths `paths`. -/
structure TonopahGlobals.Kept {ι : Type} (I : TonopahGlobals ι → Prop) (v : TonopahVariant ι)
    (call : TonopahCall) (paths : List ℕ) (path : ℕ) (g₀ : TonopahGlobals ι) : Prop where
  holds : I g₀
  delete : ∀ g, I g → I g.deleteInfoList
  record : call.notification = .acknowledgement → (call.toNotification paths).isCwinLimited = true →
    I (g₀.recordAck v (call.toNotification paths) path)
  change : ∀ g, I g → paths.length ≠ 1 → g.path1.isSome → g.path2.isSome →
    ∀ reset now, I (g.change v reset (fun path => (call.view path).pathPacketNumber) now)
  split : ∀ g, I g → paths.length ≠ 1 → g.path1.isSome → g.path2.isSome →
    I (g.logSplit (g.share (paths.getD 0 call.behind) (paths.getD 1 call.behind)))

namespace ActiveTonopah

variable {ι : Type} {I : TonopahGlobals ι → Prop} {v : TonopahVariant ι} {call : TonopahCall}
  {paths : List ℕ} {path : ℕ} {g₀ : TonopahGlobals ι} {a : ActiveTonopah ι}

/-- The change of intervals, on the global variables. -/
theorem changeInterval_globals (a : ActiveTonopah ι) (v : TonopahVariant ι) (numbers : ℕ → ℕ)
    (now : ℕ) : ∃ reset, (a.changeInterval v numbers now).globals =
      a.globals.change v reset numbers now := by
  have hreact : ∃ reset : Bool, (reactToFq { a with globals := a.globals.alternate v } v).globals =
      if reset then (a.globals.alternate v).judge.deleteInfoList
      else (a.globals.alternate v).judge := by
    rw [reactToFq]
    dsimp only
    split_ifs
    · exact ⟨true, rfl⟩
    · exact ⟨false, rfl⟩
  obtain ⟨reset, hreset⟩ := hreact
  rw [changeInterval]
  split_ifs
  · exact ⟨reset, by rw [hreset]; rfl⟩
  · refine ⟨true, ?_⟩
    have hdelete :
        (reactToFq { a with globals := a.globals.alternate v } v).globals.deleteInfoList =
          (a.globals.alternate v).judge.deleteInfoList := by
      rw [hreset]
      split_ifs <;> rfl
    rw [deleteInfoList, hdelete]
    rfl

theorem splitWindow_globals (a : ActiveTonopah ι) (v : TonopahVariant ι) (path0 path1 cwin : ℕ) :
    (a.splitWindow v path0 path1 cwin).globals =
      a.globals.logSplit (a.globals.share path0 path1) := by
  rw [splitWindow, TonopahGlobals.share]
  split_ifs <;> rfl

theorem simNotify_kept (h : TonopahGlobals.Kept I v call paths path g₀) (ha : I a.globals)
    (n : Notification) : I (a.simNotify v n).globals := by
  have hrecovery : I (a.simEnterRecovery n).globals := by
    rw [simEnterRecovery]
    split_ifs
    · exact ha
    · exact h.delete _ ha
    · exact ha
  rw [simNotify]
  split
  case h_2 | h_3 | h_4 =>
    split_ifs
    · exact hrecovery
    · exact ha
  all_goals exact ha

/-- The change of intervals leaves the known paths. -/
theorem change_known (g : TonopahGlobals ι) (v : TonopahVariant ι) (reset : Bool) (numbers : ℕ → ℕ)
    (now : ℕ) : (g.change v reset numbers now).path1 = g.path1 ∧
      (g.change v reset numbers now).path2 = g.path2 := by
  have halternate : (g.alternate v).path1 = g.path1 ∧ (g.alternate v).path2 = g.path2 := by
    rw [TonopahGlobals.alternate]
    split
    · exact ⟨rfl, rfl⟩
    · exact ⟨rfl, rfl⟩
  have hcheck (g : TonopahGlobals ι) (b : Bool) :
      (g.check b).path1 = g.path1 ∧ (g.check b).path2 = g.path2 := by
    cases b
    · exact ⟨rfl, rfl⟩
    · exact ⟨rfl, rfl⟩
  cases reset
  · exact ⟨(hcheck _ _).1.trans halternate.1, (hcheck _ _).2.trans halternate.2⟩
  · exact ⟨(hcheck _ _).1.trans halternate.1, (hcheck _ _).2.trans halternate.2⟩

theorem length_ne_one_of_nbPaths (h : (call.toNotification paths).nbPaths = 2) :
    paths.length ≠ 1 := by
  intro hone
  have hnb : (call.toNotification paths).nbPaths = if paths.length = 1 then 1 else 2 := rfl
  rw [hnb, if_pos hone] at h
  exact absurd h (by decide)

theorem setPath_kept (h : TonopahGlobals.Kept I v call paths path g₀) (ha : I a.globals)
    (cwin now : ℕ) : I (a.setPath v call paths cwin now).globals := by
  rw [setPath]
  dsimp only
  split_ifs with hknown helapsed
  · have hlength := length_ne_one_of_nbPaths hknown.1
    obtain ⟨reset, hreset⟩ := a.changeInterval_globals v
      (fun path => (call.view path).pathPacketNumber) now
    obtain ⟨h1, h2⟩ := change_known a.globals v reset
      (fun path => (call.view path).pathPacketNumber) now
    have hchange := h.change _ ha hlength hknown.2.1 hknown.2.2 reset now
    rw [splitWindow_globals, hreset]
    exact h.split _ hchange hlength (h1 ▸ hknown.2.1) (h2 ▸ hknown.2.2)
  · have hlength := length_ne_one_of_nbPaths hknown.1
    rw [splitWindow_globals]
    exact h.split _ ha hlength hknown.2.1 hknown.2.2
  · exact ha

/-- The switch of a notification. -/
theorem react_kept (h : TonopahGlobals.Kept I v call paths path g₀) (ha : a.globals = g₀) :
    I (a.react v call paths path).globals := by
  have hI : I a.globals := ha ▸ h.holds
  have hsim := simNotify_kept h hI (call.toNotification paths)
  rw [react]
  split
  case h_1 hack =>
    split_ifs with hlimited
    · refine setPath_kept h ?_ _ _
      have hsame : (a.simNotify v (call.toNotification paths)).globals = g₀ := by
        rw [simNotify, TonopahCall.toNotification, hack]
        exact ha
      rw [hsame]
      exact h.record hack hlimited
    · exact hI
  case h_2 =>
    split_ifs
    · exact hI
    · exact setPath_kept h hsim _ _
  case h_7 =>
    split_ifs
    · have hraise : I (a.raiseForLongDelay v call paths).globals := by
        rw [raiseForLongDelay]
        dsimp only
        split_ifs
        · refine setPath_kept h ?_ _ _
          exact hI
        · exact hI
      generalize a.raiseForLongDelay v call paths = b at hraise ⊢
      have hexit : I (b.hystart (call.toNotification paths)).1.globals := hraise
      generalize b.hystart (call.toNotification paths) = c at hexit ⊢
      dsimp only
      split_ifs
      · exact setPath_kept h hexit _ _
      · exact hexit
    · exact hI
  case h_8 =>
    dsimp only
    split_ifs
    · refine setPath_kept h ?_ _ _
      exact hI
    · exact hI
  case h_9 => exact hI
  case h_10 => exact hI
  all_goals exact setPath_kept h hsim _ _

end ActiveTonopah

/-! ### The process -/

namespace TonopahProcess

variable {ι : Type}

/-- What every notification begins with. -/
def register (g : TonopahGlobals ι) (paths : List ℕ) (path path0 now : ℕ) : TonopahGlobals ι :=
  let g := ((g.logPath path).check (decide (paths.length ≤ 2))).learnPath path
  if g.isKnown path then g.makeDominant path0 now
  else { g with fault := g.fault.or (some .unknownPath) }

/-- `notify`, for a path that the connection has. -/
def notify (v : TonopahVariant ι) (p : TonopahProcess ι) (call : TonopahCall) :
    TonopahProcess ι :=
  let paths := p.paths call.cnx
  match paths[(call.position : ℕ)]?, paths[0]? with
  | some path, some path0 =>
    let g := register p.globals paths path path0 (call.clock 0)
    let p := { p with globals := g }
    match g.fault, p.algState path0 with
    | none, some (nrss, rttFilter) =>
      let a := (⟨g, nrss, rttFilter, p.pathCwin⟩ : ActiveTonopah ι).react v call paths path
      { p with
        globals := a.globals
        algState := Function.update p.algState path0 (some (a.nrss, a.rttFilter))
        pathCwin := a.pathCwin }
    | _, _ => p
  | _, _ => p

/-- What happens to a process. -/
inductive Event
  /-- A path is created at an address, and the algorithm set up for it, unless there is no
  memory. -/
  | create (cnx path : ℕ) (isAllocated : Bool)
  /-- The algorithm is set up again for a path. -/
  | init (cnx : ℕ) (position : PathIndex) (isAllocated : Bool)
  /-- `picoquic_promote_path_to_default`: the algorithm is set up again, and the path exchanged
  with the default path. -/
  | promote (cnx : ℕ) (isAllocated : Bool)
  /-- `picoquic_delete_path`. -/
  | delete (cnx : ℕ) (position : PathIndex)
  /-- `notify`. -/
  | notify (call : TonopahCall)

/-- The algorithm is set up for a path. -/
def init (p : TonopahProcess ι) (path : ℕ) (isAllocated : Bool) : TonopahProcess ι :=
  if isAllocated then
    { p with
      algState := Function.update p.algState path (some (simReset, .zero))
      pathCwin := Function.update p.pathCwin path simReset.cwin }
  else { p with algState := Function.update p.algState path none }

/-- Other paths for a connection. -/
def setPaths (p : TonopahProcess ι) (cnx : ℕ) (paths : List ℕ) : TonopahProcess ι :=
  { p with paths := Function.update p.paths cnx paths }

/-- One event of a process that goes on. A path is created at a free address, for a connection
that has less than two. -/
def advance (v : TonopahVariant ι) (p : TonopahProcess ι) : Event → TonopahProcess ι
  | .create cnx path isAllocated =>
    if (p.paths cnx).length < 2 ∧ p.owner path = none then
      ({ p with owner := Function.update p.owner path (some cnx) }.setPaths cnx
        (p.paths cnx ++ [path])).init path isAllocated
    else p
  | .init cnx position isAllocated =>
    match (p.paths cnx)[(position : ℕ)]? with
    | some path => p.init path isAllocated
    | none => p
  | .promote cnx isAllocated =>
    match p.paths cnx with
    | [path0, path1] => (p.setPaths cnx [path1, path0]).init path1 isAllocated
    | _ => p
  | .delete cnx position =>
    match (p.paths cnx)[(position : ℕ)]? with
    | some path =>
      { p with
        owner := Function.update p.owner path none
        algState := Function.update p.algState path none }.setPaths cnx
        ((p.paths cnx).eraseIdx position)
    | none => p
  | .notify call => p.notify v call

/-- One event. Nothing happens to a process that has ended. -/
def step (v : TonopahVariant ι) (p : TonopahProcess ι) (event : Event) : TonopahProcess ι :=
  if p.globals.fault.isSome then p else p.advance v event

/-- A process in which the algorithm was not used yet. -/
def initial : TonopahProcess ι where
  globals := ⟨none, none, none, 0, [], [], [], [], none⟩
  paths _ := []
  owner _ := none
  algState _ := none
  pathCwin _ := 0

variable {v : TonopahVariant ι} {p : TonopahProcess ι} {call : TonopahCall}

/-- **Step lemma.** A notification keeps a property of the global variables, if their registration
does and the steps of the notification do. -/
theorem notify_kept {I : TonopahGlobals ι → Prop} (hp : I p.globals)
    (h : ∀ path path0, (p.paths call.cnx)[(call.position : ℕ)]? = some path →
      (p.paths call.cnx)[0]? = some path0 →
      let g := register p.globals (p.paths call.cnx) path path0 (call.clock 0)
      I g ∧ (g.fault = none → TonopahGlobals.Kept I v call (p.paths call.cnx) path g)) :
    I (p.notify v call).globals := by
  rw [notify]
  dsimp only
  split
  next path path0 hpath hpath0 =>
    obtain ⟨hregister, hkept⟩ := h path path0 hpath hpath0
    split
    next nrss rttFilter hfault hstate => exact ActiveTonopah.react_kept (hkept hfault) rfl
    next => exact hregister
  next => exact hp

theorem notify_frame : (p.notify v call).paths = p.paths ∧ (p.notify v call).owner = p.owner := by
  rw [notify]
  dsimp only
  split
  next => split <;> exact ⟨rfl, rfl⟩
  next => exact ⟨rfl, rfl⟩

theorem init_frame (path : ℕ) (isAllocated : Bool) :
    (p.init path isAllocated).globals = p.globals ∧ (p.init path isAllocated).paths = p.paths ∧
      (p.init path isAllocated).owner = p.owner := by
  rw [init]
  split <;> exact ⟨rfl, rfl, rfl⟩

/-- Only notifications change the global variables. -/
theorem advance_globals {event : Event} (h : ∀ call, event ≠ .notify call) :
    (p.advance v event).globals = p.globals := by
  cases event with
  | create cnx path isAllocated =>
    rw [advance]
    split
    · exact (init_frame _ _).1
    · rfl
  | init cnx position isAllocated =>
    rw [advance]
    split
    · exact (init_frame _ _).1
    · rfl
  | promote cnx isAllocated =>
    rw [advance]
    split
    · exact (init_frame _ _).1
    · rfl
  | delete cnx position =>
    rw [advance]
    split
    · rfl
    · rfl
  | notify call => exact absurd rfl (h call)

/-- **The rule for steps.** A property of the global variables is kept by every event, if it is
kept by notifications. -/
theorem step_kept {I : TonopahGlobals ι → Prop} (hp : I p.globals) (event : Event)
    (h : p.globals.fault = none → ∀ call, event = .notify call → I (p.notify v call).globals) :
    I (p.step v event).globals := by
  rw [step]
  split
  next => exact hp
  next hfault =>
    have hnone : p.globals.fault = none := Option.not_isSome_iff_eq_none.mp hfault
    by_cases hnotify : ∃ call, event = .notify call
    · obtain ⟨call, rfl⟩ := hnotify
      exact h hnone call rfl
    · rw [advance_globals fun call hcall => hnotify ⟨call, hcall⟩]
      exact hp

end TonopahProcess

end Picoquic
