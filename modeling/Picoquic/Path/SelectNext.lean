import Picoquic.Path.Abandon
import Picoquic.Sender.Pacing

/-!
# Selecting a path

With several paths, the sender picks the one that the next packet goes on. One loop over the paths
looks for one that needs a challenge or a probe, and notes the best candidates otherwise: among the
paths of the highest priority with the fewest retransmissions, the one that may send and was used
longest ago, with and without regard to its window, and the one with the shortest round trip time,
which acknowledgements go on. With Tonopah on two paths the order of the loop is drawn at random.

* **`SelectCnx.scanPath`** — one path;
* **`SelectCnx.scanLoop`** — the loop, up to the path that ends it;
* **`selectNextPathMp`** — the function.

An index that is `-1` until it is set is an `Option`.
-/

namespace Picoquic

/-! ### Paths -/

/-- `picoquic_path_t`, the part that the selection is about. -/
structure MpPath extends Demotion where
  challengeRequired : Bool
  challengeVerified : Bool
  challengeFailed : Bool
  responseRequired : Bool
  challengeTime : ℕ
  challengeRepeatCount : ℕ
  nbRetransmit : Fin (2 ^ 64)
  bytesInTransit : ℕ
  cwin : ℕ
  pathPriority : ℤ
  rttMin : ℕ
  lastSentTime : Fin (2 ^ 64)
  pacing : Pacing
  hasCongestionAlgState : Bool
  isNominalAckPath : Bool
  isMultipathProbeNeeded : Bool
  /-- Counters that are logged. -/
  responder : ℕ
  challenger : ℕ
  polled : ℕ
  paced : ℕ
  congested : ℕ
  selected : ℕ

/-- `PICOQUIC_INITIAL_RETRANSMIT_TIMER`. -/
def initialRetransmitTimer : ℕ := 250000

/-- `picoquic_next_challenge_time`. -/
def MpPath.nextChallengeTime (p : MpPath) : ℕ :=
  if 2 ≤ p.challengeRepeatCount then
    u64 (p.challengeTime + u64 (p.retransmitTimer <<< p.challengeRepeatCount))
  else u64 (p.challengeTime + initialRetransmitTimer)

/-- `alg_init`: all algorithms start with the initial window. -/
def MpPath.algInit (p : MpPath) : MpPath :=
  if p.hasCongestionAlgState then p
  else { p with hasCongestionAlgState := true, cwin := cwinInitial }

/-- A path with `is_nominal_ack_path` set. -/
def MpPath.mark (p : MpPath) (isNominalAckPath : Bool) : MpPath :=
  { p with isNominalAckPath := isNominalAckPath }

/-- The counters of a path that is polled, and its pacing. -/
def MpPath.poll (p : MpPath) (pacing : Pacing) (isAuthorized isNotCwinLimited : Bool) : MpPath :=
  { p with
    pacing := pacing
    polled := p.polled + 1
    congested := if isAuthorized ∧ ¬ isNotCwinLimited then p.congested + 1 else p.congested
    paced := if isAuthorized then p.paced else p.paced + 1 }

/-- `picoquic_cnx_t`, the part that the selection is about. A connection has a path. -/
structure SelectCnx where
  nbPaths : ℕ
  nbPaths_pos : 0 < nbPaths
  paths : ℕ → MpPath
  congestionAlgorithmNumber : ℕ
  isReady : Bool
  packetTrainMode : Bool
  pathDemotionNeeded : Bool

/-- `PICOQUIC_CC_ALGO_NUMBER_TONOPAH`. -/
def ccAlgoNumberTonopah : ℕ := 6

namespace SelectCnx

/-- Tonopah on two paths. -/
def isTonopah (c : SelectCnx) : Bool :=
  decide (ccAlgoNumberTonopah ≤ c.congestionAlgorithmNumber ∧ c.nbPaths = 2)

/-- The connection with a path changed. -/
def setPath (c : SelectCnx) (i : ℕ) (f : MpPath → MpPath) : SelectCnx :=
  { c with paths := Function.update c.paths i (f (c.paths i)) }

/-- `picoquic_demote_path`. -/
def demotePath (c : SelectCnx) (i currentTime : ℕ) : SelectCnx :=
  { c.setPath i fun p => { p with toDemotion := p.demote currentTime } with
    pathDemotionNeeded := c.pathDemotionNeeded || !(c.paths i).isDemoted }

end SelectCnx

/-- What the loop does at a path, by the state of the path. -/
inductive ScanAction where
  | skip
  | demote
  | respond
  | challenge
  | wait (nextChallengeTime : ℕ)
  | probe
  | poll

/-- The branches of the loop. -/
def MpPath.scanAction (p : MpPath) (isReady : Bool) (currentTime : ℕ) : ScanAction :=
  if p.isDemoted then .skip
  else if p.challengeFailed then .demote
  else if p.responseRequired then .respond
  else if p.challengeRequired ∧ ¬ p.challengeVerified then
    if p.challengeRepeatCount = 0 ∨ p.nextChallengeTime ≤ currentTime then .challenge
    else .wait p.nextChallengeTime
  else if p.challengeVerified ∧ 0 < (p.nbRetransmit : ℕ) ∧ isReady ∧ p.bytesInTransit = 0 then
    .probe
  else if p.challengeVerified then .poll
  else .skip

/-! ### The loop -/

/-- The variables of the loop. -/
structure SelectScan where
  highestPriority : ℤ
  highestRetransmit : ℕ
  dataPathCwin : Option ℕ
  dataPathPacing : Option ℕ
  pacingTimeNext : ℕ
  challengeTimeNext : ℕ
  lastSentPacing : ℕ
  lastSentCwin : ℕ
  iMinRtt : Option ℕ
  isMinRttPacingOk : Bool

namespace SelectScan

/-- Their values before the loop. -/
def init : SelectScan :=
  ⟨-1, uint64Max, none, none, uint64Max, uint64Max, uint64Max, uint64Max, none, false⟩

/-- A path of a higher priority, or with fewer retransmissions: `is_new_priority`. -/
def IsNewPriority (s : SelectScan) (p : MpPath) : Prop :=
  s.highestPriority < p.pathPriority ∨
    p.pathPriority = s.highestPriority ∧ (p.nbRetransmit : ℕ) < s.highestRetransmit

/-- A path of the same priority with as many retransmissions. -/
def IsSamePriority (s : SelectScan) (p : MpPath) : Prop :=
  p.pathPriority = s.highestPriority ∧ (p.nbRetransmit : ℕ) = s.highestRetransmit

instance (s : SelectScan) (p : MpPath) : Decidable (s.IsNewPriority p) :=
  inferInstanceAs (Decidable (_ ∨ _))

instance (s : SelectScan) (p : MpPath) : Decidable (s.IsSamePriority p) :=
  inferInstanceAs (Decidable (_ ∧ _))

/-- The variables for a new priority. -/
def restart (s : SelectScan) (p : MpPath) : SelectScan :=
  { s with
    highestPriority := p.pathPriority
    highestRetransmit := p.nbRetransmit
    dataPathCwin := none
    dataPathPacing := none
    pacingTimeNext := uint64Max
    lastSentPacing := uint64Max
    lastSentCwin := uint64Max
    iMinRtt := none
    isMinRttPacingOk := false }

/-- A candidate for the shortest round trip time. -/
def offerMinRtt (s : SelectScan) (i : ℕ) (isShorter : Bool) : SelectScan :=
  if s.iMinRtt = none ∨ isShorter then { s with iMinRtt := some i, isMinRttPacingOk := false }
  else s

/-- A path that may send. -/
def offerData (s : SelectScan) (i : ℕ) (p : MpPath) (isTonopah isNotCwinLimited : Bool) :
    SelectScan :=
  let s :=
    if isTonopah ∨ (p.lastSentTime : ℕ) < s.lastSentPacing then
      { s with
        lastSentPacing := p.lastSentTime
        dataPathPacing := some i
        isMinRttPacingOk := if s.iMinRtt = some i then true else s.isMinRttPacingOk }
    else s
  if isNotCwinLimited ∧ (isTonopah ∨ (p.lastSentTime : ℕ) < s.lastSentCwin) then
    { s with lastSentCwin := p.lastSentTime, dataPathCwin := some i }
  else s

end SelectScan

namespace SelectCnx

/-- `not_cwin_limited`. The windows of both paths count together with Tonopah. -/
def isNotCwinLimited (c : SelectCnx) (i : ℕ) : Bool :=
  if c.isTonopah then
    decide (u64 ((c.paths 0).bytesInTransit + (c.paths 1).bytesInTransit) <
      u64 ((c.paths 0).cwin + (c.paths 1).cwin))
  else decide ((c.paths i).bytesInTransit < (c.paths i).cwin)

/-- A path that is polled. -/
def pollPath (c : SelectCnx) (currentTime : ℕ) (s : SelectScan) (i : ℕ) : SelectCnx × SelectScan :=
  let p := c.paths i
  -- `i_min_rtt` is a path that was polled before, so that its round trip time is at hand
  let s := s.offerMinRtt i (s.iMinRtt.any fun m => decide (p.rttMin < (c.paths m).rttMin))
  let (pacing, isAuthorized, pacingTimeNext) :=
    p.pacing.isSendingAuthorized c.packetTrainMode currentTime s.pacingTimeNext
  let s := { s with pacingTimeNext := pacingTimeNext }
  (c.setPath i fun p => p.poll pacing isAuthorized (c.isNotCwinLimited i),
    if isAuthorized then s.offerData i p c.isTonopah (c.isNotCwinLimited i) else s)

/-- A path that was verified. -/
def scanVerified (c : SelectCnx) (currentTime : ℕ) (s : SelectScan) (i : ℕ) :
    SelectCnx × SelectScan :=
  let c := c.setPath i MpPath.algInit
  let p := c.paths i
  if s.IsNewPriority p then c.pollPath currentTime (s.restart p) i
  else if s.IsSamePriority p then c.pollPath currentTime s i
  else (c, s)

/-- The body of the loop. It ends the loop, without the variables, at a path that needs a challenge,
a response or a probe. -/
def scanPath (c : SelectCnx) (currentTime : ℕ) (s : SelectScan) (i : ℕ) :
    SelectCnx × Option SelectScan :=
  let c := c.setPath i (·.mark false)
  match (c.paths i).scanAction c.isReady currentTime with
  | .skip => (c, some s)
  | .demote => (c.demotePath i currentTime, some s)
  | .respond => (c.setPath i fun p => { p with responder := p.responder + 1 }, none)
  | .challenge => (c.setPath i fun p => { p with challenger := p.challenger + 1 }, none)
  -- such a path is not verified, and is not polled
  | .wait nextChallengeTime =>
    (c, some { s with challengeTimeNext := min s.challengeTimeNext nextChallengeTime })
  | .probe => (c.setPath i fun p => { p with isMultipathProbeNeeded := true }, none)
  | .poll =>
    let (c, s) := c.scanVerified currentTime s i
    (c, some s)

/-- What the loop leaves, with the index of the path that ended it. -/
structure ScanResult where
  cnx : SelectCnx
  scan : SelectScan
  stop : Option ℕ

/-- The loop. -/
def scanLoop (currentTime : ℕ) : List ℕ → SelectCnx → SelectScan → ScanResult
  | [], c, s => ⟨c, s, none⟩
  | i :: rest, c, s =>
    match c.scanPath currentTime s i with
    | (c, none) => ⟨c, s, some i⟩
    | (c, some s) => scanLoop currentTime rest c s

/-! ### The selection -/

/-- `next_path`, from the number that is drawn. -/
def nextPath (c : SelectCnx) (rand : ℕ) : Option ℕ :=
  if c.isTonopah then some (rand % 2) else none

/-- The paths in the order of the loop. -/
def scanOrder (c : SelectCnx) (rand : ℕ) : List ℕ :=
  if c.nextPath rand = some 0 then List.range c.nbPaths else (List.range c.nbPaths).reverse

/-- The index `i` after the loop, plus one. -/
def afterStop (c : SelectCnx) (rand : ℕ) (stop : Option ℕ) : ℕ :=
  match stop with
  | some i => i + 1
  | none => if c.nextPath rand = some 0 then c.nbPaths + 1 else 0

/-- The second loop, over the paths from `start` on. -/
def markFrom (c : SelectCnx) (start : ℕ) (isNominalAckPath : Bool) : SelectCnx :=
  { c with paths := fun j =>
      if start ≤ j ∧ j < c.nbPaths then (c.paths j).mark isNominalAckPath else c.paths j }

/-- The path that acknowledgements go on. -/
def ackPath (c : SelectCnx) (rand : ℕ) (s : SelectScan) : Option ℕ :=
  if c.isTonopah then c.nextPath rand else s.iMinRtt

/-- The path to fall back on. -/
def defaultPath (c : SelectCnx) (rand : ℕ) : ℕ := (c.nextPath rand).getD 0

end SelectCnx

/-- What is left by the selection. -/
structure SelectResult where
  cnx : SelectCnx
  pathId : ℕ
  nextWakeTime : ℕ

/-- `picoquic_select_next_path_mp`. `isAckNeeded` is `picoquic_is_ack_needed`, which may change the
time to wake up. -/
def selectNextPathMp (c : SelectCnx) (isAckNeeded : ℕ → Bool × ℕ)
    (rand currentTime nextWakeTime : ℕ) : SelectResult :=
  let r := SelectCnx.scanLoop currentTime (c.scanOrder rand) c .init
  -- with Tonopah the paths behind `i` are marked, otherwise their marks are cleared
  let marked := r.cnx.markFrom (c.afterStop rand r.stop) c.isTonopah
  let ackPath := c.ackPath rand r.scan
  let marked := ackPath.elim marked fun i =>
    marked.setPath i (·.mark true)
  let (ackNeeded, nextWakeTime) :=
    ackPath.elim (false, nextWakeTime) fun _ => isAckNeeded nextWakeTime
  let wakeTime := min r.scan.pacingTimeNext r.scan.challengeTimeNext
  let (pathId, nextWakeTime) :=
    match r.stop with
    | some i => (i, nextWakeTime)
    | none =>
      -- with Tonopah the search goes on, so that this choice is not kept
      if ackNeeded ∧ r.scan.isMinRttPacingOk ∧ ¬ c.isTonopah then
        (r.scan.iMinRtt.getD 0, nextWakeTime)
      else
        match r.scan.dataPathCwin, r.scan.dataPathPacing with
        | some i, _ => (i, nextWakeTime)
        | none, some i => (i, nextWakeTime)
        | none, none => (c.defaultPath rand, min nextWakeTime wakeTime)
  ⟨marked.setPath pathId fun p => { p with selected := p.selected + 1 }, pathId, nextWakeTime⟩

end Picoquic
