import Picoquic.Ack.Blocks
import Picoquic.Sender.Pacing

/-!
# Round trip times

An acknowledgement gives a measure of the round trip time: the time since the packet was sent, less
the delay that the peer reports. The measure is split into the delays of the two directions, and
each path keeps an average, a variation and a minimum for either direction.

* **`updatePathRtt`** — an acknowledgement, received on one path for a packet sent on another;
* **`DelayEstimate.update_bounded`** — a direction, in one step;
* **`PathLaw`** — what the delays of a path have to do with the samples that were taken on it;
* **`rtt_samples_physical`** — samples that are physical, and a minimum below all of them.

The delay is shifted by an exponent that the peer chooses, and is subtracted in unsigned arithmetic.
-/

namespace Picoquic

open Runs

/-! ### The delays of a path -/

/-- One direction of a path: `one_way_delay_avg`, `_var` and `_min`, or `one_way_return_avg`, `_var`
and `_min`. -/
structure DelayEstimate where
  avg : ℕ
  var : ℕ
  min : ℕ

/-- `picoquic_update_delay_avg_and_var`. -/
def DelayEstimate.update (d : DelayEstimate) (sample : ℤ) : DelayEstimate :=
  if d.var = 0 then ⟨u64OfInt sample, u64OfInt (sample.tdiv 2), u64OfInt sample⟩
  else
    let delta := int64 (sub64 (u64OfInt sample) d.avg)
    let absDelta := if delta < 0 then wrapInt64 (-delta) else delta
    let deltaVar := int64 (sub64 (u64OfInt absDelta) d.var)
    { avg := u64 (d.avg + u64OfInt (delta.tdiv 8))
      var := u64 (d.var + u64OfInt (deltaVar.tdiv 4))
      min := if u64OfInt sample < d.min then u64OfInt sample else d.min }

/-- `picoquic_path_t`, the part that round trip times are about. -/
structure RttPath where
  delay : DelayEstimate
  ret : DelayEstimate
  oneWayDelaySample : ℕ
  rttSample : ℕ
  smoothedRtt : ℕ
  rttVariant : ℕ
  rttMin : ℕ
  retransmitTimer : ℕ
  nbDelayOutliers : ℕ
  ipAddr : List UInt8

/-- `PICOQUIC_INITIAL_RTT`, and `PICOQUIC_INITIAL_RETRANSMIT_TIMER`. -/
def initialRtt : ℕ := 250000

/-- `PICOQUIC_MIN_RETRANSMIT_TIMER`. -/
def minRetransmitTimer : ℕ := 50000

/-- A path as `picoquic_create_path` makes it. -/
def RttPath.create (ipAddr : List UInt8) : RttPath where
  delay := ⟨0, 0, 0⟩
  ret := ⟨0, 0, 0⟩
  oneWayDelaySample := 0
  rttSample := 0
  smoothedRtt := initialRtt
  rttVariant := 0
  rttMin := 0
  retransmitTimer := initialRtt
  nbDelayOutliers := 0
  ipAddr := ipAddr

/-- The variables that `picoquic_update_rtt_from_one_way` computes. -/
def RttPath.updateRttFromOneWay (p : RttPath) (maxAckDelay rttEstimate : ℕ) : RttPath :=
  let smoothedRtt := u64 (p.delay.avg + p.ret.avg)
  let rttVariant := u64 (p.delay.var + p.ret.var)
  let rttMin := u64 (p.delay.min + p.ret.min)
  let rttVariant :=
    if u64 (4 * rttVariant) < rttMin ∧ rttMin < targetSatelliteRtt then rttMin / 4 else rttVariant
  let retransmitTimer := u64 (smoothedRtt + 4 * rttVariant + maxAckDelay)
  let altTimer := u64 (u64 (5 * smoothedRtt) >>> 2 + maxAckDelay)
  let retransmitTimer := if retransmitTimer < altTimer then altTimer else retransmitTimer
  { p with
    smoothedRtt := smoothedRtt
    rttVariant := rttVariant
    rttMin := rttMin
    retransmitTimer :=
      if retransmitTimer < minRetransmitTimer then minRetransmitTimer else retransmitTimer
    rttSample := rttEstimate }

/-! ### The connection -/

/-- `picoquic_cnx_t`, the part that round trip times are about. Paths are given by their addresses
in memory, and those that do not exist yet are as they will be created. -/
structure RttCnx where
  paths : ℕ → RttPath
  startTime : ℕ
  phaseDelay : ℤ
  clientMode : Bool
  isTimeStampEnabled : Bool
  maxAckDelay : ℕ
  seedCwin : ℕ
  seedRttMin : ℕ
  seedIpAddr : List UInt8

/-- The connection with a path changed. -/
def RttCnx.setPath (c : RttCnx) (i : ℕ) (f : RttPath → RttPath) : RttCnx :=
  { c with paths := Function.update c.paths i (f (c.paths i)) }

/-- What the congestion control and the rest of the connection are told. -/
inductive RttNotification
  /-- `rtt_sample` of a path is set, and its congestion control gets the one way delay as well. -/
  | rttMeasurement (path rttEstimate oneWayDelay : ℕ)
  /-- Delays have changed on the default path, and with them the acknowledgements to ask for. -/
  | ackFrequency
  /-- The parameters of an earlier connection are valid. -/
  | seedCwin (cwin : ℕ)

/-- A call of `picoquic_update_path_rtt`: the packet was sent on `oldPath`, and its acknowledgement
received on `pathX`; `path0` is the default path. -/
structure RttUpdate where
  oldPath : Option ℕ
  pathX : Option ℕ
  path0 : ℕ
  sendTime : ℕ
  currentTime : ℕ
  /-- The delay as the peer encodes it, and the exponent that was negotiated. -/
  ackDelayField : ℕ
  ackDelayExponent : ℕ
  timeStamp : ℕ
  currentTime_lt : currentTime < 2 ^ 64

/-- The delay that `picoquic_parse_ack_header` makes of the field. -/
def RttUpdate.ackDelay (u : RttUpdate) : ℕ := u64 (u.ackDelayField <<< u.ackDelayExponent)

/-- `rtt_estimate`. -/
def RttUpdate.rttEstimate (u : RttUpdate) : ℤ :=
  int64 (sub64 (sub64 u.currentTime u.ackDelay) u.sendTime)

/-- `INT64_MAX`, for a phase that is not known. -/
def unknownPhase : ℤ := 2 ^ 63 - 1

/-- The phase between the two clocks. It is set when the first time stamp is used. -/
def RttCnx.setPhaseDelay (c : RttCnx) (u : RttUpdate) : RttCnx :=
  if u.timeStamp ≠ 0 ∧ c.phaseDelay = unknownPhase then
    { c with phaseDelay :=
        if c.clientMode then u.rttEstimate.tdiv 2 else -(u.rttEstimate.tdiv 2) }
  else c

/-- The share of the first direction, and which of the two directions it says something about. -/
structure OneWaySample where
  sample : ℤ
  isOldPathValid : Bool
  isPathXValid : Bool

/-- How `picoquic_update_path_rtt` splits the measure. -/
def RttCnx.oneWaySample (c : RttCnx) (u : RttUpdate) (old x : ℕ) : OneWaySample :=
  let delay := (c.paths old).delay
  let ret := (c.paths x).ret
  if u.timeStamp ≠ 0 then
    let timeStampLocal :=
      u64 (sub64 u.timeStamp u.ackDelay + c.startTime + u64OfInt c.phaseDelay)
    ⟨int64 (sub64 timeStampLocal u.sendTime), true, true⟩
  else if delay.var ≠ 0 then
    if ret.var ≠ 0 then
      let delta := int64 (sub64 (sub64 (u64OfInt u.rttEstimate) delay.min) ret.min)
      let delta := (wrapInt64 (int64 delay.var * delta)).tdiv (int64 (u64 (delay.var + ret.var)))
      ⟨int64 (u64 (delay.min + u64OfInt delta)), true, true⟩
    else ⟨int64 delay.avg, false, true⟩
  else if ret.var ≠ 0 then ⟨int64 (sub64 (u64OfInt u.rttEstimate) ret.avg), true, false⟩
  else if x = old then ⟨u.rttEstimate.tdiv 2, true, true⟩
  else ⟨0, false, false⟩

/-- The first direction after a sample. -/
def RttCnx.updateDelay (c : RttCnx) (old : ℕ) (s : OneWaySample) : RttCnx :=
  if s.isOldPathValid then
    c.setPath old fun p =>
      { p with delay := p.delay.update s.sample, oneWayDelaySample := u64OfInt s.sample }
  else c

/-- The second direction after a sample. -/
def RttCnx.updateReturn (c : RttCnx) (u : RttUpdate) (x : ℕ) (s : OneWaySample) : RttCnx :=
  if s.isPathXValid then
    c.setPath x fun p => { p with ret := p.ret.update (u.rttEstimate - s.sample) }
  else c

/-- The path that a measure counts for, the measure, which is completed with an average where the
two directions are those of different paths, and the one way delay. -/
def RttCnx.measurement (c : RttCnx) (u : RttUpdate) (old x : ℕ) (s : OneWaySample) :
    Option (ℕ × ℕ × ℕ) :=
  if x = old then
    if s.isOldPathValid ∨ s.isPathXValid then
      some (old, u64OfInt u.rttEstimate, u64OfInt s.sample)
    else none
  else if s.isOldPathValid then
    some (old, u64 (u64OfInt s.sample + (c.paths old).ret.avg), u64OfInt s.sample)
  else if s.isPathXValid then
    some (x, u64 (u64OfInt (u.rttEstimate - s.sample) + (c.paths x).delay.avg),
      u64OfInt (u.rttEstimate - s.sample))
  else none

/-- A sample that is no outlier. -/
def RttCnx.takeSample (c : RttCnx) (u : RttUpdate) (old x : ℕ) (s : OneWaySample) :
    RttCnx × List RttNotification :=
  let c := (c.updateDelay old s).updateReturn u x s
  let ackFrequency := if old = u.path0 then [.ackFrequency] else []
  match c.measurement u old x s with
  | none => (c, ackFrequency)
  | some (i, rttEstimate, oneWayDelay) =>
    (c.setPath i fun p => p.updateRttFromOneWay c.maxAckDelay rttEstimate,
      .rttMeasurement i rttEstimate (if c.isTimeStampEnabled then oneWayDelay else 0) ::
        ackFrequency)

/-- The parameters of an earlier connection are compared with the first measure on the default path.
-/
def RttCnx.seeded (c : RttCnx) (x : ℕ) : List RttNotification :=
  let smoothedRtt := (c.paths x).smoothedRtt
  if c.seedCwin ≠ 0 ∧ c.seedRttMin ≤ smoothedRtt ∧ smoothedRtt - c.seedRttMin < c.seedRttMin / 4 ∧
      (c.paths x).ipAddr = c.seedIpAddr then [.seedCwin c.seedCwin]
  else []

/-- `picoquic_update_path_rtt`. -/
def updatePathRtt (c : RttCnx) (u : RttUpdate) : RttCnx × List RttNotification :=
  match u.oldPath, u.pathX with
  | some old, some x =>
    if 0 < u.rttEstimate then
      let isFirst := old = u.path0 ∧ old = x ∧ (c.paths x).smoothedRtt = initialRtt
      let c := c.setPhaseDelay u
      let s := c.oneWaySample u old x
      let (c, told) :=
        if 0 < s.sample ∧ s.sample < u.rttEstimate then c.takeSample u old x s
        else (c.setPath old fun p => { p with nbDelayOutliers := u64 (p.nbDelayOutliers + 1) }, [])
      (c, if isFirst then told ++ c.seeded x else told)
    else (c, [])
  | _, _ => (c, [])

/-! ### Runs -/

/-- The sample that a path is given. -/
def RttNotification.sampleOf (i : ℕ) : RttNotification → Option ℕ
  | .rttMeasurement path rttEstimate _ => if path = i then some rttEstimate else none
  | _ => none

/-- The samples of a path among what is told. -/
def samplesOf (i : ℕ) (told : List RttNotification) : List ℕ :=
  told.filterMap (RttNotification.sampleOf i)

/-- A connection with all samples that were taken so far on each path. -/
structure RttHistory where
  cnx : RttCnx
  samples : ℕ → List ℕ

/-- A call of `picoquic_update_path_rtt`. -/
def RttHistory.step (s : RttHistory) (u : RttUpdate) : RttHistory where
  cnx := (updatePathRtt s.cnx u).1
  samples i := samplesOf i (updatePathRtt s.cnx u).2 ++ s.samples i

/-- A connection whose paths have just been created. -/
def RttHistory.init (startTime : ℕ) (clientMode isTimeStampEnabled : Bool) (maxAckDelay seedCwin
    seedRttMin : ℕ) (seedIpAddr : List UInt8) (ipAddr : ℕ → List UInt8) : RttHistory where
  cnx :=
    { paths := fun i => .create (ipAddr i)
      startTime := startTime
      phaseDelay := unknownPhase
      clientMode := clientMode
      isTimeStampEnabled := isTimeStampEnabled
      maxAckDelay := maxAckDelay
      seedCwin := seedCwin
      seedRttMin := seedRttMin
      seedIpAddr := seedIpAddr }
  samples _ := []

/-! ### One direction -/

private theorem int64_sub64 {a b : ℕ} (ha : a < 2 ^ 63) (hb : b < 2 ^ 63) :
    int64 (sub64 a b) = (a : ℤ) - b := by
  rw [int64, sub64, u64, u64, u64]
  split_ifs <;> omega

private theorem u64OfInt_natCast {n : ℕ} (h : n < 2 ^ 64) : u64OfInt (n : ℤ) = n := by
  have hn := u64OfInt_of_mem (x := n) (by omega) (by omega)
  omega

private theorem tdiv_of_nonpos {x : ℤ} (hx : x ≤ 0) {n : ℤ} (hn : 0 < n) :
    x ≤ x.tdiv n ∧ x.tdiv n ≤ 0 := by
  obtain ⟨k, rfl⟩ : ∃ k : ℕ, x = -(k : ℤ) := ⟨x.natAbs, by omega⟩
  rw [Int.neg_tdiv]
  have hle : (k : ℤ).tdiv n ≤ k := Int.tdiv_le_self _ (by omega)
  have hnonneg : 0 ≤ (k : ℤ).tdiv n := Int.tdiv_nonneg (by omega) hn.le
  omega

/-- A number that is moved by a part of its distance to another one. -/
theorem moved_mem {a s : ℕ} (ha : a < 2 ^ 63) (hs : s < 2 ^ 63) :
    min a s ≤ u64 (a + u64OfInt (((s : ℤ) - a).tdiv 8)) ∧
      u64 (a + u64OfInt (((s : ℤ) - a).tdiv 8)) ≤ max a s := by
  rcases le_total a s with hle | hle
  · have hnonneg : 0 ≤ ((s : ℤ) - a).tdiv 8 := Int.tdiv_nonneg (by omega) (by decide)
    have hself : ((s : ℤ) - a).tdiv 8 ≤ (s : ℤ) - a := Int.tdiv_le_self _ (by omega)
    have hcast := u64OfInt_of_mem hnonneg (by omega)
    rw [u64_of_lt (by omega)]
    omega
  · obtain ⟨hself, hnonpos⟩ := tdiv_of_nonpos (x := (s : ℤ) - a) (by omega) (n := 8) (by decide)
    rw [u64OfInt, u64]
    omega

/-- The minimum of a direction is not above its average. -/
structure DelayEstimate.Bounded (d : DelayEstimate) : Prop where
  min_le : d.min ≤ d.avg
  avg_lt : d.avg < 2 ^ 63

/-- A sample updates a direction. The minimum is not above the sample, and does not grow once there
is a variation. -/
theorem DelayEstimate.update_bounded {d : DelayEstimate} (h : d.Bounded) {s : ℕ}
    (hs : s < 2 ^ 63) :
    (d.update s).Bounded ∧ (d.update s).min ≤ s ∧ (d.var ≠ 0 → (d.update s).min ≤ d.min) := by
  have hsample : u64OfInt (s : ℤ) = s := u64OfInt_natCast (by omega)
  rw [DelayEstimate.update]
  by_cases hvar : d.var = 0
  · rw [if_pos hvar]
    refine ⟨⟨le_rfl, ?_⟩, ?_, fun hne => absurd hvar hne⟩ <;> rw [hsample]
    exact hs
  · have hmoved := moved_mem h.avg_lt hs
    rw [if_neg hvar, hsample]
    dsimp only
    rw [int64_sub64 hs h.avg_lt]
    have hmin := h.min_le
    have havg := h.avg_lt
    refine ⟨⟨?_, ?_⟩, ?_, fun _ => ?_⟩
    · dsimp only
      split_ifs <;> omega
    · dsimp only
      omega
    · split_ifs <;> omega
    · split_ifs <;> omega

/-! ### One path -/

/-- The delays of a path, and the samples that were taken on it. -/
structure PathLaw (p : RttPath) (samples : List ℕ) : Prop where
  delay : p.delay.Bounded
  ret : p.ret.Bounded
  rttMin_le : p.rttMin ≤ p.smoothedRtt
  sampled : samples ≠ [] → p.rttSample ≠ 0 ∧ p.delay.min + p.ret.min ≤ p.rttMin
  samples : ∀ x ∈ samples, p.rttMin ≤ x

namespace PathLaw

variable {p : RttPath} {samples : List ℕ} {s : ℕ}

private theorem create (ipAddr : List UInt8) : PathLaw (.create ipAddr) [] where
  delay := ⟨le_rfl, Nat.two_pow_pos 63⟩
  ret := ⟨le_rfl, Nat.two_pow_pos 63⟩
  rttMin_le := Nat.zero_le initialRtt
  sampled h := absurd rfl h
  samples _ hx := absurd hx List.not_mem_nil

section

variable (h : PathLaw p samples)

include h

private theorem updateDelay (hs : s < 2 ^ 63)
    (hvar : p.delay.var ≠ 0 ∨ p.rttSample = 0) (sample : ℕ) :
    PathLaw { p with delay := p.delay.update s, oneWayDelaySample := sample } samples := by
  obtain ⟨hbounded, -, hmin⟩ := DelayEstimate.update_bounded h.delay hs
  refine ⟨hbounded, h.ret, h.rttMin_le, fun hne => ?_, h.samples⟩
  obtain ⟨hsample, hle⟩ := h.sampled hne
  exact ⟨hsample, (Nat.add_le_add_right (hmin (hvar.resolve_right hsample)) _).trans hle⟩

private theorem updateRet (hs : s < 2 ^ 63)
    (hvar : p.ret.var ≠ 0 ∨ p.rttSample = 0) :
    PathLaw { p with ret := p.ret.update s } samples := by
  obtain ⟨hbounded, -, hmin⟩ := DelayEstimate.update_bounded h.ret hs
  refine ⟨h.delay, hbounded, h.rttMin_le, fun hne => ?_, h.samples⟩
  obtain ⟨hsample, hle⟩ := h.sampled hne
  exact ⟨hsample, (Nat.add_le_add_left (hmin (hvar.resolve_right hsample)) _).trans hle⟩

private theorem outlier {n : ℕ} : PathLaw { p with nbDelayOutliers := n } samples :=
  ⟨h.delay, h.ret, h.rttMin_le, h.sampled, h.samples⟩

/-- A sample that is not below the two minima. -/
theorem record (maxAckDelay : ℕ) (hpos : s ≠ 0)
    (hs : p.delay.min + p.ret.min ≤ s) :
    PathLaw (p.updateRttFromOneWay maxAckDelay s) (s :: samples) := by
  have hdelay := h.delay.avg_lt
  have hret := h.ret.avg_lt
  have hmin : p.delay.min + p.ret.min ≤ p.delay.avg + p.ret.avg :=
    Nat.add_le_add h.delay.min_le h.ret.min_le
  have hsmoothed : u64 (p.delay.avg + p.ret.avg) = p.delay.avg + p.ret.avg := u64_of_lt (by omega)
  have hrttMin : u64 (p.delay.min + p.ret.min) = p.delay.min + p.ret.min := u64_of_lt (by omega)
  refine ⟨h.delay, h.ret, ?_, fun _ => ⟨hpos, ?_⟩, fun x hx => ?_⟩
  · exact (hrttMin.trans_le hmin).trans_eq hsmoothed.symm
  · exact hrttMin.ge
  · refine hrttMin.trans_le ?_
    rcases List.mem_cons.mp hx with rfl | hx
    · exact hs
    · exact (h.sampled (List.ne_nil_of_mem hx)).2.trans (h.samples x hx)

end

end PathLaw

/-! ### One call -/

/-- A direction has a variation, or no sample was taken on the path. A variation of `0` stands for a
direction without samples. -/
def DelayEstimate.Started (d : DelayEstimate) (p : RttPath) : Prop := d.var ≠ 0 ∨ p.rttSample = 0

/-- A sample does not start a direction of a path that has samples. -/
structure OneWaySample.Regular (s : OneWaySample) (c : RttCnx) (old x : ℕ) : Prop where
  oldPath : s.isOldPathValid = true → (c.paths old).delay.Started (c.paths old)
  pathX : s.isPathXValid = true → (c.paths x).ret.Started (c.paths x)

/-- Where the acknowledgement arrives on another path, the share of the direction that is measured
and the average of the other one, which is of other packets, are together not more than the time
since the packet was sent. -/
def OneWaySample.InTime (s : OneWaySample) (c : RttCnx) (u : RttUpdate) (old x : ℕ) : Prop :=
  x ≠ old →
    (s.isOldPathValid = true →
      s.sample + (c.paths old).ret.avg ≤ (u.currentTime : ℤ) - u.sendTime) ∧
    (s.isOldPathValid = false → s.isPathXValid = true →
      u.rttEstimate - s.sample + (c.paths x).delay.avg ≤ (u.currentTime : ℤ) - u.sendTime)

/-- Where the code takes a measure, the peer reports a delay that is not longer than the time since
the packet was sent; and a sample that is no outlier does not start a direction of a path that has
samples, and is in time. -/
def RttUpdate.Guarded (c : RttCnx) (u : RttUpdate) : Prop :=
  ∀ old x, u.oldPath = some old → u.pathX = some x → 0 < u.rttEstimate →
    u.sendTime + u.ackDelayField * 2 ^ u.ackDelayExponent ≤ u.currentTime ∧
      (0 < ((c.setPhaseDelay u).oneWaySample u old x).sample →
        ((c.setPhaseDelay u).oneWaySample u old x).sample < u.rttEstimate →
        ((c.setPhaseDelay u).oneWaySample u old x).Regular c old x ∧
          ((c.setPhaseDelay u).oneWaySample u old x).InTime c u old x)

/-- A delay that is not longer than that is subtracted as it is. -/
theorem rttEstimate_eq {u : RttUpdate}
    (h : u.sendTime + u.ackDelayField * 2 ^ u.ackDelayExponent ≤ u.currentTime)
    (hpos : 0 < u.rttEstimate) :
    u.rttEstimate =
      (u.currentTime : ℤ) - u.sendTime - (u.ackDelayField * 2 ^ u.ackDelayExponent : ℕ) := by
  have hlt := u.currentTime_lt
  have hdelay : u.ackDelay = u.ackDelayField * 2 ^ u.ackDelayExponent := by
    rw [RttUpdate.ackDelay, Nat.shiftLeft_eq, u64_of_lt (by omega)]
  rw [RttUpdate.rttEstimate, hdelay, sub64_of_le (by omega) hlt, sub64_of_le (by omega) (by omega),
    int64, u64_of_lt (by omega)] at hpos ⊢
  split_ifs at hpos ⊢ <;> omega

private theorem rttEstimate_lt (u : RttUpdate) : u.rttEstimate < 2 ^ 63 := int64_lt _

section Sample

variable {c : RttCnx} {u : RttUpdate} {old x : ℕ}

@[simp]
private theorem setPhaseDelay_paths : (c.setPhaseDelay u).paths = c.paths := by
  rw [RttCnx.setPhaseDelay]
  split_ifs <;> rfl

private theorem setPath_paths (i j : ℕ) (f : RttPath → RttPath) :
    (c.setPath i f).paths j = if j = i then f (c.paths i) else c.paths j :=
  Function.update_apply _ _ _ _

/-- A change that is made under a condition. -/
theorem ite_setPath_paths (i j : ℕ) (p : Bool) (f : RttPath → RttPath) :
    (if p then c.setPath i f else c).paths j =
      if j = i ∧ p = true then f (c.paths j) else c.paths j := by
  by_cases hp : p = true
  · rw [if_pos hp, setPath_paths]
    by_cases hj : j = i
    · rw [if_pos hj, if_pos ⟨hj, hp⟩, hj]
    · rw [if_neg hj, if_neg fun h => hj h.1]
  · rw [if_neg hp, if_neg fun h => hp h.2]

private theorem forall_setPath {P : ℕ → RttPath → Prop} (h : ∀ j, P j (c.paths j)) (i : ℕ)
    {f : RttPath → RttPath} (hf : P i (f (c.paths i))) (j : ℕ) : P j ((c.setPath i f).paths j) := by
  rw [setPath_paths]
  split_ifs with hj
  · rw [hj]
    exact hf
  · exact h j

private theorem oneWaySample_of_pathX (hold : (c.oneWaySample u old x).isOldPathValid = false)
    (hx : (c.oneWaySample u old x).isPathXValid = true) :
    (c.oneWaySample u old x).sample = int64 (c.paths old).delay.avg := by
  rw [RttCnx.oneWaySample] at hold hx ⊢
  split_ifs at hold hx ⊢
  rfl

private theorem oneWaySample_of_oldPath (hold : (c.oneWaySample u old x).isOldPathValid = true)
    (hx : (c.oneWaySample u old x).isPathXValid = false) :
    (c.oneWaySample u old x).sample =
      int64 (sub64 (u64OfInt u.rttEstimate) (c.paths x).ret.avg) := by
  rw [RttCnx.oneWaySample] at hold hx ⊢
  split_ifs at hold hx ⊢
  rfl

variable {s : OneWaySample} {i : ℕ}

private theorem updateDelay_paths : (c.updateDelay old s).paths i =
    if i = old ∧ s.isOldPathValid = true then
      { c.paths i with
        delay := (c.paths i).delay.update s.sample, oneWayDelaySample := u64OfInt s.sample }
    else c.paths i :=
  ite_setPath_paths old i s.isOldPathValid _

private theorem updateReturn_paths : (c.updateReturn u x s).paths i =
    if i = x ∧ s.isPathXValid = true then
      { c.paths i with ret := (c.paths i).ret.update (u.rttEstimate - s.sample) }
    else c.paths i :=
  ite_setPath_paths x i s.isPathXValid _

@[simp]
private theorem updateDelay_ret : ((c.updateDelay old s).paths i).ret = (c.paths i).ret := by
  rw [updateDelay_paths]
  split_ifs <;> rfl

@[simp]
private theorem updateDelay_rttSample :
    ((c.updateDelay old s).paths i).rttSample = (c.paths i).rttSample := by
  rw [updateDelay_paths]
  split_ifs <;> rfl

@[simp]
private theorem updateReturn_delay :
    ((c.updateReturn u x s).paths i).delay = (c.paths i).delay := by
  rw [updateReturn_paths]
  split_ifs <;> rfl

variable {samples : ℕ → List ℕ} {k e : ℕ}

/-- A regular sample keeps what holds of each path. -/
theorem pathLaw_updateDelays (h : ∀ i, PathLaw (c.paths i) (samples i)) (hs : s.Regular c old x)
    (he : u.rttEstimate = e) (hk : s.sample = k) (hke : k < e) (helt : e < 2 ^ 63) (i : ℕ) :
    PathLaw (((c.updateDelay old s).updateReturn u x s).paths i) (samples i) := by
  have hfirst (i : ℕ) : PathLaw ((c.updateDelay old s).paths i) (samples i) := by
    rw [updateDelay_paths]
    split_ifs with hi
    · rw [hk]
      exact (h i).updateDelay (by omega) (hi.1 ▸ hs.oldPath hi.2) _
    · exact h i
  have hsub : u.rttEstimate - s.sample = (e - k : ℕ) := by omega
  rw [updateReturn_paths, hsub]
  split_ifs with hi
  · refine (hfirst i).updateRet (by omega) ?_
    rw [updateDelay_ret, updateDelay_rttSample, hi.1]
    exact hs.pathX hi.2
  · exact hfirst i

private theorem updateDelay_min_le (h : (c.paths old).delay.Bounded)
    (hvalid : s.isOldPathValid = true)
    (hk : s.sample = k) (hlt : k < 2 ^ 63) : ((c.updateDelay old s).paths old).delay.min ≤ k := by
  rw [updateDelay_paths, if_pos ⟨rfl, hvalid⟩, hk]
  exact (DelayEstimate.update_bounded h hlt).2.1

private theorem updateReturn_min_le (h : (c.paths x).ret.Bounded) (hvalid : s.isPathXValid = true)
    (hk : u.rttEstimate - s.sample = k) (hlt : k < 2 ^ 63) :
    ((c.updateReturn u x s).paths x).ret.min ≤ k := by
  rw [updateReturn_paths, if_pos ⟨rfl, hvalid⟩, hk]
  exact (DelayEstimate.update_bounded h hlt).2.1

private theorem updateReturn_ret_of_not (h : ¬ (i = x ∧ s.isPathXValid = true)) :
    ((c.updateReturn u x s).paths i).ret = (c.paths i).ret := by rw [updateReturn_paths, if_neg h]

private theorem updateDelay_delay_of_not (h : ¬ (i = old ∧ s.isOldPathValid = true)) :
    ((c.updateDelay old s).paths i).delay = (c.paths i).delay := by
  rw [updateDelay_paths, if_neg h]

/-- What a measure is made of: the measure itself where both directions are those of one path, and a
share of it with the average of the other direction where they are not, in whole numbers. It is not
more than the time since the packet was sent. -/
structure MadeOf (c : RttCnx) (u : RttUpdate) (i m : ℕ) : Prop where
  parts : if u.oldPath = u.pathX then (m : ℤ) = u.rttEstimate
    else ∃ share average : ℕ, m = share + average ∧ (share : ℤ) < u.rttEstimate ∧
      (average = (c.paths i).ret.avg ∨ average = (c.paths i).delay.avg)
  le_elapsed : (m : ℤ) ≤ (u.currentTime : ℤ) - u.sendTime

/-- The first direction of the path of the packet has its minimum below the share of the measure. -/
theorem delay_min_le_share (h : (c.paths old).delay.Bounded) (hs : s = c.oneWaySample u old x)
    (hk : s.sample = k) (hlt : k < 2 ^ 63)
    (hvalid : s.isOldPathValid = true ∨ s.isPathXValid = true) :
    ((c.updateDelay old s).paths old).delay.min ≤ k := by
  by_cases hold : s.isOldPathValid = true
  · exact updateDelay_min_le h hold hk hlt
  · -- the share is the average of the direction, which is not updated
    have havg := h.avg_lt
    have hsample : s.sample = int64 (c.paths old).delay.avg := by
      subst hs
      exact oneWaySample_of_pathX (by simpa using hold) (hvalid.resolve_left hold)
    rw [hk, int64, u64_of_lt (by omega), if_pos havg] at hsample
    rw [updateDelay_delay_of_not fun h => hold h.2]
    exact h.min_le.trans (by omega)

/-- The second direction of the path of the acknowledgement has its minimum below what is left. -/
theorem ret_min_le_share (h : (c.paths x).ret.Bounded) (he : u.rttEstimate = e) (helt : e < 2 ^ 63)
    (hs : s = c.oneWaySample u old x) (hk : s.sample = k) (hke : k < e)
    (hvalid : s.isOldPathValid = true ∨ s.isPathXValid = true) :
    (((c.updateDelay old s).updateReturn u x s).paths x).ret.min ≤ e - k := by
  by_cases hx : s.isPathXValid = true
  · refine updateReturn_min_le ?_ hx (by omega) (by omega)
    rw [updateDelay_ret]
    exact h
  · -- what is left is the average of the direction
    have hsample : s.sample = int64 (sub64 (u64OfInt u.rttEstimate) (c.paths x).ret.avg) := by
      subst hs
      exact oneWaySample_of_oldPath (hvalid.resolve_right hx) (by simpa using hx)
    rw [hk, he, u64OfInt_natCast (by omega), int64_sub64 helt h.avg_lt] at hsample
    rw [updateReturn_ret_of_not fun h => hx h.2, updateDelay_ret]
    exact h.min_le.trans (by omega)

/-- The measure that is noted on a path is not below the two minima of the path. -/
theorem measurement_spec (hu : u.oldPath = some old) (hux : u.pathX = some x)
    (h : ∀ i, (c.paths i).delay.Bounded ∧ (c.paths i).ret.Bounded)
    (he : u.rttEstimate = e) (helt : e < 2 ^ 63) (hs : s = c.oneWaySample u old x)
    (hk : s.sample = k) (hpos : 0 < k) (hke : k < e)
    (hle : (e : ℤ) ≤ (u.currentTime : ℤ) - u.sendTime) (htime : s.InTime c u old x) {m o : ℕ}
    (hm : ((c.updateDelay old s).updateReturn u x s).measurement u old x s = some (i, m, o)) :
    m ≠ 0 ∧ (((c.updateDelay old s).updateReturn u x s).paths i).delay.min +
        (((c.updateDelay old s).updateReturn u x s).paths i).ret.min ≤ m ∧
      MadeOf c u i m := by
  have hleft : u64OfInt (u.rttEstimate - s.sample) = e - k := by
    rw [he, hk, show (e : ℤ) - k = (e - k : ℕ) by omega, u64OfInt_natCast (by omega)]
  rw [RttCnx.measurement, hleft, he, hk, u64OfInt_natCast (by omega), u64OfInt_natCast (by omega)]
    at hm
  by_cases hx : x = old
  · rw [if_pos hx] at hm
    split_ifs at hm with hvalid
    simp only [Option.some.injEq, Prod.mk.injEq] at hm
    obtain ⟨rfl, rfl, -⟩ := hm
    subst hx
    have hdelay := delay_min_le_share (h x).1 hs hk (by omega) hvalid
    have hret := ret_min_le_share (h x).2 he helt hs hk hke hvalid
    rw [updateReturn_delay]
    refine ⟨by omega, by omega, ?_, hle⟩
    rw [hu, hux, if_pos rfl]
    exact he.symm
  · have hne : ¬ u.oldPath = u.pathX := fun h =>
      hx (Option.some.inj (hux.symm.trans (h.symm.trans hu)))
    obtain ⟨hthere, hback⟩ := htime hx
    rw [if_neg hx] at hm
    split_ifs at hm with hold hxvalid <;> simp only [Option.some.injEq, Prod.mk.injEq] at hm
    · -- the average of the way back on the path of the packet
      obtain ⟨rfl, hm, -⟩ := hm
      have hdelay := delay_min_le_share (h old).1 hs hk (by omega) (.inl hold)
      have havg := (h old).2.avg_lt
      have hle := (h old).2.min_le
      rw [updateReturn_ret_of_not fun h => hx h.1.symm, updateDelay_ret, u64_of_lt (by omega)] at hm
      rw [updateReturn_ret_of_not fun h => hx h.1.symm, updateDelay_ret, updateReturn_delay]
      refine ⟨by omega, by omega, ?_, by have := hthere hold; omega⟩
      rw [if_neg hne]
      exact ⟨k, _, hm.symm, by omega, .inl rfl⟩
    · -- the average of the way there on the path of the acknowledgement
      obtain ⟨rfl, hm, -⟩ := hm
      have hret := ret_min_le_share (h x).2 he helt hs hk hke (.inr hxvalid)
      have havg := (h x).1.avg_lt
      have hle := (h x).1.min_le
      rw [updateReturn_delay, updateDelay_delay_of_not fun h => hx h.1, u64_of_lt (by omega)] at hm
      rw [updateReturn_delay, updateDelay_delay_of_not fun h => hx h.1]
      refine ⟨by omega, by omega, ?_, by have := hback (by simpa using hold) hxvalid; omega⟩
      rw [if_neg hne]
      exact ⟨e - k, _, hm.symm, by omega, .inr rfl⟩

@[simp]
private theorem samplesOf_nil : samplesOf i [] = [] := rfl

@[simp]
private theorem samplesOf_ackFrequency (p : Prop) [Decidable p] :
    samplesOf i (if p then [.ackFrequency] else []) = [] := by
  split_ifs <;> rfl

@[simp]
private theorem samplesOf_seeded : samplesOf i (c.seeded x) = [] := by
  rw [RttCnx.seeded]
  split_ifs <;> rfl

@[simp]
private theorem samplesOf_append (told told' : List RttNotification) :
    samplesOf i (told ++ told') = samplesOf i told ++ samplesOf i told' := List.filterMap_append

private theorem samplesOf_rttMeasurement (j m o : ℕ) (told : List RttNotification) :
    samplesOf i (.rttMeasurement j m o :: told) =
      if j = i then m :: samplesOf i told else samplesOf i told := by
  have hsample : RttNotification.sampleOf i (.rttMeasurement j m o) =
      if j = i then some m else none :=
    rfl
  rw [samplesOf, List.filterMap_cons, hsample]
  split_ifs <;> rfl

/-- What a sample that is taken leaves. -/
theorem takeSample_spec (h : ∀ i, PathLaw (c.paths i) (samples i)) (hu : u.oldPath = some old)
    (hux : u.pathX = some x) (hle : u.rttEstimate ≤ (u.currentTime : ℤ) - u.sendTime)
    (hregular : (c.oneWaySample u old x).Regular c old x)
    (htime : (c.oneWaySample u old x).InTime c u old x)
    (hpos : 0 < (c.oneWaySample u old x).sample)
    (hlt : (c.oneWaySample u old x).sample < u.rttEstimate) :
    (∀ i, PathLaw ((c.takeSample u old x (c.oneWaySample u old x)).1.paths i)
      (samplesOf i (c.takeSample u old x (c.oneWaySample u old x)).2 ++ samples i)) ∧
    ∀ i, ∀ m ∈ samplesOf i (c.takeSample u old x (c.oneWaySample u old x)).2, MadeOf c u i m := by
  have helt := rttEstimate_lt u
  obtain ⟨e, he⟩ := Int.eq_ofNat_of_zero_le (hpos.le.trans hlt.le)
  obtain ⟨k, hk⟩ := Int.eq_ofNat_of_zero_le hpos.le
  generalize hs : c.oneWaySample u old x = s at hregular htime hpos hlt hk ⊢
  have hlaw := pathLaw_updateDelays h hregular he hk (by omega) (by omega)
  rw [RttCnx.takeSample]
  cases hm : ((c.updateDelay old s).updateReturn u x s).measurement u old x s with
  | none =>
    dsimp only
    refine ⟨fun i => ?_, fun i m hmem => ?_⟩
    · rw [samplesOf_ackFrequency, List.nil_append]
      exact hlaw i
    · rw [samplesOf_ackFrequency] at hmem
      exact absurd hmem List.not_mem_nil
  | some r =>
    obtain ⟨j, m, o⟩ := r
    obtain ⟨hne, hle, hmade⟩ := measurement_spec hu hux (fun i => ⟨(h i).delay, (h i).ret⟩) he
      (by omega) hs.symm hk (by omega) (by omega) (by omega) htime hm
    dsimp only
    refine ⟨fun i => ?_, fun i m' hmem => ?_⟩
    · rw [samplesOf_rttMeasurement, samplesOf_ackFrequency, setPath_paths]
      by_cases hj : j = i
      · subst hj
        rw [if_pos rfl, if_pos rfl]
        exact (hlaw j).record _ hne hle
      · rw [if_neg (Ne.symm hj), if_neg hj]
        exact hlaw i
    · rw [samplesOf_rttMeasurement, samplesOf_ackFrequency] at hmem
      split_ifs at hmem with hj
      · rw [← hj, List.mem_singleton.mp hmem]
        exact hmade
      · exact absurd hmem List.not_mem_nil

end Sample

/-- A call is physical: the measure that it takes is the time since the packet was sent less the
delay that the peer reports, in whole numbers, and the samples it notes are made of that measure and
are not more than the time since the packet was sent. -/
structure RttUpdate.Physical (c : RttCnx) (u : RttUpdate) : Prop where
  estimate : u.oldPath.isSome → u.pathX.isSome → 0 < u.rttEstimate → u.rttEstimate =
    (u.currentTime : ℤ) - u.sendTime - (u.ackDelayField * 2 ^ u.ackDelayExponent : ℕ)
  samples : ∀ i, ∀ m ∈ samplesOf i (updatePathRtt c u).2, MadeOf c u i m

private theorem updatePathRtt_of_not {c : RttCnx} {u : RttUpdate}
    (h : ¬ ∃ old x, u.oldPath = some old ∧ u.pathX = some x ∧ 0 < u.rttEstimate) :
    updatePathRtt c u = (c, []) := by
  rw [updatePathRtt]
  split
  next old x hold hx => exact if_neg fun hpos => h ⟨old, x, hold, hx, hpos⟩
  next => rfl

/-- With one, it is split into the two directions. -/
theorem updatePathRtt_of_pos {c : RttCnx} {u : RttUpdate} {old x : ℕ} (hold : u.oldPath = some old)
    (hx : u.pathX = some x) (hpos : 0 < u.rttEstimate) {samples : ℕ → List ℕ}
    (h : ∀ i, PathLaw (c.paths i) (samples i)) (hu : u.Guarded c) :
    (∀ i, PathLaw ((updatePathRtt c u).1.paths i)
      (samplesOf i (updatePathRtt c u).2 ++ samples i)) ∧
    ∀ i, ∀ m ∈ samplesOf i (updatePathRtt c u).2, MadeOf c u i m := by
  obtain ⟨hdelay, hregular⟩ := hu old x hold hx hpos
  have hestimate := rttEstimate_eq hdelay hpos
  rw [updatePathRtt, hold, hx]
  dsimp only
  rw [if_pos hpos]
  have hphase : ∀ i, PathLaw ((c.setPhaseDelay u).paths i) (samples i) := by
    rw [setPhaseDelay_paths]
    exact h
  have hmade : ∀ i m, MadeOf (c.setPhaseDelay u) u i m → MadeOf c u i m := by
    intro i m hm
    refine ⟨?_, hm.le_elapsed⟩
    have hparts := hm.parts
    rw [setPhaseDelay_paths] at hparts
    exact hparts
  have htold (p : Prop) [Decidable p] (told : List RttNotification) (c' : RttCnx) (i : ℕ) :
      samplesOf i (if p then told ++ c'.seeded x else told) = samplesOf i told := by
    split_ifs
    · rw [samplesOf_append, samplesOf_seeded, List.append_nil]
    · rfl
  simp only [htold]
  split_ifs with hsample
  · obtain ⟨⟨holdPath, hpathX⟩, htime⟩ := hregular hsample.1 hsample.2
    obtain ⟨hlaw, hsamples⟩ := takeSample_spec hphase hold hx (by omega)
      ⟨by rw [setPhaseDelay_paths]; exact holdPath, by rw [setPhaseDelay_paths]; exact hpathX⟩
      (by rw [OneWaySample.InTime, setPhaseDelay_paths]; exact htime) hsample.1 hsample.2
    exact ⟨hlaw, fun i m hm => hmade i m (hsamples i m hm)⟩
  · refine ⟨?_, fun i m hm => absurd hm List.not_mem_nil⟩
    -- an outlier is counted
    intro i
    rw [samplesOf_nil, List.nil_append]
    dsimp only
    refine forall_setPath (P := fun i p => PathLaw p (samples i)) hphase old ?_ i
    exact (hphase old).outlier

/-- **One call.** It keeps what holds of each path, and is physical. -/
theorem RttHistory.step_law {s : RttHistory} {u : RttUpdate}
    (h : ∀ i, PathLaw (s.cnx.paths i) (s.samples i)) (hu : u.Guarded s.cnx) :
    (∀ i, PathLaw ((s.step u).cnx.paths i) ((s.step u).samples i)) ∧ u.Physical s.cnx := by
  by_cases htaken : ∃ old x, u.oldPath = some old ∧ u.pathX = some x ∧ 0 < u.rttEstimate
  · obtain ⟨old, x, hold, hx, hpos⟩ := htaken
    obtain ⟨hlaw, hsamples⟩ := updatePathRtt_of_pos hold hx hpos h hu
    exact ⟨hlaw, fun _ _ _ => rttEstimate_eq (hu old x hold hx hpos).1 hpos, hsamples⟩
  · refine ⟨fun i => ?_, fun hold hx hpos => ?_, fun i m hm => ?_⟩
    · rw [RttHistory.step, updatePathRtt_of_not htaken]
      exact h i
    · obtain ⟨old, hold⟩ := Option.isSome_iff_exists.mp hold
      obtain ⟨x, hx⟩ := Option.isSome_iff_exists.mp hx
      exact absurd ⟨old, x, hold, hx, hpos⟩ htaken
    · rw [updatePathRtt_of_not htaken] at hm
      exact absurd hm List.not_mem_nil

/-! ### Every run -/

/-- The minimum of each path is not above any sample taken on it, nor above its smoothed value. -/
def RttHistory.MinimumLaw (s : RttHistory) : Prop :=
  ∀ i, (s.cnx.paths i).rttMin ≤ (s.cnx.paths i).smoothedRtt ∧
    ∀ m ∈ s.samples i, (s.cnx.paths i).rttMin ≤ m

/-- **Round trip times.** From paths that have just been created, in every run of calls in which the
peer reports no delay longer than the time since the packet was sent, in which no direction of a
path is without variation once a sample was taken on the path, and in which acknowledgements that
cross over to another path are in time, no sample exceeds the time since the packet was sent, and
the minimum of each path stays below all samples and its smoothed value. -/
theorem rtt_samples_physical {startTime : ℕ} {clientMode isTimeStampEnabled : Bool}
    {maxAckDelay seedCwin seedRttMin : ℕ} {seedIpAddr : List UInt8} {ipAddr : ℕ → List UInt8}
    {us : List RttUpdate}
    (h : Along RttHistory.step (fun s u => u.Guarded s.cnx)
      (.init startTime clientMode isTimeStampEnabled maxAckDelay seedCwin seedRttMin seedIpAddr
        ipAddr)
      us) :
    (∀ us', us' <+: us → (run RttHistory.step (.init startTime clientMode isTimeStampEnabled
      maxAckDelay seedCwin seedRttMin seedIpAddr ipAddr) us').MinimumLaw) ∧
    Along RttHistory.step (fun s u => u.Physical s.cnx)
      (.init startTime clientMode isTimeStampEnabled maxAckDelay seedCwin seedRttMin seedIpAddr
        ipAddr)
      us := by
  have hinit : ∀ i, PathLaw ((RttHistory.init startTime clientMode isTimeStampEnabled maxAckDelay
      seedCwin seedRttMin seedIpAddr ipAddr).cnx.paths i) [] := fun i => PathLaw.create (ipAddr i)
  constructor
  · intro us' hus'
    have hlaw := forall_prefix_of_along
      (I := fun s : RttHistory => ∀ i, PathLaw (s.cnx.paths i) (s.samples i))
      (fun _ _ hs hu => (RttHistory.step_law hs hu).1) hinit h us' hus'
    exact fun i => ⟨(hlaw i).rttMin_le, (hlaw i).samples⟩
  · exact along_of_invariant
      (I := fun s : RttHistory => ∀ i, PathLaw (s.cnx.paths i) (s.samples i))
      (fun _ _ hs hu => (RttHistory.step_law hs hu).1)
      (fun _ _ hs hu => (RttHistory.step_law hs hu).2) hinit h

/-- A first acknowledgement after 1000 microseconds, of which the peer reports 160 as a delay. -/
theorem rtt_samples_physical_sample :
    let s := RttHistory.init 0 true false 25000 0 0 [] fun _ => []
    let u : RttUpdate := ⟨some 0, some 0, 0, 1000, 2000, 20, 3, 0, by decide⟩
    (∀ us', us' <+: [u] → (run RttHistory.step s us').MinimumLaw) ∧
      Along RttHistory.step (fun s u => u.Physical s.cnx) s [u] :=
  rtt_samples_physical ⟨fun old x hold hx _ => by
    obtain rfl := Option.some.inj hold
    obtain rfl := Option.some.inj hx
    exact ⟨by decide, fun _ _ => ⟨⟨fun _ => .inr rfl, fun _ => .inr rfl⟩,
      fun hne => absurd rfl hne⟩⟩, trivial⟩

/-- **Beyond the time that has passed.** A reported delay of almost `2 ^ 65` microseconds wraps
around, and 1000 microseconds become a sample of 1008. A first sample of 2 microseconds leaves no
variation, and so the next one, of 1000, becomes the minimum. And a packet of a slow path that is
acknowledged on a fast one after 55 milliseconds gets a sample of 100, with the average of a way
back that its acknowledgement did not take. -/
theorem rtt_sample_beyond_elapsed :
    let s := RttHistory.init 0 true false 25000 0 0 [] fun _ => []
    let wrapped : RttUpdate := ⟨some 0, some 0, 0, 1000, 2000, 2 ^ 62 - 1, 3, 0, by decide⟩
    let short : RttUpdate := ⟨some 0, some 0, 0, 1000, 1002, 0, 3, 0, by decide⟩
    let long : RttUpdate := ⟨some 0, some 0, 0, 2000, 3000, 0, 3, 0, by decide⟩
    let slow : RttUpdate := ⟨some 0, some 0, 0, 1000, 101000, 0, 3, 0, by decide⟩
    let fast : RttUpdate := ⟨some 1, some 1, 0, 200000, 210000, 0, 3, 0, by decide⟩
    let crossed : RttUpdate := ⟨some 0, some 1, 0, 300000, 355000, 0, 3, 0, by decide⟩
    (s.step wrapped).samples 0 = [1008] ∧
      ((s.step short).step long).samples 0 = [1000, 2] ∧
      (((s.step short).step long).cnx.paths 0).rttMin = 1000 ∧
      (((s.step slow).step fast).step crossed).samples 0 = [100000, 100000] := by
  decide

end Picoquic
