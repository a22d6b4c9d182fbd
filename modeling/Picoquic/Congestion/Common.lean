import Picoquic.Basic
import Picoquic.ForMathlib.Binary64

/-!
# What the congestion control algorithms share

The constants, the notifications, and the test that leaves the initial slow start when the
round trip time grows:

* **`CongestionNotification`** — what the transport tells the algorithm;
* **`PathView`** — the fields of a path that an algorithm reads when it is notified;
* **`hystartTest`** — the filter of RTT samples and its verdict;
* **`increasedWindow`** — by how much a window grows, also used for flow control;
* **`toUint64`** — the conversion of a double to `uint64_t`.
-/

namespace Picoquic

open Binary64

/-- The value of a `uint64_t` field. -/
abbrev Uint64 : Type := Fin (2 ^ 64)

/-- `PICOQUIC_CWIN_INITIAL`. -/
def cwinInitial : ℕ := 10 * maxPacketSize

/-- `PICOQUIC_CWIN_MINIMUM`. -/
def cwinMinimum : ℕ := 2 * maxPacketSize

/-- `PICOQUIC_TARGET_RENO_RTT`. -/
def targetRenoRtt : ℕ := 100000

/-- `PICOQUIC_TARGET_SATELLITE_RTT`. -/
def targetSatelliteRtt : ℕ := 610000

/-- `UINT64_MAX`. -/
def uint64Max : ℕ := 2 ^ 64 - 1

/-- `picoquic_congestion_notification_t`. -/
inductive CongestionNotification
  | acknowledgement
  /-- `picoquic_congestion_notification_repeat`. -/
  | repeated
  | timeout
  | spuriousRepeat
  | rttMeasurement
  | bwMeasurement
  | ecnEc
  | cwinBlocked
  | seedCwin
  | reset
  deriving DecidableEq, Repr

/-- The fields of a path that a notification reads. -/
structure PathView where
  /-- Smoothed estimate of the round trip time. -/
  smoothedRtt : Uint64
  /-- Smallest round trip time. -/
  rttMin : Uint64
  /-- Largest packet the path sends. -/
  sendMtu : Uint64
  /-- Largest bandwidth estimate. -/
  maxBandwidthEstimate : Uint64
  /-- Number of the next packet sent on the path: `picoquic_cc_get_sequence_number`. -/
  pathPacketNumber : Uint64
  /-- Highest acknowledged packet of the path: `picoquic_cc_get_ack_number`. -/
  pathPacketAckedNumber : Uint64
  /-- When that packet was sent: `picoquic_cc_get_ack_sent_time`. -/
  pathPacketAckedTimeSent : Uint64
  /-- When the last acknowledged data frame was sent. -/
  lastTimeAckedDataFrameSent : Uint64
  /-- When the sender was last limited by the application. -/
  lastSenderLimitedTime : Uint64

/-- Conversion of a nonnegative double to `uint64_t`. C leaves it undefined from `2 ^ 64` on;
the value there is the wrapped one. -/
def toUint64 (x : ℚ) : ℕ := u64 ⌊x⌋₊

theorem toUint64_lt (x : ℚ) : toUint64 x < 2 ^ 64 := u64_lt _

theorem toUint64_of_lt {x : ℚ} (hx : x < 2 ^ 64) : toUint64 x = ⌊x⌋₊ := by
  rw [toUint64, u64_of_lt]
  exact (Nat.floor_lt' (by norm_num)).mpr (by exact_mod_cast hx)

theorem le_toUint64 {x : ℚ} {n : ℕ} (hx : x < 2 ^ 64) (hn : (n : ℚ) ≤ x) : n ≤ toUint64 x := by
  rw [toUint64_of_lt hx]
  exact Nat.le_floor hn

/-- `picoquic_cc_increased_window`: twice the window, or more for a long round trip time. -/
def increasedWindow (rttMin previousWindow : ℕ) : ℕ :=
  if rttMin ≤ targetRenoRtt then u64 (previousWindow * 2)
  else
    toUint64
      (rnd (rnd (rnd previousWindow / targetRenoRtt) * (min rttMin targetSatelliteRtt : ℕ)))

/-! ### Leaving slow start on a growing round trip time -/

/-- `PICOQUIC_MIN_MAX_RTT_SCOPE`. -/
abbrev minMaxRttScope : ℕ := 7

/-- `picoquic_min_max_rtt_t`, without the drop rate, which this test does not read. -/
structure MinMaxRtt where
  lastRttSampleTime : ℕ
  rttFilteredMin : ℕ
  nbRttExcess : ℕ
  sampleCurrent : ℕ
  isInit : Bool
  sampleMin : ℕ
  sampleMax : ℕ
  samples : ℕ → ℕ

/-- The filter before its first sample. -/
def MinMaxRtt.zero : MinMaxRtt := ⟨0, 0, 0, 0, false, 0, 0, fun _ => 0⟩

/-- `picoquic_filter_rtt_min_max`: stores a sample in the ring and takes the extrema of the
samples stored so far. -/
def filterRttMinMax (rttTrack : MinMaxRtt) (rtt : ℕ) : MinMaxRtt :=
  let x := rttTrack.sampleCurrent
  let samples := Function.update rttTrack.samples x rtt
  let wraps := decide (minMaxRttScope ≤ x + 1)
  let isInit := rttTrack.isInit || wraps
  let xMax := if isInit then minMaxRttScope else x + 1
  let rest := (List.range xMax).tail.map samples
  { rttTrack with
    samples := samples
    sampleCurrent := if wraps then 0 else x + 1
    isInit := isInit
    sampleMin := rest.foldl min (samples 0)
    sampleMax := rest.foldl max (samples 0) }

/-- `picoquic_hystart_test`: with every sample, a millisecond apart at least, counts how often
the smallest recent RTT exceeds the filtered minimum by a quarter. -/
def hystartTest (rttTrack : MinMaxRtt) (rttMeasurement currentTime : ℕ) : MinMaxRtt × Bool :=
  if u64 (rttTrack.lastRttSampleTime + 1000) < currentTime then
    let rttTrack :=
      { filterRttMinMax rttTrack rttMeasurement with lastRttSampleTime := currentTime }
    if rttTrack.isInit then
      let rttTrack :=
        if rttTrack.rttFilteredMin = 0 ∨ rttTrack.sampleMax < rttTrack.rttFilteredMin then
          { rttTrack with rttFilteredMin := rttTrack.sampleMax }
        else rttTrack
      let deltaMax := rttTrack.rttFilteredMin / 4
      if rttTrack.rttFilteredMin < rttTrack.sampleMin then
        if u64 (rttTrack.rttFilteredMin + deltaMax) < rttTrack.sampleMin then
          ({ rttTrack with nbRttExcess := rttTrack.nbRttExcess + 1 },
            decide (minMaxRttScope ≤ rttTrack.nbRttExcess + 1))
        else (rttTrack, false)
      else ({ rttTrack with nbRttExcess := 0 }, false)
    else (rttTrack, false)
  else (rttTrack, false)

end Picoquic
