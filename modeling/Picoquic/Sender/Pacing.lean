import Picoquic.Congestion.Common
import Picoquic.ForMathlib.Runs

/-!
# Pacing

Packets leave a path through a leaky bucket. The bucket holds nanoseconds of transmission time: it
fills as the clock advances, up to a capacity, and each packet takes the time of a full packet out
of it.

* **`updateBucket`** — the refill, at every look at the bucket;
* **`isSendingAuthorized`** — the test before a packet, with the time to try again;
* **`updateAfterSend`** — the withdrawal;
* **`updatePacingRate`**, **`updatePacingData`** — the parameters, from the window and the round
  trip time;
* **`pacing_bound`** — between two changes of the parameters no interval sees more packets than the
  capacity and its own length pay for, and a refused sender is authorized at the time it is told.

The clock is in microseconds and unsigned, the bucket in nanoseconds and signed; both wrap.
-/

namespace Picoquic

open Binary64 Runs

/-- Reduction of an integer to `int64_t`. -/
def wrapInt64 (x : ℤ) : ℤ := x.bmod (2 ^ 64)

theorem wrapInt64_of_mem {x : ℤ} (h : -2 ^ 63 ≤ x) (h' : x < 2 ^ 63) : wrapInt64 x = x := by
  rw [wrapInt64, Int.bmod_eq_of_le] <;> norm_num <;> linarith

theorem wrapInt64_le {x : ℤ} (h : -2 ^ 63 ≤ x) : wrapInt64 x ≤ x := by
  rw [wrapInt64, Int.bmod_def]
  split_ifs with hlt <;> norm_num at * <;> omega

/-- Reduction of an integer to `uint64_t`. -/
def u64OfInt (x : ℤ) : ℕ := (x % 2 ^ 64).toNat

theorem u64OfInt_of_mem {x : ℤ} (h : 0 ≤ x) (h' : x < 2 ^ 64) : (u64OfInt x : ℤ) = x := by
  rw [u64OfInt, Int.emod_eq_of_lt h h', Int.toNat_of_nonneg h]

/-! ### The bucket -/

/-- The pacing variables of a path that decide what is sent. -/
structure Pacing where
  /-- When the bucket was last brought up to date. -/
  evaluationTime : ℕ
  /-- Transmission time that is allowed. -/
  bucketNanosec : ℤ
  /-- Capacity of the bucket. -/
  bucketMax : ℤ
  /-- Transmission time of a full packet. -/
  packetTimeNanosec : ℤ
  deriving DecidableEq, Repr

/-- The variables of a new path, in `picoquic_create_path`. -/
def Pacing.create (startTime : ℕ) : Pacing := ⟨startTime, 16, 16, 1⟩

/-- `picoquic_update_pacing_bucket`. -/
def Pacing.updateBucket (p : Pacing) (currentTime : ℕ) : Pacing :=
  let bucket := max p.bucketNanosec (-p.packetTimeNanosec)
  if p.evaluationTime < currentTime then
    { p with
      bucketNanosec :=
        min (wrapInt64 (bucket + (currentTime - p.evaluationTime : ℕ) * 1000)) p.bucketMax
      evaluationTime := currentTime }
  else { p with bucketNanosec := bucket }

/-- The bucket holds the time of a packet. -/
def Pacing.holdsPacket (p : Pacing) : Bool := decide (p.packetTimeNanosec ≤ p.bucketNanosec)

/-- What the bucket lacks. In packet train mode the wait lasts until ten packets can go, or until
the bucket is full. -/
def Pacing.bucketRequired (p : Pacing) (packetTrainMode : Bool) : ℤ :=
  let target :=
    if packetTrainMode then min p.bucketMax (wrapInt64 (10 * p.packetTimeNanosec))
    else p.packetTimeNanosec
  wrapInt64 (target - p.bucketNanosec)

/-- When a refused sender shall try again. -/
def Pacing.nextPacingTime (p : Pacing) (packetTrainMode : Bool) (currentTime : ℕ) : ℕ :=
  u64OfInt (currentTime + 1 + (p.bucketRequired packetTrainMode).tdiv 1000)

/-- `picoquic_is_sending_authorized_by_pacing`: the new state, the verdict, and `*next_time`. -/
def Pacing.isSendingAuthorized (p : Pacing) (packetTrainMode : Bool)
    (currentTime nextTime : ℕ) : Pacing × Bool × ℕ :=
  let p := p.updateBucket currentTime
  if p.holdsPacket then (p, true, nextTime)
  else
    let nextPacingTime := p.nextPacingTime packetTrainMode currentTime
    (p, false, if nextPacingTime < nextTime then nextPacingTime else nextTime)

/-- `picoquic_update_pacing_after_send`. -/
def Pacing.updateAfterSend (p : Pacing) (currentTime : ℕ) : Pacing :=
  let p := p.updateBucket currentTime
  { p with bucketNanosec := wrapInt64 (p.bucketNanosec - p.packetTimeNanosec) }

/-! ### The parameters -/

/-- What the parameters are computed from. -/
structure PacingInput where
  sendMtu : ℕ
  smoothedRtt : ℕ
  cwin : ℕ
  slowStart : Bool
  /-- Tonopah runs on two paths: `congestion_algorithm_number` and `nb_paths`. -/
  isTonopahOnTwoPaths : Bool
  /-- The round trip time is below 18 years: in nanoseconds, sixteen of them fit `int64_t`. -/
  smoothedRtt_lt : smoothedRtt * 1000 < 2 ^ 59

/-- The bucket never holds more than its capacity. -/
def Pacing.clampBucket (p : Pacing) : Pacing :=
  { p with bucketNanosec := min p.bucketNanosec p.bucketMax }

/-- `picoquic_update_pacing_rate`. A rate of zero makes the quotients infinite, and C leaves their
conversion undefined; the value there is the one of zero. -/
def Pacing.updatePacingRate (p : Pacing) (i : PacingInput) (pacingRate : ℚ) (quantum : ℕ) :
    Pacing :=
  let packetTime := rnd (rnd i.sendMtu / pacingRate)
  let quantumTime := rnd (rnd quantum / pacingRate)
  let computedTime := int64 (toUint64 (rnd (packetTime * 1000000000)))
  let packetTimeNanosec :=
    if computedTime ≤ 0 then 1 else min computedTime (i.smoothedRtt * 1000 : ℕ)
  let computedMax := int64 (toUint64 (rnd (quantumTime * 1000000000)))
  let bucketMax := if computedMax ≤ 0 then wrapInt64 (16 * packetTimeNanosec) else computedMax
  { p with packetTimeNanosec := packetTimeNanosec, bucketMax := bucketMax }.clampBucket

/-- The bytes that may go in one burst. -/
def PacingInput.quantum (i : PacingInput) (pacingRate : ℚ) : ℕ :=
  let quantum := i.cwin / 4
  if quantum < u64 (2 * i.sendMtu) then u64 (2 * i.sendMtu)
  else if i.slowStart ∧ 4 * 15000 < i.smoothedRtt then
    if quantum < 0x8000 then 0x8000
    else max quantum (toUint64 (rnd (rnd (pacingRate * 15000) / 1000000)))
  else min quantum (u64 (16 * i.sendMtu))

/-- `picoquic_update_pacing_data`. -/
def Pacing.updatePacingData (p : Pacing) (i : PacingInput) : Pacing :=
  let rttNanosec := i.smoothedRtt * 1000
  if ¬ i.isTonopahOnTwoPaths ∧ (i.cwin < u64 (i.sendMtu * 8) ∨ rttNanosec ≤ 1000) then
    { p with bucketMax := rttNanosec, packetTimeNanosec := 1 }.clampBucket
  else
    let pacingRate := rnd (rnd (rnd i.cwin / rnd rttNanosec) * 1000000000)
    let quantum := i.quantum pacingRate
    p.updatePacingRate i (if i.slowStart then rnd (pacingRate * (5 / 4)) else pacingRate) quantum

/-! ### What every path keeps -/

/-- The parameters of a path are not negative, and the bucket is within its capacity. -/
structure Pacing.WellFormed (p : Pacing) : Prop where
  packetTime_nonneg : 0 ≤ p.packetTimeNanosec
  packetTime_lt : p.packetTimeNanosec < 2 ^ 63
  bucketMax_nonneg : 0 ≤ p.bucketMax
  bucketMax_lt : p.bucketMax < 2 ^ 63
  bucket_le : p.bucketNanosec ≤ p.bucketMax
  le_bucket : -2 ^ 63 ≤ p.bucketNanosec

theorem le_wrapInt64 (x : ℤ) : -2 ^ 63 ≤ wrapInt64 x := by
  rw [wrapInt64]
  have := Int.le_bmod (x := x) (m := 2 ^ 64) (by norm_num)
  norm_num at this ⊢
  exact this

theorem int64_lt (n : ℕ) : int64 n < 2 ^ 63 := by
  have := u64_lt n
  rw [int64]
  split_ifs <;> push_cast at * <;> omega

@[simp]
theorem packetTimeNanosec_updateBucket (p : Pacing) (t : ℕ) :
    (p.updateBucket t).packetTimeNanosec = p.packetTimeNanosec := by
  rw [Pacing.updateBucket]
  split_ifs <;> rfl

@[simp]
theorem bucketMax_updateBucket (p : Pacing) (t : ℕ) :
    (p.updateBucket t).bucketMax = p.bucketMax := by
  rw [Pacing.updateBucket]
  split_ifs <;> rfl

namespace Pacing.WellFormed

variable {p : Pacing}

theorem create {startTime : ℕ} : (Pacing.create startTime).WellFormed := by
  constructor <;> norm_num [Pacing.create]

theorem updateBucket (h : p.WellFormed) (t : ℕ) : (p.updateBucket t).WellFormed := by
  obtain ⟨h1, h2, h3, h4, h5, h6⟩ := h
  have hwrap := le_wrapInt64
  rw [Pacing.updateBucket]
  split_ifs <;> constructor <;> simp only [le_min_iff, min_le_iff, le_refl, or_true] <;>
    first | assumption | omega | exact ⟨hwrap _, by omega⟩

/-- A packet leaves the bucket in order, unless the subtraction overflows. -/
theorem updateAfterSend (h : p.WellFormed) (t : ℕ)
    (hfits : -2 ^ 63 ≤ (p.updateBucket t).bucketNanosec - p.packetTimeNanosec) :
    (p.updateAfterSend t).WellFormed := by
  obtain ⟨h1, h2, h3, h4, h5, h6⟩ := h.updateBucket t
  rw [← packetTimeNanosec_updateBucket p t] at hfits
  refine ⟨h1, h2, h3, h4, ?_, le_wrapInt64 _⟩
  calc (p.updateAfterSend t).bucketNanosec
      ≤ (p.updateBucket t).bucketNanosec - (p.updateBucket t).packetTimeNanosec :=
        wrapInt64_le hfits
    _ ≤ (p.updateBucket t).bucketMax := by omega

theorem clampBucket (h1 : 0 ≤ p.packetTimeNanosec) (h2 : p.packetTimeNanosec < 2 ^ 63)
    (h3 : 0 ≤ p.bucketMax) (h4 : p.bucketMax < 2 ^ 63) (h6 : -2 ^ 63 ≤ p.bucketNanosec) :
    p.clampBucket.WellFormed := by
  refine ⟨h1, h2, h3, h4, min_le_right _ _, le_min h6 ?_⟩
  show -2 ^ 63 ≤ p.bucketMax
  omega

theorem updatePacingRate (h : p.WellFormed) (i : PacingInput) (pacingRate : ℚ) (quantum : ℕ) :
    (p.updatePacingRate i pacingRate quantum).WellFormed := by
  have hrtt := i.smoothedRtt_lt
  rw [Pacing.updatePacingRate]
  -- the packet time is at most the round trip time, so that sixteen of them fit
  set time := int64 (toUint64 (rnd (rnd (rnd i.sendMtu / pacingRate) * 1000000000)))
  set capacity := int64 (toUint64 (rnd (rnd (rnd quantum / pacingRate) * 1000000000)))
  set packetTime : ℤ := if time ≤ 0 then 1 else min time (i.smoothedRtt * 1000 : ℕ)
    with hpacketTime
  have hcapacity : capacity < 2 ^ 63 := int64_lt _
  have hlow : 0 ≤ packetTime := by
    rw [hpacketTime]
    split_ifs <;> omega
  have hhigh : packetTime < 2 ^ 59 := by
    rw [hpacketTime]
    split_ifs <;> omega
  have hwrap : wrapInt64 (16 * packetTime) = 16 * packetTime :=
    wrapInt64_of_mem (by omega) (by omega)
  refine clampBucket hlow ?_ ?_ ?_ h.le_bucket
  · exact hhigh.trans (by norm_num)
  · show 0 ≤ if capacity ≤ 0 then wrapInt64 (16 * packetTime) else capacity
    split_ifs <;> omega
  · show (if capacity ≤ 0 then wrapInt64 (16 * packetTime) else capacity) < 2 ^ 63
    split_ifs <;> omega

theorem updatePacingData (h : p.WellFormed) (i : PacingInput) :
    (p.updatePacingData i).WellFormed := by
  have hrtt := i.smoothedRtt_lt
  rw [Pacing.updatePacingData]
  split_ifs
  · exact clampBucket zero_le_one (by norm_num) (Int.natCast_nonneg _)
      (by show ((i.smoothedRtt * 1000 : ℕ) : ℤ) < 2 ^ 63; omega) h.le_bucket
  · exact h.updatePacingRate i _ _
  · exact h.updatePacingRate i _ _

end Pacing.WellFormed

/-! ### A run with fixed parameters -/

/-- What happens to a path between two changes of its parameters. -/
inductive PacingEvent
  /-- Pacing is asked, and nothing is sent. -/
  | ask (currentTime : ℕ)
  /-- Pacing is asked, and a packet is sent. -/
  | send (currentTime : ℕ)
  deriving DecidableEq

/-- When it happens. -/
@[simp]
def PacingEvent.time : PacingEvent → ℕ
  | .ask t => t
  | .send t => t

/-- A packet that is sent from time `start` to time `stop`. -/
def PacingEvent.sendsWithin (start stop : ℕ) : PacingEvent → Bool
  | .ask _ => false
  | .send t => decide (start ≤ t ∧ t ≤ stop)

/-- One event. The verdict does not depend on the packet train mode and the caller's next time. -/
def Pacing.step (p : Pacing) : PacingEvent → Pacing
  | .ask t => (p.isSendingAuthorized false t 0).1
  | .send t => (p.isSendingAuthorized false t 0).1.updateAfterSend t

/-- Packets are sent only when pacing authorizes them. -/
def Pacing.Authorizes (p : Pacing) : PacingEvent → Prop
  | .ask _ => True
  | .send t => (p.isSendingAuthorized false t 0).2.1 = true

instance (p : Pacing) : DecidablePred p.Authorizes
  | .ask _ => inferInstanceAs (Decidable True)
  | .send t => inferInstanceAs (Decidable ((p.isSendingAuthorized false t 0).2.1 = true))

@[simp]
theorem fst_isSendingAuthorized (p : Pacing) (b : Bool) (t n : ℕ) :
    (p.isSendingAuthorized b t n).1 = p.updateBucket t := by
  rw [Pacing.isSendingAuthorized]
  split_ifs <;> rfl

@[simp]
theorem authorized_isSendingAuthorized (p : Pacing) (b : Bool) (t n : ℕ) :
    (p.isSendingAuthorized b t n).2.1 = (p.updateBucket t).holdsPacket := by
  rw [Pacing.isSendingAuthorized]
  split_ifs with h <;> simp [h]

/-! ### What one look at the bucket does -/

@[simp]
theorem evaluationTime_updateBucket (p : Pacing) (t : ℕ) :
    (p.updateBucket t).evaluationTime = max p.evaluationTime t := by
  rw [Pacing.updateBucket]
  split_ifs with h
  · exact (max_eq_right h.le).symm
  · exact (max_eq_left (not_lt.mp h)).symm

/-- A refill adds what the elapsed time is worth, or less. -/
theorem Pacing.WellFormed.bucket_updateBucket_le {p : Pacing} (h : p.WellFormed) (t : ℕ) :
    (p.updateBucket t).bucketNanosec ≤
      max p.bucketNanosec (-p.packetTimeNanosec) + 1000 * (t - p.evaluationTime : ℕ) := by
  have := h.packetTime_lt
  have := h.le_bucket
  rw [Pacing.updateBucket]
  split_ifs with ht
  · refine (min_le_left _ _).trans ((wrapInt64_le (by omega)).trans ?_)
    omega
  · show max p.bucketNanosec (-p.packetTimeNanosec) ≤ _
    omega

variable {t : ℕ}

/-- An authorized packet takes its time out of the bucket, which the same look has filled. -/
theorem Pacing.WellFormed.updateAfterSend_eq {p : Pacing} (h : p.WellFormed)
    (hauth : (p.updateBucket t).holdsPacket = true) :
    (p.updateBucket t).updateAfterSend t =
      { p.updateBucket t with
        bucketNanosec := (p.updateBucket t).bucketNanosec - p.packetTimeNanosec } := by
  have hq : (p.updateBucket t).WellFormed := h.updateBucket t
  have hpt := packetTimeNanosec_updateBucket p t
  have htime := evaluationTime_updateBucket p t
  set q := p.updateBucket t
  have hholds : q.packetTimeNanosec ≤ q.bucketNanosec := of_decide_eq_true hauth
  have := hq.packetTime_nonneg
  have := hq.bucket_le
  have := hq.bucketMax_lt
  -- the second look at the same time finds the bucket up to date
  have hsame : q.updateBucket t = q := by
    rw [Pacing.updateBucket, if_neg (by omega), max_eq_left (by omega)]
  have hwrap := wrapInt64_of_mem (x := q.bucketNanosec - p.packetTimeNanosec) (by omega) (by omega)
  simp only [Pacing.updateAfterSend, hsame, hpt, hwrap]

/-- Authorized packets keep the bucket in order. -/
theorem Pacing.WellFormed.send {p : Pacing} (h : p.WellFormed)
    (hauth : (p.updateBucket t).holdsPacket = true) :
    ((p.updateBucket t).updateAfterSend t).WellFormed := by
  have hholds : (p.updateBucket t).packetTimeNanosec ≤ (p.updateBucket t).bucketNanosec :=
    of_decide_eq_true hauth
  rw [h.updateAfterSend_eq hauth]
  obtain ⟨h1, h2, h3, h4, h5, h6⟩ := h.updateBucket t
  rw [packetTimeNanosec_updateBucket] at hholds
  have := h.packetTime_nonneg
  refine ⟨h1, h2, h3, h4, ?_, ?_⟩ <;> dsimp only <;> omega

/-! ### The packets of an interval are paid for -/

/-- The account of an interval that begins at `start`: at time `last`, the packets sent in it and
what is left in the bucket are within the capacity and the refill. -/
structure Pacing.Paid (p : Pacing) (start last count : ℕ) : Prop where
  wellFormed : p.WellFormed
  /-- Nothing counts before the interval. -/
  count_eq : last < start → count = 0
  le_evaluationTime : start ≤ last → last ≤ p.evaluationTime
  paid : count * p.packetTimeNanosec + max p.bucketNanosec (-p.packetTimeNanosec) ≤
    p.bucketMax + 1000 * (last - start : ℕ)

namespace Pacing.Paid

variable {p : Pacing} {start last count : ℕ}

theorem init (h : p.WellFormed) (start : ℕ) : p.Paid start 0 0 where
  wellFormed := h
  count_eq _ := rfl
  le_evaluationTime _ := Nat.zero_le _
  paid := by
    have := h.packetTime_nonneg
    have := h.bucketMax_nonneg
    have := h.bucket_le
    push_cast
    omega

section

variable (h : p.Paid start last count)

include h

/-- A look at the bucket. -/
theorem updateBucket (ht : last ≤ t) :
    (p.updateBucket t).Paid start t count where
  wellFormed := h.wellFormed.updateBucket t
  count_eq hlt := h.count_eq (ht.trans_lt hlt)
  le_evaluationTime _ := by
    rw [evaluationTime_updateBucket]
    exact le_max_right _ _
  paid := by
    have hwf := h.wellFormed.updateBucket t
    have hle := hwf.bucket_le
    have hadd := h.wellFormed.bucket_updateBucket_le t
    have hpaid := h.paid
    have hnonneg := h.wellFormed.packetTime_nonneg
    have hmax := h.wellFormed.bucketMax_nonneg
    rw [packetTimeNanosec_updateBucket, bucketMax_updateBucket] at *
    by_cases hstart : start ≤ last
    · -- inside the interval: the refill counts from `last` on
      have hev := h.le_evaluationTime hstart
      omega
    · -- before it, only the capacity bounds the bucket
      rw [h.count_eq (not_le.mp hstart)]
      push_cast
      omega

/-- A packet that is sent. -/
theorem send (ht : last ≤ t)
    (hauth : (p.updateBucket t).holdsPacket = true) :
    ((p.updateBucket t).updateAfterSend t).Paid start t
      (count + if start ≤ t then 1 else 0) := by
  have hnow := h.updateBucket ht
  have hholds : (p.updateBucket t).packetTimeNanosec ≤ (p.updateBucket t).bucketNanosec :=
    of_decide_eq_true hauth
  refine ⟨h.wellFormed.send hauth, fun hlt => ?_, ?_, ?_⟩
  · rw [hnow.count_eq hlt, if_neg (not_le.mpr hlt)]
  · rw [h.wellFormed.updateAfterSend_eq hauth]
    exact hnow.le_evaluationTime
  · have hpaid := hnow.paid
    have hnonneg := h.wellFormed.packetTime_nonneg
    have hcapacity := h.wellFormed.bucketMax_nonneg
    have hle := hnow.wellFormed.bucket_le
    rw [h.wellFormed.updateAfterSend_eq hauth]
    simp only [packetTimeNanosec_updateBucket, bucketMax_updateBucket] at *
    split_ifs with hstart
    · -- the bucket stays above zero, so that the packet moves its time to the account
      rw [max_eq_left (by omega)] at hpaid ⊢
      push_cast
      linarith
    · rw [hnow.count_eq (not_le.mp hstart)]
      push_cast
      omega

theorem bound {stop : ℕ} (hlast : last ≤ stop) :
    count * p.packetTimeNanosec ≤
      p.bucketMax + 1000 * (stop - start : ℕ) + p.packetTimeNanosec := by
  have hpaid := h.paid
  omega

/-- The account at the end of a run. Only the packets up to `stop` are in the interval. -/
theorem run {stop : ℕ} {evs : List PacingEvent}
    (hlast : last ≤ stop) (hsorted : (last :: evs.map PacingEvent.time).Pairwise (· ≤ ·))
    (hevs : Along Pacing.step Pacing.Authorizes p evs) :
    ((count + evs.countP (PacingEvent.sendsWithin start stop) : ℕ) : ℤ) * p.packetTimeNanosec ≤
      p.bucketMax + 1000 * (stop - start : ℕ) + p.packetTimeNanosec := by
  induction evs generalizing p last count with
  | nil => exact h.bound hlast
  | cons e evs ih =>
    rw [List.map_cons, List.pairwise_cons] at hsorted
    obtain ⟨hfirst, hrest⟩ := hsorted
    have htime : last ≤ e.time := hfirst _ List.mem_cons_self
    by_cases hstop : e.time ≤ stop
    · cases e with
      | ask t =>
        have hstep := ih (h.updateBucket htime) hstop hrest (by simpa [step] using hevs.2)
        simpa [List.countP_cons, PacingEvent.sendsWithin] using hstep
      | send t =>
        have hauth : (p.updateBucket t).holdsPacket = true := by
          simpa [Pacing.Authorizes] using hevs.1
        have hstep := ih (h.send (t := t) htime hauth) hstop hrest (by simpa [step] using hevs.2)
        have hcount : (PacingEvent.send t :: evs).countP (PacingEvent.sendsWithin start stop) =
            (if start ≤ t then 1 else 0) + evs.countP (PacingEvent.sendsWithin start stop) := by
          have hstop' : t ≤ stop := hstop
          rw [List.countP_cons, add_comm]
          simp [PacingEvent.sendsWithin, hstop']
        rw [hcount, ← add_assoc]
        simpa only [updateAfterSend, packetTimeNanosec_updateBucket,
          bucketMax_updateBucket] using hstep
    · -- nothing from here on is in the interval
      have hnone : (e :: evs).countP (PacingEvent.sendsWithin start stop) = 0 := by
        rw [List.countP_eq_zero]
        intro e' he'
        have hlate : e.time ≤ e'.time := by
          rcases List.mem_cons.mp he' with rfl | he'
          · exact le_refl _
          · exact (List.pairwise_cons.mp hrest).1 _ (List.mem_map_of_mem he')
        cases e' with
        | ask t => simp [PacingEvent.sendsWithin]
        | send t =>
          have hlate' : e.time ≤ t := hlate
          simp only [PacingEvent.sendsWithin, decide_eq_true_eq]
          omega
      rw [hnone, add_zero]
      exact h.bound hlast

end

end Pacing.Paid

/-! ### A refused sender is authorized at the time it is told -/

/-- The times and amounts that a look at the bucket computes with fit their types. -/
structure Pacing.InRange (p : Pacing) (currentTime : ℕ) : Prop where
  evaluationTime_le : p.evaluationTime ≤ currentTime
  refill_lt : p.bucketMax + 1000 * (currentTime + 1 - p.evaluationTime : ℕ) < 2 ^ 63
  train_lt : 11 * p.packetTimeNanosec < 2 ^ 63
  next_lt : currentTime + 1 + 11 * p.packetTimeNanosec / 1000 < 2 ^ 64

/-- The bucket will hold a packet at time `next`. -/
structure Pacing.FillsBy (p : Pacing) (next : ℕ) : Prop where
  wellFormed : p.WellFormed
  time_le : p.evaluationTime ≤ next
  low : -p.packetTimeNanosec ≤ p.bucketNanosec
  packetTime_le : p.packetTimeNanosec ≤ p.bucketMax
  enough : p.packetTimeNanosec ≤ p.bucketNanosec + 1000 * (next - p.evaluationTime : ℕ)
  fits : p.bucketNanosec + 1000 * (next - p.evaluationTime : ℕ) ≤ p.bucketMax + 1000
  max_lt : p.bucketMax + 1000 < 2 ^ 63

namespace Pacing

variable {p : Pacing}

/-- Without an overflow the refill is exact. -/
theorem WellFormed.bucket_updateBucket (h : p.WellFormed)
    (hfits : max p.bucketNanosec (-p.packetTimeNanosec) + 1000 * (t - p.evaluationTime : ℕ) <
      2 ^ 63) :
    (p.updateBucket t).bucketNanosec =
      min (max p.bucketNanosec (-p.packetTimeNanosec) + 1000 * (t - p.evaluationTime : ℕ))
        p.bucketMax := by
  obtain ⟨h1, h2, h3, h4, h5, h6⟩ := h
  rw [Pacing.updateBucket]
  split_ifs with ht
  · show min (wrapInt64 _) _ = _
    rw [wrapInt64_of_mem (by omega) (by omega), mul_comm (1000 : ℤ)]
  · rw [Nat.sub_eq_zero_of_le (not_lt.mp ht)]
    show max _ _ = _
    omega

variable {next : ℕ}

theorem FillsBy.updateBucket (h : p.FillsBy next) {u : ℕ} (hu : u ≤ next) :
    (p.updateBucket u).FillsBy next := by
  obtain ⟨hwf, htime, hlow, hpt, henough, hfits, hmax⟩ := h
  have hbucket := hwf.bucket_updateBucket (t := u) (by omega)
  have hnonneg := hwf.packetTime_nonneg
  refine ⟨hwf.updateBucket u, ?_, ?_, ?_, ?_, ?_, ?_⟩ <;>
    simp only [evaluationTime_updateBucket, packetTimeNanosec_updateBucket,
      bucketMax_updateBucket, hbucket] <;> omega

theorem FillsBy.holdsPacket (h : p.FillsBy next) : (p.updateBucket next).holdsPacket = true := by
  obtain ⟨-, -, -, hpt, henough, -, -⟩ := h.updateBucket le_rfl
  rw [evaluationTime_updateBucket, max_eq_right h.time_le, Nat.sub_self] at henough
  exact decide_eq_true (by omega)

theorem FillsBy.asks (h : p.FillsBy next) {us : List ℕ} (hus : ∀ u ∈ us, u ≤ next) :
    (Runs.run step p (us.map .ask)).FillsBy next := by
  induction us generalizing p with
  | nil => exact h
  | cons u us ih =>
    have hstep := h.updateBucket (hus u List.mem_cons_self)
    rw [List.map_cons, run_cons, step, fst_isSendingAuthorized]
    exact ih hstep fun u' hu' => hus u' (List.mem_cons_of_mem u hu')

/-- The bucket of a refused sender fills by the time it is told. -/
theorem WellFormed.fillsBy_nextPacingTime (h : p.WellFormed)
    (hpt : p.packetTimeNanosec ≤ p.bucketMax) (mode : Bool) (hrange : p.InRange t)
    (hrefused : (p.updateBucket t).holdsPacket = false) :
    t < (p.updateBucket t).nextPacingTime mode t ∧
      (p.updateBucket t).FillsBy ((p.updateBucket t).nextPacingTime mode t) := by
  obtain ⟨htime, hrefill, htrain, hnext⟩ := hrange
  have hbucket := h.bucket_updateBucket (t := t) (by
    have := h.bucket_le
    have := h.packetTime_nonneg
    have := h.bucketMax_nonneg
    omega)
  have hq := h.updateBucket t
  have htime' := evaluationTime_updateBucket p t
  have hpt' := packetTimeNanosec_updateBucket p t
  have hmax' := bucketMax_updateBucket p t
  set q := p.updateBucket t
  have hlack : q.bucketNanosec < q.packetTimeNanosec := not_le.mp (of_decide_eq_false hrefused)
  have hnonneg := hq.packetTime_nonneg
  have hlow : -q.packetTimeNanosec ≤ q.bucketNanosec := by omega
  -- what is lacking lies between one and eleven packet times
  obtain ⟨required, hrequired, hlo, hhi, hcap⟩ : ∃ required, q.bucketRequired mode = required ∧
      q.packetTimeNanosec ≤ q.bucketNanosec + required ∧ required ≤ 11 * q.packetTimeNanosec ∧
      q.bucketNanosec + required ≤ q.bucketMax := by
    rw [bucketRequired]
    cases mode with
    | false =>
      refine ⟨_, wrapInt64_of_mem ?_ ?_, ?_, ?_, ?_⟩ <;>
        simp only [Bool.false_eq_true, if_false] <;> omega
    | true =>
      have hten : wrapInt64 (10 * q.packetTimeNanosec) = 10 * q.packetTimeNanosec :=
        wrapInt64_of_mem (by omega) (by omega)
      refine ⟨_, wrapInt64_of_mem ?_ ?_, ?_, ?_, ?_⟩ <;> simp only [if_true, hten] <;> omega
  have hdiv : required.tdiv 1000 = required / 1000 := Int.tdiv_eq_ediv_of_nonneg (by omega)
  have hnext' : ((q.nextPacingTime mode t : ℕ) : ℤ) = t + 1 + required / 1000 := by
    rw [nextPacingTime, hrequired, hdiv]
    exact u64OfInt_of_mem (by omega) (by omega)
  refine ⟨by omega, hq, ?_, hlow, ?_, ?_, ?_, ?_⟩ <;> omega

end Pacing

/-- **The pacing bound.** Between two changes of the parameters, the packets that are sent with
authorization in any interval take no more transmission time than the capacity of the bucket, the
length of the interval and one packet. When sending is refused, the next time is lowered to a later
time at which it is authorized, unless something is sent before. -/
theorem pacing_bound {p : Pacing} (h : p.WellFormed) :
    (∀ (evs : List PacingEvent) (start dt : ℕ), (evs.map PacingEvent.time).Pairwise (· ≤ ·) →
      Along Pacing.step Pacing.Authorizes p evs →
      evs.countP (PacingEvent.sendsWithin start (start + dt)) * p.packetTimeNanosec ≤
        p.bucketMax + 1000 * dt + p.packetTimeNanosec) ∧
    ∀ (mode : Bool) (t nextTime : ℕ), p.packetTimeNanosec ≤ p.bucketMax → p.InRange t →
      (p.isSendingAuthorized mode t nextTime).2.1 = false →
      ∃ next, t < next ∧ (p.isSendingAuthorized mode t nextTime).2.2 = min nextTime next ∧
        ∀ us : List ℕ, (∀ u ∈ us, u ≤ next) → ∀ n,
          ((run Pacing.step (p.isSendingAuthorized mode t nextTime).1
            (us.map .ask)).isSendingAuthorized mode next n).2.1 = true := by
  refine ⟨fun evs start dt hsorted hevs => ?_, fun mode t nextTime hpt hrange hrefused => ?_⟩
  · have hpaid := (Pacing.Paid.init h start).run (Nat.zero_le (start + dt))
      (List.pairwise_cons.mpr ⟨fun _ _ => Nat.zero_le _, hsorted⟩) hevs
    simpa using hpaid
  · rw [authorized_isSendingAuthorized] at hrefused
    obtain ⟨hlt, hfills⟩ := h.fillsBy_nextPacingTime hpt mode hrange hrefused
    refine ⟨_, hlt, ?_, fun us hus n => ?_⟩
    · simp only [Pacing.isSendingAuthorized, hrefused, Bool.false_eq_true, if_false]
      split_ifs <;> omega
    · rw [authorized_isSendingAuthorized, fst_isSendingAuthorized]
      exact (hfills.asks hus).holdsPacket

/-- Packets of 10 ms and room for two of them. -/
def Pacing.sample : Pacing := ⟨0, 0, 20000000, 10000000⟩

theorem pacing_bound_sample :
    2 * Pacing.sample.packetTimeNanosec ≤
        Pacing.sample.bucketMax + 1000 * 10000 + Pacing.sample.packetTimeNanosec ∧
      ∃ next, (Pacing.sample.isSendingAuthorized false 0 500000).2.2 = min 500000 next := by
  have hwf : Pacing.sample.WellFormed := by constructor <;> decide
  obtain ⟨hbound, hrefused⟩ := pacing_bound hwf
  refine ⟨?_, ?_⟩
  · exact hbound [.ask 5000, .send 10000, .ask 10001, .send 20000] 10000 10000 (by decide)
      (by decide)
  · obtain ⟨next, -, hnext, -⟩ := hrefused false 0 500000 (by decide)
      (by constructor <;> decide) (by decide)
    exact ⟨next, hnext⟩

/-- The returned time is the caller's own one if that is earlier, and it may be past the end of the
clock. Sending is refused then too. -/
theorem refused_at_returned_time :
    (Pacing.sample.isSendingAuthorized false 0 500 = (Pacing.sample, false, 500) ∧
      (Pacing.sample.isSendingAuthorized false 500 500).2.1 = false) ∧
    let late : Pacing := { Pacing.sample with evaluationTime := 2 ^ 64 - 1 }
    late.isSendingAuthorized false (2 ^ 64 - 1) (2 ^ 64 - 1) = (late, false, 10000) ∧
      (late.isSendingAuthorized false 10000 (2 ^ 64 - 1)).2.1 = false := by
  decide

end Picoquic
