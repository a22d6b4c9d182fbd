import Picoquic.Congestion.Alternating

/-!
# What the verdicts of Tonopah rest on

A verdict divides by what its intervals have measured. An interval is finished for a path by the
first acknowledgement that belongs to a later interval, whether or not there was one before it.

* **`MemTonopah.run_credited`** — the verdicts of `new_tonopah.c` divide by numbers of
  acknowledgements that are not zero, as long as no interval is finished without one;
* **`verdicts_measured`** — this and the verdicts of `tonopah.c`;
* **`verdict_without_measurement`** — runs in which the divisors are zero.
-/

namespace Picoquic

open Runs IntervalInfo

/-- What an acknowledgement needs: the interval that it finishes was acknowledged before, and the
count of a finished interval does not wrap to zero. -/
def CreditedAck (id : IntervalPathId) (ackNum : ℕ) : List IntervalInfo → Prop
  | [] => True
  | e :: older =>
    if (e.side id).firstSeqNum ≤ ackNum then
      ((e.side id).finished = true → u64 ((e.side id).numAcks + 1) ≠ 0) ∧
        ∀ e' ∈ older.head?, (e'.side id).finished = false → (e'.side id).numAcks ≠ 0
    else CreditedAck id ackNum older

/-- The condition is decided by the walk of `new_tonopah_find_right_interval`. -/
instance CreditedAck.decidable (id : IntervalPathId) (ackNum : ℕ) :
    ∀ l : List IntervalInfo, Decidable (CreditedAck id ackNum l)
  | [] => inferInstanceAs (Decidable True)
  | _ :: older =>
    have := CreditedAck.decidable id ackNum older
    inferInstanceAs (Decidable (ite _ (_ ∧ ∀ e' ∈ older.head?, _) _))

/-- The condition on an event: an acknowledgement finishes only an interval with one of its own. -/
def Tonopah.CreditedStep (s : Tonopah) : TonopahEvent → Prop
  | .init _ => True
  | .notify n =>
    n.notification = .acknowledgement → n.isCwinLimited = true →
      CreditedAck ((s.registerPaths n).ackedSide n) (n.cnxPath n.path).pathPacketAckedNumber
        s.intervals

instance (s : Tonopah) (ev : TonopahEvent) : Decidable (s.CreditedStep ev) :=
  match ev with
  | .init _ => inferInstanceAs (Decidable True)
  | .notify _ => inferInstanceAs (Decidable (_ → _ → _))

/-- Both paths were acknowledged in the intervals of the sums. -/
def RttSums.Credited (a : RttSums) : Prop := a.numAcksDominant ≠ 0 ∧ a.numAcksSubmissive ≠ 0

/-- A path was acknowledged in an interval that is finished for it. -/
def IntervalSide.Credited (d : IntervalSide) : Prop :=
  d.numAcks < 2 ^ 64 ∧ (d.finished = true → d.numAcks ≠ 0)

/-- The list of intervals, each acknowledged where it is finished. -/
structure IntervalsCredited (l : List IntervalInfo) : Prop where
  sound : IntervalsSound False (fun _ => 0) l
  credited : ∀ e ∈ l, ∀ id, (e.side id).Credited

variable {id : IntervalPathId} {evs : List TonopahEvent}

/-- The condition, at the interval that is found. -/
theorem creditedAck_append {l r : List IntervalInfo} {e : IntervalInfo} {ackNum : ℕ}
    (hl : ∀ e' ∈ l, ackNum < (e'.side id).firstSeqNum) (he : (e.side id).firstSeqNum ≤ ackNum)
    (h : CreditedAck id ackNum (l ++ e :: r)) :
    ((e.side id).finished = true → u64 ((e.side id).numAcks + 1) ≠ 0) ∧
      ∀ e' ∈ r.head?, (e'.side id).finished = false → (e'.side id).numAcks ≠ 0 := by
  induction l with
  | nil =>
    rw [List.nil_append, CreditedAck, if_pos he] at h
    exact h
  | cons x l ih =>
    rw [List.cons_append, CreditedAck, if_neg (not_le.mpr (hl x List.mem_cons_self))] at h
    exact ih (fun e' he' => hl e' (List.mem_cons_of_mem x he')) h

namespace IntervalsCredited

variable {l : List IntervalInfo}

theorem record (h : IntervalsCredited l) {ackNum : ℕ} (hack : CreditedAck id ackNum l)
    (n : Notification) : IntervalsCredited (recordInIntervals l id ackNum n.count) := by
  refine ⟨h.sound.record id ackNum (fun _ => rfl) fun _ => rfl, ?_⟩
  rcases recordInIntervals_cases l id ackNum n.count with heq | ⟨l', e, r, rfl, hl, he, heq⟩
  · rw [heq]
    exact h.credited
  · obtain ⟨hcount, hfinish⟩ := creditedAck_append hl he hack
    rw [heq]
    intro x hx id'
    rcases List.mem_append.mp hx with hx | hx
    · exact h.credited x (List.mem_append_left _ hx) id'
    rcases List.mem_cons.mp hx with rfl | hx
    · have hold := h.credited e (by simp) id'
      rcases eq_or_ne id' id with rfl | hne
      · simp only [modifySide, Function.update_self]
        exact ⟨u64_lt _, hcount⟩
      · simpa only [modifySide, Function.update_of_ne hne] using hold
    · rcases r with _ | ⟨e', r⟩
      · exact absurd hx List.not_mem_nil
      rcases List.mem_cons.mp hx with rfl | hx
      · -- the interval that is finished
        have hold := h.credited e' (by simp) id'
        rcases eq_or_ne id' id with rfl | hne
        · simp only [finish, modifySide, Function.update_self]
          refine ⟨hold.1, fun _ => ?_⟩
          rcases hfin : (e'.side id').finished with _ | _
          · exact hfinish e' rfl hfin
          · exact hold.2 hfin
        · simpa only [finish, modifySide, Function.update_of_ne hne]
            using hold
      · exact h.credited x (by simp [hx]) id'

/-- The verdict divides by numbers of acknowledgements that are not zero. -/
theorem aggregateSums_credited (h : ∀ e ∈ l, ∀ id, (e.side id).Credited) {a : RttSums}
    (hlen : a.len = 0) (hd : a.numAcksDominant = 0) (hs : a.numAcksSubmissive = 0) :
    ∀ v ∈ aggregateSums l a, v.Credited := by
  induction l generalizing a with
  | nil => simp [aggregateSums]
  | cons e older ih =>
    have hrest := fun {a : RttSums} => ih (fun x hx => h x (List.mem_cons_of_mem e hx)) (a := a)
    rw [aggregateSums]
    rcases hfin : e.isFinished with _ | _
    · rw [if_neg Bool.false_ne_true, if_neg (by decide)]
      exact hrest rfl rfl rfl
    · rw [if_pos rfl, if_pos (show (a.add e).len = intervalsRequired by
        rw [RttSums.add, hlen]; rfl)]
      have hacks : ∀ id, u64 (0 + (e.side id).numAcks) ≠ 0 := by
        intro id
        obtain ⟨hlt, hne⟩ := h e List.mem_cons_self id
        rw [Nat.zero_add, u64_of_lt hlt]
        rw [isFinished, Bool.and_eq_true] at hfin
        rcases id
        · exact hne hfin.1
        · exact hne hfin.2
      intro v hv
      obtain rfl : a.add e = v := by simpa using hv
      rw [RttSums.Credited, RttSums.add, hd, hs]
      exact ⟨hacks _, hacks _⟩

theorem nil : IntervalsCredited [] := ⟨.nil, by simp⟩

/-- The moves of a notification keep the list credited. -/
theorem keepsIntervals (h : IntervalsCredited l) {r : Tonopah} {n : Notification}
    (hack : n.notification = .acknowledgement → n.isCwinLimited = true →
      CreditedAck (r.ackedSide n) (n.cnxPath n.path).pathPacketAckedNumber l) :
    KeepsIntervals r n l IntervalsCredited RttSums.Credited := by
  refine ⟨h, nil, fun hn hlim => h.record (hack hn hlim) n, ?_, fun _ hl => hl.sound.length_le,
    ?_, fun _ hl => aggregateSums_credited hl.credited rfl rfl rfl⟩
  · intro _ _ _ l hl
    have hnew : ∀ id, ((r.newInterval n).side id).finished = false := fun id => by
      rcases id <;> rfl
    refine ⟨?_, fun e he id => ?_⟩
    · have hweak : IntervalsSound False (r.newInterval n).firstSeqNums l :=
        hl.sound.mono False.elim
      exact (hweak.push hnew rfl).mono False.elim
    · have hmem : e ∈ r.newInterval n :: l := by
        rw [pushInterval] at he
        split_ifs at he
        · exact List.mem_of_mem_dropLast he
        · exact he
      rcases List.mem_cons.mp hmem with rfl | hmem
      · refine ⟨by rcases id <;> exact Nat.two_pow_pos 64, fun hfin => ?_⟩
        rw [hnew id] at hfin
        exact absurd hfin Bool.false_ne_true
      · exact hl.credited e hmem id
  · intro l hl e he
    rw [isFinished, hl.sound.newest e he]
    rfl

end IntervalsCredited

namespace MemTonopah

/-- **Run lemma.** In a run that finishes only intervals with acknowledgements, every verdict
divides by numbers of acknowledgements that are not zero. -/
theorem Models.run_credited {p : MemTonopah} {s : Tonopah}
    (h : p.Models s s IntervalsCredited RttSums.Credited)
    (hevs : Along Tonopah.step Tonopah.CreditedStep s evs) :
    ∃ p', evs.foldlM step p = some p' ∧ ∀ v ∈ p'.verdicts, v.Credited := by
  induction evs generalizing p s with
  | nil => exact ⟨p, rfl, h.verdicts⟩
  | cons ev evs ih =>
    rcases ev with path | n
    · obtain ⟨p', hp', hmod⟩ := h.init path
      obtain ⟨p'', hp'', hv⟩ := ih hmod hevs.2
      exact ⟨p'', by rw [List.foldlM_cons, hp']; exact hp'', hv⟩
    · obtain ⟨p', hp', hmod⟩ := h.notify (h.intervals.keepsIntervals hevs.1)
      obtain ⟨p'', hp'', hv⟩ := ih (p := p') (s := s.notify n)
        ⟨hmod.represents, rfl, rfl, rfl, hmod.intervals, hmod.verdicts⟩ hevs.2
      exact ⟨p'', by rw [List.foldlM_cons, step, hp']; exact hp'', hv⟩

/-- **Verdicts of the second Tonopah.** -/
theorem run_credited (hevs : Along Tonopah.step Tonopah.CreditedStep Tonopah.initial evs) :
    ∃ p, run evs = some p ∧ ∀ v ∈ p.verdicts, v.Credited :=
  Models.run_credited ⟨⟨[], IntervalMemory.represents_empty, rfl⟩, rfl, rfl, rfl,
    .nil, by simp [initial]⟩ hevs

end MemTonopah

/-- **Verdicts rest on measurements** as long as no interval is finished before it has measured:
those of `new_tonopah.c` divide by numbers of acknowledgements, those of `tonopah.c` by times and
numbers of packets that are not zero. -/
theorem verdicts_measured (evs : List TonopahEvent) :
    (Along Tonopah.step Tonopah.CreditedStep Tonopah.initial evs →
      ∃ p, MemTonopah.run evs = some p ∧ ∀ v ∈ p.verdicts, v.Credited) ∧
    (PacketNumbersValid (fun _ => 0) evs →
      Along AlternatingTonopah.step AlternatingTonopah.MeasuredStep .initial evs →
      ∀ v ∈ (run AlternatingTonopah.step .initial evs).verdicts, v.Measured) :=
  ⟨MemTonopah.run_credited, AlternatingTonopah.run_verdicts_measured⟩

/-! ### Sample runs -/

/-- Where the interval `k` of a path begins: the dominant path sends four packets in an interval,
the other one a single packet. -/
def roundStart (k : ℕ) (path : PathIndex) : Uint64 :=
  Fin.ofNat _ (10 + 5 * (k / 2) + if k % 2 = 1 then (if path = 1 then 4 else 1) else 0)

/-- A notification of a path with packet `acked` acknowledged, when the interval `k` begins. -/
def roundNotification (path : PathIndex) (notification : CongestionNotification) (k : ℕ)
    (acked time : Uint64) : Notification :=
  let n := twoPathNotification path notification 100 0 acked time
  { n with cnxPath := fun i => { n.cnxPath i with pathPacketNumber := roundStart k i } }

/-- The interval `k`: two acknowledgements on the dominant path, `acks` on the other one. -/
def measurementRound (acks k : ℕ) : List TonopahEvent :=
  let dominant : PathIndex := if k % 2 = 0 then 1 else 0
  let submissive : PathIndex := if k % 2 = 0 then 0 else 1
  let t : Uint64 := Fin.ofNat _ (160000 + 51000 * k)
  let ack (path : PathIndex) (time : Uint64) : TonopahEvent :=
    .notify (roundNotification path .acknowledgement (k + 1) (roundStart k path) time)
  [.notify (roundNotification 0 .seedCwin k 0 t), ack dominant (t + 10000),
    ack dominant (t + 20000)] ++
  (List.range acks).map fun i => ack submissive (t + 30000 + Fin.ofNat _ i)

/-- Six intervals, and the notification that ends the last of them. -/
def measurementRounds (acks : ℕ) : List TonopahEvent :=
  [.init 1, .notify (roundNotification 0 .repeated 0 0 100000),
    .notify (roundNotification 1 .seedCwin 0 0 110000)] ++
  (List.range 6).flatMap (measurementRound acks) ++
  [.notify (roundNotification 0 .seedCwin 6 0 500000)]

/-- `timeoutsThenAcks`, with the acknowledgement that ends the interval. -/
def timeoutsThenVerdict : List TonopahEvent :=
  timeoutsThenAcks ++ [.notify (twoPathNotification 1 .acknowledgement 100 7 5 400000)]

/-- A run of each algorithm that draws a verdict. -/
theorem verdicts_measured_sample :
    (∃ p, MemTonopah.run timeoutsThenVerdict = some p ∧ p.verdicts.length = 1 ∧
      ∀ v ∈ p.verdicts, v.Credited) ∧
    (run AlternatingTonopah.step .initial (measurementRounds 2)).verdicts.length = 1 ∧
      ∀ v ∈ (run AlternatingTonopah.step .initial (measurementRounds 2)).verdicts,
        v.Measured := by
  constructor
  · obtain ⟨p, hp, hv⟩ := (verdicts_measured timeoutsThenVerdict).1 (by decide +kernel)
    have hlen : (MemTonopah.run timeoutsThenVerdict).map (·.verdicts.length) = some 1 := by
      decide +kernel
    rw [hp] at hlen
    exact ⟨p, hp, by simpa using hlen, hv⟩
  · refine ⟨by decide +kernel, ?_⟩
    exact (verdicts_measured (measurementRounds 2)).2 (by decide +kernel) (by decide +kernel)

/-- With one acknowledgement for each interval of the other path, its acknowledgements span no time:
`tonopah.c` divides by zero and detects fair queuing. In `new_tonopah.c`, whose intervals are
shorter, some are finished without any acknowledgement, and both quotients are not a number. -/
theorem verdict_without_measurement :
    PacketNumbersValid (fun _ => 0) (measurementRounds 1) ∧
    ((MemTonopah.run (measurementRounds 1)).map fun p =>
      p.verdicts.all fun v => v.numAcksDominant = 0 ∧ v.numAcksSubmissive = 0) = some true ∧
    ((MemTonopah.run (measurementRounds 1)).map (·.verdicts.length)) = some 9 ∧
    ∃ a : BandwidthSums,
      (run AlternatingTonopah.step .initial (measurementRounds 1)).verdicts = [.sums a] ∧
        a.accTimeDiffsSubmissive = 0 ∧ a.detectedFq = true := by
  refine ⟨by decide +kernel, by decide +kernel, by decide +kernel, ⟨4, 40000, 0, 800, 400, 16, 4⟩,
    by decide +kernel, rfl, by decide +kernel⟩

end Picoquic
