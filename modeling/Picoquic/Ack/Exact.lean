import Picoquic.Ack.Decode

/-!
# What acknowledgement frames remove

The retransmit queue is sorted by packet number, newest first. One range removes from the cursor
on exactly the packets it acknowledges (`processAckRange_spec`), and the packets it passes lie
above every later range, so the whole frame removes from the cursor on exactly the acknowledged
packets (`foldlM_onAckRange_packets`).

When the largest number of the frame is new the cursor starts at or above it, and the frame is
processed exactly. When it is not, the cursor starts at the oldest packet, and since the walk goes
towards older packets only, no other packet is removed:

* **`decodeAckFrame_exact_iff`** — an accepted frame leaves exactly the packets it does not
  acknowledge if and only if its largest number is new or it acknowledges no queued packet but
  possibly the oldest;
* **`decodeAckFrame_old_largest`** — a frame that does not meet the condition.
-/

namespace Picoquic

variable {φ : Type}

/-- Sorted by packet number, newest first. -/
abbrev NewestFirst (l : List (Packet φ)) : Prop :=
  l.Pairwise fun p q => q.sequenceNumber < p.sequenceNumber

/-- The packets that none of the ranges acknowledges. -/
def unacked (ranges : List AckRange) (l : List (Packet φ)) : List (Packet φ) :=
  l.filter fun p => ranges.all fun r => !decide (r.Acks p.sequenceNumber)

@[simp]
theorem unacked_nil (l : List (Packet φ)) : unacked [] l = l := by simp [unacked]

theorem unacked_cons (r : AckRange) (ranges : List AckRange) (l : List (Packet φ)) :
    unacked (r :: ranges) l = unacked ranges (unacked [r] l) := by
  simp [unacked, List.filter_filter, Bool.and_comm]

@[simp]
theorem unacked_append (ranges : List AckRange) (l l' : List (Packet φ)) :
    unacked ranges (l ++ l') = unacked ranges l ++ unacked ranges l' :=
  List.filter_append ..

variable {ranges : List AckRange}

theorem unacked_eq_self {l : List (Packet φ)} :
    unacked ranges l = l ↔ ∀ p ∈ l, ∀ r ∈ ranges, ¬ r.Acks p.sequenceNumber := by
  simp [unacked, List.filter_eq_self]

theorem unacked_eq_self_of_lt {largest : ℕ} {l : List (Packet φ)}
    (hr : ∀ r ∈ ranges, r.highest ≤ largest) (hl : ∀ p ∈ l, largest < p.sequenceNumber) :
    unacked ranges l = l := by
  refine unacked_eq_self.mpr fun p hp r hrm hacks => ?_
  have := hr r hrm
  have := hl p hp
  have := hacks.2
  omega

/-! ### One range -/

variable {currentTime : ℕ} {header : AckHeader} {bytes rest : List UInt8}

/-- **One range.** From the cursor on exactly the packets of the range are removed; the packets
passed on the way lie at or above its lowest number. -/
theorem processAckRange_spec {newer cursor : List (Packet φ)} {paths : Paths}
    {effects : List (AckEffect φ)} {highest range : ℕ} {w : AckWalk φ} (hsort : NewestFirst cursor)
    (hr : range ≤ highest + 1)
    (h : processAckRange currentTime newer cursor paths effects highest range = .ok w) :
    ∃ passed, w.newer = passed.reverse ++ newer ∧
      passed ++ w.cursor = unacked [⟨highest, range⟩] cursor ∧
      ∀ p ∈ passed, highest + 1 - range ≤ p.sequenceNumber := by
  fun_induction processAckRange currentTime newer cursor paths effects highest range with
  | case1 newer paths effects highest range =>
    obtain rfl := Except.ok.inj h
    exact ⟨[], rfl, rfl, by simp⟩
  | case2 newer paths effects highest p older =>
    obtain rfl := Except.ok.inj h
    refine ⟨[], rfl, (unacked_eq_self.mpr fun q _ r hr' hacks => ?_).symm, by simp⟩
    rw [List.mem_singleton.mp hr', AckRange.acks_mk] at hacks
    omega
  | case3 newer paths effects highest p older range hlt ih =>
    -- `p` lies above what is left of the range: it is passed and stays
    obtain ⟨passed, hnewer, hcursor, hpassed⟩ := ih (List.pairwise_cons.mp hsort).2 hr h
    refine ⟨p :: passed, by simp [hnewer], ?_, fun q hq => ?_⟩
    · have hkeep : ¬ (⟨highest, range + 1⟩ : AckRange).Acks p.sequenceNumber := fun hacks => by
        rw [AckRange.acks_mk] at hacks
        omega
      rw [List.cons_append, hcursor]
      simp [unacked, hkeep]
    · rcases List.mem_cons.mp hq with rfl | hq
      · omega
      · exact hpassed q hq
  | case4 => simp at h
  | case5 newer paths effects p older range htrap hlt ih =>
    -- `p` carries the highest number of the range; the older packets lie below it
    obtain ⟨hp, holder⟩ := List.pairwise_cons.mp hsort
    obtain ⟨passed, hnewer, hcursor, hpassed⟩ := ih holder (by omega) h
    refine ⟨passed, hnewer, ?_, fun q hq => ?_⟩
    · rw [hcursor]
      have hacks : (⟨p.sequenceNumber, range + 1⟩ : AckRange).Acks p.sequenceNumber := by
        rw [AckRange.acks_mk]
        omega
      rw [unacked, unacked, List.filter_cons_of_neg (by simpa using hacks)]
      refine List.filter_congr fun q hq => ?_
      have := hp q hq
      simp only [List.all_cons, List.all_nil, AckRange.Acks, Bool.and_true]
      congr 2
      simp only [eq_iff_iff]
      omega
    · have hmem : q ∈ older := by
        have : q ∈ unacked [⟨p.sequenceNumber - 1, range⟩] older :=
          hcursor ▸ List.mem_append_left _ hq
        exact List.mem_of_mem_filter this
      have := hp q hmem
      have := hpassed q hq
      omega
  | case6 newer paths effects highest p older range hlt hne ih =>
    -- the number `highest` is not in the queue any more
    obtain ⟨hp, -⟩ := List.pairwise_cons.mp hsort
    obtain ⟨passed, hnewer, hcursor, hpassed⟩ := ih hsort (by omega) h
    refine ⟨passed, hnewer, ?_, fun q hq => ?_⟩
    · rw [hcursor]
      refine List.filter_congr fun q hq => ?_
      have hqp : q.sequenceNumber ≤ p.sequenceNumber := by
        rcases List.mem_cons.mp hq with rfl | hq
        · exact le_rfl
        · exact (hp q hq).le
      simp only [List.all_cons, List.all_nil, AckRange.Acks, Bool.and_true]
      congr 2
      simp only [eq_iff_iff]
      omega
    · have := hpassed q hq
      omega

/-! ### All ranges -/

/-- **All ranges of a frame.** From the cursor on exactly the acknowledged packets are removed,
and the packets before the cursor stay. -/
theorem foldlM_onAckRange_packets {ctx : PacketContext φ} {currentTime largest : ℕ}
    {w w' : AckWalks φ} (hranges : Descending largest ranges) (hsort : NewestFirst w.queue.cursor)
    (h : ranges.foldlM (onAckRange ctx currentTime) w = .ok w') :
    w'.queue.packets = w.queue.newer.reverse ++ unacked ranges w.queue.cursor := by
  induction ranges generalizing w with
  | nil =>
    obtain rfl := Except.ok.inj h
    simp [AckWalk.packets]
  | cons r ranges ih =>
    have hr := hranges.bounds r List.mem_cons_self
    have hgap := List.pairwise_cons.mp hranges.gap
    rw [List.foldlM_cons, onAckRange] at h
    cases hp : processAckRange currentTime w.queue.newer w.queue.cursor w.queue.paths
        w.queue.effects r.highest r.range with
    | error e => simp [hp, bind, Except.bind] at h
    | ok queue =>
      simp only [hp, bind, Except.bind] at h
      obtain ⟨passed, hnewer, hcursor, hpassed⟩ := processAckRange_spec hsort hr.2.1 hp
      have hsub : queue.cursor.Sublist w.queue.cursor :=
        (hcursor ▸ List.sublist_append_right passed queue.cursor).trans List.filter_sublist
      have htail : Descending largest ranges :=
        ⟨fun r' hr' => hranges.bounds r' (List.mem_cons_of_mem _ hr'), hgap.2⟩
      -- what was passed lies above every later range
      have hkeep : unacked ranges passed = passed := by
        refine unacked_eq_self.mpr fun p hp r' hr' hacks => ?_
        have := hpassed p hp
        have := hgap.1 r' hr'
        have := hacks.2
        omega
      calc w'.queue.packets = queue.newer.reverse ++ unacked ranges queue.cursor :=
            ih htail (hsort.sublist hsub) h
        _ = w.queue.newer.reverse ++ (passed ++ unacked ranges queue.cursor) := by
            rw [hnewer, List.reverse_append, List.reverse_reverse, List.append_assoc]
        _ = w.queue.newer.reverse ++ unacked ranges (passed ++ queue.cursor) := by
            rw [unacked_append, hkeep]
        _ = w.queue.newer.reverse ++ unacked (r :: ranges) w.queue.cursor := by
            rw [hcursor]
            exact congrArg _ (unacked_cons r ranges _).symm

/-- The walk towards newer packets only moves the split, and stops at the newest packet or at
one that is not below `largest`. -/
theorem towardsNewer_spec (largest : ℕ) (newer : List (Packet φ)) (p : Packet φ)
    (older : List (Packet φ)) :
    (towardsNewer largest newer p older).1.reverse ++ (towardsNewer largest newer p older).2 =
        newer.reverse ++ p :: older ∧
      ((towardsNewer largest newer p older).1 = [] ∨
        ∃ q rest, (towardsNewer largest newer p older).2 = q :: rest ∧
          largest ≤ q.sequenceNumber) := by
  induction newer generalizing p older with
  | nil => exact ⟨rfl, Or.inl rfl⟩
  | cons previous newer ih =>
    rw [towardsNewer]
    split_ifs with hlt
    · obtain ⟨hsplit, hstop⟩ := ih previous (p :: older)
      exact ⟨by rw [hsplit]; simp, hstop⟩
    · exact ⟨rfl, Or.inr ⟨p, older, rfl, not_lt.mp hlt⟩⟩

/-- The split at the packet that `picoquic_find_acked_packet` returns. With a new largest number
the packets before it lie above that number; otherwise it is the oldest packet. -/
theorem findAckedPacket_spec {ctx : PacketContext φ} (hsort : NewestFirst ctx.retransmitQueue)
    (largest : ℕ) :
    (findAckedPacket ctx largest).1.reverse ++ (findAckedPacket ctx largest).2 =
        ctx.retransmitQueue ∧
      (isNewAck ctx largest = true →
        ∀ p ∈ (findAckedPacket ctx largest).1.reverse, largest < p.sequenceNumber) ∧
      (isNewAck ctx largest = false →
        (findAckedPacket ctx largest).1.reverse = ctx.retransmitQueue.dropLast) := by
  rw [findAckedPacket]
  rcases List.eq_nil_or_concat ctx.retransmitQueue with hq | ⟨init, oldest, hq⟩
  · simp [hq]
  · rw [List.concat_eq_append] at hq
    rw [hq, List.reverse_append, List.reverse_singleton, List.singleton_append,
      List.dropLast_concat]
    cases hnew : isNewAck ctx largest with
    | false => simp
    | true =>
      obtain ⟨hsplit, hstop⟩ := towardsNewer_spec largest init.reverse oldest []
      rw [List.reverse_reverse] at hsplit
      refine ⟨hsplit, fun _ p hp => ?_, by simp⟩
      rcases hstop with hnil | ⟨q, rest, hcursor, hle⟩
      · simp [hnil] at hp
      · -- the queue is sorted, so every packet before `q` carries a higher number
        have hsort' : NewestFirst (init ++ [oldest]) := hq ▸ hsort
        rw [← hsplit] at hsort'
        have hcross := (List.pairwise_append.mp hsort').2.2 p hp q (by simp [hcursor])
        omega

/-! ### The frame -/

/-- The ranges that a frame with the given header acknowledges. -/
def frameRanges (header : AckHeader) (bytes : List UInt8) : List AckRange :=
  match ackRanges header.numBlock header.largest (bytes.drop header.consumed) with
  | none => []
  | some (ranges, _) => ranges

@[simp]
theorem dequeueOldRetransmittedPackets_retransmitQueue (ctx : PacketContext φ) :
    (dequeueOldRetransmittedPackets ctx).retransmitQueue = ctx.retransmitQueue := by
  rw [dequeueOldRetransmittedPackets]
  split_ifs <;> rfl

/-- Processing the blocks splits the queue at the starting point: what is before it stays, and
the rest loses the acknowledged packets. -/
theorem processAckBlocks_retransmitQueue {cnx cnx' : AckCnx φ} {key : ContextKey}
    {currentTime frameType : ℕ} {effects : List (AckEffect φ)}
    (hsort : NewestFirst (cnx.contexts key).retransmitQueue)
    (h : processAckBlocks cnx key header bytes currentTime frameType = .ok (cnx', rest, effects)) :
    ∃ ranges, ackRanges header.numBlock header.largest bytes = some (ranges, rest) ∧
      (cnx'.contexts key).retransmitQueue =
        (findAckedPacket (cnx.contexts key) header.largest).1.reverse ++
          unacked ranges (findAckedPacket (cnx.contexts key) header.largest).2 := by
  rw [processAckBlocks] at h
  by_cases hseq : (cnx.contexts key).sendSequence ≤ header.largest
  · simp [hseq] at h
  simp only [if_neg hseq] at h
  generalize htop : recordTopPacket (cnx.contexts key) header.largest currentTime = top at h
  cases hloop : ackBlockLoop frameType (onAckRange top currentTime) header.numBlock header.largest
      bytes (startWalks (cnx.contexts key) cnx.paths header.largest) with
  | error e => simp [hloop] at h
  | ok r =>
    obtain ⟨w, rest'⟩ := r
    simp only [hloop, Except.ok.injEq, Prod.mk.injEq] at h
    obtain ⟨rfl, rfl, -⟩ := h
    obtain ⟨ranges, hranges, hfold⟩ := ackBlockLoop_ok_iff.mp hloop
    refine ⟨ranges, hranges, ?_⟩
    have hcursor : NewestFirst (findAckedPacket (cnx.contexts key) header.largest).2 := by
      rw [← (findAckedPacket_spec hsort header.largest).1] at hsort
      exact (List.pairwise_append.mp hsort).2.1
    have hpackets := foldlM_onAckRange_packets (ackRanges_descending hranges) hcursor hfold
    simpa [startWalks] using hpackets

/-- The ECN counters do not touch the queue. -/
private theorem decodeAckFrame_blocks {cnx cnx' : AckCnx φ} {pc : Fin 3} {isEcn hasPathId : Bool}
    {effects : List (AckEffect φ)} {key : ContextKey}
    (hheader : parseAckHeader bytes hasPathId cnx.ackDelayExponent = some header)
    (hkey : cnx.contextOf header pc hasPathId = some key)
    (h : decodeAckFrame cnx bytes currentTime pc isEcn hasPathId = .ok (cnx', rest, effects)) :
    ∃ cnx₁ rest₁ effects₁, processAckBlocks cnx key header (bytes.drop header.consumed)
        currentTime (bytes.headD 0).toNat = .ok (cnx₁, rest₁, effects₁) ∧
      (cnx'.contexts key).retransmitQueue = (cnx₁.contexts key).retransmitQueue := by
  simp only [decodeAckFrame, hheader, hkey] at h
  cases hblocks : processAckBlocks cnx key header (bytes.drop header.consumed) currentTime
      (bytes.headD 0).toNat with
  | error e => simp only [hblocks, reduceCtorEq] at h
  | ok r =>
    obtain ⟨cnx₁, rest₁, effects₁⟩ := r
    refine ⟨cnx₁, rest₁, effects₁, rfl, ?_⟩
    simp only [hblocks] at h
    cases isEcn with
    | false =>
      simp only [Bool.false_eq_true, if_false, Except.ok.injEq, Prod.mk.injEq] at h
      rw [h.1]
    | true =>
      cases hecn : decodeEcnCounts rest₁ with
      | none => simp [hecn] at h
      | some q =>
        simp only [hecn, if_true, Except.ok.injEq, Prod.mk.injEq] at h
        rw [← h.1]
        by_cases hk : key = .epoch pc
        · simp [hk, recordEcnCounts]
        · simp [Function.update_of_ne hk]

/-- **When acknowledgement processing is exact.** After an accepted frame the queue of the
context contains exactly the packets whose number lies in none of the acknowledged ranges, if and
only if the largest acknowledged number is new, or no queued packet other than the oldest one lies
in an acknowledged range. -/
theorem decodeAckFrame_exact_iff {cnx cnx' : AckCnx φ} {bytes rest : List UInt8}
    {currentTime : ℕ} {pc : Fin 3} {isEcn hasPathId : Bool} {effects : List (AckEffect φ)}
    {header : AckHeader} {key : ContextKey}
    (hheader : parseAckHeader bytes hasPathId cnx.ackDelayExponent = some header)
    (hkey : cnx.contextOf header pc hasPathId = some key)
    (hsort : NewestFirst (cnx.contexts key).retransmitQueue)
    (h : decodeAckFrame cnx bytes currentTime pc isEcn hasPathId = .ok (cnx', rest, effects)) :
    (cnx'.contexts key).retransmitQueue =
        unacked (frameRanges header bytes) (cnx.contexts key).retransmitQueue ↔
      isNewAck (cnx.contexts key) header.largest = true ∨
        ∀ p ∈ (cnx.contexts key).retransmitQueue.dropLast, ∀ r ∈ frameRanges header bytes,
          ¬ r.Acks p.sequenceNumber := by
  obtain ⟨cnx₁, rest₁, effects₁, hblocks, hqueue⟩ := decodeAckFrame_blocks hheader hkey h
  obtain ⟨ranges, hranges, hqueue₁⟩ := processAckBlocks_retransmitQueue hsort hblocks
  have hframe : frameRanges header bytes = ranges := by rw [frameRanges, hranges]
  obtain ⟨hsplit, hnew, hold⟩ := findAckedPacket_spec hsort header.largest
  -- exact means that no packet before the starting point is acknowledged
  have key' : (cnx'.contexts key).retransmitQueue =
      unacked ranges (cnx.contexts key).retransmitQueue ↔
      unacked ranges (findAckedPacket (cnx.contexts key) header.largest).1.reverse =
        (findAckedPacket (cnx.contexts key) header.largest).1.reverse := by
    rw [hqueue, hqueue₁]
    conv_lhs => rw [← hsplit]
    rw [unacked_append, List.append_left_inj]
    exact eq_comm
  rw [hframe, key']
  cases hn : isNewAck (cnx.contexts key) header.largest with
  | true =>
    refine iff_of_true ?_ (Or.inl rfl)
    exact unacked_eq_self_of_lt (fun r hr => ((ackRanges_descending hranges).bounds r hr).2.2)
      (hnew hn)
  | false =>
    rw [hold hn, unacked_eq_self]
    simp

/-! ### A frame whose largest number is not new -/

/-- A path before its first packet. -/
def initialPath : PathX :=
  ⟨0, false, [], 0, false, false, 0, 0, 0, 0, 1280, 1280, 0, false, 0, 0, 0, 0, 0, 0⟩

/-- A queued packet of the application context, of no path. -/
def samplePacket (sequenceNumber : ℕ) : Packet Unit :=
  ⟨sequenceNumber, .epoch 0, none, 0, 0, 100, 16, false, ()⟩

/-- A connection that sent packets `0`, `1` and `2` and received an acknowledgement of `2`. -/
def sampleAckCnx : AckCnx Unit :=
  { contexts := fun _ => ⟨3, 2, 0, 0, [samplePacket 1, samplePacket 0], [], 0, 0, 0, false⟩
    remoteCnxids := []
    paths := fun _ => initialPath
    latestProgressTime := 0
    nbSpurious := 0
    ackDelayExponent := 3 }

/-- The frame that acknowledges packets `1` and `2`. -/
def sampleAckFrame : List UInt8 := [0x02, 0x02, 0x00, 0x00, 0x01]

/-- The header of the frame. -/
def sampleAckHeader : AckHeader := ⟨0, 2, 0, 0, 4⟩

/-- The frame is accepted, and its processing is exact just if the condition holds. -/
theorem decodeAckFrame_exact_iff_sample :
    ∃ cnx' rest effects, decodeAckFrame sampleAckCnx sampleAckFrame 0 0 false false =
        .ok (cnx', rest, effects) ∧
      ((cnx'.contexts (.epoch 0)).retransmitQueue =
          unacked (frameRanges sampleAckHeader sampleAckFrame)
            (sampleAckCnx.contexts (.epoch 0)).retransmitQueue ↔
        isNewAck (sampleAckCnx.contexts (.epoch 0)) 2 = true ∨
          ∀ p ∈ (sampleAckCnx.contexts (.epoch 0)).retransmitQueue.dropLast,
            ∀ r ∈ frameRanges sampleAckHeader sampleAckFrame, ¬ r.Acks p.sequenceNumber) := by
  have hok :
      (decodeAckFrame sampleAckCnx sampleAckFrame 0 0 false false).toOption.isSome = true := by
    decide +kernel
  cases h : decodeAckFrame sampleAckCnx sampleAckFrame 0 0 false false with
  | error e => simp [h, Except.toOption] at hok
  | ok r =>
    have hheader : parseAckHeader sampleAckFrame false sampleAckCnx.ackDelayExponent =
        some sampleAckHeader := by decide
    exact ⟨r.1, r.2.1, r.2.2, rfl,
      decodeAckFrame_exact_iff hheader (by decide) (by decide) h⟩

/-- **A largest number that is not new.** The frame acknowledges packet `1` for the first time,
and `1` stays in the queue. -/
theorem decodeAckFrame_old_largest :
    parseAckHeader sampleAckFrame false sampleAckCnx.ackDelayExponent = some sampleAckHeader ∧
    (decodeAckFrame sampleAckCnx sampleAckFrame 0 0 false false).toOption.map (fun r =>
        (r.1.contexts (.epoch 0)).retransmitQueue.map (·.sequenceNumber)) = some [1, 0] ∧
    (unacked (frameRanges sampleAckHeader sampleAckFrame)
        (sampleAckCnx.contexts (.epoch 0)).retransmitQueue).map (·.sequenceNumber) = [0] := by
  refine ⟨?_, ?_, ?_⟩ <;> decide +kernel

end Picoquic
