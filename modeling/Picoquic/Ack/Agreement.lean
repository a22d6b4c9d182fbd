import Picoquic.Ack.Exact
import Picoquic.Ack.FormatSound
import Picoquic.Ack.Spurious
import Picoquic.Sack.Replay

/-!
# What is acknowledged was received

One endpoint sends packets in a number space of the connection, and the other one acknowledges
them, over a network that loses, repeats and reorders packets and acknowledgements. Some numbers of
the sender are holes: traps for an endpoint that acknowledges what it did not receive.

* **`soundAckFrame_of_plain`** — outside multipath, the frames that are written are sound;
* **`decodeAckFrame_ok`** — a frame is accepted if it acknowledges neither traps nor numbers to
  come, and it reports nothing that it does not acknowledge;
* **`AckNet.acknowledged_received`** — in every run acknowledgements are true, and none is refused.
-/

namespace Picoquic

open RangeList Runs

variable {φ : Type}

/-! ### Two endpoints -/

/-- `picoquic_ecn_accounting`. -/
def ecnAccounting (ctx : AckContext) (receivedEcn : Fin 4) : AckContext :=
  match receivedEcn with
  | 0 => ctx
  | 1 => { ctx with ecnEct1TotalLocal := u64 (ctx.ecnEct1TotalLocal + 1), sendingEcnAck := true }
  | 2 => { ctx with ecnEct0TotalLocal := u64 (ctx.ecnEct0TotalLocal + 1), sendingEcnAck := true }
  | 3 => { ctx with ecnCeTotalLocal := u64 (ctx.ecnCeTotalLocal + 1), sendingEcnAck := true }

/-- The path's side of `picoquic_queue_for_retransmit`, without pacing. -/
def Packet.joinPath (p : Packet φ) (length : ℕ) : Paths → Paths :=
  p.onSendPath fun path =>
    let path := { path with packets := path.packets ++ [(p.context, p.sequenceNumber)] }
    if p.isAckTrap then path
    else
      { path with
        bytesInTransit := path.bytesInTransit + length
        isCcDataUpdated := true }

/-- `picoquic_queue_for_retransmit`, for the packet or the hole with the next number. -/
def AckCnx.queueForRetransmit (cnx : AckCnx φ) (pc : Fin 3) (p : Packet φ) (length : ℕ) :
    AckCnx φ :=
  let ctx := cnx.contexts (.epoch pc)
  { cnx with
    contexts := Function.update cnx.contexts (.epoch pc)
      { ctx with sendSequence := ctx.sendSequence + 1, retransmitQueue := p :: ctx.retransmitQueue }
    paths := p.joinPath length cnx.paths }

/-- `picoquic_dequeue_retransmit_packet`, for the packet with a number. -/
def AckCnx.dequeueRetransmitPacket (cnx : AckCnx φ) (pc : Fin 3) (sequenceNumber : ℕ)
    (shouldFree : Bool) : AckCnx φ :=
  let ctx := cnx.contexts (.epoch pc)
  let dequeued := ctx.retransmitQueue.filter (·.sequenceNumber = sequenceNumber)
  { cnx with
    contexts := Function.update cnx.contexts (.epoch pc)
      { ctx with
        retransmitQueue := ctx.retransmitQueue.filter (·.sequenceNumber ≠ sequenceNumber)
        retransmitted :=
          dequeued.filter (fun p => !(shouldFree || p.isAckTrap)) ++ ctx.retransmitted }
    paths := dequeued.foldl (fun paths p => p.leavePath paths) cnx.paths }

/-- The numbers of the packets that are reported as acknowledged. -/
def reported (effects : List (AckEffect φ)) : List ℕ :=
  effects.filterMap fun x => match x with
    | .ackOfFrames p _ => some p.sequenceNumber
    | _ => none

/-- The sender and the receiver in a number space. The frames are all that were sent, and what
follows them is the history of the run. -/
structure AckNet (φ : Type) where
  sender : AckCnx φ
  receiver : AckContext
  frames : List (List UInt8)
  sent : List (Packet φ)
  lost : List ℕ
  received : List ℕ
  acknowledged : List ℕ
  refused : ℕ

inductive AckNetEvent (φ : Type)
  /-- A packet is sent, or a hole left in its place. -/
  | transmit (p : Packet φ) (length : ℕ)
  | declareLost (sequenceNumber : ℕ) (shouldFree : Bool)
  /-- A packet arrives, or something else happens to the recorded numbers. -/
  | receiver (e : AckEvent)
  | ecn (receivedEcn : Fin 4)
  | sendAck (params : AckFormatParameters) (space currentTime : ℕ) (needTimeStamp : Bool)
      (isOpportunistic : Fin 2)
  | deliverAck (frame : List UInt8) (currentTime : ℕ)

namespace AckNet

/-- The packets that are waiting for their acknowledgement. -/
def queue (pc : Fin 3) (s : AckNet φ) : List (Packet φ) :=
  (s.sender.contexts (.epoch pc)).retransmitQueue

/-- The next number. -/
def sendSequence (pc : Fin 3) (s : AckNet φ) : ℕ := (s.sender.contexts (.epoch pc)).sendSequence

/-- What happens at the receiver: packets arrive only if they were sent. -/
def receive (s : AckNet φ) (e : AckEvent) : AckNet φ :=
  match e with
  | .receive pn _ =>
    if s.sent.any fun p => p.sequenceNumber = pn && !p.isAckTrap then
      { s with receiver := s.receiver.step e, received := pn :: s.received }
    else s
  | e => { s with receiver := s.receiver.step e }

/-- A frame arrives at the sender. -/
def deliverAck (pc : Fin 3) (s : AckNet φ) (frame : List UInt8) (currentTime : ℕ) : AckNet φ :=
  match ackFrameKind frame with
  | none => { s with refused := s.refused + 1 }
  | some (isEcn, hasPathId) =>
    match decodeAckFrame s.sender frame currentTime pc isEcn hasPathId with
    | .ok (sender, [], effects) =>
      { s with sender := sender, acknowledged := reported effects ++ s.acknowledged }
    | _ => { s with refused := s.refused + 1 }

/-- One event in the number space `pc`. -/
def step (pc : Fin 3) (s : AckNet φ) : AckNetEvent φ → AckNet φ
  | .transmit p length =>
    let p := { p with sequenceNumber := s.sendSequence pc, context := .epoch pc }
    { s with sender := s.sender.queueForRetransmit pc p length, sent := p :: s.sent }
  | .declareLost sequenceNumber shouldFree =>
    { s with
      sender := s.sender.dequeueRetransmitPacket pc sequenceNumber shouldFree
      lost := sequenceNumber :: s.lost }
  | .receiver e => s.receive e
  | .ecn receivedEcn => { s with receiver := ecnAccounting s.receiver receivedEcn }
  | .sendAck params space currentTime needTimeStamp isOpportunistic =>
    let r := (formatAckFrameInContext params space currentTime s.receiver needTimeStamp none
      isOpportunistic).2.1
    { s with
      receiver := r.ctx
      frames := if r.bytes = [] then s.frames else r.bytes :: s.frames }
  | .deliverAck frame currentTime =>
    if frame ∈ s.frames then s.deliverAck pc frame currentTime else s

/-- Before the first packet, which gets the number `first`. -/
def init (first : ℕ) (paths : Paths) (ackDelayExponent : ℕ) (horizonDelay : ℤ) : AckNet φ where
  sender :=
    { contexts := fun _ => ⟨first, 2 ^ 64 - 1, 0, 0, [], [], 0, 0, 0, false⟩
      remoteCnxids := []
      paths := paths
      latestProgressTime := 0
      nbSpurious := 0
      ackDelayExponent := ackDelayExponent }
  receiver := .initial horizonDelay
  frames := []
  sent := []
  lost := []
  received := []
  acknowledged := []
  refused := 0

end AckNet

/-! ### Writing -/

variable {P : SackList → Prop} {ctx : AckContext} {ranges : List AckRange} {bytes rest : List UInt8}
  {header : AckHeader} {frame : List UInt8}

section

variable (hP : ∀ s i isOpportunistic, P s → P (recordSent s i isOpportunistic))

include hP

/-- What is kept when items are counted as sent is kept by the loop over the items. -/
theorem formatAckBlocks_keeps
    (space : ℕ) (isOpportunistic : Fin 2) (nbSentMaxAcked : ℕ) (items : List SackItem)
    (nbSentMaxSkip : ℤ) (lowest : ℕ) {s : AckBlocksState} (h : P s.sackList) :
    P (formatAckBlocks space isOpportunistic nbSentMaxAcked items nbSentMaxSkip lowest
      s).sackList := by
  induction items generalizing nbSentMaxSkip lowest s with
  | nil => exact h
  | cons next items ih =>
    rw [formatAckBlocks]
    split_ifs
    · exact h
    · exact ih _ _ h
    · exact ih _ _ h
    · cases formatAckBlock s.out space lowest next with
      | none => exact h
      | some out => exact ih _ _ (hP _ _ _ h)

/-- And when a frame is written. -/
theorem formatAckFrameInContext_keeps
    (params : AckFormatParameters) (space currentTime : ℕ) (needTimeStamp : Bool)
    (multipathSequence : Option (Fin (2 ^ 62))) (isOpportunistic : Fin 2) (h : P ctx.sackList) :
    P (formatAckFrameInContext params space currentTime ctx needTimeStamp multipathSequence
      isOpportunistic).2.1.ctx.sackList := by
  have hranges : ∀ space last, P (formatAckRanges params space currentTime ctx last
      multipathSequence isOpportunistic).ctx.sackList := by
    intro space last
    rw [formatAckRanges]
    split
    · exact h
    · exact formatAckBlocks_keeps hP _ _ _ _ _ _ (hP _ _ _ h)
  have hecn : ∀ space r, P r.ctx.sackList → P (appendEcnCounts space r).ctx.sackList := by
    intro space r hr
    rw [appendEcnCounts]
    split_ifs
    · split <;> exact hr
    · exact hr
  rw [formatAckFrameInContext]
  split
  · exact h
  · dsimp only
    split_ifs <;> exact hecn _ _ (hranges _ _)

end

/-- **Outside multipath frames are sound**, with the counters or without. -/
theorem soundAckFrame_of_plain (params : AckFormatParameters) (space currentTime : ℕ)
    (needTimeStamp : Bool) (isOpportunistic : Fin 2) (ackDelayExponent : ℕ)
    (hl : SackCanonical ctx.sackList.ackTree)
    (hne : (formatAckFrameInContext params space currentTime ctx needTimeStamp none
      isOpportunistic).2.1.bytes ≠ []) :
    SoundAckFrame ctx.sackList.ackTree ackDelayExponent none
      (formatAckFrameInContext params space currentTime ctx needTimeStamp none
        isOpportunistic).2.1.bytes := by
  obtain ⟨-, h⟩ | ⟨⟨-, -, hmp, -⟩, -⟩ := formatAckFrameInContext_cases params space currentTime
    needTimeStamp none isOpportunistic ackDelayExponent hl
  · exact h.resolve_left hne
  · cases hmp

/-! ### Reading -/

theorem reported_append (effects effects' : List (AckEffect φ)) :
    reported (effects ++ effects') = reported effects ++ reported effects' :=
  List.filterMap_append

theorem reported_ackEffects (p : Packet φ) : reported (ackEffects p) = [p.sequenceNumber] := by
  rw [ackEffects]
  split <;> rfl

theorem reported_spuriousEffects (l : List (Packet φ)) :
    reported (l.flatMap spuriousEffects) = l.map (·.sequenceNumber) := by
  induction l with
  | nil => rfl
  | cons p l ih =>
    rw [List.flatMap_cons, reported_append, ih, List.map_cons, spuriousEffects]
    split <;> rfl

/-- A range without traps is processed, and what is reported is in it. -/
theorem processAckRange_ok (currentTime : ℕ) (newer : List (Packet φ)) {cursor : List (Packet φ)}
    (paths : Paths) (effects : List (AckEffect φ)) {highest range : ℕ} (hr : range ≤ highest + 1)
    (htrap : ∀ p ∈ cursor, (⟨highest, range⟩ : AckRange).Acks p.sequenceNumber →
      p.isAckTrap = false) :
    ∃ w, processAckRange currentTime newer cursor paths effects highest range = .ok w ∧
      w.cursor ⊆ cursor ∧ ∀ n ∈ reported w.effects, n ∈ reported effects ∨
        (⟨highest, range⟩ : AckRange).Acks n := by
  fun_induction processAckRange currentTime newer cursor paths effects highest range with
  | case1 newer paths effects highest range => exact ⟨_, rfl, List.Subset.refl _, fun _ => Or.inl⟩
  | case2 newer paths effects highest p older =>
    exact ⟨_, rfl, List.Subset.refl _, fun _ => Or.inl⟩
  | case3 newer paths effects highest p older range hlt ih =>
    obtain ⟨w, hw, hcursor, heffects⟩ := ih hr fun q hq => htrap q (List.mem_cons_of_mem p hq)
    exact ⟨w, hw, List.subset_cons_of_subset p hcursor, heffects⟩
  | case4 newer paths effects p older range htrapped hlt =>
    -- a trap would be in the range
    have := htrap p List.mem_cons_self (AckRange.acks_mk.mpr (by omega))
    rw [this] at htrapped
    cases htrapped
  | case5 newer paths effects p older range htrapped hlt ih =>
    have hacks : ∀ n, (⟨p.sequenceNumber - 1, range⟩ : AckRange).Acks n →
        (⟨p.sequenceNumber, range + 1⟩ : AckRange).Acks n := fun n hn => by
      rw [AckRange.acks_mk] at hn ⊢
      omega
    obtain ⟨w, hw, hcursor, heffects⟩ := ih (by omega) fun q hq hn =>
      htrap q (List.mem_cons_of_mem p hq) (hacks _ hn)
    refine ⟨w, hw, List.subset_cons_of_subset p hcursor, fun n hn => ?_⟩
    obtain hold | hn := heffects n hn
    · rw [reported_append, reported_ackEffects, List.mem_append, List.mem_singleton] at hold
      refine hold.imp_right ?_
      rintro rfl
      exact AckRange.acks_mk.mpr (by omega)
    · exact Or.inr (hacks n hn)
  | case6 newer paths effects highest p older range hlt hne ih =>
    have hacks : ∀ n, (⟨highest - 1, range⟩ : AckRange).Acks n →
        (⟨highest, range + 1⟩ : AckRange).Acks n := fun n hn => by
      rw [AckRange.acks_mk] at hn ⊢
      omega
    obtain ⟨w, hw, hcursor, heffects⟩ := ih (by omega) fun q hq hn => htrap q hq (hacks _ hn)
    exact ⟨w, hw, hcursor, fun n hn => (heffects n hn).imp_right (hacks n)⟩

/-- Ranges without traps are processed, and what is reported is in one of them. -/
theorem foldlM_onAckRange_ok (ctx : PacketContext φ) (currentTime : ℕ) {w : AckWalks φ}
    (hr : ∀ r ∈ ranges, r.range ≤ r.highest + 1)
    (htrap : ∀ p ∈ w.queue.cursor, ∀ r ∈ ranges, r.Acks p.sequenceNumber → p.isAckTrap = false) :
    ∃ w', ranges.foldlM (onAckRange ctx currentTime) w = .ok w' ∧
      ∀ n ∈ reported w'.queue.effects, n ∈ reported w.queue.effects ∨ ∃ r ∈ ranges, r.Acks n := by
  induction ranges generalizing w with
  | nil => exact ⟨w, rfl, fun _ => Or.inl⟩
  | cons r ranges ih =>
    obtain ⟨queue, hqueue, hcursor, heffects⟩ := processAckRange_ok currentTime w.queue.newer
      w.queue.paths w.queue.effects (hr r List.mem_cons_self) fun p hp =>
        htrap p hp r List.mem_cons_self
    set spurious := checkSpuriousRetransmission ctx (r.highest + 1 - r.range) r.highest currentTime
      w.retransmitted.newer w.retransmitted.cursor queue.paths queue.effects with hspurious
    have hstep : onAckRange ctx currentTime w r = .ok
        ⟨{ queue with paths := spurious.paths, effects := spurious.effects }, spurious⟩ := by
      rw [onAckRange, hqueue]
    obtain ⟨w', hw', heffects'⟩ := ih
      (w := ⟨{ queue with paths := spurious.paths, effects := spurious.effects }, spurious⟩)
      (fun r' hr' => hr r' (List.mem_cons_of_mem r hr'))
      fun p hp r' hr' => htrap p (hcursor hp) r' (List.mem_cons_of_mem r hr')
    rw [List.foldlM_cons, hstep]
    refine ⟨w', hw', fun n hn => ?_⟩
    obtain hold | ⟨r', hr', hn⟩ := heffects' n hn
    · -- the packets of the retransmitted list that are found are in the range
      rw [hspurious, checkSpuriousRetransmission_eq, reported_append, reported_spuriousEffects,
        List.mem_append, List.mem_map] at hold
      obtain hold | ⟨p, hp, rfl⟩ := hold
      · exact (heffects n hold).imp_right fun hn => ⟨r, List.mem_cons_self, hn⟩
      · obtain ⟨-, hrange⟩ := List.mem_filter.mp hp
        rw [Packet.inRange, Bool.and_eq_true, decide_eq_true_eq, decide_eq_true_eq] at hrange
        exact Or.inr ⟨r, List.mem_cons_self, by omega, hrange.2⟩
    · exact Or.inr ⟨r', List.mem_cons_of_mem r hr', hn⟩

/-- The largest number of a frame is in its first range. -/
theorem exists_acks_largest {numBlock largest : ℕ}
    (h : ackRanges numBlock largest bytes = some (ranges, rest)) :
    ∃ r ∈ ranges, r.Acks largest := by
  cases numBlock with
  | zero =>
    rw [ackRanges] at h
    split at h
    · cases h
    · simp only [Option.ite_none_left_eq_some, Option.some.injEq, Prod.mk.injEq] at h
      obtain ⟨-, rfl, -⟩ := h
      exact ⟨_, List.mem_singleton_self _, AckRange.acks_mk.mpr (by omega)⟩
  | succ numBlock =>
    rw [ackRanges] at h
    split at h
    · cases h
    · dsimp only at h
      split_ifs at h
      split at h
      · cases h
      · simp only [Option.ite_none_left_eq_some, Option.map_eq_some_iff, Prod.mk.injEq] at h
        obtain ⟨-, _, -, rfl, -⟩ := h
        exact ⟨_, List.mem_cons_self, AckRange.acks_mk.mpr (by omega)⟩

theorem sendSequence_recordTopPacket (ctx : PacketContext φ) (largest currentTime : ℕ) :
    (recordTopPacket ctx largest currentTime).sendSequence = ctx.sendSequence := by
  rw [recordTopPacket, recordHighest]
  split <;> split_ifs <;> rfl

theorem sendSequence_dequeueOldRetransmittedPackets (ctx : PacketContext φ) :
    (dequeueOldRetransmittedPackets ctx).sendSequence = ctx.sendSequence := by
  rw [dequeueOldRetransmittedPackets]
  split_ifs <;> rfl

/-- What leaves the queue and what is reported was acknowledged. -/
structure AckedIn (ranges : List AckRange) (ctx ctx' : PacketContext φ)
    (effects : List (AckEffect φ)) : Prop where
  sendSequence : ctx'.sendSequence = ctx.sendSequence
  sublist : ctx'.retransmitQueue.Sublist ctx.retransmitQueue
  left : ∀ p ∈ ctx.retransmitQueue, p ∈ ctx'.retransmitQueue ∨
    ∃ r ∈ ranges, r.Acks p.sequenceNumber
  reported : ∀ n ∈ reported effects, ∃ r ∈ ranges, r.Acks n

theorem mem_unacked_or {cursor : List (Packet φ)} {p : Packet φ} (hp : p ∈ cursor) :
    p ∈ unacked ranges cursor ∨ ∃ r ∈ ranges, r.Acks p.sequenceNumber := by
  by_cases hacks : ∃ r ∈ ranges, r.Acks p.sequenceNumber
  · exact Or.inr hacks
  · push Not at hacks
    refine Or.inl (List.mem_filter.mpr ⟨hp, ?_⟩)
    simpa using hacks

/-- Blocks that acknowledge neither traps nor numbers to come are processed. -/
theorem processAckBlocks_ok {cnx : AckCnx φ} {key : ContextKey} (currentTime frameType : ℕ)
    (hranges : ackRanges header.numBlock header.largest bytes = some (ranges, rest))
    (hsort : NewestFirst (cnx.contexts key).retransmitQueue)
    (hsend : header.largest < (cnx.contexts key).sendSequence)
    (htrap : ∀ p ∈ (cnx.contexts key).retransmitQueue, ∀ r ∈ ranges,
      r.Acks p.sequenceNumber → p.isAckTrap = false) :
    ∃ cnx' effects,
      processAckBlocks cnx key header bytes currentTime frameType = .ok (cnx', rest, effects) ∧
        AckedIn ranges (cnx.contexts key) (cnx'.contexts key) effects := by
  obtain ⟨hsplit, -⟩ := findAckedPacket_spec hsort header.largest
  obtain ⟨w, hw, heffects⟩ := foldlM_onAckRange_ok
    (recordTopPacket (cnx.contexts key) header.largest currentTime) currentTime
    (w := startWalks (cnx.contexts key) cnx.paths header.largest)
    (fun r hr => ((ackRanges_descending hranges).bounds r hr).2.1)
    fun p hp => htrap p (hsplit ▸ List.mem_append_right _ hp)
  have hloop : ackBlockLoop frameType
      (onAckRange (recordTopPacket (cnx.contexts key) header.largest currentTime) currentTime)
      header.numBlock header.largest bytes
      (startWalks (cnx.contexts key) cnx.paths header.largest) = .ok (w, rest) :=
    ackBlockLoop_ok_iff.mpr ⟨ranges, hranges, hw⟩
  obtain ⟨cnx', hblocks, hseq⟩ : ∃ cnx', processAckBlocks cnx key header bytes currentTime
      frameType = .ok (cnx', rest, w.queue.effects) ∧
      (cnx'.contexts key).sendSequence = (cnx.contexts key).sendSequence := by
    rw [processAckBlocks]
    dsimp only
    rw [if_neg (not_le.mpr hsend), hloop]
    refine ⟨_, rfl, ?_⟩
    dsimp only
    rw [Function.update_self, sendSequence_dequeueOldRetransmittedPackets]
    exact sendSequence_recordTopPacket (cnx.contexts key) header.largest currentTime
  obtain ⟨ranges', hranges', hqueue⟩ := processAckBlocks_retransmitQueue hsort hblocks
  obtain rfl : ranges = ranges' := by
    rw [hranges, Option.some.injEq, Prod.mk.injEq] at hranges'
    exact hranges'.1
  refine ⟨cnx', w.queue.effects, hblocks, hseq, ?_, fun p hp => ?_, fun n hn =>
    (heffects n hn).resolve_left List.not_mem_nil⟩
  · rw [hqueue]
    conv_rhs => rw [← hsplit]
    exact (List.Sublist.refl _).append List.filter_sublist
  · rw [hqueue]
    rw [← hsplit, List.mem_append] at hp
    exact hp.elim (fun hp => Or.inl (List.mem_append_left _ hp)) fun hp =>
      (mem_unacked_or hp).imp_left (List.mem_append_right _)

/-- **A frame is accepted** if it acknowledges neither traps nor numbers to come. -/
theorem decodeAckFrame_ok {cnx : AckCnx φ} (currentTime : ℕ) {pc : Fin 3} {isEcn : Bool}
    (hheader : parseAckHeader bytes false cnx.ackDelayExponent = some header)
    (hranges : ackRanges header.numBlock header.largest (bytes.drop header.consumed) =
      some (ranges, rest))
    (hecn : if isEcn then ∃ counts, decodeEcnCounts rest = some (counts, []) else rest = [])
    (hsort : NewestFirst (cnx.contexts (.epoch pc)).retransmitQueue)
    (hsend : header.largest < (cnx.contexts (.epoch pc)).sendSequence)
    (htrap : ∀ p ∈ (cnx.contexts (.epoch pc)).retransmitQueue, ∀ r ∈ ranges,
      r.Acks p.sequenceNumber → p.isAckTrap = false) :
    ∃ cnx' effects, decodeAckFrame cnx bytes currentTime pc isEcn false = .ok (cnx', [], effects) ∧
      AckedIn ranges (cnx.contexts (.epoch pc)) (cnx'.contexts (.epoch pc)) effects := by
  obtain ⟨cnx', effects, hblocks, hacked⟩ := processAckBlocks_ok currentTime
    (bytes.headD 0).toNat hranges hsort hsend htrap
  simp only [decodeAckFrame, hheader, AckCnx.contextOf, Bool.false_eq_true, if_false, hblocks]
  cases isEcn with
  | false =>
    rw [if_neg Bool.false_ne_true] at hecn
    exact ⟨cnx', effects, by rw [hecn]; rfl, hacked⟩
  | true =>
    rw [if_pos rfl] at hecn
    obtain ⟨counts, hcounts⟩ := hecn
    refine ⟨_, _, by rw [hcounts]; rfl, ?_⟩
    simp only [Function.update_self, recordEcnCounts]
    refine { hacked with reported := fun n hn => ?_ }
    rw [reported_append, List.mem_append] at hn
    refine hacked.reported n (hn.resolve_right ?_)
    split_ifs <;> exact List.not_mem_nil

/-! ### What the receiver records -/

theorem ackHorizonLoop_suffix (horizonDelay : ℤ) (currentTime : ℕ) (rc : RangeCounts) (horizon : ℕ)
    (l : List SackItem) : (ackHorizonLoop horizonDelay currentTime rc horizon l).2.2 <:+ l := by
  fun_induction ackHorizonLoop horizonDelay currentTime rc horizon l with
  | case1 => exact List.suffix_rfl
  | case2 => exact List.suffix_rfl
  | case3 rc horizon first next rest _ ih => exact ih.trans (List.suffix_cons _ _)
  | case4 => exact List.suffix_rfl

theorem covers_of_updateAckHorizon {s : SackList} {currentTime n : ℕ}
    (h : SackCovers (updateAckHorizon s currentTime).ackTree n) : SackCovers s.ackTree n :=
  h.imp fun _ hitem => ⟨(ackHorizonLoop_suffix _ _ _ _ _).subset hitem.1, hitem.2⟩

theorem covers_of_recordSent {s : SackList} {i : ℕ} {isOpportunistic : Fin 2} {n : ℕ}
    (h : SackCovers (recordSent s i isOpportunistic).ackTree n) : SackCovers s.ackTree n :=
  (covers_congr (recordSent_map_range s i isOpportunistic) n).mp h

/-- A number is recorded only when it is received. -/
theorem AckContext.covers_of_step (hctx : ctx.sackList.Good) {e : AckEvent} {n : ℕ}
    (h : SackCovers (ctx.step e).sackList.ackTree n) :
    SackCovers ctx.sackList.ackTree n ∨ ∃ pn currentTime, e = .receive pn currentTime ∧ n = pn := by
  cases e with
  | receive pn currentTime =>
    rw [step] at h
    split_ifs at h
    · exact Or.inl h
    · have hrecord : SackCovers (recordRange ctx.sackList pn pn currentTime).1.ackTree n := by
        rw [recordPnReceived, updateSackList] at h
        dsimp only at h
        split_ifs at h
        · exact covers_of_updateAckHorizon h
        · exact h
      have hspec := recordRange_spec hctx.canonical (pn.isLt.trans (by decide)) le_rfl currentTime
      rw [hspec.2] at hrecord
      exact hrecord.imp_right fun hn => ⟨pn, currentTime, rfl, le_antisymm hn.2 hn.1⟩
  | ackOfAck startOfRange endOfRange hle =>
    exact Or.inl ((processAckOfAckRange_spec hctx.canonical hle).2 n |>.mp h).1
  | updateHorizon currentTime =>
    rw [step] at h
    split_ifs at h
    · exact Or.inl (covers_of_updateAckHorizon h)
    · exact Or.inl h
  | recordSent i isOpportunistic => exact Or.inl (covers_of_recordSent h)
  | readyWithSimpleMultipath => exact Or.inl h

/-! ### Runs -/

namespace AckNet

variable {pc : Fin 3} {s : AckNet φ}

/-- A frame acknowledges only what was received. -/
def IsTrue (received : List ℕ) (frame : List UInt8) : Prop :=
  ∀ ackDelayExponent, ∃ l, SoundAckFrame l ackDelayExponent none frame ∧
    ∀ n, SackCovers l n → n ∈ received

theorem IsTrue.mono {received received' : List ℕ} (h : IsTrue received frame)
    (hsub : received ⊆ received') : IsTrue received' frame := fun ackDelayExponent =>
  (h ackDelayExponent).imp fun _ hl => ⟨hl.1, fun n hn => hsub (hl.2 n hn)⟩

/-- **The invariant.** -/
structure Sound (pc : Fin 3) (s : AckNet φ) : Prop where
  newestFirst : NewestFirst s.sent
  below : ∀ p ∈ s.sent, p.sequenceNumber < s.sendSequence pc
  queue : (s.queue pc).Sublist s.sent
  good : s.receiver.sackList.Good
  covers : ∀ n, SackCovers s.receiver.sackList.ackTree n → n ∈ s.received
  arrived : ∀ n ∈ s.received, ∃ p ∈ s.sent, p.sequenceNumber = n ∧ p.isAckTrap = false
  frames : ∀ frame ∈ s.frames, IsTrue s.received frame
  acknowledged : ∀ n ∈ s.acknowledged, n ∈ s.received
  settled : ∀ p ∈ s.sent, p ∈ s.queue pc ∨ p.sequenceNumber ∈ s.lost ∨
    p.sequenceNumber ∈ s.received
  refused : s.refused = 0

namespace Sound

section

variable (h : s.Sound pc)

include h

theorem transmit (p : Packet φ) (length : ℕ) :
    (s.step pc (.transmit p length)).Sound pc := by
  have hqueue : (s.step pc (.transmit p length)).queue pc =
      { p with sequenceNumber := s.sendSequence pc, context := .epoch pc } :: s.queue pc := by
    simp only [AckNet.step, AckNet.queue, AckCnx.queueForRetransmit, Function.update_self]
  have hnext : (s.step pc (.transmit p length)).sendSequence pc = s.sendSequence pc + 1 := by
    simp only [AckNet.step, AckNet.sendSequence, AckCnx.queueForRetransmit, Function.update_self]
  refine { h with
    newestFirst := List.pairwise_cons.mpr ⟨h.below, h.newestFirst⟩
    below := ?_
    queue := hqueue ▸ h.queue.cons_cons _
    arrived := fun n hn => (h.arrived n hn).imp fun _ hp => ⟨List.mem_cons_of_mem _ hp.1, hp.2⟩
    settled := ?_ }
  · rw [hnext]
    exact List.forall_mem_cons.mpr ⟨Nat.lt_succ_self _, fun q hq =>
      Nat.lt_succ_of_lt (h.below q hq)⟩
  · rw [hqueue]
    exact List.forall_mem_cons.mpr ⟨Or.inl List.mem_cons_self, fun q hq =>
      (h.settled q hq).imp_left (List.mem_cons_of_mem _)⟩

theorem declareLost (sequenceNumber : ℕ) (shouldFree : Bool) :
    (s.step pc (.declareLost sequenceNumber shouldFree)).Sound pc := by
  have hqueue : (s.step pc (.declareLost sequenceNumber shouldFree)).queue pc =
      (s.queue pc).filter (·.sequenceNumber ≠ sequenceNumber) := by
    simp only [AckNet.step, AckNet.queue, AckCnx.dequeueRetransmitPacket, Function.update_self]
  have hnext : (s.step pc (.declareLost sequenceNumber shouldFree)).sendSequence pc =
      s.sendSequence pc := by
    simp only [AckNet.step, AckNet.sendSequence, AckCnx.dequeueRetransmitPacket,
      Function.update_self]
  refine { h with
    below := fun p hp => hnext ▸ h.below p hp
    queue := hqueue ▸ List.filter_sublist.trans h.queue
    settled := fun p hp => ?_ }
  rw [hqueue]
  obtain hp | hp | hp := h.settled p hp
  · by_cases heq : p.sequenceNumber = sequenceNumber
    · exact Or.inr (Or.inl (heq ▸ List.mem_cons_self))
    · exact Or.inl (List.mem_filter.mpr ⟨hp, by simpa using heq⟩)
  · exact Or.inr (Or.inl (List.mem_cons_of_mem _ hp))
  · exact Or.inr (Or.inr hp)

theorem receive (e : AckEvent) : (s.receive e).Sound pc := by
  have hgood := (AckContext.step_good h.good e).1
  have hcovers := fun n => AckContext.covers_of_step h.good (e := e) (n := n)
  cases e with
  | receive pn currentTime =>
    rw [AckNet.receive]
    split_ifs with hsent
    · have hsub := List.subset_cons_self (pn : ℕ) s.received
      refine { h with
        good := hgood
        covers := fun n hn => ?_
        arrived := List.forall_mem_cons.mpr ⟨?_, h.arrived⟩
        frames := fun frame hframe => (h.frames frame hframe).mono hsub
        acknowledged := fun n hn => hsub (h.acknowledged n hn)
        settled := fun p hp => (h.settled p hp).imp_right (Or.imp_right fun hp => hsub hp) }
      · obtain hn | ⟨_, _, heq, rfl⟩ := hcovers n hn
        · exact hsub (h.covers n hn)
        · cases heq
          exact List.mem_cons_self
      · simpa [List.any_eq_true] using hsent
    · exact h
  | _ =>
    -- the other events only take numbers away
    refine { h with good := hgood, covers := fun n hn => h.covers n ?_ }
    exact (hcovers n hn).resolve_right fun ⟨_, _, heq, _⟩ => by cases heq

theorem sendAck (params : AckFormatParameters) (space currentTime : ℕ)
    (needTimeStamp : Bool) (isOpportunistic : Fin 2) :
    (s.step pc (.sendAck params space currentTime needTimeStamp isOpportunistic)).Sound pc := by
  have hkeeps := formatAckFrameInContext_keeps
    (P := fun l => l.Good ∧ ∀ n, SackCovers l.ackTree n → n ∈ s.received)
    (fun l i o hl => ⟨(hl.1.recordSent i o).1, fun n hn => hl.2 n (covers_of_recordSent hn)⟩)
    params space currentTime needTimeStamp none isOpportunistic ⟨h.good, h.covers⟩
  refine { h with good := hkeeps.1, covers := hkeeps.2, frames := fun frame hframe => ?_ }
  dsimp only [step] at hframe
  split_ifs at hframe with hnil
  · exact h.frames frame hframe
  · obtain rfl | hframe := List.mem_cons.mp hframe
    · exact fun ackDelayExponent => ⟨_, soundAckFrame_of_plain params space currentTime
        needTimeStamp isOpportunistic ackDelayExponent h.good.canonical hnil, h.covers⟩
    · exact h.frames frame hframe

theorem deliverAck (hframe : frame ∈ s.frames) (currentTime : ℕ) :
    (s.deliverAck pc frame currentTime).Sound pc := by
  obtain ⟨l, hsound, hl⟩ := h.frames frame hframe s.sender.ackDelayExponent
  obtain ⟨isEcn, header, ranges, rest, hkind, hheader, -, hranges, hecn, hcovers, -⟩ :=
    hsound.decode
  have hreceived : ∀ n, (∃ r ∈ ranges, r.Acks n) → n ∈ s.received :=
    fun n ⟨r, hr, hn⟩ => hl n (hcovers r hr n hn)
  have hsend : header.largest < s.sendSequence pc := by
    obtain ⟨p, hp, hlargest, -⟩ := h.arrived _ (hreceived _ (exists_acks_largest hranges))
    exact hlargest ▸ h.below p hp
  -- numbers are not used twice, so that what was received is not a trap
  have hnodup : (s.sent.map (·.sequenceNumber)).Nodup :=
    List.pairwise_map.mpr (h.newestFirst.imp fun hlt => hlt.ne')
  have htrap : ∀ p ∈ s.queue pc, ∀ r ∈ ranges, r.Acks p.sequenceNumber →
      p.isAckTrap = false := by
    intro p hp r hr hacks
    obtain ⟨q, hq, heq, htrap⟩ := h.arrived _ (hreceived _ ⟨r, hr, hacks⟩)
    rwa [List.inj_on_of_nodup_map hnodup hq (h.queue.subset hp) heq] at htrap
  obtain ⟨sender, effects, hdecode, hacked⟩ := decodeAckFrame_ok currentTime hheader hranges hecn
    (h.newestFirst.sublist h.queue) hsend htrap
  rw [AckNet.deliverAck, hkind]
  dsimp only [Option.isSome_none]
  rw [hdecode]
  refine { h with
    below := fun p hp => (h.below p hp).trans_eq hacked.sendSequence.symm
    queue := hacked.sublist.trans h.queue
    acknowledged := fun n hn => ?_
    settled := fun p hp => ?_ }
  · obtain hn | hn := List.mem_append.mp hn
    · exact hreceived n (hacked.reported n hn)
    · exact h.acknowledged n hn
  · obtain hp | hp := h.settled p hp
    · exact (hacked.left p hp).imp_right fun hacks => Or.inr (hreceived _ hacks)
    · exact Or.inr hp

theorem step (e : AckNetEvent φ) : (s.step pc e).Sound pc := by
  cases e with
  | transmit p length => exact h.transmit p length
  | declareLost sequenceNumber shouldFree => exact h.declareLost sequenceNumber shouldFree
  | receiver e => exact h.receive e
  | ecn receivedEcn =>
    have hsame : (ecnAccounting s.receiver receivedEcn).sackList = s.receiver.sackList := by
      rw [ecnAccounting.eq_def]
      split <;> rfl
    exact { h with good := hsame.symm ▸ h.good, covers := hsame.symm ▸ h.covers }
  | sendAck params space currentTime needTimeStamp isOpportunistic =>
    exact h.sendAck params space currentTime needTimeStamp isOpportunistic
  | deliverAck frame currentTime =>
    rw [AckNet.step]
    split_ifs with hframe
    · exact h.deliverAck hframe currentTime
    · exact h

end

end Sound

theorem sound_init (first : ℕ) (paths : Paths) (ackDelayExponent : ℕ) (horizonDelay : ℤ) :
    (init first paths ackDelayExponent horizonDelay : AckNet φ).Sound pc where
  newestFirst := List.Pairwise.nil
  below := List.forall_mem_nil _
  queue := List.Sublist.refl _
  good := AckContext.initial_good horizonDelay
  covers _ hn := absurd hn covers_nil
  arrived := List.forall_mem_nil _
  frames := List.forall_mem_nil _
  acknowledged := List.forall_mem_nil _
  settled := List.forall_mem_nil _
  refused := rfl

/-- **Acknowledgements are true.** In every run the sender accepts all frames, and takes for
acknowledged only what the receiver received; what it sent is still waiting, was declared lost, or
was received. -/
theorem acknowledged_received (pc : Fin 3) (first : ℕ) (paths : Paths) (ackDelayExponent : ℕ)
    (horizonDelay : ℤ) (evs : List (AckNetEvent φ)) :
    let s := run (step pc) (init first paths ackDelayExponent horizonDelay) evs
    s.refused = 0 ∧ (∀ n ∈ s.acknowledged, n ∈ s.received) ∧
      ∀ p ∈ s.sent, p ∈ s.queue pc ∨ p.sequenceNumber ∈ s.lost ∨
        p.sequenceNumber ∈ s.received := by
  have hs := run_invariant (I := Sound pc) (fun _ e hs => hs.step e)
    (sound_init first paths ackDelayExponent horizonDelay) evs
  exact ⟨hs.refused, hs.acknowledged, hs.settled⟩

end AckNet

end Picoquic
