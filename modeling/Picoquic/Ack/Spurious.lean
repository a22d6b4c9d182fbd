import Picoquic.Ack.Decode

/-!
# Spurious retransmissions

A packet that was declared lost and is acknowledged after all was retransmitted for nothing. The
retransmitted packets of a context are compared with each acknowledged range, from a cursor towards
the older entries, up to the first one whose number is below the range. The entries are in the order
in which the losses were declared, which is not that of their numbers when several paths share the
number space: behind an entry below the range there may be packets of the range.

* **`checkSpuriousRetransmission_eq`** — what a scan does, by the entries it reaches;
* **`spurious_exact_iff`** — the packets of the range leave the list and are counted, each once, and
  no others, exactly when the scan reaches all of them.
-/

namespace Picoquic

variable {φ : Type}

/-- Whether the number of a packet is in the range of a scan. -/
def Packet.inRange (startOfRange endOfRange : ℕ) (p : Packet φ) : Bool :=
  startOfRange ≤ p.sequenceNumber && p.sequenceNumber ≤ endOfRange

/-- The entries that a scan reaches. -/
def reached (startOfRange : ℕ) (l : List (Packet φ)) : List (Packet φ) :=
  l.takeWhile fun p => startOfRange ≤ p.sequenceNumber

/-- The entries that a scan does not reach, from the one at which it stops. -/
def unreached (startOfRange : ℕ) (l : List (Packet φ)) : List (Packet φ) :=
  l.dropWhile fun p => startOfRange ≤ p.sequenceNumber

/-- A loss is declared, and the packet kept: it leaves the queue and becomes the newest of the
retransmitted packets. -/
def PacketContext.declareLost (ctx : PacketContext φ) (sequenceNumber : ℕ) : PacketContext φ :=
  { ctx with
    retransmitQueue := ctx.retransmitQueue.filter (·.sequenceNumber ≠ sequenceNumber)
    retransmitted :=
      ctx.retransmitQueue.filter (·.sequenceNumber = sequenceNumber) ++ ctx.retransmitted }

/-! ### One scan -/

/-- The paths after the spurious retransmissions of a list of packets. -/
def recordAllSpurious (ctx : PacketContext φ) (currentTime : ℕ) (l : List (Packet φ))
    (paths : Paths) : Paths :=
  l.foldl (fun paths p => p.onSendPath (·.recordSpurious ctx p currentTime) paths) paths

/-- **What a scan does.** Of the entries it reaches those in the range leave, and are recorded in
order; the others are passed. -/
theorem checkSpuriousRetransmission_eq (ctx : PacketContext φ)
    (startOfRange endOfRange currentTime : ℕ) (newer cursor : List (Packet φ)) (paths : Paths)
    (effects : List (AckEffect φ)) :
    checkSpuriousRetransmission ctx startOfRange endOfRange currentTime newer cursor paths effects =
      ⟨((reached startOfRange cursor).filter (!·.inRange startOfRange endOfRange)).reverse ++
          newer,
        unreached startOfRange cursor,
        recordAllSpurious ctx currentTime
          ((reached startOfRange cursor).filter (·.inRange startOfRange endOfRange)) paths,
        effects ++ ((reached startOfRange cursor).filter
          (·.inRange startOfRange endOfRange)).flatMap spuriousEffects⟩ := by
  induction cursor generalizing newer paths effects with
  | nil => simp [checkSpuriousRetransmission, reached, unreached, recordAllSpurious]
  | cons p older ih =>
    rw [checkSpuriousRetransmission]
    by_cases hbelow : p.sequenceNumber < startOfRange
    · -- the scan stops here
      have hnot : ¬ startOfRange ≤ p.sequenceNumber := by omega
      simp [hbelow, hnot, reached, unreached, recordAllSpurious]
    · have hle : startOfRange ≤ p.sequenceNumber := by omega
      have hreached : reached startOfRange (p :: older) = p :: reached startOfRange older := by
        simp [reached, hle]
      have hunreached : unreached startOfRange (p :: older) = unreached startOfRange older := by
        simp [unreached, hle]
      rw [if_neg hbelow, hreached, hunreached]
      by_cases hend : p.sequenceNumber ≤ endOfRange
      · have hin : p.inRange startOfRange endOfRange = true := by simp [Packet.inRange, hle, hend]
        rw [if_pos hend, ih]
        simp [hin, recordAllSpurious, List.append_assoc]
      · have hin : p.inRange startOfRange endOfRange = false := by simp [Packet.inRange, hend]
        rw [if_neg hend, ih]
        simp [hin]

/-! ### Counting -/

theorem nbSpurious_trackAckedPacket (path : PathX) (p : Packet φ) (currentTime : ℕ) :
    (path.trackAckedPacket p currentTime).nbSpurious = path.nbSpurious := by
  rw [PathX.trackAckedPacket]
  split_ifs <;> rfl

theorem nbSpurious_recordSpurious (path : PathX) (ctx : PacketContext φ) (p : Packet φ)
    (currentTime : ℕ) :
    (path.recordSpurious ctx p currentTime).nbSpurious = path.nbSpurious + 1 := by
  have htrack := nbSpurious_trackAckedPacket { path with nbSpurious := path.nbSpurious + 1 } p
    currentTime
  rw [PathX.recordSpurious]
  dsimp only
  split_ifs
  · exact htrack
  · exact htrack

/-- A path counts the packets that were sent on it. -/
theorem nbSpurious_recordAllSpurious (ctx : PacketContext φ) (currentTime : ℕ)
    (l : List (Packet φ)) (paths : Paths) (j : ℕ) :
    (recordAllSpurious ctx currentTime l paths j).nbSpurious =
      (paths j).nbSpurious + l.countP fun p => p.sendPath = some j := by
  induction l generalizing paths with
  | nil => rfl
  | cons p l ih =>
    have hstep : (p.onSendPath (·.recordSpurious ctx p currentTime) paths j).nbSpurious =
        (paths j).nbSpurious + if p.sendPath = some j then 1 else 0 := by
      rw [Packet.onSendPath]
      cases hpath : p.sendPath with
      | none => simp
      | some path =>
        by_cases hj : j = path
        · subst hj
          simp [nbSpurious_recordSpurious]
        · have hne : ¬ path = j := fun h => hj h.symm
          simp [Function.update_of_ne hj, hne]
    have hrest := ih (p.onSendPath (·.recordSpurious ctx p currentTime) paths)
    rw [hstep] at hrest
    refine hrest.trans ?_
    rw [List.countP_cons]
    by_cases hpath : p.sendPath = some j
    · simp only [hpath, if_true, decide_true]
      omega
    · simp only [hpath, if_false, decide_false, Bool.false_eq_true]
      omega

/-! ### Exactness -/

/-- What a scan is to do with a list of retransmitted packets: those in the range leave, each is
counted once, for its path and for the connection, and reported once, and the others stay. -/
structure SpuriousExact (startOfRange endOfRange : ℕ) (l : List (Packet φ)) (paths : Paths)
    (effects : List (AckEffect φ)) (w : AckWalk φ) : Prop where
  packets : w.packets = l.filter (!·.inRange startOfRange endOfRange)
  effects : w.effects =
    effects ++ (l.filter (·.inRange startOfRange endOfRange)).flatMap spuriousEffects
  nbSpurious_path : ∀ j, (w.paths j).nbSpurious = (paths j).nbSpurious +
    (l.filter (·.inRange startOfRange endOfRange)).countP fun p => p.sendPath = some j
  nbSpurious : l.length - w.packets.length =
    (l.filter (·.inRange startOfRange endOfRange)).length

/-- No packet of the range was passed before the scan or is out of its reach. -/
def AllReached (startOfRange endOfRange : ℕ) (newer cursor : List (Packet φ)) : Prop :=
  (∀ p ∈ newer, p.inRange startOfRange endOfRange = false) ∧
    ∀ p ∈ unreached startOfRange cursor, p.inRange startOfRange endOfRange = false

theorem reached_append_unreached (startOfRange : ℕ) (l : List (Packet φ)) :
    reached startOfRange l ++ unreached startOfRange l = l :=
  List.takeWhile_append_dropWhile

private theorem forall_of_length_le_filter {α : Type*} {q : α → Bool} {l : List α}
    (h : l.length ≤ (l.filter q).length) : ∀ a ∈ l, q a = true := by
  have hlen : (l.filter q).length = l.length := Nat.le_antisymm (List.length_filter_le q l) h
  exact List.length_filter_eq_length_iff.mp hlen

variable {startOfRange endOfRange : ℕ}

private theorem filter_of_out {l : List (Packet φ)}
    (h : ∀ p ∈ l, p.inRange startOfRange endOfRange = false) :
    l.filter (·.inRange startOfRange endOfRange) = [] :=
  List.filter_eq_nil_iff.mpr fun p hp => by simp [h p hp]

private theorem filter_not_of_out {l : List (Packet φ)}
    (h : ∀ p ∈ l, p.inRange startOfRange endOfRange = false) :
    l.filter (!·.inRange startOfRange endOfRange) = l :=
  List.filter_eq_self.mpr fun p hp => by simp [h p hp]

/-- **Spurious retransmission detection.** For every list of retransmitted packets, split at any
cursor, and every range: the scan is exact if and only if it reaches all packets of the range. -/
theorem spurious_exact_iff (ctx : PacketContext φ) (startOfRange endOfRange currentTime : ℕ)
    (newer cursor : List (Packet φ)) (paths : Paths) (effects : List (AckEffect φ)) :
    SpuriousExact startOfRange endOfRange (newer.reverse ++ cursor) paths effects
        (checkSpuriousRetransmission ctx startOfRange endOfRange currentTime newer cursor paths
          effects) ↔
      AllReached startOfRange endOfRange newer cursor := by
  have hsplit : newer.reverse ++ cursor =
      newer.reverse ++ (reached startOfRange cursor ++ unreached startOfRange cursor) := by
    rw [reached_append_unreached]
  rw [checkSpuriousRetransmission_eq, hsplit]
  constructor
  · -- what stays is no longer than the filtered list, so nothing of the rest is in the range
    intro h
    have hpackets := congrArg List.length h.packets
    simp only [AckWalk.packets, List.reverse_append, List.reverse_reverse, List.filter_append,
      List.filter_reverse, List.length_append, List.length_reverse] at hpackets
    have hnewer := List.length_filter_le (!·.inRange startOfRange endOfRange) newer
    have hrest := List.length_filter_le (!·.inRange startOfRange endOfRange)
      (unreached startOfRange cursor)
    constructor
    · intro p hp
      simpa using forall_of_length_le_filter (q := (!·.inRange startOfRange endOfRange))
        (l := newer) (by omega) p hp
    · intro p hp
      simpa using forall_of_length_le_filter (q := (!·.inRange startOfRange endOfRange))
        (l := unreached startOfRange cursor) (by omega) p hp
  · rintro ⟨hnewer, hrest⟩
    have hnewer' : ∀ p ∈ newer.reverse, p.inRange startOfRange endOfRange = false := fun p hp =>
      hnewer p (List.mem_reverse.mp hp)
    have hin : (newer.reverse ++
        (reached startOfRange cursor ++ unreached startOfRange cursor)).filter
        (·.inRange startOfRange endOfRange) =
          (reached startOfRange cursor).filter (·.inRange startOfRange endOfRange) := by
      rw [List.filter_append, List.filter_append, filter_of_out hnewer', filter_of_out hrest,
        List.nil_append, List.append_nil]
    have hout : (newer.reverse ++
        (reached startOfRange cursor ++ unreached startOfRange cursor)).filter
        (!·.inRange startOfRange endOfRange) =
          newer.reverse ++ ((reached startOfRange cursor).filter
            (!·.inRange startOfRange endOfRange) ++ unreached startOfRange cursor) := by
      rw [List.filter_append, List.filter_append, filter_not_of_out hnewer',
        filter_not_of_out hrest]
    have hpackets : (newer.reverse ++ (reached startOfRange cursor ++
        unreached startOfRange cursor)).filter (!·.inRange startOfRange endOfRange) =
          (((reached startOfRange cursor).filter
            (!·.inRange startOfRange endOfRange)).reverse ++ newer).reverse ++
              unreached startOfRange cursor := by
      rw [hout, List.reverse_append, List.reverse_reverse, List.append_assoc]
    refine ⟨hpackets.symm, by rw [hin], fun j => ?_, ?_⟩
    · rw [hin]
      exact nbSpurious_recordAllSpurious ctx currentTime _ paths j
    · have hlen := List.length_eq_length_filter_add
        (l := newer.reverse ++ (reached startOfRange cursor ++ unreached startOfRange cursor))
        (·.inRange startOfRange endOfRange)
      rw [AckWalk.packets, ← hpackets]
      omega

/-! ### Losses that are not declared in order -/

/-- A 1-RTT packet in the number space that two paths share. -/
def sharedPacket (sequenceNumber path : ℕ) : Packet Unit :=
  ⟨sequenceNumber, .epoch 0, some path, 1, 0, 100, 16, false, ()⟩

/-- Packet `1` was sent on path `0` and packet `2` on path `1`; the loss of packet `2` is declared
first. -/
def lossesCtx : PacketContext Unit :=
  ((⟨3, 2 ^ 64 - 1, 0, 0, [sharedPacket 2 1, sharedPacket 1 0], [], 0, 0, 0, false⟩ :
    PacketContext Unit).declareLost 2).declareLost 1

/-- Both paths before their first packets. -/
def freshPaths : Paths := fun _ =>
  ⟨0, false, [], 0, false, false, 0, 0, 0, 0, 1280, 1280, 0, false, 0, 0, 0, 0, 0, 0⟩

/-- An acknowledgement of packet `2` stops at packet `1`: packet `2` stays, and is not counted. -/
theorem spurious_missed :
    lossesCtx.retransmitted = [sharedPacket 1 0, sharedPacket 2 1] ∧
      (checkSpuriousRetransmission lossesCtx 2 2 0 [] lossesCtx.retransmitted freshPaths
        []).packets = [sharedPacket 1 0, sharedPacket 2 1] ∧
      (checkSpuriousRetransmission lossesCtx 2 2 0 [] lossesCtx.retransmitted freshPaths
        []).effects.length = 0 ∧
      ((checkSpuriousRetransmission lossesCtx 2 2 0 [] lossesCtx.retransmitted freshPaths
        []).paths 1).nbSpurious = 0 ∧
      ¬ SpuriousExact 2 2 lossesCtx.retransmitted freshPaths []
        (checkSpuriousRetransmission lossesCtx 2 2 0 [] lossesCtx.retransmitted freshPaths []) := by
  refine ⟨by decide, by decide, by decide, by decide, fun h => ?_⟩
  exact absurd h.packets (by decide)

end Picoquic
