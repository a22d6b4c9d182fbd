import Picoquic.Flight.Transit

/-!
# Implicit acknowledgements of the handshake

When the handshake is complete its packets count as acknowledged, and their queue is to be emptied.
The loop starts with the oldest packet and goes on to `next_packet`, which is the next older one: it
ends after the first packet.

* **`implicitHandshakeAck_eq`** — the oldest packet leaves, and no other;
* **`emptiedByHandshakeAck_iff`** — the queue is emptied, and the bytes of the paths are reduced by
  those of the packets that leave, exactly for a queue of at most one packet whose path counts it.
-/

namespace Picoquic

open Runs

namespace Flight

/-- The packets in the queue of a space. -/
def queued (s : Flight) (i : ℕ) : List ℕ :=
  s.inUse.filter fun a => (s.packets a).isQueuedForRetransmit && (s.packets a).space == i

/-- The sizes of the packets of a list that were sent on a path. A trap has no size. -/
def sizesOnPath (s : Flight) (l : List ℕ) (j : ℕ) : ℕ :=
  ((l.filter fun a => (s.packets a).sendPath = some j).map fun a => charge (s.packets a)).sum

/-- What an implicit acknowledgement is to do: the queue of the space is empty, and each path counts
what it counted before without the packets that have left. -/
structure EmptiedByHandshakeAck (s : Flight) (i : ℕ) (s' : Flight) : Prop where
  newest : (s'.contexts i).retransmitNewest = none
  oldest : (s'.contexts i).retransmitOldest = none
  bytes : ∀ j, (s'.paths j).bytesInTransit +
    s.sizesOnPath ((s.queued i).filter fun a => a ∉ s'.queued i) j = (s.paths j).bytesInTransit

/-- The queue has at most one packet, and the path of that packet counts it. -/
def AtMostOneCounted (s : Flight) (i : ℕ) : Prop :=
  (s.contexts i).retransmitNewest = (s.contexts i).retransmitOldest ∧
    ∀ a ∈ (s.contexts i).retransmitOldest, ∀ j ∈ (s.packets a).sendPath,
      charge (s.packets a) ≤ (s.paths j).bytesInTransit

variable {s : Flight} {L : Layout} {i : ℕ}

theorem mem_queued (hL : s.Linked L none) {a : ℕ} : a ∈ s.queued i ↔ a ∈ L.queue i := by
  rw [hL.mem_queue, queued]
  simp

/-- **The oldest packet leaves, and no other**: nothing is older. -/
theorem implicitHandshakeAck_eq (hL : s.Linked L none) (i : ℕ) :
    s.implicitHandshakeAck i =
      match (s.contexts i).retransmitOldest with
      | none => s
      | some a => s.dequeueRetransmitPacket i a true := by
  have hlast : (s.contexts i).retransmitOldest = (L.queue i).getLast? := (hL.queue_is i).last_eq
  rw [implicitHandshakeAck]
  cases holdest : (s.contexts i).retransmitOldest with
  | none => cases s.inUse.length <;> rfl
  | some a =>
    rw [holdest] at hlast
    obtain ⟨newer, hqueue⟩ := List.getLast?_eq_some_iff.mp hlast.symm
    have hnext : (s.packets a).next = none := by
      have hlist := hL.queue_is i
      rw [hqueue] at hlist
      exact hlist.neighbours.1
    have huse : a ∈ s.inUse := hL.inUse_of_mem_queue (i := i) (by simp [hqueue])
    obtain ⟨n, hn⟩ : ∃ n, s.inUse.length = n + 1 :=
      Nat.exists_eq_succ_of_ne_zero (List.length_pos_of_mem huse).ne'
    rw [hn, dequeueAlong, hnext]
    cases n <;> rfl

theorem sizesOnPath_singleton (s : Flight) (a j : ℕ) :
    s.sizesOnPath [a] j = if (s.packets a).sendPath = some j then charge (s.packets a) else 0 := by
  by_cases h : (s.packets a).sendPath = some j <;> simp [sizesOnPath, h]

/-- What the packet that leaves takes away from its path: a difference below zero is cut off. -/
theorem bytesInTransit_dequeue (s : Flight) (i a j : ℕ) :
    ((s.dequeueRetransmitPacket i a true).paths j).bytesInTransit =
      (s.paths j).bytesInTransit - s.sizesOnPath [a] j := by
  have hcharge : charge ((s.unqueue i a).packets a) = charge (s.packets a) :=
    charge_eq_of_stamp (stamp_unqueue s i a a)
  have hsend : ((s.unqueue i a).packets a).sendPath = (s.packets a).sendPath :=
    congrArg Prod.fst (stamp_unqueue s i a a)
  rw [bytesInTransit_dequeueRetransmitPacket, sizesOnPath_singleton, ← hcharge, discharge.eq_def,
    hsend]
  cases hpath : (s.packets a).sendPath with
  | none => simp [paths_unqueue]
  | some j' =>
    dsimp only
    by_cases hj : j = j'
    · subst hj
      rw [if_pos rfl, charge]
      split_ifs <;> simp [setPath, paths_unqueue]
    · have hne : some j' ≠ some j := fun h => hj (Option.some.inj h).symm
      rw [if_neg hne]
      split_ifs <;> simp [setPath, paths_unqueue, hj]

theorem queued_eq_singleton (hL : s.Linked L none) {a : ℕ} (hqueue : L.queue i = [a]) :
    s.queued i = [a] := by
  have hperm : (s.queued i).Perm [a] := by
    refine (List.perm_ext_iff_of_nodup (hL.nodup.filter _) (List.nodup_singleton a)).mpr fun b => ?_
    rw [← hqueue]
    exact mem_queued hL
  exact List.perm_singleton.mp hperm

theorem queued_eq_nil (hL : s.Linked L none) (hqueue : L.queue i = []) : s.queued i = [] := by
  refine List.eq_nil_iff_forall_not_mem.mpr fun b hb => ?_
  have := (mem_queued hL).mp hb
  rw [hqueue] at this
  exact List.not_mem_nil this

/-- **The implicit acknowledgement.** In every state whose pointers are those of lists, and for
every space, the queue is emptied and the bytes in transit are reduced by what leaves if and only
if the queue has at most one packet, and its path counts it. -/
theorem emptiedByHandshakeAck_iff (hL : s.Linked L none) (i : ℕ) :
    EmptiedByHandshakeAck s i (s.implicitHandshakeAck i) ↔ s.AtMostOneCounted i := by
  have hfirst : (s.contexts i).retransmitNewest = (L.queue i).head? := (hL.queue_is i).first_eq
  have hlast : (s.contexts i).retransmitOldest = (L.queue i).getLast? := (hL.queue_is i).last_eq
  rw [implicitHandshakeAck_eq hL]
  rcases List.eq_nil_or_concat (L.queue i) with hqueue | ⟨newer, a, hqueue⟩
  · -- nothing is queued, and nothing happens
    rw [hqueue] at hfirst hlast
    have hnone : (s.contexts i).retransmitOldest = none := hlast
    rw [hnone]
    refine iff_of_true ⟨hfirst, hnone, fun j => ?_⟩ ⟨hfirst.trans hnone.symm, by simp [hnone]⟩
    simp [queued_eq_nil hL hqueue, sizesOnPath]
  · rw [List.concat_eq_append] at hqueue
    have hsome : (s.contexts i).retransmitOldest = some a := by
      rw [hlast, hqueue, List.getLast?_concat]
    have hmem : a ∈ L.queue i := by simp [hqueue]
    have hnodup : (newer ++ [a]).Nodup := hqueue ▸ (hL.queue_is i).nodup
    have hnot : a ∉ newer := fun h =>
      (List.nodup_append.mp hnodup).2.2 a h a List.mem_cons_self rfl
    obtain ⟨r, hr⟩ := hL.dequeueRetransmitPacket hmem true
    have hrest : (L.without i a r).queue i = newer := by
      rw [Layout.queue_without, hqueue, List.erase_append_right _ hnot, List.erase_cons_head,
        List.append_nil]
    have hfirst' := (hr.queue_is i).first_eq
    have hlast' := (hr.queue_is i).last_eq
    rw [hrest] at hfirst' hlast'
    rw [hsome]
    rcases newer with _ | ⟨b, newer⟩
    · -- the only packet leaves
      have hqueued := queued_eq_singleton hL hqueue
      have hqueued' := queued_eq_nil hr hrest
      have hnewest : (s.contexts i).retransmitNewest = some a := by rw [hfirst, hqueue]; rfl
      have hbytes : ∀ j, ((s.dequeueRetransmitPacket i a true).paths j).bytesInTransit +
          s.sizesOnPath ((s.queued i).filter
            fun a' => a' ∉ (s.dequeueRetransmitPacket i a true).queued i) j =
          (s.paths j).bytesInTransit ↔ s.sizesOnPath [a] j ≤ (s.paths j).bytesInTransit := by
        intro j
        rw [hqueued, hqueued', bytesInTransit_dequeue]
        simp only [List.not_mem_nil, not_false_eq_true, decide_true, List.filter_true]
        omega
      constructor
      · rintro ⟨-, -, h⟩
        refine ⟨hnewest.trans hsome.symm, ?_⟩
        rintro a' ha' j hj
        rw [hsome] at ha'
        obtain rfl := Option.some.inj ha'
        have := (hbytes j).mp (h j)
        rw [Option.mem_def] at hj
        simpa [sizesOnPath_singleton, hj] using this
      · rintro ⟨-, h⟩
        refine ⟨hfirst', hlast', fun j => (hbytes j).mpr ?_⟩
        by_cases hj : (s.packets a).sendPath = some j
        · simpa [sizesOnPath_singleton, hj] using h a hsome j hj
        · simp [sizesOnPath_singleton, hj]
    · -- a newer packet stays
      refine iff_of_false (fun h => ?_) fun h => ?_
      · have := hfirst'.symm.trans h.newest
        simp at this
      · have hne : b ≠ a := fun heq => hnot (heq ▸ List.mem_cons_self)
        have := h.1
        rw [hfirst, hqueue, hsome] at this
        exact hne (Option.some.inj this)

theorem linked_run (first : ℕ → ℕ) (evs : List Event) : ∃ L, (run first evs).Linked L none := by
  have hstep : ∀ (s : Flight) (e : Event), (∃ L, s.Accounted L False) →
      ∃ L, (step s e).Accounted L False := by
    rintro s e ⟨L, hL⟩
    exact hL.step (e := e) fun h => h.elim
  obtain ⟨L, hL⟩ := run_invariant hstep ⟨_, accounted_init first False⟩ evs
  exact ⟨L, hL.linked⟩

/-! ### A queue of two packets -/

/-- A packet of the handshake context, sent by a client. -/
def handshakePacket (address : ℕ) : Transmission where
  caller := .almostReady
  isOldContext := false
  address := address
  path := 0
  pc := 1
  isOneRtt := false
  sendTime := 0
  length := 100
  headerLength := 30
  writtenHeaderLength := 30
  fuzzedLength := 100
  aeadChecksumLength := 16

/-- A connection that sent one handshake packet. -/
def oneHandshakePacket : Flight := run (fun _ => 0) [.createPath 0 0, .transmit (handshakePacket 1)]

/-- A connection that sent two handshake packets. -/
def twoHandshakePackets : Flight :=
  run (fun _ => 0) [.createPath 0 0, .transmit (handshakePacket 1), .transmit (handshakePacket 2)]

theorem emptiedByHandshakeAck_one :
    EmptiedByHandshakeAck oneHandshakePacket 1 (oneHandshakePacket.implicitHandshakeAck 1) := by
  obtain ⟨L, hL⟩ := linked_run (fun _ => 0) [.createPath 0 0, .transmit (handshakePacket 1)]
  refine (@emptiedByHandshakeAck_iff oneHandshakePacket L hL 1).mpr ⟨by decide, ?_⟩
  intro a ha j hj
  have holdest : (oneHandshakePacket.contexts 1).retransmitOldest = some 1 := by decide
  have hpath : (oneHandshakePacket.packets 1).sendPath = some 0 := by decide
  obtain rfl : 1 = a := Option.some.inj (holdest.symm.trans ha)
  obtain rfl : 0 = j := Option.some.inj (hpath.symm.trans hj)
  decide

/-- The newer one of two packets stays in the queue, and in transit. -/
theorem newer_handshake_packet_stays :
    twoHandshakePackets.queued 1 = [2, 1] ∧
      (twoHandshakePackets.implicitHandshakeAck 1).queued 1 = [2] ∧
      ((twoHandshakePackets.implicitHandshakeAck 1).contexts 1).retransmitNewest = some 2 ∧
      ((twoHandshakePackets.implicitHandshakeAck 1).paths 0).bytesInTransit = 116 ∧
      ¬ EmptiedByHandshakeAck twoHandshakePackets 1
        (twoHandshakePackets.implicitHandshakeAck 1) := by
  refine ⟨by decide, by decide, by decide, by decide, fun h => ?_⟩
  exact absurd h.newest (by decide)

end Flight

end Picoquic
