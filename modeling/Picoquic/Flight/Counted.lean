import Picoquic.Flight.Moves

/-!
# Packets that are counted

* `stamp` — what a packet was sent with, which no operation on the lists changes;
* `Accounted` — the pointers are those of a layout, and each path counts the bytes of its packets;
* `Accounted.dequeueRetransmitPacket` — both stay true when a packet leaves its queue;
* `Accounted.queueForRetransmit` — both stay true when a packet enters, if what is added to the
  counter is what is taken away later.
-/

namespace Picoquic

namespace Flight

/-! ### What stays -/

/-- What a packet was sent with. No operation on the lists changes it. -/
def stamp (p : FlightPacket) : Option ℕ × ℕ × ℕ × ℕ × ℕ × Bool × ℕ :=
  (p.sendPath, p.sequenceNumber, p.sendTime, p.length, p.checksumOverhead, p.isAckTrap, p.space)

section Frame

variable (s : Flight) (i j a b : ℕ)

theorem stamp_unqueue : stamp ((s.unqueue i a).packets b) = stamp (s.packets b) := by
  rw [unqueue]
  split_ifs
  · refine (setPacket_field stamp ?_ b).trans ?_ <;> rfl
  · rfl

theorem paths_unqueue : (s.unqueue i a).paths = s.paths := by
  rw [unqueue]
  split_ifs <;> rfl

/-- Only a path changes. -/
theorem discharge_eq : ∃ x, s.discharge a = { s with paths := x } := by
  rw [discharge.eq_def]
  cases (s.packets a).sendPath with
  | none => exact ⟨_, rfl⟩
  | some j =>
    dsimp only
    split_ifs <;> exact ⟨_, rfl⟩

theorem packets_discharge : (s.discharge a).packets = s.packets := by
  obtain ⟨x, h⟩ := discharge_eq s a
  rw [h]

/-- Only packets and a path change. -/
theorem dequeuePacketFromPath_eq :
    ∃ p x, s.dequeuePacketFromPath a = { s with packets := p, paths := x } := by
  rw [dequeuePacketFromPath]
  cases (s.packets a).sendPath with
  | none => exact ⟨_, _, rfl⟩
  | some j =>
    dsimp only
    split_ifs <;> exact ⟨_, _, rfl⟩

/-- What does not depend on the list of the path stays. -/
theorem dequeuePacketFromPath_field {α : Type*} (f : FlightPacket → α)
    (hf : ∀ p n q b, f { p with pathNext := n, pathPrevious := q, isQueuedToPath := b } = f p) :
    f ((s.dequeuePacketFromPath a).packets b) = f (s.packets b) := by
  rw [dequeuePacketFromPath]
  cases (s.packets a).sendPath with
  | none => rfl
  | some j =>
    dsimp only
    split_ifs
    · exact setPacket_field f (hf _ _ _ _) b
    · exact (setPacket_field f (hf _ _ _ _) b).trans
        ((setPacket_field f (hf _ _ _ _) b).trans (hf _ _ _ _))
    · rfl

theorem stamp_dequeuePacketFromPath :
    stamp ((s.dequeuePacketFromPath a).packets b) = stamp (s.packets b) :=
  dequeuePacketFromPath_field s a b stamp fun _ _ _ _ => rfl

theorem isQueued_dequeuePacketFromPath :
    ((s.dequeuePacketFromPath a).packets b).isQueuedForRetransmit =
      (s.packets b).isQueuedForRetransmit :=
  dequeuePacketFromPath_field s a b FlightPacket.isQueuedForRetransmit fun _ _ _ _ => rfl

theorem bytesInTransit_dequeuePacketFromPath :
    ((s.dequeuePacketFromPath a).paths j).bytesInTransit = (s.paths j).bytesInTransit := by
  rw [dequeuePacketFromPath]
  cases (s.packets a).sendPath with
  | none => rfl
  | some j' =>
    dsimp only
    by_cases hj : j = j'
    · subst hj
      split_ifs <;> simp [setQueuedToPath, setPacket, setPath, setPathList, clearPathEnds]
    · split_ifs <;> simp [setQueuedToPath, setPacket, setPath, setPathList, hj]

theorem stamp_recyclePacket_of_ne (h : b ≠ a) :
    stamp ((s.recyclePacket a).packets b) = stamp (s.packets b) :=
  congrArg stamp (packets_setPacket_of_ne _ h)

end Frame

theorem charge_eq_of_stamp {p p' : FlightPacket} (h : stamp p' = stamp p) :
    charge p' = charge p := by
  simp only [stamp, Prod.mk.injEq] at h
  obtain ⟨-, -, -, hlength, hoverhead, htrap, -⟩ := h
  rw [charge, charge, hlength, hoverhead, htrap]

/-! ### Counting -/

/-- The bytes in transit of each path are those of its packets. -/
def Counted (s : Flight) (L : Layout) : Prop :=
  ∀ j, (s.paths j).bytesInTransit = ((L.onPath j).map fun a => charge (s.packets a)).sum

theorem sum_charge_congr {s s' : Flight} {l : List ℕ}
    (h : ∀ a ∈ l, charge (s'.packets a) = charge (s.packets a)) :
    (l.map fun a => charge (s'.packets a)).sum = (l.map fun a => charge (s.packets a)).sum :=
  congrArg List.sum (List.map_congr_left h)

/-- The lists are those of a layout, and the counters those of its packets if `m` is true. -/
structure Accounted (s : Flight) (L : Layout) (m : Prop) : Prop where
  linked : s.Linked L none
  counted : m → s.Counted L

theorem Accounted.setContext {s : Flight} {L : Layout} {m : Prop} (hs : s.Accounted L m) {i : ℕ}
    {c : FlightContext} (hnewest : c.retransmitNewest = (s.contexts i).retransmitNewest)
    (holdest : c.retransmitOldest = (s.contexts i).retransmitOldest)
    (hnewest' : c.retransmittedNewest = (s.contexts i).retransmittedNewest)
    (holdest' : c.retransmittedOldest = (s.contexts i).retransmittedOldest) :
    (s.setContext i c).Accounted L m :=
  ⟨hs.linked.setContext hnewest holdest hnewest' holdest', hs.counted⟩

/-- A packet that leaves is no longer counted. -/
theorem discharge_counted {s : Flight} {L : Layout} (hs : s.Counted L) {a : ℕ}
    (hpath : ∀ j, a ∈ L.onPath j ↔ (s.packets a).sendPath = some j) (j : ℕ) :
    ((s.discharge a).paths j).bytesInTransit =
      (((L.onPath j).erase a).map fun b => charge (s.packets b)).sum := by
  rw [discharge.eq_def]
  have hsum : ∀ j, a ∈ L.onPath j → (((L.onPath j).erase a).map fun b => charge (s.packets b)).sum =
      (s.paths j).bytesInTransit - charge (s.packets a) := fun j ha => by
    have := List.sum_map_erase (fun b => charge (s.packets b)) ha
    rw [hs j]
    omega
  have hkeep : a ∉ L.onPath j → (s.paths j).bytesInTransit =
      (((L.onPath j).erase a).map fun b => charge (s.packets b)).sum := fun ha => by
    rw [List.erase_of_not_mem ha]
    exact hs j
  cases hsend : (s.packets a).sendPath with
  | none =>
    refine hkeep fun hmem => ?_
    have := (hpath j).mp hmem
    rw [hsend] at this
    exact Option.some_ne_none j this.symm
  | some j' =>
    dsimp only
    by_cases hj : j = j'
    · subst hj
      rw [hsum j ((hpath j).mpr hsend), charge]
      split_ifs with htrap
      · rfl
      · simp [setPath]
    · have hne : a ∉ L.onPath j := fun hmem =>
        hj (Option.some.inj (((hpath j).mp hmem).symm.trans hsend))
      rw [← hkeep hne]
      split_ifs
      · rfl
      · simp [setPath, hj]

/-! ### Packets that leave the queue -/

section InUse

variable (s : Flight) (i a : ℕ)

theorem inUse_unqueue : (s.unqueue i a).inUse = s.inUse := by
  rw [unqueue]
  split_ifs <;> rfl

theorem inUse_discharge : (s.discharge a).inUse = s.inUse := by
  obtain ⟨x, h⟩ := discharge_eq s a
  rw [h]

theorem inUse_dequeuePacketFromPath : (s.dequeuePacketFromPath a).inUse = s.inUse := by
  obtain ⟨p, x, h⟩ := dequeuePacketFromPath_eq s a
  rw [h]

end InUse

/-- The packet is unlinked from all its lists. -/
def detach (s : Flight) (i a : ℕ) : Flight :=
  ((s.unqueue i a).discharge a).dequeuePacketFromPath a

theorem dequeueRetransmitPacket_eq (s : Flight) (i a : ℕ) (shouldFree : Bool) :
    s.dequeueRetransmitPacket i a shouldFree =
      if shouldFree = true ∨ ((s.detach i a).packets a).isAckTrap = true then
        (s.detach i a).recyclePacket a
      else (s.detach i a).keepRetransmitted i a := rfl

theorem stamp_detach (s : Flight) (i a b : ℕ) :
    stamp ((s.detach i a).packets b) = stamp (s.packets b) := by
  rw [detach, stamp_dequeuePacketFromPath, packets_discharge, stamp_unqueue]

theorem inUse_detach (s : Flight) (i a : ℕ) : (s.detach i a).inUse = s.inUse := by
  rw [detach, inUse_dequeuePacketFromPath, inUse_discharge, inUse_unqueue]

theorem stamp_dequeueRetransmitPacket {s : Flight} {i a b : ℕ} {shouldFree : Bool} (h : b ≠ a) :
    stamp ((s.dequeueRetransmitPacket i a shouldFree).packets b) = stamp (s.packets b) := by
  rw [dequeueRetransmitPacket_eq]
  split_ifs
  · rw [stamp_recyclePacket_of_ne _ _ _ h, stamp_detach]
  · exact stamp_detach s i a b

theorem bytesInTransit_dequeueRetransmitPacket (s : Flight) (i a j : ℕ) (shouldFree : Bool) :
    ((s.dequeueRetransmitPacket i a shouldFree).paths j).bytesInTransit =
      (((s.unqueue i a).discharge a).paths j).bytesInTransit := by
  rw [← bytesInTransit_dequeuePacketFromPath ((s.unqueue i a).discharge a) j a,
    dequeueRetransmitPacket_eq]
  split_ifs <;> rfl

section Leave

variable {s : Flight} {L : Layout} {a i : ℕ}

theorem Linked.discharge {h : Option ℕ} (hL : s.Linked L h) : (s.discharge a).Linked L h := by
  rw [Flight.discharge.eq_def]
  cases (s.packets a).sendPath with
  | none => exact hL
  | some j =>
    dsimp only
    split_ifs
    · exact hL
    · exact hL.setBytes j _

/-- The layout without a packet of a queue. -/
def Layout.without (L : Layout) (i a : ℕ) (r : ℕ → List ℕ) : Layout :=
  ⟨Function.update L.queue i ((L.queue i).erase a), r, fun j => (L.onPath j).erase a⟩

theorem Layout.queue_without (L : Layout) (i a : ℕ) (r : ℕ → List ℕ) :
    (L.without i a r).queue i = (L.queue i).erase a :=
  Function.update_self ..

theorem Linked.detach (hL : s.Linked L none) (ha : a ∈ L.queue i) :
    (s.detach i a).Linked (L.without i a L.retransmitted) (some a) := by
  refine (hL.unqueue ha).discharge.dequeuePacketFromPath ?_
  rw [inUse_discharge, inUse_unqueue]
  exact hL.inUse_of_mem_queue ha

/-- A packet that was unlinked is in no queue. -/
theorem Linked.not_mem_without (hL : s.Linked L none) (ha : a ∈ L.queue i) (r : ℕ → List ℕ) :
    (∀ i', a ∉ (L.without i a r).queue i') ∧ ∀ j, a ∉ (L.without i a r).onPath j := by
  refine ⟨fun i' hmem => ?_, fun j hmem => (hL.path_is j).nodup.not_mem_erase hmem⟩
  by_cases hi : i' = i
  · subst hi
    simp only [Layout.without, Function.update_self] at hmem
    exact (hL.queue_is i').nodup.not_mem_erase hmem
  · simp only [Layout.without, Function.update_of_ne hi] at hmem
    exact hi (((hL.mem_queue i' a).mp hmem).2.2.symm.trans ((hL.mem_queue i a).mp ha).2.2)

theorem Linked.dequeueRetransmitPacket (hL : s.Linked L none) (ha : a ∈ L.queue i)
    (shouldFree : Bool) :
    ∃ r, (s.dequeueRetransmitPacket i a shouldFree).Linked (L.without i a r) none := by
  have hmid := hL.detach ha
  obtain ⟨hqueue, hpath⟩ := hL.not_mem_without ha L.retransmitted
  have huse : a ∈ (s.detach i a).inUse := by
    rw [inUse_detach]
    exact hL.inUse_of_mem_queue ha
  rw [dequeueRetransmitPacket_eq]
  split_ifs
  · exact ⟨_, hmid.recyclePacket hqueue hpath⟩
  · have hspace : ((s.detach i a).packets a).space = i := by
      have hstamp := stamp_detach s i a a
      simp only [stamp, Prod.mk.injEq] at hstamp
      exact hstamp.2.2.2.2.2.2.trans ((hL.mem_queue i a).mp ha).2.2
    have hqueued : ((s.detach i a).packets a).isQueuedForRetransmit = false :=
      Bool.eq_false_iff.mpr fun hq => hqueue i ((hmid.mem_queue i a).mpr ⟨huse, hq, hspace⟩)
    refine ⟨_, hmid.keepRetransmitted huse hqueued (fun hsend => ?_) hspace⟩
    obtain ⟨j, hj⟩ := Option.ne_none_iff_exists'.mp hsend
    exact Bool.eq_false_iff.mpr fun hp => hpath j ((hmid.mem_path j a).mpr ⟨huse, hp, hj⟩)

/-- **A packet leaves.** -/
theorem Accounted.dequeueRetransmitPacket {m : Prop} (hs : s.Accounted L m) (ha : a ∈ L.queue i)
    (shouldFree : Bool) :
    ∃ r, (s.dequeueRetransmitPacket i a shouldFree).Accounted (L.without i a r) m := by
  obtain ⟨r, hr⟩ := hs.linked.dequeueRetransmitPacket ha shouldFree
  refine ⟨r, hr, fun hm j => ?_⟩
  have hcharge : ∀ b, charge ((s.unqueue i a).packets b) = charge (s.packets b) := fun b =>
    charge_eq_of_stamp (stamp_unqueue s i a b)
  have hsend : ((s.unqueue i a).packets a).sendPath = (s.packets a).sendPath :=
    congrArg Prod.fst (stamp_unqueue s i a a)
  have hcounted : (s.unqueue i a).Counted L := fun j => by
    rw [paths_unqueue, sum_charge_congr fun b _ => hcharge b]
    exact hs.counted hm j
  rw [bytesInTransit_dequeueRetransmitPacket, discharge_counted hcounted fun j => ?_]
  · -- the packets that stay are charged as before
    refine (sum_charge_congr fun b hb => ?_).symm
    have hne : b ≠ a := fun heq => (hs.linked.path_is j).nodup.not_mem_erase (heq ▸ hb)
    rw [charge_eq_of_stamp (stamp_dequeueRetransmitPacket hne), hcharge]
  · rw [hsend]
    exact ⟨fun hmem => ((hs.linked.mem_path j a).mp hmem).2.2, hs.linked.mem_path_of_mem_queue ha⟩

end Leave

/-! ### What enters -/

section Enter

variable {s : Flight} {L : Layout} {m : Prop}

theorem Accounted.takeNumber (hs : s.Accounted L m) (i : ℕ) : (s.takeNumber i).Accounted L m :=
  hs.setContext rfl rfl rfl rfl

/-- The lists of a packet that is queued, before its bytes are counted. -/
def link (s : Flight) (a : ℕ) (p : FlightPacket) : Flight :=
  let s := { s with inUse := a :: s.inUse }.setPacket a p
  ((s.setQueueList p.space ((s.queueList p.space).insertFront a)).setQueued a true)
    |>.enqueuePacketWithPath a

theorem stamp_enqueuePacketWithPath (s : Flight) (a b : ℕ) :
    stamp ((s.enqueuePacketWithPath a).packets b) = stamp (s.packets b) := by
  rw [enqueuePacketWithPath]
  cases (s.packets a).sendPath with
  | none => rfl
  | some j => refine (setPacket_field stamp ?_ b).trans ?_ <;> rfl

theorem bytesInTransit_enqueuePacketWithPath (s : Flight) (a j : ℕ) :
    ((s.enqueuePacketWithPath a).paths j).bytesInTransit = (s.paths j).bytesInTransit := by
  rw [enqueuePacketWithPath]
  cases (s.packets a).sendPath with
  | none => rfl
  | some j' =>
    by_cases hj : j = j'
    · subst hj
      simp [setQueuedToPath, setPacket, setPathList]
    · simp [setQueuedToPath, setPacket, setPathList, hj]

theorem isQueued_enqueuePacketWithPath (s : Flight) (a b : ℕ) :
    ((s.enqueuePacketWithPath a).packets b).isQueuedForRetransmit =
      (s.packets b).isQueuedForRetransmit := by
  rw [enqueuePacketWithPath]
  cases (s.packets a).sendPath with
  | none => rfl
  | some j =>
    dsimp only
    rw [isQueued_setQueuedToPath]
    rfl

theorem stamp_link_self (s : Flight) (a : ℕ) (p : FlightPacket) :
    stamp ((s.link a p).packets a) = stamp p := by
  rw [link, stamp_enqueuePacketWithPath]
  refine (setPacket_field stamp ?_ a).trans ?_
  · rfl
  · change stamp (({ s with inUse := a :: s.inUse }.setPacket a p).packets a) = _
    rw [packets_setPacket]

theorem stamp_link_of_ne (s : Flight) {a b : ℕ} (p : FlightPacket) (h : b ≠ a) :
    stamp ((s.link a p).packets b) = stamp (s.packets b) := by
  rw [link, stamp_enqueuePacketWithPath]
  refine (setPacket_field stamp ?_ b).trans ?_
  · rfl
  · change stamp (({ s with inUse := a :: s.inUse }.setPacket a p).packets b) = _
    rw [packets_setPacket_of_ne p h]

theorem bytesInTransit_link (s : Flight) (a j : ℕ) (p : FlightPacket) :
    ((s.link a p).paths j).bytesInTransit = (s.paths j).bytesInTransit :=
  bytesInTransit_enqueuePacketWithPath _ a j

/-- The layout with a packet more. -/
def Layout.add (L : Layout) (i j a : ℕ) : Layout :=
  ⟨Function.update L.queue i (a :: L.queue i), L.retransmitted,
    Function.update L.onPath j (a :: L.onPath j)⟩

theorem Layout.queue_subset_add (L : Layout) (i j a i' : ℕ) :
    L.queue i' ⊆ (L.add i j a).queue i' := fun b hb => by
  change b ∈ Function.update L.queue i (a :: L.queue i) i'
  by_cases hi : i' = i
  · subst hi
    rw [Function.update_self]
    exact List.mem_cons_of_mem a hb
  · rw [Function.update_of_ne hi]
    exact hb

/-- **A packet is linked.** -/
theorem Linked.link (hL : s.Linked L none) {a j : ℕ} (ha : a ∉ s.inUse) (hj : j ∈ s.pathTable)
    {p : FlightPacket} (hqueued : p.isQueuedForRetransmit = false)
    (honPath : p.isQueuedToPath = false) (hpath : p.sendPath = some j) :
    (s.link a p).Linked (L.add p.space j a) none := by
  have hself : ({ s with inUse := a :: s.inUse }.setPacket a p).packets a = p :=
    packets_setPacket _ a p
  have huse : a ∈ ({ s with inUse := a :: s.inUse }.setPacket a p).inUse := List.mem_cons_self
  have hqueue := (hL.insert ha hqueued honPath).queue huse (hself.symm ▸ hqueued)
    (congrArg FlightPacket.space hself)
  have hsend :
      (((({ s with inUse := a :: s.inUse }.setPacket a p).setQueueList p.space
        ((({ s with inUse := a :: s.inUse }.setPacket a p).queueList p.space).insertFront
          a)).setQueued a true).packets a).sendPath = some j := by
    rw [sendPath_setQueued]
    exact (congrArg FlightPacket.sendPath hself).trans hpath
  refine (hqueue.enqueuePacketWithPath huse ?_ hsend hj).arrive ?_ fun _ => ?_
  · rw [isQueuedToPath_setQueued]
    exact (congrArg FlightPacket.isQueuedToPath hself).trans honPath
  · rw [isQueued_enqueuePacketWithPath, isQueued_setQueued]
  · rw [Flight.enqueuePacketWithPath, hsend]
    exact isQueuedToPath_setQueuedToPath _ a true

theorem queueForRetransmit_eq (s : Flight) (j a : ℕ) (p : FlightPacket) (length : ℕ) :
    s.queueForRetransmit j a p length =
      if p.isAckTrap = true then s.link a p
      else
        (s.link a p).setPath j
          { (s.link a p).paths j with
            bytesInTransit := ((s.link a p).paths j).bytesInTransit + length } := rfl

/-- **A packet enters.** -/
theorem Accounted.queueForRetransmit (hs : s.Accounted L m) {a j : ℕ} (ha : a ∉ s.inUse)
    (hj : j ∈ s.pathTable) {p : FlightPacket} (hqueued : p.isQueuedForRetransmit = false)
    (honPath : p.isQueuedToPath = false) (hpath : p.sendPath = some j) (length : ℕ)
    (hlength : m → p.isAckTrap = false → length = p.length + p.checksumOverhead) :
    (s.queueForRetransmit j a p length).Accounted (L.add p.space j a) m := by
  have hlinked := hs.linked.link ha hj hqueued honPath hpath
  -- the sum over a path grows by what the new packet is charged for
  have hsum : m → ∀ j', (((L.add p.space j a).onPath j').map
      fun b => charge ((s.link a p).packets b)).sum =
        (s.paths j').bytesInTransit + if j' = j then charge p else 0 := fun hm j' => by
    have hold : ((L.onPath j').map fun b => charge ((s.link a p).packets b)).sum =
        (s.paths j').bytesInTransit := by
      rw [hs.counted hm j']
      refine sum_charge_congr fun b hb => charge_eq_of_stamp (stamp_link_of_ne s p ?_)
      exact fun heq => ha (heq ▸ hs.linked.inUse_of_mem_path hb)
    by_cases hj' : j' = j
    · subst hj'
      simp only [Layout.add, Function.update_self, List.map_cons, List.sum_cons, if_true]
      rw [hold, charge_eq_of_stamp (stamp_link_self s a p)]
      omega
    · simp only [Layout.add, Function.update_of_ne hj', if_neg hj']
      omega
  rw [queueForRetransmit_eq]
  split_ifs with htrap
  · refine ⟨hlinked, fun hm j' => ?_⟩
    rw [bytesInTransit_link, hsum hm j', charge, if_pos htrap, ite_self, Nat.add_zero]
  · refine ⟨hlinked.setBytes j _, fun hm j' => ?_⟩
    have htrap' : p.isAckTrap = false := Bool.eq_false_iff.mpr htrap
    have hcharge : charge p = length := by
      rw [charge, if_neg htrap, hlength hm htrap']
    refine Eq.trans ?_ (hsum hm j').symm
    rw [hcharge, ← bytesInTransit_link s a j' p]
    by_cases hj' : j' = j
    · subst hj'
      simp [setPath]
    · simp [setPath, hj']

end Enter

end Flight

end Picoquic
