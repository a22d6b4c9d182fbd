import Picoquic.Flight.Layout

/-!
# From one list to another

What the operations of the source do to a layout.

* `Linked.insert`, `Linked.queue`, `Linked.enqueuePacketWithPath`, `Linked.arrive` — a packet gets
  an address that is free, is linked into the queue of its space and into the list of its path, and
  is then one of the packets in flight;
* `Linked.unqueue`, `Linked.dequeuePacketFromPath` — a packet is unlinked from both;
* `Linked.recyclePacket`, `Linked.keepRetransmitted` — its address is free again, or it is one of
  the retransmitted packets;
* `Linked.dequeueRetransmittedPacket` — a retransmitted packet leaves.
-/

namespace Picoquic

namespace Flight

namespace Linked

variable {s s' : Flight} {L : Layout} {h : Option ℕ} {a : ℕ}

/-! ### A packet enters -/

/-- A packet gets an address that is free. -/
theorem insert (hL : s.Linked L none) (ha : a ∉ s.inUse) {p : FlightPacket}
    (hq : p.isQueuedForRetransmit = false) (hp : p.isQueuedToPath = false) :
    ({ s with inUse := a :: s.inUse }.setPacket a p).Linked L (some a) := by
  have hself : ({ s with inUse := a :: s.inUse }.setPacket a p).packets a = p :=
    packets_setPacket _ a p
  refine ⟨fun i => ?_, fun i => ?_, fun j => ?_, fun i b => ?_, fun i b => ?_, fun j b => ?_,
    fun b hb hb' => ?_, hL.no_path, List.nodup_cons.mpr ⟨ha, hL.nodup⟩⟩
  · exact queueList_is_setPacket (fun hmem => ha (hL.inUse_of_mem_queue hmem)) p (hL.queue_is i)
  · exact retransmittedList_is_setPacket (fun hmem => ha (hL.inUse_of_mem_retransmitted hmem)) p
      (hL.retransmitted_is i)
  · exact pathList_is_setPacket (fun hmem => ha (hL.inUse_of_mem_path hmem)) p (hL.path_is j)
  · rw [hL.mem_queue]
    change _ ↔ b ∈ a :: s.inUse ∧ _
    by_cases hb : b = a
    · subst hb
      rw [hself, hq]
      simp [ha]
    · rw [packets_setPacket_of_ne p hb, List.mem_cons, or_iff_right hb]
  · rw [hL.mem_retransmitted]
    change _ ↔ some b ≠ some a ∧ b ∈ a :: s.inUse ∧ _
    by_cases hb : b = a
    · subst hb
      simp [ha]
    · rw [packets_setPacket_of_ne p hb, List.mem_cons, or_iff_right hb]
      simp [hb]
  · rw [hL.mem_path]
    change _ ↔ b ∈ a :: s.inUse ∧ _
    by_cases hb : b = a
    · subst hb
      rw [hself, hp]
      simp [ha]
    · rw [packets_setPacket_of_ne p hb, List.mem_cons, or_iff_right hb]
  · have hba : b ≠ a := fun heq => hb' (congrArg some heq)
    rw [packets_setPacket_of_ne p hba]
    exact hL.flags b ((List.mem_cons.mp hb).resolve_left hba) (by simp)

variable {i : ℕ} {l : List ℕ} {Q : LinkedList ℕ}

/-- Another queue of a space, if it differs in its own packets and in the one on its way only. -/
theorem queue_views (hL : s.Linked L h) (hQ : Q.Is l) (hframe : ∀ z ∉ L.queue i, z ∉ l →
      Q.next z = (s.packets z).next ∧ Q.previous z = (s.packets z).previous)
    (hl : ∀ z ∈ l, z ∈ L.queue i ∨
      (h = some z ∧ (s.packets z).isQueuedForRetransmit = false)) :
    (∀ i', ((s.setQueueList i Q).queueList i').Is (Function.update L.queue i l i')) ∧
      ∀ i', ((s.setQueueList i Q).retransmittedList i').Is (L.retransmitted i') := by
  refine ⟨fun i' => ?_, fun i' => ?_⟩
  · by_cases hi : i' = i
    · subst hi
      rwa [queueList_setQueueList, Function.update_self]
    · have hframe' : ∀ z ∈ L.queue i',
          Q.next z = (s.packets z).next ∧ Q.previous z = (s.packets z).previous := fun z hz => by
        obtain ⟨-, hqueued, hspace⟩ := (hL.mem_queue i' z).mp hz
        have hz' : z ∉ L.queue i := fun hmem =>
          hi (hspace.symm.trans ((hL.mem_queue i z).mp hmem).2.2)
        refine hframe z hz' fun hmem => ?_
        obtain hmem | ⟨-, hqueued'⟩ := hl z hmem
        · exact hz' hmem
        · exact absurd (hqueued.symm.trans hqueued') Bool.true_eq_false.mp
      rw [queueList_setQueueList_of_ne _ _ _ _ hi, Function.update_of_ne hi]
      exact (hL.queue_is i').congr rfl rfl (fun z hz => (hframe' z hz).1)
        fun z hz => (hframe' z hz).2
  · have hframe' : ∀ z ∈ L.retransmitted i',
        Q.next z = (s.packets z).next ∧ Q.previous z = (s.packets z).previous := fun z hz => by
      obtain ⟨hway, -, hqueued, -⟩ := (hL.mem_retransmitted i' z).mp hz
      have hz' : z ∉ L.queue i := fun hmem =>
        Bool.true_eq_false.mp (((hL.mem_queue i z).mp hmem).2.1.symm.trans hqueued)
      refine hframe z hz' fun hmem => ?_
      obtain hmem | ⟨hway', -⟩ := hl z hmem
      · exact hz' hmem
      · exact hway hway'.symm
    rw [retransmittedList_setQueueList]
    exact (hL.retransmitted_is i').congr rfl rfl (fun z hz => (hframe' z hz).2)
      fun z hz => (hframe' z hz).1

/-- A queue is among the queues of the layout in which another one has changed. -/
theorem mem_update_queue (hL : s.Linked L h) {i i' b : ℕ} (hb : b ∈ l ↔ b ∈ L.queue i) :
    b ∈ Function.update L.queue i l i' ↔ b ∈ s.inUse ∧
      (s.packets b).isQueuedForRetransmit = true ∧ (s.packets b).space = i' := by
  rw [← hL.mem_queue]
  by_cases hi : i' = i
  · subst hi
    rw [Function.update_self, hb]
  · rw [Function.update_of_ne hi]

/-- The packet on its way is queued. -/
theorem queue (hL : s.Linked L (some a)) (ha : a ∈ s.inUse)
    (hqueued : (s.packets a).isQueuedForRetransmit = false) (hspace : (s.packets a).space = i) :
    ((s.setQueueList i ((s.queueList i).insertFront a)).setQueued a true).Linked
      { L with queue := Function.update L.queue i (a :: L.queue i) } (some a) := by
  have hnot : ∀ i, a ∉ L.queue i := fun i hmem =>
    Bool.true_eq_false.mp (((hL.mem_queue i a).mp hmem).2.1.symm.trans hqueued)
  have hviews := hL.queue_views ((hL.queue_is i).insertFront (hnot i))
    (fun z _ hz => by
      obtain ⟨hza, hz⟩ := List.ne_and_not_mem_of_not_mem_cons hz
      exact ⟨LinkedList.insertFront_next hza, LinkedList.insertFront_previous hza
        fun hfirst => hz ((hL.queue_is i).mem_of_first hfirst)⟩)
    (fun z hz => by
      obtain hza | hz := List.mem_cons.mp hz
      · exact Or.inr ⟨congrArg some hza.symm, hza ▸ hqueued⟩
      · exact Or.inl hz)
  refine ⟨fun i' => ?_, fun i' => ?_, fun j => ?_, fun i' b => ?_, fun i' b => ?_, fun j b => ?_,
    fun b hb hb' => ?_, hL.no_path, hL.nodup⟩
  · rw [queueList_setQueued]
    exact hviews.1 i'
  · rw [retransmittedList_setQueued]
    exact hviews.2 i'
  · rw [pathList_setQueued]
    exact hL.path_is j
  · change b ∈ Function.update L.queue i (a :: L.queue i) i' ↔ b ∈ s.inUse ∧ _
    by_cases hb : b = a
    · subst hb
      rw [isQueued_setQueued, space_setQueued]
      change _ ↔ _ ∧ _ ∧ (s.packets b).space = i'
      by_cases hi : i' = i
      · subst hi
        simp [ha, hspace]
      · rw [Function.update_of_ne hi, hspace]
        exact iff_of_false (hnot i') fun hand => hi hand.2.2.symm
    · rw [packets_setQueued_of_ne _ _ hb]
      change _ ↔ _ ∧ (s.packets b).isQueuedForRetransmit = true ∧ (s.packets b).space = i'
      exact hL.mem_update_queue (List.mem_cons.trans (or_iff_right hb))
  · rw [hL.mem_retransmitted]
    by_cases hb : b = a
    · subst hb
      simp
    · rw [packets_setQueued_of_ne _ _ hb]
      rfl
  · rw [hL.mem_path, isQueuedToPath_setQueued, sendPath_setQueued]
    rfl
  · have hba : b ≠ a := fun heq => hb' (congrArg some heq)
    rw [packets_setQueued_of_ne _ _ hba]
    exact hL.flags b hb hb'

variable {j : ℕ}

/-- Other packets of a path, if they differ from those before in the one on its way only. -/
theorem path_views (hL : s.Linked L h) (hQ : Q.Is l) (hframe : ∀ z ∉ L.onPath j, z ∉ l →
      Q.next z = (s.packets z).pathPrevious ∧ Q.previous z = (s.packets z).pathNext)
    (hl : ∀ z ∈ l, z ∈ L.onPath j ∨ (s.packets z).isQueuedToPath = false) (j' : ℕ) :
    ((s.setPathList j Q).pathList j').Is (Function.update L.onPath j l j') := by
  by_cases hj : j' = j
  · subst hj
    rwa [pathList_setPathList, Function.update_self]
  · have hframe' : ∀ z ∈ L.onPath j',
        Q.next z = (s.packets z).pathPrevious ∧ Q.previous z = (s.packets z).pathNext :=
      fun z hz => by
        obtain ⟨-, hqueued, hpath⟩ := (hL.mem_path j' z).mp hz
        have hz' : z ∉ L.onPath j := fun hmem =>
          hj (Option.some.inj (hpath.symm.trans ((hL.mem_path j z).mp hmem).2.2))
        refine hframe z hz' fun hmem => ?_
        obtain hmem | hqueued' := hl z hmem
        · exact hz' hmem
        · exact Bool.true_eq_false.mp (hqueued.symm.trans hqueued')
    rw [pathList_setPathList_of_ne _ _ _ _ hj, Function.update_of_ne hj]
    exact (hL.path_is j').congr rfl rfl (fun z hz => (hframe' z hz).1)
      fun z hz => (hframe' z hz).2

/-- The packet on its way is added to its path. -/
theorem enqueuePacketWithPath (hL : s.Linked L (some a)) (ha : a ∈ s.inUse)
    (hqueued : (s.packets a).isQueuedToPath = false) (hpath : (s.packets a).sendPath = some j)
    (hj : j ∈ s.pathTable) :
    (s.enqueuePacketWithPath a).Linked
      { L with onPath := Function.update L.onPath j (a :: L.onPath j) } (some a) := by
  have hnot : ∀ j, a ∉ L.onPath j := fun j hmem =>
    Bool.true_eq_false.mp (((hL.mem_path j a).mp hmem).2.1.symm.trans hqueued)
  have hviews := hL.path_views ((hL.path_is j).insertFront (hnot j))
    (fun z _ hz => by
      obtain ⟨hza, hz⟩ := List.ne_and_not_mem_of_not_mem_cons hz
      exact ⟨LinkedList.insertFront_next hza, LinkedList.insertFront_previous hza
        fun hfirst => hz ((hL.path_is j).mem_of_first hfirst)⟩)
    (fun z hz => by
      obtain hza | hz := List.mem_cons.mp hz
      · exact Or.inr (hza ▸ hqueued)
      · exact Or.inl hz)
  rw [Flight.enqueuePacketWithPath, hpath]
  refine ⟨fun i => ?_, fun i => ?_, fun j' => ?_, fun i b => ?_, fun i b => ?_, fun j' b => ?_,
    fun b hb hb' => ?_, fun j' hj' => ?_, hL.nodup⟩
  · rw [queueList_setQueuedToPath]
    exact hL.queue_is i
  · rw [retransmittedList_setQueuedToPath]
    exact hL.retransmitted_is i
  · rw [pathList_setQueuedToPath]
    exact hviews j'
  · rw [hL.mem_queue, isQueued_setQueuedToPath, space_setQueuedToPath]
    rfl
  · rw [hL.mem_retransmitted, isQueued_setQueuedToPath, space_setQueuedToPath]
    rfl
  · change b ∈ Function.update L.onPath j (a :: L.onPath j) j' ↔ b ∈ s.inUse ∧ _
    by_cases hb : b = a
    · subst hb
      rw [isQueuedToPath_setQueuedToPath, sendPath_setQueuedToPath]
      change _ ↔ _ ∧ _ ∧ (s.packets b).sendPath = some j'
      by_cases hj' : j' = j
      · subst hj'
        simp [ha, hpath]
      · rw [Function.update_of_ne hj', hpath]
        exact iff_of_false (hnot j') fun hand => hj' (Option.some.inj hand.2.2).symm
    · rw [packets_setQueuedToPath_of_ne _ _ hb]
      change _ ↔ _ ∧ (s.packets b).isQueuedToPath = true ∧ (s.packets b).sendPath = some j'
      rw [← hL.mem_path]
      by_cases hj' : j' = j
      · subst hj'
        rw [Function.update_self, List.mem_cons, or_iff_right hb]
      · rw [Function.update_of_ne hj']
  · have hba : b ≠ a := fun heq => hb' (congrArg some heq)
    rw [packets_setQueuedToPath_of_ne _ _ hba]
    exact hL.flags b hb hb'
  · have hne : j' ≠ j := fun heq => hj' (heq ▸ hj)
    exact (Function.update_of_ne hne _ _).trans (hL.no_path j' hj')

/-- The packet has arrived. -/
theorem arrive (hL : s.Linked L (some a)) (hqueued : (s.packets a).isQueuedForRetransmit = true)
    (hflags : (s.packets a).sendPath ≠ none → (s.packets a).isQueuedToPath = true) :
    s.Linked L none := by
  refine { hL with
    mem_retransmitted := fun i b => ?_
    flags := fun b hb _ hpath => ?_ }
  · rw [hL.mem_retransmitted]
    by_cases hb : b = a
    · subst hb
      simp [hqueued]
    · simp [hb]
  · by_cases hb' : b = a
    · subst hb'
      exact (hflags hpath).trans hqueued.symm
    · exact hL.flags b hb (by simpa using hb') hpath

/-! ### A packet leaves -/

/-- A packet of a queue is taken out. -/
theorem unqueue (hL : s.Linked L none) (ha : a ∈ L.queue i) :
    (s.unqueue i a).Linked
      { L with queue := Function.update L.queue i ((L.queue i).erase a) } (some a) := by
  obtain ⟨huse, hqueued, hspace⟩ := (hL.mem_queue i a).mp ha
  have hnodup := (hL.queue_is i).nodup
  have hviews := hL.queue_views ((hL.queue_is i).erase ha)
    (fun z hz _ => (hL.queue_is i).remove_frame ha hz)
    (fun z hz => Or.inl (List.mem_of_mem_erase hz))
  rw [Flight.unqueue, if_pos hqueued]
  refine ⟨fun i' => ?_, fun i' => ?_, fun j => ?_, fun i' b => ?_, fun i' b => ?_, fun j b => ?_,
    fun b hb hb' => ?_, hL.no_path, hL.nodup⟩
  · rw [queueList_setQueued]
    exact hviews.1 i'
  · rw [retransmittedList_setQueued]
    exact hviews.2 i'
  · rw [pathList_setQueued]
    exact hL.path_is j
  · change b ∈ Function.update L.queue i ((L.queue i).erase a) i' ↔ b ∈ s.inUse ∧ _
    by_cases hb : b = a
    · subst hb
      rw [isQueued_setQueued]
      refine iff_of_false (fun hmem => ?_) fun hand => Bool.false_ne_true hand.2.1
      by_cases hi : i' = i
      · subst hi
        rw [Function.update_self] at hmem
        exact hnodup.not_mem_erase hmem
      · rw [Function.update_of_ne hi] at hmem
        exact hi (((hL.mem_queue i' b).mp hmem).2.2.symm.trans hspace)
    · rw [packets_setQueued_of_ne _ _ hb]
      exact hL.mem_update_queue (List.mem_erase_of_ne hb)
  · rw [hL.mem_retransmitted]
    by_cases hb : b = a
    · subst hb
      simp [hqueued]
    · rw [packets_setQueued_of_ne _ _ hb]
      simp [hb, setQueued, setPacket, setQueueList]
  · rw [hL.mem_path, isQueuedToPath_setQueued, sendPath_setQueued]
    rfl
  · have hba : b ≠ a := fun heq => hb' (congrArg some heq)
    rw [packets_setQueued_of_ne _ _ hba]
    exact hL.flags b hb (by simp)

/-- The pointers of a path after one of its packets is taken out. If the packet has no neighbours
the ends are cleared, else its neighbours are linked. -/
theorem unlinkFromPath (hL : s.Linked L h) (ha : a ∈ L.onPath j) (j' : ℕ) :
    ((if (s.packets a).pathPrevious = none ∧ (s.packets a).pathNext = none then
        s.setPath j (clearPathEnds (s.paths j) a)
      else
        let t := s.setPathList j ((s.pathList j).remove a)
        t.setPacket a { t.packets a with pathPrevious := none, pathNext := none }).pathList j').Is
      ((L.onPath j').erase a) := by
  have hnodup := (hL.path_is j).nodup
  have hother : ∀ j'' ≠ j, a ∉ L.onPath j'' := fun j'' hj hmem =>
    hj (Option.some.inj (((hL.mem_path j'' a).mp hmem).2.2.symm.trans
      ((hL.mem_path j a).mp ha).2.2))
  split_ifs with halone
  · -- without neighbours the packet is the whole list
    obtain ⟨l, r, hlr⟩ := List.append_of_mem ha
    have his := hL.path_is j
    rw [hlr] at his
    obtain ⟨hnext, hprev⟩ := his.neighbours
    have hr : r = [] := List.head?_eq_none_iff.mp (hnext.symm.trans halone.1)
    have hl : l = [] := List.getLast?_eq_none_iff.mp (hprev.symm.trans halone.2)
    subst hr hl
    by_cases hj : j' = j
    · subst hj
      have hfirst : (s.paths j').pathPacketLast = some a := his.first_eq
      have hlast : (s.paths j').pathPacketFirst = some a := his.last_eq
      rw [hlr, List.nil_append, List.erase_cons_head]
      refine ⟨List.nodup_nil, ?_, ?_, trivial⟩ <;>
        simp [pathList, setPath, clearPathEnds, hfirst, hlast]
    · rw [List.erase_of_not_mem (hother j' hj)]
      refine (hL.path_is j').congr ?_ ?_ (fun _ _ => rfl) fun _ _ => rfl <;>
        simp [pathList, setPath, hj]
  · have hviews := hL.path_views ((hL.path_is j).erase ha)
      (fun z hz _ => (hL.path_is j).remove_frame ha hz)
      (fun z hz => Or.inl (List.mem_of_mem_erase hz)) j'
    have herase : Function.update L.onPath j ((L.onPath j).erase a) j' = (L.onPath j').erase a := by
      by_cases hj : j' = j
      · subst hj
        rw [Function.update_self]
      · rw [Function.update_of_ne hj, List.erase_of_not_mem (hother j' hj)]
    rw [herase] at hviews
    exact pathList_is_setPacket (hL.path_is j').nodup.not_mem_erase _ hviews

/-- A packet in no list of a path has left it. -/
theorem leavePath (hL : s.Linked L (some a))
    (hpath : ∀ j, (s'.pathList j).Is ((L.onPath j).erase a))
    (hq : ∀ i, s'.queueList i = s.queueList i)
    (hr : ∀ i, s'.retransmittedList i = s.retransmittedList i) (hu : s'.inUse = s.inUse)
    (ht : s'.pathTable = s.pathTable) (htags : ∀ b, tags (s'.packets b) = tags (s.packets b)) :
    (s'.setQueuedToPath a false).Linked
      { L with onPath := fun j => (L.onPath j).erase a } (some a) := by
  have htags' : ∀ b, (s'.packets b).isQueuedForRetransmit = (s.packets b).isQueuedForRetransmit ∧
      (s'.packets b).isQueuedToPath = (s.packets b).isQueuedToPath ∧
      (s'.packets b).sendPath = (s.packets b).sendPath ∧
      (s'.packets b).space = (s.packets b).space := fun b => by
    have := htags b
    simpa only [tags, Prod.mk.injEq] using this
  refine ⟨fun i => ?_, fun i => ?_, fun j => ?_, fun i b => ?_, fun i b => ?_, fun j b => ?_,
    fun b hb hb' => ?_, fun j hj => ?_, hu ▸ hL.nodup⟩
  · rw [queueList_setQueuedToPath, hq]
    exact hL.queue_is i
  · rw [retransmittedList_setQueuedToPath, hr]
    exact hL.retransmitted_is i
  · rw [pathList_setQueuedToPath]
    exact hpath j
  · rw [hL.mem_queue, isQueued_setQueuedToPath, space_setQueuedToPath, (htags' b).1,
      (htags' b).2.2.2, ← hu]
    rfl
  · rw [hL.mem_retransmitted, isQueued_setQueuedToPath, space_setQueuedToPath, (htags' b).1,
      (htags' b).2.2.2, ← hu]
    rfl
  · change b ∈ (L.onPath j).erase a ↔ b ∈ s'.inUse ∧ _
    by_cases hb : b = a
    · subst hb
      rw [isQueuedToPath_setQueuedToPath]
      exact iff_of_false (hL.path_is j).nodup.not_mem_erase
        fun hand => Bool.false_ne_true hand.2.1
    · rw [packets_setQueuedToPath_of_ne _ _ hb, List.mem_erase_of_ne hb, hL.mem_path,
        (htags' b).2.1, (htags' b).2.2.1, hu]
  · have hba : b ≠ a := fun heq => hb' (congrArg some heq)
    rw [packets_setQueuedToPath_of_ne _ _ hba, (htags' b).1, (htags' b).2.1, (htags' b).2.2.1]
    exact hL.flags b (hu ▸ hb) hb'
  · change (L.onPath j).erase a = []
    rw [hL.no_path j (ht ▸ hj), List.erase_nil]

/-- A packet that left the queue leaves its path. -/
theorem dequeuePacketFromPath (hL : s.Linked L (some a)) (ha : a ∈ s.inUse) :
    (s.dequeuePacketFromPath a).Linked
      { L with onPath := fun j => (L.onPath j).erase a } (some a) := by
  rw [Flight.dequeuePacketFromPath]
  have hnone : (∀ j, a ∉ L.onPath j) →
      s.Linked { L with onPath := fun j => (L.onPath j).erase a } (some a) := fun hnot => by
    have hsame : (fun j => (L.onPath j).erase a) = L.onPath :=
      funext fun j => List.erase_of_not_mem (hnot j)
    rw [hsame]
    exact hL
  cases hpath : (s.packets a).sendPath with
  | none =>
    refine hnone fun j hmem => ?_
    have := ((hL.mem_path j a).mp hmem).2.2
    rw [hpath] at this
    exact Option.some_ne_none j this.symm
  | some j =>
    dsimp only
    by_cases hqueued : (s.packets a).isQueuedToPath = true
    · rw [if_pos hqueued]
      have hviews := hL.unlinkFromPath ((hL.mem_path j a).mpr ⟨ha, hqueued, hpath⟩)
      refine hL.leavePath hviews (fun i => ?_) (fun i => ?_) ?_ ?_ fun b => ?_ <;> split_ifs
      · rfl
      · apply queueList_setPacket <;> rfl
      · rfl
      · apply retransmittedList_setPacket <;> rfl
      · rfl
      · rfl
      · rfl
      · rfl
      · rfl
      · refine (setPacket_field tags ?_ b).trans ?_ <;> rfl
    · rw [if_neg hqueued]
      exact hnone fun j hmem => hqueued ((hL.mem_path j a).mp hmem).2.1

/-- A packet that is in no list gives its address back. -/
theorem recyclePacket (hL : s.Linked L (some a)) (hq : ∀ i, a ∉ L.queue i)
    (hp : ∀ j, a ∉ L.onPath j) : (s.recyclePacket a).Linked L none := by
  have hr : ∀ i, a ∉ L.retransmitted i := fun i hmem =>
    ((hL.mem_retransmitted i a).mp hmem).1 rfl
  have huse : ∀ b, b ≠ a → (b ∈ s.inUse.erase a ↔ b ∈ s.inUse) := fun b hb =>
    List.mem_erase_of_ne hb
  have hself : a ∉ s.inUse.erase a := hL.nodup.not_mem_erase
  rw [Flight.recyclePacket]
  refine ⟨fun i => ?_, fun i => ?_, fun j => ?_, fun i b => ?_, fun i b => ?_, fun j b => ?_,
    fun b hb _ => ?_, hL.no_path, hL.nodup.erase a⟩
  · exact queueList_is_setPacket (hq i) _ (hL.queue_is i)
  · exact retransmittedList_is_setPacket (hr i) _ (hL.retransmitted_is i)
  · exact pathList_is_setPacket (hp j) _ (hL.path_is j)
  · change _ ↔ b ∈ s.inUse.erase a ∧ _
    by_cases hb : b = a
    · subst hb
      exact iff_of_false (hq i) fun hand => hself hand.1
    · rw [packets_setPacket_of_ne _ hb, huse b hb, hL.mem_queue]
  · change _ ↔ _ ∧ b ∈ s.inUse.erase a ∧ _
    by_cases hb : b = a
    · subst hb
      exact iff_of_false (hr i) fun hand => hself hand.2.1
    · rw [packets_setPacket_of_ne _ hb, huse b hb, hL.mem_retransmitted]
      simp [hb]
  · change _ ↔ b ∈ s.inUse.erase a ∧ _
    by_cases hb : b = a
    · subst hb
      exact iff_of_false (hp j) fun hand => hself hand.1
    · rw [packets_setPacket_of_ne _ hb, huse b hb, hL.mem_path]
  · have hba : b ≠ a := fun heq => hself (heq ▸ hb)
    rw [packets_setPacket_of_ne _ hba]
    exact hL.flags b ((huse b hba).mp hb) (by simpa using hba)

/-- Other retransmitted packets of a space, if they differ in its own packets and in the one on its
way only. -/
theorem retransmitted_views (hL : s.Linked L h) (hQ : Q.Is l)
    (hframe : ∀ z ∉ L.retransmitted i, z ∉ l →
      Q.next z = (s.packets z).previous ∧ Q.previous z = (s.packets z).next)
    (hl : ∀ z ∈ l, z ∈ L.retransmitted i ∨
      (h = some z ∧ (s.packets z).isQueuedForRetransmit = false)) :
    (∀ i', ((s.setRetransmittedList i Q).retransmittedList i').Is
        (Function.update L.retransmitted i l i')) ∧
      ∀ i', ((s.setRetransmittedList i Q).queueList i').Is (L.queue i') := by
  refine ⟨fun i' => ?_, fun i' => ?_⟩
  · by_cases hi : i' = i
    · subst hi
      rwa [retransmittedList_setRetransmittedList, Function.update_self]
    · have hframe' : ∀ z ∈ L.retransmitted i',
          Q.next z = (s.packets z).previous ∧ Q.previous z = (s.packets z).next := fun z hz => by
        obtain ⟨hway, -, -, hspace⟩ := (hL.mem_retransmitted i' z).mp hz
        have hz' : z ∉ L.retransmitted i := fun hmem =>
          hi (hspace.symm.trans ((hL.mem_retransmitted i z).mp hmem).2.2.2)
        refine hframe z hz' fun hmem => ?_
        obtain hmem | ⟨hway', -⟩ := hl z hmem
        · exact hz' hmem
        · exact hway hway'.symm
      rw [retransmittedList_setRetransmittedList_of_ne _ _ _ _ hi, Function.update_of_ne hi]
      exact (hL.retransmitted_is i').congr rfl rfl (fun z hz => (hframe' z hz).1)
        fun z hz => (hframe' z hz).2
  · have hframe' : ∀ z ∈ L.queue i',
        Q.next z = (s.packets z).previous ∧ Q.previous z = (s.packets z).next := fun z hz => by
      obtain ⟨-, hqueued, -⟩ := (hL.mem_queue i' z).mp hz
      have hz' : z ∉ L.retransmitted i := fun hmem =>
        Bool.true_eq_false.mp
          (hqueued.symm.trans ((hL.mem_retransmitted i z).mp hmem).2.2.1)
      refine hframe z hz' fun hmem => ?_
      obtain hmem | ⟨-, hqueued'⟩ := hl z hmem
      · exact hz' hmem
      · exact Bool.true_eq_false.mp (hqueued.symm.trans hqueued')
    rw [queueList_setRetransmittedList]
    exact (hL.queue_is i').congr rfl rfl (fun z hz => (hframe' z hz).2)
      fun z hz => (hframe' z hz).1

/-- The packet on its way is added to the retransmitted ones. -/
theorem keepRetransmitted (hL : s.Linked L (some a)) (ha : a ∈ s.inUse)
    (hqueued : (s.packets a).isQueuedForRetransmit = false)
    (hpath : (s.packets a).sendPath ≠ none → (s.packets a).isQueuedToPath = false)
    (hspace : (s.packets a).space = i) :
    (s.keepRetransmitted i a).Linked
      { L with retransmitted := Function.update L.retransmitted i (a :: L.retransmitted i) }
      none := by
  have hnot : ∀ i, a ∉ L.retransmitted i := fun i hmem =>
    ((hL.mem_retransmitted i a).mp hmem).1 rfl
  -- a list without a last packet has no first one, so clearing that pointer changes nothing
  have hclear : (if (s.retransmittedList i).last = none then
        { s.retransmittedList i with first := none }.insertFront a
      else (s.retransmittedList i).insertFront a) = (s.retransmittedList i).insertFront a := by
    split_ifs with hlast
    · have hnil : L.retransmitted i = [] := by
        rw [(hL.retransmitted_is i).last_eq] at hlast
        exact List.getLast?_eq_none_iff.mp hlast
      have hfirst : (s.retransmittedList i).first = none := by
        rw [(hL.retransmitted_is i).first_eq, hnil, List.head?_nil]
      rw [← hfirst]
    · rfl
  have hviews := hL.retransmitted_views ((hL.retransmitted_is i).insertFront (hnot i))
    (fun z _ hz => by
      obtain ⟨hza, hz⟩ := List.ne_and_not_mem_of_not_mem_cons hz
      exact ⟨LinkedList.insertFront_next hza, LinkedList.insertFront_previous hza
        fun hfirst => hz ((hL.retransmitted_is i).mem_of_first hfirst)⟩)
    (fun z hz => by
      obtain hza | hz := List.mem_cons.mp hz
      · exact Or.inr ⟨congrArg some hza.symm, hza ▸ hqueued⟩
      · exact Or.inl hz)
  rw [Flight.keepRetransmitted, hclear]
  refine ⟨hviews.2, hviews.1, fun j => ?_, hL.mem_queue, fun i' b => ?_, hL.mem_path,
    fun b hb _ hb' => ?_, hL.no_path, hL.nodup⟩
  · rw [pathList_setRetransmittedList]
    exact hL.path_is j
  · change b ∈ Function.update L.retransmitted i (a :: L.retransmitted i) i' ↔ _ ∧ b ∈ s.inUse ∧
      (s.packets b).isQueuedForRetransmit = false ∧ (s.packets b).space = i'
    by_cases hb : b = a
    · subst hb
      by_cases hi : i' = i
      · subst hi
        simp [ha, hqueued, hspace]
      · rw [Function.update_of_ne hi, hspace]
        exact iff_of_false (hnot i') fun hand => hi hand.2.2.2.symm
    · have hmem : b ∈ Function.update L.retransmitted i (a :: L.retransmitted i) i' ↔
          b ∈ L.retransmitted i' := by
        by_cases hi : i' = i
        · subst hi
          rw [Function.update_self, List.mem_cons, or_iff_right hb]
        · rw [Function.update_of_ne hi]
      rw [hmem, hL.mem_retransmitted]
      simp [hb]
  · by_cases hba : b = a
    · subst hba
      exact (hpath hb').trans hqueued.symm
    · exact hL.flags b hb (by simpa using hba) hb'

/-- A retransmitted packet is taken out and gives its address back. -/
theorem dequeueRetransmittedPacket (hL : s.Linked L none) (ha : a ∈ L.retransmitted i) :
    (s.dequeueRetransmittedPacket i a).Linked
      { L with retransmitted := Function.update L.retransmitted i ((L.retransmitted i).erase a) }
      none := by
  obtain ⟨-, huse, hqueued, hspace⟩ := (hL.mem_retransmitted i a).mp ha
  have hnodup := (hL.retransmitted_is i).nodup
  have hviews := hL.retransmitted_views ((hL.retransmitted_is i).erase ha)
    (fun z hz _ => (hL.retransmitted_is i).remove_frame ha hz)
    (fun z hz => Or.inl (List.mem_of_mem_erase hz))
  have hwait : (s.setRetransmittedList i ((s.retransmittedList i).remove a)).Linked
      { L with retransmitted := Function.update L.retransmitted i ((L.retransmitted i).erase a) }
      (some a) := by
    refine ⟨hviews.2, hviews.1, hL.path_is, hL.mem_queue, fun i' b => ?_, hL.mem_path,
      fun b hb _ => hL.flags b hb (by simp), hL.no_path, hL.nodup⟩
    change b ∈ Function.update L.retransmitted i ((L.retransmitted i).erase a) i' ↔ _ ∧
      b ∈ s.inUse ∧ (s.packets b).isQueuedForRetransmit = false ∧ (s.packets b).space = i'
    by_cases hb : b = a
    · subst hb
      refine iff_of_false (fun hmem => ?_) fun hand => hand.1 rfl
      by_cases hi : i' = i
      · subst hi
        rw [Function.update_self] at hmem
        exact hnodup.not_mem_erase hmem
      · rw [Function.update_of_ne hi] at hmem
        exact hi (((hL.mem_retransmitted i' b).mp hmem).2.2.2.symm.trans hspace)
    · have hmem : b ∈ Function.update L.retransmitted i ((L.retransmitted i).erase a) i' ↔
          b ∈ L.retransmitted i' := by
        by_cases hi : i' = i
        · subst hi
          rw [Function.update_self, List.mem_erase_of_ne hb]
        · rw [Function.update_of_ne hi]
      rw [hmem, hL.mem_retransmitted]
      simp [hb]
  refine hwait.recyclePacket (fun i' hmem => ?_) fun j hmem => ?_
  · exact Bool.true_eq_false.mp (((hL.mem_queue i' a).mp hmem).2.1.symm.trans hqueued)
  · -- a packet that left its queue has left its path
    obtain ⟨-, honPath, hpath⟩ := (hL.mem_path j a).mp hmem
    have hflags := hL.flags a huse (by simp) (by simp [hpath])
    rw [honPath, hqueued] at hflags
    exact Bool.true_eq_false.mp hflags

/-- A queued packet is on its way. -/
theorem depart (hL : s.Linked L none) (hqueued : (s.packets a).isQueuedForRetransmit = true) :
    s.Linked L (some a) := by
  refine { hL with
    mem_retransmitted := fun i b => ?_
    flags := fun b hb _ => hL.flags b hb (by simp) }
  rw [hL.mem_retransmitted]
  by_cases hb : b = a
  · subst hb
    simp [hqueued]
  · simp [hb]

/-- A packet that is on no path forgets where it was sent. -/
theorem forgetPath (hL : s.Linked L h) (hp : (s.packets a).isQueuedToPath = false) :
    (s.forgetPath a).Linked L h := by
  refine ⟨fun i => ?_, fun i => ?_, fun j => ?_, fun i b => ?_, fun i b => ?_, fun j b => ?_,
    fun b hb hb' hpath => ?_, hL.no_path, hL.nodup⟩
  · rw [queueList_forgetPath]
    exact hL.queue_is i
  · rw [retransmittedList_forgetPath]
    exact hL.retransmitted_is i
  · rw [pathList_forgetPath]
    exact hL.path_is j
  · rw [hL.mem_queue, isQueued_forgetPath, space_forgetPath]
    rfl
  · rw [hL.mem_retransmitted, isQueued_forgetPath, space_forgetPath]
    rfl
  · rw [hL.mem_path]
    by_cases hb : b = a
    · subst hb
      simp [hp]
    · rw [packets_forgetPath_of_ne _ hb]
      rfl
  · by_cases hba : b = a
    · subst hba
      exact absurd (sendPath_forgetPath s b) hpath
    · rw [packets_forgetPath_of_ne _ hba] at hpath ⊢
      exact hL.flags b hb hb' hpath

/-- In a context, only the ends of its lists matter. -/
theorem setContext (hL : s.Linked L h) {c : FlightContext}
    (hnewest : c.retransmitNewest = (s.contexts i).retransmitNewest)
    (holdest : c.retransmitOldest = (s.contexts i).retransmitOldest)
    (hnewest' : c.retransmittedNewest = (s.contexts i).retransmittedNewest)
    (holdest' : c.retransmittedOldest = (s.contexts i).retransmittedOldest) :
    (s.setContext i c).Linked L h := by
  refine hL.of_eq (fun i' => ?_) (fun i' => ?_) (fun _ => rfl) rfl rfl fun _ => rfl <;>
    by_cases hi : i' = i
  · subst hi
    simp [queueList, Flight.setContext, hnewest, holdest]
  · simp [queueList, Flight.setContext, hi]
  · subst hi
    simp [retransmittedList, Flight.setContext, hnewest', holdest']
  · simp [retransmittedList, Flight.setContext, hi]

theorem mem_path_of_mem_queue (hL : s.Linked L none) {i j : ℕ} (ha : a ∈ L.queue i)
    (hpath : (s.packets a).sendPath = some j) : a ∈ L.onPath j := by
  obtain ⟨huse, hqueued, -⟩ := (hL.mem_queue i a).mp ha
  have hflags := hL.flags a huse (by simp) (by simp [hpath])
  exact (hL.mem_path j a).mpr ⟨huse, hflags.trans hqueued, hpath⟩

end Linked

end Flight

end Picoquic
