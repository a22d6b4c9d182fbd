import Picoquic.Flight.Transit

/-!
# The cursor of the preemptive repeats

The cursor of a number space is moved by the preemptive repeats only. While the packet under it
stays in the queue it is valid; nothing moves it when that packet leaves.

* `CursorKept` — the packet under a cursor is not among those that leave;
* `cursor_run` — in a run of such events each cursor points into the queue of its space;
* `cursor_dangles` — it does not if the packet is acknowledged.
-/

namespace Picoquic

open Runs

namespace Flight

/-- `preemptive_repeat_ptr`. -/
def cursor (s : Flight) (i : ℕ) : Option ℕ := (s.contexts i).preemptiveRepeatPtr

theorem cursor_setContext (s : Flight) (i : ℕ) (c : FlightContext) :
    (s.setContext i c).cursor i = c.preemptiveRepeatPtr :=
  congrArg FlightContext.preemptiveRepeatPtr (Function.update_self ..)

theorem cursor_setContext_of_ne (s : Flight) {i i' : ℕ} (c : FlightContext) (h : i' ≠ i) :
    (s.setContext i c).cursor i' = s.cursor i' :=
  congrArg FlightContext.preemptiveRepeatPtr (Function.update_of_ne h ..)

/-! ### What moves no cursor -/

section Frame

variable (s : Flight) (i i' a b : ℕ)

theorem cursor_unqueue : (s.unqueue i a).cursor i' = s.cursor i' := by
  rw [unqueue]
  split_ifs
  · by_cases hi : i' = i
    · subst hi
      simp [cursor, setQueued, setPacket, setQueueList]
    · simp [cursor, setQueued, setPacket, setQueueList, hi]
  · rfl

theorem contexts_discharge : (s.discharge a).contexts = s.contexts := by
  obtain ⟨x, h⟩ := discharge_eq s a
  rw [h]

theorem contexts_dequeuePacketFromPath : (s.dequeuePacketFromPath a).contexts = s.contexts := by
  obtain ⟨p, x, h⟩ := dequeuePacketFromPath_eq s a
  rw [h]

theorem cursor_detach : (s.detach i a).cursor i' = s.cursor i' := by
  rw [detach, cursor, contexts_dequeuePacketFromPath, contexts_discharge]
  exact cursor_unqueue s i i' a

theorem cursor_setRetransmittedList (Q : LinkedList ℕ) :
    (s.setRetransmittedList i Q).cursor i' = s.cursor i' := by
  by_cases hi : i' = i
  · subst hi
    simp [cursor, setRetransmittedList]
  · simp [cursor, setRetransmittedList, hi]

theorem cursor_dequeueRetransmitPacket (shouldFree : Bool) :
    (s.dequeueRetransmitPacket i a shouldFree).cursor i' = s.cursor i' := by
  rw [dequeueRetransmitPacket_eq, ← cursor_detach s i i' a]
  split_ifs
  · rfl
  · exact cursor_setRetransmittedList _ i i' _

theorem cursor_drain (l : List ℕ) : (s.drain i l).cursor i' = s.cursor i' := by
  induction l generalizing s with
  | nil => rfl
  | cons a l ih => rw [drain_cons, ih, cursor_dequeueRetransmitPacket]

theorem cursor_setContext_of_eq {c : FlightContext}
    (h : c.preemptiveRepeatPtr = s.cursor i) : (s.setContext i c).cursor i' = s.cursor i' := by
  by_cases hi : i' = i
  · subst hi
    rw [cursor_setContext, h]
  · rw [cursor_setContext_of_ne s c hi]

theorem cursor_emptyRetransmitted (fuel : ℕ) :
    (emptyRetransmitted i fuel s).cursor i' = s.cursor i' := by
  induction fuel generalizing s with
  | zero => rfl
  | succ fuel ih =>
    rw [emptyRetransmitted.eq_def]
    dsimp only
    cases (s.contexts i).retransmittedNewest with
    | none =>
      apply cursor_setContext_of_eq
      rfl
    | some a =>
      dsimp only
      rw [ih]
      exact cursor_setRetransmittedList s i i' _

theorem cursor_link (p : FlightPacket) : (s.link a p).cursor i' = s.cursor i' := by
  rw [link, enqueuePacketWithPath]
  have hqueue : ∀ s' : Flight,
      (s'.setQueueList p.space ((s'.queueList p.space).insertFront a)).cursor i' =
        s'.cursor i' := fun s' => by
    by_cases hi : i' = p.space
    · subst hi
      simp [cursor, setQueueList]
    · simp [cursor, setQueueList, hi]
  split <;> exact hqueue ({ s with inUse := a :: s.inUse }.setPacket a p)

theorem cursor_queueForRetransmit (j : ℕ) (p : FlightPacket) (length : ℕ) :
    (s.queueForRetransmit j a p length).cursor i' = s.cursor i' := by
  rw [queueForRetransmit_eq, ← cursor_link s i' a p]
  split_ifs <;> rfl

theorem cursor_finalizeAndProtectPacket (x : Transmission) :
    (s.finalizeAndProtectPacket x).cursor i = s.cursor i := by
  have htake : ∀ i', (s.takeNumber i').cursor i = s.cursor i := fun i' => by
    apply cursor_setContext_of_eq
    rfl
  rw [finalizeAndProtectPacket]
  split_ifs
  · rfl
  · rw [cursor_queueForRetransmit, htake]
  · exact htake _

theorem cursor_insertHoleInSendSequence (j sendTime : ℕ) :
    (s.insertHoleInSendSequence a j sendTime).cursor i = s.cursor i := by
  rw [insertHoleInSendSequence, cursor_queueForRetransmit]
  apply cursor_setContext_of_eq
  rfl

/-- The packets keep their places in the queues, and the cursors stay. -/
structure Undisturbed (s s' : Flight) : Prop where
  inUse_eq : s'.inUse = s.inUse
  contexts_eq : s'.contexts = s.contexts
  queued_eq : ∀ b, (s'.packets b).isQueuedForRetransmit = (s.packets b).isQueuedForRetransmit
  space_eq : ∀ b, (s'.packets b).space = (s.packets b).space

theorem Undisturbed.refl : s.Undisturbed s := ⟨rfl, rfl, fun _ => rfl, fun _ => rfl⟩

variable {s}

theorem Undisturbed.trans {s' s'' : Flight} (h : s.Undisturbed s') (h' : s'.Undisturbed s'') :
    s.Undisturbed s'' :=
  ⟨h'.inUse_eq.trans h.inUse_eq, h'.contexts_eq.trans h.contexts_eq,
    fun b => (h'.queued_eq b).trans (h.queued_eq b), fun b => (h'.space_eq b).trans (h.space_eq b)⟩

variable (s)

theorem undisturbed_forgetPath : s.Undisturbed (s.forgetPath a) :=
  ⟨rfl, rfl, isQueued_forgetPath s a, space_forgetPath s a⟩

theorem undisturbed_dequeuePacketFromPath : s.Undisturbed (s.dequeuePacketFromPath a) where
  inUse_eq := inUse_dequeuePacketFromPath s a
  contexts_eq := contexts_dequeuePacketFromPath s a
  queued_eq := isQueued_dequeuePacketFromPath s a
  space_eq b := by
    have hstamp := stamp_dequeuePacketFromPath s a b
    simp only [stamp, Prod.mk.injEq] at hstamp
    exact hstamp.2.2.2.2.2.2

theorem undisturbed_emptyPathPacketQueue (fuel : ℕ) (pointer : Option ℕ) :
    s.Undisturbed (emptyPathPacketQueue fuel s pointer) := by
  induction fuel generalizing s pointer with
  | zero => exact Undisturbed.refl s
  | succ fuel ih =>
    cases pointer with
    | none => exact Undisturbed.refl s
    | some a =>
      exact ((undisturbed_dequeuePacketFromPath s a).trans (undisturbed_forgetPath _ a)).trans
        (ih _ _)

theorem undisturbed_erasePath (j fuel : ℕ) (pointer : Option ℕ) :
    s.Undisturbed (erasePath j fuel s pointer) := by
  induction fuel generalizing s pointer with
  | zero => exact Undisturbed.refl s
  | succ fuel ih =>
    cases pointer with
    | none => exact Undisturbed.refl s
    | some a =>
      rw [erasePath]
      split_ifs
      · exact (undisturbed_forgetPath s a).trans (ih _ _)
      · exact ih s _

/-- Deleting a path takes no packet out of its queue. -/
theorem undisturbed_deletePath (j : ℕ) : s.Undisturbed (s.deletePath j) := by
  have herase : ∀ (s : Flight) (i : ℕ), s.Undisturbed (erasePathIn j s i) := fun s i =>
    undisturbed_erasePath s j _ _
  have hempty := undisturbed_emptyPathPacketQueue s s.inUse.length (s.paths j).pathPacketFirst
  have hall := ((hempty.trans (herase _ 0)).trans (herase _ 1)).trans (herase _ 2)
  exact ⟨hall.inUse_eq, hall.contexts_eq, hall.queued_eq, hall.space_eq⟩

end Frame

/-! ### Packets that stay in their queue -/

variable {l : List ℕ}

section Queued

variable {s : Flight} {i a b : ℕ}

theorem isQueued_unqueue_of_ne (h : b ≠ a) :
    ((s.unqueue i a).packets b).isQueuedForRetransmit = (s.packets b).isQueuedForRetransmit := by
  rw [unqueue]
  split_ifs
  · rw [packets_setQueued_of_ne _ _ h]
    rfl
  · rfl

/-- The other packets stay where they are. -/
theorem isQueued_dequeueRetransmitPacket (h : b ≠ a) (shouldFree : Bool) :
    (s.dequeueRetransmitPacket i a shouldFree).IsQueued b ↔ s.IsQueued b := by
  have hqueued : ((s.detach i a).packets b).isQueuedForRetransmit =
      (s.packets b).isQueuedForRetransmit := by
    rw [detach, isQueued_dequeuePacketFromPath, packets_discharge, isQueued_unqueue_of_ne h]
  rw [dequeueRetransmitPacket_eq, IsQueued, IsQueued, ← hqueued, ← inUse_detach s i a]
  split_ifs
  · have hpackets : ((s.detach i a).recyclePacket a).packets b = (s.detach i a).packets b :=
      packets_setPacket_of_ne _ h
    rw [hpackets]
    exact and_congr_left fun _ => List.mem_erase_of_ne h
  · rfl

theorem isQueued_drain (h : b ∉ l) : (s.drain i l).IsQueued b ↔ s.IsQueued b := by
  induction l generalizing s with
  | nil => rfl
  | cons a l ih =>
    obtain ⟨hba, hbl⟩ := List.ne_and_not_mem_of_not_mem_cons h
    rw [drain_cons, ih hbl, isQueued_dequeueRetransmitPacket hba]

theorem space_drain (h : b ∉ l) : ((s.drain i l).packets b).space = (s.packets b).space := by
  have hstamp := stamp_drain (s := s) (i := i) h
  simp only [stamp, Prod.mk.injEq] at hstamp
  exact hstamp.2.2.2.2.2.2

end Queued

/-! ### Valid cursors -/

/-- The cursor of a space is at a packet of its queue. -/
def CursorValid (s : Flight) (i : ℕ) : Prop :=
  ∀ a ∈ s.cursor i, s.IsQueued a ∧ (s.packets a).space = i

section Valid

variable {s s' : Flight} {L : Layout} {m : Prop} {i i' : ℕ}

theorem cursorValid_iff (hL : s.Linked L none) (i : ℕ) :
    s.CursorValid i ↔ ∀ a ∈ s.cursor i, a ∈ L.queue i :=
  forall₂_congr fun a _ => by rw [hL.mem_queue, IsQueued, and_assoc]

section

variable (hs : s.CursorValid i)

include hs

theorem CursorValid.of_undisturbed (h : s.Undisturbed s') :
    s'.CursorValid i := by
  intro a ha
  rw [cursor, h.contexts_eq] at ha
  rw [IsQueued, h.inUse_eq, h.queued_eq, h.space_eq]
  exact hs a ha

theorem CursorValid.drain (h : ∀ a ∈ s.cursor i, a ∉ l) :
    (s.drain i' l).CursorValid i := by
  intro a ha
  rw [cursor_drain] at ha
  rw [isQueued_drain (h a ha), space_drain (h a ha)]
  exact hs a ha

theorem CursorValid.not_mem_of_ne (hL : s.Linked L none)
    (hl : ∀ b ∈ l, b ∈ L.queue i') (h : i ≠ i') : ∀ a ∈ s.cursor i, a ∉ l := fun a ha hmem =>
  h ((hs a ha).2.symm.trans ((hL.mem_queue i' a).mp (hl a hmem)).2.2)

theorem CursorValid.of_subset (hL : s.Linked L none) {L' : Layout}
    (hL' : s'.Linked L' none) (hcursor : s'.cursor i = s.cursor i)
    (h : L.queue i ⊆ L'.queue i) : s'.CursorValid i := by
  rw [cursorValid_iff hL', hcursor]
  exact fun a ha => h ((cursorValid_iff hL i).mp hs a ha)

/-- A reset leaves the cursors of the other spaces valid, and its own one if there is none. -/
theorem CursorValid.resetPacketContext (ha : s.Accounted L m)
    (h : i ≠ i' ∨ s.cursor i = none) : (s.resetPacketContext i').CursorValid i := by
  obtain ⟨L', l, hL', hdrain, hl⟩ := emptyQueue_walked ha i' (s.inUse.length + 1)
  have hmid : (emptyQueue i' (s.inUse.length + 1) s).CursorValid i := by
    rw [hdrain]
    refine hs.drain ?_
    obtain hne | hnone := h
    · exact hs.not_mem_of_ne ha.linked (fun b hb => (hl b hb).1) hne
    · simp [hnone]
  obtain ⟨r, hr⟩ := emptyRetransmitted_accounted hL' i'
    ((emptyQueue i' (s.inUse.length + 1) s).inUse.length + 1)
  exact hmid.of_subset hL'.linked hr.linked (cursor_emptyRetransmitted _ i' i _)
    (List.Subset.refl _)

end

end Valid

/-! ### Steps -/

/-- The packet under a cursor is not among those that leave. An acknowledgement passes it if it
names it in none of its ranges, if it is a trap, or if the acknowledgement is not new and the packet
is not the oldest one. -/
def CursorKept (s : Flight) : Event → Prop
  | .ackFrame i largest ranges => ∀ a ∈ s.cursor i,
      (s.packets a).isAckTrap = true ∨
      (¬ (s.contexts i).IsNewAck largest ∧ (s.contexts i).retransmitOldest ≠ some a) ∨
      ∀ r ∈ ranges, ¬ r.Acks (s.packets a).sequenceNumber
  | .declareLost a _ => s.cursor (s.packets a).space ≠ some a
  | .implicitHandshakeAck i => ∀ a ∈ s.cursor i, (s.contexts i).retransmitOldest ≠ some a
  | .resetPacketContext i => s.cursor i = none
  | _ => True

instance (s : Flight) : ∀ e, Decidable (s.CursorKept e)
  | .ackFrame i largest ranges =>
    inferInstanceAs (Decidable (∀ a ∈ s.cursor i,
      (s.packets a).isAckTrap = true ∨
      (¬ (s.contexts i).IsNewAck largest ∧ (s.contexts i).retransmitOldest ≠ some a) ∨
      ∀ r ∈ ranges, ¬ r.Acks (s.packets a).sequenceNumber))
  | .declareLost a _ => inferInstanceAs (Decidable (s.cursor (s.packets a).space ≠ some a))
  | .implicitHandshakeAck i =>
    inferInstanceAs (Decidable (∀ a ∈ s.cursor i, (s.contexts i).retransmitOldest ≠ some a))
  | .resetPacketContext i => inferInstanceAs (Decidable (s.cursor i = none))
  | .enableMultipath | .createPath .. | .renewConnectionId .. | .transmit .. | .insertHole ..
  | .dropRetransmitted .. | .removeStashedCnxid .. | .deletePath .. | .preemptiveRetransmit .. =>
    inferInstanceAs (Decidable True)

section Step

variable {s : Flight} {L : Layout} {m : Prop}

theorem CursorValid.processAckFrame {i i' : ℕ} (hs : s.CursorValid i') (ha : s.Accounted L m)
    {largest : ℕ} {ranges : List AckRange} (h : s.CursorKept (.ackFrame i largest ranges)) :
    (s.processAckFrame i largest ranges).CursorValid i' := by
  obtain ⟨-, l, -, ⟨n, hdrain⟩, hl⟩ := processAckFrame_walked ha i largest ranges
  have hcursor : ∀ i', (s.setContext i { s.contexts i with highestAcknowledged := n }).cursor i' =
      s.cursor i' := fun i' => by
    apply cursor_setContext_of_eq
    rfl
  have hs' : (s.setContext i { s.contexts i with highestAcknowledged := n }).CursorValid i' :=
    fun a ha => hs a (hcursor i' ▸ ha)
  rw [hdrain]
  refine hs'.drain fun a ha' hmem => ?_
  rw [hcursor] at ha'
  obtain ⟨hqueue, hreach, r, hr, htrap, hacks⟩ := hl a hmem
  obtain rfl : i = i' :=
    ((ha.linked.mem_queue i a).mp hqueue).2.2.symm.trans (hs a ha').2
  obtain htrap' | ⟨hnew, holdest⟩ | hranges := h a ha'
  · exact Bool.true_eq_false.mp (htrap'.symm.trans htrap)
  · exact hreach.elim hnew holdest
  · exact hranges r hr hacks

theorem undisturbed_formatRepeat (s : Flight) (x : RepeatInput) (fuel : ℕ) (a : Option ℕ) :
    s.Undisturbed (formatRepeat x fuel s a).1 := by
  induction fuel generalizing s a with
  | zero => exact Undisturbed.refl s
  | succ fuel ih =>
    cases a with
    | none => exact Undisturbed.refl s
    | some a =>
      have hmark : s.Undisturbed
          (s.setPacket a { s.packets a with wasPreemptivelyRepeated := true }) :=
        ⟨rfl, rfl, fun b => by apply setPacket_field FlightPacket.isQueuedForRetransmit; rfl,
          fun b => by apply setPacket_field FlightPacket.space; rfl⟩
      rw [formatRepeat]
      split_ifs
      · exact ih s _
      · exact Undisturbed.refl s
      · cases x.result a with
        | fails => exact Undisturbed.refl s
        | succeeds hasData isRepeated =>
          cases hasData with
          | false => exact ih s _
          | true =>
            cases isRepeated with
            | false => exact Undisturbed.refl s
            | true => exact hmark

/-- A cursor is set to a packet of its queue. -/
theorem CursorValid.setCursor (hs : ∀ i, s.CursorValid i) (hL : s.Linked L none) {i : ℕ}
    {a : Option ℕ} (ha : ∀ b ∈ a, b ∈ L.queue i) (i' : ℕ) :
    (s.setContext i { s.contexts i with preemptiveRepeatPtr := a }).CursorValid i' := by
  intro b hb
  by_cases hi : i' = i
  · subst hi
    rw [cursor_setContext] at hb
    obtain ⟨huse, hqueued, hspace⟩ := (hL.mem_queue i' b).mp (ha b hb)
    exact ⟨⟨huse, hqueued⟩, hspace⟩
  · rw [cursor_setContext_of_ne _ _ hi] at hb
    exact hs i' b hb

/-- A preemptive repeat moves the cursor along the queue. -/
theorem CursorValid.preemptiveRetransmitInContext (hs : ∀ i, s.CursorValid i)
    (ha : s.Accounted L m) (i : ℕ) (x : RepeatInput) (i' : ℕ) :
    (s.preemptiveRetransmitInContext i x).CursorValid i' := by
  rw [Flight.preemptiveRetransmitInContext]
  split_ifs
  · exact hs i'
  · have hstart := skipOldPackets_mem ha.linked x (cursor_or_oldest_mem ha.linked
      ((cursorValid_iff ha.linked i).mp (hs i))) (s.inUse.length + 1)
    have hs' := fun i' => (hs i').of_undisturbed (undisturbed_formatRepeat s x (s.inUse.length + 1)
      (s.skipOldPackets x (s.inUse.length + 1)
        ((s.contexts i).preemptiveRepeatPtr.or (s.contexts i).retransmitOldest)))
    exact CursorValid.setCursor hs' (ha.formatRepeat x _ _).linked
      (formatRepeat_mem ha x hstart (s.inUse.length + 1)) i'

/-- **The step lemma.** -/
theorem CursorValid.step (hs : ∀ i, s.CursorValid i) (ha : s.Accounted L m) {e : Event}
    (he : s.CursorKept e) (i : ℕ) : (Flight.step s e).CursorValid i := by
  cases e with
  | enableMultipath => exact hs i
  | createPath j cnxid =>
    rw [Flight.step]
    split_ifs
    · exact hs i
    · exact hs i
  | renewConnectionId j cnxid => exact hs i
  | transmit x =>
    rw [Flight.step]
    split_ifs with hguard
    · exact hs i
    · rw [not_or, not_not] at hguard
      have hfalse : s.Accounted L False := ⟨ha.linked, False.elim⟩
      obtain ⟨L', hL', hqueue⟩ :=
        hfalse.finalizeAndProtectPacket hguard.1 hguard.2 False.elim
      exact (hs i).of_subset ha.linked hL'.linked (cursor_finalizeAndProtectPacket s i x) (hqueue i)
  | insertHole a j sendTime =>
    rw [Flight.step]
    split_ifs with hguard
    · exact hs i
    · rw [not_or, not_not] at hguard
      obtain ⟨L', hL', hqueue⟩ := ha.insertHoleInSendSequence hguard.1 hguard.2 sendTime
      exact (hs i).of_subset ha.linked hL'.linked
        (cursor_insertHoleInSendSequence s i a j sendTime) (hqueue i)
  | ackFrame i' largest ranges => exact (hs i).processAckFrame ha he
  | declareLost a shouldFree =>
    rw [Flight.step]
    split_ifs
    · intro b hb
      rw [cursor_dequeueRetransmitPacket] at hb
      obtain ⟨hqueued, hspace⟩ := hs i b hb
      -- what is lost is not under the cursor
      have hba : b ≠ a := by
        rintro rfl
        exact he (hspace ▸ hb)
      have hstamp : stamp ((s.dequeueRetransmitPacket (s.packets a).space a shouldFree).packets b) =
          stamp (s.packets b) := stamp_dequeueRetransmitPacket hba
      simp only [stamp, Prod.mk.injEq] at hstamp
      exact ⟨(isQueued_dequeueRetransmitPacket hba shouldFree).mpr hqueued,
        hstamp.2.2.2.2.2.2.trans hspace⟩
    · exact hs i
  | dropRetransmitted a =>
    rw [Flight.step]
    split_ifs with hguard
    · have hmem : a ∈ L.retransmitted (s.packets a).space :=
        (ha.linked.mem_retransmitted _ a).mpr ⟨by simp, hguard.1, hguard.2, rfl⟩
      exact (hs i).of_subset ha.linked (ha.dequeueRetransmittedPacket hmem).linked
        (cursor_setRetransmittedList s _ i _) (List.Subset.refl _)
    · exact hs i
  | implicitHandshakeAck i' =>
    have holdest := AtRest.oldest ha.linked i'
    obtain ⟨-, l, -, hdrain, hl⟩ := dequeueAlong_walked ha holdest s.inUse.length
    -- what is drained is not under a cursor
    have hstay : ∀ a ∈ s.cursor i, a ∉ l := fun a hcursor hmem => by
      obtain rfl | hne := eq_or_ne i i'
      · exact he a hcursor (Option.mem_toList.mp (hl a hmem).1)
      · exact (hs i).not_mem_of_ne ha.linked (fun b hb => holdest.suffix.subset (hl b hb).1) hne a
          hcursor hmem
    rw [Flight.step, Flight.implicitHandshakeAck, hdrain]
    exact (hs i).drain hstay
  | resetPacketContext i' =>
    refine (hs i).resetPacketContext ha ?_
    obtain rfl | hne := eq_or_ne i i'
    · exact Or.inr he
    · exact Or.inl hne
  | removeStashedCnxid cnxid =>
    intro a hcursor
    by_cases hi : i = 3 + cnxid
    · -- the context is freed with its cursor
      subst hi
      rw [Flight.step, removeStashedCnxid, cursor_setContext] at hcursor
      cases hcursor
    · rw [Flight.step, removeStashedCnxid, cursor_setContext_of_ne _ _ hi] at hcursor
      exact (hs i).resetPacketContext ha (Or.inl hi) a hcursor
  | deletePath j =>
    rw [Flight.step]
    split_ifs
    · exact (hs i).of_undisturbed (undisturbed_deletePath s j)
    · exact hs i
  | preemptiveRetransmit i' x => exact CursorValid.preemptiveRetransmitInContext hs ha i' x i

end Step

/-! ### Runs -/

/-- Each cursor points to a packet of the queue of its space. -/
def CursorsInQueue (s : Flight) : Prop :=
  ∀ i, ∃ l, (s.queueList i).Is l ∧ ∀ a ∈ (s.contexts i).preemptiveRepeatPtr, a ∈ l

/-- **The cursors.** -/
theorem cursor_run (first : ℕ → ℕ) (evs : List Event)
    (h : Along step CursorKept (init first) evs) : (run first evs).CursorsInQueue := by
  obtain ⟨⟨L, hL⟩, hcursor⟩ := run_invariant_of_along
    (I := fun s : Flight => (∃ L, s.Accounted L False) ∧ ∀ i, s.CursorValid i)
    (fun s e hs he => by
      obtain ⟨⟨L, hL⟩, hs⟩ := hs
      exact ⟨hL.step False.elim, CursorValid.step hs hL he⟩)
    ⟨⟨_, accounted_init first False⟩, fun _ a ha => (Option.not_mem_none a ha).elim⟩ h
  exact fun i => ⟨L.queue i, hL.linked.queue_is i, (cursorValid_iff hL.linked i).mp (hcursor i)⟩

/-- A packet with 1-RTT data. -/
def dataPacket (address sendTime : ℕ) : Transmission where
  caller := .ready
  isOldContext := false
  address := address
  path := 0
  pc := 0
  isOneRtt := true
  sendTime := sendTime
  length := 100
  headerLength := 30
  writtenHeaderLength := 30
  fuzzedLength := 100
  aeadChecksumLength := 16

/-- A preemptive repeat that finds something to repeat in each packet. -/
def repeatInput : RepeatInput where
  rtt := 1000000
  currentTime := 200000
  latestProgressTime := 0
  latestReceiveTime := 0
  testOnly := false
  result := fun _ => .succeeds true true

theorem cursor_run_repeats :
    (run (fun _ => 0) [.createPath 0 0, .transmit (dataPacket 1 0), .transmit (dataPacket 2 10),
      .preemptiveRetransmit 0 repeatInput, .ackFrame 0 0 [⟨0, 1⟩],
      .preemptiveRetransmit 0 repeatInput]).CursorsInQueue :=
  cursor_run _ _ (by decide)

/-- The packet under the cursor is acknowledged. -/
theorem cursor_dangles :
    ¬ (run (fun _ => 0) [.createPath 0 0, .transmit (dataPacket 1 0), .transmit (dataPacket 2 10),
      .preemptiveRetransmit 0 repeatInput, .ackFrame 0 1 [⟨1, 2⟩]]).CursorsInQueue := by
  intro h
  obtain ⟨l, hl, hcursor⟩ := h 0
  have hnil : l = [] := hl.eq_nil rfl
  subst hnil
  exact List.not_mem_nil (hcursor 2 rfl)

end Flight

end Picoquic
