import Picoquic.Flight.Drain

/-!
# The bytes in transit

* `Accounted.step` — the step lemma: the pointers stay those of a layout, and the counters stay
  right if what is added to them is what is taken away later;
* `WellMeasured` — that is so if what the protection of a packet returns is the length of the packet
  with its checksum;
* `bytesInTransit_run` — the theorem about runs.

A server that sends a packet of the initial context while it is in the handshake passes another
overhead than the one that is added: `bytesInTransit_drifts`.
-/

namespace Picoquic

open Runs

namespace Flight

/-! ### Paths that are deleted -/

variable {pointer : Option ℕ}

section Delete

variable {s : Flight} {L : Layout} {m : Prop} {j a : ℕ}

/-- The counters are right but for a path that is about to be deleted. -/
structure AccountedBut (s : Flight) (L : Layout) (m : Prop) (j : ℕ) : Prop where
  linked : s.Linked L none
  counted : m → ∀ j' ≠ j,
    (s.paths j').bytesInTransit = ((L.onPath j').map fun a => charge (s.packets a)).sum

theorem Accounted.but (hs : s.Accounted L m) (j : ℕ) : s.AccountedBut L m j :=
  ⟨hs.linked, fun hm j' _ => hs.counted hm j'⟩

theorem charge_forgetPath (s : Flight) (a b : ℕ) :
    charge ((s.forgetPath a).packets b) = charge (s.packets b) := by
  apply setPacket_field charge
  rfl

theorem AccountedBut.forgetPath (hs : s.AccountedBut L m j)
    (hp : (s.packets a).isQueuedToPath = false) : (s.forgetPath a).AccountedBut L m j := by
  refine ⟨hs.linked.forgetPath hp, fun hm j' hj' => (hs.counted hm j' hj').trans ?_⟩
  exact (sum_charge_congr fun b _ => charge_forgetPath s a b).symm

/-- A packet in flight is taken off its path. -/
theorem Linked.releaseFromPath (hL : s.Linked L none) (ha : a ∈ L.onPath j) :
    ((s.dequeuePacketFromPath a).forgetPath a).Linked
      { L with onPath := fun j => (L.onPath j).erase a } none := by
  obtain ⟨huse, honPath, hpath⟩ := (hL.mem_path j a).mp ha
  have hqueued : (s.packets a).isQueuedForRetransmit = true :=
    (hL.flags a huse (by simp) (by simp [hpath])).symm.trans honPath
  have hmid := (hL.depart hqueued).dequeuePacketFromPath huse
  have hsend : ((s.dequeuePacketFromPath a).packets a).sendPath = some j :=
    (congrArg Prod.fst (stamp_dequeuePacketFromPath s a a)).trans hpath
  have hleft : ((s.dequeuePacketFromPath a).packets a).isQueuedToPath = false := by
    refine Bool.eq_false_iff.mpr fun hp => ?_
    have hmem := (hmid.mem_path j a).mpr
      ⟨(inUse_dequeuePacketFromPath s a).symm ▸ huse, hp, hsend⟩
    exact (hL.path_is j).nodup.not_mem_erase hmem
  refine (hmid.forgetPath hleft).arrive ?_ fun hne => absurd (sendPath_forgetPath _ a) hne
  rw [isQueued_forgetPath, isQueued_dequeuePacketFromPath]
  exact hqueued

theorem AccountedBut.releaseFromPath (hs : s.AccountedBut L m j) (ha : a ∈ L.onPath j) :
    ((s.dequeuePacketFromPath a).forgetPath a).AccountedBut
      { L with onPath := fun j => (L.onPath j).erase a } m j := by
  refine ⟨hs.linked.releaseFromPath ha, fun hm j' hj' => ?_⟩
  have hnot : a ∉ L.onPath j' := fun hmem =>
    hj' (Option.some.inj (((hs.linked.mem_path j' a).mp hmem).2.2.symm.trans
      ((hs.linked.mem_path j a).mp ha).2.2))
  change ((s.dequeuePacketFromPath a).paths j').bytesInTransit =
    (((L.onPath j').erase a).map _).sum
  rw [bytesInTransit_dequeuePacketFromPath, List.erase_of_not_mem hnot, hs.counted hm j' hj']
  refine (sum_charge_congr fun b _ => ?_).symm
  rw [charge_forgetPath, charge_eq_of_stamp (stamp_dequeuePacketFromPath s a b)]

/-- The oldest packet of a path points to the next older one of those that stay. -/
theorem Linked.oldest_onPath {h : Option ℕ} (hL : s.Linked L h)
    (ha : (L.onPath j).getLast? = some a) :
    a ∈ L.onPath j ∧ (s.packets a).pathNext = ((L.onPath j).erase a).getLast? := by
  obtain ⟨l, hl⟩ := List.getLast?_eq_some_iff.mp ha
  have hlist := hL.path_is j
  rw [hl] at hlist ⊢
  have hnot : a ∉ l := fun hal =>
    (List.nodup_append.mp hlist.nodup).2.2 a hal a List.mem_cons_self rfl
  refine ⟨List.mem_append_right l List.mem_cons_self, ?_⟩
  rw [List.erase_append_right _ hnot, List.erase_cons_head, List.append_nil]
  exact hlist.neighbours.2

section

variable (hs : s.AccountedBut L m j)

include hs

/-- The packets of a path are taken off it from the oldest one on, until none is left. -/
theorem AccountedBut.emptyPathPacketQueue
    (hpointer : pointer = (L.onPath j).getLast?) {fuel : ℕ} (hfuel : (L.onPath j).length ≤ fuel) :
    ∃ L', (emptyPathPacketQueue fuel s pointer).AccountedBut L' m j ∧ L'.onPath j = [] := by
  induction fuel generalizing s L pointer with
  | zero => exact ⟨L, hs, List.length_eq_zero_iff.mp (Nat.le_zero.mp hfuel)⟩
  | succ fuel ih =>
    cases pointer with
    | none => exact ⟨L, hs, List.getLast?_eq_none_iff.mp hpointer.symm⟩
    | some a =>
      obtain ⟨hmem, hnext⟩ := hs.linked.oldest_onPath hpointer.symm
      refine ih (hs.releaseFromPath hmem) hnext ?_
      change ((L.onPath j).erase a).length ≤ fuel
      rw [List.length_erase_of_mem hmem]
      omega

/-- The retransmitted packets of a space are on no path, so they may forget theirs. -/
theorem AccountedBut.erasePath {i : ℕ}
    (hpointer : ∀ a ∈ pointer, a ∈ L.retransmitted i) (fuel : ℕ) :
    (erasePath j fuel s pointer).AccountedBut L m j := by
  induction fuel generalizing s pointer with
  | zero => exact hs
  | succ fuel ih =>
    cases pointer with
    | none => exact hs
    | some a =>
      have hmem := hpointer a rfl
      rw [Flight.erasePath]
      refine ih ?_ fun b hb => ((hs.linked.retransmitted_is i).mem_of_next hmem hb).1
      split_ifs with hsend
      · refine hs.forgetPath ?_
        obtain ⟨-, huse, hqueued, -⟩ := (hs.linked.mem_retransmitted i a).mp hmem
        exact (hs.linked.flags a huse (by simp) (by simp [hsend])).trans hqueued
      · exact hs

theorem AccountedBut.erasePathIn (i : ℕ) :
    (erasePathIn j s i).AccountedBut L m j :=
  hs.erasePath (fun _ ha => (hs.linked.retransmitted_is i).mem_of_first ha) _

/-- The path itself goes when its list is empty. -/
theorem AccountedBut.forget (hnil : L.onPath j = []) (t : List ℕ)
    (ht : ∀ j' ∉ t, j' ∉ s.pathTable ∨ j' = j) (cnxid : ℕ) :
    ({ s with pathTable := t }.setPath j ⟨none, none, 0, cnxid⟩).Accounted L m := by
  refine ⟨{ hs.linked with path_is := fun j' => ?_, no_path := fun j' hj' => ?_ },
    fun hm j' => ?_⟩
  · by_cases hj' : j' = j
    · subst hj'
      rw [hnil]
      refine ⟨List.nodup_nil, ?_, ?_, trivial⟩ <;> simp [pathList, setPath]
    · refine (hs.linked.path_is j').congr ?_ ?_ (fun _ _ => rfl) fun _ _ => rfl <;>
        simp [pathList, setPath, hj']
  · obtain hj' | rfl := ht j' hj'
    · exact hs.linked.no_path j' hj'
    · exact hnil
  · by_cases hj' : j' = j
    · subst hj'
      simp [setPath, hnil]
    · refine Eq.trans ?_ (hs.counted hm j' hj')
      simp [setPath, hj']

end

/-- **A path is deleted.** -/
theorem Accounted.deletePath (hs : s.Accounted L m) (j : ℕ) :
    ∃ L', (s.deletePath j).Accounted L' m := by
  have hfuel : (L.onPath j).length ≤ s.inUse.length :=
    ((hs.linked.path_is j).nodup.subperm fun _ ha => hs.linked.inUse_of_mem_path ha).length_le
  obtain ⟨L', hempty, hnil⟩ :=
    (hs.but j).emptyPathPacketQueue (hs.linked.path_is j).last_eq hfuel
  refine ⟨L', (((hempty.erasePathIn 0).erasePathIn 1).erasePathIn 2).forget hnil _
    (fun j' hj' => ?_) 0⟩
  by_cases hne : j' = j
  · exact Or.inr hne
  · exact Or.inl fun hmem => hj' ((List.mem_erase_of_ne hne).mpr hmem)

end Delete

/-! ### Preemptive repeats -/

section PreemptiveRepeat

variable {s : Flight} {L : Layout} {m : Prop} {i : ℕ}

theorem skipOldPackets_mem (hL : s.Linked L none) (x : RepeatInput) {a : Option ℕ}
    (ha : ∀ b ∈ a, b ∈ L.queue i) (fuel : ℕ) : ∀ b ∈ s.skipOldPackets x fuel a, b ∈ L.queue i := by
  induction fuel generalizing a with
  | zero => exact ha
  | succ fuel ih =>
    cases a with
    | none => exact ha
    | some a =>
      rw [skipOldPackets]
      split_ifs
      · exact ha
      · exact ih fun b hb => ((hL.queue_is i).mem_of_previous (ha a rfl) hb).1

theorem Accounted.setRepeated (hs : s.Accounted L m) (a : ℕ) :
    (s.setPacket a { s.packets a with wasPreemptivelyRepeated := true }).Accounted L m := by
  refine ⟨by apply hs.linked.setPacket_same <;> rfl, fun hm j => (hs.counted hm j).trans ?_⟩
  refine (sum_charge_congr fun b _ => ?_).symm
  apply setPacket_field charge
  rfl

theorem Accounted.formatRepeat (hs : s.Accounted L m) (x : RepeatInput) (a : Option ℕ)
    (fuel : ℕ) : (formatRepeat x fuel s a).1.Accounted L m := by
  induction fuel generalizing s a with
  | zero => exact hs
  | succ fuel ih =>
    cases a with
    | none => exact hs
    | some a =>
      rw [Flight.formatRepeat]
      split_ifs
      · exact ih hs _
      · exact hs
      · cases x.result a with
        | fails => exact hs
        | succeeds hasData isRepeated =>
          cases hasData with
          | false => exact ih hs _
          | true =>
            cases isRepeated with
            | false => exact hs
            | true => exact hs.setRepeated a

/-- The cursor moves along the queue. -/
theorem formatRepeat_mem (hs : s.Accounted L m) (x : RepeatInput) {a : Option ℕ}
    (ha : ∀ b ∈ a, b ∈ L.queue i) (fuel : ℕ) :
    ∀ b ∈ (formatRepeat x fuel s a).2, b ∈ L.queue i := by
  induction fuel generalizing s a with
  | zero => exact ha
  | succ fuel ih =>
    cases a with
    | none => exact ha
    | some a =>
      have hprev : ∀ b ∈ (s.packets a).previous, b ∈ L.queue i := fun b hb =>
        ((hs.linked.queue_is i).mem_of_previous (ha a rfl) hb).1
      rw [Flight.formatRepeat]
      split_ifs
      · exact ih hs hprev
      · exact ha
      · cases x.result a with
        | fails => exact ha
        | succeeds hasData isRepeated =>
          cases hasData with
          | false => exact ih hs hprev
          | true => exact hprev

/-- Where the cursor of a space starts. -/
theorem cursor_or_oldest_mem (hL : s.Linked L none)
    (hcursor : ∀ b ∈ (s.contexts i).preemptiveRepeatPtr, b ∈ L.queue i) :
    ∀ b ∈ ((s.contexts i).preemptiveRepeatPtr).or (s.contexts i).retransmitOldest,
      b ∈ L.queue i := by
  intro b hb
  cases hc : (s.contexts i).preemptiveRepeatPtr with
  | none =>
    rw [hc, Option.none_or] at hb
    exact (hL.queue_is i).mem_of_last hb
  | some c =>
    rw [hc, Option.some_or] at hb
    obtain rfl := Option.mem_some.mp hb
    exact hcursor c hc

end PreemptiveRepeat

/-! ### Steps -/

/-- The packet is sent. -/
def Transmission.IsSent (x : Transmission) : Prop :=
  x.length ≠ 0 ∧ x.headerLength ≤ x.length ∧ 0 < x.sendLength

instance (x : Transmission) : Decidable x.IsSent := inferInstanceAs (Decidable (_ ∧ _))

/-- What the protection of a packet that is sent returns is the length of the packet with its
checksum. -/
def WellMeasured : Event → Prop
  | .transmit x => x.IsSent → x.sendLength = x.length + x.checksumOverhead
  | _ => True

instance : ∀ e, Decidable (WellMeasured e)
  | .transmit x =>
    inferInstanceAs (Decidable (x.IsSent → x.sendLength = x.length + x.checksumOverhead))
  | .enableMultipath | .createPath .. | .renewConnectionId .. | .insertHole .. | .ackFrame ..
  | .declareLost .. | .dropRetransmitted .. | .implicitHandshakeAck .. | .resetPacketContext ..
  | .removeStashedCnxid .. | .deletePath .. | .preemptiveRetransmit .. =>
    inferInstanceAs (Decidable True)

section Step

variable {s : Flight} {L : Layout} {m : Prop}

section

variable (hs : s.Accounted L m)

include hs

theorem Accounted.finalizeAndProtectPacket {x : Transmission}
    (ha : x.address ∉ s.inUse) (hj : x.path ∈ s.pathTable) (hx : m → WellMeasured (.transmit x)) :
    ∃ L', (s.finalizeAndProtectPacket x).Accounted L' m ∧ ∀ i, L.queue i ⊆ L'.queue i := by
  rw [Flight.finalizeAndProtectPacket]
  split_ifs with hlength hsend
  · exact ⟨L, hs, fun _ => List.Subset.refl _⟩
  · have hlinked : (s.takeNumber (s.sentPacket x).space).Accounted L m := hs.takeNumber _
    refine ⟨_, hlinked.queueForRetransmit ha hj rfl rfl rfl x.sendLength fun hm _ => ?_,
      L.queue_subset_add _ _ _⟩
    exact hx hm ⟨by omega, by omega, hsend⟩
  · exact ⟨L, hs.takeNumber _, fun _ => List.Subset.refl _⟩

theorem Accounted.insertHoleInSendSequence {a j : ℕ} (ha : a ∉ s.inUse)
    (hj : j ∈ s.pathTable) (sendTime : ℕ) :
    ∃ L', (s.insertHoleInSendSequence a j sendTime).Accounted L' m ∧
      ∀ i, L.queue i ⊆ L'.queue i := by
  have hlinked : (s.takeNumber (s.ackTrap j sendTime).space).Accounted L m := hs.takeNumber _
  refine ⟨_, hlinked.queueForRetransmit (p := s.ackTrap j sendTime) ha hj rfl rfl rfl 0
    fun _ htrap => ?_, L.queue_subset_add _ _ _⟩
  exact (Bool.true_eq_false.mp htrap).elim

theorem Accounted.resetPacketContext (i : ℕ) :
    ∃ L', (s.resetPacketContext i).Accounted L' m := by
  obtain ⟨L₁, l, hqueue, -⟩ := emptyQueue_walked hs i (s.inUse.length + 1)
  obtain ⟨r, hr⟩ := emptyRetransmitted_accounted hqueue i
    ((emptyQueue i (s.inUse.length + 1) s).inUse.length + 1)
  exact ⟨_, hr⟩

/-- What a list or a counter does not depend on may change in a path. -/
theorem Accounted.setCnxid (j cnxid : ℕ) :
    (s.setPath j { s.paths j with cnxid := cnxid }).Accounted L m := by
  refine ⟨hs.linked.of_eq (fun _ => rfl) (fun _ => rfl) (fun j' => ?_) rfl rfl fun _ => rfl,
    fun hm j' => Eq.trans ?_ (hs.counted hm j')⟩ <;> by_cases hj : j' = j
  · subst hj
    simp [pathList, setPath]
  · simp [pathList, setPath, hj]
  · subst hj
    simp [setPath]
  · simp [setPath, hj]

/-- **The step lemma.** -/
theorem Accounted.step {e : Event} (he : m → WellMeasured e) :
    ∃ L', (step s e).Accounted L' m := by
  cases e with
  | enableMultipath =>
    exact ⟨L, hs.linked.of_eq (fun _ => rfl) (fun _ => rfl) (fun _ => rfl) rfl rfl fun _ => rfl,
      hs.counted⟩
  | createPath j cnxid =>
    rw [Flight.step]
    split_ifs with hj
    · exact ⟨L, hs⟩
    · exact ⟨L, (hs.but j).forget (hs.linked.no_path j hj) _
        (fun j' hj' => Or.inl fun hmem => hj' (List.mem_cons_of_mem j hmem)) cnxid⟩
  | renewConnectionId j cnxid => exact ⟨L, hs.setCnxid j cnxid⟩
  | transmit x =>
    rw [Flight.step]
    split_ifs with hguard
    · exact ⟨L, hs⟩
    · rw [not_or, not_not] at hguard
      obtain ⟨L', hs', -⟩ := hs.finalizeAndProtectPacket hguard.1 hguard.2 he
      exact ⟨L', hs'⟩
  | insertHole a j sendTime =>
    rw [Flight.step]
    split_ifs with hguard
    · exact ⟨L, hs⟩
    · rw [not_or, not_not] at hguard
      obtain ⟨L', hs', -⟩ := hs.insertHoleInSendSequence hguard.1 hguard.2 sendTime
      exact ⟨L', hs'⟩
  | ackFrame i largest ranges =>
    obtain ⟨L', l, hs', -⟩ := processAckFrame_walked hs i largest ranges
    exact ⟨L', hs'⟩
  | declareLost a shouldFree =>
    rw [Flight.step]
    split_ifs with hguard
    · have hmem : a ∈ L.queue (s.packets a).space :=
        (hs.linked.mem_queue _ a).mpr ⟨hguard.1, hguard.2, rfl⟩
      obtain ⟨r, hr⟩ := hs.dequeueRetransmitPacket hmem shouldFree
      exact ⟨_, hr⟩
    · exact ⟨L, hs⟩
  | dropRetransmitted a =>
    rw [Flight.step]
    split_ifs with hguard
    · have hmem : a ∈ L.retransmitted (s.packets a).space :=
        (hs.linked.mem_retransmitted _ a).mpr ⟨by simp, hguard.1, hguard.2, rfl⟩
      exact ⟨_, hs.dequeueRetransmittedPacket hmem⟩
    · exact ⟨L, hs⟩
  | implicitHandshakeAck i =>
    obtain ⟨L', l, hs', -⟩ := dequeueAlong_walked hs (AtRest.oldest hs.linked i) s.inUse.length
    exact ⟨L', hs'⟩
  | resetPacketContext i => exact hs.resetPacketContext i
  | removeStashedCnxid cnxid =>
    obtain ⟨L', hs'⟩ := hs.resetPacketContext (3 + cnxid)
    exact ⟨L', hs'.setContext rfl rfl rfl rfl⟩
  | deletePath j =>
    rw [Flight.step]
    split_ifs
    · exact hs.deletePath j
    · exact ⟨L, hs⟩
  | preemptiveRetransmit i x =>
    rw [Flight.step, preemptiveRetransmitInContext]
    split_ifs
    · exact ⟨L, hs⟩
    · exact ⟨L, (hs.formatRepeat x _ _).setContext rfl rfl rfl rfl⟩

end

end Step

/-! ### Runs -/

theorem accounted_init (first : ℕ → ℕ) (m : Prop) :
    (init first).Accounted ⟨fun _ => [], fun _ => [], fun _ => []⟩ m := by
  refine ⟨⟨fun _ => ?_, fun _ => ?_, fun _ => ?_, ?_, ?_, ?_, ?_, fun _ _ => rfl, List.nodup_nil⟩,
    fun _ _ => rfl⟩
  · exact ⟨List.nodup_nil, rfl, rfl, trivial⟩
  · exact ⟨List.nodup_nil, rfl, rfl, trivial⟩
  · exact ⟨List.nodup_nil, rfl, rfl, trivial⟩
  all_goals simp [init]

/-- A packet is in the queue of its space. -/
def IsQueued (s : Flight) (a : ℕ) : Prop :=
  a ∈ s.inUse ∧ (s.packets a).isQueuedForRetransmit = true

/-- The queues are lists, each path lists the queued packets that were sent on it, and counts the
bytes of those that are not traps. -/
def InTransit (s : Flight) : Prop :=
  (∀ i, ∃ l, (s.queueList i).Is l ∧ ∀ a, a ∈ l ↔ s.IsQueued a ∧ (s.packets a).space = i) ∧
    ∀ j, ∃ l, (s.pathList j).Is l ∧
      (∀ a, a ∈ l ↔ s.IsQueued a ∧ (s.packets a).sendPath = some j) ∧
      (s.paths j).bytesInTransit = ((l.filter fun a => !(s.packets a).isAckTrap).map fun a =>
        (s.packets a).length + (s.packets a).checksumOverhead).sum

theorem sum_charge (s : Flight) (l : List ℕ) :
    (l.map fun a => charge (s.packets a)).sum = ((l.filter fun a => !(s.packets a).isAckTrap).map
      fun a => (s.packets a).length + (s.packets a).checksumOverhead).sum := by
  induction l with
  | nil => rfl
  | cons a l ih =>
    rw [List.map_cons, List.sum_cons, ih, charge]
    cases htrap : (s.packets a).isAckTrap <;> simp [htrap]

theorem Accounted.inTransit {s : Flight} {L : Layout} (hs : s.Accounted L True) : s.InTransit := by
  refine ⟨fun i => ⟨L.queue i, hs.linked.queue_is i, fun a => ?_⟩,
    fun j => ⟨L.onPath j, hs.linked.path_is j, fun a => ?_, ?_⟩⟩
  · rw [hs.linked.mem_queue, IsQueued, and_assoc]
  · -- a packet that knows its path is on it as long as it is queued
    rw [hs.linked.mem_path, IsQueued, and_assoc]
    refine and_congr_right fun huse => ⟨fun h => ?_, fun h => ?_⟩
    · exact ⟨(hs.linked.flags a huse (by simp) (by simp [h.2])).symm.trans h.1, h.2⟩
    · exact ⟨(hs.linked.flags a huse (by simp) (by simp [h.2])).trans h.1, h.2⟩
  · rw [hs.counted trivial j, sum_charge]

/-- **The bytes in transit.** -/
theorem bytesInTransit_run (first : ℕ → ℕ) (evs : List Event)
    (h : Along step (fun _ => WellMeasured) (init first) evs) : (run first evs).InTransit := by
  obtain ⟨L, hL⟩ := run_invariant_of_along (I := fun s : Flight => ∃ L, s.Accounted L True)
    (fun s e hs he => by
      obtain ⟨L, hL⟩ := hs
      exact hL.step fun _ => he)
    ⟨_, accounted_init first True⟩ h
  exact hL.inTransit

/-- A packet of the initial context, sent by a server. -/
def initialRepeat (isOldContext : Bool) : Transmission where
  caller := .serverInit
  isOldContext := isOldContext
  address := 1
  path := 0
  pc := 2
  isOneRtt := false
  sendTime := 0
  length := 100
  headerLength := 30
  writtenHeaderLength := 30
  fuzzedLength := 100
  aeadChecksumLength := 16

theorem bytesInTransit_run_repeat :
    (run (fun _ => 0) [.createPath 0 0, .transmit (initialRepeat false),
      .insertHole 2 0 5, .ackFrame 2 0 [⟨0, 1⟩], .deletePath 0]).InTransit :=
  bytesInTransit_run _ _ (by decide)

/-- The packet was counted with 16 bytes of checksum, and 8 are taken away with it. -/
theorem bytesInTransit_drifts :
    ¬ (run (fun _ => 0) [.createPath 0 0, .transmit (initialRepeat true),
      .ackFrame 2 0 [⟨0, 1⟩]]).InTransit := by
  intro h
  obtain ⟨l, hl, -, hbytes⟩ := h.2 0
  have hnil : l = [] := hl.eq_nil rfl
  subst hnil
  exact absurd hbytes (by decide)

end Flight

end Picoquic
