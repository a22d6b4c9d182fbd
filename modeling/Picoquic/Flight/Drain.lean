import Picoquic.Flight.Counted

/-!
# Packets that leave one after the other

The loops of the source take packets out of the queue of a space while they walk along it.

* `drain` — a list of packets leaves;
* `AtRest` — where a walk has come to;
* `dequeueAlong_walked`, `emptyQueue_walked`, `processAckFrame_walked` — each loop drains packets of
  the queue. An acknowledgement drains packets that it names.
-/

namespace Picoquic

namespace Flight

/-! ### Loops -/

/-- Packets leave the queue of a space, one after the other. -/
def drain (i : ℕ) (s : Flight) (l : List ℕ) : Flight :=
  l.foldl (fun s a => s.dequeueRetransmitPacket i a true) s

@[simp]
theorem drain_cons (i : ℕ) (s : Flight) (a : ℕ) (l : List ℕ) :
    s.drain i (a :: l) = (s.dequeueRetransmitPacket i a true).drain i l := rfl

theorem drain_append (i : ℕ) (s : Flight) (l l' : List ℕ) :
    s.drain i (l ++ l') = (s.drain i l).drain i l' :=
  List.foldl_append

variable {s : Flight} {L : Layout} {i a : ℕ} {rest : List ℕ} {m : Prop}

theorem stamp_drain {i b : ℕ} {l : List ℕ} (h : b ∉ l) :
    stamp ((s.drain i l).packets b) = stamp (s.packets b) := by
  induction l generalizing s with
  | nil => rfl
  | cons a l ih =>
    obtain ⟨hba, hbl⟩ := List.ne_and_not_mem_of_not_mem_cons h
    rw [drain_cons, ih hbl, stamp_dequeueRetransmitPacket hba]

/-- Where a walk over a queue has come to: the packet under the pointer is the first one of the
rest of the queue. -/
structure AtRest (L : Layout) (i : ℕ) (a : Option ℕ) (rest : List ℕ) : Prop where
  suffix : rest <:+ L.queue i
  head_eq : a = rest.head?

/-- The packet under the pointer leaves, and the walk goes on with the next one. -/
theorem AtRest.without (hL : s.Linked L none) (h : AtRest L i (some a) (a :: rest))
    (r : ℕ → List ℕ) : AtRest (L.without i a r) i (s.packets a).next rest := by
  obtain ⟨newer, hnewer⟩ := h.suffix
  have hqueue := hL.queue_is i
  rw [← hnewer] at hqueue
  refine ⟨⟨newer, ?_⟩, hqueue.neighbours.1⟩
  have hnot : a ∉ newer := fun hmem =>
    (List.nodup_append.mp hqueue.nodup).2.2 a hmem a List.mem_cons_self rfl
  rw [Layout.queue_without, ← hnewer, List.erase_append_right _ hnot, List.erase_cons_head]

theorem AtRest.pass (hL : s.Linked L none) (h : AtRest L i (some a) (a :: rest)) :
    AtRest L i (s.packets a).next rest := by
  obtain ⟨newer, hnewer⟩ := h.suffix
  have hqueue := hL.queue_is i
  rw [← hnewer] at hqueue
  refine ⟨⟨newer ++ [a], ?_⟩, hqueue.neighbours.1⟩
  rw [List.append_assoc, List.singleton_append, hnewer]

/-- The oldest packet has only itself before it. -/
theorem AtRest.oldest (hL : s.Linked L none) (i : ℕ) :
    AtRest L i (s.contexts i).retransmitOldest (s.contexts i).retransmitOldest.toList := by
  have hlast : (s.contexts i).retransmitOldest = (L.queue i).getLast? := (hL.queue_is i).last_eq
  rw [hlast]
  cases hq : (L.queue i).getLast? with
  | none => exact ⟨List.nil_suffix, rfl⟩
  | some a =>
    obtain ⟨l, hl⟩ := List.getLast?_eq_some_iff.mp hq
    exact ⟨⟨l, hl.symm⟩, rfl⟩

theorem AtRest.of_mem (ha : a ∈ L.queue i) : ∃ rest, AtRest L i (some a) rest := by
  obtain ⟨newer, older, h⟩ := List.append_of_mem ha
  exact ⟨a :: older, ⟨newer, h.symm⟩, rfl⟩

/-- What a walk over a queue comes to: packets of the rest that meet `p` have left. -/
structure Walked (s : Flight) (m : Prop) (i : ℕ) (rest : List ℕ) (p : FlightPacket → Prop)
    (s' : Flight) (L' : Layout) (l : List ℕ) : Prop where
  accounted : s'.Accounted L' m
  eq_drain : s' = s.drain i l
  mem : ∀ b ∈ l, b ∈ rest ∧ p (s.packets b)

theorem dequeueAlong_walked (hs : s.Accounted L m) {i : ℕ} {a : Option ℕ} (ha : AtRest L i a rest)
    (fuel : ℕ) : ∃ L' l, Walked s m i rest (fun _ => True) (dequeueAlong i fuel s a) L' l := by
  induction fuel generalizing s L a rest with
  | zero => exact ⟨L, [], hs, rfl, by simp⟩
  | succ fuel ih =>
    cases a with
    | none => exact ⟨L, [], hs, rfl, by simp⟩
    | some a =>
      obtain ⟨rest, rfl⟩ : ∃ rest', rest = a :: rest' :=
        List.head?_eq_some_iff.mp ha.head_eq.symm
      have hmem : a ∈ L.queue i := ha.suffix.subset List.mem_cons_self
      obtain ⟨r, hr⟩ := hs.dequeueRetransmitPacket hmem true
      obtain ⟨L', l, haccounted, hdrain, hl⟩ := ih hr (ha.without hs.linked r)
      refine ⟨L', a :: l, haccounted, hdrain, fun b hb => ⟨?_, trivial⟩⟩
      obtain rfl | hb := List.mem_cons.mp hb
      · exact List.mem_cons_self
      · exact List.mem_cons_of_mem a (hl b hb).1

theorem emptyQueue_walked (hs : s.Accounted L m) (i fuel : ℕ) :
    ∃ L' l, Walked s m i (L.queue i) (fun _ => True) (emptyQueue i fuel s) L' l := by
  induction fuel generalizing s L with
  | zero => exact ⟨L, [], hs, rfl, by simp⟩
  | succ fuel ih =>
    rw [emptyQueue.eq_def]
    dsimp only
    cases hnewest : (s.contexts i).retransmitNewest with
    | none => exact ⟨L, [], hs, rfl, by simp⟩
    | some a =>
      have hmem : a ∈ L.queue i := (hs.linked.queue_is i).mem_of_first hnewest
      obtain ⟨r, hr⟩ := hs.dequeueRetransmitPacket hmem true
      obtain ⟨L', l, haccounted, hdrain, hl⟩ := ih hr
      refine ⟨L', a :: l, haccounted, hdrain, fun b hb => ⟨?_, trivial⟩⟩
      obtain rfl | hb := List.mem_cons.mp hb
      · exact hmem
      · have hmem' := (hl b hb).1
        rw [Layout.queue_without] at hmem'
        exact List.mem_of_mem_erase hmem'

theorem Linked.not_mem_path_of_retransmitted (hL : s.Linked L none) (ha : a ∈ L.retransmitted i)
    (j : ℕ) : a ∉ L.onPath j := fun hmem => by
  obtain ⟨huse, honPath, hpath⟩ := (hL.mem_path j a).mp hmem
  have hflags := hL.flags a huse (by simp) (by simp [hpath])
  rw [honPath, ((hL.mem_retransmitted i a).mp ha).2.2.1] at hflags
  exact Bool.true_eq_false.mp hflags

theorem stamp_dequeueRetransmittedPacket {i a b : ℕ} (h : b ≠ a) :
    stamp ((s.dequeueRetransmittedPacket i a).packets b) = stamp (s.packets b) :=
  stamp_recyclePacket_of_ne _ _ _ h

theorem Accounted.dequeueRetransmittedPacket (hs : s.Accounted L m) (ha : a ∈ L.retransmitted i) :
    (s.dequeueRetransmittedPacket i a).Accounted
      { L with retransmitted := Function.update L.retransmitted i ((L.retransmitted i).erase a) }
      m := by
  refine ⟨hs.linked.dequeueRetransmittedPacket ha, fun hm j => (hs.counted hm j).trans ?_⟩
  refine (sum_charge_congr fun b hb => ?_).symm
  have hne : b ≠ a := fun heq => hs.linked.not_mem_path_of_retransmitted ha j (heq ▸ hb)
  exact charge_eq_of_stamp (stamp_dequeueRetransmittedPacket hne)

theorem emptyRetransmitted_accounted (hs : s.Accounted L m) (i fuel : ℕ) :
    ∃ r, (emptyRetransmitted i fuel s).Accounted { L with retransmitted := r } m := by
  induction fuel generalizing s L with
  | zero => exact ⟨L.retransmitted, hs⟩
  | succ fuel ih =>
    rw [emptyRetransmitted.eq_def]
    dsimp only
    cases hnewest : (s.contexts i).retransmittedNewest with
    | none =>
      -- a list without a newest packet has no oldest one
      have hnil : L.retransmitted i = [] := (hs.linked.retransmitted_is i).eq_nil hnewest
      have holdest : (s.contexts i).retransmittedOldest = none := by
        have hlast := (hs.linked.retransmitted_is i).last_eq
        rw [hnil] at hlast
        exact hlast
      exact ⟨L.retransmitted, hs.setContext rfl rfl hnewest.symm holdest.symm⟩
    | some a =>
      have hmem : a ∈ L.retransmitted i := (hs.linked.retransmitted_is i).mem_of_first hnewest
      obtain ⟨r, hr⟩ := ih (hs.dequeueRetransmittedPacket hmem)
      exact ⟨r, hr⟩

/-! ### Acknowledgements -/

/-- A packet that an acknowledged range takes out of the queue. -/
def IsAcked (r : AckRange) (p : FlightPacket) : Prop :=
  p.isAckTrap = false ∧ r.Acks p.sequenceNumber

theorem isAcked_of_stamp {r : AckRange} {p p' : FlightPacket} (h : stamp p' = stamp p)
    (hp : IsAcked r p') : IsAcked r p := by
  simp only [stamp, Prod.mk.injEq] at h
  exact ⟨h.2.2.2.2.2.1 ▸ hp.1, h.2.1 ▸ hp.2⟩

theorem processAckRange_walked (hs : s.Accounted L m) {i : ℕ} {a : Option ℕ}
    (ha : AtRest L i a rest) (fuel highest range : ℕ) :
    ∃ L' l rest', Walked s m i rest (IsAcked ⟨highest, range⟩)
        (processAckRange i fuel s highest range a).state L' l ∧
      AtRest L' i (processAckRange i fuel s highest range a).packet rest' ∧
      ∀ b ∈ rest', b ∈ rest ∧ b ∉ l := by
  induction fuel generalizing s L a rest highest range with
  | zero => exact ⟨L, [], rest, ⟨hs, rfl, by simp⟩, ha, by simp⟩
  | succ fuel ih =>
    cases a with
    | none => exact ⟨L, [], rest, ⟨hs, rfl, by simp⟩, ha, by simp⟩
    | some a =>
      obtain ⟨rest, rfl⟩ : ∃ rest', rest = a :: rest' :=
        List.head?_eq_some_iff.mp ha.head_eq.symm
      have hmem : a ∈ L.queue i := ha.suffix.subset List.mem_cons_self
      have hnot : a ∉ rest :=
        (List.nodup_cons.mp ((hs.linked.queue_is i).nodup.sublist ha.suffix.sublist)).1
      rw [processAckRange]
      split_ifs with hrange hless heq htrap
      · exact ⟨L, [], a :: rest, ⟨hs, rfl, by simp⟩, ha, by simp⟩
      · obtain ⟨L', l, rest', ⟨haccounted, hdrain, hl⟩, hat, hrest⟩ :=
          ih hs (ha.pass hs.linked) highest range
        exact ⟨L', l, rest', ⟨haccounted, hdrain, fun b hb =>
          ⟨List.mem_cons_of_mem a (hl b hb).1, (hl b hb).2⟩⟩, hat, fun b hb =>
          ⟨List.mem_cons_of_mem a (hrest b hb).1, (hrest b hb).2⟩⟩
      · exact ⟨L, [], a :: rest, ⟨hs, rfl, by simp⟩, ha, by simp⟩
      · -- the packet leaves, and the walk goes on behind it
        obtain ⟨r, hr⟩ := hs.dequeueRetransmitPacket hmem true
        obtain ⟨L', l, rest', ⟨haccounted, hdrain, hl⟩, hat, hrest⟩ :=
          ih hr (ha.without hs.linked r) (highest - 1) (range - 1)
        refine ⟨L', a :: l, rest', ⟨haccounted, hdrain, fun b hb => ?_⟩, hat, fun b hb => ?_⟩
        · obtain rfl | hb := List.mem_cons.mp hb
          · refine ⟨List.mem_cons_self, Bool.eq_false_iff.mpr htrap, ?_⟩
            simp only [AckRange.Acks]
            omega
          · obtain ⟨hbr, hacked⟩ := hl b hb
            have hba : b ≠ a := fun hba => hnot (hba ▸ hbr)
            obtain ⟨htrap', hacks⟩ := isAcked_of_stamp (stamp_dequeueRetransmitPacket hba) hacked
            refine ⟨List.mem_cons_of_mem a hbr, htrap', ?_⟩
            simp only [AckRange.Acks] at hacks ⊢
            omega
        · obtain ⟨hbr, hbl⟩ := hrest b hb
          refine ⟨List.mem_cons_of_mem a hbr, List.not_mem_cons_of_ne_of_not_mem ?_ hbl⟩
          exact fun hba => hnot (hba ▸ hbr)
      · obtain ⟨L', l, rest', ⟨haccounted, hdrain, hl⟩, hat, hrest⟩ :=
          ih hs ha (highest - 1) (range - 1)
        refine ⟨L', l, rest', ⟨haccounted, hdrain, fun b hb => ⟨(hl b hb).1, (hl b hb).2.1, ?_⟩⟩,
          hat, hrest⟩
        have hacks := (hl b hb).2.2
        simp only [AckRange.Acks] at hacks ⊢
        omega

/-- The ranges of an acknowledgement take packets of the rest of the queue that one of them
names. -/
theorem processAckRanges_walked (hs : s.Accounted L m) {i : ℕ} {a : Option ℕ}
    (ha : AtRest L i a rest) (ranges : List AckRange) :
    ∃ L' l, Walked s m i rest (fun p => ∃ r ∈ ranges, IsAcked r p)
      (processAckRanges i s a ranges) L' l := by
  induction ranges generalizing s L a rest with
  | nil => exact ⟨L, [], hs, rfl, by simp⟩
  | cons r ranges ih =>
    obtain ⟨L₁, l₁, rest₁, ⟨haccounted, hdrain, hl₁⟩, hat, hrest⟩ :=
      processAckRange_walked hs ha (s.inUse.length + r.range) r.highest r.range
    have hfirst : ∀ b ∈ l₁, b ∈ rest ∧ ∃ r' ∈ r :: ranges, IsAcked r' (s.packets b) := fun b hb =>
      ⟨(hl₁ b hb).1, r, List.mem_cons_self, (hl₁ b hb).2⟩
    rw [processAckRanges]
    split_ifs
    · exact ⟨L₁, l₁, haccounted, hdrain, hfirst⟩
    · obtain ⟨L₂, l₂, haccounted₂, hdrain₂, hl₂⟩ := ih haccounted hat
      refine ⟨L₂, l₁ ++ l₂, haccounted₂, ?_, fun b hb => ?_⟩
      · rw [hdrain₂, hdrain, drain_append]
      · obtain hb | hb := List.mem_append.mp hb
        · exact hfirst b hb
        · obtain ⟨hbr, r', hr', hacked⟩ := hl₂ b hb
          rw [hdrain] at hacked
          exact ⟨(hrest b hbr).1, r', List.mem_cons_of_mem r hr',
            isAcked_of_stamp (stamp_drain (hrest b hbr).2) hacked⟩

/-- The walk towards the newer packets stays in the queue. -/
theorem towardsNewer_mem (hL : s.Linked L none) {i : ℕ} {a : Option ℕ} (ha : ∀ b ∈ a, b ∈ L.queue i)
    (largest fuel : ℕ) : ∀ b ∈ s.towardsNewer largest fuel a, b ∈ L.queue i := by
  induction fuel generalizing a with
  | zero => exact ha
  | succ fuel ih =>
    cases a with
    | none => exact ha
    | some a =>
      rw [towardsNewer.eq_def]
      dsimp only
      cases hprev : (s.packets a).previous with
      | none => exact ha
      | some c =>
        dsimp only
        split_ifs
        · refine ih fun b hb => ?_
          obtain rfl := Option.mem_some.mp hb
          exact ((hL.queue_is i).mem_of_previous (ha a rfl) hprev).1
        · exact ha

/-- **An acknowledgement.** A frame that is not new finds the oldest packet only. -/
theorem processAckFrame_walked (hs : s.Accounted L m) (i largest : ℕ) (ranges : List AckRange) :
    ∃ L' l, (s.processAckFrame i largest ranges).Accounted L' m ∧
      (∃ n, s.processAckFrame i largest ranges =
        (s.setContext i { s.contexts i with highestAcknowledged := n }).drain i l) ∧
      ∀ b ∈ l, b ∈ L.queue i ∧
        ((s.contexts i).IsNewAck largest ∨ (s.contexts i).retransmitOldest = some b) ∧
          ∃ r ∈ ranges, IsAcked r (s.packets b) := by
  have hsame : s.setContext i { s.contexts i with
      highestAcknowledged := (s.contexts i).highestAcknowledged } = s := by
    rw [setContext]
    exact congrArg (fun c => { s with contexts := c }) (Function.update_eq_self i s.contexts)
  rw [processAckFrame]
  split_ifs
  · exact ⟨L, [], hs, ⟨_, hsame.symm⟩, by simp⟩
  · rw [findAckedPacket]
    dsimp only
    split_ifs with hnew
    · have hs' : (s.setContext i { s.contexts i with highestAcknowledged := largest }).Accounted
          L m := hs.setContext rfl rfl rfl rfl
      have hmem := towardsNewer_mem hs.linked (fun b hb =>
        (hs.linked.queue_is i).mem_of_last hb) largest s.inUse.length
      obtain ⟨rest, hrest⟩ : ∃ rest, AtRest L i
          (s.towardsNewer largest s.inUse.length (s.contexts i).retransmitOldest) rest := by
        cases htop : s.towardsNewer largest s.inUse.length (s.contexts i).retransmitOldest with
        | none => exact ⟨[], List.nil_suffix, rfl⟩
        | some a => exact AtRest.of_mem (hmem a htop)
      obtain ⟨L', l, haccounted, hdrain, hl⟩ := processAckRanges_walked hs' hrest ranges
      exact ⟨L', l, haccounted, ⟨largest, hdrain⟩, fun b hb =>
        ⟨hrest.suffix.subset (hl b hb).1, Or.inl hnew, (hl b hb).2⟩⟩
    · have holdest := AtRest.oldest hs.linked i
      obtain ⟨L', l, haccounted, hdrain, hl⟩ := processAckRanges_walked hs holdest ranges
      refine ⟨L', l, haccounted, ⟨_, hdrain.trans (congrArg (drain i · l) hsame.symm)⟩, fun b hb =>
        ⟨holdest.suffix.subset (hl b hb).1, Or.inr ?_, (hl b hb).2⟩⟩
      exact Option.mem_toList.mp (hl b hb).1

end Flight

end Picoquic
