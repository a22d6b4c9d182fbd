import Mathlib.Tactic.IntervalCases
import Picoquic.Flight.Cursor

/-!
# The paths that packets refer to

A packet keeps the path it was sent on, also when it was declared lost. Before a path is freed, its
own list is emptied and the retransmitted packets of the connection are searched. With multipath
the 1-RTT packets are in the lists of the identifiers of the peer, and these are not searched.

* **`Thinned`** — packets leave, and none learns of a path;
* **`sendPath_deletePath`** — which packets forget a path that is deleted;
* **`noDanglingPath_iff`** — exactly the runs in which all packets know paths of the connection;
* **`path_dangles`** — a packet was lost before its path is deleted.
-/

namespace Picoquic

open Runs

namespace Flight

/-! ### The table of the paths -/

/-- Two entries of a list change places. -/
def swapEntries (l : List ℕ) (i j : ℕ) : List ℕ :=
  if h : i < l.length ∧ j < l.length then
    (l.set i (l.get ⟨j, h.2⟩)).set j (l.get ⟨i, h.1⟩)
  else l

theorem swapEntries_perm (l : List ℕ) (i j : ℕ) : (swapEntries l i j).Perm l := by
  rw [swapEntries]
  split_ifs with h
  · exact List.set_set_perm h.1 h.2
  · exact .refl l

/-- Two paths change places. The table is kept from its last entry on. -/
def swapPaths (s : Flight) (i j : ℕ) : Flight :=
  { s with pathTable := (swapEntries s.pathTable.reverse i j).reverse }

/-- `picoquic_promote_path_to_default`. -/
def promotePathToDefault (s : Flight) (i : ℕ) : Flight :=
  if 0 < i ∧ i < s.pathTable.length then s.swapPaths 0 i else s

/-- What happens to the packets in flight, and to the table of the paths. -/
inductive PathEvent
  | packets (e : Event)
  | promote (i : ℕ)
  /-- `picoquic_delete_abandoned_paths` packs the paths that stay. -/
  | swap (i j : ℕ)

/-- One event. -/
def stepPaths (s : Flight) : PathEvent → Flight
  | .packets e => s.step e
  | .promote i => s.promotePathToDefault i
  | .swap i j => s.swapPaths i j

/-- A run from a new connection. -/
def runPaths (first : ℕ → ℕ) (evs : List PathEvent) : Flight :=
  Runs.run stepPaths (init first) evs

/-! ### References -/

/-- `send_path` is `NULL`, or a path of the table. -/
def PathKnown (s : Flight) (a : ℕ) : Prop := ∀ j ∈ (s.packets a).sendPath, j ∈ s.pathTable

/-- The packets of all retransmit and retransmitted lists know paths of the table. -/
def NoDanglingPath (s : Flight) : Prop :=
  ∀ i, (∃ l, (s.queueList i).Is l ∧ ∀ a ∈ l, s.PathKnown a) ∧
    ∃ l, (s.retransmittedList i).Is l ∧ ∀ a ∈ l, s.PathKnown a

/-- Each packet is in one of the lists. -/
theorem Linked.forall_pathKnown_iff {s : Flight} {L : Layout} (hL : s.Linked L none) :
    s.NoDanglingPath ↔ ∀ a ∈ s.inUse, s.PathKnown a := by
  constructor
  · intro h a ha
    obtain ⟨⟨l, hl, hqueue⟩, r, hr, hretransmitted⟩ := h (s.packets a).space
    cases hqueued : (s.packets a).isQueuedForRetransmit with
    | true =>
      refine hqueue a ?_
      rw [hl.unique (hL.queue_is _), hL.mem_queue]
      exact ⟨ha, hqueued, rfl⟩
    | false =>
      refine hretransmitted a ?_
      rw [hr.unique (hL.retransmitted_is _), hL.mem_retransmitted]
      exact ⟨by simp, ha, hqueued, rfl⟩
  · intro h i
    constructor
    · exact ⟨L.queue i, hL.queue_is i, fun a ha => h a (hL.inUse_of_mem_queue ha)⟩
    · exact ⟨L.retransmitted i, hL.retransmitted_is i,
        fun a ha => h a (hL.inUse_of_mem_retransmitted ha)⟩

/-- **The invariant.** -/
structure ReferencesKnown (s : Flight) : Prop where
  known : ∀ a ∈ s.inUse, s.PathKnown a
  nodup : s.pathTable.Nodup

/-! ### Packets that leave -/

/-- The packets in use were in use before, as they were sent or zeroed. -/
structure Thinned (s s' : Flight) : Prop where
  table_eq : s'.pathTable = s.pathTable
  multipath_eq : s'.isMultipathEnabled = s.isMultipathEnabled
  kept : ∀ b ∈ s'.inUse, b ∈ s.inUse ∧
    (stamp (s'.packets b) = stamp (s.packets b) ∨ stamp (s'.packets b) = stamp blankPacket)

namespace Thinned

theorem refl (s : Flight) : s.Thinned s := ⟨rfl, rfl, fun _ hb => ⟨hb, Or.inl rfl⟩⟩

theorem trans {s s' s'' : Flight} (h : s.Thinned s') (h' : s'.Thinned s'') : s.Thinned s'' := by
  refine ⟨h'.table_eq.trans h.table_eq, h'.multipath_eq.trans h.multipath_eq, ?_⟩
  intro b hb
  obtain ⟨hb', hstamp'⟩ := h'.kept b hb
  obtain ⟨hb, hstamp⟩ := h.kept b hb'
  refine ⟨hb, ?_⟩
  obtain hstamp' | hblank := hstamp'
  · rw [hstamp']
    exact hstamp
  · exact Or.inr hblank

theorem of_stamp {s s' : Flight} (htable : s'.pathTable = s.pathTable)
    (hmultipath : s'.isMultipathEnabled = s.isMultipathEnabled) (huse : s'.inUse = s.inUse)
    (hstamp : ∀ b, stamp (s'.packets b) = stamp (s.packets b)) : s.Thinned s' :=
  ⟨htable, hmultipath, fun b hb => ⟨huse ▸ hb, Or.inl (hstamp b)⟩⟩

variable (s : Flight) (i a : ℕ)

theorem recyclePacket : s.Thinned (s.recyclePacket a) := by
  refine ⟨rfl, rfl, ?_⟩
  intro b hb
  refine ⟨List.mem_of_mem_erase hb, ?_⟩
  by_cases hba : b = a
  · subst hba
    exact Or.inr (congrArg stamp (packets_setPacket ..))
  · exact Or.inl (stamp_recyclePacket_of_ne s a b hba)

theorem unqueue : s.Thinned (s.unqueue i a) := by
  refine of_stamp ?_ ?_ (inUse_unqueue s i a) (stamp_unqueue s i a)
  all_goals
    rw [Flight.unqueue]
    split_ifs <;> rfl

theorem discharge : s.Thinned (s.discharge a) := by
  obtain ⟨x, h⟩ := discharge_eq s a
  rw [h]
  exact of_stamp rfl rfl rfl fun _ => rfl

theorem dequeuePacketFromPath : s.Thinned (s.dequeuePacketFromPath a) := by
  obtain ⟨p, x, h⟩ := dequeuePacketFromPath_eq s a
  refine of_stamp ?_ ?_ (inUse_dequeuePacketFromPath s a) (stamp_dequeuePacketFromPath s a)
  all_goals rw [h]

theorem dequeueRetransmitPacket (shouldFree : Bool) :
    s.Thinned (s.dequeueRetransmitPacket i a shouldFree) := by
  have hdetach : s.Thinned (s.detach i a) :=
    ((unqueue s i a).trans (discharge _ a)).trans (dequeuePacketFromPath _ a)
  rw [dequeueRetransmitPacket_eq]
  split_ifs
  · exact hdetach.trans (recyclePacket _ a)
  · exact hdetach.trans (of_stamp rfl rfl rfl fun _ => rfl)

theorem dequeueRetransmittedPacket : s.Thinned (s.dequeueRetransmittedPacket i a) :=
  (of_stamp rfl rfl rfl fun _ => rfl : s.Thinned (s.setRetransmittedList i _)).trans
    (recyclePacket _ a)

/-! ### Loops -/

theorem setContext (c : FlightContext) : s.Thinned (s.setContext i c) :=
  of_stamp rfl rfl rfl fun _ => rfl

theorem dequeueAlong (fuel : ℕ) (pointer : Option ℕ) :
    s.Thinned (dequeueAlong i fuel s pointer) := by
  induction fuel generalizing s pointer with
  | zero => exact refl s
  | succ fuel ih =>
    cases pointer with
    | none => exact refl s
    | some a => exact (dequeueRetransmitPacket s i a true).trans (ih _ _)

theorem emptyQueue (fuel : ℕ) : s.Thinned (emptyQueue i fuel s) := by
  induction fuel generalizing s with
  | zero => exact refl s
  | succ fuel ih =>
    rw [Flight.emptyQueue.eq_def]
    dsimp only
    split
    · exact refl s
    · exact (dequeueRetransmitPacket s i _ true).trans (ih _)

theorem emptyRetransmitted (fuel : ℕ) : s.Thinned (emptyRetransmitted i fuel s) := by
  induction fuel generalizing s with
  | zero => exact refl s
  | succ fuel ih =>
    rw [Flight.emptyRetransmitted.eq_def]
    dsimp only
    split
    · exact setContext s i _
    · exact (dequeueRetransmittedPacket s i _).trans (ih _)

theorem resetPacketContext : s.Thinned (s.resetPacketContext i) :=
  (emptyQueue s i _).trans (emptyRetransmitted _ i _)

theorem processAckRange (fuel highest range : ℕ) (pointer : Option ℕ) :
    s.Thinned (processAckRange i fuel s highest range pointer).state := by
  induction fuel generalizing s highest range pointer with
  | zero => exact refl s
  | succ fuel ih =>
    cases pointer with
    | none => exact refl s
    | some a =>
      rw [Flight.processAckRange]
      split_ifs
      · exact refl s
      · exact ih s _ _ _
      · exact refl s
      · exact (dequeueRetransmitPacket s i a true).trans (ih _ _ _ _)
      · exact ih s _ _ _

theorem processAckRanges (pointer : Option ℕ) (ranges : List AckRange) :
    s.Thinned (processAckRanges i s pointer ranges) := by
  induction ranges generalizing s pointer with
  | nil => exact refl s
  | cons r ranges ih =>
    rw [Flight.processAckRanges]
    have hrange := processAckRange s i (s.inUse.length + r.range) r.highest r.range pointer
    split_ifs
    · exact hrange
    · exact hrange.trans (ih _ _)

theorem processAckFrame (largest : ℕ) (ranges : List AckRange) :
    s.Thinned (s.processAckFrame i largest ranges) := by
  rw [Flight.processAckFrame]
  split_ifs
  · exact refl s
  · have hfind : s.Thinned (s.findAckedPacket i largest).1 := by
      rw [findAckedPacket]
      split_ifs
      · exact setContext s i _
      · exact refl s
    exact hfind.trans (processAckRanges _ i _ _)

theorem formatRepeat (x : RepeatInput) (fuel : ℕ) (pointer : Option ℕ) :
    s.Thinned (formatRepeat x fuel s pointer).1 := by
  have hmark : ∀ (t : Flight) (b : ℕ), t.Thinned
      (t.setPacket b { t.packets b with wasPreemptivelyRepeated := true }) := fun t b =>
    of_stamp rfl rfl rfl (setPacket_field stamp rfl)
  induction fuel generalizing s pointer with
  | zero => exact refl s
  | succ fuel ih =>
    cases pointer with
    | none => exact refl s
    | some a =>
      rw [Flight.formatRepeat]
      split_ifs
      · exact ih s _
      · exact refl s
      · cases x.result a with
        | fails => exact refl s
        | succeeds hasData isRepeated =>
          cases hasData with
          | false => exact ih s _
          | true =>
            cases isRepeated with
            | false => exact refl s
            | true => exact hmark s a

theorem preemptiveRetransmitInContext (x : RepeatInput) :
    s.Thinned (s.preemptiveRetransmitInContext i x) := by
  rw [Flight.preemptiveRetransmitInContext]
  split_ifs
  · exact refl s
  · exact (formatRepeat s x _ _).trans (setContext _ i _)

end Thinned

variable {Q : Option ℕ × ℕ × ℕ × ℕ × ℕ × Bool × ℕ → Prop} {pointer : Option ℕ}

/-- What holds of all packets in use holds of those that stay. -/
theorem Thinned.forall_stamp {s s' : Flight} (h : s.Thinned s') (hblank : Q (stamp blankPacket))
    (hs : ∀ a ∈ s.inUse, Q (stamp (s.packets a))) : ∀ a ∈ s'.inUse, Q (stamp (s'.packets a)) := by
  intro a ha
  obtain ⟨huse, hstamp | hzero⟩ := h.kept a ha
  · rw [hstamp]
    exact hs a huse
  · rw [hzero]
    exact hblank

/-! ### Packets that enter -/

theorem connection_queueForRetransmit (s : Flight) (j a : ℕ) (p : FlightPacket) (length : ℕ) :
    (s.queueForRetransmit j a p length).pathTable = s.pathTable ∧
      (s.queueForRetransmit j a p length).isMultipathEnabled = s.isMultipathEnabled := by
  have hlink : (s.link a p).pathTable = s.pathTable ∧
      (s.link a p).isMultipathEnabled = s.isMultipathEnabled := by
    rw [link, enqueuePacketWithPath]
    split <;> exact ⟨rfl, rfl⟩
  rw [queueForRetransmit_eq]
  split_ifs <;> exact hlink

variable {p : FlightPacket} {e : PathEvent}

/-- What holds of all packets in use, and of the one that enters, holds of all. -/
theorem forall_stamp_queueForRetransmit {s : Flight} {a : ℕ} (hp : Q (stamp p))
    (hs : ∀ b ∈ s.inUse, Q (stamp (s.packets b))) (j length : ℕ) :
    ∀ b ∈ (s.queueForRetransmit j a p length).inUse,
      Q (stamp ((s.queueForRetransmit j a p length).packets b)) := by
  have huse : (s.link a p).inUse = a :: s.inUse := by
    rw [link, enqueuePacketWithPath]
    split <;> rfl
  have hlink : ∀ b ∈ (s.link a p).inUse, Q (stamp ((s.link a p).packets b)) := by
    intro b hb
    rw [huse] at hb
    by_cases hba : b = a
    · subst hba
      rw [stamp_link_self]
      exact hp
    · rw [stamp_link_of_ne s p hba]
      exact hs b ((List.mem_cons.mp hb).resolve_left hba)
  rw [queueForRetransmit_eq]
  split_ifs <;> exact hlink

/-! ### Paths that are deleted -/

section Delete

variable {s : Flight} {L : Layout} {j : ℕ}

/-- A packet is taken off its path, and forgets it. -/
theorem sendPath_releaseFromPath (s : Flight) (a b k : ℕ) :
    (((s.dequeuePacketFromPath a).forgetPath a).packets b).sendPath = some k ↔
      (s.packets b).sendPath = some k ∧ b ≠ a := by
  by_cases hb : b = a
  · subst hb
    simp
  · have hstamp : ((s.dequeuePacketFromPath a).packets b).sendPath = (s.packets b).sendPath :=
      congrArg Prod.fst (stamp_dequeuePacketFromPath s a b)
    rw [packets_forgetPath_of_ne _ hb, hstamp]
    simp [hb]

/-- The packets in the list of the path forget it. -/
theorem Linked.sendPath_emptyPathPacketQueue (hL : s.Linked L none)
    (hpointer : pointer = (L.onPath j).getLast?) {fuel : ℕ} (hfuel : (L.onPath j).length ≤ fuel)
    (b k : ℕ) : ((emptyPathPacketQueue fuel s pointer).packets b).sendPath = some k ↔
      (s.packets b).sendPath = some k ∧ b ∉ L.onPath j := by
  induction fuel generalizing s L pointer with
  | zero =>
    rw [List.length_eq_zero_iff.mp (Nat.le_zero.mp hfuel)]
    simp [emptyPathPacketQueue]
  | succ fuel ih =>
    cases pointer with
    | none =>
      rw [List.getLast?_eq_none_iff.mp hpointer.symm]
      simp [emptyPathPacketQueue]
    | some a =>
      obtain ⟨hmem, hnext⟩ := hL.oldest_onPath hpointer.symm
      have hlength : ((L.onPath j).erase a).length ≤ fuel := by
        rw [List.length_erase_of_mem hmem]
        omega
      rw [emptyPathPacketQueue, ih (hL.releaseFromPath hmem) hnext hlength,
        sendPath_releaseFromPath, and_assoc]
      refine and_congr_right fun _ => ?_
      by_cases hb : b = a
      · subst hb
        simp [hmem]
      · simp [hb, List.mem_erase_of_ne hb]

/-- The packets of a list of retransmitted ones forget the path. -/
theorem sendPath_erasePath {i : ℕ} {l r : List ℕ} (hl : (s.retransmittedList i).Is (l ++ r))
    (hpointer : pointer = r.head?) {fuel : ℕ} (hfuel : r.length ≤ fuel) (b k : ℕ) :
    ((erasePath j fuel s pointer).packets b).sendPath = some k ↔
      (s.packets b).sendPath = some k ∧ (k = j → b ∉ r) := by
  induction fuel generalizing s l r pointer with
  | zero =>
    rw [List.length_eq_zero_iff.mp (Nat.le_zero.mp hfuel)]
    simp [erasePath]
  | succ fuel ih =>
    cases pointer with
    | none =>
      rw [List.head?_eq_none_iff.mp hpointer.symm]
      simp [erasePath]
    | some a =>
      obtain ⟨r, rfl⟩ := List.head?_eq_some_iff.mp hpointer.symm
      have hnext : (s.packets a).previous = r.head? := hl.neighbours.1
      have hforget : ∀ k, ((if (s.packets a).sendPath = some j then s.forgetPath a
          else s).packets b).sendPath = some k ↔
            (s.packets b).sendPath = some k ∧ (k = j → b ≠ a) := by
        intro k
        split_ifs with hsend
        · by_cases hb : b = a
          · subst hb
            rw [sendPath_forgetPath, hsend]
            grind
          · rw [packets_forgetPath_of_ne _ hb]
            simp [hb]
        · grind
      have hlist : ((if (s.packets a).sendPath = some j then s.forgetPath a
          else s).retransmittedList i).Is ((l ++ [a]) ++ r) := by
        rw [List.append_assoc]
        split_ifs
        · rw [retransmittedList_forgetPath]
          exact hl
        · exact hl
      rw [erasePath, ih hlist hnext (Nat.le_of_succ_le_succ hfuel), hforget, and_assoc]
      refine and_congr_right fun _ => ?_
      rw [List.mem_cons, not_or, forall_and]

theorem Linked.sendPath_erasePathIn (hL : s.Linked L none) (i b k : ℕ) :
    ((erasePathIn j s i).packets b).sendPath = some k ↔
      (s.packets b).sendPath = some k ∧ (k = j → b ∉ L.retransmitted i) := by
  have hlist := hL.retransmitted_is i
  have hfuel : (L.retransmitted i).length ≤ s.inUse.length :=
    (hlist.nodup.subperm fun _ ha => hL.inUse_of_mem_retransmitted ha).length_le
  exact sendPath_erasePath (l := []) hlist hlist.first_eq hfuel b k

/-- The table of the paths, and whether it is for multipath, do not depend on the packets. -/
theorem connection_emptyPathPacketQueue (s : Flight) (fuel : ℕ) (pointer : Option ℕ) :
    (emptyPathPacketQueue fuel s pointer).pathTable = s.pathTable ∧
      (emptyPathPacketQueue fuel s pointer).isMultipathEnabled = s.isMultipathEnabled := by
  induction fuel generalizing s pointer with
  | zero => exact ⟨rfl, rfl⟩
  | succ fuel ih =>
    cases pointer with
    | none => exact ⟨rfl, rfl⟩
    | some a =>
      have hfirst := Thinned.dequeuePacketFromPath s a
      rw [emptyPathPacketQueue]
      exact ⟨(ih _ _).1.trans hfirst.table_eq, (ih _ _).2.trans hfirst.multipath_eq⟩

theorem connection_erasePath (s : Flight) (j fuel : ℕ) (pointer : Option ℕ) :
    (erasePath j fuel s pointer).pathTable = s.pathTable ∧
      (erasePath j fuel s pointer).isMultipathEnabled = s.isMultipathEnabled := by
  induction fuel generalizing s pointer with
  | zero => exact ⟨rfl, rfl⟩
  | succ fuel ih =>
    cases pointer with
    | none => exact ⟨rfl, rfl⟩
    | some a =>
      rw [erasePath]
      split_ifs
      · exact ih (s.forgetPath a) _
      · exact ih s _

theorem connection_deletePath (s : Flight) (j : ℕ) :
    (s.deletePath j).pathTable = s.pathTable.erase j ∧
      (s.deletePath j).isMultipathEnabled = s.isMultipathEnabled := by
  have hempty := connection_emptyPathPacketQueue s s.inUse.length (s.paths j).pathPacketFirst
  have herase : ∀ (t : Flight) (i : ℕ), (erasePathIn j t i).pathTable = t.pathTable ∧
      (erasePathIn j t i).isMultipathEnabled = t.isMultipathEnabled := fun t i =>
    connection_erasePath t j _ _
  constructor
  · refine congrArg (List.erase · j) ?_
    exact (((herase _ 2).1.trans (herase _ 1).1).trans (herase _ 0).1).trans hempty.1
  · exact (((herase _ 2).2.trans (herase _ 1).2).trans (herase _ 0).2).trans hempty.2

/-- **What a deletion leaves.** The packets in the list of the path forget their path, and the
retransmitted packets of the connection forget the path that is deleted. -/
theorem Accounted.sendPath_deletePath {m : Prop} (hs : s.Accounted L m) (j b k : ℕ) :
    ((s.deletePath j).packets b).sendPath = some k ↔
      (s.packets b).sendPath = some k ∧ b ∉ L.onPath j ∧
        (k = j → ∀ i < 3, b ∉ L.retransmitted i) := by
  have hpath := hs.linked.path_is j
  have hfuel : (L.onPath j).length ≤ s.inUse.length :=
    (hpath.nodup.subperm fun _ ha => hs.linked.inUse_of_mem_path ha).length_le
  have holdest : (s.paths j).pathPacketFirst = (L.onPath j).getLast? := hpath.last_eq
  obtain ⟨L', hempty, -⟩ := (hs.but j).emptyPathPacketQueue holdest hfuel
  have hsame := undisturbed_emptyPathPacketQueue s s.inUse.length (s.paths j).pathPacketFirst
  have hretransmitted : ∀ i, b ∈ L'.retransmitted i ↔ b ∈ L.retransmitted i := by
    intro i
    rw [hempty.linked.mem_retransmitted, hs.linked.mem_retransmitted, hsame.inUse_eq,
      hsame.queued_eq, hsame.space_eq]
  have h0 := hempty.erasePathIn 0
  have h1 := h0.erasePathIn 1
  change ((erasePathIn j (erasePathIn j (erasePathIn j (emptyPathPacketQueue s.inUse.length s
    (s.paths j).pathPacketFirst) 0) 1) 2).packets b).sendPath = some k ↔ _
  rw [h1.linked.sendPath_erasePathIn, h0.linked.sendPath_erasePathIn,
    hempty.linked.sendPath_erasePathIn,
    hs.linked.sendPath_emptyPathPacketQueue holdest hfuel, hretransmitted, hretransmitted,
    hretransmitted]
  constructor
  · rintro ⟨⟨⟨⟨hsend, hnot⟩, hr0⟩, hr1⟩, hr2⟩
    refine ⟨hsend, hnot, ?_⟩
    intro hk i hi
    interval_cases i
    · exact hr0 hk
    · exact hr1 hk
    · exact hr2 hk
  · rintro ⟨hsend, hnot, hr⟩
    exact ⟨⟨⟨⟨hsend, hnot⟩, fun hk => hr hk 0 (by simp)⟩, fun hk => hr hk 1 (by simp)⟩,
      fun hk => hr hk 2 (by simp)⟩

end Delete

/-! ### Steps -/

/-- No packet that was lost in the number space of an identifier of the peer was sent on a path that
is deleted. -/
def ForgetsPath (s : Flight) : PathEvent → Prop
  | .packets (.deletePath j) => j ∈ s.pathTable → ∀ a ∈ s.inUse,
    (s.packets a).isQueuedForRetransmit = false → 3 ≤ (s.packets a).space →
      (s.packets a).sendPath ≠ some j
  | _ => True

section Step

variable {s s' : Flight} {L : Layout} {m : Prop}

theorem ReferencesKnown.of_thinned (hs : s.ReferencesKnown) (h : s.Thinned s') :
    s'.ReferencesKnown := by
  refine ⟨?_, h.table_eq ▸ hs.nodup⟩
  intro a ha
  rw [PathKnown, h.table_eq]
  exact h.forall_stamp (Q := fun t => ∀ j ∈ t.1, j ∈ s.pathTable) (fun _ hj => by cases hj)
    hs.known a ha

/-- A packet enters on a path of the table. -/
theorem ReferencesKnown.queueForRetransmit (hs : s.ReferencesKnown) {a j : ℕ} (hj : j ∈ s.pathTable)
    (hp : p.sendPath = some j) (length : ℕ) :
    (s.queueForRetransmit j a p length).ReferencesKnown := by
  obtain ⟨htable, -⟩ := connection_queueForRetransmit s j a p length
  refine ⟨?_, htable ▸ hs.nodup⟩
  intro b hb
  rw [PathKnown, htable]
  refine forall_stamp_queueForRetransmit (Q := fun t => ∀ k ∈ t.1, k ∈ s.pathTable) ?_ hs.known
    j length b hb
  intro k hk
  exact Option.some.inj (hp.symm.trans hk) ▸ hj

/-- **The packets that refer to a deleted path** are those that were lost in the number space of an
identifier of the peer. -/
theorem Accounted.deletePath_known (hs : s.Accounted L m) (hknown : s.ReferencesKnown) {j : ℕ}
    (hj : j ∈ s.pathTable) :
    (∀ a ∈ (s.deletePath j).inUse, (s.deletePath j).PathKnown a) ↔
      s.ForgetsPath (.packets (.deletePath j)) := by
  have hsame := undisturbed_deletePath s j
  have htable := (connection_deletePath s j).1
  constructor
  · intro h _ a ha hlost hspace hsend
    refine hknown.nodup.not_mem_erase (htable ▸ h a (hsame.inUse_eq ▸ ha) j ?_)
    refine (hs.sendPath_deletePath j a j).mpr ⟨hsend, ?_, ?_⟩
    · intro hmem
      obtain ⟨-, honPath, -⟩ := (hs.linked.mem_path j a).mp hmem
      have hflags := hs.linked.flags a ha (by simp) (by simp [hsend])
      rw [honPath, hlost] at hflags
      exact Bool.true_eq_false.mp hflags
    · intro _ i hi hmem
      have := ((hs.linked.mem_retransmitted i a).mp hmem).2.2.2
      omega
  · intro h a ha k hk
    rw [hsame.inUse_eq] at ha
    obtain ⟨hsend, hpath, hretransmitted⟩ := (hs.sendPath_deletePath j a k).mp hk
    have hmem : k ∈ s.pathTable := hknown.known a ha k hsend
    rw [htable]
    by_cases hkj : k = j
    · subst hkj
      cases hqueued : (s.packets a).isQueuedForRetransmit with
      | true =>
        have hflags := hs.linked.flags a ha (by simp) (by simp [hsend])
        exact absurd ((hs.linked.mem_path k a).mpr ⟨ha, hflags.trans hqueued, hsend⟩) hpath
      | false =>
        refine absurd hsend (h hj a ha hqueued ?_)
        by_contra hspace
        exact hretransmitted rfl _ (not_le.mp hspace)
          ((hs.linked.mem_retransmitted _ a).mpr ⟨by simp, ha, hqueued, rfl⟩)
    · exact (List.mem_erase_of_ne hkj).mpr hmem

theorem Accounted.setTable (hs : s.Accounted L m) {t : List ℕ} (ht : t.Perm s.pathTable) :
    ({ s with pathTable := t } : Flight).Accounted L m := by
  refine ⟨{ hs.linked with no_path := ?_ }, hs.counted⟩
  intro j hj
  exact hs.linked.no_path j fun hmem => hj (ht.mem_iff.mpr hmem)

theorem ReferencesKnown.setTable (hs : s.ReferencesKnown) {t : List ℕ} (ht : t.Perm s.pathTable) :
    ({ s with pathTable := t } : Flight).ReferencesKnown :=
  ⟨fun a ha j hj => ht.mem_iff.mpr (hs.known a ha j hj), ht.nodup_iff.mpr hs.nodup⟩

theorem swapPaths_perm (s : Flight) (i j : ℕ) : (s.swapPaths i j).pathTable.Perm s.pathTable :=
  ((List.reverse_perm _).trans (swapEntries_perm _ i j)).trans (List.reverse_perm _)

theorem Accounted.stepPaths (hs : s.Accounted L False) (e : PathEvent) :
    ∃ L', (s.stepPaths e).Accounted L' False := by
  cases e with
  | packets e => exact hs.step False.elim
  | promote i =>
    rw [Flight.stepPaths, promotePathToDefault]
    split_ifs
    · exact ⟨L, hs.setTable (swapPaths_perm s 0 i)⟩
    · exact ⟨L, hs⟩
  | swap i j => exact ⟨L, hs.setTable (swapPaths_perm s i j)⟩

/-- **What an event does**: packets leave, a packet enters on a path of the table, or the table
changes. -/
theorem step_cases (s : Flight) (e : Event) :
    s.Thinned (s.step e) ∨ e = .enableMultipath ∨
      (∃ j cnxid, e = .createPath j cnxid ∧ j ∉ s.pathTable) ∨
      (∃ j, e = .deletePath j ∧ j ∈ s.pathTable) ∨
      ∃ t j a p length isOneRtt pc, s.Thinned t ∧ s.step e = t.queueForRetransmit j a p length ∧
        j ∈ s.pathTable ∧ p.sendPath = some j ∧ p.space = s.spaceOf isOneRtt pc j ∧
          (pc = 0 ∨ ∃ x, e = .transmit x ∧ pc = x.pc) := by
  cases e with
  | enableMultipath => exact .inr (.inl rfl)
  | createPath j cnxid =>
    rw [step]
    split_ifs with hj
    · exact .inl (.refl s)
    · exact .inr (.inr (.inl ⟨j, cnxid, rfl, hj⟩))
  | renewConnectionId j cnxid => exact .inl (.of_stamp rfl rfl rfl fun _ => rfl)
  | transmit x =>
    rw [step, finalizeAndProtectPacket]
    split_ifs with hguard
    · exact .inl (.refl s)
    · exact .inl (.refl s)
    · rw [not_or, not_not] at hguard
      exact .inr (.inr (.inr (.inr ⟨_, _, _, _, _, _, _, .setContext s _ _, rfl, hguard.2, rfl, rfl,
        .inr ⟨x, rfl, rfl⟩⟩)))
    · exact .inl (.setContext s _ _)
  | insertHole a j sendTime =>
    rw [step]
    split_ifs with hguard
    · exact .inl (.refl s)
    · rw [not_or, not_not] at hguard
      exact .inr (.inr (.inr (.inr ⟨_, j, a, s.ackTrap j sendTime, 0, true, 0, .setContext s _ _,
        rfl, hguard.2, rfl, rfl, .inl rfl⟩)))
  | ackFrame i largest ranges => exact .inl (.processAckFrame s i largest ranges)
  | declareLost a shouldFree =>
    rw [step]
    split_ifs
    · exact .inl (.dequeueRetransmitPacket s _ a shouldFree)
    · exact .inl (.refl s)
  | dropRetransmitted a =>
    rw [step]
    split_ifs
    · exact .inl (.dequeueRetransmittedPacket s _ a)
    · exact .inl (.refl s)
  | implicitHandshakeAck i => exact .inl (.dequeueAlong s i _ _)
  | resetPacketContext i => exact .inl (.resetPacketContext s i)
  | removeStashedCnxid cnxid =>
    exact .inl ((Thinned.resetPacketContext s _).trans (.setContext _ _ _))
  | deletePath j =>
    rw [step]
    split_ifs with hj
    · exact .inr (.inr (.inr (.inl ⟨j, rfl, hj⟩)))
    · exact .inl (.refl s)
  | preemptiveRetransmit i x => exact .inl (.preemptiveRetransmitInContext s i x)

/-- **The step lemma.** -/
theorem ReferencesKnown.stepPaths (hs : s.ReferencesKnown) (ha : s.Accounted L m)
    (he : s.ForgetsPath e) : (s.stepPaths e).ReferencesKnown := by
  cases e with
  | promote i =>
    rw [Flight.stepPaths, promotePathToDefault]
    split_ifs
    · exact hs.setTable (swapPaths_perm s 0 i)
    · exact hs
  | swap i j => exact hs.setTable (swapPaths_perm s i j)
  | packets e =>
    rw [Flight.stepPaths]
    obtain hthin | rfl | ⟨j, cnxid, rfl, hj⟩ | ⟨j, rfl, hj⟩ |
      ⟨t, j, a, p, length, _, _, hthin, heq, hj, hp, -⟩ := step_cases s e
    · exact hs.of_thinned hthin
    · exact ⟨hs.known, hs.nodup⟩
    · rw [step, if_neg hj]
      exact ⟨fun a ha k hk => List.mem_cons_of_mem j (hs.known a ha k hk),
        List.nodup_cons.mpr ⟨hj, hs.nodup⟩⟩
    · rw [step, if_pos hj]
      exact ⟨(ha.deletePath_known hs hj).mpr he, (connection_deletePath s j).1 ▸ hs.nodup.erase j⟩
    · rw [heq]
      exact (hs.of_thinned hthin).queueForRetransmit (hthin.table_eq ▸ hj) hp length

end Step

/-! ### Runs -/

theorem referencesKnown_init (first : ℕ → ℕ) : (init first).ReferencesKnown :=
  ⟨fun _ ha => (List.not_mem_nil ha).elim, List.nodup_nil⟩

/-- The pointers are those of a layout, and the packets know paths of the table. -/
def Sound (s : Flight) : Prop := (∃ L, s.Accounted L False) ∧ s.ReferencesKnown

theorem sound_init (first : ℕ → ℕ) : (init first).Sound :=
  ⟨⟨_, accounted_init first False⟩, referencesKnown_init first⟩

theorem Sound.step {s : Flight} (hs : s.Sound) (he : s.ForgetsPath e) : (s.stepPaths e).Sound := by
  obtain ⟨⟨L, hL⟩, hknown⟩ := hs
  exact ⟨hL.stepPaths e, hknown.stepPaths hL he⟩

theorem Sound.noDanglingPath {s : Flight} (hs : s.Sound) : s.NoDanglingPath := by
  obtain ⟨⟨L, hL⟩, hknown⟩ := hs
  exact hL.linked.forall_pathKnown_iff.mpr hknown.known

/-- A step that leaves no reference to a deleted path meets the condition. -/
theorem Sound.forgetsPath {s : Flight} (hs : s.Sound) (he : (s.stepPaths e).NoDanglingPath) :
    s.ForgetsPath e := by
  obtain ⟨⟨L, hL⟩, hknown⟩ := hs
  obtain ⟨L', hL'⟩ := hL.stepPaths e
  cases e with
  | promote i => trivial
  | swap i j => trivial
  | packets e =>
    cases e with
    | deletePath j =>
      intro hj
      have hstep : s.stepPaths (.packets (.deletePath j)) = s.deletePath j := if_pos hj
      rw [hstep] at he hL'
      exact (hL.deletePath_known hknown hj).mp (hL'.linked.forall_pathKnown_iff.mp he) hj
    | _ => trivial

/-- **The paths that packets refer to.** -/
theorem noDanglingPath_iff (first : ℕ → ℕ) (evs : List PathEvent) :
    (∀ evs', evs' <+: evs → (runPaths first evs').NoDanglingPath) ↔
      Along stepPaths ForgetsPath (init first) evs :=
  forall_prefix_iff_along (I := Sound) (fun _ => Sound.noDanglingPath)
    (fun _ _ hs => ⟨hs.forgetsPath, fun he => (hs.step he).noDanglingPath⟩)
    (fun _ _ hs he => hs.step he) (sound_init first) evs

/-- A packet of the path `1` is lost, and the path is deleted while its identifier is still in the
stash. -/
theorem path_dangles :
    ¬ (runPaths (fun _ => 0) [.packets .enableMultipath, .packets (.createPath 0 0),
      .packets (.createPath 1 1), .packets (.transmit { dataPacket 1 0 with path := 1 }),
      .packets (.declareLost 1 false), .packets (.deletePath 1)]).NoDanglingPath := by
  intro h
  obtain ⟨-, l, hl, hknown⟩ := h 4
  have hmem : 1 ∈ l := hl.mem_of_first rfl
  exact absurd (hknown 1 hmem 1 rfl) (by decide)

end Flight

end Picoquic
