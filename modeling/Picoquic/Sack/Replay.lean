import Picoquic.ForMathlib.Runs
import Picoquic.Sack.Canonical
import Picoquic.Sack.Context

/-!
# Replay suppression

An acknowledgement context records the packet numbers it received, answers whether a number was
received before, and forgets numbers when the peer acknowledges our acknowledgements or when the
horizon moves past them. The events of a context are:

* **reception** — the number is checked first, and recorded only if it is new;
* **acknowledged acknowledgement** — a range decoded from a frame we sent, so its start is not
  beyond its end;
* **horizon update** — only with a horizon delay, the one condition under which it is called;
* **sent range** and **horizon delay** — an item was sent in a frame, and the delay that the
  simple multipath option sets once the connection is ready.

A recorded number is answered as received in every later state, unless an acknowledged
acknowledgement prunes it (`isPnAlreadyReceived_run`). Pruning does forget numbers, with and
without a horizon delay (`replay_after_ackOfAck`).
-/

namespace Picoquic

open RangeList Runs

/-- A packet number, a 62-bit integer. -/
abbrev PacketNumber : Type := Fin (2 ^ 62)

/-- What happens to an acknowledgement context. -/
inductive AckEvent
  /-- A packet arrives. -/
  | receive (pn : PacketNumber) (currentTime : ℕ)
  /-- A range of an acknowledgement that we sent is acknowledged. -/
  | ackOfAck (startOfRange endOfRange : ℕ) (hle : startOfRange ≤ endOfRange)
  /-- The horizon is brought up to date. -/
  | updateHorizon (currentTime : ℕ)
  /-- The item at a position is sent in an acknowledgement frame. -/
  | recordSent (i : ℕ) (isOpportunistic : Fin 2)
  /-- The connection gets ready with simple multipath enabled. -/
  | readyWithSimpleMultipath

/-- One event. -/
def AckContext.step (ctx : AckContext) : AckEvent → AckContext
  | .receive pn currentTime =>
    if isPnAlreadyReceived ctx.sackList pn then ctx else (recordPnReceived ctx pn currentTime).1
  | .ackOfAck startOfRange endOfRange _ =>
    { ctx with sackList := processAckOfAckRange ctx.sackList startOfRange endOfRange }
  | .updateHorizon currentTime =>
    if 0 < ctx.sackList.horizonDelay then
      { ctx with sackList := updateAckHorizon ctx.sackList currentTime }
    else ctx
  | .recordSent i isOpportunistic =>
    { ctx with sackList := recordSent ctx.sackList i isOpportunistic }
  | .readyWithSimpleMultipath =>
    { ctx with sackList := { ctx.sackList with horizonDelay := 1000000 } }

/-- A context before its first packet, with a given horizon delay. -/
def AckContext.initial (horizonDelay : ℤ) : AckContext :=
  ⟨{ sackListInit with horizonDelay := horizonDelay }, 0, fun _ => ⟨0, 0, false, false, false⟩,
    0, 0, 0, false⟩

/-- The numbers an event prunes, read off the state before it. -/
def AckContext.Prunes (ctx : AckContext) (e : AckEvent) (pn : ℕ) : Prop :=
  match e with
  | .ackOfAck startOfRange endOfRange _ =>
    PrunedByAckOfAck ctx.sackList startOfRange endOfRange pn
  | _ => False

instance (ctx : AckContext) (e : AckEvent) (pn : ℕ) : Decidable (ctx.Prunes e pn) :=
  match e with
  | .ackOfAck startOfRange endOfRange _ =>
    inferInstanceAs (Decidable (PrunedByAckOfAck ctx.sackList startOfRange endOfRange pn))
  | .receive _ _ | .updateHorizon _ | .recordSent _ _ | .readyWithSimpleMultipath => isFalse id

/-! ### What a context remembers -/

/-- **Invariant of a list with a horizon.** The items are canonical and not below the horizon,
which only moves with a horizon delay. -/
structure SackList.Good (s : SackList) : Prop where
  canonical : SackCanonical s.ackTree
  horizon_le : ∀ n, SackCovers s.ackTree n → s.ackHorizon ≤ n
  horizon_eq : 0 < s.horizonDelay ∨ s.ackHorizon = 0

/-- The numbers that count as received. -/
def SackList.Remembers (s : SackList) (pn : ℕ) : Prop :=
  pn < s.ackHorizon ∨ SackCovers s.ackTree pn

variable {s : SackList}

/-- The query of the code answers what the list remembers. -/
theorem SackList.Good.isPnAlreadyReceived_iff (hs : s.Good) (pn : PacketNumber) :
    isPnAlreadyReceived s pn = true ↔ s.Remembers pn := by
  have hnear := hs.canonical.near (n := pn) (pn.isLt.trans (by decide))
  rw [Picoquic.isPnAlreadyReceived_iff hs.canonical.separated hnear, Remembers]
  constructor
  · rintro (⟨-, h⟩ | h)
    · exact Or.inl h
    · exact Or.inr h
  · rintro (h | h)
    · rcases hs.horizon_eq with hd | h0
      · exact Or.inl ⟨hd, h⟩
      · omega
    · exact Or.inr h

/-- The horizon update keeps the invariant and forgets nothing. -/
theorem SackList.Good.updateAckHorizon (hs : s.Good) (hd : 0 < s.horizonDelay) (currentTime : ℕ) :
    (updateAckHorizon s currentTime).Good ∧
      ∀ pn, s.Remembers pn → (Picoquic.updateAckHorizon s currentTime).Remembers pn := by
  have h := ackHorizonLoop_spec s.horizonDelay currentTime s.rangeCounts
    hs.canonical hs.horizon_le
  refine ⟨⟨hs.canonical.sublist h.suffix, h.above, Or.inl hd⟩, ?_⟩
  rintro pn (hpn | hpn)
  · exact Or.inl (lt_of_lt_of_le hpn h.le)
  · exact (h.kept pn hpn).symm

/-- Recording a new number keeps the invariant, forgets nothing and remembers the number. -/
theorem SackList.Good.updateSackList (hs : s.Good) {pn : PacketNumber} (hnew : ¬ s.Remembers pn)
    (currentTime : ℕ) :
    (updateSackList s pn pn currentTime).1.Good ∧
      ∀ n, s.Remembers n ∨ n = pn →
        (Picoquic.updateSackList s pn pn currentTime).1.Remembers n := by
  obtain ⟨hsep, hcov⟩ :=
    recordRange_spec hs.canonical (pn.isLt.trans (by decide)) (le_refl (pn : ℕ)) currentTime
  obtain ⟨hdelay, hhor⟩ := recordRange_horizon s pn pn currentTime
  have hge : s.ackHorizon ≤ pn := not_lt.mp fun h => hnew (Or.inl h)
  have hgood : (recordRange s pn pn currentTime).1.Good := by
    refine ⟨⟨hsep, fun n hn => ?_⟩, fun n hn => ?_, by rw [hdelay, hhor]; exact hs.horizon_eq⟩
    · rcases (hcov n).mp hn with h | ⟨-, h⟩
      · exact hs.canonical.lt n h
      · have := pn.isLt
        omega
    · rw [hhor]
      rcases (hcov n).mp hn with h | ⟨h, -⟩
      · exact hs.horizon_le n h
      · exact hge.trans h
  have hrem : ∀ n, s.Remembers n ∨ n = pn → (recordRange s pn pn currentTime).1.Remembers n := by
    rintro n ((h | h) | rfl)
    · exact Or.inl (by rwa [hhor])
    · exact Or.inr ((hcov n).mpr (Or.inl h))
    · exact Or.inr ((hcov _).mpr (Or.inr ⟨le_rfl, le_rfl⟩))
  rw [Picoquic.updateSackList]
  split_ifs with hd
  · obtain ⟨hgood', hrem'⟩ := hgood.updateAckHorizon hd currentTime
    exact ⟨hgood', fun n hn => hrem' n (hrem n hn)⟩
  · exact ⟨hgood, hrem⟩

/-- An acknowledged acknowledgement keeps the invariant and forgets what it prunes only. -/
theorem SackList.Good.processAckOfAckRange (hs : s.Good) {startOfRange endOfRange : ℕ}
    (hle : startOfRange ≤ endOfRange) :
    (processAckOfAckRange s startOfRange endOfRange).Good ∧
      ∀ pn, s.Remembers pn → ¬ PrunedByAckOfAck s startOfRange endOfRange pn →
        (Picoquic.processAckOfAckRange s startOfRange endOfRange).Remembers pn := by
  obtain ⟨hsep, hcov⟩ := processAckOfAckRange_spec hs.canonical hle
  obtain ⟨hdelay, hhor⟩ := processAckOfAckRange_horizon s startOfRange endOfRange
  refine ⟨⟨⟨hsep, fun n hn => hs.canonical.lt n ((hcov n).mp hn).1⟩, fun n hn => ?_, ?_⟩, ?_⟩
  · rw [hhor]
    exact hs.horizon_le n ((hcov n).mp hn).1
  · rw [hdelay, hhor]
    exact hs.horizon_eq
  · rintro pn (h | h) hpruned
    · exact Or.inl (by rwa [hhor])
    · exact Or.inr ((hcov pn).mpr ⟨h, hpruned⟩)

/-- Counting an item as sent changes no range. -/
theorem recordSent_map_range (s : SackList) (i : ℕ) (isOpportunistic : Fin 2) :
    (recordSent s i isOpportunistic).ackTree.map
        (fun item => (item.startOfSackRange, item.endOfSackRange)) =
      s.ackTree.map fun item => (item.startOfSackRange, item.endOfSackRange) := by
  rw [recordSent]
  cases h : s.ackTree[i]? with
  | none => rfl
  | some item =>
    obtain ⟨hi, hitem⟩ := List.getElem?_eq_some_iff.mp h
    subst hitem
    have hi' : i < (s.ackTree.map fun item =>
        (item.startOfSackRange, item.endOfSackRange)).length := by simpa using hi
    have hset := List.set_getElem_self hi'
    rw [List.getElem_map] at hset
    rw [List.map_set]
    exact hset

/-- Counting an item as sent keeps the invariant and forgets nothing. -/
theorem SackList.Good.recordSent (hs : s.Good) (i : ℕ) (isOpportunistic : Fin 2) :
    (recordSent s i isOpportunistic).Good ∧
      ∀ pn, s.Remembers pn → (Picoquic.recordSent s i isOpportunistic).Remembers pn := by
  have hmap := recordSent_map_range s i isOpportunistic
  have hcov := covers_congr hmap
  have hhor : (Picoquic.recordSent s i isOpportunistic).ackHorizon = s.ackHorizon ∧
      (Picoquic.recordSent s i isOpportunistic).horizonDelay = s.horizonDelay := by
    rw [Picoquic.recordSent]
    cases s.ackTree[i]? <;> simp
  refine ⟨⟨⟨hs.canonical.separated.congr hmap.symm, fun n hn =>
    hs.canonical.lt n ((hcov n).mp hn)⟩, fun n hn => ?_, ?_⟩, ?_⟩
  · rw [hhor.1]
    exact hs.horizon_le n ((hcov n).mp hn)
  · rw [hhor.1, hhor.2]
    exact hs.horizon_eq
  · rintro pn (h | h)
    · exact Or.inl (by rwa [hhor.1])
    · exact Or.inr ((hcov pn).mpr h)

/-! ### Runs -/

/-- **One event.** It keeps the invariant, and forgets a number only by pruning it. -/
theorem AckContext.step_good {ctx : AckContext} (hctx : ctx.sackList.Good) (e : AckEvent) :
    (ctx.step e).sackList.Good ∧ ∀ pn, ctx.sackList.Remembers pn → ¬ ctx.Prunes e pn →
      (ctx.step e).sackList.Remembers pn := by
  cases e with
  | receive pn currentTime =>
    rw [step]
    split_ifs with hold
    · exact ⟨hctx, fun _ h _ => h⟩
    · have hnew : ¬ ctx.sackList.Remembers pn := fun h =>
        hold ((hctx.isPnAlreadyReceived_iff pn).mpr h)
      obtain ⟨hgood, hrem⟩ := hctx.updateSackList hnew currentTime
      exact ⟨hgood, fun n hn _ => hrem n (Or.inl hn)⟩
  | ackOfAck startOfRange endOfRange hle => exact hctx.processAckOfAckRange hle
  | updateHorizon currentTime =>
    rw [step]
    split_ifs with hd
    · obtain ⟨hgood, hrem⟩ := hctx.updateAckHorizon hd currentTime
      exact ⟨hgood, fun n hn _ => hrem n hn⟩
    · exact ⟨hctx, fun _ h _ => h⟩
  | recordSent i isOpportunistic =>
    obtain ⟨hgood, hrem⟩ := hctx.recordSent i isOpportunistic
    exact ⟨hgood, fun n hn _ => hrem n hn⟩
  | readyWithSimpleMultipath =>
    exact ⟨⟨hctx.canonical, hctx.horizon_le, Or.inl (by decide : (0 : ℤ) < 1000000)⟩,
      fun _ h _ => h⟩

theorem AckContext.initial_good (horizonDelay : ℤ) :
    (AckContext.initial horizonDelay).sackList.Good :=
  ⟨sackCanonical_nil, fun _ h => absurd h covers_nil, Or.inr rfl⟩

/-- Receiving a number makes the context remember it. -/
theorem AckContext.remembers_of_receive {ctx : AckContext} (hctx : ctx.sackList.Good)
    (pn : PacketNumber) (currentTime : ℕ) :
    (ctx.step (.receive pn currentTime)).sackList.Remembers pn := by
  rw [step]
  split_ifs with hold
  · exact (hctx.isPnAlreadyReceived_iff pn).mp hold
  · have hnew : ¬ ctx.sackList.Remembers pn := fun h =>
      hold ((hctx.isPnAlreadyReceived_iff pn).mpr h)
    exact (hctx.updateSackList hnew currentTime).2 pn (Or.inr rfl)

/-- **Replay suppression.** In every run, with or without a horizon delay, a packet number that
was received is answered as already received in every later state, as long as no acknowledged
acknowledgement prunes it on the way there. -/
theorem isPnAlreadyReceived_run (horizonDelay : ℤ) (before after : List AckEvent)
    (pn : PacketNumber) (currentTime : ℕ)
    (hprune : Along AckContext.step (fun ctx e => ¬ ctx.Prunes e pn)
      (run AckContext.step (AckContext.initial horizonDelay) (before ++ [.receive pn currentTime]))
      after) :
    isPnAlreadyReceived (run AckContext.step (AckContext.initial horizonDelay)
      (before ++ .receive pn currentTime :: after)).sackList pn = true := by
  have hgood := run_invariant (I := fun ctx : AckContext => ctx.sackList.Good)
    (fun ctx e h => (AckContext.step_good h e).1) (AckContext.initial_good horizonDelay) before
  have hrec := AckContext.remembers_of_receive hgood pn currentTime
  have hinv := run_invariant_of_along (P := fun ctx e => ¬ ctx.Prunes e pn)
    (I := fun ctx : AckContext => ctx.sackList.Good ∧ ctx.sackList.Remembers pn)
    (fun ctx e h hp => ⟨(AckContext.step_good h.1 e).1, (AckContext.step_good h.1 e).2 pn h.2 hp⟩)
    ⟨(AckContext.step_good hgood (.receive pn currentTime)).1, hrec⟩ (by simpa using hprune)
  rw [run_append, run_cons]
  exact (hinv.1.isPnAlreadyReceived_iff pn).mpr hinv.2

/-- A run that prunes other numbers than the one it keeps. -/
theorem isPnAlreadyReceived_run_pruning :
    isPnAlreadyReceived (run AckContext.step (AckContext.initial 0)
      ([.receive 7 1] ++ .receive 3 2 :: [.ackOfAck 7 7 le_rfl, .receive 4 3])).sackList
        (3 : PacketNumber) = true :=
  isPnAlreadyReceived_run 0 [.receive 7 1] [.ackOfAck 7 7 le_rfl, .receive 4 3] 3 2 (by decide)

/-- **Pruning forgets.** Once packets `0` and `2` were received and the acknowledgement of `0`
is acknowledged, `0` counts as new again; with a horizon delay the same happens to `0` when the
highest range is cut down. -/
theorem replay_after_ackOfAck :
    isPnAlreadyReceived (run AckContext.step (AckContext.initial 0)
      [.receive 0 1, .receive 2 2, .ackOfAck 0 0 le_rfl]).sackList 0 = false ∧
    isPnAlreadyReceived (run AckContext.step (AckContext.initial 1000000)
      [.receive 0 1, .receive 1 2, .ackOfAck 0 1 (by decide)]).sackList 0 = false := by
  decide

end Picoquic
