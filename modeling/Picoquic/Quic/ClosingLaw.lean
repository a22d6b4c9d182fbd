import Picoquic.Quic.Closing

/-!
# Closing comes to an end

Whatever arrives while a connection is being closed, the connection sends no more packets than it
receives, and one, and it is forgotten when three times the retransmission timer have gone by since
it sent its close frame or received the one of the peer.

* **`ClosingCnx.closePackets_le`** — no answers without packets, in all runs;
* **`ClosingCnx.disconnected_of_exitTime`** — nothing keeps a connection that is being closed.
-/

namespace Picoquic

open Runs

namespace ClosingCnx

/-! ### States -/

private theorem isOpen_iff {s : ClosingState} :
    s.IsOpen ↔ s = .serverFalseStart ∨ s = .clientReadyStart ∨ s = .ready := by
  cases s <;> decide

/-- How often a packet is sent. -/
def sends (actions : List CloseAction) : ℕ :=
  actions.countP fun x => match x with
    | .sent _ => true
    | _ => false

/-! ### No more packets than arrive -/

/-- The packets with close frames that an event makes this endpoint send. -/
def closePackets (c : ClosingCnx) (e : ClosingEvent) : ℕ :=
  if c.cnxState.IsOpen then 0 else sends (c.outcome e).2

/-- The packets that arrive. -/
def arrivals (_ : ClosingCnx) : ClosingEvent → ℕ
  | .incoming _ _ => 1
  | _ => 0

/-- The close frames that are still sent if nothing arrives any more. -/
def pending (c : ClosingCnx) : ℕ :=
  match c.cnxState with
  | .closing => if c.ackNeeded then 1 else 0
  | .draining | .disconnected => 0
  | _ => 1

private theorem pending_le_one (c : ClosingCnx) : c.pending ≤ 1 := by
  rw [pending]
  split
  · split <;> omega
  · omega
  · omega
  · omega

private theorem sends_connectionDisconnect (c : ClosingCnx) :
    sends c.connectionDisconnect.2 = 0 := by
  rw [connectionDisconnect]
  split <;> rfl

private theorem cnxState_connectionDisconnect (c : ClosingCnx) :
    c.connectionDisconnect.1.cnxState = .disconnected := by
  rw [connectionDisconnect]
  split
  · assumption
  · rfl

private theorem pending_connectionDisconnect (c : ClosingCnx) :
    c.connectionDisconnect.1.pending = 0 := by
  rw [pending, cnxState_connectionDisconnect]

private theorem pending_le_of_disconnect (c : ClosingCnx) :
    sends c.connectionDisconnect.2 + c.connectionDisconnect.1.pending ≤ 0 := by
  rw [sends_connectionDisconnect, pending_connectionDisconnect]

private theorem pending_preparePacketClosing (c : ClosingCnx) (a : PrepareClosing) :
    sends (c.preparePacketClosing a).2 + (c.preparePacketClosing a).1.pending ≤ c.pending := by
  have hdisconnect := c.pending_le_of_disconnect
  rw [preparePacketClosing]
  cases hstate : c.cnxState with
  | closingReceived => simp [pending, hstate, sends, packet]
  | closing =>
    dsimp only
    split_ifs with hexit htime hack
    · exact le_trans hdisconnect (Nat.zero_le _)
    · simp [pending, hstate, hack, sends, packet]
    · simp [pending, hstate, hack, sends]
    · exact le_of_eq (Nat.zero_add c.pending)
  | draining =>
    dsimp only
    split_ifs with hexit
    · exact le_trans hdisconnect (Nat.zero_le _)
    · simp [pending, hstate, sends]
  | disconnecting => simp [pending, hstate, sends, packet]
  | serverFalseStart => simp [sends]
  | clientReadyStart => simp [sends]
  | ready => simp [sends]
  | disconnected => simp [sends]

variable {c : ClosingCnx} {t : ℕ}

private theorem pending_prepareSegment (hopen : ¬c.cnxState.IsOpen) (a : PrepareClosing) :
    sends (c.prepareSegment a).2 + (c.prepareSegment a).1.pending ≤ c.pending := by
  rw [prepareSegment, if_neg hopen]
  split_ifs with hstate
  · exact le_of_eq (Nat.zero_add c.pending)
  · exact c.pending_preparePacketClosing a

/-- What is prepared: nothing if the time is over, or else a segment. -/
theorem prepare_cases (c : ClosingCnx) (a : PrepareClosing) :
    (∃ t, c.prepare a =
      connectionDisconnect { c with localError := errorIdleTimeout, nextWakeTime := t }) ∨
      ∃ t t', (t' = a.currentTime ∨ t' = ((c.wakeAt t).prepareSegment a).1.nextWakeTime) ∧
        c.prepare a =
          (((c.wakeAt t).prepareSegment a).1.wakeAt t', ((c.wakeAt t).prepareSegment a).2) := by
  rw [prepare]
  by_cases hidle : c.idleTimer a.currentRetransmitTimer ≤ a.currentTime
  · rw [if_pos hidle]
    exact Or.inl ⟨_, rfl⟩
  · rw [if_neg hidle]
    refine Or.inr ⟨_, _, ?_, rfl⟩
    split_ifs
    · exact Or.inl rfl
    · exact Or.inr rfl

private theorem pending_prepare (hopen : ¬c.cnxState.IsOpen) (a : PrepareClosing) :
    sends (c.prepare a).2 + (c.prepare a).1.pending ≤ c.pending := by
  obtain ⟨t, h⟩ | ⟨t, t', -, h⟩ := c.prepare_cases a
  · rw [h]
    exact le_trans (pending_le_of_disconnect _) (Nat.zero_le _)
  · rw [h]
    exact pending_prepareSegment (c := c.wakeAt t) hopen a

private theorem sends_append (l l' : List CloseAction) : sends (l ++ l') = sends l + sends l' :=
  List.countP_append

private theorem sends_connectionError (c : ClosingCnx) (error frameType : ℕ) :
    sends (c.connectionError error frameType).2 = 0 := by
  rw [connectionError]
  split_ifs <;> rfl

private theorem sends_decodeMalformedClose (c : ClosingCnx) (isApplication : Bool)
    (error : Option ℕ) :
    sends (c.decodeMalformedClose isApplication error).2 = 0 :=
  sends_connectionError _ _ _

private theorem sends_decodeConnectionClose (c : ClosingCnx) (error : ℕ) :
    sends (c.decodeConnectionClose error).2 = 0 := by
  rw [decodeConnectionClose]
  split_ifs <;> rfl

private theorem sends_decodeClosingFrames (c : ClosingCnx) (frames : List CloseFrame) :
    sends (c.decodeClosingFrames frames).2.1 = 0 := by
  induction frames with
  | nil => rfl
  | cons frame frames ih =>
    cases frame with
    | other _ _ => exact ih
    | refused _ _ isSkipped _ =>
      rw [decodeClosingFrames]
      split_ifs
      · exact ih
      · rfl
    | connectionClose error _ =>
      rw [decodeClosingFrames]
      split_ifs
      · exact c.sends_decodeConnectionClose error
      · rfl
      all_goals nofun
    | applicationClose error =>
      rw [decodeClosingFrames]
      split_ifs
      · rfl
      · rfl
      all_goals nofun
    | malformedClose isApplication error =>
      rw [decodeClosingFrames]
      split_ifs
      · exact c.sends_decodeMalformedClose isApplication error
      · rfl
      all_goals nofun

private theorem sends_incomingClosing (c : ClosingCnx) (frames : List CloseFrame)
    (currentTime : ℕ) :
    sends (c.incomingClosing frames currentTime).2 = 0 := by
  have hframes := c.sends_decodeClosingFrames frames
  rw [incomingClosing]
  generalize c.decodeClosingFrames frames = r at hframes ⊢
  obtain ⟨c', actions, _ | _ | _⟩ := r
  · exact hframes
  · exact hframes
  · dsimp only at hframes ⊢
    split_ifs
    · rw [sends_append, hframes, sends_connectionDisconnect]
    · exact hframes

private theorem sends_incoming (hopen : ¬c.cnxState.IsOpen) (frames : List CloseFrame)
    (currentTime : ℕ) :
    sends (c.incoming frames currentTime).2 = 0 := by
  rw [incoming, if_neg hopen]
  dsimp only
  rw [sends_append]
  split_ifs
  · exact c.sends_incomingClosing frames currentTime
  · rfl

/-- One event at an endpoint that is being closed. -/
theorem closePackets_step (c : ClosingCnx) (e : ClosingEvent) :
    c.closePackets e + (c.step e).pending ≤ c.pending + c.arrivals e := by
  have hle := (c.step e).pending_le_one
  by_cases hopen : c.cnxState.IsOpen
  · have hpending : c.pending = 1 := by
      obtain h | h | h := isOpen_iff.mp hopen <;> rw [pending, h]
    rw [closePackets, if_pos hopen]
    omega
  · rw [closePackets, if_neg hopen]
    cases e with
    | prepare a => exact pending_prepare hopen a
    | incoming frames currentTime =>
      have hsends := sends_incoming hopen frames currentTime
      rw [outcome, hsends, arrivals]
      omega
    | connectionError error frameType =>
      rw [step, outcome, connectionError, if_neg hopen]
      exact le_of_eq (Nat.zero_add c.pending)
    | close reason currentTime =>
      rw [step, outcome, close, if_neg hopen]
      exact le_of_eq (Nat.zero_add c.pending)
    | closeImmediate currentTime path =>
      rw [step, outcome, closeImmediate]
      split_ifs
      · exact Nat.zero_le _
      · exact le_of_eq (Nat.zero_add c.pending)
    | statelessReset currentTime =>
      rw [step, outcome, incomingStatelessReset, if_neg hopen, sends_append,
        sends_connectionDisconnect, pending_connectionDisconnect]
      exact Nat.zero_le _
    | delete =>
      rw [step, outcome, sends_connectionDisconnect, pending_connectionDisconnect]
      exact Nat.zero_le _

/-- **No close loops.** An endpoint that is being closed sends no more packets than arrive, and
one. -/
theorem closePackets_le (c : ClosingCnx) (evs : List ClosingEvent) :
    total step closePackets c evs ≤ total step arrivals c evs + 1 := by
  have htotal := total_le closePackets_step c evs
  have hpending := c.pending_le_one
  omega

/-! ### The end -/

/-- The endpoint has been waiting since `t`, or does not any more. -/
def Waits (t : ℕ) (c : ClosingCnx) : Prop :=
  c.cnxState = .disconnected ∨
    (c.cnxState = .closing ∨ c.cnxState = .draining) ∧ c.latestProgressTime = t

private theorem waits_connectionDisconnect (t : ℕ) (c : ClosingCnx) :
    c.connectionDisconnect.1.Waits t :=
  Or.inl c.cnxState_connectionDisconnect

/-- A connection is closed by `picoquic_close_immediate` while it waits. -/
def ClosesAgain (c : ClosingCnx) : ClosingEvent → Prop
  | .closeImmediate _ _ => c.cnxState = .closing
  | _ => False

private theorem Waits.not_isOpen (h : c.Waits t) : ¬c.cnxState.IsOpen := by
  rw [isOpen_iff]
  obtain h | ⟨h | h, -⟩ := h <;> rw [h] <;> decide

/-- Either the wait is over, or there is time left, and the next time to prepare a packet is not
after the end. -/
def InTime (t : ℕ) (a : PrepareClosing) (c : ClosingCnx) : Prop :=
  c.cnxState = .disconnected ∨
    a.currentTime < exitTime t a.path ∧ c.nextWakeTime ≤ exitTime t a.path

private theorem Waits.preparePacketClosing (h : c.Waits t) (hstate : c.cnxState ≠ .disconnected)
    (a : PrepareClosing) :
    (c.preparePacketClosing a).1.Waits t ∧ (c.preparePacketClosing a).1.InTime t a := by
  have hend := c.cnxState_connectionDisconnect
  obtain hdisconnected | ⟨hclosing | hdraining, htime⟩ := h
  · exact absurd hdisconnected hstate
  · rw [ClosingCnx.preparePacketClosing, hclosing, htime]
    dsimp only
    split_ifs with hexit hrtt hack
    · exact ⟨Or.inl hend, Or.inl hend⟩
    · exact ⟨Or.inr ⟨Or.inl rfl, rfl⟩, Or.inr ⟨not_le.mp hexit, min_le_right _ _⟩⟩
    · exact ⟨Or.inr ⟨Or.inl hclosing, htime⟩, Or.inr ⟨not_le.mp hexit, min_le_right _ _⟩⟩
    · exact ⟨Or.inr ⟨Or.inl hclosing, htime⟩, Or.inr ⟨not_le.mp hexit, min_le_right _ _⟩⟩
  · rw [ClosingCnx.preparePacketClosing, hdraining, htime]
    dsimp only
    split_ifs with hexit
    · exact ⟨Or.inl hend, Or.inl hend⟩
    · exact ⟨Or.inr ⟨Or.inr hdraining, htime⟩, Or.inr ⟨not_le.mp hexit, le_rfl⟩⟩

private theorem Waits.prepareSegment (h : c.Waits t) (a : PrepareClosing) :
    (c.prepareSegment a).1.Waits t ∧ (c.prepareSegment a).1.InTime t a := by
  rw [ClosingCnx.prepareSegment, if_neg h.not_isOpen]
  split_ifs with hstate
  · exact ⟨h, Or.inl hstate⟩
  · exact h.preparePacketClosing hstate a

private theorem Waits.prepare (h : c.Waits t) (a : PrepareClosing) :
    (c.prepare a).1.Waits t ∧ (c.prepare a).1.InTime t a := by
  obtain ⟨_, heq⟩ | ⟨wake, _, rfl | rfl, heq⟩ := c.prepare_cases a
  · rw [heq]
    exact ⟨waits_connectionDisconnect t _, Or.inl (cnxState_connectionDisconnect _)⟩
  · obtain ⟨hwaits, hintime⟩ := Waits.prepareSegment (c := c.wakeAt wake) h a
    rw [heq]
    exact ⟨hwaits, hintime.imp_right fun hleft => ⟨hleft.1, Nat.le_of_lt hleft.1⟩⟩
  · rw [heq]
    exact Waits.prepareSegment (c := c.wakeAt wake) h a

/-- A connection that has sent its close frame does not look at the ones it receives. -/
theorem decodeClosingFrames_of_closing (h : c.cnxState = .closing) (frames : List CloseFrame) :
    (c.decodeClosingFrames frames).1 = c := by
  have hstate : ¬c.cnxState.toNat ≤ ClosingState.disconnecting.toNat := by
    rw [h]
    decide
  induction frames with
  | nil => rfl
  | cons frame frames ih =>
    cases frame with
    | other _ _ => exact ih
    | refused _ _ isSkipped _ =>
      rw [decodeClosingFrames]
      split_ifs
      · exact ih
      · rfl
    | connectionClose _ _ | applicationClose _ | malformedClose _ _ =>
      rw [decodeClosingFrames, if_neg hstate]
      all_goals nofun

private theorem Waits.incoming (h : c.Waits t) (frames : List CloseFrame) (currentTime : ℕ) :
    (c.incoming frames currentTime).1.Waits t := by
  rw [ClosingCnx.incoming, if_neg h.not_isOpen]
  dsimp only
  split_ifs with hstate
  · obtain hdisconnected | ⟨hclosing | hdraining, htime⟩ := h
    · rw [hdisconnected] at hstate
      cases hstate <;> contradiction
    · have hframes := decodeClosingFrames_of_closing hclosing frames
      rw [incomingClosing]
      generalize c.decodeClosingFrames frames = r at hframes ⊢
      obtain ⟨c', actions, _ | _ | _⟩ := r
      · rw [show c' = c from hframes]
        exact Or.inr ⟨Or.inl hclosing, htime⟩
      · rw [show c' = c from hframes]
        exact Or.inr ⟨Or.inl hclosing, htime⟩
      · rw [show c' = c from hframes]
        dsimp only
        split_ifs
        · exact waits_connectionDisconnect t c
        · exact Or.inr ⟨Or.inr rfl, htime⟩
    · rw [hdraining] at hstate
      cases hstate <;> contradiction
  · exact h

private theorem Waits.step (h : c.Waits t) {e : ClosingEvent} (he : ¬c.ClosesAgain e) :
    (c.step e).Waits t := by
  cases e with
  | prepare a => exact (h.prepare a).1
  | incoming frames currentTime => exact h.incoming frames currentTime
  | connectionError error frameType =>
    rw [ClosingCnx.step, outcome, connectionError, if_neg h.not_isOpen]
    exact h
  | close reason currentTime =>
    rw [ClosingCnx.step, outcome, close, if_neg h.not_isOpen]
    exact h
  | closeImmediate currentTime path =>
    rw [ClosingCnx.step, outcome, closeImmediate]
    obtain hstate | ⟨hstate | hstate, -⟩ := id h
    · rwa [hstate, if_neg (by decide)]
    · exact absurd hstate he
    · rwa [hstate, if_neg (by decide)]
  | statelessReset currentTime =>
    rw [ClosingCnx.step, outcome, incomingStatelessReset, if_neg h.not_isOpen]
    exact waits_connectionDisconnect t _
  | delete => exact waits_connectionDisconnect t c

/-- A connection that is forgotten is not closed again. -/
theorem cnxState_step_of_disconnected (h : c.cnxState = .disconnected) (e : ClosingEvent) :
    (c.step e).cnxState = .disconnected := by
  have hnot : ¬c.ClosesAgain e := by
    cases e with
    | closeImmediate _ _ => exact fun hclosing => by cases h.symm.trans hclosing
    | _ => exact id
  -- it waits since any time
  obtain hstate | ⟨-, htime⟩ := Waits.step (t := (c.step e).latestProgressTime + 1) (Or.inl h) hnot
  · exact hstate
  · omega

/-- Since when a connection waits once it has been prepared. -/
def waitingSince (c : ClosingCnx) (first : PrepareClosing) : ℕ :=
  if c.cnxState = .disconnecting then first.currentTime else c.latestProgressTime

private theorem waits_prepareSegment (h : ¬c.cnxState.IsOpen) (a : PrepareClosing) :
    (c.prepareSegment a).1.Waits (c.waitingSince a) := by
  cases hstate : c.cnxState with
  | serverFalseStart | clientReadyStart | ready => exact absurd (hstate ▸ by decide) h
  | disconnecting =>
    rw [waitingSince, if_pos hstate, prepareSegment, if_neg h, if_neg (by simp [hstate]),
      preparePacketClosing, hstate]
    exact Or.inr ⟨Or.inl rfl, rfl⟩
  | closingReceived =>
    rw [waitingSince, if_neg (by simp [hstate]), prepareSegment, if_neg h,
      if_neg (by simp [hstate]), preparePacketClosing, hstate]
    exact Or.inr ⟨Or.inr rfl, rfl⟩
  | closing =>
    rw [waitingSince, if_neg (by simp [hstate])]
    exact (Waits.prepareSegment (Or.inr ⟨Or.inl hstate, rfl⟩) a).1
  | draining =>
    rw [waitingSince, if_neg (by simp [hstate])]
    exact (Waits.prepareSegment (Or.inr ⟨Or.inr hstate, rfl⟩) a).1
  | disconnected => exact (Waits.prepareSegment (Or.inl hstate) a).1.imp_right fun h => h

private theorem waits_prepare (h : ¬c.cnxState.IsOpen) (a : PrepareClosing) :
    (c.prepare a).1.Waits (c.waitingSince a) := by
  obtain ⟨t, heq⟩ | ⟨t, t', -, heq⟩ := c.prepare_cases a
  · rw [heq]
    exact waits_connectionDisconnect _ _
  · rw [heq]
    exact waits_prepareSegment (c := c.wakeAt t) h a

/-- **The end of a connection.** Once a connection that is being closed has been prepared, it is
forgotten when it is prepared at the end of the wait or later, and until then it asks to be prepared
in time, whatever arrives. -/
theorem disconnected_of_exitTime {c : ClosingCnx} (h : ¬c.cnxState.IsOpen) (first : PrepareClosing)
    (evs : List ClosingEvent)
    (hevs : Along step (fun c e => ¬c.ClosesAgain e) (c.step (.prepare first)) evs) :
    (∀ a, .prepare a ∈ evs → exitTime (c.waitingSince first) a.path ≤ a.currentTime →
      (run step c (.prepare first :: evs)).cnxState = .disconnected) ∧
    ∀ evs' a, evs' ++ [.prepare a] <+: evs →
      (run step c (.prepare first :: (evs' ++ [.prepare a]))).InTime (c.waitingSince first) a := by
  have hwaits : (c.step (.prepare first)).Waits (c.waitingSince first) := waits_prepare h first
  have hkeep : ∀ (c' : ClosingCnx) e, c'.Waits (c.waitingSince first) → ¬c'.ClosesAgain e →
      (step c' e).Waits (c.waitingSince first) := fun _ _ hc' he => hc'.step he
  have hend : ∀ (c' : ClosingCnx) e, c'.cnxState = .disconnected →
      (step c' e).cnxState = .disconnected := fun _ e hc' => cnxState_step_of_disconnected hc' e
  -- the wait goes on before each time the connection is prepared
  have hintime : ∀ evs' a, evs' ++ [.prepare a] <+: evs →
      (run step c (.prepare first :: (evs' ++ [.prepare a]))).InTime
        (c.waitingSince first) a := by
    intro evs' a hprefix
    have hbefore := forall_prefix_of_along hkeep hwaits hevs evs'
      ((List.prefix_append evs' _).trans hprefix)
    rw [run_cons, run_append]
    exact (hbefore.prepare a).2
  refine ⟨fun a ha hexit => ?_, hintime⟩
  obtain ⟨evs', rest, rfl⟩ := List.append_of_mem ha
  have hlate : (run step c (.prepare first :: (evs' ++ [.prepare a]))).cnxState =
      .disconnected := (hintime evs' a ⟨rest, by simp⟩).resolve_right fun hleft => by omega
  rw [show evs' ++ .prepare a :: rest = evs' ++ [.prepare a] ++ rest by simp, ← List.cons_append,
    run_append]
  exact run_invariant hend hlate rest

/-- A path with a timer of 100 ms. -/
def prepareAt (currentTime : ℕ) : PrepareClosing where
  currentTime := currentTime
  currentRetransmitTimer := 100000
  path := ⟨100000, 40000, 30000⟩
  isAckSent := true
  fits := true
  isRepeatTimeout := false
  isProgress := false
  isReady := false
  openWakeTime := 0

/-- A server that the application has closed, and to which packets are still sent. -/
theorem disconnected_of_exitTime_packets :
    let c : ClosingCnx := (newCnx false 0 30000000 0).step (.close 7 1000)
    (run step c [.prepare (prepareAt 1000), .incoming [.other true false] 200000,
      .prepare (prepareAt 200000), .incoming [.other true false] 290000,
      .prepare (prepareAt 301000)]).cnxState = .disconnected :=
  (disconnected_of_exitTime (by decide) (prepareAt 1000)
    [.incoming [.other true false] 200000, .prepare (prepareAt 200000),
      .incoming [.other true false] 290000, .prepare (prepareAt 301000)]
    ⟨id, id, id, id, trivial⟩).1 (prepareAt 301000) (by simp) (by decide)

end ClosingCnx

end Picoquic
