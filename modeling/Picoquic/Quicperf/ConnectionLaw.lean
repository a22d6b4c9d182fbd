import Mathlib.Data.List.Flatten
import Mathlib.Data.List.Nodup
import Mathlib.Data.List.Pairwise
import Mathlib.Data.List.Perm.Basic
import Picoquic.Quicperf.Connection
import Picoquic.Quicperf.ScenarioText
import Picoquic.Quicperf.StreamLaw

/-!
# Client and server of the performance test agree

A scenario can be played if its streams are distinct, of the kind that the client may open, and
wait for streams that come to an end. Then the two sides agree in every run.

* **`Playable`** — the condition on the scenario;
* **`openAll`**, **`initStreamsFromScenario_eq`** — opening streams that are new cannot fail;
* **`QuicperfConnection.Inv`** — what every callback keeps;
* **`agrees_run`** — the law along every run.

Repetitions take identifiers that the next description has by default.
-/

namespace Picoquic

/-! ### Scenarios -/

/-- The streams of a description. -/
def QuicperfStreamDesc.streamIds (d : QuicperfStreamDesc) : List ℕ :=
  List.range' d.streamId (max 1 d.repeatCount) 4

/-- The stream, or the start of the connection, is reached from the start. -/
inductive Rooted (scenarios : List QuicperfStreamDesc) : ℕ → Prop
  | initial : Rooted scenarios quicperfStreamIdInitial
  | after {d : QuicperfStreamDesc} {streamId : ℕ} (hd : d ∈ scenarios)
    (hid : streamId ∈ d.streamIds) (h : Rooted scenarios d.previousStreamId) :
    Rooted scenarios streamId

/-- A scenario that can be played to its end. -/
structure Playable (scenarios : List QuicperfStreamDesc) : Prop where
  ne_nil : scenarios ≠ []
  nodup : (scenarios.flatMap QuicperfStreamDesc.streamIds).Nodup
  bidir : ∀ d ∈ scenarios, ∀ streamId ∈ d.streamIds, streamId % 4 = 0 ∧ streamId < 2 ^ 62
  sized : ∀ d ∈ scenarios, d.Sized
  rooted : ∀ d ∈ scenarios, Rooted scenarios d.previousStreamId

namespace QuicperfConnection

variable {s : QuicperfConnection}

@[simp]
theorem setStream_streams_self (i : ℕ) (stream : PerfStream) :
    (s.setStream i stream).streams i = stream := Function.update_self _ _ _

theorem setStream_streams_of_ne {i j : ℕ} (h : j ≠ i) (stream : PerfStream) :
    (s.setStream i stream).streams j = s.streams j := Function.update_of_ne h _ _

/-! ### The scenario stays -/

@[simp]
theorem fault_scenarios (f : Fault) : (s.fault f).scenarios = s.scenarios := by
  rw [fault]
  split_ifs <;> rfl

theorem closeFor_none : s.closeFor none = s := rfl

@[simp]
theorem closeFor_scenarios (code : Option ℕ) : (s.closeFor code).scenarios = s.scenarios := by
  cases code with
  | none => rfl
  | some code => exact fault_scenarios _

theorem openStream_scenarios (d : QuicperfStreamDesc) (streamId : ℕ) :
    (s.openStream d streamId).1.scenarios = s.scenarios := by
  rw [openStream]
  dsimp only
  split_ifs
  · rfl
  · split <;> rfl

theorem initStreamLoop_scenarios (d : QuicperfStreamDesc) (n streamX : ℕ) :
    (initStreamLoop d n streamX s).1.scenarios = s.scenarios := by
  induction n generalizing streamX s with
  | zero => rfl
  | succ n ih =>
    rw [initStreamLoop]
    dsimp only
    split_ifs
    · rw [ih, openStream_scenarios]
    · exact openStream_scenarios d streamX

theorem initScenarioLoop_scenarios (streamId : ℕ) (scenarios : List QuicperfStreamDesc) :
    (initScenarioLoop streamId scenarios s).1.scenarios = s.scenarios := by
  induction scenarios generalizing s with
  | nil => rfl
  | cons d scenarios ih =>
    rw [initScenarioLoop]
    dsimp only
    split_ifs
    · rw [ih, initStreamLoop_scenarios]
    · exact initStreamLoop_scenarios d _ _
    · exact ih

theorem initStreamsFromScenario_scenarios (streamId : ℕ) :
    (s.initStreamsFromScenario streamId).1.scenarios = s.scenarios :=
  initScenarioLoop_scenarios streamId s.scenarios

theorem processResponse_scenarios (streamId n : ℕ) (isFin : Bool) :
    (s.processResponse streamId n isFin).scenarios = s.scenarios := by
  rw [processResponse]
  split
  · exact fault_scenarios _
  · next c hc =>
    dsimp only
    split_ifs
    · exact fault_scenarios _
    · rw [fault_scenarios, initStreamsFromScenario_scenarios]
      exact closeFor_scenarios _
    · exact (initStreamsFromScenario_scenarios _).trans (closeFor_scenarios _)
    · rw [fault_scenarios, initStreamsFromScenario_scenarios]
      exact closeFor_scenarios _
    · exact closeFor_scenarios _

theorem setResult_scenarios (streamId : ℕ) (r : Except Fault PerfStream) :
    (s.setResult streamId r).scenarios = s.scenarios := by
  cases r with
  | error f => exact fault_scenarios f
  | ok stream => rfl

/-- No callback changes the scenario. -/
theorem step_scenarios (e : QuicperfEvent) : (s.step e).scenarios = s.scenarios := by
  rw [step]
  split_ifs
  · cases e with
    | ready =>
      rw [callback, ready]
      dsimp only
      split_ifs
      · rw [fault_scenarios, initStreamsFromScenario_scenarios]
      · exact initStreamsFromScenario_scenarios _
      · rfl
    | pollPost i length => exact setResult_scenarios i _
    | deliverPost i n isFin => exact setResult_scenarios i _
    | pollResponse i length => exact setResult_scenarios i _
    | deliverResponse i n isFin => exact processResponse_scenarios i n isFin
    | deliverStop i => exact setResult_scenarios i _
  · rfl

/-! ### Opening streams -/

/-- A stream that is new is opened. -/
def opens (s : QuicperfConnection) (p : QuicperfStreamDesc × ℕ) : QuicperfConnection :=
  { s with
    tree := p.2 :: s.tree
    nbOpenStreams := s.nbOpenStreams + 1
    streams := Function.update s.streams p.2
      { client := some (initStreamCtx p.1 p.2), post := { isActive := true } }
    opened := s.opened ++ [p.2] }

/-- Streams that are new are opened, in order. -/
def openAll (s : QuicperfConnection) (l : List (QuicperfStreamDesc × ℕ)) : QuicperfConnection :=
  l.foldl opens s

theorem openStream_eq {d : QuicperfStreamDesc} {streamId : ℕ} (h : streamId % 4 = 0)
    (hnew : s.streams streamId = {}) : s.openStream d streamId = (s.opens (d, streamId), true) := by
  have heven : ¬streamId % 2 = 1 := by omega
  rw [openStream, if_neg heven, hnew]
  rfl

theorem opens_streams_of_ne {p : QuicperfStreamDesc × ℕ} {i : ℕ} (h : i ≠ p.2) :
    (s.opens p).streams i = s.streams i := Function.update_of_ne h _ _

theorem openAll_append (l l' : List (QuicperfStreamDesc × ℕ)) :
    s.openAll (l ++ l') = (s.openAll l).openAll l' := List.foldl_append

theorem openAll_streams_of_not_mem {l : List (QuicperfStreamDesc × ℕ)} {i : ℕ}
    (h : i ∉ l.map Prod.snd) : (s.openAll l).streams i = s.streams i := by
  induction l generalizing s with
  | nil => rfl
  | cons p l ih =>
    obtain ⟨hne, hmem⟩ := List.ne_and_not_mem_of_not_mem_cons h
    exact (ih hmem).trans (opens_streams_of_ne hne)

theorem openAll_streams_of_mem {l : List (QuicperfStreamDesc × ℕ)} (hl : (l.map Prod.snd).Nodup)
    {p : QuicperfStreamDesc × ℕ} (h : p ∈ l) :
    (s.openAll l).streams p.2 =
      { client := some (initStreamCtx p.1 p.2), post := { isActive := true } } := by
  induction l generalizing s with
  | nil => exact absurd h List.not_mem_nil
  | cons q l ih =>
    obtain ⟨hq, hl⟩ := List.nodup_cons.mp hl
    rcases List.mem_cons.mp h with rfl | h
    · exact (openAll_streams_of_not_mem hq).trans (Function.update_self _ _ _)
    · exact ih hl h

section

variable (l : List (QuicperfStreamDesc × ℕ))

include l

theorem openAll_opened :
    (s.openAll l).opened = s.opened ++ l.map Prod.snd := by
  induction l generalizing s with
  | nil => exact (List.append_nil _).symm
  | cons p l ih => exact ih.trans (List.append_assoc _ _ _)

theorem openAll_nbOpenStreams :
    (s.openAll l).nbOpenStreams = s.nbOpenStreams + l.length := by
  induction l generalizing s with
  | nil => rfl
  | cons p l ih =>
    rw [List.length_cons]
    exact ih.trans (Nat.add_right_comm _ 1 _)

theorem openAll_tree :
    (s.openAll l).tree.Perm (s.tree ++ l.map Prod.snd) := by
  induction l generalizing s with
  | nil => exact List.Perm.of_eq (List.append_nil _).symm
  | cons p l ih => exact ih.trans List.perm_middle.symm

@[simp]
theorem openAll_scenarios :
    (s.openAll l).scenarios = s.scenarios := by
  induction l generalizing s with
  | nil => rfl
  | cons p l ih => exact ih

@[simp]
theorem openAll_closed : (s.openAll l).closed = s.closed := by
  induction l generalizing s with
  | nil => rfl
  | cons p l ih => exact ih

end

/-- **The inner loop** opens the streams of a description. -/
theorem initStreamLoop_eq {d : QuicperfStreamDesc} {n streamX : ℕ}
    (hid : ∀ i ∈ List.range' streamX n 4, i % 4 = 0 ∧ i < 2 ^ 62)
    (hnew : ∀ i ∈ List.range' streamX n 4, s.streams i = {}) :
    initStreamLoop d n streamX s =
      (s.openAll ((List.range' streamX n 4).map fun i => (d, i)), true) := by
  induction n generalizing streamX s with
  | zero => rfl
  | succ n ih =>
    rw [List.range'_succ] at hid hnew ⊢
    obtain ⟨hx, hid⟩ := List.forall_mem_cons.mp hid
    obtain ⟨hxnew, hnew⟩ := List.forall_mem_cons.mp hnew
    have hnext : u64 (streamX + 4) = streamX + 4 := u64_of_lt (by omega)
    have hnew' : ∀ i ∈ List.range' (streamX + 4) n 4, (s.opens (d, streamX)).streams i = {} := by
      intro i hi
      obtain ⟨k, -, rfl⟩ := List.mem_range'.mp hi
      rw [opens_streams_of_ne (by omega)]
      exact hnew _ hi
    rw [initStreamLoop, openStream_eq hx.1 hxnew]
    dsimp only
    rw [if_pos rfl, hnext, ih hid hnew']
    rfl

/-- The streams that a description opens when a stream is complete. -/
def opensAfter (streamId : ℕ) (d : QuicperfStreamDesc) : List (QuicperfStreamDesc × ℕ) :=
  if d.previousStreamId = streamId then d.streamIds.map fun i => (d, i) else []

/-- The streams that wait for a stream. -/
def dependents (scenarios : List QuicperfStreamDesc) (streamId : ℕ) :
    List (QuicperfStreamDesc × ℕ) := scenarios.flatMap (opensAfter streamId)

theorem mem_dependents {scenarios : List QuicperfStreamDesc} {streamId : ℕ}
    {p : QuicperfStreamDesc × ℕ} :
    p ∈ dependents scenarios streamId ↔
      p.1 ∈ scenarios ∧ p.1.previousStreamId = streamId ∧ p.2 ∈ p.1.streamIds := by
  obtain ⟨d, i⟩ := p
  rw [dependents, List.mem_flatMap]
  constructor
  · rintro ⟨d', hd', hp⟩
    rw [opensAfter] at hp
    split_ifs at hp with hprevious
    · obtain ⟨i', hi', heq⟩ := List.mem_map.mp hp
      obtain ⟨rfl, rfl⟩ := Prod.mk.inj heq
      exact ⟨hd', hprevious, hi'⟩
    · exact absurd hp List.not_mem_nil
  · rintro ⟨hd, hprevious, hi⟩
    refine ⟨d, hd, ?_⟩
    rw [opensAfter, if_pos hprevious]
    exact List.mem_map_of_mem hi

theorem map_snd_dependents_sublist (scenarios : List QuicperfStreamDesc) (streamId : ℕ) :
    ((dependents scenarios streamId).map Prod.snd).Sublist
      (scenarios.flatMap QuicperfStreamDesc.streamIds) := by
  induction scenarios with
  | nil => exact List.Sublist.slnil
  | cons d scenarios ih =>
    rw [dependents, List.flatMap_cons, List.flatMap_cons, List.map_append]
    refine List.Sublist.append ?_ ih
    rw [opensAfter]
    split_ifs
    · have hmap : (d.streamIds.map fun i => (d, i)).map Prod.snd = d.streamIds := by
        rw [List.map_map]
        exact List.map_id _
      rw [hmap]
    · exact List.nil_sublist _

/-- **The outer loop** opens all streams that wait, and cannot fail. -/
theorem initScenarioLoop_eq {streamId : ℕ} {scenarios : List QuicperfStreamDesc}
    (hnodup : (scenarios.flatMap QuicperfStreamDesc.streamIds).Nodup)
    (hid : ∀ d ∈ scenarios, ∀ i ∈ d.streamIds, i % 4 = 0 ∧ i < 2 ^ 62)
    (hnew : ∀ p ∈ dependents scenarios streamId, s.streams p.2 = {}) :
    initScenarioLoop streamId scenarios s = (s.openAll (dependents scenarios streamId), true) := by
  induction scenarios generalizing s with
  | nil => rfl
  | cons d scenarios ih =>
    rw [List.flatMap_cons] at hnodup
    obtain ⟨-, hrest, hdisjoint⟩ := List.nodup_append'.mp hnodup
    obtain ⟨hd, hid⟩ := List.forall_mem_cons.mp hid
    have hcons : dependents (d :: scenarios) streamId =
      opensAfter streamId d ++ dependents scenarios streamId := List.flatMap_cons
    rw [hcons] at hnew ⊢
    obtain ⟨hnewd, hnew⟩ := List.forall_mem_append.mp hnew
    rw [initScenarioLoop]
    by_cases hprevious : d.previousStreamId = streamId
    · have hopens : opensAfter streamId d = d.streamIds.map fun i => (d, i) := if_pos hprevious
      rw [hopens] at hnewd
      have hloop : initStreamLoop d (max 1 d.repeatCount) d.streamId s =
          (s.openAll (opensAfter streamId d), true) := by
        rw [hopens]
        exact initStreamLoop_eq hd fun i hi => hnewd (d, i) (List.mem_map_of_mem hi)
      -- the streams of `d` are none of the rest
      have hnew' : ∀ p ∈ dependents scenarios streamId,
          (s.openAll (opensAfter streamId d)).streams p.2 = {} := by
        intro p hp
        rw [openAll_streams_of_not_mem, hnew p hp]
        intro hmem
        rw [hopens, List.map_map] at hmem
        have hleft : p.2 ∈ d.streamIds := by simpa using hmem
        obtain ⟨hp1, -, hp2⟩ := mem_dependents.mp hp
        exact hdisjoint hleft (List.mem_flatMap.mpr ⟨p.1, hp1, hp2⟩)
      rw [if_pos hprevious, hloop]
      dsimp only
      rw [if_pos rfl, ih hrest hid hnew', openAll_append]
    · have hopens : opensAfter streamId d = [] := if_neg hprevious
      rw [if_neg hprevious, hopens, List.nil_append, ih hrest hid hnew]

/-- **New streams are opened.** -/
theorem initStreamsFromScenario_eq (h : Playable s.scenarios) {streamId : ℕ}
    (hnew : ∀ p ∈ dependents s.scenarios streamId, s.streams p.2 = {}) :
    s.initStreamsFromScenario streamId =
      (s.openAll (dependents s.scenarios streamId), true) :=
  initScenarioLoop_eq h.nodup h.bidir hnew

end QuicperfConnection

theorem Playable.eq_of_mem {scenarios : List QuicperfStreamDesc} (h : Playable scenarios)
    {d d' : QuicperfStreamDesc} (hd : d ∈ scenarios) (hd' : d' ∈ scenarios) {i : ℕ}
    (hi : i ∈ d.streamIds) (hi' : i ∈ d'.streamIds) : d = d' := by
  by_contra hne
  have hsymm : Std.Symm (Function.onFun List.Disjoint QuicperfStreamDesc.streamIds) :=
    ⟨fun _ _ hdisjoint _ hi hi' => hdisjoint hi' hi⟩
  have hdisjoint := (List.nodup_flatMap.mp h.nodup).2.forall hd hd' hne
  exact hdisjoint hi hi'

/-- Some stream waits for none. -/
theorem Rooted.exists_initial {scenarios : List QuicperfStreamDesc} {i : ℕ}
    (h : Rooted scenarios i) (hi : i ≠ quicperfStreamIdInitial) :
    ∃ d ∈ scenarios, d.previousStreamId = quicperfStreamIdInitial := by
  induction h with
  | initial => exact absurd rfl hi
  | @after d i hd hid h ih =>
    by_cases hprevious : d.previousStreamId = quicperfStreamIdInitial
    · exact ⟨d, hd, hprevious⟩
    · exact ih hprevious

theorem QuicperfStreamDesc.streamId_mem (d : QuicperfStreamDesc) : d.streamId ∈ d.streamIds := by
  rw [streamIds]
  exact List.mem_range'.mpr ⟨0, by omega, rfl⟩

/-- **Some stream is opened at the start.** -/
theorem Playable.dependents_initial_ne_nil {scenarios : List QuicperfStreamDesc}
    (h : Playable scenarios) :
    QuicperfConnection.dependents scenarios quicperfStreamIdInitial ≠ [] := by
  obtain ⟨d, hd⟩ := List.exists_mem_of_ne_nil _ h.ne_nil
  have hinitial : ∃ d ∈ scenarios, d.previousStreamId = quicperfStreamIdInitial := by
    by_cases hprevious : d.previousStreamId = quicperfStreamIdInitial
    · exact ⟨d, hd, hprevious⟩
    · exact (h.rooted d hd).exists_initial hprevious
  obtain ⟨d, hd, hprevious⟩ := hinitial
  exact List.ne_nil_of_mem (a := (d, d.streamId))
    (QuicperfConnection.mem_dependents.mpr ⟨hd, hprevious, d.streamId_mem⟩)

namespace QuicperfConnection

/-! ### The invariant -/

/-- A description may open its streams. -/
def Released (s : QuicperfConnection) (i : ℕ) : Prop :=
  i = quicperfStreamIdInitial ∨ (s.streams i).isComplete = true

/-- The streams that are opened and not complete. -/
def pending (s : QuicperfConnection) : List ℕ :=
  s.opened.filter fun i => !(s.streams i).isComplete

/-- The connection is open, with a context for each stream that is not complete. -/
structure Running (s : QuicperfConnection) : Prop where
  closed : s.closed = none
  tree : s.tree.Perm s.pending
  pending : s.opened ≠ [] → s.pending ≠ []

/-- The client has closed the connection without an error. -/
structure Finished (s : QuicperfConnection) : Prop where
  closed : s.closed = some (.close quicperfNoError)
  opened : s.opened ≠ []
  complete : s.pending = []

/-- The streams that are opened are those of the scenario, once each. -/
structure Opened (s : QuicperfConnection) : Prop where
  nodup : s.opened.Nodup
  scenario : ∀ i ∈ s.opened, ∃ d ∈ s.scenarios, i ∈ d.streamIds
  valid : ∀ d ∈ s.scenarios, ∀ i ∈ d.streamIds, i ∈ s.opened → (s.streams i).Valid d i
  new : ∀ i, i ∉ s.opened → s.streams i = {}

/-- **What every callback keeps.** -/
structure Inv (s : QuicperfConnection) : Prop extends s.Opened where
  mem_opened : s.opened ≠ [] → ∀ i, i ∈ s.opened ↔
    ∃ d ∈ s.scenarios, i ∈ d.streamIds ∧ s.Released d.previousStreamId
  count : s.nbOpenStreams = s.pending.length
  state : s.Running ∨ s.Finished

variable {s : QuicperfConnection}

theorem mem_pending {i : ℕ} : i ∈ s.pending ↔ i ∈ s.opened ∧ (s.streams i).isComplete = false := by
  rw [pending, List.mem_filter, Bool.not_eq_true']

theorem inv_start (scenarios : List QuicperfStreamDesc) : Inv (start scenarios) where
  nodup := List.nodup_nil
  scenario _ h := absurd h List.not_mem_nil
  valid _ _ _ _ h := absurd h List.not_mem_nil
  new _ _ := rfl
  mem_opened h := absurd rfl h
  count := rfl
  state := .inl ⟨rfl, List.Perm.refl _, fun h => absurd rfl h⟩

namespace Opened

variable (h : s.Opened)

include h

theorem exists_desc {i : ℕ} (hi : s.streams i ≠ {}) :
    i ∈ s.opened ∧ ∃ d ∈ s.scenarios, i ∈ d.streamIds ∧ (s.streams i).Valid d i := by
  have hopened : i ∈ s.opened := by
    by_contra hnot
    exact hi (h.new i hnot)
  obtain ⟨d, hd, hid⟩ := h.scenario i hopened
  exact ⟨hopened, d, hd, hid, h.valid d hd i hid hopened⟩

theorem setStream {i : ℕ} {d : QuicperfStreamDesc} (hplay : Playable s.scenarios)
    (hopened : i ∈ s.opened) (hd : d ∈ s.scenarios) (hid : i ∈ d.streamIds)
    {stream : PerfStream} (hvalid : stream.Valid d i) : (s.setStream i stream).Opened := by
  constructor
  case nodup => exact h.nodup
  case scenario => exact h.scenario
  case valid =>
    intro d' hd' j hj hjopened
    by_cases hji : j = i
    · subst hji
      obtain rfl := hplay.eq_of_mem hd hd' hid hj
      rw [setStream_streams_self]
      exact hvalid
    · rw [setStream_streams_of_ne hji]
      exact h.valid d' hd' j hj hjopened
  case new =>
    intro j hj
    have hji : j ≠ i := fun heq => hj (heq ▸ hopened)
    rw [setStream_streams_of_ne hji]
    exact h.new j hj

/-- **Streams are opened** that were not. -/
theorem openAll (hplay : Playable s.scenarios) {i : ℕ}
    (hnew : ∀ p ∈ dependents s.scenarios i, p.2 ∉ s.opened) :
    (s.openAll (dependents s.scenarios i)).Opened := by
  have hnodup : ((dependents s.scenarios i).map Prod.snd).Nodup :=
    (map_snd_dependents_sublist s.scenarios i).nodup hplay.nodup
  have hnew' : ∀ j ∈ (dependents s.scenarios i).map Prod.snd, j ∉ s.opened := by
    intro j hj
    obtain ⟨p, hp, rfl⟩ := List.mem_map.mp hj
    exact hnew p hp
  constructor
  case nodup =>
    rw [openAll_opened]
    refine List.nodup_append'.mpr ⟨h.nodup, hnodup, fun j hj hj' => hnew' j hj' hj⟩
  case scenario =>
    intro j hj
    rw [openAll_opened] at hj
    rw [openAll_scenarios]
    rcases List.mem_append.mp hj with hj | hj
    · exact h.scenario j hj
    · obtain ⟨p, hp, rfl⟩ := List.mem_map.mp hj
      obtain ⟨hd, -, hid⟩ := mem_dependents.mp hp
      exact ⟨p.1, hd, hid⟩
  case valid =>
    intro d hd j hj hjopened
    rw [openAll_scenarios] at hd
    rw [openAll_opened] at hjopened
    by_cases hmem : j ∈ (dependents s.scenarios i).map Prod.snd
    · obtain ⟨p, hp, rfl⟩ := List.mem_map.mp hmem
      obtain ⟨hpd, -, hid⟩ := mem_dependents.mp hp
      obtain rfl := hplay.eq_of_mem hd hpd hj hid
      rw [openAll_streams_of_mem hnodup hp]
      exact PerfStream.valid_opened p.1 p.2
    · rw [openAll_streams_of_not_mem hmem]
      exact h.valid d hd j hj ((List.mem_append.mp hjopened).resolve_right hmem)
  case new =>
    intro j hj
    rw [openAll_opened] at hj
    obtain ⟨hold, hmem⟩ := not_or.mp (List.mem_append.not.mp hj)
    rw [openAll_streams_of_not_mem hmem]
    exact h.new j hold

end Opened

/-- A stream that is opened is not complete. -/
theorem pending_openAll (hplay : Playable s.scenarios) {i : ℕ}
    (hnew : ∀ p ∈ dependents s.scenarios i, p.2 ∉ s.opened) :
    (s.openAll (dependents s.scenarios i)).pending =
      s.pending ++ (dependents s.scenarios i).map Prod.snd := by
  have hnodup : ((dependents s.scenarios i).map Prod.snd).Nodup :=
    (map_snd_dependents_sublist s.scenarios i).nodup hplay.nodup
  rw [pending, openAll_opened, List.filter_append]
  congr 1
  · refine List.filter_congr fun j hj => ?_
    rw [openAll_streams_of_not_mem]
    intro hmem
    obtain ⟨p, hp, rfl⟩ := List.mem_map.mp hmem
    exact hnew p hp hj
  · refine List.filter_eq_self.mpr fun j hj => ?_
    obtain ⟨p, hp, rfl⟩ := List.mem_map.mp hj
    rw [openAll_streams_of_mem hnodup hp]
    rfl

/-- Opening streams releases none. -/
theorem released_openAll (hplay : Playable s.scenarios) {i : ℕ} (h : s.Opened)
    (hnew : ∀ p ∈ dependents s.scenarios i, p.2 ∉ s.opened) (j : ℕ) :
    (s.openAll (dependents s.scenarios i)).Released j ↔ s.Released j := by
  have hnodup : ((dependents s.scenarios i).map Prod.snd).Nodup :=
    (map_snd_dependents_sublist s.scenarios i).nodup hplay.nodup
  rw [Released, Released]
  by_cases hmem : j ∈ (dependents s.scenarios i).map Prod.snd
  · obtain ⟨p, hp, rfl⟩ := List.mem_map.mp hmem
    rw [openAll_streams_of_mem hnodup hp, h.new p.2 (hnew p hp)]
    exact Iff.rfl
  · rw [openAll_streams_of_not_mem hmem]

/-! ### Callbacks -/

namespace Inv

variable (h : s.Inv)

include h

section

variable (hplay : Playable s.scenarios)

include hplay

/-- **A callback that completes no stream.** -/
theorem setStream {i : ℕ} {d : QuicperfStreamDesc}
    (hopened : i ∈ s.opened) (hd : d ∈ s.scenarios) (hid : i ∈ d.streamIds)
    {stream : PerfStream} (hvalid : stream.Valid d i)
    (hcomplete : stream.isComplete = (s.streams i).isComplete) : (s.setStream i stream).Inv := by
  have hsame (j : ℕ) :
      ((s.setStream i stream).streams j).isComplete = (s.streams j).isComplete := by
    by_cases hj : j = i
    · subst hj
      rw [setStream_streams_self, hcomplete]
    · rw [setStream_streams_of_ne hj]
  have hpending : (s.setStream i stream).pending = s.pending :=
    List.filter_congr fun j _ => congrArg _ (hsame j)
  refine { h.toOpened.setStream hplay hopened hd hid hvalid with
    mem_opened := ?_, count := ?_, state := ?_ }
  · intro hne j
    simp only [Released, hsame]
    exact h.mem_opened hne j
  · rw [hpending]
    exact h.count
  · rcases h.state with hrun | hfin
    · refine .inl ⟨hrun.closed, ?_, ?_⟩
      · rw [hpending]
        exact hrun.tree
      · rw [hpending]
        exact hrun.pending
    · refine .inr ⟨hfin.closed, hfin.opened, ?_⟩
      rw [hpending]
      exact hfin.complete

/-- **The connection starts.** The second time nothing is done. -/
theorem ready (hopen : s.closed = none) : s.ready.Inv := by
  rw [QuicperfConnection.ready]
  split_ifs with htree
  · have hrun : s.Running := by
      refine h.state.resolve_right fun hfin => ?_
      rw [hfin.closed] at hopen
      exact absurd hopen (by simp)
    have hpending : s.pending = [] := List.nil_perm.mp (htree ▸ hrun.tree)
    have hnone : s.opened = [] := by
      by_contra hne
      exact hrun.pending hne hpending
    have hnew : ∀ p ∈ dependents s.scenarios quicperfStreamIdInitial, p.2 ∉ s.opened := by
      intro p _
      rw [hnone]
      exact List.not_mem_nil
    have hne : (dependents s.scenarios quicperfStreamIdInitial).map Prod.snd ≠ [] := fun hnil =>
      hplay.dependents_initial_ne_nil (List.map_eq_nil_iff.mp hnil)
    have hcount : (s.openAll (dependents s.scenarios quicperfStreamIdInitial)).nbOpenStreams =
        ((dependents s.scenarios quicperfStreamIdInitial).map Prod.snd).length := by
      rw [openAll_nbOpenStreams, h.count, hpending, List.length_map, List.length_nil, Nat.zero_add]
    have hopened := pending_openAll hplay hnew
    rw [hpending, List.nil_append] at hopened
    have hzero :
        ¬(s.openAll (dependents s.scenarios quicperfStreamIdInitial)).nbOpenStreams = 0 := by
      rw [hcount]
      exact fun hlength => hne (List.length_eq_zero_iff.mp hlength)
    rw [initStreamsFromScenario_eq hplay fun p hp => h.new _ (hnew p hp)]
    dsimp only
    rw [if_neg (by simpa using hzero)]
    refine { h.toOpened.openAll hplay hnew with mem_opened := ?_, count := ?_, state := ?_ }
    · intro _ j
      have hinitial (k : ℕ) : s.Released k ↔ k = quicperfStreamIdInitial := by
        rw [Released, h.new k (by rw [hnone]; exact List.not_mem_nil)]
        simp [PerfStream.isComplete]
      simp only [released_openAll hplay h.toOpened hnew, hinitial]
      rw [openAll_opened, openAll_scenarios, hnone, List.nil_append, List.mem_map]
      constructor
      · rintro ⟨p, hp, rfl⟩
        obtain ⟨hd, hprevious, hid⟩ := mem_dependents.mp hp
        exact ⟨p.1, hd, hid, hprevious⟩
      · rintro ⟨d, hd, hid, hprevious⟩
        exact ⟨(d, j), mem_dependents.mpr ⟨hd, hprevious, hid⟩, rfl⟩
    · rw [hcount, hopened]
    · refine .inl ⟨?_, ?_, fun _ => ?_⟩
      · rw [openAll_closed, hopen]
      · have hperm := s.openAll_tree (dependents s.scenarios quicperfStreamIdInitial)
        rw [htree, List.nil_append] at hperm
        rw [hopened]
        exact hperm
      · rw [hopened]
        exact hne
  · exact h

/-- **A stream is complete**: those that wait for it are opened, and if there is none the
connection is closed. -/
theorem complete (hopen : s.closed = none) {i : ℕ}
    (hi : i ∈ s.opened) (hbefore : (s.streams i).isComplete = false) {t : QuicperfConnection}
    (ht : t.Opened) (hscenarios : t.scenarios = s.scenarios) (hopened : t.opened = s.opened)
    (hclosed : t.closed = none) (htree : t.tree = s.tree)
    (hcount : t.nbOpenStreams = s.nbOpenStreams - 1) (hnow : (t.streams i).isComplete = true)
    (hother : ∀ j, j ≠ i → t.streams j = s.streams j) :
    (∀ p ∈ dependents t.scenarios i, p.2 ∉ t.opened) ∧
      (if (t.openAll (dependents t.scenarios i)).nbOpenStreams = 0 then
        (t.openAll (dependents t.scenarios i)).fault (.close quicperfNoError)
      else { t.openAll (dependents t.scenarios i) with
        tree := (t.openAll (dependents t.scenarios i)).tree.erase i }).Inv := by
  have hplay' : Playable t.scenarios := hscenarios ▸ hplay
  have hrun : s.Running := by
    refine h.state.resolve_right fun hfin => ?_
    rw [hfin.closed] at hopen
    exact absurd hopen (by simp)
  have hlt : i < 2 ^ 62 := by
    obtain ⟨d, hd, hid⟩ := h.scenario i hi
    exact (hplay.bidir d hd i hid).2
  have hnotInitial : i ≠ quicperfStreamIdInitial := by
    rintro rfl
    exact absurd hlt (by decide)
  -- streams that wait for `i` are not open yet, as `i` was not complete
  have hnew : ∀ p ∈ dependents t.scenarios i, p.2 ∉ t.opened := by
    intro p hp hmem
    rw [hopened] at hmem
    rw [hscenarios] at hp
    obtain ⟨hd, hprevious, hid⟩ := mem_dependents.mp hp
    obtain ⟨d', hd', hid', hreleased⟩ :=
      (h.mem_opened (List.ne_nil_of_mem hmem) p.2).mp hmem
    obtain rfl := hplay.eq_of_mem hd hd' hid hid'
    rw [hprevious] at hreleased
    rcases hreleased with hinitial | hcomplete
    · exact hnotInitial hinitial
    · exact Bool.false_ne_true (hbefore.symm.trans hcomplete)
  have hmem : i ∈ s.pending := mem_pending.mpr ⟨hi, hbefore⟩
  -- only `i` is not pending any more
  have hpending : t.pending = s.pending.erase i := by
    have herase : s.pending.erase i = s.pending.filter (· != i) :=
      (h.nodup.filter _).erase_eq_filter i
    rw [herase, pending, pending, hopened, List.filter_filter]
    refine List.filter_congr fun j _ => ?_
    by_cases hj : j = i
    · subst hj
      simp [hnow]
    · simp [hother j hj, hj]
  have hall := pending_openAll hplay' hnew
  have hlength : (t.openAll (dependents t.scenarios i)).nbOpenStreams =
      (t.openAll (dependents t.scenarios i)).pending.length := by
    rw [openAll_nbOpenStreams, hall, hpending, List.length_append, List.length_map,
      List.length_erase_of_mem hmem, hcount, h.count]
  have hreleased (j : ℕ) :
      (t.openAll (dependents t.scenarios i)).Released j ↔ s.Released j ∨ j = i := by
    rw [released_openAll hplay' ht hnew, Released, Released]
    by_cases hj : j = i
    · subst hj
      exact iff_of_true (.inr hnow) (.inr rfl)
    · rw [hother j hj]
      exact ⟨.inl, fun hor => hor.resolve_right hj⟩
  -- `i` releases the streams that wait for it, and these are opened
  have hmemOpened (j : ℕ) : j ∈ (t.openAll (dependents t.scenarios i)).opened ↔
      ∃ d ∈ (t.openAll (dependents t.scenarios i)).scenarios, j ∈ d.streamIds ∧
        (t.openAll (dependents t.scenarios i)).Released d.previousStreamId := by
    have hbefore := h.mem_opened (List.ne_nil_of_mem hi) j
    simp only [hreleased]
    rw [openAll_scenarios, openAll_opened, List.mem_append, hopened, hbefore, hscenarios,
      List.mem_map]
    constructor
    · rintro (⟨d, hd, hid, hreleased⟩ | ⟨p, hp, rfl⟩)
      · exact ⟨d, hd, hid, .inl hreleased⟩
      · obtain ⟨hd, hprevious, hid⟩ := mem_dependents.mp hp
        exact ⟨p.1, hd, hid, .inr hprevious⟩
    · rintro ⟨d, hd, hid, hreleased | hprevious⟩
      · exact .inl ⟨d, hd, hid, hreleased⟩
      · exact .inr ⟨(d, j), mem_dependents.mpr ⟨hd, hprevious, hid⟩, rfl⟩
  have hafter := ht.openAll hplay' hnew
  have hopen' : (t.openAll (dependents t.scenarios i)).closed = none := by
    rw [openAll_closed, hclosed]
  refine ⟨hnew, ?_⟩
  split_ifs with hzero
  · -- nothing is pending: the connection is closed
    rw [fault, if_pos hopen']
    refine ⟨⟨hafter.nodup, hafter.scenario, hafter.valid, hafter.new⟩, fun _ j => hmemOpened j,
      hlength, .inr ⟨rfl, ?_, ?_⟩⟩
    · have hmem' : i ∈ (t.openAll (dependents t.scenarios i)).opened := by
        rw [openAll_opened, hopened]
        exact List.mem_append_left _ hi
      exact List.ne_nil_of_mem hmem'
    · exact List.length_eq_zero_iff.mp (hlength.symm.trans hzero)
  · refine ⟨⟨hafter.nodup, hafter.scenario, hafter.valid, hafter.new⟩, fun _ j => hmemOpened j,
      hlength, .inl ⟨hopen', ?_, fun _ hnil => ?_⟩⟩
    · -- the tree holds what is pending
      have hperm := (openAll_tree (s := t) (dependents t.scenarios i)).erase i
      have hpart : ((t.tree ++ (dependents t.scenarios i).map Prod.snd).erase i).Perm
          (t.openAll (dependents t.scenarios i)).pending := by
        rw [hall, hpending, htree, List.erase_append_left _ (hrun.tree.mem_iff.mpr hmem)]
        exact (hrun.tree.erase i).append_right _
      exact hperm.trans hpart
    · exact hzero (hlength.trans (List.length_eq_zero_iff.mpr hnil))

/-- **The response arrives.** -/
theorem processResponse (hopen : s.closed = none) {i n : ℕ}
    {isFin : Bool} (hstop : (s.streams i).isStopRequested = false)
    (hdeliver : (s.streams i).response.CanDeliver n isFin) : (s.processResponse i n isFin).Inv := by
  have hne : s.streams i ≠ {} := by
    intro hnew
    rw [hnew] at hdeliver
    exact Flow.not_canDeliver_new hdeliver
  obtain ⟨hopened, d, hd, hid, hvalid⟩ := h.exists_desc hne
  have hbefore : (s.streams i).isComplete = false := by
    rw [PerfStream.isComplete, hdeliver.1, hstop]
    rfl
  obtain ⟨c, r, hc, hclosed, hcid, hr, hclose, hvalid', hcomplete, -⟩ :=
    hvalid.receive hdeliver hstop
  rw [QuicperfConnection.processResponse, hc]
  dsimp only
  rw [hclosed, if_neg Bool.false_ne_true, hr, hclose, closeFor_none]
  cases hdone : r.ctx.isClosed with
  | false =>
    rw [if_neg Bool.false_ne_true]
    exact h.setStream hplay hopened hd hid hvalid' (hcomplete.trans (hdone.trans hbefore.symm))
  | true =>
    rw [if_pos rfl, hcid]
    obtain ⟨t, ht⟩ : ∃ t, t = { s.setStream i ((s.streams i).receive n isFin r) with
      nbOpenStreams := (s.setStream i ((s.streams i).receive n isFin r)).nbOpenStreams - 1 } :=
      ⟨_, rfl⟩
    have hset := h.toOpened.setStream hplay hopened hd hid hvalid'
    have htOpened : t.Opened := ht ▸ ⟨hset.nodup, hset.scenario, hset.valid, hset.new⟩
    have hself : t.streams i = (s.streams i).receive n isFin r := by
      rw [ht]
      exact setStream_streams_self i _
    have hother (j : ℕ) (hj : j ≠ i) : t.streams j = s.streams j := by
      rw [ht]
      exact setStream_streams_of_ne hj _
    obtain ⟨hnew, hinv⟩ := h.complete hplay hopen hopened hbefore htOpened (by rw [ht]; rfl)
      (by rw [ht]; rfl) (by rw [ht]; exact hopen) (by rw [ht]; rfl) (by rw [ht]; rfl)
      (by rw [hself, hcomplete, hdone]) hother
    have hinit := initStreamsFromScenario_eq (s := t) (by rw [ht]; exact hplay)
      fun p hp => htOpened.new p.2 (hnew p hp)
    subst ht
    dsimp only at hinit hinv
    rw [hinit]
    dsimp only
    rw [@if_pos (true = true) _ rfl]
    exact hinv

/-- **A callback that concerns one stream.** -/
theorem setResult {i : ℕ} {r : Except Fault PerfStream}
    (hne : s.streams i ≠ {})
    (hr : ∀ d ∈ s.scenarios, i ∈ d.streamIds → (s.streams i).Valid d i →
      ∃ stream, r = .ok stream ∧ stream.Valid d i ∧
        stream.isComplete = (s.streams i).isComplete) : (s.setResult i r).Inv := by
  obtain ⟨hopened, d, hd, hid, hvalid⟩ := h.exists_desc hne
  obtain ⟨stream, rfl, hvalid', hcomplete⟩ := hr d hd hid hvalid
  exact h.setStream hplay hopened hd hid hvalid' hcomplete

/-- **Step.** -/
theorem step (e : QuicperfEvent) : (s.step e).Inv := by
  rw [QuicperfConnection.step]
  split_ifs with hcan
  · obtain ⟨hopen, hcan⟩ := hcan
    cases e with
    | ready => exact h.ready hplay hopen
    | pollPost i length =>
      refine h.setResult hplay (fun hnew => ?_) fun d hd _ hvalid =>
        hvalid.preparePost (hplay.sized d hd) hcan
      rw [CanTake, hnew] at hcan
      exact Bool.false_ne_true hcan.1
    | deliverPost i n isFin =>
      refine h.setResult hplay (fun hnew => ?_) fun d hd _ hvalid =>
        hvalid.processPost (hplay.sized d hd) hcan
      rw [CanTake, hnew] at hcan
      exact Flow.not_canDeliver_new hcan
    | pollResponse i length =>
      refine h.setResult hplay (fun hnew => ?_) fun d hd _ hvalid =>
        hvalid.prepareResponse (hplay.sized d hd) hcan
      rw [CanTake, hnew] at hcan
      exact Bool.false_ne_true hcan.1
    | deliverResponse i n isFin => exact h.processResponse hplay hopen hcan.1 hcan.2
    | deliverStop i =>
      refine h.setResult hplay (fun hnew => ?_) fun d _ _ hvalid =>
        ⟨_, rfl, hvalid.processStopSending hcan, rfl⟩
      rw [CanTake, hnew] at hcan
      exact Bool.false_ne_true hcan
  · exact h

end

end Inv

/-- **Run.** -/
theorem inv_run {scenarios : List QuicperfStreamDesc} (hplay : Playable scenarios)
    (evs : List QuicperfEvent) :
    (Runs.run step (start scenarios) evs).scenarios = scenarios ∧
      (Runs.run step (start scenarios) evs).Inv := by
  have hstart : (start scenarios).scenarios = scenarios ∧ (start scenarios).Inv :=
    ⟨rfl, inv_start scenarios⟩
  refine Runs.run_invariant (I := fun s : QuicperfConnection => s.scenarios = scenarios ∧ s.Inv)
    ?_ hstart evs
  rintro s e ⟨hscenarios, hinv⟩
  exact ⟨(step_scenarios e).trans hscenarios, hinv.step (hscenarios ▸ hplay) e⟩

/-! ### Complete runs -/

end QuicperfConnection

/-- No more than `n` bytes are written, and exactly `n` before the end. -/
def Flow.Sends (f : Flow) (n : ℕ) : Prop :=
  f.bytes.length ≤ n ∧ (f.isFin = true → f.bytes.length = n)

/-- Both ends are done with the flow. -/
def Flow.IsOver (f : Flow) : Prop :=
  f.isFin = true ∧ f.isFinRead = true ∧ f.read = f.bytes.length

/-- A complete stream was read to its end, in both directions if the response is finite. -/
theorem PerfStream.Valid.isOver {d : QuicperfStreamDesc} {i : ℕ} {stream : PerfStream}
    (h : stream.Valid d i) (hcomplete : stream.isComplete = true) :
    stream.post.IsOver ∧ (d.isInfinite = false → stream.response.IsOver) := by
  have hread := h.isFinRead_of_isComplete hcomplete
  refine ⟨⟨(h.post_finRead hread).1, hread, (h.post_finRead hread).2⟩, fun hfinite => ?_⟩
  have hresponse : stream.response.isFinRead = true := by
    refine (Bool.or_eq_true_iff.mp hcomplete).resolve_right fun hstop => ?_
    exact Bool.false_ne_true (hfinite.symm.trans (h.stop hstop).1)
  exact ⟨(h.response_finRead hresponse).1, hresponse, (h.response_finRead hresponse).2⟩

namespace QuicperfConnection

variable {s : QuicperfConnection}

/-- **Client and server agree.** -/
structure Agrees (s : QuicperfConnection) : Prop where
  /-- A stream is opened once, under an identifier of its own. -/
  opensOnce : s.opened.Nodup
  /-- A stream is opened for a description, behind the stream that this one names. -/
  opensAfter : ∀ i ∈ s.opened, ∃ d ∈ s.scenarios, i ∈ d.streamIds ∧ s.Released d.previousStreamId
  /-- The count is that of the streams that are opened and not complete. -/
  counts : s.nbOpenStreams = s.pending.length
  /-- The client sends the post. -/
  posts : ∀ d ∈ s.scenarios, ∀ i ∈ d.streamIds, (s.streams i).post.Sends d.postSize
  /-- The server sends the response, if it is finite. -/
  responds : ∀ d ∈ s.scenarios, ∀ i ∈ d.streamIds, d.isInfinite = false →
    (s.streams i).response.Sends d.responseSize
  /-- A stream that is complete was posted, and answered if the response is finite. -/
  completes : ∀ d ∈ s.scenarios, ∀ i ∈ d.streamIds, (s.streams i).isComplete = true →
    (s.streams i).post.IsOver ∧ (d.isInfinite = false → (s.streams i).response.IsOver)
  /-- The connection is closed exactly when all streams of the scenario are complete. -/
  closes : s.closed = some (.close quicperfNoError) ↔
    ∀ d ∈ s.scenarios, ∀ i ∈ d.streamIds, i ∈ s.opened ∧ (s.streams i).isComplete = true
  /-- There is no other end. -/
  noFault : s.closed = none ∨ s.closed = some (.close quicperfNoError)

namespace Inv

variable (h : s.Inv)

include h

/-- When no stream is pending, all streams of the scenario are complete. -/
theorem complete_of_pending_eq_nil (hplay : Playable s.scenarios) (hopened : s.opened ≠ [])
    (hpending : s.pending = []) :
    ∀ d ∈ s.scenarios, ∀ i ∈ d.streamIds, i ∈ s.opened ∧ (s.streams i).isComplete = true := by
  have hcomplete : ∀ i ∈ s.opened, (s.streams i).isComplete = true := by
    intro i hi
    by_contra hnot
    have hmem := mem_pending.mpr ⟨hi, Bool.eq_false_iff.mpr hnot⟩
    rw [hpending] at hmem
    exact List.not_mem_nil hmem
  -- a stream is released behind those it waits for, from the start on
  have hreleased (i : ℕ) (hroot : Rooted s.scenarios i) : s.Released i := by
    induction hroot with
    | initial => exact .inl rfl
    | after hd hid _ ih =>
      exact .inr (hcomplete _ ((h.mem_opened hopened _).mpr ⟨_, hd, hid, ih⟩))
  intro d hd i hi
  have hmem := (h.mem_opened hopened i).mpr ⟨d, hd, hi, hreleased _ (hplay.rooted d hd)⟩
  exact ⟨hmem, hcomplete i hmem⟩

/-- **The invariant gives the law.** -/
theorem agrees (hplay : Playable s.scenarios) : s.Agrees := by
  have hnew {i : ℕ} (hi : i ∉ s.opened) : s.streams i = {} := h.new i hi
  constructor
  case opensOnce => exact h.nodup
  case opensAfter => exact fun i hi => (h.mem_opened (List.ne_nil_of_mem hi) i).mp hi
  case counts => exact h.count
  case posts =>
    intro d hd i hi
    by_cases hopened : i ∈ s.opened
    · exact ⟨(h.valid d hd i hi hopened).post_le, (h.valid d hd i hi hopened).post_fin⟩
    · rw [hnew hopened]
      exact ⟨Nat.zero_le _, fun hfin => absurd hfin Bool.false_ne_true⟩
  case responds =>
    intro d hd i hi hfinite
    have hannounced : d.announced = d.responseSize := by
      rw [QuicperfStreamDesc.announced, hfinite]
      rfl
    by_cases hopened : i ∈ s.opened
    · have hvalid := h.valid d hd i hi hopened
      refine ⟨hannounced ▸ hvalid.response_le, fun hfin => ?_⟩
      rw [← hannounced]
      refine (hvalid.response_fin hfin).resolve_left fun hstop => ?_
      exact Bool.false_ne_true (hfinite.symm.trans (hvalid.stop hstop).1)
    · rw [hnew hopened]
      exact ⟨Nat.zero_le _, fun hfin => absurd hfin Bool.false_ne_true⟩
  case completes =>
    intro d hd i hi hcomplete
    by_cases hopened : i ∈ s.opened
    · exact (h.valid d hd i hi hopened).isOver hcomplete
    · rw [hnew hopened] at hcomplete
      exact absurd hcomplete Bool.false_ne_true
  case closes =>
    constructor
    · intro hclosed
      rcases h.state with hrun | hfin
      · rw [hrun.closed] at hclosed
        exact absurd hclosed (by simp)
      · exact h.complete_of_pending_eq_nil hplay hfin.opened hfin.complete
    · intro hall
      rcases h.state with hrun | hfin
      · obtain ⟨d, hd⟩ := List.exists_mem_of_ne_nil _ hplay.ne_nil
        have hopened := List.ne_nil_of_mem (hall d hd d.streamId d.streamId_mem).1
        obtain ⟨i, hi⟩ := List.exists_mem_of_ne_nil _ (hrun.pending hopened)
        obtain ⟨hi, hnot⟩ := mem_pending.mp hi
        obtain ⟨d', hd', hid⟩ := h.scenario i hi
        exact absurd (hnot.symm.trans (hall d' hd' i hid).2) Bool.false_ne_true
      · exact hfin.closed
  case noFault => exact h.state.imp Running.closed Finished.closed

end Inv

/-- **Client and server agree**, in every run of a scenario that can be played. -/
theorem agrees_run {scenarios : List QuicperfStreamDesc} (hplay : Playable scenarios)
    (evs : List QuicperfEvent) :
    (Runs.run step (start scenarios) evs).scenarios = scenarios ∧
      (Runs.run step (start scenarios) evs).Agrees := by
  obtain ⟨hscenarios, hinv⟩ := inv_run hplay evs
  refine ⟨hscenarios, hinv.agrees ?_⟩
  rw [hscenarios]
  exact hplay

/-- Eight bytes for one, on a stream of its own. -/
def oneStream : QuicperfStreamDesc := ⟨1, 0, quicperfStreamIdInitial, 8, 1, false⟩

theorem agrees_run_oneStream : (Runs.run step (start [oneStream]) [.ready, .pollPost 0 9]).Agrees :=
  (agrees_run
    { ne_nil := List.cons_ne_nil _ _
      nodup := by decide
      bidir := by decide
      sized := fun d hd => by
        obtain rfl := List.mem_singleton.mp hd
        exact ⟨by decide, by decide, by decide⟩
      rooted := fun d hd => by
        obtain rfl := List.mem_singleton.mp hd
        exact .initial }
    [.ready, .pollPost 0 9]).2

/-- The two streams of the first description are 0 and 4, and by default the second has stream 4
again. -/
theorem stream_opened_twice :
    ∃ r, quicperfParseScenarioDesc "*2:-:-:8:1;-:-:8:1".toList = r ∧ r.isOk = true ∧
      ¬(Runs.run step (start r.desc) [.ready, .pollPost 0 9, .deliverPost 0 8 true,
        .pollResponse 0 2, .deliverResponse 0 1 true]).Agrees := by
  let eight : NumberText := ⟨false, Digits.ofList ['8'] rfl, .inr (List.cons_ne_nil _ _)⟩
  let twice : RepeatText := ⟨Digits.ofList ['2'] rfl, List.cons_ne_nil _ _, bareColon⟩
  let first : DescText := { postDesc eight with repeatCount := some twice }
  let ys := [first, postDesc eight]
  have hys : ScenarioText "*2:-:-:8:1;-:-:8:1".toList ys := .cons first (.last (postDesc eight))
  have hacc : ∀ y ∈ ys, y.Accepted := by
    intro y hy
    rcases List.mem_pair.mp hy with rfl | rfl
    · decide
    · decide
  refine ⟨_, hys.parse_of_accepted hacc, rfl, fun hagrees => ?_⟩
  exact absurd hagrees.opensOnce (by decide)

end QuicperfConnection

end Picoquic
