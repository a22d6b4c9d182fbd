import Picoquic.ForMathlib.Keyed
import Picoquic.Store.Record

/-!
# The ticket store

A client keeps the session tickets that servers gave it, the last one first. A ticket that is
stored replaces those for the same name, protocol and version that expire no later. A ticket is
retrieved with or without the mark that it was used, and the mark is overwritten either way.

* **`storeTicket`**, **`getStoredTicket`**, **`getTicketAndVersion`** — the functions of the store;
* **`TicketStore.step`** — a call, in a store that remembers which tickets were handed out to
  callers that marked them;
* **`TicketStore.Sound`** — the tickets for the same purpose are ordered by their expiry;
* **`StoredTicket.Answers`** — what a ticket that is retrieved must be;
* **`ticket_discipline`** — order and retrieval are right in every run, and each ticket is used
  once exactly in the runs in which no used ticket is retrieved without the mark.

Memory for tickets is available.
-/

namespace Picoquic

open Keyed Runs

/-! ### Tickets -/

/-- `picoquic_stored_ticket_t`. The lengths are those of the bytes. -/
structure StoredTicket where
  timeValidUntil : ℕ
  sni : List UInt8
  alpn : List UInt8
  version : ℕ
  ipAddr : List UInt8
  ipAddrClient : List UInt8
  tp0rtt : List.Vector ℕ 10
  ticket : List UInt8
  wasUsed : Bool

/-- The transport parameters that a ticket remembers, in the order of `picoquic_tp_0rtt_enum`. The
last four are values of a path. -/
def tp0rttOf : Option Tp → List.Vector ℕ 10
  | none => List.Vector.replicate 10 0
  | some tp =>
    ⟨[tp.initialMaxData, tp.initialMaxStreamDataBidiLocal, tp.initialMaxStreamDataBidiRemote,
      tp.initialMaxStreamDataUni, tp.initialMaxStreamIdBidir, tp.initialMaxStreamIdUnidir,
      0, 0, 0, 0], rfl⟩

/-- `picoquic_format_ticket`. Where there is no client address, the length of the other address is
cleared. A null address has no bytes. -/
def formatTicket (timeValidUntil : ℕ) (sni alpn : List UInt8) (version : ℕ)
    (ipAddr ipAddrClient ticket : List UInt8) (tp : Option Tp) : StoredTicket where
  timeValidUntil := timeValidUntil
  sni := sni
  alpn := alpn
  version := version
  ipAddr := if ipAddrClient.length = 0 then [] else ipAddr.take storedIpMax
  ipAddrClient := ipAddrClient.take storedIpMax
  tp0rtt := tp0rttOf tp
  ticket := ticket
  wasUsed := false

/-- `PICOPARSE_32`. -/
def parse32At (bytes : List UInt8) : ℕ :=
  parse32 (bytes.getD 0 0) (bytes.getD 1 0) (bytes.getD 2 0) (bytes.getD 3 0)

/-- The time until which a ticket is valid: seven days after it was issued, or earlier. -/
def ticketValidUntil (ticket : List UInt8) : ℕ :=
  let ttlSeconds := parse32At (ticket.drop 13)
  let ttlSeconds := if 7 * 24 * 3600 < ttlSeconds then 7 * 24 * 3600 else ttlSeconds
  u64 (parse64 ticket * 1000 + ttlSeconds * 1000000)

/-- A ticket at its address. -/
structure TicketNode where
  address : ℕ
  ticket : StoredTicket

/-- The arguments of `picoquic_store_ticket`. -/
structure StoreTicketArgs where
  currentTime : ℕ
  sni : List UInt8
  alpn : List UInt8
  version : ℕ
  ipAddr : List UInt8
  ipAddrClient : List UInt8
  ticket : List UInt8
  tp : Option Tp

/-- Tickets for the same name, protocol and version. -/
def StoredTicket.SameKey (t t' : StoredTicket) : Prop :=
  t.sni = t'.sni ∧ t.alpn = t'.alpn ∧ t.version = t'.version

instance (t t' : StoredTicket) : Decidable (t.SameKey t') := inferInstanceAs (Decidable (_ ∧ _))

/-- `picoquic_store_ticket`, where the ticket is allocated at `address`. -/
def storeTicket (firstTicket : List TicketNode) (address : ℕ) (x : StoreTicketArgs) :
    Except StoreError (List TicketNode) :=
  if x.ticket.length < 17 then .error .invalidTicket
  else if x.currentTime ≠ 0 ∧ ticketValidUntil x.ticket < x.currentTime then .error .invalidTicket
  else
    let stored := formatTicket (ticketValidUntil x.ticket) x.sni x.alpn x.version x.ipAddr
      x.ipAddrClient x.ticket x.tp
    .ok (storeFirst (fun next => next.ticket.timeValidUntil ≤ stored.timeValidUntil &&
      next.ticket.SameKey stored) ⟨address, stored⟩ firstTicket)

/-- What a ticket is asked for. The version 0 stands for any version. -/
structure TicketRequest where
  currentTime : ℕ
  sni : List UInt8
  alpn : List UInt8
  version : ℕ

/-- A ticket is not expired, and for the name, protocol and version of the request. -/
def StoredTicket.Answers (t : StoredTicket) (x : TicketRequest) : Prop :=
  x.currentTime < t.timeValidUntil ∧ t.sni = x.sni ∧ t.alpn = x.alpn ∧
    (x.version = 0 ∨ t.version = x.version)

instance (t : StoredTicket) (x : TicketRequest) : Decidable (t.Answers x) :=
  inferInstanceAs (Decidable (_ ∧ _))

/-- The ticket is one that `picoquic_get_stored_ticket` stops at. -/
def StoredTicket.isFound (t : StoredTicket) (x : TicketRequest) (needUnused : Bool)
    (ticketId : ℕ) : Bool :=
  t.Answers x && (!needUnused || !t.wasUsed) &&
    (ticketId = 0 || (if t.ticket.length < 8 then 0 else parse64 t.ticket) = ticketId)

/-- `picoquic_get_stored_ticket`. -/
def getStoredTicket (firstTicket : List TicketNode) (x : TicketRequest) (needUnused : Bool)
    (ticketId : ℕ) : Option TicketNode :=
  firstTicket.find? fun next => next.ticket.isFound x needUnused ticketId

/-- `picoquic_get_ticket_and_version`, and `picoquic_get_ticket`: the list, and the ticket whose
bytes, version and parameters the caller gets. -/
def getTicketAndVersion (firstTicket : List TicketNode) (x : TicketRequest) (markUsed : Bool) :
    List TicketNode × Option TicketNode :=
  match getStoredTicket firstTicket x markUsed 0 with
  | none => (firstTicket, none)
  | some next =>
    (put TicketNode.address ⟨next.address, { next.ticket with wasUsed := markUsed }⟩ firstTicket,
      some next)

/-! ### Runs -/

/-- A call of a function of the store. -/
inductive TicketCall
  | store (x : StoreTicketArgs)
  | getStored (x : TicketRequest) (needUnused : Bool) (ticketId : ℕ)
  | getTicket (x : TicketRequest) (markUsed : Bool)

/-- The store. Each ticket is allocated at a new address. The tickets that were handed out to
callers that marked them are remembered. -/
structure TicketStore where
  firstTicket : List TicketNode
  nextAddress : ℕ
  taken : List ℕ

namespace TicketStore

/-- The store is empty. -/
def init : TicketStore := ⟨[], 0, []⟩

/-- The ticket that a call returns. -/
def returned (s : TicketStore) : TicketCall → Option TicketNode
  | .store _ => none
  | .getStored x needUnused ticketId => getStoredTicket s.firstTicket x needUnused ticketId
  | .getTicket x markUsed => (getTicketAndVersion s.firstTicket x markUsed).2

/-- A call. -/
def step (s : TicketStore) : TicketCall → TicketStore
  | .store x =>
    match storeTicket s.firstTicket s.nextAddress x with
    | .error _ => s
    | .ok firstTicket => { s with firstTicket := firstTicket, nextAddress := s.nextAddress + 1 }
  | .getStored _ _ _ => s
  | .getTicket x markUsed =>
    let (firstTicket, next) := getTicketAndVersion s.firstTicket x markUsed
    { s with
      firstTicket := firstTicket
      taken := if markUsed then (next.map TicketNode.address).toList ++ s.taken else s.taken }

end TicketStore

/-- The caller asks for an unused ticket. -/
def TicketCall.AsksUnused : TicketCall → Prop
  | .store _ => False
  | .getStored _ needUnused _ => needUnused = true
  | .getTicket _ markUsed => markUsed = true

/-- The request of a call. -/
def TicketCall.request : TicketCall → Option TicketRequest
  | .store _ => none
  | .getStored x _ _ => some x
  | .getTicket x _ => some x

namespace TicketStore

/-- No ticket that was handed out to a caller that marked it is returned to a caller that asks for
an unused one. -/
def SingleUse (s : TicketStore) : Prop :=
  ∀ call node, call.AsksUnused → s.returned call = some node → node.address ∉ s.taken

/-- The call does not retrieve a used ticket without marking it. -/
def KeepsMarks (s : TicketStore) : TicketCall → Prop
  | .getTicket x false => ∀ node, s.returned (.getTicket x false) = some node →
      node.ticket.wasUsed = false
  | _ => True

/-- The tickets have different addresses, and those for the same purpose are ordered strictly by
their expiry. -/
structure Sound (s : TicketStore) : Prop where
  addresses : (keys TicketNode.address s.firstTicket).Nodup
  fresh : ∀ node ∈ s.firstTicket, node.address < s.nextAddress
  ordered : s.firstTicket.Pairwise fun a b =>
    a.ticket.SameKey b.ticket → a.ticket.timeValidUntil < b.ticket.timeValidUntil

/-- The tickets that are marked are those that were taken. -/
structure Marked (s : TicketStore) : Prop extends s.Sound where
  wasUsed_iff : ∀ node ∈ s.firstTicket, node.ticket.wasUsed = true ↔ node.address ∈ s.taken
  taken_lt : ∀ address ∈ s.taken, address < s.nextAddress

/-! ### Retrieval -/

theorem returned_getTicket (s : TicketStore) (x : TicketRequest) (markUsed : Bool) :
    s.returned (.getTicket x markUsed) = getStoredTicket s.firstTicket x markUsed 0 := by
  rw [returned, getTicketAndVersion]
  split
  next h => exact h.symm
  next next h => exact h.symm

variable {x : TicketRequest} {s : TicketStore} {markUsed : Bool}

variable {needUnused : Bool} {node : TicketNode} {call : TicketCall} {next : TicketNode}

theorem isFound_iff {t : StoredTicket} {ticketId : ℕ} :
    t.isFound x needUnused ticketId = true ↔
      t.Answers x ∧ (needUnused = true → t.wasUsed = false) ∧
        (ticketId = 0 ∨ (if t.ticket.length < 8 then 0 else parse64 t.ticket) = ticketId) := by
  cases needUnused <;> simp [StoredTicket.isFound, and_assoc]

/-- **Retrieval**: a ticket of the list that answers the request, and is unused if that is asked
for. -/
theorem getStoredTicket_spec {l : List TicketNode} {ticketId : ℕ}
    (h : getStoredTicket l x needUnused ticketId = some node) :
    node ∈ l ∧ node.ticket.Answers x ∧ (needUnused = true → node.ticket.wasUsed = false) := by
  have hfound := List.find?_some h
  obtain ⟨hanswers, hunused, -⟩ := isFound_iff.mp hfound
  exact ⟨List.mem_of_find?_eq_some h, hanswers, hunused⟩

/-- What a call returns is a ticket of the list that answers its request. -/
theorem returned_spec (h : s.returned call = some node) :
    node ∈ s.firstTicket ∧ (∃ x ∈ call.request, node.ticket.Answers x) ∧
      (call.AsksUnused → node.ticket.wasUsed = false) := by
  cases call with
  | store x => cases h
  | getStored x needUnused ticketId =>
    obtain ⟨hmem, hanswers, hunused⟩ := getStoredTicket_spec h
    exact ⟨hmem, ⟨x, rfl, hanswers⟩, hunused⟩
  | getTicket x markUsed =>
    rw [returned_getTicket] at h
    obtain ⟨hmem, hanswers, hunused⟩ := getStoredTicket_spec h
    exact ⟨hmem, ⟨x, rfl, hanswers⟩, hunused⟩

/-- A ticket is marked, or its mark is removed. -/
def setUsed (address : ℕ) (markUsed : Bool) (node : TicketNode) : TicketNode :=
  if node.address = address then ⟨node.address, { node.ticket with wasUsed := markUsed }⟩ else node

@[simp]
theorem setUsed_address (address : ℕ) (markUsed : Bool) (node : TicketNode) :
    (setUsed address markUsed node).address = node.address := by
  rw [setUsed]
  split_ifs <;> rfl

theorem setUsed_ticket (address : ℕ) (markUsed : Bool) (node : TicketNode) :
    ∃ wasUsed,
      (setUsed address markUsed node).ticket = { node.ticket with wasUsed := wasUsed } := by
  rw [setUsed]
  split_ifs
  · exact ⟨markUsed, rfl⟩
  · exact ⟨node.ticket.wasUsed, rfl⟩

/-- **A ticket that is retrieved** is marked as the caller wants, and remembered if it is marked. -/
theorem Sound.step_getTicket (h : s.Sound)
    (hnext : s.returned (.getTicket x markUsed) = some next) :
    s.step (.getTicket x markUsed) =
      { s with
        firstTicket := s.firstTicket.map (setUsed next.address markUsed)
        taken := if markUsed then next.address :: s.taken else s.taken } := by
  rw [returned_getTicket] at hnext
  have hput : put TicketNode.address ⟨next.address, { next.ticket with wasUsed := markUsed }⟩
      s.firstTicket = s.firstTicket.map (setUsed next.address markUsed) := by
    refine List.map_congr_left fun node hnode => ?_
    rw [setUsed]
    split_ifs with heq
    · obtain rfl := List.inj_on_of_nodup_map h.addresses hnode (getStoredTicket_spec hnext).1 heq
      rfl
    · rfl
  simp only [step, getTicketAndVersion, hnext, hput, Option.map_some, Option.toList_some,
    List.singleton_append]

theorem step_getTicket_none (hnext : s.returned (.getTicket x markUsed) = none) :
    s.step (.getTicket x markUsed) = s := by
  rw [returned_getTicket] at hnext
  simp only [step, getTicketAndVersion, hnext, Option.map_none, Option.toList_none,
    List.nil_append, ite_self]

/-! ### Order -/

theorem Sound.init : init.Sound :=
  ⟨List.nodup_nil, fun _ h => absurd h List.not_mem_nil, List.Pairwise.nil⟩

theorem storeTicket_eq_ok {l l' : List TicketNode} {address : ℕ} {x : StoreTicketArgs}
    (h : storeTicket l address x = .ok l') :
    ∃ stored : StoredTicket, stored.wasUsed = false ∧
      l' = storeFirst (fun next => next.ticket.timeValidUntil ≤ stored.timeValidUntil &&
        next.ticket.SameKey stored) ⟨address, stored⟩ l := by
  rw [storeTicket] at h
  split_ifs at h
  exact ⟨_, rfl, (Except.ok.inj h).symm⟩

/-- **Storing** a ticket. -/
theorem Sound.storeFirst (h : s.Sound) (stored : StoredTicket) :
    Sound { s with
      firstTicket := storeFirst (fun next => next.ticket.timeValidUntil ≤ stored.timeValidUntil &&
        next.ticket.SameKey stored) ⟨s.nextAddress, stored⟩ s.firstTicket
      nextAddress := s.nextAddress + 1 } where
  addresses := by
    refine List.nodup_cons.mpr ⟨fun hmem => ?_, h.addresses.sublist (List.filter_sublist.map _)⟩
    obtain ⟨node, hnode, heq⟩ := List.mem_map.mp hmem
    exact (h.fresh node (List.mem_of_mem_filter hnode)).ne heq
  fresh := by
    rw [Picoquic.storeFirst, List.forall_mem_cons]
    exact ⟨Nat.lt_succ_self _, fun node hnode =>
      (h.fresh node (List.mem_of_mem_filter hnode)).trans (Nat.lt_succ_self _)⟩
  ordered := by
    refine List.pairwise_cons.mpr ⟨fun node hnode hkey => ?_, h.ordered.filter _⟩
    -- A ticket for the same purpose that expires no later is not kept.
    obtain ⟨-, hkept⟩ := List.mem_filter.mp hnode
    refine Nat.lt_of_not_le fun hle => ?_
    have hsame : node.ticket.SameKey stored := ⟨hkey.1.symm, hkey.2.1.symm, hkey.2.2.symm⟩
    simp [hle, hsame] at hkept

/-- **Marking** a ticket. -/
theorem Sound.mark (h : s.Sound) (address : ℕ) (markUsed : Bool) (taken : List ℕ) :
    Sound { s with
      firstTicket := s.firstTicket.map (setUsed address markUsed)
      taken := taken } where
  addresses := by
    have hkeys : keys TicketNode.address (s.firstTicket.map (setUsed address markUsed)) =
        keys TicketNode.address s.firstTicket := by
      rw [keys, List.map_map]
      exact List.map_congr_left fun node _ => setUsed_address address markUsed node
    rw [hkeys]
    exact h.addresses
  fresh := by
    rw [List.forall_mem_map]
    intro node hnode
    rw [setUsed_address]
    exact h.fresh node hnode
  ordered := by
    refine List.pairwise_map.mpr (h.ordered.imp fun {a b} hab => ?_)
    obtain ⟨_, ha⟩ := setUsed_ticket address markUsed a
    obtain ⟨_, hb⟩ := setUsed_ticket address markUsed b
    rw [ha, hb]
    exact hab

/-- **A call** keeps the store sound. -/
theorem Sound.step (h : s.Sound) (call : TicketCall) : (s.step call).Sound := by
  cases call with
  | store x =>
    rw [TicketStore.step]
    split
    next => exact h
    next l' hl' =>
      obtain ⟨stored, -, rfl⟩ := storeTicket_eq_ok hl'
      exact h.storeFirst stored
  | getStored x needUnused ticketId => exact h
  | getTicket x markUsed =>
    cases hnext : s.returned (.getTicket x markUsed) with
    | none =>
      rw [step_getTicket_none hnext]
      exact h
    | some next =>
      rw [h.step_getTicket hnext]
      exact h.mark _ _ _

/-! ### Single use -/

theorem Marked.init : init.Marked :=
  ⟨Sound.init, fun _ h => absurd h List.not_mem_nil, fun _ h => absurd h List.not_mem_nil⟩

section

variable (h : s.Marked)

include h

theorem Marked.singleUse : s.SingleUse := by
  intro call node hasks hnode htaken
  obtain ⟨hmem, -, hunused⟩ := returned_spec hnode
  have hused := (h.wasUsed_iff node hmem).mpr htaken
  rw [hunused hasks] at hused
  cases hused

theorem Marked.store (x : StoreTicketArgs) : (s.step (.store x)).Marked := by
  refine ⟨h.toSound.step _, ?_, ?_⟩
  · rw [step]
    split
    next => exact h.wasUsed_iff
    next l' hl' =>
      obtain ⟨stored, hunused, rfl⟩ := storeTicket_eq_ok hl'
      rw [storeFirst, List.forall_mem_cons]
      refine ⟨?_, fun node hnode => h.wasUsed_iff node (List.mem_of_mem_filter hnode)⟩
      -- The address of the ticket is new.
      refine iff_of_false ?_ fun hmem => (h.taken_lt _ hmem).false
      rw [hunused]
      exact Bool.false_ne_true
  · rw [step]
    split
    next => exact h.taken_lt
    next => exact fun address hmem => (h.taken_lt address hmem).trans (Nat.lt_succ_self _)

/-- **Retrieval** keeps the marks, unless a used ticket loses its own. -/
theorem Marked.getTicket (hkeeps : s.KeepsMarks (.getTicket x markUsed)) :
    (s.step (.getTicket x markUsed)).Marked := by
  refine ⟨h.toSound.step _, ?_, ?_⟩
  · cases hnext : s.returned (.getTicket x markUsed) with
    | none =>
      rw [step_getTicket_none hnext]
      exact h.wasUsed_iff
    | some next =>
      rw [h.step_getTicket hnext, List.forall_mem_map]
      intro node hnode
      have hiff := h.wasUsed_iff node hnode
      rw [setUsed_address, setUsed]
      by_cases heq : node.address = next.address
      · obtain rfl := List.inj_on_of_nodup_map h.addresses hnode (returned_spec hnext).1 heq
        rw [if_pos rfl]
        cases markUsed with
        | false =>
          rw [hkeeps node hnext] at hiff
          exact hiff
        | true => exact iff_of_true rfl List.mem_cons_self
      · rw [if_neg heq, hiff]
        cases markUsed with
        | false => exact Iff.rfl
        | true => exact (List.mem_cons.trans (or_iff_right heq)).symm
  · cases hnext : s.returned (.getTicket x markUsed) with
    | none =>
      rw [step_getTicket_none hnext]
      exact h.taken_lt
    | some next =>
      rw [h.step_getTicket hnext]
      have hlt := h.fresh next (returned_spec hnext).1
      cases markUsed with
      | false => exact h.taken_lt
      | true => exact List.forall_mem_cons.mpr ⟨hlt, h.taken_lt⟩

/-- **A call** that keeps the marks. -/
theorem Marked.step (hkeeps : s.KeepsMarks call) : (s.step call).Marked := by
  cases call with
  | store x => exact h.store x
  | getStored x needUnused ticketId => exact h
  | getTicket x markUsed => exact h.getTicket hkeeps

/-- The ticket that has lost its mark is returned to the next caller that asks for an unused one
in the same words. -/
theorem Marked.returned_again (hnext : s.returned (.getTicket x false) = some next) :
    (s.step (.getTicket x false)).returned (.getTicket x true) =
      some (setUsed next.address false next) := by
  rw [h.step_getTicket hnext, returned_getTicket]
  rw [returned_getTicket] at hnext
  obtain ⟨hfound, before, after, hl, hbefore⟩ := List.find?_eq_some_iff_append.mp hnext
  have hself :
      (setUsed next.address false next).ticket = { next.ticket with wasUsed := false } := by
    rw [setUsed, if_pos rfl]
  obtain ⟨hanswers, -, -⟩ := isFound_iff.mp hfound
  refine List.find?_eq_some_iff_append.mpr ⟨?_, before.map (setUsed next.address false),
    after.map (setUsed next.address false), ?_, ?_⟩
  · rw [hself]
    exact isFound_iff.mpr ⟨hanswers, fun _ => rfl, Or.inl rfl⟩
  · rw [hl, List.map_append, List.map_cons]
  · rw [List.forall_mem_map]
    intro node hnode
    -- What did not answer the request before does not answer it now.
    obtain ⟨_, hticket⟩ := setUsed_ticket next.address false node
    have hnot := hbefore node hnode
    rw [Bool.not_eq_true', Bool.eq_false_iff] at hnot ⊢
    rw [hticket]
    intro hnow
    obtain ⟨hanswers', -, -⟩ := isFound_iff.mp hnow
    exact hnot (isFound_iff.mpr ⟨hanswers', fun h => absurd h Bool.false_ne_true, Or.inl rfl⟩)

/-- **A step**: single use goes on exactly if the call keeps the marks. -/
theorem Marked.singleUse_step_iff (call : TicketCall) :
    (s.step call).SingleUse ↔ s.KeepsMarks call := by
  constructor
  · intro hsingle
    cases call with
    | store x => trivial
    | getStored x needUnused ticketId => trivial
    | getTicket x markUsed =>
      cases markUsed with
      | true => trivial
      | false =>
        intro next hnext
        rw [Bool.eq_false_iff]
        intro hused
        have htaken := (h.wasUsed_iff next (returned_spec hnext).1).mp hused
        refine hsingle (.getTicket x true) _ rfl (h.returned_again hnext) ?_
        rw [setUsed_address, h.step_getTicket hnext]
        exact htaken
  · intro hkeeps
    exact (h.step hkeeps).singleUse

end

end TicketStore

/-- **The ticket store** in any run from the empty store. The tickets for the same name, protocol
and version are ordered by their expiry, and what is retrieved is a ticket that has not expired,
for the name, protocol and version that were asked for. Each ticket is used once, after any part
of the run, exactly if no used ticket is retrieved without marking it. -/
theorem ticket_discipline (calls : List TicketCall) :
    (run TicketStore.step .init calls).Sound ∧
      (∀ call node, (run TicketStore.step .init calls).returned call = some node →
        ∃ x ∈ call.request, node.ticket.Answers x) ∧
      ((∀ calls', calls' <+: calls → (run TicketStore.step .init calls').SingleUse) ↔
        Along TicketStore.step TicketStore.KeepsMarks .init calls) := by
  refine ⟨?_, fun call node hnode => (TicketStore.returned_spec hnode).2.1, ?_⟩
  · exact run_invariant (fun s call h => h.step call) TicketStore.Sound.init calls
  · exact forall_prefix_iff_along (fun s h => h.singleUse)
      (fun s call h => h.singleUse_step_iff call) (fun s call h hkeeps => h.step hkeeps)
      TicketStore.Marked.init calls

/-- A ticket of 17 bytes that was issued after a second, and is valid for a minute. -/
def oneTicket : StoreTicketArgs where
  currentTime := 1000000
  sni := [97]
  alpn := [104]
  version := 1
  ipAddr := []
  ipAddrClient := []
  ticket := [0, 0, 0, 0, 0, 0, 3, 232, 0, 0, 0, 0, 0, 0, 0, 0, 60]
  tp := none

/-- A ticket is stored and handed out to a caller that marks it. It is retrieved without the mark,
and handed out again to a caller that asks for an unused one. -/
theorem ticket_used_twice : ¬ ∀ calls, (run TicketStore.step .init calls).SingleUse := by
  intro h
  have hsingle := h [.store oneTicket, .getTicket ⟨1000000, [97], [104], 1⟩ true,
    .getTicket ⟨1000000, [97], [104], 1⟩ false]
  exact hsingle (.getTicket ⟨1000000, [97], [104], 1⟩ true) _ rfl rfl (by decide)

end Picoquic
