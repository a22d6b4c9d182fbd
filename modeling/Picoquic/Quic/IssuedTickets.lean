import Mathlib.Data.List.Dedup
import Picoquic.Basic
import Picoquic.ForMathlib.LinkedList
import Picoquic.Quic.Picohash

/-!
# The tickets that a server issued

A server remembers what it measured on the connections to which it issued session tickets. The
tickets are found by their identifiers in a hash table, and are also in a doubly linked list, the
newest first, from whose end the oldest ones are to be evicted when they become too many.

* **`IssuedTickets.remember`** — a ticket is updated in place, or others are evicted and it is
  inserted;
* **`IssuedTickets.WellFormed`** — the list is well formed, and the table maps the identifiers of
  the tickets in the list to them, and no others;
* **`WellFormed.updateTickets`**, **`WellFormed.insertTicket`** — updates and insertion keep it;
* **`issued_tickets_iff`** — insertion counts no ticket, so that the count is wrong after the first
  call and no ticket is ever evicted.

Memory for tickets is available.
-/

namespace Picoquic

/-! ### Data -/

/-- `picoquic_issued_ticket_t`, without its links. -/
structure IssuedTicket where
  ticketId : ℕ
  creationTime : ℕ
  rtt : ℕ
  cwin : ℕ
  ipAddr : List UInt8
  ipAddrLength : ℕ

/-- The key of the table is the ticket, which is hashed and compared by its identifier. -/
structure IssuedTicketKey where
  ticketId : ℕ
  ticket : ℕ

/-- The tickets of `picoquic_quic_t`, at their addresses. Each ticket is allocated at a new
address. -/
structure IssuedTickets where
  maxNumberConnections : ℕ
  tableIssuedTickets : PicohashTable IssuedTicketKey
  /-- From `table_issued_tickets_first` to `table_issued_tickets_last`. -/
  links : LinkedList ℕ
  tableIssuedTicketsNb : ℕ
  tickets : ℕ → IssuedTicket
  nextTicket : ℕ

/-- The arguments of `picoquic_remember_issued_ticket`. -/
structure RememberArgs where
  ticketId : ℕ
  rtt : ℕ
  cwin : ℕ
  ipAddr : List UInt8

/-- `picoquic_issued_ticket_hash`. -/
def issuedTicketHash (key : IssuedTicketKey) : ℕ := key.ticketId

/-- `picoquic_issued_ticket_compare`. -/
def issuedTicketCompare (key1 key2 : IssuedTicketKey) : ℤ :=
  if key1.ticketId = key2.ticketId then 0 else 1

/-- `memset` of a new ticket. -/
def IssuedTicket.zero : IssuedTicket := ⟨0, 0, 0, 0, List.replicate storedIpMax 0, 0⟩

/-- `picoquic_update_issued_ticket`. -/
def IssuedTicket.update (ticket : IssuedTicket) (x : RememberArgs) : IssuedTicket :=
  let ipAddrLength := if storedIpMax < x.ipAddr.length then storedIpMax else x.ipAddr.length
  { ticket with
    ipAddrLength := ipAddrLength
    ipAddr := x.ipAddr.take ipAddrLength ++ ticket.ipAddr.drop ipAddrLength
    rtt := x.rtt
    cwin := x.cwin }

namespace IssuedTickets

/-- The part of `picoquic_create` that prepares the tickets. -/
def init (maxNbConnections : ℕ) : IssuedTickets where
  maxNumberConnections := if maxNbConnections = 0 then 1 else maxNbConnections
  tableIssuedTickets :=
    PicohashTable.create (if maxNbConnections = 0 then 1 else maxNbConnections)
      (by split_ifs with h
          · exact Nat.one_pos
          · exact Nat.pos_of_ne_zero h)
      issuedTicketHash issuedTicketCompare
  links := LinkedList.empty
  tableIssuedTicketsNb := 0
  tickets := fun _ => IssuedTicket.zero
  nextTicket := 0

/-- `picoquic_retrieve_issued_ticket`. -/
def retrieve (quic : IssuedTickets) (ticketId : ℕ) : Option ℕ :=
  (quic.tableIssuedTickets.retrieve ⟨ticketId, 0⟩).map fun item => item.key.ticket

/-- `picoquic_delete_issued_ticket`. -/
def deleteTicket (quic : IssuedTickets) (ticket : ℕ) : IssuedTickets :=
  { quic with
    links := quic.links.remove ticket
    tableIssuedTickets :=
      quic.tableIssuedTickets.deleteKey ⟨(quic.tickets ticket).ticketId, ticket⟩
    tableIssuedTicketsNb := quic.tableIssuedTicketsNb - 1 }

/-- The loop that evicts the oldest tickets, in at most `n` rounds. Each round counts one ticket
less. There is no result if a null pointer is deleted. -/
def evict (quic : IssuedTickets) : ℕ → Option IssuedTickets
  | 0 => some quic
  | n + 1 =>
    if quic.maxNumberConnections < quic.tableIssuedTicketsNb then
      quic.links.last.bind fun ticket => (quic.deleteTicket ticket).evict n
    else some quic

/-- A ticket is allocated, filled, and linked in front. -/
def insertTicket (quic : IssuedTickets) (x : RememberArgs) : IssuedTickets :=
  { quic with
    tickets := Function.update quic.tickets quic.nextTicket
      ({ IssuedTicket.zero with ticketId := x.ticketId }.update x)
    links := quic.links.insertFront quic.nextTicket
    tableIssuedTickets := quic.tableIssuedTickets.insert ⟨x.ticketId, quic.nextTicket⟩
    nextTicket := quic.nextTicket + 1 }

/-- `picoquic_remember_issued_ticket`. -/
def remember (quic : IssuedTickets) (x : RememberArgs) : Option IssuedTickets :=
  match quic.retrieve x.ticketId with
  | some ticket => some { quic with
      tickets := Function.update quic.tickets ticket ((quic.tickets ticket).update x) }
  | none => (quic.evict quic.tableIssuedTicketsNb).map fun quic => quic.insertTicket x

/-- A sequence of calls. -/
def rememberAll (quic : IssuedTickets) (calls : List RememberArgs) : Option IssuedTickets :=
  calls.foldlM remember quic

/-! ### Well-formed caches -/

/-- The identifiers of some tickets. -/
def ticketIds (quic : IssuedTickets) (l : List ℕ) : List ℕ :=
  l.map fun ticket => (quic.tickets ticket).ticketId

/-- The list is that of the tickets `l`, no two of which have the same identifier, and the table
holds their keys. The count is not too large. -/
structure WellFormed (quic : IssuedTickets) (l : List ℕ) : Prop where
  links : quic.links.Is l
  sound : quic.tableIssuedTickets.Sound IssuedTicketKey.ticketId
  keySet : ∀ k, k ∈ quic.tableIssuedTickets.keySet ↔
    k.ticket ∈ l ∧ (quic.tickets k.ticket).ticketId = k.ticketId
  ids : (quic.ticketIds l).Nodup
  nb_le : quic.tableIssuedTicketsNb ≤ l.length
  fresh : ∀ ticket ∈ l, ticket < quic.nextTicket

variable {quic quic' : IssuedTickets} {l : List ℕ} {x : RememberArgs}

theorem issuedTicketCompare_eq_zero (k k' : IssuedTicketKey) :
    issuedTicketCompare k k' = 0 ↔ k.ticketId = k'.ticketId := by
  rw [issuedTicketCompare]
  split_ifs with h
  · exact iff_of_true rfl h
  · exact iff_of_false (by decide) h

theorem WellFormed.init (maxNbConnections : ℕ) : (init maxNbConnections).WellFormed [] where
  links := LinkedList.is_empty
  sound := PicohashTable.Sound.create issuedTicketCompare_eq_zero fun _ _ h => h
  keySet k := by
    rw [IssuedTickets.init, PicohashTable.keySet_create]
    exact iff_of_false (Set.notMem_empty k) fun h => List.not_mem_nil h.1
  ids := List.nodup_nil
  nb_le := le_rfl
  fresh _ h := absurd h List.not_mem_nil

/-- **Retrieval** finds the ticket of the list with that identifier. -/
theorem WellFormed.retrieve_eq_some (h : quic.WellFormed l) {ticketId ticket : ℕ} :
    quic.retrieve ticketId = some ticket ↔
      ticket ∈ l ∧ (quic.tickets ticket).ticketId = ticketId := by
  have hkey (k : IssuedTicketKey) : (quic.tableIssuedTickets.retrieve ⟨ticketId, 0⟩).map
      PicohashItem.key = some k ↔ k ∈ quic.tableIssuedTickets.keySet ∧ k.ticketId = ticketId :=
    h.sound.retrieve_eq_some
  constructor
  · intro hretrieve
    obtain ⟨item, hitem, rfl⟩ := Option.map_eq_some_iff.mp hretrieve
    obtain ⟨hmem, hident⟩ := (hkey item.key).mp (by rw [hitem, Option.map_some])
    obtain ⟨hlist, hid⟩ := (h.keySet _).mp hmem
    exact ⟨hlist, hid.trans hident⟩
  · rintro ⟨hmem, rfl⟩
    have hfound := (hkey ⟨(quic.tickets ticket).ticketId, ticket⟩).mpr
      ⟨(h.keySet _).mpr ⟨hmem, rfl⟩, rfl⟩
    obtain ⟨item, hitem, heq⟩ := Option.map_eq_some_iff.mp hfound
    rw [retrieve, hitem, Option.map_some, heq]

theorem WellFormed.retrieve_eq_none (h : quic.WellFormed l) {ticketId : ℕ} :
    quic.retrieve ticketId = none ↔ ticketId ∉ quic.ticketIds l := by
  rw [ticketIds, Option.eq_none_iff_forall_ne_some, List.mem_map]
  constructor
  · rintro hne ⟨ticket, hticket⟩
    exact hne ticket (h.retrieve_eq_some.mpr hticket)
  · rintro hnot ticket hticket
    exact hnot ⟨ticket, h.retrieve_eq_some.mp hticket⟩

/-- The cache after an update that leaves the identifiers as they are. -/
theorem WellFormed.updateTickets (h : quic.WellFormed l) {tickets : ℕ → IssuedTicket}
    (hid : ∀ ticket, (tickets ticket).ticketId = (quic.tickets ticket).ticketId) :
    WellFormed { quic with tickets := tickets } l where
  links := h.links
  sound := h.sound
  keySet k := by
    rw [hid]
    exact h.keySet k
  ids := by
    simp only [ticketIds, hid]
    exact h.ids
  nb_le := h.nb_le
  fresh := h.fresh

theorem ticketId_insertTicket (quic : IssuedTickets) (x : RememberArgs) :
    ((quic.insertTicket x).tickets quic.nextTicket).ticketId = x.ticketId := by
  have hself : (quic.insertTicket x).tickets quic.nextTicket =
      { IssuedTicket.zero with ticketId := x.ticketId }.update x := Function.update_self ..
  rw [hself, IssuedTicket.update]

theorem tickets_insertTicket {ticket : ℕ} (hne : ticket ≠ quic.nextTicket) :
    (quic.insertTicket x).tickets ticket = quic.tickets ticket :=
  Function.update_of_ne hne ..

theorem ticketId_update (quic : IssuedTickets) (ticket : ℕ) (x : RememberArgs) (a : ℕ) :
    (Function.update quic.tickets ticket ((quic.tickets ticket).update x) a).ticketId =
      (quic.tickets a).ticketId := by
  obtain rfl | hne := eq_or_ne a ticket
  · rw [Function.update_self, IssuedTicket.update]
  · rw [Function.update_of_ne hne]

theorem WellFormed.ticketIds_insertTicket (h : quic.WellFormed l) (x : RememberArgs) :
    (quic.insertTicket x).ticketIds (quic.nextTicket :: l) = x.ticketId :: quic.ticketIds l := by
  rw [ticketIds, List.map_cons, ticketId_insertTicket]
  refine congrArg _ (List.map_congr_left fun ticket hticket => ?_)
  rw [tickets_insertTicket (h.fresh ticket hticket).ne]

/-- **Insertion** of a ticket that is not found. -/
theorem WellFormed.insertTicket (h : quic.WellFormed l) (hnone : x.ticketId ∉ quic.ticketIds l) :
    (quic.insertTicket x).WellFormed (quic.nextTicket :: l) := by
  have hnot : quic.nextTicket ∉ l := fun hmem => (h.fresh _ hmem).false
  refine ⟨h.links.insertFront hnot, h.sound.insert ?_, fun k => ?_, ?_,
    h.nb_le.trans (Nat.le_succ _), ?_⟩
  · rw [h.sound.retrieve_eq_none]
    rintro k hk heq
    obtain ⟨hmem, hid⟩ := (h.keySet k).mp hk
    exact hnone (List.mem_map.mpr ⟨k.ticket, hmem, hid.trans heq⟩)
  · have hkeys : (quic.insertTicket x).tableIssuedTickets.keySet =
        insert ⟨x.ticketId, quic.nextTicket⟩ quic.tableIssuedTickets.keySet :=
      PicohashTable.keySet_insert _ _
    rw [hkeys, Set.mem_insert_iff, h.keySet, List.mem_cons]
    obtain heq | hne := eq_or_ne k.ticket quic.nextTicket
    · rw [heq, ticketId_insertTicket]
      constructor
      · rintro (rfl | hk)
        · exact ⟨Or.inl rfl, rfl⟩
        · exact absurd hk.1 hnot
      · rintro ⟨-, hid⟩
        left
        rw [hid, ← heq]
    · rw [tickets_insertTicket hne, or_iff_right hne, or_iff_right fun hk => hne (by rw [hk])]
  · rw [h.ticketIds_insertTicket]
    exact List.nodup_cons.mpr ⟨hnone, h.ids⟩
  · rintro ticket hticket
    obtain rfl | hticket := List.mem_cons.mp hticket
    · exact Nat.lt_succ_self _
    · exact (h.fresh ticket hticket).trans (Nat.lt_succ_self _)

/-! ### What is never counted -/

theorem evict_of_nb (hnb : quic.tableIssuedTicketsNb = 0) :
    quic.evict quic.tableIssuedTicketsNb = some quic := by
  rw [hnb, evict]

/-- **A call that counts nothing**: the identifier joins those of the list, and no ticket is
counted. -/
theorem WellFormed.remember_of_nb (h : quic.WellFormed l) (hnb : quic.tableIssuedTicketsNb = 0)
    (x : RememberArgs) :
    ∃ quic' l', quic.remember x = some quic' ∧ quic'.WellFormed l' ∧
      quic'.tableIssuedTicketsNb = 0 ∧ quic'.maxNumberConnections = quic.maxNumberConnections ∧
      ∀ id, id ∈ quic'.ticketIds l' ↔ id = x.ticketId ∨ id ∈ quic.ticketIds l := by
  rw [IssuedTickets.remember]
  cases hx : quic.retrieve x.ticketId with
  | some ticket =>
    have hmem : x.ticketId ∈ quic.ticketIds l := List.mem_map.mpr ⟨ticket, h.retrieve_eq_some.mp hx⟩
    have hids := ticketId_update quic ticket x
    refine ⟨_, l, rfl, h.updateTickets hids, hnb, rfl, fun id => ?_⟩
    rw [ticketIds, List.map_congr_left fun a _ => hids a, ← ticketIds, iff_or_self]
    rintro rfl
    exact hmem
  | none =>
    rw [evict_of_nb hnb, Option.map_some]
    refine ⟨_, _, rfl, h.insertTicket (h.retrieve_eq_none.mp hx), hnb, rfl, fun id => ?_⟩
    rw [h.ticketIds_insertTicket, List.mem_cons]

/-- **A sequence of calls that counts nothing**: the identifiers are those of all calls. -/
theorem WellFormed.rememberAll_of_nb (h : quic.WellFormed l)
    (hnb : quic.tableIssuedTicketsNb = 0) (calls : List RememberArgs) :
    ∃ quic' l', quic.rememberAll calls = some quic' ∧ quic'.WellFormed l' ∧
      quic'.tableIssuedTicketsNb = 0 ∧ quic'.maxNumberConnections = quic.maxNumberConnections ∧
      ∀ id, id ∈ quic'.ticketIds l' ↔
        id ∈ calls.map RememberArgs.ticketId ∨ id ∈ quic.ticketIds l := by
  induction calls generalizing quic l with
  | nil => exact ⟨quic, l, rfl, h, hnb, rfl, fun id => by simp⟩
  | cons x calls ih =>
    obtain ⟨quic₁, l₁, heq, hquic₁, hnb₁, hmax₁, hids₁⟩ := h.remember_of_nb hnb x
    obtain ⟨quic', l', heq', hquic', hnb', hmax', hids'⟩ := ih hquic₁ hnb₁
    refine ⟨quic', l', ?_, hquic', hnb', hmax'.trans hmax₁, fun id => ?_⟩
    · rw [IssuedTickets.rememberAll, List.foldlM_cons, heq]
      exact heq'
    · rw [hids', hids₁, List.map_cons, List.mem_cons, or_left_comm, or_assoc]

/-! ### The cache -/

/-- What is promised of the cache: it is well formed, its tickets are counted, and there are no
more of them than eviction before an insertion leaves, and the one that is inserted. -/
def Integrity (quic : IssuedTickets) : Prop :=
  ∃ l, quic.WellFormed l ∧ quic.tableIssuedTicketsNb = l.length ∧
    l.length ≤ quic.maxNumberConnections + 1

/-- **The cache of issued tickets** is well formed after any sequence of calls. But it is what is
promised before the first call only, since no ticket is counted, and the oldest ones are never
evicted: there are as many as identifiers were remembered. -/
theorem issued_tickets_iff (maxNbConnections : ℕ) (calls : List RememberArgs) :
    ∃ quic l, (init maxNbConnections).rememberAll calls = some quic ∧ quic.WellFormed l ∧
      (quic.Integrity ↔ calls = []) ∧ (quic.tableIssuedTicketsNb = l.length ↔ calls = []) ∧
      (l.length ≤ quic.maxNumberConnections + 1 ↔
        (calls.map RememberArgs.ticketId).dedup.length ≤ quic.maxNumberConnections + 1) := by
  obtain ⟨quic, l, heq, hquic, hnb, hmax, hids⟩ :=
    (WellFormed.init maxNbConnections).rememberAll_of_nb rfl calls
  have hperm : (quic.ticketIds l).Perm (calls.map RememberArgs.ticketId).dedup := by
    refine (List.perm_ext_iff_of_nodup hquic.ids (List.nodup_dedup _)).mpr fun id => ?_
    rw [hids, List.mem_dedup]
    exact or_iff_left List.not_mem_nil
  have hlen : l.length = (calls.map RememberArgs.ticketId).dedup.length := by
    rw [← hperm.length_eq, ticketIds, List.length_map]
  have hcount : quic.tableIssuedTicketsNb = l.length ↔ calls = [] := by
    rw [hnb, hlen, eq_comm, List.length_eq_zero_iff, List.dedup_eq_nil, List.map_eq_nil_iff]
  refine ⟨quic, l, heq, hquic, ?_, hcount, by rw [hlen]⟩
  constructor
  · rintro ⟨l', hquic', hcount', -⟩
    rw [hquic'.links.unique hquic.links] at hcount'
    exact hcount.mp hcount'
  · intro hcalls
    have hzero := hcount.mpr hcalls
    refine ⟨l, hquic, hzero, ?_⟩
    rw [← hzero, hnb]
    exact Nat.zero_le _

/-- After the first ticket was remembered, it is in the list and no ticket is counted. -/
theorem first_ticket_uncounted :
    ∃ quic, (init 1).rememberAll [⟨7, 1000, 2000, [10, 0, 0, 1]⟩] = some quic ∧
      quic.links.first = some 0 ∧ ¬ quic.Integrity := by
  refine ⟨_, rfl, rfl, ?_⟩
  rintro ⟨l, hquic, hcount, -⟩
  have hfirst := hquic.links.first_eq
  rw [List.eq_nil_of_length_eq_zero hcount.symm] at hfirst
  cases hfirst

end IssuedTickets

end Picoquic
