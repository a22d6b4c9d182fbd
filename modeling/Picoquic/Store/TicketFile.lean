import Mathlib.Data.Vector.Basic
import Picoquic.Store.Tickets

/-!
# The ticket file

The session tickets that may still be used are saved in a file, from which a client loads them when
it starts again.

* **`serializeTicket`**, **`deserializeTicket`** — the record of a ticket;
* **`saveTickets`**, **`loadTickets`** — the file;
* **`deserializeTicket_record`** — what is read from the record of a ticket: all of it, unless the
  ticket has the address of the server but not that of the client;
* **`StoredTicket.Storable`**, **`run_storable`** — what the store ensures, in every run;
* **`tickets_load_iff`** — the file is loaded as it was saved exactly if no record is larger than
  what loading accepts, which is less than saving does.

The file can be written and read, and pointers have eight bytes.
-/

namespace Picoquic

open RecordFile Runs RecordCursor

/-- `picoquic_serialize_ticket`, into a buffer of `bytesMax` bytes. -/
def serializeTicket (ticket : StoredTicket) (bytesMax : ℕ) : Except StoreError (List UInt8) :=
  let requiredLength := 8 + 2 + 2 + 2 + 4 + 1 + 1 +
    ticket.sni.length + ticket.alpn.length + ticket.ticket.length +
    ticket.ipAddr.length + ticket.ipAddrClient.length + 8 * 10
  if bytesMax < requiredLength then .error .frameBufferTooSmall
  else .ok (uint64Bytes ticket.timeValidUntil ++
    (uint16Bytes ticket.sni.length ++ (ticket.sni ++
      (uint16Bytes ticket.alpn.length ++ (ticket.alpn ++
        (uint32Bytes ticket.version ++
          ([UInt8.ofNat ticket.ipAddr.length] ++ (ticket.ipAddr ++
            ([UInt8.ofNat ticket.ipAddrClient.length] ++ (ticket.ipAddrClient ++
              (ticket.tp0rtt.toList.flatMap uint64Bytes ++
                (uint16Bytes ticket.ticket.length ++ ticket.ticket))))))))))))

/-- `picoquic_deserialize_ticket`, with the number of bytes consumed. -/
def deserializeTicket (bytes : List UInt8) : Except StoreError (StoredTicket × ℕ) :=
  let bytesMax := bytes.length
  let c : RecordCursor := ⟨8 + 2 + 2 + 4 + 1 + 1 + 10 * 8 + 2, bytes⟩
  let timeValidUntil := if c.requiredLength < bytesMax then parse64 c.rest else 0
  let c := c.skip bytesMax 8
  let (sni, c) := c.field bytesMax 2 fun rest => parse16 rest
  let (alpn, c) := c.field bytesMax 2 fun rest => parse16 rest
  let version := if c.requiredLength < bytesMax then parse32At c.rest else 0
  let c := c.skip bytesMax 4
  let (ipAddr, c) := c.field bytesMax 1 fun rest => (rest.getD 0 0).toNat
  let (ipAddrClient, c) := c.field bytesMax 1 fun rest => (rest.getD 0 0).toNat
  let tp0rtt : List.Vector ℕ 10 :=
    if c.requiredLength < bytesMax then List.Vector.ofFn fun i => parse64 (c.rest.drop (8 * i))
    else List.Vector.replicate 10 0
  let c := c.skip bytesMax (10 * 8)
  let (ticket, c) := c.field bytesMax 2 fun rest => parse16 rest
  if bytesMax < c.requiredLength then .error .invalidTicket
  else .ok ({ formatTicket timeValidUntil sni alpn version ipAddr ipAddrClient ticket none with
    tp0rtt := tp0rtt }, c.requiredLength)

/-- The offset of the expiry time in a ticket, after five pointers and ten parameters. -/
def ticketRecordOffset : ℕ := 120

/-- The records of tickets. -/
def ticketFormat : Format StoredTicket StoreError :=
  recordFormat serializeTicket deserializeTicket ticketRecordOffset

/-- The tickets that are saved. -/
def StoredTicket.isKept (currentTime : ℕ) (ticket : StoredTicket) : Bool :=
  currentTime < ticket.timeValidUntil && !ticket.wasUsed

/-- The tickets that are loaded and freed again. -/
def StoredTicket.isExpired (currentTime : ℕ) (ticket : StoredTicket) : Bool :=
  ticket.timeValidUntil < currentTime

/-- `picoquic_save_tickets`: the error, if there is one, and the file. -/
def saveTickets (firstTicket : List StoredTicket) (currentTime : ℕ) :
    Option StoreError × List UInt8 :=
  ticketFormat.save (StoredTicket.isKept currentTime) firstTicket

/-- `picoquic_load_tickets`: the error, if there is one, and the tickets. -/
def loadTickets (currentTime : ℕ) (F : List UInt8) : Option StoreError × List StoredTicket :=
  ticketFormat.load (StoredTicket.isExpired currentTime) F

/-! ### Integers -/

theorem parse32At_bytes {n : ℕ} (hn : n < 2 ^ 32) (rest : List UInt8) :
    parse32At (uint32Bytes n ++ rest) = n := by
  rw [parse32At, uint32Bytes]
  exact parse32_uint32Bytes hn

/-- Numbers of eight bytes each are read from their places. -/
theorem parse64_drop_flatMap {vs : List ℕ} (hvs : ∀ v ∈ vs, v < 2 ^ 64) (rest : List UInt8) {i : ℕ}
    (hi : i < vs.length) :
    parse64 ((vs.flatMap uint64Bytes ++ rest).drop (8 * i)) = vs[i] := by
  induction vs generalizing i with
  | nil => exact absurd hi (Nat.not_lt_zero i)
  | cons v vs ih =>
    rw [List.forall_mem_cons] at hvs
    rw [List.flatMap_cons, List.append_assoc]
    cases i with
    | zero => exact parse64_uint64Bytes hvs.1 _
    | succ i =>
      have hlen : (uint64Bytes v).length = 8 := rfl
      rw [Nat.mul_succ, Nat.add_comm, ← List.drop_drop, List.drop_left' hlen]
      exact ih hvs.2 (Nat.lt_of_succ_lt_succ hi)

theorem flatMap_uint64Bytes_length (vs : List ℕ) :
    (vs.flatMap uint64Bytes).length = 8 * vs.length := by
  induction vs with
  | nil => rfl
  | cons v vs ih =>
    rw [List.flatMap_cons, List.length_append, ih, List.length_cons, Nat.mul_succ, Nat.add_comm]
    rfl

/-- The parameters are read back. -/
theorem tp0rtt_bytes {tp0rtt : List.Vector ℕ 10} (h : ∀ v ∈ tp0rtt.toList, v < 2 ^ 64)
    (rest : List UInt8) :
    (List.Vector.ofFn fun i : Fin 10 =>
      parse64 ((tp0rtt.toList.flatMap uint64Bytes ++ rest).drop (8 * i))) = tp0rtt := by
  refine List.Vector.ext fun i => ?_
  have hi : (i : ℕ) < tp0rtt.toList.length := by
    rw [List.Vector.toList_length]
    exact i.isLt
  rw [List.Vector.get_ofFn, parse64_drop_flatMap h rest hi]
  rfl

/-! ### Records -/

namespace StoredTicket

/-- What the store ensures of a ticket: the values that the fields can hold, addresses of at most
16 bytes, and a ticket of at least 17. -/
structure Storable (ticket : StoredTicket) : Prop where
  timeValidUntil : ticket.timeValidUntil < 2 ^ 64
  sni : ticket.sni.length < 2 ^ 16
  alpn : ticket.alpn.length < 2 ^ 16
  version : ticket.version < 2 ^ 32
  ipAddr : ticket.ipAddr.length ≤ storedIpMax
  ipAddrClient : ticket.ipAddrClient.length ≤ storedIpMax
  tp0rtt : ∀ v ∈ ticket.tp0rtt.toList, v < 2 ^ 64
  ticket_lt : ticket.ticket.length < 2 ^ 16
  le_ticket : 17 ≤ ticket.ticket.length

/-- The number of bytes of a record. -/
def recordSize (ticket : StoredTicket) : ℕ :=
  100 + ticket.sni.length + ticket.alpn.length + ticket.ticket.length + ticket.ipAddr.length +
    ticket.ipAddrClient.length

/-- Without the address of the client, that of the server is not there either. -/
def AddressesPaired (ticket : StoredTicket) : Prop :=
  ticket.ipAddrClient = [] → ticket.ipAddr = []

instance (ticket : StoredTicket) : Decidable ticket.AddressesPaired :=
  inferInstanceAs (Decidable (_ → _))

/-- The bytes of a record. -/
def record (ticket : StoredTicket) : List UInt8 :=
  uint64Bytes ticket.timeValidUntil ++
    (uint16Bytes ticket.sni.length ++ (ticket.sni ++
      (uint16Bytes ticket.alpn.length ++ (ticket.alpn ++
        (uint32Bytes ticket.version ++
          ([UInt8.ofNat ticket.ipAddr.length] ++ (ticket.ipAddr ++
            ([UInt8.ofNat ticket.ipAddrClient.length] ++ (ticket.ipAddrClient ++
              (ticket.tp0rtt.toList.flatMap uint64Bytes ++
                (uint16Bytes ticket.ticket.length ++ ticket.ticket)))))))))))

theorem record_length (ticket : StoredTicket) : ticket.record.length = ticket.recordSize := by
  simp only [record, recordSize, uint64Bytes, uint32Bytes, uint16Bytes, List.length_append,
    List.length_cons, List.length_nil, flatMap_uint64Bytes_length, List.Vector.toList_length]
  omega

end StoredTicket

variable {ticket : StoredTicket} {bytes : List UInt8} {n : ℕ}

/-- **Writing a record.** -/
theorem serializeTicket_eq_ok :
    serializeTicket ticket n = .ok bytes ↔ ticket.recordSize ≤ n ∧ bytes = ticket.record := by
  have hsize : 8 + 2 + 2 + 2 + 4 + 1 + 1 + ticket.sni.length + ticket.alpn.length +
      ticket.ticket.length + ticket.ipAddr.length + ticket.ipAddrClient.length + 8 * 10 =
      ticket.recordSize := by
    rw [StoredTicket.recordSize]
    omega
  rw [serializeTicket]
  simp only [hsize]
  split_ifs with hn
  · exact iff_of_false (fun h => by cases h) fun h => Nat.not_lt.mpr h.1 hn
  · rw [and_iff_right (Nat.le_of_not_lt hn), Except.ok.injEq, eq_comm, StoredTicket.record]

theorem length_byte {n : ℕ} (hn : n ≤ storedIpMax) (rest : List UInt8) :
    (([UInt8.ofNat n] ++ rest).getD 0 0).toNat = n := by
  rw [List.singleton_append, List.getD_cons_zero, UInt8.toNat_ofNat']
  rw [storedIpMax] at hn
  omega

/-- **Reading a record** gives all fields back, but the address of the server only with that of the
client. -/
theorem deserializeTicket_record (h : ticket.Storable) :
    deserializeTicket ticket.record =
      .ok ({ ticket with
        ipAddr := if ticket.ipAddrClient.length = 0 then [] else ticket.ipAddr
        wasUsed := false }, ticket.recordSize) := by
  have hsize : ticket.recordSize = 100 + ticket.sni.length + ticket.alpn.length +
      ticket.ticket.length + ticket.ipAddr.length + ticket.ipAddrClient.length := rfl
  have hlen := ticket.record_length
  have hpos := h.le_ticket
  -- The ticket comes last, so that every field before it is there.
  obtain ⟨c₀, hc₀, (h₀ : c₀.requiredLength = 100), hrest₀⟩ :=
    skip_spec (c := ⟨8 + 2 + 2 + 4 + 1 + 1 + 10 * 8 + 2, ticket.record⟩)
      ticket.recordSize (n := 8) rfl fun _ => rfl
  obtain ⟨c₁, hc₁, h₁, hrest₁⟩ := field_spec 2 (fun rest => parse16 rest) rfl
    (parse16_bytes h.sni _) (by omega) hrest₀
  obtain ⟨c₂, hc₂, h₂, hrest₂⟩ := field_spec 2 (fun rest => parse16 rest) rfl
    (parse16_bytes h.alpn _) (by omega) hrest₁
  have hversion : (if c₂.requiredLength < ticket.recordSize then parse32At c₂.rest else 0) =
      ticket.version := by
    rw [if_pos (by omega), hrest₂ (by omega)]
    exact parse32At_bytes h.version _
  obtain ⟨c₃, hc₃, h₃, hrest₃⟩ := skip_spec ticket.recordSize (n := 4) rfl hrest₂
  obtain ⟨c₄, hc₄, h₄, hrest₄⟩ := field_spec 1 (fun rest => (rest.getD 0 0).toNat) rfl
    (length_byte h.ipAddr _) (by omega) hrest₃
  obtain ⟨c₅, hc₅, h₅, hrest₅⟩ := field_spec 1 (fun rest => (rest.getD 0 0).toNat) rfl
    (length_byte h.ipAddrClient _) (by omega) hrest₄
  have htp : (if c₅.requiredLength < ticket.recordSize then
      List.Vector.ofFn fun i : Fin 10 => parse64 (c₅.rest.drop (8 * i))
      else List.Vector.replicate 10 0) = ticket.tp0rtt := by
    rw [if_pos (by omega), hrest₅ (by omega)]
    exact tp0rtt_bytes h.tp0rtt _
  have htplen : (ticket.tp0rtt.toList.flatMap uint64Bytes).length = 10 * 8 := by
    rw [flatMap_uint64Bytes_length, List.Vector.toList_length]
  obtain ⟨c₆, hc₆, h₆, hrest₆⟩ := skip_spec ticket.recordSize htplen hrest₅
  replace hrest₆ : c₆.requiredLength < ticket.recordSize →
      c₆.rest = uint16Bytes ticket.ticket.length ++ (ticket.ticket ++ []) :=
    fun hlt => (hrest₆ hlt).trans (by rw [List.append_nil])
  obtain ⟨c₇, hc₇, h₇, -⟩ := field_spec 2 (fun rest => parse16 rest) rfl
    (parse16_bytes h.ticket_lt _) (by omega) hrest₆
  have hrequired : c₇.requiredLength = ticket.recordSize := by omega
  have htime : (if 8 + 2 + 2 + 4 + 1 + 1 + 10 * 8 + 2 < ticket.recordSize then
      parse64 ticket.record else 0) = ticket.timeValidUntil := by
    rw [if_pos (by omega)]
    exact parse64_uint64Bytes h.timeValidUntil _
  simp only [deserializeTicket, hlen, hc₀, hc₁, hc₂, hversion, hc₃, hc₄, hc₅, htp, hc₆, hc₇,
    hrequired, htime, lt_irrefl, if_false]
  rw [formatTicket, List.take_of_length_le h.ipAddr, List.take_of_length_le h.ipAddrClient]

/-- **Restoring.** A ticket is restored from its record exactly if its addresses are paired. -/
theorem deserializeTicket_iff (h : ticket.Storable) :
    deserializeTicket ticket.record = .ok ({ ticket with wasUsed := false }, ticket.record.length) ↔
      ticket.AddressesPaired := by
  rw [deserializeTicket_record h, ticket.record_length, StoredTicket.AddressesPaired]
  constructor
  · intro heq hclient
    have haddr := congrArg StoredTicket.ipAddr (Prod.ext_iff.mp (Except.ok.inj heq)).1
    rw [← List.length_eq_zero_iff] at hclient
    rw [if_pos hclient] at haddr
    exact haddr.symm
  · intro hpaired
    by_cases hclient : ticket.ipAddrClient.length = 0
    · rw [if_pos hclient, ← hpaired (List.length_eq_zero_iff.mp hclient)]
    · rw [if_neg hclient]

/-! ### The file -/

theorem serializeTicket_eq_record (ticket : StoredTicket) (n : ℕ) (bytes : List UInt8) :
    serializeTicket ticket n = .ok bytes ↔ ticket.record.length ≤ n ∧ bytes = ticket.record := by
  rw [ticket.record_length]
  exact serializeTicket_eq_ok

/-- A ticket that is kept is restored from the file exactly if the file may hold its record, and
its addresses are paired. -/
theorem ticketFormat_restores (h : ticket.Storable) (hused : ticket.wasUsed = false) :
    ticketFormat.Restores ticket ↔
      ticket.recordSize + ticketRecordOffset ≤ 2048 ∧ ticket.AddressesPaired := by
  have hiff := deserializeTicket_iff h
  have hsame : { ticket with wasUsed := false } = ticket := by rw [← hused]
  rw [hsame] at hiff
  rw [ticketFormat, recordFormat_restores (by decide) serializeTicket_eq_record, hiff,
    ticket.record_length]

/-- **Saving and loading** a list of tickets. -/
theorem loadTickets_saveTickets_iff {l : List StoredTicket} (hl : ∀ ticket ∈ l, ticket.Storable)
    (currentTime : ℕ) :
    ((saveTickets l currentTime).1 = none ∧
        loadTickets currentTime (saveTickets l currentTime).2 =
          (none, l.filter (StoredTicket.isKept currentTime))) ↔
      ∀ ticket ∈ l, ticket.isKept currentTime = true →
        ticket.recordSize + ticketRecordOffset ≤ 2048 ∧ ticket.AddressesPaired := by
  have hkept : ∀ ticket : StoredTicket, ticket.isKept currentTime = true →
      ticket.isExpired currentTime = false ∧ ticket.wasUsed = false := by
    intro ticket h
    rw [StoredTicket.isKept, Bool.and_eq_true, decide_eq_true_eq, Bool.not_eq_true'] at h
    exact ⟨decide_eq_false (Nat.lt_asymm h.1), h.2⟩
  refine (Format.roundTrips_iff_values (recordFormat_size serializeTicket_eq_record)
    (fun ticket h => (hkept ticket h).1) l).trans ?_
  refine forall_congr' fun ticket => ⟨fun h hmem hk => ?_, fun h hmem hk => ?_⟩
  · exact (ticketFormat_restores (hl ticket hmem) (hkept ticket hk).2).mp (h hmem hk)
  · exact (ticketFormat_restores (hl ticket hmem) (hkept ticket hk).2).mpr (h hmem hk)

/-! ### The store -/

/-- The arguments have values that their types can hold. -/
structure StoreTicketArgs.InRange (x : StoreTicketArgs) : Prop where
  sni : x.sni.length < 2 ^ 16
  alpn : x.alpn.length < 2 ^ 16
  version : x.version < 2 ^ 32
  ticket : x.ticket.length < 2 ^ 16
  tp0rtt : ∀ v ∈ (tp0rttOf x.tp).toList, v < 2 ^ 64

/-- Every ticket of the list can be saved. -/
def TicketStore.AllStorable (s : TicketStore) : Prop :=
  ∀ node ∈ s.firstTicket, node.ticket.Storable ∧ node.ticket.AddressesPaired

variable {x : StoreTicketArgs}

/-- **Formatting** a ticket cuts its addresses, and pairs them. -/
theorem formatTicket_storable (hx : x.InRange) (hticket : 17 ≤ x.ticket.length) :
    let stored := formatTicket (ticketValidUntil x.ticket) x.sni x.alpn x.version x.ipAddr
      x.ipAddrClient x.ticket x.tp
    stored.Storable ∧ stored.AddressesPaired := by
  refine ⟨⟨u64_lt _, hx.sni, hx.alpn, hx.version, ?_, List.length_take_le _ _, hx.tp0rtt,
    hx.ticket, hticket⟩, fun hclient => ?_⟩
  · rw [formatTicket]
    split_ifs
    · exact Nat.zero_le _
    · exact List.length_take_le _ _
  · rw [formatTicket] at hclient ⊢
    rw [List.take_eq_nil_iff, ← List.length_eq_zero_iff] at hclient
    exact if_pos (hclient.resolve_left (by decide))

theorem storeTicket_storable {s : TicketStore} (h : s.AllStorable) {address : ℕ} (hx : x.InRange)
    {l : List TicketNode} (hl : storeTicket s.firstTicket address x = .ok l) :
    ∀ node ∈ l, node.ticket.Storable ∧ node.ticket.AddressesPaired := by
  rw [storeTicket] at hl
  split_ifs at hl with hshort hexpired
  obtain rfl := Except.ok.inj hl
  rw [storeFirst, List.forall_mem_cons]
  exact ⟨formatTicket_storable hx (Nat.le_of_not_lt hshort), fun node hnode =>
    h node (List.mem_of_mem_filter hnode)⟩

theorem StoredTicket.Storable.setUsed {ticket : StoredTicket} (h : ticket.Storable)
    (wasUsed : Bool) : { ticket with wasUsed := wasUsed }.Storable :=
  ⟨h.timeValidUntil, h.sni, h.alpn, h.version, h.ipAddr, h.ipAddrClient, h.tp0rtt, h.ticket_lt,
    h.le_ticket⟩

theorem TicketStore.AllStorable.step {s : TicketStore} (hs : s.Sound) (h : s.AllStorable)
    {call : TicketCall} (hcall : ∀ x, call = .store x → x.InRange) :
    (s.step call).AllStorable := by
  cases call with
  | store x =>
    rw [TicketStore.step]
    split
    next => exact h
    next l hl => exact storeTicket_storable h (hcall x rfl) hl
  | getStored x needUnused ticketId => exact h
  | getTicket x markUsed =>
    cases hnext : s.returned (.getTicket x markUsed) with
    | none =>
      rw [step_getTicket_none hnext]
      exact h
    | some next =>
      rw [hs.step_getTicket hnext, AllStorable, List.forall_mem_map]
      intro node hnode
      obtain ⟨wasUsed, hticket⟩ := setUsed_ticket next.address markUsed node
      rw [hticket]
      exact ⟨(h node hnode).1.setUsed wasUsed, (h node hnode).2⟩

/-- **What the store holds** after any run is storable, and its addresses are paired. -/
theorem run_storable {calls : List TicketCall} (hcalls : ∀ x, .store x ∈ calls → x.InRange) :
    (run TicketStore.step .init calls).AllStorable := by
  have hstep : ∀ s call, s.Sound ∧ s.AllStorable → (∀ x, call = .store x → x.InRange) →
      (TicketStore.step s call).Sound ∧ (TicketStore.step s call).AllStorable :=
    fun s call h hcall => ⟨h.1.step call, h.2.step h.1 hcall⟩
  refine (run_invariant_of_along hstep ⟨TicketStore.Sound.init, ?_⟩ ?_).2
  · exact fun node h => absurd h List.not_mem_nil
  · refine along_of_forall (fun call hmem _ => ?_) _
    rintro x rfl
    exact hcalls x hmem

/-- **The ticket file.** Any list of storable tickets that is saved is loaded at the same time
without those that were used or have expired, and otherwise as it was, exactly if no record that is
saved has more than 1928 bytes, and the addresses of these tickets are paired, as those of all
tickets that were stored are. Each such ticket is restored from its record, which is consumed. -/
theorem tickets_load_iff {l : List StoredTicket} (hl : ∀ ticket ∈ l, ticket.Storable)
    (currentTime : ℕ) :
    (((saveTickets l currentTime).1 = none ∧
        loadTickets currentTime (saveTickets l currentTime).2 =
          (none, l.filter (StoredTicket.isKept currentTime))) ↔
      ∀ ticket ∈ l, ticket.isKept currentTime = true →
        ticket.recordSize ≤ 1928 ∧ ticket.AddressesPaired) ∧
    ∀ ticket ∈ l, ticket.AddressesPaired → ∀ n bytes, serializeTicket ticket n = .ok bytes →
      deserializeTicket bytes = .ok ({ ticket with wasUsed := false }, bytes.length) := by
  constructor
  · rw [loadTickets_saveTickets_iff hl]
    have hbound (ticket : StoredTicket) :
        ticket.recordSize + ticketRecordOffset ≤ 2048 ↔ ticket.recordSize ≤ 1928 := by
      rw [ticketRecordOffset]
      omega
    simp only [hbound]
  · rintro ticket hmem hpaired n bytes hbytes
    obtain ⟨-, rfl⟩ := serializeTicket_eq_ok.mp hbytes
    exact (deserializeTicket_iff (hl ticket hmem)).mpr hpaired

/-- A ticket of 17 bytes with both addresses. -/
def smallTicket : StoredTicket where
  timeValidUntil := 61000000
  sni := [97]
  alpn := [104]
  version := 1
  ipAddr := [10, 0, 0, 1]
  ipAddrClient := [10, 0, 0, 2]
  tp0rtt := List.Vector.replicate 10 7
  ticket := oneTicket.ticket
  wasUsed := false

theorem smallTicket_storable : smallTicket.Storable :=
  ⟨by decide, by decide, by decide, by decide, by decide, by decide, by decide, by decide,
    by decide⟩

/-- Of two tickets, the one that was used is not loaded. -/
theorem tickets_load_two :
    (saveTickets [{ smallTicket with wasUsed := true }, smallTicket] 1000000).1 = none ∧
      loadTickets 1000000 (saveTickets [{ smallTicket with wasUsed := true }, smallTicket]
        1000000).2 = (none, [smallTicket]) := by
  refine (tickets_load_iff (fun ticket hmem => ?_) 1000000).1.mpr (by decide)
  obtain rfl | rfl := List.mem_pair.mp hmem
  · exact smallTicket_storable.setUsed true
  · exact smallTicket_storable

/-- A ticket of 1827 bytes, for a name and a protocol of one byte each. -/
def largeTicket : StoreTicketArgs :=
  { oneTicket with ticket := oneTicket.ticket ++ List.replicate 1810 0 }

/-- The large ticket is stored and saved, but not loaded. -/
theorem large_ticket_lost :
    ∃ l, storeTicket [] 0 largeTicket = .ok l ∧
      ¬ ((saveTickets (l.map TicketNode.ticket) 1000000).1 = none ∧
        loadTickets 1000000 (saveTickets (l.map TicketNode.ticket) 1000000).2 =
          (none, (l.map TicketNode.ticket).filter (StoredTicket.isKept 1000000))) := by
  have hlen : largeTicket.ticket.length = 1827 := by
    rw [largeTicket, List.length_append, List.length_replicate]
    rfl
  have hvalid : ticketValidUntil largeTicket.ticket = 61000000 := rfl
  obtain ⟨stored, hstored⟩ : ∃ stored, stored = formatTicket (ticketValidUntil largeTicket.ticket)
      [97] [104] 1 [] [] largeTicket.ticket none := ⟨_, rfl⟩
  have hstore : storeTicket [] 0 largeTicket = .ok [⟨0, stored⟩] := by
    rw [storeTicket, if_neg (by rw [hlen]; decide), if_neg (by rw [hvalid]; decide), hstored]
    rfl
  have hargs : largeTicket.InRange :=
    ⟨by decide, by decide, by decide, by rw [hlen]; decide, by decide⟩
  have hle : 17 ≤ largeTicket.ticket.length := by
    rw [hlen]
    decide
  have hstorable : ∀ ticket ∈ [(⟨0, stored⟩ : TicketNode)].map TicketNode.ticket,
      ticket.Storable := by
    intro ticket hmem
    rw [List.mem_singleton.mp hmem, hstored]
    exact (formatTicket_storable hargs hle).1
  have hkept : stored.isKept 1000000 = true := by
    rw [hstored, StoredTicket.isKept, formatTicket, hvalid]
    rfl
  refine ⟨_, hstore, fun h => ?_⟩
  have hsize := ((loadTickets_saveTickets_iff hstorable 1000000).mp h stored
    List.mem_cons_self hkept).1
  have hticket : stored.ticket.length = 1827 := by rw [hstored, formatTicket, hlen]
  have hsni : stored.sni.length = 1 := by rw [hstored, formatTicket, List.length_singleton]
  have halpn : stored.alpn.length = 1 := by rw [hstored, formatTicket, List.length_singleton]
  rw [StoredTicket.recordSize, ticketRecordOffset] at hsize
  omega

end Picoquic
