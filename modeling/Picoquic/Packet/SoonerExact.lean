import Mathlib.Data.List.Perm.Basic
import Picoquic.ForMathlib.Runs
import Picoquic.Packet.Sooner

/-!
# The stash is exact

A stashed packet should hold what the network delivered, be processed once, and stay until its
keys exist.

* **`SoonerState.sweep`** — the purpose of `picoquic_process_sooner_packets`: each packet has its
  turn, those that cannot be tried stay, and what is stashed on the way stays;
* **`SoonerState.soonerLoop_eq_sweep`** — the loop over the linked list does that, if no segment is
  stashed as long as all packets before were removed;
* **`sooner_exact`** — no packet is lost or processed twice, and all hold the bytes from the
  network, in runs in which the node for a stashed segment holds these bytes already.

The last condition is needed because the stash copies the node into which the segment would have
been decrypted, and not the segment.
-/

namespace Picoquic

open Runs SoonerState

variable {atHead : Bool} {currentTime : ℕ}

variable {packets : List StatelessPacket}

variable (kept : List StatelessPacket)

section

variable {σ : Type} (code : PacketCode σ)

/-! ### The purpose -/

/-- **A sweep over the stash.** Packets whose keys exist are processed, the others stay. -/
def SoonerState.sweep (currentTime : ℕ) :
    SoonerState σ → List StatelessPacket → SoonerState σ × List StatelessPacket
  | st, [] => (st, [])
  | st, packet :: packets =>
    if code.couldTryNow st.cnx packet then
      (st.processPacket code currentTime packet).sweep currentTime packets
    else
      let (st', kept) := st.sweep currentTime packets
      (st', packet :: kept)

/-- The packet holds what the network delivered. -/
structure StatelessPacket.Genuine (network : List (List UInt8)) (packet : StatelessPacket) :
    Prop where
  bytes_eq : packet.bytes = packet.received
  mem_network : ∃ datagram ∈ network, packet.received <:+ datagram

/-- **An exact stash**: its packets are genuine, and each packet that was stashed was processed
once or is still there. -/
structure SoonerState.Exact (st : SoonerState σ) : Prop where
  genuine : ∀ packet ∈ st.buffered, packet.Genuine st.network
  perm : (st.processed ++ st.firstSooner).Perm st.buffered

/-! ### Safe events -/

/-- The segment is stashed. -/
def PacketCode.stashes (cnx : σ) (bytes : List UInt8) (packetLength : ℕ) : Bool :=
  (code.aeadNotReady cnx bytes packetLength).elim false fun r => code.mayStash r.1 r.2 bytes.length

/-- If the segment is stashed, the node for its data holds its bytes already, and it is not
stashed at all while the list is processed from its head. -/
def SoonerState.SegmentSafe (atHead : Bool) (st : SoonerState σ) (bytes : List UInt8)
    (packetLength : ℕ) : Prop :=
  code.stashes st.cnx bytes packetLength = true →
    atHead = false ∧ (allocNode st.pool).1.data.take bytes.length = bytes

/-- All segments are safe. -/
def SoonerState.SegmentsSafe (atHead : Bool) (r : SegmentRun) :
    ℕ → SoonerState σ → ℕ → List UInt8 → Prop
  | 0, _, _, _ => True
  | n + 1, st, consumedIndex, previousDestId =>
    consumedIndex < r.bytes.length →
      st.SegmentSafe code atHead (r.bytes.drop consumedIndex) r.bytes.length ∧
      let s := st.incomingSegment code (r.bytes.drop consumedIndex) r.bytes.length r.arrival
        r.currentTime r.receiveTime previousDestId (r.received.drop consumedIndex)
      (s.ret = 0 ∧ 0 < s.consumed →
        s.state.SegmentsSafe atHead r n (consumedIndex + s.consumed) s.previousDestId)

/-- All packets that are processed have safe segments. -/
def SoonerState.SoonerSafe (currentTime : ℕ) : Bool → SoonerState σ → List StatelessPacket → Prop
  | _, _, [] => True
  | atHead, st, packet :: packets =>
    if code.couldTryNow st.cnx packet then
      SegmentsSafe code atHead (packet.segmentRun currentTime) packet.bytes.length
          { st with processed := packet :: st.processed } 0 [] ∧
        (st.processPacket code currentTime packet).SoonerSafe currentTime atHead packets
    else st.SoonerSafe currentTime false packets

/-- **Safe events.** -/
def SoonerEvent.Safe (st : SoonerState σ) : SoonerEvent σ → Prop
  | .datagram bytes arrival currentTime =>
    SoonerState.SegmentsSafe code false (datagramRun bytes arrival currentTime) bytes.length
      { st with network := bytes :: st.network } 0 []
  | .processSooner currentTime =>
    SoonerState.SoonerSafe code currentTime true { st with firstSooner := [] } st.firstSooner
  | .other _ _ => True

instance (atHead : Bool) (st : SoonerState σ) (bytes : List UInt8) (packetLength : ℕ) :
    Decidable (st.SegmentSafe code atHead bytes packetLength) :=
  inferInstanceAs (Decidable (_ = true → _ ∧ _))

instance SoonerState.SegmentsSafe.decidable (atHead : Bool) (r : SegmentRun) :
    ∀ (n : ℕ) (st : SoonerState σ) (consumedIndex : ℕ) (previousDestId : List UInt8),
      Decidable (SegmentsSafe code atHead r n st consumedIndex previousDestId)
  | 0, _, _, _ => inferInstanceAs (Decidable True)
  | n + 1, st, consumedIndex, previousDestId =>
    have := decidable atHead r n
    inferInstanceAs (Decidable (consumedIndex < r.bytes.length →
      st.SegmentSafe code atHead (r.bytes.drop consumedIndex) r.bytes.length ∧
      let s := st.incomingSegment code (r.bytes.drop consumedIndex) r.bytes.length r.arrival
        r.currentTime r.receiveTime previousDestId (r.received.drop consumedIndex)
      (s.ret = 0 ∧ 0 < s.consumed →
        s.state.SegmentsSafe code atHead r n (consumedIndex + s.consumed) s.previousDestId)))

instance SoonerState.SoonerSafe.decidable (currentTime : ℕ) :
    ∀ (atHead : Bool) (st : SoonerState σ) (packets : List StatelessPacket),
      Decidable (SoonerSafe code currentTime atHead st packets)
  | _, _, [] => inferInstanceAs (Decidable True)
  | atHead, st, packet :: packets =>
    have := decidable currentTime atHead (st.processPacket code currentTime packet) packets
    have := decidable currentTime false st packets
    inferInstanceAs (Decidable (if code.couldTryNow st.cnx packet then
      SegmentsSafe code atHead (packet.segmentRun currentTime) packet.bytes.length
          { st with processed := packet :: st.processed } 0 [] ∧
        (st.processPacket code currentTime packet).SoonerSafe code currentTime atHead packets
    else st.SoonerSafe code currentTime false packets))

instance (st : SoonerState σ) : ∀ e : SoonerEvent σ, Decidable (e.Safe code st)
  | .datagram bytes arrival currentTime =>
    inferInstanceAs (Decidable (SoonerState.SegmentsSafe code false
      (datagramRun bytes arrival currentTime) bytes.length
      { st with network := bytes :: st.network } 0 []))
  | .processSooner currentTime =>
    inferInstanceAs (Decidable (SoonerState.SoonerSafe code currentTime true
      { st with firstSooner := [] } st.firstSooner))
  | .other _ _ => inferInstanceAs (Decidable True)

/-! ### Segments -/

/-- The packets `l` are stashed, and nothing else happens to the stash. -/
structure SoonerState.Grows (st st' : SoonerState σ) (l : List StatelessPacket) : Prop where
  firstSooner : st'.firstSooner = l ++ st.firstSooner
  buffered : st'.buffered = l ++ st.buffered
  processed : st'.processed = st.processed
  network : st'.network = st.network

theorem SoonerState.Grows.refl (st : SoonerState σ) : st.Grows st [] := ⟨rfl, rfl, rfl, rfl⟩

theorem SoonerState.Grows.trans {st st' st'' : SoonerState σ} {l l' : List StatelessPacket}
    (h : st.Grows st' l) (h' : st'.Grows st'' l') : st.Grows st'' (l' ++ l) :=
  ⟨by rw [h'.firstSooner, h.firstSooner, List.append_assoc],
    by rw [h'.buffered, h.buffered, List.append_assoc], h'.processed.trans h.processed,
    h'.network.trans h.network⟩

/-- One call stashes one packet or none. -/
theorem SoonerState.incomingNotDecrypted_grows (st : SoonerState σ) (ph : PacketHeader)
    (currentTime : ℕ) (node : DataNode) (length : ℕ) (arrival : Arrival) (received : List UInt8) :
    ∃ l, st.Grows (st.incomingNotDecrypted code ph currentTime node length arrival received) l ∧
      (code.mayStash st.cnx ph length = false → l = []) ∧
      ∀ packet ∈ l, packet.bytes = node.data.take length ∧ packet.received = received := by
  rw [incomingNotDecrypted]
  by_cases hstash : code.mayStash st.cnx ph length
  · rw [if_pos hstash]
    refine ⟨[stashedPacket ph currentTime node length arrival received], ⟨rfl, rfl, rfl, rfl⟩,
      fun h => absurd (h.symm.trans hstash) Bool.false_ne_true, fun p hp => ?_⟩
    rw [List.mem_singleton.mp hp]
    exact ⟨rfl, rfl⟩
  · rw [if_neg hstash]
    exact ⟨[], ⟨rfl, rfl, rfl, rfl⟩, fun _ => rfl, fun _ hp => absurd hp List.not_mem_nil⟩

variable {code}

/-- One segment stashes itself or nothing. -/
theorem SoonerState.incomingSegment_grows {st : SoonerState σ} {bytes : List UInt8}
    {packetLength : ℕ} (h : st.SegmentSafe code atHead bytes packetLength) (arrival : Arrival)
    (currentTime receiveTime : ℕ) (previousDestId received : List UInt8) :
    ∃ l, st.Grows (st.incomingSegment code bytes packetLength arrival currentTime receiveTime
        previousDestId received).state l ∧ (atHead = true → l = []) ∧
      ∀ packet ∈ l, packet.bytes = bytes ∧ packet.received = received := by
  rw [SoonerState.SegmentSafe, PacketCode.stashes] at h
  rw [incomingSegment]
  dsimp only
  cases hready : code.aeadNotReady st.cnx bytes packetLength with
  | none => exact ⟨[], ⟨rfl, rfl, rfl, rfl⟩, fun _ => rfl, fun _ hp => absurd hp List.not_mem_nil⟩
  | some r =>
    obtain ⟨cnx, ph⟩ := r
    rw [hready] at h
    obtain ⟨l, hl, hnone, hpackets⟩ := incomingNotDecrypted_grows code
      { st with cnx := cnx, pool := (allocNode st.pool).2 } ph currentTime (allocNode st.pool).1
      bytes.length arrival received
    refine ⟨l, ⟨hl.firstSooner, hl.buffered, hl.processed, hl.network⟩, fun htrue => ?_,
      fun packet hp => ?_⟩
    · refine hnone (Bool.eq_false_iff.mpr fun hstash => ?_)
      exact Bool.false_ne_true ((h hstash).1.symm.trans htrue)
    · obtain ⟨hbytes, hreceived⟩ := hpackets packet hp
      have hstash : code.mayStash cnx ph bytes.length = true := by
        by_contra hno
        rw [hnone (Bool.eq_false_iff.mpr hno)] at hp
        cases hp
      exact ⟨hbytes.trans (h hstash).2, hreceived⟩

/-- The segments of genuine bytes stash genuine packets, and none at the head of the list. -/
theorem SoonerState.segments_grows {r : SegmentRun} (hr : r.bytes = r.received) {n : ℕ}
    {st : SoonerState σ} {consumedIndex : ℕ} {previousDestId : List UInt8}
    (h : SegmentsSafe code atHead r n st consumedIndex previousDestId) :
    ∃ l, st.Grows (st.segments code r n consumedIndex previousDestId) l ∧
      (atHead = true → l = []) ∧
      ∀ packet ∈ l, packet.bytes = packet.received ∧ packet.received <:+ r.received := by
  induction n generalizing st consumedIndex previousDestId with
  | zero => exact ⟨[], .refl st, fun _ => rfl, fun _ hp => absurd hp List.not_mem_nil⟩
  | succ n ih =>
    rw [segments]
    split_ifs with hindex
    · obtain ⟨hseg, hrest⟩ := h hindex
      obtain ⟨l, hl, hhead, hpackets⟩ := incomingSegment_grows hseg r.arrival r.currentTime
        r.receiveTime previousDestId (r.received.drop consumedIndex)
      have hgenuine : ∀ packet ∈ l,
          packet.bytes = packet.received ∧ packet.received <:+ r.received := by
        intro packet hp
        obtain ⟨hbytes, hreceived⟩ := hpackets packet hp
        rw [hbytes, hreceived, hr]
        exact ⟨rfl, List.drop_suffix _ _⟩
      dsimp only
      split_ifs with hgo
      · obtain ⟨l', hl', hhead', hgenuine'⟩ := ih (hrest hgo)
        refine ⟨l' ++ l, hl.trans hl', fun htrue => ?_, fun packet hp => ?_⟩
        · rw [hhead htrue, hhead' htrue, List.append_nil]
        · exact (List.mem_append.mp hp).elim (hgenuine' packet) (hgenuine packet)
      · exact ⟨l, hl, hhead, hgenuine⟩
    · exact ⟨[], .refl st, fun _ => rfl, fun _ hp => absurd hp List.not_mem_nil⟩

/-! ### The sweep -/

/-- **The sweep keeps the stash exact.** What is in `kept` is on the list as well. -/
theorem SoonerState.sweep_exact {st : SoonerState σ}
    (h : SoonerSafe code currentTime atHead st packets)
    (hgenuine : ∀ packet ∈ st.buffered, packet.Genuine st.network)
    (hperm : (st.processed ++ (st.firstSooner ++ (kept ++ packets))).Perm st.buffered) :
    let r := st.sweep code currentTime packets
    { r.1 with firstSooner := r.1.firstSooner ++ (kept ++ r.2) }.Exact := by
  induction packets generalizing st atHead kept with
  | nil => exact ⟨hgenuine, hperm⟩
  | cons packet packets ih =>
    rw [SoonerSafe] at h
    rw [sweep]
    split_ifs at h ⊢ with htry
    · obtain ⟨hsegs, hrest⟩ := h
      have hmem : packet ∈ st.buffered := hperm.subset (by simp)
      obtain ⟨hbytes, datagram, hdatagram, hsuffix⟩ := hgenuine packet hmem
      obtain ⟨l, hl, -, hpackets⟩ :=
        segments_grows (r := packet.segmentRun currentTime) hbytes hsegs
      have hnetwork : (st.processPacket code currentTime packet).network = st.network := hl.network
      have hbuf : (st.processPacket code currentTime packet).buffered = l ++ st.buffered :=
        hl.buffered
      have hproc : (st.processPacket code currentTime packet).processed = packet :: st.processed :=
        hl.processed
      have hfirst : (st.processPacket code currentTime packet).firstSooner = l ++ st.firstSooner :=
        hl.firstSooner
      refine ih kept hrest (fun p hp => ?_) ?_
      · rw [hbuf] at hp
        rw [hnetwork]
        rcases List.mem_append.mp hp with hp | hp
        · obtain ⟨heq, hsuf⟩ := hpackets p hp
          exact ⟨heq, datagram, hdatagram, hsuf.trans hsuffix⟩
        · exact hgenuine p hp
      · -- the packet moves from the list to the processed ones, and `l` enters the list
        rw [hbuf, hproc, hfirst, List.perm_iff_count]
        intro p
        have hcount := hperm.count_eq p
        simp only [List.count_append, List.count_cons] at hcount ⊢
        omega
    · have hsweep := ih (kept ++ [packet]) h hgenuine (by simpa using hperm)
      simpa using hsweep

/-- **The loop is the sweep**, if nothing is stashed as long as all packets before were removed. -/
theorem SoonerState.soonerLoop_eq_sweep {st : SoonerState σ}
    (h : SoonerSafe code currentTime atHead st packets) (hhead : kept = [] → atHead = true)
    (hgenuine : ∀ packet ∈ packets, packet.bytes = packet.received)
    (hfirst : kept = [] → st.firstSooner = []) :
    st.soonerLoop code currentTime kept packets =
      { (st.sweep code currentTime packets).1 with
        firstSooner := (st.sweep code currentTime packets).1.firstSooner ++
          (kept ++ (st.sweep code currentTime packets).2) } := by
  induction packets generalizing st atHead kept with
  | nil => simp [soonerLoop, sweep]
  | cons packet packets ih =>
    have htail : ∀ p ∈ packets, p.bytes = p.received :=
      fun p hp => hgenuine p (List.mem_cons_of_mem packet hp)
    rw [SoonerSafe] at h
    rw [soonerLoop, sweep]
    split_ifs at h ⊢ with htry hkept
    · -- the packet was at the head: its processing stashed nothing
      obtain ⟨l, hl, hnone, -⟩ := segments_grows
        (show (packet.segmentRun currentTime).bytes = _ from hgenuine packet List.mem_cons_self) h.1
      have hempty : (st.processPacket code currentTime packet).firstSooner = [] := by
        rw [processPacket, hl.firstSooner, hnone (hhead hkept)]
        exact hfirst hkept
      have hsame : { st.processPacket code currentTime packet with firstSooner := [] } =
          st.processPacket code currentTime packet := by
        rw [← hempty]
      exact (congrArg (soonerLoop code currentTime · kept packets) hsame).trans
        (ih kept h.2 hhead htail fun _ => hempty)
    · exact ih kept h.2 (fun h => absurd h hkept) htail fun h => absurd h hkept
    · have hne : kept ++ [packet] ≠ [] := List.append_ne_nil_of_right_ne_nil _ (by simp)
      rw [ih (kept ++ [packet]) h (fun h => absurd h hne) htail fun h => absurd h hne]
      simp

/-! ### Runs -/

/-- A call of `picoquic_process_sooner_packets` is a sweep. -/
theorem SoonerState.Exact.processSoonerPackets {st : SoonerState σ} (hst : st.Exact)
    (h : (SoonerEvent.processSooner currentTime).Safe code st) :
    let r := { st with firstSooner := [] }.sweep code currentTime st.firstSooner
    st.processSoonerPackets code currentTime =
        { r.1 with firstSooner := r.1.firstSooner ++ r.2 } ∧
      (st.processSoonerPackets code currentTime).Exact := by
  have hgenuine : ∀ packet ∈ st.firstSooner, packet.bytes = packet.received := fun packet hp =>
    (hst.genuine packet (hst.perm.subset (List.mem_append_right _ hp))).bytes_eq
  have hloop := soonerLoop_eq_sweep [] h (fun _ => rfl) hgenuine fun _ => rfl
  have hexact := sweep_exact [] h hst.genuine hst.perm
  simp only [List.nil_append] at hloop hexact
  refine ⟨hloop, ?_⟩
  rw [SoonerState.processSoonerPackets, hloop]
  exact hexact

/-- **One event.** A safe event keeps the stash exact. -/
theorem SoonerState.Exact.step {st : SoonerState σ} (hst : st.Exact) {e : SoonerEvent σ}
    (h : e.Safe code st) : (st.step code e).Exact := by
  cases e with
  | datagram bytes arrival currentTime =>
    obtain ⟨l, hl, -, hpackets⟩ := segments_grows rfl h
    refine ⟨fun packet hp => ?_, ?_⟩
    · have hnetwork : (st.step code (.datagram bytes arrival currentTime)).network =
          bytes :: st.network := hl.network
      rw [hnetwork]
      rw [SoonerState.step, hl.buffered] at hp
      rcases List.mem_append.mp hp with hp | hp
      · obtain ⟨heq, hsuffix⟩ := hpackets packet hp
        exact ⟨heq, bytes, List.mem_cons_self, hsuffix⟩
      · obtain ⟨heq, datagram, hdatagram, hsuffix⟩ := hst.genuine packet hp
        exact ⟨heq, datagram, List.mem_cons_of_mem bytes hdatagram, hsuffix⟩
    · rw [SoonerState.step, hl.buffered, hl.processed, hl.firstSooner]
      exact (List.perm_append_comm_assoc _ _ _).trans (hst.perm.append_left l)
  | processSooner currentTime => exact (hst.processSoonerPackets h).2
  | other cnx pool => exact ⟨hst.genuine, hst.perm⟩

/-- **The stash is exact.** In every state that a run of safe events reaches, each packet that was
stashed holds the bytes that the network delivered, and was processed once or is still in the
list. A further safe call of `picoquic_process_sooner_packets` processes the packets that can be
tried when their turn comes, and leaves exactly the others and what is stashed on the way. -/
theorem sooner_exact {cnx : σ} {pool : List DataNode} {evs : List (SoonerEvent σ)}
    (hevs : Along (SoonerState.step code) (fun st e => e.Safe code st)
      (SoonerState.initial cnx pool) evs) :
    let st := run (step code) (initial cnx pool) evs
    (∀ packet ∈ st.buffered, packet.bytes = packet.received ∧
        ∃ datagram ∈ st.network, packet.received <:+ datagram) ∧
      (st.processed ++ st.firstSooner).Perm st.buffered ∧
      ∀ currentTime, (SoonerEvent.processSooner currentTime).Safe code st →
        let r := { st with firstSooner := [] }.sweep code currentTime st.firstSooner
        (st.processSoonerPackets code currentTime).firstSooner = r.1.firstSooner ++ r.2 ∧
          (st.processSoonerPackets code currentTime).processed = r.1.processed := by
  intro st
  have hst : st.Exact := run_invariant_of_along (fun _ _ hst h => hst.step h)
    ⟨fun _ hp => absurd hp List.not_mem_nil, .refl _⟩ hevs
  refine ⟨fun packet hp => ?_, hst.perm, fun currentTime h => ?_⟩
  · exact ⟨(hst.genuine packet hp).bytes_eq, (hst.genuine packet hp).mem_network⟩
  · rw [(hst.processSoonerPackets h).1]
    exact ⟨rfl, rfl⟩

end

/-! ### A connection that waits for its keys -/

/-- Writes bytes at the begin of a node. -/
def DataNode.write (node : DataNode) (bytes : List UInt8) : DataNode :=
  ⟨(bytes ++ node.data).take maxPacketSize, by
    rw [List.length_take, List.length_append, node.length_data]
    omega⟩

/-- A client with connection identifiers of eight bytes that waits for its 1-RTT keys. The state
says whether they exist. Decryption leaves the bytes as they are. -/
def sampleCode : PacketCode Bool where
  clientMode _ := true
  isReady _ := false
  localCnxId _ := [1, 2, 3, 4, 5, 6, 7, 8]
  resetSecret _ := List.replicate resetSecretSize 9
  pnDec keys _ := keys
  aeadDecrypt keys _ := keys
  parsePacketHeader _ bytes :=
    -- the short header: a byte with the bits `01` in front, and the identifier
    if 9 ≤ bytes.length ∧ (bytes.headD 0).toNat / 64 = 1 then
      some ⟨.oneRttProtected, .oneRtt, (bytes.drop 1).take 8, 9, bytes.length - 9⟩
    else none
  checkVersion keys _ := some keys
  updateFirstRtt keys _ := keys
  receive keys pool node bytes _ _ _ _ previousDestId :=
    { cnx := keys
      pool := pool
      node := some (node.write bytes)
      ret := if (bytes.headD 0).toNat / 64 = 1 then 0 else -1
      consumed := bytes.length
      previousDestId := previousDestId }

/-- A 1-RTT packet for this client. -/
def earlyPacket : List UInt8 := [0x40, 1, 2, 3, 4, 5, 6, 7, 8] ++ List.replicate 30 0xAA

/-- The packet arrives, then the keys, and the stash is processed. -/
def sampleSooner : List (SoonerEvent Bool) :=
  [.datagram earlyPacket ⟨[], [], 0, 0⟩ 10, .other true [], .processSooner 20]

theorem sooner_exact_sample :
    let st := run (step sampleCode)
      (initial false [zeroNode.write earlyPacket]) sampleSooner
    (∀ packet ∈ st.buffered, packet.bytes = packet.received ∧
        ∃ datagram ∈ st.network, packet.received <:+ datagram) ∧
      (st.processed ++ st.firstSooner).Perm st.buffered := by
  have hevs : Along (step sampleCode) (fun st e => e.Safe sampleCode st)
      (initial false [zeroNode.write earlyPacket]) sampleSooner := by
    decide +kernel
  obtain ⟨hgenuine, hperm, -⟩ := sooner_exact hevs
  exact ⟨hgenuine, hperm⟩

/-- **A fresh node.** The stash holds zeros in place of the packet, and that is what is processed
once the keys exist. -/
theorem stash_holds_zeros :
    let st := run (step sampleCode) (initial false []) sampleSooner
    st.network = [earlyPacket] ∧
      st.processed.map (fun packet => packet.bytes) = [List.replicate 39 0] ∧
      ¬ ∀ packet ∈ st.buffered, packet.bytes = packet.received := by
  decide +kernel

end Picoquic
