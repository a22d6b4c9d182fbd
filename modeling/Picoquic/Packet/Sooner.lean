import Picoquic.Basic

/-!
# Packets that arrive before their keys

A segment whose decryption key does not exist yet is stashed, and processed when keys arrive.

* **`SoonerState.incomingSegment`** — a segment is parsed and decrypted into a node of the pool;
  without a key nothing is written to the node, and `incomingNotDecrypted` may stash a copy;
* **`SoonerState.processSoonerPackets`** — the stashed packets whose keys exist are processed and
  removed, while segments of theirs may be stashed again;
* **`SoonerState.step`** — datagrams, calls of the latter, and whatever else happens to the
  connection and to the pool.

The connection is a parameter, `PacketCode`, as are the parser of headers and all that happens to
a segment once its key exists. Memory is always available. `network`, `buffered`, `processed` and
the `received` of a packet are history: the datagrams that arrived, the packets that were stashed
and those that were processed, and the bytes from the network that a packet stands for.
-/

namespace Picoquic

/-! ### Data -/

/-- `picoquic_packet_type_enum`. -/
inductive PacketType
  | error
  | versionNegotiation
  | initial
  | retry
  | handshake
  | zeroRttProtected
  | oneRttProtected
  deriving DecidableEq

/-- `picoquic_epoch_enum`. -/
inductive PacketEpoch
  | initial
  | zeroRtt
  | handshake
  | oneRtt
  deriving DecidableEq

/-- `picoquic_packet_header`, the part that matters before decryption. -/
structure PacketHeader where
  ptype : PacketType
  epoch : PacketEpoch
  destCnxId : List UInt8
  offset : ℕ
  payloadLength : ℕ

/-- Where a datagram came from, and how it arrived. -/
structure Arrival where
  addrFrom : List UInt8
  addrTo : List UInt8
  ifIndexTo : ℕ
  receivedEcn : UInt8

/-- The data of `picoquic_stream_data_node_t`. -/
structure DataNode where
  data : List UInt8
  length_data : data.length = maxPacketSize

/-- A node as `malloc` and `memset` leave it. -/
def zeroNode : DataNode := ⟨List.replicate maxPacketSize 0, List.length_replicate⟩

/-- `PICOQUIC_MAX_PACKETS_IN_POOL`. -/
def maxPacketsInPool : ℕ := 0x8000

/-- `PICOQUIC_ENFORCED_INITIAL_MTU`. -/
def enforcedInitialMtu : ℕ := 1200

/-- `PICOQUIC_RESET_PACKET_MIN_SIZE`. -/
def resetPacketMinSize : ℕ := 23 + resetSecretSize

/-- `picoquic_stateless_packet_t`, as a stashed packet uses it. -/
structure StatelessPacket where
  addrTo : List UInt8
  addrLocal : List UInt8
  ifIndexLocal : ℕ
  receivedEcn : UInt8
  length : ℕ
  receiveTime : ℕ
  ptype : PacketType
  bytes : List UInt8
  received : List UInt8
  deriving DecidableEq

/-- What the processing of a segment leads to. -/
structure Processed (σ : Type) where
  cnx : σ
  pool : List DataNode
  /-- The node, if no stream keeps it. -/
  node : Option DataNode
  ret : ℤ
  consumed : ℕ
  previousDestId : List UInt8

/-- **The rest of the code**: a connection, as far as the stash looks into it, and what is done
with segments that are not stashed. -/
structure PacketCode (σ : Type) where
  clientMode : σ → Bool
  /-- `cnx_state` is `picoquic_state_ready` or later. -/
  isReady : σ → Bool
  /-- The first local connection identifier, empty if none is used. -/
  localCnxId : σ → List UInt8
  /-- The reset secret of the peer's first connection identifier. -/
  resetSecret : σ → List UInt8
  /-- `pn_dec` exists. -/
  pnDec : σ → PacketEpoch → Bool
  /-- `aead_decrypt` exists. -/
  aeadDecrypt : σ → PacketEpoch → Bool
  /-- `picoquic_parse_packet_header`, for segments of this connection. -/
  parsePacketHeader : σ → List UInt8 → Option PacketHeader
  /-- The check of the version, with `picoquic_process_version_upgrade`. -/
  checkVersion : σ → PacketHeader → Option σ
  /-- The first round trip time, when the peer responds. -/
  updateFirstRtt : σ → ℕ → σ
  /-- The rest of `picoquic_incoming_segment`. -/
  receive : σ → List DataNode → DataNode → List UInt8 → ℕ → Arrival → ℕ → ℕ → List UInt8 →
    Processed σ

/-- The connection, the pool of nodes and the stash. -/
structure SoonerState (σ : Type) where
  cnx : σ
  pool : List DataNode
  firstSooner : List StatelessPacket
  network : List (List UInt8)
  buffered : List StatelessPacket
  processed : List StatelessPacket

section

variable {σ : Type} (code : PacketCode σ)

/-! ### Segments -/

/-- Clear text packets. -/
def PacketType.isClearText : PacketType → Bool
  | .error | .versionNegotiation | .retry => true
  | .initial | .handshake | .zeroRttProtected | .oneRttProtected => false

/-- The test for a stateless reset in `picoquic_parse_header_and_decrypt`. -/
def PacketCode.isStatelessReset (cnx : σ) (ph : PacketHeader) (bytes : List UInt8) : Bool :=
  let length := ph.offset + ph.payloadLength
  ph.ptype == .oneRttProtected && decide (resetPacketMinSize ≤ length) &&
    (bytes.drop (length - resetSecretSize)).take resetSecretSize == code.resetSecret cnx

/-- The segments for which `picoquic_parse_header_and_decrypt` returns
`PICOQUIC_ERROR_AEAD_NOT_READY`, with the header. The node is not written. -/
def PacketCode.aeadNotReady (cnx : σ) (bytes : List UInt8) (packetLength : ℕ) :
    Option (σ × PacketHeader) :=
  match code.parsePacketHeader cnx bytes with
  | none => none
  | some ph =>
    if maxPacketSize < ph.offset + ph.payloadLength then none
    else if ph.ptype.isClearText then none
    else if !code.clientMode cnx && ph.ptype == .initial &&
        decide (packetLength < enforcedInitialMtu) then none
    else
      match code.checkVersion cnx ph with
      | none => none
      | some cnx =>
        if code.pnDec cnx ph.epoch then none
        else if code.isStatelessReset cnx ph bytes then none
        else some (cnx, ph)

/-- The test of `picoquic_incoming_not_decrypted` that the peer is responding. -/
def PacketCode.peerResponds (cnx : σ) (ph : PacketHeader) : Bool :=
  !code.isReady cnx && decide (0 < (code.localCnxId cnx).length) &&
    code.localCnxId cnx == ph.destCnxId

/-- The conditions of `picoquic_incoming_not_decrypted` for stashing a segment. -/
def PacketCode.mayStash (cnx : σ) (ph : PacketHeader) (length : ℕ) : Bool :=
  code.peerResponds cnx ph && decide (length ≤ maxPacketSize) &&
    ((ph.ptype == .handshake && code.clientMode cnx) || ph.ptype == .oneRttProtected)

/-- The copy that `picoquic_incoming_not_decrypted` stashes. -/
def stashedPacket (ph : PacketHeader) (currentTime : ℕ) (bytes : DataNode) (length : ℕ)
    (arrival : Arrival) (received : List UInt8) : StatelessPacket :=
  { addrTo := arrival.addrFrom
    addrLocal := arrival.addrTo
    ifIndexLocal := arrival.ifIndexTo
    receivedEcn := arrival.receivedEcn
    length := length
    receiveTime := currentTime
    ptype := ph.ptype
    bytes := bytes.data.take length
    received := received }

/-- `picoquic_incoming_not_decrypted`. `length` counts the bytes up to the end of the datagram. -/
def SoonerState.incomingNotDecrypted (st : SoonerState σ) (ph : PacketHeader) (currentTime : ℕ)
    (bytes : DataNode) (length : ℕ) (arrival : Arrival) (received : List UInt8) :
    SoonerState σ :=
  let cnx := if code.peerResponds st.cnx ph then code.updateFirstRtt st.cnx currentTime else st.cnx
  if code.mayStash st.cnx ph length then
    let packet := stashedPacket ph currentTime bytes length arrival received
    { st with
      cnx := cnx
      firstSooner := packet :: st.firstSooner
      buffered := packet :: st.buffered }
  else { st with cnx := cnx }

/-- `picoquic_stream_data_node_alloc`: the node and the rest of the pool. -/
def allocNode : List DataNode → DataNode × List DataNode
  | [] => (zeroNode, [])
  | node :: pool => (node, pool)

/-- `picoquic_stream_data_node_recycle`. -/
def recycleNode (pool : List DataNode) (node : DataNode) : List DataNode :=
  if pool.length < maxPacketsInPool then node :: pool else pool

/-- What `picoquic_incoming_segment` returns. -/
structure SegmentResult (σ : Type) where
  state : SoonerState σ
  ret : ℤ
  consumed : ℕ
  previousDestId : List UInt8

/-- `picoquic_incoming_segment`. -/
def SoonerState.incomingSegment (st : SoonerState σ) (rawBytes : List UInt8) (packetLength : ℕ)
    (arrival : Arrival) (currentTime receiveTime : ℕ) (previousDestId received : List UInt8) :
    SegmentResult σ :=
  let (decryptedData, pool) := allocNode st.pool
  match code.aeadNotReady st.cnx rawBytes packetLength with
  | some (cnx, ph) =>
    let st := { st with cnx := cnx, pool := pool }.incomingNotDecrypted code ph currentTime
      decryptedData rawBytes.length arrival received
    { state := { st with pool := recycleNode st.pool decryptedData }
      ret := 0
      consumed := ph.offset + ph.payloadLength
      previousDestId := if previousDestId = [] then ph.destCnxId else previousDestId }
  | none =>
    let r := code.receive st.cnx pool decryptedData rawBytes packetLength arrival currentTime
      receiveTime previousDestId
    { state := { st with cnx := r.cnx, pool := r.node.elim r.pool (recycleNode r.pool) }
      ret := r.ret
      consumed := r.consumed
      previousDestId := r.previousDestId }

/-- Bytes to go through, segment by segment. -/
structure SegmentRun where
  bytes : List UInt8
  received : List UInt8
  arrival : Arrival
  currentTime : ℕ
  receiveTime : ℕ

/-- The loop over the segments of a datagram, in `picoquic_incoming_packet_ex` and in
`picoquic_process_sooner_packets`. Each round consumes bytes, so `n` rounds are enough for `n`
bytes. -/
def SoonerState.segments (r : SegmentRun) : ℕ → SoonerState σ → ℕ → List UInt8 → SoonerState σ
  | 0, st, _, _ => st
  | n + 1, st, consumedIndex, previousDestId =>
    if consumedIndex < r.bytes.length then
      let s := st.incomingSegment code (r.bytes.drop consumedIndex) r.bytes.length r.arrival
        r.currentTime r.receiveTime previousDestId (r.received.drop consumedIndex)
      if s.ret = 0 ∧ 0 < s.consumed then
        s.state.segments r n (consumedIndex + s.consumed) s.previousDestId
      else s.state
    else st

/-! ### The stash -/

/-- The test of `picoquic_process_sooner_packets` for a stashed packet. -/
def PacketCode.couldTryNow (cnx : σ) (packet : StatelessPacket) : Bool :=
  match packet.ptype with
  | .handshake => code.aeadDecrypt cnx .handshake || code.pnDec cnx .handshake
  | .oneRttProtected => code.aeadDecrypt cnx .oneRtt || code.pnDec cnx .oneRtt
  | .error | .versionNegotiation | .initial | .retry | .zeroRttProtected => false

/-- The bytes of a stashed packet. -/
def StatelessPacket.segmentRun (packet : StatelessPacket) (currentTime : ℕ) : SegmentRun :=
  { bytes := packet.bytes
    received := packet.received
    arrival := ⟨packet.addrTo, packet.addrLocal, packet.ifIndexLocal, packet.receivedEcn⟩
    currentTime := currentTime
    receiveTime := packet.receiveTime }

/-- Goes through the segments of a stashed packet. -/
def SoonerState.processPacket (st : SoonerState σ) (currentTime : ℕ) (packet : StatelessPacket) :
    SoonerState σ :=
  { st with processed := packet :: st.processed }.segments code (packet.segmentRun currentTime)
    packet.bytes.length 0 []

/-- The loop of `picoquic_process_sooner_packets`. Before each round the linked list consists of
the packets that processing has put in front, in `firstSooner`, of those passed over, `kept`, and
of those to come. `previous` is the last one passed over; as long as it is `NULL`, removing a
packet makes its successor the head of the list. -/
def SoonerState.soonerLoop (currentTime : ℕ) :
    SoonerState σ → List StatelessPacket → List StatelessPacket → SoonerState σ
  | st, kept, [] => { st with firstSooner := st.firstSooner ++ kept }
  | st, kept, packet :: nextPackets =>
    if code.couldTryNow st.cnx packet then
      let st := st.processPacket code currentTime packet
      if kept = [] then { st with firstSooner := [] }.soonerLoop currentTime kept nextPackets
      else st.soonerLoop currentTime kept nextPackets
    else st.soonerLoop currentTime (kept ++ [packet]) nextPackets

/-- `picoquic_process_sooner_packets`. -/
def SoonerState.processSoonerPackets (st : SoonerState σ) (currentTime : ℕ) : SoonerState σ :=
  { st with firstSooner := [] }.soonerLoop code currentTime [] st.firstSooner

/-! ### Events -/

/-- What happens to the stash. -/
inductive SoonerEvent (σ : Type)
  /-- A datagram arrives. -/
  | datagram (bytes : List UInt8) (arrival : Arrival) (currentTime : ℕ)
  /-- A packet is prepared, and keys have arrived. -/
  | processSooner (currentTime : ℕ)
  /-- Anything else: the connection changes, and streams take nodes or give them back. -/
  | other (cnx : σ) (pool : List DataNode)

/-- The segments of a datagram. -/
def datagramRun (bytes : List UInt8) (arrival : Arrival) (currentTime : ℕ) : SegmentRun :=
  ⟨bytes, bytes, arrival, currentTime, currentTime⟩

/-- One event. -/
def SoonerState.step (st : SoonerState σ) : SoonerEvent σ → SoonerState σ
  | .datagram bytes arrival currentTime =>
    { st with network := bytes :: st.network }.segments code
      (datagramRun bytes arrival currentTime) bytes.length 0 []
  | .processSooner currentTime => st.processSoonerPackets code currentTime
  | .other cnx pool => { st with cnx := cnx, pool := pool }

/-- A connection whose stash is empty. -/
def SoonerState.initial (cnx : σ) (pool : List DataNode) : SoonerState σ :=
  ⟨cnx, pool, [], [], [], []⟩

end

end Picoquic
