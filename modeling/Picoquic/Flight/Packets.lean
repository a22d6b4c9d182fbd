import Picoquic.Ack.Blocks
import Picoquic.ForMathlib.LinkedList
import Picoquic.ForMathlib.Runs

/-!
# Packets in flight

A packet that was sent stays in the queue of its number space until it is acknowledged or declared
lost; a lost packet may then be kept in a second list, so that a late acknowledgement can be told
from a first one. Beside that it is in the list of the path it was sent on, and the path counts the
bytes that are in transit. All lists are kept by pointers in the packets.

* `queueForRetransmit`, `dequeueRetransmitPacket`, `dequeueRetransmittedPacket` — the lists of a
  number space;
* `enqueuePacketWithPath`, `dequeuePacketFromPath` — the list of a path;
* `finalizeAndProtectPacket`, `insertHoleInSendSequence` — what enters;
* `processAckFrame`, `implicitHandshakeAck`, `resetPacketContext`, `deletePath` — what leaves;
* `preemptiveRetransmitInContext` — the cursor of the preemptive repeats.

The spaces `0`, `1` and `2` are those of the application, handshake and initial packets; with
multipath the 1-RTT packets have a space for each connection identifier of the peer, from `3` on.
A client that sent 0-RTT packets and then agrees on multipath moves them there
(`picoquic_client_almost_ready_transition`); that is left out.
-/

namespace Picoquic

open Runs

/-- `picoquic_packet_t`, without what it carries. -/
structure FlightPacket where
  next : Option ℕ
  previous : Option ℕ
  pathNext : Option ℕ
  pathPrevious : Option ℕ
  sendPath : Option ℕ
  sequenceNumber : ℕ
  sendTime : ℕ
  length : ℕ
  checksumOverhead : ℕ
  isAckTrap : Bool
  isQueuedForRetransmit : Bool
  isQueuedToPath : Bool
  wasPreemptivelyRepeated : Bool
  /-- The number space in whose lists the packet is. -/
  space : ℕ

/-- A packet that is zeroed. -/
def blankPacket : FlightPacket :=
  ⟨none, none, none, none, none, 0, 0, 0, 0, false, false, false, false, 0⟩

/-- `picoquic_packet_context_t`, the lists. -/
structure FlightContext where
  sendSequence : ℕ
  highestAcknowledged : ℕ
  retransmitNewest : Option ℕ
  retransmitOldest : Option ℕ
  retransmittedNewest : Option ℕ
  retransmittedOldest : Option ℕ
  preemptiveRepeatPtr : Option ℕ

/-- Whether `picoquic_find_acked_packet` takes `largest` for a new acknowledgement. -/
def FlightContext.IsNewAck (c : FlightContext) (largest : ℕ) : Prop :=
  c.highestAcknowledged < largest ∨ c.highestAcknowledged = 2 ^ 64 - 1

instance (c : FlightContext) (largest : ℕ) : Decidable (c.IsNewAck largest) :=
  inferInstanceAs (Decidable (_ ∨ _))

/-- `picoquic_path_t`, the packets. -/
structure FlightPath where
  pathPacketFirst : Option ℕ
  pathPacketLast : Option ℕ
  bytesInTransit : ℕ
  /-- The sequence number of `p_remote_cnxid`. -/
  cnxid : ℕ

/-- A connection, the packets in flight. -/
structure Flight where
  isMultipathEnabled : Bool
  packets : ℕ → FlightPacket
  /-- The packets that are neither free nor in the pool. -/
  inUse : List ℕ
  contexts : ℕ → FlightContext
  paths : ℕ → FlightPath
  /-- The paths of the table. -/
  pathTable : List ℕ

namespace Flight

/-! ### Lists -/

/-- Changes a packet. -/
def setPacket (s : Flight) (a : ℕ) (p : FlightPacket) : Flight :=
  { s with packets := Function.update s.packets a p }

/-- Sets `is_queued_for_retransmit`. -/
def setQueued (s : Flight) (a : ℕ) (isQueued : Bool) : Flight :=
  s.setPacket a { s.packets a with isQueuedForRetransmit := isQueued }

/-- Sets `is_queued_to_path`. -/
def setQueuedToPath (s : Flight) (a : ℕ) (isQueued : Bool) : Flight :=
  s.setPacket a { s.packets a with isQueuedToPath := isQueued }

/-- Changes a number space. -/
def setContext (s : Flight) (i : ℕ) (c : FlightContext) : Flight :=
  { s with contexts := Function.update s.contexts i c }

/-- Changes a path. -/
def setPath (s : Flight) (j : ℕ) (x : FlightPath) : Flight :=
  { s with paths := Function.update s.paths j x }

/-- The queue of a space, from the newest packet on. -/
def queueList (s : Flight) (i : ℕ) : LinkedList ℕ where
  first := (s.contexts i).retransmitNewest
  last := (s.contexts i).retransmitOldest
  next a := (s.packets a).next
  previous a := (s.packets a).previous

/-- Other pointers of the queue. -/
def setQueueList (s : Flight) (i : ℕ) (L : LinkedList ℕ) : Flight :=
  { s with
    packets := fun a => { s.packets a with next := L.next a, previous := L.previous a }
    contexts := Function.update s.contexts i
      { s.contexts i with retransmitNewest := L.first, retransmitOldest := L.last } }

/-- The retransmitted packets of a space, from the newest on: here `next_packet` points to the newer
one. -/
def retransmittedList (s : Flight) (i : ℕ) : LinkedList ℕ where
  first := (s.contexts i).retransmittedNewest
  last := (s.contexts i).retransmittedOldest
  next a := (s.packets a).previous
  previous a := (s.packets a).next

/-- Other pointers of the retransmitted packets. -/
def setRetransmittedList (s : Flight) (i : ℕ) (L : LinkedList ℕ) : Flight :=
  { s with
    packets := fun a => { s.packets a with next := L.previous a, previous := L.next a }
    contexts := Function.update s.contexts i
      { s.contexts i with retransmittedNewest := L.first, retransmittedOldest := L.last } }

/-- The packets of a path, from the last one on. -/
def pathList (s : Flight) (j : ℕ) : LinkedList ℕ where
  first := (s.paths j).pathPacketLast
  last := (s.paths j).pathPacketFirst
  next a := (s.packets a).pathPrevious
  previous a := (s.packets a).pathNext

/-- Other pointers of the packets of a path. -/
def setPathList (s : Flight) (j : ℕ) (L : LinkedList ℕ) : Flight :=
  { s with
    packets := fun a => { s.packets a with pathNext := L.previous a, pathPrevious := L.next a }
    paths := Function.update s.paths j
      { s.paths j with pathPacketLast := L.first, pathPacketFirst := L.last } }

/-! ### Queues -/

/-- `picoquic_enqueue_packet_with_path`. -/
def enqueuePacketWithPath (s : Flight) (a : ℕ) : Flight :=
  match (s.packets a).sendPath with
  | none => s
  | some j =>
    (s.setPathList j ((s.pathList j).insertFront a)).setQueuedToPath a true

/-- The ends of a path whose only packet is taken out. -/
def clearPathEnds (x : FlightPath) (a : ℕ) : FlightPath :=
  { x with
    pathPacketFirst := if x.pathPacketFirst = some a then none else x.pathPacketFirst
    pathPacketLast := if x.pathPacketLast = some a then none else x.pathPacketLast }

/-- `picoquic_dequeue_packet_from_path`. -/
def dequeuePacketFromPath (s : Flight) (a : ℕ) : Flight :=
  match (s.packets a).sendPath with
  | none => s
  | some j =>
    if (s.packets a).isQueuedToPath = true then
      let s :=
        if (s.packets a).pathPrevious = none ∧ (s.packets a).pathNext = none then
          s.setPath j (clearPathEnds (s.paths j) a)
        else
          let s := s.setPathList j ((s.pathList j).remove a)
          s.setPacket a { s.packets a with pathPrevious := none, pathNext := none }
      s.setQueuedToPath a false
    else s

/-- The number space of a packet that is sent on a path. -/
def spaceOf (s : Flight) (isOneRtt : Bool) (pc j : ℕ) : ℕ :=
  if isOneRtt = true ∧ s.isMultipathEnabled = true then 3 + (s.paths j).cnxid else pc

/-- `picoquic_queue_for_retransmit`: the packet `p` gets the address `a`. -/
def queueForRetransmit (s : Flight) (j a : ℕ) (p : FlightPacket) (length : ℕ) : Flight :=
  let s := { s with inUse := a :: s.inUse }.setPacket a p
  let s := (s.setQueueList p.space ((s.queueList p.space).insertFront a)).setQueued a true
  let s := s.enqueuePacketWithPath a
  if p.isAckTrap = true then s
  else s.setPath j { s.paths j with bytesInTransit := (s.paths j).bytesInTransit + length }

/-- `picoquic_recycle_packet`. -/
def recyclePacket (s : Flight) (a : ℕ) : Flight :=
  { s with inUse := s.inUse.erase a }.setPacket a blankPacket

/-- The packet leaves the queue of its space. -/
def unqueue (s : Flight) (i a : ℕ) : Flight :=
  if (s.packets a).isQueuedForRetransmit = true then
    (s.setQueueList i ((s.queueList i).remove a)).setQueued a false
  else s

/-- The packet leaves the bytes in transit: a difference below zero is cut off. -/
def discharge (s : Flight) (a : ℕ) : Flight :=
  match (s.packets a).sendPath with
  | none => s
  | some j =>
    if (s.packets a).isAckTrap = true then s
    else
      s.setPath j
        { s.paths j with
          bytesInTransit := (s.paths j).bytesInTransit -
            ((s.packets a).length + (s.packets a).checksumOverhead) }

/-- A packet is added to the retransmitted ones. -/
def keepRetransmitted (s : Flight) (i a : ℕ) : Flight :=
  let L := s.retransmittedList i
  s.setRetransmittedList i
    (if L.last = none then { L with first := none }.insertFront a else L.insertFront a)

/-- `picoquic_dequeue_retransmit_packet`. -/
def dequeueRetransmitPacket (s : Flight) (i a : ℕ) (shouldFree : Bool) : Flight :=
  let s := ((s.unqueue i a).discharge a).dequeuePacketFromPath a
  if shouldFree = true ∨ (s.packets a).isAckTrap = true then s.recyclePacket a
  else s.keepRetransmitted i a

/-- `picoquic_dequeue_retransmitted_packet`. -/
def dequeueRetransmittedPacket (s : Flight) (i a : ℕ) : Flight :=
  (s.setRetransmittedList i ((s.retransmittedList i).remove a)).recyclePacket a

/-! ### What enters -/

/-- The functions that send packets. -/
inductive PrepareFunction
  | zeroRtt
  | clientInit
  | serverInit
  | closing
  | almostReady
  | ready

/-- What `picoquic_finalize_and_protect_packet` is called with, and what the protection finds. -/
structure Transmission where
  caller : PrepareFunction
  /-- The packet comes from `picoquic_prepare_packet_old_context`. -/
  isOldContext : Bool
  /-- Where the packet is kept. -/
  address : ℕ
  path : ℕ
  pc : ℕ
  isOneRtt : Bool
  sendTime : ℕ
  length : ℕ
  /-- The header length that was predicted. -/
  headerLength : ℕ
  /-- The length of the header that is written. -/
  writtenHeaderLength : ℕ
  /-- What the packet is changed to if there is a fuzzer, else its length. -/
  fuzzedLength : ℕ
  /-- `picoquic_get_checksum_length`, and what the encryption adds. -/
  aeadChecksumLength : ℕ

/-- The overhead the caller passes. In the two `init` functions a variable is set only if no packet
of an older context is sent. -/
def Transmission.checksumOverhead (x : Transmission) : ℕ :=
  match x.caller, x.isOldContext with
  | .clientInit, true => 16
  | .serverInit, true => 8
  | _, _ => x.aeadChecksumLength

/-- What `picoquic_protect_packet` returns. -/
def Transmission.sendLength (x : Transmission) : ℕ :=
  x.writtenHeaderLength + (x.fuzzedLength - x.headerLength) + x.aeadChecksumLength

/-- The next number of a space is taken. -/
def takeNumber (s : Flight) (i : ℕ) : Flight :=
  s.setContext i { s.contexts i with sendSequence := (s.contexts i).sendSequence + 1 }

/-- The packet that is queued. -/
def sentPacket (s : Flight) (x : Transmission) : FlightPacket :=
  { blankPacket with
    sendPath := some x.path
    sequenceNumber := (s.contexts (s.spaceOf x.isOneRtt x.pc x.path)).sendSequence
    sendTime := x.sendTime
    length := x.length
    checksumOverhead := x.checksumOverhead
    space := s.spaceOf x.isOneRtt x.pc x.path }

/-- `picoquic_finalize_and_protect_packet`: a packet that is shorter than its header is not
sent. -/
def finalizeAndProtectPacket (s : Flight) (x : Transmission) : Flight :=
  if x.length = 0 ∨ x.length < x.headerLength then s
  else
    let p := s.sentPacket x
    let s := s.takeNumber p.space
    if 0 < x.sendLength then s.queueForRetransmit x.path x.address p x.sendLength else s

/-- The packet that `picoquic_insert_hole_in_send_sequence_if_needed` queues. -/
def ackTrap (s : Flight) (j sendTime : ℕ) : FlightPacket :=
  { blankPacket with
    sendPath := some j
    sequenceNumber := (s.contexts (s.spaceOf true 0 j)).sendSequence
    sendTime := sendTime
    isAckTrap := true
    space := s.spaceOf true 0 j }

/-- `picoquic_insert_hole_in_send_sequence_if_needed`, where a hole is inserted. -/
def insertHoleInSendSequence (s : Flight) (a j sendTime : ℕ) : Flight :=
  let p := s.ackTrap j sendTime
  (s.takeNumber p.space).queueForRetransmit j a p 0

/-! ### What leaves -/

/-- The walk towards the newer packets, up to the first one that is not below `largest`. -/
def towardsNewer (s : Flight) (largest : ℕ) : ℕ → Option ℕ → Option ℕ
  | 0, a => a
  | _ + 1, none => none
  | fuel + 1, some a =>
    match (s.packets a).previous with
    | none => some a
    | some b =>
      if (s.packets a).sequenceNumber < largest then s.towardsNewer largest fuel (some b)
      else some a

/-- `picoquic_find_acked_packet`. When the largest number was acknowledged before, the oldest packet
is returned. -/
def findAckedPacket (s : Flight) (i largest : ℕ) : Flight × Option ℕ :=
  let c := s.contexts i
  if c.IsNewAck largest then
    (s.setContext i { c with highestAcknowledged := largest },
      s.towardsNewer largest s.inUse.length c.retransmitOldest)
  else (s, c.retransmitOldest)

/-- How `picoquic_process_ack_range` ends: the packet it has come to, and whether a trap was
acknowledged. -/
structure AckRangeResult where
  state : Flight
  packet : Option ℕ
  isError : Bool

/-- `picoquic_process_ack_range`. When `highest` is `0` the range is used up. -/
def processAckRange (i : ℕ) : ℕ → Flight → ℕ → ℕ → Option ℕ → AckRangeResult
  | 0, s, _, _, a => ⟨s, a, false⟩
  | _ + 1, s, _, _, none => ⟨s, none, false⟩
  | fuel + 1, s, highest, range, some a =>
    if range = 0 then ⟨s, some a, false⟩
    else if highest < (s.packets a).sequenceNumber then
      processAckRange i fuel s highest range (s.packets a).next
    else if (s.packets a).sequenceNumber = highest then
      if (s.packets a).isAckTrap = true then ⟨s, some a, true⟩
      else
        processAckRange i fuel (s.dequeueRetransmitPacket i a true) (highest - 1) (range - 1)
          (s.packets a).next
    else processAckRange i fuel s (highest - 1) (range - 1) (some a)

/-- The ranges of an acknowledgement, one after the other, each from the packet on where the one
before ended. -/
def processAckRanges (i : ℕ) : Flight → Option ℕ → List AckRange → Flight
  | s, _, [] => s
  | s, a, r :: ranges =>
    let x := processAckRange i (s.inUse.length + r.range) s r.highest r.range a
    if x.isError = true then x.state else processAckRanges i x.state x.packet ranges

/-- The part of `picoquic_decode_ack_frame` that takes packets out of the queue. -/
def processAckFrame (s : Flight) (i largest : ℕ) (ranges : List AckRange) : Flight :=
  if (s.contexts i).sendSequence ≤ largest then s
  else
    let top := s.findAckedPacket i largest
    processAckRanges i top.1 top.2 ranges

/-- A loop that takes packets out of the queue, each time after the next one was read. -/
def dequeueAlong (i : ℕ) : ℕ → Flight → Option ℕ → Flight
  | 0, s, _ => s
  | _ + 1, s, none => s
  | fuel + 1, s, some a =>
    dequeueAlong i fuel (s.dequeueRetransmitPacket i a true) (s.packets a).next

/-- `picoquic_implicit_handshake_ack`: the loop starts with the oldest packet. -/
def implicitHandshakeAck (s : Flight) (i : ℕ) : Flight :=
  dequeueAlong i s.inUse.length s (s.contexts i).retransmitOldest

/-- The queue is emptied from its newest end. -/
def emptyQueue (i : ℕ) : ℕ → Flight → Flight
  | 0, s => s
  | fuel + 1, s =>
    match (s.contexts i).retransmitNewest with
    | none => s
    | some a => emptyQueue i fuel (s.dequeueRetransmitPacket i a true)

/-- The retransmitted packets are dropped from their newest end. -/
def emptyRetransmitted (i : ℕ) : ℕ → Flight → Flight
  | 0, s => s
  | fuel + 1, s =>
    match (s.contexts i).retransmittedNewest with
    | none => s.setContext i { s.contexts i with retransmittedOldest := none }
    | some a => emptyRetransmitted i fuel (s.dequeueRetransmittedPacket i a)

/-- `picoquic_reset_packet_context`. -/
def resetPacketContext (s : Flight) (i : ℕ) : Flight :=
  let s := emptyQueue i (s.inUse.length + 1) s
  emptyRetransmitted i (s.inUse.length + 1) s

/-- `picoquic_remove_stashed_cnxid`: the context is freed, and the cursor with it. -/
def removeStashedCnxid (s : Flight) (cnxid : ℕ) : Flight :=
  let s := s.resetPacketContext (3 + cnxid)
  s.setContext (3 + cnxid) { s.contexts (3 + cnxid) with preemptiveRepeatPtr := none }

/-- The path of a packet is forgotten. -/
def forgetPath (s : Flight) (a : ℕ) : Flight :=
  s.setPacket a { s.packets a with sendPath := none }

/-- `picoquic_empty_path_packet_queue`, from a packet on. -/
def emptyPathPacketQueue : ℕ → Flight → Option ℕ → Flight
  | 0, s, _ => s
  | _ + 1, s, none => s
  | fuel + 1, s, some a =>
    emptyPathPacketQueue fuel ((s.dequeuePacketFromPath a).forgetPath a) (s.packets a).pathNext

/-- The loop of `picoquic_delete_path` over the retransmitted packets of a space. -/
def erasePath (j : ℕ) : ℕ → Flight → Option ℕ → Flight
  | 0, s, _ => s
  | _ + 1, s, none => s
  | fuel + 1, s, some a =>
    erasePath j fuel (if (s.packets a).sendPath = some j then s.forgetPath a else s)
      (s.packets a).previous

/-- The retransmitted packets of a space forget the path. -/
def erasePathIn (j : ℕ) (s : Flight) (i : ℕ) : Flight :=
  erasePath j s.inUse.length s (s.contexts i).retransmittedNewest

/-- `picoquic_delete_path`. Only the three contexts of the connection are searched. -/
def deletePath (s : Flight) (j : ℕ) : Flight :=
  let s := emptyPathPacketQueue s.inUse.length s (s.paths j).pathPacketFirst
  let s := [0, 1, 2].foldl (erasePathIn j) s
  { s with pathTable := s.pathTable.erase j }.setPath j ⟨none, none, 0, 0⟩

/-! ### The preemptive repeats -/

/-- How `picoquic_preemptive_retransmit_packet` ends for a packet. -/
inductive RepeatResult
  | fails
  | succeeds (hasData isRepeated : Bool)

/-- What `picoquic_preemptive_retransmit_in_context` is called with. -/
structure RepeatInput where
  rtt : ℕ
  currentTime : ℕ
  latestProgressTime : ℕ
  latestReceiveTime : ℕ
  testOnly : Bool
  result : ℕ → RepeatResult

/-- "Skip all packets that are too old to be repeated". -/
def skipOldPackets (s : Flight) (x : RepeatInput) : ℕ → Option ℕ → Option ℕ
  | 0, a => a
  | _ + 1, none => none
  | fuel + 1, some a =>
    if x.currentTime ≤ (s.packets a).sendTime + x.rtt / 2 then some a
    else s.skipOldPackets x fuel (s.packets a).previous

/-- `PICOQUIC_ACK_DELAY_MAX`. -/
abbrev ackDelayMax : ℕ := 10000

/-- The delay after which a packet is repeated. -/
def RepeatInput.earlyDelay (x : RepeatInput) : ℕ :=
  if 8 * ackDelayMax < x.rtt then x.rtt / 8 else ackDelayMax

/-- The loop that formats a repeat, and the packet it has come to. -/
def formatRepeat (x : RepeatInput) : ℕ → Flight → Option ℕ → Flight × Option ℕ
  | 0, s, a => (s, a)
  | _ + 1, s, none => (s, none)
  | fuel + 1, s, some a =>
    if (s.packets a).wasPreemptivelyRepeated = true then
      formatRepeat x fuel s (s.packets a).previous
    else if x.currentTime < (s.packets a).sendTime + x.earlyDelay ∨ x.testOnly = true then
      (s, some a)
    else
      match x.result a with
      | .fails => (s, some a)
      | .succeeds hasData isRepeated =>
        let s' :=
          if hasData = true ∧ isRepeated = true then
            s.setPacket a { s.packets a with wasPreemptivelyRepeated := true }
          else s
        if hasData = true then (s', (s.packets a).previous)
        else formatRepeat x fuel s' (s.packets a).previous

/-- `picoquic_preemptive_retransmit_in_context`. -/
def preemptiveRetransmitInContext (s : Flight) (i : ℕ) (x : RepeatInput) : Flight :=
  if x.latestProgressTime + x.rtt < x.currentTime ∨
      x.latestReceiveTime + 2 * x.rtt < x.currentTime then s
  else
    let a := ((s.contexts i).preemptiveRepeatPtr).or (s.contexts i).retransmitOldest
    let r := formatRepeat x (s.inUse.length + 1) s (s.skipOldPackets x (s.inUse.length + 1) a)
    r.1.setContext i { r.1.contexts i with preemptiveRepeatPtr := r.2 }

/-! ### Events -/

/-- What happens to the packets in flight. -/
inductive Event
  /-- The transport parameters of the peer arrive. -/
  | enableMultipath
  /-- `picoquic_create_path`. -/
  | createPath (path cnxid : ℕ)
  /-- The path gets another connection identifier of the peer. -/
  | renewConnectionId (path cnxid : ℕ)
  | transmit (x : Transmission)
  | insertHole (address path sendTime : ℕ)
  | ackFrame (space largest : ℕ) (ranges : List AckRange)
  /-- `picoquic_retransmit_needed_packet`, where a packet is declared lost. -/
  | declareLost (address : ℕ) (shouldFree : Bool)
  /-- A retransmitted packet is late, or too old to be. -/
  | dropRetransmitted (address : ℕ)
  | implicitHandshakeAck (space : ℕ)
  | resetPacketContext (space : ℕ)
  | removeStashedCnxid (cnxid : ℕ)
  | deletePath (path : ℕ)
  | preemptiveRetransmit (space : ℕ) (x : RepeatInput)

/-- One event. Packets are kept where none is, and sent on the paths of the table. -/
def step (s : Flight) : Event → Flight
  | .enableMultipath => { s with isMultipathEnabled := true }
  | .createPath j cnxid =>
    if j ∈ s.pathTable then s
    else { s with pathTable := j :: s.pathTable }.setPath j ⟨none, none, 0, cnxid⟩
  | .renewConnectionId j cnxid => s.setPath j { s.paths j with cnxid := cnxid }
  | .transmit x =>
    if x.address ∈ s.inUse ∨ x.path ∉ s.pathTable then s else s.finalizeAndProtectPacket x
  | .insertHole a j sendTime =>
    if a ∈ s.inUse ∨ j ∉ s.pathTable then s else s.insertHoleInSendSequence a j sendTime
  | .ackFrame i largest ranges => s.processAckFrame i largest ranges
  | .declareLost a shouldFree =>
    if a ∈ s.inUse ∧ (s.packets a).isQueuedForRetransmit = true then
      s.dequeueRetransmitPacket (s.packets a).space a shouldFree
    else s
  | .dropRetransmitted a =>
    if a ∈ s.inUse ∧ (s.packets a).isQueuedForRetransmit = false then
      s.dequeueRetransmittedPacket (s.packets a).space a
    else s
  | .implicitHandshakeAck i => s.implicitHandshakeAck i
  | .resetPacketContext i => s.resetPacketContext i
  | .removeStashedCnxid cnxid => s.removeStashedCnxid cnxid
  | .deletePath j => if j ∈ s.pathTable then s.deletePath j else s
  | .preemptiveRetransmit i x => s.preemptiveRetransmitInContext i x

/-- A new connection. `first` gives the initial number of each space. -/
def init (first : ℕ → ℕ) : Flight where
  isMultipathEnabled := false
  packets := fun _ => blankPacket
  inUse := []
  contexts := fun i => ⟨first i, sub64 (first i) 1, none, none, none, none, none⟩
  paths := fun _ => ⟨none, none, 0, 0⟩
  pathTable := []

/-- A run from a new connection. -/
def run (first : ℕ → ℕ) (evs : List Event) : Flight :=
  Runs.run step (init first) evs

end Flight

end Picoquic
