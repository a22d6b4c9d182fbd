import Mathlib.Data.List.Basic
import Picoquic.Basic

/-!
# Packet contexts

Every number space has a packet context with the packets that were sent and not acknowledged yet
(the retransmit queue) and those that were declared lost (the retransmitted list). Both are
doubly linked lists, given here as lists:

* the **retransmit queue** from `retransmit_newest` on, so `next_packet` goes to the next
  element and `previous_packet` to the one before;
* the **retransmitted list** from `retransmitted_newest` on, where `previous_packet` goes to the
  next element.

What a packet carries is a parameter `φ`: acknowledgement processing hands it over to the frame
handlers and never looks inside. Memory is not modelled; a packet is known by its context and its
sequence number.
-/

namespace Picoquic

/-- A packet number space: the context of an epoch, or with multipath that of a remote
connection ID, known by its sequence number. -/
inductive ContextKey
  | epoch (pc : Fin 3)
  | remoteCnxid (sequence : ℕ)
  deriving DecidableEq

/-- `picoquic_packet_t`. -/
structure Packet (φ : Type) where
  sequenceNumber : ℕ
  context : ContextKey
  sendPath : Option ℕ
  pathPacketNumber : ℕ
  sendTime : ℕ
  length : ℕ
  checksumOverhead : ℕ
  isAckTrap : Bool
  frames : φ
  deriving DecidableEq

/-- `picoquic_path_t`, the part that sending and acknowledging packets touches. The list of the
packets sent on the path holds their contexts and sequence numbers. -/
structure PathX where
  bytesInTransit : ℕ
  isCcDataUpdated : Bool
  packets : List (ContextKey × ℕ)
  delivered : ℕ
  isAckLost : Bool
  isAckExpected : Bool
  pathPacketAckedNumber : ℕ
  pathPacketAckedTimeSent : ℕ
  pathPacketAckedReceived : ℕ
  nbRetransmit : ℕ
  sendMtu : ℕ
  sendMtuMaxTried : ℕ
  nbMtuLosses : ℕ
  mtuProbeSent : Bool
  nbSpurious : ℕ
  maxSpuriousRtt : ℕ
  maxReorderDelay : ℕ
  maxReorderGap : ℕ
  nbLossesFound : ℕ
  totalBytesLost : ℕ

/-- `picoquic_packet_context_t`. `highestAcknowledged` starts at `UINT64_MAX`. -/
structure PacketContext (φ : Type) where
  sendSequence : ℕ
  highestAcknowledged : ℕ
  latestTimeAcknowledged : ℕ
  highestAcknowledgedTime : ℕ
  retransmitQueue : List (Packet φ)
  retransmitted : List (Packet φ)
  ecnEct0TotalRemote : ℕ
  ecnEct1TotalRemote : ℕ
  ecnCeTotalRemote : ℕ
  ackOfAckRequested : Bool

/-- The paths of a connection. -/
abbrev Paths : Type := ℕ → PathX

variable {φ : Type}

/-- Update the path a packet was sent on, if it still has one. -/
def Packet.onSendPath (p : Packet φ) (f : PathX → PathX) (paths : Paths) : Paths :=
  match p.sendPath with
  | none => paths
  | some path => Function.update paths path (f (paths path))

/-- The path's side of `picoquic_dequeue_retransmit_packet`: the bytes are not in transit any
more (an acknowledgement trap never was), and the packet leaves the list of its path. -/
def Packet.leavePath (p : Packet φ) : Paths → Paths :=
  p.onSendPath fun path =>
    let path :=
      if p.isAckTrap then path
      else
        { path with
          bytesInTransit := path.bytesInTransit - (p.length + p.checksumOverhead)
          isCcDataUpdated := true }
    { path with packets := path.packets.erase (p.context, p.sequenceNumber) }

end Picoquic
