import Picoquic.Sack.List

/-!
# Acknowledgement contexts

Every number space in which packets are received has an acknowledgement context: the list of the
received numbers and, for plain and for opportunistic acknowledgements, what was sent and what is
still to be sent. With multipath every local connection ID has its own context.
-/

namespace Picoquic

/-- `picoquic_ack_context_track_t`, the part that receptions and acknowledgement frames use. -/
structure AckTracking where
  highestAckSent : ℕ
  highestAckSentTime : ℕ
  ackNeeded : Bool
  ackAfterFin : Bool
  outOfOrderReceived : Bool

/-- `picoquic_ack_context_t`, the part that receptions and acknowledgement frames use. The index
of `act` is `is_opportunistic`. -/
structure AckContext where
  sackList : SackList
  timeStampLargestReceived : ℕ
  act : Fin 2 → AckTracking
  ecnEct0TotalLocal : ℕ
  ecnEct1TotalLocal : ℕ
  ecnCeTotalLocal : ℕ
  sendingEcnAck : Bool

/-- `picoquic_record_pn_received`. -/
def recordPnReceived (ctx : AckContext) (pn currentTime : ℕ) : AckContext × ℕ :=
  let r := updateSackList ctx.sackList pn pn currentTime
  let last := sackListLast ctx.sackList
  let ctx' : AckContext :=
    if sackListIsEmpty ctx.sackList then { ctx with timeStampLargestReceived := currentTime }
    else if last < pn then
      { ctx with
        timeStampLargestReceived := currentTime
        act := fun i =>
          if u64 (last + 1) < pn then { ctx.act i with outOfOrderReceived := true } else ctx.act i }
    else
      { ctx with
        act := fun i =>
          if (ctx.act i).ackNeeded = true ∧ pn < (ctx.act i).highestAckSent then
            { ctx.act i with outOfOrderReceived := true }
          else ctx.act i }
  ({ ctx' with sackList := r.1 }, r.2)

end Picoquic
