import Picoquic.Frames.Decode

/-!
# Data from the application

The application adds data to a stream, and may mark their end. A stream that does not exist yet is
created, with all the streams of its type before it, if it is one of those that this side opens. A
call that fails should leave the stream as it is, but the end is noted first, and whether data may
be sent at all is looked at afterwards.

* **`WriteCnx.addToStreamWithCtx`** — the call;
* **`WriteCnx.createMissingStreams`** — the streams that it creates;
* **`WriteCnx.findStreamForWriting_spec`** — the stream that it finds, and what else changes;
* **`failureKeeps_iff`** — exactly when a call that fails leaves all streams as they are.

Whether memory is available is part of a call. The tree of streams is a function, and the lists
that a connection is in (of those to wake up, and the output list of its streams) are left out.
-/

namespace Picoquic

/-! ### Data -/

/-- `picoquic_stream_queue_node_t`: data in the queue, of which some were sent. -/
structure QueueNode where
  bytes : List UInt8
  offset : ℕ
  deriving DecidableEq

/-- `picoquic_stream_head_t`, the part that creating a stream and writing to it touch. -/
structure WriteStream where
  streamId : ℕ
  maxdataLocal : ℕ
  maxdataRemote : ℕ
  sentOffset : ℕ
  sendQueue : List QueueNode
  appStreamCtx : Option ℕ
  isActive : Bool
  isOutputStream : Bool
  finRequested : Bool
  finSent : Bool
  resetRequested : Bool
  resetSent : Bool
  stopSendingReceived : Bool

/-- `picoquic_cnx_t`, the part that writing to streams touches. -/
structure WriteCnx where
  clientMode : Bool
  localParameters : TransportParameters
  remoteParameters : TransportParameters
  streams : ℕ → Option WriteStream
  /-- First identifier not used yet, for the four types of streams. -/
  nextStreamId : ℕ → ℕ
  maxStreamIdBidirRemote : ℕ
  maxStreamIdUnidirRemote : ℕ
  nbBytesQueued : ℕ
  localError : Option ℕ
  nextStreamId_mod : ∀ id, nextStreamId (streamTypeFromId id) % 4 = streamTypeFromId id
  streams_of_next_le : ∀ id, nextStreamId (streamTypeFromId id) ≤ id → streams id = none

/-- Whether there is memory for a stream, for a node of a queue, and for the data in it. -/
structure WriteMemory where
  stream : ℕ → Bool
  node : Bool
  data : Bool

/-- Why a call fails. -/
inductive WriteError
  /-- `-1`. -/
  | failed
  /-- `PICOQUIC_ERROR_INVALID_STREAM_ID`. -/
  | invalidStreamId
  /-- `PICOQUIC_ERROR_MEMORY`. -/
  | memory

/-- `PICOQUIC_TRANSPORT_INTERNAL_ERROR`. -/
def transportInternalError : ℕ := 0x1

/-- `PICOQUIC_TRANSPORT_STREAM_STATE_ERROR`. -/
def transportStreamStateError : ℕ := 0x5

namespace WriteCnx

/-! ### Streams that do not exist yet -/

/-- `picoquic_connection_error`. -/
def connectionError (c : WriteCnx) (e : ℕ) : WriteCnx :=
  { c with localError := some (c.localError.getD e) }

/-- The stream that `picoquic_create_stream` sets up. -/
def newStream (c : WriteCnx) (streamId : ℕ) : WriteStream :=
  let isLocal := isLocalStreamId streamId c.clientMode
  let bidir := isBidirStreamId streamId
  { streamId := streamId
    maxdataLocal :=
      if isLocal then if bidir then c.localParameters.initialMaxStreamDataBidiLocal else 0
      else if bidir then c.localParameters.initialMaxStreamDataBidiRemote
      else c.localParameters.initialMaxStreamDataUni
    maxdataRemote :=
      if isLocal then
        if bidir then c.remoteParameters.initialMaxStreamDataBidiRemote
        else c.remoteParameters.initialMaxStreamDataUni
      else if bidir then c.remoteParameters.initialMaxStreamDataBidiLocal else 0
    sentOffset := 0
    sendQueue := []
    appStreamCtx := none
    isActive := false
    isOutputStream :=
      if isLocal then
        decide (streamId ≤
          if bidir then c.maxStreamIdBidirRemote else c.maxStreamIdUnidirRemote)
      else bidir
    finRequested := false
    finSent := false
    resetRequested := false
    resetSent := false
    stopSendingReceived := false }

/-- The next identifier of the type of a stream. -/
def nextOf (c : WriteCnx) (streamId : ℕ) : ℕ := c.nextStreamId (streamTypeFromId streamId)

theorem nextOf_mod (c : WriteCnx) (streamId : ℕ) : c.nextOf streamId % 4 = streamId % 4 :=
  c.nextStreamId_mod streamId

/-- `picoquic_create_stream`, for the next identifier of the type of `streamId`. A new stream is
not closed, so that it is not deleted at once. -/
def createStream (c : WriteCnx) (streamId : ℕ) : WriteCnx :=
  { c with
    streams := Function.update c.streams (c.nextOf streamId)
      (some (c.newStream (c.nextOf streamId)))
    nextStreamId :=
      Function.update c.nextStreamId (streamTypeFromId streamId) (c.nextOf streamId + 4)
    nextStreamId_mod := fun id => by
      rcases eq_or_ne (streamTypeFromId id) (streamTypeFromId streamId) with h | h
      · rw [h, Function.update_self, Nat.add_mod_right]
        exact c.nextStreamId_mod streamId
      · rw [Function.update_of_ne h]
        exact c.nextStreamId_mod id
    streams_of_next_le := fun id hid => by
      have hmod := c.nextOf_mod streamId
      rcases eq_or_ne (streamTypeFromId id) (streamTypeFromId streamId) with h | h
      · rw [h, Function.update_self] at hid
        rw [Function.update_of_ne (by omega)]
        refine c.streams_of_next_le id ?_
        rw [h]
        exact le_trans (Nat.le_add_right _ 4) hid
      · have hne : id ≠ c.nextOf streamId := by
          rintro rfl
          exact h hmod
        rw [Function.update_of_ne h] at hid
        rw [Function.update_of_ne hne]
        exact c.streams_of_next_le id hid }

@[simp]
theorem nextOf_createStream (c : WriteCnx) (streamId : ℕ) :
    (c.createStream streamId).nextOf streamId = c.nextOf streamId + 4 :=
  Function.update_self ..

/-- The loop of `picoquic_create_missing_streams`, and whether there was memory for all streams. -/
def createStreams (mem : WriteMemory) (streamId : ℕ) (c : WriteCnx) : WriteCnx × Bool :=
  if c.nextOf streamId ≤ streamId then
    if mem.stream (c.nextOf streamId) then createStreams mem streamId (c.createStream streamId)
    else (c.connectionError transportInternalError, false)
  else (c, true)
termination_by streamId + 1 - c.nextOf streamId
decreasing_by
  rw [nextOf_createStream]
  omega

/-- `picoquic_create_missing_streams` for a stream that this side opens, and whether it exists
then. -/
def createMissingStreams (mem : WriteMemory) (c : WriteCnx) (streamId : ℕ) : WriteCnx × Bool :=
  if isClientStreamId streamId ≠ c.clientMode then
    (c.connectionError transportStreamLimitError, false)
  else if streamId < c.nextOf streamId then (c.connectionError transportStreamStateError, false)
  else c.createStreams mem streamId

/-- `picoquic_find_stream_for_writing`. -/
def findStreamForWriting (mem : WriteMemory) (c : WriteCnx) (streamId : ℕ) :
    WriteCnx × Except WriteError WriteStream :=
  match c.streams streamId with
  | some stream => (c, .ok stream)
  | none =>
    if isClientStreamId streamId ≠ c.clientMode then (c, .error .invalidStreamId)
    else
      match c.createMissingStreams mem streamId with
      | (c, false) => (c, .error .memory)
      | (c, true) => (c, (c.streams streamId).elim (.error .memory) .ok)

/-! ### Adding data -/

/-- The stream is replaced by what it has become. -/
def setStream (c : WriteCnx) (streamId : ℕ) (stream : WriteStream) : WriteCnx :=
  { c with
    streams := fun id => if id = streamId then (c.streams id).map fun _ => stream else c.streams id
    streams_of_next_le := fun id hid => by
      rw [c.streams_of_next_le id hid]
      split_ifs <;> rfl }

end WriteCnx

/-- The end of the data is noted, unless it was before. -/
def WriteStream.noteFin (s : WriteStream) (setFin : Bool) (length : ℕ) :
    WriteStream × Option WriteError :=
  if setFin then
    if s.finRequested then (s, if 0 < length then some .failed else none)
    else ({ s with finRequested := true }, none)
  else (s, none)

/-- The data are appended to the queue, if there is memory for them. -/
def WriteStream.enqueue (mem : WriteMemory) (s : WriteStream) (data : List UInt8) :
    WriteStream × Option WriteError :=
  if 0 < data.length then
    if mem.node && mem.data then ({ s with sendQueue := s.sendQueue ++ [⟨data, 0⟩] }, none)
    else (s, some .failed)
  else (s, none)

/-- The part of `picoquic_add_to_stream_with_ctx` that works on the stream it found. -/
def WriteStream.add (mem : WriteMemory) (s : WriteStream) (data : List UInt8) (setFin : Bool) :
    WriteStream × Option WriteError :=
  match s.noteFin setFin data.length with
  | (s, some e) => (s, some e)
  | (s, none) =>
    -- nothing is sent any more after a RESET_STREAM or a STOP_SENDING frame
    if s.resetSent || s.stopSendingReceived then (s, some .failed) else s.enqueue mem data

/-- `picoquic_add_to_stream_with_ctx`: the connection, and the error. -/
def WriteCnx.addToStreamWithCtx (mem : WriteMemory) (c : WriteCnx) (streamId : ℕ)
    (data : List UInt8) (setFin : Bool) (appStreamCtx : Option ℕ) :
    WriteCnx × Option WriteError :=
  match c.findStreamForWriting mem streamId with
  | (c, .error e) => (c, some e)
  | (c, .ok stream) =>
    match stream.add mem data setFin with
    | (stream, some e) => (c.setStream streamId stream, some e)
    | (stream, none) =>
      ({ c.setStream streamId { stream with isActive := false, appStreamCtx := appStreamCtx } with
        nbBytesQueued := c.nbBytesQueued + data.length }, none)

/-! ### What a call that fails must leave -/

/-- The queue of a stream, its offset, and what was asked for. A stream that does not exist has
nothing in its queue. -/
def WriteStream.pending (s : Option WriteStream) : List QueueNode × ℕ × Bool × Bool :=
  s.elim ([], 0, false, false) fun s =>
    (s.sendQueue, s.sentOffset, s.finRequested, s.resetRequested)

open WriteStream (pending)

/-- If the call fails, all streams are left as they are. -/
def FailureKeeps (mem : WriteMemory) (c : WriteCnx) (streamId : ℕ) (data : List UInt8)
    (setFin : Bool) (appStreamCtx : Option ℕ) : Prop :=
  (c.addToStreamWithCtx mem streamId data setFin appStreamCtx).2.isSome = true →
    ∀ id, pending ((c.addToStreamWithCtx mem streamId data setFin appStreamCtx).1.streams id) =
      pending (c.streams id)

/-- A stream that does not exist can be created: it is one of those that this side opens, was not
created before, and there is memory for it and those before it. -/
def WriteCnx.Creatable (c : WriteCnx) (mem : WriteMemory) (streamId : ℕ) : Prop :=
  isClientStreamId streamId = c.clientMode ∧ c.nextOf streamId ≤ streamId ∧
    ∀ id, c.nextOf streamId ≤ id → id ≤ streamId → id % 4 = streamId % 4 → mem.stream id = true

/-- The stream does not take the data: the peer or this side has stopped it, or there is no memory
for them. -/
def WriteStream.Rejects (s : WriteStream) (mem : WriteMemory) (data : List UInt8) : Prop :=
  (s.resetSent || s.stopSendingReceived) = true ∨ 0 < data.length ∧ (mem.node && mem.data) = false

/-- The end of the data is noted in a stream that does not take them. -/
def WriteCnx.FinInVain (c : WriteCnx) (mem : WriteMemory) (streamId : ℕ) (data : List UInt8)
    (setFin : Bool) : Prop :=
  setFin = true ∧
    match c.streams streamId with
    | some s => s.finRequested = false ∧ s.Rejects mem data
    | none => c.Creatable mem streamId ∧ (c.newStream streamId).Rejects mem data

namespace WriteCnx

variable {mem : WriteMemory} {c : WriteCnx} {streamId : ℕ}

theorem pending_createStream (c : WriteCnx) (streamId id : ℕ) :
    pending ((c.createStream streamId).streams id) = pending (c.streams id) := by
  rcases eq_or_ne id (c.nextOf streamId) with rfl | hne
  · have hnone : c.streams (c.nextOf streamId) = none := by
      refine c.streams_of_next_le _ (le_of_eq ?_)
      rw [show streamTypeFromId (c.nextOf streamId) = streamTypeFromId streamId from
        c.nextOf_mod streamId, nextOf]
    rw [hnone, show (c.createStream streamId).streams (c.nextOf streamId) =
      some (c.newStream (c.nextOf streamId)) from Function.update_self ..]
    rfl
  · rw [show (c.createStream streamId).streams id = c.streams id from Function.update_of_ne hne ..]

/-- The loop changes nothing of the streams that exist, and goes through if there is memory. -/
theorem createStreams_spec (mem : WriteMemory) (streamId : ℕ) (c : WriteCnx) :
    (∀ id, pending ((c.createStreams mem streamId).1.streams id) = pending (c.streams id)) ∧
    ((c.createStreams mem streamId).2 = true ↔
      ∀ id, c.nextOf streamId ≤ id → id ≤ streamId → id % 4 = streamId % 4 →
        mem.stream id = true) ∧
    (c.nextOf streamId ≤ streamId → (c.createStreams mem streamId).2 = true →
      (c.createStreams mem streamId).1.streams streamId = some (c.newStream streamId)) := by
  induction c using createStreams.induct mem streamId with
  | case1 c hle hmem ih =>
    obtain ⟨hkeep, hok, hnew⟩ := ih
    have hmod := c.nextOf_mod streamId
    rw [createStreams, if_pos hle, if_pos hmem]
    rw [nextOf_createStream] at hok hnew
    refine ⟨fun id => (hkeep id).trans (pending_createStream c streamId id), hok.trans ?_, ?_⟩
    · refine ⟨fun h id hid => ?_, fun h id hid => h id (by omega)⟩
      rcases Nat.lt_or_ge id (c.nextOf streamId + 4) with hlt | hge
      · intro _ hid'
        rwa [show id = c.nextOf streamId by omega]
      · exact h id hge
    · intro _ htrue
      rcases Nat.lt_or_ge streamId (c.nextOf streamId + 4) with hlt | hge
      · -- this was the last round
        have hlast : c.nextOf streamId = streamId := by omega
        rw [createStreams, nextOf_createStream, if_neg (by omega)]
        show Function.update c.streams (c.nextOf streamId) _ streamId = _
        rw [hlast, Function.update_self]
      · exact hnew hge htrue
  | case2 c hle hmem =>
    rw [createStreams, if_pos hle, if_neg hmem]
    refine ⟨fun _ => rfl, iff_of_false Bool.false_ne_true fun h => hmem ?_, fun _ h => nomatch h⟩
    exact h _ le_rfl hle (c.nextOf_mod streamId)
  | case3 c hlt =>
    rw [createStreams, if_neg hlt]
    refine ⟨fun _ => rfl, iff_of_true rfl fun id hid hid' => ?_, fun h => absurd h hlt⟩
    omega

/-- What is found: a stream that exists, or one that is created. Nothing else changes. -/
theorem findStreamForWriting_spec (mem : WriteMemory) (c : WriteCnx) (streamId : ℕ) :
    (∀ id, pending ((c.findStreamForWriting mem streamId).1.streams id) = pending (c.streams id)) ∧
    ((∃ s, (c.findStreamForWriting mem streamId).2 = .ok s ∧
        (c.findStreamForWriting mem streamId).1.streams streamId = some s ∧
        (c.streams streamId = some s ∨
          c.streams streamId = none ∧ c.Creatable mem streamId ∧ s = c.newStream streamId)) ∨
      (∃ e, (c.findStreamForWriting mem streamId).2 = .error e) ∧
        c.streams streamId = none ∧ ¬c.Creatable mem streamId) := by
  rw [findStreamForWriting]
  rcases hs : c.streams streamId with _ | s
  · by_cases hlocal : isClientStreamId streamId = c.clientMode
    · obtain ⟨hkeep, hok, hnew⟩ := createStreams_spec mem streamId c
      simp only [createMissingStreams, hlocal, ne_eq, not_true_eq_false, if_false]
      by_cases hold : streamId < c.nextOf streamId
      · rw [if_pos hold]
        exact ⟨fun _ => rfl, Or.inr ⟨⟨_, rfl⟩, trivial, fun h => absurd h.2.1 hold.not_ge⟩⟩
      · rw [if_neg hold]
        have hle : c.nextOf streamId ≤ streamId := Nat.le_of_not_lt hold
        rcases hcreate : c.createStreams mem streamId with ⟨c', created⟩
        rw [hcreate] at hkeep hok hnew
        rcases created with _ | _
        · exact ⟨hkeep, Or.inr ⟨⟨_, rfl⟩, trivial, fun h => Bool.false_ne_true (hok.mpr h.2.2)⟩⟩
        · have hstream : c'.streams streamId = some (c.newStream streamId) := hnew hle rfl
          refine ⟨hkeep, Or.inl ⟨c.newStream streamId, ?_, hstream, Or.inr ⟨trivial, ?_, rfl⟩⟩⟩
          · show (c'.streams streamId).elim _ _ = _
            rw [hstream, Option.elim_some]
          · exact ⟨hlocal, hle, hok.mp rfl⟩
    · simp only [ne_eq, hlocal, not_false_eq_true, if_true]
      exact ⟨fun _ => trivial, Or.inr ⟨⟨_, rfl⟩, trivial, fun h => hlocal h.1⟩⟩
  · exact ⟨fun _ => rfl, Or.inl ⟨s, rfl, hs, Or.inl rfl⟩⟩

theorem pending_setStream {s : WriteStream} (hs : c.streams streamId = some s) (s' : WriteStream)
    (id : ℕ) : pending ((c.setStream streamId s').streams id) =
      if id = streamId then pending (some s') else pending (c.streams id) := by
  show pending (if id = streamId then (c.streams id).map fun _ => s' else c.streams id) = _
  split_ifs with h
  · rw [h, hs, Option.map_some]
  · rfl

end WriteCnx

/-- A stream that does not take the data is left as it is unless their end is noted. -/
theorem WriteStream.add_keeps_iff (mem : WriteMemory) (s : WriteStream) (data : List UInt8)
    (setFin : Bool) :
    ((s.add mem data setFin).2.isSome = true →
        pending (some (s.add mem data setFin).1) = pending (some s)) ↔
      ¬(setFin = true ∧ s.finRequested = false ∧ s.Rejects mem data) := by
  rcases setFin with _ | _
  · refine iff_of_true ?_ fun h => Bool.false_ne_true h.1
    rw [add, noteFin, if_neg Bool.false_ne_true]
    dsimp only [enqueue]
    split_ifs <;> simp
  · rcases hfin : s.finRequested with _ | _
    · -- the end is noted now, so that an error comes too late
      have hadd : (s.add mem data true).2.isSome = true ↔ s.Rejects mem data := by
        rw [add, noteFin, if_pos rfl, hfin, if_neg Bool.false_ne_true, Rejects]
        dsimp only [enqueue]
        split_ifs <;> simp_all
      have hnoted : pending (some (s.add mem data true).1) ≠ pending (some s) := by
        have hflag : (s.add mem data true).1.finRequested = true := by
          rw [add, noteFin, if_pos rfl, hfin, if_neg Bool.false_ne_true]
          dsimp only [enqueue]
          split_ifs <;> rfl
        intro h
        have hsame : (s.add mem data true).1.finRequested = s.finRequested :=
          congrArg (fun x => x.2.2.1) h
        rw [hflag, hfin] at hsame
        exact Bool.false_ne_true hsame.symm
      rw [hadd]
      exact ⟨fun h hr => hnoted (h hr.2.2), fun h hr => absurd ⟨rfl, rfl, hr⟩ h⟩
    · refine iff_of_true ?_ fun h => Bool.false_ne_true h.2.1.symm
      rw [add, noteFin, if_pos rfl, if_pos hfin]
      by_cases hlen : 0 < data.length
      · rw [if_pos hlen]
        exact fun _ => rfl
      · rw [if_neg hlen]
        dsimp only [enqueue]
        rw [if_neg hlen]
        split_ifs <;> exact fun _ => rfl

/-- **Failed writes.** A call that fails leaves all streams as they are exactly if it does not note
the end of the data in a stream that does not take them. -/
theorem failureKeeps_iff (mem : WriteMemory) (c : WriteCnx) (streamId : ℕ) (data : List UInt8)
    (setFin : Bool) (appStreamCtx : Option ℕ) :
    FailureKeeps mem c streamId data setFin appStreamCtx ↔
      ¬c.FinInVain mem streamId data setFin := by
  obtain ⟨hkeep, hfind⟩ := c.findStreamForWriting_spec mem streamId
  rcases hr : c.findStreamForWriting mem streamId with ⟨c', r⟩
  rw [hr] at hkeep hfind
  rw [FailureKeeps, WriteCnx.addToStreamWithCtx, hr, WriteCnx.FinInVain]
  rcases hfind with ⟨s, rfl, hs, hbefore⟩ | ⟨⟨e, rfl⟩, hnone, hcreate⟩
  · -- what is noted is noted in the stream that was found
    have hvain : (setFin = true ∧
        match c.streams streamId with
        | some s => s.finRequested = false ∧ s.Rejects mem data
        | none => c.Creatable mem streamId ∧ (c.newStream streamId).Rejects mem data) ↔
        setFin = true ∧ s.finRequested = false ∧ s.Rejects mem data := by
      rcases hbefore with hs' | ⟨hnone, hcreate, rfl⟩
      · rw [hs']
      · rw [hnone]
        exact and_congr_right' ⟨fun h => ⟨rfl, h.2⟩, fun h => ⟨hcreate, h.2⟩⟩
    rw [hvain, ← s.add_keeps_iff]
    dsimp only at hkeep hs ⊢
    rcases hadd : s.add mem data setFin with ⟨s', _ | e⟩ <;> dsimp only
    · exact iff_of_true (fun h => absurd h Bool.false_ne_true)
        fun h => absurd h Bool.false_ne_true
    · have hstream : pending (some s) = pending (c.streams streamId) := by
        rw [← hs, hkeep streamId]
      refine ⟨fun h _ => ?_, fun h _ id => ?_⟩
      · have hid := h rfl streamId
        rwa [WriteCnx.pending_setStream hs, if_pos rfl, ← hstream] at hid
      · rw [WriteCnx.pending_setStream hs]
        split_ifs with hid
        · rw [h rfl, hstream, hid]
        · exact hkeep id
  · rw [hnone]
    exact iff_of_true (fun _ => hkeep) fun h => hcreate h.2.1

/-- A client with a stream for which it received STOP_SENDING. -/
def stoppedCnx : WriteCnx where
  clientMode := true
  localParameters := ⟨0, 0, 0, 0⟩
  remoteParameters := ⟨0, 0, 0, 0⟩
  streams := fun id =>
    if id = 0 then
      some { streamId := 0, maxdataLocal := 65536, maxdataRemote := 65536, sentOffset := 0,
             sendQueue := [], appStreamCtx := none, isActive := false, isOutputStream := true,
             finRequested := false, finSent := false, resetRequested := false, resetSent := false,
             stopSendingReceived := true }
    else none
  nextStreamId := fun t => if t = 0 then 4 else t
  maxStreamIdBidirRemote := 400
  maxStreamIdUnidirRemote := 402
  nbBytesQueued := 0
  localError := none
  nextStreamId_mod := fun id => by
    rw [streamTypeFromId]
    split_ifs <;> omega
  streams_of_next_le := fun id hid => by
    rw [if_neg]
    rintro rfl
    exact absurd hid (by decide)

/-- **The end is noted.** The application ends the stream that the peer has stopped: the call fails,
and `fin_requested` is set all the same. -/
theorem fin_noted_after_stop :
    let mem : WriteMemory := ⟨fun _ => true, true, true⟩
    (stoppedCnx.addToStreamWithCtx mem 0 [] true none).2 = some .failed ∧
      ((stoppedCnx.addToStreamWithCtx mem 0 [] true none).1.streams 0).map
        WriteStream.finRequested = some true ∧
      ¬FailureKeeps mem stoppedCnx 0 [] true none :=
  ⟨rfl, rfl, fun h => absurd (h rfl 0) (by decide)⟩

end Picoquic
