import Picoquic.ForMathlib.Runs
import Picoquic.Stream.Receive

/-!
# What an event does to a stream

The frame decoders find or create a stream, check the frame and store the changed stream. The
results of this file say once what can come out, so that no later proof looks into them:

* **`flowControlCheck_eq`** — the check against the limits, as one inequality for each limit;
* **`streamNetworkInput_cases`**, **`decodeStreamResetFrame_cases`** — a frame is ignored,
  refused with an error, or accepted;
* **`StreamInvariant.step`** — a property that survives every change of a single stream holds of
  all streams, and of the deleted ones, after any event.
-/

namespace Picoquic

open Runs

/-! ### Storing a stream -/

/-- All streams, those that were deleted included. -/
def Cnx.everyStream (c : Cnx) : List StreamHead := c.streams ++ c.gone

variable {c : Cnx} {s : StreamHead} {id : ℕ} {r : StreamHead}

theorem Cnx.mem_of_findStream (h : c.findStream id = some s) : s ∈ c.streams ∧ s.streamId = id :=
  ⟨List.mem_of_find?_eq_some h, by simpa using List.find?_some h⟩

theorem Cnx.mem_putStream {s r : StreamHead} (h : r ∈ (c.putStream s).streams) :
    r = s ∨ r ∈ c.streams := by
  obtain ⟨r', hr', hif⟩ := List.mem_map.mp h
  split_ifs at hif
  · exact Or.inl hif.symm
  · exact Or.inr (hif ▸ hr')

/-- A stream with its closing noted. -/
def StreamHead.noteClosed (s : StreamHead) (clientMode : Bool) : StreamHead :=
  if !s.isClosed && s.isStreamClosed clientMode then { s with isClosed := true } else s

theorem Cnx.mem_deleteStreamIfClosed {s r : StreamHead}
    (h : r ∈ (c.deleteStreamIfClosed s).everyStream) :
    r = s.noteClosed c.clientMode ∨ r ∈ c.everyStream := by
  rw [deleteStreamIfClosed, ← StreamHead.noteClosed] at h
  split_ifs at h
  · rcases List.mem_append.mp h with hr | hr
    · exact Or.inr (List.mem_append_left _ (List.mem_of_mem_filter hr))
    · rcases List.mem_append.mp hr with hr | hr
      · exact Or.inr (List.mem_append_right _ hr)
      · exact Or.inl (List.mem_singleton.mp hr)
  · rcases List.mem_append.mp h with hr | hr
    · exact (mem_putStream hr).imp_right fun hr => List.mem_append_left _ hr
    · exact Or.inr (List.mem_append_right _ hr)

/-- The end of `picoquic_stream_network_input`: a stream whose end was signalled may go. -/
def Cnx.store (c : Cnx) (s : StreamHead) : Cnx :=
  if s.finSignalled then c.deleteStreamIfClosed s
  else
    { c.putStream s with
      maxStreamDataNeeded := c.maxStreamDataNeeded || (!s.finReceived && !s.resetReceived &&
        decide (s.maxdataLocal < u64 (2 * s.consumedOffset))) }

/-! ### New streams -/

/-- A stream as it is created. -/
def StreamHead.IsNew (s : StreamHead) : Prop := ∃ (c : Cnx) (id : ℕ), s = c.newStream id

theorem Cnx.mem_createStream (h : r ∈ (c.createStream id).streams) :
    r = c.newStream id ∨ r ∈ c.streams := by
  rw [createStream, List.mem_orderedInsert] at h
  exact h

theorem Cnx.mem_createStreams {type n : ℕ} (h : r ∈ (c.createStreams type n).streams) :
    r.IsNew ∨ r ∈ c.streams := by
  induction n generalizing c with
  | zero => exact Or.inr h
  | succ n ih =>
    rcases ih h with hnew | hr
    · exact Or.inl hnew
    · exact (mem_createStream hr).imp_left fun h => ⟨c, _, h⟩

@[simp]
theorem Cnx.createStreams_frame (c : Cnx) (type n : ℕ) :
    (c.createStreams type n).gone = c.gone ∧ (c.createStreams type n).error = c.error ∧
      (c.createStreams type n).clientMode = c.clientMode ∧
      (c.createStreams type n).dataReceived = c.dataReceived ∧
      (c.createStreams type n).maxdataLocal = c.maxdataLocal := by
  induction n generalizing c with
  | zero => exact ⟨rfl, rfl, rfl, rfl, rfl⟩
  | succ n ih => exact ih _

/-- Creating streams adds new ones, or raises an error and adds none. -/
theorem Cnx.createMissingStreams_cases (c : Cnx) (id : ℕ) (isRemote : Bool) :
    c.createMissingStreams id isRemote = c ∨
      (∃ e, c.createMissingStreams id isRemote = c.connectionError e) ∨
      ∃ n, c.createMissingStreams id isRemote = c.createStreams (streamTypeFromId id) n := by
  rw [createMissingStreams]
  split_ifs
  all_goals first
    | exact Or.inl rfl
    | exact Or.inr (Or.inl ⟨_, rfl⟩)
    | exact Or.inr (Or.inr ⟨_, rfl⟩)

/-- The streams of a connection after a stream was looked up. -/
theorem Cnx.mem_findOrCreateStream {isRemote : Bool}
    (h : r ∈ (c.findOrCreateStream id isRemote).1.everyStream) : r.IsNew ∨ r ∈ c.everyStream := by
  rw [findOrCreateStream] at h
  split at h
  · exact Or.inr h
  · rcases c.createMissingStreams_cases id isRemote with he | ⟨e, he⟩ | ⟨n, he⟩
    · exact Or.inr (he ▸ h)
    · rw [he] at h
      exact Or.inr h
    · rw [he] at h
      rcases List.mem_append.mp h with hr | hr
      · exact (mem_createStreams hr).imp_right fun hr => List.mem_append_left _ hr
      · rw [(c.createStreams_frame _ n).1] at hr
        exact Or.inr (List.mem_append_right _ hr)

/-- A stream that is found is one of the connection. -/
theorem Cnx.mem_of_findOrCreateStream {isRemote : Bool}
    (h : (c.findOrCreateStream id isRemote).2 = some s) :
    s ∈ (c.findOrCreateStream id isRemote).1.streams ∧ s.streamId = id := by
  rw [findOrCreateStream] at h ⊢
  split at h
  · rename_i r hr
    rw [Option.some.inj h] at hr
    simpa using mem_of_findStream hr
  · exact mem_of_findStream h

/-- Looking up a stream changes the streams only, or raises an error. -/
theorem Cnx.findOrCreateStream_frame (c : Cnx) (id : ℕ) (isRemote : Bool) :
    (c.findOrCreateStream id isRemote).1.dataReceived = c.dataReceived ∧
      (c.findOrCreateStream id isRemote).1.maxdataLocal = c.maxdataLocal ∧
      (c.findOrCreateStream id isRemote).1.gone = c.gone := by
  rw [findOrCreateStream]
  split
  · exact ⟨rfl, rfl, rfl⟩
  · rcases c.createMissingStreams_cases id isRemote with he | ⟨e, he⟩ | ⟨n, he⟩
    · rw [he]
      exact ⟨rfl, rfl, rfl⟩
    · rw [he]
      exact ⟨rfl, rfl, rfl⟩
    · obtain ⟨hg, -, -, hd, hm⟩ := c.createStreams_frame (streamTypeFromId id) n
      rw [he]
      exact ⟨hd, hm, hg⟩

/-! ### The flow control check -/

/-- Receiving up to `newFinOffset` exceeds a limit. -/
def Cnx.Exceeds (c : Cnx) (s : StreamHead) (newFinOffset : ℕ) : Prop :=
  s.maxdataLocal < newFinOffset ∨
    s.finOffset < newFinOffset ∧ c.maxdataLocal < c.dataReceived + (newFinOffset - s.finOffset)

instance (c : Cnx) (s : StreamHead) (newFinOffset : ℕ) : Decidable (c.Exceeds s newFinOffset) :=
  inferInstanceAs (Decidable (_ ∨ _ ∧ _))

/-- The connection after bytes up to `newFinOffset` are counted. -/
def Cnx.count (c : Cnx) (s : StreamHead) (newFinOffset : ℕ) : Cnx :=
  { c with dataReceived := c.dataReceived + (newFinOffset - s.finOffset) }

/-- The check fails when a limit is exceeded, and counts the new bytes otherwise. -/
theorem Cnx.flowControlCheck_eq (c : Cnx) (s : StreamHead) (newFinOffset : ℕ) :
    c.flowControlCheck s newFinOffset =
      if c.Exceeds s newFinOffset then none
      else some (c.count s newFinOffset, { s with finOffset := max s.finOffset newFinOffset }) := by
  rw [flowControlCheck]
  by_cases h1 : s.maxdataLocal < newFinOffset
  · rw [if_pos h1, if_pos (show c.Exceeds s newFinOffset from Or.inl h1)]
  · rw [if_neg h1]
    by_cases h2 : s.finOffset < newFinOffset
    · rw [if_pos h2, max_eq_right h2.le]
      by_cases h3 : c.maxdataLocal < c.dataReceived + (newFinOffset - s.finOffset)
      · rw [if_pos (show c.Exceeds s newFinOffset from Or.inr ⟨h2, h3⟩), if_pos (by omega)]
      · rw [if_neg (show ¬ c.Exceeds s newFinOffset from not_or.mpr ⟨h1, fun h => h3 h.2⟩),
          if_neg (by omega)]
        rfl
    · rw [if_neg h2, max_eq_left (not_lt.mp h2), count, Nat.sub_eq_zero_of_le (not_lt.mp h2),
        if_neg (show ¬ c.Exceeds s newFinOffset from not_or.mpr ⟨h1, fun h => h2 h.1⟩)]
      rfl

/-! ### Delivering -/

/-- What delivering leaves as it is. -/
structure StreamHead.SameFrames (s s' : StreamHead) : Prop where
  finReceived : s'.finReceived = s.finReceived
  finOffset : s'.finOffset = s.finOffset
  arrived : s'.arrived = s.arrived
  maxdataLocal : s'.maxdataLocal = s.maxdataLocal
  resetReceived : s'.resetReceived = s.resetReceived
  streamId : s'.streamId = s.streamId

theorem StreamHead.SameFrames.refl (s : StreamHead) : s.SameFrames s :=
  ⟨rfl, rfl, rfl, rfl, rfl, rfl⟩

theorem StreamHead.SameFrames.trans {s t u : StreamHead} (h : s.SameFrames t)
    (h' : t.SameFrames u) : s.SameFrames u :=
  ⟨h'.finReceived.trans h.finReceived, h'.finOffset.trans h.finOffset, h'.arrived.trans h.arrived,
    h'.maxdataLocal.trans h.maxdataLocal, h'.resetReceived.trans h.resetReceived,
    h'.streamId.trans h.streamId⟩

theorem StreamHead.dataChunkCallback_sameFrames (s : StreamHead) (bytes : List UInt8) :
    s.SameFrames (s.dataChunkCallback bytes) := ⟨rfl, rfl, rfl, rfl, rfl, rfl⟩

theorem StreamHead.popChunks_sameFrames (s : StreamHead) (l : List Chunk) :
    s.SameFrames (s.popChunks l) := by
  induction l generalizing s with
  | nil => exact ⟨rfl, rfl, rfl, rfl, rfl, rfl⟩
  | cons data rest ih =>
    rw [popChunks]
    split_ifs
    · exact (s.dataChunkCallback_sameFrames _).trans (ih _)
    · exact ih s
    · exact ⟨rfl, rfl, rfl, rfl, rfl, rfl⟩

theorem StreamHead.streamDataCallback_sameFrames (s : StreamHead) :
    s.SameFrames s.streamDataCallback :=
  (s.popChunks_sameFrames _).trans (dataChunkCallback_sameFrames _ _)

theorem StreamHead.takeIn_sameFrames (s : StreamHead) (offset : ℕ) (bytes : List UInt8)
    (shouldNotify : Bool) : s.SameFrames (s.takeIn offset bytes shouldNotify) := by
  rw [takeIn]
  dsimp only
  split_ifs
  · exact (s.dataChunkCallback_sameFrames _).trans (streamDataCallback_sameFrames _)
  · exact .refl s
  · refine SameFrames.trans ?_ (streamDataCallback_sameFrames _)
    exact ⟨rfl, rfl, rfl, rfl, rfl, rfl⟩
  · exact ⟨rfl, rfl, rfl, rfl, rfl, rfl⟩

/-! ### What a frame does -/

/-- A frame contradicts the final size that a FIN fixed. -/
def StreamHead.Contradicts (s : StreamHead) (newFinOffset : ℕ) (fin : Bool) : Prop :=
  s.finReceived = true ∧
    (s.finOffset < newFinOffset ∨ fin = true ∧ s.finOffset ≠ newFinOffset)

/-- A stream that takes in the data of an accepted frame. -/
def StreamHead.accept (s : StreamHead) (offset : ℕ) (fin : Bool) (bytes : List UInt8) :
    StreamHead :=
  let s' : StreamHead :=
    { s with
      finReceived := s.finReceived || fin
      finOffset := max s.finOffset (offset + bytes.length) }
  let s' := s'.takeIn offset bytes (fin && !s.finReceived)
  { s' with arrived := s'.arrived ++ [.stream offset bytes fin] }

/-- What an accepted frame does to the fields that the checks read. -/
theorem StreamHead.accept_fields (s : StreamHead) (offset : ℕ) (fin : Bool) (bytes : List UInt8) :
    (s.accept offset fin bytes).streamId = s.streamId ∧
      (s.accept offset fin bytes).finReceived = (s.finReceived || fin) ∧
      (s.accept offset fin bytes).resetReceived = s.resetReceived ∧
      (s.accept offset fin bytes).finOffset = max s.finOffset (offset + bytes.length) ∧
      (s.accept offset fin bytes).maxdataLocal = s.maxdataLocal ∧
      (s.accept offset fin bytes).arrived = s.arrived ++ [.stream offset bytes fin] := by
  have h := takeIn_sameFrames
    { s with
      finReceived := s.finReceived || fin
      finOffset := max s.finOffset (offset + bytes.length) } offset bytes (fin && !s.finReceived)
  refine ⟨h.streamId, h.finReceived, h.resetReceived, h.finOffset, h.maxdataLocal, ?_⟩
  exact congrArg (· ++ _) h.arrived

private theorem Cnx.deliver_eq_store (c : Cnx) (s : StreamHead) (offset : ℕ) (bytes : List UInt8)
    (fin shouldNotify : Bool) :
    c.deliver s offset bytes fin shouldNotify =
      c.store
        { s.takeIn offset bytes shouldNotify with
          arrived := (s.takeIn offset bytes shouldNotify).arrived ++ [.stream offset bytes fin] } :=
  rfl

variable {bytes : List UInt8}

theorem StreamHead.accept_of_finReceived {offset : ℕ} (hfr : s.finReceived = true)
    (hle : offset + bytes.length ≤ s.finOffset) (fin : Bool) :
    s.accept offset fin bytes =
      { s.takeIn offset bytes false with
        arrived := (s.takeIn offset bytes false).arrived ++ [.stream offset bytes fin] } := by
  rw [accept, max_eq_left hle, show (s.finReceived || fin) = s.finReceived by rw [hfr]; rfl,
    show (fin && !s.finReceived) = false by rw [hfr]; exact Bool.and_false fin]

theorem StreamHead.accept_of_not_finReceived (hfr : s.finReceived = false) (offset : ℕ) (fin : Bool)
    (bytes : List UInt8) : let s' : StreamHead :=
      { s with finReceived := fin, finOffset := max s.finOffset (offset + bytes.length) }
    s.accept offset fin bytes =
      { s'.takeIn offset bytes fin with
        arrived := (s'.takeIn offset bytes fin).arrived ++ [.stream offset bytes fin] } := by
  rw [accept, hfr, Bool.false_or, Bool.not_false, Bool.and_true]

/-- **STREAM frames.** A frame finds no stream, or contradicts the final size, or exceeds a
limit, or is accepted. -/
theorem Cnx.streamNetworkInput_cases (c : Cnx) (id offset : ℕ) (fin : Bool)
    (bytes : List UInt8) :
    let c' := (c.findOrCreateStream id true).1
    let c'' := c.streamNetworkInput id offset fin bytes
    ((c.findOrCreateStream id true).2 = none ∧ c'' = c') ∨
      ∃ s, (c.findOrCreateStream id true).2 = some s ∧
        ((s.Contradicts (offset + bytes.length) fin ∧ c'' = c'.connectionError .finalOffset) ∨
        (s.finReceived = false ∧ c'.Exceeds s (offset + bytes.length) ∧
          c'' = (c'.putStream { s with finReceived := fin }).connectionError .flowControl) ∨
        (¬ s.Contradicts (offset + bytes.length) fin ∧
          (s.finOffset < offset + bytes.length → ¬ c'.Exceeds s (offset + bytes.length)) ∧
          c'' = (c'.count s (offset + bytes.length)).store (s.accept offset fin bytes))) := by
  intro c' c''
  have hc'' : c'' = c.streamNetworkInput id offset fin bytes := rfl
  rw [streamNetworkInput] at hc''
  rcases hfind : c.findOrCreateStream id true with ⟨c₁, _ | s⟩
  · rw [hfind] at hc''
    exact Or.inl ⟨rfl, hc''.trans (by rw [show c' = c₁ from congrArg Prod.fst hfind])⟩
  have hc' : c' = c₁ := congrArg Prod.fst hfind
  rw [hfind] at hc''
  refine Or.inr ⟨s, rfl, ?_⟩
  rw [hc', hc'']
  dsimp only
  have hmax : ∀ {n : ℕ}, ¬ s.finOffset < n → max s.finOffset n = s.finOffset ∧
      c₁.count s n = c₁ := by
    intro n hn
    refine ⟨max_eq_left (not_lt.mp hn), ?_⟩
    rw [count, Nat.sub_eq_zero_of_le (not_lt.mp hn)]
    rfl
  by_cases hfr : s.finReceived
  · -- the final size is known
    rw [if_pos hfr]
    have hiff : (if fin then s.finOffset ≠ offset + bytes.length
        else s.finOffset < offset + bytes.length) ↔
          s.Contradicts (offset + bytes.length) fin := by
      rw [StreamHead.Contradicts, and_iff_right hfr]
      cases fin
      · simp
      · simp only [if_true, true_and]
        exact ⟨Or.inr, fun h => h.elim (fun h => h.ne) fun h => h⟩
    by_cases hcon : s.Contradicts (offset + bytes.length) fin
    · exact Or.inl ⟨hcon, if_pos (hiff.mpr hcon)⟩
    · have hnlt : ¬ s.finOffset < offset + bytes.length := fun h => hcon ⟨hfr, Or.inl h⟩
      refine Or.inr (Or.inr ⟨hcon, fun h => absurd h hnlt, ?_⟩)
      rw [if_neg (fun h => hcon (hiff.mp h)), (hmax hnlt).2,
        StreamHead.accept_of_finReceived hfr (not_lt.mp hnlt), deliver_eq_store]
  · have hfr' : s.finReceived = false := Bool.eq_false_iff.mpr hfr
    have hcon : ¬ s.Contradicts (offset + bytes.length) fin := fun h => hfr h.1
    rw [if_neg hfr]
    by_cases hlt : s.finOffset < offset + bytes.length
    · rw [if_pos hlt, flowControlCheck_eq]
      by_cases hex : c₁.Exceeds s (offset + bytes.length)
      · refine Or.inr (Or.inl ⟨hfr', hex, ?_⟩)
        rw [if_pos (show c₁.Exceeds { s with finReceived := fin } _ from hex)]
      · refine Or.inr (Or.inr ⟨hcon, fun _ => hex, ?_⟩)
        rw [if_neg (show ¬ c₁.Exceeds { s with finReceived := fin } _ from hex)]
        dsimp only
        rw [deliver_eq_store, StreamHead.accept_of_not_finReceived hfr']
        rfl
    · refine Or.inr (Or.inr ⟨hcon, fun h => absurd h hlt, ?_⟩)
      rw [if_neg hlt, (hmax hlt).2, deliver_eq_store,
        StreamHead.accept_of_not_finReceived hfr', (hmax hlt).1]

/-- A stream that takes in an accepted RESET_STREAM frame. -/
def StreamHead.acceptReset (s : StreamHead) (errorCode finalOffset : ℕ) : StreamHead :=
  let s' : StreamHead :=
    { s with
      finOffset := max s.finOffset finalOffset
      arrived := s.arrived ++ [ReceivedFrame.reset finalOffset] }
  if s.resetReceived then s'
  else
    { s' with
      resetReceived := true
      remoteError := errorCode
      resetSignalled := true
      calls :=
        if s.resetSignalled || s.isDiscarded then s.calls
        else s.calls ++ [CallbackEvent.streamReset] }

/-- What an accepted RESET_STREAM frame does to the fields that the checks read. -/
theorem StreamHead.acceptReset_fields (s : StreamHead) (errorCode finalOffset : ℕ) :
    (s.acceptReset errorCode finalOffset).streamId = s.streamId ∧
      (s.acceptReset errorCode finalOffset).finReceived = s.finReceived ∧
      (s.acceptReset errorCode finalOffset).resetReceived = true ∧
      (s.acceptReset errorCode finalOffset).finOffset = max s.finOffset finalOffset ∧
      (s.acceptReset errorCode finalOffset).maxdataLocal = s.maxdataLocal ∧
      (s.acceptReset errorCode finalOffset).arrived = s.arrived ++ [.reset finalOffset] := by
  rw [StreamHead.acceptReset]
  by_cases h : s.resetReceived
  · rw [if_pos h]
    exact ⟨rfl, rfl, h, rfl, rfl, rfl⟩
  · rw [if_neg h]
    exact ⟨rfl, rfl, rfl, rfl, rfl, rfl⟩

/-- **RESET_STREAM frames.** A frame finds no stream, or contradicts the final size, or exceeds a
limit, or is accepted. -/
theorem Cnx.decodeStreamResetFrame_cases (c : Cnx) (id errorCode finalOffset : ℕ) :
    let c' := (c.findOrCreateStream id true).1
    let c'' := c.decodeStreamResetFrame id errorCode finalOffset
    ((c.findOrCreateStream id true).2 = none ∧ c'' = c') ∨
      ∃ s, (c.findOrCreateStream id true).2 = some s ∧
        (((s.finReceived = true ∨ s.resetReceived = true) ∧ finalOffset ≠ s.finOffset ∧
          c'' = c'.connectionError .finalOffset) ∨
        ((s.finReceived = true ∨ s.resetReceived = true → finalOffset = s.finOffset) ∧
          c'.Exceeds s finalOffset ∧ c'' = c'.connectionError .flowControl) ∨
        ((s.finReceived = true ∨ s.resetReceived = true → finalOffset = s.finOffset) ∧
          ¬ c'.Exceeds s finalOffset ∧
          (c'' = (c'.count s finalOffset).putStream (s.acceptReset errorCode finalOffset) ∨
            c'' = (c'.count s finalOffset).deleteStreamIfClosed
              (s.acceptReset errorCode finalOffset)))) := by
  intro c' c''
  have hc'' : c'' = c.decodeStreamResetFrame id errorCode finalOffset := rfl
  rw [decodeStreamResetFrame] at hc''
  rcases hfind : c.findOrCreateStream id true with ⟨c₁, _ | s⟩
  · rw [hfind] at hc''
    exact Or.inl ⟨rfl, hc''.trans (by rw [show c' = c₁ from congrArg Prod.fst hfind])⟩
  have hc' : c' = c₁ := congrArg Prod.fst hfind
  rw [hfind] at hc''
  refine Or.inr ⟨s, rfl, ?_⟩
  rw [hc', hc'']
  dsimp only
  have hiff : ((s.finReceived || s.resetReceived) && decide (finalOffset ≠ s.finOffset)) = true ↔
      (s.finReceived = true ∨ s.resetReceived = true) ∧ finalOffset ≠ s.finOffset := by
    rw [Bool.and_eq_true, Bool.or_eq_true, decide_eq_true_eq]
  by_cases hcon : (s.finReceived = true ∨ s.resetReceived = true) ∧ finalOffset ≠ s.finOffset
  · exact Or.inl ⟨hcon.1, hcon.2, if_pos (hiff.mpr hcon)⟩
  have heq : s.finReceived = true ∨ s.resetReceived = true → finalOffset = s.finOffset :=
    fun h => not_not.mp fun hne => hcon ⟨h, hne⟩
  rw [if_neg (fun h => hcon (hiff.mp h)), flowControlCheck_eq]
  by_cases hex : c₁.Exceeds s finalOffset
  · exact Or.inr (Or.inl ⟨heq, hex, by rw [if_pos hex]⟩)
  refine Or.inr (Or.inr ⟨heq, hex, ?_⟩)
  rw [if_neg hex]
  dsimp only
  rw [StreamHead.acceptReset]
  by_cases hrr : s.resetReceived
  · rw [if_pos hrr, if_pos hrr]
    exact Or.inl rfl
  · rw [if_neg hrr, if_neg hrr]
    by_cases hrs : s.resetSignalled
    · left
      rw [if_pos hrs, hrs, Bool.true_or, if_pos rfl]
    · right
      rw [if_neg hrs, Bool.eq_false_iff.mpr hrs, Bool.false_or]

/-! ### Invariants of single streams -/

/-- A property of streams that every change of a single stream by an event keeps. It may depend on
whether the connection failed; once it did, nothing changes any more. -/
structure StreamInvariant (c : Cnx) (e : StreamEvent) (P : Bool → StreamHead → Prop) : Prop where
  fail : ∀ s, P false s → P true s
  new : ∀ s, s.IsNew → P false s
  closed : ∀ s, P false s → P false { s with isClosed := true }
  sending : ∀ s h, P false s → P false { s with sendHalf := h }
  limit : ∀ s m, P false s → P false { s with maxdataLocal := m }
  stopSending : ∀ s, e = .stopSending s.streamId → P false s →
    P false { s with stopSendingRequested := true }
  discard : ∀ s, e = .discard s.streamId → P false s → P false { s with isDiscarded := true }
  stream : ∀ s offset fin bytes, e = .streamFrame s.streamId offset fin bytes →
    (c.findOrCreateStream s.streamId true).2 = some s →
    ¬ s.Contradicts (offset + bytes.length) fin → P false s → P false (s.accept offset fin bytes)
  refuse : ∀ s offset fin bytes, e = .streamFrame s.streamId offset fin bytes →
    s.finReceived = false → P false s → P true { s with finReceived := fin }
  reset : ∀ s errorCode finalOffset, e = .resetFrame s.streamId errorCode finalOffset →
    (c.findOrCreateStream s.streamId true).2 = some s →
    (s.finReceived = true ∨ s.resetReceived = true → finalOffset = s.finOffset) → P false s →
    P false (s.acceptReset errorCode finalOffset)

/-- A property of all streams, in the light of the state of the connection. -/
def Cnx.AllStreams (c : Cnx) (P : Bool → StreamHead → Prop) : Prop :=
  ∀ s ∈ c.everyStream, P c.error.isSome s

section

variable {c₀ : Cnx} {e : StreamEvent} {P : Bool → StreamHead → Prop}

theorem StreamInvariant.any (hP : StreamInvariant c₀ e P) (h : P false s) (b : Bool) : P b s := by
  cases b with
  | false => exact h
  | true => exact hP.fail s h

theorem StreamInvariant.noteClosed (hP : StreamInvariant c₀ e P) (h : P false s)
    (clientMode : Bool) : P false (s.noteClosed clientMode) := by
  rw [StreamHead.noteClosed]
  split_ifs
  · exact hP.closed s h
  · exact h

theorem StreamInvariant.allStreams (hP : StreamInvariant c₀ e P)
    (h : ∀ s ∈ c.everyStream, P false s) : c.AllStreams P :=
  fun s hs => hP.any (h s hs) _

theorem Cnx.forall_putStream {Q : StreamHead → Prop} (h : ∀ r ∈ c.everyStream, Q r) (hs : Q s) :
    ∀ r ∈ (c.putStream s).everyStream, Q r := by
  intro r hr
  rcases List.mem_append.mp hr with hr | hr
  · rcases Cnx.mem_putStream hr with rfl | hr
    · exact hs
    · exact h r (List.mem_append_left _ hr)
  · exact h r (List.mem_append_right _ hr)

theorem StreamInvariant.deleteStreamIfClosed (hP : StreamInvariant c₀ e P)
    (h : ∀ r ∈ c.everyStream, P false r) (hs : P false s) :
    ∀ r ∈ (c.deleteStreamIfClosed s).everyStream, P false r := by
  intro r hr
  rcases Cnx.mem_deleteStreamIfClosed hr with rfl | hr
  · exact hP.noteClosed hs _
  · exact h r hr

theorem StreamInvariant.findOrCreateStream (hP : StreamInvariant c₀ e P)
    (h : ∀ r ∈ c.everyStream, P false r) (id : ℕ) (isRemote : Bool) :
    ∀ r ∈ (c.findOrCreateStream id isRemote).1.everyStream, P false r := by
  intro r hr
  rcases Cnx.mem_findOrCreateStream hr with hnew | hr
  · exact hP.new r hnew
  · exact h r hr

/-- A STREAM frame keeps the property of all streams. -/
theorem StreamInvariant.streamFrame (hP : StreamInvariant c e P) {id offset : ℕ} {fin : Bool}
    (he : e = .streamFrame id offset fin bytes) (h : ∀ r ∈ c.everyStream, P false r) :
    (c.decodeStreamFrame id offset fin bytes).AllStreams P := by
  rw [Cnx.decodeStreamFrame]
  split_ifs
  · exact hP.allStreams h
  have h' := hP.findOrCreateStream h id true
  rcases c.streamNetworkInput_cases id offset fin bytes with
    ⟨-, hc⟩ | ⟨s, hfind, ⟨-, hc⟩ | ⟨hfr, -, hc⟩ | ⟨hcon, -, hc⟩⟩
  · rw [hc]
    exact hP.allStreams h'
  · rw [hc]
    exact hP.allStreams h'
  · -- the refused frame: the connection failed
    obtain ⟨hmem, rfl⟩ := Cnx.mem_of_findOrCreateStream hfind
    have hs := h' s (List.mem_append_left _ hmem)
    rw [hc]
    intro r hr
    rcases List.mem_append.mp hr with hr | hr
    · rcases Cnx.mem_putStream hr with rfl | hr
      · exact hP.refuse s offset fin bytes he hfr hs
      · exact hP.fail r (h' r (List.mem_append_left _ hr))
    · exact hP.fail r (h' r (List.mem_append_right _ hr))
  · obtain ⟨hmem, rfl⟩ := Cnx.mem_of_findOrCreateStream hfind
    have hs := h' s (List.mem_append_left _ hmem)
    have hacc := hP.stream s offset fin bytes he hfind hcon hs
    rw [hc]
    refine hP.allStreams ?_
    rw [Cnx.store]
    split_ifs
    · exact hP.deleteStreamIfClosed h' hacc
    · exact Cnx.forall_putStream h' hacc

/-- A RESET_STREAM frame keeps the property of all streams. -/
theorem StreamInvariant.resetFrame (hP : StreamInvariant c e P) {id errorCode finalOffset : ℕ}
    (he : e = .resetFrame id errorCode finalOffset) (h : ∀ r ∈ c.everyStream, P false r) :
    (c.decodeStreamResetFrame id errorCode finalOffset).AllStreams P := by
  have h' := hP.findOrCreateStream h id true
  rcases c.decodeStreamResetFrame_cases id errorCode finalOffset with
    ⟨-, hc⟩ | ⟨s, hfind, ⟨-, -, hc⟩ | ⟨-, -, hc⟩ | ⟨heq, -, hc⟩⟩
  · rw [hc]
    exact hP.allStreams h'
  · rw [hc]
    exact hP.allStreams h'
  · rw [hc]
    exact hP.allStreams h'
  · obtain ⟨hmem, rfl⟩ := Cnx.mem_of_findOrCreateStream hfind
    have hs := h' s (List.mem_append_left _ hmem)
    have hacc := hP.reset s errorCode finalOffset he hfind heq hs
    rcases hc with hc | hc
    · rw [hc]
      exact hP.allStreams (Cnx.forall_putStream h' hacc)
    · rw [hc]
      exact hP.allStreams (hP.deleteStreamIfClosed h' hacc)

/-- The streams after raising their limits differ in the limits only. -/
theorem mem_requiredMaxStreamData {rttMin room : ℕ} {l : List StreamHead}
    (h : r ∈ (requiredMaxStreamData rttMin room l).1) :
    ∃ s ∈ l, r = s ∨ ∃ increase, s.requiredIncrease rttMin = some increase ∧
      r = { s with maxdataLocal := u64 (s.maxdataLocal + increase) } := by
  induction l generalizing room with
  | nil => simp [requiredMaxStreamData] at h
  | cons s rest ih =>
    have hrest : ∀ {room : ℕ}, r ∈ (requiredMaxStreamData rttMin room rest).1 →
        ∃ s' ∈ s :: rest, r = s' ∨ ∃ increase, s'.requiredIncrease rttMin = some increase ∧
          r = { s' with maxdataLocal := u64 (s'.maxdataLocal + increase) } := by
      intro room h
      obtain ⟨s', hs', h⟩ := ih h
      exact ⟨s', List.mem_cons_of_mem _ hs', h⟩
    rw [requiredMaxStreamData] at h
    cases hinc : s.requiredIncrease rttMin with
    | none =>
      rw [hinc] at h
      rcases List.mem_cons.mp h with rfl | h
      · exact ⟨r, List.mem_cons_self, Or.inl rfl⟩
      · exact hrest h
    | some increase =>
      rw [hinc] at h
      dsimp only at h
      split_ifs at h
      · rcases List.mem_cons.mp h with rfl | h
        · exact ⟨s, List.mem_cons_self, Or.inr ⟨increase, hinc, rfl⟩⟩
        · exact hrest h
      · exact ⟨r, h, Or.inl rfl⟩

/-- **One event.** A property that every change of a single stream keeps is kept by every event,
for all streams, new ones and deleted ones included. -/
theorem StreamInvariant.step (hP : StreamInvariant c e P) (h : c.AllStreams P) :
    (c.step e).AllStreams P := by
  rw [Cnx.step.eq_def]
  -- after an error nothing happens any more
  by_cases herr : c.error.isSome
  · rw [if_pos herr]
    exact h
  rw [if_neg herr]
  have h0 : ∀ r ∈ c.everyStream, P false r := by
    intro r hr
    have := h r hr
    rwa [Bool.eq_false_iff.mpr herr] at this
  cases e with
  | streamFrame id offset fin bytes => exact hP.streamFrame rfl h0
  | resetFrame id errorCode finalOffset => exact hP.resetFrame rfl h0
  | openStream id =>
    dsimp only
    refine hP.allStreams fun r hr => ?_
    rcases c.createMissingStreams_cases id false with he | ⟨e, he⟩ | ⟨n, he⟩
    · exact h0 r (he ▸ hr)
    · rw [he] at hr
      exact h0 r hr
    · rw [he] at hr
      rcases List.mem_append.mp hr with hr | hr
      · rcases Cnx.mem_createStreams hr with hnew | hr
        · exact hP.new r hnew
        · exact h0 r (List.mem_append_left _ hr)
      · rw [(c.createStreams_frame _ n).1] at hr
        exact h0 r (List.mem_append_right _ hr)
  | stopSending id =>
    dsimp only [Cnx.modifyStream]
    cases hfind : c.findStream id with
    | none => exact h
    | some s =>
      obtain ⟨hmem, rfl⟩ := Cnx.mem_of_findStream hfind
      have hs := h0 s (List.mem_append_left _ hmem)
      refine hP.allStreams (Cnx.forall_putStream h0 ?_)
      split_ifs
      · exact hs
      · exact hP.stopSending s rfl hs
  | discard id =>
    dsimp only [Cnx.modifyStream]
    cases hfind : c.findStream id with
    | none => exact h
    | some s =>
      obtain ⟨hmem, rfl⟩ := Cnx.mem_of_findStream hfind
      have hs := h0 s (List.mem_append_left _ hmem)
      exact hP.allStreams (Cnx.forall_putStream h0 (hP.discard s rfl hs))
  | sending id sendHalf =>
    dsimp only
    cases hfind : c.findStream id with
    | none => exact h
    | some s =>
      have hs := h0 s (List.mem_append_left _ (Cnx.mem_of_findStream hfind).1)
      exact hP.allStreams (hP.deleteStreamIfClosed h0 (hP.sending s sendHalf hs))
  | maxStreams | mode => exact h
  | maxData rttMin room =>
    dsimp only
    cases c.maxDataIncrease rttMin with
    | none => exact h
    | some increase =>
      dsimp only [Option.elim, Cnx.formatMaxDataFrame]
      split_ifs
      · exact h
      · exact h
  | maxStreamData rttMin room =>
    dsimp only
    split_ifs
    · refine hP.allStreams fun r hr => ?_
      rcases List.mem_append.mp hr with hr | hr
      · obtain ⟨s, hs, rfl | ⟨increase, -, rfl⟩⟩ := mem_requiredMaxStreamData hr
        · exact h0 _ (List.mem_append_left _ hs)
        · exact hP.limit s _ (h0 s (List.mem_append_left _ hs))
      · exact h0 r (List.mem_append_right _ hr)
    · exact h
  | openFlowControl id expectedDataSize =>
    dsimp only
    rw [Cnx.openFlowControl]
    cases hfind : c.findStream id with
    | none => exact h
    | some s =>
      have hs := h0 s (List.mem_append_left _ (Cnx.mem_of_findStream hfind).1)
      dsimp only
      split_ifs
      · exact hP.allStreams (Cnx.forall_putStream h0 (hP.limit s _ hs))
      · exact h

end

/-- **Runs.** A property that every change of a single stream keeps along a run holds of all streams
at its end. -/
theorem Cnx.run_allStreams {P : Bool → StreamHead → Prop} {clientMode : Bool}
    {params : TransportParameters} {evs : List StreamEvent}
    (hP : Along Cnx.step (fun c e => StreamInvariant c e P) (Cnx.initial clientMode params) evs) :
    (run Cnx.step (Cnx.initial clientMode params) evs).AllStreams P :=
  run_invariant_of_along (fun _ _ h hP => hP.step h)
    (fun s hs => absurd hs (by simp [everyStream, initial])) hP

end Picoquic
