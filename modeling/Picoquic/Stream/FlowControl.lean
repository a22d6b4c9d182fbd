import Picoquic.ForMathlib.Keyed
import Picoquic.Stream.Cases

/-!
# Receive flow control

A connection counts the data it receives against a limit of its own and against one for each
stream. It raises the limits as data are consumed, in 64-bit arithmetic and without a check.

* **`Cnx.Balanced`** — the count is the total of the highest offsets over all streams ever
  opened, and no limit is exceeded;
* **`Cnx.Balanced.store`** — a stream moves its highest offset, and the count follows;
* **`Cnx.Balanced.step`** — every event keeps the balance, if it does not wrap a limit;
* **`Cnx.run_balanced`** — so does every run without such an event, and in the states it reaches
  a frame beyond a limit changes neither the count nor an offset.

A limit that wraps can fall below what was received.
-/

namespace Picoquic

open Runs Keyed StreamHead

/-! ### The balance -/

/-- **The accounts of a connection.** The highest offsets of all streams add up to the count, and
all limits are kept. Streams have different identifiers, below the next one of their type. -/
structure Cnx.Balanced (c : Cnx) : Prop where
  nodup : (keys StreamHead.streamId c.streams).Nodup
  fresh : ∀ s ∈ c.streams, s.streamId < c.nextStreamId (streamTypeFromId s.streamId)
  type : ∀ t < 4, streamTypeFromId (c.nextStreamId t) = t
  total : c.dataReceived = (c.everyStream.map StreamHead.finOffset).sum
  limit : c.dataReceived ≤ c.maxdataLocal
  streamLimit : ∀ s ∈ c.everyStream, s.finOffset ≤ s.maxdataLocal

private theorem Cnx.sum_everyStream (c : Cnx) :
    (c.everyStream.map StreamHead.finOffset).sum =
      (c.streams.map StreamHead.finOffset).sum + (c.gone.map StreamHead.finOffset).sum := by
  rw [everyStream, List.map_append, List.sum_append]

variable {t : ℕ}

section

variable {c : Cnx} {r s : StreamHead}

private theorem Cnx.initial_balanced (clientMode : Bool) (params : TransportParameters) :
    (Cnx.initial clientMode params).Balanced where
  nodup := List.nodup_nil
  fresh _ hs := absurd hs List.not_mem_nil
  type _ ht := Nat.mod_eq_of_lt ht
  total := rfl
  limit := Nat.zero_le _
  streamLimit _ hs := absurd hs List.not_mem_nil

private theorem Cnx.Balanced.connectionError (h : c.Balanced) (e : TransportError) :
    (c.connectionError e).Balanced :=
  ⟨h.nodup, h.fresh, h.type, h.total, h.limit, h.streamLimit⟩

/-! ### Opening streams -/

/-- The identifiers that are used are below the next ones of their types. -/
structure Cnx.Numbered (c : Cnx) : Prop where
  fresh : ∀ s ∈ c.streams, s.streamId < c.nextStreamId (streamTypeFromId s.streamId)
  type : ∀ t < 4, streamTypeFromId (c.nextStreamId t) = t

private theorem Cnx.Balanced.numbered (h : c.Balanced) : c.Numbered := ⟨h.fresh, h.type⟩

theorem Cnx.Numbered.nextStreamId_createStream (h : c.Numbered) (ht : t < 4) :
    (c.createStream (c.nextStreamId t)).nextStreamId =
      Function.update c.nextStreamId t (c.nextStreamId t + 4) := by
  rw [Cnx.createStream, h.type t ht]
  exact if_pos le_rfl

/-- A stream takes the next identifier of its type. -/
theorem Cnx.Numbered.createStream (h : c.Numbered) (ht : t < 4) :
    (c.createStream (c.nextStreamId t)).Numbered := by
  have htype := h.type t ht
  have hnext := h.nextStreamId_createStream ht
  constructor
  · intro s hs
    rw [hnext]
    rcases mem_createStream hs with rfl | hs
    · change c.nextStreamId t < Function.update c.nextStreamId t (c.nextStreamId t + 4)
        (streamTypeFromId (c.nextStreamId t))
      rw [htype, Function.update_self]
      omega
    · have hfresh := h.fresh s hs
      by_cases hst : streamTypeFromId s.streamId = t
      · rw [hst] at hfresh ⊢
        rw [Function.update_self]
        omega
      · rwa [Function.update_of_ne hst]
  · intro t' ht'
    rw [hnext]
    by_cases htt : t' = t
    · rw [htt, Function.update_self, streamTypeFromId, Nat.add_mod_right]
      exact htype
    · rw [Function.update_of_ne htt]
      exact h.type t' ht'

private theorem Cnx.Balanced.ne_nextStreamId (h : c.Balanced) (ht : t < 4) :
    ∀ s ∈ c.streams, s.streamId ≠ c.nextStreamId t := by
  intro s hs heq
  have hfresh := h.fresh s hs
  rw [heq, h.type t ht] at hfresh
  exact lt_irrefl _ hfresh

private theorem Cnx.Balanced.createStream (h : c.Balanced) (ht : t < 4) :
    (c.createStream (c.nextStreamId t)).Balanced := by
  have hnumbered := h.numbered.createStream ht
  refine ⟨nodup_insert _ h.nodup (h.ne_nextStreamId ht), hnumbered.fresh, hnumbered.type, ?_,
    h.limit, fun s hs => ?_⟩
  · rw [sum_everyStream]
    change c.dataReceived = ((c.streams.orderedInsert _ _).map finOffset).sum + _
    rw [sum_insert, h.total, c.sum_everyStream]
    exact congrArg (· + _) (Nat.zero_add _).symm
  · rcases List.mem_append.mp hs with hs | hs
    · rcases mem_createStream hs with rfl | hs
      · exact Nat.zero_le _
      · exact h.streamLimit s (List.mem_append_left _ hs)
    · exact h.streamLimit s (List.mem_append_right _ hs)

private theorem Cnx.Balanced.createStreams (h : c.Balanced) (ht : t < 4) (n : ℕ) :
    (c.createStreams t n).Balanced := by
  induction n generalizing c with
  | zero => exact h
  | succ n ih => exact ih (h.createStream ht)

private theorem Cnx.Balanced.createMissingStreams (h : c.Balanced) (id : ℕ) (isRemote : Bool) :
    (c.createMissingStreams id isRemote).Balanced := by
  rcases c.createMissingStreams_cases id isRemote with he | ⟨e, he⟩ | ⟨n, he⟩
  · rwa [he]
  · rw [he]
    exact h.connectionError e
  · rw [he]
    exact h.createStreams (Nat.mod_lt _ (by omega)) n

private theorem Cnx.Balanced.findOrCreateStream (h : c.Balanced) (id : ℕ) (isRemote : Bool) :
    (c.findOrCreateStream id isRemote).1.Balanced := by
  rw [Cnx.findOrCreateStream]
  split
  · exact h
  · exact h.createMissingStreams id isRemote

/-! ### Storing a stream -/

private theorem Cnx.count_max (c : Cnx) (s : StreamHead) (n : ℕ) :
    c.count s (max s.finOffset n) = c.count s n := by
  rw [count, count, show max s.finOffset n - s.finOffset = n - s.finOffset by omega]

private theorem Cnx.count_self (c : Cnx) (s : StreamHead) : c.count s s.finOffset = c := by
  rw [count, Nat.sub_self]
  rfl

private theorem Cnx.not_exceeds {n : ℕ} (h : ¬ c.Exceeds s n) :
    n ≤ s.maxdataLocal ∧
      (s.finOffset < n → c.dataReceived + (n - s.finOffset) ≤ c.maxdataLocal) :=
  ⟨not_lt.mp fun hlt => h (Or.inl hlt), fun hlt => not_lt.mp fun hgt => h (Or.inr ⟨hlt, hgt⟩)⟩

/-- What a stream may become: its highest offset grows, within the limits. -/
structure Cnx.Moves (c : Cnx) (r s : StreamHead) : Prop where
  mem : r ∈ c.streams
  streamId : s.streamId = r.streamId
  finOffset_le : r.finOffset ≤ s.finOffset
  limit : c.dataReceived + (s.finOffset - r.finOffset) ≤ c.maxdataLocal
  streamLimit : s.finOffset ≤ s.maxdataLocal

section

variable (h : c.Balanced)

include h

private theorem Cnx.Balanced.moves (hr : r ∈ c.streams) (hid : s.streamId = r.streamId)
    (hfin : s.finOffset = r.finOffset) (hmax : r.maxdataLocal ≤ s.maxdataLocal) : c.Moves r s := by
  have hlim := h.limit
  have hr' := h.streamLimit r (List.mem_append_left _ hr)
  exact ⟨hr, hid, hfin.ge, by omega, by omega⟩

/-- The changed stream takes the place of the old one, and the count follows. -/
theorem Cnx.Balanced.putStream (hm : c.Moves r s) :
    ((c.count r s.finOffset).putStream s).Balanced := by
  have hle := hm.finOffset_le
  refine ⟨nodup_put h.nodup s, fun b hb => ?_, h.type, ?_, hm.limit, ?_⟩
  · rcases mem_putStream hb with rfl | hb
    · rw [hm.streamId]
      exact h.fresh r hm.mem
    · exact h.fresh b hb
  · have hsum := sum_put h.nodup hm.mem hm.streamId.symm finOffset
    have htot := h.total
    rw [sum_everyStream] at htot ⊢
    change c.dataReceived + _ =
      ((put streamId s c.streams).map _).sum + (c.gone.map _).sum
    omega
  · exact forall_putStream h.streamLimit hm.streamLimit

/-- The changed stream moves to the deleted ones, and the count follows. -/
theorem Cnx.Balanced.deleteStreamIfClosed (hm : c.Moves r s) :
    ((c.count r s.finOffset).deleteStreamIfClosed s).Balanced := by
  have hnote : ∀ b, (s.noteClosed b).streamId = s.streamId ∧
      (s.noteClosed b).finOffset = s.finOffset ∧
        (s.noteClosed b).maxdataLocal = s.maxdataLocal := by
    intro b
    rw [noteClosed]
    split_ifs <;> exact ⟨rfl, rfl, rfl⟩
  obtain ⟨hid, hfin, hmax⟩ := hnote c.clientMode
  have hm' : c.Moves r (s.noteClosed c.clientMode) :=
    ⟨hm.mem, hid.trans hm.streamId, hfin ▸ hm.finOffset_le, hfin ▸ hm.limit,
      by rw [hfin, hmax]; exact hm.streamLimit⟩
  have hput := h.putStream hm'
  have hle := hm'.finOffset_le
  rw [Cnx.deleteStreamIfClosed, ← noteClosed, ← hfin]
  split_ifs
  · refine ⟨nodup_remove h.nodup _, fun b hb => h.fresh b (List.mem_of_mem_filter hb), h.type, ?_,
      hm'.limit, fun b hb => ?_⟩
    · have hsum := sum_remove h.nodup hm.mem finOffset
      have htot := h.total
      rw [sum_everyStream] at htot ⊢
      rw [← hm'.streamId] at hsum
      change c.dataReceived + _ =
        ((remove streamId (s.noteClosed c.clientMode).streamId c.streams).map _).sum +
          ((c.gone ++ [s.noteClosed c.clientMode]).map _).sum
      rw [List.map_append, List.sum_append, List.map_singleton, List.sum_singleton]
      omega
    · rcases List.mem_append.mp hb with hb | hb
      · exact h.streamLimit b (List.mem_append_left _ (List.mem_of_mem_filter hb))
      · rcases List.mem_append.mp hb with hb | hb
        · exact h.streamLimit b (List.mem_append_right _ hb)
        · rw [List.mem_singleton.mp hb]
          exact hm'.streamLimit
  · exact hput

private theorem Cnx.Balanced.store (hm : c.Moves r s) :
    ((c.count r s.finOffset).store s).Balanced := by
  rw [Cnx.store]
  split_ifs
  · exact h.deleteStreamIfClosed hm
  · obtain ⟨h1, h2, h3, h4, h5, h6⟩ := h.putStream hm
    exact ⟨h1, h2, h3, h4, h5, h6⟩

/-! ### Frames -/

private theorem Cnx.Balanced.streamFrame (id offset : ℕ) (fin : Bool)
    (bytes : List UInt8) : (c.decodeStreamFrame id offset fin bytes).Balanced := by
  rw [decodeStreamFrame]
  split_ifs
  · exact h.connectionError _
  have h' := h.findOrCreateStream id true
  rcases c.streamNetworkInput_cases id offset fin bytes with
    ⟨-, hc⟩ | ⟨s, hfind, ⟨-, hc⟩ | ⟨-, -, hc⟩ | ⟨-, hex, hc⟩⟩
  · rwa [hc]
  · rw [hc]
    exact h'.connectionError _
  · -- refused: the stream may note the end, but not the offset
    have hm : (c.findOrCreateStream id true).1.Moves s { s with finReceived := fin } :=
      h'.moves (mem_of_findOrCreateStream hfind).1 rfl rfl le_rfl
    have hput := h'.putStream hm
    rw [count_self] at hput
    rw [hc]
    exact hput.connectionError _
  · obtain ⟨hid, -, -, hfin, hmax, -⟩ := s.accept_fields offset fin bytes
    have hs := (mem_of_findOrCreateStream hfind).1
    have hsl := h'.streamLimit s (List.mem_append_left _ hs)
    have hlim := h'.limit
    have hm : (c.findOrCreateStream id true).1.Moves s (s.accept offset fin bytes) := by
      by_cases hlt : s.finOffset < offset + bytes.length
      · obtain ⟨hstream, hcnx⟩ := not_exceeds (hex hlt)
        have := hcnx hlt
        exact ⟨hs, hid, by omega, by omega, by omega⟩
      · exact ⟨hs, hid, by omega, by omega, by omega⟩
    rw [hc, ← count_max, ← hfin]
    exact h'.store hm

private theorem Cnx.Balanced.resetFrame (id errorCode finalOffset : ℕ) :
    (c.decodeStreamResetFrame id errorCode finalOffset).Balanced := by
  have h' := h.findOrCreateStream id true
  rcases c.decodeStreamResetFrame_cases id errorCode finalOffset with
    ⟨-, hc⟩ | ⟨s, hfind, ⟨-, -, hc⟩ | ⟨-, -, hc⟩ | ⟨-, hex, hc⟩⟩
  · rwa [hc]
  · rw [hc]
    exact h'.connectionError _
  · rw [hc]
    exact h'.connectionError _
  · obtain ⟨hid, -, -, hfin, hmax, -⟩ := s.acceptReset_fields errorCode finalOffset
    have hs := (mem_of_findOrCreateStream hfind).1
    have hsl := h'.streamLimit s (List.mem_append_left _ hs)
    have hlim := h'.limit
    obtain ⟨hstream, hcnx⟩ := not_exceeds hex
    have hm : (c.findOrCreateStream id true).1.Moves s (s.acceptReset errorCode finalOffset) := by
      by_cases hlt : s.finOffset < finalOffset
      · have := hcnx hlt
        exact ⟨hs, hid, by omega, by omega, by omega⟩
      · exact ⟨hs, hid, by omega, by omega, by omega⟩
    rw [← count_max, ← hfin] at hc
    rcases hc with hc | hc
    · rw [hc]
      exact h'.putStream hm
    · rw [hc]
      exact h'.deleteStreamIfClosed hm

end

/-! ### Raising the limits -/

/-- Raising the limits of streams keeps their identifiers and offsets. -/
theorem requiredMaxStreamData_map {β : Type*} {f : StreamHead → β}
    (hf : ∀ s m, f { s with maxdataLocal := m } = f s) (rttMin room : ℕ) (l : List StreamHead) :
    (requiredMaxStreamData rttMin room l).1.map f = l.map f := by
  induction l generalizing room with
  | nil => rfl
  | cons s rest ih =>
    rw [requiredMaxStreamData]
    cases s.requiredIncrease rttMin with
    | none => exact congrArg (f s :: ·) (ih room)
    | some increase =>
      dsimp only
      split_ifs
      · rw [List.map_cons, List.map_cons, hf]
        exact congrArg (f s :: ·) (ih _)
      · rfl

/-- **No wrap.** Where the event raises a limit, 64 bits hold the new one. -/
def StreamEvent.NoWrap (c : Cnx) : StreamEvent → Prop
  | .maxData rttMin _ =>
    ∀ increase ∈ c.maxDataIncrease rttMin, c.maxdataLocal + increase < 2 ^ 64
  | .maxStreamData rttMin _ =>
    c.maxStreamDataNeeded → ∀ s ∈ c.streams, ∀ increase ∈ s.requiredIncrease rttMin,
      s.maxdataLocal + increase < 2 ^ 64
  | .openFlowControl id expectedDataSize =>
    ∀ s ∈ c.findStream id, c.isReady ∧ !c.isFlowControlLimited ∧
      s.maxdataLocal < u64 (s.consumedOffset + expectedDataSize) →
        c.maxdataLocal + expectedDataSize < 2 ^ 64
  | _ => True

end

section

variable {c : Cnx}

private theorem Cnx.Balanced.maxData (h : c.Balanced) {increase : ℕ}
    (hwrap : c.maxdataLocal + increase < 2 ^ 64) (room : ℕ) :
    (c.formatMaxDataFrame room increase).Balanced := by
  have hlim := h.limit
  rw [formatMaxDataFrame, u64_of_lt hwrap]
  split_ifs
  · exact ⟨h.nodup, h.fresh, h.type, h.total, by dsimp only; omega, h.streamLimit⟩
  · exact h

private theorem Cnx.Balanced.maxStreamData (h : c.Balanced) {rttMin : ℕ}
    (hwrap : ∀ s ∈ c.streams, ∀ increase ∈ s.requiredIncrease rttMin,
      s.maxdataLocal + increase < 2 ^ 64) (room : ℕ) :
    (c.formatRequiredMaxStreamDataFrames rttMin room).Balanced := by
  have hmap : ∀ {β : Type} {f : StreamHead → β}, (∀ s m, f { s with maxdataLocal := m } = f s) →
      (c.formatRequiredMaxStreamDataFrames rttMin room).streams.map f = c.streams.map f :=
    fun hf => requiredMaxStreamData_map hf rttMin room c.streams
  have hcase : ∀ {r : StreamHead}, r ∈ (c.formatRequiredMaxStreamDataFrames rttMin room).streams →
      ∃ s ∈ c.streams, r.streamId = s.streamId ∧ r.finOffset ≤ r.maxdataLocal := by
    intro r hr
    obtain ⟨s, hs, rfl | ⟨increase, hinc, rfl⟩⟩ := mem_requiredMaxStreamData hr
    · exact ⟨_, hs, rfl, h.streamLimit _ (List.mem_append_left _ hs)⟩
    · have hlim := h.streamLimit s (List.mem_append_left _ hs)
      refine ⟨s, hs, rfl, ?_⟩
      dsimp only
      rw [u64_of_lt (hwrap s hs increase hinc)]
      omega
  refine ⟨?_, fun r hr => ?_, h.type, ?_, h.limit, fun r hr => ?_⟩
  · rw [keys, hmap fun _ _ => rfl]
    exact h.nodup
  · obtain ⟨s, hs, hid, -⟩ := hcase hr
    rw [hid]
    exact h.fresh s hs
  · rw [sum_everyStream, hmap fun _ _ => rfl]
    exact h.total.trans c.sum_everyStream
  · rcases List.mem_append.mp hr with hr | hr
    · exact (hcase hr).choose_spec.2.2
    · exact h.streamLimit r (List.mem_append_right _ hr)

private theorem Cnx.Balanced.openFlowControl (h : c.Balanced) {id : ℕ} {expectedDataSize : Uint64}
    (hwrap : (StreamEvent.openFlowControl id expectedDataSize).NoWrap c) :
    (c.openFlowControl id expectedDataSize).Balanced := by
  rw [Cnx.openFlowControl]
  cases hfind : c.findStream id with
  | none => exact h
  | some s =>
    dsimp only
    split_ifs with hcond
    · have hm := h.moves (s := { s with maxdataLocal := u64 (s.consumedOffset + expectedDataSize) })
        (mem_of_findStream hfind).1 rfl rfl hcond.2.2.le
      have hput := h.putStream hm
      rw [count_self] at hput
      have hlim : c.dataReceived ≤ u64 (c.maxdataLocal + expectedDataSize) := by
        rw [u64_of_lt (hwrap s hfind hcond)]
        exact h.limit.trans (Nat.le_add_right _ _)
      exact ⟨hput.nodup, hput.fresh, hput.type, hput.total, hlim, hput.streamLimit⟩
    · exact h

/-! ### Events -/

/-- A change that leaves the identifier, the offset and the limit of a stream as they are. -/
theorem Cnx.Balanced.modifyStream (h : c.Balanced) (id : ℕ) {f : StreamHead → StreamHead}
    (hf : ∀ s, (f s).streamId = s.streamId ∧ (f s).finOffset = s.finOffset ∧
      (f s).maxdataLocal = s.maxdataLocal) : (c.modifyStream id f).Balanced := by
  rw [Cnx.modifyStream]
  cases hfind : c.findStream id with
  | none => exact h
  | some s =>
    obtain ⟨hid, hfin, hmax⟩ := hf s
    have hput := h.putStream (h.moves (mem_of_findStream hfind).1 hid hfin hmax.ge)
    rw [hfin, count_self] at hput
    exact hput

/-- **One event.** An event that wraps no limit keeps the balance. -/
theorem Cnx.Balanced.step (h : c.Balanced) {e : StreamEvent} (he : e.NoWrap c) :
    (c.step e).Balanced := by
  rw [Cnx.step.eq_def]
  by_cases herr : c.error.isSome
  · rwa [if_pos herr]
  rw [if_neg herr]
  cases e with
  | streamFrame id offset fin bytes => exact h.streamFrame id offset fin bytes
  | resetFrame id errorCode finalOffset => exact h.resetFrame id errorCode finalOffset
  | openStream id => exact h.createMissingStreams id false
  | stopSending id =>
    refine h.modifyStream id fun s => ?_
    split_ifs <;> exact ⟨rfl, rfl, rfl⟩
  | discard id => exact h.modifyStream id fun s => ⟨rfl, rfl, rfl⟩
  | sending id sendHalf =>
    dsimp only
    cases hfind : c.findStream id with
    | none => exact h
    | some s =>
      have hm := h.moves (s := { s with sendHalf := sendHalf }) (mem_of_findStream hfind).1
        rfl rfl le_rfl
      have hdel := h.deleteStreamIfClosed hm
      rw [count_self] at hdel
      exact hdel
  | maxStreams | mode => exact ⟨h.nodup, h.fresh, h.type, h.total, h.limit, h.streamLimit⟩
  | maxData rttMin room =>
    dsimp only
    cases hinc : c.maxDataIncrease rttMin with
    | none => exact h
    | some increase => exact h.maxData (he increase hinc) room
  | maxStreamData rttMin room =>
    dsimp only
    split_ifs with hneeded
    · exact h.maxStreamData (he hneeded) room
    · exact h
  | openFlowControl id expectedDataSize => exact h.openFlowControl he

/-! ### Frames beyond a limit -/

/-- Every stream keeps its highest offset. -/
def Cnx.KeepsOffsets (c c' : Cnx) : Prop :=
  ∀ s ∈ c.everyStream, ∃ s' ∈ c'.everyStream, s'.streamId = s.streamId ∧ s'.finOffset = s.finOffset

private theorem Cnx.KeepsOffsets.refl (c : Cnx) : c.KeepsOffsets c := fun s hs => ⟨s, hs, rfl, rfl⟩

private theorem Cnx.KeepsOffsets.trans {c' c'' : Cnx} (h : c.KeepsOffsets c')
    (h' : c'.KeepsOffsets c'') :
    c.KeepsOffsets c'' := by
  intro s hs
  obtain ⟨s', hs', hid, hfin⟩ := h s hs
  obtain ⟨s'', hs'', hid', hfin'⟩ := h' s' hs'
  exact ⟨s'', hs'', hid'.trans hid, hfin'.trans hfin⟩

private theorem Cnx.createStreams_keepsOffsets (c : Cnx) (type n : ℕ) :
    c.KeepsOffsets (c.createStreams type n) := by
  induction n generalizing c with
  | zero => exact .refl c
  | succ n ih =>
    refine .trans (fun s hs => ⟨s, ?_, rfl, rfl⟩) (ih (c.createStream (c.nextStreamId type)))
    rcases List.mem_append.mp hs with hs | hs
    · exact List.mem_append_left _ ((List.mem_orderedInsert _).mpr (Or.inr hs))
    · exact List.mem_append_right _ hs

private theorem Cnx.findOrCreateStream_keepsOffsets (c : Cnx) (id : ℕ) (isRemote : Bool) :
    c.KeepsOffsets (c.findOrCreateStream id isRemote).1 := by
  rw [findOrCreateStream]
  split
  · exact .refl c
  · rcases c.createMissingStreams_cases id isRemote with he | ⟨e, he⟩ | ⟨n, he⟩
    · rw [he]
      exact .refl c
    · rw [he]
      exact .refl c
    · rw [he]
      exact c.createStreams_keepsOffsets _ n

/-- Storing a stream with the offset of the one it replaces. -/
theorem Cnx.Balanced.putStream_keepsOffsets (h : c.Balanced) {r s : StreamHead}
    (hr : r ∈ c.streams) (hid : s.streamId = r.streamId) (hfin : s.finOffset = r.finOffset) :
    c.KeepsOffsets (c.putStream s) := by
  intro b hb
  rcases List.mem_append.mp hb with hb | hb
  · by_cases hbs : b.streamId = s.streamId
    · have hbr : b = r := List.inj_on_of_nodup_map h.nodup hb hr (hbs.trans hid)
      exact ⟨s, List.mem_append_left _ (List.mem_map.mpr ⟨b, hb, if_pos hbs⟩), hbs.symm,
        hbr ▸ hfin⟩
    · exact ⟨b, List.mem_append_left _ (List.mem_map.mpr ⟨b, hb, if_neg hbs⟩), rfl, rfl⟩
  · exact ⟨b, List.mem_append_right _ hb, rfl, rfl⟩

/-- The stream a frame is about, and where the frame ends. -/
def StreamEvent.frameEnd : StreamEvent → Option (ℕ × ℕ)
  | .streamFrame id offset _ bytes => some (id, offset + bytes.length)
  | .resetFrame id _ finalOffset => some (id, finalOffset)
  | _ => none

/-- The frame is refused: an error is raised if its stream exists, and nothing is counted. -/
structure Cnx.Refuses (c : Cnx) (id : ℕ) (c' : Cnx) : Prop where
  error : (c.findOrCreateStream id true).2.isSome → c'.error.isSome
  dataReceived : c'.dataReceived = c.dataReceived
  keepsOffsets : c.KeepsOffsets c'

private theorem Cnx.Balanced.refuses_streamFrame (h : c.Balanced) {id offset : ℕ} {fin : Bool}
    {bytes : List UInt8}
    (hex : ∀ s ∈ (c.findOrCreateStream id true).2, c.Exceeds s (offset + bytes.length)) :
    c.Refuses id (c.decodeStreamFrame id offset fin bytes) := by
  rw [decodeStreamFrame]
  split_ifs
  · exact ⟨fun _ => rfl, rfl, .refl c⟩
  have h' := h.findOrCreateStream id true
  have hkeep := c.findOrCreateStream_keepsOffsets id true
  obtain ⟨hdata, hmax, -⟩ := c.findOrCreateStream_frame id true
  rcases c.streamNetworkInput_cases id offset fin bytes with
    ⟨hnone, hc⟩ | ⟨s, hfind, ⟨-, hc⟩ | ⟨-, -, hc⟩ | ⟨-, hex', hc⟩⟩
  · rw [hc]
    exact ⟨fun hsome => absurd hsome (by rw [hnone]; exact Bool.false_ne_true), hdata, hkeep⟩
  · rw [hc]
    exact ⟨fun _ => rfl, hdata, hkeep⟩
  · rw [hc]
    have hput := h'.putStream_keepsOffsets (s := { s with finReceived := fin })
      (mem_of_findOrCreateStream hfind).1 rfl rfl
    exact ⟨fun _ => rfl, hdata, hkeep.trans hput⟩
  · -- an accepted frame exceeds no limit
    exfalso
    have hsl := h'.streamLimit s
      (List.mem_append_left _ (mem_of_findOrCreateStream hfind).1)
    rcases hex s hfind with hlt | ⟨hlt, hgt⟩
    · exact hex' (hsl.trans_lt hlt) (Or.inl hlt)
    · refine hex' hlt (Or.inr ⟨hlt, ?_⟩)
      rwa [hdata, hmax]

private theorem Cnx.refuses_resetFrame {id errorCode finalOffset : ℕ}
    (hex : ∀ s ∈ (c.findOrCreateStream id true).2, c.Exceeds s finalOffset) :
    c.Refuses id (c.decodeStreamResetFrame id errorCode finalOffset) := by
  have hkeep := c.findOrCreateStream_keepsOffsets id true
  obtain ⟨hdata, hmax, -⟩ := c.findOrCreateStream_frame id true
  rcases c.decodeStreamResetFrame_cases id errorCode finalOffset with
    ⟨hnone, hc⟩ | ⟨s, hfind, ⟨-, -, hc⟩ | ⟨-, -, hc⟩ | ⟨-, hex', -⟩⟩
  · rw [hc]
    exact ⟨fun hsome => absurd hsome (by rw [hnone]; exact Bool.false_ne_true), hdata, hkeep⟩
  · rw [hc]
    exact ⟨fun _ => rfl, hdata, hkeep⟩
  · rw [hc]
    exact ⟨fun _ => rfl, hdata, hkeep⟩
  · refine absurd ?_ hex'
    have := hex s hfind
    rwa [Cnx.Exceeds, ← hdata, ← hmax] at this

/-- **Frames beyond a limit** are refused, and change neither the count nor an offset. -/
theorem Cnx.Balanced.refuses (h : c.Balanced) (hc : c.error = none) {e : StreamEvent} {id n : ℕ}
    (he : e.frameEnd = some (id, n))
    (hex : ∀ s ∈ (c.findOrCreateStream id true).2, c.Exceeds s n) : c.Refuses id (c.step e) := by
  rw [Cnx.step.eq_def, hc]
  cases e with
  | streamFrame id' offset fin bytes =>
    cases he
    exact h.refuses_streamFrame hex
  | resetFrame id' errorCode finalOffset =>
    cases he
    exact refuses_resetFrame hex
  | _ => cases he

end

/-! ### Runs -/

/-- **Receive flow control.** In every state that a run reaches without wrapping a limit, all
streams are within their limits, the count of received data is the total of the highest offsets
of all streams ever opened and within the limit of the connection, and a frame beyond a limit is
refused with the count and all offsets unchanged. -/
theorem Cnx.run_balanced {clientMode : Bool} {params : TransportParameters}
    {evs : List StreamEvent}
    (hevs : Along Cnx.step (fun c e => e.NoWrap c) (Cnx.initial clientMode params) evs) :
    let c := run step (initial clientMode params) evs
    (∀ s ∈ c.everyStream, s.finOffset ≤ s.maxdataLocal) ∧
      c.dataReceived = (c.everyStream.map finOffset).sum ∧
      c.dataReceived ≤ c.maxdataLocal ∧
      ∀ e id n, c.error = none → e.frameEnd = some (id, n) →
        (∀ s ∈ (c.findOrCreateStream id true).2, c.Exceeds s n) →
        c.Refuses id (c.step e) := by
  intro c
  have h : c.Balanced :=
    run_invariant_of_along (fun _ _ h he => h.step he) (initial_balanced clientMode params) hevs
  exact ⟨h.streamLimit, h.total, h.limit, fun e id n hc he hex => h.refuses hc he hex⟩

/-- A client receives nearly all it allows, and then four times learns of data of the greatest size
that a peer can announce. -/
def limitWraps : List StreamEvent :=
  [.mode true false, .openStream 12, .streamFrame 0 97 false [0]] ++
    [0, 4, 8, 12].map fun id => .openFlowControl id ⟨2 ^ 62 - 1, by omega⟩

/-- The limit wraps, and falls below what was received. -/
theorem limit_wraps :
    let c := run Cnx.step (Cnx.initial true ⟨100, 100, 100, 100⟩) limitWraps
    c.error = none ∧ c.dataReceived = 98 ∧ c.maxdataLocal = 96 ∧
      ¬ c.dataReceived ≤ c.maxdataLocal := by
  decide +kernel

theorem Cnx.run_balanced_sample :
    let c := run step (initial false ⟨100, 100, 100, 100⟩)
      [.mode true false, .streamFrame 0 0 false [1, 2], .openFlowControl 0 1000]
    (∀ s ∈ c.everyStream, s.finOffset ≤ s.maxdataLocal) ∧
      c.dataReceived = (c.everyStream.map finOffset).sum ∧
      c.dataReceived ≤ c.maxdataLocal := by
  have hevs : Along step (fun c e => e.NoWrap c) (initial false ⟨100, 100, 100, 100⟩)
      [.mode true false, .streamFrame 0 0 false [1, 2], .openFlowControl 0 1000] :=
    ⟨trivial, trivial, fun _ _ _ => by decide +kernel, trivial⟩
  obtain ⟨hstream, htotal, hlimit, -⟩ := run_balanced hevs
  exact ⟨hstream, htotal, hlimit⟩

end Picoquic
