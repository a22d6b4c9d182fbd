import Picoquic.Stream.DirectReceive

/-!
# Handing over to direct receive

Frames bring slices of a byte string `B`. Whatever the direct receive function gets should be such
a slice, nothing that arrived should be lost when the application changes over to direct receive,
and each chunk should leave the tree once.

* **`Clean`** — the calls that do no harm: the application does not ask from inside the callback
  for a chunk of the tree, and when it asks from inside the callback for an arriving frame, no
  chunk begins before the end of that frame and stops beyond it;
* **`Sound`** — the invariant of a stream, kept by every event with a clean call;
* **`direct_receive_hand_over`** — the result on whole runs.
-/

namespace Picoquic

namespace DirectStream

open Runs

/-! ### Harmless calls -/

/-- A chunk that holds both sides of position `n`. -/
def Straddles (n : ℕ) (c : Chunk) : Prop := c.offset < n ∧ n < c.stop

instance (n : ℕ) (c : Chunk) : Decidable (Straddles n c) :=
  inferInstanceAs (Decidable (_ ∧ _))

/-- The number of callbacks for chunks of the tree once everything up to `n` is consumed. -/
def reached (n : ℕ) : List Chunk → ℕ
  | [] => 0
  | c :: rest =>
    if c.offset ≤ n then if n < c.stop then reached c.stop rest + 1 else reached n rest else 0

/-- The streams on which the application may ask. -/
def canMark (clientMode : Bool) (s : DirectStream) : Bool :=
  !s.isDeleted && (isBidirStreamId s.streamId || !isLocalStreamId s.streamId clientMode)

/-- A frame that is an error. -/
def Refuses (s : DirectStream) (newFinOffset : ℕ) (fin : Bool) (connectionRoom : ℕ) : Prop :=
  2 ^ 62 ≤ newFinOffset ∨
    if s.finReceived then if fin then s.finOffset ≠ newFinOffset else s.finOffset < newFinOffset
    else s.finOffset < newFinOffset ∧
      (s.maxdataLocal < newFinOffset ∨ connectionRoom < newFinOffset - s.finOffset)

instance (s : DirectStream) (newFinOffset : ℕ) (fin : Bool) (connectionRoom : ℕ) :
    Decidable (s.Refuses newFinOffset fin connectionRoom) := by
  unfold Refuses
  infer_instance

/-- **A clean event.** If a frame is taken in that brings the next data, the application may ask
while it gets these data, unless a chunk straddles their end; it does not ask while it gets a
chunk of the tree. -/
def Clean (clientMode : Bool) (marks : ℕ → Bool) (s : DirectStream) : Event → Prop
  | .frame offset bytes fin _ connectionRoom =>
    s.canMark clientMode = true ∧ s.directReceive = false ∧ s.failed = false ∧
        ¬ s.Refuses (offset + bytes.length) fin connectionRoom ∧
        offset ≤ s.consumedOffset ∧ s.consumedOffset < offset + bytes.length →
      if marks s.calls.length then ∀ c ∈ s.streamDataTree, ¬ Straddles (offset + bytes.length) c
      else ∀ i < reached (offset + bytes.length) s.streamDataTree,
        marks (s.calls.length + 1 + i) = false
  | .mark | .limit _ | .sending _ => True

instance (clientMode : Bool) (marks : ℕ → Bool) (s : DirectStream) (e : Event) :
    Decidable (s.Clean clientMode marks e) := by
  cases e <;> (unfold Clean; infer_instance)

/-! ### What was delivered -/

variable {B bytes : List UInt8} {clientMode : Bool} {marks : ℕ → Bool} {s t u : DirectStream}

/-- A position that the direct receive function got. -/
def Handed (s : DirectStream) (p : ℕ) : Prop :=
  ∃ call ∈ s.directCalls, call.offset ≤ p ∧ p < call.offset + call.bytes.length

/-- A position that was delivered in one way or the other, or waits in the tree. -/
def Covers (s : DirectStream) (p : ℕ) : Prop :=
  p < s.consumedOffset ∨ s.Handed p ∨ Holds s.streamDataTree p

/-- **The invariant** in the middle of an event as well: the data callback got a prefix of `B`,
the direct receive function got slices of `B`, and each chunk that was queued is in the tree or
was removed. -/
structure Base (B : List UInt8) (s : DirectStream) : Prop where
  delivered_eq : s.delivered = B.take s.consumedOffset
  consumed_le : s.consumedOffset ≤ B.length
  finOffset_le : s.finOffset ≤ B.length
  listening : s.stopSendingRequested = false ∧ s.isDiscarded = false
  slices : ∀ call ∈ s.directCalls, IsSliceAt B call.offset call.bytes
  balanced : s.queued.Perm (s.removed ++ s.streamDataTree)
  direct : s.directReceive = true → s.streamDataTree = []

/-- What the callbacks for a frame leave alone, or only add to. -/
structure Follows (s t : DirectStream) : Prop where
  arrived : t.arrived = s.arrived
  streamId : t.streamId = s.streamId
  isDeleted : t.isDeleted = s.isDeleted
  isCorrupted : t.isCorrupted = s.isCorrupted
  direct : s.directReceive = true → t.directReceive = true
  covers : ∀ p, s.Covers p → t.Covers p

theorem Follows.refl (s : DirectStream) : s.Follows s := ⟨rfl, rfl, rfl, rfl, id, fun _ => id⟩

theorem Follows.trans (h : s.Follows t) (h' : t.Follows u) : s.Follows u where
  arrived := h'.arrived.trans h.arrived
  streamId := h'.streamId.trans h.streamId
  isDeleted := h'.isDeleted.trans h.isDeleted
  isCorrupted := h'.isCorrupted.trans h.isCorrupted
  direct := fun hs => h'.direct (h.direct hs)
  covers := fun p hp => h'.covers p (h.covers p hp)

/-! ### The call -/

theorem pendingCall_eq {n : ℕ} {c : Chunk} (hc : ¬ Straddles n c) :
    pendingCall n c =
      if n ≤ c.offset ∧ c.offset < c.stop then some ⟨false, c.offset, c.bytes⟩ else none := by
  have hstop : c.stop = c.offset + c.bytes.length := rfl
  rw [Straddles] at hc
  rw [pendingCall]
  dsimp only
  split_ifs <;> first | rfl | omega

/-- **The call** keeps the invariant and loses nothing, if no chunk straddles the consumed
offset. -/
theorem Base.markDirectReceive (clientMode : Bool) (hs : s.Base B)
    (hslice : ∀ c ∈ s.streamDataTree, IsSliceAt B c.offset c.bytes)
    (hclean : ∀ c ∈ s.streamDataTree, ¬ Straddles s.consumedOffset c) :
    (s.markDirectReceive clientMode).Base B ∧ s.Follows (s.markDirectReceive clientMode) := by
  rw [DirectStream.markDirectReceive]
  by_cases hdel : s.isDeleted = true
  · rw [if_pos hdel]
    exact ⟨hs, .refl s⟩
  rw [if_neg hdel]
  by_cases hlocal : (!isBidirStreamId s.streamId && isLocalStreamId s.streamId clientMode) = true
  · rw [if_pos hlocal]
    exact ⟨hs, .refl s⟩
  rw [if_neg hlocal]
  have hcalls : ∀ c ∈ s.streamDataTree, ∀ call, pendingCall s.consumedOffset c = some call →
      call = ⟨false, c.offset, c.bytes⟩ := by
    intro c hc call hcall
    rw [pendingCall_eq (hclean c hc)] at hcall
    split_ifs at hcall with h
    exact (Option.some.inj hcall).symm
  have hbase : ({ s with directReceive := true } : DirectStream).drainTree.Base B := by
    refine ⟨hs.delivered_eq, hs.consumed_le, hs.finOffset_le, hs.listening, ?_, ?_, fun _ => rfl⟩
    · intro call hcall
      rcases List.mem_append.mp hcall with h | h
      · exact hs.slices call h
      · obtain ⟨c, hc, hcall⟩ := List.mem_filterMap.mp h
        rw [hcalls c hc call hcall]
        exact hslice c hc
    · change s.queued.Perm (s.removed ++ s.streamDataTree ++ [])
      rw [List.append_nil]
      exact hs.balanced
  have hfollows : s.Follows ({ s with directReceive := true } : DirectStream).drainTree := by
    refine ⟨rfl, rfl, rfl, rfl, fun _ => rfl, fun p hp => ?_⟩
    rcases hp with hp | ⟨call, hcall, hp⟩ | ⟨c, hc, hlo, hp⟩
    · exact Or.inl hp
    · exact Or.inr (Or.inl ⟨call, List.mem_append_left _ hcall, hp⟩)
    · -- a position of a chunk
      by_cases hn : s.consumedOffset ≤ c.offset
      · refine Or.inr (Or.inl ⟨⟨false, c.offset, c.bytes⟩, List.mem_append_right _ ?_, hlo, hp⟩)
        refine List.mem_filterMap.mpr ⟨c, hc, ?_⟩
        rw [pendingCall_eq (hclean c hc), if_pos ⟨hn, by omega⟩]
      · have hstop : c.stop ≤ s.consumedOffset := by
          have := hclean c hc
          rw [Straddles] at this
          omega
        exact Or.inl (by omega : p < s.consumedOffset)
  dsimp only
  split_ifs with hfin
  · refine ⟨⟨hbase.1, hbase.2, hbase.3, hbase.4, ?_, hbase.6, hbase.7⟩, hfollows.trans ?_⟩
    · intro call hcall
      rcases List.mem_append.mp hcall with h | h
      · exact hbase.slices call h
      · rw [List.mem_singleton.mp h]
        exact IsSliceAt.nil hs.finOffset_le
    · refine ⟨rfl, rfl, rfl, rfl, id, fun p hp => ?_⟩
      rcases hp with hp | ⟨call, hcall, hp⟩ | hp
      · exact Or.inl hp
      · exact Or.inr (Or.inl ⟨call, List.mem_append_left _ hcall, hp⟩)
      · exact Or.inr (Or.inr hp)
  · exact ⟨hbase, hfollows⟩

/-- A call that does not fail empties the tree. -/
theorem markDirectReceive_tree (h : s.canMark clientMode = true) :
    (s.markDirectReceive clientMode).streamDataTree = [] := by
  rw [canMark, Bool.and_eq_true, Bool.not_eq_true', Bool.or_eq_true, Bool.not_eq_true'] at h
  rw [markDirectReceive, if_neg (by rw [h.1]; exact Bool.false_ne_true), if_neg]
  · dsimp only
    split_ifs <;> rfl
  · rw [Bool.and_eq_true, Bool.not_eq_true']
    rintro ⟨h1, h2⟩
    rcases h.2 with h3 | h3
    · rw [h1] at h3
      cases h3
    · rw [h2] at h3
      cases h3

theorem markDirectReceive_of_not_canMark (h : s.canMark clientMode = false) :
    s.markDirectReceive clientMode = s := by
  rw [markDirectReceive]
  rw [canMark, Bool.and_eq_false_iff, Bool.not_eq_false', Bool.or_eq_false_iff,
    Bool.not_eq_false'] at h
  rcases h with h | ⟨h1, h2⟩
  · rw [if_pos h]
  · rw [h1, h2, Bool.not_false, Bool.true_and, if_pos rfl, ite_self]

/-- What the call leaves alone. -/
theorem markDirectReceive_fields (s : DirectStream) :
    (s.markDirectReceive clientMode).consumedOffset = s.consumedOffset ∧
      (s.markDirectReceive clientMode).calls = s.calls ∧
      (s.markDirectReceive clientMode).finReceived = s.finReceived ∧
      (s.markDirectReceive clientMode).finSignalled = s.finSignalled ∧
      (s.markDirectReceive clientMode).finOffset = s.finOffset := by
  rw [markDirectReceive]
  dsimp only
  split_ifs <;> exact ⟨rfl, rfl, rfl, rfl, rfl⟩

/-! ### The data callback -/

/-- A stream after a callback in which the application does not ask. -/
def advance (s : DirectStream) (bytes : List UInt8) : DirectStream :=
  { s with toStreamHead := s.toStreamHead.dataChunkCallback bytes }

theorem chunkCallback_def (s : DirectStream) (bytes : List UInt8) :
    s.chunkCallback clientMode marks bytes =
      if s.calls.length < (s.advance bytes).calls.length ∧ marks s.calls.length = true then
        (s.advance bytes).markDirectReceive clientMode
      else s.advance bytes := rfl

theorem chunkCallback_eq (h : marks s.calls.length = true → s.canMark clientMode = false) :
    s.chunkCallback clientMode marks bytes = s.advance bytes := by
  rw [chunkCallback_def]
  split_ifs with hm
  · exact markDirectReceive_of_not_canMark (s := s.advance bytes) (h hm.2)
  · rfl

/-- A callback for the next slice keeps the invariant. -/
theorem Base.advance (hs : s.Base B) (hb : IsSliceAt B s.consumedOffset bytes) :
    (s.advance bytes).Base B ∧ s.Follows (s.advance bytes) := by
  refine ⟨⟨?_, hb.end_le, hs.finOffset_le, hs.listening, hs.slices, hs.balanced, hs.direct⟩,
    rfl, rfl, rfl, rfl, id, fun p hp => ?_⟩
  · have h := (StreamHead.dataChunkCallback_calls hs.listening bytes).1
    refine h.trans ?_
    rw [hs.delivered_eq]
    exact hb.take_append
  · rcases hp with hp | hp
    · exact Or.inl (Nat.lt_add_right _ hp)
    · exact Or.inr hp

theorem finNow_advance (s : DirectStream) (bytes : List UInt8) :
    (s.advance bytes).finNow (s.advance bytes).consumedOffset = false := by
  change (decide (s.finOffset ≤ s.consumedOffset + bytes.length) && s.finReceived &&
    !(s.finSignalled || (decide (s.finOffset ≤ s.consumedOffset + bytes.length) &&
      s.finReceived && !s.finSignalled))) = false
  cases decide (s.finOffset ≤ s.consumedOffset + bytes.length) <;> cases s.finReceived <;>
    cases s.finSignalled <;> rfl

theorem length_calls_advance (hs : s.Base B) (hb : 0 < bytes.length) :
    (s.advance bytes).calls.length = s.calls.length + 1 := by
  change (s.toStreamHead.dataChunkCallback bytes).calls.length = _
  simp only [StreamHead.dataChunkCallback, hs.listening.1, hs.listening.2, hb, decide_true,
    Bool.true_or, Bool.not_false, Bool.and_true, if_true, List.length_append, List.length_singleton]

theorem advance_nil (h : s.finNow s.consumedOffset = false) : s.advance [] = s := by
  simp only [advance, StreamHead.dataChunkCallback, List.length_nil, lt_irrefl, decide_false,
    Bool.or_false, Bool.false_and, Bool.false_eq_true, if_false, Nat.add_zero, h]

/-- **A callback.** If the application asks, no chunk may straddle the end of what it gets. -/
theorem Base.chunkCallback (clientMode : Bool) (marks : ℕ → Bool) (hs : s.Base B)
    (hb : IsSliceAt B s.consumedOffset bytes)
    (hslice : ∀ c ∈ s.streamDataTree, IsSliceAt B c.offset c.bytes)
    (hclean : marks s.calls.length = true → s.canMark clientMode = true →
      s.calls.length < (s.advance bytes).calls.length →
      ∀ c ∈ s.streamDataTree, ¬ Straddles (s.consumedOffset + bytes.length) c) :
    (s.chunkCallback clientMode marks bytes).Base B ∧
      s.Follows (s.chunkCallback clientMode marks bytes) ∧
      (s.chunkCallback clientMode marks bytes).consumedOffset = s.consumedOffset + bytes.length ∧
      ((s.chunkCallback clientMode marks bytes).streamDataTree = [] ∨
        s.chunkCallback clientMode marks bytes = s.advance bytes) := by
  obtain ⟨hbase, hfollows⟩ := hs.advance hb
  rw [chunkCallback_def]
  split_ifs with hm
  · by_cases hcan : s.canMark clientMode = true
    · obtain ⟨h1, h2⟩ := hbase.markDirectReceive clientMode hslice
        (hclean hm.2 hcan hm.1)
      exact ⟨h1, hfollows.trans h2, (markDirectReceive_fields _).1,
        Or.inl (markDirectReceive_tree (s := s.advance bytes) hcan)⟩
    · have h := markDirectReceive_of_not_canMark (s := s.advance bytes) (Bool.eq_false_iff.mpr hcan)
      rw [h]
      exact ⟨hbase, hfollows, rfl, Or.inr rfl⟩
  · exact ⟨hbase, hfollows, rfl, Or.inr rfl⟩

variable {rest : List Chunk}

/-- Removing the first chunk of the tree, which is consumed. -/
theorem Base.pop {data : Chunk} (hs : s.Base B) (htree : s.streamDataTree = data :: rest)
    (hcons : data.stop ≤ s.consumedOffset) :
    ({ s with removed := s.removed ++ [data], streamDataTree := rest } : DirectStream).Base B ∧
      s.Follows { s with removed := s.removed ++ [data], streamDataTree := rest } := by
  refine ⟨⟨hs.1, hs.2, hs.3, hs.4, hs.5, ?_, fun h => ?_⟩, rfl, rfl, rfl, rfl, id, fun p hp => ?_⟩
  · have h := hs.balanced
    rw [htree] at h
    simpa using h
  · have := hs.direct h
    rw [htree] at this
    cases this
  · rcases hp with hp | hp | hp
    · exact Or.inl hp
    · exact Or.inr (Or.inl hp)
    · rw [htree, holds_cons] at hp
      rcases hp with hp | hp
      · exact Or.inl (hp.2.trans_le hcons)
      · exact Or.inr (Or.inr hp)

/-- One round of the loop, if the callback did not empty the tree. -/
theorem popChunks_cons {data : Chunk} (h : data.offset ≤ s.consumedOffset)
    (ht : (if s.consumedOffset - data.offset ≤ data.bytes.length then
      s.chunkCallback clientMode marks (data.bytes.drop (s.consumedOffset - data.offset))
      else s) = t) (htree : t.streamDataTree ≠ []) :
    s.popChunks clientMode marks (data :: rest) =
      popChunks clientMode marks
        { t with removed := t.removed ++ [data], streamDataTree := rest } rest := by
  rw [popChunks, if_pos h, ht]
  exact if_neg htree

/-- **The loop over the tree**, with an application that does not ask in its course. -/
theorem Base.popChunks {lo : ℕ} {l : List Chunk} (hs : s.Base B) (hl : Pending B lo l)
    (htree : s.streamDataTree = l) (hnow : s.finNow s.consumedOffset = false)
    (hmarks : ∀ i < reached s.consumedOffset l, marks (s.calls.length + i) = true →
      s.canMark clientMode = false) :
    (s.popChunks clientMode marks l).Base B ∧ s.Follows (s.popChunks clientMode marks l) ∧
      Pending B ((s.popChunks clientMode marks l).consumedOffset + 1)
        (s.popChunks clientMode marks l).streamDataTree := by
  induction l generalizing s lo with
  | nil => exact ⟨hs, .refl s, by rw [DirectStream.popChunks, htree]; exact pending_nil _⟩
  | cons data rest ih =>
    obtain ⟨hslice, hpos, hlo, hrest⟩ := pending_cons.mp hl
    have hstop : data.stop = data.offset + data.bytes.length := rfl
    by_cases h1 : data.offset ≤ s.consumedOffset
    swap
    · -- a gap before the first chunk
      rw [DirectStream.popChunks, if_neg h1, htree]
      exact ⟨hs, .refl s, pending_cons.mpr ⟨hslice, hpos, by omega, hrest⟩⟩
    by_cases h2 : s.consumedOffset < data.stop
    · -- the chunk continues what was consumed
      have hb := hslice.drop (k := s.consumedOffset - data.offset) (by omega)
      rw [Nat.add_sub_cancel' h1] at hb
      have hreached : reached s.consumedOffset (data :: rest) = reached data.stop rest + 1 := by
        rw [reached, if_pos h1, if_pos h2]
      rw [hreached] at hmarks
      obtain ⟨hbase, hfollows⟩ := hs.advance hb
      have hlen : (data.bytes.drop (s.consumedOffset - data.offset)).length =
          data.stop - s.consumedOffset := by
        rw [List.length_drop]
        omega
      have hcons : (s.advance (data.bytes.drop (s.consumedOffset - data.offset))).consumedOffset =
          data.stop := by
        change s.consumedOffset + (data.bytes.drop (s.consumedOffset - data.offset)).length = _
        omega
      have hcalls := length_calls_advance hs (show 0 < (data.bytes.drop _).length by
        rw [hlen]; omega)
      have hround : (if s.consumedOffset - data.offset ≤ data.bytes.length then
          s.chunkCallback clientMode marks (data.bytes.drop (s.consumedOffset - data.offset))
          else s) = s.advance (data.bytes.drop (s.consumedOffset - data.offset)) := by
        rw [if_pos (by omega), chunkCallback_eq (hmarks 0 (Nat.succ_pos _))]
      have hnow' := finNow_advance s (data.bytes.drop (s.consumedOffset - data.offset))
      have htree' : (s.advance (data.bytes.drop (s.consumedOffset - data.offset))).streamDataTree =
          data :: rest := htree
      rw [popChunks_cons h1 hround (by rw [htree']; exact List.cons_ne_nil _ _)]
      have hcan :
          (s.advance (data.bytes.drop (s.consumedOffset - data.offset))).canMark clientMode =
            s.canMark clientMode := rfl
      revert hbase hfollows hcons hcalls hnow' htree' hcan
      clear hround
      generalize s.advance (data.bytes.drop (s.consumedOffset - data.offset)) = t
      intro hbase hfollows hcons hcalls hnow' htree' hcan
      obtain ⟨hbase', hfollows'⟩ := hbase.pop htree' hcons.ge
      obtain ⟨ih1, ih2, ih3⟩ := ih hbase' hrest rfl hnow' (fun i hi hmi => by
        change t.canMark clientMode = false
        rw [hcan]
        refine hmarks (i + 1) ?_ ?_
        · have : i < reached t.consumedOffset rest := hi
          rw [hcons] at this
          omega
        · have : marks (t.calls.length + i) = true := hmi
          rwa [hcalls, Nat.add_assoc, Nat.add_comm 1] at this)
      exact ⟨ih1, (hfollows.trans hfollows').trans ih2, ih3⟩
    · -- a chunk that is consumed
      have hsame : (if s.consumedOffset - data.offset ≤ data.bytes.length then
          s.chunkCallback clientMode marks (data.bytes.drop (s.consumedOffset - data.offset))
          else s) = s := by
        split_ifs with h3
        · have hdrop : data.bytes.drop (s.consumedOffset - data.offset) = [] :=
            List.drop_eq_nil_of_le (by omega)
          rw [hdrop, chunkCallback_def, advance_nil hnow]
          exact if_neg fun h => lt_irrefl _ h.1
        · rfl
      have hreached : reached s.consumedOffset (data :: rest) = reached s.consumedOffset rest := by
        rw [reached, if_pos h1, if_neg h2]
      rw [hreached] at hmarks
      rw [popChunks_cons h1 hsame (by rw [htree]; exact List.cons_ne_nil _ _)]
      obtain ⟨hbase', hfollows'⟩ := hs.pop htree (by omega)
      obtain ⟨ih1, ih2, ih3⟩ := ih hbase' hrest rfl hnow hmarks
      exact ⟨ih1, hfollows'.trans ih2, ih3⟩

/-- The callback after the loop, which may tell about the end: everything that waits is beyond a
gap. -/
theorem Base.lastCallback (clientMode : Bool) (marks : ℕ → Bool) (hs : t.Base B) (hst : s.Follows t)
    (hl : Pending B (t.consumedOffset + 1) t.streamDataTree) :
    (t.chunkCallback clientMode marks []).Base B ∧
      s.Follows (t.chunkCallback clientMode marks []) ∧
      Pending B ((t.chunkCallback clientMode marks []).consumedOffset + 1)
        (t.chunkCallback clientMode marks []).streamDataTree := by
  obtain ⟨h1, h2, h3, h4⟩ := hs.chunkCallback clientMode marks
    (IsSliceAt.nil hs.consumed_le) hl.slice fun _ _ _ c hc hstr => by
      have := hl.le_offset c hc
      have := hstr.1
      simp only [List.length_nil] at this
      omega
  refine ⟨h1, hst.trans h2, ?_⟩
  rw [h3]
  rcases h4 with h | h
  · rw [h]
    exact pending_nil _
  · rw [h]
    exact hl

/-- **The loop and the end**, with an application that does not ask in the course of the loop. -/
theorem Base.streamDataCallback {lo : ℕ} (hs : s.Base B) (hl : Pending B lo s.streamDataTree)
    (hnow : s.finNow s.consumedOffset = false)
    (hmarks : ∀ i < reached s.consumedOffset s.streamDataTree,
      marks (s.calls.length + i) = true → s.canMark clientMode = false) :
    (s.streamDataCallback clientMode marks).Base B ∧
      s.Follows (s.streamDataCallback clientMode marks) ∧
      Pending B ((s.streamDataCallback clientMode marks).consumedOffset + 1)
        (s.streamDataCallback clientMode marks).streamDataTree := by
  obtain ⟨h1, h2, h3⟩ := hs.popChunks hl rfl hnow hmarks
  exact h1.lastCallback clientMode marks h2 h3

/-! ### Frames -/

/-- Filling the gaps of a tree keeps its chunks. -/
theorem sublist_fillGaps (inputBegin fo : ℕ) (bytes : List UInt8) (l : List Chunk) :
    l.Sublist (fillGaps inputBegin bytes fo l).1 := by
  induction l generalizing fo with
  | nil => exact List.nil_sublist _
  | cons next rest ih =>
    rw [fillGaps]
    dsimp only
    split_ifs
    · exact ((ih _).cons_cons next).cons _
    · exact (ih _).cons_cons next
    · exact List.sublist_cons_self _ _
    · exact List.Sublist.refl _

theorem sublist_queueNetworkInput (tree : List Chunk) (consumedOffset offset : ℕ)
    (bytes : List UInt8) :
    tree.Sublist (queueNetworkInput tree consumedOffset offset bytes).1 := by
  rw [queueNetworkInput]
  dsimp only
  split_ifs
  · have hrefl := List.Sublist.refl (tree.takeWhile fun c => c.offset ≤ max offset consumedOffset)
    have h := hrefl.append
      (sublist_fillGaps offset (skipPrevious (max offset consumedOffset)
        (tree.takeWhile fun c => c.offset ≤ max offset consumedOffset)) bytes
        (tree.dropWhile fun c => c.offset ≤ max offset consumedOffset))
    rwa [List.takeWhile_append_dropWhile] at h
  · exact List.Sublist.refl _

variable {offset : ℕ}

/-- A frame that waits. -/
theorem Base.queueInput (hs : s.Base B) (hb : IsSliceAt B offset bytes)
    (hl : Pending B (s.consumedOffset + 1) s.streamDataTree) (hd : s.directReceive = false)
    (hlt : s.consumedOffset < offset) (shouldNotify : Bool) :
    (s.queueInput clientMode marks offset bytes shouldNotify).Base B ∧
      s.Follows (s.queueInput clientMode marks offset bytes shouldNotify) ∧
      Pending B ((s.queueInput clientMode marks offset bytes shouldNotify).consumedOffset + 1)
        (s.queueInput clientMode marks offset bytes shouldNotify).streamDataTree ∧
      ∀ p, offset ≤ p → p < offset + bytes.length →
        (s.queueInput clientMode marks offset bytes shouldNotify).Covers p := by
  obtain ⟨hq, hholds, -⟩ := queueNetworkInput_spec hb hl
    (show s.consumedOffset + 1 ≤ max offset s.consumedOffset by omega)
  rw [max_eq_left hlt.le] at hholds
  have hsub := sublist_queueNetworkInput s.streamDataTree s.consumedOffset offset bytes
  rw [DirectStream.queueInput]
  revert hq hholds hsub
  generalize queueNetworkInput s.streamDataTree s.consumedOffset offset bytes = q
  obtain ⟨tree, added⟩ := q
  intro hq hholds hsub
  dsimp only at hq hholds hsub ⊢
  set t : DirectStream :=
    { s with streamDataTree := tree, queued := s.queued ++ tree.diff s.streamDataTree } with ht
  have hbase : t.Base B := by
    refine ⟨hs.1, hs.2, hs.3, hs.4, hs.5, ?_, fun h => ?_⟩
    · have hperm := List.subperm_append_diff_self_of_count_le
        (fun x _ => hsub.count_le x : ∀ x ∈ s.streamDataTree, _)
      have h := hs.balanced.append_right (tree.diff s.streamDataTree)
      rw [List.append_assoc] at h
      exact h.trans (hperm.append_left s.removed)
    · have h' : s.directReceive = true := h
      rw [hd] at h'
      cases h'
  have hfollows : s.Follows t := by
    refine ⟨rfl, rfl, rfl, rfl, id, fun p hp => ?_⟩
    rcases hp with hp | hp | hp
    · exact Or.inl hp
    · exact Or.inr (Or.inl hp)
    · exact Or.inr (Or.inr ((hholds p).mpr (Or.inl hp)))
  have hnew : ∀ p, offset ≤ p → p < offset + bytes.length → t.Covers p := fun p h1 h2 =>
    Or.inr (Or.inr ((hholds p).mpr (Or.inr ⟨h1, h2⟩)))
  split_ifs
  · -- the loop stops at once: everything that waits is beyond a gap
    have hpop : t.popChunks clientMode marks tree = t := by
      cases htree : tree with
      | nil => rfl
      | cons data rest =>
        have := hq.le_offset data (by rw [htree]; exact List.mem_cons_self)
        rw [DirectStream.popChunks, if_neg (show ¬ data.offset ≤ t.consumedOffset by
          change ¬ data.offset ≤ s.consumedOffset
          omega)]
    have hcall : t.streamDataCallback clientMode marks = t.chunkCallback clientMode marks [] := by
      rw [DirectStream.streamDataCallback]
      change (t.popChunks clientMode marks tree).chunkCallback clientMode marks [] = _
      rw [hpop]
    rw [hcall]
    obtain ⟨h1, h2, h3⟩ := hbase.lastCallback clientMode marks (.refl t) hq
    exact ⟨h1, hfollows.trans h2, h3, fun p hp hp' => h2.covers p (hnew p hp hp')⟩
  · exact ⟨hbase, hfollows, hq, hnew⟩

/-- A frame for the direct receive function. -/
theorem Base.directInput (hs : s.Base B) (hb : IsSliceAt B offset bytes)
    (hl : Pending B (s.consumedOffset + 1) s.streamDataTree) (fin complete : Bool) :
    (s.directInput offset bytes fin complete).Base B ∧
      s.Follows (s.directInput offset bytes fin complete) ∧
      Pending B ((s.directInput offset bytes fin complete).consumedOffset + 1)
        (s.directInput offset bytes fin complete).streamDataTree ∧
      ∀ p, offset ≤ p → p < offset + bytes.length →
        (s.directInput offset bytes fin complete).Covers p := by
  have hslices : ∀ call ∈ s.directCalls ++ [⟨fin, offset, bytes⟩],
      IsSliceAt B call.offset call.bytes := by
    intro call hcall
    rcases List.mem_append.mp hcall with h | h
    · exact hs.slices call h
    · rw [List.mem_singleton.mp h]
      exact hb
  have hcovers : ∀ p, s.Covers p →
      p < s.consumedOffset ∨
        (∃ call ∈ s.directCalls ++ [⟨fin, offset, bytes⟩],
          call.offset ≤ p ∧ p < call.offset + call.bytes.length) ∨ Holds s.streamDataTree p := by
    intro p hp
    rcases hp with hp | ⟨call, hcall, hp⟩ | hp
    · exact Or.inl hp
    · exact Or.inr (Or.inl ⟨call, List.mem_append_left _ hcall, hp⟩)
    · exact Or.inr (Or.inr hp)
  have hnew : ∀ p, offset ≤ p → p < offset + bytes.length →
      ∃ call ∈ s.directCalls ++ [⟨fin, offset, bytes⟩],
        call.offset ≤ p ∧ p < call.offset + call.bytes.length := fun p h1 h2 =>
    ⟨_, List.mem_append_right _ (List.mem_singleton_self _), h1, h2⟩
  rw [DirectStream.directInput]
  dsimp only
  split_ifs <;>
    exact ⟨⟨hs.1, hs.2, hs.3, hs.4, hslices, hs.6, hs.7⟩, ⟨rfl, rfl, rfl, rfl, id, hcovers⟩, hl,
      fun p h1 h2 => Or.inr (Or.inl (hnew p h1 h2))⟩

/-- After the callback for a frame, the application does not ask in the course of the loop. -/
theorem Base.quiet_loop (hs : s.Base B) (hl : Pending B (s.consumedOffset + 1) s.streamDataTree)
    (hstart : offset ≤ s.consumedOffset) (hstop : s.consumedOffset ≤ offset + bytes.length)
    (hclean : s.canMark clientMode = true → s.consumedOffset < offset + bytes.length →
      if marks s.calls.length then ∀ c ∈ s.streamDataTree, ¬ Straddles (offset + bytes.length) c
      else ∀ i < reached (offset + bytes.length) s.streamDataTree,
      marks (s.calls.length + 1 + i) = false)
    (heq : s.chunkCallback clientMode marks (bytes.drop (s.consumedOffset - offset)) =
      s.advance (bytes.drop (s.consumedOffset - offset))) {i : ℕ}
    (hi : i < reached (offset + bytes.length) s.streamDataTree)
    (hm : marks ((s.advance (bytes.drop (s.consumedOffset - offset))).calls.length + i) = true) :
    s.canMark clientMode = false := by
  by_contra hcan
  have hcan : s.canMark clientMode = true := (Bool.not_eq_false _).mp hcan
  have hlen : (bytes.drop (s.consumedOffset - offset)).length =
      bytes.length - (s.consumedOffset - offset) := List.length_drop
  by_cases hlt : s.consumedOffset < offset + bytes.length
  · have hcalls := length_calls_advance hs
      (show 0 < (bytes.drop (s.consumedOffset - offset)).length by omega)
    have h := hclean hcan hlt
    by_cases hk : marks s.calls.length = true
    · -- then the call would have emptied the tree
      rw [chunkCallback_def, if_pos ⟨by omega, hk⟩] at heq
      have htree := markDirectReceive_tree
        (s := s.advance (bytes.drop (s.consumedOffset - offset))) hcan
      rw [heq] at htree
      have htree' : s.streamDataTree = [] := htree
      rw [htree'] at hi
      exact absurd hi (Nat.not_lt_zero i)
    · rw [if_neg hk] at h
      have hfalse := h i hi
      rw [hcalls] at hm
      rw [hm] at hfalse
      cases hfalse
  · -- the frame brings nothing, and everything that waits is beyond a gap
    cases htree : s.streamDataTree with
    | nil =>
      rw [htree] at hi
      exact absurd hi (Nat.not_lt_zero i)
    | cons data rest =>
      have := hl.le_offset data (by rw [htree]; exact List.mem_cons_self)
      rw [htree, reached, if_neg (by omega)] at hi
      exact absurd hi (Nat.not_lt_zero i)

/-- **A frame.** The data are delivered or wait, if the call that the application may make on the
way is clean. -/
theorem Base.takeIn (hs : s.Base B) (hb : IsSliceAt B offset bytes)
    (hl : Pending B (s.consumedOffset + 1) s.streamDataTree)
    (hclean : s.canMark clientMode = true → s.directReceive = false → offset ≤ s.consumedOffset →
      s.consumedOffset < offset + bytes.length →
      if marks s.calls.length then ∀ c ∈ s.streamDataTree, ¬ Straddles (offset + bytes.length) c
      else ∀ i < reached (offset + bytes.length) s.streamDataTree,
      marks (s.calls.length + 1 + i) = false) (fin shouldNotify complete : Bool) :
    (s.takeIn clientMode marks offset bytes fin shouldNotify complete).Base B ∧
      s.Follows (s.takeIn clientMode marks offset bytes fin shouldNotify complete) ∧
      Pending B
        ((s.takeIn clientMode marks offset bytes fin shouldNotify complete).consumedOffset + 1)
        (s.takeIn clientMode marks offset bytes fin shouldNotify complete).streamDataTree ∧
      ∀ p, offset ≤ p → p < offset + bytes.length →
        (s.takeIn clientMode marks offset bytes fin shouldNotify complete).Covers p := by
  rw [DirectStream.takeIn]
  by_cases hd : s.directReceive = true
  · rw [if_pos hd]
    exact hs.directInput hb hl fin complete
  rw [if_neg hd]
  rw [Bool.not_eq_true] at hd
  by_cases h1 : offset ≤ s.consumedOffset
  swap
  · -- the data is behind a gap
    rw [if_neg h1]
    exact hs.queueInput hb hl hd (by omega) shouldNotify
  rw [if_pos h1]
  by_cases h2 : s.consumedOffset ≤ offset + bytes.length
  swap
  · -- a duplicate
    rw [if_neg h2]
    exact ⟨hs, .refl s, hl, fun p _ hp => Or.inl (by omega)⟩
  rw [if_pos h2]
  have hsl := hb.drop (k := s.consumedOffset - offset) (by omega)
  rw [Nat.add_sub_cancel' h1] at hsl
  have hlen : s.consumedOffset + (bytes.drop (s.consumedOffset - offset)).length =
      offset + bytes.length := by
    rw [List.length_drop]
    omega
  obtain ⟨hbase, hfollows, hcons, htree⟩ := hs.chunkCallback clientMode marks hsl hl.slice
    fun hm hcan hcall c hc => by
      rw [hlen]
      have hlt : s.consumedOffset < offset + bytes.length ∨
          s.consumedOffset = offset + bytes.length := by omega
      rcases hlt with hlt | heq
      · have h := hclean hcan hd h1 hlt
        rw [if_pos hm] at h
        exact h c hc
      · intro hstr
        have := hl.le_offset c hc
        have := hstr.1
        omega
  rw [hlen] at hcons
  have hcover : ∀ p, offset ≤ p → p < offset + bytes.length →
      (s.chunkCallback clientMode marks (bytes.drop (s.consumedOffset - offset))).Covers p :=
    fun p _ hp => Or.inl (by rw [hcons]; exact hp)
  -- the callbacks that follow keep what came in
  have hfinish : ∀ t : DirectStream, s.Follows t →
      (∀ p, offset ≤ p → p < offset + bytes.length → t.Covers p) →
      (t.streamDataCallback clientMode marks).Base B ∧
        t.Follows (t.streamDataCallback clientMode marks) ∧
        Pending B ((t.streamDataCallback clientMode marks).consumedOffset + 1)
          (t.streamDataCallback clientMode marks).streamDataTree →
      (t.streamDataCallback clientMode marks).Base B ∧
        s.Follows (t.streamDataCallback clientMode marks) ∧
        Pending B ((t.streamDataCallback clientMode marks).consumedOffset + 1)
          (t.streamDataCallback clientMode marks).streamDataTree ∧
        ∀ p, offset ≤ p → p < offset + bytes.length →
          (t.streamDataCallback clientMode marks).Covers p :=
    fun t hst hcov h =>
      ⟨h.1, hst.trans h.2.1, h.2.2, fun p hp hp' => h.2.1.covers p (hcov p hp hp')⟩
  refine hfinish _ hfollows hcover ?_
  rcases htree with htree | heq
  · -- nothing is left in the tree
    rw [DirectStream.streamDataCallback, htree]
    refine hbase.lastCallback clientMode marks (.refl _) ?_
    rw [htree]
    exact pending_nil _
  · rw [heq]
    rw [heq] at hbase hcons
    refine hbase.streamDataCallback (s := s.advance _) hl (finNow_advance s _) fun i hi hm => ?_
    rw [hcons] at hi
    exact hs.quiet_loop hl h1 h2 (fun hcan => hclean hcan hd h1) heq hi hm

/-! ### The invariant between two events -/

/-- A frame that was taken in holds position `p`. -/
def Received (s : DirectStream) (p : ℕ) : Prop := s.toStreamHead.Received p

/-- **The invariant** between two events. What waits lies beyond a gap, and everything that was
received was delivered or waits. -/
structure Sound (B : List UInt8) (s : DirectStream) : Prop extends s.Base B where
  intact : s.isCorrupted = false
  pending : Pending B (s.consumedOffset + 1) s.streamDataTree
  received : s.isDeleted = false ∨ s.directReceive = true → ∀ p, s.Received p → s.Covers p

/-- The events about a stream that receives slices of `B`. -/
def Event.Slices (B : List UInt8) : Event → Prop
  | .frame offset bytes _ _ _ => IsSliceAt B offset bytes
  | .mark | .limit _ | .sending _ => True

/-- A new stream has received nothing. -/
theorem sound_initial (c : Cnx) (streamId : ℕ) : (initial c streamId).Sound B where
  delivered_eq := rfl
  consumed_le := Nat.zero_le _
  finOffset_le := Nat.zero_le _
  listening := ⟨rfl, rfl⟩
  slices := fun _ h => absurd h List.not_mem_nil
  balanced := List.Perm.refl _
  direct := fun _ => rfl
  intact := rfl
  pending := pending_nil _
  received := fun _ _ ⟨_, _, _, h, _⟩ => absurd h List.not_mem_nil

section

variable (hs : s.Sound B)

include hs

theorem Sound.unread (isClosed failed : Bool) (sendHalf : SendHalf)
    (maxdataLocal : ℕ) :
    ({ s with
      isClosed := isClosed
      failed := failed
      sendHalf := sendHalf
      maxdataLocal := maxdataLocal } : DirectStream).Sound B :=
  ⟨⟨hs.1.1, hs.1.2, hs.1.3, hs.1.4, hs.1.5, hs.1.6, hs.1.7⟩, hs.2, hs.3, hs.4⟩

/-- Closing a stream. A stream with direct receive has nothing left in its tree. -/
theorem Sound.deleteIfClosed (clientMode : Bool) :
    (s.deleteIfClosed clientMode).Sound B := by
  rw [DirectStream.deleteIfClosed]
  have hclosed : (if (!s.isClosed && s.isStreamClosed clientMode) = true then
      { s with isClosed := true } else s).Sound B := by
    split_ifs
    · exact hs.unread true s.failed s.sendHalf s.maxdataLocal
    · exact hs
  revert hclosed
  generalize (if (!s.isClosed && s.isStreamClosed clientMode) = true then
    { s with isClosed := true } else s) = t
  intro ht
  split_ifs
  · refine ⟨⟨ht.1.1, ht.1.2, ht.1.3, ht.1.4, ht.1.5, ?_, fun _ => rfl⟩, ht.2, pending_nil _, ?_⟩
    · change t.queued.Perm (t.removed ++ t.streamDataTree ++ [])
      rw [List.append_nil]
      exact ht.balanced
    · rintro h p hp
      have hdirect : t.directReceive = true := h.resolve_left fun h => by cases h
      rcases ht.received (Or.inr hdirect) p hp with h' | h' | h'
      · exact Or.inl h'
      · exact Or.inr (Or.inl h')
      · rw [ht.direct hdirect] at h'
        exact absurd h' (holds_nil p)
  · exact ht

/-- The call between two events. -/
theorem Sound.markDirectReceive (clientMode : Bool) :
    (s.markDirectReceive clientMode).Sound B := by
  obtain ⟨h1, h2⟩ := hs.toBase.markDirectReceive clientMode hs.pending.slice fun c hc hstr => by
    have := hs.pending.le_offset c hc
    have := hstr.1
    omega
  refine ⟨h1, h2.isCorrupted.trans hs.intact, ?_, fun hd p hp => h2.covers p ?_⟩
  · by_cases hcan : s.canMark clientMode = true
    · rw [markDirectReceive_tree hcan]
      exact pending_nil _
    · rw [markDirectReceive_of_not_canMark (Bool.eq_false_iff.mpr hcan)]
      exact hs.pending
  · by_cases hcan : s.canMark clientMode = true
    · have hdel : s.isDeleted = false := by
        rw [canMark, Bool.and_eq_true, Bool.not_eq_true'] at hcan
        exact hcan.1
      refine hs.received (Or.inl hdel) p ?_
      rwa [Received, StreamHead.Received, h2.arrived] at hp
    · rw [markDirectReceive_of_not_canMark (Bool.eq_false_iff.mpr hcan)] at hd hp
      exact hs.received hd p hp

theorem Sound.accept (finReceived : Bool) {finOffset : ℕ}
    (h : finOffset ≤ B.length) :
    ({ s with finReceived := finReceived, finOffset := finOffset } : DirectStream).Sound B :=
  ⟨⟨hs.1.1, hs.1.2, h, hs.1.4, hs.1.5, hs.1.6, hs.1.7⟩, hs.2, hs.3, hs.4⟩

theorem Sound.fail : ({ s with failed := true } : DirectStream).Sound B :=
  hs.unread s.isClosed true s.sendHalf s.maxdataLocal

/-- **An accepted frame** keeps the invariant. -/
theorem Sound.deliver (hb : IsSliceAt B offset bytes) (hdel : s.isDeleted = false)
    (hclean : s.canMark clientMode = true → s.directReceive = false → offset ≤ s.consumedOffset →
      s.consumedOffset < offset + bytes.length →
      if marks s.calls.length then ∀ c ∈ s.streamDataTree, ¬ Straddles (offset + bytes.length) c
      else ∀ i < reached (offset + bytes.length) s.streamDataTree,
      marks (s.calls.length + 1 + i) = false) (fin shouldNotify complete : Bool) :
    (s.deliver clientMode marks offset bytes fin shouldNotify complete).Sound B := by
  obtain ⟨hbase, hfollows, hpending, hnew⟩ :=
    hs.toBase.takeIn hb hs.pending hclean fin shouldNotify complete
  have hsound : ({ s.takeIn clientMode marks offset bytes fin shouldNotify complete with
      arrived := (s.takeIn clientMode marks offset bytes fin shouldNotify complete).arrived ++
        [.stream offset bytes fin] } : DirectStream).Sound B := by
    refine ⟨⟨hbase.1, hbase.2, hbase.3, hbase.4, hbase.5, hbase.6, hbase.7⟩,
      hfollows.isCorrupted.trans hs.intact, hpending, ?_⟩
    rintro - p ⟨o, b, f, hmem, hlo, hhi⟩
    change _ ∈ (s.takeIn clientMode marks offset bytes fin shouldNotify complete).arrived ++ _
      at hmem
    rw [hfollows.arrived, List.mem_append, List.mem_singleton, ReceivedFrame.stream.injEq] at hmem
    rcases hmem with hmem | ⟨rfl, rfl, rfl⟩
    · exact hfollows.covers p (hs.received (Or.inl hdel) p ⟨o, b, f, hmem, hlo, hhi⟩)
    · exact hnew p hlo hhi
  rw [DirectStream.deliver]
  dsimp only
  split_ifs
  · exact hsound.deleteIfClosed clientMode
  · exact hsound

/-- **One step.** Every clean event with slices of `B` keeps the invariant. -/
theorem Sound.step {e : Event} (he : e.Slices B)
    (hclean : s.Clean clientMode marks e) : (s.step clientMode marks e).Sound B := by
  rw [DirectStream.step.eq_def]
  by_cases hstop : (s.failed || s.isCorrupted) = true
  · rw [if_pos hstop]
    exact hs
  rw [if_neg hstop]
  cases e with
  | mark => exact hs.markDirectReceive clientMode
  | limit maxdataLocal => exact hs.unread s.isClosed s.failed s.sendHalf maxdataLocal
  | sending sendHalf =>
    dsimp only
    split_ifs
    · exact hs
    · exact (hs.unread s.isClosed s.failed sendHalf s.maxdataLocal).deleteIfClosed clientMode
  | frame offset bytes fin complete connectionRoom =>
    have hb : IsSliceAt B offset bytes := he
    have hend := hb.end_le
    have hfailed : s.failed = false := by
      rw [Bool.or_eq_true, not_or, Bool.not_eq_true] at hstop
      exact hstop.1
    dsimp only
    by_cases hbig : 2 ^ 62 ≤ offset + bytes.length
    · rw [if_pos hbig]
      exact hs.fail
    rw [if_neg hbig, networkInput]
    dsimp only
    by_cases hdel : s.isDeleted = true
    · rw [if_pos hdel]
      exact hs
    rw [if_neg hdel]
    rw [Bool.not_eq_true] at hdel
    have hguard : ¬ s.Refuses (offset + bytes.length) fin connectionRoom →
        s.canMark clientMode = true → s.directReceive = false → offset ≤ s.consumedOffset →
        s.consumedOffset < offset + bytes.length → _ := fun h1 h2 h3 h4 h5 =>
      hclean ⟨h2, h3, hfailed, h1, h4, h5⟩
    by_cases hfin : s.finReceived = true
    · rw [if_pos hfin]
      by_cases hbad : (if fin = true then s.finOffset ≠ offset + bytes.length
          else s.finOffset < offset + bytes.length)
      · rw [if_pos hbad]
        exact hs.fail
      · rw [if_neg hbad]
        refine hs.deliver hb hdel (hguard ?_) fin false complete
        rw [Refuses, if_pos hfin]
        exact not_or.mpr ⟨hbig, hbad⟩
    · rw [if_neg hfin]
      by_cases hnew : s.finOffset < offset + bytes.length
      · rw [if_pos hnew]
        by_cases hbad : s.maxdataLocal < offset + bytes.length ∨
            connectionRoom < offset + bytes.length - s.finOffset
        · rw [if_pos hbad]
          exact (hs.accept fin hs.finOffset_le).fail
        · rw [if_neg hbad]
          refine (hs.accept fin hend).deliver hb hdel (hguard ?_) fin fin complete
          rw [Refuses, if_neg hfin]
          exact not_or.mpr ⟨hbig, fun h => hbad h.2⟩
      · rw [if_neg hnew]
        refine (hs.accept fin hs.finOffset_le).deliver hb hdel (hguard ?_) fin fin complete
        rw [Refuses, if_neg hfin]
        exact not_or.mpr ⟨hbig, fun h => hnew h.1⟩

end

/-! ### Runs -/

/-- **Hand-over to direct receive.** Take any run of a stream whose frames carry slices of `B`, in
which the application asks for direct receive whenever it likes, except from inside a callback
where that is not clean. At the end of the run the data callback got a prefix of `B`, and the
direct receive function slices of `B` at their offsets. Each chunk that was queued is still in the
tree or was removed once. If the application asked, the tree is empty, and every byte that was
received was delivered in one of the two ways. -/
theorem direct_receive_hand_over {c : Cnx} {streamId : ℕ} {evs : List Event}
    (hevs : ∀ e ∈ evs, e.Slices B)
    (hclean : Along (step clientMode marks) (Clean clientMode marks) (initial c streamId) evs) :
    let s := run (step clientMode marks) (initial c streamId) evs
    s.delivered = B.take s.consumedOffset ∧
      (∀ call ∈ s.directCalls, IsSliceAt B call.offset call.bytes) ∧
      s.queued.Perm (s.removed ++ s.streamDataTree) ∧ s.isCorrupted = false ∧
      (s.directReceive = true → s.streamDataTree = [] ∧
        ∀ p, s.Received p → p < s.consumedOffset ∨ s.Handed p) := by
  have hs : (run (step clientMode marks) (initial c streamId) evs).Sound B := by
    have halong := (along_of_forall (P := fun _ e => Event.Slices B e)
      (fun e he _ => hevs e he) _).and hclean
    exact run_invariant_of_along (I := Sound B) (fun s e hs he => hs.step he.1 he.2)
      (sound_initial c streamId) halong
  refine ⟨hs.delivered_eq, hs.slices, hs.balanced, hs.intact, fun hd => ⟨hs.direct hd, ?_⟩⟩
  intro p hp
  rcases hs.received (Or.inr hd) p hp with h | h | h
  · exact Or.inl h
  · exact Or.inr h
  · rw [hs.direct hd] at h
    exact absurd h (holds_nil p)

/-- Four bytes that arrive in two frames, the second one first. -/
def fourBytes : DirectStream := initial (Cnx.initial false ⟨100, 100, 100, 100⟩) 0

theorem direct_receive_hand_over_between :
    let evs := [.frame 2 [3, 4] false false 100, .mark, .frame 0 [1, 2] false false 100]
    let s := run (step false fun _ => false) fourBytes evs
    (∀ call ∈ s.directCalls, IsSliceAt [1, 2, 3, 4] call.offset call.bytes) ∧
      s.streamDataTree = [] ∧ ∀ p, s.Received p → p < s.consumedOffset ∨ s.Handed p := by
  have hevs : ∀ e ∈ [Event.frame 2 [3, 4] false false 100, .mark, .frame 0 [1, 2] false false 100],
      e.Slices [1, 2, 3, 4] := by
    intro e he
    simp only [List.mem_cons, List.not_mem_nil, or_false] at he
    rcases he with rfl | rfl | rfl
    · exact ⟨by decide, by decide⟩
    · trivial
    · exact ⟨by decide, by decide⟩
  obtain ⟨-, h1, -, -, h2⟩ := direct_receive_hand_over (B := [1, 2, 3, 4]) hevs
    (show Along (step false fun _ => false) (Clean false fun _ => false) fourBytes _ by
      decide +kernel)
  exact ⟨h1, h2 (by decide +kernel)⟩

/-- A call from inside the callback goes wrong in two ways. When the first two bytes arrive while
the last three wait, the application that asks while it gets the first two is handed the second
and third byte as the third and fourth. And when it asks while it gets a chunk of the tree, that
chunk is removed twice. -/
theorem direct_receive_inside_callback :
    (∃ call ∈ (run (step false fun k => decide (k = 0)) fourBytes
        [.frame 1 [2, 3, 4] false false 100, .frame 0 [1, 2] false false 100]).directCalls,
      ¬ IsSliceAt [1, 2, 3, 4] call.offset call.bytes) ∧
    ∃ s, s = run (step false fun k => decide (k = 1)) fourBytes
        [.frame 1 [2] false false 100, .frame 0 [1] false false 100] ∧
      s.queued = [⟨1, [2]⟩] ∧ s.removed = [⟨1, [2]⟩, ⟨1, [2]⟩] := by
  refine ⟨⟨⟨false, 2, [2, 3]⟩, by decide +kernel, fun h => ?_⟩, _, rfl, ?_, ?_⟩
  · have := h.isPrefix
    revert this
    decide
  · decide +kernel
  · decide +kernel

end DirectStream

end Picoquic
