import Picoquic.ForMathlib.Slice
import Picoquic.Stream.Cases

/-!
# Stream reassembly

Frames bring slices of a byte string `B` in any order, with any overlap. What the stream hands
over to the application is a prefix of `B`, exactly as far as `B` has arrived without a gap, and
what waits in the tree are disjoint slices beyond a gap.

* **`Pending`** — a tree of disjoint slices that begin at or after a position;
* **`queueNetworkInput_spec`**, **`StreamHead.Delivers.popChunks`** — filling the gaps of the tree
  and delivering from it, as statements about the positions that have arrived;
* **`StreamHead.Reassembles`** — the invariant of a stream, kept by every event
  (`reassembles_invariant`), and from it the result on whole runs (`stream_reassembly`).
-/

namespace Picoquic

open RangeList Runs

/-! ### Pending data -/

/-- Where a chunk stops. -/
def Chunk.stop (c : Chunk) : ℕ := c.offset + c.bytes.length

/-- A position of a chunk. -/
def Chunk.Holds (c : Chunk) (p : ℕ) : Prop := c.offset ≤ p ∧ p < c.stop

/-- A position of a tree. -/
def Holds (tree : List Chunk) (p : ℕ) : Prop := ∃ c ∈ tree, c.Holds p

@[simp]
theorem holds_nil (p : ℕ) : ¬ Holds [] p := by simp [Holds]

variable {l : List Chunk} {lo : ℕ} {s : StreamHead}

theorem holds_cons {c : Chunk} {p : ℕ} : Holds (c :: l) p ↔ c.Holds p ∨ Holds l p := by simp [Holds]

theorem holds_append {l l' : List Chunk} {p : ℕ} :
    Holds (l ++ l') p ↔ Holds l p ∨ Holds l' p := by simp [Holds, or_and_right, exists_or]

/-- **Pending data**: non-empty slices of `B` in order, disjoint, not before `lo`. -/
structure Pending (B : List UInt8) (lo : ℕ) (tree : List Chunk) : Prop where
  slice : ∀ c ∈ tree, IsSliceAt B c.offset c.bytes
  pos : ∀ c ∈ tree, c.offset < c.stop
  le_offset : ∀ c ∈ tree, lo ≤ c.offset
  disjoint : tree.Pairwise fun a b => a.stop ≤ b.offset

variable {B bytes : List UInt8}

theorem pending_nil (lo : ℕ) : Pending B lo [] := by constructor <;> simp

theorem pending_cons {c : Chunk} :
    Pending B lo (c :: l) ↔
      IsSliceAt B c.offset c.bytes ∧ c.offset < c.stop ∧ lo ≤ c.offset ∧ Pending B c.stop l := by
  constructor
  · rintro ⟨hs, hp, hlo, hd⟩
    rw [List.pairwise_cons] at hd
    exact ⟨hs c List.mem_cons_self, hp c List.mem_cons_self, hlo c List.mem_cons_self,
      fun d hd' => hs d (List.mem_cons_of_mem c hd'),
      fun d hd' => hp d (List.mem_cons_of_mem c hd'), hd.1, hd.2⟩
  · rintro ⟨hs, hp, hlo, hl⟩
    refine ⟨by simpa using ⟨hs, hl.slice⟩, by simpa using ⟨hp, hl.pos⟩, ?_,
      List.pairwise_cons.mpr ⟨hl.le_offset, hl.disjoint⟩⟩
    rintro d hd
    rcases List.mem_cons.mp hd with rfl | hd
    · exact hlo
    · have := hl.le_offset d hd
      omega

/-- Two trees, one after the other. -/
theorem pending_append {lo mid : ℕ} {l l' : List Chunk} (hl : Pending B lo l)
    (hl' : Pending B mid l') (hmid : ∀ c ∈ l, c.stop ≤ mid) (hlo : lo ≤ mid) :
    Pending B lo (l ++ l') := by
  refine ⟨?_, ?_, ?_, List.pairwise_append.mpr ⟨hl.disjoint, hl'.disjoint, ?_⟩⟩
  · rintro c hc
    exact (List.mem_append.mp hc).elim (hl.slice c) (hl'.slice c)
  · rintro c hc
    exact (List.mem_append.mp hc).elim (hl.pos c) (hl'.pos c)
  · rintro c hc
    exact (List.mem_append.mp hc).elim (hl.le_offset c) fun h => hlo.trans (hl'.le_offset c h)
  · intro c hc d hd
    exact (hmid c hc).trans (hl'.le_offset d hd)

theorem Pending.mono {lo lo' : ℕ} (hl : Pending B lo l) (h : ∀ c ∈ l, lo' ≤ c.offset) :
    Pending B lo' l :=
  ⟨hl.slice, hl.pos, h, hl.disjoint⟩

theorem Pending.sublist {l l' : List Chunk} (hl : Pending B lo l) (h : l'.Sublist l) :
    Pending B lo l' :=
  ⟨fun c hc => hl.slice c (h.subset hc), fun c hc => hl.pos c (h.subset hc),
    fun c hc => hl.le_offset c (h.subset hc), hl.disjoint.sublist h⟩

/-! ### Filling the gaps -/

/-- The part of a frame between two positions is a slice. -/
theorem frameChunk_spec {inputBegin start stop : ℕ} (hb : IsSliceAt B inputBegin bytes)
    (h1 : inputBegin ≤ start) (h2 : start < stop) (h3 : stop ≤ inputBegin + bytes.length) :
    IsSliceAt B (frameChunk inputBegin bytes start stop).offset
        (frameChunk inputBegin bytes start stop).bytes ∧
      (frameChunk inputBegin bytes start stop).offset = start ∧
      (frameChunk inputBegin bytes start stop).stop = stop := by
  refine ⟨?_, rfl, ?_⟩
  · have h := (hb.drop (k := start - inputBegin) (by omega)).take (stop - start)
    rwa [Nat.add_sub_cancel' h1] at h
  · simp only [Chunk.stop, frameChunk, List.length_take, List.length_drop]
    omega

/-- **Filling the gaps.** The new chunks are slices between the old ones, they hold what the frame
brings from `fo` on, and nothing else is new. -/
theorem fillGaps_spec {inputBegin fo : ℕ} (hb : IsSliceAt B inputBegin bytes)
    (hfo : inputBegin ≤ fo) (hl : Pending B fo l) :
    Pending B fo (fillGaps inputBegin bytes fo l).1 ∧
      (∀ p, Holds (fillGaps inputBegin bytes fo l).1 p ↔
        Holds l p ∨ fo ≤ p ∧ p < inputBegin + bytes.length) ∧
      ((fillGaps inputBegin bytes fo l).2 = false → (fillGaps inputBegin bytes fo l).1 = l) := by
  induction l generalizing fo with
  | nil =>
    rw [fillGaps]
    split_ifs with h
    · obtain ⟨hs, ho, he⟩ := frameChunk_spec hb hfo h le_rfl
      refine ⟨pending_cons.mpr ⟨hs, by rw [ho, he]; exact h, ho.ge, pending_nil _⟩, fun p => ?_,
        fun h => absurd h (by simp)⟩
      rw [holds_cons, Chunk.Holds, ho, he]
      simp
    · refine ⟨pending_nil _, fun p => ?_, fun _ => rfl⟩
      simp only [holds_nil, false_or, false_iff]
      omega
  | cons next rest ih =>
    obtain ⟨hs, hpos, hlo, hrest⟩ := pending_cons.mp hl
    have hstop : next.stop = next.offset + next.bytes.length := rfl
    rw [fillGaps]
    by_cases h : fo < inputBegin + bytes.length
    · rw [if_pos h]
      by_cases hn : next.offset < inputBegin + bytes.length
      · rw [if_pos hn]
        obtain ⟨ih1, ih2, ih3⟩ := ih (by omega : inputBegin ≤ next.stop) hrest
        rw [← hstop]
        dsimp only
        split_ifs with hgap
        · -- a gap before the next chunk
          obtain ⟨gs, go, ge⟩ := frameChunk_spec hb hfo hgap hn.le
          refine ⟨pending_cons.mpr ⟨gs, by rw [go, ge]; exact hgap, go.ge, ?_⟩, fun p => ?_,
            fun h => absurd h (by simp)⟩
          · exact pending_cons.mpr ⟨hs, hpos, ge.le, ih1⟩
          · rw [holds_cons, holds_cons, holds_cons, ih2, Chunk.Holds, Chunk.Holds, go, ge]
            constructor
            · rintro (h' | h' | h' | h')
              · exact Or.inr ⟨h'.1, by omega⟩
              · exact Or.inl (Or.inl h')
              · exact Or.inl (Or.inr h')
              · exact Or.inr ⟨by omega, h'.2⟩
            · rintro ((h' | h') | h')
              · exact Or.inr (Or.inl h')
              · exact Or.inr (Or.inr (Or.inl h'))
              · by_cases hp : p < next.offset
                · exact Or.inl ⟨h'.1, hp⟩
                · by_cases hp' : p < next.stop
                  · exact Or.inr (Or.inl ⟨by omega, hp'⟩)
                  · exact Or.inr (Or.inr (Or.inr ⟨by omega, h'.2⟩))
        · -- no gap before the next chunk
          refine ⟨pending_cons.mpr ⟨hs, hpos, hlo, ih1⟩, fun p => ?_, fun h => ?_⟩
          · rw [holds_cons, holds_cons, ih2, Chunk.Holds]
            constructor
            · rintro (h' | h' | h')
              · exact Or.inl (Or.inl h')
              · exact Or.inl (Or.inr h')
              · exact Or.inr ⟨by omega, h'.2⟩
            · rintro ((h' | h') | h')
              · exact Or.inl h'
              · exact Or.inr (Or.inl h')
              · by_cases hp' : p < next.stop
                · exact Or.inl ⟨by omega, hp'⟩
                · exact Or.inr (Or.inr ⟨by omega, h'.2⟩)
          · rw [ih3 h]
      · -- the next chunk is behind the input
        rw [if_neg hn]
        obtain ⟨gs, go, ge⟩ := frameChunk_spec hb hfo h le_rfl
        refine ⟨pending_cons.mpr ⟨gs, by rw [go, ge]; exact h, go.ge, ?_⟩, fun p => ?_,
          fun h => absurd h (by simp)⟩
        · exact pending_cons.mpr ⟨hs, hpos, by omega, hrest⟩
        · rw [holds_cons, Chunk.Holds, go, ge, or_comm]
    · -- nothing of the input is left
      rw [if_neg h]
      refine ⟨hl, fun p => ?_, fun _ => rfl⟩
      constructor
      · exact Or.inl
      · rintro (h' | h')
        · exact h'
        · omega

/-- The end of the last chunk that begins up to `start` separates the chunks up to `start` from
those beyond. -/
private theorem skipPrevious_spec {lo start : ℕ} {l l' : List Chunk} (hl : Pending B lo (l ++ l'))
    (hle : ∀ c ∈ l, c.offset ≤ start) (hlt : ∀ c ∈ l', start < c.offset) :
    start ≤ skipPrevious start l ∧ (∀ c ∈ l, c.stop ≤ skipPrevious start l) ∧
      (∀ c ∈ l', skipPrevious start l ≤ c.offset) ∧
      ∀ p, start ≤ p → p < skipPrevious start l → Holds l p := by
  obtain ⟨hd, -, hcross⟩ := List.pairwise_append.mp hl.disjoint
  rcases List.eq_nil_or_concat l with rfl | ⟨init, prev, rfl⟩
  · have hs : skipPrevious start [] = start := rfl
    rw [hs]
    exact ⟨le_rfl, by simp, fun c hc => (hlt c hc).le, fun p h1 h2 => absurd h1 (by omega)⟩
  have hs : skipPrevious start (init.concat prev) = max start prev.stop := by
    simp [skipPrevious, Chunk.stop]
  have hprev : prev ∈ init.concat prev := by simp
  have hpo := hle prev hprev
  rw [hs]
  refine ⟨le_max_left _ _, fun c hc => ?_, fun c hc => ?_, fun p h1 h2 => ?_⟩
  · rw [List.concat_eq_append, List.mem_append, List.mem_singleton] at hc
    rcases hc with hc | rfl
    · rw [List.concat_eq_append, List.pairwise_append] at hd
      have := hd.2.2 c hc prev (by simp)
      omega
    · exact le_max_right _ _
  · exact max_le (hlt c hc).le (hcross prev hprev c hc)
  · exact ⟨prev, hprev, hpo.trans h1, by omega⟩

variable {tree : List Chunk}

/-- Queueing splits the tree at the begin of the frame. -/
private theorem queueNetworkInput_eq {consumedOffset offset start : ℕ}
    (hs : start = max offset consumedOffset) (h : start < offset + bytes.length) :
    queueNetworkInput tree consumedOffset offset bytes =
      (below Chunk.offset start tree ++
          (fillGaps offset bytes (skipPrevious start (below Chunk.offset start tree))
            (above Chunk.offset start tree)).1,
        (fillGaps offset bytes (skipPrevious start (below Chunk.offset start tree))
          (above Chunk.offset start tree)).2) := by
  subst hs
  rw [queueNetworkInput, if_pos h]
  rfl

/-- **Queueing a frame.** The new tree holds what the old one did and what the frame brings beyond
the consumed part. -/
theorem queueNetworkInput_spec {lo consumedOffset offset : ℕ} (hb : IsSliceAt B offset bytes)
    (ht : Pending B lo tree) (hlo : lo ≤ max offset consumedOffset) :
    Pending B lo (queueNetworkInput tree consumedOffset offset bytes).1 ∧
      (∀ p, Holds (queueNetworkInput tree consumedOffset offset bytes).1 p ↔
        Holds tree p ∨ max offset consumedOffset ≤ p ∧ p < offset + bytes.length) ∧
      ((queueNetworkInput tree consumedOffset offset bytes).2 = false →
        (queueNetworkInput tree consumedOffset offset bytes).1 = tree) := by
  generalize hstart : max offset consumedOffset = start at *
  by_cases h : start < offset + bytes.length
  swap
  · rw [queueNetworkInput, hstart, if_neg h]
    refine ⟨ht, fun p => ?_, fun _ => rfl⟩
    constructor
    · exact Or.inl
    · rintro (h' | h')
      · exact h'
      · omega
  rw [queueNetworkInput_eq hstart.symm h]
  have hsorted : tree.Pairwise fun a b => a.offset < b.offset := by
    refine ht.disjoint.imp_of_mem fun ha _ hab => ?_
    exact (ht.pos _ ha).trans_le hab
  have hle : ∀ c ∈ below Chunk.offset start tree, c.offset ≤ start := fun c => lo_le_of_mem_below
  have hlt : ∀ c ∈ above Chunk.offset start tree, start < c.offset := fun c =>
    lt_lo_of_mem_above hsorted
  have hsplit : below Chunk.offset start tree ++ above Chunk.offset start tree = tree :=
    below_append_above start tree
  revert hle hlt hsplit
  generalize below Chunk.offset start tree = before
  generalize above Chunk.offset start tree = after
  rintro hle hlt rfl
  obtain ⟨hstart', hstop, hafter, hcover⟩ := skipPrevious_spec ht hle hlt
  have hbefore := ht.sublist (List.sublist_append_left before after)
  have hrest := (ht.sublist (List.sublist_append_right before after)).mono hafter
  obtain ⟨h1, h2, h3⟩ := fillGaps_spec hb (by omega) hrest
  refine ⟨pending_append hbefore h1 hstop (by omega), fun p => ?_, fun hnew => ?_⟩
  · rw [holds_append, holds_append, h2]
    constructor
    · rintro (h' | h' | h')
      · exact Or.inl (Or.inl h')
      · exact Or.inl (Or.inr h')
      · exact Or.inr ⟨by omega, h'.2⟩
    · rintro ((h' | h') | h')
      · exact Or.inl h'
      · exact Or.inr (Or.inl h')
      · by_cases hp : p < skipPrevious start before
        · exact Or.inl (hcover p h'.1 hp)
        · exact Or.inr (Or.inr ⟨by omega, h'.2⟩)
  · exact congrArg _ (h3 hnew)

/-! ### Delivering -/

/-- The data of a call. -/
def CallbackEvent.data : CallbackEvent → List UInt8
  | .streamData data => data
  | .streamFin data => data
  | .streamReset => []

/-- The call that signals the end of a stream. -/
def CallbackEvent.isFin : CallbackEvent → Bool
  | .streamFin _ => true
  | .streamData _ | .streamReset => false

/-- All data handed to the application. -/
def StreamHead.delivered (s : StreamHead) : List UInt8 := s.calls.flatMap CallbackEvent.data

/-- How often the end was signalled. -/
def StreamHead.finCount (s : StreamHead) : ℕ := s.calls.countP CallbackEvent.isFin

/-- **Delivery so far.** What was handed over is a prefix of `B`; the end is signalled once at
most, and only after all of `B`. -/
structure StreamHead.Delivers (B : List UInt8) (s : StreamHead) : Prop where
  delivered_eq : s.delivered = B.take s.consumedOffset
  consumed_le : s.consumedOffset ≤ B.length
  finOffset_eq : s.finReceived = true → s.finOffset = B.length
  signalled : s.finSignalled = true → s.finReceived = true ∧ s.consumedOffset = B.length
  finCount_eq : s.finCount = if s.finSignalled then 1 else 0
  listening : s.stopSendingRequested = false ∧ s.isDiscarded = false

/-- What one call hands over, to an application that listens. -/
theorem StreamHead.dataChunkCallback_calls
    (hlis : s.stopSendingRequested = false ∧ s.isDiscarded = false) (bytes : List UInt8) :
    (s.dataChunkCallback bytes).delivered = s.delivered ++ bytes ∧
      (s.dataChunkCallback bytes).finCount =
        s.finCount + if s.finNow (s.consumedOffset + bytes.length) then 1 else 0 := by
  simp only [dataChunkCallback, hlis.1, hlis.2, Bool.not_false, Bool.and_true, delivered, finCount]
  cases s.finNow (s.consumedOffset + bytes.length) with
  | false =>
    cases bytes with
    | nil => simp
    | cons b bytes => simp [CallbackEvent.data, CallbackEvent.isFin]
  | true => simp [CallbackEvent.data, CallbackEvent.isFin]

/-- **One call.** Handing over the slice at the consumed offset continues the prefix, and signals
the end when it is reached and known. -/
theorem StreamHead.Delivers.dataChunkCallback (hs : s.Delivers B)
    (hb : IsSliceAt B s.consumedOffset bytes) :
    (s.dataChunkCallback bytes).Delivers B ∧
      ((s.dataChunkCallback bytes).finSignalled = true ↔
        s.finReceived = true ∧ s.consumedOffset + bytes.length = B.length) := by
  obtain ⟨hdel, hle, hfo, hsig, hcount, hlis⟩ := hs
  have hend := hb.end_le
  have hnow : s.finNow (s.consumedOffset + bytes.length) = true ↔
      s.finReceived = true ∧ s.finSignalled = false ∧
        s.consumedOffset + bytes.length = B.length := by
    simp only [finNow, Bool.and_eq_true, decide_eq_true_eq, Bool.not_eq_true']
    constructor
    · rintro ⟨⟨h, hr⟩, hns⟩
      have := hfo hr
      exact ⟨hr, hns, by omega⟩
    · rintro ⟨hr, hns, he⟩
      have := hfo hr
      exact ⟨⟨by omega, hr⟩, hns⟩
  have hfin : (s.dataChunkCallback bytes).finSignalled = true ↔
      s.finReceived = true ∧ s.consumedOffset + bytes.length = B.length := by
    change (s.finSignalled || s.finNow (s.consumedOffset + bytes.length)) = true ↔ _
    rw [Bool.or_eq_true, hnow]
    constructor
    · rintro (h | ⟨hr, -, he⟩)
      · obtain ⟨hr, he⟩ := hsig h
        exact ⟨hr, by omega⟩
      · exact ⟨hr, he⟩
    · rintro ⟨hr, he⟩
      cases h : s.finSignalled
      · exact Or.inr ⟨hr, rfl, he⟩
      · exact Or.inl rfl
  obtain ⟨hdel', hcount'⟩ := dataChunkCallback_calls hlis bytes
  refine ⟨⟨?_, hend, hfo, hfin.mp, ?_, hlis⟩, hfin⟩
  · rw [hdel', hdel]
    exact hb.take_append
  · rw [hcount', hcount]
    change _ =
      if (s.finSignalled || s.finNow (s.consumedOffset + bytes.length)) = true then 1 else 0
    cases h : s.finSignalled
    · simp
    · have : s.finNow (s.consumedOffset + bytes.length) ≠ true := fun hn => by
        have := (hnow.mp hn).2.1
        rw [h] at this
        cases this
      simp [this]

/-- **Popping chunks.** The chunks that continue what was consumed are delivered; what remains
lies beyond a gap. -/
theorem StreamHead.Delivers.popChunks (hs : s.Delivers B) (hl : Pending B lo l) :
    (s.popChunks l).Delivers B ∧
      Pending B ((s.popChunks l).consumedOffset + 1) (s.popChunks l).streamDataTree ∧
      ∀ p, (p < (s.popChunks l).consumedOffset ∨ Holds (s.popChunks l).streamDataTree p) ↔
        p < s.consumedOffset ∨ Holds l p := by
  induction l generalizing s lo with
  | nil =>
    refine ⟨⟨hs.1, hs.2, hs.3, hs.4, hs.5, hs.6⟩, pending_nil _, fun p => Iff.rfl⟩
  | cons data rest ih =>
    obtain ⟨hslice, hpos, hlo, hrest⟩ := pending_cons.mp hl
    have hstop : data.stop = data.offset + data.bytes.length := rfl
    rw [StreamHead.popChunks]
    split_ifs with h1 h2
    · have hsl := hslice.drop h2
      rw [Nat.add_sub_cancel' h1] at hsl
      obtain ⟨ih1, ih2, ih3⟩ := ih (hs.dataChunkCallback hsl).1 hrest
      refine ⟨ih1, ih2, fun p => ?_⟩
      have hcons : (s.dataChunkCallback
          (data.bytes.drop (s.consumedOffset - data.offset))).consumedOffset = data.stop := by
        change s.consumedOffset + (data.bytes.drop _).length = _
        rw [List.length_drop]
        omega
      rw [ih3 p, hcons, holds_cons, Chunk.Holds]
      constructor
      · rintro (h | h)
        · by_cases hp : p < s.consumedOffset
          · exact Or.inl hp
          · exact Or.inr (Or.inl ⟨by omega, h⟩)
        · exact Or.inr (Or.inr h)
      · rintro (h | h | h)
        · exact Or.inl (by omega)
        · exact Or.inl h.2
        · exact Or.inr h
    · obtain ⟨ih1, ih2, ih3⟩ := ih hs hrest
      refine ⟨ih1, ih2, fun p => ?_⟩
      rw [ih3 p, holds_cons, Chunk.Holds]
      constructor
      · rintro (h | h)
        · exact Or.inl h
        · exact Or.inr (Or.inr h)
      · rintro (h | h | h)
        · exact Or.inl h
        · exact Or.inl (by omega)
        · exact Or.inr h
    · refine ⟨⟨hs.1, hs.2, hs.3, hs.4, hs.5, hs.6⟩, ?_, fun p => Iff.rfl⟩
      exact pending_cons.mpr ⟨hslice, hpos, by dsimp only; omega, hrest⟩

/-- The state of a stream between two frames. -/
structure StreamHead.Settled (B : List UInt8) (s : StreamHead) : Prop extends s.Delivers B where
  pending : Pending B (s.consumedOffset + 1) s.streamDataTree
  signalled_iff : s.finSignalled = true ↔ s.finReceived = true ∧ s.consumedOffset = B.length

/-- The positions that arrived. -/
def StreamHead.Has (s : StreamHead) (p : ℕ) : Prop :=
  p < s.consumedOffset ∨ Holds s.streamDataTree p

theorem StreamHead.Delivers.streamDataCallback (hs : s.Delivers B)
    (ht : Pending B lo s.streamDataTree) :
    s.streamDataCallback.Settled B ∧ ∀ p, s.streamDataCallback.Has p ↔ s.Has p := by
  obtain ⟨h1, h2, h3⟩ := hs.popChunks ht
  obtain ⟨h4, h5⟩ := h1.dataChunkCallback (IsSliceAt.nil h1.consumed_le)
  exact ⟨⟨h4, h2, h5⟩, h3⟩

/-- **One frame.** Taking in a slice adds its positions and settles the stream, if it was settled
before, or if the frame is the last one and the application is to be notified. -/
theorem StreamHead.Delivers.takeIn (hs : s.Delivers B) {offset : ℕ} (hb : IsSliceAt B offset bytes)
    (ht : Pending B (s.consumedOffset + 1) s.streamDataTree) {shouldNotify : Bool}
    (hfin : (s.finSignalled = true ↔ s.finReceived = true ∧ s.consumedOffset = B.length) ∨
      shouldNotify = true ∧ offset + bytes.length = B.length) :
    (s.takeIn offset bytes shouldNotify).Settled B ∧
      ∀ p, (s.takeIn offset bytes shouldNotify).Has p ↔
        s.Has p ∨ offset ≤ p ∧ p < offset + bytes.length := by
  have hle := hs.consumed_le
  rw [StreamHead.takeIn]
  split_ifs with h1 h2
  · -- the frame continues what was consumed
    have hsl := hb.drop (k := s.consumedOffset - offset) (by omega)
    rw [Nat.add_sub_cancel' h1] at hsl
    obtain ⟨h3, h4⟩ := (hs.dataChunkCallback hsl).1.streamDataCallback
      (s := s.dataChunkCallback _) ht
    refine ⟨h3, fun p => ?_⟩
    have hcons : (s.dataChunkCallback (bytes.drop (s.consumedOffset - offset))).consumedOffset =
        offset + bytes.length := by
      change s.consumedOffset + (bytes.drop _).length = _
      rw [List.length_drop]
      omega
    rw [h4 p, Has, hcons, Has]
    change _ ∨ Holds s.streamDataTree p ↔ _
    constructor
    · rintro (h | h)
      · by_cases hp : p < s.consumedOffset
        · exact Or.inl (Or.inl hp)
        · exact Or.inr ⟨by omega, h⟩
      · exact Or.inl (Or.inr h)
    · rintro ((h | h) | h)
      · exact Or.inl (by omega)
      · exact Or.inr h
      · exact Or.inl h.2
  · -- a duplicate
    refine ⟨⟨hs, ht, ?_⟩, fun p => ⟨Or.inl, ?_⟩⟩
    · rcases hfin with h | ⟨-, h⟩
      · exact h
      · omega
    · rintro (h | h)
      · exact h
      · exact Or.inl (by omega)
  · -- the frame waits
    have hmax : max offset s.consumedOffset = offset := by omega
    obtain ⟨hq1, hq2, hq3⟩ := queueNetworkInput_spec hb ht
      (show s.consumedOffset + 1 ≤ max offset s.consumedOffset by omega)
    rw [hmax] at hq2
    dsimp only
    have hhas : ∀ p, ({ s with streamDataTree :=
        (queueNetworkInput s.streamDataTree s.consumedOffset offset bytes).1 } : StreamHead).Has p ↔
        s.Has p ∨ offset ≤ p ∧ p < offset + bytes.length := by
      intro p
      rw [Has, Has, or_assoc, ← hq2]
    split_ifs with hn
    · have hd : ({ s with streamDataTree :=
          (queueNetworkInput s.streamDataTree s.consumedOffset offset bytes).1 } :
            StreamHead).Delivers B := ⟨hs.1, hs.2, hs.3, hs.4, hs.5, hs.6⟩
      obtain ⟨h3, h4⟩ := hd.streamDataCallback hq1
      exact ⟨h3, fun p => (h4 p).trans (hhas p)⟩
    · rw [Bool.or_eq_true, not_or] at hn
      refine ⟨⟨⟨hs.1, hs.2, hs.3, hs.4, hs.5, hs.6⟩, hq1, ?_⟩, hhas⟩
      exact hfin.resolve_right fun h => hn.1 h.1

/-! ### The invariant -/

/-- A frame that arrived holds position `p`. -/
def StreamHead.Received (s : StreamHead) (p : ℕ) : Prop :=
  ∃ offset bytes fin, ReceivedFrame.stream offset bytes fin ∈ s.arrived ∧
    offset ≤ p ∧ p < offset + bytes.length

/-- A frame with the end of the stream arrived. -/
def StreamHead.FinArrived (s : StreamHead) : Prop :=
  ∃ offset bytes, ReceivedFrame.stream offset bytes true ∈ s.arrived

/-- **What reassembly means.** The data handed over are a prefix of `B`, and they end where the
first position is missing; what waits are disjoint slices beyond; the end was signalled once if
it arrived and everything was handed over, and not at all otherwise. -/
structure StreamHead.Reassembles (B : List UInt8) (s : StreamHead) : Prop where
  delivered_eq : s.delivered = B.take s.consumedOffset
  consumed_le : s.consumedOffset ≤ B.length
  received_iff : ∀ p, s.Received p ↔ s.Has p
  pending : Pending B (s.consumedOffset + 1) s.streamDataTree
  finCount_le : s.finCount ≤ 1
  finCount_iff : s.finCount = 1 ↔ s.FinArrived ∧ s.consumedOffset = B.length

/-- **Invariant of a stream** that receives slices of `B`, as long as no error occurred. -/
structure StreamHead.Live (B : List UInt8) (s : StreamHead) : Prop extends s.Settled B where
  received_iff : ∀ p, s.Received p ↔ s.Has p
  finReceived_iff : s.finReceived = true ↔ s.FinArrived
  finOffset_le : s.finOffset ≤ B.length

theorem StreamHead.Live.reassembles (hs : s.Live B) : s.Reassembles B := by
  refine ⟨hs.delivered_eq, hs.consumed_le, hs.received_iff, hs.pending, ?_, ?_⟩
  · rw [hs.finCount_eq]
    split_ifs <;> omega
  · rw [hs.finCount_eq, ← hs.finReceived_iff, ← hs.signalled_iff]
    cases s.finSignalled <;> simp

/-- The events about a stream that receives slices of `B`, with the end on a frame that ends at
the end of `B` only. -/
def StreamEvent.Slices (B : List UInt8) (id : ℕ) : StreamEvent → Prop
  | .streamFrame i offset fin bytes =>
    i = id → IsSliceAt B offset bytes ∧ (fin = true → offset + bytes.length = B.length)
  | .resetFrame i _ _ | .stopSending i | .discard i => i ≠ id
  | .openStream _ | .sending _ _ | .maxStreams _ _ _ _ | .mode _ _ | .maxData _ _
  | .maxStreamData _ _ | .openFlowControl _ _ => True

/-- An accepted frame keeps the invariant. -/
theorem StreamHead.Live.accept (hs : s.Live B) {offset : ℕ} {fin : Bool}
    (hb : IsSliceAt B offset bytes) (hfin : fin = true → offset + bytes.length = B.length) :
    (s.accept offset fin bytes).Live B := by
  have hend := hb.end_le
  have hfo := hs.finOffset_le
  set s₁ : StreamHead :=
    { s with
      finReceived := s.finReceived || fin
      finOffset := max s.finOffset (offset + bytes.length) } with hs₁
  have hd : s₁.Delivers B := by
    refine ⟨hs.delivered_eq, hs.consumed_le, fun h => ?_, fun h => ?_, hs.finCount_eq, hs.listening⟩
    · change max s.finOffset (offset + bytes.length) = B.length
      rcases (Bool.or_eq_true _ _).mp h with h | h
      · have := hs.finOffset_eq h
        omega
      · have := hfin h
        omega
    · obtain ⟨hr, hc⟩ := hs.signalled h
      exact ⟨(Bool.or_eq_true _ _).mpr (Or.inl hr), hc⟩
  have hnotify : (s₁.finSignalled = true ↔
      s₁.finReceived = true ∧ s₁.consumedOffset = B.length) ∨
        (fin && !s.finReceived) = true ∧ offset + bytes.length = B.length := by
    cases hr : s.finReceived with
    | true =>
      left
      change s.finSignalled = true ↔ (s.finReceived || fin) = true ∧ s.consumedOffset = B.length
      rw [hr, Bool.true_or, hs.signalled_iff, hr]
    | false =>
      cases fin with
      | true => exact Or.inr ⟨rfl, hfin rfl⟩
      | false =>
        left
        change s.finSignalled = true ↔ (s.finReceived || false) = true ∧ s.consumedOffset = B.length
        rw [hs.signalled_iff, Bool.or_false]
  obtain ⟨hset, hhas⟩ := hd.takeIn hb hs.pending hnotify
  have hsame := s₁.takeIn_sameFrames offset bytes (fin && !s.finReceived)
  have harr : (s.accept offset fin bytes).arrived =
      s.arrived ++ [.stream offset bytes fin] := by
    change (s₁.takeIn offset bytes (fin && !s.finReceived)).arrived ++ _ = _
    rw [hsame.arrived]
  refine ⟨⟨⟨hset.1.1, hset.1.2, hset.1.3, hset.1.4, hset.1.5, hset.1.6⟩, hset.2, hset.3⟩,
    fun p => ?_, ?_, ?_⟩
  · change _ ↔ (s₁.takeIn offset bytes (fin && !s.finReceived)).Has p
    rw [hhas p]
    change _ ↔ s.Has p ∨ _
    rw [← hs.received_iff]
    simp only [Received, harr, List.mem_append, List.mem_singleton, ReceivedFrame.stream.injEq]
    constructor
    · rintro ⟨o, b, f, h | ⟨rfl, rfl, rfl⟩, hp⟩
      · exact Or.inl ⟨o, b, f, h, hp⟩
      · exact Or.inr hp
    · rintro (⟨o, b, f, h, hp⟩ | hp)
      · exact ⟨o, b, f, Or.inl h, hp⟩
      · exact ⟨offset, bytes, fin, Or.inr ⟨rfl, rfl, rfl⟩, hp⟩
  · change (s₁.takeIn offset bytes (fin && !s.finReceived)).finReceived = true ↔ _
    rw [hsame.finReceived]
    change (s.finReceived || fin) = true ↔ _
    rw [Bool.or_eq_true, hs.finReceived_iff]
    simp only [FinArrived, harr, List.mem_append, List.mem_singleton, ReceivedFrame.stream.injEq]
    constructor
    · rintro (⟨o, b, h⟩ | h)
      · exact ⟨o, b, Or.inl h⟩
      · exact ⟨offset, bytes, Or.inr ⟨rfl, rfl, h.symm⟩⟩
    · rintro ⟨o, b, h | ⟨-, -, h⟩⟩
      · exact Or.inl ⟨o, b, h⟩
      · exact Or.inr h.symm
  · change (s₁.takeIn offset bytes (fin && !s.finReceived)).finOffset ≤ _
    rw [hsame.finOffset]
    exact max_le hfo hend

theorem StreamHead.Live.unread (hs : s.Live B) (isClosed : Bool) (sendHalf : SendHalf)
    (maxdataLocal : ℕ) :
    ({ s with
      isClosed := isClosed
      sendHalf := sendHalf
      maxdataLocal := maxdataLocal } : StreamHead).Live B :=
  ⟨⟨⟨hs.1.1.1, hs.1.1.2, hs.1.1.3, hs.1.1.4, hs.1.1.5, hs.1.1.6⟩, hs.1.2, hs.1.3⟩, hs.2, hs.3, hs.4⟩

theorem StreamHead.IsNew.live (h : s.IsNew) : s.Live B := by
  obtain ⟨c, id, rfl⟩ := h
  refine ⟨⟨⟨rfl, Nat.zero_le _, fun h => absurd h (by simp [Cnx.newStream]),
    fun h => absurd h (by simp [Cnx.newStream]), rfl, rfl, rfl⟩, pending_nil _, ?_⟩, ?_, ?_, ?_⟩
  · simp [Cnx.newStream]
  · simp [Received, Has, Cnx.newStream]
  · simp [FinArrived, Cnx.newStream]
  · exact Nat.zero_le _

/-- Every event with slices keeps the invariant of the stream. -/
theorem reassembles_invariant {id : ℕ} {e : StreamEvent} (he : e.Slices B id) (c : Cnx) :
    StreamInvariant c e fun failed s =>
      s.streamId = id → if failed then s.Reassembles B else s.Live B where
  fail _ h hid := (h hid).reassembles
  new _ h _ := h.live
  closed s h hid := (h hid).unread true s.sendHalf s.maxdataLocal
  sending s sendHalf h hid := (h hid).unread s.isClosed sendHalf s.maxdataLocal
  limit s maxdataLocal h hid := (h hid).unread s.isClosed s.sendHalf maxdataLocal
  stopSending _ h _ hid := by
    subst h
    exact absurd hid he
  discard _ h _ hid := by
    subst h
    exact absurd hid he
  stream s offset fin bytes h _ _ hs hid := by
    subst h
    have hid' : s.streamId = id := by
      rw [← hid, (s.accept_fields offset fin bytes).1]
    obtain ⟨hb, hfin⟩ := he hid'
    exact (hs hid').accept hb hfin
  refuse _ _ _ _ _ _ h hid :=
    have h := (h hid).reassembles
    ⟨h.1, h.2, h.3, h.4, h.5, h.6⟩
  reset s _ _ h _ _ _ hid := by
    subst h
    refine absurd ?_ he
    rw [← hid, StreamHead.acceptReset]
    split_ifs <;> rfl

/-! ### Runs -/

/-- **Stream reassembly.** Take any run of a connection in which the STREAM frames of a stream
carry slices of `B`, with the end on a frame that ends at the end of `B` only, and no other event
interferes with the stream. At the end of the run the data handed over are the prefix of `B` up to
the first position that has not arrived, the waiting chunks are disjoint slices of `B` beyond that
position, and the end was signalled at most once, exactly if it arrived and all of `B` was handed
over. -/
theorem stream_reassembly {id : ℕ} {clientMode : Bool} {params : TransportParameters}
    {evs : List StreamEvent} (hevs : ∀ e ∈ evs, e.Slices B id) {s : StreamHead}
    (hs : s ∈ (run Cnx.step (Cnx.initial clientMode params) evs).everyStream)
    (hid : s.streamId = id) :
    s.delivered = B.take s.consumedOffset ∧ s.consumedOffset ≤ B.length ∧
      (∀ p < s.consumedOffset, s.Received p) ∧ ¬ s.Received s.consumedOffset ∧
      (s.streamDataTree.Pairwise fun a b => a.stop ≤ b.offset) ∧
      (∀ c ∈ s.streamDataTree, IsSliceAt B c.offset c.bytes ∧ s.consumedOffset < c.offset) ∧
      s.finCount ≤ 1 ∧ (s.finCount = 1 ↔ s.FinArrived ∧ s.consumedOffset = B.length) := by
  have h : s.Reassembles B := by
    have := Cnx.run_allStreams (P := fun failed s =>
      s.streamId = id → if failed then s.Reassembles B else s.Live B)
      (along_of_forall (fun e he => reassembles_invariant (hevs e he)) _) s hs hid
    split_ifs at this
    · exact this
    · exact this.reassembles
  refine ⟨h.delivered_eq, h.consumed_le, fun p hp => ?_, ?_, h.pending.disjoint, fun c hc => ?_,
    h.finCount_le, h.finCount_iff⟩
  · exact (h.received_iff p).mpr (Or.inl hp)
  · rw [h.received_iff]
    rintro (hp | ⟨c, hc, hlo, -⟩)
    · omega
    · have := h.pending.le_offset c hc
      omega
  · have := h.pending.le_offset c hc
    exact ⟨h.pending.slice c hc, by omega⟩

/-- A run in which four bytes arrive in two fragments, the later one first. -/
def twoFragments : Cnx :=
  run Cnx.step (Cnx.initial false ⟨100, 100, 100, 100⟩)
    [.streamFrame 0 2 true [3, 4], .streamFrame 0 0 false [1, 2]]

theorem stream_reassembly_twoFragments :
    ∃ s ∈ twoFragments.everyStream, s.streamId = 0 ∧ s.delivered = [1, 2, 3, 4] ∧
      s.finCount ≤ 1 ∧ (s.finCount = 1 ↔ s.FinArrived ∧ s.consumedOffset = 4) := by
  obtain ⟨hlen, hid, hcons⟩ : ∃ h : 0 < twoFragments.everyStream.length,
      twoFragments.everyStream[0].streamId = 0 ∧
        twoFragments.everyStream[0].consumedOffset = 4 := by decide +kernel
  have hslices : ∀ e ∈ [StreamEvent.streamFrame 0 2 true [3, 4], .streamFrame 0 0 false [1, 2]],
      e.Slices [1, 2, 3, 4] 0 := by
    intro e he
    rcases List.mem_pair.mp he with rfl | rfl
    · exact fun _ => ⟨⟨by decide, by decide⟩, fun _ => rfl⟩
    · exact fun _ => ⟨⟨by decide, by decide⟩, fun h => absurd h (by decide)⟩
  obtain ⟨hdel, -, -, -, -, -, hle, hiff⟩ :=
    stream_reassembly hslices (s := twoFragments.everyStream[0]) (List.getElem_mem hlen) hid
  refine ⟨_, List.getElem_mem hlen, hid, ?_, hle, hiff⟩
  rw [hdel, hcons]
  rfl

end Picoquic
