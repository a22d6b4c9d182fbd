import Picoquic.ForMathlib.LinkedList
import Picoquic.Frames.Decode

/-!
# Output streams and the limits of the peer

The streams of a connection that may send are linked in a list of their own; the other local ones
wait until the peer allows more streams. A limit is the identifier of the last stream that is
allowed, while the peer announces a number of streams.

* **`OutputStreams.insertOutputStream`**, **`OutputStreams.addOutputStreams`** — what is linked;
* **`OutputStreams.decodeMaxStreamsFrame`** — the frame that raises a limit;
* **`maxStreamsLaw_iff`** — the limit becomes the maximum of the old number and the announced one,
  and larger numbers are refused as they should be, exactly for the numbers from `1` to `2 ^ 60`.

The number `0` becomes an identifier beyond all others, since it is decremented first.
-/

namespace Picoquic

/-- `picoquic_cnx_t`, the output streams. -/
structure OutputStreams where
  clientMode : Bool
  /-- The identifiers in the tree of the streams. -/
  streams : List ℕ
  sorted : streams.Pairwise (· < ·)
  isOutputStream : ℕ → Bool
  /-- `first_output_stream`, `last_output_stream`, and the pointers of the streams. -/
  outputStreams : LinkedList ℕ
  highPriorityStreamId : ℕ
  maxStreamIdBidirRemote : ℕ
  maxStreamIdUnidirRemote : ℕ
  streamBlockedBidirSent : Bool
  streamBlockedUnidirSent : Bool

/-- A stream is linked in front. The end of the list is not changed, not even that of an empty
list. -/
def linkInFront (L : LinkedList ℕ) (x : ℕ) : LinkedList ℕ :=
  let first := L.first
  let L := (L.setPrevious (some x) none).setNext (some x) first
  { L.setPrevious first (some x) with first := some x }

/-- A stream is linked at the end. -/
def linkAtEnd (L : LinkedList ℕ) (x : ℕ) : LinkedList ℕ :=
  let last := L.last
  let L := (L.setPrevious (some x) last).setNext (some x) none
  match last with
  | none => { L with first := some x, last := some x }
  | some y => { L.setNext (some y) (some x) with last := some x }

namespace OutputStreams

/-- `picoquic_insert_output_stream`. -/
def insertOutputStream (s : OutputStreams) (streamId : ℕ) : OutputStreams :=
  if s.isOutputStream streamId = true then s
  else
    { s with
      outputStreams :=
        if streamId = s.highPriorityStreamId then linkInFront s.outputStreams streamId
        else linkAtEnd s.outputStreams streamId
      isOutputStream := Function.update s.isOutputStream streamId true }

/-- The loop of `picoquic_add_output_streams`. -/
def addLoop (oldLimit newLimit : ℕ) (isBidir : Bool) : OutputStreams → List ℕ → OutputStreams
  | s, [] => s
  | s, streamId :: next =>
    if oldLimit < streamId then
      if newLimit < streamId then s
      else if isLocalStreamId streamId s.clientMode && isBidirStreamId streamId == isBidir then
        addLoop oldLimit newLimit isBidir (s.insertOutputStream streamId) next
      else addLoop oldLimit newLimit isBidir s next
    else addLoop oldLimit newLimit isBidir s next

/-- The identifier that `picoquic_add_output_streams` looks up. -/
def firstNewId (s : OutputStreams) (oldLimit : ℕ) (isBidir : Bool) : ℕ :=
  streamIdFromRank (u64 (streamRankFromId oldLimit + 1)) s.clientMode (!isBidir)

/-- `picoquic_add_output_streams`: nothing is linked if the first new stream does not exist. -/
def addOutputStreams (s : OutputStreams) (oldLimit newLimit : ℕ) (isBidir : Bool) :
    OutputStreams :=
  addLoop oldLimit newLimit isBidir s (s.streams.dropWhile (· ≠ s.firstNewId oldLimit isBidir))

/-- The limit for the streams of one direction. -/
def maxStreamIdRemote (s : OutputStreams) (isBidir : Bool) : ℕ :=
  if isBidir then s.maxStreamIdBidirRemote else s.maxStreamIdUnidirRemote

/-- The part of `picoquic_decode_max_streams_frame` that compares the identifier with the limit. -/
def raiseMaxStreams (s : OutputStreams) (isBidir : Bool) (maxStreamId : ℕ) : OutputStreams :=
  if isBidir then
    if s.maxStreamIdBidirRemote < maxStreamId then
      { s.addOutputStreams s.maxStreamIdBidirRemote maxStreamId true with
        maxStreamIdBidirRemote := maxStreamId
        streamBlockedBidirSent := false }
    else s
  else if s.maxStreamIdUnidirRemote < maxStreamId then
    { s.addOutputStreams s.maxStreamIdUnidirRemote maxStreamId false with
      maxStreamIdUnidirRemote := maxStreamId
      streamBlockedUnidirSent := false }
  else s

/-- The type of the frame. -/
def maxStreamsFrameType (isBidir : Bool) : ℕ :=
  if isBidir then frameTypeMaxStreamsBidir else frameTypeMaxStreamsUnidir

/-- `picoquic_decode_max_streams_frame`, behind the type: the limit is raised before the number is
checked. -/
def decodeMaxStreamsFrame (s : OutputStreams) (bytes : List UInt8) (isBidir : Bool) :
    OutputStreams × Except FrameError (List UInt8) :=
  match framesVarintDecode bytes with
  | none => (s, .error (formatError (maxStreamsFrameType isBidir)))
  | some (maxStreamRank, rest) =>
    let maxStreamId := streamIdFromRank maxStreamRank s.clientMode (!isBidir)
    (s.raiseMaxStreams isBidir maxStreamId,
      if 2 ^ 62 ≤ maxStreamId then
        .error (.connection transportStreamLimitError (maxStreamsFrameType isBidir))
      else .ok rest)

/-! ### What stays -/

variable (s : OutputStreams)

theorem insertOutputStream_frame (streamId : ℕ) :
    (s.insertOutputStream streamId).clientMode = s.clientMode ∧
      (s.insertOutputStream streamId).maxStreamIdBidirRemote = s.maxStreamIdBidirRemote ∧
      (s.insertOutputStream streamId).maxStreamIdUnidirRemote = s.maxStreamIdUnidirRemote ∧
      (s.insertOutputStream streamId).highPriorityStreamId = s.highPriorityStreamId := by
  rw [insertOutputStream]
  split_ifs <;> exact ⟨rfl, rfl, rfl, rfl⟩

theorem addLoop_frame (oldLimit newLimit : ℕ) (isBidir : Bool) (l : List ℕ) :
    (addLoop oldLimit newLimit isBidir s l).maxStreamIdBidirRemote = s.maxStreamIdBidirRemote ∧
      (addLoop oldLimit newLimit isBidir s l).maxStreamIdUnidirRemote =
        s.maxStreamIdUnidirRemote := by
  induction l generalizing s with
  | nil => exact ⟨rfl, rfl⟩
  | cons streamId next ih =>
    obtain ⟨-, hbidir, hunidir, -⟩ := s.insertOutputStream_frame streamId
    rw [addLoop]
    split_ifs
    · exact ⟨rfl, rfl⟩
    · exact ⟨(ih _).1.trans hbidir, (ih _).2.trans hunidir⟩
    · exact ih s
    · exact ih s

/-- Linking streams does not change the limits; raising one limit does not change the other. -/
theorem maxStreamIdRemote_raiseMaxStreams (isBidir : Bool) (maxStreamId : ℕ) :
    (s.raiseMaxStreams isBidir maxStreamId).maxStreamIdRemote isBidir =
        max (s.maxStreamIdRemote isBidir) maxStreamId ∧
      (s.raiseMaxStreams isBidir maxStreamId).maxStreamIdRemote (!isBidir) =
        s.maxStreamIdRemote (!isBidir) := by
  have hloop := fun old l => addLoop_frame s old maxStreamId isBidir l
  rw [raiseMaxStreams]
  cases isBidir with
  | true =>
    simp only [maxStreamIdRemote, Bool.not_true, if_true, Bool.false_eq_true, if_false]
    split_ifs with h
    · exact ⟨(max_eq_right h.le).symm, (hloop _ _).2⟩
    · exact ⟨(max_eq_left (not_lt.1 h)).symm, rfl⟩
  | false =>
    simp only [maxStreamIdRemote, Bool.not_false, if_true, Bool.false_eq_true, if_false]
    split_ifs with h
    · exact ⟨(max_eq_right h.le).symm, (hloop _ _).1⟩
    · exact ⟨(max_eq_left (not_lt.1 h)).symm, rfl⟩

end OutputStreams

/-! ### Numbers of streams -/

/-- The two lowest bits of the identifiers of the local streams of one direction. -/
def localStreamType (clientMode isBidir : Bool) : ℕ := 2 * (!isBidir).toNat + (!clientMode).toNat

theorem localStreamType_lt (clientMode isBidir : Bool) :
    localStreamType clientMode isBidir < 4 := by
  cases clientMode <;> cases isBidir <;> decide

/-- The number of local streams of one direction that a limit allows. -/
def streamsAllowed (clientMode isBidir : Bool) (limit : ℕ) : ℕ :=
  (limit + 4 - localStreamType clientMode isBidir) / 4

variable {clientMode isBidir : Bool}

theorem lt_streamsAllowed_iff {limit n : ℕ} :
    n < streamsAllowed clientMode isBidir limit ↔
      4 * n + localStreamType clientMode isBidir ≤ limit := by
  have := localStreamType_lt clientMode isBidir
  rw [streamsAllowed]
  omega

theorem streamIdFromRank_of_pos {rank : ℕ} (hpos : 0 < rank) (hlt : rank < 2 ^ 62)
    (clientMode isBidir : Bool) : streamIdFromRank rank clientMode (!isBidir) =
      4 * (rank - 1) + localStreamType clientMode isBidir := by
  rw [streamIdFromRank, sub64_of_le hpos (by omega), u64_of_lt (by omega), localStreamType,
    Nat.add_assoc]

theorem streamIdFromRank_zero (clientMode isBidir : Bool) :
    streamIdFromRank 0 clientMode (!isBidir) =
      2 ^ 64 - 4 + localStreamType clientMode isBidir := by
  cases clientMode <;> cases isBidir <;> decide

theorem streamsAllowed_max {limit rank : ℕ} (hpos : 0 < rank) :
    streamsAllowed clientMode isBidir
        (max limit (4 * (rank - 1) + localStreamType clientMode isBidir)) =
      max (streamsAllowed clientMode isBidir limit) rank := by
  have := localStreamType_lt clientMode isBidir
  rw [streamsAllowed, streamsAllowed]
  omega

/-! ### The frame -/

open OutputStreams

/-- What a frame with the number `v` is to do: more than `2 ^ 60` streams are refused and change no
limit; otherwise the number of streams that are allowed is the maximum of the old one and `v`. -/
structure MaxStreamsLaw (s : OutputStreams) (isBidir : Bool) (v : ℕ) (rest : List UInt8)
    (r : OutputStreams × Except FrameError (List UInt8)) : Prop where
  refused : 2 ^ 60 < v → r.2 = .error (formatError (maxStreamsFrameType isBidir)) ∧
    ∀ b, r.1.maxStreamIdRemote b = s.maxStreamIdRemote b
  accepted : v ≤ 2 ^ 60 → r.2 = .ok rest ∧
    streamsAllowed s.clientMode isBidir (r.1.maxStreamIdRemote isBidir) =
      max (streamsAllowed s.clientMode isBidir (s.maxStreamIdRemote isBidir)) v ∧
    r.1.maxStreamIdRemote (!isBidir) = s.maxStreamIdRemote (!isBidir)

/-- **The frame.** For every state, both directions and every number that a frame can carry. -/
theorem maxStreamsLaw_iff (s : OutputStreams) (isBidir : Bool) {bytes rest : List UInt8} {v : ℕ}
    (h : framesVarintDecode bytes = some (v, rest)) :
    MaxStreamsLaw s isBidir v rest (s.decodeMaxStreamsFrame bytes isBidir) ↔
      1 ≤ v ∧ v ≤ 2 ^ 60 := by
  have hv := framesVarintDecode_lt h
  have htype := localStreamType_lt s.clientMode isBidir
  have hframe := s.maxStreamIdRemote_raiseMaxStreams isBidir
  rw [decodeMaxStreamsFrame, h]
  dsimp only
  rcases Nat.eq_zero_or_pos v with rfl | hpos
  · -- the number 0 is accepted by nobody: its identifier is too large
    refine iff_of_false (fun law => ?_) (by omega)
    have hok := (law.accepted (Nat.zero_le _)).1
    rw [streamIdFromRank_zero] at hok
    simp only at hok
    rw [if_pos (by omega)] at hok
    exact absurd hok (by simp)
  · rw [streamIdFromRank_of_pos hpos hv]
    by_cases hle : v ≤ 2 ^ 60
    · refine iff_of_true ⟨fun hlt => by omega, fun _ => ⟨?_, ?_, (hframe _).2⟩⟩ ⟨hpos, hle⟩
      · exact if_neg (by omega)
      · rw [(hframe _).1, streamsAllowed_max hpos]
    · -- the error that is reported is another one
      refine iff_of_false (fun law => ?_) (by omega)
      have herror := (law.refused (by omega)).1
      simp only at herror
      rw [if_pos (by omega)] at herror
      simp [formatError, transportStreamLimitError, transportFrameFormatError] at herror

/-- A server whose stream `1` waits until a stream is allowed. -/
def waitingServer : OutputStreams where
  clientMode := false
  streams := [1]
  sorted := List.pairwise_singleton _ _
  isOutputStream := fun _ => false
  outputStreams := .empty
  highPriorityStreamId := 2 ^ 64 - 1
  maxStreamIdBidirRemote := 0
  maxStreamIdUnidirRemote := 0
  streamBlockedBidirSent := false
  streamBlockedUnidirSent := false

/-- Five streams. -/
theorem maxStreamsLaw_five :
    MaxStreamsLaw waitingServer true 5 [] (waitingServer.decodeMaxStreamsFrame [5] true) :=
  (maxStreamsLaw_iff waitingServer true (by decide)).mpr ⟨by decide, by decide⟩

/-- The number `0` allows all streams and is refused, and one stream more than there can be raises
the limit before another error than that of the format is reported. -/
theorem no_stream_allows_all :
    ¬ MaxStreamsLaw waitingServer true 0 [] (waitingServer.decodeMaxStreamsFrame [0] true) ∧
      (waitingServer.decodeMaxStreamsFrame [0] true).1.maxStreamIdRemote true = 2 ^ 64 - 3 ∧
      ¬ MaxStreamsLaw waitingServer true (2 ^ 60 + 1) []
        (waitingServer.decodeMaxStreamsFrame [0xD0, 0, 0, 0, 0, 0, 0, 1] true) ∧
      (waitingServer.decodeMaxStreamsFrame [0xD0, 0, 0, 0, 0, 0, 0, 1] true).1.maxStreamIdRemote
        true = 2 ^ 62 + 1 := by
  refine ⟨fun law => ?_, by decide, fun law => ?_, by decide⟩
  · exact absurd (law.accepted (by decide)).1 (by decide)
  · exact absurd (law.refused (by decide)).1 (by decide)

end Picoquic
