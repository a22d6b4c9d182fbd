import Picoquic.Stream.FlowControl
import Picoquic.Stream.OutputStreams
import Picoquic.Transport.Parameters
import Picoquic.Wire.ControlSound

/-!
# The limits on the streams of the peer

A limit is kept as an identifier, the last one that the peer may use, and is announced as a number
of streams. The two mean the same while the type bits of the limit are not below those of the
peer's streams. A limit for two-way streams grows by multiples of four. A limit for one-way streams
grows by the initial limit and four, so that its type bits change.

* **`LimitCnx.step`** — streams of the peer are opened and closed, and packets are prepared;
* **`Tracks`** — how a limit and the number that was announced are related when they mean the same;
* **`streamLimits_agree`** — the runs in which the limits that are enforced are those that were
  announced.
-/

namespace Picoquic

open Runs OutputStreams

/-! ### MAX_STREAMS frames -/

/-- The limit that a MAX_STREAMS frame sets, before it is cut off at 64 bits. -/
def ControlCnx.newMaxStreamId (c : ControlCnx) : Bool → ℕ
  | true => c.maxStreamIdBidirLocal + 4 * streamRankFromId c.initialMaxStreamIdBidir + 4
  | false => c.maxStreamIdUnidirLocal + c.initialMaxStreamIdUnidir + 4

/-- The frame that announces it. -/
def ControlCnx.maxStreamsFrame (c : ControlCnx) (isBidir : Bool) : List UInt8 :=
  UInt8.ofNat (maxStreamsFrameType isBidir) ::
    varintBytes (streamRankFromId (u64 (c.newMaxStreamId isBidir)))

/-- The frame for two-way streams is due, and fits. -/
def ControlCnx.SendsBidir (c : ControlCnx) (space : ℕ) : Prop :=
  c.needsBidir ∧ (c.maxStreamsFrame true).length ≤ space

instance (c : ControlCnx) (space : ℕ) : Decidable (c.SendsBidir space) :=
  inferInstanceAs (Decidable (_ ∧ _))

/-- The frame for one-way streams is due, and fits behind the other one. -/
def ControlCnx.SendsUnidir (c : ControlCnx) (space : ℕ) : Prop :=
  c.needsUnidir ∧ (if c.SendsBidir space then c.maxStreamsFrame true else []).length +
    (c.maxStreamsFrame false).length ≤ space

instance (c : ControlCnx) (space : ℕ) : Decidable (c.SendsUnidir space) :=
  inferInstanceAs (Decidable (_ ∧ _))

/-- A frame is written for the streams of a direction. -/
def ControlCnx.SendsMaxStreams (c : ControlCnx) (space : ℕ) : Bool → Prop
  | true => c.SendsBidir space
  | false => c.SendsUnidir space

instance (c : ControlCnx) (space : ℕ) (isBidir : Bool) :
    Decidable (c.SendsMaxStreams space isBidir) := by
  cases isBidir
  · exact inferInstanceAs (Decidable (c.SendsUnidir space))
  · exact inferInstanceAs (Decidable (c.SendsBidir space))

/-- A frame that is complete counts as sent, and one that does not fit changes nothing. -/
private theorem attempt_limitFrame (c sent : ControlCnx) (space : Space) (flags : PacketFlags)
    (out : List UInt8) (isBidir : Bool) (n : ℕ) :
    ∃ flags', attempt c flags out
        (limitFrame out space (maxStreamsFrameType isBidir) (streamRankFromId n)) sent true =
      if out.length +
          (UInt8.ofNat (maxStreamsFrameType isBidir) :: varintBytes (streamRankFromId n)).length ≤
            space then
        ⟨some (out ++ UInt8.ofNat (maxStreamsFrameType isBidir) ::
          varintBytes (streamRankFromId n)), flags', sent⟩
      else ⟨some out, flags', c⟩ := by
  rw [limitFrame_eq, appendWithin]
  split_ifs
  · exact ⟨_, rfl⟩
  · exact ⟨_, rfl⟩

theorem formatMaxStreamsBidir_eq (c : ControlCnx) (space : Space) (flags : PacketFlags) :
    ∃ flags', formatMaxStreamsBidir c space flags =
      if c.SendsBidir space then
        ⟨some (c.maxStreamsFrame true), flags',
          { c with maxStreamIdBidirLocal := u64 (c.newMaxStreamId true) }⟩
      else ⟨some [], flags', c⟩ := by
  rw [formatMaxStreamsBidir]
  by_cases hneeds : c.needsBidir
  · obtain ⟨flags', h⟩ := attempt_limitFrame c
      { c with maxStreamIdBidirLocal := u64 (c.newMaxStreamId true) } space flags [] true
      (u64 (c.newMaxStreamId true))
    rw [List.length_nil, Nat.zero_add, List.nil_append] at h
    refine ⟨flags', ?_⟩
    rw [if_pos hneeds]
    refine h.trans (if_congr ?_ rfl rfl)
    exact ⟨fun hfits => ⟨hneeds, hfits⟩, fun h => h.2⟩
  · refine ⟨flags, ?_⟩
    rw [if_neg hneeds, if_neg fun h : c.SendsBidir space => hneeds h.1]

theorem formatMaxStreamsUnidir_eq {c c' : ControlCnx} (hneeds : c'.needsUnidir ↔ c.needsUnidir)
    (hnew : c'.newMaxStreamId false = c.newMaxStreamId false) (space : Space)
    (flags : PacketFlags) (out : List UInt8) :
    ∃ flags', formatMaxStreamsUnidir c' space flags out =
      if c.needsUnidir ∧ out.length + (c.maxStreamsFrame false).length ≤ space then
        ⟨some (out ++ c.maxStreamsFrame false), flags',
          { c' with maxStreamIdUnidirLocal := u64 (c.newMaxStreamId false) }⟩
      else ⟨some out, flags', c'⟩ := by
  rw [formatMaxStreamsUnidir]
  by_cases hc : c.needsUnidir
  · obtain ⟨flags', h⟩ := attempt_limitFrame c'
      { c' with maxStreamIdUnidirLocal := u64 (c'.newMaxStreamId false) } space flags out false
      (u64 (c'.newMaxStreamId false))
    refine ⟨flags', ?_⟩
    rw [if_pos (hneeds.mpr hc)]
    refine h.trans ?_
    rw [hnew]
    exact if_congr ⟨fun hfits => ⟨hc, hfits⟩, fun h => h.2⟩ rfl rfl
  · refine ⟨flags, ?_⟩
    rw [if_neg fun h => hc (hneeds.mp h), if_neg fun h => hc h.1]

/-- **What is written**, and the limits afterwards. -/
theorem formatMaxStreamsFrameIfNeeded_eq (c : ControlCnx) (space : Space) (flags : PacketFlags) :
    (formatMaxStreamsFrameIfNeeded c space flags).bytes =
        some ((if c.SendsBidir space then c.maxStreamsFrame true else []) ++
          if c.SendsUnidir space then c.maxStreamsFrame false else []) ∧
      (formatMaxStreamsFrameIfNeeded c space flags).cnx.maxStreamIdBidirLocal =
        (if c.SendsBidir space then u64 (c.newMaxStreamId true) else c.maxStreamIdBidirLocal) ∧
      (formatMaxStreamsFrameIfNeeded c space flags).cnx.maxStreamIdUnidirLocal =
        if c.SendsUnidir space then u64 (c.newMaxStreamId false)
        else c.maxStreamIdUnidirLocal := by
  obtain ⟨flags₁, h₁⟩ := formatMaxStreamsBidir_eq c space flags
  rw [formatMaxStreamsFrameIfNeeded, h₁]
  by_cases hbidir : c.SendsBidir space
  · rw [if_pos hbidir, if_pos hbidir, if_pos hbidir]
    obtain ⟨flags₂, h₂⟩ := @formatMaxStreamsUnidir_eq c
      { c with maxStreamIdBidirLocal := u64 (c.newMaxStreamId true) } Iff.rfl rfl space flags₁
      (c.maxStreamsFrame true)
    have hiff : c.SendsUnidir space ↔ c.needsUnidir ∧
        (c.maxStreamsFrame true).length + (c.maxStreamsFrame false).length ≤ space := by
      rw [ControlCnx.SendsUnidir, if_pos hbidir]
    dsimp only [Option.getD_some]
    rw [h₂]
    by_cases hunidir : c.SendsUnidir space
    · rw [if_pos hunidir, if_pos hunidir, if_pos (hiff.mp hunidir)]
      exact ⟨rfl, rfl, rfl⟩
    · rw [if_neg hunidir, if_neg hunidir, if_neg fun h => hunidir (hiff.mpr h), List.append_nil]
      exact ⟨rfl, rfl, rfl⟩
  · rw [if_neg hbidir, if_neg hbidir, if_neg hbidir]
    obtain ⟨flags₂, h₂⟩ := @formatMaxStreamsUnidir_eq c c Iff.rfl rfl space flags₁ []
    have hiff : c.SendsUnidir space ↔ c.needsUnidir ∧
        ([] : List UInt8).length + (c.maxStreamsFrame false).length ≤ space := by
      rw [ControlCnx.SendsUnidir, if_neg hbidir]
    dsimp only [Option.getD_some]
    rw [h₂]
    by_cases hunidir : c.SendsUnidir space
    · rw [if_pos hunidir, if_pos hunidir, if_pos (hiff.mp hunidir)]
      exact ⟨rfl, rfl, rfl⟩
    · rw [if_neg hunidir, if_neg hunidir, if_neg fun h => hunidir (hiff.mpr h)]
      exact ⟨rfl, rfl, rfl⟩

/-- The MAX_STREAMS frames in some bytes, at most `n`, as types and numbers of streams. -/
def maxStreamsFrames : ℕ → List UInt8 → List (ℕ × ℕ)
  | n + 1, byte :: bytes =>
    match framesVarintDecode bytes with
    | some (rank, rest) => (byte.toNat, rank) :: maxStreamsFrames n rest
    | none => []
  | _, _ => []

/-- The largest number of streams that was announced, after some bytes with at most two frames. -/
def announce (bytes : List UInt8) (isBidir : Bool) (old : ℕ) : ℕ :=
  ((maxStreamsFrames 2 bytes).filter (·.1 = maxStreamsFrameType isBidir)).foldl
    (fun largest frame => max largest frame.2) old

theorem streamRankFromId_lt (id : ℕ) : streamRankFromId id < 2 ^ 62 := by
  have := u64_lt (id + 4)
  rw [streamRankFromId, Nat.shiftRight_eq_div_pow]
  omega

theorem maxStreamsFrames_frame (n : ℕ) (c : ControlCnx) (isBidir : Bool) (rest : List UInt8) :
    maxStreamsFrames (n + 1) (c.maxStreamsFrame isBidir ++ rest) =
      (maxStreamsFrameType isBidir, streamRankFromId (u64 (c.newMaxStreamId isBidir))) ::
        maxStreamsFrames n rest := by
  have htype : (UInt8.ofNat (maxStreamsFrameType isBidir)).toNat = maxStreamsFrameType isBidir := by
    cases isBidir <;> rfl
  rw [ControlCnx.maxStreamsFrame, List.cons_append, maxStreamsFrames,
    framesVarintDecode_varintBytes, Nat.mod_eq_of_lt (streamRankFromId_lt _), htype]

theorem maxStreamsFrames_nil (n : ℕ) : maxStreamsFrames n [] = [] := by
  cases n <;> rfl

/-- **What is announced** is the number that belongs to the new limit. -/
theorem announce_maxStreams (c : ControlCnx) (space : ℕ) (isBidir : Bool) (old : ℕ) :
    announce ((if c.SendsBidir space then c.maxStreamsFrame true else []) ++
        if c.SendsUnidir space then c.maxStreamsFrame false else []) isBidir old =
      if c.SendsMaxStreams space isBidir then
        max old (streamRankFromId (u64 (c.newMaxStreamId isBidir)))
      else old := by
  have hframes : maxStreamsFrames 2
      ((if c.SendsBidir space then c.maxStreamsFrame true else []) ++
        if c.SendsUnidir space then c.maxStreamsFrame false else []) =
      (if c.SendsBidir space then [(maxStreamsFrameType true,
        streamRankFromId (u64 (c.newMaxStreamId true)))] else []) ++
      if c.SendsUnidir space then [(maxStreamsFrameType false,
        streamRankFromId (u64 (c.newMaxStreamId false)))] else [] := by
    have hlast (n : ℕ) : maxStreamsFrames (n + 1)
        (if c.SendsUnidir space then c.maxStreamsFrame false else []) =
          if c.SendsUnidir space then [(maxStreamsFrameType false,
            streamRankFromId (u64 (c.newMaxStreamId false)))] else [] := by
      split_ifs
      · have h := maxStreamsFrames_frame n c false []
        rwa [List.append_nil, maxStreamsFrames_nil] at h
      · exact maxStreamsFrames_nil _
    by_cases hbidir : c.SendsBidir space
    · rw [if_pos hbidir, if_pos hbidir, maxStreamsFrames_frame, hlast]
      rfl
    · rw [if_neg hbidir, if_neg hbidir, List.nil_append, List.nil_append, hlast]
  rw [announce, hframes]
  cases isBidir with
  | true =>
    by_cases hbidir : c.SendsBidir space <;> by_cases hunidir : c.SendsUnidir space <;>
      simp [hbidir, hunidir, ControlCnx.SendsMaxStreams, maxStreamsFrameType,
        frameTypeMaxStreamsBidir, frameTypeMaxStreamsUnidir]
  | false =>
    by_cases hbidir : c.SendsBidir space <;> by_cases hunidir : c.SendsUnidir space <;>
      simp [hbidir, hunidir, ControlCnx.SendsMaxStreams, maxStreamsFrameType,
        frameTypeMaxStreamsBidir, frameTypeMaxStreamsUnidir]

/-! ### The streams of the peer -/

/-- `picoquic_cnx_t`, the limits on the streams of the peer. -/
structure LimitCnx where
  /-- The streams, with `max_stream_id_bidir_local` and `max_stream_id_unidir_local`. -/
  cnx : Cnx
  initialMaxStreamIdBidir : Uint64
  initialMaxStreamIdUnidir : Uint64
  maxStreamIdBidirLocalComputed : ℕ
  maxStreamIdUnidirLocalComputed : ℕ
  /-- History: the largest number of streams that was announced, for each direction. -/
  advertised : Bool → ℕ

/-- What happens to the limits. -/
inductive LimitEvent
  /-- A frame of the peer names a stream. -/
  | frame (streamId : ℕ)
  /-- The application opens a stream. -/
  | openStream (streamId : ℕ)
  /-- A stream is complete, which is counted. -/
  | complete (streamId : ℕ)
  /-- A stream is deleted. -/
  | deleted (streamId : ℕ)
  /-- A packet is prepared, by a connection with the other fields `other`. -/
  | prepare (other : ControlCnx) (space : Space) (flags : PacketFlags)

namespace LimitCnx

/-- The limit for the streams of one direction. -/
def maxStreamIdLocal (c : LimitCnx) : Bool → ℕ
  | true => c.cnx.maxStreamIdBidirLocal
  | false => c.cnx.maxStreamIdUnidirLocal

/-- What packet preparation reads. -/
def control (c : LimitCnx) (other : ControlCnx) : ControlCnx :=
  { other with
    clientMode := c.cnx.clientMode
    maxStreamIdBidirLocal := c.cnx.maxStreamIdBidirLocal
    maxStreamIdBidirLocalComputed := c.maxStreamIdBidirLocalComputed
    initialMaxStreamIdBidir := c.initialMaxStreamIdBidir
    maxStreamIdUnidirLocal := c.cnx.maxStreamIdUnidirLocal
    maxStreamIdUnidirLocalComputed := c.maxStreamIdUnidirLocalComputed
    initialMaxStreamIdUnidir := c.initialMaxStreamIdUnidir }

/-- `picoquic_format_max_streams_frame_if_needed`. -/
def prepare (c : LimitCnx) (other : ControlCnx) (space : Space) (flags : PacketFlags) : LimitCnx :=
  let r := formatMaxStreamsFrameIfNeeded (c.control other) space flags
  { c with
    cnx :=
      { c.cnx with
        maxStreamIdBidirLocal := r.cnx.maxStreamIdBidirLocal
        maxStreamIdUnidirLocal := r.cnx.maxStreamIdUnidirLocal }
    advertised := fun isBidir => announce (r.bytes.getD []) isBidir (c.advertised isBidir) }

/-- `picoquic_update_max_stream_ID_local`, when it finds a stream complete. -/
def updateMaxStreamIdLocal (c : LimitCnx) (streamId : ℕ) : LimitCnx :=
  match c.cnx.findStream streamId with
  | none => c
  | some _ =>
    if isLocalStreamId streamId c.cnx.clientMode then c
    else if isBidirStreamId streamId then
      { c with maxStreamIdBidirLocalComputed := u64 (c.maxStreamIdBidirLocalComputed + 4) }
    else { c with maxStreamIdUnidirLocalComputed := u64 (c.maxStreamIdUnidirLocalComputed + 4) }

/-- `picoquic_delete_stream`. -/
def deleteStream (c : LimitCnx) (streamId : ℕ) : LimitCnx :=
  { c with cnx := { c.cnx with streams := c.cnx.streams.filter fun s => s.streamId ≠ streamId } }

/-- One event. -/
def step (c : LimitCnx) (e : LimitEvent) : LimitCnx :=
  if c.cnx.error.isSome then c
  else
    match e with
    | .frame streamId => { c with cnx := (c.cnx.findOrCreateStream streamId true).1 }
    | .openStream streamId => { c with cnx := c.cnx.createMissingStreams streamId false }
    | .complete streamId => c.updateMaxStreamIdLocal streamId
    | .deleted streamId => c.deleteStream streamId
    | .prepare other space flags => c.prepare other space flags

/-- The number of streams in the transport parameters; there is none for the limit `0`. -/
def initialNumber (maxStreamId : ℕ) : ℕ :=
  if 0 < maxStreamId then
    ((framesVarintDecode (varintBytes (prepareTransportParamStreamId maxStreamId))).map
      Prod.fst).getD 0
  else 0

/-- A connection with the limits of its transport parameters, which are announced. -/
def initial (clientMode : Bool) (params : TransportParameters)
    (initialMaxStreamIdBidir initialMaxStreamIdUnidir : Uint64)
    (bidirComputed unidirComputed : ℕ) : LimitCnx where
  cnx :=
    { Cnx.initial clientMode params with
      maxStreamIdBidirLocal := initialMaxStreamIdBidir
      maxStreamIdUnidirLocal := initialMaxStreamIdUnidir }
  initialMaxStreamIdBidir := initialMaxStreamIdBidir
  initialMaxStreamIdUnidir := initialMaxStreamIdUnidir
  maxStreamIdBidirLocalComputed := bidirComputed
  maxStreamIdUnidirLocalComputed := unidirComputed
  advertised := fun isBidir =>
    initialNumber (if isBidir then initialMaxStreamIdBidir else initialMaxStreamIdUnidir)

/-! ### Agreement -/

/-- `picoquic_find_or_create_stream` does not refuse a stream. -/
def Accepts (c : LimitCnx) (streamId : ℕ) : Prop :=
  ({ c.cnx with error := none }.findOrCreateStream streamId true).1.error = none

instance (c : LimitCnx) (streamId : ℕ) : Decidable (c.Accepts streamId) :=
  inferInstanceAs (Decidable (_ = none))

/-- The streams of the peer that are accepted are those that were announced. -/
def Agrees (c : LimitCnx) : Prop :=
  ∀ streamId, streamId < 2 ^ 62 → isLocalStreamId streamId c.cnx.clientMode = false →
    (c.Accepts streamId ↔ streamRankFromId streamId ≤ c.advertised (isBidirStreamId streamId))

/-- The two lowest bits of the identifiers of the peer's streams of one direction. -/
def peerStreamType (clientMode isBidir : Bool) : ℕ := localStreamType (!clientMode) isBidir

/-- The limit allows as many streams as its rank, or all of them. -/
def Aligned (clientMode isBidir : Bool) (limit : ℕ) : Prop :=
  peerStreamType clientMode isBidir ≤ limit % 4 ∨ 2 ^ 62 ≤ limit

instance (clientMode isBidir : Bool) (limit : ℕ) : Decidable (Aligned clientMode isBidir limit) :=
  inferInstanceAs (Decidable (_ ∨ _))

/-- The initial limit means what the transport parameter says. -/
def StartsAligned (clientMode isBidir : Bool) (limit : ℕ) : Prop :=
  if limit = 0 then peerStreamType clientMode isBidir ≠ 0
  else limit < 2 ^ 64 - 4 ∧ Aligned clientMode isBidir limit

instance (clientMode isBidir : Bool) (limit : ℕ) :
    Decidable (StartsAligned clientMode isBidir limit) :=
  inferInstanceAs (Decidable (if limit = 0 then peerStreamType clientMode isBidir ≠ 0
    else limit < 2 ^ 64 - 4 ∧ Aligned clientMode isBidir limit))

/-- No limit that is announced exceeds 64 bits, nor does its rank. -/
def NoWrap (c : LimitCnx) : LimitEvent → Prop
  | .prepare other space _ =>
    c.cnx.error = none → ∀ isBidir, (c.control other).SendsMaxStreams space isBidir →
      (c.control other).newMaxStreamId isBidir + 4 < 2 ^ 64
  | _ => True

/-- A limit that is announced allows as many streams as its rank. -/
def KeepsAligned (c : LimitCnx) : LimitEvent → Prop
  | .prepare other space _ =>
    c.cnx.error = none → ∀ isBidir, (c.control other).SendsMaxStreams space isBidir →
      Aligned c.cnx.clientMode isBidir ((c.control other).newMaxStreamId isBidir)
  | _ => True

end LimitCnx

/-! ### Which streams are accepted -/

/-- Some streams of a type are opened, one after the other. -/
theorem Cnx.Numbered.createStreams {c : Cnx} (h : c.Numbered) {t : ℕ} (ht : t < 4) (n : ℕ) :
    (c.createStreams t n).Numbered ∧
      (c.createStreams t n).nextStreamId =
        Function.update c.nextStreamId t (c.nextStreamId t + 4 * n) := by
  induction n generalizing c with
  | zero =>
    refine ⟨h, ?_⟩
    rw [Cnx.createStreams, Nat.mul_zero, Nat.add_zero, Function.update_eq_self]
  | succ n ih =>
    obtain ⟨hnumbered, hnext⟩ := ih (h.createStream ht)
    refine ⟨hnumbered, ?_⟩
    rw [Cnx.createStreams, hnext, h.nextStreamId_createStream ht, Function.update_self,
      Function.update_idem]
    congr 1
    omega

theorem streamTypeFromId_peer {id : ℕ} {clientMode : Bool}
    (h : isLocalStreamId id clientMode = false) :
    streamTypeFromId id = LimitCnx.peerStreamType clientMode (isBidirStreamId id) := by
  rw [streamTypeFromId, LimitCnx.peerStreamType, localStreamType, isBidirStreamId]
  rw [isLocalStreamId, isClientStreamId] at h
  rcases Nat.mod_two_eq_zero_or_one id with h2 | h2 <;>
    rcases Nat.mod_two_eq_zero_or_one (id / 2) with h4 | h4 <;> cases clientMode <;>
    simp [h2, h4] at h ⊢ <;> omega

namespace LimitCnx

theorem eq_of_peerStreamType {id : ℕ} {clientMode isRemote isBidir : Bool}
    (hclient : isClientStreamId id = (clientMode ^^ isRemote))
    (h : peerStreamType clientMode isBidir = streamTypeFromId id) :
    isRemote = true ∧ isBidir = isBidirStreamId id := by
  rw [peerStreamType, localStreamType, streamTypeFromId] at h
  rw [isClientStreamId] at hclient
  rw [isBidirStreamId]
  cases clientMode <;> cases isRemote <;> cases isBidir <;> simp at h hclient ⊢ <;> omega

/-- The streams that were opened are allowed. -/
structure Opened (c : LimitCnx) : Prop where
  numbered : c.cnx.Numbered
  next_le : ∀ isBidir, c.cnx.nextStreamId (peerStreamType c.cnx.clientMode isBidir) ≤
    c.maxStreamIdLocal isBidir + 4

variable (clientMode isBidir : Bool)

theorem peerStreamType_lt : peerStreamType clientMode isBidir < 4 :=
  localStreamType_lt _ _

theorem maxStreamIdLocal_eq (c : LimitCnx) (isBidir : Bool) :
    c.maxStreamIdLocal isBidir =
      if isBidir then c.cnx.maxStreamIdBidirLocal else c.cnx.maxStreamIdUnidirLocal := by
  cases isBidir <;> rfl

/-- A stream of the peer that was used before is allowed. -/
theorem Opened.le_of_lt {c : LimitCnx} (h : c.Opened) {id : ℕ}
    (hpeer : isLocalStreamId id c.cnx.clientMode = false)
    (hlt : id < c.cnx.nextStreamId (streamTypeFromId id)) :
    id ≤ c.maxStreamIdLocal (isBidirStreamId id) := by
  have htype := streamTypeFromId_peer hpeer
  have hnext := h.numbered.type _ (peerStreamType_lt c.cnx.clientMode (isBidirStreamId id))
  have hle := h.next_le (isBidirStreamId id)
  rw [htype] at hlt
  rw [streamTypeFromId] at htype hnext
  omega

/-- **Acceptance.** A stream of the peer is accepted if the limit allows it. -/
theorem Opened.accepts_iff {c : LimitCnx} (h : c.Opened) {id : ℕ}
    (hpeer : isLocalStreamId id c.cnx.clientMode = false) :
    c.Accepts id ↔ id ≤ c.maxStreamIdLocal (isBidirStreamId id) := by
  rw [Accepts, Cnx.findOrCreateStream]
  have hclient : isClientStreamId id = (c.cnx.clientMode ^^ true) := by
    rw [isLocalStreamId] at hpeer
    cases hid : isClientStreamId id <;> cases hc : c.cnx.clientMode <;> simp [hid, hc] at hpeer ⊢
  cases hfind : Cnx.findStream { c.cnx with error := none } id with
  | some s =>
    -- the stream exists
    obtain ⟨hmem, rfl⟩ := Cnx.mem_of_findStream hfind
    exact iff_of_true rfl (h.le_of_lt hpeer (h.numbered.fresh s hmem))
  | none =>
    dsimp only [Cnx.createMissingStreams]
    rw [maxStreamIdLocal_eq]
    by_cases hlt : id < c.cnx.nextStreamId (streamTypeFromId id)
    · -- an old stream, which is ignored
      rw [if_pos (by simpa using hlt)]
      exact iff_of_true rfl (maxStreamIdLocal_eq c _ ▸ h.le_of_lt hpeer hlt)
    · rw [if_neg (by simpa using hlt), if_neg (not_not.mpr hclient)]
      by_cases hle : id ≤ if isBidirStreamId id = true then c.cnx.maxStreamIdBidirLocal
          else c.cnx.maxStreamIdUnidirLocal
      · rw [if_neg (by simpa using hle), if_neg hlt]
        exact iff_of_true (Cnx.createStreams_frame _ _ _).2.1 hle
      · rw [if_pos (by simpa using hle)]
        exact iff_of_false (by simp [Cnx.connectionError]) hle

/-! ### Opening, closing, and raising -/

/-- Streams are created if the identifier is a new one of the right side, within the limit. -/
theorem createMissingStreams_cases (c : LimitCnx) (id : ℕ) (isRemote : Bool) :
    c.cnx.createMissingStreams id isRemote = c.cnx ∨
      (∃ e, c.cnx.createMissingStreams id isRemote = c.cnx.connectionError e) ∨
      isClientStreamId id = (c.cnx.clientMode ^^ isRemote) ∧
        c.cnx.nextStreamId (streamTypeFromId id) ≤ id ∧
        (isRemote = true → id ≤ c.maxStreamIdLocal (isBidirStreamId id)) ∧
        c.cnx.createMissingStreams id isRemote = c.cnx.createStreams (streamTypeFromId id)
          ((id - c.cnx.nextStreamId (streamTypeFromId id)) / 4 + 1) := by
  rw [Cnx.createMissingStreams, ← maxStreamIdLocal_eq]
  by_cases hold : (isRemote && decide (id < c.cnx.nextStreamId (streamTypeFromId id))) = true
  · exact Or.inl (if_pos hold)
  rw [if_neg hold]
  by_cases hclient : isClientStreamId id ≠ (c.cnx.clientMode ^^ isRemote)
  · exact Or.inr (Or.inl ⟨_, if_pos hclient⟩)
  rw [if_neg hclient]
  by_cases hlimit : (isRemote && decide (c.maxStreamIdLocal (isBidirStreamId id) < id)) = true
  · exact Or.inr (Or.inl ⟨_, if_pos hlimit⟩)
  rw [if_neg hlimit]
  by_cases hlt : id < c.cnx.nextStreamId (streamTypeFromId id)
  · exact Or.inr (Or.inl ⟨_, if_pos hlt⟩)
  refine Or.inr (Or.inr ⟨not_not.mp hclient, not_lt.mp hlt, fun hremote => ?_, if_neg hlt⟩)
  simpa [hremote] using hlimit

variable {c : LimitCnx}

theorem createStreams_limits (c : Cnx) (t n : ℕ) :
    (c.createStreams t n).maxStreamIdBidirLocal = c.maxStreamIdBidirLocal ∧
      (c.createStreams t n).maxStreamIdUnidirLocal = c.maxStreamIdUnidirLocal := by
  induction n generalizing c with
  | zero => exact ⟨rfl, rfl⟩
  | succ n ih => exact ih _

/-- Streams are opened as far as they are allowed. -/
theorem Opened.createMissingStreams (h : c.Opened) (id : ℕ) (isRemote : Bool) :
    Opened { c with cnx := c.cnx.createMissingStreams id isRemote } := by
  rcases c.createMissingStreams_cases id isRemote with
    hsame | ⟨e, herror⟩ | ⟨hclient, hle, hlimit, hcreate⟩
  · rwa [hsame]
  · rw [herror]
    exact ⟨⟨h.numbered.fresh, h.numbered.type⟩, h.next_le⟩
  · have ht : streamTypeFromId id < 4 := Nat.mod_lt _ (by omega)
    obtain ⟨hnumbered, hnext⟩ := h.numbered.createStreams ht
      ((id - c.cnx.nextStreamId (streamTypeFromId id)) / 4 + 1)
    obtain ⟨-, -, hmode, -, -⟩ := c.cnx.createStreams_frame (streamTypeFromId id)
      ((id - c.cnx.nextStreamId (streamTypeFromId id)) / 4 + 1)
    rw [hcreate]
    refine ⟨hnumbered, fun isBidir => ?_⟩
    have hold := h.next_le isBidir
    obtain ⟨hbidir, hunidir⟩ := createStreams_limits c.cnx (streamTypeFromId id)
      ((id - c.cnx.nextStreamId (streamTypeFromId id)) / 4 + 1)
    have hlimits : LimitCnx.maxStreamIdLocal { c with
        cnx := c.cnx.createStreams (streamTypeFromId id)
          ((id - c.cnx.nextStreamId (streamTypeFromId id)) / 4 + 1) } isBidir =
        c.maxStreamIdLocal isBidir := by
      cases isBidir
      · exact hunidir
      · exact hbidir
    dsimp only
    rw [hlimits, hmode, hnext]
    by_cases htype : peerStreamType c.cnx.clientMode isBidir = streamTypeFromId id
    · -- the last stream that is created is the one of the frame
      obtain ⟨hremote, hdir⟩ := eq_of_peerStreamType hclient htype
      have hlimit := hlimit hremote
      have hmod := h.numbered.type _ ht
      rw [← hdir] at hlimit
      rw [htype, Function.update_self]
      rw [streamTypeFromId, streamTypeFromId] at hmod
      rw [streamTypeFromId] at hle ⊢
      omega
    · rwa [Function.update_of_ne htype]

theorem Opened.findOrCreateStream (h : c.Opened) (id : ℕ) :
    Opened { c with cnx := (c.cnx.findOrCreateStream id true).1 } := by
  rw [Cnx.findOrCreateStream]
  split
  · exact h
  · exact h.createMissingStreams id true

/-- A stream that is complete is counted, which changes no limit yet. -/
theorem updateMaxStreamIdLocal_frame (c : LimitCnx) (id : ℕ) :
    (c.updateMaxStreamIdLocal id).cnx = c.cnx ∧
      (c.updateMaxStreamIdLocal id).advertised = c.advertised := by
  rw [updateMaxStreamIdLocal]
  cases c.cnx.findStream id with
  | none => exact ⟨rfl, rfl⟩
  | some s =>
    dsimp only
    split_ifs <;> exact ⟨rfl, rfl⟩

theorem Opened.deleteStream (h : c.Opened) (id : ℕ) : (c.deleteStream id).Opened :=
  ⟨⟨fun s hs => h.numbered.fresh s (List.mem_of_mem_filter hs), h.numbered.type⟩, h.next_le⟩

/-- **What packet preparation does** with the limit and the number of a direction. -/
theorem prepare_eq (c : LimitCnx) (other : ControlCnx) (space : Space) (flags : PacketFlags)
    (isBidir : Bool) :
    (c.prepare other space flags).maxStreamIdLocal isBidir =
        (if (c.control other).SendsMaxStreams space isBidir then
          u64 ((c.control other).newMaxStreamId isBidir)
        else c.maxStreamIdLocal isBidir) ∧
      (c.prepare other space flags).advertised isBidir =
        if (c.control other).SendsMaxStreams space isBidir then
          max (c.advertised isBidir)
            (streamRankFromId (u64 ((c.control other).newMaxStreamId isBidir)))
        else c.advertised isBidir := by
  obtain ⟨hbytes, hbidir, hunidir⟩ := formatMaxStreamsFrameIfNeeded_eq (c.control other) space flags
  constructor
  · cases isBidir
    · exact hunidir
    · exact hbidir
  · rw [← announce_maxStreams, prepare, hbytes]
    rfl

/-- A new limit is larger than the old one. -/
theorem maxStreamIdLocal_lt_new (c : LimitCnx) (other : ControlCnx) (isBidir : Bool) :
    c.maxStreamIdLocal isBidir < (c.control other).newMaxStreamId isBidir := by
  cases isBidir with
  | true =>
    change c.cnx.maxStreamIdBidirLocal < c.cnx.maxStreamIdBidirLocal + _ + 4
    omega
  | false =>
    change c.cnx.maxStreamIdUnidirLocal < c.cnx.maxStreamIdUnidirLocal + _ + 4
    omega

theorem Opened.prepare (h : c.Opened) {other : ControlCnx} {space : Space} {flags : PacketFlags}
    (hwrap : ∀ isBidir, (c.control other).SendsMaxStreams space isBidir →
      (c.control other).newMaxStreamId isBidir + 4 < 2 ^ 64) :
    (c.prepare other space flags).Opened := by
  refine ⟨⟨h.numbered.fresh, h.numbered.type⟩, fun isBidir => ?_⟩
  have hle := h.next_le isBidir
  have hlt := c.maxStreamIdLocal_lt_new other isBidir
  rw [(c.prepare_eq other space flags isBidir).1]
  refine hle.trans (Nat.add_le_add_right ?_ 4)
  split_ifs with hsends
  · have := hwrap isBidir hsends
    rw [u64_of_lt (by omega)]
    exact hlt.le
  · exact le_rfl

/-! ### Limits and numbers -/

/-- As many streams are allowed as were announced. There are `2 ^ 60` of each type. -/
def Tracks (c : LimitCnx) (isBidir : Bool) : Prop :=
  min (2 ^ 60) (streamsAllowed (!c.cnx.clientMode) isBidir (c.maxStreamIdLocal isBidir)) =
    min (2 ^ 60) (c.advertised isBidir)

theorem peer_stream (n : ℕ) :
    isLocalStreamId (4 * n + peerStreamType clientMode isBidir) clientMode = false ∧
      isBidirStreamId (4 * n + peerStreamType clientMode isBidir) = isBidir := by
  rw [isLocalStreamId, isClientStreamId, isBidirStreamId, peerStreamType, localStreamType]
  cases clientMode <;> cases isBidir <;> simp <;> omega

/-- **Agreement** is that of the numbers of streams. -/
theorem Opened.agrees_iff (h : c.Opened) : c.Agrees ↔ ∀ isBidir, c.Tracks isBidir := by
  have htype := peerStreamType_lt c.cnx.clientMode
  constructor
  · intro hagrees isBidir
    have hstream (n : ℕ) (hn : n < 2 ^ 60) :
        n < streamsAllowed (!c.cnx.clientMode) isBidir (c.maxStreamIdLocal isBidir) ↔
          n < c.advertised isBidir := by
      obtain ⟨hpeer, hdir⟩ := peer_stream c.cnx.clientMode isBidir n
      have hlt := htype isBidir
      have hid := hagrees (4 * n + peerStreamType c.cnx.clientMode isBidir) (by omega) hpeer
      rw [h.accepts_iff hpeer, hdir, streamRankFromId_eq (by omega)] at hid
      rw [lt_streamsAllowed_iff, ← peerStreamType, hid]
      omega
    rw [Tracks]
    by_contra hne
    -- the first stream about which they differ
    have hfirst := hstream (min (streamsAllowed (!c.cnx.clientMode) isBidir
      (c.maxStreamIdLocal isBidir)) (c.advertised isBidir)) (by omega)
    omega
  · intro htracks id hid hpeer
    have hdir := htracks (isBidirStreamId id)
    have hmod := streamTypeFromId_peer hpeer
    have hallowed := @lt_streamsAllowed_iff (!c.cnx.clientMode) (isBidirStreamId id)
      (c.maxStreamIdLocal (isBidirStreamId id)) (id / 4)
    rw [← peerStreamType, ← hmod, streamTypeFromId, Nat.div_add_mod] at hallowed
    rw [h.accepts_iff hpeer, streamRankFromId_eq (by omega), ← hallowed]
    rw [Tracks] at hdir
    omega

/-- **MAX_STREAMS.** The number that is announced is that of the new limit exactly if the type bits
of the limit are large enough. -/
theorem Tracks.prepare_iff {isBidir : Bool} (h : c.Tracks isBidir) {other : ControlCnx}
    {space : Space} {flags : PacketFlags}
    (hwrap : (c.control other).SendsMaxStreams space isBidir →
      (c.control other).newMaxStreamId isBidir + 4 < 2 ^ 64) :
    (c.prepare other space flags).Tracks isBidir ↔
      ((c.control other).SendsMaxStreams space isBidir →
        Aligned c.cnx.clientMode isBidir ((c.control other).newMaxStreamId isBidir)) := by
  obtain ⟨hlimit, hnumber⟩ := c.prepare_eq other space flags isBidir
  have hmode : (c.prepare other space flags).cnx.clientMode = c.cnx.clientMode := rfl
  have hlt := c.maxStreamIdLocal_lt_new other isBidir
  have htype := peerStreamType_lt c.cnx.clientMode isBidir
  rw [Tracks, streamsAllowed, ← peerStreamType] at h
  rw [Tracks, hmode, hlimit, hnumber]
  by_cases hsends : (c.control other).SendsMaxStreams space isBidir
  · have hnew := hwrap hsends
    rw [if_pos hsends, if_pos hsends, u64_of_lt (by omega), streamRankFromId_eq hnew,
      streamsAllowed, ← peerStreamType, imp_iff_right hsends, Aligned]
    omega
  · rw [if_neg hsends, if_neg hsends, streamsAllowed, ← peerStreamType]
    exact iff_of_true h fun hs => absurd hs hsends

theorem initialNumber_eq {id : ℕ} (hid : id < 2 ^ 64) :
    initialNumber id = if 0 < id ∧ id < 2 ^ 64 - 4 then id / 4 + 1 else 0 := by
  have hread (x : ℕ) : ((framesVarintDecode (varintBytes x)).map Prod.fst).getD 0 = x % 2 ^ 62 := by
    have h := framesVarintDecode_varintBytes x []
    rw [List.append_nil] at h
    rw [h]
    rfl
  rw [initialNumber, hread, prepareTransportParamStreamId]
  split_ifs <;> omega

/-- **The start.** -/
theorem tracks_initial_iff (clientMode : Bool) (params : TransportParameters)
    (initialBidir initialUnidir : Uint64) (bidirComputed unidirComputed : ℕ) (isBidir : Bool) :
    (initial clientMode params initialBidir initialUnidir bidirComputed unidirComputed).Tracks
        isBidir ↔
      StartsAligned clientMode isBidir (if isBidir then initialBidir else initialUnidir) := by
  obtain ⟨limit, hlimit, hlt⟩ : ∃ limit : ℕ,
      (if isBidir then (initialBidir : ℕ) else initialUnidir) = limit ∧ limit < 2 ^ 64 :=
    ⟨_, rfl, by split_ifs <;> exact Fin.isLt _⟩
  have hlocal : (initial clientMode params initialBidir initialUnidir bidirComputed
      unidirComputed).maxStreamIdLocal isBidir = limit := by
    rw [← hlimit]
    cases isBidir <;> rfl
  have hnumber : (initial clientMode params initialBidir initialUnidir bidirComputed
      unidirComputed).advertised isBidir = initialNumber limit := by
    rw [← hlimit]
    rfl
  have htype := peerStreamType_lt clientMode isBidir
  rw [Tracks, hlocal, hnumber, initialNumber_eq hlt, hlimit, streamsAllowed]
  change min (2 ^ 60) ((limit + 4 - peerStreamType clientMode isBidir) / 4) = _ ↔ _
  rw [StartsAligned, Aligned]
  split_ifs <;> omega

theorem opened_initial (clientMode : Bool) (params : TransportParameters)
    (initialBidir initialUnidir : Uint64) (bidirComputed unidirComputed : ℕ) :
    (initial clientMode params initialBidir initialUnidir bidirComputed unidirComputed).Opened := by
  refine ⟨⟨fun s hs => absurd hs List.not_mem_nil, fun t ht => Nat.mod_eq_of_lt ht⟩, ?_⟩
  intro isBidir
  have htype := peerStreamType_lt clientMode isBidir
  change peerStreamType clientMode isBidir ≤ _
  omega

/-- The streams are those that were announced, and only those were opened. -/
structure Sound (c : LimitCnx) : Prop where
  opened : c.Opened
  tracks : ∀ isBidir, c.Tracks isBidir

theorem Sound.agrees (h : c.Sound) : c.Agrees := h.opened.agrees_iff.mpr h.tracks

theorem Tracks.of_frame {c' : LimitCnx} (hmode : c'.cnx.clientMode = c.cnx.clientMode)
    (hlimit : c'.maxStreamIdLocal = c.maxStreamIdLocal) (hnumber : c'.advertised = c.advertised)
    {isBidir : Bool} (h : c.Tracks isBidir) : c'.Tracks isBidir := by
  rw [Tracks, hmode, hlimit, hnumber]
  exact h

/-! ### Runs -/

/-- A frame or the application opens streams, which changes no limit. -/
theorem createMissingStreams_limits (c : LimitCnx) (id : ℕ) (isRemote : Bool) :
    (c.cnx.createMissingStreams id isRemote).clientMode = c.cnx.clientMode ∧
      (c.cnx.createMissingStreams id isRemote).maxStreamIdBidirLocal =
        c.cnx.maxStreamIdBidirLocal ∧
      (c.cnx.createMissingStreams id isRemote).maxStreamIdUnidirLocal =
        c.cnx.maxStreamIdUnidirLocal := by
  rcases c.createMissingStreams_cases id isRemote with hsame | ⟨e, herror⟩ | ⟨-, -, -, hcreate⟩
  · rw [hsame]
    exact ⟨rfl, rfl, rfl⟩
  · rw [herror]
    exact ⟨rfl, rfl, rfl⟩
  · rw [hcreate]
    exact ⟨(c.cnx.createStreams_frame _ _).2.2.1, createStreams_limits _ _ _⟩

theorem findOrCreateStream_limits (c : LimitCnx) (id : ℕ) :
    (c.cnx.findOrCreateStream id true).1.clientMode = c.cnx.clientMode ∧
      (c.cnx.findOrCreateStream id true).1.maxStreamIdBidirLocal = c.cnx.maxStreamIdBidirLocal ∧
      (c.cnx.findOrCreateStream id true).1.maxStreamIdUnidirLocal =
        c.cnx.maxStreamIdUnidirLocal := by
  rw [Cnx.findOrCreateStream]
  split
  · exact ⟨rfl, rfl, rfl⟩
  · exact c.createMissingStreams_limits id true

/-- Streams that are opened keep the limits of a connection. -/
theorem Tracks.of_streams {cnx : Cnx} (h : cnx.clientMode = c.cnx.clientMode ∧
    cnx.maxStreamIdBidirLocal = c.cnx.maxStreamIdBidirLocal ∧
    cnx.maxStreamIdUnidirLocal = c.cnx.maxStreamIdUnidirLocal) {isBidir : Bool}
    (htracks : c.Tracks isBidir) : Tracks { c with cnx := cnx } isBidir := by
  obtain ⟨hmode, hbidir, hunidir⟩ := h
  have hlimit : LimitCnx.maxStreamIdLocal { c with cnx := cnx } = c.maxStreamIdLocal := by
    funext b
    cases b
    · exact hunidir
    · exact hbidir
  exact @Tracks.of_frame c { c with cnx := cnx } hmode hlimit rfl isBidir htracks

/-- **One event.** What was opened stays within the limits. The limits go on to mean what was
announced exactly if those that are announced do. -/
theorem Sound.step_iff (h : c.Sound) {e : LimitEvent} (hwrap : c.NoWrap e) :
    (c.step e).Opened ∧ ((∀ isBidir, (c.step e).Tracks isBidir) ↔ c.KeepsAligned e) := by
  rw [LimitCnx.step.eq_def]
  cases herror : c.cnx.error with
  | some error =>
    -- a connection that failed does nothing
    refine ⟨h.opened, iff_of_true h.tracks ?_⟩
    cases e with
    | prepare other space flags =>
      intro hnone
      rw [herror] at hnone
      exact absurd hnone (by simp)
    | _ => trivial
  | none =>
    rw [Option.isSome_none, if_neg Bool.false_ne_true]
    cases e with
    | frame id =>
      refine ⟨h.opened.findOrCreateStream id, iff_of_true (fun isBidir => ?_) trivial⟩
      exact (h.tracks isBidir).of_streams (c.findOrCreateStream_limits id)
    | openStream id =>
      refine ⟨h.opened.createMissingStreams id false, iff_of_true (fun isBidir => ?_) trivial⟩
      exact (h.tracks isBidir).of_streams (c.createMissingStreams_limits id false)
    | complete id =>
      obtain ⟨hcnx, hnumber⟩ := c.updateMaxStreamIdLocal_frame id
      have hlimit : (c.updateMaxStreamIdLocal id).maxStreamIdLocal = c.maxStreamIdLocal := by
        funext isBidir
        rw [maxStreamIdLocal_eq, maxStreamIdLocal_eq, hcnx]
      refine ⟨⟨hcnx ▸ h.opened.numbered, ?_⟩, iff_of_true (fun isBidir => ?_) trivial⟩
      · dsimp only
        rw [hcnx, hlimit]
        exact h.opened.next_le
      · exact (h.tracks isBidir).of_frame (by rw [hcnx]) hlimit hnumber
    | deleted id =>
      refine ⟨h.opened.deleteStream id, iff_of_true (fun isBidir => ?_) trivial⟩
      exact (h.tracks isBidir).of_streams ⟨rfl, rfl, rfl⟩
    | prepare other space flags =>
      have hwrap := hwrap herror
      refine ⟨h.opened.prepare hwrap, ?_⟩
      dsimp only [KeepsAligned]
      rw [imp_iff_right herror]
      exact forall_congr' fun isBidir => (h.tracks isBidir).prepare_iff (hwrap isBidir)

end LimitCnx

open LimitCnx

/-- **The limits on the streams of the peer.** If the initial limits mean what the transport
parameters say, and every limit that is announced fits and has the type bits of the peer's streams,
then the streams that are accepted are those that were announced, in every state of a run. Without
an overflow the type bits decide it. -/
theorem streamLimits_agree (clientMode : Bool) (params : TransportParameters)
    (initialBidir initialUnidir : Uint64) (bidirComputed unidirComputed : ℕ)
    (evs : List LimitEvent) :
    let c := LimitCnx.initial clientMode params initialBidir initialUnidir bidirComputed
      unidirComputed
    let Starts := ∀ isBidir, StartsAligned clientMode isBidir
      (if isBidir then initialBidir else initialUnidir)
    (Starts ∧ Along LimitCnx.step (fun c e => c.NoWrap e ∧ c.KeepsAligned e) c evs →
        ∀ evs', evs' <+: evs → (run LimitCnx.step c evs').Agrees) ∧
      (Along LimitCnx.step NoWrap c evs →
        (∀ evs', evs' <+: evs → (run LimitCnx.step c evs').Agrees) →
          Starts ∧ Along LimitCnx.step KeepsAligned c evs) := by
  intro c Starts
  have hopened : c.Opened := opened_initial clientMode params initialBidir initialUnidir
    bidirComputed unidirComputed
  have hstart : (∀ isBidir, c.Tracks isBidir) ↔ Starts := forall_congr' fun isBidir =>
    tracks_initial_iff clientMode params initialBidir initialUnidir bidirComputed unidirComputed
      isBidir
  constructor
  · rintro ⟨hstarts, hevs⟩ evs' hpre
    have hsound : c.Sound := ⟨hopened, hstart.mpr hstarts⟩
    refine Sound.agrees (forall_prefix_of_along (fun s e hs he => ?_) hsound hevs evs' hpre)
    obtain ⟨hopened, htracks⟩ := hs.step_iff he.1
    exact ⟨hopened, htracks.mpr he.2⟩
  · intro hwrap hagrees
    have htracks := hopened.agrees_iff.mp (hagrees [] List.nil_prefix)
    refine ⟨hstart.mp htracks, ?_⟩
    refine along_of_forall_prefix (I := Sound) (fun s e hs he hagree => ?_) ⟨hopened, htracks⟩
      hwrap hagrees
    obtain ⟨hopened, htracks⟩ := hs.step_iff he
    have htracks' := hopened.agrees_iff.mp hagree
    exact ⟨htracks.mp htracks', hopened, htracks'⟩

/-- A client that allows one stream of each direction. -/
def oneStreamClient : LimitCnx := LimitCnx.initial true ⟨0, 0, 0, 0⟩ 1 3 1 3

/-- A client that allows one stream that goes both ways and announces more when it is complete. -/
theorem streamLimits_agree_sample :
    (run LimitCnx.step (LimitCnx.initial true ⟨0, 0, 0, 0⟩ 1 0 1 0)
      [.frame 1, .complete 1, .deleted 1, .prepare ticketedServer 100 ⟨false, true⟩]).Agrees := by
  refine (streamLimits_agree true ⟨0, 0, 0, 0⟩ 1 0 1 0 _).1 ⟨by decide, ?_⟩ _ List.prefix_rfl
  refine ⟨⟨trivial, trivial⟩, ⟨trivial, trivial⟩, ⟨trivial, trivial⟩, ⟨fun _ => ?_, fun _ => ?_⟩,
    trivial⟩
  · decide
  · decide

/-- The next limit for one-way streams is announced as three streams, the third of which is
refused. -/
theorem third_stream_refused :
    ¬ (run LimitCnx.step oneStreamClient [.prepare ticketedServer 100 ⟨false, true⟩]).Agrees := by
  intro hagrees
  have haccepts := (hagrees 11 (by decide) (by decide)).mpr (by decide)
  exact absurd haccepts (by decide)

end Picoquic
