import Picoquic.Wire.Control

/-!
# Control frames are written whole or not at all

A formatter should either write whole frames, which can be skipped one by one, or leave the
position and the connection as they were and say so.

* **`Whole`** — bytes that are whole frames within the space of a packet;
* **`AllOrNothing`** — the property of what a formatter returns;
* **`all_or_nothing_iff`** — which formatters have it, and when the others do: a path challenge or
  response that does not fit takes the position to `NULL`, and a BDP frame that does not fit is
  not announced as data to send.
-/

namespace Picoquic

open ControlRequest

/-- Whole frames within the space: they are skipped exactly, whatever the packet still holds. -/
structure Whole (space : ℕ) (written : List UInt8) : Prop where
  length_le : written.length ≤ space
  skipsTo : ∀ rest, written.length + rest.length ≤ space → SkipsTo (written ++ rest) rest

/-- The formatters that have nothing to send. -/
def NothingToSend (c : ControlCnx) (space : ℕ) : ControlRequest → Prop
  | .newConnectionId cid => ∀ l ∈ cid, l.sequence = 0 ∨ l.cnxId = []
  | .requiredMaxStreamData => ∀ s ∈ c.streams, s.required c.rttMin = none
  | .maxStreams => ¬ c.needsBidir ∧ ¬ c.needsUnidir
  | .ackFrequency ackGap ackDelayMax =>
    ackGap ≤ c.ackGapLocal ∧ ackDelayMax = c.ackFrequencyDelayLocal
  | .firstDatagram => c.datagrams = []
  | .readyDatagram (.provide data) => c.allowedSpace space < data.length
  | .readyDatagram .nothing | .readyDatagram .fail => True
  | .bdp => c.bdpTicket.cwin = 0
  | .pathChallenge _ | .pathResponse _ | .retireConnectionId _ | .newToken _ | .maxData _
  | .maxStreamData _ _ | .timeStamp _ | .pathAbandon _ _ _ _ | .datagram _ => False

/-- The connection without the requests to write an ACK_FREQUENCY or MAX_STREAM_DATA frame. They
are withdrawn when nothing turns out to be necessary. -/
def ControlCnx.withdrawn (c : ControlCnx) : ControlCnx :=
  { c with isAckFrequencyUpdated := false, maxStreamDataNeeded := false }

/-- **All or nothing.** Either whole frames were written, or the position is the same and the
connection unchanged, with `more_data` set or nothing to send. -/
def AllOrNothing (c : ControlCnx) (space : ℕ) (request : ControlRequest) (r : Formatted) : Prop :=
  (∃ written, r.bytes = some written ∧ written ≠ [] ∧ Whole space written) ∨
    r.bytes = some [] ∧
      (r.flags.moreData = true ∧ r.cnx = c ∨
        NothingToSend c space request ∧ r.cnx.withdrawn = c.withdrawn)

/-! ### Whole frames -/

variable {c : ControlCnx} {space : Space} {flags : PacketFlags} {request : ControlRequest}

variable {n : ℕ} {frame : List UInt8}

theorem whole_of_skipFrame (hlen : frame.length ≤ n)
    (hskip : ∀ rest, (skipFrame (frame ++ rest)).1 = some rest) : Whole n frame :=
  ⟨hlen, fun rest _ => .single (hskip rest)⟩

theorem Whole.append {written frame : List UInt8} (h : Whole n written)
    (hlen : (written ++ frame).length ≤ n)
    (hskip : ∀ rest, (skipFrame (frame ++ rest)).1 = some rest) : Whole n (written ++ frame) := by
  refine ⟨hlen, fun rest hrest => ?_⟩
  rw [List.append_assoc]
  refine (h.skipsTo (frame ++ rest) ?_).tail (hskip rest)
  rw [List.length_append] at hrest ⊢
  omega

/-- **The common end.** A formatter that appends a frame, which is skipped exactly, writes it
whole or not at all. -/
theorem allOrNothing_attempt {sent : ControlCnx} {needsAck : Bool} (hne : frame ≠ [])
    (hskip : frame.length ≤ space → ∀ rest, (skipFrame (frame ++ rest)).1 = some rest) :
    AllOrNothing c space request
      (attempt c flags [] (appendWithin space [] frame) sent needsAck) := by
  rw [appendWithin]
  split_ifs with h
  · have hlen : frame.length ≤ space := by simpa using h
    exact Or.inl ⟨frame, rfl, hne, whole_of_skipFrame hlen (hskip hlen)⟩
  · exact Or.inr ⟨rfl, Or.inl ⟨rfl, rfl⟩⟩

/-! ### The frames -/

theorem varintBytes_of_lt (h : n < 64) : varintBytes n = [UInt8.ofNat n] := by
  rw [varintBytes, if_pos (by omega), if_pos h]

variable (out : List UInt8)

theorem framesLengthDataEncode_eq (space : ℕ) (v : List UInt8) :
    framesLengthDataEncode out space v =
      appendWithin space out (varintBytes v.length ++ v) := by
  rw [framesLengthDataEncode, framesVarintEncode_eq, appendWithin_bind]

theorem framesCharzEncode_eq (space : ℕ) (s : Option (List UInt8)) :
    framesCharzEncode out space s =
      appendWithin space out (varintBytes (s.getD []).length ++ s.getD []) := by
  cases s with
  | none =>
    rw [framesCharzEncode, Option.elim_none, framesVarintEncode_eq]
    exact congrArg (appendWithin space out) (List.append_nil _).symm
  | some s => exact framesLengthDataEncode_eq out space s

theorem challengeFrame_eq (space frameType challenge : ℕ) :
    challengeFrame space frameType challenge =
      appendWithin space [] (UInt8.ofNat frameType :: uint64Bytes challenge) :=
  appendWithin_bind _ _ _ _

theorem limitFrame_eq (space frameType limit : ℕ) :
    limitFrame out space frameType limit =
      appendWithin space out (UInt8.ofNat frameType :: varintBytes limit) := by
  simp only [limitFrame, framesVarintEncode_eq]
  exact appendWithin_bind _ _ _ _

theorem maxStreamDataFrame_eq (space streamId newMaxData : ℕ) :
    maxStreamDataFrame out space streamId newMaxData =
      appendWithin space out
        (UInt8.ofNat frameTypeMaxStreamData ::
          (varintBytes streamId ++ varintBytes newMaxData)) := by
  simp only [maxStreamDataFrame, framesUint8Encode, framesVarintEncode_eq, Option.bind_eq_bind,
    appendWithin_bind]
  rfl

/-- The bytes of a NEW_CONNECTION_ID frame. -/
def newConnectionIdBytes (retireBefore : ℕ) (resetSecret : List UInt8) (cid : LocalCnxid) :
    List UInt8 :=
  UInt8.ofNat frameTypeNewConnectionId :: (varintBytes cid.sequence ++ (varintBytes retireBefore ++
    (UInt8.ofNat cid.cnxId.length :: (cid.cnxId ++ resetSecret))))

theorem newConnectionIdFrame_eq (space retireBefore : ℕ) (resetSecret : List UInt8)
    (cid : LocalCnxid) :
    newConnectionIdFrame space retireBefore resetSecret cid =
      appendWithin space [] (newConnectionIdBytes retireBefore resetSecret cid) := by
  have hlen := cid.length_le
  simp only [newConnectionIdFrame, framesUint8Encode, framesVarintEncode_eq,
    framesLengthDataEncode_eq, Option.bind_eq_bind, appendWithin_bind]
  rw [varintBytes_of_lt (show cid.cnxId.length < 64 by omega)]
  rfl

theorem skipFrame_newConnectionIdBytes (retireBefore : ℕ) {resetSecret : List UInt8}
    (hsecret : resetSecret.length = resetSecretSize) (cid : LocalCnxid) (rest : List UInt8) :
    (skipFrame (newConnectionIdBytes retireBefore resetSecret cid ++ rest)).1 = some rest := by
  have hlen := cid.length_le
  have htype : UInt8.ofNat frameTypeNewConnectionId :: ([] : List UInt8) =
      varintBytes frameTypeNewConnectionId := (varintBytes_of_lt (by decide)).symm
  have hcid : (UInt8.ofNat cid.cnxId.length).toNat = cid.cnxId.length := by
    rw [UInt8.toNat_ofNat']
    omega
  have hskip : skipNewConnectionIdFrame
      (newConnectionIdBytes retireBefore resetSecret cid ++ rest) = some rest := by
    have hbytes : newConnectionIdBytes retireBefore resetSecret cid ++ rest =
        varintBytes frameTypeNewConnectionId ++ (varintBytes cid.sequence ++
          (varintBytes retireBefore ++ (UInt8.ofNat cid.cnxId.length ::
            (cid.cnxId ++ resetSecret ++ rest)))) := by
      rw [← htype, newConnectionIdBytes]
      simp
    rw [hbytes, skipNewConnectionIdFrame, framesVarintsSkip_varintBytes,
      framesVarintsSkip_varintBytes, framesVarintsSkip_varintBytes, framesVarintsSkip]
    simp only [Option.bind_eq_bind, Option.bind_some, framesUint8Decode, hcid]
    have hsize : cid.cnxId.length + resetSecretSize = (cid.cnxId ++ resetSecret).length := by
      rw [List.length_append, hsecret]
    rw [hsize]
    exact framesFixedSkip_append _ _
  exact hskip

/-- The bytes of an ACK_FREQUENCY frame. -/
def ackFrequencyBytes (seq ackGap ackDelayMax : ℕ) (ackIgnoreOrder : Bool) : List UInt8 :=
  varintBytes frameTypeAckFrequency ++ (varintBytes seq ++ (varintBytes ackGap ++
    (varintBytes ackDelayMax ++ [UInt8.ofNat ackIgnoreOrder.toNat])))

theorem ackFrequencyFrame_eq (space seq ackGap ackDelayMax : ℕ) (ackIgnoreOrder : Bool) :
    ackFrequencyFrame space seq ackGap ackDelayMax ackIgnoreOrder =
      appendWithin space [] (ackFrequencyBytes seq ackGap ackDelayMax ackIgnoreOrder) := by
  simp only [ackFrequencyFrame, framesUint8Encode, framesVarintEncode_eq, Option.bind_eq_bind,
    appendWithin_bind]
  rfl

theorem skipFrame_ackFrequencyBytes (seq ackGap ackDelayMax : ℕ) (ackIgnoreOrder : Bool)
    (rest : List UInt8) :
    (skipFrame (ackFrequencyBytes seq ackGap ackDelayMax ackIgnoreOrder ++ rest)).1 =
      some rest := by
  have hext : ∀ bytes, (skipFrame (varintBytes frameTypeAckFrequency ++ bytes)).1 =
      skipAckFrequencyFrame bytes := fun bytes => by
    change (skipExtendedFrame (varintBytes frameTypeAckFrequency ++ bytes)).1 = _
    rw [skipExtendedFrame, framesVarintDecode_varintBytes]
    rfl
  simp only [ackFrequencyBytes, List.append_assoc]
  rw [hext, skipAckFrequencyFrame, framesVarintsSkip_varintBytes, framesVarintsSkip_varintBytes,
    framesVarintsSkip_varintBytes, framesVarintsSkip]
  exact framesFixedSkip_append [_] rest

/-- The bytes of a path identifier, for the types that exist. -/
def pathIdentifierBytes (pathIdType pathIdValue : ℕ) : List UInt8 :=
  varintBytes pathIdType ++ if pathIdType = 2 then [] else varintBytes pathIdValue

variable {pathIdType : ℕ}

theorem encodePathIdentifier_eq (h : pathIdType ≤ 2) (out : List UInt8) (space pathIdValue : ℕ) :
    encodePathIdentifier out space pathIdType pathIdValue =
      appendWithin space out (pathIdentifierBytes pathIdType pathIdValue) := by
  have hcases : pathIdType = 0 ∨ pathIdType = 1 ∨ pathIdType = 2 := by omega
  rcases hcases with rfl | rfl | rfl
  · simp only [encodePathIdentifier, framesVarintEncode_eq, Option.bind_eq_bind, appendWithin_bind]
    rfl
  · simp only [encodePathIdentifier, framesVarintEncode_eq, Option.bind_eq_bind, appendWithin_bind]
    rfl
  · simp only [encodePathIdentifier, framesVarintEncode_eq, Option.bind_eq_bind]
    rw [pathIdentifierBytes, if_pos rfl, List.append_nil]
    exact Option.bind_fun_some _

theorem encodePathIdentifier_of_lt (h : 2 < pathIdType) (out : List UInt8) (space pathIdValue : ℕ) :
    encodePathIdentifier out space pathIdType pathIdValue = none := by
  obtain ⟨k, rfl⟩ : ∃ k, pathIdType = k + 3 := ⟨pathIdType - 3, by omega⟩
  rw [encodePathIdentifier]
  cases framesVarintEncode out space (k + 3) <;> rfl

/-- A path identifier is read back. -/
theorem parsePathIdentifier_bytes (h : pathIdType ≤ 2) (pathIdValue : ℕ) (rest : List UInt8) :
    parsePathIdentifier (pathIdentifierBytes pathIdType pathIdValue ++ rest) =
      some (pathIdType, if pathIdType = 2 then 0 else pathIdValue % 2 ^ 62, rest) := by
  have hcases : pathIdType = 0 ∨ pathIdType = 1 ∨ pathIdType = 2 := by omega
  rw [pathIdentifierBytes, List.append_assoc, parsePathIdentifier, framesVarintDecode_varintBytes]
  rcases hcases with rfl | rfl | rfl
  · change ((framesVarintDecode (varintBytes pathIdValue ++ rest)).bind _) = _
    rw [framesVarintDecode_varintBytes]
    rfl
  · change ((framesVarintDecode (varintBytes pathIdValue ++ rest)).bind _) = _
    rw [framesVarintDecode_varintBytes]
    rfl
  · rfl

/-- The bytes of a PATH_ABANDON frame after the type. -/
def pathAbandonBytes (pathIdType pathIdValue reason : ℕ) (phrase : List UInt8) : List UInt8 :=
  pathIdentifierBytes pathIdType pathIdValue ++ (varintBytes reason ++
    (varintBytes phrase.length ++ phrase))

theorem pathAbandonFrame_eq (h : pathIdType ≤ 2) (space pathIdValue reason : ℕ)
    (phrase : Option (List UInt8)) :
    pathAbandonFrame space pathIdType pathIdValue reason phrase =
      appendWithin space [] (varintBytes frameTypePathAbandon ++
        pathAbandonBytes pathIdType pathIdValue reason (phrase.getD [])) := by
  simp only [pathAbandonFrame, framesVarintEncode_eq, framesCharzEncode_eq,
    encodePathIdentifier_eq h, Option.bind_eq_bind, appendWithin_bind]
  rfl

theorem pathAbandonFrame_of_lt (h : 2 < pathIdType) (space pathIdValue reason : ℕ)
    (phrase : Option (List UInt8)) :
    pathAbandonFrame space pathIdType pathIdValue reason phrase = none := by
  rw [pathAbandonFrame]
  cases framesVarintEncode [] space frameTypePathAbandon with
  | none => rfl
  | some out =>
    change (encodePathIdentifier out space pathIdType pathIdValue).bind _ = none
    rw [encodePathIdentifier_of_lt h]
    rfl

theorem skipFrame_pathAbandon (bytes : List UInt8) :
    (skipFrame (varintBytes frameTypePathAbandon ++ bytes)).1 = skipPathAbandonFrame bytes := by
  change (skipExtendedFrame (varintBytes frameTypePathAbandon ++ bytes)).1 = _
  rw [skipExtendedFrame, framesVarintDecode_varintBytes]
  rfl

theorem skipPathAbandonFrame_bytes (h : pathIdType ≤ 2) (pathIdValue reason : ℕ)
    {phrase : List UInt8} (hphrase : phrase.length < 2 ^ 62) (rest : List UInt8) :
    skipPathAbandonFrame (pathAbandonBytes pathIdType pathIdValue reason phrase ++ rest) =
      some rest := by
  simp only [pathAbandonBytes, List.append_assoc]
  rw [skipPathAbandonFrame, parsePathIdentifier_bytes h]
  change ((framesVarintSkip (varintBytes reason ++ _)).bind framesLengthDataSkip) = _
  rw [framesVarintSkip_varintBytes, Option.bind_some, ← List.append_assoc,
    framesLengthDataSkip_append hphrase]

/-- The bytes of a BDP frame after the type. -/
def bdpBytes (ticket : BdpTicket) : List UInt8 :=
  varintBytes (24 * 3600 * 1000000) ++ (varintBytes ticket.cwin ++ (varintBytes ticket.rtt ++
    (varintBytes ticket.ipAddr.length ++ ticket.ipAddr)))

theorem bdpFrame_eq (space : ℕ) (ticket : BdpTicket) :
    bdpFrame space ticket =
      appendWithin space [] (varintBytes frameTypeBdp ++ bdpBytes ticket) := by
  simp only [bdpFrame, framesVarintEncode_eq, framesLengthDataEncode_eq, Option.bind_eq_bind,
    appendWithin_bind]
  rfl

theorem skipFrame_bdp {ticket : BdpTicket} (h : ticket.ipAddr.length < 2 ^ 62)
    (rest : List UInt8) :
    (skipFrame (varintBytes frameTypeBdp ++ bdpBytes ticket ++ rest)).1 = some rest := by
  have hext : ∀ bytes, (skipFrame (varintBytes frameTypeBdp ++ bytes)).1 = skipBdpFrame bytes :=
    fun bytes => by
      change (skipExtendedFrame (varintBytes frameTypeBdp ++ bytes)).1 = _
      rw [skipExtendedFrame, framesVarintDecode_varintBytes]
      rfl
  simp only [bdpBytes, List.append_assoc]
  rw [hext, skipBdpFrame, framesVarintsSkip_varintBytes, framesVarintsSkip_varintBytes,
    framesVarintsSkip_varintBytes, framesVarintsSkip, Option.bind_some, ← List.append_assoc,
    framesLengthDataSkip_append h]

theorem datagramFrame_eq (space : ℕ) (src : List UInt8) :
    datagramFrame space src =
      appendWithin space []
        (UInt8.ofNat frameTypeDatagramL :: (varintBytes src.length ++ src)) := by
  simp only [datagramFrame, framesUint8Encode, framesVarintEncode_eq, Option.bind_eq_bind,
    appendWithin_bind]
  rfl

theorem skipFrame_datagram {src : List UInt8} (h : src.length < 2 ^ 62) (rest : List UInt8) :
    (skipFrame (UInt8.ofNat frameTypeDatagramL :: (varintBytes src.length ++ src) ++ rest)).1 =
      some rest :=
  framesLengthDataSkip_append h rest

theorem formatTimeStampFrame_eq (params : AckFormatParameters) (space currentTime : ℕ) :
    formatTimeStampFrame params space currentTime =
      match appendWithin space [] (varintBytes frameTypeTimeStamp ++
          varintBytes (sub64 currentTime params.startTime >>> params.ackDelayExponent)) with
      | some out => (out, false)
      | none => ([], true) := by
  have hwritten : ((framesVarintEncode [] space frameTypeTimeStamp).bind fun out =>
      framesVarintEncode out space
        (sub64 currentTime params.startTime >>> params.ackDelayExponent)) =
      appendWithin space [] (varintBytes frameTypeTimeStamp ++
        varintBytes (sub64 currentTime params.startTime >>> params.ackDelayExponent)) := by
    simp only [framesVarintEncode_eq, appendWithin_bind]
  exact congrArg (fun r : Option (List UInt8) =>
    match r with
    | some out => (out, false)
    | none => ([], true)) hwritten

theorem skipFrame_timeStamp (timeStamp : ℕ) (rest : List UInt8) :
    (skipFrame (varintBytes frameTypeTimeStamp ++ varintBytes timeStamp ++ rest)).1 =
      some rest := by
  have hext : ∀ bytes, (skipFrame (varintBytes frameTypeTimeStamp ++ bytes)).1 =
      framesVarintSkip bytes := fun bytes => by
    change (skipExtendedFrame (varintBytes frameTypeTimeStamp ++ bytes)).1 = _
    rw [skipExtendedFrame, framesVarintDecode_varintBytes]
    rfl
  rw [List.append_assoc, hext]
  exact framesVarintSkip_varintBytes timeStamp rest

/-! ### The formatters -/

/-- What waits in the queue of datagrams is a whole frame. -/
theorem QueuedDatagram.skipFrame (d : QueuedDatagram) (rest : List UInt8) :
    d.bytes ≠ [] ∧ (Picoquic.skipFrame (d.bytes ++ rest)).1 = some rest := by
  rcases d.isFrame with h | ⟨src, h⟩
  · rw [h]
    exact ⟨List.cons_ne_nil _ _, rfl⟩
  rw [datagramFrame_eq, appendWithin] at h
  split_ifs at h with hlen
  rw [← Option.some.inj h]
  refine ⟨List.cons_ne_nil _ _, skipFrame_datagram ?_ rest⟩
  rw [maxPacketSize] at hlen
  simp only [List.length_nil, List.length_cons, List.length_append] at hlen
  omega

/-- Padding before a frame that is not padding. -/
theorem skipFrame_padding {k : ℕ} {byte : UInt8} (hbyte : byte ≠ UInt8.ofNat frameTypePadding)
    (rest : List UInt8) :
    SkipsTo (List.replicate k (UInt8.ofNat frameTypePadding) ++ byte :: rest) (byte :: rest) := by
  cases k with
  | zero => exact .refl
  | succ k =>
    have hdrop : ((List.replicate k (UInt8.ofNat frameTypePadding) ++ byte :: rest).dropWhile
        fun b => b == UInt8.ofNat frameTypePadding) = byte :: rest := by
      induction k with
      | zero => exact List.dropWhile_cons_of_neg (by simpa using hbyte)
      | succ k ih =>
        rw [List.replicate_succ, List.cons_append, List.dropWhile_cons_of_pos (by simp)]
        exact ih
    exact .single (congrArg some hdrop)

/-- **A datagram buffer.** The frame is whole; without a length it ends with the packet. -/
theorem whole_provideDatagramBuffer (space : Space) {allowedSpace : ℕ} {data : List UInt8}
    (hallowed : allowedSpace ≤ (space : ℕ) - 1) (hspace : 0 < (space : ℕ))
    (hdata : data.length ≤ allowedSpace) :
    provideDatagramBuffer space allowedSpace data ≠ [] ∧
      Whole space (provideDatagramBuffer space allowedSpace data) := by
  have hlt := space.isLt
  have hframe : (framesVarintEncode [UInt8.ofNat frameTypeDatagramL] space data.length).bind
      (fun out => appendWithin space out data) =
      appendWithin space [UInt8.ofNat frameTypeDatagramL] (varintBytes data.length ++ data) := by
    rw [framesVarintEncode_eq, appendWithin_bind]
  rw [provideDatagramBuffer, if_pos hdata, hframe, appendWithin]
  by_cases hfit : [UInt8.ofNat frameTypeDatagramL].length +
      (varintBytes data.length ++ data).length ≤ space
  · rw [if_pos hfit]
    rw [← List.length_append] at hfit
    refine ⟨List.cons_ne_nil _ _, whole_of_skipFrame hfit fun rest => ?_⟩
    exact skipFrame_datagram (by omega) rest
  · rw [if_neg hfit]
    refine ⟨by simp, ?_, fun rest hrest => ?_⟩
    · simp only [List.length_append, List.length_replicate, List.length_cons]
      omega
    · simp only [List.length_append, List.length_replicate, List.length_cons] at hrest
      have hnil : rest = [] := List.eq_nil_of_length_eq_zero (by omega)
      rw [hnil, List.append_nil]
      exact (skipFrame_padding (by decide) data).tail rfl

theorem skipFrame_maxStreamData (streamId newMaxData : ℕ) (rest : List UInt8) :
    (skipFrame (UInt8.ofNat frameTypeMaxStreamData ::
      (varintBytes streamId ++ varintBytes newMaxData) ++ rest)).1 = some rest := by
  change framesVarintsSkip 2 (varintBytes streamId ++ varintBytes newMaxData ++ rest) = _
  rw [List.append_assoc, framesVarintsSkip_varintBytes, framesVarintsSkip_varintBytes,
    framesVarintsSkip]

/-- The loop over the streams appends whole frames. If it appends none, then either no stream
needs one, or the first one did not fit. -/
theorem formatRequiredFrames_spec (rttMin : ℕ) (l : List StreamWindow) {out : List UInt8}
    {r : Formatted} (hr : r.bytes = some out) (hout : Whole space out) :
    ∃ w, (formatRequiredFrames space rttMin l out r).1.bytes = some w ∧ Whole space w ∧
      out.length ≤ w.length ∧
      (w = out →
        (∀ s ∈ l, s.required rttMin = none) ∧
          formatRequiredFrames space rttMin l out r = (r, true) ∨
        (formatRequiredFrames space rttMin l out r).1.flags.moreData = true ∧
          (formatRequiredFrames space rttMin l out r).1.cnx = r.cnx ∧
          (formatRequiredFrames space rttMin l out r).2 = false) := by
  induction l generalizing out r with
  | nil => exact ⟨out, hr, hout, le_rfl, fun _ => Or.inl ⟨by simp, rfl⟩⟩
  | cons s rest ih =>
    rw [formatRequiredFrames]
    cases hneed : s.required rttMin with
    | none =>
      obtain ⟨w, h1, h2, h3, h4⟩ := ih hr hout
      refine ⟨w, h1, h2, h3, fun hw => (h4 hw).imp_left fun h => ⟨?_, h.2⟩⟩
      exact List.forall_mem_cons.mpr ⟨hneed, h.1⟩
    | some newMaxData =>
      dsimp only
      have hframe := maxStreamDataFrame_eq out space s.streamId newMaxData
      have hskip := skipFrame_maxStreamData s.streamId newMaxData
      rw [formatMaxStreamDataFrame, hframe, appendWithin]
      by_cases hfit : out.length + (UInt8.ofNat frameTypeMaxStreamData ::
          (varintBytes s.streamId ++ varintBytes newMaxData)).length ≤ space
      · rw [if_pos hfit]
        rw [← List.length_append] at hfit
        obtain ⟨w, h1, h2, h3, -⟩ := ih (r := attempt r.cnx r.flags out (some _)
          (r.cnx.sentMaxStreamData s.streamId newMaxData) true) rfl (hout.append hfit hskip)
        rw [List.length_append, List.length_cons] at h3
        refine ⟨w, h1, h2, by omega, fun hw => ?_⟩
        rw [hw] at h3
        omega
      · rw [if_neg hfit]
        exact ⟨out, rfl, hout, le_rfl, fun _ => Or.inr ⟨rfl, rfl, rfl⟩⟩

theorem whole_nil (n : ℕ) : Whole n [] := ⟨Nat.zero_le n, fun _ _ => .refl⟩

theorem allOrNothing_requiredMaxStreamData :
    AllOrNothing c space .requiredMaxStreamData
      (formatRequiredMaxStreamDataFrames c space flags) := by
  obtain ⟨w, h1, h2, -, h4⟩ := formatRequiredFrames_spec (r := ⟨some [], flags, c⟩) c.rttMin
    c.streams rfl (whole_nil space)
  rw [formatRequiredMaxStreamDataFrames]
  revert h1 h4
  generalize formatRequiredFrames space c.rttMin c.streams [] ⟨some [], flags, c⟩ = q
  obtain ⟨r, done⟩ := q
  intro h1 h4
  dsimp only at h1 h4 ⊢
  by_cases hw : w = []
  · subst hw
    rcases h4 rfl with ⟨hnone, heq⟩ | ⟨hmore, hcnx, hdone⟩
    · obtain ⟨rfl, rfl⟩ := Prod.mk.inj heq
      exact Or.inr ⟨rfl, Or.inr ⟨hnone, rfl⟩⟩
    · subst hdone
      exact Or.inr ⟨h1, Or.inl ⟨hmore, hcnx⟩⟩
  · left
    refine ⟨w, ?_, hw, h2⟩
    split_ifs <;> exact h1

theorem skipFrame_limit {frameType : ℕ} (h : ∀ bytes,
    skipFrame (UInt8.ofNat frameType :: bytes) = (framesVarintSkip bytes, false))
    (limit : ℕ) (rest : List UInt8) :
    (skipFrame (UInt8.ofNat frameType :: varintBytes limit ++ rest)).1 = some rest := by
  rw [List.cons_append, h]
  exact framesVarintSkip_varintBytes limit rest

/-- The second half of the MAX_STREAMS formatter, after nothing. -/
theorem formatMaxStreamsUnidir_nil (flags : PacketFlags)
    (hflags : flags.moreData = true ∨ ¬ c.needsBidir) :
    AllOrNothing c space .maxStreams (formatMaxStreamsUnidir c space flags []) := by
  rw [formatMaxStreamsUnidir]
  by_cases hneed : c.needsUnidir
  · rw [if_pos hneed]
    dsimp only
    rw [limitFrame_eq]
    exact allOrNothing_attempt (List.cons_ne_nil _ _)
      fun _ => skipFrame_limit (fun _ => rfl) _
  · rw [if_neg hneed]
    refine Or.inr ⟨rfl, ?_⟩
    rcases hflags with h | h
    · exact Or.inl ⟨h, rfl⟩
    · exact Or.inr ⟨⟨h, hneed⟩, rfl⟩

/-- The second half after a frame: something is written, whether this frame fits or not. -/
theorem formatMaxStreamsUnidir_of_whole {w : List UInt8} (c' : ControlCnx) (flags : PacketFlags)
    (hne : w ≠ []) (hw : Whole space w) :
    AllOrNothing c space .maxStreams (formatMaxStreamsUnidir c' space flags w) := by
  left
  rw [formatMaxStreamsUnidir]
  by_cases hneed : c'.needsUnidir
  · rw [if_pos hneed]
    dsimp only
    rw [limitFrame_eq, appendWithin]
    split_ifs with hfit
    · rw [← List.length_append] at hfit
      exact ⟨_, rfl, by simp, hw.append hfit (skipFrame_limit (fun _ => rfl) _)⟩
    · exact ⟨w, rfl, hne, hw⟩
  · rw [if_neg hneed]
    exact ⟨w, rfl, hne, hw⟩

/-- **Both halves.** When the first frame fits and the second does not, the first one stays. -/
theorem allOrNothing_maxStreams :
    AllOrNothing c space .maxStreams (formatMaxStreamsFrameIfNeeded c space flags) := by
  rw [formatMaxStreamsFrameIfNeeded, formatMaxStreamsBidir]
  by_cases hbidir : c.needsBidir
  swap
  · rw [if_neg hbidir]
    exact formatMaxStreamsUnidir_nil flags (Or.inr hbidir)
  rw [if_pos hbidir]
  dsimp only
  rw [limitFrame_eq, appendWithin]
  set rank := streamRankFromId
    (u64 (c.maxStreamIdBidirLocal + 4 * streamRankFromId c.initialMaxStreamIdBidir + 4)) with hrank
  have hskip : ∀ rest, (skipFrame (UInt8.ofNat frameTypeMaxStreamsBidir ::
      varintBytes rank ++ rest)).1 = some rest := skipFrame_limit (fun _ => rfl) _
  by_cases hfit : ([] : List UInt8).length +
      (UInt8.ofNat frameTypeMaxStreamsBidir :: varintBytes rank).length ≤ space
  swap
  · rw [if_neg hfit]
    exact formatMaxStreamsUnidir_nil { flags with moreData := true } (Or.inl rfl)
  rw [if_pos hfit]
  have hwhole := whole_of_skipFrame (n := space) (by simpa using hfit) hskip
  exact formatMaxStreamsUnidir_of_whole _ _ (List.cons_ne_nil _ _) hwhole

/-! ### All or nothing -/

/-- The size of a BDP frame. -/
def bdpFrameSize (ticket : BdpTicket) : ℕ :=
  12 + encodeVarintLength ticket.cwin + encodeVarintLength ticket.rtt +
    encodeVarintLength ticket.ipAddr.length + ticket.ipAddr.length

/-- When the formatters keep the property. -/
def Keeps (c : ControlCnx) (space : ℕ) (flags : PacketFlags) : ControlRequest → Prop
  | .pathChallenge _ | .pathResponse _ => 1 + challengeLength ≤ space
  | .bdp => c.bdpTicket.cwin = 0 ∨ flags.moreData = true ∨ bdpFrameSize c.bdpTicket ≤ space
  | .newConnectionId _ | .retireConnectionId _ | .newToken _ | .maxData _ | .maxStreamData _ _
  | .requiredMaxStreamData | .maxStreams | .ackFrequency _ _ | .timeStamp _ | .pathAbandon _ _ _ _
  | .datagram _ | .firstDatagram | .readyDatagram _ => True

/-- A path challenge or response: no position is left when it does not fit. -/
theorem allOrNothing_challenge_iff {frameType challenge : ℕ} (h : ∀ bytes,
    (skipFrame (UInt8.ofNat frameType :: bytes)).1 = framesFixedSkip bytes challengeLength) :
    AllOrNothing c space request
      (match challengeFrame space frameType challenge with
        | some bytes => ⟨some bytes, { flags with isPureAck := false }, c⟩
        | none => ⟨none, { flags with moreData := true }, c⟩) ↔
      1 + challengeLength ≤ space := by
  rw [challengeFrame_eq, appendWithin]
  have hlen : ([] : List UInt8).length + (UInt8.ofNat frameType :: uint64Bytes challenge).length =
      1 + challengeLength := rfl
  rw [hlen]
  by_cases hfit : 1 + challengeLength ≤ space
  · rw [if_pos hfit]
    refine iff_of_true (Or.inl ⟨_, rfl, List.cons_ne_nil _ _, ?_⟩) hfit
    refine whole_of_skipFrame hfit fun rest => ?_
    rw [List.nil_append, List.cons_append, h]
    exact framesFixedSkip_append (uint64Bytes challenge) rest
  · rw [if_neg hfit]
    refine iff_of_false ?_ hfit
    rintro (⟨w, hw, -⟩ | ⟨hw, -⟩)
    · cases hw
    · cases hw

theorem allOrNothing_bdp_iff :
    AllOrNothing c space .bdp (formatBdpFrame c space flags) ↔ Keeps c space flags .bdp := by
  have hlt := space.isLt
  have hsize : (varintBytes frameTypeBdp ++ bdpBytes c.bdpTicket).length =
      bdpFrameSize c.bdpTicket := by
    have h4 : encodeVarintLength frameTypeBdp = 4 := by decide
    have h8 : encodeVarintLength (24 * 3600 * 1000000) = 8 := by decide
    simp only [bdpBytes, List.length_append, varintBytes_length, h4, h8, bdpFrameSize]
    omega
  rw [formatBdpFrame, Keeps]
  by_cases hzero : c.bdpTicket.cwin = 0
  · rw [if_pos hzero]
    exact iff_of_true (Or.inr ⟨rfl, Or.inr ⟨hzero, rfl⟩⟩) (Or.inl hzero)
  rw [if_neg hzero, bdpFrame_eq, appendWithin, hsize, List.length_nil, Nat.zero_add]
  by_cases hfit : bdpFrameSize c.bdpTicket ≤ space
  · rw [if_pos hfit]
    refine iff_of_true (Or.inl ⟨_, rfl, by simp [varintBytes, frameTypeBdp], ?_⟩)
      (Or.inr (Or.inr hfit))
    refine whole_of_skipFrame (hsize.trans_le hfit) fun rest => skipFrame_bdp ?_ rest
    rw [bdpFrameSize] at hfit
    omega
  · rw [if_neg hfit]
    constructor
    · rintro (⟨w, hw, hne, -⟩ | ⟨-, hmore | hnothing⟩)
      · exact absurd (Option.some.inj hw).symm hne
      · exact Or.inr (Or.inl hmore.1)
      · exact absurd hnothing.1 hzero
    · rintro (h | h | h)
      · exact absurd h hzero
      · exact Or.inr ⟨rfl, Or.inl ⟨h, rfl⟩⟩
      · exact absurd h hfit

/-- A NEW_CONNECTION_ID frame: nothing is announced for the first identifier, or without length. -/
theorem allOrNothing_newConnectionId
    (createResetSecret : List UInt8 → List.Vector UInt8 resetSecretSize)
    (cid : Option LocalCnxid) :
    AllOrNothing c space (.newConnectionId cid)
      (formatNewConnectionIdFrame c space flags createResetSecret cid) := by
  cases cid with
  | none => exact Or.inr ⟨rfl, Or.inr ⟨fun l hl => (by cases hl), rfl⟩⟩
  | some cid =>
    rw [formatNewConnectionIdFrame]
    split_ifs with h
    · rw [newConnectionIdFrame_eq]
      refine allOrNothing_attempt (List.cons_ne_nil _ _) fun _ rest => ?_
      exact skipFrame_newConnectionIdBytes _ (List.Vector.toList_length _) cid rest
    · refine Or.inr ⟨rfl, Or.inr ⟨?_, rfl⟩⟩
      rintro l hl
      rw [← Option.some.inj hl]
      by_cases hseq : cid.sequence = 0
      · exact Or.inl hseq
      · exact Or.inr (List.eq_nil_of_length_eq_zero (by
          have := not_and.mp h hseq
          omega))

/-- A PATH_ABANDON frame, whose type must be known. -/
theorem allOrNothing_pathAbandon (pathIdType pathIdValue reason : ℕ)
    (phrase : Option (List UInt8)) :
    AllOrNothing c space (.pathAbandon pathIdType pathIdValue reason phrase)
      (formatPathAbandonFrame c space flags pathIdType pathIdValue reason phrase) := by
  have hlt := space.isLt
  rw [formatPathAbandonFrame]
  by_cases htype : pathIdType ≤ 2
  · rw [pathAbandonFrame_eq htype]
    refine allOrNothing_attempt (by simp [varintBytes, frameTypePathAbandon]) fun hfit rest => ?_
    rw [List.append_assoc, skipFrame_pathAbandon]
    refine skipPathAbandonFrame_bytes htype pathIdValue reason ?_ rest
    simp only [List.length_append, pathAbandonBytes] at hfit
    omega
  · rw [pathAbandonFrame_of_lt (by omega)]
    exact Or.inr ⟨rfl, Or.inl ⟨rfl, rfl⟩⟩

/-- A datagram that the application provides. -/
theorem allOrNothing_readyDatagram (answer : DatagramAnswer) :
    AllOrNothing c space (.readyDatagram answer)
      (formatReadyDatagramFrame c space flags answer) := by
  have hlt := space.isLt
  rw [formatReadyDatagramFrame.eq_def]
  split_ifs with h
  · exact Or.inr ⟨rfl, Or.inl ⟨rfl, rfl⟩⟩
  · cases answer with
    | nothing => exact Or.inr ⟨rfl, Or.inr ⟨trivial, rfl⟩⟩
    | fail => exact Or.inr ⟨rfl, Or.inr ⟨trivial, rfl⟩⟩
    | provide data =>
      by_cases hdata : data.length ≤ c.allowedSpace space
      · obtain ⟨hne, hwhole⟩ := whole_provideDatagramBuffer space
          (min_le_left _ _ : c.allowedSpace space ≤ _) (by omega) hdata
        exact Or.inl ⟨_, rfl, hne, hwhole⟩
      · refine Or.inr ⟨?_, Or.inr ⟨not_le.mp hdata, rfl⟩⟩
        exact congrArg some (if_neg hdata)

/-- **Control frames are all or nothing**, except for three formatters. A path challenge or
response has to fit, and a BDP frame has to fit, be unnecessary, or find `more_data` set. -/
theorem all_or_nothing_iff
    (createResetSecret : List UInt8 → List.Vector UInt8 resetSecretSize) (c : ControlCnx)
    (space : Space) (flags : PacketFlags) (request : ControlRequest) :
    AllOrNothing c space request (request.format c space flags createResetSecret) ↔
      Keeps c space flags request := by
  have hlt := space.isLt
  cases request with
  | pathChallenge challenge => exact allOrNothing_challenge_iff fun _ => rfl
  | pathResponse challenge => exact allOrNothing_challenge_iff fun _ => rfl
  | bdp => exact allOrNothing_bdp_iff
  | newConnectionId cid => exact iff_of_true (allOrNothing_newConnectionId _ cid) trivial
  | retireConnectionId sequence =>
    refine iff_of_true ?_ trivial
    change AllOrNothing _ _ _ (attempt c flags []
      (limitFrame [] space frameTypeRetireConnectionId sequence) c true)
    rw [limitFrame_eq]
    exact allOrNothing_attempt (List.cons_ne_nil _ _) fun _ => skipFrame_limit (fun _ => rfl) _
  | newToken token =>
    refine iff_of_true ?_ trivial
    simp only [format, formatNewTokenFrame, framesLengthDataEncode_eq,
      framesUint8Encode, appendWithin_bind]
    refine allOrNothing_attempt (List.cons_ne_nil _ _) fun hfit rest => ?_
    refine framesLengthDataSkip_append ?_ rest
    simp only [List.length_append, List.length_cons] at hfit
    omega
  | maxData maxdataIncrease =>
    refine iff_of_true ?_ trivial
    simp only [format, ControlCnx.formatMaxDataFrame, limitFrame_eq]
    exact allOrNothing_attempt (List.cons_ne_nil _ _) fun _ => skipFrame_limit (fun _ => rfl) _
  | maxStreamData streamId newMaxData =>
    refine iff_of_true ?_ trivial
    simp only [format, formatMaxStreamDataFrame, maxStreamDataFrame_eq]
    refine allOrNothing_attempt (List.cons_ne_nil _ _) fun _ rest => ?_
    exact skipFrame_maxStreamData streamId newMaxData rest
  | requiredMaxStreamData => exact iff_of_true allOrNothing_requiredMaxStreamData trivial
  | maxStreams => exact iff_of_true allOrNothing_maxStreams trivial
  | ackFrequency ackGap ackDelayMax =>
    refine iff_of_true ?_ trivial
    simp only [format, formatAckFrequencyFrame]
    split_ifs with h
    · exact Or.inr ⟨rfl, Or.inr ⟨h, rfl⟩⟩
    · rw [ackFrequencyFrame_eq]
      refine allOrNothing_attempt (by simp [ackFrequencyBytes]) fun _ rest => ?_
      exact skipFrame_ackFrequencyBytes _ _ _ _ rest
  | timeStamp currentTime =>
    refine iff_of_true ?_ trivial
    simp only [format, ControlCnx.formatTimeStampFrame, formatTimeStampFrame_eq,
      appendWithin]
    split_ifs with hfit
    · refine Or.inl ⟨_, rfl, by simp [varintBytes, frameTypeTimeStamp], ?_⟩
      exact whole_of_skipFrame (by simpa using hfit) fun rest => skipFrame_timeStamp _ rest
    · exact Or.inr ⟨rfl, Or.inl ⟨Bool.or_true _, rfl⟩⟩
  | pathAbandon pathIdType pathIdValue reason phrase =>
    exact iff_of_true (allOrNothing_pathAbandon pathIdType pathIdValue reason phrase) trivial
  | datagram src =>
    refine iff_of_true ?_ trivial
    simp only [format, formatDatagramFrame, datagramFrame_eq]
    refine allOrNothing_attempt (List.cons_ne_nil _ _) fun hfit rest => ?_
    refine skipFrame_datagram ?_ rest
    simp only [List.length_append, List.length_cons] at hfit
    omega
  | firstDatagram =>
    refine iff_of_true ?_ trivial
    simp only [format, formatFirstDatagramFrame]
    cases h : c.datagrams with
    | nil => exact Or.inr ⟨rfl, Or.inr ⟨h, rfl⟩⟩
    | cons first rest =>
      exact allOrNothing_attempt (first.skipFrame []).1 fun _ tail => (first.skipFrame tail).2
  | readyDatagram answer => exact iff_of_true (allOrNothing_readyDatagram answer) trivial

/-- A server that has issued a ticket and not sent a frame yet. -/
def ticketedServer : ControlCnx where
  localCnxidRetireBefore := 0
  maxdataLocal := 0x100000
  maxMaxStreamDataLocal := 0x10000
  streams := []
  maxStreamDataNeeded := false
  rttMin := 20000
  maxStreamIdBidirLocal := 2049
  maxStreamIdBidirLocalComputed := 1
  initialMaxStreamIdBidir := 2049
  maxStreamIdUnidirLocal := 2051
  maxStreamIdUnidirLocalComputed := 3
  initialMaxStreamIdUnidir := 2051
  ackFrequencySequenceLocal := 2 ^ 64 - 1
  ackGapLocal := 2
  ackFrequencyDelayLocal := 25000
  maxAckGapLocal := 2
  minAckDelayLocal := 25000
  maxAckDelayLocal := 25000
  ackIgnoreOrderLocal := false
  isAckFrequencyUpdated := false
  ackFormat := ⟨3, 0⟩
  maxDatagramFrameSize := 1200
  datagrams := []
  clientMode := false
  isTicketSeeded := true
  isBdpSent := false
  issuedTicket := some ⟨100000, 20000, [10, 0, 0, 1]⟩
  storedTicket := none

/-- With eight bytes left, a path challenge and a path response lose the position of the packet,
and a BDP frame is neither written nor announced. -/
theorem eight_bytes_left :
    let flags : PacketFlags := ⟨false, true⟩
    (formatPathChallengeFrame ticketedServer 8 flags 0).bytes = none ∧
      ¬ AllOrNothing ticketedServer 8 (.pathChallenge 0)
        (formatPathChallengeFrame ticketedServer 8 flags 0) ∧
      ¬ AllOrNothing ticketedServer 8 (.pathResponse 0)
        (formatPathResponseFrame ticketedServer 8 flags 0) ∧
      ¬ AllOrNothing ticketedServer 8 .bdp (formatBdpFrame ticketedServer 8 flags) := by
  refine ⟨rfl, ?_, ?_, ?_⟩
  · rintro (⟨w, hw, -⟩ | ⟨hw, -⟩) <;> cases hw
  · rintro (⟨w, hw, -⟩ | ⟨hw, -⟩) <;> cases hw
  · rintro (⟨w, hw, hne, -⟩ | ⟨-, ⟨hmore, -⟩ | ⟨hnothing, -⟩⟩)
    · exact hne (Option.some.inj hw).symm
    · cases hmore
    · revert hnothing
      change ¬ ticketedServer.bdpTicket.cwin = 0
      decide

end Picoquic
