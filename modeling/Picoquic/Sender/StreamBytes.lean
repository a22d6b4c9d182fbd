import Picoquic.Sender.Format
import Picoquic.Wire.Control

/-!
# STREAM frames as bytes

* **`parseStreamHeader`** — what a receiver finds behind the type of a STREAM frame;
* **`SendCnx.writeStreamFrame`** — what the sender writes, byte by byte;
* **`SendCnx.writeStreamFrame_bytes`** — these are the bytes of the frames of
  `SendCnx.formatStreamFrame`;
* **`parseStreamHeader_bytes`** — reading a STREAM frame back;
* **`stream_frame_round_trip`** — a call writes nothing, or the next bytes of the stream.

A buffer is the list of the bytes that were written, and the space it has. The application that
is polled asks once for a place for its data, and fills it.
-/

namespace Picoquic

open StreamFrame SendCnx

/-! ### Reading -/

/-- The output arguments of `picoquic_parse_stream_header`. -/
structure StreamHeader where
  streamId : ℕ
  offset : ℕ
  dataLength : ℕ
  fin : Bool
  consumed : ℕ

/-- `picoquic_varint_decode` at a position, if there is a byte left. -/
def varintDecodeAt (bytes : List UInt8) (byteIndex : ℕ) : ℕ × ℕ :=
  if byteIndex < bytes.length then varintDecode (bytes.drop byteIndex) else (0, 0)

/-- `picoquic_parse_stream_header`, or nothing for a return value that is not zero. -/
def parseStreamHeader (bytes : List UInt8) : Option StreamHeader :=
  let first := bytes.headD 0
  let len := first &&& 2
  let off := first &&& 4
  let fin := first &&& 1 != 0
  let (lStream, streamId) := varintDecodeAt bytes 1
  let byteIndex := 1 + lStream
  let (lOff, offset) := if off = 0 then (0, 0) else varintDecodeAt bytes byteIndex
  let byteIndex := byteIndex + lOff
  if bytes.length < byteIndex ∨ lStream = 0 ∨ (off ≠ 0 ∧ lOff = 0) then none
  else if len = 0 then some ⟨streamId, offset, bytes.length - byteIndex, fin, byteIndex⟩
  else
    let (lLen, length) := varintDecodeAt bytes byteIndex
    let byteIndex := byteIndex + lLen
    if lLen = 0 ∨ bytes.length < byteIndex then none
    else if bytes.length < u64 (byteIndex + length) then none
    else some ⟨streamId, offset, length, fin, byteIndex⟩

/-! ### Writing -/

/-- Sets a flag in the first byte of a frame. -/
def setFlag (bytes : List UInt8) (i : ℕ) (flag : UInt8) : List UInt8 := bytes.modify i (· ||| flag)

/-- `picoquic_format_stream_frame_header`, in a buffer of `space` bytes. -/
def formatStreamFrameHeader (space streamId offset : ℕ) : Option (List UInt8) := do
  let bytes ← framesUint8Encode [] space frameTypeStreamRangeMin
  let bytes ← framesVarintEncode bytes space streamId
  if 0 < offset then framesVarintEncode (setFlag bytes 0 4) space offset else some bytes

/-- `picoquic_varint_encode`, which writes nothing where there is no space. -/
def varintEncode (maxBytes n64 : ℕ) : List UInt8 :=
  if encodeVarintLength n64 ≤ maxBytes then varintBytes n64 else []

/-- `picoquic_encode_length_of_stream_frame` behind the bytes of a header, and `start_index`. -/
def writeLengthOfStreamFrame (bytes : List UInt8) (byteSpace length : ℕ) : List UInt8 × ℕ :=
  if length < byteSpace then
    if length = byteSpace - 1 then (UInt8.ofNat frameTypePadding :: bytes, 1)
    else (setFlag (bytes ++ varintEncode byteSpace length) 0 2, 0)
  else (bytes, 0)

/-- `picoquic_provide_stream_data_buffer`, and the data that the application puts there. -/
def provideStreamDataBuffer (bytes : List UInt8) (byteSpace : ℕ) (d : Polled) : List UInt8 :=
  let bytes := if d.isFin then setFlag bytes 0 1 else bytes
  (writeLengthOfStreamFrame bytes byteSpace d.data.length).1 ++ d.data

/-- The bytes of `picoquic_format_stream_frame` when the application is asked for data. -/
def polledBytes (header : List UInt8) (byteSpace allowed : ℕ) (polled : Option Polled) :
    List UInt8 :=
  match polled.filter fun d => decide (d.data.length ≤ allowed) with
  | none => []
  | some d =>
    if d.data.length = 0 ∧ d.isFin = false then [] else provideStreamDataBuffer header byteSpace d

/-- The bytes of `picoquic_format_stream_frame` when data are queued. -/
def queuedBytes (header : List UInt8) (byteSpace allowed : ℕ) (s : SendStream) : List UInt8 :=
  let length :=
    match s.sendQueue with
    | [] => 0
    | node :: _ => if allowed ≤ node.length then allowed else node.length
  let (bytes, startIndex) := writeLengthOfStreamFrame header byteSpace length
  let (data, sendQueue) := takeFromQueue allowed s.sendQueue
  let bytes := bytes ++ data
  match sendQueue with
  | [] => if s.finRequested then setFlag bytes startIndex 1 else bytes
  | _ => if length = 0 then [] else bytes

/-- `picoquic_format_stream_reset_frame`. -/
def resetStreamBytes (space streamId localError sentOffset : ℕ) : List UInt8 :=
  (do
    let bytes ← framesUint8Encode [] space frameTypeResetStream
    let bytes ← framesVarintEncode bytes space streamId
    let bytes ← framesVarintEncode bytes space localError
    framesVarintEncode bytes space sentOffset).getD []

/-- `picoquic_format_stop_sending_frame`. -/
def stopSendingBytes (space streamId localStopError : ℕ) : List UInt8 :=
  (do
    let bytes ← framesUint8Encode [] space frameTypeStopSending
    let bytes ← framesVarintEncode bytes space streamId
    framesVarintEncode bytes space localStopError).getD []

/-- The bytes that `picoquic_format_stream_frame` writes. -/
def SendCnx.streamFrameBytes (c : SendCnx) (streamId : ℕ) (polled : Option Polled) (room : ℕ) :
    List UInt8 :=
  match c.streams streamId with
  | none => []
  | some s =>
    if isLocalStreamId streamId c.clientMode = true ∧
        c.controlState.maxStreamIdRemote (!isBidirStreamId streamId) < streamId then []
    else if s.resetRequested && !s.resetSent then
      resetStreamBytes room streamId s.localError s.sentOffset
    else if s.stopSendingRequested && !s.stopSendingSent then
      if s.finReceived || s.resetReceived then []
      else stopSendingBytes room streamId s.localStopError
    else if !s.isActive && s.sendQueue.isEmpty && (!s.finRequested || s.finSent) then []
    else
      match formatStreamFrameHeader room streamId s.sentOffset with
      | none => []
      | some header =>
        let byteSpace := room - header.length
        let allowed :=
          min byteSpace
            (min (sub64 s.maxdataRemote s.sentOffset) (sub64 c.maxdataRemote c.dataSent))
        if s.isActive && s.sendQueue.isEmpty && !s.finRequested then
          polledBytes header byteSpace allowed polled
        else queuedBytes header byteSpace allowed s

/-- `picoquic_format_stream_frame`, with the bytes that it writes. -/
def SendCnx.writeStreamFrame (c : SendCnx) (streamId : ℕ) (polled : Option Polled) (room : ℕ) :
    SendCnx × List UInt8 :=
  ((c.formatStreamFrame streamId polled room).1, c.streamFrameBytes streamId polled room)

/-! ### The bytes of a frame -/

/-- The type of a STREAM frame with an offset, with a length field, with a FIN. -/
def streamFrameType (off len fin : Bool) : UInt8 :=
  UInt8.ofNat frameTypeStreamRangeMin ||| (if off then 4 else 0) ||| (if len then 2 else 0) |||
    (if fin then 1 else 0)

/-- The first byte of a STREAM frame. -/
def StreamFrame.first (f : StreamFrame) : UInt8 :=
  streamFrameType (decide (0 < f.offset)) f.hasLength f.fin

/-- A STREAM frame in front of its length. -/
def StreamFrame.header (f : StreamFrame) : List UInt8 :=
  f.first :: (varintBytes f.streamId ++ if 0 < f.offset then varintBytes f.offset else [])

/-- A STREAM frame. -/
def StreamFrame.bytes (f : StreamFrame) : List UInt8 :=
  f.header ++ ((if f.hasLength then varintBytes f.data.length else []) ++ f.data)

/-- A frame. -/
def Frame.bytes : Frame → List UInt8
  | .stream f => f.bytes
  | .resetStream streamId errorCode finalSize =>
    UInt8.ofNat frameTypeResetStream ::
      (varintBytes streamId ++ varintBytes errorCode ++ varintBytes finalSize)
  | .stopSending streamId errorCode =>
    UInt8.ofNat frameTypeStopSending :: (varintBytes streamId ++ varintBytes errorCode)
  | .control _ bytes => bytes

/-- Frames one after the other. -/
def framesBytes (frames : List Frame) : List UInt8 := frames.flatMap Frame.bytes

variable (f : StreamFrame)

theorem StreamFrame.header_length : f.header.length = streamHeaderLength f.streamId f.offset := by
  rw [header, streamHeaderLength]
  rcases Nat.eq_zero_or_pos f.offset with h0 | hpos
  · simp [h0, Nat.add_comm]
  · simp only [hpos, hpos.ne', if_true, if_false, List.length_cons, List.length_append,
      varintBytes_length]
    omega

theorem Frame.bytes_length (f : Frame) : f.bytes.length = f.length := by
  cases f with
  | stream f =>
    rw [bytes, length, StreamFrame.bytes, StreamFrame.length, consumed,
      List.length_append, f.header_length, List.length_append, Nat.add_assoc]
    cases f.hasLength <;> simp
  | resetStream | stopSending =>
    simp only [bytes, length, List.length_cons, List.length_append, varintBytes_length]
    omega
  | control => rfl

/-! ### Reading back -/

section Flags

variable (off len fin : Bool)

theorem streamFrameType_and_one : (streamFrameType off len fin &&& 1 != 0) = fin := by
  revert off len fin
  decide

theorem streamFrameType_and_two : streamFrameType off len fin &&& 2 = if len then 2 else 0 := by
  revert off len fin
  decide

theorem streamFrameType_and_four : streamFrameType off len fin &&& 4 = if off then 4 else 0 := by
  revert off len fin
  decide

theorem streamFrameType_or_one :
    streamFrameType off len false ||| 1 = streamFrameType off len true := by
  revert off len
  decide

theorem streamFrameType_or_two :
    streamFrameType off false fin ||| 2 = streamFrameType off true fin := by
  revert off fin
  decide

/-- It is the type of a STREAM frame. -/
theorem streamFrameType_range :
    frameTypeStreamRangeMin ≤ (streamFrameType off len fin).toNat ∧
      (streamFrameType off len fin).toNat ≤ frameTypeStreamRangeMax := by
  revert off len fin
  decide

end Flags

/-- A varint is read back where it was written. -/
theorem varintDecodeAt_append (front back : List UInt8) {n : ℕ} (hn : n < 2 ^ 62) :
    varintDecodeAt (front ++ (varintBytes n ++ back)) front.length = (encodeVarintLength n, n) := by
  have hpos := encodeVarintLength_pos n
  rw [varintDecodeAt, if_pos (by simp; omega), List.drop_left, varintDecode_varintBytes,
    Nat.mod_eq_of_lt hn]

/-- **Reading back.** The header of a STREAM frame is read back, whatever follows a frame with a
length field, if nothing follows a frame without. -/
theorem parseStreamHeader_bytes (rest : List UInt8) (hid : f.streamId < 2 ^ 62)
    (hoffset : f.offset < 2 ^ 62) (hlength : f.hasLength = true → f.data.length < 2 ^ 62)
    (hrest : f.hasLength = false → rest = []) :
    parseStreamHeader (f.bytes ++ rest) =
      some ⟨f.streamId, f.offset, f.data.length, f.fin, f.consumed⟩ := by
  have hhead : (f.bytes ++ rest).headD 0 = f.first := rfl
  have hid' : varintDecodeAt (f.bytes ++ rest) 1 = (encodeVarintLength f.streamId, f.streamId) := by
    rw [bytes, header, List.cons_append, List.cons_append,
      List.append_assoc, List.append_assoc]
    exact varintDecodeAt_append [f.first] _ hid
  have hoffset' : (if f.first &&& 4 = 0 then (0, 0)
      else varintDecodeAt (f.bytes ++ rest) (1 + encodeVarintLength f.streamId)) =
      (if f.offset = 0 then 0 else encodeVarintLength f.offset, f.offset) := by
    rw [StreamFrame.first, streamFrameType_and_four]
    rcases Nat.eq_zero_or_pos f.offset with h0 | hpos
    · simp [h0]
    · rw [decide_eq_true hpos, if_pos rfl, if_neg (by decide), if_neg hpos.ne', bytes,
        header, if_pos hpos, ← List.cons_append, List.append_assoc, List.append_assoc]
      have h := varintDecodeAt_append (f.first :: varintBytes f.streamId)
        (((if f.hasLength then varintBytes f.data.length else []) ++ f.data) ++ rest) hoffset
      rwa [List.length_cons, varintBytes_length, Nat.add_comm] at h
  have hindex : 1 + encodeVarintLength f.streamId +
      (if f.offset = 0 then 0 else encodeVarintLength f.offset) = f.header.length :=
    f.header_length.symm
  have hlen : f.bytes.length =
      f.header.length + (if f.hasLength then encodeVarintLength f.data.length else 0) +
        f.data.length := by
    rw [bytes, List.length_append, List.length_append, Nat.add_assoc]
    cases f.hasLength <;> simp
  have hpos := encodeVarintLength_pos f.streamId
  have hpos' := encodeVarintLength_pos f.offset
  rw [parseStreamHeader]
  simp only [hhead, hid', hoffset', hindex]
  simp only [StreamFrame.first, streamFrameType_and_one, streamFrameType_and_two,
    streamFrameType_and_four]
  rw [if_neg]
  swap
  · rw [List.length_append, hlen]
    rintro (hlt | hzero | ⟨hoff, hzero⟩)
    · omega
    · omega
    · rcases Nat.eq_zero_or_pos f.offset with h0 | hpos
      · simp [h0] at hoff
      · rw [if_neg hpos.ne'] at hzero
        omega
  rw [consumed, ← f.header_length]
  cases hflag : f.hasLength with
  | false =>
    rw [hflag] at hlen
    rw [hrest hflag, List.append_nil, hlen]
    simp
  | true =>
    rw [hflag] at hlen
    have hlength' : varintDecodeAt (f.bytes ++ rest) f.header.length =
        (encodeVarintLength f.data.length, f.data.length) := by
      rw [bytes, hflag, if_pos rfl, List.append_assoc, List.append_assoc]
      exact varintDecodeAt_append f.header _ (hlength hflag)
    have hpos := encodeVarintLength_pos f.data.length
    simp only [if_true, hlength']
    have hu := u64_le (f.header.length + encodeVarintLength f.data.length + f.data.length)
    rw [if_neg (by decide), if_neg, if_neg]
    · rw [List.length_append, hlen, if_pos rfl]
      omega
    · rw [List.length_append, hlen, if_pos rfl]
      omega

/-- The data are behind the header. -/
theorem StreamFrame.take_drop_bytes (rest : List UInt8) :
    ((f.bytes ++ rest).drop f.consumed).take f.data.length = f.data := by
  have hfront : f.bytes ++ rest =
      (f.header ++ if f.hasLength then varintBytes f.data.length else []) ++ (f.data ++ rest) := by
    rw [bytes]
    simp only [List.append_assoc]
  have hlen : (f.header ++ if f.hasLength then varintBytes f.data.length else []).length =
      f.consumed := by
    rw [List.length_append, f.header_length, consumed]
    cases f.hasLength <;> simp
  rw [hfront, ← hlen, List.drop_left, List.take_left]

/-! ### Writing the frames -/

/-- The bytes that are written before the length of the data is known. -/
def StreamFrame.plainHeader (streamId offset : ℕ) : List UInt8 :=
  (StreamFrame.mk streamId offset [] false false).header

theorem formatStreamFrameHeader_eq (space streamId offset : ℕ) :
    formatStreamFrameHeader space streamId offset =
      if streamHeaderLength streamId offset ≤ space then
        some (StreamFrame.plainHeader streamId offset)
      else none := by
  have hid : ((framesUint8Encode [] space frameTypeStreamRangeMin).bind fun bytes =>
      framesVarintEncode bytes space streamId) =
        if 1 + encodeVarintLength streamId ≤ space then some (8 :: varintBytes streamId)
        else none := by
    simp only [framesVarintEncode_eq, framesUint8Encode, appendWithin_bind]
    simp [appendWithin, frameTypeStreamRangeMin, Nat.add_comm]
  rw [formatStreamFrameHeader, Option.bind_eq_bind, ← Option.bind_assoc, hid,
    plainHeader, header, StreamFrame.first, streamHeaderLength]
  dsimp only
  have hpos := encodeVarintLength_pos offset
  rcases Nat.eq_zero_or_pos offset with rfl | hoffset
  · simp only [lt_irrefl, if_false, if_true, Nat.add_zero, List.append_nil]
    split_ifs <;> rfl
  · rw [decide_eq_true hoffset]
    simp only [if_pos hoffset, if_neg hoffset.ne']
    by_cases hspace : 1 + encodeVarintLength streamId + encodeVarintLength offset ≤ space
    · rw [if_pos (by omega), if_pos hspace, Option.bind_some, framesVarintEncode, if_pos]
      · rfl
      · simp [setFlag]
        omega
    · rw [if_neg hspace]
      split_ifs with hspace'
      · rw [Option.bind_some, framesVarintEncode, if_neg]
        simp [setFlag]
        omega
      · rfl

theorem encodeVarintLength_le (n : ℕ) : encodeVarintLength n ≤ n + 2 := by
  rw [encodeVarintLength]
  split_ifs <;> omega

section WriteLength

variable (byteSpace streamId offset : ℕ) (data : List UInt8) (fin : Bool)

theorem framesBytes_padding :
    framesBytes (padding 1 ++ [.stream f]) = UInt8.ofNat frameTypePadding :: f.bytes := by
  simp [framesBytes, padding, Frame.bytes, frameTypePadding]

theorem framesBytes_stream : framesBytes [.stream f] = f.bytes := by
  simp [framesBytes, Frame.bytes]

/-- The flag of a FIN is the last that is set. -/
theorem setFlag_fin (hasLength : Bool) (back : List UInt8) :
    (if fin then setFlag ((StreamFrame.mk streamId offset data false hasLength).header ++ back) 0 1
      else (StreamFrame.mk streamId offset data false hasLength).header ++ back) =
      (StreamFrame.mk streamId offset data fin hasLength).header ++ back := by
  cases fin with
  | false => rfl
  | true =>
    rw [if_pos rfl, header, header, setFlag, List.cons_append,
      List.modify_zero_cons, StreamFrame.first, streamFrameType_or_one]
    rfl

theorem setFlag_length (back : List UInt8) :
    setFlag ((StreamFrame.mk streamId offset data fin false).header ++ back) 0 2 =
      (StreamFrame.mk streamId offset data fin true).header ++ back := by
  rw [header, header, setFlag, List.cons_append, List.modify_zero_cons,
    StreamFrame.first, streamFrameType_or_two]
  rfl

/-- `picoquic_encode_length_of_stream_frame` behind a header, which may have the flag of a FIN. -/
theorem writeLength_eq :
    writeLengthOfStreamFrame (StreamFrame.mk streamId offset data fin false).header byteSpace
        data.length =
      if data.length < byteSpace then
        if data.length = byteSpace - 1 then
          (UInt8.ofNat frameTypePadding :: (StreamFrame.mk streamId offset data fin false).header,
            1)
        else
          ((StreamFrame.mk streamId offset data fin true).header ++ varintBytes data.length, 0)
      else ((StreamFrame.mk streamId offset data fin false).header, 0) := by
  rw [writeLengthOfStreamFrame]
  split_ifs with hlt heq
  · rfl
  · have hle := encodeVarintLength_le data.length
    rw [varintEncode, if_pos (by omega), setFlag_length]
  · rfl

end WriteLength

/-- The frame that a header and data make, with the flag of a FIN set at the end. -/
theorem writeLength_fin (byteSpace streamId offset : ℕ) (data : List UInt8) (fin : Bool) :
    (let r := writeLengthOfStreamFrame (plainHeader streamId offset) byteSpace
        data.length
      if fin then setFlag (r.1 ++ data) r.2 1 else r.1 ++ data) =
      framesBytes (encodeLengthOfStreamFrame byteSpace ⟨streamId, offset, data, fin, false⟩) := by
  have hheader : plainHeader streamId offset =
      (StreamFrame.mk streamId offset data false false).header := rfl
  rw [hheader, writeLength_eq, encodeLengthOfStreamFrame]
  by_cases hlt : data.length < byteSpace
  · by_cases heq : data.length = byteSpace - 1
    · -- the flag is set behind the padding
      simp only [if_pos hlt, if_pos heq, framesBytes_padding, bytes]
      have h := setFlag_fin streamId offset data fin false data
      cases fin with
      | false => rfl
      | true => exact congrArg (UInt8.ofNat frameTypePadding :: ·) h
    · simp only [if_pos hlt, if_neg heq, framesBytes_stream, bytes, if_true,
        List.append_assoc]
      exact setFlag_fin streamId offset data fin true (varintBytes data.length ++ data)
  · simp only [if_neg hlt, framesBytes_stream, bytes]
    exact setFlag_fin streamId offset data fin false data

/-- The same where the application sets the flag before the length is known. -/
theorem provideStreamDataBuffer_eq (byteSpace streamId offset : ℕ) (d : Polled) :
    provideStreamDataBuffer (StreamFrame.plainHeader streamId offset) byteSpace d =
      framesBytes
        (encodeLengthOfStreamFrame byteSpace ⟨streamId, offset, d.data, d.isFin, false⟩) := by
  have hheader : (if d.isFin then setFlag (plainHeader streamId offset) 0 1
      else plainHeader streamId offset) =
        (StreamFrame.mk streamId offset d.data d.isFin false).header := by
    have h := setFlag_fin streamId offset d.data d.isFin false []
    rwa [List.append_nil, List.append_nil] at h
  rw [provideStreamDataBuffer, hheader, writeLength_eq, encodeLengthOfStreamFrame]
  split_ifs with hlt heq
  · rw [framesBytes_padding]
    rfl
  · rw [framesBytes_stream, bytes, if_pos rfl, List.append_assoc]
  · rw [framesBytes_stream]
    rfl

/-- Of the first node of the queue the code takes as much as is allowed. -/
theorem takeFromQueue_length (allowed : ℕ) (sendQueue : List (List UInt8)) :
    (takeFromQueue allowed sendQueue).1.length =
      match sendQueue with
      | [] => 0
      | node :: _ => if allowed ≤ node.length then allowed else node.length := by
  cases sendQueue with
  | nil => rfl
  | cons node next =>
    rw [takeFromQueue, List.length_take]
    exact min_def allowed node.length

theorem queuedBytes_eq (c : SendCnx) (streamId : ℕ) (s : SendStream) (byteSpace allowed : ℕ) :
    queuedBytes (StreamFrame.plainHeader streamId s.sentOffset) byteSpace allowed s =
      framesBytes (c.formatQueuedFrame streamId s byteSpace allowed).2 := by
  have h := writeLength_fin byteSpace streamId s.sentOffset (takeFromQueue allowed s.sendQueue).1
    ((takeFromQueue allowed s.sendQueue).2.isEmpty && s.finRequested)
  rw [queuedBytes, formatQueuedFrame, ← takeFromQueue_length]
  revert h
  generalize takeFromQueue allowed s.sendQueue = r
  obtain ⟨data, sendQueue⟩ := r
  intro h
  cases sendQueue with
  | nil => simpa using h
  | cons node next =>
    by_cases h0 : data.length = 0
    · simp [h0, framesBytes]
    · simpa [h0] using h

theorem polledBytes_eq (c : SendCnx) (streamId : ℕ) (s : SendStream) (byteSpace allowed : ℕ)
    (polled : Option Polled) :
    polledBytes (StreamFrame.plainHeader streamId s.sentOffset) byteSpace allowed polled =
      framesBytes (c.formatPolledFrame streamId s byteSpace allowed polled).2 := by
  rw [polledBytes, formatPolledFrame]
  cases polled.filter fun d => decide (d.data.length ≤ allowed) with
  | none => rfl
  | some d =>
    by_cases hnone : d.data.length = 0 ∧ d.isFin = false
    · simp [hnone, framesBytes]
    · simp only [if_neg hnone]
      exact provideStreamDataBuffer_eq byteSpace streamId s.sentOffset d

theorem appendWithin_getD (space : ℕ) (bytes : List UInt8) :
    (appendWithin space [] bytes).getD [] = if bytes.length ≤ space then bytes else [] := by
  rw [appendWithin, List.length_nil, Nat.zero_add, List.nil_append]
  split_ifs <;> rfl

theorem resetStreamBytes_eq (c : SendCnx) (streamId : ℕ) (s : SendStream) (room : ℕ) :
    resetStreamBytes room streamId s.localError s.sentOffset =
      framesBytes (c.formatStreamResetFrame streamId s room).2 := by
  have hframe : [UInt8.ofNat frameTypeResetStream] ++
      (varintBytes streamId ++ (varintBytes s.localError ++ varintBytes s.sentOffset)) =
        (Frame.resetStream streamId s.localError s.sentOffset).bytes := by
    rw [Frame.bytes, ← List.append_assoc (varintBytes streamId)]
    rfl
  rw [resetStreamBytes, formatStreamResetFrame]
  simp only [framesUint8Encode, framesVarintEncode_eq, Option.bind_eq_bind, appendWithin_bind,
    hframe, appendWithin_getD, Frame.bytes_length]
  split_ifs
  · exact (List.append_nil _).symm
  · rfl

theorem stopSendingBytes_eq (c : SendCnx) (streamId : ℕ) (s : SendStream) (room : ℕ) :
    (if s.finReceived || s.resetReceived then []
      else stopSendingBytes room streamId s.localStopError) =
      framesBytes (c.formatStopSendingFrame streamId s room).2 := by
  have hframe : [UInt8.ofNat frameTypeStopSending] ++
      (varintBytes streamId ++ varintBytes s.localStopError) =
        (Frame.stopSending streamId s.localStopError).bytes := rfl
  rw [stopSendingBytes, formatStopSendingFrame]
  simp only [framesUint8Encode, framesVarintEncode_eq, Option.bind_eq_bind, appendWithin_bind,
    hframe, appendWithin_getD, Frame.bytes_length]
  split_ifs
  · rfl
  · exact (List.append_nil _).symm
  · rfl

/-- **The bytes are those of the frames.** -/
theorem SendCnx.writeStreamFrame_bytes (c : SendCnx) (streamId : ℕ) (polled : Option Polled)
    (room : ℕ) :
    (c.writeStreamFrame streamId polled room).2 =
      framesBytes (c.formatStreamFrame streamId polled room).2 := by
  rw [writeStreamFrame, streamFrameBytes, formatStreamFrame]
  cases c.streams streamId with
  | none => rfl
  | some s =>
    dsimp only
    have hheader : (plainHeader streamId s.sentOffset).length =
        streamHeaderLength streamId s.sentOffset := header_length _
    simp only [formatStreamFrameHeader_eq, resetStreamBytes_eq c, stopSendingBytes_eq c]
    by_cases hroom : streamHeaderLength streamId s.sentOffset ≤ room
    · simp only [if_pos hroom, if_neg hroom.not_gt, hheader, polledBytes_eq c, queuedBytes_eq c]
      split_ifs <;> rfl
    · simp only [if_neg hroom, if_pos (not_le.mp hroom)]
      split_ifs <;> rfl

/-! ### The round trip -/

/-- The bytes are PADDING and a STREAM frame of the stream `streamId` at `offset`, within `room`
bytes: whoever gets the frame with the rest of the packet finds these data. -/
structure IsStreamFrameAt (streamId offset room : ℕ) (written data : List UInt8) (fin : Bool) :
    Prop where
  le_room : written.length ≤ room
  reads : ∃ k frame, written = List.replicate k (UInt8.ofNat frameTypePadding) ++ frame ∧
    frameTypeStreamRangeMin ≤ (frame.headD 0).toNat ∧
    (frame.headD 0).toNat ≤ frameTypeStreamRangeMax ∧
    ∀ rest : List UInt8, written.length + rest.length ≤ room → ∃ consumed,
      parseStreamHeader (frame ++ rest) = some ⟨streamId, offset, data.length, fin, consumed⟩ ∧
        ((frame ++ rest).drop consumed).take data.length = data ∧
        consumed + data.length = frame.length

/-- A length field, where there is one, fits between a header and the data. -/
def LengthFits (byteSpace length : ℕ) : Prop :=
  length + 1 < byteSpace → length < 2 ^ 62 ∧ encodeVarintLength length + length ≤ byteSpace

theorem lengthFits_of_le {byteSpace : ℕ} (h : byteSpace ≤ 16385) (length : ℕ) :
    LengthFits byteSpace length := by
  intro hlt
  rw [encodeVarintLength]
  split_ifs
  all_goals omega

/-- A frame that is written whole is read back. -/
theorem StreamFrame.isStreamFrameAt {f : StreamFrame} {room k : ℕ} (hid : f.streamId < 2 ^ 62)
    (hoffset : f.offset < 2 ^ 62) (hlength : f.hasLength = true → f.data.length < 2 ^ 62)
    (hroom : k + f.length ≤ room) (hfull : f.hasLength = false → k + f.length = room) :
    IsStreamFrameAt f.streamId f.offset room
      (List.replicate k (UInt8.ofNat frameTypePadding) ++ f.bytes) f.data f.fin := by
  have hlen : f.bytes.length = f.length := Frame.bytes_length (.stream f)
  have hwritten : (List.replicate k (UInt8.ofNat frameTypePadding) ++ f.bytes).length =
      k + f.length := by
    rw [List.length_append, List.length_replicate, hlen]
  obtain ⟨hmin, hmax⟩ := streamFrameType_range (decide (0 < f.offset)) f.hasLength f.fin
  refine ⟨hwritten.trans_le hroom, k, f.bytes, rfl, hmin, hmax, fun rest hrest => ?_⟩
  refine ⟨f.consumed, ?_, f.take_drop_bytes rest, hlen.symm⟩
  refine parseStreamHeader_bytes f rest hid hoffset hlength fun hflag => ?_
  -- behind a frame that fills the space there is nothing
  rw [hwritten, hfull hflag] at hrest
  exact List.eq_nil_of_length_eq_zero (by omega)

/-- **The length of the data** is found by whoever reads the frame. -/
theorem isStreamFrameAt_encodeLength {room byteSpace streamId offset : ℕ} (data : List UInt8)
    (fin : Bool) (hid : streamId < 2 ^ 62) (hoffset : offset < 2 ^ 62)
    (hroom : streamHeaderLength streamId offset + byteSpace = room)
    (hle : data.length ≤ byteSpace)
    (hfits : LengthFits byteSpace data.length) :
    IsStreamFrameAt streamId offset room
      (framesBytes (encodeLengthOfStreamFrame byteSpace ⟨streamId, offset, data, fin, false⟩))
      data fin := by
  rw [encodeLengthOfStreamFrame]
  dsimp only
  split_ifs with hlt heq
  · rw [framesBytes_padding]
    have hone : 1 + (StreamFrame.mk streamId offset data fin false).length = room := by
      simp only [length, consumed]
      simp
      omega
    exact isStreamFrameAt (k := 1) hid hoffset (fun hflag => Bool.noConfusion hflag)
      hone.le fun _ => hone
  · rw [framesBytes_stream]
    obtain ⟨hlength, hspace⟩ := hfits (by omega)
    have hzero : 0 + (StreamFrame.mk streamId offset data fin true).length ≤ room := by
      simp only [length, consumed]
      simp
      omega
    exact isStreamFrameAt (k := 0) hid hoffset (fun _ => hlength) hzero
      fun hflag => Bool.noConfusion hflag
  · rw [framesBytes_stream]
    have hzero : 0 + (StreamFrame.mk streamId offset data fin false).length = room := by
      simp only [length, consumed]
      simp
      omega
    exact isStreamFrameAt (k := 0) hid hoffset (fun hflag => Bool.noConfusion hflag)
      hzero.le fun _ => hzero

/-- The application is asked for data. -/
def SendStream.isPolled (s : SendStream) : Bool :=
  s.isActive && s.sendQueue.isEmpty && !s.finRequested

/-- The bytes of a stream that were not sent yet. -/
def SendStream.nextBytes (s : SendStream) (polled : Option Polled) : List UInt8 :=
  if s.isPolled then polled.elim [] Polled.data else s.sendQueue.flatten

/-- A frame that leaves `left` in the queue is the last one. -/
def SendStream.nextFin (s : SendStream) (polled : Option Polled) (left : List (List UInt8)) :
    Bool :=
  if s.isPolled then polled.elim false Polled.isFin else left.isEmpty && s.finRequested

/-- `allowed_space`. -/
def SendCnx.allowedSpace (c : SendCnx) (s : SendStream) (byteSpace : ℕ) : ℕ :=
  min byteSpace (min (sub64 s.maxdataRemote s.sentOffset) (sub64 c.maxdataRemote c.dataSent))

/-- The number of bytes that go into the next frame. -/
def SendCnx.nextLength (c : SendCnx) (s : SendStream) (polled : Option Polled) (byteSpace : ℕ) :
    ℕ :=
  if s.isPolled then (polled.elim [] Polled.data).length
  else (takeFromQueue (c.allowedSpace s byteSpace) s.sendQueue).1.length

/-- There is neither a RESET_STREAM nor a STOP_SENDING frame to send. -/
def SendStream.onlyData (s : SendStream) : Bool :=
  !(s.resetRequested && !s.resetSent) && !(s.stopSendingRequested && !s.stopSendingSent)

/-- What a call does. It writes nothing and the stream stays where it is, or it writes a frame
with the next bytes of the stream, which advances by as many. -/
def SendCnx.EmitsNext (c : SendCnx) (streamId room : ℕ) (s : SendStream) (polled : Option Polled)
    (r : SendCnx × List UInt8) : Prop :=
  ∃ (data : List UInt8) (fin : Bool) (s' : SendStream),
    s'.sentOffset = s.sentOffset + data.length ∧ s'.finSent = (s.finSent || fin) ∧
    data <+: s.nextBytes polled ∧ s'.sendQueue.flatten = s.sendQueue.flatten.drop data.length ∧
    (r.1 = c ∧ s' = s ∨
      r.1 = SendCnx.unblock { c with dataSent := c.dataSent + data.length } streamId s' fin) ∧
    (r.2 = [] ∧ data = [] ∧ fin = false ∨
      fin = s.nextFin polled s'.sendQueue ∧
        IsStreamFrameAt streamId s.sentOffset room r.2 data fin)

section EmitsNext

variable {c : SendCnx} {streamId room byteSpace : ℕ} {s : SendStream} {polled : Option Polled}

theorem SendCnx.emitsNext_nothing {r : SendCnx × List UInt8} (hbytes : r.2 = [])
    (hcnx : r.1 = c ∨ r.1 = c.unblock streamId s false) : c.EmitsNext streamId room s polled r :=
  ⟨[], false, s, rfl, (Bool.or_false _).symm, List.nil_prefix, rfl,
    hcnx.imp (fun h => ⟨h, rfl⟩) id, Or.inl ⟨hbytes, rfl, rfl⟩⟩

/-- The application is asked. -/
theorem SendCnx.emitsNext_polled (hid : streamId < 2 ^ 62) (hoffset : s.sentOffset < 2 ^ 62)
    (hroom : streamHeaderLength streamId s.sentOffset + byteSpace = room)
    (hpolled : s.isPolled = true)
    (hfits : LengthFits byteSpace (c.nextLength s polled byteSpace)) :
    c.EmitsNext streamId room s polled
      ((c.formatPolledFrame streamId s byteSpace (c.allowedSpace s byteSpace) polled).1,
        framesBytes
          (c.formatPolledFrame streamId s byteSpace (c.allowedSpace s byteSpace) polled).2) := by
  rw [formatPolledFrame]
  cases hd : polled.filter fun d => decide (d.data.length ≤ c.allowedSpace s byteSpace) with
  | none => exact emitsNext_nothing rfl (Or.inr rfl)
  | some d =>
    obtain ⟨rfl, hle⟩ := Option.filter_eq_some_iff.mp hd
    have hle := of_decide_eq_true hle
    by_cases hnone : d.data.length = 0 ∧ d.isFin = false
    · simp only [if_pos hnone]
      exact emitsNext_nothing rfl (Or.inr rfl)
    simp only [if_neg hnone]
    rw [nextLength, if_pos hpolled] at hfits
    have hframe := isStreamFrameAt_encodeLength d.data d.isFin hid hoffset hroom
      (hle.trans (min_le_left _ _)) hfits
    have hempty : s.sendQueue = [] := by
      simp only [SendStream.isPolled, Bool.and_eq_true, List.isEmpty_iff] at hpolled
      exact hpolled.1.2
    generalize hs' : (if d.isFin then
        { s.advance d.data.length d.isFin with isActive := false, finRequested := true }
      else { s.advance d.data.length d.isFin with isActive := d.isStillActive }) = s'
    have hfields : s'.sentOffset = s.sentOffset + d.data.length ∧
        s'.finSent = (s.finSent || d.isFin) ∧ s'.sendQueue = s.sendQueue := by
      rw [← hs']
      split_ifs <;> exact ⟨rfl, rfl, rfl⟩
    refine ⟨d.data, d.isFin, s', hfields.1, hfields.2.1, ?_, ?_, Or.inr rfl,
      Or.inr ⟨?_, hframe⟩⟩
    · rw [SendStream.nextBytes, if_pos hpolled]
      exact List.prefix_refl d.data
    · rw [hfields.2.2, hempty]
      exact List.drop_nil.symm
    · rw [SendStream.nextFin, if_pos hpolled]
      rfl

/-- Data are queued. -/
theorem SendCnx.emitsNext_queued (hid : streamId < 2 ^ 62) (hoffset : s.sentOffset < 2 ^ 62)
    (hroom : streamHeaderLength streamId s.sentOffset + byteSpace = room)
    (hpolled : s.isPolled = false)
    (hfits : LengthFits byteSpace (c.nextLength s polled byteSpace)) :
    c.EmitsNext streamId room s polled
      ((c.formatQueuedFrame streamId s byteSpace (c.allowedSpace s byteSpace)).1,
        framesBytes
          (c.formatQueuedFrame streamId s byteSpace (c.allowedSpace s byteSpace)).2) := by
  rw [nextLength, hpolled, if_neg Bool.false_ne_true] at hfits
  have happend := takeFromQueue_flatten (c.allowedSpace s byteSpace) s.sendQueue
  have hle := takeFromQueue_length_le (c.allowedSpace s byteSpace) s.sendQueue
  rw [formatQueuedFrame]
  revert hfits happend hle
  generalize takeFromQueue (c.allowedSpace s byteSpace) s.sendQueue = r
  obtain ⟨data, left⟩ := r
  intro hfits happend hle
  have hframe := isStreamFrameAt_encodeLength data (left.isEmpty && s.finRequested) hid hoffset
    hroom (hle.trans (min_le_left _ _)) hfits
  refine ⟨data, left.isEmpty && s.finRequested,
    { s.advance data.length (left.isEmpty && s.finRequested) with sendQueue := left }, rfl, rfl,
    ?_, ?_, Or.inr rfl, ?_⟩
  · rw [SendStream.nextBytes, hpolled, if_neg Bool.false_ne_true]
    exact ⟨left.flatten, happend⟩
  · rw [← happend]
    exact List.drop_left.symm
  by_cases hsilly : left ≠ [] ∧ data.length = 0
  · obtain ⟨hleft, hdata⟩ := hsilly
    have hfin : (left.isEmpty && s.finRequested) = false := by
      rw [List.isEmpty_eq_false_iff.mpr hleft, Bool.false_and]
    simp only [if_pos (And.intro hleft hdata)]
    exact Or.inl ⟨rfl, List.eq_nil_of_length_eq_zero hdata, hfin⟩
  · simp only [if_neg hsilly]
    refine Or.inr ⟨?_, hframe⟩
    rw [SendStream.nextFin, hpolled, if_neg Bool.false_ne_true]

end EmitsNext

/-- **STREAM frames make the round trip**: what a call writes for a stream that has only data to
send is a frame from which a receiver gets the next bytes of the stream. -/
theorem stream_frame_round_trip (c : SendCnx) (streamId room : ℕ) (polled : Option Polled)
    (s : SendStream) (hs : c.streams streamId = some s) (hid : streamId < 2 ^ 62)
    (hoffset : s.sentOffset < 2 ^ 62) (honly : s.onlyData = true)
    (hfits : LengthFits (room - streamHeaderLength streamId s.sentOffset)
      (c.nextLength s polled (room - streamHeaderLength streamId s.sentOffset))) :
    c.EmitsNext streamId room s polled (c.writeStreamFrame streamId polled room) := by
  have hpair : c.writeStreamFrame streamId polled room =
      ((c.formatStreamFrame streamId polled room).1,
        framesBytes (c.formatStreamFrame streamId polled room).2) :=
    Prod.ext rfl (c.writeStreamFrame_bytes streamId polled room)
  obtain ⟨hreset, hstop⟩ := (Bool.and_eq_true _ _).mp honly
  rw [Bool.not_eq_true'] at hreset hstop
  rw [hpair, formatStreamFrame, hs]
  simp only [hreset, hstop, Bool.false_eq_true, if_false]
  by_cases hlimit : isLocalStreamId streamId c.clientMode = true ∧
      c.controlState.maxStreamIdRemote (!isBidirStreamId streamId) < streamId
  · simp only [if_pos hlimit]
    exact emitsNext_nothing rfl (Or.inl rfl)
  by_cases hnothing :
      (!s.isActive && s.sendQueue.isEmpty && (!s.finRequested || s.finSent)) = true
  · simp only [if_neg hlimit, if_pos hnothing]
    exact emitsNext_nothing rfl (Or.inl rfl)
  by_cases hroom : room < streamHeaderLength streamId s.sentOffset
  · simp only [if_neg hlimit, if_neg hnothing, if_pos hroom]
    exact emitsNext_nothing rfl (Or.inr rfl)
  have hspace := Nat.add_sub_of_le (not_lt.mp hroom)
  simp only [if_neg hlimit, if_neg hnothing, if_neg hroom]
  cases hpolled : s.isPolled with
  | true =>
    have h := emitsNext_polled hid hoffset hspace hpolled hfits
    rw [SendStream.isPolled] at hpolled
    rw [allowedSpace] at h
    simpa only [hpolled, if_true] using h
  | false =>
    have h := emitsNext_queued hid hoffset hspace hpolled hfits
    rw [SendStream.isPolled] at hpolled
    rw [allowedSpace] at h
    simpa only [hpolled, Bool.false_eq_true, if_false] using h

/-- A client with five bytes and a FIN on stream 0, from which ten bytes were sent. -/
def sampleSender (resetRequested : Bool) : SendCnx :=
  let c := SendCnx.initial true false 1000 freshControlState
  c.putStream 0
    { c.newStream 0 100 true with
      sendQueue := [[1, 2, 3, 4, 5]]
      sentOffset := 10
      finRequested := true
      resetRequested := resetRequested
      localError := 7 }

/-- With one byte more than the frame takes without a length field, there is padding. -/
theorem stream_frame_round_trip_padded :
    (sampleSender false).streamFrameBytes 0 none 9 = [0, 13, 0, 10, 1, 2, 3, 4, 5] ∧
      ∃ s, (sampleSender false).streams 0 = some s ∧
        (sampleSender false).EmitsNext 0 9 s none
          ((sampleSender false).writeStreamFrame 0 none 9) :=
  ⟨by decide +kernel, _, rfl,
    stream_frame_round_trip (sampleSender false) 0 9 none _ rfl (by norm_num) (by decide)
      (by decide) (lengthFits_of_le (by decide) _)⟩

/-- A RESET_STREAM frame is no STREAM frame. -/
theorem reset_is_no_stream_frame :
    (sampleSender true).streamFrameBytes 0 none 9 = [4, 0, 7, 10] ∧
      ∀ data fin, ¬ IsStreamFrameAt 0 10 9 ((sampleSender true).writeStreamFrame 0 none 9).2 data
        fin := by
  have hbytes : (sampleSender true).streamFrameBytes 0 none 9 = [4, 0, 7, 10] := by decide +kernel
  refine ⟨hbytes, fun data fin h => ?_⟩
  obtain ⟨k, frame, hwritten, hmin, -⟩ := h.reads
  have hwritten : [4, 0, 7, 10] = List.replicate k (UInt8.ofNat frameTypePadding) ++ frame :=
    hbytes.symm.trans hwritten
  cases k with
  | zero =>
    rw [List.replicate_zero, List.nil_append] at hwritten
    rw [← hwritten] at hmin
    exact absurd hmin (by decide)
  | succ k =>
    rw [List.replicate_succ, List.cons_append] at hwritten
    exact absurd (List.cons.inj hwritten).1 (by decide)

end Picoquic
