import Picoquic.Sender.StreamBytes

/-!
# Saved STREAM frames as bytes

A STREAM frame of a lost packet is saved byte by byte. When it is sent again it is read, and written
as it is, or with another header, or in two parts, if there is less space than it needs.

* **`SendCnx.writeStreamFrameForRetransmit`** — the function, byte by byte;
* **`SendCnx.writeStreamFrameForRetransmit_bytes`** — it does what
  `SendCnx.formatStreamFrameForRetransmit` does with frames;
* **`StreamFrame.Covers`** — frames that carry the data of another one, one behind the other;
* **`saved_frame_kept`** — a frame that is still needed is covered by what is written and what stays
  in the queue.

Frames that are not needed any more leave the queue.
-/

namespace Picoquic

open StreamFrame

/-! ### The function -/

/-- The test of `picoquic_format_stream_frame_for_retransmit`: the stream is there, was not reset,
and the data have not all been acknowledged. -/
def SendCnx.needsStreamFrame (c : SendCnx) (streamId offset dataLength : ℕ) : Bool :=
  match c.streams streamId with
  | none => false
  | some s => !s.resetSent && !checkSackList s.sackList offset (u64 (offset + dataLength))

/-- A frame header with a length field, in a buffer of `space` bytes. -/
def formatHeaderWithLength (space streamId offset dataLength : ℕ) : Option (List UInt8) := do
  let bytes ← formatStreamFrameHeader space streamId offset
  framesVarintEncode bytes space dataLength

/-- The branch of `picoquic_format_stream_frame_for_retransmit` for a frame that fits into `room`
bytes. -/
def writeWhole (room : ℕ) (frame : List UInt8) (h : StreamHeader) : List UInt8 :=
  if frame.headD 0 &&& 2 = 0 then
    let insertPad := room - frame.length
    if insertPad ≤ 2 then List.replicate insertPad 0 ++ frame
    else
      match formatHeaderWithLength room h.streamId h.offset h.dataLength with
      | none => []
      | some header =>
        let bytes := setFlag (header ++ (frame.drop h.consumed).take h.dataLength) 0 2
        if h.fin then setFlag bytes 0 1 else bytes
  else frame

/-- The branch of `picoquic_format_stream_frame_for_retransmit` for a frame that does not fit: what
is written, and the frame that is left, unless nothing is written. The length of the first part is
estimated from the space before it is known. -/
def writeParts (room : ℕ) (frame : List UInt8) (h : StreamHeader) :
    Option (List UInt8 × List UInt8) := do
  if room ≤ h.consumed then none
  else
    let header ← formatStreamFrameHeader room h.streamId h.offset
    let afterLength ← framesVarintEncode header room (sub64 room 2)
    if room ≤ afterLength.length then none
    else
      let available := room - afterLength.length
      let remain := sub64 h.dataLength available
      let trialPad ← formatHeaderWithLength 32 h.streamId (u64 (h.offset + available)) remain
      if h.consumed + available < trialPad.length then none
      else
        let header ← framesVarintEncode header room available
        let rest := setFlag trialPad 0 2 ++ (frame.drop (h.consumed + available)).take remain
        some (setFlag header 0 2 ++ (frame.drop h.consumed).take available,
          if h.fin then setFlag rest 0 1 else rest)

/-- `picoquic_format_stream_frame_for_retransmit`, where `frame` is the first frame of the queue:
the bytes that are written into `room` bytes, and the frame that is left in the queue. -/
def SendCnx.writeStreamFrameForRetransmit (c : SendCnx) (room : ℕ) (frame : List UInt8) :
    List UInt8 × Option (List UInt8) :=
  match parseStreamHeader frame with
  | none => ([], none)
  | some h =>
    if !c.needsStreamFrame h.streamId h.offset h.dataLength then ([], none)
    else if frame.length ≤ room then (writeWhole room frame h, none)
    else
      match writeParts room frame h with
      | none => ([], some frame)
      | some (bytes, rest) => (bytes, some rest)

/-! ### The frames that are written -/

namespace StreamFrame

variable {f : StreamFrame} {room : ℕ}

theorem bytes_length (f : StreamFrame) : f.bytes.length = f.length := Frame.bytes_length (.stream f)

theorem headD_and_two (f : StreamFrame) : f.bytes.headD 0 &&& 2 = if f.hasLength then 2 else 0 :=
  streamFrameType_and_two _ _ _

/-- A header with a length field. -/
theorem formatHeaderWithLength_eq (space streamId offset dataLength : ℕ) :
    formatHeaderWithLength space streamId offset dataLength =
      if streamHeaderLength streamId offset + encodeVarintLength dataLength ≤ space then
        some (plainHeader streamId offset ++ varintBytes dataLength)
      else none := by
  have hlen : (plainHeader streamId offset).length = streamHeaderLength streamId offset :=
    header_length _
  rw [formatHeaderWithLength, formatStreamFrameHeader_eq]
  by_cases hheader : streamHeaderLength streamId offset ≤ space
  · rw [if_pos hheader, Option.bind_eq_bind, Option.bind_some, framesVarintEncode, hlen]
  · rw [if_neg hheader, if_neg (by omega)]
    rfl

/-- The flags are set after the header was written. -/
theorem setFlag_plainHeader (streamId offset : ℕ) (data back : List UInt8) (fin : Bool) :
    (if fin then setFlag (setFlag (plainHeader streamId offset ++ back) 0 2) 0 1
      else setFlag (plainHeader streamId offset ++ back) 0 2) =
      (StreamFrame.mk streamId offset data fin true).header ++ back := by
  have hflag : setFlag (plainHeader streamId offset ++ back) 0 2 =
      (mk streamId offset data false true).header ++ back :=
    setFlag_length streamId offset data false back
  rw [hflag]
  exact setFlag_fin streamId offset data fin true back

theorem drop_bytes (f : StreamFrame) : f.bytes.drop f.consumed = f.data := by
  have hfront : f.bytes =
      (f.header ++ if f.hasLength then varintBytes f.data.length else []) ++ f.data := by
    rw [bytes, List.append_assoc]
  have hlen : (f.header ++ if f.hasLength then varintBytes f.data.length else []).length =
      f.consumed := by
    rw [List.length_append, f.header_length, consumed]
    cases f.hasLength <;> simp
  rw [hfront, ← hlen, List.drop_left]

/-- What `picoquic_parse_stream_header` finds in the frame. -/
def parsed (f : StreamFrame) : StreamHeader :=
  ⟨f.streamId, f.offset, f.data.length, f.fin, f.consumed⟩

theorem two_le_header (streamId offset : ℕ) : 2 ≤ streamHeaderLength streamId offset := by
  have := encodeVarintLength_pos streamId
  rw [streamHeaderLength]
  omega

theorem header_le_consumed (f : StreamFrame) :
    streamHeaderLength f.streamId f.offset ≤ f.consumed := Nat.le_add_right _ _

/-- A frame that fits. -/
theorem writeWhole_bytes (f : StreamFrame) (room : ℕ) :
    writeWhole room f.bytes f.parsed = framesBytes (f.resend room) := by
  rw [parsed, writeWhole, resend, headD_and_two, bytes_length]
  cases hflag : f.hasLength with
  | true =>
    rw [if_pos rfl, if_neg (by decide), if_pos rfl, framesBytes_stream]
  | false =>
    have hconsumed : f.consumed = streamHeaderLength f.streamId f.offset := by
      rw [consumed, hflag]
      rfl
    simp only [Bool.false_eq_true, if_false, if_true]
    by_cases hpad : room - f.length ≤ 2
    · rw [if_pos hpad, if_pos hpad, framesBytes, List.flatMap_append, ← framesBytes, ← framesBytes,
        framesBytes_stream]
      congr 1
      rcases Nat.eq_zero_or_pos (room - f.length) with hzero | hpos
      · rw [hzero]
        rfl
      · rw [padding, if_neg hpos.ne']
        simp [framesBytes, Frame.bytes]
    · rw [if_neg hpad, if_neg hpad, formatHeaderWithLength_eq, ← hconsumed]
      by_cases hheader : f.consumed + encodeVarintLength f.data.length ≤ room
      · rw [if_pos hheader, if_pos hheader, framesBytes_stream]
        dsimp only
        rw [drop_bytes, List.take_length, List.append_assoc]
        exact setFlag_plainHeader f.streamId f.offset f.data _ f.fin
      · rw [if_neg hheader, if_neg hheader]
        rfl

theorem available_le (f : StreamFrame) (room : ℕ) : f.available room ≤ room - 2 := by
  have := two_le_header f.streamId f.offset
  rw [available]
  omega

/-- The first part of a frame that is split. -/
theorem front_bytes (f : StreamFrame) {n : ℕ} (hn : n ≤ f.data.length) :
    setFlag (plainHeader f.streamId f.offset ++ varintBytes n) 0 2 ++ f.data.take n =
      (f.front n).bytes := by
  have hflag : setFlag (plainHeader f.streamId f.offset ++ varintBytes n) 0 2 =
      (f.front n).header ++ varintBytes n :=
    setFlag_plainHeader f.streamId f.offset (f.data.take n) (varintBytes n) false
  have hlen : (f.front n).data.length = n := by
    rw [front, List.length_take, Nat.min_eq_left hn]
  rw [hflag, bytes, hlen, List.append_assoc]
  rfl

/-- The second part. -/
theorem back_bytes (f : StreamFrame) (n : ℕ) :
    (if f.fin then
        setFlag (setFlag (plainHeader f.streamId (f.offset + n) ++
          varintBytes (f.data.length - n)) 0 2 ++ f.data.drop n) 0 1
      else
        setFlag (plainHeader f.streamId (f.offset + n) ++
          varintBytes (f.data.length - n)) 0 2 ++ f.data.drop n) = (f.back n).bytes := by
  have hflag : setFlag (plainHeader f.streamId (f.offset + n) ++
      varintBytes (f.data.length - n)) 0 2 =
      (mk f.streamId (f.offset + n) (f.data.drop n) false true).header ++
        varintBytes (f.data.length - n) :=
    setFlag_plainHeader f.streamId (f.offset + n) (f.data.drop n) _ false
  have hlen : (f.back n).data.length = f.data.length - n := by
    rw [back, List.length_drop]
  rw [hflag, bytes, hlen, List.append_assoc]
  exact setFlag_fin f.streamId (f.offset + n) (f.data.drop n) f.fin true _

theorem available_le_length (hroom : ¬ f.length ≤ room) (hconsumed : f.consumed < room) :
    f.available room ≤ f.data.length := by
  by_cases hspace : streamHeaderLength f.streamId f.offset + encodeVarintLength (room - 2) < room
  · exact (available_lt_of_space hroom hconsumed hspace).le
  · have hzero : f.available room = 0 := Nat.sub_eq_zero_of_le (not_lt.mp hspace)
    rw [hzero]
    exact Nat.zero_le _

/-- A frame that does not fit. -/
theorem writeParts_bytes (hend : f.offset + f.data.length < 2 ^ 62) (hroom : ¬ f.length ≤ room) :
    writeParts room f.bytes f.parsed =
      if f.splits room then
        some ((f.front (f.available room)).bytes, (f.back (f.available room)).bytes)
      else none := by
  have htwo := two_le_header f.streamId f.offset
  have hheader := f.header_le_consumed
  rw [parsed, writeParts]
  by_cases hconsumed : f.consumed < room
  swap
  · -- no room for the header
    rw [if_pos (not_lt.mp hconsumed), if_neg]
    simp [splits, hconsumed]
  have hle := available_le_length hroom hconsumed
  have hsub : sub64 room 2 = room - 2 := by
    refine sub64_of_le (by omega) ?_
    have h1 := encodeVarintLength_le_eight f.streamId
    have h2 := encodeVarintLength_le_eight f.offset
    have h3 := encodeVarintLength_le_eight f.data.length
    rw [length, consumed, streamHeaderLength] at hroom
    split_ifs at hroom <;> omega
  have hplain : (plainHeader f.streamId f.offset).length = streamHeaderLength f.streamId f.offset :=
    header_length _
  have hoffset : u64 (f.offset + f.available room) = f.offset + f.available room :=
    u64_of_lt (by omega)
  have hremain : sub64 f.data.length (f.available room) = f.data.length - f.available room :=
    sub64_of_le hle (by omega)
  have hfirst : formatStreamFrameHeader room f.streamId f.offset =
      some (plainHeader f.streamId f.offset) := by
    rw [formatStreamFrameHeader_eq, if_pos (by omega)]
  dsimp only
  rw [if_neg (not_le.mpr hconsumed), hfirst, hsub, Option.bind_eq_bind, Option.bind_some,
    framesVarintEncode, hplain]
  by_cases hspace : streamHeaderLength f.streamId f.offset + encodeVarintLength (room - 2) < room
  swap
  · -- the header with a length takes all the space
    have hsplits : f.splits room = false := by simp [splits, hspace]
    rw [hsplits, if_neg Bool.false_ne_true]
    by_cases hfull : streamHeaderLength f.streamId f.offset + encodeVarintLength (room - 2) ≤ room
    · rw [if_pos hfull, Option.bind_some, if_pos]
      rw [List.length_append, hplain, varintBytes_length]
      omega
    · rw [if_neg hfull]
      rfl
  have hafter : (plainHeader f.streamId f.offset ++ varintBytes (room - 2)).length =
      streamHeaderLength f.streamId f.offset + encodeVarintLength (room - 2) := by
    rw [List.length_append, hplain, varintBytes_length]
  have havailable :
      room - (streamHeaderLength f.streamId f.offset + encodeVarintLength (room - 2)) =
        f.available room := rfl
  rw [if_pos hspace.le, Option.bind_some, hafter, if_neg (not_le.mpr hspace), havailable, hoffset,
    hremain, formatHeaderWithLength_eq]
  have hsplits : f.splits room = decide (
      streamHeaderLength f.streamId (f.offset + f.available room) +
      encodeVarintLength (f.data.length - f.available room) ≤
        min 32 (f.consumed + f.available room)) := by
    simp only [splits, hconsumed, hspace, hremain, decide_true, Bool.true_and]
  have htrial : (plainHeader f.streamId (f.offset + f.available room) ++
      varintBytes (f.data.length - f.available room)).length =
        streamHeaderLength f.streamId (f.offset + f.available room) +
          encodeVarintLength (f.data.length - f.available room) := by
    rw [List.length_append, varintBytes_length]
    exact congrArg (· + _) (header_length _)
  by_cases h32 : streamHeaderLength f.streamId (f.offset + f.available room) +
      encodeVarintLength (f.data.length - f.available room) ≤ 32
  swap
  · -- the trial buffer of the second header is too short
    rw [hsplits, if_neg h32, decide_eq_false (by omega)]
    rfl
  rw [hsplits, if_pos h32, Option.bind_some, htrial]
  by_cases hfits : streamHeaderLength f.streamId (f.offset + f.available room) +
      encodeVarintLength (f.data.length - f.available room) ≤ f.consumed + f.available room
  swap
  · -- the second header does not fit in front of what is left
    rw [if_pos (not_le.mp hfits), decide_eq_false (by omega)]
    rfl
  have hlength : streamHeaderLength f.streamId f.offset + encodeVarintLength (f.available room) ≤
      room := by
    have := encodeVarintLength_mono (f.available_le room)
    omega
  have hdrop : f.bytes.drop (f.consumed + f.available room) = f.data.drop (f.available room) := by
    rw [← List.drop_drop, drop_bytes]
  have htake : (f.data.drop (f.available room)).take (f.data.length - f.available room) =
      f.data.drop (f.available room) := by
    rw [← List.length_drop, List.take_length]
  rw [if_neg (not_lt.mpr hfits), framesVarintEncode, hplain, if_pos hlength, Option.bind_some,
    drop_bytes, hdrop, htake, front_bytes f hle, back_bytes, decide_eq_true (by omega), if_pos rfl]

end StreamFrame

/-- What is left of the first frame of the queue. -/
def Resent.rest? : Resent → Option StreamFrame
  | .all _ => none
  | .rest _ f => some f

/-- What is written. -/
def Resent.written : Resent → List Frame
  | .all written => written
  | .rest written _ => written

/-- The frame is read back. -/
theorem SendCnx.writeStreamFrameForRetransmit_eq (c : SendCnx) (room : ℕ) {f : StreamFrame}
    (hid : f.streamId < 2 ^ 62) (hend : f.offset + f.data.length < 2 ^ 62) :
    c.writeStreamFrameForRetransmit room f.bytes =
      if !c.needsStreamFrame f.streamId f.offset f.data.length then ([], none)
      else if f.length ≤ room then (framesBytes (f.resend room), none)
      else if f.splits room then
        ((f.front (f.available room)).bytes, some (f.back (f.available room)).bytes)
      else ([], some f.bytes) := by
  have hparse : parseStreamHeader f.bytes = some f.parsed := by
    have h := parseStreamHeader_bytes f [] hid (by omega) (fun _ => by omega) fun _ => rfl
    rwa [List.append_nil] at h
  have hwrite : c.writeStreamFrameForRetransmit room f.bytes =
      if !c.needsStreamFrame f.streamId f.offset f.data.length then ([], none)
      else if f.bytes.length ≤ room then (writeWhole room f.bytes f.parsed, none)
      else
        match writeParts room f.bytes f.parsed with
        | none => ([], some f.bytes)
        | some (bytes, rest) => (bytes, some rest) := by
    rw [writeStreamFrameForRetransmit, hparse]
    rfl
  rw [hwrite, f.bytes_length, f.writeWhole_bytes]
  by_cases hroom : f.length ≤ room
  · rw [if_pos hroom, if_pos hroom]
  · rw [if_neg hroom, if_neg hroom, f.writeParts_bytes hend hroom]
    by_cases hsplits : f.splits room = true
    · rw [if_pos hsplits, if_pos hsplits]
    · rw [if_neg hsplits, if_neg hsplits]

/-- **The bytes** are those of the frames. -/
theorem SendCnx.writeStreamFrameForRetransmit_bytes (c : SendCnx) (room : ℕ) {f : StreamFrame}
    (hid : f.streamId < 2 ^ 62) (hend : f.offset + f.data.length < 2 ^ 62) :
    c.writeStreamFrameForRetransmit room f.bytes =
      (framesBytes (c.formatStreamFrameForRetransmit room f).written,
        (c.formatStreamFrameForRetransmit room f).rest?.map StreamFrame.bytes) := by
  rw [c.writeStreamFrameForRetransmit_eq room hid hend, formatStreamFrameForRetransmit,
    needsStreamFrame, u64_of_lt (by omega)]
  cases c.streams f.streamId with
  | none => rfl
  | some s =>
    dsimp only
    split_ifs
    · rfl
    · rfl
    · exact Prod.ext (framesBytes_stream _).symm rfl
    · rfl

/-! ### What is kept -/

/-- Some frames carry the data of `f`, one behind the other, and the last one its FIN. -/
def StreamFrame.Covers : StreamFrame → List StreamFrame → Prop
  | _, [] => False
  | f, [g] => g.streamId = f.streamId ∧ g.offset = f.offset ∧ g.data = f.data ∧ g.fin = f.fin
  | f, g :: g' :: rest =>
    g.streamId = f.streamId ∧ g.offset = f.offset ∧ g.data <+: f.data ∧ g.fin = false ∧
      (f.back g.data.length).Covers (g' :: rest)

/-- A saved frame is kept: what is written, after some padding, and what is left in the queue are
frames that carry its data. A frame that has no length field ends with the space. -/
structure KeepsFrame (f : StreamFrame) (room : ℕ) (r : List UInt8 × Option (List UInt8)) :
    Prop where
  le_room : r.1.length ≤ room
  covered : ∃ (pad : ℕ) (written : List StreamFrame) (rest : Option StreamFrame),
    r.1 = List.replicate pad 0 ++ written.flatMap StreamFrame.bytes ∧
      r.2 = rest.map StreamFrame.bytes ∧ f.Covers (written ++ rest.toList) ∧
      ∀ g ∈ written, g.hasLength = false → r.1.length = room

namespace StreamFrame

variable {f : StreamFrame} {room : ℕ}

/-- A frame that fits is written as it is, or with another header. -/
theorem resend_kept (hroom : f.length ≤ room) (hlen : f.length ≤ maxPacketSize) :
    KeepsFrame f room (framesBytes (f.resend room), none) := by
  rw [resend]
  by_cases hflag : f.hasLength = true
  · rw [if_pos hflag, framesBytes_stream]
    refine ⟨by rw [bytes_length]; exact hroom, 0, [f], none, by simp, rfl, ⟨rfl, rfl, rfl, rfl⟩, ?_⟩
    intro g hg hfalse
    rw [List.mem_singleton.mp hg, hflag] at hfalse
    exact absurd hfalse (by decide)
  · have hfalse : f.hasLength = false := Bool.eq_false_iff.mpr hflag
    have hconsumed : f.length = f.consumed + f.data.length := rfl
    rw [if_neg hflag]
    by_cases hpad : room - f.length ≤ 2
    · have hbytes : framesBytes (padding (room - f.length) ++ [.stream f]) =
          List.replicate (room - f.length) 0 ++ f.bytes := by
        have hwhole := f.writeWhole_bytes room
        rw [writeWhole, resend, headD_and_two, bytes_length] at hwhole
        simpa only [hfalse, hpad, Bool.false_eq_true, if_false, if_true] using hwhole.symm
      have hlength : (List.replicate (room - f.length) 0 ++ f.bytes).length = room := by
        rw [List.length_append, List.length_replicate, bytes_length]
        omega
      rw [if_pos hpad, hbytes]
      refine ⟨hlength.le, room - f.length, [f], none, by simp, rfl, ⟨rfl, rfl, rfl, rfl⟩, ?_⟩
      exact fun _ _ _ => hlength
    · -- a packet is short, so that two bytes hold the length
      have hvarint : encodeVarintLength f.data.length ≤ 2 := by
        rw [maxPacketSize] at hlen
        rw [encodeVarintLength]
        split_ifs <;> omega
      have hlength : ({ f with hasLength := true } : StreamFrame).length =
          f.length + encodeVarintLength f.data.length := by
        rw [hconsumed, length, consumed, consumed, hfalse]
        simp only [if_true, Bool.false_eq_true, if_false]
        omega
      rw [if_neg hpad, if_pos (by omega), framesBytes_stream]
      refine ⟨by rw [bytes_length, hlength]; omega, 0, [{ f with hasLength := true }], none,
        by simp, rfl, ⟨rfl, rfl, rfl, rfl⟩, ?_⟩
      intro g hg hnone
      rw [List.mem_singleton.mp hg] at hnone
      exact (Bool.false_ne_true hnone.symm).elim

/-- A frame that is split. -/
theorem split_kept {n : ℕ} (hn : n ≤ f.data.length) (hroom : (f.front n).length ≤ room) :
    KeepsFrame f room ((f.front n).bytes, some (f.back n).bytes) := by
  have hlen : (f.front n).data.length = n := by
    rw [front, List.length_take, Nat.min_eq_left hn]
  refine ⟨by rw [bytes_length]; exact hroom, 0, [f.front n], some (f.back n), by simp, rfl, ?_, ?_⟩
  · refine ⟨rfl, rfl, List.take_prefix _ _, rfl, ?_⟩
    rw [hlen]
    exact ⟨rfl, rfl, rfl, rfl⟩
  · intro g hg hnone
    rw [List.mem_singleton.mp hg] at hnone
    exact (Bool.false_ne_true hnone.symm).elim

/-- The first part is not longer than the space. -/
theorem front_length_le (hroom : ¬ f.length ≤ room) (hsplits : f.splits room = true) :
    (f.front (f.available room)).length ≤ room := by
  have hlt := available_lt hroom hsplits
  have hmono := encodeVarintLength_mono (f.available_le room)
  have hlen : (f.front (f.available room)).data.length = f.available room := by
    rw [front, List.length_take, Nat.min_eq_left hlt.le]
  have hlength : (f.front (f.available room)).length = streamHeaderLength f.streamId f.offset +
      encodeVarintLength (f.available room) + f.available room := by
    rw [length, consumed, hlen]
    rfl
  have hspace : f.available room + (streamHeaderLength f.streamId f.offset +
      encodeVarintLength (room - 2)) = room := by
    simp only [splits, Bool.and_eq_true, decide_eq_true_eq] at hsplits
    exact Nat.sub_add_cancel hsplits.1.2.le
  omega

theorem stay_kept (f : StreamFrame) (room : ℕ) : KeepsFrame f room ([], some f.bytes) :=
  ⟨Nat.zero_le _, 0, [], some f, rfl, rfl, ⟨rfl, rfl, rfl, rfl⟩, by simp⟩

end StreamFrame

/-- **Saved frames.** For every frame of a packet, every space and every connection: a frame that is
needed is kept, another one leaves the queue, and no length is less than zero. -/
theorem saved_frame_kept (c : SendCnx) (room : ℕ) {f : StreamFrame} (hid : f.streamId < 2 ^ 62)
    (hend : f.offset + f.data.length < 2 ^ 62) (hlen : f.length ≤ maxPacketSize) :
    (c.needsStreamFrame f.streamId f.offset f.data.length = true →
        KeepsFrame f room (c.writeStreamFrameForRetransmit room f.bytes)) ∧
      (c.needsStreamFrame f.streamId f.offset f.data.length = false →
        c.writeStreamFrameForRetransmit room f.bytes = ([], none)) ∧
      (room < f.length → f.consumed < room → 2 ≤ room ∧ f.available room ≤ f.data.length) := by
  rw [c.writeStreamFrameForRetransmit_eq room hid hend]
  refine ⟨fun hneeded => ?_, fun hneeded => ?_, fun hroom hconsumed => ⟨?_, ?_⟩⟩
  · rw [hneeded, Bool.not_true, if_neg Bool.false_ne_true]
    by_cases hroom : f.length ≤ room
    · rw [if_pos hroom]
      exact resend_kept hroom hlen
    · rw [if_neg hroom]
      by_cases hsplits : f.splits room = true
      · rw [if_pos hsplits]
        exact split_kept (available_lt hroom hsplits).le
          (front_length_le hroom hsplits)
      · rw [if_neg hsplits]
        exact stay_kept f room
  · rw [hneeded]
    rfl
  · exact (f.header_le_consumed.trans hconsumed.le).trans' (two_le_header _ _)
  · exact available_le_length (not_le.mpr hroom) hconsumed

/-- A frame of five bytes with a FIN, which is cut in two. -/
def savedFrame (streamId : ℕ) : StreamFrame := ⟨streamId, 5, [1, 2, 3, 4, 5], true, true⟩

/-- It is kept. -/
theorem saved_frame_kept_split :
    KeepsFrame (savedFrame 0) 7
      ((sampleSender false).writeStreamFrameForRetransmit 7 (savedFrame 0).bytes) :=
  (saved_frame_kept (sampleSender false) 7 (f := savedFrame 0) (by decide) (by decide)
    (by decide)).1 (by decide)

/-- A frame of a stream that is not there leaves the queue, and nothing is written. -/
theorem unneeded_frame_dropped :
    (sampleSender false).writeStreamFrameForRetransmit 20 (savedFrame 4).bytes = ([], none) ∧
      ¬ KeepsFrame (savedFrame 4) 20
        ((sampleSender false).writeStreamFrameForRetransmit 20 (savedFrame 4).bytes) := by
  have hdropped :
      (sampleSender false).writeStreamFrameForRetransmit 20 (savedFrame 4).bytes = ([], none) := by
    decide +kernel
  refine ⟨hdropped, fun h => ?_⟩
  rw [hdropped] at h
  obtain ⟨pad, written, rest, hbytes, hrest, hcovers, -⟩ := h.covered
  have hwritten : written.flatMap bytes = [] := (List.append_eq_nil_iff.mp hbytes.symm).2
  have hnone : rest = none := Option.map_eq_none_iff.mp hrest.symm
  cases written with
  | nil =>
    rw [hnone] at hcovers
    exact hcovers
  | cons g written =>
    rw [List.flatMap_cons] at hwritten
    exact List.cons_ne_nil _ _ (List.append_eq_nil_iff.mp hwritten).1

end Picoquic
