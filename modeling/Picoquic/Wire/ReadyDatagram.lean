import Picoquic.Wire.FieldCodecs

/-!
# Datagrams of the application

When there is room for a datagram, the application is asked for one and told how long it may be. It
requests a buffer and fills it in. The type of the frame has been written before that, and is
written again behind some padding if there is no room for the length field.

* **`provideDatagramBufferAt`**, **`formatReadyDatagramFrameAt`** — the two functions, on the bytes
  of a packet;
* **`exists_provideDatagramBufferAt`** — a buffer that is granted, and the header before it;
* **`ready_datagram_round_trip`** — the bytes of the application are read back.

The buffer is the packet up to `bytes_max`, so that nothing is written beyond that position.
-/

namespace Picoquic

/-! ### The packet and the application -/

/-- `picoquic_datagram_buffer_argument_t`. The end of the packet is that of its bytes. -/
structure DatagramBufferArgument where
  bytes0 : ℕ
  bytes : ℕ
  afterData : ℕ
  allowedSpace : ℕ

/-- `picoquic_provide_datagram_buffer`: the packet, the argument, and the buffer that is granted.
`none` if something is written outside of the packet or through `NULL`. -/
def provideDatagramBufferAt (buf : List UInt8) (dataCtx : DatagramBufferArgument) (length : ℕ) :
    Option (List UInt8 × DatagramBufferArgument × Option ℕ) :=
  if length ≤ dataCtx.allowedSpace then do
    let (buf, afterLength) ← framesVarintEncodeAt buf dataCtx.bytes length
    match afterLength.filter fun afterLength => afterLength + length ≤ buf.length with
    | some buffer => return (buf, { dataCtx with afterData := buffer + length }, some buffer)
    | none =>
      -- no room for the length: the data end with the packet, behind padding
      let (buf, bytes) ← framesVarintEncodeAt buf dataCtx.bytes0 frameTypeDatagram
      let bytes ← bytes
      let tail := bytes + length
      if tail < buf.length then
        let delta := buf.length - tail
        let buf ← writeCells buf dataCtx.bytes0
          (List.replicate delta (UInt8.ofNat frameTypePadding))
        let (buf, bytes) ← framesVarintEncodeAt buf (dataCtx.bytes0 + delta) frameTypeDatagram
        let bytes ← bytes
        return (buf, { dataCtx with afterData := bytes + length }, some bytes)
      else return (buf, { dataCtx with afterData := bytes + length }, some bytes)
  else return (buf, dataCtx, none)

/-- The call of the application: the packet, the argument, the buffer it was granted, and whether it
returns an error. -/
def DatagramAnswer.prepare (buf : List UInt8) (dataCtx : DatagramBufferArgument) :
    DatagramAnswer → Option (List UInt8 × DatagramBufferArgument × Option ℕ × Bool)
  | .nothing => some (buf, dataCtx, none, false)
  | .fail => some (buf, dataCtx, none, true)
  | .provide data => do
    let (buf, dataCtx, buffer) ← provideDatagramBufferAt buf dataCtx data.length
    match buffer with
    | none => return (buf, dataCtx, none, false)
    | some position => return (← writeCells buf position data, dataCtx, buffer, false)

/-- What is left by `picoquic_format_ready_datagram_frame`: the packet, the position that is
returned, the buffer that the application was granted, and the flags. -/
structure ReadyDatagram where
  buf : List UInt8
  bytes : ℕ
  buffer : Option ℕ
  moreData : Bool
  isError : Bool

/-- `picoquic_format_ready_datagram_frame`, with the `max_datagram_frame_size` of the peer. -/
def formatReadyDatagramFrameAt (buf : List UInt8) (bytes0 maxDatagramFrameSize : ℕ)
    (moreData : Bool) (answer : DatagramAnswer) : Option ReadyDatagram := do
  let (buf, bytes) ← framesVarintEncodeAt buf bytes0 frameTypeDatagramL
  match bytes.filter fun bytes => bytes + 16 ≤ buf.length with
  -- the type that was written stays behind the position
  | none => return ⟨buf, bytes0, none, true, false⟩
  | some bytes =>
    let allowedSpace := buf.length - bytes
    let allowedSpace :=
      if maxDatagramFrameSize < allowedSpace then maxDatagramFrameSize else allowedSpace
    let (buf, dataCtx, buffer, isError) ← answer.prepare buf ⟨bytes0, bytes, bytes0, allowedSpace⟩
    return ⟨buf, if isError then bytes0 else dataCtx.afterData, buffer, moreData, isError⟩

/-! ### Writing one field after the other -/

variable {data : List UInt8}

section Fields

variable {buf pre : List UInt8}

/-- An integer behind the bytes that a packet begins with. -/
theorem exists_framesVarintEncodeAt (hpre : pre <+: buf) {n : ℕ}
    (hlen : pre.length + encodeVarintLength n ≤ buf.length) :
    ∃ buf', framesVarintEncodeAt buf pre.length n =
        some (buf', some (pre.length + encodeVarintLength n)) ∧
      buf'.length = buf.length ∧ pre ++ varintBytes n <+: buf' := by
  have hsize := varintBytes_length n
  rw [← hsize] at hlen ⊢
  obtain ⟨buf', hwrite, hsame, hpre'⟩ := exists_writeCells hpre hlen
  refine ⟨buf', ?_, hsame, hpre'⟩
  rw [framesVarintEncodeAt_eq, ← hsize, putField, if_pos hlen, hwrite, Option.map_some]

/-- The header of a datagram of `length` bytes in the `space` that is left. -/
def datagramHeader (space length : ℕ) : List UInt8 :=
  if 1 + encodeVarintLength length + length ≤ space then
    UInt8.ofNat frameTypeDatagramL :: varintBytes length
  else
    List.replicate (space - (1 + length)) (UInt8.ofNat frameTypePadding) ++
      [UInt8.ofNat frameTypeDatagram]

theorem varintBytes_frameTypeDatagramL :
    varintBytes frameTypeDatagramL = [UInt8.ofNat frameTypeDatagramL] := rfl

theorem datagramHeader_length {space length : ℕ} (h : length + 1 ≤ space) :
    (datagramHeader space length).length + length ≤ space := by
  rw [datagramHeader]
  split_ifs with hfit
  · rw [List.length_cons, varintBytes_length]
    omega
  · rw [List.length_append, List.length_replicate, List.length_singleton]
    omega

theorem datagramHeader_pos (space length : ℕ) : 0 < (datagramHeader space length).length := by
  rw [datagramHeader]
  split_ifs
  · exact Nat.succ_pos _
  · rw [List.length_append, List.length_singleton]
    exact Nat.succ_pos _

/-- **A buffer is granted.** It is behind the header of the frame, and the position behind the data
is noted. -/
theorem exists_provideDatagramBufferAt
    (hpre : pre ++ [UInt8.ofNat frameTypeDatagramL] <+: buf) (hroom : pre.length + 17 ≤ buf.length)
    {allowedSpace length : ℕ} (hlength : length ≤ allowedSpace) :
    ∃ buf' dataCtx, provideDatagramBufferAt buf
        ⟨pre.length, pre.length + 1, pre.length, allowedSpace⟩ length =
          some (buf', dataCtx, some
            (pre.length + (datagramHeader (buf.length - pre.length) length).length)) ∧
      dataCtx.afterData =
        pre.length + (datagramHeader (buf.length - pre.length) length).length + length ∧
      buf'.length = buf.length ∧
      pre ++ datagramHeader (buf.length - pre.length) length <+: buf' := by
  have hle := encodeVarintLength_le_eight length
  have hpos : (pre ++ [UInt8.ofNat frameTypeDatagramL]).length = pre.length + 1 :=
    List.length_append
  obtain ⟨buf₁, hencode, hsame, hpre₁⟩ :=
    exists_framesVarintEncodeAt hpre (n := length) (by omega)
  rw [hpos] at hencode
  rw [provideDatagramBufferAt, if_pos hlength, datagramHeader]
  dsimp only
  rw [hencode, Option.bind_eq_bind, Option.bind_some]
  dsimp only
  by_cases hfit : 1 + encodeVarintLength length + length ≤ buf.length - pre.length
  · -- there is room for the length field
    have hfilter : (some (pre.length + 1 + encodeVarintLength length)).filter
        (fun afterLength => decide (afterLength + length ≤ buf₁.length)) =
          some (pre.length + 1 + encodeVarintLength length) :=
      Option.filter_some_pos (decide_eq_true (by omega))
    have hheader : pre.length + (UInt8.ofNat frameTypeDatagramL :: varintBytes length).length =
        pre.length + 1 + encodeVarintLength length := by
      rw [List.length_cons, varintBytes_length]
      omega
    rw [hfilter, if_pos hfit, hheader]
    refine ⟨_, _, rfl, rfl, hsame, ?_⟩
    rw [List.append_assoc, List.singleton_append] at hpre₁
    exact hpre₁
  · -- the type goes behind padding, so that the data ends with the packet
    have hfilter : (some (pre.length + 1 + encodeVarintLength length)).filter
        (fun afterLength => decide (afterLength + length ≤ buf₁.length)) = none :=
      Option.filter_some_neg (decide_eq_false (by omega))
    have hpre₀ : pre <+: buf₁ :=
      ((List.prefix_append _ _).trans (List.prefix_append _ _)).trans hpre₁
    obtain ⟨buf₂, htype, hsame₂, hpre₂⟩ :=
      exists_framesVarintEncodeAt hpre₀ (n := frameTypeDatagram)
        (show pre.length + 1 ≤ buf₁.length by omega)
    rw [show encodeVarintLength frameTypeDatagram = 1 from rfl] at htype
    rw [hfilter, if_neg hfit]
    dsimp only
    rw [htype, Option.bind_eq_bind, Option.bind_some, Option.bind_some, List.length_append,
      List.length_replicate, List.length_singleton]
    by_cases htail : pre.length + 1 + length < buf₂.length
    · have hdelta : buf₂.length - (pre.length + 1 + length) =
          buf.length - pre.length - (1 + length) := by omega
      obtain ⟨buf₃, hpad, hsame₃, hpre₃⟩ := exists_writeCells
        (b := List.replicate (buf.length - pre.length - (1 + length))
          (UInt8.ofNat frameTypePadding))
        ((List.prefix_append _ _).trans hpre₂)
        (by rw [List.length_replicate]; omega)
      obtain ⟨buf₄, htype', hsame₄, hpre₄⟩ :=
        exists_framesVarintEncodeAt hpre₃ (n := frameTypeDatagram) (by
          rw [List.length_append, List.length_replicate,
            show encodeVarintLength frameTypeDatagram = 1 from rfl]
          omega)
      rw [List.length_append, List.length_replicate,
        show encodeVarintLength frameTypeDatagram = 1 from rfl] at htype'
      rw [if_pos htail, hdelta, hpad, Option.bind_eq_bind, Option.bind_some, htype',
        Option.bind_some, Option.bind_some]
      refine ⟨_, _, rfl, ?_, hsame₄.trans (hsame₃.trans (hsame₂.trans hsame)), ?_⟩
      · exact congrArg (· + length) (Nat.add_assoc _ _ _)
      · rw [← List.append_assoc]
        exact hpre₄
    · have hdelta : buf.length - pre.length - (1 + length) = 0 := by omega
      rw [if_neg htail, hdelta, List.replicate_zero, List.nil_append, Nat.zero_add]
      exact ⟨_, _, rfl, rfl, hsame₂.trans hsame, hpre₂⟩

/-- **The application fills it in.** The packet goes on with the header and the data. -/
theorem exists_prepare_provide (hpre : pre ++ [UInt8.ofNat frameTypeDatagramL] <+: buf)
    (hroom : pre.length + 17 ≤ buf.length) {allowedSpace : ℕ}
    (hallowed : allowedSpace ≤ buf.length - (pre.length + 1)) (hdata : data.length ≤ allowedSpace) :
    ∃ buf' dataCtx, (DatagramAnswer.provide data).prepare buf
        ⟨pre.length, pre.length + 1, pre.length, allowedSpace⟩ =
          some (buf', dataCtx, some
            (pre.length + (datagramHeader (buf.length - pre.length) data.length).length), false) ∧
      dataCtx.afterData =
        pre.length + (datagramHeader (buf.length - pre.length) data.length).length + data.length ∧
      buf'.length = buf.length ∧
      pre ++ (datagramHeader (buf.length - pre.length) data.length ++ data) <+: buf' := by
  obtain ⟨buf₁, dataCtx, hprovide, hafter, hsame, hpre₁⟩ :=
    exists_provideDatagramBufferAt hpre hroom hdata
  have hfits := datagramHeader_length
    (show data.length + 1 ≤ buf.length - pre.length by omega)
  obtain ⟨buf₂, hwrite, hsame₂, hpre₂⟩ := exists_writeCells (b := data) hpre₁ (by
    rw [List.length_append]
    omega)
  rw [List.length_append] at hwrite
  rw [DatagramAnswer.prepare, hprovide, Option.bind_eq_bind, Option.bind_some]
  dsimp only
  rw [hwrite]
  refine ⟨buf₂, dataCtx, rfl, hafter, hsame₂.trans hsame, ?_⟩
  rw [← List.append_assoc]
  exact hpre₂

end Fields

/-! ### What is read back -/

/-- The packet as a list of the bytes that are written: the header and the data. -/
theorem provideDatagramBuffer_eq {space allowedSpace : ℕ} (h : data.length ≤ allowedSpace) :
    provideDatagramBuffer space allowedSpace data = datagramHeader space data.length ++ data := by
  have hframe : (framesVarintEncode [UInt8.ofNat frameTypeDatagramL] space data.length).bind
      (fun out => appendWithin space out data) =
      appendWithin space [UInt8.ofNat frameTypeDatagramL] (varintBytes data.length ++ data) := by
    rw [framesVarintEncode_eq, appendWithin_bind]
  rw [provideDatagramBuffer, if_pos h, hframe, appendWithin, datagramHeader, List.length_singleton,
    List.length_append, varintBytes_length, ← Nat.add_assoc]
  split_ifs
  · rfl
  · exact List.append_cons _ _ _

/-- Padding and a DATAGRAM frame, from which a receiver gets `data`, whatever follows in the `space`
of the packet. -/
def ReadsDatagram (space maxDatagramFrameSize : ℕ) (data written : List UInt8) : Prop :=
  ∃ k frameId body,
    written = List.replicate k (UInt8.ofNat frameTypePadding) ++ frameId :: body ∧
    (frameId = UInt8.ofNat frameTypeDatagram ∨ frameId = UInt8.ofNat frameTypeDatagramL) ∧
    ∀ {φ σ : Type} (calls : FrameCalls φ σ) (c : DecodeCnx φ σ) (rest : List UInt8),
      maxDatagramFrameSize ≤ c.localMaxDatagramFrameSize → written.length + rest.length ≤ space →
      c.decodeDatagramFrame calls frameId (body ++ rest) =
        (calls.datagram c data).map fun c => (c, rest)

theorem readsDatagram_header {space maxDatagramFrameSize : ℕ} (hspace : space < 2 ^ 62)
    (hmax : data.length ≤ maxDatagramFrameSize) (hdata : data.length + 1 ≤ space) :
    ReadsDatagram space maxDatagramFrameSize data (datagramHeader space data.length ++ data) := by
  by_cases hfit : 1 + encodeVarintLength data.length + data.length ≤ space
  · refine ⟨0, UInt8.ofNat frameTypeDatagramL, varintBytes data.length ++ data, ?_, .inr rfl,
      fun calls c rest hlocal _ => ?_⟩
    · rw [datagramHeader, if_pos hfit]
      rfl
    · have hread : framesLengthDataDecode (varintBytes data.length ++ data ++ rest) =
          some (data, rest) := by
        rw [framesLengthDataDecode, List.append_assoc, framesVarintDecode_varintBytes,
          Nat.mod_eq_of_lt (by omega), Option.bind_eq_bind, Option.bind_some]
        dsimp only
        rw [framesFixedDecode, framesFixedSkip, if_pos (by rw [List.length_append]; omega),
          Option.map_some, List.take_left, List.drop_left]
      rw [DecodeCnx.decodeDatagramFrame, if_neg (by decide), hread]
      exact congrArg (Except.map _) (if_neg (by omega))
  · -- the data ends with the packet, and so nothing follows
    refine ⟨space - (1 + data.length), UInt8.ofNat frameTypeDatagram, data, ?_, .inl rfl,
      fun calls c rest hlocal hrest => ?_⟩
    · rw [datagramHeader, if_neg hfit, List.append_assoc, List.singleton_append]
    · rw [datagramHeader, if_neg hfit] at hrest
      simp only [List.length_append, List.length_replicate, List.length_singleton] at hrest
      have hnil : rest = [] := List.eq_nil_of_length_eq_zero (by omega)
      rw [hnil, List.append_nil, DecodeCnx.decodeDatagramFrame, if_pos (by decide)]
      exact congrArg (Except.map _) (if_neg (by omega))

/-- What is left when the application is granted a buffer for `data`: the buffer is inside the
packet, the position is at the end of the data, what was written up to there is the padded frame,
and a receiver reads it back. -/
structure DatagramEmitted (buf : List UInt8) (bytes0 maxDatagramFrameSize : ℕ) (data : List UInt8)
    (r : ReadyDatagram) : Prop where
  buffer : ∃ q, r.buffer = some q ∧ bytes0 < q ∧ q + data.length = r.bytes
  inside : r.bytes ≤ buf.length
  written : (r.buf.take r.bytes).drop bytes0 = provideDatagramBuffer (buf.length - bytes0)
    (min (buf.length - (bytes0 + 1)) maxDatagramFrameSize) data
  reads : ReadsDatagram (buf.length - bytes0) maxDatagramFrameSize data
    ((r.buf.take r.bytes).drop bytes0)

/-- **Emission of a datagram.** With at least 17 bytes left in the packet, the application is
granted a buffer for any length up to what it was told, and the frame that is made of it is read
back. Otherwise nothing is added to the packet. -/
theorem ready_datagram_round_trip {buf : List UInt8} (hbuf : buf.length < 2 ^ 62) {bytes0 : ℕ}
    (hbytes0 : bytes0 ≤ buf.length) (maxDatagramFrameSize : ℕ) (moreData : Bool)
    (data : List UInt8) :
    ∃ r, formatReadyDatagramFrameAt buf bytes0 maxDatagramFrameSize moreData (.provide data) =
        some r ∧ r.buf.length = buf.length ∧ r.buf.take bytes0 = buf.take bytes0 ∧
      if bytes0 + 17 ≤ buf.length ∧
          data.length ≤ min (buf.length - (bytes0 + 1)) maxDatagramFrameSize then
        DatagramEmitted buf bytes0 maxDatagramFrameSize data r
      else r.buffer = none ∧ r.bytes = bytes0 := by
  have hlen : (buf.take bytes0).length = bytes0 := by rw [List.length_take, Nat.min_eq_left hbytes0]
  have hpre : buf.take bytes0 <+: buf := List.take_prefix bytes0 buf
  have htake {buf' : List UInt8} (h : buf.take bytes0 <+: buf') :
      buf'.take bytes0 = buf.take bytes0 := by
    obtain ⟨rest, rfl⟩ := h
    exact List.take_left' hlen
  rw [formatReadyDatagramFrameAt]
  by_cases hone : bytes0 + 1 ≤ buf.length
  · obtain ⟨buf₁, htype, hsame₁, hpre₁⟩ :=
      exists_framesVarintEncodeAt hpre (n := frameTypeDatagramL) (by rw [hlen]; exact hone)
    rw [hlen, show encodeVarintLength frameTypeDatagramL = 1 from rfl] at htype
    rw [varintBytes_frameTypeDatagramL] at hpre₁
    rw [htype, Option.bind_eq_bind, Option.bind_some]
    dsimp only
    by_cases hroom : bytes0 + 17 ≤ buf.length
    · have hfilter : (some (bytes0 + 1)).filter
          (fun bytes => decide (bytes + 16 ≤ buf₁.length)) = some (bytes0 + 1) :=
        Option.filter_some_pos (decide_eq_true (by omega))
      have hallowed : (if maxDatagramFrameSize < buf₁.length - (bytes0 + 1) then
          maxDatagramFrameSize else buf₁.length - (bytes0 + 1)) =
            min (buf.length - (bytes0 + 1)) maxDatagramFrameSize := by
        split_ifs <;> omega
      rw [hfilter]
      dsimp only
      rw [hallowed]
      by_cases hdata : data.length ≤ min (buf.length - (bytes0 + 1)) maxDatagramFrameSize
      · obtain ⟨buf₂, dataCtx, hprepare, hafter, hsame₂, hpre₂⟩ := exists_prepare_provide hpre₁
          (by rw [hlen]; omega) (by rw [hlen, hsame₁]; exact Nat.min_le_left _ _) hdata
        rw [hlen, hsame₁] at hprepare hafter hpre₂
        rw [hprepare, Option.bind_eq_bind, Option.bind_some, hafter]
        refine ⟨_, rfl, hsame₂.trans hsame₁, htake ((List.prefix_append _ _).trans hpre₂), ?_⟩
        rw [if_pos ⟨hroom, hdata⟩]
        have hspace : data.length + 1 ≤ buf.length - bytes0 := by omega
        have hfits := datagramHeader_length hspace
        have hinside : bytes0 + (datagramHeader (buf.length - bytes0) data.length).length +
            data.length ≤ buf.length := by omega
        have hread :
            (buf₂.take (bytes0 + (datagramHeader (buf.length - bytes0) data.length).length +
              data.length)).drop bytes0 =
            datagramHeader (buf.length - bytes0) data.length ++ data := by
          obtain ⟨rest, rfl⟩ := hpre₂
          rw [List.take_left' (by simp only [List.length_append, hlen, Nat.add_assoc]),
            List.drop_left' hlen]
        refine ⟨⟨_, rfl, Nat.lt_add_of_pos_right (datagramHeader_pos _ _), rfl⟩, hinside, ?_, ?_⟩
        · rw [if_neg Bool.false_ne_true, hread, provideDatagramBuffer_eq hdata]
        · rw [if_neg Bool.false_ne_true, hread]
          exact readsDatagram_header (by omega) (by omega) hspace
      · -- more data than allowed
        rw [DatagramAnswer.prepare, provideDatagramBufferAt, if_neg hdata]
        refine ⟨_, rfl, hsame₁, htake ((List.prefix_append _ _).trans hpre₁), ?_⟩
        rw [if_neg fun h => hdata h.2]
        exact ⟨rfl, rfl⟩
    · have hfilter : (some (bytes0 + 1)).filter
          (fun bytes => decide (bytes + 16 ≤ buf₁.length)) = none :=
        Option.filter_some_neg (decide_eq_false (by omega))
      rw [hfilter]
      refine ⟨_, rfl, hsame₁, htake ((List.prefix_append _ _).trans hpre₁), ?_⟩
      rw [if_neg fun h => hroom h.1]
      exact ⟨rfl, rfl⟩
  · -- no room for the type
    have hnull : framesVarintEncodeAt buf bytes0 frameTypeDatagramL = some (buf, none) := by
      rw [framesVarintEncodeAt_eq, putField]
      exact if_neg hone
    rw [hnull]
    refine ⟨_, rfl, rfl, rfl, ?_⟩
    rw [if_neg fun h => hone (by omega)]
    exact ⟨rfl, rfl⟩

theorem ready_datagram_round_trip_sample :
    ∃ r, formatReadyDatagramFrameAt (List.replicate 20 0xAA) 2 1000 false
        (.provide (List.replicate 16 0x55)) = some r ∧
      r.buf.length = (List.replicate 20 (0xAA : UInt8)).length ∧
      r.buf.take 2 = (List.replicate 20 0xAA).take 2 ∧
      if 2 + 17 ≤ (List.replicate 20 (0xAA : UInt8)).length ∧
          (List.replicate 16 (0x55 : UInt8)).length ≤
            min ((List.replicate 20 (0xAA : UInt8)).length - (2 + 1)) 1000 then
        DatagramEmitted (List.replicate 20 0xAA) 2 1000 (List.replicate 16 0x55) r
      else r.buffer = none ∧ r.bytes = 2 :=
  ready_datagram_round_trip (by decide) (by decide) 1000 false (List.replicate 16 0x55)

end Picoquic
