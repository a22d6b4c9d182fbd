import Picoquic.ForMathlib.Readers
import Picoquic.Frames.Decode

/-!
# The fields of a frame, skipped

A decoder reads the fields of its frame one after the other; skipping the frame passes over them.
Both end at the same place.

* **`framesVarintDecode_of_headerField`** — the decoders that keep an index into the frame read
  what the decoders that keep a pointer read;
* **`covers_parseBdpFrame`** and its like — the fields of the frames with a reader of their own;
* **`skipStreamFrame_of_parseStreamHeader`** — the header of a STREAM frame;
* **`skipAckFrameMaybeEcn_of_decodeAckFrame`** — the loop over the blocks of an acknowledgement.
-/

namespace Picoquic

open Readers

/-! ### Integers -/

theorem covers_framesVarintDecode : Covers framesVarintSkip framesVarintDecode :=
  fun _ _ _ h => varintSkip_eq h

variable {bytes : List UInt8} {first : UInt8}

/-- The second decoder returns a length exactly when the first one succeeds. -/
theorem framesVarintDecode_of_varintDecode (h : (varintDecode bytes).1 ≠ 0) :
    framesVarintDecode bytes =
      some ((varintDecode bytes).2, bytes.drop (varintDecode bytes).1) := by
  match bytes with
  | [] => exact absurd rfl h
  | byte :: tail =>
    rw [varintDecode] at h ⊢
    split_ifs at h ⊢ with hlen
    · exact absurd rfl h
    · obtain ⟨k, hk⟩ := Nat.exists_eq_succ_of_ne_zero (decodeVarintLength_pos byte).ne'
      rw [framesVarintDecode, if_pos (by omega), hk]
      rfl

theorem framesVarintDecode_of_headerField {index : ℕ} (h : (headerField bytes index).1 ≠ 0) :
    framesVarintDecode (bytes.drop index) = some ((headerField bytes index).2,
      bytes.drop (index + (headerField bytes index).1)) := by
  rw [headerField] at h ⊢
  split_ifs at h ⊢ with hindex
  · rw [framesVarintDecode_of_varintDecode h, List.drop_drop]
  · exact absurd rfl h

theorem framesVarintSkip_of_length (hne : bytes ≠ [])
    (h : decodeVarintLength (bytes.headD 0) ≤ bytes.length) :
    framesVarintSkip bytes = some (bytes.drop (decodeVarintLength (bytes.headD 0))) := by
  match bytes with
  | [] => exact absurd rfl hne
  | byte :: tail => exact if_pos h

theorem framesVarintSkip_cons (h : first.toNat < 64) (rest : List UInt8) :
    framesVarintSkip (first :: rest) = some rest := by
  have hlength : decodeVarintLength first = 1 := by
    rw [decodeVarintLength, Nat.shiftRight_eq_div_pow, Nat.div_eq_of_lt (by omega)]
    rfl
  rw [framesVarintSkip, framesFixedSkip, hlength, if_pos (by simp)]
  rfl

theorem covers_framesVarintsDecode :
    ∀ n : ℕ, Covers (framesVarintsSkip n) (framesVarintsDecode n)
  | 0 => Covers.nothing _
  | n + 1 => covers_framesVarintDecode.bind fun v =>
      (covers_framesVarintsDecode n).map fun vs => (Fin.cons v vs : Fin (n + 1) → ℕ)

/-! ### Fields -/

theorem covers_framesFixedDecode (size : ℕ) :
    Covers (framesFixedSkip · size) (framesFixedDecode · size) := by
  intro bytes data rest h
  obtain ⟨rest', hskip, heq⟩ := Option.map_eq_some_iff.mp h
  obtain ⟨-, rfl⟩ := Prod.mk.inj heq
  exact hskip

theorem covers_framesUint8Decode : Covers (framesFixedSkip · 1) framesUint8Decode := by
  intro bytes byte rest h
  match bytes with
  | [] => exact absurd h (by simp [framesUint8Decode])
  | b :: bytes =>
    obtain ⟨-, rfl⟩ := Prod.mk.inj (Option.some.inj h)
    exact if_pos (by simp)

theorem covers_framesUint64Decode : Covers (framesFixedSkip · challengeLength)
    framesUint64Decode := by
  intro bytes n rest h
  rw [framesUint64Decode] at h
  split_ifs at h with hlen
  obtain ⟨-, rfl⟩ := Prod.mk.inj (Option.some.inj h)
  exact if_pos (not_lt.mp hlen)

theorem covers_framesLengthDataDecode : Covers framesLengthDataSkip framesLengthDataDecode := by
  intro bytes data rest h
  obtain ⟨⟨length, bytes'⟩, hlength, hdata⟩ := Option.bind_eq_some_iff.mp h
  rw [framesLengthDataSkip, hlength]
  exact covers_framesFixedDecode length hdata

/-- The type of the frame is skipped with the fields. -/
theorem skipNewConnectionIdFrame_cons (hfirst : first.toNat < 64) :
    Covers (fun rest => skipNewConnectionIdFrame (first :: rest)) parseNewConnectionIdFrame := by
  intro bytes cid rest h
  obtain ⟨⟨vs, bytes₁⟩, hvs, h⟩ := Option.bind_eq_some_iff.mp h
  obtain ⟨⟨cidLength, bytes₂⟩, hlength, h⟩ := Option.bind_eq_some_iff.mp h
  obtain ⟨⟨data, bytes₃⟩, hdata, h⟩ := Option.bind_eq_some_iff.mp h
  obtain ⟨-, rfl⟩ := Prod.mk.inj (Option.some.inj h)
  have hskip : framesVarintsSkip 3 (first :: bytes) = some bytes₁ := by
    rw [framesVarintsSkip, framesVarintSkip_cons hfirst]
    exact covers_framesVarintsDecode 2 hvs
  have hbytes : skipNewConnectionIdFrame (first :: bytes) =
      framesFixedSkip bytes₂ (cidLength.toNat + resetSecretSize) := by
    rw [skipNewConnectionIdFrame, hskip]
    exact congrArg (Option.bind · _) hlength
  exact hbytes.trans (covers_framesFixedDecode _ hdata)

theorem covers_parseCryptoHsFrame : Covers skipApplicationCloseFrame parseCryptoHsFrame :=
  covers_framesVarintDecode.bind fun offset =>
    covers_framesLengthDataDecode.map fun data => (offset, data)

theorem covers_parseApplicationCloseFrame :
    Covers skipApplicationCloseFrame parseApplicationCloseFrame :=
  covers_framesVarintDecode.bind fun error => Covers.skipped error

theorem covers_parseConnectionCloseFrame :
    Covers skipConnectionCloseFrame parseConnectionCloseFrame := by
  intro bytes error rest h
  obtain ⟨⟨error', bytes₁⟩, herror, h⟩ := Option.bind_eq_some_iff.mp h
  obtain ⟨bytes₂, htype, h⟩ := Option.bind_eq_some_iff.mp h
  have hskip : framesVarintsSkip 2 bytes = some bytes₂ := by
    rw [framesVarintsSkip, covers_framesVarintDecode herror, Option.bind_some, framesVarintsSkip,
      htype]
    rfl
  rw [skipConnectionCloseFrame, hskip]
  exact Covers.skipped error' h

theorem covers_parseAckFrequencyFrame : Covers skipAckFrequencyFrame parseAckFrequencyFrame :=
  (covers_framesVarintsDecode 3).bind fun vs =>
    covers_framesUint8Decode.map fun ignoreOrder =>
      (⟨vs 0, vs 1, vs 2, ignoreOrder⟩ : AckFrequency)

/-- The decoder takes addresses of two lengths only. -/
theorem covers_parseBdpFrame : Covers skipBdpFrame parseBdpFrame := by
  intro bytes f rest h
  obtain ⟨⟨vs, bytes₁⟩, hvs, h⟩ := Option.bind_eq_some_iff.mp h
  obtain ⟨⟨savedIpLength, bytes₂⟩, hlength, h⟩ := Option.bind_eq_some_iff.mp h
  obtain ⟨-, h⟩ := Option.ite_none_left_eq_some.mp h
  obtain ⟨⟨savedIp, bytes₃⟩, hdata, h⟩ := Option.bind_eq_some_iff.mp h
  obtain ⟨-, rfl⟩ := Prod.mk.inj (Option.some.inj h)
  rw [skipBdpFrame, covers_framesVarintsDecode 3 hvs, Option.bind_some, framesLengthDataSkip,
    hlength]
  exact covers_framesFixedDecode _ hdata

theorem skipPathAbandonFrame_of_parse {bytes rest : List UInt8} {pathIdType pathIdValue reason : ℕ}
    (h : parsePathAbandonFrame bytes = some (pathIdType, pathIdValue, reason, rest)) :
    skipPathAbandonFrame bytes = some rest := by
  obtain ⟨⟨pathIdType', pathIdValue', bytes₁⟩, hid, h⟩ := Option.bind_eq_some_iff.mp h
  obtain ⟨⟨reason', bytes₂⟩, hreason, h⟩ := Option.bind_eq_some_iff.mp h
  obtain ⟨bytes₃, hphrase, h⟩ := Option.bind_eq_some_iff.mp h
  simp only [Option.pure_def, Option.some.injEq, Prod.mk.injEq] at h
  obtain ⟨-, -, -, rfl⟩ := h
  rw [skipPathAbandonFrame, hid]
  show (framesVarintSkip bytes₁).bind framesLengthDataSkip = some bytes₃
  rw [covers_framesVarintDecode hreason]
  exact hphrase

/-! ### STREAM frames -/

/-- A field of a STREAM frame takes eight bytes at most. -/
theorem varintDecodeAt_le (bytes : List UInt8) (byteIndex : ℕ) :
    (varintDecodeAt bytes byteIndex).1 ≤ 8 := by
  rw [varintDecodeAt]
  split_ifs
  · generalize bytes.drop byteIndex = l
    cases l with
    | nil => exact Nat.zero_le 8
    | cons byte rest =>
      rw [varintDecode]
      split_ifs
      · exact Nat.zero_le 8
      · exact decodeVarintLength_le byte
  · exact Nat.zero_le 8

/-- **The header of a STREAM frame.** What is skipped ends behind the data. -/
theorem skipStreamFrame_of_parseStreamHeader {rest : List UInt8} {header : StreamHeader}
    (h : parseStreamHeader (first :: rest) = some header) :
    skipStreamFrame first rest =
      some (((first :: rest).drop header.consumed).drop header.dataLength) := by
  set bytes := first :: rest with hbytes
  rw [parseStreamHeader] at h
  have hhead : bytes.headD 0 = first := rfl
  simp only [hhead] at h
  set id := varintDecodeAt bytes 1 with hid
  set off := if first &&& 4 = 0 then ((0, 0) : ℕ × ℕ) else varintDecodeAt bytes (1 + id.1)
    with hoff
  obtain ⟨hfail, h⟩ := Option.ite_none_left_eq_some.mp h
  obtain ⟨hlen, hid0, hoff0⟩ : 1 + id.1 + off.1 ≤ bytes.length ∧ id.1 ≠ 0 ∧
      (first &&& 4 ≠ 0 → off.1 ≠ 0) := by
    refine ⟨?_, ?_, ?_⟩
    · by_contra hlt
      exact hfail (Or.inl (not_le.mp hlt))
    · intro h0
      exact hfail (Or.inr (Or.inl h0))
    · intro hflag h0
      exact hfail (Or.inr (Or.inr ⟨hflag, h0⟩))
  -- the stream identifier and the offset
  have hstream : framesVarintSkip (bytes.drop 1) = some (bytes.drop (1 + id.1)) :=
    covers_framesVarintDecode (framesVarintDecode_of_headerField hid0)
  have hoffset : (if first &&& 4 = 0 then some (bytes.drop (1 + id.1))
      else framesVarintSkip (bytes.drop (1 + id.1))) = some (bytes.drop (1 + id.1 + off.1)) := by
    by_cases hflag : first &&& 4 = 0
    · rw [if_pos hflag, hoff, if_pos hflag]
      rfl
    · have hoff' : off = varintDecodeAt bytes (1 + id.1) := by rw [hoff, if_neg hflag]
      rw [if_neg hflag, hoff']
      refine covers_framesVarintDecode (framesVarintDecode_of_headerField ?_)
      have := hoff0 hflag
      rwa [hoff'] at this
  have hskip : skipStreamFrame first rest = if first &&& 2 = 0 then some []
      else framesLengthDataSkip (bytes.drop (1 + id.1 + off.1)) := by
    have hrest : framesVarintSkip rest = some (bytes.drop (1 + id.1)) := hstream
    rw [skipStreamFrame, hrest]
    simp only [Option.bind_eq_bind, Option.bind_some]
    by_cases hflag : first &&& 4 = 0
    · rw [if_pos hflag] at hoffset ⊢
      rw [Option.some.inj hoffset]
    · rw [if_neg hflag] at hoffset ⊢
      rw [hoffset, Option.bind_some]
  rw [hskip]
  by_cases hflag : first &&& 2 = 0
  · -- the data go on to the end of the packet
    rw [if_pos hflag] at h ⊢
    obtain rfl := Option.some.inj h
    simp only
    rw [List.drop_drop, List.drop_eq_nil_of_le (by omega)]
  · rw [if_neg hflag] at h ⊢
    set len := varintDecodeAt bytes (1 + id.1 + off.1) with hlenDef
    obtain ⟨hfail', h⟩ := Option.ite_none_left_eq_some.mp h
    obtain ⟨hfit, h⟩ := Option.ite_none_left_eq_some.mp h
    obtain rfl := Option.some.inj h
    have hlen0 : len.1 ≠ 0 := fun h0 => hfail' (Or.inl h0)
    have hdecode : framesVarintDecode (bytes.drop (1 + id.1 + off.1)) =
        some (len.2, bytes.drop (1 + id.1 + off.1 + len.1)) :=
      framesVarintDecode_of_headerField hlen0
    have hindex : 1 + id.1 + off.1 + len.1 ≤ 25 := by
      have h1 : id.1 ≤ 8 := varintDecodeAt_le bytes 1
      have h2 : off.1 ≤ 8 := by
        rw [hoff]
        split_ifs
        · exact Nat.zero_le 8
        · exact varintDecodeAt_le bytes _
      have h3 : len.1 ≤ 8 := varintDecodeAt_le bytes _
      omega
    have hvalue := framesVarintDecode_lt hdecode
    rw [u64_of_lt (by omega)] at hfit
    rw [framesLengthDataSkip, hdecode]
    exact if_pos (by rw [List.length_drop]; omega)

/-! ### Acknowledgements -/

/-- **The blocks.** Gaps and sizes are skipped in pairs, whatever ranges they stand for. -/
theorem skipAckBlocks_of_ackRanges {numBlock largest : ℕ} {bytes rest : List UInt8}
    {ranges : List AckRange} (h : ackRanges numBlock largest bytes = some (ranges, rest)) :
    (framesVarintSkip bytes).bind (skipAckBlocks numBlock) = some rest := by
  induction numBlock generalizing largest bytes ranges with
  | zero =>
    rw [ackRanges] at h
    cases hd : framesVarintDecode bytes with
    | none => simp [hd] at h
    | some p =>
      rw [hd] at h
      obtain ⟨-, h⟩ := Option.ite_none_left_eq_some.mp h
      rw [varintSkip_eq hd, ← (Prod.mk.inj (Option.some.inj h)).2]
      rfl
  | succ numBlock ih =>
    rw [ackRanges] at h
    cases hd : framesVarintDecode bytes with
    | none => simp [hd] at h
    | some p =>
      cases hg : framesVarintDecode p.2 with
      | none => simp [hd, hg] at h
      | some q =>
        simp only [hd, hg, Option.ite_none_left_eq_some, Option.map_eq_some_iff] at h
        obtain ⟨-, -, ⟨tail, rest'⟩, htail, heq⟩ := h
        obtain ⟨-, rfl⟩ := Prod.mk.inj heq
        have hnext := ih htail
        rw [varintSkip_eq hd, Option.bind_some, skipAckBlocks, varintSkip_eq hg]
        simp only
        cases hs : framesVarintSkip q.2 with
        | none => simp [hs] at hnext
        | some bytes' => rwa [hs] at hnext

variable {header : AckHeader}

/-- **The header.** What is skipped in front of the blocks is what the header takes. -/
theorem skipAckFrameMaybeEcn_of_parseAckHeader {hasPath : Bool} {exponent : ℕ} (hne : bytes ≠ [])
    (h : parseAckHeader bytes hasPath exponent = some header) (isEcn : Bool) :
    skipAckFrameMaybeEcn bytes isEcn hasPath =
      ((framesVarintSkip (bytes.drop header.consumed)).bind (skipAckBlocks header.numBlock)).bind
        fun rest => if isEcn then skipEcnCounts rest else some rest := by
  rw [parseAckHeader] at h
  set index := decodeVarintLength (bytes.headD 0) with hindex
  set path := if hasPath then headerField bytes index else ((0, 0) : ℕ × ℕ) with hpathDef
  set largest := headerField bytes (index + path.1) with hlargestDef
  set delay := headerField bytes (index + path.1 + largest.1) with hdelayDef
  set blocks := headerField bytes (index + path.1 + largest.1 + delay.1) with hblocksDef
  obtain ⟨hfail, h⟩ := Option.ite_none_left_eq_some.mp h
  obtain rfl := Option.some.inj h
  push Not at hfail
  obtain ⟨hlargest0, hdelay0, hblocks0, hlen, hpath0⟩ := hfail
  have htype : framesVarintSkip bytes = some (bytes.drop index) :=
    framesVarintSkip_of_length hne (by omega)
  have hlargest : framesVarintSkip (bytes.drop (index + path.1)) =
      some (bytes.drop (index + path.1 + largest.1)) :=
    covers_framesVarintDecode (framesVarintDecode_of_headerField hlargest0)
  have hdelay : framesVarintSkip (bytes.drop (index + path.1 + largest.1)) =
      some (bytes.drop (index + path.1 + largest.1 + delay.1)) :=
    covers_framesVarintDecode (framesVarintDecode_of_headerField hdelay0)
  have hblocks : framesVarintDecode (bytes.drop (index + path.1 + largest.1 + delay.1)) =
      some (blocks.2, bytes.drop (index + path.1 + largest.1 + delay.1 + blocks.1)) :=
    framesVarintDecode_of_headerField hblocks0
  rw [skipAckFrameMaybeEcn, htype]
  simp only [Option.bind_eq_bind, Option.bind_some]
  by_cases hp : hasPath = true
  · -- the path identifier stands before the largest number
    have hpath : framesVarintSkip (bytes.drop index) = some (bytes.drop (index + path.1)) := by
      have hpath' : path = headerField bytes index := by rw [hpathDef, if_pos hp]
      rw [hpath']
      refine covers_framesVarintDecode (framesVarintDecode_of_headerField ?_)
      rw [← hpath']
      exact hpath0 hp
    rw [hpath, Option.bind_some, if_pos hp, hlargest, Option.bind_some, hdelay, Option.bind_some,
      hblocks, Option.bind_some, Option.bind_assoc]
  · have hzero : path.1 = 0 := by rw [hpathDef, if_neg hp]
    rw [hzero, Nat.add_zero] at hlargest
    rw [hlargest, Option.bind_some, if_neg hp]
    rw [hzero, Nat.add_zero] at hdelay hblocks ⊢
    rw [hdelay, Option.bind_some, hblocks, Option.bind_some, Option.bind_assoc]

theorem covers_decodeEcnCounts : Covers skipEcnCounts decodeEcnCounts := by
  intro bytes counts rest h
  obtain ⟨⟨ect0, bytes₁⟩, h0, h⟩ := Option.bind_eq_some_iff.mp h
  obtain ⟨⟨ect1, bytes₂⟩, h1, h⟩ := Option.bind_eq_some_iff.mp h
  obtain ⟨⟨ce, bytes₃⟩, h2, h⟩ := Option.bind_eq_some_iff.mp h
  obtain ⟨-, rfl⟩ := Prod.mk.inj (Option.some.inj h)
  rw [skipEcnCounts, varintSkip_eq h0, Option.bind_some, varintSkip_eq h1, Option.bind_some]
  exact varintSkip_eq h2

/-- The blocks that are processed are those that are skipped. -/
theorem skipAckBlocks_of_processAckBlocks {φ : Type} {cnx cnx' : AckCnx φ} {key : ContextKey}
    {bytes rest : List UInt8} {currentTime frameType : ℕ} {effects : List (AckEffect φ)}
    (h : processAckBlocks cnx key header bytes currentTime frameType =
      .ok (cnx', rest, effects)) :
    (framesVarintSkip bytes).bind (skipAckBlocks header.numBlock) = some rest := by
  rw [processAckBlocks] at h
  simp only at h
  split at h
  · cases h
  split at h
  · cases h
  next w bytes' hloop =>
    obtain ⟨ranges, hranges, -⟩ := ackBlockLoop_ok_iff.mp hloop
    have hrest : bytes' = rest := (Prod.mk.inj (Prod.mk.inj (Except.ok.inj h)).2).1
    rw [← hrest]
    exact skipAckBlocks_of_ackRanges hranges

/-- **An acknowledgement frame.** What is accepted is skipped to the same end; a frame for an
unknown path is skipped by the decoder itself. -/
theorem skipAckFrameMaybeEcn_of_decodeAckFrame {φ : Type} {cnx cnx' : AckCnx φ}
    {bytes rest : List UInt8} {currentTime : ℕ} {pc : Fin 3} {isEcn hasPath : Bool}
    {effects : List (AckEffect φ)} (hne : bytes ≠ [])
    (h : decodeAckFrame cnx bytes currentTime pc isEcn hasPath = .ok (cnx', rest, effects)) :
    skipAckFrameMaybeEcn bytes isEcn hasPath = some rest := by
  rw [decodeAckFrame] at h
  simp only at h
  split at h
  · cases h
  next header hheader =>
    split at h
    · -- the path is unknown
      split at h
      · cases h
      next bytes' hskip =>
        have hrest : bytes' = rest := (Prod.mk.inj (Prod.mk.inj (Except.ok.inj h)).2).1
        rw [hskip, hrest]
    · split at h
      · cases h
      next cnx₁ bytes' effects₁ hblocks =>
        rw [skipAckFrameMaybeEcn_of_parseAckHeader hne hheader,
          skipAckBlocks_of_processAckBlocks hblocks, Option.bind_some]
        cases isEcn with
        | false => exact congrArg some (Prod.mk.inj (Prod.mk.inj (Except.ok.inj h)).2).1
        | true =>
          simp only [if_true] at h ⊢
          split at h
          · cases h
          next counts bytes'' hcounts =>
            have hrest : bytes'' = rest := (Prod.mk.inj (Prod.mk.inj (Except.ok.inj h)).2).1
            rw [← hrest]
            exact covers_decodeEcnCounts hcounts

end Picoquic
