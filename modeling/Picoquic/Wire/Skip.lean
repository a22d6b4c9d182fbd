import Picoquic.Ack.Format

/-!
# Skipping frames

The sender looks through packets of its own without decoding them, frame by frame. A frame is
given by the bytes from its type to the end of the packet, and skipping it returns the bytes that
follow, or nothing when the frame is not complete.

* **`skipFrame`** — one frame, and whether it counts as an acknowledgement only;
* **`SkipsTo`** — any number of whole frames, one after the other.
-/

namespace Picoquic

/-! ### Frame types -/

/-- `picoquic_frame_type_padding`. -/
@[match_pattern] def frameTypePadding : ℕ := 0x00

/-- `picoquic_frame_type_ping`. -/
@[match_pattern] def frameTypePing : ℕ := 0x01

/-- `picoquic_frame_type_reset_stream`. -/
@[match_pattern] def frameTypeResetStream : ℕ := 0x04

/-- `picoquic_frame_type_stop_sending`. -/
@[match_pattern] def frameTypeStopSending : ℕ := 0x05

/-- `picoquic_frame_type_crypto_hs`. -/
@[match_pattern] def frameTypeCryptoHs : ℕ := 0x06

/-- `picoquic_frame_type_new_token`. -/
@[match_pattern] def frameTypeNewToken : ℕ := 0x07

/-- `picoquic_frame_type_stream_range_min`. -/
def frameTypeStreamRangeMin : ℕ := 0x08

/-- `picoquic_frame_type_stream_range_max`. -/
def frameTypeStreamRangeMax : ℕ := 0x0f

/-- `picoquic_frame_type_max_data`. -/
@[match_pattern] def frameTypeMaxData : ℕ := 0x10

/-- `picoquic_frame_type_max_stream_data`. -/
@[match_pattern] def frameTypeMaxStreamData : ℕ := 0x11

/-- `picoquic_frame_type_max_streams_bidir`. -/
@[match_pattern] def frameTypeMaxStreamsBidir : ℕ := 0x12

/-- `picoquic_frame_type_max_streams_unidir`. -/
@[match_pattern] def frameTypeMaxStreamsUnidir : ℕ := 0x13

/-- `picoquic_frame_type_data_blocked`. -/
@[match_pattern] def frameTypeDataBlocked : ℕ := 0x14

/-- `picoquic_frame_type_stream_data_blocked`. -/
@[match_pattern] def frameTypeStreamDataBlocked : ℕ := 0x15

/-- `picoquic_frame_type_streams_blocked_bidir`. -/
@[match_pattern] def frameTypeStreamsBlockedBidir : ℕ := 0x16

/-- `picoquic_frame_type_streams_blocked_unidir`. -/
@[match_pattern] def frameTypeStreamsBlockedUnidir : ℕ := 0x17

/-- `picoquic_frame_type_new_connection_id`. -/
@[match_pattern] def frameTypeNewConnectionId : ℕ := 0x18

/-- `picoquic_frame_type_retire_connection_id`. -/
@[match_pattern] def frameTypeRetireConnectionId : ℕ := 0x19

/-- `picoquic_frame_type_path_challenge`. -/
@[match_pattern] def frameTypePathChallenge : ℕ := 0x1a

/-- `picoquic_frame_type_path_response`. -/
@[match_pattern] def frameTypePathResponse : ℕ := 0x1b

/-- `picoquic_frame_type_connection_close`. -/
@[match_pattern] def frameTypeConnectionClose : ℕ := 0x1c

/-- `picoquic_frame_type_application_close`. -/
@[match_pattern] def frameTypeApplicationClose : ℕ := 0x1d

/-- `picoquic_frame_type_handshake_done`. -/
@[match_pattern] def frameTypeHandshakeDone : ℕ := 0x1e

/-- `picoquic_frame_type_datagram`. -/
@[match_pattern] def frameTypeDatagram : ℕ := 0x30

/-- `picoquic_frame_type_datagram_l`. -/
@[match_pattern] def frameTypeDatagramL : ℕ := 0x31

/-- `picoquic_frame_type_ack_frequency`. -/
@[match_pattern] def frameTypeAckFrequency : ℕ := 0xAF

/-- `picoquic_frame_type_path_abandon`. -/
@[match_pattern] def frameTypePathAbandon : ℕ := 0xbaba05

/-- `picoquic_frame_type_bdp`. -/
@[match_pattern] def frameTypeBdp : ℕ := 0xebd9

/-- `challenge_length`. -/
def challengeLength : ℕ := 8

/-! ### Fields -/

/-- `picoquic_frames_uint8_decode`. -/
def framesUint8Decode : List UInt8 → Option (UInt8 × List UInt8)
  | [] => none
  | byte :: rest => some (byte, rest)

/-- `picoquic_frames_length_data_skip`. -/
def framesLengthDataSkip (bytes : List UInt8) : Option (List UInt8) := do
  let (length, bytes) ← framesVarintDecode bytes
  framesFixedSkip bytes length

/-- `n` integers, one after the other. -/
def framesVarintsSkip : ℕ → List UInt8 → Option (List UInt8)
  | 0, bytes => some bytes
  | n + 1, bytes => (framesVarintSkip bytes).bind (framesVarintsSkip n)

/-! ### Frames -/

/-- `picoquic_skip_0len_frame`: a frame of one byte and its repetitions. -/
def skip0LenFrame (frame : UInt8) (rest : List UInt8) : List UInt8 :=
  rest.dropWhile fun byte => byte == frame

/-- `picoquic_skip_stream_frame`. -/
def skipStreamFrame (first : UInt8) (rest : List UInt8) : Option (List UInt8) := do
  let bytes ← framesVarintSkip rest
  let bytes ← if first &&& 4 = 0 then some bytes else framesVarintSkip bytes
  if first &&& 2 = 0 then some [] else framesLengthDataSkip bytes

/-- `picoquic_skip_connection_close_frame`. -/
def skipConnectionCloseFrame (rest : List UInt8) : Option (List UInt8) :=
  (framesVarintsSkip 2 rest).bind framesLengthDataSkip

/-- `picoquic_skip_application_close_frame`, and `picoquic_skip_crypto_hs_frame`. -/
def skipApplicationCloseFrame (rest : List UInt8) : Option (List UInt8) :=
  (framesVarintSkip rest).bind framesLengthDataSkip

/-- `picoquic_skip_new_connection_id_frame`, from the type on. -/
def skipNewConnectionIdFrame (bytes : List UInt8) : Option (List UInt8) := do
  let bytes ← framesVarintsSkip 3 bytes
  let (cidLength, bytes) ← framesUint8Decode bytes
  framesFixedSkip bytes (cidLength.toNat + resetSecretSize)

/-- `picoquic_skip_datagram_frame`. Without a length the frame ends with the packet. -/
def skipDatagramFrame (first : UInt8) (rest : List UInt8) : Option (List UInt8) :=
  if first &&& 1 = 0 then some [] else framesLengthDataSkip rest

/-- `picoquic_skip_ack_frequency_frame`, after the type. -/
def skipAckFrequencyFrame (bytes : List UInt8) : Option (List UInt8) := do
  let bytes ← framesVarintsSkip 3 bytes
  framesFixedSkip bytes 1

/-- `picoquic_parse_path_identifier`: the type and the value. -/
def parsePathIdentifier (bytes : List UInt8) : Option (ℕ × ℕ × List UInt8) := do
  let (pathIdType, bytes) ← framesVarintDecode bytes
  match pathIdType with
  | 0 | 1 =>
    let (pathIdValue, bytes) ← framesVarintDecode bytes
    return (pathIdType, pathIdValue, bytes)
  | 2 => return (pathIdType, 0, bytes)
  | _ => none

/-- `picoquic_skip_path_abandon_frame`, after the type. -/
def skipPathAbandonFrame (bytes : List UInt8) : Option (List UInt8) := do
  let (_, _, bytes) ← parsePathIdentifier bytes
  let bytes ← framesVarintSkip bytes
  framesLengthDataSkip bytes

/-- `picoquic_skip_bdp_frame`, after the type. -/
def skipBdpFrame (bytes : List UInt8) : Option (List UInt8) :=
  (framesVarintsSkip 3 bytes).bind framesLengthDataSkip

/-- The frames of `picoquic_skip_frame` whose type is longer than a byte, or is not a byte of its
own. -/
def skipExtendedFrame (bytes : List UInt8) : Option (List UInt8) × Bool :=
  match framesVarintDecode bytes with
  | none => (none, true)
  | some (frameId, rest) =>
    match frameId with
    | frameTypeAckFrequency => (skipAckFrequencyFrame rest, false)
    | frameTypeTimeStamp => (framesVarintSkip rest, true)
    | frameTypeAckMp => (skipAckFrameMaybeEcn bytes false true, true)
    | frameTypeAckMpEcn => (skipAckFrameMaybeEcn bytes true true, true)
    | frameTypePathAbandon => (skipPathAbandonFrame rest, false)
    | frameTypeBdp => (skipBdpFrame rest, false)
    | _ => (none, true)

/-- `picoquic_skip_frame`: what follows the frame, and `pure_ack`. -/
def skipFrame : List UInt8 → Option (List UInt8) × Bool
  | [] => (none, true)
  | first :: rest =>
    if frameTypeStreamRangeMin ≤ first.toNat ∧ first.toNat ≤ frameTypeStreamRangeMax then
      (skipStreamFrame first rest, false)
    else
      match first.toNat with
      | frameTypeAck => (skipAckFrameMaybeEcn (first :: rest) false false, true)
      | frameTypeAckEcn => (skipAckFrameMaybeEcn (first :: rest) true false, true)
      | frameTypePadding => (some (skip0LenFrame first rest), true)
      | frameTypeResetStream => (framesVarintsSkip 3 rest, false)
      | frameTypeConnectionClose => (skipConnectionCloseFrame rest, false)
      | frameTypeApplicationClose => (skipApplicationCloseFrame rest, false)
      | frameTypeMaxData => (framesVarintSkip rest, false)
      | frameTypeMaxStreamData => (framesVarintsSkip 2 rest, false)
      | frameTypeMaxStreamsBidir => (framesVarintSkip rest, false)
      | frameTypeMaxStreamsUnidir => (framesVarintSkip rest, false)
      | frameTypePing => (some (skip0LenFrame first rest), false)
      | frameTypeDataBlocked => (framesVarintSkip rest, false)
      | frameTypeStreamDataBlocked => (framesVarintsSkip 2 rest, false)
      | frameTypeStreamsBlockedBidir => (framesVarintSkip rest, false)
      | frameTypeStreamsBlockedUnidir => (framesVarintSkip rest, false)
      | frameTypeNewConnectionId => (skipNewConnectionIdFrame (first :: rest), false)
      | frameTypeStopSending => (framesVarintsSkip 2 rest, false)
      | frameTypePathChallenge => (framesFixedSkip rest challengeLength, true)
      | frameTypePathResponse => (framesFixedSkip rest challengeLength, true)
      | frameTypeCryptoHs => (skipApplicationCloseFrame rest, false)
      | frameTypeNewToken => (framesLengthDataSkip rest, false)
      | frameTypeRetireConnectionId => (framesVarintSkip rest, false)
      | frameTypeHandshakeDone => (some rest, false)
      | frameTypeDatagram => (skipDatagramFrame first rest, false)
      | frameTypeDatagramL => (skipDatagramFrame first rest, false)
      | _ => skipExtendedFrame (first :: rest)

/-- The bytes start with whole frames, and `rest` follows them. -/
def SkipsTo (bytes rest : List UInt8) : Prop :=
  Relation.ReflTransGen (fun a b => (skipFrame a).1 = some b) bytes rest

/-! ### Reading back what was written -/

theorem framesVarintsSkip_varintBytes (n n64 : ℕ) (rest : List UInt8) :
    framesVarintsSkip (n + 1) (varintBytes n64 ++ rest) = framesVarintsSkip n rest := by
  rw [framesVarintsSkip, framesVarintSkip_varintBytes, Option.bind_some]

theorem framesFixedSkip_append (bytes rest : List UInt8) :
    framesFixedSkip (bytes ++ rest) bytes.length = some rest := by
  rw [framesFixedSkip, if_pos (by simp), List.drop_left]

theorem framesLengthDataSkip_append {data : List UInt8} (h : data.length < 2 ^ 62)
    (rest : List UInt8) :
    framesLengthDataSkip (varintBytes data.length ++ data ++ rest) = some rest := by
  rw [List.append_assoc, framesLengthDataSkip, framesVarintDecode_varintBytes]
  simp only [Option.bind_eq_bind, Option.bind_some, Nat.mod_eq_of_lt h]
  exact framesFixedSkip_append data rest

end Picoquic
