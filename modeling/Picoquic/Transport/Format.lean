import Picoquic.Transport.Receive

/-!
# The format of a transport parameter

A parameter is its type, the length of its value, and the value. The type and the length are
variable-length integers; the length of a version negotiation parameter takes two bytes, whatever
it is.

* **`TpParam.encode_eq`** — what a parameter writes, when there is space for it;
* **`TpParam.nextParam_bytes`** — the reader finds the type and the value again, and what follows;
* **`TpReceive.receiveParams_bytes`** — reading the bytes of some parameters is receiving the
  parameters one after the other.
-/

namespace Picoquic

/-! ### Writing one after the other -/

theorem appendWithin_of_le {space : ℕ} {out bytes : List UInt8}
    (h : out.length + bytes.length ≤ space) :
    appendWithin space out bytes = some (out ++ bytes) :=
  if_pos h

/-- Writers that succeed while there is room write the concatenation. -/
theorem foldlM_of_fits {α : Type} {f : List UInt8 → α → Option (List UInt8)}
    {g : α → List UInt8} {room : ℕ} (xs : List α) (out : List UInt8)
    (hf : ∀ x ∈ xs, ∀ out : List UInt8, out.length + (g x).length ≤ room →
      f out x = some (out ++ g x))
    (hroom : out.length + (xs.flatMap g).length ≤ room) :
    xs.foldlM f out = some (out ++ xs.flatMap g) := by
  induction xs generalizing out with
  | nil => simp
  | cons x xs ih =>
    rw [List.flatMap_cons, List.length_append] at hroom
    have hx : f out x = some (out ++ g x) := hf x List.mem_cons_self out (by omega)
    have hxs : xs.foldlM f (out ++ g x) = some (out ++ g x ++ xs.flatMap g) := by
      refine ih _ (fun y hy => hf y (List.mem_cons_of_mem x hy)) ?_
      rw [List.length_append]
      omega
    rw [List.foldlM_cons, hx, Option.bind_eq_bind, Option.bind_some, hxs, List.flatMap_cons,
      List.append_assoc]

/-! ### The bytes of a parameter -/

namespace TpParam

/-- The type of a parameter. -/
def tpType : TpParam → ℕ
  | .varint tpType _ => tpType
  | .flag tpType => tpType
  | .cid tpType _ => tpType
  | .preferedAddress _ => tpServerPreferredAddress
  | .statelessResetToken _ => tpStatelessResetToken
  | .versionNegotiation _ _ => tpVersionNegotiation
  | .testLargeChello _ => tpTestLargeChello

/-- The value of a parameter. -/
def value : TpParam → List UInt8
  | .varint _ n64 => varintBytes n64
  | .flag _ => []
  | .cid _ id => id.val
  | .preferedAddress a => a.bytes
  | .statelessResetToken secret => secret.toList
  | .versionNegotiation version others => (version :: others).flatMap uint32Bytes
  | .testLargeChello length => List.replicate length 0x51

/-- The length of the value, as it is written. -/
def lengthBytes : TpParam → List UInt8
  | .versionNegotiation version others =>
    vnLengthBytes ((version :: others).flatMap uint32Bytes).length
  | p => varintBytes p.value.length

/-- A parameter on the wire. -/
def bytes (p : TpParam) : List UInt8 := varintBytes p.tpType ++ p.lengthBytes ++ p.value

/-- The type is a variable-length integer, and the length of the value fits into two bytes. -/
structure Encodable (p : TpParam) : Prop where
  tpType : p.tpType < 2 ^ 62
  length : p.value.length ≤ 0x3FFF

theorem lengthBytes_length_le (p : TpParam) : p.lengthBytes.length ≤ 8 := by
  cases p with
  | versionNegotiation version others => exact (by decide : (2 : ℕ) ≤ 8)
  | _ => exact (varintBytes_length _).trans_le (encodeVarintLength_le_eight _)

theorem bytes_length_le (p : TpParam) : p.bytes.length ≤ 16 + p.value.length := by
  have htype := encodeVarintLength_le_eight p.tpType
  have hlength := p.lengthBytes_length_le
  simp only [bytes, List.length_append, varintBytes_length]
  omega

theorem preferedAddress_bytes_length (a : PreferedAddress) :
    a.bytes.length = 4 + 2 + 16 + 2 + 1 + a.connectionId.val.length + 16 := by
  simp only [PreferedAddress.bytes, uint16Bytes, List.length_append, List.Vector.toList_length,
    List.length_cons, List.length_nil]

theorem flatMap_uint32Bytes_length (vs : List ℕ) :
    (vs.flatMap uint32Bytes).length = 4 * vs.length := by
  induction vs with
  | nil => rfl
  | cons v vs ih =>
    rw [List.flatMap_cons, List.length_append, ih, List.length_cons]
    simp only [uint32Bytes, List.length_cons, List.length_nil]
    omega

/-! ### Writing a parameter -/

variable {out : List UInt8} {p : TpParam}

theorem framesVarintEncode_of_le {space n64 : ℕ} (h : out.length + encodeVarintLength n64 ≤ space) :
    framesVarintEncode out space n64 = some (out ++ varintBytes n64) :=
  if_pos h

/-- A type and a length, in front of what `write` writes. -/
theorem header_of_le {space tpType length : ℕ} (write : List UInt8 → Option (List UInt8))
    (h : out.length + encodeVarintLength tpType + encodeVarintLength length ≤ space) :
    ((framesVarintEncode out space tpType).bind fun out =>
      (framesVarintEncode out space length).bind write) =
      write (out ++ (varintBytes tpType ++ varintBytes length)) := by
  have hlength : framesVarintEncode (out ++ varintBytes tpType) space length =
      some (out ++ varintBytes tpType ++ varintBytes length) :=
    framesVarintEncode_of_le (by rw [List.length_append, varintBytes_length]; omega)
  rw [framesVarintEncode_of_le (by omega), Option.bind_some, hlength, Option.bind_some,
    List.append_assoc]

theorem varintBytes_encodeVarintLength (n64 : ℕ) :
    varintBytes (encodeVarintLength n64) = [UInt8.ofNat (encodeVarintLength n64)] := by
  have hlength := encodeVarintLength_le_eight n64
  rw [varintBytes, if_pos (by omega), if_pos (by omega)]

theorem bytes_varint (tpType n64 : ℕ) :
    (varint tpType n64).bytes =
      varintBytes tpType ++ [UInt8.ofNat (encodeVarintLength n64)] ++ varintBytes n64 := by
  rw [← varintBytes_encodeVarintLength, ← varintBytes_length]
  rfl

/-- **Writing.** A parameter is appended to what was written, if that leaves a byte. -/
theorem encode_eq {space : ℕ} (hp : p.Encodable) (hspace : out.length + p.bytes.length < space) :
    p.encode space out = some (out ++ p.bytes) := by
  -- the length of the bytes, in parts
  have hparts : out.length + encodeVarintLength p.tpType + p.lengthBytes.length + p.value.length <
      space := by
    simpa only [bytes, List.length_append, varintBytes_length, Nat.add_assoc] using hspace
  cases p with
  | varint tpType n64 =>
    rw [bytes_varint] at hspace ⊢
    simp only [List.length_append, varintBytes_length, List.length_singleton] at hspace
    simp only [encode, Option.bind_eq_bind]
    rw [framesVarintEncode_of_le (by omega), Option.bind_some, if_neg (by simp; omega),
      framesVarintEncode_of_le (by simp; omega), List.append_assoc, List.append_assoc,
      List.append_assoc]
  | flag tpType =>
    simp only [lengthBytes, value, TpParam.tpType, varintBytes_length, List.length_nil] at hparts
    simp only [encode, Option.bind_eq_bind]
    rw [framesVarintEncode_of_le (by omega), Option.bind_some,
      framesVarintEncode_of_le (by simp; omega), List.append_assoc]
    exact congrArg (fun bytes => some (out ++ bytes)) (List.append_nil _).symm
  | cid tpType id =>
    simp only [lengthBytes, value, TpParam.tpType, varintBytes_length] at hparts
    refine (header_of_le _ (by omega)).trans ?_
    rw [appendWithin_of_le (by simp; omega), List.append_assoc]
    rfl
  | preferedAddress a =>
    have hcoded : 4 + 2 + 16 + 2 + 1 + a.connectionId.val.length + 16 = a.bytes.length :=
      (preferedAddress_bytes_length a).symm
    simp only [lengthBytes, value, TpParam.tpType, varintBytes_length] at hparts
    simp only [encode, hcoded]
    refine (header_of_le _ (by omega)).trans ?_
    rw [if_neg (by simp; omega), List.append_assoc]
    rfl
  | statelessResetToken secret =>
    have hsize : resetSecretSize = secret.toList.length := (List.Vector.toList_length secret).symm
    simp only [lengthBytes, value, TpParam.tpType, varintBytes_length] at hparts
    simp only [encode, hsize]
    refine (header_of_le _ (by omega)).trans ?_
    rw [if_pos (by rw [List.length_append, List.length_append, varintBytes_length,
      varintBytes_length]; omega), List.append_assoc]
    rfl
  | versionNegotiation version others =>
    simp only [lengthBytes, value, TpParam.tpType, vnLengthBytes, List.length_cons,
      List.length_nil] at hparts
    have hlength : ¬0x3FFF < ((version :: others).flatMap uint32Bytes).length :=
      not_lt.mpr hp.length
    have hvalue (space : ℕ) (h : ((version :: others).flatMap uint32Bytes).length ≤ space) :
        (version :: others).foldlM (framesUint32Encode · space ·) [] =
          some ((version :: others).flatMap uint32Bytes) :=
      foldlM_of_fits (f := (framesUint32Encode · space ·)) _ [] (fun _ _ _ => appendWithin_of_le)
        ((Nat.zero_add _).trans_le h)
    simp only [encode, Option.bind_eq_bind]
    rw [framesVarintEncode_of_le (by omega), Option.bind_some,
      if_neg (by rw [List.length_append, varintBytes_length]; omega),
      hvalue _ (by rw [List.length_append, varintBytes_length]; omega), Option.bind_some,
      if_neg hlength, List.append_assoc, List.append_assoc]
    rfl
  | testLargeChello length =>
    have hlength : length = (testLargeChello length).value.length := List.length_replicate.symm
    simp only [lengthBytes, TpParam.tpType, varintBytes_length, ← hlength] at hparts
    refine (header_of_le _ (by omega)).trans ?_
    rw [appendWithin_of_le (by simp; omega), List.append_assoc]
    simp only [bytes, lengthBytes, ← hlength]
    rfl

/-! ### Reading a parameter -/

/-- Two bytes give a length back, also a short one. -/
theorem framesVarintDecode_vnLengthBytes {len : ℕ} (h : len ≤ 0x3FFF) (rest : List UInt8) :
    framesVarintDecode (vnLengthBytes len ++ rest) = some (len, rest) := by
  have hhigh : (len >>> 8) &&& 0x3f = len / 256 := by
    rw [show (0x3f : ℕ) = 2 ^ 6 - 1 from rfl, Nat.and_two_pow_sub_one_eq_mod,
      Nat.shiftRight_eq_div_pow]
    omega
  have hlow : len &&& 0xff = len % 256 := Nat.and_two_pow_sub_one_eq_mod len 8
  have hbyte : (UInt8.ofNat (len / 256) ||| 0x40).toNat = 64 + len / 256 := by
    have h40 : UInt8.ofNat (len / 256) ||| 0x40 = UInt8.ofNat ((len / 256) ||| 0x40) :=
      (UInt8.ofNat_or _ _).symm
    rw [h40]
    exact (toNat_tag (by omega)).1
  have hlength : decodeVarintLength (UInt8.ofNat (len / 256) ||| 0x40) = 1 + 1 := by
    rw [decodeVarintLength, hbyte, Nat.shiftRight_eq_div_pow,
      show (64 + len / 256) / 2 ^ 6 = 1 by omega]
    rfl
  rw [vnLengthBytes, hhigh, hlow, framesVarintDecode_of_length [_] hlength, varintValue, hbyte]
  simp only [List.foldl_cons, List.foldl_nil, UInt8.toNat_ofNat', Nat.shiftLeft_eq]
  congr 2
  omega

theorem framesVarintDecode_lengthBytes (hp : p.Encodable) (rest : List UInt8) :
    framesVarintDecode (p.lengthBytes ++ rest) = some (p.value.length, rest) := by
  have hlength := hp.length
  cases p with
  | versionNegotiation version others => exact framesVarintDecode_vnLengthBytes hlength rest
  | _ =>
    refine (framesVarintDecode_varintBytes _ rest).trans ?_
    rw [Nat.mod_eq_of_lt (by omega)]

/-- **Reading.** The reader finds the type and the value, and what follows. -/
theorem nextParam_bytes (hp : p.Encodable) (rest : List UInt8) :
    TpReceive.nextParam (p.bytes ++ rest) = some (p.tpType, p.value, rest) := by
  simp only [TpReceive.nextParam, bytes, List.append_assoc, framesVarintDecode_varintBytes,
    Nat.mod_eq_of_lt hp.tpType, framesVarintDecode_lengthBytes hp, Option.bind_eq_bind,
    Option.bind_some]
  rw [if_neg (by rw [List.length_append]; omega), List.take_left, List.drop_left]

theorem two_le_bytes_length (p : TpParam) : 2 ≤ p.bytes.length := by
  have htype := encodeVarintLength_pos p.tpType
  have hlength : 0 < p.lengthBytes.length := by
    cases p with
    | versionNegotiation version others => exact Nat.zero_lt_two
    | _ => exact (encodeVarintLength_pos _).trans_eq (varintBytes_length _).symm
  simp only [bytes, List.length_append, varintBytes_length]
  omega

end TpParam

namespace TpReceive

/-- Some parameters received one after the other. -/
def receiveAll (extensionMode : Bool) (s : TpReceive) (ps : List TpParam) :
    Except TpError TpReceive :=
  ps.foldlM (fun s p => receiveParam extensionMode s p.tpType p.value) s

/-- **Reading the bytes of parameters.** The loop receives one parameter after the other. -/
theorem receiveParams_bytes (extensionMode : Bool) (s : TpReceive) {ps : List TpParam}
    (hps : ∀ p ∈ ps, p.Encodable) :
    receiveParams extensionMode s (ps.flatMap TpParam.bytes) = receiveAll extensionMode s ps := by
  induction ps generalizing s with
  | nil =>
    rw [List.flatMap_nil, receiveParams, if_pos rfl]
    rfl
  | cons p ps ih =>
    have hlength : 2 ≤ (p.bytes ++ ps.flatMap TpParam.bytes).length := by
      rw [List.length_append]
      exact p.two_le_bytes_length.trans (Nat.le_add_right _ _)
    have hne : p.bytes ++ ps.flatMap TpParam.bytes ≠ [] := by
      intro h
      rw [h] at hlength
      exact absurd hlength (by decide)
    have hnext := TpParam.nextParam_bytes (hps p List.mem_cons_self) (ps.flatMap TpParam.bytes)
    rw [List.flatMap_cons, receiveParams, if_neg hne, if_neg (not_lt.mpr hlength)]
    split
    next h => exact absurd (hnext.symm.trans h) (Option.some_ne_none _)
    next tpType value rest h =>
      obtain ⟨rfl, htail⟩ := Prod.mk.inj (Option.some.inj (hnext.symm.trans h))
      obtain ⟨rfl, rfl⟩ := Prod.mk.inj htail
      simp only [ih _ fun q hq => hps q (List.mem_cons_of_mem p hq)]
      rfl

end TpReceive

end Picoquic
