import Mathlib.Data.Nat.Bitwise
import Mathlib.Tactic.Positivity
import Picoquic.Basic

/-!
# Variable-length integers

The two most significant bits of the first byte give the length of the encoding, one, two, four
or eight bytes; the remaining bits are the value, most significant byte first. A position in a
buffer is given by the bytes from it to the end of the buffer, so a decoder returns the bytes
that follow, and an encoder appends to what was written and compares with the space of the
buffer.

* **`framesVarintDecode_varintBytes`** — an encoded value is read back modulo `2 ^ 62`, whatever
  follows it; the value itself when it is a 62-bit number.
* **`varintDecode_eq`**, **`varintSkip_eq`** — the second decoder and the skip function agree
  with the first decoder on where a value ends, so each of them reads back an encoded value.
* **`framesVarintDecode_lt`** — a value that is read has 62 bits.
-/

namespace Picoquic

/-- `picoquic_decode_varint_length` (and `VARINT_LEN`): `1 << ((byte & 0xC0) >> 6)`. -/
def decodeVarintLength (byte : UInt8) : ℕ := 1 <<< (byte.toNat >>> 6)

/-- The value of an encoding whose first byte is `byte` and whose other bytes are `rest`. -/
def varintValue (byte : UInt8) (rest : List UInt8) : ℕ :=
  rest.foldl (fun v b => (v <<< 8) + b.toNat) (byte.toNat % 64)

/-- `picoquic_frames_varint_decode`: the value and the bytes after it. -/
def framesVarintDecode : List UInt8 → Option (ℕ × List UInt8)
  | [] => none
  | byte :: rest =>
    if decodeVarintLength byte ≤ rest.length + 1 then
      some (varintValue byte (rest.take (decodeVarintLength byte - 1)),
        rest.drop (decodeVarintLength byte - 1))
    else none

/-- `picoquic_varint_decode`: the length read, `0` on error, and the value. -/
def varintDecode : List UInt8 → ℕ × ℕ
  | [] => (0, 0)
  | byte :: rest =>
    if rest.length + 1 < decodeVarintLength byte then (0, 0)
    else (decodeVarintLength byte, varintValue byte (rest.take (decodeVarintLength byte - 1)))

/-- `picoquic_frames_fixed_skip`. -/
def framesFixedSkip (bytes : List UInt8) (size : ℕ) : Option (List UInt8) :=
  if size ≤ bytes.length then some (bytes.drop size) else none

/-- `picoquic_frames_varint_skip`. -/
def framesVarintSkip : List UInt8 → Option (List UInt8)
  | [] => none
  | byte :: rest => framesFixedSkip (byte :: rest) (decodeVarintLength byte)

/-- `picoquic_encode_varint_length`. -/
def encodeVarintLength (n64 : ℕ) : ℕ :=
  if n64 < 16384 then if n64 < 64 then 1 else 2 else if n64 < 1073741824 then 4 else 8

/-- The bytes that `picoquic_frames_varint_encode` and `picoquic_varint_encode` write. -/
def varintBytes (n64 : ℕ) : List UInt8 :=
  if n64 < 16384 then
    if n64 < 64 then [UInt8.ofNat n64]
    else [UInt8.ofNat ((n64 >>> 8) ||| 0x40), UInt8.ofNat n64]
  else if n64 < 1073741824 then
    [UInt8.ofNat ((n64 >>> 24) ||| 0x80), UInt8.ofNat (n64 >>> 16), UInt8.ofNat (n64 >>> 8),
      UInt8.ofNat n64]
  else
    [UInt8.ofNat ((n64 >>> 56) ||| 0xC0), UInt8.ofNat (n64 >>> 48), UInt8.ofNat (n64 >>> 40),
      UInt8.ofNat (n64 >>> 32), UInt8.ofNat (n64 >>> 24), UInt8.ofNat (n64 >>> 16),
      UInt8.ofNat (n64 >>> 8), UInt8.ofNat n64]

/-- `picoquic_frames_varint_encode`, appending to `out` in a buffer of `space` bytes. -/
def framesVarintEncode (out : List UInt8) (space n64 : ℕ) : Option (List UInt8) :=
  if out.length + encodeVarintLength n64 ≤ space then some (out ++ varintBytes n64) else none

variable (n64 : ℕ)

@[simp]
theorem varintBytes_length : (varintBytes n64).length = encodeVarintLength n64 := by
  rw [varintBytes, encodeVarintLength]
  split_ifs <;> rfl

theorem encodeVarintLength_pos : 0 < encodeVarintLength n64 := by
  rw [encodeVarintLength]
  split_ifs <;> decide

theorem encodeVarintLength_le_eight : encodeVarintLength n64 ≤ 8 := by
  rw [encodeVarintLength]
  split_ifs <;> decide

theorem encodeVarintLength_mono {m n : ℕ} (h : m ≤ n) :
    encodeVarintLength m ≤ encodeVarintLength n := by
  rw [encodeVarintLength, encodeVarintLength]
  split_ifs <;> omega

/-! ### Decoding what was encoded -/

private theorem toNat_tag8 (m : ℕ) : (UInt8.ofNat (m ||| 0xC0)).toNat = 192 + m % 64 := by
  have h : ∀ x : Fin 256, ((x : ℕ) ||| 0xC0) = 192 + (x : ℕ) % 64 := by decide +kernel
  have hm := h ⟨m % 256, Nat.mod_lt _ (by decide)⟩
  rw [UInt8.toNat_ofNat', Nat.or_mod_two_pow]
  simp only at hm
  rw [show (0xC0 : ℕ) % 2 ^ 8 = 0xC0 from rfl, show (2 : ℕ) ^ 8 = 256 from rfl, hm]
  omega

theorem toNat_tag {m : ℕ} (hm : m < 64) :
    (UInt8.ofNat (m ||| 0x40)).toNat = 64 + m ∧ (UInt8.ofNat (m ||| 0x80)).toNat = 128 + m := by
  have h : ∀ x : Fin 64,
      ((x : ℕ) ||| 0x40) = 64 + (x : ℕ) ∧ ((x : ℕ) ||| 0x80) = 128 + (x : ℕ) := by
    decide
  have hx := h ⟨m, hm⟩
  rw [UInt8.toNat_ofNat', UInt8.toNat_ofNat', hx.1, hx.2]
  exact ⟨Nat.mod_eq_of_lt (by omega), Nat.mod_eq_of_lt (by omega)⟩

theorem framesVarintDecode_of_length (tail : List UInt8) {byte : UInt8} {rest : List UInt8}
    (h : decodeVarintLength byte = tail.length + 1) :
    framesVarintDecode (byte :: tail ++ rest) = some (varintValue byte tail, rest) := by
  simp [framesVarintDecode, h]

/-- **Round trip.** An encoded value is read back modulo `2 ^ 62`, and what follows is left. -/
theorem framesVarintDecode_varintBytes (rest : List UInt8) :
    framesVarintDecode (varintBytes n64 ++ rest) = some (n64 % 2 ^ 62, rest) := by
  rw [varintBytes]
  split_ifs with h1 h2 h3
  · have hb : (UInt8.ofNat n64).toNat = n64 := by
      rw [UInt8.toNat_ofNat']
      omega
    have hlen : decodeVarintLength (UInt8.ofNat n64) = 0 + 1 := by
      rw [decodeVarintLength, hb, Nat.shiftRight_eq_div_pow, Nat.div_eq_of_lt (by omega)]
      rfl
    rw [framesVarintDecode_of_length [] hlen, varintValue, hb]
    simp only [List.foldl_nil]
    congr 2
    omega
  · have hm : n64 >>> 8 < 64 := by
      rw [Nat.shiftRight_eq_div_pow]
      omega
    have hb := (toNat_tag hm).1
    have hlen : decodeVarintLength (UInt8.ofNat ((n64 >>> 8) ||| 0x40)) = 1 + 1 := by
      rw [decodeVarintLength, hb, Nat.shiftRight_eq_div_pow (64 + _),
        show (64 + n64 >>> 8) / 2 ^ 6 = 1 by omega]
      rfl
    rw [framesVarintDecode_of_length [_] hlen, varintValue, hb]
    simp only [List.foldl_cons, List.foldl_nil, UInt8.toNat_ofNat', Nat.shiftLeft_eq,
      Nat.shiftRight_eq_div_pow]
    congr 2
    omega
  · have hm : n64 >>> 24 < 64 := by
      rw [Nat.shiftRight_eq_div_pow]
      omega
    have hb := (toNat_tag hm).2
    have hlen : decodeVarintLength (UInt8.ofNat ((n64 >>> 24) ||| 0x80)) = 3 + 1 := by
      rw [decodeVarintLength, hb, Nat.shiftRight_eq_div_pow (128 + _),
        show (128 + n64 >>> 24) / 2 ^ 6 = 2 by omega]
      rfl
    rw [framesVarintDecode_of_length [_, _, _] hlen, varintValue, hb]
    simp only [List.foldl_cons, List.foldl_nil, UInt8.toNat_ofNat', Nat.shiftLeft_eq,
      Nat.shiftRight_eq_div_pow]
    congr 2
    omega
  · have hb := toNat_tag8 (n64 >>> 56)
    have hlen : decodeVarintLength (UInt8.ofNat ((n64 >>> 56) ||| 0xC0)) = 7 + 1 := by
      rw [decodeVarintLength, hb, Nat.shiftRight_eq_div_pow (192 + _),
        show (192 + n64 >>> 56 % 64) / 2 ^ 6 = 3 by omega]
      rfl
    rw [framesVarintDecode_of_length [_, _, _, _, _, _, _] hlen, varintValue, hb]
    simp only [List.foldl_cons, List.foldl_nil, UInt8.toNat_ofNat', Nat.shiftLeft_eq,
      Nat.shiftRight_eq_div_pow]
    congr 2
    omega

theorem decodeVarintLength_pos (byte : UInt8) : 0 < decodeVarintLength byte := by
  rw [decodeVarintLength, Nat.shiftLeft_eq]
  positivity

variable {bytes rest : List UInt8}

variable {v : ℕ}

/-- The first decoder and the second agree. -/
theorem varintDecode_eq (h : framesVarintDecode bytes = some (v, rest)) :
    varintDecode bytes = (bytes.length - rest.length, v) ∧
      bytes.drop (bytes.length - rest.length) = rest ∧ rest.length < bytes.length := by
  cases bytes with
  | nil => simp [framesVarintDecode] at h
  | cons byte tail =>
    have hpos := decodeVarintLength_pos byte
    rw [framesVarintDecode] at h
    split_ifs at h with hlen
    simp only [Option.some.injEq, Prod.mk.injEq] at h
    obtain ⟨rfl, rfl⟩ := h
    have hrest : (byte :: tail).length - (tail.drop (decodeVarintLength byte - 1)).length =
        decodeVarintLength byte := by
      simp only [List.length_cons, List.length_drop]
      omega
    rw [hrest, varintDecode, if_neg (by omega)]
    refine ⟨rfl, ?_, ?_⟩
    · obtain ⟨k, hk⟩ := Nat.exists_eq_succ_of_ne_zero hpos.ne'
      rw [hk]
      rfl
    · simp only [List.length_drop, List.length_cons]
      omega

/-- Skipping ends where decoding ends. -/
theorem varintSkip_eq (h : framesVarintDecode bytes = some (v, rest)) :
    framesVarintSkip bytes = some rest := by
  cases bytes with
  | nil => simp [framesVarintDecode] at h
  | cons byte tail =>
    rw [framesVarintDecode] at h
    split_ifs at h with hlen
    simp only [Option.some.injEq, Prod.mk.injEq] at h
    obtain ⟨k, hk⟩ := Nat.exists_eq_succ_of_ne_zero (decodeVarintLength_pos byte).ne'
    rw [framesVarintSkip, framesFixedSkip, if_pos (by simpa using hlen), ← h.2, hk]
    rfl

/-! ### What can be read -/

theorem decodeVarintLength_le (byte : UInt8) : decodeVarintLength byte ≤ 8 := by
  have hbyte := byte.toNat_lt
  rw [decodeVarintLength, Nat.shiftRight_eq_div_pow, Nat.shiftLeft_eq, one_mul]
  exact Nat.pow_le_pow_right (by omega) (by omega : byte.toNat / 2 ^ 6 ≤ 3)

/-- Bytes read from the most significant one on. -/
theorem foldl_bytes_lt (bytes : List UInt8) {v m : ℕ} (hv : v < m) :
    bytes.foldl (fun v b => (v <<< 8) + b.toNat) v < m * 256 ^ bytes.length := by
  induction bytes generalizing v m with
  | nil => simpa using hv
  | cons b bytes ih =>
    have hb := b.toNat_lt
    have hstep : (v <<< 8) + b.toNat < m * 256 := by
      rw [Nat.shiftLeft_eq]
      omega
    rw [List.foldl_cons, List.length_cons, Nat.pow_succ, Nat.mul_comm (256 ^ _), ← Nat.mul_assoc]
    exact ih hstep

/-- An integer has 62 bits. -/
theorem framesVarintDecode_lt (h : framesVarintDecode bytes = some (v, rest)) : v < 2 ^ 62 := by
  match bytes with
  | [] => simp [framesVarintDecode] at h
  | byte :: tail =>
    rw [framesVarintDecode] at h
    split_ifs at h with hlen
    obtain ⟨rfl, -⟩ := Prod.mk.inj (Option.some.inj h)
    have hlength : (tail.take (decodeVarintLength byte - 1)).length ≤ 7 := by
      have := decodeVarintLength_le byte
      rw [List.length_take]
      omega
    calc varintValue byte (tail.take (decodeVarintLength byte - 1))
        < 64 * 256 ^ (tail.take (decodeVarintLength byte - 1)).length :=
          foldl_bytes_lt _ (Nat.mod_lt _ (by omega))
      _ ≤ 64 * 256 ^ 7 := Nat.mul_le_mul_left _ (Nat.pow_le_pow_right (by omega) hlength)
      _ = 2 ^ 62 := rfl

/-! ### Encoded values at a position -/

theorem varintDecode_varintBytes (rest : List UInt8) :
    varintDecode (varintBytes n64 ++ rest) = (encodeVarintLength n64, n64 % 2 ^ 62) := by
  rw [(varintDecode_eq (framesVarintDecode_varintBytes n64 rest)).1]
  simp

theorem framesVarintSkip_varintBytes (rest : List UInt8) :
    framesVarintSkip (varintBytes n64 ++ rest) = some rest :=
  varintSkip_eq (framesVarintDecode_varintBytes n64 rest)

/-- The first byte tells the length. -/
theorem decodeVarintLength_varintBytes (rest : List UInt8) :
    decodeVarintLength ((varintBytes n64 ++ rest).headD 0) = encodeVarintLength n64 := by
  have h := congrArg Prod.fst (varintDecode_varintBytes n64 rest)
  have hpos := encodeVarintLength_pos n64
  cases hb : varintBytes n64 ++ rest with
  | nil =>
    rw [hb, varintDecode] at h
    omega
  | cons byte tail =>
    rw [hb, varintDecode] at h
    split_ifs at h
    · omega
    · exact h

/-! ### Writing into a limited space -/

/-- Bytes appended to what was written, unless the space is too small. -/
def appendWithin (space : ℕ) (out bytes : List UInt8) : Option (List UInt8) :=
  if out.length + bytes.length ≤ space then some (out ++ bytes) else none

theorem framesVarintEncode_eq (out : List UInt8) (space n64 : ℕ) :
    framesVarintEncode out space n64 = appendWithin space out (varintBytes n64) := by
  rw [framesVarintEncode, appendWithin, varintBytes_length]

/-- Writing twice is writing the concatenation. -/
theorem appendWithin_bind (space : ℕ) (out a b : List UInt8) :
    ((appendWithin space out a).bind fun out => appendWithin space out b) =
      appendWithin space out (a ++ b) := by
  rw [appendWithin, appendWithin]
  split_ifs with ha hab hab
  · rw [Option.bind_some, appendWithin, if_pos (by simp at hab ⊢; omega), List.append_assoc]
  · rw [Option.bind_some, appendWithin, if_neg (by simp at hab ⊢; omega)]
  · simp only [List.length_append] at hab
    omega
  · rfl

end Picoquic
