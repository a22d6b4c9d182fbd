import Mathlib.Tactic.IntervalCases
import Picoquic.Wire.Varint

/-!
# Packet numbers in 1-RTT headers

A 1-RTT packet carries the low bytes of its number. The sender predicts the length of the header
before the packet is filled, from the connection ID of the first path, and creates the header when
the packet is protected, with the connection ID of the path it is sent on; whatever the connection
ID leaves of the predicted length is the length of the packet number. The receiver extends the
number to the one nearest to what it expects.

* **`predictPacketHeaderLength`**, **`createPacketHeader`** — the two halves of the sender;
* **`readPacketNumber`**, **`getPacketNumber64`** — the receiver;
* **`getPacketNumber64_eq_iff`** — which numbers are recovered from `l` bytes;
* **`packet_number_coding_iff`** — when the two ends agree.
-/

namespace Picoquic

/-- `picoquic_connection_id_t`: up to `PICOQUIC_CONNECTION_ID_MAX_SIZE` bytes. -/
abbrev RemoteCnxid : Type := { id : List UInt8 // id.length ≤ 20 }

/-- `id_len`. -/
def RemoteCnxid.idLen (cid : RemoteCnxid) : ℕ := cid.val.length

/-! ### The sender -/

/-- The part of a packet context that the length of a packet number depends on. -/
structure SendSequence where
  /-- Number of the packet to send: `send_sequence`. -/
  sendSequence : ℕ
  /-- Number of the oldest packet that is not acknowledged, `retransmit_oldest`. -/
  retransmitOldest : Option ℕ
  sendSequence_lt : sendSequence < 2 ^ 64
  oldest_lt : ∀ o ∈ retransmitOldest, o < sendSequence

/-- How far the number is from the oldest one, as the code computes it: `delta`. -/
def SendSequence.delta (s : SendSequence) : ℤ :=
  match s.retransmitOldest with
  | none => int64 s.sendSequence
  | some o => int64 (sub64 s.sendSequence o)

/-- The acceptable length of the packet number: `pn_l`. -/
def SendSequence.pnLength (s : SendSequence) : ℕ :=
  if s.delta < 262144 then
    if s.sendSequence < 1024 then if s.sendSequence < 16 then 1 else 2 else 3
  else 4

/-- `picoquic_predict_packet_header_length` for a 1-RTT packet. The connection ID is that of
`path[0]`. -/
def predictPacketHeaderLength (defaultCnxid : RemoteCnxid) (s : SendSequence) : ℕ :=
  1 + defaultCnxid.idLen + s.pnLength

/-- The bits of the first byte that say nothing about the packet number: the key phase, the QUIC
bit, which may be greased, and the spin bit. -/
structure FirstByteBits where
  keyPhase : Bool
  quicBit : Bool
  spin : Bool

/-- Those bits. -/
def FirstByteBits.toByte (b : FirstByteBits) : UInt8 :=
  (if b.keyPhase then 0x04 else 0) ||| (if b.quicBit then 0x40 else 0) |||
    (if b.spin then 0x20 else 0)

/-- A header with the place of the packet number in it. -/
structure CreatedHeader where
  bytes : List UInt8
  pnOffset : ℕ
  pnLength : ℕ

/-- The low bytes of a packet number. -/
def pnBytes (pnL sequenceNumber : ℕ) : List UInt8 :=
  match pnL with
  | 1 => [UInt8.ofNat sequenceNumber]
  | 2 => [UInt8.ofNat (sequenceNumber >>> 8), UInt8.ofNat sequenceNumber]
  | 3 => [UInt8.ofNat (sequenceNumber >>> 16), UInt8.ofNat (sequenceNumber >>> 8),
      UInt8.ofNat sequenceNumber]
  | _ => [UInt8.ofNat (sequenceNumber >>> 24), UInt8.ofNat (sequenceNumber >>> 16),
      UInt8.ofNat (sequenceNumber >>> 8), UInt8.ofNat sequenceNumber]

/-- What the connection ID leaves of the predicted length for the packet number: `pn_l`. -/
def createdPnLength (idLen headerLength : ℕ) : ℕ :=
  let length := 1 + idLen
  if length < headerLength ∧ headerLength < length + 4 then headerLength - length else 4

/-- `picoquic_create_packet_header` for a 1-RTT packet. The connection ID is that of the path the
packet is sent on. -/
def createPacketHeader (bits : FirstByteBits) (remoteCnxid : RemoteCnxid)
    (headerLength sequenceNumber : ℕ) : CreatedHeader :=
  let pnL := createdPnLength remoteCnxid.idLen headerLength
  { bytes := (bits.toByte ||| UInt8.ofNat (pnL - 1)) :: remoteCnxid.val ++
      pnBytes pnL sequenceNumber
    pnOffset := 1 + remoteCnxid.idLen
    pnLength := pnL }

/-! ### The receiver -/

/-- `picoquic_get_packet_number64`. -/
def getPacketNumber64 (highest mask pn : ℕ) : ℕ :=
  let expected := u64 (highest + 1)
  let notMaskPlusOne := u64 (2 ^ 64 - 1 - mask + 1)
  let pn64 := (expected &&& mask) ||| pn
  if pn64 < expected then
    let delta1 := expected - pn64
    let delta2 := sub64 notMaskPlusOne delta1
    if delta2 < delta1 then u64 (pn64 + notMaskPlusOne) else pn64
  else
    let delta1 := pn64 - expected
    let delta2 := sub64 notMaskPlusOne delta1
    if delta2 ≤ delta1 ∧ 0 < pn64 &&& mask then sub64 pn64 notMaskPlusOne else pn64

/-- The mask for a packet number of `pnL` bytes: `pnmask`. -/
def pnMask (pnL : ℕ) : ℕ := u64 ((2 ^ 64 - 1) <<< (8 * pnL))

/-- What `picoquic_remove_header_protection` reads of an unprotected header, with the connection
ID length of the receiver: the full packet number. -/
def readPacketNumber (bytes : List UInt8) (pnOffset highest : ℕ) : ℕ :=
  let pnL := ((bytes.getD 0 0) &&& 3).toNat + 1
  let pn := ((bytes.drop pnOffset).take pnL).foldl (fun v b => (v <<< 8) + b.toNat) 0
  getPacketNumber64 highest (pnMask pnL) pn

/-! ### What is recovered from the low bytes -/

variable {l : ℕ}

/-- The mask keeps all but the low bytes. -/
theorem and_pnMask (h1 : 1 ≤ l) (h4 : l ≤ 4) {x : ℕ} (hx : x < 2 ^ 64) :
    x &&& pnMask l = x / 2 ^ (8 * l) * 2 ^ (8 * l) := by
  have hmask : pnMask l = (2 ^ (64 - 8 * l) - 1) <<< (8 * l) := by interval_cases l <;> rfl
  rw [hmask, ← Nat.shiftRight_eq_div_pow, ← Nat.shiftLeft_eq]
  refine Nat.eq_of_testBit_eq fun i => ?_
  rw [Nat.testBit_and, Nat.testBit_shiftLeft, Nat.testBit_shiftLeft, Nat.testBit_two_pow_sub_one,
    Nat.testBit_shiftRight]
  by_cases hi : 8 * l ≤ i
  · rw [Nat.add_sub_cancel' hi]
    by_cases h64 : i < 64
    · simp [hi, show i - 8 * l < 64 - 8 * l by omega]
    · -- no bit of `x` is that high
      have hbit : x.testBit i = false :=
        Nat.testBit_lt_two_pow (hx.trans_le (Nat.pow_le_pow_right (by norm_num) (by omega)))
      simp [hbit]
  · simp [hi]

theorem and_pnMask_or (h1 : 1 ≤ l) (h4 : l ≤ 4) {x pn : ℕ} (hx : x < 2 ^ 64)
    (hpn : pn < 2 ^ (8 * l)) : (x &&& pnMask l) ||| pn = x / 2 ^ (8 * l) * 2 ^ (8 * l) + pn := by
  rw [and_pnMask h1 h4 hx, mul_comm, Nat.two_pow_add_eq_or_of_lt hpn]

/-- **What is recovered.** From its `l` low bytes a number is recovered if it has no more than
these, or if the expected number is less than half a window behind. -/
theorem getPacketNumber64_eq_iff (h1 : 1 ≤ l) (h4 : l ≤ 4) {highest n : ℕ} (hn : n < 2 ^ 64)
    (hle : highest + 1 ≤ n) :
    getPacketNumber64 highest (pnMask l) (n % 2 ^ (8 * l)) = n ↔
      n < 2 ^ (8 * l) ∨ 2 * (n - (highest + 1)) < 2 ^ (8 * l) := by
  have hexp : u64 (highest + 1) = highest + 1 := u64_of_lt (by omega)
  have hwindow : u64 (2 ^ 64 - 1 - pnMask l + 1) = 2 ^ (8 * l) := by
    interval_cases l <;> rfl
  have hlow : n % 2 ^ (8 * l) < 2 ^ (8 * l) := Nat.mod_lt _ (Nat.two_pow_pos _)
  have hcand := and_pnMask_or h1 h4 (x := highest + 1) (by omega) hlow
  have hlt : (highest + 1) / 2 ^ (8 * l) * 2 ^ (8 * l) + n % 2 ^ (8 * l) < 2 ^ 64 := by
    interval_cases l <;> omega
  rw [getPacketNumber64]
  simp only [hexp, hwindow, hcand, and_pnMask h1 h4 hlt]
  generalize hc : (highest + 1) / 2 ^ (8 * l) * 2 ^ (8 * l) + n % 2 ^ (8 * l) = c at hlt
  have hbelow : highest + 1 - c < 2 ^ (8 * l) := by interval_cases l <;> omega
  have habove : c - (highest + 1) < 2 ^ (8 * l) := by interval_cases l <;> omega
  have hw : 2 ^ (8 * l) < 2 ^ 64 := Nat.pow_lt_pow_right (by norm_num) (by omega)
  rw [sub64_of_le hbelow.le hw, sub64_of_le habove.le hw]
  by_cases hlt' : c < highest + 1
  · -- the candidate is behind: the number is one window further
    rw [if_pos hlt']
    split_ifs with hnear
    · rw [u64_of_lt (by interval_cases l <;> omega)]
      interval_cases l <;> omega
    · interval_cases l <;> omega
  · -- the candidate is ahead, and it is the number unless that is windows further
    rw [if_neg hlt']
    split_ifs with hfar
    · rw [sub64_of_le (by interval_cases l <;> omega) hlt]
      interval_cases l <;> omega
    · interval_cases l <;> omega

/-! ### The two ends -/

theorem pnBytes_length (h1 : 1 ≤ l) (h4 : l ≤ 4) (n : ℕ) : (pnBytes l n).length = l := by
  interval_cases l <;> rfl

theorem foldl_pnBytes (h1 : 1 ≤ l) (h4 : l ≤ 4) (n : ℕ) :
    (pnBytes l n).foldl (fun v b => (v <<< 8) + b.toNat) 0 = n % 2 ^ (8 * l) := by
  interval_cases l <;>
    simp only [pnBytes, List.foldl, UInt8.toNat_ofNat', Nat.shiftLeft_eq,
      Nat.shiftRight_eq_div_pow] <;> omega

theorem toByte_or_and_three (b : FirstByteBits) (h1 : 1 ≤ l) (h4 : l ≤ 4) :
    ((b.toByte ||| UInt8.ofNat (l - 1)) &&& 3).toNat + 1 = l := by
  obtain ⟨k, c, s⟩ := b
  interval_cases l <;> cases k <;> cases c <;> cases s <;> rfl

variable (s : SendSequence) (idLen headerLength : ℕ)

theorem createdPnLength_range :
    1 ≤ createdPnLength idLen headerLength ∧ createdPnLength idLen headerLength ≤ 4 := by
  rw [createdPnLength]
  split_ifs <;> omega

theorem createPacketHeader_length (bits : FirstByteBits) (cid : RemoteCnxid)
    (headerLength n : ℕ) :
    (createPacketHeader bits cid headerLength n).bytes.length =
      1 + cid.idLen + createdPnLength cid.idLen headerLength := by
  obtain ⟨h1, h4⟩ := createdPnLength_range cid.idLen headerLength
  rw [createPacketHeader, List.length_append, List.length_cons, pnBytes_length h1 h4,
    RemoteCnxid.idLen, add_comm 1]

/-- The receiver finds the low part of the packet number in a created header. -/
theorem readPacketNumber_createPacketHeader (bits : FirstByteBits) (cid : RemoteCnxid)
    (headerLength n highest : ℕ) :
    let header := createPacketHeader bits cid headerLength n
    let l := createdPnLength cid.idLen headerLength
    readPacketNumber header.bytes header.pnOffset highest =
      getPacketNumber64 highest (pnMask l) (n % 2 ^ (8 * l)) := by
  obtain ⟨h1, h4⟩ := createdPnLength_range cid.idLen headerLength
  intro header l
  have hheader : header.bytes =
      ((bits.toByte ||| UInt8.ofNat (l - 1)) :: cid.val) ++ pnBytes l n := rfl
  have hoffset : header.pnOffset =
      ((bits.toByte ||| UInt8.ofNat (l - 1)) :: cid.val).length := by
    show 1 + cid.idLen = _
    rw [List.length_cons, add_comm]
    rfl
  have hfirst : ((bits.toByte ||| UInt8.ofNat (l - 1)) &&& 3).toNat + 1 = l :=
    toByte_or_and_three bits h1 h4
  rw [readPacketNumber, hoffset, hheader, List.drop_left, List.cons_append, List.getD_cons_zero,
    hfirst, List.take_of_length_le (pnBytes_length h1 h4 n).le, foldl_pnBytes h1 h4]

/-- The receivers that a sender has to reckon with, by the largest number they received: all
packets before the oldest one that is not acknowledged have arrived, and fewer than `2 ^ 31` packets
are outstanding. -/
structure SendSequence.MayMeet (s : SendSequence) (largest : Option ℕ) : Prop where
  oldest_le : ∀ o ∈ s.retransmitOldest, o ≤ largest.elim 0 (· + 1)
  next_le : largest.elim 0 (· + 1) ≤ s.sendSequence
  outstanding_lt : s.sendSequence - largest.elim 0 (· + 1) < 2 ^ 31

/-- How many packets before this one such a receiver may lack. -/
def SendSequence.outstanding (s : SendSequence) : ℕ :=
  min (s.sendSequence - s.retransmitOldest.getD 0) (2 ^ 31 - 1)

/-- The bytes that the connection ID of the path leaves for the packet number, of the header
predicted from that of the first path, are one to four, and they hold the number, or twice as many
packets as may be outstanding. -/
def SendSequence.Fits (s : SendSequence) (defaultIdLen idLen : ℕ) : Prop :=
  idLen < defaultIdLen + s.pnLength ∧ defaultIdLen + s.pnLength ≤ idLen + 4 ∧
    (s.sendSequence < 2 ^ (8 * (defaultIdLen + s.pnLength - idLen)) ∨
      2 * s.outstanding < 2 ^ (8 * (defaultIdLen + s.pnLength - idLen)))

variable {largest : Option ℕ}

/-- A receiver recovers the number from its `l` low bytes. -/
theorem SendSequence.MayMeet.recovers_iff {s : SendSequence} (h : s.MayMeet largest) (h1 : 1 ≤ l)
    (h4 : l ≤ 4) :
    getPacketNumber64 (largest.getD 0) (pnMask l) (s.sendSequence % 2 ^ (8 * l)) =
        s.sendSequence ↔
      s.sendSequence < 2 ^ (8 * l) ∨
        2 * (s.sendSequence - largest.elim 0 (· + 1)) < 2 ^ (8 * l) := by
  cases largest with
  | some highest => exact getPacketNumber64_eq_iff h1 h4 s.sendSequence_lt h.next_le
  | none =>
    -- without a packet received yet, the code expects number one
    rcases Nat.eq_zero_or_pos s.sendSequence with hzero | hpos
    · rw [hzero]
      interval_cases l <;> decide
    · rw [Option.getD_none, getPacketNumber64_eq_iff h1 h4 s.sendSequence_lt hpos]
      simp only [Option.elim_none]
      interval_cases l <;> omega

theorem SendSequence.MayMeet.le_outstanding {s : SendSequence} (h : s.MayMeet largest) :
    s.sendSequence - largest.elim 0 (· + 1) ≤ s.outstanding := by
  obtain ⟨hold, hle, hlt⟩ := h
  rw [outstanding]
  cases ho : s.retransmitOldest with
  | none => exact le_min (Nat.sub_le _ _) (by omega)
  | some o => exact le_min (Nat.sub_le_sub_left (hold o ho) _) (by omega)

/-- There is a receiver that lacks as many packets as may be outstanding. -/
theorem SendSequence.exists_mayMeet :
    ∃ largest, s.MayMeet largest ∧
      s.sendSequence - largest.elim 0 (· + 1) = s.outstanding := by
  have hold : s.retransmitOldest.getD 0 ≤ s.sendSequence := by
    have hlt := s.oldest_lt
    cases ho : s.retransmitOldest with
    | none => exact Nat.zero_le _
    | some o => exact (hlt o ho).le
  have hmem : ∀ o ∈ s.retransmitOldest, o = s.retransmitOldest.getD 0 := by
    intro o ho
    rw [Option.mem_def.mp ho]
    rfl
  have hout : s.outstanding = min (s.sendSequence - s.retransmitOldest.getD 0) (2 ^ 31 - 1) := rfl
  rcases Nat.eq_zero_or_pos (s.sendSequence - s.outstanding) with hzero | hpos
  · exact ⟨none, ⟨fun o ho => by simp only [Option.elim_none]; have := hmem o ho; omega,
      Nat.zero_le _, by simp only [Option.elim_none]; omega⟩,
      by simp only [Option.elim_none]; omega⟩
  · refine ⟨some (s.sendSequence - s.outstanding - 1), ⟨fun o ho => ?_, ?_, ?_⟩, ?_⟩ <;>
      simp only [Option.elim_some]
    · have := hmem o ho
      omega
    all_goals omega

theorem createdPnLength_eq_iff :
    1 + idLen + createdPnLength idLen headerLength = headerLength ↔
      1 + idLen < headerLength ∧ headerLength ≤ 1 + idLen + 4 := by
  rw [createdPnLength]
  split_ifs <;> omega

/-- **Packet number coding.** The header has the predicted length, and every receiver recovers the
packet number from it, exactly if what the connection ID of the path leaves of the prediction is
enough. -/
theorem packet_number_coding_iff (bits : FirstByteBits) (defaultCnxid remoteCnxid : RemoteCnxid)
    (s : SendSequence) :
    (let headerLength := predictPacketHeaderLength defaultCnxid s
      let header := createPacketHeader bits remoteCnxid headerLength s.sendSequence
      header.bytes.length = headerLength ∧
        ∀ largest, s.MayMeet largest →
          readPacketNumber header.bytes header.pnOffset (largest.getD 0) = s.sendSequence) ↔
      s.Fits defaultCnxid.idLen remoteCnxid.idLen := by
  simp only [createPacketHeader_length, readPacketNumber_createPacketHeader,
    createdPnLength_eq_iff, predictPacketHeaderLength]
  rw [SendSequence.Fits, ← and_assoc]
  have hlength : (1 + remoteCnxid.idLen < 1 + defaultCnxid.idLen + s.pnLength ∧
      1 + defaultCnxid.idLen + s.pnLength ≤ 1 + remoteCnxid.idLen + 4) ↔
      remoteCnxid.idLen < defaultCnxid.idLen + s.pnLength ∧
        defaultCnxid.idLen + s.pnLength ≤ remoteCnxid.idLen + 4 := by
    constructor <;> rintro ⟨h, h'⟩ <;> exact ⟨by omega, by omega⟩
  rw [hlength]
  refine and_congr_right fun ⟨hlo, hhi⟩ => ?_
  have hl : createdPnLength remoteCnxid.idLen (1 + defaultCnxid.idLen + s.pnLength) =
      defaultCnxid.idLen + s.pnLength - remoteCnxid.idLen := by
    have := (createdPnLength_eq_iff remoteCnxid.idLen
      (1 + defaultCnxid.idLen + s.pnLength)).mpr ⟨by omega, by omega⟩
    omega
  rw [hl]
  constructor
  · -- the receiver that lacks the most packets decides
    intro h
    obtain ⟨largest, hmeet, hlack⟩ := s.exists_mayMeet
    rw [← hlack]
    exact (hmeet.recovers_iff (by omega) (by omega)).mp (h largest hmeet)
  · intro h largest hmeet
    refine (hmeet.recovers_iff (by omega) (by omega)).mpr (h.imp_right fun h' => ?_)
    exact lt_of_le_of_lt (Nat.mul_le_mul_left 2 hmeet.le_outstanding) h'

/-- **The number is lost.** The connection ID of the second path is a byte longer than that of the
first: packet 1000 goes out with one byte of its number, of which a receiver that has only packet 0
makes 232. -/
theorem packet_number_lost :
    let defaultCnxid : RemoteCnxid := ⟨List.replicate 8 0xAA, by decide⟩
    let remoteCnxid : RemoteCnxid := ⟨List.replicate 9 0xBB, by decide⟩
    let s : SendSequence := ⟨1000, some 1, by decide, by decide⟩
    let headerLength := predictPacketHeaderLength defaultCnxid s
    let header := createPacketHeader ⟨false, true, false⟩ remoteCnxid headerLength s.sendSequence
    s.MayMeet (some 0) ∧ headerLength = 11 ∧ header.bytes.length = 11 ∧ header.pnLength = 1 ∧
      readPacketNumber header.bytes header.pnOffset 0 = 232 := by
  refine ⟨⟨?_, ?_, ?_⟩, ?_⟩ <;> decide

end Picoquic
